import Mathlib.Data.List.Chain
import RefManifest.Proofs.Yaml.Indentation
import RefManifest.Render

/-!
# RefManifest.Proofs.Yaml.Row

The rows of a manifest in block style, and how they are told apart.

A row is a slot, which is a name in its place, and a value; the lines of the value after the first
are indented deeper than any name that may follow. So a text of rows is read in one way only
(`text_injective`): the colon ends the name, and the value goes on as long as lines are indented or
empty. A line feed at the end of the text belongs to the value of its last row
(`withLineFeed_text`).
-/

namespace RefManifest
namespace Yaml

/-- The names of a manifest in block style, each in its place. -/
inductive Slot where
  | version
  | parts
  | partName
  | components
  | componentName
  | requirement
  | required
  | optional
  | path
deriving DecidableEq

namespace Slot

/-- What stands in front of the colon. -/
def lead : Slot → List Char
  | version => "apiVersion".toList
  | parts => "parts".toList
  | partName => "- name".toList
  | components => "  components".toList
  | componentName => "  - name".toList
  | requirement => "    type".toList
  | required => "    requiredTemplates".toList
  | optional => "    optionalTemplates".toList
  | path => "    - path".toList

/-- How many spaces stand in front. -/
def column : Slot → Nat
  | version | parts | partName => 0
  | components | componentName => 2
  | requirement | required | optional | path => 4

/-- How far the name is indented. A dash in front counts as a space. -/
def indent : Slot → Nat
  | version | parts => 0
  | partName | components => 2
  | componentName | requirement | required | optional => 4
  | path => 6

def all : List Slot :=
  [version, parts, partName, components, componentName, requirement, required, optional, path]

theorem mem_all (a : Slot) : a ∈ all := by cases a <;> decide

theorem lead_injective {a b : Slot} (h : a.lead = b.lead) : a = b := by
  have hall : ∀ a ∈ all, ∀ b ∈ all, a.lead = b.lead → a = b := by decide +kernel
  exact hall a (mem_all a) b (mem_all b) h

theorem colon_not_mem_lead (a : Slot) : ':' ∉ a.lead := by cases a <;> decide

theorem lead_eq (a : Slot) :
    ∃ c rest, a.lead = spaces a.column ++ c :: rest ∧ isSpace c = false ∧ isBreak c = false := by
  cases a with
  | version => exact ⟨'a', "piVersion".toList, rfl, rfl, rfl⟩
  | parts => exact ⟨'p', "arts".toList, rfl, rfl, rfl⟩
  | partName => exact ⟨'-', " name".toList, rfl, rfl, rfl⟩
  | components => exact ⟨'c', "omponents".toList, rfl, rfl, rfl⟩
  | componentName => exact ⟨'-', " name".toList, rfl, rfl, rfl⟩
  | requirement => exact ⟨'t', "ype".toList, rfl, rfl, rfl⟩
  | required => exact ⟨'r', "equiredTemplates".toList, rfl, rfl, rfl⟩
  | optional => exact ⟨'o', "ptionalTemplates".toList, rfl, rfl, rfl⟩
  | path => exact ⟨'-', " path".toList, rfl, rfl, rfl⟩

end Slot

abbrev Row := Slot × List Char

def Row.text (x : Row) : List Char := x.1.lead ++ ':' :: literalBody (x.1.indent + 2) false x.2

def text (rows : List Row) : List Char := rows.flatMap Row.text

/-- The row `y` is less indented than the further lines of `x`. -/
def Row.endsAt (x y : Row) : Prop := y.1.column < x.1.indent + 2

/-- Rows that can be told apart in their text. -/
structure Legible (rows : List Row) : Prop where
  chain : rows.IsChain Row.endsAt
  ended : ∀ x ∈ rows, endsBroken x.2 = true

variable {rows rows' front : List Row} {x : Row} {a : Slot} {v w : List Char}

theorem Legible.tail (h : Legible (x :: rows)) : Legible rows :=
  ⟨h.chain.tail, fun y hy => h.ended y (List.mem_cons_of_mem x hy)⟩

theorem Legible.outdented (h : Legible (x :: rows)) : Outdented (x.1.indent + 2) (text rows) := by
  cases rows with
  | nil => exact .inl rfl
  | cons y rows =>
    obtain ⟨c, rest, hlead, hspace, hbreak⟩ := y.1.lead_eq
    have hends : y.1.column < x.1.indent + 2 := (List.isChain_cons_cons.1 h.chain).1
    refine .inr ⟨_, hends, c, rest ++ ':' :: literalBody (y.1.indent + 2) false y.2 ++ text rows,
      ?_, hspace, hbreak⟩
    rw [text, List.flatMap_cons, Row.text, hlead]
    simp [text]

theorem text_cons (x : Row) (rows : List Row) :
    text (x :: rows) =
      x.1.lead ++ ':' :: (literalBody (x.1.indent + 2) false x.2 ++ text rows) := by
  simp [text, Row.text]

theorem text_cons_ne_nil (x : Row) (rows : List Row) : text (x :: rows) ≠ [] := by
  rw [text_cons]
  exact List.append_ne_nil_of_right_ne_nil _ (List.cons_ne_nil _ _)

/-- Rows can be read back from their text. -/
theorem text_injective (h : Legible rows) (h' : Legible rows') (heq : text rows = text rows') :
    rows = rows' := by
  induction rows generalizing rows' with
  | nil =>
    cases rows' with
    | nil => rfl
    | cons y rows' => exact absurd heq.symm (text_cons_ne_nil y rows')
  | cons x rows ih =>
    cases rows' with
    | nil => exact absurd heq (text_cons_ne_nil x rows)
    | cons y rows' =>
      obtain ⟨a, v⟩ := x
      obtain ⟨b, w⟩ := y
      rw [text_cons, text_cons] at heq
      obtain ⟨hlead, hrest⟩ := append_cons_injective a.colon_not_mem_lead b.colon_not_mem_lead heq
      obtain rfl := Slot.lead_injective hlead
      have hv := h.ended _ (List.mem_cons_self ..)
      have hw := h'.ended _ (List.mem_cons_self ..)
      obtain ⟨rfl, htext⟩ := literalBody_injective (Nat.succ_pos _) (closes_of_endsBroken hv)
        (closes_of_endsBroken hw) h.outdented h'.outdented hrest
      rw [ih h.tail h'.tail htext]

theorem text_concat (front : List Row) (a : Slot) (v : List Char) :
    text (front ++ [(a, v)]) =
      text front ++ a.lead ++ ':' :: literalBody (a.indent + 2) false v := by
  simp [text, Row.text]

theorem getLast?_text (front : List Row) (a : Slot) (hv : v ≠ []) :
    (text (front ++ [(a, v)])).getLast? = v.getLast? := by
  rcases v.eq_nil_or_concat with rfl | ⟨start, c, rfl⟩
  · exact absurd rfl hv
  · obtain ⟨t, ht⟩ := exists_literalBody_concat (a.indent + 2) false start c
    rw [text_concat, List.concat_eq_append, ht, List.getLast?_concat, ← List.cons_append,
      ← List.append_assoc, List.getLast?_concat]

theorem withLineFeed_text (front : List Row) (a : Slot) (hv : v ≠ []) :
    withLineFeed (text (front ++ [(a, v)])) = text (front ++ [(a, withLineFeed v)]) := by
  rw [withLineFeed, withLineFeed, getLast?_text front a hv]
  split
  · rfl
  · rw [text_concat, text_concat, literalBody_concat_break _ _ _ rfl]
    simp

theorem Legible.concat_congr (h : Legible (front ++ [(a, v)])) (hw : endsBroken w = true) :
    Legible (front ++ [(a, w)]) := by
  refine ⟨?_, fun x hx => ?_⟩
  · have hchain := h.chain
    simp only [List.isChain_append, List.isChain_singleton, List.head?_cons, Option.mem_some_iff,
      forall_eq', true_and] at hchain ⊢
    exact hchain
  · rcases List.mem_append.1 hx with hfront | hlast
    · exact h.ended x (List.mem_append_left _ hfront)
    · cases List.mem_singleton.1 hlast
      exact hw

/-! ## Blocks -/

/-- Legible rows, the first at column `c` or before and all of them indented by `c` at least. Such
rows may stand one block after the other. -/
structure Block (c : Nat) (rows : List Row) : Prop extends Legible rows where
  front : ∀ x ∈ rows.head?, x.1.column ≤ c
  deep : ∀ x ∈ rows, c ≤ x.1.indent

namespace Block

variable {c d : Nat}

theorem nil : Block c [] := ⟨⟨.nil, by simp⟩, by simp, by simp⟩

theorem cons (hslot : a.column ≤ c ∧ c ≤ a.indent ∧ c ≤ d ∧ d ≤ a.indent + 1)
    (hv : endsBroken v = true) (h : Block d rows) : Block c ((a, v) :: rows) := by
  obtain ⟨hcolumn, hindent, hc, hd⟩ := hslot
  refine ⟨⟨h.chain.cons fun y hy => ?_, ?_⟩, fun y hy => ?_, ?_⟩
  · exact Nat.lt_succ_of_le ((h.front y hy).trans hd)
  · exact List.forall_mem_cons.2 ⟨hv, h.ended⟩
  · cases hy
    exact hcolumn
  · exact List.forall_mem_cons.2 ⟨hindent, fun y hy => hc.trans (h.deep y hy)⟩

theorem append (h : Block c rows) (h' : Block c rows') : Block c (rows ++ rows') := by
  refine ⟨⟨List.isChain_append.2 ⟨h.chain, h'.chain, fun x hx y hy => ?_⟩, ?_⟩, fun x hx => ?_, ?_⟩
  · have hdeep := h.deep x (List.mem_of_getLast? hx)
    exact Nat.lt_add_right 1 (Nat.lt_succ_of_le ((h'.front y hy).trans hdeep))
  · exact List.forall_mem_append.2 ⟨h.ended, h'.ended⟩
  · cases rows with
    | nil => exact h'.front x hx
    | cons y rows => exact h.front x hx
  · exact List.forall_mem_append.2 ⟨h.deep, h'.deep⟩

theorem flatMap {α : Type} {f : α → List Row} (h : ∀ y, Block c (f y)) (ys : List α) :
    Block c (ys.flatMap f) := by
  induction ys with
  | nil => exact nil
  | cons y ys ih => exact (h y).append ih

end Block
end Yaml
end RefManifest

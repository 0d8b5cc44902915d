import RefManifest.Disk.Resolve
import RefManifest.Proofs.Disk.Tree

/-!
# RefManifest.Proofs.Disk.Leads

Resolving a path, as a relation.

`Leads root follow fits links start pending place` says that the steps `pending` lead from `start`
to `place`, with one rule for each kind of step. It mentions the tree only through its entries, so
two trees are compared on a resolution by comparing their entries along the way.

* `leads_iff`: the relation is what `resolveFrom` computes.
* `resolveFrom_here`, …, `resolveFrom_jump`: what one step does.
* `Leads.append`, `Leads.split`, `Leads.resolveFrom_append`: steps are taken one after the other.
* `locate_eq_ok`, `canonical?_eq_some`: looking a path up, through the relation.
-/

namespace RefManifest
namespace Disk

variable {root : Node} {follow : Bool} {fits : List Name → Bool}

/-- The steps lead from one place to another, within a budget of links. -/
inductive Leads (root : Node) (follow : Bool) (fits : List Name → Bool) :
    Nat → List Name → List Step → List Name → Prop where
  | done {links : Nat} {start : List Name} : Leads root follow fits links start [] start
  | here {links : Nat} {start place : List Name} {rest : List Step} :
      root.entryAt start = some .dir → Leads root follow fits links start rest place →
      Leads root follow fits links start (.here :: rest) place
  | up {links : Nat} {start place : List Name} {rest : List Step} :
      root.entryAt start = some .dir → Leads root follow fits links start.dropLast rest place →
      Leads root follow fits links start (.up :: rest) place
  | enter {links : Nat} {start place : List Name} {n : Name} {rest : List Step} {e : Entry} :
      root.entryAt start = some .dir → n.length ≤ maxNameLength → fits (start ++ [n]) = true →
      root.entryAt (start ++ [n]) = some e → (∀ t, e ≠ .link t) →
      Leads root follow fits links (start ++ [n]) rest place →
      Leads root follow fits links start (.name n :: rest) place
  | stop {links : Nat} {start : List Name} {n : Name} {t : Path} :
      root.entryAt start = some .dir → n.length ≤ maxNameLength → fits (start ++ [n]) = true →
      root.entryAt (start ++ [n]) = some (.link t) → follow = false →
      Leads root follow fits links start [.name n] (start ++ [n])
  | jump {left : Nat} {start place : List Name} {n : Name} {rest : List Step} {t : Path} :
      root.entryAt start = some .dir → n.length ≤ maxNameLength → fits (start ++ [n]) = true →
      root.entryAt (start ++ [n]) = some (.link t) → (rest = [] → follow = true) →
      Leads root follow fits left (if t.isAbsolute then [] else start) (stepsOf t ++ rest) place →
      Leads root follow fits (left + 1) start (.name n :: rest) place

theorem fitting_iff {p : List Name} {n : Name} :
    ¬ (maxNameLength < n.length ∨ fits p = false) ↔ n.length ≤ maxNameLength ∧ fits p = true := by
  rw [not_or, Nat.not_lt, Bool.not_eq_false]

theorem leads_of_resolveThrough {jump : List Name → List Step → Except Fault (List Name)}
    {links : Nat} {start place : List Name} {pending : List Step}
    (hjump : ∀ start pending place, jump start pending = .ok place →
      ∃ left, links = left + 1 ∧ Leads root follow fits left start pending place)
    (h : resolveThrough root follow fits jump start pending = .ok place) :
    Leads root follow fits links start pending place := by
  fun_induction resolveThrough root follow fits jump start pending with
  | case1 start =>
    cases h
    exact .done
  | case2 start rest es hdir ih =>
    exact .here (Node.entryAt_eq_dir.2 ⟨es, hdir⟩) (ih h)
  | case3 start rest es hdir ih =>
    exact .up (Node.entryAt_eq_dir.2 ⟨es, hdir⟩) (ih h)
  | case4 => cases h
  | case5 => cases h
  | case6 start rest es hdir n hfit t hlook hstop =>
    cases h
    obtain ⟨rfl, hfollow⟩ := hstop
    rw [fitting_iff] at hfit
    have hentry : root.entryAt (start ++ [n]) = some (.link t) := by
      rw [Node.entryAt_concat hdir, hlook]; rfl
    exact .stop (Node.entryAt_eq_dir.2 ⟨es, hdir⟩) hfit.1 hfit.2 hentry hfollow
  | case7 start rest es hdir n hfit t hlook hstop =>
    rw [fitting_iff] at hfit
    have hentry : root.entryAt (start ++ [n]) = some (.link t) := by
      rw [Node.entryAt_concat hdir, hlook]; rfl
    obtain ⟨left, rfl, hleads⟩ := hjump _ _ _ h
    refine .jump (Node.entryAt_eq_dir.2 ⟨es, hdir⟩) hfit.1 hfit.2 hentry ?_ hleads
    intro hrest
    by_contra hfollow
    exact hstop ⟨hrest, by simpa using hfollow⟩
  | case8 start rest es hdir n hfit y hlink hlook ih =>
    rw [fitting_iff] at hfit
    have hentry : root.entryAt (start ++ [n]) = some y.entry := by
      rw [Node.entryAt_concat hdir, hlook]; rfl
    refine .enter (Node.entryAt_eq_dir.2 ⟨es, hdir⟩) hfit.1 hfit.2 hentry ?_ (ih h)
    intro t ht
    cases y with
    | file c => cases ht
    | link t' => exact hlink t' rfl
    | dir es' => cases ht
  | case9 => cases h

theorem leads_of_resolveFrom {links : Nat} {start place : List Name} {pending : List Step}
    (h : resolveFrom root follow fits links start pending = .ok place) :
    Leads root follow fits links start pending place := by
  induction links generalizing start pending place with
  | zero =>
    rw [resolveFrom] at h
    refine leads_of_resolveThrough (fun _ _ _ hno => ?_) h
    cases hno
  | succ left ih =>
    rw [resolveFrom] at h
    exact leads_of_resolveThrough (fun _ _ _ hjump => ⟨left, rfl, ih hjump⟩) h

/-- Which way is gone behind a link makes no difference to the other steps. -/
theorem resolveFrom_eq_resolveThrough (root : Node) (follow : Bool) (fits : List Name → Bool)
    (links : Nat) : ∃ jump, resolveFrom root follow fits links =
      resolveThrough root follow fits jump := by
  cases links with
  | zero => exact ⟨_, rfl⟩
  | succ left => exact ⟨_, rfl⟩

section Step

variable {links : Nat} {start : List Name} {rest pending : List Step} {n : Name} {t : Path}

attribute [local simp] resolveThrough

theorem resolveFrom_nil : resolveFrom root follow fits links start [] = .ok start := by
  obtain ⟨jump, hjump⟩ := resolveFrom_eq_resolveThrough root follow fits links
  simp [hjump]

theorem resolveFrom_here (hdir : root.entryAt start = some .dir) :
    resolveFrom root follow fits links start (.here :: rest) =
      resolveFrom root follow fits links start rest := by
  obtain ⟨es, hes⟩ := Node.entryAt_eq_dir.1 hdir
  obtain ⟨jump, hjump⟩ := resolveFrom_eq_resolveThrough root follow fits links
  simp [hjump, hes]

theorem resolveFrom_up (hdir : root.entryAt start = some .dir) :
    resolveFrom root follow fits links start (.up :: rest) =
      resolveFrom root follow fits links start.dropLast rest := by
  obtain ⟨es, hes⟩ := Node.entryAt_eq_dir.1 hdir
  obtain ⟨jump, hjump⟩ := resolveFrom_eq_resolveThrough root follow fits links
  simp [hjump, hes]

theorem resolveFrom_of_not_dir (hstart : root.entryAt start ≠ some .dir) (hne : pending ≠ []) :
    resolveFrom root follow fits links start pending = .error .notDirectory := by
  obtain ⟨step, rest, rfl⟩ := List.exists_cons_of_ne_nil hne
  obtain ⟨jump, hjump⟩ := resolveFrom_eq_resolveThrough root follow fits links
  rw [hjump, resolveThrough]
  split
  · rename_i es hes
    exact absurd (Node.entryAt_eq_dir.2 ⟨es, hes⟩) hstart
  · rfl

theorem resolveFrom_long (hdir : root.entryAt start = some .dir)
    (hlen : maxNameLength < n.length) :
    resolveFrom root follow fits links start (.name n :: rest) = .error .nameTooLong := by
  obtain ⟨es, hes⟩ := Node.entryAt_eq_dir.1 hdir
  obtain ⟨jump, hjump⟩ := resolveFrom_eq_resolveThrough root follow fits links
  simp [hjump, hes, hlen]

variable (hdir : root.entryAt start = some .dir) (hlen : n.length ≤ maxNameLength)
  (hfit : fits (start ++ [n]) = true)
include hdir hlen hfit

theorem resolveFrom_missing (hentry : root.entryAt (start ++ [n]) = none) :
    resolveFrom root follow fits links start (.name n :: rest) = .error .missing := by
  obtain ⟨es, hes⟩ := Node.entryAt_eq_dir.1 hdir
  have hbound := fitting_iff.2 ⟨hlen, hfit⟩
  rw [Node.entryAt_concat hes, Option.map_eq_none_iff] at hentry
  obtain ⟨jump, hjump⟩ := resolveFrom_eq_resolveThrough root follow fits links
  rw [hjump, resolveThrough, hes]
  simp only [hbound, if_false, hentry]

theorem resolveFrom_enter {e : Entry} (hentry : root.entryAt (start ++ [n]) = some e)
    (hlink : ∀ t, e ≠ .link t) :
    resolveFrom root follow fits links start (.name n :: rest) =
      resolveFrom root follow fits links (start ++ [n]) rest := by
  obtain ⟨es, hes⟩ := Node.entryAt_eq_dir.1 hdir
  have hbound := fitting_iff.2 ⟨hlen, hfit⟩
  rw [Node.entryAt_concat hes, Option.map_eq_some_iff] at hentry
  obtain ⟨y, hlook, rfl⟩ := hentry
  obtain ⟨jump, hjump⟩ := resolveFrom_eq_resolveThrough root follow fits links
  rw [hjump, resolveThrough, hes]
  simp only [hbound, if_false, hlook]
  cases y with
  | link t => exact absurd rfl (hlink t)
  | file c => rfl
  | dir es' => rfl

theorem resolveFrom_stop (hentry : root.entryAt (start ++ [n]) = some (.link t))
    (hfollow : follow = false) :
    resolveFrom root follow fits links start [.name n] = .ok (start ++ [n]) := by
  obtain ⟨es, hes⟩ := Node.entryAt_eq_dir.1 hdir
  have hbound := fitting_iff.2 ⟨hlen, hfit⟩
  rw [Node.entryAt_eq_link, Node.get?_concat hes] at hentry
  obtain ⟨jump, hjump⟩ := resolveFrom_eq_resolveThrough root follow fits links
  rw [hjump, resolveThrough, hes]
  simp [hbound, hentry, hfollow]

theorem resolveFrom_jump {left : Nat} (hentry : root.entryAt (start ++ [n]) = some (.link t))
    (hrest : rest = [] → follow = true) :
    resolveFrom root follow fits (left + 1) start (.name n :: rest) =
      resolveFrom root follow fits left (if t.isAbsolute then [] else start)
        (stepsOf t ++ rest) := by
  obtain ⟨es, hes⟩ := Node.entryAt_eq_dir.1 hdir
  have hbound := fitting_iff.2 ⟨hlen, hfit⟩
  have hgo : ¬ (rest = [] ∧ follow = false) := by
    rintro ⟨hnil, hno⟩
    rw [hrest hnil] at hno
    cases hno
  rw [Node.entryAt_eq_link, Node.get?_concat hes] at hentry
  rw [resolveFrom, resolveThrough, hes]
  simp only [hbound, if_false, hentry, hgo]

end Step

/-! ## Where the steps lead -/

theorem Leads.resolveFrom_eq {links : Nat} {start place : List Name} {pending : List Step}
    (h : Leads root follow fits links start pending place) :
    resolveFrom root follow fits links start pending = .ok place := by
  induction h with
  | done => exact resolveFrom_nil
  | here hdir _ ih => rw [resolveFrom_here hdir, ih]
  | up hdir _ ih => rw [resolveFrom_up hdir, ih]
  | enter hdir hlen hfit hentry hlink _ ih => rw [resolveFrom_enter hdir hlen hfit hentry hlink, ih]
  | stop hdir hlen hfit hentry hfollow => rw [resolveFrom_stop hdir hlen hfit hentry hfollow]
  | jump hdir hlen hfit hentry hrest _ ih => rw [resolveFrom_jump hdir hlen hfit hentry hrest, ih]

/-- The relation is what resolving computes. -/
theorem leads_iff {links : Nat} {start place : List Name} {pending : List Step} :
    resolveFrom root follow fits links start pending = .ok place ↔
      Leads root follow fits links start pending place :=
  ⟨leads_of_resolveFrom, Leads.resolveFrom_eq⟩

namespace Leads

theorem weaken {fits' : List Name → Bool} (hfits : ∀ p, fits p = true → fits' p = true)
    {links : Nat} {start place : List Name} {pending : List Step}
    (h : Leads root follow fits links start pending place) :
    Leads root follow fits' links start pending place := by
  induction h with
  | done => exact .done
  | here hdir _ ih => exact .here hdir ih
  | up hdir _ ih => exact .up hdir ih
  | enter hdir hlen hfit hentry hlink _ ih => exact .enter hdir hlen (hfits _ hfit) hentry hlink ih
  | stop hdir hlen hfit hentry hfollow => exact .stop hdir hlen (hfits _ hfit) hentry hfollow
  | jump hdir hlen hfit hentry hrest _ ih => exact .jump hdir hlen (hfits _ hfit) hentry hrest ih

theorem unique {links : Nat} {start place place' : List Name} {pending : List Step}
    (h : Leads root follow fits links start pending place)
    (h' : Leads root follow fits links start pending place') : place = place' := by
  have e := h.resolveFrom_eq
  rw [h'.resolveFrom_eq] at e
  cases e
  rfl

theorem of_not_dir {links : Nat} {start place : List Name} {pending : List Step}
    (hstart : root.entryAt start ≠ some .dir)
    (h : Leads root follow fits links start pending place) : pending = [] ∧ place = start := by
  cases h with
  | done => exact ⟨rfl, rfl⟩
  | here hdir _ => exact absurd hdir hstart
  | up hdir _ => exact absurd hdir hstart
  | enter hdir _ _ _ _ _ => exact absurd hdir hstart
  | stop hdir _ _ _ _ => exact absurd hdir hstart
  | jump hdir _ _ _ _ _ => exact absurd hdir hstart

theorem append {links : Nat} {start mid place : List Name} {a b : List Step} (hb : b ≠ [])
    (h : Leads root true fits links start a mid)
    (hrest : ∀ left, Leads root follow fits left mid b place) :
    Leads root follow fits links start (a ++ b) place := by
  induction h with
  | done => exact hrest _
  | here hdir _ ih => exact .here hdir (ih hrest)
  | up hdir _ ih => exact .up hdir (ih hrest)
  | enter hdir hlen hfit hentry hlink _ ih =>
    exact .enter hdir hlen hfit hentry hlink (ih hrest)
  | stop _ _ _ _ hfollow => cases hfollow
  | jump hdir hlen hfit hentry _ _ ih =>
    refine .jump hdir hlen hfit hentry (fun hnil => absurd ?_ hb) ?_
    · exact (List.append_eq_nil_iff.1 hnil).2
    · have hall := ih hrest
      rw [List.append_assoc] at hall
      exact hall

theorem split {links : Nat} {start place : List Name} {a b : List Step} (hb : b ≠ [])
    (h : Leads root follow fits links start (a ++ b) place) :
    ∃ left mid, Leads root true fits links start a mid ∧
      Leads root follow fits left mid b place := by
  generalize hp : a ++ b = pending at h
  -- A link puts its own steps in front, and they join the first part.
  induction h generalizing a with
  | done => exact absurd (List.append_eq_nil_iff.1 hp).2 hb
  | @here links start place rest hdir hnext ih =>
    cases a with
    | nil =>
      subst hp
      exact ⟨_, _, .done, .here hdir hnext⟩
    | cons s a =>
      cases hp
      obtain ⟨left, mid, h₁, h₂⟩ := ih rfl
      exact ⟨left, mid, .here hdir h₁, h₂⟩
  | @up links start place rest hdir hnext ih =>
    cases a with
    | nil =>
      subst hp
      exact ⟨_, _, .done, .up hdir hnext⟩
    | cons s a =>
      cases hp
      obtain ⟨left, mid, h₁, h₂⟩ := ih rfl
      exact ⟨left, mid, .up hdir h₁, h₂⟩
  | @enter links start place n rest e hdir hlen hfit hentry hlink hnext ih =>
    cases a with
    | nil =>
      subst hp
      exact ⟨_, _, .done, .enter hdir hlen hfit hentry hlink hnext⟩
    | cons s a =>
      cases hp
      obtain ⟨left, mid, h₁, h₂⟩ := ih rfl
      exact ⟨left, mid, .enter hdir hlen hfit hentry hlink h₁, h₂⟩
  | @stop links start n t hdir hlen hfit hentry hfollow =>
    cases a with
    | nil =>
      subst hp
      exact ⟨links, start, .done, .stop hdir hlen hfit hentry hfollow⟩
    | cons s a =>
      simp only [List.cons_append, List.cons.injEq] at hp
      exact absurd (List.append_eq_nil_iff.1 hp.2).2 hb
  | @jump left start place n rest t hdir hlen hfit hentry hrest hnext ih =>
    cases a with
    | nil =>
      subst hp
      exact ⟨_, _, .done, .jump hdir hlen hfit hentry hrest hnext⟩
    | cons s a =>
      cases hp
      obtain ⟨left', mid, h₁, h₂⟩ := ih (List.append_assoc _ _ _)
      exact ⟨left', mid, .jump hdir hlen hfit hentry (fun _ => rfl) h₁, h₂⟩

/-- What comes of further steps is decided at the place that the first ones lead to, with the
links that are left. -/
theorem resolveFrom_append (follow : Bool) {links : Nat} {start mid : List Name} {a : List Step}
    (h : Leads root true fits links start a mid) :
    ∃ left, ∀ b, b ≠ [] → resolveFrom root follow fits links start (a ++ b) =
      resolveFrom root follow fits left mid b := by
  induction h with
  | @done links start => exact ⟨links, fun b _ => rfl⟩
  | here hdir _ ih =>
    obtain ⟨left, hleft⟩ := ih
    exact ⟨left, fun b hb => (resolveFrom_here hdir).trans (hleft b hb)⟩
  | up hdir _ ih =>
    obtain ⟨left, hleft⟩ := ih
    exact ⟨left, fun b hb => (resolveFrom_up hdir).trans (hleft b hb)⟩
  | enter hdir hlen hfit hentry hlink _ ih =>
    obtain ⟨left, hleft⟩ := ih
    exact ⟨left, fun b hb =>
      (resolveFrom_enter hdir hlen hfit hentry hlink).trans (hleft b hb)⟩
  | stop _ _ _ _ hfollow => cases hfollow
  | jump hdir hlen hfit hentry _ _ ih =>
    obtain ⟨left, hleft⟩ := ih
    refine ⟨left, fun b hb => ?_⟩
    have hnil : ∀ {rest}, rest ++ b = [] → follow = true :=
      fun h => absurd (List.append_eq_nil_iff.1 h).2 hb
    rw [List.cons_append, resolveFrom_jump hdir hlen hfit hentry hnil, ← List.append_assoc]
    exact hleft b hb

/-- Through directories, names lead to the place that they spell, and take no links. -/
theorem along_dirs {links : Nat} {start place names : List Name} {rest : List Step}
    (hdir : root.entryAt (start ++ names) = some .dir) :
    Leads root follow anyPlace links start (names.map .name ++ rest) place ↔
      Leads root follow anyPlace links (start ++ names) rest place ∧
        ∀ n ∈ names, n.length ≤ maxNameLength := by
  induction names generalizing start with
  | nil => simp
  | cons n names ih =>
    have hsplit : start ++ n :: names = (start ++ [n]) ++ names := by simp
    have hhere : root.entryAt start = some .dir := Node.dir_of_dir_below hdir
    have hnext : root.entryAt (start ++ [n]) = some .dir :=
      Node.dir_of_dir_below (hsplit ▸ hdir)
    have hih := @ih (start ++ [n]) (hsplit ▸ hdir)
    rw [List.map_cons, List.cons_append, hsplit]
    generalize names.map Step.name ++ rest = pending at hih
    constructor
    · intro h
      cases h with
      | enter _ hlen _ _ _ hrest =>
        obtain ⟨hplace, hall⟩ := hih.1 hrest
        exact ⟨hplace, List.forall_mem_cons.2 ⟨hlen, hall⟩⟩
      | stop _ _ _ hentry _ => rw [hnext] at hentry; cases hentry
      | jump _ _ _ hentry _ _ => rw [hnext] at hentry; cases hentry
    · rintro ⟨hplace, hall⟩
      obtain ⟨hlen, hall⟩ := List.forall_mem_cons.1 hall
      exact .enter hhere hlen rfl hnext (by simp) (hih.2 ⟨hplace, hall⟩)

theorem nil_iff {links : Nat} {start place : List Name} :
    Leads root follow fits links start [] place ↔ place = start := by
  constructor
  · rintro ⟨⟩
    rfl
  · rintro rfl
    exact .done

end Leads
end Disk

namespace FileSystem

open Disk

variable {fs : FileSystem} {p : Path} {place : List Name}

/-- The steps of the path `p` lead to a place, whatever places are on the way. -/
def LeadsTo (fs : FileSystem) (follow : Bool) (p : Path) (place : List Name) : Prop :=
  Leads fs.root follow anyPlace maxLinks (fs.startOf p) (stepsOf p) place

/-- The steps of the path `p` lead to a place, through places that can be named. -/
def NamesPlace (fs : FileSystem) (p : Path) (place : List Name) : Prop :=
  Leads fs.root true isNameable maxLinks (fs.startOf p) (stepsOf p) place

theorem NamesPlace.leadsTo (h : fs.NamesPlace p place) : fs.LeadsTo true p place :=
  Leads.weaken (fun _ _ => rfl) h

theorem locate_eq_ok {follow : Bool} :
    fs.locate follow p = .ok place ↔ admissible p = .ok () ∧ fs.LeadsTo follow p place := by
  rw [locate, LeadsTo, ← leads_iff]
  cases admissible p with
  | error f => simp
  | ok u => simp

theorem canonical?_eq_some :
    fs.canonical? p = some place ↔
      ((0 : UInt8) ∉ p.octets ∧ p.isEmpty = false) ∧ fs.NamesPlace p place ∧
        fs.root.entryAt place ≠ none := by
  rw [canonical?, NamesPlace, ← leads_iff]
  by_cases hbad : (0 : UInt8) ∈ p.octets ∨ p.isEmpty
  · rw [if_pos hbad]
    refine iff_of_false (by simp) ?_
    rintro ⟨⟨hnul, hempty⟩, -⟩
    rcases hbad with h | h
    · exact hnul h
    · rw [hempty] at h
      cases h
  · rw [if_neg hbad]
    simp only [not_or, Bool.not_eq_true] at hbad
    cases hres : resolveFrom fs.root true isNameable maxLinks (fs.startOf p) (stepsOf p) with
    | error f => simp
    | ok q =>
      simp only [Except.ok.injEq]
      constructor
      · intro h
        split at h
        · rename_i hsome
          cases h
          refine ⟨hbad, rfl, ?_⟩
          rw [Ne, Node.entryAt_eq_none]
          exact Option.isSome_iff_ne_none.1 hsome
        · cases h
      · rintro ⟨-, rfl, hentry⟩
        rw [Ne, Node.entryAt_eq_none] at hentry
        rw [if_pos (Option.isSome_iff_ne_none.2 hentry)]

theorem find_eq_ok {follow : Bool} {x : Node} :
    fs.find follow p = .ok (place, x) ↔
      fs.locate follow p = .ok place ∧ fs.root.get? place = some x := by
  unfold find
  cases hloc : fs.locate follow p with
  | error f => simp
  | ok q =>
    simp only [Except.ok.injEq]
    cases hget : fs.root.get? q with
    | none =>
      refine iff_of_false (by simp) ?_
      rintro ⟨rfl, hx⟩
      rw [hget] at hx
      cases hx
    | some y =>
      simp only [Except.ok.injEq, Prod.mk.injEq]
      constructor
      · rintro ⟨rfl, rfl⟩
        exact ⟨rfl, hget⟩
      · rintro ⟨rfl, hx⟩
        rw [hget] at hx
        cases hx
        exact ⟨rfl, rfl⟩

theorem read_eq_ok {c : Text.Octets} :
    fs.read p = .ok c ↔
      ∃ place, fs.locate true p = .ok place ∧ fs.root.entryAt place = some (.file c) := by
  simp only [Node.entryAt_eq_file, ← find_eq_ok]
  unfold read
  cases hfind : fs.find true p with
  | error f => simp
  | ok found =>
    obtain ⟨q, x⟩ := found
    cases x with
    | file c' => simp
    | link t => simp
    | dir es => simp

end FileSystem
end RefManifest

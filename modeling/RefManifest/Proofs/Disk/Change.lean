import RefManifest.Proofs.Disk.Leads

/-!
# RefManifest.Proofs.Disk.Change

What a write can do to a tree, and what that does to paths.

`Grown x y` says that `y` is `x` with new directories; `Placed x y out c` says that in addition a
file with the content `c` stands at `out`, where no directory was. Both speak of entries only.

* `Leads.placed`: a path keeps its place, unless the file replaced a link.
* `Leads.placed_or_blocked`: if it did, a path that ran through the link is blocked by the file.
* `Leads.agree`: whatever was replaced, a path that leads somewhere in both trees leads to the
  same place, or to the new file.
* `Leads.back`: without new directories a path leads nowhere else than before.
-/

namespace RefManifest
namespace Disk

open Text

/-- The tree `y` is `x` with new directories. -/
structure Grown (x y : Node) : Prop where
  kept : ∀ q e, x.entryAt q = some e → y.entryAt q = some e
  fresh : ∀ q e, x.entryAt q = none → y.entryAt q = some e → e = .dir

/-- The tree `y` is `x` with new directories and a file at `out`, where no directory was. -/
structure Placed (x y : Node) (out : List Name) (c : Octets) : Prop where
  kept : ∀ q e, q ≠ out → x.entryAt q = some e → y.entryAt q = some e
  fresh : ∀ q e, q ≠ out → x.entryAt q = none → y.entryAt q = some e → e = .dir
  before : x.entryAt out ≠ some .dir
  now : y.entryAt out = some (.file c)

namespace Grown

theorem refl (x : Node) : Grown x x where
  kept := fun _ _ h => h
  fresh := fun q e h h' => by rw [h] at h'; cases h'

theorem trans {x y z : Node} (h : Grown x y) (h' : Grown y z) : Grown x z where
  kept := fun q e hq => h'.kept q e (h.kept q e hq)
  fresh := fun q e hx hz => by
    cases hy : y.entryAt q with
    | none => exact h'.fresh q e hy hz
    | some e' =>
      have hdir := h.fresh q e' hx hy
      rw [h'.kept q e' hy] at hz
      cases hz
      exact hdir

/-- A new directory beside what a directory holds. -/
theorem of_makeDir {x : Node} {place : List Name} {n : Name}
    (hdir : x.entryAt place = some .dir) (hnew : x.entryAt (place ++ [n]) = none) :
    Grown x (x.editDir (Node.setEntry n (.dir [])) place) := by
  have hentry := fun q => Node.entryAt_setEntry hdir (by rw [hnew]; simp) Node.isBare_emptyDir q
  refine ⟨fun q e hq => ?_, fun q e hq hq' => ?_⟩
  · have hne : q ≠ place ++ [n] := fun e' => by rw [e', hnew] at hq; cases hq
    rw [hentry, if_neg hne, hq]
  · rw [hentry] at hq'
    split at hq'
    · cases hq'
      rfl
    · rw [hq] at hq'
      cases hq'

theorem placed {x y z : Node} {out : List Name} {c : Octets} (h : Grown x y)
    (h' : Placed y z out c) : Placed x z out c where
  kept := fun q e hne hq => h'.kept q e hne (h.kept q e hq)
  fresh := fun q e hne hx hz => by
    cases hy : y.entryAt q with
    | none => exact h'.fresh q e hne hy hz
    | some e' =>
      have hdir := h.fresh q e' hx hy
      rw [h'.kept q e' hne hy] at hz
      cases hz
      exact hdir
  before := fun hq => h'.before (h.kept _ _ hq)
  now := h'.now

end Grown

namespace Placed

variable {x y : Node} {out : List Name} {c : Octets}

theorem of_setEntry {place : List Name} {n : Name} (hdir : x.entryAt place = some .dir)
    (hold : x.entryAt (place ++ [n]) ≠ some .dir) (c : Octets) :
    Placed x (x.editDir (Node.setEntry n (.file c)) place) (place ++ [n]) c := by
  have hentry := fun q => Node.entryAt_setEntry hdir hold (Node.isBare_file c) q
  refine ⟨fun q e hne hq => ?_, fun q e hne hq hq' => ?_, hold, ?_⟩
  · rw [hentry, if_neg hne, hq]
  · rw [hentry, if_neg hne, hq] at hq'
    cases hq'
  · rw [hentry, if_pos rfl]
    rfl

theorem dir_kept (h : Placed x y out c) {q : List Name} (hq : x.entryAt q = some .dir) :
    y.entryAt q = some .dir :=
  h.kept q .dir (fun e => h.before (e ▸ hq)) hq

theorem grown {z : Node} (h : Placed x y out c) (h' : Grown y z) : Placed x z out c where
  kept := fun q e hne hq => h'.kept q e (h.kept q e hne hq)
  fresh := fun q e hne hx hz => by
    cases hy : y.entryAt q with
    | none => exact h'.fresh q e hy hz
    | some e' =>
      have hdir := h.fresh q e' hne hx hy
      rw [h'.kept q e' hy] at hz
      cases hz
      exact hdir
  before := h.before
  now := h'.kept _ _ h.now

theorem file_back (h : Placed x y out c) {q : List Name} {b : Octets} (hne : q ≠ out)
    (hq : y.entryAt q = some (.file b)) : x.entryAt q = some (.file b) := by
  cases hx : x.entryAt q with
  | none => cases h.fresh q _ hne hx hq
  | some e =>
    rw [h.kept q e hne hx] at hq
    exact hq

end Placed

/-! ## Paths in the changed tree -/

section Paths

variable {x y : Node} {out : List Name} {c : Octets} {follow : Bool} {fits : List Name → Bool}
  {links : Nat} {start q : List Name} {pending : List Step}

/-- Two entries that a path cannot tell apart. -/
def Entry.Alike (e e' : Entry) : Prop := e = e' ∨ ∃ b b', e = .file b ∧ e' = .file b'

theorem Entry.Alike.trans {a b c : Entry} (h : a.Alike b) (h' : b.Alike c) : a.Alike c := by
  rcases h with rfl | ⟨x, y, rfl, rfl⟩
  · exact h'
  · rcases h' with rfl | ⟨-, z, -, rfl⟩
    · exact .inr ⟨x, y, rfl, rfl⟩
    · exact .inr ⟨x, z, rfl, rfl⟩

theorem Entry.Alike.file {b : Octets} {e : Entry} (h : (Entry.file b).Alike e) :
    ∃ b', e = .file b' := by
  rcases h with rfl | ⟨-, b', -, rfl⟩
  · exact ⟨b, rfl⟩
  · exact ⟨b', rfl⟩

/-- A path leads where it led if every entry is still there, but for what is in a file. -/
theorem Leads.of_alike
    (h : ∀ q e, x.entryAt q = some e → ∃ e', y.entryAt q = some e' ∧ e.Alike e')
    (hx : Leads x follow fits links start pending q) :
    Leads y follow fits links start pending q := by
  have hdir : ∀ {q}, x.entryAt q = some .dir → y.entryAt q = some .dir := by
    intro q hq
    obtain ⟨e', he', rfl | ⟨b, b', hb, -⟩⟩ := h q _ hq
    · exact he'
    · cases hb
  have hlink : ∀ {q t}, x.entryAt q = some (.link t) → y.entryAt q = some (.link t) := by
    intro q t hq
    obtain ⟨e', he', rfl | ⟨b, b', hb, -⟩⟩ := h q _ hq
    · exact he'
    · cases hb
  induction hx with
  | done => exact .done
  | here hd _ ih => exact .here (hdir hd) ih
  | up hd _ ih => exact .up (hdir hd) ih
  | enter hd hlen hfit hentry hno _ ih =>
    obtain ⟨e', he', rfl | ⟨b, b', -, rfl⟩⟩ := h _ _ hentry
    · exact .enter (hdir hd) hlen hfit he' hno ih
    · exact .enter (hdir hd) hlen hfit he' (by simp) ih
  | stop hd hlen hfit hentry hf => exact .stop (hdir hd) hlen hfit (hlink hentry) hf
  | jump hd hlen hfit hentry hrest _ ih =>
    exact .jump (hdir hd) hlen hfit (hlink hentry) hrest ih

theorem Placed.alike (h : Placed x y out c) (hlink : ∀ t, x.entryAt out ≠ some (.link t)) :
    ∀ q e, x.entryAt q = some e → ∃ e', y.entryAt q = some e' ∧ e.Alike e' := by
  intro q e hq
  by_cases hne : q = out
  · subst hne
    refine ⟨_, h.now, .inr ?_⟩
    cases e with
    | file b => exact ⟨b, c, rfl, rfl⟩
    | link t => exact absurd hq (hlink t)
    | dir => exact absurd hq h.before
  · exact ⟨e, h.kept q e hne hq, .inl rfl⟩

theorem Leads.placed (h : Placed x y out c) (hlink : ∀ t, x.entryAt out ≠ some (.link t))
    (hx : Leads x follow fits links start pending q) :
    Leads y follow fits links start pending q :=
  hx.of_alike (h.alike hlink)

/-- A way to a directory is as before, unless it runs through a link that the file replaced, and
then every path that goes on from there ends at the file. -/
theorem Leads.placed_or_blocked (out : List Name) (c : Octets)
    (hx : Leads x true fits links start pending q) :
    (∀ y, Placed x y out c → Leads y true fits links start pending q) ∨
      ∀ y, Placed x y out c → ∀ b, b ≠ [] →
        resolveFrom y follow fits links start (pending ++ b) = .error .notDirectory := by
  induction hx with
  | done => exact .inl fun _ _ => .done
  | here hd _ ih =>
    exact ih.imp (fun hleads y h => .here (h.dir_kept hd) (hleads y h))
      fun hblocked y h b hb => (resolveFrom_here (h.dir_kept hd)).trans (hblocked y h b hb)
  | up hd _ ih =>
    exact ih.imp (fun hleads y h => .up (h.dir_kept hd) (hleads y h))
      fun hblocked y h b hb => (resolveFrom_up (h.dir_kept hd)).trans (hblocked y h b hb)
  | @enter links start q n rest e hd hlen hfit hentry hno _ ih =>
    have hentered : ∀ y, Placed x y out c →
        ∃ e', y.entryAt (start ++ [n]) = some e' ∧ ∀ t, e' ≠ .link t := by
      intro y h
      by_cases hne : start ++ [n] = out
      · exact ⟨_, hne ▸ h.now, by simp⟩
      · exact ⟨e, h.kept _ _ hne hentry, hno⟩
    refine ih.imp (fun hleads y h => ?_) fun hblocked y h b hb => ?_
    · obtain ⟨e', hentry', hno'⟩ := hentered y h
      exact .enter (h.dir_kept hd) hlen hfit hentry' hno' (hleads y h)
    · obtain ⟨e', hentry', hno'⟩ := hentered y h
      exact (resolveFrom_enter (h.dir_kept hd) hlen hfit hentry' hno').trans (hblocked y h b hb)
  | stop _ _ _ _ hf => cases hf
  | @jump left start q n rest t hd hlen hfit hentry hrest _ ih =>
    by_cases hne : start ++ [n] = out
    · refine .inr fun y h b hb => ?_
      have hfile : y.entryAt (start ++ [n]) = some (.file c) := hne ▸ h.now
      rw [List.cons_append, resolveFrom_enter (h.dir_kept hd) hlen hfit hfile (by simp)]
      exact resolveFrom_of_not_dir (by simp [hfile])
        fun hnil => hb (List.append_eq_nil_iff.1 hnil).2
    · refine ih.imp (fun hleads y h => ?_) fun hblocked y h b hb => ?_
      · exact .jump (h.dir_kept hd) hlen hfit (h.kept _ _ hne hentry) hrest (hleads y h)
      · have hgo : ∀ {rest}, rest ++ b = [] → follow = true :=
          fun h => absurd (List.append_eq_nil_iff.1 h).2 hb
        rw [List.cons_append, resolveFrom_jump (h.dir_kept hd) hlen hfit (h.kept _ _ hne hentry) hgo,
          ← List.append_assoc]
        exact hblocked y h b hb

theorem Leads.ends_at_file {n : Name} (hout : y.entryAt out = some (.file c))
    (hn : start ++ [n] = out) (hy : Leads y follow fits links start (.name n :: pending) q) :
    q = out := by
  subst hn
  cases hy with
  | enter _ _ _ _ _ hnext => exact (hnext.of_not_dir (by simp [hout])).2
  | stop _ _ _ _ _ => rfl
  | jump _ _ _ hentry _ _ =>
    rw [hout] at hentry
    cases hentry

/-- Whatever was replaced, a path that leads somewhere in both trees leads to the same place, or to
the new file. -/
theorem Leads.agree (h : Placed x y out c) (hx : Leads x follow fits links start pending q)
    {q' : List Name} (hy : Leads y follow fits links start pending q') : q' = q ∨ q' = out := by
  induction hx with
  | done =>
    cases hy
    exact .inl rfl
  | here _ _ ih =>
    cases hy with
    | here _ hnext => exact ih hnext
  | up _ _ ih =>
    cases hy with
    | up _ hnext => exact ih hnext
  | @enter links start q n rest e _ _ _ hentry hno _ ih =>
    by_cases hne : start ++ [n] = out
    · exact .inr (hy.ends_at_file h.now hne)
    · have hsame := h.kept _ _ hne hentry
      cases hy with
      | enter _ _ _ _ _ hnext => exact ih hnext
      | stop _ _ _ hentry' _ => rw [hsame] at hentry'; cases hentry'; exact absurd rfl (hno _)
      | jump _ _ _ hentry' _ _ => rw [hsame] at hentry'; cases hentry'; exact absurd rfl (hno _)
  | @stop links start n t _ _ _ hentry hf =>
    by_cases hne : start ++ [n] = out
    · exact .inr (hy.ends_at_file h.now hne)
    · have hsame := h.kept _ _ hne hentry
      cases hy with
      | enter _ _ _ hentry' hno _ => rw [hsame] at hentry'; cases hentry'; exact absurd rfl (hno _)
      | stop _ _ _ _ _ => exact .inl rfl
      | jump _ _ _ _ hrest _ => rw [hrest rfl] at hf; cases hf
  | @jump left start q n rest t _ _ _ hentry hrest _ ih =>
    by_cases hne : start ++ [n] = out
    · exact .inr (hy.ends_at_file h.now hne)
    · have hsame := h.kept _ _ hne hentry
      cases hy with
      | enter _ _ _ hentry' hno _ => rw [hsame] at hentry'; cases hentry'; exact absurd rfl (hno _)
      | stop _ _ _ _ hf => rw [hrest rfl] at hf; cases hf
      | jump _ _ _ hentry' _ hnext =>
        rw [hsame] at hentry'
        cases hentry'
        exact ih hnext

/-- A path to a new place needs a new directory, or leads to the new file. -/
theorem Leads.back (hout : y.entryAt out = some (.file c))
    (honly : ∀ q e, q ≠ out → y.entryAt q = some e → x.entryAt q = some e)
    (hy : Leads y follow fits links start pending q) :
    Leads x follow fits links start pending q ∨ q = out := by
  have hdir : ∀ {q}, y.entryAt q = some .dir → x.entryAt q = some .dir := by
    intro q hq
    exact honly q _ (fun e => by rw [e, hout] at hq; cases hq) hq
  have hlink : ∀ {q t}, y.entryAt q = some (.link t) → x.entryAt q = some (.link t) := by
    intro q t hq
    exact honly q _ (fun e => by rw [e, hout] at hq; cases hq) hq
  induction hy with
  | done => exact .inl .done
  | here hd _ ih => exact ih.imp_left (.here (hdir hd))
  | up hd _ ih => exact ih.imp_left (.up (hdir hd))
  | @enter links start q n rest e hd hlen hfit hentry hno hnext ih =>
    by_cases hne : start ++ [n] = out
    · have hpath := Leads.enter hd hlen hfit hentry hno hnext
      exact .inr (hpath.ends_at_file hout hne)
    · exact ih.imp_left (.enter (hdir hd) hlen hfit (honly _ _ hne hentry) hno)
  | stop hd hlen hfit hentry hf => exact .inl (.stop (hdir hd) hlen hfit (hlink hentry) hf)
  | jump hd hlen hfit hentry hrest _ ih =>
    exact ih.imp_left (.jump (hdir hd) hlen hfit (hlink hentry) hrest)

end Paths
end Disk
end RefManifest

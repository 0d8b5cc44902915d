import RefManifest.Text.Utf8

/-!
# RefManifest.Proofs.Text.Utf8

Decoding undoes encoding: a text that is written reads back as it was (`decode?_encode`). The
octets that decode are those that some text is written with (`decode?_eq_some`), so two texts that
read the same are the same octets, and reading what is well formed loses nothing
(`encode_decodeLossy`). Of octets that are not well formed, every character that is still read
stands in them as it is written (`exists_encodeChar`).

The decoder takes one octet at a time, so a character of several octets is followed through its
pending states: `decodeFrom_more` is the step that waits for more, `decodeFrom_last` the one that
completes the character.

An octet of ASCII is never taken into a character of several octets, whatever stands before it, so
octets that are joined with one are decoded apart (`decodeLossy_ascii`), and the character is read
only where the octet stands (`not_mem_decodeLossy`). This holds of the slash between names as of the
line feed between lines. Some text comes of any octet (`ofOctets_ne_empty`).
-/

namespace RefManifest
namespace Text
namespace Utf8

theorem toNat_ofNat {n : Nat} (h : n < 256) : (UInt8.ofNat n).toNat = n := by
  rw [UInt8.toNat_ofNat']
  omega

theorem toNat_bounds (c : Char) : c.toNat < 0xD800 ∨ 0xDFFF < c.toNat ∧ c.toNat < 0x110000 :=
  c.valid

theorem decodeFrom_more {p : Pending} {k : Nat} (hk : k < 64) (hlow : p.low ≤ 0x80 + k)
    (hhigh : 0x80 + k ≤ p.high) (hneed : 1 < p.need) (rest : Octets) :
    decodeFrom (some p) (UInt8.ofNat (0x80 + k) :: rest) =
      decodeFrom (some ⟨p.need - 1, 0x80, 0xBF, p.bits * 64 + k⟩) rest := by
  have hn : (UInt8.ofNat (0x80 + k)).toNat = 0x80 + k := toNat_ofNat (by omega)
  have hsub : 0x80 + k - 0x80 = k := by omega
  have hmore : ¬ p.need ≤ 1 := by omega
  rw [decodeFrom]
  simp only [hn, hlow, hhigh, hmore, hsub, and_self, if_true, if_false]

theorem decodeFrom_last {p : Pending} {k : Nat} (hk : k < 64) (hlow : p.low ≤ 0x80 + k)
    (hhigh : 0x80 + k ≤ p.high) (hneed : p.need ≤ 1) (rest : Octets) :
    decodeFrom (some p) (UInt8.ofNat (0x80 + k) :: rest) =
      some (Char.ofNat (p.bits * 64 + k)) :: decodeFrom none rest := by
  have hn : (UInt8.ofNat (0x80 + k)).toNat = 0x80 + k := toNat_ofNat (by omega)
  have hsub : 0x80 + k - 0x80 = k := by omega
  rw [decodeFrom]
  simp only [hn, hlow, hhigh, hneed, hsub, and_self, if_true]

theorem decodeFrom_lead {b : UInt8} {p : Pending} (h : lead b = .more p) (rest : Octets) :
    decodeFrom none (b :: rest) = decodeFrom (some p) rest := by
  rw [decodeFrom, h]

theorem lead_two {k : Nat} (hlow : 2 ≤ k) (hhigh : k < 0x20) :
    lead (UInt8.ofNat (0xC0 + k)) = .more ⟨1, 0x80, 0xBF, k⟩ := by
  have hn : (UInt8.ofNat (0xC0 + k)).toNat = 0xC0 + k := toNat_ofNat (by omega)
  have h1 : ¬ 0xC0 + k < 0x80 := by omega
  have h2 : ¬ 0xC0 + k < 0xC2 := by omega
  have h3 : 0xC0 + k < 0xE0 := by omega
  have hsub : 0xC0 + k - 0xC0 = k := by omega
  simp only [lead, hn, h1, h2, h3, hsub, if_true, if_false]

theorem lead_three {k : Nat} (hhigh : k < 0x10) :
    lead (UInt8.ofNat (0xE0 + k)) =
      .more ⟨2, if k = 0 then 0xA0 else 0x80, if k = 0xD then 0x9F else 0xBF, k⟩ := by
  have hn : (UInt8.ofNat (0xE0 + k)).toNat = 0xE0 + k := toNat_ofNat (by omega)
  have h1 : ¬ 0xE0 + k < 0x80 := by omega
  have h2 : ¬ 0xE0 + k < 0xC2 := by omega
  have h3 : ¬ 0xE0 + k < 0xE0 := by omega
  have h4 : 0xE0 + k < 0xF0 := by omega
  have h5 : 0xE0 + k = 0xE0 ↔ k = 0 := by omega
  have h6 : 0xE0 + k = 0xED ↔ k = 0xD := by omega
  have hsub : 0xE0 + k - 0xE0 = k := by omega
  simp only [lead, hn, h1, h2, h3, h4, h5, h6, hsub, if_true, if_false]

theorem lead_four {k : Nat} (hhigh : k < 5) :
    lead (UInt8.ofNat (0xF0 + k)) =
      .more ⟨3, if k = 0 then 0x90 else 0x80, if k = 4 then 0x8F else 0xBF, k⟩ := by
  have hn : (UInt8.ofNat (0xF0 + k)).toNat = 0xF0 + k := toNat_ofNat (by omega)
  have h1 : ¬ 0xF0 + k < 0x80 := by omega
  have h2 : ¬ 0xF0 + k < 0xC2 := by omega
  have h3 : ¬ 0xF0 + k < 0xE0 := by omega
  have h4 : ¬ 0xF0 + k < 0xF0 := by omega
  have h5 : 0xF0 + k < 0xF5 := by omega
  have h6 : 0xF0 + k = 0xF0 ↔ k = 0 := by omega
  have h7 : 0xF0 + k = 0xF4 ↔ k = 4 := by omega
  have hsub : 0xF0 + k - 0xF0 = k := by omega
  simp only [lead, hn, h1, h2, h3, h4, h5, h6, h7, hsub, if_true, if_false]

theorem decodeFrom_encodeChar (c : Char) (rest : Octets) :
    decodeFrom none (encodeChar c ++ rest) = some c :: decodeFrom none rest := by
  have hvalid := toNat_bounds c
  have hback : Char.ofNat c.toNat = c := Char.ofNat_toNat c
  rw [encodeChar]
  generalize c.toNat = n at hvalid hback ⊢
  -- One case for each number of octets.
  split
  · rename_i h1
    have hlead : lead (UInt8.ofNat n) = .char (Char.ofNat n) := by
      simp [lead, toNat_ofNat (show n < 256 by omega), h1]
    simp only [List.cons_append, List.nil_append, decodeFrom, hlead, hback]
  · split
    · rename_i h1 h2
      have hn : n / 64 * 64 + n % 64 = n := by omega
      rw [List.cons_append, decodeFrom_lead (lead_two (by omega) (by omega)), List.cons_append,
        decodeFrom_last (by omega) (by simp only; omega) (by simp only; omega) (by simp), hn, hback]
      rfl
    · split
      · rename_i h1 h2 h3
        have hn : (n / 4096 * 64 + n / 64 % 64) * 64 + n % 64 = n := by omega
        rw [List.cons_append, decodeFrom_lead (lead_three (by omega)), List.cons_append,
          decodeFrom_more (by omega) (by simp only; split <;> omega) (by simp only; split <;> omega)
            (by simp), List.cons_append,
          decodeFrom_last (by omega) (by simp only; omega) (by simp only; omega) (by simp), hn,
          hback]
        rfl
      · rename_i h1 h2 h3
        have hn : ((n / 262144 * 64 + n / 4096 % 64) * 64 + n / 64 % 64) * 64 + n % 64 = n := by
          omega
        rw [List.cons_append, decodeFrom_lead (lead_four (by omega)), List.cons_append,
          decodeFrom_more (by omega) (by simp only; split <;> omega) (by simp only; split <;> omega)
            (by simp), List.cons_append,
          decodeFrom_more (by omega) (by simp only; omega) (by simp only; omega) (by simp),
          List.cons_append,
          decodeFrom_last (by omega) (by simp only; omega) (by simp only; omega) (by simp), hn,
          hback]
        rfl

theorem scan_encode (s : List Char) : scan (encode s) = s.map some := by
  rw [scan]
  induction s with
  | nil => rfl
  | cons c s ih =>
    have hcons : encode (c :: s) = encodeChar c ++ encode s := by simp [encode]
    rw [hcons, decodeFrom_encodeChar, ih, List.map_cons]

theorem encode_append (s t : List Char) : encode (s ++ t) = encode s ++ encode t :=
  List.flatMap_append

theorem decode?_encode (s : List Char) : decode? (encode s) = some s := by
  rw [decode?, scan_encode]
  induction s with
  | nil => rfl
  | cons c s ih => simp [ih]

/-- A character that is not complete takes no octet of ASCII. -/
def Waiting (state : Option Pending) : Prop := ∀ p ∈ state, 0x80 ≤ p.low

theorem waiting_none : Waiting none := fun _ h => nomatch h

theorem waiting_of_lead {b : UInt8} {p : Pending} (h : lead b = .more p) : Waiting (some p) := by
  intro q hq
  cases hq
  simp only [lead] at h
  repeat' split at h
  all_goals cases h <;> exact Nat.le_of_ble_eq_true rfl

theorem lead_ascii {b : UInt8} (h : b.toNat < 0x80) : lead b = .char (Char.ofNat b.toNat) := by
  simp only [lead, h, if_true]

/-- An octet that the pending character does not take is read from the start. -/
theorem decodeFrom_not_taken {p : Pending} {a : UInt8} (h : ¬ (p.low ≤ a.toNat ∧ a.toNat ≤ p.high))
    (rest : Octets) : decodeFrom (some p) (a :: rest) = none :: decodeFrom none (a :: rest) := by
  simp only [decodeFrom, h, if_false]
  cases lead a <;> rfl

theorem decodeFrom_append_ascii {b : UInt8} (hb : b.toNat < 0x80) (x rest : Octets)
    {state : Option Pending} (h : Waiting state) :
    decodeFrom state (x ++ b :: rest) =
      decodeFrom state x ++ some (Char.ofNat b.toNat) :: decodeFrom none rest := by
  induction x generalizing state with
  | nil =>
    cases state with
    | none => simp only [List.nil_append, decodeFrom, lead_ascii hb]
    | some p =>
      have hrange : ¬ (p.low ≤ b.toNat ∧ b.toNat ≤ p.high) := by
        have := h p rfl
        omega
      rw [List.nil_append, decodeFrom_not_taken hrange]
      simp only [decodeFrom, lead_ascii hb, List.cons_append, List.nil_append]
  | cons a x ih =>
    -- What is left to do once `a` is not taken into a pending character.
    have hstart : decodeFrom none (a :: (x ++ b :: rest)) =
        decodeFrom none (a :: x) ++ some (Char.ofNat b.toNat) :: decodeFrom none rest := by
      cases hlead : lead a with
      | char c => simp only [decodeFrom, hlead, ih waiting_none, List.cons_append]
      | more q => simp only [decodeFrom, hlead, ih (waiting_of_lead hlead)]
      | bad => simp only [decodeFrom, hlead, ih waiting_none, List.cons_append]
    cases state with
    | none => exact hstart
    | some p =>
      by_cases hrange : p.low ≤ a.toNat ∧ a.toNat ≤ p.high
      · by_cases hneed : p.need ≤ 1
        · simp only [List.cons_append, decodeFrom, hrange, and_self, if_true, hneed,
            ih waiting_none]
        · have hnext : Waiting (some ⟨p.need - 1, 0x80, 0xBF, p.bits * 64 + (a.toNat - 0x80)⟩) := by
            intro q hq
            cases hq
            exact Nat.le_refl _
          simp only [List.cons_append, decodeFrom, hrange, and_self, if_true, hneed, if_false,
            ih hnext]
      · rw [List.cons_append, decodeFrom_not_taken hrange, decodeFrom_not_taken hrange, hstart,
          List.cons_append]

theorem decodeFrom_ne_nil {state : Option Pending} {x : Octets} (h : state ≠ none ∨ x ≠ []) :
    decodeFrom state x ≠ [] := by
  induction x generalizing state with
  | nil =>
    cases state with
    | none => simp at h
    | some p => simp [decodeFrom]
  | cons b x ih =>
    have hstart : decodeFrom none (b :: x) ≠ [] := by
      cases hlead : lead b with
      | char c => simp [decodeFrom, hlead]
      | more q => simpa only [decodeFrom, hlead] using ih (.inl (Option.some_ne_none _))
      | bad => simp [decodeFrom, hlead]
    cases state with
    | none => exact hstart
    | some p =>
      by_cases hrange : p.low ≤ b.toNat ∧ b.toNat ≤ p.high
      · by_cases hneed : p.need ≤ 1
        · simp [decodeFrom, hrange, hneed]
        · simpa only [decodeFrom, hrange, and_self, if_true, hneed, if_false] using
            ih (.inl (Option.some_ne_none _))
      · simp [decodeFrom_not_taken hrange]

/-! ## Well-formed octets -/

variable {p : Pending} {x : Octets} {c : Char} {s : List Char} {l : List (Option Char)}

theorem toNat_char {n : Nat} (h : n < 0xD800 ∨ 0xDFFF < n ∧ n < 0x110000) :
    (Char.ofNat n).toNat = n := by
  have hvalid : n.isValidChar := h
  rw [Char.ofNat, dif_pos hvalid]
  rfl

theorem encodeChar_one {b : UInt8} (h : b.toNat < 0x80) :
    encodeChar (Char.ofNat b.toNat) = [b] := by
  have hback : (Char.ofNat b.toNat).toNat = b.toNat := toNat_char (by omega)
  simp only [encodeChar, hback, h, if_true, UInt8.ofNat_toNat]

theorem encodeChar_two {k j : Nat} (hk : 2 ≤ k) (hk' : k < 0x20) (hj : j < 64) :
    encodeChar (Char.ofNat (k * 64 + j)) = [UInt8.ofNat (0xC0 + k), UInt8.ofNat (0x80 + j)] := by
  have hback : (Char.ofNat (k * 64 + j)).toNat = k * 64 + j := toNat_char (by omega)
  have h1 : ¬ k * 64 + j < 0x80 := by omega
  have h2 : k * 64 + j < 0x800 := by omega
  have hfirst : (k * 64 + j) / 64 = k := by omega
  have hlast : (k * 64 + j) % 64 = j := by omega
  simp only [encodeChar, hback, h1, h2, if_true, if_false, hfirst, hlast]

theorem encodeChar_three {k j l : Nat} (hk : k < 0x10) (hj : j < 64) (hl : l < 64)
    (hlow : k = 0 → 0x20 ≤ j) (hhigh : k = 0xD → j < 0x20) :
    encodeChar (Char.ofNat ((k * 64 + j) * 64 + l)) =
      [UInt8.ofNat (0xE0 + k), UInt8.ofNat (0x80 + j), UInt8.ofNat (0x80 + l)] := by
  have hback : (Char.ofNat ((k * 64 + j) * 64 + l)).toNat = (k * 64 + j) * 64 + l :=
    toNat_char (by omega)
  have h1 : ¬ (k * 64 + j) * 64 + l < 0x80 := by omega
  have h2 : ¬ (k * 64 + j) * 64 + l < 0x800 := by omega
  have h3 : (k * 64 + j) * 64 + l < 0x10000 := by omega
  have hfirst : ((k * 64 + j) * 64 + l) / 4096 = k := by omega
  have hnext : ((k * 64 + j) * 64 + l) / 64 % 64 = j := by omega
  have hlast : ((k * 64 + j) * 64 + l) % 64 = l := by omega
  simp only [encodeChar, hback, h1, h2, h3, if_true, if_false, hfirst, hnext, hlast]

theorem encodeChar_four {k i j l : Nat} (hk : k < 5) (hi : i < 64) (hj : j < 64) (hl : l < 64)
    (hlow : k = 0 → 0x10 ≤ i) (hhigh : k = 4 → i < 0x10) :
    encodeChar (Char.ofNat (((k * 64 + i) * 64 + j) * 64 + l)) =
      [UInt8.ofNat (0xF0 + k), UInt8.ofNat (0x80 + i), UInt8.ofNat (0x80 + j),
        UInt8.ofNat (0x80 + l)] := by
  have hback : (Char.ofNat (((k * 64 + i) * 64 + j) * 64 + l)).toNat =
      ((k * 64 + i) * 64 + j) * 64 + l :=
    toNat_char (by omega)
  have h1 : ¬ ((k * 64 + i) * 64 + j) * 64 + l < 0x80 := by omega
  have h2 : ¬ ((k * 64 + i) * 64 + j) * 64 + l < 0x800 := by omega
  have h3 : ¬ ((k * 64 + i) * 64 + j) * 64 + l < 0x10000 := by omega
  have hfirst : (((k * 64 + i) * 64 + j) * 64 + l) / 262144 = k := by omega
  have hsecond : (((k * 64 + i) * 64 + j) * 64 + l) / 4096 % 64 = i := by omega
  have hthird : (((k * 64 + i) * 64 + j) * 64 + l) / 64 % 64 = j := by omega
  have hlast : (((k * 64 + i) * 64 + j) * 64 + l) % 64 = l := by omega
  simp only [encodeChar, hback, h1, h2, h3, if_false, hfirst, hsecond, hthird, hlast]

theorem lead_eq_char {b : UInt8} {c : Char} (h : lead b = .char c) :
    b.toNat < 0x80 ∧ c = Char.ofNat b.toNat := by
  by_cases hb : b.toNat < 0x80
  · rw [lead_ascii hb] at h
    exact ⟨hb, (Lead.char.inj h).symm⟩
  · simp only [lead, hb, if_false] at h
    repeat' split at h
    all_goals cases h

/-- An octet that announces more octets is one of three kinds. -/
theorem lead_eq_more {b : UInt8} {p : Pending} (h : lead b = .more p) :
    (∃ k, b = UInt8.ofNat (0xC0 + k) ∧ 2 ≤ k ∧ k < 0x20 ∧ p = ⟨1, 0x80, 0xBF, k⟩) ∨
    (∃ k, b = UInt8.ofNat (0xE0 + k) ∧ k < 0x10 ∧
      p = ⟨2, if k = 0 then 0xA0 else 0x80, if k = 0xD then 0x9F else 0xBF, k⟩) ∨
    (∃ k, b = UInt8.ofNat (0xF0 + k) ∧ k < 5 ∧
      p = ⟨3, if k = 0 then 0x90 else 0x80, if k = 4 then 0x8F else 0xBF, k⟩) := by
  have hoctet : ∀ m, m ≤ b.toNat → b = UInt8.ofNat (m + (b.toNat - m)) := by
    intro m hm
    rw [Nat.add_sub_cancel' hm, UInt8.ofNat_toNat]
  by_cases h1 : b.toNat < 0x80
  · simp only [lead, h1, if_true] at h
    cases h
  by_cases h2 : b.toNat < 0xC2
  · simp only [lead, h1, h2, if_true, if_false] at h
    cases h
  by_cases h3 : b.toNat < 0xE0
  · have hb := hoctet 0xC0 (by omega)
    rw [hb, lead_two (by omega) (by omega)] at h
    cases h
    exact .inl ⟨_, hb, by omega, by omega, rfl⟩
  by_cases h4 : b.toNat < 0xF0
  · have hb := hoctet 0xE0 (by omega)
    rw [hb, lead_three (by omega)] at h
    cases h
    exact .inr (.inl ⟨_, hb, by omega, rfl⟩)
  by_cases h5 : b.toNat < 0xF5
  · have hb := hoctet 0xF0 (by omega)
    rw [hb, lead_four (by omega)] at h
    cases h
    exact .inr (.inr ⟨_, hb, by omega, rfl⟩)
  · simp only [lead, h1, h2, h3, h4, h5, if_false] at h
    cases h

theorem decodeFrom_taken (hlow : 0x80 ≤ p.low) (hhigh : p.high ≤ 0xBF)
    (h : decodeFrom (some p) x = some c :: l) :
    ∃ k rest, x = UInt8.ofNat (0x80 + k) :: rest ∧ k < 64 ∧ p.low ≤ 0x80 + k ∧
      0x80 + k ≤ p.high := by
  cases x with
  | nil => simp [decodeFrom] at h
  | cons b rest =>
    by_cases hrange : p.low ≤ b.toNat ∧ b.toNat ≤ p.high
    · have hb : b = UInt8.ofNat (0x80 + (b.toNat - 0x80)) := by
        rw [Nat.add_sub_cancel' (by omega), UInt8.ofNat_toNat]
      exact ⟨b.toNat - 0x80, rest, by rw [← hb], by omega, by omega, by omega⟩
    · rw [decodeFrom_not_taken hrange] at h
      simp at h

theorem decodeFrom_more_eq (hlow : 0x80 ≤ p.low) (hhigh : p.high ≤ 0xBF) (hneed : 1 < p.need)
    (h : decodeFrom (some p) x = some c :: l) :
    ∃ k rest, x = UInt8.ofNat (0x80 + k) :: rest ∧ k < 64 ∧ p.low ≤ 0x80 + k ∧
      0x80 + k ≤ p.high ∧
      decodeFrom (some ⟨p.need - 1, 0x80, 0xBF, p.bits * 64 + k⟩) rest = some c :: l := by
  obtain ⟨k, rest, rfl, hk, hfrom, hto⟩ := decodeFrom_taken hlow hhigh h
  rw [decodeFrom_more hk hfrom hto hneed] at h
  exact ⟨k, rest, rfl, hk, hfrom, hto, h⟩

theorem decodeFrom_last_eq (hlow : 0x80 ≤ p.low) (hhigh : p.high ≤ 0xBF) (hneed : p.need ≤ 1)
    (h : decodeFrom (some p) x = some c :: l) :
    ∃ k rest, x = UInt8.ofNat (0x80 + k) :: rest ∧ k < 64 ∧ c = Char.ofNat (p.bits * 64 + k) ∧
      decodeFrom none rest = l := by
  obtain ⟨k, rest, rfl, hk, hfrom, hto⟩ := decodeFrom_taken hlow hhigh h
  rw [decodeFrom_last hk hfrom hto hneed] at h
  obtain ⟨hc, hrest⟩ := List.cons.inj h
  exact ⟨k, rest, rfl, hk, (Option.some.inj hc).symm, hrest⟩

theorem decodeFrom_eq_cons (h : decodeFrom none x = some c :: l) :
    ∃ rest, x = encodeChar c ++ rest ∧ decodeFrom none rest = l := by
  cases x with
  | nil => cases h
  | cons b x =>
    cases hlead : lead b with
    | bad => simp [decodeFrom, hlead] at h
    | char d =>
      rw [decodeFrom, hlead] at h
      obtain ⟨hd, hrest⟩ := List.cons.inj h
      cases Option.some.inj hd
      obtain ⟨hb, rfl⟩ := lead_eq_char hlead
      exact ⟨x, by rw [encodeChar_one hb]; rfl, hrest⟩
    | more p =>
      rw [decodeFrom_lead hlead] at h
      rcases lead_eq_more hlead with ⟨k, rfl, hk, hk', rfl⟩ | ⟨k, rfl, hk, rfl⟩ | ⟨k, rfl, hk, rfl⟩
      · obtain ⟨m, rest, rfl, hm, rfl, hrest⟩ :=
          decodeFrom_last_eq (Nat.le_refl _) (Nat.le_refl _) (Nat.le_refl _) h
        exact ⟨rest, by rw [encodeChar_two hk hk' hm]; rfl, hrest⟩
      · obtain ⟨j, x', rfl, hj, hfrom, hto, h⟩ :=
          decodeFrom_more_eq (by simp only; split <;> omega) (by simp only; split <;> omega)
            (by simp) h
        obtain ⟨m, rest, rfl, hm, rfl, hrest⟩ :=
          decodeFrom_last_eq (Nat.le_refl _) (Nat.le_refl _) (Nat.le_refl _) h
        refine ⟨rest, ?_, hrest⟩
        rw [encodeChar_three hk hj hm (fun h0 => ?_) fun hD => ?_]
        · rfl
        · simp only [h0, if_true] at hfrom
          omega
        · simp only [hD, if_true] at hto
          omega
      · obtain ⟨i, x', rfl, hi, hfrom, hto, h⟩ :=
          decodeFrom_more_eq (by simp only; split <;> omega) (by simp only; split <;> omega)
            (by simp) h
        obtain ⟨j, x'', rfl, hj, -, -, h⟩ :=
          decodeFrom_more_eq (Nat.le_refl _) (Nat.le_refl _) (by simp) h
        obtain ⟨m, rest, rfl, hm, rfl, hrest⟩ :=
          decodeFrom_last_eq (Nat.le_refl _) (Nat.le_refl _) (by simp) h
        refine ⟨rest, ?_, hrest⟩
        rw [encodeChar_four hk hi hj hm (fun h0 => ?_) fun h4 => ?_]
        · rfl
        · simp only [h0, if_true] at hfrom
          omega
        · simp only [h4, if_true] at hto
          omega

theorem decodeFrom_some_eq_none (h : decodeFrom (some p) x = none :: l) :
    ∃ skipped rest, x = skipped ++ rest ∧ decodeFrom none rest = l := by
  induction x generalizing p with
  | nil =>
    cases h
    exact ⟨[], [], rfl, rfl⟩
  | cons b x ih =>
    by_cases hrange : p.low ≤ b.toNat ∧ b.toNat ≤ p.high
    · by_cases hneed : p.need ≤ 1
      · simp [decodeFrom, hrange, hneed] at h
      · simp only [decodeFrom, hrange, and_self, if_true, hneed, if_false] at h
        obtain ⟨skipped, rest, rfl, hrest⟩ := ih h
        exact ⟨b :: skipped, rest, rfl, hrest⟩
    · rw [decodeFrom_not_taken hrange] at h
      exact ⟨[], b :: x, rfl, (List.cons.inj h).2⟩

theorem decodeFrom_eq_none (h : decodeFrom none x = none :: l) :
    ∃ skipped rest, x = skipped ++ rest ∧ decodeFrom none rest = l := by
  cases x with
  | nil => cases h
  | cons b x =>
    cases hlead : lead b with
    | char d => simp [decodeFrom, hlead] at h
    | bad =>
      rw [decodeFrom, hlead] at h
      exact ⟨[b], x, rfl, (List.cons.inj h).2⟩
    | more p =>
      rw [decodeFrom_lead hlead] at h
      obtain ⟨skipped, rest, rfl, hrest⟩ := decodeFrom_some_eq_none h
      exact ⟨b :: skipped, rest, rfl, hrest⟩

/-- Every character that is read stands in the octets as it is written, ill-formed as the others
may be. The induction is on what is read, one character or one ill-formed subsequence at a time. -/
theorem exists_encodeChar (h : some c ∈ scan x) : ∃ a b, x = a ++ encodeChar c ++ b := by
  rw [scan] at h
  generalize hl : decodeFrom none x = l at h
  induction l generalizing x with
  | nil => cases h
  | cons d l ih =>
    have hskip : ∀ front rest, x = front ++ rest → decodeFrom none rest = l → some c ∈ l →
        ∃ a b, x = a ++ encodeChar c ++ b := by
      rintro front rest rfl hrest hc
      obtain ⟨a, b, rfl⟩ := ih hrest hc
      exact ⟨front ++ a, b, by simp only [List.append_assoc]⟩
    cases d with
    | none =>
      obtain ⟨skipped, rest, hx, hrest⟩ := decodeFrom_eq_none hl
      exact hskip skipped rest hx hrest (by simpa using h)
    | some d =>
      obtain ⟨rest, hx, hrest⟩ := decodeFrom_eq_cons hl
      rcases List.mem_cons.1 h with hc | hc
      · cases hc
        exact ⟨[], rest, hx⟩
      · exact hskip (encodeChar d) rest hx hrest hc

theorem encode_of_decodeFrom (h : decodeFrom none x = s.map some) : encode s = x := by
  induction s generalizing x with
  | nil =>
    cases x with
    | nil => rfl
    | cons b x => exact absurd h (decodeFrom_ne_nil (.inr (List.cons_ne_nil b x)))
  | cons c s ih =>
    obtain ⟨rest, rfl, hrest⟩ := decodeFrom_eq_cons h
    rw [← ih hrest]
    simp [encode]

theorem mapM_id_eq_some {l : List (Option Char)} (h : l.mapM id = some s) : l = s.map some := by
  induction l generalizing s with
  | nil =>
    cases h
    rfl
  | cons c l ih =>
    cases c with
    | none => simp at h
    | some c =>
      cases hl : l.mapM id with
      | none => simp [hl] at h
      | some t =>
        have hs : c :: t = s := by simpa [hl] using h
        rw [← hs, ih hl, List.map_cons]

/-- The octets that are well formed are those that some text is written with. -/
theorem decode?_eq_some : decode? x = some s ↔ x = encode s := by
  constructor
  · intro h
    exact (encode_of_decodeFrom (mapM_id_eq_some h)).symm
  · rintro rfl
    exact decode?_encode s

theorem decodeLossy_of_decode? (h : decode? x = some s) : decodeLossy x = s := by
  rw [decode?_eq_some.1 h, decodeLossy, scan_encode, List.map_map]
  exact List.map_id s

theorem encode_decodeLossy (h : decode? x ≠ none) : encode (decodeLossy x) = x := by
  obtain ⟨s, hs⟩ := Option.ne_none_iff_exists'.1 h
  rw [decodeLossy_of_decode? hs, decode?_eq_some.1 hs]

/-- A text that is read without a replacement mark was written as it is. -/
theorem eq_encode_of_decodeLossy (h : decodeLossy x = s) (hmark : '\uFFFD' ∉ s) : x = encode s := by
  have hsome : ∀ {l : List (Option Char)} {s : List Char}, l.map (·.getD '\uFFFD') = s →
      '\uFFFD' ∉ s → l = s.map some := by
    intro l s hl hmark
    induction l generalizing s with
    | nil =>
      rw [← hl]
      rfl
    | cons c l ih =>
      rw [List.map_cons] at hl
      rw [← hl, List.mem_cons, not_or] at hmark
      cases c with
      | none => exact absurd rfl hmark.1
      | some c =>
        rw [← hl, List.map_cons, ← ih rfl hmark.2]
        rfl
  exact (encode_of_decodeFrom (hsome h hmark)).symm

end Utf8

/-! ## Octets around one of ASCII -/

theorem decodeLossy_ascii {sep : UInt8} (h : sep.toNat < 0x80) (a b : Octets) :
    Utf8.decodeLossy (a ++ sep :: b) =
      Utf8.decodeLossy a ++ Char.ofNat sep.toNat :: Utf8.decodeLossy b := by
  rw [Utf8.decodeLossy, Utf8.scan, Utf8.decodeFrom_append_ascii h a b Utf8.waiting_none,
    List.map_append]
  rfl

theorem not_mem_decodeLossy {sep : UInt8} (h : sep.toNat < 0x80) {x : Octets} (hx : sep ∉ x) :
    Char.ofNat sep.toNat ∉ Utf8.decodeLossy x := by
  intro hread
  obtain ⟨c, hc, hchar⟩ := List.mem_map.1 hread
  cases c with
  | none =>
    have hmark : ('\uFFFD').toNat = sep.toNat := by
      have hnat := congrArg Char.toNat hchar
      rwa [Utf8.toNat_char (by omega)] at hnat
    have hfar : ('\uFFFD').toNat = 0xFFFD := rfl
    omega
  | some c =>
    rw [Option.getD_some] at hchar
    obtain ⟨a, b, rfl⟩ := Utf8.exists_encodeChar hc
    rw [hchar, Utf8.encodeChar_one h] at hx
    exact hx (List.mem_append_left _ (List.mem_append_right _ (List.mem_singleton.2 rfl)))

theorem not_mem_encode {sep : UInt8} (h : sep.toNat < 0x80) {s : List Char}
    (hs : Char.ofNat sep.toNat ∉ s) : sep ∉ Utf8.encode s := by
  intro hwritten
  obtain ⟨a, b, hab⟩ := List.append_of_mem hwritten
  have hread := decodeLossy_ascii h a b
  rw [← hab, Utf8.decodeLossy_of_decode? (Utf8.decode?_encode s)] at hread
  rw [hread] at hs
  exact hs (List.mem_append_right _ (List.mem_cons_self ..))

/-- What is well formed falls apart, at an octet of ASCII, into parts that are well formed. -/
theorem encode_eq_append {sep : UInt8} (h : sep.toNat < 0x80) {s : List Char} {a b : Octets}
    (hs : Utf8.encode s = a ++ sep :: b) :
    (∃ t, a = Utf8.encode t) ∧ ∃ u, b = Utf8.encode u := by
  have hscan := Utf8.scan_encode s
  rw [hs, Utf8.scan, Utf8.decodeFrom_append_ascii h a b Utf8.waiting_none] at hscan
  obtain ⟨t, rest, -, ht, hrest⟩ := List.map_eq_append_iff.1 hscan.symm
  obtain ⟨c, u, -, -, hu⟩ := List.map_eq_cons_iff.1 hrest
  exact ⟨⟨t, (Utf8.encode_of_decodeFrom ht.symm).symm⟩,
    ⟨u, (Utf8.encode_of_decodeFrom hu.symm).symm⟩⟩

theorem slash_not_mem_decodeLossy {x : Octets} (h : 0x2F ∉ x) : '/' ∉ Utf8.decodeLossy x :=
  @not_mem_decodeLossy 0x2F (by decide) x h

theorem ofOctets_slash (a b : Octets) :
    ofOctets (a ++ 0x2F :: b) = ofOctets a ++ "/" ++ ofOctets b := by
  rw [ofOctets, decodeLossy_ascii (by decide), String.ofList_append, String.append_assoc]
  refine congrArg (ofOctets a ++ ·) ?_
  rw [← List.singleton_append, String.ofList_append]
  rfl

theorem ofFile_eq_ofOctets (x : Octets) : ofFile x = ofOctets x := by
  unfold ofFile
  cases h : Utf8.decode? x with
  | none => rfl
  | some s =>
    rw [ofOctets, Utf8.decodeLossy_of_decode? h]

theorem ofOctets_ne_empty {x : Octets} (h : x ≠ []) : ofOctets x ≠ "" := by
  rw [ofOctets, Ne, String.ofList_eq_empty_iff, Utf8.decodeLossy, List.map_eq_nil_iff]
  exact Utf8.decodeFrom_ne_nil (.inr h)

end Text
end RefManifest

/-
  Decimal digit strings. A natural number is printed by `Nat.repr`, most significant digit
  first; the value of a digit string is `Nat.ofDigitChars 10`.

  What is proved: strings of the same length compare lexicographically as their values do
  (`digits_lt_iff`, `compare_digits`), printed numbers are ordered by length and then by text
  (`compare_repr`), and appending zeros to a printed number prints the scaled number
  (`toDigits_append_zeros`).
-/
import Mathlib

namespace CryptoIntelligence.Lib

open Nat List

/-- Every character is one of `0` to `9`. -/
def AllDigits (s : List Char) : Prop := ∀ c ∈ s, c.isDigit = true

-- decided along the list; the instance of the bounded quantifier would go through every character
instance (s : List Char) : Decidable (AllDigits s) :=
  decidable_of_iff (s.all Char.isDigit = true) all_eq_true

/-- Positional value of a digit string. -/
def digitValue (s : List Char) : Nat := Nat.ofDigitChars 10 s 0

theorem allDigits_cons {c : Char} {s : List Char} :
    AllDigits (c :: s) ↔ c.isDigit = true ∧ AllDigits s := by
  simp [AllDigits]

theorem allDigits_append {s t : List Char} :
    AllDigits (s ++ t) ↔ AllDigits s ∧ AllDigits t := by
  simp only [AllDigits, mem_append]
  constructor
  · intro h
    exact ⟨fun c hc => h c (Or.inl hc), fun c hc => h c (Or.inr hc)⟩
  · rintro ⟨hs, ht⟩ c (hc | hc)
    · exact hs c hc
    · exact ht c hc

theorem allDigits_toDigits (n : Nat) : AllDigits (Nat.toDigits 10 n) := fun _ hc =>
  isDigit_of_mem_toDigits (by decide) (by decide) hc

theorem allDigits_zeros (k : Nat) : AllDigits (List.replicate k '0') := by
  intro c hc
  rw [eq_of_mem_replicate hc]
  decide

theorem digit_range {c : Char} (h : c.isDigit = true) : 48 ≤ c.toNat ∧ c.toNat ≤ 57 := by
  simpa [Char.isDigit, UInt32.le_iff_toNat_le] using h

theorem digitValue_cons (c : Char) (s : List Char) :
    digitValue (c :: s) = 10 ^ s.length * (c.toNat - 48) + digitValue s := by
  unfold digitValue
  rw [ofDigitChars_cons, ofDigitChars_eq_ofDigitChars_zero]
  simp

theorem digitValue_append (s t : List Char) :
    digitValue (s ++ t) = 10 ^ t.length * digitValue s + digitValue t := by
  unfold digitValue
  rw [ofDigitChars_append, ofDigitChars_eq_ofDigitChars_zero]

theorem digitValue_toDigits (n : Nat) : digitValue (Nat.toDigits 10 n) = n :=
  ofDigitChars_ten_toDigits

theorem digitValue_zeros (k : Nat) : digitValue (List.replicate k '0') = 0 := by
  simp [digitValue]

theorem digitValue_concat (s : List Char) (c : Char) :
    digitValue (s ++ [c]) = 10 * digitValue s + (c.toNat - 48) := by
  rw [digitValue_append, digitValue_cons]
  simp [digitValue]

theorem digitValue_lt {s : List Char} (h : AllDigits s) : digitValue s < 10 ^ s.length := by
  induction s with
  | nil => simp [digitValue]
  | cons c s ih =>
    obtain ⟨hc, hs⟩ := allDigits_cons.mp h
    have hd := digit_range hc
    have hlt := ih hs
    have hstep : 10 ^ s.length * (c.toNat - 48) ≤ 10 ^ s.length * 9 :=
      Nat.mul_le_mul_left _ (by omega)
    rw [digitValue_cons, length_cons, pow_succ]
    omega

/-- Of two digit strings of one length, the lexicographically smaller has the smaller value. -/
theorem digits_lt_iff {s t : List Char} (hlen : s.length = t.length) (hs : AllDigits s)
    (ht : AllDigits t) : s < t ↔ digitValue s < digitValue t := by
  induction s generalizing t with
  | nil =>
    obtain rfl : t = [] := length_eq_zero_iff.mp hlen.symm
    simp
  | cons c s ih =>
    obtain ⟨d, t, rfl⟩ : ∃ d t', t = d :: t' := exists_cons_of_length_eq_add_one hlen.symm
    obtain ⟨hc, hs⟩ := allDigits_cons.mp hs
    obtain ⟨hd, ht⟩ := allDigits_cons.mp ht
    have hlen' : s.length = t.length := by simpa using hlen
    have hvs := digitValue_lt hs
    have hvt := digitValue_lt ht
    have hcr := digit_range hc
    have hdr := digit_range hd
    rw [cons_lt_cons_iff, ih hlen' hs ht, digitValue_cons, digitValue_cons, hlen']
    rw [hlen'] at hvs
    -- the leading digits decide unless they agree
    rcases lt_trichotomy c.toNat d.toNat with hlt | heq | hgt
    · have hmul : 10 ^ t.length * (c.toNat - 48 + 1) ≤ 10 ^ t.length * (d.toNat - 48) :=
        Nat.mul_le_mul_left _ (by omega)
      rw [mul_add] at hmul
      exact ⟨fun _ => by omega, fun _ => Or.inl hlt⟩
    · obtain rfl : c = d := Char.toNat_inj.mp heq
      simp
    · have hmul : 10 ^ t.length * (d.toNat - 48 + 1) ≤ 10 ^ t.length * (c.toNat - 48) :=
        Nat.mul_le_mul_left _ (by omega)
      rw [mul_add] at hmul
      have hne : c ≠ d := fun h => by simp [h] at hgt
      have hnlt : ¬ c < d := fun h => by
        have : c.toNat < d.toNat := h
        omega
      constructor
      · rintro (h | ⟨h, _⟩)
        · exact absurd h hnlt
        · exact absurd h hne
      · omega

theorem digits_inj {s t : List Char} (hlen : s.length = t.length) (hs : AllDigits s)
    (ht : AllDigits t) (hv : digitValue s = digitValue t) : s = t := by
  have h1 : ¬ s < t := by rw [digits_lt_iff hlen hs ht]; omega
  have h2 : ¬ t < s := by rw [digits_lt_iff hlen.symm ht hs]; omega
  exact le_antisymm (not_lt.mp h2) (not_lt.mp h1)

/-- Digit strings of one length are ordered, as strings, by their values. -/
theorem compare_digits {s t : String} (hlen : s.toList.length = t.toList.length)
    (hs : AllDigits s.toList) (ht : AllDigits t.toList) :
    compare s t = compare (digitValue s.toList) (digitValue t.toList) := by
  have hst : s < t ↔ digitValue s.toList < digitValue t.toList := by
    rw [String.lt_iff_toList_lt, digits_lt_iff hlen hs ht]
  have heq : s = t ↔ digitValue s.toList = digitValue t.toList :=
    ⟨fun h => by rw [h], fun h => String.toList_inj.mp (digits_inj hlen hs ht h)⟩
  change compareOfLessAndEq s t = compareOfLessAndEq _ _
  unfold compareOfLessAndEq
  simp only [hst, heq]

/-- A number with fewer printed digits is smaller. -/
theorem lt_of_length_toDigits_lt {m n : Nat}
    (h : (Nat.toDigits 10 m).length < (Nat.toDigits 10 n).length) : m < n := by
  have hpos : 0 < (Nat.toDigits 10 m).length := length_toDigits_pos
  have hm := (length_toDigits_le_iff (b := 10) (n := m) (by decide) hpos).mp le_rfl
  have hn : ¬ n < 10 ^ (Nat.toDigits 10 m).length := fun hlt =>
    absurd ((length_toDigits_le_iff (by decide) hpos).mpr hlt) (by omega)
  omega

/-- A printed number of several digits has no leading zero. -/
theorem head_toDigits_ne_zero {n : Nat} (h : 1 < (Nat.toDigits 10 n).length) :
    (Nat.toDigits 10 n).head? ≠ some '0' := by
  intro h0
  obtain ⟨c, t, ht⟩ := exists_cons_of_ne_nil (toDigits_ne_nil (n := n) (b := 10))
  rw [ht, head?_cons, Option.some.injEq] at h0
  have hdig : AllDigits t := (allDigits_cons.mp (ht ▸ allDigits_toDigits n)).2
  have hv : n = digitValue t := by
    have := digitValue_toDigits n
    rw [ht, digitValue_cons, h0] at this
    simpa using this.symm
  have hlen : 0 < t.length := by
    rw [ht] at h
    simpa using h
  have hle := (length_toDigits_le_iff (b := 10) (by decide) hlen).mpr (hv ▸ digitValue_lt hdig)
  rw [ht] at hle
  simp at hle

/-- A digit string without a leading zero is at least the power of ten of its length. -/
theorem pow_le_digitValue {s : List Char} (hs : AllDigits s) (hne : s ≠ [])
    (hhead : s.head? ≠ some '0') : 10 ^ (s.length - 1) ≤ digitValue s := by
  obtain ⟨c, t, rfl⟩ := exists_cons_of_ne_nil hne
  have hc := digit_range (allDigits_cons.mp hs).1
  have hc48 : c.toNat ≠ 48 := by
    intro h
    exact hhead (by rw [head?_cons, show c = '0' from Char.toNat_inj.mp h])
  rw [digitValue_cons, length_cons, Nat.add_sub_cancel]
  have hmul : 10 ^ t.length * 1 ≤ 10 ^ t.length * (c.toNat - 48) := Nat.mul_le_mul_left _ (by omega)
  omega

/-- A string of digits that starts with a zero only if it is that zero. -/
structure Numeral (s : List Char) : Prop where
  digits : AllDigits s
  nonempty : s ≠ []
  head : 1 < s.length → s.head? ≠ some '0'

theorem Numeral.length_le {s t : List Char} (hs : Numeral s) (ht : Numeral t)
    (hv : digitValue s = digitValue t) : t.length ≤ s.length := by
  by_contra hlt
  have hpos : 0 < s.length := length_pos_iff.mpr hs.nonempty
  have hupper := digitValue_lt hs.digits
  have hlower := pow_le_digitValue ht.digits ht.nonempty (ht.head (by omega))
  have hpow : 10 ^ s.length ≤ 10 ^ (t.length - 1) := Nat.pow_le_pow_right (by decide) (by omega)
  omega

/-- A number has one numeral. -/
theorem Numeral.unique {s t : List Char} (hs : Numeral s) (ht : Numeral t)
    (hv : digitValue s = digitValue t) : s = t :=
  digits_inj (le_antisymm (ht.length_le hs hv.symm) (hs.length_le ht hv)) hs.digits ht.digits hv

/-- The last digit of a string is its value modulo ten. -/
theorem digitValue_mod_ten_of_getLast {s : List Char} (h : AllDigits s) {c : Char}
    (hc : s.getLast? = some c) : digitValue s % 10 = c.toNat - 48 := by
  obtain ⟨t, rfl⟩ := getLast?_eq_some_iff.mp hc
  have hd := digit_range (allDigits_cons.mp (allDigits_append.mp h).2).1
  rw [digitValue_concat]
  omega

/-- Printed numbers compare first by length and then as text. -/
theorem compare_repr (m n : Nat) :
    (compare m.repr.toList.length n.repr.toList.length).then (compare m.repr n.repr) =
      compare m n := by
  rw [Nat.toList_repr, Nat.toList_repr]
  rcases lt_trichotomy (Nat.toDigits 10 m).length (Nat.toDigits 10 n).length with
    hlt | heq | hgt
  · rw [Nat.compare_eq_lt.mpr hlt, Nat.compare_eq_lt.mpr (lt_of_length_toDigits_lt hlt)]
    rfl
  · have hlen : m.repr.toList.length = n.repr.toList.length := by simpa using heq
    rw [Nat.compare_eq_eq.mpr heq, compare_digits hlen (by simpa using allDigits_toDigits m)
      (by simpa using allDigits_toDigits n), Nat.toList_repr, Nat.toList_repr,
      digitValue_toDigits, digitValue_toDigits]
    rfl
  · rw [Nat.compare_eq_gt.mpr hgt, Nat.compare_eq_gt.mpr (lt_of_length_toDigits_lt hgt)]
    rfl

/-- The printed form of a positive number followed by `k` zeros prints the scaled number. -/
theorem toDigits_append_zeros {n : Nat} (hn : 0 < n) (k : Nat) :
    Nat.toDigits 10 n ++ List.replicate k '0' = Nat.toDigits 10 (n * 10 ^ k) := by
  induction k with
  | zero => simp
  | succ k ih =>
    have hpos : 0 < n * 10 ^ k := mul_pos hn (by positivity)
    have hlast := toDigits_append_toDigits (b := 10) (n := n * 10 ^ k) (d := 0)
      (by decide) hpos (by decide)
    rw [replicate_succ', ← append_assoc, ih]
    simpa [pow_succ, mul_comm, mul_assoc, mul_left_comm] using hlast

end CryptoIntelligence.Lib

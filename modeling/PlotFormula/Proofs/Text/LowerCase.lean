import Mathlib.Algebra.Ring.Nat
import PlotFormula.Text.LowerCase

/-! # Texts in lower case

Lower-casing a character once is enough, so a text in lower case is its own lower case. The place of a
capital sigma is decided within the stretch between two boundaries, such as parentheses, and a text is
brought into lower case stretch by stretch.
-/
namespace PlotFormula.Text

def IsLower (c : Char) : Prop := lowerChar c = [c]

instance decidableIsLower (c : Char) : Decidable (IsLower c) :=
  inferInstanceAs (Decidable (lowerChar c = [c]))

namespace CaseRange

def points (r : CaseRange) : List Nat :=
  (List.range ((r.last - r.first) / r.step + 1)).map fun k => r.first + r.step * k

def images (r : CaseRange) : List Nat := r.points.map fun p : Nat => (p + r.shift).toNat

theorem mem_points {r : CaseRange} {c : Nat} (hfirst : r.first ≤ c) (hlast : c ≤ r.last)
    (hstep : (c - r.first) % r.step = 0) : c ∈ r.points := by
  refine List.mem_map.mpr ⟨(c - r.first) / r.step, ?_, ?_⟩
  · have := Nat.div_le_div_right (c := r.step) (Nat.sub_le_sub_right hlast r.first)
    rw [List.mem_range]
    omega
  · have := Nat.div_add_mod (c - r.first) r.step
    omega

end CaseRange

/-- The code points that have another lower case. -/
def capitals : List Nat := '\u0130'.toNat :: lowerCaseRanges.flatMap CaseRange.points

/-- The code points that occur in the lower case of another one. -/
def smalls : List Nat := 'i'.toNat :: '\u0307'.toNat :: lowerCaseRanges.flatMap CaseRange.images

/-- A set of numbers as the bits of one number. -/
def bits (s : List Nat) : Nat := s.foldr (fun p m => 2 ^ p ||| m) 0

theorem testBit_bits {s : List Nat} {p : Nat} (h : p ∈ s) : (bits s).testBit p = true := by
  induction s with
  | nil => simp at h
  | cons q s ih =>
    show (2 ^ q ||| bits s).testBit p = true
    rw [Nat.testBit_or, Bool.or_eq_true]
    rcases List.mem_cons.mp h with rfl | h
    · exact .inl (Nat.testBit_two_pow_self ..)
    · exact .inr (ih h)

theorem bits_capitals_and_smalls : bits capitals &&& bits smalls = 0 := by
  decide +kernel

theorem not_mem_capitals {p : Nat} (h : p ∈ smalls) : p ∉ capitals := by
  intro hp
  have hbit : (bits capitals &&& bits smalls).testBit p = true := by
    rw [Nat.testBit_and, testBit_bits hp, testBit_bits h]
    rfl
  rw [bits_capitals_and_smalls] at hbit
  simp at hbit

theorem isValidChar_smalls : ∀ p ∈ smalls, p.isValidChar := by
  decide +kernel

theorem lowerCodePoint_cases (c : Nat) (rs : List CaseRange) :
    lowerCodePoint c rs = c ∨
      c ∈ rs.flatMap CaseRange.points ∧ lowerCodePoint c rs ∈ rs.flatMap CaseRange.images := by
  induction rs with
  | nil => exact .inl rfl
  | cons r rs ih =>
    rw [lowerCodePoint, List.flatMap_cons, List.flatMap_cons]
    by_cases hfirst : c < r.first
    · rw [if_pos hfirst]
      exact .inl rfl
    · rw [if_neg hfirst]
      by_cases hr : c ≤ r.last ∧ (c - r.first) % r.step = 0
      · have hpoint : c ∈ r.points := CaseRange.mem_points (Nat.le_of_not_lt hfirst) hr.1 hr.2
        have himage : (c + r.shift).toNat ∈ r.images := List.mem_map_of_mem hpoint
        rw [if_pos hr]
        exact .inr ⟨List.mem_append_left _ hpoint, List.mem_append_left _ himage⟩
      · rw [if_neg hr]
        rcases ih with ih | ⟨hpoint, himage⟩
        · exact .inl ih
        · exact .inr ⟨List.mem_append_right _ hpoint, List.mem_append_right _ himage⟩

theorem lowerCodePoint_of_not_mem {c : Nat} (h : c ∉ capitals) : lowerCodePoint c lowerCaseRanges = c := by
  rcases lowerCodePoint_cases c lowerCaseRanges with hc | ⟨hc, -⟩
  · exact hc
  · exact absurd (List.mem_cons_of_mem _ hc) h

theorem isLower_of_not_mem {c : Char} (h : c.toNat ∉ capitals) : IsLower c := by
  have hdot : c ≠ '\u0130' := by
    rintro rfl
    exact h (List.mem_cons_self ..)
  rw [IsLower, lowerChar, if_neg hdot, lowerCodePoint_of_not_mem h, Char.ofNat_toNat]

theorem toNat_ofNat {n : Nat} (h : n.isValidChar) : (Char.ofNat n).toNat = n := by
  rw [Char.ofNat, dif_pos h]
  rfl

/-- What a lower case is made of is its own lower case. -/
theorem isLower_of_mem_lowerChar {c d : Char} (h : d ∈ lowerChar c) : IsLower d := by
  rw [lowerChar] at h
  split at h
  next =>
    refine isLower_of_not_mem (not_mem_capitals ?_)
    rcases List.mem_cons.mp h with rfl | h
    · exact List.mem_cons_self ..
    · obtain rfl := List.mem_singleton.mp h
      exact List.mem_cons_of_mem _ (List.mem_cons_self ..)
  next hdot =>
    obtain rfl := List.mem_singleton.mp h
    rcases lowerCodePoint_cases c.toNat lowerCaseRanges with hc | ⟨-, himage⟩
    · rw [IsLower, hc, Char.ofNat_toNat, lowerChar, if_neg hdot, hc, Char.ofNat_toNat]
    · have hsmall : lowerCodePoint c.toNat lowerCaseRanges ∈ smalls :=
        List.mem_cons_of_mem _ (List.mem_cons_of_mem _ himage)
      apply isLower_of_not_mem
      rw [toNat_ofNat (isValidChar_smalls _ hsmall)]
      exact not_mem_capitals hsmall

theorem lowerChar_of_ascii {c : Char} (h : c.toNat < 128) : lowerChar c = [c.toLower] := by
  have htable : ∀ n < 128, lowerChar (Char.ofNat n) = [(Char.ofNat n).toLower] := by
    decide +kernel
  have := htable c.toNat h
  rwa [Char.ofNat_toNat] at this

theorem toLower_of_not_ascii {c : Char} (h : ¬ c.toNat < 128) : c.toLower = c := by
  have hupper : ¬ (c.val ≥ 'A'.val ∧ c.val ≤ 'Z'.val) := by
    rintro ⟨-, hz⟩
    have : c.toNat ≤ 'Z'.toNat := UInt32.le_iff_toNat_le.mp hz
    exact h (Nat.lt_of_le_of_lt this (by decide))
  exact dif_neg hupper

theorem IsLower.toLower_eq {c : Char} (h : IsLower c) : c.toLower = c := by
  by_cases hc : c.toNat < 128
  · rw [IsLower, lowerChar_of_ascii hc] at h
    exact (List.cons.inj h).1
  · exact toLower_of_not_ascii hc

theorem lowerCharBetween_of_isLower {c : Char} (h : IsLower c) (before after : List Char) :
    lowerCharBetween before c after = [c] := by
  have hsigma : c ≠ 'Σ' := by
    rintro rfl
    exact absurd h (by decide +kernel)
  rw [lowerCharBetween, if_neg hsigma, h]

theorem isLower_of_mem_lowerCharBetween {before after : List Char} {c d : Char}
    (h : d ∈ lowerCharBetween before c after) : IsLower d := by
  rw [lowerCharBetween] at h
  split at h
  next =>
    have hd : d = 'ς' ∨ d = 'σ' := by
      split at h
      next => exact .inl (List.mem_singleton.mp h)
      next => exact .inr (List.mem_singleton.mp h)
    rcases hd with rfl | rfl <;> decide +kernel
  next => exact isLower_of_mem_lowerChar h

theorem isLower_of_mem_lowerCaseFrom {before s : List Char} {d : Char} (h : d ∈ lowerCaseFrom before s) :
    IsLower d := by
  induction s generalizing before with
  | nil => simp [lowerCaseFrom] at h
  | cons c s ih =>
    rw [lowerCaseFrom] at h
    rcases List.mem_append.mp h with h | h
    · exact isLower_of_mem_lowerCharBetween h
    · exact ih h

theorem isLower_of_mem_lowerCase {s : List Char} {d : Char} (h : d ∈ lowerCase s) : IsLower d :=
  isLower_of_mem_lowerCaseFrom h

theorem lowerCaseFrom_of_isLower {s : List Char} (h : ∀ c ∈ s, IsLower c) (before : List Char) :
    lowerCaseFrom before s = s := by
  induction s generalizing before with
  | nil => rfl
  | cons c s ih =>
    obtain ⟨hc, hs⟩ := List.forall_mem_cons.mp h
    rw [lowerCaseFrom, lowerCharBetween_of_isLower hc, ih hs]
    rfl

theorem lowerCase_of_isLower {s : List Char} (h : ∀ c ∈ s, IsLower c) : lowerCase s = s :=
  lowerCaseFrom_of_isLower h []

theorem isLower_iff_lowerCase {c : Char} : IsLower c ↔ lowerCase [c] = [c] := by
  constructor
  · intro h
    exact lowerCase_of_isLower (by simpa using h)
  · intro h
    exact isLower_of_mem_lowerCase (s := [c]) (by simp [h])

theorem lowerCase_of_ascii {s : List Char} (h : ∀ c ∈ s, c.toNat < 128) :
    lowerCase s = s.map Char.toLower := by
  have hfrom (before : List Char) : lowerCaseFrom before s = s.map Char.toLower := by
    induction s generalizing before with
    | nil => rfl
    | cons c s ih =>
      obtain ⟨hc, hs⟩ := List.forall_mem_cons.mp h
      have hsigma : c ≠ 'Σ' := by
        rintro rfl
        exact absurd hc (by decide)
      rw [lowerCaseFrom, lowerCharBetween, if_neg hsigma, lowerChar_of_ascii hc, ih hs]
      rfl
  exact hfrom []

/-- A character in lower case at which the search for the ends of words stops without a word. -/
structure IsBoundary (d : Char) : Prop where
  isLower : IsLower d
  uncased : isCased d = false
  counts : isCaseIgnorable d = false

theorem isBoundary_open : IsBoundary '(' := ⟨by decide +kernel, by decide +kernel, by decide +kernel⟩

theorem isBoundary_close : IsBoundary ')' := ⟨by decide +kernel, by decide +kernel, by decide +kernel⟩

theorem isBoundary_comma : IsBoundary ',' := ⟨by decide +kernel, by decide +kernel, by decide +kernel⟩

theorem isBoundary_minus : IsBoundary '-' := ⟨by decide +kernel, by decide +kernel, by decide +kernel⟩

namespace IsBoundary
variable {d : Char}

theorem startsCased_append (hd : IsBoundary d) (s t : List Char) :
    startsCased (s ++ d :: t) = startsCased s := by
  induction s with
  | nil => simp [startsCased, hd.counts, hd.uncased]
  | cons c s ih =>
    rw [startsCased, startsCased] at ih ⊢
    rw [List.cons_append, List.dropWhile_cons, List.dropWhile_cons]
    split
    next => exact ih
    next => rfl

theorem lowerCharBetween_append (hd : IsBoundary d) (before : List Char) (c : Char) (after t : List Char) :
    lowerCharBetween before c (after ++ d :: t) = lowerCharBetween before c after := by
  rw [lowerCharBetween, lowerCharBetween, hd.startsCased_append]

theorem lowerCaseFrom_context (hd : IsBoundary d) (before context s : List Char) :
    lowerCaseFrom (before ++ d :: context) s = lowerCaseFrom before s := by
  induction s generalizing before with
  | nil => rfl
  | cons c s ih =>
    have hchar : lowerCharBetween (before ++ d :: context) c s = lowerCharBetween before c s := by
      rw [lowerCharBetween, lowerCharBetween, hd.startsCased_append]
    rw [lowerCaseFrom, lowerCaseFrom, hchar, ← List.cons_append, ih]

theorem lowerCaseFrom_append (hd : IsBoundary d) (before s t : List Char) :
    lowerCaseFrom before (s ++ d :: t) = lowerCaseFrom before s ++ d :: lowerCase t := by
  induction s generalizing before with
  | nil =>
    show lowerCharBetween before d t ++ lowerCaseFrom (d :: before) t = d :: lowerCase t
    rw [lowerCharBetween_of_isLower hd.isLower]
    exact congrArg (d :: ·) (hd.lowerCaseFrom_context [] before t)
  | cons c s ih =>
    rw [List.cons_append, lowerCaseFrom, hd.lowerCharBetween_append, ih, lowerCaseFrom, List.append_assoc]

/-- The text before a boundary and the one after it are brought into lower case apart. -/
theorem lowerCase_append (hd : IsBoundary d) (s t : List Char) :
    lowerCase (s ++ d :: t) = lowerCase s ++ d :: lowerCase t :=
  hd.lowerCaseFrom_append [] s t

end IsBoundary
end PlotFormula.Text

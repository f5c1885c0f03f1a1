import LineSum.Text.Basic
import Mathlib.Data.List.Basic

/-!
# Texts taken apart

Lemmas about texts that are cut at a separator, and about the digits of numbers.
-/

namespace LineSum

/-! ## Parts between separators

Texts are cut at newlines and at slashes, always in the same way: what stands between the separators
is a part, and no part has a separator in it. A part that is followed by a separator is therefore
known from the whole.
-/

variable {separator : Char}

/-- To begin a new part at each separator, and to put every other character in front of the part
that follows it, is to cut a text at its separators. -/
theorem eq_splitOn {cut : List Char → List (List Char)} (hnil : cut [] = [[]])
    (hcons : ∀ c rest, cut (c :: rest) =
      if c = separator then [] :: cut rest
      else
        match cut rest with
        | [] => [[c]]
        | part :: parts => (c :: part) :: parts)
    (cs : List Char) : cut cs = cs.splitOn separator := by
  induction cs with
  | nil => exact hnil
  | cons c rest ih =>
    rw [hcons, List.splitOn_cons_eq_if_modifyHead, ih]
    by_cases hc : c = separator
    · rw [if_pos hc, if_pos (beq_iff_eq.mpr hc)]
    · rw [if_neg hc, if_neg (by rwa [beq_iff_eq])]
      obtain ⟨part, parts, hparts⟩ :=
        List.exists_cons_of_ne_nil (List.splitOn_ne_nil separator rest)
      rw [hparts]
      rfl

/-- No part has a separator in it. -/
theorem notMem_of_mem_splitOn {cs : List Char} :
    ∀ part ∈ cs.splitOn separator, separator ∉ part := by
  induction cs with
  | nil =>
    rw [List.splitOn_nil, List.forall_mem_singleton]
    exact List.not_mem_nil
  | cons c cs ih =>
    obtain ⟨first, others, hparts⟩ := List.exists_cons_of_ne_nil (List.splitOn_ne_nil separator cs)
    rw [hparts] at ih
    rw [List.splitOn_cons_eq_if_modifyHead, hparts]
    by_cases hc : c = separator
    · rw [if_pos (beq_iff_eq.mpr hc), List.forall_mem_cons]
      exact ⟨List.not_mem_nil, ih⟩
    · -- the character is put in front of the first part
      rw [if_neg (by rwa [beq_iff_eq]), List.modifyHead_cons, List.forall_mem_cons, List.mem_cons,
        not_or]
      rw [List.forall_mem_cons] at ih
      exact ⟨⟨Ne.symm hc, ih.1⟩, ih.2⟩

/-- A part that is followed by a separator is known from the whole, and so is what stands
behind the separator. -/
theorem append_separator_inj {a b x y : List Char} (ha : separator ∉ a) (hb : separator ∉ b)
    (h : a ++ separator :: x = b ++ separator :: y) : a = b ∧ x = y := by
  have hparts := congrArg (List.splitOn separator) h
  rw [List.splitOn_append_cons_self_of_not_mem ha, List.splitOn_append_cons_self_of_not_mem hb]
    at hparts
  obtain rfl : a = b := (List.cons.inj hparts).1
  exact ⟨rfl, (List.cons.inj (List.append_cancel_left h)).2⟩

/-! ## How numbers are printed

A number is printed by its decimal digits, the first of which is no zero unless it is the only one;
an integer that is negative has a sign in front of them. The digits stand for the number.
-/

/-! ### Digits -/

/-- The digits of a number are decimal. -/
theorem isDecimal_of_mem_toDigits {n : Nat} {c : Char} (h : c ∈ Nat.toDigits 10 n) :
    isDecimal c = true := by
  have hdigit := Nat.isDigit_of_mem_toDigits (by decide) (by decide) h
  rw [Char.isDigit_iff_toNat] at hdigit
  unfold isDecimal
  simp only [Bool.and_eq_true, decide_eq_true_eq, Char.le_def, UInt32.le_iff_toNat_le]
  exact hdigit

/-- The digits of a number stand for it. -/
theorem decimalValue_toDigits (n : Nat) : decimalValue (Nat.toDigits 10 n) = n := by
  have hfold : decimalValue (Nat.toDigits 10 n) = Nat.ofDigitChars 10 (Nat.toDigits 10 n) 0 := by
    unfold decimalValue
    rw [Nat.ofDigitChars_eq_foldl]
    simp only [Nat.mul_comm]
  rw [hfold, Nat.ofDigitChars_ten_toDigits]

/-- The digits of a positive number do not begin with a zero. -/
theorem head?_toDigits_ne_zero {n : Nat} (h : 0 < n) : (Nat.toDigits 10 n).head? ≠ some '0' := by
  induction n using Nat.strongRecOn with
  | ind n ih =>
    by_cases hsmall : n < 10
    · rw [Nat.toDigits_of_lt_base hsmall, List.head?_cons, ne_eq, Option.some.injEq,
        Nat.digitChar_eq_zero]
      omega
    · rw [Nat.toDigits_of_base_le (by decide) (by omega),
        List.head?_append_of_ne_nil _ Nat.toDigits_ne_nil]
      exact ih (n / 10) (by omega) (by omega)

/-- No number has a zero in front of other digits. -/
theorem not_leadingZero_toDigits (n : Nat) :
    ¬ ((Nat.toDigits 10 n).head? = some '0' ∧ (Nat.toDigits 10 n).length ≠ 1) := by
  rintro ⟨hhead, hlength⟩
  cases n with
  | zero => exact hlength rfl
  | succ n => exact head?_toDigits_ne_zero (Nat.succ_pos n) hhead

/-- The digits of a number begin with a digit. -/
theorem exists_toDigits_eq_cons (n : Nat) :
    ∃ d ds, Nat.toDigits 10 n = d :: ds ∧ isDecimal d = true := by
  obtain ⟨d, ds, hds⟩ := List.exists_cons_of_ne_nil (Nat.toDigits_ne_nil (n := n) (b := 10))
  refine ⟨d, ds, hds, isDecimal_of_mem_toDigits (n := n) ?_⟩
  rw [hds]
  exact List.mem_cons_self

/-! ### Signs -/

/-- An integer is printed as a sign, if it is negative, and the digits of its size. -/
theorem toList_toString_int (z : Int) :
    (toString z).toList = (if z < 0 then ['-'] else []) ++ Nat.toDigits 10 z.natAbs := by
  rw [Int.toString_eq_repr, Int.repr_eq_if]
  by_cases hz : z < 0
  · rw [if_neg (by omega), if_pos hz, String.toList_append, Nat.toList_repr,
      show (-z).toNat = z.natAbs by omega]
    rfl
  · rw [if_pos (by omega), if_neg hz, Nat.toList_repr, show z.toNat = z.natAbs by omega]
    rfl

end LineSum

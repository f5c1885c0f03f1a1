import LineSum.Json.Tree
import LineSum.Proofs.Text
import Mathlib.Data.List.Basic
import Mathlib.Data.List.TakeWhile
import Mathlib.Tactic.FinCases

/-!
# Reading strings and numbers that are printed

A string is read character by character: each of them is written by a letter, by its code or as
itself. A number is read by its digits, which end where something follows that is no digit, and by
its exponent.
-/

namespace LineSum

namespace JsonTree

/-! ## Characters and their codes -/

/-- The code of a character stands for it. -/
theorem charOfCode_toNat (c : Char) : charsOfCodes.charOfCode c.toNat = c := by
  have hvalid : ¬ (0xD800 ≤ c.toNat && c.toNat < 0xE000) = true := by
    have := c.valid
    simp only [Bool.and_eq_true, decide_eq_true_eq]
    show ¬ (0xD800 ≤ c.val.toNat ∧ c.val.toNat < 0xE000)
    simp only [UInt32.isValidChar, Nat.isValidChar] at this
    omega
  unfold charsOfCodes.charOfCode
  rw [if_neg hvalid, Char.ofNat_toNat]

/-- The codes of characters stand for them: no two of them are halves of one character. -/
theorem charsOfCodes_map_toNat (cs : List Char) : charsOfCodes (cs.map Char.toNat) = cs := by
  induction cs with
  | nil => rfl
  | cons c cs ih =>
    cases cs with
    | nil => rw [List.map_cons, List.map_nil, charsOfCodes, charOfCode_toNat]
    | cons d cs =>
      have hvalid : ¬ (0xD800 ≤ c.toNat && c.toNat < 0xDC00 && 0xDC00 ≤ d.toNat &&
          d.toNat < 0xE000) = true := by
        have := c.valid
        simp only [Bool.and_eq_true, decide_eq_true_eq]
        show ¬ (((0xD800 ≤ c.val.toNat ∧ c.val.toNat < 0xDC00) ∧ _) ∧ _)
        simp only [UInt32.isValidChar, Nat.isValidChar] at this
        omega
      rw [List.map_cons, List.map_cons, charsOfCodes, if_neg hvalid, charOfCode_toNat,
        ← List.map_cons, ih]

/-! ## Strings -/

/-- A control character that has no letter of its own is read from its two digits. -/
theorem hexValue_control :
    ∀ n < 0x20, ['0', '0', hexDigit (n / 16), hexDigit (n % 16)].all isHexDigit = true ∧
      hexValue ['0', '0', hexDigit (n / 16), hexDigit (n % 16)] = n := by
  decide

/-- A character is escaped by a letter, or by its code if it is a control character without a
letter, or it stands for itself. -/
theorem escapeChar_cases (c : Char) :
    (∃ letter, escapeChar c = ['\\', letter] ∧ unescapeChar? letter = some c ∧ letter ≠ 'u' ∧
        0x20 ≤ letter.toNat) ∨
      (c.toNat < 0x20 ∧ escapeChar c =
        ['\\', 'u', '0', '0', hexDigit (c.toNat / 16), hexDigit (c.toNat % 16)]) ∨
      (0x20 ≤ c.toNat ∧ c ≠ '\x22' ∧ c ≠ '\\' ∧ escapeChar c = [c]) := by
  by_cases hletter : c ∈ ['\x22', '\\', '\x08', '\x0c', '\n', '\r', '\t']
  · left
    fin_cases hletter <;> exact ⟨_, rfl, rfl, by decide, by decide⟩
  · right
    simp only [List.mem_cons, List.not_mem_nil, or_false, not_or] at hletter
    obtain ⟨hquote, hslash, hb, hf, hn, hr, ht⟩ := hletter
    unfold escapeChar
    rw [if_neg hquote, if_neg hslash, if_neg hb, if_neg hf, if_neg hn, if_neg hr, if_neg ht]
    by_cases hcontrol : c.toNat < 0x20
    · exact Or.inl ⟨hcontrol, if_pos hcontrol⟩
    · exact Or.inr ⟨Nat.le_of_not_lt hcontrol, hquote, hslash, if_neg hcontrol⟩

/-- An escaped character is read as the character, and reading goes on behind it. -/
theorem readString_escapeChar (c : Char) (rest : List Char) :
    readString (escapeChar c ++ rest) =
      (readString rest).map fun (codes, rest) => (c.toNat :: codes, rest) := by
  rcases escapeChar_cases c with ⟨letter, hescape, hletter, hu, -⟩ | ⟨hcontrol, hescape⟩ |
    ⟨hcontrol, hquote, hslash, hescape⟩
  · rw [hescape, List.cons_append, List.singleton_append, readString]
    · rw [hletter]
    · -- such a letter is no u, so that no hexadecimal digits are due
      intro a b d e tail h
      exact absurd h hu
  · obtain ⟨hall, hvalue⟩ := hexValue_control c.toNat hcontrol
    rw [hescape, List.cons_append, List.cons_append, List.cons_append, List.cons_append,
      List.cons_append, List.cons_append, List.nil_append, readString, if_pos hall, hvalue]
  · rw [hescape, List.singleton_append, readString, if_neg]
    · simp only [Bool.or_eq_true, decide_eq_true_eq, not_or]
      exact ⟨Nat.not_lt.mpr hcontrol, hslash⟩
    · exact hquote
    · intro a b d e tail h
      exact absurd h hslash
    · intro d tail h
      exact absurd h hslash

/-- A string is read up to its closing quote. -/
theorem readString_escaped (cs rest : List Char) :
    readString (cs.flatMap escapeChar ++ '\x22' :: rest) = some (cs.map Char.toNat, rest) := by
  induction cs with
  | nil => rfl
  | cons c cs ih =>
    rw [List.flatMap_cons, List.append_assoc, readString_escapeChar, ih]
    rfl

/-- An escaped character holds no control character. -/
theorem not_control_of_mem_escapeChar {c x : Char} (h : x ∈ escapeChar c) : 0x20 ≤ x.toNat := by
  have hdigits : ∀ n < 0x20, 0x20 ≤ (hexDigit (n / 16)).toNat ∧
      0x20 ≤ (hexDigit (n % 16)).toNat := by
    decide
  rcases escapeChar_cases c with ⟨letter, hescape, -, -, hletter⟩ | ⟨hcontrol, hescape⟩ |
    ⟨hcontrol, -, -, hescape⟩
  · rw [hescape] at h
    simp only [List.mem_cons, List.not_mem_nil, or_false] at h
    rcases h with rfl | rfl
    · decide
    · exact hletter
  · rw [hescape] at h
    simp only [List.mem_cons, List.not_mem_nil, or_false] at h
    obtain ⟨hhigh, hlow⟩ := hdigits _ hcontrol
    rcases h with rfl | rfl | rfl | rfl | rfl | rfl
    · decide
    · decide
    · decide
    · decide
    · exact hhigh
    · exact hlow
  · rw [hescape, List.mem_singleton] at h
    rw [h]
    exact hcontrol

/-! ## Numbers -/

/-- What follows a value that is printed inside another one, or behind the last one. -/
def ClosesValue (rest : List Char) : Prop :=
  ∀ c ∈ rest.head?, c = ',' ∨ c = ']' ∨ c = '\x7d'

/-- Nothing follows the last value. -/
theorem closesValue_nil : ClosesValue [] := by
  intro c hc
  cases hc

/-- Digits end at what follows. -/
def StopsDigits (rest : List Char) : Prop :=
  ∀ c ∈ rest.head?, isDecimal c = false

/-- Behind a value no digit follows. -/
theorem ClosesValue.stopsDigits {rest : List Char} (h : ClosesValue rest) : StopsDigits rest := by
  intro c hc
  rcases h c hc with rfl | rfl | rfl <;> rfl

/-- A run of digits is taken as a whole. -/
theorem takeWhile_digits {digits rest : List Char} (hdigits : ∀ c ∈ digits, isDecimal c = true)
    (hrest : StopsDigits rest) : (digits ++ rest).takeWhile isDecimal = digits := by
  rw [List.takeWhile_append_of_pos hdigits]
  cases rest with
  | nil => exact List.append_nil digits
  | cons c rest =>
    have hc : ¬ isDecimal c = true := by
      rw [hrest c rfl]
      exact Bool.false_ne_true
    rw [List.takeWhile_cons_of_neg hc, List.append_nil]

/-- Where a value ends there is no exponent. -/
theorem readExponent_of_closes {rest : List Char} (h : ClosesValue rest) :
    readExponent rest = some (0, rest) := by
  cases rest with
  | nil => rfl
  | cons c rest =>
    have hc : ¬ (c = 'e' ∨ c = 'E') := by
      rcases h c rfl with rfl | rfl | rfl <;> decide
    unfold readExponent
    dsimp only
    rw [if_neg (by simpa using hc)]

/-- An exponent is read as the number that it is. -/
theorem readExponent_toString (z : Int) {rest : List Char} (h : ClosesValue rest) :
    readExponent ('e' :: (toString z).toList ++ rest) = some (z, rest) := by
  have htake := takeWhile_digits (fun c hc => isDecimal_of_mem_toDigits (n := z.natAbs) hc)
    h.stopsDigits
  obtain ⟨d, ds, hds, hd⟩ := exists_toDigits_eq_cons z.natAbs
  have hvalue := decimalValue_toDigits z.natAbs
  rw [toList_toString_int]
  rw [hds] at htake hvalue ⊢
  by_cases hz : z < 0
  · rw [if_pos hz, List.cons_append, List.singleton_append, List.cons_append, readExponent,
      if_pos (by decide)]
    dsimp only
    rw [htake, hvalue, List.drop_left]
    simp only [List.isEmpty_cons, Bool.false_eq_true, if_false, if_true]
    rw [show -(z.natAbs : Int) = z by omega]
  · have hminus : d ≠ '-' := by rintro rfl; cases hd
    have hplus : d ≠ '+' := by rintro rfl; cases hd
    rw [if_neg hz, List.nil_append, List.cons_append, List.cons_append, readExponent,
      if_pos (by decide), ← List.cons_append, htake]
    · dsimp only
      rw [hvalue, List.drop_left]
      simp only [List.isEmpty_cons, Bool.false_eq_true, if_false]
      rw [show (z.natAbs : Int) = z by omega]
    · intro tail h
      exact hminus (List.cons.inj h).1
    · intro tail h
      exact hplus (List.cons.inj h).1

/-- A number is read by its digits and its exponent. -/
theorem readNumber_toDigits (negative : Bool) (n : Nat) {rest : List Char}
    (hrest : StopsDigits rest) (hpoint : rest.head? ≠ some '.') :
    readNumber negative (Nat.toDigits 10 n ++ rest) =
      (readExponent rest).map fun (power, rest) =>
        (number (if negative then -(n : Int) else n) power, rest) := by
  have htake := takeWhile_digits (fun c hc => isDecimal_of_mem_toDigits (n := n) hc) hrest
  have hwhole : ¬ ((Nat.toDigits 10 n).isEmpty || ((Nat.toDigits 10 n).head? = some '0' &&
      (Nat.toDigits 10 n).length != 1)) = true := by
    have := not_leadingZero_toDigits n
    simp only [Bool.or_eq_true, List.isEmpty_iff, Nat.toDigits_ne_nil, false_or, Bool.and_eq_true,
      decide_eq_true_eq, bne_iff_ne]
    exact this
  unfold readNumber
  simp only [htake, List.drop_left]
  rw [if_neg hwhole]
  split
  · exact absurd rfl hpoint
  · simp only [if_true, List.append_nil, decimalValue_toDigits, List.length_nil, Int.natCast_zero,
      Int.sub_zero]

/-- What is printed behind the digits of a number is read as its exponent. -/
theorem readNumber_exponent (negative : Bool) (n : Nat) (power : Int) {rest : List Char}
    (h : ClosesValue rest) :
    readNumber negative (Nat.toDigits 10 n ++
        ((if power = 0 then "" else "e" ++ toString power).toList ++ rest)) =
      some (number (if negative then -(n : Int) else n) power, rest) := by
  by_cases hpower : power = 0
  · have hpoint : rest.head? ≠ some '.' := by
      intro hhead
      rcases h '.' hhead with h | h | h <;> exact absurd h (by decide)
    rw [if_pos hpower, String.toList_empty, List.nil_append,
      readNumber_toDigits negative n h.stopsDigits hpoint, readExponent_of_closes h, hpower]
    rfl
  · have hexponent : (if power = 0 then "" else "e" ++ toString power).toList ++ rest =
        'e' :: (toString power).toList ++ rest := by
      rw [if_neg hpower, String.toList_append]
      rfl
    have hstops : StopsDigits ('e' :: (toString power).toList ++ rest) := by
      intro c hc
      cases hc
      rfl
    have hpoint : ('e' :: (toString power).toList ++ rest).head? ≠ some '.' := by
      rw [List.cons_append, List.head?_cons, ne_eq, Option.some.injEq]
      decide
    rw [hexponent, readNumber_toDigits negative n hstops hpoint, readExponent_toString power h]
    rfl

end JsonTree

end LineSum

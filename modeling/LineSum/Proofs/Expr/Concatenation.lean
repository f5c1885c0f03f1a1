import LineSum.Proofs.Expr.Lexing

/-!
# Scanning two texts that are put together

What is found in two texts says what is found in the text that they make up. A failure of the first
one stays where it is, and a failure of the second one moves behind the first text. The tokens
follow one another, except that a number which runs across the cut is one token, whose digits are
those of both parts.

All of this holds of rows of characters. A text in 16-bit units is a row of code points, and two
such texts may have half a pair each on either side of the cut. Then the two halves are one code
point of the whole text, and this is the one it fails at if the first text fails at its half.
-/

namespace LineSum

/-! ## Runs of digits -/

section Rows

variable {α : Type} [Legible α] {a b : List α} {s t : List Token}

/-- The number of two runs of digits: each digit of the second one moves the
first one up by a place. -/
theorem digitsValue_append (a b : List α) :
    digitsValue (a ++ b) = digitsValue a * 10 ^ b.length + digitsValue b := by
  simp only [digitsValue_eq_ofDigits, List.reverse_append, List.map_append, Nat.ofDigits_append,
    List.length_map, List.length_reverse]
  ring

/-! ## Rows of characters -/

namespace Cursor

/-- What a row fails at, a longer row fails at as well. -/
theorem scanFrom_append_of_error {e : InvalidCharacter α} (h : (scanFrom 0 a).1 = .error e)
    (b : List α) : (scanFrom 0 (a ++ b)).1 = .error e := by
  obtain ⟨pre, post, rfl, hpre, hc, hposition⟩ := scanFrom_eq_error_iff.mp h
  refine scanFrom_eq_error_iff.mpr ⟨pre, post ++ b, ?_, hpre, hc, hposition⟩
  rw [List.append_assoc, List.cons_append]

/-- Behind a row that can be scanned, a failure moves by the length of the row. -/
theorem scanFrom_append_of_ok_of_error {e : InvalidCharacter α} (ha : (scanFrom 0 a).1 = .ok s)
    (hb : (scanFrom 0 b).1 = .error e) :
    (scanFrom 0 (a ++ b)).1 = .error ⟨e.character, a.length + e.position⟩ := by
  have hlegal := (scanFrom_eq_ok_iff.mp ha).legal
  obtain ⟨pre, post, rfl, hpre, hc, hposition⟩ := scanFrom_eq_error_iff.mp hb
  refine scanFrom_eq_error_iff.mpr ⟨a ++ pre, post, ?_, ?_, hc, ?_⟩
  · rw [List.append_assoc]
  · exact List.forall_mem_append.mpr ⟨hlegal, hpre⟩
  · rw [List.length_append, hposition]

/-- The tokens of two rows follow one another unless a number runs across the cut. -/
theorem scanFrom_append_of_ok (ha : (scanFrom 0 a).1 = .ok s) (hb : (scanFrom 0 b).1 = .ok t)
    (hcut : ¬ RunsAcross a b) : (scanFrom 0 (a ++ b)).1 = .ok (s ++ t) :=
  scanFrom_eq_ok_iff.mpr
    ((scanFrom_eq_ok_iff.mp ha).append (scanFrom_eq_ok_iff.mp hb) hcut)

/-- A number that runs across the cut is one token: the last number of the first row is
moved up by as many places as the second row has leading digits, and the first number of the
second row is added. -/
theorem scanFrom_append_of_runsAcross (ha : (scanFrom 0 a).1 = .ok s)
    (hb : (scanFrom 0 b).1 = .ok t) (hcut : RunsAcross a b) :
    ∃ s' m n t', s = s' ++ [.number m] ∧ t = .number n :: t' ∧
      (scanFrom 0 (a ++ b)).1 =
        .ok (s' ++ .number (m * 10 ^ (leadingDigits b).length + n) :: t') := by
  obtain ⟨init, run, s', rfl, hrun, hend, hs', rfl⟩ :=
    (scanFrom_eq_ok_iff.mp ha).exists_last_number hcut.1
  obtain ⟨run', rest, t', rfl, hrun', hstart, ht', rfl⟩ :=
    (scanFrom_eq_ok_iff.mp hb).exists_first_number hcut.2
  refine ⟨s', digitsValue run, digitsValue run', t', rfl, rfl, ?_⟩
  have hfused := hs'.append_fused hend hrun hrun' hstart ht'
  have hvalue : ((digitsValue (run ++ run') : Nat) : Int) =
      digitsValue run * 10 ^ run'.length + digitsValue run' := by
    rw [digitsValue_append]
    push_cast
    rfl
  rw [hvalue] at hfused
  rw [(leadingDigits_append hrun'.2 hstart).1]
  exact scanFrom_eq_ok_iff.mpr hfused

end Cursor

end Rows

/-! ## Code points -/

/-- Between two texts in units a pair is split: the first half ends the one text, and the second
half begins the other one. -/
structure SplitsPair (a b : List UInt16) (high low : UInt16) : Prop where
  last : a.getLast? = some high
  first : b.head? = some low
  isHigh : isHighHalf high = true
  isLow : isLowHalf low = true

/-- A first half is no second half. -/
theorem isLowHalf_of_isHighHalf {unit : UInt16} (h : isHighHalf unit = true) :
    isLowHalf unit = false := by
  unfold isHighHalf at h
  unfold isLowHalf
  rw [Bool.and_eq_true, decide_eq_true_eq, decide_eq_true_eq] at h
  rw [Bool.and_eq_false_iff, decide_eq_false_iff_not]
  exact .inl (UInt16.not_le.mpr h.2)

/-- A pair that is split behind a text is split behind a longer one. -/
theorem SplitsPair.cons {a b : List UInt16} {high low : UInt16} (h : SplitsPair a b high low)
    (unit : UInt16) : SplitsPair (unit :: a) b high low where
  last := by
    rw [List.getLast?_cons, h.last]
    rfl
  first := h.first
  isHigh := h.isHigh
  isLow := h.isLow

/-- **The code points of two texts follow one another** unless a pair is split between them. -/
theorem codePoints_append {a b : List UInt16} (h : ∀ high low, ¬ SplitsPair a b high low) :
    codePoints (a ++ b) = codePoints a ++ codePoints b := by
  fun_induction codePoints a with
  | case1 => rfl
  | case2 unit =>
    cases b with
    | nil => rfl
    | cons next rest =>
      have hpair : ¬ (isHighHalf unit && isLowHalf next) = true := by
        rw [Bool.and_eq_true]
        exact fun hhalves => h unit next ⟨rfl, rfl, hhalves.1, hhalves.2⟩
      rw [List.singleton_append, List.singleton_append, codePoints, if_neg hpair]
  | case3 unit next rest hpair ih =>
    rw [List.cons_append, List.cons_append, codePoints, if_pos hpair,
      ih fun high low hsplit => h high low ((hsplit.cons next).cons unit), List.cons_append]
  | case4 unit next rest hpair ih =>
    rw [List.cons_append, List.cons_append, codePoints, if_neg hpair, ← List.cons_append,
      ih fun high low hsplit => h high low (hsplit.cons unit), List.cons_append]

/-- Where a pair is split, the first text ends with a code point for its half, and the whole text
has one for the pair in its place. -/
theorem SplitsPair.exists_codePoints {a b : List UInt16} {high low : UInt16}
    (h : SplitsPair a b high low) :
    ∃ before behind, codePoints a = before ++ [.ofUnit high] ∧
      codePoints (a ++ b) = before ++ .ofPair high low :: behind := by
  obtain ⟨init, rfl⟩ := List.getLast?_eq_some_iff.mp h.last
  obtain ⟨rest, rfl⟩ := List.head?_eq_some_iff.mp h.first
  -- What begins with a first half does not go on with a pair.
  have hwhole : ∀ (units : List UInt16) (high' low' : UInt16),
      ¬ SplitsPair init (high :: units) high' low' := by
    intro units high' low' hsplit
    obtain rfl : high = low' := Option.some.inj hsplit.first
    exact Bool.eq_false_iff.mp (isLowHalf_of_isHighHalf h.isHigh) hsplit.isLow
  refine ⟨codePoints init, codePoints rest, codePoints_append (hwhole []), ?_⟩
  have hpair : (isHighHalf high && isLowHalf low) = true := by
    rw [h.isHigh, h.isLow]
    rfl
  rw [List.append_assoc, List.singleton_append, codePoints_append (hwhole _), codePoints,
    if_pos hpair]

/-- An expression is made of ASCII characters. -/
theorem CodePoint.code_lt_of_isLegal {p : CodePoint} (h : IsLegal p) : p.code < 0x80 := by
  -- A code point that is a legal character is the number of that character.
  have hascii : ∀ d : Char, char? p = some d → d.toNat < 0x80 → p.code < 0x80 := by
    intro d hd hlt
    change p.char? = some d at hd
    unfold CodePoint.char? at hd
    split at hd
    · next hvalid =>
      obtain rfl := Option.some.inj hd
      rwa [Char.ofNat, dif_pos hvalid] at hlt
    · cases hd
  rcases h with hdigit | hsign | hsign | hspace
  · unfold isDigit at hdigit
    rw [Option.any_eq_true] at hdigit
    obtain ⟨d, hd, hrange⟩ := hdigit
    rw [Bool.and_eq_true, decide_eq_true_eq, decide_eq_true_eq] at hrange
    have hle : d.toNat ≤ 57 := hrange.2
    exact hascii d hd (by omega)
  · exact hascii _ hsign (by decide)
  · exact hascii _ hsign (by decide)
  · exact hascii _ hspace (by decide)

/-- A first half is no character of an expression. -/
theorem not_isLegal_ofUnit {unit : UInt16} (h : isHighHalf unit = true) :
    ¬ IsLegal (CodePoint.ofUnit unit) := by
  intro hlegal
  have hlt : unit.toNat < 0x80 := CodePoint.code_lt_of_isLegal hlegal
  unfold isHighHalf at h
  rw [Bool.and_eq_true, decide_eq_true_eq] at h
  have hle : 0xD800 ≤ unit.toNat := UInt16.le_iff_toNat_le.mp h.1
  omega

/-- A pair is no character of an expression. -/
theorem not_isLegal_ofPair (high low : UInt16) : ¬ IsLegal (CodePoint.ofPair high low) := by
  intro h
  have hlt := CodePoint.code_lt_of_isLegal h
  change 0x10000 + high.toNat % 0x400 * 0x400 + low.toNat % 0x400 < 0x80 at hlt
  omega

/-! ## Texts in units -/

section Units

variable {a b : List UInt16} {s t : List Token} {e : InvalidCharacter CodePoint}

/-- A text in units is scanned as the row of its code points. -/
theorem scanUnits_eq (a : List UInt16) :
    scanUnits a = (Cursor.scanFrom 0 (codePoints a)).1 := rfl

/-- A text in units is scanned into the tokens that its code points make up, and into no others. -/
theorem scanUnits_eq_ok_iff : scanUnits a = .ok s ↔ Lexes (codePoints a) s :=
  Cursor.scanFrom_eq_ok_iff

/-- A text in units that cannot be scanned is refused at its first illegal code point. -/
theorem scanUnits_eq_error_iff :
    scanUnits a = .error e ↔ ∃ pre post, codePoints a = pre ++ e.character :: post ∧
      (∀ c ∈ pre, IsLegal c) ∧ ¬ IsLegal e.character ∧ e.position = pre.length :=
  Cursor.scanFrom_eq_error_iff

/-- The text in units behind another one that can be scanned: no pair is split between them, so
their code points follow one another. -/
theorem codePoints_append_of_ok (ha : scanUnits a = .ok s) (b : List UInt16) :
    codePoints (a ++ b) = codePoints a ++ codePoints b := by
  refine codePoints_append fun high low hsplit => ?_
  obtain ⟨before, -, hlast, -⟩ := hsplit.exists_codePoints
  refine not_isLegal_ofUnit hsplit.isHigh ((scanUnits_eq_ok_iff.mp ha).legal _ ?_)
  rw [hlast]
  exact List.mem_append_right before List.mem_cons_self

/-- What a text fails at, a longer text fails at as well, unless it is half of
a pair that is split. -/
theorem scanUnits_append_of_error (h : scanUnits a = .error e)
    (hwhole : ∀ high low, SplitsPair a b high low → e.position + 1 ≠ (codePoints a).length) :
    scanUnits (a ++ b) = .error e := by
  by_cases hsplit : ∃ high low, SplitsPair a b high low
  · obtain ⟨high, low, hsplit⟩ := hsplit
    obtain ⟨before, behind, hlast, hpair⟩ := hsplit.exists_codePoints
    obtain ⟨pre, post, hcodes, hpre, hc, hposition⟩ := scanUnits_eq_error_iff.mp h
    have hinside := hwhole high low hsplit
    rw [hcodes, hposition] at hinside
    rw [hcodes] at hlast
    -- The failure is not the last code point, so it stands before the half.
    rcases List.eq_nil_or_concat post with rfl | ⟨inner, last, rfl⟩
    · rw [List.length_append, List.length_singleton] at hinside
      exact absurd rfl hinside
    · rw [List.concat_eq_append, ← List.cons_append, ← List.append_assoc] at hlast
      obtain ⟨rfl, -⟩ := List.append_inj' hlast rfl
      rw [List.append_assoc, List.cons_append] at hpair
      exact scanUnits_eq_error_iff.mpr ⟨pre, _, hpair, hpre, hc, hposition⟩
  · have hcodes := codePoints_append fun high low h => hsplit ⟨high, low, h⟩
    rw [scanUnits_eq, hcodes]
    exact Cursor.scanFrom_append_of_error h (codePoints b)

/-- A text that fails at half of a pair, which is split behind it, fails at the pair if the other
half follows. -/
theorem scanUnits_append_of_splitsPair {high low : UInt16} (h : scanUnits a = .error e)
    (hsplit : SplitsPair a b high low) (hend : e.position + 1 = (codePoints a).length) :
    e.character = .ofUnit high ∧ scanUnits (a ++ b) = .error ⟨.ofPair high low, e.position⟩ := by
  obtain ⟨before, behind, hlast, hpair⟩ := hsplit.exists_codePoints
  obtain ⟨pre, post, hcodes, hpre, -, hposition⟩ := scanUnits_eq_error_iff.mp h
  have hlength : pre.length = before.length := by
    rw [hlast, List.length_append, List.length_singleton] at hend
    omega
  rw [hlast] at hcodes
  obtain ⟨rfl, hrest⟩ := List.append_inj hcodes hlength.symm
  refine ⟨(List.cons.inj hrest).1.symm, ?_⟩
  exact scanUnits_eq_error_iff.mpr
    ⟨before, behind, hpair, hpre, not_isLegal_ofPair high low, hposition⟩

end Units

/-! ## Texts of characters -/

/-- The code point of a character is that character. -/
theorem CodePoint.char?_ofChar (c : Char) : Legible.char? (ofChar c) = some c := by
  have hvalid : c.toNat.isValidChar := c.valid
  change (if c.toNat.isValidChar then some (Char.ofNat c.toNat) else none) = some c
  rw [if_pos hvalid, Char.ofNat_toNat]

/-- In units a character is one code point, and no pair is split behind it. -/
theorem codePoints_charUnits_append (c : Char) (rest : List UInt16) :
    codePoints ((charUnits c).map UInt16.ofNat ++ rest) = .ofChar c :: codePoints rest := by
  have hvalid : c.toNat.isValidChar := c.valid
  have hlt := CodePoint.toNat_lt c
  unfold Nat.isValidChar at hvalid
  by_cases hone : c.toNat < 0x10000
  · have hunit : (UInt16.ofNat c.toNat).toNat = c.toNat := UInt16.toNat_ofNat_of_lt' hone
    have hhigh : isHighHalf (UInt16.ofNat c.toNat) = false := by
      unfold isHighHalf
      rw [Bool.and_eq_false_iff, decide_eq_false_iff_not, decide_eq_false_iff_not,
        UInt16.le_iff_toNat_le, UInt16.lt_iff_toNat_lt, hunit]
      change ¬ 0xD800 ≤ c.toNat ∨ ¬ c.toNat < 0xDC00
      omega
    have hcode : CodePoint.ofUnit (UInt16.ofNat c.toNat) = .ofChar c := by
      rw [CodePoint.ofUnit, CodePoint.ofChar, CodePoint.mk.injEq, hunit]
    rw [charUnits, if_pos hone, List.map_singleton, List.singleton_append]
    cases rest with
    | nil => rw [codePoints, codePoints, hcode]
    | cons next rest =>
      rw [codePoints, hhigh, Bool.false_and, if_neg Bool.false_ne_true, hcode]
  · let high := UInt16.ofNat (0xD800 + (c.toNat - 0x10000) / 0x400)
    let low := UInt16.ofNat (0xDC00 + (c.toNat - 0x10000) % 0x400)
    have hhigh : high.toNat = 0xD800 + (c.toNat - 0x10000) / 0x400 :=
      UInt16.toNat_ofNat_of_lt' (by change _ < 0x10000; omega)
    have hlow : low.toNat = 0xDC00 + (c.toNat - 0x10000) % 0x400 :=
      UInt16.toNat_ofNat_of_lt' (by change _ < 0x10000; omega)
    have hpair : (isHighHalf high && isLowHalf low) = true := by
      unfold isHighHalf isLowHalf
      simp only [Bool.and_eq_true, decide_eq_true_eq, UInt16.le_iff_toNat_le,
        UInt16.lt_iff_toNat_lt, hhigh, hlow]
      change (0xD800 ≤ _ ∧ _ < 0xDC00) ∧ 0xDC00 ≤ _ ∧ _ < 0xE000
      omega
    have hcode : CodePoint.ofPair high low = .ofChar c := by
      rw [CodePoint.ofPair, CodePoint.ofChar, CodePoint.mk.injEq, hhigh, hlow]
      omega
    rw [charUnits, if_neg hone]
    change codePoints (high :: low :: rest) = _
    rw [codePoints, if_pos hpair, hcode]

/-- The code points of a text of characters are those of the characters. -/
theorem codePoints_textUnits (text : String) :
    codePoints (textUnits text) = text.toList.map .ofChar := by
  unfold textUnits units
  induction text.toList with
  | nil => rfl
  | cons c cs ih =>
    rw [List.flatMap_cons, List.map_append, codePoints_charUnits_append, ih, List.map_cons]

section Map

variable {α β : Type} [Legible α] [Legible β] {f : α → β} (hf : ∀ c, char? (f c) = char? c)

include hf

/-- What stands for the same characters has the same digits. -/
theorem isDigit_map (c : α) : isDigit (f c) = isDigit c := by
  unfold isDigit
  rw [hf]

/-- What stands for the same characters stands for the same number. -/
theorem digitsValue_map (run : List α) : digitsValue (run.map f) = digitsValue run := by
  unfold digitsValue digitValue
  rw [List.foldl_map]
  simp only [hf]

/-- What stands for the same characters has the same tokens. -/
theorem Lexes.map {cs : List α} {ts : List Token} (h : Lexes cs ts) : Lexes (cs.map f) ts := by
  induction h with
  | nil => exact .nil
  | space hc _ ih => exact .space ((hf _).trans hc) ih
  | plus hc _ ih => exact .plus ((hf _).trans hc) ih
  | minus hc _ ih => exact .minus ((hf _).trans hc) ih
  | @number run cs ts hrun hcs _ ih =>
    have hnumeral : IsNumeral (run.map f) := by
      refine ⟨fun hnil => hrun.1 (List.map_eq_nil_iff.mp hnil), ?_⟩
      rintro _ hmem
      obtain ⟨c, hc, rfl⟩ := List.mem_map.mp hmem
      rw [isDigit_map hf]
      exact hrun.2 c hc
    have hstart : startsWithDigit (cs.map f) = false := by
      cases cs with
      | nil => rfl
      | cons c cs => exact (isDigit_map hf c).trans hcs
    rw [List.map_append, ← digitsValue_map hf run]
    exact .number hnumeral hstart ih

end Map

/-- **A text of characters is scanned as its code points are.** -/
theorem scanUnits_textUnits (text : String) :
    scanUnits (textUnits text) =
      (scan text).mapError fun e => ⟨.ofChar e.character, e.position⟩ := by
  have hchar := CodePoint.char?_ofChar
  have hlegal : ∀ c : Char, IsLegal (CodePoint.ofChar c) ↔ IsLegal c := by
    intro c
    unfold IsLegal
    rw [isDigit_map hchar, hchar]
    rfl
  cases hscan : scan text with
  | ok ts =>
    refine scanUnits_eq_ok_iff.mpr ?_
    rw [codePoints_textUnits]
    exact (scan_eq_ok_iff.mp hscan).map hchar
  | error e =>
    obtain ⟨pre, post, htext, hpre, hc, hposition⟩ := scan_eq_error_iff.mp hscan
    refine scanUnits_eq_error_iff.mpr ⟨pre.map .ofChar, post.map .ofChar, ?_, ?_, ?_, ?_⟩
    · rw [codePoints_textUnits, htext, List.map_append, List.map_cons]
    · rintro _ hmem
      obtain ⟨d, hd, rfl⟩ := List.mem_map.mp hmem
      exact (hlegal d).mpr (hpre d hd)
    · exact fun h => hc ((hlegal _).mp h)
    · rw [List.length_map]
      exact hposition

/-! ## Two texts -/

/-- **Scanning is compositional, but for a pair that is split.** A failure of the first text is
the failure of both together, unless it is at half of a pair and the second text begins with the
other half: then both together fail at the same place, at the code point that the halves make
up. A failure of the second text behind one that can be scanned is moved by the length of the
first one. Where both can be scanned their tokens follow one another, but for a number that runs
across the cut, which is made of the numbers on either side of it. A text fails exactly at its
first illegal code point. -/
theorem scanUnits_append (a b : List UInt16) :
    (∀ e, scanUnits a = .error e →
      ((∀ high low, SplitsPair a b high low → e.position + 1 ≠ (codePoints a).length) →
        scanUnits (a ++ b) = .error e) ∧
      ∀ high low, SplitsPair a b high low → e.position + 1 = (codePoints a).length →
        e.character = .ofUnit high ∧
          scanUnits (a ++ b) = .error ⟨.ofPair high low, e.position⟩) ∧
    (∀ s e, scanUnits a = .ok s → scanUnits b = .error e →
      scanUnits (a ++ b) = .error ⟨e.character, (codePoints a).length + e.position⟩) ∧
    (∀ s t, scanUnits a = .ok s → scanUnits b = .ok t →
      ¬ RunsAcross (codePoints a) (codePoints b) → scanUnits (a ++ b) = .ok (s ++ t)) ∧
    (∀ s t, scanUnits a = .ok s → scanUnits b = .ok t →
      RunsAcross (codePoints a) (codePoints b) →
      ∃ s' m n t', s = s' ++ [.number m] ∧ t = .number n :: t' ∧
        scanUnits (a ++ b) =
          .ok (s' ++ .number (m * 10 ^ (leadingDigits (codePoints b)).length + n) :: t')) ∧
    ∀ e, scanUnits a = .error e ↔ ∃ pre post, codePoints a = pre ++ e.character :: post ∧
      (∀ c ∈ pre, IsLegal c) ∧ ¬ IsLegal e.character ∧ e.position = pre.length := by
  refine ⟨?_, ?_, ?_, ?_, ?_⟩
  · intro e h
    exact ⟨scanUnits_append_of_error h, fun high low => scanUnits_append_of_splitsPair h⟩
  · intro s e ha hb
    rw [scanUnits_eq, codePoints_append_of_ok ha b]
    exact Cursor.scanFrom_append_of_ok_of_error ha hb
  · intro s t ha hb hcut
    rw [scanUnits_eq, codePoints_append_of_ok ha b]
    exact Cursor.scanFrom_append_of_ok ha hb hcut
  · intro s t ha hb hcut
    rw [scanUnits_eq, codePoints_append_of_ok ha b]
    exact Cursor.scanFrom_append_of_runsAcross ha hb hcut
  · intro e
    exact scanUnits_eq_error_iff

/-- The number twelve goes on behind the cut, where two zeros come before a seven. -/
theorem scanUnits_append_leading_zeros :
    scanUnits (textUnits "3 - 12") = .ok [.number 3, .minus, .number 12] ∧
      scanUnits (textUnits "007 + 1") = .ok [.number 7, .plus, .number 1] ∧
      scanUnits (textUnits "3 - 12" ++ textUnits "007 + 1") =
        .ok [.number 3, .minus, .number 12007, .plus, .number 1] := by
  have ha : scanUnits (textUnits "3 - 12") = .ok [.number 3, .minus, .number 12] := by
    decide +kernel
  have hb : scanUnits (textUnits "007 + 1") = .ok [.number 7, .plus, .number 1] := by
    decide +kernel
  have hcut : RunsAcross (codePoints (textUnits "3 - 12")) (codePoints (textUnits "007 + 1")) :=
    ⟨by decide +kernel, by decide +kernel⟩
  obtain ⟨s', m, n, t', hs, ht, hscan⟩ :=
    (scanUnits_append (textUnits "3 - 12") (textUnits "007 + 1")).2.2.2.1 _ _ ha hb hcut
  have hlast : [Token.number 3, .minus] ++ [.number 12] = s' ++ [.number m] := hs
  obtain ⟨rfl, hm⟩ := List.append_inj' hlast rfl
  cases hm
  cases ht
  have hdigits : (leadingDigits (codePoints (textUnits "007 + 1"))).length = 3 := by
    decide +kernel
  rw [hdigits] at hscan
  exact ⟨ha, hb, hscan⟩

/-- Half a smiling face is refused behind a digit, and the whole face in its place when the other
half follows. -/
theorem not_scanUnits_append_of_error :
    scanUnits [0x31, 0xD83D] = .error ⟨.ofUnit 0xD83D, 1⟩ ∧
      scanUnits ([0x31, 0xD83D] ++ [0xDE00]) = .error ⟨.ofChar '😀', 1⟩ ∧
      ¬ ∀ a b e, scanUnits a = .error e → scanUnits (a ++ b) = .error e := by
  have hhalf : scanUnits [0x31, 0xD83D] = .error ⟨.ofUnit 0xD83D, 1⟩ := by decide +kernel
  have hface : scanUnits ([0x31, 0xD83D] ++ [0xDE00]) = .error ⟨.ofChar '😀', 1⟩ := by
    decide +kernel
  refine ⟨hhalf, hface, ?_⟩
  intro hsame
  have hother := hface.symm.trans (hsame _ [0xDE00] _ hhalf)
  exact absurd hother (by decide +kernel)

end LineSum

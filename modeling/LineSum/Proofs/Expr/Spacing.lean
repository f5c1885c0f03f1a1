import LineSum.Proofs.Expr.Concatenation
import LineSum.Proofs.Expr.Grammar

/-!
# Spaces in an expression

A space ends a number and is dropped. So where no number runs across the place at which a space is
put in, the tokens stay as they are; otherwise the number falls apart into two numbers in a row, and
the second one stands where a sign is due.
-/

namespace LineSum

/-! ## Tokens around a space -/

/-- The tokens on either side of a space follow one another. -/
theorem Lexes.append_space {a b : List Char} {s t : List Token} (ha : Lexes a s) (hb : Lexes b t) :
    Lexes (a ++ ' ' :: b) (s ++ t) := by
  have hcut : ¬ RunsAcross a (' ' :: b) := by
    rintro ⟨-, hstart⟩
    cases hstart
  exact ha.append (.space rfl hb) hcut

/-- The characters of a text into which a space has been put. -/
theorem toList_append_space (a b : String) :
    (a ++ " " ++ b).toList = a.toList ++ ' ' :: b.toList := by
  rw [String.toList_append, String.toList_append, List.append_assoc]
  rfl

/-- Tokens that have a value take turns. -/
theorem misplaced_of_value {ts : List Token} {total : Int} (h : evaluateTokens ts = .ok total) :
    misplaced true ts = none := by
  cases hturn : misplaced true ts with
  | none => rfl
  | some t => cases (evaluateTokens_of_misplaced hturn).symm.trans h

/-- If a number among tokens that take turns falls apart into two numbers, the second one is the
first token out of turn. -/
theorem misplaced_of_split {s t : List Token} {whole m n : Int}
    (h : misplaced true (s ++ .number whole :: t) = none) :
    misplaced true (s ++ .number m :: .number n :: t) = some (.number n) := by
  rw [misplaced_append, Option.or_eq_none_iff] at h
  obtain ⟨hs, hrest⟩ := h
  have hdue : dueAfter true s = true := by
    by_contra hsign
    rw [Bool.not_eq_true] at hsign
    rw [hsign] at hrest
    cases hrest
  rw [misplaced_append, hs, hdue]
  rfl

/-! ## Putting a space in -/

/-- The number that the leading digits of a text write in base ten. -/
def leadingValue (cs : List Char) : Nat :=
  Nat.ofDigits 10 ((leadingDigits cs).reverse.map digitValue)

section Insertion

variable {a b : String} {ts : List Token} {total : Int}

/-- The two parts of a text that has tokens have tokens. -/
theorem exists_lexes_parts (h : Lexes (a ++ b).toList ts) :
    ∃ s t, Lexes a.toList s ∧ Lexes b.toList t := by
  rw [String.toList_append] at h
  obtain ⟨s, hs⟩ := exists_lexes fun c hc => h.legal c (List.mem_append_left b.toList hc)
  obtain ⟨t, ht⟩ := exists_lexes fun c hc => h.legal c (List.mem_append_right a.toList hc)
  exact ⟨s, t, hs, ht⟩

/-- A space between two tokens changes no token. -/
theorem Lexes.insert_space (h : Lexes (a ++ b).toList ts) (hcut : ¬ RunsAcross a.toList b.toList) :
    Lexes (a ++ " " ++ b).toList ts := by
  obtain ⟨s, t, hs, ht⟩ := exists_lexes_parts h
  rw [String.toList_append] at h
  rw [toList_append_space, h.unique (hs.append ht hcut)]
  exact hs.append_space ht

/-- A space within a number makes two numbers of it, the digits in front of the
space and those behind. -/
theorem Lexes.split_number (h : Lexes (a ++ b).toList ts) (hcut : RunsAcross a.toList b.toList) :
    ∃ s m t,
      ts = s ++ .number (m * 10 ^ (leadingDigits b.toList).length + leadingValue b.toList) :: t ∧
      Lexes (a ++ " " ++ b).toList (s ++ .number m :: .number (leadingValue b.toList) :: t) := by
  obtain ⟨_, _, hs, ht⟩ := exists_lexes_parts h
  -- The number ends the one part and begins the other, with a run of digits in each.
  obtain ⟨init, run, s, hinit, hrun, hend, hs', rfl⟩ := hs.exists_last_number hcut.1
  obtain ⟨run', rest, t, hrest, hrun', hstart, ht', rfl⟩ := ht.exists_first_number hcut.2
  have hleading : leadingDigits b.toList = run' := by
    rw [hrest, (leadingDigits_append hrun'.2 hstart).1]
  have hvalue : digitsValue run' = leadingValue b.toList := by
    rw [digitsValue_eq_ofDigits, leadingValue, hleading]
  refine ⟨s, digitsValue run, t, ?_, ?_⟩
  · have hwhole := hs'.append_fused hend hrun hrun' hstart ht'
    rw [← hinit, ← hrest, ← String.toList_append] at hwhole
    rw [h.unique hwhole, digitsValue_append, hvalue, hleading]
    push_cast
    rfl
  · rw [toList_append_space, ← hvalue]
    have hparts := hs.append_space ht
    rwa [List.append_assoc] at hparts

/-- **A space inside an expression** changes neither its tokens nor its value, unless it is put
between two digits. Then the number is read as two numbers, and the second one, whose digits are
those behind the space, is reported as an invalid token. -/
theorem evaluate_insert_space (h : evaluate (a ++ b) = .value ts total) :
    (¬ RunsAcross a.toList b.toList → evaluate (a ++ " " ++ b) = .value ts total) ∧
      (RunsAcross a.toList b.toList → ∃ s m t,
        ts = s ++ .number (m * 10 ^ (leadingDigits b.toList).length + leadingValue b.toList) :: t ∧
          evaluate (a ++ " " ++ b) =
            .parseFailed (s ++ .number m :: .number (leadingValue b.toList) :: t)
              (.invalidToken (.number (leadingValue b.toList)))) := by
  obtain ⟨hlexes, hsum⟩ := evaluate_eq_value_iff.mp h
  constructor
  · intro hcut
    exact evaluate_eq_value_iff.mpr ⟨hlexes.insert_space hcut, hsum⟩
  · intro hcut
    obtain ⟨s, m, t, rfl, hsplit⟩ := hlexes.split_number hcut
    have hturn := misplaced_of_split (m := m) (n := leadingValue b.toList) (misplaced_of_value hsum)
    exact ⟨s, m, t, rfl,
      evaluate_eq_parseFailed_iff.mpr ⟨hsplit, evaluateTokens_of_misplaced hturn⟩⟩

end Insertion

/-- The space before a sign changes nothing, and the one before the zero of 305
leaves a five behind. -/
theorem evaluate_insert_space_within_number :
    evaluate ("10" ++ "+ 305") = .value [.number 10, .plus, .number 305] 315 ∧
      ¬ RunsAcross "10".toList "+ 305".toList ∧
      evaluate "10 + 305" = .value [.number 10, .plus, .number 305] 315 ∧
      RunsAcross "10 + 3".toList "05".toList ∧
      ∃ us, evaluate "10 + 3 05" = .parseFailed us (.invalidToken (.number 5)) := by
  have h : evaluate ("10" ++ "+ 305") = .value [.number 10, .plus, .number 305] 315 := by
    decide +kernel
  have hbefore : ¬ RunsAcross "10".toList "+ 305".toList := by
    rintro ⟨-, hstart⟩
    cases hstart
  have hspaced : evaluate "10 + 305" = .value [.number 10, .plus, .number 305] 315 :=
    (evaluate_insert_space h).1 hbefore
  have hwithin : RunsAcross "10 + 3".toList "05".toList := ⟨by decide +kernel, by decide +kernel⟩
  obtain ⟨s, m, t, -, hsplit⟩ :=
    (evaluate_insert_space (a := "10 + 3") (b := "05") hspaced).2 hwithin
  have hvalue : leadingValue "05".toList = 5 := by decide +kernel
  rw [hvalue] at hsplit
  exact ⟨h, hbefore, hspaced, hwithin, _, hsplit⟩

end LineSum

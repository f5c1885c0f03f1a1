import LineSum.Proofs.Expr.Grammar

/-!
# What more text can repair

A text that has no value may get one when more is typed behind it. The kind of its failure says
whether that is so: it is, exactly when the tokens end too early. What is typed may make the last
number longer, but it changes neither the kinds of the tokens that are there nor their order, so a
token out of turn stays out of turn.
-/

namespace LineSum

/-! ## More text leaves the kinds of tokens alone -/

/-- The kinds of the tokens of a text come first among those of every longer text. -/
theorem Lexes.kinds_prefix {cs more : List Char} {ts us : List Token} (h : Lexes cs ts)
    (hmore : Lexes (cs ++ more) us) : ts.map Token.isNumber <+: us.map Token.isNumber := by
  obtain ⟨vs, hvs⟩ := exists_lexes fun c hc => hmore.legal c (List.mem_append_right cs hc)
  by_cases hcut : RunsAcross cs more
  · -- the last number goes on behind the cut, and stays one number
    obtain ⟨init, run, ss, rfl, hrun, hinit, hss, rfl⟩ := h.exists_last_number hcut.1
    obtain ⟨run', rest, ws, rfl, hrun', hrest, hws, rfl⟩ := hvs.exists_first_number hcut.2
    rw [hmore.unique (hss.append_fused hinit hrun hrun' hrest hws), List.map_append,
      List.map_append]
    exact ⟨ws.map Token.isNumber, by simp [Token.isNumber]⟩
  · rw [hmore.unique (h.append hvs hcut), List.map_append]
    exact List.prefix_append _ _

/-- A text with a token out of turn has no value, whatever is typed behind it. -/
theorem not_succeeded_append_of_misplaced {text more : String} {ts : List Token}
    (h : Lexes text.toList ts) (hturn : (misplaced true ts).isSome = true) :
    ¬ (evaluate (text ++ more)).succeeded = true := by
  intro hsucceeded
  obtain ⟨us, total, heval⟩ := succeeded_iff.mp hsucceeded
  obtain ⟨hlexes, hsum⟩ := evaluate_eq_value_iff.mp heval
  rw [String.toList_append] at hlexes
  obtain ⟨t, ht⟩ := Option.isSome_iff_exists.mp
    (misplaced_isSome_of_kinds (h.kinds_prefix hlexes) hturn)
  cases (evaluateTokens_of_misplaced ht).symm.trans hsum

/-! ## A number repairs what ends too early -/

/-- A text whose tokens take turns and end too early does not end with a digit. -/
theorem endsWithDigit_eq_false {cs : List Char} {ts : List Token} (h : Lexes cs ts)
    (hturn : misplaced true ts = none) (heven : ts.length % 2 = 0) : endsWithDigit cs = false := by
  by_contra hend
  rw [Bool.not_eq_false] at hend
  obtain ⟨init, run, ss, rfl, -, -, -, rfl⟩ := h.exists_last_number hend
  rw [List.length_append, List.length_singleton] at heven
  rw [misplaced_append, Option.or_eq_none_iff] at hturn
  -- the last number stands where a sign is due
  have hlast := hturn.2
  rw [dueAfter, if_neg (by omega)] at hlast
  cases hlast

/-- A digit behind tokens that end too early gives a text that has a value. -/
theorem succeeded_append_digit {text : String} {ts : List Token} (h : Lexes text.toList ts)
    (hturn : misplaced true ts = none) (heven : ts.length % 2 = 0) :
    (evaluate (text ++ "0")).succeeded = true := by
  have hdigit : IsNumeral ['0'] := ⟨List.cons_ne_nil _ _, List.forall_mem_singleton.mpr rfl⟩
  have hlexes := h.append (.numeral hdigit)
    (not_runsAcross_of_end (endsWithDigit_eq_false h hturn heven) _)
  have hturn' : misplaced true (ts ++ [.number (digitsValue ['0'])]) = none := by
    rw [misplaced_append, hturn, dueAfter, if_pos heven]
    rfl
  obtain ⟨n, steps, hrow⟩ := exists_number_row hturn' (by
    rw [List.length_append, List.length_singleton]
    omega)
  rw [hrow] at hlexes
  refine succeeded_iff.mpr ⟨.number n :: row steps, n + rowSum steps,
    evaluate_eq_value_iff.mpr ⟨?_, evaluateTokens_row n steps⟩⟩
  rw [String.toList_append]
  exact hlexes

/-! ## The kinds of failures -/

/-- A text cannot be scanned. -/
def FailsToScan (text : String) : Prop :=
  ∃ e, evaluate text = .scanFailed e

/-- The tokens of a text end where a number is due. -/
def EndsTooEarly (text : String) : Prop :=
  ∃ ts, evaluate text = .parseFailed ts .unexpectedEnd

/-- A token of a text is out of turn. -/
def HasInvalidToken (text : String) : Prop :=
  ∃ ts t, evaluate text = .parseFailed ts (.invalidToken t)

/-- A text is repairable when it gets a value by what is typed behind it. -/
def Repairable (text : String) : Prop :=
  ∃ more, (evaluate (text ++ more)).succeeded = true

/-- A text fails to be scanned exactly when one of its characters is illegal. -/
theorem failsToScan_iff (text : String) :
    FailsToScan text ↔ ∃ c ∈ text.toList, ¬ IsLegal c := by
  constructor
  · rintro ⟨e, he⟩
    obtain ⟨pre, post, htext, -, hc, -⟩ :=
      scan_eq_error_iff.mp (evaluate_eq_scanFailed_iff.mp he)
    exact ⟨e.character, by simp [htext], hc⟩
  · rintro ⟨c, hmem, hc⟩
    obtain ⟨pre, d, post, htext, hpre, hd⟩ := exists_first_illegal fun h => hc (h c hmem)
    exact ⟨⟨d, pre.length⟩, evaluate_eq_scanFailed_iff.mpr
      (scan_eq_error_iff.mpr ⟨pre, post, htext, hpre, hd, rfl⟩)⟩

/-- A text of legal characters without a value ends too early and is repairable, or has a token out
of turn and is not. -/
theorem endsTooEarly_or_hasInvalidToken {text : String} (h : ¬ (evaluate text).succeeded = true)
    (hlegal : ∀ c ∈ text.toList, IsLegal c) :
    (EndsTooEarly text ∧ Repairable text) ∨ (HasInvalidToken text ∧ ¬ Repairable text) := by
  obtain ⟨ts, hts⟩ := exists_lexes hlegal
  rcases evaluateTokens_cases ts with ⟨t, hturn, ht⟩ | ⟨⟨hturn, heven⟩, hend⟩ | ⟨n, steps, -, hn⟩
  · right
    refine ⟨⟨ts, t, evaluate_eq_parseFailed_iff.mpr ⟨hts, ht⟩⟩, ?_⟩
    rintro ⟨more, hmore⟩
    exact not_succeeded_append_of_misplaced hts (by rw [hturn]; rfl) hmore
  · left
    exact ⟨⟨ts, evaluate_eq_parseFailed_iff.mpr ⟨hts, hend⟩⟩, "0",
      succeeded_append_digit hts hturn heven⟩
  · exact absurd (succeeded_iff.mpr ⟨ts, _, evaluate_eq_value_iff.mpr ⟨hts, hn⟩⟩) h

/-- **The kind of a failure says what can be repaired.** A text without a value fails to be scanned
if one of its characters is illegal; otherwise it ends too early if it can be repaired by typing
more, and has an invalid token if it cannot. Exactly one of the three is the case. -/
theorem failure_kind_iff_repairable (text : String) (h : ¬ (evaluate text).succeeded = true) :
    (FailsToScan text ↔ ∃ c ∈ text.toList, ¬ IsLegal c) ∧
      ((∀ c ∈ text.toList, IsLegal c) →
        (EndsTooEarly text ↔ ∃ more, (evaluate (text ++ more)).succeeded = true) ∧
        (HasInvalidToken text ↔ ∀ more, ¬ (evaluate (text ++ more)).succeeded = true)) ∧
      (FailsToScan text ∨ EndsTooEarly text ∨ HasInvalidToken text) ∧
      ¬ (FailsToScan text ∧ EndsTooEarly text) ∧ ¬ (FailsToScan text ∧ HasInvalidToken text) ∧
      ¬ (EndsTooEarly text ∧ HasInvalidToken text) := by
  have hexclusive : ¬ (EndsTooEarly text ∧ HasInvalidToken text) := by
    rintro ⟨⟨ts, hts⟩, us, t, hus⟩
    cases hts.symm.trans hus
  refine ⟨failsToScan_iff text, fun hlegal => ?_, ?_, ?_, ?_, hexclusive⟩
  · rw [← not_exists]
    rcases endsTooEarly_or_hasInvalidToken h hlegal with ⟨hend, hrepair⟩ | ⟨htoken, hrepair⟩
    · exact ⟨iff_of_true hend hrepair,
        iff_of_false (fun htoken => hexclusive ⟨hend, htoken⟩) (not_not_intro hrepair)⟩
    · exact ⟨iff_of_false (fun hend => hexclusive ⟨hend, htoken⟩) hrepair,
        iff_of_true htoken hrepair⟩
  · by_cases hlegal : ∀ c ∈ text.toList, IsLegal c
    · rcases endsTooEarly_or_hasInvalidToken h hlegal with ⟨hend, -⟩ | ⟨htoken, -⟩
      · exact Or.inr (Or.inl hend)
      · exact Or.inr (Or.inr htoken)
    · push Not at hlegal
      exact Or.inl ((failsToScan_iff text).mpr hlegal)
  · rintro ⟨⟨e, he⟩, ts, hts⟩
    cases he.symm.trans hts
  · rintro ⟨⟨e, he⟩, ts, t, hts⟩
    cases he.symm.trans hts

/-- The text `12 - 3 +` has no value, and is one digit short of having one. -/
theorem endsTooEarly_dangling_sign :
    ¬ (evaluate "12 - 3 +").succeeded = true ∧ EndsTooEarly "12 - 3 +" := by
  have h : ¬ (evaluate "12 - 3 +").succeeded = true := by decide +kernel
  have hall : "12 - 3 +".toList.all (fun c => decide (IsLegal c)) = true := by decide +kernel
  have hlegal : ∀ c ∈ "12 - 3 +".toList, IsLegal c := fun c hc =>
    of_decide_eq_true (List.all_eq_true.mp hall c hc)
  exact ⟨h, ((failure_kind_iff_repairable _ h).2.1 hlegal).1.mpr ⟨"0", by decide +kernel⟩⟩

end LineSum

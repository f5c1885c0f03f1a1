import LineSum.Proofs.Report.Pieces

/-!
# Colours are decoration

A reporter with colours prints what the same reporter prints without them, with codes between the
characters: what is left when the codes are taken out is the same text. What is meant for programs
has no codes at all, so it does not matter there whether colours are wanted.
-/

namespace LineSum

/-! ## Texts without their codes -/

/-- A character of the parameters of a code. -/
def isCodeParameter (c : Char) : Bool :=
  isDecimal c || c == ';'

/-- What stands behind a code whose first character has been read; nothing if this is no code. -/
def behindCode? : List Char → Option (List Char)
  | '[' :: rest =>
    match rest.dropWhile isCodeParameter with
    | 'm' :: behind => some behind
    | _ => none
  | _ => none

/-- What stands behind a code is shorter. -/
theorem length_of_behindCode? {cs behind : List Char} (h : behindCode? cs = some behind) :
    behind.length < cs.length := by
  unfold behindCode? at h
  split at h
  · next rest =>
    have hdrop := (List.dropWhile_sublist (l := rest) isCodeParameter).length_le
    split at h
    · next hrest =>
      cases h
      rw [hrest, List.length_cons] at hdrop
      rw [List.length_cons]
      omega
    · cases h
  · cases h

/-- A text without its codes: every code is taken out, from left to right. -/
def withoutCodes : List Char → List Char
  | [] => []
  | c :: rest =>
    if c = Style.escape then
      match _h : behindCode? rest with
      | some behind => withoutCodes behind
      | none => c :: withoutCodes rest
    else c :: withoutCodes rest
termination_by text => text.length
decreasing_by
  · have := length_of_behindCode? _h
    rw [List.length_cons]
    omega
  all_goals rw [List.length_cons]; omega

/-- A character that begins no code stays. -/
theorem withoutCodes_cons {c : Char} (h : c ≠ Style.escape) (rest : List Char) :
    withoutCodes (c :: rest) = c :: withoutCodes rest := by
  rw [withoutCodes, if_neg h]

/-- A code is taken out. -/
theorem withoutCodes_code {rest behind : List Char} (h : behindCode? rest = some behind) :
    withoutCodes (Style.escape :: rest) = withoutCodes behind := by
  rw [withoutCodes, if_pos rfl]
  split
  · next hsome =>
    rw [h, Option.some.injEq] at hsome
    rw [hsome]
  · next hnone =>
    rw [h] at hnone
    cases hnone

/-- Only codes are taken out: not a sequence that erases a line, and not a character
that begins nothing. -/
example : withoutCodes "a\x1b[1;31mb\x1b[2K\x1b[0mc\x1b".toList = "ab\x1b[2Kc\x1b".toList := by
  cbv

/-! ## What codes are put around -/

/-- Characters that, whatever follows them, are `plain` when the codes are taken out. -/
def StripsTo (colored plain : List Char) : Prop :=
  ∀ rest, withoutCodes (colored ++ rest) = plain ++ withoutCodes rest

namespace StripsTo

/-- Nothing stays nothing. -/
theorem nil : StripsTo [] [] :=
  fun _ => rfl

/-- The codes are taken out of the first part and then out of the next one. -/
theorem append {a b plain plain' : List Char} (ha : StripsTo a plain) (hb : StripsTo b plain') :
    StripsTo (a ++ b) (plain ++ plain') := by
  intro rest
  rw [List.append_assoc, ha, hb, List.append_assoc]

/-- The codes are taken out part by part. -/
theorem flatMap {α : Type} {colored plain : α → List Char} {parts : List α}
    (h : ∀ part ∈ parts, StripsTo (colored part) (plain part)) :
    StripsTo (parts.flatMap colored) (parts.flatMap plain) := by
  induction parts with
  | nil => exact nil
  | cons part parts ih =>
    rw [List.forall_mem_cons] at h
    rw [List.flatMap_cons, List.flatMap_cons]
    exact h.1.append (ih h.2)

/-- Characters none of which begins a code stay as they are. -/
theorem of_notMem {cs : List Char} (h : Style.escape ∉ cs) : StripsTo cs cs := by
  induction cs with
  | nil => exact nil
  | cons c cs ih =>
    rw [List.mem_cons, not_or] at h
    intro rest
    rw [List.cons_append, withoutCodes_cons (Ne.symm h.1), ih h.2, List.cons_append]

/-- What is left at the end of a text. -/
theorem withoutCodes_eq {colored plain : List Char} (h : StripsTo colored plain) :
    withoutCodes colored = plain := by
  have hend := h []
  rwa [List.append_nil, withoutCodes, List.append_nil] at hend

/-- A code that selects a rendition is taken out. -/
theorem select (n : Nat) : StripsTo (Style.select n) [] := by
  intro rest
  have hdigits : ∀ c ∈ (toString n).toList, isCodeParameter c = true := by
    intro c hc
    have hdecimal : isDecimal c = true := isDecimal_of_mem_toDigits (n := n) (by simpa using hc)
    rw [isCodeParameter, hdecimal, Bool.true_or]
  have hbehind : behindCode? ('[' :: (toString n).toList ++ ['m'] ++ rest) = some rest := by
    have hdrop : ((toString n).toList ++ 'm' :: rest).dropWhile isCodeParameter = 'm' :: rest := by
      rw [List.dropWhile_append_of_pos hdigits]
      rfl
    rw [List.cons_append, List.cons_append, List.append_assoc, List.singleton_append]
    simp only [behindCode?, hdrop]
  exact withoutCodes_code hbehind

/-- The code that switches a style on is taken out. -/
theorem start (style : Style) : StripsTo style.start [] := by
  cases style with
  | greenBold => exact (select 32).append (select 1)
  | red | green | yellow | cyan | bold | dim => exact select _

/-- The code that switches a style off is taken out. -/
theorem stop (style : Style) : StripsTo style.stop [] := by
  cases style with
  | greenBold => exact (select 22).append (select 39)
  | red | green | yellow | cyan | bold | dim => exact select _

/-- The codes around the line ends of a text are taken out. -/
theorem aroundLineEnds (style : Style) {text : List Char} (h : Style.escape ∉ text) :
    StripsTo (Style.aroundLineEnds style.start style.stop text) text := by
  -- The same holds of each kind of line end: the codes before and behind it go, and it stays.
  have hend : ∀ lineEnd : List Char, Style.escape ∉ lineEnd →
      StripsTo (style.stop ++ lineEnd ++ style.start) lineEnd := by
    intro lineEnd hline
    simpa using ((stop style).append (of_notMem hline)).append (start style)
  fun_induction Style.aroundLineEnds style.start style.stop text with
  | case1 => exact nil
  | case2 rest ih =>
    simp only [List.mem_cons, not_or] at h
    have hcrlf := (hend ['\r', '\n'] (by decide)).append (ih h.2.2)
    simpa using hcrlf
  | case3 rest ih =>
    simp only [List.mem_cons, not_or] at h
    have hlf := (hend ['\n'] (by decide)).append (ih h.2)
    simpa using hlf
  | case4 c rest _ _ ih =>
    simp only [List.mem_cons, not_or] at h
    have hc : Style.escape ∉ [c] := by rw [List.mem_singleton]; exact h.1
    exact (of_notMem hc).append (ih h.2)

/-- The codes of a style are taken out of a text that is painted. -/
theorem paint (style : Style) {text : List Char} (h : Style.escape ∉ text) :
    StripsTo (style.paint text) text := by
  unfold Style.paint
  split
  · next hempty =>
    rw [List.isEmpty_iff.mp hempty]
    exact nil
  · -- the text switches no style off by itself, so nothing in it is replaced
    have hcontains : ¬ text.contains Style.escape = true := by rwa [List.contains_iff_mem]
    dsimp only
    rw [if_neg hcontains]
    have hpainted := ((start style).append (aroundLineEnds style h)).append (stop style)
    rwa [List.nil_append, List.append_nil] at hpainted

/-- A piece that is printed with colours is its text when the codes are taken out. -/
theorem piece {piece : Piece} (h : Lacks Style.escape piece.text) :
    StripsTo (piece.render true) (piece.render false) := by
  unfold Piece.render
  cases piece.style with
  | none => exact of_notMem h
  | some style => exact paint style h

/-- Lines that are printed with colours are the lines without colours when the
codes are taken out. -/
theorem lines {lines : List Line} (h : LinesLack Style.escape lines) :
    StripsTo (renderLines true lines).toList (renderLines false lines).toList := by
  unfold renderLines
  rw [String.toList_ofList, String.toList_ofList]
  apply flatMap
  intro line hline
  have hpieces : StripsTo (line.flatMap (Piece.render true))
      (line.flatMap (Piece.render false)) := by
    apply flatMap
    intro p hp
    exact piece (h line hline p hp)
  exact hpieces.append (of_notMem (by decide))

end StripsTo

/-! ## Lines without styles -/

/-- Lines without styles are printed the same with colours and without. -/
theorem renderLines_unstyled {lines : List Line} (h : EachPiece (·.style = none) lines)
    (colored colored' : Bool) : renderLines colored lines = renderLines colored' lines := by
  have hpiece : ∀ line ∈ lines, ∀ p ∈ line, Piece.render colored p = Piece.render colored' p := by
    intro line hline p hp
    rw [Piece.render, Piece.render, h line hline p hp]
  unfold renderLines
  congr 1
  apply List.flatMap_congr
  intro line hline
  rw [Line.render, Line.render, List.flatMap_congr (hpiece line hline)]

namespace Reporter

variable {r : Reporter}

/-- The formats for programs are two. -/
theorem format_of_isMachine (hr : r.isMachine = true) : r.format = .json ∨ r.format = .compact := by
  rw [isMachine, Bool.or_eq_true, decide_eq_true_iff, decide_eq_true_iff] at hr
  exact hr

/-- What a diagnostic looks like to programs has no styles. -/
theorem unstyled_printDiagnostic (hr : r.isMachine = true) (d : Diagnostic) :
    EachPiece (·.style = none) (r.printDiagnostic d).lines := by
  unfold printDiagnostic
  rcases format_of_isMachine hr with hjson | hcompact
  · rw [hjson]
    exact eachPiece_singleton_iff.mpr rfl
  · rw [hcompact]
    exact eachPiece_singleton_iff.mpr rfl

/-- What an evaluation looks like to programs has no styles. -/
theorem unstyled_printEvaluation (hr : r.isMachine = true) (e : Expression) (result : Evaluation) :
    EachPiece (·.style = none) (r.printEvaluation e result).lines := by
  unfold printEvaluation
  rcases format_of_isMachine hr with hjson | hcompact
  · rw [hjson]
    exact eachPiece_singleton_iff.mpr rfl
  · rw [hcompact]
    cases result <;> exact eachPiece_singleton_iff.mpr rfl

/-- What a summary looks like to programs has no styles. -/
theorem unstyled_printSummary (hr : r.isMachine = true) (s : Summary) (now : Int) :
    EachPiece (·.style = none) (r.printSummary s now).lines := by
  unfold printSummary
  rcases format_of_isMachine hr with hjson | hcompact
  · rw [hjson]
    exact eachPiece_singleton_iff.mpr rfl
  · rw [hcompact]
    exact eachPiece_singleton_iff.mpr rfl

/-- What is printed for programs has no styles, unless tokens are asked for on their own. -/
theorem unstyled_perform (hr : r.isMachine = true) (clock : Clock) {call : Call}
    (hcall : ∀ tokens, call ≠ .trace tokens) :
    EachPiece (·.style = none) (r.perform clock call).1.lines := by
  cases call with
  | banner version count =>
    rw [perform, if_pos hr]
    exact eachPiece_nil
  | evaluation e result => exact unstyled_printEvaluation hr e result
  | trace tokens => exact absurd rfl (hcall tokens)
  | diagnostics list =>
    apply eachPiece_all
    intro part hpart
    obtain ⟨d, -, rfl⟩ := List.mem_map.mp hpart
    exact unstyled_printDiagnostic hr d
  | summary s => exact unstyled_printSummary hr s _
  | success =>
    show EachPiece _ r.printSuccess.lines
    rw [printSuccess, if_pos hr]
    exact eachPiece_nil
  | info text =>
    show EachPiece _ (r.printInfo text).lines
    rw [printInfo, if_pos hr]
    exact eachPiece_nil

end Reporter

/-! ## Two runs -/

namespace Reporter

/-- The text that a reporter prints when it serves requests. -/
def output (r : Reporter) (clock : Clock) (calls : List Call) : String :=
  String.join ((r.performAll clock calls).map r.render)

/-- The same reporter, with colours or without. -/
def withColors (r : Reporter) (colored : Bool) : Reporter :=
  { r with colored }

/-- Whether there are colours is not asked when a request is served. -/
theorem perform_withColors (r : Reporter) (colored : Bool) (clock : Clock) (call : Call) :
    (r.withColors colored).perform clock call = r.perform clock call := by
  cases call <;> rfl

/-- Whether there are colours is not asked when requests are served. -/
theorem performAll_withColors (r : Reporter) (colored : Bool) (clock : Clock) (calls : List Call) :
    (r.withColors colored).performAll clock calls = r.performAll clock calls := by
  induction calls generalizing clock with
  | nil => rfl
  | cons call calls ih =>
    rw [performAll, performAll, perform_withColors]
    exact congrArg _ (ih _)

/-- A property of what each request prints holds of what a row of requests prints. -/
theorem forall_performAll {p : Printed → Prop} {r : Reporter} {calls : List Call}
    (h : ∀ call ∈ calls, ∀ clock, p (r.perform clock call).1) (clock : Clock) :
    ∀ printed ∈ r.performAll clock calls, p printed := by
  induction calls generalizing clock with
  | nil => exact List.forall_mem_nil _
  | cons call calls ih =>
    rw [List.forall_mem_cons] at h
    exact List.forall_mem_cons.mpr ⟨h.1 clock, ih h.2 _⟩

/-- What is printed with colours is what is printed without when the codes are taken out. -/
theorem stripsTo_output (r : Reporter) (clock : Clock) {calls : List Call}
    (h : ∀ call ∈ calls, ∀ t ∈ call.texts, Lacks Style.escape t) :
    StripsTo ((r.withColors true).output clock calls).toList
      ((r.withColors false).output clock calls).toList := by
  have hlines : ∀ printed ∈ r.performAll clock calls, LinesLack Style.escape printed.lines :=
    forall_performAll
      (fun call hcall now => r.linesLack_perform (by decide) now (h call hcall)) clock
  -- both runs print the same lines, each in its own way
  unfold output
  rw [performAll_withColors, performAll_withColors]
  generalize r.performAll clock calls = parts at hlines
  induction parts with
  | nil => exact StripsTo.nil
  | cons part parts ih =>
    rw [List.forall_mem_cons] at hlines
    rw [List.map_cons, List.map_cons, String.join_cons, String.join_cons, String.toList_append,
      String.toList_append]
    exact (StripsTo.lines hlines.1).append (ih hlines.2)

/-- For programs the same text is printed with colours and without, unless tokens are
asked for on their own. -/
theorem output_withColors {r : Reporter} (hr : r.isMachine = true) (clock : Clock)
    {calls : List Call} (h : ∀ call ∈ calls, ∀ tokens, call ≠ .trace tokens)
    (colored colored' : Bool) :
    (r.withColors colored).output clock calls = (r.withColors colored').output clock calls := by
  have hlines : ∀ printed ∈ r.performAll clock calls, EachPiece (·.style = none) printed.lines :=
    forall_performAll (fun call hcall now => unstyled_perform hr now (h call hcall)) clock
  unfold output
  rw [performAll_withColors, performAll_withColors]
  congr 1
  apply List.map_congr_left
  intro printed hprinted
  exact renderLines_unstyled (hlines printed hprinted) colored colored'

end Reporter

/-- **Colours are decoration.** When the codes are taken out of what a reporter prints with colours,
what is left is what it prints without colours, if no text of the requests holds the character that
begins a code; and the same requests are stopped early. In the formats for programs the same is
printed whether colours are wanted or not and whatever the terminal says about them; only tokens
that are asked for on their own are no part of such a format. -/
theorem colors_are_decoration :
    (∀ (r : Reporter) (clock : Clock) (calls : List Call),
      (∀ call ∈ calls, ∀ t ∈ call.texts, Lacks Style.escape t) →
        withoutCodes ((r.withColors true).output clock calls).toList =
            ((r.withColors false).output clock calls).toList ∧
          ((r.withColors true).performAll clock calls).map Printed.error =
            ((r.withColors false).performAll clock calls).map Printed.error) ∧
    (∀ (format : Format) (trace : Bool) (started : Int) (clock : Clock) (calls : List Call),
      format = .json ∨ format = .compact →
        (∀ call ∈ calls, ∀ tokens, call ≠ .trace tokens) →
          ∀ (mode mode' : ColorMode) (terminal terminal' : Terminal),
            (Reporter.make format mode trace terminal started).output clock calls =
              (Reporter.make format mode' trace terminal' started).output clock calls) := by
  refine ⟨?_, ?_⟩
  · intro r clock calls htexts
    refine ⟨(r.stripsTo_output clock htexts).withoutCodes_eq, ?_⟩
    rw [r.performAll_withColors, r.performAll_withColors]
  · intro format trace started clock calls hformat hcalls mode mode' terminal terminal'
    let r := Reporter.make format mode trace terminal started
    have hmachine : r.isMachine = true := by
      rcases hformat with rfl | rfl <;> rfl
    exact r.output_withColors hmachine clock hcalls (usesColor format mode terminal)
      (usesColor format mode' terminal')

/-- A remark over two lines and a diagnostic that is cut short are printed with codes that can be
taken out, and a program is shown the diagnostic only, whether colours are forced or unwelcome. -/
theorem colors_are_decoration_over_lines :
    let d : Diagnostic := ⟨.fileReadError, "gone", .error, "a;b",
      some ⟨⟨1, 1, -9⟩, ⟨1, 2, 1⟩⟩, some "1"⟩
    let calls : List Call := [.info "one\ntwo", .diagnostics [d], .success]
    let r : Reporter := ⟨.pretty, false, true, 0⟩
    let plain := "one\ntwo\n  ✖ ERROR  [FILE_READ_ERROR]  a;b:1:1  gone\n    ↳ 1\n" ++
      "\n✓ All expressions evaluated!\n"
    ((∀ call ∈ calls, ∀ t ∈ call.texts, Lacks Style.escape t) ∧
      (∀ call ∈ calls, ∀ tokens, call ≠ .trace tokens)) ∧
    (r.withColors true).output ⟨[]⟩ calls ≠ plain ∧
    withoutCodes ((r.withColors true).output ⟨[]⟩ calls).toList = plain.toList ∧
    (Reporter.make .compact .always false ⟨false, true, true⟩ 0).output ⟨[]⟩ calls =
      (Reporter.make .compact .auto false ⟨true, false, false⟩ 0).output ⟨[]⟩ calls := by
  intro d calls r plain
  have htexts : ∀ call ∈ calls, ∀ t ∈ call.texts, Lacks Style.escape t := by
    unfold Lacks
    decide +kernel
  have hcalls : ∀ call ∈ calls, ∀ tokens, call ≠ .trace tokens := by
    intro call hcall tokens htrace
    subst htrace
    simp [calls] at hcall
  have hplain : (r.withColors false).output ⟨[]⟩ calls = plain := by decide +kernel
  have hstripped := (colors_are_decoration.1 r ⟨[]⟩ calls htexts).1
  rw [hplain] at hstripped
  refine ⟨⟨htexts, hcalls⟩, by decide +kernel, hstripped, ?_⟩
  exact colors_are_decoration.2 .compact false 0 ⟨[]⟩ calls (Or.inr rfl) hcalls .always .auto
    ⟨false, true, true⟩ ⟨true, false, false⟩

end LineSum

import LineSum.Proofs.Report.Colors
import LineSum.Proofs.Session.Evaluations

/-!
# Colours in the plain format

The plain format has no colours of its own accord, whatever the terminal is. It has them if they are
forced: then every request that has anything to say for people is printed with codes, and every run
begins with one.
-/

namespace LineSum

/-! ## Lines with codes -/

/-- Some piece of the lines has both a style and a text. -/
def IsStyled (lines : List Line) : Prop :=
  ∃ line ∈ lines, ∃ style text, Piece.styled style text ∈ line ∧ text ≠ ""

/-- More lines are still styled. -/
theorem IsStyled.mono {lines lines' : List Line} (h : IsStyled lines) (hsub : lines ⊆ lines') :
    IsStyled lines' := by
  obtain ⟨line, hline, hpiece⟩ := h
  exact ⟨line, hsub hline, hpiece⟩

/-- With colours, styled lines are printed with codes. -/
theorem IsStyled.escape_mem {lines : List Line} (h : IsStyled lines) :
    Style.escape ∈ (renderLines true lines).toList := by
  obtain ⟨line, hline, style, text, hpiece, hne⟩ := h
  obtain ⟨rest, hcode⟩ := Piece.exists_render_eq_cons style hne
  have hescape : Style.escape ∈ (Piece.styled style text).render true := by
    rw [hcode]
    exact List.mem_cons_self
  have hrender : Style.escape ∈ Line.render true line :=
    List.mem_append_left _ (List.mem_flatMap.mpr ⟨_, hpiece, hescape⟩)
  unfold renderLines
  rw [String.toList_ofList]
  exact List.mem_flatMap.mpr ⟨line, hline, hrender⟩

/-- Without colours, lines are printed without a character that none of their pieces has. -/
theorem LinesLack.lacks_renderLines {c : Char} (hc : c ≠ '\n') {lines : List Line}
    (h : LinesLack c lines) : Lacks c (renderLines false lines) := by
  rw [renderLines_false]
  apply lacks_join_iff.mpr
  intro t ht
  rw [List.map_map] at ht
  obtain ⟨line, hline, rfl⟩ := List.mem_map.mp ht
  refine lacks_append_iff.mpr ⟨lacks_join_iff.mpr ?_, ?_⟩
  · intro text htext
    obtain ⟨piece, hpiece, rfl⟩ := List.mem_map.mp htext
    exact h line hline piece hpiece
  · exact fun hmem => hc (List.mem_singleton.mp hmem)

/-! ## Requests -/

/-- A request that has nothing to say: there are no diagnostics, or the remark is empty. -/
def Call.IsWordless (call : Call) : Prop :=
  call = .diagnostics [] ∨ call = .info ""

namespace Reporter

variable {r : Reporter}

/-- The formats for people are two. -/
theorem format_of_not_isMachine (hr : r.isMachine = false) :
    r.format = .pretty ∨ r.format = .plain := by
  unfold isMachine at hr
  cases hformat : r.format with
  | pretty => exact Or.inl rfl
  | plain => exact Or.inr rfl
  | json | compact =>
    rw [hformat] at hr
    cases hr

/-- What is printed first is a part of what is printed in the end. -/
theorem lines_subset_andThen (first second : Printed) :
    first.lines ⊆ (first.andThen second).lines := by
  unfold Printed.andThen
  split
  · exact List.subset_append_left _ _
  · exact List.Subset.refl _

/-- For people a diagnostic is styled: its severity stands in front. -/
theorem isStyled_printDiagnostic (hr : r.isMachine = false) (d : Diagnostic) :
    IsStyled (r.printDiagnostic d).lines := by
  have hheader : d.header ∈ (r.printDiagnostic d).lines := by
    unfold printDiagnostic
    rcases format_of_not_isMachine hr with hformat | hformat
    all_goals
      rw [hformat]
      dsimp only
      split
      · exact List.mem_cons_self
      · exact List.mem_cons_self
      · split <;> exact List.mem_cons_self
  refine ⟨d.header, hheader, d.severity.style, d.severity.icon, by simp [Diagnostic.header], ?_⟩
  cases d.severity <;> decide

/-- For people an evaluation is styled: its value, or what is wrong. -/
theorem isStyled_printEvaluation (hr : r.isMachine = false) (e : Expression) (result : Evaluation) :
    IsStyled (r.printEvaluation e result).lines := by
  have houtcome : IsStyled (r.outcomeLines e result).lines := by
    cases result with
    | value tokens total =>
      exact ⟨valueLine e total, List.mem_cons_self, .green, "✓", by simp [valueLine], by decide⟩
    | scanFailed error => exact isStyled_printDiagnostic hr _
    | parseFailed tokens error => exact isStyled_printDiagnostic hr _
  rw [printEvaluation_for_people (format_of_not_isMachine hr)]
  split
  · exact houtcome.mono (lines_subset_andThen _ _)
  · exact houtcome

/-- For people every request that has anything to say is styled. -/
theorem isStyled_perform (hr : r.isMachine = false) (clock : Clock) {call : Call}
    (hcall : ¬ call.IsWordless) : IsStyled (r.perform clock call).1.lines := by
  have hpeople : ¬ r.isMachine = true := by rw [hr]; exact Bool.false_ne_true
  cases call with
  | banner version count =>
    rw [perform, if_neg hpeople]
    show IsStyled (r.printBanner version count clock.read.1).lines
    rw [printBanner, if_neg hpeople]
    have hrule : bannerRule ≠ "" := by decide +kernel
    exact ⟨[.styled .dim bannerRule], List.mem_cons_of_mem _ List.mem_cons_self, .dim, bannerRule,
      List.mem_cons_self, hrule⟩
  | evaluation e result => exact isStyled_printEvaluation hr e result
  | trace tokens =>
    exact ⟨traceLine tokens, List.mem_cons_self, .dim, _, List.mem_cons_self,
      contextMargin_append_ne_empty _⟩
  | diagnostics list =>
    cases list with
    | nil => exact absurd (Or.inl rfl) hcall
    | cons d list =>
      exact (isStyled_printDiagnostic hr d).mono
        (lines_subset_andThen _ (.all (list.map r.printDiagnostic)))
  | summary s =>
    show IsStyled (r.printSummary s clock.read.1).lines
    unfold printSummary
    rcases format_of_not_isMachine hr with hformat | hformat
    all_goals
      rw [hformat]
      exact ⟨[.styled .bold "Summary"], by simp [Printed.done], .bold, "Summary",
        List.mem_cons_self, by decide⟩
  | success =>
    show IsStyled r.printSuccess.lines
    rw [printSuccess, if_neg hpeople]
    exact ⟨_, List.mem_cons_of_mem _ List.mem_cons_self, .green, "✓", List.mem_cons_self, by decide⟩
  | info text =>
    show IsStyled (r.printInfo text).lines
    rw [printInfo, if_neg hpeople]
    refine ⟨_, List.mem_cons_self, .dim, text, List.mem_cons_self, ?_⟩
    rintro rfl
    exact hcall (Or.inr rfl)

/-- A request that has nothing to say is printed without codes. -/
theorem lacks_escape_of_isWordless (hr : r.isMachine = false) (clock : Clock) {call : Call}
    (hcall : call.IsWordless) : Lacks Style.escape (r.render (r.perform clock call).1) := by
  rcases hcall with rfl | rfl
  · exact List.not_mem_nil
  · have hpeople : ¬ r.isMachine = true := by rw [hr]; exact Bool.false_ne_true
    show Lacks Style.escape (r.render (r.printInfo ""))
    rw [printInfo, if_neg hpeople]
    show Style.escape ∉ (renderLines r.colored [[.styled .dim ""]]).toList
    cases r.colored <;> decide

/-- For people a request is printed without codes exactly if there are no colours or
it has nothing to say. -/
theorem lacks_escape_render_iff (hr : r.isMachine = false) (clock : Clock) {call : Call}
    (htexts : ∀ t ∈ call.texts, Lacks Style.escape t) :
    Lacks Style.escape (r.render (r.perform clock call).1) ↔
      r.colored = false ∨ call.IsWordless := by
  constructor
  · intro hlacks
    by_contra hnone
    rw [not_or, Bool.not_eq_false] at hnone
    have hescape := (isStyled_perform hr clock hnone.2).escape_mem
    rw [← hnone.1] at hescape
    exact hlacks hescape
  · rintro (hcolored | hwordless)
    · have hlines := r.linesLack_perform (by decide) clock htexts
      unfold render
      rw [hcolored]
      exact LinesLack.lacks_renderLines (by decide) hlines
    · exact lacks_escape_of_isWordless hr clock hwordless

/-- For people a row of requests is printed without codes exactly if there are no colours or none of
the requests has anything to say. -/
theorem lacks_escape_text_iff (hr : r.isMachine = false) (clock : Clock) {calls : List Call}
    (htexts : ∀ call ∈ calls, ∀ t ∈ call.texts, Lacks Style.escape t) :
    Lacks Style.escape (r.text clock calls) ↔
      r.colored = false ∨ ∀ call ∈ calls, call.IsWordless := by
  induction calls generalizing clock with
  | nil => exact iff_of_true List.not_mem_nil (Or.inr (List.forall_mem_nil _))
  | cons call calls ih =>
    rw [List.forall_mem_cons] at htexts
    rw [text_cons, lacks_append_iff, lacks_escape_render_iff hr clock htexts.1, ih _ htexts.2,
      List.forall_mem_cons, or_and_left]

/-- For people a row that begins with a banner is printed with a code in front exactly
if there are colours. -/
theorem head?_text_banner (hr : r.isMachine = false) (clock : Clock) (version : String)
    (count : Nat) (calls : List Call) :
    (r.text clock (.banner version count :: calls)).toList.head? =
      some (if r.colored then Style.escape else '┌') := by
  have hpeople : ¬ r.isMachine = true := by rw [hr]; exact Bool.false_ne_true
  have hbanner : ∃ (title : String) (others : List Line), title.toList.head? = some '┌' ∧
      (r.perform clock (.banner version count)).1 = .done ([.styled .bold title] :: others) := by
    rw [perform, if_neg hpeople]
    dsimp only
    rw [printBanner, if_neg hpeople]
    exact ⟨_, _, by simp [toString], rfl⟩
  obtain ⟨title, others, htitle, hprinted⟩ := hbanner
  have hrender : (r.render (r.perform clock (.banner version count)).1).toList =
      (Piece.styled .bold title).render r.colored ++
        ('\n' :: (renderLines r.colored others).toList) := by
    rw [hprinted]
    show (renderLines r.colored ([.styled .bold title] :: others)).toList = _
    unfold renderLines
    rw [String.toList_ofList, String.toList_ofList, List.flatMap_cons, Line.render,
      List.flatMap_singleton, List.append_assoc]
    rfl
  rw [text_cons, String.toList_append, hrender, List.append_assoc, List.head?_append]
  cases r.colored with
  | false =>
    show title.toList.head?.or _ = _
    rw [htitle]
    rfl
  | true =>
    have hne : title ≠ "" := by
      rintro rfl
      cases htitle
    obtain ⟨behind, hcode⟩ := Piece.exists_render_eq_cons .bold hne
    rw [hcode]
    rfl

end Reporter

/-! ## Runs -/

/-- The plain format has colours exactly if they are forced. -/
theorem usesColor_plain (mode : ColorMode) (terminal : Terminal) :
    usesColor .plain mode terminal = decide (mode = .always) := by
  cases mode <;> rfl

namespace Session

variable {s : Session}

/-- A session prints its requests. -/
theorem output_eq_text (s : Session) (version : String) (terminal : Terminal) (clock : Clock) :
    s.output version terminal clock =
      (s.reporter terminal clock.read.1).text clock.read.2 (s.calls version) := rfl

/-- In the plain format a session prints the same with another mode and at another terminal exactly
if colours are forced in both cases or in neither. -/
theorem output_withColor_eq_iff (hplain : s.settings.format = .plain) (mode : ColorMode)
    (version : String) (terminal terminal' : Terminal) (clock : Clock) :
    (s.withColor mode).output version terminal' clock = s.output version terminal clock ↔
      (mode = .always ↔ s.settings.color = .always) := by
  let r := s.reporter terminal clock.read.1
  let r' := (s.withColor mode).reporter terminal' clock.read.1
  have hcolored : r.colored = decide (s.settings.color = .always) := by
    show usesColor s.settings.format s.settings.color terminal = _
    rw [hplain, usesColor_plain]
  have hcolored' : r'.colored = decide (mode = .always) := by
    show usesColor s.settings.format mode terminal' = _
    rw [hplain, usesColor_plain]
  have hmode : (mode = .always ↔ s.settings.color = .always) ↔ r'.colored = r.colored := by
    rw [hcolored, hcolored', decide_eq_decide]
  have hcalls : (s.withColor mode).calls version = s.calls version := rfl
  rw [output_eq_text, output_eq_text, hcalls, hmode]
  constructor
  · intro houtput
    -- the first character tells whether there are colours
    have hmachine : r.isMachine = false := by
      show (decide (s.settings.format = _) || decide (s.settings.format = _)) = false
      rw [hplain]
      rfl
    have hhead := congrArg (·.toList.head?) houtput
    obtain ⟨calls, hbanner⟩ :
        ∃ calls, s.calls version = .banner version s.expressions.length :: calls :=
      ⟨_, rfl⟩
    rw [hbanner] at hhead
    rw [r.head?_text_banner hmachine, r'.head?_text_banner hmachine, Option.some.injEq] at hhead
    revert hhead
    cases r'.colored <;> cases r.colored <;> decide
  · intro hsame
    have hreporter : r' = r := by
      show Reporter.mk s.settings.format s.settings.trace r'.colored clock.read.1 = _
      rw [hsame]
      rfl
    show r'.text _ _ = r.text _ _
    rw [hreporter]

end Session

/-- **The plain format is coloured exactly if colours are forced.** Whatever the mode, the tracing
and the terminal are, a row of requests whose texts hold no character that begins a code is printed
without this character in the plain format exactly if colours are not forced or none of the requests
has anything to say. Runs with this format that differ in the mode, and perhaps in the terminal,
print the same exactly if colours are forced in both of them or in neither. -/
theorem plain_colored_iff_forced (mode : ColorMode) :
    (∀ (trace : Bool) (terminal : Terminal) (started : Int) (clock : Clock) (calls : List Call),
      (∀ call ∈ calls, ∀ t ∈ call.texts, Lacks Style.escape t) →
        (Lacks Style.escape ((Reporter.make .plain mode trace terminal started).text clock calls) ↔
          mode ≠ .always ∨ ∀ call ∈ calls, call.IsWordless)) ∧
    ∀ (world : Surroundings) (files : FileSystem) (directory : Path) (terminal : Terminal)
      (options options' : Options) (texts texts' : List String) (s : Session),
      Session.start world.files world.directory options texts = .ok s →
      Session.start files directory options' texts' = .ok (s.withColor mode) →
      s.settings.format = .plain →
      ∃ result result', (CommandLine.evaluate options texts).run world = .ok result ∧
        (CommandLine.evaluate options' texts').run { world with files, directory, terminal } =
          .ok result' ∧
        (result'.output = result.output ↔ (mode = .always ↔ s.settings.color = .always)) := by
  refine ⟨?_, ?_⟩
  · intro trace terminal started clock calls htexts
    let r := Reporter.make .plain mode trace terminal started
    have hcolored : r.colored = false ↔ mode ≠ .always := by
      show usesColor .plain mode terminal = false ↔ _
      rw [usesColor_plain, decide_eq_false_iff_not]
    have hmachine : r.isMachine = false := rfl
    exact (r.lacks_escape_text_iff hmachine clock htexts).trans (or_congr_left hcolored)
  · intro world files directory terminal options options' texts texts' s hstart hstart' hplain
    exact ⟨_, _, run_of_start hstart, run_of_start hstart',
      Session.output_withColor_eq_iff hplain mode world.version world.terminal terminal world.clock⟩

/-- Options that ask for the plain format. -/
def plainOptions : Options := { Options.none with format := some .plain }

/-- What a run with these options loads. -/
def plainLoaded : Loaded sumsWorld plainOptions where
  config := ⟨none, []⟩
  settings := ⟨.plain, .auto, false, false, [], []⟩
  profileDiagnostics := []
  sources := ⟨[], []⟩
  config_eq := rfl
  settings_eq := rfl
  sources_eq := rfl

/-- In the plain format a failure is printed without codes at a terminal that would show them, and a
run prints something else when colours are forced. -/
theorem plain_colored_iff_forced_run :
    let call : Call := .evaluation ⟨"2 x", "<arg:1>", 1⟩ (evaluate "2 x")
    (∀ t ∈ call.texts, Lacks Style.escape t) ∧
    Lacks Style.escape ((Reporter.make .plain .auto true ⟨false, true, true⟩ 0).text ⟨[0]⟩ [call]) ∧
    ∃ result result', (CommandLine.evaluate plainOptions ["1 + 2"]).run sumsWorld = .ok result ∧
      (CommandLine.evaluate { plainOptions with color := some .always } ["1 + 2"]).run sumsWorld =
        .ok result' ∧ result'.output ≠ result.output := by
  intro call
  have htexts : ∀ t ∈ call.texts, Lacks Style.escape t := by
    unfold Lacks
    decide +kernel
  have hcalls : ∀ c ∈ [call], ∀ t ∈ c.texts, Lacks Style.escape t :=
    List.forall_mem_singleton.mpr htexts
  have hstart := plainLoaded.start_eq ["1 + 2"]
  have hforced :=
    Session.start_color sumsWorld.files sumsWorld.directory plainOptions ["1 + 2"] .always
  rw [hstart] at hforced
  obtain ⟨result, result', hrun, hrun', hsame⟩ := (plain_colored_iff_forced .always).2 sumsWorld
    sumsWorld.files sumsWorld.directory sumsWorld.terminal plainOptions _
    ["1 + 2"] _ _ hstart hforced rfl
  refine ⟨htexts, ?_, result, result', hrun, hrun', fun houtput => ?_⟩
  · exact ((plain_colored_iff_forced .auto).1 true ⟨false, true, true⟩ 0 ⟨[0]⟩ [call] hcalls).mpr
      (Or.inl ColorMode.noConfusion)
  · exact absurd ((hsame.mp houtput).mp rfl) ColorMode.noConfusion

/-- Forced colours go before the plain format: a remark is printed in a style, as in the other
format for people. -/
theorem forced_colors_in_plain :
    (Reporter.make .plain .always false ⟨false, false, false⟩ 0).text ⟨[0]⟩ [.info "x"] =
        "\x1b[2mx\x1b[22m\n" ∧
      (Reporter.make .plain .never false ⟨false, false, false⟩ 0).text ⟨[0]⟩ [.info "x"] =
      "x\n" := by
  decide +kernel

end LineSum

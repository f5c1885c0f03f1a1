import LineSum.Proofs.Report.Colors
import LineSum.Proofs.Session.JsonLines

/-!
# Tracing only adds

A session that traces tokens evaluates and prints what it would anyway. For people the tokens of an
expression are one more line behind it, in the records for programs they are one more entry at the
end, and in the short records they do not occur. What cannot be scanned has no tokens.
-/

namespace LineSum

/-! ## What is added -/

/-- A text as a line of context is printed, with or without colours. -/
def dimmed (colored : Bool) (text : String) : String :=
  if colored then "\x1b[2m" ++ text ++ "\x1b[22m" else text

/-- The line that shows the tokens of a text, if it can be scanned. -/
def tokensLine (colored : Bool) (text : String) : List String :=
  (scan text).toOption.toList.map fun tokens =>
    dimmed colored ("    ↳ Tokens: " ++ Token.rowText tokens)

/-- The entry that shows the tokens of a text, if it can be scanned. -/
def tokensEntry (text : String) : List (String × JsonTree) :=
  (scan text).toOption.toList.map fun tokens => ("tokens", .string (Token.rowText tokens))

/-- Line ends alone break a text in a style. -/
theorem aroundLineEnds_of_notMem (start stop : List Char) {text : List Char} (h : '\n' ∉ text) :
    Style.aroundLineEnds start stop text = text := by
  fun_induction Style.aroundLineEnds start stop text with
  | case1 => rfl
  | case2 rest ih =>
    exfalso
    simp at h
  | case3 rest ih =>
    exfalso
    simp at h
  | case4 c rest _ _ ih =>
    rw [List.mem_cons, not_or] at h
    rw [ih h.2]

/-- A text that has neither codes nor line ends is printed between two codes, if there are colours.
-/
theorem ink_dim_eq_dimmed (colored : Bool) {text : String} (hempty : text ≠ "")
    (hescape : Lacks Style.escape text) (hnewline : Lacks '\n' text) :
    ink colored .dim text = dimmed colored text := by
  cases colored with
  | false => rfl
  | true =>
    -- nothing in the text switches the style off before its end
    have hcode : ¬ text.toList.contains Style.escape = true := by
      rw [List.contains_iff_mem]
      exact hescape
    have hchars : ¬ text.toList.isEmpty = true := by
      rw [List.isEmpty_iff, String.toList_eq_nil_iff]
      exact hempty
    have hpaint : Style.dim.paint text.toList =
        Style.dim.start ++ text.toList ++ Style.dim.stop := by
      unfold Style.paint
      dsimp only
      rw [if_neg hchars, if_neg hcode, aroundLineEnds_of_notMem _ _ hnewline]
    have hstart : Style.dim.start = "\x1b[2m".toList := by decide
    have hstop : Style.dim.stop = "\x1b[22m".toList := by decide
    show String.ofList (Style.dim.paint text.toList) = "\x1b[2m" ++ text ++ "\x1b[22m"
    rw [hpaint, hstart, hstop, ← String.toList_inj]
    simp only [String.toList_ofList, String.toList_append]

/-- The line with the tokens has no control characters. -/
theorem lacks_tokensText {c : Char} (hc : c.toNat < 0x20) (tokens : List Token) :
    Lacks c ("    ↳ Tokens: " ++ Token.rowText tokens) :=
  lacks_append_iff.mpr ⟨lacks_word hc (by decide), lacks_rowText hc tokens⟩

/-- The tokens of a text are printed on one line. -/
theorem tokenTexts_eq_tokensLine (colored : Bool) (text : String) :
    tokenTexts colored text = tokensLine colored text := by
  refine List.map_congr_left fun tokens _ => ?_
  apply ink_dim_eq_dimmed
  · exact fun h => absurd (String.append_eq_empty_iff.mp h).1 (by decide)
  · exact lacks_tokensText (by decide) tokens
  · exact lacks_tokensText (by decide) tokens

/-- What tracing adds for people is at most one line. -/
theorem lacks_newline_of_mem_tokensLine {colored : Bool} {text line : String}
    (h : line ∈ tokensLine colored text) : Lacks '\n' line := by
  obtain ⟨tokens, -, rfl⟩ := List.mem_map.mp h
  have hrow : Lacks '\n' ("    ↳ Tokens: " ++ Token.rowText tokens) :=
    lacks_tokensText (by decide) tokens
  cases colored with
  | false => exact hrow
  | true =>
    have hcode : Lacks '\n' "\x1b[2m" ∧ Lacks '\n' "\x1b[22m" := by
      unfold Lacks
      decide
    exact lacks_append_iff.mpr ⟨lacks_append_iff.mpr ⟨hcode.1, hrow⟩, hcode.2⟩

/-! ## One evaluation -/

/-- The tokens of a text are the last entry of its record, and nothing else of the
record is about them. -/
theorem exists_entries_of_record (e : Expression) :
    ∃ entries, "tokens" ∉ entries.map Prod.fst ∧
      (evaluate e.text).record e false = .object entries ∧
      (evaluate e.text).record e true = .object (entries ++ tokensEntry e.text) := by
  have htokens := tokens?_evaluate e.text
  unfold tokensEntry
  rw [← htokens]
  cases evaluate e.text with
  | value tokens total => exact ⟨_, by simp, rfl, rfl⟩
  | scanFailed error => exact ⟨_, by simp, rfl, rfl⟩
  | parseFailed tokens error => exact ⟨_, by simp, rfl, rfl⟩

namespace Reporter

variable {r : Reporter}

/-- The reporter that traces tokens and is the same in everything else. -/
def tracing (r : Reporter) : Reporter :=
  { r with trace := true }

/-- What is printed of an expression with its tokens is what is printed without them and
what tracing adds in the format of the reporter: a line behind it, an entry at the end of
the record, or nothing. -/
def AddsTokens (r : Reporter) (e : Expression) (printed traced : String) : Prop :=
  match r.format with
  | .pretty | .plain => traced = printed ++ linesText (tokensLine r.colored e.text)
  | .json => ∃ entries, "tokens" ∉ entries.map Prod.fst ∧
    printed = (JsonTree.object entries).print ++ "\n" ∧
      traced = (JsonTree.object (entries ++ tokensEntry e.text)).print ++ "\n"
  | .compact => traced = printed

/-- For people the tokens of an expression are printed behind what is printed without them. -/
theorem evaluationText_tracing_of_people (hformat : r.format = .pretty ∨ r.format = .plain)
    (htrace : r.trace = false) (e : Expression) :
    r.tracing.evaluationText e = r.evaluationText e ++ linesText (tokensLine r.colored e.text) := by
  rw [evaluationText, evaluationText, render_printEvaluation hformat,
    render_printEvaluation (r := r.tracing) hformat, htrace]
  show linesText (outcomeTexts r.colored e ++ tokenTexts r.colored e.text) =
    linesText (outcomeTexts r.colored e ++ []) ++ _
  rw [List.append_nil, linesText_append, tokenTexts_eq_tokensLine]

/-- Whatever the format is, tracing only adds to what is printed of an expression. -/
theorem addsTokens_evaluationText (htrace : r.trace = false) (e : Expression) :
    r.AddsTokens e (r.evaluationText e) (r.tracing.evaluationText e) := by
  unfold AddsTokens
  cases hformat : r.format with
  | pretty => exact evaluationText_tracing_of_people (Or.inl hformat) htrace e
  | plain => exact evaluationText_tracing_of_people (Or.inr hformat) htrace e
  | json =>
    obtain ⟨entries, hkeys, huntraced, htraced⟩ := exists_entries_of_record e
    refine ⟨entries, hkeys, ?_, ?_⟩
    · rw [evaluationText_json hformat, htrace, huntraced]
    · rw [evaluationText_json (r := r.tracing) hformat]
      exact congrArg (·.print ++ "\n") htraced
  | compact =>
    have hformat' : r.tracing.format = .compact := hformat
    show r.tracing.evaluationText e = r.evaluationText e
    unfold evaluationText printEvaluation
    rw [hformat, hformat']
    rfl

end Reporter

/-! ## Two runs -/

/-- A session prints the same around its evaluations whether it traces tokens or not. -/
theorem Session.exists_around_evaluations (s : Session)
    (hgeneral : ∀ d ∈ s.diagnostics, d.source = none) (version : String) (terminal : Terminal)
    (clock : Clock) :
    let r := s.reporter terminal clock.read.1
    ∃ before after,
      s.output version terminal clock =
        before ++ String.join (s.shown.map r.evaluationText) ++ after ∧
      (s.withTrace true).output version terminal clock =
        before ++ String.join (s.shown.map r.tracing.evaluationText) ++ after :=
  ⟨_, _, s.output_eq_opening_evaluations_closing hgeneral version terminal clock,
    (s.withTrace true).output_eq_opening_evaluations_closing hgeneral version terminal clock⟩

/-- In the compact format a session prints the same whether it traces tokens or not. -/
theorem Session.output_withTrace_of_compact {s : Session} (hcompact : s.settings.format = .compact)
    (htrace : s.settings.trace = false) (hgeneral : ∀ d ∈ s.diagnostics, d.source = none)
    (version : String) (terminal : Terminal) (clock : Clock) :
    (s.withTrace true).output version terminal clock = s.output version terminal clock := by
  let r := s.reporter terminal clock.read.1
  have hformat : r.format = .compact := hcompact
  have hsame : ∀ e, r.tracing.evaluationText e = r.evaluationText e := by
    intro e
    have hadds := Reporter.addsTokens_evaluationText (r := r) htrace e
    unfold Reporter.AddsTokens at hadds
    rwa [hformat] at hadds
  obtain ⟨before, after, houtput, houtput'⟩ :=
    s.exists_around_evaluations hgeneral version terminal clock
  rw [houtput, houtput', List.map_congr_left fun e _ => hsame e]

/-- **Tracing only adds.** A run that is asked to trace tokens fails exactly if it fails anyway, and
with the same error; otherwise its session is the one that it would start anyway, with tokens
traced. If two runs start sessions that differ in nothing but the tracing, both come to their end
with the same exit code, and the same expressions are evaluated. They print the same before the
evaluations and behind them, and of each expression the one that traces prints what the other one
prints and its tokens, if it can be scanned: for people on one more line behind it, for programs as
one more entry at the end of the record, which has no other entry of this name. In the short records
nothing is added. -/
theorem tracing_only_adds :
    (∀ (world : Surroundings) (options : Options) (texts : List String) (error : SessionError),
      (CommandLine.evaluate { options with trace := true } texts).run world = .error error ↔
        (CommandLine.evaluate options texts).run world = .error error) ∧
    (∀ (colored : Bool) (text : String), ∀ line ∈ tokensLine colored text, Lacks '\n' line) ∧
    (∀ (files : FileSystem) (directory : Path) (options : Options) (texts : List String),
      Session.start files directory { options with trace := true } texts =
        (Session.start files directory options texts).map (Session.withTrace true)) ∧
    ∀ (world : Surroundings) (files : FileSystem) (directory : Path) (options options' : Options)
      (texts texts' : List String) (s : Session),
      Session.start world.files world.directory options texts = .ok s →
      Session.start files directory options' texts' = .ok (s.withTrace true) →
      s.settings.trace = false →
      ∃ result result', (CommandLine.evaluate options texts).run world = .ok result ∧
        (CommandLine.evaluate options' texts').run { world with files, directory } = .ok result' ∧
        result'.exitCode = result.exitCode ∧ (s.withTrace true).evaluated = s.evaluated ∧
        (s.settings.format = .compact → result'.output = result.output) ∧
        let r := s.reporter world.terminal world.clock.read.1
        ∃ before after,
          result.output = before ++ String.join (s.shown.map r.evaluationText) ++ after ∧
          result'.output = before ++ String.join (s.shown.map r.tracing.evaluationText) ++ after ∧
          ∀ e ∈ s.shown, r.AddsTokens e (r.evaluationText e) (r.tracing.evaluationText e) := by
  refine ⟨?_, fun colored text line => lacks_newline_of_mem_tokensLine, Session.start_trace, ?_⟩
  · intro world options texts error
    rw [CommandLine.run, CommandLine.run, Session.start_trace]
    cases Session.start world.files world.directory options texts with
    | error e => exact Iff.rfl
    | ok s =>
      refine iff_of_false ?_ ?_
      · rintro ⟨⟩
      · rintro ⟨⟩
  · intro world files directory options options' texts texts' s hstart hstart' htrace
    have hgeneral : ∀ d ∈ s.diagnostics, d.source = none := by
      obtain ⟨l, rfl⟩ := exists_loaded hstart
      exact fun d hd => (l.isGeneral texts hd).source_eq
    obtain ⟨before, after, houtput, houtput'⟩ :=
      s.exists_around_evaluations hgeneral world.version world.terminal world.clock
    refine ⟨_, _, run_of_start hstart, run_of_start hstart', rfl, rfl, ?_, before, after, houtput,
      houtput', ?_⟩
    · intro hcompact
      exact Session.output_withTrace_of_compact hcompact htrace hgeneral world.version
        world.terminal world.clock
    · intro e _
      exact Reporter.addsTokens_evaluationText htrace e

/-- Options that name the file of sums and nothing else. -/
def wholeSumsOptions : Options := { Options.none with files := ["*.txt"] }

/-- What a run with these options loads. -/
def wholeSumsLoaded : Loaded sumsWorld wholeSumsOptions where
  config := ⟨none, []⟩
  settings := ⟨.pretty, .auto, false, false, ["*.txt"], []⟩
  profileDiagnostics := []
  sources := ⟨[⟨"4 - 6", "sums.txt", 3⟩], []⟩
  config_eq := rfl
  settings_eq := rfl
  sources_eq := by cbv

/-- With a sum and a text that cannot be scanned, the run that traces prints the tokens of the sum
behind it, and nothing behind the other text. -/
theorem tracing_only_adds_sums :
    let texts := ["1 + 2", "3 x"]
    let r := (wholeSumsLoaded.session texts).reporter sumsWorld.terminal 0
    ∃ result result', (CommandLine.evaluate wholeSumsOptions texts).run sumsWorld = .ok result ∧
      (CommandLine.evaluate { wholeSumsOptions with trace := true } texts).run sumsWorld =
        .ok result' ∧
      result'.exitCode = result.exitCode ∧
      r.tracing.evaluationText ⟨"1 + 2", "<arg:1>", 1⟩ = r.evaluationText ⟨"1 + 2", "<arg:1>", 1⟩ ++
        linesText ["    ↳ Tokens: [Number(1), Plus, Number(2)]"] ∧
      r.tracing.evaluationText ⟨"3 x", "<arg:2>", 1⟩ = r.evaluationText ⟨"3 x", "<arg:2>", 1⟩ ++
        linesText [] := by
  intro texts r
  have hstart := wholeSumsLoaded.start_eq texts
  have htraced :=
    tracing_only_adds.2.2.1 sumsWorld.files sumsWorld.directory wholeSumsOptions texts
  rw [hstart] at htraced
  obtain ⟨result, result', hrun, hrun', hexit, -, -, before, after, -, -, hadds⟩ :=
    tracing_only_adds.2.2.2 sumsWorld sumsWorld.files sumsWorld.directory wholeSumsOptions _
      texts _ _ hstart
      htraced rfl
  have hshown : (wholeSumsLoaded.session texts).shown =
      [⟨"1 + 2", "<arg:1>", 1⟩, ⟨"3 x", "<arg:2>", 1⟩, ⟨"4 - 6", "sums.txt", 3⟩] := by
    rw [Session.shown_of_failFast_eq_false (by decide) rfl]
    decide +kernel
  have hsum : tokensLine false "1 + 2" = ["    ↳ Tokens: [Number(1), Plus, Number(2)]"] := by
    decide +kernel
  have hrefused : tokensLine false "3 x" = [] := by decide +kernel
  rw [hshown] at hadds
  refine ⟨result, result', hrun, hrun', hexit, ?_, ?_⟩
  · rw [← hsum]
    exact hadds _ List.mem_cons_self
  · rw [← hrefused]
    exact hadds _ (List.mem_cons_of_mem _ List.mem_cons_self)

end LineSum

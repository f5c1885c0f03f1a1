import LineSum.Proofs.Config.Outcome
import LineSum.Proofs.Report.Carets
import LineSum.Proofs.Session.Evaluations

/-!
# Short records and their lines

In the compact format every evaluation and every diagnostic is printed as one short record, which
begins with the name of its file. A record quotes texts as they are: names of files, profiles and
fields, patterns, the words of an error, and the character that is refused. It takes one line
exactly if none of them has a line end, and if it does not show a part of a configuration below its
message.
-/

namespace LineSum

/-! ## Records of diagnostics -/

/-- A short record begins with the name of its file. -/
theorem Diagnostic.file_isPrefix_compactText (d : Diagnostic) :
    d.file.toList <+: d.compactText.toList := by
  have hplace : d.file.toList <+: d.place.toList := by
    unfold place
    split
    · next r _ =>
      show d.file.toList <+: (d.file ++ ":" ++ r.start.line.repr ++ ":" ++ r.start.col.repr).toList
      simp only [String.toList_append, List.append_assoc]
      exact List.prefix_append _ _
    · exact List.prefix_rfl
  have hrecord : d.place.toList <+: d.compactText.toList := by
    show d.place.toList <+:
      (d.place ++ " [" ++ d.code.text ++ "] " ++ d.severity.letter ++ ": " ++ d.message).toList
    simp only [String.toList_append, List.append_assoc]
    exact List.prefix_append _ _
  exact hplace.trans hrecord

/-- In the compact format diagnostics are printed as their short records. -/
theorem Reporter.render_printDiagnostics_compact {r : Reporter} (h : r.format = .compact)
    (ds : List Diagnostic) :
    r.render (r.printDiagnostics ds) = linesText (ds.map Diagnostic.compactText) := by
  have hrecord : ∀ d, r.printDiagnostic d = .done [.plain d.compactText] := by
    intro d
    rw [printDiagnostic, h]
  rw [printDiagnostics_of_plain hrecord, r.render_plains]

/-! ## What is quoted -/

/-- The texts that are quoted of a value that does not conform to a field. -/
def Mismatch.quoted : Mismatch → List String
  | wrongType _ _ => []
  | notAllowed allowed found => allowed ++ [found]
  | item _ _ => []

/-- The texts that are quoted of an entry that is left out. -/
def FieldProblem.quoted : FieldProblem → List String
  | unknown path => [path]
  | reserved path _ => [path]
  | mismatch path reason => path :: reason.quoted
  | notMap path => [path]

namespace Cause

/-- The texts that a diagnostic quotes in its line. -/
def quoted : Cause → List String
  | missingConfig file => [file]
  | unreadableConfig file error => [file, error.message]
  | brokenRule file _ report => [file, report.problem.message]
  | wrongField file _ finding => file :: finding.problem.quoted
  | unknownProfile name file => [name, file]
  | unmatchedPattern pattern => [pattern]
  | unreadableFile file error => [file, error.message]
  | noExpressions => []

/-- The part of a text that a diagnostic shows below its message. -/
def excerpt? : Cause → Option String
  | brokenRule _ text report =>
    let starts := (Yaml.Document.ofText text).starts
    Yaml.excerpt? text starts (starts.range report.span)
  | missingConfig _ | unreadableConfig _ _ | wrongField _ _ _ | unknownProfile _ _
  | unmatchedPattern _
  | unreadableFile _ _ | noExpressions => none

end Cause

section Quoted

variable {c : Char} (hc : c.toNat < 0x20)

include hc

/-- The types of fields and values are named without control characters. -/
theorem lacks_valueType (type : ValueType) : Lacks c type.text := by
  cases type <;> exact lacks_word hc (by decide)

/-- Why a value does not conform is said without other control characters than the path and what is
quoted of the value have. -/
theorem lacks_message_mismatch_iff (path : String) (reason : Mismatch) :
    Lacks c (reason.message path) ↔ Lacks c path ∧ ∀ t ∈ reason.quoted, Lacks c t := by
  have htype : ∀ type : FieldType, Lacks c type.text :=
    fun type => lacks_valueType hc type.valueType
  cases reason with
  | wrongType expected found =>
    show Lacks c ("Field \"" ++ path ++ "\" must be a " ++ expected.text ++ ", got " ++
      found.text ++ ".") ↔ _
    simp (disch := decide) [Mismatch.quoted, htype, lacks_valueType hc, lacks_word hc]
  | notAllowed allowed found =>
    have hallowed : Lacks c (", ".intercalate allowed) ↔ ∀ t ∈ allowed, Lacks c t :=
      lacks_intercalate_iff (lacks_word hc (by decide))
    show Lacks c ("Field \"" ++ path ++ "\" must be one of " ++ ", ".intercalate allowed ++
      (", got \"" ++ found ++ "\".")) ↔ _
    simp (disch := decide) [Mismatch.quoted, hallowed, lacks_word hc, and_assoc, forall_and, or_imp]
  | item index expected =>
    show Lacks c ("Field \"" ++ path ++ "[" ++ index.repr ++ "]\" must be a " ++
      expected.text ++ ".") ↔ _
    simp (disch := decide) [Mismatch.quoted, htype, lacks_nat hc, lacks_word hc]

/-- What is said of an entry that is left out has the control characters of what it
quotes, and no other ones. -/
theorem lacks_message_fieldProblem_iff (problem : FieldProblem) :
    Lacks c problem.message ↔ ∀ t ∈ problem.quoted, Lacks c t := by
  cases problem with
  | unknown path =>
    show Lacks c ("Unknown field \"" ++ path ++ "\".") ↔ _
    simp (disch := decide) [FieldProblem.quoted, lacks_word hc]
  | reserved path found =>
    show Lacks c ("Field \"" ++ path ++ "\" must be a undefined, got " ++ found.text ++ ".") ↔ _
    simp (disch := decide) [FieldProblem.quoted, lacks_valueType hc, lacks_word hc]
  | mismatch path reason =>
    rw [FieldProblem.quoted, List.forall_mem_cons]
    exact lacks_message_mismatch_iff hc path reason
  | notMap path =>
    show Lacks c
      ((if path.isEmpty then "Config" else "\"" ++ path ++ "\"") ++ " must be a map.") ↔ _
    by_cases hempty : path = ""
    · subst hempty
      exact iff_of_true (lacks_word hc (by decide))
        (List.forall_mem_singleton.mpr (lacks_word hc (by decide)))
    · have hpath : ¬ path.isEmpty = true := by rwa [String.isEmpty_iff]
      rw [if_neg hpath]
      simp (disch := decide) [FieldProblem.quoted, lacks_word hc]

end Quoted

/-- A broken rule is reported on one line exactly if it is described on one and no part
of the text is shown. -/
theorem lacks_newline_message_iff (document : Yaml.Document) (text : List Char)
    (report : Yaml.Report) :
    Lacks '\n' (document.message text report) ↔ Lacks '\n' report.problem.message ∧
      Yaml.excerpt? text document.starts (document.starts.range report.span) = none := by
  have hcontrol : ('\n' : Char).toNat < 0x20 := by decide
  unfold Yaml.Document.message
  dsimp only
  generalize document.starts.range report.span = range
  cases Yaml.excerpt? text document.starts range with
  | none =>
    show Lacks _ (report.problem.message ++ " at line " ++ range.start.line.repr ++ ", column " ++
      range.start.col.repr ++ "") ↔ _
    simp (disch := decide) [lacks_int hcontrol, lacks_word hcontrol]
  | some excerpt =>
    -- two line ends stand before the excerpt
    have hends : ¬ Lacks '\n' ":\n\n" := by
      unfold Lacks
      decide
    simp [hends]

/-- A diagnostic is printed on one line exactly if no text that it quotes has a line end and it
shows no part of a configuration below its message. -/
theorem Cause.lacks_newline_iff (cause : Cause) :
    Lacks '\n' cause.diagnostic.compactText ↔
      (∀ t ∈ cause.quoted, Lacks '\n' t) ∧ cause.excerpt? = none := by
  have hcontrol : ('\n' : Char).toNat < 0x20 := by decide
  have hcode : Lacks '\n' cause.diagnostic.code.text :=
    lacks_codeText hcontrol cause.isGeneral.code_ne
  rw [lacks_compactText_iff hcontrol, iff_true_intro hcode, true_and]
  cases cause with
  | missingConfig file =>
    show Lacks _ file ∧ Lacks _ ("Config file not found: " ++ file) ↔ _
    simp (disch := decide) [quoted, excerpt?, lacks_word hcontrol]
  | unreadableConfig file error =>
    show Lacks _ file ∧ Lacks _ ("Failed to read config file " ++ file ++ ": " ++ error.message) ↔ _
    simp (disch := decide) [quoted, excerpt?, lacks_word hcontrol]
  | brokenRule file text report =>
    show Lacks _ file ∧ Lacks _ ((Yaml.Document.ofText text).message text report) ↔ _
    rw [lacks_newline_message_iff]
    simp [quoted, excerpt?, and_assoc]
  | wrongField file starts finding =>
    show Lacks _ file ∧ Lacks _ finding.problem.message ↔ _
    rw [lacks_message_fieldProblem_iff hcontrol]
    simp [quoted, excerpt?]
  | unknownProfile name file =>
    show Lacks _ file ∧ Lacks _ ("Profile \"" ++ name ++ "\" is not defined") ↔ _
    simp (disch := decide) [quoted, excerpt?, lacks_word hcontrol, and_comm]
  | unmatchedPattern pattern =>
    show Lacks _ pattern ∧ Lacks _ ("No files matched \"" ++ pattern ++ "\"") ↔ _
    simp (disch := decide) [quoted, excerpt?, lacks_word hcontrol]
  | unreadableFile file error =>
    show Lacks _ file ∧ Lacks _ ("Failed to read " ++ file ++ ": " ++ error.message) ↔ _
    simp (disch := decide) [quoted, excerpt?, lacks_word hcontrol]
  | noExpressions =>
    refine iff_of_true ⟨?_, ?_⟩ ⟨List.forall_mem_nil _, rfl⟩
    · exact lacks_word hcontrol (by decide)
    · exact lacks_word hcontrol (by decide)

/-! ## Records of evaluations -/

namespace Expression

/-- The short record of an expression: its value, or what is wrong with it. -/
def compactText (e : Expression) : String :=
  match evaluate e.text with
  | .value _ total => s!"{e.file}:{e.line} {e.text} = {total}"
  | .scanFailed error => ((Failure.scan error).diagnostic e).compactText
  | .parseFailed _ error => ((Failure.parse error).diagnostic e).compactText

/-- A short record of an expression begins with the name of its file. -/
theorem file_isPrefix_compactText (e : Expression) : e.file.toList <+: e.compactText.toList := by
  unfold compactText
  split
  · next total _ =>
    show e.file.toList <+: (e.file ++ ":" ++ e.line.repr ++ " " ++ e.text ++ " = " ++
      total.repr).toList
    simp only [String.toList_append, List.append_assoc]
    exact List.prefix_append _ _
  · next error _ => exact ((Failure.scan error).diagnostic e).file_isPrefix_compactText
  · next error _ => exact ((Failure.parse error).diagnostic e).file_isPrefix_compactText

/-- A short record of a failure takes one line exactly if its file and its message do. -/
theorem lacks_newline_failure_iff (e : Expression) (failure : Failure) :
    Lacks '\n' (failure.diagnostic e).compactText ↔
      Lacks '\n' e.file ∧ Lacks '\n' failure.message := by
  have hcode : Lacks '\n' failure.code.text := lacks_codeText (by decide) failure.code_ne_named
  rw [lacks_compactText_iff (by decide)]
  show Lacks _ e.file ∧ Lacks _ failure.code.text ∧ Lacks _ failure.message ↔ _
  rw [iff_true_intro hcode, true_and]

/-- A short record of an expression takes one line exactly if the name of the file has no line end
and scanning is not ended by one. -/
theorem lacks_newline_compactText_iff (e : Expression) :
    Lacks '\n' e.compactText ↔
      Lacks '\n' e.file ∧ ∀ position, scan e.text ≠ .error ⟨'\n', position⟩ := by
  have hcontrol : ('\n' : Char).toNat < 0x20 := by decide
  unfold compactText
  cases heval : evaluate e.text with
  | value tokens total =>
    obtain ⟨hlexes, -⟩ := evaluate_eq_value_iff.mp heval
    have hscan := scan_eq_ok_iff.mpr hlexes
    -- a text that can be scanned is made of digits, signs and spaces
    have htext : Lacks '\n' e.text := fun hmem => absurd (hlexes.legal _ hmem) (by decide)
    show Lacks _ (e.file ++ ":" ++ e.line.repr ++ " " ++ e.text ++ " = " ++ total.repr) ↔ _
    rw [hscan]
    simp (disch := decide) [htext, lacks_int hcontrol, lacks_word hcontrol]
  | scanFailed error =>
    have hscan := evaluate_eq_scanFailed_iff.mp heval
    dsimp only
    rw [lacks_newline_failure_iff, lacks_message_scan_iff hcontrol, hscan]
    apply and_congr_right'
    obtain ⟨character, place⟩ := error
    constructor
    · rintro hne position ⟨⟩
      exact hne rfl
    · rintro hne rfl
      exact hne place rfl
  | parseFailed tokens error =>
    obtain ⟨hlexes, -⟩ := evaluate_eq_parseFailed_iff.mp heval
    have hscan := scan_eq_ok_iff.mpr hlexes
    have hmessage : Lacks '\n' (Failure.parse error).message := lacks_message_parse hcontrol error
    dsimp only
    rw [lacks_newline_failure_iff, hscan]
    simp [hmessage]

/-- The arguments of a command line are named without line ends. -/
theorem lacks_newline_file_of_mem_ofArguments {texts : List String} {e : Expression}
    (h : e ∈ ofArguments texts) : Lacks '\n' e.file := by
  obtain ⟨⟨text, i⟩, -, rfl⟩ := List.mem_map.mp h
  have hcontrol : ('\n' : Char).toNat < 0x20 := by decide
  show Lacks _ ("<arg:" ++ (i + 1).repr ++ ">")
  simp (disch := decide) [lacks_nat hcontrol, lacks_word hcontrol]

/-- Scanning a line of a file is not ended by a line end. -/
theorem scan_ne_newline_of_mem_ofFile {content file : String} {e : Expression}
    (h : e ∈ ofFile content file) (position : Nat) : scan e.text ≠ .error ⟨'\n', position⟩ := by
  intro hscan
  exact (text_of_mem_ofFile h).1 (mem_of_scan_eq_error hscan)

end Expression

/-- In the compact format an evaluation is printed as its short record. -/
theorem Reporter.evaluationText_compact {r : Reporter} (h : r.format = .compact) (e : Expression) :
    r.evaluationText e = e.compactText ++ "\n" := by
  have hrecord : r.printEvaluation e (evaluate e.text) = .done [.plain e.compactText] := by
    unfold printEvaluation Expression.compactText
    rw [h]
    cases evaluate e.text <;> rfl
  rw [evaluationText, hrecord, r.render_plain]

/-! ## One line for a record -/

/-- The lists of diagnostics that come from loading a configuration, from looking for a profile and
from loading expressions. -/
inductive Produced : List Diagnostic → Prop
  | config {files : FileSystem} {directory : Path} {name : Option String} {loaded : LoadedConfig}
    (h : loadConfig files directory name = .ok loaded) : Produced loaded.diagnostics
  | profile (config : Option Config) (profile : Option String) (overrides : Fields)
    (configFile : String) :
    Produced (resolveSettings config profile overrides configFile).2
  | sources {files : FileSystem} {directory : Path} {ignore patterns : List String}
    {loaded : LoadedExpressions}
    (h : loadExpressions files directory ignore patterns = .ok loaded) : Produced loaded.diagnostics

/-- Diagnostics that are produced have their causes. -/
theorem Produced.hasCause {ds : List Diagnostic} (h : Produced ds) {d : Diagnostic} (hd : d ∈ ds) :
    d.HasCause := by
  cases h with
  | config h => exact hasCause_of_loadConfig h hd
  | profile config profile overrides configFile => exact hasCause_of_resolveSettings hd
  | sources h => exact hasCause_of_loadExpressions h hd

/-- **A short record takes one line unless it quotes a line end.** In the compact format an
evaluation is printed as a record that begins with the name of its file, and takes one line exactly
if this name has no line end and scanning is not ended by one. The names of arguments have no line
ends, and scanning a line of a file is never ended by one. The diagnostics that come from a
configuration, a profile or the sources of expressions are printed as a record for each of them,
which begins with the name of its file. Such a record takes one line exactly if no text that it
quotes has a line end and no part of a configuration is shown below its message. -/
theorem compact_record_lines {r : Reporter} (hcompact : r.format = .compact) :
    (∀ e : Expression, ∃ record, r.evaluationText e = record ++ "\n" ∧
      e.file.toList <+: record.toList ∧
      (Lacks '\n' record ↔ Lacks '\n' e.file ∧ ∀ position, scan e.text ≠ .error ⟨'\n', position⟩)) ∧
    (∀ texts, ∀ e ∈ Expression.ofArguments texts, Lacks '\n' e.file) ∧
    (∀ content file, ∀ e ∈ Expression.ofFile content file, e.file = file ∧
      ∀ position, scan e.text ≠ .error ⟨'\n', position⟩) ∧
    ∀ ds, Produced ds →
      r.render (r.printDiagnostics ds) = linesText (ds.map Diagnostic.compactText) ∧
      ∀ d ∈ ds, d.file.toList <+: d.compactText.toList ∧ ∃ cause : Cause, d = cause.diagnostic ∧
        (Lacks '\n' d.compactText ↔
          (∀ t ∈ cause.quoted, Lacks '\n' t) ∧ cause.excerpt? = none) := by
  refine ⟨?_, ?_, ?_, ?_⟩
  · intro e
    exact ⟨e.compactText, r.evaluationText_compact hcompact e, e.file_isPrefix_compactText,
      e.lacks_newline_compactText_iff⟩
  · intro texts e he
    exact Expression.lacks_newline_file_of_mem_ofArguments he
  · intro content file e he
    exact ⟨file_of_mem_ofFile he, Expression.scan_ne_newline_of_mem_ofFile he⟩
  · intro ds hds
    refine ⟨r.render_printDiagnostics_compact hcompact ds, ?_⟩
    intro d hd
    obtain ⟨cause, rfl⟩ := hds.hasCause hd
    exact ⟨cause.diagnostic.file_isPrefix_compactText, cause, rfl, cause.lacks_newline_iff⟩

/-- A sum of a file and a profile that is not defined are printed on one line each. -/
theorem compact_record_lines_profile :
    let r : Reporter := ⟨.compact, false, false, 0⟩
    let ds := (resolveSettings none (some "ci") .empty "cfg.yml").2
    (r.format = .compact ∧ Produced ds) ∧
    (∃ record, r.evaluationText ⟨"1 + 2", "sums.txt", 3⟩ = record ++ "\n" ∧ Lacks '\n' record) ∧
    r.render (r.printDiagnostics ds) =
      linesText ["cfg.yml [CONFIG_UNKNOWN_PROFILE] E: Profile \"ci\" is not defined"] := by
  intro r ds
  have hproduced : Produced ds := .profile none (some "ci") .empty "cfg.yml"
  obtain ⟨hevaluations, -, hlines, hdiagnostics⟩ := compact_record_lines (r := r) rfl
  obtain ⟨record, hrecord, -, hone⟩ := hevaluations ⟨"1 + 2", "sums.txt", 3⟩
  have hline := hlines "# sums\n\n1 + 2" "sums.txt" ⟨"1 + 2", "sums.txt", 3⟩ (by decide +kernel)
  have hfile : Lacks '\n' "sums.txt" := lacks_word (by decide) (by decide)
  exact ⟨⟨rfl, hproduced⟩, ⟨record, hrecord, hone.mpr ⟨hfile, hline.2⟩⟩,
    (hdiagnostics ds hproduced).1⟩

/-- Files each of which holds a single bracket. -/
def bracketFiles : FileSystem :=
  ⟨fun _ => true, fun _ => .ok "]", fun _ _ => .ok [], usualCapacity⟩

/-- The lexemes of a single bracket. -/
theorem lexemes_bracket : Yaml.Lexeme.ofText (configChars "]") = [.documentMark, .text [']']] := by
  cbv

/-- A line end among the arguments is quoted, and so takes its record a second line; and a
configuration that breaks a rule of YAML is shown below the message. -/
theorem line_ends_in_short_records :
    let r : Reporter := ⟨.compact, false, false, 0⟩
    let e : Expression := ⟨"1\n2", "<arg:1>", 1⟩
    (e ∈ Expression.ofArguments ["1\n2"] ∧ r.evaluationText e = linesText
      ["<arg:1>:1:2 [INVALID_CHARACTER] E: Input contained an invalid character at 1: '", "'"]) ∧
    ∃ d, Produced [d] ∧ r.render (r.printDiagnostics [d]) = linesText
      ["cfg.yml:1:1 [CONFIG_SYNTAX_ERROR] E: Unexpected flow-seq-end token in YAML document: " ++
        "\"]\" at line 1, column 1:", "", "]", "^", ""] := by
  intro r e
  refine ⟨by decide +kernel, ?_⟩
  have hobserved : (loadConfig bracketFiles ⟨[]⟩ (some "cfg.yml")).toOption.map (fun loaded =>
      (loaded.diagnostics.length, r.render (r.printDiagnostics loaded.diagnostics))) =
      some (1, linesText
        ["cfg.yml:1:1 [CONFIG_SYNTAX_ERROR] E: Unexpected flow-seq-end token in YAML document: " ++
          "\"]\" at line 1, column 1:", "", "]", "^", ""]) := by
    show (readConfig "]" _).toOption.map _ = _
    unfold readConfig Yaml.Document.ofText Yaml.Nest.ofText
    dsimp only
    rw [lexemes_bracket]
    decide +kernel
  obtain ⟨loaded, hloaded, hprinted⟩ := Option.map_eq_some_iff.mp hobserved
  obtain ⟨hlength, hrender⟩ := Prod.mk.inj hprinted
  obtain ⟨d, hd⟩ := List.length_eq_one_iff.mp hlength
  rw [hd] at hrender
  refine ⟨d, ?_, hrender⟩
  rw [← hd]
  exact .config (eq_ok_of_toOption hloaded)

end LineSum

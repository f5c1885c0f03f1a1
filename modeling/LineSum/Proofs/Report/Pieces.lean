import LineSum.Proofs.Json.RoundTrip
import LineSum.Proofs.Report.Printing
import LineSum.Proofs.Report.Records

/-!
# What printed lines are made of

What a reporter prints is put together from the texts that a request is given, from numbers, and
from words of its own. None of these words and no number has a control character, so a control
character in a printed line comes from one of the given texts.
-/

namespace LineSum

/-! ## Texts without a character -/

/-- A character does not occur in a text. -/
def Lacks (c : Char) (text : String) : Prop :=
  c ∉ text.toList

section Lacks

variable {c : Char}

/-- A text lacks a character if its two parts lack it. -/
@[simp] theorem lacks_append_iff {a b : String} : Lacks c (a ++ b) ↔ Lacks c a ∧ Lacks c b := by
  unfold Lacks
  rw [String.toList_append, List.mem_append, not_or]

/-- A text that stands in another one is put there as it is. -/
@[simp] theorem lacks_toString_iff {text : String} : Lacks c (toString text) ↔ Lacks c text :=
  Iff.rfl

/-- A text of one character lacks every other one. -/
theorem lacks_toString_char_iff {x : Char} : Lacks c x.toString ↔ c ≠ x := by
  unfold Lacks
  rw [Char.toString_eq_singleton, String.toList_singleton, List.mem_singleton]

/-- Texts that are put together lack a character if each of them does. -/
theorem lacks_join_iff {texts : List String} :
    Lacks c (String.join texts) ↔ ∀ t ∈ texts, Lacks c t := by
  induction texts with
  | nil => simp [Lacks]
  | cons t texts ih => rw [String.join_cons, lacks_append_iff, ih, List.forall_mem_cons]

/-- Texts that are joined by a text that lacks a character lack it if each of them does. -/
theorem lacks_intercalate_iff {separator : String} (hseparator : Lacks c separator)
    {texts : List String} : Lacks c (separator.intercalate texts) ↔ ∀ t ∈ texts, Lacks c t := by
  induction texts with
  | nil => simp [Lacks]
  | cons t texts ih =>
    cases texts with
    | nil => simp
    | cons u texts =>
      rw [String.intercalate_cons_cons, lacks_append_iff, lacks_append_iff, ih,
        List.forall_mem_cons]
      simp [hseparator]

variable (hc : c.toNat < 0x20)

include hc

/-- A text without control characters lacks each of them. -/
theorem lacks_of_hasNoControl {text : String} (h : JsonTree.HasNoControl text.toList) :
    Lacks c text := by
  intro hmem
  have hgreat := h c hmem
  omega

/-- Whether a word lacks the control characters can be looked up. -/
theorem lacks_word {word : String} (h : word.toList.all (0x20 ≤ ·.toNat) = true) : Lacks c word :=
  lacks_of_hasNoControl hc (JsonTree.hasNoControl_of_all h)

/-- An integer is written without control characters. -/
theorem lacks_int (z : Int) : Lacks c z.repr :=
  lacks_of_hasNoControl hc (JsonTree.hasNoControl_toString_int z)

/-- A number is written without control characters. -/
theorem lacks_nat (n : Nat) : Lacks c n.repr :=
  lacks_int hc n

/-- A repeated character is the only one of its text. -/
theorem lacks_replicate (n : Nat) {x : Char} (hx : 0x20 ≤ x.toNat) :
    Lacks c (String.ofList (List.replicate n x)) := by
  intro hmem
  rw [String.toList_ofList] at hmem
  rw [List.eq_of_mem_replicate hmem] at hc
  omega

/-- A record is written without control characters. -/
theorem lacks_print (tree : JsonTree) : Lacks c tree.print :=
  lacks_of_hasNoControl hc (JsonTree.hasNoControl_print tree)

end Lacks

/-! ## Codes -/

/-- The code that switches a style on begins with the character that begins every code. -/
theorem Style.exists_start_eq_cons (style : Style) : ∃ rest, style.start = escape :: rest := by
  cases style <;> exact ⟨_, rfl⟩

/-- A text in a style begins with a code. -/
theorem Style.exists_paint_eq_cons (style : Style) {text : List Char} (h : text ≠ []) :
    ∃ rest, style.paint text = escape :: rest := by
  obtain ⟨rest, hstart⟩ := style.exists_start_eq_cons
  have hempty : ¬ text.isEmpty = true := by rwa [List.isEmpty_iff]
  unfold paint
  rw [if_neg hempty, hstart]
  exact ⟨_, rfl⟩

/-- With colours a piece that has a style and a text begins with a code. -/
theorem Piece.exists_render_eq_cons (style : Style) {text : String} (h : text ≠ "") :
    ∃ rest, (styled style text).render true = Style.escape :: rest := by
  apply style.exists_paint_eq_cons
  rwa [ne_eq, String.toList_eq_nil_iff]

/-- A text behind the margin of a context is not empty. -/
theorem contextMargin_append_ne_empty (text : String) : contextMargin ++ text ≠ "" := by
  intro hempty
  have hlength := congrArg String.length hempty
  rw [String.length_append] at hlength
  exact absurd (Nat.eq_zero_of_add_eq_zero_right hlength) (by decide)

/-! ## The texts of a request -/

/-- The texts of a diagnostic. -/
def Diagnostic.texts (d : Diagnostic) : List String :=
  [d.code.text, d.message, d.file] ++ d.source.toList

/-- The texts of an evaluation: a character that is refused is shown. -/
def Evaluation.texts : Evaluation → List String
  | scanFailed error => [error.character.toString]
  | _ => []

/-- The texts that a request is given. -/
def Call.texts : Call → List String
  | banner version _ => [version]
  | evaluation e result => [e.text, e.file] ++ result.texts
  | trace tokens => [tokens]
  | diagnostics list => list.flatMap Diagnostic.texts
  | info text => [text]
  | summary _ | success => []

/-! ## Words of the reports -/

section Words

variable {c : Char} (hc : c.toNat < 0x20)

include hc

/-- A token is shown without control characters. -/
theorem lacks_token (t : Token) : Lacks c t.text := by
  cases t with
  | number value =>
    show Lacks c ("Number(" ++ value.repr ++ ")")
    simp (disch := decide) [lacks_int hc, lacks_word hc]
  | plus => exact lacks_word hc (by decide)
  | minus => exact lacks_word hc (by decide)

/-- A row of tokens is shown without control characters. -/
theorem lacks_rowText (tokens : List Token) : Lacks c (Token.rowText tokens) := by
  have hrow : Lacks c (", ".intercalate (tokens.map Token.text)) := by
    apply (lacks_intercalate_iff (lacks_word hc (by decide))).mpr
    intro t ht
    obtain ⟨token, -, rfl⟩ := List.mem_map.mp ht
    exact lacks_token hc token
  show Lacks c ("[" ++ ", ".intercalate (tokens.map Token.text) ++ "]")
  simp (disch := decide) [hrow, lacks_word hc]

/-- The place of a diagnostic lacks a control character if the name of its file does. -/
theorem lacks_place_iff {d : Diagnostic} : Lacks c d.place ↔ Lacks c d.file := by
  unfold Diagnostic.place
  split
  · next r _ =>
    show Lacks c (d.file ++ ":" ++ r.start.line.repr ++ ":" ++ r.start.col.repr) ↔ _
    simp (disch := decide) [lacks_int hc, lacks_word hc]
  · exact Iff.rfl

/-- A kind of diagnostics that has a name of its own is named without control characters. -/
theorem lacks_codeText {code : Code} (h : ∀ name, code ≠ .named name) : Lacks c code.text := by
  cases code with
  | named name => exact absurd rfl (h name)
  | invalidCharacter | unexpectedEndOfInput | invalidToken | configSyntaxError
  | configInvalidField | configUnknownProfile | fileReadError | noExpressions =>
    exact lacks_word hc (by decide)

/-- What is said of a character that is refused shows this character. -/
theorem lacks_message_scan_iff {error : InvalidCharacter Char} :
    Lacks c (Failure.scan error).message ↔ c ≠ error.character := by
  show Lacks c ("Input contained an invalid character at " ++ (error.position : Int).repr ++
    ": '" ++ error.character.toString ++ "'") ↔ _
  simp (disch := decide) only [lacks_append_iff, lacks_toString_char_iff, lacks_int hc,
    lacks_word hc, true_and, and_true]

/-- What is said of tokens that are no sum has no control characters. -/
theorem lacks_message_parse (error : ParseError) : Lacks c (Failure.parse error).message := by
  cases error with
  | unexpectedEnd => exact lacks_word hc (by decide)
  | invalidToken token =>
    show Lacks c ("Invalid token during parsing: " ++ token.text)
    simp (disch := decide) [lacks_token hc, lacks_word hc]

/-- The failure of an expression is reported without other control characters than the text and the
file of the expression and the character that is refused have. -/
theorem lacks_texts_failure {e : Expression} {result : Evaluation} {failure : Failure}
    (hfailure : result.failure? = some failure)
    (h : ∀ t ∈ (Call.evaluation e result).texts, Lacks c t) :
    ∀ t ∈ (failure.diagnostic e).texts, Lacks c t := by
  have htext : Lacks c e.text := h _ (by simp [Call.texts])
  have hfile : Lacks c e.file := h _ (by simp [Call.texts])
  have hcode : Lacks c failure.code.text := lacks_codeText hc failure.code_ne_named
  have hmessage : Lacks c failure.message := by
    cases result with
    | value tokens total => cases hfailure
    | scanFailed error =>
      cases hfailure
      have hrefused : Lacks c error.character.toString :=
        h _ (by simp [Call.texts, Evaluation.texts])
      exact (lacks_message_scan_iff hc).mpr (lacks_toString_char_iff.mp hrefused)
    | parseFailed tokens error =>
      cases hfailure
      exact lacks_message_parse hc error
  intro t ht
  simp only [Diagnostic.texts, Failure.diagnostic, List.cons_append, List.nil_append,
    Option.toList_some, List.mem_cons, List.not_mem_nil, or_false] at ht
  rcases ht with rfl | rfl | rfl | rfl
  · exact hcode
  · exact hmessage
  · exact hfile
  · exact htext

/-- A number with zeros in front of it has no control characters. -/
theorem lacks_paddedNumber (width n : Nat) : Lacks c (paddedNumber width n) := by
  have hzeros : Lacks c (String.ofList (List.replicate (width - n.repr.length) '0')) :=
    lacks_replicate hc _ (by decide)
  show Lacks c (String.ofList _ ++ n.repr)
  exact lacks_append_iff.mpr ⟨hzeros, lacks_nat hc n⟩

/-- A moment is shown without control characters. -/
theorem lacks_momentText (moment : Int) : Lacks c (momentText moment) := by
  unfold momentText twoDigits
  split
  · exact lacks_word hc (by decide)
  · have hhalf : Lacks c (if (DayTime.ofMoment moment).hour < 12 then "AM" else "PM") := by
      split <;> exact lacks_word hc (by decide)
    simp (disch := decide) [hhalf, lacks_paddedNumber hc, lacks_int hc, lacks_word hc]

/-- Seconds are shown without control characters. -/
theorem lacks_secondsText (milliseconds : Int) : Lacks c (secondsText milliseconds) := by
  unfold secondsText
  split
  · next negative mantissa exponent _ =>
    have hsign : Lacks c (if negative then "-" else "") := by
      split <;> exact lacks_word hc (by decide)
    have hhundredths : ∀ n, Lacks c (hundredthsText n) := by
      intro n
      unfold hundredthsText
      split <;> simp (disch := decide) [lacks_nat hc, lacks_word hc]
    simp [hsign, hhundredths]
  · exact lacks_word hc (by decide)

end Words

/-! ## Lines -/

/-- Every piece of the lines has a property. -/
def EachPiece (p : Piece → Prop) (lines : List Line) : Prop :=
  ∀ line ∈ lines, ∀ piece ∈ line, p piece

section EachPiece

variable {p : Piece → Prop}

/-- Where there are no lines there is nothing to show. -/
theorem eachPiece_nil : EachPiece p [] :=
  List.forall_mem_nil _

/-- The pieces of lines are those of the first one and those of the others. -/
theorem eachPiece_cons_iff {line : Line} {lines : List Line} :
    EachPiece p (line :: lines) ↔ (∀ piece ∈ line, p piece) ∧ EachPiece p lines :=
  List.forall_mem_cons

/-- The pieces of lines are those of the first ones and those of the others. -/
theorem eachPiece_append_iff {a b : List Line} :
    EachPiece p (a ++ b) ↔ EachPiece p a ∧ EachPiece p b :=
  List.forall_mem_append

/-- A line may have a single piece. -/
theorem eachPiece_singleton_iff {piece : Piece} : EachPiece p [[piece]] ↔ p piece := by
  simp [EachPiece]

/-- What is printed first and next has the pieces of both parts at most. -/
theorem eachPiece_andThen {first second : Printed} (hfirst : EachPiece p first.lines)
    (hsecond : EachPiece p second.lines) : EachPiece p (first.andThen second).lines := by
  unfold Printed.andThen
  split
  · exact eachPiece_append_iff.mpr ⟨hfirst, hsecond⟩
  · exact hfirst

/-- What is printed part by part has the pieces of the parts at most. -/
theorem eachPiece_all {parts : List Printed} (h : ∀ part ∈ parts, EachPiece p part.lines) :
    EachPiece p (Printed.all parts).lines := by
  induction parts with
  | nil => exact eachPiece_nil
  | cons part parts ih =>
    rw [List.forall_mem_cons] at h
    exact eachPiece_andThen h.1 (ih h.2)

end EachPiece

/-- A character occurs in no piece of the lines. -/
abbrev LinesLack (c : Char) : List Line → Prop :=
  EachPiece fun piece => Lacks c piece.text

section Lines

variable {c : Char}

variable (hc : c.toNat < 0x20)

include hc

/-- The head of a diagnostic lacks the control characters that its texts lack. -/
theorem lacks_header {d : Diagnostic} (h : ∀ t ∈ d.texts, Lacks c t) :
    ∀ piece ∈ d.header, Lacks c piece.text := by
  have hcode : Lacks c d.code.text := h _ (by simp [Diagnostic.texts])
  have hmessage : Lacks c d.message := h _ (by simp [Diagnostic.texts])
  have hplace : Lacks c d.place := (lacks_place_iff hc).mpr (h _ (by simp [Diagnostic.texts]))
  have hicon : Lacks c d.severity.icon := by cases d.severity <;> exact lacks_word hc (by decide)
  have hlabel : Lacks c d.severity.label := by cases d.severity <;> exact lacks_word hc (by decide)
  simp (disch := decide) [Diagnostic.header, Piece.plain, Piece.styled, hcode, hmessage, hplace,
    hicon, hlabel, lacks_word hc]

/-- A short record of a diagnostic lacks a control character if its file, its
kind and its message do. -/
theorem lacks_compactText_iff {d : Diagnostic} :
    Lacks c d.compactText ↔ Lacks c d.file ∧ Lacks c d.code.text ∧ Lacks c d.message := by
  have hletter : Lacks c d.severity.letter := by
    cases d.severity <;> exact lacks_word hc (by decide)
  show Lacks c
    (d.place ++ " [" ++ d.code.text ++ "] " ++ d.severity.letter ++ ": " ++ d.message) ↔ _
  simp (disch := decide) [hletter, lacks_place_iff hc, lacks_word hc, and_assoc]

/-- A short record of a diagnostic lacks the control characters that its texts lack. -/
theorem lacks_compactText {d : Diagnostic} (h : ∀ t ∈ d.texts, Lacks c t) :
    Lacks c d.compactText := by
  apply (lacks_compactText_iff hc).mpr
  refine ⟨h _ ?_, h _ ?_, h _ ?_⟩ <;> simp [Diagnostic.texts]

/-- A line of context lacks the control characters that its text lacks. -/
theorem linesLack_contextLine {text : String} (h : Lacks c text) :
    LinesLack c [contextLine text] := by
  have hmargin : Lacks c contextMargin := lacks_word hc (by decide)
  exact eachPiece_singleton_iff.mpr (lacks_append_iff.mpr ⟨hmargin, h⟩)

/-- A marker has no control characters. -/
theorem linesLack_marker {d : Diagnostic} {range : Range} {line : Line}
    (h : d.marker range = .ok line) : LinesLack c [line] := by
  unfold Diagnostic.marker at h
  dsimp only at h
  split at h
  · cases h
  · cases h
    refine eachPiece_cons_iff.mpr ⟨List.forall_mem_cons.mpr ⟨?_, ?_⟩, eachPiece_nil⟩
    · exact lacks_replicate hc _ (by decide)
    · intro piece hpiece
      rw [List.mem_singleton.mp hpiece]
      exact lacks_replicate hc _ (by decide)

namespace Reporter

variable (r : Reporter)

/-- The line of a record has no control characters. -/
theorem linesLack_recordLine (tree : JsonTree) : LinesLack c [recordLine tree] :=
  eachPiece_singleton_iff.mpr (lacks_print hc tree)

/-- A diagnostic is printed without the control characters that its texts lack. -/
theorem linesLack_printDiagnostic {d : Diagnostic} (h : ∀ t ∈ d.texts, Lacks c t) :
    LinesLack c (r.printDiagnostic d).lines := by
  have hheader : LinesLack c [d.header] := eachPiece_cons_iff.mpr ⟨lacks_header hc h, eachPiece_nil⟩
  have hsource : ∀ source, d.source = some source → LinesLack c [d.header, contextLine source] := by
    intro source hsome
    have hcontext := linesLack_contextLine hc (h source (by simp [Diagnostic.texts, hsome]))
    exact eachPiece_append_iff.mpr ⟨hheader, hcontext⟩
  unfold printDiagnostic
  cases r.format with
  | json => exact linesLack_recordLine hc d.record
  | compact => exact eachPiece_singleton_iff.mpr (lacks_compactText hc h)
  | pretty | plain =>
    dsimp only
    split
    · exact hheader
    · next source hsome _ => exact hsource source hsome
    · next source range hsome _ =>
      split
      · next marker hmarker =>
        exact eachPiece_append_iff.mpr ⟨hsource source hsome, linesLack_marker hc hmarker⟩
      · exact hsource source hsome

/-- An evaluation is printed without the control characters that its texts lack. -/
theorem linesLack_printEvaluation {e : Expression} {result : Evaluation}
    (h : ∀ t ∈ (Call.evaluation e result).texts, Lacks c t) :
    LinesLack c (r.printEvaluation e result).lines := by
  have htext : Lacks c e.text := h _ (by simp [Call.texts])
  have hfile : Lacks c e.file := h _ (by simp [Call.texts])
  unfold printEvaluation
  cases r.format with
  | json => exact linesLack_recordLine hc _
  | compact =>
    cases result with
    | value tokens value =>
      refine eachPiece_singleton_iff.mpr ?_
      show Lacks c (e.file ++ ":" ++ e.line.repr ++ " " ++ e.text ++ " = " ++ value.repr)
      simp (disch := decide) [hfile, htext, lacks_int hc, lacks_word hc]
    | scanFailed error =>
      exact eachPiece_singleton_iff.mpr (lacks_compactText hc (lacks_texts_failure hc rfl h))
    | parseFailed tokens error =>
      exact eachPiece_singleton_iff.mpr (lacks_compactText hc (lacks_texts_failure hc rfl h))
  | pretty | plain =>
    have houtcome : LinesLack c (r.outcomeLines e result).lines := by
      cases result with
      | value tokens value =>
        refine eachPiece_cons_iff.mpr ⟨?_, eachPiece_nil⟩
        simp (disch := decide) [valueLine, Piece.plain, Piece.styled, htext, lacks_int hc,
          lacks_word hc]
      | scanFailed error => exact r.linesLack_printDiagnostic hc (lacks_texts_failure hc rfl h)
      | parseFailed tokens error =>
        exact r.linesLack_printDiagnostic hc (lacks_texts_failure hc rfl h)
    dsimp only
    split
    · next tokens _ _ =>
      refine eachPiece_andThen houtcome (linesLack_contextLine hc ?_)
      show Lacks c ("Tokens: " ++ Token.rowText tokens)
      simp (disch := decide) [lacks_rowText hc, lacks_word hc]
    · exact houtcome

/-- A banner is printed without the control characters that the version lacks. -/
theorem linesLack_printBanner {version : String} (h : Lacks c version) (count : Nat) (now : Int) :
    LinesLack c (r.printBanner version count now).lines := by
  unfold printBanner
  split
  · exact eachPiece_nil
  · have hplural : Lacks c (if count = 1 then "" else "s") := by
      split <;> exact lacks_word hc (by decide)
    have hmoment := lacks_momentText hc now
    have hrule : Lacks c bannerRule := lacks_word hc (by decide +kernel)
    refine eachPiece_cons_iff.mpr ⟨?_, eachPiece_cons_iff.mpr ⟨?_,
      eachPiece_cons_iff.mpr ⟨List.forall_mem_nil _, eachPiece_nil⟩⟩⟩
    · simp (disch := decide) [Piece.styled, h, hplural, hmoment, lacks_nat hc, lacks_word hc]
    · simp [Piece.styled, hrule]

/-- A summary is printed without control characters. -/
theorem linesLack_printSummary (s : Summary) (now : Int) :
    LinesLack c (r.printSummary s now).lines := by
  have helapsed := lacks_secondsText hc (now - r.started)
  have hrule : Lacks c summaryRule := lacks_word hc (by decide +kernel)
  unfold printSummary
  cases r.format with
  | json => exact linesLack_recordLine hc _
  | compact =>
    refine eachPiece_singleton_iff.mpr ?_
    simp (disch := decide) [Piece.plain, helapsed, lacks_nat hc, lacks_word hc]
  | pretty | plain =>
    dsimp only [Printed.done]
    refine eachPiece_append_iff.mpr ⟨eachPiece_append_iff.mpr ⟨?_, ?_⟩, ?_⟩
    · simp (disch := decide) [eachPiece_cons_iff, eachPiece_nil, Piece.plain, Piece.styled,
        Line.blank, hrule, lacks_nat hc, lacks_word hc]
    · split
      · simp (disch := decide) [eachPiece_cons_iff, eachPiece_nil, Piece.plain, Piece.styled,
          Line.blank, lacks_nat hc, lacks_word hc]
      · exact eachPiece_nil
    · simp (disch := decide) [eachPiece_cons_iff, eachPiece_nil, Piece.styled, helapsed,
        lacks_nat hc, lacks_word hc]

/-- **Control characters are given, not made.** A control character that the texts of a request lack
is in no piece of what the request prints. -/
theorem linesLack_perform (clock : Clock) {call : Call} (h : ∀ t ∈ call.texts, Lacks c t) :
    LinesLack c (r.perform clock call).1.lines := by
  cases call with
  | banner version count =>
    have hbanner := r.linesLack_printBanner hc (h version (List.mem_singleton_self _)) count
    unfold perform
    dsimp only
    split
    · exact eachPiece_nil
    · exact hbanner _
  | evaluation e result => exact r.linesLack_printEvaluation hc h
  | trace tokens =>
    refine linesLack_contextLine hc ?_
    show Lacks c ("Tokens: " ++ tokens)
    have htokens := h tokens (List.mem_singleton_self _)
    simp (disch := decide) [htokens, lacks_word hc]
  | diagnostics list =>
    refine eachPiece_all ?_
    intro p hp
    obtain ⟨d, hd, rfl⟩ := List.mem_map.mp hp
    exact r.linesLack_printDiagnostic hc fun t ht => h t (List.mem_flatMap.mpr ⟨d, hd, ht⟩)
  | summary s => exact r.linesLack_printSummary hc s _
  | success =>
    show LinesLack c r.printSuccess.lines
    unfold printSuccess
    split
    · exact eachPiece_nil
    · simp (disch := decide) [Printed.done, eachPiece_cons_iff, eachPiece_nil, Piece.plain,
        Piece.styled, Line.blank, lacks_word hc]
  | info text =>
    show LinesLack c (r.printInfo text).lines
    unfold printInfo
    split
    · exact eachPiece_nil
    · exact eachPiece_singleton_iff.mpr (h text (List.mem_singleton_self _))

end Reporter

end Lines

end LineSum

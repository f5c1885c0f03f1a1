import LineSum.Proofs.Source.Cuts
import LineSum.Proofs.Source.Location

/-!
# Line ends

A file may end each of its lines with a newline or with a carriage return and a newline, line by
line as it likes. What is read depends on the texts of the lines alone. A byte order mark in front
makes no difference either, unless the first line begins with such a mark of its own.
-/

namespace LineSum

/-! ## Files as they are written -/

/-- What ends a line. -/
inductive LineEnd where
  | newline
  | returnAndNewline
  deriving DecidableEq, Repr

/-- What stands before the newline that ends a line. -/
def LineEnd.beforeNewline : LineEnd → List Char
  | newline => []
  | returnAndNewline => ['\r']

/-- The text of a line: no newline is in it, and no carriage return ends it. -/
structure LineText where
  chars : List Char
  newline_notMem : '\n' ∉ chars
  not_returned : chars.getLast? ≠ some '\r'

/-- A file, line by line: there may be a byte order mark in front, each line has an end of
its own, and behind the last end there is a text which may be empty, and which may have a
carriage return behind it. -/
structure WrittenFile where
  marked : Bool
  ended : List (LineText × LineEnd)
  last : LineText
  returned : Bool

namespace WrittenFile

/-- The texts of the lines. -/
def texts (f : WrittenFile) : List LineText :=
  f.ended.map Prod.fst ++ [f.last]

/-- The lines with the carriage returns behind them. -/
def lines (f : WrittenFile) : List (List Char) :=
  f.ended.map (fun line => line.1.chars ++ line.2.beforeNewline) ++
    [f.last.chars ++ if f.returned then ['\r'] else []]

/-- The lines with newlines between them. -/
def body (f : WrittenFile) : List Char :=
  f.ended.flatMap (fun line => line.1.chars ++ line.2.beforeNewline ++ ['\n']) ++
    (f.last.chars ++ if f.returned then ['\r'] else [])

/-- The characters of the file. -/
def content (f : WrittenFile) : String :=
  String.ofList (if f.marked then byteOrderMark :: f.body else f.body)

/-- Whether the text of the first line begins with a byte order mark. -/
def BeginsWithMark (f : WrittenFile) : Prop :=
  ∃ t ∈ f.texts.head?, t.chars.head? = some byteOrderMark

end WrittenFile

/-- The expressions that stand in texts, one in each that is not skipped, under its number. -/
def expressionsOfTexts (file : String) (texts : List LineText) : List Expression :=
  (texts.zipIdx 1).filterMap fun (t, number) =>
    if isSkipped t.chars then none else some ⟨String.ofList t.chars, file, number⟩

/-! ## The lines of a written file -/

/-- Carriage returns that are taken off a line do not count. -/
theorem dropReturn_append {cs tail : List Char} (hlast : cs.getLast? ≠ some '\r')
    (htail : tail = [] ∨ tail = ['\r']) : dropReturn (cs ++ tail) = cs := by
  rcases htail with rfl | rfl
  · rw [List.append_nil, dropReturn, if_neg hlast]
  · have hreturned : (cs ++ ['\r']).getLast? = some '\r' := by simp
    rw [dropReturn, if_pos hreturned, List.dropLast_concat]

/-- What stands before the newline is nothing or a carriage return. -/
theorem LineEnd.beforeNewline_eq (e : LineEnd) :
    e.beforeNewline = [] ∨ e.beforeNewline = ['\r'] := by
  cases e with
  | newline => exact Or.inl rfl
  | returnAndNewline => exact Or.inr rfl

/-- A byte order mark is dropped from the first of several lines. -/
theorem splitOn_dropMark (cs : List Char) :
    (dropMark cs).splitOn '\n' = (cs.splitOn '\n').modifyHead dropMark := by
  cases cs with
  | nil => rfl
  | cons c cs =>
    obtain ⟨line, lines, hlines⟩ := List.exists_cons_of_ne_nil (List.splitOn_ne_nil '\n' cs)
    by_cases hc : c = byteOrderMark
    · have hnewline : ¬ (byteOrderMark == '\n') = true := by decide
      rw [hc, List.splitOn_cons_eq_if_modifyHead, if_neg hnewline, hlines]
      show cs.splitOn '\n' = _
      rw [hlines]
      rfl
    · have hsame : dropMark (c :: cs) = c :: cs := if_neg hc
      rw [hsame, List.splitOn_cons_eq_if_modifyHead, hlines]
      split
      · rfl
      · show (c :: line) :: lines = dropMark (c :: line) :: lines
        rw [dropMark, if_neg hc]

/-- Dropping a mark from a line drops it from the text of the line. -/
theorem dropReturn_dropMark_append {cs tail : List Char} (hlast : cs.getLast? ≠ some '\r')
    (htail : tail = [] ∨ tail = ['\r']) : dropReturn (dropMark (cs ++ tail)) = dropMark cs := by
  cases cs with
  | nil =>
    rcases htail with rfl | rfl
    · rfl
    · decide
  | cons c cs =>
    rw [List.cons_append, dropMark, dropMark]
    split
    · apply dropReturn_append _ htail
      intro hreturn
      -- the last character of a text stays the last one when one is put in front
      exact hlast (by rw [List.getLast?_cons, hreturn]; rfl)
    · exact dropReturn_append hlast htail

/-- No carriage return is taken off a text. -/
theorem LineText.dropReturn_chars (t : LineText) : dropReturn t.chars = t.chars :=
  if_neg t.not_returned

/-- A text with a carriage return behind it is still a single line. -/
theorem LineText.newline_notMem_append (t : LineText) {tail : List Char}
    (htail : tail = [] ∨ tail = ['\r']) : '\n' ∉ t.chars ++ tail := by
  rw [List.mem_append, not_or]
  refine ⟨t.newline_notMem, ?_⟩
  rcases htail with rfl | rfl <;> decide

namespace WrittenFile

variable (f : WrittenFile)

/-- Behind the last text there is nothing or a carriage return. -/
theorem ifReturned_eq (returned : Bool) :
    (if returned then ['\r'] else []) = [] ∨ (if returned then ['\r'] else []) = ['\r'] := by
  cases returned with
  | false => exact Or.inl rfl
  | true => exact Or.inr rfl

/-- The lines of a written file are split as they were put together. -/
theorem splitOn_body : f.body.splitOn '\n' = f.lines := by
  have hlast : '\n' ∉ f.last.chars ++ if f.returned then ['\r'] else [] :=
    f.last.newline_notMem_append (ifReturned_eq f.returned)
  unfold body lines
  induction f.ended with
  | nil => exact List.splitOn_eq_singleton hlast
  | cons line ended ih =>
    have hline : '\n' ∉ line.1.chars ++ line.2.beforeNewline :=
      line.1.newline_notMem_append line.2.beforeNewline_eq
    rw [List.flatMap_cons, List.append_assoc, List.append_assoc (_ ++ _), List.singleton_append,
      List.splitOn_append_cons_self, List.splitOn_eq_singleton hline, ih]
    rfl

/-- Without their carriage returns the lines are the texts. -/
theorem map_dropReturn_lines : f.lines.map dropReturn = f.texts.map LineText.chars := by
  unfold lines texts
  rw [List.map_append, List.map_append, List.map_map, List.map_map]
  congr 1
  · apply List.map_congr_left
    intro line _
    exact dropReturn_append line.1.not_returned line.2.beforeNewline_eq
  · exact congrArg ([·]) (dropReturn_append f.last.not_returned (ifReturned_eq f.returned))

/-- The same holds when a mark is dropped from the first line. -/
theorem map_dropReturn_dropMark_lines :
    (f.lines.modifyHead dropMark).map dropReturn =
      (f.texts.map LineText.chars).modifyHead dropMark := by
  have hrest := f.map_dropReturn_lines
  unfold lines texts at hrest ⊢
  cases hended : f.ended with
  | nil =>
    exact congrArg ([·])
      (dropReturn_dropMark_append f.last.not_returned (ifReturned_eq f.returned))
  | cons line ended =>
    rw [hended] at hrest
    have hfirst := dropReturn_dropMark_append line.1.not_returned line.2.beforeNewline_eq
    exact List.cons_eq_cons.mpr ⟨hfirst, (List.cons.inj hrest).2⟩

/-- What is read of the lines of a written file: their texts, the first of them without a byte order
mark unless one stands in front of the file. -/
theorem map_dropReturn_fileLines :
    (fileLines f.content).map dropReturn =
      if f.marked then f.texts.map LineText.chars
      else (f.texts.map LineText.chars).modifyHead dropMark := by
  unfold fileLines content
  rw [String.toList_ofList]
  cases f.marked with
  | true =>
    show ((dropMark (byteOrderMark :: f.body)).splitOn '\n').map dropReturn = _
    rw [dropMark, if_pos rfl, splitOn_body]
    exact f.map_dropReturn_lines
  | false =>
    show ((dropMark f.body).splitOn '\n').map dropReturn = _
    rw [splitOn_dropMark, splitOn_body]
    exact f.map_dropReturn_dropMark_lines

/-- A file whose first line does not begin with a byte order mark is read as its texts. -/
theorem map_dropReturn_fileLines_of_not_begins (h : ¬ f.BeginsWithMark) :
    (fileLines f.content).map dropReturn = f.texts.map LineText.chars := by
  rw [map_dropReturn_fileLines]
  split
  · rfl
  · -- the first text has no mark that could be dropped
    unfold BeginsWithMark at h
    cases htexts : f.texts with
    | nil => rfl
    | cons t rest =>
      rw [htexts] at h
      have ht : t.chars.head? ≠ some byteOrderMark := fun hmark => h ⟨t, rfl, hmark⟩
      rw [List.map_cons, List.modifyHead_cons, dropMark_of_head? ht]

end WrittenFile

/-! ## What is read of them -/

namespace Expression

/-- Lines that differ only in carriage returns at their ends hold the same expressions. -/
theorem ofLines_congr {file : String} {first : Nat} {lines others : List (List Char)}
    (h : lines.map dropReturn = others.map dropReturn) :
    ofLines file first lines = ofLines file first others := by
  induction lines generalizing first others with
  | nil =>
    rw [List.map_nil, eq_comm, List.map_eq_nil_iff] at h
    rw [h]
  | cons line lines ih =>
    obtain ⟨other, others, rfl, hline, hlines⟩ := List.map_eq_cons_iff.mp h.symm
    rw [ofLines, ofLines, hline, ih hlines.symm]

/-- The expressions of texts without carriage returns at their ends. -/
theorem ofLines_texts (file : String) (texts : List LineText) :
    ofLines file 1 (texts.map LineText.chars) = expressionsOfTexts file texts := by
  unfold expressionsOfTexts
  generalize 1 = first
  induction texts generalizing first with
  | nil => rfl
  | cons t texts ih =>
    rw [List.map_cons, ofLines, t.dropReturn_chars, ih (first + 1), List.zipIdx_cons,
      List.filterMap_cons]
    dsimp only
    split <;> rfl

end Expression

/-- **The ends of lines do not matter.** Two files with the same texts of lines hold the same
expressions, whatever ends each of their lines; and these have the same values and the same
diagnostics. It does not matter either whether a byte order mark stands in front of one of them,
provided that the first line does not begin with such a mark: then each line that is not skipped is
one expression, under its own number. -/
theorem ofFile_of_texts (file : String) :
    (∀ f g : WrittenFile, f.texts = g.texts → (f.marked = g.marked ∨ ¬ f.BeginsWithMark) →
      Expression.ofFile f.content file = Expression.ofFile g.content file ∧
      (Expression.ofFile f.content file).map (fun e => evaluate e.text) =
        (Expression.ofFile g.content file).map (fun e => evaluate e.text) ∧
      fileDiagnostics f.content file = fileDiagnostics g.content file) ∧
    ∀ f : WrittenFile, ¬ f.BeginsWithMark →
      Expression.ofFile f.content file = expressionsOfTexts file f.texts := by
  have hread : ∀ f : WrittenFile,
      Expression.ofFile f.content file = Expression.ofLines file 1 (fileLines f.content) := by
    intro f
    unfold Expression.ofFile fileLines
    rw [splitLines_eq_splitOn]
  constructor
  · intro f g htexts hmark
    have hlines : (fileLines f.content).map dropReturn = (fileLines g.content).map dropReturn := by
      rcases hmark with hmarked | hfirst
      · rw [f.map_dropReturn_fileLines, g.map_dropReturn_fileLines, hmarked, htexts]
      · have hfirst' : ¬ g.BeginsWithMark := by
          unfold WrittenFile.BeginsWithMark at hfirst ⊢
          rwa [← htexts]
        rw [f.map_dropReturn_fileLines_of_not_begins hfirst,
          g.map_dropReturn_fileLines_of_not_begins hfirst', htexts]
    have hsame : Expression.ofFile f.content file = Expression.ofFile g.content file := by
      rw [hread f, hread g]
      exact Expression.ofLines_congr hlines
    refine ⟨hsame, ?_, ?_⟩
    · rw [hsame]
    · unfold fileDiagnostics
      rw [hsame]
  · intro f hfirst
    have hlines := f.map_dropReturn_fileLines_of_not_begins hfirst
    have htexts : (f.texts.map LineText.chars).map dropReturn = f.texts.map LineText.chars := by
      rw [List.map_map]
      apply List.map_congr_left
      intro t _
      exact t.dropReturn_chars
    rw [hread f, Expression.ofLines_congr (hlines.trans htexts.symm)]
    exact Expression.ofLines_texts file f.texts

/-- Three lines and a comment, written in two ways: the second file has a byte order mark in front,
other line ends, and a carriage return behind everything. -/
theorem ofFile_of_texts_mixed :
    let sum : LineText := ⟨"1 + 1".toList, by decide, by decide⟩
    let comment : LineText := ⟨"# \r2".toList, by decide, by decide⟩
    let blank : LineText := ⟨[], by decide, by decide⟩
    let factor : LineText := ⟨"3 * 1".toList, by decide, by decide⟩
    let f : WrittenFile :=
      ⟨false, [(sum, .newline), (comment, .newline), (blank, .newline)], factor, false⟩
    let g : WrittenFile := ⟨true, [(sum, .returnAndNewline), (comment, .newline),
      (blank, .returnAndNewline)], factor, true⟩
    (f.texts = g.texts ∧ ¬ f.BeginsWithMark ∧
      g.content = "\ufeff1 + 1\r\n# \r2\n\r\n3 * 1\r") ∧
    Expression.ofFile f.content "sums.txt" = Expression.ofFile g.content "sums.txt" ∧
    Expression.ofFile f.content "sums.txt" = [⟨"1 + 1", "sums.txt", 1⟩, ⟨"3 * 1", "sums.txt", 4⟩] ∧
    fileDiagnostics f.content "sums.txt" = fileDiagnostics g.content "sums.txt" := by
  intro sum comment blank factor f g
  have hfirst : ¬ f.BeginsWithMark := by
    rintro ⟨t, ht, hmark⟩
    cases ht
    exact absurd hmark (by decide)
  obtain ⟨hsame, hread⟩ := ofFile_of_texts "sums.txt"
  obtain ⟨hexpressions, -, hdiagnostics⟩ := hsame f g rfl (Or.inr hfirst)
  refine ⟨⟨rfl, hfirst, by decide⟩, hexpressions, ?_, hdiagnostics⟩
  rw [hread f hfirst]
  decide

end LineSum

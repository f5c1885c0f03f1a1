import Mathlib.Data.List.TakeWhile
import LineSum.Proofs.Config.Outcome
import LineSum.Proofs.Yaml.LineStarts

/-!
# Two ways to count

The diagnostics of an expression count in its line: the offset is the column less one. Those of a
configuration file count in the whole text: the offset is the place in the text, and only the column
counts from the start of the line. The two agree in the first line and nowhere else.
-/

namespace LineSum

namespace Location

/-- The offset of the point is its place in its line. -/
def CountsInLine (l : Location) : Prop := l.col = l.offset + 1

/-- The offset of the point is its place in a text whose lines start at `starts`. Its line
is the one in which this place lies, and its column is the distance from the start of that
line, counted from one. -/
def CountsInText (starts : LineStarts) (l : Location) : Prop :=
  1 ≤ l.line ∧ ∃ start, starts[(l.line - 1).toNat]? = some start ∧ start ≤ l.offset ∧
    (∀ next, starts[l.line.toNat]? = some next → l.offset < next) ∧ l.col = l.offset - start + 1

/-- Whether the offset is the place in the line can be decided. -/
instance (l : Location) : Decidable l.CountsInLine :=
  inferInstanceAs (Decidable (l.col = l.offset + 1))

end Location

/-- Both ends of the stretch have the property. -/
def Range.EndsIn (r : Range) (p : Location → Prop) : Prop := p r.start ∧ p r.stop

/-- A stretch of one line counts in it. -/
theorem Range.endsIn_inLine (line : Int) (first last : Nat) :
    (Range.inLine line first last).EndsIn Location.CountsInLine :=
  ⟨rfl, rfl⟩

namespace LineStarts.BeginsOnce

variable {starts : LineStarts}

/-- A place that is located in a text counts in it. -/
theorem countsInText_locate (h : starts.BeginsOnce) (offset : Nat) :
    (starts.locate offset).CountsInText starts := by
  have hsplit := (List.takeWhile_append_dropWhile (l := starts) (p := (· ≤ offset))).symm
  have hnext := List.head?_dropWhile_not (· ≤ offset) starts
  have hall : ∀ start ∈ starts.takeWhile (· ≤ offset), start ≤ offset := by
    intro start hstart
    exact of_decide_eq_true (List.mem_takeWhile_imp (p := (· ≤ offset)) hstart)
  have hne : starts.takeWhile (· ≤ offset) ≠ [] := by
    obtain ⟨later, rfl, -⟩ := h
    have hzero : decide (0 ≤ offset) = true := decide_eq_true (Nat.zero_le offset)
    rw [List.takeWhile_cons, hzero]
    exact List.cons_ne_nil _ _
  unfold locate
  dsimp only
  generalize starts.takeWhile (· ≤ offset) = before at hsplit hall hne ⊢
  generalize starts.dropWhile (· ≤ offset) = behind at hsplit hnext
  have hlength : 0 < before.length := List.length_pos_of_ne_nil hne
  have hlast : before.getLastD 0 = before.getLast hne := by
    rw [List.getLastD_eq_getLast?, List.getLast?_eq_some_getLast hne]
    rfl
  refine ⟨Int.ofNat_le.mpr hlength, before.getLast hne, ?_, ?_, ?_, ?_⟩
  · have hindex : ((before.length : Int) - 1).toNat = before.length - 1 := by omega
    rw [hindex, hsplit, List.getElem?_append_left (Nat.sub_lt hlength Nat.one_pos),
      ← List.getLast?_eq_getElem?, List.getLast?_eq_some_getLast hne]
  · exact Int.ofNat_le.mpr (hall _ (List.getLast_mem hne))
  · intro next hget
    rw [Int.toNat_natCast, hsplit, List.getElem?_append_right le_rfl, Nat.sub_self,
      ← List.head?_eq_getElem?] at hget
    rw [hget] at hnext
    exact Int.ofNat_lt.mpr (Nat.lt_of_not_le (of_decide_eq_false hnext))
  · rw [hlast]

/-- A point that counts in a text counts in its line exactly if that is the first one. -/
theorem countsInLine_iff (h : starts.BeginsOnce) {l : Location} (hl : l.CountsInText starts) :
    l.CountsInLine ↔ l.line = 1 := by
  obtain ⟨hline, start, hstart, -, -, hcol⟩ := hl
  have hzero : l.CountsInLine ↔ start = 0 := by
    unfold Location.CountsInLine
    omega
  rw [hzero]
  obtain ⟨later, rfl, hlater⟩ := h
  cases hindex : (l.line - 1).toNat with
  | zero =>
    rw [hindex] at hstart
    exact iff_of_true (Option.some.inj hstart).symm (by omega)
  | succ index =>
    rw [hindex, List.getElem?_cons_succ] at hstart
    have hpos : 0 < start := hlater start (List.mem_of_getElem? hstart)
    exact iff_of_false (Nat.ne_of_gt hpos) (by omega)

/-- The ends of a stretch of a text count in the text, and in their lines where
those are the first. -/
theorem endsIn_range (h : starts.BeginsOnce) (span : Span) :
    (starts.range span).EndsIn fun l => l.CountsInText starts ∧ (l.CountsInLine ↔ l.line = 1) := by
  have hlocate (offset : Nat) := h.countsInText_locate offset
  exact ⟨⟨hlocate _, h.countsInLine_iff (hlocate _)⟩, ⟨hlocate _, h.countsInLine_iff (hlocate _)⟩⟩

end LineStarts.BeginsOnce

/-- The range is that of a stretch of a text: its ends have the offsets of the ends of the stretch,
and these are located by the starts of the lines. -/
structure Range.Spans (r : Range) (starts : LineStarts) (span : Span) : Prop where
  start_offset : r.start.offset = span.first
  stop_offset : r.stop.offset = span.last
  endsIn : starts.BeginsOnce → r.EndsIn (·.CountsInText starts)

/-- The range that is made for a stretch is the range of this stretch. -/
theorem LineStarts.spans_range (starts : LineStarts) (span : Span) :
    (starts.range span).Spans starts span where
  start_offset := rfl
  stop_offset := rfl
  endsIn h := ⟨h.countsInText_locate span.first, h.countsInText_locate span.last⟩

/-- **How diagnostics count.** What an expression is reported for counts in its line. What a text is
reported for, by the rules of YAML or by a schema, counts in the whole text, and so it counts in its
line exactly if that is the first line of the text. -/
theorem range_of_diagnostic (failure : Failure) (expression : Expression) (text : List Char)
    (file : String) :
    let document := Yaml.Document.ofText text
    (∀ range, (failure.diagnostic expression).range = some range →
      range.EndsIn Location.CountsInLine) ∧
    ∀ (d : Diagnostic) (range : Range),
      d ∈ document.diagnostics text file ∨
        (∃ schema path node value, ∃ finding ∈ (checkMap schema path node value).2,
          d = finding.diagnostic file document.starts) →
      d.range = some range →
      range.EndsIn fun l => l.CountsInText document.starts ∧ (l.CountsInLine ↔ l.line = 1) := by
  intro document
  have hstarts := Yaml.Document.starts_beginsOnce text
  constructor
  · rintro range ⟨⟩
    cases failure with
    | scan error => exact Range.endsIn_inLine _ _ _
    | parse error => exact Range.endsIn_inLine _ _ _
  · intro d range hd hrange
    rcases hd with hd | ⟨schema, path, node, value, finding, -, rfl⟩
    · obtain ⟨report, -, rfl⟩ := List.mem_map.mp hd
      cases hrange
      exact hstarts.endsIn_range report.span
    · obtain ⟨span, -, rfl⟩ := Option.map_eq_some_iff.mp hrange
      exact hstarts.endsIn_range span

/-- The lexemes of a text whose second line asks for a color that there is not. -/
theorem lexemes_unknown_color : Yaml.Lexeme.ofText (configChars "trace: true\ncolor: blue\n") =
    [.documentMark, .scalar "trace".toList, .text [':'], .text [' '], .scalar "true".toList,
      .text ['\n'],
      .scalar "color".toList, .text [':'], .text [' '], .scalar "blue".toList, .text ['\n']] := by
  cbv

/-- The color in the second line is reported by its place in the text. -/
theorem range_of_unknown_color :
    ∃ loaded range, readConfig "trace: true\ncolor: blue\n" "cfg.yml" = .ok loaded ∧
      loaded.diagnostics.map Diagnostic.range = [some range] ∧ range = ⟨⟨2, 8, 19⟩, ⟨2, 12, 23⟩⟩ ∧
      ¬ range.EndsIn Location.CountsInLine := by
  have hranges : (readConfig "trace: true\ncolor: blue\n" "cfg.yml").toOption.map
      (·.diagnostics.map Diagnostic.range) = some [some ⟨⟨2, 8, 19⟩, ⟨2, 12, 23⟩⟩] := by
    unfold readConfig Yaml.Document.ofText Yaml.Nest.ofText
    dsimp only
    rw [lexemes_unknown_color]
    decide +kernel
  obtain ⟨loaded, hread, hlist⟩ := Option.map_eq_some_iff.mp hranges
  refine ⟨loaded, _, eq_ok_of_toOption hread, hlist, rfl, ?_⟩
  rintro ⟨hstart, -⟩
  exact absurd hstart (by decide)

end LineSum

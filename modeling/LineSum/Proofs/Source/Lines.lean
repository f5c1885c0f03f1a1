import LineSum.Proofs.Text
import LineSum.Source.Loading
import Mathlib.Data.List.DropRight

/-!
# The lines of a file

The lines of a file are what stands between its newlines once a byte order mark is dropped. A line
is skipped when nothing is left of it after trimming, or when what is left begins with `#`; the
carriage return at its end makes no difference to that. `mem_ofFile_iff` says which expressions a
file holds.
-/

namespace LineSum

/-! ## Splitting at newlines -/

/-- Lines are what stands between newlines. -/
theorem splitLines_eq_splitOn (cs : List Char) : splitLines cs = cs.splitOn '\n' :=
  eq_splitOn rfl (fun _ _ => rfl) cs

/-- The lines of a file. -/
def fileLines (content : String) : List (List Char) :=
  (dropMark content.toList).splitOn '\n'

/-! ## The carriage return at the end of a line -/

/-- A line is what is left of it without its carriage return, and perhaps that carriage return. -/
theorem exists_eq_dropReturn_append (line : List Char) :
    ∃ tail, line = dropReturn line ++ tail ∧ (tail = [] ∨ tail = ['\r']) := by
  unfold dropReturn
  by_cases h : line.getLast? = some '\r'
  · rw [if_pos h]
    exact ⟨['\r'], (List.dropLast_append_getLast? '\r' h).symm, Or.inr rfl⟩
  · rw [if_neg h]
    exact ⟨[], (List.append_nil line).symm, Or.inl rfl⟩

/-- What is left of a line has the characters of the line. -/
theorem getElem?_of_dropReturn {l : List Char} {i : Nat} {c : Char}
    (h : (dropReturn l)[i]? = some c) : l[i]? = some c := by
  obtain ⟨tail, hl, -⟩ := exists_eq_dropReturn_append l
  have hlt : i < (dropReturn l).length := (List.getElem?_eq_some_iff.mp h).1
  rw [hl, List.getElem?_append_left hlt, h]

/-- The first character that is not blank is the same with and without the carriage return. -/
theorem find?_dropReturn (line : List Char) :
    (dropReturn line).find? (fun c => !isBlank c) = line.find? fun c => !isBlank c := by
  obtain ⟨tail, hline, htail⟩ := exists_eq_dropReturn_append line
  conv_rhs => rw [hline, List.find?_append]
  have hnone : tail.find? (fun c => !isBlank c) = none := by
    rcases htail with rfl | rfl
    · rfl
    · decide
  rw [hnone, Option.or_none]

/-! ## Skipped lines -/

/-- A line is blank when nothing is left of it after trimming. -/
def IsBlankLine (line : List Char) : Prop :=
  trimBlank line = []

instance : DecidablePred IsBlankLine := fun line =>
  inferInstanceAs (Decidable (trimBlank line = []))

/-- A line is a comment when what is left of it after trimming begins with `#`. -/
def IsComment (line : List Char) : Prop :=
  (trimBlank line).head? = some '#'

instance : DecidablePred IsComment := fun line =>
  inferInstanceAs (Decidable ((trimBlank line).head? = some '#'))

/-- Trimming leaves the first character that is not blank in front. -/
theorem head?_trimBlank (line : List Char) :
    (trimBlank line).head? = line.find? fun c => !isBlank c := by
  have hfind : line.find? (fun c => !isBlank c) = (line.dropWhile isBlank).head? := by
    rw [List.find?_eq_head?_dropWhile_not]
    simp
  show ((line.dropWhile isBlank).rdropWhile isBlank).head? = _
  rw [hfind]
  cases hdrop : line.dropWhile isBlank with
  | nil => rfl
  | cons c rest =>
    have hc : isBlank c = false := by
      have := List.head?_dropWhile_not isBlank line
      rw [hdrop] at this
      simpa using this
    -- the first character stays, so what is left at the end is a prefix that is not empty
    have hne : (c :: rest).rdropWhile isBlank ≠ [] := by
      rw [Ne, List.rdropWhile_eq_nil_iff]
      intro hall
      rw [hall c List.mem_cons_self] at hc
      cases hc
    obtain ⟨d, kept, hkept⟩ := List.exists_cons_of_ne_nil hne
    have hprefix := List.rdropWhile_prefix isBlank (l := c :: rest)
    rw [hkept, List.cons_prefix_cons] at hprefix
    rw [hkept, hprefix.1]
    rfl

/-- A line without its carriage return is skipped exactly when the line is blank or a comment. -/
theorem isSkipped_dropReturn_iff (line : List Char) :
    isSkipped (dropReturn line) = true ↔ IsBlankLine line ∨ IsComment line := by
  have hfirst : ((dropReturn line).dropWhile isBlank).head? = (trimBlank line).head? := by
    rw [head?_trimBlank, ← find?_dropReturn, List.find?_eq_head?_dropWhile_not]
    simp
  unfold isSkipped IsBlankLine IsComment
  rw [← List.head?_eq_none_iff, ← hfirst]
  cases (dropReturn line).dropWhile isBlank with
  | nil => simp
  | cons c rest => simp

/-! ## The expressions of a file -/

/-- The expressions of lines that are counted from a number: each line that is not skipped is one,
under the number of the line. -/
theorem mem_ofLines_iff {file : String} {first : Nat} {lines : List (List Char)} {e : Expression} :
    e ∈ Expression.ofLines file first lines ↔
      ∃ i line, lines[i]? = some line ∧ isSkipped (dropReturn line) = false ∧
        e = ⟨String.ofList (dropReturn line), file, ((first + i : Nat) : Int)⟩ := by
  induction lines generalizing first with
  | nil => simp [Expression.ofLines]
  | cons line lines ih =>
    have hshift (i : Nat) : first + 1 + i = first + (i + 1) := by omega
    rw [Expression.ofLines]
    by_cases hskip : isSkipped (dropReturn line) = true
    · rw [if_pos hskip, ih]
      constructor
      · rintro ⟨i, l, hl, hkept, rfl⟩
        exact ⟨i + 1, l, hl, hkept, by rw [hshift]⟩
      · rintro ⟨_ | i, l, hl, hkept, rfl⟩
        · rw [List.getElem?_cons_zero, Option.some.injEq] at hl
          rw [← hl, hskip] at hkept
          cases hkept
        · exact ⟨i, l, hl, hkept, by rw [hshift]⟩
    · rw [if_neg hskip, List.mem_cons, ih]
      constructor
      · rintro (rfl | ⟨i, l, hl, hkept, rfl⟩)
        · exact ⟨0, line, rfl, Bool.eq_false_iff.mpr hskip, rfl⟩
        · exact ⟨i + 1, l, hl, hkept, by rw [hshift]⟩
      · rintro ⟨_ | i, l, hl, hkept, rfl⟩
        · rw [List.getElem?_cons_zero, Option.some.injEq] at hl
          rw [← hl]
          exact Or.inl rfl
        · exact Or.inr ⟨i, l, hl, hkept, by rw [hshift]⟩

/-- The expressions of a file: each line that is neither blank nor a comment is one, under the
number of the line. -/
theorem mem_ofFile_iff {content file : String} {e : Expression} :
    e ∈ Expression.ofFile content file ↔
      ∃ (i : Nat) (line : List Char), (fileLines content)[i]? = some line ∧
        (¬ IsBlankLine line ∧ ¬ IsComment line) ∧
        e = ⟨String.ofList (dropReturn line), file, (i : Int) + 1⟩ := by
  have hskip (line : List Char) :
      isSkipped (dropReturn line) = false ↔ ¬ IsBlankLine line ∧ ¬ IsComment line := by
    rw [← not_or, ← isSkipped_dropReturn_iff, Bool.not_eq_true]
  have hnumber (i : Nat) : ((1 + i : Nat) : Int) = (i : Int) + 1 := by omega
  unfold Expression.ofFile fileLines
  rw [mem_ofLines_iff, splitLines_eq_splitOn]
  simp only [hskip, hnumber]

end LineSum

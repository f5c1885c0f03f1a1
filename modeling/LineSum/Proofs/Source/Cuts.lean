import LineSum.Proofs.Source.Lines

/-!
# Cutting a file at a newline

The lines of a file do not depend on each other, but for their numbers. So a file that is cut at a
newline holds the expressions of both parts, those of the second part as many lines further down as
the first part has lines. Skipped lines count like all others.
-/

namespace LineSum

/-- A byte order mark is dropped from the first part of a file that is cut at a newline. -/
theorem dropMark_append_newline (a b : List Char) :
    dropMark (a ++ '\n' :: b) = dropMark a ++ '\n' :: b := by
  cases a with
  | nil => rfl
  | cons c a =>
    simp only [List.cons_append, dropMark]
    split <;> rfl

/-- Without a byte order mark in front, nothing is dropped. -/
theorem dropMark_of_head? {cs : List Char} (h : cs.head? ≠ some byteOrderMark) :
    dropMark cs = cs := by
  cases cs with
  | nil => rfl
  | cons c cs => exact if_neg fun hc => h (congrArg some hc)

/-- Dropping a byte order mark drops no newline. -/
theorem count_newline_dropMark (cs : List Char) : (dropMark cs).count '\n' = cs.count '\n' := by
  cases cs with
  | nil => rfl
  | cons c cs =>
    rw [dropMark]
    split
    · next hc =>
      rw [hc]
      exact (List.count_cons_of_ne (by decide)).symm
    · rfl

/-- There is one line more than there are newlines. -/
theorem length_splitOn_newline (cs : List Char) : (cs.splitOn '\n').length = cs.count '\n' + 1 := by
  rw [← splitLines_eq_splitOn]
  induction cs with
  | nil => rfl
  | cons c cs ih =>
    rw [splitLines]
    by_cases hc : c = '\n'
    · rw [if_pos hc, hc, List.count_cons_self, List.length_cons, ih]
    · rw [if_neg hc, List.count_cons_of_ne hc, ← ih]
      split
      · next hnil =>
        rw [hnil] at ih
        cases ih
      · next hcons =>
        rw [hcons]
        rfl

namespace Expression

/-- The same expression, a number of lines further down. -/
def movedDown (e : Expression) (lines : Nat) : Expression :=
  { e with line := e.line + lines }

section Lines

variable {file : String}

/-- Lines that are counted from a later number hold the same expressions further down. -/
theorem ofLines_add (first n : Nat) (lines : List (List Char)) :
    ofLines file (first + n) lines = (ofLines file first lines).map (·.movedDown n) := by
  induction lines generalizing first with
  | nil => rfl
  | cons line lines ih =>
    have hnext : first + n + 1 = first + 1 + n := by omega
    have hnumber : ((first + n : Nat) : Int) = (first : Int) + n := Int.natCast_add first n
    rw [ofLines, ofLines, hnext, ih (first + 1)]
    split
    · rfl
    · rw [List.map_cons, hnumber]
      rfl

/-- Lines behind others are counted on. -/
theorem ofLines_append (first : Nat) (lines others : List (List Char)) :
    ofLines file first (lines ++ others) =
      ofLines file first lines ++ ofLines file (first + lines.length) others := by
  induction lines generalizing first with
  | nil => rfl
  | cons line lines ih =>
    have hnext : first + (line :: lines).length = first + 1 + lines.length := by
      rw [List.length_cons]
      omega
    rw [List.cons_append, ofLines, ofLines, ih (first + 1), hnext]
    split <;> rfl

/-- The numbers of lines go up. -/
theorem ofLines_pairwise (first : Nat) (lines : List (List Char)) :
    (ofLines file first lines).Pairwise (·.line < ·.line) := by
  induction lines generalizing first with
  | nil => exact List.Pairwise.nil
  | cons line lines ih =>
    rw [ofLines]
    split
    · exact ih (first + 1)
    · refine List.pairwise_cons.mpr ⟨?_, ih (first + 1)⟩
      intro e he
      obtain ⟨i, _, _, _, rfl⟩ := mem_ofLines_iff.mp he
      exact Int.ofNat_lt.mpr (by omega)

end Lines

/-- The text of an expression of a file is a line without its carriage return: the first character
that is not blank is there, and it does not begin a comment. -/
theorem text_of_mem_ofFile {content file : String} {e : Expression} (h : e ∈ ofFile content file) :
    '\n' ∉ e.text.toList ∧ ∃ c, e.text.toList.find? (fun c => !isBlank c) = some c ∧ c ≠ '#' := by
  obtain ⟨i, line, hline, ⟨hblank, hcomment⟩, rfl⟩ := mem_ofFile_iff.mp h
  obtain ⟨tail, hparts, -⟩ := exists_eq_dropReturn_append line
  rw [String.toList_ofList, find?_dropReturn, ← head?_trimBlank]
  refine ⟨?_, ?_⟩
  · intro hnewline
    refine notMem_of_mem_splitOn _ (List.mem_of_getElem? hline) ?_
    rw [hparts]
    exact List.mem_append_left _ hnewline
  · obtain ⟨c, hc⟩ := Option.ne_none_iff_exists'.mp (mt List.head?_eq_none_iff.mp hblank)
    refine ⟨c, hc, ?_⟩
    rintro rfl
    exact hcomment hc

end Expression

/-- **A file is read line by line.** What stands before and behind a newline can be read one after
the other, provided that no byte order mark follows the newline: the expressions of the second part
are then as many lines further down as there are newlines up to there. Each text that is read is a
single line that is neither blank nor a comment, and the numbers of the lines go up. -/
theorem ofFile_append_newline (file : String) :
    (∀ a b : String, b.toList.head? ≠ some byteOrderMark →
      Expression.ofFile (a ++ "\n" ++ b) file =
        Expression.ofFile a file ++
          (Expression.ofFile b file).map (·.movedDown (1 + a.toList.count '\n'))) ∧
    ∀ content, (∀ e ∈ Expression.ofFile content file,
        trimBlank e.text.toList ≠ [] ∧ '\n' ∉ e.text.toList ∧
          e.text.toList.find? (fun c => !isBlank c) ≠ some '#') ∧
      (Expression.ofFile content file).Pairwise (·.line < ·.line) := by
  constructor
  · intro a b hmark
    have hchars : (a ++ "\n" ++ b).toList = a.toList ++ '\n' :: b.toList := by simp
    have hlength : 1 + ((dropMark a.toList).splitOn '\n').length =
        1 + (1 + a.toList.count '\n') := by
      rw [length_splitOn_newline, count_newline_dropMark, Nat.add_comm (a.toList.count '\n')]
    unfold Expression.ofFile
    rw [hchars, dropMark_append_newline, dropMark_of_head? hmark]
    simp only [splitLines_eq_splitOn]
    rw [List.splitOn_append_cons_of_beq _ _ (beq_self_eq_true '\n'),
      Expression.ofLines_append, hlength,
      Expression.ofLines_add]
  · intro content
    refine ⟨?_, Expression.ofLines_pairwise 1 _⟩
    intro e he
    obtain ⟨hnewline, c, hfirst, hc⟩ := Expression.text_of_mem_ofFile he
    refine ⟨?_, hnewline, ?_⟩
    · rw [Ne, ← List.head?_eq_none_iff, head?_trimBlank, hfirst]
      exact Option.some_ne_none c
    · rw [hfirst]
      exact fun hsharp => hc (Option.some.inj hsharp)

/-- Parts that meet at a carriage return and a comment, the first of them with a byte order mark. -/
theorem ofFile_append_newline_comment :
    "# 2\n3 - 1".toList.head? ≠ some byteOrderMark ∧
      Expression.ofFile ("\ufeff1 + 1\r" ++ "\n" ++ "# 2\n3 - 1") "sums.txt" =
        [⟨"1 + 1", "sums.txt", 1⟩, ⟨"3 - 1", "sums.txt", 3⟩] := by
  have hmark : "# 2\n3 - 1".toList.head? ≠ some byteOrderMark := by decide
  refine ⟨hmark, ?_⟩
  rw [(ofFile_append_newline "sums.txt").1 "\ufeff1 + 1\r" "# 2\n3 - 1" hmark]
  decide

end LineSum

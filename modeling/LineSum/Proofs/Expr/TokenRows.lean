import Mathlib
import LineSum.Expr.Lexer
import LineSum.Proofs.Text

/-!
# What a row of tokens says

The text of a token ends by itself: names are of different kinds, and a number is closed by a
bracket that none of its digits is. So it is known where the text of a token ends, whatever follows
it, and a row is read token by token up to the bracket that closes it. Tokens that are shown by the
same row are the same.
-/

namespace LineSum

namespace Token

/-! ## One token -/

/-- The text of a number is closed by a bracket. -/
theorem toList_text_number (value : Int) :
    (number value).text.toList = "Number(".toList ++ ((toString value).toList ++ [')']) := by
  show ("Number(" ++ toString value ++ ")").toList = _
  rw [String.toList_append, String.toList_append, List.append_assoc]
  rfl

/-- No closing bracket is printed within an integer. -/
theorem closing_notMem_toString (value : Int) : ')' ∉ (toString value).toList := by
  rw [toList_toString_int, List.mem_append, not_or]
  constructor
  · split <;> decide
  · intro hdigit
    exact absurd (isDecimal_of_mem_toDigits hdigit) (by decide)

/-- The text of a token begins with a letter, and not with what closes a row. -/
theorem exists_text_eq_cons (t : Token) : ∃ c cs, t.text.toList = c :: cs ∧ c ≠ ']' := by
  cases t with
  | number value => exact ⟨'N', _, toList_text_number value, by decide⟩
  | plus => exact ⟨'P', _, rfl, by decide⟩
  | minus => exact ⟨'S', _, rfl, by decide⟩

/-- A token is known from any text that begins with its own, and so is what follows it. -/
theorem text_append_inj {a b : Token} {x y : List Char}
    (h : a.text.toList ++ x = b.text.toList ++ y) : a = b ∧ x = y := by
  cases a with
  | number v =>
    rw [toList_text_number] at h
    cases b with
    | number w =>
      rw [toList_text_number] at h
      simp only [List.append_assoc, List.singleton_append] at h
      obtain ⟨hdigits, hrest⟩ := append_separator_inj (closing_notMem_toString v)
        (closing_notMem_toString w) (List.append_cancel_left h)
      have hvalue : v = w := Int.repr_inj.mp (String.toList_inj.mp hdigits)
      exact ⟨congrArg number hvalue, hrest⟩
    | plus => exact absurd (List.cons.inj h).1 (by decide)
    | minus => exact absurd (List.cons.inj h).1 (by decide)
  | plus =>
    cases b with
    | number w =>
      rw [toList_text_number] at h
      exact absurd (List.cons.inj h).1 (by decide)
    | plus => exact ⟨rfl, List.append_cancel_left h⟩
    | minus => exact absurd (List.cons.inj h).1 (by decide)
  | minus =>
    cases b with
    | number w =>
      rw [toList_text_number] at h
      exact absurd (List.cons.inj h).1 (by decide)
    | plus => exact absurd (List.cons.inj h).1 (by decide)
    | minus => exact ⟨rfl, List.append_cancel_left h⟩

/-! ## Rows -/

/-- What a row shows behind a token: the tokens that follow it, and the bracket. -/
def rowTail : List Token → List Char
  | [] => [']']
  | t :: ts => ',' :: ' ' :: (t.text.toList ++ rowTail ts)

/-- A row that is not empty begins with its first token. -/
theorem toList_rowText_cons (t : Token) (ts : List Token) :
    (rowText (t :: ts)).toList = '[' :: (t.text.toList ++ rowTail ts) := by
  have htail : (", ".intercalate ((t :: ts).map text)).toList ++ [']'] =
      t.text.toList ++ rowTail ts := by
    induction ts generalizing t with
    | nil => simp [rowTail]
    | cons u ts ih =>
      rw [List.map_cons, List.map_cons, String.intercalate_cons_cons, ← List.map_cons,
        String.toList_append, String.toList_append, List.append_assoc, ih, rowTail,
        List.append_assoc]
      rfl
  unfold rowText
  rw [String.toList_append, String.toList_append, List.append_assoc]
  exact congrArg ('[' :: ·) htail

/-- The tokens behind one are known from any text that begins with what the row shows of them. -/
theorem rowTail_append_inj {s t : List Token} {x y : List Char}
    (h : rowTail s ++ x = rowTail t ++ y) : s = t ∧ x = y := by
  induction s generalizing t with
  | nil =>
    cases t with
    | nil => exact ⟨rfl, List.append_cancel_left h⟩
    | cons b t => exact absurd (List.cons.inj h).1 (by decide)
  | cons a s ih =>
    cases t with
    | nil => exact absurd (List.cons.inj h).1 (by decide)
    | cons b t =>
      simp only [rowTail, List.cons_append, List.append_assoc, List.cons.injEq, true_and] at h
      obtain ⟨rfl, htail⟩ := text_append_inj h
      obtain ⟨rfl, hrest⟩ := ih htail
      exact ⟨rfl, hrest⟩

/-- The tokens of a row are known from any text that begins with it, and so is
what follows the row. -/
theorem rowText_append_inj {s t : List Token} {x y : String} :
    rowText s ++ x = rowText t ++ y ↔ s = t ∧ x = y := by
  constructor
  · intro h
    have hchars : (rowText s).toList ++ x.toList = (rowText t).toList ++ y.toList := by
      rw [← String.toList_append, h, String.toList_append]
    have hrest : x.toList = y.toList ↔ x = y := String.toList_inj
    rw [← hrest]
    cases s with
    | nil =>
      cases t with
      | nil => exact ⟨rfl, List.append_cancel_left hchars⟩
      | cons b t =>
        -- behind the opening bracket an empty row is closed, and another one has a letter
        obtain ⟨c, cs, htext, hc⟩ := b.exists_text_eq_cons
        rw [toList_rowText_cons, htext] at hchars
        exact absurd (List.cons.inj (List.cons.inj hchars).2).1.symm hc
    | cons a s =>
      cases t with
      | nil =>
        obtain ⟨c, cs, htext, hc⟩ := a.exists_text_eq_cons
        rw [toList_rowText_cons, htext] at hchars
        exact absurd (List.cons.inj (List.cons.inj hchars).2).1 hc
      | cons b t =>
        rw [toList_rowText_cons, toList_rowText_cons] at hchars
        simp only [List.cons_append, List.append_assoc, List.cons.injEq, true_and] at hchars
        obtain ⟨rfl, htail⟩ := text_append_inj hchars
        obtain ⟨rfl, hrest⟩ := rowTail_append_inj htail
        exact ⟨rfl, hrest⟩
  · rintro ⟨rfl, rfl⟩
    rfl

/-- **A row shows which tokens it has.** Rows of tokens are shown by the same text exactly if they
have the same tokens in the same order: their numbers, of any sign and size, and their signs. -/
theorem rowText_inj (s t : List Token) : rowText s = rowText t ↔ s = t := by
  have hempty : rowText s ++ "" = rowText t ++ "" ↔ s = t ∧ "" = "" := rowText_append_inj
  rwa [String.append_empty, String.append_empty, and_iff_left rfl] at hempty

end Token

end LineSum

import LineSum.Proofs.Expr.Summing
import Mathlib.Algebra.BigOperators.Intervals
import Mathlib.Algebra.Ring.Parity

/-!
# Tokens by their places

Numbers belong at the even places of a token sequence and signs at the odd ones, counted from zero.
What becomes of a sequence can be read off its places: the first token that stands where it does not
belong is reported; otherwise an even number of tokens ends too early, and an odd number of them
adds up to the number at place zero and the numbers behind the signs.
-/

namespace LineSum

/-! ## Places -/

/-- Numbers belong at even places and signs at odd ones. -/
def Token.BelongsAt (t : Token) (i : Nat) : Prop :=
  t.isNumber = true ↔ i % 2 = 0

instance (t : Token) (i : Nat) : Decidable (t.BelongsAt i) :=
  inferInstanceAs (Decidable (t.isNumber = true ↔ i % 2 = 0))

/-- Every token of a sequence stands where it belongs. -/
def TakesTurns (ts : List Token) : Prop :=
  ∀ (i : Nat) (t : Token), ts[i]? = some t → t.BelongsAt i

/-- A place holds a token that does not belong there, and it is the first such place. -/
def IsFirstMisplaced (ts : List Token) (i : Nat) (t : Token) : Prop :=
  ts[i]? = some t ∧ ¬ t.BelongsAt i ∧
    ∀ (j : Nat) (u : Token), j < i → ts[j]? = some u → u.BelongsAt j

/-- What is due at a place is what belongs there. -/
theorem isNumber_eq_due_iff (t : Token) (i : Nat) :
    t.isNumber = decide (i % 2 = 0) ↔ t.BelongsAt i := by
  unfold Token.BelongsAt
  rw [Bool.eq_iff_iff, decide_eq_true_iff]

/-- At the next place the other kind is due. -/
theorem not_due_eq (i : Nat) : (!decide (i % 2 = 0)) = decide ((i + 1) % 2 = 0) := by
  rw [Bool.eq_iff_iff, Bool.not_eq_true', decide_eq_false_iff_not, decide_eq_true_iff]
  omega

/-- How many tokens take turns before one is out of turn. -/
def turnCount (numberDue : Bool) : List Token → Nat
  | [] => 0
  | t :: ts => if t.isNumber = numberDue then turnCount (!numberDue) ts + 1 else 0

/-- The token out of turn stands behind those that take turns. -/
theorem misplaced_eq_getElem? (numberDue : Bool) (ts : List Token) :
    misplaced numberDue ts = ts[turnCount numberDue ts]? := by
  induction ts generalizing numberDue with
  | nil => rfl
  | cons a ts ih =>
    rw [misplaced, turnCount]
    by_cases ha : a.isNumber = numberDue
    · rw [if_pos ha, if_pos ha, ih, List.getElem?_cons_succ]
    · rw [if_neg ha, if_neg ha]
      rfl

/-- The tokens that take turns are as many as belong where they stand, if the sequence begins `k`
places into a longer one: before their end all tokens belong, and there none does. -/
theorem belongsAt_turnCount (k : Nat) (ts : List Token) :
    (∀ (j : Nat) (u : Token), j < turnCount (decide (k % 2 = 0)) ts → ts[j]? = some u →
        u.BelongsAt (k + j)) ∧
      ∀ u, ts[turnCount (decide (k % 2 = 0)) ts]? = some u →
        ¬ u.BelongsAt (k + turnCount (decide (k % 2 = 0)) ts) := by
  induction ts generalizing k with
  | nil => exact ⟨fun j u hj => absurd hj (Nat.not_lt_zero j), fun u hu => nomatch hu⟩
  | cons a ts ih =>
    rw [turnCount]
    by_cases ha : a.BelongsAt k
    · rw [if_pos ((isNumber_eq_due_iff a k).mpr ha), not_due_eq]
      obtain ⟨hbefore, hthere⟩ := ih (k + 1)
      have hplace (i : Nat) : k + (i + 1) = k + 1 + i := by omega
      refine ⟨fun j u hj hu => ?_, fun u hu => ?_⟩
      · cases j with
        | zero =>
          cases hu
          exact ha
        | succ j =>
          rw [hplace]
          exact hbefore j u (Nat.lt_of_succ_lt_succ hj) hu
      · rw [hplace]
        exact hthere u hu
    · rw [if_neg (mt (isNumber_eq_due_iff a k).mp ha)]
      refine ⟨fun j u hj => absurd hj (Nat.not_lt_zero j), fun u hu => ?_⟩
      cases hu
      exact ha

/-- The first token that does not belong where it stands is the one behind those that take turns. -/
theorem isFirstMisplaced_iff {ts : List Token} {i : Nat} {t : Token} :
    IsFirstMisplaced ts i t ↔ i = turnCount true ts ∧ ts[i]? = some t := by
  obtain ⟨hbefore, hthere⟩ := belongsAt_turnCount 0 ts
  simp only [Nat.zero_add] at hbefore hthere
  constructor
  · rintro ⟨hi, hnot, hfirst⟩
    refine ⟨?_, hi⟩
    rcases Nat.lt_trichotomy i (turnCount true ts) with hlt | heq | hgt
    · exact absurd (hbefore i t hlt hi) hnot
    · exact heq
    · -- a token stands there, and it does not belong
      have hlength : turnCount true ts < ts.length :=
        hgt.trans (List.getElem?_eq_some_iff.mp hi).1
      have hu := List.getElem?_eq_getElem hlength
      exact absurd (hfirst _ _ hgt hu) (hthere _ hu)
  · rintro ⟨rfl, ht⟩
    exact ⟨ht, hthere t ht, hbefore⟩

/-- The first token out of turn is the first one that does not belong where it stands. -/
theorem misplaced_eq_some_iff {ts : List Token} {t : Token} :
    misplaced true ts = some t ↔ ∃ i, IsFirstMisplaced ts i t := by
  simp only [isFirstMisplaced_iff, exists_eq_left, misplaced_eq_getElem?]

/-- No token is out of turn exactly if every token belongs where it stands. -/
theorem misplaced_eq_none_iff {ts : List Token} : misplaced true ts = none ↔ TakesTurns ts := by
  obtain ⟨hbefore, hthere⟩ := belongsAt_turnCount 0 ts
  simp only [Nat.zero_add] at hbefore hthere
  rw [misplaced_eq_getElem?]
  constructor
  · intro hnone i t hi
    have hlength : i < ts.length := (List.getElem?_eq_some_iff.mp hi).1
    exact hbefore i t (hlength.trans_le (List.getElem?_eq_none_iff.mp hnone)) hi
  · intro hturns
    rw [Option.eq_none_iff_forall_ne_some]
    intro t ht
    exact hthere t ht (hturns _ t ht)

/-! ## Sums -/

/-- The number at a place; zero where no number stands. -/
def numberAt (ts : List Token) (i : Nat) : Int :=
  match ts[i]? with
  | some (.number n) => n
  | _ => 0

/-- What the sign at a place multiplies the number behind it by; zero where no sign stands. -/
def factorAt (ts : List Token) (i : Nat) : Int :=
  match ts[i]? with
  | some .plus => 1
  | some .minus => -1
  | _ => 0

/-- The number at place zero and, for each odd place `2 * k + 1`, the number behind it with the sign
that stands there. -/
def sumByPlaces (ts : List Token) : Int :=
  numberAt ts 0 +
    ∑ k ∈ Finset.range (ts.length / 2), factorAt ts (2 * k + 1) * numberAt ts (2 * k + 2)

/-- A row has two tokens for each signed number. -/
theorem length_row (steps : List (Sign × Int)) : (row steps).length = 2 * steps.length := by
  induction steps with
  | nil => rfl
  | cons step steps ih =>
    obtain ⟨sign, n⟩ := step
    rw [row_cons, List.length_cons, List.length_cons, List.length_cons, ih]
    omega

/-- The tokens of a row take turns, a sign first. -/
theorem misplaced_row (steps : List (Sign × Int)) : misplaced false (row steps) = none := by
  induction steps with
  | nil => rfl
  | cons step steps ih =>
    obtain ⟨sign, n⟩ := step
    rw [row_cons, misplaced_pair, ih]

/-- In a row the signs stand at the even places, each before its number. -/
theorem sum_row (steps : List (Sign × Int)) :
    ∑ k ∈ Finset.range steps.length,
        factorAt (row steps) (2 * k) * numberAt (row steps) (2 * k + 1) =
      rowSum steps := by
  induction steps with
  | nil => rfl
  | cons step steps ih =>
    obtain ⟨sign, n⟩ := step
    have hhead : factorAt (row ((sign, n) :: steps)) 0 * numberAt (row ((sign, n) :: steps)) 1 =
        sign.factor * n := by
      cases sign <;> rfl
    rw [List.length_cons, Finset.sum_range_succ', rowSum_cons, ← ih, Int.add_comm]
    exact congrArg₂ _ hhead rfl

/-- A number and a row add up place by place. -/
theorem sumByPlaces_row (n : Int) (steps : List (Sign × Int)) :
    sumByPlaces (.number n :: row steps) = n + rowSum steps := by
  have hlength : (Token.number n :: row steps).length / 2 = steps.length := by
    rw [List.length_cons, length_row]
    omega
  unfold sumByPlaces
  rw [hlength, ← sum_row]
  rfl

/-- **The places of the tokens say what becomes of them.** A token is reported exactly if it
is the first one that stands where it does not belong. Otherwise the tokens end too early
exactly if they are even in number, and if they are odd in number they have a value, which is
the sum over the places. -/
theorem evaluateTokens_by_places (ts : List Token) :
    (∀ t, evaluateTokens ts = .error (.invalidToken t) ↔ ∃ i, IsFirstMisplaced ts i t) ∧
      (evaluateTokens ts = .error .unexpectedEnd ↔ TakesTurns ts ∧ Even ts.length) ∧
      ∀ total, evaluateTokens ts = .ok total ↔
        TakesTurns ts ∧ Odd ts.length ∧ total = sumByPlaces ts := by
  refine ⟨fun t => ?_, ?_, fun total => ?_⟩
  · rw [evaluateTokens_eq_invalid_iff, misplaced_eq_some_iff]
  · rw [evaluateTokens_eq_end_iff, misplaced_eq_none_iff, Nat.even_iff]
  · rw [evaluateTokens_eq_ok_iff, Nat.odd_iff, ← misplaced_eq_none_iff]
    constructor
    · rintro ⟨n, steps, rfl, rfl⟩
      refine ⟨misplaced_row steps, ?_, (sumByPlaces_row n steps).symm⟩
      rw [List.length_cons, length_row]
      omega
    · rintro ⟨hturn, hodd, rfl⟩
      obtain ⟨n, steps, rfl⟩ := exists_number_row hturn hodd
      exact ⟨n, steps, rfl, sumByPlaces_row n steps⟩

end LineSum

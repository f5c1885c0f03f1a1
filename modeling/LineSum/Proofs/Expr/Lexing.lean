import LineSum.Expr.Lexer
import Mathlib.Data.List.Basic
import Mathlib.Data.List.Induction
import Mathlib.Data.List.TakeWhile
import Mathlib.Data.Nat.Digits.Defs

/-!
# The rules of scanning

`Lexes` says which tokens a text is made of, rule by rule: spaces are dropped, signs stand for
themselves and a number is a run of digits that cannot be made longer. Scanning follows these rules:

* `scan_eq_ok_iff` : a text is scanned into the tokens that it is made of;
* `scan_eq_error_iff` : a text that cannot be scanned is refused at its first illegal character.

`Lexes.append` and `Lexes.append_fused` tell the tokens of two texts that are put together.
-/

namespace LineSum

variable {α : Type} [Legible α]

/-! ## Characters -/

/-- The characters that an expression is made of: the ASCII digits, the two signs and the space. -/
def IsLegal (c : α) : Prop :=
  isDigit c = true ∨ char? c = some '+' ∨ char? c = some '-' ∨ char? c = some ' '

instance : DecidablePred (IsLegal : α → Prop) := fun c =>
  inferInstanceAs (Decidable
    (isDigit c = true ∨ char? c = some '+' ∨ char? c = some '-' ∨ char? c = some ' '))

/-- In a text of characters each of them is the one it is. -/
@[simp] theorem char?_eq_some_iff {c d : Char} : char? c = some d ↔ c = d :=
  Option.some_inj

/-- Digits are legal. -/
theorem isLegal_of_isDigit {c : α} (h : isDigit c = true) : IsLegal c :=
  Or.inl h

/-- Other characters than digits are no digits. -/
theorem not_isDigit_of_char? {c : α} {d : Char} (h : char? c = some d) (hd : ¬ isDigit d = true) :
    ¬ isDigit c = true := by
  unfold isDigit
  rw [h]
  exact hd

/-- A text with an illegal character has a first one. -/
theorem exists_first_illegal {cs : List α} (h : ¬ ∀ c ∈ cs, IsLegal c) :
    ∃ pre c post, cs = pre ++ c :: post ∧ (∀ x ∈ pre, IsLegal x) ∧ ¬ IsLegal c := by
  push Not at h
  obtain ⟨d, hd, hill⟩ := h
  have hsome : (cs.find? fun c => !decide (IsLegal c)).isSome := by
    rw [List.find?_isSome]
    exact ⟨d, hd, by simp [hill]⟩
  obtain ⟨c, hc⟩ := Option.isSome_iff_exists.mp hsome
  obtain ⟨hbad, pre, post, rfl, hpre⟩ := List.find?_eq_some_iff_append.mp hc
  refine ⟨pre, c, post, rfl, fun x hx => ?_, by simpa using hbad⟩
  have := hpre x hx
  simpa using this

/-- Whether the first character is a digit. -/
def startsWithDigit (cs : List α) : Bool :=
  cs.head?.any isDigit

/-- Whether the last character is a digit. -/
def endsWithDigit (cs : List α) : Bool :=
  cs.getLast?.any isDigit

/-- A number runs across the cut between two texts when a digit stands on either side of it. -/
def RunsAcross (a b : List α) : Prop :=
  endsWithDigit a = true ∧ startsWithDigit b = true

/-- Nothing runs into the empty text. -/
theorem not_runsAcross_nil (a : List α) : ¬ RunsAcross a [] := by
  rintro ⟨-, h⟩
  cases h

/-- A text that does not end with a digit runs into nothing. -/
theorem not_runsAcross_of_end {a : List α} (h : endsWithDigit a = false) (b : List α) :
    ¬ RunsAcross a b := by
  rintro ⟨ha, -⟩
  rw [h] at ha
  cases ha

/-- The last character of a text decides, whatever stands in front. -/
theorem endsWithDigit_append (a : List α) {b : List α} (hb : b ≠ []) :
    endsWithDigit (a ++ b) = endsWithDigit b := by
  unfold endsWithDigit
  rw [List.getLast?_append_of_ne_nil _ hb]

/-- The first character of a text decides, whatever follows. -/
theorem startsWithDigit_append {a : List α} (ha : a ≠ []) (b : List α) :
    startsWithDigit (a ++ b) = startsWithDigit a := by
  unfold startsWithDigit
  rw [List.head?_append_of_ne_nil _ ha]

/-- A cut that no number crosses stays so when characters are added in front. -/
theorem not_runsAcross_of_append {a b tail : List α} (h : ¬ RunsAcross (a ++ b) tail) :
    ¬ RunsAcross b tail := by
  rintro ⟨hb, htail⟩
  have hne : b ≠ [] := by
    rintro rfl
    cases hb
  exact h ⟨by rw [endsWithDigit_append a hne]; exact hb, htail⟩

/-! ## Numerals -/

/-- A numeral is a run of one or more ASCII digits. -/
def IsNumeral (run : List α) : Prop :=
  run ≠ [] ∧ ∀ c ∈ run, isDigit c = true

/-- A numeral ends with a digit. -/
theorem IsNumeral.endsWithDigit {run : List α} (h : IsNumeral run) :
    endsWithDigit run = true := by
  obtain ⟨hne, hall⟩ := h
  unfold LineSum.endsWithDigit
  rw [List.getLast?_eq_some_getLast hne]
  exact hall _ (List.getLast_mem hne)

/-- A numeral that cannot be made longer stays so before a text that it does not run into. -/
theorem startsWithDigit_append_eq_false {run cs tail : List α} (hrun : IsNumeral run)
    (hcs : startsWithDigit cs = false) (hcut : ¬ RunsAcross (run ++ cs) tail) :
    startsWithDigit (cs ++ tail) = false := by
  by_cases hnil : cs = []
  · subst hnil
    rw [List.append_nil] at hcut
    rw [List.nil_append]
    exact Bool.eq_false_iff.mpr fun hstart => hcut ⟨hrun.endsWithDigit, hstart⟩
  · rw [startsWithDigit_append hnil]
    exact hcs

/-- Two numerals in a row are one numeral. -/
theorem IsNumeral.append {a b : List α} (ha : IsNumeral a) (hb : IsNumeral b) :
    IsNumeral (a ++ b) := by
  refine ⟨by simp [ha.1], fun c hc => ?_⟩
  rcases List.mem_append.mp hc with h | h
  · exact ha.2 c h
  · exact hb.2 c h

/-- The digits that a text starts with. -/
def leadingDigits (cs : List α) : List α :=
  cs.takeWhile isDigit

/-- Behind its leading digits a text goes on with something else. -/
theorem startsWithDigit_dropWhile (cs : List α) :
    startsWithDigit (cs.dropWhile isDigit) = false := by
  unfold startsWithDigit
  rw [Option.any_eq_false]
  intro d hd
  have hstop := List.head?_dropWhile_not isDigit cs
  rw [hd] at hstop
  simpa using hstop

/-- A run of digits that cannot be made longer is what the text starts with. -/
theorem leadingDigits_append {run rest : List α} (hrun : ∀ c ∈ run, isDigit c = true)
    (hrest : startsWithDigit rest = false) :
    leadingDigits (run ++ rest) = run ∧ (run ++ rest).dropWhile isDigit = rest := by
  have hstop : rest.takeWhile isDigit = [] ∧ rest.dropWhile isDigit = rest := by
    cases rest with
    | nil => exact ⟨rfl, rfl⟩
    | cons d rest =>
      have hd : ¬ isDigit d = true := Bool.eq_false_iff.mp hrest
      exact ⟨List.takeWhile_cons_of_neg hd, List.dropWhile_cons_of_neg hd⟩
  constructor
  · unfold leadingDigits
    rw [List.takeWhile_append_of_pos hrun, hstop.1, List.append_nil]
  · rw [List.dropWhile_append_of_pos hrun, hstop.2]

/-- A text that starts with a digit starts with a numeral that cannot be made longer. -/
theorem exists_leading_numeral {cs : List α} (h : startsWithDigit cs = true) :
    ∃ run rest, cs = run ++ rest ∧ IsNumeral run ∧ startsWithDigit rest = false := by
  cases cs with
  | nil => cases h
  | cons c cs =>
    have hc : isDigit c = true := h
    refine ⟨(c :: cs).takeWhile isDigit, (c :: cs).dropWhile isDigit,
      List.takeWhile_append_dropWhile.symm, ⟨?_, ?_⟩, startsWithDigit_dropWhile _⟩
    · rw [List.takeWhile_cons_of_pos hc]
      exact List.cons_ne_nil _ _
    · intro d hd
      exact List.mem_takeWhile_imp hd

/-- A text that ends with a digit ends with a numeral that cannot be made longer. -/
theorem exists_trailing_numeral {cs : List α} (h : endsWithDigit cs = true) :
    ∃ init run, cs = init ++ run ∧ IsNumeral run ∧ endsWithDigit init = false := by
  have hrev : startsWithDigit cs.reverse = true := by
    unfold startsWithDigit
    rw [List.head?_reverse]
    exact h
  obtain ⟨run, rest, hcs, ⟨hne, hall⟩, hrest⟩ := exists_leading_numeral hrev
  refine ⟨rest.reverse, run.reverse, ?_, ⟨by simpa using hne, fun c hc => ?_⟩, ?_⟩
  · rw [← List.reverse_append, ← hcs, List.reverse_reverse]
  · exact hall c (List.mem_reverse.mp hc)
  · unfold endsWithDigit
    rw [List.getLast?_reverse]
    exact hrest

/-- The number that a numeral stands for is its value in base ten. -/
theorem digitsValue_eq_ofDigits (run : List α) :
    digitsValue run = Nat.ofDigits 10 (run.reverse.map digitValue) := by
  induction run using List.reverseRecOn with
  | nil => rfl
  | append_singleton run c ih =>
    rw [List.reverse_append, List.reverse_singleton, List.singleton_append, List.map_cons,
      Nat.ofDigits_cons, ← ih]
    unfold digitsValue
    rw [List.foldl_append, List.foldl_cons, List.foldl_nil]
    ring

/-! ## The tokens of a text -/

/-- The tokens that a text is made of. -/
inductive Lexes : List α → List Token → Prop where
  | nil : Lexes [] []
  | space {c cs ts} : char? c = some ' ' → Lexes cs ts → Lexes (c :: cs) ts
  | plus {c cs ts} : char? c = some '+' → Lexes cs ts → Lexes (c :: cs) (.plus :: ts)
  | minus {c cs ts} : char? c = some '-' → Lexes cs ts → Lexes (c :: cs) (.minus :: ts)
  | number {run cs ts} : IsNumeral run → startsWithDigit cs = false → Lexes cs ts →
      Lexes (run ++ cs) (.number (digitsValue run) :: ts)

namespace Lexes

/-- A text with tokens has legal characters only. -/
theorem legal {cs : List α} {ts : List Token} (h : Lexes cs ts) : ∀ c ∈ cs, IsLegal c := by
  induction h with
  | nil =>
    intro c hc
    cases hc
  | space hspace _ ih =>
    rintro c (_ | ⟨_, hc⟩)
    · exact Or.inr (Or.inr (Or.inr hspace))
    · exact ih c hc
  | plus hplus _ ih =>
    rintro c (_ | ⟨_, hc⟩)
    · exact Or.inr (Or.inl hplus)
    · exact ih c hc
  | minus hminus _ ih =>
    rintro c (_ | ⟨_, hc⟩)
    · exact Or.inr (Or.inr (Or.inl hminus))
    · exact ih c hc
  | number hrun _ _ ih =>
    intro c hc
    rcases List.mem_append.mp hc with h | h
    · exact isLegal_of_isDigit (hrun.2 c h)
    · exact ih c h

/-- A numeral alone is one token. -/
theorem numeral {run : List α} (h : IsNumeral run) :
    Lexes run [.number (digitsValue run)] := by
  have := Lexes.number h rfl Lexes.nil
  rwa [List.append_nil] at this

/-- The tokens of two texts follow one another unless a number runs across the cut. -/
theorem append {a b : List α} {s t : List Token} (ha : Lexes a s) (hb : Lexes b t)
    (hcut : ¬ RunsAcross a b) : Lexes (a ++ b) (s ++ t) := by
  induction ha with
  | nil => exact hb
  | @space c cs ts hc _ ih => exact .space hc (ih (not_runsAcross_of_append (a := [c]) hcut))
  | @plus c cs ts hc _ ih => exact .plus hc (ih (not_runsAcross_of_append (a := [c]) hcut))
  | @minus c cs ts hc _ ih => exact .minus hc (ih (not_runsAcross_of_append (a := [c]) hcut))
  | @number run cs ts hrun hcs _ ih =>
    rw [List.append_assoc]
    exact .number hrun (startsWithDigit_append_eq_false hrun hcs hcut)
      (ih (not_runsAcross_of_append hcut))

/-- A number that runs across the cut between two texts becomes one token. -/
theorem append_fused {a b run run' : List α} {s t : List Token} (ha : Lexes a s)
    (hend : endsWithDigit a = false) (hrun : IsNumeral run) (hrun' : IsNumeral run')
    (hstart : startsWithDigit b = false) (hb : Lexes b t) :
    Lexes ((a ++ run) ++ (run' ++ b)) (s ++ .number (digitsValue (run ++ run')) :: t) := by
  have htail := Lexes.number (hrun.append hrun') hstart hb
  have hall := ha.append htail (not_runsAcross_of_end hend _)
  rw [List.append_assoc, ← List.append_assoc run run' b]
  exact hall

end Lexes

/-- Every text of legal characters has tokens. -/
theorem exists_lexes {cs : List α} (h : ∀ c ∈ cs, IsLegal c) : ∃ ts, Lexes cs ts := by
  induction hn : cs.length using Nat.strong_induction_on generalizing cs with
  | _ n ih =>
    cases cs with
    | nil => exact ⟨[], .nil⟩
    | cons c rest =>
      have hrest : ∃ ts, Lexes rest ts :=
        ih rest.length (by rw [← hn]; simp) (fun d hd => h d (List.mem_cons_of_mem c hd)) rfl
      rcases h c List.mem_cons_self with hc | hc | hc | hc
      · have hstart : startsWithDigit (c :: rest) = true := hc
        obtain ⟨run, post, hcs, hrun, hpost⟩ := exists_leading_numeral hstart
        have hlt : post.length < n := by
          rw [← hn, hcs, List.length_append]
          have := List.length_pos_of_ne_nil hrun.1
          omega
        obtain ⟨ts, hts⟩ := ih post.length hlt (fun d hd => h d (by
          rw [hcs]
          exact List.mem_append_right run hd)) rfl
        rw [hcs]
        exact ⟨_, .number hrun hpost hts⟩
      · obtain ⟨ts, hts⟩ := hrest
        exact ⟨_, .plus hc hts⟩
      · obtain ⟨ts, hts⟩ := hrest
        exact ⟨_, .minus hc hts⟩
      · obtain ⟨ts, hts⟩ := hrest
        exact ⟨_, .space hc hts⟩

/-! ## Scanning -/

namespace Cursor

/-- A space is passed over. -/
theorem scanFrom_space (position : Nat) {c : α} (hc : char? c = some ' ') (cs : List α) :
    scanFrom position (c :: cs) = scanFrom (position + 1) cs := by
  rw [scanFrom, if_neg (not_isDigit_of_char? hc (by decide)), hc]
  rfl

/-- A plus sign is a token. -/
theorem scanFrom_plus (position : Nat) {c : α} (hc : char? c = some '+') (cs : List α) :
    scanFrom position (c :: cs) =
      ((scanFrom (position + 1) cs).1.map (.plus :: ·), (scanFrom (position + 1) cs).2) := by
  rw [scanFrom, if_neg (not_isDigit_of_char? hc (by decide)), hc]
  rfl

/-- A minus sign is a token. -/
theorem scanFrom_minus (position : Nat) {c : α} (hc : char? c = some '-') (cs : List α) :
    scanFrom position (c :: cs) =
      ((scanFrom (position + 1) cs).1.map (.minus :: ·), (scanFrom (position + 1) cs).2) := by
  rw [scanFrom, if_neg (not_isDigit_of_char? hc (by decide)), hc]
  rfl

/-- A numeral that cannot be made longer is a token. -/
theorem scanFrom_numeral (position : Nat) {run cs : List α} (hrun : IsNumeral run)
    (hcs : startsWithDigit cs = false) :
    scanFrom position (run ++ cs) =
      ((scanFrom (position + run.length) cs).1.map (.number (digitsValue run) :: ·),
        (scanFrom (position + run.length) cs).2) := by
  obtain ⟨hne, hall⟩ := hrun
  obtain ⟨c, digits, rfl⟩ := List.exists_cons_of_ne_nil hne
  have hc : isDigit c = true := hall c List.mem_cons_self
  have hdigits : ∀ d ∈ digits, isDigit d = true := fun d hd => hall d (List.mem_cons_of_mem c hd)
  obtain ⟨htake, hdrop⟩ := leadingDigits_append hdigits hcs
  unfold leadingDigits at htake
  rw [List.cons_append, scanFrom, if_pos hc]
  simp only [htake, hdrop, List.length_cons]
  rw [show position + 1 + digits.length = position + (digits.length + 1) by omega]

/-- An illegal character stops the scan. -/
theorem scanFrom_illegal (position : Nat) {c : α} (hc : ¬ IsLegal c) (cs : List α) :
    scanFrom position (c :: cs) = (.error ⟨c, position⟩, ⟨position, c :: cs⟩) := by
  unfold IsLegal at hc
  push Not at hc
  obtain ⟨hdigit, hplus, hminus, hspace⟩ := hc
  rw [scanFrom, if_neg hdigit, if_neg hplus, if_neg hminus, if_neg hspace]

end Cursor

/-- Two changes of a result are one change. -/
theorem except_map_map {ε α β γ : Type} (x : Except ε α) (f : α → β) (g : β → γ) :
    (x.map f).map g = x.map fun a => g (f a) :=
  Functor.map_map f g x

/-- Scanning reads the tokens of a text and goes on behind it, unless a number runs across. -/
theorem Lexes.scanFrom_append {cs : List α} {ts : List Token} (h : Lexes cs ts)
    {tail : List α} (hcut : ¬ RunsAcross cs tail) (position : Nat) :
    Cursor.scanFrom position (cs ++ tail) =
      ((Cursor.scanFrom (position + cs.length) tail).1.map (ts ++ ·),
        (Cursor.scanFrom (position + cs.length) tail).2) := by
  induction h generalizing position with
  | nil =>
    show _ = ((Cursor.scanFrom position tail).1.map id, _)
    rw [List.nil_append, Except.map_id]
    rfl
  | @space c cs ts hc _ ih =>
    rw [List.cons_append, Cursor.scanFrom_space _ hc,
      ih (not_runsAcross_of_append (a := [c]) hcut), List.length_cons, Nat.add_right_comm,
      Nat.add_assoc]
  | @plus c cs ts hc _ ih =>
    rw [List.cons_append, Cursor.scanFrom_plus _ hc,
      ih (not_runsAcross_of_append (a := [c]) hcut), except_map_map, List.length_cons,
      Nat.add_right_comm, Nat.add_assoc]
    rfl
  | @minus c cs ts hc _ ih =>
    rw [List.cons_append, Cursor.scanFrom_minus _ hc,
      ih (not_runsAcross_of_append (a := [c]) hcut), except_map_map, List.length_cons,
      Nat.add_right_comm, Nat.add_assoc]
    rfl
  | @number run cs ts hrun hcs _ ih =>
    have hstart : startsWithDigit (cs ++ tail) = false :=
      startsWithDigit_append_eq_false hrun hcs hcut
    rw [List.append_assoc, Cursor.scanFrom_numeral position hrun hstart,
      ih (not_runsAcross_of_append hcut), except_map_map, List.length_append, Nat.add_assoc]
    rfl

namespace Lexes

/-- A text with tokens is scanned into them, up to its end. -/
theorem scanFrom_eq {cs : List α} {ts : List Token} (h : Lexes cs ts) (position : Nat) :
    Cursor.scanFrom position cs = (.ok ts, ⟨position + cs.length, []⟩) := by
  have := h.scanFrom_append (not_runsAcross_nil cs) position
  rw [List.append_nil] at this
  rw [this, Cursor.scanFrom]
  simp only [Except.map, List.append_nil]

/-- An illegal character behind a text with tokens is where the scan stops. -/
theorem scanFrom_append_illegal {cs : List α} {ts : List Token} (h : Lexes cs ts) {c : α}
    (hc : ¬ IsLegal c) (post : List α) (position : Nat) :
    Cursor.scanFrom position (cs ++ c :: post) =
      (.error ⟨c, position + cs.length⟩, ⟨position + cs.length, c :: post⟩) := by
  have hcut : ¬ RunsAcross cs (c :: post) := fun hruns => hc (isLegal_of_isDigit hruns.2)
  rw [h.scanFrom_append hcut, Cursor.scanFrom_illegal _ hc]
  rfl

/-- A text has no two sequences of tokens. -/
theorem unique {cs : List α} {ts us : List Token} (h : Lexes cs ts) (h' : Lexes cs us) :
    ts = us := by
  have heq := (h.scanFrom_eq 0).symm.trans (h'.scanFrom_eq 0)
  simp only [Prod.mk.injEq, Except.ok.injEq] at heq
  exact heq.1

/-- A text that ends with a digit ends with a number, which is its last token. -/
theorem exists_last_number {cs : List α} {ts : List Token} (h : Lexes cs ts)
    (hend : endsWithDigit cs = true) :
    ∃ init run ss, cs = init ++ run ∧ IsNumeral run ∧ endsWithDigit init = false ∧
      Lexes init ss ∧ ts = ss ++ [.number (digitsValue run)] := by
  obtain ⟨init, run, rfl, hrun, hinit⟩ := exists_trailing_numeral hend
  obtain ⟨ss, hss⟩ := exists_lexes fun c hc => h.legal c (List.mem_append_left run hc)
  exact ⟨init, run, ss, rfl, hrun, hinit, hss,
    h.unique (hss.append (.numeral hrun) (not_runsAcross_of_end hinit run))⟩

/-- A text that starts with a digit starts with a number, which is its first token. -/
theorem exists_first_number {cs : List α} {ts : List Token} (h : Lexes cs ts)
    (hstart : startsWithDigit cs = true) :
    ∃ run rest us, cs = run ++ rest ∧ IsNumeral run ∧ startsWithDigit rest = false ∧
      Lexes rest us ∧ ts = .number (digitsValue run) :: us := by
  obtain ⟨run, rest, rfl, hrun, hrest⟩ := exists_leading_numeral hstart
  obtain ⟨us, hus⟩ := exists_lexes fun c hc => h.legal c (List.mem_append_right run hc)
  exact ⟨run, rest, us, rfl, hrun, hrest, hus, h.unique (.number hrun hrest hus)⟩

end Lexes

namespace Cursor

/-- Characters with tokens are scanned into them. -/
theorem scanFrom_eq_of_lexes {cs : List α} {ts : List Token} (h : Lexes cs ts) :
    (scanFrom 0 cs).1 = .ok ts :=
  congrArg Prod.fst (h.scanFrom_eq 0)

/-- Characters are refused at the first illegal one. -/
theorem scanFrom_eq_of_first_illegal {pre post : List α} {c : α} (hpre : ∀ x ∈ pre, IsLegal x)
    (hc : ¬ IsLegal c) : (scanFrom 0 (pre ++ c :: post)).1 = .error ⟨c, pre.length⟩ := by
  obtain ⟨us, hus⟩ := exists_lexes hpre
  have herr := congrArg Prod.fst (hus.scanFrom_append_illegal hc post 0)
  rwa [Nat.zero_add] at herr

/-- Characters are scanned into the tokens that they make up, and into no others. -/
theorem scanFrom_eq_ok_iff {cs : List α} {ts : List Token} :
    (scanFrom 0 cs).1 = .ok ts ↔ Lexes cs ts := by
  constructor
  · intro hscan
    by_cases hlegal : ∀ c ∈ cs, IsLegal c
    · obtain ⟨us, hus⟩ := exists_lexes hlegal
      have heq := (scanFrom_eq_of_lexes hus).symm.trans hscan
      rw [Except.ok.injEq] at heq
      rwa [heq] at hus
    · obtain ⟨pre, c, post, rfl, hpre, hc⟩ := exists_first_illegal hlegal
      cases (scanFrom_eq_of_first_illegal hpre hc).symm.trans hscan
  · exact scanFrom_eq_of_lexes

/-- Characters that cannot be scanned are refused at the first illegal one. -/
theorem scanFrom_eq_error_iff {cs : List α} {e : InvalidCharacter α} :
    (scanFrom 0 cs).1 = .error e ↔ ∃ pre post, cs = pre ++ e.character :: post ∧
      (∀ c ∈ pre, IsLegal c) ∧ ¬ IsLegal e.character ∧ e.position = pre.length := by
  constructor
  · intro hscan
    have hillegal : ¬ ∀ c ∈ cs, IsLegal c := by
      intro hlegal
      obtain ⟨us, hus⟩ := exists_lexes hlegal
      cases (scanFrom_eq_of_lexes hus).symm.trans hscan
    obtain ⟨pre, c, post, rfl, hpre, hc⟩ := exists_first_illegal hillegal
    have heq := (scanFrom_eq_of_first_illegal hpre hc).symm.trans hscan
    rw [Except.error.injEq] at heq
    rw [← heq]
    exact ⟨pre, post, rfl, hpre, hc, rfl⟩
  · rintro ⟨pre, post, rfl, hpre, hc, hposition⟩
    rw [scanFrom_eq_of_first_illegal hpre hc, ← hposition]

end Cursor

/-- A text is scanned into the tokens that it is made of, and into no others. -/
theorem scan_eq_ok_iff {text : String} {ts : List Token} :
    scan text = .ok ts ↔ Lexes text.toList ts :=
  Cursor.scanFrom_eq_ok_iff

/-- A text that cannot be scanned is refused at its first illegal character. -/
theorem scan_eq_error_iff {text : String} {e : InvalidCharacter Char} :
    scan text = .error e ↔ ∃ pre post, text.toList = pre ++ e.character :: post ∧
      (∀ c ∈ pre, IsLegal c) ∧ ¬ IsLegal e.character ∧ e.position = pre.length :=
  Cursor.scanFrom_eq_error_iff

/-- The character that is refused stands in the text. -/
theorem mem_of_scan_eq_error {text : String} {e : InvalidCharacter Char}
    (h : scan text = .error e) :
    e.character ∈ text.toList := by
  obtain ⟨pre, post, htext, -⟩ := scan_eq_error_iff.mp h
  rw [htext]
  exact List.mem_append_right _ List.mem_cons_self

end LineSum

import LineSum.Proofs.Expr.Lexing

/-!
# A cursor in use

A cursor can be asked to look ahead, to move on, to read a number and to read all tokens, in any
order and also after a failure. Whatever it has been asked, it stands in its text, it does not go
back, and it answers as if the text began where it stands. Reading is done by looking and moving on,
one character at a time, and does not go past the end of the text.
-/

namespace LineSum

namespace Cursor

variable {α : Type}

/-! ## Places -/

/-- The cursor that stands so many characters further on. -/
def forward (c : Cursor α) (n : Nat) : Cursor α :=
  ⟨c.position + n, c.ahead.drop n⟩

/-- Two ways forward are one. -/
theorem forward_forward (c : Cursor α) (m n : Nat) :
    (c.forward m).forward n = c.forward (m + n) := by
  unfold forward
  rw [List.drop_drop, Nat.add_assoc]

/-- Going forward over the first part of what is ahead leaves the second part. -/
theorem forward_of_ahead {c : Cursor α} {passed behind : List α} (h : c.ahead = passed ++ behind) :
    c.forward passed.length = ⟨c.position + passed.length, behind⟩ := by
  unfold forward
  rw [h, List.drop_left]

/-! ## One character at a time -/

/-- Moving on leaves less ahead. -/
theorem length_ahead_of_advance {c c' : Cursor α} (h : c.advance = .ok c') :
    c'.ahead.length < c.ahead.length := by
  obtain ⟨position, ahead⟩ := c
  cases ahead with
  | nil => cases h
  | cons d rest =>
    cases h
    exact Nat.lt_succ_self _

variable [Legible α]

/-- Reads a number digit by digit: as long as a digit is ahead, it is put behind those of `value`
and moved past. -/
def takeDigits (value : Nat) (c : Cursor α) : Except CursorMisuse (Nat × Cursor α) :=
  match c.peek with
  | none => .ok (value, c)
  | some d =>
    if isDigit d then
      match _h : c.advance with
      | .error e => .error e
      | .ok c' => takeDigits (value * 10 + digitValue d) c'
    else .ok (value, c)
termination_by c.ahead.length
decreasing_by exact length_ahead_of_advance _h

/-- Digit by digit a whole run of digits is read, and no move goes past the end. -/
theorem takeDigits_run (value position : Nat) {run rest : List α}
    (hrun : ∀ d ∈ run, isDigit d = true) (hrest : startsWithDigit rest = false) :
    takeDigits value ⟨position, run ++ rest⟩ = .ok
      (run.foldl (fun value d => value * 10 + digitValue d) value,
        ⟨position + run.length, rest⟩) := by
  induction run generalizing value position with
  | nil =>
    cases rest with
    | nil => rw [takeDigits]; rfl
    | cons d rest =>
      have hd : ¬ isDigit d = true := Bool.eq_false_iff.mp hrest
      rw [takeDigits]
      exact if_neg hd
  | cons d run ih =>
    have hd : isDigit d = true := hrun d List.mem_cons_self
    have hmore := ih (value * 10 + digitValue d) (position + 1)
      fun e he => hrun e (List.mem_cons_of_mem d he)
    rw [takeDigits]
    refine (if_pos hd).trans ?_
    rw [List.foldl_cons, List.length_cons, ← Nat.add_assoc, Nat.add_right_comm]
    exact hmore

/-- Reading a number digit by digit gives what reading it at once gives. -/
theorem takeDigits_zero (c : Cursor α) : c.takeDigits 0 = .ok c.takeNumber := by
  have hrun : ∀ d ∈ c.ahead.takeWhile isDigit, isDigit d = true :=
    fun d hd => List.mem_takeWhile_imp hd
  have h := takeDigits_run 0 c.position hrun (startsWithDigit_dropWhile c.ahead)
  rw [List.takeWhile_append_dropWhile] at h
  exact h

/-- A number that is read where a digit is ahead leaves less ahead. -/
theorem length_ahead_of_takeDigits {c c' : Cursor α} {value : Nat} {d : α}
    (hpeek : c.peek = some d) (hd : isDigit d = true) (h : c.takeDigits 0 = .ok (value, c')) :
    c'.ahead.length < c.ahead.length := by
  obtain ⟨position, ahead⟩ := c
  cases ahead with
  | nil => cases hpeek
  | cons e rest =>
    cases hpeek
    rw [takeDigits_zero] at h
    cases h
    show ((d :: rest).dropWhile isDigit).length < (d :: rest).length
    rw [List.dropWhile_cons_of_pos hd, List.length_cons]
    exact Nat.lt_succ_of_le (length_dropWhile_le isDigit rest)

/-- Reads tokens one by one and puts them behind `tokens`, until the text ends or a character is
refused: numbers digit by digit, and signs and spaces by moving past them. -/
def takeTokens (tokens : List Token) (c : Cursor α) :
    Except CursorMisuse (Except (InvalidCharacter α) (List Token) × Cursor α) :=
  match _hpeek : c.peek with
  | none => .ok (.ok tokens, c)
  | some d =>
    if _hd : isDigit d = true then
      match _h : c.takeDigits 0 with
      | .error e => .error e
      | .ok (value, c') => takeTokens (tokens ++ [.number value]) c'
    else if char? d = some '+' then
      match _h : c.advance with
      | .error e => .error e
      | .ok c' => takeTokens (tokens ++ [.plus]) c'
    else if char? d = some '-' then
      match _h : c.advance with
      | .error e => .error e
      | .ok c' => takeTokens (tokens ++ [.minus]) c'
    else if char? d = some ' ' then
      match _h : c.advance with
      | .error e => .error e
      | .ok c' => takeTokens tokens c'
    else .ok (.error ⟨d, c.position⟩, c)
termination_by c.ahead.length
decreasing_by
  · exact length_ahead_of_takeDigits _hpeek _hd _h
  all_goals exact length_ahead_of_advance _h

/-- At the end no more tokens are read. -/
theorem takeTokens_nil (tokens : List Token) (position : Nat) :
    takeTokens tokens (⟨position, []⟩ : Cursor α) = .ok (.ok tokens, ⟨position, []⟩) := by
  rw [takeTokens]
  rfl

/-- A space is moved past. -/
theorem takeTokens_space (tokens : List Token) (position : Nat) {d : α} (hd : char? d = some ' ')
    (cs : List α) :
    takeTokens tokens ⟨position, d :: cs⟩ = takeTokens tokens ⟨position + 1, cs⟩ := by
  rw [takeTokens]
  refine (dif_neg (not_isDigit_of_char? hd (by decide))).trans ?_
  rw [hd]
  rfl

/-- A plus sign is a token. -/
theorem takeTokens_plus (tokens : List Token) (position : Nat) {d : α} (hd : char? d = some '+')
    (cs : List α) :
    takeTokens tokens ⟨position, d :: cs⟩ =
      takeTokens (tokens ++ [.plus]) ⟨position + 1, cs⟩ := by
  rw [takeTokens]
  refine (dif_neg (not_isDigit_of_char? hd (by decide))).trans ?_
  rw [hd]
  rfl

/-- A minus sign is a token. -/
theorem takeTokens_minus (tokens : List Token) (position : Nat) {d : α} (hd : char? d = some '-')
    (cs : List α) :
    takeTokens tokens ⟨position, d :: cs⟩ =
      takeTokens (tokens ++ [.minus]) ⟨position + 1, cs⟩ := by
  rw [takeTokens]
  refine (dif_neg (not_isDigit_of_char? hd (by decide))).trans ?_
  rw [hd]
  rfl

/-- A numeral that cannot be made longer is a token. -/
theorem takeTokens_numeral (tokens : List Token) (position : Nat) {run cs : List α}
    (hrun : IsNumeral run) (hcs : startsWithDigit cs = false) :
    takeTokens tokens ⟨position, run ++ cs⟩ =
      takeTokens (tokens ++ [.number (digitsValue run)]) ⟨position + run.length, cs⟩ := by
  have hdigits := takeDigits_run 0 position hrun.2 hcs
  obtain ⟨hne, hall⟩ := hrun
  obtain ⟨d, digits, rfl⟩ := List.exists_cons_of_ne_nil hne
  rw [takeTokens]
  refine (dif_pos (hall d List.mem_cons_self)).trans ?_
  split
  case h_1 e h => cases hdigits.symm.trans h
  case h_2 value c' h =>
    cases hdigits.symm.trans h
    rfl

/-- An illegal character is refused. -/
theorem takeTokens_illegal (tokens : List Token) (position : Nat) {d : α} (hd : ¬ IsLegal d)
    (cs : List α) :
    takeTokens tokens ⟨position, d :: cs⟩ = .ok (.error ⟨d, position⟩, ⟨position, d :: cs⟩) := by
  unfold IsLegal at hd
  push Not at hd
  obtain ⟨hdigit, hplus, hminus, hspace⟩ := hd
  rw [takeTokens]
  refine (dif_neg hdigit).trans ?_
  rw [if_neg hplus, if_neg hminus, if_neg hspace]

end Cursor

/-- Token by token the tokens of a text are read, unless a number runs across its end. -/
theorem Lexes.takeTokens_append {α : Type} [Legible α] {cs : List α} {ts : List Token}
    (h : Lexes cs ts) {tail : List α} (hcut : ¬ RunsAcross cs tail) (tokens : List Token)
    (position : Nat) :
    Cursor.takeTokens tokens ⟨position, cs ++ tail⟩ =
      Cursor.takeTokens (tokens ++ ts) ⟨position + cs.length, tail⟩ := by
  induction h generalizing tokens position with
  | nil => rw [List.nil_append, List.append_nil, List.length_nil, Nat.add_zero]
  | @space c cs ts hc _ ih =>
    rw [List.cons_append, Cursor.takeTokens_space _ _ hc,
      ih (not_runsAcross_of_append (a := [c]) hcut),
      List.length_cons, Nat.add_right_comm, Nat.add_assoc]
  | @plus c cs ts hc _ ih =>
    rw [List.cons_append, Cursor.takeTokens_plus _ _ hc,
      ih (not_runsAcross_of_append (a := [c]) hcut),
      List.append_assoc, List.singleton_append, List.length_cons, Nat.add_right_comm, Nat.add_assoc]
  | @minus c cs ts hc _ ih =>
    rw [List.cons_append, Cursor.takeTokens_minus _ _ hc,
      ih (not_runsAcross_of_append (a := [c]) hcut),
      List.append_assoc, List.singleton_append, List.length_cons, Nat.add_right_comm, Nat.add_assoc]
  | @number run cs ts hrun hcs _ ih =>
    have hstart : startsWithDigit (cs ++ tail) = false :=
      startsWithDigit_append_eq_false hrun hcs hcut
    rw [List.append_assoc, Cursor.takeTokens_numeral tokens position hrun hstart,
      ih (not_runsAcross_of_append hcut), List.append_assoc, List.singleton_append,
      List.length_append, Nat.add_assoc]

namespace Cursor

/-! ## Reading from a place -/

/-- The text that is still ahead. -/
def rest (c : Cursor) : String :=
  String.ofList c.ahead

/-- A cursor whose rest has tokens reads them up to the end. -/
theorem scan_of_rest_ok {c : Cursor} {ts : List Token} (h : LineSum.scan c.rest = .ok ts) :
    c.scan = (.ok ts, c.forward c.ahead.length) ∧ c.takeTokens [] = .ok c.scan := by
  obtain ⟨position, ahead⟩ := c
  have hlexes := scan_eq_ok_iff.mp h
  rw [rest, String.toList_ofList] at hlexes
  have hscan : (⟨position, ahead⟩ : Cursor).scan = (.ok ts, ⟨position + ahead.length, []⟩) :=
    hlexes.scanFrom_eq position
  have hsteps := hlexes.takeTokens_append (not_runsAcross_nil ahead) [] position
  rw [List.append_nil, List.nil_append, takeTokens_nil] at hsteps
  refine ⟨?_, hsteps.trans (congrArg Except.ok hscan.symm)⟩
  rw [hscan, forward, List.drop_length]

/-- A cursor whose rest is refused stops on the character that is refused. -/
theorem scan_of_rest_error {c : Cursor} {e : InvalidCharacter Char}
    (h : LineSum.scan c.rest = .error e) :
    c.scan = (.error ⟨e.character, c.position + e.position⟩, c.forward e.position) ∧
      c.takeTokens [] = .ok c.scan ∧ (c.forward e.position).peek = some e.character ∧
      (c.forward e.position).scan = c.scan := by
  obtain ⟨position, ahead⟩ := c
  obtain ⟨pre, post, htext, hpre, hc, hposition⟩ := scan_eq_error_iff.mp h
  rw [rest, String.toList_ofList] at htext
  obtain ⟨ts, hlexes⟩ := exists_lexes hpre
  subst htext
  have hcut : ¬ RunsAcross pre (e.character :: post) := fun hruns => hc (isLegal_of_isDigit hruns.2)
  have hscan : (⟨position, pre ++ e.character :: post⟩ : Cursor).scan = _ :=
    hlexes.scanFrom_append_illegal hc post position
  have hsteps := hlexes.takeTokens_append hcut [] position
  rw [takeTokens_illegal _ _ hc] at hsteps
  have hstop : forward ⟨position, pre ++ e.character :: post⟩ e.position =
      ⟨position + e.position, e.character :: post⟩ := by
    rw [hposition]
    exact forward_of_ahead rfl
  rw [← hposition] at hscan hsteps
  rw [hstop]
  refine ⟨hscan, hsteps.trans (congrArg Except.ok hscan.symm), rfl, ?_⟩
  exact (scanFrom_illegal _ hc post).trans hscan.symm

/-- Reading token by token gives what reading all tokens at once gives. -/
theorem takeTokens_eq_scan (c : Cursor) : c.takeTokens [] = .ok c.scan := by
  cases h : LineSum.scan c.rest with
  | ok ts => exact (scan_of_rest_ok h).2
  | error e => exact (scan_of_rest_error h).2.1

/-- A number is read from the longest run of digits ahead, in base ten. -/
theorem takeNumber_of_run {c : Cursor} {run behind : List Char} (h : c.ahead = run ++ behind)
    (hrun : ∀ d ∈ run, isDigit d = true) (hbehind : startsWithDigit behind = false) :
    c.takeNumber = (Nat.ofDigits 10 (run.reverse.map digitValue), c.forward run.length) := by
  obtain ⟨htake, hdrop⟩ := leadingDigits_append hrun hbehind
  rw [← h] at htake hdrop
  unfold leadingDigits at htake
  rw [forward_of_ahead h, ← digitsValue_eq_ofDigits]
  unfold takeNumber skipWhile
  rw [htake, hdrop]

/-- What is ahead begins with a longest run of digits, from which a number is read. -/
theorem exists_run (c : Cursor) :
    ∃ run behind, c.ahead = run ++ behind ∧ (∀ d ∈ run, isDigit d = true) ∧
      startsWithDigit behind = false ∧
      c.takeNumber = (Nat.ofDigits 10 (run.reverse.map digitValue), c.forward run.length) := by
  have hsplit : c.ahead = leadingDigits c.ahead ++ c.ahead.dropWhile isDigit :=
    List.takeWhile_append_dropWhile.symm
  have hrun : ∀ d ∈ leadingDigits c.ahead, isDigit d = true := fun d hd => List.mem_takeWhile_imp hd
  have hbehind := startsWithDigit_dropWhile c.ahead
  exact ⟨_, _, hsplit, hrun, hbehind, takeNumber_of_run hsplit hrun hbehind⟩

/-! ## Calls -/

/-- What can be asked of a cursor. -/
inductive Call where
  | peek
  | advance
  | takeNumber
  | scan
  deriving DecidableEq, Repr

/-- What a cursor answers. -/
inductive Answer where
  | next (character : Option Char)
  | moved
  | misused (mistake : CursorMisuse)
  | number (value : Nat)
  | scanned (result : Except (InvalidCharacter Char) (List Token))

/-- The answer to a call and the cursor behind it; a call that is a mistake moves nothing. -/
def perform (c : Cursor) : Call → Answer × Cursor
  | .peek => (.next c.peek, c)
  | .advance =>
    match c.advance with
    | .ok c' => (.moved, c')
    | .error mistake => (.misused mistake, c)
  | .takeNumber => (.number c.takeNumber.1, c.takeNumber.2)
  | .scan => (.scanned c.scan.1, c.scan.2)

/-- The cursor behind a row of calls. -/
def after (c : Cursor) (calls : List Call) : Cursor :=
  calls.foldl (fun c call => (c.perform call).2) c

/-- A call moves the cursor forward, at most to the end. -/
theorem exists_forward_perform (c : Cursor) (call : Call) :
    ∃ n, n ≤ c.ahead.length ∧ (c.perform call).2 = c.forward n := by
  cases call with
  | peek => exact ⟨0, Nat.zero_le _, rfl⟩
  | advance =>
    obtain ⟨position, ahead⟩ := c
    cases ahead with
    | nil => exact ⟨0, Nat.zero_le _, rfl⟩
    | cons d rest => exact ⟨1, Nat.succ_le_succ (Nat.zero_le _), rfl⟩
  | takeNumber =>
    obtain ⟨run, behind, hsplit, -, -, hnumber⟩ := c.exists_run
    refine ⟨run.length, ?_, congrArg Prod.snd hnumber⟩
    rw [hsplit, List.length_append]
    exact Nat.le_add_right _ _
  | scan =>
    cases h : LineSum.scan c.rest with
    | ok ts => exact ⟨_, le_rfl, congrArg Prod.snd (scan_of_rest_ok h).1⟩
    | error e =>
      refine ⟨e.position, ?_, congrArg Prod.snd (scan_of_rest_error h).1⟩
      obtain ⟨pre, post, htext, -, -, hposition⟩ := scan_eq_error_iff.mp h
      rw [rest, String.toList_ofList] at htext
      rw [htext, hposition, List.length_append]
      exact Nat.le_add_right _ _

/-- A row of calls moves the cursor forward, at most to the end. -/
theorem exists_forward_after (c : Cursor) (calls : List Call) :
    ∃ n, n ≤ c.ahead.length ∧ c.after calls = c.forward n := by
  unfold after
  induction calls generalizing c with
  | nil => exact ⟨0, Nat.zero_le _, rfl⟩
  | cons call calls ih =>
    obtain ⟨m, hm, hcall⟩ := c.exists_forward_perform call
    rw [List.foldl_cons, hcall]
    obtain ⟨n, hn, hcalls⟩ := ih (c.forward m)
    refine ⟨m + n, ?_, hcalls.trans (c.forward_forward m n)⟩
    have hleft : (c.forward m).ahead.length = c.ahead.length - m := List.length_drop
    omega

/-- A cursor can be moved on unless it is at the end. -/
theorem perform_advance (c : Cursor) :
    c.perform .advance =
      if c.ahead = [] then (.misused .pastEnd, c) else (.moved, c.forward 1) := by
  obtain ⟨position, ahead⟩ := c
  cases ahead with
  | nil => rfl
  | cons d rest => rfl

/-- The only mistake is to move on at the end. -/
theorem misused_iff (c : Cursor) (call : Call) :
    (∃ mistake, (c.perform call).1 = .misused mistake) ↔ call = .advance ∧ c.ahead = [] := by
  cases call with
  | advance =>
    rw [perform_advance]
    by_cases hahead : c.ahead = []
    · rw [if_pos hahead]
      exact iff_of_true ⟨_, rfl⟩ ⟨rfl, hahead⟩
    · rw [if_neg hahead]
      exact iff_of_false (fun ⟨_, h⟩ => nomatch h) fun h => hahead h.2
  | peek => exact iff_of_false (fun ⟨_, h⟩ => nomatch h) fun h => nomatch h.1
  | takeNumber => exact iff_of_false (fun ⟨_, h⟩ => nomatch h) fun h => nomatch h.1
  | scan => exact iff_of_false (fun ⟨_, h⟩ => nomatch h) fun h => nomatch h.1

/-! ## Service -/

/-- What a cursor in a text does, whatever has been asked of it before. -/
structure Serves (text : String) (c : Cursor) : Prop where
  /-- The cursor stands in the text, and what it has not passed is ahead. -/
  inText : c.position ≤ text.length ∧ c.ahead = text.toList.drop c.position
  /-- Looking ahead shows the character behind the cursor and moves nothing. -/
  peek : c.perform .peek = (.next text.toList[c.position]?, c)
  /-- Before the end the cursor can be moved on by one character. -/
  advance : c.position < text.length → c.perform .advance = (.moved, c.forward 1)
  /-- At the end it cannot, and stays where it is. -/
  advance_end : c.position = text.length → c.perform .advance = (.misused .pastEnd, c)
  /-- No other call is a mistake. -/
  misused_iff : ∀ call, (∃ mistake, (c.perform call).1 = .misused mistake) ↔
    call = .advance ∧ c.position = text.length
  /-- Looking and moving on by one character at a time reads numbers and
  tokens without a mistake. -/
  stepwise : c.takeDigits 0 = .ok c.takeNumber ∧ c.takeTokens [] = .ok c.scan
  /-- A number is the longest run of digits ahead, read in base ten and passed. -/
  takeNumber : ∃ run behind, c.ahead = run ++ behind ∧ (∀ d ∈ run, isDigit d = true) ∧
    startsWithDigit behind = false ∧
    c.perform .takeNumber =
      (.number (Nat.ofDigits 10 (run.reverse.map digitValue)), c.forward run.length)
  /-- Where no digit is ahead, the number is zero and nothing is passed. -/
  takeNumber_zero : startsWithDigit c.ahead = false → c.perform .takeNumber = (.number 0, c)
  /-- The tokens that are read are those of the rest of the text, and the
  cursor is then at the end. -/
  scan_ok : ∀ ts, LineSum.scan c.rest = .ok ts →
    c.perform .scan = (.scanned (.ok ts), ⟨text.length, []⟩)
  /-- What is refused in the rest of the text is refused at its place in the text. The cursor stops
  on it, and refuses it again. -/
  scan_error : ∀ e, LineSum.scan c.rest = .error e →
    c.perform .scan =
      (.scanned (.error ⟨e.character, c.position + e.position⟩), c.forward e.position) ∧
    (c.forward e.position).peek = some e.character ∧
    (c.forward e.position).perform .scan = c.perform .scan

/-- At every place of a text a cursor serves. -/
theorem serves_forward {text : String} {n : Nat} (hn : n ≤ text.length) :
    ((ofText text).forward n).Serves text := by
  let c : Cursor := ⟨n, text.toList.drop n⟩
  have hplace : (ofText text).forward n = c := by
    unfold forward ofText
    rw [Nat.zero_add]
  have hlength : c.ahead.length = text.length - n := by
    rw [List.length_drop, String.length_toList]
  have hend : c.ahead = [] ↔ c.position = text.length := by
    rw [← List.length_eq_zero_iff, hlength]
    show text.length - n = 0 ↔ n = text.length
    omega
  have hadvance := c.perform_advance
  rw [hplace]
  constructor
  case inText => exact ⟨hn, rfl⟩
  case peek =>
    show (Answer.next c.ahead.head?, c) = _
    rw [List.head?_drop]
  case advance =>
    intro hlt
    rwa [if_neg (mt hend.mp (Nat.ne_of_lt hlt))] at hadvance
  case advance_end =>
    intro heq
    rwa [if_pos (hend.mpr heq)] at hadvance
  case misused_iff =>
    intro call
    rw [← hend]
    exact c.misused_iff call
  case stepwise => exact ⟨c.takeDigits_zero, c.takeTokens_eq_scan⟩
  case takeNumber =>
    obtain ⟨run, behind, hsplit, hrun, hbehind, hnumber⟩ := c.exists_run
    exact ⟨run, behind, hsplit, hrun, hbehind, by rw [perform, hnumber]⟩
  case takeNumber_zero =>
    intro hstart
    have hnumber := takeNumber_of_run (List.nil_append c.ahead).symm (List.forall_mem_nil _) hstart
    rw [perform, hnumber]
    rfl
  case scan_ok =>
    intro ts h
    have hstop : c.forward c.ahead.length = ⟨text.length, []⟩ := by
      have hposition : c.position + c.ahead.length = text.length := by
        rw [hlength]
        exact Nat.add_sub_cancel' hn
      unfold forward
      rw [List.drop_length, hposition]
    rw [perform, (scan_of_rest_ok h).1, hstop]
  case scan_error =>
    intro e h
    obtain ⟨hscan, -, hpeek, hagain⟩ := scan_of_rest_error h
    refine ⟨by rw [perform, hscan], hpeek, ?_⟩
    unfold perform
    rw [hagain]

/-- **Whatever has been asked of a cursor, it serves**, and whatever is asked of it next, it does
not go back. -/
theorem serves_text (text : String) (calls more : List Call) :
    ((ofText text).after calls).Serves text ∧
      ((ofText text).after calls).position ≤ ((ofText text).after (calls ++ more)).position := by
  obtain ⟨n, hn, hcalls⟩ := (ofText text).exists_forward_after calls
  obtain ⟨m, -, hmore⟩ := ((ofText text).after calls).exists_forward_after more
  constructor
  · rw [hcalls]
    exact serves_forward hn
  · have happend : (ofText text).after (calls ++ more) = ((ofText text).after calls).after more :=
      List.foldl_append
    rw [happend, hmore]
    exact Nat.le_add_right _ _

/-- Behind the first digit of a number the rest of the text is read up to a letter, which is refused
again and again. -/
theorem serves_text_within_number :
    let c := (ofText "12a").after [.advance]
    LineSum.scan c.rest = .error ⟨'a', 1⟩ ∧
      c.perform .scan = (.scanned (.error ⟨'a', 2⟩), ⟨2, ['a']⟩) ∧
      (⟨2, ['a']⟩ : Cursor).perform .scan = c.perform .scan := by
  intro c
  have hserves : c.Serves "12a" := (serves_text "12a" [.advance] []).1
  have hrest : LineSum.scan c.rest = .error ⟨'a', 1⟩ := by decide +kernel
  obtain ⟨hscan, -, hagain⟩ := hserves.scan_error _ hrest
  have hplace : c.position + 1 = 2 := by decide +kernel
  have hstop : c.forward 1 = ⟨2, ['a']⟩ := by decide +kernel
  rw [hplace, hstop] at hscan
  rw [hstop] at hagain
  exact ⟨hrest, hscan, hagain⟩

end Cursor

end LineSum

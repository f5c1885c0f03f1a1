import LineSum.Proofs.Expr.Turns

/-!
# A reader in use

A reader can be asked for the next token, for a number and for the value of all tokens, in any order
and also after a failure. Whatever it has been asked, it has handed out each token in front of its
place once and in order, and it sums up what is ahead as if the tokens began there. To show what it
hands out, a `Recorder` writes every token down that is read, and reads by asking for the next token
only.
-/

namespace LineSum

/-! ## How far a sum is read -/

/-- How many tokens are read to sum them up: those that take turns and the one behind them. -/
def readCount (numberDue : Bool) (ts : List Token) : Nat :=
  min (turnCount numberDue ts + 1) ts.length

/-- A number in place of a sign is read. -/
theorem readCount_number (n : Int) (ts : List Token) : readCount false (.number n :: ts) = 1 := by
  unfold readCount
  rw [List.length_cons]
  exact Nat.min_eq_left (Nat.succ_le_succ (Nat.zero_le _))

/-- A sign that is the last token is read. -/
theorem readCount_lone (sign : Sign) : readCount false [sign.token] = 1 := by
  cases sign <;> rfl

/-- A sign and the number behind it are read, and the reading goes on. -/
theorem readCount_pair (sign : Sign) (n : Int) (ts : List Token) :
    readCount false (sign.token :: .number n :: ts) = readCount false ts + 2 := by
  have hturns : turnCount false (sign.token :: .number n :: ts) = turnCount false ts + 2 := by
    cases sign <;> rfl
  unfold readCount
  rw [hturns, List.length_cons, List.length_cons]
  omega

/-- A sign and the sign behind it are read. -/
theorem readCount_signs (sign sign' : Sign) (ts : List Token) :
    readCount false (sign.token :: sign'.token :: ts) = 2 := by
  have hturns : turnCount false (sign.token :: sign'.token :: ts) = 1 := by
    cases sign <;> cases sign' <;> rfl
  unfold readCount
  rw [hturns, List.length_cons, List.length_cons]
  omega

/-- A number that is due is read, and the reading goes on. -/
theorem readCount_number_due (n : Int) (ts : List Token) :
    readCount true (.number n :: ts) = readCount false ts + 1 := by
  have hturns : turnCount true (.number n :: ts) = turnCount false ts + 1 := rfl
  unfold readCount
  rw [hturns, List.length_cons]
  omega

/-- A sign where a number is due is read. -/
theorem readCount_sign_due (sign : Sign) (ts : List Token) :
    readCount true (sign.token :: ts) = 1 := by
  have hturns : turnCount true (sign.token :: ts) = 0 := by
    cases sign <;> rfl
  unfold readCount
  rw [hturns, List.length_cons]
  omega

/-- Without a token out of turn, all tokens are read. -/
theorem readCount_of_turns {ts : List Token} (h : misplaced true ts = none) :
    readCount true ts = ts.length := by
  rw [misplaced_eq_getElem?, List.getElem?_eq_none_iff] at h
  unfold readCount
  omega

/-- The tokens are read up to the first one that does not belong where it stands. -/
theorem readCount_of_isFirstMisplaced {ts : List Token} {i : Nat} {t : Token}
    (h : IsFirstMisplaced ts i t) : readCount true ts = i + 1 := by
  obtain ⟨hi, ht⟩ := isFirstMisplaced_iff.mp h
  have hlength : i < ts.length := (List.getElem?_eq_some_iff.mp ht).1
  unfold readCount
  omega

namespace Reader

/-! ## Places -/

/-- The reader that stands so many tokens further on. -/
def forward (r : Reader) (n : Nat) : Reader :=
  ⟨r.position + n, r.ahead.drop n⟩

/-- Two ways forward are one. -/
theorem forward_forward (r : Reader) (m n : Nat) : (r.forward m).forward n = r.forward (m + n) := by
  unfold forward
  rw [List.drop_drop, Nat.add_assoc]

/-! ## Summing up from a place -/

/-- Where summing up begins makes no difference to the sum, and it ends behind the
tokens that are read. -/
theorem sumFrom_eq (total : Int) (p q : Nat) (ts : List Token) :
    sumFrom total p ts = ((sumFrom total q ts).1, forward ⟨p, ts⟩ (readCount false ts)) := by
  induction ts using induction_of_signDue generalizing total p q with
  | nil => rfl
  | number n rest =>
    rw [readCount_number]
    rfl
  | lone sign =>
    rw [readCount_lone]
    cases sign <;> rfl
  | pair sign n rest ih =>
    rw [readCount_pair, sumFrom_pair, sumFrom_pair, ih _ (p + 2) (q + 2)]
    unfold forward
    rw [Nat.add_assoc, Nat.add_comm 2]
    rfl
  | signs sign sign' rest =>
    rw [readCount_signs]
    cases sign <;> cases sign' <;> rfl

/-- A reader sums up what is ahead as if the tokens began there, and stops behind the
tokens that are read. -/
theorem evaluate_eq (r : Reader) :
    r.evaluate = (evaluateTokens r.ahead, r.forward (readCount true r.ahead)) := by
  obtain ⟨position, ahead⟩ := r
  cases ahead using cases_of_numberDue with
  | nil => rfl
  | number n rest =>
    show sumFrom n (position + 1) rest = ((sumFrom n 1 rest).1, _)
    rw [sumFrom_eq n (position + 1) 1 rest, readCount_number_due]
    unfold forward
    rw [Nat.add_assoc, Nat.add_comm 1]
    rfl
  | sign sign rest =>
    rw [readCount_sign_due]
    cases sign <;> rfl

/-! ## Calls -/

/-- What can be asked of a reader. -/
inductive Call where
  | next
  | expectNumber
  | evaluate
  deriving DecidableEq, Repr

/-- What a reader answers. -/
inductive Answer where
  | token (token : Option Token)
  | value (result : Except ParseError Int)

/-- The answer to a call and the reader behind it. -/
def perform (r : Reader) : Call → Answer × Reader
  | .next => (.token r.next.1, r.next.2)
  | .expectNumber => (.value r.expectNumber.1, r.expectNumber.2)
  | .evaluate => (.value r.evaluate.1, r.evaluate.2)

/-- The reader behind a row of calls. -/
def after (r : Reader) (calls : List Call) : Reader :=
  calls.foldl (fun r call => (r.perform call).2) r

end Reader

/-! ## Writing down what is read -/

/-- A reader with a record of the tokens that it has handed out, in order. -/
structure Recorder where
  reader : Reader
  record : List Token

namespace Recorder

/-- The recorder before the first token, with an empty record. -/
def ofTokens (tokens : List Token) : Recorder :=
  ⟨.ofTokens tokens, []⟩

/-- Reads one token and writes it down, or nothing at the end. -/
def next (r : Recorder) : Option Token × Recorder :=
  match r.reader.next with
  | (none, reader) => (none, ⟨reader, r.record⟩)
  | (some token, reader) => (some token, ⟨reader, r.record ++ [token]⟩)

/-- Asks for the next token, which has to be a number. -/
def expectNumber (r : Recorder) : Except ParseError Int × Recorder :=
  match r.next with
  | (none, r') => (.error .unexpectedEnd, r')
  | (some (.number value), r') => (.ok value, r')
  | (some token, r') => (.error (.invalidToken token), r')

/-- A token that is handed out is no longer ahead. -/
theorem length_ahead_of_next {r r' : Recorder} {token : Token} (h : r.next = (some token, r')) :
    r'.reader.ahead.length < r.reader.ahead.length := by
  obtain ⟨⟨position, ahead⟩, record⟩ := r
  cases ahead with
  | nil => cases h
  | cons t ts =>
    cases h
    exact Nat.lt_succ_self _

/-- Asking for a number leaves no more ahead than there was. -/
theorem length_ahead_of_expectNumber {r r' : Recorder} {result : Except ParseError Int}
    (h : r.expectNumber = (result, r')) : r'.reader.ahead.length ≤ r.reader.ahead.length := by
  obtain ⟨⟨position, ahead⟩, record⟩ := r
  cases ahead with
  | nil =>
    cases h
    exact le_rfl
  | cons t ts => cases t <;> (cases h; exact Nat.le_succ _)

/-- Asks for tokens up to the end and adds what they say to `total`: behind each sign a
number is asked for. -/
def sumFrom (total : Int) (r : Recorder) : Except ParseError Int × Recorder :=
  match _h : r.next with
  | (none, r') => (.ok total, r')
  | (some .plus, r') =>
    match _h' : r'.expectNumber with
    | (.ok value, r'') => sumFrom (total + value) r''
    | (.error e, r'') => (.error e, r'')
  | (some .minus, r') =>
    match _h' : r'.expectNumber with
    | (.ok value, r'') => sumFrom (total - value) r''
    | (.error e, r'') => (.error e, r'')
  | (some (.number value), r') => (.error (.invalidToken (.number value)), r')
termination_by r.reader.ahead.length
decreasing_by
  all_goals exact (length_ahead_of_expectNumber _h').trans_lt (length_ahead_of_next _h)

/-- Asks for a number and for what is added to it, up to the end. -/
def evaluate (r : Recorder) : Except ParseError Int × Recorder :=
  match r.expectNumber with
  | (.ok value, r') => r'.sumFrom value
  | (.error e, r') => (.error e, r')

/-- A recorder adds up what its reader does, and writes down the tokens that are read. -/
theorem sumFrom_eq (total : Int) (position : Nat) (record ts : List Token) :
    sumFrom total ⟨⟨position, ts⟩, record⟩ =
      ((Reader.sumFrom total position ts).1,
        ⟨(Reader.sumFrom total position ts).2, record ++ ts.take (readCount false ts)⟩) := by
  induction ts using induction_of_signDue generalizing total position record with
  | nil =>
    rw [sumFrom, List.take_nil, List.append_nil]
    rfl
  | number n rest =>
    rw [sumFrom, readCount_number]
    rfl
  | lone sign =>
    rw [readCount_lone, sumFrom]
    cases sign <;> rfl
  | pair sign n rest ih =>
    have hstep : sumFrom total ⟨⟨position, sign.token :: .number n :: rest⟩, record⟩ =
        sumFrom (total + sign.factor * n)
          ⟨⟨position + 2, rest⟩, record ++ [sign.token] ++ [.number n]⟩ := by
      rw [sumFrom]
      cases sign with
      | plus =>
        rw [Sign.factor, Int.one_mul]
        rfl
      | minus =>
        rw [Sign.factor, Int.neg_one_mul, ← Int.sub_eq_add_neg]
        rfl
    rw [hstep, ih, readCount_pair, Reader.sumFrom_pair, List.append_assoc, List.append_assoc]
    rfl
  | signs sign sign' rest =>
    have htake : record ++ (sign.token :: sign'.token :: rest).take 2 =
        record ++ [sign.token] ++ [sign'.token] := List.append_cons _ _ _
    rw [readCount_signs, htake, sumFrom]
    cases sign <;> cases sign' <;> rfl

/-- A recorder sums up what its reader does, and writes down the tokens that are read. -/
theorem evaluate_eq (r : Reader) (record : List Token) :
    evaluate ⟨r, record⟩ =
      (r.evaluate.1, ⟨r.evaluate.2, record ++ r.ahead.take (readCount true r.ahead)⟩) := by
  obtain ⟨position, ahead⟩ := r
  cases ahead using cases_of_numberDue with
  | nil =>
    rw [List.take_nil, List.append_nil]
    rfl
  | number n rest =>
    show sumFrom n ⟨⟨position + 1, rest⟩, record ++ [.number n]⟩ = _
    rw [sumFrom_eq, readCount_number_due, List.append_assoc]
    rfl
  | sign sign rest =>
    rw [readCount_sign_due]
    cases sign <;> rfl

/-- The answer to a call and the recorder behind it. -/
def perform (r : Recorder) : Reader.Call → Reader.Answer × Recorder
  | .next => (.token r.next.1, r.next.2)
  | .expectNumber => (.value r.expectNumber.1, r.expectNumber.2)
  | .evaluate => (.value r.evaluate.1, r.evaluate.2)

/-- The recorder behind a row of calls. -/
def after (r : Recorder) (calls : List Reader.Call) : Recorder :=
  calls.foldl (fun r call => (r.perform call).2) r

/-- A call moves the reader forward, at most to the end. A recorder answers as its reader does,
moves with it, and writes down the tokens in between. -/
theorem exists_forward_perform (r : Reader) (call : Reader.Call) :
    ∃ n, n ≤ r.ahead.length ∧ (r.perform call).2 = r.forward n ∧
      ∀ record, perform ⟨r, record⟩ call =
        ((r.perform call).1, ⟨r.forward n, record ++ r.ahead.take n⟩) := by
  cases call with
  | next =>
    obtain ⟨position, ahead⟩ := r
    cases ahead with
    | nil => exact ⟨0, le_rfl, rfl, fun record => by rw [List.take_nil, List.append_nil]; rfl⟩
    | cons t ts => exact ⟨1, Nat.succ_le_succ (Nat.zero_le _), rfl, fun record => rfl⟩
  | expectNumber =>
    obtain ⟨position, ahead⟩ := r
    cases ahead using cases_of_numberDue with
    | nil => exact ⟨0, le_rfl, rfl, fun record => by rw [List.take_nil, List.append_nil]; rfl⟩
    | number n rest => exact ⟨1, Nat.succ_le_succ (Nat.zero_le _), rfl, fun record => rfl⟩
    | sign sign rest =>
      refine ⟨1, Nat.succ_le_succ (Nat.zero_le _), ?_, fun record => ?_⟩
      · cases sign <;> rfl
      · cases sign <;> rfl
  | evaluate =>
    have hstop : r.evaluate.2 = r.forward (readCount true r.ahead) :=
      congrArg Prod.snd r.evaluate_eq
    refine ⟨readCount true r.ahead, Nat.min_le_right _ _, hstop, fun record => ?_⟩
    rw [perform, evaluate_eq, hstop]
    rfl

/-- A row of calls moves the reader forward, at most to the end. A recorder moves with it and writes
down the tokens in between. -/
theorem exists_forward_after (r : Reader) (calls : List Reader.Call) :
    ∃ n, n ≤ r.ahead.length ∧ r.after calls = r.forward n ∧
      ∀ record, after ⟨r, record⟩ calls = ⟨r.forward n, record ++ r.ahead.take n⟩ := by
  unfold Reader.after after
  induction calls generalizing r with
  | nil => exact ⟨0, Nat.zero_le _, rfl, fun record => by rw [List.take_zero, List.append_nil]; rfl⟩
  | cons call calls ih =>
    obtain ⟨m, hm, hcall, hrecord⟩ := exists_forward_perform r call
    obtain ⟨n, hn, hcalls, hrecords⟩ := ih (r.forward m)
    have hleft : (r.forward m).ahead = r.ahead.drop m := rfl
    rw [hleft, List.length_drop] at hn
    refine ⟨m + n, by omega, ?_, fun record => ?_⟩
    · rw [List.foldl_cons, hcall, hcalls, r.forward_forward]
    · rw [List.foldl_cons, hrecord, hrecords, r.forward_forward, hleft, List.append_assoc,
        List.take_add]

end Recorder

namespace Reader

/-! ## Service -/

/-- What a reader of tokens does, whatever has been asked of it before. -/
structure Serves (tokens : List Token) (r : Reader) : Prop where
  /-- The reader stands among the tokens, and those that it has not read are ahead. -/
  inTokens : r.position ≤ tokens.length ∧ r.ahead = tokens.drop r.position
  /-- Before the end the token behind the reader's place is handed out. -/
  next : r.position < tokens.length → r.perform .next = (.token tokens[r.position]?, r.forward 1)
  /-- At the end no call moves the reader. -/
  atEnd : r.position = tokens.length → ∀ call, (r.perform call).2 = r
  /-- What is ahead is summed up as if the tokens began there. -/
  evaluate : (r.perform .evaluate).1 = .value (evaluateTokens (tokens.drop r.position))
  /-- Unless a token is reported, the reader is then at the end. -/
  evaluate_end : (∀ t, evaluateTokens (tokens.drop r.position) ≠ .error (.invalidToken t)) →
    (r.perform .evaluate).2.position = tokens.length
  /-- If a token is reported, the reader is then behind this token. -/
  evaluate_invalid : ∀ t, evaluateTokens (tokens.drop r.position) = .error (.invalidToken t) →
    ∃ i, IsFirstMisplaced (tokens.drop r.position) i t ∧ tokens[r.position + i]? = some t ∧
      (r.perform .evaluate).2.position = r.position + i + 1

/-- A reader that has tokens ahead hands out the first of them. -/
theorem perform_next {r : Reader} (h : r.ahead ≠ []) :
    r.perform .next = (.token r.ahead.head?, r.forward 1) := by
  obtain ⟨position, ahead⟩ := r
  cases ahead with
  | nil => exact absurd rfl h
  | cons t ts => rfl

/-- A reader that has no tokens ahead stays where it is. -/
theorem perform_of_nil {r : Reader} (h : r.ahead = []) (call : Call) : (r.perform call).2 = r := by
  obtain ⟨position, ahead⟩ := r
  subst h
  cases call <;> rfl

/-- Among the tokens a reader serves at every place. -/
theorem serves_forward {tokens : List Token} {n : Nat} (hn : n ≤ tokens.length) :
    ((ofTokens tokens).forward n).Serves tokens := by
  let r : Reader := ⟨n, tokens.drop n⟩
  have hplace : (ofTokens tokens).forward n = r := by
    unfold forward ofTokens
    rw [Nat.zero_add]
  have hstop : (r.perform .evaluate).2.position = n + readCount true (tokens.drop n) :=
    congrArg (fun s => s.2.position) r.evaluate_eq
  have hend : r.ahead = [] ↔ n = tokens.length := by
    rw [← List.length_eq_zero_iff, List.length_drop]
    omega
  rw [hplace]
  constructor
  case inTokens => exact ⟨hn, rfl⟩
  case next =>
    intro hlt
    have hnext := perform_next (mt hend.mp (Nat.ne_of_lt hlt))
    rwa [List.head?_drop] at hnext
  case atEnd => exact fun heq => perform_of_nil (hend.mpr heq)
  case evaluate => exact congrArg (fun s => Answer.value s.1) r.evaluate_eq
  case evaluate_end =>
    intro hnone
    have hturns : misplaced true (tokens.drop n) = none :=
      Option.eq_none_iff_forall_ne_some.mpr fun t ht => hnone t (evaluateTokens_of_misplaced ht)
    rw [hstop, readCount_of_turns hturns, List.length_drop]
    exact Nat.add_sub_cancel' hn
  case evaluate_invalid =>
    intro t ht
    obtain ⟨i, hfirst⟩ := misplaced_eq_some_iff.mp (evaluateTokens_eq_invalid_iff.mp ht)
    refine ⟨i, hfirst, ?_, ?_⟩
    · rw [← List.getElem?_drop]
      exact hfirst.1
    · rw [hstop, readCount_of_isFirstMisplaced hfirst]
      rfl

/-- **Whatever has been asked of a reader, it serves**, and whatever is asked of it next, it does
not go back. A recorder in its place gives the same answers, and its record of what has been handed
out are the tokens in front of the reader. -/
theorem serves_tokens (tokens : List Token) (calls more : List Call) :
    let r := (ofTokens tokens).after calls
    let recorder := (Recorder.ofTokens tokens).after calls
    r.Serves tokens ∧ r.position ≤ ((ofTokens tokens).after (calls ++ more)).position ∧
      recorder.reader = r ∧ recorder.record = tokens.take r.position ∧
      ∀ call, ((recorder.perform call).1, (recorder.perform call).2.reader) = r.perform call := by
  intro r recorder
  obtain ⟨n, hn, hcalls, hrecords⟩ := Recorder.exists_forward_after (ofTokens tokens) calls
  obtain ⟨m, -, hmore, -⟩ := Recorder.exists_forward_after r more
  have hr : r = (ofTokens tokens).forward n := hcalls
  have hrecorder : recorder = ⟨r, tokens.take r.position⟩ := by
    have hposition : r.position = n := by
      rw [hr]
      exact Nat.zero_add n
    have hrecord := hrecords []
    rw [← hr, List.nil_append] at hrecord
    rw [hposition]
    exact hrecord
  refine ⟨?_, ?_, congrArg Recorder.reader hrecorder, congrArg Recorder.record hrecorder, ?_⟩
  · rw [hr]
    exact serves_forward hn
  · have happend : (ofTokens tokens).after (calls ++ more) = r.after more := List.foldl_append
    rw [happend, hmore]
    exact Nat.le_add_right _ _
  · intro call
    obtain ⟨k, -, hcall, hperform⟩ := Recorder.exists_forward_perform r call
    rw [hrecorder, hperform, ← hcall]

/-- A sum that has failed at the second of two signs goes on with the number behind it. -/
theorem serves_tokens_behind_signs :
    let tokens : List Token := [.number 1, .plus, .minus, .number 2]
    let r := (ofTokens tokens).after [.evaluate]
    r.position = 3 ∧ (∀ t, evaluateTokens (tokens.drop r.position) ≠ .error (.invalidToken t)) ∧
      (r.perform .evaluate).1 = .value (.ok 2) ∧ (r.perform .evaluate).2.position = 4 := by
  intro tokens r
  have hserves : r.Serves tokens := (serves_tokens tokens [.evaluate] []).1
  have hvalue : evaluateTokens (tokens.drop r.position) = .ok 2 := by decide +kernel
  have hnone (t : Token) : evaluateTokens (tokens.drop r.position) ≠ .error (.invalidToken t) := by
    rw [hvalue]
    exact nofun
  refine ⟨rfl, hnone, ?_, hserves.evaluate_end hnone⟩
  rw [hserves.evaluate, hvalue]

end Reader

end LineSum

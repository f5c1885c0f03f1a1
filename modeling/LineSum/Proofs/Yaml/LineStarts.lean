import LineSum.Proofs.Yaml.Lexemes

/-!
# The line starts of a document

The first line of a text starts at its beginning, and every other line behind that. While lexemes
are put into trees, line starts are only ever added, and each of them lies behind some text: a
lexeme that ends a line has characters, and so has what stands before a line end inside a lexeme.
-/

namespace LineSum

/-- The first line starts at the beginning of the text, and no other one does. -/
def LineStarts.BeginsOnce (starts : LineStarts) : Prop :=
  ∃ later, starts = 0 :: later ∧ ∀ start ∈ later, 0 < start

/-- A size is positive. -/
theorem unitSize_pos (c : Char) : 0 < unitSize c := by
  unfold unitSize
  split <;> decide

namespace LineStarts

/-- The lines of a text behind some characters start behind these. -/
theorem lt_of_mem_following {cs : List Char} {offset start : Nat}
    (h : start ∈ following unitSize offset cs) : offset < start := by
  induction cs generalizing offset with
  | nil => cases h
  | cons c rest ih =>
    have hsize := unitSize_pos c
    rw [following] at h
    split at h
    · rcases List.mem_cons.mp h with rfl | h
      · omega
      · exact Nat.lt_trans (Nat.lt_add_of_pos_right hsize) (ih h)
    · exact Nat.lt_trans (Nat.lt_add_of_pos_right hsize) (ih h)

/-- The first line of a text starts at its beginning, and no other one does. -/
theorem beginsOnce_ofText (cs : List Char) : (ofText unitSize cs).BeginsOnce :=
  ⟨_, rfl, fun _ => lt_of_mem_following⟩

end LineStarts

namespace Yaml

/-- A text with a character has a size. -/
theorem unitLength_pos {cs : List Char} (h : cs ≠ []) : 0 < unitLength cs := by
  cases cs with
  | nil => exact absurd rfl h
  | cons c rest => exact Nat.add_pos_left (unitSize_pos c) _

namespace Nest

/-! ## Putting a lexeme into a tree -/

/-- A state from which nothing was read on, and in which line starts behind the beginning
may have been added. -/
structure Follows (n m : Nest) : Prop where
  offset_eq : m.offset = n.offset
  exists_new : ∃ new, m.starts = new ++ n.starts ∧ ∀ start ∈ new, 0 < start

namespace Follows

variable {n m k : Nest}

/-- Nothing may have been added. -/
theorem of_eq (hoffset : m.offset = n.offset) (hstarts : m.starts = n.starts) : n.Follows m :=
  ⟨hoffset, [], hstarts, List.forall_mem_nil _⟩

/-- A state follows itself. -/
theorem refl (n : Nest) : n.Follows n := of_eq rfl rfl

/-- What follows a follower follows. -/
theorem trans (h : n.Follows m) (h' : m.Follows k) : n.Follows k := by
  obtain ⟨new, hnew, hpos⟩ := h.exists_new
  obtain ⟨new', hnew', hpos'⟩ := h'.exists_new
  refine ⟨h'.offset_eq.trans h.offset_eq, new' ++ new, ?_, ?_⟩
  · rw [hnew', hnew, List.append_assoc]
  · exact List.forall_mem_append.mpr ⟨hpos', hpos⟩

/-- What follows depends on the place and the line starts alone. -/
theorem congr (hoffset : k.offset = m.offset) (hstarts : k.starts = m.starts) (h : n.Follows m) :
    n.Follows k :=
  h.trans (of_eq hoffset hstarts)

end Follows

/-- The line starts inside a lexeme lie behind its first character. -/
theorem exists_noteLines_go (offset : Nat) (chars : List Char) (starts : List Nat) :
    ∃ new, noteLines.go offset chars starts = new ++ starts ∧ ∀ start ∈ new, 0 < start := by
  induction chars generalizing offset starts with
  | nil => exact ⟨[], rfl, List.forall_mem_nil _⟩
  | cons c rest ih =>
    rw [noteLines.go]
    have hpos := unitSize_pos c
    split
    · obtain ⟨new, hnew, hall⟩ := ih (offset + unitSize c) ((offset + unitSize c) :: starts)
      refine ⟨new ++ [offset + unitSize c], ?_, ?_⟩
      · rw [hnew, List.append_assoc, List.singleton_append]
      · refine List.forall_mem_append.mpr ⟨hall, ?_⟩
        rw [List.forall_mem_singleton]
        omega
    · exact ih (offset + unitSize c) starts

/-- Line starts inside a lexeme may be added. -/
theorem Follows.of_noteLines {n m : Nest} {chars : List Char} (hoffset : m.offset = n.offset)
    (hstarts : m.starts = (n.noteLines chars).starts) : n.Follows m := by
  obtain ⟨new, hnew, hall⟩ := exists_noteLines_go n.offset chars n.starts
  exact ⟨hoffset, new, hstarts.trans hnew, hall⟩

/-- Replacing the top frame adds no line start. -/
theorem follows_setTop (n : Nest) (frame : Frame) : n.Follows (n.setTop frame) :=
  .of_eq rfl rfl

/-- Closing a tree adds no line start. -/
theorem follows_close (n : Nest) : n.Follows n.close := by
  unfold close
  split
  · exact .refl n
  · exact .of_eq rfl rfl
  · split <;> exact .of_eq rfl rfl

/-- Behind what follows, a tree may be closed. -/
theorem Follows.closed {n m : Nest} (h : n.Follows m) : n.Follows m.close :=
  h.trans m.follows_close

/-- Closing all trees adds no line start. -/
theorem follows_closeAll (n : Nest) : n.Follows n.closeAll := by
  induction n using closeAll.induct with
  | case1 n hempty =>
    rw [closeAll, if_pos hempty]
    exact .refl n
  | case2 n hnot ih =>
    rw [closeAll, if_neg hnot]
    exact n.follows_close.trans ih

/-- Leaving flow collections adds no line start. -/
theorem follows_leaveFlow (n : Nest) : n.Follows n.leaveFlow := by
  induction n using leaveFlow.induct with
  | case1 n hflow ih =>
    rw [leaveFlow, if_pos hflow]
    exact n.follows_close.trans ih
  | case2 n hnot =>
    rw [leaveFlow, if_neg hnot]
    exact .refl n

/-- Putting a tree into another one adds no line start. -/
theorem follows_insert (n : Nest) (tree : Tree) : n.Follows (n.insert tree) := by
  have hhead : n.Follows (if n.stack.head?.any Frame.isLeaf then n.close else n) := by
    split
    · exact n.follows_close
    · exact .refl n
  unfold insert
  dsimp only
  generalize (if n.stack.head?.any Frame.isLeaf then n.close else n) = m at hhead ⊢
  refine hhead.trans ?_
  split
  · split
    · exact .of_eq rfl rfl
    · exact .refl m
  · exact .of_eq rfl rfl

/-- Dropping what would belong to the next entry adds no line start. -/
theorem follows_trimEntry (n : Nest) (kind : Kind) : n.Follows (n.trimEntry kind) := by
  unfold trimEntry
  split
  · split
    · exact .of_eq rfl rfl
    · exact .refl n
  · exact .refl n

section Put

variable {n m : Nest} {kind : Kind} {chars : List Char}

/-- Behind a tree no line start is added. -/
theorem follows_putBehind {add : Token → Frame} (h : n.putBehind kind add chars = some m) :
    n.Follows m := by
  unfold putBehind at h
  split at h
  case h_7 =>
    cases h
    exact .closed (.of_eq rfl rfl)
  case h_8 =>
    cases h
    exact .of_eq rfl rfl
  all_goals cases h

/-- Opening a tree adds at most the line starts inside the lexeme. -/
theorem follows_openValue (h : n.openValue kind chars = some m) : n.Follows m := by
  unfold openValue at h
  dsimp only at h
  split at h <;> cases h
  case h_1 | h_2 | h_3 | h_4 => exact .of_noteLines rfl rfl
  case h_5 | h_6 | h_7 | h_8 => exact .of_eq rfl rfl
  all_goals
    refine .of_eq ?_ ?_ <;> show _ = _ <;> cases n.stack <;> rfl

/-- A line end in a block collection is added without its line start. -/
theorem follows_putLineEnd (token : Token) (rebuild : List Entry → Entry → Frame)
    (done : List Entry) (last : Entry) : n.Follows (n.putLineEnd token rebuild done last) := by
  unfold putLineEnd
  split
  · split
    · split <;> exact .of_eq rfl rfl
    · exact .of_eq rfl rfl
  · exact .of_eq rfl rfl

/-- White space adds no line start. -/
theorem follows_putBlank (token : Token) (indent : Nat) (rebuild : List Entry → Entry → Frame)
    (done : List Entry) (last : Entry) : n.Follows (n.putBlank token indent rebuild done last) := by
  unfold putBlank
  repeat' split
  all_goals exact .of_eq rfl rfl

/-- An entry of a map is added with at most the line starts inside its lexeme. -/
theorem follows_putEntry {offset indent : Nat} {done : List Entry} {last : Entry}
    (h : n.putEntry kind chars offset indent done last = some m) : n.Follows m := by
  unfold putEntry at h
  dsimp only at h
  split at h
  case h_1 | h_2 =>
    split at h <;> cases h <;> exact .of_eq rfl rfl
  case h_3 =>
    split at h
    · cases h
      exact .of_eq rfl rfl
    · split at h <;> cases h <;> exact .of_eq rfl rfl
  case h_4 =>
    rw [Option.some.injEq] at h
    subst h
    refine Follows.congr rfl rfl ?_
    repeat' split
    all_goals exact .of_eq rfl rfl
  case h_5 =>
    split at h
    · split at h
      · cases h
        exact .of_noteLines rfl rfl
      · split at h <;> cases h <;> exact .of_noteLines rfl rfl
    · split at h
      · split at h
        · cases h
          exact (n.follows_setTop _).trans (follows_insert _ _)
        · exact (n.follows_setTop _).trans (follows_openValue h)
      · refine Follows.trans ?_ (follows_openValue h)
        split <;> exact n.follows_setTop _

/-- A lexeme is put into a map with at most the line starts inside it. -/
theorem follows_putMap {offset indent : Nat} {done : List Entry} {last : Entry}
    (h : n.putMap kind chars offset indent done last = some m) : n.Follows m := by
  unfold putMap at h
  dsimp only at h
  split at h
  · cases h
    exact Follows.trans (m := { n with onKeyLine := false }) (.of_eq rfl rfl)
      (follows_putLineEnd _ _ _ _)
  · cases h
    exact follows_putBlank _ _ _ _ _
  · cases h
    exact follows_putBlank _ _ _ _ _
  · split at h
    · exact follows_putEntry h
    · cases h

/-- A lexeme is put into a list with at most the line starts inside it. -/
theorem follows_putSeq {offset indent : Nat} {done : List Entry} {last : Entry}
    (h : n.putSeq kind chars offset indent done last = some m) : n.Follows m := by
  have hvalue {kind : Kind} :
      (if indent < n.indent then n.openValue kind chars else none) = some m → n.Follows m := by
    intro hm
    split at hm
    · exact follows_openValue hm
    · cases hm
  unfold putSeq at h
  dsimp only at h
  split at h
  case h_1 =>
    cases h
    exact follows_putLineEnd _ _ _ _
  case h_2 | h_3 =>
    cases h
    exact follows_putBlank _ _ _ _ _
  case h_4 | h_5 =>
    split at h
    · exact hvalue h
    · cases h
      exact n.follows_setTop _
  case h_6 =>
    split at h
    · split at h <;> cases h <;> exact n.follows_setTop _
    · exact hvalue h
  case h_7 => exact hvalue h

/-- A lexeme is put into a flow collection with at most the line starts inside it. -/
theorem follows_putFlowItem {offset indent : Nat} {start : Token} {items : List Entry}
    (h : n.putFlowItem kind chars offset indent start items = some m) : n.Follows m := by
  unfold putFlowItem at h
  dsimp only at h
  split at h
  case h_11 =>
    split at h
    · split at h
      · split at h
        · cases h
          exact .of_noteLines rfl rfl
        · split at h <;> cases h <;> exact .of_noteLines rfl rfl
      · cases h
        exact .of_noteLines rfl rfl
    · exact follows_openValue h
  case h_1 | h_2 | h_3 =>
    split at h <;> cases h <;> exact n.follows_setTop _
  case h_9 | h_10 =>
    cases h
    exact n.follows_setTop _
  all_goals
    split at h
    · split at h <;> cases h <;> exact n.follows_setTop _
    · cases h
      exact n.follows_setTop _

/-- A lexeme is put into a flow collection or behind it with at most the line starts inside it. -/
theorem follows_putFlow {offset indent : Nat} {start : Token} {items : List Entry}
    {close : List Token} (h : n.putFlow kind chars offset indent start items close = some m) :
    n.Follows m := by
  unfold putFlow at h
  dsimp only at h
  split at h
  · cases h
    exact n.follows_leaveFlow
  · split at h
    · exact follows_putFlowItem h
    · split at h
      · obtain ⟨-, h⟩ := Option.ite_none_left_eq_some.mp h
        split at h
        · cases h
          exact .of_eq rfl rfl
        · exact follows_putBehind h
      · exact follows_putBehind h

/-- A lexeme is put behind a scalar without a line start. -/
theorem follows_putInline {inline : InlineKind} {offset indent : Nat} {source : List Char}
    {after : List Token} (h : n.putInline kind chars inline offset indent source after = some m) :
    n.Follows m := by
  unfold putInline at h
  dsimp only at h
  split at h
  · split at h <;> cases h <;> exact .of_eq rfl rfl
  · exact follows_putBehind h

/-- A lexeme is put into a block scalar with at most the line starts inside it. -/
theorem follows_putBlock {offset indent : Nat} {header : List Token}
    (h : n.putBlock kind chars offset indent header = some m) : n.Follows m := by
  unfold putBlock at h
  split at h
  case h_4 =>
    cases h
    exact .closed (.of_noteLines rfl rfl)
  case h_5 => cases h
  all_goals
    cases h
    exact n.follows_setTop _

/-- A lexeme is put into a document with at most the line starts inside it. -/
theorem follows_putDocument {offset : Nat} {start : List Token} {value : Option Tree}
    {after : List Token} (h : n.putDocument kind chars offset start value after = some m) :
    n.Follows m := by
  unfold putDocument at h
  dsimp only at h
  split at h
  · exact follows_putBehind h
  · split at h
    case h_1 =>
      split at h <;> cases h
      exact n.follows_setTop _
    case h_7 =>
      split at h
      · next hopen =>
        cases h
        exact follows_openValue hopen
      · cases h
        exact .of_eq rfl rfl
    all_goals
      cases h
      exact n.follows_setTop _

end Put

/-- A lexeme behind the end of a document adds no line start. -/
theorem follows_putDocumentEnd (n : Nest) (kind : Kind) (chars : List Char) (offset : Nat)
    (source : List Char) (after : List Token) :
    n.Follows (n.putDocumentEnd kind chars offset source after) := by
  unfold putDocumentEnd
  dsimp only
  split
  · exact .refl n
  · split
    · exact .closed (n.follows_setTop _)
    · exact n.follows_setTop _

/-- A lexeme outside of all documents adds no line start. -/
theorem follows_putStream (n : Nest) (kind : Kind) (chars : List Char) :
    n.Follows (n.putStream kind chars) := by
  unfold putStream
  split <;> exact .of_eq rfl rfl

/-- A lexeme is put into the top tree with at most the line starts inside it. -/
theorem follows_putTop {n m : Nest} {kind : Kind} {chars : List Char} {top : Frame}
    (h : n.putTop kind chars top = some m) : n.Follows m := by
  cases top with
  | document => exact follows_putDocument h
  | documentEnd =>
    cases h
    exact n.follows_putDocumentEnd _ _ _ _ _
  | inline => exact follows_putInline h
  | block => exact follows_putBlock h
  | map => exact follows_putMap h
  | seq => exact follows_putSeq h
  | flow => exact follows_putFlow h

/-- Outside of all trees, a lexeme begins one or stands alone. -/
theorem put_of_nil {n : Nest} (h : n.stack = []) (kind : Kind) (chars : List Char) :
    n.put kind chars =
      if kind = .docEnd then n.push (.documentEnd n.offset chars [])
      else n.putStream kind chars := by
  rw [put]
  split
  · rfl
  · next heq =>
    rw [h] at heq
    cases heq

/-- A lexeme that does not belong to the top tree closes it. -/
theorem put_of_cons {n : Nest} {top : Frame} {rest : List Frame} (h : n.stack = top :: rest)
    (kind : Kind) (chars : List Char) :
    n.put kind chars =
      if kind = .docEnd && !top.isDocumentEnd then
        n.closeAll.push (.documentEnd n.offset chars [])
      else
        match n.putTop kind chars top with
        | some n => n
        | none => (n.trimEntry kind).close.put kind chars := by
  rw [put]
  split
  · next heq =>
    rw [h] at heq
    cases heq
  · next heq =>
    rw [h] at heq
    cases heq
    rfl

/-- **A lexeme is put where it belongs with at most the line starts inside it.** -/
theorem follows_put (n : Nest) (kind : Kind) (chars : List Char) :
    n.Follows (n.put kind chars) := by
  induction n using put.induct kind chars with
  | case1 n hstack hkind =>
    rw [put_of_nil hstack, if_pos hkind]
    exact .of_eq rfl rfl
  | case2 n hstack hkind =>
    rw [put_of_nil hstack, if_neg hkind]
    exact n.follows_putStream kind chars
  | case3 n top rest hstack hend =>
    rw [put_of_cons hstack, if_pos hend]
    exact n.follows_closeAll.trans (.of_eq rfl rfl)
  | case4 n top rest hstack hend m hput =>
    rw [put_of_cons hstack, if_neg hend, hput]
    exact follows_putTop hput
  | case5 n top rest hstack hend hput ih =>
    rw [put_of_cons hstack, if_neg hend, hput]
    exact (n.follows_trimEntry kind).closed.trans ih

/-! ## The whole text -/

/-- A state in which the first line alone starts at the beginning. -/
def BeginsOnce (n : Nest) : Prop := LineStarts.BeginsOnce n.starts.reverse

/-- Line starts behind the beginning may be added. -/
theorem BeginsOnce.of_append {n m : Nest} (h : n.BeginsOnce) {new : List Nat}
    (hnew : m.starts = new ++ n.starts) (hpos : ∀ start ∈ new, 0 < start) : m.BeginsOnce := by
  obtain ⟨later, hlater, hall⟩ := h
  refine ⟨later ++ new.reverse, ?_, ?_⟩
  · rw [hnew, List.reverse_append, hlater, List.cons_append]
  · refine List.forall_mem_append.mpr ⟨hall, ?_⟩
    intro start hstart
    exact hpos start (List.mem_reverse.mp hstart)

/-- What follows such a state is one. -/
theorem BeginsOnce.of_follows {n m : Nest} (h : n.BeginsOnce) (hfollows : n.Follows m) :
    m.BeginsOnce := by
  obtain ⟨new, hnew, hpos⟩ := hfollows.exists_new
  exact h.of_append hnew hpos

/-- The source of a scalar is read. -/
theorem BeginsOnce.nextScalar {n : Nest} (h : n.BeginsOnce) (chars : List Char) :
    (n.nextScalar chars).BeginsOnce := by
  have hput : ({ n with atNewline := false, scalarDue := false }.put .scalar chars).BeginsOnce :=
    BeginsOnce.of_follows (n := { n with atNewline := false, scalarDue := false }) h
      (follows_put _ _ _)
  exact hput

/-- The line start behind a line end lies behind the beginning, for the line end has text or stands
behind some. -/
theorem BeginsOnce.nextText {n : Nest} (h : n.BeginsOnce) {chars : List Char}
    (hplace : chars ≠ [] ∨ 0 < n.offset) : (n.nextText chars).BeginsOnce := by
  unfold Nest.nextText
  split
  · have hinsert : (n.insert (.broken n.offset (.notAToken chars) chars)).BeginsOnce :=
      h.of_follows (n.follows_insert _)
    exact hinsert
  · exact h
  · exact h.of_follows (n.follows_put _ _)
  · exact h.of_follows (n.follows_put _ _)
  · next kind _ _ _ hkind =>
    have hput := n.follows_put kind chars
    have hafter : (n.put kind chars).BeginsOnce := h.of_follows hput
    have hpos : 0 < (n.put kind chars).offset + unitLength chars := by
      rw [hput.offset_eq]
      rcases hplace with hne | hoffset
      · exact Nat.add_pos_right _ (unitLength_pos hne)
      · exact Nat.add_pos_left hoffset _
    dsimp only
    split
    · exact hafter.of_append (List.singleton_append).symm (List.forall_mem_singleton.mpr hpos)
    · split <;> exact hafter
    · split <;> exact hafter
    · split <;> exact hafter
    · split <;> exact hafter
    · exact hafter

/-- The next lexeme is read. -/
theorem BeginsOnce.next {n : Nest} (h : n.BeginsOnce) {lexeme : Lexeme} (htext : lexeme.HasText) :
    (n.next lexeme).BeginsOnce := by
  unfold Nest.next
  split
  · cases lexeme with
    | documentMark => exact h.nextScalar _
    | flowEndMark => exact h.nextScalar _
    | scalar chars =>
      refine (h.nextScalar scalarSign).nextText (.inr ?_)
      exact Nat.add_pos_right _ (unitLength_pos (List.cons_ne_nil _ _))
    | text chars => exact h.nextScalar _
  · cases lexeme with
    | documentMark => exact h.nextText (.inl (List.cons_ne_nil _ _))
    | flowEndMark => exact h.nextText (.inl (List.cons_ne_nil _ _))
    | scalar chars => exact h.nextScalar _
    | text chars =>
      refine h.nextText (.inl ?_)
      rintro rfl
      exact htext rfl

/-- The lexemes of a text are read. -/
theorem BeginsOnce.foldl_next {n : Nest} (h : n.BeginsOnce) {lexemes : List Lexeme}
    (htext : HaveText lexemes) : (lexemes.foldl Nest.next n).BeginsOnce := by
  induction lexemes generalizing n with
  | nil => exact h
  | cons lexeme lexemes ih =>
    obtain ⟨hfirst, hrest⟩ := List.forall_mem_cons.mp htext
    exact ih (h.next hfirst) hrest

end Nest

/-- **The first line of a document starts at the beginning of its text, and no other one does.** -/
theorem Document.starts_beginsOnce (text : List Char) : (ofText text).starts.BeginsOnce := by
  have hinitial : Nest.initial.BeginsOnce := ⟨[], rfl, List.forall_mem_nil _⟩
  exact (hinitial.foldl_next (haveText_cutAll _ _ text)).of_follows (Nest.follows_closeAll _)

end Yaml

end LineSum

import LineSum.Proofs.Json.Scalars

/-!
# Reading what is printed

A printed value is read as the value that it is, whatever its strings hold, and no control character
stands in its text. Reading takes a number of steps; one that exceeds the length of the text is
enough, by induction on the steps.
-/

namespace LineSum

namespace JsonTree

/-! ## Values -/

/-- White space is skipped, and nothing else is. -/
theorem skipGaps_cons {c : Char} (h : isGap c = false) (cs : List Char) :
    skipGaps (c :: cs) = c :: cs := by
  unfold skipGaps
  rw [List.dropWhile_cons_of_neg (by rw [h]; exact Bool.false_ne_true)]

/-- Digits are no white space. -/
theorem isGap_of_isDecimal {c : Char} (h : isDecimal c = true) : isGap c = false := by
  unfold isGap
  by_contra hgap
  simp only [Bool.not_eq_false, Bool.or_eq_true, decide_eq_true_eq] at hgap
  rcases hgap with ((rfl | rfl) | rfl) | rfl <;> cases h

/-- A number that is not negative is read from its first digit on. -/
theorem readValue_digit (steps : Nat) {d : Char} (hd : isDecimal d = true) (cs : List Char) :
    readValue (steps + 1) (d :: cs) = readNumber false (d :: cs) := by
  rw [readValue, skipGaps_cons (isGap_of_isDecimal hd)]
  split
  all_goals first | (rename_i heq; cases heq; cases hd) | rfl

/-- A number is read as it is printed. -/
theorem readValue_number (steps : Nat) (coefficient power : Int) {rest : List Char}
    (h : ClosesValue rest) :
    readValue (steps + 1) ((print (number coefficient power)).toList ++ rest) =
      some (number coefficient power, rest) := by
  have hprint : (print (number coefficient power)).toList ++ rest =
      (if coefficient < 0 then ['-'] else []) ++ (Nat.toDigits 10 coefficient.natAbs ++
        ((if power = 0 then "" else "e" ++ toString power).toList ++ rest)) := by
    rw [print, String.toList_append, toList_toString_int]
    simp only [List.append_assoc]
  rw [hprint]
  by_cases hneg : coefficient < 0
  · rw [if_pos hneg, List.singleton_append]
    show readNumber true _ = _
    rw [readNumber_exponent true _ power h, if_pos rfl,
      show -(coefficient.natAbs : Int) = coefficient by omega]
  · obtain ⟨d, ds, hds, hd⟩ := exists_toDigits_eq_cons coefficient.natAbs
    have hnumber := readNumber_exponent false coefficient.natAbs power h
    rw [if_neg hneg, List.nil_append]
    rw [hds] at hnumber ⊢
    rw [List.cons_append] at hnumber ⊢
    rw [readValue_digit steps hd, hnumber, if_neg Bool.false_ne_true,
      show (coefficient.natAbs : Int) = coefficient by omega]

/-- A string is read as it is printed. -/
theorem readValue_string (steps : Nat) (text : String) (rest : List Char) :
    readValue (steps + 1) ((print (string text)).toList ++ rest) = some (string text, rest) := by
  have hprint : (print (string text)).toList ++ rest =
      '\x22' :: (text.toList.flatMap escapeChar ++ '\x22' :: rest) := by
    rw [print, quote, String.toList_ofList]
    simp
  rw [hprint]
  show (readString _).map _ = _
  rw [readString_escaped, Option.map_some]
  dsimp only
  rw [charsOfCodes_map_toNat, String.ofList_toList]

/-! ## Collections -/

/-- The text of items, with commas between them. -/
def itemsText (items : List JsonTree) : List Char :=
  (",".intercalate (printItems items)).toList

/-- The text of entries, with commas between them. -/
def entriesText (entries : List (String × JsonTree)) : List Char :=
  (",".intercalate (printEntries entries)).toList

/-- A list is printed between brackets. -/
theorem toList_print_list (items : List JsonTree) :
    (print (list items)).toList = '[' :: (itemsText items ++ [']']) := by
  rw [print, String.toList_append, String.toList_append]
  rfl

/-- An object is printed between braces. -/
theorem toList_print_object (entries : List (String × JsonTree)) :
    (print (object entries)).toList = '\x7b' :: (entriesText entries ++ ['\x7d']) := by
  rw [print, String.toList_append, String.toList_append]
  rfl

/-- The text of the only item. -/
theorem itemsText_singleton (item : JsonTree) : itemsText [item] = (print item).toList := by
  rw [itemsText, printItems, printItems, String.intercalate_singleton]

/-- A comma stands between an item and the next one. -/
theorem itemsText_cons_cons (item next : JsonTree) (items : List JsonTree) :
    itemsText (item :: next :: items) =
      (print item).toList ++ ',' :: itemsText (next :: items) := by
  rw [itemsText, printItems, printItems, String.intercalate_cons_cons, String.toList_append,
    String.toList_append, ← printItems, List.append_assoc]
  rfl

/-- The text of an entry: its key, a colon and its value. -/
def entryText (key : String) (value : JsonTree) : List Char :=
  '\x22' :: (key.toList.flatMap escapeChar ++ '\x22' :: ':' :: (print value).toList)

/-- The text of an entry is longer than that of its value. -/
theorem length_print_lt_entryText (key : String) (value : JsonTree) :
    (print value).toList.length < (entryText key value).length := by
  simp only [entryText, List.length_cons, List.length_append]
  omega

/-- An entry is printed as its text. -/
theorem toList_printEntry (key : String) (value : JsonTree) :
    (quote key ++ ":" ++ print value).toList = entryText key value := by
  rw [String.toList_append, String.toList_append, quote, String.toList_ofList, entryText]
  simp

/-- The text of the only entry. -/
theorem entriesText_singleton (key : String) (value : JsonTree) :
    entriesText [(key, value)] = entryText key value := by
  rw [entriesText, printEntries, printEntries, String.intercalate_singleton, toList_printEntry]

/-- A comma stands between an entry and the next one. -/
theorem entriesText_cons_cons (key : String) (value : JsonTree) (next : String × JsonTree)
    (entries : List (String × JsonTree)) :
    entriesText ((key, value) :: next :: entries) =
      entryText key value ++ ',' :: entriesText (next :: entries) := by
  rw [entriesText, printEntries, printEntries, String.intercalate_cons_cons, String.toList_append,
    String.toList_append, ← printEntries, toList_printEntry, List.append_assoc]
  rfl

/-- The text of a value begins with a character that is no white space and closes no list. -/
theorem exists_print_eq_cons (t : JsonTree) :
    ∃ c cs, (print t).toList = c :: cs ∧ isGap c = false ∧ c ≠ ']' := by
  cases t with
  | null => exact ⟨'n', _, rfl, rfl, by decide⟩
  | bool value => cases value <;> exact ⟨_, _, rfl, by decide, by decide⟩
  | string text =>
    rw [print, quote, String.toList_ofList]
    exact ⟨_, _, rfl, by decide, by decide⟩
  | list items =>
    rw [toList_print_list]
    exact ⟨_, _, rfl, by decide, by decide⟩
  | object entries =>
    rw [toList_print_object]
    exact ⟨_, _, rfl, by decide, by decide⟩
  | number coefficient power =>
    rw [print, String.toList_append, toList_toString_int]
    by_cases hneg : coefficient < 0
    · rw [if_pos hneg]
      exact ⟨_, _, rfl, by decide, by decide⟩
    · obtain ⟨d, ds, hds, hd⟩ := exists_toDigits_eq_cons coefficient.natAbs
      rw [if_neg hneg, hds]
      refine ⟨d, _, rfl, isGap_of_isDecimal hd, ?_⟩
      rintro rfl
      cases hd

/-- The text of items begins with a character that is no white space and closes no list. -/
theorem exists_itemsText_eq_cons (item : JsonTree) (items : List JsonTree) :
    ∃ c cs, itemsText (item :: items) = c :: cs ∧ isGap c = false ∧ c ≠ ']' := by
  obtain ⟨c, cs, hc, hgap, hclose⟩ := exists_print_eq_cons item
  cases items with
  | nil =>
    rw [itemsText_singleton, hc]
    exact ⟨c, cs, rfl, hgap, hclose⟩
  | cons next items =>
    rw [itemsText_cons_cons, hc]
    exact ⟨c, _, rfl, hgap, hclose⟩

/-- What is read behind the opening bracket of a list. -/
def readBehindBracket (steps : Nat) (cs : List Char) : Option (JsonTree × List Char) :=
  match skipGaps cs with
  | ']' :: rest => some (list [], rest)
  | rest => (readItems steps rest).map fun (items, rest) => (list items, rest)

/-- A list that is not empty is read item by item. -/
theorem readValue_list {steps : Nat} {c : Char} {cs rest : List Char} {items : List JsonTree}
    (hgap : isGap c = false) (hclose : c ≠ ']')
    (h : readItems steps (c :: cs) = some (items, rest)) :
    readValue (steps + 1) ('[' :: c :: cs) = some (list items, rest) := by
  -- The name for the rest of the reading keeps its cases out of the way.
  have hbracket : readValue (steps + 1) ('[' :: c :: cs) = readBehindBracket steps (c :: cs) := rfl
  rw [hbracket, readBehindBracket, skipGaps_cons hgap]
  split
  · rename_i heq
    exact absurd (List.cons.inj heq).1 hclose
  · rw [h]
    rfl

/-- The text of entries begins with the quote of the first key. -/
theorem exists_entriesText_eq_cons (entry : String × JsonTree)
    (entries : List (String × JsonTree)) :
    ∃ cs, entriesText (entry :: entries) = '\x22' :: cs := by
  cases entries with
  | nil => exact ⟨_, entriesText_singleton entry.1 entry.2⟩
  | cons next entries => exact ⟨_, entriesText_cons_cons entry.1 entry.2 next entries⟩

/-- An object that is not empty is read entry by entry. -/
theorem readValue_object {steps : Nat} {cs rest : List Char} {entries : List (String × JsonTree)}
    (h : readEntries steps ('\x22' :: cs) = some (entries, rest)) :
    readValue (steps + 1) ('\x7b' :: '\x22' :: cs) = some (object entries, rest) := by
  have hbrace : readValue (steps + 1) ('\x7b' :: '\x22' :: cs) =
      (readEntries steps ('\x22' :: cs)).map (Prod.map object id) := rfl
  rw [hbrace, h]
  rfl

/-- What is read behind the value of an entry. -/
def readEntryBehindValue (steps : Nat) (key : String) (value : JsonTree) :
    List Char → Option (List (String × JsonTree) × List Char)
  | ',' :: rest =>
    (readEntries steps rest).map fun (entries, rest) => ((key, value) :: entries, rest)
  | '\x7d' :: rest => some ([(key, value)], rest)
  | _ => none

/-- What is read behind the colon of an entry. -/
def readEntryBehindColon (steps : Nat) (key : String) (cs : List Char) :
    Option (List (String × JsonTree) × List Char) :=
  match readValue steps cs with
  | none => none
  | some (value, rest) => readEntryBehindValue steps key value (skipGaps rest)

/-- What is read behind the key of an entry. -/
def readEntryBehindKey (steps : Nat) (key : String) (cs : List Char) :
    Option (List (String × JsonTree) × List Char) :=
  match skipGaps cs with
  | ':' :: rest => readEntryBehindColon steps key rest
  | _ => none

/-- What is read behind the opening quote of an entry. -/
def readEntryBehindQuote (steps : Nat) (cs : List Char) :
    Option (List (String × JsonTree) × List Char) :=
  match readString cs with
  | none => none
  | some (codes, rest) => readEntryBehindKey steps (String.ofList (charsOfCodes codes)) rest

/-- The key of an entry is read first, then its value, and then what closes it. -/
theorem readEntries_entryText (steps : Nat) (key : String) (value : JsonTree) {closer : Char}
    (hcloser : isGap closer = false) (rest : List Char)
    (h : readValue steps ((print value).toList ++ closer :: rest) = some (value, closer :: rest)) :
    readEntries (steps + 1) (entryText key value ++ closer :: rest) =
      readEntryBehindValue steps key value (closer :: rest) := by
  have htext : entryText key value ++ closer :: rest =
      '\x22' :: (key.toList.flatMap escapeChar ++
        '\x22' :: ':' :: ((print value).toList ++ closer :: rest)) := by
    simp [entryText]
  have hquote : readEntries (steps + 1) ('\x22' :: (key.toList.flatMap escapeChar ++
        '\x22' :: ':' :: ((print value).toList ++ closer :: rest))) =
      readEntryBehindQuote steps (key.toList.flatMap escapeChar ++
        '\x22' :: ':' :: ((print value).toList ++ closer :: rest)) := rfl
  have hcolon : readEntryBehindKey steps key (':' :: ((print value).toList ++ closer :: rest)) =
      readEntryBehindColon steps key ((print value).toList ++ closer :: rest) := rfl
  rw [htext, hquote, readEntryBehindQuote, readString_escaped]
  dsimp only
  rw [charsOfCodes_map_toNat, String.ofList_toList, hcolon, readEntryBehindColon, h]
  dsimp only
  rw [skipGaps_cons hcloser]

/-! ## Reading with a number of steps -/

/-- So many steps are enough to read values that are printed in fewer characters. -/
structure ReadsPrinted (steps : Nat) : Prop where
  value : ∀ (t : JsonTree) (rest : List Char), (print t).toList.length < steps →
    ClosesValue rest → readValue steps ((print t).toList ++ rest) = some (t, rest)
  items : ∀ (items : List JsonTree) (rest : List Char), items ≠ [] →
    (itemsText items).length + 1 < steps →
    readItems steps (itemsText items ++ ']' :: rest) = some (items, rest)
  entries : ∀ (entries : List (String × JsonTree)) (rest : List Char), entries ≠ [] →
    (entriesText entries).length + 1 < steps →
    readEntries steps (entriesText entries ++ '\x7d' :: rest) = some (entries, rest)

namespace ReadsPrinted

variable {steps : Nat}

/-- A value takes one step more than its parts. -/
theorem readValue_succ (h : ReadsPrinted steps) (t : JsonTree) (rest : List Char)
    (hsteps : (print t).toList.length < steps + 1) (hrest : ClosesValue rest) :
    readValue (steps + 1) ((print t).toList ++ rest) = some (t, rest) := by
  cases t with
  | null => rfl
  | bool value => cases value <;> rfl
  | number coefficient power => exact readValue_number steps coefficient power hrest
  | string text => exact readValue_string steps text rest
  | list items =>
    cases items with
    | nil => rfl
    | cons item items =>
      rw [toList_print_list] at hsteps ⊢
      simp only [List.length_cons, List.length_append, List.length_nil] at hsteps
      have hitems := h.items (item :: items) rest (List.cons_ne_nil _ _) (by omega)
      obtain ⟨c, cs, hc, hgap, hclose⟩ := exists_itemsText_eq_cons item items
      rw [List.cons_append, List.append_assoc, List.singleton_append]
      rw [hc, List.cons_append] at hitems ⊢
      exact readValue_list hgap hclose hitems
  | object entries =>
    cases entries with
    | nil => rfl
    | cons entry entries =>
      rw [toList_print_object] at hsteps ⊢
      simp only [List.length_cons, List.length_append, List.length_nil] at hsteps
      have hentries := h.entries (entry :: entries) rest (List.cons_ne_nil _ _) (by omega)
      obtain ⟨cs, hcs⟩ := exists_entriesText_eq_cons entry entries
      rw [List.cons_append, List.append_assoc, List.singleton_append]
      rw [hcs, List.cons_append] at hentries ⊢
      exact readValue_object hentries

/-- Items take one step more than the first of them and the others. -/
theorem readItems_succ (h : ReadsPrinted steps) (item : JsonTree) (items : List JsonTree)
    (rest : List Char) (hsteps : (itemsText (item :: items)).length + 1 < steps + 1) :
    readItems (steps + 1) (itemsText (item :: items) ++ ']' :: rest) =
      some (item :: items, rest) := by
  cases items with
  | nil =>
    rw [itemsText_singleton] at hsteps ⊢
    have hitem := h.value item (']' :: rest) (by omega) (by simp [ClosesValue])
    rw [readItems, hitem]
    rfl
  | cons next items =>
    -- The comma closes the first item, and the others are read with the steps that are left.
    rw [itemsText_cons_cons] at hsteps ⊢
    simp only [List.length_cons, List.length_append] at hsteps
    have hitem := h.value item (',' :: (itemsText (next :: items) ++ ']' :: rest)) (by omega)
      (by simp [ClosesValue])
    have hitems := h.items (next :: items) rest (List.cons_ne_nil _ _) (by omega)
    rw [List.append_assoc, List.cons_append, readItems, hitem]
    show (readItems steps _).map _ = _
    rw [hitems]
    rfl

/-- Entries take one step more than the value of the first of them and the others. -/
theorem readEntries_succ (h : ReadsPrinted steps) (key : String) (value : JsonTree)
    (entries : List (String × JsonTree)) (rest : List Char)
    (hsteps : (entriesText ((key, value) :: entries)).length + 1 < steps + 1) :
    readEntries (steps + 1) (entriesText ((key, value) :: entries) ++ '\x7d' :: rest) =
      some ((key, value) :: entries, rest) := by
  have hlength := length_print_lt_entryText key value
  cases entries with
  | nil =>
    rw [entriesText_singleton] at hsteps ⊢
    have hvalue := h.value value ('\x7d' :: rest) (by omega) (by simp [ClosesValue])
    rw [readEntries_entryText steps key value (by decide) rest hvalue]
    rfl
  | cons next entries =>
    rw [entriesText_cons_cons] at hsteps ⊢
    simp only [List.length_cons, List.length_append] at hsteps
    have hvalue := h.value value (',' :: (entriesText (next :: entries) ++ '\x7d' :: rest))
      (by omega) (by simp [ClosesValue])
    have hentries := h.entries (next :: entries) rest (List.cons_ne_nil _ _) (by omega)
    rw [List.append_assoc, List.cons_append,
      readEntries_entryText steps key value (by decide) _ hvalue]
    show (readEntries steps _).map _ = _
    rw [hentries]
    rfl

end ReadsPrinted

/-- As many steps as there are characters are enough. -/
theorem readsPrinted (steps : Nat) : ReadsPrinted steps := by
  -- By induction on the steps and not on the value: each reader calls the others with one step
  -- less.
  induction steps with
  | zero =>
    exact ⟨fun t rest h _ => absurd h (Nat.not_lt_zero _),
      fun items rest _ h => absurd h (Nat.not_lt_zero _),
      fun entries rest _ h => absurd h (Nat.not_lt_zero _)⟩
  | succ steps ih =>
    refine ⟨ih.readValue_succ, fun items rest hne hsteps => ?_, fun entries rest hne hsteps => ?_⟩
    · obtain ⟨item, items, rfl⟩ := List.exists_cons_of_ne_nil hne
      exact ih.readItems_succ item items rest hsteps
    · obtain ⟨⟨key, value⟩, entries, rfl⟩ := List.exists_cons_of_ne_nil hne
      exact ih.readEntries_succ key value entries rest hsteps

/-- **What is printed is read as what it is.** -/
theorem ofText?_print (t : JsonTree) : ofText? (print t) = some t := by
  have hread := (readsPrinted ((print t).toList.length + 1)).value t [] (Nat.lt_succ_self _)
    closesValue_nil
  rw [List.append_nil] at hread
  unfold ofText?
  dsimp only
  rw [hread]
  rfl

/-! ## No control characters -/

/-- No character of a text is a control character below the space. -/
def HasNoControl (cs : List Char) : Prop :=
  ∀ c ∈ cs, 0x20 ≤ c.toNat

/-- A text has no control characters if its parts have none. -/
theorem HasNoControl.append {a b : List Char} (ha : HasNoControl a) (hb : HasNoControl b) :
    HasNoControl (a ++ b) :=
  List.forall_mem_append.mpr ⟨ha, hb⟩

/-- A text has no control characters if its first character is none and the others are none. -/
theorem HasNoControl.cons {c : Char} {cs : List Char} (hc : 0x20 ≤ c.toNat)
    (hcs : HasNoControl cs) : HasNoControl (c :: cs) :=
  List.forall_mem_cons.mpr ⟨hc, hcs⟩

/-- The empty text has no control characters. -/
theorem hasNoControl_nil : HasNoControl [] :=
  List.forall_mem_nil _

/-- An integer is printed without control characters. -/
theorem hasNoControl_toString_int (z : Int) : HasNoControl (toString z).toList := by
  have hdigits : HasNoControl (Nat.toDigits 10 z.natAbs) := by
    intro c hc
    have hdigit := Nat.isDigit_of_mem_toDigits (by decide) (by decide) hc
    rw [Char.isDigit_iff_toNat] at hdigit
    have hzero : '0'.toNat = 0x30 := rfl
    omega
  rw [toList_toString_int]
  split
  · exact .cons (by decide) hdigits
  · exact hdigits

/-- Whether a word has control characters can be looked up. -/
theorem hasNoControl_of_all {word : List Char} (h : word.all (0x20 ≤ ·.toNat) = true) :
    HasNoControl word := by
  simpa [HasNoControl] using h

/-- Escaped characters are no control characters. -/
theorem hasNoControl_escaped (cs : List Char) : HasNoControl (cs.flatMap escapeChar) := by
  intro x hx
  obtain ⟨c, -, hmem⟩ := List.mem_flatMap.mp hx
  exact not_control_of_mem_escapeChar hmem

/-- An entry is printed without control characters if its value is. -/
theorem hasNoControl_entryText (key : String) {value : JsonTree}
    (h : HasNoControl (print value).toList) : HasNoControl (entryText key value) :=
  .cons (by decide) ((hasNoControl_escaped _).append (.cons (by decide) (.cons (by decide) h)))

mutual

/-- A value is printed without control characters. -/
theorem hasNoControl_print (t : JsonTree) : HasNoControl (print t).toList := by
  match t with
  | null => exact hasNoControl_of_all (by decide)
  | bool true => exact hasNoControl_of_all (by decide)
  | bool false => exact hasNoControl_of_all (by decide)
  | number coefficient power =>
    rw [print, String.toList_append]
    refine (hasNoControl_toString_int coefficient).append ?_
    split
    · exact hasNoControl_nil
    · rw [String.toList_append]
      exact .cons (by decide) (hasNoControl_toString_int power)
  | string text =>
    rw [print, quote, String.toList_ofList]
    exact .append (.cons (by decide) (hasNoControl_escaped _)) (.cons (by decide) hasNoControl_nil)
  | list items =>
    rw [toList_print_list]
    exact .cons (by decide) ((hasNoControl_itemsText items).append
      (.cons (by decide) hasNoControl_nil))
  | object entries =>
    rw [toList_print_object]
    exact .cons (by decide) ((hasNoControl_entriesText entries).append
      (.cons (by decide) hasNoControl_nil))

/-- Items are printed without control characters. -/
theorem hasNoControl_itemsText (items : List JsonTree) : HasNoControl (itemsText items) := by
  match items with
  | [] => exact hasNoControl_nil
  | [item] =>
    rw [itemsText_singleton]
    exact hasNoControl_print item
  | item :: next :: items =>
    rw [itemsText_cons_cons]
    exact (hasNoControl_print item).append
      (.cons (by decide) (hasNoControl_itemsText (next :: items)))

/-- Entries are printed without control characters. -/
theorem hasNoControl_entriesText (entries : List (String × JsonTree)) :
    HasNoControl (entriesText entries) := by
  match entries with
  | [] => exact hasNoControl_nil
  | [(key, value)] =>
    rw [entriesText_singleton]
    exact hasNoControl_entryText key (hasNoControl_print value)
  | (key, value) :: next :: entries =>
    rw [entriesText_cons_cons]
    exact (hasNoControl_entryText key (hasNoControl_print value)).append
      (.cons (by decide) (hasNoControl_entriesText (next :: entries)))

end

end JsonTree

end LineSum

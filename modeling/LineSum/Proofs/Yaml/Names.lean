import LineSum.Proofs.Config.Settings
import LineSum.Proofs.Yaml.Reading

/-!
# Names of records

Whatever a document stands for, no map in it has a name twice, so that what holds of values with
distinct names holds of every configuration that is read. Records get their names distinct when
entries are stored in them, and everything else that is read is put together from contents that have
been read before.
-/

namespace LineSum.Yaml

/-- No record in the content has a name twice. -/
inductive Content.HasDistinctNames : Content → Prop
  | datum (value : Datum) : (datum value).HasDistinctNames
  | list {items : List Content} (hitems : ∀ item ∈ items, item.HasDistinctNames) :
    (list items).HasDistinctNames
  | record {entries : List (String × Content)} (hnames : (entries.map Prod.fst).Nodup)
    (hvalues : ∀ entry ∈ entries, entry.2.HasDistinctNames) : (record entries).HasDistinctNames
  | set {items : List Content} (hitems : ∀ item ∈ items, item.HasDistinctNames) :
    (set items).HasDistinctNames
  | orderedMap {entries : List (Content × Content)}
    (hkeys : ∀ entry ∈ entries, entry.1.HasDistinctNames)
    (hvalues : ∀ entry ∈ entries, entry.2.HasDistinctNames) :
    (orderedMap entries).HasDistinctNames
  | missing : missing.HasDistinctNames
  | enclosing (offset : Nat) (name : String) : (enclosing offset name).HasDistinctNames

/-! ## Entries on the way into a map -/

namespace Member

/-- No record in the key or in the value has a name twice. -/
structure HasDistinctNames (m : Member) : Prop where
  key : m.key.HasDistinctNames
  value : m.value.HasDistinctNames

/-- The record of entries has distinct names. -/
theorem recordOf_hasDistinctNames {members : List Member}
    (h : ∀ m ∈ members, m.HasDistinctNames) : (recordOf members).HasDistinctNames := by
  unfold recordOf
  -- What holds of the entries so far: distinct names, and nothing but such contents.
  suffices hfold : ∀ entries : Record Content, (entries.map Prod.fst).Nodup →
      (∀ entry ∈ entries, entry.2.HasDistinctNames) →
      ((members.foldl addTo entries).map Prod.fst).Nodup ∧
        ∀ entry ∈ members.foldl addTo entries, entry.2.HasDistinctNames by
    obtain ⟨hnames, hvalues⟩ := hfold [] List.nodup_nil (List.forall_mem_nil _)
    exact .record hnames hvalues
  induction members with
  | nil => exact fun entries hnames hvalues => ⟨hnames, hvalues⟩
  | cons m rest ih =>
    intro entries hnames hvalues
    have hput (name : String) : ∀ entry ∈ entries.put name m.value, entry.2.HasDistinctNames := by
      intro entry hentry
      rcases Record.of_mem_put hentry with heq | hmem
      · exact heq ▸ (h m List.mem_cons_self).value
      · exact hvalues entry hmem
    refine ih (fun other hother => h other (List.mem_cons_of_mem _ hother)) _ ?_ ?_
    · unfold addTo
      split
      · exact Record.nodup_put hnames _ _
      · split
        · split
          · exact hnames
          · exact Record.nodup_put hnames _ _
        · exact hnames
    · unfold addTo
      split
      · exact hput _
      · split
        · split
          · exact hvalues
          · exact hput _
        · exact hvalues

/-- The entries that are taken over from a map are entries of it. -/
theorem ofMap_hasDistinctNames {members : List Member} (h : ∀ m ∈ members, m.HasDistinctNames) :
    ∀ m ∈ ofMap members, m.HasDistinctNames := by
  suffices hfold : ∀ seen : List Member, (∀ m ∈ seen, m.HasDistinctNames) →
      ∀ m ∈ members.foldl addToMap seen, m.HasDistinctNames by
    intro m hm
    obtain ⟨original, horiginal, rfl⟩ := List.mem_map.mp hm
    exact ⟨(hfold [] (List.forall_mem_nil _) original horiginal).key,
      (hfold [] (List.forall_mem_nil _) original horiginal).value⟩
  induction members with
  | nil => exact fun seen hseen => hseen
  | cons m rest ih =>
    intro seen hseen
    have hm := h m List.mem_cons_self
    refine ih (fun other hother => h other (List.mem_cons_of_mem _ hother)) _ ?_
    unfold addToMap
    split
    · split
      · intro entry hentry
        obtain ⟨original, horiginal, rfl⟩ := List.mem_map.mp hentry
        split
        · exact ⟨(hseen original horiginal).key, hm.value⟩
        · exact hseen original horiginal
      · exact hseen
    · exact List.forall_mem_append.mpr ⟨hseen, List.forall_mem_singleton.mpr hm⟩

/-- The keys of a set are contents of entries. -/
theorem setOf_hasDistinctNames {members : List Member} (h : ∀ m ∈ members, m.HasDistinctNames) :
    (setOf members).HasDistinctNames := by
  refine .set ?_
  intro item hitem
  obtain ⟨m, hm, rfl⟩ := List.mem_map.mp hitem
  exact (ofMap_hasDistinctNames h m hm).key

/-- The parts of an item of a set have come with it. -/
theorem parts?_hasDistinctNames {item : Member} (h : item.HasDistinctNames) {parts : List Content}
    (hparts : item.parts? = some parts) : ∀ part ∈ parts, part.HasDistinctNames := by
  obtain ⟨isOwn, name, key, identity, value⟩ := item
  have hkey : key.HasDistinctNames := h.key
  unfold parts? at hparts
  cases hkey with
  | list hitems | set hitems =>
    cases hparts
    exact hitems
  | orderedMap hkeys hvalues =>
    cases hparts
    intro part hpart
    obtain ⟨entry, hentry, rfl⟩ := List.mem_map.mp hpart
    refine .list ?_
    simpa using ⟨hkeys entry hentry, hvalues entry hentry⟩
  | datum value =>
    cases value with
    | atom value =>
      cases value with
      | string text =>
        cases hparts
        intro part hpart
        obtain ⟨_, _, rfl⟩ := List.mem_map.mp hpart
        exact .datum _
      | _ => cases hparts
    | bytes content =>
      cases hparts
      intro part hpart
      obtain ⟨_, _, rfl⟩ := List.mem_map.mp hpart
      exact .datum _
    | _ => cases hparts
  | record | missing | enclosing => cases hparts

/-- What is taken over from an item of a set has come with it. -/
theorem ofItem?_hasDistinctNames {item m : Member} (h : item.HasDistinctNames)
    (hm : item.ofItem? = some m) : m.HasDistinctNames := by
  obtain ⟨parts, hparts, rfl⟩ := Option.map_eq_some_iff.mp hm
  have hget (i : Nat) : (parts.getD i .missing).HasDistinctNames := by
    rw [List.getD_eq_getElem?_getD]
    cases hpart : parts[i]? with
    | none => exact .missing
    | some part => exact parts?_hasDistinctNames h hparts part (List.mem_of_getElem? hpart)
  exact ⟨hget 0, hget 1⟩

end Member

/-! ## The account -/

namespace Uses

/-- No record in the contents of an account has a name twice. -/
def HasDistinctNames (uses : Uses) : Prop :=
  ∀ use ∈ uses, ∀ content, use.content = some content → content.HasDistinctNames

variable {uses : Uses}

/-- Noting a use adds no other content. -/
theorem HasDistinctNames.note (h : uses.HasDistinctNames) {use : Use}
    (huse : ∀ content, use.content = some content → content.HasDistinctNames) :
    (uses.note use).HasDistinctNames := by
  unfold Uses.note
  split
  · intro other hother
    obtain ⟨original, horiginal, rfl⟩ := List.mem_map.mp hother
    split
    · exact huse
    · exact h original horiginal
  · exact List.forall_mem_append.mpr ⟨h, List.forall_mem_singleton.mpr huse⟩

/-- Coming to a node adds no content. -/
theorem HasDistinctNames.enter (h : uses.HasDistinctNames) (head : Head) :
    (uses.enter head).HasDistinctNames := by
  unfold Uses.enter
  split
  · refine h.note ?_
    rintro _ ⟨⟩
  · exact h

/-- Leaving a node adds its content at most. -/
theorem HasDistinctNames.leave (h : uses.HasDistinctNames) (head : Head) {content : Content}
    (hcontent : content.HasDistinctNames) : (uses.leave head content).HasDistinctNames := by
  unfold Uses.leave
  split
  · intro use huse
    obtain ⟨original, horiginal, rfl⟩ := List.mem_map.mp huse
    split
    · rintro _ ⟨⟩
      exact hcontent
    · exact h original horiginal
  · exact h

/-- Mentioning an anchor adds no content. -/
theorem HasDistinctNames.mention (h : uses.HasDistinctNames) {anchored : List Node} {target : Node}
    {use : Use} (huse : use ∈ uses) {after : Uses}
    (hafter : uses.mention anchored target use = .ok after) : after.HasDistinctNames := by
  unfold Uses.mention at hafter
  dsimp only at hafter
  generalize (if use.cost = 0 then _ else use.cost) = cost at hafter
  split at hafter
  · cases hafter
  · cases hafter
    exact h.note (h use huse)

end Uses

namespace Account

variable {α β : Type}

/-- From an account with distinct names, a computation comes to one, and its result is as said. -/
def Keeps (x : Account α) (gives : α → Prop) : Prop :=
  ∀ uses : Uses, uses.HasDistinctNames →
    Ends x uses (fun a after => after.HasDistinctNames ∧ gives a) fun _ => True

/-- A value alone keeps the names distinct. -/
theorem keeps_pure {a : α} {gives : α → Prop} (h : gives a) : Keeps (pure a) gives :=
  fun _ huses => ⟨huses, h⟩

/-- What fails comes to no account. -/
theorem keeps_throw (e : NodeError) {gives : α → Prop} : Keeps (throw e) gives :=
  fun _ _ => trivial

/-- Two computations keep the names distinct if the second one does so for each
result of the first. -/
theorem Keeps.bind {x : Account α} {gives : α → Prop} (hx : Keeps x gives) {f : α → Account β}
    {last : β → Prop} (hf : ∀ a, gives a → Keeps (f a) last) : Keeps (x >>= f) last := by
  intro uses huses
  rw [ends_bind]
  refine (hx uses huses).mono ?_
  rintro a after ⟨hafter, ha⟩
  exact hf a ha after hafter

/-- A function of the result keeps the names distinct. -/
theorem Keeps.map {x : Account α} {gives : α → Prop} (hx : Keeps x gives) {f : α → β}
    {last : β → Prop} (hf : ∀ a, gives a → last (f a)) : Keeps (f <$> x) last := by
  intro uses huses
  rw [ends_map]
  refine (hx uses huses).mono ?_
  rintro a after ⟨hafter, ha⟩
  exact ⟨hafter, hf a ha⟩

/-- The account that is there has distinct names. -/
theorem keeps_get : Keeps get Uses.HasDistinctNames :=
  fun _ huses => ⟨huses, huses⟩

/-- A change of the account keeps the names distinct if it does so for each account. -/
theorem keeps_modify {f : Uses → Uses}
    (h : ∀ uses : Uses, uses.HasDistinctNames → (f uses).HasDistinctNames) :
    Keeps (modify f) fun _ => True :=
  fun uses huses => ⟨h uses huses, trivial⟩

/-- A computation without an account keeps the names distinct. -/
theorem keeps_lift (x : Except NodeError α) : Keeps (liftM x) fun _ => True := by
  intro uses huses
  cases x with
  | ok a => exact ends_lift_of_ok rfl ⟨huses, trivial⟩
  | error e => exact ends_lift_of_error rfl trivial

/-- Computations for the items of a list, one after the other, keep the names distinct
if each of them does. -/
theorem keeps_mapM {f : α → Account β} {gives : β → Prop} (items : List α)
    (h : ∀ item ∈ items, Keeps (f item) gives) :
    Keeps (items.mapM f) fun bs => ∀ b ∈ bs, gives b := by
  intro uses huses
  have hitems : ∀ item ∈ items, ∀ before : Uses, before.HasDistinctNames →
      Ends (f item) before (fun b after => after.HasDistinctNames ∧ True ∧ gives b)
        fun _ => True := by
    intro item hitem before hbefore
    refine (h item hitem before hbefore).mono ?_
    rintro b after ⟨hafter, hb⟩
    exact ⟨hafter, trivial, hb⟩
  refine (ends_mapM items hitems huses).mono ?_
  rintro bs after ⟨hafter, -, hbs⟩
  exact ⟨hafter, hbs⟩

/-- A fold over a list keeps the names distinct, and a property of its value, if each step does. -/
theorem keeps_foldlM {f : β → α → Account β} {gives : β → Prop} (items : List α)
    (h : ∀ b, gives b → ∀ item ∈ items, Keeps (f b item) gives) {b : β} (hb : gives b) :
    Keeps (items.foldlM f b) gives := by
  induction items generalizing b with
  | nil => exact keeps_pure hb
  | cons item rest ih =>
    rw [List.foldlM_cons]
    refine (h b hb item List.mem_cons_self).bind ?_
    intro next hnext
    exact ih (fun b hb other hother => h b hb other (List.mem_cons_of_mem _ hother)) hnext

end Account

namespace Setting

open Account

/-- With so many steps, everything that is read has distinct names. -/
structure ReadsDistinctNames (s : Setting) (depth : Nat) : Prop where
  content : ∀ node, Keeps (s.content depth node) Content.HasDistinctNames
  members : ∀ form pair, Keeps (s.members depth form pair)
    fun members => ∀ m ∈ members, m.HasDistinctNames
  addOrdered : ∀ seen pair, (∀ m ∈ seen, m.HasDistinctNames) →
    Keeps (s.addOrdered depth seen pair) fun members => ∀ m ∈ members, m.HasDistinctNames
  takenOver : ∀ value, Keeps (s.takenOver depth value)
    fun members => ∀ m ∈ members, m.HasDistinctNames
  takenFrom : ∀ source, Keeps (s.takenFrom depth source)
    fun members => ∀ m ∈ members, m.HasDistinctNames

variable {s : Setting}

/-- The name of an entry is found without changing the account. -/
theorem keeps_entryName (key : Node) (found : Content) :
    Keeps (s.entryName key found) fun _ => True := by
  unfold entryName
  split
  case h_5 =>
    refine keeps_get.bind ?_
    intro uses _
    refine (keeps_lift _).bind ?_
    intro _ _
    exact keeps_pure trivial
  all_goals exact keeps_pure trivial

/-- What is mentioned is in the account. -/
theorem keeps_mentioned (target : Node) :
    Keeps (s.mentioned target) Content.HasDistinctNames := by
  intro uses huses
  unfold mentioned
  simp only [ends_bind, ends_get]
  cases hat : uses.at? target.anchorOffset with
  | none => exact ⟨huses, .missing⟩
  | some use =>
    have hmem : use ∈ uses := List.mem_of_find?_eq_some hat
    simp only [ends_bind, ends_get]
    cases hafter : uses.mention s.anchored target use with
    | error e => exact ends_lift_of_error rfl trivial
    | ok after =>
      refine ends_lift_of_ok rfl ⟨huses.mention hmem hafter, ?_⟩
      cases hcontent : use.content with
      | none => exact .enclosing _ _
      | some content => exact huses use hmem content hcontent

/-- The content of an alias has distinct names. -/
theorem keeps_alias {depth : Nat} (ih : s.ReadsDistinctNames depth) (head : Head) (name : String) :
    Keeps (s.content (depth + 1) (.alias head name)) Content.HasDistinctNames := by
  rw [content]
  split
  · exact keeps_throw _
  · next target _ =>
    refine keeps_get.bind ?_
    intro _ _
    dsimp only
    split
    · have hread : Keeps (discard (s.content depth target)) fun _ => True :=
        (ih.content target).map fun _ _ => trivial
      exact hread.bind fun _ _ => keeps_mentioned target
    · exact keeps_mentioned target

/-- All entries that are read have distinct names if those for each item have. -/
theorem keeps_entries {α : Type} {f : α → Account (List Member)} (items : List α)
    (h : ∀ item ∈ items, Keeps (f item) fun members => ∀ m ∈ members, m.HasDistinctNames) :
    Keeps (items.mapM f) fun members => ∀ m ∈ members.flatten, m.HasDistinctNames := by
  intro uses huses
  refine (keeps_mapM items h uses huses).mono ?_
  rintro members after ⟨hafter, hmembers⟩
  refine ⟨hafter, ?_⟩
  intro m hm
  obtain ⟨few, hfew, hmem⟩ := List.mem_flatten.mp hm
  exact hmembers few hfew m hmem

/-- Coming to a node. -/
theorem keeps_entered (head : Head) : Keeps (modify (·.enter head)) fun _ => True :=
  keeps_modify fun _ huses => huses.enter head

/-- Content with which a node is left. -/
theorem keeps_left {found : Content} (h : found.HasDistinctNames) (head : Head) :
    Keeps (do modify (·.leave head found); return found) Content.HasDistinctNames := by
  refine (keeps_modify fun _ huses => huses.leave head h).bind ?_
  intro _ _
  exact keeps_pure h

/-- A list of contents. -/
theorem keeps_listed {x : Account (List Content)}
    (hx : Keeps x fun items => ∀ item ∈ items, item.HasDistinctNames) :
    Keeps (Content.list <$> x) Content.HasDistinctNames :=
  hx.map fun _ hitems => .list hitems

/-- The content of pairs that keep their order, or of a list of records, one for each pair. -/
theorem keeps_pairs {depth : Nat} (ih : s.ReadsDistinctNames depth) (head : Head) (ordered : Bool)
    (items : List NodePair) :
    Keeps (s.content (depth + 1) (.pairs head ordered items)) Content.HasDistinctNames := by
  rw [content]
  · refine (keeps_entered head).bind ?_
    intro _ _
    cases ordered with
    | true =>
      have hpairs : Keeps (items.foldlM (s.addOrdered depth) []) fun members =>
          ∀ m ∈ members, m.HasDistinctNames :=
        keeps_foldlM items (fun seen hseen pair _ => ih.addOrdered seen pair hseen)
          (List.forall_mem_nil _)
      refine hpairs.bind ?_
      intro members hmembers
      have hentries : ∀ entry ∈ members.reverse.map (fun m => (m.key, m.value)),
          entry.1.HasDistinctNames ∧ entry.2.HasDistinctNames := by
        intro entry hentry
        obtain ⟨m, hm, rfl⟩ := List.mem_map.mp hentry
        have hnames := hmembers m (List.mem_reverse.mp hm)
        exact ⟨hnames.key, hnames.value⟩
      exact keeps_left (.orderedMap (fun entry hentry => (hentries entry hentry).1)
        fun entry hentry => (hentries entry hentry).2) head
    | false =>
      have hrecords : ∀ pair ∈ items,
          Keeps (Member.recordOf <$> s.members depth .record pair) Content.HasDistinctNames :=
        fun pair _ => (ih.members .record pair).map fun _ h => Member.recordOf_hasDistinctNames h
      refine (keeps_listed (keeps_mapM items hrecords)).bind ?_
      intro found hfound
      exact keeps_left hfound head
  · rintro _ _ ⟨⟩

/-- The content of a map or a set. -/
theorem keeps_map {depth : Nat} (ih : s.ReadsDistinctNames depth) (head : Head) (isSet : Bool)
    (entries : List NodePair) :
    Keeps (s.content (depth + 1) (.map head isSet entries)) Content.HasDistinctNames := by
  rw [content]
  · refine (keeps_entered head).bind ?_
    intro _ _
    cases isSet with
    | true =>
      refine (keeps_entries entries fun pair _ => ih.members .set pair).bind ?_
      intro members hmembers
      exact keeps_left (Member.setOf_hasDistinctNames hmembers) head
    | false =>
      refine (keeps_entries entries fun pair _ => ih.members .record pair).bind ?_
      intro members hmembers
      exact keeps_left (Member.recordOf_hasDistinctNames hmembers) head
  · rintro _ _ ⟨⟩

/-- The content of a node has distinct names if what is below it has. -/
theorem keeps_content {depth : Nat} (ih : s.ReadsDistinctNames depth) (node : Node) :
    Keeps (s.content (depth + 1) node) Content.HasDistinctNames := by
  cases node with
  | scalar head style source reading =>
    rw [content]
    · refine (keeps_entered head).bind ?_
      intro _ _
      exact keeps_left (.datum _) head
    · rintro _ _ ⟨⟩
  | list head items =>
    rw [content]
    · refine (keeps_entered head).bind ?_
      intro _ _
      refine (keeps_listed (keeps_mapM items fun item _ => ih.content item)).bind ?_
      intro found hfound
      exact keeps_left hfound head
    · rintro _ _ ⟨⟩
  | pairs head ordered items => exact keeps_pairs ih head ordered items
  | map head isSet entries => exact keeps_map ih head isSet entries
  | _ => exact keeps_alias ih _ _

/-- The entries of a pair have distinct names if what is below it has. -/
theorem keeps_members {depth : Nat} (ih : s.ReadsDistinctNames depth) (form : MapForm)
    (pair : NodePair) :
    Keeps (s.members (depth + 1) form pair) fun members => ∀ m ∈ members, m.HasDistinctNames := by
  obtain ⟨key, value⟩ := pair
  rw [members]
  split
  · exact ih.takenOver value
  · refine (ih.content key).bind ?_
    intro keyContent hkey
    have hrest (name : String) {x : Account Content} (hx : Keeps x Content.HasDistinctNames) :
        Keeps (do
          let valueContent ← x
          return [⟨true, name, keyContent,
            (s.target? key).bind fun node => node.head.anchor.map Anchor.offset, valueContent⟩])
          fun members : List Member => ∀ m ∈ members, m.HasDistinctNames := by
      refine hx.bind ?_
      intro valueContent hvalue
      exact keeps_pure (List.forall_mem_singleton.mpr ⟨hkey, hvalue⟩)
    dsimp only
    -- Only in a record a key has a name; with or without one, the value depends on the form.
    split
    on_goal 1 => refine (keeps_entryName key keyContent).bind ?_
    on_goal 2 => refine (keeps_pure trivial : Keeps (pure "") fun _ => True).bind ?_
    all_goals
      intro name _
      split
      · exact hrest name (keeps_pure .missing)
      · exact hrest name (keeps_pure (.datum _))
      · exact hrest name (ih.content _)

/-- Adding a pair to a map that keeps the order of its keys. -/
theorem keeps_addOrdered {depth : Nat} (ih : s.ReadsDistinctNames depth) {seen : List Member}
    (hseen : ∀ m ∈ seen, m.HasDistinctNames) (pair : NodePair) :
    Keeps (s.addOrdered (depth + 1) seen pair) fun members =>
      ∀ m ∈ members, m.HasDistinctNames := by
  obtain ⟨key, value⟩ := pair
  rw [addOrdered]
  refine (ih.content key).bind ?_
  intro keyContent hkey
  dsimp only
  split
  on_goal 1 => refine (keeps_pure (.datum _) : Keeps (pure .null) Content.HasDistinctNames).bind ?_
  on_goal 2 => refine (ih.content _).bind ?_
  all_goals
    intro valueContent hvalue
    split
    · exact keeps_throw _
    · exact keeps_pure (List.forall_mem_cons.mpr ⟨⟨hkey, hvalue⟩, hseen⟩)

/-- The entries that are taken over from a map, or from all maps in a list. -/
theorem keeps_takenOver {depth : Nat} (ih : s.ReadsDistinctNames depth) (value : Option Node) :
    Keeps (s.takenOver (depth + 1) value) fun members => ∀ m ∈ members, m.HasDistinctNames := by
  rw [takenOver]
  split
  · refine (keeps_entries _ fun item _ => ih.takenFrom (s.target? item)).bind ?_
    intro members hmembers
    exact keeps_pure hmembers
  · exact keeps_pure (List.forall_mem_nil _)
  · exact ih.takenFrom _

/-- The entries that are taken over from one node. -/
theorem keeps_takenFrom {depth : Nat} (ih : s.ReadsDistinctNames depth) (source : Option Node) :
    Keeps (s.takenFrom (depth + 1) source) fun members => ∀ m ∈ members, m.HasDistinctNames := by
  -- Only maps and sets can be taken over.
  cases source with
  | none => exact keeps_throw _
  | some node =>
    cases node with
    | map head isSet entries =>
      cases isSet with
      | false =>
        rw [takenFrom]
        refine (keeps_entries entries fun pair _ => ih.members .map pair).bind ?_
        intro members hmembers
        exact keeps_pure (Member.ofMap_hasDistinctNames hmembers)
      | true =>
        rw [takenFrom]
        refine (keeps_entries entries fun pair _ => ih.members .set pair).bind ?_
        intro items hitems
        refine keeps_mapM _ ?_
        intro item hitem
        split
        · next member hmember =>
          exact keeps_pure (Member.ofItem?_hasDistinctNames (hitems item hitem) hmember)
        · exact keeps_throw _
    | _ => exact keeps_throw _

/-- Everything that is read has distinct names, however many steps there are. -/
theorem readsDistinctNames (s : Setting) (depth : Nat) : s.ReadsDistinctNames depth := by
  -- By induction on the steps for all readers at once, since they call each other.
  induction depth with
  | zero =>
    constructor
    case content =>
      intro node
      rw [content]
      exact keeps_throw _
    case members =>
      rintro form ⟨key, value⟩
      rw [members]
      exact keeps_throw _
    case addOrdered =>
      rintro seen ⟨key, value⟩ _
      rw [addOrdered]
      exact keeps_throw _
    case takenOver =>
      intro value
      rw [takenOver]
      exact keeps_throw _
    case takenFrom =>
      intro source
      rw [takenFrom]
      exact keeps_throw _
  | succ depth ih =>
    exact {
      content := keeps_content ih
      members := keeps_members ih
      addOrdered := fun _ pair hseen => keeps_addOrdered ih hseen pair
      takenOver := keeps_takenOver ih
      takenFrom := keeps_takenFrom ih }

end Setting

/-! ## Values -/

namespace Content

/-- The places of bytes are distinct names. -/
theorem valueOfBytes_hasDistinctNames (content : List Nat) :
    (valueOfBytes content).HasDistinctNames := by
  unfold valueOfBytes
  refine .map ?_ ?_
  · have hplaces : ((content.zipIdx.map Prod.snd).map Nat.repr).Nodup := by
      rw [List.zipIdx_map_snd]
      exact (List.nodup_range' 1).map fun _ _ heq => Nat.repr_injective heq
    rw [List.map_map] at hplaces ⊢
    exact hplaces
  · intro entry hentry
    obtain ⟨_, _, rfl⟩ := List.mem_map.mp hentry
    exact .atom _

variable {outer : Nat → Value} (houter : ∀ offset, (outer offset).HasDistinctNames)

/-- The values of a row are those of its items. -/
theorem toValues_eq_map (items : List Content) :
    toValues outer items = items.map (toValue outer) := by
  induction items with
  | nil => rfl
  | cons item rest ih => rw [toValues, ih, List.map_cons]

/-- The values of a map are those of its entries, under their names. -/
theorem toEntries_eq_map (entries : List (String × Content)) :
    toEntries outer entries = entries.map fun entry => (entry.1, toValue outer entry.2) := by
  induction entries with
  | nil => rfl
  | cons entry rest ih => rw [toEntries, ih, List.map_cons]

include houter in
/-- The value of content with distinct names has distinct names. -/
theorem toValue_hasDistinctNames {content : Content} (h : content.HasDistinctNames) :
    (content.toValue outer).HasDistinctNames := by
  induction h with
  | datum value =>
    cases value with
    | atom value => exact .atom value
    | bytes content => exact valueOfBytes_hasDistinctNames content
    | moment milliseconds => exact .map List.nodup_nil (List.forall_mem_nil _)
    | mergeSign => exact .other
  | list _ ih =>
    rw [toValue, toValues_eq_map]
    exact .list (List.forall_mem_map.mpr ih)
  | record hnames _ ih =>
    rw [toValue, toEntries_eq_map]
    refine .map ?_ (List.forall_mem_map.mpr ih)
    rwa [List.map_map]
  | set | orderedMap => exact .map List.nodup_nil (List.forall_mem_nil _)
  | missing => exact .absent
  | enclosing offset name => exact houter offset

/-- However often collections that contain themselves are followed, the value has distinct names. -/
theorem valueWithin_hasDistinctNames {uses : Uses} (huses : uses.HasDistinctNames) (times : Nat)
    {content : Content} (h : content.HasDistinctNames) :
    (content.valueWithin uses times).HasDistinctNames := by
  induction times generalizing content with
  | zero => exact toValue_hasDistinctNames (fun _ => .absent) h
  | succ times ih =>
    rw [valueWithin]
    refine toValue_hasDistinctNames ?_ h
    intro offset
    split
    · next inner hinner =>
      obtain ⟨use, huse, hcontent⟩ := Option.bind_eq_some_iff.mp hinner
      exact ih (huses use (List.mem_of_find?_eq_some huse) inner hcontent)
    · exact .absent

end Content

/-- **No map in the value of a node has a name twice.** -/
theorem Node.value_hasDistinctNames {directives : Directives} {root : Node} {value : Value}
    (h : root.value directives = .ok value) : value.HasDistinctNames := by
  have hends : Account.Ends ((root.setting directives).content
      ((root.setting directives).stepLimit root) root) []
      (fun content after => (content.valueWithin after unrollLimit).HasDistinctNames)
      fun _ => True :=
    (((root.setting directives).readsDistinctNames _).content root []
      (List.forall_mem_nil _)).mono fun _ _ hfound =>
        Content.valueWithin_hasDistinctNames hfound.1 unrollLimit hfound.2
  rcases Node.value_of_ends Value.HasDistinctNames hends with
    ⟨found, hfound, hnames⟩ | ⟨e, herror, -⟩
  · rw [h] at hfound
    cases hfound
    exact hnames
  · rw [h] at herror
    cases herror

/-- **No map in the value of a document has a name twice.** -/
theorem Document.value_hasDistinctNames {document : Document} {value : Value}
    (h : document.value = .ok value) : value.HasDistinctNames := by
  unfold Document.value at h
  split at h
  · exact Node.value_hasDistinctNames h
  · cases h
    exact .atom _

end LineSum.Yaml

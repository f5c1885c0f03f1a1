import Mathlib.Data.List.TakeWhile
import LineSum.Files.Find

/-!
# What can be searched for

A pattern is turned down if it is empty, if its braces or those of the texts to be left out cannot
be expanded, if a search would begin in a directory with a reserved name, or if a mere exclamation
mark stands among the texts. Every other pattern can be searched for in every tree.
-/

namespace LineSum

open Glob (Pattern)

section Outcomes

variable {ε α β : Type}

/-- One step after another succeeds exactly if both do. -/
theorem bind_eq_ok_iff {x : Except ε α} {f : α → Except ε β} {b : β} :
    (x >>= f) = .ok b ↔ ∃ a, x = .ok a ∧ f a = .ok b := by
  cases x with
  | error e =>
    constructor
    · rintro ⟨⟩
    · rintro ⟨_, ⟨⟩, -⟩
  | ok a =>
    constructor
    · intro h
      exact ⟨a, rfl, h⟩
    · rintro ⟨_, ⟨⟩, h⟩
      exact h

/-- A result that is changed was there before. -/
theorem map_eq_ok_iff {x : Except ε α} {f : α → β} {b : β} :
    x.map f = .ok b ↔ ∃ a, x = .ok a ∧ f a = b := by
  cases x with
  | error e =>
    constructor
    · rintro ⟨⟩
    · rintro ⟨_, ⟨⟩, -⟩
  | ok a =>
    constructor
    · intro h
      exact ⟨a, rfl, Except.ok.inj h⟩
    · rintro ⟨_, ⟨⟩, h⟩
      exact congrArg Except.ok h

end Outcomes

namespace Glob

/-! ## Expansion -/

/-- What a text with braces stands for, written as patterns: each once, and none that is empty. -/
def asPatterns (texts : List (List Char)) : List (List Char) :=
  ((texts.eraseDups).filter (!·.isEmpty)).map mergeSlashes

/-- Only a text with an opening and a closing brace is expanded. -/
theorem expandBraces_eq (text : List Char) :
    expandBraces text =
      if hasBraces text && 3 ≤ unitLength text then
        (expandParts false 0 [] (bracePartsOf text)).map fun found =>
          asPatterns found.reverse.flatten
      else .ok (asPatterns [text]) := by
  unfold expandBraces
  dsimp only
  split
  · cases expandParts false 0 [] (bracePartsOf text) <;> rfl
  · rfl

/-- Merging slashes leaves no text empty. -/
theorem mergeSlashes_eq_nil_iff {text : List Char} : mergeSlashes text = [] ↔ text = [] := by
  cases text with
  | nil => simp [mergeSlashes]
  | cons c rest => simp [mergeSlashes]

/-- Behind the first character, merging slashes leaves nothing only of nothing. -/
theorem mergeSlashes_go_eq_nil {rest : List Char} (h : mergeSlashes.go rest = []) : rest = [] := by
  induction rest using mergeSlashes.go.induct with
  | case1 rest ih =>
    rw [mergeSlashes.go] at h
    cases ih h
  | case2 c rest hother ih =>
    rw [mergeSlashes.go] at h
    · cases h
    · exact hother
  | case3 => rfl

/-- Only a single character is merged to one. -/
theorem eq_singleton_of_mergeSlashes {text : List Char} {c : Char}
    (h : mergeSlashes text = [c]) : text = [c] := by
  cases text with
  | nil => cases h
  | cons d rest =>
    rw [mergeSlashes] at h
    obtain ⟨rfl, hrest⟩ := List.cons.inj h
    rw [mergeSlashes_go_eq_nil hrest]

/-- A text that is not empty gives one pattern. -/
theorem mem_asPatterns_singleton_iff {text t : List Char} :
    t ∈ asPatterns [text] ↔ text ≠ [] ∧ t = mergeSlashes text := by
  unfold asPatterns
  rw [List.eraseDups_cons, List.mem_map]
  constructor
  · rintro ⟨kept, hkept, rfl⟩
    obtain ⟨hmem, hne⟩ := List.mem_filter.mp hkept
    obtain rfl := List.mem_singleton.mp hmem
    exact ⟨by simpa using hne, rfl⟩
  · rintro ⟨hne, rfl⟩
    exact ⟨text, List.mem_filter.mpr ⟨List.mem_cons_self, by simpa using hne⟩, rfl⟩

/-- Patterns are not empty. -/
theorem nil_not_mem_asPatterns (texts : List (List Char)) : [] ∉ asPatterns texts := by
  intro h
  obtain ⟨text, htext, hmerge⟩ := List.mem_map.mp h
  rw [mergeSlashes_eq_nil_iff] at hmerge
  subst hmerge
  simp at htext

/-- A text with braces stands for no empty pattern. -/
theorem nil_not_mem_of_expandBraces {text : List Char} {texts : List (List Char)}
    (h : expandBraces text = .ok texts) : [] ∉ texts := by
  rw [expandBraces_eq] at h
  split at h
  · obtain ⟨found, -, rfl⟩ := map_eq_ok_iff.mp h
    exact nil_not_mem_asPatterns _
  · cases h
    exact nil_not_mem_asPatterns _

/-- A text without an opening brace stands for itself. -/
theorem expandBraces_of_no_brace {text : List Char} (h : '\x7b' ∉ text) :
    expandBraces text = .ok (asPatterns [text]) := by
  have hdrop : text.dropWhile (· != '\x7b') = [] := by
    rw [List.dropWhile_eq_nil_iff]
    intro c hc
    have hne : c ≠ '\x7b' := by
      rintro rfl
      exact h hc
    simpa using hne
  have hbraces : hasBraces text = false := by
    unfold hasBraces
    rw [hdrop]
    rfl
  rw [expandBraces_eq, hbraces]
  rfl

/-- Texts are expanded one by one. -/
theorem expandAll_cons (text : String) (texts : List String) :
    expandAll (text :: texts) = (do
      let first ← expandBraces text.toList
      let rest ← expandAll texts
      return first ++ rest) := by
  unfold expandAll
  rw [List.mapM_cons]
  cases expandBraces text.toList with
  | error e => rfl
  | ok first =>
    cases List.mapM (fun text => expandBraces text.toList) texts <;> rfl

/-- Several texts stand for no empty pattern. -/
theorem nil_not_mem_of_expandAll {texts : List String} {found : List (List Char)}
    (h : expandAll texts = .ok found) : [] ∉ found := by
  induction texts generalizing found with
  | nil =>
    cases h
    exact List.not_mem_nil
  | cons text texts ih =>
    rw [expandAll_cons] at h
    obtain ⟨first, hfirst, h⟩ := bind_eq_ok_iff.mp h
    obtain ⟨rest, hrest, h⟩ := bind_eq_ok_iff.mp h
    cases h
    rw [List.mem_append, not_or]
    exact ⟨nil_not_mem_of_expandBraces hfirst, ih hrest⟩

/-- Texts without opening braces stand for themselves. -/
theorem expandAll_of_no_brace {texts : List String} (h : ∀ text ∈ texts, '\x7b' ∉ text.toList) :
    expandAll texts = .ok (texts.flatMap fun text => asPatterns [text.toList]) := by
  induction texts with
  | nil => rfl
  | cons text texts ih =>
    rw [List.forall_mem_cons] at h
    rw [expandAll_cons, expandBraces_of_no_brace h.1, ih h.2]
    rfl

/-- What is left out says nothing only if it is a mere exclamation mark. -/
theorem withoutNegation_eq_nil_iff {text : List Char} (h : text ≠ []) :
    withoutNegation text = [] ↔ text = ['!'] := by
  obtain ⟨c, rest, rfl⟩ := List.exists_cons_of_ne_nil h
  unfold withoutNegation isNegative
  by_cases hc : c = '!'
  · cases rest with
    | nil => simp [hc]
    | cons d rest => by_cases hd : d = '(' <;> simp [hc, hd]
  · simp [hc]

end Glob

/-! ## Tasks -/

namespace SearchTask

/-- Adding a pattern adds its directory, unless that is there. -/
theorem mem_bases_add {tasks : List SearchTask} {p : Pattern} {base : List Char} :
    base ∈ (add tasks p).map SearchTask.base ↔
      base ∈ tasks.map SearchTask.base ∨ base = p.base := by
  unfold add
  split
  · next hany =>
    obtain ⟨task, htask, hbase⟩ := List.any_eq_true.mp hany
    have hsame : (tasks.map fun task =>
        if task.base = p.base then { task with patterns := task.patterns ++ [p] } else task).map
          SearchTask.base = tasks.map SearchTask.base := by
      rw [List.map_map]
      refine List.map_congr_left ?_
      intro task _
      dsimp only [Function.comp_apply]
      split <;> rfl
    rw [hsame]
    refine (or_iff_left_of_imp ?_).symm
    rintro rfl
    rw [← of_decide_eq_true hbase]
    exact List.mem_map_of_mem htask
  · simp

/-- The directories of the tasks are those of the patterns. -/
theorem mem_bases_foldl_add {patterns : List Pattern} {tasks : List SearchTask}
    {base : List Char} :
    base ∈ (patterns.foldl add tasks).map SearchTask.base ↔
      base ∈ tasks.map SearchTask.base ∨ ∃ p ∈ patterns, base = p.base := by
  induction patterns generalizing tasks with
  | nil => simp
  | cons p patterns ih => rw [List.foldl_cons, ih, mem_bases_add]; simp [or_assoc]

section OfPatterns

variable (patterns : List Pattern)

/-- The tasks for the patterns that leave the directory upwards. -/
def outside : List SearchTask := (patterns.filter (·.leavesUpwards)).foldl add []

/-- The tasks for the patterns that do not. -/
def inside : List SearchTask := (patterns.filter (!·.leavesUpwards)).foldl add []

/-- Together, their directories are those of the patterns. -/
theorem mem_bases_iff {base : List Char} :
    base ∈ (outside patterns ++ inside patterns).map SearchTask.base ↔
      ∃ p ∈ patterns, base = p.base := by
  unfold outside inside
  rw [List.map_append, List.mem_append, mem_bases_foldl_add, mem_bases_foldl_add]
  simp only [List.map_nil, List.not_mem_nil, false_or, List.mem_filter]
  constructor
  · rintro (⟨p, ⟨hp, -⟩, hbase⟩ | ⟨p, ⟨hp, -⟩, hbase⟩)
    · exact ⟨p, hp, hbase⟩
    · exact ⟨p, hp, hbase⟩
  · rintro ⟨p, hp, hbase⟩
    cases hup : p.leavesUpwards with
    | true => exact .inl ⟨p, ⟨hp, hup⟩, hbase⟩
    | false => exact .inr ⟨p, ⟨hp, by simp [hup]⟩, hbase⟩

/-- No directory of a pattern has a reserved name. -/
def AreSearchable : Prop := ∀ p ∈ patterns, String.ofList p.base ∉ reservedNames

/-- The tasks begin in no directory with a reserved name exactly if no pattern has one. -/
theorem any_reserved_eq_false_iff :
    ((outside patterns ++ inside patterns).any fun task =>
        reservedNames.contains (String.ofList task.base)) = false ↔
      AreSearchable patterns := by
  rw [List.any_eq_false]
  constructor
  · intro h p hp hreserved
    obtain ⟨task, htask, hbase⟩ := List.mem_map.mp ((mem_bases_iff patterns).mpr ⟨p, hp, rfl⟩)
    refine h task htask ?_
    rwa [hbase, List.contains_iff_mem]
  · intro h task htask hreserved
    obtain ⟨p, hp, hbase⟩ := (mem_bases_iff patterns).mp (List.mem_map_of_mem htask)
    rw [hbase, List.contains_iff_mem] at hreserved
    exact h p hp hreserved

/-- There are tasks for patterns exactly if no pattern has a directory with a reserved name. -/
theorem exists_ofPatterns_iff :
    (∃ tasks, ofPatterns patterns = .ok tasks) ↔ AreSearchable patterns := by
  rw [← any_reserved_eq_false_iff]
  show (∃ tasks, (if (outside patterns ++ inside patterns).any _ = true then _ else _) = _) ↔ _
  split
  · next hreserved =>
    rw [hreserved]
    refine iff_of_false ?_ Bool.noConfusion
    rintro ⟨_, ⟨⟩⟩
  · next hfree =>
    refine iff_of_true ?_ (Bool.eq_false_iff.mpr hfree)
    split
    · exact ⟨_, rfl⟩
    · exact ⟨_, rfl⟩

variable {patterns}

/-- There is a task if there is a pattern, and only then. -/
theorem eq_nil_iff_of_ofPatterns {tasks : List SearchTask} (h : ofPatterns patterns = .ok tasks) :
    tasks = [] ↔ patterns = [] := by
  have hnil : outside patterns ++ inside patterns = [] ↔ patterns = [] := by
    rw [← List.map_eq_nil_iff (f := SearchTask.base), List.eq_nil_iff_forall_not_mem,
      List.eq_nil_iff_forall_not_mem]
    simp only [mem_bases_iff]
    constructor
    · intro hnone p hp
      exact hnone p.base ⟨p, hp, rfl⟩
    · rintro hnone base ⟨p, hp, -⟩
      exact hnone p hp
  change (if (outside patterns ++ inside patterns).any _ = true then _ else _) = _ at h
  split at h
  · cases h
  · split at h
    · next hhere =>
      -- The patterns of the directory itself are searched for together, and there is one.
      cases h
      refine iff_of_false (by simp) ?_
      rintro rfl
      cases hhere
    · cases h
      exact hnil

end OfPatterns

end SearchTask

/-! ## Searches -/

/-- A pattern can be searched for while others are left out: their braces can be expanded, no
directory of what is looked for has a reserved name, and if anything is looked for, no text is a
mere exclamation mark. -/
def IsSearchable (ignore : List String) (pattern : String) : Prop :=
  ∃ texts left, Glob.expandAll [pattern] = .ok texts ∧
    Glob.expandAll (alwaysIgnored :: ignore) = .ok left ∧
    (∀ text ∈ texts, Glob.isNegative text = false →
      String.ofList (Glob.basePath text) ∉ reservedNames) ∧
    ((∃ text ∈ texts, Glob.isNegative text = false) → ['!'] ∉ texts ++ left)

namespace Search

/-- The texts that are looked for, as patterns. -/
def wanted (texts : List (List Char)) : List Pattern :=
  (texts.filter (!Glob.isNegative ·)).map Pattern.ofText

/-- The texts that are left out, without their signs. -/
def unwanted (texts left : List (List Char)) : List (List Char) :=
  (texts.filter Glob.isNegative ++ left).map Glob.withoutNegation

/-- A text that is left out says nothing exactly if it is a mere exclamation mark. -/
theorem nil_mem_unwanted_iff {texts left : List (List Char)} (htexts : [] ∉ texts)
    (hleft : [] ∉ left) : [] ∈ unwanted texts left ↔ ['!'] ∈ texts ++ left := by
  have hne : ∀ text ∈ texts.filter Glob.isNegative ++ left, text ≠ [] := by
    rintro text htext rfl
    rcases List.mem_append.mp htext with h | h
    · exact htexts (List.mem_filter.mp h).1
    · exact hleft h
  unfold unwanted
  rw [List.mem_map]
  constructor
  · rintro ⟨text, htext, hnil⟩
    rw [Glob.withoutNegation_eq_nil_iff (hne text htext)] at hnil
    subst hnil
    rcases List.mem_append.mp htext with h | h
    · exact List.mem_append_left _ (List.mem_filter.mp h).1
    · exact List.mem_append_right _ h
  · intro h
    refine ⟨['!'], ?_, rfl⟩
    rcases List.mem_append.mp h with h | h
    · exact List.mem_append_left _ (List.mem_filter.mpr ⟨h, rfl⟩)
    · exact List.mem_append_right _ h

/-- Searching for a pattern goes through its texts, the texts to be left out and the tasks. -/
theorem exists_ofTexts_eq_ok_iff {directory : Path} {ignore : List String} {pattern : String} :
    (∃ s, ofTexts directory pattern ignore = .ok s) ↔
      ∃ texts, Glob.expandAll [pattern] = .ok texts ∧
        ∃ left, Glob.expandAll (alwaysIgnored :: ignore) = .ok left ∧
          ∃ named, SearchTask.ofPatterns ((wanted texts).filter (!·.isOpen)) = .ok named ∧
            ∃ opened, SearchTask.ofPatterns ((wanted texts).filter (·.isOpen)) = .ok opened ∧
              (named ++ opened = [] ∨ [] ∉ unwanted texts left) := by
  have hfree {named opened : List SearchTask} {excluded : List (List Char)} :
      ¬ (!(named ++ opened).isEmpty && excluded.contains []) = true ↔
        named ++ opened = [] ∨ [] ∉ excluded := by
    rw [Bool.and_eq_true, not_and_or, Bool.not_eq_true', Bool.not_eq_false, List.isEmpty_iff,
      List.contains_iff_mem]
  constructor
  · rintro ⟨s, h⟩
    obtain ⟨texts, htexts, h⟩ := bind_eq_ok_iff.mp h
    obtain ⟨left, hleft, h⟩ := bind_eq_ok_iff.mp h
    obtain ⟨named, hnamed, h⟩ := bind_eq_ok_iff.mp h
    obtain ⟨opened, hopened, h⟩ := bind_eq_ok_iff.mp h
    refine ⟨texts, htexts, left, hleft, named, hnamed, opened, hopened, ?_⟩
    dsimp only at h
    split at h
    · cases h
    · next hcond => exact hfree.mp hcond
  · rintro ⟨texts, htexts, left, hleft, named, hnamed, opened, hopened, hlast⟩
    exact ⟨_, bind_eq_ok_iff.mpr ⟨texts, htexts, bind_eq_ok_iff.mpr ⟨left, hleft,
      bind_eq_ok_iff.mpr ⟨named, hnamed, bind_eq_ok_iff.mpr ⟨opened, hopened,
        if_neg (hfree.mpr hlast)⟩⟩⟩⟩⟩

/-- The patterns that are looked for can be searched for exactly if those that leave nothing open
and those that leave something open can. -/
theorem areSearchable_wanted_iff {texts : List (List Char)} :
    (SearchTask.AreSearchable ((wanted texts).filter (!·.isOpen)) ∧
        SearchTask.AreSearchable ((wanted texts).filter (·.isOpen))) ↔
      ∀ text ∈ texts, Glob.isNegative text = false →
        String.ofList (Glob.basePath text) ∉ reservedNames := by
  unfold SearchTask.AreSearchable wanted
  constructor
  · rintro ⟨hnamed, hopened⟩ text htext hpositive
    have hmem : Pattern.ofText text ∈
        (texts.filter (!Glob.isNegative ·)).map Pattern.ofText :=
      List.mem_map_of_mem (List.mem_filter.mpr ⟨htext, by simp [hpositive]⟩)
    cases hopen : (Pattern.ofText text).isOpen with
    | true => exact hopened _ (List.mem_filter.mpr ⟨hmem, hopen⟩)
    | false => exact hnamed _ (List.mem_filter.mpr ⟨hmem, by simp [hopen]⟩)
  · intro h
    have hall : ∀ p ∈ (texts.filter (!Glob.isNegative ·)).map Pattern.ofText,
        String.ofList p.base ∉ reservedNames := by
      refine List.forall_mem_map.mpr ?_
      intro text htext
      obtain ⟨hmem, hpositive⟩ := List.mem_filter.mp htext
      exact h text hmem (by simpa using hpositive)
    exact ⟨fun p hp => hall p (List.mem_filter.mp hp).1,
      fun p hp => hall p (List.mem_filter.mp hp).1⟩

/-- There is a task exactly if something is looked for. -/
theorem append_eq_nil_iff {texts : List (List Char)} {named opened : List SearchTask}
    (hnamed : SearchTask.ofPatterns ((wanted texts).filter (!·.isOpen)) = .ok named)
    (hopened : SearchTask.ofPatterns ((wanted texts).filter (·.isOpen)) = .ok opened) :
    named ++ opened = [] ↔ ¬ ∃ text ∈ texts, Glob.isNegative text = false := by
  have hwanted : wanted texts = [] ↔ ¬ ∃ text ∈ texts, Glob.isNegative text = false := by
    simp [wanted]
  rw [List.append_eq_nil_iff, SearchTask.eq_nil_iff_of_ofPatterns hnamed,
    SearchTask.eq_nil_iff_of_ofPatterns hopened, ← hwanted, List.filter_eq_nil_iff,
    List.filter_eq_nil_iff, List.eq_nil_iff_forall_not_mem]
  constructor
  · rintro ⟨hno, hno'⟩ p hp
    cases hopen : p.isOpen with
    | true => exact hno' p hp hopen
    | false => exact hno p hp (by simp [hopen])
  · intro hnone
    exact ⟨fun p hp => absurd hp (hnone p), fun p hp => absurd hp (hnone p)⟩

/-- **What can be searched for.** There is a search for a pattern exactly if the pattern can be
searched for, in whatever directory. -/
theorem exists_ofTexts_iff (directory : Path) (ignore : List String) (pattern : String) :
    (∃ s, ofTexts directory pattern ignore = .ok s) ↔ IsSearchable ignore pattern := by
  have hexcluded {texts left : List (List Char)} {named opened : List SearchTask}
      (htexts : Glob.expandAll [pattern] = .ok texts)
      (hleft : Glob.expandAll (alwaysIgnored :: ignore) = .ok left)
      (hnamed : SearchTask.ofPatterns ((wanted texts).filter (!·.isOpen)) = .ok named)
      (hopened : SearchTask.ofPatterns ((wanted texts).filter (·.isOpen)) = .ok opened) :
      (named ++ opened = [] ∨ [] ∉ unwanted texts left) ↔
        ((∃ text ∈ texts, Glob.isNegative text = false) → ['!'] ∉ texts ++ left) := by
    rw [append_eq_nil_iff hnamed hopened, imp_iff_not_or, nil_mem_unwanted_iff
      (Glob.nil_not_mem_of_expandAll htexts) (Glob.nil_not_mem_of_expandAll hleft)]
  rw [exists_ofTexts_eq_ok_iff]
  constructor
  · rintro ⟨texts, htexts, left, hleft, named, hnamed, opened, hopened, hlast⟩
    refine ⟨texts, left, htexts, hleft, areSearchable_wanted_iff.mp ⟨?_, ?_⟩, ?_⟩
    · exact (SearchTask.exists_ofPatterns_iff _).mp ⟨named, hnamed⟩
    · exact (SearchTask.exists_ofPatterns_iff _).mp ⟨opened, hopened⟩
    · exact (hexcluded htexts hleft hnamed hopened).mp hlast
  · rintro ⟨texts, left, htexts, hleft, hreserved, hlast⟩
    obtain ⟨hnamed, hopened⟩ := areSearchable_wanted_iff.mpr hreserved
    obtain ⟨named, hnamed⟩ := (SearchTask.exists_ofPatterns_iff _).mpr hnamed
    obtain ⟨opened, hopened⟩ := (SearchTask.exists_ofPatterns_iff _).mpr hopened
    exact ⟨texts, htexts, left, hleft, named, hnamed, opened, hopened,
      (hexcluded htexts hleft hnamed hopened).mpr hlast⟩

end Search

/-- **A pattern is turned down exactly if it is empty or cannot be searched for**,
whatever is in the tree. -/
theorem FileTree.exists_find_iff (tree : FileTree) (directory : Path) (ignore : List String)
    (pattern : String) :
    (∃ paths, tree.find directory ignore pattern = .ok paths) ↔
      pattern ≠ "" ∧ IsSearchable ignore pattern := by
  unfold FileTree.find
  dsimp only
  split
  · next hempty =>
    rw [String.isEmpty_iff] at hempty
    refine iff_of_false ?_ fun h => h.1 hempty
    rintro ⟨_, ⟨⟩⟩
  · next hne =>
    rw [String.isEmpty_iff] at hne
    rw [← Search.exists_ofTexts_iff directory]
    constructor
    · rintro ⟨paths, h⟩
      obtain ⟨s, hs, -⟩ := bind_eq_ok_iff.mp h
      exact ⟨hne, s, hs⟩
    · rintro ⟨-, s, hs⟩
      exact ⟨_, bind_eq_ok_iff.mpr ⟨s, hs, rfl⟩⟩

/-- **Plain patterns can be searched for.** Without opening braces, a pattern can be searched for
while texts without opening braces are left out, unless its directory has a reserved name or one of
the texts is a mere exclamation mark. -/
theorem isSearchable_of_no_brace {ignore : List String} {pattern : String}
    (hbrace : ∀ text ∈ pattern :: ignore, '\x7b' ∉ text.toList)
    (hsign : ∀ text ∈ pattern :: ignore, text ≠ "!")
    (hreserved : String.ofList (Glob.basePath (Glob.mergeSlashes pattern.toList)) ∉ reservedNames) :
    IsSearchable ignore pattern := by
  have hall : ∀ text ∈ pattern :: alwaysIgnored :: ignore,
      '\x7b' ∉ text.toList ∧ text ≠ "!" := by
    intro text htext
    rcases List.mem_cons.mp htext with rfl | htext
    · exact ⟨hbrace _ List.mem_cons_self, hsign _ List.mem_cons_self⟩
    · rcases List.mem_cons.mp htext with rfl | htext
      · decide
      · exact ⟨hbrace _ (List.mem_cons_of_mem _ htext), hsign _ (List.mem_cons_of_mem _ htext)⟩
  refine ⟨_, _,
    Glob.expandAll_of_no_brace (List.forall_mem_singleton.mpr (hall _ List.mem_cons_self).1),
    Glob.expandAll_of_no_brace fun text htext => (hall text (List.mem_cons_of_mem _ htext)).1,
    ?_, ?_⟩
  · intro text htext _
    obtain ⟨original, horiginal, htext⟩ := List.mem_flatMap.mp htext
    rw [List.mem_singleton.mp horiginal] at htext
    rwa [(Glob.mem_asPatterns_singleton_iff.mp htext).2]
  · rintro - hmem
    rw [← List.flatMap_append, List.singleton_append] at hmem
    obtain ⟨original, horiginal, hmem⟩ := List.mem_flatMap.mp hmem
    have hsingle := (Glob.mem_asPatterns_singleton_iff.mp hmem).2.symm
    refine (hall original horiginal).2 (String.toList_injective ?_)
    exact Glob.eq_singleton_of_mergeSlashes hsingle

end LineSum

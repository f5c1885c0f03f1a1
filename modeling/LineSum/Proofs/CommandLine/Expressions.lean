import LineSum.Proofs.Config.Settings
import LineSum.Proofs.Session.Outcome

/-!
# The expressions of a command line

What stands before a double dash is made of phrases: expressions, and options that are written in
full. Reading goes through the phrases one by one. Each expression among them keeps its place, no
value of an option becomes one, and all that stands behind the double dash follows. The double dash
is dropped only if every expression before it looks like one: if an expression looks like an option,
the double dash is kept as an expression, and a request for help behind it is heard.
-/

namespace LineSum

/-! ## The names of the options -/

namespace Flag

/-- The names of all options, long and short ones. -/
def names : List String := all.flatMap fun flag => flag.long :: flag.short?.toList

/-- The names of an option are its long one and its short one. -/
def HasName (flag : Flag) (name : String) : Prop :=
  name = flag.long ∨ flag.short? = some name

/-- An option is found by each of its names. -/
theorem HasName.ofName? {flag : Flag} {name : String} (h : flag.HasName name) :
    Flag.ofName? name = some flag := by
  rcases h with rfl | hshort
  · cases flag <;> decide +kernel
  · cases flag <;> simp only [short?, Option.some.injEq, reduceCtorEq] at hshort <;>
      subst hshort <;> decide +kernel

/-- No option is found by a text that is not among the names. -/
theorem ofName?_eq_none {text : String} (h : text ∉ names) : ofName? text = none := by
  rw [ofName?, List.find?_eq_none]
  intro flag hflag hname
  refine h (List.mem_flatMap.mpr ⟨flag, hflag, ?_⟩)
  rw [Bool.or_eq_true, decide_eq_true_iff, decide_eq_true_iff] at hname
  rcases hname with rfl | hshort
  · exact List.mem_cons_self
  · exact List.mem_cons_of_mem _ (Option.mem_toList.mpr hshort)

/-- A name begins with a dash, and a second dash or a letter follows it. -/
theorem start_of_mem_names : ∀ name ∈ names,
    name.toList.head? = some '-' ∧ name.toList[1]? ∈ [some '-', some 'V', some 'f'] := by
  decide +kernel

/-- There is no equality sign in a name. -/
theorem sign_notMem_of_mem_names : ∀ name ∈ names, '=' ∉ name.toList := by
  decide +kernel

/-- A name with the letter for files behind its dash ends there. -/
theorem length_of_mem_names : ∀ name ∈ names, name.toList[1]? = some 'f' →
    name.toList.length = 2 := by
  decide +kernel

/-- A long name is a word behind two dashes, with no equality sign in it. -/
theorem exists_long_eq (flag : Flag) :
    ∃ word, flag.long.toList = '-' :: '-' :: word ∧ word ≠ [] ∧ '=' ∉ word := by
  cases flag <;> exact ⟨_, rfl, by decide, by decide⟩

/-- An option accepts a value if it takes one, and if it takes only certain words, one of those. -/
def Accepts (flag : Flag) (value : String) : Prop :=
  flag.takesValue = true ∧ ∀ words, flag.choices? = some words → value ∈ words

/-- The ways to write an option with a value: the value is the argument behind a name, or it stands
in the same argument, behind an equality sign or directly behind a short name. -/
inductive Spells (flag : Flag) (value : String) : List String → Prop
  | apart (name : String) (hname : flag.HasName name) : Spells flag value [name, value]
  | behindSign : Spells flag value [flag.long ++ "=" ++ value]
  | behindLetter (name : String) (hname : flag.short? = some name) (hvalue : value ≠ "") :
    Spells flag value [name ++ value]

end Flag

/-! ## Single arguments -/

/-- Whether a text begins with a dash and then a digit or a space, as expressions do that lack their
first number. -/
def isOperatorLed (text : String) : Bool :=
  match text.toList with
  | '-' :: c :: _ => isDecimal c || c = ' '
  | _ => false

/-- Whether a text stands for itself on a command line: it does not begin with a dash, or it begins
like an expression that lacks its first number. -/
def isPlain (text : String) : Bool :=
  text.toList.head? != some '-' || isOperatorLed text

namespace Argument

/-- A name is the option. -/
theorem ofText_name {flag : Flag} {name : String} (h : flag.HasName name) :
    ofText name = .flag flag := by
  have hdash : name ≠ "--" := by
    rintro rfl
    have hnone : Flag.ofName? "--" = none := by decide +kernel
    rw [h.ofName?] at hnone
    cases hnone
  unfold ofText
  rw [if_neg hdash, h.ofName?]

/-- What neither ends the options nor is a name is seen from its characters. -/
theorem ofText_of_notMem {text : String} (hdash : text ≠ "--") (hname : text ∉ Flag.names) :
    ofText text =
      match joined? text.toList with
      | some (f, value) => if f.takesValue then flagWithValue f value else flag f
      | none =>
        match text.toList with
        | '-' :: _ :: _ => unknown
        | _ => operand := by
  unfold ofText
  rewrite [if_neg hdash, Flag.ofName?_eq_none hname]
  rfl

/-- What does not begin with a dash is an expression. -/
theorem ofText_of_head {text : String} (h : text.toList.head? ≠ some '-') :
    ofText text = .operand := by
  have hdash : text ≠ "--" := by
    rintro rfl
    exact h rfl
  have hname : text ∉ Flag.names := fun hmem => h (Flag.start_of_mem_names text hmem).1
  rw [ofText_of_notMem hdash hname]
  rcases hcs : text.toList with _ | ⟨c, rest⟩
  · rfl
  · have hc : c ≠ '-' := by
      rintro rfl
      exact h (by rw [hcs, List.head?_cons])
    have hjoined : joined? (c :: rest) = none := by
      unfold joined?
      split <;> simp_all
    rw [hjoined]
    dsimp only
    split
    · next heq =>
      cases heq
      exact absurd rfl hc
    · rfl

/-- What begins like an expression without its first number looks like an option and is none. -/
theorem ofText_of_isOperatorLed {text : String} (h : isOperatorLed text = true) :
    ofText text = .unknown := by
  unfold isOperatorLed at h
  split at h
  · next c rest hcs =>
    have hletters : c ≠ '-' ∧ c ≠ 'V' ∧ c ≠ 'f' := by
      refine ⟨?_, ?_, ?_⟩ <;> rintro rfl <;> revert h <;> decide
    obtain ⟨hminus, hV, hf⟩ := hletters
    have hother : ∀ name : String, name.toList[1]? = some c → name ∉ Flag.names := by
      intro name hname hmem
      have hsecond := (Flag.start_of_mem_names name hmem).2
      rw [hname] at hsecond
      simp [hminus, hV, hf] at hsecond
    have hdash : text ≠ "--" := by
      rintro rfl
      cases hcs
      exact hminus rfl
    have hjoined : joined? ('-' :: c :: rest) = none := by
      unfold joined?
      split
      · next heq => simp_all
      · next heq =>
        cases heq
        rw [Flag.ofName?_eq_none (hother _ (by simp)), Option.map_none, ite_self]
      · rfl
    rw [ofText_of_notMem hdash (hother text (by rw [hcs]; rfl)), hcs, hjoined]
    rfl
  · cases h

/-- A value behind the long name of its option and an equality sign belongs to the option. -/
theorem ofText_behindSign {flag : Flag} (h : flag.takesValue = true) (value : String) :
    ofText (flag.long ++ "=" ++ value) = .flagWithValue flag value := by
  have hsign : '=' ∈ (flag.long ++ "=" ++ value).toList := by simp
  have hdash : flag.long ++ "=" ++ value ≠ "--" := by
    intro heq
    rw [heq] at hsign
    revert hsign
    decide
  rw [ofText_of_notMem hdash fun hmem => Flag.sign_notMem_of_mem_names _ hmem hsign]
  obtain ⟨name, hlong, hne, hname⟩ := flag.exists_long_eq
  have hjoined : joined? (flag.long ++ "=" ++ value).toList = some (flag, value) := by
    have htext : (flag.long ++ "=" ++ value).toList =
        '-' :: '-' :: (name ++ '=' :: value.toList) := by
      simp [hlong]
    have hbefore : (name ++ '=' :: value.toList).takeWhile (· != '=') = name := by
      rw [List.takeWhile_append_of_pos (by grind)]
      simp
    have hfound : Flag.ofName? (String.ofList ('-' :: '-' :: name)) = some flag := by
      rw [← hlong, String.ofList_toList]
      exact Flag.HasName.ofName? (.inl rfl)
    rw [htext]
    unfold joined?
    simp only [hbefore, List.drop_left, hfound]
    simp [hne, h]
  rw [hjoined]
  dsimp only
  rw [if_pos h]

/-- A value directly behind the short name of its option belongs to the option. -/
theorem ofText_behindLetter {flag : Flag} (h : flag.takesValue = true) {name value : String}
    (hname : flag.short? = some name) (hvalue : value ≠ "") :
    ofText (name ++ value) = .flagWithValue flag value := by
  obtain ⟨rfl, rfl⟩ : flag = .file ∧ name = "-f" := by
    cases flag <;> simp_all [Flag.short?, Flag.takesValue, Flag.valueName?]
  have hcs : ("-f" ++ value).toList = '-' :: 'f' :: value.toList := by simp
  have hrest : value.toList ≠ [] := by simpa using hvalue
  have hdash : "-f" ++ value ≠ "--" := by
    intro heq
    rw [heq] at hcs
    cases hcs
  have hmem : "-f" ++ value ∉ Flag.names := by
    intro hmem
    have hlength := Flag.length_of_mem_names _ hmem (by rw [hcs]; rfl)
    rw [hcs] at hlength
    simp at hlength
    exact hvalue hlength
  have hjoined : joined? ('-' :: 'f' :: value.toList) = some (.file, value) := by
    have hfound : Flag.ofName? (String.ofList ['-', 'f']) = some .file := by decide +kernel
    unfold joined?
    simp [hrest, hfound]
  rw [ofText_of_notMem hdash hmem, hcs, hjoined]
  rfl

end Argument

/-! ## Phrases of a command line -/

namespace Options

/-- The options with a value more. A value that its option does not accept changes nothing. -/
def set (options : Options) (flag : Flag) (value : String) : Options :=
  (options.assign flag value).toOption.getD options

/-- A value that its option accepts is assigned. -/
theorem assign_of_accepts {flag : Flag} {value : String} (h : flag.Accepts value)
    (options : Options) : options.assign flag value = .ok (options.set flag value) := by
  obtain ⟨htakes, hchoices⟩ := h
  cases flag with
  | format =>
    obtain ⟨format, -, rfl⟩ := List.mem_map.mp (hchoices _ rfl)
    simp [set, assign, Format.ofText?_eq_some_iff.mpr rfl, Except.toOption]
  | color =>
    obtain ⟨color, -, rfl⟩ := List.mem_map.mp (hchoices _ rfl)
    simp [set, assign, ColorMode.ofText?_eq_some_iff.mpr rfl, Except.toOption]
  | version | trace | failFast => cases htakes
  | file | ignore | config | profile => rfl

end Options

/-- A phrase of a command line: an expression that stands for itself, an option without a value, or
an option with a value that it accepts. -/
inductive Phrase where
  | expression (text : String) (hplain : isPlain text = true)
  | mark (flag : Flag) (hflag : flag = .trace ∨ flag = .failFast)
  | setting (flag : Flag) (value : String) (texts : List String)
    (hspells : flag.Spells value texts) (haccepts : flag.Accepts value)

namespace Phrase

/-- The arguments that a phrase is written as. -/
def texts : Phrase → List String
  | expression text _ => [text]
  | mark flag _ => [flag.long]
  | setting _ _ texts _ _ => texts

/-- The expression that a phrase is. -/
def expression? : Phrase → Option String
  | expression text _ => some text
  | mark _ _ => none
  | setting _ _ _ _ _ => none

/-- The options behind a phrase. -/
def configure (options : Options) : Phrase → Options
  | expression _ _ => options
  | mark flag _ => options.mark flag
  | setting flag value _ _ _ => options.set flag value

end Phrase

namespace Arguments

/-- What has been read behind an expression. The first one that looks like an option is the first of
those that are kept apart. -/
def addExpression (a : Arguments) (text : String) : Arguments :=
  if isOperatorLed text then { a with unknown := a.unknown ++ [text] } else a.addOperand text

/-- What has been read behind a phrase. -/
def addPhrase (a : Arguments) : Phrase → Arguments
  | .expression text _ => a.addExpression text
  | .mark flag _ => { a with options := a.options.mark flag }
  | .setting flag value _ _ _ => { a with options := a.options.set flag value }

/-- An expression that stands for itself is read as one. -/
theorem read_plain {text : String} (h : isPlain text = true) (a : Arguments) (rest : List String) :
    a.read (text :: rest) = (a.addExpression text).read rest := by
  unfold isPlain at h
  rw [read, addExpression]
  cases hled : isOperatorLed text with
  | true =>
    rw [Argument.ofText_of_isOperatorLed hled]
    rfl
  | false =>
    rw [hled, Bool.or_false, bne_iff_ne] at h
    rw [Argument.ofText_of_head h]
    rfl

/-- An option without a value is read alone. -/
theorem read_mark {flag : Flag} (h : flag = .trace ∨ flag = .failFast) (a : Arguments)
    (rest : List String) :
    a.read (flag.long :: rest) = { a with options := a.options.mark flag }.read rest := by
  rw [read, Argument.ofText_name (.inl rfl)]
  rcases h with rfl | rfl <;> rfl

/-- An option is read together with a value that it accepts. -/
theorem read_setting {flag : Flag} {value : String} {texts : List String}
    (hspells : flag.Spells value texts) (haccepts : flag.Accepts value) (a : Arguments)
    (rest : List String) :
    a.read (texts ++ rest) = { a with options := a.options.set flag value }.read rest := by
  have hassign : a.assign flag value = .ok { a with options := a.options.set flag value } := by
    rw [assign, Options.assign_of_accepts haccepts]
  cases hspells with
  | apart name hname =>
    have hversion : flag ≠ .version := by
      rintro rfl
      cases haccepts.1
    rw [List.cons_append, read, Argument.ofText_name hname]
    simp only [if_neg hversion, if_pos haccepts.1, List.cons_append, List.nil_append, hassign]
  | behindSign =>
    rw [List.cons_append, read, Argument.ofText_behindSign haccepts.1]
    simp only [hassign, List.nil_append]
  | behindLetter name hname hvalue =>
    rw [List.cons_append, read, Argument.ofText_behindLetter haccepts.1 hname hvalue]
    simp only [hassign, List.nil_append]

/-- A phrase is read as a whole. -/
theorem read_phrase (phrase : Phrase) (a : Arguments) (rest : List String) :
    a.read (phrase.texts ++ rest) = (a.addPhrase phrase).read rest := by
  cases phrase with
  | expression text hplain => exact read_plain hplain a rest
  | mark flag hflag => exact read_mark hflag a rest
  | setting flag value texts hspells haccepts => exact read_setting hspells haccepts a rest

/-- **Phrases are read one after the other**, whatever follows them. -/
theorem read_phrases (phrases : List Phrase) (a : Arguments) (rest : List String) :
    a.read (phrases.flatMap Phrase.texts ++ rest) = (phrases.foldl addPhrase a).read rest := by
  induction phrases generalizing a with
  | nil => rfl
  | cons phrase phrases ih =>
    rw [List.flatMap_cons, List.append_assoc, read_phrase, ih, List.foldl_cons]

/-! ## What has been read -/

/-- An expression is added behind those that have been read. -/
theorem expressions_addExpression (a : Arguments) (text : String) :
    (a.addExpression text).expressions = a.expressions ++ [text] := by
  unfold addExpression addOperand expressions
  split
  · simp
  · split
    · next hempty => simp [List.isEmpty_iff.mp hempty]
    · simp

/-- Expressions are kept apart from the first one on that looks like an option. -/
theorem unknown_addExpression_eq_nil_iff (a : Arguments) (text : String) :
    (a.addExpression text).unknown = [] ↔ a.unknown = [] ∧ isOperatorLed text = false := by
  unfold addExpression addOperand
  split
  · next hled => simp [hled]
  · next hled =>
    split
    · next hempty => simp [List.isEmpty_iff.mp hempty, hled]
    · next hempty => simp [List.isEmpty_iff] at hempty; simp [hempty]

/-- An expression changes no option. -/
theorem options_addExpression (a : Arguments) (text : String) :
    (a.addExpression text).options = a.options := by
  unfold addExpression addOperand
  split
  · rfl
  · split <;> rfl

/-- What stands behind a double dash is added, and the double dash too if
expressions are kept apart. -/
theorem expressions_addRest (a : Arguments) (rest : List String) :
    (a.addRest rest).expressions =
      a.expressions ++ if a.unknown = [] then rest else "--" :: rest := by
  unfold addRest expressions
  by_cases hnone : a.unknown = [] <;> simp [hnone]

/-- Behind a double dash stands no option. -/
theorem options_addRest (a : Arguments) (rest : List String) :
    (a.addRest rest).options = a.options := by
  unfold addRest
  split <;> rfl

/-- Help behind a double dash is asked for if expressions are kept apart. -/
theorem wantsHelp_addRest (a : Arguments) (rest : List String) :
    (a.addRest rest).wantsHelp = true ↔
      a.wantsHelp = true ∨ a.unknown ≠ [] ∧ ("-h" ∈ rest ∨ "--help" ∈ rest) := by
  unfold addRest wantsHelp
  by_cases hnone : a.unknown = []
  · simp [hnone]
  · simp only [List.isEmpty_iff, hnone, if_false, Bool.or_eq_true, List.contains_iff_mem,
      List.mem_append, List.mem_cons]
    simp
    tauto

/-- A double dash ends the reading. -/
theorem read_separator (a : Arguments) (rest : List String) :
    a.read ("--" :: rest) = .ok (a.addRest rest) := by
  rw [read]
  rfl

end Arguments

/-! ## Phrases before a double dash -/

/-- The expressions among phrases. -/
def expressionsOf (phrases : List Phrase) : List String :=
  phrases.filterMap Phrase.expression?

/-- What the options among phrases say. -/
def optionsOf (phrases : List Phrase) : Options :=
  phrases.foldl Phrase.configure .none

/-- The expressions among phrases stand for themselves. -/
theorem isPlain_of_mem_expressionsOf {phrases : List Phrase} {text : String}
    (h : text ∈ expressionsOf phrases) : isPlain text = true := by
  obtain ⟨phrase, -, hphrase⟩ := List.mem_filterMap.mp h
  cases phrase with
  | expression other hplain =>
    cases hphrase
    exact hplain
  | mark | setting => cases hphrase

namespace Arguments

/-- What has been read behind phrases: their expressions, in order, and their options. -/
theorem foldl_addPhrase (phrases : List Phrase) (a : Arguments) :
    let b := phrases.foldl addPhrase a
    b.expressions = a.expressions ++ expressionsOf phrases ∧
      (b.unknown = [] ↔
        a.unknown = [] ∧ ∀ text ∈ expressionsOf phrases, isOperatorLed text = false) ∧
      b.options = phrases.foldl Phrase.configure a.options := by
  unfold expressionsOf
  induction phrases generalizing a with
  | nil => simp
  | cons phrase phrases ih =>
    obtain ⟨hexpressions, hunknown, hoptions⟩ := ih (a.addPhrase phrase)
    cases phrase with
    | expression text hplain =>
      simp only [addPhrase, expressions_addExpression, unknown_addExpression_eq_nil_iff,
        options_addExpression] at hexpressions hunknown hoptions
      simp only [List.foldl_cons, addPhrase, List.filterMap_cons, Phrase.expression?,
        List.forall_mem_cons, ← and_assoc]
      exact ⟨⟨hexpressions.trans (List.append_assoc _ [text] _), hunknown⟩, hoptions⟩
    | mark flag hflag => exact ⟨hexpressions, hunknown, hoptions⟩
    | setting flag value texts hspells haccepts => exact ⟨hexpressions, hunknown, hoptions⟩

/-- Where all expressions stand for themselves, no help is asked for. -/
theorem wantsHelp_of_isPlain {a : Arguments} (h : ∀ text ∈ a.expressions, isPlain text = true) :
    a.wantsHelp = false := by
  have hnot : ∀ text, isPlain text = false → ¬ text ∈ a.unknown := by
    intro text htext hmem
    rw [h text (List.mem_append_right _ hmem)] at htext
    cases htext
  have hshort := hnot "-h" (by decide +kernel)
  have hlong := hnot "--help" (by decide +kernel)
  simp [wantsHelp, hshort, hlong]

/-- What has been read when phrases and a double dash have been read from the beginning. -/
theorem exists_read_phrases (phrases : List Phrase) (rest : List String) :
    ∃ a : Arguments, empty.read (phrases.flatMap Phrase.texts ++ "--" :: rest) =
      .ok (a.addRest rest) ∧
      a.expressions = expressionsOf phrases ∧ a.options = optionsOf phrases ∧
      (a.unknown = [] ↔ ∀ text ∈ expressionsOf phrases, isOperatorLed text = false) := by
  obtain ⟨hexpressions, hunknown, hoptions⟩ := foldl_addPhrase phrases empty
  refine ⟨phrases.foldl addPhrase empty, ?_, hexpressions, hoptions, ?_⟩
  · rw [read_phrases, read_separator]
  · exact hunknown.trans (and_iff_right rfl)

end Arguments

/-- What is asked for by phrases with a double dash behind them. The double dash is an expression
itself if one before it looks like an option, and then also help can be asked for behind it. -/
theorem CommandLine.ofArguments_phrases (phrases : List Phrase) (rest : List String) :
    CommandLine.ofArguments (phrases.flatMap Phrase.texts ++ "--" :: rest) =
      if ∀ text ∈ expressionsOf phrases, isOperatorLed text = false then
        .evaluate (optionsOf phrases) (expressionsOf phrases ++ rest)
      else if "-h" ∈ rest ∨ "--help" ∈ rest then .showHelp
      else .evaluate (optionsOf phrases) (expressionsOf phrases ++ "--" :: rest) := by
  obtain ⟨a, hread, hexpressions, hoptions, hunknown⟩ :=
    Arguments.exists_read_phrases phrases rest
  have hplain : ∀ text ∈ a.expressions, isPlain text = true := by
    intro text htext
    rw [hexpressions] at htext
    exact isPlain_of_mem_expressionsOf htext
  have hhelp : (a.addRest rest).wantsHelp = true ↔
      a.unknown ≠ [] ∧ ("-h" ∈ rest ∨ "--help" ∈ rest) := by
    simp [Arguments.wantsHelp_addRest, Arguments.wantsHelp_of_isPlain hplain]
  unfold ofArguments
  rw [hread]
  dsimp only
  rw [a.expressions_addRest, a.options_addRest, hexpressions, hoptions]
  by_cases hexact : ∀ text ∈ expressionsOf phrases, isOperatorLed text = false
  · have hnone := hunknown.mpr hexact
    rw [if_pos hexact, if_pos hnone, if_neg fun hwants => (hhelp.mp hwants).1 hnone]
  · have hsome : a.unknown ≠ [] := fun hnone => hexact (hunknown.mp hnone)
    rw [if_neg hexact, if_neg hsome]
    simp only [hhelp, ne_eq, hsome, not_false_eq_true, true_and]

/-- The texts of expressions that are given as arguments are the arguments. -/
theorem text_ofArguments (texts : List String) :
    (Expression.ofArguments texts).map Expression.text = texts := by
  simp [Expression.ofArguments, Function.comp_def]

/-- **The expressions of a command line are taken as they are.** Before a double dash there are
phrases. Their expressions, in order, and behind them all that follows the double dash, are what is
asked to be evaluated, exactly if none of the expressions before the double dash looks like an
option; a run then evaluates them, and behind them those of files. If one looks like an option, the
double dash is evaluated as well, or help is shown if that is asked for behind it. -/
theorem expressions_of_arguments (phrases : List Phrase) (rest : List String) :
    let arguments := phrases.flatMap Phrase.texts ++ "--" :: rest
    let listed := expressionsOf phrases ++ rest
    let isExact := ∀ text ∈ expressionsOf phrases, isOperatorLed text = false
    (CommandLine.ofArguments arguments = .evaluate (optionsOf phrases) listed ↔ isExact) ∧
      (isExact → ∀ world (l : Loaded world (optionsOf phrases)),
        run world arguments = .ok ⟨(l.session listed).exitCode,
          (l.session listed).output world.version world.terminal world.clock, ""⟩ ∧
        (l.session listed).expressions.map Expression.text =
          listed ++ l.sources.expressions.map Expression.text) ∧
      (¬ isExact → CommandLine.ofArguments arguments =
        if "-h" ∈ rest ∨ "--help" ∈ rest then .showHelp
        else .evaluate (optionsOf phrases) (expressionsOf phrases ++ "--" :: rest)) := by
  intro arguments listed isExact
  have hasked := CommandLine.ofArguments_phrases phrases rest
  refine ⟨⟨?_, ?_⟩, ?_, ?_⟩
  · intro heq
    by_contra hnot
    rw [if_neg hnot] at hasked
    rw [hasked] at heq
    split at heq
    · cases heq
    · have hlength := congrArg List.length (CommandLine.evaluate.inj heq).2
      simp [listed] at hlength
  · intro hexact
    rw [hasked, if_pos hexact]
  · intro hexact world l
    refine ⟨?_, ?_⟩
    · unfold run
      rw [hasked, if_pos hexact]
      exact run_evaluate_eq_ok_iff.mpr ⟨l, rfl⟩
    · show (Expression.ofArguments listed ++ l.sources.expressions).map Expression.text = _
      rw [List.map_append, text_ofArguments]
  · intro hnot
    rw [hasked, if_neg hnot]

/-- An option with its value, and an expression that looks like an option. -/
def dashedPhrases : List Phrase :=
  [.setting .format "compact" ["--format", "compact"] (.apart "--format" (.inl rfl))
      ⟨rfl, by rintro _ ⟨⟩; decide⟩,
    .expression "-5" (by decide +kernel)]

/-- Behind an expression that looks like an option, the double dash becomes an expression, and help
that is asked for behind it is shown. -/
theorem separator_of_operatorLed :
    dashedPhrases.flatMap Phrase.texts = ["--format", "compact", "-5"] ∧
      expressionsOf dashedPhrases = ["-5"] ∧
      CommandLine.ofArguments ["--format", "compact", "-5", "--", "1 + 1"] =
        .evaluate (optionsOf dashedPhrases) ["-5", "--", "1 + 1"] ∧
      CommandLine.ofArguments ["--format", "compact", "-5", "--", "-h"] = .showHelp := by
  refine ⟨rfl, rfl, ?_, ?_⟩ <;> decide +kernel

end LineSum

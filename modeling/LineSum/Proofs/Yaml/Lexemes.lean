import LineSum.Yaml.Document

/-!
# The lexemes of a text

Every lexeme has text, except for the marks and the sources of scalars, which need none. A scan that
finds nothing where it looks for white space or an indicator makes no lexeme of it.
-/

namespace LineSum

namespace Yaml

/-- The lexeme has text, unless it is a mark or the source of a scalar. -/
def Lexeme.HasText (lexeme : Lexeme) : Prop := lexeme ≠ .text []

/-- All lexemes of a list have text. -/
def HaveText (lexemes : List Lexeme) : Prop := ∀ lexeme ∈ lexemes, lexeme.HasText

/-- No lexeme is one without text. -/
theorem haveText_nil : HaveText [] := List.forall_mem_nil _

/-- A stretch of text with a character is a lexeme with text. -/
theorem haveText_cons {c : Char} {cs : List Char} {lexemes : List Lexeme} (h : HaveText lexemes) :
    HaveText (.text (c :: cs) :: lexemes) :=
  List.forall_mem_cons.mpr ⟨by simp [Lexeme.HasText], h⟩

/-- Marks and the sources of scalars need no text. -/
theorem haveText_mark {lexeme : Lexeme} (h : ∀ cs, lexeme ≠ .text cs) : HaveText [lexeme] :=
  List.forall_mem_singleton.mpr (h [])

/-- Lexemes with text are put behind others. -/
theorem HaveText.append {a b : List Lexeme} (ha : HaveText a) (hb : HaveText b) :
    HaveText (a ++ b) :=
  List.forall_mem_append.mpr ⟨ha, hb⟩

/-- A stretch without text is no lexeme. -/
theorem haveText_textLexeme (cs : List Char) : HaveText (textLexeme cs) := by
  cases cs with
  | nil => exact haveText_nil
  | cons c cs => exact haveText_cons haveText_nil

/-- An indicator has text. -/
theorem haveText_cutIndicator? {layout layout' : Layout} {rest rest' : List Char}
    {lexemes : List Lexeme} (h : cutIndicator? layout rest = some (lexemes, rest', layout')) :
    HaveText lexemes := by
  unfold cutIndicator? at h
  dsimp only at h
  split at h
  · cases h
    exact (haveText_textLexeme _).append (haveText_textLexeme _)
  · cases h
    exact haveText_cons (haveText_textLexeme _)
  · split at h
    · split at h
      · cases h
        exact haveText_cons (haveText_textLexeme _)
      · cases h
    · cases h
  · cases h

/-- Indicators have text. -/
theorem haveText_cutIndicators (layout : Layout) (rest : List Char) :
    HaveText (cutIndicators layout rest).1 := by
  induction layout, rest using cutIndicators.induct with
  | case1 layout rest hnone =>
    rw [cutIndicators, hnone]
    exact haveText_nil
  | case2 layout rest lexemes rest' layout' hsome hshorter more rest'' layout'' hmore ih =>
    rw [cutIndicators, hsome]
    dsimp only
    rw [if_pos hshorter]
    exact (haveText_cutIndicator? hsome).append ih
  | case3 layout rest lexemes rest' layout' hsome hsame =>
    rw [cutIndicators, hsome]
    dsimp only
    rw [if_neg hsame]
    exact haveText_cutIndicator? hsome

/-- The indicators at the start of a line have text. -/
theorem haveText_cutBlockStart (layout : Layout) (rest : List Char) :
    HaveText (cutBlockStart layout rest).1 := by
  induction layout, rest using cutBlockStart.induct with
  | case1 layout =>
    rw [cutBlockStart]
    exact haveText_nil
  | case2 layout c rest hindicator spaces inner more rest'' layout'' hmore ih =>
    rw [cutBlockStart, if_pos hindicator]
    exact haveText_cons ((haveText_textLexeme _).append ih)
  | case3 layout c rest hother =>
    rw [cutBlockStart, if_neg hother]
    exact haveText_nil

/-- What stands at the start of a line has text. -/
theorem haveText_cutLineStart (layout : Layout) (rest : List Char) :
    HaveText (cutLineStart layout rest).lexemes := by
  unfold cutLineStart
  split
  · next hmarker =>
    unfold atMarker at hmarker
    split at hmarker
    · exact haveText_cons haveText_nil
    · exact haveText_cons haveText_nil
    · cases hmarker
  · exact (haveText_textLexeme _).append (haveText_cutBlockStart _ _)

/-- Lexemes with text are put before a cut. -/
theorem haveText_after {lexemes : List Lexeme} {cut : Cut} (h : HaveText lexemes)
    (hcut : HaveText cut.lexemes) : HaveText (cut.after lexemes).lexemes :=
  h.append hcut

/-- A cut outside of all documents gives lexemes with text. -/
theorem haveText_cutStream (layout : Layout) (rest : List Char) :
    HaveText (cutStream layout rest).lexemes := by
  unfold cutStream
  dsimp only
  -- A byte order mark is cut off first, if there is one.
  split
  all_goals
    dsimp only
    split
    · exact (((haveText_textLexeme _).append (haveText_textLexeme _)).append
        (haveText_textLexeme _)).append (haveText_textLexeme _)
    · split
      · exact (((haveText_textLexeme _).append (haveText_textLexeme _)).append
          (haveText_textLexeme _)).append (haveText_textLexeme _)
      · refine haveText_after ((haveText_textLexeme _).append ?_) (haveText_cutLineStart _ _)
        exact haveText_mark fun _ => Lexeme.noConfusion

/-- A quoted scalar has text. -/
theorem haveText_cutQuoted (layout : Layout) (rest : List Char) :
    HaveText (cutQuoted layout rest).lexemes :=
  haveText_textLexeme _

/-- A plain scalar needs no text. -/
theorem haveText_cutPlain (layout : Layout) (rest : List Char) :
    HaveText (cutPlain layout rest).lexemes :=
  haveText_mark fun _ => Lexeme.noConfusion

/-- The header of a block scalar has text. -/
theorem haveText_cutBlockScalar (layout : Layout) (rest : List Char) :
    HaveText (cutBlockScalar layout rest).lexemes := by
  refine haveText_after ?_ (haveText_cutLineStart _ _)
  refine HaveText.append ?_ (haveText_mark fun _ => Lexeme.noConfusion)
  exact (((haveText_textLexeme _).append (haveText_textLexeme _)).append
    (haveText_textLexeme _)).append (haveText_textLexeme _)

/-- A part of a document gives lexemes with text. -/
theorem haveText_cutDoc (layout : Layout) (rest : List Char) :
    HaveText (cutDoc layout rest).lexemes := by
  have hbefore := (haveText_textLexeme (cutSpaces true rest).1).append
    (haveText_cutIndicators layout (cutSpaces true rest).2)
  unfold cutDoc
  dsimp only
  split
  · exact haveText_after (hbefore.append (haveText_textLexeme _)) (haveText_cutLineStart _ _)
  · split
    · exact hbefore
    · split
      · refine haveText_after ?_ (haveText_cutLineStart _ _)
        exact (hbefore.append (haveText_textLexeme _)).append (haveText_textLexeme _)
      · split
        · exact hbefore.append (haveText_cons haveText_nil)
        · split
          · exact hbefore.append (haveText_cons haveText_nil)
          · split
            · exact hbefore.append (haveText_cons haveText_nil)
            · split
              · exact haveText_after hbefore (haveText_cutQuoted _ _)
              · split
                · exact haveText_after hbefore (haveText_cutBlockScalar _ _)
                · exact haveText_after hbefore (haveText_cutPlain _ _)

/-- Line ends and white space in a flow collection have text. -/
theorem haveText_cutFlowBlanks (indent : Option Nat) (rest : List Char) :
    HaveText (cutFlowBlanks indent rest).1 := by
  induction hlength : rest.length using Nat.strongRecOn generalizing indent rest with
  | ind n ih =>
    subst hlength
    rw [cutFlowBlanks]
    dsimp only
    -- Only behind a line end there is an indentation to be cut off.
    split
    all_goals
      split
      · next hshorter =>
        exact (((haveText_textLexeme _).append (haveText_textLexeme _)).append
          (haveText_textLexeme _)).append (ih _ hshorter _ _ rfl)
      · exact haveText_nil

/-- Commas have text. -/
theorem haveText_cutCommas (rest : List Char) : HaveText (cutCommas rest).1 := by
  induction rest using cutCommas.induct with
  | case1 more lexemes after hmore ih =>
    rw [cutCommas]
    exact haveText_cons ((haveText_textLexeme _).append ih)
  | case2 rest hother =>
    rw [cutCommas]
    · exact haveText_nil
    · exact hother

/-- A comment has text. -/
theorem restOfLine_comment_ne_nil (more : List Char) : restOfLine ('#' :: more) ≠ [] := by
  have hline : ('#' :: more).takeWhile (· != '\n') = '#' :: more.takeWhile (· != '\n') := rfl
  unfold restOfLine
  dsimp only
  rw [hline]
  split
  · next hreturn =>
    -- What ends with a carriage return is more than the sign of a comment.
    rw [Bool.and_eq_true, decide_eq_true_iff, decide_eq_true_iff] at hreturn
    cases hrest : more.takeWhile (· != '\n') with
    | nil =>
      rw [hrest] at hreturn
      cases hreturn.2
    | cons c rest =>
      rw [List.dropLast_cons_of_ne_nil (List.cons_ne_nil c rest)]
      exact List.cons_ne_nil _ _
  · exact List.cons_ne_nil _ _

/-- A part of a flow collection gives lexemes with text. -/
theorem haveText_cutFlow (layout : Layout) (rest : List Char) :
    HaveText (cutFlow layout rest).lexemes := by
  unfold cutFlow
  dsimp only
  split
  · refine haveText_after ?_ (haveText_cutLineStart _ _)
    exact (haveText_cutFlowBlanks _ _).append (haveText_mark fun _ => Lexeme.noConfusion)
  · have hbefore {layout' : Layout} {rest' : List Char} :=
      ((haveText_cutFlowBlanks none rest).append
        (haveText_cutCommas (cutFlowBlanks none rest).2.1)).append
        (haveText_cutIndicators layout' rest')
    -- Commas change the layout, but no lexeme.
    split
    all_goals
      split
      · exact hbefore
      · split
        · exact hbefore
        · next c more hrest =>
          split
          · next hcomment =>
            subst hcomment
            rw [hrest]
            obtain ⟨d, cs, hline⟩ := List.exists_cons_of_ne_nil (restOfLine_comment_ne_nil more)
            rw [hline]
            exact hbefore.append (haveText_cons haveText_nil)
          · split
            · exact hbefore.append (haveText_cons haveText_nil)
            · split
              · exact hbefore.append (haveText_cons haveText_nil)
              · split
                · exact hbefore.append (haveText_cons haveText_nil)
                · split
                  · exact haveText_after hbefore (haveText_cutQuoted _ _)
                  · split
                    · exact hbefore.append (haveText_cons (haveText_textLexeme _))
                    · exact haveText_after hbefore (haveText_cutPlain _ _)

/-- The next cut gives lexemes with text. -/
theorem haveText_cutNext (mode : Mode) (layout : Layout) (rest : List Char) :
    HaveText (cutNext mode layout rest).lexemes := by
  cases mode with
  | stream => exact haveText_cutStream layout rest
  | doc => exact haveText_cutDoc layout rest
  | flow => exact haveText_cutFlow layout rest

/-- All cuts give lexemes with text. -/
theorem haveText_cutAll (mode : Mode) (layout : Layout) (rest : List Char) :
    HaveText (cutAll mode layout rest) := by
  induction mode, layout, rest using cutAll.induct with
  | case1 mode layout rest hempty =>
    rw [cutAll, if_pos hempty]
    exact haveText_nil
  | case2 mode layout rest hrest cut hless ih =>
    rw [cutAll, if_neg hrest]
    dsimp only
    rw [if_pos hless]
    exact (haveText_cutNext mode layout rest).append ih
  | case3 mode layout rest hrest cut hsame =>
    rw [cutAll, if_neg hrest]
    dsimp only
    rw [if_neg hsame]
    exact haveText_cutNext mode layout rest

end Yaml

end LineSum

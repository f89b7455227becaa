import JqLens.Proofs.Constructs
import JqLens.Proofs.LookBack

/-
  This file compares the deny list with the tokens that are
  shown. The deny list reads a filter as text and knows the
  words of all scripts; tokens have names of ASCII, and a number
  may end in the middle of such a word. A filter that is not
  refused shows no token for the environment variable, and a
  token that is named like a refused word only where one of
  these differences hides the word: behind a number, or next to
  a word character beyond ASCII.

  Key definitions include:
    * `Text.isWordBeyondAscii`
    * `Token.IsGlued`
    * `Gloss.disabledNote`

  Main results:
    * `Lexeme.Fitting.glued`
    * `Token.named_of_disabled`
    * `refused_tokens_glued`
-/

namespace JqLens

------------------------------------------------------------
-- Words beyond ASCII
------------------------------------------------------------

/- A word character that no name of a filter may hold. -/
def Text.isWordBeyondAscii (c : Char) : Bool :=
  isWord c && 0x80 ≤ c.toNat

/- A word character is one of ASCII or one beyond. -/
theorem Text.isWordBeyondAscii_of_isWord
    {c : Char}
    (hWord : isWord c = true)
    (hAscii : isAsciiWord c = false) :
    isWordBeyondAscii c = true := by
  rw [isWordBeyondAscii, hWord, Bool.true_and, decide_eq_true_iff, ← Nat.not_lt]
  intro hLess
  rw [isWord, if_pos hLess, hAscii] at hWord
  exact Bool.noConfusion hWord

------------------------------------------------------------
-- Lexemes named like refused words
------------------------------------------------------------

namespace Lexeme

/- A refused word starts and ends with characters of names, and with no digit. -/
theorem ends_of_mem_words
    {word : List Char}
    (hWord : word ∈ DenyList.words) :
    (∃ c, word.head? = some c ∧ Text.isAsciiWord c = true ∧ c.isDigit = false) ∧
      ∃ c, word.getLast? = some c ∧ Text.isAsciiWord c = true := by
  have hAll : (DenyList.words.all fun word =>
      (word.head?.any fun c => Text.isAsciiWord c && !c.isDigit) &&
        word.getLast?.any Text.isAsciiWord) = true := by
    decide
  have hEnds := List.all_eq_true.mp hAll word hWord
  simpa [Option.any_eq_true] using hEnds

/- A number starts with a digit. -/
theorem Fits.isNumber_eq_false
    {lexeme : Lexeme}
    {rest : List Char}
    {c : Char}
    (hFits : lexeme.Fits rest)
    (hHead : lexeme.text.head? = some c)
    (hDigit : c.isDigit = false) :
    lexeme.isNumber = false := by
  rw [← Bool.not_eq_true]
  intro hNumber
  rcases exists_number_of_isNumber hNumber with ⟨text, rfl⟩
  rcases hFits with ⟨d, digits, rfl, hFirst, -⟩
  rw [← Option.some.inj hHead, hFirst] at hDigit
  exact Bool.noConfusion hDigit

/-
  A lexeme that is named like a refused word, but does not stand
  on its own in the text, has a number in front of it or a word
  character beyond ASCII next to it.
-/
theorem Fitting.glued
    {front back : List Lexeme}
    {lexeme : Lexeme}
    (hFitting : Fitting (front ++ lexeme :: back))
    (hWord : lexeme.text ∈ DenyList.words)
    (hHidden : ¬ DenyList.StandsAlone lexeme.text ((front ++ lexeme :: back).flatMap text)) :
    (∃ number ∈ front.getLast?, number.isNumber = true) ∨
      (∃ c ∈ (front.flatMap text).getLast?, Text.isWordBeyondAscii c = true) ∨
      (∃ c ∈ (back.flatMap text).head?, Text.isWordBeyondAscii c = true) := by
  have hFits := (fitting_append hFitting).2.1
  rcases ends_of_mem_words hWord with ⟨⟨first, hFirst, hStart, hDigit⟩, last, hLast, hEnd⟩
  have hBehind := hFits.stopsAt_word (hFits.isNumber_eq_false hFirst hDigit) hLast hEnd
  have hNeighbour : DenyList.inWord (front.flatMap text).getLast? = true ∨
      DenyList.inWord (back.flatMap text).head? = true := by
    by_contra hNone
    rw [not_or, Bool.not_eq_true, Bool.not_eq_true] at hNone
    refine hHidden ⟨front.flatMap text, back.flatMap text, ?_, hNone⟩
    rw [List.flatMap_append, List.flatMap_cons]
  rcases hNeighbour with hBefore | hAfter
  · cases hText : (front.flatMap text).getLast? with
    | none =>
        rw [hText] at hBefore
        exact Bool.noConfusion hBefore
    | some c =>
        rw [hText] at hBefore
        cases hAscii : Text.isAsciiWord c with
        | false => exact Or.inr (Or.inl ⟨c, rfl, Text.isWordBeyondAscii_of_isWord hBefore hAscii⟩)
        | true =>
            -- The lexeme in front would have taken the word, unless it is a number.
            rcases List.eq_nil_or_concat' front with rfl | ⟨others, previous, rfl⟩
            · simp at hText
            have hFront := (fitting_append hFitting).1
            rw [hFront.getLast?_flatMap] at hText
            rw [List.append_assoc, List.singleton_append] at hFitting
            have hPrevious := (fitting_append hFitting).2.1
            refine Or.inl ⟨previous, List.getLast?_concat, ?_⟩
            by_contra hNumber
            have hStops := hPrevious.stopsAt_word (Bool.eq_false_iff.mpr hNumber) hText hAscii
            have hNone : Text.isAsciiWord first = false := by
              refine hStops first ?_
              rw [List.flatMap_cons, List.head?_append, hFirst]
              rfl
            rw [hStart] at hNone
            exact Bool.noConfusion hNone
  · cases hText : (back.flatMap text).head? with
    | none =>
        rw [hText] at hAfter
        exact Bool.noConfusion hAfter
    | some c =>
        rw [hText] at hAfter
        exact Or.inr (Or.inr ⟨c, rfl, Text.isWordBeyondAscii_of_isWord hAfter
          (hBehind c hText)⟩)

end Lexeme

------------------------------------------------------------
-- Tokens that are documented as disabled
------------------------------------------------------------

/- What the glossary notes about a name that is refused. -/
def Gloss.disabledNote : String :=
  "Disabled in the sandbox."

/- The names with this note are refused words or the environment variable. -/
theorem Gloss.named_of_disabled
    {text : String}
    {gloss : Gloss}
    (hGloss : find? text = some gloss)
    (hNote : gloss.documentation = disabledNote) :
    text.toList ∈ DenyList.words ∨ text.toList = DenyList.environment := by
  have hEntries : (glossary.all fun entry => entry.2.documentation != disabledNote ||
      (DenyList.environment :: DenyList.words).contains entry.1.toList) = true := by
    decide +kernel
  have hNamed := List.all_eq_true.mp hEntries _ (mem_glossary hGloss)
  simpa [hNote, or_comm] using hNamed

theorem Token.documentation_withDocumentation
    {token : Token}
    {documentation note : String}
    (hToken : token.documentation = none)
    (hNote : (token.withDocumentation documentation).documentation = some note) :
    documentation = note := by
  unfold Token.withDocumentation at hNote
  split at hNote
  · rw [hToken] at hNote
    exact absurd hNote (by simp)
  · exact Option.some.inj hNote

/- A token with the note is named in the glossary. -/
theorem Token.named_ofGlossary
    {text : String}
    {category : Category}
    (hNote : (Token.ofGlossary text category).documentation = some Gloss.disabledNote) :
    text.toList ∈ DenyList.words ∨ text.toList = DenyList.environment := by
  unfold Token.ofGlossary at hNote
  split at hNote
  · next gloss hGloss =>
      exact Gloss.named_of_disabled hGloss (Token.documentation_withDocumentation rfl hNote)
  · simp at hNote

/- A text that starts with another letter is not the note. -/
theorem Gloss.ne_disabledNote
    {text : String}
    (hHead : text.toList.head? ≠ some 'D') :
    some text ≠ some disabledNote := by
  intro hNote
  rw [Option.some.inj hNote] at hHead
  exact hHead (by decide)

/- No path access that is explained by its shape has the note. -/
theorem Access.named_of_disabled
    {path : Access}
    (hNote : path.explain.documentation = some Gloss.disabledNote) :
    (String.ofList path.text).toList ∈ DenyList.words ∨
      (String.ofList path.text).toList = DenyList.environment := by
  cases path with
  | identity => exact @Token.named_ofGlossary _ .access hNote
  | recursiveDescent => exact @Token.named_ofGlossary _ .access hNote
  | iterate suppressed => exact @Token.named_ofGlossary _ .access hNote
  | bracket body slice suppressed =>
      cases slice with
      | true => exact absurd hNote (Gloss.ne_disabledNote (by decide))
      | false => exact absurd hNote (Gloss.ne_disabledNote (by decide))
  | field name suppressed =>
      cases suppressed with
      | true => exact absurd hNote (Gloss.ne_disabledNote (by simp))
      | false => exact absurd hNote (Gloss.ne_disabledNote (by simp))
  | fieldIterate name suppressed => exact absurd hNote (Gloss.ne_disabledNote (by simp))

/- A token with the note is named like a refused word or the environment variable. -/
theorem Lexeme.named_of_disabled
    {lexeme : Lexeme}
    {depth : Int}
    (hNote : (lexeme.explain depth).documentation = some Gloss.disabledNote) :
    lexeme.text ∈ DenyList.words ∨ lexeme.text = DenyList.environment := by
  rw [← String.toList_ofList (l := lexeme.text)]
  cases lexeme with
  | space text => exact absurd hNote (by simp [explain])
  | literal text => exact absurd hNote (Gloss.ne_disabledNote (by decide))
  | number text => exact absurd hNote (by simp [explain])
  | var name =>
      simp only [explain, explainVariable] at hNote
      split at hNote
      · exact Token.named_ofGlossary hNote
      · exact absurd hNote (Gloss.ne_disabledNote (by decide))
  | format name =>
      simp only [explain, explainFormat] at hNote
      split at hNote
      · next gloss hGloss =>
          exact Gloss.named_of_disabled hGloss (Token.documentation_withDocumentation rfl hNote)
      · simp at hNote
  | operator text => exact Token.named_ofGlossary hNote
  | access path => exact Access.named_of_disabled hNote
  | word text =>
      simp only [explain, explainWord] at hNote
      split at hNote
      · exact Token.named_ofGlossary hNote
      · split at hNote
        · exact absurd hNote (Gloss.ne_disabledNote (by simp))
        · simp at hNote
  | stray c => exact absurd hNote (by simp [explain])

------------------------------------------------------------
-- Tokens of admitted filters
------------------------------------------------------------

/-
  What stands next to a token hides its name from the deny list:
  a number in front of it, or a word character beyond ASCII on
  one of its sides.
-/
def Token.IsGlued
    (before behind : List Token) : Prop :=
  (∃ number ∈ before.getLast?, number.category = .number) ∨
    (∃ c ∈ (reconstruct before).toList.getLast?, Text.isWordBeyondAscii c = true) ∨
    (∃ c ∈ (reconstruct behind).toList.head?, Text.isWordBeyondAscii c = true)

/- The last of the tokens of lexemes explains the last of the lexemes. -/
theorem exists_getLast?_explainAll
    {front : List Lexeme}
    {lexeme : Lexeme}
    (hLast : front.getLast? = some lexeme)
    (depth : Int) :
    ∃ here, (explainAll depth front).getLast? = some (lexeme.explain here) := by
  rcases List.getLast?_eq_some_iff.mp hLast with ⟨others, rfl⟩
  refine ⟨Lexeme.depthAfterAll depth others, ?_⟩
  rw [explainAll_append, explainAll, explainAll, List.getLast?_concat]

/- The environment variable is hit wherever it is part of the text. -/
theorem not_infix_environment
    {filter : String}
    (hAdmitted : blockedConstruct filter = none)
    {cs : List Char}
    (hPart : cs <:+: filter.toList) :
    ¬ DenyList.environment <:+: cs := by
  intro hEnvironment
  have hBlocked := (isSome_blockedConstruct_iff filter).mpr
    (DenyList.hits_of_environment (hEnvironment.trans hPart) none)
  rw [hAdmitted] at hBlocked
  exact Bool.noConfusion hBlocked

/- A token of a filter that is not refused, if it is named like a refused word, is glued. -/
theorem glued_of_mem_words
    {filter : String}
    (hAdmitted : blockedConstruct filter = none)
    {before behind : List Token}
    {token : Token}
    (hTokens : tokenize filter = before ++ token :: behind)
    (hWord : token.text.toList ∈ DenyList.words) :
    Token.IsGlued before behind := by
  have hFitting := Lexeme.fitting_scan filter.toList
  have hFilter := Lexeme.flatMap_text_scan filter.toList
  rcases exists_lexeme_of_explainAll hTokens with ⟨front, lexeme, back, hScan, rfl, rfl, rfl⟩
  rw [Lexeme.text_explain, String.toList_ofList] at hWord
  rw [hScan] at hFitting hFilter
  have hHidden : ¬ DenyList.StandsAlone lexeme.text
      ((front ++ lexeme :: back).flatMap Lexeme.text) := by
    rw [hFilter]
    intro hStands
    have hBlocked := (isSome_blockedConstruct_iff filter).mpr
      ((DenyList.hits_none_iff filter.toList).mpr (Or.inr ⟨_, hWord, hStands⟩))
    rw [hAdmitted] at hBlocked
    exact Bool.noConfusion hBlocked
  rw [Token.IsGlued, toList_reconstruct_explainAll, toList_reconstruct_explainAll]
  refine (hFitting.glued hWord hHidden).imp_left ?_
  rintro ⟨number, hLast, hNumber⟩
  rcases exists_getLast?_explainAll hLast 0 with ⟨here, hToken⟩
  rcases Lexeme.exists_number_of_isNumber hNumber with ⟨text, rfl⟩
  exact ⟨_, hToken, rfl⟩

/-
  The deny list and the tokens agree on what is disabled. A
  filter that is not refused shows no token for the environment
  variable. Each of its tokens that is named like a refused word
  has a number directly in front of it, or a word character
  beyond ASCII directly next to it; and so it is with each token
  that is documented as disabled.
-/
theorem refused_tokens_glued
    (filter : String)
    (hAdmitted : blockedConstruct filter = none) :
    (∀ token ∈ tokenize filter, ¬ DenyList.environment <+: token.text.toList) ∧
    (∀ before token behind, tokenize filter = before ++ token :: behind →
      token.text.toList ∈ DenyList.words → Token.IsGlued before behind) ∧
    (∀ before token behind, tokenize filter = before ++ token :: behind →
      token.documentation = some "Disabled in the sandbox." →
        token.text.toList ∈ DenyList.words ∧ Token.IsGlued before behind) := by
  have hNoVariable : ∀ before token behind, tokenize filter = before ++ token :: behind →
      ¬ DenyList.environment <+: token.text.toList := by
    intro before token behind hTokens hPrefix
    have hSpelled := congrArg String.toList (tokenize_lossless filter).1
    rw [hTokens, reconstruct, String.toList_ofList, List.flatMap_append,
      List.flatMap_cons, ← List.append_assoc] at hSpelled
    exact not_infix_environment hAdmitted ⟨_, _, hSpelled⟩ hPrefix.isInfix
  refine ⟨?_, ?_, ?_⟩
  · intro token hMember
    rcases List.append_of_mem hMember with ⟨before, behind, hTokens⟩
    exact hNoVariable before token behind hTokens
  · exact fun before token behind => glued_of_mem_words hAdmitted
  · intro before token behind hTokens hNote
    have hNamed : token.text.toList ∈ DenyList.words := by
      rcases exists_lexeme_of_explainAll hTokens with ⟨front, lexeme, back, -, -, hToken, -⟩
      have hVariable := hNoVariable before token behind hTokens
      rw [hToken] at hNote hVariable ⊢
      rw [Lexeme.text_explain, String.toList_ofList] at hVariable ⊢
      refine (Lexeme.named_of_disabled hNote).resolve_right ?_
      intro hEnvironment
      exact hVariable (hEnvironment ▸ List.prefix_rfl)
    exact ⟨hNamed, glued_of_mem_words hAdmitted hTokens hNamed⟩

/-
  Two names that the deny list does not see: one behind a number
  that ends where it starts, one behind a letter that is none of
  ASCII. Both tokens are documented as disabled.
-/
theorem refused_tokens_glued_hidden :
    blockedConstruct "1debug+éinput" = none ∧
      (tokenize "1debug+éinput").map Token.text = ["1", "debug", "+", "é", "input"] ∧
      (∀ before token behind, tokenize "1debug+éinput" = before ++ token :: behind →
        token.documentation = some "Disabled in the sandbox." →
          token.text.toList ∈ DenyList.words ∧ Token.IsGlued before behind) ∧
      Token.IsGlued ((tokenize "1debug+éinput").take 1) ((tokenize "1debug+éinput").drop 2) ∧
      Token.IsGlued ((tokenize "1debug+éinput").take 4) ((tokenize "1debug+éinput").drop 5) := by
  have hAdmitted : blockedConstruct "1debug+éinput" = none := by
    decide +kernel
  rcases refused_tokens_glued "1debug+éinput" hAdmitted with ⟨-, hWords, hNotes⟩
  refine ⟨hAdmitted, by decide +kernel, hNotes, ?_, ?_⟩
  · exact hWords _ (Lexeme.explain 0 (.word "debug".toList)) _ (by decide +kernel) (by decide)
  · exact hWords _ (Lexeme.explain 0 (.word "input".toList)) _ (by decide +kernel) (by decide)

end JqLens

import JqLens.Proofs.LookBack
import JqLens.Proofs.Reread
import JqLens.Proofs.TokenClass

/-
  This file proves that the scan takes as much as it can: no
  token could be longer with what follows it. For runs of
  characters this is a matter of the next character alone, and
  for operators of the order in which they are tried. So two
  word characters are torn apart only behind a number.

  Key definitions include:
    * `Token.IsIdentifier`
    * `Token.StopsBefore`

  Main results:
    * `Lexeme.Fits.not_longer_operator`
    * `Lexeme.Fitting.number_of_word`
    * `Lexeme.Fitting.stopsBefore`
    * `tokenize_stopsBefore`
-/

namespace JqLens

------------------------------------------------------------
-- Tokens that cannot go on
------------------------------------------------------------

namespace Token

/- A name on its own, known to the glossary or not. -/
def IsIdentifier (token : Token) : Prop :=
  token.category ∈ Category.named ∧ token.form = none ∧ IsName token.text.toList

/- The first character of a token is in a class. -/
def StartsWith
    (p : Char → Bool)
    (token : Token) : Prop :=
  ∃ c ∈ token.text.toList.head?, p c = true

/- The last character of a token is in a class. -/
def EndsWith
    (p : Char → Bool)
    (token : Token) : Prop :=
  ∃ c ∈ token.text.toList.getLast?, p c = true

/-
  A token could take nothing of the next one and of what is
  behind that.
-/
structure StopsBefore
    (token next : Token)
    (behind : List Token) : Prop where
  /- A run of blanks takes all blanks. -/
  space : ¬ (token.category = .space ∧ next.category = .space)
  /- A number takes all characters of numbers. -/
  number : token.category = .number → ¬ next.StartsWith Lexeme.isNumberChar
  /- A name takes all characters of words, with a sign in front of it or without. -/
  name :
    token.IsIdentifier ∨ token.category = .var ∨ token.category = .format ∨
        token.form = some (.field false) →
      ¬ next.StartsWith Text.isAsciiWord
  /- Characters of words come apart only between a number and a name. -/
  word :
    token.EndsWith Text.isAsciiWord → next.StartsWith Text.isAsciiWord →
      token.category = .number ∧ next.IsIdentifier
  /- An operator is the longest one. -/
  operator :
    token.category = .operator → ∀ long ∈ Lexeme.longOperators,
      token.text.length < long.length →
        ¬ long <+: token.text.toList ++ (reconstruct (next :: behind)).toList
  /- A field takes the brackets of an iteration and the question mark. -/
  field :
    token.form = some (.field false) →
      ¬ ['[', ']'] <+: (reconstruct (next :: behind)).toList ∧
        ¬ ['?'] <+: (reconstruct (next :: behind)).toList

end Token

------------------------------------------------------------
-- Classes of lexemes
------------------------------------------------------------

namespace Lexeme

/- The class of lexemes that a category stands for, where there is only one. -/
def IsOf (lexeme : Lexeme) : Category → Prop
  | .space => ∃ text, lexeme = space text
  | .string => ∃ text, lexeme = literal text
  | .number => ∃ text, lexeme = number text
  | .var => ∃ name, lexeme = var name
  | .format => ∃ name, lexeme = format name
  | .operator => ∃ text, lexeme = operator text
  | _ => True

/- A token is explained from a lexeme of the class of its category. -/
theorem Fits.isOf
    {lexeme : Lexeme}
    {rest : List Char}
    {category : Category}
    {depth : Int}
    (hFits : lexeme.Fits rest)
    (hCategory : (lexeme.explain depth).category = category) :
    lexeme.IsOf category := by
  have hMember := hFits.category_mem depth
  rw [hCategory] at hMember
  cases lexeme with
  | access path =>
      rw [List.mem_singleton.mp hMember]
      cases path.form <;> trivial
  | word text =>
      have hNamed : ∀ known ∈ Category.named, (word text).IsOf known := by
        simp [Category.named, IsOf]
      exact hNamed category hMember
  | stray c =>
      rw [List.mem_singleton.mp hMember]
      trivial
  | _ =>
      rw [List.mem_singleton.mp hMember]
      exact ⟨_, rfl⟩

/- A name is explained as an identifier. -/
theorem Fits.isIdentifier_word
    {text rest : List Char}
    (hFits : (word text).Fits rest)
    (depth : Int) :
    ((word text).explain depth).IsIdentifier := by
  refine ⟨hFits.category_mem depth, form_explain depth _, ?_⟩
  rw [text_explain, String.toList_ofList]
  exact ⟨hFits.1, hFits.2.1⟩

/- Only a name is explained as an identifier. -/
theorem Fits.exists_word_of_isIdentifier
    {lexeme : Lexeme}
    {rest : List Char}
    {depth : Int}
    (hFits : lexeme.Fits rest)
    (hIdentifier : (lexeme.explain depth).IsIdentifier) :
    ∃ text, lexeme = word text := by
  rcases hIdentifier with ⟨hCategory, hForm, hName⟩
  have hMember := hFits.category_mem depth
  rw [form_explain] at hForm
  rw [text_explain, String.toList_ofList] at hName
  cases lexeme with
  | word text => exact ⟨text, rfl⟩
  | access path => exact absurd hForm (Option.some_ne_none _)
  | stray c =>
      have hWord := hName.2 c List.mem_cons_self
      rw [hFits.2.2.1] at hWord
      exact Bool.noConfusion hWord
  | _ =>
      rw [List.mem_singleton.mp hMember] at hCategory
      exact absurd hCategory (by decide)

/- An access of the form of an unsuppressed field is one. -/
theorem exists_field_of_form
    {lexeme : Lexeme}
    {depth : Int}
    (hForm : (lexeme.explain depth).form = some (.field false)) :
    ∃ name, lexeme = access (.field name false) := by
  rw [form_explain] at hForm
  cases lexeme with
  | access path =>
      have hPath : path.form = .field false := Option.some.inj hForm
      cases path with
      | field name suppressed =>
          rw [Access.form, DotForm.field.injEq] at hPath
          exact ⟨name, by rw [hPath]⟩
      | bracket body slice suppressed => cases slice <;> exact DotForm.noConfusion hPath
      | _ => exact DotForm.noConfusion hPath
  | _ => exact absurd hForm.symm (Option.some_ne_none _)

------------------------------------------------------------
-- Longest operators
------------------------------------------------------------

/- Longer operators are tried first. -/
theorem longOperators_pairwise :
    longOperators.Pairwise fun first second => second.length ≤ first.length := by
  decide

/- An operator is the longest one that the text starts with. -/
theorem Fits.not_longer_operator
    {text rest long : List Char}
    (hFits : (operator text).Fits rest)
    (hMember : long ∈ longOperators)
    (hLonger : text.length < long.length) :
    ¬ long <+: text ++ rest := by
  rw [← List.isPrefixOf_iff_prefix]
  rcases hFits with hFound | ⟨hNone, -⟩
  · rw [longOperator?, List.find?_eq_some_iff_append] at hFound
    rcases hFound with ⟨-, before, behind, hList, hBefore⟩
    have hOrder := longOperators_pairwise
    rw [hList, List.pairwise_append, List.pairwise_cons] at hOrder
    rw [hList, List.mem_append, List.mem_cons] at hMember
    rcases hMember with hEarlier | rfl | hLater
    · have hNot := hBefore long hEarlier
      rwa [Bool.not_eq_true', ← Bool.not_eq_true] at hNot
    · exact absurd hLonger (Nat.lt_irrefl _)
    · exact absurd (hOrder.2.1.1 long hLater) (Nat.not_le.mpr hLonger)
  · rw [longOperator?, List.find?_eq_none] at hNone
    exact hNone long hMember

------------------------------------------------------------
-- Characters of words
------------------------------------------------------------

/- No character of a word comes next behind a name, with a sign in front or without. -/
theorem Fits.stopsAt_of_name
    {lexeme : Lexeme}
    {rest : List Char}
    {depth : Int}
    (hFits : lexeme.Fits rest)
    (hName :
      (lexeme.explain depth).IsIdentifier ∨ (lexeme.explain depth).category = .var ∨
        (lexeme.explain depth).category = .format ∨
          (lexeme.explain depth).form = some (.field false)) :
    StopsAt Text.isAsciiWord rest := by
  rcases hName with hIdentifier | hVar | hFormat | hField
  · rcases hFits.exists_word_of_isIdentifier hIdentifier with ⟨text, rfl⟩
    exact hFits.2.2
  · rcases hFits.isOf hVar with ⟨name, rfl⟩
    exact hFits.2
  · rcases hFits.isOf hFormat with ⟨name, rfl⟩
    exact hFits.2
  · rcases exists_field_of_form hField with ⟨name, rfl⟩
    exact hFits.1.2.2

/-
  A character of a word behind a number is a letter or an
  underscore: the number would have taken a digit.
-/
theorem isNameStart_of_isAsciiWord
    {c : Char}
    (hWord : Text.isAsciiWord c = true)
    (hNumber : isNumberChar c = false) :
    isNameStart c = true := by
  rw [isNumberChar, Bool.or_eq_false_iff] at hNumber
  rw [Text.isAsciiWord, Char.isAlphanum, hNumber.1, Bool.or_false] at hWord
  exact hWord

/- What starts like a name is a name. -/
theorem Fits.exists_word_of_isNameStart
    {lexeme : Lexeme}
    {rest : List Char}
    {c : Char}
    (hFits : lexeme.Fits rest)
    (hHead : lexeme.text.head? = some c)
    (hStart : isNameStart c = true) :
    ∃ text, lexeme = word text := by
  rcases hFits.exists_next hHead with ⟨cs, hNext⟩
  rw [next_of_isNameStart hStart, Prod.mk.injEq] at hNext
  exact ⟨_, hNext.1.symm⟩

/- Where a class of characters stops, no token starts with one. -/
theorem not_startsWith_of_stopsAt
    {p : Char → Bool}
    {lexeme : Lexeme}
    {back : List Lexeme}
    (hStops : StopsAt p ((lexeme :: back).flatMap text))
    (depth : Int) :
    ¬ (lexeme.explain depth).StartsWith p := by
  rintro ⟨c, hHead, hIn⟩
  rw [text_explain, String.toList_ofList, Option.mem_def] at hHead
  have hOut := hStops c (by rw [List.flatMap_cons, List.head?_append, hHead]; rfl)
  rw [hIn] at hOut
  exact Bool.noConfusion hOut

/- Two characters of words come apart between a number and a name. -/
theorem Fitting.number_of_word
    {lexeme other : Lexeme}
    {back : List Lexeme}
    {depth inner : Int}
    (hFitting : Fitting (lexeme :: other :: back))
    (hEnd : (lexeme.explain depth).EndsWith Text.isAsciiWord)
    (hStart : (other.explain inner).StartsWith Text.isAsciiWord) :
    (lexeme.explain depth).category = .number ∧ (other.explain inner).IsIdentifier := by
  have hStops : lexeme.isNumber = true := by
    by_contra hOther
    rcases hEnd with ⟨c, hLast, hWord⟩
    rw [text_explain, String.toList_ofList] at hLast
    exact not_startsWith_of_stopsAt
      (hFitting.1.stopsAt_word (Bool.eq_false_iff.mpr hOther) hLast hWord) inner hStart
  rcases exists_number_of_isNumber hStops with ⟨text, rfl⟩
  rcases hFitting.1 with ⟨-, -, -, -, -, hNumber⟩
  have hNone := not_startsWith_of_stopsAt hNumber inner
  rcases hStart with ⟨c, hHead, hWord⟩
  have hName : isNameStart c = true := by
    apply isNameStart_of_isAsciiWord hWord
    rw [← Bool.not_eq_true]
    exact fun hIn => hNone ⟨c, hHead, hIn⟩
  rw [text_explain, String.toList_ofList] at hHead
  rcases hFitting.2.1.exists_word_of_isNameStart hHead hName with ⟨name, rfl⟩
  exact ⟨rfl, hFitting.2.1.isIdentifier_word inner⟩

------------------------------------------------------------
-- Neighbours
------------------------------------------------------------

/- A lexeme that is complete in front of another takes nothing of it. -/
theorem Fitting.stopsBefore
    {lexeme other : Lexeme}
    {back : List Lexeme}
    (hFitting : Fitting (lexeme :: other :: back))
    (depth inner behind : Int) :
    (lexeme.explain depth).StopsBefore (other.explain inner) (explainAll behind back) := by
  have hFits := hFitting.1
  have hRest : (reconstruct (other.explain inner :: explainAll behind back)).toList =
      (other :: back).flatMap text := by
    have hBack := toList_reconstruct_explainAll behind back
    rw [reconstruct, String.toList_ofList] at hBack ⊢
    rw [List.flatMap_cons, List.flatMap_cons, hBack, text_explain, String.toList_ofList]
  exact
    { space := by
        rintro ⟨hSpace, hOther⟩
        rcases hFits.isOf hSpace with ⟨blanks, rfl⟩
        rcases hFitting.2.1.isOf hOther with ⟨others, rfl⟩
        rcases hFitting.2.1 with ⟨hSome, hBlanks, -⟩
        rcases List.exists_cons_of_ne_nil hSome with ⟨c, tail, rfl⟩
        apply not_startsWith_of_stopsAt hFits.2.2 inner
        refine ⟨c, ?_, hBlanks c List.mem_cons_self⟩
        rw [text_explain, String.toList_ofList]
        rfl
      number := by
        intro hNumber
        rcases hFits.isOf hNumber with ⟨text, rfl⟩
        rcases hFits with ⟨-, -, -, -, -, hStops⟩
        exact not_startsWith_of_stopsAt hStops inner
      name := fun hName => not_startsWith_of_stopsAt (hFits.stopsAt_of_name hName) inner
      word := hFitting.number_of_word
      operator := by
        intro hOperator long hMember hLonger
        rcases hFits.isOf hOperator with ⟨text, rfl⟩
        rw [text_explain, String.length_ofList] at hLonger
        rw [hRest, text_explain, String.toList_ofList]
        exact hFits.not_longer_operator hMember hLonger
      field := by
        intro hForm
        rcases exists_field_of_form hForm with ⟨name, rfl⟩
        rw [hRest]
        refine ⟨hFits.2.1, ?_⟩
        rintro ⟨tail, hTail⟩
        exact hFits.2.2 rfl (by rw [← hTail]; rfl) }

end Lexeme

/-
  In a filter, whatever it holds, no token could take anything
  of what follows: two neighbours are not both blanks, a number
  has no character of numbers behind it and a name none of
  words, no longer operator is there in place of an operator,
  and neither brackets nor a question mark follow a field that
  has not taken them. So two characters of words are in
  different tokens only where a number stands in front of a
  name.
-/
theorem tokenize_stopsBefore
    (filter : String)
    (before behind : List Token)
    (token next : Token)
    (hTokens : tokenize filter = before ++ token :: next :: behind) :
    token.StopsBefore next behind := by
  have hFitting := Lexeme.fitting_scan filter.toList
  rcases exists_lexeme_of_explainAll hTokens with ⟨front, lexeme, back, hScan, -, rfl, hBehind⟩
  have hNext : explainAll _ back = [] ++ next :: behind := hBehind.symm
  rcases exists_lexeme_of_explainAll hNext with ⟨middle, other, back, rfl, hMiddle, rfl, rfl⟩
  obtain rfl : middle = [] := by
    cases middle with
    | nil => rfl
    | cons first middle => exact absurd hMiddle (List.cons_ne_nil _ _).symm
  rw [hScan] at hFitting
  exact (Lexeme.fitting_append hFitting).2.stopsBefore _ _ _

/-
  A number that ends where a name begins, an operator of three
  characters behind the name, and a field in front of a bracket
  that is no iteration.
-/
theorem tokenize_stopsBefore_glued :
    ∃ number name operator field bracket behind,
      tokenize "1.5else?//.a[0]" =
          number :: name :: operator :: field :: bracket :: behind ∧
        number.text = "1.5e" ∧ name.text = "lse" ∧ operator.text = "?//" ∧
        field.form = some (.field false) ∧ bracket.text = "[" ∧
        number.StopsBefore name (operator :: field :: bracket :: behind) ∧
        operator.StopsBefore field (bracket :: behind) ∧
        field.StopsBefore bracket behind := by
  have hTokens : tokenize "1.5else?//.a[0]" =
      (Lexeme.number ['1', '.', '5', 'e']).explain 0 ::
        (Lexeme.word ['l', 's', 'e']).explain 0 ::
        (Lexeme.operator ['?', '/', '/']).explain 0 ::
        (Lexeme.access (.field ['a'] false)).explain 0 ::
        (Lexeme.operator ['[']).explain 0 ::
        [(Lexeme.number ['0']).explain 0, (Lexeme.operator [']']).explain 0] := by
    decide +kernel
  exact ⟨_, _, _, _, _, _, hTokens, by decide, by decide, by decide, rfl, by decide,
    tokenize_stopsBefore _ [] _ _ _ hTokens,
    tokenize_stopsBefore _ [_, _] _ _ _ hTokens,
    tokenize_stopsBefore _ [_, _, _] _ _ _ hTokens⟩

end JqLens

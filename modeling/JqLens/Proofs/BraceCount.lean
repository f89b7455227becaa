import JqLens.Proofs.MaximalMunch
import JqLens.Proofs.Nesting

/-
  This file proves that the number of open braces that is kept
  from token to token is a full count over all tokens so far. So
  a name without an entry is the key of an object exactly if
  more brace tokens open than close in front of it. Brace tokens
  are all the braces of a filter, those apart that stand in
  string literals and in bracketed accesses.

  Key definitions include:
    * `Token.isOperator`
    * `Token.isOpaque`
    * `Token.recountedDepth`

  Main results:
    * `Lexeme.Fits.isOperator_explain`
    * `Lexeme.Fits.depthAfter_eq`
    * `Lexeme.Fitting.depthAfterAll_eq`
    * `Lexeme.Fitting.countP_isOperator`
    * `tokenize_shorthand`
-/

namespace JqLens

------------------------------------------------------------
-- Brace tokens
------------------------------------------------------------

namespace Token

/- An operator token of a single character. -/
def isOperator
    (c : Char)
    (token : Token) : Bool :=
  token.category == .operator && token.text.toList == [c]

/- How many more braces tokens open than close, counted over all of them. -/
def recountedDepth (tokens : List Token) : Int :=
  (tokens.countP (isOperator '\x7b') : Int) - tokens.countP (isOperator '\x7d')

theorem recountedDepth_cons
    (token : Token)
    (tokens : List Token) :
    recountedDepth (token :: tokens) = recountedDepth [token] + recountedDepth tokens := by
  simp only [recountedDepth, List.countP_cons, List.countP_nil]
  omega

/- A string literal, or a bracketed access with something in its brackets. -/
def isOpaque (token : Token) : Bool :=
  token.isBracketed || token.category == .string

end Token

namespace Lexeme

/- A token is an operator of a single character exactly if its lexeme is one. -/
theorem Fits.isOperator_explain
    {lexeme : Lexeme}
    {rest : List Char}
    (hFits : lexeme.Fits rest)
    (c : Char)
    (depth : Int) :
    (lexeme.explain depth).isOperator c = true ↔ lexeme = operator [c] := by
  simp only [Token.isOperator, Bool.and_eq_true, beq_iff_eq, text_explain, String.toList_ofList]
  constructor
  · rintro ⟨hCategory, hText⟩
    rcases hFits.isOf hCategory with ⟨text, rfl⟩
    exact congrArg operator hText
  · rintro rfl
    exact ⟨List.mem_singleton.mp (hFits.category_mem depth), rfl⟩

/- A lexeme changes the number of open braces as its token says. -/
theorem Fits.depthAfter_eq
    {lexeme : Lexeme}
    {rest : List Char}
    (hFits : lexeme.Fits rest)
    (depth start : Int) :
    lexeme.depthAfter depth = depth + Token.recountedDepth [lexeme.explain start] := by
  simp only [Token.recountedDepth, List.countP_singleton, hFits.isOperator_explain]
  by_cases hOpening : lexeme = operator ['\x7b']
  · subst hOpening
    simp [depthAfter]
  by_cases hClosing : lexeme = operator ['\x7d']
  · subst hClosing
    simp [depthAfter]
    omega
  · have hSame : lexeme.depthAfter depth = depth := by
      cases lexeme with
      | operator text =>
          apply depthAfter_operator
          · exact fun hText => hOpening (congrArg operator hText)
          · exact fun hText => hClosing (congrArg operator hText)
      | _ => rfl
    simp [hOpening, hClosing, hSame]

/-
  The number of open braces behind lexemes is that in front of
  them and what a recount over their tokens gives.
-/
theorem Fitting.depthAfterAll_eq
    {lexemes : List Lexeme}
    (hFitting : Fitting lexemes)
    (depth start : Int) :
    depthAfterAll depth lexemes =
      depth + Token.recountedDepth (explainAll start lexemes) := by
  induction lexemes generalizing depth start with
  | nil => simp [depthAfterAll, explainAll, Token.recountedDepth]
  | cons lexeme lexemes ih =>
      have hRest := ih hFitting.2 (lexeme.depthAfter depth) (lexeme.depthAfter start)
      have hStep := hFitting.1.depthAfter_eq depth start
      rw [explainAll, Token.recountedDepth_cons]
      unfold depthAfterAll at hRest ⊢
      rw [List.foldl_cons, hRest, hStep]
      omega

------------------------------------------------------------
-- Braces that are no tokens
------------------------------------------------------------

/- The tokens that may hold braces are those that may hold quotes. -/
theorem Fits.isOpaque_explain
    {lexeme : Lexeme}
    {rest : List Char}
    (hFits : lexeme.Fits rest)
    (depth : Int) :
    (lexeme.explain depth).isOpaque = lexeme.mayQuote := by
  have hCategory := hFits.category_mem depth
  unfold Token.isOpaque
  rw [isBracketed_explain]
  cases lexeme with
  | access path =>
      rw [categories, List.mem_singleton] at hCategory
      rw [hCategory]
      cases path with
      | _ => rfl
  | word text =>
      have hNamed : ∀ category ∈ Category.named, (category == .string) = false := by
        decide
      exact hNamed _ hCategory
  | _ =>
      rw [categories, List.mem_singleton] at hCategory
      rw [hCategory]
      rfl

/- Among the other lexemes only a brace token has braces in it, namely itself. -/
theorem Fits.count_brace
    {lexeme : Lexeme}
    {rest : List Char}
    {brace : Char}
    (hFits : lexeme.Fits rest)
    (hBrace : brace ∈ ['\x7b', '\x7d'])
    (hQuote : lexeme.mayQuote = false) :
    lexeme.text.count brace = if lexeme = operator [brace] then 1 else 0 := by
  split
  · next hOperator =>
      rw [hOperator]
      simp [text]
  next hOther =>
  rw [List.count_eq_zero]
  cases hPlain : lexeme.isPlain with
  | true =>
      have hForeign : ['\x7b', '\x7d'].all isForeign = true := by
        decide
      exact not_mem_text hFits hPlain (List.all_eq_true.mp hForeign _ hBrace)
  | false =>
      cases lexeme with
      | literal text => simp [mayQuote] at hQuote
      | operator text =>
          rcases hFits with hLong | ⟨-, c, -, rfl⟩
          · have hNone : ∀ long ∈ longOperators, '\x7b' ∉ long ∧ '\x7d' ∉ long := by
              decide
            have hFree := hNone text (mem_of_longOperator? hLong).1
            rcases List.mem_pair.mp hBrace with rfl | rfl
            · exact hFree.1
            · exact hFree.2
          · intro hMember
            apply hOther
            rw [List.mem_singleton.mp hMember]
      | access path =>
          cases path with
          | bracket body slice suppressed => simp [mayQuote] at hQuote
          | _ => simp [isPlain] at hPlain
      | stray c =>
          intro hMember
          have hShort : ['\x7b', '\x7d'].all shortOperators.contains = true := by
            decide
          rw [List.mem_singleton.mp hMember] at hBrace
          exact hFits.2.2.2.2 (List.contains_iff_mem.mp (List.all_eq_true.mp hShort c hBrace))
      | _ => simp [isPlain] at hPlain

/-
  The brace tokens among tokens are the braces in the texts of
  all tokens but string literals and bracketed accesses.
-/
theorem Fitting.countP_isOperator
    {lexemes : List Lexeme}
    {brace : Char}
    (hFitting : Fitting lexemes)
    (hBrace : brace ∈ ['\x7b', '\x7d'])
    (depth : Int) :
    (explainAll depth lexemes).countP (Token.isOperator brace) =
      (((explainAll depth lexemes).filter fun token => !token.isOpaque).flatMap
        fun token => token.text.toList).count brace := by
  induction lexemes generalizing depth with
  | nil => rfl
  | cons lexeme lexemes ih =>
      have hOpaque := hFitting.1.isOpaque_explain depth
      rw [explainAll, List.countP_cons, ih hFitting.2, List.filter_cons, hOpaque]
      simp only [hFitting.1.isOperator_explain]
      cases hQuote : lexeme.mayQuote with
      | true =>
          have hOther : lexeme ≠ operator [brace] := by
            rintro rfl
            simp [mayQuote] at hQuote
          simp [hOther]
      | false =>
          have hCount := hFitting.1.count_brace hBrace hQuote
          simp [List.count_append, text_explain, hCount, Nat.add_comm]

end Lexeme

------------------------------------------------------------
-- Keys of objects
------------------------------------------------------------

/- What has the text of a name is a name. -/
theorem Lexeme.Fits.exists_word_of_isName
    {lexeme : Lexeme}
    {rest : List Char}
    (hFits : lexeme.Fits rest)
    (hName : IsName lexeme.text) :
    ∃ text, lexeme = word text := by
  rcases Option.any_eq_true _ _ |>.mp hName.1 with ⟨c, hHead, hStart⟩
  exact hFits.exists_word_of_isNameStart hHead hStart

/- A name without an entry is explained by the number of open braces. -/
theorem Lexeme.category_explainWord_of_none
    {name : String}
    (hEntry : Gloss.find? name = none)
    (depth : Int) :
    (explainWord depth name).category = if 0 < depth then .field else .unknown := by
  rw [explainWord_of_none hEntry]
  split
  · rfl
  · rfl

/- A name with an entry has the category of its entry. -/
theorem Lexeme.category_explainWord_of_some
    {name : String}
    {gloss : Gloss}
    (hEntry : Gloss.find? name = some gloss)
    (depth : Int) :
    (explainWord depth name).category = gloss.category := by
  unfold explainWord Token.ofGlossary
  simp [hEntry]

/-
  In a filter, whatever it holds, a name without an entry in the
  glossary is the key of an object if more brace tokens open
  than close in front of it, and unknown otherwise; a name with
  an entry has the category of its entry. The brace tokens in
  front of it are the braces of the filter there, but those in
  string literals and bracketed accesses.
-/
theorem tokenize_shorthand
    (filter : String)
    (before behind : List Token)
    (token : Token)
    (hTokens : tokenize filter = before ++ token :: behind)
    (hName : IsName token.text.toList) :
    (Gloss.find? token.text = none →
        token.category =
          if before.countP (Token.isOperator '\x7d') < before.countP (Token.isOperator '\x7b') then
            .field
          else .unknown) ∧
      (∀ gloss ∈ Gloss.find? token.text, token.category = gloss.category) ∧
      ∀ brace ∈ ['\x7b', '\x7d'],
        before.countP (Token.isOperator brace) =
          (reconstruct (before.filter fun other => !other.isOpaque)).toList.count brace := by
  have hFitting := Lexeme.fitting_scan filter.toList
  rcases exists_lexeme_of_explainAll hTokens with ⟨front, lexeme, back, hScan, rfl, rfl, -⟩
  rw [hScan] at hFitting
  rcases Lexeme.fitting_append hFitting with ⟨hFront, hFits, -⟩
  have hDepth := hFront.depthAfterAll_eq 0 0
  rw [Int.zero_add] at hDepth
  rw [Lexeme.text_explain, String.toList_ofList] at hName
  rcases hFits.exists_word_of_isName hName with ⟨name, rfl⟩
  refine ⟨?_, ?_, ?_⟩
  · intro hEntry
    rw [Lexeme.text_explain] at hEntry
    have hCategory := Lexeme.category_explainWord_of_none hEntry
      (Lexeme.depthAfterAll 0 front)
    have hOpen : 0 < Lexeme.depthAfterAll 0 front ↔
        (explainAll 0 front).countP (Token.isOperator '\x7d') <
          (explainAll 0 front).countP (Token.isOperator '\x7b') := by
      rw [hDepth, Token.recountedDepth]
      omega
    simp only [hOpen] at hCategory
    exact hCategory
  · intro gloss hEntry
    rw [Lexeme.text_explain] at hEntry
    exact Lexeme.category_explainWord_of_some hEntry _
  · intro brace hBrace
    rw [hFront.countP_isOperator hBrace, reconstruct, String.toList_ofList]

/-
  A name behind a brace that was never opened, and one behind
  two that are opened later; a brace in a literal does not count.
-/
theorem tokenize_shorthand_unbalanced :
    ∃ close first opening second literal key,
      tokenize "\x7da\x7b\x7b\"\x7d\"b" = [close, first, opening, second, literal, key] ∧
        IsName first.text.toList ∧ Gloss.find? first.text = none ∧ first.category = .unknown ∧
        IsName key.text.toList ∧ Gloss.find? key.text = none ∧ key.category = .field := by
  have hTokens : tokenize "\x7da\x7b\x7b\"\x7d\"b" =
      [(Lexeme.operator ['\x7d']).explain 0,
        (Lexeme.word ['a']).explain (-1),
        (Lexeme.operator ['\x7b']).explain (-1),
        (Lexeme.operator ['\x7b']).explain 0,
        (Lexeme.literal ['"', '\x7d', '"']).explain 1,
        (Lexeme.word ['b']).explain 1] := by
    decide +kernel
  have hFirst : IsName ((Lexeme.word ['a']).explain (-1)).text.toList := by
    rw [Lexeme.text_explain, String.toList_ofList]
    decide
  have hKey : IsName ((Lexeme.word ['b']).explain 1).text.toList := by
    rw [Lexeme.text_explain, String.toList_ofList]
    decide
  have hFirstEntry : Gloss.find? ((Lexeme.word ['a']).explain (-1)).text = none := by
    decide +kernel
  have hKeyEntry : Gloss.find? ((Lexeme.word ['b']).explain 1).text = none := by
    decide +kernel
  have hUnknown := (tokenize_shorthand _ [_] _ _ hTokens hFirst).1 hFirstEntry
  have hField := (tokenize_shorthand _ [_, _, _, _, _] _ _ hTokens hKey).1 hKeyEntry
  rw [if_neg (by decide +kernel)] at hUnknown
  rw [if_pos (by decide +kernel)] at hField
  exact ⟨_, _, _, _, _, _, hTokens, hFirst, hFirstEntry, hUnknown, hKey, hKeyEntry, hField⟩

end JqLens

import JqLens.Proofs.Nesting
import JqLens.Proofs.Reread
import Mathlib.Data.List.DropRight

/-
  This file proves that a filter can be explained stage by
  stage. Where brackets are properly nested and literals are
  closed, the tokens of a filter, blanks and the pipes between
  stages left out, are those of its stages one after the other:
  no brace is open at such a pipe, and trimming a stage takes
  away runs of blanks as a whole and nothing else.

  Key definitions include:
    * `Lexeme.IsSolid`
    * `Token.isTopPipe`
    * `contentTokens`

  Main results:
    * `Lexeme.Fitting.isSolid`
    * `Lexeme.Fitting.tokenize_trim`
    * `exists_cutTokens`
    * `contentTokens_eq_flatMap_cutTokens`
    * `contentTokens_tokenize`
-/

namespace JqLens

open Quote (Cursor)

------------------------------------------------------------
-- Blanks at the ends of lexemes
------------------------------------------------------------

namespace Lexeme

theorem isStrange_of_isBlank
    {c : Char}
    (hBlank : Text.isBlank c = true) :
    isStrange c = true := by
  have hCodes : ∀ code ∈ Text.blankCodes, isStrange (Char.ofNat code) = true := by
    decide
  have hStrange := hCodes c.toNat (Text.mem_blankCodes hBlank)
  rwa [Char.ofNat_toNat] at hStrange

/- No lexeme but a run of blanks starts with a blank. -/
theorem Fits.isBlank_head
    {lexeme : Lexeme}
    {rest : List Char}
    (hFits : lexeme.Fits rest)
    (hSpace : lexeme.isSpace = false) :
    ∀ c ∈ lexeme.text.head?, Text.isBlank c = false := by
  intro c hHead
  rcases List.head?_eq_some_iff.mp hHead with ⟨cs, hText⟩
  have hFront : lexeme.text ++ rest = c :: (cs ++ rest) := by
    rw [hText, List.cons_append]
  have hNext := next_of_fits hFits hFront
  rw [← Bool.not_eq_true]
  intro hBlank
  rw [next, if_pos hBlank, Prod.mk.injEq] at hNext
  rw [← hNext.1] at hSpace
  exact Bool.noConfusion hSpace

/- A lexeme does not end with a blank, unless it is a run of blanks. -/
def IsSolid (lexeme : Lexeme) : Prop :=
  lexeme.isSpace = false → ∀ c ∈ lexeme.text.getLast?, Text.isBlank c = false

/-
  In a properly nested text lexemes are solid: a literal ends
  with its quote and an access with its bracket.
-/
theorem Fits.isSolid
    {lexeme : Lexeme}
    {rest : List Char}
    {opened : List Bracket}
    (hFits : lexeme.Fits rest)
    (hCloses : Closes opened (lexeme.text ++ rest)) :
    lexeme.IsSolid := by
  intro hSpace c hLast
  rw [Option.mem_def] at hLast
  cases hPlain : lexeme.isPlain with
  | true =>
      rw [← Bool.not_eq_true]
      intro hBlank
      apply not_mem_text_of_strange hFits hPlain (isStrange_of_isBlank hBlank)
      · rintro text rfl
        exact Bool.noConfusion hSpace
      · exact List.mem_of_getLast? hLast
  | false =>
      match lexeme, hPlain with
      | literal text, _ =>
          rcases hFits.nest hCloses with ⟨-, -, hRun, -⟩
          rw [Lexeme.text, hFits.getLast?_literal hRun] at hLast
          rw [← Option.some.inj hLast]
          decide
      | operator text, _ =>
          rcases hFits with hLong | ⟨-, d, hShort, rfl⟩
          · have hAll : (longOperators.all fun long =>
                long.getLast?.all fun c => !Text.isBlank c) = true := by
              decide
            have hEnd := List.all_eq_true.mp hAll text (mem_of_longOperator? hLong).1
            rw [Lexeme.text] at hLast
            simpa [hLast] using hEnd
          · have hAll : (shortOperators.all fun c => !Text.isBlank c) = true := by
              decide
            have hEnd := List.all_eq_true.mp hAll d hShort
            obtain rfl : d = c := Option.some.inj hLast
            simpa using hEnd
      | access (.bracket body slice suppressed), _ =>
          have hBody := (Access.nestAll_bracket hFits hCloses.2).2
          cases suppressed with
          | false =>
              rw [Lexeme.text, Access.text, Access.mark, if_neg Bool.false_ne_true,
                List.append_nil, List.getLast?_cons, hBody] at hLast
              rw [← Option.some.inj hLast]
              decide
          | true =>
              rw [Lexeme.text, Access.text, Access.mark, if_pos rfl, ← List.cons_append,
                List.getLast?_concat] at hLast
              rw [← Option.some.inj hLast]
              decide
      | stray d, _ =>
          obtain rfl : d = c := Option.some.inj hLast
          exact hFits.1

theorem Fitting.isSolid
    {lexemes : List Lexeme}
    {opened : List Bracket}
    (hFitting : Fitting lexemes)
    (hCloses : Closes opened (lexemes.flatMap text)) :
    ∀ lexeme ∈ lexemes, lexeme.IsSolid := by
  induction lexemes generalizing opened with
  | nil => exact fun _ hMember => absurd hMember List.not_mem_nil
  | cons lexeme lexemes ih =>
      rcases hFitting with ⟨hFits, hOthers⟩
      rw [List.flatMap_cons] at hCloses
      rcases hFits.nest hCloses with ⟨inner, -, -, hInner, -⟩
      exact List.forall_mem_cons.mpr ⟨hFits.isSolid hCloses, ih hOthers hInner⟩

------------------------------------------------------------
-- Trimming
------------------------------------------------------------

/- Lexemes are what is left of them without blanks at the ends, and these blanks. -/
theorem exists_core
    (lexemes : List Lexeme) :
    ∃ lead core trail,
      lexemes = lead ++ (core ++ trail) ∧
        (∀ lexeme ∈ lead, lexeme.isSpace = true) ∧
        (∀ lexeme ∈ trail, lexeme.isSpace = true) ∧
        (∀ lexeme ∈ core.head?, lexeme.isSpace = false) ∧
        (∀ lexeme ∈ core.getLast?, lexeme.isSpace = false) := by
  let others := lexemes.dropWhile isSpace
  refine ⟨lexemes.takeWhile isSpace, others.rdropWhile isSpace, others.rtakeWhile isSpace,
    ?_, ?_, ?_, ?_, ?_⟩
  · rw [List.rdropWhile_append_rtakeWhile, List.takeWhile_append_dropWhile]
  · exact fun _ hMember => List.mem_takeWhile_imp hMember
  · exact fun _ hMember => List.mem_rtakeWhile_imp hMember
  · intro lexeme hHead
    have hFirst := List.head?_dropWhile_not isSpace lexemes
    rw [head?_of_shorter (List.rdropWhile_prefix isSpace others) lexeme hHead] at hFirst
    exact hFirst
  · intro lexeme hLast
    have hFirst := List.head?_dropWhile_not isSpace others.reverse
    rw [List.rdropWhile, List.getLast?_reverse] at hLast
    rw [hLast] at hFirst
    exact hFirst

/- Runs of blanks hold blanks only. -/
theorem Fitting.isBlank_flatMap_text
    {lexemes : List Lexeme}
    (hFitting : Fitting lexemes)
    (hSpaces : ∀ lexeme ∈ lexemes, lexeme.isSpace = true) :
    ∀ c ∈ lexemes.flatMap text, Text.isBlank c = true := by
  intro c hMember
  rcases List.mem_flatMap.mp hMember with ⟨lexeme, hLexeme, hText⟩
  rcases hFitting.exists_fits hLexeme with ⟨rest, hFits⟩
  match lexeme, hSpaces lexeme hLexeme with
  | space text, _ => exact hFits.2.1 c hText

theorem Fitting.isBlank_head
    {lexemes : List Lexeme}
    (hFitting : Fitting lexemes)
    (hHead : ∀ lexeme ∈ lexemes.head?, lexeme.isSpace = false) :
    ∀ c ∈ (lexemes.flatMap text).head?, Text.isBlank c = false := by
  cases lexemes with
  | nil => exact fun _ hNone => absurd hNone (by simp)
  | cons lexeme lexemes =>
      have hText := hFitting.1.text_ne_nil
      rw [List.flatMap_cons, List.head?_append_of_ne_nil _ hText]
      exact hFitting.1.isBlank_head (hHead lexeme rfl)

theorem isBlank_getLast
    {lexemes : List Lexeme}
    (hFitting : Fitting lexemes)
    (hSolid : ∀ lexeme ∈ lexemes, lexeme.IsSolid)
    (hLast : ∀ lexeme ∈ lexemes.getLast?, lexeme.isSpace = false) :
    ∀ c ∈ (lexemes.flatMap text).getLast?, Text.isBlank c = false := by
  rcases List.eq_nil_or_concat lexemes with rfl | ⟨others, lexeme, rfl⟩
  · exact fun _ hNone => absurd hNone (by simp)
  · rw [List.concat_eq_append] at *
    have hMember : lexeme ∈ others ++ [lexeme] := List.mem_append_right _ List.mem_cons_self
    have hText := (fitting_append hFitting).2.1.text_ne_nil
    rw [List.flatMap_append, List.flatMap_singleton, List.getLast?_append_of_ne_nil _ hText]
    exact hSolid lexeme hMember (hLast lexeme (by simp))

/-
  Trimming the text of solid lexemes takes away the runs of
  blanks at their ends, and a run of blanks makes no difference
  to the other tokens.
-/
theorem Fitting.tokenize_trim
    {lexemes : List Lexeme}
    (hFitting : Fitting lexemes)
    (hSolid : ∀ lexeme ∈ lexemes, lexeme.IsSolid) :
    (tokenize (String.ofList (Text.trim (lexemes.flatMap text)))).filter
        (fun token => !token.isSpace) =
      (explainAll 0 lexemes).filter fun token => !token.isSpace := by
  rcases exists_core lexemes with ⟨lead, core, trail, rfl, hLead, hTrail, hHead, hLast⟩
  rcases fitting_append hFitting with ⟨hLeads, hOthers⟩
  rcases fitting_append hOthers with ⟨hCore, hTrails⟩
  have hSolids : ∀ lexeme ∈ core, lexeme.IsSolid := by
    intro lexeme hMember
    apply hSolid
    simp [hMember]
  have hTrim : Text.trim ((lead ++ (core ++ trail)).flatMap text) = core.flatMap text := by
    rw [List.flatMap_append, List.flatMap_append,
      Text.trim_append_blanks (hLeads.isBlank_flatMap_text hLead)
        (hTrails.isBlank_flatMap_text hTrail)]
    exact Text.trim_eq_self (hCore.isBlank_head hHead) (isBlank_getLast hCore hSolids hLast)
  have hNone : ∀ spaces : List Lexeme, (∀ lexeme ∈ spaces, lexeme.isSpace = true) →
      spaces.filter (fun lexeme => !lexeme.isSpace) = [] := by
    intro spaces hSpaces
    rw [List.filter_eq_nil_iff]
    intro lexeme hMember
    simp [hSpaces lexeme hMember]
  rw [hTrim, tokenize, String.toList_ofList, scan_flatMap_text hCore, filter_explainAll,
    filter_explainAll, List.filter_append, List.filter_append, hNone lead hLead,
    hNone trail hTrail, List.nil_append, List.append_nil]

end Lexeme

------------------------------------------------------------
-- Tokens of the stages
------------------------------------------------------------

/- A token behind the given text is a pipe outside all brackets. -/
def Token.isTopPipe
    (before : List Char)
    (token : Token) : Bool :=
  token.category == .operator && token.text == "|" && openBrackets before == some []

/-
  The tokens behind the given text without runs of blanks and
  without the pipes outside all brackets.
-/
def contentTokens
    (before : List Char) : List Token → List Token
  | [] => []
  | token :: tokens =>
      let others := contentTokens (before ++ token.text.toList) tokens
      if token.isSpace || token.isTopPipe before then others else token :: others

/- In properly nested text brackets are matched in number where none is open. -/
theorem isTopPipe_eq_isBoundary
    {before : List Char}
    {opened : List Bracket}
    (hOpen : openBrackets before = some opened)
    (token : Token) :
    token.isTopPipe before = token.isBoundary before := by
  have hMatched : (openBrackets before == some []) = matched before := by
    rw [Bool.eq_iff_iff, hOpen, beq_iff_eq, Option.some.injEq]
    exact openBrackets_eq_nil_iff hOpen
  rw [Token.isTopPipe, Token.isBoundary, hMatched]

/- There is always a piece, though it may have no tokens. -/
theorem cutTokens_ne_nil
    (before : List Char)
    (tokens : List Token) :
    cutTokens before tokens ≠ [] := by
  induction tokens generalizing before with
  | nil => exact List.cons_ne_nil _ _
  | cons token tokens ih =>
      unfold cutTokens
      split
      · exact List.cons_ne_nil _ _
      · simpa using ih _

/-
  In a properly nested text, what is left of the tokens is what
  is left of the pieces between the pipes outside all brackets.
-/
theorem contentTokens_eq_flatMap_cutTokens
    {before : List Char}
    {tokens : List Token}
    (hNested : WellNested (before ++ (reconstruct tokens).toList)) :
    contentTokens before tokens =
      (cutTokens before tokens).flatMap fun piece => piece.filter fun token => !token.isSpace := by
  induction tokens generalizing before with
  | nil => rfl
  | cons token tokens ih =>
      rcases hNested.exists_openBrackets with ⟨opened, hOpen⟩
      have hText : (reconstruct (token :: tokens)).toList =
          token.text.toList ++ (reconstruct tokens).toList := by
        simp [reconstruct]
      rw [hText, ← List.append_assoc] at hNested
      rw [contentTokens, cutTokens, isTopPipe_eq_isBoundary hOpen, ih hNested]
      cases hBoundary : token.isBoundary before with
      | true => rw [Bool.or_true, if_pos rfl, if_pos rfl, List.flatMap_cons, List.filter_nil,
          List.nil_append]
      | false =>
          rcases List.exists_cons_of_ne_nil (cutTokens_ne_nil (before ++ token.text.toList) tokens)
            with ⟨piece, pieces, hPieces⟩
          rw [hPieces, Bool.or_false, if_neg Bool.false_ne_true, List.modifyHead_cons,
            List.flatMap_cons, List.flatMap_cons, List.filter_cons]
          cases token.isSpace with
          | true => rfl
          | false => rfl

/-
  The pieces between the pipes outside all brackets explain
  lexemes in a row, each but the first from no open brace.
-/
theorem exists_cutTokens
    {before : List Char}
    {lexemes : List Lexeme}
    {opened : List Bracket}
    (hOpen : openBrackets before = some opened)
    (hRun : Cursor.outside.run before = .outside)
    (hFitting : Lexeme.Fitting lexemes)
    (hCloses : Closes opened (lexemes.flatMap Lexeme.text)) :
    ∃ (first : List Lexeme) (others : List (List Lexeme)),
      cutTokens before (explainAll (opened.count .curly) lexemes) =
          explainAll (opened.count .curly) first :: others.map (explainAll 0) ∧
        first <+: lexemes ∧
        ∀ part ∈ others, part <:+: lexemes := by
  induction lexemes generalizing before opened with
  | nil => exact ⟨[], [], rfl, List.nil_prefix, fun _ hMember => absurd hMember List.not_mem_nil⟩
  | cons lexeme lexemes ih =>
      rcases hFitting with ⟨hFits, hOthers⟩
      rw [List.flatMap_cons] at hCloses
      rcases hFits.nest hCloses with ⟨inner, hText, hOutside, hInner, hCurly⟩
      have hBehind : openBrackets (before ++ lexeme.text) = some inner := by
        rw [openBrackets, Cursor.code_append, hRun, nestAll_append_eq_some_iff]
        exact ⟨opened, hOpen, hText⟩
      have hRunBehind : Cursor.outside.run (before ++ lexeme.text) = .outside := by
        rw [Cursor.run_append, hRun, hOutside]
      rcases ih hBehind hRunBehind hOthers hInner with ⟨first, others, hCut, hFirst, hParts⟩
      have hInfix : ∀ part ∈ others, part <:+: lexeme :: lexemes :=
        fun part hMember => (hParts part hMember).trans (List.suffix_cons _ _).isInfix
      rw [explainAll, cutTokens, Lexeme.text_explain, String.toList_ofList, ← hCurly, hCut]
      cases hBoundary : (lexeme.explain (opened.count .curly)).isBoundary before with
      | true =>
          -- No brace is open at the pipe, neither in the text nor by the count of the lexemes.
          have hPipe : lexeme.text = ['|'] := by
            by_contra hOther
            rw [isBoundary_explain_eq_false hOther] at hBoundary
            exact Bool.noConfusion hBoundary
          obtain ⟨rfl, -⟩ := Lexeme.eq_pipe_of_text hFits hPipe
          rw [isBoundary_explain_pipe] at hBoundary
          obtain rfl := (openBrackets_eq_nil_iff hOpen).mpr hBoundary
          have hNone : (inner.count .curly : Int) = 0 := hCurly
          refine ⟨[], first :: others, ?_, List.nil_prefix, ?_⟩
          · rw [if_pos rfl, hNone]
            rfl
          · exact List.forall_mem_cons.mpr
              ⟨hFirst.isInfix.trans (List.suffix_cons _ _).isInfix, hInfix⟩
      | false =>
          refine ⟨lexeme :: first, others, ?_, List.cons_prefix_cons.mpr ⟨rfl, hFirst⟩, hInfix⟩
          rw [if_neg Bool.false_ne_true, List.modifyHead_cons, hCurly, explainAll]

/- Stages without text have no tokens. -/
theorem flatMap_stages
    (pieces : List (List Char)) :
    ((pieces.filter fun stage => !stage.isEmpty).map String.ofList).flatMap
        (fun stage => (tokenize stage).filter fun token => !token.isSpace) =
      pieces.flatMap fun piece =>
        (tokenize (String.ofList piece)).filter fun token => !token.isSpace := by
  induction pieces with
  | nil => rfl
  | cons piece pieces ih =>
      rw [List.flatMap_cons, ← ih]
      cases piece with
      | nil =>
          have hNone : tokenize (String.ofList []) = [] := by
            rw [tokenize, String.toList_ofList, Lexeme.scan_nil, explainAll]
          rw [hNone]
          rfl
      | cons c piece => rfl

/-
  The tokens of a properly nested filter, runs of blanks and the
  pipes outside all brackets left out, are those of its stages,
  one stage after the other, runs of blanks left out.
-/
theorem contentTokens_tokenize
    (filter : String)
    (hNested : WellNested filter.toList) :
    contentTokens [] (tokenize filter) =
      (splitStages filter).flatMap fun stage =>
        (tokenize stage).filter fun token => !token.isSpace := by
  have hFitting := Lexeme.fitting_scan filter.toList
  have hText := Lexeme.flatMap_text_scan filter.toList
  have hCloses : Closes [] ((Lexeme.scan filter.toList).flatMap Lexeme.text) := by
    rw [hText]
    exact hNested
  have hSolid := hFitting.isSolid hCloses
  have hOpen : openBrackets [] = some [] := rfl
  rcases exists_cutTokens hOpen rfl hFitting hCloses with
    ⟨first, others, hCut, hFirst, hOthers⟩
  have hParts : ∀ part ∈ first :: others, part <:+: Lexeme.scan filter.toList :=
    List.forall_mem_cons.mpr ⟨hFirst.isInfix, hOthers⟩
  have hTokens : cutTokens [] (tokenize filter) = (first :: others).map (explainAll 0) := hCut
  -- The texts of the pieces are what the search for stages finds.
  have hPieces : (first :: others).map (fun part => part.flatMap Lexeme.text) =
      Place.cut {} filter.toList := by
    have hSearch := cutTokens_explainAll [] filter.toList (Or.inr rfl) hNested.opensFirst 0
    rw [← tokenize, hTokens, List.map_map, Place.run_nil] at hSearch
    simpa only [Function.comp_def, toList_reconstruct_explainAll] using hSearch
  have hSpelled : WellNested ([] ++ (reconstruct (tokenize filter)).toList) := by
    rw [List.nil_append, tokenize, toList_reconstruct_explainAll, hText]
    exact hNested
  rw [contentTokens_eq_flatMap_cutTokens hSpelled, hTokens, splitStages, stages_eq,
    flatMap_stages, ← hPieces, List.map_map, List.flatMap_map, List.flatMap_map]
  apply List.flatMap_congr
  intro part hMember
  rcases hParts part hMember with ⟨front, back, hScan⟩
  rw [← hScan, List.append_assoc] at hFitting
  have hPart := (Lexeme.fitting_append (Lexeme.fitting_append hFitting).2).1
  have hPartSolid : ∀ lexeme ∈ part, lexeme.IsSolid :=
    fun lexeme hLexeme => hSolid lexeme ((hParts part hMember).mem hLexeme)
  exact (hPart.tokenize_trim hPartSolid).symm

/-
  A key in its short form, pipes in parentheses, in braces and in
  a literal, and the same name behind them where it is no key.
-/
def keyedPipes : String :=
  " \x7ba, b: (.c | .d)\x7d | .e[\"|\"]| a "

theorem contentTokens_tokenize_keyedPipes :
    WellNested keyedPipes.toList ∧
      splitStages keyedPipes = ["\x7ba, b: (.c | .d)\x7d", ".e[\"|\"]", "a"] ∧
      contentTokens [] (tokenize keyedPipes) =
        (splitStages keyedPipes).flatMap fun stage =>
          (tokenize stage).filter fun token => !token.isSpace :=
  ⟨by decide, by decide +kernel, contentTokens_tokenize _ (by decide)⟩

end JqLens

import JqLens.Proofs.Lossless
import JqLens.Proofs.Stage
import Mathlib.Data.List.Infix

/-
  This file relates the tokens of a filter to its stages. The
  scan takes a bracketed access for one token and the update
  operator for another, while the search for stage boundaries
  counts brackets; still the pipes between stages are the pipe
  tokens that stand where all brackets are matched in number,
  unless some bracket is closed that was never opened.

  Key definitions include:
    * `matched`
    * `Token.isBoundary`
    * `cutTokens`
    * `tokenStages`
    * `OpensFirst`

  Main results:
    * `Lexeme.uncut_text`
    * `cutTokens_explainAll`
    * `tokenStages_eq_splitStages`
-/

namespace JqLens

open Quote (Cursor)

------------------------------------------------------------
-- Stages by tokens
------------------------------------------------------------

/-
  Outside string literals a text holds as many opening as
  closing brackets, of each kind.
-/
def matched (cs : List Char) : Bool :=
  let code := Cursor.outside.code cs
  code.count '(' == code.count ')' &&
    code.count '[' == code.count ']' &&
    code.count '\x7b' == code.count '\x7d'

/- A token behind the given text is a pipe where all brackets are matched. -/
def Token.isBoundary
    (before : List Char)
    (token : Token) : Bool :=
  token.category == .operator && token.text == "|" && matched before

/- Cut tokens behind the given text at the pipes where all brackets are matched. -/
def cutTokens
    (before : List Char) : List Token → List (List Token)
  | [] => [[]]
  | token :: tokens =>
      let pieces := cutTokens (before ++ token.text.toList) tokens
      if token.isBoundary before then [] :: pieces
      else pieces.modifyHead (token :: ·)

/-
  The stages of a filter after its tokens: the texts of the
  pieces between boundaries, trimmed; those without text are
  dropped.
-/
def tokenStages (filter : String) : List String :=
  let pieces := (cutTokens [] (tokenize filter)).map reconstruct
  let stages := pieces.map fun piece => Text.trim piece.toList
  (stages.filter fun stage => !stage.isEmpty).map String.ofList

/-
  No part of a text, taken from its front, closes more square
  brackets outside string literals than it opens.
-/
def OpensFirst (cs : List Char) : Prop :=
  ∀ front, front <+: cs →
    (Cursor.outside.code front).count ']' ≤ (Cursor.outside.code front).count '['

instance (cs : List Char) : Decidable (OpensFirst cs) :=
  decidable_of_iff
    (∀ front ∈ cs.inits,
      (Cursor.outside.code front).count ']' ≤ (Cursor.outside.code front).count '[')
    (by simp only [OpensFirst, List.mem_inits])

------------------------------------------------------------
-- Places behind a text
------------------------------------------------------------

namespace Place

/- Brackets are matched behind a text when the search finds them balanced. -/
theorem matched_eq
    (before : List Char) :
    matched before = (Place.run {} before).depths.balanced := by
  rw [run_eq, Bool.eq_iff_iff, Depths.balanced_afterAll]
  simp only [matched, Bool.and_eq_true, beq_iff_eq, and_assoc]

/- Where no bracket is closed before it is opened, the number of open ones is no debt. -/
theorem square_nonneg
    {before cs : List Char}
    (hOpens : OpensFirst (before ++ cs)) :
    0 ≤ (Place.run {} before).depths.square := by
  have hCount := hOpens before (List.prefix_append before cs)
  rw [run_eq, Depths.square_afterAll]
  simp only
  omega

/- Inside a square bracket no pipe is a boundary. -/
theorem isBoundary_of_square
    {p : Place}
    (hSquare : 0 < p.depths.square)
    (behind : List Char) :
    p.isBoundary behind = false := by
  have hOpen : p.depths.square ≠ 0 := by omega
  simp [isBoundary, Depths.balanced, hOpen]

end Place

------------------------------------------------------------
-- Boundaries and lexemes
------------------------------------------------------------

/- A character that is not in `back` stands in front of it. -/
theorem exists_tail_of_not_mem
    {front back before behind : List Char}
    {c : Char}
    (hNot : c ∉ back)
    (hEqual : front ++ back = before ++ c :: behind) :
    ∃ tail, front = before ++ c :: tail := by
  rcases List.append_eq_append_iff.mp hEqual with
    ⟨middle, hBefore, hBack⟩ | ⟨middle, hFront, hBehind⟩
  · exact absurd (by rw [hBack]; simp) hNot
  · rcases middle with _ | ⟨d, middle⟩
    · rw [List.nil_append] at hBehind
      exact absurd (by rw [← hBehind]; simp) hNot
    · rw [List.cons_append, List.cons.injEq] at hBehind
      exact ⟨middle, by rw [hFront, hBehind.1]⟩

/-
  A bracketed access has no boundaries: in front of each of its
  pipes a square bracket is open.
-/
theorem Access.uncut_bracket
    {p : Place}
    {body rest : List Char}
    {slice suppressed : Bool}
    (hOutside : p.cursor = .outside)
    (hSquare : 0 ≤ p.depths.square)
    (hFits : (bracket body slice suppressed).Fits rest) :
    p.Uncut rest (bracket body slice suppressed).text := by
  rcases hFits with ⟨inner, -, hSpan, -⟩
  have hPush : bracketSpan .outside 0 ('[' :: inner) =
      (bracketSpan .outside 1 inner).push '[' false := by
    simp [bracketSpan, Cursor.step, Quote.Step.isLiteral, Cursor.next]
  rw [hPush] at hSpan
  have hBody : '[' :: (bracketSpan .outside 1 inner).body = body :=
    congrArg BracketSpan.body hSpan
  intro before behind hEqual
  apply Place.isBoundary_of_square
  have hPipe : '|' ∉ mark suppressed := by
    cases suppressed <;> decide
  rw [text, ← hBody] at hEqual
  -- The pipe stands in the body, behind the dot and the opening bracket.
  rcases before with _ | ⟨dot, _ | ⟨opening, before⟩⟩
  · simp at hEqual
  · simp at hEqual
  simp only [List.cons_append, List.cons.injEq] at hEqual
  rcases hEqual with ⟨rfl, rfl, hEqual⟩
  rcases exists_tail_of_not_mem hPipe hEqual with ⟨tail, hTail⟩
  have hCount := count_lt_of_body (Nat.le_refl 1) hTail
  have hCode : Cursor.outside.code ('.' :: '[' :: before) =
      '.' :: '[' :: Cursor.outside.code before := by
    rfl
  rw [Place.run_eq, Depths.square_afterAll, hOutside, hCode,
    List.count_cons_of_ne (by decide), List.count_cons_self,
    List.count_cons_of_ne (by decide), List.count_cons_of_ne (by decide)]
  omega

/-
  No lexeme but the pipe on its own holds a boundary.
-/
theorem Lexeme.uncut_text
    {p : Place}
    {lexeme : Lexeme}
    {rest : List Char}
    (hOutside : p.cursor = .outside)
    (hSquare : 0 ≤ p.depths.square)
    (hFits : lexeme.Fits rest)
    (hPipe : lexeme.text ≠ ['|']) :
    p.Uncut rest lexeme.text := by
  cases hPlain : lexeme.isPlain with
  | true => exact Place.uncut_of_not_mem (not_mem_text hFits hPlain (by decide)) rest
  | false =>
      match lexeme, hPlain with
      | literal text, _ =>
          rcases hFits with ⟨body, rfl, hSpan⟩
          have hBody : Cursor.inside.code body = [] := by
            have hCode := Quote.code_span (k := .inside) rfl (body ++ rest)
            rwa [hSpan] at hCode
          have hCode : Cursor.outside.code ('"' :: body) = [] := hBody
          apply Place.uncut_of_not_mem_code
          rw [hOutside, Lexeme.text, hCode]
          exact List.not_mem_nil
      | operator text, _ =>
          rcases hFits with hLong | ⟨-, c, -, rfl⟩
          · have hUpdate : ∀ long ∈ longOperators, long = ['|', '='] ∨ '|' ∉ long := by
              decide
            rcases hUpdate text (mem_of_longOperator? hLong).1 with rfl | hNone
            · rw [Lexeme.text, Place.uncut_cons_iff, Place.uncut_cons_iff]
              refine ⟨?_, ?_, Place.uncut_of_not_mem List.not_mem_nil rest⟩
              · intro _
                simp [Place.isBoundary]
              · intro hEqual
                exact absurd hEqual (by decide)
            · exact Place.uncut_of_not_mem hNone rest
          · apply Place.uncut_of_not_mem
            simpa [Lexeme.text, eq_comm] using hPipe
      | access (.bracket body slice suppressed), _ =>
          exact Access.uncut_bracket hOutside hSquare hFits
      | stray c, _ =>
          apply Place.uncut_of_not_mem
          simpa [Lexeme.text, eq_comm] using hPipe

/- A lexeme that spells a pipe is the pipe operator, and no update operator. -/
theorem Lexeme.eq_pipe_of_text
    {lexeme : Lexeme}
    {rest : List Char}
    (hFits : lexeme.Fits rest)
    (hPipe : lexeme.text = ['|']) :
    lexeme = .operator ['|'] ∧ rest.head? ≠ some '=' := by
  cases hPlain : lexeme.isPlain with
  | true =>
      have hNone : '|' ∉ lexeme.text := not_mem_text hFits hPlain (by decide)
      rw [hPipe] at hNone
      exact absurd List.mem_cons_self hNone
  | false =>
      match lexeme, hPlain with
      | literal text, _ =>
          rcases hFits with ⟨body, hText, -⟩
          rw [Lexeme.text, hText] at hPipe
          simp at hPipe
      | operator text, _ =>
          rw [Lexeme.text] at hPipe
          rw [hPipe] at hFits
          refine ⟨by rw [hPipe], ?_⟩
          rcases hFits with hLong | ⟨hShort, -⟩
          · have hNone : ['|'] ∉ longOperators := by decide
            exact absurd (mem_of_longOperator? hLong).1 hNone
          · intro hHead
            rcases rest with _ | ⟨c, rest⟩
            · simp at hHead
            · simp only [List.head?_cons, Option.some.injEq] at hHead
              rw [hHead, longOperator?, List.find?_eq_none] at hShort
              have hMember : ['|', '='] ∈ longOperators := by decide
              exact absurd rfl (hShort _ hMember)
      | access (.bracket body slice suppressed), _ =>
          simp [Lexeme.text, Access.text] at hPipe
      | stray c, _ =>
          rw [Lexeme.text, List.cons.injEq] at hPipe
          rw [hPipe.1] at hFits
          exact absurd hFits.2.2.2.2 (by decide)

------------------------------------------------------------
-- Boundaries and tokens
------------------------------------------------------------

/- The token of the pipe operator is a pipe. -/
theorem isBoundary_explain_pipe
    (before : List Char)
    (depth : Int) :
    ((Lexeme.operator ['|']).explain depth).isBoundary before = matched before := by
  have hToken : (Lexeme.operator ['|']).explain depth =
      Token.ofGlossary "|" .operator := rfl
  have hCategory : (Token.ofGlossary "|" .operator).category = .operator := by
    decide
  rw [Token.isBoundary, hToken, hCategory, Token.text_ofGlossary]
  simp

/- No other token is a boundary. -/
theorem isBoundary_explain_eq_false
    {lexeme : Lexeme}
    (hPipe : lexeme.text ≠ ['|'])
    (before : List Char)
    (depth : Int) :
    (lexeme.explain depth).isBoundary before = false := by
  have hText : (lexeme.explain depth).text ≠ "|" := by
    intro hEqual
    rw [Lexeme.text_explain] at hEqual
    have hList := congrArg String.toList hEqual
    rw [String.toList_ofList] at hList
    exact hPipe hList
  simp [Token.isBoundary, hText]

/- A token in front of the first piece is spelled in front of it. -/
theorem map_modifyHead_cons
    (token : Token)
    (pieces : List (List Token)) :
    (pieces.modifyHead (token :: ·)).map (fun piece => (reconstruct piece).toList) =
      (pieces.map fun piece => (reconstruct piece).toList).modifyHead
        (token.text.toList ++ ·) := by
  cases pieces <;> simp [reconstruct]

/-
  Behind any text that the scan has read, cutting the tokens of
  what follows spells the pieces that the search finds in it.
-/
theorem cutTokens_explainAll
    (before cs : List Char)
    (hOutside : cs = [] ∨ (Place.run {} before).cursor = .outside)
    (hOpens : OpensFirst (before ++ cs))
    (depth : Int) :
    (cutTokens before (explainAll depth (Lexeme.scan cs))).map
        (fun piece => (reconstruct piece).toList) =
      (Place.run {} before).cut cs := by
  induction cs using Lexeme.scan.induct generalizing before depth with
  | case1 =>
      rw [Lexeme.scan_nil]
      rfl
  | case2 c cs ih =>
      have hAppend := Lexeme.next_append c cs
      have hFits := Lexeme.next_fits c cs
      rw [Lexeme.scan_cons, ← hAppend]
      generalize (Lexeme.next c cs).1 = lexeme at *
      generalize (Lexeme.next c cs).2 = rest at *
      have hCursor : (Place.run {} before).cursor = .outside :=
        hOutside.resolve_left (by simp)
      have hBehind : rest = [] ∨
          (Place.run {} (before ++ lexeme.text)).cursor = .outside := by
        rcases Lexeme.run_text hFits with hRun | hRest
        · right
          rw [Place.run_append, Place.run_eq, hCursor]
          exact hRun
        · exact Or.inl hRest
      rw [← hAppend, ← List.append_assoc] at hOpens
      have hSquare := Place.square_nonneg (List.append_assoc before _ _ ▸ hOpens)
      have hTail := ih _ hBehind hOpens (lexeme.depthAfter depth)
      rw [Place.run_append] at hTail
      rw [explainAll, cutTokens, Lexeme.text_explain, String.toList_ofList]
      by_cases hPipe : lexeme.text = ['|']
      · rcases Lexeme.eq_pipe_of_text hFits hPipe with ⟨rfl, hHead⟩
        rw [isBoundary_explain_pipe, Place.matched_eq]
        cases hBalanced : (Place.run {} before).depths.balanced with
        | true =>
            have hBoundary : (Place.run {} before).isBoundary rest = true := by
              simp [Place.isBoundary, hCursor, hHead, hBalanced]
            rw [if_pos rfl, List.map_cons, hTail]
            exact (Place.cut_boundary hBoundary).symm
        | false =>
            have hUncut : '|' = '|' → (Place.run {} before).isBoundary rest = false := by
              intro _
              simp [Place.isBoundary, hBalanced]
            rw [if_neg Bool.false_ne_true, map_modifyHead_cons, hTail,
              Lexeme.text_explain, String.toList_ofList]
            exact (Place.cut_cons_of_uncut hUncut).symm
      · have hUncut := Lexeme.uncut_text hCursor hSquare hFits hPipe
        rw [isBoundary_explain_eq_false hPipe, if_neg Bool.false_ne_true,
          map_modifyHead_cons, hTail, Lexeme.text_explain, String.toList_ofList]
        exact (Place.cut_append hUncut).symm

------------------------------------------------------------
-- Tokens and stages of a filter
------------------------------------------------------------

/-
  The tokens and the stages of a filter agree: cutting the
  tokens at the pipes where all brackets are matched in number
  gives the stages. Only a bracket that is closed before it is
  opened could tell the two apart.
-/
theorem tokenStages_eq_splitStages
    (filter : String)
    (hOpens : OpensFirst filter.toList) :
    tokenStages filter = splitStages filter := by
  have hPieces := cutTokens_explainAll [] filter.toList (Or.inr rfl) hOpens 0
  rw [Place.run_nil] at hPieces
  rw [splitStages, stages_eq, ← hPieces, tokenStages, tokenize]
  simp only [List.map_map]
  rfl

/-
  Pipes in an access, in a string literal, in parentheses that
  stay open and in an update operator.
-/
theorem tokenStages_eq_splitStages_of_pipes :
    OpensFirst ".a[.b|=1] | .[\"]|\"|.c] || \x7d(.d|.e".toList ∧
      tokenStages ".a[.b|=1] | .[\"]|\"|.c] || \x7d(.d|.e" =
        splitStages ".a[.b|=1] | .[\"]|\"|.c] || \x7d(.d|.e" :=
  ⟨by decide, tokenStages_eq_splitStages _ (by decide)⟩

end JqLens

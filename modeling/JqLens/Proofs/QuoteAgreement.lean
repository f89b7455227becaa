import JqLens.Proofs.Reread
import JqLens.Proofs.Stage

/-
  This file proves that all scans of a filter agree on what lies
  inside a string literal. The scan for lexemes starts a cursor
  of its own at each literal and at each bracketed access, and
  the search for stages feeds its cursor all characters but the
  second halves of update operators; both find what one cursor
  finds that reads the whole filter.

  Key definitions include:
    * `cursorAt`
    * `literalAt`
    * `Token.Covers`
    * `Token.AgreesWithCursor`
    * `watchedPieces`
    * `cursors`

  Main results:
    * `Lexeme.Fitting.run_front`
    * `watchedPieces_eq`
    * `quotes_agree`
-/

namespace JqLens

open Quote (Cursor)

------------------------------------------------------------
-- One cursor for the whole filter
------------------------------------------------------------

/- The cursor that has read all of a filter in front of a position. -/
def cursorAt
    (filter : String)
    (n : Nat) : Cursor :=
  Cursor.outside.run (filter.toList.take n)

/- The character at a position belongs to a string literal. -/
def literalAt
    (filter : String)
    (n : Nat) : Bool :=
  (Cursor.outside.trace filter.toList)[n]?.any fun entry => entry.1.isLiteral

namespace Token

/- Where a token starts that stands behind others. -/
def start (before : List Token) : Nat :=
  (reconstruct before).length

/- Where a token ends that stands behind others. -/
def stop
    (before : List Token)
    (token : Token) : Nat :=
  start before + token.text.length

/- A position lies in a token that stands behind others. -/
def Covers
    (before : List Token)
    (token : Token)
    (n : Nat) : Prop :=
  start before ≤ n ∧ n < token.stop before

/-
  What the cursor of the whole filter finds at a token that
  stands between others.
-/
structure AgreesWithCursor
    (filter : String)
    (before : List Token)
    (token : Token)
    (behind : List Token) : Prop where
  /- The token starts outside every literal. -/
  outside : cursorAt filter (start before) = .outside
  /- A string token is a literal throughout. -/
  literal : token.category = .string → ∀ n, token.Covers before n → literalAt filter n = true
  /- A string token is unterminated exactly if its literal is still open behind it. -/
  unterminated : token.category = .string →
    (token.description = "Unterminated string literal" ↔
      (cursorAt filter (token.stop before)).inString = true)
  /- A literal is still open only behind the last token. -/
  last : (cursorAt filter (token.stop before)).inString = true → behind = []

end Token

------------------------------------------------------------
-- Lexemes among others
------------------------------------------------------------

namespace Lexeme

/- In front of each of lexemes that fit the cursor is outside every literal. -/
theorem Fitting.run_front
    {front back : List Lexeme}
    (hFitting : Fitting (front ++ back))
    (hBack : back ≠ []) :
    Cursor.outside.run (front.flatMap text) = .outside := by
  induction front with
  | nil => rfl
  | cons lexeme front ih =>
      rcases hFitting with ⟨hFits, hOthers⟩
      rw [List.flatMap_cons, Cursor.run_append]
      rcases run_text hFits with hRun | hRest
      · rw [hRun]
        exact ih hOthers
      · have hNone := List.append_eq_nil_iff.mp (hOthers.eq_nil hRest)
        exact absurd hNone.2 hBack

/- Every character of the texts of lexemes lies in one of them. -/
theorem exists_lexeme_at
    {lexemes : List Lexeme}
    {n : Nat}
    (hLess : n < (lexemes.flatMap text).length) :
    ∃ front lexeme back,
      lexemes = front ++ lexeme :: back ∧
        (front.flatMap text).length ≤ n ∧
        n < (front.flatMap text).length + lexeme.text.length := by
  induction lexemes generalizing n with
  | nil => exact absurd hLess (Nat.not_lt_zero n)
  | cons first lexemes ih =>
      rw [List.flatMap_cons, List.length_append] at hLess
      by_cases hFirst : n < first.text.length
      · exact ⟨[], first, lexemes, rfl, Nat.zero_le n, by simpa using hFirst⟩
      · have hOthers : n - first.text.length < (lexemes.flatMap text).length := by
          omega
        rcases ih hOthers with ⟨front, lexeme, back, rfl, hFrom, hTo⟩
        refine ⟨first :: front, lexeme, back, rfl, ?_, ?_⟩
        · rw [List.flatMap_cons, List.length_append]
          omega
        · rw [List.flatMap_cons, List.length_append]
          omega

end Lexeme

------------------------------------------------------------
-- Tokens among others
------------------------------------------------------------

/- A token starts and ends where its lexeme does. -/
theorem Token.start_explainAll
    (depth : Int)
    (front : List Lexeme) :
    Token.start (explainAll depth front) = (front.flatMap Lexeme.text).length := by
  rw [Token.start, ← String.length_toList, toList_reconstruct_explainAll]

theorem Token.stop_explain
    (depth other : Int)
    (front : List Lexeme)
    (lexeme : Lexeme) :
    (lexeme.explain other).stop (explainAll depth front) =
      (front.flatMap Lexeme.text).length + lexeme.text.length := by
  rw [Token.stop, Token.start_explainAll, Lexeme.text_explain, String.length_ofList]

/- Behind a text that ends outside every literal the scan starts afresh. -/
theorem exists_literalAt_eq
    {filter : String}
    {before middle behind : List Char}
    {n : Nat}
    (hFilter : filter.toList = before ++ (middle ++ behind))
    (hRun : Cursor.outside.run before = .outside)
    (hFrom : before.length ≤ n)
    (hTo : n < before.length + middle.length) :
    ∃ entry ∈ Cursor.outside.trace middle, literalAt filter n = entry.1.isLiteral := by
  have hInside : n - before.length < (Cursor.outside.trace middle).length := by
    rw [Cursor.length_trace]
    omega
  refine ⟨_, List.getElem_mem hInside, ?_⟩
  rw [literalAt, hFilter, Cursor.getElem?_trace_middle hFrom hTo, hRun,
    List.getElem?_eq_getElem hInside, Option.any_some]

/- A token that explains one of lexemes that fit agrees with the cursor. -/
theorem Lexeme.Fitting.agrees
    {filter : String}
    {front back : List Lexeme}
    {lexeme : Lexeme}
    (hFitting : Fitting (front ++ lexeme :: back))
    (hFilter : filter.toList = (front ++ lexeme :: back).flatMap text)
    (depth here behind : Int) :
    (lexeme.explain here).AgreesWithCursor filter
      (explainAll depth front) (explainAll behind back) := by
  have hRun := hFitting.run_front (List.cons_ne_nil _ _)
  have hFits := (fitting_append hFitting).2.1
  rw [List.flatMap_append, List.flatMap_cons] at hFilter
  have hStart : cursorAt filter (Token.start (explainAll depth front)) = .outside := by
    rw [cursorAt, hFilter, Token.start_explainAll, List.take_left, hRun]
  have hStop : cursorAt filter ((lexeme.explain here).stop (explainAll depth front)) =
      Cursor.outside.run lexeme.text := by
    rw [cursorAt, hFilter, Token.stop_explain, ← List.length_append, ← List.append_assoc,
      List.take_left, Cursor.run_append, hRun]
  refine ⟨hStart, ?_, ?_, ?_⟩
  · intro hString n hCovers
    rcases eq_literal_of_category hString with ⟨body, rfl⟩
    rw [Token.Covers, Token.stop_explain, Token.start_explainAll] at hCovers
    rcases exists_literalAt_eq hFilter hRun hCovers.1 hCovers.2 with ⟨entry, hEntry, hLiteral⟩
    rw [hLiteral]
    exact Cursor.isLiteral_of_mem_trace hFits.code_literal entry hEntry
  · intro hString
    rcases eq_literal_of_category hString with ⟨body, rfl⟩
    rw [hStop]
    simp only [explain, explainLiteral, Lexeme.text]
    split
    · next hOpen => exact iff_of_true rfl hOpen
    · next hClosed => exact iff_of_false (by decide) hClosed
  · intro hOpen
    rw [hStop] at hOpen
    rcases run_text hFits with hClosed | hNone
    · rw [hClosed] at hOpen
      exact Bool.noConfusion hOpen
    · rw [(fitting_append hFitting).2.2.eq_nil hNone]
      rfl

/- A literal is part of a string or of a bracketed access. -/
theorem Lexeme.mayQuote_of_isLiteral
    {lexeme : Lexeme}
    {rest : List Char}
    (hFits : lexeme.Fits rest)
    {entry : Quote.Step × Cursor}
    (hEntry : entry ∈ Cursor.outside.trace lexeme.text)
    (hLiteral : entry.1.isLiteral = true)
    (depth : Int) :
    (lexeme.explain depth).category = .string ∨
      ['.', '['] <+: (lexeme.explain depth).text.toList := by
  have hQuotes : lexeme.mayQuote = true := by
    by_contra hNone
    have hCode := quote_not_mem_text hFits (Bool.eq_false_iff.mpr hNone)
    rw [Cursor.isLiteral_of_not_mem hCode entry hEntry] at hLiteral
    exact Bool.noConfusion hLiteral
  match lexeme, hQuotes with
  | literal text, _ => exact Or.inl rfl
  | access (.bracket body slice suppressed), _ =>
      right
      rcases hFits with ⟨inner, -, hSpan, -⟩
      rw [Access.bracketSpan_open] at hSpan
      have hBody : '[' :: (Access.bracketSpan .outside 1 inner).body = body :=
        congrArg Access.BracketSpan.body hSpan
      rw [text_explain, String.toList_ofList, text, Access.text, ← hBody]
      exact ⟨_, rfl⟩

/- Every character of a literal lies in a string token or in a bracketed access. -/
theorem exists_token_of_literalAt
    {filter : String}
    {n : Nat}
    (hLiteral : literalAt filter n = true) :
    ∃ before token behind,
      tokenize filter = before ++ token :: behind ∧
        token.Covers before n ∧
        (token.category = .string ∨ ['.', '['] <+: token.text.toList) := by
  have hFitting := Lexeme.fitting_scan filter.toList
  have hFilter : filter.toList = (Lexeme.scan filter.toList).flatMap Lexeme.text :=
    (Lexeme.flatMap_text_scan filter.toList).symm
  have hLess : n < ((Lexeme.scan filter.toList).flatMap Lexeme.text).length := by
    rw [literalAt, Option.any_eq_true] at hLiteral
    rcases hLiteral with ⟨entry, hEntry, -⟩
    rw [← hFilter, ← Cursor.length_trace .outside]
    exact (List.getElem?_eq_some_iff.mp hEntry).1
  rcases Lexeme.exists_lexeme_at hLess with ⟨front, lexeme, back, hScan, hFrom, hTo⟩
  rw [hScan] at hFitting hFilter
  have hRun := hFitting.run_front (List.cons_ne_nil _ _)
  have hFits := (Lexeme.fitting_append hFitting).2.1
  rw [List.flatMap_append, List.flatMap_cons] at hFilter
  rcases exists_literalAt_eq hFilter hRun hFrom hTo with ⟨entry, hEntry, hSame⟩
  rw [hSame] at hLiteral
  have hTokens := explainAll_append 0 front (lexeme :: back)
  rw [← hScan, explainAll] at hTokens
  refine ⟨_, _, _, hTokens, ?_, Lexeme.mayQuote_of_isLiteral hFits hEntry hLiteral _⟩
  rw [Token.Covers, Token.stop_explain, Token.start_explainAll]
  exact ⟨hFrom, hTo⟩

------------------------------------------------------------
-- The search for stages, watched
------------------------------------------------------------

/-
  The pieces of a text with a record of the cursor that the
  search had in front of each character. A character that it did
  not feed to the cursor is recorded as none.
-/
structure Watched where
  pieces : List (List Char)
  record : List (Option Cursor)

/- Record what there was in front of a further character. -/
def Watched.note
    (found : Watched)
    (seen : Option Cursor) : Watched :=
  { found with record := seen :: found.record }

/- Begin a further piece. -/
def Watched.begin
    (found : Watched)
    (piece : List Char) : Watched :=
  { found with pieces := piece :: found.pieces }

/- The search for stages, with its record. -/
def watchedPieces
    (k : Cursor)
    (d : Depths)
    (piece : List Char) : List Char → Watched
  | [] => ⟨[piece.reverse], []⟩
  | c :: cs =>
      if (k.step c).isLiteral then
        (watchedPieces (k.next c) d (c :: piece) cs).note (some k)
      else if c = '|' then
        match cs with
        | '=' :: cs =>
            ((watchedPieces (k.next c) d ('=' :: '|' :: piece) cs).note none).note (some k)
        | cs =>
            if d.balanced then
              ((watchedPieces (k.next c) d [] cs).begin piece.reverse).note (some k)
            else (watchedPieces (k.next c) d (c :: piece) cs).note (some k)
      else
        (watchedPieces (k.next c) (d.after c) (c :: piece) cs).note (some k)

theorem watchedPieces_of_literal
    {k : Cursor}
    {c : Char}
    (hLiteral : (k.step c).isLiteral = true)
    (d : Depths)
    (piece cs : List Char) :
    watchedPieces k d piece (c :: cs) =
      (watchedPieces (k.next c) d (c :: piece) cs).note (some k) := by
  rw [watchedPieces.eq_def]
  exact if_pos hLiteral

theorem watchedPieces_of_code
    {k : Cursor}
    {c : Char}
    (hCode : (k.step c).isLiteral = false)
    (hPipe : c ≠ '|')
    (d : Depths)
    (piece cs : List Char) :
    watchedPieces k d piece (c :: cs) =
      (watchedPieces (k.next c) (d.after c) (c :: piece) cs).note (some k) := by
  rw [watchedPieces.eq_def]
  exact (if_neg (Bool.eq_false_iff.mp hCode)).trans (if_neg hPipe)

theorem watchedPieces_update
    (d : Depths)
    (piece cs : List Char) :
    watchedPieces .outside d piece ('|' :: '=' :: cs) =
      ((watchedPieces .outside d ('=' :: '|' :: piece) cs).note none).note (some .outside) := by
  rw [watchedPieces]
  rfl

theorem watchedPieces_pipe
    {cs : List Char}
    (hUpdate : cs.head? ≠ some '=')
    (d : Depths)
    (piece : List Char) :
    watchedPieces .outside d piece ('|' :: cs) =
      if d.balanced then
        ((watchedPieces .outside d [] cs).begin piece.reverse).note (some .outside)
      else (watchedPieces .outside d ('|' :: piece) cs).note (some .outside) := by
  rw [watchedPieces.eq_def]
  refine Eq.trans (if_neg (by decide)) (Eq.trans (if_pos rfl) ?_)
  split
  · simp at hUpdate
  · rfl

/-
  The character at a position is the second half of an update
  operator: the first half stands in front of it, outside every
  literal.
-/
def isSecondHalf
    (k : Cursor)
    (cs : List Char) : Nat → Bool
  | 0 => false
  | n + 1 => cs[n]? == some '|' && cs[n + 1]? == some '=' && k.run (cs.take n) == .outside

/-
  For each character of a text the cursor in front of it, but
  none for the second halves of update operators.
-/
def cursors
    (k : Cursor)
    (cs : List Char) : List (Option Cursor) :=
  (List.range cs.length).map fun n =>
    if isSecondHalf k cs n then none else some (k.run (cs.take n))

/- A character that is no such half has the cursor in front of it. -/
theorem cursors_cons
    {k : Cursor}
    {c : Char}
    {cs : List Char}
    (hFed : k = .outside → c = '|' → cs.head? ≠ some '=') :
    cursors k (c :: cs) = some k :: cursors (k.next c) cs := by
  have hOthers : ∀ n, isSecondHalf k (c :: cs) (n + 1) = isSecondHalf (k.next c) cs n := by
    intro n
    cases n with
    | zero =>
        apply Bool.eq_false_iff.mpr
        simp only [isSecondHalf, ne_eq, Bool.and_eq_true, beq_iff_eq]
        rintro ⟨⟨hPipe, hUpdate⟩, hOutside⟩
        apply hFed hOutside (Option.some.inj hPipe)
        rw [List.head?_eq_getElem?]
        exact hUpdate
    | succ n => rfl
  rw [cursors, List.length_cons, List.range_succ_eq_map, List.map_cons, List.map_map]
  apply congrArg
  apply List.map_congr_left
  intro n _
  simp only [Function.comp_apply, hOthers]
  rfl

/- The second half of an update operator leaves the cursor as it is. -/
theorem cursors_update
    (cs : List Char) :
    cursors .outside ('|' :: '=' :: cs) = some .outside :: none :: cursors .outside cs := by
  have hOthers : ∀ n, isSecondHalf .outside ('|' :: '=' :: cs) (n + 2) =
      isSecondHalf .outside cs n := by
    intro n
    cases n with
    | zero => rfl
    | succ n => rfl
  rw [cursors, List.length_cons, List.length_cons, List.range_succ_eq_map,
    List.range_succ_eq_map, List.map_cons, List.map_cons, List.map_cons, List.map_map,
    List.map_map]
  apply congrArg
  apply congrArg
  apply List.map_congr_left
  intro n _
  simp only [Function.comp_apply, Nat.succ_eq_add_one, hOthers]
  rfl

/-
  Watching the search does not change what it finds, and in
  front of each character that it feeds to its cursor it has the
  cursor that has read all characters before.
-/
theorem watchedPieces_eq
    (k : Cursor)
    (d : Depths)
    (piece : List Char) : (cs : List Char) →
    watchedPieces k d piece cs = ⟨pieces k d piece cs, cursors k cs⟩
  | [] => rfl
  | c :: cs => by
      cases hStep : (k.step c).isLiteral with
      | true =>
          have hFed : k = .outside → c = '|' → cs.head? ≠ some '=' := by
            rintro rfl rfl
            exact absurd hStep (by decide)
          rw [watchedPieces_of_literal hStep, watchedPieces_eq, pieces_of_literal hStep,
            cursors_cons hFed]
          rfl
      | false =>
          by_cases hPipe : c = '|'
          · rcases (Cursor.isLiteral_step_eq_false_iff k c).mp hStep with ⟨rfl, -⟩
            subst hPipe
            by_cases hUpdate : cs.head? = some '='
            · -- The search takes both halves at once.
              rcases List.head?_eq_some_iff.mp hUpdate with ⟨cs, rfl⟩
              rw [watchedPieces_update, watchedPieces_eq, pieces_update, cursors_update]
              rfl
            · rw [watchedPieces_pipe hUpdate, watchedPieces_eq, watchedPieces_eq,
                pieces_pipe hUpdate, cursors_cons fun _ _ => hUpdate]
              split
              · rfl
              · rfl
          · rw [watchedPieces_of_code hStep hPipe, watchedPieces_eq, pieces_of_code hStep hPipe,
              cursors_cons fun _ hEqual => absurd hEqual hPipe]
            rfl
  termination_by cs => cs.length

------------------------------------------------------------
-- Agreement
------------------------------------------------------------

/-
  One cursor that reads the whole filter, whatever it holds,
  tells where the string tokens are. It is outside every literal
  where a token starts; what it takes for part of a literal lies
  in a string token, all of which it takes for one, or in a
  bracketed access; and a string token is unterminated if it is
  still in a literal behind it, which is so at most behind the
  last token. The search for stages, which does not feed the
  second half of an update operator to its cursor, has the same
  cursor in front of every character that it feeds.
-/
theorem quotes_agree
    (filter : String) :
    (∀ before token behind,
      tokenize filter = before ++ token :: behind →
        token.AgreesWithCursor filter before behind) ∧
      (∀ n, literalAt filter n = true →
        ∃ before token behind,
          tokenize filter = before ++ token :: behind ∧
            token.Covers before n ∧
            (token.category = .string ∨ ['.', '['] <+: token.text.toList)) ∧
      (watchedPieces .outside {} [] filter.toList).pieces = pieces .outside {} [] filter.toList ∧
      (watchedPieces .outside {} [] filter.toList).record =
        (List.range filter.length).map fun n =>
          if isSecondHalf .outside filter.toList n then none else some (cursorAt filter n) := by
  have hFitting := Lexeme.fitting_scan filter.toList
  have hFilter : filter.toList = (Lexeme.scan filter.toList).flatMap Lexeme.text :=
    (Lexeme.flatMap_text_scan filter.toList).symm
  rw [watchedPieces_eq, cursors, String.length_toList]
  refine ⟨?_, fun n hLiteral => exists_token_of_literalAt hLiteral, rfl, rfl⟩
  intro before token behind hTokens
  rcases exists_lexeme_of_explainAll hTokens with ⟨front, lexeme, back, hScan, rfl, rfl, rfl⟩
  rw [hScan] at hFitting hFilter
  exact hFitting.agrees hFilter _ _ _

/- A pipe in a literal of an access, an update operator and a literal that stays open. -/
theorem quotes_agree_openLiteral :
    ∃ before token,
      tokenize ".[\"|\"]|=\"b" = before ++ token :: [] ∧
        token.description = "Unterminated string literal" ∧
        token.AgreesWithCursor ".[\"|\"]|=\"b" before [] ∧
        literalAt ".[\"|\"]|=\"b" 3 = true ∧
        ∃ front access behind,
          tokenize ".[\"|\"]|=\"b" = front ++ access :: behind ∧
            access.Covers front 3 ∧
            (access.category = .string ∨ ['.', '['] <+: access.text.toList) := by
  have hTokens : tokenize ".[\"|\"]|=\"b" =
      (tokenize ".[\"|\"]|=\"b").take 2 ++ Lexeme.explainLiteral ['"', 'b'] :: [] := by
    decide +kernel
  have hLiteral : literalAt ".[\"|\"]|=\"b" 3 = true := by
    decide
  exact ⟨_, _, hTokens, by decide, (quotes_agree _).1 _ _ _ hTokens, hLiteral,
    (quotes_agree _).2.1 3 hLiteral⟩

end JqLens

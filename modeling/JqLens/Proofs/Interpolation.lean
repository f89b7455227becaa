import JqLens.Proofs.Lossless
import JqLens.Proofs.Stage
import JqLens.Proofs.Blank

/-
  This file relates string literals with interpolated code to
  what the quote cursor takes for a literal. The cursor does not
  count the parentheses of an interpolation: to it the opening
  one is an escaped character like any other. So a literal whose
  interpolations hold no further literal is a single token and a
  single stage, with all pipes in it, while the first quote of a
  literal inside an interpolation closes the outer one.

  Key definitions include:
    * `Items`
    * `Code`
    * `Items.quoted`
    * `Items.isFlat`

  Main results:
    * `Items.stays_text`
    * `tokenize_quoted_iff`
    * `quoted_opaque_iff`
-/

namespace JqLens

open Quote (Cursor)

------------------------------------------------------------
-- Literals with interpolations
------------------------------------------------------------

mutual

/- What stands between the quotes of a string literal. -/
inductive Items where
  | nil
  | plain (c : Char) (hQuote : c ≠ '"') (hBackslash : c ≠ '\\') (rest : Items)
  /- A backslash makes any character verbatim that opens no interpolation. -/
  | escape (c : Char) (hOpen : c ≠ '(') (rest : Items)
  | interpolation (code : Code) (rest : Items)

/- What stands between the parentheses of an interpolation. -/
inductive Code where
  | nil
  | char (c : Char) (hPlain : c ∉ ['"', '(', ')']) (rest : Code)
  | literal (items : Items) (rest : Code)
  | group (inner rest : Code)

end

mutual

/- The text of items. -/
def Items.text : Items → List Char
  | .nil => []
  | .plain c _ _ rest => c :: rest.text
  | .escape c _ rest => '\\' :: c :: rest.text
  | .interpolation code rest => '\\' :: '(' :: (code.text ++ ')' :: rest.text)

/- The text of interpolated code. -/
def Code.text : Code → List Char
  | .nil => []
  | .char c _ rest => c :: rest.text
  | .literal items rest => '"' :: (items.text ++ '"' :: rest.text)
  | .group inner rest => '(' :: (inner.text ++ ')' :: rest.text)

end

mutual

/- No interpolation among the items holds a literal. -/
def Items.isFlat : Items → Bool
  | .nil => true
  | .plain _ _ _ rest => rest.isFlat
  | .escape _ _ rest => rest.isFlat
  | .interpolation code rest => code.isFlat && rest.isFlat

/- The code holds no literal. -/
def Code.isFlat : Code → Bool
  | .nil => true
  | .char _ _ rest => rest.isFlat
  | .literal _ _ => false
  | .group inner rest => inner.isFlat && rest.isFlat

end

/- The string literal with the given items. -/
def Items.quoted (items : Items) : String :=
  String.ofList ('"' :: (items.text ++ ['"']))

------------------------------------------------------------
-- The cursor in a literal
------------------------------------------------------------

mutual

/-
  The cursor stays inside a literal to the end of its items if
  no interpolation holds a literal, and leaves it otherwise.
-/
theorem Items.stays_text : (items : Items) →
    Cursor.inside.stays items.text = items.isFlat
  | .nil => rfl
  | .plain c hQuote hBackslash rest => by
      have hNext := Cursor.next_of_inString (k := .inside) rfl hQuote hBackslash
      rw [Items.text, Cursor.stays_cons, hNext, Items.isFlat, rest.stays_text]
      rfl
  | .escape c hOpen rest => by
      rw [Items.text, Items.isFlat, ← rest.stays_text]
      rfl
  | .interpolation code rest => by
      have hCode := code.stays_text (k := .inside) rfl
      have hOpen : Cursor.inside.stays
            ('\\' :: '(' :: (code.text ++ ')' :: rest.text)) =
          Cursor.inside.stays (code.text ++ ')' :: rest.text) := rfl
      rw [Items.text, hOpen, Cursor.stays_append, hCode, Items.isFlat]
      cases hFlat : code.isFlat with
      | false => rfl
      | true =>
          have hClose := code.next_run_text (k := .inside) rfl hFlat
          rw [Cursor.stays_cons, hClose, rest.stays_text]
          rfl

/- Behind the items of such a literal the next quote closes it. -/
theorem Items.run_text : (items : Items) →
    items.isFlat = true → Cursor.inside.run items.text = .inside
  | .nil, _ => rfl
  | .plain c hQuote hBackslash rest, hFlat => by
      have hNext := Cursor.next_of_inString (k := .inside) rfl hQuote hBackslash
      rw [Items.text, Cursor.run_cons, hNext]
      exact rest.run_text hFlat
  | .escape c hOpen rest, hFlat => by
      rw [Items.text]
      exact rest.run_text hFlat
  | .interpolation code rest, hFlat => by
      rw [Items.isFlat, Bool.and_eq_true] at hFlat
      have hClose := code.next_run_text (k := .inside) rfl hFlat.1
      have hOpen : Cursor.inside.run
            ('\\' :: '(' :: (code.text ++ ')' :: rest.text)) =
          Cursor.inside.run (code.text ++ ')' :: rest.text) := rfl
      rw [Items.text, hOpen, Cursor.run_append, Cursor.run_cons, hClose]
      exact rest.run_text hFlat.2

/-
  Inside a literal, escaped or not, the cursor stays there to
  the end of code without a literal; a literal in the code
  closes the outer one with one of its quotes.
-/
theorem Code.stays_text : (code : Code) → {k : Cursor} →
    k.inString = true → k.stays code.text = code.isFlat
  | .nil, _, _ => rfl
  | .char c hPlain rest, k, hIn => by
      have hNext := Cursor.inString_next (c := c) hIn (by
        rintro rfl
        exact hPlain (by simp))
      rw [Code.text, Cursor.stays_cons, hNext, rest.stays_text hNext]
      rfl
  | .literal items rest, k, hIn => by
      rw [Code.text, Code.isFlat, Cursor.stays_cons]
      cases k with
      | outside => simp [Cursor.inString] at hIn
      | inside => rfl
      | escaped =>
          -- The opening quote is escaped, so the closing one closes the outer literal.
          have hOpen : Cursor.escaped.next '"' = .inside := rfl
          rw [hOpen, Cursor.stays_append, items.stays_text]
          cases hFlat : items.isFlat with
          | false => rfl
          | true =>
              rw [items.run_text hFlat]
              rfl
  | .group inner rest, k, hIn => by
      have hOpen := Cursor.next_of_inString hIn (by decide : '(' ≠ '"') (by decide)
      rw [Code.text, Cursor.stays_cons, hOpen, Cursor.stays_append,
        inner.stays_text (k := .inside) rfl, Code.isFlat]
      cases hFlat : inner.isFlat with
      | false => rfl
      | true =>
          have hClose := inner.next_run_text (k := .inside) rfl hFlat
          rw [Cursor.stays_cons, hClose, rest.stays_text (k := .inside) rfl]
          rfl

/- The parenthesis behind such code is a plain character of the literal. -/
theorem Code.next_run_text (code : Code) {k : Cursor}
    (hIn : k.inString = true)
    (hFlat : code.isFlat = true) :
    (k.run code.text).next ')' = .inside := by
  have hStays := (code.stays_text hIn).trans hFlat
  exact Cursor.next_of_inString (Cursor.inString_run hIn hStays) (by decide) (by decide)

end

------------------------------------------------------------
-- Tokens of a literal
------------------------------------------------------------

namespace Items

theorem toList_quoted
    (items : Items) :
    items.quoted.toList = '"' :: (items.text ++ ['"']) :=
  String.toList_ofList

/- Without literals in interpolations the last quote closes the first. -/
theorem span_text
    {items : Items}
    (hFlat : items.isFlat = true) :
    Quote.span .inside (items.text ++ ['"']) = (items.text ++ ['"'], []) := by
  have hStays := items.stays_text.trans hFlat
  rw [Quote.span_append_of_stays hStays, items.run_text hFlat]
  rfl

/- Otherwise a quote further in front does. -/
theorem span_text_ne_nil
    {items : Items}
    (hFlat : items.isFlat = false) :
    (Quote.span .inside (items.text ++ ['"'])).2 ≠ [] := by
  have hLeaves := items.stays_text.trans hFlat
  rcases Quote.span_append_of_leaves hLeaves ['"'] with ⟨behind, hBehind⟩
  rw [hBehind]
  simp

/- The scan of a literal takes what the cursor takes for it. -/
theorem scan_quoted
    (items : Items) :
    Lexeme.scan items.quoted.toList =
      Lexeme.literal ('"' :: (Quote.span .inside (items.text ++ ['"'])).1) ::
        Lexeme.scan (Quote.span .inside (items.text ++ ['"'])).2 := by
  have hBlank : Text.isBlank '"' = false := by
    decide
  rw [toList_quoted, Lexeme.scan_cons]
  simp [Lexeme.next, hBlank]

/-
  A literal is a single string token exactly if no
  interpolation in it holds a literal.
-/
theorem tokenize_quoted_iff
    (items : Items) :
    (∃ token, tokenize items.quoted = [token] ∧
      token.text = items.quoted ∧ token.category = .string) ↔
      items.isFlat = true := by
  rw [tokenize, scan_quoted]
  constructor
  · rintro ⟨token, hTokens, -⟩
    cases hFlat : items.isFlat with
    | true => rfl
    | false =>
        -- Something is behind the first token, and so is another token.
        have hSome := span_text_ne_nil hFlat
        rcases hRest : (Quote.span .inside (items.text ++ ['"'])).2 with _ | ⟨c, cs⟩
        · exact absurd hRest hSome
        · rw [hRest, Lexeme.scan_cons] at hTokens
          simp [explainAll] at hTokens
  · intro hFlat
    rw [span_text hFlat, Lexeme.scan_nil]
    exact ⟨_, rfl, rfl, rfl⟩

------------------------------------------------------------
-- Stages of a literal
------------------------------------------------------------

/- Quotes on both sides are not trimmed. -/
theorem trim_quoted
    (items : Items) :
    Text.trim ('"' :: (items.text ++ ['"'])) = '"' :: (items.text ++ ['"']) := by
  apply Text.trim_eq_self
  · intro c hHead
    rw [List.head?_cons, Option.mem_some_iff] at hHead
    rw [← hHead]
    decide
  · intro c hLast
    rw [← List.cons_append, List.getLast?_concat, Option.mem_some_iff] at hLast
    rw [← hLast]
    decide

/- A literal is a single stage exactly if no pipe in it is a stage boundary. -/
theorem splitStages_quoted_iff
    (items : Items) :
    splitStages items.quoted = [items.quoted] ↔
      Place.Uncut {} [] items.quoted.toList := by
  rw [splitStages, toList_quoted,
    ← stages_eq_singleton_iff (List.cons_ne_nil _ _) (trim_quoted items)]
  constructor
  · intro hStages
    have hTexts := congrArg (List.map String.toList) hStages
    simpa [Function.comp_def, toList_quoted] using hTexts
  · intro hStages
    rw [hStages]
    rfl

/- Without literals in interpolations nothing of a literal is filter code. -/
theorem code_quoted
    {items : Items}
    (hFlat : items.isFlat = true) :
    Cursor.outside.code ('"' :: (items.text ++ ['"'])) = [] := by
  have hCode := Quote.code_span (k := .inside) rfl (items.text ++ ['"'])
  rw [span_text hFlat] at hCode
  exact hCode

/-
  What the scan and the search make of a string literal with
  interpolations. It is a single token exactly if no
  interpolation holds a literal, at any depth of parentheses;
  then it is a single stage too. In general it is one exactly if
  none of its pipes is a stage boundary to the cursor.
-/
theorem quoted_opaque_iff
    (items : Items) :
    ((∃ token, tokenize items.quoted = [token] ∧
        token.text = items.quoted ∧ token.category = .string) ↔
      items.isFlat = true) ∧
    (items.isFlat = true → splitStages items.quoted = [items.quoted]) ∧
    (splitStages items.quoted = [items.quoted] ↔
      Place.Uncut {} [] items.quoted.toList) := by
  refine ⟨tokenize_quoted_iff items, ?_, splitStages_quoted_iff items⟩
  intro hFlat
  rw [splitStages_quoted_iff, toList_quoted]
  apply Place.uncut_of_not_mem_code
  rw [code_quoted hFlat]
  exact List.not_mem_nil

/- An escaped quote, and pipes in parentheses of an interpolation. -/
def escapedPipes : Items :=
  .escape '"' (by decide) (.interpolation
    (.char '|' (by decide) (.group (.char '|' (by decide) .nil) .nil))
    (.plain '|' (by decide) (by decide) .nil))

theorem quoted_opaque_escapedPipes :
    escapedPipes.isFlat = true ∧
      splitStages escapedPipes.quoted = [escapedPipes.quoted] ∧
      ∃ token, tokenize escapedPipes.quoted = [token] ∧
        token.text = escapedPipes.quoted ∧ token.category = .string :=
  ⟨rfl, (quoted_opaque_iff escapedPipes).2.1 rfl,
    (quoted_opaque_iff escapedPipes).1.mpr rfl⟩

/- A pipe in a literal in an interpolation. -/
def nestedPipe : Items :=
  .interpolation
    (.literal (.plain '|' (by decide) (by decide) .nil) .nil) .nil

/-
  The quote of a literal in an interpolation closes the outer
  one, so that a pipe in it separates two stages.
-/
theorem quoted_nestedPipe_not_opaque :
    nestedPipe.quoted = "\"\\(\"|\")\"" ∧
      splitStages nestedPipe.quoted = ["\"\\(\"", "\")\""] ∧
      (tokenize nestedPipe.quoted).map Token.text = ["\"\\(\"", "|", "\")\""] := by
  refine ⟨by decide +kernel, by decide +kernel, ?_⟩
  decide +kernel

end Items

end JqLens

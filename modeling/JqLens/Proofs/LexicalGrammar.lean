import JqLens.Proofs.LookBack
import JqLens.Proofs.Reread
import JqLens.Proofs.TokenClass

/-
  This file gives the lexical grammar of filters and proves that
  every token of a filter fits the rule of its category. Only
  what a filter leaves open at its end has a text of its own
  kind: a literal without closing quote or an access without
  closing bracket, and nothing follows either.

  Key definitions include:
    * `Quote.IsLiteralBody`
    * `Access.IsBracketed`, `Access.IsUnclosed`
    * `DotForm.Spelled`, `DotForm.IsWritten`
    * `IsLexical`

  Main results:
    * `Quote.exists_body_span`
    * `Access.bracketed_or_unclosed`
    * `Access.Fits.isWritten`
    * `Lexeme.Fits.isLexical`
    * `tokenize_lexical`
-/

namespace JqLens

open Quote (Cursor)

------------------------------------------------------------
-- Literals
------------------------------------------------------------

namespace Quote

/-
  What may stand between the quotes of a literal: characters
  that are neither quotes nor backslashes, and backslashes with
  any character behind each.
-/
inductive IsLiteralBody : List Char → Prop where
  | nil : IsLiteralBody []
  | plain
      {c : Char}
      {body : List Char}
      (hQuote : c ≠ '"')
      (hBackslash : c ≠ '\\')
      (hBody : IsLiteralBody body) :
      IsLiteralBody (c :: body)
  | escape
      (c : Char)
      {body : List Char}
      (hBody : IsLiteralBody body) :
      IsLiteralBody ('\\' :: c :: body)

/-
  Behind its opening quote a literal has a body and the closing
  quote, or it takes the whole text; then it is a body with or
  without a backslash at the end.
-/
theorem exists_body_span : (cs : List Char) →
    ∃ body ending,
      IsLiteralBody body ∧
        (span .inside cs).1 = body ++ ending ∧
        (ending = ['"'] ∨ (span .inside cs).2 = [] ∧ (ending = [] ∨ ending = ['\\']))
  | [] => ⟨[], [], .nil, rfl, Or.inr ⟨rfl, Or.inl rfl⟩⟩
  | c :: cs => by
      by_cases hQuote : c = '"'
      · subst hQuote
        exact ⟨[], ['"'], .nil, rfl, Or.inl rfl⟩
      by_cases hBackslash : c = '\\'
      · subst hBackslash
        rcases cs with _ | ⟨d, cs⟩
        · exact ⟨[], ['\\'], .nil, rfl, Or.inr ⟨rfl, Or.inr rfl⟩⟩
        · -- The cursor is inside again behind the character that is escaped.
          rcases exists_body_span cs with ⟨body, ending, hBody, hSpan, hEnding⟩
          have hPair : span .inside ('\\' :: d :: cs) =
              ('\\' :: d :: (span .inside cs).1, (span .inside cs).2) := rfl
          rw [hPair]
          exact ⟨'\\' :: d :: body, ending, .escape d hBody, by rw [hSpan]; rfl, hEnding⟩
      · rcases exists_body_span cs with ⟨body, ending, hBody, hSpan, hEnding⟩
        have hNext : Cursor.inside.next c = .inside :=
          Cursor.next_of_inString rfl hQuote hBackslash
        rw [span_cons_of_inString (by rw [hNext]; rfl), hNext]
        exact ⟨c :: body, ending, .plain hQuote hBackslash hBody, by rw [hSpan]; rfl, hEnding⟩
  termination_by cs => cs.length

end Quote

------------------------------------------------------------
-- Brackets
------------------------------------------------------------

namespace Access

/-
  Outside literals, every part of a text from its front on, but
  the empty one, opens more square brackets than it closes.
-/
def StaysOpen (text : List Char) : Prop :=
  ∀ front, front <+: text → front ≠ [] →
    (Cursor.outside.code front).count ']' < (Cursor.outside.code front).count '['

/-
  A text from an opening bracket to the one that closes it: the
  first behind which no bracket is open any more.
-/
def IsBracketed (text : List Char) : Prop :=
  ∃ inner, text = '[' :: (inner ++ [']']) ∧ StaysOpen ('[' :: inner) ∧
    (Cursor.outside.code text).count ']' = (Cursor.outside.code text).count '['

/- A text from an opening bracket on that does not close it. -/
def IsUnclosed (text : List Char) : Prop :=
  text.head? = some '[' ∧ StaysOpen text

/- A step to the end of a body closes its only open bracket. -/
theorem code_of_closes
    {k : Cursor}
    {depth : Nat}
    {c : Char}
    (hStep : bracketStep k depth c = none) :
    depth ≤ 1 ∧ c = ']' ∧ k.code [c] = [']'] := by
  unfold bracketStep at hStep
  split at hStep
  · exact absurd hStep (by simp)
  next hCode =>
  split at hStep
  · exact absurd hStep (by simp)
  split at hStep
  · next hClose =>
      split at hStep
      · next hDepth =>
          subst hClose
          exact ⟨hDepth, rfl, Cursor.code_cons_of_code (Bool.eq_false_iff.mpr hCode) []⟩
      · exact absurd hStep (by simp)
  · exact absurd hStep (by simp)

/- Any other step leaves some brackets open, as many as the character says. -/
theorem count_of_continues
    {k : Cursor}
    {depth deeper : Nat}
    {c : Char}
    {colon : Bool}
    (hDepth : 1 ≤ depth)
    (hStep : bracketStep k depth c = some (deeper, colon)) :
    1 ≤ deeper ∧ deeper + (k.code [c]).count ']' = depth + (k.code [c]).count '[' := by
  unfold bracketStep at hStep
  split at hStep
  · next hLiteral =>
      obtain rfl : depth = deeper := congrArg Prod.fst (Option.some.inj hStep)
      rw [Cursor.code_cons_of_literal hLiteral]
      exact ⟨hDepth, rfl⟩
  next hCode =>
  rw [Cursor.code_cons_of_code (Bool.eq_false_iff.mpr hCode), Cursor.code_nil]
  split at hStep
  · next hOpen =>
      obtain rfl : depth + 1 = deeper := congrArg Prod.fst (Option.some.inj hStep)
      rw [hOpen]
      exact ⟨Nat.le_add_left 1 depth, rfl⟩
  next hNotOpen =>
  split at hStep
  · next hClose =>
      split at hStep
      · exact absurd hStep (by simp)
      · next hDeep =>
          obtain rfl : depth - 1 = deeper := congrArg Prod.fst (Option.some.inj hStep)
          rw [hClose, List.count_singleton_self, List.count_singleton, if_neg (by decide)]
          omega
  · next hNotClose =>
      obtain rfl : depth = deeper := congrArg Prod.fst (Option.some.inj hStep)
      rw [List.count_singleton, List.count_singleton, if_neg (by simpa using hNotClose),
        if_neg (by simpa using hNotOpen)]
      exact ⟨hDepth, rfl⟩

/-
  A body ends with the bracket that closes the last open one, or
  it takes the whole text and leaves some open.
-/
theorem bracketSpan_ends
    {k : Cursor}
    {depth : Nat}
    (hDepth : 1 ≤ depth)
    (cs : List Char) :
    let found := bracketSpan k depth cs
    (∃ inner, found.body = inner ++ [']'] ∧
        (k.code found.body).count ']' = depth + (k.code found.body).count '[') ∨
      found.rest = [] ∧
        (k.code found.body).count ']' < depth + (k.code found.body).count '[' := by
  induction cs generalizing k depth with
  | nil => exact Or.inr ⟨rfl, hDepth⟩
  | cons c cs ih =>
      cases hStep : bracketStep k depth c with
      | none =>
          rcases code_of_closes hStep with ⟨hOne, rfl, hCode⟩
          obtain rfl : depth = 1 := by omega
          rw [bracketSpan_of_closes hStep]
          exact Or.inl ⟨[], rfl, by rw [hCode]; rfl⟩
      | some onward =>
          rcases onward with ⟨deeper, colon⟩
          rcases count_of_continues hDepth hStep with ⟨hDeeper, hCount⟩
          rw [bracketSpan_of_continues hStep, BracketSpan.push]
          have hCode := Cursor.code_append k [c] (bracketSpan (k.next c) deeper cs).body
          rw [List.singleton_append, Cursor.run_cons, Cursor.run_nil] at hCode
          simp only [hCode, List.count_append]
          rcases ih (k := k.next c) hDeeper with ⟨inner, hBody, hEqual⟩ | ⟨hRest, hLess⟩
          · exact Or.inl ⟨c :: inner, by rw [hBody, List.cons_append], by omega⟩
          · exact Or.inr ⟨hRest, by omega⟩

/- Behind an opening bracket a text stays open where it closes no other one. -/
theorem staysOpen_cons
    {text : List Char}
    (hOpen : ∀ front, front <+: text →
      (Cursor.outside.code front).count ']' < 1 + (Cursor.outside.code front).count '[') :
    StaysOpen ('[' :: text) := by
  intro front hPrefix hSome
  rcases front with _ | ⟨c, front⟩
  · exact absurd rfl hSome
  rcases List.cons_prefix_cons.mp hPrefix with ⟨rfl, hFront⟩
  have hLess := hOpen front hFront
  rw [Cursor.code_cons_of_code rfl, List.count_cons_of_ne (by decide), List.count_cons_self]
  have hNext : Cursor.outside.next '[' = .outside := rfl
  rw [hNext]
  omega

/- A bracketed access has a body that is closed, or one that takes the whole text. -/
theorem bracketed_or_unclosed
    (inner : List Char) :
    let found := bracketSpan .outside 0 ('[' :: inner)
    IsBracketed found.body ∨ found.rest = [] ∧ IsUnclosed found.body := by
  have hNext : Cursor.outside.next '[' = .outside := rfl
  have hFront : ∀ front c behind,
      (bracketSpan .outside 1 inner).body = front ++ c :: behind →
      (Cursor.outside.code front).count ']' < 1 + (Cursor.outside.code front).count '[' :=
    fun _ _ _ hBody => count_lt_of_body le_rfl hBody
  rw [bracketSpan_open]
  rcases bracketSpan_ends (k := .outside) le_rfl inner with
    ⟨body, hBody, hEqual⟩ | ⟨hRest, hLess⟩
  · left
    refine ⟨body, congrArg ('[' :: ·) hBody, staysOpen_cons ?_, ?_⟩
    · rintro front ⟨middle, rfl⟩
      have hSome : middle ++ [']'] ≠ [] := by simp
      rcases List.exists_cons_of_ne_nil hSome with ⟨c, behind, hBehind⟩
      exact hFront front c behind (by rw [hBody, List.append_assoc, hBehind])
    · rw [BracketSpan.push, Cursor.code_cons_of_code rfl, hNext,
        List.count_cons_of_ne (by decide), List.count_cons_self, hEqual, Nat.add_comm]
  · right
    refine ⟨hRest, rfl, staysOpen_cons ?_⟩
    rintro front ⟨behind, hBody⟩
    rcases behind with _ | ⟨c, behind⟩
    · rw [List.append_nil] at hBody
      rw [hBody]
      exact hLess
    · exact hFront front c behind hBody.symm

end Access

------------------------------------------------------------
-- Forms
------------------------------------------------------------

/- The text of a form that is complete, without the question mark that may follow. -/
def DotForm.Spelled
    (text : List Char) : DotForm → Prop
  | identity => text = ['.']
  | recursiveDescent => text = ['.', '.']
  | iterate _ => text = ['.', '[', ']']
  | index _ => ∃ body, Access.IsBracketed body ∧ body ≠ ['[', ']'] ∧ text = '.' :: body
  | slice _ => ∃ body, Access.IsBracketed body ∧ body ≠ ['[', ']'] ∧ text = '.' :: body
  | field _ => ∃ name, IsName name ∧ text = '.' :: name
  | fieldIterate _ => ∃ name, IsName name ∧ text = '.' :: (name ++ ['[', ']'])

/- The text of an index or a slice that lacks its closing bracket. -/
def DotForm.LeftOpen
    (text : List Char)
    (form : DotForm) : Prop :=
  (form = .index false ∨ form = .slice false) ∧
    ∃ body, Access.IsUnclosed body ∧ text = '.' :: body

/-
  The text of a form: complete and with its question mark, if it
  has one, or left open in the last token.
-/
def DotForm.IsWritten
    (isLast : Prop)
    (text : List Char)
    (form : DotForm) : Prop :=
  (∃ front, form.Spelled front ∧
      text = front ++ Access.mark (form.suppressed?.getD false)) ∨
    isLast ∧ form.LeftOpen text

namespace Access

/- An access that is read to its end is written as its form says. -/
theorem Fits.isWritten
    {path : Access}
    {rest : List Char}
    (hFits : path.Fits rest) :
    path.form.IsWritten (rest = []) path.text := by
  cases path with
  | identity => exact Or.inl ⟨_, rfl, rfl⟩
  | recursiveDescent => exact Or.inl ⟨_, rfl, rfl⟩
  | iterate suppressed => exact Or.inl ⟨_, rfl, rfl⟩
  | bracket body slice suppressed =>
      rcases hFits with ⟨inner, hHead, hSpan, hMark⟩
      have hEnds := bracketed_or_unclosed inner
      rw [hSpan] at hEnds
      rcases hEnds with hClosed | ⟨hRest, hOpen⟩
      · have hBody : body ≠ ['[', ']'] := by
          rintro rfl
          have hWhole := body_append_rest .outside 0 ('[' :: inner)
          rw [hSpan] at hWhole
          rw [← List.tail_eq_of_cons_eq hWhole] at hHead
          exact hHead rfl
        left
        refine ⟨'.' :: body, ?_, ?_⟩
        · cases slice <;> exact ⟨body, hClosed, hBody, rfl⟩
        · cases slice <;> rfl
      · rcases List.append_eq_nil_iff.mp hRest with ⟨hNone, hLast⟩
        have hSuppressed : suppressed = false := by
          cases suppressed with
          | false => rfl
          | true => exact absurd hNone (List.cons_ne_nil _ _)
        subst hSuppressed
        right
        refine ⟨hLast, ?_, body, hOpen, by rw [text, hNone, List.append_nil]⟩
        cases slice
        · exact Or.inl rfl
        · exact Or.inr rfl
  | field name suppressed =>
      exact Or.inl ⟨_, ⟨name, ⟨hFits.1.1, hFits.1.2.1⟩, rfl⟩, rfl⟩
  | fieldIterate name suppressed =>
      refine Or.inl ⟨_, ⟨name, ⟨hFits.1.1, hFits.1.2.1⟩, rfl⟩, ?_⟩
      simp only [text, form, DotForm.suppressed?, Option.getD_some, List.cons_append,
        List.append_assoc, List.nil_append]

end Access

namespace DotForm

/- A complete form does not end with a question mark. -/
theorem Spelled.getLast?_ne
    {form : DotForm}
    {text : List Char}
    (hSpelled : form.Spelled text) :
    text.getLast? ≠ some '?' := by
  -- Both kinds of bracketed access end with their bracket.
  have hBracket : ∀ body, Access.IsBracketed body → ('.' :: body).getLast? ≠ some '?' := by
    rintro body ⟨inner, rfl, -⟩
    have hText : '.' :: '[' :: (inner ++ [']']) = ('.' :: '[' :: inner) ++ [']'] := rfl
    rw [hText, List.getLast?_concat]
    decide
  cases form with
  | identity =>
      rw [hSpelled]
      decide
  | recursiveDescent =>
      rw [hSpelled]
      decide
  | iterate suppressed =>
      rw [hSpelled]
      decide
  | index suppressed =>
      rcases hSpelled with ⟨body, hBody, -, rfl⟩
      exact hBracket body hBody
  | slice suppressed =>
      rcases hSpelled with ⟨body, hBody, -, rfl⟩
      exact hBracket body hBody
  | field suppressed =>
      rcases hSpelled with ⟨name, hName, rfl⟩
      intro hLast
      rcases List.mem_cons.mp (List.mem_of_getLast? hLast) with hDot | hMember
      · exact absurd hDot (by decide)
      · exact absurd (hName.2 _ hMember) (by decide)
  | fieldIterate suppressed =>
      rcases hSpelled with ⟨name, -, rfl⟩
      have hText : '.' :: (name ++ ['[', ']']) = ('.' :: (name ++ ['['])) ++ [']'] := by
        simp
      rw [hText, List.getLast?_concat]
      decide

/- An access without closing bracket is no complete form with more behind it. -/
theorem LeftOpen.not_spelled
    {form : DotForm}
    {text front behind : List Char}
    (hOpen : form.LeftOpen text)
    (hText : text = front ++ behind) :
    ¬ form.Spelled front := by
  rcases hOpen with ⟨hForm, body, hUnclosed, rfl⟩
  have hBracketed : form.Spelled front → ∃ inner, Access.IsBracketed inner ∧ front = '.' :: inner := by
    rcases hForm with rfl | rfl
    · rintro ⟨inner, hInner, -, hFront⟩
      exact ⟨inner, hInner, hFront⟩
    · rintro ⟨inner, hInner, -, hFront⟩
      exact ⟨inner, hInner, hFront⟩
  intro hSpelled
  rcases hBracketed hSpelled with ⟨inner, ⟨middle, hInner, -, hCount⟩, rfl⟩
  have hBody : body = inner ++ behind := List.tail_eq_of_cons_eq hText
  have hSome : inner ≠ [] := by
    rw [hInner]
    exact List.cons_ne_nil _ _
  have hLess := hUnclosed.2 inner ⟨behind, hBody.symm⟩ hSome
  omega

/- The form is suppressed exactly if its text is complete with a question mark behind it. -/
theorem IsWritten.suppressed_iff
    {isLast : Prop}
    {form : DotForm}
    {text : List Char}
    (hWritten : form.IsWritten isLast text) :
    form.suppressed? = some true ↔ ∃ front, form.Spelled front ∧ text = front ++ ['?'] := by
  rcases hWritten with ⟨front, hSpelled, hText⟩ | ⟨-, hOpen⟩
  · constructor
    · intro hSuppressed
      rw [hSuppressed] at hText
      exact ⟨front, hSpelled, hText⟩
    · rintro ⟨other, -, hOther⟩
      by_contra hSuppressed
      have hNone : Access.mark (form.suppressed?.getD false) = [] := by
        rcases hMark : form.suppressed? with _ | _ | _
        · rfl
        · rfl
        · exact absurd hMark hSuppressed
      rw [hNone, List.append_nil] at hText
      apply hSpelled.getLast?_ne
      rw [← hText, hOther, List.getLast?_concat]
  · constructor
    · intro hSuppressed
      rcases hOpen.1 with rfl | rfl
      · exact absurd hSuppressed (by decide)
      · exact absurd hSuppressed (by decide)
    · rintro ⟨front, hSpelled, hText⟩
      exact absurd hSpelled (hOpen.not_spelled hText)

end DotForm

------------------------------------------------------------
-- Tokens
------------------------------------------------------------

/-
  The lexical grammar: what text a token of a category may have,
  with a form or without one. What is left open may only stand
  in the last token.
-/
inductive IsLexical (isLast : Prop) : Category → Option DotForm → List Char → Prop where
  | space
      {text : List Char}
      (hSome : text ≠ [])
      (hBlanks : ∀ c ∈ text, Text.isBlank c = true) :
      IsLexical isLast .space none text
  | literal
      {body : List Char}
      (hBody : Quote.IsLiteralBody body) :
      IsLexical isLast .string none ('"' :: (body ++ ['"']))
  | openLiteral
      {body ending : List Char}
      (hLast : isLast)
      (hBody : Quote.IsLiteralBody body)
      (hEnding : ending = [] ∨ ending = ['\\']) :
      IsLexical isLast .string none ('"' :: (body ++ ending))
  | number
      {c : Char}
      {others : List Char}
      (hDigit : c.isDigit = true)
      (hOthers : ∀ d ∈ others, Lexeme.isNumberChar d = true) :
      IsLexical isLast .number none (c :: others)
  | var
      {name : List Char}
      (hName : ∀ c ∈ name, Text.isAsciiWord c = true) :
      IsLexical isLast .var none ('$' :: name)
  | format
      {name : List Char}
      (hName : ∀ c ∈ name, Text.isAsciiWord c = true) :
      IsLexical isLast .format none ('@' :: name)
  | longOperator
      {text : List Char}
      (hLong : text ∈ Lexeme.longOperators) :
      IsLexical isLast .operator none text
  | shortOperator
      {c : Char}
      (hShort : c ∈ Lexeme.shortOperators) :
      IsLexical isLast .operator none [c]
  | access
      {form : DotForm}
      {text : List Char}
      (hWritten : form.IsWritten isLast text) :
      IsLexical isLast form.category (some form) text
  | name
      {category : Category}
      {text : List Char}
      (hCategory : category ∈ Category.named)
      (hName : IsName text) :
      IsLexical isLast category none text
  | stray
      {c : Char}
      (hBlank : Text.isBlank c = false)
      (hWord : Text.isAsciiWord c = false)
      (hSign : c ∉ ['"', '$', '@', '.'])
      (hShort : c ∉ Lexeme.shortOperators) :
      IsLexical isLast .unknown none [c]

namespace Lexeme

/- A lexeme that is complete in front of a text fits its rule. -/
theorem Fits.isLexical
    {lexeme : Lexeme}
    {rest : List Char}
    (hFits : lexeme.Fits rest)
    (depth : Int) :
    IsLexical (rest = []) (lexeme.explain depth).category (lexeme.explain depth).form
      lexeme.text := by
  have hCategory := hFits.category_mem depth
  rw [form_explain]
  cases lexeme with
  | space text =>
      rw [List.mem_singleton.mp hCategory]
      exact .space hFits.1 hFits.2.1
  | literal text =>
      rcases hFits with ⟨tail, rfl, hSpan⟩
      rcases Quote.exists_body_span (tail ++ rest) with ⟨body, ending, hBody, hTail, hEnding⟩
      rw [hSpan] at hTail hEnding
      obtain rfl : tail = body ++ ending := hTail
      rw [List.mem_singleton.mp hCategory]
      rcases hEnding with rfl | ⟨hLast, hEnding⟩
      · exact .literal hBody
      · exact .openLiteral hLast hBody hEnding
  | number text =>
      rcases hFits with ⟨c, digits, rfl, hDigit, hDigits, -⟩
      rw [List.mem_singleton.mp hCategory]
      exact .number hDigit hDigits
  | var name =>
      rw [List.mem_singleton.mp hCategory]
      exact .var hFits.1
  | format name =>
      rw [List.mem_singleton.mp hCategory]
      exact .format hFits.1
  | operator text =>
      rw [List.mem_singleton.mp hCategory]
      rcases hFits with hLong | ⟨-, c, hShort, rfl⟩
      · exact .longOperator (mem_of_longOperator? hLong).1
      · exact .shortOperator hShort
  | access path =>
      rw [List.mem_singleton.mp hCategory]
      exact .access (Access.Fits.isWritten hFits)
  | word text => exact .name hCategory ⟨hFits.1, hFits.2.1⟩
  | stray c =>
      rcases hFits with ⟨hBlank, hSign, hWord, -, hShort⟩
      rw [List.mem_singleton.mp hCategory]
      exact .stray hBlank hWord hSign hShort

/- A digit at the front starts a number, wherever it stands. -/
theorem Fits.isNumber_of_isDigit
    {lexeme : Lexeme}
    {rest : List Char}
    {c : Char}
    (hFits : lexeme.Fits rest)
    (hHead : lexeme.text.head? = some c)
    (hDigit : c.isDigit = true) :
    lexeme.isNumber = true := by
  rcases hFits.exists_next hHead with ⟨cs, hNext⟩
  have hWord : Text.isAsciiWord c = true := by
    simp [Text.isAsciiWord, Char.isAlphanum, hDigit]
  have hQuote : c ≠ '"' := ne_of_isAsciiWord hWord (by decide)
  rw [next, if_neg (Bool.eq_false_iff.mp (Text.isBlank_of_isAsciiWord hWord)), if_neg hQuote,
    if_pos hDigit, Prod.mk.injEq] at hNext
  rw [← hNext.1]
  rfl

/- Directly in front of a digit that starts a lexeme no word ends. -/
theorem Fitting.getLast?_of_isDigit
    {front back : List Lexeme}
    {lexeme : Lexeme}
    {c d : Char}
    (hFitting : Fitting (front ++ lexeme :: back))
    (hHead : lexeme.text.head? = some c)
    (hDigit : c.isDigit = true)
    (hLast : (front.flatMap text).getLast? = some d) :
    Text.isAsciiWord d = false := by
  rcases List.eq_nil_or_concat front with rfl | ⟨others, previous, rfl⟩
  · exact absurd hLast (by simp)
  rw [List.concat_eq_append] at hFitting hLast
  rw [(fitting_append hFitting).1.getLast?_flatMap] at hLast
  rw [List.append_assoc, List.singleton_append] at hFitting
  have hPrevious := (fitting_append hFitting).2.1
  rw [← Bool.not_eq_true]
  intro hWord
  have hStops := hPrevious.stopsAt_digit hLast hWord c
  rw [List.flatMap_cons, List.head?_append, hHead, hDigit] at hStops
  exact absurd (hStops rfl) (by decide)

end Lexeme

/- Where a form is written, there is a dot at the front. -/
theorem DotForm.IsWritten.head?_eq
    {isLast : Prop}
    {form : DotForm}
    {text : List Char}
    (hWritten : form.IsWritten isLast text) :
    text.head? = some '.' := by
  rcases hWritten with ⟨front, hSpelled, rfl⟩ | ⟨-, -, body, -, rfl⟩
  · have hDot : front.head? = some '.' := by
      cases form with
      | identity => rw [hSpelled]; rfl
      | recursiveDescent => rw [hSpelled]; rfl
      | iterate suppressed => rw [hSpelled]; rfl
      | index suppressed => rcases hSpelled with ⟨body, -, -, rfl⟩; rfl
      | slice suppressed => rcases hSpelled with ⟨body, -, -, rfl⟩; rfl
      | field suppressed => rcases hSpelled with ⟨name, -, rfl⟩; rfl
      | fieldIterate suppressed => rcases hSpelled with ⟨name, -, rfl⟩; rfl
    rw [List.head?_append, hDot]
    rfl
  · rfl

/- By the rules a token with a form is written as the form says. -/
theorem IsLexical.isWritten
    {isLast : Prop}
    {category : Category}
    {form : DotForm}
    {text : List Char}
    (hLexical : IsLexical isLast category (some form) text) :
    form.IsWritten isLast text := by
  cases hLexical with
  | access hWritten => exact hWritten

/- By the rules exactly the tokens with a form start with a dot. -/
theorem IsLexical.isSome_form_iff
    {isLast : Prop}
    {category : Category}
    {form : Option DotForm}
    {text : List Char}
    (hLexical : IsLexical isLast category form text) :
    form.isSome = true ↔ text.head? = some '.' := by
  cases hLexical with
  | access hWritten => exact iff_of_true rfl hWritten.head?_eq
  | space hSome hBlanks =>
      refine iff_of_false Bool.false_ne_true fun hHead => ?_
      exact absurd (hBlanks '.' (List.mem_of_head? hHead)) (by decide)
  | literal hBody => exact iff_of_false Bool.false_ne_true (by simp)
  | openLiteral hLast hBody hEnding => exact iff_of_false Bool.false_ne_true (by simp)
  | number hDigit hOthers =>
      refine iff_of_false Bool.false_ne_true ?_
      rintro ⟨rfl⟩
      exact absurd hDigit (by decide)
  | var hName => exact iff_of_false Bool.false_ne_true (by simp)
  | format hName => exact iff_of_false Bool.false_ne_true (by simp)
  | longOperator hLong =>
      refine iff_of_false Bool.false_ne_true fun hHead => ?_
      rcases Lexeme.head?_of_mem_longOperators hLong with ⟨c, hFirst, -, hDot, -⟩
      rw [hHead, Option.some.injEq] at hFirst
      exact hDot hFirst.symm
  | shortOperator hShort =>
      refine iff_of_false Bool.false_ne_true ?_
      rintro ⟨rfl⟩
      exact (Lexeme.isMark_of_mem_shortOperators hShort).2.1 rfl
  | name hCategory hName =>
      refine iff_of_false Bool.false_ne_true fun hHead => ?_
      exact absurd (hName.2 '.' (List.mem_of_head? hHead)) (by decide)
  | stray hBlank hWord hSign hShort =>
      refine iff_of_false Bool.false_ne_true ?_
      rintro ⟨rfl⟩
      exact hSign (by decide)

------------------------------------------------------------
-- Tokens of a filter
------------------------------------------------------------

/-
  Every token of a filter, whatever the filter holds, fits the
  rule of its category, and only the last one may be left open.
  It has a form if it starts with a dot, which is suppressed if
  the text is that of the complete form with a question mark
  behind it. A token that starts with a digit is a number: no
  word ends directly in front of it.
-/
theorem tokenize_lexical
    (filter : String)
    (before behind : List Token)
    (token : Token)
    (hTokens : tokenize filter = before ++ token :: behind) :
    IsLexical (behind = []) token.category token.form token.text.toList ∧
      (token.form.isSome = true ↔ token.text.toList.head? = some '.') ∧
      (∀ form ∈ token.form,
        form.suppressed? = some true ↔
          ∃ front, form.Spelled front ∧ token.text.toList = front ++ ['?']) ∧
      (∀ c ∈ token.text.toList.head?, c.isDigit = true →
        token.category = .number ∧
          ∀ d ∈ (reconstruct before).toList.getLast?, Text.isAsciiWord d = false) := by
  have hFitting := Lexeme.fitting_scan filter.toList
  rcases exists_lexeme_of_explainAll hTokens with ⟨front, lexeme, back, hScan, rfl, rfl, rfl⟩
  rw [hScan] at hFitting
  have hBack := Lexeme.fitting_append hFitting |>.2
  have hLast : explainAll (Lexeme.depthAfterAll 0 (front ++ [lexeme])) back = [] ↔
      back.flatMap Lexeme.text = [] := by
    constructor
    · intro hNone
      cases back with
      | nil => rfl
      | cons other others => exact absurd hNone (List.cons_ne_nil _ _)
    · intro hNone
      rw [hBack.2.eq_nil hNone]
      rfl
  have hLexical := hBack.1.isLexical (Lexeme.depthAfterAll 0 front)
  rw [← propext hLast] at hLexical
  rw [Lexeme.text_explain, String.toList_ofList, toList_reconstruct_explainAll]
  refine ⟨hLexical, hLexical.isSome_form_iff, ?_, ?_⟩
  · intro form hForm
    rw [Option.mem_def] at hForm
    rw [hForm] at hLexical
    exact hLexical.isWritten.suppressed_iff
  · intro c hHead hDigit
    have hNumber := hBack.1.isNumber_of_isDigit hHead hDigit
    rcases Lexeme.exists_number_of_isNumber hNumber with ⟨text, rfl⟩
    exact ⟨rfl, fun d hEnd => hFitting.getLast?_of_isDigit hHead hDigit hEnd⟩

/-
  A name that ends with a digit, an access with a bracket in a
  literal, a number behind its question mark, and a literal that
  is left open by a backslash.
-/
theorem tokenize_lexical_openLiteral :
    ∃ name index number literal,
      tokenize "a1.[\"]?\"]?2\"x\\" = [name, index, number, literal] ∧
        IsLexical ([number, literal] = []) index.category index.form index.text.toList ∧
        index.form = some (.index true) ∧
        (∃ front, (DotForm.index true).Spelled front ∧ index.text.toList = front ++ ['?']) ∧
        number.category = .number ∧
        (∀ d ∈ (reconstruct [name, index]).toList.getLast?, Text.isAsciiWord d = false) ∧
        IsLexical (([] : List Token) = []) literal.category literal.form literal.text.toList := by
  have hTokens : tokenize "a1.[\"]?\"]?2\"x\\" =
      [(Lexeme.word ['a', '1']).explain 0,
        (Lexeme.access (.bracket ['[', '"', ']', '?', '"', ']'] false true)).explain 0,
        (Lexeme.number ['2']).explain 0,
        (Lexeme.literal ['"', 'x', '\\']).explain 0] := by
    decide +kernel
  have hIndex := tokenize_lexical _ [_] [_, _] _ hTokens
  have hNumber := tokenize_lexical _ [_, _] [_] _ hTokens
  have hLiteral := tokenize_lexical _ [_, _, _] [] _ hTokens
  have hTwo : '2' ∈ ((Lexeme.number ['2']).explain 0).text.toList.head? := by
    rw [Lexeme.text_explain, String.toList_ofList]
    rfl
  have hDigit := hNumber.2.2.2 '2' hTwo (by decide)
  exact ⟨_, _, _, _, hTokens, hIndex.1, rfl, (hIndex.2.2.1 _ rfl).mp rfl, hDigit.1, hDigit.2,
    hLiteral.1⟩

end JqLens

import JqLens.Token.Lexeme
import JqLens.Proofs.Quote
import JqLens.Proofs.TextRun

/-
  This file says what the scan takes from the front of a text:
  the text of a lexeme with the text behind it is the text that
  was read, and a lexeme fits in front of what is behind it,
  which is to say that it has the shape of its class and ends
  where nothing more can be added to it.

  Key definitions include:
    * `Access.Fits`
    * `Lexeme.Fits`

  Main results:
    * `Access.read_append`, `Access.read_fits`
    * `Lexeme.next_append`, `Lexeme.next_fits`
    * `Lexeme.not_mem_text`
    * `Lexeme.run_text`
    * `Lexeme.Fits.code_literal`
    * `Lexeme.Fits.getLast?_literal`
-/

namespace JqLens

------------------------------------------------------------
-- Characters of names
------------------------------------------------------------

/- A character that starts a name may stand in one. -/
theorem Lexeme.isAsciiWord_of_isNameStart
    {c : Char}
    (hStart : isNameStart c = true) :
    Text.isAsciiWord c = true := by
  simp only [isNameStart, Bool.or_eq_true] at hStart
  simp only [Text.isAsciiWord, Char.isAlphanum, Bool.or_eq_true]
  exact hStart.imp_left Or.inl

------------------------------------------------------------
-- Brackets
------------------------------------------------------------

namespace Access

open Quote (Cursor)

/- A question mark that belongs to an access is taken. -/
theorem mark_append_takeMark
    (cs : List Char) :
    mark (takeMark cs).1 ++ (takeMark cs).2 = cs := by
  unfold takeMark
  split
  · rfl
  · rfl

/- Where no question mark is taken, none comes next. -/
theorem head?_takeMark
    {cs : List Char}
    (hMark : (takeMark cs).1 = false) :
    (takeMark cs).2.head? ≠ some '?' := by
  unfold takeMark at hMark ⊢
  split at hMark
  · simp at hMark
  · next hHead =>
      intro hQuestion
      rcases cs with _ | ⟨c, rest⟩
      · simp at hQuestion
      · simp only [List.head?_cons, Option.some.injEq] at hQuestion
        exact hHead rest (by rw [hQuestion])

/- A bracketed body and what is behind it are the whole text. -/
theorem body_append_rest
    (k : Cursor)
    (depth : Nat)
    (cs : List Char) :
    (bracketSpan k depth cs).body ++ (bracketSpan k depth cs).rest = cs := by
  induction cs generalizing k depth with
  | nil => rfl
  | cons c cs ih =>
      unfold bracketSpan
      split
      · simp [BracketSpan.push, ih]
      split
      · simp [BracketSpan.push, ih]
      split
      · split
        · rfl
        · simp [BracketSpan.push, ih]
      · simp [BracketSpan.push, ih]

/- A bracketed body leaves the cursor outside unless it takes the whole text. -/
theorem run_body
    (k : Cursor)
    (depth : Nat)
    (cs : List Char) :
    k.run (bracketSpan k depth cs).body = .outside ∨
      (bracketSpan k depth cs).rest = [] := by
  induction cs generalizing k depth with
  | nil => exact Or.inr rfl
  | cons c cs ih =>
      unfold bracketSpan
      split
      · exact ih _ _
      next hCode =>
      split
      · exact ih _ _
      split
      · next hClose =>
          split
          · left
            rw [Bool.not_eq_true] at hCode
            rcases (Cursor.isLiteral_step_eq_false_iff k c).mp hCode with ⟨rfl, hQuote⟩
            exact Cursor.next_outside hQuote
          · exact ih _ _
      · exact ih _ _

/-
  In front of each character of a body at least one bracket is
  open: the body ends with the character that closes the last.
-/
theorem count_lt_of_body
    {k : Cursor}
    {depth : Nat}
    {cs before behind : List Char}
    {c : Char}
    (hDepth : 1 ≤ depth)
    (hBody : (bracketSpan k depth cs).body = before ++ c :: behind) :
    (k.code before).count ']' < depth + (k.code before).count '[' := by
  induction cs generalizing k depth before with
  | nil => simp [bracketSpan] at hBody
  | cons d cs ih =>
      rcases before with _ | ⟨e, before⟩
      · simp only [Cursor.code_nil, List.count_nil]
        omega
      unfold bracketSpan at hBody
      split at hBody
      · next hLiteral =>
          rw [BracketSpan.push, List.cons_append, List.cons.injEq] at hBody
          rw [← hBody.1, Cursor.code_cons_of_literal hLiteral]
          exact ih hDepth hBody.2
      next hCode =>
      rw [Bool.not_eq_true] at hCode
      split at hBody
      · next hOpen =>
          rw [BracketSpan.push, List.cons_append, List.cons.injEq] at hBody
          rw [← hBody.1, Cursor.code_cons_of_code hCode, hOpen,
            List.count_cons_of_ne (by decide), List.count_cons_self]
          have hInner := ih (Nat.le_add_left 1 depth) hBody.2
          rw [hOpen] at hInner
          omega
      next hNotOpen =>
      split at hBody
      · next hClose =>
          split at hBody
          · simp at hBody
          · next hDeeper =>
              rw [BracketSpan.push, List.cons_append, List.cons.injEq] at hBody
              rw [← hBody.1, Cursor.code_cons_of_code hCode, hClose,
                List.count_cons_self, List.count_cons_of_ne (by decide)]
              have hLess : 1 ≤ depth - 1 := by omega
              have hInner := ih hLess hBody.2
              rw [hClose] at hInner
              omega
      · next hNotClose =>
          rw [BracketSpan.push, List.cons_append, List.cons.injEq] at hBody
          rw [← hBody.1, Cursor.code_cons_of_code hCode,
            List.count_cons_of_ne hNotOpen, List.count_cons_of_ne hNotClose]
          exact ih hDepth hBody.2

end Access

------------------------------------------------------------
-- Path accesses
------------------------------------------------------------

namespace Access

/- A question mark in front of `rest` belongs to the access. -/
def MarkFits
    (suppressed : Bool)
    (rest : List Char) : Prop :=
  suppressed = false → rest.head? ≠ some '?'

/- A field name ends where no character of a name comes next. -/
def NameFits
    (name : List Char)
    (rest : List Char) : Prop :=
  name.head?.any Lexeme.isNameStart = true ∧
    (∀ c ∈ name, Text.isAsciiWord c = true) ∧
    StopsAt Text.isAsciiWord rest

/-
  An access has its shape and is complete when `rest` is behind
  it: no more of `rest` can belong to it.
-/
def Fits
    (rest : List Char) : Access → Prop
  | identity =>
      StopsAt (fun c => c == '[' || c == '.' || Lexeme.isNameStart c) rest
  | recursiveDescent => True
  | iterate suppressed => MarkFits suppressed rest
  | bracket body slice suppressed =>
      ∃ inner,
        inner.head? ≠ some ']' ∧
        bracketSpan .outside 0 ('[' :: inner) =
          ⟨body, slice, mark suppressed ++ rest⟩ ∧
        MarkFits suppressed rest
  | field name suppressed =>
      NameFits name (mark suppressed ++ rest) ∧
        ¬ ['[', ']'] <+: mark suppressed ++ rest ∧
        MarkFits suppressed rest
  | fieldIterate name suppressed =>
      NameFits name ('[' :: ']' :: (mark suppressed ++ rest)) ∧
        MarkFits suppressed rest

/- Reading an access loses nothing. -/
theorem read_append
    (cs : List Char) :
    (read cs).1.text ++ (read cs).2 = '.' :: cs := by
  unfold read
  split
  · next rest =>
      simp [text, mark_append_takeMark]
  · next rest _ =>
      simp [text, mark_append_takeMark, body_append_rest]
  · rfl
  · next c rest _ _ _ =>
      split
      · dsimp only
        have hRun :=
          List.takeWhile_append_dropWhile
            (p := Text.isAsciiWord) (l := c :: rest)
        split
        · next behind hDrop =>
            rw [hDrop] at hRun
            simp [text, mark_append_takeMark, hRun]
        · simp [text, mark_append_takeMark, hRun]
      · rfl
  · rfl

/- An access is read to its end. -/
theorem read_fits
    (cs : List Char) :
    (read cs).1.Fits (read cs).2 := by
  unfold read
  split
  · exact head?_takeMark
  · next rest hClosed =>
      refine ⟨rest, ?_, ?_, head?_takeMark⟩
      · intro hHead
        rcases rest with _ | ⟨c, rest⟩
        · simp at hHead
        · simp only [List.head?_cons, Option.some.injEq] at hHead
          exact hClosed rest (by rw [hHead])
      · rw [mark_append_takeMark]
  · trivial
  · next c rest hBracket hOpen hDot =>
      split
      · next hStart =>
          have hName : ∀ behind,
              (c :: rest).dropWhile Text.isAsciiWord = behind →
                NameFits ((c :: rest).takeWhile Text.isAsciiWord) behind := by
            intro behind hBehind
            refine ⟨?_, all_takeWhile _ _, hBehind ▸ stopsAt_dropWhile _ _⟩
            simp [Lexeme.isAsciiWord_of_isNameStart hStart, hStart]
          dsimp only
          split
          · next behind hDrop =>
              refine ⟨hName _ ?_, head?_takeMark⟩
              rw [mark_append_takeMark, hDrop]
          · next hNone =>
              refine ⟨hName _ ?_, ?_, head?_takeMark⟩
              · rw [mark_append_takeMark]
              · rw [mark_append_takeMark]
                rintro ⟨behind, hBehind⟩
                exact hNone behind hBehind.symm
      · next hStart =>
          intro d hHead
          simp only [List.head?_cons, Option.mem_some_iff] at hHead
          subst hHead
          have hSquare : c ≠ '[' := hOpen
          have hPoint : c ≠ '.' := hDot
          simp [hSquare, hPoint, Bool.eq_false_iff.mpr hStart]
  · intro c hHead
    simp at hHead

end Access

------------------------------------------------------------
-- Lexemes
------------------------------------------------------------

namespace Lexeme

/-
  A lexeme has the shape of its class and is complete when
  `rest` is behind it: no more of `rest` can belong to it, and
  no class that is tried before could take its first character.
-/
def Fits
    (rest : List Char) : Lexeme → Prop
  | space text =>
      text ≠ [] ∧ (∀ c ∈ text, Text.isBlank c = true) ∧
        StopsAt Text.isBlank rest
  | literal text =>
      ∃ body, text = '"' :: body ∧
        Quote.span .inside (body ++ rest) = (body, rest)
  | number text =>
      ∃ c digits, text = c :: digits ∧
        c.isDigit = true ∧
        (∀ d ∈ digits, isNumberChar d = true) ∧
        StopsAt isNumberChar rest
  | var name =>
      (∀ c ∈ name, Text.isAsciiWord c = true) ∧
        StopsAt Text.isAsciiWord rest
  | format name =>
      (∀ c ∈ name, Text.isAsciiWord c = true) ∧
        StopsAt Text.isAsciiWord rest
  | operator text =>
      longOperator? (text ++ rest) = some text ∨
        longOperator? (text ++ rest) = none ∧
          ∃ c ∈ shortOperators, text = [c]
  | access path => path.Fits rest
  | word text =>
      Access.NameFits text rest
  | stray c =>
      Text.isBlank c = false ∧
        c ∉ ['"', '$', '@', '.'] ∧
        Text.isAsciiWord c = false ∧
        longOperator? (c :: rest) = none ∧
        c ∉ shortOperators

/- The long operator that a text starts with is one of the list. -/
theorem mem_of_longOperator?
    {cs long : List Char}
    (hLong : longOperator? cs = some long) :
    long ∈ longOperators ∧ long <+: cs := by
  have hPrefix := List.find?_some hLong
  exact ⟨List.mem_of_find?_eq_some hLong, List.isPrefixOf_iff_prefix.mp hPrefix⟩

/- The long operator that a text starts with, and what is behind it. -/
theorem longOperator?_append_drop
    {c : Char}
    {cs long : List Char}
    (hLong : longOperator? (c :: cs) = some long) :
    long ++ cs.drop (long.length - 1) = c :: cs := by
  rcases mem_of_longOperator? hLong with ⟨hMember, behind, hPrefix⟩
  rcases long with _ | ⟨d, ds⟩
  · simp [longOperators] at hMember
  · rw [List.cons_append, List.cons.injEq] at hPrefix
    rw [← hPrefix.1, ← hPrefix.2]
    simp

/- Reading a lexeme loses nothing. -/
theorem next_append
    (c : Char)
    (cs : List Char) :
    (next c cs).1.text ++ (next c cs).2 = c :: cs := by
  unfold next
  split
  · simp [text, List.takeWhile_append_dropWhile]
  split
  · simp [text, Quote.span_append]
  split
  · simp [text, List.takeWhile_append_dropWhile]
  split
  · next hDollar =>
      simp [text, List.takeWhile_append_dropWhile, hDollar]
  split
  · next hAt =>
      simp [text, List.takeWhile_append_dropWhile, hAt]
  split
  · next long hLong => exact longOperator?_append_drop hLong
  split
  · next hDot =>
      rw [hDot]
      exact Access.read_append cs
  split
  · rfl
  split
  · simp [text, List.takeWhile_append_dropWhile]
  · rfl

/- A lexeme is read to its end. -/
theorem next_fits
    (c : Char)
    (cs : List Char) :
    (next c cs).1.Fits (next c cs).2 := by
  unfold next
  split
  · next hBlank =>
      refine ⟨by simp, ?_, stopsAt_dropWhile _ _⟩
      intro d hMember
      rcases List.mem_cons.mp hMember with rfl | hMember
      · exact hBlank
      · exact all_takeWhile _ _ _ hMember
  next hBlank =>
  split
  · next hQuote =>
      refine ⟨(Quote.span .inside cs).1, by simp [hQuote], ?_⟩
      rw [Quote.span_append]
  next hQuote =>
  split
  · next hDigit =>
      exact ⟨c, _, rfl, hDigit, all_takeWhile _ _, stopsAt_dropWhile _ _⟩
  next hDigit =>
  split
  · exact ⟨all_takeWhile _ _, stopsAt_dropWhile _ _⟩
  next hDollar =>
  split
  · exact ⟨all_takeWhile _ _, stopsAt_dropWhile _ _⟩
  next hAt =>
  split
  · next long hLong =>
      left
      rw [longOperator?_append_drop hLong]
      exact hLong
  next hLong =>
  split
  · exact Access.read_fits cs
  next hDot =>
  split
  · next hShort =>
      right
      exact ⟨hLong, c, by simpa using hShort, rfl⟩
  next hShort =>
  split
  · next hStart =>
      have hWord := isAsciiWord_of_isNameStart hStart
      refine ⟨by simp [hStart], ?_, stopsAt_dropWhile _ _⟩
      intro d hMember
      rcases List.mem_cons.mp hMember with rfl | hMember
      · exact hWord
      · exact all_takeWhile _ _ _ hMember
  next hStart =>
    refine ⟨by simpa using hBlank, by simp [hQuote, hDollar, hAt, hDot], ?_, hLong,
      by simpa using hShort⟩
    simp only [isNameStart, Bool.or_eq_true, not_or, Bool.not_eq_true] at hStart
    simp [Text.isAsciiWord, Char.isAlphanum, hStart, hDigit]

------------------------------------------------------------
-- Characters of lexemes
------------------------------------------------------------

/- A character of no blank run, number, word or sign of a path access. -/
def isForeign (c : Char) : Bool :=
  !(Text.isBlank c || isNumberChar c || Text.isAsciiWord c ||
    ['$', '@', '.', '?', '[', ']'].contains c)

/- Only these lexemes have no foreign characters in them. -/
def isPlain : Lexeme → Bool
  | literal _ => false
  | operator _ => false
  | access (.bracket _ _ _) => false
  | stray _ => false
  | _ => true

/- A character of no number, word or sign of a path access, though perhaps a blank. -/
def isStrange (c : Char) : Bool :=
  !(isNumberChar c || Text.isAsciiWord c || ['$', '@', '.', '?', '[', ']'].contains c)

theorem not_mem_text_of_strange
    {lexeme : Lexeme}
    {rest : List Char}
    {c : Char}
    (hFits : lexeme.Fits rest)
    (hPlain : lexeme.isPlain = true)
    (hStrange : isStrange c = true)
    (hSpace : ∀ text, lexeme = space text → Text.isBlank c = false) :
    c ∉ lexeme.text := by
  simp only [isStrange, Bool.not_eq_true', Bool.or_eq_false_iff, List.contains_eq_mem,
    decide_eq_false_iff_not, List.mem_cons, not_or] at hStrange
  rcases hStrange with ⟨⟨hNumber, hWord⟩, hDollar, hAt, hDot, hQuestion, hOpen, hClose, -⟩
  have hMark : ∀ suppressed, c ∉ Access.mark suppressed := by
    intro suppressed
    cases suppressed <;> simp [Access.mark, hQuestion]
  cases lexeme with
  | space text => exact not_mem_of_all (hSpace text rfl) hFits.2.1
  | literal text => simp [isPlain] at hPlain
  | number text =>
      rcases hFits with ⟨d, digits, rfl, hDigit, hDigits, -⟩
      rw [text, List.mem_cons, not_or]
      refine ⟨?_, not_mem_of_all hNumber hDigits⟩
      rintro rfl
      simp [isNumberChar, hDigit] at hNumber
  | var name =>
      rw [text, List.mem_cons, not_or]
      exact ⟨hDollar, not_mem_of_all hWord hFits.1⟩
  | format name =>
      rw [text, List.mem_cons, not_or]
      exact ⟨hAt, not_mem_of_all hWord hFits.1⟩
  | operator text => simp [isPlain] at hPlain
  | access path =>
      cases path with
      | identity => simp [text, Access.text, hDot]
      | recursiveDescent => simp [text, Access.text, hDot]
      | iterate suppressed => simp [text, Access.text, hDot, hOpen, hClose, hMark]
      | bracket body slice suppressed => simp [isPlain] at hPlain
      | field name suppressed =>
          have hName : c ∉ name := not_mem_of_all hWord hFits.1.2.1
          simp [text, Access.text, hDot, hName, hMark]
      | fieldIterate name suppressed =>
          have hName : c ∉ name := not_mem_of_all hWord hFits.1.2.1
          simp [text, Access.text, hDot, hOpen, hClose, hName, hMark]
  | word text => exact not_mem_of_all hWord hFits.2.1
  | stray c => simp [isPlain] at hPlain

theorem not_mem_text
    {lexeme : Lexeme}
    {rest : List Char}
    {c : Char}
    (hFits : lexeme.Fits rest)
    (hPlain : lexeme.isPlain = true)
    (hForeign : isForeign c = true) :
    c ∉ lexeme.text := by
  simp only [isForeign, Bool.not_eq_true', Bool.or_eq_false_iff] at hForeign
  apply not_mem_text_of_strange hFits hPlain
  · simp only [isStrange, hForeign, Bool.or_self, Bool.not_false]
  · exact fun _ _ => hForeign.1.1.1

/- Only string literals and bracketed bodies may hold quotes. -/
def mayQuote : Lexeme → Bool
  | literal _ => true
  | access (.bracket _ _ _) => true
  | _ => false

/- The other lexemes are filter code throughout. -/
theorem quote_not_mem_text
    {lexeme : Lexeme}
    {rest : List Char}
    (hFits : lexeme.Fits rest)
    (hCode : lexeme.mayQuote = false) :
    '"' ∉ lexeme.text := by
  cases hPlain : lexeme.isPlain with
  | true => exact not_mem_text hFits hPlain (by decide)
  | false =>
      match lexeme, hPlain, hCode with
      | operator text, _, _ =>
          rcases hFits with hLong | ⟨-, c, hShort, rfl⟩
          · have hNone : ∀ long ∈ longOperators, '"' ∉ long := by decide
            exact hNone _ (mem_of_longOperator? hLong).1
          · have hNone : '"' ∉ shortOperators := by decide
            intro hMember
            rw [List.mem_singleton.mp hMember] at hNone
            exact hNone hShort
      | stray c, _, _ =>
          have hNot : c ≠ '"' := by
            rintro rfl
            exact absurd hFits.2.1 (by decide)
          simpa [text] using Ne.symm hNot

/-
  A lexeme that starts outside every literal ends outside every
  literal, unless nothing is behind it.
-/
theorem run_text
    {lexeme : Lexeme}
    {rest : List Char}
    (hFits : lexeme.Fits rest) :
    Quote.Cursor.outside.run lexeme.text = .outside ∨ rest = [] := by
  cases hQuotes : lexeme.mayQuote with
  | false =>
      left
      exact Quote.Cursor.run_outside (quote_not_mem_text hFits hQuotes)
  | true =>
      match lexeme, hQuotes with
      | literal text, _ =>
          rcases hFits with ⟨body, rfl, hSpan⟩
          have hRun := Quote.run_span .inside (body ++ rest)
          rw [hSpan] at hRun
          exact hRun
      | access (.bracket body slice suppressed), _ =>
          rcases hFits with ⟨inner, -, hSpan, -⟩
          have hRun := Access.run_body .outside 0 ('[' :: inner)
          rw [hSpan] at hRun
          rcases hRun with hRun | hRest
          · left
            have hMark : '"' ∉ Access.mark suppressed := by
              cases suppressed <;> decide
            rw [text, Access.text, Quote.Cursor.run_cons,
              Quote.Cursor.next_outside (by decide), Quote.Cursor.run_append, hRun]
            exact Quote.Cursor.run_outside hMark
          · right
            exact (List.append_eq_nil_iff.mp hRest).2

/- Nothing of a literal is filter code. -/
theorem Fits.code_literal
    {text rest : List Char}
    (hFits : (literal text).Fits rest) :
    Quote.Cursor.outside.code text = [] := by
  rcases hFits with ⟨body, rfl, hSpan⟩
  have hBody := Quote.code_span (k := .inside) rfl (body ++ rest)
  rw [hSpan] at hBody
  rw [Quote.Cursor.code_cons_of_literal rfl]
  exact hBody

/- A literal that is closed ends with a quote. -/
theorem Fits.getLast?_literal
    {text rest : List Char}
    (hFits : (literal text).Fits rest)
    (hRun : Quote.Cursor.outside.run text = .outside) :
    text.getLast? = some '"' := by
  rcases hFits with ⟨body, rfl, hSpan⟩
  have hBody : Quote.Cursor.inside.run (Quote.span .inside (body ++ rest)).1 = .outside →
      (Quote.span .inside (body ++ rest)).1.getLast? = some '"' :=
    Quote.getLast?_span rfl
  rw [hSpan] at hBody
  rw [List.getLast?_cons, hBody hRun]
  rfl

end Lexeme

end JqLens

import JqLens.Proofs.Explain
import JqLens.Proofs.Rescan

/-
  This file proves that the scan need not look back. One might
  have each lexeme look at the character in front of it and let
  a digit start a number only where no word ends; but every
  lexeme that ends like a word has taken the digits behind it.

  Key definitions include:
    * `Lexeme.isNumber`
    * `Lexeme.nextBehind`
    * `Lexeme.scanBehind`

  Main results:
    * `Access.getLast?_body`
    * `Lexeme.Fits.stopsAt_word`
    * `Lexeme.Fits.stopsAt_digit`
    * `Lexeme.scanBehind_eq_scan`
    * `tokenize_eq_scanBehind`
-/

namespace JqLens

------------------------------------------------------------
-- Ends of path accesses
------------------------------------------------------------

namespace Access

/- Only a bracket ends a body. -/
theorem eq_of_bracketStep
    {k : Quote.Cursor}
    {depth : Nat}
    {c : Char}
    (hStep : bracketStep k depth c = none) :
    c = ']' := by
  unfold bracketStep at hStep
  split at hStep
  · exact absurd hStep (by simp)
  split at hStep
  · exact absurd hStep (by simp)
  split at hStep
  · assumption
  · exact absurd hStep (by simp)

/- A body ends with a bracket unless it takes the whole text. -/
theorem getLast?_body
    (k : Quote.Cursor)
    (depth : Nat)
    (cs : List Char) :
    (bracketSpan k depth cs).body.getLast? = some ']' ∨ (bracketSpan k depth cs).rest = [] := by
  induction cs generalizing k depth with
  | nil => exact Or.inr rfl
  | cons c cs ih =>
      cases hStep : bracketStep k depth c with
      | none =>
          left
          rw [bracketSpan_of_closes hStep, ← eq_of_bracketStep hStep]
          rfl
      | some onward =>
          rw [bracketSpan_of_continues hStep, BracketSpan.push, List.getLast?_cons]
          exact (ih _ _).imp_left fun hEnd => congrArg (fun last => some (last.getD c)) hEnd

/- A text with a question mark behind it does not end like a word. -/
theorem getLast?_append_mark
    {text : List Char}
    {suppressed : Bool}
    {c : Char}
    (hWord : Text.isAsciiWord c = true)
    (hLast : (text ++ mark suppressed).getLast? = some c) :
    suppressed = false ∧ text.getLast? = some c := by
  cases suppressed with
  | false => simpa [mark] using hLast
  | true =>
      rw [mark, if_pos rfl, List.getLast?_concat, Option.some.injEq] at hLast
      rw [← hLast] at hWord
      exact absurd hWord (by decide)

end Access

------------------------------------------------------------
-- Ends of lexemes
------------------------------------------------------------

namespace Lexeme

/- A number. -/
def isNumber : Lexeme → Bool
  | number _ => true
  | _ => false

theorem exists_number_of_isNumber
    {lexeme : Lexeme}
    (hNumber : lexeme.isNumber = true) :
    ∃ text, lexeme = number text := by
  cases lexeme with
  | number text => exact ⟨text, rfl⟩
  | _ => cases hNumber

/-
  No character of a word comes next behind a lexeme that ends
  like a word, numbers apart.
-/
theorem Fits.stopsAt_word
    {lexeme : Lexeme}
    {rest : List Char}
    {c : Char}
    (hFits : lexeme.Fits rest)
    (hNumber : lexeme.isNumber = false)
    (hLast : lexeme.text.getLast? = some c)
    (hWord : Text.isAsciiWord c = true) :
    StopsAt Text.isAsciiWord rest := by
  cases lexeme with
  | space text =>
      have hBlank := hFits.2.1 c (List.mem_of_getLast? hLast)
      rw [Text.isBlank_of_isAsciiWord hWord] at hBlank
      exact Bool.noConfusion hBlank
  | literal text =>
      rcases run_text hFits with hRun | rfl
      · rw [Lexeme.text, hFits.getLast?_literal hRun] at hLast
        rw [← Option.some.inj hLast] at hWord
        exact absurd hWord (by decide)
      · exact fun _ hHead => absurd hHead (by simp)
  | number text => exact Bool.noConfusion hNumber
  | var name => exact hFits.2
  | format name => exact hFits.2
  | operator text =>
      rcases hFits with hLong | ⟨-, d, hShort, rfl⟩
      · have hAll : (longOperators.all fun long =>
            long.getLast?.all fun c => !Text.isAsciiWord c) = true := by
          decide
        have hEnd := List.all_eq_true.mp hAll text (mem_of_longOperator? hLong).1
        rw [Lexeme.text] at hLast
        rw [hLast, Option.all_some, hWord] at hEnd
        exact Bool.noConfusion hEnd
      · obtain rfl : d = c := Option.some.inj hLast
        rw [(isMark_of_mem_shortOperators hShort).2.2] at hWord
        exact Bool.noConfusion hWord
  | access path =>
      cases path with
      | identity =>
          rw [← Option.some.inj hLast] at hWord
          exact absurd hWord (by decide)
      | recursiveDescent =>
          rw [← Option.some.inj hLast] at hWord
          exact absurd hWord (by decide)
      | iterate suppressed =>
          have hText : (['.', '[', ']'] ++ Access.mark suppressed).getLast? = some c := hLast
          have hEnd := (Access.getLast?_append_mark hWord hText).2
          rw [← Option.some.inj hEnd] at hWord
          exact absurd hWord (by decide)
      | bracket body slice suppressed =>
          have hText : ('.' :: body ++ Access.mark suppressed).getLast? = some c := hLast
          rcases Access.getLast?_append_mark hWord hText with ⟨rfl, hEnd⟩
          rcases hFits with ⟨inner, -, hSpan, -⟩
          have hBody := Access.getLast?_body .outside 0 ('[' :: inner)
          rw [hSpan] at hBody
          rcases hBody with hBracket | hNone
          · rw [List.getLast?_cons, hBracket] at hEnd
            rw [← Option.some.inj hEnd] at hWord
            exact absurd hWord (by decide)
          · have hRest : rest = [] := hNone
            rw [hRest]
            exact fun _ hHead => absurd hHead (by simp)
      | field name suppressed =>
          have hText : ('.' :: name ++ Access.mark suppressed).getLast? = some c := hLast
          rcases Access.getLast?_append_mark hWord hText with ⟨rfl, -⟩
          exact hFits.1.2.2
      | fieldIterate name suppressed =>
          have hText : ('.' :: (name ++ ['[']) ++ [']'] ++ Access.mark suppressed).getLast? =
              some c := by
            simpa [Lexeme.text, Access.text] using hLast
          have hEnd := (Access.getLast?_append_mark hWord hText).2
          rw [List.getLast?_concat] at hEnd
          rw [← Option.some.inj hEnd] at hWord
          exact absurd hWord (by decide)
  | word text => exact hFits.2.2
  | stray d =>
      obtain rfl : d = c := Option.some.inj hLast
      rw [hFits.2.2.1] at hWord
      exact Bool.noConfusion hWord

/- No digit comes next behind a lexeme that ends like a word. -/
theorem Fits.stopsAt_digit
    {lexeme : Lexeme}
    {rest : List Char}
    {c : Char}
    (hFits : lexeme.Fits rest)
    (hLast : lexeme.text.getLast? = some c)
    (hWord : Text.isAsciiWord c = true) :
    StopsAt Char.isDigit rest := by
  intro d hHead
  cases hNumber : lexeme.isNumber with
  | false =>
      have hNot := hFits.stopsAt_word hNumber hLast hWord d hHead
      simp only [Text.isAsciiWord, Char.isAlphanum, Bool.or_eq_false_iff] at hNot
      exact hNot.1.2
  | true =>
      rcases exists_number_of_isNumber hNumber with ⟨text, rfl⟩
      rcases hFits with ⟨-, -, -, -, -, hNone⟩
      have hNot := hNone d hHead
      simp only [isNumberChar, Bool.or_eq_false_iff] at hNot
      exact hNot.1

------------------------------------------------------------
-- The scan with a look back
------------------------------------------------------------

/-
  The lexeme at the start of a text, where a digit directly
  behind a word starts no number.
-/
def nextBehind
    (previous : Option Char)
    (c : Char)
    (cs : List Char) : Lexeme × List Char :=
  if c.isDigit && previous.any Text.isAsciiWord then (stray c, cs)
  else next c cs

theorem length_nextBehind_le
    (previous : Option Char)
    (c : Char)
    (cs : List Char) :
    (nextBehind previous c cs).2.length ≤ cs.length := by
  unfold nextBehind
  split
  · exact Nat.le_refl _
  · exact length_next_le c cs

/- The lexemes of a text, each read with a look at the character in front of it. -/
def scanBehind (previous : Option Char) : List Char → List Lexeme
  | [] => []
  | c :: cs =>
      (nextBehind previous c cs).1 ::
        scanBehind (nextBehind previous c cs).1.text.getLast? (nextBehind previous c cs).2
termination_by cs => cs.length
decreasing_by
  have hShorter := length_nextBehind_le previous c cs
  simp only [List.length_cons]
  omega

/- There is no need to look back: no lexeme leaves a digit to start behind a word. -/
theorem scanBehind_eq_scan
    {previous : Option Char}
    {cs : List Char}
    (hStops : previous.any Text.isAsciiWord = true → StopsAt Char.isDigit cs) :
    scanBehind previous cs = scan cs := by
  induction cs using scan.induct generalizing previous with
  | case1 => rw [scanBehind, scan_nil]
  | case2 c cs ih =>
      have hNext : nextBehind previous c cs = next c cs := by
        apply if_neg
        rw [Bool.and_eq_true]
        rintro ⟨hDigit, hBehind⟩
        have hNone := hStops hBehind c rfl
        rw [hDigit] at hNone
        exact Bool.noConfusion hNone
      rw [scanBehind, hNext, scan_cons]
      apply congrArg
      apply ih
      intro hBehind
      rcases (Option.any_eq_true _ _).mp hBehind with ⟨d, hLast, hWord⟩
      exact (next_fits c cs).stopsAt_digit hLast hWord

end Lexeme

/- The tokens of a filter are those of the scan with a look back. -/
theorem tokenize_eq_scanBehind
    (filter : String) :
    tokenize filter = explainAll 0 (Lexeme.scanBehind none filter.toList) := by
  rw [Lexeme.scanBehind_eq_scan (by simp), tokenize]

end JqLens

import Mathlib.Algebra.Group.Nat.Even
import Mathlib.Data.List.DropRight
import Mathlib.Order.Bounds.Basic
import JqLens.Proofs.LexicalGrammar

/-
  This file says how far a string literal reaches: to the first
  quote behind the opening one that has an even number of
  backslashes directly in front of it, or to the end of the text
  if there is none. Inside a literal the cursor is escaped
  exactly behind an odd number of backslashes, so the quote that
  closes for the cursor, the first such quote and the end of the
  only complete literal in front of the text are the same.

  Key definitions include:
    * `Quote.endingBackslashes`
    * `Quote.ClosesAt`
    * `Quote.IsLiteral`
    * `Quote.Cursor.behindBackslashes`

  Main results:
    * `Quote.Cursor.run_of_stays`
    * `Quote.closesAt_cons_iff`
    * `Quote.isLeast_closesAt`, `Quote.not_closesAt_of_stays`
    * `Quote.exists_body_of_prefix`
    * `Quote.literalLength_matchingQuote`
-/

namespace JqLens

namespace Quote

------------------------------------------------------------
-- Closing quotes and complete literals
------------------------------------------------------------

/- How many backslashes a text ends with. -/
def endingBackslashes (text : List Char) : Nat :=
  (text.rtakeWhile (· == '\\')).length

/-
  The n-th character of a text is a quote but not the opening
  one, and the run of backslashes directly in front of it, back
  to the opening quote at most, has even length.
-/
def ClosesAt
    (text : List Char)
    (n : Nat) : Prop :=
  2 ≤ n ∧ text[n - 1]? = some '"' ∧
    Even (endingBackslashes (text.take (n - 1)).tail)

instance
    (text : List Char)
    (n : Nat) :
    Decidable (ClosesAt text n) := by
  unfold ClosesAt
  infer_instance

/- A complete literal: a body between two quotes. -/
def IsLiteral (text : List Char) : Prop :=
  ∃ body, IsLiteralBody body ∧ text = '"' :: (body ++ ['"'])

theorem endingBackslashes_concat_backslash
    (text : List Char) :
    endingBackslashes (text ++ ['\\']) = endingBackslashes text + 1 := by
  simp [endingBackslashes]

theorem endingBackslashes_concat_of_ne
    {c : Char}
    (hBackslash : c ≠ '\\')
    (text : List Char) :
    endingBackslashes (text ++ [c]) = 0 := by
  simp [endingBackslashes, hBackslash]

/- Behind the opening quote, a quote closes by what stands between the two. -/
theorem closesAt_cons_iff
    {cs : List Char}
    {n : Nat} :
    ClosesAt ('"' :: cs) n ↔
      ∃ front behind, cs = front ++ '"' :: behind ∧
        Even (endingBackslashes front) ∧ n = front.length + 2 := by
  constructor
  · rintro ⟨hTwo, hQuote, hEven⟩
    obtain ⟨m, rfl⟩ := Nat.exists_eq_add_of_le' hTwo
    have hHere : cs[m]? = some '"' := hQuote
    rcases List.getElem?_eq_some_iff.mp hHere with ⟨hInside, hChar⟩
    refine ⟨cs.take m, cs.drop (m + 1), ?_, hEven, ?_⟩
    · rw [← hChar, ← List.drop_eq_getElem_cons hInside, List.take_append_drop]
    · rw [List.length_take_of_le hInside.le]
  · rintro ⟨front, behind, rfl, hEven, rfl⟩
    refine ⟨Nat.le_add_left 2 _, ?_, ?_⟩
    · simp
    · simpa using hEven

------------------------------------------------------------
-- Backslashes and the cursor
------------------------------------------------------------

namespace Cursor

/- The cursor inside a literal behind a run of that many backslashes. -/
def behindBackslashes (n : Nat) : Cursor :=
  if Even n then .inside else .escaped

theorem behindBackslashes_eq_inside_iff
    {n : Nat} :
    behindBackslashes n = .inside ↔ Even n := by
  by_cases hEven : Even n
  · simp [behindBackslashes, hEven]
  · simp [behindBackslashes, hEven]

/- Each further backslash turns an unescaped cursor into an escaped one, and back. -/
theorem next_behindBackslashes
    (n : Nat) :
    (behindBackslashes n).next '\\' = behindBackslashes (n + 1) := by
  by_cases hEven : Even n
  · simp [behindBackslashes, Nat.even_add_one, hEven, next]
  · simp [behindBackslashes, Nat.even_add_one, hEven, next]

theorem inString_behindBackslashes
    (n : Nat) :
    (behindBackslashes n).inString = true := by
  by_cases hEven : Even n
  · simp [behindBackslashes, hEven, inString]
  · simp [behindBackslashes, hEven, inString]

/- Any other character in a literal that goes on leaves the cursor unescaped. -/
theorem next_of_goesOn
    {k : Cursor}
    {c : Char}
    (hIn : k.inString = true)
    (hGoesOn : (k.next c).inString = true)
    (hBackslash : c ≠ '\\') :
    k.next c = .inside := by
  by_cases hQuote : c = '"'
  · subst hQuote
    cases k with
    | outside => exact Bool.noConfusion hIn
    | inside => exact Bool.noConfusion hGoesOn
    | escaped => rfl
  · exact next_of_inString hIn hQuote hBackslash

/-
  As long as the literal goes on, the cursor behind one more
  character is again given by the backslashes at the end.
-/
theorem next_endingBackslashes
    {front : List Char}
    {c : Char}
    (hGoesOn : ((behindBackslashes (endingBackslashes front)).next c).inString = true) :
    (behindBackslashes (endingBackslashes front)).next c =
      behindBackslashes (endingBackslashes (front ++ [c])) := by
  by_cases hBackslash : c = '\\'
  · subst hBackslash
    rw [endingBackslashes_concat_backslash, next_behindBackslashes]
  · rw [endingBackslashes_concat_of_ne hBackslash,
      next_of_goesOn (inString_behindBackslashes _) hGoesOn hBackslash]
    exact (behindBackslashes_eq_inside_iff.mpr Even.zero).symm

/-
  Behind any part of a literal the cursor is escaped exactly if
  the part ends with an odd number of backslashes.
-/
theorem run_of_stays
    {front : List Char}
    (hStays : inside.stays front = true) :
    inside.run front = behindBackslashes (endingBackslashes front) := by
  induction front using List.reverseRecOn with
  | nil => exact (behindBackslashes_eq_inside_iff.mpr Even.zero).symm
  | append_singleton front c ih =>
      rw [stays_append, Bool.and_eq_true] at hStays
      rcases hStays with ⟨hFront, hLast⟩
      rw [ih hFront, stays_cons, Bool.and_eq_true] at hLast
      rw [run_append, ih hFront, run_cons, run_nil]
      exact next_endingBackslashes hLast.1

/- Where a quote does not close the literal, its backslashes are odd in number. -/
theorem not_even_of_stays
    {front behind : List Char}
    (hStays : inside.stays (front ++ '"' :: behind) = true) :
    ¬ Even (endingBackslashes front) := by
  intro hEven
  rw [stays_append, Bool.and_eq_true] at hStays
  rcases hStays with ⟨hFront, hQuote⟩
  rw [run_of_stays hFront, behindBackslashes_eq_inside_iff.mpr hEven] at hQuote
  exact Bool.noConfusion hQuote

end Cursor

open Cursor

------------------------------------------------------------
-- Bodies of literals
------------------------------------------------------------

namespace IsLiteralBody

variable {body : List Char}

/- No quote in a body closes the literal. -/
theorem stays
    (hBody : IsLiteralBody body) :
    inside.stays body = true := by
  induction hBody with
  | nil => rfl
  | plain hQuote hBackslash _ ih =>
      have hNext := next_of_inString (k := .inside) rfl hQuote hBackslash
      rw [stays_cons, hNext, ih]
      rfl
  | escape c _ ih => exact ih

/- Behind a body the cursor is not escaped. -/
theorem run
    (hBody : IsLiteralBody body) :
    inside.run body = .inside := by
  induction hBody with
  | nil => rfl
  | plain hQuote hBackslash _ ih =>
      rw [run_cons, next_of_inString (k := .inside) rfl hQuote hBackslash]
      exact ih
  | escape c _ ih => exact ih

theorem even_endingBackslashes
    (hBody : IsLiteralBody body) :
    Even (endingBackslashes body) := by
  rw [← behindBackslashes_eq_inside_iff, ← run_of_stays hBody.stays]
  exact hBody.run

/- A quote behind a body closes the literal. -/
theorem span_quote
    (hBody : IsLiteralBody body)
    (rest : List Char) :
    span .inside (body ++ '"' :: rest) = (body ++ ['"'], rest) := by
  rw [span_append_of_stays hBody.stays, hBody.run]
  rfl

theorem stays_quote
    (hBody : IsLiteralBody body)
    (rest : List Char) :
    inside.stays (body ++ '"' :: rest) = false := by
  rw [stays_append, hBody.stays, hBody.run]
  rfl

end IsLiteralBody

/- A complete literal in front of a text ends at a quote behind a body. -/
theorem exists_body_of_prefix
    {front cs : List Char}
    (hPrefix : front <+: '"' :: cs)
    (hLiteral : IsLiteral front) :
    ∃ body rest, IsLiteralBody body ∧
      cs = body ++ '"' :: rest ∧ front = '"' :: (body ++ ['"']) := by
  rcases hLiteral with ⟨body, hBody, rfl⟩
  rcases hPrefix with ⟨rest, hText⟩
  refine ⟨body, rest, hBody, ?_, rfl⟩
  rw [List.cons_append, List.append_assoc] at hText
  exact (List.tail_eq_of_cons_eq hText).symm

------------------------------------------------------------
-- The first closing quote
------------------------------------------------------------

/- The quote behind a body is the first that closes. -/
theorem isLeast_closesAt
    {body : List Char}
    (hBody : IsLiteralBody body)
    (rest : List Char) :
    IsLeast {n | ClosesAt ('"' :: (body ++ '"' :: rest)) n} (body.length + 2) := by
  constructor
  · exact closesAt_cons_iff.mpr ⟨body, rest, rfl, hBody.even_endingBackslashes, rfl⟩
  · intro n hCloses
    rcases closesAt_cons_iff.mp hCloses with ⟨front, behind, hText, hEven, rfl⟩
    rcases List.append_eq_append_iff.mp hText with
      ⟨middle, rfl, -⟩ | ⟨middle, rfl, hMiddle⟩
    · rw [List.length_append]
      omega
    · rcases middle with _ | ⟨c, middle⟩
      · rw [List.append_nil]
      · -- A quote within the body has an odd number of backslashes in front of it.
        obtain rfl : '"' = c := List.head_eq_of_cons_eq hMiddle
        exact absurd hEven (not_even_of_stays hBody.stays)

/- A literal that is never left has no quote that closes. -/
theorem not_closesAt_of_stays
    {cs : List Char}
    (hStays : inside.stays cs = true)
    (n : Nat) :
    ¬ ClosesAt ('"' :: cs) n := by
  intro hCloses
  rcases closesAt_cons_iff.mp hCloses with ⟨front, behind, rfl, hEven, -⟩
  exact not_even_of_stays hStays hEven

/- Behind an opening quote there is a body and a quote, or the literal is never left. -/
theorem exists_body_or_stays
    (cs : List Char) :
    (∃ body rest, IsLiteralBody body ∧ cs = body ++ '"' :: rest) ∨
      inside.stays cs = true ∧ (span .inside cs).1 = cs := by
  have hWhole := span_append .inside cs
  rcases exists_body_span cs with ⟨body, ending, hBody, hSpan, rfl | ⟨hRest, hEnding⟩⟩
  · left
    refine ⟨body, (span .inside cs).2, hBody, ?_⟩
    rw [hSpan, List.append_assoc] at hWhole
    exact hWhole.symm
  · right
    rw [hRest, List.append_nil] at hWhole
    refine ⟨?_, hWhole⟩
    rw [← hWhole, hSpan, stays_append, hBody.stays, hBody.run]
    rcases hEnding with rfl | rfl
    · rfl
    · rfl

/- The literal behind an opening quote has the length of what the scan takes. -/
theorem literalLength_quote
    (cs : List Char) :
    literalLength ('"' :: cs) = (span .inside cs).1.length + 1 := rfl

/-
  The length of the literal at the start of a text: the position
  of the first quote that closes, and then what is taken is the
  only complete literal in front of the text; or the length of
  the whole text, and then no quote closes and no complete
  literal is in front of the text.
-/
theorem literalLength_matchingQuote
    (cs : List Char) :
    let text := '"' :: cs
    (IsLeast {n | ClosesAt text n} (literalLength text) ∧
        ∀ front, front <+: text ∧ IsLiteral front ↔
          front = text.take (literalLength text)) ∨
      (∀ n, ¬ ClosesAt text n) ∧ literalLength text = text.length ∧
        ∀ front, ¬ (front <+: text ∧ IsLiteral front) := by
  intro text
  rcases exists_body_or_stays cs with ⟨body, rest, hBody, rfl⟩ | ⟨hStays, hSpan⟩
  · left
    have hLength : literalLength text = body.length + 2 := by
      rw [literalLength_quote, hBody.span_quote, List.length_append, List.length_singleton]
    have hText : '"' :: (body ++ ['"']) ++ rest = text := by
      simp [text]
    have hTake : text.take (body.length + 2) = '"' :: (body ++ ['"']) := by
      rw [← hText]
      exact List.take_left' (by simp)
    rw [hLength, hTake]
    refine ⟨isLeast_closesAt hBody rest, fun front => ⟨?_, ?_⟩⟩
    · rintro ⟨hPrefix, hLiteral⟩
      rcases exists_body_of_prefix hPrefix hLiteral with ⟨other, others, hOther, hOthers, rfl⟩
      -- The scan ends behind both bodies, so that they are the same.
      have hSame := hBody.span_quote rest
      rw [hOthers, hOther.span_quote] at hSame
      rw [(Prod.mk.inj hSame).1]
    · rintro rfl
      exact ⟨⟨rest, hText⟩, body, hBody, rfl⟩
  · right
    refine ⟨not_closesAt_of_stays hStays, ?_, ?_⟩
    · rw [literalLength_quote, hSpan, List.length_cons]
    · rintro front ⟨hPrefix, hLiteral⟩
      rcases exists_body_of_prefix hPrefix hLiteral with ⟨body, rest, hBody, rfl, -⟩
      rw [hBody.stays_quote] at hStays
      exact Bool.noConfusion hStays

/- Three backslashes escape the quote behind them, so the next one closes. -/
example :
    ¬ ClosesAt ['"', '\\', '\\', '\\', '"', '"', '"'] 5 ∧
      ClosesAt ['"', '\\', '\\', '\\', '"', '"', '"'] 6 ∧
      literalLength ['"', '\\', '\\', '\\', '"', '"', '"'] = 6 := by
  decide

end Quote

end JqLens

import JqLens.Text.Lines
import JqLens.Text.Split

/-
  This file ties splitting and joining of texts to those of the
  library, which undo each other, and says what the lines of a
  text are: the pieces between its line feeds, as far as it
  holds no carriage returns and does not end with a line feed.

  Main results:
    * `split_eq_splitOn`
    * `joinWith_eq_intercalate`
    * `lines_eq_splitOn`
    * `mem_of_mem_lines`
-/

namespace JqLens.Text

------------------------------------------------------------
-- Splitting and joining
------------------------------------------------------------

theorem split_eq_splitOn
    (separator : Char)
    (cs : List Char) :
    split separator cs = cs.splitOn separator := by
  induction cs with
  | nil => rfl
  | cons c cs ih =>
      rw [List.splitOn_cons_eq_if_modifyHead, split, ih]
      simp only [beq_iff_eq]
      split
      · rfl
      · cases hPieces : cs.splitOn separator with
        | nil => exact absurd hPieces (List.splitOn_ne_nil _ _)
        | cons piece pieces => rfl

theorem joinWith_eq_intercalate
    (separator : List Char)
    (pieces : List (List Char)) :
    joinWith separator pieces = separator.intercalate pieces := by
  induction pieces with
  | nil => rfl
  | cons piece pieces ih =>
      cases pieces with
      | nil => exact List.intercalate_singleton.symm
      | cons second pieces => rw [joinWith_cons_cons, List.intercalate_cons_cons, ih]

/- A last piece goes behind the others. -/
theorem joinWith_concat
    {separator : List Char}
    {pieces : List (List Char)}
    (hSome : pieces ≠ [])
    (last : List Char) :
    joinWith separator (pieces ++ [last]) = joinWith separator pieces ++ separator ++ last := by
  induction pieces with
  | nil => exact absurd rfl hSome
  | cons piece pieces ih =>
      cases pieces with
      | nil => rw [List.singleton_append, joinWith_cons_cons, joinWith, joinWith]
      | cons second pieces =>
          rw [List.cons_append, List.cons_append, joinWith_cons_cons, ← List.cons_append,
            ih (List.cons_ne_nil _ _), joinWith_cons_cons]
          simp only [List.append_assoc]

/- A joined text holds only characters of its pieces and of the separator. -/
theorem mem_of_mem_joinWith
    {separator : List Char}
    {pieces : List (List Char)}
    {c : Char}
    (hChar : c ∈ joinWith separator pieces) :
    c ∈ separator ∨ ∃ piece ∈ pieces, c ∈ piece := by
  induction pieces with
  | nil => simp [joinWith] at hChar
  | cons piece pieces ih =>
      cases pieces with
      | nil => exact .inr ⟨piece, List.mem_cons_self, hChar⟩
      | cons second pieces =>
          rw [joinWith_cons_cons, List.append_assoc, List.mem_append, List.mem_append] at hChar
          rcases hChar with hPiece | hSeparator | hRest
          · exact .inr ⟨piece, List.mem_cons_self, hPiece⟩
          · exact .inl hSeparator
          · rcases ih hRest with hSeparator | ⟨found, hFound, hInside⟩
            · exact .inl hSeparator
            · exact .inr ⟨found, List.mem_cons_of_mem _ hFound, hInside⟩

------------------------------------------------------------
-- Lines
------------------------------------------------------------

/- A line feed ends the line read so far. -/
theorem linesFrom_newline
    {line : List Char}
    (hReturn : line.head? ≠ some '\r')
    (cs : List Char) :
    linesFrom line ('\n' :: cs) = line.reverse :: linesFrom [] cs := by
  rw [linesFrom.eq_def]
  simp only [if_true]
  split
  · exact absurd rfl hReturn
  · rfl

/- So it does behind a carriage return, which goes with it. -/
theorem linesFrom_return_newline
    (line cs : List Char) :
    linesFrom ('\r' :: line) ('\n' :: cs) = line.reverse :: linesFrom [] cs := by
  rw [linesFrom, if_pos rfl]

/- Any other character goes to the line read so far. -/
theorem linesFrom_cons_of_ne
    {c : Char}
    (hOther : c ≠ '\n')
    (line cs : List Char) :
    linesFrom line (c :: cs) = linesFrom (c :: line) cs := by
  rw [linesFrom.eq_def]
  exact if_neg hOther

/- The lines of a text are its pieces, the first of them behind what has been read. -/
theorem linesFrom_eq_splitOn
    {line cs : List Char}
    (hLine : '\r' ∉ line)
    (hReturn : '\r' ∉ cs)
    (hLast : cs.getLast? ≠ some '\n')
    (hSome : line ≠ [] ∨ cs ≠ []) :
    linesFrom line cs = (cs.splitOn '\n').modifyHead (line.reverse ++ ·) := by
  induction cs generalizing line with
  | nil =>
      have hLine : line ≠ [] := hSome.resolve_right (not_not_intro rfl)
      simp [linesFrom, hLine]
  | cons c cs ih =>
      rw [List.mem_cons, not_or] at hReturn
      rw [List.splitOn_cons_eq_if_modifyHead]
      by_cases hNewline : c = '\n'
      · subst hNewline
        have hBehind : cs ≠ [] := by
          rintro rfl
          exact hLast rfl
        have hRest : cs.getLast? ≠ some '\n' := by
          rwa [List.getLast?_cons_of_ne_nil hBehind] at hLast
        have hHead : line.head? ≠ some '\r' := fun hHead => hLine (List.mem_of_head? hHead)
        rw [linesFrom_newline hHead, ih List.not_mem_nil hReturn.2 hRest (.inr hBehind)]
        cases cs.splitOn '\n' <;> simp
      · have hRest : cs.getLast? ≠ some '\n' := by
          intro hEnd
          rw [List.getLast?_cons, hEnd] at hLast
          exact hLast rfl
        have hFront : '\r' ∉ c :: line := by
          rw [List.mem_cons, not_or]
          exact ⟨hReturn.1, hLine⟩
        rw [linesFrom_cons_of_ne hNewline, ih hFront hReturn.2 hRest (.inl (List.cons_ne_nil _ _)),
          if_neg (by simpa using hNewline)]
        cases cs.splitOn '\n' <;> simp

/- The lines of a text that neither holds carriage returns nor ends with a line feed. -/
theorem lines_eq_splitOn
    {cs : List Char}
    (hSome : cs ≠ [])
    (hReturn : '\r' ∉ cs)
    (hLast : cs.getLast? ≠ some '\n') :
    lines cs = cs.splitOn '\n' := by
  rw [lines, linesFrom_eq_splitOn List.not_mem_nil hReturn hLast (.inr hSome)]
  cases cs.splitOn '\n' <;> rfl

theorem mem_of_mem_linesFrom
    {line found cs : List Char}
    {c : Char}
    (hFound : found ∈ linesFrom line cs)
    (hChar : c ∈ found) :
    c ∈ line ∨ c ∈ cs := by
  induction cs generalizing line with
  | nil =>
      rw [linesFrom] at hFound
      split at hFound
      · simp at hFound
      · rw [List.mem_singleton.mp hFound, List.mem_reverse] at hChar
        exact .inl hChar
  | cons d cs ih =>
      have hRest : found ∈ linesFrom [] cs → c ∈ line ∨ c ∈ d :: cs := by
        intro hBehind
        rcases ih hBehind with hNone | hMember
        · simp at hNone
        · exact .inr (List.mem_cons_of_mem d hMember)
      by_cases hNewline : d = '\n'
      · subst hNewline
        by_cases hReturn : line.head? = some '\r'
        · rcases List.head?_eq_some_iff.mp hReturn with ⟨front, rfl⟩
          rw [linesFrom_return_newline] at hFound
          rcases List.mem_cons.mp hFound with rfl | hBehind
          · exact .inl (List.mem_cons_of_mem _ (List.mem_reverse.mp hChar))
          · exact hRest hBehind
        · rw [linesFrom_newline hReturn] at hFound
          rcases List.mem_cons.mp hFound with rfl | hBehind
          · exact .inl (List.mem_reverse.mp hChar)
          · exact hRest hBehind
      · rw [linesFrom_cons_of_ne hNewline] at hFound
        rcases ih hFound with hFront | hMember
        · rcases List.mem_cons.mp hFront with rfl | hLine
          · exact .inr List.mem_cons_self
          · exact .inl hLine
        · exact .inr (List.mem_cons_of_mem d hMember)

/- A line holds only characters of its text. -/
theorem mem_of_mem_lines
    {line cs : List Char}
    {c : Char}
    (hLine : line ∈ lines cs)
    (hChar : c ∈ line) :
    c ∈ cs := by
  rcases mem_of_mem_linesFrom hLine hChar with hNone | hMember
  · simp at hNone
  · exact hMember

end JqLens.Text

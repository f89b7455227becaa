import JqLens.Quote

/-
  This file develops the theory of the quote cursor: how it
  runs over joined texts, which characters it leaves outside
  every literal, and where a literal ends.

  Key definitions include:
    * `Cursor.code`
    * `Cursor.stays`

  Main results:
    * `Cursor.run_append`
    * `Cursor.code_append`
    * `span_append`
    * `run_span`
    * `code_span`
    * `span_of_shorter`
    * `trace_append`
    * `getLast?_span`
    * `span_append_of_stays`
    * `span_append_of_leaves`
-/

namespace JqLens.Quote

------------------------------------------------------------
-- Single characters
------------------------------------------------------------

namespace Cursor

/- A cursor is outside every literal or inside one. -/
theorem inString_eq_false_iff
    (k : Cursor) :
    k.inString = false ↔ k = outside := by
  cases k <;> decide

/- A character is part of a literal inside one, and if it is a quote. -/
theorem isLiteral_step
    (k : Cursor)
    (c : Char) :
    (k.step c).isLiteral = (k.inString || c == '"') := by
  cases k with
  | outside =>
      by_cases hQuote : c = '"'
      · simp [step, hQuote, Step.isLiteral, inString]
      · simp [step, hQuote, Step.isLiteral, inString]
  | inside =>
      by_cases hQuote : c = '"'
      · simp [step, hQuote, Step.isLiteral, inString]
      · simp [step, hQuote, Step.isLiteral, inString]
  | escaped => rfl

/- A character is filter code outside every literal, unless it is a quote. -/
theorem isLiteral_step_eq_false_iff
    (k : Cursor)
    (c : Char) :
    (k.step c).isLiteral = false ↔ k = outside ∧ c ≠ '"' := by
  rw [isLiteral_step, Bool.or_eq_false_iff, inString_eq_false_iff, beq_eq_false_iff_ne]

/- Only a quote leads from filter code into a literal. -/
theorem next_outside
    {c : Char}
    (hQuote : c ≠ '"') :
    outside.next c = outside := by
  simp [next, hQuote]

------------------------------------------------------------
-- Runs
------------------------------------------------------------

@[simp] theorem run_nil
    (k : Cursor) :
    k.run [] = k := rfl

@[simp] theorem run_cons
    (k : Cursor)
    (c : Char)
    (cs : List Char) :
    k.run (c :: cs) = (k.next c).run cs := rfl

@[simp] theorem run_append
    (k : Cursor)
    (as bs : List Char) :
    k.run (as ++ bs) = (k.run as).run bs :=
  List.foldl_append

/- A text without quotes leaves the cursor outside. -/
theorem run_outside
    {cs : List Char}
    (hQuote : '"' ∉ cs) :
    outside.run cs = outside := by
  induction cs with
  | nil => rfl
  | cons c cs ih =>
      rw [List.mem_cons, not_or] at hQuote
      rw [run_cons, next_outside (Ne.symm hQuote.1)]
      exact ih hQuote.2

------------------------------------------------------------
-- Code
------------------------------------------------------------

/- The characters of a text that lie outside every literal. -/
def code (k : Cursor) : List Char → List Char
  | [] => []
  | c :: cs =>
      if (k.step c).isLiteral then code (k.next c) cs
      else c :: code (k.next c) cs

@[simp] theorem code_nil
    (k : Cursor) :
    k.code [] = [] := rfl

theorem code_cons_of_literal
    {k : Cursor}
    {c : Char}
    (hLiteral : (k.step c).isLiteral = true)
    (cs : List Char) :
    k.code (c :: cs) = (k.next c).code cs := by
  simp [code, hLiteral]

theorem code_cons_of_code
    {k : Cursor}
    {c : Char}
    (hCode : (k.step c).isLiteral = false)
    (cs : List Char) :
    k.code (c :: cs) = c :: (k.next c).code cs := by
  simp [code, hCode]

@[simp] theorem code_append
    (k : Cursor)
    (as bs : List Char) :
    k.code (as ++ bs) = k.code as ++ (k.run as).code bs := by
  induction as generalizing k with
  | nil => rfl
  | cons c as ih =>
      rw [List.cons_append, run_cons]
      cases hStep : (k.step c).isLiteral with
      | true =>
          rw [code_cons_of_literal hStep, code_cons_of_literal hStep, ih]
      | false =>
          rw [code_cons_of_code hStep, code_cons_of_code hStep, ih,
            List.cons_append]

/- What lies outside every literal is taken from the text. -/
theorem code_sublist
    (k : Cursor)
    (cs : List Char) :
    (k.code cs).Sublist cs := by
  induction cs generalizing k with
  | nil => exact List.Sublist.refl []
  | cons c cs ih =>
      cases hStep : (k.step c).isLiteral with
      | true =>
          rw [code_cons_of_literal hStep]
          exact (ih _).cons c
      | false =>
          rw [code_cons_of_code hStep]
          exact (ih _).cons_cons c

end Cursor

------------------------------------------------------------
-- Literals
------------------------------------------------------------

open Cursor

theorem span_cons_of_inString
    {k : Cursor}
    {c : Char}
    (hIn : (k.next c).inString = true)
    (cs : List Char) :
    span k (c :: cs) =
      (c :: (span (k.next c) cs).1, (span (k.next c) cs).2) := by
  simp [span, hIn]

theorem span_cons_of_outside
    {k : Cursor}
    {c : Char}
    (hOut : (k.next c).inString = false)
    (cs : List Char) :
    span k (c :: cs) = ([c], cs) := by
  simp [span, hOut]

/- A literal and what is behind it are the whole text. -/
theorem span_append
    (k : Cursor)
    (cs : List Char) :
    (span k cs).1 ++ (span k cs).2 = cs := by
  induction cs generalizing k with
  | nil => rfl
  | cons c cs ih =>
      cases hNext : (k.next c).inString with
      | true =>
          rw [span_cons_of_inString hNext, List.cons_append, ih]
      | false => rw [span_cons_of_outside hNext, List.singleton_append]

/- A literal is closed unless it takes the whole text. -/
theorem run_span
    (k : Cursor)
    (cs : List Char) :
    k.run (span k cs).1 = outside ∨ (span k cs).2 = [] := by
  induction cs generalizing k with
  | nil => exact Or.inr rfl
  | cons c cs ih =>
      cases hNext : (k.next c).inString with
      | true =>
          rw [span_cons_of_inString hNext, run_cons]
          exact ih _
      | false =>
          rw [span_cons_of_outside hNext]
          exact Or.inl ((inString_eq_false_iff _).mp hNext)

/- Nothing of a literal is code. -/
theorem code_span
    {k : Cursor}
    (hIn : k.inString = true)
    (cs : List Char) :
    k.code (span k cs).1 = [] := by
  induction cs generalizing k with
  | nil => rfl
  | cons c cs ih =>
      have hStep : (k.step c).isLiteral = true := by
        simp [isLiteral_step, hIn]
      cases hNext : (k.next c).inString with
      | true =>
          rw [span_cons_of_inString hNext, code_cons_of_literal hStep]
          exact ih hNext
      | false =>
          rw [span_cons_of_outside hNext, code_cons_of_literal hStep]
          rfl

/- A literal ends where it does whatever is left of what is behind it. -/
theorem span_of_shorter
    {k : Cursor}
    {cs shorter : List Char}
    (hPrefix : shorter <+: (span k cs).2) :
    span k ((span k cs).1 ++ shorter) = ((span k cs).1, shorter) := by
  induction cs generalizing k with
  | nil =>
      rw [List.prefix_nil.mp hPrefix]
      rfl
  | cons c cs ih =>
      cases hNext : (k.next c).inString with
      | true =>
          rw [span_cons_of_inString hNext] at hPrefix ⊢
          rw [List.cons_append, span_cons_of_inString hNext, ih hPrefix]
      | false =>
          rw [span_cons_of_outside hNext, List.singleton_append,
            span_cons_of_outside hNext]

------------------------------------------------------------
-- Traces
------------------------------------------------------------

namespace Cursor

@[simp] theorem length_trace
    (k : Cursor)
    (cs : List Char) :
    (k.trace cs).length = cs.length := by
  induction cs generalizing k with
  | nil => rfl
  | cons c cs ih => exact congrArg (· + 1) (ih (k.next c))

theorem trace_append
    (k : Cursor)
    (as bs : List Char) :
    k.trace (as ++ bs) = k.trace as ++ (k.run as).trace bs := by
  induction as generalizing k with
  | nil => rfl
  | cons c as ih => exact congrArg (_ :: ·) (ih (k.next c))

/- In the middle of a text the trace is that of the middle from the cursor there. -/
theorem getElem?_trace_middle
    {before middle behind : List Char}
    {n : Nat}
    (hFrom : before.length ≤ n)
    (hTo : n < before.length + middle.length)
    (k : Cursor) :
    (k.trace (before ++ (middle ++ behind)))[n]? =
      ((k.run before).trace middle)[n - before.length]? := by
  have hMiddle : n - before.length < middle.length := by omega
  rw [trace_append, List.getElem?_append_right (by simpa using hFrom), length_trace,
    trace_append, List.getElem?_append_left (by simpa using hMiddle)]

/- Every character of a text without code belongs to a literal. -/
theorem isLiteral_of_mem_trace
    {k : Cursor}
    {cs : List Char}
    (hCode : k.code cs = []) :
    ∀ entry ∈ k.trace cs, entry.1.isLiteral = true := by
  induction cs generalizing k with
  | nil => exact fun _ hMember => absurd hMember List.not_mem_nil
  | cons c cs ih =>
      cases hStep : (k.step c).isLiteral with
      | true =>
          rw [code_cons_of_literal hStep] at hCode
          exact List.forall_mem_cons.mpr ⟨hStep, ih hCode⟩
      | false =>
          rw [code_cons_of_code hStep] at hCode
          exact absurd hCode (List.cons_ne_nil _ _)

/- No character of a text without quotes belongs to a literal. -/
theorem isLiteral_of_not_mem
    {cs : List Char}
    (hQuote : '"' ∉ cs) :
    ∀ entry ∈ outside.trace cs, entry.1.isLiteral = false := by
  induction cs with
  | nil => exact fun _ hMember => absurd hMember List.not_mem_nil
  | cons c cs ih =>
      rw [List.mem_cons, not_or] at hQuote
      have hCode : c ≠ '"' := Ne.symm hQuote.1
      have hStep := (isLiteral_step_eq_false_iff outside c).mpr ⟨rfl, hCode⟩
      rw [trace, next_outside hCode]
      exact List.forall_mem_cons.mpr ⟨hStep, ih hQuote.2⟩

end Cursor

------------------------------------------------------------
-- Staying inside a literal
------------------------------------------------------------

namespace Cursor

/- After each character of a text the cursor is inside a literal. -/
def stays (k : Cursor) : List Char → Bool
  | [] => true
  | c :: cs => (k.next c).inString && stays (k.next c) cs

@[simp] theorem stays_cons
    (k : Cursor)
    (c : Char)
    (cs : List Char) :
    k.stays (c :: cs) = ((k.next c).inString && (k.next c).stays cs) := rfl

@[simp] theorem stays_append
    (k : Cursor)
    (as bs : List Char) :
    k.stays (as ++ bs) = (k.stays as && (k.run as).stays bs) := by
  induction as generalizing k with
  | nil => rfl
  | cons c as ih =>
      rw [List.cons_append, stays_cons, stays_cons, ih, run_cons, Bool.and_assoc]

/- A cursor that stays inside a literal is inside one at the end. -/
theorem inString_run
    {k : Cursor}
    {cs : List Char}
    (hIn : k.inString = true)
    (hStays : k.stays cs = true) :
    (k.run cs).inString = true := by
  induction cs generalizing k with
  | nil => exact hIn
  | cons c cs ih =>
      rw [stays_cons, Bool.and_eq_true] at hStays
      exact ih hStays.1 hStays.2

/- Inside a literal only a quote can close it. -/
theorem inString_next
    {k : Cursor}
    {c : Char}
    (hIn : k.inString = true)
    (hQuote : c ≠ '"') :
    (k.next c).inString = true := by
  cases k with
  | outside => simp [inString] at hIn
  | inside =>
      simp only [next, hQuote, if_false]
      split <;> rfl
  | escaped => rfl

/- Any other character but a backslash leaves the cursor unescaped. -/
theorem next_of_inString
    {k : Cursor}
    {c : Char}
    (hIn : k.inString = true)
    (hQuote : c ≠ '"')
    (hBackslash : c ≠ '\\') :
    k.next c = inside := by
  cases k with
  | outside => simp [inString] at hIn
  | inside => simp [next, hQuote, hBackslash]
  | escaped => rfl

end Cursor

/- A literal that is closed ends with a quote. -/
theorem getLast?_span
    {k : Cursor}
    {cs : List Char}
    (hIn : k.inString = true)
    (hClosed : k.run (span k cs).1 = .outside) :
    (span k cs).1.getLast? = some '"' := by
  induction cs generalizing k with
  | nil =>
      have hOutside : k = .outside := hClosed
      rw [hOutside] at hIn
      exact Bool.noConfusion hIn
  | cons c cs ih =>
      cases hNext : (k.next c).inString with
      | true =>
          rw [span_cons_of_inString hNext] at hClosed ⊢
          rw [List.getLast?_cons, ih hNext hClosed]
          rfl
      | false =>
          rw [span_cons_of_outside hNext]
          by_cases hQuote : c = '"'
          · exact congrArg some hQuote
          · rw [inString_next hIn hQuote] at hNext
            exact Bool.noConfusion hNext

/- A literal goes on behind a text in which the cursor stays inside it. -/
theorem span_append_of_stays
    {k : Cursor}
    {as : List Char}
    (hStays : k.stays as = true)
    (bs : List Char) :
    span k (as ++ bs) =
      (as ++ (span (k.run as) bs).1, (span (k.run as) bs).2) := by
  induction as generalizing k with
  | nil => rfl
  | cons c as ih =>
      rw [stays_cons, Bool.and_eq_true] at hStays
      rw [List.cons_append, span_cons_of_inString hStays.1, ih hStays.2]
      rfl

/- A literal ends in a text in which the cursor does not stay inside it. -/
theorem span_append_of_leaves
    {k : Cursor}
    {as : List Char}
    (hLeaves : k.stays as = false)
    (bs : List Char) :
    ∃ behind, (span k (as ++ bs)).2 = behind ++ bs := by
  induction as generalizing k with
  | nil => simp [stays] at hLeaves
  | cons c as ih =>
      rw [List.cons_append]
      cases hNext : (k.next c).inString with
      | true =>
          rw [stays_cons, hNext, Bool.true_and] at hLeaves
          rw [span_cons_of_inString hNext]
          exact ih hLeaves
      | false =>
          rw [span_cons_of_outside hNext]
          exact ⟨as, rfl⟩

end JqLens.Quote

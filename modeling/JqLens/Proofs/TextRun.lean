import Mathlib.Data.List.TakeWhile

/-
  This file says what a leading run of characters of one kind
  is: all of its characters are of that kind, and it ends where
  a character of another kind comes next, or nothing at all.

  Key definitions include:
    * `StopsAt`

  Main results:
    * `stopsAt_dropWhile`
    * `takeWhile_of_stopsAt`, `dropWhile_of_stopsAt`
-/

namespace JqLens

------------------------------------------------------------
-- Runs of characters
------------------------------------------------------------

/- No character of the given kind comes next. -/
def StopsAt
    (p : Char → Bool)
    (rest : List Char) : Prop :=
  ∀ c ∈ rest.head?, p c = false

/- A leading run of characters ends where one of them fails the test. -/
theorem stopsAt_dropWhile
    (p : Char → Bool)
    (cs : List Char) :
    StopsAt p (cs.dropWhile p) := by
  intro c hHead
  cases hDrop : cs.dropWhile p with
  | nil => simp [hDrop] at hHead
  | cons d ds =>
      have hNot := List.head_dropWhile_not p (l := cs) (by simp [hDrop])
      simp_all

/- Every character of a leading run passes the test. -/
theorem all_takeWhile
    (p : Char → Bool)
    (cs : List Char) :
    ∀ c ∈ cs.takeWhile p, p c = true :=
  fun _ hMember => List.mem_takeWhile_imp hMember

/- A character that fails the test is not among those that pass it. -/
theorem not_mem_of_all
    {p : Char → Bool}
    {c : Char}
    {cs : List Char}
    (hNot : p c = false)
    (hAll : ∀ d ∈ cs, p d = true) :
    c ∉ cs := by
  intro hMember
  rw [hAll c hMember] at hNot
  exact Bool.noConfusion hNot

/- A run of characters that pass the test is taken up to where it stops. -/
theorem takeWhile_of_stopsAt
    {p : Char → Bool}
    {cs rest : List Char}
    (hAll : ∀ c ∈ cs, p c = true)
    (hStops : StopsAt p rest) :
    (cs ++ rest).takeWhile p = cs := by
  rw [List.takeWhile_append_of_pos hAll]
  cases rest with
  | nil => simp
  | cons c rest =>
      have hNot : ¬ p c = true := Bool.eq_false_iff.mp (hStops c rfl)
      rw [List.takeWhile_cons_of_neg hNot, List.append_nil]

theorem dropWhile_of_stopsAt
    {p : Char → Bool}
    {cs rest : List Char}
    (hAll : ∀ c ∈ cs, p c = true)
    (hStops : StopsAt p rest) :
    (cs ++ rest).dropWhile p = rest := by
  rw [List.dropWhile_append_of_pos hAll]
  cases rest with
  | nil => rfl
  | cons c rest =>
      exact List.dropWhile_cons_of_neg (Bool.eq_false_iff.mp (hStops c rfl))

end JqLens

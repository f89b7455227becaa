import JqLens.Proofs.Purging

/-
  This file proves that a denied request changes nothing for its
  client, at whatever times requests and purges happen. A denied
  request is counted, but its window was full already; and under
  a quota of zero, where it may start a window, no request is
  ever allowed.

  Of a window only matters when it started and how much of the
  quota is used up. Two limiters in which all clients have the
  same standing give the same answers and keep the standings the
  same, and a denied request leaves the standings as they were.

  Key definitions include:
    * `Window.capped`
    * `Limiter.standing`
    * `Limiter.SameStanding`
    * `Limiter.isDenied`

  Main results:
    * `Limiter.SameStanding.check`, `Limiter.SameStanding.purge`
    * `Limiter.SameStanding.denied`
    * `Limiter.SameStanding.checkAnswers_kept`
    * `Limiter.denied_invisible`
-/

namespace JqLens

------------------------------------------------------------
-- Windows up to the quota
------------------------------------------------------------

namespace Window

/- The window with no more requests in it than a quota tells apart. -/
def capped
    (max : Nat)
    (window : Window) : Window :=
  { window with count := min window.count max }

/- A window expires however many requests it counts. -/
theorem expired_capped
    (max length now : Nat)
    (window : Window) :
    (window.capped max).expired length now = window.expired length now :=
  rfl

/- What is counted beyond the quota makes no difference to the next request. -/
theorem capped_counted
    (max : Nat)
    (window : Window) :
    window.counted.capped max = (window.capped max).counted.capped max := by
  simp only [capped, counted, Window.mk.injEq, true_and]
  omega

theorem count_counted_le_iff
    (max : Nat)
    (window : Window) :
    window.counted.count ≤ max ↔ (window.capped max).counted.count ≤ max := by
  simp only [capped, counted]
  omega

/- A window in which a request is denied was full before. -/
theorem capped_counted_of_denied
    {max : Nat}
    {window : Window}
    (hDenied : max < window.counted.count) :
    window.counted.capped max = window.capped max := by
  simp only [counted] at hDenied
  simp only [capped, counted, Window.mk.injEq, true_and]
  omega

end Window

------------------------------------------------------------
-- The standing of a client
------------------------------------------------------------

namespace Limiter

variable {κ : Type} [BEq κ]

/- When the window of a client started and how much of its quota is used up. -/
def standing
    (limiter : Limiter κ)
    (client : κ) : Option Window :=
  (limiter.clients.lookup client).map (Window.capped limiter.max)

/- A standing is that of an open window unless it has expired. -/
theorem filter_standing
    (limiter : Limiter κ)
    (client : κ)
    (now : Nat) :
    ((limiter.standing client).filter fun window => !window.expired limiter.window now) =
      (limiter.openWindow client now).map (Window.capped limiter.max) := by
  rw [standing, Option.filter_map]
  rfl

/- The window that a request falls in, up to the quota, follows from the standing. -/
theorem capped_windowAt
    (limiter : Limiter κ)
    (client : κ)
    (now : Nat) :
    (limiter.windowAt client now).capped limiter.max =
      ((limiter.standing client).filter
        fun window => !window.expired limiter.window now).getD (.starting now) := by
  have hStarting : (Window.starting now).capped limiter.max = .starting now := by
    simp [Window.capped, Window.starting]
  rw [windowAt_eq_openWindow, filter_standing, ← hStarting, Option.getD_map, hStarting]

/- Under a quota of zero every request is denied. -/
theorem check_of_max_eq_zero
    {limiter : Limiter κ}
    (hMax : limiter.max = 0)
    (client : κ)
    (now : Nat) :
    (limiter.check client now).1 = false := by
  have hCount : 0 < (limiter.windowAt client now).counted.count := by
    simp only [Window.counted]
    exact Nat.lt_min.mpr ⟨Nat.succ_pos _, by decide⟩
  rw [check, hMax]
  exact decide_eq_false (Nat.not_le.mpr hCount)

section Lookup

variable [LawfulBEq κ]

/- A request changes the standing of its client and of no other. -/
theorem standing_check
    (limiter : Limiter κ)
    (client other : κ)
    (now : Nat) :
    (limiter.check client now).2.standing other =
      if other == client then
        some ((limiter.windowAt client now).counted.capped limiter.max)
      else limiter.standing other := by
  rw [standing, lookup_check]
  split
  · rfl
  · rfl

/- A purge drops the standing of a client if its window has expired. -/
theorem standing_purge
    {limiter : Limiter κ}
    (hUnique : limiter.IsUnique)
    (client : κ)
    (now : Nat) :
    (limiter.purge now).2.standing client =
      (limiter.standing client).filter
        fun window => !window.expired limiter.window now := by
  rw [standing, lookup_purge hUnique, filter_standing]
  rfl

/- A request that is denied under a quota leaves its client's standing as it was. -/
theorem standing_check_of_denied
    {limiter : Limiter κ}
    (hMax : limiter.max ≠ 0)
    {client : κ}
    {now : Nat}
    (hDenied : (limiter.check client now).1 = false)
    (other : κ) :
    (limiter.check client now).2.standing other = limiter.standing other := by
  have hFull : limiter.max < (limiter.windowAt client now).counted.count :=
    Nat.lt_of_not_le (of_decide_eq_false hDenied)
  rw [standing_check]
  split
  · next hClient =>
      rw [eq_of_beq hClient, Window.capped_counted_of_denied hFull, capped_windowAt]
      -- The window is the one that was kept: a new one would have had room.
      cases hOpen : (limiter.standing client).filter
          fun window => !window.expired limiter.window now with
      | some window => rw [Option.getD_some, (Option.filter_eq_some_iff.mp hOpen).1]
      | none =>
          have hNew := capped_windowAt limiter client now
          rw [hOpen, Option.getD_none] at hNew
          rw [← Nat.not_le, Window.count_counted_le_iff, hNew] at hFull
          refine absurd ?_ hFull
          exact Nat.le_trans (Nat.min_le_left _ _) (Nat.pos_of_ne_zero hMax)
  · rfl

end Lookup

------------------------------------------------------------
-- Limiters with the same standings
------------------------------------------------------------

/-
  All clients have the same standing in two limiters, unless the
  quota is zero, where standings do not matter.
-/
structure SameStanding
    (limiter other : Limiter κ) : Prop where
  max_eq : limiter.max = other.max
  window_eq : limiter.window = other.window
  standing_eq : limiter.max ≠ 0 → ∀ client, limiter.standing client = other.standing client

namespace SameStanding

variable {limiter other : Limiter κ}

theorem refl
    (limiter : Limiter κ) :
    SameStanding limiter limiter where
  max_eq := rfl
  window_eq := rfl
  standing_eq := fun _ _ => rfl

/- A request falls in windows that are the same up to the quota. -/
theorem capped_windowAt_eq
    (hSame : SameStanding limiter other)
    (hMax : limiter.max ≠ 0)
    (client : κ)
    (now : Nat) :
    (limiter.windowAt client now).capped limiter.max =
      (other.windowAt client now).capped limiter.max := by
  rw [capped_windowAt, hSame.standing_eq hMax, hSame.window_eq, hSame.max_eq, capped_windowAt]

/- A request gets the same answer. -/
theorem check_fst
    (hSame : SameStanding limiter other)
    (client : κ)
    (now : Nat) :
    (limiter.check client now).1 = (other.check client now).1 := by
  by_cases hMax : limiter.max = 0
  · rw [check_of_max_eq_zero hMax, check_of_max_eq_zero (hSame.max_eq ▸ hMax)]
  · have hAnswer : (limiter.windowAt client now).counted.count ≤ limiter.max ↔
        (other.windowAt client now).counted.count ≤ limiter.max := by
      rw [Window.count_counted_le_iff, hSame.capped_windowAt_eq hMax,
        ← Window.count_counted_le_iff]
    rw [Limiter.check, Limiter.check, ← hSame.max_eq]
    exact decide_eq_decide.mpr hAnswer

section Lookup

variable [LawfulBEq κ]

/- A request leaves all clients with the same standings. -/
theorem check
    (hSame : SameStanding limiter other)
    (client : κ)
    (now : Nat) :
    SameStanding (limiter.check client now).2 (other.check client now).2 where
  max_eq := hSame.max_eq
  window_eq := hSame.window_eq
  standing_eq := by
    intro hMax another
    rw [standing_check, standing_check, Window.capped_counted, Window.capped_counted other.max,
      ← hSame.max_eq, hSame.capped_windowAt_eq hMax, hSame.standing_eq hMax]

/- So does a purge. -/
theorem purge
    (hSame : SameStanding limiter other)
    (hUnique : limiter.IsUnique)
    (hOther : other.IsUnique)
    (now : Nat) :
    SameStanding (limiter.purge now).2 (other.purge now).2 where
  max_eq := hSame.max_eq
  window_eq := hSame.window_eq
  standing_eq := by
    intro hMax client
    rw [standing_purge hUnique, standing_purge hOther, hSame.standing_eq hMax, hSame.window_eq]

/- A denied request that only one of the limiters sees makes no difference. -/
theorem denied
    (hSame : SameStanding limiter other)
    {client : κ}
    {now : Nat}
    (hDenied : (limiter.check client now).1 = false) :
    SameStanding (limiter.check client now).2 other where
  max_eq := hSame.max_eq
  window_eq := hSame.window_eq
  standing_eq := by
    intro hMax another
    have hQuota : limiter.max ≠ 0 := hMax
    rw [standing_check_of_denied hQuota hDenied, hSame.standing_eq hQuota]

end Lookup

end SameStanding

------------------------------------------------------------
-- Denied requests in a run
------------------------------------------------------------

/- An event and its answer are a request that was denied. -/
def isDenied : Event κ × Answer → Bool
  | (.check _ _, .allowed within) => !within
  | _ => false

/- What is left out fails a test if all that passes it is kept. -/
theorem not_of_filter_cons_eq
    {α : Type}
    {p : α → Bool}
    {a : α}
    {kept as : List α}
    (hKept : kept.Sublist as)
    (hFilter : kept.filter p = (a :: as).filter p) :
    p a = false := by
  rw [← Bool.not_eq_true]
  intro hTest
  have hLength := (hKept.filter p).length_le
  rw [hFilter, List.filter_cons_of_pos hTest, List.length_cons] at hLength
  exact Nat.not_succ_le_self _ hLength

/-
  If nothing but denied requests is left out of a run, a limiter
  with the same standings gives the requests that remain the
  answers that they had.
-/
theorem SameStanding.checkAnswers_kept
    [LawfulBEq κ]
    {limiter other : Limiter κ}
    (hSame : SameStanding limiter other)
    (hUnique : limiter.IsUnique)
    (hOther : other.IsUnique)
    {events : List (Event κ)}
    {kept : List (Event κ × Answer)}
    (hKept : kept.Sublist (events.zip (limiter.run events)))
    (hDenied : (kept.filter fun entry => !isDenied entry) =
      (events.zip (limiter.run events)).filter fun entry => !isDenied entry) :
    checkAnswers (kept.map Prod.fst) (other.run (kept.map Prod.fst)) =
      kept.filter fun entry => entry.1.isCheck := by
  induction events generalizing limiter other kept with
  | nil =>
      rw [List.zip_nil_left, List.sublist_nil] at hKept
      rw [hKept]
      rfl
  | cons event events ih =>
      rw [run_cons, List.zip_cons_cons] at hKept hDenied
      rcases List.sublist_cons_iff.mp hKept with hOut | ⟨others, rfl, hOthers⟩
      · -- The event is left out, so that it is a denied request.
        have hEvent := not_of_filter_cons_eq hOut hDenied
        rw [List.filter_cons_of_neg (by simp [hEvent])] at hDenied
        cases event with
        | check client now =>
            have hAnswer : (limiter.check client now).1 = false := by
              simpa [isDenied, step] using hEvent
            exact ih (hSame.denied hAnswer) (isUnique_check hUnique client now) hOther hOut
              hDenied
        | purge now => simp [isDenied] at hEvent
      · have hRest : (others.filter fun entry => !isDenied entry) =
            (events.zip ((limiter.step event).2.run events)).filter
              fun entry => !isDenied entry := by
          rw [List.filter_cons, List.filter_cons] at hDenied
          split at hDenied
          · exact List.tail_eq_of_cons_eq hDenied
          · exact hDenied
        rw [List.map_cons, run_cons]
        cases event with
        | check client now =>
            have hTail := ih (hSame.check client now) (isUnique_check hUnique client now)
              (isUnique_check hOther client now) hOthers hRest
            have hAnswer : (limiter.step (.check client now)).1 =
                (other.step (.check client now)).1 :=
              congrArg Answer.allowed (hSame.check_fst client now)
            rw [checkAnswers_check, List.filter_cons_of_pos rfl, hAnswer]
            exact congrArg _ hTail
        | purge now =>
            rw [checkAnswers_purge, List.filter_cons_of_neg Bool.false_ne_true]
            exact ih (hSame.purge hUnique hOther now) (isUnique_purge hUnique now)
              (isUnique_purge hOther now) hOthers hRest

/-
  A denied request changes nothing for its client. Whatever
  denied requests are left out of the events, at whatever times
  these happen, all other requests get the answers that they had
  with them.
-/
theorem denied_invisible
    [LawfulBEq κ]
    (max window : Nat)
    (events : List (Event κ))
    (kept : List (Event κ × Answer))
    (hKept : kept.Sublist (events.zip (run { max, window } events)))
    (hDenied : (kept.filter fun entry => !isDenied entry) =
      (events.zip (run { max, window } events)).filter fun entry => !isDenied entry) :
    checkAnswers (kept.map Prod.fst) (run { max, window } (kept.map Prod.fst)) =
      kept.filter fun entry => entry.1.isCheck := by
  have hUnique : IsUnique ({ max, window } : Limiter κ) := isUnique_initial max window
  exact (SameStanding.refl _).checkAnswers_kept hUnique hUnique hKept hDenied

/-
  Two clients that retry while they are limited, one of them
  with a clock that goes back, around a purge that drops one of
  the windows. Two of the three denied requests are left out.
-/
def retriedEvents : List (Event Nat) :=
  [.check 1 5, .check 1 6, .check 2 6, .check 1 3, .purge 16, .check 2 16, .check 1 16,
    .check 2 17]

/- What remains of these events, with the answers that they had. -/
def keptEvents : List (Event Nat × Answer) :=
  [(.check 1 5, .allowed true), (.check 2 6, .allowed true), (.purge 16, .removed 1),
    (.check 2 16, .allowed false), (.check 1 16, .allowed true), (.check 2 17, .allowed true)]

theorem denied_invisible_retriedEvents :
    keptEvents.Sublist (retriedEvents.zip (run { max := 1, window := 10 } retriedEvents)) ∧
      (keptEvents.filter fun entry => !isDenied entry) =
        (retriedEvents.zip (run { max := 1, window := 10 } retriedEvents)).filter
          (fun entry => !isDenied entry) ∧
      checkAnswers (keptEvents.map Prod.fst)
          (run { max := 1, window := 10 } (keptEvents.map Prod.fst)) =
        keptEvents.filter fun entry => entry.1.isCheck := by
  have hKept : keptEvents.Sublist
      (retriedEvents.zip (run { max := 1, window := 10 } retriedEvents)) := by
    decide
  have hDenied : (keptEvents.filter fun entry => !isDenied entry) =
      (retriedEvents.zip (run { max := 1, window := 10 } retriedEvents)).filter
        fun entry => !isDenied entry := by
    decide
  exact ⟨hKept, hDenied, denied_invisible 1 10 retriedEvents keptEvents hKept hDenied⟩

end Limiter

end JqLens

import JqLens.Proofs.Quota

/-
  This file bounds what a limiter allows and denies as time goes
  on, when the clock does not go back. In any stretch of time as
  long as a window a client is allowed at most twice its quota,
  and a client that is denied a request has used up its quota
  within the last such stretch.

  A limiter keeps one start and one number for a client. The
  proof keeps a ledger of all that was allowed beside them: what
  was allowed in the current window, which is as much as has
  been counted, up to the quota, and what was allowed earlier. A
  new window starts only when more time than a window is long
  has passed since the start of the last one. So no stretch of
  that length meets more than two windows.

  Key definitions include:
    * `granted`
    * `countIn`
    * `Ledger`
    * `Accounts`
    * `Limiter.burst`

  Main results:
    * `Ledger.countIn_le`
    * `Ledger.close`
    * `Ledger.le_countIn_of_spent`
    * `Accounts.countIn_granted_answers`
    * `Accounts.le_countIn_of_denied`
    * `Limiter.quota_over_time`
-/

namespace JqLens

------------------------------------------------------------
-- Times
------------------------------------------------------------

/- The times of the requests that were allowed. -/
def granted (answers : List (Nat × Bool)) : List Nat :=
  (answers.filter (·.2)).map (·.1)

/- How many times lie between two times, both included. -/
def countIn
    (first last : Nat)
    (times : List Nat) : Nat :=
  times.countP fun t => first ≤ t ∧ t ≤ last

@[simp] theorem granted_append
    (front back : List (Nat × Bool)) :
    granted (front ++ back) = granted front ++ granted back := by
  rw [granted, List.filter_append, List.map_append]
  rfl

theorem granted_singleton
    (now : Nat)
    (within : Bool) :
    granted [(now, within)] = if within then [now] else [] := by
  cases within with
  | true => rfl
  | false => rfl

theorem granted_cons
    (now : Nat)
    (within : Bool)
    (answers : List (Nat × Bool)) :
    granted ((now, within) :: answers) =
      (if within then [now] else []) ++ granted answers := by
  rw [← granted_singleton, ← granted_append]
  rfl

@[simp] theorem countIn_append
    (first last : Nat)
    (times others : List Nat) :
    countIn first last (times ++ others) =
      countIn first last times + countIn first last others :=
  List.countP_append

theorem countIn_le_length
    (first last : Nat)
    (times : List Nat) :
    countIn first last times ≤ times.length :=
  List.countP_le_length

/- No time lies in a stretch that all of them miss. -/
theorem countIn_eq_zero
    {first last : Nat}
    {times : List Nat}
    (hMiss : ∀ t ∈ times, t < first ∨ last < t) :
    countIn first last times = 0 := by
  rw [countIn, List.countP_eq_zero]
  intro t hMember
  have hOutside := hMiss t hMember
  simp only [decide_eq_true_eq]
  omega

/- All times lie in a stretch that none of them misses. -/
theorem countIn_eq_length
    {first last : Nat}
    {times : List Nat}
    (hHit : ∀ t ∈ times, first ≤ t ∧ t ≤ last) :
    countIn first last times = times.length := by
  rw [countIn, List.countP_eq_length]
  intro t hMember
  exact decide_eq_true (hHit t hMember)

------------------------------------------------------------
-- Ledgers
------------------------------------------------------------

/-
  What was allowed up to a time: in the window of a tally, and
  in earlier windows.
-/
structure Ledger
    (max length now : Nat)
    (tally : Tally)
    (earlier current : List Nat) : Prop where
  start_le : tally.start ≤ now
  /- In the current window all requests are allowed up to the quota. -/
  length_current : current.length = min tally.count max
  current_mem : ∀ t ∈ current, tally.start ≤ t ∧ t ≤ now
  earlier_le : ∀ t ∈ earlier, t ≤ tally.start
  /- A stretch that reaches the current window meets at most one earlier one. -/
  recent : ∀ first, tally.start ≤ first + length →
    countIn first (first + length) earlier ≤ max
  bounded : ∀ first, countIn first (first + length) earlier ≤ 2 * max

namespace Ledger

variable {max length now : Nat} {tally : Tally} {earlier current : List Nat}

/- No stretch holds more than twice the quota. -/
theorem countIn_le
    (hLedger : Ledger max length now tally earlier current)
    (first : Nat) :
    countIn first (first + length) (earlier ++ current) ≤ 2 * max := by
  rw [countIn_append]
  by_cases hReach : tally.start ≤ first + length
  · have hEarlier := hLedger.recent first hReach
    have hCurrent := countIn_le_length first (first + length) current
    rw [hLedger.length_current] at hCurrent
    omega
  · have hCurrent : countIn first (first + length) current = 0 := by
      apply countIn_eq_zero
      intro t hMember
      have hSince := (hLedger.current_mem t hMember).1
      omega
    have hEarlier := hLedger.bounded first
    omega

/- Time passes, and the tally goes on. -/
theorem wait
    (hLedger : Ledger max length now tally earlier current)
    {later : Nat}
    (hLater : now ≤ later) :
    Ledger max length later tally earlier current where
  start_le := Nat.le_trans hLedger.start_le hLater
  length_current := hLedger.length_current
  current_mem := fun t hMember =>
    ⟨(hLedger.current_mem t hMember).1,
      Nat.le_trans (hLedger.current_mem t hMember).2 hLater⟩
  earlier_le := hLedger.earlier_le
  recent := hLedger.recent
  bounded := hLedger.bounded

/- Time passes before a tally starts. -/
theorem postpone
    (hLedger : Ledger max length now ⟨now, 0⟩ earlier [])
    {later : Nat}
    (hLater : now ≤ later) :
    Ledger max length later ⟨later, 0⟩ earlier [] where
  start_le := Nat.le_refl later
  length_current := hLedger.length_current
  current_mem := fun _ hMember => absurd hMember List.not_mem_nil
  earlier_le := fun t hMember => Nat.le_trans (hLedger.earlier_le t hMember) hLater
  recent := fun first hReach => hLedger.recent first (Nat.le_trans hLater hReach)
  bounded := hLedger.bounded

/-
  A tally that is over makes room for a new one. All that was
  allowed so far then is earlier; what was allowed before the
  tally is too old for a stretch that reaches the new one.
-/
theorem close
    (hLedger : Ledger max length now tally earlier current)
    (hOver : tally.start + length < now) :
    Ledger max length now ⟨now, 0⟩ (earlier ++ current) [] where
  start_le := Nat.le_refl now
  length_current := (Nat.zero_min max).symm
  current_mem := fun _ hMember => absurd hMember List.not_mem_nil
  earlier_le := by
    intro t hMember
    rcases List.mem_append.mp hMember with hEarlier | hCurrent
    · exact Nat.le_trans (hLedger.earlier_le t hEarlier) hLedger.start_le
    · exact (hLedger.current_mem t hCurrent).2
  recent := by
    intro first hReach
    have hOld : countIn first (first + length) earlier = 0 := by
      apply countIn_eq_zero
      intro t hMember
      have hBefore := hLedger.earlier_le t hMember
      simp only at hReach
      omega
    have hCurrent := countIn_le_length first (first + length) current
    rw [hLedger.length_current] at hCurrent
    rw [countIn_append]
    omega
  bounded := hLedger.countIn_le

/- A request is counted, and allowed as long as the quota lasts. -/
theorem count
    (hLedger : Ledger max length now tally earlier current) :
    Ledger max length now tally.counted earlier
      (current ++ if tally.count < max then [now] else []) where
  start_le := hLedger.start_le
  length_current := by
    have hLength := hLedger.length_current
    rw [List.length_append, Tally.counted]
    split
    · simp only [List.length_singleton]
      omega
    · simp only [List.length_nil]
      omega
  current_mem := by
    intro t hMember
    rcases List.mem_append.mp hMember with hCurrent | hNew
    · exact hLedger.current_mem t hCurrent
    · split at hNew
      · rw [List.mem_singleton.mp hNew]
        exact ⟨hLedger.start_le, Nat.le_refl now⟩
      · exact absurd hNew List.not_mem_nil
  earlier_le := hLedger.earlier_le
  recent := hLedger.recent
  bounded := hLedger.bounded

/- A tally that has used up the quota has done so in the last stretch. -/
theorem le_countIn_of_spent
    (hLedger : Ledger max length now tally earlier current)
    (hSpent : max ≤ tally.count)
    (hOpen : now ≤ tally.start + length) :
    max ≤ countIn (now - length) now (earlier ++ current) := by
  have hCurrent : countIn (now - length) now current = current.length := by
    apply countIn_eq_length
    intro t hMember
    have hTime := hLedger.current_mem t hMember
    omega
  rw [countIn_append, hCurrent, hLedger.length_current]
  omega

end Ledger

------------------------------------------------------------
-- Accounts
------------------------------------------------------------

/-
  There is a ledger of what was allowed up to a time for the
  tally that is kept. Where none is kept, one could start at
  this time.
-/
def Accounts
    (max length now : Nat)
    (grants : List Nat) : Option Tally → Prop
  | none => Ledger max length now ⟨now, 0⟩ grants []
  | some tally => ∃ earlier current,
      earlier ++ current = grants ∧ Ledger max length now tally earlier current

namespace Accounts

variable {max length now : Nat} {grants : List Nat} {kept : Option Tally}

/- In the beginning nothing was allowed. -/
theorem initial
    (max length now : Nat) :
    Accounts max length now [] none where
  start_le := Nat.le_refl now
  length_current := (Nat.zero_min max).symm
  current_mem := fun _ hMember => absurd hMember List.not_mem_nil
  earlier_le := fun _ hMember => absurd hMember List.not_mem_nil
  recent := fun _ _ => Nat.zero_le max
  bounded := fun _ => Nat.zero_le (2 * max)

theorem countIn_le
    (hAccounts : Accounts max length now grants kept)
    (first : Nat) :
    countIn first (first + length) grants ≤ 2 * max := by
  cases kept with
  | none => exact Ledger.bounded hAccounts first
  | some tally =>
      rcases hAccounts with ⟨earlier, current, rfl, hLedger⟩
      exact hLedger.countIn_le first

theorem wait
    (hAccounts : Accounts max length now grants kept)
    {later : Nat}
    (hLater : now ≤ later) :
    Accounts max length later grants kept := by
  cases kept with
  | none => exact Ledger.postpone hAccounts hLater
  | some tally =>
      rcases hAccounts with ⟨earlier, current, hGrants, hLedger⟩
      exact ⟨earlier, current, hGrants, hLedger.wait hLater⟩

/- A purge drops a tally only if it is over. -/
theorem purged
    (hAccounts : Accounts max length now grants kept) :
    Accounts max length now grants (Tally.purged length now kept) := by
  cases kept with
  | none => exact hAccounts
  | some tally =>
      by_cases hOver : tally.isOver length now = true
      · rw [Tally.purged, Option.filter_some_neg (by simp [hOver])]
        rcases hAccounts with ⟨earlier, current, rfl, hLedger⟩
        exact hLedger.close ((Tally.isOver_iff length now tally).mp hOver)
      · rw [Tally.purged, Option.filter_some_pos (by simp [hOver])]
        exact hAccounts

/- A request falls in the tally that a purge would leave, or in a new one. -/
theorem renewed
    (hAccounts : Accounts max length now grants kept) :
    Accounts max length now grants (some (Tally.renewed length now kept)) := by
  have hPurged := hAccounts.purged
  rw [Tally.renewed_eq]
  cases hLeft : Tally.purged length now kept with
  | none =>
      rw [hLeft] at hPurged
      exact ⟨grants, [], List.append_nil grants, hPurged⟩
  | some tally =>
      rw [hLeft] at hPurged
      exact hPurged

theorem counted
    {tally : Tally}
    (hAccounts : Accounts max length now grants (some tally)) :
    Accounts max length now (grants ++ if tally.count < max then [now] else [])
      (some tally.counted) := by
  rcases hAccounts with ⟨earlier, current, rfl, hLedger⟩
  exact ⟨earlier, _, (List.append_assoc earlier current _).symm, hLedger.count⟩

/- A tally that a request falls in is not over. -/
theorem le_countIn_of_spent
    (hAccounts : Accounts max length now grants kept)
    (hSpent : max ≤ (Tally.renewed length now kept).count) :
    max ≤ countIn (now - length) now grants := by
  rcases hAccounts.renewed with ⟨earlier, current, rfl, hLedger⟩
  exact hLedger.le_countIn_of_spent hSpent (Tally.le_start_renewed length now kept)

------------------------------------------------------------
-- Answers of a tally
------------------------------------------------------------

variable {κ : Type} {events : List (Limiter.Event κ)}

/-
  Whatever a tally goes on to answer, no stretch holds more than
  twice the quota.
-/
theorem countIn_granted_answers
    (hAccounts : Accounts max length now grants kept)
    (hOrdered : (now :: events.map Limiter.Event.time).Pairwise (· ≤ ·))
    (first : Nat) :
    countIn first (first + length)
      (grants ++ granted (Tally.answers max length kept events)) ≤ 2 * max := by
  induction events generalizing now grants kept with
  | nil =>
      rw [Tally.answers, granted, List.filter_nil, List.map_nil, List.append_nil]
      exact hAccounts.countIn_le first
  | cons event events ih =>
      rw [List.map_cons, List.pairwise_cons] at hOrdered
      have hWaited := hAccounts.wait (hOrdered.1 event.time List.mem_cons_self)
      cases event with
      | check client time =>
          rw [Tally.answers, granted_cons, ← List.append_assoc]
          simp only [decide_eq_true_eq]
          exact ih hWaited.renewed.counted hOrdered.2
      | purge time => exact ih hWaited.purged hOrdered.2

/-
  Where a tally denies a request, the quota was used up within
  the last stretch.
-/
theorem le_countIn_of_denied
    (hAccounts : Accounts max length now grants kept)
    (hOrdered : (now :: events.map Limiter.Event.time).Pairwise (· ≤ ·))
    {front back : List (Nat × Bool)}
    {time : Nat}
    (hDenied : Tally.answers max length kept events = front ++ (time, false) :: back) :
    max ≤ countIn (time - length) time (grants ++ granted front) := by
  induction events generalizing now grants kept front with
  | nil => simp [Tally.answers] at hDenied
  | cons event events ih =>
      rw [List.map_cons, List.pairwise_cons] at hOrdered
      have hWaited := hAccounts.wait (hOrdered.1 event.time List.mem_cons_self)
      cases event with
      | check client now =>
          rw [Tally.answers] at hDenied
          cases front with
          | nil =>
              -- The request itself is the one that is denied.
              rw [List.nil_append, List.cons.injEq, Prod.mk.injEq, decide_eq_false_iff_not,
                Nat.not_lt] at hDenied
              rcases hDenied with ⟨⟨rfl, hSpent⟩, -⟩
              rw [granted, List.filter_nil, List.map_nil, List.append_nil]
              exact hWaited.le_countIn_of_spent hSpent
          | cons answer front =>
              rw [List.cons_append, List.cons.injEq] at hDenied
              rw [← hDenied.1, granted_cons, ← List.append_assoc]
              simp only [decide_eq_true_eq]
              exact ih hWaited.renewed.counted hOrdered.2 hDenied.2
      | purge now => exact ih hWaited.purged hOrdered.2 hDenied

end Accounts

------------------------------------------------------------
-- Quotas over time
------------------------------------------------------------

namespace Limiter

variable {κ : Type} [BEq κ]

/- The limiter after events in order. -/
def after
    (limiter : Limiter κ)
    (events : List (Event κ)) : Limiter κ :=
  events.foldl (fun limiter event => (limiter.step event).2) limiter

theorem length_run
    (limiter : Limiter κ)
    (events : List (Event κ)) :
    (limiter.run events).length = events.length := by
  induction events generalizing limiter with
  | nil => rfl
  | cons event events ih => rw [run_cons, List.length_cons, List.length_cons, ih]

theorem run_append
    (limiter : Limiter κ)
    (before behind : List (Event κ)) :
    limiter.run (before ++ behind) =
      limiter.run before ++ (limiter.after before).run behind := by
  induction before generalizing limiter with
  | nil => rfl
  | cons event before ih =>
      rw [List.cons_append, run_cons, run_cons, ih]
      rfl

/- The answers to a client come in the order of its requests. -/
theorem answersTo_append
    (client : κ)
    {before behind : List (Event κ)}
    {answers others : List Answer}
    (hLength : before.length = answers.length) :
    answersTo client (before ++ behind) (answers ++ others) =
      answersTo client before answers ++ answersTo client behind others := by
  rw [answersTo, List.zip_append hLength, List.filterMap_append]
  rfl

/- A denied request stands among the answers to its client. -/
theorem answersTo_denied
    [LawfulBEq κ]
    {limiter : Limiter κ}
    {before behind : List (Event κ)}
    {client : κ}
    {now : Nat}
    (hDenied : (limiter.run (before ++ .check client now :: behind))[before.length]? =
      some (.allowed false)) :
    ∃ back, answersTo client (before ++ .check client now :: behind)
        (limiter.run (before ++ .check client now :: behind)) =
      answersTo client before (limiter.run before) ++ (now, false) :: back := by
  have hLength := length_run limiter before
  rw [run_append, run_cons, List.getElem?_append_right (Nat.le_of_eq hLength), hLength,
    Nat.sub_self, List.getElem?_cons_zero, Option.some.injEq] at hDenied
  rw [run_append, run_cons, answersTo_append client hLength.symm, hDenied]
  have hAnswer : answerTo client (.check client now) (.allowed false) = some (now, false) :=
    if_pos (beq_self_eq_true client)
  rw [answersTo_cons, hAnswer]
  exact ⟨_, rfl⟩

/-
  What a quota means over time, if the clock does not go back.
  Between any time and one window later a client is allowed at
  most twice its quota; and when a client is denied a request,
  it was allowed as much as its quota since one window before.
-/
theorem quota_over_time
    [LawfulBEq κ]
    (max window : Nat)
    (hMax : max < UInt32.size - 1)
    (events : List (Event κ))
    (hOrdered : (events.map Event.time).Pairwise (· ≤ ·))
    (client : κ) :
    (∀ first,
      countIn first (first + window)
        (granted (answersTo client events (run { max, window } events))) ≤ 2 * max) ∧
    (∀ before behind now,
      events = before ++ .check client now :: behind →
      (run { max, window } events)[before.length]? = some (.allowed false) →
        max ≤ countIn (now - window) now
          (granted (answersTo client before (run { max, window } before)))) := by
  have hAnswers := answersTo_initial hMax window client events
  have hSeen : (0 :: (events.filter (·.concerns client)).map Event.time).Pairwise (· ≤ ·) := by
    refine List.pairwise_cons.mpr ⟨fun time _ => Nat.zero_le time, ?_⟩
    exact hOrdered.sublist (List.filter_sublist.map Event.time)
  have hAccounts := Accounts.initial max window 0
  refine ⟨?_, ?_⟩
  · intro first
    rw [hAnswers]
    exact hAccounts.countIn_granted_answers hSeen first
  · intro before behind now hEvents hDenied
    rw [hEvents] at hDenied
    rcases answersTo_denied hDenied with ⟨back, hSplit⟩
    rw [← hEvents, hAnswers] at hSplit
    exact hAccounts.le_countIn_of_denied hSeen hSplit

/-
  A client that uses up its quota at the very end of a window
  and again at the start of the next one, beside another client
  and a purge.
-/
def burst : List (Event Nat) :=
  [.check 1 0, .check 2 3, .check 1 10, .check 1 11, .purge 12, .check 1 12]

theorem quota_over_time_burst :
    ((burst ++ [Event.check 1 13]).map Event.time).Pairwise (· ≤ ·) ∧
      granted (answersTo 1 (burst ++ [Event.check 1 13])
        (run { max := 2, window := 10 } (burst ++ [Event.check 1 13]))) = [0, 10, 11, 12] ∧
      countIn 10 (10 + 10) (granted (answersTo 1 (burst ++ [Event.check 1 13])
        (run { max := 2, window := 10 } (burst ++ [Event.check 1 13])))) ≤ 2 * 2 ∧
      (run { max := 2, window := 10 } (burst ++ [Event.check 1 13]))[burst.length]? =
        some (.allowed false) ∧
      2 ≤ countIn (13 - 10) 13
        (granted (answersTo 1 burst (run { max := 2, window := 10 } burst))) := by
  have hOrdered : ((burst ++ [Event.check 1 13]).map Event.time).Pairwise (· ≤ ·) := by
    decide
  rcases quota_over_time 2 10 (by decide) (burst ++ [Event.check 1 13]) hOrdered 1 with
    ⟨hBound, hDenied⟩
  exact ⟨hOrdered, by decide, hBound 10, by decide, hDenied burst [] 13 rfl (by decide)⟩

end Limiter

end JqLens

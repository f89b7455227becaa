import JqLens.Proofs.Fairness

/-
  This file proves that no client notices a purge, as long as
  the clock does not go back. A purge drops the windows that
  have expired, and a request after it would have started a new
  window for such a client anyway.

  Two limiters are alike from a time on if all clients have the
  same open windows in them at that time. What has expired does
  not count, whether it is still kept or not. Limiters that are
  alike give the same answers to a request and stay alike behind
  it, and a purge leaves a limiter like the one before.

  Key definitions include:
    * `Limiter.Event.isCheck`
    * `Limiter.checkAnswers`
    * `Limiter.openWindow`
    * `Limiter.Alike`
    * `Limiter.idleClients`

  Main results:
    * `Limiter.Alike.check`
    * `Limiter.alike_purge`
    * `Limiter.Alike.checkAnswers_run`
    * `Limiter.purge_exact`
    * `Limiter.purge_invisible`
-/

namespace JqLens

namespace Limiter

variable {κ : Type}

------------------------------------------------------------
-- Requests among events
------------------------------------------------------------

/- An event is a request, of whichever client. -/
def Event.isCheck : Event κ → Bool
  | .check _ _ => true
  | .purge _ => false

/- The requests among events, in order, with the answers to them. -/
def checkAnswers
    (events : List (Event κ))
    (answers : List Answer) : List (Event κ × Answer) :=
  (events.zip answers).filter fun entry => entry.1.isCheck

theorem checkAnswers_check
    (client : κ)
    (now : Nat)
    (events : List (Event κ))
    (answer : Answer)
    (answers : List Answer) :
    checkAnswers (.check client now :: events) (answer :: answers) =
      (.check client now, answer) :: checkAnswers events answers :=
  rfl

theorem checkAnswers_purge
    (now : Nat)
    (events : List (Event κ))
    (answer : Answer)
    (answers : List Answer) :
    checkAnswers (.purge now :: events) (answer :: answers) =
      checkAnswers events answers :=
  rfl

variable [BEq κ]

------------------------------------------------------------
-- Open windows
------------------------------------------------------------

/- The window of a client, unless it has expired at a time. -/
def openWindow
    (limiter : Limiter κ)
    (client : κ)
    (now : Nat) : Option Window :=
  (limiter.clients.lookup client).filter fun window => !window.expired limiter.window now

/- A request falls in the open window of its client, or in a new one. -/
theorem windowAt_eq_openWindow
    (limiter : Limiter κ)
    (client : κ)
    (now : Nat) :
    limiter.windowAt client now =
      (limiter.openWindow client now).getD (.starting now) := by
  rw [windowAt, openWindow]
  cases limiter.clients.lookup client with
  | none => rfl
  | some window =>
      cases hExpired : window.expired limiter.window now with
      | true => simp [hExpired, Option.filter_some]
      | false => simp [hExpired, Option.filter_some]

/- What has expired stays expired. -/
theorem expired_of_le
    {window : Window}
    {length now later : Nat}
    (hLater : now ≤ later)
    (hExpired : window.expired length now = true) :
    window.expired length later = true := by
  rw [Window.expired, decide_eq_true_iff] at hExpired ⊢
  omega

/- A window that is open later is open now. -/
theorem openWindow_of_le
    (limiter : Limiter κ)
    (client : κ)
    {now later : Nat}
    (hLater : now ≤ later) :
    limiter.openWindow client later =
      (limiter.openWindow client now).filter
        fun window => !window.expired limiter.window later := by
  rw [openWindow, openWindow, Option.filter_filter]
  congr 1
  funext window
  cases hExpired : window.expired limiter.window now with
  | true => simp [expired_of_le hLater hExpired]
  | false => simp

/- A window that a request falls in has not expired. -/
theorem not_expired_windowAt
    (limiter : Limiter κ)
    (client : κ)
    (now : Nat) :
    (limiter.windowAt client now).expired limiter.window now = false := by
  have hStarting : (Window.starting now).expired limiter.window now = false := by
    simp [Window.expired, Window.starting]
  rw [windowAt]
  split
  · exact hStarting
  · split
    · exact hStarting
    · next hOpen => exact Bool.eq_false_iff.mpr hOpen

section Lookup

variable [LawfulBEq κ]

/- A request opens a window for its client and for no other. -/
theorem openWindow_check
    (limiter : Limiter κ)
    (client other : κ)
    (now : Nat) :
    (limiter.check client now).2.openWindow other now =
      if other == client then some (limiter.windowAt client now).counted
      else limiter.openWindow other now := by
  rw [openWindow, lookup_check]
  split
  · have hOpen := not_expired_windowAt limiter client now
    exact Option.filter_some_pos (congrArg not hOpen)
  · rfl

/- A purge leaves the open windows as they are. -/
theorem openWindow_purge
    {limiter : Limiter κ}
    (hUnique : limiter.IsUnique)
    (client : κ)
    (now : Nat) :
    (limiter.purge now).2.openWindow client now = limiter.openWindow client now := by
  have hWindow : (limiter.purge now).2.window = limiter.window := rfl
  rw [openWindow, lookup_purge hUnique, hWindow, Option.filter_filter]
  simp only [Bool.and_self]
  rfl

end Lookup

------------------------------------------------------------
-- Limiters that are alike
------------------------------------------------------------

/- From a time on no client can tell two limiters apart. -/
structure Alike
    (now : Nat)
    (limiter other : Limiter κ) : Prop where
  max_eq : limiter.max = other.max
  window_eq : limiter.window = other.window
  openWindow_eq : ∀ client, limiter.openWindow client now = other.openWindow client now

namespace Alike

variable {now : Nat} {limiter other : Limiter κ}

theorem refl
    (now : Nat)
    (limiter : Limiter κ) :
    Alike now limiter limiter where
  max_eq := rfl
  window_eq := rfl
  openWindow_eq := fun _ => rfl

theorem trans
    {third : Limiter κ}
    (hAlike : Alike now limiter other)
    (hThird : Alike now other third) :
    Alike now limiter third where
  max_eq := hAlike.max_eq.trans hThird.max_eq
  window_eq := hAlike.window_eq.trans hThird.window_eq
  openWindow_eq := fun client =>
    (hAlike.openWindow_eq client).trans (hThird.openWindow_eq client)

/- Time passes, and windows of both expire. -/
theorem wait
    (hAlike : Alike now limiter other)
    {later : Nat}
    (hLater : now ≤ later) :
    Alike later limiter other where
  max_eq := hAlike.max_eq
  window_eq := hAlike.window_eq
  openWindow_eq := by
    intro client
    rw [openWindow_of_le limiter client hLater, openWindow_of_le other client hLater,
      hAlike.openWindow_eq, hAlike.window_eq]

/- A request falls in the same window. -/
theorem windowAt_eq
    (hAlike : Alike now limiter other)
    (client : κ) :
    limiter.windowAt client now = other.windowAt client now := by
  rw [windowAt_eq_openWindow, windowAt_eq_openWindow, hAlike.openWindow_eq]

/- A request gets the same answer. -/
theorem step_check
    (hAlike : Alike now limiter other)
    (client : κ) :
    (limiter.step (.check client now)).1 = (other.step (.check client now)).1 := by
  simp only [step, Limiter.check, hAlike.windowAt_eq, hAlike.max_eq]

/- A request leaves both with the same open windows. -/
theorem check
    [LawfulBEq κ]
    (hAlike : Alike now limiter other)
    (client : κ) :
    Alike now (limiter.check client now).2 (other.check client now).2 where
  max_eq := hAlike.max_eq
  window_eq := hAlike.window_eq
  openWindow_eq := by
    intro another
    rw [openWindow_check, openWindow_check, hAlike.windowAt_eq, hAlike.openWindow_eq]

end Alike

/- A limiter is like the one before a purge. -/
theorem alike_purge
    [LawfulBEq κ]
    {limiter : Limiter κ}
    (hUnique : limiter.IsUnique)
    (now : Nat) :
    Alike now (limiter.purge now).2 limiter where
  max_eq := rfl
  window_eq := rfl
  openWindow_eq := fun client => openWindow_purge hUnique client now

/-
  The answers to requests are those that a limiter gives that is
  alike and sees the requests only.
-/
theorem Alike.checkAnswers_run
    [LawfulBEq κ]
    {now : Nat}
    {limiter other : Limiter κ}
    (hUnique : limiter.IsUnique)
    (hAlike : Alike now limiter other)
    {events : List (Event κ)}
    (hOrdered : (now :: events.map Event.time).Pairwise (· ≤ ·)) :
    checkAnswers events (limiter.run events) =
      checkAnswers (events.filter Event.isCheck)
        (other.run (events.filter Event.isCheck)) := by
  induction events generalizing now limiter other with
  | nil => rfl
  | cons event events ih =>
      rw [List.map_cons, List.pairwise_cons] at hOrdered
      have hWaited := hAlike.wait (hOrdered.1 event.time List.mem_cons_self)
      rw [run_cons]
      cases event with
      | check client time =>
          have hSeen : (Event.check client time).isCheck = true := rfl
          have hAnswer := hWaited.step_check client
          have hTail := ih (isUnique_check hUnique client time) (hWaited.check client)
            hOrdered.2
          rw [List.filter_cons_of_pos hSeen, run_cons, checkAnswers_check,
            checkAnswers_check]
          exact congrArg₂ (fun answer others => (_, answer) :: others) hAnswer hTail
      | purge time =>
          have hSkipped : ¬ (Event.purge time : Event κ).isCheck = true :=
            Bool.false_ne_true
          rw [List.filter_cons_of_neg hSkipped, checkAnswers_purge]
          exact ih (isUnique_purge hUnique time) ((alike_purge hUnique time).trans hWaited)
            hOrdered.2

------------------------------------------------------------
-- What a purge drops
------------------------------------------------------------

/- The clients whose window has expired. -/
def idleClients
    (limiter : Limiter κ)
    (now : Nat) : List κ :=
  (limiter.clients.filter fun entry => entry.2.expired limiter.window now).map Prod.fst

omit [BEq κ] in
theorem nodup_idleClients
    {limiter : Limiter κ}
    (hUnique : limiter.IsUnique)
    (now : Nat) :
    (limiter.idleClients now).Nodup :=
  hUnique.sublist (List.filter_sublist.map Prod.fst)

/- A client is known exactly if it has a window. -/
theorem mem_keys_iff
    [LawfulBEq κ]
    {client : κ}
    {clients : List (κ × Window)} :
    client ∈ clients.map Prod.fst ↔ ∃ window, clients.lookup client = some window := by
  rw [← Option.isSome_iff_exists, ← Option.not_isNone, Bool.not_eq_true', ← Bool.not_eq_true,
    Option.isNone_iff_eq_none, List.lookup_eq_none_iff]
  simp

theorem mem_idleClients_iff
    [LawfulBEq κ]
    {limiter : Limiter κ}
    (hUnique : limiter.IsUnique)
    {client : κ}
    {now : Nat} :
    client ∈ limiter.idleClients now ↔
      ∃ window, limiter.clients.lookup client = some window ∧
        window.started + limiter.window < now := by
  rw [idleClients, mem_keys_iff,
    lookup_filter (fun window => window.expired limiter.window now) client hUnique]
  simp only [Option.filter_eq_some_iff, Window.expired, decide_eq_true_eq,
    Nat.lt_sub_iff_add_lt']

omit [BEq κ] in
/- The answer to a purge is the number of clients that it drops. -/
theorem purge_fst
    (limiter : Limiter κ)
    (now : Nat) :
    (limiter.purge now).1 = (limiter.idleClients now).length := by
  have hLength := List.length_eq_length_filter_add
    (l := limiter.clients) fun entry => entry.2.expired limiter.window now
  rw [idleClients, List.length_map]
  simp only [purge]
  omega

/- An event changes neither the quota nor the length of a window. -/
theorem window_after
    (limiter : Limiter κ)
    (events : List (Event κ)) :
    (limiter.after events).window = limiter.window := by
  induction events generalizing limiter with
  | nil => rfl
  | cons event events ih =>
      cases event with
      | check client now => exact ih (limiter.check client now).2
      | purge now => exact ih (limiter.purge now).2

theorem isUnique_after
    [LawfulBEq κ]
    {limiter : Limiter κ}
    (hUnique : limiter.IsUnique)
    (events : List (Event κ)) :
    (limiter.after events).IsUnique := by
  induction events generalizing limiter with
  | nil => exact hUnique
  | cons event events ih =>
      cases event with
      | check client now => exact ih (isUnique_check hUnique client now)
      | purge now => exact ih (isUnique_purge hUnique now)

/-
  A purge drops the clients whose window started more than its
  length ago, answers how many these are, and leaves the windows
  of all others as they are.
-/
theorem purge_exact
    [LawfulBEq κ]
    {limiter : Limiter κ}
    (hUnique : limiter.IsUnique)
    (now : Nat) :
    ∃ idle : List κ,
      idle.Nodup ∧
        (∀ client, client ∈ idle ↔
          ∃ window, limiter.clients.lookup client = some window ∧
            window.started + limiter.window < now) ∧
        (limiter.purge now).1 = idle.length ∧
        (∀ client ∈ idle, (limiter.purge now).2.clients.lookup client = none) ∧
        (∀ client, client ∉ idle →
          (limiter.purge now).2.clients.lookup client = limiter.clients.lookup client) := by
  refine ⟨limiter.idleClients now, nodup_idleClients hUnique now,
    fun _ => mem_idleClients_iff hUnique, purge_fst limiter now, ?_, ?_⟩
  · intro client hIdle
    rw [mem_idleClients_iff hUnique] at hIdle
    rcases hIdle with ⟨window, hLookup, hOld⟩
    have hExpired : window.expired limiter.window now = true :=
      decide_eq_true (Nat.lt_sub_iff_add_lt'.mpr hOld)
    rw [lookup_purge hUnique, hLookup]
    exact Option.filter_some_neg (by simp [hExpired])
  · intro client hActive
    rw [mem_idleClients_iff hUnique] at hActive
    rw [lookup_purge hUnique]
    cases hLookup : limiter.clients.lookup client with
    | none => rfl
    | some window =>
        have hOpen : window.expired limiter.window now = false :=
          decide_eq_false fun hOld =>
            hActive ⟨window, hLookup, Nat.lt_sub_iff_add_lt'.mp hOld⟩
        exact Option.filter_some_pos (by simp [hOpen])

------------------------------------------------------------
-- Purges in a run
------------------------------------------------------------

/- The answer to an event behind others is that of the limiter behind them. -/
theorem getElem?_run_append
    (limiter : Limiter κ)
    (before : List (Event κ))
    (event : Event κ)
    (behind : List (Event κ)) :
    (limiter.run (before ++ event :: behind))[before.length]? =
      some ((limiter.after before).step event).1 := by
  have hLength := length_run limiter before
  rw [run_append, List.getElem?_append_right (Nat.le_of_eq hLength), hLength, Nat.sub_self,
    run_cons, List.getElem?_cons_zero]

/-
  Purges and what clients see of them. If the clock does not go
  back, leaving out purges changes the answer to no request. And
  at whatever times things happen, each purge answers with the
  number of clients whose window started more than its length
  ago, drops these, and leaves the windows of all others as they
  are.
-/
theorem purge_invisible
    [LawfulBEq κ]
    (max window : Nat)
    (events : List (Event κ)) :
    ((events.map Event.time).Pairwise (· ≤ ·) →
      ∀ kept, kept.Sublist events →
        kept.filter Event.isCheck = events.filter Event.isCheck →
          checkAnswers kept (run { max, window } kept) =
            checkAnswers events (run { max, window } events)) ∧
    (∀ before now behind,
      events = before ++ .purge now :: behind →
        ∃ idle : List κ,
          idle.Nodup ∧
            (∀ client, client ∈ idle ↔
              ∃ started count,
                (after { max, window } before).clients.lookup client =
                    some ⟨started, count⟩ ∧
                  started + window < now) ∧
            (run { max, window } events)[before.length]? = some (.removed idle.length) ∧
            (∀ client ∈ idle,
              (after { max, window } (before ++ [.purge now])).clients.lookup client = none) ∧
            (∀ client, client ∉ idle →
              (after { max, window } (before ++ [.purge now])).clients.lookup client =
                (after { max, window } before).clients.lookup client)) := by
  have hUnique : IsUnique ({ max, window } : Limiter κ) := isUnique_initial max window
  refine ⟨?_, ?_⟩
  · intro hOrdered kept hKept hChecks
    have hAnswers : ∀ seen : List (Event κ), (seen.map Event.time).Pairwise (· ≤ ·) →
        checkAnswers seen (run { max, window } seen) =
          checkAnswers (seen.filter Event.isCheck)
            (run { max, window } (seen.filter Event.isCheck)) := by
      intro seen hSeen
      exact (Alike.refl 0 _).checkAnswers_run hUnique
        (List.pairwise_cons.mpr ⟨fun time _ => Nat.zero_le time, hSeen⟩)
    rw [hAnswers events hOrdered, hAnswers kept (hOrdered.sublist (hKept.map Event.time)),
      hChecks]
  · intro before now behind hEvents
    rcases purge_exact (isUnique_after hUnique before) now with
      ⟨idle, hNodup, hIdle, hCount, hDropped, hLeft⟩
    have hAfter : after { max, window } (before ++ [.purge now]) =
        ((after { max, window } before : Limiter κ).purge now).2 :=
      List.foldl_append
    rw [window_after] at hIdle
    rw [hAfter, hEvents, getElem?_run_append]
    refine ⟨idle, hNodup, ?_, congrArg (some ∘ Answer.removed) hCount, hDropped, hLeft⟩
    intro client
    rw [hIdle]
    exact ⟨fun ⟨⟨started, count⟩, hOld⟩ => ⟨started, count, hOld⟩,
      fun ⟨started, count, hOld⟩ => ⟨⟨started, count⟩, hOld⟩⟩

/-
  Two clients and three purges: the first drops nobody, as the
  older window is exactly as old as windows may get, the second
  drops one client and the last both.
-/
def purgedEvents : List (Event Nat) :=
  [.check 1 0, .check 1 1, .check 2 4, .purge 10, .check 1 10, .purge 11, .check 2 12,
    .check 1 12, .purge 30, .check 2 30]

theorem purge_invisible_purgedEvents :
    (purgedEvents.map Event.time).Pairwise (· ≤ ·) ∧
      (purgedEvents.eraseIdx 5).Sublist purgedEvents ∧
      (purgedEvents.eraseIdx 5).filter Event.isCheck = purgedEvents.filter Event.isCheck ∧
      checkAnswers (purgedEvents.eraseIdx 5)
          (run { max := 2, window := 10 } (purgedEvents.eraseIdx 5)) =
        checkAnswers purgedEvents (run { max := 2, window := 10 } purgedEvents) ∧
      purgedEvents = purgedEvents.take 5 ++ .purge 11 :: purgedEvents.drop 6 ∧
      ∃ idle : List Nat,
        1 ∈ idle ∧ 2 ∉ idle ∧
          (run { max := 2, window := 10 } purgedEvents)[5]? = some (.removed idle.length) ∧
          (after { max := 2, window := 10 }
            (purgedEvents.take 5 ++ [.purge 11])).clients.lookup 1 = none := by
  rcases purge_invisible 2 10 purgedEvents with ⟨hInvisible, hPurge⟩
  have hOrdered : (purgedEvents.map Event.time).Pairwise (· ≤ ·) := by
    decide
  have hSublist := List.eraseIdx_sublist purgedEvents 5
  have hChecks : (purgedEvents.eraseIdx 5).filter Event.isCheck =
      purgedEvents.filter Event.isCheck := by
    decide
  rcases hPurge (purgedEvents.take 5) 11 (purgedEvents.drop 6) rfl with
    ⟨idle, -, hIdle, hCount, hDropped, -⟩
  have hFirst : 1 ∈ idle := (hIdle 1).mpr ⟨0, 3, by decide, by decide⟩
  have hSecond : 2 ∉ idle := by
    have hWindow : (after { max := 2, window := 10 } (purgedEvents.take 5)).clients.lookup 2 =
        some ⟨4, 1⟩ := by
      decide
    rw [hIdle]
    rintro ⟨started, count, hLookup, hOld⟩
    rw [hWindow, Option.some.injEq, Window.mk.injEq] at hLookup
    omega
  exact ⟨hOrdered, hSublist, hChecks, hInvisible hOrdered _ hSublist hChecks, rfl,
    idle, hFirst, hSecond, hCount, hDropped 1 hFirst⟩

end Limiter

end JqLens

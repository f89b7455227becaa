import JqLens.Service.Quota
import Mathlib.Data.List.Nodup

/-
  This file proves that a limiter treats each client as if it
  were alone. What the limiter answers to a client is what a
  tally of this client's requests would answer, which never
  hears of the others, and which counts without a bound.

  The limiter counts up to a greatest number and stays there,
  also for requests that it denies. As long as the quota is
  below that number, this makes no difference; a quota of that
  number denies nothing.

  Key definitions include:
    * `Tally`
    * `Tally.renewed`
    * `Tally.answers`
    * `Limiter.Event.concerns`
    * `Limiter.answersTo`
    * `Limiter.backwardEvents`

  Main results:
    * `Limiter.lookup_check`
    * `Limiter.lookup_purge`
    * `Limiter.answersTo_run`
    * `Limiter.answers_eq_tally`
-/

namespace JqLens

------------------------------------------------------------
-- The requests of a client
------------------------------------------------------------

namespace Limiter

variable {κ : Type}

/- When an event happens. -/
def Event.time : Event κ → Nat
  | .check _ now => now
  | .purge now => now

variable [BEq κ]

/- An event is a request of the client, or a purge. -/
def Event.concerns
    (client : κ) : Event κ → Bool
  | .check other _ => other == client
  | .purge _ => true

/- The time of an event and its answer, if it is a request of the client. -/
def answerTo
    (client : κ) : Event κ → Answer → Option (Nat × Bool)
  | .check other now, .allowed within =>
      if other == client then some (now, within) else none
  | _, _ => none

/-
  The times of a client's requests with the answers to them,
  taken from the answers to all events.
-/
def answersTo
    (client : κ)
    (events : List (Event κ))
    (answers : List Answer) : List (Nat × Bool) :=
  (events.zip answers).filterMap fun entry => answerTo client entry.1 entry.2

theorem answersTo_cons
    (client : κ)
    (event : Event κ)
    (events : List (Event κ))
    (answer : Answer)
    (answers : List Answer) :
    answersTo client (event :: events) (answer :: answers) =
      (answerTo client event answer).toList ++ answersTo client events answers := by
  rw [answersTo, List.zip_cons_cons, List.filterMap_cons]
  cases answerTo client event answer with
  | none => rfl
  | some entry => rfl

end Limiter

------------------------------------------------------------
-- Tallies
------------------------------------------------------------

/- The requests of one client in a window of time. -/
structure Tally where
  /- The time of the first request. -/
  start : Nat
  /- How many requests there have been. -/
  count : Nat
  deriving DecidableEq, Repr

namespace Tally

/- The time since the start: none if the clock has gone back. -/
def elapsed
    (now : Nat)
    (tally : Tally) : Nat :=
  if now < tally.start then 0 else now - tally.start

/- More time has passed than a window is long. -/
def isOver
    (length now : Nat)
    (tally : Tally) : Bool :=
  length < tally.elapsed now

/-
  The tally that a request is counted in: the one that is kept,
  or a new one if there is none or it is over.
-/
def renewed
    (length now : Nat) : Option Tally → Tally
  | none => ⟨now, 0⟩
  | some tally => if tally.isOver length now then ⟨now, 0⟩ else tally

/- The tally with one more request. -/
def counted
    (tally : Tally) : Tally :=
  { tally with count := tally.count + 1 }

/- What is kept of a tally at a purge. -/
def purged
    (length now : Nat)
    (kept : Option Tally) : Option Tally :=
  kept.filter fun tally => !tally.isOver length now

/-
  The answers to the requests of a single client, with their
  times. A request is allowed if it is among the first ones of
  its window, as many as the quota.
-/
def answers
    {κ : Type}
    (max length : Nat)
    (kept : Option Tally) : List (Limiter.Event κ) → List (Nat × Bool)
  | [] => []
  | .check _ now :: events =>
      let tally := renewed length now kept
      (now, tally.count < max) :: answers max length (some tally.counted) events
  | .purge now :: events => answers max length (purged length now kept) events

/- The window that a limiter keeps for a tally. -/
def window
    (tally : Tally) : Window :=
  { started := tally.start, count := min tally.count Window.maxCount }

theorem isOver_iff
    (length now : Nat)
    (tally : Tally) :
    tally.isOver length now = true ↔ tally.start + length < now := by
  rw [isOver, decide_eq_true_iff, elapsed]
  split
  · omega
  · omega

/- A request falls in the tally that a purge would leave, or in a new one. -/
theorem renewed_eq
    (length now : Nat)
    (kept : Option Tally) :
    renewed length now kept = (purged length now kept).getD ⟨now, 0⟩ := by
  cases kept with
  | none => rfl
  | some tally =>
      rw [renewed, purged]
      cases hOver : tally.isOver length now with
      | true => rw [if_pos rfl, Option.filter_some_neg (by simp [hOver]), Option.getD_none]
      | false =>
          rw [if_neg Bool.false_ne_true, Option.filter_some_pos (by simp [hOver]),
            Option.getD_some]

/- The tally that a request falls in is not over. -/
theorem le_start_renewed
    (length now : Nat)
    (kept : Option Tally) :
    now ≤ (renewed length now kept).start + length := by
  cases kept with
  | none => exact Nat.le_add_right now length
  | some tally =>
      rw [renewed]
      split
      · exact Nat.le_add_right now length
      · next hOpen =>
          rw [isOver_iff, Nat.not_lt] at hOpen
          exact hOpen

/- The window is over when the tally is. -/
theorem expired_window
    (length now : Nat)
    (tally : Tally) :
    tally.window.expired length now = tally.isOver length now := by
  rw [Bool.eq_iff_iff, isOver_iff, Window.expired, decide_eq_true_iff]
  exact Nat.lt_sub_iff_add_lt'

/- The window counts what the tally counts, up to the greatest number. -/
theorem counted_window
    (tally : Tally) :
    tally.window.counted = tally.counted.window := by
  simp only [window, counted, Window.counted, Window.mk.injEq, true_and]
  omega

/- Below the greatest number the window tells what the tally does. -/
theorem count_window_le_iff
    {max : Nat}
    (hMax : max < Window.maxCount)
    (tally : Tally) :
    tally.counted.window.count ≤ max ↔ tally.count < max := by
  simp only [window, counted]
  omega

end Tally

------------------------------------------------------------
-- The windows of a limiter
------------------------------------------------------------

namespace Limiter

variable {κ : Type} [BEq κ]

/- No client has two windows. -/
def IsUnique
    (limiter : Limiter κ) : Prop :=
  (limiter.clients.map Prod.fst).Nodup

omit [BEq κ] in
theorem isUnique_initial
    (max window : Nat) :
    IsUnique ({ max, window } : Limiter κ) :=
  List.nodup_nil

/- A run answers the first event and goes on from the limiter behind it. -/
theorem run_cons
    (limiter : Limiter κ)
    (event : Event κ)
    (events : List (Event κ)) :
    limiter.run (event :: events) =
      (limiter.step event).1 :: (limiter.step event).2.run events := rfl

/- A client of a put window was known or is the window's own. -/
theorem mem_keys_put
    {client other : κ}
    {window : Window}
    {clients : List (κ × Window)}
    (hMember : other ∈ (put client window clients).map Prod.fst) :
    other = client ∨ other ∈ clients.map Prod.fst := by
  induction clients with
  | nil =>
      left
      exact List.mem_singleton.mp hMember
  | cons entry clients ih =>
      rcases entry with ⟨first, old⟩
      rw [put] at hMember
      split at hMember
      · exact Or.inr hMember
      · rcases List.mem_cons.mp hMember with hFirst | hTail
        · exact Or.inr (List.mem_cons.mpr (Or.inl hFirst))
        · rcases ih hTail with hClient | hKnown
          · exact Or.inl hClient
          · exact Or.inr (List.mem_cons_of_mem first hKnown)

section Lookup

variable [LawfulBEq κ]

/- Putting a window changes the window of its client and no other. -/
theorem lookup_put
    (client other : κ)
    (window : Window)
    (clients : List (κ × Window)) :
    (put client window clients).lookup other =
      if other == client then some window else clients.lookup other := by
  induction clients with
  | nil =>
      rw [put, List.lookup_cons, List.lookup_nil]
      cases other == client with
      | true => rfl
      | false => rfl
  | cons entry clients ih =>
      rcases entry with ⟨first, old⟩
      rw [put]
      by_cases hFirst : first = client
      · subst hFirst
        rw [if_pos (beq_self_eq_true first), List.lookup_cons, List.lookup_cons]
        cases other == first with
        | true => rfl
        | false => rfl
      · have hOther : ¬ (first == client) = true := by
          rwa [beq_iff_eq]
        rw [if_neg hOther, List.lookup_cons, List.lookup_cons, ih]
        cases hHead : other == first with
        | true =>
            have hClient : ¬ (other == client) = true := by
              rwa [eq_of_beq hHead]
            rw [if_neg hClient, if_neg hClient]
        | false => rfl

theorem nodup_keys_put
    (client : κ)
    (window : Window)
    {clients : List (κ × Window)}
    (hUnique : (clients.map Prod.fst).Nodup) :
    ((put client window clients).map Prod.fst).Nodup := by
  induction clients with
  | nil => exact List.nodup_singleton client
  | cons entry clients ih =>
      rcases entry with ⟨first, old⟩
      rw [List.map_cons, List.nodup_cons] at hUnique
      rw [put]
      split
      · exact List.nodup_cons.mpr hUnique
      · next hOther =>
          rw [List.map_cons, List.nodup_cons]
          refine ⟨?_, ih hUnique.2⟩
          intro hMember
          rcases mem_keys_put hMember with hClient | hKnown
          · exact hOther (beq_iff_eq.mpr hClient)
          · exact hUnique.1 hKnown

/-
  What is kept of a client's window does not depend on other
  windows, as the client has only one.
-/
theorem lookup_filter
    (keep : Window → Bool)
    (client : κ)
    {clients : List (κ × Window)}
    (hUnique : (clients.map Prod.fst).Nodup) :
    (clients.filter fun entry => keep entry.2).lookup client =
      (clients.lookup client).filter keep := by
  induction clients with
  | nil => rfl
  | cons entry clients ih =>
      rcases entry with ⟨first, window⟩
      rw [List.map_cons, List.nodup_cons] at hUnique
      have hTail := ih hUnique.2
      rw [List.filter_cons, List.lookup_cons]
      cases hHead : client == first with
      | true =>
          have hNone : clients.lookup client = none := by
            rw [List.lookup_eq_none_iff]
            intro entry hMember
            rw [eq_of_beq hHead, bne_iff_ne]
            intro hSame
            have hKnown := List.mem_map_of_mem (f := Prod.fst) hMember
            rw [← hSame] at hKnown
            exact hUnique.1 hKnown
          cases hKeep : keep window with
          | true => rw [if_pos rfl, List.lookup_cons, hHead, Option.filter_some_pos hKeep]
          | false =>
              rw [if_neg Bool.false_ne_true, hTail, hNone, Option.filter_some_neg hKeep]
              rfl
      | false =>
          split
          · rw [List.lookup_cons, hHead]
            exact hTail
          · exact hTail

/- A request changes the window of its client and no other. -/
theorem lookup_check
    (limiter : Limiter κ)
    (client other : κ)
    (now : Nat) :
    (limiter.check client now).2.clients.lookup other =
      if other == client then some (limiter.windowAt client now).counted
      else limiter.clients.lookup other :=
  lookup_put client other _ limiter.clients

/- A purge drops the window of a client if it has expired. -/
theorem lookup_purge
    {limiter : Limiter κ}
    (hUnique : limiter.IsUnique)
    (client : κ)
    (now : Nat) :
    (limiter.purge now).2.clients.lookup client =
      (limiter.clients.lookup client).filter
        fun window => !window.expired limiter.window now :=
  lookup_filter (fun window => !window.expired limiter.window now) client hUnique

theorem isUnique_check
    {limiter : Limiter κ}
    (hUnique : limiter.IsUnique)
    (client : κ)
    (now : Nat) :
    (limiter.check client now).2.IsUnique :=
  nodup_keys_put client _ hUnique

end Lookup

omit [BEq κ] in
theorem isUnique_purge
    {limiter : Limiter κ}
    (hUnique : limiter.IsUnique)
    (now : Nat) :
    (limiter.purge now).2.IsUnique :=
  hUnique.sublist (List.filter_sublist.map Prod.fst)

------------------------------------------------------------
-- A limiter and a tally
------------------------------------------------------------

/- The limiter keeps the window of the tally for a client. -/
def Keeps
    (limiter : Limiter κ)
    (client : κ)
    (kept : Option Tally) : Prop :=
  limiter.clients.lookup client = kept.map Tally.window

/- A request falls in the window of the tally that it is counted in. -/
theorem windowAt_eq
    {limiter : Limiter κ}
    {client : κ}
    {kept : Option Tally}
    (hKeeps : limiter.Keeps client kept)
    (now : Nat) :
    limiter.windowAt client now = (Tally.renewed limiter.window now kept).window := by
  rw [windowAt, hKeeps]
  cases kept with
  | none => rfl
  | some tally =>
      simp only [Option.map_some, Tally.renewed, Tally.expired_window]
      split
      · rfl
      · rfl

section Tally

variable [LawfulBEq κ]

/- A request of the client is counted in the tally. -/
theorem keeps_check
    {limiter : Limiter κ}
    {client : κ}
    {kept : Option Tally}
    (hKeeps : limiter.Keeps client kept)
    (now : Nat) :
    (limiter.check client now).2.Keeps client
      (some (Tally.renewed limiter.window now kept).counted) := by
  rw [Keeps, lookup_check, if_pos (beq_self_eq_true client), windowAt_eq hKeeps,
    Tally.counted_window]
  rfl

/- The requests of others leave the tally as it is. -/
theorem keeps_check_other
    {limiter : Limiter κ}
    {client other : κ}
    {kept : Option Tally}
    (hKeeps : limiter.Keeps client kept)
    (hOther : (other == client) = false)
    (now : Nat) :
    (limiter.check other now).2.Keeps client kept := by
  have hClient : ¬ (client == other) = true := by
    rw [BEq.comm, hOther]
    exact Bool.false_ne_true
  rw [Keeps, lookup_check, if_neg hClient]
  exact hKeeps

theorem keeps_purge
    {limiter : Limiter κ}
    {client : κ}
    {kept : Option Tally}
    (hUnique : limiter.IsUnique)
    (hKeeps : limiter.Keeps client kept)
    (now : Nat) :
    (limiter.purge now).2.Keeps client (Tally.purged limiter.window now kept) := by
  rw [Keeps, lookup_purge hUnique, hKeeps, Tally.purged]
  cases kept with
  | none => rfl
  | some tally =>
      simp only [Option.map_some, Option.filter_some, Tally.expired_window]
      split
      · rfl
      · rfl

/- A request of the client is allowed if the tally has room for it. -/
theorem answerTo_check
    {limiter : Limiter κ}
    {client : κ}
    {kept : Option Tally}
    (hMax : limiter.max < Window.maxCount)
    (hKeeps : limiter.Keeps client kept)
    (now : Nat) :
    answerTo client (.check client now) (limiter.step (.check client now)).1 =
      some (now, decide ((Tally.renewed limiter.window now kept).count < limiter.max)) := by
  have hAnswer : (limiter.step (.check client now)).1 =
      .allowed (decide ((limiter.windowAt client now).counted.count ≤ limiter.max)) := rfl
  rw [hAnswer, windowAt_eq hKeeps, Tally.counted_window, answerTo,
    if_pos (beq_self_eq_true client)]
  simp only [Tally.count_window_le_iff hMax]

/-
  A limiter answers a client as the tally does whose window it
  keeps. Events of other clients are skipped; each other event
  leaves the limiter with the window of the tally behind it.
-/
theorem answersTo_run
    (limiter : Limiter κ)
    (client : κ)
    (kept : Option Tally)
    (hMax : limiter.max < Window.maxCount)
    (hUnique : limiter.IsUnique)
    (hKeeps : limiter.Keeps client kept)
    (events : List (Event κ)) :
    answersTo client events (limiter.run events) =
      Tally.answers limiter.max limiter.window kept
        (events.filter (·.concerns client)) := by
  induction events generalizing limiter kept with
  | nil => rfl
  | cons event events ih =>
      rw [run_cons, answersTo_cons, List.filter_cons]
      cases event with
      | check other now =>
          have hBehind := isUnique_check hUnique other now
          by_cases hClient : other = client
          · subst hClient
            have hTail := ih (limiter.check other now).2 _ hMax hBehind (keeps_check hKeeps now)
            have hSeen : (Event.check other now).concerns other = true :=
              beq_self_eq_true other
            rw [answerTo_check hMax hKeeps, if_pos hSeen, Tally.answers]
            exact congrArg _ hTail
          · have hOther : (other == client) = false := beq_eq_false_iff_ne.mpr hClient
            have hTail := ih (limiter.check other now).2 kept hMax hBehind
              (keeps_check_other hKeeps hOther now)
            have hAnswer : answerTo client (.check other now)
                (limiter.step (.check other now)).1 = none := by
              exact if_neg (by rw [hOther]; exact Bool.false_ne_true)
            have hSkipped : ¬ (Event.check other now).concerns client = true := by
              rw [Event.concerns, hOther]
              exact Bool.false_ne_true
            rw [hAnswer, if_neg hSkipped]
            exact hTail
      | purge now =>
          exact ih (limiter.purge now).2 _ hMax (isUnique_purge hUnique now)
            (keeps_purge hUnique hKeeps now)

/- The answers of a new limiter to a client are those of a new tally. -/
theorem answersTo_initial
    {max : Nat}
    (hMax : max < Window.maxCount)
    (window : Nat)
    (client : κ)
    (events : List (Event κ)) :
    answersTo client events (run { max, window } events) =
      Tally.answers max window none (events.filter (·.concerns client)) :=
  answersTo_run { max, window } client none hMax (isUnique_initial max window) rfl events

end Tally

------------------------------------------------------------
-- The greatest quota
------------------------------------------------------------

/- No window counts more than the greatest number. -/
theorem count_counted_le
    (window : Window) :
    window.counted.count ≤ Window.maxCount :=
  Nat.min_le_right _ _

/- A quota of the greatest number allows every request. -/
theorem getElem?_run_of_maxCount
    {limiter : Limiter κ}
    (hMax : limiter.max = Window.maxCount)
    {events : List (Event κ)}
    {client : κ}
    {now i : Nat}
    (hCheck : events[i]? = some (.check client now)) :
    (limiter.run events)[i]? = some (.allowed true) := by
  induction events generalizing limiter i with
  | nil => simp at hCheck
  | cons event events ih =>
      rw [run_cons]
      cases i with
      | zero =>
          rw [List.getElem?_cons_zero, Option.some.injEq] at hCheck
          rw [hCheck, List.getElem?_cons_zero]
          have hWithin : (limiter.windowAt client now).counted.count ≤ limiter.max := by
            rw [hMax]
            exact count_counted_le _
          exact congrArg (fun within => some (Answer.allowed within)) (decide_eq_true hWithin)
      | succ i =>
          rw [List.getElem?_cons_succ] at hCheck ⊢
          have hBehind : (limiter.step event).2.max = Window.maxCount := by
            cases event with
            | check other time => exact hMax
            | purge time => exact hMax
          exact ih hBehind hCheck

/-
  A limiter against an unbounded tally. With a quota below the
  greatest number that a window counts, each client gets the
  answers of a tally that sees only its own requests and the
  purges, at whatever times these happen. With a quota of that
  number every request is allowed.
-/
theorem answers_eq_tally
    [LawfulBEq κ]
    (window : Nat)
    (events : List (Event κ)) :
    (∀ max, max < UInt32.size - 1 → ∀ client,
      answersTo client events (run { max, window } events) =
        Tally.answers max window none (events.filter (·.concerns client))) ∧
    (∀ (i : Nat) (client : κ) (now : Nat),
      events[i]? = some (.check client now) →
        (run { max := UInt32.size - 1, window } events)[i]? = some (.allowed true)) := by
  refine ⟨?_, ?_⟩
  · intro max hMax client
    exact answersTo_initial hMax window client events
  · intro i client now hCheck
    exact getElem?_run_of_maxCount rfl hCheck

/-
  Two clients with a clock that goes back, a purge that drops
  one of them while the other is at its quota, and the same
  events with the greatest quota.
-/
def backwardEvents : List (Event Nat) :=
  [.check 1 5, .check 2 9, .check 1 3, .check 1 15, .purge 16, .check 1 14, .check 2 19,
    .check 2 20]

theorem answers_eq_tally_backwardEvents :
    answersTo 1 backwardEvents (run { max := 1, window := 10 } backwardEvents) =
        Tally.answers 1 10 none (backwardEvents.filter (·.concerns 1)) ∧
      Tally.answers 1 10 none (backwardEvents.filter (·.concerns 1)) =
        [(5, true), (3, false), (15, false), (14, true)] ∧
      answersTo 2 backwardEvents (run { max := 1, window := 10 } backwardEvents) =
        Tally.answers 1 10 none (backwardEvents.filter (·.concerns 2)) ∧
      Tally.answers 1 10 none (backwardEvents.filter (·.concerns 2)) =
        [(9, true), (19, false), (20, true)] ∧
      (run { max := UInt32.size - 1, window := 10 } backwardEvents)[3]? = some (.allowed true) := by
  rcases answers_eq_tally 10 backwardEvents with ⟨hTally, hGreatest⟩
  exact ⟨hTally 1 (by decide) 1, by decide, hTally 1 (by decide) 2, by decide,
    hGreatest 3 1 15 rfl⟩

end Limiter

end JqLens

/-
  This file limits how many requests a client may make in a
  window of time. The window of a client starts with its first
  request and is started anew by the first request after it has
  expired. Clients with an expired window are forgotten from
  time to time. Time is a number that the caller passes in, and
  a clock that goes back counts as one that stands still.

  Key definitions include:
    * `Limiter`
    * `Limiter.check`
    * `Limiter.purge`
    * `Limiter.Event`
    * `Limiter.run`
-/

namespace JqLens

------------------------------------------------------------
-- Windows
------------------------------------------------------------

/- The window of a client: when it started and its requests so far. -/
structure Window where
  started : Nat
  count : Nat
  deriving DecidableEq, Repr

namespace Window

/- The greatest number of requests that a window tells apart. -/
def maxCount : Nat :=
  UInt32.size - 1

/- The window that a client's first request starts. -/
def starting (now : Nat) : Window :=
  { started := now, count := 0 }

/- More time than the given length has passed since the start. -/
def expired (length now : Nat) (window : Window) : Bool :=
  length < now - window.started

/- The window with one more request. -/
def counted (window : Window) : Window :=
  { window with count := min (window.count + 1) maxCount }

end Window

------------------------------------------------------------
-- The limiter
------------------------------------------------------------

/- The windows of all clients that are known. -/
structure Limiter (κ : Type) where
  /- How many requests a client may make in a window. -/
  max : Nat
  /- The length of a window. -/
  window : Nat
  clients : List (κ × Window) := []
  deriving Repr

namespace Limiter

variable {κ : Type} [BEq κ]

/- Put the window of a client in the place of its earlier one. -/
def put (client : κ) (window : Window) : List (κ × Window) → List (κ × Window)
  | [] => [(client, window)]
  | (other, old) :: clients =>
      if other == client then (other, window) :: clients
      else (other, old) :: put client window clients

/- The window in which a request of a client at a time falls. -/
def windowAt (limiter : Limiter κ) (client : κ) (now : Nat) : Window :=
  match limiter.clients.lookup client with
  | none => .starting now
  | some window => if window.expired limiter.window now then .starting now else window

/-
  Record a request of a client. The answer tells whether the
  client is within its quota.
-/
def check
    (limiter : Limiter κ)
    (client : κ)
    (now : Nat) : Bool × Limiter κ :=
  let window := (limiter.windowAt client now).counted
  (window.count ≤ limiter.max,
    { limiter with clients := put client window limiter.clients })

/-
  Forget the clients whose window has expired. The answer is
  their number.
-/
def purge (limiter : Limiter κ) (now : Nat) : Nat × Limiter κ :=
  let kept := limiter.clients.filter fun entry => !entry.2.expired limiter.window now
  (limiter.clients.length - kept.length, { limiter with clients := kept })

------------------------------------------------------------
-- Runs
------------------------------------------------------------

/- Something that happens to a limiter. -/
inductive Event (κ : Type) where
  | check (client : κ) (now : Nat)
  | purge (now : Nat)
  deriving DecidableEq, Repr

/- What a limiter answers. -/
inductive Answer where
  | allowed (within : Bool)
  | removed (count : Nat)
  deriving DecidableEq, Repr

/- One event with its answer. -/
def step (limiter : Limiter κ) : Event κ → Answer × Limiter κ
  | .check client now =>
      let (within, limiter) := limiter.check client now
      (.allowed within, limiter)
  | .purge now =>
      let (count, limiter) := limiter.purge now
      (.removed count, limiter)

/- The answers to events in order. -/
def run (limiter : Limiter κ) : List (Event κ) → List Answer
  | [] => []
  | event :: events =>
      let (answer, limiter) := limiter.step event
      answer :: run limiter events

------------------------------------------------------------
-- The regular purge
------------------------------------------------------------

/- The shortest interval between two regular purges, in milliseconds. -/
def minPurgeInterval : Nat :=
  1000

/-
  The times of the first regular purges from a start on: one at
  once, the others at an interval that is not too short.
-/
def purgeTimes (start every : Nat) (count : Nat) : List Nat :=
  (List.range count).map fun k => start + k * Max.max every minPurgeInterval

/- The limiter after purges at the given times. -/
def purgeAll (limiter : Limiter κ) (times : List Nat) : Limiter κ :=
  times.foldl (fun limiter now => (limiter.purge now).2) limiter

end Limiter

end JqLens

import JqLens.Service.Router
import JqLens.Proofs.Quota

/-
  This file proves that requests to the service have nothing to
  do with each other, the quotas of their clients apart. In a
  single window of time, a request is answered by how many
  requests of its client have come before: as if it were the
  first one of all, or that there have been too many.

  A quota is over when as many requests have come as it allows,
  whatever they were for and whatever became of them. Who asks
  for the head of what a route has gets no body, not even that
  of a denial.

  Key definitions include:
    * `Limiter.HasCounted`
    * `HttpRequest.denial`
    * `Route.Accepts`

  Main results:
    * `Service.getElem?_handleAll`
    * `Service.status_dispatch_ne`
    * `Service.handleAll_isolated`
-/

namespace JqLens

------------------------------------------------------------
-- Counting in one window
------------------------------------------------------------

namespace Tally

/- The requests that a tally has counted, if there is one. -/
def counts
    (kept : Option Tally) : Nat :=
  (kept.map Tally.count).getD 0

/- In one window of time a tally goes on. -/
theorem renewed_of_open
    {start length now : Nat}
    {kept : Option Tally}
    (hSince : start ≤ now)
    (hUntil : now ≤ start + length)
    (hStart : ∀ tally ∈ kept, start ≤ tally.start) :
    (renewed length now kept).count = counts kept ∧
      start ≤ (renewed length now kept).start := by
  cases kept with
  | none => exact ⟨rfl, hSince⟩
  | some tally =>
      have hKept := hStart tally rfl
      have hOpen : ¬ tally.isOver length now = true := by
        rw [isOver_iff]
        omega
      rw [renewed, if_neg hOpen]
      exact ⟨rfl, hKept⟩

end Tally

namespace Limiter

variable {κ : Type} [BEq κ]

/- The limiter has counted so many requests of a client since a time. -/
def HasCounted
    (limiter : Limiter κ)
    (client : κ)
    (start n : Nat) : Prop :=
  ∃ kept, limiter.Keeps client kept ∧ Tally.counts kept = n ∧
    ∀ tally ∈ kept, start ≤ tally.start

theorem hasCounted_initial
    (max window : Nat)
    (client : κ)
    (start : Nat) :
    HasCounted { max, window } client start 0 :=
  ⟨none, rfl, rfl, fun _ hNone => by cases hNone⟩

section Check

variable {limiter : Limiter κ} {client : κ} {start n now : Nat}

/- A client is within its quota if fewer requests have been counted. -/
theorem check_of_hasCounted
    (hMax : limiter.max < Window.maxCount)
    (hCounted : limiter.HasCounted client start n)
    (hSince : start ≤ now)
    (hUntil : now ≤ start + limiter.window) :
    (limiter.check client now).1 = decide (n < limiter.max) := by
  rcases hCounted with ⟨kept, hKeeps, rfl, hStart⟩
  have hCount := (Tally.renewed_of_open hSince hUntil hStart).1
  have hAnswer : (limiter.check client now).1 =
      decide ((limiter.windowAt client now).counted.count ≤ limiter.max) := rfl
  rw [hAnswer, windowAt_eq hKeeps, Tally.counted_window]
  simp only [Tally.count_window_le_iff hMax, hCount]

variable [LawfulBEq κ]

theorem hasCounted_check
    (hCounted : limiter.HasCounted client start n)
    (hSince : start ≤ now)
    (hUntil : now ≤ start + limiter.window) :
    (limiter.check client now).2.HasCounted client start (n + 1) := by
  rcases hCounted with ⟨kept, hKeeps, rfl, hStart⟩
  rcases Tally.renewed_of_open hSince hUntil hStart with ⟨hCount, hBehind⟩
  refine ⟨_, keeps_check hKeeps now, congrArg (· + 1) hCount, ?_⟩
  intro tally hTally
  rw [Option.mem_some_iff] at hTally
  rw [← hTally]
  exact hBehind

/- The requests of others are not counted. -/
theorem hasCounted_check_other
    {other : κ}
    (hCounted : limiter.HasCounted client start n)
    (hOther : (other == client) = false) :
    (limiter.check other now).2.HasCounted client start n := by
  rcases hCounted with ⟨kept, hKeeps, hCount, hStart⟩
  exact ⟨kept, keeps_check_other hKeeps hOther now, hCount, hStart⟩

end Check

end Limiter

------------------------------------------------------------
-- Requests in one window
------------------------------------------------------------

/- How many of the requests are those of a client. -/
def requestsOf
    (client : Ip)
    (requests : List (Nat × HttpRequest)) : Nat :=
  requests.countP fun entry => entry.2.client == client

/- All requests come in the window that starts at a time. -/
def InWindow
    (start length : Nat)
    (requests : List (Nat × HttpRequest)) : Prop :=
  ∀ entry ∈ requests, start ≤ entry.1 ∧ entry.1 ≤ start + length

namespace Service

/-
  In one window, a request is answered by how many requests of
  its client have been counted before it.
-/
theorem getElem?_handleAll
    (service : Service)
    {limiter : Limiter Ip}
    {requests : List (Nat × HttpRequest)}
    {request : HttpRequest}
    {start n i now : Nat}
    (hMax : limiter.max < Window.maxCount)
    (hWindow : InWindow start limiter.window requests)
    (hCounted : limiter.HasCounted request.client start n)
    (hRequest : requests[i]? = some (now, request)) :
    (service.handleAll limiter requests)[i]? =
      some (service.respondWithin
        (decide (n + requestsOf request.client (requests.take i) < limiter.max)) request) := by
  -- A request behind the first one meets a limiter that has counted that one too.
  induction requests generalizing limiter i n with
  | nil => simp at hRequest
  | cons entry requests ih =>
      rcases entry with ⟨time, first⟩
      rcases hWindow (time, first) List.mem_cons_self with ⟨hSince, hUntil⟩
      have hTail : InWindow start limiter.window requests :=
        fun other hOther => hWindow other (List.mem_cons_of_mem _ hOther)
      cases i with
      | zero =>
          rw [List.getElem?_cons_zero, Option.some.injEq, Prod.mk.injEq] at hRequest
          rcases hRequest with ⟨rfl, rfl⟩
          have hCheck := Limiter.check_of_hasCounted hMax hCounted hSince hUntil
          rw [List.take_zero]
          simp only [handleAll, handle, List.getElem?_cons_zero, hCheck]
          rfl
      | succ i =>
          rw [List.getElem?_cons_succ] at hRequest
          have hBehind : (service.handleAll limiter ((time, first) :: requests))[i + 1]? =
              (service.handleAll (limiter.check first.client time).2 requests)[i]? := rfl
          rw [hBehind, List.take_succ_cons]
          cases hClient : first.client == request.client with
          | true =>
              have hCount : requestsOf request.client ((time, first) :: requests.take i) =
                  requestsOf request.client (requests.take i) + 1 :=
                List.countP_cons_of_pos hClient
              rw [hCount, ← Nat.add_assoc, Nat.add_right_comm, eq_of_beq hClient]
              exact ih hMax hTail (Limiter.hasCounted_check hCounted hSince hUntil) hRequest
          | false =>
              have hCount : requestsOf request.client ((time, first) :: requests.take i) =
                  requestsOf request.client (requests.take i) :=
                List.countP_cons_of_neg (by simp [hClient])
              rw [hCount]
              exact ih hMax hTail (Limiter.hasCounted_check_other hCounted hClient) hRequest

/- With a new limiter, only the requests before it count. -/
theorem getElem?_handleAll_initial
    (service : Service)
    {quota : QuotaConfig}
    {requests : List (Nat × HttpRequest)}
    {request : HttpRequest}
    {start i now : Nat}
    (hQuota : quota.requests < Window.maxCount)
    (hWindow : InWindow start (quota.windowSeconds * 1000) requests)
    (hRequest : requests[i]? = some (now, request)) :
    (service.handleAll quota.limiter requests)[i]? =
      some (service.respondWithin
        (decide (requestsOf request.client (requests.take i) < quota.requests)) request) := by
  have hAnswer := service.getElem?_handleAll hQuota hWindow
    (Limiter.hasCounted_initial quota.requests _ request.client start) hRequest
  rwa [Nat.zero_add] at hAnswer

/- A request alone is answered unless the quota allows none. -/
theorem handleAll_alone
    (service : Service)
    {quota : QuotaConfig}
    (hQuota : quota.requests < Window.maxCount)
    (hSome : 0 < quota.requests)
    (now : Nat)
    (request : HttpRequest) :
    service.handleAll quota.limiter [(now, request)] = [service.respondWithin true request] := by
  have hCheck : (quota.limiter.check request.client now).1 = true := by
    have hCounted := Limiter.hasCounted_initial quota.requests (quota.windowSeconds * 1000)
      request.client now
    have hUntil := Nat.le_add_right now (quota.windowSeconds * 1000)
    rw [QuotaConfig.limiter, Limiter.check_of_hasCounted hQuota hCounted (Nat.le_refl now) hUntil]
    exact decide_eq_true hSome
  simp only [handleAll, handle, hCheck]

end Service

------------------------------------------------------------
-- Denials
------------------------------------------------------------

/-
  The response to a request over its quota: a fixed text, which
  is left out for a request for the head of what a route has.
-/
def HttpRequest.denial
    (request : HttpRequest) : HttpResponse :=
  { status := 429
    body :=
      if request.isForHead then ""
      else "\x7b\"error\":\"Rate limited. Try again in a minute.\"\x7d" }

/- The route takes the body of a request, unless it takes none. -/
def Route.Accepts
    (limit : Nat)
    (request : HttpRequest) : Route → Prop
  | evaluate => ∃ value, readBody limit EvalRequest.decode request = .ok value
  | steps => ∃ value, readBody limit StepsRequest.decode request = .ok value
  | explain => ∃ value, readBody limit ExplainRequest.decode request = .ok value
  | version => True

namespace Service

/- A denied request reaches neither a route nor the engine. -/
theorem respondWithin_false
    (service : Service)
    (request : HttpRequest) :
    service.respondWithin false request = { result := request.denial, calls := [] } := by
  have hLimited : HttpResponse.rateLimited =
      { status := 429
        body := "\x7b\"error\":\"Rate limited. Try again in a minute.\"\x7d" } := by
    decide +kernel
  rw [respondWithin, HttpRequest.denial]
  cases request.isForHead with
  | true => rfl
  | false => simp [hLimited]

theorem status_respondWithin_true
    (service : Service)
    (request : HttpRequest) :
    (service.respondWithin true request).result.status =
      (service.dispatch request).result.status := by
  rw [respondWithin]
  cases request.isForHead with
  | true => rfl
  | false => rfl

------------------------------------------------------------
-- Statuses
------------------------------------------------------------

theorem status_ne_of_fault
    (fault : BodyFault) :
    fault.status ≠ 429 := by
  cases fault with
  | notJson => decide
  | tooLarge => decide
  | malformed => decide
  | mismatch => decide

section Body

variable {α β : Type} {decode : Reading → Except Fault α}

/- Whatever is answered to an accepted body, the status is the same. -/
theorem status_withBody
    (service : Service)
    {request : HttpRequest}
    {value : α}
    (hBody : readBody service.bodyLimit decode request = .ok value)
    (answer : α → Traced β)
    (encode : β → Json) :
    (service.withBody decode answer encode request).result.status = 200 := by
  rw [withBody, hBody]
  rfl

theorem status_withBody_ne
    (service : Service)
    (request : HttpRequest)
    (answer : α → Traced β)
    (encode : β → Json) :
    (service.withBody decode answer encode request).result.status ≠ 429 := by
  cases hBody : readBody service.bodyLimit decode request with
  | ok value =>
      rw [status_withBody service hBody]
      decide
  | error fault =>
      rw [withBody, hBody]
      exact status_ne_of_fault fault

end Body

/- No route answers with the status of a denial. -/
theorem status_dispatch_ne
    (service : Service)
    (request : HttpRequest) :
    (service.dispatch request).result.status ≠ 429 := by
  rw [dispatch]
  split
  · decide
  · next route hRoute =>
      split
      · cases route with
        | evaluate => exact status_withBody_ne service request _ _
        | steps => exact status_withBody_ne service request _ _
        | explain => exact status_withBody_ne service request _ _
        | version =>
            show 200 ≠ 429
            decide
      · decide

/- A route answers what it accepts, whatever the engine makes of it. -/
theorem status_dispatch
    (service : Service)
    {request : HttpRequest}
    {route : Route}
    (hRoute : Route.ofTarget? request.target = some route)
    (hMethod : request.method ∈ route.methods)
    (hAccepts : route.Accepts service.bodyLimit request) :
    (service.dispatch request).result.status = 200 := by
  rw [dispatch, hRoute]
  simp only [List.contains_iff_mem.mpr hMethod, if_pos]
  cases route with
  | evaluate =>
      rcases hAccepts with ⟨value, hBody⟩
      exact status_withBody service hBody _ _
  | steps =>
      rcases hAccepts with ⟨value, hBody⟩
      exact status_withBody service hBody _ _
  | explain =>
      rcases hAccepts with ⟨value, hBody⟩
      exact status_withBody service hBody _ _
  | version => rfl

------------------------------------------------------------
-- Isolation
------------------------------------------------------------

/-
  Requests of one window. One is denied exactly if as many
  requests of its client came before as the quota allows; then
  neither a route nor the engine has a part in the response.
  Any other is answered as if it were alone, and with success if
  its route accepts it, whatever the engine makes of it.
-/
theorem handleAll_isolated
    (engine : Engine)
    (config : Config)
    {requests : List (Nat × HttpRequest)}
    {request : HttpRequest}
    {start i now : Nat}
    (hQuota : config.quota.requests < UInt32.size - 1)
    (hWindow : InWindow start (config.quota.windowSeconds * 1000) requests)
    (hRequest : requests[i]? = some (now, request)) :
    ∃ response,
      ((ofConfig engine config).handleAll config.quota.limiter requests)[i]? = some response ∧
      (response.result.status = 429 ↔
        config.quota.requests ≤ requestsOf request.client (requests.take i)) ∧
      (config.quota.requests ≤ requestsOf request.client (requests.take i) →
        response = { result := request.denial, calls := [] } ∧
          ∀ other : Engine,
            ((ofConfig other config).handleAll config.quota.limiter requests)[i]? =
              some response) ∧
      (requestsOf request.client (requests.take i) < config.quota.requests →
        (∀ time, (ofConfig engine config).handleAll config.quota.limiter [(time, request)] =
          [response]) ∧
        ∀ route, Route.ofTarget? request.target = some route →
          request.method ∈ route.methods →
          route.Accepts config.bodyLimitBytes request →
          response.result.status = 200) := by
  have hAnswer := fun other =>
    (ofConfig other config).getElem?_handleAll_initial hQuota hWindow hRequest
  refine ⟨_, hAnswer engine, ?_, ?_, ?_⟩
  · rcases Nat.lt_or_ge (requestsOf request.client (requests.take i)) config.quota.requests
      with hWithin | hOver
    · rw [decide_eq_true hWithin, status_respondWithin_true]
      exact iff_of_false (status_dispatch_ne _ request) (Nat.not_le.mpr hWithin)
    · rw [decide_eq_false (Nat.not_lt.mpr hOver), respondWithin_false]
      exact iff_of_true rfl hOver
  · intro hOver
    have hDenied := decide_eq_false (Nat.not_lt.mpr hOver)
    simp only [hDenied, respondWithin_false] at hAnswer ⊢
    exact ⟨trivial, hAnswer⟩
  · intro hWithin
    rw [decide_eq_true hWithin]
    refine ⟨?_, ?_⟩
    · intro time
      exact handleAll_alone _ hQuota (Nat.zero_lt_of_lt hWithin) time request
    · intro route hRoute hMethod hAccepts
      rw [status_respondWithin_true]
      exact status_dispatch _ hRoute hMethod hAccepts

/- A request for the head of what a route has. -/
def headRequest : HttpRequest :=
  { method := "HEAD"
    target := "/api/version"
    contentType := none
    body := ""
    client := .v4 10 0 0 1 }

/- Two of them, behind a request of another client with a wrong method. -/
def headRequests : List (Nat × HttpRequest) :=
  [(5, { headRequest with target := "/api/jq", client := .v4 10 0 0 2 }), (7, headRequest),
    (6, headRequest)]

/- An engine that is too slow for every filter. -/
def slow : Engine :=
  { evaluate := fun call => .error (.timeout call.limits.timeout) }

theorem handleAll_isolated_headRequests :
    InWindow 5 60000 headRequests ∧
    (∃ response,
      ((ofConfig slow { quota := { requests := 1 } }).handleAll
          ({ requests := 1 } : QuotaConfig).limiter headRequests)[1]? = some response ∧
        response.result.status = 200 ∧
        (ofConfig slow { quota := { requests := 1 } }).handleAll
          ({ requests := 1 } : QuotaConfig).limiter [(7, headRequest)] = [response]) ∧
    ∃ response,
      ((ofConfig slow { quota := { requests := 1 } }).handleAll
          ({ requests := 1 } : QuotaConfig).limiter headRequests)[2]? = some response ∧
        response = { result := { status := 429, body := "" }, calls := [] } := by
  have hWindow : InWindow 5 60000 headRequests := by
    unfold InWindow headRequests
    decide
  have hFirst : requestsOf headRequest.client (headRequests.take 1) = 0 := by
    decide
  have hSecond : requestsOf headRequest.client (headRequests.take 2) = 1 := by
    decide
  have hRoute : Route.ofTarget? headRequest.target = some .version := by
    decide +kernel
  have hDenial : headRequest.denial = { status := 429, body := "" } := by
    decide +kernel
  refine ⟨hWindow, ?_, ?_⟩
  · rcases handleAll_isolated slow { quota := { requests := 1 } } (i := 1)
      (by decide) hWindow rfl with ⟨response, hAnswer, -, -, hWithin⟩
    rcases hWithin (Nat.lt_of_le_of_lt (Nat.le_of_eq hFirst) Nat.one_pos) with
      ⟨hAlone, hAccepted⟩
    exact ⟨response, hAnswer, hAccepted .version hRoute (by decide) trivial, hAlone 7⟩
  · rcases handleAll_isolated slow { quota := { requests := 1 } } (i := 2)
      (by decide) hWindow rfl with ⟨response, hAnswer, -, hOver, -⟩
    have hDenied := (hOver (Nat.le_of_eq hSecond.symm)).1
    rw [hDenial] at hDenied
    exact ⟨response, hAnswer, hDenied⟩

/- Not every denial has the fixed text. -/
theorem handleAll_head_without_body :
    ¬ ∀ (engine : Engine) (config : Config) (requests : List (Nat × HttpRequest))
        (request : HttpRequest) (start i now : Nat),
      config.quota.requests < UInt32.size - 1 →
      InWindow start (config.quota.windowSeconds * 1000) requests →
      requests[i]? = some (now, request) →
      config.quota.requests ≤ requestsOf request.client (requests.take i) →
      ((ofConfig engine config).handleAll config.quota.limiter requests)[i]?.map (·.result) =
        some .rateLimited := by
  intro hFixed
  have hWindow : InWindow 0 60000 [(0, headRequest)] := by
    unfold InWindow
    decide
  have hBody := hFixed slow { quota := { requests := 0 } } [(0, headRequest)] headRequest 0 0 0
    (by decide) hWindow rfl (Nat.zero_le _)
  have hNone : ((ofConfig slow { quota := { requests := 0 } }).handleAll
      ({ requests := 0 } : QuotaConfig).limiter [(0, headRequest)])[0]?.map (·.result) =
        some { status := 429, body := "" } := by
    decide +kernel
  rw [hNone] at hBody
  exact absurd hBody (by decide +kernel)

end Service

end JqLens

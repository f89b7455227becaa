import JqLens.Service.Config
import JqLens.Service.MediaType
import JqLens.Service.Quota
import JqLens.Service.Target
import JqLens.Text.Utf8

/-
  This file answers requests to the service. A request is
  counted against the quota of its client before anything else
  is looked at; then its path and method choose what it asks
  for, and its body is read.

  Key definitions include:
    * `HttpRequest`
    * `HttpResponse`
    * `Route`
    * `HttpRequest.isForHead`
    * `readBody`
    * `Service.respond`
    * `Service.handle`
    * `Service.handleAll`
-/

namespace JqLens

------------------------------------------------------------
-- Messages
------------------------------------------------------------

/- A request to the service. -/
structure HttpRequest where
  method : String
  /- What the request is for: a path, or an address with a path. -/
  target : String
  /- The type of the body, if the request tells one. -/
  contentType : Option String
  body : String
  client : Ip
  deriving Repr

/- The response to a request. -/
structure HttpResponse where
  status : Nat
  body : String := ""
  deriving DecidableEq, Repr

namespace HttpResponse

/- A response with a JSON body. -/
def json (status : Nat) (body : Json) : HttpResponse :=
  { status, body := body.compact }

/- A response with an error text. -/
def error (status : Nat) (message : String) : HttpResponse :=
  json status (.obj [("error", .str message)])

/- The response to a request that is over its quota. -/
def rateLimited : HttpResponse :=
  error 429 "Rate limited. Try again in a minute."

/- The response where nothing is found. -/
def notFound : HttpResponse :=
  { status := 404 }

/- The response to a method that a path does not have. -/
def methodNotAllowed : HttpResponse :=
  { status := 405 }

end HttpResponse

------------------------------------------------------------
-- Routes
------------------------------------------------------------

/- What can be asked for. -/
inductive Route where
  | evaluate
  | steps
  | explain
  | version
  deriving DecidableEq, Repr

namespace Route

/- The path of a route. -/
def path : Route → String
  | evaluate => "/api/jq"
  | steps => "/api/jq/steps"
  | explain => "/api/explain"
  | version => "/api/version"

/- Every route. -/
def all : List Route :=
  [evaluate, steps, explain, version]

/- The route that a target leads to by its path. -/
def ofTarget? (target : String) : Option Route :=
  let path := Target.path target
  all.find? fun route => route.path == path

/- The methods of a route. -/
def methods : Route → List String
  | version => ["GET", "HEAD"]
  | _ => ["POST"]

end Route

/-
  A request for no more than the head of what a route has. Where
  a route knows no such requests, or there is no route, its
  method is one like any other.
-/
def HttpRequest.isForHead (request : HttpRequest) : Bool :=
  request.method = "HEAD" &&
    (Route.ofTarget? request.target).any fun route => route.methods.contains "HEAD"

------------------------------------------------------------
-- Bodies
------------------------------------------------------------

/- Why a body is not accepted. -/
inductive BodyFault where
  | notJson
  | tooLarge
  | malformed
  | mismatch
  deriving DecidableEq, Repr

namespace BodyFault

/- The fault of a body that cannot be decoded. -/
def ofFault : Fault → BodyFault
  | .malformed => malformed
  | .mismatch => mismatch

/- The status for a fault. -/
def status : BodyFault → Nat
  | notJson => 415
  | tooLarge => 413
  | malformed => 400
  | mismatch => 422

/- The text shown for a fault. -/
def message : BodyFault → String
  | notJson => "Expected request with `Content-Type: application/json`"
  | tooLarge => "Failed to buffer the request body: length limit exceeded"
  | malformed => "Failed to parse the request body as JSON"
  | mismatch => "Failed to deserialize the JSON body into the target type"

/- The response to a body that is not accepted. -/
def response (fault : BodyFault) : HttpResponse :=
  .error fault.status fault.message

end BodyFault

/-
  The value in the body of a request. Its type comes first,
  then its length in bytes; text behind the value is passed
  over.
-/
def readBody
    {α : Type}
    (limit : Nat)
    (decode : Reading → Except Fault α)
    (request : HttpRequest) : Except BodyFault α :=
  if !((request.contentType.bind MediaType.ofText?).any MediaType.isJson) then
    .error .notJson
  else if limit < request.body.utf8ByteSize then
    .error .tooLarge
  else
    match decode (Reading.first request.body.toList).1 with
    | .ok value => .ok value
    | .error fault => .error (.ofFault fault)

------------------------------------------------------------
-- The service
------------------------------------------------------------

/- What does not change while the service runs. -/
structure Service where
  engine : Engine
  limits : RequestLimits
  bodyLimit : Nat

namespace Service

/- The service with the given settings. -/
def ofConfig (engine : Engine) (config : Config) : Service :=
  { engine, limits := config.requestLimits, bodyLimit := config.bodyLimitBytes }

/- Respond to a request with a body. -/
def withBody
    {α β : Type}
    (service : Service)
    (decode : Reading → Except Fault α)
    (answer : α → Traced β)
    (encode : β → Json)
    (request : HttpRequest) : Traced HttpResponse :=
  match readBody service.bodyLimit decode request with
  | .error fault => { result := fault.response }
  | .ok value =>
      let traced := answer value
      { result := .json 200 (encode traced.result), calls := traced.calls }

/- Respond to a request for a route, with the calls of the engine. -/
def respond (service : Service) (request : HttpRequest) : Route → Traced HttpResponse
  | .evaluate =>
      service.withBody EvalRequest.decode
        (EvalRequest.answer service.engine service.limits) EvalResponse.encode request
  | .steps =>
      service.withBody StepsRequest.decode
        (StepsRequest.answer service.engine service.limits) StepsResponse.encode request
  | .explain =>
      service.withBody ExplainRequest.decode
        (fun request => { result := request.answer }) ExplainResponse.encode request
  | .version => { result := .json 200 (versionAnswer service.engine).encode }

/- Respond to a request that is within its quota. -/
def dispatch (service : Service) (request : HttpRequest) : Traced HttpResponse :=
  match Route.ofTarget? request.target with
  | none => { result := .notFound }
  | some route =>
      if route.methods.contains request.method then service.respond request route
      else { result := .methodNotAllowed }

/-
  Respond to a request, of which it is known whether it is
  within its quota. Who asks for a head gets no body.
-/
def respondWithin
    (service : Service)
    (within : Bool)
    (request : HttpRequest) : Traced HttpResponse :=
  let traced := if within then service.dispatch request else { result := .rateLimited }
  if request.isForHead then { traced with result := { traced.result with body := "" } }
  else traced

/-
  Respond to a request at a time, with the limiter that all
  requests share.
-/
def handle
    (service : Service)
    (limiter : Limiter Ip)
    (now : Nat)
    (request : HttpRequest) : Traced HttpResponse × Limiter Ip :=
  let (within, limiter) := limiter.check request.client now
  (service.respondWithin within request, limiter)

/- Respond to requests in order, each with the time at which it comes. -/
def handleAll
    (service : Service)
    (limiter : Limiter Ip) : List (Nat × HttpRequest) → List (Traced HttpResponse)
  | [] => []
  | (now, request) :: requests =>
      let (response, limiter) := service.handle limiter now request
      response :: handleAll service limiter requests

end Service

/- The limiter for a quota, in milliseconds. -/
def QuotaConfig.limiter (quota : QuotaConfig) : Limiter Ip :=
  { max := quota.requests, window := quota.windowSeconds * 1000 }

end JqLens

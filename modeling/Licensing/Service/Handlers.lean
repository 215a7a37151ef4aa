import Licensing.Client.Screening
import Licensing.Evaluator
import Licensing.Files
import Licensing.Identity.Header
import Licensing.Metrics
import Licensing.Seat.Manager
import Licensing.Service.Query

/-!
# What the service answers

The services behind are parameters that share a state: the feature service, the accounts system
with the user directory, and a screening service if there is one. Every handler gives an answer
and the service as it is afterwards.
-/

namespace Licensing.Service

open Utf8 (Bytes)
open Json (Document Value)

/-- The services behind. -/
structure Backends (σ : Type) where
  /-- The features of an organization. -/
  features : σ → String → Cache.Outcome × σ
  /-- The accounts system and the user directory. -/
  seats : σ → (c : SeatCall) → c.Answer × σ
  /-- The screening service. -/
  screening : Option (σ → ScreeningRequest → Except RemoteError ScreeningResult × σ)

/-- The service. -/
structure State (σ : Type) where
  /-- The evaluator. -/
  evaluator : Evaluator
  /-- What turns errors into envelopes. -/
  envelopes : EnvelopeStyle
  /-- What counts. -/
  metrics : Telemetry
  /-- The state of the services behind. -/
  world : σ
  /-- The version of the interface. -/
  apiVersion : String
  /-- The commit that the service was built from. -/
  commit : String
  /-- The file with the description of the interface. -/
  openapiFile : String

variable {σ : Type}

/-! ### Bundles -/

/-- The header that tells that the features are not known. -/
def degradedHeader : String := "x-entitlements-degraded"

/-- The header with the status of the failure for which they are not. -/
def degradedStatusHeader : String := "x-entitlements-degraded-status"

/-- Counts how the features for an evaluation were found. -/
def countEvaluation (t : Telemetry) (e : Evaluation) : Telemetry :=
  if e.cacheHit then t.recordCache .hit
  else if e.isDegraded
  then (t.recordRemoteFailure featureService).recordCache .failClosed
  else t.recordCache .miss

/-- The answer with the decisions of an evaluation. -/
def evaluationResponse (e : Evaluation) : Response :=
  let body := Value.object (e.decisions.entries.map fun d ↦ (d.1, d.2.toValue))
  let r := Response.json 200 body
  match e.degradedStatus with
  | some status => { r with headers :=
      r.headers ++ [(degradedHeader, "true"), (degradedStatusHeader, toString status)] }
  | none => r

/-- Counts an evaluation and answers with it. Where everybody is entitled to everything nothing
is counted. -/
def finishServices (entitleAll : Bool) (t : Telemetry) (e : Evaluation) : Response × Telemetry :=
  let t := if entitleAll then t else countEvaluation t e
  (evaluationResponse e, if e.isDegraded then t.recordDegraded else t)

/-- Answers which bundles the caller is entitled to. -/
def handleServices (b : Backends σ) (s : State σ) (i : Identity) (query : Option String) :
    Response × State σ :=
  let q := servicesQuery query
  let (outcome, world) := b.features s.world i.orgId
  let (e, fetched, evaluator) := s.evaluator.evaluate i q.filter q.fresh 0 outcome
  let (response, metrics) := finishServices evaluator.entitleAll s.metrics e
  (response, { s with
    evaluator := evaluator
    metrics := metrics
    world := if fetched then world else s.world })

/-! ### Seats -/

/-- Answers with the error of a seat operation. A failure of a service behind is counted. -/
def seatErrorResponse (s : State σ) (e : SeatError) : Response × State σ :=
  let metrics := match e with
    | .remote u => s.metrics.recordRemoteFailure u.service
    | _ => s.metrics
  (.ofEnvelope (s.envelopes.ofSeat e), { s with metrics := metrics })

/-- Has a seat operation done and answers with its result. -/
def handleSeats {α : Type} (b : Backends σ) (s : State σ) (d : Dialogue α) (answer : α → Response) :
    Response × State σ :=
  match d.run b.seats s.world with
  | (.ok a, world) => (answer a, { s with world := world })
  | (.error e, world) => seatErrorResponse { s with world := world } e

/-- Answers with a page of seats. -/
def handleListSeats (b : Backends σ) (s : State σ) (i : Identity) (query : Option String) :
    Response × State σ :=
  match seatQuery query with
  | .error message => (.badRequest message, s)
  | .ok q => handleSeats b s (Seat.list i q) fun page ↦ .json 200 page.toValue

/-- The login that the body of a request names. -/
def assignee? (d : Document) : Option String :=
  match d.fields? ["account_username"] with
  | some [username] => Document.required? Document.text? username
  | _ => none

/-- The size in bytes that the body of a request may have. -/
def maxBodyBytes : Nat := 2 * 1024 * 1024

/-- Answers with the seat that was assigned. -/
def handleAssignSeat (b : Backends σ) (s : State σ) (i : Identity) (body : Bytes) :
    Response × State σ :=
  if maxBodyBytes < body.length
  then (.text 413 "Failed to buffer the request body: length limit exceeded", s)
  else match Json.readAs assignee? body with
    | none => (.badRequest "invalid seat request: not a document with a username", s)
    | some username =>
      handleSeats b s (Seat.assign i username) fun seat ↦ .json 200 seat.toValue

/-- Revokes a seat. -/
def handleRevokeSeat (b : Backends σ) (s : State σ) (i : Identity) (id : String) :
    Response × State σ :=
  handleSeats b s (Seat.revoke i id) fun _ ↦ .bare 204

/-! ### Screening -/

/-- What is wrong with screening a caller. -/
def screeningFlaw? (i : Identity) : Option String :=
  if i.principal = .serviceAccount then some "service accounts cannot be screened"
  else if i.username = "" then some "identity has no username"
  else none

/-- Passes on what the screening service answered. -/
def screeningResponse (r : ScreeningResult) : Response :=
  .json (if Response.isStatus r.status then r.status else 502) r.body

/-- Has the caller screened. -/
def handleScreening (b : Backends σ) (s : State σ) (i : Identity) : Response × State σ :=
  match screeningFlaw? i, b.screening with
  | some message, _ => (.badRequest message, s)
  | none, none => (.internal "compliance screening is not configured", s)
  | none, some screen => match screen s.world ⟨i.username, i.email⟩ with
    | (.ok r, world) => (screeningResponse r, { s with world := world })
    | (.error e, world) =>
      (.ofEnvelope (s.envelopes.ofRemote e 500), { s with
        world := world
        metrics := s.metrics.recordRemoteFailure e.service })

/-! ### The service itself -/

/-- Answers with the versions of the service. -/
def handleStatus (s : State σ) : Response :=
  .json 200 (.object [("apiVersion", .text s.apiVersion), ("commit", .text s.commit)])

/-- Answers with the description of the interface. -/
def handleOpenapi (files : FileReader) (s : State σ) : Response :=
  match files s.openapiFile with
  | .ok content => ⟨200, [("content-type", "application/json")], .file content⟩
  | .error e =>
    .internal ("openapi document " ++ s.openapiFile ++ " unavailable: " ++ e.message)

/-- Answers with the exposition of the metrics. -/
def handleMetrics (s : State σ) : Response :=
  ⟨200, [("content-type", "text/plain; version=0.0.4")], .text s.metrics.exposition⟩

end Licensing.Service

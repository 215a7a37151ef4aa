import Licensing.Service.Handlers

/-!
# Which handler answers a request

A request is about a place, which its path names, and places know the methods they answer to.
The paths of places are compared as they are written; only the identifier in the path of a seat
is decoded. Requests about a place are counted, with the path of the place and the status of
the answer.
-/

namespace Licensing.Service

/-- A place. -/
inductive Place where
  | services
  | screening
  | seats
  /-- A seat, with its identifier as it is written. -/
  | seat (id : String)
  | openapi
  | status
  | metrics
deriving DecidableEq, Inhabited

namespace Place

/-- What the paths below the interface start with. -/
def api : String := "/api/entitlements/v1"

/-- The path of a place. -/
def route : Place → String
  | .services => api ++ "/services"
  | .screening => api ++ "/compliance"
  | .seats => api ++ "/seats"
  | .seat _ => api ++ "/seats/\x7bid\x7d"
  | .openapi => api ++ "/openapi.json"
  | .status => "/status"
  | .metrics => "/metrics"

/-- The places whose paths have no parameter. -/
def fixed : List Place :=
  [.services, .screening, .seats, .openapi, .status, .metrics]

/-- The identifier in the path of a seat: one segment, which is not empty. -/
def seatId? (path : String) : Option String :=
  let mark := (route .seats ++ "/").toList
  let cs := path.toList
  if mark.isPrefixOf cs then
    let id := cs.drop mark.length
    if id = [] || id.contains '/' then none else some (String.ofList id)
  else none

/-- The place that a path names. -/
def ofPath? (path : String) : Option Place :=
  match fixed.find? fun p ↦ p.route = path with
  | some p => some p
  | none => (seatId? path).map .seat

/-- The methods that a place answers to, as they are told to a caller. -/
def allowed : Place → String
  | .seats => "GET,HEAD,POST"
  | .seat _ => "DELETE"
  | _ => "GET,HEAD"

end Place

variable {σ : Type}

/-- Goes on with the identity of the caller, if the request states one. -/
def withIdentity (s : State σ) (r : Request) (f : Identity → Response × State σ) :
    Response × State σ :=
  match Identity.ofHeader (r.header? Identity.headerName) with
  | .ok i => f i
  | .error e => (.badRequest e.message, s)

/-- Answers a request for reading a place. -/
def get (files : FileReader) (b : Backends σ) (s : State σ) (r : Request) :
    Place → Response × State σ
  | .services => withIdentity s r fun i ↦ handleServices b s i r.query
  | .screening => withIdentity s r fun i ↦ handleScreening b s i
  | .seats => withIdentity s r fun i ↦ handleListSeats b s i r.query
  | .openapi => (handleOpenapi files s, s)
  | .status => (handleStatus s, s)
  | .metrics => (handleMetrics s, s)
  | .seat _ => (.bare 405, s)

/-- Answers a request to revoke a seat whose identifier is written in the path. -/
def delete (b : Backends σ) (s : State σ) (r : Request) (id : String) : Response × State σ :=
  withIdentity s r fun i ↦
    match Utf8.decodeText (Percent.decode (Utf8.encodeText id)) with
    | some id => handleRevokeSeat b s i id
    | none => (.text 400 "Invalid URL: Invalid UTF-8 in `id`", s)

/-- The answer to a method that a place does not know. -/
def methodNotAllowed (p : Place) : Response :=
  ⟨405, [("allow", p.allowed)], .empty⟩

/-- Answers a request about a place. -/
def serve (files : FileReader) (b : Backends σ) (s : State σ) (r : Request) (p : Place) :
    Response × State σ :=
  match p with
  | .seat id =>
    if r.method = "DELETE" then delete b s r id else (methodNotAllowed p, s)
  | _ =>
    if r.method = "GET" then get files b s r p
    else if r.method = "HEAD" then
      let (response, s) := get files b s r p
      ({ response with body := .empty }, s)
    else if r.method = "POST" && p = .seats then
      withIdentity s r fun i ↦ handleAssignSeat b s i r.body
    else (methodNotAllowed p, s)

/-- Answers a request and counts it, with how long that took in microseconds. -/
def answer (files : FileReader) (b : Backends σ) (s : State σ) (r : Request) (us : Nat) :
    Response × State σ :=
  match Place.ofPath? r.path with
  | none => (.bare 404, s)
  | some p =>
    let (response, s) := serve files b s r p
    (response, { s with metrics := s.metrics.recordRequest p.route response.status us })

end Licensing.Service

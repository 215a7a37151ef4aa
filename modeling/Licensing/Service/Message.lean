import Licensing.Envelope
import Licensing.Text.Split
import Licensing.Text.Utf8

/-!
# Requests to the service and its answers
-/

namespace Licensing.Service

open Utf8 (Bytes)
open Json (Value)

/-- A request. -/
structure Request where
  /-- The method. -/
  method : String
  /-- The path as it was written. -/
  path : String
  /-- The query as it was written. -/
  query : Option String
  /-- The headers. -/
  headers : List (String × Bytes)
  /-- The body. -/
  body : Bytes
deriving Inhabited

/-- The path and the query of what a request is about; a fragment does not count. -/
def splitTarget (target : String) : String × Option String :=
  let (whole, _) := Text.cut '#' target.toList
  let (path, query) := Text.cut '?' whole
  (String.ofList path, query.map String.ofList)

/-- The first header of a name, whose case does not matter. -/
def Request.header? (r : Request) (name : String) : Option Bytes :=
  (r.headers.find? fun h ↦ h.1.toList.map Char.toLower = name.toList).map (·.2)

/-- The body of an answer. -/
inductive Body where
  /-- No body. -/
  | empty
  /-- A JSON document. -/
  | json (v : Value)
  /-- A text. -/
  | text (s : String)
  /-- The content of a file. -/
  | file (content : ByteArray)
deriving Inhabited

/-- An answer. -/
structure Response where
  /-- The status. -/
  status : Nat
  /-- The headers. -/
  headers : List (String × String)
  /-- The body. -/
  body : Body
deriving Inhabited

namespace Response

/-- An answer with a JSON document. -/
def json (status : Nat) (v : Value) : Response :=
  ⟨status, [("content-type", "application/json")], .json v⟩

/-- An answer with a text. -/
def text (status : Nat) (s : String) : Response :=
  ⟨status, [("content-type", "text/plain; charset=utf-8")], .text s⟩

/-- An answer with nothing but a status. -/
def bare (status : Nat) : Response :=
  ⟨status, [], .empty⟩

/-- The status of an answer can only be one of three digits. -/
def isStatus (n : Nat) : Bool :=
  100 ≤ n && n ≤ 999

/-- The answer that tells an error. -/
def ofEnvelope (e : Envelope) : Response :=
  json (if isStatus e.status then e.status else 500) e.toValue

/-- The answer to a request that makes no sense. -/
def badRequest (message : String) : Response :=
  ofEnvelope (.plain 400 message)

/-- The answer to a request that the service cannot serve. -/
def internal (message : String) : Response :=
  ofEnvelope (.plain 500 message)

end Response

end Licensing.Service

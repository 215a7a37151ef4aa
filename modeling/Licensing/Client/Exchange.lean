import Licensing.Json.Record
import Licensing.Text.Blank
import Licensing.Remote
import Licensing.Url.Basic

/-!
# Requests to services

The clients of the services send requests and read replies. The network is a parameter: it gives
a reply to a request, or the failure to get one. The body of a reply comes in chunks, and it is
read only as long as it keeps within a limit, so that no service can make the clients hold more.
-/

namespace Licensing.Client

open Utf8 (Bytes)
open Json (Document)

/-! ### Requests and replies -/

/-- A request. -/
structure Request where
  /-- The method. -/
  method : String
  /-- Where it goes. -/
  url : Url
  /-- The headers that the client sets. -/
  headers : List (String × String)
  /-- The body. -/
  body : Bytes
deriving Inhabited

/-- Why there is no reply, or not all of one. -/
inductive Failure where
  /-- It took too long. -/
  | timeout
  /-- The connection failed before there was a reply. -/
  | unreachable
  /-- What came could not be decoded. -/
  | undecodable (message : String)
  /-- The connection failed in another way. -/
  | broken (message : String)
deriving DecidableEq, Inhabited

/-- A reply. -/
structure Reply where
  /-- The status. -/
  status : Nat
  /-- The length of the body, where it was declared. -/
  declared : Option Nat
  /-- The chunks of the body. -/
  chunks : List Bytes
  /-- The failure to read more of the body. -/
  failure : Option Failure
deriving Inhabited

/-- The network, which has a state. -/
abbrev Network (σ : Type) := σ → Request → Except Failure Reply × σ

/-- A network that reaches nothing. -/
def Network.offline {σ : Type} : Network σ :=
  fun s _ ↦ (.error .unreachable, s)

/-! ### Sending -/

/-- The URL of a request as it is shown in errors, without the login in it. -/
def Request.shownUrl (r : Request) : String :=
  r.url.withoutLogin.text

/-- The failure of a request to a service. -/
def Failure.toRemote (service : String) (r : Request) : Failure → RemoteError
  | .timeout => .timeout service
  | .unreachable =>
    .transport service ("error sending request for url (" ++ r.shownUrl ++ ")")
  | .undecodable message => .decode service message
  | .broken message => .transport service message

/-- A character that may not stand in the value of a header. -/
def isBadHeaderChar (c : Char) : Bool :=
  (c.toNat < 32 && c.toNat ≠ 9) || c.toNat = 127

/-- What is wrong with a request that cannot be sent. -/
def Request.flaw? (r : Request) : Option String :=
  if r.headers.any fun h ↦ h.2.toList.any isBadHeaderChar then some "builder error"
  else if r.url.scheme ≠ "http" && r.url.scheme ≠ "https"
  then some ("builder error for url (" ++ r.shownUrl ++ ")")
  else none

/-! ### Reading replies -/

/-- The size in bytes that the body of a reply may have. -/
def maxReplyBytes : Nat := 1024 * 1024

/-- The failure for a body that is too large. -/
def tooLarge (service : String) (limit : Nat) : RemoteError :=
  .decode service ("response body exceeds " ++ toString limit ++ " bytes")

/-- Reads chunks after what has been read, in reverse, of which there are `size` bytes. Nothing
is read behind the first chunk that exceeds the limit. -/
def readChunks (service : String) (limit : Nat) (onFailure : Failure → RemoteError)
    (failure : Option Failure) : List Bytes → Nat → List Bytes → Except RemoteError Bytes
  | read, _, [] => match failure with
    | some f => .error (onFailure f)
    | none => .ok read.reverse.flatten
  | read, size, chunk :: chunks =>
    if limit < size + chunk.length then .error (tooLarge service limit)
    else readChunks service limit onFailure failure (chunk :: read) (size + chunk.length) chunks

/-- Reads the body of a reply. Nothing is read when more is declared than the limit allows. -/
def readBody (service : String) (limit : Nat) (onFailure : Failure → RemoteError) (r : Reply) :
    Except RemoteError Bytes :=
  if r.declared.any (limit < ·) then .error (tooLarge service limit)
  else readChunks service limit onFailure r.failure [] 0 r.chunks

/-- Sends a request to a service and reads the status and the body of the reply. -/
def fetch {σ : Type} (network : Network σ) (service : String) (s : σ) (r : Request) :
    Except RemoteError (Nat × Bytes) × σ :=
  match r.flaw? with
  | some message => (.error (.transport service message), s)
  | none => match network s r with
    | (.error f, s) => (.error (f.toRemote service r), s)
    | (.ok reply, s) =>
      ((readBody service maxReplyBytes (Failure.toRemote service r) reply).map (reply.status, ·),
        s)

/-! ### Understanding replies -/

/-- The status of an answer that is no error. -/
def isSuccess (status : Nat) : Bool :=
  200 ≤ status && status < 300

/-- How many characters of an error's body are told. -/
def maxExcerpt : Nat := 512

/-- What is told of the body of an error. -/
def excerpt (body : Bytes) : String :=
  let cs := Text.trimChars (Utf8.decodeLossy body)
  if cs = [] then "empty response body" else String.ofList (cs.take maxExcerpt)

/-- The failure that a service states by a status. -/
def statusError (service : String) (status : Nat) (body : Bytes) : RemoteError :=
  .client service status (excerpt body)

/-- The value that a body holds. -/
def decodeBody {α : Type} (service : String) (value : Document → Option α) (body : Bytes) :
    Except RemoteError α :=
  match Json.readAs value body with
  | some a => .ok a
  | none => .error (.decode service "not a document of the expected form")

/-- The URL of a path below a base, with a query. -/
def joinUrl (base path : String) : String :=
  let trimmed := String.ofList ((base.toList.reverse.dropWhile (· = '/')).reverse)
  trimmed ++ "/" ++ String.ofList (path.toList.dropWhile (· = '/'))

/-- The media type of JSON documents. -/
def jsonType : String × String := ("content-type", "application/json")

/-- Why a client cannot be made. -/
inductive InitError where
  /-- Something about its address. -/
  | client (message : String)
  /-- Something about certificates and keys. -/
  | tls (message : String)
deriving DecidableEq, Inhabited

/-- The reason in words. -/
def InitError.message : InitError → String
  | .client message => "http client build failed: " ++ message
  | .tls message => "invalid tls material: " ++ message

end Licensing.Client

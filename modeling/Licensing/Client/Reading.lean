import Licensing.Client.Exchange

/-!
# Bodies as they arrive

The body of a reply arrives in chunks, until it ends or no more of it can be got. A reader holds
what it has read and takes one arrival after another. As soon as it is done, it takes no more, so
what it leaves tells when it stopped.
-/

namespace Licensing.Client

open Utf8 (Bytes)

/-- What arrives next of a body. -/
inductive Arrival where
  /-- More bytes. -/
  | chunk (bytes : Bytes)
  /-- The end of the body. -/
  | ending
  /-- The failure to get more of it. -/
  | failure (f : Failure)
deriving Inhabited

/-- What arrives of the body of a reply, as long as it is taken. -/
def Reply.arrivals (r : Reply) : List Arrival :=
  r.chunks.map .chunk ++ [r.failure.elim .ending .failure]

/-- A reader of a body. -/
inductive Reader where
  /-- It holds what it has read, and takes what arrives next. -/
  | reading (held : Bytes)
  /-- It has the body, or knows why not, and takes nothing more. -/
  | done (result : Except RemoteError Bytes)
deriving Inhabited

namespace Reader

/-- The bytes that a reader holds. -/
def held : Reader → Bytes
  | .reading held => held
  | .done (.ok body) => body
  | .done (.error _) => []

/-- A reader to which nothing has arrived yet. It reads nothing when more is declared than the
limit allows. -/
def start (service : String) (limit : Nat) (declared : Option Nat) : Reader :=
  if declared.any (limit < ·) then .done (.error (tooLarge service limit)) else .reading []

/-- What becomes of a reader that holds some bytes by what arrives next. -/
def take (service : String) (limit : Nat) (onFailure : Failure → RemoteError) (held : Bytes) :
    Arrival → Reader
  | .chunk bytes =>
    if limit < held.length + bytes.length then .done (.error (tooLarge service limit))
    else .reading (held ++ bytes)
  | .ending => .done (.ok held)
  | .failure f => .done (.error (onFailure f))

/-- What becomes of a reader, and the arrivals that it does not take. -/
def run (service : String) (limit : Nat) (onFailure : Failure → RemoteError) :
    Reader → List Arrival → Reader × List Arrival
  | .reading held, arrival :: arrivals =>
    run service limit onFailure (take service limit onFailure held arrival) arrivals
  | reader, arrivals => (reader, arrivals)

end Reader

end Licensing.Client

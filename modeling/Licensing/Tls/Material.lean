import Licensing.Client.Exchange
import Licensing.Tls.Pem

/-!
# Certificates and keys of the clients

The clients can be given the certificates they trust, and a certificate of their own with its
key. Both are checked before a client is made.
-/

namespace Licensing

/-- The texts with the certificates and keys. -/
structure TlsMaterial where
  /-- The trusted certificates. -/
  ca : Option String
  /-- The client's own certificates. -/
  cert : Option String
  /-- The client's key. -/
  key : Option String
deriving DecidableEq, Inhabited

namespace TlsMaterial

open Client (InitError)

/-- What certificates and keys are called in errors for malformed texts. -/
def malformed (label : String) : InitError :=
  .tls (label ++ ": malformed section")

/-- A text has to hold certificates. -/
def checkCertificates (label text : String) : Except InitError Unit :=
  let (kinds, ok) := Pem.sections text
  if !ok then .error (malformed label)
  else if kinds.contains .certificate then .ok ()
  else .error (.tls (label ++ ": no certificates found"))

/-- A text has to hold a key. What stands behind the key does not matter. -/
def checkKey (text : String) : Except InitError Unit :=
  if (Pem.sections text).1.any Pem.Kind.isPrivateKey then .ok ()
  else .error (malformed "client key")

/-- Certificates and key together may hold nothing else. -/
def checkIdentity (text : String) : Except InitError Unit :=
  let (kinds, ok) := Pem.sections text
  let known := kinds.all fun k ↦ k = .certificate || k.isPrivateKey
  if ok && known && kinds.contains .certificate && kinds.any Pem.Kind.isPrivateKey then .ok ()
  else .error (malformed "client identity")

/-- Checks the texts. -/
def check (m : TlsMaterial) : Except InitError Unit := do
  match m.ca with
  | some ca => checkCertificates "ca certificate" ca
  | none => pure ()
  match m.cert, m.key with
  | some cert, some key =>
    checkCertificates "client certificate" cert
    checkKey key
    checkIdentity (cert ++ "\n" ++ key)
  | some _, none => .error (.tls "client certificate configured without a private key")
  | none, some _ => .error (.tls "private key configured without a client certificate")
  | none, none => pure ()

end TlsMaterial

end Licensing

import Licensing.Client.Features
import Licensing.Proofs.Client.Tokens
import Licensing.Proofs.Url.Query

/-!
# What is sent

What a client sends is seen by the network, so it is told with a network that notes every request
that it gets (`Network.noting`) and replies as another one does. Notes change nothing about what
comes of a request (`fetch_noting`), and a request is noted exactly if nothing is wrong with it
(`Request.sent`). So the notes of a client say what it sends whatever the network is: the client of
the feature service one request for each question (`FeatureClient.fetch_noting`), the client of the
accounts system the request of the question and perhaps one for a token before
(`AccountsClient.ask_noting`).
-/

namespace Licensing.Client

variable {σ : Type}

/-- A network with notes of the requests that it got. -/
def Network.noting (network : Network σ) : Network (List Request × σ) :=
  fun s r ↦ ((network s.2 r).1, s.1 ++ [r], (network s.2 r).2)

/-- What is sent of a request: nothing if something is wrong with it. -/
def Request.sent (r : Request) : List Request :=
  if r.flaw? = none then [r] else []

theorem Request.eq_of_mem_sent {r r' : Request} (h : r' ∈ r.sent) : r' = r := by
  rw [sent] at h
  split at h
  · exact List.mem_singleton.1 h
  · exact absurd h List.not_mem_nil

/-- **A request is sent once**, and what comes of it does not depend on the notes. -/
theorem fetch_noting (network : Network σ) (service : String) (log : List Request) (s : σ)
    (r : Request) : fetch network.noting service (log, s) r =
      ((fetch network service s r).1, log ++ r.sent, (fetch network service s r).2) := by
  cases hflaw : r.flaw? with
  | some message => simp [fetch, Request.sent, hflaw]
  | none =>
    rcases hreply : network s r with ⟨f | reply, t⟩ <;>
      simp [fetch, Request.sent, hflaw, Network.noting, hreply]

/-- There is no reply to a request that is not sent. -/
theorem sent_ne_nil_of_fetch {network : Network σ} {service : String} {s : σ} {r : Request}
    {reply : Nat × Utf8.Bytes} (h : (fetch network service s r).1 = .ok reply) : r.sent ≠ [] := by
  cases hflaw : r.flaw? with
  | some message => simp [fetch, hflaw] at h
  | none => simp [Request.sent, hflaw]

/-- A request without headers can be sent exactly if it goes to a web service. -/
theorem Request.flaw?_eq_none_iff {r : Request} (h : r.headers = []) :
    r.flaw? = none ↔ r.url.scheme = "http" ∨ r.url.scheme = "https" := by
  by_cases hscheme : r.url.scheme = "http" ∨ r.url.scheme = "https"
  · simp only [hscheme, iff_true]
    rcases hscheme with hscheme | hscheme <;> simp [flaw?, h, hscheme]
  · obtain ⟨hhttp, hhttps⟩ := not_or.1 hscheme
    simp [flaw?, h, hhttp, hhttps]

/-! ### The feature service -/

namespace FeatureClient

/-- **The client sends the request about the organization**, once and nothing else, and what it
makes of the reply does not depend on whether it is noted. -/
theorem fetch_noting (network : Network σ) (c : FeatureClient) (log : List Request) (s : σ)
    (org : String) : c.fetch network.noting (log, s) org =
      ((c.fetch network s org).1, log ++ (c.request org).sent, (c.fetch network s org).2) := by
  rw [fetch, fetch, Client.fetch_noting]
  rcases Client.fetch network service s (c.request org) with ⟨e | ⟨status, body⟩, t⟩ <;> rfl

/-- Whether the request can be sent depends on the address of the client alone. -/
theorem flaw?_request_eq_none_iff (c : FeatureClient) (org : String) :
    (c.request org).flaw? = none ↔ c.endpoint.scheme = "http" ∨ c.endpoint.scheme = "https" := by
  rw [Request.flaw?_eq_none_iff rfl, request, urlFor, Url.scheme_extendQuery]

/-- A client with the address of a web service sends its requests. -/
theorem sent_request_of_web {c : FeatureClient}
    (h : c.endpoint.scheme = "http" ∨ c.endpoint.scheme = "https") (org : String) :
    (c.request org).sent = [c.request org] :=
  if_pos ((flaw?_request_eq_none_iff c org).2 h)

/-- One with another address sends nothing. -/
theorem sent_request_of_not_web {c : FeatureClient}
    (h : ¬(c.endpoint.scheme = "http" ∨ c.endpoint.scheme = "https")) (org : String) :
    (c.request org).sent = [] :=
  if_neg fun hflaw ↦ h ((flaw?_request_eq_none_iff c org).1 hflaw)

end FeatureClient

/-! ### The accounts system -/

namespace AccountsClient

variable {c : AccountsClient} {r : Request}

/-- A request is the one for a token that a client makes. -/
def IsTokenRequest (c : AccountsClient) (r : Request) : Prop :=
  ∃ credentials url, c.credentials = some credentials ∧
    Url.parse credentials.tokenUrl = .ok url ∧ r = tokenRequest credentials url

/-- What a client sends of a request, by what comes of its question for a token: without credentials
the request, with a token the request and this token, and nothing if it has credentials but no
token. -/
def outgoing (network : Network σ) (c : AccountsClient) (s : σ) (r : Request) : List Request :=
  match (c.bearer network s).1 with
  | .error _ => []
  | .ok none => r.sent
  | .ok (some (_, token)) => (r.withToken token).sent

/-- A token does not change where a request goes. -/
theorem url_eq_of_mem_outgoing {network : Network σ} {s : σ} {r' : Request}
    (h : r' ∈ c.outgoing network s r) : r'.url = r.url := by
  rw [outgoing] at h
  split at h
  · exact absurd h List.not_mem_nil
  · rw [Request.eq_of_mem_sent h]
  · rw [Request.eq_of_mem_sent h, Request.withToken]

/-- Without credentials there is nothing to wait for. -/
theorem outgoing_of_no_credentials (h : c.credentials = none) (network : Network σ) (s : σ)
    (r : Request) : c.outgoing network s r = r.sent := by
  simp [outgoing, bearer, h]

theorem fetchGrant_noting (network : Network σ) (credentials : Credentials) (log : List Request)
    (s : σ) : ∃ rs, fetchGrant network.noting credentials (log, s) =
        ((fetchGrant network credentials s).1, log ++ rs, (fetchGrant network credentials s).2) ∧
      ∀ r ∈ rs, ∃ url, Url.parse credentials.tokenUrl = .ok url ∧
        r = tokenRequest credentials url := by
  cases hurl : Url.parse credentials.tokenUrl with
  | error e => exact ⟨[], by simp [fetchGrant, hurl], by simp⟩
  | ok url =>
    refine ⟨(tokenRequest credentials url).sent, ?_, fun r hr ↦
      ⟨url, rfl, Request.eq_of_mem_sent hr⟩⟩
    simp only [fetchGrant, hurl, fetch_noting]
    rcases fetch network service s (tokenRequest credentials url) with ⟨e | ⟨status, body⟩, t⟩ <;>
      rfl

/-- For its token a client sends nothing but a request for one. -/
theorem bearer_noting (network : Network σ) (c : AccountsClient) (log : List Request) (s : σ) :
    ∃ rs, c.bearer network.noting (log, s) =
        ((c.bearer network s).1, (c.bearer network s).2.1, log ++ rs, (c.bearer network s).2.2) ∧
      ∀ r ∈ rs, IsTokenRequest c r := by
  cases hc : c.credentials with
  | none => exact ⟨[], by simp [bearer, hc], by simp⟩
  | some credentials =>
    obtain ⟨rs, hgrant, hrs⟩ := fetchGrant_noting network credentials log s
    by_cases hphase : c.access.enter.2.phase? c.access.enter.1 = some .requesting
    · refine ⟨rs, by simp [bearer, hc, hphase, hgrant], fun r hr ↦ ?_⟩
      obtain ⟨url, hurl, rfl⟩ := hrs r hr
      exact ⟨credentials, url, hc, hurl, rfl⟩
    · refine ⟨[], ?_, by simp⟩
      simp only [bearer, hc, List.append_nil]

/-- A client sends a request as it goes out, behind nothing but requests for tokens. -/
theorem send_noting (network : Network σ) (c : AccountsClient) (log : List Request) (s : σ)
    (r : Request) : ∃ rs, c.send network.noting (log, s) r =
        ((c.send network s r).1, (c.send network s r).2.1, log ++ rs ++ c.outgoing network s r,
          (c.send network s r).2.2) ∧ ∀ r ∈ rs, IsTokenRequest c r := by
  obtain ⟨rs, hbearer, hrs⟩ := bearer_noting network c log s
  refine ⟨rs, ?_, hrs⟩
  rcases hb : c.bearer network s with ⟨stop | _ | ⟨call, token⟩, c₁, s₁⟩ <;> rw [hb] at hbearer
  · simp [send, outgoing, hbearer, hb]
  · simp [send, outgoing, hbearer, hb, fetch_noting]
  · simp [send, outgoing, hbearer, hb, fetch_noting, Request.withToken]

/-- There is no reply if the request does not go out. -/
theorem outgoing_ne_nil_of_send {network : Network σ} {s : σ} {reply : Nat × Utf8.Bytes}
    (h : (c.send network s r).1 = .ok reply) : c.outgoing network s r ≠ [] := by
  have hsent : ∀ {r' : Request} {s' : σ},
      (fetch network service s' r').1.mapError Stop.failed = .ok reply → r'.sent ≠ [] := by
    intro r' s' hreply
    cases hfetch : (fetch network service s' r').1 with
    | error e => simp [hfetch, Except.mapError] at hreply
    | ok reply => exact sent_ne_nil_of_fetch hfetch
  rcases hb : c.bearer network s with ⟨stop | _ | ⟨call, token⟩, c₁, s₁⟩ <;>
    simp only [send, hb] at h <;> simp only [outgoing, hb]
  · cases h
  · exact hsent h
  · exact hsent h

/-- **A client sends the request of a question and perhaps one for a token before**, whatever the
network replies. -/
theorem ask_noting {call : SeatCall} (h : refused? call = none) (network : Network σ)
    (c : AccountsClient) (log : List Request) (s : σ) :
    ∃ rs, c.ask network.noting (log, s) call = ((c.ask network s call).1,
        (c.ask network s call).2.1, log ++ rs ++ c.outgoing network s (c.request call),
        (c.ask network s call).2.2) ∧ ∀ r ∈ rs, IsTokenRequest c r := by
  obtain ⟨rs, hsend, hrs⟩ := send_noting network c log s (c.request call)
  refine ⟨rs, ?_, hrs⟩
  rcases hs : c.send network s (c.request call) with ⟨stop | ⟨status, body⟩, c₁, s₁⟩ <;>
    simp [ask, h, hsend, hs]

/-- It has no good answer if its request does not go out. -/
theorem outgoing_ne_nil_of_ask {network : Network σ} {s : σ} {call : SeatCall} {reply : call.Reply}
    (h : (c.ask network s call).1 = .ok reply) :
    c.outgoing network s (c.request call) ≠ [] := by
  cases hrefused : refused? call with
  | some e => simp [ask, hrefused] at h
  | none =>
    rcases hs : c.send network s (c.request call) with ⟨stop | ⟨status, body⟩, c₁, s₁⟩
    · simp [ask, hrefused, hs] at h
    · have hreply : (c.send network s (c.request call)).1 = .ok (status, body) := by rw [hs]
      exact outgoing_ne_nil_of_send hreply

end AccountsClient

end Licensing.Client

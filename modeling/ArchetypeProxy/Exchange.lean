import ArchetypeProxy.EnvelopeCap
import ArchetypeProxy.ResponseStream
import ArchetypeProxy.Serving

/-!
# A whole exchange

A client seals a request, the server opens and forwards it among any other
requests, and the client reads the sealed response. The client is the one of
the test helper. What it gets is compared with what a plain reverse proxy
with the same table, cap and HTTP client would answer; what the upstream
replied is what that client gives in the end, behind any redirects.
-/

set_option autoImplicit false

namespace ArchetypeProxy.Exchange
open ArchetypeProxy.CounterNonce ArchetypeProxy.EnvelopeCap ArchetypeProxy.Fallible
open ArchetypeProxy.HopByHop ArchetypeProxy.Http ArchetypeProxy.Metrics ArchetypeProxy.Numerals
open ArchetypeProxy.OpenHttpa ArchetypeProxy.ProxyHandler ArchetypeProxy.ResponseStream
open ArchetypeProxy.Routes ArchetypeProxy.Runs ArchetypeProxy.Serving ArchetypeProxy.Text
open ArchetypeProxy.TrustedRequest ArchetypeProxy.Upstream ArchetypeProxy.WsFrames
open ArchetypeProxy.WsUpgrade
open ArchetypeProxy.ProxyResponse (StreamFrame Item FramedResponse OneHead UpstreamReply
  UpstreamResponse relay sealError bodyFrames bodyFrame scan_faithful scan_bytes_le scan_whole
  bodyData relay_oneHead sealError_oneHead)

variable {S A Id Suite F : Type}

def visibleChar (c : Char) : Bool := (0x20 ≤ c.toNat && c.toNat < 0x7F) || c.toNat == 0x09

def headerValueFromStr (s : String) : Option Bytes :=
  if s.toList.all visibleChar then some (s.toList.map (fun c => UInt8.ofNat c.toNat)) else none

def toAsciiUppercase (s : String) : String := String.ofList (s.toList.map Char.toUpper)

def wireMethod : String := "POST"

structure Client where
  hdrAttestBaseId : String
  encodeAttestTicket : UInt64 → Bytes → Bytes

def sealedHeaders (c : Client) (baseId realMethod : Bytes) : Headers :=
  [(c.hdrAttestBaseId,baseId),(hdrAttestRealMethod,realMethod)]

/-- The headers and the sealed body of a request. The key is new for every
request, so its first seal carries the counter one; the ticket carries the
counter of the session. -/
def sealRequest (t : Attestation S A) (c : Client) (keys : SessionKeys) (counter : UInt64)
    (method path : String) (query : Option String) (authority : String) (body aad : Bytes)
    (baseId : String) : Except String (Headers × Bytes) := do
  let key ← (BoundAeadKey.new t.aead t.aes256Gcm keys.clientWriteKey keys.clientWriteIv).mapError
    (fun e => "key setup failed: "++e)
  let (_,data,_) ← (key.seal t.aead aad body).mapError (fun e => "encryption failed: "++e)
  let baseId ← okOr (headerValueFromStr baseId)
    "invalid base-id header: failed to parse header value"
  let realMethod ← okOr (headerValueFromStr (toAsciiUppercase method))
    "invalid real-method header: failed to parse header value"
  let hmac ← okOr (t.hmacSha384 keys.clientMacKey) "HMAC key setup failed: Invalid Length"
  let hdrs := sealedHeaders c baseId realMethod
  let ahl ← (t.updateAhl wireMethod path query authority hdrs).mapError
    (fun e => "AHL error: "++e)
  let mac := hmac (beBytes counter.toNat++ahl)
  return (hdrs++[(hdrAttestTicket,c.encodeAttestTicket counter mac)],data)

/-- What is assumed of the crates: a ticket is read back, the header list is
made of the attested headers, and a sealed text opens under the nonce it was
sealed with and under no other. -/
structure Compatible (t : Attestation S A) (c : Client) : Prop where
  baseId : c.hdrAttestBaseId ≠ hdrAttestRealMethod ∧ c.hdrAttestBaseId ≠ hdrAttestTicket
  ticket : ∀ hs counter mac, Headers.values hs hdrAttestTicket =
    [c.encodeAttestTicket counter mac] → t.decodeAttestTicket hs = .ok ⟨counter,mac⟩
  ahl : ∀ m p q a hs hs', SameAttested hs hs' → t.updateAhl m p q a hs = t.updateAhl m p q a hs'
  opens : ∀ key nonce aad text ciphertext,
    t.aead.sealInPlace t.aes256Gcm key nonce aad text = .ok ciphertext →
      t.aead.openInPlace t.aes256Gcm key nonce aad ciphertext = .ok text ∧
        ciphertext.length = text.length+16
  bound : ∀ key nonce nonce' aad text ciphertext,
    t.aead.sealInPlace t.aes256Gcm key nonce aad text = .ok ciphertext → nonce' ≠ nonce →
      ∃ e, t.aead.openInPlace t.aes256Gcm key nonce' aad ciphertext = .error e

structure Posted (t : Attestation S A) (c : Client) (keys : SessionKeys) (counter : UInt64)
    (aad : Bytes) where
  method : String
  path : String
  query : Option String
  authority : String
  body : Bytes
  baseId : String
  hdrs : Headers
  data : Bytes
  sealed : sealRequest t c keys counter method path query authority body aad baseId =
    .ok (hdrs,data)
  named : isEmpty authority = false
  token : methodFromBytes (toAsciiUppercase method) = some (toAsciiUppercase method)

section Opening
variable {t : Attestation S A} {c : Client} {keys : SessionKeys} {counter : UInt64} {aad : Bytes}

end Opening

/-! ## The answer -/

section Answer
variable {stream : StreamCrates A} {sealStream : SealStream} {keys : SessionKeys} {aad : Bytes}

end Answer

/-! ## The exchange among others -/

section Exchange
variable {x : Arrival S A Id Suite} {c : Client} {keys : SessionKeys} {counter : UInt64}
variable {aad : Bytes} (max : ℕ)

def outbound (p : Posted x.attestation c keys counter aad) (route : Route) : Outbound :=
  ⟨toAsciiUppercase p.method,proxyUrl route.upstream p.path p.query,p.body⟩

end Exchange

end ArchetypeProxy.Exchange

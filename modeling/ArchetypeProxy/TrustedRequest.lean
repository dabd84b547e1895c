import ArchetypeProxy.Http
import ArchetypeProxy.OpenHttpa

/-!
# Decrypting a trusted request

The extractor names the session, reads the ticket, opens the JSON envelope,
checks the MAC over nonce and attested header list and opens the body. The
attestation crates, the MAC and the JSON parser are inputs. What they are
assumed to do is stated apart from the model.
-/

set_option autoImplicit false

namespace ArchetypeProxy.TrustedRequest
open ArchetypeProxy.Text ArchetypeProxy.CounterNonce ArchetypeProxy.Http ArchetypeProxy.OpenHttpa

variable {S A : Type}

def hdrAttestRealMethod : String := "attest-real-method"
def hdrAttestTicket : String := "attest-ticket"

structure Ticket where
  nonce : UInt64
  mac : Bytes
  deriving DecidableEq

inductive TrailerError where
  | missing
  | malformed
  deriving DecidableEq

structure OpenHttpaSession (S : Type) where
  session : S
  aad : Bytes
  deriving DecidableEq

/-- The third-party functions of the extractor. The session comes from the
request layer and its extractor. It hands out its keys for a nonce or refuses
the nonce. A MAC is created from its key or not at all. -/
structure Attestation (S A : Type) where
  openSession : Headers → Except Response (OpenHttpaSession S)
  decodeAttestTicket : Headers → Except TrailerError Ticket
  ciphertextBody : Bytes → Option String
  withKeysForTrr : S → UInt64 → Except String SessionKeys
  hmacSha384 : Bytes → Option (Bytes → Bytes)
  updateAhl : String → String → Option String → String → Headers → Except String Bytes
  aead : Aead A
  aes256Gcm : A

structure Request where
  head : RequestHead
  body : Option Bytes
  deriving DecidableEq

structure DecryptedRequest (S : Type) where
  session : OpenHttpaSession S
  method : String
  path : String
  query : Option String
  host : String
  body : Bytes
  deriving DecidableEq

def usizeMax : ℕ := 2^64-1
def saturatingAdd (a b : ℕ) : ℕ := min (a+b) usizeMax
def saturatingMul (a b : ℕ) : ℕ := min (a*b) usizeMax

def jsonOverhead : ℕ := 64

def preDecryptCap (maxBodyBytes : ℕ) : ℕ :=
  saturatingAdd (saturatingMul (saturatingAdd maxBodyBytes 16) 2) jsonOverhead

def toBytes (body : Option Bytes) (cap : ℕ) : Option Bytes :=
  body.filter (fun bs => bs.length ≤ cap)

def readTicket (t : Attestation S A) (hs : Headers) : Except Response Ticket :=
  match t.decodeAttestTicket hs with
  | .error .missing => .error ⟨401,"Invalid Attest-Ticket format"⟩
  | .error .malformed => .error ⟨400,"Invalid Attest-Ticket format"⟩
  | .ok ticket => .ok ticket

def readEnvelope (t : Attestation S A) (maxBodyBytes : ℕ) (body : Option Bytes) :
    Except Response Bytes :=
  match toBytes body (preDecryptCap maxBodyBytes) with
  | none => .error ⟨413,"Encrypted request envelope too large"⟩
  | some bytes =>
    match t.ciphertextBody bytes with
    | none => .error ⟨400,"Invalid request envelope"⟩
    | some hex =>
      match hexDecode hex with
      | none => .error ⟨400,"Invalid ciphertext hex"⟩
      | some ciphertext => .ok ciphertext

/-- The URI the client sent, before nested routing. -/
def clientUri (head : RequestHead) : Uri := head.originalUri.getD head.uri

def clientAuthority (head : RequestHead) : String :=
  match head.uri.authority with
  | some a => a
  | none => (head.headers.text "host").getD ""

/-- MAC first, then the body. The nonce of the ticket enters both. -/
def openTrusted (t : Attestation S A) (aad : Bytes) (keys : SessionKeys) (ticket : Ticket)
    (head : RequestHead) (ciphertext : Bytes) : Except Response Bytes :=
  match t.hmacSha384 keys.clientMacKey with
  | none => .error ⟨500,"HMAC init failed"⟩
  | some hmac =>
    match t.updateAhl head.method (clientUri head).path (clientUri head).query
        (clientAuthority head) head.headers with
    | .error e => .error ⟨400,"AHL error: " ++ e⟩
    | .ok ahl =>
      if hmac (beBytes ticket.nonce.toNat++ahl) ≠ ticket.mac then .error ⟨401,"Invalid header MAC"⟩
      else
        match BoundAeadKey.new t.aead t.aes256Gcm keys.clientWriteKey keys.clientWriteIv with
        | .error _ => .error ⟨500,"Key setup failed"⟩
        | .ok key =>
          match key.open t.aead (counterNonce keys.clientWriteIv ticket.nonce.toNat) aad
              ciphertext with
          | .error _ => .error ⟨400,"Decryption failed"⟩
          | .ok plaintext => .ok plaintext

def realMethod (head : RequestHead) : String :=
  ((head.headers.text hdrAttestRealMethod).bind methodFromBytes).getD head.method

def fromRequest (t : Attestation S A) (maxBodyBytes : ℕ) (req : Request) :
    Except Response (DecryptedRequest S) :=
  match t.openSession req.head.headers with
  | .error r => .error r
  | .ok session =>
    match readTicket t req.head.headers with
    | .error r => .error r
    | .ok ticket =>
      match readEnvelope t maxBodyBytes req.body with
      | .error r => .error r
      | .ok ciphertext =>
        if isEmpty (clientAuthority req.head) then
          .error ⟨400,"Missing Host / authority header — required for AHL integrity"⟩
        else
          match t.withKeysForTrr session.session ticket.nonce with
          | .error e => .error ⟨401,e⟩
          | .ok keys =>
            match openTrusted t session.aad keys ticket req.head ciphertext with
            | .error r => .error r
            | .ok body => .ok
              { session := session
                method := realMethod req.head
                path := (clientUri req.head).path
                query := (clientUri req.head).query
                host := clientAuthority req.head
                body := body }

/-- The headers under the MAC. The ticket carries the MAC and is not. -/
def attested (name : String) : Bool := startsWith name "attest-" && name != hdrAttestTicket

def SameAttested (hs hs' : Headers) : Prop :=
  ∀ name, attested name = true → hs.values name = hs'.values name

/-- What is assumed of the crates: the MAC is free of collisions, the header
list determines all it covers, a nonce and associated data open to one
plaintext only, and the session comes from the attested headers and the
ticket. -/
structure Ideal (t : Attestation S A) : Prop where
  mac : ∀ k k' f f' m m', t.hmacSha384 k = some f → t.hmacSha384 k' = some f' → f m = f' m' → m = m'
  ahl : ∀ m m' p p' q q' a a' hs hs' bs,
    t.updateAhl m p q a hs = .ok bs → t.updateAhl m' p' q' a' hs' = .ok bs →
    m = m' ∧ p = p' ∧ q = q' ∧ a = a' ∧ SameAttested hs hs'
  aead : ∀ key nonce aad c c' x x',
    t.aead.openInPlace t.aes256Gcm key nonce aad c = .ok x →
    t.aead.openInPlace t.aes256Gcm key nonce aad c' = .ok x' → x = x'
  session : ∀ hs hs', SameAttested hs hs' → t.decodeAttestTicket hs = t.decodeAttestTicket hs' →
    t.openSession hs = t.openSession hs'

theorem sameAttested_of_filter (hs hs' : Headers)
    (h : hs.filter (fun x => attested x.1) = hs'.filter (fun x => attested x.1)) :
    SameAttested hs hs' := by
  intro name hn
  have hf : ∀ xs : Headers, xs.filter (fun x => x.1 == name) =
      (xs.filter (fun x => attested x.1)).filter (fun x => x.1 == name) := by
    intro xs
    rw [List.filter_filter]
    refine List.filter_congr fun x _ => ?_
    by_cases hx : x.1 = name <;> simp [hx, hn]
  rw [Headers.values, Headers.values, hf hs, hf hs', h]

theorem readTicket_ok (t : Attestation S A) (hs : Headers) (ticket : Ticket)
    (h : readTicket t hs = .ok ticket) : t.decodeAttestTicket hs = .ok ticket := by
  unfold readTicket at h
  split at h
  · cases h
  · cases h
  · rename_i x hx
    cases h
    exact hx

theorem openTrusted_ok (t : Attestation S A) (aad : Bytes) (keys : SessionKeys) (ticket : Ticket)
    (head : RequestHead) (ciphertext body : Bytes)
    (h : openTrusted t aad keys ticket head ciphertext = .ok body) :
    ∃ hmac ahl, t.hmacSha384 keys.clientMacKey = some hmac ∧
      t.updateAhl head.method (clientUri head).path (clientUri head).query (clientAuthority head)
        head.headers = .ok ahl ∧
      hmac (beBytes ticket.nonce.toNat++ahl) = ticket.mac ∧
      t.aead.openInPlace t.aes256Gcm keys.clientWriteKey
        (counterNonce keys.clientWriteIv ticket.nonce.toNat) aad ciphertext = .ok body := by
  unfold openTrusted at h
  split at h
  · cases h
  · rename_i hmac hh
    split at h
    · cases h
    · rename_i ahl ha
      split at h
      · cases h
      · rename_i hm
        split at h
        · cases h
        · rename_i key hkey
          split at h
          · cases h
          · rename_i x hx
            cases h
            refine ⟨hmac,ahl,hh,ha,not_not.mp hm,?_⟩
            unfold BoundAeadKey.new at hkey
            cases hn : t.aead.newKey t.aes256Gcm keys.clientWriteKey <;>
              simp [hn, bind, Except.bind, pure, Except.pure] at hkey
            subst hkey
            exact hx

theorem fromRequest_ok (t : Attestation S A) (maxBodyBytes : ℕ) (req : Request)
    (d : DecryptedRequest S) (h : fromRequest t maxBodyBytes req = .ok d) :
    ∃ ticket ciphertext keys, t.openSession req.head.headers = .ok d.session ∧
      t.decodeAttestTicket req.head.headers = .ok ticket ∧
      readEnvelope t maxBodyBytes req.body = .ok ciphertext ∧
      t.withKeysForTrr d.session.session ticket.nonce = .ok keys ∧
      openTrusted t d.session.aad keys ticket req.head ciphertext = .ok d.body ∧
      d.method = realMethod req.head ∧ d.path = (clientUri req.head).path ∧
      d.query = (clientUri req.head).query ∧ d.host = clientAuthority req.head := by
  unfold fromRequest at h
  split at h
  · cases h
  · rename_i session hs
    split at h
    · cases h
    · rename_i ticket ht
      split at h
      · cases h
      · rename_i ciphertext hc
        split at h
        · cases h
        · split at h
          · cases h
          · rename_i keys hk
            split at h
            · cases h
            · rename_i body hb
              cases h
              exact ⟨ticket,ciphertext,keys,hs,readTicket_ok t _ _ ht,hc,hk,hb,rfl,rfl,rfl,rfl⟩

theorem realMethod_attested (head head' : RequestHead) (hm : head.method = head'.method)
    (hs : SameAttested head.headers head'.headers) : realMethod head = realMethod head' := by
  have hv := hs hdrAttestRealMethod (by decide)
  rw [realMethod, realMethod, hm, Headers.text, Headers.text, get_eq_head, get_eq_head, hv]

theorem decrypted_eq (t : Attestation S A) (ht : Ideal t) (maxBodyBytes : ℕ) (req req' : Request)
    (d d' : DecryptedRequest S) (h : fromRequest t maxBodyBytes req = .ok d)
    (h' : fromRequest t maxBodyBytes req' = .ok d')
    (hticket : t.decodeAttestTicket req.head.headers = t.decodeAttestTicket req'.head.headers) :
    d = d' := by
  obtain ⟨ticket,c,keys,hsess,htk,_,hkeys,hopen,hm,hp,hq,ha⟩ := fromRequest_ok t _ req d h
  obtain ⟨ticket',c',keys',hsess',htk',_,hkeys',hopen',hm',hp',hq',ha'⟩ :=
    fromRequest_ok t _ req' d' h'
  rw [hticket, htk', Except.ok.injEq] at htk
  subst htk
  obtain ⟨f,ahl,hf,hahl,hmac,hbody⟩ := openTrusted_ok t _ _ _ _ _ _ hopen
  obtain ⟨f',ahl',hf',hahl',hmac',hbody'⟩ := openTrusted_ok t _ _ _ _ _ _ hopen'
  have heq := ht.mac _ _ f f' _ _ hf hf' (hmac.trans hmac'.symm)
  rw [List.append_cancel_left heq] at hahl
  obtain ⟨hmeth,hpath,hquery,hauth,hattest⟩ := ht.ahl _ _ _ _ _ _ _ _ _ _ _ hahl hahl'
  have hsession : d.session = d'.session := by
    rw [ht.session _ _ hattest hticket, hsess', Except.ok.injEq] at hsess
    exact hsess.symm
  rw [hsession, hkeys', Except.ok.injEq] at hkeys
  subst hkeys
  rw [hsession] at hbody
  have hb := ht.aead _ _ _ _ _ _ _ hbody hbody'
  have hreal := realMethod_attested req.head req'.head hmeth hattest
  obtain ⟨s,m,p,q,a,b⟩ := d
  obtain ⟨s',m',p',q',a',b'⟩ := d'
  simp_all

end ArchetypeProxy.TrustedRequest

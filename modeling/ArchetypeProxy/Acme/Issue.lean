import ArchetypeProxy.Acme.Certificate
import ArchetypeProxy.Library.StringMap
import ArchetypeProxy.Library.Text
import Mathlib.Logic.Function.Basic

/-!
# The ACME manager

One call of `issue` runs an order for the configured domains: it restores or
creates the account, installs a response for each pending authorization,
fetches the certificate, tears the responses down, writes the cache and
installs the certificate. What the certificate authority, the DNS provider,
the key generator and the file system answer during one call is an `Attempt`.
-/

set_option autoImplicit false

namespace ArchetypeProxy.Acme.Issue
open ArchetypeProxy.Acme.Certificate ArchetypeProxy.CounterNonce ArchetypeProxy.Fallible
open ArchetypeProxy.StringMap ArchetypeProxy.Text

inductive AcmeChallenge where
  | tlsAlpn01 | http01 | dns01
  deriving DecidableEq, Repr

def AcmeChallenge.asStr : AcmeChallenge → String
  | .tlsAlpn01 => "tls-alpn-01"
  | .http01 => "http-01"
  | .dns01 => "dns-01"

structure SocketAddr where
  ip : String
  port : ℕ
  deriving DecidableEq, Repr

inductive DnsProviderKind where
  | manual
  | cloudflare (token : Option String)
  deriving DecidableEq, Repr

structure AcmeConfig where
  domains : List String
  contact : Option String
  challenge : AcmeChallenge
  directoryUrl : Option String
  staging : Bool
  cacheDir : Option String
  http01Listen : Option SocketAddr
  dns : DnsProviderKind
  deriving DecidableEq, Repr

def contacts (cfg : AcmeConfig) : List String :=
  match cfg.contact with
  | some c => [if startsWith c "mailto:" then c else "mailto:"++c]
  | none => []

/-- Account credentials name the directory the account was created at. -/
structure Credentials where
  id : String
  directory : String
  deriving DecidableEq, Repr

structure Account where
  directory : String
  deriving DecidableEq, Repr

structure Crates extends Pem where
  parseCredentials : String → Option Credentials
  printCredentials : Credentials → Except String String
  letsEncryptStaging : String
  letsEncryptProduction : String

/-- An explicit URL comes before the staging flag. -/
def directoryUrl (crates : Crates) (cfg : AcmeConfig) : String :=
  match cfg.directoryUrl with
  | some url => url
  | none => if cfg.staging then crates.letsEncryptStaging else crates.letsEncryptProduction

inductive ChallengeResponse where
  | http01 (token keyAuthorization : String)
  | tlsAlpn01 (domain : String) (digest : Bytes)
  | dns01 (domain recordName value : String)
  deriving DecidableEq, Repr

/-- A wildcard is validated at its base domain. -/
def dnsRecordName (domain : String) : String :=
  "_acme-challenge."++(stripPrefix domain "*.").getD domain

/-- A challenge the authority offers, with the values derived from its token
and the answers to what the manager does for it. -/
structure Challenge where
  type : AcmeChallenge
  token : String
  keyAuthorization : String
  digest : Bytes
  dnsValue : String
  validationCert : Except AcmeError CertifiedKey
  publish : Except AcmeError Unit
  setReady : Except String Unit

structure Authorization where
  domain : String
  status : AuthorizationStatus
  challenges : List Challenge

def Authorization.challenge (authz : Authorization) (type : AcmeChallenge) : Option Challenge :=
  authz.challenges.find? (fun c => c.type == type)

def challengeResponse (type : AcmeChallenge) (domain : String) (c : Challenge) :
    ChallengeResponse :=
  match type with
  | .http01 => .http01 c.token c.keyAuthorization
  | .tlsAlpn01 => .tlsAlpn01 domain c.digest
  | .dns01 => .dns01 domain (dnsRecordName domain) c.dnsValue

/-- What a failed write leaves of the file: the old content, nothing readable,
or the beginning of the new text. -/
inductive Left where
  | kept
  | lost
  | cut (n : ℕ)
  deriving DecidableEq, Repr

inductive WriteReply where
  | done
  | failed (left : Left) (source : String)
  deriving DecidableEq, Repr

def WriteReply.content (reply : WriteReply) (old : Option String) (text : String) :
    Option String :=
  match reply with
  | .done => some text
  | .failed .kept _ => old
  | .failed .lost _ => none
  | .failed (.cut n) _ => some (String.ofList (text.toList.take n))

def WriteReply.result (reply : WriteReply) (path : String) : Except AcmeError Unit :=
  match reply with
  | .done => .ok ()
  | .failed _ source => .error (.cache path source)

/-- The answers to one call of `issue`, in the order they are asked for. -/
structure Attempt where
  builder : Except String Unit
  fromCredentials : Except String Unit
  create : Except String String
  accountDir : Except String Unit
  accountWrite : WriteReply
  newOrder : Except String Unit
  authorizations : List (Except String Authorization)
  pollReady : Except String OrderStatus
  finalize : Except String String
  pollCertificate : Except String String
  certDir : Except String Unit
  certWrite : WriteReply
  keyWrite : WriteReply

inductive CacheFile where
  | account | cert | key
  deriving DecidableEq, Repr

def CacheFile.name : CacheFile → String
  | .account => "account.json"
  | .cert => "cert.pem"
  | .key => "key.pem"

def joinPath (dir name : String) : String :=
  if dir = "" ∨ dir.toList.getLast? = some '/' then dir++name else dir++"/"++name

inductive Action where
  | spawnResponder (listen : SocketAddr)
  | createAccount (directory : String) (contacts : List String)
  | newOrder (directory : String) (identifiers : List String)
  | install (response : ChallengeResponse)
  | setReady (type : AcmeChallenge)
  | cleanup (domain recordName value : String)
  | download (directory : String) (identifiers : List String) (certPem : String)
  | bindTls (addr : SocketAddr) (acmeTlsAlpn : Bool)
  | exit
  deriving DecidableEq, Repr

/-- The state shared by manager, resolver and responder, the files of the cache
and what was done so far. -/
structure World where
  httpTokens : Std.ExtTreeMap String String
  challenges : Std.ExtTreeMap String CertifiedKey
  current : Option CertifiedKey
  files : CacheFile → Option String
  log : List Action

abbrev ManagerM (α : Type) := Comp World AcmeError α

def World.note (w : World) (actions : List Action) : World := { w with log := w.log++actions }

section Note
variable (w : World) (actions : List Action)

@[simp] theorem note_log : (w.note actions).log = w.log++actions := rfl
@[simp] theorem note_httpTokens : (w.note actions).httpTokens = w.httpTokens := rfl
@[simp] theorem note_challenges : (w.note actions).challenges = w.challenges := rfl
@[simp] theorem note_current : (w.note actions).current = w.current := rfl
@[simp] theorem note_files : (w.note actions).files = w.files := rfl

end Note

def emit (action : Action) : ManagerM Unit := update (fun w => w.note [action])

def acme {α : Type} (reply : Except String α) : Except AcmeError α := reply.mapError .acme

def ensureDir (dir : String) (reply : Except String Unit) : Except AcmeError Unit :=
  reply.mapError (.cache dir)

def write (dir : String) (file : CacheFile) (text : String) (reply : WriteReply) :
    ManagerM Unit := do
  update (fun w =>
    { w with files := Function.update w.files file (reply.content (w.files file) text) })
  ask (reply.result (joinPath dir file.name))

def World.loadCert (w : World) : Option IssuedCert :=
  (w.files .cert).bind (fun certPem => (w.files .key).map (IssuedCert.mk certPem))

theorem loadCert_eq_some_iff (w : World) (cert : IssuedCert) :
    w.loadCert = some cert ↔
      w.files .cert = some cert.certPem ∧ w.files .key = some cert.keyPem := by
  rw [World.loadCert, Option.bind_eq_some_iff]
  constructor
  · rintro ⟨certPem,hcert,h⟩
    obtain ⟨keyPem,hkey,rfl⟩ := Option.map_eq_some_iff.mp h
    exact ⟨hcert,hkey⟩
  · rintro ⟨hcert,hkey⟩
    exact ⟨cert.certPem,hcert,by simp [hkey]⟩

def storeCert (dir : String) (cert : IssuedCert) (a : Attempt) : ManagerM Unit := do
  write dir .cert cert.certPem a.certWrite
  write dir .key cert.keyPem a.keyWrite

theorem storeCert_of_failed (dir : String) (cert : IssuedCert) (a : Attempt) (w : World)
    (left : Left) (source : String) (h : a.certWrite = .failed left source) :
    storeCert dir cert a w = (.error (.cache (joinPath dir CacheFile.cert.name) source),
      { w with
        files := Function.update w.files .cert
          (a.certWrite.content (w.files .cert) cert.certPem) }) := by
  rw [storeCert, write, h]
  rfl

theorem storeCert_of_done (dir : String) (cert : IssuedCert) (a : Attempt) (w : World)
    (h : a.certWrite = .done) :
    storeCert dir cert a w = (a.keyWrite.result (joinPath dir CacheFile.key.name),
      { w with
        files := Function.update (Function.update w.files .cert (some cert.certPem)) .key
          (a.keyWrite.content (w.files .key) cert.keyPem) }) := by
  rw [storeCert, write, h]
  rfl

variable (crates : Crates) (cfg : AcmeConfig)

def cachedCredentials (w : World) : Option Credentials :=
  cfg.cacheDir.bind (fun _ => (w.files .account).bind crates.parseCredentials)

def saveAccount (creds : Credentials) (a : Attempt) : ManagerM Unit :=
  match cfg.cacheDir with
  | none => pure ()
  | some dir => do
    ask (ensureDir dir a.accountDir)
    let text ← ask ((crates.printCredentials creds).mapError
      (fun e => .cert ("serialize account credentials: "++e)))
    write dir .account text a.accountWrite

def restoreAccount (creds : Credentials) (a : Attempt) : ManagerM Account := do
  ask (acme a.builder)
  ask (acme a.fromCredentials)
  pure ⟨creds.directory⟩

def createAccount (a : Attempt) : ManagerM Account := do
  ask (acme a.builder)
  let id ← ask (acme a.create)
  emit (.createAccount (directoryUrl crates cfg) (contacts cfg))
  saveAccount crates cfg ⟨id,directoryUrl crates cfg⟩ a
  pure ⟨directoryUrl crates cfg⟩

def account (a : Attempt) : ManagerM Account := do
  match ← look (cachedCredentials crates cfg) with
  | some creds => restoreAccount creds a
  | none => createAccount crates cfg a

structure Active where
  dns : List (String × String × String)
  alpn : List String
  http : List String
  deriving DecidableEq, Repr

def install (c : Challenge) (response : ChallengeResponse) (active : Active) : ManagerM Active :=
  match response with
  | .http01 token keyAuthorization => do
    update (fun w => { w with httpTokens := w.httpTokens.insert token keyAuthorization })
    emit (.install response)
    pure { active with http := active.http++[token] }
  | .tlsAlpn01 domain _ => do
    let ck ← ask c.validationCert
    update (fun w => { w with challenges := w.challenges.insert domain ck })
    emit (.install response)
    pure { active with alpn := active.alpn++[domain] }
  | .dns01 domain recordName value => do
    ask c.publish
    emit (.install response)
    pure { active with dns := active.dns++[(domain,recordName,value)] }

def respond (authz : Authorization) (active : Active) : ManagerM Active :=
  match authz.challenge cfg.challenge with
  | none => ask (.error (.cert
      ("ACME server offered no "++cfg.challenge.asStr++" challenge for "++authz.domain)))
  | some c => do
    let active ← install c (challengeResponse cfg.challenge authz.domain c) active
    emit (.setReady cfg.challenge)
    ask (acme c.setReady)
    pure active

def setUp : List (Except String Authorization) → Active → ManagerM Active
  | [], active => pure active
  | reply::replies, active => do
    let authz ← ask (acme reply)
    match authz.status with
    | .pending =>
      let active ← respond cfg authz active
      setUp replies active
    | .valid => setUp replies active
    | status => ask (.error (.authorization authz.domain status))

def finalizeAndFetch (account : Account) (a : Attempt) : ManagerM IssuedCert := do
  let status ← ask (acme a.pollReady)
  if status = .ready then
    let keyPem ← ask (acme a.finalize)
    let certPem ← ask (acme a.pollCertificate)
    emit (.download account.directory cfg.domains certPem)
    pure ⟨certPem,keyPem⟩
  else ask (.error (.order status))

def World.withdraw (active : Active) (w : World) : World :=
  { w with
    httpTokens := eraseAll w.httpTokens active.http
    challenges := eraseAll w.challenges active.alpn
    log := w.log++active.dns.map (fun r => .cleanup r.1 r.2.1 r.2.2) }

def tearDown (active : Active) : ManagerM Unit := update (World.withdraw active)

def saveCert (issued : IssuedCert) (a : Attempt) : ManagerM Unit :=
  match cfg.cacheDir with
  | none => pure ()
  | some dir => do
    ask (ensureDir dir a.certDir)
    storeCert dir issued a

def persist (issued : IssuedCert) (a : Attempt) : ManagerM Unit := do
  saveCert cfg issued a
  let ck ← ask (issued.intoCertifiedKey crates.toPem)
  update (fun w => { w with current := some ck })

/-- From the last authorization on: the teardown comes before the result of
the order is looked at. -/
def complete (account : Account) (active : Active) (a : Attempt) : ManagerM IssuedCert := do
  let result ← caught (finalizeAndFetch cfg account a)
  tearDown active
  let issued ← ask result
  persist crates cfg issued a
  pure issued

def issue (a : Attempt) : ManagerM IssuedCert := do
  let account ← account crates cfg a
  ask (acme a.newOrder)
  emit (.newOrder account.directory cfg.domains)
  let active ← setUp cfg a.authorizations ⟨[],[],[]⟩
  complete crates cfg account active a

/-! ## Startup and renewal -/

def booted (files : CacheFile → Option String) (log : List Action) : World := ⟨∅,∅,none,files,log⟩

def newManager : Except AcmeError Unit :=
  match cfg.dns with
  | .cloudflare none => .error (.dns
      "dns provider=cloudflare requires a token via api_token or api_token_env (env var unset or empty)")
  | _ => .ok ()

/-- The cached certificate, if it can be served and is not due for renewal. -/
def usableCert (now : ℕ) (w : World) : Option CertifiedKey :=
  cfg.cacheDir.bind (fun _ => w.loadCert.bind (fun cert =>
    if cert.needsRenewal crates.toPem now then none
    else (cert.intoCertifiedKey crates.toPem).toOption))

def loadCached (now : ℕ) : ManagerM Bool := do
  match ← look (usableCert crates cfg now) with
  | some ck =>
    update (fun w => { w with current := some ck })
    pure true
  | none => pure false

def spawnHttp01Responder (addr : SocketAddr) : ManagerM Unit :=
  if cfg.challenge = .http01 then
    emit (.spawnResponder (cfg.http01Listen.getD ⟨addr.ip,80⟩))
  else pure ()

/-- A usable certificate of the cache spares the first call of `issue`. -/
def provision (now : ℕ) (a : Attempt) : ManagerM Unit := do
  match ← loadCached crates cfg now with
  | true => pure ()
  | false =>
    let _ ← issue crates cfg a
    pure ()

/-- Gives whether the listener offers the validation protocol. -/
def setupAcme (addr : SocketAddr) (now : ℕ) (a : Attempt) : ManagerM Bool := do
  ask (newManager cfg)
  spawnHttp01Responder cfg addr
  provision crates cfg now a
  pure (decide (cfg.challenge = .tlsAlpn01))

/-- A start of the process: the listener is bound after the certificate is
there, and the process exits without one. -/
def startServer (addr : SocketAddr) (now : ℕ) (a : Attempt) : ManagerM Unit := fun w =>
  match setupAcme crates cfg addr now a w with
  | (.ok acmeTlsAlpn,w') => emit (.bindTls addr acmeTlsAlpn) w'
  | (.error e,w') => (.error e,w'.note [.exit])

def certNeedsRenewal (now : ℕ) (w : World) : Bool :=
  match cfg.cacheDir.bind (fun _ => w.loadCert) with
  | some cert => cert.needsRenewal crates.toPem now
  | none => true

def due (now : ℕ) (w : World) : Bool :=
  match w.current with
  | none => true
  | some _ => certNeedsRenewal crates cfg now w

def tick (now : ℕ) (a : Attempt) (w : World) : Option (Except AcmeError IssuedCert) × World :=
  if due crates cfg now w then
    let r := issue crates cfg a w
    (some r.1,r.2)
  else (none,w)

/-! ## A small instance

Each character of a text is a certificate, valid for as many days as its code
says, and belongs to the key of the same character. -/

def frame : List Char → List Char
  | [] => ['.']
  | c::cs => '+'::c::frame cs

def unframe : List Char → Option (List Char)
  | '.'::_ => some []
  | '+'::c::cs => (unframe cs).map (List.cons c)
  | _ => none

def charCrates : Crates where
  pemSliceIter text := text.toList.map (fun c => .ok [UInt8.ofNat c.toNat])
  fromPemSlice text := match text.toList with
    | c::_ => .ok [UInt8.ofNat c.toNat]
    | [] => .error "no key"
  fromDer certs key := if certs.head? = some key then .ok () else .error "keys mismatch"
  parseX509 der := der.head?.map (fun b => ⟨0,b.toNat*86400⟩)
  parseCredentials text := (unframe text.toList).map (fun url => ⟨"id",String.ofList url⟩)
  printCredentials creds := .ok (String.ofList (frame creds.directory.toList))
  letsEncryptStaging := "staging"
  letsEncryptProduction := "production"

def emptyWorld : World := booted (fun _ => none) []

def smoothAttempt (authorizations : List (Except String Authorization)) (pair : IssuedCert) :
    Attempt :=
  ⟨.ok (),.ok (),.ok "id",.ok (),.done,.ok (),authorizations,.ok .ready,.ok pair.keyPem,
    .ok pair.certPem,.ok (),.done,.done⟩

def pendingAuthz (type : AcmeChallenge) (domain : String) : Authorization :=
  ⟨domain,.pending,[⟨type,domain,domain,[],domain,.ok ⟨[],[]⟩,.ok (),.ok ()⟩]⟩

end ArchetypeProxy.Acme.Issue

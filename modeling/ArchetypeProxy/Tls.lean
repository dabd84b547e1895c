import ArchetypeProxy.Acme.Renewal
import ArchetypeProxy.Configuration.Verifier

/-!
# The certificate of the listener

The listener asks a resolver for a certificate at every handshake. The
resolver of a pair of files always gives the pair that was loaded at startup;
the resolver of ACME gives the certificate installed at the moment, and to a
validation handshake the certificate of its challenge only.
-/

set_option autoImplicit false

namespace ArchetypeProxy.Tls
open ArchetypeProxy.Acme.Certificate ArchetypeProxy.Acme.Issue ArchetypeProxy.Acme.Renewal
open ArchetypeProxy.Acme.Steps ArchetypeProxy.Configuration.Verifier ArchetypeProxy.CounterNonce
open ArchetypeProxy.Fallible ArchetypeProxy.Runs

inductive TlsError where
  | read (kind path source : String)
  | noCerts (path : String)
  | noKey (path : String)
  | pem (kind path source : String)
  | key (path source : String)
  | keyMismatch (certPath keyPath source : String)
  deriving DecidableEq, Repr

/-- How the key compares with the certificate; `unknown` if the key cannot be
looked into. -/
inductive KeysMatch where
  | same
  | unknown
  | different (source : String)
  deriving DecidableEq, Repr

structure TlsCrates where
  privateKey : Bytes → Except String (Option Bytes)
  anySupportedType : Bytes → Except String Unit
  keysMatch : List Bytes → Bytes → KeysMatch

section Static
variable (files : String → Except String Bytes) (crates : CertCrates) (tls : TlsCrates)

/-- Only a definite mismatch is an error. -/
def checkMatch (certPath keyPath : String) : KeysMatch → Except TlsError Unit
  | .same | .unknown => .ok ()
  | .different source => .error (.keyMismatch certPath keyPath source)

def loadCertifiedKey (certPath keyPath : String) : Except TlsError CertifiedKey := do
  let certPem ← (files certPath).mapError (.read "certificate" certPath)
  let keyPem ← (files keyPath).mapError (.read "private key" keyPath)
  let certs ← ((crates.certs certPem).mapM id).mapError (.pem "certificate" certPath)
  if certs.isEmpty then throw (.noCerts certPath)
  let found ← (tls.privateKey keyPem).mapError (.pem "private key" keyPath)
  let key ← okOr found (.noKey keyPath)
  (tls.anySupportedType key).mapError (.key keyPath)
  checkMatch certPath keyPath (tls.keysMatch certs key)
  return ⟨certs,key⟩

/-- The two files hold the chain and a key that may belong to it. -/
structure FromFiles (certPath keyPath : String) (ck : CertifiedKey) : Prop where
  chain : ∃ pem, files certPath = .ok pem ∧ (crates.certs pem).mapM id = .ok ck.cert
  key : ∃ pem, files keyPath = .ok pem ∧ tls.privateKey pem = .ok (some ck.key)
  nonempty : ck.cert ≠ []
  signs : tls.anySupportedType ck.key = .ok ()
  fits : ∀ source, tls.keysMatch ck.cert ck.key ≠ .different source

theorem loadCertifiedKey_ok (certPath keyPath : String) (ck : CertifiedKey)
    (h : loadCertifiedKey files crates tls certPath keyPath = .ok ck) :
    FromFiles files crates tls certPath keyPath ck := by
  obtain ⟨certPem,hcert,h⟩ := except_bind_eq_ok _ _ _ h
  obtain ⟨keyPem,hkey,h⟩ := except_bind_eq_ok _ _ _ h
  obtain ⟨certs,hcerts,h⟩ := except_bind_eq_ok _ _ _ h
  dsimp only at h
  split at h
  · cases h
  · rename_i hne
    obtain ⟨found,hfound,h⟩ := except_bind_eq_ok _ _ _ h
    obtain ⟨key,hsome,h⟩ := except_bind_eq_ok _ _ _ h
    obtain ⟨_,hsigns,h⟩ := except_bind_eq_ok _ _ _ h
    obtain ⟨_,hmatch,h⟩ := except_bind_eq_ok _ _ _ h
    cases h
    cases (okOr_eq_ok_iff _ _ _).mp hsome
    refine ⟨⟨certPem,(mapError_eq_ok_iff _ _ _).mp hcert,(mapError_eq_ok_iff _ _ _).mp hcerts⟩,
      ⟨keyPem,(mapError_eq_ok_iff _ _ _).mp hkey,(mapError_eq_ok_iff _ _ _).mp hfound⟩,
      by simpa using hne,(mapError_eq_ok_iff _ _ _).mp hsigns,?_⟩
    intro source hdifferent
    rw [hdifferent] at hmatch
    cases hmatch

end Static

structure ClientHello where
  serverName : Option String
  alpn : Option (List Bytes)

def acmeTlsAlpnName : Bytes := [97,99,109,101,45,116,108,115,47,49]

def ClientHello.isAcmeAlpn (hello : ClientHello) : Bool :=
  hello.alpn.any (fun protocols => protocols.any (· == acmeTlsAlpnName))

inductive Resolver where
  | static (certified : CertifiedKey)
  | acme (cfg : AcmeConfig) (w : World)

def Resolver.resolve (hello : ClientHello) : Resolver → Option CertifiedKey
  | .static certified => some certified
  | .acme _ w =>
    if hello.isAcmeAlpn then hello.serverName.bind (fun name => w.challenges[name]?)
    else w.current

structure ServerConfig where
  resolver : Resolver
  alpnProtocols : List Bytes

def configWithResolver (resolver : Resolver) (acmeTlsAlpn : Bool) : ServerConfig :=
  ⟨resolver,[[104,50],[104,116,116,112,47,49,46,49]]++
    (if acmeTlsAlpn then [acmeTlsAlpnName] else [])⟩

inductive CertSource where
  | staticFiles (certPath keyPath : String)
  | dynamic (resolver : Resolver)

section Config
variable (files : String → Except String Bytes) (crates : CertCrates) (tls : TlsCrates)

def CertSource.intoResolver : CertSource → Except TlsError Resolver
  | .staticFiles certPath keyPath => do
    let certified ← loadCertifiedKey files crates tls certPath keyPath
    return .static certified
  | .dynamic resolver => .ok resolver

def serverConfig (source : CertSource) : Except TlsError ServerConfig := do
  let resolver ← source.intoResolver files crates tls
  return configWithResolver resolver false

theorem serverConfig_static (certPath keyPath : String) (t : ServerConfig)
    (h : serverConfig files crates tls (.staticFiles certPath keyPath) = .ok t) :
    ∃ ck, FromFiles files crates tls certPath keyPath ck ∧
      t = configWithResolver (.static ck) false := by
  obtain ⟨resolver,hresolver,h⟩ := except_bind_eq_ok _ _ _ h
  obtain ⟨ck,hck,hresolver⟩ := except_bind_eq_ok _ _ _ hresolver
  cases h
  cases hresolver
  exact ⟨ck,loadCertifiedKey_ok files crates tls certPath keyPath ck hck,rfl⟩

end Config

/-! ## Renewals -/

variable (crates : Crates)

def Resolver.after (ticks : List Tick) : Resolver → Resolver
  | .static certified => .static certified
  | .acme cfg w => .acme cfg (run (loopStep crates cfg) w ticks)

def Installed (w : World) : Prop :=
  ∃ issued ck, w.current = some ck ∧ IssuedCert.intoCertifiedKey crates.toPem issued = .ok ck

theorem installed_issue (cfg : AcmeConfig) (a : Attempt) (w : World) (h : Installed crates w) :
    Installed crates (issue crates cfg a w).2 := by
  have hresult := (issue_result crates cfg a w).1
  obtain ⟨issued,ck,hcurrent,hck⟩ := h
  generalize issue crates cfg a w = r at hresult
  obtain ⟨result,w'⟩ := r
  cases hresult with
  | installed issued ck _ _ hck hcurrent _ _ => exact ⟨issued,ck,hcurrent,hck⟩
  | unchanged e hsame _ => exact ⟨issued,ck,hsame.trans hcurrent,hck⟩
  | torn e _ _ _ hsame _ _ _ => exact ⟨issued,ck,hsame.trans hcurrent,hck⟩

theorem installed_tick (cfg : AcmeConfig) (w : World) (e : Tick) (h : Installed crates w) :
    Installed crates (loopStep crates cfg w e) := by
  cases hdue : due crates cfg e.now w with
  | false => rwa [loopStep_not_due crates cfg w e hdue]
  | true =>
    rw [loopStep_due crates cfg w e hdue]
    exact installed_issue crates cfg e.attempt w h

theorem installed_start (cfg : AcmeConfig) (addr : SocketAddr) (now : ℕ) (a : Attempt)
    (w w' : World) (alpn : Bool) (h : setupAcme crates cfg addr now a w = (.ok alpn,w')) :
    Installed crates w' := by
  obtain ⟨spawn,⟨ck,husable,rfl⟩|⟨issued,hissue⟩⟩ :=
    setupAcme_ok_cases crates cfg addr now a w w' alpn h
  · obtain ⟨-,cert,-,hck⟩ := usableCert_eq_some crates cfg now _ ck husable
    exact ⟨cert,ck,rfl,hck⟩
  · have hresult := (issue_result crates cfg a (w.note spawn)).1
    rw [hissue] at hresult
    cases hresult with
    | installed issued ck _ _ hck hcurrent _ _ => exact ⟨issued,ck,hcurrent,hck⟩

theorem setupAcme_alpn (cfg : AcmeConfig) (addr : SocketAddr) (now : ℕ) (a : Attempt)
    (w w' : World) (alpn : Bool) (h : setupAcme crates cfg addr now a w = (.ok alpn,w')) :
    alpn = decide (cfg.challenge = .tlsAlpn01) := by
  rcases hnew : newManager cfg with e|_
  · rw [setupAcme, hnew] at h
    cases h
  · obtain ⟨spawn,hsetup,-⟩ := setupAcme_spec crates cfg addr now a w hnew
    rw [hsetup] at h
    have hok := congrArg Prod.fst h
    cases hprov : (provision crates cfg now a (w.note spawn)).1 with
    | error e =>
      rw [hprov] at hok
      cases hok
    | ok _ =>
      rw [hprov] at hok
      exact (Except.ok.inj hok).symm

theorem installed_run (cfg : AcmeConfig) (w : World) (ticks : List Tick)
    (h : Installed crates w) : Installed crates (run (loopStep crates cfg) w ticks) :=
  run_invariant (loopStep crates cfg) (Installed crates) (installed_tick crates cfg) w h ticks

theorem certified_fits (pem : Pem) (issued : IssuedCert) (ck : CertifiedKey)
    (h : issued.intoCertifiedKey pem = .ok ck) : pem.fromDer ck.cert ck.key = .ok () := by
  obtain ⟨certs,-,h⟩ := except_bind_eq_ok _ _ _ h
  dsimp only at h
  split at h
  · cases h
  · obtain ⟨key,-,h⟩ := except_bind_eq_ok _ _ _ h
    obtain ⟨_,hfits,h⟩ := except_bind_eq_ok _ _ _ h
    cases h
    exact (mapError_eq_ok_iff _ _ _).mp hfits

end ArchetypeProxy.Tls

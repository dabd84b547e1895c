import ArchetypeProxy.Attestation
import ArchetypeProxy.Configuration.Load
import ArchetypeProxy.Discovery.Convergence
import ArchetypeProxy.Tls

/-!
# The start of the server

`main` loads the configuration, asks the startup guard, builds provider and
verifier and prepares the listener. Every failure on the way ends the
process. What is to be told to the operator on the way is emitted as notices;
which of them are printed is up to the log filter.
-/

set_option autoImplicit false

namespace ArchetypeProxy.Boot
open ArchetypeProxy.Acme.Certificate ArchetypeProxy.Acme.Issue ArchetypeProxy.Acme.Renewal
open ArchetypeProxy.Attestation ArchetypeProxy.Configuration.Dump
open ArchetypeProxy.Configuration.Environment ArchetypeProxy.Configuration.Layers
open ArchetypeProxy.Configuration.Load ArchetypeProxy.Configuration.Tpm
open ArchetypeProxy.Configuration.Verifier ArchetypeProxy.CounterNonce
open ArchetypeProxy.Discovery.Convergence (RouteManager)
open ArchetypeProxy.Fallible ArchetypeProxy.Routes ArchetypeProxy.Runs ArchetypeProxy.Tls

structure Binary where
  release : Bool
  features : Features

inductive Level where
  | error | warn | info | debug | trace
  deriving DecidableEq, Repr

def Level.rank : Level → ℕ
  | .error => 1
  | .warn => 2
  | .info => 3
  | .debug => 4
  | .trace => 5

def admitted : LogLevel → ℕ
  | .off => 0
  | .error => 1
  | .warn => 2
  | .info => 3
  | .debug => 4
  | .trace => 5

abbrev EnvFilter := String → Level → Bool

/-- The tracing crate reads directives strictly or skips those it cannot read. -/
structure Tracing where
  tryParse : String → Option EnvFilter
  parseLossy : String → EnvFilter

def crateName : String := "archetype_proxy_server"

/-- What surrounds the process. Files are read by `sys` while the configuration
is loaded and by `files` afterwards; `cache` is the directory of the ACME
manager, `now` and `attempt` the time and the answers of its first order. The
`fallbacks` are the reasons for which the TEE crate falls back to a mock while
the provider is built. -/
structure Machine where
  tracing : Tracing
  std : Readers
  sys : System
  files : String → Except String Bytes
  tls : TlsCrates
  acme : Crates
  cache : CacheFile → Option String
  now : ℕ
  attempt : Attempt
  fallbacks : List String
  bind : Except String Unit

inductive Notice where
  | realAttestation (teeProvider : TeeProviderKind) (verifier : VerifierKind)
  | insecureMode (profile : String) (allowMock : Bool) (teeProvider : TeeProviderKind)
      (verifier : VerifierKind)
  | insecureRelease (profile : String)
  | unpinnedAk (verifier : VerifierKind)
  | mockFallback (reason : String)
  deriving DecidableEq, Repr

def Notice.level : Notice → Level
  | .realAttestation _ _ => .info
  | .insecureMode _ _ _ _ | .insecureRelease _ | .unpinnedAk _ | .mockFallback _ => .error

structure Log where
  emitted : List Notice := []
  printed : List Notice := []

def Log.emit (filter : EnvFilter) (notices : List Notice) (log : Log) : Log :=
  ⟨log.emitted++notices,
    log.printed++notices.filter (fun notice => filter crateName notice.level)⟩

inductive Exit where
  | config (e : ConfigError)
  | attestation (e : FatalError)
  | tlsSection (e : String)
  | certificate (e : TlsError)
  | acme (e : AcmeError)
  | bind (source : String)

inductive Provider where
  | docker (socket : String) (pollSecs : ℕ)
  | kubernetes («namespace» : Option String)
  deriving DecidableEq, Repr

def buildProviders (d : DiscoveryConfig) : List Provider :=
  (if d.docker.enabled then [.docker d.docker.socket (max d.docker.pollSecs 1)] else [])++
    (if d.kubernetes.enabled then [.kubernetes d.kubernetes.namespace] else [])

structure RateLimitLayer where
  maxRequests : ℕ
  windowSecs : ℕ
  deriving DecidableEq, Repr

def rateLimitLayer (rl : RateLimitConfig) : Option RateLimitLayer :=
  if 0 < rl.maxRequests then some ⟨rl.maxRequests,rl.windowSecs⟩ else none

/-- What serves once the listener is bound; without `tls` it is plaintext. -/
structure Server (P : Type) where
  teeProvider : TeeProvider
  verifier : QuoteVerifier P
  atbMaxSessions : ℕ
  atbTtlSecs : ℕ
  atbEvictionIntervalSecs : ℕ
  routes : RouteManager
  providers : List Provider
  maxBodyBytes : ℕ
  rateLimit : Option RateLimitLayer
  addr : SocketAddr
  tls : Option Tls.ServerConfig

inductive Outcome (P : Type) where
  | printed (text : String)
  | serving (server : Server P)

def warnInsecureMode (att : AttestationConfig) (release : Bool) : List Notice :=
  let profile := if release then "RELEASE" else "debug"
  .insecureMode profile att.allowMock att.teeProvider att.verifier::
    (if release then [.insecureRelease profile] else [])

def modeNotices (att : AttestationConfig) : AttestationMode → List Notice
  | .secure => [.realAttestation att.teeProvider att.verifier]
  | .insecure release => warnInsecureMode att release

def warnTpmUnpinnedAk (att : AttestationConfig) : List Notice :=
  if att.verifier == .tpm && att.tpm.any (·.allowUnpinnedAk) then [.unpinnedAk att.verifier]
  else []

section Start
variable {P : Type} (builder : PolicyCrate P) (bin : Binary) (m : Machine) (args : Args)
variable (env : Env)

def acmeConfig (cfg : AcmeConfig) (addr : SocketAddr) : Except Exit Tls.ServerConfig :=
  match setupAcme m.acme cfg addr m.now m.attempt (booted m.cache []) with
  | (.ok acmeTlsAlpn,w) => .ok (configWithResolver (.acme cfg w) acmeTlsAlpn)
  | (.error e,_) => .error (.acme e)

def tlsConfig (addr : SocketAddr) : TlsMode → Except Exit Tls.ServerConfig
  | .static certPath keyPath =>
    (serverConfig m.files m.sys.certs m.tls (.staticFiles certPath keyPath)).mapError .certificate
  | .acme acme => acmeConfig m acme.toAcmeConfig addr

/-- There is no way from a TLS section to a plaintext listener. -/
def listener (addr : SocketAddr) : Option TlsConfig → Except Exit (Option Tls.ServerConfig)
  | none => .ok none
  | some tls => do
    let mode ← (validateTls tls).mapError .tlsSection
    let config ← tlsConfig m addr mode
    return some config

def rustLog : String := "RUST_LOG"

/-- The variable overrides the options unless it cannot be read. -/
def logFilter : EnvFilter :=
  ((env rustLog).bind m.tracing.tryParse).getD (m.tracing.parseLossy args.logDirective)

def main : Comp Log Exit (Outcome P) := do
  let config ← ask ((load m.std m.sys args env).mapError .config)
  if args.dump then return .printed (dump m.std.debug config)
  else
    let att := config.static.attestation
    let mode ← ask ((startupAttestationDecision bin.release att (insecureDevEnvSet env)).mapError
      .attestation)
    update (Log.emit (logFilter m args env) (modeNotices att mode++warnTpmUnpinnedAk att))
    update (Log.emit (logFilter m args env) (m.fallbacks.map .mockFallback))
    let teeProvider ← ask ((buildTeeProvider bin.features att).mapError .attestation)
    let verifier ←
      ask ((buildVerifier bin.features m.files m.sys.certs builder att).mapError .attestation)
    let server := config.static.server
    let tls ← ask (listener m server.listen server.tls)
    ask (m.bind.mapError .bind)
    return .serving {
      teeProvider, verifier, tls
      atbMaxSessions := att.atbMaxSessions
      atbTtlSecs := att.atbTtlSecs
      atbEvictionIntervalSecs := att.atbEvictionIntervalSecs
      routes := RouteManager.new config.fileRoutes
      providers := buildProviders config.static.discovery
      maxBodyBytes := server.maxBodyBytes
      rateLimit := rateLimitLayer config.static.rateLimit
      addr := server.listen }

structure Started (server : Server P) (log : Log) (cfg : Config) (mode : AttestationMode) :
    Prop where
  loaded : load m.std m.sys args env = .ok cfg
  decision : startupAttestationDecision bin.release cfg.static.attestation
    (insecureDevEnvSet env) = .ok mode
  emitted : log.emitted = modeNotices cfg.static.attestation mode++
    warnTpmUnpinnedAk cfg.static.attestation++m.fallbacks.map .mockFallback
  printed : log.printed =
    log.emitted.filter (fun notice => logFilter m args env crateName notice.level)
  provider : buildTeeProvider bin.features cfg.static.attestation = .ok server.teeProvider
  verifier : buildVerifier bin.features m.files m.sys.certs builder cfg.static.attestation =
    .ok server.verifier
  tls : listener m cfg.static.server.listen cfg.static.server.tls = .ok server.tls

theorem main_serving (server : Server P) (log : Log)
    (h : main builder bin m args env {} = (.ok (.serving server),log)) :
    ∃ cfg mode, Started builder bin m args env server log cfg mode := by
  rw [main, ask_bind_eq_ok_iff] at h
  obtain ⟨cfg,hload,h⟩ := h
  by_cases hdump : args.dump
  · rw [if_pos hdump] at h
    cases h
  · rw [if_neg hdump] at h
    obtain ⟨mode,hmode,h⟩ := (ask_bind_eq_ok_iff _ _ _ _ _).mp h
    rw [update_bind, update_bind] at h
    obtain ⟨provider,hprovider,h⟩ := (ask_bind_eq_ok_iff _ _ _ _ _).mp h
    obtain ⟨verifier,hverifier,h⟩ := (ask_bind_eq_ok_iff _ _ _ _ _).mp h
    obtain ⟨tls,htls,h⟩ := (ask_bind_eq_ok_iff _ _ _ _ _).mp h
    obtain ⟨_,-,h⟩ := (ask_bind_eq_ok_iff _ _ _ _ _).mp h
    cases h
    exact ⟨cfg,mode,(mapError_eq_ok_iff _ _ _).mp hload,(mapError_eq_ok_iff _ _ _).mp hmode,
      by simp [Log.emit],by simp [Log.emit],(mapError_eq_ok_iff _ _ _).mp hprovider,
      (mapError_eq_ok_iff _ _ _).mp hverifier,htls⟩

/-! ## Attestation -/

end Start

def hardwareText : String :=
  "[server.tls.acme]\nenabled = true\ndomains = [\"a\"]\nchallenge = \"http-01\"\n"++
    "cache_dir = \"cache\"\n\n"++
    "[attestation]\nallow_mock = false\ntee_provider = \"tdx\"\nverifier = \"amd_snp\"\n"

def hardwareFile : FileConfig :=
  { server := { tls := some ⟨none,none,some { cachedConfig with enabled := true }⟩ }
    attestation :=
      { allowMock := some false, teeProvider := some .tdx, verifier := some .amdSnp } }

def hardwareToml (text : String) : Except String FileConfig :=
  if text = hardwareText then .ok hardwareFile else .error "expected a table"

def logLevels : List LogLevel := [.off,.error,.warn,.info,.debug,.trace]

def crateTracing : Tracing where
  tryParse _ := none
  parseLossy text module level := module = crateName &&
    (logLevels.find? (fun l => text = crateName++"="++l.asStr)).any
      (fun l => decide (level.rank ≤ admitted l))

def hardwareMachine : Machine where
  tracing := crateTracing
  std := ⟨fun _ => .error "invalid",fun _ => .error "invalid",fun _ => .error "invalid",id⟩
  sys := ⟨fun path => path = "./archetype-proxy.toml",fun _ => .error "not found",
    fun path => if path = "./archetype-proxy.toml" then .ok hardwareText else .error "not found",
    hardwareToml,derCrates⟩
  files _ := .error "not found"
  tls := ⟨fun _ => .ok none,fun _ => .ok (),fun _ _ => .unknown⟩
  acme := charCrates
  cache _ := none
  now := 0
  attempt := orderFor ⟨"A","A"⟩
  fallbacks := []
  bind := .ok ()

def hardwareBinary : Binary := ⟨true,{ tdx := true, amdSnp := true }⟩

theorem hardware_file_read :
    readFile hardwareMachine.sys (configPath none (fun _ => none)) =
      .ok (hardwareFile.layer none,[]) := by
  have hpath : configPath none (fun _ => none) = "./archetype-proxy.toml" := rfl
  have htext : hardwareMachine.sys.readToString "./archetype-proxy.toml" = .ok hardwareText := rfl
  have htoml : hardwareMachine.sys.fromToml = hardwareToml := rfl
  have hparsed : hardwareToml hardwareText = .ok hardwareFile := by rw [hardwareToml, if_pos rfl]
  rw [readFile, hpath, if_pos (by rfl), htext]
  simp only [Except.mapError, bind, Except.bind, htoml, hparsed]
  rfl

def hardwareConfig : Config := resolveLayers (hardwareFile.layer none,[]) {} ({} : Args).overrides

theorem hardware_loaded :
    load hardwareMachine.std hardwareMachine.sys {} (fun _ => none) = .ok hardwareConfig := by
  have hfile : readFile hardwareMachine.sys (configPath ({} : Args).path (fun _ => none)) = _ :=
    hardware_file_read
  rw [load, hfile]
  rfl

theorem hardware_starts :
    ∃ server log, main plainBuilder hardwareBinary hardwareMachine {} (fun _ => none) {} =
      (.ok (.serving server),log) ∧ log.emitted = [.realAttestation .tdx .amdSnp] := by
  rw [main, hardware_loaded]
  exact ⟨_,_,rfl,rfl⟩

section Listener
variable {P : Type} (builder : PolicyCrate P) (bin : Binary) (m : Machine) (args : Args)
variable (env : Env)

theorem tls_of_origin (file : PartialStatic) (v : Field.Value .tls) (source : Source)
    (h : Origin m.std args env file .tls v source) : v = file.tls := by
  cases h with
  | cli _ hcli => cases hcli
  | env _ _ henv => cases henv
  | file _ _ _ hfile =>
    obtain ⟨t,ht,rfl⟩ := Option.map_eq_some_iff.mp hfile
    exact ht.symm
  | default _ _ hfile => exact (Option.map_eq_none_iff.mp hfile).symm

theorem tls_of_loaded (cfg : Config) (file : PartialStatic × List Route)
    (h : Loaded m.std m.sys args env cfg file) : cfg.static.server.tls = file.1.tls := by
  obtain ⟨source,horigin,-⟩ := h.fields .tls
  exact tls_of_origin m args env file.1 _ source horigin

/-- The certificate comes from the two files, where only a known mismatch with the
key is refused, or from a pair of texts whose key belongs to the chain. -/
def Certified (ck : CertifiedKey) : TlsMode → Prop
  | .static certPath keyPath => FromFiles m.files m.sys.certs m.tls certPath keyPath ck
  | .acme _ => ck.cert ≠ [] ∧ m.acme.fromDer ck.cert ck.key = .ok ()

/-- Every ordinary handshake gets a certificate, after any renewals, and the
validation protocol is offered for its own challenge only. -/
structure Terminates (mode : TlsMode) (config : Tls.ServerConfig) : Prop where
  ordinary : ∀ (ticks : List Tick) (hello : ClientHello), hello.isAcmeAlpn = false →
    ∃ ck, (config.resolver.after m.acme ticks).resolve hello = some ck ∧ Certified m ck mode
  offered : acmeTlsAlpnName ∈ config.alpnProtocols ↔
    ∃ acme : TlsAcme, mode = .acme acme ∧ acme.challenge = .tlsAlpn01

theorem mem_alpn_iff (resolver : Resolver) (alpn : Bool) :
    acmeTlsAlpnName ∈ (configWithResolver resolver alpn).alpnProtocols ↔ alpn = true := by
  cases alpn <;> simp [configWithResolver, acmeTlsAlpnName]

theorem terminates_acme (acme : TlsAcme) (addr : SocketAddr) (config : Tls.ServerConfig)
    (h : acmeConfig m acme.toAcmeConfig addr = .ok config) :
    Terminates m (.acme acme) config := by
  rw [acmeConfig] at h
  split at h
  · rename_i alpn w hsetup
    cases h
    refine ⟨fun ticks hello hordinary => ?_,?_⟩
    · obtain ⟨issued,ck,hcurrent,hck⟩ := installed_run m.acme acme.toAcmeConfig w ticks
        (installed_start m.acme _ addr m.now m.attempt _ w alpn hsetup)
      refine ⟨ck,?_,(certified_chain _ issued ck hck).2,certified_fits _ issued ck hck⟩
      simp [configWithResolver, Resolver.after, Resolver.resolve, hordinary, hcurrent]
    · rw [mem_alpn_iff, setupAcme_alpn m.acme _ addr m.now m.attempt _ w alpn hsetup]
      simp
  · cases h

theorem terminates_static (certPath keyPath : String) (config : Tls.ServerConfig)
    (h : serverConfig m.files m.sys.certs m.tls (.staticFiles certPath keyPath) = .ok config) :
    Terminates m (.static certPath keyPath) config := by
  obtain ⟨ck,hck,rfl⟩ := serverConfig_static m.files m.sys.certs m.tls certPath keyPath config h
  refine ⟨fun ticks hello _ => ⟨ck,rfl,hck⟩,?_⟩
  rw [mem_alpn_iff]
  simp

/-- A server that listens is a plaintext one exactly when the file has no TLS
section. With one it has a certificate for every ordinary handshake from the
first on, whatever the renewals come to. -/
theorem listener_certified (server : Server P) (log : Log)
    (h : main builder bin m args env {} = (.ok (.serving server),log)) :
    ∃ file, readFile m.sys (configPath args.path env) = .ok file ∧
      (server.tls = none ↔ file.1.tls = none) ∧
      ∀ tls, file.1.tls = some tls → ∃ mode config, validateTls tls = .ok mode ∧
        server.tls = some config ∧ Terminates m mode config := by
  obtain ⟨cfg,mode,hstart⟩ := main_serving builder bin m args env server log h
  obtain ⟨file,hfile,-,hloaded⟩ := loaded_of_ok m.std m.sys args env cfg hstart.loaded
  have htls := hstart.tls
  rw [tls_of_loaded m args env cfg file hloaded] at htls
  refine ⟨file,hfile,?_⟩
  cases hsection : file.1.tls with
  | none =>
    rw [hsection] at htls
    have hserver : server.tls = none := (Except.ok.inj htls).symm
    simp [hserver]
  | some tls =>
    rw [hsection] at htls
    obtain ⟨mode,hmode,htls⟩ := except_bind_eq_ok _ _ _ htls
    obtain ⟨config,hconfig,htls⟩ := except_bind_eq_ok _ _ _ htls
    have hserver : server.tls = some config := (Except.ok.inj htls).symm
    refine ⟨by simp [hserver],fun t ht => ?_⟩
    cases ht
    refine ⟨mode,config,(mapError_eq_ok_iff _ _ _).mp hmode,hserver,?_⟩
    cases mode with
    | static certPath keyPath =>
      exact terminates_static m certPath keyPath config ((mapError_eq_ok_iff _ _ _).mp hconfig)
    | acme acme => exact terminates_acme m acme cfg.static.server.listen config hconfig

end Listener

theorem hardware_server_certified :
    ∃ server log config,
      main plainBuilder hardwareBinary hardwareMachine {} (fun _ => none) {} =
        (.ok (.serving server),log) ∧ server.tls = some config ∧
      ∀ ticks, (config.resolver.after charCrates ticks).resolve ⟨some "a",none⟩ ≠ none := by
  obtain ⟨server,log,h,-⟩ := hardware_starts
  obtain ⟨file,hfile,-,htls⟩ := listener_certified plainBuilder hardwareBinary hardwareMachine {}
    (fun _ => none) server log h
  cases hardware_file_read.symm.trans hfile
  obtain ⟨mode,config,-,hconfig,hterm⟩ := htls _ rfl
  refine ⟨server,log,config,h,hconfig,fun ticks => ?_⟩
  obtain ⟨ck,hck,-⟩ := hterm.ordinary ticks ⟨some "a",none⟩ rfl
  exact Option.ne_none_iff_exists'.mpr ⟨ck,hck⟩

end ArchetypeProxy.Boot

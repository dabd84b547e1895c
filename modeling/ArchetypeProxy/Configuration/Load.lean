import ArchetypeProxy.Configuration.Environment
import ArchetypeProxy.Configuration.Verifier

/-!
# Loading the configuration

The file, the environment and the command line are read in this order, merged
and validated. A file that does not exist is an empty one. Loading fails on
an unreadable file, on the first malformed variable and on an invalid policy,
and otherwise gives every field the value of the highest layer that sets it.
-/

set_option autoImplicit false

namespace ArchetypeProxy.Configuration.Load
open ArchetypeProxy.Acme.Issue ArchetypeProxy.Configuration.Dump
open ArchetypeProxy.Configuration.Environment ArchetypeProxy.Configuration.Layers
open ArchetypeProxy.Configuration.Tpm ArchetypeProxy.Configuration.Verifier
open ArchetypeProxy.CounterNonce ArchetypeProxy.Fallible ArchetypeProxy.Routes ArchetypeProxy.Text

structure FileServer where
  listen : Option SocketAddr := none
  maxBodyBytes : Option ℕ := none
  tls : Option TlsConfig := none

structure FileAttestation where
  allowMock : Option Bool := none
  strictAttestation : Option Bool := none
  atbTtlSecs : Option ℕ := none
  atbEvictionIntervalSecs : Option ℕ := none
  atbMaxSessions : Option ℕ := none
  teeProvider : Option TeeProviderKind := none
  verifier : Option VerifierKind := none
  verifierEndpoint : Option String := none
  verifierApiKey : Option String := none
  tpm : Option FileTpm := none

structure FileRateLimit where
  maxRequests : Option ℕ := none
  windowSecs : Option ℕ := none

structure FileDiscovery where
  docker : Option Bool := none
  dockerSocket : Option String := none
  dockerPollSecs : Option ℕ := none
  kubernetes : Option Bool := none
  kubernetesNamespace : Option String := none

structure FileUpstream where
  target : String

structure FileRoute where
  name : Option String := none
  host : String := ""
  pathPrefix : String := ""
  upstream : String
  strictAttestation : Option Bool := none

structure FileConfig where
  server : FileServer := {}
  attestation : FileAttestation := {}
  rateLimit : FileRateLimit := {}
  discovery : FileDiscovery := {}
  upstream : Option FileUpstream := none
  routes : List FileRoute := []

structure System where
  exist : String → Bool
  read : String → Except String Bytes
  readToString : String → Except String String
  fromToml : String → Except String FileConfig
  certs : CertCrates

def resolveTpm : Option FileTpm → Except ConfigError (Option TpmConfig)
  | some t => t.resolve.map some
  | none => .ok none

def FileConfig.layer (fc : FileConfig) (tpm : Option TpmConfig) : PartialStatic where
  listen := fc.server.listen
  maxBodyBytes := fc.server.maxBodyBytes
  tls := fc.server.tls
  allowMock := fc.attestation.allowMock
  strictAttestation := fc.attestation.strictAttestation
  atbTtlSecs := fc.attestation.atbTtlSecs
  atbEvictionIntervalSecs := fc.attestation.atbEvictionIntervalSecs
  atbMaxSessions := fc.attestation.atbMaxSessions
  teeProvider := fc.attestation.teeProvider
  verifier := fc.attestation.verifier
  verifierEndpoint := fc.attestation.verifierEndpoint
  verifierApiKey := fc.attestation.verifierApiKey
  tpm := tpm
  rateLimitMaxRequests := fc.rateLimit.maxRequests
  rateLimitWindowSecs := fc.rateLimit.windowSecs
  dockerEnabled := fc.discovery.docker
  dockerSocket := fc.discovery.dockerSocket
  dockerPollSecs := fc.discovery.dockerPollSecs
  kubernetesEnabled := fc.discovery.kubernetes
  kubernetesNamespace := namespaceLayer fc.discovery.kubernetesNamespace

def fileRoute (i : ℕ) (r : FileRoute) : Route where
  name := r.name.getD ("route-"++toString i)
  host := r.host
  pathPrefix := r.pathPrefix
  upstream := r.upstream
  strictAttestation := r.strictAttestation
  source := .file

def upstreamDefault (up : FileUpstream) : Route :=
  ⟨"upstream-default","","",up.target,none,.file⟩

def FileConfig.fileRoutes (fc : FileConfig) : List Route :=
  fc.routes.mapIdx fileRoute++(fc.upstream.map upstreamDefault).toList

inductive LogLevel where
  | off | error | warn | info | debug | trace
  deriving DecidableEq, Repr

def LogLevel.asStr : LogLevel → String
  | .off => "off"
  | .error => "error"
  | .warn => "warn"
  | .info => "info"
  | .debug => "debug"
  | .trace => "trace"

structure Args where
  configPath : Option String := none
  config : Option String := none
  listen : Option SocketAddr := none
  maxBodyBytes : Option ℕ := none
  docker : Bool := false
  kubernetes : Bool := false
  logLevel : Option LogLevel := none
  verbose : ℕ := 0
  dump : Bool := false

/-- The option `--config` is taken before the positional path. -/
def Args.path (args : Args) : Option String := args.config.or args.configPath

def Args.level (args : Args) : LogLevel :=
  match args.logLevel with
  | some level => level
  | none => match args.verbose with
    | 0 => .info
    | 1 => .debug
    | _ => .trace

def Args.logDirective (args : Args) : String := "archetype_proxy_server="++args.level.asStr

/-- The discovery flags only enable. -/
def Args.overrides (args : Args) : PartialStatic :=
  { listen := args.listen
    maxBodyBytes := args.maxBodyBytes
    dockerEnabled := if args.docker then some true else none
    kubernetesEnabled := if args.kubernetes then some true else none }

def configVar : String := "ARCHETYPE_PROXY_CONFIG"

def configPath (explicit : Option String) (env : Env) : String :=
  (explicit.or (env configVar)).getD "./archetype-proxy.toml"

section Loading
variable (std : Readers) (sys : System)

def readFile (path : String) : Except ConfigError (PartialStatic × List Route) :=
  if sys.exist path then do
    let raw ← (sys.readToString path).mapError (.read path)
    let fc ← (sys.fromToml raw).mapError (.parse path)
    let tpm ← resolveTpm fc.attestation.tpm
    return (fc.layer tpm,fc.fileRoutes)
  else .ok ({},[])

def load (args : Args) (env : Env) : Except ConfigError Config := do
  let file ← readFile sys (configPath args.path env)
  let envLayer ← readEnv std env
  let cfg := resolveLayers file envLayer args.overrides
  validate sys.read sys.certs cfg
  return cfg

variable (args : Args) (env : Env)

theorem load_eq_ok_iff (cfg : Config) :
    load std sys args env = .ok cfg ↔
      ∃ file layer, readFile sys (configPath args.path env) = .ok file ∧
        readEnv std env = .ok layer ∧ resolveLayers file layer args.overrides = cfg ∧
        validate sys.read sys.certs cfg = .ok () := by
  simp only [load, except_bind_eq_ok_iff, pure, Except.pure, Except.ok.injEq]
  constructor
  · rintro ⟨file,hfile,layer,hlayer,_,hval,rfl⟩
    exact ⟨file,layer,hfile,hlayer,rfl,hval⟩
  · rintro ⟨file,layer,hfile,hlayer,rfl,hval⟩
    exact ⟨file,hfile,layer,hlayer,(),hval,rfl⟩

theorem load_eq_error_iff (e : ConfigError) :
    load std sys args env = .error e ↔
      readFile sys (configPath args.path env) = .error e ∨
        ∃ file, readFile sys (configPath args.path env) = .ok file ∧
          (readEnv std env = .error e ∨
            ∃ layer, readEnv std env = .ok layer ∧
              validate sys.read sys.certs (resolveLayers file layer args.overrides) =
                .error e) := by
  simp only [load, except_bind_eq_error_iff, pure, Except.pure, reduceCtorEq, and_false,
    exists_false, or_false]

/-- Where a field gets its value: from the command line, else from its own
variables, else from the file, else from the default. -/
inductive Origin (file : PartialStatic) (f : Field) : f.Value → Source → Prop where
  | cli (v : f.Value) (hcli : f.layer args.overrides = some v) : Origin file f v .cli
  | env (v : f.Value) (hcli : f.layer args.overrides = none)
      (henv : Field.read std f env = .ok (some v)) : Origin file f v .env
  | file (v : f.Value) (hcli : f.layer args.overrides = none) (henv : Field.Unset env f)
      (hfile : f.layer file = some v) : Origin file f v .file
  | default (hcli : f.layer args.overrides = none) (henv : Field.Unset env f)
      (hfile : f.layer file = none) : Origin file f f.default .default

theorem origin_of_supplies (file layer : PartialStatic) (hlayer : readEnv std env = .ok layer)
    (f : Field) (v : f.Value) (source : Source)
    (h : Supplies f.default (f.layer file) (f.layer layer) (f.layer args.overrides) v source) :
    Origin std args env file f v source := by
  have hread := readEnv_layer std env layer hlayer f
  generalize hfile : f.layer file = said at h
  generalize hcli : f.layer args.overrides = flag at h
  generalize f.layer layer = written at h hread
  cases h with
  | cli => exact .cli v hcli
  | env => exact .env v hcli hread
  | file => exact .file v hcli ((read_none_iff std env f).mp hread) hfile
  | default => exact .default hcli ((read_none_iff std env f).mp hread) hfile

structure Loaded (cfg : Config) (file : PartialStatic × List Route) : Prop where
  routes : cfg.fileRoutes = file.2
  fields : ∀ f : Field, ∃ source, Origin std args env file.1 f (f.get cfg.static) source ∧
    cfg.provenance[f.key]? = some source
  valid : validate sys.read sys.certs cfg = .ok ()

/-- How loading ends: with the error of the file, else with the error of the
first malformed variable, which it names, else with the error of the policy,
else with a configuration. -/
inductive LoadOutcome : Except ConfigError Config → Prop where
  | file (e : ConfigError) (hfile : readFile sys (configPath args.path env) = .error e) :
      LoadOutcome (.error e)
  | malformed (file : PartialStatic × List Route) (f : Field) (e : ConfigError) (name : String)
      (hfile : readFile sys (configPath args.path env) = .ok file)
      (hfault : FirstFault std env f e) (hname : name ∈ Field.vars f)
      (hblame : Blames env e name) : LoadOutcome (.error e)
  | policy (file : PartialStatic × List Route) (layer : PartialStatic) (e : ConfigError)
      (hfile : readFile sys (configPath args.path env) = .ok file)
      (hlayer : readEnv std env = .ok layer)
      (hpolicy : validate sys.read sys.certs (resolveLayers file layer args.overrides) = .error e) :
      LoadOutcome (.error e)
  | loaded (file : PartialStatic × List Route) (cfg : Config)
      (hfile : readFile sys (configPath args.path env) = .ok file)
      (hwell : ∀ f, Field.check std env f = .ok ())
      (hloaded : Loaded std sys args env cfg file) : LoadOutcome (.ok cfg)

theorem loaded_of_ok (cfg : Config) (h : load std sys args env = .ok cfg) :
    ∃ file, readFile sys (configPath args.path env) = .ok file ∧
      (∀ f, Field.check std env f = .ok ()) ∧ Loaded std sys args env cfg file := by
  obtain ⟨file,layer,hfile,hlayer,rfl,hval⟩ := (load_eq_ok_iff std sys args env cfg).mp h
  refine ⟨file,hfile,(readEnv_ok_iff std env).mp ⟨layer,hlayer⟩,rfl,fun f => ?_,hval⟩
  refine ⟨f.source file.1 layer args.overrides,?_,provenance_field file.1 layer args.overrides f⟩
  apply origin_of_supplies std args env file.1 layer hlayer
  rw [resolveLayers, resolveStatic_value]
  exact supplies_chosen f.default _ _ _

/-- Loading ends in one of the four ways, a malformed variable is never hidden
by a flag or by another layer, and no other variable matters. -/
theorem load_outcome :
    LoadOutcome std sys args env (load std sys args env) ∧
    (∀ f e, Field.read std f env = .error e → ∀ cfg, load std sys args env ≠ .ok cfg) ∧
    ∀ env' : Env, env configVar = env' configVar →
      (∀ f, ∀ name ∈ Field.vars f, env name = env' name) →
      load std sys args env = load std sys args env' := by
  refine ⟨?_,?_,?_⟩
  · cases hload : load std sys args env with
    | ok cfg =>
      obtain ⟨file,hfile,hwell,hloaded⟩ := loaded_of_ok std sys args env cfg hload
      exact .loaded file cfg hfile hwell hloaded
    | error e =>
      rcases (load_eq_error_iff std sys args env e).mp hload with hfile|⟨file,hfile,henv|hpolicy⟩
      · exact .file e hfile
      · obtain ⟨f,hfault⟩ := (readEnv_error_iff std env e).mp henv
        obtain ⟨name,hname,hblame⟩ := read_error std env f e
          (FirstFault.read std env f e hfault)
        exact .malformed file f e name hfile hfault hname hblame
      · obtain ⟨layer,hlayer,hpolicy⟩ := hpolicy
        exact .policy file layer e hfile hlayer hpolicy
  · intro f e hread cfg hload
    obtain ⟨-,-,hwell,-⟩ := loaded_of_ok std sys args env cfg hload
    have hcheck := hwell f
    rw [Field.check, hread] at hcheck
    cases hcheck
  · intro env' hpath hvars
    rw [load, load, configPath, configPath, hpath, readEnv_congr std env env' hvars]

end Loading

end ArchetypeProxy.Configuration.Load

import ArchetypeProxy.Acme.Issue
import ArchetypeProxy.Configuration.Tpm

/-!
# Layered resolution of the static configuration

The file, the environment and the command line each give a partial set of
values. A static field takes the value of the highest layer that is not
silent on it, and the provenance map records under the name of the field
which layer that was.
-/

set_option autoImplicit false

namespace ArchetypeProxy.Configuration.Layers
open ArchetypeProxy.Acme.Issue ArchetypeProxy.Configuration.Tpm ArchetypeProxy.Routes
open ArchetypeProxy.Text ArchetypeProxy.Upserts

inductive TeeProviderKind where
  | mock | tdx | sevSnp | sgx | trustZone | awsNitro | tpm
  deriving DecidableEq, Repr

def TeeProviderKind.asStr : TeeProviderKind → String
  | .mock => "mock"
  | .tdx => "tdx"
  | .sevSnp => "sev_snp"
  | .sgx => "sgx"
  | .trustZone => "trustzone"
  | .awsNitro => "aws_nitro"
  | .tpm => "tpm"

inductive VerifierKind where
  | mock | maa | ita | amdSnp | tpm | nvidia | dcap
  deriving DecidableEq, Repr

def VerifierKind.asStr : VerifierKind → String
  | .mock => "mock"
  | .maa => "maa"
  | .ita => "ita"
  | .amdSnp => "amd_snp"
  | .tpm => "tpm"
  | .nvidia => "nvidia"
  | .dcap => "dcap"

structure TlsAcme extends AcmeConfig where
  enabled : Bool
  deriving DecidableEq, Repr

structure TlsConfig where
  certPath : Option String
  keyPath : Option String
  acme : Option TlsAcme
  deriving DecidableEq, Repr

structure ServerConfig where
  listen : SocketAddr
  maxBodyBytes : ℕ
  tls : Option TlsConfig

structure AttestationConfig where
  allowMock : Bool
  strictAttestation : Bool
  atbTtlSecs : ℕ
  atbEvictionIntervalSecs : ℕ
  atbMaxSessions : ℕ
  teeProvider : TeeProviderKind
  verifier : VerifierKind
  verifierEndpoint : Option String
  verifierApiKey : Option String
  tpm : Option TpmConfig

structure RateLimitConfig where
  maxRequests : ℕ
  windowSecs : ℕ

structure DockerDiscoveryConfig where
  enabled : Bool
  socket : String
  pollSecs : ℕ

structure KubernetesDiscoveryConfig where
  enabled : Bool
  «namespace» : Option String

structure DiscoveryConfig where
  docker : DockerDiscoveryConfig
  kubernetes : KubernetesDiscoveryConfig

structure StaticConfig where
  server : ServerConfig
  attestation : AttestationConfig
  discovery : DiscoveryConfig
  rateLimit : RateLimitConfig

abbrev Provenance := Std.ExtTreeMap String Source

structure Config where
  static : StaticConfig
  fileRoutes : List Route
  provenance : Provenance

/-- The values of one layer; a layer is silent on a field that is absent. An
inner `none` of the namespace clears it. -/
structure PartialStatic where
  listen : Option SocketAddr := none
  maxBodyBytes : Option ℕ := none
  tls : Option TlsConfig := none
  allowMock : Option Bool := none
  strictAttestation : Option Bool := none
  atbTtlSecs : Option ℕ := none
  atbEvictionIntervalSecs : Option ℕ := none
  atbMaxSessions : Option ℕ := none
  teeProvider : Option TeeProviderKind := none
  verifier : Option VerifierKind := none
  verifierEndpoint : Option String := none
  verifierApiKey : Option String := none
  tpm : Option TpmConfig := none
  rateLimitMaxRequests : Option ℕ := none
  rateLimitWindowSecs : Option ℕ := none
  dockerEnabled : Option Bool := none
  dockerSocket : Option String := none
  dockerPollSecs : Option ℕ := none
  kubernetesEnabled : Option Bool := none
  kubernetesNamespace : Option (Option String) := none

/-- An empty text clears the namespace. -/
def namespaceLayer (v : Option String) : Option (Option String) :=
  v.map (fun s => if isEmpty s then none else some s)

section Resolve
variable {α : Type}

def resolveStep (field : String) (acc : α × Provenance) (layer : Source × Option α) :
    α × Provenance :=
  match layer.2 with
  | some v => (v,acc.2.insert field layer.1)
  | none => acc

def resolve (field : String) (default : α) (layers : List (Source × Option α)) :
    StateM Provenance α :=
  fun prov => layers.foldl (resolveStep field) (default,prov.insert field .default)

end Resolve

def defaultListen : SocketAddr := ⟨"127.0.0.1",8443⟩
def defaultMaxBodyBytes : ℕ := 4*1024*1024
def defaultDockerSocket : String := "unix:///var/run/docker.sock"
def defaultDockerPollSecs : ℕ := 10
def defaultAtbTtlSecs : ℕ := 300
def defaultAtbEvictionIntervalSecs : ℕ := 60
def defaultAtbMaxSessions : ℕ := 10000
def defaultTeeProvider : TeeProviderKind := .mock
def defaultVerifier : VerifierKind := .mock
def defaultRateLimitMaxRequests : ℕ := 0
def defaultRateLimitWindowSecs : ℕ := 60

section Layers
variable (file env cli : PartialStatic)

def field {α : Type} (name : String) (default : α) (accessor : PartialStatic → Option α) :
    StateM Provenance α :=
  resolve name default [(.file,accessor file),(.env,accessor env),(.cli,accessor cli)]

def resolveStatic : StateM Provenance StaticConfig := do
  let listen ← field file env cli "server.listen" defaultListen (·.listen)
  let maxBodyBytes ←
    field file env cli "server.max_body_bytes" defaultMaxBodyBytes (·.maxBodyBytes)
  let allowMock ← field file env cli "attestation.allow_mock" true (·.allowMock)
  let strictAttestation ←
    field file env cli "attestation.strict_attestation" false (·.strictAttestation)
  let atbTtlSecs ←
    field file env cli "attestation.atb_ttl_secs" defaultAtbTtlSecs (·.atbTtlSecs)
  let atbEvictionIntervalSecs ← field file env cli "attestation.atb_eviction_interval_secs"
    defaultAtbEvictionIntervalSecs (·.atbEvictionIntervalSecs)
  let atbMaxSessions ←
    field file env cli "attestation.atb_max_sessions" defaultAtbMaxSessions (·.atbMaxSessions)
  let teeProvider ←
    field file env cli "attestation.tee_provider" defaultTeeProvider (·.teeProvider)
  let verifier ← field file env cli "attestation.verifier" defaultVerifier (·.verifier)
  -- optional fields have no value as their default
  let verifierEndpoint ←
    field file env cli "attestation.verifier_endpoint" none (·.verifierEndpoint.map some)
  let verifierApiKey ←
    field file env cli "attestation.verifier_api_key" none (·.verifierApiKey.map some)
  let tpm ← field file env cli "attestation.tpm" none (·.tpm.map some)
  let tls ← field file env cli "server.tls" none (·.tls.map some)
  let rateLimitMaxRequests ← field file env cli "rate_limit.max_requests"
    defaultRateLimitMaxRequests (·.rateLimitMaxRequests)
  let rateLimitWindowSecs ← field file env cli "rate_limit.window_secs"
    defaultRateLimitWindowSecs (·.rateLimitWindowSecs)
  let dockerEnabled ← field file env cli "discovery.docker" false (·.dockerEnabled)
  let dockerSocket ←
    field file env cli "discovery.docker.socket" defaultDockerSocket (·.dockerSocket)
  let dockerPollSecs ←
    field file env cli "discovery.docker.poll_secs" defaultDockerPollSecs (·.dockerPollSecs)
  let kubernetesEnabled ← field file env cli "discovery.kubernetes" false (·.kubernetesEnabled)
  let kubernetesNamespace ←
    field file env cli "discovery.kubernetes.namespace" none (·.kubernetesNamespace)
  return {
    server := ⟨listen,maxBodyBytes,tls⟩
    attestation := ⟨allowMock,strictAttestation,atbTtlSecs,atbEvictionIntervalSecs,
      atbMaxSessions,teeProvider,verifier,verifierEndpoint,verifierApiKey,tpm⟩
    rateLimit := ⟨rateLimitMaxRequests,rateLimitWindowSecs⟩
    discovery := ⟨⟨dockerEnabled,dockerSocket,dockerPollSecs⟩,
      ⟨kubernetesEnabled,kubernetesNamespace⟩⟩ }

end Layers

def resolveLayers (file : PartialStatic × List Route) (env cli : PartialStatic) : Config :=
  let resolved := resolveStatic file.1 env cli ∅
  ⟨resolved.1,file.2,resolved.2⟩

inductive Field where
  | listen | maxBodyBytes | allowMock | strictAttestation | atbTtlSecs
  | atbEvictionIntervalSecs | atbMaxSessions | teeProvider | verifier | verifierEndpoint
  | verifierApiKey | tpm | tls | rateLimitMaxRequests | rateLimitWindowSecs | dockerEnabled
  | dockerSocket | dockerPollSecs | kubernetesEnabled | kubernetesNamespace
  deriving DecidableEq, Repr

def Field.all : List Field :=
  [.listen,.maxBodyBytes,.allowMock,.strictAttestation,.atbTtlSecs,.atbEvictionIntervalSecs,
    .atbMaxSessions,.teeProvider,.verifier,.verifierEndpoint,.verifierApiKey,.tpm,.tls,
    .rateLimitMaxRequests,.rateLimitWindowSecs,.dockerEnabled,.dockerSocket,.dockerPollSecs,
    .kubernetesEnabled,.kubernetesNamespace]

theorem Field.mem_all (f : Field) : f ∈ all := by
  cases f <;> decide

def Field.key : Field → String
  | .listen => "server.listen"
  | .maxBodyBytes => "server.max_body_bytes"
  | .allowMock => "attestation.allow_mock"
  | .strictAttestation => "attestation.strict_attestation"
  | .atbTtlSecs => "attestation.atb_ttl_secs"
  | .atbEvictionIntervalSecs => "attestation.atb_eviction_interval_secs"
  | .atbMaxSessions => "attestation.atb_max_sessions"
  | .teeProvider => "attestation.tee_provider"
  | .verifier => "attestation.verifier"
  | .verifierEndpoint => "attestation.verifier_endpoint"
  | .verifierApiKey => "attestation.verifier_api_key"
  | .tpm => "attestation.tpm"
  | .tls => "server.tls"
  | .rateLimitMaxRequests => "rate_limit.max_requests"
  | .rateLimitWindowSecs => "rate_limit.window_secs"
  | .dockerEnabled => "discovery.docker"
  | .dockerSocket => "discovery.docker.socket"
  | .dockerPollSecs => "discovery.docker.poll_secs"
  | .kubernetesEnabled => "discovery.kubernetes"
  | .kubernetesNamespace => "discovery.kubernetes.namespace"

theorem Field.keys_nodup : (all.map key).Nodup := by
  decide

def Field.Value : Field → Type
  | .listen => SocketAddr
  | .allowMock | .strictAttestation | .dockerEnabled | .kubernetesEnabled => Bool
  | .teeProvider => TeeProviderKind
  | .verifier => VerifierKind
  | .verifierEndpoint | .verifierApiKey | .kubernetesNamespace => Option String
  | .tpm => Option TpmConfig
  | .tls => Option TlsConfig
  | .dockerSocket => String
  | .maxBodyBytes | .atbTtlSecs | .atbEvictionIntervalSecs | .atbMaxSessions
  | .rateLimitMaxRequests | .rateLimitWindowSecs | .dockerPollSecs => ℕ

def Field.default : (f : Field) → f.Value
  | .listen => (⟨"127.0.0.1",8443⟩ : SocketAddr)
  | .maxBodyBytes => (4194304 : ℕ)
  | .allowMock => true
  | .strictAttestation => false
  | .atbTtlSecs => (300 : ℕ)
  | .atbEvictionIntervalSecs => (60 : ℕ)
  | .atbMaxSessions => (10000 : ℕ)
  | .teeProvider => TeeProviderKind.mock
  | .verifier => VerifierKind.mock
  | .verifierEndpoint => (none : Option String)
  | .verifierApiKey => (none : Option String)
  | .tpm => (none : Option TpmConfig)
  | .tls => (none : Option TlsConfig)
  | .rateLimitMaxRequests => (0 : ℕ)
  | .rateLimitWindowSecs => (60 : ℕ)
  | .dockerEnabled => false
  | .dockerSocket => "unix:///var/run/docker.sock"
  | .dockerPollSecs => (10 : ℕ)
  | .kubernetesEnabled => false
  | .kubernetesNamespace => (none : Option String)

def Field.layer : (f : Field) → PartialStatic → Option f.Value
  | .listen => PartialStatic.listen
  | .maxBodyBytes => PartialStatic.maxBodyBytes
  | .allowMock => PartialStatic.allowMock
  | .strictAttestation => PartialStatic.strictAttestation
  | .atbTtlSecs => PartialStatic.atbTtlSecs
  | .atbEvictionIntervalSecs => PartialStatic.atbEvictionIntervalSecs
  | .atbMaxSessions => PartialStatic.atbMaxSessions
  | .teeProvider => PartialStatic.teeProvider
  | .verifier => PartialStatic.verifier
  | .verifierEndpoint => fun p => p.verifierEndpoint.map some
  | .verifierApiKey => fun p => p.verifierApiKey.map some
  | .tpm => fun p => p.tpm.map some
  | .tls => fun p => p.tls.map some
  | .rateLimitMaxRequests => PartialStatic.rateLimitMaxRequests
  | .rateLimitWindowSecs => PartialStatic.rateLimitWindowSecs
  | .dockerEnabled => PartialStatic.dockerEnabled
  | .dockerSocket => PartialStatic.dockerSocket
  | .dockerPollSecs => PartialStatic.dockerPollSecs
  | .kubernetesEnabled => PartialStatic.kubernetesEnabled
  | .kubernetesNamespace => PartialStatic.kubernetesNamespace

def Field.get : (f : Field) → StaticConfig → f.Value
  | .listen => fun s => s.server.listen
  | .maxBodyBytes => fun s => s.server.maxBodyBytes
  | .allowMock => fun s => s.attestation.allowMock
  | .strictAttestation => fun s => s.attestation.strictAttestation
  | .atbTtlSecs => fun s => s.attestation.atbTtlSecs
  | .atbEvictionIntervalSecs => fun s => s.attestation.atbEvictionIntervalSecs
  | .atbMaxSessions => fun s => s.attestation.atbMaxSessions
  | .teeProvider => fun s => s.attestation.teeProvider
  | .verifier => fun s => s.attestation.verifier
  | .verifierEndpoint => fun s => s.attestation.verifierEndpoint
  | .verifierApiKey => fun s => s.attestation.verifierApiKey
  | .tpm => fun s => s.attestation.tpm
  | .tls => fun s => s.server.tls
  | .rateLimitMaxRequests => fun s => s.rateLimit.maxRequests
  | .rateLimitWindowSecs => fun s => s.rateLimit.windowSecs
  | .dockerEnabled => fun s => s.discovery.docker.enabled
  | .dockerSocket => fun s => s.discovery.docker.socket
  | .dockerPollSecs => fun s => s.discovery.docker.pollSecs
  | .kubernetesEnabled => fun s => s.discovery.kubernetes.enabled
  | .kubernetesNamespace => fun s => s.discovery.kubernetes.namespace

/-- The layer that supplies a value: the highest that is not silent, and the
default when all are. -/
inductive Supplies {α : Type} (default : α) :
    Option α → Option α → Option α → α → Source → Prop where
  | cli (file env : Option α) (v : α) : Supplies default file env (some v) v .cli
  | env (file : Option α) (v : α) : Supplies default file (some v) none v .env
  | file (v : α) : Supplies default (some v) none none v .file
  | default : Supplies default none none none default .default

section Chosen
variable {α : Type}

def chosen (default : α) (file env cli : Option α) : α := cli.getD (env.getD (file.getD default))

def chosenSource (file env cli : Option α) : Source :=
  if cli.isSome then .cli else if env.isSome then .env else if file.isSome then .file
  else .default

theorem supplies_chosen (default : α) (file env cli : Option α) :
    Supplies default file env cli (chosen default file env cli) (chosenSource file env cli) := by
  rcases cli with _|v
  · rcases env with _|v
    · rcases file with _|v
      · exact .default
      · exact .file v
    · exact .env file v
  · exact .cli file env v

end Chosen

theorem insert_insert (prov : Provenance) (name : String) (s s' : Source) :
    (prov.insert name s).insert name s' = prov.insert name s' := by
  refine Std.ExtTreeMap.ext_getElem? fun k => ?_
  simp only [getElem?_insert_key]
  by_cases h : name = k
  · simp [h]
  · simp [h]

theorem field_eq {α : Type} (file env cli : PartialStatic) (name : String) (default : α)
    (accessor : PartialStatic → Option α) :
    field file env cli name default accessor = fun prov =>
      (chosen default (accessor file) (accessor env) (accessor cli),
        prov.insert name (chosenSource (accessor file) (accessor env) (accessor cli))) := by
  funext prov
  unfold field
  cases accessor file <;> cases accessor env <;> cases accessor cli <;>
    simp [resolve, resolveStep, chosen, chosenSource, insert_insert]

section Resolved
variable (file env cli : PartialStatic)

def Field.source (f : Field) : Source := chosenSource (f.layer file) (f.layer env) (f.layer cli)

theorem resolveStatic_value (prov : Provenance) (f : Field) :
    f.get (resolveStatic file env cli prov).1 =
      chosen f.default (f.layer file) (f.layer env) (f.layer cli) := by
  simp only [resolveStatic, field_eq]
  cases f <;> rfl

theorem resolveStatic_provenance (prov : Provenance) :
    (resolveStatic file env cli prov).2 =
      insertAll prov (Field.all.map (fun f => (f.key,f.source file env cli))) := by
  simp only [resolveStatic, field_eq]
  rfl

theorem field_keys_differ (f g : Field) (h : f.key = g.key) : f = g :=
  List.inj_on_of_nodup_map Field.keys_nodup f.mem_all g.mem_all h

theorem provenance_field (f : Field) :
    (resolveStatic file env cli ∅).2[f.key]? = some (f.source file env cli) := by
  rw [resolveStatic_provenance]
  refine (insertAll_keeps_iff _).mpr ?_ (f.key,f.source file env cli) ?_
  · intro e he e' he' hkey
    obtain ⟨g,-,rfl⟩ := List.mem_map.mp he
    obtain ⟨g',-,rfl⟩ := List.mem_map.mp he'
    rw [field_keys_differ g g' hkey]
  · exact List.mem_map.mpr ⟨f,f.mem_all,rfl⟩

theorem provenance_other (name : String) (h : ∀ f : Field, f.key ≠ name) :
    (resolveStatic file env cli ∅).2[name]? = none := by
  have hnone : lastOf (Field.all.map (fun f => (f.key,f.source file env cli))) name = none := by
    rw [lastOf_eq_none_iff]
    intro e he
    obtain ⟨f,-,rfl⟩ := List.mem_map.mp he
    exact h f
  rw [resolveStatic_provenance, getElem?_insertAll, hnone]
  rfl

end Resolved

def AgreeExcept (f : Field) (p p' : PartialStatic) : Prop := ∀ g, g ≠ f → g.layer p = g.layer p'

/-- Every field has the value of the highest layer that is not silent on it and
is recorded with that layer. Other values of one field leave every other field
and its record as they are. -/
theorem highest_layer_supplies_field (file : PartialStatic × List Route) (env cli : PartialStatic)
    (f : Field) :
    (∃ source, Supplies f.default (f.layer file.1) (f.layer env) (f.layer cli)
        (f.get (resolveLayers file env cli).static) source ∧
      (resolveLayers file env cli).provenance[f.key]? = some source) ∧
    ∀ (file' : PartialStatic × List Route) (env' cli' : PartialStatic),
      AgreeExcept f file.1 file'.1 → AgreeExcept f env env' → AgreeExcept f cli cli' →
      ∀ g, g ≠ f →
        g.get (resolveLayers file env cli).static = g.get (resolveLayers file' env' cli').static ∧
        (resolveLayers file env cli).provenance[g.key]? =
          (resolveLayers file' env' cli').provenance[g.key]? := by
  constructor
  · refine ⟨f.source file.1 env cli,?_,provenance_field file.1 env cli f⟩
    rw [resolveLayers, resolveStatic_value]
    exact supplies_chosen f.default _ _ _
  · intro file' env' cli' hfile henv hcli g hg
    simp only [resolveLayers, resolveStatic_value, provenance_field, Field.source]
    rw [hfile g hg, henv g hg, hcli g hg]
    exact ⟨rfl,rfl⟩

def namedFile : PartialStatic :=
  { maxBodyBytes := some 1024, kubernetesNamespace := namespaceLayer (some "prod") }

def clearing : PartialStatic := { kubernetesNamespace := namespaceLayer (some "") }

theorem namespace_cleared :
    (resolveLayers (namedFile,[]) {} clearing).static.discovery.kubernetes.namespace = none ∧
      (resolveLayers (namedFile,[]) {} clearing).provenance["discovery.kubernetes.namespace"]? =
        some .cli ∧
      (resolveLayers (namedFile,[]) {} clearing).static.server.maxBodyBytes =
        (resolveLayers (namedFile,[]) {} {}).static.server.maxBodyBytes := by
  have h := highest_layer_supplies_field (namedFile,[]) {} clearing .kubernetesNamespace
  obtain ⟨⟨source,hsup,hprov⟩,hrest⟩ := h
  refine ⟨rfl,?_,?_⟩
  · generalize hget : Field.get .kubernetesNamespace _ = v at hsup
    cases hsup
    exact hprov
  · have hcli : AgreeExcept .kubernetesNamespace clearing {} := by
      intro g hg
      cases g <;> first | rfl | exact absurd rfl hg
    exact (hrest (namedFile,[]) {} {} (fun _ _ => rfl) (fun _ _ => rfl) hcli .maxBodyBytes
      (by decide)).1

/-! The TPM policy is one field: the environment gives it whole or not at all. -/

def emptyPolicy : TpmConfig := ⟨∅,none,none,[],false⟩

/-- A part of the policy is what its variable says, and the part of the other
policy where the variable has no value. -/
def Part {α : Type} (raw : Option String) (reader : Option String → Except ConfigError α)
    (other resolved : α) : Prop :=
  match raw with
  | some text => reader (some text) = .ok resolved
  | none => resolved = other

theorem part_of_read {α : Type} (raw : Option String)
    (reader : Option String → Except ConfigError α) (other resolved : α)
    (hnone : reader none = .ok other) (h : reader raw = .ok resolved) :
    Part raw reader other resolved := by
  cases raw with
  | some text => exact h
  | none => exact Except.ok.inj (h.symm.trans hnone)

structure FieldWise (vars : Env) (other resolved : TpmConfig) : Prop where
  pcrs : Part (var vars pcrsVar) envPcrs other.expectedPcrs resolved.expectedPcrs
  ak : Part (var vars akVar) (optionalHex akVar) other.pinnedAkSec1 resolved.pinnedAkSec1
  selection : Part (var vars selectionVar) envSelection other.pcrSelection resolved.pcrSelection
  roots : Part (var vars rootsVar) (fun raw => .ok (envRoots raw)) other.trustedEkRootPaths
    resolved.trustedEkRootPaths
  allow : Part (var vars allowVar) envAllow other.allowUnpinnedAk resolved.allowUnpinnedAk

theorem fieldWise_of_read (vars : Env) (resolved : TpmConfig)
    (h : readTpmEnv vars = .ok (some resolved)) : FieldWise vars emptyPolicy resolved := by
  obtain ⟨-,hpcrs,hak,hsel,hroots,hallow⟩ := (readTpmEnv_eq_some_iff vars resolved).mp h
  exact ⟨part_of_read _ _ _ _ rfl hpcrs,part_of_read _ _ _ _ rfl hak,
    part_of_read _ _ _ _ rfl hsel,part_of_read _ _ _ _ rfl (congrArg Except.ok hroots),
    part_of_read _ _ _ _ rfl hallow⟩

theorem resolved_tpm (file : PartialStatic × List Route) (env cli : PartialStatic) :
    (resolveLayers file env cli).static.attestation.tpm =
      (cli.tpm.or env.tpm).or file.1.tpm := by
  have hget (s : StaticConfig) : s.attestation.tpm = Field.get .tpm s := rfl
  rw [hget, resolveLayers, resolveStatic_value]
  simp only [chosen, Field.layer, Field.default]
  cases cli.tpm <;> cases env.tpm <;> cases file.1.tpm <;> rfl

/-- The policy of the file stands while no variable has a value. One variable
with a value replaces all of it: the parts of the other variables are empty. -/
theorem policy_replaced_whole (file : PartialStatic × List Route) (env cli : PartialStatic)
    (vars : Env) (t : FileTpm) (p : TpmConfig) (hfile : t.resolve = .ok p)
    (hlayer : file.1.tpm = some p) (henv : readTpmEnv vars = .ok env.tpm)
    (hcli : cli.tpm = none) :
    ∃ r, (resolveLayers file env cli).static.attestation.tpm = some r ∧
      (Silent vars → t.resolve = .ok r) ∧ (¬ Silent vars → FieldWise vars emptyPolicy r) := by
  rw [resolved_tpm, hcli, hlayer, Option.none_or]
  cases htpm : env.tpm with
  | none =>
    rw [htpm] at henv
    exact ⟨p,rfl,fun _ => hfile,fun hset => absurd ((readTpmEnv_eq_none_iff vars).mp henv) hset⟩
  | some r =>
    rw [htpm] at henv
    refine ⟨r,rfl,fun hsilent => ?_,fun _ => fieldWise_of_read vars r henv⟩
    rw [(readTpmEnv_eq_none_iff vars).mpr hsilent] at henv
    cases henv

def pinnedSection : FileTpm := ⟨insertAll ∅ [("0","aa")],some "04",none,[],false⟩

def pinnedPolicy : TpmConfig := ⟨insertAll ∅ [(0,[0xaa])],some [4],none,[],false⟩

theorem register_replaces_policy :
    ∃ r, (resolveLayers (({ tpm := some pinnedPolicy } : PartialStatic),[])
        { tpm := some (pcrsOnly [(7,[0xbb])]) } {}).static.attestation.tpm = some r ∧
      r.pinnedAkSec1 = none := by
  obtain ⟨r,hr,-,hfields⟩ := policy_replaced_whole ({ tpm := some pinnedPolicy },[])
    { tpm := some (pcrsOnly [(7,[0xbb])]) } {} (envOnly "7:bb") pinnedSection pinnedPolicy
    rfl rfl rfl rfl
  have hset : ¬ Silent (envOnly "7:bb") := fun h => absurd (h pcrsVar (by decide)) (by decide)
  exact ⟨r,hr,(hfields hset).ak⟩

theorem pinned_key_discarded :
    pinnedSection.resolve = .ok pinnedPolicy ∧
      readTpmEnv (envOnly "7:bb") = .ok (some (pcrsOnly [(7,[0xbb])])) ∧
      (resolveLayers (({ tpm := some pinnedPolicy } : PartialStatic),[])
        { tpm := some (pcrsOnly [(7,[0xbb])]) } {}).static.attestation.tpm =
          some (pcrsOnly [(7,[0xbb])]) ∧
      ¬ FieldWise (envOnly "7:bb") pinnedPolicy (pcrsOnly [(7,[0xbb])]) := by
  refine ⟨rfl,rfl,resolved_tpm _ _ _,?_⟩
  intro h
  cases h.ak

end ArchetypeProxy.Configuration.Layers

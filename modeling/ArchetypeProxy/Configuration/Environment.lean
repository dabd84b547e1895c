import ArchetypeProxy.Configuration.Dump

/-!
# The environment layer

A static field has a variable of its own, the TPM policy five and the TLS
section none. The variables are read in the order of the fields, and the
first one with a malformed value ends the reading. A variable that is set to
the empty text counts as not set, except for the namespace, which it clears.
-/

set_option autoImplicit false

namespace ArchetypeProxy.Configuration.Environment
open ArchetypeProxy.Acme.Issue ArchetypeProxy.Configuration.Dump
open ArchetypeProxy.Configuration.Layers ArchetypeProxy.Configuration.Tpm
open ArchetypeProxy.CounterNonce ArchetypeProxy.Fallible ArchetypeProxy.Items
open ArchetypeProxy.Numerals ArchetypeProxy.Routes ArchetypeProxy.Text

/-- The readers of the standard library with the texts of their errors, and the
debug form of a string. -/
structure Readers where
  socketAddr : String → Except String SocketAddr
  u64 : String → Except String ℕ
  usize : String → Except String ℕ
  debug : String → String

variable (std : Readers)

def teeProviderFromStr (s : String) : Except String TeeProviderKind :=
  match toAsciiLowercase (trim s) with
  | "mock" => .ok .mock
  | "tdx" => .ok .tdx
  | "sev_snp" | "sevsnp" | "snp" => .ok .sevSnp
  | "sgx" => .ok .sgx
  | "trustzone" | "trust_zone" => .ok .trustZone
  | "aws_nitro" | "nitro" => .ok .awsNitro
  | "tpm" => .ok .tpm
  | other => .error ("unknown tee_provider "++std.debug other++
      " (expected mock|tdx|sev_snp|sgx|trustzone|aws_nitro|tpm)")

def verifierFromStr (s : String) : Except String VerifierKind :=
  match toAsciiLowercase (trim s) with
  | "mock" => .ok .mock
  | "maa" => .ok .maa
  | "ita" => .ok .ita
  | "amd_snp" | "amdsnp" | "sev_snp" | "snp" => .ok .amdSnp
  | "tpm" => .ok .tpm
  | "nvidia" | "nvidia_gpu" => .ok .nvidia
  | "dcap" => .ok .dcap
  | other => .error ("unknown verifier "++std.debug other++
      " (expected mock|maa|ita|amd_snp|tpm|nvidia|dcap)")

def parse {α : Type} (fromStr : String → Except String α) (env : Env) (name : String) :
    Except ConfigError (Option α) :=
  match var env name with
  | none => .ok none
  | some v => ((fromStr v).map some).mapError (.env name v)

def boolFromStr (s : String) : Except String Bool :=
  match parseBoolToken s with
  | some b => .ok b
  | none => .error "expected a boolean"

def parseBool : Env → String → Except ConfigError (Option Bool) := parse boolFromStr

def readEnv (env : Env) : Except ConfigError PartialStatic := do
  let listen ← parse std.socketAddr env "ARCHETYPE_PROXY_LISTEN"
  let maxBodyBytes ← parse std.usize env "ARCHETYPE_PROXY_MAX_BODY_BYTES"
  let allowMock ← parseBool env "ARCHETYPE_PROXY_ALLOW_MOCK"
  let strictAttestation ← parseBool env "ARCHETYPE_PROXY_STRICT_ATTESTATION"
  let atbTtlSecs ← parse std.u64 env "ARCHETYPE_PROXY_ATB_TTL_SECS"
  let atbEvictionIntervalSecs ← parse std.u64 env "ARCHETYPE_PROXY_ATB_EVICTION_INTERVAL_SECS"
  let atbMaxSessions ← parse std.usize env "ARCHETYPE_PROXY_ATB_MAX_SESSIONS"
  let teeProvider ← parse (teeProviderFromStr std) env "ARCHETYPE_PROXY_TEE_PROVIDER"
  let verifier ← parse (verifierFromStr std) env "ARCHETYPE_PROXY_VERIFIER"
  let tpm ← readTpmEnv env
  let rateLimitMaxRequests ← parse std.usize env "ARCHETYPE_PROXY_RATE_LIMIT_MAX_REQUESTS"
  let rateLimitWindowSecs ← parse std.u64 env "ARCHETYPE_PROXY_RATE_LIMIT_WINDOW_SECS"
  let dockerEnabled ← parseBool env "ARCHETYPE_PROXY_DOCKER"
  let dockerPollSecs ← parse std.u64 env "ARCHETYPE_PROXY_DOCKER_POLL_SECS"
  let kubernetesEnabled ← parseBool env "ARCHETYPE_PROXY_KUBERNETES"
  return {
    listen, maxBodyBytes, allowMock, strictAttestation, atbTtlSecs, atbEvictionIntervalSecs,
    atbMaxSessions, teeProvider, verifier, tpm, rateLimitMaxRequests, rateLimitWindowSecs,
    dockerEnabled, dockerPollSecs, kubernetesEnabled
    -- the TLS section comes from the file only
    tls := none
    verifierEndpoint := var env "ARCHETYPE_PROXY_VERIFIER_ENDPOINT"
    verifierApiKey := var env "ARCHETYPE_PROXY_VERIFIER_API_KEY"
    dockerSocket := var env "ARCHETYPE_PROXY_DOCKER_SOCKET"
    -- read raw, so that the empty text is not silent
    kubernetesNamespace := namespaceLayer (env "ARCHETYPE_PROXY_KUBERNETES_NAMESPACE") }

def Field.vars : Field → List String
  | .listen => ["ARCHETYPE_PROXY_LISTEN"]
  | .maxBodyBytes => ["ARCHETYPE_PROXY_MAX_BODY_BYTES"]
  | .allowMock => ["ARCHETYPE_PROXY_ALLOW_MOCK"]
  | .strictAttestation => ["ARCHETYPE_PROXY_STRICT_ATTESTATION"]
  | .atbTtlSecs => ["ARCHETYPE_PROXY_ATB_TTL_SECS"]
  | .atbEvictionIntervalSecs => ["ARCHETYPE_PROXY_ATB_EVICTION_INTERVAL_SECS"]
  | .atbMaxSessions => ["ARCHETYPE_PROXY_ATB_MAX_SESSIONS"]
  | .teeProvider => ["ARCHETYPE_PROXY_TEE_PROVIDER"]
  | .verifier => ["ARCHETYPE_PROXY_VERIFIER"]
  | .verifierEndpoint => ["ARCHETYPE_PROXY_VERIFIER_ENDPOINT"]
  | .verifierApiKey => ["ARCHETYPE_PROXY_VERIFIER_API_KEY"]
  | .tpm => tpmVars
  | .tls => []
  | .rateLimitMaxRequests => ["ARCHETYPE_PROXY_RATE_LIMIT_MAX_REQUESTS"]
  | .rateLimitWindowSecs => ["ARCHETYPE_PROXY_RATE_LIMIT_WINDOW_SECS"]
  | .dockerEnabled => ["ARCHETYPE_PROXY_DOCKER"]
  | .dockerSocket => ["ARCHETYPE_PROXY_DOCKER_SOCKET"]
  | .dockerPollSecs => ["ARCHETYPE_PROXY_DOCKER_POLL_SECS"]
  | .kubernetesEnabled => ["ARCHETYPE_PROXY_KUBERNETES"]
  | .kubernetesNamespace => ["ARCHETYPE_PROXY_KUBERNETES_NAMESPACE"]

def Field.read : (f : Field) → Env → Except ConfigError (Option f.Value)
  | .listen => fun env => parse std.socketAddr env "ARCHETYPE_PROXY_LISTEN"
  | .maxBodyBytes => fun env => parse std.usize env "ARCHETYPE_PROXY_MAX_BODY_BYTES"
  | .allowMock => fun env => parseBool env "ARCHETYPE_PROXY_ALLOW_MOCK"
  | .strictAttestation => fun env => parseBool env "ARCHETYPE_PROXY_STRICT_ATTESTATION"
  | .atbTtlSecs => fun env => parse std.u64 env "ARCHETYPE_PROXY_ATB_TTL_SECS"
  | .atbEvictionIntervalSecs => fun env =>
    parse std.u64 env "ARCHETYPE_PROXY_ATB_EVICTION_INTERVAL_SECS"
  | .atbMaxSessions => fun env => parse std.usize env "ARCHETYPE_PROXY_ATB_MAX_SESSIONS"
  | .teeProvider => fun env => parse (teeProviderFromStr std) env "ARCHETYPE_PROXY_TEE_PROVIDER"
  | .verifier => fun env => parse (verifierFromStr std) env "ARCHETYPE_PROXY_VERIFIER"
  | .verifierEndpoint => fun env =>
    .ok ((var env "ARCHETYPE_PROXY_VERIFIER_ENDPOINT").map some)
  | .verifierApiKey => fun env => .ok ((var env "ARCHETYPE_PROXY_VERIFIER_API_KEY").map some)
  | .tpm => fun env => (readTpmEnv env).map (Option.map some)
  | .tls => fun _ => .ok none
  | .rateLimitMaxRequests => fun env =>
    parse std.usize env "ARCHETYPE_PROXY_RATE_LIMIT_MAX_REQUESTS"
  | .rateLimitWindowSecs => fun env => parse std.u64 env "ARCHETYPE_PROXY_RATE_LIMIT_WINDOW_SECS"
  | .dockerEnabled => fun env => parseBool env "ARCHETYPE_PROXY_DOCKER"
  | .dockerSocket => fun env => .ok (var env "ARCHETYPE_PROXY_DOCKER_SOCKET")
  | .dockerPollSecs => fun env => parse std.u64 env "ARCHETYPE_PROXY_DOCKER_POLL_SECS"
  | .kubernetesEnabled => fun env => parseBool env "ARCHETYPE_PROXY_KUBERNETES"
  | .kubernetesNamespace => fun env =>
    .ok (namespaceLayer (env "ARCHETYPE_PROXY_KUBERNETES_NAMESPACE"))

def Field.check (env : Env) (f : Field) : Except ConfigError Unit :=
  (Field.read std f env).map (fun _ => ())

section Reading
variable (env : Env)

theorem check_seq {β : Type} (f : Field) (k : Unit → Except ConfigError β) :
    Field.check std env f >>= k = Field.read std f env >>= fun _ => k () :=
  except_bind_map _ _ _

theorem readEnv_layer (p : PartialStatic) (h : readEnv std env = .ok p) (f : Field) :
    Field.read std f env = .ok (f.layer p) := by
  simp only [readEnv, except_bind_eq_ok_iff, pure, Except.pure, Except.ok.injEq] at h
  obtain ⟨listen,hlisten,body,hbody,mock,hmock,strict,hstrict,ttl,httl,evict,hevict,max,hmax,tee,
    htee,ver,hver,tpm,htpm,rate,hrate,window,hwindow,docker,hdocker,poll,hpoll,kube,hkube,rfl⟩ := h
  cases f with
  | listen => exact hlisten
  | maxBodyBytes => exact hbody
  | allowMock => exact hmock
  | strictAttestation => exact hstrict
  | atbTtlSecs => exact httl
  | atbEvictionIntervalSecs => exact hevict
  | atbMaxSessions => exact hmax
  | teeProvider => exact htee
  | verifier => exact hver
  | tpm => simp only [Field.read, htpm, Except.map, Field.layer]
  | rateLimitMaxRequests => exact hrate
  | rateLimitWindowSecs => exact hwindow
  | dockerEnabled => exact hdocker
  | dockerPollSecs => exact hpoll
  | kubernetesEnabled => exact hkube
  | verifierEndpoint | verifierApiKey | tls | dockerSocket | kubernetesNamespace => rfl

theorem readEnv_checked :
    (readEnv std env).map (fun _ => ()) = checkAll (Field.check std env) Field.all := by
  simp only [Field.all, checkAll, check_seq, Field.read, except_bind_map, readEnv, except_map_bind]
  rfl

theorem readEnv_ok_iff :
    (∃ p, readEnv std env = .ok p) ↔ ∀ f, Field.check std env f = .ok () := by
  have hall := checkAll_eq_ok_iff (Field.check std env) Field.all
  rw [← readEnv_checked] at hall
  constructor
  · rintro ⟨p,hp⟩ f
    exact hall.mp (by rw [hp]; rfl) f f.mem_all
  · intro h
    have hok := hall.mpr (fun f _ => h f)
    cases hread : readEnv std env with
    | error e =>
      rw [hread] at hok
      cases hok
    | ok p => exact ⟨p,rfl⟩

/-- The reading ends with the error of the first field, in order, whose
variables are malformed. -/
def FirstFault (f : Field) (e : ConfigError) : Prop :=
  ∃ before after, Field.all = before++f::after ∧
    (∀ g ∈ before, Field.check std env g = .ok ()) ∧ Field.read std f env = .error e

theorem FirstFault.read (f : Field) (e : ConfigError) (h : FirstFault std env f e) :
    Field.read std f env = .error e := by
  obtain ⟨_,_,_,_,hread⟩ := h
  exact hread

theorem readEnv_error_iff (e : ConfigError) :
    readEnv std env = .error e ↔ ∃ f, FirstFault std env f e := by
  rw [← except_map_eq_error_iff _ (fun _ => ()), readEnv_checked, checkAll_eq_error_iff]
  constructor
  · rintro ⟨before,f,after,hall,hok,he⟩
    exact ⟨f,before,after,hall,hok,(except_map_eq_error_iff _ _ _).mp he⟩
  · rintro ⟨f,before,after,hall,hok,he⟩
    exact ⟨before,f,after,hall,hok,(except_map_eq_error_iff _ _ _).mpr he⟩

def Blames (e : ConfigError) (name : String) : Prop :=
  (var env name).isSome = true ∧ ∃ value reason, e = .env name value reason

theorem parse_error {α : Type} (fromStr : String → Except String α) (name : String)
    (e : ConfigError) (h : parse fromStr env name = .error e) :
    ∃ n ∈ [name], Blames env e n := by
  rw [parse] at h
  cases hvar : var env name with
  | none =>
    rw [hvar] at h
    cases h
  | some v =>
    rw [hvar] at h
    obtain ⟨reason,-,rfl⟩ := (mapError_eq_error_iff _ _ _).mp h
    exact ⟨name,by simp,by simp [hvar],v,reason,rfl⟩

theorem collectPcrs_error {α : Type} (entry : α → Except ConfigError (UInt32 × Bytes))
    (xs : List α) (m : PcrMap) (e : ConfigError) (h : collectPcrs entry xs m = .error e) :
    ∃ x ∈ xs, entry x = .error e := by
  induction xs generalizing m with
  | nil => cases h
  | cons x xs ih =>
    rcases (except_bind_eq_error_iff _ _ _).mp h with hx|⟨v,-,h⟩
    · exact ⟨x,by simp,hx⟩
    · obtain ⟨x',hx',he⟩ := ih _ h
      exact ⟨x',by simp [hx'],he⟩

theorem decodeHexField_error (value field : String) (e : ConfigError)
    (h : decodeHexField value field = .error e) : ∃ v reason, e = .env field v reason := by
  obtain ⟨fault,-,rfl⟩ := (mapError_eq_error_iff _ _ _).mp h
  exact ⟨_,_,rfl⟩

theorem envEntry_error (pair : String) (e : ConfigError) (h : envEntry pair = .error e) :
    ∃ value reason, e = .env pcrsVar value reason := by
  rw [envEntry] at h
  split at h
  · cases h
    exact ⟨_,_,rfl⟩
  · rcases (except_bind_eq_error_iff _ _ _).mp h with h|⟨idx,-,h⟩
    · obtain ⟨fault,-,rfl⟩ := (mapError_eq_error_iff _ _ _).mp h
      exact ⟨_,_,rfl⟩
    · rcases (except_bind_eq_error_iff _ _ _).mp h with h|⟨bytes,-,h⟩
      · exact decodeHexField_error _ _ e h
      · cases h

theorem envPcrs_error (e : ConfigError) (h : envPcrs (var env pcrsVar) = .error e) :
    Blames env e pcrsVar := by
  cases hraw : var env pcrsVar with
  | none =>
    rw [hraw] at h
    cases h
  | some raw =>
    rw [hraw] at h
    obtain ⟨pair,-,hpair⟩ := collectPcrs_error _ _ _ _ h
    exact ⟨by simp [hraw],envEntry_error pair e hpair⟩

theorem optionalHex_error (e : ConfigError) (h : optionalHex akVar (var env akVar) = .error e) :
    Blames env e akVar := by
  cases hraw : var env akVar with
  | none =>
    rw [hraw] at h
    cases h
  | some raw =>
    rw [hraw] at h
    rcases (except_bind_eq_error_iff _ _ _).mp h with h|⟨bytes,-,h⟩
    · exact ⟨by simp [hraw],decodeHexField_error _ _ e h⟩
    · cases h

theorem envSelection_error (e : ConfigError)
    (h : envSelection (var env selectionVar) = .error e) : Blames env e selectionVar := by
  cases hraw : var env selectionVar with
  | none =>
    rw [hraw] at h
    cases h
  | some raw =>
    rw [hraw] at h
    rcases (except_bind_eq_error_iff _ _ _).mp h with h|⟨sel,-,h⟩
    · obtain ⟨item,-,hitem⟩ := mapM_eq_error _ _ _ h
      obtain ⟨fault,-,rfl⟩ := (mapError_eq_error_iff _ _ _).mp hitem
      exact ⟨by simp [hraw],_,_,rfl⟩
    · cases h

theorem envAllow_error (e : ConfigError) (h : envAllow (var env allowVar) = .error e) :
    Blames env e allowVar := by
  cases hraw : var env allowVar with
  | none =>
    rw [hraw] at h
    cases h
  | some raw =>
    rw [hraw, envAllow] at h
    split at h
    · cases h
    · cases h
      exact ⟨by simp [hraw],_,_,rfl⟩

theorem readTpmEnv_error (e : ConfigError) (h : readTpmEnv env = .error e) :
    ∃ name ∈ tpmVars, Blames env e name := by
  by_cases hsilent : Silent env
  · cases h.symm.trans ((readTpmEnv_eq_none_iff env).mpr hsilent)
  · simp only [readTpmEnv, silent_iff, hsilent, if_false] at h
    rcases (except_bind_eq_error_iff _ _ _).mp h with h|⟨pcrs,-,h⟩
    · exact ⟨pcrsVar,by simp [tpmVars],envPcrs_error env e h⟩
    rcases (except_bind_eq_error_iff _ _ _).mp h with h|⟨ak,-,h⟩
    · exact ⟨akVar,by simp [tpmVars],optionalHex_error env e h⟩
    rcases (except_bind_eq_error_iff _ _ _).mp h with h|⟨sel,-,h⟩
    · exact ⟨selectionVar,by simp [tpmVars],envSelection_error env e h⟩
    rcases (except_bind_eq_error_iff _ _ _).mp h with h|⟨allow,-,h⟩
    · exact ⟨allowVar,by simp [tpmVars],envAllow_error env e h⟩
    · cases h

theorem read_error (f : Field) (e : ConfigError) (h : Field.read std f env = .error e) :
    ∃ name ∈ Field.vars f, Blames env e name := by
  cases f with
  | listen | maxBodyBytes | allowMock | strictAttestation | atbTtlSecs | atbEvictionIntervalSecs
  | atbMaxSessions | teeProvider | verifier | rateLimitMaxRequests | rateLimitWindowSecs
  | dockerEnabled | dockerPollSecs | kubernetesEnabled => exact parse_error env _ _ e h
  | tpm => exact readTpmEnv_error env e ((except_map_eq_error_iff _ _ _).mp h)
  | verifierEndpoint | verifierApiKey | tls | dockerSocket | kubernetesNamespace => cases h

/-- No variable of the field has a value; the empty text is one for the
namespace only. -/
def Field.Unset (env : Env) : Field → Prop
  | .kubernetesNamespace => env "ARCHETYPE_PROXY_KUBERNETES_NAMESPACE" = none
  | f => ∀ name ∈ Field.vars f, var env name = none

theorem parse_none_iff {α : Type} (fromStr : String → Except String α) (name : String) :
    parse fromStr env name = .ok none ↔ ∀ n ∈ [name], var env n = none := by
  rw [List.forall_mem_singleton, parse]
  cases hvar : var env name with
  | none => simp
  | some v =>
    show ((fromStr v).map some).mapError _ = _ ↔ _
    rw [mapError_eq_ok_iff]
    cases fromStr v <;> simp [Except.map]

theorem var_none_iff (name : String) :
    (Except.ok (var env name) : Except ConfigError (Option String)) = .ok none ↔
      ∀ n ∈ [name], var env n = none := by
  rw [List.forall_mem_singleton, Except.ok.injEq]

theorem var_map_none_iff (name : String) :
    (Except.ok ((var env name).map some) : Except ConfigError (Option (Option String))) =
      .ok none ↔ ∀ n ∈ [name], var env n = none := by
  rw [List.forall_mem_singleton, Except.ok.injEq, Option.map_eq_none_iff]

theorem tpm_none_iff :
    (readTpmEnv env).map (Option.map some) = .ok none ↔ Silent env := by
  rw [← readTpmEnv_eq_none_iff]
  rcases readTpmEnv env with e|_|cfg <;> simp [Except.map]

theorem namespace_none_iff (v : Option String) :
    (Except.ok (namespaceLayer v) : Except ConfigError (Option (Option String))) = .ok none ↔
      v = none := by
  rw [Except.ok.injEq, namespaceLayer, Option.map_eq_none_iff]

theorem read_none_iff (f : Field) :
    Field.read std f env = .ok none ↔ Field.Unset env f := by
  cases f with
  | listen | maxBodyBytes | allowMock | strictAttestation | atbTtlSecs | atbEvictionIntervalSecs
  | atbMaxSessions | teeProvider | verifier | rateLimitMaxRequests | rateLimitWindowSecs
  | dockerEnabled | dockerPollSecs | kubernetesEnabled => exact parse_none_iff env _ _
  | verifierEndpoint | verifierApiKey => exact var_map_none_iff env _
  | tpm => exact tpm_none_iff env
  | tls => exact ⟨fun _ _ h => absurd h List.not_mem_nil,fun _ => rfl⟩
  | dockerSocket => exact var_none_iff env _
  | kubernetesNamespace => exact namespace_none_iff _

end Reading

section Frame
variable (env env' : Env)

theorem var_congr (name : String) (h : env name = env' name) : var env name = var env' name := by
  rw [var, var, h]

theorem parse_congr {α : Type} (fromStr : String → Except String α) (name : String)
    (h : ∀ n ∈ [name], env n = env' n) : parse fromStr env name = parse fromStr env' name := by
  rw [parse, parse, var_congr env env' name (h name (by simp))]

theorem readTpmEnv_congr (h : ∀ n ∈ tpmVars, env n = env' n) :
    readTpmEnv env = readTpmEnv env' := by
  have hvar (n : String) (hn : n ∈ tpmVars) : var env n = var env' n :=
    var_congr env env' n (h n hn)
  rw [readTpmEnv, readTpmEnv, hvar pcrsVar (by simp [tpmVars]), hvar akVar (by simp [tpmVars]),
    hvar selectionVar (by simp [tpmVars]), hvar rootsVar (by simp [tpmVars]),
    hvar allowVar (by simp [tpmVars])]

theorem readEnv_congr (h : ∀ f : Field, ∀ n ∈ Field.vars f, env n = env' n) :
    readEnv std env = readEnv std env' := by
  have hparse {α : Type} (fromStr : String → Except String α) (f : Field) (name : String)
      (hf : Field.vars f = [name]) : parse fromStr env name = parse fromStr env' name :=
    parse_congr env env' fromStr name (hf ▸ h f)
  have hvar (f : Field) (name : String) (hf : Field.vars f = [name]) :
      var env name = var env' name :=
    var_congr env env' name (h f name (by simp [hf]))
  have hraw : env "ARCHETYPE_PROXY_KUBERNETES_NAMESPACE" =
      env' "ARCHETYPE_PROXY_KUBERNETES_NAMESPACE" :=
    h .kubernetesNamespace _ (by simp [Field.vars])
  rw [readEnv, readEnv, hparse _ .listen _ rfl, hparse _ .maxBodyBytes _ rfl,
    hparse _ .atbTtlSecs _ rfl, hparse _ .atbEvictionIntervalSecs _ rfl,
    hparse _ .atbMaxSessions _ rfl, hparse _ .teeProvider _ rfl, hparse _ .verifier _ rfl,
    hparse _ .rateLimitMaxRequests _ rfl, hparse _ .rateLimitWindowSecs _ rfl,
    hparse _ .dockerPollSecs _ rfl, hvar .verifierEndpoint _ rfl, hvar .verifierApiKey _ rfl,
    hvar .dockerSocket _ rfl, readTpmEnv_congr env env' (h .tpm), hraw, parseBool,
    hparse _ .allowMock _ rfl, hparse _ .strictAttestation _ rfl, hparse _ .dockerEnabled _ rfl,
    hparse _ .kubernetesEnabled _ rfl]

end Frame

end ArchetypeProxy.Configuration.Environment

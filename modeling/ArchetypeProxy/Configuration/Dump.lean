import ArchetypeProxy.Configuration.Layers

/-!
# The provenance dump

`dump` prints the resolved static fields with the layer that supplied each.
It looks the layer up under the printed name and prints `default` where the
provenance has no entry. The TPM policy is printed as four lines, under names
that are never recorded.
-/

set_option autoImplicit false

namespace ArchetypeProxy.Configuration.Dump
open ArchetypeProxy.Acme.Issue ArchetypeProxy.Configuration.Layers
open ArchetypeProxy.Configuration.Tpm ArchetypeProxy.Items ArchetypeProxy.Numerals
open ArchetypeProxy.Routes ArchetypeProxy.Text

def sourceText : Source → String
  | .default => "default"
  | .file => "file"
  | .discovered => "discovered"
  | .env => "env"
  | .cli => "cli"

def addrText (a : SocketAddr) : String :=
  if ':' ∈ a.ip.toList then "["++a.ip++"]:"++toString a.port else a.ip++":"++toString a.port

def padRight (width : ℕ) (s : String) : String :=
  s++String.ofList (List.replicate (width-s.length) ' ')

def boolText (b : Bool) : String := toString b

inductive TlsMode where
  | static (certPath keyPath : String)
  | acme (acme : TlsAcme)
  deriving DecidableEq, Repr

def validateTls (t : TlsConfig) : Except String TlsMode :=
  match t.acme.filter (·.enabled), t.certPath, t.keyPath with
  | some _, some _, _ | some _, none, some _ =>
    .error ("[server.tls]: static cert_path/key_path and [server.tls.acme] enabled=true are "++
      "mutually exclusive — configure exactly one cert source")
  | none, none, none =>
    .error ("[server.tls] is present but configures no cert source: set cert_path+key_path "++
      "OR [server.tls.acme] enabled=true")
  | none, some certPath, some keyPath => .ok (.static certPath keyPath)
  | none, some _, none => .error "[server.tls]: cert_path is set but key_path is missing"
  | none, none, some _ => .error "[server.tls]: key_path is set but cert_path is missing"
  | some acme, none, none =>
    if acme.domains.isEmpty then .error "[server.tls.acme]: enabled=true but `domains` is empty"
    else if acme.challenge != .dns01 && acme.domains.any (fun d => startsWith d "*.") then
      .error ("[server.tls.acme]: wildcard domain requires challenge=\"dns-01\" "++
        "(got challenge=\""++acme.challenge.asStr++"\")")
    else .ok (.acme acme)

section Texts
-- the debug form of a string, quoted and escaped
variable (debug : String → String)

def tlsText : Option TlsConfig → String
  | none => "<none>"
  | some t =>
    match validateTls t with
    | .ok (.static certPath keyPath) => "static cert="++certPath++" key="++keyPath
    | .ok (.acme a) =>
      "acme challenge="++a.challenge.asStr++
        " domains=["++joinWith ", " (a.domains.map debug)++"] staging="++boolText a.staging
    | .error e => "<invalid: "++e++">"

def pcrsText : Option TpmConfig → String
  | none => "<none>"
  | some t =>
    toString t.expectedPcrs.size++" PCR(s) ["++
      joinWith "," (t.expectedPcrs.keys.map decimal)++"]"

def pinnedText : Option TpmConfig → String
  | none => "<none>"
  | some t => if t.pinnedAkSec1.isSome then "<set>" else "<none>"

def rootsText : Option TpmConfig → String
  | none => "<none>"
  | some t => toString t.trustedEkRootPaths.length

def allowText (tpm : Option TpmConfig) : String := boolText (tpm.any (·.allowUnpinnedAk))

/-- A line of the dump: the printed name, the field its value is read from and
how the value is printed. -/
structure Line where
  name : String
  field : Field
  text : field.Value → String

def dumpLines : List Line :=
  [⟨"server.listen",.listen,addrText⟩,
    ⟨"server.max_body_bytes",.maxBodyBytes,Nat.repr⟩,
    ⟨"attestation.allow_mock",.allowMock,boolText⟩,
    ⟨"attestation.strict_attestation",.strictAttestation,boolText⟩,
    ⟨"attestation.atb_ttl_secs",.atbTtlSecs,Nat.repr⟩,
    ⟨"attestation.atb_eviction_interval_secs",.atbEvictionIntervalSecs,Nat.repr⟩,
    ⟨"attestation.atb_max_sessions",.atbMaxSessions,Nat.repr⟩,
    ⟨"attestation.tee_provider",.teeProvider,TeeProviderKind.asStr⟩,
    ⟨"attestation.verifier",.verifier,VerifierKind.asStr⟩,
    ⟨"attestation.verifier_endpoint",.verifierEndpoint,fun v => Option.getD v "<none>"⟩,
    ⟨"attestation.tpm.expected_pcrs",.tpm,pcrsText⟩,
    ⟨"attestation.tpm.pinned_ak",.tpm,pinnedText⟩,
    ⟨"attestation.tpm.trusted_ek_roots",.tpm,rootsText⟩,
    ⟨"attestation.tpm.allow_unpinned_ak",.tpm,allowText⟩,
    ⟨"server.tls",.tls,tlsText debug⟩,
    ⟨"rate_limit.max_requests",.rateLimitMaxRequests,Nat.repr⟩,
    ⟨"rate_limit.window_secs",.rateLimitWindowSecs,Nat.repr⟩,
    ⟨"discovery.docker",.dockerEnabled,boolText⟩,
    ⟨"discovery.docker.socket",.dockerSocket,id⟩,
    ⟨"discovery.docker.poll_secs",.dockerPollSecs,Nat.repr⟩,
    ⟨"discovery.kubernetes",.kubernetesEnabled,boolText⟩,
    ⟨"discovery.kubernetes.namespace",.kubernetesNamespace,fun v => Option.getD v "<all>"⟩]

def label (prov : Provenance) (name : String) : Source := (prov[name]?).getD .default

def lineText (cfg : Config) (l : Line) : String :=
  "  "++padRight 28 l.name++" = "++padRight 30 (l.text (l.field.get cfg.static))++
    " ["++sourceText (label cfg.provenance l.name)++"]\n"

def routeText (r : Route) : String :=
  "  - "++r.name++" host="++debug r.host++" prefix="++debug r.pathPrefix++" -> "++r.upstream++
    " ["++sourceText r.source++"]\n"

def dump (cfg : Config) : String :=
  "static config (boot-time only):\n"++String.join ((dumpLines debug).map (lineText cfg))++
    "dynamic routes (file): "++toString cfg.fileRoutes.length++"\n"++
    String.join (cfg.fileRoutes.map (routeText debug))

/-- The label names the layer that supplied the printed value. -/
def TrueLabel (file : PartialStatic × List Route) (env cli : PartialStatic) (l : Line) : Prop :=
  Supplies l.field.default (l.field.layer file.1) (l.field.layer env) (l.field.layer cli)
    (l.field.get (resolveLayers file env cli).static)
    (label (resolveLayers file env cli).provenance l.name)

theorem line_name (l : Line) (h : l ∈ dumpLines debug) :
    l.name = l.field.key ∨ l.field = .tpm ∧ ∀ f : Field, f.key ≠ l.name := by
  have hnames : ∀ p ∈ (dumpLines debug).map (fun l => (l.name,l.field)),
      p.1 = p.2.key ∨ p.2 = .tpm ∧ ∀ f ∈ Field.all, f.key ≠ p.1 := by
    simp only [dumpLines, List.map_cons, List.map_nil]
    decide
  rcases hnames (l.name,l.field) (List.mem_map.mpr ⟨l,h,rfl⟩) with hkey|⟨htpm,hother⟩
  · exact Or.inl hkey
  · exact Or.inr ⟨htpm,fun f => hother f f.mem_all⟩

section Labels
variable (file : PartialStatic × List Route) (env cli : PartialStatic)

theorem supplies_iff {α : Type} (default : α) (file env cli : Option α) (s : Source) :
    Supplies default file env cli (chosen default file env cli) s ↔
      s = chosenSource file env cli := by
  constructor
  · intro h
    generalize chosen default file env cli = v at h
    cases h <;> rfl
  · rintro rfl
    exact supplies_chosen default file env cli

theorem trueLabel_iff (l : Line) :
    TrueLabel file env cli l ↔
      label (resolveLayers file env cli).provenance l.name = l.field.source file.1 env cli := by
  rw [TrueLabel, resolveLayers, resolveStatic_value, supplies_iff]
  rfl

theorem source_default_iff (f : Field) :
    f.source file.1 env cli = .default ↔
      f.layer file.1 = none ∧ f.layer env = none ∧ f.layer cli = none := by
  rw [Field.source]
  cases f.layer file.1 <;> cases f.layer env <;> cases f.layer cli <;> simp [chosenSource]

theorem label_field (f : Field) :
    label (resolveLayers file env cli).provenance f.key = f.source file.1 env cli := by
  rw [label, resolveLayers, provenance_field]
  rfl

theorem label_other (name : String) (h : ∀ f : Field, f.key ≠ name) :
    label (resolveLayers file env cli).provenance name = .default := by
  rw [label, resolveLayers, provenance_other file.1 env cli name h]
  rfl

theorem pinned_unrecorded (f : Field) : f.key ≠ "attestation.tpm.pinned_ak" := by
  cases f <;> decide

/-- Every line has the true label exactly when no layer supplies a TPM policy. -/
theorem dump_labels_true_iff :
    (∀ l ∈ dumpLines debug, TrueLabel file env cli l) ↔
      file.1.tpm = none ∧ env.tpm = none ∧ cli.tpm = none := by
  have htpm : Field.source file.1 env cli .tpm = .default ↔
      file.1.tpm = none ∧ env.tpm = none ∧ cli.tpm = none := by
    rw [source_default_iff]
    exact and_congr Option.map_eq_none_iff
      (and_congr Option.map_eq_none_iff Option.map_eq_none_iff)
  rw [← htpm]
  constructor
  · intro h
    have hline := h ⟨"attestation.tpm.pinned_ak",.tpm,pinnedText⟩ (by simp [dumpLines])
    rw [trueLabel_iff, label_other file env cli _ pinned_unrecorded] at hline
    exact hline.symm
  · intro h l hl
    rw [trueLabel_iff]
    rcases line_name debug l hl with hkey|⟨hfield,hother⟩
    · rw [hkey, label_field]
    · rw [label_other file env cli l.name hother, hfield, h]

end Labels

end Texts

theorem pinned_key_printed_as_default :
    lineText (resolveLayers ({ tpm := some pinnedPolicy },[]) {} {})
        ⟨"attestation.tpm.pinned_ak",.tpm,pinnedText⟩ =
      "  attestation.tpm.pinned_ak    = <set>                          [default]\n" ∧
    ¬ ∀ l ∈ dumpLines id, TrueLabel ({ tpm := some pinnedPolicy },[]) {} {} l := by
  constructor
  · have hvalue : Field.get .tpm (resolveLayers ({ tpm := some pinnedPolicy },[]) {} {}).static =
        some pinnedPolicy := resolved_tpm _ _ _
    rw [lineText, label_other _ _ _ _ pinned_unrecorded, hvalue]
    decide
  · intro h
    have hline := h ⟨"attestation.tpm.pinned_ak",.tpm,pinnedText⟩ (by simp [dumpLines])
    rw [trueLabel_iff, label_other _ _ _ _ pinned_unrecorded] at hline
    cases hline

end ArchetypeProxy.Configuration.Dump

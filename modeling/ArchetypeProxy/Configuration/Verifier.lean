import ArchetypeProxy.Configuration.Layers

/-!
# Validation and the TPM verifier

`validate` rejects a configuration whose TPM verifier could trust no
attestation key. The verifier is built from the same policy later and reads
the root certificates again. What the crates and the file system answer are
parameters: the files do not change between the two.
-/

set_option autoImplicit false

namespace ArchetypeProxy.Configuration.Verifier
open ArchetypeProxy.Configuration.Layers ArchetypeProxy.Configuration.Tpm
open ArchetypeProxy.CounterNonce ArchetypeProxy.Fallible ArchetypeProxy.Upserts

structure CertCrates where
  certs : Bytes → List (Except String Bytes)
  fromDer : Bytes → Except String Unit

structure PolicyView where
  expectedPcrs : PcrMap
  pinnedAk : Option Bytes
  trustedEkRoots : List Bytes
  allowUnpinnedAk : Bool

/-- The builder of reference policies: each step sets its own part. -/
structure PolicyCrate (P : Type) where
  fromPcrs : PcrMap → P
  withPinnedAk : P → Bytes → P
  withTrustedEkRoots : P → List Bytes → P
  allowUnpinnedAk : P → Bool → P
  view : P → PolicyView
  view_fromPcrs : ∀ m, view (fromPcrs m) = ⟨m,none,[],false⟩
  view_withPinnedAk : ∀ p ak, view (withPinnedAk p ak) = { view p with pinnedAk := some ak }
  view_withTrustedEkRoots : ∀ p roots,
    view (withTrustedEkRoots p roots) = { view p with trustedEkRoots := roots }
  view_allowUnpinnedAk : ∀ p b, view (allowUnpinnedAk p b) = { view p with allowUnpinnedAk := b }

structure FatalError where
  message : String
  deriving DecidableEq, Repr

def beginMark : Bytes := [45,45,45,45,45,66,69,71,73,78,32]

def isPem (bytes : Bytes) : Bool := bytes.tails.any (fun w => w.take 11 == beginMark)

section Certificates
variable (files : String → Except String Bytes) (crates : CertCrates)

def pemCerts (path : String) (bytes : Bytes) : Except ConfigError (List Bytes) := do
  let certs ← ((crates.certs bytes).mapM id).mapError (fun e => .validation
    ("trusted EK root "++path++": failed to parse PEM certificate(s): "++e))
  if certs.isEmpty then
    .error (.validation ("trusted EK root "++path++": no PEM certificate found"))
  else .ok certs

def checkDers (path : String) : List Bytes → Except ConfigError Unit
  | [] => .ok ()
  | der::ders => do
    (crates.fromDer der).mapError (fun e => .validation
      ("trusted EK root "++path++": not a valid X.509 certificate: "++e))
    checkDers path ders

/-- A file without the mark is one certificate in DER. -/
def fileDers (path : String) (bytes : Bytes) : Except ConfigError (List Bytes) :=
  if isPem bytes then pemCerts crates path bytes else .ok [bytes]

def loadCertDer (path : String) : Except ConfigError (List Bytes) := do
  let bytes ← (files path).mapError (.read path)
  let ders ← fileDers crates path bytes
  checkDers crates path ders
  return ders

def rootsDer : List String → Except ConfigError (List Bytes)
  | [] => .ok []
  | path::paths => do
    let ders ← loadCertDer files crates path
    let rest ← rootsDer paths
    return ders++rest

def trustedEkRootsDer (tpm : TpmConfig) : Except ConfigError (List Bytes) :=
  rootsDer files crates tpm.trustedEkRootPaths

theorem checkDers_eq_ok_iff (path : String) (ders : List Bytes) :
    checkDers crates path ders = .ok () ↔ ∀ der ∈ ders, crates.fromDer der = .ok () := by
  induction ders with
  | nil => simp [checkDers]
  | cons der ders ih =>
    simp only [checkDers, except_bind_eq_ok_iff, mapError_eq_ok_iff, ih, List.forall_mem_cons]
    exact ⟨fun ⟨_,hder,hders⟩ => ⟨hder,hders⟩,fun ⟨hder,hders⟩ => ⟨(),hder,hders⟩⟩

theorem fileDers_ne_nil (path : String) (bytes : Bytes) (ders : List Bytes)
    (h : fileDers crates path bytes = .ok ders) : ders ≠ [] := by
  by_cases hpem : isPem bytes
  · rw [fileDers, if_pos hpem] at h
    obtain ⟨certs,-,h⟩ := except_bind_eq_ok _ _ _ h
    by_cases hempty : certs = []
    · simp [hempty] at h
    · rw [if_neg (by simpa using hempty)] at h
      cases h
      exact hempty
  · rw [fileDers, if_neg hpem] at h
    cases h
    simp

theorem loadCertDer_valid (path : String) (ders : List Bytes)
    (h : loadCertDer files crates path = .ok ders) :
    ders ≠ [] ∧ ∀ der ∈ ders, crates.fromDer der = .ok () := by
  obtain ⟨bytes,-,h⟩ := except_bind_eq_ok _ _ _ h
  obtain ⟨loaded,hloaded,h⟩ := except_bind_eq_ok _ _ _ h
  obtain ⟨_,hvalid,h⟩ := except_bind_eq_ok _ _ _ h
  cases h
  exact ⟨fileDers_ne_nil crates path bytes ders hloaded,
    (checkDers_eq_ok_iff crates path ders).mp hvalid⟩

def Covers (paths : List String) (roots : List Bytes) : Prop :=
  ∀ path ∈ paths, ∃ ders, loadCertDer files crates path = .ok ders ∧
    ∃ der ∈ ders, der ∈ roots ∧ crates.fromDer der = .ok ()

theorem rootsDer_covers (paths : List String) (roots : List Bytes)
    (h : rootsDer files crates paths = .ok roots) : Covers files crates paths roots := by
  induction paths generalizing roots with
  | nil => simp [Covers]
  | cons path paths ih =>
    obtain ⟨ders,hders,h⟩ := except_bind_eq_ok _ _ _ h
    obtain ⟨rest,hrest,h⟩ := except_bind_eq_ok _ _ _ h
    cases h
    intro p hp
    rcases List.mem_cons.mp hp with rfl|hp
    · obtain ⟨hne,hvalid⟩ := loadCertDer_valid files crates p ders hders
      obtain ⟨der,hder⟩ := List.exists_mem_of_ne_nil ders hne
      exact ⟨ders,hders,der,hder,List.mem_append_left _ hder,hvalid der hder⟩
    · obtain ⟨ders',hload,der,hder,hroot,hvalid⟩ := ih rest hrest p hp
      exact ⟨ders',hload,der,hder,List.mem_append_right _ hroot,hvalid⟩

end Certificates

def emptyPolicyMessage (att : AttestationConfig) : String :=
  "attestation.verifier="++att.verifier.asStr++" / tee_provider="++att.teeProvider.asStr++
    " requires a non-empty [attestation.tpm].expected_pcrs reference policy (map of PCR index "++
    "-> hex digest); an empty policy would fail closed at runtime. Set expected PCRs, e.g.\n\n"++
    "    [attestation.tpm.expected_pcrs]\n    0 = \"<64-hex-sha256>\"\n    ...\n\n"++
    "or via ARCHETYPE_PROXY_TPM_EXPECTED_PCRS=0:<hex>,7:<hex>."

def untrustedAkMessage (att : AttestationConfig) : String :=
  "attestation.verifier="++att.verifier.asStr++" / tee_provider="++att.teeProvider.asStr++
    " requires the TPM attestation key (AK) to be trusted by exactly one of three modes; none is "++
    "configured, so the verifier would reject every AK at request time. Choose one:\n"++
    "\n  1. Pin the AK public key (uncompressed SEC1, hex):\n"++
    "\n       [attestation.tpm]\n       pinned_ak_sec1_hex = \"04...\"\n"++
    "\n     (or ARCHETYPE_PROXY_TPM_PINNED_AK_SEC1_HEX)\n"++
    "\n  2. Chain the AK to trusted EK/manufacturer root cert(s):\n"++
    "\n       [attestation.tpm]\n       trusted_ek_root_paths = [\"/path/ek-root.pem\"]\n"++
    "\n     (or ARCHETYPE_PROXY_TPM_TRUSTED_EK_ROOT_PATHS)\n"++
    "\n  3. Accept an unpinned AK (INSECURE, dev/test only):\n"++
    "\n       [attestation.tpm]\n       allow_unpinned_ak = true\n"++
    "\n     (or ARCHETYPE_PROXY_TPM_ALLOW_UNPINNED_AK=true)"

section Building
variable {P : Type} (files : String → Except String Bytes) (crates : CertCrates)
variable (builder : PolicyCrate P)

def validatePolicy (att : AttestationConfig) : Except ConfigError Unit :=
  match att.tpm.filter (fun t => !t.expectedPcrs.isEmpty) with
  | none => .error (.validation (emptyPolicyMessage att))
  | some tpm =>
    if !tpm.pinnedAkSec1.isSome && tpm.trustedEkRootPaths.isEmpty && !tpm.allowUnpinnedAk then
      .error (.validation (untrustedAkMessage att))
    else if !tpm.trustedEkRootPaths.isEmpty then
      (trustedEkRootsDer files crates tpm).map (fun _ => ())
    else .ok ()

def validate (cfg : Config) : Except ConfigError Unit :=
  let att := cfg.static.attestation
  if att.verifier == .tpm || att.teeProvider == .tpm then validatePolicy files crates att
  else .ok ()

def policyOf (tpm : TpmConfig) (roots : List Bytes) : P :=
  let policy := builder.fromPcrs tpm.expectedPcrs
  let policy := match tpm.pinnedAkSec1 with
    | some ak => builder.withPinnedAk policy ak
    | none => policy
  let policy := if roots.isEmpty then policy else builder.withTrustedEkRoots policy roots
  if tpm.allowUnpinnedAk then builder.allowUnpinnedAk policy true else policy

def buildTpmVerifier (att : AttestationConfig) : Except FatalError P :=
  match att.tpm with
  | none =>
    .error ⟨"verifier=tpm requires an [attestation.tpm] section with expected_pcrs"⟩
  | some tpm =>
    if tpm.expectedPcrs.isEmpty then
      .error ⟨"verifier=tpm requires a non-empty [attestation.tpm].expected_pcrs reference policy"⟩
    else do
      let roots ← (trustedEkRootsDer files crates tpm).mapError (fun e => ⟨e.toText⟩)
      return policyOf builder tpm roots

theorem view_policyOf (tpm : TpmConfig) (roots : List Bytes) :
    builder.view (policyOf builder tpm roots) =
      ⟨tpm.expectedPcrs,tpm.pinnedAkSec1,roots,tpm.allowUnpinnedAk⟩ := by
  obtain ⟨pcrs,ak,selection,paths,allow⟩ := tpm
  cases ak <;> cases roots <;> cases allow <;>
    simp [policyOf, builder.view_fromPcrs, builder.view_withPinnedAk,
      builder.view_withTrustedEkRoots, builder.view_allowUnpinnedAk]

theorem validatePolicy_ok (att : AttestationConfig)
    (h : validatePolicy files crates att = .ok ()) :
    ∃ tpm roots, att.tpm = some tpm ∧ tpm.expectedPcrs.isEmpty = false ∧
      trustedEkRootsDer files crates tpm = .ok roots ∧
      (tpm.pinnedAkSec1.isSome = true ∨ tpm.trustedEkRootPaths ≠ [] ∨
        tpm.allowUnpinnedAk = true) := by
  rw [validatePolicy] at h
  split at h
  · cases h
  · rename_i tpm htpm
    obtain ⟨hsome,hpcrs⟩ := Option.filter_eq_some_iff.mp htpm
    have hpcrs : tpm.expectedPcrs.isEmpty = false := by simpa using hpcrs
    split at h
    · cases h
    · rename_i hmode
      have hmode : tpm.pinnedAkSec1.isSome = true ∨ tpm.trustedEkRootPaths ≠ [] ∨
          tpm.allowUnpinnedAk = true := by
        by_contra hnone
        simp_all
      by_cases hpaths : tpm.trustedEkRootPaths = []
      · exact ⟨tpm,[],hsome,hpcrs,by rw [trustedEkRootsDer, hpaths]; rfl,hmode⟩
      · rw [if_pos (by simpa using hpaths)] at h
        cases hroots : trustedEkRootsDer files crates tpm with
        | error e =>
          rw [hroots] at h
          cases h
        | ok roots => exact ⟨tpm,roots,hsome,hpcrs,hroots,hmode⟩

/-- At least one way to trust an attestation key is active in the policy: a
pinned key, roots with a certificate of every configured file, or the flag. -/
def KeyTrusted (tpm : TpmConfig) (policy : PolicyView) : Prop :=
  (∃ ak, tpm.pinnedAkSec1 = some ak ∧ policy.pinnedAk = some ak) ∨
    (policy.trustedEkRoots ≠ [] ∧
      Covers files crates tpm.trustedEkRootPaths policy.trustedEkRoots) ∨
    policy.allowUnpinnedAk = true

/-- A validated configuration with the TPM verifier builds it, with the policy
of the configuration and a way to trust a key. -/
theorem validated_policy_builds (cfg : Config) (hver : cfg.static.attestation.verifier = .tpm)
    (hval : validate files crates cfg = .ok ()) :
    ∃ tpm policy, cfg.static.attestation.tpm = some tpm ∧ tpm.expectedPcrs ≠ ∅ ∧
      buildTpmVerifier files crates builder cfg.static.attestation = .ok policy ∧
      (builder.view policy).expectedPcrs = tpm.expectedPcrs ∧
      KeyTrusted files crates tpm (builder.view policy) := by
  rw [validate, hver] at hval
  obtain ⟨tpm,roots,htpm,hpcrs,hroots,hmode⟩ := validatePolicy_ok files crates _ hval
  refine ⟨tpm,policyOf builder tpm roots,htpm,?_,?_,?_,?_⟩
  · rintro hempty
    rw [hempty] at hpcrs
    cases hpcrs
  · rw [buildTpmVerifier, htpm]
    simp only [hpcrs, hroots]
    rfl
  · rw [view_policyOf]
  · rw [view_policyOf]
    have hcovers := rootsDer_covers files crates _ roots hroots
    rcases hmode with hpin|hpaths|hallow
    · obtain ⟨ak,hak⟩ := Option.isSome_iff_exists.mp hpin
      exact Or.inl ⟨ak,hak,hak⟩
    · obtain ⟨path,hpath⟩ := List.exists_mem_of_ne_nil _ hpaths
      obtain ⟨ders,-,der,-,hder,-⟩ := hcovers path hpath
      exact Or.inr (Or.inl ⟨List.ne_nil_of_mem hder,hcovers⟩)
    · exact Or.inr (Or.inr hallow)

end Building

def plainBuilder : PolicyCrate PolicyView where
  fromPcrs m := ⟨m,none,[],false⟩
  withPinnedAk p ak := { p with pinnedAk := some ak }
  withTrustedEkRoots p roots := { p with trustedEkRoots := roots }
  allowUnpinnedAk p b := { p with allowUnpinnedAk := b }
  view := id
  view_fromPcrs _ := rfl
  view_withPinnedAk _ _ := rfl
  view_withTrustedEkRoots _ _ := rfl
  view_allowUnpinnedAk _ _ := rfl

def rootDer : Bytes := [0x30,0x05,0x30,0x03,0x02,0x01,0x05]

def rootFile (path : String) : Except String Bytes :=
  if path = "root.der" then .ok rootDer
  else if path = "empty.der" then .ok []
  else .error "not found"

/-- The frame of a certificate: a sequence that begins with a sequence, each with
the length of what follows it. -/
def derFrame : Bytes → Bool
  | tag::length::tag'::length'::rest => tag == 0x30 && length.toNat == rest.length+2 &&
      tag' == 0x30 && length'.toNat ≤ rest.length
  | _ => false

def derCrates : CertCrates where
  certs _ := []
  fromDer der := if derFrame der then .ok () else .error "unexpected ASN.1 DER tag"

def rootedPolicy : TpmConfig := ⟨insertAll ∅ [(0,[0xaa])],none,none,["root.der"],false⟩

def rootedConfig : Config :=
  resolveLayers ({ verifier := some .tpm, tpm := some rootedPolicy },[]) {} {}

theorem rooted_verifier_built :
    ∃ policy, buildTpmVerifier rootFile derCrates plainBuilder
        rootedConfig.static.attestation = .ok policy ∧
      policy.expectedPcrs = rootedPolicy.expectedPcrs ∧ policy.trustedEkRoots = [rootDer] := by
  obtain ⟨tpm,policy,htpm,-,hbuild,hpcrs,-⟩ := validated_policy_builds rootFile derCrates
    plainBuilder rootedConfig rfl rfl
  cases (resolved_tpm _ _ _).symm.trans htpm
  refine ⟨policy,hbuild,hpcrs,?_⟩
  cases hbuild
  rfl

end ArchetypeProxy.Configuration.Verifier

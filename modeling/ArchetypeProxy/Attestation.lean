import ArchetypeProxy.Configuration.Verifier

/-!
# Attestation at startup

The startup guard refuses mock attestation in a release build unless the
operator opens the escape hatch. Provider and verifier are then built from
the configuration. One whose feature is not compiled in is refused; there is
no fallback to a mock.
-/

set_option autoImplicit false

namespace ArchetypeProxy.Attestation
open ArchetypeProxy.Configuration.Layers ArchetypeProxy.Configuration.Tpm
open ArchetypeProxy.Configuration.Verifier ArchetypeProxy.CounterNonce ArchetypeProxy.Fallible

structure Features where
  tdx : Bool := false
  sevSnp : Bool := false
  sgx : Bool := false
  trustzone : Bool := false
  awsNitro : Bool := false
  maa : Bool := false
  ita : Bool := false
  amdSnp : Bool := false
  tpm : Bool := false
  deriving DecidableEq, Repr

inductive AttestationMode where
  | secure
  | insecure (release : Bool)
  deriving DecidableEq, Repr

def insecureDevEnv : String := "ARCHETYPE_PROXY_INSECURE_DEV"

/-- Mock attestation can arise in three independent ways. -/
def usesMock (att : AttestationConfig) : Bool :=
  att.allowMock || att.teeProvider == .mock || att.verifier == .mock

def refusal (att : AttestationConfig) : FatalError :=
  ⟨"refusing to start: release build resolved to mock attestation (allow_mock="++
    toString att.allowMock++", tee_provider="++att.teeProvider.asStr++", verifier="++
    att.verifier.asStr++"), which provides no security. Configure a real hardware tee_provider "++
    "+ verifier (and build with the matching --features), or set "++insecureDevEnv++
    "=1 to explicitly run an insecure dev server."⟩

def startupAttestationDecision (isRelease : Bool) (att : AttestationConfig)
    (insecureDev : Bool) : Except FatalError AttestationMode :=
  if !usesMock att then .ok .secure
  else if !isRelease then .ok (.insecure false)
  else if insecureDev then .ok (.insecure true)
  else .error (refusal att)

def insecureDevEnvSet (env : Env) : Bool := env insecureDevEnv == some "1"

inductive TeeProvider where
  | mockTeeProvider | tdxTeeProvider | sevSnpTeeProvider | sgxTeeProvider | trustZoneTeeProvider
  | awsNitroTeeProvider | tpmTeeAdapter
  deriving DecidableEq, Repr

def featureError (kind value feature : String) : FatalError :=
  ⟨kind++"="++value++" requires building with --features "++feature++
    "; this binary was compiled without it (default build is mock-only)"⟩

def gated {α : Type} (compiled : Bool) (kind value feature : String)
    (built : Except FatalError α) : Except FatalError α :=
  if compiled then built else .error (featureError kind value feature)

variable (features : Features)

def buildTeeProvider (att : AttestationConfig) : Except FatalError TeeProvider :=
  match att.teeProvider with
  | .mock => .ok .mockTeeProvider
  | .tdx => gated features.tdx "tee_provider" "tdx" "tdx" (.ok .tdxTeeProvider)
  | .sevSnp => gated features.sevSnp "tee_provider" "sev_snp" "sev_snp" (.ok .sevSnpTeeProvider)
  | .sgx => gated features.sgx "tee_provider" "sgx" "sgx" (.ok .sgxTeeProvider)
  | .trustZone =>
    gated features.trustzone "tee_provider" "trustzone" "trustzone" (.ok .trustZoneTeeProvider)
  | .awsNitro =>
    gated features.awsNitro "tee_provider" "aws_nitro" "aws_nitro" (.ok .awsNitroTeeProvider)
  | .tpm => gated features.tpm "tee_provider" "tpm" "tpm" (.ok .tpmTeeAdapter)

inductive QuoteVerifier (P : Type) where
  | mockVerifier
  | maaVerifier (endpoint : String)
  | itaVerifier (apiKey endpoint : String)
  | sevSnpVerifier
  | tpmVerifier (policy : P)

section Verifier
variable {P : Type} (files : String → Except String Bytes) (crates : CertCrates)
variable (builder : PolicyCrate P)

def buildVerifier (att : AttestationConfig) : Except FatalError (QuoteVerifier P) :=
  match att.verifier with
  | .mock => .ok .mockVerifier
  | .maa => gated features.maa "verifier" "maa" "maa" do
    let endpoint ← okOr att.verifierEndpoint
      ⟨"verifier=maa requires attestation.verifier_endpoint (e.g. "++
        "https://sharedeus2.eus2.attest.azure.net)"⟩
    return .maaVerifier endpoint
  | .ita => gated features.ita "verifier" "ita" "ita" do
    let endpoint ← okOr att.verifierEndpoint
      ⟨"verifier=ita requires attestation.verifier_endpoint"⟩
    let apiKey ← okOr att.verifierApiKey ⟨"verifier=ita requires attestation.verifier_api_key"⟩
    return .itaVerifier apiKey endpoint
  | .amdSnp => gated features.amdSnp "verifier" "amd_snp" "amd_snp" (.ok .sevSnpVerifier)
  | .tpm => gated features.tpm "verifier" "tpm" "tpm"
    ((buildTpmVerifier files crates builder att).map .tpmVerifier)
  | .nvidia | .dcap =>
    .error ⟨"verifier="++att.verifier.asStr++" is not supported by archetype-proxy in the pinned "++
      "openhttpa revision (no production-ready verifier type is available); choose "++
      "mock|maa|ita|amd_snp|tpm"⟩

end Verifier

end ArchetypeProxy.Attestation

import ArchetypeProxy.Library.CounterNonce
import ArchetypeProxy.Library.Fallible

/-!
# Issued certificates

An issued certificate is two PEM texts. Its remaining validity is read from
the first certificate of the chain; a certified key needs every certificate
of the chain and a matching private key.
-/

set_option autoImplicit false

namespace ArchetypeProxy.Acme.Certificate
open ArchetypeProxy.CounterNonce ArchetypeProxy.Fallible

structure Validity where
  notBefore : ℕ
  notAfter : ℕ
  deriving DecidableEq, Repr

structure IssuedCert where
  certPem : String
  keyPem : String
  deriving DecidableEq, Repr

structure CertifiedKey where
  cert : List Bytes
  key : Bytes
  deriving DecidableEq, Repr

inductive AuthorizationStatus where
  | pending | valid | invalid | revoked | expired | deactivated
  deriving DecidableEq, Repr

inductive OrderStatus where
  | pending | ready | processing | valid | invalid
  deriving DecidableEq, Repr

inductive AcmeError where
  | acme (source : String)
  | cache (path source : String)
  | rcgen (source : String)
  | cert (message : String)
  | authorization (domain : String) (status : AuthorizationStatus)
  | order (status : OrderStatus)
  | dnsHook (message : String)
  | dns (message : String)
  | rustls (source : String)
  deriving DecidableEq, Repr

/-- What the crates make of texts: the certificates of a PEM text in order,
its private key, whether chain and key belong together, and the validity of
a parsed certificate. -/
structure Pem where
  pemSliceIter : String → List (Except String Bytes)
  fromPemSlice : String → Except String Bytes
  fromDer : List Bytes → Bytes → Except String Unit
  parseX509 : Bytes → Option Validity

def second : ℕ := 10^9

def renewBefore : ℕ := 30*24*60*60

def timeToExpiration (v : Validity) (now : ℕ) : Option ℕ :=
  if v.notBefore*second ≤ now ∧ now < v.notAfter*second then some (v.notAfter*second-now)
  else none

variable (pem : Pem)

def firstCert (text : String) : Option Bytes := (pem.pemSliceIter text).head?.bind Except.toOption

/-- Whole seconds left, and none for a certificate that is not valid now. -/
def remaining (now : ℕ) (der : Bytes) : Option ℕ :=
  (pem.parseX509 der).bind (fun v => (timeToExpiration v now).map (· / second))

def IssuedCert.timeToExpiry (now : ℕ) (cert : IssuedCert) : Option ℕ :=
  (firstCert pem cert.certPem).bind (remaining pem now)

def IssuedCert.needsRenewal (now : ℕ) (cert : IssuedCert) : Bool :=
  match cert.timeToExpiry pem now with
  | some left => decide (left ≤ renewBefore)
  | none => true

def IssuedCert.intoCertifiedKey (cert : IssuedCert) : Except AcmeError CertifiedKey := do
  let certs ← ((pem.pemSliceIter cert.certPem).mapM id).mapError
    (fun e => .cert ("certificate PEM: "++e))
  if certs = [] then throw (.cert "no certificates in issued PEM")
  let key ← (pem.fromPemSlice cert.keyPem).mapError (fun e => .cert ("private key PEM: "++e))
  (pem.fromDer certs key).mapError .rustls
  pure ⟨certs,key⟩

theorem head_of_collected (replies : List (Except String Bytes)) (certs : List Bytes)
    (h : replies.mapM id = .ok certs) : replies.head?.bind Except.toOption = certs.head? := by
  rcases replies with _|⟨_|der,replies⟩
  · cases h
    rfl
  · cases h
  · rw [List.mapM_cons] at h
    obtain ⟨first,hfirst,h⟩ := except_bind_eq_ok _ _ _ h
    obtain ⟨rest,-,h⟩ := except_bind_eq_ok _ _ _ h
    cases hfirst
    cases h
    rfl

theorem certified_chain (cert : IssuedCert) (ck : CertifiedKey)
    (h : cert.intoCertifiedKey pem = .ok ck) :
    (pem.pemSliceIter cert.certPem).mapM id = .ok ck.cert ∧ ck.cert ≠ [] := by
  obtain ⟨certs,hcerts,h⟩ := except_bind_eq_ok _ _ _ h
  dsimp only at h
  split at h
  · cases h
  · rename_i hne
    obtain ⟨key,-,h⟩ := except_bind_eq_ok _ _ _ h
    obtain ⟨_,-,h⟩ := except_bind_eq_ok _ _ _ h
    cases h
    exact ⟨(mapError_eq_ok_iff _ _ _).mp hcerts,hne⟩

theorem firstCert_of_certified (cert : IssuedCert) (ck : CertifiedKey)
    (h : cert.intoCertifiedKey pem = .ok ck) : firstCert pem cert.certPem = ck.cert.head? :=
  head_of_collected _ _ (certified_chain pem cert ck h).1

theorem certified_leaf (cert : IssuedCert) (ck : CertifiedKey)
    (h : cert.intoCertifiedKey pem = .ok ck) :
    ∃ der, ck.cert.head? = some der ∧ firstCert pem cert.certPem = some der := by
  rcases hck : ck.cert with _|⟨der,rest⟩
  · exact absurd hck (certified_chain pem cert ck h).2
  · exact ⟨der,rfl,by rw [firstCert_of_certified pem cert ck h, hck]; rfl⟩

end ArchetypeProxy.Acme.Certificate

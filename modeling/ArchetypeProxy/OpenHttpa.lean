import ArchetypeProxy.Library.CounterNonce

/-!
# The OpenHTTPA crates as the proxy uses them

The crates are not part of the repository. The authenticated cipher is an
input: three functions of algorithm, key bytes, nonce, associated data and
text. A bound key counts its seals, and the seal number `k` uses the nonce
that carries the counter `k`. A session holds the keys of one handshake.
-/

set_option autoImplicit false

namespace ArchetypeProxy.OpenHttpa
open ArchetypeProxy.CounterNonce

structure Aead (A : Type) where
  newKey : A → Bytes → Except String Unit
  sealInPlace : A → Bytes → Nonce → Bytes → Bytes → Except String Bytes
  openInPlace : A → Bytes → Nonce → Bytes → Bytes → Except String Bytes

def nonceFromSlice (bs : Bytes) : Except String Nonce :=
  if h : bs.length = 12 then .ok ⟨bs,h⟩ else .error "invalid nonce length"

structure AeadKey (A : Type) where
  algorithm : A
  key : Bytes

def AeadKey.new {A : Type} (aead : Aead A) (algorithm : A) (key : Bytes) :
    Except String (AeadKey A) := do
  aead.newKey algorithm key
  return ⟨algorithm,key⟩

structure BoundAeadKey (A : Type) where
  algorithm : A
  key : Bytes
  iv : Nonce
  sealed : ℕ

def BoundAeadKey.new {A : Type} (aead : Aead A) (algorithm : A) (key : Bytes) (iv : Nonce) :
    Except String (BoundAeadKey A) := do
  aead.newKey algorithm key
  return ⟨algorithm,key,iv,0⟩

def BoundAeadKey.nextNonce {A : Type} (k : BoundAeadKey A) : Nonce :=
  counterNonce k.iv (k.sealed+1)

def BoundAeadKey.advanced {A : Type} (k : BoundAeadKey A) : BoundAeadKey A :=
  { k with sealed := k.sealed+1 }

def BoundAeadKey.seal {A : Type} (aead : Aead A) (k : BoundAeadKey A) (aad plaintext : Bytes) :
    Except String (Nonce × Bytes × BoundAeadKey A) := do
  let ciphertext ← aead.sealInPlace k.algorithm k.key k.nextNonce aad plaintext
  return (k.nextNonce,ciphertext,k.advanced)

def BoundAeadKey.open {A : Type} (aead : Aead A) (k : BoundAeadKey A) (nonce : Nonce)
    (aad ciphertext : Bytes) : Except String Bytes :=
  aead.openInPlace k.algorithm k.key nonce aad ciphertext

/-- Both vectors are twelve bytes long by derivation. -/
structure SessionKeys where
  clientWriteKey : Bytes
  clientWriteIv : Nonce
  serverWriteKey : Bytes
  serverWriteIv : Nonce
  clientMacKey : Bytes

/-- A session of the registry. Its keys may be unavailable. -/
structure AttestSession (Id Suite : Type) where
  id : Id
  alive : Bool
  cipherSuite : Suite
  keys : Option SessionKeys

structure Protocol (Id Suite A : Type) where
  aead : Aead A
  parseAtbId : String → Option Id
  showAtbId : Id → String
  hdrAttestBaseId : String
  cipherSuiteToAead : Suite → A

abbrev Registry (Id Suite : Type) := Id → Option (AttestSession Id Suite)

end ArchetypeProxy.OpenHttpa

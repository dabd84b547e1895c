import ArchetypeProxy.Acme.Issue
import ArchetypeProxy.Library.Runs

/-!
# The two files of a cached certificate

A certificate and its key are written one after the other, and either write can
fail. The cache then holds the files of two calls next to each other. The pair
it gives is that of the last call that succeeded as long as no call leaves a
readable file of its own beside a readable file of another one.
-/

set_option autoImplicit false

namespace ArchetypeProxy.Acme.CachePair
open ArchetypeProxy.Acme.Certificate ArchetypeProxy.Acme.Issue ArchetypeProxy.Fallible
open ArchetypeProxy.Runs

structure Stored where
  world : World
  last : Option IssuedCert

abbrev Call := IssuedCert × Attempt

variable (dir : String)

def store (s : Stored) (call : Call) : Stored :=
  match storeCert dir call.1 call.2 s.world with
  | (.ok _,w) => ⟨w,some call.1⟩
  | (.error _,w) => ⟨w,s.last⟩

def Together (s : Stored) : Prop := ∀ pair, s.world.loadCert = some pair → s.last = some pair

def beginning (n : ℕ) (text : String) : String := String.ofList (text.toList.take n)

/-- The writes leave two readable files that are not those of the last pair:
the beginning of the new certificate beside the old key, the new certificate
beside the old key, or the new certificate beside the beginning of its key. -/
def Tears (s : Stored) (call : Call) : Prop :=
  match call.2.certWrite, call.2.keyWrite with
  | .failed (.cut n) _, _ =>
    ∃ keyPem, s.world.files .key = some keyPem ∧
      s.last ≠ some ⟨beginning n call.1.certPem,keyPem⟩
  | .done, .failed .kept _ =>
    ∃ keyPem, s.world.files .key = some keyPem ∧ s.last ≠ some ⟨call.1.certPem,keyPem⟩
  | .done, .failed (.cut n) _ => s.last ≠ some ⟨call.1.certPem,beginning n call.1.keyPem⟩
  | _, _ => False

theorem together_iff (s : Stored) :
    Together s ↔ ∀ certPem, s.world.files .cert = some certPem →
      ∀ keyPem, s.world.files .key = some keyPem → s.last = some ⟨certPem,keyPem⟩ := by
  constructor
  · intro h certPem hcert keyPem hkey
    exact h ⟨certPem,keyPem⟩ ((loadCert_eq_some_iff _ _).mpr ⟨hcert,hkey⟩)
  · intro h pair hload
    obtain ⟨hcert,hkey⟩ := (loadCert_eq_some_iff _ _).mp hload
    exact h pair.certPem hcert pair.keyPem hkey

theorem store_cert_failed (s : Stored) (pair : IssuedCert) (a : Attempt) (left : Left)
    (source : String) (h : a.certWrite = .failed left source) :
    (store dir s (pair,a)).world.files .cert =
        a.certWrite.content (s.world.files .cert) pair.certPem ∧
      (store dir s (pair,a)).world.files .key = s.world.files .key ∧
      (store dir s (pair,a)).last = s.last := by
  rw [store, storeCert_of_failed dir pair a s.world left source h]
  simp

theorem store_cert_done (s : Stored) (pair : IssuedCert) (a : Attempt) (h : a.certWrite = .done) :
    (store dir s (pair,a)).world.files .cert = some pair.certPem ∧
      (store dir s (pair,a)).world.files .key =
        a.keyWrite.content (s.world.files .key) pair.keyPem ∧
      (store dir s (pair,a)).last = if a.keyWrite = .done then some pair else s.last := by
  rw [store, storeCert_of_done dir pair a s.world h]
  cases a.keyWrite with
  | done => simp [WriteReply.result]
  | failed left source => simp [WriteReply.result]

theorem together_store_iff (s : Stored) (hs : Together s) (call : Call) :
    Together (store dir s call) ↔ ¬ Tears s call := by
  obtain ⟨pair,a⟩ := call
  rw [together_iff] at hs ⊢
  cases hcert : a.certWrite with
  | failed left source =>
    obtain ⟨hc,hk,hl⟩ := store_cert_failed dir s pair a left source hcert
    rw [hc, hk, hl, hcert]
    cases left with
    | kept => simpa [Tears, hcert, WriteReply.content] using hs
    | lost => simp [Tears, hcert, WriteReply.content]
    | cut n => simp [Tears, hcert, WriteReply.content, beginning]
  | done =>
    obtain ⟨hc,hk,hl⟩ := store_cert_done dir s pair a hcert
    rw [hc, hk, hl]
    cases hkey : a.keyWrite with
    | done => simp [Tears, hcert, hkey, WriteReply.content]
    | failed left source =>
      cases left with
      | kept => simp [Tears, hcert, hkey, WriteReply.content]
      | lost => simp [Tears, hcert, hkey, WriteReply.content]
      | cut n => simp [Tears, hcert, hkey, WriteReply.content, beginning]

/-- In every state of a run the cache gives nothing or the last pair stored,
exactly when no call of the run tears the pair. -/
theorem cached_pair_together_iff (s : Stored) (hs : Together s) (calls : List Call) :
    (∀ before, before <+: calls → Together (run (store dir) s before)) ↔
      Throughout (store dir) (fun s call => ¬ Tears s call) s calls :=
  prefixes_iff_throughout (store dir) Together _ (fun s call h => together_store_iff dir s h call)
    s hs calls

def stores (pair : IssuedCert) : Call := (pair,smoothAttempt [] pair)

def storesCertOnly (pair : IssuedCert) : Call :=
  (pair,{ smoothAttempt [] pair with keyWrite := .failed .kept "Permission denied" })

def storesNothing (pair : IssuedCert) : Call :=
  (pair,{ smoothAttempt [] pair with certWrite := .failed .kept "Permission denied" })

theorem failed_call_keeps_pair :
    Together (run (store "cache") ⟨emptyWorld,none⟩
      [stores ⟨"a","a"⟩,storesNothing ⟨"b","b"⟩]) := by
  have hempty : Together ⟨emptyWorld,none⟩ := by
    intro pair h
    cases h
  refine (cached_pair_together_iff "cache" ⟨emptyWorld,none⟩ hempty _).mpr ?_ _ List.prefix_rfl
  rw [throughout_cons, throughout_cons]
  exact ⟨fun h => h,fun h => h,throughout_nil _ _ _⟩

theorem certificate_beside_older_key :
    (run (store "cache") ⟨emptyWorld,none⟩
        [stores ⟨"a","a"⟩,storesCertOnly ⟨"b","b"⟩]).world.loadCert = some ⟨"b","a"⟩ ∧
      ¬ Together (run (store "cache") ⟨emptyWorld,none⟩
        [stores ⟨"a","a"⟩,storesCertOnly ⟨"b","b"⟩]) := by
  refine ⟨rfl,fun h => ?_⟩
  have hlast := h ⟨"b","a"⟩ rfl
  exact absurd (Option.some.inj hlast) (by decide)

end ArchetypeProxy.Acme.CachePair

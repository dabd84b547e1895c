import ArchetypeProxy.Routes
import ArchetypeProxy.TrustedRequest
import ArchetypeProxy.Upstream

/-!
# The decision of the proxy handler

From a decrypted request the handler derives either an error sealed for the
session or one outbound request. The outcome is fixed by what the ticket
authenticates.
-/

set_option autoImplicit false

namespace ArchetypeProxy.ProxyHandler
open ArchetypeProxy.CounterNonce ArchetypeProxy.Http ArchetypeProxy.OpenHttpa
open ArchetypeProxy.Routes ArchetypeProxy.TrustedRequest ArchetypeProxy.Upstream

variable {S A : Type}

inductive Outcome (S : Type) where
  | sealedError (session : OpenHttpaSession S) (status : ℕ) (message : String)
  | outbound (session : OpenHttpaSession S) (method url : String) (body : Bytes)

def proxyHandler (table : RouteTable) (maxBodyBytes : ℕ) (req : DecryptedRequest S) : Outcome S :=
  if maxBodyBytes < req.body.length then .sealedError req.session 413 "request body too large"
  else match table.select req.host req.path with
    | none => .sealedError req.session 404 "no route matched"
    | some route =>
      let url := proxyUrl route.upstream req.path req.query
      match methodFromBytes req.method with
      | none => .sealedError req.session 400 "invalid method"
      | some method => .outbound req.session method url req.body

/-- Two requests accepted with one ticket lead to the same sealed error or the
same method, URL and body, whatever else of them differs. -/
theorem outcome_fixed_by_ticket (t : Attestation S A) (ht : Ideal t) (table : RouteTable)
    (maxBodyBytes : ℕ) (req req' : Request) (d d' : DecryptedRequest S)
    (h : fromRequest t maxBodyBytes req = .ok d) (h' : fromRequest t maxBodyBytes req' = .ok d')
    (hticket : t.decodeAttestTicket req.head.headers = t.decodeAttestTicket req'.head.headers) :
    proxyHandler table maxBodyBytes d = proxyHandler table maxBodyBytes d' := by
  rw [decrypted_eq t ht maxBodyBytes req req' d d' h h' hticket]

def soleAttested : Headers := [("attest-base-id",[55]),("attest-real-method",[80,85,84])]

def soleRequest : Attestation Unit Unit where
  openSession := fun hs =>
    if hs.values "attest-base-id" = [[55]] then .ok ⟨(),[7]⟩ else .error ⟨401,"unknown session"⟩
  decodeAttestTicket := fun hs =>
    if hs.values hdrAttestTicket = [[1]] then .ok ⟨5,[0,0,0,0,0,0,0,5]⟩ else .error .missing
  ciphertextBody := fun bs => if bs.take 1 = [123] then some "ab" else none
  withKeysForTrr := fun _ _ =>
    .ok ⟨[1],List.Vector.replicate 12 0,[2],List.Vector.replicate 12 0,[3]⟩
  hmacSha384 := fun _ => some (fun m => m)
  updateAhl := fun m p q a hs =>
    if m = "POST" ∧ p = "/v1" ∧ q = none ∧ a = "h" ∧
      hs.filter (fun x => attested x.1) = soleAttested then .ok [] else .error "no such request"
  aead := ⟨fun _ _ => .ok (),fun _ _ _ _ text => .ok text,
    fun _ _ _ _ text => if text = [171] then .ok [9] else .error "tag mismatch"⟩
  aes256Gcm := ()

theorem soleRequest_ideal : Ideal soleRequest where
  mac := by
    intro k k' f f' m m' hf hf' h
    cases hf
    cases hf'
    exact h
  ahl := by
    intro m m' p p' q q' a a' hs hs' bs h h'
    simp only [soleRequest] at h h'
    split at h <;> split at h' <;> simp at h h'
    rename_i hc hc'
    exact ⟨hc.1.trans hc'.1.symm,hc.2.1.trans hc'.2.1.symm,hc.2.2.1.trans hc'.2.2.1.symm,
      hc.2.2.2.1.trans hc'.2.2.2.1.symm,
      sameAttested_of_filter hs hs' (hc.2.2.2.2.trans hc'.2.2.2.2.symm)⟩
  aead := by
    intro key nonce aad c c' x x' h h'
    simp only [soleRequest] at h h'
    split at h <;> split at h' <;> simp at h h'
    exact h.symm.trans h'
  session := by
    intro hs hs' h _
    simp only [soleRequest, h "attest-base-id" (by decide)]

def sentRequest : Request :=
  ⟨⟨"POST",⟨some "h","/v1",none⟩,none,soleAttested++[("attest-ticket",[1])]⟩,some [123,125]⟩

def rewrittenRequest : Request :=
  ⟨⟨"POST",⟨some "h","/v1",none⟩,none,
    ("host",[101])::("accept",[42])::soleAttested++[("attest-ticket",[1])]⟩,some [123,32,125]⟩

theorem rewritten_request_same_outcome :
    ∃ d d' : DecryptedRequest Unit, fromRequest soleRequest 10 sentRequest = .ok d ∧
      fromRequest soleRequest 10 rewrittenRequest = .ok d' ∧ sentRequest ≠ rewrittenRequest ∧
      proxyHandler (RouteTable.new [⟨"all","","","http://up:80",none,.file⟩]) 10 d =
        proxyHandler (RouteTable.new [⟨"all","","","http://up:80",none,.file⟩]) 10 d' := by
  have h : fromRequest soleRequest 10 sentRequest =
      .ok ⟨⟨(),[7]⟩,"PUT","/v1",none,"h",[9]⟩ := by rfl
  have h' : fromRequest soleRequest 10 rewrittenRequest =
      .ok ⟨⟨(),[7]⟩,"PUT","/v1",none,"h",[9]⟩ := by rfl
  exact ⟨_,_,h,h',by decide,outcome_fixed_by_ticket soleRequest soleRequest_ideal _ 10 sentRequest
    rewrittenRequest _ _ h h' (by decide)⟩

end ArchetypeProxy.ProxyHandler

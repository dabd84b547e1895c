import ArchetypeProxy.HopByHop
import ArchetypeProxy.Library.Runs
import ArchetypeProxy.ProxyHandler
import ArchetypeProxy.WsFrames

/-!
# The framed response of the proxy

Every exit of the handler hands a sequence of items to the sealed stream: one
head frame, then the body. An upstream body is framed chunk by chunk against
a running total, and the scan goes on after an error item.
-/

set_option autoImplicit false

namespace ArchetypeProxy.ProxyResponse
open ArchetypeProxy.CounterNonce ArchetypeProxy.HopByHop ArchetypeProxy.ProxyHandler
open ArchetypeProxy.Routes ArchetypeProxy.Runs ArchetypeProxy.TrustedRequest
open ArchetypeProxy.WsFrames

inductive StreamFrame where
  | head (status : ℕ) (headers : List (String × String))
  | body (data : Bytes)
  deriving DecidableEq, Repr

inductive LlmError where
  | transport (message : String)
  deriving DecidableEq, Repr

abbrev Item := Except LlmError StreamFrame

abbrev Chunk := Except String Bytes

structure UpstreamResponse where
  status : ℕ
  headers : HeaderMap
  contentLength : Option ℕ
  chunks : List Chunk

/-- What sending the outbound request gives: no response, or its head with the
chunks and read errors of its body. -/
inductive UpstreamReply where
  | failed (isTimeout : Bool)
  | response (r : UpstreamResponse)

def sealError (status : ℕ) (message : String) : List Item :=
  [.ok (.head status [("content-type","text/plain")]),.ok (.body (utf8 message))]

def bodyFrame (max acc : ℕ) (chunk : Chunk) : ℕ × Item :=
  match chunk with
  | .ok c =>
    let acc := saturatingAdd acc c.length
    if max < acc then (acc,.error (.transport "upstream body too large"))
    else (acc,.ok (.body c))
  | .error _ => (acc,.error (.transport "upstream body read failed"))

def bodyFrames (max : ℕ) (chunks : List Chunk) : List Item := scan (bodyFrame max) 0 chunks

/-- A response is streamed unless it announces a body over the cap. -/
def UpstreamResponse.Announced (r : UpstreamResponse) (max : ℕ) : Prop :=
  ∀ len, r.contentLength = some len → len ≤ max

instance (r : UpstreamResponse) (max : ℕ) : Decidable (r.Announced max) :=
  match h : r.contentLength with
  | none => isTrue (by simp [UpstreamResponse.Announced, h])
  | some len => decidable_of_iff (len ≤ max) (by simp [UpstreamResponse.Announced, h])

def relay (max : ℕ) : UpstreamReply → List Item
  | .failed isTimeout => sealError (if isTimeout then 504 else 502) "upstream request failed"
  | .response r =>
    if r.Announced max then
      .ok (.head r.status (forwardedHeaders r.headers.lines))::bodyFrames max r.chunks
    else sealError 413 "upstream body too large"

variable {S : Type}

def handlerItems (table : RouteTable) (max : ℕ) (req : DecryptedRequest S)
    (reply : UpstreamReply) : List Item :=
  match proxyHandler table max req with
  | .sealedError _ status message => sealError status message
  | .outbound _ _ _ _ => relay max reply

structure FramedResponse where
  status : ℕ
  headers : List (String × String)
  body : Bytes
  deriving DecidableEq, Repr

/-- The receiver's rule: one head, then the bodies in order. -/
def decodeFrames (head : Option (ℕ × List (String × String))) (body : Bytes) :
    List StreamFrame → Except String FramedResponse
  | [] => match head with
    | none => .error "empty stream: no Head frame"
    | some (status,headers) => .ok ⟨status,headers,body⟩
  | .head status headers::frames => match head with
    | some _ => .error "unexpected second Head frame"
    | none => decodeFrames (some (status,headers)) body frames
  | .body data::frames => match head with
    | none => .error "Body frame before Head"
    | some _ => decodeFrames head (body++data) frames

def OneHead (items : List Item) : Prop :=
  ∃ status headers rest, items = .ok (.head status headers)::rest ∧
    ∀ status' headers', Except.ok (.head status' headers') ∉ rest

def bodyData : Item → Option Bytes
  | .ok (.body data) => some data
  | _ => none

/-- What a client gets of a streamed response: no more than the cap, before
an error item exactly the chunks before it, and the whole response if there
is neither a read error nor a body over the cap. -/
structure Transparent (max : ℕ) (r : UpstreamResponse) (items : List Item) : Prop where
  capped : (items.filterMap bodyData).flatten.length ≤ max
  faithful : ∃ (cs : List Bytes) (rest : List Chunk) (tail : List Item),
    r.chunks = cs.map Except.ok++rest ∧
    items = .ok (.head r.status (forwardedHeaders r.headers.lines))::
      (cs.map (fun c => .ok (.body c)))++tail ∧
    (rest = [] ∧ tail = [] ∨ rest ≠ [] ∧ ∃ e later, tail = .error e::later)
  whole : ∀ cs : List Bytes, r.chunks = cs.map Except.ok → cs.flatten.length ≤ max →
    ∃ frames, items = frames.map Except.ok ∧ decodeFrames none [] frames =
      .ok ⟨r.status,forwardedHeaders r.headers.lines,cs.flatten⟩

theorem sealError_oneHead (status : ℕ) (message : String) : OneHead (sealError status message) :=
  ⟨_,_,_,rfl,by simp⟩

theorem bodyFrame_not_head (max acc : ℕ) (chunk : Chunk) (status : ℕ)
    (headers : List (String × String)) :
    (bodyFrame max acc chunk).2 ≠ .ok (.head status headers) := by
  cases chunk with
  | error e => simp [bodyFrame]
  | ok c =>
    simp only [bodyFrame]
    split <;> simp

theorem head_not_mem_scan (max acc : ℕ) (chunks : List Chunk) (status : ℕ)
    (headers : List (String × String)) :
    Except.ok (.head status headers) ∉ scan (bodyFrame max) acc chunks := by
  intro hmem
  obtain ⟨before,after,h⟩ := List.append_of_mem hmem
  obtain ⟨_,chunk,_,_,hitem,_⟩ := scan_eq_append_cons _ _ _ _ _ _ h
  exact bodyFrame_not_head _ _ chunk status headers hitem.symm

theorem relay_oneHead (max : ℕ) (reply : UpstreamReply) : OneHead (relay max reply) := by
  cases reply with
  | failed isTimeout => exact sealError_oneHead _ _
  | response r =>
    rw [relay]
    split
    · exact ⟨_,_,_,rfl,head_not_mem_scan max 0 r.chunks⟩
    · exact sealError_oneHead _ _

theorem handlerItems_oneHead (table : RouteTable) (max : ℕ) (req : DecryptedRequest S)
    (reply : UpstreamReply) : OneHead (handlerItems table max req reply) := by
  rw [handlerItems]
  split
  · exact sealError_oneHead _ _
  · exact relay_oneHead max reply

theorem scan_bytes_le (max acc : ℕ) (hmax : max < usizeMax) (chunks : List Chunk) :
    ((scan (bodyFrame max) acc chunks).filterMap bodyData).flatten.length ≤ max-acc := by
  induction chunks generalizing acc with
  | nil => simp [scan]
  | cons chunk chunks ih =>
    cases chunk with
    | error e =>
      simp only [scan, bodyFrame, bodyData, List.filterMap_cons]
      exact ih acc
    | ok c =>
      have htotal := ih (saturatingAdd acc c.length)
      by_cases hover : max < saturatingAdd acc c.length
      · simp only [scan, bodyFrame, hover, if_true, bodyData, List.filterMap_cons]
        omega
      · have hsum : saturatingAdd acc c.length = acc+c.length := by
          simp only [saturatingAdd] at hover ⊢
          omega
        simp only [scan, bodyFrame, hover, if_false, bodyData, List.filterMap_cons,
          List.flatten_cons, List.length_append]
        omega

theorem scan_faithful (max acc : ℕ) (chunks : List Chunk) :
    ∃ (cs : List Bytes) (rest : List Chunk) (tail : List Item), chunks = cs.map Except.ok++rest ∧
      scan (bodyFrame max) acc chunks = (cs.map (fun c => .ok (.body c)))++tail ∧
      (rest = [] ∧ tail = [] ∨ rest ≠ [] ∧ ∃ e later, tail = .error e::later) := by
  induction chunks generalizing acc with
  | nil => exact ⟨[],[],[],rfl,rfl,Or.inl ⟨rfl,rfl⟩⟩
  | cons chunk chunks ih =>
    cases chunk with
    | error e => exact ⟨[],_,_,rfl,rfl,Or.inr ⟨by simp,_,_,rfl⟩⟩
    | ok c =>
      by_cases hover : max < saturatingAdd acc c.length
      · refine ⟨[],_,_,rfl,rfl,Or.inr ⟨by simp,.transport "upstream body too large",
          scan (bodyFrame max) (saturatingAdd acc c.length) chunks,?_⟩⟩
        simp only [bodyFrame, if_pos hover]
      · obtain ⟨cs,rest,tail,hchunks,hscan,hend⟩ := ih (saturatingAdd acc c.length)
        refine ⟨c::cs,rest,tail,by simp [hchunks],?_,hend⟩
        simp [scan, bodyFrame, hover, hscan]

theorem scan_whole (max acc : ℕ) (cs : List Bytes) (h : acc+cs.flatten.length ≤ max) :
    scan (bodyFrame max) acc (cs.map Except.ok) = cs.map (fun c => .ok (.body c)) := by
  induction cs generalizing acc with
  | nil => rfl
  | cons c cs ih =>
    have hacc : saturatingAdd acc c.length ≤ acc+c.length := Nat.min_le_left _ _
    rw [List.flatten_cons, List.length_append] at h
    have hover : ¬ max < saturatingAdd acc c.length := by omega
    simp [scan, bodyFrame, hover, ih (saturatingAdd acc c.length) (by omega)]

theorem decodeFrames_bodies (status : ℕ) (headers : List (String × String)) (body : Bytes)
    (cs : List Bytes) :
    decodeFrames (some (status,headers)) body (cs.map .body) =
      .ok ⟨status,headers,body++cs.flatten⟩ := by
  induction cs generalizing body with
  | nil => simp [decodeFrames]
  | cons c cs ih => simp [decodeFrames, ih]

theorem relay_transparent (max : ℕ) (hmax : max < usizeMax) (r : UpstreamResponse)
    (hlen : r.Announced max) : Transparent max r (relay max (.response r)) := by
  rw [relay, if_pos hlen]
  refine ⟨?_,?_,?_⟩
  · exact scan_bytes_le max 0 hmax r.chunks
  · obtain ⟨cs,rest,tail,hchunks,hscan,hend⟩ := scan_faithful max 0 r.chunks
    exact ⟨cs,rest,tail,hchunks,by rw [bodyFrames, hscan, List.cons_append],hend⟩
  · intro cs hchunks hle
    refine ⟨.head r.status (forwardedHeaders r.headers.lines)::cs.map .body,?_,?_⟩
    · rw [bodyFrames, hchunks, scan_whole max 0 cs (by omega)]
      simp
    · exact decodeFrames_bodies _ _ [] cs

/-- Every exit of the handler gives one head frame, and a streamed response
reaches the client within the cap and as the upstream sent it. -/
theorem response_transparent_within_cap (table : RouteTable) (max : ℕ) (hmax : max < usizeMax)
    (req : DecryptedRequest S) (reply : UpstreamReply) :
    OneHead (handlerItems table max req reply) ∧
      ∀ session method url body r,
        proxyHandler table max req = .outbound session method url body →
        reply = .response r → r.Announced max →
          Transparent max r (handlerItems table max req reply) := by
  refine ⟨handlerItems_oneHead table max req reply,?_⟩
  rintro session method url body r hout rfl hlen
  rw [handlerItems, hout]
  exact relay_transparent max hmax r hlen

def plainRequest : DecryptedRequest Unit := ⟨⟨(),[7]⟩,"GET","/v1",none,"h",[]⟩

def plainTable : RouteTable := RouteTable.new [⟨"all","","","http://up:80",none,.file⟩]

def fullBody : UpstreamResponse :=
  ⟨200,⟨[("content-type",[116])],by decide⟩,some 4,[.ok [1,2],.ok [3,4]]⟩

theorem full_body_transparent :
    OneHead (handlerItems plainTable 4 plainRequest (.response fullBody)) ∧
      Transparent 4 fullBody (handlerItems plainTable 4 plainRequest (.response fullBody)) := by
  have hout : proxyHandler plainTable 4 plainRequest =
      .outbound ⟨(),[7]⟩ "GET" "http://up:80/v1" [] := by rfl
  obtain ⟨hhead,hstream⟩ := response_transparent_within_cap plainTable 4 (by decide) plainRequest
    (.response fullBody)
  exact ⟨hhead,hstream _ _ _ _ fullBody hout rfl (by decide)⟩

/-! ## What follows an error item -/

def EndsAtError (items : List Item) : Prop :=
  ∀ before e after, items = before++.error e::after → after = []

def size : Chunk → ℕ
  | .ok c => c.length
  | .error _ => 0

def received (chunks : List Chunk) : ℕ := chunks.foldl (fun n chunk => n+size chunk) 0

/-- A read error, or the bytes received up to and with this chunk are over the
cap. The count stops at the largest machine integer. -/
def Breaks (max : ℕ) (before : List Chunk) (chunk : Chunk) : Prop :=
  (∃ e, chunk = .error e) ∨ max < min (received (before++[chunk])) usizeMax

theorem bodyFrame_total (max acc : ℕ) (chunk : Chunk) (h : acc ≤ usizeMax) :
    (bodyFrame max acc chunk).1 = min (acc+size chunk) usizeMax := by
  cases chunk with
  | error e => simpa [bodyFrame, size] using h
  | ok c =>
    simp only [bodyFrame, size]
    split <;> rfl

theorem scanState_total (max : ℕ) (chunks : List Chunk) :
    scanState (bodyFrame max) 0 chunks = min (received chunks) usizeMax := by
  induction chunks using List.reverseRecOn with
  | nil => rfl
  | append_singleton chunks chunk ih =>
    have hreceived : received (chunks++[chunk]) = received chunks+size chunk := by
      simp [received]
    rw [scanState, run_concat, ← scanState, ih, bodyFrame_total _ _ _ (Nat.min_le_right _ _),
      hreceived]
    omega

theorem bodyFrame_error_iff (max : ℕ) (before : List Chunk) (chunk : Chunk) :
    (∃ e, (bodyFrame max (scanState (bodyFrame max) 0 before) chunk).2 = .error e) ↔
      Breaks max before chunk := by
  have htotal := scanState_total max (before++[chunk])
  rw [scanState, run_concat, ← scanState] at htotal
  rw [Breaks, ← htotal]
  cases chunk with
  | error e => simp [bodyFrame]
  | ok c =>
    simp only [bodyFrame]
    split <;> simp [*]

theorem bodyFrames_ends_iff (max : ℕ) (chunks : List Chunk) :
    EndsAtError (bodyFrames max chunks) ↔
      ∀ before chunk after, chunks = before++chunk::after → Breaks max before chunk →
        after = [] := by
  constructor
  · rintro hends before chunk after rfl hbreaks
    obtain ⟨e,he⟩ := (bodyFrame_error_iff max before chunk).mpr hbreaks
    have hrest := hends (scan (bodyFrame max) 0 before) e _
      (by rw [bodyFrames, scan_append, scan, he])
    rcases after with _|⟨next,after⟩
    · rfl
    · exact absurd hrest (by simp [scan])
  · intro hinput before e after hitems
    obtain ⟨js,chunk,ks,rfl,hitem,rfl⟩ := scan_eq_append_cons _ _ _ _ _ _ hitems
    rw [hinput js chunk ks rfl ((bodyFrame_error_iff max js chunk).mp ⟨e,hitem.symm⟩)]
    rfl

theorem endsAtError_of_ok (frames : List StreamFrame) : EndsAtError (frames.map Except.ok) := by
  intro before e after h
  have hmem : Except.error e ∈ (frames.map Except.ok : List Item) := by
    rw [h]
    simp
  simp at hmem

theorem sealError_ends (status : ℕ) (message : String) : EndsAtError (sealError status message) :=
  endsAtError_of_ok [.head status [("content-type","text/plain")],.body (utf8 message)]

theorem endsAtError_cons_ok (frame : StreamFrame) (items : List Item) :
    EndsAtError (.ok frame::items) ↔ EndsAtError items := by
  constructor
  · rintro h before e after rfl
    exact h (.ok frame::before) e after rfl
  · intro h before e after heq
    rcases before with _|⟨item,before⟩
    · exact absurd (List.cons.inj heq).1 (by simp)
    · exact h before e after (List.cons.inj heq).2

/-- The items end at an error exactly when, of a streamed response, nothing
comes after a read error or after the chunk that passes the cap. -/
theorem items_end_at_error_iff (table : RouteTable) (max : ℕ) (req : DecryptedRequest S)
    (reply : UpstreamReply) :
    EndsAtError (handlerItems table max req reply) ↔
      ∀ session method url body r,
        proxyHandler table max req = .outbound session method url body →
        reply = .response r → r.Announced max →
          ∀ before chunk after, r.chunks = before++chunk::after → Breaks max before chunk →
            after = [] := by
  cases hdecision : proxyHandler table max req with
  | sealedError session status message =>
    simp only [handlerItems, hdecision]
    exact iff_of_true (sealError_ends _ _) (by simp)
  | outbound session method url body =>
    simp only [handlerItems, hdecision]
    cases reply with
    | failed isTimeout => exact iff_of_true (sealError_ends _ _) (by simp)
    | response r =>
      by_cases hlen : r.Announced max
      · rw [relay, if_pos hlen, endsAtError_cons_ok, bodyFrames_ends_iff]
        constructor
        · rintro h _ _ _ _ r' _ hr _
          cases hr
          exact h
        · intro h
          exact h session method url body r rfl rfl hlen
      · rw [relay, if_neg hlen]
        refine iff_of_true (sealError_ends _ _) ?_
        rintro _ _ _ _ r' _ hr hlen'
        cases hr
        exact absurd hlen' hlen

def longBody : UpstreamResponse := ⟨200,⟨[],by simp⟩,none,[.ok [1],.ok [2],.ok [3]]⟩

/-- The second chunk passes the cap, and an error item for the third follows. -/
theorem two_errors_past_cap :
    ¬ EndsAtError (handlerItems plainTable 1 plainRequest (.response longBody)) := by
  have hitems : handlerItems plainTable 1 plainRequest (.response longBody) =
      [.ok (.head 200 []),.ok (.body [1]),.error (.transport "upstream body too large"),
        .error (.transport "upstream body too large")] := by rfl
  intro hends
  exact absurd (hends [_,_] _ [_] hitems) (by simp)

end ArchetypeProxy.ProxyResponse

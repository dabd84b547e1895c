import Mathlib.Data.List.Sort
import ArchetypeProxy.WsRoundTrip
import ArchetypeProxy.WsSteering

/-!
# The inbound pump of one bridge

The client seals messages with increasing counters; an adversary delivers
frames of its choice in any order. The pump forwards what decodes up to the
first close, over-cap frame or rejected frame, and writes nothing after it.
Authenticity names a sealed message for each forwarded one, and the last
counter puts them in sealing order.
-/

set_option autoImplicit false

namespace ArchetypeProxy.WsPump
open ArchetypeProxy.CounterNonce ArchetypeProxy.OpenHttpa ArchetypeProxy.Runs
open ArchetypeProxy.WsFrames ArchetypeProxy.WsRoundTrip ArchetypeProxy.WsUpgrade
open ArchetypeProxy.WsBridge ArchetypeProxy.WsSteering

variable {A : Type}

structure SealedMessage where
  counter : ℕ
  payload : InPayload
  ciphertext : Bytes
  deriving DecidableEq

structure Client where
  sealed : List SealedMessage
  increasing : sealed.Pairwise (fun m n => m.counter < n.counter)
  bounded : ∀ m ∈ sealed, m.counter < counters

/-- Only what the client sealed opens, under its own nonce, and a sealed text
is sixteen bytes longer than what it opens to. -/
structure IdealAead (aead : Aead A) (key : AeadKey A) (iv : Nonce) (aad : Bytes)
    (client : Client) : Prop where
  authentic : ∀ nonce sealed text,
    aead.openInPlace key.algorithm key.key nonce aad sealed = .ok text →
      ∃ m ∈ client.sealed, nonce = counterNonce iv m.counter ∧ sealed = m.ciphertext ∧
        text = plaintext m.payload
  tag : ∀ nonce sealed text,
    aead.openInPlace key.algorithm key.key nonce aad sealed = .ok text →
      sealed.length = text.length+16

def passing : Message → Bool
  | .text _ => true
  | .ping _ => true
  | .pong _ => true
  | _ => false

section Spec
variable (aead : Aead A) (key : AeadKey A) (iv : Nonce) (aad : Bytes)

/-- The binary frames among the messages decode to the payloads, each under
the last counter the one before it left. -/
inductive Decodes : ℕ → List Message → List InPayload → ℕ → Prop where
  | nil (last : ℕ) : Decodes last [] [] last
  | frame (last mid last' : ℕ) (data : Bytes) (p : InPayload) (ms : List Message)
      (ps : List InPayload) (hcap : data.length ≤ maxWsFrame)
      (hdec : decodeInbound aead data key iv aad last = (.ok p,mid))
      (hrest : Decodes mid ms ps last') : Decodes last (.binary data::ms) (p::ps) last'
  | control (last last' : ℕ) (m : Message) (ms : List Message) (ps : List InPayload)
      (hm : passing m = true) (hrest : Decodes last ms ps last') : Decodes last (m::ms) ps last'

/-- A close, an over-cap frame or a frame that does not decode. -/
def Stops (last : ℕ) (m : Message) : Prop :=
  m = .close ∨ ∃ data, m = .binary data ∧ (maxWsFrame < data.length ∨
    ∃ e, (decodeInbound aead data key iv aad last).1 = .error e)

end Spec

def clientInputs (ms : List Message) : List Input := ms.map (fun m => .client (.message m))

def closing : List Message → List Effect
  | .close::_ => [.toUpstream .close]
  | _ => []

def Ready (b : Bridge A) : Prop := b.ended = none ∧ b.upstreamUp = true

theorem outputs_ended (aead : Aead A) (b : Bridge A) (is : List Input)
    (h : b.ended.isSome = true) : outputs (Bridge.step aead) b is = [] := by
  induction is with
  | nil => rfl
  | cons i is ih => simp [outputs, Bridge.step, h, ih]

theorem pump_cases (aead : Aead A) (b : Bridge A) (h : Ready b) (m : Message) :
    (passing m = true ∧ (b.step aead (.client (.message m))).1 = b ∧
      (b.step aead (.client (.message m))).2.filterMap dataMessage = []) ∨
    (∃ data p last, m = .binary data ∧ data.length ≤ maxWsFrame ∧
      decodeInbound aead data b.inKey b.inIv b.aad b.lastCounter = (.ok p,last) ∧
      b.step aead (.client (.message m)) =
        ({ b with lastCounter := last },[.forwarded data (InPayload.toUpstream p)])) ∨
    (Stops aead b.inKey b.inIv b.aad b.lastCounter m ∧
      (b.step aead (.client (.message m))).1.ended.isSome = true ∧
      (b.step aead (.client (.message m))).2 = closing [m]) := by
  obtain ⟨hend,hup⟩ := h
  have hstep : b.step aead (.client (.message m)) = b.clientToUpstream aead (.message m) := by
    simp [Bridge.step, hend]
  rw [hstep]
  cases m with
  | text t => exact Or.inl ⟨rfl,rfl,rfl⟩
  | ping p =>
    exact Or.inl ⟨rfl,by simp [Bridge.clientToUpstream, Bridge.sendUpstream, hup, dataMessage]⟩
  | pong p =>
    exact Or.inl ⟨rfl,by simp [Bridge.clientToUpstream, Bridge.sendUpstream, hup, dataMessage]⟩
  | close =>
    refine Or.inr (Or.inr ⟨Or.inl rfl,rfl,?_⟩)
    simp [Bridge.clientToUpstream, hup, closing]
  | binary data =>
    simp only [Bridge.clientToUpstream, Bridge.receiveFrame]
    by_cases hcap : maxWsFrame < data.length
    · rw [if_pos hcap]
      exact Or.inr (Or.inr ⟨Or.inr ⟨data,rfl,Or.inl hcap⟩,rfl,rfl⟩)
    · rw [if_neg hcap]
      cases hd : decodeInbound aead data b.inKey b.inIv b.aad b.lastCounter with
      | mk result last =>
        cases result with
        | error e =>
          exact Or.inr (Or.inr ⟨Or.inr ⟨data,rfl,Or.inr ⟨e,by rw [hd]⟩⟩,rfl,rfl⟩)
        | ok p =>
          refine Or.inr (Or.inl ⟨data,p,last,rfl,not_lt.mp hcap,hd,?_⟩)
          simp [Bridge.sendUpstream, hup]

theorem pump_run (aead : Aead A) (b : Bridge A) (h : Ready b) (ms : List Message) :
    ∃ before rest ps last, ms = before++rest ∧
      Decodes aead b.inKey b.inIv b.aad b.lastCounter before ps last ∧
      (rest = [] ∨ ∃ m after, rest = m::after ∧
        Stops aead b.inKey b.inIv b.aad last m) ∧
      (outputs (Bridge.step aead) b (clientInputs before)).filterMap dataMessage =
        ps.map InPayload.toUpstream ∧
      outputs (Bridge.step aead) b (clientInputs ms) =
        outputs (Bridge.step aead) b (clientInputs before) ++ closing rest := by
  induction ms generalizing b with
  | nil => exact ⟨[],[],[],b.lastCounter,rfl,.nil _,Or.inl rfl,rfl,rfl⟩
  | cons m ms ih =>
    rcases pump_cases aead b h m with ⟨hm,hsame,hnone⟩ | ⟨data,p,mid,rfl,hcap,hdec,hstep⟩ |
      ⟨hstop,hend,hout⟩
    · obtain ⟨before,rest,ps,last,rfl,hd,hr,hdata,hall⟩ := ih b h
      refine ⟨m::before,rest,ps,last,rfl,.control _ _ m before ps hm hd,hr,?_,?_⟩
      · simp only [clientInputs, List.map_cons, outputs, List.filterMap_append, hnone, hsame,
          List.nil_append] at hdata ⊢
        exact hdata
      · simp only [clientInputs, List.map_cons, outputs, hsame, List.append_assoc] at hall ⊢
        rw [hall]
    · obtain ⟨before,rest,ps,last,rfl,hd,hr,hdata,hall⟩ := ih { b with lastCounter := mid } h
      refine ⟨.binary data::before,rest,p::ps,last,rfl,.frame _ mid _ data p before ps hcap hdec hd,
        hr,?_,?_⟩
      · simp only [clientInputs, List.map_cons, outputs, hstep, List.filterMap_append] at hdata ⊢
        rw [hdata]
        rfl
      · simp only [clientInputs, List.map_cons, outputs, hstep, List.append_assoc] at hall ⊢
        rw [hall]
    · refine ⟨[],m::ms,[],b.lastCounter,rfl,.nil _,Or.inr ⟨m,ms,rfl,hstop⟩,rfl,?_⟩
      simp only [clientInputs, List.map_cons, outputs, List.map_nil, List.nil_append]
      rw [outputs_ended aead _ _ hend, hout, List.append_nil]
      cases m <;> rfl

theorem decode_sealed (aead : Aead A) (key : AeadKey A) (iv : Nonce) (aad : Bytes)
    (client : Client) (h : IdealAead aead key iv aad client) (data : Bytes) (p : InPayload)
    (last mid : ℕ) (hdec : decodeInbound aead data key iv aad last = (.ok p,mid)) :
    ∃ m ∈ client.sealed, m.payload = p ∧ m.counter = mid ∧ last < mid := by
  obtain ⟨_,hlt,hmid⟩ := decode_ok aead data key iv aad last mid p hdec
  obtain ⟨nonce,text,htake,hopen,hplain⟩ := decode_opened aead data key iv aad last mid p hdec
  obtain ⟨m,hm,hnonce,_,htext⟩ := h.authentic nonce _ text hopen
  refine ⟨m,hm,?_,?_,hlt⟩
  · rw [htext, decodePlaintext_plaintext, Except.ok.injEq] at hplain
    exact hplain
  · rw [hmid, htake, hnonce, extractCounter, nonceCounter_counterNonce,
      Nat.mod_eq_of_lt (client.bounded m hm)]

theorem decodes_sealed (aead : Aead A) (key : AeadKey A) (iv : Nonce) (aad : Bytes)
    (client : Client) (h : IdealAead aead key iv aad client) (last last' : ℕ) (ms : List Message)
    (ps : List InPayload) (hd : Decodes aead key iv aad last ms ps last') :
    ∃ accepted : List SealedMessage, ps = accepted.map SealedMessage.payload ∧
      accepted.Pairwise (fun m n => m.counter < n.counter) ∧
      ∀ m ∈ accepted, m ∈ client.sealed ∧ last < m.counter := by
  induction hd with
  | nil last => exact ⟨[],rfl,.nil,by simp⟩
  | frame last mid last' data p ms ps hcap hdec hrest ih =>
    obtain ⟨accepted,rfl,hinc,hall⟩ := ih
    obtain ⟨m,hm,rfl,rfl,hlt⟩ := decode_sealed aead key iv aad client h data p last mid hdec
    refine ⟨m::accepted,rfl,List.pairwise_cons.mpr ⟨fun n hn => (hall n hn).2,hinc⟩,?_⟩
    intro n hn
    rcases List.mem_cons.mp hn with rfl | hn
    · exact ⟨hm,hlt⟩
    · exact ⟨(hall n hn).1,lt_trans hlt (hall n hn).2⟩
  | control last last' m ms ps hm hrest ih => exact ih

theorem sublist_of_increasing (client : Client) (accepted : List SealedMessage)
    (hinc : accepted.Pairwise (fun m n => m.counter < n.counter))
    (hall : ∀ m ∈ accepted, m ∈ client.sealed) : accepted.Sublist client.sealed := by
  have ha : Std.Antisymm (fun m n : SealedMessage => m.counter < n.counter) :=
    ⟨fun _ _ h h' => absurd h (lt_asymm h')⟩
  have hi : Std.Irrefl (fun m n : SealedMessage => m.counter < n.counter) :=
    ⟨fun m => lt_irrefl m.counter⟩
  exact List.sublist_of_subperm_of_pairwise (List.subperm_of_subset hinc.nodup hall) hinc
    client.increasing

/-! ## Indexing -/

def sliceTo (bs : Bytes) (n : ℕ) : Option Bytes := if n ≤ bs.length then some (bs.take n) else none

def sliceFrom (bs : Bytes) (n : ℕ) : Option Bytes :=
  if n ≤ bs.length then some (bs.drop n) else none

def extractCounterChecked (nonce : Bytes) (iv : Nonce) : Option ℕ := do
  let n ← (sliceTo nonce 12).bind (sliceFrom · 4)
  let v ← (sliceTo iv.toList 12).bind (sliceFrom · 4)
  return ofBeBytes (xorBytes n v)

def decodePlaintextChecked (text : Bytes) : Option (Except WsError InPayload) :=
  match text.head? with
  | none => some (.error .emptyPlaintext)
  | some b =>
    if b = msgText then
      (sliceFrom text 1).map (fun rest =>
        match String.fromUTF8? ⟨rest.toArray⟩ with
        | some t => .ok (.text t)
        | none => .error .invalidUtf8)
    else if b = msgBinary then (sliceFrom text 1).map (fun rest => .ok (.binary rest))
    else some (.error (.unknownType b))

/-- The decoder with every slice checked; `none` stands for an index out of
bounds. -/
def decodeInboundChecked (aead : Aead A) (frame : Bytes) (key : AeadKey A) (iv : Nonce)
    (aad : Bytes) (lastCounter : ℕ) : Option (Except WsError InPayload × ℕ) :=
  if frame.length < minFrame then some (.error (.frameTooShort frame.length),lastCounter)
  else (sliceTo frame 12).bind (fun head =>
    match nonceFromSlice head with
    | .error e => some (.error (.badNonce e),lastCounter)
    | .ok nonce => (extractCounterChecked head iv).bind (fun counter =>
      if counter ≤ lastCounter then some (.error .nonceReplay,lastCounter)
      else (sliceFrom frame 12).bind (fun sealed =>
        match aead.openInPlace key.algorithm key.key nonce aad sealed with
        | .error e => some (.error (.openFailed e),counter)
        | .ok text => (decodePlaintextChecked text).map (fun r => (r,counter)))))

theorem extractCounter_checked (nonce : Bytes) (iv : Nonce) (h : nonce.length = 12) :
    extractCounterChecked nonce iv = some (extractCounter nonce iv) := by
  have hiv : iv.toList.length = 12 := iv.toList_length
  have hn : (sliceTo nonce 12).bind (sliceFrom · 4) = some (nonce.drop 4) := by
    simp [sliceTo, sliceFrom, h, List.take_of_length_le (le_of_eq h)]
  have hv : (sliceTo iv.toList 12).bind (sliceFrom · 4) = some (iv.toList.drop 4) := by
    simp [sliceTo, sliceFrom, List.take_of_length_le (le_of_eq hiv)]
  have htake : (nonce.drop 4).take 8 = nonce.drop 4 := List.take_of_length_le (by simp [h])
  rw [extractCounterChecked, hn, hv, extractCounter, nonceCounter, htake]
  rfl

theorem decodePlaintext_checked (text : Bytes) :
    decodePlaintextChecked text = some (decodePlaintext text) := by
  cases text with
  | nil => rfl
  | cons b rest =>
    have hs : sliceFrom (b::rest) 1 = some rest := by simp [sliceFrom]
    simp only [decodePlaintextChecked, List.head?_cons, hs, Option.map_some, decodePlaintext]
    split
    · rfl
    · split <;> rfl

theorem decode_checked (aead : Aead A) (frame : Bytes) (key : AeadKey A) (iv : Nonce)
    (aad : Bytes) (last : ℕ) :
    decodeInboundChecked aead frame key iv aad last =
      some (decodeInbound aead frame key iv aad last) := by
  unfold decodeInboundChecked decodeInbound
  split
  · rfl
  · rename_i hlen
    have hlong : 12 ≤ frame.length := by
      simp only [minFrame] at hlen
      omega
    have htake : sliceTo frame 12 = some (frame.take 12) := if_pos hlong
    have hdrop : sliceFrom frame 12 = some (frame.drop 12) := if_pos hlong
    rw [htake, Option.bind_some]
    cases nonceFromSlice (frame.take 12) with
    | error e => rfl
    | ok nonce =>
      dsimp only
      rw [extractCounter_checked _ iv (by simp [hlong]), Option.bind_some, hdrop, Option.bind_some]
      split
      · rfl
      · cases aead.openInPlace key.algorithm key.key nonce aad (frame.drop 12) with
        | error e => rfl
        | ok text => simp only [decodePlaintext_checked, Option.map_some]

theorem decode_nonempty (aead : Aead A) (key : AeadKey A) (iv : Nonce) (aad : Bytes)
    (client : Client) (h : IdealAead aead key iv aad client) (frame : Bytes) (last : ℕ) :
    (decodeInbound aead frame key iv aad last).1 ≠ .error .emptyPlaintext := by
  have hdecoding := decode_decoding aead frame key iv aad last
  generalize decodeInbound aead frame key iv aad last = r at hdecoding ⊢
  cases hdecoding with
  | short => simp
  | badNonce e => simp
  | replay => simp
  | unopened e counter => simp
  | opened nonce text result counter hlen _ _ _ hopen hresult =>
    rintro rfl
    rcases decodePlaintext_error text _ hresult with ⟨rfl,-⟩|he|⟨b,he⟩
    · have htag := h.tag nonce _ _ hopen
      simp only [List.length_drop, List.length_nil, minFrame] at htag hlen
      omega
    · cases he
    · cases he

theorem open_ready (aead : Aead A) (keys : WsKeys A) (aad : Bytes) (b : Bridge A)
    (h : openBridge aead keys aad = .ok b) : Ready b ∧ b.lastCounter = 0 := by
  unfold openBridge at h
  split at h
  · cases h
  · split at h
    · cases h
    · cases h
      exact ⟨⟨rfl,rfl⟩,rfl⟩

/-- The pump of a fresh bridge over any messages. The data it writes are the
decodings up to the first stop, nothing but a close is written from there on,
and they are payloads of sealed messages in sealing order. No frame is read
out of bounds or opens to nothing. -/
theorem ordered_fail_stop (aead : Aead A) (keys : WsKeys A) (aad : Bytes) (b : Bridge A)
    (client : Client) (hopen : openBridge aead keys aad = .ok b)
    (hideal : IdealAead aead b.inKey b.inIv b.aad client) (ms : List Message) :
    (∃ before rest ps last, ms = before++rest ∧
      Decodes aead b.inKey b.inIv b.aad 0 before ps last ∧
      (rest = [] ∨ ∃ m after, rest = m::after ∧ Stops aead b.inKey b.inIv b.aad last m) ∧
      (outputs (Bridge.step aead) b (clientInputs ms)).filterMap dataMessage =
        ps.map InPayload.toUpstream ∧
      outputs (Bridge.step aead) b (clientInputs ms) =
        outputs (Bridge.step aead) b (clientInputs before) ++ closing rest ∧
      ∃ accepted : List SealedMessage, accepted.Sublist client.sealed ∧
        ps = accepted.map SealedMessage.payload) ∧
    ∀ frame last,
      decodeInboundChecked aead frame b.inKey b.inIv b.aad last =
        some (decodeInbound aead frame b.inKey b.inIv b.aad last) ∧
      (decodeInbound aead frame b.inKey b.inIv b.aad last).1 ≠ .error .emptyPlaintext := by
  obtain ⟨hready,hzero⟩ := open_ready aead keys aad b hopen
  constructor
  · obtain ⟨before,rest,ps,last,hms,hd,hr,hdata,hall⟩ := pump_run aead b hready ms
    rw [hzero] at hd
    obtain ⟨accepted,hps,hinc,hmem⟩ := decodes_sealed aead _ _ _ client hideal 0 last before ps hd
    have hclosing : (closing rest).filterMap dataMessage = [] := by
      unfold closing
      split <;> rfl
    refine ⟨before,rest,ps,last,hms,hd,hr,?_,hall,accepted,?_,hps⟩
    · rw [hall, List.filterMap_append, hdata, hclosing, List.append_nil]
    · exact sublist_of_increasing client accepted hinc fun m hm => (hmem m hm).1
  · intro frame last
    exact ⟨decode_checked aead frame _ _ _ last,decode_nonempty aead _ _ _ client hideal frame last⟩

def tagged (m : InPayload) : Bytes := plaintext m++List.replicate 16 0

def pairClient : Client where
  sealed := [⟨1,.text "hi",tagged (.text "hi")⟩,⟨2,.binary [5],tagged (.binary [5])⟩]
  increasing := by decide
  bounded := by decide

def pairIv : Nonce := List.Vector.replicate 12 3

def pairAead : Aead Unit where
  newKey := fun _ _ => .ok ()
  sealInPlace := fun _ _ _ _ text => .ok (text++List.replicate 16 0)
  openInPlace := fun _ key nonce aad text =>
    match pairClient.sealed.find? (fun m => decide (key = [2] ∧ aad = [7] ∧
      nonce = counterNonce pairIv m.counter ∧ text = m.ciphertext)) with
    | some m => .ok (plaintext m.payload)
    | none => .error "tag mismatch"

theorem pairAead_opens (key aad sealed text : Bytes) (nonce : Nonce)
    (h : pairAead.openInPlace () key nonce aad sealed = .ok text) :
    ∃ m ∈ pairClient.sealed, nonce = counterNonce pairIv m.counter ∧ sealed = m.ciphertext ∧
      text = plaintext m.payload := by
  simp only [pairAead] at h
  split at h
  · rename_i m hm
    have hp := List.find?_some hm
    simp only [decide_eq_true_eq] at hp
    exact ⟨m,List.mem_of_find?_eq_some hm,hp.2.2.1,hp.2.2.2,(Except.ok.inj h).symm⟩
  · cases h

theorem pairAead_ideal : IdealAead pairAead ⟨(),[2]⟩ pairIv [7] pairClient where
  authentic := fun nonce sealed text h => pairAead_opens [2] [7] sealed text nonce h
  tag := by
    intro nonce sealed text h
    obtain ⟨m,hm,_,rfl,rfl⟩ := pairAead_opens [2] [7] sealed text nonce h
    have hall : ∀ n ∈ pairClient.sealed, n.ciphertext.length = (plaintext n.payload).length+16 := by
      decide
    exact hall m hm

def pairBridge : Bridge Unit := ⟨⟨(),[1],pairIv,0⟩,⟨(),[2]⟩,pairIv,[7],0,true,true,none⟩

def secondFrame : Bytes := (counterNonce pairIv 2).toList++tagged (.binary [5])

theorem replayed_frame_stops_pump :
    (∃ accepted : List SealedMessage, accepted.Sublist pairClient.sealed ∧
      (outputs (Bridge.step pairAead) pairBridge (clientInputs
        [.binary secondFrame,.ping [9],.binary secondFrame,.ping [8]])).filterMap dataMessage =
        accepted.map (fun m => InPayload.toUpstream m.payload)) ∧
    outputs (Bridge.step pairAead) pairBridge (clientInputs
      [.binary secondFrame,.ping [9],.binary secondFrame,.ping [8]]) =
      [.forwarded secondFrame (.binary [5]),.toUpstream (.ping [9])] := by
  obtain ⟨⟨_,_,ps,_,_,_,_,hdata,_,accepted,hsub,hps⟩,_⟩ := ordered_fail_stop pairAead
    ⟨[1],pairIv,[2],pairIv,()⟩ [7] pairBridge pairClient rfl pairAead_ideal
    [.binary secondFrame,.ping [9],.binary secondFrame,.ping [8]]
  refine ⟨⟨accepted,hsub,?_⟩,by decide⟩
  rw [hdata, hps, List.map_map]
  rfl

end ArchetypeProxy.WsPump

import ArchetypeProxy.Library.Codecs
import ArchetypeProxy.Library.Fallible
import ArchetypeProxy.Library.HashChain
import ArchetypeProxy.Library.Numerals
import ArchetypeProxy.Library.Packets
import ArchetypeProxy.ProxyResponse

/-!
# The sealed response stream

A frame travels as JSON, the bytes of a body in hexadecimal, and each frame is
sealed into one packet. The nonce carries the counter of the packet. The
associated data ends in a hash chain over the sealed texts before it. The
cipher, the hash and the JSON crate are inputs. So is the sealing side, which
belongs to the server crate: what the receiver documents of it is a
hypothesis.
-/

set_option autoImplicit false

namespace ArchetypeProxy.ResponseStream
open ArchetypeProxy.Codecs ArchetypeProxy.CounterNonce ArchetypeProxy.Fallible
open ArchetypeProxy.HashChain ArchetypeProxy.Numerals ArchetypeProxy.OpenHttpa
open ArchetypeProxy.Packets ArchetypeProxy.Runs
open ArchetypeProxy.ProxyResponse (StreamFrame Item FramedResponse OneHead)

inductive WireFrame where
  | head (status : ℕ) (headers : List (String × String))
  | body (data : String)
  deriving DecidableEq, Repr

abbrev Digest := List.Vector UInt8 48

/-- The crates on both sides. The JSON reader reports an error of a field's own
decoder together with its place in the text. -/
structure StreamCrates (A : Type) where
  aead : Aead A
  aes256Gcm : A
  sha384 : Bytes → Digest
  toVec : WireFrame → Bytes
  fromSlice : Bytes → Except String WireFrame
  custom : Bytes → String → String

def wire : StreamFrame → WireFrame
  | .head status headers => .head status headers
  | .body data => .body (hexEncode data)

variable {A : Type} (t : StreamCrates A)

def serialize (frame : StreamFrame) : Bytes := t.toVec (wire frame)

def unwire (text : Bytes) : WireFrame → Except String StreamFrame
  | .head status headers => .ok (.head status headers)
  | .body data => match decodeHex data with
    | .ok bytes => .ok (.body bytes)
    | .error e => .error (t.custom text e.text)

def deserialize (text : Bytes) : Except String StreamFrame := t.fromSlice text >>= unwire t text

def zeroHash : Digest := List.Vector.replicate 48 0

def absorb (prevHash : Digest) (ciphertext : Bytes) : Digest :=
  t.sha384 (prevHash.toList++ciphertext)

/-! ## The receiver -/

def openFrame (keys : Except String SessionKeys) (aad : Bytes) (prevHash : Digest) (p : Packet) :
    Except String (StreamFrame × Digest) := do
  let keys ← keys
  let key ← AeadKey.new t.aead t.aes256Gcm keys.serverWriteKey
  let plaintext ← (t.aead.openInPlace key.algorithm key.key
    (counterNonce keys.serverWriteIv p.counter.toNat) (aad++prevHash.toList) p.payload).mapError
      (fun e => "stream decrypt failed: "++e)
  let frame ← (deserialize t plaintext).mapError (fun e => "malformed stream frame: "++e)
  return (frame,absorb t prevHash p.payload)

structure Assembly where
  status : Option ℕ
  headers : List (String × String)
  body : Bytes
  deriving DecidableEq, Repr

def accept (a : Assembly) : StreamFrame → Except String Assembly
  | .head status headers =>
    if a.status.isSome then .error "unexpected second Head frame"
    else .ok ⟨some status,headers,a.body⟩
  | .body data =>
    if a.status.isNone then .error "Body frame before Head"
    else .ok ⟨a.status,a.headers,a.body++data⟩

structure Receiver where
  prevHash : Digest
  assembly : Assembly

def receive (keys : Except String SessionKeys) (aad : Bytes) (r : Receiver) (p : Packet) :
    Except String Receiver := do
  let (frame,nextHash) ← openFrame t keys aad r.prevHash p
  let assembly ← accept r.assembly frame
  return ⟨nextHash,assembly⟩

def truncation : Truncated → String
  | .header => "truncated frame header"
  | .body => "truncated frame body"

def finish (a : Assembly) : Except String FramedResponse :=
  match a.status with
  | none => .error "empty stream: no Head frame"
  | some status => .ok ⟨status,a.headers,a.body⟩

def start : Receiver := ⟨zeroHash,none,[],[]⟩

def decodeFrames (keys : Except String SessionKeys) (aad raw : Bytes) :
    Except String FramedResponse := do
  let r ← receiveAll (receive t keys aad) truncation start raw
  finish r.assembly

/-! ## The sender -/

def framesBeforeError : List Item → List StreamFrame
  | .ok frame::items => frame::framesBeforeError items
  | _ => []

/-- The server crate's side: the packets it makes of what the handler hands
over, under the counters it draws from the session. -/
abbrev SealStream := SessionKeys → Bytes → List UInt64 → List Item → Except String (List Packet)

abbrev Entry := StreamFrame × Packet

/-- Each packet is its frame, sealed under the nonce of the counter it shows and
the chain over the packets before it. -/
def Chained (keys : SessionKeys) (aad : Bytes) : Digest → List Entry → Prop
  | _, [] => True
  | prevHash, (frame,p)::rest =>
    t.aead.sealInPlace t.aes256Gcm keys.serverWriteKey
        (counterNonce keys.serverWriteIv p.counter.toNat) (aad++prevHash.toList)
        (serialize t frame) = .ok p.payload ∧
      Chained keys aad (absorb t prevHash p.payload) rest

/-- What the receiver documents of `seal_stream`. -/
structure SealsFrames (sealStream : SealStream) (keys : SessionKeys) (aad : Bytes) : Prop where
  each : ∀ counters items packets, sealStream keys aad counters items = .ok packets →
    packets.length = (framesBeforeError items).length
  chained : ∀ counters items packets, sealStream keys aad counters items = .ok packets →
    Chained t keys aad zeroHash ((framesBeforeError items).zip packets)

structure SealedResponse (sealStream : SealStream) (keys : SessionKeys) (aad : Bytes) where
  items : List Item
  oneHead : OneHead items
  counters : List UInt64
  packets : List Packet
  sealed : sealStream keys aad counters items = .ok packets

section Sealed
variable {sealStream : SealStream} {keys : SessionKeys} {aad : Bytes}

def SealedResponse.raw (s : SealedResponse sealStream keys aad) : Bytes := encodeAll s.packets

def SealedResponse.entries (s : SealedResponse sealStream keys aad) : List Entry :=
  (framesBeforeError s.items).zip s.packets

end Sealed

/-- What is assumed of the crates for a frame to arrive: the key is accepted,
and what was sealed opens to the text. -/
structure Working (keys : SessionKeys) : Prop where
  newKey : t.aead.newKey t.aes256Gcm keys.serverWriteKey = .ok ()
  opens : ∀ nonce aad text ciphertext,
    t.aead.sealInPlace t.aes256Gcm keys.serverWriteKey nonce aad text = .ok ciphertext →
    t.aead.openInPlace t.aes256Gcm keys.serverWriteKey nonce aad ciphertext = .ok text

def Readable (frames : List StreamFrame) : Prop :=
  ∀ frame ∈ frames, t.fromSlice (serialize t frame) = .ok (wire frame)

variable {t}

theorem deserialize_serialize (frame : StreamFrame)
    (h : t.fromSlice (serialize t frame) = .ok (wire frame)) :
    deserialize t (serialize t frame) = .ok frame := by
  rw [deserialize, h]
  cases frame with
  | head status headers => rfl
  | body data =>
    change unwire t _ (.body (hexEncode data)) = _
    rw [unwire, decodeHex_eq_ok _ data (toAsciiLowercase_hexEncode data)]

theorem openFrame_sealed (keys : SessionKeys) (hw : Working t keys) (aad : Bytes)
    (prevHash : Digest) (frame : StreamFrame) (p : Packet)
    (hread : t.fromSlice (serialize t frame) = .ok (wire frame))
    (h : t.aead.sealInPlace t.aes256Gcm keys.serverWriteKey
      (counterNonce keys.serverWriteIv p.counter.toNat) (aad++prevHash.toList)
      (serialize t frame) = .ok p.payload) :
    openFrame t (.ok keys) aad prevHash p = .ok (frame,absorb t prevHash p.payload) := by
  have hkey : AeadKey.new t.aead t.aes256Gcm keys.serverWriteKey =
      .ok ⟨t.aes256Gcm,keys.serverWriteKey⟩ := by
    rw [AeadKey.new, hw.newKey]
    rfl
  have hopen := hw.opens _ _ _ _ h
  have hframe := deserialize_serialize frame hread
  simp only [openFrame, hkey, hopen, hframe, Except.mapError, bind, Except.bind, pure,
    Except.pure]

section Entries
variable {sealStream : SealStream} {keys : SessionKeys} {aad : Bytes}

theorem SealedResponse.frames (hs : SealsFrames t sealStream keys aad)
    (s : SealedResponse sealStream keys aad) :
    s.entries.map Prod.fst = framesBeforeError s.items :=
  List.map_fst_zip (Nat.le_of_eq (hs.each _ _ _ s.sealed).symm)

theorem SealedResponse.entries_packets (hs : SealsFrames t sealStream keys aad)
    (s : SealedResponse sealStream keys aad) : s.entries.map Prod.snd = s.packets :=
  List.map_snd_zip (Nat.le_of_eq (hs.each _ _ _ s.sealed))

theorem receive_chained (hw : Working t keys) (before after : List Entry) (r : Receiver)
    (hread : Readable t (before.map Prod.fst))
    (h : Chained t keys aad r.prevHash (before++after)) :
    (before.map Prod.snd).foldlM (receive t (.ok keys) aad) r =
      (before.map Prod.fst).foldlM accept r.assembly >>= fun a =>
        .ok ⟨run (absorb t) r.prevHash (before.map (fun e => e.2.payload)),a⟩ := by
  induction before generalizing r with
  | nil => rfl
  | cons e before ih =>
    obtain ⟨frame,p⟩ := e
    have hopen := openFrame_sealed keys hw aad r.prevHash frame p (hread _ (by simp)) h.1
    have hreceive : receive t (.ok keys) aad r p = accept r.assembly frame >>= fun a =>
        .ok ⟨absorb t r.prevHash p.payload,a⟩ := by
      rw [receive, hopen]
      rfl
    simp only [List.map_cons, List.foldlM_cons, hreceive, bind_assoc]
    refine bind_congr fun a => ?_
    exact ih ⟨absorb t r.prevHash p.payload,a⟩ (fun f hf => hread f (List.mem_cons_of_mem _ hf)) h.2

end Entries

/-! ## What the client makes of a cut response -/

theorem framesBeforeError_of_oneHead (items : List Item) (h : OneHead items) :
    ∃ status headers, ∃ cs : List Bytes,
      framesBeforeError items = .head status headers::cs.map .body := by
  obtain ⟨status,headers,rest,rfl,hrest⟩ := h
  suffices hbodies : ∃ cs : List Bytes, framesBeforeError rest = cs.map .body by
    obtain ⟨cs,hcs⟩ := hbodies
    exact ⟨status,headers,cs,congrArg (List.cons _) hcs⟩
  induction rest with
  | nil => exact ⟨[],rfl⟩
  | cons item rest ih =>
    obtain ⟨cs,hcs⟩ := ih (fun s h hmem => hrest s h (List.mem_cons_of_mem _ hmem))
    cases item with
    | error e => exact ⟨[],rfl⟩
    | ok frame =>
      cases frame with
      | head s h => exact absurd (List.mem_cons_self ..) (hrest s h)
      | body data => exact ⟨data::cs,congrArg (List.cons _) hcs⟩

theorem accept_bodies (status : ℕ) (headers : List (String × String)) (body : Bytes)
    (cs : List Bytes) :
    (cs.map StreamFrame.body).foldlM accept ⟨some status,headers,body⟩ =
      .ok ⟨some status,headers,body++cs.flatten⟩ := by
  induction cs generalizing body with
  | nil => simp [pure, Except.pure]
  | cons c cs ih =>
    rw [List.map_cons, List.foldlM_cons]
    change List.foldlM accept ⟨some status,headers,body++c⟩ _ = _
    rw [ih, List.flatten_cons, List.append_assoc]

theorem accept_response (status : ℕ) (headers : List (String × String)) (cs : List Bytes) :
    (StreamFrame.head status headers::cs.map .body).foldlM accept start.assembly =
      .ok ⟨some status,headers,cs.flatten⟩ := by
  rw [List.foldlM_cons]
  exact accept_bodies status headers [] cs

def SealedResponse.boundary {sealStream : SealStream} {keys : SessionKeys} {aad : Bytes}
    (s : SealedResponse sealStream keys aad) (k : ℕ) : ℕ := (encodeAll (s.packets.take k)).length

theorem beginning_of_response (status : ℕ) (headers : List (String × String)) (cs : List Bytes)
    (frames : List StreamFrame) (h : frames <+: .head status headers::cs.map .body) :
    frames = [] ∨ ∃ k ≤ cs.length, frames.length = k+1 ∧
      frames = .head status headers::(cs.take k).map .body := by
  rcases List.prefix_cons_iff.mp h with rfl | ⟨tail,rfl,htail⟩
  · exact Or.inl rfl
  · have hlength := htail.length_le
    rw [List.length_map] at hlength
    refine Or.inr ⟨tail.length,hlength,rfl,?_⟩
    rw [List.map_take, ← List.prefix_iff_eq_take.mp htail]

section Cut
variable {sealStream : SealStream} {keys : SessionKeys} {aad : Bytes}

theorem assembled_before (hw : Working t keys) (hs : SealsFrames t sealStream keys aad)
    (s : SealedResponse sealStream keys aad) (hread : Readable t (framesBeforeError s.items))
    (done rest : List Packet) (hsplit : s.packets = done++rest) (status : ℕ)
    (headers : List (String × String)) (cs : List Bytes)
    (hframes : framesBeforeError s.items = .head status headers::cs.map .body) :
    (done = [] ∧ done.foldlM (receive t (.ok keys) aad) start = .ok start) ∨
      ∃ k ≤ cs.length, done.length = k+1 ∧ ∃ h,
        done.foldlM (receive t (.ok keys) aad) start =
          .ok ⟨h,some status,headers,(cs.take k).flatten⟩ := by
  rw [← s.entries_packets hs] at hsplit
  obtain ⟨before,after,hentries,rfl,_⟩ := List.map_eq_append_iff.mp hsplit
  have hpart : before.map Prod.fst <+: framesBeforeError s.items := by
    rw [← s.frames hs, hentries, List.map_append]
    exact List.prefix_append _ _
  have hchained : Chained t keys aad zeroHash (before++after) := by
    rw [← hentries]
    exact hs.chained _ _ _ s.sealed
  rw [receive_chained hw before after start (fun f hf => hread f (hpart.subset hf)) hchained]
  rw [hframes] at hpart
  rcases beginning_of_response status headers cs _ hpart with hnil | ⟨k,hk,hlength,hbefore⟩
  · rw [List.map_eq_nil_iff] at hnil
    subst hnil
    exact Or.inl ⟨rfl,rfl⟩
  · refine Or.inr ⟨k,hk,by simpa using hlength,?_⟩
    rw [hbefore, accept_response]
    exact ⟨_,rfl⟩

/-- What the client makes of the first `n` bytes: nothing, the part of the
response in whole packets, or an error that tells where the cut is. -/
def CutReading (t : StreamCrates A) (s : SealedResponse sealStream keys aad) (n : ℕ) : Prop :=
  ∃ status headers, ∃ cs : List Bytes,
    framesBeforeError s.items = .head status headers::cs.map .body ∧
    ((n = 0 ∧ decodeFrames t (.ok keys) aad (s.raw.take n) =
        .error "empty stream: no Head frame") ∨
      (∃ k ≤ cs.length, n = s.boundary (k+1) ∧ decodeFrames t (.ok keys) aad (s.raw.take n) =
        .ok ⟨status,headers,(cs.take k).flatten⟩) ∨
      (∃ k ≤ cs.length, s.boundary k < n ∧ n < s.boundary (k+1) ∧
        decodeFrames t (.ok keys) aad (s.raw.take n) = .error (truncation
          (if n < s.boundary k+headerLength then .header else .body))))

theorem cut_response_reading (hw : Working t keys) (hs : SealsFrames t sealStream keys aad)
    (s : SealedResponse sealStream keys aad) (hread : Readable t (framesBeforeError s.items))
    (n : ℕ) (hn : n ≤ s.raw.length) : CutReading t s n := by
  obtain ⟨status,headers,cs,hframes⟩ := framesBeforeError_of_oneHead s.items s.oneHead
  refine ⟨status,headers,cs,hframes,?_⟩
  have hlength : s.packets.length = cs.length+1 := by
    rw [hs.each _ _ _ s.sealed, hframes]
    simp
  obtain ⟨done,rest,hsplit,hcase⟩ := receiveAll_cut (receive t (.ok keys) aad) truncation start
    s.packets n hn
  have hboundary : ∀ k, done.length = k → s.boundary k = (encodeAll done).length := by
    rintro k rfl
    rw [SealedResponse.boundary, hsplit, List.take_left]
  have hdone := assembled_before hw hs s hread done rest hsplit status headers cs hframes
  rcases hcase with ⟨hat,heq⟩ | ⟨p,after,rfl,hlow,hhigh,heq⟩
  · rcases hdone with ⟨rfl,hfold⟩ | ⟨k,hk,hdone,h,hfold⟩
    · refine Or.inl ⟨hat,?_⟩
      rw [decodeFrames, SealedResponse.raw, heq, hfold]
      rfl
    · refine Or.inr (Or.inl ⟨k,hk,by rw [hboundary (k+1) hdone, hat],?_⟩)
      rw [decodeFrames, SealedResponse.raw, heq, hfold]
      rfl
  · have hnext : s.boundary (done.length+1) = (encodeAll (done++[p])).length := by
      rw [SealedResponse.boundary, hsplit, List.take_length_add_append]
      rfl
    have hcount : done.length ≤ cs.length := by
      have hall := congrArg List.length hsplit
      rw [List.length_append, List.length_cons] at hall
      omega
    refine Or.inr (Or.inr ⟨done.length,hcount,by rw [hboundary _ rfl]; exact hlow,
      by rw [hnext]; exact hhigh,?_⟩)
    rw [decodeFrames, SealedResponse.raw, heq, hboundary _ rfl]
    rcases hdone with ⟨_,hfold⟩ | ⟨k,_,_,h,hfold⟩
    · rw [hfold]
      rfl
    · rw [hfold]
      rfl

end Cut

/-! Crates for the examples. A frame is written by a codec, and the hash keeps
the last bytes of a text. -/

def frameCodec : Codec WireFrame :=
  ((natCodec.prod (stringCodec.prod stringCodec).list).sum stringCodec).map
    (fun x => match x with
      | .inl y => .head y.1 y.2
      | .inr data => .body data)
    (fun frame => match frame with
      | .head status headers => .inl (status,headers)
      | .body data => .inr data)
    (fun frame => by cases frame <;> rfl)

def readWhole (text : Bytes) : Except String WireFrame :=
  match frameCodec.read text with
  | some (frame,[]) => .ok frame
  | _ => .error "trailing characters"

theorem readWhole_write (frame : WireFrame) : readWhole (frameCodec.write frame) = .ok frame := by
  have hread := frameCodec.read_write frame []
  rw [List.append_nil] at hread
  rw [readWhole, hread]

def lastBytes (text : Bytes) : Digest :=
  ⟨(text.reverse++List.replicate 48 0).take 48,by simp⟩

def openCrates : StreamCrates Unit where
  aead := ⟨fun _ _ => .ok (),fun _ _ _ _ text => .ok text,fun _ _ _ _ text => .ok text⟩
  aes256Gcm := ()
  sha384 := lastBytes
  toVec := frameCodec.write
  fromSlice := readWhole
  custom := fun _ e => e

theorem open_readable (frames : List StreamFrame) : Readable openCrates frames :=
  fun frame _ => readWhole_write (wire frame)

theorem open_working (keys : SessionKeys) : Working openCrates keys :=
  ⟨rfl,fun _ _ _ _ h => h.symm⟩

def sealFrames (t : StreamCrates A) (keys : SessionKeys) (aad : Bytes) :
    Digest → List UInt64 → List StreamFrame → Except String (List Packet)
  | _, _, [] => .ok []
  | _, [], _::_ => .error "out of counters"
  | prevHash, counter::counters, frame::frames => do
    let ciphertext ← t.aead.sealInPlace t.aes256Gcm keys.serverWriteKey
      (counterNonce keys.serverWriteIv counter.toNat) (aad++prevHash.toList) (serialize t frame)
    if h : ciphertext.length < 2^32 then
      let packets ← sealFrames t keys aad (absorb t prevHash ciphertext) counters frames
      return ⟨counter,ciphertext,h⟩::packets
    else .error "frame too long"

theorem sealFrames_chained (keys : SessionKeys) (aad : Bytes) (prevHash : Digest)
    (counters : List UInt64) (frames : List StreamFrame) (packets : List Packet)
    (h : sealFrames t keys aad prevHash counters frames = .ok packets) :
    packets.length = frames.length ∧ Chained t keys aad prevHash (frames.zip packets) := by
  induction frames generalizing prevHash counters packets with
  | nil =>
    rw [sealFrames] at h
    cases h
    exact ⟨rfl,trivial⟩
  | cons frame frames ih =>
    cases counters with
    | nil => cases h
    | cons counter counters =>
      obtain ⟨ciphertext,hseal,h⟩ := except_bind_eq_ok _ _ _ h
      by_cases hfits : ciphertext.length < 2^32
      · rw [dif_pos hfits] at h
        obtain ⟨rest,hrest,h⟩ := except_bind_eq_ok _ _ _ h
        cases h
        obtain ⟨hlength,hchained⟩ := ih _ _ _ hrest
        exact ⟨by simp [hlength],hseal,hchained⟩
      · rw [dif_neg hfits] at h
        cases h

def sealInOrder (t : StreamCrates A) : SealStream :=
  fun keys aad counters items => sealFrames t keys aad zeroHash counters (framesBeforeError items)

theorem sealInOrder_sealsFrames (keys : SessionKeys) (aad : Bytes) :
    SealsFrames t (sealInOrder t) keys aad where
  each counters _ packets h := (sealFrames_chained keys aad _ counters _ packets h).1
  chained counters _ packets h := (sealFrames_chained keys aad _ counters _ packets h).2

def anyKeys : SessionKeys :=
  ⟨[1],List.Vector.replicate 12 0,[2],List.Vector.replicate 12 0,[3]⟩

def smallHead : StreamFrame := .head 404 [("a","b")]

def smallResponse : SealedResponse (sealInOrder openCrates) anyKeys [9] where
  items := [.ok smallHead,.ok (.body [7])]
  oneHead := ⟨404,[("a","b")],[.ok (.body [7])],rfl,by simp⟩
  counters := [1,2]
  packets := [⟨1,serialize openCrates smallHead,by decide⟩,
    ⟨2,serialize openCrates (.body [7]),by decide⟩]
  sealed := by rfl

theorem small_response_cut :
    smallResponse.boundary 1 < smallResponse.boundary 1+5 ∧
      smallResponse.boundary 1+5 < smallResponse.boundary 2 ∧
      CutReading openCrates smallResponse (smallResponse.boundary 1+5) :=
  ⟨by decide,by decide,cut_response_reading (open_working anyKeys)
    (sealInOrder_sealsFrames anyKeys [9]) smallResponse (open_readable _) _ (by decide)⟩

/-! ## What the client accepts -/

section Accepted
variable {sealStream : SealStream} {keys : SessionKeys} {aad : Bytes}

def Opened (t : StreamCrates A) (keys : SessionKeys) (aad : Bytes) (prevHash : Digest) (e : Entry) :
    Prop :=
  ∃ text, t.aead.openInPlace t.aes256Gcm keys.serverWriteKey
      (counterNonce keys.serverWriteIv e.2.counter.toNat) (aad++prevHash.toList) e.2.payload =
        .ok text ∧
    deserialize t text = .ok e.1

theorem openFrame_ok (prevHash nextHash : Digest) (p : Packet) (frame : StreamFrame)
    (h : openFrame t (.ok keys) aad prevHash p = .ok (frame,nextHash)) :
    nextHash = absorb t prevHash p.payload ∧ Opened t keys aad prevHash (frame,p) := by
  obtain ⟨_,hk,h⟩ := except_bind_eq_ok _ _ _ h
  cases hk
  obtain ⟨key,hkey,h⟩ := except_bind_eq_ok _ _ _ h
  obtain ⟨_,_,hkey⟩ := except_bind_eq_ok _ _ _ hkey
  cases hkey
  obtain ⟨text,htext,h⟩ := except_bind_eq_ok _ _ _ h
  obtain ⟨frame',hframe,h⟩ := except_bind_eq_ok _ _ _ h
  cases h
  exact ⟨rfl,text,(mapError_eq_ok_iff _ _ _).mp htext,(mapError_eq_ok_iff _ _ _).mp hframe⟩

theorem received_entries (ps : List Packet) (r r' : Receiver)
    (h : ps.foldlM (receive t (.ok keys) aad) r = .ok r') :
    ∃ es : List Entry, es.map Prod.snd = ps ∧
      (es.map Prod.fst).foldlM accept r.assembly = .ok r'.assembly ∧
      ∀ before e after, es = before++e::after →
        Opened t keys aad (run (absorb t) r.prevHash (before.map (fun e => e.2.payload))) e := by
  induction ps generalizing r with
  | nil =>
    cases h
    exact ⟨[],rfl,rfl,by simp⟩
  | cons p ps ih =>
    rw [List.foldlM_cons] at h
    obtain ⟨r₁,hp,h⟩ := except_bind_eq_ok _ _ _ h
    obtain ⟨⟨frame,nextHash⟩,hopen,hp⟩ := except_bind_eq_ok _ _ _ hp
    obtain ⟨assembly,haccept,hp⟩ := except_bind_eq_ok _ _ _ hp
    cases hp
    obtain ⟨rfl,hopened⟩ := openFrame_ok _ _ _ _ hopen
    obtain ⟨es,rfl,hframes,hall⟩ := ih _ h
    refine ⟨(frame,p)::es,rfl,?_,?_⟩
    · rw [List.map_cons, List.foldlM_cons, haccept]
      exact hframes
    · intro before e after hsplit
      cases before with
      | nil =>
        obtain ⟨rfl,_⟩ := List.cons.inj hsplit
        exact hopened
      | cons e' before =>
        obtain ⟨rfl,hrest⟩ := List.cons.inj hsplit
        exact hall before e after hrest

/-- What is assumed of cipher and hash: what opens under the session's
associated data and a chain was sealed at a place with that chain, a sealed
text belongs to one seal, and the chains of the server do not meet. -/
structure Authentic (t : StreamCrates A) (keys : SessionKeys) (aad : Bytes)
    (streams : Set (List Entry)) : Prop where
  opened : ∀ nonce prevHash ciphertext text,
    t.aead.openInPlace t.aes256Gcm keys.serverWriteKey nonce (aad++List.Vector.toList prevHash)
      ciphertext = .ok text →
    ∃ es ∈ streams, ∃ before frame p after, es = before++(frame,p)::after ∧
      run (absorb t) zeroHash (before.map (fun e => e.2.payload)) = prevHash ∧
      counterNonce keys.serverWriteIv p.counter.toNat = nonce ∧ p.payload = ciphertext ∧
      serialize t frame = text
  committed : ∀ es ∈ streams, ∀ es' ∈ streams, ∀ e ∈ es, ∀ e' ∈ es',
    e.2.payload = e'.2.payload → e = e'
  unforked : Unforked (absorb t) zeroHash
    (linksOf (absorb t) zeroHash (fun e : Entry => e.2.payload) streams)

theorem counter_eq_of_nonce_eq (iv : Nonce) (c d : UInt64)
    (h : counterNonce iv c.toNat = counterNonce iv d.toNat) : c = d := by
  have hmod := (counterNonce_eq_iff iv c.toNat d.toNat).mp h
  have hc : c.toNat < counters := c.toNat_lt
  have hd : d.toNat < counters := d.toNat_lt
  rw [Nat.mod_eq_of_lt hc, Nat.mod_eq_of_lt hd] at hmod
  exact UInt64.toNat_inj.mp hmod

/-- Whatever bytes reach the client: a response it accepts is one that the
server sealed, cut at most behind a packet. -/
theorem accepted_response_was_sealed (hs : SealsFrames t sealStream keys aad)
    (responses : Set (SealedResponse sealStream keys aad))
    (ha : Authentic t keys aad {es | ∃ s ∈ responses, s.entries = es})
    (hread : ∀ s ∈ responses, Readable t (framesBeforeError s.items)) (raw : Bytes)
    (r : FramedResponse) (h : decodeFrames t (.ok keys) aad raw = .ok r) :
    ∃ s ∈ responses, ∃ status headers, ∃ cs : List Bytes,
      framesBeforeError s.items = .head status headers::cs.map .body ∧
      ∃ k ≤ cs.length, raw = s.raw.take (s.boundary (k+1)) ∧
        r = ⟨status,headers,(cs.take k).flatten⟩ := by
  obtain ⟨r',hall,hfinish⟩ := except_bind_eq_ok _ _ _ h
  obtain ⟨ps,rfl,hps⟩ := receiveAll_ok _ _ _ _ _ hall
  obtain ⟨es,rfl,hframes,hopened⟩ := received_entries ps start r' hps
  have hplaces : ∀ before e after, es = before++e::after →
      ∃ s ∈ {es | ∃ s ∈ responses, s.entries = es}, ∃ b a, s = b++e::a ∧
        run (absorb t) zeroHash (b.map (fun e => e.2.payload)) =
          run (absorb t) zeroHash (before.map (fun e => e.2.payload)) := by
    intro before e after hsplit
    obtain ⟨text,hopen,hframe⟩ := hopened before e after hsplit
    obtain ⟨_,⟨s,hmade,rfl⟩,b,frame,p,a,hentries,hchain,hnonce,hpayload,htext⟩ :=
      ha.opened _ _ _ _ hopen
    have hcounter := counter_eq_of_nonce_eq _ _ _ hnonce
    have hpacket : p = e.2 := Packet.ext hcounter hpayload
    have hmem : frame ∈ framesBeforeError s.items := by
      rw [← s.frames hs, hentries]
      simp
    rw [← htext, deserialize_serialize frame (hread s hmade frame hmem)] at hframe
    cases hframe
    exact ⟨_,⟨s,hmade,rfl⟩,b,a,by rw [hentries, hpacket],hchain⟩
  rcases prefix_of_places ha.unforked ha.committed es hplaces with rfl |
    ⟨_,⟨s,hmade,rfl⟩,hbeginning⟩
  · rw [← Except.ok.inj hframes] at hfinish
    cases hfinish
  obtain ⟨status,headers,cs,hresponse⟩ := framesBeforeError_of_oneHead s.items s.oneHead
  have hbegin : es.map Prod.fst <+: .head status headers::cs.map .body := by
    rw [← hresponse, ← s.frames hs]
    exact hbeginning.map _
  have hraw (k : ℕ) (hlength : es.length = k) :
      encodeAll (es.map Prod.snd) = s.raw.take (s.boundary k) := by
    obtain ⟨after,hentries⟩ := hbeginning
    have htake : s.packets.take k = es.map Prod.snd := by
      rw [← s.entries_packets hs, ← hentries, List.map_append,
        List.take_left' (by simpa using hlength)]
    rw [SealedResponse.boundary, htake, SealedResponse.raw, ← s.entries_packets hs, ← hentries,
      List.map_append, encodeAll_append, List.take_left]
  refine ⟨s,hmade,status,headers,cs,hresponse,?_⟩
  rcases beginning_of_response status headers cs _ hbegin with hnil | ⟨k,hk,hlength,heq⟩
  · rw [hnil] at hframes
    rw [← Except.ok.inj hframes] at hfinish
    cases hfinish
  · rw [heq, accept_response] at hframes
    rw [← Except.ok.inj hframes] at hfinish
    exact ⟨k,hk,hraw (k+1) (by simpa using hlength),(Except.ok.inj hfinish).symm⟩

end Accepted

def fewSeals : List (Nonce × Bytes × Bytes × Bytes) :=
  [(counterNonce (List.Vector.replicate 12 0) 1,9::List.replicate 48 0,[10],
      serialize openCrates smallHead),
    (counterNonce (List.Vector.replicate 12 0) 2,9::List.replicate 48 0,[20],
      serialize openCrates smallHead),
    (counterNonce (List.Vector.replicate 12 0) 3,9::20::List.replicate 47 0,[21],
      serialize openCrates (.body [7]))]

def fewCrates : StreamCrates Unit where
  aead :=
    ⟨fun _ _ => .ok (),
    fun _ _ nonce aad text =>
      match fewSeals.find? (fun e => e.1 = nonce ∧ e.2.1 = aad ∧ e.2.2.2 = text) with
      | some e => .ok e.2.2.1
      | none => .error "never sealed",
    fun _ _ nonce aad ciphertext =>
      match fewSeals.find? (fun e => e.1 = nonce ∧ e.2.1 = aad ∧ e.2.2.1 = ciphertext) with
      | some e => .ok e.2.2.2
      | none => .error "tag mismatch"⟩
  aes256Gcm := ()
  sha384 := lastBytes
  toVec := openCrates.toVec
  fromSlice := openCrates.fromSlice
  custom := openCrates.custom

abbrev FewResponse := SealedResponse (sealInOrder fewCrates) anyKeys [9]

def headOnly : FewResponse where
  items := [.ok smallHead]
  oneHead := ⟨404,[("a","b")],[],rfl,by simp⟩
  counters := [1]
  packets := [⟨1,[10],by decide⟩]
  sealed := by rfl

def headAndBody : FewResponse where
  items := [.ok smallHead,.ok (.body [7])]
  oneHead := ⟨404,[("a","b")],[.ok (.body [7])],rfl,by simp⟩
  counters := [2,3]
  packets := [⟨2,[20],by decide⟩,⟨3,[21],by decide⟩]
  sealed := by rfl

def fewStreams : Set (List Entry) :=
  {es | ∃ s ∈ ({headOnly,headAndBody} : Set FewResponse), s.entries = es}

theorem mem_fewStreams (es : List Entry) :
    es ∈ fewStreams ↔ es = headOnly.entries ∨ es = headAndBody.entries := by
  simp [fewStreams, eq_comm]

theorem few_opened (nonce : Nonce) (prevHash : Digest) (ciphertext text : Bytes)
    (h : fewCrates.aead.openInPlace () anyKeys.serverWriteKey nonce ([9]++prevHash.toList)
      ciphertext = .ok text) :
    ∃ es ∈ fewStreams, ∃ before frame p after, es = before++(frame,p)::after ∧
      run (absorb fewCrates) zeroHash (before.map (fun e => e.2.payload)) = prevHash ∧
      counterNonce anyKeys.serverWriteIv p.counter.toNat = nonce ∧ p.payload = ciphertext ∧
      serialize fewCrates frame = text := by
  simp only [fewCrates] at h
  split at h
  · rename_i e hfind
    have hmem := List.mem_of_find?_eq_some hfind
    have hmatch := List.find?_some hfind
    simp only [decide_eq_true_eq] at hmatch
    obtain ⟨rfl,haad,rfl⟩ := hmatch
    cases h
    simp only [fewSeals, List.mem_cons, List.not_mem_nil, or_false] at hmem
    rcases hmem with rfl | rfl | rfl
    · refine ⟨_,(mem_fewStreams _).mpr (Or.inl rfl),[],_,_,[],rfl,?_,rfl,rfl,rfl⟩
      exact Subtype.ext (List.cons.inj haad).2
    · refine ⟨_,(mem_fewStreams _).mpr (Or.inr rfl),[],_,_,[(.body [7],⟨3,[21],by decide⟩)],rfl,?_,
        rfl,rfl,rfl⟩
      exact Subtype.ext (List.cons.inj haad).2
    · refine ⟨_,(mem_fewStreams _).mpr (Or.inr rfl),[(smallHead,⟨2,[20],by decide⟩)],_,_,[],rfl,
        ?_,rfl,rfl,rfl⟩
      exact Subtype.ext (List.cons.inj haad).2
  · cases h

def fewLinks : List (Digest × Bytes) :=
  links (absorb fewCrates) zeroHash [[10]]++links (absorb fewCrates) zeroHash [[20],[21]]

theorem few_authentic : Authentic fewCrates anyKeys [9] fewStreams where
  opened := few_opened
  committed := by
    have hall : ∀ e ∈ headOnly.entries++headAndBody.entries,
        ∀ e' ∈ headOnly.entries++headAndBody.entries, e.2.payload = e'.2.payload → e = e' := by
      decide
    have hin (es : List Entry) (hes : es ∈ fewStreams) (e : Entry) (he : e ∈ es) :
        e ∈ headOnly.entries++headAndBody.entries := by
      rcases (mem_fewStreams es).mp hes with rfl | rfl <;> simp [he]
    intro es hes es' hes' e he e' he'
    exact hall e (hin es hes e he) e' (hin es' hes' e' he')
  unforked := by
    have hlinks (l : Digest × Bytes) (hl : l ∈ linksOf (absorb fewCrates) zeroHash
        (fun e : Entry => e.2.payload) fewStreams) : l ∈ fewLinks := by
      obtain ⟨es,hes,hl⟩ := hl
      rcases (mem_fewStreams es).mp hes with rfl | rfl
      · exact List.mem_append_left _ hl
      · exact List.mem_append_right _ hl
    have hinj : ∀ l ∈ fewLinks, ∀ l' ∈ fewLinks,
        absorb fewCrates l.1 l.2 = absorb fewCrates l'.1 l'.2 → l = l' := by decide
    have hstart : ∀ l ∈ fewLinks, absorb fewCrates l.1 l.2 ≠ zeroHash := by decide
    exact ⟨fun l hl l' hl' => hinj l (hlinks l hl) l' (hlinks l' hl'),
      fun l hl => hstart l (hlinks l hl)⟩

theorem first_packet_accepted :
    decodeFrames fewCrates (.ok anyKeys) [9] (headAndBody.raw.take (headAndBody.boundary 1)) =
        .ok ⟨404,[("a","b")],[]⟩ ∧
      ∃ s ∈ ({headOnly,headAndBody} : Set FewResponse), ∃ status headers, ∃ cs : List Bytes,
        framesBeforeError s.items = .head status headers::cs.map .body ∧
        ∃ k ≤ cs.length, headAndBody.raw.take (headAndBody.boundary 1) =
            s.raw.take (s.boundary (k+1)) ∧
          (⟨404,[("a","b")],[]⟩ : FramedResponse) = ⟨status,headers,(cs.take k).flatten⟩ := by
  have hread : ∀ s ∈ ({headOnly,headAndBody} : Set FewResponse),
      Readable fewCrates (framesBeforeError s.items) :=
    fun s _ frame _ => readWhole_write (wire frame)
  have hdecoded : decodeFrames fewCrates (.ok anyKeys) [9]
      (headAndBody.raw.take (headAndBody.boundary 1)) = .ok ⟨404,[("a","b")],[]⟩ := by
    change decodeFrames fewCrates (.ok anyKeys) [9]
      (encodeAll [⟨2,[20],by decide⟩]) = _
    rw [decodeFrames, receiveAll_encodeAll]
    rfl
  exact ⟨hdecoded,accepted_response_was_sealed (sealInOrder_sealsFrames anyKeys [9])
    {headOnly,headAndBody} few_authentic hread _ _ hdecoded⟩

end ArchetypeProxy.ResponseStream

import ArchetypeProxy.Library.History
import ArchetypeProxy.Library.Runs
import ArchetypeProxy.WsBridge

/-!
# All WebSocket connections of a session

The world holds the registry, the live route table, every bridge ever opened
and a log of effects tagged with session and link. Upgrades, socket inputs,
expiry and new route tables interleave as an event list. A bridge owns its
counters; the session owns the keys.
-/

set_option autoImplicit false

namespace ArchetypeProxy.WsSession
open ArchetypeProxy.CounterNonce ArchetypeProxy.OpenHttpa ArchetypeProxy.Routes
open ArchetypeProxy.Runs ArchetypeProxy.History ArchetypeProxy.WsFrames ArchetypeProxy.WsUpgrade
open ArchetypeProxy.WsBridge

variable {Id Suite A : Type}

structure Link (Id A : Type) where
  session : Id
  upstreamUrl : String
  bridge : Bridge A

structure Tag (Id : Type) where
  session : Id
  link : ℕ
  deriving DecidableEq

structure World (Id Suite A : Type) where
  registry : Registry Id Suite
  table : RouteTable
  links : List (Link Id A)
  log : List (Tag Id × Effect)

/-- An upgrade request with the outcome of dialing its upstream, an input of
one link, the end of a session, or a new route table. -/
inductive Event (Id : Type) where
  | upgrade (req : WsRequestMeta) (dialed : Bool)
  | deliver (link : ℕ) (input : Input)
  | expire (id : Id)
  | publish (table : RouteTable)

def World.start (registry : Registry Id Suite) (table : RouteTable) : World Id Suite A :=
  ⟨registry,table,[],[]⟩

def World.connect (p : Protocol Id Suite A) (w : World Id Suite A) (req : WsRequestMeta) :
    World Id Suite A :=
  match wsUpgradeHandler p w.registry w.table req with
  | .error _ => w
  | .ok u =>
    match openBridge p.aead u.keys u.aad with
    | .error _ => w
    | .ok b => { w with links := w.links++[⟨u.session,u.upstreamUrl,b⟩] }

def World.deliver (p : Protocol Id Suite A) (w : World Id Suite A) (i : ℕ) (input : Input) :
    World Id Suite A :=
  match w.links[i]? with
  | none => w
  | some l =>
    let r := l.bridge.step p.aead input
    { w with links := w.links.set i { l with bridge := r.1 }
             log := w.log++r.2.map (Prod.mk ⟨l.session,i⟩) }

def World.step [DecidableEq Id] (p : Protocol Id Suite A) (w : World Id Suite A) :
    Event Id → World Id Suite A
  | .upgrade req dialed => if dialed then w.connect p req else w
  | .deliver i input => w.deliver p i input
  | .expire id => { w with registry := fun j => if j = id then none else w.registry j }
  | .publish table => { w with table := table }

def sealedOf [DecidableEq Id] (id : Id) (w : World Id Suite A) : List (Bytes × Nonce) :=
  view (fun t => decide (t.session = id)) sealedPair w.log

def sealedBy (i : ℕ) (w : World Id Suite A) : List (Bytes × Nonce) :=
  view (fun t => decide (t.link = i)) sealedPair w.log

def forwardedOf [DecidableEq Id] (id : Id) (w : World Id Suite A) : List Bytes :=
  view (fun t => decide (t.session = id)) forwardedFrame w.log

def forwardedBy (i : ℕ) (w : World Id Suite A) : List Bytes :=
  view (fun t => decide (t.link = i)) forwardedFrame w.log

def firstNonces (key : BoundAeadKey A) : List (Bytes × Nonce) :=
  (List.range key.sealed).map (fun n => (key.key,counterNonce key.iv (n+1)))

/-- What holds of every link in every reachable world: its keys are those the
session had from the start, its seals are the first nonces of its own key, and
its forwarded frames carry counters up to its last one. -/
structure LinkSound (registry : Registry Id Suite) (w : World Id Suite A) (i : ℕ)
    (l : Link Id A) : Prop where
  keyed : ∃ s k, registry l.session = some s ∧ s.keys = some k ∧
    l.bridge.outKey.key = k.serverWriteKey ∧ l.bridge.outKey.iv = k.serverWriteIv ∧
    l.bridge.inIv = k.clientWriteIv
  sealed : sealedBy i w = firstNonces l.bridge.outKey
  forwarded : ∀ f ∈ forwardedBy i w,
    extractCounter (f.take 12) l.bridge.inIv ≤ l.bridge.lastCounter

structure Sound (registry : Registry Id Suite) (w : World Id Suite A) : Prop where
  known : ∀ id s, w.registry id = some s → registry id = some s
  links : ∀ i l, w.links[i]? = some l → LinkSound registry w i l
  logged : ∀ e ∈ w.log, ∃ l, w.links[e.1.link]? = some l ∧ l.session = e.1.session

theorem sound_start (registry : Registry Id Suite) (table : RouteTable) :
    Sound registry (World.start registry table : World Id Suite A) :=
  ⟨fun _ _ h => h,by simp [World.start],by simp [World.start]⟩

theorem firstNonces_advanced (k : BoundAeadKey A) :
    firstNonces k.advanced = firstNonces k ++ [(k.key,k.nextNonce)] := by
  simp [firstNonces, BoundAeadKey.advanced, BoundAeadKey.nextNonce, List.range_succ]

theorem open_ok (aead : Aead A) (keys : WsKeys A) (aad : Bytes) (b : Bridge A)
    (h : openBridge aead keys aad = .ok b) :
    b.outKey = ⟨keys.algorithm,keys.serverWriteKey,keys.serverWriteIv,0⟩ ∧
      b.inIv = keys.clientWriteIv ∧ b.lastCounter = 0 := by
  unfold openBridge BoundAeadKey.new AeadKey.new at h
  cases hs : aead.newKey keys.algorithm keys.serverWriteKey <;>
    cases hc : aead.newKey keys.algorithm keys.clientWriteKey <;>
    simp [hs, hc, bind, Except.bind, pure, Except.pure] at h
  subst h
  exact ⟨rfl,rfl,rfl⟩

theorem view_link_absent {β : Type} (registry : Registry Id Suite) (w : World Id Suite A)
    (hw : Sound registry w) (f : Effect → Option β) (i : ℕ) (hi : w.links.length ≤ i) :
    view (fun t : Tag Id => decide (t.link = i)) f w.log = [] := by
  apply List.eq_nil_iff_forall_not_mem.mpr
  intro x hx
  obtain ⟨e,he,hq,_⟩ := (mem_view _ _ _ _).mp hx
  obtain ⟨l,hl,_⟩ := hw.logged e he
  have hlt := (List.getElem?_eq_some_iff.mp hl).1
  have hlink : e.1.link = i := by simpa using hq
  omega

theorem connect_cases (p : Protocol Id Suite A) (w : World Id Suite A) (req : WsRequestMeta) :
    w.connect p req = w ∨
    ∃ l s k, w.connect p req = { w with links := w.links++[l] } ∧
      w.registry l.session = some s ∧ s.keys = some k ∧
      l.bridge.outKey = ⟨p.cipherSuiteToAead s.cipherSuite,k.serverWriteKey,k.serverWriteIv,0⟩ ∧
      l.bridge.inIv = k.clientWriteIv ∧ l.bridge.lastCounter = 0 := by
  unfold World.connect
  split
  · exact Or.inl rfl
  · rename_i u hu
    split
    · exact Or.inl rfl
    · rename_i b hb
      obtain ⟨_,s,hs,hk,_⟩ := upgrade_ok p w.registry w.table req u hu
      obtain ⟨k,hkeys,hwk⟩ := Option.map_eq_some_iff.mp hk
      obtain ⟨hout,hiv,hlast⟩ := open_ok p.aead u.keys u.aad b hb
      exact Or.inr ⟨⟨u.session,u.upstreamUrl,b⟩,s,k,rfl,hs,hkeys,by simp [hout, ← hwk],
        by simp [hiv, ← hwk],hlast⟩

theorem linkSound_of_log (registry : Registry Id Suite) (w w' : World Id Suite A) (i : ℕ)
    (l : Link Id A) (hlog : w'.log = w.log) (h : LinkSound registry w i l) :
    LinkSound registry w' i l := by
  obtain ⟨hkeyed,hsealed,hforwarded⟩ := h
  refine ⟨hkeyed,?_,?_⟩
  · rw [sealedBy, hlog]
    exact hsealed
  · rw [forwardedBy, hlog]
    exact hforwarded

theorem old_or_new (ls : List (Link Id A)) (l m : Link Id A) (i : ℕ)
    (h : (ls++[l])[i]? = some m) : ls[i]? = some m ∨ ls.length ≤ i ∧ m = l := by
  rcases lt_or_ge i ls.length with hi | hi
  · rw [List.getElem?_append_left hi] at h
    exact Or.inl h
  · rw [List.getElem?_append_right hi] at h
    have hlt := (List.getElem?_eq_some_iff.mp h).1
    have hz : i-ls.length = 0 := by
      simp only [List.length_singleton] at hlt
      omega
    rw [hz] at h
    exact Or.inr ⟨hi,(Option.some.inj h).symm⟩

theorem sound_connect (p : Protocol Id Suite A) (registry : Registry Id Suite)
    (w : World Id Suite A) (hw : Sound registry w) (req : WsRequestMeta) :
    Sound registry (w.connect p req) := by
  rcases connect_cases p w req with heq | ⟨l,s,k,heq,hs,hk,hout,hiv,_⟩
  · rw [heq]
    exact hw
  · rw [heq]
    refine ⟨hw.known,?_,?_⟩
    · intro i m hm
      rcases old_or_new w.links l m i hm with hold | ⟨hi,rfl⟩
      · exact linkSound_of_log registry w _ i m rfl (hw.links i m hold)
      · refine ⟨⟨s,k,hw.known _ s hs,hk,by rw [hout],by rw [hout],hiv⟩,?_,?_⟩
        · change view _ sealedPair w.log = _
          rw [view_link_absent registry w hw sealedPair i hi, firstNonces, hout]
          rfl
        · intro f hf
          change f ∈ view _ forwardedFrame w.log at hf
          rw [view_link_absent registry w hw forwardedFrame i hi] at hf
          simp at hf
    · intro e he
      obtain ⟨m,hm,hsess⟩ := hw.logged e he
      have hlt := (List.getElem?_eq_some_iff.mp hm).1
      exact ⟨m,by simpa only [List.getElem?_append_left hlt] using hm,hsess⟩

theorem deliver_some (p : Protocol Id Suite A) (w : World Id Suite A) (i : ℕ) (input : Input)
    (l : Link Id A) (hl : w.links[i]? = some l) :
    w.deliver p i input = { w with
      links := w.links.set i { l with bridge := (l.bridge.step p.aead input).1 }
      log := w.log++(l.bridge.step p.aead input).2.map (Prod.mk ⟨l.session,i⟩) } := by
  rw [World.deliver, hl]

theorem link_view_deliver {β : Type} (p : Protocol Id Suite A) (w : World Id Suite A) (i j : ℕ)
    (input : Input) (l : Link Id A) (hl : w.links[i]? = some l) (f : Effect → Option β) :
    view (fun t : Tag Id => decide (t.link = j)) f (w.deliver p i input).log =
      view (fun t : Tag Id => decide (t.link = j)) f w.log ++
        (if i = j then (l.bridge.step p.aead input).2.filterMap f else []) := by
  rw [deliver_some p w i input l hl]
  simp [view_tagged]

theorem stepped_link_sound (p : Protocol Id Suite A) (registry : Registry Id Suite)
    (w : World Id Suite A) (i : ℕ) (input : Input) (l : Link Id A)
    (hl : w.links[i]? = some l) (hs : LinkSound registry w i l) :
    LinkSound registry (w.deliver p i input) i
      { l with bridge := (l.bridge.step p.aead input).1 } := by
  obtain ⟨⟨s,k,hreg,hkeys,hkey,hiv,hin⟩,hsealed,hforwarded⟩ := hs
  obtain ⟨hkey',hiv',hin'⟩ := step_keys p.aead l.bridge input
  refine ⟨⟨s,k,hreg,hkeys,hkey'.trans hkey,hiv'.trans hiv,hin'.trans hin⟩,?_,?_⟩
  · rw [sealedBy, link_view_deliver p w i i input l hl, if_pos rfl, ← sealedBy, hsealed]
    rcases step_cases p.aead l.bridge input with ⟨_,_,hq⟩ | ⟨_,_,hq⟩ | ⟨_,_,_,_,hq⟩
    · rw [hq.sealed, hq.outKey, List.append_nil]
    · rw [hq.sealed, hq.outKey, firstNonces_advanced]
    · rw [hq.sealed, hq.outKey, List.append_nil]
  · intro f hf
    rw [forwardedBy, link_view_deliver p w i i input l hl, if_pos rfl, ← forwardedBy] at hf
    simp only [hin']
    rcases step_cases p.aead l.bridge input with ⟨_,_,hq⟩ | ⟨_,_,hq⟩ | ⟨_,_,frame,_,hq⟩
    · rw [hq.forwarded, List.append_nil] at hf
      exact le_trans (hforwarded f hf) hq.counter
    · rw [hq.forwarded, List.append_nil] at hf
      rw [hq.counter]
      exact hforwarded f hf
    · rw [hq.forwarded] at hf
      rcases List.mem_append.mp hf with hold | hnew
      · exact le_trans (hforwarded f hold) (le_of_lt hq.fresh)
      · rw [List.mem_singleton.mp hnew, hq.counter]

theorem other_link_sound (p : Protocol Id Suite A) (registry : Registry Id Suite)
    (w : World Id Suite A) (i j : ℕ) (input : Input) (l m : Link Id A)
    (hl : w.links[i]? = some l) (hij : i ≠ j) (hs : LinkSound registry w j m) :
    LinkSound registry (w.deliver p i input) j m := by
  obtain ⟨hkeyed,hsealed,hforwarded⟩ := hs
  refine ⟨hkeyed,?_,?_⟩
  · rw [sealedBy, link_view_deliver p w i j input l hl, if_neg hij, List.append_nil]
    exact hsealed
  · rw [forwardedBy, link_view_deliver p w i j input l hl, if_neg hij, List.append_nil]
    exact hforwarded

theorem sound_deliver (p : Protocol Id Suite A) (registry : Registry Id Suite)
    (w : World Id Suite A) (hw : Sound registry w) (i : ℕ) (input : Input) :
    Sound registry (w.deliver p i input) := by
  cases hl : w.links[i]? with
  | none =>
    rw [World.deliver, hl]
    exact hw
  | some l =>
    have hi := (List.getElem?_eq_some_iff.mp hl).1
    have heq := deliver_some p w i input l hl
    refine ⟨by rw [heq]; exact hw.known,?_,?_⟩
    · intro j m hm
      by_cases hji : j = i
      · subst hji
        have hmeq : m = { l with bridge := (l.bridge.step p.aead input).1 } := by
          rw [heq] at hm
          simpa [List.getElem?_set_self hi] using hm.symm
        rw [hmeq]
        exact stepped_link_sound p registry w j input l hl (hw.links j l hl)
      · have hm' : w.links[j]? = some m := by
          rw [heq] at hm
          simpa [List.getElem?_set_ne (Ne.symm hji)] using hm
        exact other_link_sound p registry w i j input l m hl (Ne.symm hji) (hw.links j m hm')
    · intro e he
      rw [heq] at he ⊢
      rcases List.mem_append.mp he with hold | hnew
      · obtain ⟨m,hm,hsess⟩ := hw.logged e hold
        by_cases hei : e.1.link = i
        · have hml : m = l := by simpa [hei, hl] using hm.symm
          exact ⟨{ l with bridge := (l.bridge.step p.aead input).1 },
            by simp [hei, List.getElem?_set_self hi],by rw [← hsess, hml]⟩
        · exact ⟨m,by simpa [List.getElem?_set_ne (Ne.symm hei)] using hm,hsess⟩
      · obtain ⟨f,_,rfl⟩ := List.mem_map.mp hnew
        exact ⟨{ l with bridge := (l.bridge.step p.aead input).1 },
          by simp [List.getElem?_set_self hi],rfl⟩

theorem sound_step [DecidableEq Id] (p : Protocol Id Suite A) (registry : Registry Id Suite)
    (w : World Id Suite A) (e : Event Id) (hw : Sound registry w) :
    Sound registry (w.step p e) := by
  cases e with
  | upgrade req dialed =>
    cases dialed with
    | false => exact hw
    | true => exact sound_connect p registry w hw req
  | deliver i input => exact sound_deliver p registry w hw i input
  | publish table =>
    exact ⟨hw.known,fun i l h => linkSound_of_log registry w _ i l rfl (hw.links i l h),hw.logged⟩
  | expire id =>
    refine ⟨?_,fun i l h => linkSound_of_log registry w _ i l rfl (hw.links i l h),hw.logged⟩
    intro j s hj
    by_cases hji : j = id
    · simp [World.step, hji] at hj
    · exact hw.known j s (by simpa [World.step, hji] using hj)

theorem same_keys (registry : Registry Id Suite) (w : World Id Suite A) (hw : Sound registry w)
    (i j : ℕ) (l m : Link Id A) (hl : w.links[i]? = some l) (hm : w.links[j]? = some m)
    (hs : l.session = m.session) :
    m.bridge.outKey.key = l.bridge.outKey.key ∧ m.bridge.outKey.iv = l.bridge.outKey.iv ∧
      m.bridge.inIv = l.bridge.inIv := by
  obtain ⟨s,k,hreg,hk,hkey,hiv,hin⟩ := (hw.links i l hl).keyed
  obtain ⟨s',k',hreg',hk',hkey',hiv',hin'⟩ := (hw.links j m hm).keyed
  rw [← hs, hreg, Option.some.injEq] at hreg'
  subst hreg'
  rw [hk, Option.some.injEq] at hk'
  subst hk'
  exact ⟨hkey'.trans hkey.symm,hiv'.trans hiv.symm,hin'.trans hin.symm⟩

theorem mem_session_view {β : Type} [DecidableEq Id] (registry : Registry Id Suite)
    (w : World Id Suite A) (hw : Sound registry w) (id : Id) (f : Effect → Option β) (x : β) :
    x ∈ view (fun t : Tag Id => decide (t.session = id)) f w.log ↔
      ∃ (i : ℕ) (l : Link Id A), w.links[i]? = some l ∧ l.session = id ∧
        x ∈ view (fun t : Tag Id => decide (t.link = i)) f w.log := by
  constructor
  · intro hx
    obtain ⟨e,he,hq,hf⟩ := (mem_view _ _ _ _).mp hx
    obtain ⟨l,hl,hsess⟩ := hw.logged e he
    exact ⟨e.1.link,l,hl,hsess.trans (by simpa using hq),(mem_view _ _ _ _).mpr ⟨e,he,by simp,hf⟩⟩
  · rintro ⟨i,l,hl,hsess,hx⟩
    obtain ⟨e,he,hq,hf⟩ := (mem_view _ _ _ _).mp hx
    have hlink : e.1.link = i := by simpa using hq
    obtain ⟨l',hl',hsess'⟩ := hw.logged e he
    rw [hlink, hl, Option.some.injEq] at hl'
    subst hl'
    exact (mem_view _ _ _ _).mpr ⟨e,he,by simp [← hsess', hsess],hf⟩

theorem session_view_deliver {β : Type} [DecidableEq Id] (p : Protocol Id Suite A) (id : Id)
    (w : World Id Suite A) (i : ℕ) (input : Input) (l : Link Id A) (hl : w.links[i]? = some l)
    (f : Effect → Option β) :
    view (fun t : Tag Id => decide (t.session = id)) f (w.deliver p i input).log =
      view (fun t : Tag Id => decide (t.session = id)) f w.log ++
        (if l.session = id then (l.bridge.step p.aead input).2.filterMap f else []) := by
  rw [deliver_some p w i input l hl]
  simp [view_tagged]

theorem connect_log (p : Protocol Id Suite A) (w : World Id Suite A) (req : WsRequestMeta) :
    (w.connect p req).log = w.log := by
  rcases connect_cases p w req with heq | ⟨l,s,k,heq,_⟩ <;> rw [heq]

/-- The rule for values that must stay distinct over a session. Only a
delivery to a link of the session can add to them. -/
theorem nodup_step_iff {β : Type} [DecidableEq Id] (p : Protocol Id Suite A) (id : Id)
    (f : Effect → Option β) (w : World Id Suite A) (Ok : Event Id → Prop)
    (hother : ∀ e, (∀ i input, e ≠ .deliver i input) → Ok e)
    (habsent : ∀ i input, w.links[i]? = none → Ok (.deliver i input))
    (hdeliver : ∀ i input l, w.links[i]? = some l →
      ((view (fun t : Tag Id => decide (t.session = id)) f w.log ++
        (if l.session = id then (l.bridge.step p.aead input).2.filterMap f else [])).Nodup ↔
      (view (fun t : Tag Id => decide (t.session = id)) f w.log).Nodup ∧ Ok (.deliver i input)))
    (e : Event Id) :
    (view (fun t : Tag Id => decide (t.session = id)) f (w.step p e).log).Nodup ↔
      (view (fun t : Tag Id => decide (t.session = id)) f w.log).Nodup ∧ Ok e := by
  cases e with
  | upgrade req dialed =>
    have hok := hother (.upgrade req dialed) (by simp)
    cases dialed with
    | false => exact (and_iff_left hok).symm
    | true =>
      simp only [World.step, if_true, connect_log]
      exact (and_iff_left hok).symm
  | expire i => exact (and_iff_left (hother (.expire i) (by simp))).symm
  | publish table => exact (and_iff_left (hother (.publish table) (by simp))).symm
  | deliver i input =>
    simp only [World.step]
    cases hl : w.links[i]? with
    | none =>
      rw [World.deliver, hl]
      exact (and_iff_left (habsent i input hl)).symm
    | some l =>
      rw [session_view_deliver p id w i input l hl]
      exact hdeliver i input l hl

/-! ## One session and a catch-all route -/

def sampleIv : Nonce := List.Vector.replicate 12 0

def taggingAead : Aead Unit where
  newKey := fun _ _ => .ok ()
  sealInPlace := fun _ _ _ _ text => .ok (text++List.replicate 16 0)
  openInPlace := fun _ _ _ _ text => .ok (text.take (text.length-16))

def sampleProtocol (aead : Aead Unit) : Protocol ℕ Unit Unit where
  aead := aead
  parseAtbId := fun s => if s = "7" then some 7 else none
  showAtbId := fun _ => "7"
  hdrAttestBaseId := "attest-base-id"
  cipherSuiteToAead := fun s => s

def sampleSession : AttestSession ℕ Unit := ⟨7,true,(),some ⟨[1],sampleIv,[2],sampleIv,[3]⟩⟩

def sampleRegistry : Registry ℕ Unit := fun id => if id = 7 then some sampleSession else none

def sampleTable : RouteTable := RouteTable.new [⟨"all","","","http://up:80",none,.file⟩]

def sampleUpgrade : WsRequestMeta := ⟨"h","/",none,some "7"⟩

end ArchetypeProxy.WsSession

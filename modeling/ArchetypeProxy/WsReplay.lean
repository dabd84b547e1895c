import ArchetypeProxy.WsSession

/-!
# Delivery of the client frames of a session

Each bridge of a session starts its replay counter at zero. A run forwards
every frame at most once exactly when no bridge accepts a frame that another
bridge of the same session forwarded before.
-/

set_option autoImplicit false

namespace ArchetypeProxy.WsReplay
open ArchetypeProxy.CounterNonce ArchetypeProxy.OpenHttpa ArchetypeProxy.Routes
open ArchetypeProxy.Runs ArchetypeProxy.History ArchetypeProxy.WsFrames ArchetypeProxy.WsUpgrade
open ArchetypeProxy.WsBridge ArchetypeProxy.WsSession

variable {Id Suite A : Type} [DecidableEq Id]

def DeliveredOnce (id : Id) (w : World Id Suite A) : Prop := (forwardedOf id w).Nodup

def NotReplayed (p : Protocol Id Suite A) (id : Id) (w : World Id Suite A) : Event Id → Prop
  | .deliver i (.client (.message (.binary frame))) => ∀ l, w.links[i]? = some l →
      l.session = id → l.bridge.accepts p.aead (.client (.message (.binary frame))) = true →
      ∀ j m, w.links[j]? = some m → m.session = id → j ≠ i → frame ∉ forwardedBy j w
  | _ => True

omit [DecidableEq Id] in
theorem refused_not_replayed (p : Protocol Id Suite A) (id : Id) (w : World Id Suite A) (i : ℕ)
    (input : Input)
    (h : ∀ l, w.links[i]? = some l → l.bridge.accepts p.aead input = false) :
    NotReplayed p id w (.deliver i input) := by
  unfold NotReplayed
  split
  · rename_i heq
    obtain ⟨rfl,rfl⟩ := Event.deliver.inj heq
    intro l hl _ ha
    rw [h l hl] at ha
    cases ha
  · trivial

theorem accepted_fresh_iff (registry : Registry Id Suite) (w : World Id Suite A)
    (hw : Sound registry w) (id : Id) (i : ℕ) (l : Link Id A) (hl : w.links[i]? = some l)
    (frame : Bytes) (hc : l.bridge.lastCounter < extractCounter (frame.take 12) l.bridge.inIv) :
    frame ∉ forwardedOf id w ↔
      ∀ j m, w.links[j]? = some m → m.session = id → j ≠ i → frame ∉ forwardedBy j w := by
  rw [forwardedOf, mem_session_view registry w hw]
  constructor
  · intro hfresh j m hm hms _ hmem
    exact hfresh ⟨j,m,hm,hms,hmem⟩
  · rintro hothers ⟨j,m,hm,hms,hmem⟩
    by_cases hji : j = i
    · subst hji
      have hle := (hw.links j l hl).forwarded frame hmem
      omega
    · exact hothers j m hm hms hji hmem

theorem once_step_iff (p : Protocol Id Suite A) (registry : Registry Id Suite) (id : Id)
    (w : World Id Suite A) (e : Event Id) (hw : Sound registry w) :
    DeliveredOnce id (w.step p e) ↔ DeliveredOnce id w ∧ NotReplayed p id w e := by
  refine nodup_step_iff p id forwardedFrame w (NotReplayed p id w) ?_ ?_ ?_ e
  · intro e he
    cases e with
    | deliver i input => exact absurd rfl (he i input)
    | _ => trivial
  · intro i input hl
    exact refused_not_replayed p id w i input (by simp [hl])
  · intro i input l hl
    rw [← forwardedOf]
    rcases step_cases p.aead l.bridge input with ⟨_,ha,hq⟩ | ⟨_,ha,hq⟩ | ⟨_,ha,frame,rfl,hq⟩
    · have ht := refused_not_replayed p id w i input (by simp [hl, ha])
      simp [hq.forwarded, ht]
    · have ht := refused_not_replayed p id w i input (by simp [hl, ha])
      simp [hq.forwarded, ht]
    · by_cases hls : l.session = id
      · rw [if_pos hls, hq.forwarded, List.nodup_append_comm, List.singleton_append,
          List.nodup_cons, and_comm, accepted_fresh_iff registry w hw id i l hl frame
            (hq.counter ▸ hq.fresh)]
        simp [NotReplayed, hl, hls, ha]
      · simp [NotReplayed, hl, hls]

/-- The replay guard of the bridge, applied to the session: an accepted frame
carries a counter above the last one of every link of the session. -/
def SessionGuarded (p : Protocol Id Suite A) (id : Id) (w : World Id Suite A) : Event Id → Prop
  | .deliver i (.client (.message (.binary frame))) => ∀ l, w.links[i]? = some l →
      l.session = id → l.bridge.accepts p.aead (.client (.message (.binary frame))) = true →
      ∀ (j : ℕ) (m : Link Id A), w.links[j]? = some m → m.session = id →
        m.bridge.lastCounter < extractCounter (frame.take 12) l.bridge.inIv
  | _ => True

omit [DecidableEq Id] in
theorem guarded_not_replayed (p : Protocol Id Suite A) (registry : Registry Id Suite) (id : Id)
    (w : World Id Suite A) (e : Event Id) (hw : Sound registry w)
    (h : SessionGuarded p id w e) : NotReplayed p id w e := by
  unfold NotReplayed
  split
  · rename_i i frame
    intro l hl hls ha j m hm hms _ hmem
    have hlt := h l hl hls ha j m hm hms
    have hle := (hw.links j m hm).forwarded frame hmem
    rw [(same_keys registry w hw i j l m hl hm (hls.trans hms.symm)).2.2] at hle
    omega
  · trivial

/-- The exact condition for runs: over any interleaving of upgrades and
messages, frames reach the upstreams at most once if and only if no event of
the run replays a frame of another bridge. A guard over the whole session
would be enough. -/
theorem delivered_once_iff (p : Protocol Id Suite A) (registry : Registry Id Suite)
    (table : RouteTable) (id : Id) (es : List (Event Id)) :
    (DeliveredOnce id (run (World.step p) (World.start registry table) es) ↔
      Throughout (World.step p) (NotReplayed p id) (World.start registry table) es) ∧
    (Throughout (World.step p) (SessionGuarded p id) (World.start registry table) es →
      DeliveredOnce id (run (World.step p) (World.start registry table) es)) := by
  have hiff := run_iff_throughout (World.step p) (Sound registry) (DeliveredOnce id)
    (NotReplayed p id) (sound_step p registry) (once_step_iff p registry id)
    (World.start registry table) (sound_start registry table) List.nodup_nil es
  refine ⟨hiff,fun h => hiff.mpr ?_⟩
  exact throughout_mono (World.step p) (Sound registry) (SessionGuarded p id) (NotReplayed p id)
    (sound_step p registry) (guarded_not_replayed p registry id) _ (sound_start registry table) es h

def recordedFrame : Bytes := (counterNonce sampleIv 1).toList++List.replicate 18 5

def recordingAead : Aead Unit where
  newKey := fun _ _ => .ok ()
  sealInPlace := fun _ _ _ _ text => .ok (text++List.replicate 16 0)
  openInPlace := fun _ key nonce aad text =>
    if key = [1] ∧ aad = utf8 "openhttpa:7" ∧ nonce.toList++text = recordedFrame then
      .ok [msgBinary,42]
    else .error "tag mismatch"

def replayRun : List (Event ℕ) :=
  [.upgrade sampleUpgrade true,.deliver 0 (.client (.message (.binary recordedFrame))),
    .upgrade sampleUpgrade true,.deliver 1 (.client (.message (.binary recordedFrame)))]

theorem replayed_frame_forwarded_twice :
    (∀ a key nonce aad text plaintext,
      recordingAead.openInPlace a key nonce aad text = .ok plaintext →
        key = [1] ∧ aad = utf8 "openhttpa:7" ∧ nonce.toList++text = recordedFrame) ∧
    ¬ DeliveredOnce 7 (run (World.step (sampleProtocol recordingAead))
      (World.start sampleRegistry sampleTable) replayRun) := by
  constructor
  · intro a key nonce aad text plaintext h
    by_contra hn
    simp [recordingAead, if_neg hn] at h
  · unfold DeliveredOnce
    decide

end ArchetypeProxy.WsReplay

import ArchetypeProxy.WsSession

/-!
# Nonces of the sealed frames of a session

Each bridge of a session counts its seals from one under the same key and
vector. A run repeats no nonce exactly when every seal happens on a bridge
whose session has no other bridge that sealed, below the 64-bit bound.
-/

set_option autoImplicit false

namespace ArchetypeProxy.WsNonces
open ArchetypeProxy.CounterNonce ArchetypeProxy.OpenHttpa ArchetypeProxy.Routes
open ArchetypeProxy.Runs ArchetypeProxy.History ArchetypeProxy.WsFrames ArchetypeProxy.WsUpgrade
open ArchetypeProxy.WsBridge ArchetypeProxy.WsSession

variable {Id Suite A : Type} [DecidableEq Id]

def NonceUnique (id : Id) (w : World Id Suite A) : Prop := (sealedOf id w).Nodup

/-- A seal on a link of the session finds every other link of the session
without a seal, and its own counter below the 64-bit bound. -/
def SealsAlone (p : Protocol Id Suite A) (id : Id) (w : World Id Suite A) : Event Id → Prop
  | .deliver i input => ∀ l, w.links[i]? = some l → l.session = id →
      l.bridge.seals p.aead input = true →
      l.bridge.outKey.sealed < counters ∧
        ∀ j m, w.links[j]? = some m → m.session = id → j ≠ i → m.bridge.outKey.sealed = 0
  | _ => True

theorem mem_firstNonces (key : BoundAeadKey A) (x : Bytes × Nonce) :
    x ∈ firstNonces key ↔ ∃ n < key.sealed, x = (key.key,counterNonce key.iv (n+1)) := by
  simp [firstNonces, eq_comm]

theorem firstNonce_mem (key : BoundAeadKey A) (h : key.sealed ≠ 0) :
    (key.key,counterNonce key.iv 1) ∈ firstNonces key :=
  (mem_firstNonces _ _).mpr ⟨0,Nat.pos_of_ne_zero h,rfl⟩

theorem nextNonce_fresh_iff (key : BoundAeadKey A) :
    (key.key,key.nextNonce) ∉ firstNonces key ↔ key.sealed < counters := by
  rw [mem_firstNonces]
  constructor
  · intro hfresh
    by_contra hge
    refine hfresh ⟨key.sealed-counters,?_,Prod.ext rfl ((counterNonce_eq_iff _ _ _).mpr ?_)⟩
    · simp only [counters] at *
      omega
    · simp only [counters] at *
      omega
  · rintro hlt ⟨n,hn,hx⟩
    have hc := (counterNonce_eq_iff _ _ _).mp (Prod.mk.inj hx).2
    simp only [counters] at *
    omega

theorem mem_sealedOf (registry : Registry Id Suite) (w : World Id Suite A)
    (hw : Sound registry w) (id : Id) (x : Bytes × Nonce) :
    x ∈ sealedOf id w ↔
      ∃ (i : ℕ) (l : Link Id A), w.links[i]? = some l ∧ l.session = id ∧
        x ∈ firstNonces l.bridge.outKey := by
  rw [sealedOf, mem_session_view registry w hw]
  refine exists_congr fun i => exists_congr fun l => and_congr_right fun hl =>
    and_congr_right fun _ => ?_
  rw [← (hw.links i l hl).sealed]
  rfl

theorem shared_nonce_repeats (registry : Registry Id Suite) (w : World Id Suite A)
    (hw : Sound registry w) (id : Id) (i j : ℕ) (l m : Link Id A)
    (hl : w.links[i]? = some l) (hm : w.links[j]? = some m) (hls : l.session = id)
    (hms : m.session = id) (x : Bytes × Nonce) (hxl : x ∈ firstNonces l.bridge.outKey)
    (hxm : x ∈ firstNonces m.bridge.outKey) (hu : NonceUnique id w) : i = j := by
  rw [← (hw.links i l hl).sealed] at hxl
  rw [← (hw.links j m hm).sealed] at hxm
  obtain ⟨d,hd,hqd,hfd⟩ := (mem_view _ _ _ _).mp hxl
  obtain ⟨e,he,hqe,hfe⟩ := (mem_view _ _ _ _).mp hxm
  have hdi : d.1.link = i := by simpa using hqd
  have hej : e.1.link = j := by simpa using hqe
  have hsession : ∀ t ∈ w.log, ∀ n k, t.1.link = n → w.links[n]? = some k → k.session = id →
      t.1.session = id := by
    intro t ht n k hn hk hks
    obtain ⟨k',hk',hs⟩ := hw.logged t ht
    rw [hn, hk, Option.some.injEq] at hk'
    rw [← hs, ← hk', hks]
  have hde := view_nodup_unique _ _ _ hu d e x hd he
    (by simp [hsession d hd i l hdi hl hls]) (by simp [hsession e he j m hej hm hms]) hfd hfe
  rw [← hdi, hde, hej]

theorem next_fresh_iff (registry : Registry Id Suite) (w : World Id Suite A)
    (hw : Sound registry w) (id : Id) (i : ℕ) (l : Link Id A) (hl : w.links[i]? = some l)
    (hls : l.session = id) (hu : NonceUnique id w) :
    (l.bridge.outKey.key,l.bridge.outKey.nextNonce) ∉ sealedOf id w ↔
      l.bridge.outKey.sealed < counters ∧
        ∀ j m, w.links[j]? = some m → m.session = id → j ≠ i → m.bridge.outKey.sealed = 0 := by
  rw [mem_sealedOf registry w hw]
  constructor
  · intro hfresh
    refine ⟨(nextNonce_fresh_iff _).mp fun h => hfresh ⟨i,l,hl,hls,h⟩,fun j m hm hms hji => ?_⟩
    by_contra hpos
    obtain ⟨hkey,hiv,_⟩ := same_keys registry w hw i j l m hl hm (hls.trans hms.symm)
    have hone := firstNonce_mem m.bridge.outKey hpos
    rw [hkey, hiv] at hone
    by_cases hz : l.bridge.outKey.sealed = 0
    · apply hfresh
      refine ⟨j,m,hm,hms,?_⟩
      rw [BoundAeadKey.nextNonce, hz]
      exact hone
    · exact hji (shared_nonce_repeats registry w hw id i j l m hl hm hls hms _
        (firstNonce_mem _ hz) hone hu).symm
  · rintro ⟨hbound,hothers⟩ ⟨j,m,hm,hms,hx⟩
    by_cases hji : j = i
    · subst hji
      rw [hl, Option.some.injEq] at hm
      subst hm
      exact (nextNonce_fresh_iff _).mpr hbound hx
    · obtain ⟨n,hn,_⟩ := (mem_firstNonces _ _).mp hx
      have hz := hothers j m hm hms hji
      omega

theorem unique_step_iff (p : Protocol Id Suite A) (registry : Registry Id Suite) (id : Id)
    (w : World Id Suite A) (e : Event Id) (hw : Sound registry w) :
    NonceUnique id (w.step p e) ↔ NonceUnique id w ∧ SealsAlone p id w e := by
  refine nodup_step_iff p id sealedPair w (SealsAlone p id w) ?_ ?_ ?_ e
  · intro e he
    cases e with
    | deliver i input => exact absurd rfl (he i input)
    | _ => trivial
  · intro i input hl
    simp [SealsAlone, hl]
  · intro i input l hl
    rw [← sealedOf]
    by_cases hls : l.session = id
    · rw [if_pos hls]
      rcases step_cases p.aead l.bridge input with ⟨hs,_,hq⟩ | ⟨hs,_,hq⟩ | ⟨hs,_,_,_,hq⟩
      · simp [hq.sealed, SealsAlone, hl, hs]
      · rw [hq.sealed, List.nodup_append_comm, List.singleton_append, List.nodup_cons, and_comm]
        refine and_congr_right fun hu => ?_
        rw [next_fresh_iff registry w hw id i l hl hls hu]
        simp [SealsAlone, hl, hs, hls]
      · simp [hq.sealed, SealsAlone, hl, hs]
    · simp [SealsAlone, hl, hls]

/-- The exact condition for runs: distinct nonces after any interleaving of
upgrades and messages, if and only if every seal of the run was alone. -/
theorem nonces_unique_iff (p : Protocol Id Suite A) (registry : Registry Id Suite)
    (table : RouteTable) (id : Id) (es : List (Event Id)) :
    NonceUnique id (run (World.step p) (World.start registry table) es) ↔
      Throughout (World.step p) (SealsAlone p id) (World.start registry table) es :=
  run_iff_throughout (World.step p) (Sound registry) (NonceUnique id) (SealsAlone p id)
    (sound_step p registry) (unique_step_iff p registry id) (World.start registry table)
    (sound_start registry table) List.nodup_nil es

def twoBridges : List (Event ℕ) :=
  [.upgrade sampleUpgrade true,.upgrade sampleUpgrade true,
    .deliver 0 (.upstream (.message (.binary [10]))),
    .deliver 1 (.upstream (.message (.binary [20])))]

theorem two_bridges_share_nonce :
    ¬ NonceUnique 7 (run (World.step (sampleProtocol taggingAead))
      (World.start sampleRegistry sampleTable) twoBridges) := by
  unfold NonceUnique
  decide

end ArchetypeProxy.WsNonces

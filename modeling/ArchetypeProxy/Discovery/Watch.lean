import ArchetypeProxy.Library.Runs
import ArchetypeProxy.Library.Upserts
import ArchetypeProxy.Routes

/-!
# The route store of one watched kind

Watch events of Services or Ingresses become operations on a store of
committed routes with an optional buffer for a list in progress. The cluster
view is the meaning of the same events on objects: a list is gathered aside
and replaces the view when it is complete, later events overlay it. After
every well-formed stream the committed routes are those of the opted-in
objects of the view.
-/

set_option autoImplicit false

namespace ArchetypeProxy.Discovery.Watch
open ArchetypeProxy.Routes ArchetypeProxy.Runs ArchetypeProxy.Upserts

abbrev Annotations := Std.ExtTreeMap String String
abbrev RouteMap := Std.ExtTreeMap String Route

def enableKey : String := "archetype.li/enable"
def upstreamKey : String := "archetype.li/upstream"
def hostKey : String := "archetype.li/host"
def pathPrefixKey : String := "archetype.li/path-prefix"
def strictKey : String := "archetype.li/strict"

def routeFromAnnotations (objectName : String) (annotations : Annotations) : Option Route :=
  if annotations[enableKey]?.bind parseBoolToken ≠ some true then none
  else annotations[upstreamKey]?.map (fun upstream =>
    { name := "k8s/" ++ objectName
      host := annotations[hostKey]?.getD ""
      pathPrefix := annotations[pathPrefixKey]?.getD ""
      upstream := upstream
      strictAttestation := annotations[strictKey]?.bind parseBoolToken
      source := .discovered })

structure Object where
  space : Option String
  name : Option String
  annotations : Option Annotations

def objectKey (o : Object) : String := o.space.getD "" ++ "/" ++ o.name.getD ""

def routeFromObject (o : Object) : Option Route :=
  routeFromAnnotations (o.name.getD "") (o.annotations.getD ∅)

inductive Event where
  | init
  | initApply (o : Object)
  | initDone
  | apply (o : Object)
  | delete (o : Object)

inductive Op where
  | init
  | initApply (key : String) (route : Option Route)
  | initDone
  | apply (key : String) (route : Option Route)
  | delete (key : String)

def toOp : Event → Op
  | .init => .init
  | .initDone => .initDone
  | .initApply o => .initApply (objectKey o) (routeFromObject o)
  | .apply o => .apply (objectKey o) (routeFromObject o)
  | .delete o => .delete (objectKey o)

structure KindStore where
  committed : RouteMap
  buffer : Option RouteMap

def KindStore.empty : KindStore := ⟨∅,none⟩

def KindStore.remove (s : KindStore) (key : String) : KindStore × Bool :=
  ({ s with committed := s.committed.erase key },s.committed[key]?.isSome)

def KindStore.apply (s : KindStore) : Op → KindStore × Bool
  | .init => ({ s with buffer := some ∅ },false)
  | .initApply key route =>
    match s.buffer, route with
    | some buf, some r => ({ s with buffer := some (buf.insert key r) },false)
    | _, _ => (s,false)
  | .initDone =>
    let new := s.buffer.getD ∅
    (⟨new,none⟩,new != s.committed)
  | .apply key (some r) =>
    ({ s with committed := s.committed.insert key r },s.committed[key]? != some r)
  | .apply key none => s.remove key
  | .delete key => s.remove key

def KindStore.routes (s : KindStore) : List Route := s.committed.values

theorem insert_changed_iff (m : RouteMap) (key : String) (r : Route) :
    (m[key]? != some r) = true ↔ m.insert key r ≠ m := by
  rw [bne_iff_ne, not_iff_not]
  constructor
  · intro h
    refine Std.ExtTreeMap.ext_getElem? fun k => ?_
    rw [getElem?_insert_key]
    split
    · rename_i hk
      rw [← hk, h]
    · rfl
  · intro h
    rw [← h, getElem?_insert_key, if_pos rfl]

theorem erase_changed_iff (m : RouteMap) (key : String) :
    m[key]?.isSome = true ↔ m.erase key ≠ m := by
  rw [← not_iff_not, not_not, Bool.not_eq_true, Option.isSome_eq_false_iff,
    Option.isNone_iff_eq_none]
  constructor
  · intro h
    refine Std.ExtTreeMap.ext_getElem? fun k => ?_
    rw [getElem?_erase_key]
    split
    · rename_i hk
      rw [← hk, h]
    · rfl
  · intro h
    rw [← h, getElem?_erase_key, if_pos rfl]

theorem apply_changed_iff (s : KindStore) (op : Op) :
    (s.apply op).2 = true ↔ (s.apply op).1.committed ≠ s.committed := by
  cases op with
  | init => simp [KindStore.apply]
  | initApply key route =>
    cases hb : s.buffer <;> cases route <;> simp [KindStore.apply, hb]
  | initDone => simp [KindStore.apply]
  | apply key route =>
    cases route with
    | none => exact erase_changed_iff s.committed key
    | some r => exact insert_changed_iff s.committed key r
  | delete key => exact erase_changed_iff s.committed key

/-- The report of an operation is exact, and the operations of a list in
progress leave the committed routes alone. -/
theorem change_detection_exact (s : KindStore) (op : Op) :
    ((s.apply op).2 = true ↔ (s.apply op).1.committed ≠ s.committed) ∧
      (s.apply .init).1.committed = s.committed ∧
      ∀ key route, (s.apply (.initApply key route)).1.committed = s.committed := by
  refine ⟨apply_changed_iff s op,rfl,?_⟩
  intro key route
  cases hb : s.buffer <;> cases route <;> simp [KindStore.apply, hb]

/-- The objects by the last complete list and the events after it, and the
objects of the list in progress. -/
structure ClusterView where
  objects : String → Option Object
  listing : Option (List Object)

def ClusterView.empty : ClusterView := ⟨fun _ => none,none⟩

def listed (l : List Object) (key : String) : Option Object :=
  l.find? (fun o => objectKey o == key)

def ClusterView.set (v : ClusterView) (key : String) (o : Option Object) : ClusterView :=
  { v with objects := fun k => if key = k then o else v.objects k }

def ClusterView.step (v : ClusterView) : Event → ClusterView
  | .init => { v with listing := some [] }
  | .initApply o => { v with listing := v.listing.map (· ++ [o]) }
  | .initDone => ⟨listed (v.listing.getD []),none⟩
  | .apply o => v.set (objectKey o) (some o)
  | .delete o => v.set (objectKey o) none

/-- What a watcher may send: list items and the end of a list only within a
list and no object twice, live events only outside. A list may start anew at
any time. -/
def Admissible (v : ClusterView) : Event → Prop
  | .init => True
  | .initApply o => ∃ l, v.listing = some l ∧ objectKey o ∉ l.map objectKey
  | .initDone => v.listing.isSome = true
  | .apply _ => v.listing = none
  | .delete _ => v.listing = none

def WellFormed (es : List Event) : Prop :=
  Throughout ClusterView.step Admissible ClusterView.empty es

def storeAfter (es : List Event) : KindStore :=
  run (fun s e => (s.apply (toOp e)).1) KindStore.empty es

def viewAfter (es : List Event) : ClusterView := run ClusterView.step ClusterView.empty es

def Holds (m : RouteMap) (objects : String → Option Object) : Prop :=
  ∀ key, m[key]? = (objects key).bind routeFromObject

structure Refines (s : KindStore) (v : ClusterView) : Prop where
  committed : Holds s.committed v.objects
  buffered : ∀ l, v.listing = some l → ∃ buf, s.buffer = some buf ∧ Holds buf (listed l)

theorem listed_absent (l : List Object) (key : String) (h : key ∉ l.map objectKey) :
    listed l key = none := by
  rw [listed, List.find?_eq_none]
  intro x hx he
  exact h (List.mem_map.mpr ⟨x,hx,by simpa using he⟩)

theorem listed_concat (l : List Object) (o : Object) (h : objectKey o ∉ l.map objectKey) :
    listed (l++[o]) = fun key => if objectKey o = key then some o else listed l key := by
  funext key
  rw [listed, List.find?_append]
  by_cases hk : objectKey o = key
  · have hnone := listed_absent l key (hk ▸ h)
    rw [listed] at hnone
    simp [hnone, hk]
  · simp [hk, listed]

theorem holds_insert (m : RouteMap) (objects : String → Option Object) (o : Object) (r : Route)
    (h : Holds m objects) (hr : routeFromObject o = some r) :
    Holds (m.insert (objectKey o) r) (fun k => if objectKey o = k then some o else objects k) := by
  intro key
  rw [getElem?_insert_key, h key]
  dsimp only
  split
  · exact hr.symm
  · rfl

theorem holds_erase (m : RouteMap) (objects : String → Option Object) (key : String)
    (o : Option Object) (h : Holds m objects) (ho : o.bind routeFromObject = none) :
    Holds (m.erase key) (fun k => if key = k then o else objects k) := by
  intro k
  rw [getElem?_erase_key, h k]
  dsimp only
  split
  · exact ho.symm
  · rfl

/-- An object without a route may be left out, as long as its key is new. -/
theorem holds_skip (m : RouteMap) (objects : String → Option Object) (o : Object)
    (h : Holds m objects) (hr : routeFromObject o = none) (hn : objects (objectKey o) = none) :
    Holds m (fun k => if objectKey o = k then some o else objects k) := by
  intro key
  rw [h key]
  dsimp only
  split
  · rename_i hk
    rw [← hk, hn]
    exact hr.symm
  · rfl

theorem holds_empty : Holds ∅ (fun _ => none) := fun _ => Std.ExtTreeMap.getElem?_empty

theorem buffer_step (s : KindStore) (buf : RouteMap) (l : List Object) (o : Object)
    (hb : s.buffer = some buf) (h : Holds buf (listed l)) (hn : objectKey o ∉ l.map objectKey) :
    (s.apply (toOp (.initApply o))).1.committed = s.committed ∧
    ∃ buf', (s.apply (toOp (.initApply o))).1.buffer = some buf' ∧
      Holds buf' (listed (l++[o])) := by
  rw [listed_concat l o hn]
  cases hr : routeFromObject o with
  | none =>
    simp only [toOp, hr, KindStore.apply, hb]
    exact ⟨trivial,buf,rfl,holds_skip buf (listed l) o h hr (listed_absent l _ hn)⟩
  | some r =>
    simp only [toOp, hr, KindStore.apply, hb]
    exact ⟨trivial,_,rfl,holds_insert buf (listed l) o r h hr⟩

theorem refines_step (s : KindStore) (v : ClusterView) (e : Event) (h : Refines s v)
    (he : Admissible v e) : Refines (s.apply (toOp e)).1 (v.step e) := by
  obtain ⟨hcommitted,hbuffered⟩ := h
  cases e with
  | init =>
    refine ⟨hcommitted,?_⟩
    intro l hl
    cases hl
    exact ⟨∅,rfl,holds_empty⟩
  | initApply o =>
    obtain ⟨l,hl,hn⟩ := he
    obtain ⟨buf,hbuf,hholds⟩ := hbuffered l hl
    obtain ⟨hsame,buf',hbuf',hholds'⟩ := buffer_step s buf l o hbuf hholds hn
    refine ⟨by rw [hsame]; exact hcommitted,?_⟩
    intro l' hl'
    simp only [ClusterView.step, hl, Option.map_some, Option.some.injEq] at hl'
    exact ⟨buf',hbuf',hl' ▸ hholds'⟩
  | initDone =>
    obtain ⟨l,hl⟩ := Option.isSome_iff_exists.mp he
    obtain ⟨buf,hbuf,hholds⟩ := hbuffered l hl
    refine ⟨?_,fun l' hl' => by cases hl'⟩
    simp only [toOp, KindStore.apply, hbuf, Option.getD_some, ClusterView.step, hl]
    exact hholds
  | apply o =>
    refine ⟨?_,fun l hl => absurd (he.symm.trans hl) (by simp)⟩
    cases hr : routeFromObject o with
    | none =>
      simp only [toOp, hr, KindStore.apply, KindStore.remove]
      exact holds_erase s.committed v.objects _ (some o) hcommitted hr
    | some r =>
      simp only [toOp, hr, KindStore.apply]
      exact holds_insert s.committed v.objects o r hcommitted hr
  | delete o =>
    exact ⟨holds_erase s.committed v.objects _ none hcommitted rfl,
      fun l hl => absurd (he.symm.trans hl) (by simp)⟩

theorem refines_after (es : List Event) (h : WellFormed es) :
    Refines (storeAfter es) (viewAfter es) :=
  run_simulation _ ClusterView.step Refines Admissible refines_step KindStore.empty
    ClusterView.empty ⟨holds_empty,fun l hl => by cases hl⟩ es h

theorem listing_step (s : KindStore) (v : ClusterView) (e : Event) (he : Admissible v e)
    (hl : v.listing.isSome = true) (hd : e ≠ .initDone) :
    (s.apply (toOp e)).1.committed = s.committed ∧ (v.step e).listing.isSome = true := by
  cases e with
  | init => exact ⟨rfl,rfl⟩
  | initApply o =>
    refine ⟨?_,by simpa [ClusterView.step] using hl⟩
    cases hb : s.buffer <;> cases hr : routeFromObject o <;> simp [toOp, KindStore.apply, hb, hr]
  | initDone => exact absurd rfl hd
  | apply o => simp [show v.listing = none from he] at hl
  | delete o => simp [show v.listing = none from he] at hl

theorem storeAfter_append (es fs : List Event) :
    storeAfter (es++fs) = run (fun s e => (s.apply (toOp e)).1) (storeAfter es) fs :=
  run_append _ _ es fs

theorem storeAfter_concat (es : List Event) (e : Event) :
    storeAfter (es++[e]) = ((storeAfter es).apply (toOp e)).1 :=
  run_concat _ _ es e

theorem viewAfter_concat (es : List Event) (e : Event) :
    viewAfter (es++[e]) = (viewAfter es).step e :=
  run_concat _ _ es e

theorem listing_stable (before mid : List Event) (h : WellFormed (before++.init::mid))
    (hm : ∀ e ∈ mid, e ≠ .initDone) :
    (storeAfter (before++.init::mid)).committed = (storeAfter before).committed ∧
      (viewAfter (before++.init::mid)).listing.isSome = true := by
  induction mid using List.reverseRecOn with
  | nil =>
    rw [storeAfter_concat, viewAfter_concat]
    exact ⟨rfl,rfl⟩
  | append_singleton mid e ih =>
    rw [← List.cons_append, ← List.append_assoc] at h ⊢
    obtain ⟨hpre,he⟩ := (throughout_concat _ _ _ _ e).mp h
    obtain ⟨hsame,hlist⟩ := ih hpre fun f hf => hm f (by simp [hf])
    obtain ⟨hsame',hlist'⟩ := listing_step (storeAfter (before++.init::mid)) _ e he hlist
      (hm e (by simp))
    rw [storeAfter_concat, viewAfter_concat]
    exact ⟨hsame'.trans hsame,hlist'⟩

structure FollowsCluster (es : List Event) : Prop where
  committed : Holds (storeAfter es).committed (viewAfter es).objects
  stable : ∀ before mid after, es = before++.init::mid++after → (∀ e ∈ mid, e ≠ .initDone) →
    (storeAfter (before++.init::mid)).committed = (storeAfter before).committed
  aborted : ∀ before mid after, es = before++.init::mid++.init::after →
    (∀ e ∈ mid, e ≠ .initDone) → storeAfter es = storeAfter (before++.init::after)
  deleted : ∀ before o, es = before++[.delete o] → (storeAfter es).committed[objectKey o]? = none
  optedOut : ∀ before o, es = before++[.apply o] → routeFromObject o = none →
    (storeAfter es).committed[objectKey o]? = none
  unlisted : ∀ before l key, es = before++[.initDone] → (viewAfter before).listing = some l →
    key ∉ l.map objectKey → (storeAfter es).committed[key]? = none

/-- The store refines the cluster view on every well-formed stream. -/
theorem store_follows_cluster (es : List Event) (h : WellFormed es) : FollowsCluster es where
  committed := (refines_after es h).committed
  stable := by
    intro before mid after hes hm
    exact (listing_stable before mid (throughout_of_append _ _ _ _ after (hes ▸ h)) hm).1
  aborted := by
    intro before mid after hes hm
    have hpre : WellFormed (before++.init::mid) := throughout_of_append _ _ _ _ _ (hes ▸ h)
    have hsame := (listing_stable before mid hpre hm).1
    have hinit : ((storeAfter (before++.init::mid)).apply .init).1 =
        ((storeAfter before).apply .init).1 := by
      simp only [KindStore.apply, hsame]
    rw [hes, storeAfter_append (before++.init::mid), storeAfter_append before (.init::after)]
    exact congrArg (fun s => run (fun s e => (s.apply (toOp e)).1) s after) hinit
  deleted := by
    intro before o hes
    rw [(refines_after es h).committed, hes, viewAfter_concat]
    simp [ClusterView.step, ClusterView.set]
  optedOut := by
    intro before o hes hr
    rw [(refines_after es h).committed, hes, viewAfter_concat]
    simp [ClusterView.step, ClusterView.set, hr]
  unlisted := by
    intro before l key hes hl hk
    rw [(refines_after es h).committed, hes, viewAfter_concat]
    simp [ClusterView.step, hl, listed_absent l key hk]

def sampleObject (name upstream : String) : Object :=
  ⟨some "prod",some name,
    some (((∅ : Annotations).insert enableKey "true").insert upstreamKey upstream)⟩

def sampleStream : List Event :=
  [.init,.initApply (sampleObject "old" "http://old:80"),.init,
    .initApply (sampleObject "api" "http://api:80"),.initApply (sampleObject "web" "http://web:80"),
    .initDone,.delete (sampleObject "api" "http://api:80"),
    .apply (sampleObject "db" "http://db:80")]

theorem sample_stream_follows_cluster :
    FollowsCluster sampleStream ∧ (storeAfter sampleStream).routes.map Route.name =
      ["k8s/db","k8s/web"] := by
  have hwf : WellFormed sampleStream := by
    simp only [WellFormed, sampleStream, throughout_cons, Admissible, ClusterView.step,
      ClusterView.set, ClusterView.empty]
    refine ⟨trivial,⟨[],rfl,by simp⟩,trivial,⟨[],rfl,by simp⟩,⟨[_],rfl,by decide⟩,rfl,trivial,
      trivial,throughout_nil _ _ _⟩
  exact ⟨store_follows_cluster sampleStream hwf,by decide⟩

end ArchetypeProxy.Discovery.Watch

import ArchetypeProxy.Discovery.Watch

/-!
# A list against the same observations live

An object observed without a route is removed from the committed routes by a
live event, but a list in progress passes over it. The two paths part when a
list shows an object with a route first and without one in the end.
-/

set_option autoImplicit false

namespace ArchetypeProxy.Discovery.Relist
open ArchetypeProxy.Routes ArchetypeProxy.Runs ArchetypeProxy.Upserts
open ArchetypeProxy.Discovery.Watch

abbrev Observation := String × Option Route

def opStep (s : KindStore) (op : Op) : KindStore := (s.apply op).1

def relist (s : KindStore) (obs : List Observation) : RouteMap :=
  (run opStep s (.init::obs.map (fun o => .initApply o.1 o.2)++[.initDone])).committed

def live (obs : List Observation) : RouteMap :=
  (run opStep KindStore.empty (obs.map (fun o => .apply o.1 o.2))).committed

def routed (obs : List Observation) : List (String × Route) :=
  obs.filterMap (fun o => o.2.map (fun r => (o.1,r)))

theorem live_eq_upserts (s : KindStore) (obs : List Observation) :
    (run opStep s (obs.map (fun o => .apply o.1 o.2))).committed = upserts s.committed obs := by
  induction obs generalizing s with
  | nil => rfl
  | cons o obs ih =>
    obtain ⟨key,_|r⟩ := o
    · exact ih (opStep s (.apply key none))
    · exact ih (opStep s (.apply key (some r)))

theorem buffer_eq_insertAll (s : KindStore) (buf : RouteMap) (obs : List Observation)
    (h : s.buffer = some buf) :
    (run opStep s (obs.map (fun o => .initApply o.1 o.2))).buffer =
      some (insertAll buf (routed obs)) := by
  induction obs generalizing s buf with
  | nil => exact h
  | cons o obs ih =>
    obtain ⟨key,_|r⟩ := o
    · have hs : opStep s (.initApply key none) = s := by simp [opStep, KindStore.apply]
      rw [List.map_cons, run, List.foldl_cons, ← run, hs]
      exact ih s buf h
    · have hs : (opStep s (.initApply key (some r))).buffer = some (buf.insert key r) := by
        simp [opStep, KindStore.apply, h]
      exact ih (opStep s (.initApply key (some r))) (buf.insert key r) hs

theorem relist_eq_insertAll (s : KindStore) (obs : List Observation) :
    relist s obs = insertAll ∅ (routed obs) := by
  have hbuf := buffer_eq_insertAll (opStep s .init) ∅ obs rfl
  rw [relist, run_concat, run, List.foldl_cons, ← run]
  simp only [opStep, KindStore.apply] at hbuf ⊢
  rw [hbuf]
  rfl

theorem routed_concat (obs : List Observation) (o : Observation) :
    routed (obs++[o]) = routed obs++(o.2.map (fun r => (o.1,r))).toList := by
  rw [routed, List.filterMap_append, ← routed]
  cases h : o.2 <;> simp [h]

theorem mem_routed_iff (obs : List Observation) (key : String) (r : Route) :
    (key,r) ∈ routed obs ↔ (key,some r) ∈ obs := by
  simp [routed, List.mem_filterMap]

theorem lastOf_routed_some (obs : List Observation) (key : String) (r : Route)
    (h : lastOf obs key = some (some r)) : lastOf (routed obs) key = some r := by
  induction obs using List.reverseRecOn with
  | nil => simp [lastOf] at h
  | append_singleton obs o ih =>
    obtain ⟨k,route⟩ := o
    rw [lastOf_concat] at h
    by_cases hk : k = key
    · rw [if_pos hk] at h
      cases h
      rw [routed_concat, Option.map_some, Option.toList_some, lastOf_concat, if_pos hk]
    · rw [if_neg hk] at h
      cases route with
      | none => simpa [routed_concat] using ih h
      | some r' =>
        rw [routed_concat, Option.map_some, Option.toList_some, lastOf_concat, if_neg hk]
        exact ih h

theorem lastOf_routed_none_iff (obs : List Observation) (key : String) :
    lastOf (routed obs) key = none ↔ ∀ r, (key,some r) ∉ obs := by
  rw [lastOf_eq_none_iff]
  constructor
  · intro h r hmem
    exact h (key,r) ((mem_routed_iff obs key r).mpr hmem) rfl
  · rintro h ⟨k,r⟩ hmem rfl
    exact h r ((mem_routed_iff obs k r).mp hmem)

def LastWins (m : RouteMap) (obs : List Observation) : Prop :=
  ∀ key, m[key]? = (lastOf obs key).join

theorem live_lastWins (obs : List Observation) : LastWins (live obs) obs := by
  intro key
  rw [live, live_eq_upserts, getElem?_upserts]
  cases lastOf obs key with
  | none => rfl
  | some route => rfl

/-- No key is observed with a route and without one in the end. -/
def NeverLost (obs : List Observation) : Prop :=
  ∀ key, lastOf obs key = some none → ∀ r, (key,some r) ∉ obs

theorem relist_lastWins_iff (s : KindStore) (obs : List Observation) :
    LastWins (relist s obs) obs ↔ NeverLost obs := by
  have hlookup : ∀ key, (relist s obs)[key]? = lastOf (routed obs) key := by
    intro key
    rw [relist_eq_insertAll, getElem?_insertAll, Std.ExtTreeMap.getElem?_empty, Option.or_none]
  constructor
  · intro h key hlast
    rw [← lastOf_routed_none_iff, ← hlookup, h key, hlast]
    rfl
  · intro h key
    rw [hlookup]
    cases hlast : lastOf obs key with
    | none =>
      refine (lastOf_routed_none_iff obs key).mpr fun r hmem => ?_
      exact (lastOf_eq_none_iff obs key).mp hlast _ hmem rfl
    | some route =>
      cases route with
      | none => exact (lastOf_routed_none_iff obs key).mpr (h key hlast)
      | some r => exact lastOf_routed_some obs key r hlast

/-- The list and the live events give the same routes, those of the last
observations, exactly when no object loses its route within the list. -/
theorem relist_agrees_iff_never_lost (s : KindStore) (obs : List Observation) :
    (relist s obs = live obs ∧ LastWins (relist s obs) obs ∧ LastWins (live obs) obs) ↔
      NeverLost obs := by
  rw [← relist_lastWins_iff s obs]
  constructor
  · intro h
    exact h.2.1
  · intro h
    refine ⟨Std.ExtTreeMap.ext_getElem? fun key => ?_,h,live_lastWins obs⟩
    rw [h key, live_lastWins obs key]

def optedIn : Route := ⟨"k8s/a","","","http://a:1",none,.discovered⟩

theorem stale_route_after_relist :
    ¬ (relist KindStore.empty [("ns/a",some optedIn),("ns/a",none)] =
        live [("ns/a",some optedIn),("ns/a",none)] ∧
      LastWins (relist KindStore.empty [("ns/a",some optedIn),("ns/a",none)])
        [("ns/a",some optedIn),("ns/a",none)] ∧
      LastWins (live [("ns/a",some optedIn),("ns/a",none)])
        [("ns/a",some optedIn),("ns/a",none)]) := by
  rintro ⟨-,hwins,-⟩
  have hlost := (relist_lastWins_iff _ _).mp hwins "ns/a" (by decide) optedIn
  exact hlost (by simp)

end ArchetypeProxy.Discovery.Relist

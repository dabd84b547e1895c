import ArchetypeProxy.Configuration.Load
import ArchetypeProxy.Discovery.OptIn

/-!
# The upstream of older files

A file of the older form names one upstream for everything. It becomes a
route for every host and path behind the routes of the file, and discovery
adds its routes behind that. Whatever discovery finds, the route is the last
resort: a request takes it exactly when it would have been turned away.
-/

set_option autoImplicit false

namespace ArchetypeProxy.LegacyUpstream
open ArchetypeProxy.Configuration.Load ArchetypeProxy.Discovery.Convergence
open ArchetypeProxy.Discovery.Labels ArchetypeProxy.Discovery.OptIn
open ArchetypeProxy.Discovery.Watch (KindStore RouteMap routeFromObject storeAfter toOp)
open ArchetypeProxy.Routes ArchetypeProxy.Runs ArchetypeProxy.StableSelection
open ArchetypeProxy.Text ArchetypeProxy.Upserts

/-! ## Routes of discovery -/

theorem declared_discovered (c : Container) (r : Route) (h : r ∈ c.declared.1) :
    r.source = .discovered := by
  by_cases henabled : Enabled (c.labels.getD ∅)
  · rw [Container.declared, routesFromLabels_enabled _ _ henabled] at h
    split at h
    · obtain ⟨upstream,-,rfl⟩ := Option.map_eq_some_iff.mp (Option.mem_toList.mp h)
      rfl
    · rw [explicitRoutes_eq] at h
      obtain ⟨group,-,hgroup⟩ := List.mem_filterMap.mp h
      obtain ⟨upstream,-,rfl⟩ := Option.map_eq_some_iff.mp hgroup
      rfl
  · rw [Container.declared, routesFromLabels_disabled _ _ henabled] at h
    cases h

theorem object_discovered (o : Discovery.Watch.Object) (r : Route)
    (h : routeFromObject o = some r) : r.source = .discovered := by
  rw [routeFromObject, Discovery.Watch.routeFromAnnotations] at h
  split at h
  · cases h
  · obtain ⟨upstream,-,rfl⟩ := Option.map_eq_some_iff.mp h
    rfl

def Discovered (m : RouteMap) : Prop :=
  ∀ (key : String) r, m[key]? = some r → r.source = .discovered

theorem discovered_insert (m : RouteMap) (key : String) (r : Route) (h : Discovered m)
    (hr : r.source = .discovered) : Discovered (m.insert key r) := by
  intro k s hs
  rw [getElem?_insert_key] at hs
  split at hs
  · cases hs
    exact hr
  · exact h k s hs

theorem discovered_erase (m : RouteMap) (key : String) (h : Discovered m) :
    Discovered (m.erase key) := by
  intro k s hs
  rw [getElem?_erase_key] at hs
  split at hs
  · cases hs
  · exact h k s hs

theorem discovered_empty : Discovered ∅ := by
  intro k s hs
  rw [Std.ExtTreeMap.getElem?_empty] at hs
  cases hs

def StoreDiscovered (s : KindStore) : Prop :=
  Discovered s.committed ∧ Discovered (s.buffer.getD ∅)

theorem storeDiscovered_step (s : KindStore) (e : Discovery.Watch.Event) (h : StoreDiscovered s) :
    StoreDiscovered (s.apply (toOp e)).1 := by
  obtain ⟨hcommitted,hbuffer⟩ := h
  cases e with
  | init => exact ⟨hcommitted,discovered_empty⟩
  | initDone => exact ⟨hbuffer,discovered_empty⟩
  | delete o => exact ⟨discovered_erase _ _ hcommitted,hbuffer⟩
  | apply o =>
    rw [toOp]
    cases hr : routeFromObject o with
    | none => exact ⟨discovered_erase _ _ hcommitted,hbuffer⟩
    | some r => exact ⟨discovered_insert _ _ _ hcommitted (object_discovered o r hr),hbuffer⟩
  | initApply o =>
    rw [toOp]
    cases hr : routeFromObject o with
    | none => cases hb : s.buffer <;> simpa [KindStore.apply, hb] using ⟨hcommitted,hbuffer⟩
    | some r =>
      cases hb : s.buffer with
      | none => simpa [KindStore.apply, hb] using ⟨hcommitted,hbuffer⟩
      | some buf =>
        rw [hb] at hbuffer
        simpa [KindStore.apply, hb, StoreDiscovered] using
          ⟨hcommitted,discovered_insert buf _ _ hbuffer (object_discovered o r hr)⟩

theorem store_discovered (events : List Discovery.Watch.Event) (r : Route)
    (h : r ∈ (storeAfter events).routes) : r.source = .discovered := by
  have hempty : StoreDiscovered KindStore.empty := ⟨discovered_empty,discovered_empty⟩
  have hstore : StoreDiscovered (storeAfter events) :=
    run_invariant _ StoreDiscovered storeDiscovered_step _ hempty events
  obtain ⟨key,hkey⟩ := (mem_values_iff _ r).mp h
  exact hstore.1 key r hkey

theorem contribution_discovered (fileRoutes : List Route) (es : List Seen) (name : String)
    (r : Route) (h : r ∈ (observe fileRoutes es).world.contribution name) :
    r.source = .discovered := by
  obtain ⟨before,-,hpoll|hsnap⟩ := contribution_taken fileRoutes es name r h
  · rw [(faithful_observe fileRoutes before).polled] at hpoll
    cases hlisting : (observe fileRoutes before).listing with
    | none =>
      rw [hlisting] at hpoll
      cases hpoll
    | some containers =>
      rw [hlisting] at hpoll
      obtain ⟨c,-,-,hr⟩ := (mem_pollOnce_iff containers r).mp hpoll
      exact declared_discovered c r hr
  · rw [KubernetesProvider.snapshot, (faithful_observe fileRoutes before).services,
      (faithful_observe fileRoutes before).ingresses] at hsnap
    exact (List.mem_append.mp hsnap).elim (store_discovered _ r) (store_discovered _ r)

/-! ## The last resort -/

theorem default_specificity_le (up : FileUpstream) (r : Route) :
    (upstreamDefault up).specificity ≤ r.specificity := by
  have hzero : (upstreamDefault up).specificity = toLex (0,toLex (0,0)) := rfl
  rw [hzero, Route.specificity, Prod.Lex.toLex_le_toLex, Prod.Lex.toLex_le_toLex]
  dsimp only
  omega

theorem default_specificity_lt (up : FileUpstream) (r : Route) (h : r.source = .discovered) :
    (upstreamDefault up).specificity < r.specificity := by
  refine lt_of_le_of_ne (default_specificity_le up r) fun heq => ?_
  have hrank := congrArg (fun s => (ofLex (ofLex s).2).2) heq
  rw [Route.specificity, Route.specificity, h] at hrank
  cases hrank

theorem default_matches (up : FileUpstream) (host path : String) :
    (upstreamDefault up).matches host path = true := by
  rw [matches_iff]
  exact ⟨Or.inl rfl,by simp [upstreamDefault, pathPrefixMatches_iff]⟩

/-- What discovery sends and what was received do not depend on the file. -/
structure SameFeeds (w w' : World) : Prop where
  docker : w.docker = w'.docker
  kubernetes : w.kubernetes = w'.kubernetes
  queue : w.queue = w'.queue
  received : w.received = w'.received

theorem sameFeeds_step (w w' : World) (e : Event) (h : SameFeeds w w') :
    SameFeeds (w.step e) (w'.step e) := by
  cases e with
  | poll a =>
    exact ⟨by simp only [World.step, h.docker],h.kubernetes,
      by simp only [World.step, h.docker, h.queue],h.received⟩
  | watch item =>
    exact ⟨h.docker,by simp only [World.step, h.kubernetes],
      by simp only [World.step, h.kubernetes, h.queue],h.received⟩
  | receive =>
    simp only [World.step, ← h.queue]
    cases w.queue with
    | nil => exact h
    | cons u rest => exact ⟨h.docker,h.kubernetes,rfl,by simp only [h.received]⟩

theorem sameFeeds_observe (fileRoutes fileRoutes' : List Route) (es : List Seen) :
    SameFeeds (observe fileRoutes es).world (observe fileRoutes' es).world := by
  induction es using List.reverseRecOn with
  | nil => exact ⟨rfl,rfl,rfl,rfl⟩
  | append_singleton es e ih =>
    rw [observe_concat, observe_concat, step_world, step_world]
    exact sameFeeds_step _ _ _ ih

theorem contribution_same (fileRoutes fileRoutes' : List Route) (es : List Seen) (name : String) :
    (observe fileRoutes es).world.contribution name =
      (observe fileRoutes' es).world.contribution name := by
  rw [World.contribution, World.contribution,
    (sameFeeds_observe fileRoutes fileRoutes' es).received]

theorem select_append_default (routes found : List Route) (up : FileUpstream) (host path : String)
    (h : ∀ r ∈ found, r.source = .discovered) :
    (RouteTable.new (routes++upstreamDefault up::found)).select host path =
      ((RouteTable.new (routes++found)).select host path).or (some (upstreamDefault up)) := by
  have hselect := find_sorted_last_resort Route.specificity (fun r => r.matches host path)
    routes found (upstreamDefault up) (fun r _ => default_specificity_le up r)
    (fun r hr => default_specificity_lt up r (h r hr))
  rw [default_matches up host path, if_pos rfl] at hselect
  exact hselect

/-- Under the same discovery, a file with an upstream of the older form sends
every request where the file without it does, and to that upstream what would
have been turned away. -/
theorem legacy_upstream_last_resort (fc : FileConfig) (up : FileUpstream) (es : List Seen)
    (host path : String) :
    (observe { fc with upstream := some up }.fileRoutes es).world.manager.table.select host path =
      ((observe { fc with upstream := none }.fileRoutes es).world.manager.table.select
        host path).or (some (upstreamDefault up)) := by
  have hwith : { fc with upstream := some up }.fileRoutes =
      fc.routes.mapIdx fileRoute++[upstreamDefault up] := rfl
  have hwithout : { fc with upstream := none }.fileRoutes = fc.routes.mapIdx fileRoute :=
    List.append_nil _
  rw [hwith, hwithout, (converged_of_consistent _ _ (faithful_observe _ es).consistent).table,
    (converged_of_consistent _ _ (faithful_observe _ es).consistent).table,
    contribution_same _ (fc.routes.mapIdx fileRoute) es "docker",
    contribution_same _ (fc.routes.mapIdx fileRoute) es "kubernetes"]
  simp only [List.append_assoc, List.singleton_append]
  refine select_append_default _ _ up host path fun r hr => ?_
  rcases List.mem_append.mp hr with hdocker|hkubernetes
  · exact contribution_discovered _ es _ r hdocker
  · exact contribution_discovered _ es _ r hkubernetes

end ArchetypeProxy.LegacyUpstream

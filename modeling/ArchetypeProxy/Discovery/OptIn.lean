import ArchetypeProxy.Discovery.Convergence
import ArchetypeProxy.Discovery.Labels
import ArchetypeProxy.RouteSelection

/-!
# What traffic can reach

Containers are listed and objects are watched; snapshots of their routes go
through the channel into the table, and a request takes a route of the table.
Every route a request can take is one of the file, or an event declared it: a
container that was listed or an object that was shown and had opted in. If the
watches are well formed, the container or the object had opted in when the
snapshot was taken, and with an empty channel these are the containers and
objects of the moment. A list that shows one object twice may keep the route
of its first showing.
-/

set_option autoImplicit false

namespace ArchetypeProxy.Discovery.OptIn
open ArchetypeProxy.Discovery.Convergence ArchetypeProxy.Discovery.Labels
open ArchetypeProxy.Discovery.Watch (KindStore Object WellFormed routeFromObject storeAfter toOp
  viewAfter storeAfter_concat refines_after)
open ArchetypeProxy.Routes ArchetypeProxy.RouteSelection ArchetypeProxy.Runs
open ArchetypeProxy.StableSelection ArchetypeProxy.Upserts

structure Container where
  id : Option String
  labels : Option LabelMap

def Container.declared (c : Container) : List Route × List String :=
  routesFromLabels (c.id.getD "") (c.labels.getD ∅)

def pollStep (acc : List Route × List (String × String)) (c : Container) :
    List Route × List (String × String) :=
  (acc.1++c.declared.1,acc.2++c.declared.2.map (fun w => (short (c.id.getD ""),w)))

def pollOnce (containers : List Container) : List Route × List (String × String) :=
  containers.foldl pollStep ([],[])

theorem poll_routes (containers : List Container) (acc : List Route × List (String × String)) :
    (containers.foldl pollStep acc).1 = acc.1++containers.flatMap (fun c => c.declared.1) := by
  induction containers generalizing acc with
  | nil => simp
  | cons c containers ih =>
    rw [List.foldl_cons, ih, List.flatMap_cons]
    simp [pollStep]

theorem mem_pollOnce_iff (containers : List Container) (r : Route) :
    r ∈ (pollOnce containers).1 ↔
      ∃ c ∈ containers, Enabled (c.labels.getD ∅) ∧ r ∈ c.declared.1 := by
  rw [pollOnce, poll_routes, List.nil_append, List.mem_flatMap]
  constructor
  · rintro ⟨c,hc,hr⟩
    refine ⟨c,hc,?_,hr⟩
    by_contra hdisabled
    rw [Container.declared, routesFromLabels_disabled _ _ hdisabled] at hr
    cases hr
  · rintro ⟨c,hc,-,hr⟩
    exact ⟨c,hc,hr⟩

inductive Seen where
  | poll (connects : Bool) (listed : Option (List Container))
  | watch (item : Option (Kind × Watch.Event))
  | receive

def toEvent : Seen → Event
  | .poll connects listed => .poll ⟨connects,listed.map (fun cs => (pollOnce cs).1)⟩
  | .watch item => .watch (item.map (fun p => (p.1,toOp p.2)))
  | .receive => .receive

/-- Discovery with what it was shown: the latest listing that was delivered and
the events of the two watches. -/
structure Observed where
  world : World
  listing : Option (List Container)
  services : List Watch.Event
  ingresses : List Watch.Event

def Observed.start (fileRoutes : List Route) : Observed := ⟨World.start fileRoutes,none,[],[]⟩

def Observed.step (o : Observed) (e : Seen) : Observed :=
  let world := o.world.step (toEvent e)
  match e with
  | .poll connects listed =>
    { o with
      world := world
      listing := (if o.world.docker.connected || connects then listed else none).or o.listing }
  | .watch (some (.service,event)) =>
    { o with world := world, services := o.services++[event] }
  | .watch (some (.ingress,event)) =>
    { o with world := world, ingresses := o.ingresses++[event] }
  | .watch none => { o with world := world }
  | .receive => { o with world := world }

def observe (fileRoutes : List Route) (es : List Seen) : Observed :=
  run Observed.step (Observed.start fileRoutes) es

theorem step_world (o : Observed) (e : Seen) : (o.step e).world = o.world.step (toEvent e) := by
  rcases e with _|(_|⟨_|_,_⟩)|_ <;> rfl

def Observed.objects (o : Observed) : Kind → String → Option Object
  | .service => (viewAfter o.services).objects
  | .ingress => (viewAfter o.ingresses).objects

/-- The route belongs to a listed container or a watched object that has opted
in. -/
inductive OptedIn (o : Observed) (r : Route) : Prop where
  | container (containers : List Container) (c : Container)
      (hlisting : o.listing = some containers) (hc : c ∈ containers)
      (henabled : Enabled (c.labels.getD ∅)) (hr : r ∈ c.declared.1) : OptedIn o r
  | object (kind : Kind) (key : String) (obj : Object) (hobj : o.objects kind key = some obj)
      (henabled : (obj.annotations.getD ∅)[Watch.enableKey]?.bind parseBoolToken = some true)
      (hr : routeFromObject obj = some r) : OptedIn o r

/-! ## What the parts hold -/

structure Faithful (fileRoutes : List Route) (o : Observed) : Prop where
  consistent : Consistent fileRoutes o.world
  polled : o.world.polled = o.listing.map (fun cs => (pollOnce cs).1)
  services : o.world.kubernetes.svcStore = storeAfter o.services
  ingresses : o.world.kubernetes.ingStore = storeAfter o.ingresses

theorem iterate_stores (k : KubernetesProvider) (kind : Kind) (op : Watch.Op) :
    (k.iterate (some (kind,op))).1.svcStore = (k.applyOp kind op).1.svcStore ∧
      (k.iterate (some (kind,op))).1.ingStore = (k.applyOp kind op).1.ingStore := by
  simp only [KubernetesProvider.iterate]
  split
  · exact ⟨rfl,rfl⟩
  · split <;> exact ⟨rfl,rfl⟩

theorem receive_parts (w : World) :
    (w.step .receive).polled = w.polled ∧ (w.step .receive).kubernetes = w.kubernetes := by
  cases hq : w.queue <;> simp [World.step, hq]

theorem faithful_step (fileRoutes : List Route) (o : Observed) (e : Seen)
    (h : Faithful fileRoutes o) : Faithful fileRoutes (o.step e) := by
  have hnext := consistent_step fileRoutes o.world (toEvent e) h.consistent
  cases e with
  | poll connects listed =>
    refine ⟨hnext,?_,h.services,h.ingresses⟩
    simp only [Observed.step, World.step, toEvent, DockerProvider.poll, h.polled]
    cases o.world.docker.connected || connects with
    | false => rfl
    | true => cases listed <;> rfl
  | receive =>
    obtain ⟨hpolled,hkube⟩ := receive_parts o.world
    exact ⟨hnext,hpolled.trans h.polled,(congrArg _ hkube).trans h.services,
      (congrArg _ hkube).trans h.ingresses⟩
  | watch item =>
    rcases item with _|⟨kind,event⟩
    · exact ⟨hnext,h.polled,h.services,h.ingresses⟩
    · obtain ⟨hsvc,hing⟩ := iterate_stores o.world.kubernetes kind (toOp event)
      cases kind with
      | service =>
        refine ⟨hnext,h.polled,?_,hing.trans h.ingresses⟩
        show _ = storeAfter (o.services++[event])
        rw [storeAfter_concat, ← h.services]
        exact hsvc
      | ingress =>
        refine ⟨hnext,h.polled,hsvc.trans h.services,?_⟩
        show _ = storeAfter (o.ingresses++[event])
        rw [storeAfter_concat, ← h.ingresses]
        exact hing

theorem faithful_observe (fileRoutes : List Route) (es : List Seen) :
    Faithful fileRoutes (observe fileRoutes es) :=
  run_invariant Observed.step (Faithful fileRoutes) (faithful_step fileRoutes) _
    ⟨consistent_start fileRoutes,rfl,rfl,rfl⟩ es

theorem enabled_of_route (obj : Object) (r : Route) (h : routeFromObject obj = some r) :
    (obj.annotations.getD ∅)[Watch.enableKey]?.bind parseBoolToken = some true := by
  rw [routeFromObject, Watch.routeFromAnnotations] at h
  split at h
  · cases h
  · rename_i henabled
    exact not_not.mp henabled

theorem mem_store_iff (events : List Watch.Event) (h : WellFormed events) (r : Route) :
    r ∈ (storeAfter events).routes ↔
      ∃ key obj, (viewAfter events).objects key = some obj ∧ routeFromObject obj = some r := by
  have hholds := (refines_after events h).committed
  rw [Watch.KindStore.routes, mem_values_iff]
  constructor
  · rintro ⟨key,hkey⟩
    rw [hholds key] at hkey
    obtain ⟨obj,hobj,hr⟩ := Option.bind_eq_some_iff.mp hkey
    exact ⟨key,obj,hobj,hr⟩
  · rintro ⟨key,obj,hobj,hr⟩
    exact ⟨key,by rw [hholds key, hobj]; exact hr⟩

/-- Both watches were shown what a watcher may send: list items and the end of a
list within a list only, no object twice in it, live events outside. -/
def Observed.Proper (o : Observed) : Prop := WellFormed o.services ∧ WellFormed o.ingresses

theorem optedIn_iff (fileRoutes : List Route) (o : Observed) (h : Faithful fileRoutes o)
    (hproper : o.Proper) (r : Route) :
    OptedIn o r ↔ r ∈ o.world.polled.getD [] ∨ r ∈ o.world.kubernetes.snapshot := by
  rw [KubernetesProvider.snapshot, h.services, h.ingresses, List.mem_append,
    mem_store_iff o.services hproper.1, mem_store_iff o.ingresses hproper.2, h.polled]
  constructor
  · intro hopt
    cases hopt with
    | container containers c hlisting hc henabled hr =>
      left
      rw [hlisting]
      exact (mem_pollOnce_iff containers r).mpr ⟨c,hc,henabled,hr⟩
    | object kind key obj hobj henabled hr =>
      right
      cases kind with
      | service => exact Or.inl ⟨key,obj,hobj,hr⟩
      | ingress => exact Or.inr ⟨key,obj,hobj,hr⟩
  · rintro (hr|⟨key,obj,hobj,hr⟩|⟨key,obj,hobj,hr⟩)
    · cases hlisting : o.listing with
      | none =>
        rw [hlisting] at hr
        cases hr
      | some containers =>
        rw [hlisting] at hr
        obtain ⟨c,hc,henabled,hr⟩ := (mem_pollOnce_iff containers r).mp hr
        exact .container containers c hlisting hc henabled hr
    · exact .object .service key obj hobj (enabled_of_route obj r hr) hr
    · exact .object .ingress key obj hobj (enabled_of_route obj r hr) hr

/-! ## What declared a route -/

def shown : Watch.Event → Option Object
  | .initApply o => some o
  | .apply o => some o
  | .init | .initDone | .delete _ => none

/-- The event shows a container or an object that has opted in with the route. -/
inductive Declares : Seen → Route → Prop where
  | container (connects : Bool) (containers : List Container) (c : Container) (r : Route)
      (hc : c ∈ containers) (henabled : Enabled (c.labels.getD ∅)) (hr : r ∈ c.declared.1) :
      Declares (.poll connects (some containers)) r
  | object (kind : Kind) (event : Watch.Event) (obj : Object) (r : Route)
      (hobj : shown event = some obj)
      (henabled : (obj.annotations.getD ∅)[Watch.enableKey]?.bind parseBoolToken = some true)
      (hr : routeFromObject obj = some r) : Declares (.watch (some (kind,event))) r

/-- The route is committed or in the list that is being gathered. -/
def Stored (s : KindStore) (r : Route) : Prop :=
  ∃ key : String, s.committed[key]? = some r ∨ (s.buffer.getD ∅)[key]? = some r

theorem inserted_route (m : Watch.RouteMap) (key key' : String) (r r' : Route)
    (h : (m.insert key r')[key']? = some r) : m[key']? = some r ∨ r' = r := by
  rw [getElem?_insert_key] at h
  split at h
  · exact Or.inr (Option.some.inj h)
  · exact Or.inl h

theorem removed_stored (s : KindStore) (key : String) (r : Route)
    (h : Stored (s.remove key).1 r) : Stored s r := by
  obtain ⟨key',hcommitted|hbuffer⟩ := h
  · simp only [KindStore.remove, getElem?_erase_key] at hcommitted
    split at hcommitted
    · cases hcommitted
    · exact ⟨key',Or.inl hcommitted⟩
  · exact ⟨key',Or.inr hbuffer⟩

theorem stored_apply (s : KindStore) (e : Watch.Event) (r : Route)
    (h : Stored (s.apply (toOp e)).1 r) :
    Stored s r ∨ ∃ obj, shown e = some obj ∧ routeFromObject obj = some r := by
  cases e with
  | init =>
    obtain ⟨key,hcommitted|hbuffer⟩ := h
    · exact Or.inl ⟨key,Or.inl hcommitted⟩
    · simp [toOp, KindStore.apply] at hbuffer
  | initDone =>
    obtain ⟨key,hcommitted|hbuffer⟩ := h
    · exact Or.inl ⟨key,Or.inr hcommitted⟩
    · simp [toOp, KindStore.apply] at hbuffer
  | initApply obj =>
    cases hroute : routeFromObject obj with
    | none =>
      left
      cases hb : s.buffer <;> simpa [toOp, hroute, KindStore.apply, hb] using h
    | some r' =>
      cases hb : s.buffer with
      | none =>
        left
        simpa [toOp, hroute, KindStore.apply, hb] using h
      | some buf =>
        simp only [toOp, hroute, KindStore.apply, hb] at h
        obtain ⟨key,hcommitted|hbuffer⟩ := h
        · exact Or.inl ⟨key,Or.inl hcommitted⟩
        · rcases inserted_route buf _ key r r' hbuffer with hold|hnew
          · exact Or.inl ⟨key,Or.inr (by rw [hb]; exact hold)⟩
          · exact Or.inr ⟨obj,rfl,by rw [hroute, hnew]⟩
  | apply obj =>
    cases hroute : routeFromObject obj with
    | none =>
      simp only [toOp, hroute, KindStore.apply] at h
      exact Or.inl (removed_stored s _ r h)
    | some r' =>
      simp only [toOp, hroute, KindStore.apply] at h
      obtain ⟨key,hcommitted|hbuffer⟩ := h
      · rcases inserted_route s.committed _ key r r' hcommitted with hold|hnew
        · exact Or.inl ⟨key,Or.inl hold⟩
        · exact Or.inr ⟨obj,rfl,by rw [hroute, hnew]⟩
      · exact Or.inl ⟨key,Or.inr hbuffer⟩
  | delete obj => exact Or.inl (removed_stored s _ r h)

def Known (o : Observed) (r : Route) : Prop :=
  r ∈ o.world.polled.getD [] ∨
    Stored o.world.kubernetes.svcStore r ∨ Stored o.world.kubernetes.ingStore r

theorem known_step (o : Observed) (e : Seen) (r : Route) (h : Known (o.step e) r) :
    Known o r ∨ Declares e r := by
  rw [Known, step_world] at h
  cases e with
  | poll connects listed =>
    rcases h with hpolled|hstored
    · simp only [toEvent, World.step, DockerProvider.poll] at hpolled
      split at hpolled
      · cases listed with
        | none => exact Or.inl (Or.inl hpolled)
        | some containers =>
          obtain ⟨c,hc,henabled,hr⟩ := (mem_pollOnce_iff containers r).mp hpolled
          exact Or.inr (.container connects containers c r hc henabled hr)
      · exact Or.inl (Or.inl hpolled)
    · exact Or.inl (Or.inr hstored)
  | receive =>
    obtain ⟨hpolled,hkube⟩ := receive_parts o.world
    simp only [toEvent, hpolled, hkube] at h
    exact Or.inl h
  | watch item =>
    rcases item with _|⟨kind,event⟩
    · exact Or.inl h
    · obtain ⟨hsvc,hing⟩ := iterate_stores o.world.kubernetes kind (toOp event)
      have hshown (s : KindStore) (hs : Stored (s.apply (toOp event)).1 r) :
          Stored s r ∨ Declares (.watch (some (kind,event))) r := by
        refine (stored_apply s event r hs).imp_right ?_
        rintro ⟨obj,hobj,hr⟩
        exact .object kind event obj r hobj (enabled_of_route obj r hr) hr
      simp only [toEvent, World.step, Option.map_some, hsvc, hing] at h
      rcases h with hpolled|hsvc|hing
      · exact Or.inl (Or.inl hpolled)
      · cases kind with
        | service => exact (hshown _ hsvc).imp_left fun h => Or.inr (Or.inl h)
        | ingress => exact Or.inl (Or.inr (Or.inl hsvc))
      · cases kind with
        | service => exact Or.inl (Or.inr (Or.inr hing))
        | ingress => exact (hshown _ hing).imp_left fun h => Or.inr (Or.inr h)

theorem known_declared (fileRoutes : List Route) (es : List Seen) (r : Route)
    (h : Known (observe fileRoutes es) r) : ∃ e ∈ es, Declares e r := by
  refine (run_provenance Observed.step Known Declares known_step _ es r h).resolve_left ?_
  simp [Known, Stored, Observed.start, World.start, KindStore.empty]

theorem known_of_snapshot (o : Observed) (r : Route)
    (h : r ∈ o.world.polled.getD [] ∨ r ∈ o.world.kubernetes.snapshot) : Known o r := by
  simp only [KubernetesProvider.snapshot, KindStore.routes, List.mem_append, mem_values_iff] at h
  rcases h with hpolled|⟨key,hkey⟩|⟨key,hkey⟩
  · exact Or.inl hpolled
  · exact Or.inr (Or.inl ⟨key,Or.inl hkey⟩)
  · exact Or.inr (Or.inr ⟨key,Or.inl hkey⟩)

/-! ## Where a snapshot was taken -/

def Taken (fileRoutes : List Route) (es : List Seen) (u : ProviderUpdate) : Prop :=
  ∃ before, before <+: es ∧
    (u.routes = (observe fileRoutes before).world.polled.getD [] ∨
      u.routes = (observe fileRoutes before).world.kubernetes.snapshot)

theorem Taken.later (fileRoutes : List Route) (es : List Seen) (e : Seen) (u : ProviderUpdate)
    (h : Taken fileRoutes es u) : Taken fileRoutes (es++[e]) u := by
  obtain ⟨before,hbefore,hu⟩ := h
  exact ⟨before,hbefore.trans (List.prefix_append es [e]),hu⟩

theorem observe_concat (fileRoutes : List Route) (es : List Seen) (e : Seen) :
    observe fileRoutes (es++[e]) = (observe fileRoutes es).step e :=
  run_concat _ _ es e

theorem step_channel (fileRoutes : List Route) (w : World) (e : Event)
    (h : Consistent fileRoutes w) (u : ProviderUpdate)
    (hu : u ∈ (w.step e).received++(w.step e).queue) :
    u ∈ w.received++w.queue ∨ u.routes = (w.step e).polled.getD [] ∨
      u.routes = (w.step e).kubernetes.snapshot := by
  have hnext := consistent_step fileRoutes w e h
  cases e with
  | poll a =>
    obtain ⟨-,hsent,-⟩ := docker_iterate w.docker a
    simp only [World.step, ← List.append_assoc, List.mem_append, Option.mem_toList] at hu
    rcases hu with hu|hu
    · exact Or.inl (List.mem_append.mpr hu)
    · refine Or.inr (Or.inl ?_)
      rw [← hnext.polled, show (w.step (.poll a)).docker.last = some u.routes from (hsent u hu).2]
      rfl
  | watch item =>
    obtain ⟨-,hsent,-⟩ := kubernetes_iterate w.kubernetes item h.snapshot
    simp only [World.step, ← List.append_assoc, List.mem_append, Option.mem_toList] at hu
    rcases hu with hu|hu
    · exact Or.inl (List.mem_append.mpr hu)
    · refine Or.inr (Or.inr ?_)
      rw [hnext.snapshot,
        show (w.step (.watch item)).kubernetes.lastSent = some u.routes from (hsent u hu).2]
      rfl
  | receive =>
    left
    cases hq : w.queue with
    | nil => simpa [World.step, hq] using hu
    | cons v rest => simpa [World.step, hq] using hu

theorem taken_observe (fileRoutes : List Route) (es : List Seen) (u : ProviderUpdate)
    (hu : u ∈ (observe fileRoutes es).world.received++(observe fileRoutes es).world.queue) :
    Taken fileRoutes es u := by
  induction es using List.reverseRecOn with
  | nil => cases hu
  | append_singleton es e ih =>
    rw [observe_concat, step_world] at hu
    rcases step_channel fileRoutes _ (toEvent e) (faithful_observe fileRoutes es).consistent u hu
      with hold|hnew
    · exact Taken.later fileRoutes es e u (ih hold)
    · refine ⟨es++[e],List.prefix_refl _,?_⟩
      rw [observe_concat, step_world]
      exact hnew

theorem lastOf_mem (name : String) (us : List ProviderUpdate) (routes : List Route)
    (h : lastOf name us = some routes) : ∃ u ∈ us, u.routes = routes := by
  induction us using List.reverseRecOn with
  | nil => cases h
  | append_singleton us u ih =>
    rw [Convergence.lastOf_concat] at h
    split at h
    · exact ⟨u,by simp,Option.some.inj h⟩
    · obtain ⟨v,hv,hroutes⟩ := ih h
      exact ⟨v,by simp [hv],hroutes⟩

theorem contribution_taken (fileRoutes : List Route) (es : List Seen) (name : String) (r : Route)
    (h : r ∈ (observe fileRoutes es).world.contribution name) :
    ∃ before, before <+: es ∧
      (r ∈ (observe fileRoutes before).world.polled.getD [] ∨
        r ∈ (observe fileRoutes before).world.kubernetes.snapshot) := by
  rw [World.contribution] at h
  cases hlast : lastOf name (observe fileRoutes es).world.received with
  | none =>
    rw [hlast] at h
    cases h
  | some routes =>
    rw [hlast] at h
    obtain ⟨u,hu,rfl⟩ := lastOf_mem name _ routes hlast
    obtain ⟨before,hbefore,htaken⟩ := taken_observe fileRoutes es u (List.mem_append_left _ hu)
    refine ⟨before,hbefore,?_⟩
    rcases htaken with hpoll|hsnap
    · exact Or.inl (hpoll ▸ h)
    · exact Or.inr (hsnap ▸ h)

theorem step_events (o : Observed) (e : Seen) :
    o.services <+: (o.step e).services ∧ o.ingresses <+: (o.step e).ingresses := by
  rcases e with _|(_|⟨_|_,_⟩)|_ <;>
    simp [Observed.step]

theorem events_earlier (fileRoutes : List Route) (before es : List Seen) (h : before <+: es) :
    (observe fileRoutes before).services <+: (observe fileRoutes es).services ∧
      (observe fileRoutes before).ingresses <+: (observe fileRoutes es).ingresses := by
  obtain ⟨after,rfl⟩ := h
  induction after using List.reverseRecOn with
  | nil => simp
  | append_singleton after e ih =>
    rw [← List.append_assoc, observe_concat]
    obtain ⟨hsvc,hing⟩ := step_events (observe fileRoutes (before++after)) e
    exact ⟨ih.1.trans hsvc,ih.2.trans hing⟩

theorem proper_earlier (fileRoutes : List Route) (before es : List Seen) (h : before <+: es)
    (hproper : (observe fileRoutes es).Proper) : (observe fileRoutes before).Proper := by
  obtain ⟨⟨svc,hsvc⟩,⟨ing,hing⟩⟩ := events_earlier fileRoutes before es h
  rw [Observed.Proper, ← hsvc, ← hing] at hproper
  exact ⟨throughout_of_append _ _ _ _ svc hproper.1,throughout_of_append _ _ _ _ ing hproper.2⟩

theorem selected_taken (fileRoutes : List Route) (es : List Seen) (host path : String) (r : Route)
    (h : (observe fileRoutes es).world.manager.table.select host path = some r) :
    r ∈ fileRoutes ∨ ∃ before, before <+: es ∧
      (r ∈ (observe fileRoutes before).world.polled.getD [] ∨
        r ∈ (observe fileRoutes before).world.kubernetes.snapshot) := by
  have hconv := converged_of_consistent fileRoutes _ (faithful_observe fileRoutes es).consistent
  rw [hconv.table] at h
  have hmem := select_mem _ host path r h
  simp only [List.mem_append, or_assoc] at hmem
  refine hmem.imp_right fun hfound => ?_
  exact hfound.elim (contribution_taken fileRoutes es _ r) (contribution_taken fileRoutes es _ r)

/-- The selected route is a route of the file, or some event declared it. If the
watches are well formed, it was opted in when its snapshot was taken; with an
empty channel the table then has exactly the routes of the file and those opted
in now, and a request is turned away exactly when none of them matches. -/
theorem traffic_opted_in (fileRoutes : List Route) (es : List Seen) :
    (∀ host path r, (observe fileRoutes es).world.manager.table.select host path = some r →
      r.matches host path = true ∧ (r ∈ fileRoutes ∨ ∃ e ∈ es, Declares e r)) ∧
    ((observe fileRoutes es).Proper →
      (∀ host path r, (observe fileRoutes es).world.manager.table.select host path = some r →
        r ∈ fileRoutes ∨ ∃ before, before <+: es ∧ OptedIn (observe fileRoutes before) r) ∧
      ((observe fileRoutes es).world.queue = [] →
        (∀ r, r ∈ (observe fileRoutes es).world.manager.table.routes ↔
          r ∈ fileRoutes ∨ OptedIn (observe fileRoutes es) r) ∧
        ∀ host path, (observe fileRoutes es).world.manager.table.select host path = none ↔
          ∀ r, r ∈ fileRoutes ∨ OptedIn (observe fileRoutes es) r →
            r.matches host path = false)) := by
  have hfaithful := faithful_observe fileRoutes es
  have hconv := converged_of_consistent fileRoutes _ hfaithful.consistent
  refine ⟨?_,fun hproper => ⟨?_,?_⟩⟩
  · intro host path r hselect
    refine ⟨select_matches _ host path r hselect,?_⟩
    refine (selected_taken fileRoutes es host path r hselect).imp_right ?_
    rintro ⟨before,⟨after,rfl⟩,hr⟩
    obtain ⟨e,he,hdeclares⟩ := known_declared fileRoutes before r (known_of_snapshot _ r hr)
    exact ⟨e,List.mem_append_left _ he,hdeclares⟩
  · intro host path r hselect
    refine (selected_taken fileRoutes es host path r hselect).imp_right ?_
    rintro ⟨before,hbefore,hr⟩
    exact ⟨before,hbefore,(optedIn_iff fileRoutes _ (faithful_observe fileRoutes before)
      (proper_earlier fileRoutes before es hbefore hproper) r).mpr hr⟩
  · intro hempty
    have hall (r : Route) : r ∈ (observe fileRoutes es).world.manager.table.routes ↔
        r ∈ fileRoutes ∨ OptedIn (observe fileRoutes es) r := by
      rw [hconv.table, optedIn_iff fileRoutes _ hfaithful hproper, hconv.docker hempty,
        hconv.kubernetes hempty]
      refine (sort_perm Route.specificity _).mem_iff.trans ?_
      simp only [KubernetesProvider.snapshot, List.mem_append, or_assoc]
    refine ⟨hall,fun host path => ?_⟩
    rw [RouteTable.select, List.find?_eq_none]
    constructor
    · intro h r hr
      simpa using h r ((hall r).mpr hr)
    · intro h r hr
      simpa using h r ((hall r).mp hr)

def sampleRun : List Seen :=
  [.poll true (some [⟨some "c1",some apiLabels⟩,⟨some "c2",none⟩]),
    .watch (some (.service,.init)),.watch (some (.service,.initDone)),.receive]

theorem api_traffic_opted_in :
    (observe [] sampleRun).world.manager.table.select "h" "/x" = some apiRoute ∧
      ∃ before, before <+: sampleRun ∧ OptedIn (observe [] before) apiRoute := by
  have hservices : (observe [] sampleRun).services = [.init,.initDone] := rfl
  have hingresses : (observe [] sampleRun).ingresses = [] := rfl
  have hproper : (observe [] sampleRun).Proper := by
    rw [Observed.Proper, hservices, hingresses]
    refine ⟨?_,throughout_nil _ _ _⟩
    simp only [WellFormed, throughout_cons]
    exact ⟨trivial,rfl,throughout_nil _ _ _⟩
  have hselect : (observe [] sampleRun).world.manager.table.select "h" "/x" = some apiRoute := by
    decide +kernel
  rcases ((traffic_opted_in [] sampleRun).2 hproper).1 "h" "/x" apiRoute hselect with hfile|hopted
  · cases hfile
  · exact ⟨hselect,hopted⟩

end ArchetypeProxy.Discovery.OptIn

import ArchetypeProxy.Discovery.Watch

/-!
# Convergence of discovery

Two providers and the route manager share a FIFO channel. A provider sends a
complete snapshot when it differs from the last one sent; the manager keeps
the last snapshot of each provider and publishes the table anew. Polls, watch
items and receives interleave as an event list. In every reachable state the
table is made of the file routes and the last snapshots received, and with an
empty channel these are the current ones.
-/

set_option autoImplicit false

namespace ArchetypeProxy.Discovery.Convergence
open ArchetypeProxy.StableSelection ArchetypeProxy.Routes ArchetypeProxy.Runs
open ArchetypeProxy.Discovery.Watch

structure ProviderUpdate where
  provider : String
  routes : List Route

structure RouteManager where
  fileRoutes : List Route
  providerRoutes : Std.ExtTreeMap String (List Route)
  table : RouteTable

def RouteManager.new (fileRoutes : List Route) : RouteManager :=
  ⟨fileRoutes,∅,RouteTable.new fileRoutes⟩

def RouteManager.recompute (m : RouteManager) : RouteManager :=
  { m with table := RouteTable.new (m.fileRoutes++m.providerRoutes.values.flatten) }

def RouteManager.receive (m : RouteManager) (u : ProviderUpdate) : RouteManager :=
  { m with providerRoutes := m.providerRoutes.insert u.provider u.routes }.recompute

structure DockerProvider where
  connected : Bool
  last : Option (List Route)

structure DockerAnswer where
  connects : Bool
  listed : Option (List Route)

def DockerProvider.poll (d : DockerProvider) (a : DockerAnswer) : Option (List Route) :=
  if d.connected || a.connects then a.listed else none

/-- One iteration of the Docker provider. A failed listing drops the client,
and the next iteration connects again. -/
def DockerProvider.iterate (d : DockerProvider) (a : DockerAnswer) :
    DockerProvider × Option ProviderUpdate :=
  if !(d.connected || a.connects) then (d,none)
  else match a.listed with
    | none => ({ d with connected := false },none)
    | some routes =>
      if d.last ≠ some routes then (⟨true,some routes⟩,some ⟨"docker",routes⟩)
      else ({ d with connected := true },none)

inductive Kind where
  | service
  | ingress

structure KubernetesProvider where
  svcStore : KindStore
  ingStore : KindStore
  lastSent : Option (List Route)

def KubernetesProvider.applyOp (k : KubernetesProvider) : Kind → Op → KubernetesProvider × Bool
  | .service, op => ({ k with svcStore := (k.svcStore.apply op).1 },(k.svcStore.apply op).2)
  | .ingress, op => ({ k with ingStore := (k.ingStore.apply op).1 },(k.ingStore.apply op).2)

def KubernetesProvider.snapshot (k : KubernetesProvider) : List Route :=
  k.svcStore.routes++k.ingStore.routes

def KubernetesProvider.iterate (k : KubernetesProvider) :
    Option (Kind × Op) → KubernetesProvider × Option ProviderUpdate
  | none => (k,none)
  | some (kind,op) =>
    let applied := k.applyOp kind op
    let routes := applied.1.snapshot
    if !applied.2 then (applied.1,none)
    else if applied.1.lastSent = some routes then (applied.1,none)
    else ({ applied.1 with lastSent := some routes },some ⟨"kubernetes",routes⟩)

/-- The running parts with the channel between them. The updates received and
the latest successful poll are kept as history. -/
structure World where
  manager : RouteManager
  docker : DockerProvider
  kubernetes : KubernetesProvider
  queue : List ProviderUpdate
  received : List ProviderUpdate
  polled : Option (List Route)

inductive Event where
  | poll (a : DockerAnswer)
  | watch (item : Option (Kind × Op))
  | receive

def World.start (fileRoutes : List Route) : World :=
  ⟨RouteManager.new fileRoutes,⟨false,none⟩,⟨KindStore.empty,KindStore.empty,none⟩,[],[],none⟩

def World.step (w : World) : Event → World
  | .poll a =>
    { w with docker := (w.docker.iterate a).1
             queue := w.queue++(w.docker.iterate a).2.toList
             polled := (w.docker.poll a).or w.polled }
  | .watch item =>
    { w with kubernetes := (w.kubernetes.iterate item).1
             queue := w.queue++(w.kubernetes.iterate item).2.toList }
  | .receive =>
    match w.queue with
    | [] => w
    | u::rest =>
      { w with manager := w.manager.receive u, queue := rest, received := w.received++[u] }

def lastOf (name : String) (us : List ProviderUpdate) : Option (List Route) :=
  us.foldl (fun acc u => if u.provider = name then some u.routes else acc) none

def World.contribution (w : World) (name : String) : List Route := (lastOf name w.received).getD []

theorem lastOf_concat (name : String) (us : List ProviderUpdate) (u : ProviderUpdate) :
    lastOf name (us++[u]) = if u.provider = name then some u.routes else lastOf name us := by
  rw [lastOf, List.foldl_append]
  rfl

theorem lastOf_foreign (name : String) (us : List ProviderUpdate)
    (h : ∀ u ∈ us, u.provider ≠ name) : lastOf name us = none := by
  induction us using List.reverseRecOn with
  | nil => rfl
  | append_singleton us u ih =>
    rw [lastOf_concat, if_neg (h u (by simp))]
    exact ih fun v hv => h v (by simp [hv])

theorem lastOf_sent (name other : String) (us : List ProviderUpdate) (sent : Option ProviderUpdate)
    (hs : ∀ u ∈ sent, u.provider = other) (hne : other ≠ name) :
    lastOf name (us++sent.toList) = lastOf name us := by
  cases sent with
  | none => simp
  | some u =>
    rw [Option.toList_some, lastOf_concat, if_neg]
    exact fun h => hne ((hs u rfl).symm.trans h)

theorem docker_iterate (d : DockerProvider) (a : DockerAnswer) :
    (d.iterate a).1.last = (d.poll a).or d.last ∧
    (∀ u ∈ (d.iterate a).2, u.provider = "docker" ∧ (d.iterate a).1.last = some u.routes) ∧
    ((d.iterate a).2 = none → (d.iterate a).1.last = d.last) := by
  unfold DockerProvider.iterate DockerProvider.poll
  cases hc : (d.connected || a.connects) with
  | false => simp
  | true =>
    cases a.listed with
    | none => simp
    | some routes =>
      by_cases hl : d.last = some routes <;> simp [hl]

theorem applyOp_lastSent (k : KubernetesProvider) (kind : Kind) (op : Op) :
    (k.applyOp kind op).1.lastSent = k.lastSent := by
  cases kind <;> rfl

theorem unchanged_routes (s : KindStore) (op : Op) (h : (s.apply op).2 = false) :
    (s.apply op).1.routes = s.routes := by
  have hsame : (s.apply op).1.committed = s.committed := by
    by_contra hne
    rw [(apply_changed_iff s op).mpr hne] at h
    cases h
  rw [KindStore.routes, hsame, KindStore.routes]

theorem unchanged_snapshot (k : KubernetesProvider) (kind : Kind) (op : Op)
    (h : (k.applyOp kind op).2 = false) : (k.applyOp kind op).1.snapshot = k.snapshot := by
  cases kind with
  | service => exact congrArg (· ++ k.ingStore.routes) (unchanged_routes k.svcStore op h)
  | ingress => exact congrArg (k.svcStore.routes ++ ·) (unchanged_routes k.ingStore op h)

theorem kubernetes_iterate (k : KubernetesProvider) (item : Option (Kind × Op))
    (h : k.snapshot = k.lastSent.getD []) :
    (k.iterate item).1.snapshot = (k.iterate item).1.lastSent.getD [] ∧
    (∀ u ∈ (k.iterate item).2, u.provider = "kubernetes" ∧
      (k.iterate item).1.lastSent = some u.routes) ∧
    ((k.iterate item).2 = none → (k.iterate item).1.lastSent = k.lastSent) := by
  cases item with
  | none => exact ⟨h,by simp [KubernetesProvider.iterate],fun _ => rfl⟩
  | some pair =>
    obtain ⟨kind,op⟩ := pair
    have hlast := applyOp_lastSent k kind op
    cases hc : (k.applyOp kind op).2 with
    | false =>
      simp only [KubernetesProvider.iterate, hc, Bool.not_false, if_true]
      rw [unchanged_snapshot k kind op hc, hlast]
      exact ⟨h,by simp,fun _ => rfl⟩
    | true =>
      simp only [KubernetesProvider.iterate, hc, Bool.not_true, Bool.false_eq_true, if_false]
      split
      · rename_i heq
        exact ⟨by rw [heq]; rfl,by simp,fun _ => hlast⟩
      · exact ⟨rfl,by simp,by simp⟩

def put (m : Std.ExtTreeMap String (List Route)) (name : String) :
    Option (List Route) → Std.ExtTreeMap String (List Route)
  | none => m.erase name
  | some routes => m.insert name routes

theorem put_get (m : Std.ExtTreeMap String (List Route)) (name key : String)
    (o : Option (List Route)) : (put m name o)[key]? = if name = key then o else m[key]? := by
  cases o with
  | none => exact Upserts.getElem?_erase_key m name key
  | some routes => exact Upserts.getElem?_insert_key m name key routes

def providerMap (d k : Option (List Route)) : Std.ExtTreeMap String (List Route) :=
  put (put ∅ "docker" d) "kubernetes" k

theorem providerMap_values (d k : Option (List Route)) :
    (providerMap d k).values.flatten = d.getD [] ++ k.getD [] := by
  cases d with
  | none =>
    cases k with
    | none => rfl
    | some y => exact List.append_nil y
  | some x =>
    cases k with
    | none => rfl
    | some y => exact congrArg (x ++ ·) (List.append_nil y)

theorem provider_values (m : Std.ExtTreeMap String (List Route))
    (h : ∀ name, name ≠ "docker" → name ≠ "kubernetes" → m[name]? = none) :
    m.values.flatten = m["docker"]?.getD [] ++ m["kubernetes"]?.getD [] := by
  have hm : m = providerMap m["docker"]? m["kubernetes"]? := by
    refine Std.ExtTreeMap.ext_getElem? fun name => ?_
    rw [providerMap, put_get, put_get, Std.ExtTreeMap.getElem?_empty]
    split
    · rename_i hk
      rw [← hk]
    · rename_i hk
      split
      · rename_i hd
        rw [← hd]
      · rename_i hd
        exact h name (Ne.symm hd) (Ne.symm hk)
  rw [hm, providerMap_values, ← hm]

/-- The invariant of discovery: the map holds the last snapshots received, the
channel ends with the last snapshots sent, and those are current. -/
structure Consistent (fileRoutes : List Route) (w : World) : Prop where
  file : w.manager.fileRoutes = fileRoutes
  map : ∀ name, w.manager.providerRoutes[name]? = lastOf name w.received
  table : w.manager.table =
    RouteTable.new (w.manager.fileRoutes++w.manager.providerRoutes.values.flatten)
  senders : ∀ u ∈ w.received++w.queue, u.provider = "docker" ∨ u.provider = "kubernetes"
  docker : lastOf "docker" (w.received++w.queue) = w.docker.last
  polled : w.docker.last = w.polled
  kubernetes : lastOf "kubernetes" (w.received++w.queue) = w.kubernetes.lastSent
  snapshot : w.kubernetes.snapshot = w.kubernetes.lastSent.getD []

theorem consistent_start (fileRoutes : List Route) :
    Consistent fileRoutes (World.start fileRoutes) where
  file := rfl
  map := fun name => Std.ExtTreeMap.getElem?_empty
  table := by
    change RouteTable.new fileRoutes = RouteTable.new (fileRoutes++[])
    rw [List.append_nil]
  senders := by simp [World.start]
  docker := rfl
  polled := rfl
  kubernetes := rfl
  snapshot := rfl

theorem lastOf_send (name : String) (us : List ProviderUpdate) (sent : Option ProviderUpdate)
    (before after : Option (List Route)) (h : lastOf name us = before)
    (hs : ∀ u ∈ sent, u.provider = name ∧ after = some u.routes)
    (hn : sent = none → after = before) : lastOf name (us++sent.toList) = after := by
  cases sent with
  | none => simpa [hn rfl] using h
  | some u =>
    obtain ⟨hp,ha⟩ := hs u rfl
    rw [Option.toList_some, lastOf_concat, if_pos hp, ha]

theorem senders_sent (us : List ProviderUpdate) (sent : Option ProviderUpdate)
    (h : ∀ u ∈ us, u.provider = "docker" ∨ u.provider = "kubernetes")
    (hs : ∀ u ∈ sent, u.provider = "docker" ∨ u.provider = "kubernetes") :
    ∀ u ∈ us++sent.toList, u.provider = "docker" ∨ u.provider = "kubernetes" := by
  intro u hu
  rcases List.mem_append.mp hu with hu | hu
  · exact h u hu
  · exact hs u (Option.mem_toList.mp hu)

theorem consistent_poll (fileRoutes : List Route) (w : World) (a : DockerAnswer)
    (h : Consistent fileRoutes w) : Consistent fileRoutes (w.step (.poll a)) := by
  obtain ⟨hlast,hsent,hquiet⟩ := docker_iterate w.docker a
  refine ⟨h.file,h.map,h.table,?_,?_,?_,?_,h.snapshot⟩
  · simp only [World.step, ← List.append_assoc]
    exact senders_sent _ _ h.senders fun u hu => Or.inl (hsent u hu).1
  · simp only [World.step, ← List.append_assoc]
    exact lastOf_send "docker" _ _ _ _ h.docker hsent hquiet
  · simp only [World.step, hlast, h.polled]
  · simp only [World.step, ← List.append_assoc]
    rw [lastOf_sent "kubernetes" "docker" _ _ (fun u hu => (hsent u hu).1) (by decide)]
    exact h.kubernetes

theorem consistent_watch (fileRoutes : List Route) (w : World) (item : Option (Kind × Op))
    (h : Consistent fileRoutes w) : Consistent fileRoutes (w.step (.watch item)) := by
  obtain ⟨hsnap,hsent,hquiet⟩ := kubernetes_iterate w.kubernetes item h.snapshot
  refine ⟨h.file,h.map,h.table,?_,?_,h.polled,?_,hsnap⟩
  · simp only [World.step, ← List.append_assoc]
    exact senders_sent _ _ h.senders fun u hu => Or.inr (hsent u hu).1
  · simp only [World.step, ← List.append_assoc]
    rw [lastOf_sent "docker" "kubernetes" _ _ (fun u hu => (hsent u hu).1) (by decide)]
    exact h.docker
  · simp only [World.step, ← List.append_assoc]
    exact lastOf_send "kubernetes" _ _ _ _ h.kubernetes hsent hquiet

theorem consistent_receive (fileRoutes : List Route) (w : World)
    (h : Consistent fileRoutes w) : Consistent fileRoutes (w.step .receive) := by
  cases hq : w.queue with
  | nil => simpa [World.step, hq] using h
  | cons u rest =>
    have hsame : w.received++[u]++rest = w.received++w.queue := by simp [hq]
    have hstep : w.step .receive = { w with
        manager := w.manager.receive u, queue := rest, received := w.received++[u] } := by
      simp [World.step, hq]
    rw [hstep]
    refine ⟨h.file,?_,rfl,?_,?_,h.polled,?_,h.snapshot⟩
    · intro name
      rw [lastOf_concat, ← h.map name]
      exact Upserts.getElem?_insert_key _ _ _ _
    · intro v hv
      exact h.senders v (hsame ▸ hv)
    · exact (congrArg (lastOf "docker") hsame).trans h.docker
    · exact (congrArg (lastOf "kubernetes") hsame).trans h.kubernetes

theorem consistent_step (fileRoutes : List Route) (w : World) (e : Event)
    (h : Consistent fileRoutes w) : Consistent fileRoutes (w.step e) := by
  cases e with
  | poll a => exact consistent_poll fileRoutes w a h
  | watch item => exact consistent_watch fileRoutes w item h
  | receive => exact consistent_receive fileRoutes w h

structure Converged (fileRoutes : List Route) (w : World) : Prop where
  table : w.manager.table =
    RouteTable.new (fileRoutes++w.contribution "docker"++w.contribution "kubernetes")
  fileKept : ∀ r ∈ fileRoutes, r ∈ w.manager.table.routes
  othersKept : ∀ u rest name, w.queue = u::rest → u.provider ≠ name →
    (w.step .receive).contribution name = w.contribution name
  docker : w.queue = [] → w.contribution "docker" = w.polled.getD []
  kubernetes : w.queue = [] →
    w.contribution "kubernetes" = w.kubernetes.svcStore.routes++w.kubernetes.ingStore.routes

theorem converged_of_consistent (fileRoutes : List Route) (w : World)
    (h : Consistent fileRoutes w) : Converged fileRoutes w := by
  have htable : w.manager.table =
      RouteTable.new (fileRoutes++w.contribution "docker"++w.contribution "kubernetes") := by
    rw [h.table, h.file, provider_values, h.map, h.map, List.append_assoc]
    · rfl
    · intro k h1 h2
      rw [h.map, lastOf_foreign]
      intro u hu hk
      rcases h.senders u (List.mem_append_left _ hu) with hp | hp
      · exact h1 (hk.symm.trans hp)
      · exact h2 (hk.symm.trans hp)
  refine ⟨htable,?_,?_,?_,?_⟩
  · intro r hr
    rw [htable]
    exact (sort_perm Route.specificity _).mem_iff.mpr (by simp [hr])
  · intro u rest name hq hne
    simp only [World.contribution, World.step, hq]
    rw [lastOf_concat, if_neg hne]
  · intro hq
    rw [World.contribution, ← h.polled, ← h.docker, hq, List.append_nil]
  · intro hq
    have hsnap := h.snapshot
    rw [← h.kubernetes, hq, List.append_nil] at hsnap
    exact hsnap.symm

/-- Discovery converges under every interleaving of polls, watch items and
receives. -/
theorem discovery_converges (fileRoutes : List Route) (es : List Event) :
    Converged fileRoutes (run World.step (World.start fileRoutes) es) :=
  converged_of_consistent fileRoutes _
    (run_invariant World.step (Consistent fileRoutes) (consistent_step fileRoutes) _
      (consistent_start fileRoutes) es)

end ArchetypeProxy.Discovery.Convergence

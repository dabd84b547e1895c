import ArchetypeProxy.Library.Upserts
import ArchetypeProxy.Acme.DnsRecords
import ArchetypeProxy.Acme.Teardown

/-!
# What orders leave in the DNS account

The manager asks its Cloudflare provider for records and for their cleanup,
order after order. The calls it makes are read off its log, the calls the
provider carries out off the run of the account. A late failure of an order
leaves its records in the account, whatever else happens, until another writer
takes them out. Where no request of the provider fails, the account has no
record of the proxy but those.
-/

set_option autoImplicit false

namespace ArchetypeProxy.Acme.OrderRecords
open ArchetypeProxy.Acme.Certificate ArchetypeProxy.Acme.Cloudflare ArchetypeProxy.Acme.DnsRecords
open ArchetypeProxy.Acme.ZoneCache ArchetypeProxy.Fallible ArchetypeProxy.Runs
open ArchetypeProxy.Upserts

/-! ## The calls of the manager -/

section Orders
open ArchetypeProxy.Acme.Issue ArchetypeProxy.Acme.Steps ArchetypeProxy.Acme.Teardown

def dnsCalls (log : List Action) : List ((String × String) × Bool) :=
  log.filterMap fun
    | .install (.dns01 _ recordName value) => some ((recordName,value),true)
    | .cleanup _ recordName value => some ((recordName,value),false)
    | _ => none

def published (calls : List ((String × String) × Bool)) : List (String × String) :=
  calls.filterMap (fun c => if c.2 then some c.1 else none)

variable (crates : Crates) (cfg : AcmeConfig)

def orders (w : Issue.World) (attempts : List Attempt) : Issue.World :=
  run (fun w a => (issue crates cfg a w).2) w attempts

def orderCalls (w : Issue.World) (attempts : List Attempt) : List ((String × String) × Bool) :=
  (scan (fun w a => ((issue crates cfg a w).2,dnsCalls (actions crates cfg a w))) w
    attempts).flatten

/-- An order leaks and has published name and value. -/
def LeftBy (w : Issue.World) (attempts : List Attempt) (key : String × String) : Prop :=
  ∃ before a after, attempts = before++a::after ∧ Leaks crates cfg a (orders crates cfg w before) ∧
    key ∈ published (dnsCalls (actions crates cfg a (orders crates cfg w before)))

theorem dnsCalls_append (log log' : List Action) :
    dnsCalls (log++log') = dnsCalls log++dnsCalls log' := List.filterMap_append

theorem published_append (calls calls' : List ((String × String) × Bool)) :
    published (calls++calls') = published calls++published calls' := List.filterMap_append

theorem mem_published (calls : List ((String × String) × Bool)) (key : String × String) :
    key ∈ published calls ↔ (key,true) ∈ calls := by
  simp [published]

theorem published_true (keys : List (String × String)) :
    published (keys.map (fun k => (k,true))) = keys := by
  simp [published, List.filterMap_map]

theorem dnsCalls_of_cleaned_nil (log : List Action) (h : cleaned log = []) :
    dnsCalls log = ((Steps.records (installed log)).map Prod.snd).map (fun k => (k,true)) := by
  induction log with
  | nil => rfl
  | cons action log ih =>
    cases action with
    | cleanup domain recordName value => simp [cleaned] at h
    | install response => cases response <;> simpa [dnsCalls, installed, Steps.records] using ih h
    | _ => exact ih h

theorem dnsCalls_of_installed_nil (log : List Action) (h : installed log = []) :
    dnsCalls log = ((cleaned log).map Prod.snd).map (fun k => (k,false)) := by
  induction log with
  | nil => rfl
  | cons action log ih =>
    cases action with
    | install response => simp [installed] at h
    | cleanup domain recordName value => simpa [dnsCalls, cleaned] using ih h
    | _ => exact ih h

theorem order_calls (a : Attempt) (w : Issue.World) :
    ∃ keys : List (String × String),
      Leaks crates cfg a w ∧
          dnsCalls (actions crates cfg a w) = keys.map (fun k => (k,true)) ∨
        ¬ Leaks crates cfg a w ∧
          dnsCalls (actions crates cfg a w) =
            keys.map (fun k => (k,true))++keys.map (fun k => (k,false)) := by
  obtain ⟨w₁,hquiet,-,⟨hopen,e,hissue⟩|⟨hopen,acc,new,w₂,-,htracks,hloop⟩⟩ :=
    issue_cases crates cfg a w
  · obtain ⟨done,hplaced⟩ := placed_of_quiet w w₁ hquiet
    refine ⟨[],Or.inr ⟨fun h => hopen h.1,?_⟩⟩
    rw [actions_of_log crates cfg a w done (by rw [hissue, hplaced.log]),
      dnsCalls_of_cleaned_nil done hplaced.cleaned, hplaced.installed]
    rfl
  · obtain ⟨done,hplaced⟩ := placed_of_tracks cfg w w₁ w₂ acc.directory new _ hquiet htracks
    have hdone := dnsCalls_of_cleaned_nil done hplaced.cleaned
    rw [hplaced.installed] at hdone
    rcases hloop with ⟨hall,e,hissue⟩|⟨hall,hissue⟩
    · rw [actions_of_log crates cfg a w done (by rw [hissue, hplaced.log]), hdone]
      by_cases hplanned : planned cfg a.authorizations = []
      · refine ⟨[],Or.inr ⟨fun h => ((failsLate_iff cfg _).mp h.2).2 hplanned,?_⟩⟩
        rw [hplanned]
        rfl
      · exact ⟨_,Or.inl ⟨⟨hopen,(failsLate_iff cfg _).mpr ⟨hall,hplanned⟩⟩,rfl⟩⟩
    · obtain ⟨-,-,end',hlog,-,hinstalled,hcleaned,-⟩ := complete_withdraws crates cfg acc
        (Active.add ⟨[],[],[]⟩ (planned cfg a.authorizations)) a w₂
      refine ⟨(Steps.records (planned cfg a.authorizations)).map Prod.snd,
        Or.inr ⟨fun h => ((failsLate_iff cfg _).mp h.2).1 hall,?_⟩⟩
      rw [actions_of_log crates cfg a w (done++end') (by
        rw [hissue, hlog, hplaced.log, List.append_assoc]), dnsCalls_append, hdone,
        dnsCalls_of_installed_nil end' hinstalled, hcleaned]
      rfl

theorem leftBy_iff (w : Issue.World) (attempts : List Attempt) (key : String × String) :
    LeftBy crates cfg w attempts key ↔
      ¬ Throughout (fun w a => (issue crates cfg a w).2)
        (fun w a => ¬ (Leaks crates cfg a w ∧
          key ∈ published (dnsCalls (actions crates cfg a w)))) w attempts := by
  simp only [LeftBy, Throughout, orders, not_forall, not_not, exists_prop]

theorem orderCalls_concat (w : Issue.World) (attempts : List Attempt) (a : Attempt) :
    orderCalls crates cfg w (attempts++[a]) = orderCalls crates cfg w attempts++
      dnsCalls (actions crates cfg a (orders crates cfg w attempts)) := by
  rw [orderCalls, scan_append, List.flatten_append]
  simp [scan, scanState, orders, orderCalls]

theorem lastOf_orderCalls_iff (w : Issue.World) (attempts : List Attempt) (key : String × String)
    (hfresh : (published (orderCalls crates cfg w attempts)).Nodup) :
    lastOf (orderCalls crates cfg w attempts) key = some true ↔
      LeftBy crates cfg w attempts key := by
  induction attempts using List.reverseRecOn with
  | nil =>
    rw [leftBy_iff]
    exact iff_of_false (by simp [orderCalls, scan, lastOf]) (not_not.mpr (throughout_nil _ _ _))
  | append_singleton attempts a ih =>
    rw [orderCalls_concat, published_append, List.nodup_append] at hfresh
    obtain ⟨hbefore,-,hapart⟩ := hfresh
    rw [leftBy_iff, throughout_concat, not_and_or, not_not, ← leftBy_iff, ← ih hbefore,
      orderCalls_concat, lastOf_append]
    have hkeys := order_calls crates cfg a (orders crates cfg w attempts)
    rw [orders] at hkeys hapart ⊢
    obtain ⟨keys,⟨hleak,hcalls⟩|⟨hleak,hcalls⟩⟩ := hkeys
    · rw [hcalls, published_true, lastOf_map_const]
      by_cases hmem : key ∈ keys
      · simp [hmem, hleak]
      · simp [hmem]
    · rw [hcalls, lastOf_append, lastOf_map_const, lastOf_map_const]
      by_cases hmem : key ∈ keys
      · -- the record of this order was not published before
        have hnew : lastOf (orderCalls crates cfg w attempts) key ≠ some true := by
          intro hlast
          refine hapart key ((mem_published _ _).mpr (mem_of_lastOf _ _ _ hlast)) key ?_ rfl
          rw [hcalls, mem_published]
          simp [hmem]
        simp [hmem, hleak, hnew]
      · simp [hmem, hleak]

end Orders

/-! ## The calls of the provider -/

variable (debug : String → String) (p : CloudflareDnsProvider) (zones : String → Option String)

/-- What the manager knows of an event: a publish that fails counts for
nothing. -/
def seen (w : DnsRecords.World) : DnsRecords.Event → Option ((String × String) × Bool)
  | .call (.publish recordName value r) _ =>
    match (publish debug p r recordName value { w.provider with sent := [] }).1 with
    | .ok _ => some ((recordName,value),true)
    | .error _ => none
  | .call (.cleanup recordName value _) _ => some ((recordName,value),false)
  | .other _ _ => none

def performed (initial : String → Option TxtRecord) (es : List DnsRecords.Event) :
    List ((String × String) × Bool) :=
  (scan (fun w e => (w.step debug p e,(seen debug p w e).toList)) (start initial) es).flatten

theorem performed_append (initial : String → Option TxtRecord) (es fs : List DnsRecords.Event) :
    performed debug p initial (es++fs) = performed debug p initial es++
      (scan (fun w e => (w.step debug p e,(seen debug p w e).toList)) (after debug p initial es)
        fs).flatten := by
  rw [performed, scan_append, List.flatten_append]
  rfl

theorem publish_cases (r : Replies) (recordName value : String) (s : State) :
    (∃ id, (publish debug p r recordName value s).1 = .ok () ∧
        (publish debug p r recordName value s).2.records =
          Function.update s.records (recordName,value) (some id)) ∨
      (∃ e, (publish debug p r recordName value s).1 = .error e) ∧
        (publish debug p r recordName value s).2.records = s.records ∧
        ((∃ e s', resolveZoneId debug p r recordName s = (.error e,s')) ∨ created r = none) := by
  have hlooks := resolveZoneId_looks debug p r recordName s
  rcases hresolve : resolveZoneId debug p r recordName s with ⟨e|zone,s'⟩
  · rw [hresolve] at hlooks
    rw [publish, bind_of_error _ _ _ _ _ hresolve]
    exact Or.inr ⟨⟨e,rfl⟩,hlooks.1,Or.inl ⟨e,s',rfl⟩⟩
  · rw [hresolve] at hlooks
    obtain ⟨hok,hstate⟩ := publish_posted debug p r recordName value zone s s' hresolve
    rw [hstate, ← hlooks.1]
    cases hresult : (publish debug p r recordName value s).1 with
    | ok u =>
      rw [hresult] at hok
      obtain ⟨id,hid⟩ := Option.isSome_iff_exists.mp hok.symm
      exact Or.inl ⟨id,rfl,by rw [hid]⟩
    | error e =>
      rw [hresult] at hok
      have hnone : created r = none :=
        Option.isNone_iff_eq_none.mp (Option.isSome_eq_false_iff.mp hok.symm)
      exact Or.inr ⟨⟨e,rfl⟩,by rw [hnone],Or.inr hnone⟩

theorem cleanup_records (r : Replies) (recordName value : String) (s : State) :
    (cleanup debug p r recordName value s).2.records =
      Function.update s.records (recordName,value) none := by
  rw [cleanup, look_bind]
  cases hid : s.records (recordName,value) with
  | none =>
    show s.records = _
    rw [← hid, Function.update_eq_self]
  | some id =>
    dsimp only
    rw [update_bind, caught_bind]
    have hlooks := (resolveZoneId_looks debug p r recordName
      { s with records := Function.update s.records (recordName,value) none }).1
    generalize resolveZoneId debug p r recordName
      { s with records := Function.update s.records (recordName,value) none } = result at hlooks ⊢
    obtain ⟨e|zone,s'⟩ := result
    · exact hlooks
    · exact hlooks

theorem stored_step (w : DnsRecords.World) (e : DnsRecords.Event) (key : String × String) :
    ((w.step debug p e).provider.records key).isSome =
      (lastOf (seen debug p w e).toList key).getD (w.provider.records key).isSome := by
  cases e with
  | other url record => rfl
  | call c fx =>
    cases c with
    | cleanup recordName value r =>
      show ((cleanup debug p r recordName value { w.provider with sent := [] }).2.records
        key).isSome = _
      rw [cleanup_records]
      by_cases hkey : (recordName,value) = key
      · simp [seen, lastOf, hkey]
      · simp [seen, lastOf, hkey, Function.update_of_ne (Ne.symm hkey)]
    | publish recordName value r =>
      show ((publish debug p r recordName value { w.provider with sent := [] }).2.records
        key).isSome = _
      rw [seen]
      obtain ⟨id,hok,hrecords⟩|⟨⟨e,herror⟩,hrecords,-⟩ :=
        publish_cases debug p r recordName value { w.provider with sent := [] }
      · rw [hok, hrecords]
        by_cases hkey : (recordName,value) = key
        · simp [lastOf, hkey]
        · simp [lastOf, hkey, Function.update_of_ne (Ne.symm hkey)]
      · rw [herror, hrecords]
        rfl

theorem stored_iff (initial : String → Option TxtRecord) (es : List DnsRecords.Event)
    (key : String × String) :
    ((after debug p initial es).provider.records key).isSome =
      (lastOf (performed debug p initial es) key).getD false := by
  induction es using List.reverseRecOn with
  | nil => rfl
  | append_singleton es e ih =>
    rw [after, run_concat, ← after, stored_step, ih, performed_append, lastOf_append]
    simp only [scan, List.flatten_cons, List.flatten_nil, List.append_nil]
    cases lastOf (seen debug p (after debug p initial es) e).toList key <;> rfl

theorem seen_of_succeeds (w : DnsRecords.World) (recordName value : String) (r : Replies)
    (fx : Effects) (hcache : CacheSound zones w.provider.zoneCache)
    (h : DnsRecords.Event.Succeeds p zones (.call (.publish recordName value r) fx)) :
    seen debug p w (.call (.publish recordName value r) fx) = some ((recordName,value),true) := by
  obtain ⟨zone,hzone⟩ := exists_zoneIs p zones recordName h.1.zone
  obtain ⟨s',hresolve,-⟩ := resolveZoneId_spec debug p zones r h.1.lookups recordName
    { w.provider with sent := [] } hcache zone hzone
  rw [seen]
  obtain ⟨id,hok,-⟩|⟨-,-,⟨e,s'',herror⟩|hnone⟩ :=
    publish_cases debug p r recordName value { w.provider with sent := [] }
  · rw [hok]
  · cases hresolve.symm.trans herror
  · exact absurd hnone (h.1.record recordName value r rfl)

theorem tidy_of_fresh (initial : String → Option TxtRecord) (es : List DnsRecords.Event)
    (hsucceed : ∀ e ∈ es, e.Succeeds p zones)
    (hfresh : (published (performed debug p initial es)).Nodup) :
    Throughout (DnsRecords.World.step debug p) Tidy (start initial) es := by
  intro before e later hes recordName value r fx he
  subst he
  have hcache := cache_after debug p zones initial before
    (fun e he => hsucceed e (by simp [hes, he]))
  have hseen := seen_of_succeeds debug p zones (after debug p initial before) recordName value r fx
    hcache (hsucceed _ (by simp [hes]))
  rw [hes, performed_append, published_append, List.nodup_append] at hfresh
  by_contra hsome
  have hlast := stored_iff debug p initial before (recordName,value)
  rw [after, Option.isSome_iff_ne_none.mpr hsome, eq_comm, Option.getD_eq_iff] at hlast
  have hbefore : (recordName,value) ∈ published (performed debug p initial before) := by
    rw [mem_published]
    exact mem_of_lastOf _ _ _ (by simpa using hlast)
  refine hfresh.2.2 _ hbefore _ ?_ rfl
  simp [mem_published, scan, hseen]

/-! ## What is left -/

section Left
open ArchetypeProxy.Acme.Issue ArchetypeProxy.Acme.Teardown

variable (crates : Crates) (cfg : AcmeConfig)

/-- Whatever fails, the ids of the records of an order that leaks are remembered
after all orders, and the records are in the account as far as other writers
left them alone. Where no request fails, the proxy has no others there. -/
theorem left_records_leaked (initial : String → Option TxtRecord) (es : List DnsRecords.Event)
    (w : Issue.World) (attempts : List Attempt)
    (hdoc : Throughout (DnsRecords.World.step debug p) (Documented p) (start initial) es)
    (hcalls : performed debug p initial es = orderCalls crates cfg w attempts)
    (hfresh : (published (orderCalls crates cfg w attempts)).Nodup) :
    (∀ recordName value, LeftBy crates cfg w attempts (recordName,value) →
      ∃ id, (after debug p initial es).provider.records (recordName,value) = some id ∧
        (Throughout (DnsRecords.World.step debug p) (LeavesAlone p id) (start initial) es →
          ∃ zone, (after debug p initial es).account (recordUrl p zone id) =
            some ⟨.proxy,txtRecord recordName value⟩)) ∧
    ((∀ e ∈ es, e.Succeeds p zones) →
      ∀ url record, (after debug p initial es).account url = some ⟨.proxy,record⟩ →
        ∃ recordName value, record = txtRecord recordName value ∧
          LeftBy crates cfg w attempts (recordName,value)) := by
  have hstored (key : String × String) :
      ((after debug p initial es).provider.records key).isSome ↔
        LeftBy crates cfg w attempts key := by
    rw [stored_iff, hcalls, ← lastOf_orderCalls_iff crates cfg w attempts key hfresh]
    cases lastOf (orderCalls crates cfg w attempts) key <;> simp
  constructor
  · intro recordName value hleft
    obtain ⟨id,hid⟩ := Option.isSome_iff_exists.mp ((hstored _).mpr hleft)
    exact ⟨id,hid,fun halone => live_after debug p id initial es hdoc halone _ _ hid⟩
  · intro hsucceed url record hurl
    have htidy := tidy_of_fresh debug p zones initial es hsucceed (hcalls ▸ hfresh)
    have hremembered := (remembered_after debug p zones initial es hdoc hsucceed htidy).2
    obtain ⟨recordName,value,id,zone,hid,-,-,hrecord⟩ := hremembered url record hurl
    exact ⟨recordName,value,hrecord,(hstored _).mp (by rw [hid]; rfl)⟩

def dnsConfig : AcmeConfig :=
  ⟨["a","b"],none,.dns01,none,false,none,none,.cloudflare (some "t")⟩

def dnsOrders : List Attempt :=
  [smoothAttempt [.ok (pendingAuthz .dns01 "a"),.ok ⟨"b",.invalid,[]⟩] ⟨"Z","Z"⟩,
    smoothAttempt [.ok (pendingAuthz .dns01 "b")] ⟨"Z","Z"⟩]

def dnsRun : List DnsRecords.Event :=
  [.call (.publish "_acme-challenge.a" "a" (answering (fun _ => none) "r1")) ⟨some "r1",true⟩,
    .call (.publish "_acme-challenge.b" "b" (answering (fun _ => none) "r2")) ⟨some "r2",true⟩,
    .call (.cleanup "_acme-challenge.b" "b" (answering (fun _ => none) "r3")) ⟨none,true⟩]

theorem refused_domain_leaves_record :
    (∃ i zone, (after id zoneProvider (fun _ => none) dnsRun).account
        (recordUrl zoneProvider zone i) =
          some ⟨.proxy,txtRecord "_acme-challenge.a" "a"⟩) ∧
      ∀ url record, (after id zoneProvider (fun _ => none) dnsRun).account url =
        some ⟨.proxy,record⟩ → record = txtRecord "_acme-challenge.a" "a" := by
  have horders : orderCalls charCrates dnsConfig emptyWorld dnsOrders =
      [(("_acme-challenge.a","a"),true),(("_acme-challenge.b","b"),true),
        (("_acme-challenge.b","b"),false)] := by rfl
  have hfree (zone : String) : (after id zoneProvider (fun _ => none) (dnsRun.take 1)).account
      (recordUrl zoneProvider zone "r2") = none := by
    have hne : recordUrl zoneProvider zone "r2" ≠ recordUrl zoneProvider "z" "r1" := by
      intro hurl
      have hid := recordUrl_id zoneProvider zone "z" "r2" "r1" (by decide) (by decide) hurl
      revert hid
      decide
    exact Function.update_of_ne hne _ _
  have hdoc : Throughout (DnsRecords.World.step id zoneProvider) (Documented zoneProvider)
      (start fun _ => none) dnsRun := by
    simp only [dnsRun, throughout_cons]
    exact ⟨documented_answering _ _ _ "r1" (by decide) (by simp [start]) (fun zone => rfl),
      documented_answering _ _ _ "r2" (by decide) (by decide) hfree,⟨by simp,by simp⟩,
      throughout_nil _ _ _⟩
  have hsucceeds : ∀ e ∈ dnsRun, e.Succeeds zoneProvider (fun _ => none) := by
    intro e he
    simp only [dnsRun, List.mem_cons, List.not_mem_nil, or_false] at he
    rcases he with rfl|rfl|rfl
    · exact ⟨served_answering _ "r1" rfl,rfl⟩
    · exact ⟨served_answering _ "r2" rfl,rfl⟩
    · exact ⟨served_answering _ "r3" rfl,rfl⟩
  obtain ⟨hleft,hothers⟩ := left_records_leaked id zoneProvider (fun _ => none) charCrates dnsConfig
    (fun _ => none) dnsRun emptyWorld dnsOrders hdoc (by rw [horders]; rfl)
    (by rw [horders]; decide)
  have hiff := lastOf_orderCalls_iff charCrates dnsConfig emptyWorld dnsOrders
  simp only [horders] at hiff
  obtain ⟨i,-,hthere⟩ := hleft "_acme-challenge.a" "a" ((hiff _ (by decide)).mp (by decide))
  have halone : Throughout (DnsRecords.World.step id zoneProvider) (LeavesAlone zoneProvider i)
      (start fun _ => none) dnsRun := by
    simp only [dnsRun, throughout_cons]
    exact ⟨trivial,trivial,trivial,throughout_nil _ _ _⟩
  refine ⟨⟨i,hthere halone⟩,fun url record hurl => ?_⟩
  obtain ⟨recordName,value,hrecord,hby⟩ := hothers hsucceeds url record hurl
  have hlast := (hiff _ (by decide)).mpr hby
  have hmem := mem_of_lastOf _ _ _ hlast
  simp only [List.mem_cons, List.not_mem_nil, Prod.mk.injEq, or_false, and_true, Bool.true_eq_false,
    and_false] at hmem
  obtain ⟨rfl,rfl⟩|⟨rfl,rfl⟩ := hmem
  · exact hrecord
  · exact absurd hlast (by decide)

end Left

end ArchetypeProxy.Acme.OrderRecords

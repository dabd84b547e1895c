import ArchetypeProxy.Acme.Cloudflare

/-!
# Zones and records over many calls

The zones found are remembered across calls for different names. A remembered
zone is still the answer the API would give, and the walk asks for a longer
suffix first, so the cache never changes the zone of a name. A record is
deleted in the zone where it was created.
-/

set_option autoImplicit false

namespace ArchetypeProxy.Acme.ZoneCache
open ArchetypeProxy.Acme.Certificate ArchetypeProxy.Acme.Cloudflare ArchetypeProxy.Fallible
open ArchetypeProxy.Items ArchetypeProxy.Runs ArchetypeProxy.Text ArchetypeProxy.Upserts

section Zones
-- the zones of the account: a name, and the id of its zone
variable (zones : String → Option String)

/-- The id of the longest suffix of the labels that is a zone. -/
def LongestZone (ls : List String) (id : String) : Prop :=
  ∃ suffix, suffix <:+ ls ∧ suffix ≠ [] ∧ zones (joinWith "." suffix) = some id ∧
    ∀ other, other <:+ ls → other ≠ [] → zones (joinWith "." other) ≠ none →
      other.length ≤ suffix.length

theorem longestZone_cons_some (l : String) (ls : List String) (id id' : String)
    (h : zones (joinWith "." (l::ls)) = some id) : LongestZone zones (l::ls) id' ↔ id = id' := by
  constructor
  · rintro ⟨suffix,hsuffix,-,hid,hlongest⟩
    have hlength := hlongest (l::ls) List.suffix_rfl (by simp) (by simp [h])
    rw [hsuffix.eq_of_length_le hlength, h] at hid
    exact Option.some.inj hid
  · rintro rfl
    exact ⟨l::ls,List.suffix_rfl,by simp,h,fun other hother _ _ => hother.length_le⟩

theorem longestZone_cons_none (l : String) (ls : List String) (id : String)
    (h : zones (joinWith "." (l::ls)) = none) :
    LongestZone zones (l::ls) id ↔ LongestZone zones ls id := by
  constructor
  · rintro ⟨suffix,hsuffix,hne,hid,hlongest⟩
    rcases List.suffix_cons_iff.mp hsuffix with rfl|hsuffix
    · rw [h] at hid
      cases hid
    · exact ⟨suffix,hsuffix,hne,hid,fun other hother =>
        hlongest other (hother.trans (List.suffix_cons l ls))⟩
  · rintro ⟨suffix,hsuffix,hne,hid,hlongest⟩
    refine ⟨suffix,hsuffix.trans (List.suffix_cons l ls),hne,hid,fun other hother hne' hzone => ?_⟩
    rcases List.suffix_cons_iff.mp hother with rfl|hother
    · exact absurd h hzone
    · exact hlongest other hother hne' hzone

theorem findSome_candidates_iff (ls : List String) (id : String) :
    ((List.range ls.length).map (fun i => joinWith "." (ls.drop i))).findSome? zones = some id ↔
      LongestZone zones ls id := by
  induction ls with
  | nil =>
    refine iff_of_false (by simp) ?_
    rintro ⟨suffix,hsuffix,hne,-⟩
    exact hne (List.suffix_nil.mp hsuffix)
  | cons l ls ih =>
    rw [List.length_cons, List.range_succ_eq_map, List.map_cons, List.map_map, List.findSome?_cons,
      List.drop_zero]
    cases h : zones (joinWith "." (l::ls)) with
    | some id' => rw [longestZone_cons_some zones l ls id' id h, Option.some.injEq]
    | none =>
      rw [longestZone_cons_none zones l ls id h, ← ih]
      rfl

end Zones

-- the debug form of a string, quoted and escaped
variable (debug : String → String) (p : CloudflareDnsProvider) (zones : String → Option String)

def ZoneIs (recordName id : String) : Prop :=
  p.zoneId = some id ∨ p.zoneId = none ∧ LongestZone zones (labels recordName) id

/-- Every lookup succeeds and gives the zone of the name first, or no zone. -/
def Answers (lookup : String → ApiReply (List CfZone)) : Prop :=
  ∀ name, ∃ env, lookup name = .decoded env ∧ env.success = true ∧
    (env.result.bind List.head?).map CfZone.id = zones name

def CacheSound (cache : String → Option String) : Prop :=
  ∀ name id, cache name = some id → zones name = some id

theorem cacheSound_update (cache : String → Option String) (h : CacheSound zones cache)
    (name id : String) (hzone : zones name = some id) :
    CacheSound zones (Function.update cache name (some id)) := by
  intro name' id' hid
  by_cases hname : name' = name
  · rw [hname, Function.update_self] at hid
    rw [hname, hzone, hid]
  · rw [Function.update_of_ne hname] at hid
    exact h name' id' hid

def edits : Request → Bool
  | .get _ _ => false
  | .post _ _ => true
  | .delete _ => true

structure LookedUp (s s' : State) : Prop where
  records : s'.records = s.records
  cache : CacheSound zones s'.zoneCache
  sent : s'.sent.filter edits = s.sent.filter edits

theorem resolveFrom_spec (r : Replies) (hr : Answers zones r.lookup) (recordName : String)
    (candidates : List String) (s : State) (hs : CacheSound zones s.zoneCache) (id : String)
    (h : candidates.findSome? zones = some id) :
    ∃ s', resolveFrom debug p r recordName candidates s = (.ok id,s') ∧ LookedUp zones s s' := by
  induction candidates generalizing s with
  | nil => cases h
  | cons candidate rest ih =>
    rw [List.findSome?_cons] at h
    rw [resolveFrom, look_bind]
    cases hcache : s.zoneCache candidate with
    | some cached =>
      rw [hs candidate cached hcache] at h
      cases h
      exact ⟨s,rfl,rfl,hs,rfl⟩
    | none =>
      obtain ⟨env,hlookup,hsuccess,hzone⟩ := hr candidate
      have hjson : (r.lookup candidate).json "zone lookup" = .ok env := by rw [hlookup]; rfl
      have hsent : (s.sent++[Request.get (zonesUrl p) candidate]).filter edits =
          s.sent.filter edits := by
        rw [List.filter_append]
        exact List.append_nil _
      simp only [send, update_bind, hjson, ask_ok_bind, hsuccess, Bool.true_eq_false, if_false]
      cases hresult : env.result.bind List.head? with
      | some zone =>
        rw [hresult, Option.map_some] at hzone
        rw [← hzone] at h
        cases h
        exact ⟨_,rfl,rfl,cacheSound_update zones _ hs candidate zone.id hzone.symm,hsent⟩
      | none =>
        rw [hresult, Option.map_none] at hzone
        rw [← hzone] at h
        obtain ⟨s',hrest,hlooked⟩ :=
          ih { s with sent := s.sent++[.get (zonesUrl p) candidate] } hs h
        exact ⟨s',hrest,hlooked.records,hlooked.cache,hlooked.sent.trans hsent⟩

theorem resolveZoneId_spec (r : Replies) (hr : Answers zones r.lookup) (recordName : String)
    (s : State) (hs : CacheSound zones s.zoneCache) (id : String)
    (h : ZoneIs p zones recordName id) :
    ∃ s', resolveZoneId debug p r recordName s = (.ok id,s') ∧ LookedUp zones s s' := by
  rcases h with hid|⟨hnone,hlongest⟩
  · rw [resolveZoneId, hid]
    exact ⟨s,rfl,rfl,hs,rfl⟩
  · rw [resolveZoneId, hnone]
    exact resolveFrom_spec debug p zones r hr recordName _ s hs id
      ((findSome_candidates_iff zones _ id).mpr hlongest)

theorem zoneIs_unique (recordName id id' : String) (h : ZoneIs p zones recordName id)
    (h' : ZoneIs p zones recordName id') : id = id' := by
  rcases h with h|⟨hnone,h⟩ <;> rcases h' with h'|⟨hnone',h'⟩
  · exact Option.some.inj (h.symm.trans h')
  · rw [hnone'] at h
    cases h
  · rw [hnone] at h'
    cases h'
  · rw [← findSome_candidates_iff] at h h'
    exact Option.some.inj (h.symm.trans h')

def created (r : Replies) : Option String :=
  match r.create with
  | .decoded env => if env.success then env.result.map CfRecord.id else none
  | _ => none

def HasZone (recordName : String) : Prop :=
  p.zoneId ≠ none ∨ ∃ candidate ∈ zoneCandidates recordName, zones candidate ≠ none

/-- The lookups of the call answer by the zones, the name has a zone, and a
record that is published is created. -/
structure Served (call : Call) : Prop where
  lookups : Answers zones call.replies.lookup
  zone : HasZone p zones call.key.1
  record : ∀ recordName value r, call = .publish recordName value r → created r ≠ none

theorem exists_zoneIs (recordName : String) (h : HasZone p zones recordName) :
    ∃ zone, ZoneIs p zones recordName zone := by
  cases hid : p.zoneId with
  | some id => exact ⟨id,Or.inl hid⟩
  | none =>
    obtain hconfigured|⟨candidate,hmem,hzone⟩ := h
    · exact absurd hid hconfigured
    · have hfound : ((zoneCandidates recordName).findSome? zones).isSome := by
        rw [List.findSome?_isSome_iff]
        exact ⟨candidate,hmem,Option.isSome_iff_ne_none.mpr hzone⟩
      obtain ⟨id,hfirst⟩ := Option.isSome_iff_exists.mp hfound
      exact ⟨id,Or.inr ⟨hid,(findSome_candidates_iff zones _ id).mp hfirst⟩⟩

def entry : Call → (String × String) × Option String
  | .publish recordName value r => ((recordName,value),created r)
  | .cleanup recordName value _ => ((recordName,value),none)

theorem entry_key (call : Call) : (entry call).1 = call.key := by
  cases call <;> rfl

theorem publish_of_entry (call : Call) (recordName value id : String)
    (h : entry call = ((recordName,value),some id)) :
    ∃ r, call = .publish recordName value r ∧ created r = some id := by
  cases call with
  | cleanup recordName' value' r => cases h
  | publish recordName' value' r =>
    obtain ⟨hkey,hid⟩ := Prod.mk.inj h
    cases hkey
    exact ⟨r,rfl,hid⟩

def changes (zone : String) : Call → Option String → List Request
  | .publish recordName value _, _ => [.post (recordsUrl p zone) (txtRecord recordName value)]
  | .cleanup _ _ _, some id => [.delete (recordUrl p zone id)]
  | .cleanup _ _ _, none => []

structure Stepped (zone : String) (s : State) (call : Call) (s' : State) : Prop where
  records : s'.records = Function.update s.records (entry call).1 (entry call).2
  cache : CacheSound zones s'.zoneCache
  sent : s'.sent.filter edits = changes p zone call (s.records call.key)

theorem create_of_created (r : Replies) (id : String) (h : created r = some id) :
    ∃ env record, r.create = .decoded env ∧ env.success = true ∧ env.result = some record ∧
      record.id = id := by
  unfold created at h
  split at h
  · rename_i env hcreate
    cases hsuccess : env.success with
    | false =>
      rw [hsuccess] at h
      cases h
    | true =>
      rw [hsuccess, if_pos rfl] at h
      obtain ⟨record,hrecord,hid⟩ := Option.map_eq_some_iff.mp h
      exact ⟨env,record,hcreate,hsuccess,hrecord,hid⟩
  · cases h

theorem publish_stepped (r : Replies) (hr : Answers zones r.lookup) (recordName value : String)
    (hcreated : created r ≠ none) (zone : String) (hzone : ZoneIs p zones recordName zone)
    (s : State) (hs : CacheSound zones s.zoneCache) :
    Stepped p zones zone s (.publish recordName value r)
      (step debug p s (.publish recordName value r)) := by
  obtain ⟨id,hid⟩ := Option.ne_none_iff_exists'.mp hcreated
  obtain ⟨env,record,hcreate,hsuccess,hresult,rfl⟩ := create_of_created r id hid
  obtain ⟨s₁,hresolve,hlooked⟩ := resolveZoneId_spec debug p zones r hr recordName
    { s with sent := [] } hs zone hzone
  have hjson : r.create.json "create TXT" = .ok env := by
    rw [hcreate]
    rfl
  have hstep : step debug p s (.publish recordName value r) =
      { s₁ with
        records := Function.update s₁.records (recordName,value) (some record.id)
        sent := s₁.sent++[.post (recordsUrl p zone) (txtRecord recordName value)] } := by
    rw [step, publish, bind_of_ok _ _ _ _ _ hresolve]
    simp only [send, update_bind, hjson, ask_ok_bind, hsuccess, Bool.true_eq_false, if_false,
      hresult, update_apply]
  rw [hstep]
  constructor
  · rw [hlooked.records, entry, hid]
  · exact hlooked.cache
  · rw [List.filter_append, hlooked.sent]
    rfl

theorem cleanup_stepped (r : Replies) (hr : Answers zones r.lookup) (recordName value : String)
    (zone : String) (hzone : ZoneIs p zones recordName zone) (s : State)
    (hs : CacheSound zones s.zoneCache) :
    Stepped p zones zone s (.cleanup recordName value r)
      (step debug p s (.cleanup recordName value r)) := by
  cases hrecord : s.records (recordName,value) with
  | none =>
    have hstep : step debug p s (.cleanup recordName value r) = { s with sent := [] } := by
      simp only [step, cleanup, look_bind, hrecord, pure_apply]
    rw [hstep]
    constructor
    · rw [entry, ← hrecord, Function.update_eq_self]
    · exact hs
    · rw [Call.key, hrecord]
      rfl
  | some id =>
    obtain ⟨s₁,hresolve,hlooked⟩ := resolveZoneId_spec debug p zones r hr recordName
      { s with records := Function.update s.records (recordName,value) none, sent := [] } hs zone
      hzone
    have hstep : step debug p s (.cleanup recordName value r) =
        { s₁ with sent := s₁.sent++[.delete (recordUrl p zone id)] } := by
      simp only [step, cleanup, look_bind, hrecord, update_bind, caught_bind, hresolve, send,
        update_apply]
    rw [hstep]
    constructor
    · exact hlooked.records
    · exact hlooked.cache
    · rw [List.filter_append, hlooked.sent, Call.key, hrecord]
      rfl

theorem step_stepped (call : Call) (h : Served p zones call) (zone : String)
    (hzone : ZoneIs p zones call.key.1 zone) (s : State) (hs : CacheSound zones s.zoneCache) :
    Stepped p zones zone s call (step debug p s call) := by
  cases call with
  | publish recordName value r =>
    exact publish_stepped debug p zones r h.lookups recordName value
      (h.record recordName value r rfl) zone hzone s hs
  | cleanup recordName value r =>
    exact cleanup_stepped debug p zones r h.lookups recordName value zone hzone s hs

theorem reached_spec (calls : List Call) (h : ∀ call ∈ calls, Served p zones call) :
    CacheSound zones (reached debug p calls).zoneCache ∧
      ∀ k, (reached debug p calls).records k = (lastOf (calls.map entry) k).join := by
  induction calls using List.reverseRecOn with
  | nil =>
    constructor
    · intro name id hid
      cases hid
    · intro k
      rfl
  | append_singleton calls call ih =>
    obtain ⟨hcache,hrecords⟩ := ih fun c hc => h c (List.mem_append_left _ hc)
    have hserved := h call (by simp)
    obtain ⟨zone,hzone⟩ := exists_zoneIs p zones call.key.1 hserved.zone
    have hstepped := step_stepped debug p zones call hserved zone hzone _ hcache
    rw [reached, run_concat, ← reached]
    refine ⟨hstepped.cache,fun k => ?_⟩
    rw [hstepped.records, List.map_append, List.map_cons, List.map_nil, lastOf_concat]
    by_cases hk : (entry call).1 = k
    · rw [if_pos hk, ← hk, Function.update_self]
      rfl
    · rw [if_neg hk, Function.update_of_ne (Ne.symm hk), hrecords]

theorem zone_of_record (calls : List Call) (h : ∀ call ∈ calls, Served p zones call)
    (recordName value id : String)
    (hid : (reached debug p calls).records (recordName,value) = some id) :
    ∃ zone, ZoneIs p zones recordName zone := by
  rw [(reached_spec debug p zones calls h).2, Option.join_eq_some_iff] at hid
  obtain ⟨call,hcall,hentry⟩ := List.mem_map.mp (mem_of_lastOf _ _ _ hid)
  have hkey : call.key = (recordName,value) := by rw [← entry_key, hentry]
  have hzone := exists_zoneIs p zones call.key.1 (h call hcall).zone
  rwa [hkey] at hzone

theorem recordsUrl_injective (zone zone' : String) (h : recordsUrl p zone = recordsUrl p zone') :
    zone = zone' := by
  have hchars := congrArg String.toList h
  simp only [recordsUrl, String.toList_append, List.append_assoc, List.append_cancel_left_eq,
    List.append_cancel_right_eq] at hchars
  exact String.toList_injective hchars

/-- The last call for name and value published them: the record was created in
the zone and has the id. -/
def PublishedLast (calls : List Call) (recordName value zone id : String) : Prop :=
  ∃ earlier r later, calls = earlier++.publish recordName value r::later ∧
    (∀ call ∈ later, call.key ≠ (recordName,value)) ∧ created r = some id ∧
    .post (recordsUrl p zone) (txtRecord recordName value) ∈
      (step debug p (reached debug p earlier) (.publish recordName value r)).sent

theorem served_upto (before : List Call) (call : Call) (after : List Call)
    (h : ∀ c ∈ before++call::after, Served p zones c) :
    ∀ c ∈ before++[call], Served p zones c := by
  intro c hc
  refine h c ?_
  rw [List.append_cons]
  exact List.mem_append_left _ hc

theorem edit_sent_iff (before : List Call) (call : Call)
    (h : ∀ c ∈ before++[call], Served p zones c) (zone : String)
    (hzone : ZoneIs p zones call.key.1 zone) (q : Request) (hq : edits q = true) :
    q ∈ (step debug p (reached debug p before) call).sent ↔
      q ∈ changes p zone call ((reached debug p before).records call.key) := by
  have hcache := (reached_spec debug p zones before fun c hc => h c (List.mem_append_left _ hc)).1
  have hstepped := step_stepped debug p zones call (h call (by simp)) zone hzone _ hcache
  rw [← hstepped.sent, List.mem_filter]
  exact ⟨fun hmem => ⟨hmem,hq⟩,fun hmem => hmem.1⟩

theorem post_sent_iff (earlier : List Call) (recordName value : String) (r : Replies)
    (h : ∀ call ∈ earlier++[.publish recordName value r], Served p zones call) (zone : String) :
    .post (recordsUrl p zone) (txtRecord recordName value) ∈
        (step debug p (reached debug p earlier) (.publish recordName value r)).sent ↔
      ZoneIs p zones recordName zone := by
  have hserved := h (.publish recordName value r) (by simp)
  obtain ⟨zone',hzone⟩ := exists_zoneIs p zones recordName hserved.zone
  rw [edit_sent_iff debug p zones earlier _ h zone' hzone _ rfl, changes, List.mem_singleton]
  constructor
  · intro hpost
    rw [recordsUrl_injective p zone zone' (Request.post.inj hpost).1]
    exact hzone
  · intro hzone'
    rw [zoneIs_unique p zones recordName zone zone' hzone' hzone]

theorem publishedLast_iff (calls : List Call) (h : ∀ call ∈ calls, Served p zones call)
    (recordName value zone id : String) :
    PublishedLast debug p calls recordName value zone id ↔
      (reached debug p calls).records (recordName,value) = some id ∧
        ZoneIs p zones recordName zone := by
  rw [(reached_spec debug p zones calls h).2, Option.join_eq_some_iff, lastOf_eq_some_iff]
  constructor
  · rintro ⟨earlier,r,later,rfl,hlater,hid,hpost⟩
    refine ⟨⟨earlier.map entry,later.map entry,?_,?_⟩,?_⟩
    · rw [List.map_append, List.map_cons, entry, hid]
    · intro e he
      obtain ⟨call,hcall,rfl⟩ := List.mem_map.mp he
      rw [entry_key]
      exact hlater call hcall
    · exact (post_sent_iff debug p zones earlier recordName value r
        (served_upto p zones earlier _ later h) zone).mp hpost
  · rintro ⟨⟨before,after,hentries,hafter⟩,hzone⟩
    obtain ⟨earlier,rest,rfl,rfl,hrest⟩ := List.map_eq_append_iff.mp hentries
    obtain ⟨call,later,rfl,hcall,rfl⟩ := List.map_eq_cons_iff.mp hrest
    obtain ⟨r,rfl,hid⟩ := publish_of_entry call recordName value id hcall
    refine ⟨earlier,r,later,rfl,fun c hc => ?_,hid,?_⟩
    · rw [← entry_key]
      exact hafter (entry c) (List.mem_map_of_mem hc)
    · exact (post_sent_iff debug p zones earlier recordName value r
        (served_upto p zones earlier _ later h) zone).mpr hzone

theorem delete_sent_iff (before : List Call) (call : Call)
    (h : ∀ c ∈ before++[call], Served p zones c) (url : String) :
    .delete url ∈ (step debug p (reached debug p before) call).sent ↔
      ∃ recordName value r zone id, call = .cleanup recordName value r ∧
        PublishedLast debug p before recordName value zone id ∧ url = recordUrl p zone id := by
  have hserved := h call (by simp)
  obtain ⟨zone,hzone⟩ := exists_zoneIs p zones call.key.1 hserved.zone
  rw [edit_sent_iff debug p zones before call h zone hzone _ rfl]
  have hbefore : ∀ c ∈ before, Served p zones c := fun c hc => h c (List.mem_append_left _ hc)
  cases call with
  | publish recordName value r =>
    refine iff_of_false (by simp [changes]) ?_
    rintro ⟨_,_,_,_,_,hcall,-⟩
    cases hcall
  | cleanup recordName value r =>
    constructor
    · intro hmem
      cases hrecord : (reached debug p before).records (recordName,value) with
      | none => simp [changes, Call.key, hrecord] at hmem
      | some id =>
        rw [Call.key, hrecord, changes, List.mem_singleton] at hmem
        exact ⟨recordName,value,r,zone,id,rfl,
          (publishedLast_iff debug p zones before hbefore _ _ _ _).mpr ⟨hrecord,hzone⟩,
          Request.delete.inj hmem⟩
    · rintro ⟨_,_,_,zone',id,hcall,hpublished,rfl⟩
      cases hcall
      obtain ⟨hrecord,hzone'⟩ :=
        (publishedLast_iff debug p zones before hbefore _ _ _ _).mp hpublished
      rw [Call.key, hrecord, changes, zoneIs_unique p zones recordName zone' zone hzone' hzone]
      exact List.mem_singleton_self _

/-- In every state that calls reach, the zone of a name is the configured one or
that of its longest suffix, with the zones remembered and without them. The
record ids stored are those of the records published and not cleaned up, a
publish sends its POST to the zone of its name, and a DELETE names the zone and
the id of the record it removes. -/
theorem zone_cache_transparent (calls : List Call) (h : ∀ call ∈ calls, Served p zones call) :
    (∀ r recordName zone, Answers zones r.lookup → ZoneIs p zones recordName zone →
      (resolveZoneId debug p r recordName (reached debug p calls)).1 = .ok zone ∧
        (resolveZoneId debug p r recordName
          { reached debug p calls with zoneCache := fun _ => none }).1 = .ok zone) ∧
    (∀ recordName value id, (reached debug p calls).records (recordName,value) = some id ↔
      ∃ zone, PublishedLast debug p calls recordName value zone id) ∧
    (∀ before recordName value r after, calls = before++.publish recordName value r::after →
      ∃ zone, ZoneIs p zones recordName zone ∧
        .post (recordsUrl p zone) (txtRecord recordName value) ∈
          (step debug p (reached debug p before) (.publish recordName value r)).sent) ∧
    ∀ before call after url, calls = before++call::after →
      (.delete url ∈ (step debug p (reached debug p before) call).sent ↔
        ∃ recordName value r zone id, call = .cleanup recordName value r ∧
          PublishedLast debug p before recordName value zone id ∧ url = recordUrl p zone id) := by
  refine ⟨?_,?_,?_,?_⟩
  · intro r recordName zone hr hzone
    have hcache := (reached_spec debug p zones calls h).1
    obtain ⟨s,hs,-⟩ := resolveZoneId_spec debug p zones r hr recordName _ hcache zone hzone
    obtain ⟨s',hs',-⟩ := resolveZoneId_spec debug p zones r hr recordName
      { reached debug p calls with zoneCache := fun _ => none } (fun _ _ hid => nomatch hid) zone
      hzone
    rw [hs, hs']
    exact ⟨rfl,rfl⟩
  · intro recordName value id
    constructor
    · intro hid
      obtain ⟨zone,hzone⟩ := zone_of_record debug p zones calls h recordName value id hid
      exact ⟨zone,(publishedLast_iff debug p zones calls h _ _ _ _).mpr ⟨hid,hzone⟩⟩
    · rintro ⟨zone,hpublished⟩
      exact ((publishedLast_iff debug p zones calls h _ _ _ _).mp hpublished).1
  · rintro before recordName value r after rfl
    have hbefore := served_upto p zones before _ after h
    obtain ⟨zone,hzone⟩ := exists_zoneIs p zones recordName
      (h (.publish recordName value r) (by simp)).zone
    refine ⟨zone,hzone,?_⟩
    exact (post_sent_iff debug p zones before recordName value r hbefore zone).mpr hzone
  · rintro before call after url rfl
    exact delete_sent_iff debug p zones before call (served_upto p zones before call after h) url

def answering (id : String) : Replies :=
  ⟨fun name => .decoded ⟨true,[],some ((zones name).map CfZone.mk).toList⟩,
    .decoded ⟨true,[],some ⟨id⟩⟩⟩

theorem answering_answers (id : String) : Answers zones (answering zones id).lookup := by
  intro name
  refine ⟨_,rfl,rfl,?_⟩
  cases hzone : zones name <;> simp

def nestedZones (name : String) : Option String :=
  if name = "example.com" then some "z1" else if name = "sub.example.com" then some "z2" else none

theorem inner_zone_found :
    (resolveZoneId id (newProvider none) (answering nestedZones "r2")
        "_acme-challenge.sub.example.com" (reached id (newProvider none)
          [.publish "_acme-challenge.example.com" "v" (answering nestedZones "r1")])).1 =
      .ok "z2" := by
  have hserved : Served (newProvider none) nestedZones
      (.publish "_acme-challenge.example.com" "v" (answering nestedZones "r1")) := by
    refine ⟨answering_answers nestedZones "r1",Or.inr ⟨"example.com",by decide,by decide⟩,?_⟩
    intro recordName value r hcall
    cases hcall
    simp [created, answering]
  have hzone : ZoneIs (newProvider none) nestedZones "_acme-challenge.sub.example.com" "z2" :=
    Or.inr ⟨rfl,(findSome_candidates_iff nestedZones _ "z2").mp (by decide)⟩
  refine ((zone_cache_transparent id (newProvider none) nestedZones _ ?_).1 _ _ _
    (answering_answers nestedZones "r2") hzone).1
  intro call hcall
  rw [List.mem_singleton.mp hcall]
  exact hserved

end ArchetypeProxy.Acme.ZoneCache

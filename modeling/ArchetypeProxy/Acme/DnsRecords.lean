import ArchetypeProxy.Acme.ZoneCache

/-!
# The records of the DNS account

The Cloudflare provider shares the account with other writers. A request may
fail before or after the account has carried it out, so what the account does
is told apart from what the provider hears of it. Whatever fails, nothing but
records with ids given to the provider is changed, and a record the provider
remembers is there unless another writer has touched it. Where nothing fails,
the account has no other record of the provider as long as no challenge is
published again before its cleanup.
-/

set_option autoImplicit false

namespace ArchetypeProxy.Acme.DnsRecords
open ArchetypeProxy.Acme.Cloudflare ArchetypeProxy.Acme.ZoneCache ArchetypeProxy.Fallible
open ArchetypeProxy.Runs ArchetypeProxy.Text

inductive Owner where
  | proxy
  | other
  deriving DecidableEq, Repr

structure Entry where
  owner : Owner
  record : TxtRecord
  deriving DecidableEq, Repr

abbrev Account := String → Option Entry

/-- What the account does during one call: the id of the record it creates, if
it creates it, and whether it deletes. -/
structure Effects where
  assigned : Option String
  deletes : Bool

def serve (fx : Effects) (a : Account) : Request → Account
  | .get _ _ => a
  | .post url record => match fx.assigned with
    | none => a
    | some id => Function.update a (url++"/"++id) (some ⟨.proxy,record⟩)
  | .delete url => if fx.deletes then Function.update a url none else a

def serveAll (fx : Effects) (a : Account) (requests : List Request) : Account :=
  requests.foldl (serve fx) a

structure World where
  provider : State
  account : Account
  ids : List String

inductive Event where
  | call (c : Call) (fx : Effects)
  | other (url : String) (record : Option TxtRecord)

variable (debug : String → String) (p : CloudflareDnsProvider) (zones : String → Option String)

def World.step (w : World) : Event → World
  | .call c fx =>
    let s := Cloudflare.step debug p w.provider c
    ⟨s,serveAll fx w.account s.sent,w.ids++fx.assigned.toList⟩
  | .other url record =>
    { w with account := Function.update w.account url (record.map (Entry.mk .other)) }

def start (initial : String → Option TxtRecord) : World :=
  ⟨fresh,fun url => (initial url).map (Entry.mk .other),[]⟩

def after (initial : String → Option TxtRecord) (es : List Event) : World :=
  run (World.step debug p) (start initial) es

def othersStep (a : String → Option TxtRecord) : Event → String → Option TxtRecord
  | .call _ _ => a
  | .other url record => Function.update a url record

def others (initial : String → Option TxtRecord) (es : List Event) : String → Option TxtRecord :=
  run othersStep initial es

/-- What the API documents: a new id is one path segment and new in every zone,
and a record that is confirmed was created. Other writers may do anything. -/
def Documented (w : World) : Event → Prop
  | .call c fx =>
    (∀ id, fx.assigned = some id → '/' ∉ id.toList ∧ id ∉ w.ids ∧
      ∀ zone, w.account (recordUrl p zone id) = none) ∧
    ∀ recordName value r id, c = .publish recordName value r → created r = some id →
      fx.assigned = some id
  | .other _ _ => True

/-- Once the id is given to the provider, no other writer sets or removes the
record that has it. -/
def LeavesAlone (id : String) (w : World) : Event → Prop
  | .call _ _ => True
  | .other url _ => id ∈ w.ids → ∀ zone, url ≠ recordUrl p zone id

def Event.Succeeds : Event → Prop
  | .call c fx => Served p zones c ∧ fx.deletes = true
  | .other _ _ => True

/-- The provider has no record in the account but those it remembers. -/
def Remembered (w : World) : Prop :=
  ∀ url record, w.account url = some ⟨.proxy,record⟩ →
    ∃ recordName value id zone, w.provider.records (recordName,value) = some id ∧
      ZoneIs p zones recordName zone ∧ url = recordUrl p zone id ∧
      record = txtRecord recordName value

/-- A challenge is published only while none of the same name and value is. -/
def Tidy (w : World) (e : Event) : Prop :=
  ∀ recordName value r fx, e = .call (.publish recordName value r) fx →
    w.provider.records (recordName,value) = none

/-! ## What a call does -/

theorem post_url (zone id : String) : recordsUrl p zone++"/"++id = recordUrl p zone id := by
  simp only [recordsUrl, recordUrl, String.append_assoc]
  rfl

theorem recordUrl_id (zone zone' id id' : String) (hid : '/' ∉ id.toList) (hid' : '/' ∉ id'.toList)
    (h : recordUrl p zone id = recordUrl p zone' id') : id = id' := by
  have hreverse (zone id : String) : (recordUrl p zone id).toList.reverse =
      id.toList.reverse ++ '/'::(recordsUrl p zone).toList.reverse := by
    rw [← post_url]
    simp
  have hsplit := congrArg (fun url => splitOnce (String.ofList url.toList.reverse) '/') h
  simp only [hreverse] at hsplit
  rw [splitOnce_eq_some _ _ _ (by simpa using hid), splitOnce_eq_some _ _ _ (by simpa using hid')]
    at hsplit
  have hchars := congrArg String.toList (congrArg Prod.fst (Option.some.inj hsplit))
  simpa [String.toList_inj] using hchars

theorem txtRecord_injective (recordName recordName' value value' : String)
    (h : txtRecord recordName value = txtRecord recordName' value') :
    (recordName,value) = (recordName',value') := by
  simpa [txtRecord] using h

theorem serveAll_edits (fx : Effects) (a : Account) (requests : List Request) :
    serveAll fx a requests = serveAll fx a (requests.filter edits) := by
  induction requests generalizing a with
  | nil => rfl
  | cons q requests ih =>
    cases q with
    | get url name => exact ih a
    | post url record => exact ih _
    | delete url => exact ih _

def Looks (s s' : State) : Prop :=
  s'.records = s.records ∧ s'.sent.filter edits = s.sent.filter edits

instance : Std.Refl Looks := ⟨fun _ => ⟨rfl,rfl⟩⟩
instance : IsTrans State Looks := ⟨fun _ _ _ h h' => ⟨h'.1.trans h.1,h'.2.trans h.2⟩⟩

theorem resolveFrom_looks (r : Replies) (recordName : String) (candidates : List String) :
    Moves Looks (resolveFrom debug p r recordName candidates) := by
  induction candidates with
  | nil => exact moves_ask Looks _
  | cons candidate rest ih =>
    rw [resolveFrom]
    refine moves_bind Looks _ _ (fun s => ⟨rfl,rfl⟩) fun cached => ?_
    cases cached with
    | some id => exact moves_pure Looks id
    | none =>
      refine moves_bind Looks _ _ (fun s => ⟨rfl,by simp [send, edits]⟩) fun _ => ?_
      refine moves_bind Looks _ _ (moves_ask Looks _) fun env => ?_
      split
      · exact moves_ask Looks _
      · split
        · exact moves_bind Looks _ _ (fun s => ⟨rfl,rfl⟩) fun _ => moves_pure Looks _
        · exact ih

theorem resolveZoneId_looks (r : Replies) (recordName : String) :
    Moves Looks (resolveZoneId debug p r recordName) := by
  rw [resolveZoneId]
  split
  · exact moves_pure Looks _
  · exact resolveFrom_looks debug p r recordName _

/-- A call does nothing, creates a record and remembers it or does not hear of
it, or forgets a record and deletes it or does not. -/
inductive Outcome (fx : Effects) (s : State) (a : Account) :
    Call → (String × String → Option String) → Account → Prop where
  | nothing (c : Call) : Outcome fx s a c s.records a
  | stored (recordName value : String) (r : Replies) (zone id : String)
    (hid : fx.assigned = some id) :
    Outcome fx s a (.publish recordName value r)
      (Function.update s.records (recordName,value) (some id))
      (Function.update a (recordUrl p zone id) (some ⟨.proxy,txtRecord recordName value⟩))
  | unheard (recordName value : String) (r : Replies) (zone id : String)
    (hid : fx.assigned = some id) :
    Outcome fx s a (.publish recordName value r) s.records
      (Function.update a (recordUrl p zone id) (some ⟨.proxy,txtRecord recordName value⟩))
  | forgotten (recordName value : String) (r : Replies) (id : String)
    (hid : s.records (recordName,value) = some id) :
    Outcome fx s a (.cleanup recordName value r)
      (Function.update s.records (recordName,value) none) a
  | deleted (recordName value : String) (r : Replies) (zone id : String)
    (hid : s.records (recordName,value) = some id) :
    Outcome fx s a (.cleanup recordName value r)
      (Function.update s.records (recordName,value) none)
      (Function.update a (recordUrl p zone id) none)

theorem publish_posted (r : Replies) (recordName value zone : String) (s s' : State)
    (h : resolveZoneId debug p r recordName s = (.ok zone,s')) :
    (publish debug p r recordName value s).1.isOk = (created r).isSome ∧
      (publish debug p r recordName value s).2 =
        { s' with
          records := match created r with
            | none => s'.records
            | some id => Function.update s'.records (recordName,value) (some id)
          sent := s'.sent++[.post (recordsUrl p zone) (txtRecord recordName value)] } := by
  rw [publish, bind_of_ok _ _ _ _ _ h, send, update_bind]
  cases hcreate : r.create with
  | requestFailed e => simp [created, hcreate, ApiReply.json, Except.isOk, Except.toBool]
  | decodeFailed e => simp [created, hcreate, ApiReply.json, Except.isOk, Except.toBool]
  | decoded env =>
    cases hsuccess : env.success with
    | false => simp [created, hcreate, ApiReply.json, hsuccess, Except.isOk, Except.toBool]
    | true =>
      cases hresult : env.result <;>
        simp [created, hcreate, ApiReply.json, hsuccess, hresult, Except.isOk, Except.toBool]

theorem publish_outcome (recordName value : String) (r : Replies) (fx : Effects) (s : State)
    (a : Account) (h : ∀ id, created r = some id → fx.assigned = some id) :
    Outcome p fx s a (.publish recordName value r)
      (Cloudflare.step debug p s (.publish recordName value r)).records
      (serveAll fx a (Cloudflare.step debug p s (.publish recordName value r)).sent) := by
  rw [Cloudflare.step, serveAll_edits]
  have hlooks := resolveZoneId_looks debug p r recordName { s with sent := [] }
  rcases hresolve : resolveZoneId debug p r recordName { s with sent := [] } with ⟨e|zone,s'⟩
  · rw [publish, bind_of_error _ _ _ _ _ hresolve]
    rw [hresolve] at hlooks
    rw [hlooks.1, hlooks.2]
    exact .nothing _
  · rw [(publish_posted debug p r recordName value zone _ s' hresolve).2]
    rw [hresolve] at hlooks
    have hsent : (s'.sent++[Request.post (recordsUrl p zone) (txtRecord recordName value)]).filter
        edits = [.post (recordsUrl p zone) (txtRecord recordName value)] := by
      rw [List.filter_append, hlooks.2]
      rfl
    dsimp only
    rw [hsent, hlooks.1, serveAll, List.foldl_cons, List.foldl_nil, serve]
    cases hcreated : created r with
    | some id =>
      rw [h id hcreated]
      dsimp only
      rw [post_url]
      exact .stored recordName value r zone id (h id hcreated)
    | none =>
      cases hassigned : fx.assigned with
      | none => exact .nothing _
      | some id =>
        dsimp only
        rw [post_url]
        exact .unheard recordName value r zone id hassigned

theorem cleanup_outcome (recordName value : String) (r : Replies) (fx : Effects) (s : State)
    (a : Account) :
    Outcome p fx s a (.cleanup recordName value r)
      (Cloudflare.step debug p s (.cleanup recordName value r)).records
      (serveAll fx a (Cloudflare.step debug p s (.cleanup recordName value r)).sent) := by
  rw [Cloudflare.step, cleanup, serveAll_edits, look_bind]
  dsimp only
  cases hid : s.records (recordName,value) with
  | none => exact .nothing _
  | some id =>
    dsimp only
    rw [update_bind, caught_bind]
    have hlooks := resolveZoneId_looks debug p r recordName
      { s with records := Function.update s.records (recordName,value) none, sent := [] }
    rcases hresolve : resolveZoneId debug p r recordName
      { s with records := Function.update s.records (recordName,value) none, sent := [] } with
      ⟨e|zone,s'⟩
    · rw [hresolve] at hlooks
      simp only [pure_apply]
      rw [hlooks.1, hlooks.2]
      exact .forgotten recordName value r id hid
    · rw [hresolve] at hlooks
      have hsent : (s'.sent++[Request.delete (recordUrl p zone id)]).filter edits =
          [.delete (recordUrl p zone id)] := by
        rw [List.filter_append, hlooks.2]
        rfl
      simp only [send, update_apply]
      rw [hsent, hlooks.1, serveAll, List.foldl_cons, List.foldl_nil, serve]
      cases fx.deletes with
      | false => exact .forgotten recordName value r id hid
      | true => exact .deleted recordName value r zone id hid

theorem call_outcome (c : Call) (fx : Effects) (w : World) (h : Documented p w (.call c fx)) :
    Outcome p fx w.provider w.account c (w.step debug p (.call c fx)).provider.records
      (w.step debug p (.call c fx)).account := by
  cases c with
  | publish recordName value r =>
    exact publish_outcome debug p recordName value r fx _ _
      fun id hid => h.2 recordName value r id rfl hid
  | cleanup recordName value r => exact cleanup_outcome debug p recordName value r fx _ _

/-! ## What every run keeps -/

theorem erased_eq_some_iff (records : String × String → Option String) (key key' : String × String)
    (id : String) :
    Function.update records key none key' = some id ↔ key' ≠ key ∧ records key' = some id := by
  by_cases hkey : key' = key
  · simp [hkey]
  · simp [hkey]

theorem call_known (c : Call) (fx : Effects) (w : World) (h : Documented p w (.call c fx))
    (key : String × String) (id : String)
    (hid : (w.step debug p (.call c fx)).provider.records key = some id) :
    w.provider.records key = some id ∨ fx.assigned = some id := by
  have houtcome := call_outcome debug p c fx w h
  generalize (w.step debug p (.call c fx)).provider.records = records',
    (w.step debug p (.call c fx)).account = account' at houtcome hid
  cases houtcome with
  | nothing c => exact Or.inl hid
  | stored recordName value r zone id' hassigned =>
    by_cases hkey : key = (recordName,value)
    · rw [hkey, Function.update_self, ← hassigned] at hid
      exact Or.inr hid
    · rw [Function.update_of_ne hkey] at hid
      exact Or.inl hid
  | unheard recordName value r zone id' hassigned => exact Or.inl hid
  | forgotten recordName value r id' hold =>
    exact Or.inl ((erased_eq_some_iff _ _ _ _).mp hid).2
  | deleted recordName value r zone id' hold =>
    exact Or.inl ((erased_eq_some_iff _ _ _ _).mp hid).2

theorem call_foreign (c : Call) (fx : Effects) (w : World) (h : Documented p w (.call c fx))
    (hknown : ∀ key id, w.provider.records key = some id → id ∈ w.ids) (url : String)
    (hurl : ∀ id ∈ (w.step debug p (.call c fx)).ids, ∀ zone, url ≠ recordUrl p zone id) :
    (w.step debug p (.call c fx)).account url = w.account url := by
  have hids : (w.step debug p (.call c fx)).ids = w.ids++fx.assigned.toList := rfl
  have houtcome := call_outcome debug p c fx w h
  rw [hids] at hurl
  generalize (w.step debug p (.call c fx)).provider.records = records',
    (w.step debug p (.call c fx)).account = account' at houtcome ⊢
  cases houtcome with
  | nothing c => rfl
  | stored recordName value r zone id hassigned =>
    exact Function.update_of_ne (hurl id (by simp [hassigned]) zone) _ _
  | unheard recordName value r zone id hassigned =>
    exact Function.update_of_ne (hurl id (by simp [hassigned]) zone) _ _
  | forgotten recordName value r id hold => rfl
  | deleted recordName value r zone id hold =>
    exact Function.update_of_ne (hurl id (by simp [hknown _ id hold]) zone) _ _

/-- Ids of the provider are path segments, each stored under one key, and apart
from them the account has what the others made. -/
structure Ledger (a : String → Option TxtRecord) (w : World) : Prop where
  foreign : ∀ url, (∀ id ∈ w.ids, ∀ zone, url ≠ recordUrl p zone id) →
    w.account url = (a url).map (Entry.mk .other)
  plain : ∀ id ∈ w.ids, '/' ∉ id.toList
  known : ∀ key id, w.provider.records key = some id → id ∈ w.ids
  apart : ∀ key key' id, w.provider.records key = some id → w.provider.records key' = some id →
    key = key'

theorem ledger_start (initial : String → Option TxtRecord) : Ledger p initial (start initial) :=
  ⟨fun _ _ => rfl,by simp [start],by simp [start, fresh],by simp [start, fresh]⟩

theorem apart_update (m : String × String → Option String) (stored : String × String)
    (new : String) (hnew : ∀ key, m key ≠ some new)
    (hapart : ∀ key key' id, m key = some id → m key' = some id → key = key')
    (key key' : String × String) (id : String)
    (hid : Function.update m stored (some new) key = some id)
    (hid' : Function.update m stored (some new) key' = some id) : key = key' := by
  by_cases hk : key = stored <;> by_cases hk' : key' = stored
  · rw [hk, hk']
  · rw [hk, Function.update_self] at hid
    rw [Function.update_of_ne hk', ← hid] at hid'
    exact absurd hid' (hnew key')
  · rw [hk', Function.update_self] at hid'
    rw [Function.update_of_ne hk, ← hid'] at hid
    exact absurd hid (hnew key)
  · rw [Function.update_of_ne hk] at hid
    rw [Function.update_of_ne hk'] at hid'
    exact hapart key key' id hid hid'

theorem ledger_call (a : String → Option TxtRecord) (w : World) (c : Call) (fx : Effects)
    (h : Ledger p a w) (hdoc : Documented p w (.call c fx)) :
    Ledger p a (w.step debug p (.call c fx)) := by
  have hids : (w.step debug p (.call c fx)).ids = w.ids++fx.assigned.toList := rfl
  constructor
  · intro url hurl
    rw [call_foreign debug p c fx w hdoc h.known url hurl]
    exact h.foreign url fun id hid => hurl id (by rw [hids]; simp [hid])
  · intro id hid
    rw [hids, List.mem_append, Option.mem_toList] at hid
    rcases hid with hid|hid
    · exact h.plain id hid
    · exact (hdoc.1 id hid).1
  · intro key id hid
    rw [hids, List.mem_append, Option.mem_toList]
    exact (call_known debug p c fx w hdoc key id hid).imp_left (h.known key id)
  · intro key key' id hid hid'
    have houtcome := call_outcome debug p c fx w hdoc
    generalize (w.step debug p (.call c fx)).provider.records = records',
      (w.step debug p (.call c fx)).account = account' at houtcome hid hid'
    cases houtcome with
    | nothing c => exact h.apart key key' id hid hid'
    | stored recordName value r zone id₀ hassigned =>
      have hnew (key : String × String) : w.provider.records key ≠ some id₀ :=
        fun hkey => (hdoc.1 id₀ hassigned).2.1 (h.known key id₀ hkey)
      exact apart_update _ _ id₀ hnew h.apart key key' id hid hid'
    | unheard recordName value r zone id₀ hassigned => exact h.apart key key' id hid hid'
    | forgotten recordName value r id₀ hold =>
      rw [erased_eq_some_iff] at hid hid'
      exact h.apart key key' id hid.2 hid'.2
    | deleted recordName value r zone id₀ hold =>
      rw [erased_eq_some_iff] at hid hid'
      exact h.apart key key' id hid.2 hid'.2

theorem ledger_other (a : String → Option TxtRecord) (w : World) (url : String)
    (record : Option TxtRecord) (h : Ledger p a w) :
    Ledger p (Function.update a url record) (w.step debug p (.other url record)) := by
  refine ⟨fun url' hurl => ?_,h.plain,h.known,h.apart⟩
  by_cases hat : url' = url
  · simp [World.step, hat]
  · simp only [World.step, Function.update_of_ne hat]
    exact h.foreign url' hurl

theorem ledger_after (initial : String → Option TxtRecord) (es : List Event)
    (h : Throughout (World.step debug p) (Documented p) (start initial) es) :
    Ledger p (others initial es) (after debug p initial es) := by
  refine run_simulation othersStep (World.step debug p) (Ledger p) (Documented p)
    (fun a w e hledger hdoc => ?_) initial (start initial) (ledger_start p initial) es h
  cases e with
  | call c fx => exact ledger_call debug p a w c fx hledger hdoc
  | other url record => exact ledger_other debug p a w url record hledger

/-! ## Records that are remembered -/

def Live (id : String) (w : World) : Prop :=
  ∀ recordName value, w.provider.records (recordName,value) = some id →
    ∃ zone, w.account (recordUrl p zone id) = some ⟨.proxy,txtRecord recordName value⟩

theorem live_created (account : Account) (url : String) (entry : Entry) (hurl : account url = none)
    (url' : String) (entry' : Entry) (h : account url' = some entry') :
    Function.update account url (some entry) url' = some entry' := by
  rw [Function.update_of_ne, h]
  rintro rfl
  rw [hurl] at h
  cases h

theorem live_call (id : String) (a : String → Option TxtRecord) (w : World) (c : Call)
    (fx : Effects) (hledger : Ledger p a w) (h : Live p id w)
    (hdoc : Documented p w (.call c fx)) : Live p id (w.step debug p (.call c fx)) := by
  intro recordName value hid
  have houtcome := call_outcome debug p c fx w hdoc
  generalize (w.step debug p (.call c fx)).provider.records = records',
    (w.step debug p (.call c fx)).account = account' at houtcome hid ⊢
  cases houtcome with
  | nothing c => exact h recordName value hid
  | stored name' value' r zone id₀ hassigned =>
    by_cases hkey : (recordName,value) = (name',value')
    · rw [hkey, Function.update_self] at hid
      cases hkey
      cases hid
      exact ⟨zone,Function.update_self ..⟩
    · rw [Function.update_of_ne hkey] at hid
      obtain ⟨zone',hzone⟩ := h recordName value hid
      exact ⟨zone',live_created _ _ _ ((hdoc.1 id₀ hassigned).2.2 zone) _ _ hzone⟩
  | unheard name' value' r zone id₀ hassigned =>
    obtain ⟨zone',hzone⟩ := h recordName value hid
    exact ⟨zone',live_created _ _ _ ((hdoc.1 id₀ hassigned).2.2 zone) _ _ hzone⟩
  | forgotten name' value' r id₀ hold =>
    exact h recordName value ((erased_eq_some_iff _ _ _ _).mp hid).2
  | deleted name' value' r zone id₀ hold =>
    obtain ⟨hkey,hkept⟩ := (erased_eq_some_iff _ _ _ _).mp hid
    obtain ⟨zone',hzone⟩ := h recordName value hkept
    refine ⟨zone',?_⟩
    rw [Function.update_of_ne, hzone]
    -- a URL determines the id it ends with, and an id is stored under one key
    intro hurl
    have hsame := recordUrl_id p zone' zone id id₀ (hledger.plain id (hledger.known _ id hkept))
      (hledger.plain id₀ (hledger.known _ id₀ hold)) hurl
    rw [hsame] at hkept
    exact hkey (hledger.apart _ _ id₀ hkept hold)

theorem live_other (id : String) (a : String → Option TxtRecord) (w : World) (url : String)
    (record : Option TxtRecord) (hledger : Ledger p a w) (h : Live p id w)
    (halone : LeavesAlone p id w (.other url record)) :
    Live p id (w.step debug p (.other url record)) := by
  intro recordName value hid
  obtain ⟨zone,hzone⟩ := h recordName value hid
  refine ⟨zone,?_⟩
  simp only [World.step, Function.update_of_ne (halone (hledger.known _ id hid) zone).symm]
  exact hzone

theorem ledger_step (a : String → Option TxtRecord) (w : World) (e : Event) (h : Ledger p a w)
    (hdoc : Documented p w e) : ∃ a', Ledger p a' (w.step debug p e) := by
  cases e with
  | call c fx => exact ⟨a,ledger_call debug p a w c fx h hdoc⟩
  | other url record => exact ⟨_,ledger_other debug p a w url record h⟩

theorem live_step (id : String) (a : String → Option TxtRecord) (w : World) (e : Event)
    (hledger : Ledger p a w) (h : Live p id w) (hdoc : Documented p w e)
    (halone : LeavesAlone p id w e) : Live p id (w.step debug p e) := by
  cases e with
  | call c fx => exact live_call debug p id a w c fx hledger h hdoc
  | other url record => exact live_other debug p id a w url record hledger h halone

theorem live_after (id : String) (initial : String → Option TxtRecord) (es : List Event)
    (hdoc : Throughout (World.step debug p) (Documented p) (start initial) es)
    (halone : Throughout (World.step debug p) (LeavesAlone p id) (start initial) es) :
    Live p id (after debug p initial es) := by
  have hinv := run_invariant_of_throughout (World.step debug p)
    (fun w => (∃ a, Ledger p a w) ∧ Live p id w)
    (fun w e => Documented p w e ∧ LeavesAlone p id w e) ?_ (start initial)
    ⟨⟨initial,ledger_start p initial⟩,by simp [Live, start, fresh]⟩ es
    (fun before e later hes => ⟨hdoc before e later hes,halone before e later hes⟩)
  · exact hinv.2
  rintro w e ⟨⟨a,hledger⟩,hlive⟩ ⟨hdoc,halone⟩
  exact ⟨ledger_step debug p a w e hledger hdoc,
    live_step debug p id a w e hledger hlive hdoc halone⟩

/-! ## Records left behind -/

theorem call_succeeds (c : Call) (fx : Effects) (w : World) (zone : String)
    (hcache : CacheSound zones w.provider.zoneCache) (h : Event.Succeeds p zones (.call c fx))
    (hzone : ZoneIs p zones c.key.1 zone) :
    (w.step debug p (.call c fx)).provider.records =
        Function.update w.provider.records (entry c).1 (entry c).2 ∧
      (w.step debug p (.call c fx)).account =
        serveAll fx w.account (changes p zone c (w.provider.records c.key)) ∧
      CacheSound zones (w.step debug p (.call c fx)).provider.zoneCache := by
  have hstepped := step_stepped debug p zones c h.1 zone hzone w.provider hcache
  refine ⟨hstepped.records,?_,hstepped.cache⟩
  show serveAll fx w.account (Cloudflare.step debug p w.provider c).sent = _
  rw [serveAll_edits, hstepped.sent]

theorem cache_step (w : World) (e : Event) (h : CacheSound zones w.provider.zoneCache)
    (hsucceeds : e.Succeeds p zones) : CacheSound zones (w.step debug p e).provider.zoneCache := by
  cases e with
  | call c fx =>
    obtain ⟨zone,hzone⟩ := exists_zoneIs p zones c.key.1 hsucceeds.1.zone
    exact (call_succeeds debug p zones c fx w zone h hsucceeds hzone).2.2
  | other url record => exact h

theorem cache_start (initial : String → Option TxtRecord) :
    CacheSound zones (start initial).provider.zoneCache := by
  simp [CacheSound, start, fresh]

theorem publish_succeeds (w : World) (recordName value : String) (r : Replies) (fx : Effects)
    (hcache : CacheSound zones w.provider.zoneCache)
    (hdoc : Documented p w (.call (.publish recordName value r) fx))
    (hsucceeds : Event.Succeeds p zones (.call (.publish recordName value r) fx)) :
    ∃ zone id, ZoneIs p zones recordName zone ∧
      (∀ zone, w.account (recordUrl p zone id) = none) ∧
      (w.step debug p (.call (.publish recordName value r) fx)).provider.records =
        Function.update w.provider.records (recordName,value) (some id) ∧
      (w.step debug p (.call (.publish recordName value r) fx)).account =
        Function.update w.account (recordUrl p zone id)
          (some ⟨.proxy,txtRecord recordName value⟩) := by
  obtain ⟨zone,hzone⟩ := exists_zoneIs p zones recordName hsucceeds.1.zone
  obtain ⟨id,hid⟩ := Option.ne_none_iff_exists'.mp (hsucceeds.1.record recordName value r rfl)
  have hassigned := hdoc.2 recordName value r id rfl hid
  obtain ⟨hrecords,haccount,-⟩ := call_succeeds debug p zones _ fx w zone hcache hsucceeds hzone
  simp only [entry, hid] at hrecords
  simp only [changes, serveAll, List.foldl_cons, List.foldl_nil, serve, hassigned, post_url]
    at haccount
  exact ⟨zone,id,hzone,(hdoc.1 id hassigned).2.2,hrecords,haccount⟩

theorem remembered_publish (w : World) (recordName value : String) (r : Replies) (fx : Effects)
    (hcache : CacheSound zones w.provider.zoneCache)
    (hdoc : Documented p w (.call (.publish recordName value r) fx))
    (hsucceeds : Event.Succeeds p zones (.call (.publish recordName value r) fx))
    (hrem : Remembered p zones w) (hnone : w.provider.records (recordName,value) = none) :
    Remembered p zones (w.step debug p (.call (.publish recordName value r) fx)) := by
  obtain ⟨zone,id,hzone,-,hrecords,haccount⟩ :=
    publish_succeeds debug p zones w recordName value r fx hcache hdoc hsucceeds
  rw [Remembered, hrecords, haccount]
  intro url record hurl
  by_cases hnew : url = recordUrl p zone id
  · rw [hnew, Function.update_self] at hurl
    cases hurl
    exact ⟨recordName,value,id,zone,Function.update_self ..,hzone,hnew,rfl⟩
  · rw [Function.update_of_ne hnew] at hurl
    obtain ⟨name',value',id',zone',hid',hkept⟩ := hrem url record hurl
    refine ⟨name',value',id',zone',?_,hkept⟩
    rw [Function.update_of_ne, hid']
    intro hkey
    rw [hkey, hnone] at hid'
    cases hid'

/-- A record that is published again leaves the earlier one, if that is still
there, without an owner who remembers it. -/
theorem forgotten_publish (w : World) (recordName value : String) (r : Replies) (fx : Effects)
    (hcache : CacheSound zones w.provider.zoneCache) (hlive : ∀ id, Live p id w)
    (hdoc : Documented p w (.call (.publish recordName value r) fx))
    (hsucceeds : Event.Succeeds p zones (.call (.publish recordName value r) fx))
    (hafter : Remembered p zones (w.step debug p (.call (.publish recordName value r) fx))) :
    w.provider.records (recordName,value) = none := by
  obtain ⟨zone,id,-,hfresh,hrecords,haccount⟩ :=
    publish_succeeds debug p zones w recordName value r fx hcache hdoc hsucceeds
  rw [Remembered, hrecords, haccount] at hafter
  by_contra hsome
  obtain ⟨old,hold⟩ := Option.ne_none_iff_exists'.mp hsome
  obtain ⟨zone',hthere⟩ := hlive old recordName value hold
  obtain ⟨name',value',id',zone'',hid',-,hurl,hrecord⟩ :=
    hafter _ _ (live_created w.account _ _ (hfresh zone) _ _ hthere)
  rw [← txtRecord_injective _ _ _ _ hrecord, Function.update_self] at hid'
  rw [hurl, ← Option.some.inj hid', hfresh zone''] at hthere
  cases hthere

theorem remembered_cleanup (w : World) (recordName value : String) (r : Replies) (fx : Effects)
    (hcache : CacheSound zones w.provider.zoneCache)
    (hsucceeds : Event.Succeeds p zones (.call (.cleanup recordName value r) fx))
    (hrem : Remembered p zones w) :
    Remembered p zones (w.step debug p (.call (.cleanup recordName value r) fx)) := by
  obtain ⟨zone,hzone⟩ := exists_zoneIs p zones recordName hsucceeds.1.zone
  obtain ⟨hrecords,haccount,-⟩ := call_succeeds debug p zones _ fx w zone hcache hsucceeds hzone
  simp only [entry] at hrecords
  rw [Remembered, hrecords, haccount, Call.key]
  intro url record hurl
  cases hold : w.provider.records (recordName,value) with
  | none =>
    rw [hold] at hurl
    obtain ⟨name',value',id',zone',hid',hkept⟩ := hrem url record hurl
    refine ⟨name',value',id',zone',?_,hkept⟩
    rw [erased_eq_some_iff]
    refine ⟨fun hkey => ?_,hid'⟩
    rw [hkey, hold] at hid'
    cases hid'
  | some id =>
    simp only [hold, changes, serveAll, List.foldl_cons, List.foldl_nil, serve, hsucceeds.2,
      if_true] at hurl
    have hne : url ≠ recordUrl p zone id := by
      rintro rfl
      rw [Function.update_self] at hurl
      cases hurl
    rw [Function.update_of_ne hne] at hurl
    obtain ⟨name',value',id',zone',hid',hzone',hat,hrecord⟩ := hrem url record hurl
    refine ⟨name',value',id',zone',?_,hzone',hat,hrecord⟩
    rw [erased_eq_some_iff]
    refine ⟨fun hkey => hne ?_,hid'⟩
    cases hkey
    cases hold.symm.trans hid'
    rw [hat, zoneIs_unique p zones recordName zone' zone hzone' hzone]

theorem remembered_other (w : World) (url : String) (record : Option TxtRecord)
    (hrem : Remembered p zones w) :
    Remembered p zones (w.step debug p (.other url record)) := by
  intro url' record' hurl
  by_cases hat : url' = url
  · simp [World.step, hat] at hurl
  · simp only [World.step, Function.update_of_ne hat] at hurl
    exact hrem url' record' hurl

theorem remembered_step (w : World) (e : Event) (hcache : CacheSound zones w.provider.zoneCache)
    (hdoc : Documented p w e) (hsucceeds : e.Succeeds p zones) (hrem : Remembered p zones w)
    (htidy : Tidy w e) : Remembered p zones (w.step debug p e) := by
  cases e with
  | other url record => exact remembered_other debug p zones w url record hrem
  | call c fx =>
    cases c with
    | cleanup recordName value r =>
      exact remembered_cleanup debug p zones w recordName value r fx hcache hsucceeds hrem
    | publish recordName value r =>
      exact remembered_publish debug p zones w recordName value r fx hcache hdoc hsucceeds hrem
        (htidy recordName value r fx rfl)

theorem tidy_of_remembered (w : World) (e : Event) (hcache : CacheSound zones w.provider.zoneCache)
    (hlive : ∀ id, Live p id w) (hdoc : Documented p w e) (hsucceeds : e.Succeeds p zones)
    (hafter : Remembered p zones (w.step debug p e)) : Tidy w e := by
  rintro recordName value r fx rfl
  exact forgotten_publish debug p zones w recordName value r fx hcache hlive hdoc hsucceeds hafter

theorem remembered_after (initial : String → Option TxtRecord) (es : List Event)
    (hdoc : Throughout (World.step debug p) (Documented p) (start initial) es)
    (hsucceed : ∀ e ∈ es, e.Succeeds p zones)
    (htidy : Throughout (World.step debug p) Tidy (start initial) es) :
    CacheSound zones (after debug p initial es).provider.zoneCache ∧
      Remembered p zones (after debug p initial es) := by
  refine run_invariant_of_throughout (World.step debug p)
    (fun w => CacheSound zones w.provider.zoneCache ∧ Remembered p zones w)
    (fun w e => Documented p w e ∧ e.Succeeds p zones ∧ Tidy w e) ?_ (start initial)
    ⟨cache_start zones initial,by simp [Remembered, start]⟩ es ?_
  · rintro w e ⟨hcache,hrem⟩ ⟨hdoc,hsucceeds,htidy⟩
    exact ⟨cache_step debug p zones w e hcache hsucceeds,
      remembered_step debug p zones w e hcache hdoc hsucceeds hrem htidy⟩
  · intro before e later hes
    exact ⟨hdoc before e later hes,hsucceed e (by simp [hes]),htidy before e later hes⟩

theorem cache_after (initial : String → Option TxtRecord) (es : List Event)
    (hsucceed : ∀ e ∈ es, e.Succeeds p zones) :
    CacheSound zones (after debug p initial es).provider.zoneCache :=
  run_invariant_of_throughout (World.step debug p)
    (fun w => CacheSound zones w.provider.zoneCache) (fun _ e => e.Succeeds p zones)
    (cache_step debug p zones) (start initial) (cache_start zones initial) es
    (fun before e later hes => hsucceed e (by simp [hes]))

/-- Whatever fails, and whatever the other writers do, the account has their
records as if there were no provider, apart from the ids given to the provider,
and every record the provider remembers and they leave alone. Where nothing
fails, the provider's records are those it remembers all along the run if no
challenge is published again before its cleanup, and only if, as far as the
others leave its records alone. -/
theorem challenge_records_accounted (initial : String → Option TxtRecord) (es : List Event)
    (h : Throughout (World.step debug p) (Documented p) (start initial) es) :
    (∀ url, (∀ id ∈ (after debug p initial es).ids, ∀ zone, url ≠ recordUrl p zone id) →
      (after debug p initial es).account url = (others initial es url).map (Entry.mk .other)) ∧
    (∀ recordName value id,
      (after debug p initial es).provider.records (recordName,value) = some id →
      Throughout (World.step debug p) (LeavesAlone p id) (start initial) es →
      ∃ zone, (after debug p initial es).account (recordUrl p zone id) =
        some ⟨.proxy,txtRecord recordName value⟩) ∧
    ((∀ e ∈ es, e.Succeeds p zones) →
      (Throughout (World.step debug p) Tidy (start initial) es →
        ∀ before, before <+: es → Remembered p zones (after debug p initial before)) ∧
      ((∀ id, Throughout (World.step debug p) (LeavesAlone p id) (start initial) es) →
        (∀ before, before <+: es → Remembered p zones (after debug p initial before)) →
        Throughout (World.step debug p) Tidy (start initial) es)) := by
  refine ⟨(ledger_after debug p initial es h).foreign,
    fun recordName value id hid halone => live_after debug p id initial es h halone _ _ hid,
    fun hsucceed => ⟨?_,?_⟩⟩
  · rintro htidy before ⟨later,rfl⟩
    exact (remembered_after debug p zones initial before (throughout_of_append _ _ _ _ _ h)
      (fun e he => hsucceed e (by simp [he])) (throughout_of_append _ _ _ _ _ htidy)).2
  · intro halone hrem before e later hes
    have hpart : before++[e] <+: es := ⟨later,by simp [hes]⟩
    have hnext := hrem _ hpart
    rw [after, run_concat] at hnext
    subst hes
    exact tidy_of_remembered debug p zones _ e
      (cache_after debug p zones initial before (fun e he => hsucceed e (by simp [he])))
      (fun id => live_after debug p id initial before (throughout_of_append _ _ _ _ _ h)
        (throughout_of_append _ _ _ _ _ (halone id)))
      (h before e later rfl) (hsucceed e (by simp)) hnext

def zoneProvider : CloudflareDnsProvider := newProvider (some "z")

def siteRecord : TxtRecord := ⟨"TXT","example.com","v=spf1 -all",300⟩

def editedRecord : TxtRecord := ⟨"TXT","example.com","v=spf1 mx -all",300⟩

def siteUrl : String := recordUrl zoneProvider "z" "site"

def siteAccount (url : String) : Option TxtRecord := if url = siteUrl then some siteRecord else none

def challengeRun : List Event :=
  [.call (.publish "_acme-challenge.example.com" "v" (answering (fun _ => none) "r1"))
      ⟨some "r1",true⟩,
    .other siteUrl (some editedRecord),
    .call (.cleanup "_acme-challenge.example.com" "v" (answering (fun _ => none) "r2"))
      ⟨none,true⟩]

theorem served_answering (c : Call) (i : String) (hr : c.replies = answering (fun _ => none) i) :
    Served zoneProvider (fun _ => none) c := by
  refine ⟨hr ▸ answering_answers _ i,Or.inl (by simp [zoneProvider, newProvider, withBaseUrl]),?_⟩
  rintro recordName value r rfl
  obtain rfl : r = answering (fun _ => none) i := hr
  simp [created, answering]

theorem documented_answering (w : World) (recordName value i : String) (hplain : '/' ∉ i.toList)
    (hnew : i ∉ w.ids) (hfree : ∀ zone, w.account (recordUrl zoneProvider zone i) = none) :
    Documented zoneProvider w
      (.call (.publish recordName value (answering (fun _ => none) i)) ⟨some i,true⟩) := by
  constructor
  · intro id hid
    cases hid
    exact ⟨hplain,hnew,hfree⟩
  · intro recordName' value' r id hcall hid
    cases hcall
    exact hid

theorem site_record_kept :
    (after id zoneProvider siteAccount challengeRun).account siteUrl =
        some ⟨.other,editedRecord⟩ ∧
      ∀ before, before <+: challengeRun →
        Remembered zoneProvider (fun _ => none) (after id zoneProvider siteAccount before) := by
  have hapart (zone : String) : siteUrl ≠ recordUrl zoneProvider zone "r1" := by
    intro hurl
    have hid := recordUrl_id zoneProvider "z" zone "site" "r1" (by decide) (by decide) hurl
    revert hid
    decide
  have hfree (zone : String) :
      (start siteAccount).account (recordUrl zoneProvider zone "r1") = none := by
    simp [start, siteAccount, (hapart zone).symm]
  have hdoc : Throughout (World.step id zoneProvider) (Documented zoneProvider)
      (start siteAccount) challengeRun := by
    simp only [challengeRun, throughout_cons]
    exact ⟨documented_answering _ _ _ "r1" (by decide) (by simp [start]) hfree,trivial,
      ⟨by simp,by simp⟩,throughout_nil _ _ _⟩
  have hsucceeds : ∀ e ∈ challengeRun, e.Succeeds zoneProvider (fun _ => none) := by
    intro e he
    simp only [challengeRun, List.mem_cons, List.not_mem_nil, or_false] at he
    rcases he with rfl|rfl|rfl
    · exact ⟨served_answering _ "r1" rfl,rfl⟩
    · trivial
    · exact ⟨served_answering _ "r2" rfl,rfl⟩
  have htidy : Throughout (World.step id zoneProvider) Tidy (start siteAccount) challengeRun := by
    simp only [challengeRun, throughout_cons]
    refine ⟨?_,by simp [Tidy],by simp [Tidy],throughout_nil _ _ _⟩
    intro recordName value r fx _
    rfl
  obtain ⟨hothers,-,hleft⟩ := challenge_records_accounted id zoneProvider (fun _ => none)
    siteAccount challengeRun hdoc
  refine ⟨?_,(hleft hsucceeds).1 htidy⟩
  rw [hothers siteUrl]
  · simp [others, challengeRun, run, othersStep]
  · intro i hi zone
    have hids : (after id zoneProvider siteAccount challengeRun).ids = ["r1"] := rfl
    rw [hids, List.mem_singleton] at hi
    rw [hi]
    exact hapart zone

end ArchetypeProxy.Acme.DnsRecords

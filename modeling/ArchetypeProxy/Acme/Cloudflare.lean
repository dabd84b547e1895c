import ArchetypeProxy.Acme.Certificate
import ArchetypeProxy.Library.Items
import ArchetypeProxy.Library.Runs
import ArchetypeProxy.Library.Upserts
import Mathlib.Logic.Function.Basic

/-!
# The Cloudflare DNS provider

A challenge is published as a TXT record in the zone of its name. The zone is
configured, or it is found by asking for each suffix of the name, the longest
first, and remembered under the suffix. The id of a created record is kept
under name and value until the record is cleaned up. What the API answers
during one call is part of the call.
-/

set_option autoImplicit false

namespace ArchetypeProxy.Acme.Cloudflare
open ArchetypeProxy.Acme.Certificate ArchetypeProxy.Fallible ArchetypeProxy.Items
open ArchetypeProxy.Runs ArchetypeProxy.Text ArchetypeProxy.Upserts

def cloudflareApiBase : String := "https://api.cloudflare.com"

structure CfError where
  code : ℤ
  message : String
  deriving DecidableEq, Repr

structure CfEnvelope (α : Type) where
  success : Bool
  errors : List CfError
  result : Option α

structure CfRecord where
  id : String

structure CfZone where
  id : String

def cfErrorsToString (errors : List CfError) : String :=
  if errors = [] then "no error detail"
  else joinWith "; " (errors.map (fun e => e.message++" ("++toString e.code++")"))

inductive ApiReply (α : Type) where
  | requestFailed (e : String)
  | decodeFailed (e : String)
  | decoded (env : CfEnvelope α)

def ApiReply.json {α : Type} (what : String) : ApiReply α → Except AcmeError (CfEnvelope α)
  | .requestFailed e => .error (.dns (what++" request failed: "++e))
  | .decodeFailed e => .error (.dns (what++" decode failed: "++e))
  | .decoded env => .ok env

structure TxtRecord where
  type : String
  name : String
  content : String
  ttl : ℕ
  deriving DecidableEq, Repr

inductive Request where
  | get (url name : String)
  | post (url : String) (record : TxtRecord)
  | delete (url : String)
  deriving DecidableEq, Repr

structure CloudflareDnsProvider where
  zoneId : Option String
  baseUrl : String

def withBaseUrl (zoneId : Option String) (baseUrl : String) : CloudflareDnsProvider :=
  ⟨zoneId,trimEndMatches baseUrl '/'⟩

def newProvider (zoneId : Option String) : CloudflareDnsProvider :=
  withBaseUrl zoneId cloudflareApiBase

/-- The record ids to clean up, the zones found so far and the requests of the
call in progress. -/
structure State where
  records : String × String → Option String
  zoneCache : String → Option String
  sent : List Request

def fresh : State := ⟨fun _ => none,fun _ => none,[]⟩

abbrev ProviderM (α : Type) := Comp State AcmeError α

def send (request : Request) : ProviderM Unit :=
  update (fun s => { s with sent := s.sent++[request] })

/-- The answers to one call, the lookups by the name asked for. -/
structure Replies where
  lookup : String → ApiReply (List CfZone)
  create : ApiReply CfRecord

def labels (recordName : String) : List String :=
  (split ((stripPrefix recordName "_acme-challenge.").getD recordName) (· == '.')).filter
    (fun l => !isEmpty l)

def zoneCandidates (recordName : String) : List String :=
  (List.range (labels recordName).length).map (fun i => joinWith "." ((labels recordName).drop i))

-- the debug form of a string, quoted and escaped
variable (debug : String → String) (p : CloudflareDnsProvider)

def zonesUrl : String := p.baseUrl++"/client/v4/zones"

def recordsUrl (zoneId : String) : String :=
  p.baseUrl++"/client/v4/zones/"++zoneId++"/dns_records"

def recordUrl (zoneId recordId : String) : String :=
  p.baseUrl++"/client/v4/zones/"++zoneId++"/dns_records/"++recordId

def resolveFrom (r : Replies) (recordName : String) : List String → ProviderM String
  | [] => ask (.error (.dns ("no Cloudflare zone found for "++debug recordName++
      " (check the token has Zone:Read or set zone_id explicitly)")))
  | candidate::rest => do
    match ← look (fun s => s.zoneCache candidate) with
    | some id => pure id
    | none =>
      send (.get (zonesUrl p) candidate)
      let env ← ask ((r.lookup candidate).json "zone lookup")
      if env.success = false then
        ask (.error (.dns ("zone lookup for "++debug candidate++" failed: "++
          cfErrorsToString env.errors)))
      else match env.result.bind List.head? with
        | some zone =>
          update (fun s => { s with
            zoneCache := Function.update s.zoneCache candidate (some zone.id) })
          pure zone.id
        | none => resolveFrom r recordName rest

def resolveZoneId (r : Replies) (recordName : String) : ProviderM String :=
  match p.zoneId with
  | some id => pure id
  | none => resolveFrom debug p r recordName (zoneCandidates recordName)

def txtRecord (recordName value : String) : TxtRecord := ⟨"TXT",recordName,value,60⟩

def publish (r : Replies) (recordName value : String) : ProviderM Unit := do
  let zoneId ← resolveZoneId debug p r recordName
  send (.post (recordsUrl p zoneId) (txtRecord recordName value))
  let env ← ask (r.create.json "create TXT")
  if env.success = false then
    ask (.error (.dns ("create TXT "++debug recordName++" failed: "++
      cfErrorsToString env.errors)))
  else match env.result with
    | none => ask (.error (.dns "create TXT returned no record"))
    | some record =>
      update (fun s => { s with
        records := Function.update s.records (recordName,value) (some record.id) })

/-- Failures are logged, and the record counts as cleaned up. -/
def cleanup (r : Replies) (recordName value : String) : ProviderM Unit := do
  match ← look (fun s => s.records (recordName,value)) with
  | none => pure ()
  | some recordId =>
    update (fun s => { s with records := Function.update s.records (recordName,value) none })
    match ← caught (resolveZoneId debug p r recordName) with
    | .error _ => pure ()
    | .ok zoneId => send (.delete (recordUrl p zoneId recordId))

inductive Call where
  | publish (recordName value : String) (replies : Replies)
  | cleanup (recordName value : String) (replies : Replies)

namespace Call

def key : Call → String × String
  | .publish recordName value _ => (recordName,value)
  | .cleanup recordName value _ => (recordName,value)

def replies : Call → Replies
  | .publish _ _ r => r
  | .cleanup _ _ r => r

end Call

def step (s : State) : Call → State
  | .publish recordName value r => (publish debug p r recordName value { s with sent := [] }).2
  | .cleanup recordName value r => (cleanup debug p r recordName value { s with sent := [] }).2

def reached (calls : List Call) : State := run (step debug p) fresh calls

end ArchetypeProxy.Acme.Cloudflare

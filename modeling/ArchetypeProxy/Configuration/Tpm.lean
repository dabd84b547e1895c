import ArchetypeProxy.Library.CounterNonce
import ArchetypeProxy.Library.Fallible
import ArchetypeProxy.Library.Items
import ArchetypeProxy.Library.Numerals
import ArchetypeProxy.Library.Upserts
import ArchetypeProxy.Routes

/-!
# The TPM reference policy

A policy is read from a section of the configuration file or from five
environment variables. Both readers put the expected PCR values in a map under
the parsed index, so of several entries with one index the last one is kept.
-/

set_option autoImplicit false

namespace ArchetypeProxy.Configuration.Tpm
open ArchetypeProxy.CounterNonce ArchetypeProxy.Fallible ArchetypeProxy.Items
open ArchetypeProxy.Numerals ArchetypeProxy.Routes ArchetypeProxy.Text ArchetypeProxy.Upserts

inductive ConfigError where
  | read (path source : String)
  | parse (path source : String)
  | env (var value reason : String)
  | validation (message : String)
  deriving DecidableEq, Repr

def ConfigError.toText : ConfigError → String
  | .read path source => "failed to read config file "++path++": "++source
  | .parse path source => "failed to parse config file "++path++": "++source
  | .env var value reason => "invalid value for "++var++": "++value++" ("++reason++")"
  | .validation message => "invalid configuration: "++message

abbrev PcrMap := Std.ExtTreeMap UInt32 Bytes

structure TpmConfig where
  expectedPcrs : PcrMap
  pinnedAkSec1 : Option Bytes
  pcrSelection : Option (List UInt32)
  trustedEkRootPaths : List String
  allowUnpinnedAk : Bool

structure FileTpm where
  expectedPcrs : Std.ExtTreeMap String String
  pinnedAkSec1Hex : Option String
  pcrSelection : Option (List UInt32)
  trustedEkRootPaths : List String
  allowUnpinnedAk : Bool

def decodeHexField (value field : String) : Except ConfigError Bytes :=
  (decodeHex (trim value)).mapError (fun e => .env field value ("expected hex: "++e.text))

def parseIndex (value field : String) : Except ConfigError UInt32 :=
  (parseU32 (trim value)).mapError (fun e => .env field value ("invalid PCR index: "++e.text))

def collectPcrs {α : Type} (entry : α → Except ConfigError (UInt32 × Bytes)) :
    List α → PcrMap → Except ConfigError PcrMap
  | [], m => .ok m
  | x::xs, m => do
    let e ← entry x
    collectPcrs entry xs (m.insert e.1 e.2)

def fileEntry (e : String × String) : Except ConfigError (UInt32 × Bytes) := do
  let idx ← parseIndex e.1 "attestation.tpm.expected_pcrs"
  let bytes ← decodeHexField e.2 ("attestation.tpm.expected_pcrs["++decimal idx++"]")
  return (idx,bytes)

def optionalHex (field : String) : Option String → Except ConfigError (Option Bytes)
  | some h => do
    let bytes ← decodeHexField h field
    return some bytes
  | none => .ok none

def FileTpm.resolve (t : FileTpm) : Except ConfigError TpmConfig := do
  let expectedPcrs ← collectPcrs fileEntry t.expectedPcrs.toList ∅
  let pinnedAkSec1 ← optionalHex "attestation.tpm.pinned_ak_sec1_hex" t.pinnedAkSec1Hex
  return ⟨expectedPcrs,pinnedAkSec1,t.pcrSelection,t.trustedEkRootPaths,t.allowUnpinnedAk⟩

/-- The process environment. A variable whose value is not Unicode reads as one
that is not set. -/
abbrev Env := String → Option String

/-- A variable that is set to the empty text counts as not set. -/
def var (env : Env) (name : String) : Option String := (env name).filter (fun s => !isEmpty s)

def pcrsVar : String := "ARCHETYPE_PROXY_TPM_EXPECTED_PCRS"
def akVar : String := "ARCHETYPE_PROXY_TPM_PINNED_AK_SEC1_HEX"
def selectionVar : String := "ARCHETYPE_PROXY_TPM_PCR_SELECTION"
def rootsVar : String := "ARCHETYPE_PROXY_TPM_TRUSTED_EK_ROOT_PATHS"
def allowVar : String := "ARCHETYPE_PROXY_TPM_ALLOW_UNPINNED_AK"

def comma (c : Char) : Bool := c == ','

def commaOrColon (c : Char) : Bool := c == ',' || c == ':'

def envEntry (pair : String) : Except ConfigError (UInt32 × Bytes) :=
  match splitOnce pair ':' with
  | none => .error (.env pcrsVar pair "expected `index:hex` pairs separated by commas")
  | some (idxS,hexS) => do
    let idx ← parseIndex idxS pcrsVar
    let bytes ← decodeHexField hexS pcrsVar
    return (idx,bytes)

def envPcrs : Option String → Except ConfigError PcrMap
  | some raw => collectPcrs envEntry (items raw comma) ∅
  | none => .ok ∅

/-- The items are trimmed already when an index is parsed. -/
def selectionItem (s : String) : Except ConfigError UInt32 :=
  (parseU32 s).mapError (fun e => .env selectionVar s ("invalid PCR index: "++e.text))

def envSelection : Option String → Except ConfigError (Option (List UInt32))
  | some raw => do
    let sel ← (items raw comma).mapM selectionItem
    return some sel
  | none => .ok none

def envRoots : Option String → List String
  | some raw => items raw commaOrColon
  | none => []

def envAllow : Option String → Except ConfigError Bool
  | none => .ok false
  | some v =>
    match parseBoolToken v with
    | some b => .ok b
    | none => .error (.env allowVar v "expected a boolean")

def readTpmEnv (env : Env) : Except ConfigError (Option TpmConfig) :=
  let pcrsRaw := var env pcrsVar
  let akRaw := var env akVar
  let selRaw := var env selectionVar
  let rootsRaw := var env rootsVar
  let allowRaw := var env allowVar
  if pcrsRaw.isNone && akRaw.isNone && selRaw.isNone && rootsRaw.isNone && allowRaw.isNone then
    .ok none
  else do
    let expectedPcrs ← envPcrs pcrsRaw
    let pinnedAkSec1 ← optionalHex akVar akRaw
    let pcrSelection ← envSelection selRaw
    let allowUnpinnedAk ← envAllow allowRaw
    return some ⟨expectedPcrs,pinnedAkSec1,pcrSelection,envRoots rootsRaw,allowUnpinnedAk⟩

theorem collectPcrs_eq_ok_iff {α : Type} (entry : α → Except ConfigError (UInt32 × Bytes))
    (xs : List α) (m m' : PcrMap) :
    collectPcrs entry xs m = .ok m' ↔
      ∃ es, List.Forall₂ (fun x e => entry x = .ok e) xs es ∧ insertAll m es = m' := by
  induction xs generalizing m with
  | nil => simp [collectPcrs, insertAll]
  | cons x xs ih =>
    simp only [collectPcrs, except_bind_eq_ok_iff, ih, List.forall₂_cons_left_iff]
    constructor
    · rintro ⟨e,he,es,hes,rfl⟩
      exact ⟨e::es,⟨e,es,he,hes,rfl⟩,rfl⟩
    · rintro ⟨_,⟨e,es,he,hes,rfl⟩,rfl⟩
      exact ⟨e,he,es,hes,rfl⟩

def Reads (e : String × String) (v : UInt32 × Bytes) : Prop :=
  parseU32 (trim e.1) = .ok v.1 ∧ decodeHex (trim e.2) = .ok v.2

theorem reads_unique (e : String × String) (v v' : UInt32 × Bytes) (h : Reads e v)
    (h' : Reads e v') : v = v' := by
  have hidx := h.1.symm.trans h'.1
  have hbytes := h.2.symm.trans h'.2
  exact Prod.ext (Except.ok.inj hidx) (Except.ok.inj hbytes)

theorem parseIndex_eq_ok_iff (value field : String) (idx : UInt32) :
    parseIndex value field = .ok idx ↔ parseU32 (trim value) = .ok idx :=
  mapError_eq_ok_iff _ _ _

theorem decodeHexField_eq_ok_iff (value field : String) (bytes : Bytes) :
    decodeHexField value field = .ok bytes ↔ decodeHex (trim value) = .ok bytes :=
  mapError_eq_ok_iff _ _ _

theorem fileEntry_eq_ok_iff (e : String × String) (v : UInt32 × Bytes) :
    fileEntry e = .ok v ↔ Reads e v := by
  simp only [fileEntry, except_bind_eq_ok_iff, parseIndex_eq_ok_iff, decodeHexField_eq_ok_iff,
    pure, Except.pure, Except.ok.injEq, Reads]
  constructor
  · rintro ⟨idx,hidx,bytes,hbytes,rfl⟩
    exact ⟨hidx,hbytes⟩
  · rintro ⟨hidx,hbytes⟩
    exact ⟨v.1,hidx,v.2,hbytes,rfl⟩

theorem envEntry_eq_ok_iff (pair : String) (v : UInt32 × Bytes) :
    envEntry pair = .ok v ↔ ∃ e, splitOnce pair ':' = some e ∧ Reads e v := by
  cases hcut : splitOnce pair ':' with
  | none => simp [envEntry, hcut]
  | some e =>
    have hentry := fileEntry_eq_ok_iff e v
    simp only [fileEntry, except_bind_eq_ok_iff, parseIndex_eq_ok_iff,
      decodeHexField_eq_ok_iff] at hentry
    simp only [envEntry, hcut, except_bind_eq_ok_iff, parseIndex_eq_ok_iff,
      decodeHexField_eq_ok_iff, hentry, Option.some.injEq, exists_eq_left']

/-- The entries a policy lists: those of the table of the file, and those of
the pairs in the variable. -/
def fileEntries (t : FileTpm) : List (String × String) := t.expectedPcrs.toList

def envEntries (raw : String) : List (String × String) :=
  (items raw comma).filterMap (fun pair => splitOnce pair ':')

def Kept (m : PcrMap) (entries : List (String × String)) : Prop :=
  ∀ e ∈ entries, ∃ v, Reads e v ∧ m[v.1]? = some v.2

def Consistent (entries : List (String × String)) : Prop :=
  ∀ e ∈ entries, ∀ e' ∈ entries, ∀ v v', Reads e v → Reads e' v' → v.1 = v'.1 → v.2 = v'.2

section Entries
variable (entries : List (String × String)) (vs : List (UInt32 × Bytes))

theorem kept_iff (h : List.Forall₂ Reads entries vs) (m : PcrMap) :
    Kept m entries ↔ ∀ v ∈ vs, m[v.1]? = some v.2 := by
  constructor
  · intro hkept v hv
    obtain ⟨e,he,hread⟩ := forall₂_exists_left Reads entries vs h v hv
    obtain ⟨v',hread',hm⟩ := hkept e he
    rwa [reads_unique e v v' hread hread']
  · intro hm e he
    obtain ⟨v,hv,hread⟩ := forall₂_exists_right Reads entries vs h e he
    exact ⟨v,hread,hm v hv⟩

theorem consistent_iff (h : List.Forall₂ Reads entries vs) :
    Consistent entries ↔ ∀ v ∈ vs, ∀ v' ∈ vs, v.1 = v'.1 → v.2 = v'.2 := by
  constructor
  · intro hcons v hv v' hv' hidx
    obtain ⟨e,he,hread⟩ := forall₂_exists_left Reads entries vs h v hv
    obtain ⟨e',he',hread'⟩ := forall₂_exists_left Reads entries vs h v' hv'
    exact hcons e he e' he' v v' hread hread' hidx
  · intro hvs e he e' he' v v' hread hread' hidx
    obtain ⟨w,hw,hreadw⟩ := forall₂_exists_right Reads entries vs h e he
    obtain ⟨w',hw',hreadw'⟩ := forall₂_exists_right Reads entries vs h e' he'
    rw [reads_unique e v w hread hreadw, reads_unique e' v' w' hread' hreadw'] at hidx ⊢
    exact hvs w hw w' hw' hidx

theorem kept_iff_consistent (h : List.Forall₂ Reads entries vs) :
    Kept (insertAll ∅ vs) entries ↔ Consistent entries := by
  rw [kept_iff entries vs h, consistent_iff entries vs h, insertAll_keeps_iff]

end Entries

theorem resolve_eq_ok_iff (t : FileTpm) (cfg : TpmConfig) :
    t.resolve = .ok cfg ↔
      (∃ vs, List.Forall₂ Reads (fileEntries t) vs ∧ insertAll ∅ vs = cfg.expectedPcrs) ∧
        optionalHex "attestation.tpm.pinned_ak_sec1_hex" t.pinnedAkSec1Hex =
          .ok cfg.pinnedAkSec1 ∧
        t.pcrSelection = cfg.pcrSelection ∧ t.trustedEkRootPaths = cfg.trustedEkRootPaths ∧
        t.allowUnpinnedAk = cfg.allowUnpinnedAk := by
  simp only [FileTpm.resolve, except_bind_eq_ok_iff, collectPcrs_eq_ok_iff, fileEntry_eq_ok_iff,
    pure, Except.pure, Except.ok.injEq, fileEntries]
  constructor
  · rintro ⟨m,hm,ak,hak,rfl⟩
    exact ⟨hm,hak,rfl,rfl,rfl⟩
  · rintro ⟨hm,hak,hsel,hroots,hallow⟩
    exact ⟨_,hm,_,hak,by rw [hsel, hroots, hallow]⟩

def tpmVars : List String := [pcrsVar,akVar,selectionVar,rootsVar,allowVar]

def Silent (env : Env) : Prop := ∀ name ∈ tpmVars, var env name = none

theorem silent_iff (env : Env) :
    ((var env pcrsVar).isNone && (var env akVar).isNone && (var env selectionVar).isNone &&
      (var env rootsVar).isNone && (var env allowVar).isNone) = true ↔ Silent env := by
  simp [Silent, tpmVars, and_assoc]

theorem readTpmEnv_eq_none_iff (env : Env) : readTpmEnv env = .ok none ↔ Silent env := by
  by_cases hsilent : Silent env
  · simp only [readTpmEnv, (silent_iff env).mpr hsilent, if_true, hsilent]
  · simp only [readTpmEnv, silent_iff, hsilent, if_false, except_bind_eq_ok_iff, pure,
      Except.pure, Except.ok.injEq, reduceCtorEq, and_false, exists_false]

theorem readTpmEnv_eq_some_iff (env : Env) (cfg : TpmConfig) :
    readTpmEnv env = .ok (some cfg) ↔
      ¬ Silent env ∧ envPcrs (var env pcrsVar) = .ok cfg.expectedPcrs ∧
        optionalHex akVar (var env akVar) = .ok cfg.pinnedAkSec1 ∧
        envSelection (var env selectionVar) = .ok cfg.pcrSelection ∧
        envRoots (var env rootsVar) = cfg.trustedEkRootPaths ∧
        envAllow (var env allowVar) = .ok cfg.allowUnpinnedAk := by
  by_cases hsilent : Silent env
  · simp [(readTpmEnv_eq_none_iff env).mpr hsilent, hsilent]
  · simp only [readTpmEnv, silent_iff, hsilent, if_false, except_bind_eq_ok_iff, pure,
      Except.pure, Except.ok.injEq, Option.some.injEq, not_false_eq_true, true_and]
    constructor
    · rintro ⟨m,hm,ak,hak,sel,hsel,allow,hallow,rfl⟩
      exact ⟨hm,hak,hsel,rfl,hallow⟩
    · rintro ⟨hm,hak,hsel,hroots,hallow⟩
      exact ⟨_,hm,_,hak,_,hsel,_,hallow,by rw [hroots]⟩

theorem envPcrs_eq_ok_iff (raw : String) (m : PcrMap) :
    envPcrs (some raw) = .ok m ↔
      ∃ vs, List.Forall₂ (fun pair v => ∃ e, splitOnce pair ':' = some e ∧ Reads e v)
        (items raw comma) vs ∧ insertAll ∅ vs = m := by
  simp only [envPcrs, collectPcrs_eq_ok_iff, envEntry_eq_ok_iff]

theorem envEntries_kept_iff (raw : String) (m : PcrMap) (h : envPcrs (some raw) = .ok m) :
    Kept m (envEntries raw) ↔ Consistent (envEntries raw) := by
  obtain ⟨vs,hvs,rfl⟩ := (envPcrs_eq_ok_iff raw m).mp h
  exact kept_iff_consistent _ vs (forall₂_filterMap _ _ _ Reads hvs)

/-- An accepted policy keeps every listed entry exactly when entries of one
index agree, in the file and in the environment. -/
theorem listed_pcrs_kept_iff (t : FileTpm) (env : Env) (raw : String)
    (fileCfg envCfg : TpmConfig) :
    (t.resolve = .ok fileCfg →
      (Kept fileCfg.expectedPcrs (fileEntries t) ↔ Consistent (fileEntries t))) ∧
    (var env pcrsVar = some raw → readTpmEnv env = .ok (some envCfg) →
      (Kept envCfg.expectedPcrs (envEntries raw) ↔ Consistent (envEntries raw))) := by
  constructor
  · intro hresolve
    obtain ⟨⟨vs,hvs,hm⟩,-⟩ := (resolve_eq_ok_iff t fileCfg).mp hresolve
    rw [← hm]
    exact kept_iff_consistent (fileEntries t) vs hvs
  · intro hraw hread
    obtain ⟨-,hm,-⟩ := (readTpmEnv_eq_some_iff env envCfg).mp hread
    rw [hraw] at hm
    exact envEntries_kept_iff raw envCfg.expectedPcrs hm

def tableOnly (entries : List (String × String)) : FileTpm :=
  ⟨insertAll ∅ entries,none,none,[],false⟩

def pcrsOnly (vs : List (UInt32 × Bytes)) : TpmConfig := ⟨insertAll ∅ vs,none,none,[],false⟩

def envOnly (raw : String) : Env := fun name => if name = pcrsVar then some raw else none

theorem distinct_pcrs_kept :
    Kept (pcrsOnly [(0,[0xaa]),(7,[0xbb])]).expectedPcrs
        (fileEntries (tableOnly [("0","aa"),("7","bb")])) ∧
      Kept (pcrsOnly [(0,[0xaa]),(7,[0xbb])]).expectedPcrs (envEntries "0:aa,7:bb") := by
  have hreads : List.Forall₂ Reads [("0","aa"),("7","bb")] [(0,[0xaa]),(7,[0xbb])] :=
    .cons ⟨rfl,rfl⟩ (.cons ⟨rfl,rfl⟩ .nil)
  have hcons : Consistent [("0","aa"),("7","bb")] :=
    (consistent_iff _ _ hreads).mpr (by decide)
  obtain ⟨hfile,henv⟩ := listed_pcrs_kept_iff (tableOnly [("0","aa"),("7","bb")])
    (envOnly "0:aa,7:bb") "0:aa,7:bb" (pcrsOnly [(0,[0xaa]),(7,[0xbb])])
    (pcrsOnly [(0,[0xaa]),(7,[0xbb])])
  exact ⟨(hfile rfl).mpr hcons,(henv rfl rfl).mpr hcons⟩

/-- The index is spelled in two ways in the file, and twice the same way in the
environment: both are accepted and the first digest is gone. -/
theorem repeated_index_dropped :
    ((tableOnly [("0","aa"),("00","bb")]).resolve = .ok (pcrsOnly [(0,[0xaa]),(0,[0xbb])]) ∧
      ¬ Kept (pcrsOnly [(0,[0xaa]),(0,[0xbb])]).expectedPcrs
        (fileEntries (tableOnly [("0","aa"),("00","bb")]))) ∧
    readTpmEnv (envOnly "0:aa,0:bb") = .ok (some (pcrsOnly [(0,[0xaa]),(0,[0xbb])])) ∧
      ¬ Kept (pcrsOnly [(0,[0xaa]),(0,[0xbb])]).expectedPcrs (envEntries "0:aa,0:bb") := by
  have hlost (entries : List (String × String))
      (hreads : List.Forall₂ Reads entries [(0,[0xaa]),(0,[0xbb])]) :
      ¬ Kept (pcrsOnly [(0,[0xaa]),(0,[0xbb])]).expectedPcrs entries := by
    rw [pcrsOnly, kept_iff_consistent entries _ hreads, consistent_iff entries _ hreads]
    decide
  refine ⟨⟨rfl,hlost _ ?_⟩,rfl,hlost _ ?_⟩
  · exact .cons ⟨rfl,rfl⟩ (.cons ⟨rfl,rfl⟩ .nil)
  · exact .cons ⟨rfl,rfl⟩ (.cons ⟨rfl,rfl⟩ .nil)

end ArchetypeProxy.Configuration.Tpm

import ArchetypeProxy.Configuration.Tpm

/-!
# The two encodings of a TPM policy

A policy written into the environment and the same policy written as a
section of the file are read back as that policy. A written text may have
blanks around its items, empty items between separators and hexadecimal
digits of either case.
-/

set_option autoImplicit false

namespace ArchetypeProxy.Configuration.TpmRoundTrip
open ArchetypeProxy.CounterNonce ArchetypeProxy.Fallible ArchetypeProxy.Items
open ArchetypeProxy.Numerals ArchetypeProxy.Routes ArchetypeProxy.Text ArchetypeProxy.Upserts
open ArchetypeProxy.Configuration.Tpm

def IndexWritten (i : UInt32) (t : String) : Prop := Padded (decimal i) t

def HexWritten (bytes : Bytes) (t : String) : Prop :=
  ∃ h, toAsciiLowercase h = hexEncode bytes ∧ Padded h t

def PairWritten (v : UInt32 × Bytes) (t : String) : Prop :=
  ∃ a b, IndexWritten v.1 a ∧ HexWritten v.2 b ∧ t = a++":"++b

def flagTokens : Bool → List String
  | true => ["1","true","yes","on"]
  | false => ["0","false","no","off"]

def FlagWritten (b : Bool) (t : String) : Prop :=
  ∃ token, toAsciiLowercase token ∈ flagTokens b ∧ Padded token t

def Unset (env : Env) (name : String) : Prop := env name = none ∨ env name = some ""

/-- The environment holds the policy. The pairs stand in any order. -/
structure EnvWritten (env : Env) (cfg : TpmConfig) : Prop where
  pcrs : ∃ raw vs, env pcrsVar = some raw ∧ Listing comma PairWritten vs raw ∧
    ∀ v, v ∈ vs ↔ cfg.expectedPcrs[v.1]? = some v.2
  ak : match cfg.pinnedAkSec1 with
    | none => Unset env akVar
    | some bytes => ∃ raw, env akVar = some raw ∧ HexWritten bytes raw
  selection : match cfg.pcrSelection with
    | none => Unset env selectionVar
    | some sel => ∃ raw, env selectionVar = some raw ∧ Listing comma IndexWritten sel raw
  roots : (cfg.trustedEkRootPaths = [] ∧ env rootsVar = none) ∨
    ∃ raw, env rootsVar = some raw ∧ Listing commaOrColon Padded cfg.trustedEkRootPaths raw
  allow : (cfg.allowUnpinnedAk = false ∧ Unset env allowVar) ∨
    ∃ raw, env allowVar = some raw ∧ FlagWritten cfg.allowUnpinnedAk raw

structure FileWritten (t : FileTpm) (cfg : TpmConfig) : Prop where
  entry : ∀ e ∈ fileEntries t, ∃ v : UInt32 × Bytes, cfg.expectedPcrs[v.1]? = some v.2 ∧
    IndexWritten v.1 e.1 ∧ HexWritten v.2 e.2
  complete : ∀ v : UInt32 × Bytes, cfg.expectedPcrs[v.1]? = some v.2 →
    ∃ e ∈ fileEntries t, IndexWritten v.1 e.1 ∧ HexWritten v.2 e.2
  ak : match cfg.pinnedAkSec1 with
    | none => t.pinnedAkSec1Hex = none
    | some bytes => ∃ h, t.pinnedAkSec1Hex = some h ∧ HexWritten bytes h
  selection : t.pcrSelection = cfg.pcrSelection
  roots : t.trustedEkRootPaths = cfg.trustedEkRootPaths
  allow : t.allowUnpinnedAk = cfg.allowUnpinnedAk

/-- A policy both encodings can express. -/
structure Expressible (cfg : TpmConfig) : Prop where
  pcrs : cfg.expectedPcrs ≠ ∅
  ak : ∀ bytes, cfg.pinnedAkSec1 = some bytes → bytes ≠ []
  selection : ∀ sel, cfg.pcrSelection = some sel → sel ≠ []
  roots : ∀ path ∈ cfg.trustedEkRootPaths, path ≠ "" ∧ trim path = path ∧
    ∀ c ∈ path.toList, commaOrColon c = false

theorem comma_blank (c : Char) (h : isWhiteSpace c = true) : comma c = false := by
  rw [comma, beq_eq_false_iff_ne]
  rintro rfl
  exact absurd h (by decide)

theorem commaOrColon_blank (c : Char) (h : isWhiteSpace c = true) : commaOrColon c = false := by
  rw [commaOrColon, Bool.or_eq_false_iff, beq_eq_false_iff_ne, beq_eq_false_iff_ne]
  constructor <;>
  · rintro rfl
    exact absurd h (by decide)

theorem comma_of_plain (c : Char) (h : (hexDigit c).isSome = true) : comma c = false := by
  simpa [comma] using (plain_of_hexDigit c h).2.1

section Written
variable (i : UInt32) (bytes : Bytes) (t : String)

theorem hexDigit_of_mem_decimal (c : Char) (h : c ∈ (decimal i).toList) :
    (hexDigit c).isSome = true :=
  hexDigit_of_isDigit c (isDigit_of_mem_decimal i c h)

theorem trim_of_digits (s : String) (h : ∀ c ∈ s.toList, (hexDigit c).isSome = true) :
    trim s = s :=
  trim_eq_self s fun c hc => (plain_of_hexDigit c (h c hc)).1

theorem indexWritten_trim (h : IndexWritten i t) : trim t = decimal i :=
  h.trim_eq.trans (trim_of_digits _ (hexDigit_of_mem_decimal i))

theorem hexWritten_decode (h : HexWritten bytes t) : decodeHex (trim t) = .ok bytes := by
  obtain ⟨s,hs,hpad⟩ := h
  rw [hpad.trim_eq, trim_of_digits s (hexDigit_of_mem s bytes hs)]
  exact decodeHex_eq_ok s bytes hs

theorem decimal_ne_empty : decimal i ≠ "" := by
  intro h
  have hlist := decimal_toList i
  rw [h] at hlist
  exact Nat.toDigits_ne_nil hlist.symm

theorem indexWritten_item (h : IndexWritten i t) :
    Single comma t ∧ selectionItem (trim t) = .ok i := by
  obtain ⟨hsingle,htrim⟩ := single_padded comma comma_blank (decimal i) t h
    (trim_of_digits _ (hexDigit_of_mem_decimal i)) (decimal_ne_empty i)
    fun c hc => comma_of_plain c (hexDigit_of_mem_decimal i c hc)
  refine ⟨hsingle,?_⟩
  rw [htrim, selectionItem, mapError_eq_ok_iff]
  exact parseU32_decimal i

theorem hexWritten_plain (h : HexWritten bytes t) (c : Char) (hc : c ∈ t.toList) :
    comma c = false := by
  obtain ⟨s,hs,hpad⟩ := h
  rcases hpad.mem c hc with hw|hc
  · exact comma_blank c hw
  · exact comma_of_plain c (hexDigit_of_mem s bytes hs c hc)

theorem pairWritten_item (v : UInt32 × Bytes) (h : PairWritten v t) :
    Single comma t ∧ ∃ e, splitOnce (trim t) ':' = some e ∧ Reads e v := by
  obtain ⟨a,b,ha,hb,rfl⟩ := h
  have hcolon : ':' ∉ a.toList := by
    intro hc
    rcases ha.mem ':' hc with hw|hc
    · exact absurd hw (by decide)
    · exact (plain_of_hexDigit _ (hexDigit_of_mem_decimal v.1 _ hc)).2.2 rfl
  obtain ⟨a',b',hcut,ha',hb'⟩ := splitOnce_trim a b ':' (by decide) hcolon
  refine ⟨⟨?_,?_⟩,(a',b'),hcut,?_,?_⟩
  · intro c hc
    simp only [String.toList_append, List.mem_append] at hc
    rcases hc with (hc|hc)|hc
    · exact (indexWritten_item v.1 a ha).1.1 c hc
    · have : c = ':' := by simpa using hc
      rw [this]
      rfl
    · exact hexWritten_plain v.2 b hb c hc
  · rw [isEmpty_eq_false_iff]
    intro hempty
    rw [show a++":"++b = a++String.singleton ':'++b from rfl] at hempty
    rw [hempty] at hcut
    cases hcut
  · rw [ha', indexWritten_trim v.1 a ha]
    exact parseU32_decimal v.1
  · rw [hb']
    exact hexWritten_decode v.2 b hb

theorem flagWritten_parse (b : Bool) (h : FlagWritten b t) : parseBoolToken t = some b := by
  obtain ⟨token,hmem,hpad⟩ := h
  have hlower : toAsciiLowercase (trim t) = trim (toAsciiLowercase token) := by
    rw [hpad.trim_eq, toAsciiLowercase_trim]
  simp only [parseBoolToken, hlower]
  cases b <;> simp only [flagTokens, List.mem_cons, List.not_mem_nil, or_false] at hmem <;>
    rcases hmem with h|h|h|h <;> rw [h] <;> decide

end Written

section Reading
variable (env : Env) (cfg : TpmConfig)

theorem var_of_unset (name : String) (h : Unset env name) : var env name = none := by
  rcases h with h|h
  · simp [var, h]
  · simp [var, h, isEmpty]

theorem var_of_set (name raw : String) (h : env name = some raw) (hne : isEmpty raw = false) :
    var env name = some raw := by
  simp [var, h, hne]

theorem read_pcrs (h : EnvWritten env cfg) (hne : cfg.expectedPcrs ≠ ∅) :
    ∃ raw, var env pcrsVar = some raw ∧ envPcrs (some raw) = .ok cfg.expectedPcrs := by
  obtain ⟨raw,vs,hset,hlist,hvs⟩ := h.pcrs
  have hread := items_listing comma PairWritten
    (fun v pair => ∃ e, splitOnce pair ':' = some e ∧ Reads e v) vs raw comma_blank
    (fun v _ t ht => pairWritten_item t v ht) hlist
  have hvsne : vs ≠ [] := by
    rintro rfl
    exact hne (insertAll_eq_of_mem_iff cfg.expectedPcrs [] hvs).symm
  have hraw := not_isEmpty_of_items comma _ vs raw hread hvsne
  refine ⟨raw,var_of_set env pcrsVar raw hset hraw,?_⟩
  rw [envPcrs_eq_ok_iff]
  exact ⟨vs,hread.flip,insertAll_eq_of_mem_iff cfg.expectedPcrs vs hvs⟩

theorem hexWritten_ne_empty (bytes : Bytes) (t : String) (h : HexWritten bytes t)
    (hne : bytes ≠ []) : isEmpty t = false := by
  have hread := hexWritten_decode bytes t h
  rw [isEmpty_eq_false_iff]
  rintro rfl
  exact hne (Except.ok.inj hread).symm

theorem read_ak (h : EnvWritten env cfg)
    (hne : ∀ bytes, cfg.pinnedAkSec1 = some bytes → bytes ≠ []) :
    optionalHex akVar (var env akVar) = .ok cfg.pinnedAkSec1 := by
  have hak := h.ak
  cases hcfg : cfg.pinnedAkSec1 with
  | none =>
    rw [hcfg] at hak
    rw [var_of_unset env akVar hak]
    rfl
  | some bytes =>
    rw [hcfg] at hak
    obtain ⟨raw,hset,hwritten⟩ := hak
    have hraw := hexWritten_ne_empty bytes raw hwritten (hne bytes hcfg)
    rw [var_of_set env akVar raw hset hraw, optionalHex,
      (decodeHexField_eq_ok_iff raw akVar bytes).mpr (hexWritten_decode bytes raw hwritten)]
    rfl

theorem read_selection (h : EnvWritten env cfg)
    (hne : ∀ sel, cfg.pcrSelection = some sel → sel ≠ []) :
    envSelection (var env selectionVar) = .ok cfg.pcrSelection := by
  have hsel := h.selection
  cases hcfg : cfg.pcrSelection with
  | none =>
    rw [hcfg] at hsel
    rw [var_of_unset env selectionVar hsel]
    rfl
  | some sel =>
    rw [hcfg] at hsel
    obtain ⟨raw,hset,hlist⟩ := hsel
    have hread := items_listing comma IndexWritten (fun i s => selectionItem s = .ok i) sel raw
      comma_blank (fun i _ t ht => indexWritten_item i t ht) hlist
    have hraw := not_isEmpty_of_items comma _ sel raw hread (hne sel hcfg)
    rw [var_of_set env selectionVar raw hset hraw, envSelection,
      (mapM_eq_ok_iff selectionItem (items raw comma) sel).mpr hread.flip]
    rfl

theorem read_roots (h : EnvWritten env cfg) (hroots : ∀ path ∈ cfg.trustedEkRootPaths,
      path ≠ "" ∧ trim path = path ∧ ∀ c ∈ path.toList, commaOrColon c = false) :
    envRoots (var env rootsVar) = cfg.trustedEkRootPaths := by
  rcases h.roots with ⟨hnil,hunset⟩|⟨raw,hset,hlist⟩
  · rw [var_of_unset env rootsVar (Or.inl hunset), hnil]
    rfl
  · have hread : List.Forall₂ Eq cfg.trustedEkRootPaths (items raw commaOrColon) := by
      refine items_listing commaOrColon Padded Eq _ raw commaOrColon_blank ?_ hlist
      intro path hpath t ht
      obtain ⟨hne,htrim,hsep⟩ := hroots path hpath
      obtain ⟨hsingle,heq⟩ :=
        single_padded commaOrColon commaOrColon_blank path t ht htrim hne hsep
      exact ⟨hsingle,heq.symm⟩
    rw [List.forall₂_eq_eq_eq] at hread
    cases hempty : isEmpty raw with
    | false =>
      rw [var_of_set env rootsVar raw hset hempty]
      exact hread.symm
    | true =>
      have hraw : raw = "" := by simpa [isEmpty] using hempty
      rw [var_of_unset env rootsVar (Or.inr (hraw ▸ hset)), hread, hraw]
      rfl

theorem read_allow (h : EnvWritten env cfg) :
    envAllow (var env allowVar) = .ok cfg.allowUnpinnedAk := by
  rcases h.allow with ⟨hfalse,hunset⟩|⟨raw,hset,hwritten⟩
  · rw [var_of_unset env allowVar hunset, hfalse]
    rfl
  · have hparse := flagWritten_parse raw cfg.allowUnpinnedAk hwritten
    have hraw : isEmpty raw = false := by
      rw [isEmpty_eq_false_iff]
      rintro rfl
      cases hparse
    rw [var_of_set env allowVar raw hset hraw]
    simp only [envAllow, hparse]

theorem read_written (hcfg : Expressible cfg) (h : EnvWritten env cfg) :
    readTpmEnv env = .ok (some cfg) := by
  obtain ⟨raw,hraw,hpcrs⟩ := read_pcrs env cfg h hcfg.pcrs
  rw [readTpmEnv_eq_some_iff, hraw]
  refine ⟨?_,hpcrs,read_ak env cfg h hcfg.ak,read_selection env cfg h hcfg.selection,
    read_roots env cfg h hcfg.roots,read_allow env cfg h⟩
  intro hsilent
  rw [hsilent pcrsVar (by simp [tpmVars])] at hraw
  cases hraw

theorem reads_of_written (e : String × String) (v : UInt32 × Bytes) (hidx : IndexWritten v.1 e.1)
    (hhex : HexWritten v.2 e.2) : Reads e v := by
  refine ⟨?_,hexWritten_decode v.2 e.2 hhex⟩
  rw [indexWritten_trim v.1 e.1 hidx]
  exact parseU32_decimal v.1

theorem resolve_pcrs (t : FileTpm) (h : FileWritten t cfg) :
    ∃ vs, List.Forall₂ Reads (fileEntries t) vs ∧ insertAll ∅ vs = cfg.expectedPcrs := by
  have hentry : ∀ e ∈ fileEntries t, ∃ v : UInt32 × Bytes,
      Reads e v ∧ cfg.expectedPcrs[v.1]? = some v.2 := by
    intro e he
    obtain ⟨v,hv,hidx,hhex⟩ := h.entry e he
    exact ⟨v,reads_of_written e v hidx hhex,hv⟩
  obtain ⟨vs,hvs⟩ := exists_forall₂ _ (fileEntries t) hentry
  refine ⟨vs,hvs.imp fun e v hev => hev.1,insertAll_eq_of_mem_iff cfg.expectedPcrs vs ?_⟩
  intro v
  constructor
  · intro hv
    obtain ⟨e,-,-,hmap⟩ := forall₂_exists_left _ _ vs hvs v hv
    exact hmap
  · intro hmap
    obtain ⟨e,he,hidx,hhex⟩ := h.complete v hmap
    obtain ⟨v',hv',hread,-⟩ := forall₂_exists_right _ _ vs hvs e he
    rwa [reads_unique e v v' (reads_of_written e v hidx hhex) hread]

theorem resolve_written (t : FileTpm) (h : FileWritten t cfg) : t.resolve = .ok cfg := by
  rw [resolve_eq_ok_iff]
  refine ⟨resolve_pcrs cfg t h,?_,h.selection,h.roots,h.allow⟩
  have hak := h.ak
  cases hcfg : cfg.pinnedAkSec1 with
  | none =>
    rw [hcfg] at hak
    rw [show t.pinnedAkSec1Hex = none from hak]
    rfl
  | some bytes =>
    rw [hcfg] at hak
    obtain ⟨s,hs,hwritten⟩ := hak
    rw [hs, optionalHex,
      (decodeHexField_eq_ok_iff s _ bytes).mpr (hexWritten_decode bytes s hwritten)]
    rfl

end Reading

/-! The policy with a comma between two items and nothing else. -/

def renderPair (v : UInt32 × Bytes) : String := decimal v.1++":"++hexEncode v.2

def renderEnv (cfg : TpmConfig) : Env := fun name =>
  if name = pcrsVar then some (joinWith "," (cfg.expectedPcrs.toList.map renderPair))
  else if name = akVar then cfg.pinnedAkSec1.map hexEncode
  else if name = selectionVar then
    cfg.pcrSelection.map (fun sel => joinWith "," (sel.map decimal))
  else if name = rootsVar then some (joinWith "," cfg.trustedEkRootPaths)
  else if name = allowVar then some (if cfg.allowUnpinnedAk then "true" else "false")
  else none

def renderFile (cfg : TpmConfig) : FileTpm where
  expectedPcrs := insertAll ∅ (cfg.expectedPcrs.toList.map (fun v => (decimal v.1,hexEncode v.2)))
  pinnedAkSec1Hex := cfg.pinnedAkSec1.map hexEncode
  pcrSelection := cfg.pcrSelection
  trustedEkRootPaths := cfg.trustedEkRootPaths
  allowUnpinnedAk := cfg.allowUnpinnedAk

section Rendering
variable (cfg : TpmConfig)

theorem hexWritten_hexEncode (bytes : Bytes) : HexWritten bytes (hexEncode bytes) :=
  ⟨hexEncode bytes,toAsciiLowercase_hexEncode bytes,padded_self _⟩

theorem envWritten_renderEnv : EnvWritten (renderEnv cfg) cfg where
  pcrs := by
    refine ⟨_,cfg.expectedPcrs.toList,rfl,?_,fun v => ?_⟩
    · refine listing_joinWith comma PairWritten ',' rfl renderPair _ fun v _ => ?_
      exact ⟨_,_,padded_self _,hexWritten_hexEncode v.2,rfl⟩
    · exact Std.ExtTreeMap.mem_toList_iff_getElem?_eq_some
  ak := by
    cases hak : cfg.pinnedAkSec1 with
    | none => exact Or.inl (congrArg (Option.map hexEncode) hak)
    | some bytes => exact ⟨_,congrArg (Option.map hexEncode) hak,hexWritten_hexEncode bytes⟩
  selection := by
    cases hsel : cfg.pcrSelection with
    | none => exact Or.inl (congrArg (Option.map _) hsel)
    | some sel =>
      refine ⟨_,congrArg (Option.map _) hsel,?_⟩
      exact listing_joinWith comma IndexWritten ',' rfl decimal sel fun i _ => padded_self _
  roots := by
    refine Or.inr ⟨_,rfl,?_⟩
    have hlist := listing_joinWith commaOrColon Padded ',' rfl id cfg.trustedEkRootPaths
      fun path _ => padded_self path
    rwa [List.map_id] at hlist
  allow := by
    refine Or.inr ⟨_,rfl,_,?_,padded_self _⟩
    cases cfg.allowUnpinnedAk <;> decide

theorem mem_renderFile_iff (e : String × String) :
    e ∈ fileEntries (renderFile cfg) ↔
      ∃ v : UInt32 × Bytes, cfg.expectedPcrs[v.1]? = some v.2 ∧
        (decimal v.1,hexEncode v.2) = e := by
  rw [fileEntries, renderFile, mem_toList_insertAll_iff]
  · rw [List.mem_map]
    exact exists_congr fun v =>
      and_congr Std.ExtTreeMap.mem_toList_iff_getElem?_eq_some Iff.rfl
  · intro e he e' he' hkey
    obtain ⟨v,hv,rfl⟩ := List.mem_map.mp he
    obtain ⟨v',hv',rfl⟩ := List.mem_map.mp he'
    rw [Std.ExtTreeMap.mem_toList_iff_getElem?_eq_some] at hv hv'
    rw [decimal_injective hkey, hv'] at hv
    rw [Option.some.inj hv]

theorem fileWritten_renderFile : FileWritten (renderFile cfg) cfg where
  entry := by
    intro e he
    obtain ⟨v,hv,rfl⟩ := (mem_renderFile_iff cfg e).mp he
    exact ⟨v,hv,padded_self _,hexWritten_hexEncode v.2⟩
  complete := by
    intro v hv
    exact ⟨_,(mem_renderFile_iff cfg _).mpr ⟨v,hv,rfl⟩,padded_self _,hexWritten_hexEncode v.2⟩
  ak := by
    cases hak : cfg.pinnedAkSec1 with
    | none => exact congrArg (Option.map hexEncode) hak
    | some bytes => exact ⟨_,congrArg (Option.map hexEncode) hak,hexWritten_hexEncode bytes⟩
  selection := rfl
  roots := rfl
  allow := rfl

end Rendering

/-- A policy both encodings can express is read back from every way to write it
in the environment and in the file, and there is one of each. -/
theorem policy_encodings_agree (cfg : TpmConfig) (hcfg : Expressible cfg) :
    (∀ env, EnvWritten env cfg → readTpmEnv env = .ok (some cfg)) ∧
      (∀ t, FileWritten t cfg → t.resolve = .ok cfg) ∧
      EnvWritten (renderEnv cfg) cfg ∧ FileWritten (renderFile cfg) cfg :=
  ⟨fun env => read_written env cfg hcfg,resolve_written cfg,
    envWritten_renderEnv cfg,fileWritten_renderFile cfg⟩

def measuredBoot : TpmConfig :=
  ⟨insertAll ∅ [(0,[0xab]),(7,[])],some [4],some [0,7],["ek.pem","/root.der"],true⟩

theorem measuredBoot_expressible : Expressible measuredBoot where
  pcrs := by
    intro h
    have hpcr := congrArg (fun m : PcrMap => m[(0 : UInt32)]?) h
    exact absurd hpcr (by decide +kernel)
  ak := by
    rintro _ ⟨⟩
    exact List.cons_ne_nil _ _
  selection := by
    rintro _ ⟨⟩
    exact List.cons_ne_nil _ _
  roots := by
    have hall : ∀ path ∈ measuredBoot.trustedEkRootPaths, path ≠ "" ∧ trim path = path ∧
        (path.toList.all fun c => !commaOrColon c) = true := by decide
    intro path hpath
    obtain ⟨hne,htrim,hsep⟩ := hall path hpath
    exact ⟨hne,htrim,by simpa using hsep⟩

def looseEnv : Env := fun name =>
  if name = pcrsVar then some " 7: ,,0 :AB" else if name = akVar then some "04 "
  else if name = selectionVar then some "0,, 7"
  else if name = rootsVar then some "ek.pem:/root.der,"
  else if name = allowVar then some " Yes" else none

theorem looseEnv_written : EnvWritten looseEnv measuredBoot where
  pcrs := by
    have hseven : PairWritten (7,[]) " 7: " :=
      ⟨" 7"," ",⟨" ","",by decide,by decide,rfl⟩,⟨"",rfl,""," ",by decide,by decide,rfl⟩,rfl⟩
    have hzero : PairWritten (0,[0xab]) "0 :AB" :=
      ⟨"0 ","AB",⟨""," ",by decide,by decide,rfl⟩,⟨"AB",rfl,padded_self _⟩,rfl⟩
    refine ⟨_,[(7,[]),(0,[0xab])],rfl,?_,?_⟩
    · exact .join [(7,[])] [(0,[0xab])] _ _ ',' rfl (.item _ _ hseven)
        (.join [] [(0,[0xab])] "" _ ',' rfl (.blank "" (by decide)) (.item _ _ hzero))
    · intro v
      have hswap : v ∈ [(7,[]),(0,[0xab])] ↔ v ∈ [(0,[0xab]),(7,[])] := by simp [or_comm]
      exact hswap.trans ((mem_toList_insertAll_iff _ (by decide) v).symm.trans
        Std.ExtTreeMap.mem_toList_iff_getElem?_eq_some)
  ak := ⟨"04 ",rfl,"04",rfl,""," ",by decide,by decide,rfl⟩
  selection := by
    refine ⟨_,rfl,?_⟩
    exact .join [0] [7] "0" ", 7" ',' rfl (.item _ _ (padded_self "0"))
      (.join [] [7] "" " 7" ',' rfl (.blank "" (by decide))
        (.item _ _ ⟨" ","",by decide,by decide,rfl⟩))
  roots := by
    refine Or.inr ⟨_,rfl,?_⟩
    exact .join ["ek.pem"] ["/root.der"] "ek.pem" "/root.der," ':' rfl (.item _ _ (padded_self _))
      (.join ["/root.der"] [] "/root.der" "" ',' rfl (.item _ _ (padded_self _))
        (.blank "" (by decide)))
  allow := Or.inr ⟨" Yes",rfl,"Yes",by decide," ","",by decide,by decide,rfl⟩

theorem loose_policy_read_back :
    readTpmEnv looseEnv = .ok (some measuredBoot) ∧
      readTpmEnv (renderEnv measuredBoot) = .ok (some measuredBoot) ∧
      (renderFile measuredBoot).resolve = .ok measuredBoot := by
  obtain ⟨henv,hfile,hrendered,hsection⟩ :=
    policy_encodings_agree measuredBoot measuredBoot_expressible
  exact ⟨henv looseEnv looseEnv_written,henv _ hrendered,hfile _ hsection⟩

end ArchetypeProxy.Configuration.TpmRoundTrip

import ArchetypeProxy.Library.StableSelection
import ArchetypeProxy.Library.Text
import Mathlib.Data.Prod.Lex

/-!
# Routes and the route table

A route sends the requests of one match rule to an upstream. The table is
sorted once, most specific route first, and a request takes the first route
that matches it. Matching ignores the trailing slashes of a path prefix;
the sort key counts them.
-/

set_option autoImplicit false

namespace ArchetypeProxy.Routes
open ArchetypeProxy.Text ArchetypeProxy.StableSelection

inductive Source where
  | default
  | file
  | discovered
  | env
  | cli
  deriving DecidableEq, Repr

def Source.routeRank : Source → ℕ
  | .discovered | .env | .cli => 1
  | .file | .default => 0

def parseBoolToken (s : String) : Option Bool :=
  let t := toAsciiLowercase (trim s)
  if t = "1" ∨ t = "true" ∨ t = "yes" ∨ t = "on" then some true
  else if t = "0" ∨ t = "false" ∨ t = "no" ∨ t = "off" then some false
  else none

/-- An empty host matches any host, an empty path prefix any path. -/
structure Route where
  name : String
  host : String
  pathPrefix : String
  upstream : String
  strictAttestation : Option Bool
  source : Source
  deriving DecidableEq, Repr

/-- Lexicographic: host match, then prefix length in bytes, then source rank. -/
def Route.specificity (r : Route) : ℕ ×ₗ ℕ ×ₗ ℕ :=
  toLex (if isEmpty r.host then 0 else 1, toLex (len r.pathPrefix, r.source.routeRank))

def pathPrefixMatches (pathPrefix path : String) : Bool :=
  let p := trimEndMatches pathPrefix '/'
  if isEmpty p then true
  else match stripPrefix path p with
    | some rest => isEmpty rest || startsWith rest "/"
    | none => false

theorem pathPrefixMatches_iff (pathPrefix path : String) :
    pathPrefixMatches pathPrefix path = true ↔
      pathPrefix.toList.rdropWhile (· == '/') = [] ∨
        ∃ rest, path.toList = pathPrefix.toList.rdropWhile (· == '/') ++ rest ∧
          (rest = [] ∨ rest.head? = some '/') := by
  unfold pathPrefixMatches trimEndMatches
  generalize pathPrefix.toList.rdropWhile (· == '/') = t
  by_cases ht : t = []
  · simp [ht, isEmpty]
  · have hne : isEmpty (String.ofList t) = false := by simpa [isEmpty] using ht
    simp only [hne, Bool.false_eq_true, if_false, ht, false_or]
    cases hs : t.isPrefixOf? path.toList with
    | none =>
      simp only [stripPrefix, String.toList_ofList, hs, Option.map_none, Bool.false_eq_true,
        false_iff]
      rintro ⟨rest,hr,_⟩
      rw [List.isPrefixOf?_eq_some_iff_append_eq.mpr hr.symm] at hs
      cases hs
    | some rest =>
      have hr := List.isPrefixOf?_eq_some_iff_append_eq.mp hs
      simp only [stripPrefix, String.toList_ofList, hs, Option.map_some, Bool.or_eq_true]
      have hend : (isEmpty (String.ofList rest) = true ∨
          startsWith (String.ofList rest) "/" = true) ↔ (rest = [] ∨ rest.head? = some '/') := by
        cases rest with
        | nil => simp [isEmpty]
        | cons c r =>
          simp [isEmpty, startsWith]
          exact eq_comm
      rw [hend]
      constructor
      · exact fun h => ⟨rest,hr.symm,h⟩
      · rintro ⟨rest',hr',h⟩
        rwa [List.append_cancel_left (hr.trans hr')]

section Segments
variable (a b c : String)

theorem pathPrefixMatches_segments_iff (h : trimEndMatches a '/' ≠ "") :
    pathPrefixMatches a b = true ↔
      split (trimEndMatches a '/') (· == '/') <+: split b (· == '/') := by
  have hne : a.toList.rdropWhile (· == '/') ≠ [] := by
    intro hnil
    rw [trimEndMatches, hnil] at h
    exact h rfl
  rw [pathPrefixMatches_iff, split_isPrefix_iff, trimEndMatches, String.toList_ofList]
  simp only [hne, false_or]

theorem segments_trimmed (h : trimEndMatches a '/' ≠ "") (hab : pathPrefixMatches a b = true) :
    split (trimEndMatches a '/') (· == '/') <+: split (trimEndMatches b '/') (· == '/') := by
  rw [pathPrefixMatches_segments_iff a b h, split_isPrefix_iff] at hab
  obtain ⟨rest,hb,hrest⟩ := hab
  have hkept : (trimEndMatches a '/').toList.rdropWhile (· == '/') =
      (trimEndMatches a '/').toList := by
    rw [trimEndMatches, String.toList_ofList, List.rdropWhile_idempotent]
  rw [split_isPrefix_iff, trimEndMatches, String.toList_ofList, hb, rdropWhile_append]
  by_cases hnil : rest.rdropWhile (· == '/') = []
  · rw [if_pos hnil, hkept]
    exact ⟨[],by rw [List.append_nil],Or.inl rfl⟩
  · rw [if_neg hnil]
    refine ⟨_,rfl,Or.inr ?_⟩
    obtain ⟨d,ds,hds⟩ := List.exists_cons_of_ne_nil hnil
    obtain ⟨more,hmore⟩ := List.rdropWhile_prefix (· == '/') rest
    rw [hds, List.cons_append] at hmore
    rw [← hmore] at hrest
    rw [hds]
    simpa using hrest

/-- Matching goes by segments of the trimmed prefix, and is transitive. -/
theorem path_match_by_segments :
    (trimEndMatches a '/' ≠ "" → (pathPrefixMatches a b = true ↔
      split (trimEndMatches a '/') (· == '/') <+: split b (· == '/'))) ∧
    (pathPrefixMatches a b = true → pathPrefixMatches b c = true →
      pathPrefixMatches a c = true) := by
  refine ⟨pathPrefixMatches_segments_iff a b,fun hab hbc => ?_⟩
  by_cases ha : trimEndMatches a '/' = ""
  · simp [pathPrefixMatches, ha, isEmpty]
  · have hstart := segments_trimmed a b ha hab
    have hb : trimEndMatches b '/' ≠ "" := by
      intro hb
      rw [hb, split_isPrefix_iff] at hstart
      obtain ⟨rest,hrest,-⟩ := hstart
      exact ha (String.toList_eq_nil_iff.mp (List.append_eq_nil_iff.mp hrest.symm).1)
    rw [pathPrefixMatches_segments_iff b c hb] at hbc
    exact (pathPrefixMatches_segments_iff a c ha).mpr (hstart.trans hbc)

end Segments

theorem version_path_matched :
    split (trimEndMatches "/v1/" '/') (· == '/') <+: split "/v1//ok" (· == '/') ∧
      pathPrefixMatches "/v1/" "/v1//ok/" = true := by
  obtain ⟨hsegments,htrans⟩ := path_match_by_segments "/v1/" "/v1//ok" "/v1//ok/"
  exact ⟨(hsegments (by decide)).mp (by decide),htrans (by decide) (by decide)⟩

def Route.matches (r : Route) (host path : String) : Bool :=
  if !isEmpty r.host && !eqIgnoreAsciiCase host r.host then false
  else if !pathPrefixMatches r.pathPrefix path then false
  else true

structure RouteTable where
  routes : List Route
  deriving DecidableEq, Repr

def RouteTable.new (routes : List Route) : RouteTable :=
  ⟨sortDescending Route.specificity routes⟩

def RouteTable.select (t : RouteTable) (host path : String) : Option Route :=
  t.routes.find? (fun r => r.matches host path)

theorem select_mem (routes : List Route) (host path : String) (r : Route)
    (h : (RouteTable.new routes).select host path = some r) : r ∈ routes :=
  (sort_perm Route.specificity routes).mem_iff.mp (List.mem_of_find?_eq_some h)

theorem select_matches (t : RouteTable) (host path : String) (r : Route)
    (h : t.select host path = some r) : r.matches host path = true :=
  List.find?_some (p := fun r : Route => r.matches host path) h

theorem matches_iff (r : Route) (host path : String) :
    r.matches host path = true ↔
      (isEmpty r.host = true ∨ eqIgnoreAsciiCase host r.host = true) ∧
        pathPrefixMatches r.pathPrefix path = true := by
  unfold Route.matches
  cases isEmpty r.host <;> cases eqIgnoreAsciiCase host r.host <;>
    cases pathPrefixMatches r.pathPrefix path <;> simp

end ArchetypeProxy.Routes

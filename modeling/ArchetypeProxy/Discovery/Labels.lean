import ArchetypeProxy.Library.Items
import ArchetypeProxy.Library.Upserts
import ArchetypeProxy.Routes

/-!
# Routes from container labels

An enabled container declares routes by labels `archetype.route.<name>.<field>`.
The labels are grouped by name, cut at the last dot, with the field in lower
case; a group with an upstream is a route. A container without such a route
gets an implicit one when it has a top-level upstream.
-/

set_option autoImplicit false

namespace ArchetypeProxy.Discovery.Labels
open ArchetypeProxy.Items ArchetypeProxy.Routes ArchetypeProxy.Text ArchetypeProxy.Upserts

abbrev LabelMap := Std.ExtTreeMap String String

abbrev Groups := Std.ExtTreeMap String (Std.ExtTreeMap String String)

def enableKey : String := "archetype.enable"
def globalStrictKey : String := "archetype.attestation.strict"
def implicitUpstreamKey : String := "archetype.upstream"
def routeStem : String := "archetype.route."

def short (id : String) : String := String.ofList (id.toList.take 12)

def groupStep (acc : Groups × List String) (label : String × String) : Groups × List String :=
  match stripPrefix label.1 routeStem with
  | none => acc
  | some rest =>
    match rsplitOnce rest '.' with
    | none => (acc.1,acc.2++["ignoring malformed route label `"++label.1++"`"])
    | some (name,field) => (putIn acc.1 name (toAsciiLowercase field) label.2,acc.2)

section Container
variable (id : String) (strict : Option Bool)

def explicitName (name : String) : String := "docker/"++short id++"/"++name

def implicitName : String := "docker/"++short id

def groupRoute (name : String) (fields : Std.ExtTreeMap String String) (upstream : String) :
    Route where
  name := explicitName id name
  host := fields["host"]?.getD ""
  pathPrefix := fields["pathprefix"]?.getD ""
  upstream := upstream
  strictAttestation := (fields["strict"]?.bind parseBoolToken).or strict
  source := .discovered

def routeStep (acc : List Route × List String)
    (group : String × Std.ExtTreeMap String String) : List Route × List String :=
  match group.2["upstream"]? with
  | none => (acc.1,acc.2++["route `"++group.1++"` missing `upstream`; skipped"])
  | some upstream => (acc.1++[groupRoute id strict group.1 group.2 upstream],acc.2)

def implicitRoute (labels : LabelMap) (upstream : String) : Route where
  name := implicitName id
  host := labels["archetype.host"]?.getD ""
  pathPrefix := labels["archetype.pathprefix"]?.getD ""
  upstream := upstream
  strictAttestation := strict
  source := .discovered

end Container

def Enabled (labels : LabelMap) : Prop := labels[enableKey]?.bind parseBoolToken = some true

instance (labels : LabelMap) : Decidable (Enabled labels) :=
  inferInstanceAs (Decidable (_ = _))

def globalStrict (labels : LabelMap) : Option Bool := labels[globalStrictKey]?.bind parseBoolToken

def grouped (labels : LabelMap) : Groups × List String := labels.toList.foldl groupStep (∅,[])

def explicitRoutes (id : String) (labels : LabelMap) : List Route × List String :=
  (grouped labels).1.toList.foldl (routeStep id (globalStrict labels)) ([],(grouped labels).2)

def routesFromLabels (id : String) (labels : LabelMap) : List Route × List String :=
  if ¬ Enabled labels then ([],[])
  else
    let (routes,warnings) := explicitRoutes id labels
    if routes = [] then
      match labels[implicitUpstreamKey]? with
      | some upstream => ([implicitRoute id (globalStrict labels) labels upstream],warnings)
      | none => ([],warnings++["container "++short id++" enabled but declares no routes"])
    else (routes,warnings)

/-! The meaning of the labels: name and field of a key, and the value of a
field as the last label for it. -/

def labelOf (key : String) : Option (String × String) :=
  (stripPrefix key routeStem).bind (fun rest => rsplitOnce rest '.')

def routeLabels (labels : LabelMap) : List ((String × String) × String) :=
  labels.toList.filterMap (fun l =>
    (labelOf l.1).map (fun nf => ((nf.1,toAsciiLowercase nf.2),l.2)))

/-- The value of the last label, in the order of the keys, for this field of
this name in any case. -/
def labelValue (labels : LabelMap) (name field : String) : Option String :=
  lastOf (routeLabels labels) (name,field)

theorem group_eq (ls : List (String × String)) (acc : Groups × List String) :
    (ls.foldl groupStep acc).1 = groupAll acc.1 (ls.filterMap (fun l =>
      (labelOf l.1).map (fun nf => ((nf.1,toAsciiLowercase nf.2),l.2)))) := by
  induction ls generalizing acc with
  | nil => rfl
  | cons l ls ih =>
    rw [List.foldl_cons, ih]
    cases hstem : stripPrefix l.1 routeStem with
    | none => simp [groupStep, labelOf, hstem]
    | some rest =>
      cases hcut : rsplitOnce rest '.' with
      | none => simp [groupStep, labelOf, hstem, hcut]
      | some nf => simp [groupStep, labelOf, hstem, hcut, groupAll]

theorem lookupIn_grouped (labels : LabelMap) (name field : String) :
    lookupIn (grouped labels).1 name field = labelValue labels name field := by
  rw [grouped, group_eq, lookupIn_groupAll]
  simp [lookupIn, labelValue, routeLabels]

theorem routes_eq (id : String) (strict : Option Bool)
    (groups : List (String × Std.ExtTreeMap String String)) (acc : List Route × List String) :
    (groups.foldl (routeStep id strict) acc).1 = acc.1++groups.filterMap (fun g =>
      g.2["upstream"]?.map (groupRoute id strict g.1 g.2)) := by
  induction groups generalizing acc with
  | nil => simp
  | cons g groups ih =>
    rw [List.foldl_cons, ih]
    cases hup : g.2["upstream"]? with
    | none => simp [routeStep, hup]
    | some upstream => simp [routeStep, hup]

section Enabled
variable (id : String) (labels : LabelMap)

theorem explicitRoutes_eq :
    (explicitRoutes id labels).1 = (grouped labels).1.toList.filterMap (fun g =>
      g.2["upstream"]?.map (groupRoute id (globalStrict labels) g.1 g.2)) := by
  rw [explicitRoutes, routes_eq, List.nil_append]

theorem routesFromLabels_enabled (h : Enabled labels) :
    (routesFromLabels id labels).1 =
      if (explicitRoutes id labels).1 = [] then
        (labels[implicitUpstreamKey]?.map
          (implicitRoute id (globalStrict labels) labels)).toList
      else (explicitRoutes id labels).1 := by
  rw [routesFromLabels, if_neg (not_not_intro h)]
  by_cases hnil : (explicitRoutes id labels).1 = []
  · simp only [hnil, if_true]
    cases labels[implicitUpstreamKey]? <;> rfl
  · simp only [hnil, if_false]

theorem routesFromLabels_disabled (h : ¬ Enabled labels) :
    routesFromLabels id labels = ([],[]) := by
  rw [routesFromLabels, if_pos h]

structure RouteOf (name : String) (r : Route) : Prop where
  routeName : r.name = explicitName id name
  upstream : labelValue labels name "upstream" = some r.upstream
  host : r.host = (labelValue labels name "host").getD ""
  pathPrefix : r.pathPrefix = (labelValue labels name "pathprefix").getD ""
  strict : r.strictAttestation =
    ((labelValue labels name "strict").bind parseBoolToken).or (globalStrict labels)
  source : r.source = .discovered

theorem routeOf_unique (name : String) (r r' : Route) (h : RouteOf id labels name r)
    (h' : RouteOf id labels name r') : r = r' := by
  have hup := Option.some.inj (h.upstream.symm.trans h'.upstream)
  cases r
  cases r'
  rw [Route.mk.injEq]
  exact ⟨h.routeName.trans h'.routeName.symm,h.host.trans h'.host.symm,
    h.pathPrefix.trans h'.pathPrefix.symm,hup,h.strict.trans h'.strict.symm,
    h.source.trans h'.source.symm⟩

def HasLabel (name field : String) : Prop :=
  ∃ key f, key ∈ labels ∧ labelOf key = some (name,f) ∧ eqIgnoreAsciiCase f field = true

theorem labelValue_isSome_iff (name field : String) (h : toAsciiLowercase field = field) :
    (labelValue labels name field).isSome = true ↔ HasLabel labels name field := by
  rw [labelValue, Option.isSome_iff_ne_none, ne_eq, lastOf_eq_none_iff]
  simp only [not_forall, not_not, routeLabels, List.mem_filterMap, Option.map_eq_some_iff]
  constructor
  · rintro ⟨_,⟨⟨key,v⟩,hmem,⟨n,f⟩,hlabel,rfl⟩,heq⟩
    obtain ⟨rfl,rfl⟩ := Prod.mk.inj heq
    rw [Std.ExtTreeMap.mem_toList_iff_getElem?_eq_some] at hmem
    refine ⟨key,f,Std.ExtTreeMap.mem_iff_isSome_getElem?.mpr (by simp [hmem]),hlabel,?_⟩
    rw [eqIgnoreAsciiCase, h, beq_self_eq_true]
  · rintro ⟨key,f,hkey,hlabel,heq⟩
    rw [Std.ExtTreeMap.mem_iff_isSome_getElem?, Option.isSome_iff_exists] at hkey
    obtain ⟨v,hv⟩ := hkey
    rw [eqIgnoreAsciiCase, h, beq_iff_eq] at heq
    exact ⟨_,⟨(key,v),Std.ExtTreeMap.mem_toList_iff_getElem?_eq_some.mpr hv,(name,f),hlabel,rfl⟩,
      by rw [heq]⟩

theorem labelValue_congr (labels' : LabelMap) (name field : String)
    (h : ∀ key f, labelOf key = some (name,f) → labels[key]? = labels'[key]?) :
    labelValue labels name field = labelValue labels' name field := by
  have hown (m : LabelMap) : labelValue m name field =
      lastOf ((m.toList.filter (fun l => (labelOf l.1).any (fun nf => nf.1 = name))).filterMap
        (fun l => (labelOf l.1).map (fun nf => ((nf.1,toAsciiLowercase nf.2),l.2))))
          (name,field) := by
    rw [labelValue, routeLabels, lastOf, lastOf, List.filterMap_filterMap,
      List.filterMap_filterMap, List.filterMap_filter]
    congr 2
    funext l
    cases labelOf l.1 with
    | none => rfl
    | some nf =>
      by_cases hname : nf.1 = name
      · simp [hname]
      · simp [hname]
  rw [hown labels, hown labels',
    toList_filter_eq (fun k => (labelOf k).any (fun nf => nf.1 = name)) labels labels']
  intro key hkey
  obtain ⟨nf,hlabel,hname⟩ := (Option.any_eq_true ..).mp hkey
  exact h key nf.2 (by rw [hlabel, ← of_decide_eq_true hname])

def routeNames : List String :=
  ((grouped labels).1.toList.filter (fun g => g.2["upstream"]?.isSome)).map Prod.fst

theorem routeNames_ascending : (routeNames labels).Pairwise (fun a b => compare a b = .lt) := by
  rw [routeNames, List.pairwise_map]
  exact Std.ExtTreeMap.ordered_keys_toList.sublist List.filter_sublist

theorem mem_routeNames_iff (name : String) :
    name ∈ routeNames labels ↔ (labelValue labels name "upstream").isSome = true := by
  rw [← lookupIn_grouped, lookupIn, routeNames]
  simp only [List.mem_map, List.mem_filter]
  constructor
  · rintro ⟨⟨_,fields⟩,⟨hmem,hup⟩,rfl⟩
    rw [Std.ExtTreeMap.mem_toList_iff_getElem?_eq_some] at hmem
    rwa [hmem]
  · intro hup
    cases hgroup : (grouped labels).1[name]? with
    | none => simp [hgroup] at hup
    | some fields =>
      rw [hgroup] at hup
      exact ⟨(name,fields),⟨Std.ExtTreeMap.mem_toList_iff_getElem?_eq_some.mpr hgroup,hup⟩,rfl⟩

theorem group_value (name : String) (fields : Std.ExtTreeMap String String) (field : String)
    (h : (grouped labels).1[name]? = some fields) :
    fields[field]? = labelValue labels name field := by
  rw [← lookupIn_grouped, lookupIn, h, Option.bind_some]

theorem groupRoute_routeOf (name : String) (fields : Std.ExtTreeMap String String)
    (upstream : String) (h : (grouped labels).1[name]? = some fields)
    (hup : fields["upstream"]? = some upstream) :
    RouteOf id labels name (groupRoute id (globalStrict labels) name fields upstream) where
  routeName := rfl
  upstream := by rw [← group_value labels name fields _ h, hup]; rfl
  host := by rw [← group_value labels name fields _ h]; rfl
  pathPrefix := by rw [← group_value labels name fields _ h]; rfl
  strict := by rw [← group_value labels name fields _ h]; rfl
  source := rfl

theorem explicitRoutes_routeOf :
    List.Forall₂ (RouteOf id labels) (routeNames labels) (explicitRoutes id labels).1 := by
  have hmem : ∀ g ∈ (grouped labels).1.toList, (grouped labels).1[g.1]? = some g.2 :=
    fun g hg => Std.ExtTreeMap.mem_toList_iff_getElem?_eq_some.mp hg
  rw [routeNames, explicitRoutes_eq]
  revert hmem
  induction (grouped labels).1.toList with
  | nil => exact fun _ => .nil
  | cons g gs ih =>
    intro hmem
    have hrest := ih fun g' hg' => hmem g' (List.mem_cons_of_mem _ hg')
    have hg := hmem g (List.mem_cons_self ..)
    cases hup : g.2["upstream"]? with
    | none =>
      rw [List.filter_cons_of_neg (by simp [hup]), List.filterMap_cons_none (by simp [hup])]
      exact hrest
    | some upstream =>
      rw [List.filter_cons_of_pos (by simp [hup]), List.map_cons,
        List.filterMap_cons_some (by rw [hup]; rfl)]
      exact .cons (groupRoute_routeOf id labels g.1 g.2 upstream hg hup) hrest

theorem explicitName_injective : Function.Injective (explicitName id) := by
  intro a b h
  have hlists := congrArg String.toList h
  simp only [explicitName, String.toList_append] at hlists
  exact String.toList_injective (List.append_cancel_left hlists)

theorem implicitName_ne (name : String) : implicitName id ≠ explicitName id name := by
  intro h
  have hlength := congrArg String.length h
  have hslash : "/".length = 1 := rfl
  simp only [implicitName, explicitName, String.length_append] at hlength
  omega

theorem mem_routes_iff (h : Enabled labels) (name : String) (r : Route)
    (hname : r.name = explicitName id name) :
    r ∈ (routesFromLabels id labels).1 ↔ RouteOf id labels name r := by
  have hroutes := explicitRoutes_routeOf id labels
  have hexplicit : r ∈ (routesFromLabels id labels).1 ↔ r ∈ (explicitRoutes id labels).1 := by
    rw [routesFromLabels_enabled id labels h]
    by_cases hnil : (explicitRoutes id labels).1 = []
    · rw [if_pos hnil, hnil]
      simp only [Option.mem_toList, Option.map_eq_some_iff, List.not_mem_nil, iff_false]
      rintro ⟨upstream,-,rfl⟩
      exact implicitName_ne id name hname
    · rw [if_neg hnil]
  rw [hexplicit]
  constructor
  · intro hr
    obtain ⟨name',-,hr'⟩ := forall₂_exists_left _ _ _ hroutes r hr
    rwa [explicitName_injective id (hname.symm.trans hr'.routeName)]
  · intro hr
    have hmem : name ∈ routeNames labels := by
      rw [mem_routeNames_iff, hr.upstream]
      rfl
    obtain ⟨r',hr',hroute⟩ := forall₂_exists_right _ _ _ hroutes name hmem
    rwa [routeOf_unique id labels name r r' hr hroute]

def isExplicit (r : Route) : Bool := startsWith r.name (explicitName id "")

theorem isExplicit_of_name (r : Route) (name : String) (h : r.name = explicitName id name) :
    isExplicit id r = true := by
  simp [isExplicit, startsWith, h, explicitName]

theorem isExplicit_implicit (strict : Option Bool) (upstream : String) :
    isExplicit id (implicitRoute id strict labels upstream) = false := by
  rw [← Bool.not_eq_true, isExplicit, startsWith, List.isPrefixOf_iff_prefix]
  intro h
  have hlength := h.length_le
  have hslash : "/".length = 1 := rfl
  simp only [implicitRoute, implicitName, explicitName, String.length_toList,
    String.length_append] at hlength
  omega

theorem explicit_of_returned (h : Enabled labels) :
    (routesFromLabels id labels).1.filter (isExplicit id) = (explicitRoutes id labels).1 := by
  rw [routesFromLabels_enabled id labels h]
  by_cases hnil : (explicitRoutes id labels).1 = []
  · rw [if_pos hnil, hnil]
    cases labels[implicitUpstreamKey]? with
    | none => rfl
    | some upstream => simp [isExplicit_implicit]
  · rw [if_neg hnil, List.filter_eq_self]
    intro r hr
    obtain ⟨name,-,hroute⟩ := forall₂_exists_left _ _ _ (explicitRoutes_routeOf id labels) r hr
    exact isExplicit_of_name id r name hroute.routeName

theorem returned_names_nodup (h : Enabled labels) :
    ((routesFromLabels id labels).1.map (fun r => r.name)).Nodup := by
  have hnames : List.Forall₂ Eq ((routeNames labels).map (explicitName id))
      ((explicitRoutes id labels).1.map (fun r => r.name)) := by
    rw [List.forall₂_map_left_iff, List.forall₂_map_right_iff]
    exact (explicitRoutes_routeOf id labels).imp fun _ _ hroute => hroute.routeName.symm
  rw [List.forall₂_eq_eq_eq] at hnames
  rw [routesFromLabels_enabled id labels h]
  by_cases hnil : (explicitRoutes id labels).1 = []
  · rw [if_pos hnil]
    cases labels[implicitUpstreamKey]? <;> simp
  · rw [if_neg hnil, ← hnames, List.nodup_map_iff (explicitName_injective id)]
    exact nodup_of_ascending (fun name => name) _ (routeNames_ascending labels)

end Enabled

/-- The maps differ in labels of one name at most. -/
def DifferIn (other : String) (labels labels' : LabelMap) : Prop :=
  ∀ key, (∀ f, labelOf key ≠ some (other,f)) → labels[key]? = labels'[key]?

theorem differIn_toplevel (other key : String) (labels labels' : LabelMap)
    (h : DifferIn other labels labels') (hkey : labelOf key = none) :
    labels[key]? = labels'[key]? := by
  refine h key fun f => ?_
  rw [hkey]
  exact nofun

theorem routeOf_transfer (id name : String) (labels labels' : LabelMap) (r : Route)
    (hvalue : ∀ field, labelValue labels name field = labelValue labels' name field)
    (hstrict : globalStrict labels = globalStrict labels') (h : RouteOf id labels name r) :
    RouteOf id labels' name r := by
  obtain ⟨hname,hup,hhost,hpath,hs,hsource⟩ := h
  rw [hvalue] at hup hhost hpath hs
  rw [hstrict] at hs
  exact ⟨hname,hup,hhost,hpath,hs,hsource⟩

theorem routeOf_congr (id other name : String) (labels labels' : LabelMap) (r : Route)
    (h : DifferIn other labels labels') (hne : name ≠ other) :
    RouteOf id labels name r ↔ RouteOf id labels' name r := by
  have hvalue : ∀ field, labelValue labels name field = labelValue labels' name field := by
    intro field
    refine labelValue_congr labels labels' name field fun key f hlabel => h key fun f' hf' => ?_
    rw [hlabel] at hf'
    exact hne (Prod.mk.inj (Option.some.inj hf')).1
  have hstrict : globalStrict labels = globalStrict labels' := by
    rw [globalStrict, globalStrict,
      differIn_toplevel other globalStrictKey labels labels' h (by decide)]
  constructor
  · exact routeOf_transfer id name labels labels' r hvalue hstrict
  · exact routeOf_transfer id name labels' labels r (fun field => (hvalue field).symm) hstrict.symm

theorem enabled_congr (other : String) (labels labels' : LabelMap)
    (h : DifferIn other labels labels') (henabled : Enabled labels) : Enabled labels' := by
  rw [Enabled, ← differIn_toplevel other enableKey labels labels' h (by decide)]
  exact henabled

/-- The explicit routes are one for each name with an upstream, in ascending
order and with the values of the labels of that name. All names differ, and
labels of another name change nothing for a route. -/
theorem routes_exact_and_isolated (id : String) (labels : LabelMap) (henabled : Enabled labels) :
    (∃ names : List String, names.Pairwise (fun a b => compare a b = .lt) ∧
      (∀ name, name ∈ names ↔ HasLabel labels name "upstream") ∧
      List.Forall₂ (RouteOf id labels) names
        ((routesFromLabels id labels).1.filter (isExplicit id))) ∧
    ((routesFromLabels id labels).1.map (fun r => r.name)).Nodup ∧
    ∀ (other : String) (labels' : LabelMap), DifferIn other labels labels' →
      ∀ name, name ≠ other → ∀ r : Route, r.name = explicitName id name →
        (r ∈ (routesFromLabels id labels).1 ↔ r ∈ (routesFromLabels id labels').1) := by
  refine ⟨⟨routeNames labels,routeNames_ascending labels,fun name => ?_,?_⟩,
    returned_names_nodup id labels henabled,?_⟩
  · rw [mem_routeNames_iff]
    exact labelValue_isSome_iff labels name "upstream" (by decide)
  · rw [explicit_of_returned id labels henabled]
    exact explicitRoutes_routeOf id labels
  · intro other labels' hdiffer name hne r hname
    have henabled' := enabled_congr other labels labels' hdiffer henabled
    rw [mem_routes_iff id labels henabled name r hname,
      mem_routes_iff id labels' henabled' name r hname]
    exact routeOf_congr id other name labels labels' r hdiffer hne

def apiLabels : LabelMap :=
  insertAll ∅ [("archetype.enable","true"),("archetype.route.api.Upstream","http://api:8080")]

def apiRoute : Route := ⟨"docker/c1/api","","","http://api:8080",none,.discovered⟩

theorem api_route_isolated :
    apiRoute ∈ (routesFromLabels "c1" apiLabels).1 ↔ apiRoute ∈
      (routesFromLabels "c1" (apiLabels.insert "archetype.route.b.upstream" "http://b:2")).1 := by
  refine (routes_exact_and_isolated "c1" apiLabels (by decide +kernel)).2.2 "b" _ ?_ "api"
    (by decide) apiRoute (by decide)
  intro key hkey
  rw [getElem?_insert_key, if_neg]
  rintro rfl
  exact hkey "upstream" (by decide)

/-! The implicit route. -/

section Implicit
variable (id : String) (labels : LabelMap)

def ReturnsImplicit : Prop :=
  ∃ upstream, labels[implicitUpstreamKey]? = some upstream ∧
    implicitRoute id (globalStrict labels) labels upstream ∈ (routesFromLabels id labels).1

theorem explicitRoutes_eq_nil_iff :
    (explicitRoutes id labels).1 = [] ↔ ∀ name, ¬ HasLabel labels name "upstream" := by
  have hlength := (explicitRoutes_routeOf id labels).length_eq
  rw [← List.length_eq_zero_iff, ← hlength, List.length_eq_zero_iff, List.eq_nil_iff_forall_not_mem]
  simp only [mem_routeNames_iff, labelValue_isSome_iff labels _ "upstream" (by decide)]

theorem returnsImplicit_iff :
    ReturnsImplicit id labels ↔
      Enabled labels ∧ implicitUpstreamKey ∈ labels ∧
        ∀ name, ¬ HasLabel labels name "upstream" := by
  by_cases henabled : Enabled labels
  · rw [← explicitRoutes_eq_nil_iff id labels, ReturnsImplicit,
      routesFromLabels_enabled id labels henabled, Std.ExtTreeMap.mem_iff_isSome_getElem?]
    by_cases hnil : (explicitRoutes id labels).1 = []
    · simp only [hnil, if_true, henabled, true_and, and_true]
      cases labels[implicitUpstreamKey]? <;> simp
    · simp only [hnil, if_false, and_false, iff_false, not_exists, not_and]
      intro upstream _ hmem
      obtain ⟨name,-,hroute⟩ :=
        forall₂_exists_left _ _ _ (explicitRoutes_routeOf id labels) _ hmem
      exact implicitName_ne id name hroute.routeName
  · simp [ReturnsImplicit, routesFromLabels_disabled id labels henabled, henabled]

theorem startsWith_of_labelOf (key : String) (nf : String × String) (h : labelOf key = some nf) :
    startsWith key routeStem = true := by
  obtain ⟨rest,hrest,-⟩ := Option.bind_eq_some_iff.mp h
  obtain ⟨cs,hcs,-⟩ := Option.map_eq_some_iff.mp hrest
  rw [startsWith, List.isPrefixOf_iff_prefix]
  exact ⟨cs,List.isPrefixOf?_eq_some_iff_append_eq.mp hcs⟩

/-- The implicit route is returned exactly for an enabled container with a
top-level upstream and no route label, unless there are route labels and none
of them is an upstream. -/
theorem implicit_route_fallback_iff :
    (ReturnsImplicit id labels ↔
      Enabled labels ∧ implicitUpstreamKey ∈ labels ∧
        ∀ key ∈ labels, startsWith key routeStem = false) ↔
    ¬ (Enabled labels ∧ implicitUpstreamKey ∈ labels ∧
      (∃ key ∈ labels, startsWith key routeStem = true) ∧
      ∀ name, ¬ HasLabel labels name "upstream") := by
  have hnone : (∀ key ∈ labels, startsWith key routeStem = false) →
      ∀ name, ¬ HasLabel labels name "upstream" := by
    rintro h name ⟨key,f,hkey,hlabel,-⟩
    have hstarts := startsWith_of_labelOf key (name,f) hlabel
    rw [h key hkey] at hstarts
    cases hstarts
  have hsome : (∃ key ∈ labels, startsWith key routeStem = true) ↔
      ¬ ∀ key ∈ labels, startsWith key routeStem = false := by
    simp
  rw [returnsImplicit_iff, hsome]
  tauto

end Implicit

def hostOnly : LabelMap :=
  insertAll ∅ [("archetype.enable","true"),("archetype.upstream","http://solo:9000"),
    ("archetype.route.api.host","api.internal")]

/-- A route label without an upstream: the container gets a catch-all route. -/
theorem fallback_beside_route_label :
    ¬ (ReturnsImplicit "c1" hostOnly ↔
      Enabled hostOnly ∧ implicitUpstreamKey ∈ hostOnly ∧
        ∀ key ∈ hostOnly, startsWith key routeStem = false) := by
  intro h
  have himplicit : ReturnsImplicit "c1" hostOnly :=
    ⟨"http://solo:9000",by decide +kernel,by decide +kernel⟩
  have hkey := (h.mp himplicit).2.2 "archetype.route.api.host" (by decide +kernel)
  cases hkey

end ArchetypeProxy.Discovery.Labels

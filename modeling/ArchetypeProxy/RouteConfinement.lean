import ArchetypeProxy.Routes
import ArchetypeProxy.UpstreamHost

/-!
# Route confinement

The route is selected on the request path as received; the upstream is asked
for the path the URL parser makes of it. The two agree for every table exactly
when the path needs no normalisation and the upstream has a base path that it
is appended to.
-/

set_option autoImplicit false

namespace ArchetypeProxy.RouteConfinement
open ArchetypeProxy.Text ArchetypeProxy.UrlPath ArchetypeProxy.UrlStandard
open ArchetypeProxy.Routes ArchetypeProxy.Upstream ArchetypeProxy.UpstreamHost

structure RequestPath where
  text : String
  absolute : text.toList.head? = some '/'
  plain : text.toList.all pathChar = true

variable {E : Type} (rules : Rules E)

def normalised (p : RequestPath) : String :=
  String.ofList (normalise rules.toEscapeSet p.text.toList)

def basePath (upstream : String) : Option (List Char) :=
  (rules.parse (trimmed upstream ++ ['/'])).bind (fun url =>
    if url.path.getLast? = some '/' then some url.path.dropLast else none)

/-- The requested URL lies under the route: the normalised path selects the
route again, and the base path is followed by a path the route matches. -/
structure LiesUnder (routes : List Route) (host : String) (p : RequestPath) (r : Route)
    (url : Url E) : Prop where
  reselected : (RouteTable.new routes).select host (normalised rules p) = some r
  below : ∃ base rest, basePath rules r.upstream = some base ∧ url.path = base ++ '/'::rest ∧
    pathPrefixMatches r.pathPrefix (String.ofList ('/'::rest)) = true

/-- Whatever the table, the host and the query: a route of this upstream that
is selected for the path confines the URL that is asked for. -/
def Confined (upstream : String) (p : RequestPath) : Prop :=
  ∀ routes host query r url, (RouteTable.new routes).select host p.text = some r →
    r.upstream = upstream → rules.parse (proxyUrl upstream p.text query).toList = some url →
    LiesUnder rules routes host p r url

def appends (upstream : String) : Bool :=
  match afterScheme (lead (trimmed upstream)) with
  | some rest => (remainder rest).all inPath
  | none => false

def allSlashes (p : RequestPath) : Bool := p.text.toList.all (· == '/')

theorem queryText_ok (query : Option String) : QueryText (queryText query) := by
  cases query with
  | none => exact Or.inl rfl
  | some q => exact Or.inr rfl

theorem request_tail (p : RequestPath) :
    ∃ t, p.text.toList = '/'::t ∧ ∀ c ∈ t, pathChar c = true := by
  obtain ⟨t,ht⟩ := List.head?_eq_some_iff.mp p.absolute
  exact ⟨t,ht,fun c hc => List.all_eq_true.mp p.plain c (by simp [ht, hc])⟩

theorem basePath_some (upstream : String) (base : List Char)
    (h : basePath rules upstream = some base) :
    ∃ url, rules.parse (trimmed upstream ++ ['/']) = some url ∧ url.path = base ++ ['/'] := by
  obtain ⟨url,hurl,hlast⟩ := Option.bind_eq_some_iff.mp h
  refine ⟨url,hurl,?_⟩
  split at hlast
  · rename_i hend
    obtain ⟨init,hinit⟩ := List.getLast?_eq_some_iff.mp hend
    rw [hinit, List.dropLast_concat, Option.some.injEq] at hlast
    rw [hinit, hlast]
  · cases hlast

theorem basePath_hosted (upstream : String) (base : List Char)
    (h : basePath rules upstream = some base) :
    ∃ rest, afterScheme (lead (trimmed upstream)) = some rest ∧ hostless rest = false := by
  obtain ⟨url,hurl,_⟩ := basePath_some rules upstream base h
  cases ha : afterScheme (lead (trimmed upstream)) with
  | none =>
    rw [parse_no_scheme rules _ [] ha] at hurl
    cases hurl
  | some rest =>
    refine ⟨rest,rfl,?_⟩
    by_contra hh
    rw [parse_hostless_root rules _ rest ha (by simpa using hh)] at hurl
    cases hurl

theorem requested_path (upstream : String) (p : RequestPath) (query : Option String)
    (base : List Char) (url : Url E) (hbase : basePath rules upstream = some base)
    (hurl : rules.parse (proxyUrl upstream p.text query).toList = some url) :
    if appends upstream then ∃ d t, p.text.toList = '/'::t ∧
      base = pathOf (baseSegments rules.toEscapeSet d) ∧
      url.path = normalise rules.toEscapeSet (d ++ '/'::t)
    else url.path = base ++ ['/'] := by
  obtain ⟨rest,ha,hh⟩ := basePath_hosted rules upstream base hbase
  obtain ⟨t,ht,hplain⟩ := request_tail p
  obtain ⟨url',hurl',hpath'⟩ := basePath_some rules upstream base hbase
  rw [proxyUrl_toList, ht, List.cons_append,
    parse_hosted rules _ t _ rest hplain (queryText_ok query) ha hh] at hurl
  rw [show ['/'] = '/'::([] ++ []) from rfl,
    parse_hosted rules _ [] [] rest (by simp) (Or.inl rfl) ha hh] at hurl'
  obtain ⟨e,_,rfl⟩ := Option.map_eq_some_iff.mp hurl
  obtain ⟨e',_,rfl⟩ := Option.map_eq_some_iff.mp hurl'
  simp only [appends, ha]
  split
  · rename_i hopen
    rw [if_pos hopen, normalise_append_clean _ _ [] (clean_slashes _ _ (by simp))] at hpath'
    exact ⟨remainder rest,t,ht,(List.append_cancel_right hpath').symm,rfl⟩
  · rename_i hopen
    rw [if_neg hopen] at hpath'
    exact hpath'

theorem matches_slashes (pathPrefix path : String) (hs : path.toList.all (· == '/') = true)
    (h : pathPrefixMatches pathPrefix path = true) :
    pathPrefix.toList.rdropWhile (· == '/') = [] := by
  rcases (pathPrefixMatches_iff pathPrefix path).mp h with h | ⟨rest,hr,_⟩
  · exact h
  · by_contra hne
    have hlast := List.rdropWhile_last_not (· == '/') pathPrefix.toList hne
    apply hlast
    have hmem : (pathPrefix.toList.rdropWhile (· == '/')).getLast hne ∈ path.toList := by
      rw [hr]
      exact List.mem_append_left _ (List.getLast_mem hne)
    exact List.all_eq_true.mp hs _ hmem

theorem clean_of_matches (p : RequestPath) (hs : allSlashes p = false)
    (h : pathPrefixMatches p.text (normalised rules p) = true) :
    Clean rules.toEscapeSet p.text.toList := by
  have hne : p.text.toList.rdropWhile (· == '/') ≠ [] := by
    intro hn
    rw [allSlashes, List.all_eq_true.mpr (List.rdropWhile_eq_nil_iff.mp hn)] at hs
    cases hs
  rcases (pathPrefixMatches_iff p.text (normalised rules p)).mp h with hn | ⟨rest,hr,hrest⟩
  · exact absurd hn hne
  · rw [normalised, String.toList_ofList] at hr
    have hclean := clean_of_append rules.toEscapeSet _ rest hne hrest
      (hr ▸ clean_normalise rules.toEscapeSet p.text.toList)
    rw [← List.rdropWhile_append_rtakeWhile (p := (· == '/')) (l := p.text.toList)]
    exact clean_append_slashes rules.toEscapeSet _ _ hne hclean
      fun c hc => by simpa using List.mem_rtakeWhile_imp hc

def exactRoute (upstream : String) (p : RequestPath) : Route := ⟨"","",p.text,upstream,none,.file⟩

theorem matches_self (s : String) : pathPrefixMatches s s = true := by
  rw [pathPrefixMatches_iff]
  right
  refine ⟨s.toList.rtakeWhile (· == '/'),List.rdropWhile_append_rtakeWhile.symm,?_⟩
  cases hr : s.toList.rtakeWhile (· == '/') with
  | nil => exact Or.inl rfl
  | cons c r =>
    have hc : c = '/' := by
      simpa using List.mem_rtakeWhile_imp (p := (· == '/')) (l := s.toList) (by simp [hr])
    exact Or.inr (by rw [hc]; rfl)

theorem select_exact (upstream path : String) (p : RequestPath) :
    (RouteTable.new [exactRoute upstream p]).select "" path = some (exactRoute upstream p) ↔
      pathPrefixMatches p.text path = true := by
  have hnew : RouteTable.new [exactRoute upstream p] = ⟨[exactRoute upstream p]⟩ := rfl
  rw [hnew, RouteTable.select]
  cases hm : pathPrefixMatches p.text path <;>
    simp [Route.matches, exactRoute, isEmpty, hm]

/-- A path confined in every table is confined under its own exact route. This
already forces a base path, a path in normal form and an upstream to append to. -/
theorem normal_of_confined (upstream : String) (p : RequestPath) (query : Option String)
    (url : Url E) (h : Confined rules upstream p)
    (hurl : rules.parse (proxyUrl upstream p.text query).toList = some url) :
    (basePath rules upstream).isSome = true ∧ Clean rules.toEscapeSet p.text.toList ∧
      (appends upstream = true ∨ allSlashes p = true) := by
  obtain ⟨hsel,base,rest,hbase,hpath,hmatch⟩ := h [exactRoute upstream p] "" query
    (exactRoute upstream p) url ((select_exact upstream p.text p).mpr (matches_self p.text))
    rfl hurl
  have hbase' : basePath rules upstream = some base := hbase
  refine ⟨by rw [hbase']; rfl,?_,?_⟩
  · cases hs : allSlashes p with
    | true => exact clean_slashes _ _ fun c hc => by simpa using List.all_eq_true.mp hs c hc
    | false => exact clean_of_matches rules p hs ((select_exact upstream _ p).mp hsel)
  · by_contra hn
    simp only [not_or, Bool.not_eq_true] at hn
    have hreq := requested_path rules upstream p query base url hbase' hurl
    rw [if_neg (by simp [hn.1]), hpath] at hreq
    have hrest : rest = [] := by simpa using hreq
    rw [hrest] at hmatch
    have hempty := matches_slashes p.text (String.ofList ['/']) (by simp) hmatch
    rw [allSlashes, List.all_eq_true.mpr (List.rdropWhile_eq_nil_iff.mp hempty)] at hn
    exact absurd hn.2 (by simp)

theorem confined_of_normal (upstream : String) (p : RequestPath) (base : List Char)
    (hbase : basePath rules upstream = some base)
    (hclean : Clean rules.toEscapeSet p.text.toList)
    (hend : appends upstream = true ∨ allSlashes p = true) : Confined rules upstream p := by
  intro routes host query r url hsel hup hurl
  subst hup
  have hmatch := ((matches_iff r host p.text).mp (select_matches _ host p.text r hsel)).2
  obtain ⟨t,ht,_⟩ := request_tail p
  have hnorm : normalised rules p = p.text := by
    rw [normalised, ht, normalise_of_clean _ t (ht ▸ hclean), ← ht, String.ofList_toList]
  have hreq := requested_path rules r.upstream p query base url hbase hurl
  refine ⟨by rw [hnorm]; exact hsel,?_⟩
  cases ha : appends r.upstream with
  | true =>
    rw [ha, if_pos rfl] at hreq
    obtain ⟨d,t',ht',hb,hp⟩ := hreq
    refine ⟨base,t',hbase,?_,?_⟩
    · rw [hp, normalise_append_clean _ d t' (ht' ▸ hclean), hb]
    · rw [← ht', String.ofList_toList]
      exact hmatch
  | false =>
    rw [ha, if_neg (by simp)] at hreq
    have hs : allSlashes p = true := by simpa [ha] using hend
    refine ⟨base,[],hbase,hreq,?_⟩
    rw [pathPrefixMatches_iff]
    exact Or.inl (matches_slashes r.pathPrefix p.text hs hmatch)

/-- Confinement for every table, exactly: no URL is asked for, or the upstream
has a base path, the path is in normal form and it is appended to the base, a
bare path of slashes apart. -/
theorem confined_iff (upstream : String) (p : RequestPath) :
    Confined rules upstream p ↔
      (∀ query, rules.parse (proxyUrl upstream p.text query).toList = none) ∨
      ((basePath rules upstream).isSome = true ∧ Clean rules.toEscapeSet p.text.toList ∧
        (appends upstream = true ∨ allSlashes p = true)) := by
  constructor
  · intro h
    by_cases hnone : ∀ query, rules.parse (proxyUrl upstream p.text query).toList = none
    · exact Or.inl hnone
    · obtain ⟨query,hq⟩ := not_forall.mp hnone
      obtain ⟨url,hurl⟩ := Option.ne_none_iff_exists'.mp hq
      exact Or.inr (normal_of_confined rules upstream p query url h hurl)
  · rintro (hnone | ⟨hsome,hclean,hend⟩)
    · intro routes host query r url _ _ hurl
      rw [hnone query] at hurl
      cases hurl
    · obtain ⟨base,hbase⟩ := Option.isSome_iff_exists.mp hsome
      exact confined_of_normal rules upstream p base hbase hclean hend

def climbingPath : RequestPath := ⟨"/v1/../admin",by decide,by decide⟩

def publishedRoute : Route := ⟨"api","","/v1","http://up:80",none,.file⟩

theorem climbing_path_escapes : ¬ Confined anyHost "http://up:80" climbingPath := by
  intro h
  have hsel : (RouteTable.new [publishedRoute]).select "h" climbingPath.text =
      some publishedRoute := by decide
  have hurl : anyHost.parse (proxyUrl "http://up:80" climbingPath.text none).toList =
      some ⟨"up:80".toList,"/admin".toList⟩ := by decide
  have hnone : (RouteTable.new [publishedRoute]).select "h" (normalised anyHost climbingPath) =
      none := by decide
  have hunder := (h [publishedRoute] "h" none publishedRoute _ hsel rfl hurl).reselected
  rw [hnone] at hunder
  cases hunder

end ArchetypeProxy.RouteConfinement

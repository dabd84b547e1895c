import ArchetypeProxy.Library.UriParts
import ArchetypeProxy.UpstreamHost

/-!
# The resource that a forwarded request addresses

The proxy handler and the WebSocket bridge write their URLs apart from each
other. Both come to the upstream, path and query after `http` and after `ws`.
They are cut into the authority and base path of the upstream and the path and
query of the request as long as none of these holds a delimiter of its own.
-/

set_option autoImplicit false

namespace ArchetypeProxy.UpstreamParts
open ArchetypeProxy.Text ArchetypeProxy.UriParts ArchetypeProxy.Upstream
open ArchetypeProxy.UpstreamHost

def forwarded (up : Parts) (path : String) (query : Option String) : Parts :=
  ⟨up.scheme,up.authority,up.path.rdropWhile (· == '/')++path.toList,query.map String.toList,none⟩

def webSocket (p : Parts) : Parts := {p with scheme := 'w' :: 's' :: p.scheme.drop 4}

/-- No delimiter of query or fragment in the upstream and in the path, and none
of the fragment in the query. -/
def Undelimited (rest path : String) (query : Option String) : Prop :=
  (∀ c ∈ rest.toList, inPath c = true) ∧ (∀ c ∈ path.toList, inPath c = true) ∧
    ∀ q, query = some q → ∀ c ∈ q.toList, inQuery c = true

theorem rdropWhile_authority (authority path : List Char)
    (h : ∀ c ∈ authority, inAuthority c = true) :
    (authority++path).rdropWhile (· == '/') = authority++path.rdropWhile (· == '/') := by
  rw [rdropWhile_append]
  by_cases hpath : path.rdropWhile (· == '/') = []
  · rw [if_pos hpath, hpath, List.append_nil, List.rdropWhile_eq_self_iff]
    intro hne hlast
    have hin := h _ (List.getLast_mem hne)
    rw [beq_iff_eq.mp hlast] at hin
    cases hin
  · rw [if_neg hpath]

theorem trimmed_rest_iff (rest : List Char) (up : Parts) (hup : up.WellFormed)
    (h : rest = up.authority++(up.path++(delimited '?' up.query++delimited '#' up.fragment))) :
    rest.rdropWhile (· == '/') = up.authority++up.path.rdropWhile (· == '/') ↔
      ∀ c ∈ rest, inPath c = true := by
  constructor
  · intro htrim c hc
    have hsplit : rest.rdropWhile (· == '/')++rest.rtakeWhile (· == '/') = rest :=
      List.rdropWhile_append_rtakeWhile
    rw [← hsplit, htrim, List.append_assoc] at hc
    rcases List.mem_append.mp hc with hc|hc
    · exact inPath_of_inAuthority c (hup.authority c hc)
    · rcases List.mem_append.mp hc with hc|hc
      · exact hup.path c ((List.rdropWhile_prefix _ _).subset hc)
      · have hslash : c = '/' := by simpa using List.mem_rtakeWhile_imp hc
        rw [hslash]
        decide
  · intro hin
    have hquery : delimited '?' up.query = [] := by
      refine delimited_eq_nil '?' up.query fun hc => absurd (hin '?' ?_) (by decide)
      rw [h]
      simp [hc]
    have hfragment : delimited '#' up.fragment = [] := by
      refine delimited_eq_nil '#' up.fragment fun hc => absurd (hin '#' ?_) (by decide)
      rw [h]
      simp [hc]
    rw [h, hquery, hfragment, List.append_nil, List.append_nil]
    exact rdropWhile_authority up.authority up.path hup.authority

theorem queryText_eq_delimited (query : Option String) :
    queryText query = delimited '?' (query.map String.toList) := by
  cases query <;> rfl

theorem forwarded_text (up : Parts) (path : String) (query : Option String) :
    (forwarded up path query).text =
      up.scheme++ ':' :: '/' :: '/' :: (up.authority++up.path.rdropWhile (· == '/')++
        (path.toList++queryText query)) := by
  rw [queryText_eq_delimited]
  simp [forwarded, Parts.text, delimited]

theorem forwarded_wellFormed_iff (up : Parts) (hup : up.WellFormed) (path : String)
    (query : Option String) (hpath : path.toList.head? = some '/') :
    (forwarded up path query).WellFormed ↔ (∀ c ∈ path.toList, inPath c = true) ∧
      ∀ q, query = some q → ∀ c ∈ q.toList, inQuery c = true := by
  constructor
  · intro h
    refine ⟨fun c hc => h.path c (List.mem_append_right _ hc),fun q hq => h.query q.toList ?_⟩
    simp [forwarded, hq]
  · rintro ⟨hin,hquery⟩
    refine ⟨hup.scheme,hup.authority,?_,?_,?_⟩
    · intro c hc
      rcases head?_append_or _ _ c hc with hc|⟨-,hc⟩
      · obtain ⟨slashes,hslashes⟩ := List.rdropWhile_prefix (· == '/') up.path
        refine hup.slash c ?_
        rw [← hslashes, List.head?_append, hc, Option.some_or]
      · rw [hpath] at hc
        exact (Option.some.inj hc).symm
    · intro c hc
      rcases List.mem_append.mp hc with hc|hc
      · exact hup.path c ((List.rdropWhile_prefix _ _).subset hc)
      · exact hin c hc
    · intro q hq
      obtain ⟨t,ht,rfl⟩ := Option.map_eq_some_iff.mp hq
      exact hquery t ht

theorem splitParts_forwarded_iff (scheme : List Char) (hscheme : ∀ c ∈ scheme, inScheme c = true)
    (rest path : String) (query : Option String) (hpath : path.toList.head? = some '/') :
    splitParts (scheme++ ':' :: '/' :: '/' :: (rest.toList.rdropWhile (· == '/')++
        (path.toList++queryText query))) =
      some (forwarded (splitRest scheme rest.toList) path query) ↔
        Undelimited rest path query := by
  obtain ⟨htext,hup⟩ := text_of_split _ _ (splitParts_scheme scheme rest.toList hscheme)
  have hownScheme : (splitRest scheme rest.toList).scheme = scheme := rfl
  rw [Parts.text, hownScheme, List.append_right_inj] at htext
  have hrest := List.cons_injective (List.cons_injective (List.cons_injective htext))
  rw [splitParts_eq_some_iff, forwarded_text, forwarded_wellFormed_iff _ hup path query hpath,
    Undelimited, ← trimmed_rest_iff rest.toList _ hup hrest, hownScheme]
  simp only [List.append_right_inj, List.cons.injEq, true_and, List.append_left_inj]

theorem stripPrefix_append (p s : String) : stripPrefix (p++s) p = some s := by
  have hdrop : p.toList.isPrefixOf? (p++s).toList = some s.toList := by simp
  rw [stripPrefix, hdrop, Option.map_some, String.ofList_toList]

def secureMark (secure : Bool) : String := if secure then "s" else ""

def afterHttp (secure : Bool) (rest path : String) (query : Option String) : String :=
  withQuery (secureMark secure++"://"++trimEndMatches rest '/'++path) query

theorem append_withQuery (a b : String) (query : Option String) :
    a++withQuery b query = withQuery (a++b) query := by
  cases query with
  | none => rfl
  | some q => simp only [withQuery, String.append_assoc]

theorem trimEndMatches_http (secure : Bool) (rest : String) (h : ∃ c ∈ rest.toList, c ≠ '/') :
    trimEndMatches (httpUpstream secure rest) '/' =
      "http"++(secureMark secure++"://"++trimEndMatches rest '/') := by
  obtain ⟨c,hc,hne⟩ := h
  have hrest : rest.toList.rdropWhile (· == '/') ≠ [] := by
    intro hnil
    exact hne (beq_iff_eq.mp (List.rdropWhile_eq_nil_iff.mp hnil c hc))
  have hupstream : (httpUpstream secure rest).toList =
      ("http"++(secureMark secure++"://")).toList++rest.toList := by
    cases secure <;> simp [httpUpstream, secureMark]
  apply String.toList_injective
  rw [trimEndMatches, String.toList_ofList, hupstream, rdropWhile_append, if_neg hrest]
  simp [trimEndMatches]

theorem proxyUrl_http (secure : Bool) (rest path : String) (query : Option String)
    (h : ∃ c ∈ rest.toList, c ≠ '/') :
    proxyUrl (httpUpstream secure rest) path query = "http"++afterHttp secure rest path query := by
  rw [proxyUrl, trimEndMatches_http secure rest h, afterHttp, append_withQuery,
    String.append_assoc]

theorem wsBase_http (upstream : String) (secure : Bool) (s : String) :
    wsBase upstream ("http"++(secureMark secure++"://"++s)) =
      .ok ("ws"++(secureMark secure++"://"++s)) := by
  cases secure with
  | true =>
    have hbase : "http"++(secureMark true++"://"++s) = "https://"++s := by
      apply String.toList_injective
      simp [secureMark]
    have hws : "ws"++(secureMark true++"://"++s) = "wss://"++s := by
      apply String.toList_injective
      simp [secureMark]
    rw [hbase, hws, wsBase, stripPrefix_append]
  | false =>
    have hbase : "http"++(secureMark false++"://"++s) = "http://"++s := by
      apply String.toList_injective
      simp [secureMark]
    have hws : "ws"++(secureMark false++"://"++s) = "ws://"++s := by
      apply String.toList_injective
      simp [secureMark]
    have hplain : stripPrefix ("http://"++s) "https://" = none := by
      simp [stripPrefix, List.isPrefixOf?]
    rw [hbase, hws, wsBase, hplain, stripPrefix_append]

theorem buildUpstreamWsUrl_http (secure : Bool) (rest path : String) (query : Option String)
    (h : ∃ c ∈ rest.toList, c ≠ '/') :
    buildUpstreamWsUrl (httpUpstream secure rest) path query =
      .ok ("ws"++afterHttp secure rest path query) := by
  rw [buildUpstreamWsUrl, trimEndMatches_http secure rest h, wsBase_http, afterHttp,
    append_withQuery]
  simp only [String.append_assoc]

theorem afterHttp_toList (secure : Bool) (rest path : String) (query : Option String) :
    (afterHttp secure rest path query).toList =
      (secureMark secure).toList++ ':' :: '/' :: '/' :: (rest.toList.rdropWhile (· == '/')++
        (path.toList++queryText query)) := by
  cases query with
  | none => simp [afterHttp, withQuery, trimEndMatches, queryText]
  | some q => simp [afterHttp, withQuery, trimEndMatches, queryText]

/-- Both builders write one text after `http` and after `ws`. The two URLs are
cut into the upstream's authority, its base path and the request's path, and the
request's query, exactly when no part holds a delimiter of a later one. -/
theorem forwarding_addresses_one_resource (secure : Bool) (rest path : String)
    (query : Option String) (hrest : ∃ c ∈ rest.toList, c ≠ '/')
    (hpath : path.toList.head? = some '/') :
    ∃ tail up, proxyUrl (httpUpstream secure rest) path query = "http"++tail ∧
      buildUpstreamWsUrl (httpUpstream secure rest) path query = .ok ("ws"++tail) ∧
      splitParts (httpUpstream secure rest).toList = some up ∧
      (splitParts ("http"++tail).toList = some (forwarded up path query) ↔
        Undelimited rest path query) ∧
      (splitParts ("ws"++tail).toList = some (webSocket (forwarded up path query)) ↔
        Undelimited rest path query) := by
  have hhttp : ∀ c ∈ "http".toList++(secureMark secure).toList, inScheme c = true := by
    cases secure <;> simp [secureMark, inScheme]
  have hws : ∀ c ∈ "ws".toList++(secureMark secure).toList, inScheme c = true := by
    cases secure <;> simp [secureMark, inScheme]
  refine ⟨afterHttp secure rest path query,
    splitRest ("http".toList++(secureMark secure).toList) rest.toList,
    proxyUrl_http secure rest path query hrest,buildUpstreamWsUrl_http secure rest path query hrest,
    ?_,?_,?_⟩
  · have hupstream : (httpUpstream secure rest).toList =
        "http".toList++(secureMark secure).toList++ ':' :: '/' :: '/' :: rest.toList := by
      cases secure <;> simp [httpUpstream, secureMark]
    rw [hupstream, splitParts_scheme _ _ hhttp]
  · rw [← splitParts_forwarded_iff _ hhttp rest path query hpath, String.toList_append,
      afterHttp_toList, List.append_assoc]
  · have hsame : webSocket (forwarded
          (splitRest ("http".toList++(secureMark secure).toList) rest.toList) path query) =
        forwarded (splitRest ("ws".toList++(secureMark secure).toList) rest.toList) path query := by
      cases secure <;> rfl
    rw [hsame, ← splitParts_forwarded_iff _ hws rest path query hpath, String.toList_append,
      afterHttp_toList, List.append_assoc]

theorem chat_addresses_one_resource :
    ∃ tail up, proxyUrl (httpUpstream true "api:8443/v1/") "/chat" (some "x=1") = "http"++tail ∧
      buildUpstreamWsUrl (httpUpstream true "api:8443/v1/") "/chat" (some "x=1") =
        .ok ("ws"++tail) ∧
      splitParts (httpUpstream true "api:8443/v1/").toList = some up ∧
      splitParts ("http"++tail).toList = some (forwarded up "/chat" (some "x=1")) ∧
      splitParts ("ws"++tail).toList = some (webSocket (forwarded up "/chat" (some "x=1"))) := by
  have hplain : Undelimited "api:8443/v1/" "/chat" (some "x=1") := by
    refine ⟨List.all_eq_true.mp (by decide),List.all_eq_true.mp (by decide),?_⟩
    intro q hq
    rw [← Option.some.inj hq]
    exact List.all_eq_true.mp (by decide)
  obtain ⟨tail,up,hurl,hws,hup,hsplit,hsplit'⟩ := forwarding_addresses_one_resource true
    "api:8443/v1/" "/chat" (some "x=1") ⟨'a',by decide,by decide⟩ rfl
  exact ⟨tail,up,hurl,hws,hup,hsplit.mpr hplain,hsplit'.mpr hplain⟩

theorem upstream_query_takes_path :
    splitParts (proxyUrl (httpUpstream false "api:8080?tenant=a") "/chat" none).toList =
        some ⟨"http".toList,"api:8080".toList,[],some "tenant=a/chat".toList,none⟩ ∧
      ∀ up, splitParts (httpUpstream false "api:8080?tenant=a").toList = some up →
        splitParts (proxyUrl (httpUpstream false "api:8080?tenant=a") "/chat" none).toList ≠
          some (forwarded up "/chat" none) := by
  have hsplit : splitParts (proxyUrl (httpUpstream false "api:8080?tenant=a") "/chat" none).toList =
      some ⟨"http".toList,"api:8080".toList,[],some "tenant=a/chat".toList,none⟩ := by decide
  refine ⟨hsplit,fun up _ heq => ?_⟩
  rw [hsplit] at heq
  have hquery := congrArg Parts.query (Option.some.inj heq)
  cases hquery

end ArchetypeProxy.UpstreamParts

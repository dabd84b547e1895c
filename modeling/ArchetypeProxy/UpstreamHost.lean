import ArchetypeProxy.Library.UrlStandard
import ArchetypeProxy.Upstream

/-!
# The backend host of a proxied request

The proxy trims the upstream, appends the request path and leaves the rest to
the URL parser. The upstream fixes the host exactly when something other than
slashes, backslashes, tabs and newlines follows its scheme. Otherwise the
first segment of the request path becomes the host.
-/

set_option autoImplicit false

namespace ArchetypeProxy.UpstreamHost
open ArchetypeProxy.Text ArchetypeProxy.UrlPath ArchetypeProxy.UrlStandard ArchetypeProxy.Upstream

variable {E : Type} (rules : Rules E)

def requestHost (upstream path : String) (query : Option String) : Option E :=
  (rules.parse (proxyUrl upstream path query).toList).map Url.endpoint

/-- Requests of any two paths and queries reach the same host and port. -/
def HostFixed (upstream : String) : Prop :=
  ∀ path path' query query', path.toList.head? = some '/' → path'.toList.head? = some '/' →
    requestHost rules upstream path query = requestHost rules upstream path' query'

def httpUpstream (secure : Bool) (rest : String) : String :=
  (if secure then "https://" else "http://") ++ rest

def trimmed (upstream : String) : List Char := upstream.toList.rdropWhile (· == '/')

def queryText : Option String → List Char
  | none => []
  | some q => '?'::q.toList

theorem proxyUrl_toList (upstream path : String) (query : Option String) :
    (proxyUrl upstream path query).toList =
      trimmed upstream ++ (path.toList ++ queryText query) := by
  cases query with
  | none => simp [proxyUrl, withQuery, trimEndMatches, trimmed, queryText]
  | some q => simp [proxyUrl, withQuery, trimEndMatches, trimmed, queryText]

theorem trimmed_http (secure : Bool) (rest : String) :
    trimmed (httpUpstream secure rest) =
      (if secure then ['h','t','t','p','s'] else ['h','t','t','p']) ++
        ':'::('/' :: '/' :: rest.toList).rdropWhile (· == '/') := by
  rw [trimmed, ← rdropWhile_keep _ _ _ _ (by decide)]
  cases secure <;> simp [httpUpstream]

theorem afterScheme_trimmed (secure : Bool) (rest : String) :
    ∃ tail, afterScheme (lead (trimmed (httpUpstream secure rest))) = some tail ∧
      (hostless tail = true ↔ ∀ c ∈ rest.toList, (isSlash c || tabOrNewline c) = true) := by
  refine ⟨(('/' :: '/' :: rest.toList).rdropWhile (· == '/')).filter (fun c => !tabOrNewline c),
    ?_,?_⟩
  · rw [trimmed_http]
    cases secure <;> rfl
  · simp only [hostless, List.all_eq_true, List.mem_filter, Bool.not_eq_true', Bool.or_eq_true]
    constructor
    · intro h c hc
      have hmem : c ∈ ('/' :: '/' :: rest.toList).rdropWhile (· == '/') ++
          ('/' :: '/' :: rest.toList).rtakeWhile (· == '/') := by
        rw [List.rdropWhile_append_rtakeWhile]
        simp [hc]
      rcases List.mem_append.mp hmem with hm | hm
      · cases ht : tabOrNewline c with
        | true => exact Or.inr rfl
        | false => exact Or.inl (h c ⟨hm,ht⟩)
      · have hs : c = '/' := by simpa using List.mem_rtakeWhile_imp hm
        exact Or.inl (by simp [isSlash, hs])
    · rintro h c ⟨hm,ht⟩
      have hc := (List.rdropWhile_prefix (· == '/') _).subset hm
      rcases List.mem_cons.mp hc with rfl | hc
      · decide
      · rcases List.mem_cons.mp hc with rfl | hc
        · decide
        · rcases h c hc with hs | hs
          · exact hs
          · rw [hs] at ht
            cases ht

theorem host_fixed_iff (secure : Bool) (rest : String) :
    HostFixed rules (httpUpstream secure rest) ↔
      ∃ c ∈ rest.toList, (isSlash c || tabOrNewline c) = false := by
  obtain ⟨tail,hscheme,hhost⟩ := afterScheme_trimmed secure rest
  constructor
  · intro h
    by_contra hn
    have hless : hostless tail = true := by
      rw [hhost]
      intro c hc
      by_contra hf
      exact hn ⟨c,hc,by simpa using hf⟩
    have heq := h "/" "/a" none none rfl rfl
    simp only [requestHost, proxyUrl_toList, queryText, List.append_nil] at heq
    rw [show "/".toList = ['/'] from rfl, show "/a".toList = ['/','a'] from rfl,
      parse_hostless_root rules _ tail hscheme hless, Option.map_none, eq_comm,
      Option.map_eq_none_iff] at heq
    exact parse_hostless_name rules _ tail hscheme hless heq
  · rintro ⟨c,hc,hf⟩ path path' query query' hp hp'
    have hhosted : hostless tail = false := by
      by_contra ht
      have hall := hhost.mp (by simpa using ht) c hc
      rw [hf] at hall
      cases hall
    obtain ⟨y,hy⟩ := List.head?_eq_some_iff.mp hp
    obtain ⟨y',hy'⟩ := List.head?_eq_some_iff.mp hp'
    rw [requestHost, requestHost, proxyUrl_toList, proxyUrl_toList, hy, hy', List.cons_append,
      List.cons_append, endpoint_hosted rules _ _ tail hscheme hhosted,
      endpoint_hosted rules _ _ tail hscheme hhosted]

def anyHost : Rules (List Char) where
  escapes := fun _ => false
  keeps := fun _ _ => rfl
  endpoint := fun a => if a = [] then none else some a
  noHost := rfl
  someHost := rfl

/-- With an upstream that names no host, the first path segment is the host. -/
theorem empty_upstream_follows_path : ¬ HostFixed anyHost "http://" := by
  intro h
  have hevil : requestHost anyHost "http://" "/evil/x" none = some "evil".toList := by decide
  have hgood : requestHost anyHost "http://" "/good/x" none = some "good".toList := by decide
  have heq := h "/evil/x" "/good/x" none none rfl rfl
  rw [hevil, hgood] at heq
  exact absurd heq (by decide)

end ArchetypeProxy.UpstreamHost

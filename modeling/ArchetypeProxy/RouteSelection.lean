import ArchetypeProxy.Routes

/-!
# Which route a request takes

Selection over the sorted table is the earliest route of maximal specificity
among those that match, in the order the routes were given. Specificity
counts the trailing slashes of a path prefix that matching ignores. The
selection follows the prefixes as matched exactly when every matching route
that those prefixes demote is outranked by a matching route they do not.
-/

set_option autoImplicit false

namespace ArchetypeProxy.RouteSelection
open ArchetypeProxy.Text ArchetypeProxy.StableSelection ArchetypeProxy.Routes

theorem select_none_iff (routes : List Route) (host path : String) :
    (RouteTable.new routes).select host path = none ↔
      ∀ r ∈ routes, ¬ ((isEmpty r.host = true ∨ eqIgnoreAsciiCase host r.host = true) ∧
        pathPrefixMatches r.pathPrefix path = true) := by
  simp only [← matches_iff]
  exact find_sorted_none_iff Route.specificity (fun r => r.matches host path) routes

theorem select_some_iff (routes : List Route) (host path : String) (r : Route) :
    (RouteTable.new routes).select host path = some r ↔
      ∃ i, Leads Route.specificity (fun s => s.matches host path) routes i r :=
  find_sorted_iff Route.specificity (fun s => s.matches host path) routes r

def effectivePrefix (r : Route) : String := trimEndMatches r.pathPrefix '/'

def HasTwin (routes : List Route) (r : Route) : Prop :=
  ∃ s ∈ routes, s.source = .discovered ∧ eqIgnoreAsciiCase s.host r.host = true ∧
    effectivePrefix s = effectivePrefix r

/-- The documented rule read on effective prefixes: a longer prefix wins, and
a discovered route overrides a file route of the same rule. -/
def FollowsEffectiveRule (routes : List Route) (host path : String) : Prop :=
  ∀ r, (RouteTable.new routes).select host path = some r →
    (∀ s ∈ routes, s.matches host path = true → isEmpty s.host = isEmpty r.host →
      len (effectivePrefix s) ≤ len (effectivePrefix r)) ∧
    (HasTwin routes r → r.source ≠ .file)

/-- Matched on effective prefixes, `r` should not be selected: a matching route
of the same host presence has a longer prefix, or `r` is a file route with a
discovered twin. -/
def Demoted (routes : List Route) (host path : String) (r : Route) : Prop :=
  (∃ s ∈ routes, s.matches host path = true ∧ isEmpty s.host = isEmpty r.host ∧
    len (effectivePrefix r) < len (effectivePrefix s)) ∨
  (HasTwin routes r ∧ r.source = .file)

/-- Every demoted matching route stands behind a matching route that is not
demoted, in raw specificity or, at equal specificity, in the given order. -/
def DemotedOutranked (routes : List Route) (host path : String) : Prop :=
  ∀ (i : ℕ) (r : Route), routes[i]? = some r → r.matches host path = true →
    Demoted routes host path r →
    ∃ (j : ℕ) (s : Route), routes[j]? = some s ∧ s.matches host path = true ∧
      ¬ Demoted routes host path s ∧
      (r.specificity < s.specificity ∨ r.specificity = s.specificity ∧ j < i)

theorem follows_iff_not_demoted (routes : List Route) (host path : String) :
    FollowsEffectiveRule routes host path ↔
      ∀ r, (RouteTable.new routes).select host path = some r →
        ¬ Demoted routes host path r := by
  constructor
  · rintro h r hr (⟨s,hs,hm,hh,hlt⟩ | ⟨ht,hf⟩)
    · exact absurd ((h r hr).1 s hs hm hh) (not_le.mpr hlt)
    · exact (h r hr).2 ht hf
  · intro h r hr
    constructor
    · intro s hs hm hh
      exact not_lt.mp fun hlt => h r hr (Or.inl ⟨s,hs,hm,hh,hlt⟩)
    · exact fun ht hf => h r hr (Or.inr ⟨ht,hf⟩)

theorem demoted_outranked_iff (routes : List Route) (host path : String) :
    FollowsEffectiveRule routes host path ↔ DemotedOutranked routes host path := by
  rw [follows_iff_not_demoted]
  constructor
  · intro h i b hb hm hd
    obtain ⟨r,hr⟩ : ∃ r, (RouteTable.new routes).select host path = some r := by
      apply Option.ne_none_iff_exists'.mp
      intro hn
      exact (select_none_iff routes host path).mp hn b (List.mem_of_getElem? hb)
        ((matches_iff b host path).mp hm)
    obtain ⟨k,hk⟩ := (select_some_iff routes host path r).mp hr
    refine ⟨k,r,hk.entry,hk.accepted,h r hr,?_⟩
    rcases hk.precedes i b hb hm with hlt | ⟨heq,hle⟩
    · exact Or.inl hlt
    · refine Or.inr ⟨heq,lt_of_le_of_ne hle fun hki => ?_⟩
      subst hki
      have hbr : r = b := by simpa [hk.entry] using hb
      exact h r hr (hbr ▸ hd)
  · intro h r hr hd
    obtain ⟨k,hk⟩ := (select_some_iff routes host path r).mp hr
    obtain ⟨j,s,hs,hm,_,hout⟩ := h k r hk.entry hk.accepted hd
    rcases hk.precedes j s hs hm with hlt | ⟨heq,hle⟩
    · rcases hout with h' | ⟨h',_⟩
      · exact lt_asymm hlt h'
      · exact absurd h' (ne_of_gt hlt)
    · rcases hout with h' | ⟨_,hj⟩
      · exact absurd heq (ne_of_gt h')
      · omega

theorem specificity_le_iff (r s : Route) (hh : isEmpty s.host = isEmpty r.host) :
    s.specificity ≤ r.specificity ↔ len s.pathPrefix < len r.pathPrefix ∨
      len s.pathPrefix = len r.pathPrefix ∧ s.source.routeRank ≤ r.source.routeRank := by
  simp only [Route.specificity, hh, Prod.Lex.toLex_le_toLex, lt_irrefl, false_or, true_and]

theorem select_specificity_le (routes : List Route) (host path : String) (r s : Route)
    (hr : (RouteTable.new routes).select host path = some r) (hs : s ∈ routes)
    (hm : s.matches host path = true) : s.specificity ≤ r.specificity := by
  obtain ⟨i,hi⟩ := (select_some_iff routes host path r).mp hr
  obtain ⟨j,hj⟩ := List.getElem?_of_mem hs
  rcases hi.precedes j s hj hm with hlt | ⟨heq,_⟩
  · exact le_of_lt hlt
  · exact le_of_eq heq

theorem twin_matches (r s : Route) (host path : String)
    (hh : eqIgnoreAsciiCase s.host r.host = true) (hp : effectivePrefix s = effectivePrefix r)
    (hm : r.matches host path = true) : s.matches host path = true := by
  rw [matches_iff] at hm ⊢
  obtain ⟨hhost,hpath⟩ := hm
  constructor
  · rw [eqIgnoreAsciiCase_isEmpty s.host r.host hh]
    refine hhost.imp_right fun h => ?_
    exact beq_iff_eq.mpr ((beq_iff_eq.mp h).trans (beq_iff_eq.mp hh).symm)
  · unfold effectivePrefix at hp
    unfold pathPrefixMatches at hpath ⊢
    rwa [hp]

theorem plain_prefixes_follow (routes : List Route) (host path : String)
    (hp : ∀ r ∈ routes, r.matches host path = true → effectivePrefix r = r.pathPrefix) :
    FollowsEffectiveRule routes host path := by
  intro r hr
  have hrm := select_matches _ host path r hr
  have hrp := hp r (select_mem routes host path r hr) hrm
  constructor
  · intro s hs hm hh
    have hle := (specificity_le_iff r s hh).mp (select_specificity_le routes host path r s hr hs hm)
    rw [hp s hs hm, hrp]
    omega
  · rintro ⟨s,hs,hd,hh,he⟩ hf
    have hm := twin_matches r s host path hh he hrm
    have hlen : len s.pathPrefix = len r.pathPrefix := by rw [← hp s hs hm, he, hrp]
    have hle := (specificity_le_iff r s (eqIgnoreAsciiCase_isEmpty s.host r.host hh)).mp
      (select_specificity_le routes host path r s hr hs hm)
    simp [hd, hf, hlen, Source.routeRank] at hle

/-- The selected route precedes every matching route. A demoted route is
therefore selected exactly when nothing undemoted outranks it. This needs a
matching route whose path prefix ends in a slash. -/
theorem effective_rule_iff (routes : List Route) (host path : String) :
    (FollowsEffectiveRule routes host path ↔ DemotedOutranked routes host path) ∧
    ((∀ r ∈ routes, r.matches host path = true → effectivePrefix r = r.pathPrefix) →
      FollowsEffectiveRule routes host path) :=
  ⟨demoted_outranked_iff routes host path,plain_prefixes_follow routes host path⟩

def slashedFileRoute : Route :=
  ⟨"file","","/v1/","http://file:80",none,.file⟩

def plainDiscoveredRoute : Route :=
  ⟨"disc","","/v1","http://disc:80",none,.discovered⟩

theorem slashed_file_route_wins :
    ¬ FollowsEffectiveRule [slashedFileRoute,plainDiscoveredRoute] "h" "/v1/x" := by
  intro h
  have hs : (RouteTable.new [slashedFileRoute,plainDiscoveredRoute]).select "h" "/v1/x" =
      some slashedFileRoute := by decide
  have ht : HasTwin [slashedFileRoute,plainDiscoveredRoute] slashedFileRoute :=
    ⟨plainDiscoveredRoute,by decide,by decide,by decide,by decide⟩
  exact (h slashedFileRoute hs).2 ht (by decide)

end ArchetypeProxy.RouteSelection

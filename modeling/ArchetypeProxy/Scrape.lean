import Mathlib.Data.List.Infix
import ArchetypeProxy.Library.Samples
import ArchetypeProxy.Serving

/-!
# A scrape among requests

A scrape of the metrics loads one cell after the other while requests go on,
so its text is no snapshot of the counters. It is as good as one: every number
can be read back, lies between the counter at the beginning of the scrape and
at its end, and the order of the loads keeps errors below observations and
the histogram cumulative up to the requests in flight. Loads and increments
are taken in one total order, although the source only asks for relaxed ones,
and the requests counted are calls of the HTTP client, not its redirects.
-/

set_option autoImplicit false

namespace ArchetypeProxy.Scrape
open ArchetypeProxy.Metrics ArchetypeProxy.Runs ArchetypeProxy.Samples ArchetypeProxy.Serving

def bounds : List String :=
  ["0.005","0.01","0.025","0.05","0.1","0.25","0.5","1","2.5","5","10"]

def bound (i : Fin buckets) : String := bounds.get i

def help (name text : String) : String := "# HELP "++name++" "++text++"\n"

def typeLine (name kind : String) : String := "# TYPE "++name++" "++kind++"\n"

def counterLabel (name text : String) : String :=
  help name text++typeLine name "counter"++name++" "

def latency : String := "archetype_proxy_upstream_latency_seconds"

def bucketLabel (le : String) : String := latency++"_bucket\x7ble=\""++le++"\"\x7d "

def bucketSamples (value : Cell → ℕ) : List (String × ℕ) :=
  (List.finRange buckets).map (fun i => (bucketLabel (bound i),value (.latencyBucket i)))++
    [(bucketLabel "+Inf",value .latencyCount)]

def samples (value : Cell → ℕ) (activeSessions : ℕ) : List (String × ℕ) :=
  [(counterLabel "archetype_proxy_handshakes_total"
      "Total attestation handshakes served on /attest.",value .handshakesTotal),
    (counterLabel "archetype_proxy_decrypt_failures_total"
      "Total trusted-request decrypt/MAC verification failures.",value .decryptFailuresTotal),
    (counterLabel "archetype_proxy_upstream_requests_total"
      "Total upstream requests attempted.",value .upstreamRequestsTotal),
    (counterLabel "archetype_proxy_upstream_errors_total"
      "Total upstream requests that failed at the transport level.",value .upstreamErrorsTotal),
    (help "archetype_proxy_active_sessions" "Live AtB sessions in the registry."++
      typeLine "archetype_proxy_active_sessions" "gauge"++"archetype_proxy_active_sessions ",
      activeSessions)]++
    headed (help latency "Upstream round-trip latency."++typeLine latency "histogram")
      (bucketSamples value)

-- the display of the sum of the latencies in seconds
variable (showSecs : ℕ → String)

def renderPrometheus (value : Cell → ℕ) (activeSessions : ℕ) : String :=
  sampled (samples value activeSessions)++
    (latency++"_sum "++showSecs (value .latencySumMicros)++"\n"++
      sample (latency++"_count ") (value .latencyCount))

def loads : List Cell :=
  [.handshakesTotal,.decryptFailuresTotal,.upstreamRequestsTotal,.upstreamErrorsTotal]++
    (List.finRange buckets).map .latencyBucket++[.latencyCount,.latencySumMicros]

variable {S A Id Suite F : Type}

/-- The server and a scrape in progress: the cells still to load, and what was
loaded. -/
structure Scraping (S A Id Suite F : Type) where
  server : Server S A Id Suite F
  pending : List Cell
  shown : Cell → ℕ

inductive Turn (S A Id Suite F : Type) where
  | serve (e : Event S A Id Suite F)
  | load

def Turn.event : Turn S A Id Suite F → Option (Event S A Id Suite F)
  | .serve e => some e
  | .load => none

def events (ts : List (Turn S A Id Suite F)) : List (Event S A Id Suite F) :=
  ts.filterMap Turn.event

section Runs
variable (f : Seconds F) (max : ℕ)

def turn (s : Scraping S A Id Suite F) : Turn S A Id Suite F → Scraping S A Id Suite F
  | .serve e => { s with server := step f max s.server e }
  | .load => match s.pending with
    | [] => s
    | c::rest => { s with
        pending := rest
        shown := Function.update s.shown c (s.server.cells c) }

def scrape (es : List (Event S A Id Suite F)) (ts : List (Turn S A Id Suite F)) :
    Scraping S A Id Suite F :=
  run (turn f max) ⟨served f max es,loads,fun _ => 0⟩ ts

end Runs

/-! ## Reading the text -/

theorem labels_fixed (value value' : Cell → ℕ) (n n' : ℕ) :
    (samples value n).map Prod.fst = (samples value' n').map Prod.fst := by
  simp [samples, map_fst_headed, bucketSamples, Function.comp_def]

theorem render_injective (value value' : Cell → ℕ) (n n' : ℕ)
    (h : renderPrometheus showSecs value n = renderPrometheus showSecs value' n') :
    n = n' ∧ ∀ c, c ≠ .latencySumMicros → value c = value' c := by
  have hsame := sampled_injective _ _ _ _ (labels_fixed value value' n n') h
  have hvalues := congrArg (List.map Prod.snd) hsame
  simp only [samples, List.map_append, List.map_cons, List.map_nil, map_snd_headed, bucketSamples,
    List.map_map, List.cons_append, List.nil_append, List.cons.injEq] at hvalues
  obtain ⟨hhandshakes,hdecrypt,hrequests,herrors,hsessions,hrest⟩ := hvalues
  obtain ⟨hbuckets,hcount⟩ := List.append_inj' hrest rfl
  refine ⟨hsessions,fun c hc => ?_⟩
  cases c with
  | handshakesTotal => exact hhandshakes
  | decryptFailuresTotal => exact hdecrypt
  | upstreamRequestsTotal => exact hrequests
  | upstreamErrorsTotal => exact herrors
  | latencyBucket i => exact List.map_inj_left.mp hbuckets i (List.mem_finRange i)
  | latencyCount => simpa using hcount
  | latencySumMicros => exact absurd rfl hc

/-! ## When a number was loaded -/

def rank : Cell → ℕ
  | .handshakesTotal => 0
  | .decryptFailuresTotal => 1
  | .upstreamRequestsTotal => 2
  | .upstreamErrorsTotal => 3
  | .latencyBucket i => 4+i.val
  | .latencyCount => 15
  | .latencySumMicros => 16

theorem loads_ascending : loads.Pairwise (fun c c' => rank c < rank c') := by decide

theorem mem_loads (c : Cell) : c ∈ loads := by
  cases c <;> simp [loads]

variable (f : Seconds F) (max : ℕ)

/-- Every cell that was loaded shows what it held at a moment of the scrape, and
the moments follow the order of the loads. -/
structure Attributed (es : List (Event S A Id Suite F)) (ts : List (Turn S A Id Suite F))
    (s : Scraping S A Id Suite F) (moment : Cell → List (Event S A Id Suite F)) : Prop where
  server : s.server = served f max (es++events ts)
  pending : s.pending <:+ loads
  during : ∀ c, c ∉ s.pending → moment c <+: events ts
  shown : ∀ c, c ∉ s.pending → s.shown c = (served f max (es++moment c)).cells c
  ordered : ∀ c c', c ∉ s.pending → c' ∉ s.pending → rank c ≤ rank c' → moment c <+: moment c'

theorem attributed_serve (es : List (Event S A Id Suite F)) (ts : List (Turn S A Id Suite F))
    (s : Scraping S A Id Suite F) (moment : Cell → List (Event S A Id Suite F))
    (e : Event S A Id Suite F) (h : Attributed f max es ts s moment) :
    Attributed f max es (ts++[.serve e]) (turn f max s (.serve e)) moment := by
  have hevents : events (ts++[.serve e]) = events ts++[e] := by
    simp [events, Turn.event]
  refine ⟨?_,h.pending,fun c hc => ?_,h.shown,h.ordered⟩
  · show step f max s.server e = _
    rw [hevents, ← List.append_assoc, served, run_concat, h.server]
    rfl
  · rw [hevents]
    exact (h.during c hc).trans (List.prefix_append _ _)

theorem rank_lt_of_loaded (c c' : Cell) (rest : List Cell) (h : c::rest <:+ loads)
    (hloaded : c' ∉ c::rest) : rank c' < rank c := by
  obtain ⟨done,hdone⟩ := h
  have hmem := mem_loads c'
  have hascending := loads_ascending
  rw [← hdone] at hmem hascending
  have hin : c' ∈ done := (List.mem_append.mp hmem).resolve_right hloaded
  exact (List.pairwise_append.mp hascending).2.2 c' hin c List.mem_cons_self

theorem attributed_load (es : List (Event S A Id Suite F)) (ts : List (Turn S A Id Suite F))
    (s : Scraping S A Id Suite F) (moment : Cell → List (Event S A Id Suite F))
    (h : Attributed f max es ts s moment) :
    ∃ moment', Attributed f max es (ts++[.load]) (turn f max s .load) moment' := by
  have hevents : events (ts++[.load]) = events ts := by
    simp [events, Turn.event]
  cases hpending : s.pending with
  | nil =>
    have hturn : turn f max s .load = s := by rw [turn, hpending]
    rw [hturn]
    exact ⟨moment,by rw [hevents]; exact h.server,h.pending,by rw [hevents]; exact h.during,
      h.shown,h.ordered⟩
  | cons c rest =>
    have hturn : turn f max s .load =
        { s with pending := rest, shown := Function.update s.shown c (s.server.cells c) } := by
      rw [turn, hpending]
    have hsuffix : c::rest <:+ loads := hpending ▸ h.pending
    have hold (c' : Cell) (hne : c' ≠ c) (hc' : c' ∉ rest) : c' ∉ s.pending := by
      rw [hpending]
      exact List.not_mem_cons_of_ne_of_not_mem hne hc'
    rw [hturn]
    refine ⟨Function.update moment c (events ts),by rw [hevents]; exact h.server,
      (List.suffix_cons c rest).trans hsuffix,fun c' hc' => ?_,fun c' hc' => ?_,
      fun c₁ c₂ h₁ h₂ hrank => ?_⟩
    · rw [hevents]
      by_cases hne : c' = c
      · rw [hne, Function.update_self]
      · rw [Function.update_of_ne hne]
        exact h.during c' (hold c' hne hc')
    · by_cases hne : c' = c
      · rw [hne, Function.update_self]
        show Function.update s.shown c (s.server.cells c) c = _
        rw [Function.update_self, h.server]
      · rw [Function.update_of_ne hne]
        show Function.update s.shown c (s.server.cells c) c' = _
        rw [Function.update_of_ne hne]
        exact h.shown c' (hold c' hne hc')
    · by_cases hne₁ : c₁ = c <;> by_cases hne₂ : c₂ = c
      · rw [hne₁, hne₂]
      · have hlt := rank_lt_of_loaded c c₂ rest hsuffix (hpending ▸ hold c₂ hne₂ h₂)
        rw [hne₁] at hrank
        omega
      · rw [hne₂, Function.update_self, Function.update_of_ne hne₁]
        exact h.during c₁ (hold c₁ hne₁ h₁)
      · rw [Function.update_of_ne hne₁, Function.update_of_ne hne₂]
        exact h.ordered c₁ c₂ (hold c₁ hne₁ h₁) (hold c₂ hne₂ h₂) hrank

theorem scrape_attributed (es : List (Event S A Id Suite F)) (ts : List (Turn S A Id Suite F)) :
    ∃ moment, Attributed f max es ts (scrape f max es ts) moment := by
  induction ts using List.reverseRecOn with
  | nil =>
    have hloads (c : Cell) (hc : c ∉ loads) : False := hc (mem_loads c)
    exact ⟨fun _ => [],by simp [scrape, run, events],List.suffix_refl loads,
      fun c hc => (hloads c hc).elim,fun c hc => (hloads c hc).elim,
      fun c _ hc => (hloads c hc).elim⟩
  | append_singleton ts t ih =>
    obtain ⟨moment,hmoment⟩ := ih
    rw [scrape, run_concat]
    cases t with
    | serve e => exact ⟨moment,attributed_serve f max es ts _ moment e hmoment⟩
    | load => exact attributed_load f max es ts _ moment hmoment

theorem cells_le (es before after : List (Event S A Id Suite F)) (c : Cell)
    (hlen : (es++after).length < 2^64) (hc : c ≠ .latencySumMicros) (h : before <+: after) :
    (served f max (es++before)).cells c ≤ (served f max (es++after)).cells c := by
  obtain ⟨rest,rfl⟩ := h
  have hshort : (es++before).length < 2^64 := by
    simp only [List.length_append] at hlen ⊢
    omega
  rw [cell_eq_counted f max _ hshort c hc, cell_eq_counted f max _ hlen c hc, ← List.append_assoc]
  exact counted_le_append f max (es++before) rest c

theorem events_length (ts : List (Turn S A Id Suite F)) : (events ts).length ≤ ts.length :=
  List.length_filterMap_le _ _

/-- What a reader takes the text of a scrape for: every number lies between the
counter at the beginning and at the end of the scrape, there are no more errors
than observations, and the buckets are cumulative up to the requests that had
increments to make at some moment of the scrape. -/
theorem scrape_within_run (es : List (Event S A Id Suite F)) (ts : List (Turn S A Id Suite F))
    (hlen : es.length+ts.length < 2^64) (hdone : (scrape f max es ts).pending = [])
    (value : Cell → ℕ) (n n' : ℕ)
    (hread : renderPrometheus showSecs value n' =
      renderPrometheus showSecs (scrape f max es ts).shown n) :
    n' = n ∧
      (∀ c, c ≠ .latencySumMicros → (served f max es).cells c ≤ value c ∧
        value c ≤ (scrape f max es ts).server.cells c) ∧
      value .upstreamErrorsTotal ≤ value .latencyCount ∧
      ∀ i, ∃ during, during <+: events ts ∧
        (∀ j, i ≤ j → value (.latencyBucket i) ≤ value (.latencyBucket j)+
          countTasks Task.unsettled (served f max (es++during))) ∧
        value (.latencyBucket i) ≤ value .latencyCount+
          countTasks Task.unsettled (served f max (es++during)) := by
  obtain ⟨moment,hmoment⟩ := scrape_attributed f max es ts
  have hloaded (c : Cell) : c ∉ (scrape f max es ts).pending := by simp [hdone]
  obtain ⟨hsessions,hvalue⟩ := render_injective showSecs _ _ _ _ hread
  have hshown (c : Cell) (hc : c ≠ .latencySumMicros) :
      value c = (served f max (es++moment c)).cells c :=
    (hvalue c hc).trans (hmoment.shown c (hloaded c))
  have hshort (fs : List (Event S A Id Suite F)) (hfs : fs <+: events ts) :
      (es++fs).length < 2^64 := by
    have hle := hfs.length_le
    have hevents := events_length ts
    rw [List.length_append]
    omega
  have hlater (c c' : Cell) (hc : c' ≠ .latencySumMicros) (hrank : rank c ≤ rank c') :
      (served f max (es++moment c)).cells c' ≤ value c' := by
    rw [hshown c' hc]
    exact cells_le f max es _ _ c' (hshort _ (hmoment.during c' (hloaded c'))) hc
      (hmoment.ordered c c' (hloaded c) (hloaded c') hrank)
  have hconsistent (c : Cell) : Consistent (served f max (es++moment c)) :=
    served_consistent (es++moment c) (hshort _ (hmoment.during c (hloaded c)))
  refine ⟨hsessions,fun c hc => ⟨?_,?_⟩,?_,fun i => ⟨moment (.latencyBucket i),?_,?_,?_⟩⟩
  · rw [hshown c hc]
    simpa using cells_le f max es [] (moment c) c (hshort _ (hmoment.during c (hloaded c))) hc
      List.nil_prefix
  · rw [hshown c hc, hmoment.server]
    exact cells_le f max es _ _ c (hshort _ (List.prefix_refl _)) hc (hmoment.during c (hloaded c))
  · rw [hshown .upstreamErrorsTotal (by simp)]
    exact le_trans (hconsistent .upstreamErrorsTotal).errors
      (hlater .upstreamErrorsTotal .latencyCount (by simp) (by decide))
  · exact hmoment.during _ (hloaded _)
  · intro j hij
    have hbucket := (hconsistent (.latencyBucket i)).cumulative i j hij
    have hnext := hlater (.latencyBucket i) (.latencyBucket j) (by simp) (by simpa [rank] using hij)
    rw [hshown (.latencyBucket i) (by simp)]
    omega
  · have hbucket := (hconsistent (.latencyBucket i)).counted i
    have hnext := hlater (.latencyBucket i) .latencyCount (by simp)
      (by have hi := i.isLt; simp only [rank, buckets] at hi ⊢; omega)
    rw [hshown (.latencyBucket i) (by simp)]
    omega

def lateFailure : List (Turn Unit Unit Unit Unit ℕ) :=
  List.replicate 3 .load++timedOutRun.map .serve++List.replicate 14 .load

theorem late_failure_observed :
    (scrape wholeSeconds 10 [] lateFailure).shown .upstreamRequestsTotal = 0 ∧
      (scrape wholeSeconds 10 [] lateFailure).shown .upstreamErrorsTotal = 1 ∧
      (scrape wholeSeconds 10 [] lateFailure).shown .upstreamErrorsTotal ≤
        (scrape wholeSeconds 10 [] lateFailure).shown .latencyCount :=
  ⟨rfl,rfl,(scrape_within_run toString wholeSeconds 10 [] lateFailure (by decide) rfl _ 0 0
    rfl).2.2.1⟩

end ArchetypeProxy.Scrape

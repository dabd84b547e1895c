import ArchetypeProxy.Library.Tally
import Mathlib.Algebra.Group.Nat.Defs
import Mathlib.Data.List.FinRange
import Mathlib.Logic.Function.Basic

/-!
# The process metrics

Every counter is one atomic 64-bit cell. A method of the metrics is a list of
increments, performed one atomic addition at a time. The latency histogram
has one cell for each bucket bound, counts an observation in every bucket it
does not exceed, and keeps the count and the sum of all observations.
-/

set_option autoImplicit false

namespace ArchetypeProxy.Metrics
open ArchetypeProxy.Tally

def buckets : ℕ := 11

inductive Cell where
  | handshakesTotal
  | decryptFailuresTotal
  | upstreamRequestsTotal
  | upstreamErrorsTotal
  | latencyBucket (i : Fin buckets)
  | latencyCount
  | latencySumMicros
  deriving DecidableEq, Repr

abbrev Increment := Cell × ℕ

/-- The floating point numbers as the histogram uses them: the comparison with
a bound and the rounded number of microseconds. The bounds ascend. -/
structure Seconds (F : Type) where
  atMost : F → Fin buckets → Bool
  micros : F → ℕ
  ascending : ∀ secs i j, i ≤ j → atMost secs i = true → atMost secs j = true

def incHandshakes : List Increment := [(.handshakesTotal,1)]
def incDecryptFailures : List Increment := [(.decryptFailuresTotal,1)]
def incUpstreamRequests : List Increment := [(.upstreamRequestsTotal,1)]
def incUpstreamErrors : List Increment := [(.upstreamErrorsTotal,1)]

variable {F : Type} (f : Seconds F)

def bucketIncrements (secs : F) : List Increment :=
  ((List.finRange buckets).filter (f.atMost secs)).map (fun i => (.latencyBucket i,1))

def observeUpstreamLatency (secs : F) : List Increment :=
  bucketIncrements f secs++[(.latencyCount,1),(.latencySumMicros,f.micros secs)]

/-- One atomic addition. It wraps at the 64-bit bound. -/
def fetchAdd (cells : Cell → ℕ) (a : Increment) : Cell → ℕ :=
  Function.update cells a.1 ((cells a.1+a.2) % 2^64)

theorem total_bucketIncrements (secs : F) (i : Fin buckets) :
    total (.latencyBucket i) (bucketIncrements f secs) = if f.atMost secs i then 1 else 0 :=
  total_filter_map Cell.latencyBucket (fun _ _ h => Cell.latencyBucket.inj h) (f.atMost secs)
    (List.finRange buckets) (List.nodup_finRange buckets) i (List.mem_finRange i)

theorem mem_bucketIncrements (secs : F) (a : Increment) (h : a ∈ bucketIncrements f secs) :
    ∃ i, a = (.latencyBucket i,1) := by
  obtain ⟨i,_,rfl⟩ := List.mem_map.mp h
  exact ⟨i,rfl⟩

theorem total_bucketIncrements_other (secs : F) (c : Cell) (hc : ∀ i, c ≠ .latencyBucket i) :
    total c (bucketIncrements f secs) = 0 := by
  refine total_eq_zero _ _ ?_
  intro a ha
  obtain ⟨i,rfl⟩ := mem_bucketIncrements f secs a ha
  exact (hc i).symm

end ArchetypeProxy.Metrics

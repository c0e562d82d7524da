import Mathlib.Data.BitVec
import Cognis.Lib.RecentWindow

/-! The controller's ring of scheduling latencies and the percentiles read from it.
`none` stands for an index out of bounds, where the program panics. -/
namespace Cognis.Fallback
open RecentWindow

def latRingCap : Nat := 2048
def latRingMask : BitVec 64 := 2047

/-- The index counts every sample and wraps with its type. -/
structure LatencyRing where
  latRing : List Nat
  latIdx : BitVec 64
  full : latRing.length = latRingCap

namespace LatencyRing

def new : LatencyRing where
  latRing := List.replicate latRingCap 0
  latIdx := 0
  full := List.length_replicate

def recordSchedEventLatency (r : LatencyRing) (ns : Nat) : Option LatencyRing :=
  let i := (r.latIdx &&& latRingMask).toNat
  if i < r.latRing.length then
    some {
      latRing := r.latRing.set i ns
      latIdx := r.latIdx + 1
      full := by rw [List.length_set, r.full] }
  else none

/-- Copies the samples above zero to the front of the buffer. -/
def copySamples : List Nat → List Nat × Nat → Option (List Nat × Nat)
  | [], buffer => some buffer
  | v :: rest, (samples, len) =>
    if v > 0 then
      if len < samples.length then copySamples rest (samples.set len v, len + 1) else none
    else copySamples rest (samples, len)

def computeSchedPercentiles (r : LatencyRing) : Option (Nat × Nat × Nat) := do
  let (samples, len) ← copySamples r.latRing (List.replicate latRingCap 0, 0)
  if len = 0 then return (0, 0, 0)
  if len > samples.length then none
  let samples := (samples.take len).insertionSort (· ≤ ·)
  let p50 ← samples[len / 2]?
  let p95 ← samples[len * 95 / 100]?
  let p99 ← samples[len * 99 / 100]?
  return (p50, p95, p99)

/-- The ring after a sequence of recorded latencies. -/
def recordAll (r : LatencyRing) (calls : List Nat) : Option LatencyRing :=
  calls.foldlM recordSchedEventLatency r

/-- The last samples, without the zeros. -/
def recentSamples (calls : List Nat) : List Nat := (lastN latRingCap calls).filter (· > 0)

/-- The ring after `calls`: read from the next slot it shows its window. -/
structure Shows (calls : List Nat) (r : LatencyRing) : Prop where
  index : r.latIdx = BitVec.ofNat 64 calls.length
  window : r.latRing.rotate calls.length = window latRingCap 0 calls

theorem shows_new : new.Shows [] := by
  constructor
  · rfl
  · simp [new, RecentWindow.window]

/-- The capacity divides the range of the index, so the mask survives the wrap. -/
theorem masked_index (n : Nat) :
    (BitVec.ofNat 64 n &&& latRingMask).toNat = n % latRingCap := by
  have mask : latRingMask.toNat = 2 ^ 11 - 1 := by decide
  have range : (2 : Nat) ^ 64 = 2 ^ 11 * 2 ^ 53 := by decide
  rw [BitVec.toNat_and, mask, Nat.and_two_pow_sub_one_eq_mod, BitVec.toNat_ofNat, range,
    Nat.mod_mul_right_mod]
  rfl

theorem Shows.record {calls : List Nat} {r : LatencyRing} (shows_ : r.Shows calls) (ns : Nat) :
    ∃ r', r.recordSchedEventLatency ns = some r' ∧ r'.Shows (calls ++ [ns]) := by
  have slot : (r.latIdx &&& latRingMask).toNat = calls.length % latRingCap := by
    rw [shows_.index, masked_index]
  have inside : (r.latIdx &&& latRingMask).toNat < r.latRing.length := by
    rw [slot, r.full]
    exact Nat.mod_lt _ (by decide)
  refine ⟨_, if_pos inside, ?_, ?_⟩
  · change r.latIdx + 1 = _
    rw [shows_.index, List.length_append, List.length_singleton, BitVec.ofNat_add]
    rfl
  · have written := rotate_set_window ns (by decide) r.full shows_.window
    rwa [← slot] at written

theorem Shows.recordAll {calls : List Nat} {r : LatencyRing} (shows_ : r.Shows calls)
    (more : List Nat) : ∃ r', r.recordAll more = some r' ∧ r'.Shows (calls ++ more) := by
  induction more generalizing r calls with
  | nil => exact ⟨r, rfl, by rwa [List.append_nil]⟩
  | cons ns more ih =>
    obtain ⟨next, recorded, now⟩ := shows_.record ns
    obtain ⟨r', rest, after⟩ := ih now
    refine ⟨r', ?_, by rwa [List.append_assoc] at after⟩
    rw [LatencyRing.recordAll, List.foldlM_cons, recorded]
    exact rest

/-- Whatever the position of the index, the ring holds the last samples. -/
theorem Shows.perm {calls : List Nat} {r : LatencyRing} (shows_ : r.Shows calls) :
    (r.latRing.filter (· > 0)).Perm (recentSamples calls) := by
  have turned := (List.rotate_perm r.latRing calls.length).filter (· > 0)
  rw [shows_.window, filter_window (by decide)] at turned
  exact turned.symm

/-- The buffer has room for every sample of the ring. -/
theorem copySamples_run (vs done room : List Nat) (fits : vs.length ≤ room.length) :
    copySamples vs (done ++ room, done.length) =
      some (done ++ vs.filter (· > 0) ++ room.drop (vs.filter (· > 0)).length,
        done.length + (vs.filter (· > 0)).length) := by
  induction vs generalizing done room with
  | nil => simp [copySamples]
  | cons v vs ih =>
    obtain ⟨slot, room, rfl⟩ := List.exists_cons_of_length_pos (Nat.lt_of_lt_of_le (by simp) fits)
    have fits : vs.length ≤ room.length := by simpa using fits
    by_cases sample : v > 0
    · have next := ih (done ++ [v]) room fits
      simp only [List.append_assoc, List.singleton_append, List.length_append,
        List.length_singleton] at next
      simp [copySamples, sample, next, Nat.add_assoc, Nat.add_comm 1]
    · simp only [copySamples, if_neg sample]
      have next := ih done (slot :: room) (Nat.le_succ_of_le fits)
      simpa [sample] using next

/-- `x` is one of the samples, and more than `percent` of them are not above it. -/
structure Percentile (samples : List Nat) (percent x : Nat) : Prop where
  sample : x ∈ samples
  rank : samples.length * percent < samples.countP (· ≤ x) * 100

/-- A truncated rank below 100 percent is the index of such a sample. -/
theorem percentile_getElem {samples sorted : List Nat} (perm : sorted.Perm samples)
    (order : sorted.Pairwise (· ≤ ·)) (percent : Nat) (below : percent < 100)
    (some_ : samples ≠ []) :
    ∃ x, sorted[samples.length * percent / 100]? = some x ∧ Percentile samples percent x := by
  have length := perm.length_eq
  have positive := List.length_pos_of_ne_nil some_
  have inside : samples.length * percent / 100 < sorted.length := by
    have less := Nat.mul_lt_mul_of_pos_left below positive
    omega
  have rank := lt_countP_getElem order inside
  refine ⟨_, List.getElem?_eq_getElem inside, perm.mem_iff.mp (List.getElem_mem inside), ?_⟩
  rw [← perm.countP_eq]
  omega

theorem sorted_getElem_le {sorted : List Nat} (order : sorted.Pairwise (· ≤ ·)) {i j x y : Nat}
    (le : i ≤ j) (first : sorted[i]? = some x) (second : sorted[j]? = some y) : x ≤ y := by
  obtain ⟨inside, rfl⟩ := List.getElem?_eq_some_iff.mp first
  obtain ⟨inside', rfl⟩ := List.getElem?_eq_some_iff.mp second
  exact order.sortedLE.getElem_le_getElem_of_le le

theorem copySamples_ring (r : LatencyRing) :
    let used := r.latRing.filter (· > 0)
    copySamples r.latRing (List.replicate latRingCap 0, 0) =
      some (used ++ (List.replicate latRingCap 0).drop used.length, used.length) := by
  intro used
  have copied := copySamples_run r.latRing [] (List.replicate latRingCap 0) (by
    rw [r.full, List.length_replicate])
  rwa [List.nil_append, List.nil_append, List.length_nil, Nat.zero_add] at copied

/-- The buffer's front is exactly the samples above zero. -/
theorem computeSchedPercentiles_run (r : LatencyRing) :
    let used := r.latRing.filter (· > 0)
    let sorted := used.insertionSort (· ≤ ·)
    r.computeSchedPercentiles =
      if used.length = 0 then some (0, 0, 0)
      else do
        let p50 ← sorted[used.length / 2]?
        let p95 ← sorted[used.length * 95 / 100]?
        let p99 ← sorted[used.length * 99 / 100]?
        return (p50, p95, p99) := by
  intro used sorted
  have room : ¬ used.length > (used ++ (List.replicate latRingCap 0).drop used.length).length := by
    rw [List.length_append]
    omega
  rw [computeSchedPercentiles, copySamples_ring]
  change (if used.length = 0 then _ else if used.length > _ then _ else _) = _
  rw [if_neg room, List.take_left]
  rfl

/-- The three percentiles of the samples that the ring holds. -/
theorem compute_samples (r : LatencyRing) :
    let used := r.latRing.filter (· > 0)
    (used = [] ∧ r.computeSchedPercentiles = some (0, 0, 0)) ∨
      (used ≠ [] ∧ ∃ p50 p95 p99, r.computeSchedPercentiles = some (p50, p95, p99) ∧
        p50 ≤ p95 ∧ p95 ≤ p99 ∧ Percentile used 50 p50 ∧ Percentile used 95 p95 ∧
        Percentile used 99 p99) := by
  intro used
  have run := computeSchedPercentiles_run r
  by_cases none : used = []
  · refine .inl ⟨none, run.trans ?_⟩
    exact if_pos (List.length_eq_zero_iff.mpr none)
  · refine .inr ⟨none, ?_⟩
    have perm := List.perm_insertionSort (· ≤ ·) used
    have order := List.pairwise_insertionSort (· ≤ ·) used
    obtain ⟨p50, first, half⟩ := percentile_getElem perm order 50 (by decide) none
    obtain ⟨p95, second, tail⟩ := percentile_getElem perm order 95 (by decide) none
    obtain ⟨p99, third, last⟩ := percentile_getElem perm order 99 (by decide) none
    refine ⟨p50, p95, p99, ?_, sorted_getElem_le order (by omega) first second,
      sorted_getElem_le order (by omega) second third, half, tail, last⟩
    have half_ : used.length / 2 = used.length * 50 / 100 := by omega
    refine run.trans ((if_neg (mt List.length_eq_zero_iff.mp none)).trans ?_)
    rw [half_, first, second, third]
    rfl

theorem Percentile.of_perm {samples samples' : List Nat} {percent x : Nat}
    (perm : samples.Perm samples') (h : Percentile samples percent x) :
    Percentile samples' percent x := by
  constructor
  · exact perm.mem_iff.mp h.sample
  · rw [← perm.length_eq, ← perm.countP_eq]
    exact h.rank

/-- After any number of calls nothing is out of bounds, the samples used are the nonzero
ones of the last 2048 calls, and the results are their percentiles. -/
theorem percentiles_of_recent (calls : List Nat) :
    ∃ r, new.recordAll calls = some r ∧
      (∃ samples len, copySamples r.latRing (List.replicate latRingCap 0, 0) = some (samples, len) ∧
        (samples.take len).Perm (recentSamples calls)) ∧
      ∃ p50 p95 p99, r.computeSchedPercentiles = some (p50, p95, p99) ∧
        ((p50, p95, p99) = (0, 0, 0) ↔ recentSamples calls = []) ∧
        (recentSamples calls ≠ [] → p50 ≤ p95 ∧ p95 ≤ p99 ∧
          Percentile (recentSamples calls) 50 p50 ∧ Percentile (recentSamples calls) 95 p95 ∧
          Percentile (recentSamples calls) 99 p99) := by
  obtain ⟨r, recorded, shows_⟩ := shows_new.recordAll calls
  have perm : (r.latRing.filter (· > 0)).Perm (recentSamples calls) := shows_.perm
  refine ⟨r, recorded, ⟨_, _, copySamples_ring r, ?_⟩, ?_⟩
  · rw [List.take_left]
    exact perm
  rcases compute_samples r with ⟨none, zeros⟩ |
    ⟨some_, p50, p95, p99, result, le, le', half, tail, last⟩
  · have empty : recentSamples calls = [] := List.nil_perm.mp (none ▸ perm)
    exact ⟨0, 0, 0, zeros, iff_of_true rfl empty, fun some_ => absurd empty some_⟩
  · refine ⟨p50, p95, p99, result, iff_of_false ?_ ?_, fun _ => ⟨le, le', half.of_perm perm,
      tail.of_perm perm, last.of_perm perm⟩⟩
    · intro zeros
      have positive : p50 > 0 := by simpa using (List.mem_filter.mp half.sample).2
      have zero : p50 = 0 := congrArg Prod.fst zeros
      omega
    · intro empty
      rw [empty] at perm
      exact some_ (List.perm_nil.mp perm)

end LatencyRing

end Cognis.Fallback

import Cognis.Lib.Saturating

/-! The controller of the fallback's base slice: it follows the runnable load below the
configured ceiling. -/
namespace Cognis.Fallback
open Saturating

def targetedLatencyNs : Nat := 6000000
def autoSliceMinNs : Nat := 250000
def autoSliceMaxNs : Nat := 8000000

structure SliceController where
  currentSliceNs : Nat
  baseSliceNs : Nat
  autoBaseNs : Nat
  minNs : Nat
  maxNs : Nat
deriving DecidableEq

/-- The CPUs of an update, and the targeted latency divided by the runnable tasks per CPU:
`update` computes that in floating point. -/
structure Load where
  nrCpus : Nat
  computed : Nat

namespace SliceController

def new (baseSliceNs : Nat) : SliceController :=
  let initialAuto := clamp (if baseSliceNs > 0 then baseSliceNs else targetedLatencyNs)
    autoSliceMinNs autoSliceMaxNs
  { currentSliceNs := initialAuto
    baseSliceNs := baseSliceNs
    autoBaseNs := initialAuto
    minNs := autoSliceMinNs
    maxNs := autoSliceMaxNs }

def effectiveBaseNs (c : SliceController) : Nat :=
  if c.baseSliceNs > 0 then min c.autoBaseNs c.baseSliceNs else c.autoBaseNs

def update (c : SliceController) (load : Load) : SliceController :=
  if load.nrCpus = 0 then c
  else
    let c := { c with autoBaseNs := clamp load.computed autoSliceMinNs autoSliceMaxNs }
    { c with currentSliceNs := clamp c.effectiveBaseNs c.minNs c.maxNs }

def readSliceNs (c : SliceController) : Nat := c.currentSliceNs

/-- What construction and every update leave behind. -/
structure Steady (base : Nat) (c : SliceController) : Prop where
  configured : c.baseSliceNs = base
  floor : c.minNs = autoSliceMinNs
  cap : c.maxNs = autoSliceMaxNs
  low : autoSliceMinNs ≤ c.currentSliceNs
  high : c.currentSliceNs ≤ autoSliceMaxNs
  ceiling : 0 < base → c.currentSliceNs ≤ max base autoSliceMinNs

theorem steady_new (base : Nat) : (new base).Steady base := by
  refine ⟨rfl, rfl, rfl, clamp_low, clamp_high (by decide), ?_⟩
  intro given
  show clamp (if base > 0 then base else _) _ _ ≤ _
  rw [if_pos given, max_comm]
  exact clamp_le

theorem Steady.updated {base : Nat} {c : SliceController} (steady : c.Steady base) (load : Load) :
    (c.update load).Steady base := by
  unfold update
  split
  · exact steady
  · dsimp only
    rw [steady.floor, steady.cap]
    refine ⟨steady.configured, rfl, rfl, clamp_low, clamp_high (by decide), ?_⟩
    intro given
    apply clamp_le.trans
    rw [effectiveBaseNs, steady.configured, if_pos given, max_comm]
    exact max_le_max_right _ (min_le_right _ _)

theorem Steady.run {base : Nat} {c : SliceController} (steady : c.Steady base)
    (loads : List Load) : (loads.foldl update c).Steady base := by
  induction loads generalizing c with
  | nil => exact steady
  | cons load loads ih => exact ih (steady.updated load)

/-- Below the automatic minimum the last clamp lifts the slice over the ceiling, already at
construction. -/
theorem read_slice_ns_le_iff {base : Nat} (given : 0 < base) :
    (∀ loads : List Load, (loads.foldl update (new base)).readSliceNs ≤ base) ↔
      autoSliceMinNs ≤ base := by
  constructor
  · intro below
    exact (steady_new base).low.trans (below [])
  · intro reached loads
    have steady := (steady_new base).run loads
    exact (steady.ceiling given).trans (max_eq_left reached).le

theorem read_slice_ns_le_iff_desktop :
    (∀ loads : List Load, (loads.foldl update (new 1000000)).readSliceNs ≤ 1000000) ↔
      autoSliceMinNs ≤ 1000000 := read_slice_ns_le_iff (by decide)

/-- A ceiling of 100 us: the controller starts at 250 us and stays there. -/
theorem read_slice_ns_exceeds_ceiling :
    ¬ ∀ loads : List Load, (loads.foldl update (new 100000)).readSliceNs ≤ 100000 := by
  intro below
  exact absurd (below [⟨8, 6000000⟩]) (by decide)

end SliceController

end Cognis.Fallback

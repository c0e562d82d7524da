import Cognis.Lib.Saturating
import Cognis.Bpf.Layout

/-! The slice options of the command line, and the profile that the loader exports. -/
namespace Cognis.Loader
open Bpf Saturating

inductive SchedulerMode
  | desktop
  | server
deriving DecidableEq

/-- The options that the profile reads; zero asks for the profile's default. -/
structure Opts where
  sliceUs : U64
  sliceUsMin : U64
  mode : SchedulerMode

structure BpfProfile where
  mode : SchedulerMode
  sliceNs : Nat
  sliceMinNs : Nat
  sliceLagNs : Nat
  noWakeSync : Bool
  stickyTasks : Bool
deriving DecidableEq

/-- Slice, minimum slice, lag, `no_wake_sync` and `sticky_tasks`. -/
def SchedulerMode.defaults : SchedulerMode → Nat × Nat × Nat × Bool × Bool
  | .desktop => (1000000, 250000, 40000000, false, true)
  | .server => (8000000, 1000000, 1500000, true, false)

/-- An option in microseconds, or the default. -/
def optionNs (us : U64) (defaultNs : Nat) : Nat :=
  if us.toNat > 0 then mul u64Top us.toNat 1000 else defaultNs

namespace BpfProfile

def fromOpts (opts : Opts) : BpfProfile :=
  let (defaultSliceNs, defaultMinNs, defaultLagNs, noWakeSync, stickyTasks) := opts.mode.defaults
  let sliceMinNs := optionNs opts.sliceUsMin defaultMinNs
  { mode := opts.mode
    sliceNs := max (optionNs opts.sliceUs defaultSliceNs) sliceMinNs
    sliceMinNs := sliceMinNs
    sliceLagNs := defaultLagNs
    noWakeSync := noWakeSync
    stickyTasks := stickyTasks }

def isServer (profile : BpfProfile) : Bool := profile.mode = .server

/-- What `BpfScheduler::init` writes into the read-only data of the program. -/
structure Exports (profile : BpfProfile) (ro : Rodata) : Prop where
  sliceNs : ro.sliceNs = BitVec.ofNat 64 profile.sliceNs
  sliceMinNs : ro.sliceMinNs = BitVec.ofNat 64 profile.sliceMinNs
  sliceLagNs : ro.sliceLagNs = BitVec.ofNat 64 profile.sliceLagNs
  noWakeSync : ro.noWakeSync = profile.noWakeSync
  stickyTasks : ro.stickyTasks = profile.stickyTasks
  serverMode : ro.serverMode = profile.isServer

theorem optionNs_bounds (us : U64) {defaultNs : Nat} (low : 1000 ≤ defaultNs)
    (high : defaultNs ≤ u64Top) :
    1000 ≤ optionNs us defaultNs ∧ optionNs us defaultNs ≤ u64Top := by
  unfold optionNs
  split
  · rename_i given
    refine ⟨le_min ?_ (by decide), mul_le_top⟩
    exact Nat.le_mul_of_pos_left 1000 given
  · exact ⟨low, high⟩

theorem defaults_bounds (mode : SchedulerMode) :
    (1000 ≤ mode.defaults.1 ∧ mode.defaults.1 ≤ u64Top) ∧
      1000 ≤ mode.defaults.2.1 ∧ mode.defaults.2.1 ≤ u64Top := by
  cases mode <;> decide

section

variable (opts : Opts)

theorem fromOpts_min_le : (fromOpts opts).sliceMinNs ≤ (fromOpts opts).sliceNs := le_max_right _ _

theorem fromOpts_le_top : (fromOpts opts).sliceNs ≤ u64Top := by
  obtain ⟨slice, min⟩ := defaults_bounds opts.mode
  exact max_le (optionNs_bounds _ slice.1 slice.2).2 (optionNs_bounds _ min.1 min.2).2

end

namespace Exports

variable {opts : Opts} {ro : Rodata} (exports : (fromOpts opts).Exports ro)
include exports

theorem sliceNs_toNat : ro.sliceNs.toNat = (fromOpts opts).sliceNs := by
  have bound := fromOpts_le_top opts
  rw [exports.sliceNs, BitVec.toNat_ofNat]
  exact Nat.mod_eq_of_lt (Nat.lt_of_le_of_lt bound (by decide))

theorem sliceMinNs_toNat : ro.sliceMinNs.toNat = (fromOpts opts).sliceMinNs := by
  have bound := (fromOpts_min_le opts).trans (fromOpts_le_top opts)
  rw [exports.sliceMinNs, BitVec.toNat_ofNat]
  exact Nat.mod_eq_of_lt (Nat.lt_of_le_of_lt bound (by decide))

end Exports

end BpfProfile

end Cognis.Loader

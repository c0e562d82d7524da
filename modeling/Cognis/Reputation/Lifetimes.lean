import Cognis.Lib.Runs
import Cognis.Reputation.PidTable

/-! The lifetime table of the user-space side, and the bounded map that it stands for. -/
namespace Cognis.Reputation
open Probing Runs

structure TaskLifetime where
  sliceAssignedNs : Nat := 0
  sliceUsedNs : Nat := 0
  preempted : Bool := false
  cheatFlagged : Bool := false
  interactiveSliceCreditNs : Nat := 0
  interactiveSliceBiasNs : Int := 0
  lastSliceNs : Nat := 0
  lastSeenNs : Nat := 0
  lastStopTs : Nat := 0
deriving DecidableEq

def lifetimeScheme : Scheme Pid tableSize := pidScheme 2654435769

structure Lifetimes where
  lifetimePids : Fin tableSize → Pid
  lifetimeTable : Fin tableSize → TaskLifetime

namespace Lifetimes

def init : Lifetimes := ⟨fun _ => pidEmpty, fun _ => {}⟩

def lifetimeFindSlot (t : Lifetimes) (pid : Pid) : Option (Fin tableSize) :=
  lifetimeScheme.find t.lifetimePids pid

/-- Without a free slot the record in the home slot is lost. -/
def lifetimeFindOrInsertSlot (t : Lifetimes) (pid : Pid) : Fin tableSize × Lifetimes :=
  match lifetimeScheme.claim t.lifetimePids pid with
  | .held s => (s, t)
  | .fresh dst =>
    (dst, ⟨Function.update t.lifetimePids dst pid, Function.update t.lifetimeTable dst {}⟩)

def lifetimeGet (t : Lifetimes) (pid : Pid) : Option TaskLifetime :=
  ((t.lifetimeFindSlot pid).filter fun _ => decide (Positive pid)).map t.lifetimeTable

/-- `write` is what the caller does through the reference. -/
def lifetimeGetMutOrDefault (t : Lifetimes) (pid : Pid) (write : TaskLifetime → TaskLifetime) :
    Lifetimes :=
  let (s, t) := t.lifetimeFindOrInsertSlot pid
  { t with lifetimeTable := Function.update t.lifetimeTable s (write (t.lifetimeTable s)) }

def lifetimeEvict (t : Lifetimes) (pid : Pid) : Lifetimes :=
  match t.lifetimeFindSlot pid with
  | some s =>
    ⟨Function.update t.lifetimePids s pidTombstone, Function.update t.lifetimeTable s {}⟩
  | none => t

end Lifetimes

inductive LifetimeOp
  | getMutOrDefault (pid : Pid) (write : TaskLifetime → TaskLifetime)
  | evict (pid : Pid)

def LifetimeOp.pid : LifetimeOp → Pid
  | .getMutOrDefault pid _ => pid
  | .evict pid => pid

def Lifetimes.apply (t : Lifetimes) : LifetimeOp → Lifetimes
  | .getMutOrDefault pid write => t.lifetimeGetMutOrDefault pid write
  | .evict pid => t.lifetimeEvict pid

def Lifetimes.run (ops : List LifetimeOp) : Lifetimes := ops.foldl Lifetimes.apply Lifetimes.init

abbrev Records := Pid → Option TaskLifetime

noncomputable def Records.count (m : Records) : Nat := {pid | m pid ≠ none}.ncard

/-- A map that holds `tableSize` records at most: an insertion into a full one displaces
the record of another PID. -/
inductive RecordsStep (m : Records) : LifetimeOp → Records → Prop
  | write (pid : Pid) (write : TaskLifetime → TaskLifetime) (r : TaskLifetime) : m pid = some r →
      RecordsStep m (.getMutOrDefault pid write) (Function.update m pid (some (write r)))
  | insert (pid : Pid) (write : TaskLifetime → TaskLifetime) : m pid = none →
      m.count < tableSize →
      RecordsStep m (.getMutOrDefault pid write) (Function.update m pid (some (write {})))
  | displace (pid victim : Pid) (write : TaskLifetime → TaskLifetime) : m pid = none →
      m.count = tableSize → victim ≠ pid → m victim ≠ none →
      RecordsStep m (.getMutOrDefault pid write)
        (Function.update (Function.update m victim none) pid (some (write {})))
  | evict (pid : Pid) : RecordsStep m (.evict pid) (Function.update m pid none)

namespace Lifetimes

/-- Every PID in the table is positive and in the one slot where its probe finds it. -/
structure Sound (t : Lifetimes) : Prop where
  slots : lifetimeScheme.Sound t.lifetimePids
  positive : ∀ s, lifetimeScheme.Live (t.lifetimePids s) → Positive (t.lifetimePids s)

theorem sound_init : init.Sound := by
  have blank : ∀ s, ¬ lifetimeScheme.Live (init.lifetimePids s) := fun _ live => live.1 rfl
  exact ⟨⟨fun s _ live _ => absurd live (blank s), fun s live => absurd live (blank s)⟩,
    fun s live => absurd live (blank s)⟩

variable {t : Lifetimes} {pid : Pid}

theorem lifetimeGet_positive (positive : Positive pid) :
    t.lifetimeGet pid = lifetimeScheme.lookup t.lifetimePids t.lifetimeTable pid := by
  rw [lifetimeGet, decide_eq_true positive]
  cases found : t.lifetimeFindSlot pid with
  | none => rw [Scheme.lookup, ← lifetimeFindSlot, found]; rfl
  | some s => rw [Scheme.lookup, ← lifetimeFindSlot, found]; rfl

theorem lifetimeGet_not_positive (negative : ¬ Positive pid) : t.lifetimeGet pid = none := by
  rw [lifetimeGet, decide_eq_false negative]
  cases t.lifetimeFindSlot pid <;> rfl

theorem positive_of_get {r : TaskLifetime} (tracked : t.lifetimeGet pid = some r) :
    Positive pid := by
  by_contra negative
  rw [lifetimeGet_not_positive negative] at tracked
  cases tracked

theorem Sound.get_stored (sound : t.Sound) (positive : Positive pid) {s : Fin tableSize}
    (stored : t.lifetimePids s = pid) : t.lifetimeGet pid = some (t.lifetimeTable s) := by
  rw [lifetimeGet_positive positive, sound.slots.lookup_of positive.live stored]

theorem Sound.get_absent (sound : t.Sound) (absent : ∀ s, t.lifetimePids s ≠ pid) :
    t.lifetimeGet pid = none := by
  by_cases positive : Positive pid
  · rw [lifetimeGet_positive positive, sound.slots.lookup_eq_none positive.live absent]
  · exact lifetimeGet_not_positive positive

/-- PIDs that are not positive read nothing before and after. -/
theorem get_eq_update {t' : Lifetimes} (positive : Positive pid) {v : Option TaskLifetime}
    (agree : ∀ q, Positive q → lifetimeScheme.lookup t'.lifetimePids t'.lifetimeTable q =
      if q = pid then v else lifetimeScheme.lookup t.lifetimePids t.lifetimeTable q) :
    t'.lifetimeGet = Function.update t.lifetimeGet pid v := by
  funext q
  rw [Function.update_apply]
  by_cases positiveQ : Positive q
  · rw [lifetimeGet_positive positiveQ, lifetimeGet_positive positiveQ]
    exact agree q positiveQ
  · have other : q ≠ pid := fun same => positiveQ (same ▸ positive)
    rw [lifetimeGet_not_positive positiveQ, lifetimeGet_not_positive positiveQ, if_neg other]

theorem Sound.get_live (sound : t.Sound) (live : lifetimeScheme.Live pid) :
    t.lifetimeGet pid = lifetimeScheme.lookup t.lifetimePids t.lifetimeTable pid := by
  by_cases positive : Positive pid
  · exact lifetimeGet_positive positive
  · rw [lifetimeGet_not_positive positive]
    refine (sound.slots.lookup_eq_none live fun s same => positive ?_).symm
    exact same ▸ sound.positive s (same ▸ live)

theorem Sound.put (sound : t.Sound) (absent : ∀ r, t.lifetimePids r ≠ pid)
    (positive : Positive pid) {s : Fin tableSize}
    (reach : lifetimeScheme.Reaches t.lifetimePids (probes (lifetimeScheme.home pid)) s)
    (table : Fin tableSize → TaskLifetime) :
    (⟨Function.update t.lifetimePids s pid, table⟩ : Lifetimes).Sound := by
  refine ⟨sound.slots.put absent positive.live reach, fun r live => ?_⟩
  by_cases here : r = s
  · simpa only [here, Function.update_self] using positive
  · simp only [Function.update_of_ne here] at live ⊢
    exact sound.positive r live

theorem Sound.get_put (sound : t.Sound) (absent : ∀ r, t.lifetimePids r ≠ pid)
    (positive : Positive pid) {s : Fin tableSize}
    (reach : lifetimeScheme.Reaches t.lifetimePids (probes (lifetimeScheme.home pid)) s)
    (record : TaskLifetime) (q : Pid) :
    Lifetimes.lifetimeGet
        ⟨Function.update t.lifetimePids s pid, Function.update t.lifetimeTable s record⟩ q =
      if q = pid then some record
      else if q = t.lifetimePids s then none else t.lifetimeGet q := by
  by_cases positiveQ : Positive q
  · rw [lifetimeGet_positive positiveQ, lifetimeGet_positive positiveQ]
    exact sound.slots.lookup_put absent positive.live reach record positiveQ.live
  · have other : q ≠ pid := fun same => positiveQ (same ▸ positive)
    rw [lifetimeGet_not_positive positiveQ, lifetimeGet_not_positive positiveQ, if_neg other,
      ite_self]

theorem Sound.count_eq (sound : t.Sound) :
    Records.count t.lifetimeGet = {s | lifetimeScheme.Live (t.lifetimePids s)}.ncard := by
  have keys : {q | lifetimeScheme.Live q ∧
      ∃ v, lifetimeScheme.lookup t.lifetimePids t.lifetimeTable q = some v ∧ True}.ncard = _ :=
    sound.slots.ncard_keys fun _ => True
  simp only [and_true] at keys
  rw [← keys]
  refine congrArg Set.ncard (Set.ext fun q => ?_)
  rw [Set.mem_ofPred_eq, Set.mem_ofPred_eq, ← Option.isSome_iff_ne_none, Option.isSome_iff_exists]
  constructor
  · rintro ⟨v, found⟩
    have positive := positive_of_get found
    exact ⟨positive.live, v, lifetimeGet_positive positive ▸ found⟩
  · rintro ⟨live, v, found⟩
    exact ⟨v, sound.get_live live ▸ found⟩

theorem Sound.count_eq_iff (sound : t.Sound) :
    Records.count t.lifetimeGet = tableSize ↔ ∀ s, lifetimeScheme.Live (t.lifetimePids s) := by
  rw [sound.count_eq, lifetimeScheme.ncard_live_eq_iff]

theorem Sound.count_lt (sound : t.Sound) {s : Fin tableSize}
    (blank : ¬ lifetimeScheme.Live (t.lifetimePids s)) :
    Records.count t.lifetimeGet < tableSize := by
  refine lt_of_le_of_ne ?_ fun whole => blank (sound.count_eq_iff.mp whole s)
  rw [sound.count_eq]
  exact lifetimeScheme.ncard_live_le _

theorem getMutOrDefault_eq (write : TaskLifetime → TaskLifetime) :
    t.lifetimeGetMutOrDefault pid write =
      match lifetimeScheme.claim t.lifetimePids pid with
      | .held s => { t with
          lifetimeTable := Function.update t.lifetimeTable s (write (t.lifetimeTable s)) }
      | .fresh s => ⟨Function.update t.lifetimePids s pid,
          Function.update t.lifetimeTable s (write {})⟩ := by
  unfold lifetimeGetMutOrDefault lifetimeFindOrInsertSlot
  cases lifetimeScheme.claim t.lifetimePids pid with
  | held s => rfl
  | fresh s =>
    dsimp only
    rw [Function.update_self, Function.update_idem]

theorem Sound.write_held (sound : t.Sound) (positive : Positive pid) {s : Fin tableSize}
    (stored : t.lifetimePids s = pid) (write : TaskLifetime → TaskLifetime) :
    RecordsStep t.lifetimeGet (.getMutOrDefault pid write) (lifetimeGet { t with
      lifetimeTable := Function.update t.lifetimeTable s (write (t.lifetimeTable s)) }) := by
  have after : lifetimeGet { t with
        lifetimeTable := Function.update t.lifetimeTable s (write (t.lifetimeTable s)) } =
      Function.update t.lifetimeGet pid (some (write (t.lifetimeTable s))) :=
    get_eq_update positive fun _ positiveQ =>
      sound.slots.lookup_write positive.live stored _ positiveQ.live
  rw [after]
  exact .write pid write _ (sound.get_stored positive stored)

theorem Sound.write_free (sound : t.Sound) (positive : Positive pid)
    (absent : ∀ r, t.lifetimePids r ≠ pid) {s : Fin tableSize}
    (blank : ¬ lifetimeScheme.Live (t.lifetimePids s))
    (reach : lifetimeScheme.Reaches t.lifetimePids (probes (lifetimeScheme.home pid)) s)
    (write : TaskLifetime → TaskLifetime) :
    RecordsStep t.lifetimeGet (.getMutOrDefault pid write) (lifetimeGet
      ⟨Function.update t.lifetimePids s pid, Function.update t.lifetimeTable s (write {})⟩) := by
  have step := RecordsStep.insert pid write (sound.get_absent absent) (sound.count_lt blank)
  refine Eq.mp (congrArg _ (funext fun q => ?_)) step
  rw [sound.get_put absent positive reach, Function.update_apply]
  by_cases own : q = pid
  · rw [if_pos own, if_pos own]
  · rw [if_neg own, if_neg own]
    by_cases here : q = t.lifetimePids s
    · rw [if_pos here, lifetimeGet_not_positive fun positiveQ => blank (here ▸ positiveQ.live)]
    · rw [if_neg here]

/-- Without a free slot the record of the PID in the home slot goes, and no other. -/
theorem Sound.write_full (sound : t.Sound) (positive : Positive pid)
    (absent : ∀ r, t.lifetimePids r ≠ pid)
    (full : ∀ r, lifetimeScheme.Live (t.lifetimePids r)) (write : TaskLifetime → TaskLifetime) :
    RecordsStep t.lifetimeGet (.getMutOrDefault pid write) (lifetimeGet
      ⟨Function.update t.lifetimePids (lifetimeScheme.home pid) pid,
        Function.update t.lifetimeTable (lifetimeScheme.home pid) (write {})⟩) := by
  have whole := sound.count_eq_iff.mpr full
  generalize home_eq : lifetimeScheme.home pid = home
  have reach : lifetimeScheme.Reaches t.lifetimePids (probes (lifetimeScheme.home pid)) home :=
    home_eq ▸ Scheme.reaches_home _
  have positiveV := sound.positive home (full home)
  have victim : t.lifetimeGet (t.lifetimePids home) ≠ Option.none := by
    rw [sound.get_stored positiveV rfl]
    exact Option.some_ne_none _
  have step := RecordsStep.displace pid (t.lifetimePids home) write (sound.get_absent absent) whole
    (absent home) victim
  refine Eq.mp (congrArg _ (funext fun q => ?_)) step
  rw [sound.get_put absent positive reach, Function.update_apply, Function.update_apply]

theorem Sound.getMutOrDefault (sound : t.Sound) (positive : Positive pid)
    (write : TaskLifetime → TaskLifetime) :
    (t.lifetimeGetMutOrDefault pid write).Sound ∧
      RecordsStep t.lifetimeGet (.getMutOrDefault pid write)
        (t.lifetimeGetMutOrDefault pid write).lifetimeGet := by
  have claims := sound.slots.claim (k := pid) positive.live
  rw [getMutOrDefault_eq]
  generalize lifetimeScheme.claim t.lifetimePids pid = claimed at claims ⊢
  cases claims with
  | held s stored => exact ⟨⟨sound.slots, sound.positive⟩, sound.write_held positive stored write⟩
  | free s absent blank reach =>
    exact ⟨sound.put absent positive reach _, sound.write_free positive absent blank reach write⟩
  | full absent full =>
    exact ⟨sound.put absent positive (Scheme.reaches_home _) _,
      sound.write_full positive absent full write⟩

theorem Sound.evict (sound : t.Sound) (positive : Positive pid) :
    (t.lifetimeEvict pid).Sound ∧
      RecordsStep t.lifetimeGet (.evict pid) (t.lifetimeEvict pid).lifetimeGet := by
  unfold lifetimeEvict
  cases found : t.lifetimeFindSlot pid with
  | none =>
    refine ⟨sound, ?_⟩
    have absent : t.lifetimeGet pid = none := by
      rw [lifetimeGet, found]
      rfl
    have step := RecordsStep.evict (m := t.lifetimeGet) pid
    rwa [← absent, Function.update_eq_self] at step
  | some s =>
    have stored := (sound.slots.find_iff positive.live).mp found
    refine ⟨⟨sound.slots.evict s, fun r live => ?_⟩, ?_⟩
    · have other : r ≠ s := fun here => live.2 (by rw [here]; exact Function.update_self ..)
      dsimp only at live ⊢
      rw [Function.update_of_ne other] at live ⊢
      exact sound.positive r live
    · have after : lifetimeGet ⟨Function.update t.lifetimePids s pidTombstone,
          Function.update t.lifetimeTable s {}⟩ = Function.update t.lifetimeGet pid none :=
        get_eq_update positive fun _ positiveQ =>
          sound.slots.lookup_evict positive.live stored _ positiveQ.live
      rw [after]
      exact .evict pid

theorem Sound.get_evict (sound : t.Sound) (positive : Positive pid) :
    (t.lifetimeEvict pid).lifetimeGet = Function.update t.lifetimeGet pid none := by
  obtain ⟨_, step⟩ := sound.evict positive
  generalize (t.lifetimeEvict pid).lifetimeGet = after at step
  cases step
  rfl

theorem Sound.applied (sound : t.Sound) {op : LifetimeOp} (positive : Positive op.pid) :
    (t.apply op).Sound ∧ RecordsStep t.lifetimeGet op (t.apply op).lifetimeGet := by
  cases op with
  | getMutOrDefault pid write =>
    exact sound.getMutOrDefault positive write
  | evict pid =>
    have evicted := sound.evict positive
    exact evicted

theorem Sound.foldl (sound : t.Sound) {ops : List LifetimeOp}
    (positive : ∀ op ∈ ops, Positive op.pid) :
    (ops.foldl apply t).Sound ∧
      Run RecordsStep t.lifetimeGet ops (ops.foldl apply t).lifetimeGet := by
  induction ops generalizing t with
  | nil => exact ⟨sound, .nil _⟩
  | cons op ops ih =>
    obtain ⟨first, rest⟩ := List.forall_mem_cons.mp positive
    obtain ⟨sound, step⟩ := sound.applied first
    obtain ⟨sound, run⟩ := ih sound rest
    exact ⟨sound, .cons step run⟩

theorem init_get (pid : Pid) : init.lifetimeGet pid = none := by
  by_cases positive : Positive pid
  · exact sound_init.get_absent fun _ same => positive.ne_empty same.symm
  · exact lifetimeGet_not_positive positive

/-- Only a full table loses the record of another PID to an insertion, and then one. -/
theorem Sound.lost (sound : t.Sound) (positive : Positive pid) (write : TaskLifetime → TaskLifetime)
    {q : Pid} (other : q ≠ pid) (stored : t.lifetimeGet q ≠ none)
    (lost : (t.lifetimeGetMutOrDefault pid write).lifetimeGet q = none) :
    (∀ s, Positive (t.lifetimePids s) ∧ t.lifetimePids s ≠ pid) ∧
      ∀ r, r ≠ pid → r ≠ q →
        (t.lifetimeGetMutOrDefault pid write).lifetimeGet r = t.lifetimeGet r := by
  obtain ⟨_, step⟩ := sound.getMutOrDefault positive write
  generalize (t.lifetimeGetMutOrDefault pid write).lifetimeGet = after at step lost ⊢
  cases step with
  | write pid write r old =>
    rw [Function.update_of_ne other] at lost
    exact absurd lost stored
  | insert pid write none room =>
    rw [Function.update_of_ne other] at lost
    exact absurd lost stored
  | displace pid victim write none whole differs held =>
    have full := sound.count_eq_iff.mp whole
    have here : q = victim := by
      by_contra differs
      rw [Function.update_of_ne other, Function.update_of_ne differs] at lost
      exact stored lost
    refine ⟨fun s => ⟨sound.positive s (full s), fun same => ?_⟩, fun r first second => ?_⟩
    · rw [sound.get_stored positive same] at none
      cases none
    · rw [Function.update_of_ne first, Function.update_of_ne (here ▸ second)]

end Lifetimes

/-- After any operations on positive PIDs the table is a map that holds `tableSize` records
at most. -/
theorem lifetimes_bounded_map (ops : List LifetimeOp) (positive : ∀ op ∈ ops, Positive op.pid) :
    let t := Lifetimes.run ops
    (∀ s r, Positive (t.lifetimePids s) → t.lifetimePids s = t.lifetimePids r → s = r) ∧
      (∀ s, Positive (t.lifetimePids s) → t.lifetimeFindSlot (t.lifetimePids s) = some s) ∧
      Run RecordsStep (fun _ => none) ops t.lifetimeGet ∧
      ∀ pid write q, Positive pid → q ≠ pid → t.lifetimeGet q ≠ none →
        (t.lifetimeGetMutOrDefault pid write).lifetimeGet q = none →
        (∀ s, Positive (t.lifetimePids s) ∧ t.lifetimePids s ≠ pid) ∧
          ∀ r, r ≠ pid → r ≠ q →
            (t.lifetimeGetMutOrDefault pid write).lifetimeGet r = t.lifetimeGet r := by
  obtain ⟨sound, run⟩ := Lifetimes.sound_init.foldl positive
  rw [funext Lifetimes.init_get] at run
  refine ⟨fun s r positive => sound.slots.unique s r positive.live, fun s positive => ?_, run,
    fun pid write q positive other stored lost => sound.lost positive write other stored lost⟩
  exact (sound.slots.find_iff positive.live).mpr rfl

/-- PIDs 2 and 2586 hash to the same slot. -/
theorem lifetimes_bounded_map_collision :
    let ops := [.getMutOrDefault 2 id, .getMutOrDefault 2586 id, .evict 2]
    Run RecordsStep (fun _ => none) ops (Lifetimes.run ops).lifetimeGet :=
  (lifetimes_bounded_map _ (by decide)).2.2.1

end Cognis.Reputation

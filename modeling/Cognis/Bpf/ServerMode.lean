import Mathlib.Algebra.BigOperators.Group.Finset.Piecewise
import Mathlib.Algebra.Order.BigOperators.Group.Finset
import Cognis.Bpf.SpillBounds

/-! The same placements made in server mode and in desktop mode: server mode leaves
fewer tasks in the near queues and more in the shared one. -/
namespace Cognis.Bpf
open StateLogic

/-- A task to be queued for `prevCpu`. Slice and deadline follow from the depth of the
queues, so they may depend on the mode. -/
structure Placement where
  p : Nat
  prevCpu : Int
  slice : Bool → U64
  vtime : Bool → U64
  enqFlags : U64

def Rodata.inMode (ro : Rodata) (server : Bool) : Rodata := { ro with serverMode := server }

section

variable (ro : Rodata)

def place (a : Placement) : BpfM Unit := do
  let targetDsq ← overflowDsq ro a.prevCpu
  scxBpfDsqInsertVtime a.p targetDsq (a.slice ro.serverMode) (a.vtime ro.serverMode) a.enqFlags

def placeAll (as : List Placement) (k : Kernel) : Kernel :=
  as.foldl (fun k a => ((place ro a).run k).2) k

/-- `server` has spilled at least as much as `desktop` has. -/
structure SpillsSooner (n : Nat) (server desktop : Kernel) : Prop where
  shared : (desktop.dsq sharedDsq).length ≤ (server.dsq sharedDsq).length
  llc : ∀ i < ro.nrLlcs, (server.dsq (llcToDsq i)).length ≤ (desktop.dsq (llcToDsq i)).length
  cpu : ∀ cpu, isCpuValid n cpu = true →
    server.dsq (cpuToDsq n cpu) = desktop.dsq (cpuToDsq n cpu)

theorem llcSpillThreshold_server (n : Nat) :
    llcSpillThreshold (ro.inMode true) n ≤ llcSpillThreshold (ro.inMode false) n := by
  simp only [llcSpillThreshold, Rodata.inMode, if_true, Bool.false_eq_true, if_false]
  omega

theorem nodeSpillThreshold_server (n : Nat) :
    nodeSpillThreshold (ro.inMode true) n ≤ nodeSpillThreshold (ro.inMode false) n := by
  simp only [nodeSpillThreshold, Rodata.inMode, if_true, Bool.false_eq_true, if_false]
  omega

/-- Room for the tasks of one node before the shared queue; a single node has no queue. -/
def nodeRoom (nrOnlineCpus : Nat) : Nat :=
  if ro.nrNodes > 1 then nodeSpillThreshold ro nrOnlineCpus else 0

theorem nodeRoom_server (n : Nat) :
    nodeRoom (ro.inMode true) n ≤ nodeRoom (ro.inMode false) n := by
  have inMode : ∀ server, nodeRoom (ro.inMode server) n =
      if ro.nrNodes > 1 then nodeSpillThreshold (ro.inMode server) n else 0 := fun _ => rfl
  rw [inMode, inMode]
  split
  · exact nodeSpillThreshold_server ro n
  · exact Nat.le_refl 0

/-- What lies beyond the LLC tier when `reached j` tasks of node `j` came that far. -/
structure Tally (k : Kernel) (reached : Nat → Nat) : Prop where
  node : ro.nrNodes > 1 → ∀ j < ro.nrNodes,
    (k.dsq (nodeToDsq j)).length = min (reached j) (nodeSpillThreshold ro k.nrOnlineCpus)
  shared : (k.dsq sharedDsq).length =
    ∑ j ∈ Finset.range ro.nrNodes, (reached j - nodeRoom ro k.nrOnlineCpus)

/-- A task for `cpu` finds no room up to the LLC tier. -/
structure PastLlc (k : Kernel) (cpu : Int) : Prop where
  valid : isCpuValid k.nrCpuIds cpu = true
  cpuFull : cpuSpillThreshold ≤ (k.dsq (cpuToDsq k.nrCpuIds cpu)).length
  llcFull : llcSpillThreshold ro k.nrOnlineCpus ≤ (k.dsq (cpuLlcDsq ro k.nrCpuIds cpu)).length

/-- `a` went to `target`, which `overflow_dsq` chose. -/
structure Placed (a : Placement) (k : Kernel) (target : Nat) (k' : Kernel) : Prop where
  overflows : Overflows ro k a.prevCpu target
  grown : ∃ vtimeOf, k'.dsq target = insertByVtime vtimeOf a.p (k.dsq target)
  others : ∀ q, q ≠ target → k'.dsq q = k.dsq q
  nrCpuIds : k'.nrCpuIds = k.nrCpuIds
  nrOnlineCpus : k'.nrOnlineCpus = k.nrOnlineCpus

theorem place_placed (a : Placement) (k : Kernel) :
    ∃ target, Placed ro a k target ((place ro a).run k).2 := by
  obtain ⟨target, qs, run, overflows, _⟩ := overflowDsq_run ro a.prevCpu k
  refine ⟨target, overflows, ?_, ?_, ?_, ?_⟩
  all_goals simp only [place, run_then, run, scxBpfDsqInsertVtime, run_modifyState]
  · exact ⟨_, Function.update_self ..⟩
  · exact fun q other => Function.update_of_ne other ..
  · rfl
  · rfl

/-- One more task came past the LLC tier on node `j`. -/
def oneMore (reached : Nat → Nat) (j : Nat) : Nat → Nat := Function.update reached j (reached j + 1)

theorem oneMore_self (reached : Nat → Nat) (j : Nat) : oneMore reached j j = reached j + 1 :=
  Function.update_self ..

theorem oneMore_of_ne (reached : Nat → Nat) {i j : Nat} (other : i ≠ j) :
    oneMore reached j i = reached i := Function.update_of_ne other ..

/-- It spills if the node has no room. -/
theorem sum_spilled_oneMore (reached : Nat → Nat) (room : Nat) {j n : Nat} (inside : j < n) :
    ∑ i ∈ Finset.range n, (oneMore reached j i - room) =
      ∑ i ∈ Finset.range n, (reached i - room) + if room ≤ reached j then 1 else 0 := by
  have member : j ∈ Finset.range n := Finset.mem_range.mpr inside
  have rest : ∑ i ∈ (Finset.range n).erase j, (oneMore reached j i - room) =
      ∑ i ∈ (Finset.range n).erase j, (reached i - room) := by
    apply Finset.sum_congr rfl
    intro i other
    rw [oneMore_of_ne reached (Finset.ne_of_mem_erase other)]
  rw [← Finset.add_sum_erase _ _ member,
    ← Finset.add_sum_erase _ (fun i => reached i - room) member, rest, oneMore_self]
  split <;> omega

end

section

variable {ro : Rodata} {a : Placement} {k k' : Kernel} {target : Nat}

theorem Placed.length (h : Placed ro a k target k') :
    (k'.dsq target).length = (k.dsq target).length + 1 := by
  obtain ⟨vtimeOf, grown⟩ := h.grown
  rw [grown, length_insertByVtime]

theorem Placed.target_cpu (h : Placed ro a k target k')
    (valid : isCpuValid k.nrCpuIds a.prevCpu = true)
    (room : (k.dsq (cpuToDsq k.nrCpuIds a.prevCpu)).length < cpuSpillThreshold) :
    target = cpuToDsq k.nrCpuIds a.prevCpu := by
  cases h.overflows with
  | invalid invalid => rw [valid] at invalid; cases invalid
  | cpu _ _ => rfl
  | llc _ full _ => omega
  | node _ full _ _ _ => omega
  | shared _ full _ _ => omega

theorem Placed.target_llc (h : Placed ro a k target k')
    (valid : isCpuValid k.nrCpuIds a.prevCpu = true)
    (full : cpuSpillThreshold ≤ (k.dsq (cpuToDsq k.nrCpuIds a.prevCpu)).length)
    (room : (k.dsq (cpuLlcDsq ro k.nrCpuIds a.prevCpu)).length <
      llcSpillThreshold ro k.nrOnlineCpus) :
    target = cpuLlcDsq ro k.nrCpuIds a.prevCpu := by
  cases h.overflows with
  | invalid invalid => rw [valid] at invalid; cases invalid
  | cpu _ room => omega
  | llc _ _ _ => rfl
  | node _ _ llcFull _ _ => omega
  | shared _ _ llcFull _ => omega

theorem Placed.target_past (h : Placed ro a k target k') (past : PastLlc ro k a.prevCpu) :
    target = cpuNodeDsq ro k.nrCpuIds a.prevCpu ∧ ro.nrNodes > 1 ∧
        (k.dsq (cpuNodeDsq ro k.nrCpuIds a.prevCpu)).length <
          nodeSpillThreshold ro k.nrOnlineCpus ∨
      target = sharedDsq ∧ (ro.nrNodes > 1 → nodeSpillThreshold ro k.nrOnlineCpus ≤
        (k.dsq (cpuNodeDsq ro k.nrCpuIds a.prevCpu)).length) := by
  obtain ⟨valid, full, llcFull⟩ := past
  cases h.overflows with
  | invalid invalid => rw [valid] at invalid; cases invalid
  | cpu _ room => omega
  | llc _ _ room => omega
  | node _ _ _ multi room => exact .inl ⟨rfl, multi, room⟩
  | shared _ _ _ nodeFull => exact .inr ⟨rfl, nodeFull⟩

theorem Tally.near {reached : Nat → Nat} (tally : Tally ro k reached)
    (h : Placed ro a k target k') (near : target ≠ sharedDsq ∧ target < nodeDsqBase) :
    Tally ro k' reached := by
  refine ⟨fun multi j inside => ?_, ?_⟩
  · have other : nodeToDsq j ≠ target := by
      simp only [nodeToDsq]
      omega
    rw [h.others _ other, h.nrOnlineCpus]
    exact tally.node multi j inside
  · rw [h.others _ near.1.symm, h.nrOnlineCpus]
    exact tally.shared

theorem Tally.toNode {reached : Nat → Nat} {n : Nat} (tally : Tally ro k reached)
    (h : Placed ro a k (nodeToDsq n) k') (inside : n < ro.nrNodes) (multi : ro.nrNodes > 1)
    (room : (k.dsq (nodeToDsq n)).length < nodeSpillThreshold ro k.nrOnlineCpus) :
    Tally ro k' (oneMore reached n) := by
  have depth := tally.node multi n inside
  refine ⟨fun _ j below => ?_, ?_⟩
  · rw [h.nrOnlineCpus]
    by_cases same : j = n
    · rw [same, h.length, oneMore_self, depth]
      omega
    · have other : nodeToDsq j ≠ nodeToDsq n := by simpa [nodeToDsq] using same
      rw [h.others _ other, oneMore_of_ne reached same]
      exact tally.node multi j below
  · have fits : ¬ nodeRoom ro k.nrOnlineCpus ≤ reached n := by
      rw [nodeRoom, if_pos multi]
      omega
    rw [h.nrOnlineCpus, h.others _ (sharedDsq_lt_node n).ne,
      sum_spilled_oneMore reached _ inside, if_neg fits]
    exact tally.shared

theorem Tally.toShared {reached : Nat → Nat} {n : Nat} (tally : Tally ro k reached)
    (h : Placed ro a k sharedDsq k') (inside : n < ro.nrNodes)
    (nodeFull : ro.nrNodes > 1 →
      nodeSpillThreshold ro k.nrOnlineCpus ≤ (k.dsq (nodeToDsq n)).length) :
    Tally ro k' (oneMore reached n) := by
  have spills : ro.nrNodes > 1 → nodeSpillThreshold ro k.nrOnlineCpus ≤ reached n := fun multi => by
    have depth := tally.node multi n inside
    have full := nodeFull multi
    omega
  refine ⟨fun multi j below => ?_, ?_⟩
  · rw [h.nrOnlineCpus, h.others _ (sharedDsq_lt_node j).ne', tally.node multi j below]
    by_cases same : j = n
    · have full := spills multi
      rw [same, oneMore_self]
      omega
    · rw [oneMore_of_ne reached same]
  · have noRoom : nodeRoom ro k.nrOnlineCpus ≤ reached n := by
      unfold nodeRoom
      split
      · exact spills ‹_›
      · exact Nat.zero_le _
    rw [h.nrOnlineCpus, h.length, sum_spilled_oneMore reached _ inside, if_pos noRoom, tally.shared]

/-- A task that finds the LLC tier full counts for the node of its CPU. -/
theorem Tally.past {reached : Nat → Nat} (tally : Tally ro k reached) (h : Placed ro a k target k')
    (past : PastLlc ro k a.prevCpu) :
    Tally ro k' (oneMore reached (cpuNodeIdxFor ro k.nrCpuIds a.prevCpu)) := by
  have inside := cpuNodeIdxFor_lt ro k.nrCpuIds a.prevCpu
  rcases h.target_past past with ⟨rfl, multi, room⟩ | ⟨rfl, nodeFull⟩
  · exact tally.toNode h inside multi room
  · exact tally.toShared h inside nodeFull

theorem Placed.near_kept (h : Placed ro a k target k') (past : PastLlc ro k a.prevCpu) {q : Nat}
    (near : q ≠ sharedDsq ∧ q < nodeDsqBase) : k'.dsq q = k.dsq q := by
  apply h.others
  rcases h.target_past past with ⟨rfl, _⟩ | ⟨rfl, _⟩
  · simp only [cpuNodeDsq, nodeToDsq]
    omega
  · exact near.1

/-- An LLC queue of server mode is no deeper, and has not spilled while it has room. -/
def NoDeeper (room server desktop : Nat) : Prop :=
  server ≤ desktop ∧ (server < room → server = desktop)

/-- The same placements made in both modes, server mode ahead in spilling. -/
structure Ahead (ro : Rodata) (server desktop : Kernel) : Prop where
  nrCpuIds : desktop.nrCpuIds = server.nrCpuIds
  nrOnlineCpus : desktop.nrOnlineCpus = server.nrOnlineCpus
  cpu : ∀ q < sharedDsq, server.dsq q = desktop.dsq q
  llc : ∀ i < ro.nrLlcs, NoDeeper (llcSpillThreshold (ro.inMode true) server.nrOnlineCpus)
    (server.dsq (llcToDsq i)).length (desktop.dsq (llcToDsq i)).length
  beyond : ∃ reached reached' : Nat → Nat, Tally (ro.inMode true) server reached ∧
    Tally (ro.inMode false) desktop reached' ∧ reached' ≤ reached

end

section

variable {ro : Rodata} {a : Placement} {s s' d d' : Kernel} {target target' : Nat}

theorem Ahead.spillsSooner (h : Ahead ro s d) : SpillsSooner ro s.nrCpuIds s d := by
  refine ⟨?_, fun i inside => (h.llc i inside).1, fun cpu valid => h.cpu _ (cpuToDsq_lt valid)⟩
  obtain ⟨reached, reached', server, desktop, more⟩ := h.beyond
  rw [server.shared, desktop.shared, h.nrOnlineCpus]
  apply Finset.sum_le_sum
  intro j _
  exact tsub_le_tsub (more j) (nodeRoom_server ro _)

theorem llc_near {i : Nat} (inside : i < ro.nrLlcs) :
    llcToDsq i ≠ sharedDsq ∧ llcToDsq i < nodeDsqBase :=
  ⟨(sharedDsq_lt_llc i).ne', llcToDsq_lt_node (Nat.lt_of_lt_of_le inside ro.llcs_le) 0⟩

theorem cpu_near {q : Nat} (low : q < sharedDsq) : q ≠ sharedDsq ∧ q < nodeDsqBase :=
  ⟨low.ne, low.trans (sharedDsq_lt_node 0)⟩

/-- What is left to show of one placement in each mode. -/
theorem Ahead.placed (h : Ahead ro s d) (server : Placed (ro.inMode true) a s target s')
    (desktop : Placed (ro.inMode false) a d target' d')
    (cpu : ∀ q < sharedDsq, s'.dsq q = d'.dsq q)
    (llc : ∀ i < ro.nrLlcs, NoDeeper (llcSpillThreshold (ro.inMode true) s.nrOnlineCpus)
      (s'.dsq (llcToDsq i)).length (d'.dsq (llcToDsq i)).length)
    (beyond : ∃ reached reached' : Nat → Nat, Tally (ro.inMode true) s' reached ∧
      Tally (ro.inMode false) d' reached' ∧ reached' ≤ reached) : Ahead ro s' d' := by
  refine ⟨?_, ?_, cpu, ?_, beyond⟩
  · rw [desktop.nrCpuIds, server.nrCpuIds, h.nrCpuIds]
  · rw [desktop.nrOnlineCpus, server.nrOnlineCpus, h.nrOnlineCpus]
  · rwa [server.nrOnlineCpus]

/-- Both modes place the task in the queue of its CPU. -/
theorem Ahead.own (h : Ahead ro s d) {q : Nat} (low : q < sharedDsq) (empty : s.dsq q = [])
    (server : Placed (ro.inMode true) a s q s') (desktop : Placed (ro.inMode false) a d q d') :
    Ahead ro s' d' := by
  refine h.placed server desktop (fun r below => ?_) (fun i inside => ?_) ?_
  · by_cases same : r = q
    · obtain ⟨vtimeOf, grown⟩ := server.grown
      obtain ⟨vtimeOf', grown'⟩ := desktop.grown
      rw [same, grown, grown', ← h.cpu q low, empty]
      rfl
    · rw [server.others r same, desktop.others r same]
      exact h.cpu r below
  · have other : llcToDsq i ≠ q := (low.trans (sharedDsq_lt_llc i)).ne'
    rw [server.others _ other, desktop.others _ other]
    exact h.llc i inside
  · obtain ⟨reached, reached', tally, tally', more⟩ := h.beyond
    exact ⟨reached, reached', tally.near server (cpu_near low), tally'.near desktop (cpu_near low),
      more⟩

theorem Ahead.sameLlc (h : Ahead ro s d) {i : Nat} (inside : i < ro.nrLlcs)
    (room : (s.dsq (llcToDsq i)).length < llcSpillThreshold (ro.inMode true) s.nrOnlineCpus)
    (server : Placed (ro.inMode true) a s (llcToDsq i) s')
    (desktop : Placed (ro.inMode false) a d (llcToDsq i) d') : Ahead ro s' d' := by
  refine h.placed server desktop (fun r below => ?_) (fun j jInside => ?_) ?_
  · have other : r ≠ llcToDsq i := (below.trans (sharedDsq_lt_llc i)).ne
    rw [server.others r other, desktop.others r other]
    exact h.cpu r below
  · by_cases same : j = i
    · have level := (h.llc i inside).2 room
      rw [same, server.length, desktop.length, level]
      exact ⟨Nat.le_refl _, fun _ => rfl⟩
    · have other : llcToDsq j ≠ llcToDsq i := by simpa [llcToDsq] using same
      rw [server.others _ other, desktop.others _ other]
      exact h.llc j jInside
  · obtain ⟨reached, reached', tally, tally', more⟩ := h.beyond
    exact ⟨reached, reached', tally.near server (llc_near inside),
      tally'.near desktop (llc_near inside), more⟩

/-- Only desktop mode has room in the LLC queue: server mode is one task further out. -/
theorem Ahead.spills (h : Ahead ro s d) (past : PastLlc (ro.inMode true) s a.prevCpu)
    (server : Placed (ro.inMode true) a s target s')
    (desktop : Placed (ro.inMode false) a d (cpuLlcDsq ro s.nrCpuIds a.prevCpu) d') :
    Ahead ro s' d' := by
  have inside := cpuLlcIdxFor_lt ro s.nrCpuIds a.prevCpu
  have kept : ∀ q, q ≠ sharedDsq ∧ q < nodeDsqBase → s'.dsq q = s.dsq q := fun q near =>
    server.near_kept past near
  have llcFull := past.llcFull
  unfold cpuLlcDsq at desktop
  refine h.placed server desktop (fun r below => ?_) (fun j jInside => ?_) ?_
  · have other : r ≠ llcToDsq (cpuLlcIdxFor ro s.nrCpuIds a.prevCpu) :=
      (below.trans (sharedDsq_lt_llc _)).ne
    rw [kept r (cpu_near below), desktop.others r other]
    exact h.cpu r below
  · rw [kept _ (llc_near jInside)]
    by_cases same : j = cpuLlcIdxFor ro s.nrCpuIds a.prevCpu
    · rw [same, desktop.length]
      exact ⟨Nat.le_succ_of_le (h.llc _ inside).1, fun room => absurd room (Nat.not_lt.mpr llcFull)⟩
    · have other : llcToDsq j ≠ llcToDsq (cpuLlcIdxFor ro s.nrCpuIds a.prevCpu) := by
        simpa [llcToDsq] using same
      rw [desktop.others _ other]
      exact h.llc j jInside
  · obtain ⟨reached, reached', tally, tally', more⟩ := h.beyond
    exact ⟨_, reached', tally.past server past,
      tally'.near desktop (llc_near inside), more.trans (le_update_self_iff.mpr (Nat.le_succ _))⟩

theorem Ahead.bothSpill (h : Ahead ro s d) (past : PastLlc (ro.inMode true) s a.prevCpu)
    (past' : PastLlc (ro.inMode false) d a.prevCpu)
    (server : Placed (ro.inMode true) a s target s')
    (desktop : Placed (ro.inMode false) a d target' d') : Ahead ro s' d' := by
  have kept : ∀ q, q ≠ sharedDsq ∧ q < nodeDsqBase → s'.dsq q = s.dsq q := fun q near =>
    server.near_kept past near
  have kept' : ∀ q, q ≠ sharedDsq ∧ q < nodeDsqBase → d'.dsq q = d.dsq q := fun q near =>
    desktop.near_kept past' near
  refine h.placed server desktop (fun r below => ?_) (fun j jInside => ?_) ?_
  · rw [kept r (cpu_near below), kept' r (cpu_near below)]
    exact h.cpu r below
  · rw [kept _ (llc_near jInside), kept' _ (llc_near jInside)]
    exact h.llc j jInside
  · obtain ⟨reached, reached', tally, tally', more⟩ := h.beyond
    have spilled := tally'.past desktop past'
    rw [h.nrCpuIds] at spilled
    exact ⟨_, _, tally.past server past, spilled,
      update_le_update_iff.mpr ⟨Nat.succ_le_succ (more _), fun i _ => more i⟩⟩

theorem Ahead.place (h : Ahead ro s d) (valid : isCpuValid s.nrCpuIds a.prevCpu = true) :
    Ahead ro ((place (ro.inMode true) a).run s).2 ((place (ro.inMode false) a).run d).2 := by
  obtain ⟨target, server⟩ := place_placed (ro.inMode true) a s
  obtain ⟨target', desktop⟩ := place_placed (ro.inMode false) a d
  have valid' : isCpuValid d.nrCpuIds a.prevCpu = true := h.nrCpuIds ▸ valid
  have low := cpuToDsq_lt valid
  have own : d.dsq (cpuToDsq d.nrCpuIds a.prevCpu) = s.dsq (cpuToDsq s.nrCpuIds a.prevCpu) := by
    rw [h.nrCpuIds]
    exact (h.cpu _ low).symm
  rcases Nat.lt_or_ge (s.dsq (cpuToDsq s.nrCpuIds a.prevCpu)).length cpuSpillThreshold with
    room | full
  · have chosen := server.target_cpu valid room
    have chosen' := desktop.target_cpu valid' (own ▸ room)
    rw [h.nrCpuIds] at chosen'
    subst chosen chosen'
    exact h.own low (List.length_eq_zero_iff.mp (Nat.lt_one_iff.mp room)) server desktop
  have full' : cpuSpillThreshold ≤ (d.dsq (cpuToDsq d.nrCpuIds a.prevCpu)).length := own ▸ full
  have inside := cpuLlcIdxFor_lt ro s.nrCpuIds a.prevCpu
  have ahead := h.llc _ inside
  have sooner := llcSpillThreshold_server ro s.nrOnlineCpus
  rcases Nat.lt_or_ge (s.dsq (cpuLlcDsq ro s.nrCpuIds a.prevCpu)).length
    (llcSpillThreshold (ro.inMode true) s.nrOnlineCpus) with room | llcFull
  · -- With room in server mode the queue is equally deep in desktop mode.
    have level := ahead.2 room
    have room' : (d.dsq (cpuLlcDsq ro d.nrCpuIds a.prevCpu)).length <
        llcSpillThreshold (ro.inMode false) d.nrOnlineCpus := by
      rw [h.nrCpuIds, h.nrOnlineCpus, cpuLlcDsq, ← level]
      exact Nat.lt_of_lt_of_le room sooner
    have chosen := server.target_llc valid full room
    have chosen' := desktop.target_llc valid' full' room'
    rw [h.nrCpuIds] at chosen'
    subst chosen chosen'
    exact h.sameLlc inside room server desktop
  rcases Nat.lt_or_ge (d.dsq (cpuLlcDsq ro d.nrCpuIds a.prevCpu)).length
    (llcSpillThreshold (ro.inMode false) d.nrOnlineCpus) with room' | llcFull'
  · have chosen' := desktop.target_llc valid' full' room'
    rw [h.nrCpuIds] at chosen'
    subst chosen'
    exact h.spills ⟨valid, full, llcFull⟩ server desktop
  · exact h.bothSpill ⟨valid, full, llcFull⟩ ⟨valid', full', llcFull'⟩ server desktop

theorem Ahead.placeAll {as : List Placement} (h : Ahead ro s d)
    (valid : ∀ a ∈ as, isCpuValid s.nrCpuIds a.prevCpu = true) :
    Ahead ro (placeAll (ro.inMode true) as s) (placeAll (ro.inMode false) as d) ∧
      (placeAll (ro.inMode true) as s).nrCpuIds = s.nrCpuIds := by
  induction as generalizing s d with
  | nil => exact ⟨h, rfl⟩
  | cons a as ih =>
    obtain ⟨usable, later⟩ := List.forall_mem_cons.mp valid
    obtain ⟨target, placed⟩ := place_placed (ro.inMode true) a s
    have rest := ih (h.place usable) fun b member => by
      rw [placed.nrCpuIds]
      exact later b member
    exact ⟨rest.1, rest.2.trans placed.nrCpuIds⟩

theorem Ahead.start (ro : Rodata) {k : Kernel}
    (empty : ∀ q ∈ taskDsqs ro k.nrCpuIds, k.dsq q = []) :
    Ahead ro k k := by
  have tally : ∀ server, Tally (ro.inMode server) k fun _ => 0 := by
    refine fun server => ⟨fun _ j inside => ?_, ?_⟩
    · rw [empty _ (nodeToDsq_mem ro _ inside), Nat.zero_min]
      rfl
    · rw [empty _ (sharedDsq_mem ro _)]
      simp
  exact ⟨rfl, rfl, fun _ _ => rfl, fun _ _ => ⟨Nat.le_refl _, fun _ => rfl⟩,
    _, _, tally true, tally false, fun _ => Nat.le_refl _⟩

end

/-- After every prefix of the same placements, made from empty queues in both modes, server
mode has at least as many tasks in the shared queue and at most as many in each LLC queue. -/
theorem server_spills_sooner (ro : Rodata) {k : Kernel}
    (empty : ∀ q ∈ taskDsqs ro k.nrCpuIds, k.dsq q = []) {as : List Placement}
    (valid : ∀ a ∈ as, isCpuValid k.nrCpuIds a.prevCpu = true) :
    ∀ done, done <+: as → SpillsSooner ro k.nrCpuIds
      (placeAll (ro.inMode true) done k) (placeAll (ro.inMode false) done k) := by
  intro done early
  have usable : ∀ a ∈ done, isCpuValid k.nrCpuIds a.prevCpu = true := fun a member =>
    valid a (early.subset member)
  have runs := (Ahead.start ro empty).placeAll usable
  exact runs.2 ▸ runs.1.spillsSooner

def twoCpus : Kernel :=
  { Kernel.boot fun _ => .waiting (fun _ => true) 0 with nrCpuIds := 2, nrOnlineCpus := 2 }

/-- Three tasks for CPU 0: the last one stays in the LLC queue in desktop mode only. -/
def threeTasks : List Placement :=
  [7, 8, 9].map fun p => ⟨p, 0, fun _ => 1, fun _ => 1, 0⟩

theorem server_spills_sooner_threeTasks : SpillsSooner (Rodata.kernelOnly .flat) 2
    (placeAll ((Rodata.kernelOnly .flat).inMode true) threeTasks twoCpus)
    (placeAll ((Rodata.kernelOnly .flat).inMode false) threeTasks twoCpus) := by
  refine server_spills_sooner (Rodata.kernelOnly .flat) (k := twoCpus) (fun _ _ => rfl)
    (fun a member => ?_) _ (List.prefix_refl threeTasks)
  obtain ⟨p, _, rfl⟩ := List.mem_map.mp member
  rfl

end Cognis.Bpf

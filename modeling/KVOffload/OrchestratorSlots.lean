import KVOffload.OrchestratorRuns
import KVOffload.StoreMemory

/-! Slot conservation over whole runs. Slots are held by the two free lists, the occupancy order and
the residency table; no sequence of operations loses one or gives it out twice. -/

namespace KVOffload
open Base

variable {μ φ ν σ S : Type} [LinearOrder S]

structure SlotsConserved (cfg : OrchestratorConfig) (s : Store μ σ) : Prop where
  cpuFree_nodup : s.cpuFree.Nodup
  cpuSlots : (s.cpuFree ++ heldCpu s.residency).Perm (List.range cfg.numCpuSlots)
  gpu_cpuSlot : ∀ ref loc, s.residency.get ref = some loc → loc.residency = .gpu → loc.cpuSlot = none
  stagingSlots : (s.stagingFree ++ s.lru.values).Perm (List.range cfg.numStagingSlots)
  lru_iff : ∀ ref slot, s.lru.get? ref = some slot ↔ StagedAt s.residency ref slot

theorem StoreInv.slotsConserved {cfg : OrchestratorConfig} {dev : Device μ φ ν S} {K : Backing dev} {s : Store μ σ}
    (h : StoreInv cfg K 0 0 s) : SlotsConserved cfg s := by
  have hcpu : (s.cpuFree ++ heldCpu s.residency).Perm (List.range cfg.numCpuSlots) := by
    have hslots := h.cpuSlots
    rw [add_zero, Multiset.coe_add] at hslots
    exact Multiset.coe_eq_coe.mp hslots
  have hstaging : (s.stagingFree ++ s.lru.values).Perm (List.range cfg.numStagingSlots) := by
    have hslots := h.stagingSlots
    rw [add_zero, Multiset.coe_add] at hslots
    exact Multiset.coe_eq_coe.mp hslots
  have hnodup := hcpu.nodup_iff.mpr List.nodup_range
  exact ⟨(List.nodup_append.mp hnodup).1, hcpu, h.gpu_cpuSlot, hstaging, h.lru_iff⟩

section Runs

variable (cfg : OrchestratorConfig) (dev : Device μ φ ν S) (scorer : BlockScorer σ ν S)

theorem storeOk_step (o : Orchestrator μ σ) (op : Op μ) (h : StoreOk cfg (Backing.trivial dev) o.store)
    (hdistinct : op.Distinct) : StoreOk cfg (Backing.trivial dev) (step cfg dev scorer o op).store := by
  have hpost : StepPost cfg (Backing.trivial dev) scorer o op (step cfg dev scorer o op) :=
    step_post h hdistinct fun _ _ _ _ => True.intro
  exact hpost.storeOk h fun _ _ _ _ _ _ => True.intro

theorem storeOk_run (x : σ) (mem : μ) {ops : List (Op μ)} (hops : ∀ op ∈ ops, op.Distinct) :
    StoreOk cfg (Backing.trivial dev) (run (step cfg dev scorer) (Orchestrator.init cfg x mem) ops).store :=
  run_invariant (I := fun o : Orchestrator μ σ => StoreOk cfg (Backing.trivial dev) o.store)
    (storeOk_step cfg dev scorer) (storeOk_init cfg (Backing.trivial dev) x mem) (along_of_forall_mem hops _)

/-- After every sequence of operations, calls that raise included, every slot is free or held once. -/
theorem slots_conserved (hguard : dev.FaultsGuarded) (x : σ) (mem : μ) {ops : List (Op μ)}
    (hops : ∀ op ∈ ops, op.Distinct) :
    SlotsConserved cfg (run (step cfg dev scorer) (Orchestrator.init cfg x mem) ops).store := by
  obtain ⟨leaked, hleaked, hinv⟩ := storeOk_run cfg dev scorer x mem hops
  rw [hleaked hguard] at hinv
  exact hinv.slotsConserved

end Runs

/-- Two CPU slots, one staging page, pages of two tokens. -/
def smallConfig : OrchestratorConfig where
  offloadFraction := 1 / 2
  numCpuSlots := 2
  numStagingSlots := 1
  window := 2
  pageSize := 2
  gpuBudgetBlocks := 1
  stagingBase := 8
  numCpuSlots_pos := by decide
  numStagingSlots_pos := by decide
  window_pos := by decide
  pageSize_pos := by decide
  pageSize_dvd_window := by decide

abbrev SmallMemory := Memory Nat 1 1 1 1

def blankMemory : SmallMemory := ⟨fun _ _ _ _ _ => 0, fun _ _ _ _ _ _ => 0⟩

/-- Nothing fails. -/
def steadyRuntime : Runtime SmallMemory SmallMemory Unit Nat :=
  stableRuntime (fun _ _ => ()) (fun _ => none) (fun _ => none) fun _ => false

/-- A store at tick 1 and a fetch at tick 3 fail halfway; nothing else does. -/
def faultyRuntime : Runtime SmallMemory SmallMemory Unit Nat :=
  stableRuntime (fun _ _ => ()) (fun tick => if tick = 1 then some (.copy blankMemory) else none)
    (fun tick => if tick = 3 then some blankMemory else none) fun _ => false

theorem faultyRuntime_guarded : (combinedDevice faultyRuntime).FaultsGuarded := by
  intro tick
  simp only [faultyRuntime, combinedDevice, stableRuntime]
  split_ifs <;> simp

def requestA : RequestId := ['a']

def requestB : RequestId := ['b']

/-- One head selects token `n` of the only row. -/
def selectToken (n : Int) : SparsePattern := ⟨1, 1, [⟨[[n]], 1⟩], by simp⟩

def firstToken : SparsePattern := selectToken 0

/-- A request with two full blocks: an offload whose copy fails, one that succeeds, a fetch that fails,
one that succeeds, and cleanup. -/
def slotScenario : List (Op SmallMemory) :=
  let refs : List BlockRef := [⟨requestA, 0⟩, ⟨requestA, 1⟩]
  [.sync requestA [3, 5] 4, .offloadFraction refs (1 / 2) refs.toFinset, .offloadFraction refs (1 / 2) refs.toFinset,
    .ensureResident refs, .ensureResident refs, .requestDone requestA]

theorem slots_conserved_slotScenario :
    SlotsConserved smallConfig
      (run (step smallConfig (combinedDevice faultyRuntime) lruScorer)
        (Orchestrator.init smallConfig ⟨.empty, 0⟩ blankMemory)
        slotScenario).store :=
  slots_conserved smallConfig (combinedDevice faultyRuntime) lruScorer faultyRuntime_guarded ⟨.empty, 0⟩ blankMemory (by
    intro op hop
    simp only [slotScenario, List.mem_cons, List.not_mem_nil, or_false] at hop
    rcases hop with rfl | rfl | rfl | rfl | rfl | rfl <;> simp [Op.Distinct])

example :
    (run (step smallConfig (combinedDevice faultyRuntime) lruScorer)
      (Orchestrator.init smallConfig ⟨.empty, 0⟩ blankMemory)
      (slotScenario.take 5)).store.lru.items = [(⟨requestA, 0⟩, 0)] := by decide +kernel

end KVOffload

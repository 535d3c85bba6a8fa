import KVOffload.BaseProgram
import KVOffload.StoreScorer
import Mathlib.Algebra.Order.Floor.Ring
import Mathlib.Data.Finset.Basic
import Mathlib.Data.Rat.Floor

/-! The offload manager: batched copies of GPU pages into CPU slots, chosen by score. The tensor
runtime is a parameter (`Device`): what its copies do to memory, what a failed copy leaves behind,
and which of its calls fail. CPU slots are handed out from the end of a free list, modelled here as
a stack whose head is the list's end. -/

namespace KVOffload
open Base

/-- Where the store of a batch can fail. -/
inductive StoreFault (φ : Type) where
  /-- Building the index tensors, before the guarded copy. -/
  | indexTensors
  /-- Inside the guarded copy, which leaves `torn` behind. -/
  | copy (torn : φ)
  /-- The caller's synchronisation on the event of a finished copy. -/
  | event

/-- What the tensor runtime decides: norms, the order among equal scores, and which calls fail. Faults
are indexed by a call counter, so that every pattern of failures over a run is some runtime. -/
structure Runtime (μ φ ν S : Type) [LinearOrder S] where
  /-- Norms of a GPU page, averaged over the layers. -/
  stats : μ → Nat → ν
  storeFault : Nat → Option (StoreFault φ)
  fetchFault : Nat → Option φ
  scoreFault : Nat → Bool
  /-- `argsort` in descending order. -/
  argsortDescending : List (BlockRef × S) → List BlockRef
  argsortDescending_perm : ∀ l, (argsortDescending l).Perm (l.map Prod.fst)
  argsortDescending_sorted : ∀ (refs : List BlockRef) (score : BlockRef → S),
    (argsortDescending (refs.map fun ref => (ref, score ref))).Pairwise fun x y => score y ≤ score x

/-- The runtime with the effect of its copies on memory `μ`. -/
structure Device (μ φ ν S : Type) [LinearOrder S] extends Runtime μ φ ν S where
  /-- Per layer: gather the GPU pages, split, transpose, scatter into the CPU slots. -/
  store : μ → List Nat → List Nat → μ
  storeTorn : φ → μ → List Nat → List Nat → μ
  /-- Per layer: gather the CPU slots, transpose, concatenate, scatter into the GPU pages. -/
  fetch : μ → List Nat → List Nat → μ
  fetchTorn : φ → μ → List Nat → List Nat → μ

/-- No fault strikes outside the `try` block that guards the copy. -/
def Device.FaultsGuarded {μ φ ν S : Type} [LinearOrder S] (dev : Device μ φ ν S) : Prop :=
  ∀ tick, dev.storeFault tick ≠ some .indexTensors ∧ dev.storeFault tick ≠ some .event

structure OrchestratorConfig where
  offloadFraction : ℚ
  numCpuSlots : Nat
  numStagingSlots : Nat
  /-- `W`: an offload pass every `W` decode tokens of a request. -/
  window : Nat
  pageSize : Nat
  gpuBudgetBlocks : Nat
  /-- First of the tail pages that serve as staging slots. -/
  stagingBase : Nat
  numCpuSlots_pos : 0 < numCpuSlots
  numStagingSlots_pos : 0 < numStagingSlots
  window_pos : 0 < window
  pageSize_pos : 0 < pageSize
  pageSize_dvd_window : pageSize ∣ window

/-- The residency table with the CPU pool, the staging pool, the scorer and the memory around it. -/
structure Store (μ σ : Type) where
  residency : ResidencyTable
  cpuFree : List Nat
  lru : OrderedDict BlockRef Nat
  stagingFree : List Nat
  scorer : σ
  mem : μ
  tick : Nat

section

variable {μ φ ν σ S : Type} [LinearOrder S]

def Store.init (cfg : OrchestratorConfig) (scorer : σ) (mem : μ) : Store μ σ where
  residency := .empty
  cpuFree := List.range cfg.numCpuSlots
  lru := .empty
  stagingFree := List.range cfg.numStagingSlots
  scorer := scorer
  mem := mem
  tick := 0

/-- A program over the store that may raise. -/
abbrev StoreM (μ σ : Type) := Eff (Store μ σ) PyError

/-- A table operation inside the store. -/
def onTable (f : ResidencyTable → Except PyError ResidencyTable) : StoreM μ σ Unit := fun s =>
  match f s.residency with
  | .ok t => (.ok (), { s with residency := t })
  | .error e => (.error e, s)

def markCpu (ref : BlockRef) (slot : Nat) : StoreM μ σ Unit := onTable fun t => t.markCpu ref slot

def markStaging (ref : BlockRef) (slot : Nat) : StoreM μ σ Unit := onTable fun t => t.markStaging ref slot

def markComplete (ref : BlockRef) : StoreM μ σ Unit := onTable fun t => t.markComplete ref

/-- `score_blocks`: one batch of norms, then one scorer update. -/
def scoreBlocks (dev : Device μ φ ν S) (scorer : BlockScorer σ ν S) (refs : List BlockRef)
    (gpuBlockIds : List Nat) : StoreM μ σ Unit := fun s =>
  let items := (refs.zip gpuBlockIds).filter fun e => !isWarmup e.1.requestId
  if items = [] then (.ok (), s)
  else if dev.scoreFault s.tick then (.error .device, { s with tick := s.tick + 1 })
  else (.ok (),
    { s with
      scorer := scorer.update s.scorer (items.map fun e => (e.1, dev.stats s.mem e.2))
      tick := s.tick + 1 })

/-- `_copy_gpu_to_cpu_batch`. The event it returns is modelled by whether a later synchronisation on
it raises. -/
def copyGpuToCpuBatch (dev : Device μ φ ν S) (gpuBlockIds : List Nat) : StoreM μ σ (List Nat × Bool) := fun s =>
  let n := gpuBlockIds.length
  if n = 0 then (.error .emptyBatch, s)
  else if s.cpuFree.length < n then (.error (.cpuPoolExhausted n s.cpuFree.length), s)
  else
    let slots := s.cpuFree.take n
    let free := s.cpuFree.drop n
    match dev.storeFault s.tick with
    | some .indexTensors => (.error .device, { s with cpuFree := free, tick := s.tick + 1 })
    | some (.copy torn) =>
        (.error .device,
          { s with
            cpuFree := slots.reverse ++ free
            mem := dev.storeTorn torn s.mem gpuBlockIds slots
            tick := s.tick + 1 })
    | some .event =>
        (.ok (slots, true),
          { s with cpuFree := free, mem := dev.store s.mem gpuBlockIds slots, tick := s.tick + 1 })
    | none =>
        (.ok (slots, false),
          { s with cpuFree := free, mem := dev.store s.mem gpuBlockIds slots, tick := s.tick + 1 })

/-- `event.synchronize()`. -/
def synchronize (eventRaises : Bool) : StoreM μ σ Unit :=
  if eventRaises then Eff.raise .device else pure ()

/-- A complete block whose page is on the GPU. -/
def isGpuComplete (t : ResidencyTable) (ref : BlockRef) : Bool :=
  (t.get ref).any fun loc => loc.residency = .gpu && loc.complete

/-- The page of a GPU-resident block. -/
def gpuPage (t : ResidencyTable) (ref : BlockRef) : Option Nat :=
  match t.get ref with
  | some loc => if loc.residency = .gpu then loc.gpuBlockId else none
  | none => none

/-- The blocks that still have a live GPU page, with their pages. -/
def refsWithGpu (t : ResidencyTable) (refs : List BlockRef) : List (BlockRef × Nat) :=
  refs.filterMap fun ref => (gpuPage t ref).map fun page => (ref, page)

/-- `scorer.select_for_eviction` on the store's scorer. -/
def selectForEviction (scorer : BlockScorer σ ν S) (refs : List BlockRef) (budget : Int) :
    StoreM μ σ (List BlockRef) := fun s =>
  let r := scorer.selectForEviction s.scorer refs budget
  (r.1, { s with scorer := r.2 })

/-- Copy the live blocks in one batch, wait for the copy, then publish them as CPU-resident. -/
def copyAndPublish (dev : Device μ φ ν S) (live : List (BlockRef × Nat)) : StoreM μ σ (List BlockRef) := do
  let (slots, eventRaises) ← copyGpuToCpuBatch dev (live.map Prod.snd)
  synchronize eventRaises
  Eff.forEach ((live.map Prod.fst).zip slots) fun e => markCpu e.1 e.2
  pure (live.map Prod.fst)

/-- How many of `m` eligible blocks a fraction asks for. -/
def numToOffload (m : Nat) (fraction : ℚ) : Nat := max 1 ⌊(m : ℚ) * fraction + 1 / 2⌋.toNat

/-- The candidates `offload_fraction` may take: scored, on the GPU and complete. -/
def scoredCandidates (t : ResidencyTable) (candidates : List BlockRef) (scoredBlocks : Finset BlockRef) :
    List BlockRef :=
  candidates.filter fun ref => decide (ref ∈ scoredBlocks) && isGpuComplete t ref

/-- `offload_fraction`: every failure of the copy is swallowed and reported as nothing offloaded. -/
def offloadFraction (dev : Device μ φ ν S) (scorer : BlockScorer σ ν S) (candidates : List BlockRef)
    (fraction : ℚ) (scoredBlocks : Finset BlockRef) : StoreM μ σ (List BlockRef) := do
  if ¬(0 ≤ fraction ∧ fraction < 1) then Eff.raise .badFraction
  else
    let s ← Eff.read
    let eligible := scoredCandidates s.residency candidates scoredBlocks
    if eligible.length = 0 then pure []
    else
      -- The scorer's budget is the number of blocks to keep.
      let refsToEvict ← selectForEviction scorer eligible (eligible.length - numToOffload eligible.length fraction)
      let s ← Eff.read
      let live := refsWithGpu s.residency refsToEvict
      if live = [] then pure []
      else Eff.attempt (copyAndPublish dev live) fun _ => pure []

/-- `maybe_offload`: as `offload_fraction` down to a fixed budget, but failures propagate. -/
def maybeOffload (cfg : OrchestratorConfig) (dev : Device μ φ ν S) (scorer : BlockScorer σ ν S)
    (candidates : List BlockRef) : StoreM μ σ (List BlockRef) := do
  let s ← Eff.read
  let gpuCandidates := candidates.filter fun ref => isGpuComplete s.residency ref
  if gpuCandidates.length ≤ cfg.gpuBudgetBlocks then pure []
  else
    let refsToEvict ← selectForEviction scorer gpuCandidates cfg.gpuBudgetBlocks
    let s ← Eff.read
    let live := refsWithGpu s.residency refsToEvict
    if live = [] then pure [] else copyAndPublish dev live

/-- `free`: drop the block, return its CPU slot and forget its score. -/
def freeBlock (scorer : BlockScorer σ ν S) (ref : BlockRef) (s : Store μ σ) : Store μ σ :=
  { s with
    residency := (s.residency.remove ref).2
    cpuFree :=
      match (s.residency.remove ref).1.bind (·.cpuSlot) with
      | some slot => slot :: s.cpuFree
      | none => s.cpuFree
    scorer := scorer.forget s.scorer [ref] }

end

end KVOffload

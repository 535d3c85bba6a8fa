import KVOffload.OrchestratorSlots
import Mathlib.Data.List.FinRange

/-! Transfers of one block at a time. `_copy_gpu_to_cpu` takes one CPU slot and writes it half by half, layer
by layer; the worker's `_launch_cpu_to_staging_copy` fills one staging page. Both lay a page out by themselves
and not through the batched gathers, and both give what the batches give. Copies are taken as completed. -/

namespace KVOffload
open Base

section Blocks

variable {α : Type} {L H N C : Nat}

theorem keyIndex_lt (c : Fin C) : c.val < 2 * C := by omega

theorem valueIndex_lt (c : Fin C) : C + c.val < 2 * C := by omega

theorem valueChannel_lt (j : Fin (2 * C)) (hj : ¬j.val < C) : j.val - C < C := by omega

/-- `x.permute(1, 0, 2)`. -/
def permuteBlock {A B : Nat} (x : Fin A → Fin B → Fin C → α) : Fin B → Fin A → Fin C → α := fun b a c => x a b c

/-- `block[..., :head_dim]`. -/
def keyHalf (block : Page α H N C) : Fin H → Fin N → Fin C → α := fun h n c => block h n ⟨c.val, keyIndex_lt c⟩

/-- `block[..., head_dim:]`. -/
def valueHalf (block : Page α H N C) : Fin H → Fin N → Fin C → α := fun h n c =>
  block h n ⟨C + c.val, valueIndex_lt c⟩

/-- `torch.cat([k, v], dim=-1)`. -/
def catLast (k v : Fin H → Fin N → Fin C → α) : Page α H N C := fun h n j =>
  if hj : j.val < C then k h n ⟨j.val, hj⟩ else v h n ⟨j.val - C, valueChannel_lt j hj⟩

/-- `cpu_cache[layer, slot, kv].copy_(block)`. -/
def writeHalf (layer : Fin L) (slot : Nat) (kv : Fin 2) (block : Fin N → Fin H → Fin C → α)
    (cpu : Fin L → Nat → Slab α H N C) : Fin L → Nat → Slab α H N C :=
  Function.update cpu layer (Function.update (cpu layer) slot (Function.update (cpu layer slot) kv block))

namespace Memory

/-- The copies of `_copy_gpu_to_cpu`. -/
def storeBlock (mem : Memory α L H N C) (page slot : Nat) : Memory α L H N C :=
  { mem with
    cpu := (List.finRange L).foldl
      (fun cpu layer =>
        let kBlock := permuteBlock (keyHalf (mem.gpu layer page))
        let vBlock := permuteBlock (valueHalf (mem.gpu layer page))
        writeHalf layer slot ⟨1, Nat.one_lt_two⟩ vBlock (writeHalf layer slot ⟨0, Nat.two_pos⟩ kBlock cpu))
      mem.cpu }

/-- `_launch_cpu_to_staging_copy`, with `base` the first staging page. -/
def launchCpuToStagingCopy (base : Nat) (mem : Memory α L H N C) (cpuSlot stagingSlot : Nat) : Memory α L H N C :=
  { mem with
    gpu := (List.finRange L).foldl
      (fun gpu layer =>
        let kSrc := permuteBlock (mem.cpu layer cpuSlot ⟨0, Nat.two_pos⟩)
        let vSrc := permuteBlock (mem.cpu layer cpuSlot ⟨1, Nat.one_lt_two⟩)
        Function.update gpu layer (Function.update (gpu layer) (base + stagingSlot) (catLast kSrc vSrc)))
      mem.gpu }

/-- A block copied half by half is laid out as the batch lays it out. -/
theorem writeHalf_halves (layer : Fin L) (slot : Nat) (block : Page α H N C) (cpu : Fin L → Nat → Slab α H N C) :
    writeHalf layer slot ⟨1, Nat.one_lt_two⟩ (permuteBlock (valueHalf block))
        (writeHalf layer slot ⟨0, Nat.two_pos⟩ (permuteBlock (keyHalf block)) cpu) =
      Function.update cpu layer (Function.update (cpu layer) slot (storeLayout block)) := by
  have hslab : Function.update (Function.update (cpu layer slot) ⟨0, Nat.two_pos⟩ (permuteBlock (keyHalf block)))
      ⟨1, Nat.one_lt_two⟩ (permuteBlock (valueHalf block)) = storeLayout block := by
    apply funext
    exact Fin.forall_fin_two.mpr ⟨rfl, rfl⟩
  simp only [writeHalf, Function.update_self, Function.update_idem, hslab]

theorem storeBlock_eq (mem : Memory α L H N C) (page slot : Nat) :
    mem.storeBlock page slot =
      { mem with cpu := fun layer => Function.update (mem.cpu layer) slot (storeLayout (mem.gpu layer page)) } := by
  simp only [storeBlock, writeHalf_halves]
  congr 1
  funext layer
  let g : Fin L → (Nat → Slab α H N C) → Nat → Slab α H N C := fun layer row =>
    Function.update row slot (storeLayout (mem.gpu layer page))
  exact (foldl_update g (List.nodup_finRange L) mem.cpu layer).trans (if_pos (List.mem_finRange layer))

theorem launchCpuToStagingCopy_eq (base : Nat) (mem : Memory α L H N C) (cpuSlot stagingSlot : Nat) :
    mem.launchCpuToStagingCopy base cpuSlot stagingSlot =
      { mem with
        gpu := fun layer =>
          Function.update (mem.gpu layer) (base + stagingSlot) (fetchLayout (mem.cpu layer cpuSlot)) } := by
  rw [launchCpuToStagingCopy]
  congr 1
  funext layer
  let g : Fin L → (Nat → Page α H N C) → Nat → Page α H N C := fun layer row =>
    Function.update row (base + stagingSlot) (fetchLayout (mem.cpu layer cpuSlot))
  exact (foldl_update g (List.nodup_finRange L) mem.gpu layer).trans (if_pos (List.mem_finRange layer))

/-- A block stored before a batch is stored as its first block. -/
theorem store_storeBlock (mem : Memory α L H N C) (page slot : Nat) (pages slots : List Nat) :
    (mem.storeBlock page slot).store pages slots = mem.store (page :: pages) (slot :: slots) := by
  rw [storeBlock_eq]
  rfl

/-- Single launches, one after the other, are one scatter. -/
theorem foldl_launch_eq (base : Nat) (allocs : List Alloc) (mem : Memory α L H N C) :
    allocs.foldl (fun mem a => mem.launchCpuToStagingCopy base a.cpuSlot a.slot) mem =
      { mem with
        gpu := fun layer => indexCopy (mem.gpu layer)
          (allocs.map fun a => (base + a.slot, fetchLayout (mem.cpu layer a.cpuSlot))) } := by
  induction allocs generalizing mem with
  | nil => rfl
  | cons a rest ih =>
      rw [List.foldl_cons, ih, launchCpuToStagingCopy_eq]
      rfl

end Memory

end Blocks

section Transfers

variable {α ν σ S : Type} [LinearOrder S] {L H N C : Nat}

/-- `_copy_gpu_to_cpu`: one slot from the pool, one block into it. -/
def copyGpuToCpu (gpuBlockId : Nat) : StoreM (Memory α L H N C) σ Nat := fun s =>
  match s.cpuFree with
  | [] => (.error .cpuPoolEmpty, s)
  | slot :: free => (.ok slot, { s with cpuFree := free, mem := s.mem.storeBlock gpuBlockId slot })

/-- One call for each page. -/
def copyEach : List Nat → StoreM (Memory α L H N C) σ (List Nat)
  | [] => pure []
  | page :: rest => do
      let slot ← copyGpuToCpu page
      let slots ← copyEach rest
      pure (slot :: slots)

theorem copyEach_eq (pages : List Nat) {s : Store (Memory α L H N C) σ} (hroom : pages.length ≤ s.cpuFree.length) :
    copyEach pages s = (.ok (s.cpuFree.take pages.length),
      { s with
        cpuFree := s.cpuFree.drop pages.length
        mem := s.mem.store pages (s.cpuFree.take pages.length) }) := by
  induction pages generalizing s with
  | nil => rfl
  | cons page rest ih =>
      cases hfree : s.cpuFree with
      | nil =>
          rw [hfree] at hroom
          cases hroom
      | cons slot free =>
          have hfirst : copyGpuToCpu page s =
              (.ok slot, { s with cpuFree := free, mem := s.mem.storeBlock page slot }) := by
            rw [copyGpuToCpu, hfree]
          have hroom' : rest.length ≤ free.length := by
            rw [hfree] at hroom
            exact Nat.le_of_succ_le_succ hroom
          have hrest := ih (s := { s with cpuFree := free, mem := s.mem.storeBlock page slot }) hroom'
          simp only [copyEach, bind, Eff.andThen, hfirst, hrest, pure, Memory.store_storeBlock]
          rfl

variable {runtime : Runtime (Memory α L H N C) (Memory α L H N C) ν S} {s : Store (Memory α L H N C) σ}

theorem copyGpuToCpuBatch_eq (hcopy : runtime.storeFault s.tick = none) {pages : List Nat} (hne : pages ≠ [])
    (hroom : pages.length ≤ s.cpuFree.length) :
    copyGpuToCpuBatch (combinedDevice runtime) pages s = (.ok (s.cpuFree.take pages.length, false),
      { s with
        cpuFree := s.cpuFree.drop pages.length
        mem := s.mem.store pages (s.cpuFree.take pages.length)
        tick := s.tick + 1 }) := by
  have hcopy' : (combinedDevice runtime).storeFault s.tick = none := hcopy
  simp only [copyGpuToCpuBatch, hcopy']
  rw [if_neg (by simpa using hne), if_neg (by omega)]
  rfl

theorem fetchBatch_eq (cfg : OrchestratorConfig) (hcopy : runtime.fetchFault s.tick = none) {allocs order : List Alloc}
    (hnodup : (allocs.map (·.slot)).Nodup) (horder : order.Perm allocs) :
    fetchBatch cfg (combinedDevice runtime) allocs s = (.ok (),
      { s with
        mem := order.foldl (fun mem a => mem.launchCpuToStagingCopy cfg.stagingBase a.cpuSlot a.slot) s.mem
        tick := s.tick + 1 }) := by
  have hcopy' : (combinedDevice runtime).fetchFault s.tick = none := hcopy
  have hpages : (allocs.map (cfg.stagingBase + ·.slot)).Nodup := by
    rw [show (fun a : Alloc => cfg.stagingBase + a.slot) = (cfg.stagingBase + ·) ∘ (·.slot) from rfl, ← List.map_map]
    exact hnodup.map (add_right_injective cfg.stagingBase)
  have hmem : Memory.fetch s.mem (allocs.map (·.cpuSlot)) (allocs.map (cfg.stagingBase + ·.slot)) =
      order.foldl (fun mem a => mem.launchCpuToStagingCopy cfg.stagingBase a.cpuSlot a.slot) s.mem := by
    rw [Memory.foldl_launch_eq, Memory.fetch]
    congr 1
    funext layer
    rw [List.map_map, List.zip_map']
    apply indexCopy_perm
    · exact (horder.map _).symm
    · rw [List.map_map]
      exact hpages
  simp only [fetchBatch, hcopy']
  rw [← hmem]
  rfl

/-- A batch of at least one page is stored as its pages one after the other, in the same slots, and a batch
of fetches to distinct staging slots is the launches for its pairs, in any order. -/
theorem batched_transfers_eq_single (cfg : OrchestratorConfig)
    (runtime : Runtime (Memory α L H N C) (Memory α L H N C) ν S) (s : Store (Memory α L H N C) σ)
    (hstore : runtime.storeFault s.tick = none) (hfetch : runtime.fetchFault s.tick = none) :
    (∀ pages : List Nat, pages ≠ [] → pages.length ≤ s.cpuFree.length →
      ∃ slots s₁ s₂, copyGpuToCpuBatch (combinedDevice runtime) pages s = (.ok (slots, false), s₁) ∧
        copyEach pages s = (.ok slots, s₂) ∧ s₁.mem = s₂.mem ∧ s₁.cpuFree = s₂.cpuFree) ∧
    ∀ allocs order : List Alloc, (allocs.map (·.slot)).Nodup → order.Perm allocs →
      ∃ s₁, fetchBatch cfg (combinedDevice runtime) allocs s = (.ok (), s₁) ∧
        s₁.mem = order.foldl (fun mem a => mem.launchCpuToStagingCopy cfg.stagingBase a.cpuSlot a.slot) s.mem := by
  constructor
  · intro pages hne hroom
    exact ⟨_, _, _, copyGpuToCpuBatch_eq hstore hne hroom, copyEach_eq pages hroom, rfl, rfl⟩
  · intro allocs order hnodup horder
    exact ⟨_, fetchBatch_eq cfg hfetch hnodup horder, rfl⟩

end Transfers

/-- Two free CPU slots and nothing offloaded. -/
def freshStore : Store SmallMemory LruState := Store.init smallConfig ⟨.empty, 0⟩ blankMemory

/-- Two fetches to distinct staging slots. -/
def twoAllocs : List Alloc := [⟨⟨requestA, 0⟩, 0, 0⟩, ⟨⟨requestA, 1⟩, 1, 1⟩]

theorem batched_transfers_eq_single_freshStore :
    (∃ slots s₁ s₂, copyGpuToCpuBatch (combinedDevice steadyRuntime) [3, 3] freshStore = (.ok (slots, false), s₁) ∧
        copyEach [3, 3] freshStore = (.ok slots, s₂) ∧ s₁.mem = s₂.mem ∧ s₁.cpuFree = s₂.cpuFree) ∧
      ∃ s₁, fetchBatch smallConfig (combinedDevice steadyRuntime) twoAllocs freshStore = (.ok (), s₁) ∧
        s₁.mem = twoAllocs.reverse.foldl
          (fun mem a => mem.launchCpuToStagingCopy smallConfig.stagingBase a.cpuSlot a.slot) freshStore.mem := by
  obtain ⟨hstores, hfetches⟩ := batched_transfers_eq_single smallConfig steadyRuntime freshStore rfl rfl
  exact ⟨hstores [3, 3] (by decide) (by decide), hfetches twoAllocs twoAllocs.reverse (by decide) (List.reverse_perm _)⟩

/-- For no pages the batch raises, while no calls do nothing. -/
theorem copyGpuToCpuBatch_empty_raises :
    ([] : List Nat).length ≤ freshStore.cpuFree.length ∧
      copyGpuToCpuBatch (combinedDevice steadyRuntime) [] freshStore = (.error .emptyBatch, freshStore) ∧
      copyEach [] freshStore = (.ok [], freshStore) :=
  ⟨Nat.zero_le _, rfl, rfl⟩

end KVOffload

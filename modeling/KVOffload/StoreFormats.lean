import KVOffload.OffloadContract
import KVOffload.OrchestratorParking
import KVOffload.StagingContract

/-! The two cache formats the runner may hand over. `normalize_runner_kv_caches` takes one combined tensor
per layer, whose shape it checks, or one pair of tensors per layer, whose shapes it does not check. The
CPU cache is sized by the head size either way, and the copies gather the first tensor of a layer, split
its last axis in the middle and scatter the halves. Here a tensor keeps the last axis it came with, and a
copy between slices of different shapes raises before it writes. -/

namespace KVOffload
open Base

section Normalize

/-- The fields of the attention layers' cache specification that are read. -/
structure AttentionSpec where
  numKvHeads : Nat
  headSize : Nat
  blockSize : Nat

/-- An entry of the runner's list. A tensor is given by its shape; `none` is an object that is no tensor. -/
inductive RunnerCache where
  | tensor (shape : List Nat)
  /-- A tuple or list of length two. -/
  | pair (k v : Option (List Nat))
  | other
  deriving DecidableEq

inductive FormatError where
  /-- `runner_kv_caches[0]` or `k_caches[0].shape[0]` of something empty. -/
  | indexError
  /-- "Expected (K, V) tuple at index {layer_idx}" -/
  | notPair (layer : Nat)
  /-- "K and V must be tensors at index {layer_idx}" -/
  | notTensors (layer : Nat)
  /-- "Expected tensor at index {layer_idx}" -/
  | notTensor (layer : Nat)
  /-- "Expected combined per-layer KV cache with shape [...], got {shape} at index {layer_idx}" -/
  | wrongShape (shape : List Nat) (layer : Nat)
  /-- "Unexpected cache type at index 0: {type}" -/
  | unexpectedType
  deriving DecidableEq

/-- The shapes of the tensors of each layer, with what the rest of the package reads of the specification. -/
structure KVCacheView where
  kCaches : List (List Nat)
  vCaches : List (List Nat)
  blockSize : Nat
  numKvHeads : Nat
  headDim : Nat
  stagingBasePage : Int

def pairLayer (e : RunnerCache × Nat) : Except FormatError (List Nat × List Nat) :=
  match e.1 with
  | .pair (some k) (some v) => .ok (k, v)
  | .pair _ _ => .error (.notTensors e.2)
  | _ => .error (.notPair e.2)

def combinedLayer (spec : AttentionSpec) (e : RunnerCache × Nat) : Except FormatError (List Nat × List Nat) :=
  match e.1 with
  | .tensor shape =>
      if shape.length ≠ 4 ∨ shape[1]? ≠ some spec.numKvHeads ∨ shape[2]? ≠ some spec.blockSize ∨
          shape.getLast? ≠ some (2 * spec.headSize) then .error (.wrongShape shape e.2)
      else .ok (shape, shape)
  | _ => .error (.notTensor e.2)

/-- `normalize_runner_kv_caches`: the first entry decides which format the others are held to. -/
def normalizeRunnerKvCaches (caches : List RunnerCache) (spec : AttentionSpec) (stagingSlots : Nat) :
    Except FormatError KVCacheView := do
  let layers ←
    match caches with
    | [] => .error .indexError
    | .pair _ _ :: _ => caches.zipIdx.mapM pairLayer
    | .tensor _ :: _ => caches.zipIdx.mapM (combinedLayer spec)
    | .other :: _ => .error .unexpectedType
  match layers.head?.bind fun layer => layer.1.head? with
  | none => .error .indexError
  | some numPages =>
      .ok { kCaches := layers.map Prod.fst, vCaches := layers.map Prod.snd, blockSize := spec.blockSize,
            numKvHeads := spec.numKvHeads, headDim := spec.headSize, stagingBasePage := numPages - stagingSlots }

/-- The last axis of the tensors the copies gather from. -/
def KVCacheView.lastAxis (view : KVCacheView) : Nat := (view.kCaches.headD []).getLastD 0

/-- A list of pairs of tensors of one shape is accepted, whatever its last axis is. -/
theorem normalizeRunnerKvCaches_pairs {caches : List RunnerCache} (hne : caches ≠ []) {pages : Nat} {rest : List Nat}
    (hpairs : ∀ cache ∈ caches, cache = .pair (some (pages :: rest)) (some (pages :: rest))) (spec : AttentionSpec)
    (stagingSlots : Nat) :
    normalizeRunnerKvCaches caches spec stagingSlots =
      .ok { kCaches := caches.map fun _ => pages :: rest, vCaches := caches.map fun _ => pages :: rest,
            blockSize := spec.blockSize, numKvHeads := spec.numKvHeads, headDim := spec.headSize,
            stagingBasePage := pages - stagingSlots } := by
  have hlayers : caches.zipIdx.mapM pairLayer = .ok (caches.zipIdx.map fun _ => (pages :: rest, pages :: rest)) := by
    apply mapM_eq_ok
    intro e he
    rw [pairLayer, hpairs e.1 (List.fst_mem_of_mem_zipIdx he)]
  have hconst : (caches.zipIdx.map fun _ => (pages :: rest, pages :: rest)) =
      caches.map fun _ => (pages :: rest, pages :: rest) := by
    rw [List.map_const', List.map_const', List.length_zipIdx]
  rw [hconst] at hlayers
  cases caches with
  | nil => exact absurd rfl hne
  | cons cache others =>
      obtain rfl := hpairs cache List.mem_cons_self
      simp only [normalizeRunnerKvCaches, hlayers]
      simp [bind, Except.bind]

/-- An accepted list of combined tensors has the width the copies split and join. -/
theorem lastAxis_of_tensors {shape : List Nat} {rest : List RunnerCache} {spec : AttentionSpec} {stagingSlots : Nat}
    {view : KVCacheView} (hview : normalizeRunnerKvCaches (.tensor shape :: rest) spec stagingSlots = .ok view) :
    view.lastAxis = 2 * view.headDim := by
  simp only [normalizeRunnerKvCaches, List.zipIdx_cons, List.mapM_cons] at hview
  by_cases hshape : shape.length ≠ 4 ∨ shape[1]? ≠ some spec.numKvHeads ∨ shape[2]? ≠ some spec.blockSize ∨
      shape.getLast? ≠ some (2 * spec.headSize)
  · have hfirst : combinedLayer spec (.tensor shape, 0) = .error (.wrongShape shape 0) := if_pos hshape
    rw [hfirst] at hview
    cases hview
  · have hfirst : combinedLayer spec (.tensor shape, 0) = .ok (shape, shape) := if_neg hshape
    rw [hfirst] at hview
    cases hothers : (rest.zipIdx (0 + 1)).mapM (combinedLayer spec) with
    | error e =>
        rw [hothers] at hview
        cases hview
    | ok others =>
        rw [hothers] at hview
        simp only [bind, Except.bind, pure, Except.pure, List.head?_cons, Option.bind_some] at hview
        cases hpages : shape.head? with
        | none =>
            rw [hpages] at hview
            cases hview
        | some numPages =>
            rw [hpages] at hview
            obtain rfl := Except.ok.inj hview
            push Not at hshape
            simp [KVCacheView.lastAxis, List.getLastD_eq_getLast?, hshape.2.2.2]

end Normalize

section Copies

/-- The tensors of a layer as the copies see them, `W` wide, over a CPU cache for heads of size `C`. -/
structure CacheMemory (α : Type) (L H N W C : Nat) where
  k : Fin L → Nat → Fin H → Fin N → Fin W → α
  v : Fin L → Nat → Fin H → Fin N → Fin W → α
  cpu : Fin L → Nat → Slab α H N C

/-- The slice `stack([gathered[..., :W // 2], gathered[..., W // 2:]])` has for one page, unless the halves differ. -/
def stackedShape (H N W : Nat) : Option (List Nat) := if W - W / 2 = W / 2 then some [2, N, H, W / 2] else none

/-- The store scatters slices of the shape the CPU slots have. -/
def StoreFits (H N W C : Nat) : Prop := stackedShape H N W = some [2, N, H, C]

/-- The fetch scatters slices of the shape the pages have. -/
def FetchFits (H N W C : Nat) : Prop := [H, N, C + C] = [H, N, W]

instance (H N W C : Nat) : Decidable (StoreFits H N W C) := inferInstanceAs (Decidable (_ = _))

instance (H N W C : Nat) : Decidable (FetchFits H N W C) := inferInstanceAs (Decidable (_ = _))

theorem storeFits_iff {H N W C : Nat} : StoreFits H N W C ↔ W = 2 * C := by
  unfold StoreFits stackedShape
  by_cases hhalves : W - W / 2 = W / 2
  · rw [if_pos hhalves]
    simp only [Option.some.injEq, List.cons.injEq, and_true, true_and]
    omega
  · rw [if_neg hhalves]
    constructor
    · intro h
      cases h
    · intro h
      omega

theorem fetchFits_iff {H N W C : Nat} : FetchFits H N W C ↔ W = 2 * C := by
  simp only [FetchFits, List.cons.injEq, and_true, true_and]
  omega

variable {α ν S : Type} [LinearOrder S] {L H N W C : Nat}

namespace CacheMemory

/-- The batched store. Only the first tensor of a layer is gathered. -/
def store (mem : CacheMemory α L H N W C) (pages slots : List Nat) : CacheMemory α L H N W C :=
  if h : W = 2 * C then
    { mem with
      cpu := fun layer => indexCopy (mem.cpu layer)
        (slots.zip (pages.map fun page => storeLayout fun i n c => mem.k layer page i n (c.cast h.symm))) }
  else mem

/-- The batched fetch. Only the first tensor of a layer is written. -/
def fetch (mem : CacheMemory α L H N W C) (slots pages : List Nat) : CacheMemory α L H N W C :=
  if h : W = 2 * C then
    { mem with
      k := fun layer => indexCopy (mem.k layer)
        (pages.zip (slots.map fun slot i n c => fetchLayout (mem.cpu layer slot) i n (c.cast h))) }
  else mem

def storeTorn (torn : Option (CacheMemory α L H N W C)) (mem : CacheMemory α L H N W C) (_ slots : List Nat) :
    CacheMemory α L H N W C :=
  match torn with
  | none => mem
  | some torn => { mem with cpu := fun layer c => if c ∈ slots then torn.cpu layer c else mem.cpu layer c }

def fetchTorn (torn : Option (CacheMemory α L H N W C)) (mem : CacheMemory α L H N W C) (_ pages : List Nat) :
    CacheMemory α L H N W C :=
  match torn with
  | none => mem
  | some torn => { mem with k := fun layer p => if p ∈ pages then torn.k layer p else mem.k layer p }

end CacheMemory

/-- The device over tensors of any width: a copy between slices of different shapes raises and writes
nothing, whatever else could have failed in it. -/
def cacheDevice (runtime : Runtime (CacheMemory α L H N W C) (Option (CacheMemory α L H N W C)) ν S) :
    Device (CacheMemory α L H N W C) (Option (CacheMemory α L H N W C)) ν S where
  toRuntime :=
    { runtime with
      storeFault := fun tick =>
        match runtime.storeFault tick with
        | some .indexTensors => some .indexTensors
        | fault => if StoreFits H N W C then fault else some (.copy none)
      fetchFault := fun tick => if FetchFits H N W C then runtime.fetchFault tick else some none }
  store := CacheMemory.store
  storeTorn := CacheMemory.storeTorn
  fetch := CacheMemory.fetch
  fetchTorn := CacheMemory.fetchTorn

/-- No copy fails for a reason of its own. -/
def Runtime.CopiesSucceed {μ φ : Type} (runtime : Runtime μ φ ν S) : Prop :=
  ∀ tick, runtime.storeFault tick = none ∧ runtime.fetchFault tick = none

variable {runtime : Runtime (CacheMemory α L H N W C) (Option (CacheMemory α L H N W C)) ν S}

theorem storeFault_cacheDevice (h : runtime.CopiesSucceed) (tick : Nat) :
    (cacheDevice runtime).storeFault tick = if W = 2 * C then none else some (.copy none) := by
  simp only [cacheDevice, (h tick).1, storeFits_iff]

theorem fetchFault_cacheDevice (h : runtime.CopiesSucceed) (tick : Nat) :
    (cacheDevice runtime).fetchFault tick = if W = 2 * C then none else some none := by
  simp only [cacheDevice, (h tick).2, fetchFits_iff]

end Copies

section RoundTrip

variable {μ φ ν σ S : Type} [LinearOrder S]

/-- The blocks `offload_fraction` selects. -/
def selectedBlocks (scorer : BlockScorer σ ν S) (s : Store μ σ) (candidates : List BlockRef) (fraction : ℚ)
    (scoredBlocks : Finset BlockRef) : Except PyError (List BlockRef) :=
  let eligible := scoredCandidates s.residency candidates scoredBlocks
  if eligible.length = 0 then .ok []
  else (scorer.selectForEviction s.scorer eligible (eligible.length - numToOffload eligible.length fraction)).1

variable {α : Type} {L H N W C : Nat}

/-- The operation keeps the CPU copies of the blocks: it cleans up none of their requests and does not write
to the CPU cache from outside. -/
def KeepsCopies (refs : List BlockRef) (o : Orchestrator (CacheMemory α L H N W C) σ)
    (op : Op (CacheMemory α L H N W C)) : Prop :=
  op.Distinct ∧ (∀ ref ∈ refs, ¬op.CleansUp ref.requestId) ∧ ∀ mem, op = .write mem → mem.cpu = o.store.mem.cpu

/-- The selected blocks are CPU-resident after the offload, and whenever all of them are so later, a fetch
brings their two pages back in every layer. -/
structure RoundTrips (cfg : OrchestratorConfig)
    (dev : Device (CacheMemory α L H N W C) (Option (CacheMemory α L H N W C)) ν S) (scorer : BlockScorer σ ν S)
    (o : Orchestrator (CacheMemory α L H N W C) σ) (candidates : List BlockRef) (fraction : ℚ)
    (scoredBlocks : Finset BlockRef) (selected : List BlockRef) : Prop where
  offloaded : ∀ ref ∈ selected,
    isCpuResident (step cfg dev scorer o (.offloadFraction candidates fraction scoredBlocks)).store.residency ref = true
  restored : ∀ ops,
    Along (step cfg dev scorer) (KeepsCopies selected)
      (step cfg dev scorer o (.offloadFraction candidates fraction scoredBlocks)) ops →
    let s := (run (step cfg dev scorer)
      (step cfg dev scorer o (.offloadFraction candidates fraction scoredBlocks)) ops).store
    (∀ ref ∈ selected, isCpuResident s.residency ref = true) →
    ∃ out s', ensureResident cfg dev scorer selected s = (.ok out, s') ∧
      ∀ ref ∈ selected, ∃ slot, out.1.get? ref = some slot ∧
        ∀ page, gpuPage o.store.residency ref = some page → ∀ layer,
          s'.mem.k layer (cfg.stagingBase + slot) = o.store.mem.k layer page ∧
          s'.mem.v layer (cfg.stagingBase + slot) = o.store.mem.v layer page

section Offload

variable {dev : Device μ φ ν S} {scorer : BlockScorer σ ν S} {s : Store μ σ} {candidates selected : List BlockRef}
  {fraction : ℚ} {scoredBlocks : Finset BlockRef}

theorem selectedBlocks_subperm (hselected : selectedBlocks scorer s candidates fraction scoredBlocks = .ok selected) :
    selected.Subperm (scoredCandidates s.residency candidates scoredBlocks) := by
  unfold selectedBlocks at hselected
  by_cases hempty : (scoredCandidates s.residency candidates scoredBlocks).length = 0
  · rw [if_pos hempty] at hselected
    obtain rfl : [] = selected := Except.ok.inj hselected
    exact List.nil_subperm
  · rw [if_neg hempty] at hselected
    exact scorer.select_subperm _ _ _ _ hselected

/-- A nonempty selection comes from the scorer. -/
theorem selectForEviction_of_selectedBlocks
    (hselected : selectedBlocks scorer s candidates fraction scoredBlocks = .ok selected) (hne : selected ≠ []) :
    scoredCandidates s.residency candidates scoredBlocks ≠ [] ∧
      ∃ x, scorer.selectForEviction s.scorer (scoredCandidates s.residency candidates scoredBlocks)
        ((scoredCandidates s.residency candidates scoredBlocks).length -
          numToOffload (scoredCandidates s.residency candidates scoredBlocks).length fraction) = (.ok selected, x) := by
  have heligible : scoredCandidates s.residency candidates scoredBlocks ≠ [] := by
    intro hnil
    have hsub := selectedBlocks_subperm hselected
    rw [hnil, List.subperm_nil] at hsub
    exact hne hsub
  rw [selectedBlocks, if_neg (by simpa using heligible)] at hselected
  exact ⟨heligible, _, Prod.ext hselected rfl⟩

/-- A call that has blocks to copy and whose copy raises leaves the table as it was. -/
theorem residency_offloadFraction_of_raise (hfraction : 0 ≤ fraction ∧ fraction < 1)
    (hselected : selectedBlocks scorer s candidates fraction scoredBlocks = .ok selected)
    (hne : selected ≠ []) {torn : φ} (hfault : dev.storeFault s.tick = some (.copy torn)) :
    (offloadFraction dev scorer candidates fraction scoredBlocks s).2.residency = s.residency := by
  have hcomplete : ∀ ref ∈ selected, isGpuComplete s.residency ref = true := fun ref href =>
    isGpuComplete_of_mem_scoredCandidates ref ((selectedBlocks_subperm hselected).subset href)
  obtain ⟨heligible, x, hselect⟩ := selectForEviction_of_selectedBlocks hselected hne
  obtain ⟨e, s', hrun, hsame⟩ := copyAndPublish_raises (s := { s with scorer := x }) hfault
    (refsWithGpu s.residency selected)
  rw [offloadFraction_of_select hfraction heligible hselect (refsWithGpu_ne_nil hcomplete hne), Eff.attempt, hrun]
  exact hsame

/-- The selected blocks are marked exactly if the copy gets through. -/
theorem selected_cpuResident_iff (hnodup : candidates.Nodup) (hfraction : 0 ≤ fraction ∧ fraction < 1)
    (hselected : selectedBlocks scorer s candidates fraction scoredBlocks = .ok selected)
    (hroom : selected.length ≤ s.cpuFree.length) {p : Prop} [Decidable p] {torn : φ}
    (hfault : dev.storeFault s.tick = if p then none else some (.copy torn)) :
    (∀ ref ∈ selected,
      isCpuResident (offloadFraction dev scorer candidates fraction scoredBlocks s).2.residency ref = true) ↔
    selected = [] ∨ p := by
  have hsub := selectedBlocks_subperm hselected
  by_cases hne : selected = []
  · simp [hne]
  by_cases hp : p
  · -- the batch is published
    rw [if_pos hp] at hfault
    obtain ⟨heligible, x, hselect⟩ := selectForEviction_of_selectedBlocks hselected hne
    have hselected_nodup := nodup_of_subperm hsub (scoredCandidates_nodup hnodup scoredBlocks)
    obtain ⟨t, hrun, hmarked⟩ := offloadFraction_publishes hfraction heligible hselect hselected_nodup hsub.subset hne
      hfault hroom
    refine iff_of_true (fun ref href => ?_) (Or.inr hp)
    have hlen : selected.length = (s.cpuFree.take selected.length).length := by
      rw [List.length_take]
      omega
    obtain ⟨slot, hslot⟩ := exists_mem_zip_left hlen href
    obtain ⟨loc, -, hmoved⟩ := hmarked.moved _ hslot
    rw [hrun]
    simp [isCpuResident, isCpu, hmoved]
  · -- the exception is swallowed and every selected block stays where it was
    rw [if_neg hp] at hfault
    refine iff_of_false (fun hall => ?_) (by simp [hne, hp])
    obtain ⟨ref, href⟩ := List.exists_mem_of_ne_nil selected hne
    have hcpu := hall ref href
    rw [residency_offloadFraction_of_raise hfraction hselected hne hfault] at hcpu
    obtain ⟨loc, hloc, hres, -⟩ := isGpuComplete_iff.mp (isGpuComplete_of_mem_scoredCandidates ref (hsub.subset href))
    simp [isCpuResident, isCpu, hloc, hres] at hcpu

end Offload

/-- Blocks that are all CPU-resident and fit into the staging pool are all fetched by one call. -/
theorem ensureResident_fetches_all {cfg : OrchestratorConfig} {dev : Device μ φ ν S} {scorer : BlockScorer σ ν S}
    {s : Store μ σ} (hok : StoreOk cfg (Backing.trivial dev) s) (hsteady : dev.fetchFault s.tick = none)
    {refs : List BlockRef} (hnodup : refs.Nodup) (hroom : refs.length ≤ cfg.numStagingSlots)
    (hcpu : ∀ ref ∈ refs, isCpuResident s.residency ref = true) :
    ∃ out s', ensureResident cfg dev scorer refs s = (.ok out, s') ∧ ∀ ref ∈ refs, ∃ slot,
      out.1.get? ref = some slot := by
  obtain ⟨leaked, -, hinv⟩ := hok
  have hwp : Eff.wp (ensureResident cfg dev scorer refs)
      (fun out _ => ∀ ref ∈ refs, ∃ slot, out.1.get? ref = some slot) (fun _ _ => False) s := by
    refine Eff.wp_mono (wp_ensureResident hinv refs) (fun out s' hout => ?_) fun _ s' hfail => ?_
    · obtain ⟨-, scan, s₁, res, s₂, s₃, hphases⟩ := hout
      have hkeys := hphases.keys_perm hnodup hcpu
      rw [List.take_of_length_le hroom] at hkeys
      intro ref href
      exact OrderedDict.mem_keys_iff.mp (hkeys.mem_iff.mpr href)
    · have hfault := (hfail.fault_of_cpu hcpu).1
      rw [hsteady] at hfault
      cases hfault
  obtain ⟨out, s', hrun, hall⟩ := Eff.exists_of_wp hwp
  exact ⟨out, s', hrun, hall⟩

/-- For tensors as wide as the head size, in every reachable state. -/
theorem roundTrips_iff_of_width {cfg : OrchestratorConfig} {scorer : BlockScorer σ ν S}
    {runtime : Runtime (CacheMemory α L H N W C) (Option (CacheMemory α L H N W C)) ν S}
    (hsteady : runtime.CopiesSucceed) (hwidth : W = C) {o : Orchestrator (CacheMemory α L H N W C) σ}
    (hok : StoreOk cfg (Backing.trivial (cacheDevice runtime)) o.store) {candidates selected : List BlockRef}
    (hnodup : candidates.Nodup) {fraction : ℚ} (hfraction : 0 ≤ fraction ∧ fraction < 1)
    {scoredBlocks : Finset BlockRef}
    (hselected : selectedBlocks scorer o.store candidates fraction scoredBlocks = .ok selected)
    (hroom : selected.length ≤ o.store.cpuFree.length) (hstaging : selected.length ≤ cfg.numStagingSlots) :
    RoundTrips cfg (cacheDevice runtime) scorer o candidates fraction scoredBlocks selected ↔
      selected = [] ∨ C = 0 := by
  have hcase : W = 2 * C ↔ C = 0 := by omega
  have hmarked :=
    selected_cpuResident_iff hnodup hfraction hselected hroom (storeFault_cacheDevice hsteady o.store.tick)
  constructor
  · intro htrip
    rw [← hcase]
    exact hmarked.mp htrip.offloaded
  · intro hgood
    refine ⟨hmarked.mpr (hgood.imp_right hcase.mpr), ?_⟩
    intro ops hops s hcpu
    have hselected_nodup :=
      nodup_of_subperm (selectedBlocks_subperm hselected) (scoredCandidates_nodup hnodup scoredBlocks)
    rcases hgood with rfl | hzero
    · exact ⟨_, _, rfl, by simp⟩
    · have hstep :=
        storeOk_step cfg (cacheDevice runtime) scorer o (.offloadFraction candidates fraction scoredBlocks) hok
        hnodup
      have hlater : StoreOk cfg (Backing.trivial (cacheDevice runtime)) s :=
        run_invariant (I := fun o => StoreOk cfg (Backing.trivial (cacheDevice runtime)) o.store)
          (fun o op ho hop => storeOk_step cfg (cacheDevice runtime) scorer o op ho hop.1) hstep hops
      obtain ⟨out, s', hrun, hall⟩ := ensureResident_fetches_all hlater
        ((fetchFault_cacheDevice hsteady s.tick).trans (if_pos (hcase.mpr hzero))) hselected_nodup hstaging hcpu
      refine ⟨out, s', hrun, fun ref href => ?_⟩
      obtain ⟨slot, hslot⟩ := hall ref href
      refine ⟨slot, hslot, fun page _ layer => ?_⟩
      -- a head without channels has no bytes to lose
      have hnone : IsEmpty (Fin W) := by
        rw [hwidth, hzero]
        exact Fin.isEmpty
      constructor <;> funext i n c <;> exact hnone.elim c

/-- The memory the package builds over an accepted list. -/
abbrev ViewMemory (α : Type) (view : KVCacheView) :=
  CacheMemory α view.kCaches.length view.numKvHeads view.blockSize view.lastAxis view.headDim

theorem lastAxis_of_pairs {caches : List RunnerCache} {spec : AttentionSpec} {pages stagingSlots : Nat}
    (hpairs : ∀ cache ∈ caches, cache =
      .pair (some [pages, spec.numKvHeads, spec.blockSize, spec.headSize])
        (some [pages, spec.numKvHeads, spec.blockSize, spec.headSize]))
    {view : KVCacheView} (hview : normalizeRunnerKvCaches caches spec stagingSlots = .ok view) :
    view.lastAxis = spec.headSize ∧ view.headDim = spec.headSize := by
  cases caches with
  | nil => cases hview
  | cons cache others =>
      rw [normalizeRunnerKvCaches_pairs (List.cons_ne_nil cache others) hpairs] at hview
      obtain rfl := Except.ok.inj hview
      exact ⟨rfl, rfl⟩

/-- Over pairs of tensors of the heads' own size, a selection makes the round trip exactly if it is empty or
the heads have no channels: the store splits the keys in the middle, the halves do not fit the CPU slots,
and the exception is swallowed. -/
theorem pairs_round_trip_iff (spec : AttentionSpec) {caches : List RunnerCache} {pages stagingSlots : Nat}
    (hpairs : ∀ cache ∈ caches, cache =
      .pair (some [pages, spec.numKvHeads, spec.blockSize, spec.headSize])
        (some [pages, spec.numKvHeads, spec.blockSize, spec.headSize]))
    {view : KVCacheView} (hview : normalizeRunnerKvCaches caches spec stagingSlots = .ok view)
    (cfg : OrchestratorConfig) (scorer : BlockScorer σ ν S)
    (runtime : Runtime (ViewMemory α view) (Option (ViewMemory α view)) ν S) (hsteady : runtime.CopiesSucceed)
    (x : σ) (mem : ViewMemory α view) {ops : List (Op (ViewMemory α view))} (hops : ∀ op ∈ ops, op.Distinct)
    {o : Orchestrator (ViewMemory α view) σ}
    (hreach : o = run (step cfg (cacheDevice runtime) scorer) (Orchestrator.init cfg x mem) ops)
    {candidates selected : List BlockRef} (hnodup : candidates.Nodup) {fraction : ℚ}
    (hfraction : 0 ≤ fraction ∧ fraction < 1) {scoredBlocks : Finset BlockRef}
    (hselected : selectedBlocks scorer o.store candidates fraction scoredBlocks = .ok selected)
    (hroom : selected.length ≤ o.store.cpuFree.length) (hstaging : selected.length ≤ cfg.numStagingSlots) :
    RoundTrips cfg (cacheDevice runtime) scorer o candidates fraction scoredBlocks selected ↔
      selected = [] ∨ spec.headSize = 0 := by
  obtain ⟨hlast, hhead⟩ := lastAxis_of_pairs hpairs hview
  have hok := storeOk_run cfg (cacheDevice runtime) scorer x mem hops
  rw [← hreach] at hok
  rw [← hhead]
  exact roundTrips_iff_of_width hsteady (hlast.trans hhead.symm) hok hnodup hfraction hselected hroom hstaging

/-- One layer, one head of two channels, pages of two tokens. -/
def pairSpec : AttentionSpec := ⟨1, 2, 2⟩

def pairCaches : List RunnerCache := [.pair (some [9, 1, 2, 2]) (some [9, 1, 2, 2])]

def pairView : KVCacheView := ⟨[[9, 1, 2, 2]], [[9, 1, 2, 2]], 2, 1, 2, 8⟩

/-- Every page holds its own number. -/
def pairMemory : ViewMemory Nat pairView := ⟨fun _ p _ _ _ => p, fun _ p _ _ _ => p + 100, fun _ _ _ _ _ _ => 0⟩

def pairRuntime : Runtime (ViewMemory Nat pairView) (Option (ViewMemory Nat pairView)) Unit Nat :=
  stableRuntime (fun _ _ => ()) (fun _ => none) (fun _ => none) fun _ => false

/-- A request with two full blocks. -/
def pairStart : Orchestrator (ViewMemory Nat pairView) LruState :=
  run (step smallConfig (cacheDevice pairRuntime) lruScorer) (Orchestrator.init smallConfig ⟨.empty, 0⟩ pairMemory)
    [.sync requestA [3, 5] 4]

theorem pairs_round_trip_pairStart :
    ¬RoundTrips smallConfig (cacheDevice pairRuntime) lruScorer pairStart [⟨requestA, 0⟩] 0 {⟨requestA, 0⟩}
      [⟨requestA, 0⟩] := by
  have hview : normalizeRunnerKvCaches pairCaches pairSpec 1 = .ok pairView := rfl
  have hpairs : ∀ cache ∈ pairCaches, cache =
      .pair (some [9, pairSpec.numKvHeads, pairSpec.blockSize, pairSpec.headSize])
        (some [9, pairSpec.numKvHeads, pairSpec.blockSize, pairSpec.headSize]) := by decide
  have hselected :
      selectedBlocks lruScorer pairStart.store [⟨requestA, 0⟩] 0 {⟨requestA, 0⟩} = .ok [⟨requestA, 0⟩] := by
    decide +kernel
  have hroom : [(⟨requestA, 0⟩ : BlockRef)].length ≤ pairStart.store.cpuFree.length := by decide +kernel
  apply (pairs_round_trip_iff pairSpec hpairs hview smallConfig lruScorer pairRuntime
    (fun _ => ⟨rfl, rfl⟩) ⟨.empty, 0⟩ pairMemory (by simp [Op.Distinct]) rfl (by simp) (by norm_num) hselected hroom
    (by decide)).not.mpr
  decide

/-- The call reports nothing offloaded, and the block stays on the GPU. -/
theorem offloadFraction_pairs_moves_nothing :
    normalizeRunnerKvCaches pairCaches pairSpec 1 = .ok pairView ∧
      selectedBlocks lruScorer pairStart.store [⟨requestA, 0⟩] 0 {⟨requestA, 0⟩} = .ok [⟨requestA, 0⟩] ∧
      (offloadFraction (cacheDevice pairRuntime) lruScorer [⟨requestA, 0⟩] 0
        {⟨requestA, 0⟩} pairStart.store).1.toOption =
        some [] ∧
      ¬RoundTrips smallConfig (cacheDevice pairRuntime) lruScorer pairStart [⟨requestA, 0⟩] 0 {⟨requestA, 0⟩}
        [⟨requestA, 0⟩] := by
  refine ⟨rfl, by decide +kernel, by decide +kernel, fun htrip => ?_⟩
  have hcpu := htrip.offloaded ⟨requestA, 0⟩ List.mem_cons_self
  have hgpu : isCpuResident (step smallConfig (cacheDevice pairRuntime) lruScorer pairStart
      (.offloadFraction [⟨requestA, 0⟩] 0 {⟨requestA, 0⟩})).store.residency ⟨requestA, 0⟩ = false := by decide +kernel
  rw [hgpu] at hcpu
  cases hcpu

end RoundTrip

end KVOffload

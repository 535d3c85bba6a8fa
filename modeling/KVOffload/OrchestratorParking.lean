import KVOffload.OrchestratorPlacement
import KVOffload.OrchestratorSlots

/-! Once a block has been offloaded it lives in its CPU slot, staged or not, until its request is cleaned
up. No operation binds it to a GPU page again, so no batch can copy it a second time. -/

namespace KVOffload
open Base

variable {μ φ ν σ S : Type} [LinearOrder S]

/-- The block lives in CPU slot `c`. -/
def ParkedAt (t : ResidencyTable) (ref : BlockRef) (c : Nat) : Prop :=
  ∃ loc, t.get ref = some loc ∧ loc.residency ≠ .gpu ∧ loc.cpuSlot = some c

/-- The operation cleans up request `r`. -/
def Op.CleansUp (r : RequestId) : Op μ → Prop
  | .requestDone r' => r' = r
  | .requestPreempted r' => r' = r
  | _ => False

section Table

variable {cfg : OrchestratorConfig} {t t' : ResidencyTable} {ref : BlockRef} {c : Nat}

theorem ParkedAt.of_get (h : ParkedAt t ref c) (hget : t'.get ref = t.get ref) : ParkedAt t' ref c := by
  obtain ⟨loc, hloc, hres, hslot⟩ := h
  exact ⟨loc, hget.trans hloc, hres, hslot⟩

/-- A sync refreshes the completeness flag of an offloaded block and nothing else, whatever page it lists. -/
theorem ParkedAt.synced {r : RequestId} {ids : List Nat} {n : Nat} (h : ParkedAt t ref c)
    (hsync : Synced cfg r ids n t t') : ParkedAt t' ref c := by
  by_cases hlisted : ref ∈ blockRefs r ids.length
  · obtain ⟨i, hi, rfl⟩ := mem_blockRefs.mp hlisted
    obtain ⟨loc, hloc, hres, hslot⟩ := h
    have hget := hsync.listed i ids[i] (List.getElem?_eq_getElem hi)
    rw [hloc, syncedLocation, if_neg (fun hgpu => hres hgpu.1)] at hget
    exact ⟨_, hget, hres, hslot⟩
  · exact h.of_get (hsync.kept ref hlisted)

theorem ParkedAt.graduated {n : Nat} {refs : List BlockRef} (h : ParkedAt t ref c) (hgrad : Graduated cfg n refs t t') :
    ParkedAt t' ref c := by
  obtain ⟨loc, hloc, hres, hslot⟩ := h
  have hget := hgrad ref
  rw [hloc, Option.map_some, BlockLocation.completeIf] at hget
  split_ifs at hget
  · exact ⟨_, hget, hres, hslot⟩
  · exact ⟨_, hget, hres, hslot⟩

/-- Only blocks on the GPU are offloaded. -/
theorem ParkedAt.offloaded {out : List BlockRef} (h : ParkedAt t ref c) (hoff : Offloaded t t' out) :
    ParkedAt t' ref c := by
  apply h.of_get
  apply hoff.kept
  intro hmem
  obtain ⟨loc, hloc, hres, -⟩ := h
  obtain ⟨loc', -, hloc', hgpu, -⟩ := hoff.moved ref hmem
  obtain rfl : loc = loc' := Option.some.inj (hloc.symm.trans hloc')
  exact hres hgpu

theorem ParkedAt.restages (h : ParkedAt t ref c) (hstage : Restages t t') : ParkedAt t' ref c := by
  obtain ⟨loc, hloc, hres, hslot⟩ := h
  obtain ⟨loc', hloc', hsame⟩ := hstage.of_some hloc
  exact ⟨loc', hloc', fun hgpu => hres (hsame.gpu_iff.mpr hgpu), hsame.cpuSlot.symm.trans hslot⟩

/-- An offloaded block is in no batch of pages to copy. -/
theorem ParkedAt.not_mem_refsWithGpu (h : ParkedAt t ref c) (refs : List BlockRef) :
    ref ∉ (refsWithGpu t refs).map Prod.fst := by
  intro hmem
  obtain ⟨e, he, rfl⟩ := List.mem_map.mp hmem
  obtain ⟨loc, hloc, hgpu, -⟩ := gpuPage_eq_some.mp (mem_refsWithGpu.mp he).2
  obtain ⟨loc', hloc', hres, -⟩ := h
  obtain rfl : loc = loc' := Option.some.inj (hloc.symm.trans hloc')
  exact hres hgpu

end Table

section Runs

variable {cfg : OrchestratorConfig} {dev : Device μ φ ν S} {K : Backing dev} {scorer : BlockScorer σ ν S}
  {o o' : Orchestrator μ σ} {op : Op μ}

/-- The list of a request names blocks of that request. -/
def ListsOwn (o : Orchestrator μ σ) : Prop := ∀ r, ∀ ref ∈ listedBlocks o r, ref.requestId = r

theorem listsOwn_init (x : σ) (mem : μ) : ListsOwn (Orchestrator.init cfg x mem) := by
  intro r ref href
  cases href

theorem ListsOwn.of_requestBlocks (h : ListsOwn o) (hsame : o'.requestBlocks = o.requestBlocks) : ListsOwn o' := by
  intro r ref href
  rw [listedBlocks, hsame] at href
  exact h r ref href

theorem ListsOwn.sync {r : RequestId} {ids : List Nat} {n : Nat} {failed : Prop} (h : ListsOwn o)
    (hsync : SyncPost cfg K scorer r ids n o failed o') : ListsOwn o' := by
  by_cases hfailed : failed
  · exact h.of_requestBlocks (hsync.requestBlocks_failed hfailed)
  · intro r' ref href
    rw [listedBlocks, hsync.requestBlocks hfailed, OrderedDict.get?_set] at href
    split_ifs at href with heq
    · obtain ⟨i, -, rfl⟩ := mem_blockRefs.mp href
      exact heq.symm
    · exact h r' ref href

theorem ListsOwn.cleanup {r : RequestId} (h : ListsOwn o) (hcleanup : CleanupPost cfg K scorer r o o') :
    ListsOwn o' := by
  intro r' ref href
  rw [listedBlocks, show o'.requestBlocks = o.requestBlocks.erase r by rw [hcleanup.state],
    OrderedDict.get?_erase] at href
  split_ifs at href
  · cases href
  · exact h r' ref href

theorem StepPost.listsOwn (hpost : StepPost cfg K scorer o op o') (h : ListsOwn o) : ListsOwn o' := by
  cases hpost with
  | warmup _ => exact h
  | sync _ hsync => exact h.sync hsync
  | prefill hprefill => exact h.of_requestBlocks (by rw [hprefill.state])
  | offload _ hstate _ => exact h.of_requestBlocks (by rw [hstate])
  | staging hstate _ => exact h.of_requestBlocks (by rw [hstate])
  | note hstate _ => exact h.of_requestBlocks (by rw [hstate])
  | startDecode => exact h
  | cleanup _ hcleanup => exact h.cleanup hcleanup
  | write => exact h

/-- One operation keeps an offloaded block in its slot unless it cleans up the block's request. -/
theorem StepPost.parkedAt (hpost : StepPost cfg K scorer o op o') (hlists : ListsOwn o) {ref : BlockRef} {c : Nat}
    (h : ParkedAt o.store.residency ref c) (hop : ¬op.CleansUp ref.requestId) : ParkedAt o'.store.residency ref c := by
  cases hpost with
  | warmup _ => exact h
  | sync _ hsync => exact h.synced hsync.table
  | prefill hprefill => exact h.graduated hprefill.table
  | offload _ _ hoffload => exact h.offloaded hoffload.table
  | staging _ hstaging => exact h.restages hstaging.restages
  | note hstate _ => exact h.of_get (by rw [hstate])
  | startDecode => exact h
  | cleanup hrequest hcleanup =>
      -- the cleaned request is another one, so its list does not name the block
      rename_i r
      have hne : ref.requestId ≠ r := by
        rintro rfl
        apply hop
        rcases hrequest with rfl | rfl <;> exact rfl
      apply h.of_get
      rw [hcleanup.cleaning.get, if_neg]
      exact fun hmem => hne (hlists r ref hmem)
  | write => exact h

variable (cfg dev scorer)

/-- From the moment a block is CPU-resident until its request is cleaned up, it is CPU-resident or staged, its
CPU slot is the same one, and it is in no batch of GPU pages to copy. -/
theorem offloaded_never_rebinds (x : σ) (mem : μ) (ops more : List (Op μ)) (hops : ∀ op ∈ ops, op.Distinct)
    {ref : BlockRef} {loc : BlockLocation}
    (hloc : (run (step cfg dev scorer) (Orchestrator.init cfg x mem) ops).store.residency.get ref = some loc)
    (hcpu : loc.residency = .cpu) (hmore : ∀ op ∈ more, op.Distinct ∧ ¬op.CleansUp ref.requestId) :
    let t := (run (step cfg dev scorer) (Orchestrator.init cfg x mem) (ops ++ more)).store.residency
    (∃ loc', t.get ref = some loc' ∧ (loc'.residency = .cpu ∨ loc'.residency = .staging) ∧ loc'.cpuSlot = loc.cpuSlot) ∧
      ∀ refs, ref ∉ (refsWithGpu t refs).map Prod.fst := by
  have hstep : ∀ (o : Orchestrator μ σ) (op : Op μ), StoreOk cfg (Backing.trivial dev) o.store ∧ ListsOwn o →
      op.Distinct → StepPost cfg (Backing.trivial dev) scorer o op (step cfg dev scorer o op) ∧
      StoreOk cfg (Backing.trivial dev) (step cfg dev scorer o op).store ∧ ListsOwn (step cfg dev scorer o op) := by
    intro o op ho hdistinct
    have hpost : StepPost cfg (Backing.trivial dev) scorer o op (step cfg dev scorer o op) :=
      step_post ho.1 hdistinct fun _ _ _ _ => True.intro
    exact ⟨hpost, hpost.storeOk ho.1 fun _ _ _ _ _ _ => True.intro, hpost.listsOwn ho.2⟩
  let start := run (step cfg dev scorer) (Orchestrator.init cfg x mem) ops
  have hstart : StoreOk cfg (Backing.trivial dev) start.store ∧ ListsOwn start :=
    run_invariant (I := fun o : Orchestrator μ σ => StoreOk cfg (Backing.trivial dev) o.store ∧ ListsOwn o)
      (fun o op ho hop => (hstep o op ho hop).2) ⟨storeOk_init cfg (Backing.trivial dev) x mem, listsOwn_init x mem⟩
      (along_of_forall_mem hops _)
  obtain ⟨c, hc⟩ := Option.isSome_iff_exists.mp
    ((start.store.residency.wellFormed ref loc hloc).cpuSlot_isSome (by rw [hcpu]; decide))
  have hparked : ParkedAt start.store.residency ref c := ⟨loc, hloc, by rw [hcpu]; decide, hc⟩
  -- the continuation keeps the block parked, step by step
  have hend := run_invariant
    (I := fun o : Orchestrator μ σ => (StoreOk cfg (Backing.trivial dev) o.store ∧ ListsOwn o) ∧
      ParkedAt o.store.residency ref c)
    (fun o op ho hop => ⟨(hstep o op ho.1 hop.1).2, (hstep o op ho.1 hop.1).1.parkedAt ho.1.2 ho.2 hop.2⟩)
    ⟨hstart, hparked⟩ (along_of_forall_mem hmore _)
  intro t
  have ht : t = (run (step cfg dev scorer) start more).store.residency := by
    show (run (step cfg dev scorer) _ (ops ++ more)).store.residency = _
    rw [run_append]
  rw [ht]
  refine ⟨?_, hend.2.not_mem_refsWithGpu⟩
  obtain ⟨loc', hloc', hres, hslot⟩ := hend.2
  refine ⟨loc', hloc', ?_, hslot.trans hc.symm⟩
  cases hresidency : loc'.residency with
  | gpu => exact absurd hresidency hres
  | cpu => exact Or.inl rfl
  | staging => exact Or.inr rfl

/-- A request with two full blocks, one of which goes to the CPU. -/
def parkingScenario : List (Op SmallMemory) :=
  let refs : List BlockRef := [⟨requestA, 0⟩, ⟨requestA, 1⟩]
  [.sync requestA [3, 5] 4, .offloadFraction refs (1 / 2) refs.toFinset]

/-- It is staged, listed with the null page, with its old page and with a fresh one, and released. -/
def resumedScenario : List (Op SmallMemory) :=
  [.ensureResident [⟨requestA, 0⟩], .sync requestA [0, 5] 4, .sync requestA [3, 5] 6, .requestDone requestB,
    .sync requestA [7, 6, 4] 0, .release ⟨requestA, 0⟩, .maybeOffload [⟨requestA, 0⟩, ⟨requestA, 1⟩]]

theorem offloaded_never_rebinds_resumedScenario :
    let t := (run (step smallConfig (combinedDevice steadyRuntime) lruScorer) (Orchestrator.init smallConfig ⟨.empty, 0⟩
      blankMemory) (parkingScenario ++ resumedScenario)).store.residency
    (∃ loc', t.get ⟨requestA, 0⟩ = some loc' ∧ (loc'.residency = .cpu ∨ loc'.residency = .staging) ∧
      loc'.cpuSlot = some 0) ∧ ∀ refs, (⟨requestA, 0⟩ : BlockRef) ∉ (refsWithGpu t refs).map Prod.fst := by
  have hloc :
      (run (step smallConfig (combinedDevice steadyRuntime) lruScorer) (Orchestrator.init smallConfig ⟨.empty, 0⟩
      blankMemory) parkingScenario).store.residency.get ⟨requestA, 0⟩ =
      some { residency := .cpu, gpuBlockId := some 3, cpuSlot := some 0, complete := true } := by decide +kernel
  exact offloaded_never_rebinds smallConfig (combinedDevice steadyRuntime) lruScorer ⟨.empty, 0⟩ blankMemory
    parkingScenario resumedScenario (by simp [parkingScenario, Op.Distinct]) hloc rfl
    (by simp [resumedScenario, Op.Distinct, Op.CleansUp, requestA, requestB])

end Runs

end KVOffload

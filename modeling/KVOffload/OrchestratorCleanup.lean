import KVOffload.OrchestratorSlots

/-! Cleanup. `_cleanup_request` walks the request's current block list, while the residency table, the
pools and the scorer accumulate. Cleanup is complete as long as the list covers everything they hold
of the request; each operation keeps the cover under a condition on its arguments and start state. -/

namespace KVOffload
open Base

variable {μ φ ν σ S : Type} [LinearOrder S]

def Tracked (o : Orchestrator μ σ) (ref : BlockRef) : Prop := (o.store.residency.get ref).isSome

/-- Everything the orchestrator holds of a request is in the request's block list. -/
structure Covered (scorer : BlockScorer σ ν S) (o : Orchestrator μ σ) : Prop where
  lists : ∀ r, ∃ n, listedBlocks o r = blockRefs r n
  tracked : ∀ ref, Tracked o ref → ref ∈ listedBlocks o ref.requestId
  scored : ∀ ref ∈ o.scored, Tracked o ref
  known : ∀ ref, scorer.known o.store.scorer ref = true → Tracked o ref

/-- What keeps the cover: a block list does not shrink, a scoring pass does not fail while the list
grows, and usage is noted for tracked blocks only. -/
def Op.Covers (dev : Device μ φ ν S) (scorer : BlockScorer σ ν S) (o : Orchestrator μ σ) : Op μ → Prop
  | .sync r ids _ => isWarmup r = true ∨ (listedBlocks o r).length ≤ ids.length ∧
      (ids.length ≤ (listedBlocks o r).length ∨ dev.scoreFault o.store.tick = false)
  | .noteSelection rs pattern pageSize =>
      scorer.noteUsage.isSome → ∀ ref ∈ notedRefs rs pattern pageSize, (o.store.residency.get ref).isSome
  | op => op.Distinct

/-- Nothing of request `r` is left, its slots are free, and nobody else's entries changed. -/
structure CleanedUp (scorer : BlockScorer σ ν S) (r : RequestId) (o o' : Orchestrator μ σ) : Prop where
  residency : ∀ ref, ref.requestId = r → o'.store.residency.get ref = none
  lru : ∀ ref, ref.requestId = r → o'.store.lru.get? ref = none
  scored : ∀ ref, ref.requestId = r → ref ∉ o'.scored
  known : ∀ ref, ref.requestId = r → scorer.known o'.store.scorer ref = false
  controller : r ∉ o'.controller.started ∧ o'.controller.decodeTokens.get? r = none
  cpuFree : ∀ ref loc c, ref.requestId = r → o.store.residency.get ref = some loc → loc.cpuSlot = some c →
    c ∈ o'.store.cpuFree
  stagingFree : ∀ ref slot, ref.requestId = r → o.store.lru.get? ref = some slot → slot ∈ o'.store.stagingFree
  others : ∀ ref, ref.requestId ≠ r → o'.store.residency.get ref = o.store.residency.get ref ∧
    o'.store.lru.get? ref = o.store.lru.get? ref ∧ (ref ∈ o'.scored ↔ ref ∈ o.scored) ∧
    scorer.known o'.store.scorer ref = scorer.known o.store.scorer ref ∧
    scorer.value o'.store.scorer ref = scorer.value o.store.scorer ref
  otherRequests : ∀ r', r' ≠ r → o'.requestBlocks.get? r' = o.requestBlocks.get? r' ∧
    (r' ∈ o'.controller.started ↔ r' ∈ o.controller.started) ∧
    o'.controller.decodeTokens.get? r' = o.controller.decodeTokens.get? r'

section Step

variable {cfg : OrchestratorConfig} {dev : Device μ φ ν S} {K : Backing dev} {scorer : BlockScorer σ ν S}
  {o o' : Orchestrator μ σ}

theorem CleanupPost.cleanedUp {r : RequestId} (hcover : Covered scorer o) (hok : StoreOk cfg K o.store)
    (h : CleanupPost cfg K scorer r o o') : CleanedUp scorer r o o' := by
  have hclean : Cleaning cfg K scorer o (listedBlocks o r) o' := h.cleaning
  have hmem : ∀ ref, ref.requestId = r → Tracked o ref → ref ∈ listedBlocks o r := by
    rintro ref rfl htracked
    exact hcover.tracked ref htracked
  have howner : ∀ ref, ref.requestId ≠ r → ref ∉ listedBlocks o r := by
    intro ref hne href
    obtain ⟨n, hn⟩ := hcover.lists r
    rw [hn] at href
    obtain ⟨i, -, rfl⟩ := mem_blockRefs.mp href
    exact hne rfl
  have hget : ∀ ref, ref.requestId = r → o'.store.residency.get ref = none := by
    intro ref href
    rw [hclean.get]
    by_cases htracked : Tracked o ref
    · exact if_pos (hmem ref href htracked)
    · rw [Option.not_isSome_iff_eq_none.mp htracked, ite_self]
  have hlru : ∀ ref slot, ref.requestId = r → o.store.lru.get? ref = some slot → ref ∈ listedBlocks o r := by
    intro ref slot href hslot
    obtain ⟨leaked, -, hinv⟩ := hok
    obtain ⟨loc, hloc, -⟩ := (hinv.lru_iff ref slot).mp hslot
    exact hmem ref href (by rw [Tracked, hloc]; rfl)
  have hblocks : o'.requestBlocks = o.requestBlocks.erase r := by rw [h.state]
  have hcontroller : o'.controller = o.controller.remove r := by rw [h.state]
  refine ⟨hget, fun ref href => ?_, fun ref href hscored => ?_, fun ref href => ?_, ?_,
    fun ref loc c href hloc hc => ?_, fun ref slot href hslot => ?_, fun ref hne => ?_, fun r' hne => ?_⟩
  · rw [hclean.lru]
    cases hslot : o.store.lru.get? ref with
    | none => exact ite_self _
    | some slot => exact if_pos (hlru ref slot href hslot)
  · obtain ⟨hold, hnot⟩ := (hclean.scored ref).mp hscored
    exact hnot (hmem ref href (hcover.scored ref hold))
  · rw [hclean.known]
    cases hknown : scorer.known o.store.scorer ref with
    | false => rfl
    | true => simpa using hmem ref href (hcover.known ref hknown)
  · rw [hcontroller]
    exact ⟨Finset.notMem_erase r _, OrderedDict.get?_erase_self _ _⟩
  · exact hclean.cpuReturned ref (hmem ref href (by rw [Tracked, hloc]; rfl)) loc c hloc hc
  · exact hclean.stagingReturned ref (hlru ref slot href hslot) slot hslot
  · have hnot := howner ref hne
    refine ⟨(hclean.get ref).trans (if_neg hnot), (hclean.lru ref).trans (if_neg hnot), ?_, ?_, hclean.value ref hnot⟩
    · rw [hclean.scored]
      exact and_iff_left hnot
    · rw [hclean.known, decide_eq_true hnot, Bool.and_true]
  · rw [hblocks, hcontroller]
    refine ⟨OrderedDict.get?_erase_of_ne _ hne, ?_, OrderedDict.get?_erase_of_ne _ hne⟩
    rw [Controller.remove, Finset.mem_erase]
    exact and_iff_right hne

/-- An operation that keeps the block lists, the scored set, the registry and which blocks are tracked. -/
theorem Covered.of_same (h : Covered scorer o) (hblocks : o'.requestBlocks = o.requestBlocks)
    (hscored : o'.scored = o.scored) (hknown : scorer.known o'.store.scorer = scorer.known o.store.scorer)
    (htracked : ∀ ref, Tracked o' ref ↔ Tracked o ref) : Covered scorer o' := by
  have hlists : listedBlocks o' = listedBlocks o := by
    funext r
    rw [listedBlocks, listedBlocks, hblocks]
  refine ⟨fun r => ?_, fun ref href => ?_, fun ref href => ?_, fun ref href => ?_⟩
  · rw [hlists]
    exact h.lists r
  · rw [hlists]
    exact h.tracked ref ((htracked ref).mp href)
  · rw [hscored] at href
    exact (htracked ref).mpr (h.scored ref href)
  · rw [hknown] at href
    exact (htracked ref).mpr (h.known ref href)

theorem Offloaded.tracked {t t' : ResidencyTable} {out : List BlockRef} (h : Offloaded t t' out) (ref : BlockRef) :
    (t'.get ref).isSome ↔ (t.get ref).isSome := by
  by_cases hmem : ref ∈ out
  · obtain ⟨loc, c, hget, -, hget'⟩ := h.moved ref hmem
    rw [hget, hget']
    exact Iff.rfl
  · rw [h.kept ref hmem]

theorem Synced.tracked {r : RequestId} {ids : List Nat} {n : Nat} {t t' : ResidencyTable}
    (h : Synced cfg r ids n t t') (ref : BlockRef) :
    (t'.get ref).isSome ↔ (t.get ref).isSome ∨ ref ∈ blockRefs r ids.length := by
  by_cases hmem : ref ∈ blockRefs r ids.length
  · obtain ⟨i, hi, rfl⟩ := mem_blockRefs.mp hmem
    rw [h.listed i ids[i] (List.getElem?_eq_getElem hi)]
    exact ⟨fun _ => Or.inr hmem, fun _ => rfl⟩
  · rw [h.kept ref hmem]
    exact ⟨Or.inl, fun htracked => htracked.resolve_right hmem⟩

/-- The list of a synced request grows to exactly the listed blocks. -/
theorem Covered.listed_sync {r : RequestId} {ids : List Nat} {n : Nat} {failed : Prop} (h : Covered scorer o)
    (hsync : SyncPost cfg K scorer r ids n o failed o') (hle : (listedBlocks o r).length ≤ ids.length)
    (hgrow : ids.length ≤ (listedBlocks o r).length ∨ dev.scoreFault o.store.tick = false) :
    listedBlocks o' r = blockRefs r ids.length ∧ ∀ r', r' ≠ r → listedBlocks o' r' = listedBlocks o r' := by
  by_cases hfailed : failed
  · have hblocks := hsync.requestBlocks_failed hfailed
    have hsame : ids.length = (listedBlocks o r).length := by
      rcases hgrow with hge | hnofault
      · omega
      · have hfault := (hsync.fault hfailed).1
        rw [hnofault] at hfault
        cases hfault
    obtain ⟨m, hm⟩ := h.lists r
    have hlen : m = ids.length := by
      rw [hsame, hm, blockRefs, List.length_map, List.length_range]
    refine ⟨?_, fun r' _ => by rw [listedBlocks, listedBlocks, hblocks]⟩
    calc listedBlocks o' r = listedBlocks o r := by rw [listedBlocks, listedBlocks, hblocks]
      _ = blockRefs r ids.length := by rw [hm, hlen]
  · have hblocks := hsync.requestBlocks hfailed
    refine ⟨?_, fun r' hne => ?_⟩
    · rw [listedBlocks, hblocks, OrderedDict.get?_set_self]
      rfl
    · rw [listedBlocks, listedBlocks, hblocks, OrderedDict.get?_set_of_ne _ _ hne]

theorem Covered.sync {r : RequestId} {ids : List Nat} {n : Nat} {failed : Prop} (h : Covered scorer o)
    (hsync : SyncPost cfg K scorer r ids n o failed o') (hle : (listedBlocks o r).length ≤ ids.length)
    (hgrow : ids.length ≤ (listedBlocks o r).length ∨ dev.scoreFault o.store.tick = false) : Covered scorer o' := by
  obtain ⟨hlisted, hothers⟩ := h.listed_sync hsync hle hgrow
  have htracked := hsync.table.tracked
  refine ⟨fun r' => ?_, fun ref href => ?_, fun ref href => ?_, fun ref href => ?_⟩
  · by_cases hr : r' = r
    · exact ⟨ids.length, hr ▸ hlisted⟩
    · rw [hothers r' hr]
      exact h.lists r'
  · rcases (htracked ref).mp href with hold | hnew
    · have hmem := h.tracked ref hold
      by_cases hr : ref.requestId = r
      · obtain ⟨m, hm⟩ := h.lists r
        rw [hr, hlisted]
        rw [hr, hm] at hmem
        apply blockRefs_subset _ hmem
        rw [hm, blockRefs, List.length_map, List.length_range] at hle
        exact hle
      · rw [hothers _ hr]
        exact hmem
    · obtain ⟨i, -, rfl⟩ := mem_blockRefs.mp hnew
      rw [hlisted]
      exact hnew
  · apply (htracked ref).mpr
    exact (hsync.registers.scored_new ref href).imp_left (h.scored ref)
  · apply (htracked ref).mpr
    exact (hsync.registers.known_new ref href).imp_left (h.known ref)

theorem Covered.cleanup {r : RequestId} (h : Covered scorer o) (hcleanup : CleanupPost cfg K scorer r o o') :
    Covered scorer o' := by
  have hclean : Cleaning cfg K scorer o (listedBlocks o r) o' := hcleanup.cleaning
  have hblocks : o'.requestBlocks = o.requestBlocks.erase r := by rw [hcleanup.state]
  have hkept : ∀ ref, ref ∉ listedBlocks o r → Tracked o ref → Tracked o' ref := by
    intro ref hnot htracked
    rw [Tracked, hclean.get, if_neg hnot]
    exact htracked
  have hlisted : ∀ r', r' ≠ r → listedBlocks o' r' = listedBlocks o r' := by
    intro r' hne
    rw [listedBlocks, listedBlocks, hblocks, OrderedDict.get?_erase_of_ne _ hne]
  refine ⟨fun r' => ?_, fun ref href => ?_, fun ref href => ?_, fun ref href => ?_⟩
  · by_cases hr : r' = r
    · refine ⟨0, ?_⟩
      rw [hr, listedBlocks, hblocks, OrderedDict.get?_erase_self]
      rfl
    · rw [hlisted r' hr]
      exact h.lists r'
  · rw [Tracked, hclean.get] at href
    split_ifs at href with hmem
    · cases href
    · have hold := h.tracked ref href
      have hne : ref.requestId ≠ r := fun heq => hmem (heq ▸ hold)
      rw [hlisted _ hne]
      exact hold
  · obtain ⟨hold, hnot⟩ := (hclean.scored ref).mp href
    exact hkept ref hnot (h.scored ref hold)
  · rw [hclean.known, Bool.and_eq_true, decide_eq_true_iff] at href
    exact hkept ref href.2 (h.known ref href.1)

theorem Covered.prefill {r : RequestId} {n : Nat} {failed : Prop} (h : Covered scorer o)
    (hprefill : PrefillPost cfg K scorer n (prefillRefs o r) o failed o') : Covered scorer o' := by
  have htracked : ∀ ref, Tracked o' ref ↔ Tracked o ref := by
    intro ref
    rw [Tracked, hprefill.table ref, Option.isSome_map]
    exact Iff.rfl
  have hlists : listedBlocks o' = listedBlocks o := by
    funext r'
    rw [listedBlocks, listedBlocks, hprefill.state]
  refine ⟨fun r' => ?_, fun ref href => ?_, fun ref href => ?_, fun ref href => ?_⟩
  · rw [hlists]
    exact h.lists r'
  · rw [hlists]
    exact h.tracked ref ((htracked ref).mp href)
  · apply (htracked ref).mpr
    exact (hprefill.registers.scored_new ref href).elim (h.scored ref) And.right
  · apply (htracked ref).mpr
    exact (hprefill.registers.known_new ref href).elim (h.known ref) And.right

theorem Covered.note {rs : List RequestId} {pattern : SparsePattern} {pageSize : Nat} (h : Covered scorer o)
    (hstate : o' = { o with store := { o.store with scorer := o'.store.scorer } })
    (hknown : ∀ ref, scorer.known o'.store.scorer ref = true →
      scorer.known o.store.scorer ref = true ∨ scorer.noteUsage.isSome ∧ ref ∈ notedRefs rs pattern pageSize)
    (hnoted : scorer.noteUsage.isSome → ∀ ref ∈ notedRefs rs pattern pageSize, Tracked o ref) : Covered scorer o' := by
  have hlists : listedBlocks o' = listedBlocks o := by rw [hstate]; rfl
  have htracked : Tracked o' = Tracked o := by rw [hstate]; rfl
  have hscored : o'.scored = o.scored := by rw [hstate]
  refine ⟨?_, ?_, ?_, fun ref href => ?_⟩
  · rw [hlists]
    exact h.lists
  · rw [htracked, hlists]
    exact h.tracked
  · rw [htracked, hscored]
    exact h.scored
  · rw [htracked]
    exact (hknown ref href).elim (h.known ref) fun hnew => hnoted hnew.1 ref hnew.2

/-- One operation that meets its condition keeps the cover. -/
theorem StepPost.covered {op : Op μ} (hpost : StepPost cfg K scorer o op o') (h : Covered scorer o)
    (hop : op.Covers dev scorer o) : Covered scorer o' := by
  cases hpost with
  | warmup _ => exact h
  | sync hwarm hsync =>
      rcases hop with hwarm' | ⟨hle, hgrow⟩
      · rw [hwarm] at hwarm'
        cases hwarm'
      · exact h.sync hsync hle hgrow
  | prefill hprefill => exact h.prefill hprefill
  | offload _ hstate hoffload =>
      exact h.of_same (by rw [hstate]) (by rw [hstate]) hoffload.frame.known hoffload.table.tracked
  | staging hstate hstaging =>
      exact h.of_same (by rw [hstate]) (by rw [hstate]) hstaging.known fun ref => hstaging.restages.isSome_iff
  | note hstate hknown => exact h.note hstate hknown hop
  | startDecode => exact h.of_same rfl rfl rfl fun _ => Iff.rfl
  | cleanup _ hcleanup => exact h.cleanup hcleanup
  | write => exact h.of_same rfl rfl rfl fun _ => Iff.rfl

end Step

theorem Op.Covers.distinct {dev : Device μ φ ν S} {scorer : BlockScorer σ ν S} {o : Orchestrator μ σ} {op : Op μ}
    (h : op.Covers dev scorer o) : op.Distinct := by
  cases op <;> first | exact h | exact True.intro

section Runs

variable (cfg : OrchestratorConfig) (dev : Device μ φ ν S) (scorer : BlockScorer σ ν S)

theorem covered_init {x : σ} (hblank : ∀ ref, scorer.known x ref = false) (mem : μ) :
    Covered scorer (Orchestrator.init cfg x mem) where
  lists r := ⟨0, rfl⟩
  tracked ref href := by cases href
  scored ref href := absurd href (Finset.notMem_empty ref)
  known ref href := by
    have hunknown : scorer.known (Orchestrator.init cfg x mem).store.scorer ref = false := hblank ref
    rw [hunknown] at href
    cases href

/-- After a run whose operations all meet their condition, a request that ends or is preempted leaves
nothing behind. -/
theorem cleanup_complete {x : σ} (hblank : ∀ ref, scorer.known x ref = false) (mem : μ) {ops : List (Op μ)}
    (hops : Along (step cfg dev scorer) (Op.Covers dev scorer) (Orchestrator.init cfg x mem) ops) (r : RequestId)
    {op : Op μ} (hop : op = .requestDone r ∨ op = .requestPreempted r) :
    CleanedUp scorer r (run (step cfg dev scorer) (Orchestrator.init cfg x mem) ops)
      (step cfg dev scorer (run (step cfg dev scorer) (Orchestrator.init cfg x mem) ops) op) := by
  have hinv : StoreOk cfg (Backing.trivial dev) (run (step cfg dev scorer) (Orchestrator.init cfg x mem) ops).store ∧
      Covered scorer (run (step cfg dev scorer) (Orchestrator.init cfg x mem) ops) := by
    refine run_invariant (I := fun o : Orchestrator μ σ => StoreOk cfg (Backing.trivial dev) o.store ∧ Covered scorer o)
      ?_ ⟨storeOk_init cfg (Backing.trivial dev) x mem, covered_init cfg scorer hblank mem⟩ hops
    rintro o op ⟨hok, hcover⟩ hcond
    have hpost : StepPost cfg (Backing.trivial dev) scorer o op (step cfg dev scorer o op) :=
      step_post hok hcond.distinct fun _ _ _ _ => True.intro
    exact ⟨hpost.storeOk hok fun _ _ _ _ _ _ => True.intro, hpost.covered hcover hcond⟩
  obtain ⟨hok, hcover⟩ := hinv
  exact (cleanupPost_step hok hop).cleanedUp hcover hok

end Runs

/-- Two requests: a block of each is offloaded, the one of the first is staged, the one of the second has been used, and
the first request grows before it is preempted. -/
def cleanupScenario : List (Op SmallMemory) :=
  let refs : List BlockRef := [⟨requestA, 0⟩, ⟨requestB, 0⟩]
  [.sync requestA [3, 5] 4, .sync requestB [7] 2, .noteSelection [requestB] firstToken 2,
    .offloadFraction refs (3 / 4) refs.toFinset, .ensureResident [⟨requestA, 0⟩], .sync requestA [3, 5, 6] 5]

theorem cleanup_complete_cleanupScenario :
    let before := run (step smallConfig (combinedDevice steadyRuntime) lruScorer)
      (Orchestrator.init smallConfig ⟨.empty, 0⟩ blankMemory) cleanupScenario
    let after := step smallConfig (combinedDevice steadyRuntime) lruScorer before (.requestPreempted requestA)
    CleanedUp lruScorer requestA before after ∧ before.store.lru.keys = [⟨requestA, 0⟩] ∧ before.store.cpuFree = [] ∧
      after.store.cpuFree = [0] ∧ lruScorer.value after.store.scorer ⟨requestB, 0⟩ = some 1 := by
  refine ⟨cleanup_complete smallConfig (combinedDevice steadyRuntime) lruScorer (fun _ => rfl) blankMemory ?_ requestA
    (Or.inr rfl), by decide +kernel, by decide +kernel, by decide +kernel, by decide +kernel⟩
  have hnodup : [(⟨requestA, 0⟩ : BlockRef), ⟨requestB, 0⟩].Nodup := by decide
  refine ⟨Or.inr ⟨by decide +kernel, Or.inr rfl⟩, Or.inr ⟨by decide +kernel, Or.inr rfl⟩, fun _ => by decide +kernel,
    hnodup, True.intro, Or.inr ⟨by decide +kernel, Or.inr rfl⟩, True.intro⟩

/-- A resumed request with a shorter block list: its second block is never forgotten. -/
theorem shorter_list_leaks_block :
    ¬CleanedUp lruScorer requestA
      (run (step smallConfig (combinedDevice steadyRuntime) lruScorer)
        (Orchestrator.init smallConfig ⟨.empty, 0⟩ blankMemory)
        [.sync requestA [3, 5] 4, .sync requestA [3] 2])
      (step smallConfig (combinedDevice steadyRuntime) lruScorer
        (run (step smallConfig (combinedDevice steadyRuntime) lruScorer)
          (Orchestrator.init smallConfig ⟨.empty, 0⟩ blankMemory) [.sync requestA [3, 5] 4, .sync requestA [3] 2])
        (.requestDone requestA)) := by
  intro hclean
  have hgone := hclean.residency ⟨requestA, 1⟩ rfl
  exact absurd hgone (by decide +kernel)

end KVOffload

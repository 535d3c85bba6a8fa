import KVOffload.StagingContract
import KVOffload.StoreResidencyFields

/-! The gate in front of the lag prefetch. `prepare_staging` returns at once while the version of the
CPU-only set is the one its last pass started from. The version moves with every change of that set,
and a pass that finds a cold block stages at least one, which is such a change. So while the gate is
closed the last pass found nothing to do, and the same pass would find nothing now. -/

namespace KVOffload
open Base

/-- The version never goes back, and while it stands still so does the set of CPU-only blocks. -/
structure Advances (t t' : ResidencyTable) : Prop where
  version_le : t.cpuVersion ≤ t'.cpuVersion
  same : t'.cpuVersion = t.cpuVersion → ∀ ref, isCpuResident t' ref = isCpuResident t ref

instance : IsPreorder ResidencyTable Advances where
  refl _ := ⟨le_rfl, fun _ _ => rfl⟩
  trans t t' t'' h h' := by
    refine ⟨h.version_le.trans h'.version_le, fun heq ref => ?_⟩
    have hle := h.version_le
    have hle' := h'.version_le
    rw [h'.same (by omega), h.same (by omega)]

/-- A table operation moves the version exactly if it changes the set. -/
theorem advances_call {t t' : ResidencyTable} (op : TableOp) (h : t.call op = .ok t') : Advances t t' := by
  have hcall := t.outcome_call op
  rw [h] at hcall
  have hversioned := versioned_step t.fields op
  rw [TableFields.step, ← hcall, Versioned] at hversioned
  have hversion : t'.cpuVersion = t.cpuVersion + if t'.fields.cpuBlocks = t.fields.cpuBlocks then 0 else 1 := hversioned
  refine ⟨by omega, fun heq ref => ?_⟩
  have hset : t'.fields.cpuBlocks = t.fields.cpuBlocks := by
    by_contra hne
    rw [if_neg hne] at hversion
    omega
  rw [Bool.eq_iff_iff, isCpuResident, isCpuResident]
  calc isCpu (t'.get ref) = true ↔ ref ∈ t'.fields.cpuBlocks := (mem_cpuBlocks (t := t'.fields)).symm
    _ ↔ ref ∈ t.fields.cpuBlocks := by rw [hset]
    _ ↔ isCpu (t.get ref) = true := mem_cpuBlocks (t := t.fields)

section Programs

variable {μ φ ν σ S : Type} [LinearOrder S]

/-- The residency table and the device's clock advance from one store to the next. -/
structure StoreAdvances (s s' : Store μ σ) : Prop where
  table : Advances s.residency s'.residency
  tick_le : s.tick ≤ s'.tick

instance : IsPreorder (Store μ σ) StoreAdvances where
  refl s := ⟨refl (r := Advances) s.residency, le_rfl⟩
  trans _ _ _ h h' := ⟨IsTrans.trans (r := Advances) _ _ _ h.table h'.table, h.tick_le.trans h'.tick_le⟩

/-- The store advances and the gate remembers the same version. -/
structure OrchestratorAdvances (o o' : Orchestrator μ σ) : Prop where
  store : StoreAdvances o.store o'.store
  lag : o'.lagSeenCpuVersion = o.lagSeenCpuVersion

instance : IsPreorder (Orchestrator μ σ) OrchestratorAdvances where
  refl o := ⟨refl (r := StoreAdvances) o.store, rfl⟩
  trans _ _ _ h h' := ⟨IsTrans.trans (r := StoreAdvances) _ _ _ h.store h'.store, h'.lag.trans h.lag⟩

theorem storeAdvances_of_eq {s s' : Store μ σ} (h : s'.residency = s.residency) (htick : s.tick ≤ s'.tick) :
    StoreAdvances s s' := by
  refine ⟨?_, htick⟩
  rw [h]
  exact refl _

theorem moves_onTable {f : ResidencyTable → Except PyError ResidencyTable} (op : TableOp) (hop : ∀ t, f t = t.call op) :
    Eff.Moves StoreAdvances (onTable f : StoreM μ σ Unit) := by
  intro s
  unfold onTable
  cases hcall : f s.residency with
  | error e => exact refl (r := StoreAdvances) s
  | ok t => exact ⟨advances_call op ((hop _).symm.trans hcall), le_rfl⟩

theorem moves_markCpu (ref : BlockRef) (slot : Nat) : Eff.Moves StoreAdvances (markCpu ref slot : StoreM μ σ Unit) :=
  moves_onTable (.markCpu ref slot) fun _ => rfl

theorem moves_markStaging (ref : BlockRef) (slot : Nat) :
    Eff.Moves StoreAdvances (markStaging ref slot : StoreM μ σ Unit) :=
  moves_onTable (.markStaging ref slot) fun _ => rfl

theorem moves_markComplete (ref : BlockRef) : Eff.Moves StoreAdvances (markComplete ref : StoreM μ σ Unit) :=
  moves_onTable (.markComplete ref) fun _ => rfl

variable {cfg : OrchestratorConfig} {dev : Device μ φ ν S} {scorer : BlockScorer σ ν S}

theorem moves_synchronize (eventRaises : Bool) :
    Eff.Moves StoreAdvances (synchronize eventRaises : StoreM μ σ Unit) :=
  Eff.moves_ite (Eff.moves_raise _) (Eff.moves_pure _)

theorem moves_copyAndPublish (live : List (BlockRef × Nat)) :
    Eff.Moves StoreAdvances (copyAndPublish dev live : StoreM μ σ (List BlockRef)) := by
  have hcopy : Eff.Moves StoreAdvances (copyGpuToCpuBatch dev (live.map Prod.snd) : StoreM μ σ (List Nat × Bool)) := by
    intro s
    unfold copyGpuToCpuBatch
    dsimp only
    split_ifs
    · exact refl s
    · exact refl s
    · cases dev.storeFault s.tick with
      | none => exact storeAdvances_of_eq rfl (Nat.le_succ _)
      | some fault => cases fault <;> exact storeAdvances_of_eq rfl (Nat.le_succ _)
  refine hcopy.bind fun copied => Eff.Moves.bind (moves_synchronize _) fun _ => ?_
  exact (Eff.moves_forEach fun e : BlockRef × Nat => moves_markCpu e.1 e.2).bind fun _ => Eff.moves_pure _

theorem moves_selectForEviction (refs : List BlockRef) (budget : Int) :
    Eff.Moves StoreAdvances (selectForEviction scorer refs budget : StoreM μ σ (List BlockRef)) :=
  fun _ => storeAdvances_of_eq rfl le_rfl

theorem moves_offloadFraction (candidates : List BlockRef) (fraction : ℚ) (scoredBlocks : Finset BlockRef) :
    Eff.Moves StoreAdvances
      (offloadFraction dev scorer candidates fraction scoredBlocks : StoreM μ σ (List BlockRef)) := by
  apply Eff.moves_ite
  · exact Eff.moves_raise _
  · refine Eff.moves_read.bind fun s => Eff.moves_ite (Eff.moves_pure _) ?_
    refine (moves_selectForEviction _ _).bind fun refsToEvict => Eff.moves_read.bind fun s' => ?_
    exact Eff.moves_ite (Eff.moves_pure _) ((moves_copyAndPublish _).attempt fun _ => Eff.moves_pure _)

theorem moves_maybeOffload (candidates : List BlockRef) :
    Eff.Moves StoreAdvances (maybeOffload cfg dev scorer candidates : StoreM μ σ (List BlockRef)) := by
  refine Eff.moves_read.bind fun s => Eff.moves_ite (Eff.moves_pure _) ?_
  refine (moves_selectForEviction _ _).bind fun refsToEvict => Eff.moves_read.bind fun s' => ?_
  exact Eff.moves_ite (Eff.moves_pure _) (moves_copyAndPublish _)

theorem moves_scanBlocks (refs : List BlockRef) (scan : Scan) :
    Eff.Moves StoreAdvances (scanBlocks refs scan : StoreM μ σ Scan) := by
  have hblock : ∀ (ref : BlockRef) (scan : Scan), Eff.Moves StoreAdvances (scanBlock ref scan : StoreM μ σ Scan) := by
    intro ref scan s
    unfold scanBlock
    split
    · exact refl s
    · split
      · exact refl s
      · split
        · split <;> exact storeAdvances_of_eq rfl le_rfl
        · exact refl s
        · exact refl s
  induction refs generalizing scan with
  | nil => exact Eff.moves_pure scan
  | cons ref rest ih => exact (hblock ref scan).bind fun scan' => ih scan'

theorem moves_allocateSlot (exclude : List Nat) :
    Eff.Moves StoreAdvances (allocateSlot scorer exclude : StoreM μ σ Nat) := by
  intro s
  unfold allocateSlot
  split
  · exact storeAdvances_of_eq rfl le_rfl
  · dsimp only
    split_ifs
    · exact storeAdvances_of_eq rfl le_rfl
    · split
      · exact storeAdvances_of_eq rfl le_rfl
      · split
        · exact storeAdvances_of_eq rfl le_rfl
        · rename_i evicted _ _ _ cpuSlot _
          -- The eviction is the only place where slot allocation writes the table.
          split
          · exact storeAdvances_of_eq rfl le_rfl
          · rename_i t hmark _
            exact ⟨advances_call (.markCpu evicted cpuSlot) hmark, le_rfl⟩
          · rename_i t slot hmark _
            exact ⟨advances_call (.markCpu evicted cpuSlot) hmark, le_rfl⟩

theorem moves_reserveSlots (toFetch : List (BlockRef × Nat)) (res : Reservation) :
    Eff.Moves StoreAdvances (reserveSlots scorer toFetch res : StoreM μ σ Reservation) := by
  induction toFetch generalizing res with
  | nil => exact Eff.moves_pure res
  | cons e rest ih =>
      have hslot :
          Eff.Moves StoreAdvances (some <$> allocateSlot scorer (res.allocs.map (·.slot)) : StoreM μ σ (Option Nat)) :=
        (moves_allocateSlot _).map some
      refine (hslot.attempt fun err => Eff.moves_ite (Eff.moves_pure none) (Eff.moves_raise err)).bind fun slot => ?_
      cases slot with
      | none => exact ih _
      | some slot => exact ih _

theorem moves_ensureResident (refs : List BlockRef) :
    Eff.Moves StoreAdvances
      (ensureResident cfg dev scorer refs : StoreM μ σ (OrderedDict BlockRef Nat × List BlockRef)) := by
  have hfetch : ∀ allocs, Eff.Moves StoreAdvances (fetchBatch cfg dev allocs : StoreM μ σ Unit) := by
    intro allocs s
    unfold fetchBatch
    cases dev.fetchFault s.tick <;> exact storeAdvances_of_eq rfl (Nat.le_succ _)
  have hpublish : ∀ allocs, Eff.Moves StoreAdvances (publishAllocs allocs : StoreM μ σ Unit) := by
    intro allocs
    apply Eff.moves_forEach
    intro a
    exact Eff.Moves.bind (fun _ => storeAdvances_of_eq rfl le_rfl) fun _ => moves_markStaging _ _
  refine (moves_scanBlocks _ _).bind fun scan => Eff.moves_ite (Eff.moves_pure _) ?_
  refine (moves_reserveSlots _ _).bind fun res => (hfetch _).bind fun _ => ?_
  exact (hpublish _).bind fun _ => Eff.moves_pure _

theorem moves_release (ref : BlockRef) : Eff.Moves StoreAdvances (release ref : StoreM μ σ Unit) := by
  intro s
  unfold release
  split
  · exact storeAdvances_of_eq rfl le_rfl
  · rename_i slot _
    dsimp only
    split
    · split
      · split_ifs
        · rename_i cpuSlot _ _
          have hmark :=
            moves_markCpu ref cpuSlot { s with lru := s.lru.erase ref, stagingFree := slot :: s.stagingFree }
          exact ⟨hmark.table, hmark.tick_le⟩
        · exact storeAdvances_of_eq rfl le_rfl
      · exact storeAdvances_of_eq rfl le_rfl
    · exact storeAdvances_of_eq rfl le_rfl

theorem moves_onStore {α : Type} {m : StoreM μ σ α} (hm : Eff.Moves StoreAdvances m) :
    Eff.Moves OrchestratorAdvances (onStore m) :=
  hm.zoom fun _ _ hadvances => ⟨hadvances, rfl⟩

/-- A program that leaves the store and the gate alone. -/
theorem moves_of_store {α : Type} {m : OrchestratorM μ σ α} (hstore : ∀ o, (m o).2.store = o.store)
    (hlag : ∀ o, (m o).2.lagSeenCpuVersion = o.lagSeenCpuVersion) : Eff.Moves OrchestratorAdvances m := by
  intro o
  refine ⟨?_, hlag o⟩
  rw [hstore]
  exact refl _

theorem moves_scoreBlocks (refs : List BlockRef) (gpuBlockIds : List Nat) :
    Eff.Moves StoreAdvances (scoreBlocks dev scorer refs gpuBlockIds : StoreM μ σ Unit) := by
  intro s
  unfold scoreBlocks
  dsimp only
  split_ifs
  · exact refl s
  · exact storeAdvances_of_eq rfl (Nat.le_succ _)
  · exact storeAdvances_of_eq rfl (Nat.le_succ _)

theorem moves_scoreCollected (toScore : List (BlockRef × Nat)) :
    Eff.Moves OrchestratorAdvances (scoreCollected dev scorer toScore : OrchestratorM μ σ Unit) :=
  Eff.moves_ite (Eff.moves_pure _) (moves_onStore (moves_scoreBlocks _ _))

theorem moves_syncBlock (r : RequestId) (numComputedTokens : Nat) (e : Nat × Nat) :
    Eff.Moves StoreAdvances (syncBlock cfg r numComputedTokens e : StoreM μ σ Unit) := by
  have hmark : Eff.Moves StoreAdvances (Eff.modify fun s : Store μ σ =>
      { s with residency := s.residency.markGpu ⟨r, e.2⟩ e.1 (decide ((e.2 + 1) * cfg.pageSize ≤ numComputedTokens)) } :
        StoreM μ σ Unit) :=
    fun s => ⟨advances_call (.markGpu _ _ _) rfl, le_rfl⟩
  refine Eff.moves_read.bind fun s => ?_
  split
  · exact hmark
  · exact Eff.moves_ite hmark (Eff.moves_ite (moves_markComplete _) (Eff.moves_pure _))

theorem moves_syncRequestBlocks (r : RequestId) (ids : List Nat) (n : Nat) :
    Eff.Moves OrchestratorAdvances (syncRequestBlocks cfg dev scorer r ids n : OrchestratorM μ σ (List BlockRef)) := by
  refine Eff.moves_ite (Eff.moves_pure _) (Eff.moves_read.bind fun o => ?_)
  refine (Eff.moves_forEach fun e => moves_onStore (moves_syncBlock r n e)).bind fun _ => ?_
  refine Eff.Moves.bind (Eff.moves_read.bind fun o' => ?_) fun _ => ?_
  · refine (moves_of_store (fun _ => rfl) fun _ => rfl).bind fun _ => ?_
    exact (Eff.moves_forEach fun ref => moves_onStore (moves_markComplete ref)).bind fun _ => moves_scoreCollected _
  · exact (moves_of_store (fun _ => rfl) fun _ => rfl).bind fun _ => Eff.moves_pure _

theorem moves_graduateBlock (n : Nat) (ref : BlockRef) (toScore : List (BlockRef × Nat)) :
    Eff.Moves OrchestratorAdvances
      (graduateBlock cfg n ref toScore : OrchestratorM μ σ (List (BlockRef × Nat))) := by
  intro o
  unfold graduateBlock
  split
  · exact refl _
  · split_ifs
    · exact refl _
    · have hmark := moves_onStore (moves_markComplete (μ := μ) (σ := σ) ref) o
      split
      · rename_i hrun
        rwa [hrun] at hmark
      · rename_i hrun
        rw [hrun] at hmark
        split
        · split_ifs
          · exact hmark
          · exact ⟨hmark.store, hmark.lag⟩
        · exact hmark

theorem moves_onPrefillComplete (r : RequestId) (n : Nat) :
    Eff.Moves OrchestratorAdvances (onPrefillComplete cfg dev scorer r n : OrchestratorM μ σ Unit) := by
  have hblocks : ∀ (refs : List BlockRef) (toScore : List (BlockRef × Nat)), Eff.Moves OrchestratorAdvances
      (graduateBlocks cfg n refs toScore : OrchestratorM μ σ (List (BlockRef × Nat))) := by
    intro refs
    induction refs with
    | nil => exact fun toScore => Eff.moves_pure toScore
    | cons ref rest ih => exact fun toScore => (moves_graduateBlock n ref toScore).bind fun toScore' => ih toScore'
  refine Eff.moves_read.bind fun o => Eff.moves_ite (Eff.moves_pure _) ?_
  exact (hblocks _ _).bind fun toScore => moves_scoreCollected toScore

theorem moves_onDecodeStep (rs : List RequestId) (numTokens : Int) :
    Eff.Moves OrchestratorAdvances (onDecodeStep cfg dev scorer rs numTokens : OrchestratorM μ σ (List BlockRef)) := by
  have hcount : Eff.Moves OrchestratorAdvances (countDecodes cfg numTokens rs false : OrchestratorM μ σ Bool) := by
    intro o
    have hfinal : ∃ c, (countDecodes cfg numTokens rs false o).2 = { o with controller := c } :=
      countDecodes_final numTokens rs false o
    obtain ⟨c, hc⟩ := hfinal
    rw [hc]
    exact ⟨refl _, rfl⟩
  refine hcount.bind fun triggered => Eff.moves_ite (Eff.moves_pure _) (Eff.moves_read.bind fun o => ?_)
  exact moves_onStore (moves_offloadFraction _ _ _)

theorem moves_promoteHotCpuBlocks (r : RequestId) (maxCount : Int) :
    Eff.Moves OrchestratorAdvances
      (promoteHotCpuBlocks cfg dev scorer r maxCount : OrchestratorM μ σ (OrderedDict BlockRef Nat)) := by
  refine Eff.moves_read.bind fun o => Eff.moves_ite (Eff.moves_pure _) ?_
  refine Eff.Moves.bind (fun _ => ⟨storeAdvances_of_eq rfl le_rfl, rfl⟩) fun _ => ?_
  exact (moves_onStore (moves_ensureResident _)).bind fun staged => Eff.moves_pure staged.1

theorem moves_cleanupRequest (r : RequestId) :
    Eff.Moves OrchestratorAdvances (cleanupRequest scorer r : OrchestratorM μ σ Unit) := by
  have hblock : ∀ ref, Eff.Moves OrchestratorAdvances (cleanupBlock scorer ref : OrchestratorM μ σ Unit) := by
    intro ref
    refine (moves_onStore (moves_release ref)).bind fun _ o => ?_
    exact ⟨⟨advances_call (.remove ref) rfl, le_rfl⟩, rfl⟩
  refine Eff.moves_read.bind fun o => (moves_of_store (fun _ => rfl) fun _ => rfl).bind fun _ => ?_
  exact (Eff.moves_forEach hblock).bind fun _ => moves_of_store (fun _ => rfl) fun _ => rfl

/-- The part of `prepare_staging` behind the gate. -/
def stagingPass (cfg : OrchestratorConfig) (dev : Device μ φ ν S) (scorer : BlockScorer σ ν S)
    (requestIds : List RequestId) (pattern : SparsePattern) : OrchestratorM μ σ (OrderedDict BlockRef Nat) := do
  let o ← Eff.read
  Eff.modify fun o' => { o' with lagSeenCpuVersion := o.store.residency.cpuVersion }
  match collectNeededBlockRefs requestIds pattern cfg.pageSize with
  | .error e => Eff.raise e
  | .ok needed => do
      let staged ← onStore (ensureResident cfg dev scorer (needed.filter (isCpuResident o.store.residency)))
      pure staged.1

/-- `prepare_staging` returns early. -/
def GateClosed (o : Orchestrator μ σ) : Prop := o.store.residency.cpuVersion = o.lagSeenCpuVersion

instance (o : Orchestrator μ σ) : Decidable (GateClosed o) := inferInstanceAs (Decidable (_ = _))

theorem prepareStaging_eq (rs : List RequestId) (pattern : SparsePattern) (o : Orchestrator μ σ) :
    prepareStaging cfg dev scorer rs pattern o =
      if GateClosed o then (.ok .empty, o) else stagingPass cfg dev scorer rs pattern o := by
  change (if GateClosed o then _ else _ : OrchestratorM μ σ _) o = _
  by_cases hclosed : GateClosed o
  · exact (congrFun (if_pos hclosed) o).trans (if_pos hclosed).symm
  · exact (congrFun (if_neg hclosed) o).trans (if_neg hclosed).symm

/-- A pass remembers the version it started from. -/
theorem stagingPass_advances (cfg : OrchestratorConfig) (dev : Device μ φ ν S) (scorer : BlockScorer σ ν S)
    (rs : List RequestId) (pattern : SparsePattern) (o : Orchestrator μ σ) :
    StoreAdvances o.store (stagingPass cfg dev scorer rs pattern o).2.store ∧
      (stagingPass cfg dev scorer rs pattern o).2.lagSeenCpuVersion = o.store.residency.cpuVersion := by
  have hrest : ∀ result : Except PyError (List BlockRef), Eff.Moves OrchestratorAdvances
      (match result with
        | .error e => Eff.raise e
        | .ok needed => do
            let staged ← onStore (ensureResident cfg dev scorer (needed.filter (isCpuResident o.store.residency)))
            pure staged.1 : OrchestratorM μ σ (OrderedDict BlockRef Nat)) := by
    intro result
    cases result with
    | error e => exact Eff.moves_raise e
    | ok needed => exact (moves_onStore (moves_ensureResident _)).bind fun staged => Eff.moves_pure staged.1
  have hmoves := hrest (collectNeededBlockRefs rs pattern cfg.pageSize)
    { o with lagSeenCpuVersion := o.store.residency.cpuVersion }
  exact ⟨hmoves.store, hmoves.lag⟩

/-- Every operation other than a lag prefetch leaves the gate's memory alone. -/
theorem step_advances (o : Orchestrator μ σ) {op : Op μ} (hop : ∀ rs pattern, op ≠ .prepareStaging rs pattern) :
    OrchestratorAdvances o (step cfg dev scorer o op) := by
  cases op with
  | sync r ids n => exact moves_syncRequestBlocks r ids n o
  | prefillComplete r n => exact moves_onPrefillComplete r n o
  | decodeStep rs n => exact moves_onDecodeStep rs n o
  | offloadFraction candidates fraction scoredBlocks => exact moves_onStore (moves_offloadFraction _ _ _) o
  | maybeOffload candidates => exact moves_onStore (moves_maybeOffload _) o
  | ensureResident refs => exact moves_onStore (moves_ensureResident _) o
  | release ref => exact moves_onStore (moves_release _) o
  | prepareStaging rs pattern => exact absurd rfl (hop rs pattern)
  | noteSelection rs pattern pageSize =>
      rw [step, noteSelection]
      split
      · exact refl _
      · split_ifs
        · exact refl _
        · exact ⟨storeAdvances_of_eq rfl le_rfl, rfl⟩
  | promoteHotCpuBlocks r maxCount => exact moves_promoteHotCpuBlocks r maxCount o
  | startDecode r => exact ⟨refl _, rfl⟩
  | requestDone r => exact moves_cleanupRequest r o
  | requestPreempted r => exact moves_cleanupRequest r o
  | write mem => exact ⟨storeAdvances_of_eq rfl le_rfl, rfl⟩

/-- A call for cold blocks that returns has moved one of them: there is at least one slot. -/
theorem ensureResident_leaves_cpu {K : Backing dev} {leaked : Multiset Nat} {s s' : Store μ σ}
    (hinv : StoreInv cfg K leaked 0 s) {refs : List BlockRef} {ref : BlockRef} (href : ref ∈ refs)
    (hcpu : isCpuResident s.residency ref = true) {out : OrderedDict BlockRef Nat × List BlockRef}
    (hcall : ensureResident cfg dev scorer refs s = (.ok out, s')) :
    ∃ ref', isCpuResident s.residency ref' = true ∧ isCpuResident s'.residency ref' = false := by
  obtain ⟨-, scan, s₁, res, s₂, s₃, hphases⟩ := Eff.of_wp (wp_ensureResident hinv refs) hcall
  have hmem : ref ∈ cpuAmong s.residency refs :=
    List.mem_filter.mpr ⟨OrderedDict.mem_keys_fromKeys.mpr href, hcpu⟩
  have hne : res.allocs.map (·.ref) ≠ [] := by
    rw [hphases.refs_eq, Ne, List.take_eq_nil_iff, not_or]
    exact ⟨cfg.numStagingSlots_pos.ne', List.ne_nil_of_mem hmem⟩
  obtain ⟨ref', href'⟩ := List.exists_mem_of_ne_nil _ hne
  have hbefore := href'
  rw [hphases.refs_eq] at hbefore
  obtain ⟨a, ha, rfl⟩ := List.mem_map.mp href'
  refine ⟨a.ref, (List.mem_filter.mp (List.mem_of_mem_take hbefore)).2, ?_⟩
  exact not_cpuResident_of_stagedAt (hphases.published.staged a ha)

end Programs

/-- A pass that went beyond the gate: what it was asked for and whether it returned. -/
structure Pass where
  requestIds : List RequestId
  pattern : SparsePattern
  returned : Bool
  deriving DecidableEq

/-- The orchestrator, with the last pass that went beyond the gate. -/
structure Gated (μ σ : Type) where
  orchestrator : Orchestrator μ σ
  lastPass : Option Pass

/-- The pattern names no CPU-only block, and collecting its blocks does not raise. -/
def IdlePattern (cfg : OrchestratorConfig) (t : ResidencyTable) (requestIds : List RequestId)
    (pattern : SparsePattern) : Prop :=
  ∃ needed, collectNeededBlockRefs requestIds pattern cfg.pageSize = .ok needed ∧
    ∀ ref ∈ needed, isCpuResident t ref = false

/-- What a closed gate certifies. -/
structure GateInv (cfg : OrchestratorConfig) {μ σ : Type} (g : Gated μ σ) : Prop where
  seen_le : g.orchestrator.lagSeenCpuVersion ≤ g.orchestrator.store.residency.cpuVersion
  first : g.lastPass = none → GateClosed g.orchestrator →
    ∀ ref, isCpuResident g.orchestrator.store.residency ref = false
  again : ∀ rs pattern, g.lastPass = some ⟨rs, pattern, true⟩ → GateClosed g.orchestrator →
    IdlePattern cfg g.orchestrator.store.residency rs pattern

section Gate

variable {μ φ ν σ S : Type} [LinearOrder S]

/-- One operation, with the record of the last pass. -/
def gatedStep (cfg : OrchestratorConfig) (dev : Device μ φ ν S) (scorer : BlockScorer σ ν S) (g : Gated μ σ)
    (op : Op μ) : Gated μ σ where
  orchestrator := step cfg dev scorer g.orchestrator op
  lastPass :=
    match op with
    | .prepareStaging rs pattern =>
        if GateClosed g.orchestrator then g.lastPass
        else some ⟨rs, pattern, (stagingPass cfg dev scorer rs pattern g.orchestrator).1.isOk⟩
    | _ => g.lastPass

variable {cfg : OrchestratorConfig} {dev : Device μ φ ν S} {scorer : BlockScorer σ ν S} {g : Gated μ σ}

/-- A closed gate was closed before everything that did not touch its memory, over the same set. -/
theorem GateInv.advance (h : GateInv cfg g) {o' : Orchestrator μ σ}
    (hadvances : OrchestratorAdvances g.orchestrator o') :
    GateInv cfg ⟨o', g.lastPass⟩ := by
  have hle := hadvances.store.table.version_le
  have hlag := hadvances.lag
  have hseen := h.seen_le
  have hclosed : GateClosed o' → GateClosed g.orchestrator ∧
      ∀ ref, isCpuResident o'.store.residency ref = isCpuResident g.orchestrator.store.residency ref := by
    intro hclosed
    have hversion : o'.store.residency.cpuVersion = o'.lagSeenCpuVersion := hclosed
    have hbefore : g.orchestrator.store.residency.cpuVersion = g.orchestrator.lagSeenCpuVersion := by omega
    exact ⟨hbefore, hadvances.store.table.same (by omega)⟩
  refine ⟨hlag ▸ hseen.trans hle, fun hnone hafter ref => ?_, fun rs pattern hsome hafter => ?_⟩
  · obtain ⟨hbefore, hsame⟩ := hclosed hafter
    rw [hsame]
    exact h.first hnone hbefore ref
  · obtain ⟨hbefore, hsame⟩ := hclosed hafter
    obtain ⟨needed, hcollect, hidle⟩ := h.again rs pattern hsome hbefore
    refine ⟨needed, hcollect, fun ref href => ?_⟩
    rw [hsame]
    exact hidle ref href

/-- A pass that returns and leaves the gate closed had nothing to fetch. -/
theorem wp_stagingPass {K : Backing dev} {leaked : Multiset Nat} (scorer : BlockScorer σ ν S) {o : Orchestrator μ σ}
    (hinv : StoreInv cfg K leaked 0 o.store) (rs : List RequestId) (pattern : SparsePattern) :
    Eff.wp (stagingPass cfg dev scorer rs pattern)
      (fun _ o' => GateClosed o' → IdlePattern cfg o'.store.residency rs pattern) (fun _ _ => True) o := by
  rw [stagingPass, Eff.wp_bind, Eff.wp_read, Eff.wp_bind, Eff.wp_modify]
  cases hcollect : collectNeededBlockRefs rs pattern cfg.pageSize with
  | error e => exact True.intro
  | ok needed =>
      simp only [Eff.wp_bind, onStore, Eff.wp_zoom]
      have hmoves : Eff.Moves StoreAdvances
          (ensureResident cfg dev scorer (needed.filter (isCpuResident o.store.residency)) : StoreM μ σ _) :=
        moves_ensureResident _
      refine Eff.wp_mono (Eff.wp_run (Eff.wp_final.mpr (hmoves o.store)))
        (fun out s' hrun => ?_) fun _ _ _ => True.intro
      intro hclosed
      refine ⟨needed, hcollect, fun ref href => ?_⟩
      have hsame := hrun.2.table.same hclosed
      by_contra hcold
      rw [Bool.not_eq_false] at hcold
      have hbefore : isCpuResident o.store.residency ref = true := (hsame ref).symm.trans hcold
      obtain ⟨ref', hcpu, hmoved⟩ :=
        ensureResident_leaves_cpu hinv (List.mem_filter.mpr ⟨href, hbefore⟩) hbefore hrun.1
      rw [hsame, hcpu] at hmoved
      cases hmoved

/-- One operation keeps what a closed gate certifies. -/
theorem GateInv.step (h : GateInv cfg g) (hok : StoreOk cfg (Backing.trivial dev) g.orchestrator.store) (op : Op μ) :
    GateInv cfg (gatedStep cfg dev scorer g op) := by
  by_cases hpass : ∃ rs pattern, op = .prepareStaging rs pattern
  · obtain ⟨rs, pattern, rfl⟩ := hpass
    by_cases hclosed : GateClosed g.orchestrator
    · have hsame : gatedStep cfg dev scorer g (.prepareStaging rs pattern) = g := by
        simp only [gatedStep, KVOffload.step, prepareStaging_eq, if_pos hclosed]
      rwa [hsame]
    · obtain ⟨leaked, -, hinv⟩ := hok
      obtain ⟨hadvances, hlag⟩ := stagingPass_advances cfg dev scorer rs pattern g.orchestrator
      have hidle := wp_stagingPass scorer hinv rs pattern
      have hstep : gatedStep cfg dev scorer g (.prepareStaging rs pattern) =
          ⟨(stagingPass cfg dev scorer rs pattern g.orchestrator).2,
            some ⟨rs, pattern, (stagingPass cfg dev scorer rs pattern g.orchestrator).1.isOk⟩⟩ := by
        simp only [gatedStep, KVOffload.step, prepareStaging_eq, if_neg hclosed]
      rw [hstep]
      refine ⟨?_, fun hnone => (by cases hnone), fun rs' pattern' hlast hafter => ?_⟩
      · rw [hlag]
        exact hadvances.table.version_le
      · obtain ⟨rfl, rfl, hreturned⟩ := Pass.mk.inj (Option.some.inj hlast)
        unfold Eff.wp at hidle
        cases hrun : stagingPass cfg dev scorer rs pattern g.orchestrator with
        | mk result o' =>
            rw [hrun] at hidle hreturned hafter
            cases result with
            | error e => cases hreturned
            | ok out => exact hidle hafter
  · have hother : ∀ rs pattern, op ≠ .prepareStaging rs pattern := fun rs pattern heq => hpass ⟨rs, pattern, heq⟩
    have hstep : gatedStep cfg dev scorer g op = ⟨KVOffload.step cfg dev scorer g.orchestrator op, g.lastPass⟩ := by
      unfold gatedStep
      split
      · rename_i rs pattern
        exact absurd rfl (hother rs pattern)
      · rfl
    rw [hstep]
    exact h.advance (step_advances g.orchestrator hother)

theorem gateInv_init (cfg : OrchestratorConfig) (x : σ) (mem : μ) :
    GateInv cfg (⟨Orchestrator.init cfg x mem, none⟩ : Gated μ σ) where
  seen_le := le_rfl
  first _ _ _ := rfl
  again _ _ hsome := by cases hsome

/-- A pass over an idle pattern changes nothing while the gate is closed. -/
theorem stagingPass_of_idle {o : Orchestrator μ σ} (hclosed : GateClosed o) {rs : List RequestId}
    {pattern : SparsePattern} (hidle : IdlePattern cfg o.store.residency rs pattern) :
    stagingPass cfg dev scorer rs pattern o = (.ok .empty, o) := by
  obtain ⟨needed, hcollect, hcold⟩ := hidle
  have hfilter : needed.filter (isCpuResident o.store.residency) = [] := by
    rw [List.filter_eq_nil_iff]
    intro ref href
    rw [hcold ref href]
    exact Bool.false_ne_true
  have hversion : o.store.residency.cpuVersion = o.lagSeenCpuVersion := hclosed
  simp only [stagingPass, hcollect, bind, Eff.andThen, Eff.read, Eff.modify, hfilter, hversion]
  rfl

/-- Over every history, a pass that the gate skips would have returned the empty map and changed
nothing: before the first pass, for a pattern with one row for each request, and after a pass over the
same pattern that returned. -/
theorem gate_transparent (cfg : OrchestratorConfig) (dev : Device μ φ ν S) (scorer : BlockScorer σ ν S)
    (x : σ) (mem : μ) {ops : List (Op μ)} (hops : ∀ op ∈ ops, op.Distinct) {g : Gated μ σ}
    (hreach : g = run (gatedStep cfg dev scorer) ⟨Orchestrator.init cfg x mem, none⟩ ops)
    (hclosed : GateClosed g.orchestrator) {rs : List RequestId} {pattern : SparsePattern}
    (hlast : g.lastPass = none ∧ rs.length = pattern.rows.length ∨ g.lastPass = some ⟨rs, pattern, true⟩) :
    prepareStaging cfg dev scorer rs pattern g.orchestrator = (.ok .empty, g.orchestrator) ∧
      stagingPass cfg dev scorer rs pattern g.orchestrator = (.ok .empty, g.orchestrator) := by
  have hinv : StoreOk cfg (Backing.trivial dev) g.orchestrator.store ∧ GateInv cfg g := by
    rw [hreach]
    refine run_invariant
      (I := fun g : Gated μ σ => StoreOk cfg (Backing.trivial dev) g.orchestrator.store ∧ GateInv cfg g)
      (fun g op hg hdistinct => ⟨storeOk_step cfg dev scorer _ op hg.1 hdistinct, hg.2.step hg.1 op⟩) ?_
      (along_of_forall_mem hops _)
    exact ⟨storeOk_init cfg (Backing.trivial dev) x mem, gateInv_init cfg x mem⟩
  have hidle : IdlePattern cfg g.orchestrator.store.residency rs pattern := by
    rcases hlast with ⟨hnone, hrows⟩ | hsome
    · refine ⟨_, if_neg (not_not.mpr hrows), fun ref _ => ?_⟩
      exact hinv.2.first hnone hclosed ref
    · exact hinv.2.again rs pattern hsome hclosed
  refine ⟨?_, stagingPass_of_idle hclosed hidle⟩
  rw [prepareStaging_eq, if_pos hclosed]

end Gate

/-- A block is offloaded and prefetched; the pass after that finds nothing, then the request is promoted. -/
def gateOps : List (Op SmallMemory) :=
  [.sync requestA [3, 5] 4, .offloadFraction [⟨requestA, 0⟩] 0 {⟨requestA, 0⟩}, .prepareStaging [requestA] firstToken,
    .prepareStaging [requestA] firstToken, .promoteHotCpuBlocks requestA 1]

def gatedRun (ops : List (Op SmallMemory)) : Gated SmallMemory LruState :=
  run (gatedStep smallConfig (combinedDevice steadyRuntime) lruScorer)
    ⟨Orchestrator.init smallConfig ⟨.empty, 0⟩ blankMemory, none⟩ ops

theorem gate_transparent_gateOps :
    GateClosed (gatedRun gateOps).orchestrator ∧
      stagingPass smallConfig (combinedDevice steadyRuntime) lruScorer [requestA] firstToken
        (gatedRun gateOps).orchestrator = (.ok .empty, (gatedRun gateOps).orchestrator) := by
  have hops : ∀ op ∈ gateOps, op.Distinct := by simp [gateOps, Op.Distinct]
  have hclosed : GateClosed (gatedRun gateOps).orchestrator := by decide +kernel
  have hlast : (gatedRun gateOps).lastPass = some ⟨[requestA], firstToken, true⟩ := by decide +kernel
  exact ⟨hclosed,
    (gate_transparent smallConfig (combinedDevice steadyRuntime) lruScorer ⟨.empty, 0⟩ blankMemory hops rfl
    hclosed (Or.inr hlast)).2⟩

/-- Before the first pass the gate also hides the error for a pattern that does not match the batch. -/
theorem skipped_pass_raises :
    (gatedRun []).lastPass = none ∧ GateClosed (gatedRun []).orchestrator ∧
      prepareStaging smallConfig (combinedDevice steadyRuntime) lruScorer [] firstToken (gatedRun []).orchestrator =
        (.ok .empty, (gatedRun []).orchestrator) ∧
      stagingPass smallConfig (combinedDevice steadyRuntime) lruScorer [] firstToken (gatedRun []).orchestrator =
        (.error .sparseBatchMismatch, (gatedRun []).orchestrator) :=
  ⟨rfl, rfl, rfl, rfl⟩

end KVOffload

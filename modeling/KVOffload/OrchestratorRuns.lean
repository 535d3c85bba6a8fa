import KVOffload.OrchestratorSync

/-! Cleanup, offloading and staging at the level of the orchestrator, and the composition of all its
operations into runs. A run is a list of operations, each carried out whether the previous ones
returned or raised. -/

namespace KVOffload
open Base

variable {μ φ ν σ S : Type} [LinearOrder S]

section Cleanup

variable {cfg : OrchestratorConfig} {dev : Device μ φ ν S} {K : Backing dev} {scorer : BlockScorer σ ν S}

/-- The loop of `_cleanup_request` after the blocks `done`: they are gone from every structure and
their slots are free. -/
structure Cleaning (cfg : OrchestratorConfig) {dev : Device μ φ ν S} (K : Backing dev) (scorer : BlockScorer σ ν S)
    (o : Orchestrator μ σ) (done : List BlockRef) (o' : Orchestrator μ σ) : Prop where
  ok : StoreOk cfg K o'.store
  get : ∀ ref, o'.store.residency.get ref = if ref ∈ done then none else o.store.residency.get ref
  lru : ∀ ref, o'.store.lru.get? ref = if ref ∈ done then none else o.store.lru.get? ref
  scored : ∀ ref, ref ∈ o'.scored ↔ ref ∈ o.scored ∧ ref ∉ done
  known : ∀ ref, scorer.known o'.store.scorer ref = (scorer.known o.store.scorer ref && decide (ref ∉ done))
  value : ∀ ref, ref ∉ done → scorer.value o'.store.scorer ref = scorer.value o.store.scorer ref
  cpuFree : o.store.cpuFree ⊆ o'.store.cpuFree
  stagingFree : o.store.stagingFree ⊆ o'.store.stagingFree
  cpuReturned : ∀ ref ∈ done, ∀ loc c, o.store.residency.get ref = some loc → loc.cpuSlot = some c →
    c ∈ o'.store.cpuFree
  stagingReturned : ∀ ref ∈ done, ∀ slot, o.store.lru.get? ref = some slot → slot ∈ o'.store.stagingFree

theorem cleaning_nil {o : Orchestrator μ σ} (h : StoreOk cfg K o.store) : Cleaning cfg K scorer o [] o := by
  refine ⟨h, ?_, ?_, ?_, ?_, fun _ _ => rfl, List.Subset.refl _, List.Subset.refl _, ?_, ?_⟩
  all_goals simp

/-- Only the store and the scored set matter. -/
theorem Cleaning.congr {o o₁ o₂ : Orchestrator μ σ} {done : List BlockRef} (h : Cleaning cfg K scorer o done o₁)
    (hstore : o₂.store = o₁.store) (hscored : o₂.scored = o₁.scored) : Cleaning cfg K scorer o done o₂ := by
  obtain ⟨hok, hget, hlru, hscored', hknown, hvalue, hcpu, hstaging, hcpu', hstaging'⟩ := h
  rw [← hstore] at hok hget hlru hknown hvalue hcpu hstaging hcpu' hstaging'
  rw [← hscored] at hscored'
  exact ⟨hok, hget, hlru, hscored', hknown, hvalue, hcpu, hstaging, hcpu', hstaging'⟩

/-- What `release` and `free` of one block do together. -/
structure BlockFreed (cfg : OrchestratorConfig) {dev : Device μ φ ν S} (K : Backing dev) (scorer : BlockScorer σ ν S)
    (ref : BlockRef) (s s' : Store μ σ) : Prop where
  ok : StoreOk cfg K s'
  get : ∀ ref', s'.residency.get ref' = if ref' = ref then none else s.residency.get ref'
  lru : s'.lru = s.lru.erase ref
  stagingFree : s'.stagingFree = (s.lru.get? ref).toList ++ s.stagingFree
  cpuFree : s'.cpuFree = ((s.residency.get ref).bind (·.cpuSlot)).toList ++ s.cpuFree
  scorer : s'.scorer = scorer.forget s.scorer [ref]

theorem Restages.cpuSlot {t t' : ResidencyTable} (h : Restages t t') (ref : BlockRef) :
    (t'.get ref).bind (·.cpuSlot) = (t.get ref).bind (·.cpuSlot) := by
  cases hget : t.get ref with
  | none => rw [h.get_eq_none_iff.mpr hget]
  | some loc =>
      obtain ⟨loc', hget', hsame⟩ := h.of_some hget
      rw [hget']
      exact hsame.cpuSlot.symm

theorem ReleasePost.blockFreed {ref : BlockRef} {s s₁ : Store μ σ} (h : ReleasePost ref s s₁)
    (hstaging : StagingPost cfg K scorer s s₁) :
    BlockFreed cfg K scorer ref s (freeBlock scorer ref s₁) := by
  obtain ⟨leaked, hguard, hinv⟩ := hstaging.ok
  have hnone : s₁.lru.get? ref = none := by
    rw [h.lru]
    exact OrderedDict.get?_erase_self _ _
  refine ⟨⟨leaked, hguard, hinv.free hnone scorer⟩, fun ref' => ?_, h.lru, h.stagingFree, ?_, ?_⟩
  · refine (s₁.residency.get_remove ref ref').trans ?_
    by_cases heq : ref' = ref
    · rw [if_pos heq, if_pos heq]
    · rw [if_neg heq, if_neg heq, h.kept ref' heq]
  · have hslot := hstaging.restages.cpuSlot ref
    rw [← hslot, ← h.cpuFree]
    simp only [freeBlock, ResidencyTable.remove]
    cases (s₁.residency.get ref).bind (·.cpuSlot) <;> rfl
  · exact congrArg (scorer.forget · [ref]) h.scorer

theorem Cleaning.concat {o o₁ : Orchestrator μ σ} {done : List BlockRef} {ref : BlockRef} {s' : Store μ σ}
    (h : Cleaning cfg K scorer o done o₁) (hfreed : BlockFreed cfg K scorer ref o₁.store s') :
    Cleaning cfg K scorer o (done ++ [ref]) { o₁ with store := s', scored := o₁.scored.erase ref } := by
  have hmem : ∀ x, x ∈ done ++ [ref] ↔ x ∈ done ∨ x = ref := by simp
  refine ⟨hfreed.ok, fun x => ?_, fun x => ?_, fun x => ?_, fun x => ?_, fun x hx => ?_, fun c hc => ?_, fun c hc => ?_,
    fun x hx loc c hget hslot => ?_, fun x hx slot hslot => ?_⟩
  · rw [hfreed.get, h.get]
    by_cases heq : x = ref <;> simp [heq]
  · rw [hfreed.lru, OrderedDict.get?_erase, h.lru]
    by_cases heq : x = ref <;> simp [heq]
  · rw [Finset.mem_erase, h.scored, hmem]
    tauto
  · rw [hfreed.scorer, scorer.known_forget, h.known]
    by_cases heq : x = ref <;> simp [heq]
  · obtain ⟨hdone, hne⟩ := not_or.mp (mt (hmem x).mpr hx)
    rw [hfreed.scorer, scorer.value_forget _ _ _ (by simpa using hne), h.value x hdone]
  · rw [hfreed.cpuFree]
    exact List.mem_append_right _ (h.cpuFree hc)
  · rw [hfreed.stagingFree]
    exact List.mem_append_right _ (h.stagingFree hc)
  · rw [hfreed.cpuFree]
    by_cases hdone : x ∈ done
    · exact List.mem_append_right _ (h.cpuReturned x hdone loc c hget hslot)
    · obtain rfl : x = ref := ((hmem x).mp hx).resolve_left hdone
      refine List.mem_append_left _ ?_
      rw [h.get, if_neg hdone, hget, Option.bind_some, hslot]
      exact List.mem_singleton_self c
  · rw [hfreed.stagingFree]
    by_cases hdone : x ∈ done
    · exact List.mem_append_right _ (h.stagingReturned x hdone slot hslot)
    · obtain rfl : x = ref := ((hmem x).mp hx).resolve_left hdone
      refine List.mem_append_left _ ?_
      rw [h.lru, if_neg hdone, hslot]
      exact List.mem_singleton_self slot

/-- `_cleanup_request` never raises. It removes exactly the blocks of the request's current list. -/
structure CleanupPost (cfg : OrchestratorConfig) {dev : Device μ φ ν S} (K : Backing dev) (scorer : BlockScorer σ ν S)
    (requestId : RequestId) (o o' : Orchestrator μ σ) : Prop where
  cleaning : Cleaning cfg K scorer o ((o.requestBlocks.get? requestId).getD []) o'
  state : o' = { o with requestBlocks := o.requestBlocks.erase requestId,
                        controller := o.controller.remove requestId, scored := o'.scored, store := o'.store }

theorem wp_cleanupRequest {o : Orchestrator μ σ} (h : StoreOk cfg K o.store) (requestId : RequestId) :
    Eff.wp (cleanupRequest scorer requestId) (fun _ o' => CleanupPost cfg K scorer requestId o o')
      (fun _ _ => False) o := by
  rw [cleanupRequest, Eff.wp_bind, Eff.wp_read, Eff.wp_bind, Eff.wp_modify, Eff.wp_bind]
  have hloop : Eff.wp (Eff.forEach ((o.requestBlocks.get? requestId).getD []) (cleanupBlock scorer))
      (fun _ o₁ => Cleaning cfg K scorer o ((o.requestBlocks.get? requestId).getD []) o₁ ∧
        o₁ = { o with requestBlocks := o.requestBlocks.erase requestId, scored := o₁.scored, store := o₁.store })
      (fun _ _ => False) { o with requestBlocks := o.requestBlocks.erase requestId } := by
    refine Eff.wp_forEach_done (I := fun done o₁ => Cleaning cfg K scorer o done o₁ ∧
      o₁ = { o with requestBlocks := o.requestBlocks.erase requestId, scored := o₁.scored, store := o₁.store })
      ⟨(cleaning_nil h).congr rfl rfl, rfl⟩ fun done ref rest _ o₁ ho₁ => ?_
    rw [cleanupBlock, Eff.wp_bind, onStore, Eff.wp_zoom]
    refine Eff.wp_mono (wp_release scorer ho₁.1.ok ref) (fun _ s₁ hs₁ => ?_) fun _ _ hfalse => hfalse
    exact ⟨ho₁.1.concat (hs₁.2.blockFreed hs₁.1), by rw [ho₁.2]⟩
  refine Eff.wp_mono hloop (fun _ o₁ ho₁ => ?_) fun _ _ hfalse => hfalse
  rw [Eff.wp_modify]
  exact ⟨ho₁.1.congr rfl rfl, by rw [ho₁.2]⟩

end Cleanup

/-- What callers can do with the orchestrator, its pools and the memory under it. -/
inductive Op (μ : Type) where
  | sync (requestId : RequestId) (gpuBlockIds : List Nat) (numComputedTokens : Nat)
  | prefillComplete (requestId : RequestId) (numComputedTokens : Nat)
  | decodeStep (requestIds : List RequestId) (numTokens : Int)
  | offloadFraction (candidates : List BlockRef) (fraction : ℚ) (scoredBlocks : Finset BlockRef)
  | maybeOffload (candidates : List BlockRef)
  | ensureResident (refs : List BlockRef)
  | release (ref : BlockRef)
  | prepareStaging (requestIds : List RequestId) (pattern : SparsePattern)
  | noteSelection (requestIds : List RequestId) (pattern : SparsePattern) (pageSize : Nat)
  | promoteHotCpuBlocks (requestId : RequestId) (maxCount : Int)
  /-- `controller.on_prefill_complete`, called by the owner of the orchestrator. -/
  | startDecode (requestId : RequestId)
  | requestDone (requestId : RequestId)
  | requestPreempted (requestId : RequestId)
  /-- Somebody else writes memory. -/
  | write (mem : μ)

section Step

variable (cfg : OrchestratorConfig) (dev : Device μ φ ν S) (scorer : BlockScorer σ ν S)

/-- One operation, whether it returns or raises. -/
def step (o : Orchestrator μ σ) : Op μ → Orchestrator μ σ
  | .sync r ids n => (syncRequestBlocks cfg dev scorer r ids n o).2
  | .prefillComplete r n => (onPrefillComplete cfg dev scorer r n o).2
  | .decodeStep rs n => (onDecodeStep cfg dev scorer rs n o).2
  | .offloadFraction candidates fraction scoredBlocks =>
      (onStore (offloadFraction dev scorer candidates fraction scoredBlocks) o).2
  | .maybeOffload candidates => (onStore (maybeOffload cfg dev scorer candidates) o).2
  | .ensureResident refs => (onStore (ensureResident cfg dev scorer refs) o).2
  | .release ref => (onStore (release ref) o).2
  | .prepareStaging rs pattern => (prepareStaging cfg dev scorer rs pattern o).2
  | .noteSelection rs pattern pageSize => noteSelection scorer rs pattern pageSize o
  | .promoteHotCpuBlocks r maxCount => (promoteHotCpuBlocks cfg dev scorer r maxCount o).2
  | .startDecode r => { o with controller := o.controller.onPrefillComplete r }
  | .requestDone r => (onRequestDone scorer r o).2
  | .requestPreempted r => (onRequestPreempted scorer r o).2
  | .write mem => { o with store := { o.store with mem := mem } }

end Step

/-- Candidate lists have no repetitions. -/
def Op.Distinct : Op μ → Prop
  | .offloadFraction candidates _ _ => candidates.Nodup
  | .maybeOffload candidates => candidates.Nodup
  | _ => True

/-- The operation may copy GPU pages into CPU slots. -/
def Op.Offloads : Op μ → Prop
  | .decodeStep _ _ => True
  | .offloadFraction _ _ _ => True
  | .maybeOffload _ => True
  | _ => False

/-- The blocks `note_selection` names. -/
def notedRefs (requestIds : List RequestId) (pattern : SparsePattern) (pageSize : Nat) : List BlockRef :=
  (requestIds.zip pattern.rows).flatMap fun e => (e.2.blocks pageSize pattern.width).map fun i => ⟨e.1, i⟩

/-- Everything one operation can do. -/
inductive StepPost (cfg : OrchestratorConfig) {dev : Device μ φ ν S} (K : Backing dev) (scorer : BlockScorer σ ν S)
    (o : Orchestrator μ σ) : Op μ → Orchestrator μ σ → Prop
  | warmup {r : RequestId} {ids : List Nat} {n : Nat} (hwarm : isWarmup r = true) :
      StepPost cfg K scorer o (.sync r ids n) o
  | sync {r : RequestId} {ids : List Nat} {n : Nat} {failed : Prop} {o' : Orchestrator μ σ}
      (hwarm : isWarmup r = false) (h : SyncPost cfg K scorer r ids n o failed o') :
      StepPost cfg K scorer o (.sync r ids n) o'
  | prefill {r : RequestId} {n : Nat} {failed : Prop} {o' : Orchestrator μ σ}
      (h : PrefillPost cfg K scorer n (prefillRefs o r) o failed o') :
      StepPost cfg K scorer o (.prefillComplete r n) o'
  | offload {op : Op μ} {eligible out : List BlockRef} {o' : Orchestrator μ σ} (hop : op.Offloads)
      (hstate : o' = { o with store := o'.store, controller := o'.controller })
      (h : OffloadPost cfg K scorer eligible o.store out o'.store) : StepPost cfg K scorer o op o'
  | staging {op : Op μ} {o' : Orchestrator μ σ}
      (hstate : o' = { o with store := o'.store, lagSeenCpuVersion := o'.lagSeenCpuVersion })
      (h : StagingPost cfg K scorer o.store o'.store) : StepPost cfg K scorer o op o'
  | note {rs : List RequestId} {pattern : SparsePattern} {pageSize : Nat} {o' : Orchestrator μ σ}
      (hstate : o' = { o with store := { o.store with scorer := o'.store.scorer } })
      (hknown : ∀ ref, scorer.known o'.store.scorer ref = true →
        scorer.known o.store.scorer ref = true ∨ scorer.noteUsage.isSome ∧ ref ∈ notedRefs rs pattern pageSize) :
      StepPost cfg K scorer o (.noteSelection rs pattern pageSize) o'
  | startDecode {r : RequestId} :
      StepPost cfg K scorer o (.startDecode r) { o with controller := o.controller.onPrefillComplete r }
  | cleanup {op : Op μ} {r : RequestId} {o' : Orchestrator μ σ} (hop : op = .requestDone r ∨ op = .requestPreempted r)
      (h : CleanupPost cfg K scorer r o o') : StepPost cfg K scorer o op o'
  | write {mem : μ} : StepPost cfg K scorer o (.write mem) { o with store := { o.store with mem := mem } }

section StepLemmas

variable {cfg : OrchestratorConfig} {dev : Device μ φ ν S} {K : Backing dev} {scorer : BlockScorer σ ν S}
  {o : Orchestrator μ σ}

theorem countDecodes_final (numTokens : Int) (rs : List RequestId) (triggered : Bool) (o : Orchestrator μ σ) :
    ∃ c, (countDecodes cfg numTokens rs triggered o).2 = { o with controller := c } := by
  induction rs generalizing triggered o with
  | nil => exact ⟨o.controller, rfl⟩
  | cons r rest ih =>
      simp only [countDecodes, onController, bind, Eff.andThen]
      cases (o.controller.onDecode cfg.window r numTokens).1 with
      | error e => exact ⟨_, rfl⟩
      | ok t =>
          obtain ⟨c, hc⟩ :=
            ih (triggered || t) { o with controller := (o.controller.onDecode cfg.window r numTokens).2 }
          exact ⟨c, hc⟩

theorem stepPost_decodeStep (h : StoreOk cfg K o.store)
    (hsource : ∀ ref page, gpuPage o.store.residency ref = some page → K.source o.store.mem ref page)
    (rs : List RequestId) (numTokens : Int) :
    StepPost cfg K scorer o (.decodeStep rs numTokens) (onDecodeStep cfg dev scorer rs numTokens o).2 := by
  have hcount : Eff.wp (countDecodes cfg numTokens rs false) (fun _ o' => ∃ c, o' = { o with controller := c })
      (fun _ o' => ∃ c, o' = { o with controller := c }) o :=
    Eff.wp_final.mpr (countDecodes_final numTokens rs false o)
  have hnil : OffloadPost cfg K scorer [] o.store [] o.store :=
    offloadPost_nil (x := o.store.scorer) h ⟨rfl, rfl, rfl, rfl⟩ rfl
  rw [← Eff.wp_final (P := StepPost cfg K scorer o (.decodeStep rs numTokens)), onDecodeStep, Eff.wp_bind]
  refine Eff.wp_mono hcount ?_ ?_
  · rintro triggered _ ⟨c, rfl⟩
    rw [Eff.wp_ite]
    refine ⟨fun _ => .offload True.intro rfl hnil, fun _ => ?_⟩
    rw [Eff.wp_bind, Eff.wp_read, onStore, Eff.wp_zoom]
    exact Eff.wp_mono (wp_offloadFraction scorer h (o.store.residency.allGpuBlocks_nodup true) _ _ hsource)
      (fun _ _ hpost => .offload True.intro rfl hpost.1) fun _ _ hpost => .offload True.intro rfl hpost.1
  · rintro - _ ⟨c, rfl⟩
    exact .offload True.intro rfl hnil

theorem stagingPost_refl (scorer : BlockScorer σ ν S) {s : Store μ σ} (h : StoreOk cfg K s) :
    StagingPost cfg K scorer s s :=
  ⟨h, Restages.refl _, rfl, .none⟩

theorem stepPost_prepareStaging (h : StoreOk cfg K o.store) (rs : List RequestId) (pattern : SparsePattern) :
    StepPost cfg K scorer o (.prepareStaging rs pattern) (prepareStaging cfg dev scorer rs pattern o).2 := by
  rw [← Eff.wp_final (P := StepPost cfg K scorer o (.prepareStaging rs pattern)), prepareStaging, Eff.wp_bind,
    Eff.wp_read, Eff.wp_ite]
  refine ⟨fun _ => .staging rfl (stagingPost_refl scorer h), fun _ => ?_⟩
  rw [Eff.wp_bind, Eff.wp_modify]
  cases collectNeededBlockRefs rs pattern cfg.pageSize with
  | error e => exact .staging rfl (stagingPost_refl scorer h)
  | ok needed =>
      simp only [Eff.wp_bind, onStore, Eff.wp_zoom]
      exact Eff.wp_mono (wp_ensureResident_post h _) (fun _ _ hpost => .staging rfl hpost)
        fun _ _ hpost => .staging rfl hpost

theorem stepPost_promote (h : StoreOk cfg K o.store) (r : RequestId) (maxCount : Int) :
    StepPost cfg K scorer o (.promoteHotCpuBlocks r maxCount) (promoteHotCpuBlocks cfg dev scorer r maxCount o).2 := by
  rw [← Eff.wp_final (P := StepPost cfg K scorer o (.promoteHotCpuBlocks r maxCount)), promoteHotCpuBlocks, Eff.wp_bind,
    Eff.wp_read, Eff.wp_ite]
  refine ⟨fun _ => .staging rfl (stagingPost_refl scorer h), fun _ => ?_⟩
  rw [Eff.wp_bind, Eff.wp_modify, Eff.wp_bind, onStore, Eff.wp_zoom]
  -- Asking for scores may advance the scorer's generator but registers nothing.
  have hrescored := fun (s' : Store μ σ) (hpost : StagingPost cfg K scorer
      { o.store with scorer := (scorer.scores o.store.scorer
        ((o.store.residency.refsForRequest r).filter (isCpuResident o.store.residency))).2 } s') =>
    (⟨hpost.ok, hpost.restages, hpost.known.trans (scorer.known_scores _ _), hpost.written⟩ :
      StagingPost cfg K scorer o.store s')
  exact Eff.wp_mono (wp_ensureResident_post (h.rescore _ _) _) (fun _ s' hpost => .staging rfl (hrescored s' hpost))
    fun _ s' hpost => .staging rfl (hrescored s' hpost)

theorem known_foldl_note {note : σ → RequestId → List Int → σ} (hnote : note ∈ scorer.noteUsage)
    (blocks : SparseRow → List Int) (entries : List (RequestId × SparseRow)) (x : σ) (ref : BlockRef)
    (hknown : scorer.known (entries.foldl (fun s e => note s e.1 (blocks e.2)) x) ref = true) :
    scorer.known x ref = true ∨ ref ∈ entries.flatMap fun e => (blocks e.2).map fun i => ⟨e.1, i⟩ := by
  induction entries generalizing x with
  | nil => exact Or.inl hknown
  | cons e rest ih =>
      rw [List.flatMap_cons, List.mem_append]
      rcases ih (note x e.1 (blocks e.2)) hknown with hold | hnew
      · rw [scorer.known_noteUsage note hnote, Bool.or_eq_true, decide_eq_true_iff] at hold
        refine hold.imp_right fun hnamed => Or.inl (List.mem_map.mpr ⟨ref.blockIdx, hnamed.2, ?_⟩)
        rw [← hnamed.1]
      · exact Or.inr (Or.inr hnew)

theorem stepPost_noteSelection (rs : List RequestId) (pattern : SparsePattern) (pageSize : Nat) :
    StepPost cfg K scorer o (.noteSelection rs pattern pageSize) (noteSelection scorer rs pattern pageSize o) := by
  unfold noteSelection
  cases hnote : scorer.noteUsage with
  | none => exact .note rfl fun _ hknown => Or.inl hknown
  | some note =>
      split_ifs with hguard
      · exact .note rfl fun _ hknown => Or.inl hknown
      · refine .note rfl fun ref hknown => ?_
        rw [hnote]
        exact (known_foldl_note (by rw [hnote]; rfl) (fun row => row.blocks pageSize pattern.width) _ _ ref
          hknown).imp_right fun hnoted => ⟨rfl, hnoted⟩

theorem cleanupPost_step (h : StoreOk cfg K o.store) {r : RequestId} {op : Op μ}
    (hop : op = .requestDone r ∨ op = .requestPreempted r) :
    CleanupPost cfg K scorer r o (step cfg dev scorer o op) := by
  have hcleanup : CleanupPost cfg K scorer r o (cleanupRequest scorer r o).2 := by
    rw [← Eff.wp_final (P := CleanupPost cfg K scorer r o)]
    exact Eff.wp_mono (wp_cleanupRequest h r) (fun _ _ hpost => hpost) fun _ _ hfalse => hfalse.elim
  rcases hop with rfl | rfl <;> exact hcleanup

/-- One operation from a state that satisfies the invariant. -/
theorem step_post (h : StoreOk cfg K o.store) {op : Op μ} (hdistinct : op.Distinct)
    (hsource : op.Offloads → ∀ ref page, gpuPage o.store.residency ref = some page → K.source o.store.mem ref page) :
    StepPost cfg K scorer o op (step cfg dev scorer o op) := by
  cases op with
  | sync r ids n =>
      cases hwarm : isWarmup r with
      | true =>
          rw [step, syncRequestBlocks_of_warmup hwarm]
          exact .warmup hwarm
      | false =>
          rw [step, ← Eff.wp_final (P := StepPost cfg K scorer o (.sync r ids n))]
          exact Eff.wp_mono (wp_syncRequestBlocks h hwarm ids n) (fun _ _ hpost => .sync hwarm hpost)
            fun _ _ hpost => .sync hwarm hpost
  | prefillComplete r n =>
      rw [step, ← Eff.wp_final (P := StepPost cfg K scorer o (.prefillComplete r n))]
      exact Eff.wp_mono (wp_onPrefillComplete h r n) (fun _ _ hpost => .prefill hpost) fun _ _ hpost => .prefill hpost
  | decodeStep rs n => exact stepPost_decodeStep h (hsource True.intro) rs n
  | offloadFraction candidates fraction scoredBlocks =>
      rw [step,
        ← Eff.wp_final (P := StepPost cfg K scorer o (.offloadFraction candidates fraction scoredBlocks)), onStore,
        Eff.wp_zoom]
      exact Eff.wp_mono (wp_offloadFraction scorer h hdistinct fraction scoredBlocks (hsource True.intro))
        (fun _ _ hpost => .offload True.intro rfl hpost.1) fun _ _ hpost => .offload True.intro rfl hpost.1
  | maybeOffload candidates =>
      rw [step, ← Eff.wp_final (P := StepPost cfg K scorer o (.maybeOffload candidates)), onStore, Eff.wp_zoom]
      exact Eff.wp_mono (wp_maybeOffload scorer h hdistinct (hsource True.intro))
        (fun _ _ hpost => .offload True.intro rfl hpost) fun _ _ hpost => .offload True.intro rfl hpost
  | ensureResident refs =>
      rw [step, ← Eff.wp_final (P := StepPost cfg K scorer o (.ensureResident refs)), onStore, Eff.wp_zoom]
      exact Eff.wp_mono (wp_ensureResident_post h refs) (fun _ _ hpost => .staging rfl hpost)
        fun _ _ hpost => .staging rfl hpost
  | release ref =>
      rw [step, ← Eff.wp_final (P := StepPost cfg K scorer o (.release ref)), onStore, Eff.wp_zoom]
      exact Eff.wp_mono (wp_release scorer h ref) (fun _ _ hpost => .staging rfl hpost.1) fun _ _ hfalse => hfalse.elim
  | prepareStaging rs pattern => exact stepPost_prepareStaging h rs pattern
  | noteSelection rs pattern pageSize => exact stepPost_noteSelection rs pattern pageSize
  | promoteHotCpuBlocks r maxCount => exact stepPost_promote h r maxCount
  | startDecode r => exact .startDecode
  | requestDone r => exact .cleanup (Or.inl rfl) (cleanupPost_step h (Or.inl rfl))
  | requestPreempted r => exact .cleanup (Or.inr rfl) (cleanupPost_step h (Or.inr rfl))
  | write mem => exact .write

/-- The invariant survives one operation, given that a foreign write keeps what offloaded blocks rely on. -/
theorem StepPost.storeOk {op : Op μ} {o' : Orchestrator μ σ} (hpost : StepPost cfg K scorer o op o')
    (h : StoreOk cfg K o.store)
    (hwrite : ∀ mem, op = .write mem → ∀ ref c slot, K.holds o.store.mem ref c (Option.map (cfg.stagingBase + ·) slot) →
      K.holds mem ref c (slot.map (cfg.stagingBase + ·))) :
    StoreOk cfg K o'.store := by
  cases hpost with
  | warmup _ => exact h
  | sync _ hsync => exact hsync.ok
  | prefill hprefill => exact hprefill.ok
  | offload _ _ hoffload => exact hoffload.ok
  | staging _ hstaging => exact hstaging.ok
  | note hstate _ =>
      rw [hstate]
      exact h.rescore _ _
  | startDecode => exact h
  | cleanup _ hcleanup => exact hcleanup.cleaning.ok
  | write =>
      obtain ⟨leaked, hguard, hinv⟩ := h
      exact ⟨leaked, hguard, hinv.remember _ fun ref loc c _ _ _ hholds => hwrite _ rfl ref c loc.stagingSlot hholds⟩

end StepLemmas

end KVOffload

import KVOffload.ConnectorSteps

/-! Whole connector steps and their composition into runs. The loops of `build_connector_meta` are
followed once: an assertion about the requests read so far is carried through them, and the entries of a
request that is still to be read are those of the start. -/

namespace KVOffload
open Base

variable {μ φ ν σ S : Type} [LinearOrder S]

section Staging

variable (cfg : ConnectorConfig) (dev : Device μ φ ν S)

/-- The parts of a step after the last pass that only stage blocks and number the load event. -/
structure StageStep (c : Connector μ σ) (failed : Prop) (c' : Connector μ σ) : Prop where
  ok : StoreOk cfg.toOrchestratorConfig (Backing.trivial dev) c'.orchestrator.store
  place : c'.place = c.place
  tick_le : c.tick ≤ c'.tick
  fault : failed → StruckBetween (fun tick => (dev.fetchFault tick).isSome) c.tick c'.tick
  state : c' = { c with
    loadEventCounter := c'.loadEventCounter
    orchestrator := { c.orchestrator with store := c'.orchestrator.store } }

/-- The store event that a flush of state `c` hands to the workers. -/
def flushedEvent (c : ConnectorState μ σ) : Option (Nat × StoreBatch) :=
  if c.stepStoreAcc = [] then none else some (c.storeEventCounter, StoreBatch.join c.stepStoreAcc)

/-- All batches of the step became one store event. -/
inductive FlushPost (c : Connector μ σ) : Connector μ σ → Prop
  | idle (hempty : c.stepStoreAcc = []) : FlushPost c c
  | flush (hne : c.stepStoreAcc ≠ []) : FlushPost c
      { c with
        stepStoreAcc := []
        storeEventCounter := c.storeEventCounter + 1
        pendingStoreEvents := c.pendingStoreEvents.set c.storeEventCounter (StoreBatch.join c.stepStoreAcc)
        storeEventPendingCounts := c.storeEventPendingCounts.set c.storeEventCounter 0
        trace := c.trace ++ [.flushed c.storeEventCounter (StoreBatch.join c.stepStoreAcc)] }

end Staging

section StagingLemmas

variable {cfg : ConnectorConfig} {dev : Device μ φ ν S} {scorer : BlockScorer σ ν S} {c c₁ c' : Connector μ σ}

theorem StageStep.refl (h : Sound cfg dev c.toConnectorState) : StageStep cfg dev c False c :=
  ⟨h.ok, rfl, le_rfl, False.elim, rfl⟩

theorem StageStep.trans {failed : Prop} (h₁ : StageStep cfg dev c False c₁) (h₂ : StageStep cfg dev c₁ failed c') :
    StageStep cfg dev c failed c' := by
  refine ⟨h₂.ok, h₂.place.trans h₁.place, h₁.tick_le.trans h₂.tick_le,
    fun hfailed => (h₂.fault hfailed).mono h₁.tick_le fun _ hfault => hfault, ?_⟩
  rw [h₂.state, h₁.state]

theorem StageStep.sound {failed : Prop} (h : StageStep cfg dev c failed c')
    (hsound : Sound cfg dev c.toConnectorState) :
    Sound cfg dev c'.toConnectorState := by
  refine hsound.of_kept h.ok (by rw [h.state]) fun ref habsent => ?_
  rw [h.place, habsent]

theorem wp_promoteHotCpuBlocks {o : Orchestrator μ σ}
    (h : StoreOk cfg.toOrchestratorConfig (Backing.trivial dev) o.store) (r : RequestId) (maxCount : Int) :
    Eff.wp (promoteHotCpuBlocks cfg.toOrchestratorConfig dev scorer r maxCount)
      (fun _ o' => StagingPost cfg.toOrchestratorConfig (Backing.trivial dev) scorer o.store o'.store ∧
        o' = { o with store := o'.store })
      (fun _ o' => StagingPost cfg.toOrchestratorConfig (Backing.trivial dev) scorer o.store o'.store ∧
        o' = { o with store := o'.store } ∧ FetchStruck dev o.store o'.store) o := by
  rw [promoteHotCpuBlocks, Eff.wp_bind, Eff.wp_read, Eff.wp_ite]
  refine ⟨fun _ => ⟨stagingPost_refl scorer h, rfl⟩, fun _ => ?_⟩
  rw [Eff.wp_bind, Eff.wp_modify, Eff.wp_bind, onStore, Eff.wp_zoom]
  obtain ⟨leaked, hguard, hinv⟩ := h
  refine Eff.wp_mono (wp_ensureResident (hinv.rescore _ _) _) (fun _ s' hs' => ?_) fun _ s' hE => ?_
  · obtain ⟨hinv', scan, s₁, res, s₂, s₃, hrun⟩ := hs'
    exact ⟨⟨⟨leaked, hguard, hinv'⟩, hrun.restages.1, hrun.restages.2.trans (scorer.known_scores _ _), hrun.written⟩,
      rfl⟩
  · refine ⟨⟨⟨leaked, hguard, hE.inv⟩, hE.restages, hE.known.trans (scorer.known_scores _ _), hE.written⟩, rfl, ?_⟩
    -- Every picked block is one of the request's CPU-resident blocks.
    refine hE.fault_of_cpu fun ref href => ?_
    have hzip := (dev.argsortDescending_perm _).subset (List.mem_of_mem_take href)
    obtain ⟨e, he, rfl⟩ := List.mem_map.mp hzip
    exact (List.mem_filter.mp (List.of_mem_zip he).1).2

theorem wp_stageActive (h : Sound cfg dev c.toConnectorState) (active : List RequestId) :
    Eff.wp (promoteActive cfg dev scorer active) (fun _ c' => StageStep cfg dev c False c')
      (fun _ c' => StageStep cfg dev c True c') c := by
  rw [promoteActive, Eff.wp_bind, Eff.wp_read, Eff.wp_ite]
  refine ⟨fun _ => ?_, fun _ => StageStep.refl h⟩
  refine Eff.wp_forEach (StageStep.refl h) fun r _ c₁ hc₁ => ?_
  rw [Eff.wp_bind, onOrchestrator, Eff.wp_zoom]
  have hstep : ∀ {failed : Prop} {o : Orchestrator μ σ},
      StagingPost cfg.toOrchestratorConfig (Backing.trivial dev) scorer c₁.orchestrator.store o.store →
      o = { c₁.orchestrator with store := o.store } → OrchestratorAdvances c₁.orchestrator o →
      (failed → FetchStruck dev c₁.orchestrator.store o.store) →
      StageStep cfg dev c failed { c₁ with orchestrator := o } := by
    intro failed o hpost hstate hadvances hfault
    refine hc₁.trans ⟨hpost.ok, funext fun ref => hpost.restages.placement ref, hadvances.store.tick_le,
      fun hfailed => (hfault hfailed).between, ?_⟩
    rw [hstate]
  refine Eff.wp_mono ((moves_promoteHotCpuBlocks r _).wp_and (wp_promoteHotCpuBlocks hc₁.ok r _)) ?_ ?_
  · rintro - o ⟨ho, hadvances⟩
    exact hstep ho.1 ho.2 hadvances False.elim
  · rintro - o ⟨ho, hadvances⟩
    exact hstep ho.1 ho.2.1 hadvances fun _ => ho.2.2

theorem wp_prepareStagingLoads (h : Sound cfg dev c.toConnectorState) (active : List RequestId)
    {E : PyError → Connector μ σ → Prop} :
    Eff.wp (prepareStagingLoads active) (fun _ c' => StageStep cfg dev c False c') E c := by
  unfold Eff.wp prepareStagingLoads
  by_cases hactive : active = []
  · rw [if_pos hactive]
    exact StageStep.refl h
  · rw [if_neg hactive]
    exact ⟨h.ok, rfl, le_rfl, False.elim, rfl⟩

theorem wp_flushStores {E : PyError → Connector μ σ → Prop} :
    Eff.wp flushStores (fun event c' => FlushPost c c' ∧ event = flushedEvent c.toConnectorState) E c := by
  unfold Eff.wp flushStores flushedEvent
  by_cases hempty : c.stepStoreAcc = []
  · rw [if_pos hempty, if_pos hempty]
    exact ⟨.idle hempty, rfl⟩
  · rw [if_neg hempty, if_neg hempty]
    exact ⟨.flush hempty, rfl⟩

theorem FlushPost.sound (h : FlushPost c c') (hsound : Sound cfg dev c.toConnectorState) :
    Sound cfg dev c'.toConnectorState := by
  cases h with
  | idle _ => exact hsound
  | flush _ => exact ⟨hsound.ok, hsound.lists, hsound.ordinary⟩

end StagingLemmas

section Build

/-- The requests of an output in the order in which they are read. -/
def SchedulerOutput.ids (out : SchedulerOutput) : List RequestId :=
  out.newReqs.map (·.requestId) ++ out.cachedReqs.map (·.requestId)

/-- In a step in which no id occurs twice, a cached request is read once. -/
theorem not_read_of_nodup {out : SchedulerOutput} {done rest : List CachedRequestData} {req : CachedRequestData}
    (hnodup : out.ids.Nodup) (hsplit : out.cachedReqs = done ++ req :: rest) :
    req.requestId ∉ out.newReqs.map (·.requestId) ++ done.map (·.requestId) := by
  rw [SchedulerOutput.ids, hsplit, List.map_append, List.map_cons, ← List.append_assoc] at hnodup
  intro hmem
  exact (List.nodup_append.mp hnodup).2.2 _ hmem _ List.mem_cons_self rfl

/-- The state in which the first loop starts. -/
def opened (cfg : ConnectorConfig) (out : SchedulerOutput) (c : Connector μ σ) : Connector μ σ :=
  { c with
    trace := c.trace ++ out.reports.map fun e => .reported e.1 e.2
    orchestrator := { c.orchestrator with trueFreeing := cfg.trueFree } }

/-- The assertion `I read` between the parts of a step, when the requests `read` have been read. The
requests that have not are untouched since the start `c`. -/
structure Reading (cfg : ConnectorConfig) (dev : Device μ φ ν S) (c : Connector μ σ)
    (I : List RequestId → Connector μ σ → Prop) (read : List RequestId) (c' : Connector μ σ) : Prop where
  sound : Sound cfg dev c'.toConnectorState
  unread : ∀ r, r ∉ read → Untouched r c.toConnectorState c'.toConnectorState
  holds : I read c'

/-- An assertion that can be carried through the step: every part leads from it to the next one, or
fails into `E`, and the flush leads from it into `F`. -/
structure Carried (cfg : ConnectorConfig) (dev : Device μ φ ν S) (out : SchedulerOutput) (c : Connector μ σ)
    (I : List RequestId → Connector μ σ → Prop) (F E : Connector μ σ → Prop) : Prop where
  start : I [] (opened cfg out c)
  new : ∀ done req rest, out.newReqs = done ++ req :: rest → ∀ c₁ failed c₂,
    Reading cfg dev c I (done.map (·.requestId)) c₁ → NewPost cfg dev req c₁ failed c₂ →
      Ends failed E (I (done.map (·.requestId) ++ [req.requestId])) c₂
  cached : ∀ done req rest, out.cachedReqs = done ++ req :: rest → ∀ c₁ failed c₂,
    Reading cfg dev c I (out.newReqs.map (·.requestId) ++ done.map (·.requestId)) c₁ →
      CachedPost cfg dev out req c₁ failed c₂ →
      Ends failed E (I (out.newReqs.map (·.requestId) ++ done.map (·.requestId) ++ [req.requestId])) c₂
  complete : ∀ req ∈ out.newReqs, ∀ c₁ failed c₂, Reading cfg dev c I out.ids c₁ →
    CompleteNewPost cfg dev req c₁ failed c₂ → Ends failed E (I out.ids) c₂
  stage : ∀ c₁ failed c₂, Reading cfg dev c I out.ids c₁ → StageStep cfg dev c₁ failed c₂ →
    Ends failed E (I out.ids) c₂
  flush : ∀ c₁ c₂, Reading cfg dev c I out.ids c₁ → FlushPost c₁ c₂ → F c₂

/-- A step that returned: the metadata names the requests that are in decode when it ends, and the event
that was flushed at its end. -/
structure BuildPost (cfg : ConnectorConfig) (dev : Device μ φ ν S) (out : SchedulerOutput) (c : Connector μ σ)
    (I : List RequestId → Connector μ σ → Prop) (F : Connector μ σ → Prop) (metadata : OffloadPackageMetadata)
    (c' : Connector μ σ) : Prop where
  final : F c'
  active : metadata.requestIds = activeDecodeRequests out c'.toConnectorState
  flushed : ∃ c₁, Reading cfg dev c I out.ids c₁ ∧ FlushPost c₁ c' ∧
    metadata.storeEvent = flushedEvent c₁.toConnectorState

variable {cfg : ConnectorConfig} {dev : Device μ φ ν S} {scorer : BlockScorer σ ν S} {out : SchedulerOutput}
  {c : Connector μ σ} {I : List RequestId → Connector μ σ → Prop} {F E : Connector μ σ → Prop}

/-- After a part that worked on `r`, `r` counts as read. -/
theorem Reading.next {read : List RequestId} {r : RequestId} {c₁ c₂ : Connector μ σ} (h : Reading cfg dev c I read c₁)
    (hkeeps : Keeps cfg dev r c₁.toConnectorState c₂.toConnectorState) (hI : I (read ++ [r]) c₂) :
    Reading cfg dev c I (read ++ [r]) c₂ := by
  refine ⟨hkeeps.sound, fun r' hr' => ?_, hI⟩
  rw [List.mem_append, not_or, List.mem_singleton] at hr'
  exact (h.unread r' hr'.1).trans (hkeeps.others r' hr'.2)

/-- A part that worked on a request already read. -/
theorem Reading.again {read : List RequestId} {r : RequestId} {c₁ c₂ : Connector μ σ} (h : Reading cfg dev c I read c₁)
    (hr : r ∈ read) (hkeeps : Keeps cfg dev r c₁.toConnectorState c₂.toConnectorState) (hI : I read c₂) :
    Reading cfg dev c I read c₂ := by
  refine ⟨hkeeps.sound, fun r' hr' => (h.unread r' hr').trans (hkeeps.others r' ?_), hI⟩
  intro heq
  exact hr' (heq ▸ hr)

theorem Reading.stage {read : List RequestId} {c₁ c₂ : Connector μ σ} (h : Reading cfg dev c I read c₁)
    {failed : Prop} (hstage : StageStep cfg dev c₁ failed c₂) (hI : I read c₂) : Reading cfg dev c I read c₂ := by
  refine ⟨hstage.sound h.sound, fun r hr => (h.unread r hr).trans ?_, hI⟩
  refine ⟨by rw [hstage.state], by rw [hstage.state], by rw [hstage.state], by rw [hstage.state], by rw [hstage.state],
    by rw [hstage.state], fun ref page complete _ hplace => ?_⟩
  rw [← hplace, hstage.place]

theorem wp_trackNews (hsound : Sound cfg dev c.toConnectorState) (hcarry : Carried cfg dev out c I F E) :
    Eff.wp (Eff.forEach out.newReqs (trackNew cfg dev scorer))
      (fun _ c' => Reading cfg dev c I (out.newReqs.map (·.requestId)) c')
      (fun _ c' => Sound cfg dev c'.toConnectorState ∧ E c') (opened cfg out c) := by
  refine Eff.wp_forEach_done
    (I := fun (done : List NewRequestData) c' => Reading cfg dev c I (done.map (·.requestId)) c') ?_
    fun done req rest hsplit c₁ hc₁ => ?_
  · exact ⟨⟨hsound.ok, hsound.lists, hsound.ordinary⟩,
      fun r _ => ⟨rfl, rfl, rfl, Iff.rfl, Iff.rfl, rfl, fun _ _ _ _ h => h⟩,
      hcarry.start⟩
  · rw [List.map_append]
    refine Eff.wp_mono (wp_trackNew hc₁.sound req) (fun _ c₂ hpost => ?_) fun _ c₂ hpost => ?_
    · exact hc₁.next (hpost.keeps hc₁.sound) ((hcarry.new done req rest hsplit c₁ _ c₂ hc₁ hpost).returned not_false)
    · exact ⟨(hpost.keeps hc₁.sound).sound, (hcarry.new done req rest hsplit c₁ _ c₂ hc₁ hpost).raised True.intro⟩

theorem wp_trackCacheds (hcarry : Carried cfg dev out c I F E) {c₀ : Connector μ σ}
    (h : Reading cfg dev c I (out.newReqs.map (·.requestId)) c₀) :
    Eff.wp (Eff.forEach out.cachedReqs (trackCached cfg dev scorer out))
      (fun _ c' => Reading cfg dev c I out.ids c') (fun _ c' => Sound cfg dev c'.toConnectorState ∧ E c') c₀ := by
  refine Eff.wp_forEach_done
    (I := fun (done : List CachedRequestData) c' =>
      Reading cfg dev c I (out.newReqs.map (·.requestId) ++ done.map (·.requestId)) c') ?_
    fun done req rest hsplit c₁ hc₁ => ?_
  · rw [List.map_nil, List.append_nil]
    exact h
  · rw [List.map_append, ← List.append_assoc]
    refine Eff.wp_mono (wp_trackCached hc₁.sound out req) (fun _ c₂ hpost => ?_) fun _ c₂ hpost => ?_
    · exact hc₁.next (hpost.keeps hc₁.sound) ((hcarry.cached done req rest hsplit c₁ _ c₂ hc₁ hpost).returned not_false)
    · exact ⟨(hpost.keeps hc₁.sound).sound, (hcarry.cached done req rest hsplit c₁ _ c₂ hc₁ hpost).raised True.intro⟩

theorem wp_completeNews (hcarry : Carried cfg dev out c I F E) {c₀ : Connector μ σ}
    (h : Reading cfg dev c I out.ids c₀) :
    Eff.wp (Eff.forEach out.newReqs (completeNew cfg dev scorer)) (fun _ c' => Reading cfg dev c I out.ids c')
      (fun _ c' => Sound cfg dev c'.toConnectorState ∧ E c') c₀ := by
  refine Eff.wp_forEach h fun req hreq c₁ hc₁ => ?_
  have hread : req.requestId ∈ out.ids := List.mem_append_left _ (List.mem_map_of_mem hreq)
  refine Eff.wp_mono (wp_completeNew hc₁.sound req) (fun _ c₂ hpost => ?_) fun _ c₂ hpost => ?_
  · exact hc₁.again hread (hpost.keeps hc₁.sound) ((hcarry.complete req hreq c₁ _ c₂ hc₁ hpost).returned not_false)
  · exact ⟨(hpost.keeps hc₁.sound).sound, (hcarry.complete req hreq c₁ _ c₂ hc₁ hpost).raised True.intro⟩

theorem StageStep.prefillCompleted {failed : Prop} {c c' : Connector μ σ} (h : StageStep cfg dev c failed c') :
    c'.prefillCompleted = c.prefillCompleted := by rw [h.state]

theorem FlushPost.prefillCompleted {c c' : Connector μ σ} (h : FlushPost c c') :
    c'.prefillCompleted = c.prefillCompleted := by
  cases h with
  | idle _ => rfl
  | flush _ => rfl

/-- The rule for a whole step. -/
theorem wp_buildConnectorMeta (hsound : Sound cfg dev c.toConnectorState) (hcarry : Carried cfg dev out c I F E) :
    Eff.wp (buildConnectorMeta cfg dev scorer out)
      (fun metadata c' => Sound cfg dev c'.toConnectorState ∧ BuildPost cfg dev out c I F metadata c')
      (fun _ c' => Sound cfg dev c'.toConnectorState ∧ E c') c := by
  rw [buildConnectorMeta, Eff.wp_bind, recordReports, Eff.wp_modify, Eff.wp_bind, Eff.wp_modify, Eff.wp_bind]
  refine Eff.wp_mono (wp_trackNews hsound hcarry) (fun _ c₁ h₁ => ?_) fun _ _ hE => hE
  rw [Eff.wp_bind]
  refine Eff.wp_mono (wp_trackCacheds hcarry h₁) (fun _ c₂ h₂ => ?_) fun _ _ hE => hE
  rw [Eff.wp_bind]
  refine Eff.wp_mono (wp_completeNews hcarry h₂) (fun _ c₃ h₃ => ?_) fun _ _ hE => hE
  rw [Eff.wp_bind, Eff.wp_read, Eff.wp_bind]
  refine Eff.wp_mono (wp_prepareStagingLoads h₃.sound _) (fun _ c₄ h₄ => ?_) fun _ _ hE => hE
  have hread₄ := h₃.stage h₄ ((hcarry.stage c₃ _ c₄ h₃ h₄).returned not_false)
  rw [Eff.wp_bind]
  refine Eff.wp_mono (wp_stageActive hread₄.sound _) (fun _ c₅ h₅ => ?_) fun _ c₅ h₅ => ?_
  · have hread₅ := hread₄.stage h₅ ((hcarry.stage c₄ _ c₅ hread₄ h₅).returned not_false)
    rw [Eff.wp_bind]
    refine Eff.wp_mono wp_flushStores (fun event c₆ hflush => ?_) fun _ _ hE => hE
    obtain ⟨h₆, hevent⟩ := hflush
    have hcompleted : c₆.prefillCompleted = c₃.prefillCompleted :=
      h₆.prefillCompleted.trans (h₅.prefillCompleted.trans h₄.prefillCompleted)
    refine ⟨h₆.sound hread₅.sound, hcarry.flush c₅ c₆ hread₅ h₆, ?_, c₅, hread₅, h₆, hevent⟩
    rw [activeDecodeRequests, activeDecodeRequests, hcompleted]
  · exact ⟨h₅.sound hread₄.sound, (hcarry.stage c₄ _ c₅ hread₄ h₅).raised True.intro⟩

end Build

section Frame

/-- What the parts of a step before the flush leave alone: vLLM's pool and tables and the store events. -/
def BuildFrame (c c' : Connector μ σ) : Prop :=
  c' = { c' with
    gpuBlockPool := c.gpuBlockPool
    reqToBlocks := c.reqToBlocks
    storeEventCounter := c.storeEventCounter
    storeEventPendingCounts := c.storeEventPendingCounts
    pendingStoreEvents := c.pendingStoreEvents }

variable {cfg : ConnectorConfig} {dev : Device μ φ ν S} {c c₁ c' : Connector μ σ} {failed : Prop}

theorem BuildFrame.trans (h₁ : BuildFrame c c₁) (h₂ : BuildFrame c₁ c') : BuildFrame c c' := by
  rw [BuildFrame] at h₁ h₂ ⊢
  rw [h₂, h₁]

theorem SyncStep.frame {r : RequestId} {ids : List Nat} {n : Nat} (h : SyncStep cfg dev r ids n c failed c') :
    BuildFrame c c' := by
  rw [h.state]
  exact rfl

theorem GraduateStep.frame {r : RequestId} {n : Nat} (h : GraduateStep cfg dev r n c failed c') : BuildFrame c c' := by
  rw [h.state]
  exact rfl

theorem TriggerStep.frame {moved : List BlockRef} (h : TriggerStep cfg dev c moved failed c') : BuildFrame c c' := by
  rw [h.state]
  exact rfl

theorem Started.frame {req : NewRequestData} (h : Started req c c') : BuildFrame c c' := by
  rw [h.state]
  exact rfl

theorem Counted.frame {r : RequestId} (h : Counted r c c') : BuildFrame c c' := by
  rw [h.state]
  exact rfl

theorem StageStep.frame (h : StageStep cfg dev c failed c') : BuildFrame c c' := by
  rw [h.state]
  exact rfl

theorem FlushPost.tables (h : FlushPost c c') : c'.gpuBlockPool = c.gpuBlockPool ∧ c'.reqToBlocks = c.reqToBlocks := by
  cases h with
  | idle _ => exact ⟨rfl, rfl⟩
  | flush _ => exact ⟨rfl, rfl⟩

end Frame

/-- What the worker does with the orchestrator between two scheduler steps. -/
inductive WorkerOp (μ : Type) where
  | ensureResident (refs : List BlockRef)
  | prepareStaging (requestIds : List RequestId) (pattern : SparsePattern)
  | noteSelection (requestIds : List RequestId) (pattern : SparsePattern) (pageSize : Nat)
  | write (mem : μ)

def WorkerOp.toOp : WorkerOp μ → Op μ
  | ensureResident refs => .ensureResident refs
  | prepareStaging rs pattern => .prepareStaging rs pattern
  | noteSelection rs pattern pageSize => .noteSelection rs pattern pageSize
  | write mem => .write mem

/-- What can happen to the connector. -/
inductive ConnectorOp (μ : Type) where
  | build (out : SchedulerOutput)
  | update (completed : List (Nat × Nat))
  | finished (requestId : RequestId)
  /-- vLLM allocated and freed pages. -/
  | vllm (gpuBlockPool : BlockPool) (reqToBlocks : OrderedDict RequestId (List Nat))
  | worker (op : WorkerOp μ)

section Step

variable (cfg : ConnectorConfig) (dev : Device μ φ ν S) (scorer : BlockScorer σ ν S)

def connectorStep (c : Connector μ σ) : ConnectorOp μ → Connector μ σ
  | .build out => (connectorMeta cfg dev scorer out c).2
  | .update completed => updateConnectorOutput cfg completed c
  | .finished r => (requestFinished scorer r c).2
  | .vllm pool tables => { c with gpuBlockPool := pool, reqToBlocks := tables }
  | .worker op => { c with orchestrator := step cfg.toOrchestratorConfig dev scorer c.orchestrator op.toOp }

/-- `request_finished`. -/
structure FinishStep (r : RequestId) (c c' : Connector μ σ) : Prop where
  ok : StoreOk cfg.toOrchestratorConfig (Backing.trivial dev) c'.orchestrator.store
  place : ∀ ref, c'.place ref = if ref ∈ listedBlocks c.orchestrator r then .absent else c.place ref
  state : c' = { c with
    controller := c.controller.remove r
    prefillCompleted := c.prefillCompleted.erase r
    reqBlockTable := c.reqBlockTable.erase r
    promptLens := c.promptLens.erase r
    trace := c.trace ++ [.finished r]
    orchestrator :=
      { c.orchestrator with
        requestBlocks := c.orchestrator.requestBlocks.erase r
        controller := c.orchestrator.controller.remove r
        scored := c'.orchestrator.scored
        store := c'.orchestrator.store } }

/-- Everything that leaves placements, lists and the trace alone: the worker, vLLM, and completions. -/
structure QuietStep (c c' : Connector μ σ) : Prop where
  ok : StoreOk cfg.toOrchestratorConfig (Backing.trivial dev) c'.orchestrator.store
  place : c'.place = c.place
  state : c' = { c with
    gpuBlockPool := c'.gpuBlockPool
    reqToBlocks := c'.reqToBlocks
    cpuBlockPool := c'.cpuBlockPool
    reqBlockTable := c'.reqBlockTable
    pendingStoreEvents := c'.pendingStoreEvents
    storeEventPendingCounts := c'.storeEventPendingCounts
    orchestrator :=
      { c.orchestrator with
        store := c'.orchestrator.store
        lagSeenCpuVersion := c'.orchestrator.lagSeenCpuVersion } }

end Step

section StepLemmas

variable {cfg : ConnectorConfig} {dev : Device μ φ ν S} {scorer : BlockScorer σ ν S} {c c' : Connector μ σ}

theorem finishStep (h : Sound cfg dev c.toConnectorState) (r : RequestId) :
    FinishStep cfg dev r c (connectorStep cfg dev scorer c (.finished r)) := by
  rw [connectorStep, ← Eff.wp_final (P := FinishStep cfg dev r c), requestFinished, Eff.wp_bind, onOrchestrator,
    Eff.wp_zoom]
  refine Eff.wp_mono (wp_cleanupRequest h.ok r) (fun _ o hpost => ?_) fun _ _ hfalse => hfalse.elim
  rw [Eff.wp_modify]
  refine ⟨hpost.cleaning.ok, fun ref => hpost.cleaning.placement ref, ?_⟩
  rw [hpost.state]

theorem FinishStep.sound {r : RequestId} (h : FinishStep cfg dev r c c') (hsound : Sound cfg dev c.toConnectorState) :
    Sound cfg dev c'.toConnectorState :=
  hsound.of_erase h.ok (by rw [h.state]) h.place

theorem QuietStep.sound (h : QuietStep cfg dev c c') (hsound : Sound cfg dev c.toConnectorState) :
    Sound cfg dev c'.toConnectorState := by
  refine hsound.of_kept h.ok (by rw [h.state]) fun ref habsent => ?_
  rw [h.place, habsent]

theorem quietStep_of_orchestrator {o : Orchestrator μ σ}
    (hok : StoreOk cfg.toOrchestratorConfig (Backing.trivial dev) o.store)
    (hplace : placement o.store.residency = placement c.orchestrator.store.residency)
    (hstate : o = { c.orchestrator with store := o.store, lagSeenCpuVersion := o.lagSeenCpuVersion }) :
    QuietStep cfg dev c { c with orchestrator := o } := by
  refine ⟨hok, hplace, ?_⟩
  rw [hstate]

/-- The worker stages blocks and notes usage; it tracks, scores and offloads nothing. -/
theorem StepPost.of_worker {K : Backing dev} {cfg : OrchestratorConfig} {op : WorkerOp μ} {o o' : Orchestrator μ σ}
    (h : StepPost cfg K scorer o op.toOp o') :
    placement o'.store.residency = placement o.store.residency ∧
      o' = { o with store := o'.store, lagSeenCpuVersion := o'.lagSeenCpuVersion } := by
  have hoffloads : ¬op.toOp.Offloads := by cases op <;> exact not_false
  have hcleans : ∀ r, op.toOp ≠ .requestDone r ∧ op.toOp ≠ .requestPreempted r := by
    intro r
    cases op <;> exact ⟨nofun, nofun⟩
  generalize hop : op.toOp = op' at h hoffloads hcleans
  cases h with
  | staging hstate hstaging => exact ⟨funext fun ref => hstaging.restages.placement ref, hstate⟩
  | note hstate _ =>
      rw [hstate]
      exact ⟨rfl, rfl⟩
  | write => exact ⟨rfl, rfl⟩
  | offload hoffload _ _ => exact absurd hoffload hoffloads
  | cleanup hclean _ => exact (hclean.elim (hcleans _).1 (hcleans _).2).elim
  | warmup _ => exact ⟨rfl, rfl⟩
  | sync _ _ => cases op <;> cases hop
  | prefill _ => cases op <;> cases hop
  | startDecode => cases op <;> cases hop

theorem quietStep_worker (h : Sound cfg dev c.toConnectorState) (op : WorkerOp μ) :
    QuietStep cfg dev c (connectorStep cfg dev scorer c (.worker op)) := by
  have hdistinct : op.toOp.Distinct := by cases op <;> exact True.intro
  have hpost : StepPost cfg.toOrchestratorConfig (Backing.trivial dev) scorer c.orchestrator op.toOp
      (step cfg.toOrchestratorConfig dev scorer c.orchestrator op.toOp) :=
    step_post h.ok hdistinct fun _ _ _ _ => True.intro
  exact quietStep_of_orchestrator (hpost.storeOk h.ok fun _ _ _ _ _ _ => True.intro) hpost.of_worker.1 hpost.of_worker.2

theorem quietStep_vllm (h : Sound cfg dev c.toConnectorState) (pool : BlockPool)
    (tables : OrderedDict RequestId (List Nat)) :
    QuietStep cfg dev c (connectorStep cfg dev scorer c (.vllm pool tables)) :=
  ⟨h.ok, rfl, rfl⟩

/-- Completions touch the pools, the tables and the pending events only. -/
def CompletionFrame (c c' : ConnectorState μ σ) : Prop :=
  c' = { c with
    gpuBlockPool := c'.gpuBlockPool
    reqToBlocks := c'.reqToBlocks
    cpuBlockPool := c'.cpuBlockPool
    reqBlockTable := c'.reqBlockTable
    pendingStoreEvents := c'.pendingStoreEvents
    storeEventPendingCounts := c'.storeEventPendingCounts }

theorem CompletionFrame.trans {c c₁ c₂ : ConnectorState μ σ} (h₁ : CompletionFrame c c₁) (h₂ : CompletionFrame c₁ c₂) :
    CompletionFrame c c₂ := by
  rw [CompletionFrame] at h₁ h₂ ⊢
  rw [h₂, h₁]

theorem completionFrame_foldl {α : Type} {f : ConnectorState μ σ → α → ConnectorState μ σ}
    (hf : ∀ c x, CompletionFrame c (f c x)) (xs : List α) (c : ConnectorState μ σ) :
    CompletionFrame c (xs.foldl f c) := by
  induction xs generalizing c with
  | nil => exact rfl
  | cons x rest ih => exact (hf c x).trans (ih (f c x))

/-- The surgery changes the block tables and their mirror only. -/
def SurgeryFrame (c c' : ConnectorState μ σ) : Prop :=
  c' = { c with reqToBlocks := c'.reqToBlocks, reqBlockTable := c'.reqBlockTable }

theorem SurgeryFrame.trans {c c₁ c₂ : ConnectorState μ σ} (h₁ : SurgeryFrame c c₁) (h₂ : SurgeryFrame c₁ c₂) :
    SurgeryFrame c c₂ := by
  rw [SurgeryFrame] at h₁ h₂ ⊢
  rw [h₂, h₁]

theorem surgeryFrame_freeEntry (e : BlockRef × Nat) (acc : ConnectorState μ σ × List Nat) :
    SurgeryFrame acc.1 (freeEntry e acc).1 := by
  dsimp only [freeEntry]
  split
  · exact rfl
  · split_ifs
    · exact rfl
    · exact rfl

theorem surgeryFrame_freeEntries (entries : List (BlockRef × Nat)) (acc : ConnectorState μ σ × List Nat) :
    SurgeryFrame acc.1 (entries.foldl (fun acc e => freeEntry e acc) acc).1 := by
  induction entries generalizing acc with
  | nil => exact rfl
  | cons e rest ih => exact (surgeryFrame_freeEntry e acc).trans (ih (freeEntry e acc))

/-- A completion takes its event out of the pending ones; beside that it touches the pools and the tables only. -/
theorem processStoreCompletion_frame (cfg : ConnectorConfig) (event : Nat) (c : ConnectorState μ σ) :
    processStoreCompletion cfg event c =
      { c with
        pendingStoreEvents := c.pendingStoreEvents.erase event
        gpuBlockPool := (processStoreCompletion cfg event c).gpuBlockPool
        reqToBlocks := (processStoreCompletion cfg event c).reqToBlocks
        cpuBlockPool := (processStoreCompletion cfg event c).cpuBlockPool
        reqBlockTable := (processStoreCompletion cfg event c).reqBlockTable } := by
  unfold processStoreCompletion
  cases hget : c.pendingStoreEvents.get? event with
  | none => rw [OrderedDict.erase_of_get?_eq_none hget]
  | some batch =>
      dsimp only
      split_ifs
      · have hentries := surgeryFrame_freeEntries (batch.refs.zip batch.gpuBlockIds)
          ({ c with pendingStoreEvents := c.pendingStoreEvents.erase event,
                    cpuBlockPool := c.cpuBlockPool.freeBlocks batch.cpuBlockIds }, [])
        rw [SurgeryFrame] at hentries
        rw [hentries]
      · rfl

theorem completionFrame_processStoreCompletion (cfg : ConnectorConfig) (event : Nat) (c : ConnectorState μ σ) :
    CompletionFrame c (processStoreCompletion cfg event c) := by
  rw [CompletionFrame, processStoreCompletion_frame]

theorem processStoreCompletion_pending (cfg : ConnectorConfig) (event : Nat) (c : ConnectorState μ σ) :
    (processStoreCompletion cfg event c).pendingStoreEvents = c.pendingStoreEvents.erase event := by
  rw [processStoreCompletion_frame]

theorem processStoreCompletion_counts (cfg : ConnectorConfig) (event : Nat) (c : ConnectorState μ σ) :
    (processStoreCompletion cfg event c).storeEventPendingCounts = c.storeEventPendingCounts := by
  rw [processStoreCompletion_frame]

theorem completionFrame_countCompletion (c : ConnectorState μ σ) (e : Nat × Nat) :
    CompletionFrame c (countCompletion cfg c e) := by
  unfold countCompletion
  dsimp only
  split_ifs
  · have hprocess := completionFrame_processStoreCompletion cfg e.1
      { c with storeEventPendingCounts :=
                c.storeEventPendingCounts.set e.1 ((c.storeEventPendingCounts.get? e.1).getD 0 + e.2) }
    rw [CompletionFrame] at hprocess ⊢
    rw [hprocess]
  · exact rfl

/-- What every completion keeps, and the report counts do not matter for, a whole update keeps. -/
theorem update_preserves {P : ConnectorState μ σ → Prop}
    (hcounts : ∀ c counts, P c → P { c with storeEventPendingCounts := counts })
    (hprocess : ∀ c event, P c → P (processStoreCompletion cfg event c)) (completed : List (Nat × Nat))
    {c : ConnectorState μ σ} (h : P c) : P (completed.foldl (countCompletion cfg) c) := by
  induction completed generalizing c with
  | nil => exact h
  | cons e rest ih =>
      apply ih
      unfold countCompletion
      dsimp only
      split_ifs
      · exact hcounts _ _ (hprocess _ _ (hcounts _ _ h))
      · exact hcounts _ _ h

theorem quietStep_update (h : Sound cfg dev c.toConnectorState) (completed : List (Nat × Nat)) :
    QuietStep cfg dev c (connectorStep cfg dev scorer c (.update completed)) := by
  have hframe : CompletionFrame c.toConnectorState (completed.foldl (countCompletion cfg) c.toConnectorState) :=
    completionFrame_foldl completionFrame_countCompletion completed _
  have horchestrator : (completed.foldl (countCompletion cfg) c.toConnectorState).orchestrator = c.orchestrator := by
    rw [hframe]
  rw [connectorStep, updateConnectorOutput]
  refine ⟨?_, ?_, ?_⟩
  · rw [horchestrator]
    exact h.ok
  · unfold ConnectorState.place
    rw [horchestrator]
  · rw [hframe]

/-- A whole step of the connector, whether it finished or its failure was swallowed and reported as
empty metadata. -/
theorem wp_connectorMeta (scorer : BlockScorer σ ν S) {out : SchedulerOutput}
    {I : List RequestId → Connector μ σ → Prop} {F E : Connector μ σ → Prop}
    (hsound : Sound cfg dev c.toConnectorState) (hcarry : Carried cfg dev out c I F E) :
    Eff.wp (connectorMeta cfg dev scorer out)
      (fun metadata c' => Sound cfg dev c'.toConnectorState ∧
        (BuildPost cfg dev out c I F metadata c' ∨ E c' ∧ metadata = {}))
      (fun _ _ => False) c := by
  rw [connectorMeta, Eff.wp_attempt]
  refine Eff.wp_mono (wp_buildConnectorMeta hsound hcarry) (fun _ _ hF => ⟨hF.1, Or.inl hF.2⟩) fun _ _ hE => ?_
  rw [Eff.wp_pure]
  exact ⟨hE.1, Or.inr ⟨hE.2, rfl⟩⟩

theorem build_step (scorer : BlockScorer σ ν S) {out : SchedulerOutput} {I : List RequestId → Connector μ σ → Prop}
    {F E : Connector μ σ → Prop} (hsound : Sound cfg dev c.toConnectorState) (hcarry : Carried cfg dev out c I F E) :
    Sound cfg dev (connectorStep cfg dev scorer c (.build out)).toConnectorState ∧
      (F (connectorStep cfg dev scorer c (.build out)) ∨ E (connectorStep cfg dev scorer c (.build out))) := by
  rw [connectorStep, ← Eff.wp_final (P := fun c' : Connector μ σ => Sound cfg dev c'.toConnectorState ∧ (F c' ∨ E c'))]
  exact Eff.wp_mono (wp_connectorMeta scorer hsound hcarry) (fun _ _ h => ⟨h.1, h.2.imp BuildPost.final And.left⟩)
    fun _ _ hfalse => hfalse.elim

theorem carried_frame (cfg : ConnectorConfig) (dev : Device μ φ ν S) (out : SchedulerOutput) (c : Connector μ σ) :
    Carried cfg dev out c (fun _ => BuildFrame c)
      (fun c' => c'.gpuBlockPool = c.gpuBlockPool ∧ c'.reqToBlocks = c.reqToBlocks) (BuildFrame c) := by
  have hends : ∀ {failed : Prop} {c₁ c₂ : Connector μ σ}, BuildFrame c c₁ → BuildFrame c₁ c₂ →
      Ends failed (BuildFrame c) (BuildFrame c) c₂ :=
    fun h₁ h₂ => ⟨fun _ => h₁.trans h₂, fun _ => h₁.trans h₂⟩
  refine ⟨rfl, fun done req rest _ c₁ failed c₂ h₁ hpost => ?_, fun done req rest _ c₁ failed c₂ h₁ hpost => ?_,
    fun req _ c₁ failed c₂ h₁ hpost => ?_, fun c₁ failed c₂ h₁ hstage => hends h₁.holds hstage.frame,
    fun c₁ c₂ h₁ hflush => ?_⟩
  · exact hpost.elim h₁.sound (fun _ _ hsync => hends h₁.holds hsync.frame)
      fun _ _ _ h' hstarted => h'.trans hstarted.frame
  · exact hpost.elim h₁.sound (fun _ _ hsync => hends h₁.holds hsync.frame) (fun _ _ h' _ => h')
      (fun _ _ _ _ h' _ hgraduate => hends h' hgraduate.frame) (fun _ _ _ _ _ h' htrigger => hends h' htrigger.frame)
      fun _ _ _ h' hcounted => h'.trans hcounted.frame
  · exact hpost.elim h₁.sound h₁.holds (fun _ _ _ hgraduate => hends h₁.holds hgraduate.frame)
      fun _ _ _ _ _ h' htrigger => hends h' htrigger.frame
  · have hframe := h₁.holds
    rw [BuildFrame] at hframe
    rw [hflush.tables.1, hflush.tables.2, hframe]
    exact ⟨rfl, rfl⟩

/-- A step reads vLLM's pool and tables and changes neither, also if it fails. -/
theorem build_tables (scorer : BlockScorer σ ν S) (out : SchedulerOutput) (hsound : Sound cfg dev c.toConnectorState) :
    (connectorStep cfg dev scorer c (.build out)).gpuBlockPool = c.gpuBlockPool ∧
      (connectorStep cfg dev scorer c (.build out)).reqToBlocks = c.reqToBlocks := by
  obtain ⟨-, htables | hframe⟩ := build_step scorer hsound (carried_frame cfg dev out c)
  · exact htables
  · rw [BuildFrame] at hframe
    rw [hframe]
    exact ⟨rfl, rfl⟩

theorem sound_init (cfg : ConnectorConfig) (dev : Device μ φ ν S) (x : σ) (mem : μ) (pool : BlockPool) :
    Sound cfg dev (Connector.init cfg x mem pool).toConnectorState := by
  refine ⟨storeOk_init _ _ x mem, fun r refs hget => ?_, fun ref href => ?_⟩
  · cases hget
  · exact absurd rfl href

end StepLemmas

end KVOffload

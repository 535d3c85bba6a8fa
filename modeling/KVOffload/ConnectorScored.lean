import KVOffload.ConnectorLedger
import KVOffload.OffloadContract

/-! The scored set of the orchestrator and the registry of the scorer. `sync_request_blocks` and
`on_prefill_complete` put a block into the scored set before the batch pass that registers it, and a failed
pass takes nothing back; the global trigger registers first. A run therefore keeps the two in step exactly as
long as no pass of the first two kinds fails on a block that the scorer does not know yet. -/

namespace KVOffload
open Base

variable {μ φ ν σ S : Type} [LinearOrder S]

section Model

variable (cfg : ConnectorConfig) (dev : Device μ φ ν S) (scorer : BlockScorer σ ν S)

/-- Every block of the scored set has an entry in the scorer. -/
def ScoredKnown (o : Orchestrator μ σ) : Prop := ∀ ref ∈ o.scored, scorer.known o.store.scorer ref = true

/-- The scored set has its entries, and no offload pass over it meets a block without a score. -/
structure ScoresComplete (o : Orchestrator μ σ) : Prop where
  known : ScoredKnown scorer o
  selects : ∀ candidates fraction refs,
    (offloadFraction dev scorer candidates fraction o.scored o.store).1 ≠ .error (.unscored refs)

/-- The calls that reach the scored set or the scorer, and what vLLM does to its pool in between. -/
inductive ScoringOp (μ : Type) where
  | call (op : Op μ) (distinct : op.Distinct)
  | trigger
  | vllm (gpuBlockPool : BlockPool)

/-- One call, whether it returns or raises. -/
def scoringStep (c : Connector μ σ) : ScoringOp μ → Connector μ σ
  | .call op _ => { c with orchestrator := step cfg.toOrchestratorConfig dev scorer c.orchestrator op }
  | .trigger => (triggerGlobalOffload cfg dev scorer c).2
  | .vllm gpuBlockPool => { c with gpuBlockPool := gpuBlockPool }

/-- What a sync of `r` puts into the scored set: the listed blocks that are not in it yet and are complete on
their page already, or full by now and not parked. -/
def SyncDue (o : Orchestrator μ σ) (r : RequestId) (ids : List Nat) (n : Nat) (ref : BlockRef) : Prop :=
  isWarmup r = false ∧ ref ∉ o.scored ∧ ∃ (i page : Nat), ref = ⟨r, i⟩ ∧ ids[i]? = some page ∧
    (placement o.store.residency ref = .gpu page true ∨
      isFull cfg.toOrchestratorConfig n i = true ∧ placement o.store.residency ref ≠ .parked)

/-- What prefill completion of `r` puts into the scored set: its listed blocks on the GPU that are full by now
and neither complete nor scored yet. -/
def PrefillDue (o : Orchestrator μ σ) (r : RequestId) (n : Nat) (ref : BlockRef) : Prop :=
  ref ∈ prefillRefs o r ∧ GraduationDue cfg.toOrchestratorConfig n o ref

/-- The device fails in its next scoring pass, which is due for a block that the scorer does not know. -/
def FailsUnknown (o : Orchestrator μ σ) (due : BlockRef → Prop) : Prop :=
  dev.scoreFault o.store.tick = true ∧ ∃ ref, due ref ∧ scorer.known o.store.scorer ref = false

/-- A sync or a prefill completion whose scoring pass fails on a block it puts into the scored set. -/
def LosesEntry (c : Connector μ σ) : ScoringOp μ → Prop
  | .call (.sync r ids n) _ => FailsUnknown dev scorer c.orchestrator (SyncDue cfg c.orchestrator r ids n)
  | .call (.prefillComplete r n) _ => FailsUnknown dev scorer c.orchestrator (PrefillDue cfg c.orchestrator r n)
  | _ => False

end Model

section Selection

variable {dev : Device μ φ ν S} {scorer : BlockScorer σ ν S}

/-- Over scored blocks that all have an entry, `offload_fraction` raises on a bad fraction only. -/
theorem wp_offloadFraction_known (dev : Device μ φ ν S) {scoredBlocks : Finset BlockRef} {s : Store μ σ}
    (hknown : ∀ ref ∈ scoredBlocks, scorer.known s.scorer ref = true) (candidates : List BlockRef) (fraction : ℚ) :
    Eff.wp (offloadFraction dev scorer candidates fraction scoredBlocks) (fun _ _ => True)
      (fun e _ => e = .badFraction) s := by
  rw [offloadFraction, Eff.wp_ite]
  refine ⟨fun _ => rfl, fun hgood => ?_⟩
  rw [not_not] at hgood
  rw [Eff.wp_bind, Eff.wp_read, Eff.wp_ite]
  refine ⟨fun _ => True.intro, fun hne => ?_⟩
  have hle := numToOffload_le (Nat.pos_of_ne_zero hne) hgood.2
  rw [Eff.wp_bind]
  refine wp_selectForEviction scorer _ _ (fun selected x _ _ _ => ?_) fun e x hunknown _ => ?_
  · -- the copy may fail, but its failures are swallowed
    rw [Eff.wp_bind, Eff.wp_read, Eff.wp_ite]
    refine ⟨fun _ => True.intro, fun _ => ?_⟩
    rw [Eff.wp_attempt]
    exact Eff.wp_final.mpr True.intro
  · obtain ⟨ref, href, hnot⟩ := hunknown (by omega)
    have hscored := (Bool.and_eq_true_iff.mp (List.mem_filter.mp href).2).1
    exact absurd (hknown ref (of_decide_eq_true hscored)) hnot

theorem scoresComplete_iff {o : Orchestrator μ σ} : ScoresComplete dev scorer o ↔ ScoredKnown scorer o := by
  refine ⟨ScoresComplete.known, fun hknown => ⟨hknown, fun candidates fraction refs => ?_⟩⟩
  have hwp := wp_offloadFraction_known dev hknown candidates fraction
  refine (Eff.wp_result (R := fun r : Except PyError (List BlockRef) × Store μ σ => r.1 ≠ .error (.unscored refs))).mp
    ?_
  refine Eff.wp_mono hwp (fun _ _ _ => nofun) fun e _ he => ?_
  rw [he]
  nofun

end Selection

section Calls

variable {cfg : OrchestratorConfig} {dev : Device μ φ ν S} {K : Backing dev} {scorer : BlockScorer σ ν S}
  {o o' : Orchestrator μ σ}

/-- A call that adds the blocks that are `due` to the scored set and then runs a scoring pass over them. A pass
that returns registers them and met no fault; one that fails leaves the scorer as it was. -/
theorem scoredKnown_iff_of_scoring {failed : Prop} {due : BlockRef → Prop} (hknown : ScoredKnown scorer o)
    (hscored : ∀ ref, ref ∈ o'.scored ↔ ref ∈ o.scored ∨ due ref) (hnew : ∀ ref, due ref → ref ∉ o.scored)
    (hregisters : ∀ ref, scorer.known o.store.scorer ref = true → scorer.known o'.store.scorer ref = true)
    (hregistered : ¬failed → Registered scorer o o')
    (hsteady : ¬failed → ∀ ref ∈ o'.scored, ref ∉ o.scored → dev.scoreFault o.store.tick = false)
    (hsame : failed → o'.store.scorer = o.store.scorer) (hfault : failed → ScoreStruck dev o.store o'.store) :
    ScoredKnown scorer o' ↔ ¬FailsUnknown dev scorer o due := by
  by_cases hfailed : failed
  · constructor
    · rintro hknown' ⟨-, ref, hdue, hunknown⟩
      have hentry := hknown' ref ((hscored ref).mpr (Or.inr hdue))
      rw [hsame hfailed, hunknown] at hentry
      cases hentry
    · intro hnone ref href
      rw [hsame hfailed]
      by_contra hunknown
      rcases (hscored ref).mp href with hold | hdue
      · exact hunknown (hknown ref hold)
      · exact hnone ⟨(hfault hfailed).1, ref, hdue, Bool.eq_false_of_not_eq_true hunknown⟩
  · refine iff_of_true (fun ref href => ?_) ?_
    · rcases hregistered hfailed ref href with hold | hentry
      · exact hregisters ref (hknown ref hold)
      · exact hentry
    · rintro ⟨hstruck, ref, hdue, -⟩
      have hnofault := hsteady hfailed ref ((hscored ref).mpr (Or.inr hdue)) (hnew ref hdue)
      rw [hstruck] at hnofault
      cases hnofault

/-- Noting a selection forgets nothing. -/
theorem known_noteSelection (rs : List RequestId) (pattern : SparsePattern) (pageSize : Nat) {ref : BlockRef}
    (hknown : scorer.known o.store.scorer ref = true) :
    scorer.known (noteSelection scorer rs pattern pageSize o).store.scorer ref = true := by
  unfold noteSelection
  cases hnote : scorer.noteUsage with
  | none => exact hknown
  | some note =>
      dsimp only
      split_ifs
      · exact hknown
      · refine List.foldlRecOn (motive := fun x => scorer.known x ref = true) _ _ hknown fun x hx e _ => ?_
        rw [scorer.known_noteUsage note (by rw [hnote]; rfl), hx, Bool.true_or]

theorem scoredKnown_noteSelection (hknown : ScoredKnown scorer o) (rs : List RequestId) (pattern : SparsePattern)
    (pageSize : Nat) : ScoredKnown scorer (noteSelection scorer rs pattern pageSize o) := by
  intro ref href
  refine known_noteSelection rs pattern pageSize (hknown ref ?_)
  unfold noteSelection at href
  cases hnote : scorer.noteUsage with
  | none =>
      rw [hnote] at href
      exact href
  | some note =>
      rw [hnote] at href
      dsimp only at href
      split_ifs at href
      · exact href
      · exact href

/-- Outside the calls that score or note, an entry goes only together with its place in the scored set. -/
theorem StepPost.scoredKnown {op : Op μ} (hpost : StepPost cfg K scorer o op o') (hknown : ScoredKnown scorer o)
    (hsync : ∀ r ids n, op ≠ .sync r ids n) (hprefill : ∀ r n, op ≠ .prefillComplete r n)
    (hnote : ∀ rs pattern pageSize, op ≠ .noteSelection rs pattern pageSize) : ScoredKnown scorer o' := by
  intro ref href
  cases hpost with
  | warmup _ => exact absurd rfl (hsync _ _ _)
  | sync _ _ => exact absurd rfl (hsync _ _ _)
  | prefill _ => exact absurd rfl (hprefill _ _)
  | offload _ hstate h =>
      rw [hstate] at href
      rw [h.frame.known]
      exact hknown ref href
  | staging hstate h =>
      rw [hstate] at href
      rw [h.known]
      exact hknown ref href
  | note _ _ => exact absurd rfl (hnote _ _ _)
  | startDecode => exact hknown ref href
  | cleanup _ h =>
      obtain ⟨hold, hnot⟩ := (h.cleaning.scored ref).mp href
      rw [h.cleaning.known, hknown ref hold, decide_eq_true hnot]
      rfl
  | write => exact hknown ref href

end Calls

section Steps

variable {cfg : ConnectorConfig} {dev : Device μ φ ν S} {scorer : BlockScorer σ ν S} {c : Connector μ σ}

theorem SyncPost.requestBlocks_cases {r : RequestId} {ids : List Nat} {n : Nat} {failed : Prop}
    {o o' : Orchestrator μ σ} {K : Backing dev} (h : SyncPost cfg.toOrchestratorConfig K scorer r ids n o failed o') :
    o'.requestBlocks = o.requestBlocks ∨ o'.requestBlocks = o.requestBlocks.set r (blockRefs r ids.length) := by
  by_cases hfailed : failed
  · exact Or.inl (h.requestBlocks_failed hfailed)
  · exact Or.inr (h.requestBlocks hfailed)

/-- A call keeps what every connector state satisfies. -/
theorem StepPost.sound {op : Op μ} {o : Orchestrator μ σ} (hsound : Sound cfg dev c.toConnectorState)
    (hpost : StepPost cfg.toOrchestratorConfig (Backing.trivial dev) scorer c.orchestrator op o) :
    Sound cfg dev { c.toConnectorState with orchestrator := o } := by
  have hok := hpost.storeOk hsound.ok fun _ _ _ _ _ _ => True.intro
  cases hpost with
  | warmup _ => exact hsound
  | sync hwarm h =>
      exact hsound.of_set hok hwarm h.requestBlocks_cases fun ref href => h.table.placement_kept href
  | prefill h =>
      refine hsound.of_kept hok (by rw [h.state]) fun ref habsent => ?_
      rw [ConnectorState.place] at habsent ⊢
      rw [h.table.placement ref, habsent]
      exact ite_self _
  | offload _ hstate h =>
      refine hsound.of_kept hok (by rw [hstate]) fun ref habsent => ?_
      rw [ConnectorState.place] at habsent ⊢
      rw [h.table.placement ref, if_neg, habsent]
      intro hmem
      obtain ⟨loc, slot, hget, hgpu, -⟩ := h.table.moved ref hmem
      rw [KVOffload.placement, hget] at habsent
      simp [placementOf, hgpu] at habsent
  | staging hstate h =>
      refine hsound.of_kept hok (by rw [hstate]) fun ref habsent => ?_
      rw [ConnectorState.place] at habsent ⊢
      rw [h.restages.placement ref, habsent]
  | note hstate _ =>
      refine hsound.of_kept hok (by rw [hstate]) fun ref habsent => ?_
      rw [ConnectorState.place, hstate]
      exact habsent
  | startDecode => exact ⟨hok, hsound.lists, hsound.ordinary⟩
  | cleanup _ h => exact hsound.of_erase hok (by rw [h.state]) fun ref => h.cleaning.placement ref
  | write => exact ⟨hok, hsound.lists, hsound.ordinary⟩

theorem Sound.ordinary_of_prefillRefs (hsound : Sound cfg dev c.toConnectorState) (r : RequestId) :
    ∀ ref ∈ prefillRefs c.orchestrator r, isWarmup ref.requestId = false := by
  intro ref href
  rw [prefillRefs] at href
  split_ifs at href with hskip
  · cases href
  · rw [hsound.requestId_of_listed href]
    rw [Bool.or_eq_true, not_or, Bool.not_eq_true] at hskip
    exact hskip.1

/-- The trigger registers before it enlarges the scored set, and its offload pass forgets nothing. -/
theorem scoredKnown_trigger (hsound : Sound cfg dev c.toConnectorState) (hknown : ScoredKnown scorer c.orchestrator) :
    ScoredKnown scorer (triggerGlobalOffload cfg dev scorer c).2.orchestrator := by
  refine (Eff.wp_final (P := fun c' : Connector μ σ => ScoredKnown scorer c'.orchestrator)).mp ?_
  rw [triggerGlobalOffload, Eff.wp_bind, Eff.wp_read, Eff.wp_bind, onOrchestrator, Eff.wp_zoom]
  refine Eff.wp_mono (wp_rescore_registers (fun ref href => isGpuComplete_iff_placement.mpr (mem_allowedBlocks href))
    hsound.ordinary_of_allowed) (fun _ o₁ ho₁ => ?_) ?_
  · obtain ⟨hpost, hregisters⟩ := ho₁
    have hknown₁ : ScoredKnown scorer o₁ := by
      intro ref href
      rcases hregisters.scored_new ref href with hold | hnew
      · exact hregisters.known_mono ref (hknown ref hold)
      · exact hpost.known ref hnew
    have hok : StoreOk cfg.toOrchestratorConfig (Backing.trivial dev) o₁.store := by
      rw [hpost.state]
      exact hsound.ok.rescore _ _
    rw [Eff.wp_bind, Eff.wp_read, Eff.wp_bind, onOrchestrator, Eff.wp_zoom, onStore, Eff.wp_zoom]
    have hframe : ∀ s', OffloadFrame scorer o₁.store s' → ScoredKnown scorer { o₁ with store := s' } := by
      intro s' hframe ref href
      change scorer.known s'.scorer ref = true
      rw [hframe.known]
      exact hknown₁ ref href
    refine Eff.wp_mono (wp_offloadFraction scorer hok (allowedBlocks_nodup _) _ _ fun _ _ _ => True.intro)
      (fun moved s₂ hs₂ => ?_) fun _ s₂ hs₂ => hframe s₂ hs₂.1.frame
    have hdone := hframe s₂ hs₂.1.frame
    rw [Eff.wp_bind, Eff.wp_modify, Eff.wp_ite]
    refine ⟨fun _ => hdone, fun _ => ?_⟩
    -- queueing writes the connector's own records only
    refine Eff.wp_mono (wp_queueStore fun ref href => ?_) ?_ ?_
    · obtain ⟨loc, slot, -, -, hget⟩ := hs₂.1.table.moved ref href
      exact Option.isSome_of_eq_some hget
    · rintro _ _ ⟨pool, cpuBlockIds, requestIds, -, rfl⟩
      exact hdone
    · rintro _ _ ⟨rfl, -⟩
      exact hdone
  · rintro _ _ ⟨s', rfl, hfail⟩ ref href
    rw [hfail.state]
    exact hknown ref href

theorem SyncPost.scored_iff_due {r : RequestId} {ids : List Nat} {n : Nat} {failed : Prop} {o o' : Orchestrator μ σ}
    {K : Backing dev} (hwarm : isWarmup r = false) (h : SyncPost cfg.toOrchestratorConfig K scorer r ids n o failed o')
    (ref : BlockRef) : ref ∈ o'.scored ↔ ref ∈ o.scored ∨ SyncDue cfg o r ids n ref := by
  rw [h.scored]
  by_cases hold : ref ∈ o.scored
  · exact iff_of_true (Or.inl hold) (Or.inl hold)
  · refine or_congr_right ?_
    rw [isGpuComplete_iff_placement]
    constructor
    · rintro ⟨hlisted, hcomplete⟩
      obtain ⟨i, hi, rfl⟩ := mem_blockRefs.mp hlisted
      have hpage : ids[i]? = some ids[i] := List.getElem?_eq_getElem hi
      rw [h.table.placement_listed hpage, Placement.bound_complete_iff] at hcomplete
      exact ⟨hwarm, hold, i, ids[i], rfl, hpage, hcomplete⟩
    · rintro ⟨-, -, i, page, rfl, hpage, hcomplete⟩
      rw [h.table.placement_listed hpage, Placement.bound_complete_iff]
      exact ⟨mem_blockRefs.mpr ⟨i, (List.getElem?_eq_some_iff.mp hpage).1, rfl⟩, hcomplete⟩

theorem scoredKnown_sync (hsound : Sound cfg dev c.toConnectorState) (hknown : ScoredKnown scorer c.orchestrator)
    (r : RequestId) (ids : List Nat) (n : Nat) :
    ScoredKnown scorer (syncRequestBlocks cfg.toOrchestratorConfig dev scorer r ids n c.orchestrator).2 ↔
      ¬FailsUnknown dev scorer c.orchestrator (SyncDue cfg c.orchestrator r ids n) := by
  cases hwarm : isWarmup r with
  | true =>
      rw [syncRequestBlocks_of_warmup hwarm]
      refine iff_of_true hknown ?_
      rintro ⟨-, ref, hdue, -⟩
      rw [hdue.1] at hwarm
      cases hwarm
  | false =>
      have hpost : ∀ {failed o'}, SyncPost cfg.toOrchestratorConfig (Backing.trivial dev) scorer r ids n c.orchestrator
          failed o' → (ScoredKnown scorer o' ↔
            ¬FailsUnknown dev scorer c.orchestrator (SyncDue cfg c.orchestrator r ids n)) := fun hpost =>
        scoredKnown_iff_of_scoring hknown (hpost.scored_iff_due hwarm)
          (fun _ hdue => hdue.2.1) hpost.registers.known_mono
          hpost.registered hpost.steady hpost.scorer_failed hpost.fault
      exact Eff.wp_final.mp
        (Eff.wp_mono (wp_syncRequestBlocks hsound.ok hwarm ids n) (fun _ _ => hpost) fun _ _ => hpost)

theorem scoredKnown_prefillComplete (hsound : Sound cfg dev c.toConnectorState)
    (hknown : ScoredKnown scorer c.orchestrator) (r : RequestId) (n : Nat) :
    ScoredKnown scorer (onPrefillComplete cfg.toOrchestratorConfig dev scorer r n c.orchestrator).2 ↔
      ¬FailsUnknown dev scorer c.orchestrator (PrefillDue cfg c.orchestrator r n) := by
  have hwarm := hsound.ordinary_of_prefillRefs r
  have hpost : ∀ {failed o'}, PrefillPost cfg.toOrchestratorConfig (Backing.trivial dev) scorer n
      (prefillRefs c.orchestrator r) c.orchestrator failed o' →
      (ScoredKnown scorer o' ↔
        ¬FailsUnknown dev scorer c.orchestrator (PrefillDue cfg c.orchestrator r n)) := fun hpost =>
    scoredKnown_iff_of_scoring hknown hpost.scored (fun _ hdue => hdue.2.1) hpost.registers.known_mono
      (fun hok => hpost.registered hok hwarm) (fun hok => hpost.steady hok hwarm) hpost.scorer_failed hpost.fault
  exact Eff.wp_final.mp (Eff.wp_mono (wp_onPrefillComplete hsound.ok r n) (fun _ _ => hpost) fun _ _ => hpost)

/-- One step: the scored set keeps its entries unless the step is one that loses some. -/
theorem scoredKnown_scoringStep (hsound : Sound cfg dev c.toConnectorState) (hknown : ScoredKnown scorer c.orchestrator)
    (op : ScoringOp μ) :
    ScoredKnown scorer (scoringStep cfg dev scorer c op).orchestrator ↔ ¬LosesEntry cfg dev scorer c op := by
  cases op with
  | call op distinct =>
      have hpost : StepPost cfg.toOrchestratorConfig (Backing.trivial dev) scorer c.orchestrator op _ :=
        step_post hsound.ok distinct fun _ _ _ _ => True.intro
      cases op with
      | sync r ids n => exact scoredKnown_sync hsound hknown r ids n
      | prefillComplete r n => exact scoredKnown_prefillComplete hsound hknown r n
      | noteSelection rs pattern pageSize =>
          exact iff_of_true (scoredKnown_noteSelection hknown rs pattern pageSize) not_false
      | _ => exact iff_of_true (hpost.scoredKnown hknown nofun nofun nofun) not_false
  | trigger => exact iff_of_true (scoredKnown_trigger hsound hknown) not_false
  | vllm gpuBlockPool => exact iff_of_true hknown not_false

theorem sound_scoringStep (hsound : Sound cfg dev c.toConnectorState) (op : ScoringOp μ) :
    Sound cfg dev (scoringStep cfg dev scorer c op).toConnectorState := by
  cases op with
  | call op distinct => exact (step_post hsound.ok distinct fun _ _ _ _ => True.intro).sound hsound
  | trigger =>
      refine (Eff.wp_final (P := fun c' : Connector μ σ => Sound cfg dev c'.toConnectorState)).mp ?_
      refine Eff.wp_mono (wp_triggerGlobalOffload hsound) ?_ ?_
      · rintro _ _ ⟨moved, hstep⟩
        exact hstep.sound hsound
      · rintro _ _ ⟨moved, hstep⟩
        exact hstep.sound hsound
  | vllm gpuBlockPool => exact ⟨hsound.ok, hsound.lists, hsound.ordinary⟩

end Steps

/-- After every prefix of a run every scored block has its entry and `offload_fraction` meets no unscored
candidate, exactly if no scoring pass of the run fails on a new block. -/
theorem scores_complete_iff (cfg : ConnectorConfig) (dev : Device μ φ ν S) (scorer : BlockScorer σ ν S)
    (x : σ) (mem : μ) (pool : BlockPool) (ops : List (ScoringOp μ)) :
    (∀ done, done <+: ops →
      ScoresComplete dev scorer (run (scoringStep cfg dev scorer) (Connector.init cfg x mem pool) done).orchestrator) ↔
    Along (scoringStep cfg dev scorer) (fun c op => ¬LosesEntry cfg dev scorer c op) (Connector.init cfg x mem pool)
      ops := by
  have hstart : ScoredKnown scorer (Connector.init cfg x mem pool).orchestrator := by
    intro ref href
    cases href
  simp only [scoresComplete_iff]
  rw [forall_prefix_iff (I := fun c : Connector μ σ => ScoredKnown scorer c.orchestrator), and_iff_right hstart]
  apply along_iff (I := fun c : Connector μ σ => Sound cfg dev c.toConnectorState ∧ ScoredKnown scorer c.orchestrator)
  · exact fun op _ c hc => scoredKnown_scoringStep hc.1 hc.2 op
  · exact fun op _ c hc hop => ⟨sound_scoringStep hc.1 op, (scoredKnown_scoringStep hc.1 hc.2 op).mpr hop⟩
  · exact ⟨sound_init cfg dev x mem pool, hstart⟩

/-- The first scoring pass fails, no later one does. -/
def lossyRuntime : Runtime SmallMemory SmallMemory BlockKVStats (WithBot ℚ) :=
  stableRuntime (fun _ _ => [(1, 1)]) (fun _ => none) (fun _ => none) fun tick => decide (tick = 0)

/-- The same block is synced twice, then its request starts to decode. -/
def lossyOps : List (ScoringOp SmallMemory) :=
  [.call (.sync requestA [3] 2) True.intro, .call (.sync requestA [3] 2) True.intro,
    .call (.startDecode requestA) True.intro]

def lossyOrchestrator : Orchestrator SmallMemory (OrderedDict BlockRef ℚ) :=
  (run (scoringStep smallConnectorConfig (combinedDevice lossyRuntime) (pagedEvictionScorer defaultScorer))
    (Connector.init smallConnectorConfig .empty blankMemory (BlockPool.init 9 true)) lossyOps).orchestrator

/-- The block the failed pass left in the scored set has no entry: the second sync skips it, and the decode step
that completes the window trips over it. -/
theorem failed_scoring_pass_loses_entry :
    ⟨requestA, 0⟩ ∈ lossyOrchestrator.scored ∧
      (pagedEvictionScorer defaultScorer).known lossyOrchestrator.store.scorer ⟨requestA, 0⟩ = false ∧
      (offloadFraction (combinedDevice lossyRuntime) (pagedEvictionScorer defaultScorer)
        (lossyOrchestrator.store.residency.allGpuBlocks true) (1 / 2) lossyOrchestrator.scored
        lossyOrchestrator.store).1 = .error (.unscored [⟨requestA, 0⟩]) ∧
      (onDecodeStep smallConfig (combinedDevice lossyRuntime) (pagedEvictionScorer defaultScorer) [requestA] 2
        lossyOrchestrator).1 = .error (.unscored [⟨requestA, 0⟩]) ∧
      ¬ScoresComplete (combinedDevice lossyRuntime) (pagedEvictionScorer defaultScorer) lossyOrchestrator := by
  have hscored : ⟨requestA, 0⟩ ∈ lossyOrchestrator.scored := by decide +kernel
  have hunknown : (pagedEvictionScorer defaultScorer).known lossyOrchestrator.store.scorer ⟨requestA, 0⟩ = false := by
    decide +kernel
  refine ⟨hscored, hunknown, by decide +kernel, by decide +kernel, fun hcomplete => ?_⟩
  have hknown := hcomplete.known ⟨requestA, 0⟩ hscored
  rw [hunknown] at hknown
  cases hknown

end KVOffload

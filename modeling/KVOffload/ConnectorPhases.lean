import KVOffload.ConnectorLedger

/-! Prefill and decode. A pass is due when one request completes its prefill or a window of decode
tokens, but it takes its blocks from all requests, and the connector remembers for good that a request
once left prefill. Both are safe under a condition on what the scheduler reports, and neither is safe
without it. -/

namespace KVOffload
open Base

variable {μ φ ν σ S : Type} [LinearOrder S]

/-- The passes of a run, each with the state in which it was called and the blocks it moved. -/
def passes (trace : List (TraceEvent μ σ)) : List (ConnectorState μ σ × List BlockRef) :=
  trace.filterMap fun
    | .offloaded before moved => some (before, moved)
    | _ => none

theorem passes_append (trace trace' : List (TraceEvent μ σ)) :
    passes (trace ++ trace') = passes trace ++ passes trace' :=
  List.filterMap_append

/-- Passes moved blocks of requests in decode only. -/
def SparesPrefill (trace : List (TraceEvent μ σ)) : Prop :=
  ∀ pass ∈ passes trace, ∀ ref ∈ pass.2, ref.requestId ∈ pass.1.prefillCompleted

instance (trace : List (TraceEvent μ σ)) : Decidable (SparesPrefill trace) :=
  inferInstanceAs (Decidable (∀ pass ∈ passes trace, ∀ ref ∈ pass.2, ref.requestId ∈ pass.1.prefillCompleted))

section Firing

variable (cfg : ConnectorConfig) (out : SchedulerOutput) (c : ConnectorState μ σ)

/-- A cached request runs a pass in this step. -/
def Fires (req : CachedRequestData) : Prop :=
  Completes c req ∨ WindowDue cfg c req.requestId (out.numScheduledTokens req.requestId)

instance (req : CachedRequestData) : Decidable (Fires cfg out c req) := inferInstanceAs (Decidable (_ ∨ _))

def firingCached : List CachedRequestData := out.cachedReqs.filter fun req => Fires cfg out c req

/-- The new requests that run a pass in this step. -/
def firingNew : List NewRequestData :=
  out.newReqs.filter fun req => req.promptLen ≤ req.numComputedTokens ∧ req.requestId ∉ c.prefillCompleted

def firingRequests : List RequestId :=
  (firingCached cfg out c).map (·.requestId) ++ (firingNew out c).map (·.requestId)

/-- The requests that have a complete block on the GPU or may get one in this step. -/
def exposedRequests : List RequestId :=
  (c.orchestrator.store.residency.allGpuBlocks true).map (·.requestId) ++
    (out.reports.filter fun e => cfg.pageSize ≤ e.2).map Prod.fst

/-- While a pass of one request is due, no other request that is still in prefill has a full page. -/
def PrefillSheltered : Prop :=
  out.ids.Nodup ∧
    ∀ r ∈ firingRequests cfg out c, ∀ r' ∈ exposedRequests cfg out c, r' = r ∨ r' ∈ c.prefillCompleted

instance : Decidable (PrefillSheltered cfg out c) := inferInstanceAs (Decidable (_ ∧ _))

end Firing

/-- What a step that started in `c` keeps: only exposed requests have complete blocks, no request goes
back to prefill, and passes spared those in prefill. -/
structure Phased (cfg : ConnectorConfig) (out : SchedulerOutput) (c c' : Connector μ σ) : Prop where
  exposed : ∀ ref page, c'.place ref = .gpu page true → ref.requestId ∈ exposedRequests cfg out c.toConnectorState
  completed : c.prefillCompleted ⊆ c'.prefillCompleted
  spares : SparesPrefill c.trace → SparesPrefill c'.trace

section PhasedSteps

variable {cfg : ConnectorConfig} {dev : Device μ φ ν S} {out : SchedulerOutput} {c c₁ c₂ : Connector μ σ}
  {failed : Prop}

theorem exposed_of_report {r : RequestId} {n : Nat} (hreport : (r, n) ∈ out.reports) (hn : cfg.pageSize ≤ n)
    (c : ConnectorState μ σ) : r ∈ exposedRequests cfg out c := by
  refine List.mem_append_right _ (List.mem_map.mpr ⟨(r, n), List.mem_filter.mpr ⟨hreport, ?_⟩, rfl⟩)
  exact decide_eq_true hn

theorem mem_allGpuBlocks_iff_place {c : ConnectorState μ σ} {ref : BlockRef} :
    ref ∈ c.orchestrator.store.residency.allGpuBlocks true ↔ ∃ page, c.place ref = .gpu page true :=
  ResidencyTable.mem_allGpuBlocks.trans (isGpuComplete_iff.symm.trans isGpuComplete_iff_placement)

theorem Phased.sync {r : RequestId} {ids : List Nat} {n : Nat} (h : Phased cfg out c c₁)
    (hreport : (r, n) ∈ out.reports) (hstep : SyncStep cfg dev r ids n c₁ failed c₂) : Phased cfg out c c₂ := by
  refine ⟨fun ref page hplace => ?_, ?_, ?_⟩
  · rcases hstep.place_cases ref with ⟨hsame, -⟩ | ⟨i, page', rfl, -, -, hbound⟩
    · exact h.exposed ref page (hsame ▸ hplace)
    · rw [hbound] at hplace
      obtain ⟨rfl, hfull⟩ := Placement.bound_eq_gpu hplace
      rcases hfull rfl with hfull | hold
      · refine exposed_of_report hreport ?_ _
        have hle : (i + 1) * cfg.pageSize ≤ n := of_decide_eq_true hfull
        exact (Nat.le_mul_of_pos_left _ (Nat.succ_pos i)).trans hle
      · exact h.exposed _ _ hold
  · rw [hstep.state]
    exact h.completed
  · rw [hstep.state]
    exact h.spares

theorem Phased.graduate {r : RequestId} {n : Nat} (h : Phased cfg out c c₁) (hsound : Sound cfg dev c₁.toConnectorState)
    (hreport : (r, n) ∈ out.reports) (hstep : GraduateStep cfg dev r n c₁ failed c₂) :
    Phased cfg out c c₂ ∧ r ∈ c₂.prefillCompleted := by
  have hcompleted : c₂.prefillCompleted = insert r c₁.prefillCompleted := by rw [hstep.state]
  refine ⟨⟨fun ref page hplace => ?_, ?_, ?_⟩, ?_⟩
  · by_cases hsame : c₂.place ref = c₁.place ref
    · exact h.exposed ref page (hsame ▸ hplace)
    · obtain ⟨hlisted, hfilled⟩ := hstep.listed_of_graduated hsame
      have hr := hsound.requestId_of_listed hlisted
      rw [listedBlocks] at hlisted
      cases hget : c₁.orchestrator.requestBlocks.get? r with
      | none =>
          rw [hget] at hlisted
          cases hlisted
      | some refs =>
          obtain ⟨-, m, rfl⟩ := hsound.lists r refs hget
          rw [hget] at hlisted
          obtain ⟨i, -, rfl⟩ := mem_blockRefs.mp hlisted
          refine exposed_of_report hreport ?_ _
          have hle : ((i : Int) + 1) * cfg.pageSize ≤ n := hfilled
          have hle' : (i + 1) * cfg.pageSize ≤ n := by exact_mod_cast hle
          exact (Nat.le_mul_of_pos_left _ (Nat.succ_pos i)).trans hle'
  · rw [hcompleted]
    exact h.completed.trans (Finset.subset_insert _ _)
  · rw [hstep.state]
    exact h.spares
  · rw [hcompleted]
    exact Finset.mem_insert_self _ _

/-- A pass of a request in decode, while every other exposed request was in decode at the start. -/
theorem Phased.trigger {r : RequestId} {moved : List BlockRef} (h : Phased cfg out c c₁) (hr : r ∈ c₁.prefillCompleted)
    (hsheltered : ∀ r' ∈ exposedRequests cfg out c.toConnectorState, r' = r ∨ r' ∈ c.prefillCompleted)
    (hstep : TriggerStep cfg dev c₁ moved failed c₂) : Phased cfg out c c₂ := by
  refine ⟨fun ref page hplace => h.exposed ref page (hstep.place_eq_gpu hplace).2, ?_, fun hspares => ?_⟩
  · rw [hstep.state]
    exact h.completed
  · rcases hstep.trace with ⟨-, htrace⟩ | ⟨before, hbefore, htrace⟩
    · rw [htrace]
      exact h.spares hspares
    · rw [htrace, SparesPrefill, passes_append]
      intro pass hpass ref href
      rcases List.mem_append.mp hpass with hold | hnew
      · exact h.spares hspares pass hold ref href
      · obtain rfl : pass = (before, moved) := List.mem_singleton.mp hnew
        obtain ⟨page, hplace⟩ := mem_allowedBlocks (hstep.allowed ref href)
        have hcompleted : before.prefillCompleted = c₁.prefillCompleted := by rw [hbefore]
        show ref.requestId ∈ before.prefillCompleted
        rw [hcompleted]
        rcases hsheltered _ (h.exposed ref page hplace) with heq | hdecoding
        · rw [heq]
          exact hr
        · exact h.completed hdecoding

theorem Phased.of_frame (h : Phased cfg out c c₁) (hplace : c₂.place = c₁.place)
    (hcompleted : c₂.prefillCompleted = c₁.prefillCompleted) (hpasses : passes c₂.trace = passes c₁.trace) :
    Phased cfg out c c₂ := by
  refine ⟨?_, ?_, ?_⟩
  · rw [hplace]
    exact h.exposed
  · rw [hcompleted]
    exact h.completed
  · unfold SparesPrefill at *
    rw [hpasses]
    exact h.spares

theorem Phased.started {req : NewRequestData} (h : Phased cfg out c c₁) (hstep : Started req c₁ c₂) :
    Phased cfg out c c₂ :=
  h.of_frame hstep.place (by rw [hstep.state]) (by rw [hstep.state])

theorem Phased.counted {r : RequestId} (h : Phased cfg out c c₁) (hstep : Counted r c₁ c₂) : Phased cfg out c c₂ := by
  refine h.of_frame hstep.place (by rw [hstep.state]) ?_
  rcases hstep.trace with hsame | ⟨-, n, happend⟩
  · rw [hsame]
  · rw [happend, passes_append]
    exact List.append_nil _

theorem Phased.stage (h : Phased cfg out c c₁) (hstep : StageStep cfg dev c₁ failed c₂) : Phased cfg out c c₂ :=
  h.of_frame hstep.place (by rw [hstep.state]) (by rw [hstep.state])

theorem Phased.flush (h : Phased cfg out c c₁) (hstep : FlushPost c₁ c₂) : Phased cfg out c c₂ := by
  cases hstep with
  | idle _ => exact h
  | flush _ =>
      refine h.of_frame rfl rfl ?_
      rw [passes_append]
      exact List.append_nil _

end PhasedSteps

section PhasedBuild

variable {cfg : ConnectorConfig} {dev : Device μ φ ν S} {scorer : BlockScorer σ ν S} {out : SchedulerOutput}
  {c c₁ c₂ : Connector μ σ} {failed : Prop}

theorem Untouched.completes {req : CachedRequestData} {c c' : ConnectorState μ σ} (h : Untouched req.requestId c c')
    (hdue : Completes c' req) : Completes c req := by
  unfold Completes at *
  rwa [h.promptLen, h.completed] at hdue

theorem Untouched.windowDue {r : RequestId} {numScheduled : Nat} {c c' : ConnectorState μ σ} (h : Untouched r c c')
    (hdue : WindowDue cfg c' r numScheduled) : WindowDue cfg c r numScheduled := by
  unfold WindowDue at *
  rwa [h.completed, h.started, h.decoded] at hdue

/-- A sync leaves the phase of its own request alone. -/
theorem SyncStep.windowDue {r : RequestId} {ids : List Nat} {n numScheduled : Nat}
    (h : SyncStep cfg dev r ids n c₁ failed c₂) (hdue : WindowDue cfg c₂.toConnectorState r numScheduled) :
    WindowDue cfg c₁.toConnectorState r numScheduled := by
  rw [h.state] at hdue
  exact hdue

theorem SyncStep.completes {req : CachedRequestData} {ids : List Nat}
    (h : SyncStep cfg dev req.requestId ids req.numComputedTokens c₁ failed c₂)
    (hdue : Completes c₂.toConnectorState req) : Completes c₁.toConnectorState req := by
  rw [h.state] at hdue
  exact hdue

/-- Whether a request fires can be judged in the state before the step. -/
theorem SyncStep.fires {req : CachedRequestData} {ids : List Nat}
    (h : SyncStep cfg dev req.requestId ids req.numComputedTokens c₁ failed c₂)
    (huntouched : Untouched req.requestId c.toConnectorState c₁.toConnectorState)
    (hfires : Fires cfg out c₂.toConnectorState req) : Fires cfg out c.toConnectorState req :=
  hfires.imp (fun hdue => huntouched.completes (h.completes hdue)) fun hdue => huntouched.windowDue (h.windowDue hdue)

theorem mem_firing_of_cached {req : CachedRequestData} {c : ConnectorState μ σ} (hreq : req ∈ out.cachedReqs)
    (hfires : Fires cfg out c req) : req.requestId ∈ firingRequests cfg out c := by
  refine List.mem_append_left _ (List.mem_map_of_mem (List.mem_filter.mpr ⟨hreq, ?_⟩))
  exact decide_eq_true hfires

theorem mem_firing_of_new {req : NewRequestData} {c : ConnectorState μ σ} (hreq : req ∈ out.newReqs)
    (hdue : req.promptLen ≤ req.numComputedTokens ∧ req.requestId ∉ c.prefillCompleted) :
    req.requestId ∈ firingRequests cfg out c := by
  refine List.mem_append_right _ (List.mem_map_of_mem (List.mem_filter.mpr ⟨hreq, ?_⟩))
  exact decide_eq_true hdue

theorem report_of_new {req : NewRequestData} (hreq : req ∈ out.newReqs) :
    (req.requestId, req.numComputedTokens) ∈ out.reports :=
  List.mem_append_left _ (List.mem_map.mpr ⟨req, hreq, rfl⟩)

theorem report_of_cached {req : CachedRequestData} (hreq : req ∈ out.cachedReqs) :
    (req.requestId, req.numComputedTokens) ∈ out.reports :=
  List.mem_append_right _ (List.mem_map.mpr ⟨req, hreq, rfl⟩)

/-- The graduation and the pass of a request that fires in this step. -/
theorem Phased.complete {r : RequestId} {n : Nat} (h : Phased cfg out c c₁) (hsound : Sound cfg dev c₁.toConnectorState)
    (hreport : (r, n) ∈ out.reports)
    (hsheltered : ∀ r' ∈ exposedRequests cfg out c.toConnectorState, r' = r ∨ r' ∈ c.prefillCompleted)
    (hpost : CompletePost cfg dev r n c₁ failed c₂) : Phased cfg out c c₂ ∧ r ∈ c₂.prefillCompleted := by
  cases hpost with
  | failed h₁ => exact h.graduate hsound hreport h₁
  | pass h₁ h₂ =>
      obtain ⟨hphased, hr⟩ := h.graduate hsound hreport h₁
      refine ⟨hphased.trigger hr hsheltered h₂, ?_⟩
      rw [h₂.state]
      exact hr

theorem Phased.check {req : CachedRequestData} (h : Phased cfg out c c₁) (hsound : Sound cfg dev c₁.toConnectorState)
    (hreport : (req.requestId, req.numComputedTokens) ∈ out.reports)
    (hsheltered : Completes c₁.toConnectorState req →
      ∀ r' ∈ exposedRequests cfg out c.toConnectorState, r' = req.requestId ∨ r' ∈ c.prefillCompleted)
    (hpost : CheckPost cfg dev req c₁ failed c₂) : Phased cfg out c c₂ := by
  cases hpost with
  | idle _ => exact h
  | complete hdue hpost => exact (h.complete hsound hreport (hsheltered hdue) hpost).1

theorem Phased.count {r : RequestId} {k : Nat} (h : Phased cfg out c c₁)
    (hsheltered : WindowDue cfg c₁.toConnectorState r k →
      ∀ r' ∈ exposedRequests cfg out c.toConnectorState, r' = r ∨ r' ∈ c.prefillCompleted)
    (hpost : CountPost cfg dev r k c₁ failed c₂) : Phased cfg out c c₂ := by
  cases hpost with
  | idle h₁ => exact h.counted h₁
  | pass hdue h₁ h₂ =>
      refine (h.counted h₁).trigger ?_ (hsheltered hdue) h₂
      rw [h₁.state]
      exact hdue.2.1

/-- Reading a cached request whose bookkeeping is still that of the start of the step. -/
theorem Phased.cached {req : CachedRequestData} (h : Phased cfg out c c₁) (hsound : Sound cfg dev c₁.toConnectorState)
    (hreq : req ∈ out.cachedReqs) (huntouched : Untouched req.requestId c.toConnectorState c₁.toConnectorState)
    (hsheltered : PrefillSheltered cfg out c.toConnectorState) (hpost : CachedPost cfg dev out req c₁ failed c₂) :
    Phased cfg out c c₂ := by
  have hreport := report_of_cached hreq
  have hfiring : ∀ {c' : Connector μ σ} {ids : List Nat} {failed : Prop},
      SyncStep cfg dev req.requestId ids req.numComputedTokens c₁ failed c' → Fires cfg out c'.toConnectorState req →
      ∀ r' ∈ exposedRequests cfg out c.toConnectorState, r' = req.requestId ∨ r' ∈ c.prefillCompleted :=
    fun hsync hfires => hsheltered.2 _ (mem_firing_of_cached hreq (hsync.fires huntouched hfires))
  cases hpost with
  | syncFailed h₁ => exact h.sync hreport h₁
  | checkFailed h₁ h₂ =>
      exact (h.sync hreport h₁).check (h₁.sound hsound) hreport (fun hdue => hfiring h₁ (Or.inl hdue)) h₂
  | counted h₁ h₂ h₃ =>
      have hchecked := (h.sync hreport h₁).check (h₁.sound hsound) hreport (fun hdue => hfiring h₁ (Or.inl hdue)) h₂
      refine hchecked.count (fun hdue => ?_) h₃
      -- A request that just completed its prefill fires already; otherwise the check changed nothing.
      cases h₂ with
      | idle _ => exact hfiring h₁ (Or.inr hdue)
      | complete hcompletes _ => exact hfiring h₁ (Or.inl hcompletes)

theorem Phased.completeNew {req : NewRequestData} (h : Phased cfg out c c₁) (hsound : Sound cfg dev c₁.toConnectorState)
    (hreq : req ∈ out.newReqs) (hsheltered : PrefillSheltered cfg out c.toConnectorState)
    (hpost : CompleteNewPost cfg dev req c₁ failed c₂) : Phased cfg out c c₂ := by
  cases hpost with
  | idle => exact h
  | complete hdue hpost =>
      have hfiring : req.requestId ∈ firingRequests cfg out c.toConnectorState :=
        mem_firing_of_new hreq ⟨hdue.1, fun hmem => hdue.2 (h.completed hmem)⟩
      exact (h.complete hsound (report_of_new hreq) (hsheltered.2 _ hfiring) hpost).1

theorem carried_phased (hsheltered : PrefillSheltered cfg out c.toConnectorState) :
    Carried cfg dev out c (fun _ c₁ => Phased cfg out c c₁) (Phased cfg out c) (Phased cfg out c) := by
  have hboth : ∀ {failed : Prop} {c' : Connector μ σ}, Phased cfg out c c' →
      Ends failed (Phased cfg out c) (Phased cfg out c) c' := fun h => ⟨fun _ => h, fun _ => h⟩
  have hstart : Phased cfg out c c := by
    refine ⟨fun ref page hplace => ?_, Finset.Subset.refl _, fun h => h⟩
    exact List.mem_append_left _ (List.mem_map_of_mem (mem_allGpuBlocks_iff_place.mpr ⟨page, hplace⟩))
  refine ⟨?_, fun done req rest hsplit c₁ failed c₂ h₁ hpost => ?_,
    fun done req rest hsplit c₁ failed c₂ h₁ hpost => ?_,
    fun req hreq c₁ failed c₂ h₁ hpost => hboth (h₁.holds.completeNew h₁.sound hreq hsheltered hpost),
    fun c₁ failed c₂ h₁ hstage => hboth (h₁.holds.stage hstage), fun c₁ c₂ h₁ hflush => h₁.holds.flush hflush⟩
  · refine hstart.of_frame rfl rfl ?_
    rw [opened, passes_append]
    have hnone : passes (out.reports.map fun e => (.reported e.1 e.2 : TraceEvent μ σ)) = [] := by
      refine List.filterMap_eq_nil_iff.mpr fun e he => ?_
      obtain ⟨report, -, rfl⟩ := List.mem_map.mp he
      rfl
    rw [hnone, List.append_nil]
  · have hreq : req ∈ out.newReqs := by
      rw [hsplit]
      exact List.mem_append_right _ List.mem_cons_self
    cases hpost with
    | syncFailed h => exact hboth (h₁.holds.sync (report_of_new hreq) h)
    | tracked h h' => exact hboth ((h₁.holds.sync (report_of_new hreq) h).started h')
  · have hreq : req ∈ out.cachedReqs := by
      rw [hsplit]
      exact List.mem_append_right _ List.mem_cons_self
    exact hboth (h₁.holds.cached h₁.sound hreq (h₁.unread _ (not_read_of_nodup hsheltered.1 hsplit)) hsheltered hpost)

end PhasedBuild

/-- The condition on one operation: a step shelters requests in prefill. -/
def ConnectorOp.Shelters (cfg : ConnectorConfig) (c : Connector μ σ) : ConnectorOp μ → Prop
  | .build out => PrefillSheltered cfg out c.toConnectorState
  | _ => True

instance (cfg : ConnectorConfig) (c : Connector μ σ) : (op : ConnectorOp μ) → Decidable (op.Shelters cfg c)
  | .build out => inferInstanceAs (Decidable (PrefillSheltered cfg out c.toConnectorState))
  | .update _ => inferInstanceAs (Decidable True)
  | .finished _ => inferInstanceAs (Decidable True)
  | .vllm _ _ => inferInstanceAs (Decidable True)
  | .worker _ => inferInstanceAs (Decidable True)

/-- No pass moves a block of a request that is still in prefill. -/
theorem offload_spares_prefill (cfg : ConnectorConfig) (dev : Device μ φ ν S) (scorer : BlockScorer σ ν S)
    (x : σ) (mem : μ) (pool : BlockPool) {ops : List (ConnectorOp μ)}
    (hops : Along (connectorStep cfg dev scorer) (fun c op => op.Shelters cfg c) (Connector.init cfg x mem pool) ops) :
    SparesPrefill (run (connectorStep cfg dev scorer) (Connector.init cfg x mem pool) ops).trace := by
  have hstep : ∀ (c : Connector μ σ) (op : ConnectorOp μ),
      Sound cfg dev c.toConnectorState ∧ SparesPrefill c.trace → op.Shelters cfg c →
      Sound cfg dev (connectorStep cfg dev scorer c op).toConnectorState ∧
        SparesPrefill (connectorStep cfg dev scorer c op).trace := by
    intro c op hc hop
    have hquiet : ∀ {c'}, QuietStep cfg dev c c' → Sound cfg dev c'.toConnectorState ∧ SparesPrefill c'.trace := by
      intro c' hstep
      refine ⟨hstep.sound hc.1, ?_⟩
      rw [hstep.trace]
      exact hc.2
    cases op with
    | build out =>
        obtain ⟨hsound, hphased⟩ := build_step scorer hc.1 (carried_phased hop)
        exact ⟨hsound, hphased.elim (fun h => h.spares hc.2) fun h => h.spares hc.2⟩
    | update completed => exact hquiet (quietStep_update hc.1 completed)
    | finished r =>
        have hfinish : FinishStep cfg dev r c (connectorStep cfg dev scorer c (.finished r)) := finishStep hc.1 r
        refine ⟨hfinish.sound hc.1, ?_⟩
        have hpasses : passes (connectorStep cfg dev scorer c (.finished r)).trace = passes c.trace := by
          rw [hfinish.state, passes_append]
          exact List.append_nil _
        unfold SparesPrefill
        rw [hpasses]
        exact hc.2
    | vllm pool tables => exact hquiet (quietStep_vllm hc.1 pool tables)
    | worker op => exact hquiet (quietStep_worker hc.1 op)
  exact (run_invariant (I := fun c : Connector μ σ => Sound cfg dev c.toConnectorState ∧ SparesPrefill c.trace) hstep
    ⟨sound_init cfg dev x mem pool, nofun⟩ hops).2

def wideStep : Connector SmallMemory LruState → ConnectorOp SmallMemory → Connector SmallMemory LruState :=
  connectorStep wideConfig (combinedDevice steadyRuntime) lruScorer

/-- Request `a` completes its prompt of two pages while `b` has computed nothing yet; then `b` computes its prompt of
eight tokens in two chunks, on pages `1` to `4`. -/
def besideDecode : List (ConnectorOp SmallMemory) :=
  [.vllm ((BlockPool.init 12 true).touch [1, 2, 3, 4, 5, 6])
      ((OrderedDict.empty.set requestA [5, 6]).set requestB [1, 2, 3, 4]),
    .build ⟨[⟨requestA, [5, 6], 0, 4⟩], [], fun _ => 4⟩,
    .build ⟨[⟨requestB, [1, 2, 3, 4], 0, 8⟩], [⟨requestA, 4, none, false⟩], fun r => if r = requestA then 1 else 4⟩,
    .build ⟨[], [⟨requestB, 4, none, false⟩], fun _ => 4⟩,
    .build ⟨[], [⟨requestB, 8, none, false⟩], fun _ => 1⟩]

/-- Both requests have a pass; the second, when `b` is through its prompt, also takes the other page of `a`. -/
theorem offload_spares_prefill_besideDecode :
    requestA ∈ (run wideStep wideConnector (besideDecode.take 4)).prefillCompleted ∧
      requestB ∉ (run wideStep wideConnector (besideDecode.take 4)).prefillCompleted ∧
      (passes (run wideStep wideConnector besideDecode).trace).map Prod.snd =
        [[⟨requestA, 0⟩], [⟨requestA, 1⟩, ⟨requestB, 0⟩, ⟨requestB, 1⟩]] ∧
      SparesPrefill (run wideStep wideConnector besideDecode).trace := by
  have hops : Along wideStep (fun c op => op.Shelters wideConfig c) wideConnector besideDecode := by decide +kernel
  refine ⟨by decide +kernel, by decide +kernel, by decide +kernel, ?_⟩
  exact offload_spares_prefill wideConfig (combinedDevice steadyRuntime) lruScorer ⟨.empty, 0⟩ blankMemory
    (BlockPool.init 12 true) hops

/-- Request `a` with a prompt of one page next to the first chunk of `b`. -/
def mixedPrefill : List (ConnectorOp SmallMemory) :=
  [.vllm ((BlockPool.init 12 true).touch [1, 2, 3, 4, 5])
    ((OrderedDict.empty.set requestB [1, 2, 3, 4]).set requestA [5]),
    .build ⟨[⟨requestB, [1, 2, 3, 4], 0, 8⟩, ⟨requestA, [5], 0, 2⟩], [], fun r => if r = requestA then 2 else 4⟩,
    .build ⟨[], [⟨requestB, 4, none, false⟩, ⟨requestA, 2, none, false⟩], fun r => if r = requestA then 1 else 4⟩,
    .update [(0, 1)]]

/-- The pass of `a` takes both pages of `b`, which has half of its prompt to compute, and frees them. -/
theorem offload_hits_prefill :
    ¬SparesPrefill (run wideStep wideConnector mixedPrefill).trace ∧
      requestB ∉ (run wideStep wideConnector mixedPrefill).prefillCompleted ∧
      (run wideStep wideConnector mixedPrefill).reqToBlocks.get? requestB = some [0, 0, 3, 4] := by
  decide +kernel

section Decoding

/-- The counts reported for a request so far. -/
def reportedCounts (trace : List (TraceEvent μ σ)) (r : RequestId) : List Nat :=
  trace.filterMap fun
    | .reported r' n => if r' = r then some n else none
    | _ => none

theorem reportedCounts_append (trace trace' : List (TraceEvent μ σ)) (r : RequestId) :
    reportedCounts (trace ++ trace') r = reportedCounts trace r ++ reportedCounts trace' r :=
  List.filterMap_append

/-- The condition on the reports of a step, where `promptLen` gives the prompt length of every request:
a request that was reported with its whole prompt computed is not reported with less again. -/
def PromptKept (promptLen : RequestId → Nat) (out : SchedulerOutput) (c : Connector μ σ) : Prop :=
  out.ids.Nodup ∧ (∀ req ∈ out.newReqs, req.promptLen = promptLen req.requestId) ∧
    ∀ req ∈ out.cachedReqs, ∀ n ∈ reportedCounts c.trace req.requestId,
      promptLen req.requestId ≤ n → promptLen req.requestId ≤ req.numComputedTokens

instance (promptLen : RequestId → Nat) (out : SchedulerOutput) (c : Connector μ σ) :
    Decidable (PromptKept promptLen out c) := inferInstanceAs (Decidable (_ ∧ _ ∧ _))

def ConnectorOp.KeepsPrompt (promptLen : RequestId → Nat) (c : Connector μ σ) : ConnectorOp μ → Prop
  | .build out => PromptKept promptLen out c
  | _ => True

instance (promptLen : RequestId → Nat) (c : Connector μ σ) :
    (op : ConnectorOp μ) → Decidable (op.KeepsPrompt promptLen c)
  | .build out => inferInstanceAs (Decidable (PromptKept promptLen out c))
  | .update _ => inferInstanceAs (Decidable True)
  | .finished _ => inferInstanceAs (Decidable True)
  | .vllm _ _ => inferInstanceAs (Decidable True)
  | .worker _ => inferInstanceAs (Decidable True)

/-- The connector takes a request for decoding only after a report of its whole prompt. -/
structure PhaseKnown (promptLen : RequestId → Nat) (c : Connector μ σ) : Prop where
  recorded : ∀ r len, c.promptLens.get? r = some len → len = promptLen r
  reached : ∀ r ∈ c.prefillCompleted, ∃ n ∈ reportedCounts c.trace r, promptLen r ≤ n

/-- The same inside a step that started in `c`; its own reports are in the trace by then, and the counts
of cached requests in prefill stand still. -/
structure Decoding (promptLen : RequestId → Nat) (out : SchedulerOutput) (c c' : Connector μ σ) : Prop where
  recorded : ∀ r len, c'.promptLens.get? r = some len → len = promptLen r
  reached : ∀ r ∈ c'.prefillCompleted, r ∈ c.prefillCompleted ∨ ∃ n, (r, n) ∈ out.reports ∧ promptLen r ≤ n
  counts : ∀ r, r ∉ c'.prefillCompleted → r ∉ out.newReqs.map (·.requestId) →
    c'.controller.decodeTokens.get? r = c.controller.decodeTokens.get? r
  trace : ∃ ext, c'.trace = c.trace ++ (out.reports.map (fun e => .reported e.1 e.2) ++ ext) ∧
    ∀ r k, .decoded r k ∈ ext → r ∈ c'.prefillCompleted ∧ r ∈ out.cachedReqs.map (·.requestId)

variable {promptLen : RequestId → Nat} {cfg : ConnectorConfig} {dev : Device μ φ ν S} {scorer : BlockScorer σ ν S}
  {out : SchedulerOutput} {c c₁ c₂ : Connector μ σ} {failed : Prop}

/-- A part that leaves prompt lengths, phases and counts alone and does not call `on_decode`. -/
theorem Decoding.of_frame (h : Decoding promptLen out c c₁) (hlens : c₂.promptLens = c₁.promptLens)
    (hcompleted : c₂.prefillCompleted = c₁.prefillCompleted) (hcontroller : c₂.controller = c₁.controller)
    (htrace : ∃ ext, c₂.trace = c₁.trace ++ ext ∧ ∀ r k, .decoded r k ∉ ext) : Decoding promptLen out c c₂ := by
  obtain ⟨ext₁, htrace₁, hext₁⟩ := h.trace
  obtain ⟨ext, htrace, hext⟩ := htrace
  refine ⟨?_, ?_, ?_, ext₁ ++ ext, ?_, fun r k hmem => ?_⟩
  · rw [hlens]
    exact h.recorded
  · rw [hcompleted]
    exact h.reached
  · rw [hcompleted, hcontroller]
    exact h.counts
  · rw [htrace, htrace₁, List.append_assoc, List.append_assoc]
  · rw [hcompleted]
    exact hext₁ r k ((List.mem_append.mp hmem).resolve_right (hext r k))

theorem Decoding.sync {r : RequestId} {ids : List Nat} {n : Nat} (h : Decoding promptLen out c c₁)
    (hstep : SyncStep cfg dev r ids n c₁ failed c₂) : Decoding promptLen out c c₂ :=
  h.of_frame (by rw [hstep.state]) (by rw [hstep.state]) (by rw [hstep.state])
    ⟨[], by rw [hstep.state, List.append_nil], nofun⟩

theorem Decoding.stage (h : Decoding promptLen out c c₁) (hstep : StageStep cfg dev c₁ failed c₂) :
    Decoding promptLen out c c₂ :=
  h.of_frame (by rw [hstep.state]) (by rw [hstep.state]) (by rw [hstep.state])
    ⟨[], by rw [hstep.state, List.append_nil], nofun⟩

theorem Decoding.trigger {moved : List BlockRef} (h : Decoding promptLen out c c₁)
    (hstep : TriggerStep cfg dev c₁ moved failed c₂) : Decoding promptLen out c c₂ := by
  refine h.of_frame (by rw [hstep.state]) (by rw [hstep.state]) (by rw [hstep.state]) ?_
  rcases hstep.trace with ⟨-, htrace⟩ | ⟨before, -, htrace⟩
  · exact ⟨[], by rw [htrace, List.append_nil], nofun⟩
  · exact ⟨_, htrace, fun r k hmem => by cases List.mem_singleton.mp hmem⟩

theorem Decoding.flush (h : Decoding promptLen out c c₁) (hstep : FlushPost c₁ c₂) : Decoding promptLen out c c₂ := by
  cases hstep with
  | idle _ => exact h
  | flush _ => exact h.of_frame rfl rfl rfl ⟨_, rfl, fun r k hmem => by cases List.mem_singleton.mp hmem⟩

theorem Decoding.started {req : NewRequestData} (h : Decoding promptLen out c c₁) (hreq : req ∈ out.newReqs)
    (hlen : req.promptLen = promptLen req.requestId) (hstep : Started req c₁ c₂) : Decoding promptLen out c c₂ := by
  have hcompleted : c₂.prefillCompleted = c₁.prefillCompleted := by rw [hstep.state]
  have hlens : c₂.promptLens = c₁.promptLens.set req.requestId req.promptLen := by rw [hstep.state]
  have htrace : c₂.trace = c₁.trace := by rw [hstep.state]
  refine ⟨fun r len hget => ?_, ?_, fun r hr hnew => ?_, ?_⟩
  · rw [hlens, OrderedDict.get?_set] at hget
    split_ifs at hget with heq
    · rw [heq, ← Option.some.inj hget, hlen]
    · exact h.recorded r len hget
  · rw [hcompleted]
    exact h.reached
  · have hne : r ≠ req.requestId := fun heq => hnew (heq ▸ List.mem_map_of_mem hreq)
    rw [hcompleted] at hr
    rw [hstep.decoded r hne]
    exact h.counts r hr hnew
  · rw [hcompleted, htrace]
    exact h.trace

theorem Decoding.graduate {r : RequestId} {n : Nat} (h : Decoding promptLen out c c₁) (hreport : (r, n) ∈ out.reports)
    (hn : promptLen r ≤ n) (hstep : GraduateStep cfg dev r n c₁ failed c₂) : Decoding promptLen out c c₂ := by
  have hcompleted : c₂.prefillCompleted = insert r c₁.prefillCompleted := by rw [hstep.state]
  have htrace : c₂.trace = c₁.trace := by rw [hstep.state]
  refine ⟨?_, fun r' hr' => ?_, fun r' hr' hnew => ?_, ?_⟩
  · rw [hstep.state]
    exact h.recorded
  · rw [hcompleted] at hr'
    rcases Finset.mem_insert.mp hr' with rfl | hold
    · exact Or.inr ⟨n, hreport, hn⟩
    · exact h.reached r' hold
  · have hcontroller : c₂.controller = c₁.controller := by rw [hstep.state]
    rw [hcompleted] at hr'
    rw [hcontroller]
    exact h.counts r' (fun hmem => hr' (Finset.mem_insert_of_mem hmem)) hnew
  · obtain ⟨ext, hext, hdecoded⟩ := h.trace
    rw [hcompleted, htrace]
    exact ⟨ext, hext, fun r' k hmem => ⟨Finset.mem_insert_of_mem (hdecoded r' k hmem).1, (hdecoded r' k hmem).2⟩⟩

theorem Decoding.counted {r : RequestId} (h : Decoding promptLen out c c₁)
    (hcached : r ∈ out.cachedReqs.map (·.requestId))
    (hstep : Counted r c₁ c₂) : Decoding promptLen out c c₂ := by
  rcases hstep.trace with hsame | ⟨hr, numTokens, htrace⟩
  · rw [hsame]
    exact h
  · have hcompleted : c₂.prefillCompleted = c₁.prefillCompleted := by rw [hstep.state]
    obtain ⟨ext, hext, hdecoded⟩ := h.trace
    refine ⟨?_, ?_, fun r' hr' hnew => ?_, ext ++ [.decoded r numTokens], ?_, fun r' k hmem => ?_⟩
    · rw [hstep.state]
      exact h.recorded
    · rw [hcompleted]
      exact h.reached
    · rw [hcompleted] at hr'
      have hne : r' ≠ r := fun heq => hr' (heq ▸ hr)
      rw [hstep.decoded r' hne]
      exact h.counts r' hr' hnew
    · rw [htrace, hext, List.append_assoc, List.append_assoc]
    · rw [hcompleted]
      rcases List.mem_append.mp hmem with hold | hnew
      · exact hdecoded r' k hold
      · obtain ⟨rfl, -⟩ := TraceEvent.decoded.inj (List.mem_singleton.mp hnew)
        exact ⟨hr, hcached⟩

theorem carried_decoding (h : PhaseKnown promptLen c) (hout : PromptKept promptLen out c) :
    Carried cfg dev out c (fun _ c₁ => Decoding promptLen out c c₁) (Decoding promptLen out c)
      (Decoding promptLen out c) := by
  have hboth : ∀ {failed : Prop} {c' : Connector μ σ}, Decoding promptLen out c c' →
      Ends failed (Decoding promptLen out c) (Decoding promptLen out c) c' := fun h => ⟨fun _ => h, fun _ => h⟩
  refine ⟨⟨h.recorded, fun _ hr => Or.inl hr, fun _ _ _ => rfl, [], ?_, nofun⟩,
    fun done req rest hsplit c₁ failed c₂ h₁ hpost => ?_, fun done req rest hsplit c₁ failed c₂ h₁ hpost => ?_,
    fun req hreq c₁ failed c₂ h₁ hpost => ?_, fun c₁ failed c₂ h₁ hstage => hboth (h₁.holds.stage hstage),
    fun c₁ c₂ h₁ hflush => h₁.holds.flush hflush⟩
  · rw [List.append_nil]
    rfl
  · have hreq : req ∈ out.newReqs := by
      rw [hsplit]
      exact List.mem_append_right _ List.mem_cons_self
    exact hpost.elim h₁.sound (fun _ _ hsync => hboth (h₁.holds.sync hsync))
      fun _ _ _ h' hstarted => h'.started hreq (hout.2.1 req hreq) hstarted
  · have hreq : req ∈ out.cachedReqs := by
      rw [hsplit]
      exact List.mem_append_right _ List.mem_cons_self
    refine hpost.elim h₁.sound (fun _ _ hsync => hboth (h₁.holds.sync hsync)) (fun _ _ h' _ => h')
      (fun c' _ _ _ h' hdue hgraduate => hboth (h'.graduate (report_of_cached hreq) ?_ hgraduate))
      (fun _ _ _ _ _ h' htrigger => hboth (h'.trigger htrigger)) fun _ _ _ h' hcounted =>
        h'.counted (List.mem_map_of_mem hreq) hcounted
    -- The recorded length is positive, so it is on record, and it is the request's.
    cases hget : c'.promptLens.get? req.requestId with
    | none =>
        rw [Completes, hget] at hdue
        exact absurd hdue.1 (lt_irrefl 0)
    | some len =>
        rw [Completes, hget] at hdue
        rw [← h'.recorded _ len hget]
        exact hdue.2.1
  · refine hpost.elim h₁.sound h₁.holds (fun _ _ hdue hgraduate => ?_) fun _ _ _ _ _ h' htrigger =>
      hboth (h'.trigger htrigger)
    rw [hout.2.1 req hreq] at hdue
    exact hboth (h₁.holds.graduate (report_of_new hreq) hdue hgraduate)

theorem mem_reportedCounts_of_report {trace : List (TraceEvent μ σ)} {r : RequestId} {n : Nat}
    (h : .reported r n ∈ trace) : n ∈ reportedCounts trace r :=
  List.mem_filterMap.mpr ⟨_, h, if_pos rfl⟩

theorem Decoding.phaseKnown (h : Decoding promptLen out c c₁) (hknown : PhaseKnown promptLen c) :
    PhaseKnown promptLen c₁ := by
  obtain ⟨ext, htrace, -⟩ := h.trace
  refine ⟨h.recorded, fun r hr => ?_⟩
  rcases h.reached r hr with hold | ⟨n, hreport, hn⟩
  · obtain ⟨n, hmem, hn⟩ := hknown.reached r hold
    refine ⟨n, ?_, hn⟩
    rw [htrace, reportedCounts_append]
    exact List.mem_append_left _ hmem
  · refine ⟨n, mem_reportedCounts_of_report ?_, hn⟩
    rw [htrace]
    exact List.mem_append_right _ (List.mem_append_left _ (List.mem_map.mpr ⟨(r, n), hreport, rfl⟩))

theorem PhaseKnown.step {op : ConnectorOp μ} (hsound : Sound cfg dev c.toConnectorState) (h : PhaseKnown promptLen c)
    (hop : op.KeepsPrompt promptLen c) :
    Sound cfg dev (connectorStep cfg dev scorer c op).toConnectorState ∧
      PhaseKnown promptLen (connectorStep cfg dev scorer c op) := by
  have hquiet : ∀ {c'}, QuietStep cfg dev c c' → Sound cfg dev c'.toConnectorState ∧ PhaseKnown promptLen c' := by
    intro c' hstep
    refine ⟨hstep.sound hsound, ?_⟩
    rw [hstep.state]
    exact ⟨h.recorded, h.reached⟩
  cases op with
  | build out =>
      obtain ⟨hsound', hdecoding⟩ := build_step scorer hsound (carried_decoding h hop)
      exact ⟨hsound', hdecoding.elim (fun hd => hd.phaseKnown h) fun hd => hd.phaseKnown h⟩
  | update completed => exact hquiet (quietStep_update hsound completed)
  | finished r =>
      have hfinish : FinishStep cfg dev r c (connectorStep cfg dev scorer c (.finished r)) := finishStep hsound r
      refine ⟨hfinish.sound hsound, ?_⟩
      rw [hfinish.state]
      refine ⟨fun r' len hget => ?_, fun r' hr' => ?_⟩
      · rw [OrderedDict.get?_erase] at hget
        split_ifs at hget
        exact h.recorded r' len hget
      · obtain ⟨n, hmem, hn⟩ := h.reached r' (Finset.mem_of_mem_erase hr')
        exact ⟨n, by rw [reportedCounts_append]; exact List.mem_append_left _ hmem, hn⟩
  | vllm pool tables => exact hquiet (quietStep_vllm hsound pool tables)
  | worker op => exact hquiet (quietStep_worker hsound op)

/-- A request that is reported with part of its prompt still to compute is in prefill after the step. -/
theorem Decoding.not_completed (h : Decoding promptLen out c c₁) (hknown : PhaseKnown promptLen c)
    (hout : PromptKept promptLen out c) {req : CachedRequestData} (hreq : req ∈ out.cachedReqs)
    (hn : req.numComputedTokens < promptLen req.requestId) : req.requestId ∉ c₁.prefillCompleted := by
  intro hmem
  rcases h.reached _ hmem with hold | ⟨n, hreport, hle⟩
  · obtain ⟨n, hcount, hle⟩ := hknown.reached _ hold
    exact absurd (hout.2.2 req hreq n hcount hle) (Nat.not_le.mpr hn)
  · -- No id occurs twice, so the report is that of `req`.
    have hnodup : (out.reports.map Prod.fst).Nodup := by
      have hfst : out.reports.map Prod.fst = out.ids := by
        simp [SchedulerOutput.reports, SchedulerOutput.ids, Function.comp_def]
      rw [hfst]
      exact hout.1
    have heq := List.inj_on_of_nodup_map hnodup hreport (report_of_cached hreq) rfl
    rw [(Prod.mk.inj heq).2] at hle
    omega

end Decoding

/-- What a step does to a request that still has prompt tokens to compute: `on_decode` is not called for
it, its count stands still unless the request is new, and the metadata does not list it. -/
structure LeavesPrefill (cfg : ConnectorConfig) (dev : Device μ φ ν S) (scorer : BlockScorer σ ν S) (c : Connector μ σ)
    (out : SchedulerOutput) (r : RequestId) : Prop where
  notDecoded : ∀ k, .decoded r k ∉ (connectorStep cfg dev scorer c (.build out)).trace.drop c.trace.length
  count : r ∉ out.newReqs.map (·.requestId) →
    (connectorStep cfg dev scorer c (.build out)).controller.decodeTokens.get? r = c.controller.decodeTokens.get? r
  notActive : ∀ metadata ∈ (connectorMeta cfg dev scorer out c).1.toOption, r ∉ metadata.requestIds

theorem Decoding.not_decoded {promptLen : RequestId → Nat} {out : SchedulerOutput} {c c' : Connector μ σ}
    (h : Decoding promptLen out c c') {r : RequestId}
    (hr : ¬(r ∈ c'.prefillCompleted ∧ r ∈ out.cachedReqs.map (·.requestId))) (k : Nat) :
    .decoded r k ∉ c'.trace.drop c.trace.length := by
  obtain ⟨ext, htrace, hdecoded⟩ := h.trace
  rw [htrace, List.drop_left]
  intro hmem
  rcases List.mem_append.mp hmem with hreport | hext
  · obtain ⟨report, -, heq⟩ := List.mem_map.mp hreport
    cases heq
  · exact hr (hdecoded r k hext)

/-- As long as no request whose prompt was computed is sent back into its prompt, requests are treated as
decoding only when they are. -/
theorem prefill_not_decoded (promptLen : RequestId → Nat) (cfg : ConnectorConfig) (dev : Device μ φ ν S)
    (scorer : BlockScorer σ ν S) (x : σ) (mem : μ) (pool : BlockPool) {ops : List (ConnectorOp μ)}
    {out : SchedulerOutput}
    (hops : Along (connectorStep cfg dev scorer) (fun c op => op.KeepsPrompt promptLen c)
      (Connector.init cfg x mem pool)
      (ops ++ [.build out])) {r : RequestId} {n : Nat} (hreport : (r, n) ∈ out.reports) (hn : n < promptLen r) :
    LeavesPrefill cfg dev scorer (run (connectorStep cfg dev scorer) (Connector.init cfg x mem pool) ops) out r := by
  rw [along_append] at hops
  obtain ⟨hsound, hknown⟩ := run_invariant
    (I := fun c : Connector μ σ => Sound cfg dev c.toConnectorState ∧ PhaseKnown promptLen c)
    (fun c op hc hop => hc.2.step hc.1 hop) ⟨sound_init cfg dev x mem pool, ⟨nofun, nofun⟩⟩ hops.1
  have hout := hops.2.1
  generalize run (connectorStep cfg dev scorer) (Connector.init cfg x mem pool) ops = c at hsound hknown hout ⊢
  have hcarry : Carried cfg dev out c (fun _ c₁ => Decoding promptLen out c c₁) (Decoding promptLen out c)
    (Decoding promptLen out c) := carried_decoding hknown hout
  have hdecoding := (build_step scorer hsound hcarry).2.elim id id
  -- Either the request is not among the cached ones, or it is in prefill when the step ends.
  have hprefill : ∀ {c' : Connector μ σ}, Decoding promptLen out c c' →
      ¬(r ∈ c'.prefillCompleted ∧ r ∈ out.cachedReqs.map (·.requestId)) := by
    intro c' h hmem
    rcases List.mem_append.mp hreport with hnew | hcached
    · obtain ⟨req, hreq, heq⟩ := List.mem_map.mp hnew
      have hid : r ∈ out.newReqs.map (·.requestId) := (Prod.mk.inj heq).1 ▸ List.mem_map_of_mem hreq
      exact (List.nodup_append.mp hout.1).2.2 r hid r hmem.2 rfl
    · obtain ⟨req, hreq, heq⟩ := List.mem_map.mp hcached
      obtain ⟨rfl, rfl⟩ := Prod.mk.inj heq
      exact h.not_completed hknown hout hreq hn hmem.1
  refine ⟨hdecoding.not_decoded (hprefill hdecoding), fun hnew => ?_, ?_⟩
  · rcases List.mem_append.mp hreport with hnew' | hcached
    · obtain ⟨req, hreq, heq⟩ := List.mem_map.mp hnew'
      exact absurd ((Prod.mk.inj heq).1 ▸ List.mem_map_of_mem hreq) hnew
    · obtain ⟨req, hreq, heq⟩ := List.mem_map.mp hcached
      have hid : r ∈ out.cachedReqs.map (·.requestId) := (Prod.mk.inj heq).1 ▸ List.mem_map_of_mem hreq
      exact hdecoding.counts r (fun hmem => hprefill hdecoding ⟨hmem, hid⟩) hnew
  · obtain ⟨metadata, c', hrun, -, hpost⟩ := Eff.exists_of_wp (wp_connectorMeta scorer hsound hcarry)
    intro metadata' hmetadata hmem
    rw [hrun] at hmetadata
    obtain rfl : metadata = metadata' := Option.some.inj hmetadata
    rcases hpost with hbuild | ⟨-, hempty⟩
    · rw [hbuild.active] at hmem
      obtain ⟨hcached, hcompleted⟩ := List.mem_filter.mp hmem
      exact hprefill hbuild.final ⟨of_decide_eq_true hcompleted, hcached⟩
    · rw [hempty] at hmem
      cases hmem

/-- Request `b` computes its prompt of eight tokens in chunks, on pages `1` to `4`; the first of them. -/
def chunkedPrefill : List (ConnectorOp SmallMemory) :=
  [.vllm ((BlockPool.init 12 true).touch [1, 2, 3, 4]) (OrderedDict.empty.set requestB [1, 2, 3, 4]),
    .build ⟨[⟨requestB, [1, 2, 3, 4], 0, 8⟩], [], fun _ => 4⟩]

def secondChunk : SchedulerOutput := ⟨[], [⟨requestB, 4, none, false⟩], fun _ => 4⟩

theorem prefill_not_decoded_chunkedPrefill :
    LeavesPrefill wideConfig (combinedDevice steadyRuntime) lruScorer (run wideStep wideConnector chunkedPrefill)
      secondChunk requestB := by
  have hops : Along wideStep (fun c op => op.KeepsPrompt (fun _ => 8) c) wideConnector
      (chunkedPrefill ++ [.build secondChunk]) := by decide +kernel
  have hreport : (requestB, 4) ∈ secondChunk.reports := by decide
  exact prefill_not_decoded (fun _ => 8) wideConfig (combinedDevice steadyRuntime) lruScorer ⟨.empty, 0⟩ blankMemory
    (BlockPool.init 12 true) hops hreport (by decide)

/-- Request `a` computes its prompt of two tokens and is preempted. -/
def preempted : List (ConnectorOp SmallMemory) :=
  [.vllm ((BlockPool.init 12 true).touch [1]) (OrderedDict.empty.set requestA [1]),
    .build ⟨[⟨requestA, [1], 0, 2⟩], [], fun _ => 2⟩,
    .build ⟨[], [⟨requestA, 2, none, false⟩], fun _ => 1⟩,
    .vllm (BlockPool.init 12 true) .empty]

/-- The step that resumes the request on page `2` with no token computed. -/
def resumption : SchedulerOutput := ⟨[], [⟨requestA, 0, some [2], true⟩], fun _ => 2⟩

/-- The resumed request recomputes its prompt of two tokens. They are counted as decoded, and the
metadata lists the request. -/
theorem resumed_prefill_decoded :
    (requestA, 0) ∈ resumption.reports ∧
      ¬LeavesPrefill wideConfig (combinedDevice steadyRuntime) lruScorer
        (run wideStep wideConnector preempted) resumption
        requestA := by
  refine ⟨by decide, fun h => ?_⟩
  have hactive : (connectorMeta wideConfig (combinedDevice steadyRuntime) lruScorer resumption
      (run wideStep wideConnector preempted)).1.toOption.map (·.requestIds) = some [requestA] := by decide +kernel
  obtain ⟨metadata, hmetadata, hids⟩ := Option.map_eq_some_iff.mp hactive
  apply h.notActive metadata hmetadata
  rw [hids]
  exact List.mem_cons_self

example :
    (run wideStep wideConnector preempted).controller.decodeTokens.get? requestA = some 1 ∧
      (wideStep (run wideStep wideConnector preempted) (.build resumption)).controller.decodeTokens.get? requestA =
        some 3 := by
  decide +kernel

end KVOffload

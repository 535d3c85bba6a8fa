import KVOffload.BaseLists
import KVOffload.ConnectorPhases

/-! Completeness of blocks. The residency table marks a block complete when the tokens reported for its
request fill the page, and clears the mark only when the block moves to another page. So the marks are
right as long as no request falls back below a block it has filled, unless that block gets a new page
before the next pass runs. -/

namespace KVOffload
open Base

variable {μ φ ν σ S : Type} [LinearOrder S]

/-- The number of computed tokens the scheduler last reported for a request. -/
def lastReported (trace : List (TraceEvent μ σ)) (r : RequestId) : Option Nat := (reportedCounts trace r).getLast?

/-- The tokens last reported fill the block. -/
def Fits (cfg : OrchestratorConfig) (trace : List (TraceEvent μ σ)) (ref : BlockRef) : Prop :=
  ∃ n ∈ lastReported trace ref.requestId, Filled cfg n ref

/-- Every block marked complete is filled by what was last reported. -/
def MarksFit (cfg : ConnectorConfig) (trace : List (TraceEvent μ σ)) (c : ConnectorState μ σ) : Prop :=
  ∀ ref ∈ c.orchestrator.store.residency.allGpuBlocks true, Fits cfg.toOrchestratorConfig trace ref

instance (cfg : OrchestratorConfig) (trace : List (TraceEvent μ σ)) (ref : BlockRef) : Decidable (Fits cfg trace ref) :=
  inferInstanceAs (Decidable (∃ n ∈ lastReported trace ref.requestId, Filled cfg n ref))

instance (cfg : ConnectorConfig) (trace : List (TraceEvent μ σ)) (c : ConnectorState μ σ) :
    Decidable (MarksFit cfg trace c) :=
  inferInstanceAs (Decidable (∀ ref ∈ c.orchestrator.store.residency.allGpuBlocks true, _))

/-- The same at the moment of every pass: its candidates were filled by what had been reported then. -/
def PassesFit (cfg : ConnectorConfig) (trace : List (TraceEvent μ σ)) : Prop :=
  ∀ pre before moved post, trace = pre ++ .offloaded before moved :: post → MarksFit cfg pre before

section Condition

variable (cfg : ConnectorConfig) (out : SchedulerOutput) (c : ConnectorState μ σ)

/-- The list gives the block another page. -/
def Repaged (ids : List Nat) (ref : BlockRef) : Prop :=
  0 ≤ ref.blockIdx ∧ ∃ page ∈ ids[ref.blockIdx.toNat]?, gpuPage c.orchestrator.store.residency ref ≠ some page

instance (ids : List Nat) (ref : BlockRef) : Decidable (Repaged c ids ref) :=
  inferInstanceAs (Decidable (_ ∧ ∃ page ∈ ids[ref.blockIdx.toNat]?, _))

/-- The marked blocks of a request. -/
def markedBlocks (r : RequestId) : List BlockRef :=
  (c.orchestrator.store.residency.allGpuBlocks true).filter fun ref => ref.requestId = r

/-- What a step may report: the tokens of every marked block, or a new page for it. For a cached request
the new page comes in time only if no earlier request of the step runs a pass. -/
structure MarksKept : Prop where
  nodup : out.ids.Nodup
  new : ∀ req ∈ out.newReqs, ∀ ref ∈ markedBlocks c req.requestId,
    Filled cfg.toOrchestratorConfig req.numComputedTokens ref ∨ Repaged c req.blockIds ref
  cached : ∀ k < out.cachedReqs.length, ∀ req ∈ out.cachedReqs[k]?, ∀ ref ∈ markedBlocks c req.requestId,
    Filled cfg.toOrchestratorConfig req.numComputedTokens ref ∨
      Repaged c (fullBlockIds c req) ref ∧ ∀ earlier ∈ out.cachedReqs.take k, ¬Fires cfg out c earlier

instance : Decidable (MarksKept cfg out c) :=
  decidable_of_iff (_ ∧ _ ∧ _) ⟨fun h => ⟨h.1, h.2.1, h.2.2⟩, fun h => ⟨h.nodup, h.new, h.cached⟩⟩

end Condition

section Traces

theorem reportedCounts_of_not_reported {ext : List (TraceEvent μ σ)} (h : ∀ r n, .reported r n ∉ ext) (r : RequestId) :
    reportedCounts ext r = [] := by
  refine List.filterMap_eq_nil_iff.mpr fun e he => ?_
  cases e with
  | reported r' n => exact absurd he (h r' n)
  | _ => rfl

theorem lastReported_append {trace ext : List (TraceEvent μ σ)} (h : ∀ r n, .reported r n ∉ ext) :
    lastReported (trace ++ ext) = lastReported trace := by
  funext r
  rw [lastReported, reportedCounts_append, reportedCounts_of_not_reported h, List.append_nil, lastReported]

theorem Fits.append {cfg : OrchestratorConfig} {trace ext : List (TraceEvent μ σ)} (h : ∀ r n, .reported r n ∉ ext)
    {ref : BlockRef} : Fits cfg (trace ++ ext) ref ↔ Fits cfg trace ref := by
  unfold Fits
  rw [lastReported_append h]

theorem reportedCounts_reports (reports : List (RequestId × Nat)) (r : RequestId) :
    reportedCounts (reports.map fun e => (.reported e.1 e.2 : TraceEvent μ σ)) r =
      (reports.filter fun e => e.1 = r).map Prod.snd := by
  induction reports with
  | nil => rfl
  | cons e rest ih =>
      by_cases he : e.1 = r
      · rw [List.filter_cons_of_pos (by simpa using he), List.map_cons, List.map_cons, ← ih]
        simp [reportedCounts, he]
      · rw [List.filter_cons_of_neg (by simpa using he), List.map_cons, ← ih]
        simp [reportedCounts, he]

/-- In a step that reports a request once, that is what was last reported for it. -/
theorem lastReported_reports {trace : List (TraceEvent μ σ)} {reports : List (RequestId × Nat)}
    (hnodup : (reports.map Prod.fst).Nodup) {r : RequestId} {n : Nat} (hreport : (r, n) ∈ reports) :
    lastReported (trace ++ reports.map fun e => .reported e.1 e.2) r = some n := by
  have hfilter : reports.filter (fun e => e.1 = r) = [(r, n)] := by
    have hsub : (reports.filter fun e => e.1 = r).Nodup :=
      (List.Nodup.of_map _ hnodup).sublist List.filter_sublist
    refine List.perm_singleton.mp ((List.perm_ext_iff_of_nodup hsub (List.nodup_singleton _)).mpr fun e => ?_)
    rw [List.mem_filter, List.mem_singleton]
    constructor
    · intro he
      exact List.inj_on_of_nodup_map hnodup he.1 hreport (of_decide_eq_true he.2)
    · rintro rfl
      exact ⟨hreport, decide_eq_true rfl⟩
  rw [lastReported, reportedCounts_append, reportedCounts_reports, hfilter, List.map_cons, List.map_nil,
    List.getLast?_append_of_ne_nil _ (List.cons_ne_nil _ _)]
  rfl

theorem lastReported_of_not_mem {trace : List (TraceEvent μ σ)} {reports : List (RequestId × Nat)} {r : RequestId}
    (h : r ∉ reports.map Prod.fst) :
    lastReported (trace ++ reports.map fun e => .reported e.1 e.2) r = lastReported trace r := by
  have hfilter : reports.filter (fun e => e.1 = r) = [] := by
    refine List.filter_eq_nil_iff.mpr fun e he heq => h ?_
    rw [← of_decide_eq_true heq]
    exact List.mem_map_of_mem he
  rw [lastReported, reportedCounts_append, reportedCounts_reports, hfilter, List.map_nil, List.append_nil, lastReported]

theorem PassesFit.append {cfg : ConnectorConfig} {trace ext : List (TraceEvent μ σ)} (h : PassesFit cfg trace)
    (hext : passes ext = []) : PassesFit cfg (trace ++ ext) := by
  intro pre before moved post hsplit
  rcases split_of_append hsplit with ⟨post', htrace⟩ | ⟨pre', -, hpost⟩
  · exact h pre before moved post' htrace
  · have hmem : (before, moved) ∈ passes ext := by
      rw [hpost, passes_append]
      exact List.mem_append_right _ List.mem_cons_self
    rw [hext] at hmem
    cases hmem

theorem PassesFit.snoc {cfg : ConnectorConfig} {trace : List (TraceEvent μ σ)} {before : ConnectorState μ σ}
    {moved : List BlockRef} (h : PassesFit cfg trace) (hfit : MarksFit cfg trace before) :
    PassesFit cfg (trace ++ [.offloaded before moved]) := by
  intro pre before' moved' post hsplit
  rcases split_of_append hsplit with ⟨post', htrace⟩ | ⟨pre', hpre, hpost⟩
  · exact h pre before' moved' post' htrace
  · cases pre' with
    | nil =>
        obtain ⟨rfl, -⟩ := TraceEvent.offloaded.inj (List.cons.inj hpost).1
        rw [hpre, List.append_nil]
        exact hfit
    | cons e rest => cases rest <;> cases (List.cons.inj hpost).2

end Traces

/-- What a step that started in `c` keeps, when the requests `read` have been read: their marks fit its
reports, and so did those of the candidates of every pass. -/
structure Fitted (cfg : ConnectorConfig) (out : SchedulerOutput) (c : Connector μ σ) (read : List RequestId)
    (c' : Connector μ σ) : Prop where
  trace : ∃ ext, c'.trace = (opened cfg out c).trace ++ ext ∧ ∀ r n, .reported r n ∉ ext
  fits : ∀ ref page, ref.requestId ∈ read → c'.place ref = .gpu page true →
    Fits cfg.toOrchestratorConfig (opened cfg out c).trace ref
  passes : PassesFit cfg c'.trace

section FittedSteps

variable {cfg : ConnectorConfig} {dev : Device μ φ ν S} {out : SchedulerOutput} {c c₁ c₂ : Connector μ σ}
  {failed : Prop} {read : List RequestId}

theorem mem_markedBlocks {c : ConnectorState μ σ} {r : RequestId} {ref : BlockRef} :
    ref ∈ markedBlocks c r ↔ (∃ page, c.place ref = .gpu page true) ∧ ref.requestId = r := by
  rw [markedBlocks, List.mem_filter, mem_allGpuBlocks_iff_place, decide_eq_true_iff]

theorem map_fst_reports (out : SchedulerOutput) : out.reports.map Prod.fst = out.ids := by
  simp [SchedulerOutput.reports, SchedulerOutput.ids, Function.comp_def]

/-- A report of the step is what was last reported once the step is open. -/
theorem fits_of_report {r : RequestId} {n : Nat} (hnodup : out.ids.Nodup) (hreport : (r, n) ∈ out.reports)
    {ref : BlockRef} (hr : ref.requestId = r) (hfilled : Filled cfg.toOrchestratorConfig n ref) :
    Fits cfg.toOrchestratorConfig (opened cfg out c).trace ref := by
  refine ⟨n, ?_, hfilled⟩
  rw [hr]
  exact lastReported_reports ((map_fst_reports out).symm ▸ hnodup) hreport

theorem fits_of_not_reported (hmarks : MarksFit cfg c.trace c.toConnectorState) {ref : BlockRef} {page : Nat}
    (hplace : c.place ref = .gpu page true) (hr : ref.requestId ∉ out.ids) :
    Fits cfg.toOrchestratorConfig (opened cfg out c).trace ref := by
  obtain ⟨n, hn, hfilled⟩ := hmarks ref (mem_allGpuBlocks_iff_place.mpr ⟨page, hplace⟩)
  refine ⟨n, ?_, hfilled⟩
  rw [opened, lastReported_of_not_mem ((map_fst_reports out).symm ▸ hr)]
  exact hn

theorem Fitted.of_frame (h : Fitted cfg out c read c₁)
    (hplace : ∀ ref page, c₂.place ref = .gpu page true → c₁.place ref = .gpu page true)
    (htrace : ∃ ext, c₂.trace = c₁.trace ++ ext ∧ (∀ r n, .reported r n ∉ ext) ∧ KVOffload.passes ext = []) :
    Fitted cfg out c read c₂ := by
  obtain ⟨ext₁, htrace₁, hext₁⟩ := h.trace
  obtain ⟨ext, htrace, hext, hpasses⟩ := htrace
  refine ⟨⟨ext₁ ++ ext, ?_, fun r n hmem => ?_⟩,
    fun ref page href hc₂ => h.fits ref page href (hplace ref page hc₂), ?_⟩
  · rw [htrace, htrace₁, List.append_assoc]
  · exact (List.mem_append.mp hmem).elim (hext₁ r n) (hext r n)
  · rw [htrace]
    exact h.passes.append hpasses

/-- Reading a request: its listed blocks take their marks from the report, unless the page is the one
they were marked on. -/
theorem Reading.syncFits {r : RequestId} {ids : List Nat} {n : Nat}
    (h : Reading cfg dev c (Fitted cfg out c) read c₁) (hr : r ∉ read) (hnodup : out.ids.Nodup)
    (hreport : (r, n) ∈ out.reports)
    (hmarked : ∀ ref ∈ markedBlocks c.toConnectorState r, Filled cfg.toOrchestratorConfig n ref ∨
      Repaged c.toConnectorState ids ref)
    (hstep : SyncStep cfg dev r ids n c₁ failed c₂) : Reading cfg dev c (Fitted cfg out c) (read ++ [r]) c₂ := by
  refine h.next (hstep.keeps h.sound) ?_
  have hframe : Fitted cfg out c [] c₂ := by
    obtain ⟨ext, htrace, hext⟩ := h.holds.trace
    have hsame : c₂.trace = c₁.trace := by rw [hstep.state]
    exact ⟨⟨ext, hsame.trans htrace, hext⟩, nofun, hsame ▸ h.holds.passes⟩
  refine ⟨hframe.trace, fun ref page href hplace => ?_, hframe.passes⟩
  have hfilled : Filled cfg.toOrchestratorConfig n ref → ref.requestId = r →
      Fits cfg.toOrchestratorConfig (opened cfg out c).trace ref := fun hf heq => fits_of_report hnodup hreport heq hf
  -- A mark that `c₁` had on the page, on a block of `r`, goes back to the start of the step.
  have hold : c₁.place ref = .gpu page true → ref.requestId = r → ¬Repaged c.toConnectorState ids ref →
      Fits cfg.toOrchestratorConfig (opened cfg out c).trace ref := by
    intro hc₁ heq hpage
    have hc := (h.unread r hr).placed ref page true heq hc₁
    have hmem : ref ∈ markedBlocks c.toConnectorState r := mem_markedBlocks.mpr ⟨⟨page, hc⟩, heq⟩
    exact hfilled ((hmarked ref hmem).resolve_right hpage) heq
  rcases hstep.place_cases ref with ⟨hsame, hkept⟩ | ⟨i, page', rfl, -, hi, hbound⟩
  · rw [hsame] at hplace
    rcases List.mem_append.mp href with hread | hlast
    · exact h.holds.fits ref page hread hplace
    · have heq : ref.requestId = r := List.mem_singleton.mp hlast
      refine hold hplace heq fun hrepaged => ?_
      obtain ⟨hidx, page', hpage', -⟩ := hrepaged
      rcases hkept with hwarm | hbeyond
      · have hordinary := h.sound.ordinary ref (by rw [hplace]; simp)
        rw [heq, hwarm] at hordinary
        cases hordinary
      · apply hbeyond
        obtain ⟨hlt, -⟩ := List.getElem?_eq_some_iff.mp hpage'
        refine mem_blockRefs.mpr ⟨ref.blockIdx.toNat, hlt, ?_⟩
        rw [Int.toNat_of_nonneg hidx, ← heq]
  · rw [hbound] at hplace
    obtain ⟨rfl, hmark⟩ := Placement.bound_eq_gpu hplace
    rcases hmark rfl with hfull | hc₁
    · refine hfilled ?_ rfl
      have hle : (i + 1) * cfg.pageSize ≤ n := of_decide_eq_true hfull
      show ((i : Int) + 1) * cfg.pageSize ≤ n
      exact_mod_cast hle
    · refine hold hc₁ rfl fun hrepaged => ?_
      obtain ⟨-, page', hpage', hne⟩ := hrepaged
      have hc := (h.unread r hr).placed _ page true rfl hc₁
      apply hne
      rw [Int.toNat_natCast, hi] at hpage'
      rw [← Option.some.inj hpage']
      exact gpuPage_eq_some_iff.mpr ⟨true, hc⟩

/-- All marks fit when those of the requests still to be read do. -/
theorem Reading.marksFit (h : Reading cfg dev c (Fitted cfg out c) read c₁)
    (hlater : ∀ ref page, ref.requestId ∉ read → c.place ref = .gpu page true →
      Fits cfg.toOrchestratorConfig (opened cfg out c).trace ref) :
    MarksFit cfg c₁.trace c₁.toConnectorState := by
  intro ref href
  obtain ⟨page, hplace⟩ := mem_allGpuBlocks_iff_place.mp href
  obtain ⟨ext, htrace, hext⟩ := h.holds.trace
  rw [htrace, Fits.append hext]
  by_cases hread : ref.requestId ∈ read
  · exact h.holds.fits ref page hread hplace
  · exact hlater ref page hread ((h.unread _ hread).placed ref page true rfl hplace)

theorem MarksFit.of_frame (h : MarksFit cfg c₁.trace c₁.toConnectorState)
    (hplace : ∀ ref page, c₂.place ref = .gpu page true → c₁.place ref = .gpu page true)
    (htrace : ∃ ext, c₂.trace = c₁.trace ++ ext ∧ ∀ r n, .reported r n ∉ ext) :
    MarksFit cfg c₂.trace c₂.toConnectorState := by
  obtain ⟨ext, htrace, hext⟩ := htrace
  intro ref href
  obtain ⟨page, hc₂⟩ := mem_allGpuBlocks_iff_place.mp href
  rw [htrace, Fits.append hext]
  exact h ref (mem_allGpuBlocks_iff_place.mpr ⟨page, hplace ref page hc₂⟩)

/-- A pass run while all marks fit. -/
theorem Reading.triggerFits {r : RequestId} {moved : List BlockRef} (h : Reading cfg dev c (Fitted cfg out c) read c₁)
    (hr : r ∈ read) (hmarks : MarksFit cfg c₁.trace c₁.toConnectorState)
    (hstep : TriggerStep cfg dev c₁ moved failed c₂) :
    Reading cfg dev c (Fitted cfg out c) read c₂ ∧ MarksFit cfg c₂.trace c₂.toConnectorState := by
  have hplace : ∀ ref page, c₂.place ref = .gpu page true → c₁.place ref = .gpu page true :=
    fun ref page hc₂ => (hstep.place_eq_gpu hc₂).2
  rcases hstep.trace with ⟨-, htrace⟩ | ⟨before, hbefore, htrace⟩
  · have hsame : c₂.trace = c₁.trace ++ [] := by rw [htrace, List.append_nil]
    exact ⟨h.again hr (hstep.keeps h.sound r) (h.holds.of_frame hplace ⟨[], hsame, nofun, rfl⟩),
      hmarks.of_frame hplace ⟨[], hsame, nofun⟩⟩
  · have hnew : ∀ r n, TraceEvent.reported r n ∉ [TraceEvent.offloaded before moved] :=
      fun r n hmem => by cases List.mem_singleton.mp hmem
    have hbefore' : MarksFit cfg c₁.trace before := by
      rw [hbefore]
      exact hmarks
    obtain ⟨ext, htrace₁, hext⟩ := h.holds.trace
    refine ⟨h.again hr (hstep.keeps h.sound r) ⟨⟨ext ++ [.offloaded before moved], ?_, fun r n hmem => ?_⟩,
      fun ref page href hc₂ => h.holds.fits ref page href (hplace ref page hc₂), ?_⟩,
      hmarks.of_frame hplace ⟨_, htrace, hnew⟩⟩
    · rw [htrace, htrace₁, List.append_assoc]
    · exact (List.mem_append.mp hmem).elim (hext r n) (hnew r n)
    · rw [htrace]
      exact h.holds.passes.snoc hbefore'

/-- Graduation marks blocks that the report fills. -/
theorem Reading.graduateFits {r : RequestId} {n : Nat} (h : Reading cfg dev c (Fitted cfg out c) read c₁)
    (hr : r ∈ read)
    (hnodup : out.ids.Nodup) (hreport : (r, n) ∈ out.reports) (hstep : GraduateStep cfg dev r n c₁ failed c₂) :
    Reading cfg dev c (Fitted cfg out c) read c₂ := by
  have hsame : c₂.trace = c₁.trace := by rw [hstep.state]
  have hkeeps : Keeps cfg dev r c₁.toConnectorState c₂.toConnectorState :=
    ⟨hstep.sound h.sound, fun _ hne => hstep.untouched h.sound hne⟩
  refine h.again hr hkeeps ⟨hsame ▸ h.holds.trace, fun ref page href hplace => ?_, hsame ▸ h.holds.passes⟩
  by_cases hplaced : c₂.place ref = c₁.place ref
  · exact h.holds.fits ref page href (hplaced ▸ hplace)
  · obtain ⟨hlisted, hfilled⟩ := hstep.listed_of_graduated hplaced
    exact fits_of_report hnodup hreport (h.sound.requestId_of_listed hlisted) hfilled

theorem Reading.countedFits {r : RequestId} (h : Reading cfg dev c (Fitted cfg out c) read c₁) (hr : r ∈ read)
    (hstep : Counted r c₁ c₂) : Reading cfg dev c (Fitted cfg out c) read c₂ := by
  have hkeeps : Keeps cfg dev r c₁.toConnectorState c₂.toConnectorState :=
    ⟨hstep.sound h.sound, fun _ hne => hstep.untouched hne⟩
  refine h.again hr hkeeps (h.holds.of_frame (fun ref page hc₂ => by rwa [hstep.place] at hc₂) ?_)
  rcases hstep.trace with rfl | ⟨-, numTokens, htrace⟩
  · exact ⟨[], (List.append_nil _).symm, nofun, rfl⟩
  · exact ⟨_, htrace, (fun r n hmem => by cases List.mem_singleton.mp hmem), rfl⟩

end FittedSteps

section FittedBuild

variable {cfg : ConnectorConfig} {dev : Device μ φ ν S} {scorer : BlockScorer σ ν S} {out : SchedulerOutput}
  {c c₁ c₂ : Connector μ σ} {failed : Prop}

/-- How a step ends, whether or not it finished. -/
def AllFit (cfg : ConnectorConfig) (c : Connector μ σ) : Prop :=
  MarksFit cfg c.trace c.toConnectorState ∧ PassesFit cfg c.trace

theorem MarksKept.cached_at {done rest : List CachedRequestData} {req : CachedRequestData} {c : ConnectorState μ σ}
    (h : MarksKept cfg out c) (hsplit : out.cachedReqs = done ++ req :: rest) :
    ∀ ref ∈ markedBlocks c req.requestId, Filled cfg.toOrchestratorConfig req.numComputedTokens ref ∨
      Repaged c (fullBlockIds c req) ref ∧ ∀ earlier ∈ done, ¬Fires cfg out c earlier := by
  have hk : done.length < out.cachedReqs.length := by
    rw [hsplit, List.length_append, List.length_cons]
    omega
  have hget : out.cachedReqs[done.length]? = some req := by
    rw [hsplit, List.getElem?_append_right (le_refl _), Nat.sub_self]
    rfl
  have htake : out.cachedReqs.take done.length = done := by
    rw [hsplit, List.take_left]
  intro ref href
  have hreq := h.cached done.length hk req hget ref href
  rwa [htake] at hreq

/-- When a cached request fires, the marks of everything read after it fit already. -/
theorem MarksKept.later {done rest : List CachedRequestData} {req : CachedRequestData}
    (hkept : MarksKept cfg out c.toConnectorState) (hmarks : MarksFit cfg c.trace c.toConnectorState)
    (hsplit : out.cachedReqs = done ++ req :: rest) (hfires : Fires cfg out c.toConnectorState req) (ref : BlockRef)
    (page : Nat) (href : ref.requestId ∉ out.newReqs.map (·.requestId) ++ done.map (·.requestId) ++ [req.requestId])
    (hplace : c.place ref = .gpu page true) : Fits cfg.toOrchestratorConfig (opened cfg out c).trace ref := by
  by_cases hid : ref.requestId ∈ out.ids
  · have hrest : ref.requestId ∈ rest.map (·.requestId) := by
      rw [SchedulerOutput.ids, hsplit] at hid
      simp only [List.map_append, List.map_cons, List.mem_append, List.mem_cons, not_or] at hid href
      tauto
    obtain ⟨later, hlater, heq⟩ := List.mem_map.mp hrest
    obtain ⟨between, after, rfl⟩ := List.append_of_mem hlater
    have hsplit' : out.cachedReqs = (done ++ req :: between) ++ later :: after := by
      rw [hsplit, List.append_assoc]
      rfl
    have hmarked : ref ∈ markedBlocks c.toConnectorState later.requestId :=
      mem_markedBlocks.mpr ⟨⟨page, hplace⟩, heq.symm⟩
    have hreport : (later.requestId, later.numComputedTokens) ∈ out.reports :=
      report_of_cached (by rw [hsplit']; exact List.mem_append_right _ List.mem_cons_self)
    rcases hkept.cached_at hsplit' ref hmarked with hfilled | ⟨-, hquiet⟩
    · exact fits_of_report hkept.nodup hreport heq.symm hfilled
    · exact absurd hfires (hquiet req (List.mem_append_right _ List.mem_cons_self))
  · exact fits_of_not_reported hmarks hplace hid

/-- The completion of a prefill: its pass comes when everything still to be read fits. -/
theorem Reading.completeFits {read : List RequestId} {r : RequestId} {n : Nat}
    (h : Reading cfg dev c (Fitted cfg out c) read c₁) (hread : r ∈ read) (hnodup : out.ids.Nodup)
    (hreport : (r, n) ∈ out.reports) (hnofault : ¬∃ tick, dev.scoreFault tick = true)
    (hlater : ∀ ref page, ref.requestId ∉ read → c.place ref = .gpu page true →
      Fits cfg.toOrchestratorConfig (opened cfg out c).trace ref)
    (hpost : CompletePost cfg dev r n c₁ failed c₂) :
    Reading cfg dev c (Fitted cfg out c) read c₂ ∧ MarksFit cfg c₂.trace c₂.toConnectorState := by
  cases hpost with
  | failed hgraduate => exact absurd (hgraduate.fault True.intro).strikes hnofault
  | pass hgraduate hstep =>
      have hgraduated := h.graduateFits hread hnodup hreport hgraduate
      exact hgraduated.triggerFits hread (hgraduated.marksFit hlater) hstep

/-- The prefill check of a request that was just read. It runs a pass only if the prompt is complete, and then
everything still to be read has to fit. -/
theorem Reading.checkFits {read : List RequestId} {req : CachedRequestData}
    (h : Reading cfg dev c (Fitted cfg out c) read c₁) (hread : req.requestId ∈ read) (hnodup : out.ids.Nodup)
    (hreport : (req.requestId, req.numComputedTokens) ∈ out.reports) (hnofault : ¬∃ tick, dev.scoreFault tick = true)
    (hlater : Completes c₁.toConnectorState req → ∀ ref page, ref.requestId ∉ read → c.place ref = .gpu page true →
      Fits cfg.toOrchestratorConfig (opened cfg out c).trace ref)
    (hpost : CheckPost cfg dev req c₁ failed c₂) :
    Reading cfg dev c (Fitted cfg out c) read c₂ ∧ (failed → MarksFit cfg c₂.trace c₂.toConnectorState) := by
  cases hpost with
  | idle _ => exact ⟨h, False.elim⟩
  | complete hdue hpost =>
      have hpassed := h.completeFits hread hnodup hreport hnofault (hlater hdue) hpost
      exact ⟨hpassed.1, fun _ => hpassed.2⟩

variable (hsteady : ∀ tick, dev.scoreFault tick = false) (hmarks : MarksFit cfg c.trace c.toConnectorState)
  (hkept : MarksKept cfg out c.toConnectorState)

include hsteady hmarks hkept

theorem Reading.cachedFits {done rest : List CachedRequestData} {req : CachedRequestData}
    (hsplit : out.cachedReqs = done ++ req :: rest)
    (h : Reading cfg dev c (Fitted cfg out c) (out.newReqs.map (·.requestId) ++ done.map (·.requestId)) c₁)
    (hpost : CachedPost cfg dev out req c₁ failed c₂) :
    Ends failed (AllFit cfg)
      (Fitted cfg out c (out.newReqs.map (·.requestId) ++ done.map (·.requestId) ++ [req.requestId])) c₂ := by
  have hr := not_read_of_nodup hkept.nodup hsplit
  have huntouched := h.unread _ hr
  have hlast : req.requestId ∈ out.newReqs.map (·.requestId) ++ done.map (·.requestId) ++ [req.requestId] :=
    List.mem_append_right _ List.mem_cons_self
  have hreport : (req.requestId, req.numComputedTokens) ∈ out.reports :=
    report_of_cached (by rw [hsplit]; exact List.mem_append_right _ List.mem_cons_self)
  have hmarked : ∀ ref ∈ markedBlocks c.toConnectorState req.requestId,
      Filled cfg.toOrchestratorConfig req.numComputedTokens ref ∨
        Repaged c.toConnectorState (fullBlockIds c₁.toConnectorState req) ref := by
    rw [huntouched.fullBlockIds]
    exact fun ref href => (hkept.cached_at hsplit ref href).imp_right And.left
  have hnofault := not_scoreFault_of_steady hsteady
  -- A pass is run only if the request fires; then everything still to be read fits.
  have hlater := fun hfires : Fires cfg out c.toConnectorState req => hkept.later hmarks hsplit hfires
  cases hpost with
  | syncFailed hsync => exact absurd (hsync.fault True.intro).strikes hnofault
  | checkFailed hsync hpost =>
      have hsynced := h.syncFits hr hkept.nodup hreport hmarked hsync
      have hchecked := hsynced.checkFits hlast hkept.nodup hreport hnofault
        (fun hdue => hlater (hsync.fires huntouched (Or.inl hdue))) hpost
      exact ⟨fun _ => ⟨hchecked.2 True.intro, hchecked.1.holds.passes⟩, fun hok => absurd True.intro hok⟩
  | counted hsync hpost hcount =>
      have hsynced := h.syncFits hr hkept.nodup hreport hmarked hsync
      have hchecked := hsynced.checkFits hlast hkept.nodup hreport hnofault
        (fun hdue => hlater (hsync.fires huntouched (Or.inl hdue))) hpost
      cases hcount with
      | idle hcounted => exact ⟨False.elim, fun _ => (hchecked.1.countedFits hlast hcounted).holds⟩
      | pass hdue hcounted hstep =>
          have hfires : Fires cfg out c.toConnectorState req := by
            cases hpost with
            | idle _ => exact hsync.fires huntouched (Or.inr hdue)
            | complete hcompletes _ => exact hsync.fires huntouched (Or.inl hcompletes)
          have hcounts := hchecked.1.countedFits hlast hcounted
          have hpassed := hcounts.triggerFits hlast (hcounts.marksFit (hlater hfires)) hstep
          exact ⟨fun _ => ⟨hpassed.2, hpassed.1.holds.passes⟩, fun _ => hpassed.1.holds⟩

theorem carried_fitted (hpasses : PassesFit cfg c.trace) :
    Carried cfg dev out c (Fitted cfg out c) (AllFit cfg) (AllFit cfg) := by
  have hnofault := not_scoreFault_of_steady hsteady
  have hlater : ∀ ref page, ref.requestId ∉ out.ids → c.place ref = .gpu page true →
      Fits cfg.toOrchestratorConfig (opened cfg out c).trace ref :=
    fun ref page hid hplace => fits_of_not_reported hmarks hplace hid
  have hall : ∀ {c' : Connector μ σ}, Reading cfg dev c (Fitted cfg out c) out.ids c' → AllFit cfg c' :=
    fun h => ⟨h.marksFit hlater, h.holds.passes⟩
  refine ⟨⟨⟨[], (List.append_nil _).symm, nofun⟩, nofun, hpasses.append ?_⟩,
    fun done req rest hsplit c₁ failed c₂ h₁ hpost => ?_,
    fun done req rest hsplit c₁ failed c₂ h₁ hpost => h₁.cachedFits hsteady hmarks hkept hsplit hpost,
    fun req hreq c₁ failed c₂ h₁ hpost => ?_, fun c₁ failed c₂ h₁ hstage => ?_, fun c₁ c₂ h₁ hflush => ?_⟩
  · refine List.filterMap_eq_nil_iff.mpr fun e he => ?_
    obtain ⟨report, -, rfl⟩ := List.mem_map.mp he
    rfl
  · have hreq : req ∈ out.newReqs := by
      rw [hsplit]
      exact List.mem_append_right _ List.mem_cons_self
    have hr : req.requestId ∉ done.map (·.requestId) := by
      have hnodup := (List.nodup_append.mp hkept.nodup).1
      rw [hsplit, List.map_append, List.map_cons] at hnodup
      exact fun hmem => (List.nodup_append.mp hnodup).2.2 _ hmem _ List.mem_cons_self rfl
    cases hpost with
    | syncFailed hsync => exact absurd (hsync.fault True.intro).strikes hnofault
    | tracked hsync hstarted =>
        have hread := h₁.syncFits hr hkept.nodup (report_of_new hreq) (hkept.new req hreq) hsync
        refine ⟨False.elim, fun _ => hread.holds.of_frame (fun ref page hc₂ => ?_) ⟨[], ?_, nofun, rfl⟩⟩
        · rwa [hstarted.place] at hc₂
        · rw [hstarted.state, List.append_nil]
  · have hr : req.requestId ∈ out.ids := List.mem_append_left _ (List.mem_map_of_mem hreq)
    cases hpost with
    | idle => exact ⟨False.elim, fun _ => h₁.holds⟩
    | complete hdue hpost =>
        have hpassed := h₁.completeFits hr hkept.nodup (report_of_new hreq) hnofault hlater hpost
        exact ⟨fun _ => ⟨hpassed.2, hpassed.1.holds.passes⟩, fun _ => hpassed.1.holds⟩
  · have hstaged : Fitted cfg out c out.ids c₂ := by
      refine h₁.holds.of_frame (fun ref page hc₂ => ?_) ⟨[], ?_, nofun, rfl⟩
      · rwa [hstage.place] at hc₂
      · rw [hstage.state, List.append_nil]
    exact ⟨fun _ => hall (h₁.stage hstage hstaged), fun _ => hstaged⟩
  · have hfit := hall h₁
    cases hflush with
    | idle _ => exact hfit
    | flush _ =>
        refine ⟨MarksFit.of_frame hfit.1 (fun _ _ hc₂ => hc₂) ⟨_, rfl, fun r n hmem => ?_⟩, hfit.2.append rfl⟩
        cases List.mem_singleton.mp hmem

end FittedBuild

/-- The condition on one operation. -/
def ConnectorOp.KeepsMarks (cfg : ConnectorConfig) (c : Connector μ σ) : ConnectorOp μ → Prop
  | .build out => MarksKept cfg out c.toConnectorState
  | _ => True

instance (cfg : ConnectorConfig) (c : Connector μ σ) : (op : ConnectorOp μ) → Decidable (op.KeepsMarks cfg c)
  | .build out => inferInstanceAs (Decidable (MarksKept cfg out c.toConnectorState))
  | .update _ => inferInstanceAs (Decidable True)
  | .finished _ => inferInstanceAs (Decidable True)
  | .vllm _ _ => inferInstanceAs (Decidable True)
  | .worker _ => inferInstanceAs (Decidable True)

section FittedRuns

variable {cfg : ConnectorConfig} {dev : Device μ φ ν S} {scorer : BlockScorer σ ν S} {c : Connector μ σ}

theorem AllFit.step (hsteady : ∀ tick, dev.scoreFault tick = false) (hsound : Sound cfg dev c.toConnectorState)
    (h : AllFit cfg c) {op : ConnectorOp μ} (hop : op.KeepsMarks cfg c) :
    Sound cfg dev (connectorStep cfg dev scorer c op).toConnectorState ∧
      AllFit cfg (connectorStep cfg dev scorer c op) := by
  have hquiet : ∀ {c'}, QuietStep cfg dev c c' → Sound cfg dev c'.toConnectorState ∧ AllFit cfg c' := by
    intro c' hstep
    refine ⟨hstep.sound hsound, MarksFit.of_frame h.1 (fun ref page hc' => ?_) ⟨[], ?_, nofun⟩, ?_⟩
    · rwa [hstep.place] at hc'
    · rw [hstep.trace, List.append_nil]
    · rw [hstep.trace]
      exact h.2
  cases op with
  | build out =>
      obtain ⟨hsound', hfit⟩ := build_step scorer hsound (carried_fitted hsteady h.1 hop h.2)
      exact ⟨hsound', hfit.elim id id⟩
  | update completed => exact hquiet (quietStep_update hsound completed)
  | finished r =>
      have hfinish : FinishStep cfg dev r c (connectorStep cfg dev scorer c (.finished r)) := finishStep hsound r
      have htrace : (connectorStep cfg dev scorer c (.finished r)).trace = c.trace ++ [.finished r] := by
        rw [hfinish.state]
      refine ⟨hfinish.sound hsound, MarksFit.of_frame h.1 (fun ref page hc' => ?_) ⟨_, htrace, fun r n hmem => ?_⟩, ?_⟩
      · rw [hfinish.place ref] at hc'
        split_ifs at hc'
        exact hc'
      · cases List.mem_singleton.mp hmem
      · rw [htrace]
        exact h.2.append rfl
  | vllm pool tables => exact hquiet (quietStep_vllm hsound pool tables)
  | worker op => exact hquiet (quietStep_worker hsound op)

/-- In every state of such a run, and in every state in which a pass was called, the blocks marked
complete are filled by what the scheduler last reported. -/
theorem complete_blocks_filled (cfg : ConnectorConfig) {dev : Device μ φ ν S}
    (hsteady : ∀ tick, dev.scoreFault tick = false)
    (scorer : BlockScorer σ ν S) (x : σ) (mem : μ) (pool : BlockPool) {ops : List (ConnectorOp μ)}
    (hops : Along (connectorStep cfg dev scorer) (fun c op => op.KeepsMarks cfg c)
      (Connector.init cfg x mem pool) ops) :
    AllFit cfg (run (connectorStep cfg dev scorer) (Connector.init cfg x mem pool) ops) := by
  have hinit : AllFit cfg (Connector.init cfg x mem pool : Connector μ σ) := by
    refine ⟨nofun, fun pre before moved post hsplit => ?_⟩
    cases pre <;> cases hsplit
  exact (run_invariant (I := fun c : Connector μ σ => Sound cfg dev c.toConnectorState ∧ AllFit cfg c)
    (fun c op hc hop => hc.2.step hsteady hc.1 hop) ⟨sound_init cfg dev x mem pool, hinit⟩ hops).2

end FittedRuns

/-- As `wideConfig`, with a pass that takes a quarter. -/
def quarterConfig : ConnectorConfig :=
  { wideConfig with
    offloadFraction := 1 / 4
    offloadFraction_nonneg := by decide +kernel
    offloadFraction_lt_one := by decide +kernel }

def quarterStep : Connector SmallMemory LruState → ConnectorOp SmallMemory → Connector SmallMemory LruState :=
  connectorStep quarterConfig (combinedDevice steadyRuntime) lruScorer

/-- vLLM's pool before the run, with three pages allocated, and after they were freed again. -/
def poolBefore : BlockPool := BlockPool.init 12 false

def poolAllocated : BlockPool := (poolBefore.getNewBlocks 3).2

def poolFreed : BlockPool := poolAllocated.freeBlocks [3, 2, 1]

/-- Request `a` computes its prompt of six tokens on pages `1` to `3`, is preempted, and is resumed on
`pages` with no token computed. -/
def resumedOn (pages : List Nat) : List (ConnectorOp SmallMemory) :=
  [.vllm poolAllocated (OrderedDict.empty.set requestA [1, 2, 3]),
    .build ⟨[⟨requestA, [1, 2, 3], 0, 6⟩], [], fun _ => 6⟩,
    .build ⟨[], [⟨requestA, 6, none, false⟩], fun _ => 1⟩,
    .vllm (poolFreed.touch pages) (OrderedDict.empty.set requestA pages),
    .build ⟨[], [⟨requestA, 0, some pages, true⟩], fun _ => 6⟩]

def quarterConnector : Connector SmallMemory LruState := Connector.init quarterConfig ⟨.empty, 0⟩ blankMemory poolBefore

theorem complete_blocks_filled_resumedOn :
    AllFit quarterConfig (run quarterStep quarterConnector (resumedOn [4, 5, 6])) := by
  have hops : Along quarterStep (fun c op => op.KeepsMarks quarterConfig c) quarterConnector (resumedOn [4, 5, 6]) := by
    decide +kernel
  exact complete_blocks_filled quarterConfig (fun _ => rfl) lruScorer ⟨.empty, 0⟩ blankMemory poolBefore hops

/-- vLLM gives out the freed pages in reverse order, so block `1` is on page `2` again. It is still
marked complete, with none of its tokens computed. -/
theorem resumed_block_marked :
    (poolFreed.getNewBlocks 3).1.toOption = some [3, 2, 1] ∧
      lastReported (run quarterStep quarterConnector (resumedOn [3, 2, 1])).trace requestA = some 0 ∧
      ⟨requestA, 1⟩ ∈
        (run quarterStep quarterConnector (resumedOn [3, 2, 1])).orchestrator.store.residency.allGpuBlocks true ∧
      ¬AllFit quarterConfig (run quarterStep quarterConnector (resumedOn [3, 2, 1])) := by
  have hmarks : ¬MarksFit quarterConfig (run quarterStep quarterConnector (resumedOn [3, 2, 1])).trace
      (run quarterStep quarterConnector (resumedOn [3, 2, 1])).toConnectorState := by decide +kernel
  exact ⟨by decide +kernel, by decide +kernel, by decide +kernel, fun h => hmarks h.1⟩

end KVOffload

import KVOffload.SchedulerModel

/-! The connector's mirror of the block tables. It is kept up by deltas that are delivered once, so it is
right as long as no step fails before it has read all of them. -/

namespace KVOffload
open Base

variable {μ φ ν σ S : Type} [LinearOrder S]

section Plans

/-- vLLM's block tables. -/
def Scheduler.tables (s : Scheduler μ σ) : OrderedDict RequestId (List Nat) := s.connector.reqToBlocks

theorem Scheduler.allocateSlots_tables {cfg : SchedulerConfig} {s : Scheduler μ σ} {r : RequestId}
    {computedBlocks blocks : List Nat} {n k : Nat} {m : BlockManager}
    (h : s.allocateSlots cfg r computedBlocks n k = some (blocks, m)) :
    m.reqToBlocks = s.tables.set r ((s.tables.get? r).getD [] ++ computedBlocks ++ blocks) := by
  unfold Scheduler.allocateSlots at h
  dsimp only at h
  split at h
  · cases h
  · rename_i blocks' m' hmanager
    obtain ⟨rfl, rfl⟩ := Prod.mk.inj (Option.some.inj h)
    unfold BlockManager.allocateSlots at hmanager
    dsimp only at hmanager
    split_ifs at hmanager
    · cases hmanager
    · split at hmanager
      · cases hmanager
      · obtain ⟨hblocks, rfl⟩ := Prod.mk.inj hmanager
        rw [← Option.some.inj hblocks]
        rfl

/-- What a call of `schedule` that started in `s` has done so far. The tables of the requests that were
given tokens are what is reported of them; any other table is as before or gone. -/
structure Planned (s : Scheduler μ σ) (p : SchedulePass μ σ) : Prop where
  frame : p.scheduler.connector = s.connector.withManager p.scheduler.connector.manager
  nodup : p.ids.Nodup
  active : ∀ r ∈ p.ids, p.scheduler.IsRunning r
  tabled : ∀ r, p.scheduler.IsRunning r → r ∈ p.scheduler.tables.keys
  grown : ∀ e ∈ p.running, ∃ old, s.tables.get? e.requestId = some old ∧
    p.scheduler.tables.get? e.requestId = some (old ++ e.blockIds)
  admitted : ∀ e, e ∈ p.new ∨ e ∈ p.resumed → p.scheduler.tables.get? e.requestId = some e.blockIds
  kept : ∀ r blocks, r ∉ p.ids → p.scheduler.tables.get? r = some blocks → s.tables.get? r = some blocks
  lengthened : ∀ r blocks, r ∉ p.preempted → s.tables.get? r = some blocks →
    ∃ more, p.scheduler.tables.get? r = some (blocks ++ more)
  requests : ∀ r ∈ p.scheduler.requests.keys, r ∈ s.requests.keys

theorem planned_start {s : Scheduler μ σ} (htabled : ∀ r, s.IsRunning r → r ∈ s.tables.keys) :
    Planned s ⟨s, [], [], [], []⟩ where
  frame := rfl
  nodup := List.nodup_nil
  active := nofun
  tabled := htabled
  grown := nofun
  admitted := fun _ h => h.elim nofun nofun
  kept := fun _ _ _ h => h
  lengthened := fun _ blocks _ h => ⟨[], by rw [List.append_nil]; exact h⟩
  requests := fun _ h => h

/-- Request `e` is given tokens and the table `blocks`; `e` joins one of the lists. -/
structure Allotted (p : SchedulePass μ σ) (e : ScheduledRequest) (blocks : List Nat) (p' : SchedulePass μ σ) :
    Prop where
  connector : ∃ m : BlockManager, p'.scheduler.connector = p.scheduler.connector.withManager m ∧
    m.reqToBlocks = p.scheduler.tables.set e.requestId blocks
  ids : p'.ids.Perm (e.requestId :: p.ids)
  running : ∀ r, p'.scheduler.IsRunning r ↔ r = e.requestId ∨ p.scheduler.IsRunning r
  preempted : p'.preempted = p.preempted
  requests : ∀ r ∈ p'.scheduler.requests.keys, r ∈ p.scheduler.requests.keys
  table : ∃ more, blocks = (p.scheduler.tables.get? e.requestId).getD [] ++ more
  reported :
    (∀ e' ∈ p'.running, e' ∈ p.running ∨ e' = e ∧ p.scheduler.IsRunning e.requestId ∧
      blocks = (p.scheduler.tables.get? e.requestId).getD [] ++ e.blockIds) ∧
    ∀ e', e' ∈ p'.new ∨ e' ∈ p'.resumed → (e' ∈ p.new ∨ e' ∈ p.resumed) ∨ e' = e ∧ blocks = e.blockIds

theorem Allotted.get?_tables {p p' : SchedulePass μ σ} {e : ScheduledRequest} {blocks : List Nat}
    (h : Allotted p e blocks p') (r : RequestId) :
    p'.scheduler.tables.get? r = if r = e.requestId then some blocks else p.scheduler.tables.get? r := by
  obtain ⟨m, hconnector, htables⟩ := h.connector
  rw [Scheduler.tables, hconnector]
  show m.reqToBlocks.get? r = _
  rw [htables, OrderedDict.get?_set]

theorem Planned.allotted {s : Scheduler μ σ} {p p' : SchedulePass μ σ} {e : ScheduledRequest} {blocks : List Nat}
    (h : Planned s p) (hr : e.requestId ∉ p.ids) (hstep : Allotted p e blocks p') : Planned s p' := by
  have hne : ∀ {e' : ScheduledRequest}, e' ∈ p.scheduled → e'.requestId ≠ e.requestId := by
    intro e' he' heq
    exact hr (heq ▸ List.mem_map_of_mem he')
  refine ⟨?_, ?_, fun r hmem => ?_, fun r hrun => ?_, fun e' he' => ?_, fun e' he' => ?_, fun r old hmem hget => ?_,
    fun r old hpre hget => ?_, fun r hr => h.requests r (hstep.requests r hr)⟩
  · obtain ⟨m, hconnector, -⟩ := hstep.connector
    rw [hconnector, h.frame]
    rfl
  · exact hstep.ids.nodup_iff.mpr (List.nodup_cons.mpr ⟨hr, h.nodup⟩)
  · rw [hstep.running]
    exact (List.mem_cons.mp (hstep.ids.mem_iff.mp hmem)).imp_right (h.active r)
  · rw [OrderedDict.mem_keys_iff, hstep.get?_tables]
    split_ifs with heq
    · exact ⟨blocks, rfl⟩
    · exact OrderedDict.mem_keys_iff.mp (h.tabled r (((hstep.running r).mp hrun).resolve_left heq))
  · rw [hstep.get?_tables]
    rcases hstep.reported.1 e' he' with hold | ⟨rfl, hrun, hblocks⟩
    · rw [if_neg (hne (List.mem_append_left _ (List.mem_append_left _ hold)))]
      exact h.grown e' hold
    · -- A running request has a table, and it was not changed before in this step.
      obtain ⟨old, hold⟩ := OrderedDict.mem_keys_iff.mp (h.tabled _ hrun)
      rw [hold, Option.getD_some] at hblocks
      exact ⟨old, h.kept _ _ hr hold, by rw [if_pos rfl, hblocks]⟩
  · rw [hstep.get?_tables]
    rcases hstep.reported.2 e' he' with hold | ⟨rfl, hblocks⟩
    · have hmem : e' ∈ p.scheduled := by
        rcases hold with hold | hold
        · exact List.mem_append_left _ (List.mem_append_right _ hold)
        · exact List.mem_append_right _ hold
      rw [if_neg (hne hmem)]
      exact h.admitted e' hold
    · rw [if_pos rfl, hblocks]
  · rw [hstep.ids.mem_iff, List.mem_cons, not_or] at hmem
    rw [hstep.get?_tables, if_neg hmem.1] at hget
    exact h.kept r old hmem.2 hget
  · rw [hstep.preempted] at hpre
    obtain ⟨more, hmore⟩ := h.lengthened r old hpre hget
    rw [hstep.get?_tables]
    split_ifs with heq
    · obtain ⟨more', hblocks⟩ := hstep.table
      rw [← heq, hmore, Option.getD_some] at hblocks
      exact ⟨more ++ more', by rw [hblocks, List.append_assoc]⟩
    · exact ⟨more, hmore⟩

/-- A preemption takes the table of a running request and nothing else. -/
structure Preempted (s : Scheduler μ σ) (r : RequestId) (s' : Scheduler μ σ) : Prop where
  connector : s'.connector = s.connector.withManager (s.connector.manager.free r)
  running : ∀ r', s'.IsRunning r' ↔ r' ≠ r ∧ s.IsRunning r'

theorem Scheduler.isRunning_set {s : Scheduler μ σ} {connector : Connector μ σ} {r : RequestId} {req : VllmRequest}
    (r' : RequestId) :
    (Scheduler.mk connector (s.requests.set r req)).IsRunning r' ↔
      if r' = r then req.status = .running else s.IsRunning r' := by
  rw [IsRunning, IsRunning, OrderedDict.get?_set]
  by_cases heq : r' = r
  · rw [if_pos heq, if_pos heq, Option.map_some, Option.some.injEq]
  · rw [if_neg heq, if_neg heq]

theorem Scheduler.preemptRequest_cases (s : Scheduler μ σ) (r : RequestId) :
    ¬s.IsRunning r ∧ s.preemptRequest r = s ∨ s.IsRunning r ∧ Preempted s r (s.preemptRequest r) := by
  unfold Scheduler.preemptRequest
  cases hget : s.requests.get? r with
  | none =>
      refine Or.inl ⟨?_, rfl⟩
      rw [IsRunning, hget]
      exact nofun
  | some req =>
      dsimp only
      by_cases hstatus : req.status = .running
      · rw [if_pos hstatus]
        refine Or.inr ⟨by rw [IsRunning, hget, Option.map_some, hstatus], rfl, fun r' => ?_⟩
        rw [isRunning_set]
        split_ifs with heq
        · exact ⟨nofun, fun h => absurd heq h.1⟩
        · exact (and_iff_right heq).symm
      · rw [if_neg hstatus]
        refine Or.inl ⟨?_, rfl⟩
        rw [IsRunning, hget, Option.map_some]
        exact fun h => hstatus (Option.some.inj h)

theorem Scheduler.preemptRequest_keys (s : Scheduler μ σ) (r : RequestId) :
    ∀ r' ∈ (s.preemptRequest r).requests.keys, r' ∈ s.requests.keys := by
  unfold Scheduler.preemptRequest
  cases hget : s.requests.get? r with
  | none => exact fun _ hr' => hr'
  | some req =>
      dsimp only
      split_ifs
      · intro r' hr'
        rcases OrderedDict.mem_keys_set.mp hr' with rfl | hold
        · exact OrderedDict.mem_keys_of_get? hget
        · exact hold
      · exact fun _ hr' => hr'

theorem Preempted.get?_tables {s s' : Scheduler μ σ} {r : RequestId} (h : Preempted s r s') (r' : RequestId) :
    s'.tables.get? r' = if r' = r then none else s.tables.get? r' := by
  rw [Scheduler.tables, h.connector]
  exact OrderedDict.get?_erase s.tables r r'

theorem Planned.preempt {s : Scheduler μ σ} {p : SchedulePass μ σ} {r : RequestId} (h : Planned s p) (hnew : p.new = [])
    (hresumed : p.resumed = []) (hpreempt : Preempted p.scheduler r (p.scheduler.preemptRequest r)) :
    Planned s { p with
      scheduler := p.scheduler.preemptRequest r
      running := p.running.filter (·.requestId ≠ r)
      preempted := p.preempted ++ [r] } := by
  have hids : p.ids = p.running.map (·.requestId) := by
    rw [SchedulePass.ids, SchedulePass.scheduled, hnew, hresumed, List.append_nil, List.append_nil]
  have hleft : SchedulePass.ids { p with
      scheduler := p.scheduler.preemptRequest r
      running := p.running.filter (·.requestId ≠ r)
      preempted := p.preempted ++ [r] } = (p.running.filter (·.requestId ≠ r)).map (·.requestId) := by
    rw [SchedulePass.ids, SchedulePass.scheduled]
    simp only [hnew, hresumed, List.append_nil]
  have hmem : ∀ r', r' ∈ (p.running.filter (·.requestId ≠ r)).map (·.requestId) ↔ r' ≠ r ∧ r' ∈ p.ids := by
    intro r'
    rw [hids]
    simp only [List.mem_map, List.mem_filter, decide_eq_true_eq]
    constructor
    · rintro ⟨e, ⟨he, hne⟩, rfl⟩
      exact ⟨hne, e, he, rfl⟩
    · rintro ⟨hne, e, he, rfl⟩
      exact ⟨e, ⟨he, hne⟩, rfl⟩
  refine ⟨?_, ?_, fun r' hr' => ?_, fun r' hrun => ?_, fun e he => ?_, fun e he => ?_, fun r' blocks hr' hget => ?_,
    fun r' blocks hr' hget => ?_, fun r' hr' => h.requests r' (p.scheduler.preemptRequest_keys r r' hr')⟩
  · show (p.scheduler.preemptRequest r).connector = _
    rw [hpreempt.connector, h.frame]
    rfl
  · have hnodup := h.nodup
    rw [hids] at hnodup
    rw [hleft]
    exact hnodup.sublist (List.filter_sublist.map _)
  · rw [hleft, hmem] at hr'
    exact (hpreempt.running r').mpr ⟨hr'.1, h.active r' hr'.2⟩
  · obtain ⟨hne, hrun⟩ := (hpreempt.running r').mp hrun
    rw [OrderedDict.mem_keys_iff, hpreempt.get?_tables, if_neg hne]
    exact OrderedDict.mem_keys_iff.mp (h.tabled r' hrun)
  · obtain ⟨he, hne⟩ := List.mem_filter.mp he
    rw [hpreempt.get?_tables, if_neg (of_decide_eq_true hne)]
    exact h.grown e he
  · have hnone : e ∈ p.new ∨ e ∈ p.resumed := he
    rw [hnew, hresumed] at hnone
    exact (hnone.elim List.not_mem_nil List.not_mem_nil).elim
  · rw [hleft, hmem, not_and] at hr'
    rw [hpreempt.get?_tables] at hget
    split_ifs at hget with heq
    exact h.kept r' blocks (hr' heq) hget
  · rw [List.mem_append, not_or, List.mem_singleton] at hr'
    rw [hpreempt.get?_tables, if_neg hr'.2]
    exact h.lengthened r' blocks hr'.1 hget

theorem Planned.scheduleRunning {cfg : SchedulerConfig} {s : Scheduler μ σ} {p : SchedulePass μ σ} (h : Planned s p)
    (hnew : p.new = []) (hresumed : p.resumed = []) (choice : RunningChoice) :
    Planned s (p.scheduleRunning cfg choice) := by
  cases choice with
  | run r k =>
      unfold SchedulePass.scheduleRunning
      dsimp only
      split
      · exact h
      · rename_i req hget
        split_ifs with hguard
        · obtain ⟨hstatus, hr, -⟩ := hguard
          split
          · exact h
          · rename_i blocks m halloc
            have hrun : p.scheduler.IsRunning r := by rw [Scheduler.IsRunning, hget, Option.map_some, hstatus]
            have htables := Scheduler.allocateSlots_tables halloc
            rw [List.append_nil] at htables
            refine h.allotted (e := ⟨r, req.promptLen, req.numComputedTokens, k, blocks⟩) hr
              ⟨⟨m, rfl, htables⟩, ?_, fun r' => ?_, rfl, fun _ hr' => hr', ⟨blocks, rfl⟩, fun e' he' => ?_,
                fun e' he' => Or.inl he'⟩
            · simp only [SchedulePass.ids, SchedulePass.scheduled, List.append_assoc, List.map_append, List.map_cons,
                List.singleton_append]
              exact List.perm_middle
            · exact ⟨Or.inr, fun hor => hor.elim (fun heq => heq ▸ hrun) id⟩
            · rcases List.mem_append.mp he' with hold | hlast
              · exact Or.inl hold
              · exact Or.inr ⟨List.mem_singleton.mp hlast, hrun, rfl⟩
        · exact h
  | preempt r =>
      unfold SchedulePass.scheduleRunning
      dsimp only
      split_ifs with hrun
      · rcases p.scheduler.preemptRequest_cases r with ⟨hnot, -⟩ | ⟨-, hpreempt⟩
        · exact absurd hrun hnot
        · exact h.preempt hnew hresumed hpreempt
      · exact h

/-- An admitted request joins the new ones or the resumed ones. -/
theorem SchedulePass.ids_admission (p : SchedulePass μ σ) (scheduler : Scheduler μ σ) (waiting : Prop)
    [Decidable waiting] (e : ScheduledRequest) :
    (SchedulePass.ids { p with
      scheduler := scheduler
      new := if waiting then p.new ++ [e] else p.new
      resumed := if waiting then p.resumed else p.resumed ++ [e] }).Perm (e.requestId :: p.ids) := by
  simp only [SchedulePass.ids, SchedulePass.scheduled]
  split_ifs
  · simp only [List.append_assoc, List.map_append, List.map_cons, List.singleton_append]
    rw [← List.append_assoc, ← List.append_assoc]
    exact List.perm_middle
  · rw [← List.append_assoc, List.map_append]
    exact List.perm_append_singleton _ _

theorem mem_of_admission {new resumed : List ScheduledRequest} {waiting : Prop} [Decidable waiting]
    {e e' : ScheduledRequest}
    (h : e' ∈ (if waiting then new ++ [e] else new) ∨ e' ∈ if waiting then resumed else resumed ++ [e]) :
    (e' ∈ new ∨ e' ∈ resumed) ∨ e' = e := by
  split_ifs at h
  · rw [List.mem_append, List.mem_singleton, or_assoc, or_comm (a := e' = e), ← or_assoc] at h
    exact h
  · rw [List.mem_append, List.mem_singleton, ← or_assoc] at h
    exact h

theorem Planned.scheduleWaiting {cfg : SchedulerConfig} {s : Scheduler μ σ} {p : SchedulePass μ σ} (h : Planned s p)
    (a : Admission) : Planned s (p.scheduleWaiting cfg a) := by
  unfold SchedulePass.scheduleWaiting
  split
  · exact h
  · rename_i req hget
    by_cases hguard : p.preempted = [] ∧ req.status ≠ .running ∧ a.numNewTokens ≠ 0
    · rw [if_pos hguard]
      obtain ⟨-, hstatus, -⟩ := hguard
      dsimp only
      split
      · exact h
      · rename_i blocks m halloc
        -- A request that waits was not given tokens in this step: those are running.
        have hr : a.requestId ∉ p.ids := by
          intro hmem
          have hrun := h.active _ hmem
          rw [Scheduler.IsRunning, hget, Option.map_some] at hrun
          exact hstatus (Option.some.inj hrun)
        have htables := Scheduler.allocateSlots_tables halloc
        have htable : m.table a.requestId =
            (p.scheduler.tables.get? a.requestId).getD [] ++ a.computedBlocks ++ blocks := by
          rw [BlockManager.table, htables, OrderedDict.get?_set_self, Option.getD_some]
        rw [← htable] at htables
        refine h.allotted (e := ⟨a.requestId, req.promptLen, a.computedBlocks.length * cfg.pageSize, a.numNewTokens,
          m.table a.requestId⟩) hr ⟨⟨m, rfl, htables⟩, p.ids_admission _ _ _, fun r' => ?_, rfl,
          fun r' hr' => ?_, ⟨a.computedBlocks ++ blocks, ?_⟩, fun e' he' => Or.inl he',
          fun e' he' => (mem_of_admission he').imp_right fun heq => ⟨heq, rfl⟩⟩
        · rw [Scheduler.isRunning_set]
          split_ifs with heq
          · exact ⟨fun _ => Or.inl heq, fun _ => rfl⟩
          · exact (or_iff_right heq).symm
        · rcases OrderedDict.mem_keys_set.mp hr' with rfl | hold
          · exact OrderedDict.mem_keys_of_get? hget
          · exact hold
        · rw [htable, List.append_assoc]
    · rw [if_neg hguard]
      exact h

/-- The loop over the running requests admits nobody. -/
theorem SchedulePass.scheduleRunning_admissions (cfg : SchedulerConfig) (p : SchedulePass μ σ)
    (choice : RunningChoice) :
    (p.scheduleRunning cfg choice).new = p.new ∧ (p.scheduleRunning cfg choice).resumed = p.resumed := by
  cases choice with
  | run r k =>
      unfold SchedulePass.scheduleRunning
      dsimp only
      split
      · exact ⟨rfl, rfl⟩
      · split_ifs
        · split
          · exact ⟨rfl, rfl⟩
          · exact ⟨rfl, rfl⟩
        · exact ⟨rfl, rfl⟩
  | preempt r =>
      unfold SchedulePass.scheduleRunning
      dsimp only
      split_ifs
      · exact ⟨rfl, rfl⟩
      · exact ⟨rfl, rfl⟩

theorem planned_running (cfg : SchedulerConfig) {s : Scheduler μ σ} (choices : List RunningChoice)
    {p : SchedulePass μ σ} (h : Planned s p) (hnew : p.new = []) (hresumed : p.resumed = []) :
    Planned s (choices.foldl (SchedulePass.scheduleRunning cfg) p) := by
  induction choices generalizing p with
  | nil => exact h
  | cons choice rest ih =>
      obtain ⟨hnew', hresumed'⟩ := p.scheduleRunning_admissions cfg choice
      exact ih (h.scheduleRunning hnew hresumed choice) (hnew'.trans hnew) (hresumed'.trans hresumed)

theorem planned_waiting (cfg : SchedulerConfig) {s : Scheduler μ σ} (admissions : List Admission) {p : SchedulePass μ σ}
    (h : Planned s p) : Planned s (admissions.foldl (SchedulePass.scheduleWaiting cfg) p) := by
  induction admissions generalizing p with
  | nil => exact h
  | cons a rest ih => exact ih (h.scheduleWaiting a)

theorem planned_plan (cfg : SchedulerConfig) {s : Scheduler μ σ} (htabled : ∀ r, s.IsRunning r → r ∈ s.tables.keys)
    (choices : SchedulePlan) : Planned s (s.plan cfg choices) :=
  planned_waiting cfg choices.admissions (planned_running cfg choices.running (planned_start htabled) rfl rfl)

end Plans

section Delivery

/-- An output that tells the connector the tables: what it reports of a request is its table, or what is
missing in the mirror of it. -/
structure Delivers (c : ConnectorState μ σ) (out : SchedulerOutput) : Prop where
  nodup : out.ids.Nodup
  new : ∀ req ∈ out.newReqs, c.reqToBlocks.get? req.requestId = some req.blockIds
  cached : ∀ req ∈ out.cachedReqs, c.reqToBlocks.get? req.requestId = some (fullBlockIds c req)

/-- The connector's mirror is right for every request that has a table. -/
def Mirrors (c : ConnectorState μ σ) : Prop :=
  ∀ r blocks, c.reqToBlocks.get? r = some blocks → c.reqBlockTable.get? r = some blocks

theorem ScheduledRequest.newBlockIds_getD (e : ScheduledRequest) : e.newBlockIds.getD [] = e.blockIds := by
  unfold ScheduledRequest.newBlockIds
  split_ifs with hempty
  · exact hempty.symm
  · rfl

theorem SchedulePass.output_ids (cfg : SchedulerConfig) (p : SchedulePass μ σ) : (p.output cfg).ids.Perm p.ids := by
  have hids : (p.output cfg).ids =
      ((if cfg.useV2ModelRunner then p.new ++ p.resumed else p.new) ++
        (p.running ++ if cfg.useV2ModelRunner then [] else p.resumed)).map (·.requestId) := by
    simp only [SchedulerOutput.ids, SchedulePass.output, List.map_append, List.map_map]
    rfl
  rw [hids, SchedulePass.ids, SchedulePass.scheduled]
  apply List.Perm.map
  split_ifs
  · rw [List.append_nil, List.append_assoc p.running]
    exact List.perm_append_comm
  · rw [← List.append_assoc]
    exact List.perm_append_comm.append_right _

theorem Planned.delivers {cfg : SchedulerConfig} {s : Scheduler μ σ} {p : SchedulePass μ σ} (h : Planned s p)
    (hmirror : Mirrors s.connector.toConnectorState) :
    Delivers p.scheduler.connector.toConnectorState (p.output cfg) := by
  have hadmitted : ∀ e, e ∈ p.new ∨ e ∈ p.resumed →
      p.scheduler.connector.reqToBlocks.get? e.requestId = some e.blockIds := h.admitted
  refine ⟨(p.output_ids cfg).nodup_iff.mpr h.nodup, fun req hreq => ?_, fun req hreq => ?_⟩
  · obtain ⟨e, he, rfl⟩ := List.mem_map.mp hreq
    apply hadmitted e
    split_ifs at he
    · exact List.mem_append.mp he
    · exact Or.inl he
  · rcases List.mem_append.mp hreq with hreq | hreq
    · obtain ⟨e, he, rfl⟩ := List.mem_map.mp hreq
      obtain ⟨old, hold, htable⟩ := h.grown e he
      have hmirror' : p.scheduler.connector.reqBlockTable.get? e.requestId = some old := by
        rw [h.frame]
        exact hmirror _ _ hold
      calc p.scheduler.connector.reqToBlocks.get? e.requestId
          = some (old ++ e.blockIds) := htable
        _ = some ((p.scheduler.connector.reqBlockTable.get? e.requestId).getD [] ++ e.newBlockIds.getD []) := by
            rw [hmirror', e.newBlockIds_getD, Option.getD_some]
    · obtain ⟨e, he, rfl⟩ := List.mem_map.mp hreq
      have hresumed : e ∈ p.resumed := by
        split_ifs at he
        · cases he
        · exact he
      calc p.scheduler.connector.reqToBlocks.get? e.requestId
          = some e.blockIds := hadmitted e (Or.inr hresumed)
        _ = some (e.newBlockIds.getD []) := by rw [e.newBlockIds_getD]

end Delivery

section Build

variable {cfg : ConnectorConfig} {dev : Device μ φ ν S} {out : SchedulerOutput} {c c₁ c₂ : Connector μ σ}
  {failed : Prop}

/-- The mirror of every request read so far is its table. -/
structure Mirroring (c : Connector μ σ) (read : List RequestId) (c₁ : Connector μ σ) : Prop where
  frame : BuildFrame c c₁
  grows : c.trace <+: c₁.trace
  mirrored : ∀ r ∈ read, c₁.reqBlockTable.get? r = c.reqToBlocks.get? r

/-- After a step that read its whole output: the mirrors of its requests are their tables, and no other
mirror has changed. -/
structure MirrorPost (out : SchedulerOutput) (c c' : Connector μ σ) : Prop where
  scheduled : ∀ r ∈ out.ids, c'.reqBlockTable.get? r = c.reqToBlocks.get? r
  others : ∀ r, r ∉ out.ids → c'.reqBlockTable.get? r = c.reqBlockTable.get? r

/-- A step that failed: unless a scoring pass did or the shadow pool had no room, it ended in `F` all the same. -/
def Faulted (cfg : ConnectorConfig) (dev : Device μ φ ν S) (c : Connector μ σ) (F : Connector μ σ → Prop)
    (c' : Connector μ σ) : Prop :=
  (∀ tick, dev.scoreFault tick = false) → Roomy cfg c c' → F c'

theorem faulted_of_scoreFault {F : Connector μ σ → Prop} {c' : Connector μ σ} (h : ∃ tick, dev.scoreFault tick = true) :
    Faulted cfg dev c F c' :=
  fun hscore _ => absurd h (not_scoreFault_of_steady hscore)

theorem Mirroring.sync {F : Connector μ σ → Prop} {read : List RequestId} {r : RequestId} {ids : List Nat} {n : Nat}
    (h : Mirroring c read c₁)
    (htable : c.reqToBlocks.get? r = some ids) (hstep : SyncStep cfg dev r ids n c₁ failed c₂) :
    Ends failed (Faulted cfg dev c F) (Mirroring c (read ++ [r])) c₂ := by
  refine ⟨fun hfailed => faulted_of_scoreFault (hstep.fault hfailed).strikes, fun _ => ?_⟩
  have htrace : c₂.trace = c₁.trace := by rw [hstep.state]
  have hmirror : c₂.reqBlockTable = c₁.reqBlockTable.set r ids := by rw [hstep.state]
  refine ⟨h.frame.trans hstep.frame, htrace ▸ h.grows, fun r' hr' => ?_⟩
  rw [hmirror, OrderedDict.get?_set]
  split_ifs with heq
  · rw [heq, htable]
  · exact h.mirrored r' ((List.mem_append.mp hr').resolve_right fun hlast => heq (List.mem_singleton.mp hlast))

/-- A part that leaves the mirror alone. -/
theorem Mirroring.part {read : List RequestId} (h : Mirroring c read c₁) (hframe : BuildFrame c₁ c₂)
    (hgrows : c₁.trace <+: c₂.trace) (hmirror : c₂.reqBlockTable = c₁.reqBlockTable) : Mirroring c read c₂ := by
  refine ⟨h.frame.trans hframe, h.grows.trans hgrows, fun r hr => ?_⟩
  rw [hmirror]
  exact h.mirrored r hr

theorem Mirroring.graduate {F : Connector μ σ → Prop} {read : List RequestId} {r : RequestId} {n : Nat}
    (h : Mirroring c read c₁)
    (hstep : GraduateStep cfg dev r n c₁ failed c₂) : Ends failed (Faulted cfg dev c F) (Mirroring c read) c₂ := by
  refine ⟨fun hfailed => faulted_of_scoreFault (hstep.fault hfailed).strikes, fun _ => ?_⟩
  have htrace : c₂.trace = c₁.trace := by rw [hstep.state]
  exact h.part hstep.frame (htrace ▸ List.prefix_rfl) (by rw [hstep.state])

theorem Mirroring.trigger {F : Connector μ σ → Prop} {read : List RequestId} {moved : List BlockRef}
    (h : Mirroring c read c₁)
    (hstep : TriggerStep cfg dev c₁ moved failed c₂) : Ends failed (Faulted cfg dev c F) (Mirroring c read) c₂ := by
  refine ⟨fun hfailed hscore hroomy => ?_, fun _ => h.part hstep.frame hstep.grows (by rw [hstep.state])⟩
  exact faulted_of_scoreFault (hstep.nil_of_roomy hfailed h.grows hroomy).2.strikes hscore hroomy

theorem Counted.grows {r : RequestId} (h : Counted r c₁ c₂) : c₁.trace <+: c₂.trace := by
  rcases h.trace with hsame | ⟨-, n, happend⟩
  · rw [hsame]
  · exact ⟨_, happend.symm⟩

theorem Mirroring.post (h : Reading cfg dev c (Mirroring c) out.ids c₁) : MirrorPost out c c₁ :=
  ⟨h.holds.mirrored, fun r hr => (h.unread r hr).mirror⟩

theorem FlushPost.reqBlockTable (h : FlushPost c₁ c₂) : c₂.reqBlockTable = c₁.reqBlockTable := by
  cases h with
  | idle _ => rfl
  | flush _ => rfl

theorem MirrorPost.congr (h : MirrorPost out c c₁) (hmirror : c₂.reqBlockTable = c₁.reqBlockTable) :
    MirrorPost out c c₂ :=
  ⟨fun r hr => hmirror ▸ h.scheduled r hr, fun r hr => hmirror ▸ h.others r hr⟩

theorem carried_mirroring (hout : Delivers c.toConnectorState out) :
    Carried cfg dev out c (Mirroring c) (MirrorPost out c) (Faulted cfg dev c (MirrorPost out c)) := by
  refine ⟨⟨rfl, ⟨_, rfl⟩, nofun⟩, fun done req rest hsplit c₁ failed c₂ h₁ hpost => ?_,
    fun done req rest hsplit c₁ failed c₂ h₁ hpost => ?_, fun req _ c₁ failed c₂ h₁ hpost => ?_,
    fun c₁ failed c₂ h₁ hstage => ?_, fun c₁ c₂ h₁ hflush => (Mirroring.post h₁).congr hflush.reqBlockTable⟩
  · have htable := hout.new req (by rw [hsplit]; simp)
    apply hpost.elim h₁.sound (fun _ _ hsync => h₁.holds.sync htable hsync)
    intro c' c'' _ h' hstarted
    have htrace : c''.trace = c'.trace := by rw [hstarted.state]
    exact h'.part hstarted.frame (htrace ▸ List.prefix_rfl) (by rw [hstarted.state])
  · have htable := hout.cached req (by rw [hsplit]; simp)
    rw [← (h₁.unread _ (not_read_of_nodup hout.nodup hsplit)).fullBlockIds] at htable
    exact hpost.elim h₁.sound (fun _ _ hsync => h₁.holds.sync htable hsync) (fun _ _ h' _ => h')
      (fun _ _ _ _ h' _ hgraduate => h'.graduate hgraduate) (fun _ _ _ _ _ h' htrigger => h'.trigger htrigger)
      fun _ _ _ h' hcounted => h'.part hcounted.frame hcounted.grows (by rw [hcounted.state])
  · exact hpost.elim h₁.sound h₁.holds (fun _ _ _ hgraduate => h₁.holds.graduate hgraduate)
      fun _ _ _ _ _ h' htrigger => h'.trigger htrigger
  · -- By now all tables have been read, so a fetch may fail.
    have htrace : c₂.trace = c₁.trace := by rw [hstage.state]
    have hmirror : c₂.reqBlockTable = c₁.reqBlockTable := by rw [hstage.state]
    exact ⟨fun _ _ _ => (Mirroring.post h₁).congr hmirror,
      fun _ => h₁.holds.part hstage.frame (htrace ▸ List.prefix_rfl) hmirror⟩

end Build

section Completions

variable {cfg : ConnectorConfig}

/-- The surgery edits a table and its mirror at the same place. -/
theorem Mirrors.freeEntry {acc : ConnectorState μ σ × List Nat} (h : Mirrors acc.1) (e : BlockRef × Nat) :
    Mirrors (freeEntry e acc).1 := by
  dsimp only [KVOffload.freeEntry]
  split
  · exact h
  · rename_i blocks htable
    split_ifs
    · intro r blocks' hget
      rw [h _ _ htable]
      dsimp only at hget ⊢
      rw [OrderedDict.get?_set] at hget ⊢
      split_ifs at hget ⊢ with heq
      · exact hget
      · exact h r blocks' hget
    · exact h

theorem Mirrors.freeEntries (entries : List (BlockRef × Nat)) {acc : ConnectorState μ σ × List Nat}
    (h : Mirrors acc.1) : Mirrors (entries.foldl (fun acc e => KVOffload.freeEntry e acc) acc).1 := by
  induction entries generalizing acc with
  | nil => exact h
  | cons e rest ih => exact ih (h.freeEntry e)

theorem Mirrors.processStoreCompletion {c : ConnectorState μ σ} (h : Mirrors c) (event : Nat) :
    Mirrors (processStoreCompletion cfg event c) := by
  unfold KVOffload.processStoreCompletion
  cases c.pendingStoreEvents.get? event with
  | none => exact h
  | some batch =>
      dsimp only
      split_ifs
      · have hstart : Mirrors (({ c with
            pendingStoreEvents := c.pendingStoreEvents.erase event
            cpuBlockPool := c.cpuBlockPool.freeBlocks batch.cpuBlockIds }, []) : ConnectorState μ σ × List Nat).1 := h
        exact hstart.freeEntries _
      · exact h

theorem Mirrors.update {c : ConnectorState μ σ} (h : Mirrors c) (completed : List (Nat × Nat)) :
    Mirrors (completed.foldl (countCompletion cfg) c) :=
  update_preserves (fun _ _ h => h) (fun _ event h => h.processStoreCompletion event) completed h

theorem update_keys (completed : List (Nat × Nat)) (c : ConnectorState μ σ) (r : RequestId) :
    r ∈ (completed.foldl (countCompletion cfg) c).reqToBlocks.keys ↔ r ∈ c.reqToBlocks.keys := by
  apply update_preserves (P := fun c' : ConnectorState μ σ => r ∈ c'.reqToBlocks.keys ↔ r ∈ c.reqToBlocks.keys)
    (fun _ _ h => h) _ completed Iff.rfl
  intro c' event h
  obtain ⟨freed, hpost⟩ := processStoreCompletion_spec cfg event c'
  exact (hpost.keys r).trans h

end Completions

section Runs

variable {cfg : SchedulerConfig} {dev : Device μ φ ν S} {scorer : BlockScorer σ ν S} {s : Scheduler μ σ}

/-- The requests that run have a table, and every table is mirrored. -/
structure MirrorInv (cfg : SchedulerConfig) (dev : Device μ φ ν S) (s : Scheduler μ σ) : Prop where
  sound : Sound cfg.toConnectorConfig dev s.connector.toConnectorState
  tabled : ∀ r, s.IsRunning r → r ∈ s.tables.keys
  mirrors : Mirrors s.connector.toConnectorState

theorem Sound.withManager {cfg : ConnectorConfig} {c : Connector μ σ} (h : Sound cfg dev c.toConnectorState)
    (m : BlockManager) : Sound cfg dev (c.withManager m).toConnectorState :=
  ⟨h.ok, h.lists, h.ordinary⟩

/-- Computed tokens do not matter for who is running. -/
theorem isRunning_advance (c : Connector μ σ) (requests : OrderedDict RequestId VllmRequest)
    (scheduled : List ScheduledRequest) (r : RequestId) :
    (Scheduler.mk c (scheduled.foldl Scheduler.advance requests)).IsRunning r ↔
      (Scheduler.mk c requests).IsRunning r := by
  induction scheduled generalizing requests with
  | nil => exact Iff.rfl
  | cons e rest ih =>
      refine (ih (Scheduler.advance requests e)).trans ?_
      unfold Scheduler.advance Scheduler.IsRunning
      cases hget : requests.get? e.requestId with
      | none => exact Iff.rfl
      | some req =>
          dsimp only
          rw [OrderedDict.get?_set]
          split_ifs with heq
          · rw [heq, hget]
            exact Iff.rfl
          · exact Iff.rfl

theorem mem_keys_advance (requests : OrderedDict RequestId VllmRequest) (scheduled : List ScheduledRequest)
    (r : RequestId) : r ∈ (scheduled.foldl Scheduler.advance requests).keys ↔ r ∈ requests.keys := by
  induction scheduled generalizing requests with
  | nil => exact Iff.rfl
  | cons e rest ih =>
      refine (ih (Scheduler.advance requests e)).trans ?_
      unfold Scheduler.advance
      cases hget : requests.get? e.requestId with
      | none => exact Iff.rfl
      | some req =>
          rw [OrderedDict.mem_keys_set]
          exact or_iff_right_of_imp fun heq => heq ▸ OrderedDict.mem_keys_of_get? hget

/-- A preemption keeps the mirrors that matter. -/
theorem MirrorInv.preemptRequest (h : MirrorInv cfg dev s) (r : RequestId) :
    MirrorInv cfg dev (s.preemptRequest r) := by
  rcases s.preemptRequest_cases r with ⟨-, hsame⟩ | ⟨-, hpreempt⟩
  · rw [hsame]
    exact h
  · refine ⟨?_, fun r' hrun => ?_, fun r' blocks hget => ?_⟩
    · rw [hpreempt.connector]
      exact h.sound.withManager _
    · obtain ⟨hne, hrun⟩ := (hpreempt.running r').mp hrun
      rw [OrderedDict.mem_keys_iff, hpreempt.get?_tables, if_neg hne]
      exact OrderedDict.mem_keys_iff.mp (h.tabled r' hrun)
    · have hold : s.tables.get? r' = some blocks := by
        have hget' := hpreempt.get?_tables r'
        rw [show (s.preemptRequest r).tables.get? r' = some blocks from hget] at hget'
        split_ifs at hget'
        exact hget'.symm
      rw [hpreempt.connector]
      exact h.mirrors r' blocks hold

theorem MirrorInv.finishRequest (h : MirrorInv cfg dev s) (r : RequestId) :
    MirrorInv cfg dev (s.finishRequest cfg dev scorer r) := by
  unfold Scheduler.finishRequest
  split_ifs with hr
  · have hstep : FinishStep cfg.toConnectorConfig dev r s.connector
        (connectorStep cfg.toConnectorConfig dev scorer s.connector (.finished r)) := finishStep h.sound r
    dsimp only
    refine ⟨(hstep.sound h.sound).withManager _, fun r' hrun => ?_, fun r' blocks hget => ?_⟩
    · have hrun' : ((s.requests.erase r).get? r').map (·.status) = some .running := hrun
      rw [OrderedDict.get?_erase] at hrun'
      split_ifs at hrun' with heq
      · cases hrun'
      · show r' ∈ (OrderedDict.erase _ r).keys
        rw [OrderedDict.mem_keys_erase, hstep.state]
        exact ⟨heq, h.tabled r' hrun'⟩
    · have hget' :
          ((connectorStep cfg.toConnectorConfig dev scorer s.connector (.finished r)).reqToBlocks.erase r).get? r' =
          some blocks := hget
      rw [OrderedDict.get?_erase, hstep.state] at hget'
      show (connectorStep cfg.toConnectorConfig dev scorer s.connector (.finished r)).reqBlockTable.get? r' =
        some blocks
      rw [hstep.state]
      split_ifs at hget' with heq
      show (s.connector.reqBlockTable.erase r).get? r' = some blocks
      rw [OrderedDict.get?_erase_of_ne _ heq]
      exact h.mirrors r' blocks hget'
  · exact h

/-- A step whose passes all have room, with a runtime in which no scoring pass fails: also the requests
of the step are mirrored. -/
theorem MirrorInv.schedule (hscore : ∀ tick, dev.scoreFault tick = false) (h : MirrorInv cfg dev s)
    {choices : SchedulePlan}
    (hroomy : Roomy cfg.toConnectorConfig s.connector (s.schedule cfg dev scorer choices).connector) :
    MirrorInv cfg dev (s.schedule cfg dev scorer choices) ∧
      ∀ r ∈ ((s.plan cfg choices).output cfg).ids, (s.schedule cfg dev scorer choices).IsRunning r := by
  have hplanned := planned_plan cfg h.tabled choices
  have hsound : Sound cfg.toConnectorConfig dev (s.plan cfg choices).scheduler.connector.toConnectorState := by
    rw [hplanned.frame]
    exact h.sound.withManager _
  obtain ⟨-, htables⟩ := build_tables scorer ((s.plan cfg choices).output cfg) hsound
  obtain ⟨hsound', hend⟩ := build_step scorer hsound (carried_mirroring (hplanned.delivers h.mirrors))
  have hpost : MirrorPost ((s.plan cfg choices).output cfg) (s.plan cfg choices).scheduler.connector
      (s.schedule cfg dev scorer choices).connector := by
    rcases hend with hF | hE
    · exact hF
    · have htrace : (s.plan cfg choices).scheduler.connector.trace = s.connector.trace := by
        rw [hplanned.frame]
        rfl
      apply hE hscore
      rw [Roomy, newPasses, htrace]
      exact hroomy
  refine ⟨⟨hsound', fun r hrun => ?_, fun r blocks hget => ?_⟩, fun r hr => ?_⟩
  · rw [Scheduler.tables, show (s.schedule cfg dev scorer choices).connector.reqToBlocks = _ from htables]
    exact hplanned.tabled r ((isRunning_advance _ _ _ r).mp hrun)
  · have hget' : (s.plan cfg choices).scheduler.tables.get? r = some blocks := by
      rw [Scheduler.tables, ← htables]
      exact hget
    by_cases hr : r ∈ ((s.plan cfg choices).output cfg).ids
    · rw [hpost.scheduled r hr]
      exact hget'
    · have hids := mt ((s.plan cfg choices).output_ids cfg).mem_iff.mpr hr
      rw [hpost.others r hr, hplanned.frame]
      exact h.mirrors r blocks (hplanned.kept r blocks hids hget')
  · apply (isRunning_advance _ _ _ r).mpr
    exact hplanned.active r (((s.plan cfg choices).output_ids cfg).mem_iff.mp hr)

/-- Adding a request and taking back tokens change nobody else's status, and start nobody. -/
theorem MirrorInv.requests (h : MirrorInv cfg dev s) {requests : OrderedDict RequestId VllmRequest}
    (hrunning : ∀ r, (Scheduler.mk s.connector requests).IsRunning r → s.IsRunning r) :
    MirrorInv cfg dev { s with requests := requests } :=
  ⟨h.sound, fun r hrun => h.tabled r (hrunning r hrun), h.mirrors⟩

theorem MirrorInv.step (hscore : ∀ tick, dev.scoreFault tick = false) (h : MirrorInv cfg dev s) {op : SchedulerOp μ}
    (hroomy : Roomy cfg.toConnectorConfig s.connector (schedulerStep cfg dev scorer s op).connector) :
    MirrorInv cfg dev (schedulerStep cfg dev scorer s op) := by
  cases op with
  | addRequest r promptLen =>
      rw [schedulerStep, Scheduler.addRequest]
      split_ifs with hr
      · exact h
      · apply h.requests
        intro r' hrun
        rw [Scheduler.isRunning_set] at hrun
        split_ifs at hrun
        exact hrun
  | schedule choices => exact (h.schedule hscore hroomy).1
  | preempt r => exact h.preemptRequest r
  | rejectTokens r n =>
      rw [schedulerStep, Scheduler.rejectTokens]
      split
      · exact h
      · rename_i req hget
        apply h.requests
        intro r' hrun
        rw [Scheduler.isRunning_set] at hrun
        split_ifs at hrun with heq
        · rw [Scheduler.IsRunning, heq, hget]
          exact congrArg some hrun
        · exact hrun
  | update completed =>
      have hquiet : QuietStep cfg.toConnectorConfig dev s.connector
          (connectorStep cfg.toConnectorConfig dev scorer s.connector (.update completed)) :=
        quietStep_update h.sound completed
      refine ⟨hquiet.sound h.sound, fun r hrun => ?_, h.mirrors.update completed⟩
      exact (update_keys completed _ r).mpr (h.tabled r hrun)
  | finish r => exact h.finishRequest r
  | worker op =>
      have hquiet : QuietStep cfg.toConnectorConfig dev s.connector
          (connectorStep cfg.toConnectorConfig dev scorer s.connector (.worker op)) := quietStep_worker h.sound op
      exact ⟨hquiet.sound h.sound, h.tabled, h.mirrors⟩

end Runs

/-- The mirror is the table of every request that has one, in every state; in particular it is right for
the requests of a step once the step is over. -/
theorem mirror_tracks_tables (cfg : SchedulerConfig) (dev : Device μ φ ν S) (scorer : BlockScorer σ ν S)
    (x : σ) (mem : μ) (pool : BlockPool) (hscore : ∀ tick, dev.scoreFault tick = false) {ops : List (SchedulerOp μ)}
    (hops : Along (schedulerStep cfg dev scorer)
      (fun s op => Roomy cfg.toConnectorConfig s.connector (schedulerStep cfg dev scorer s op).connector)
      (Scheduler.init cfg x mem pool) ops) :
    let s := run (schedulerStep cfg dev scorer) (Scheduler.init cfg x mem pool) ops
    (∀ r blocks, s.tables.get? r = some blocks → s.connector.reqBlockTable.get? r = some blocks) ∧
      ∀ choices,
        let s' := schedulerStep cfg dev scorer s (.schedule choices)
        Roomy cfg.toConnectorConfig s.connector s'.connector →
          ∀ r ∈ ((s.plan cfg choices).output cfg).ids,
            ∃ blocks, s'.tables.get? r = some blocks ∧ s'.connector.reqBlockTable.get? r = some blocks := by
  have hstart : MirrorInv cfg dev (Scheduler.init cfg x mem pool : Scheduler μ σ) :=
    ⟨sound_init cfg.toConnectorConfig dev x mem pool, nofun, nofun⟩
  have hinv := run_invariant (I := MirrorInv cfg dev) (fun _ _ h hroomy => h.step hscore hroomy) hstart hops
  refine ⟨hinv.mirrors, fun choices hroomy r hr => ?_⟩
  obtain ⟨hinv', hrunning⟩ := hinv.schedule hscore hroomy
  obtain ⟨blocks, hget⟩ := OrderedDict.mem_keys_iff.mp (hinv'.tabled r (hrunning r hr))
  exact ⟨blocks, hget, hinv'.mirrors r blocks hget⟩

def wideSchedulerConfig : SchedulerConfig := { wideConfig with numLookaheadTokens := 0, useV2ModelRunner := false }

def wideSchedulerStep : Scheduler SmallMemory LruState → SchedulerOp SmallMemory → Scheduler SmallMemory LruState :=
  schedulerStep wideSchedulerConfig (combinedDevice steadyRuntime) lruScorer

/-- Nine pages: the null page, the staging page and seven for the requests. -/
def wideScheduler : Scheduler SmallMemory LruState :=
  Scheduler.init wideSchedulerConfig ⟨.empty, 0⟩ blankMemory (reserveStagingTail 9 (BlockPool.init 9 true) 1).2

/-- The decode step of the first request takes the last page, so the second request is preempted in its
prefill. Two blocks of the first request go to the CPU and their pages are freed. -/
def resumeScenario : List (SchedulerOp SmallMemory) :=
  [.addRequest requestA 8, .addRequest requestB 6, .schedule ⟨[], [⟨requestA, [], 8⟩, ⟨requestB, [], 4⟩]⟩,
    .schedule ⟨[.run requestA 1, .preempt requestB], []⟩, .update [(0, 1)]]

/-- The second request is admitted again beside the decode step of the first one: its two computed blocks
are found in the cache, and it gets one of the freed pages. -/
theorem mirror_tracks_tables_resumeScenario :
    let s := run wideSchedulerStep wideScheduler resumeScenario
    let s' := wideSchedulerStep s (.schedule ⟨[.run requestA 1], [⟨requestB, [5, 6], 2⟩]⟩)
    s.connector.reqBlockTable.get? requestB = some [5, 6] ∧ s.tables.get? requestB = none ∧
      s'.tables.get? requestA = some [0, 0, 3, 4, 7] ∧ s'.tables.get? requestB = some [5, 6, 1] ∧
      ∀ r ∈ [requestA, requestB], ∃ blocks,
        s'.tables.get? r = some blocks ∧ s'.connector.reqBlockTable.get? r = some blocks := by
  have htracks : ∀ ops choices, Along wideSchedulerStep
      (fun s op => Roomy wideConfig s.connector (wideSchedulerStep s op).connector) wideScheduler ops →
      let s := run wideSchedulerStep wideScheduler ops
      let s' := wideSchedulerStep s (.schedule choices)
      Roomy wideConfig s.connector s'.connector →
        ∀ r ∈ ((s.plan wideSchedulerConfig choices).output wideSchedulerConfig).ids,
          ∃ blocks, s'.tables.get? r = some blocks ∧ s'.connector.reqBlockTable.get? r = some blocks := by
    intro ops choices hops
    exact (mirror_tracks_tables wideSchedulerConfig (combinedDevice steadyRuntime) lruScorer ⟨.empty, 0⟩ blankMemory
      (reserveStagingTail 9 (BlockPool.init 9 true) 1).2 (fun _ => rfl) hops).2 choices
  refine ⟨by decide +kernel, by decide +kernel, by decide +kernel, by decide +kernel, fun r hr => ?_⟩
  apply htracks resumeScenario ⟨[.run requestA 1], [⟨requestB, [5, 6], 2⟩]⟩ (by decide +kernel) (by decide +kernel)
  have hids : (((run wideSchedulerStep wideScheduler resumeScenario).plan wideSchedulerConfig
      ⟨[.run requestA 1], [⟨requestB, [5, 6], 2⟩]⟩).output wideSchedulerConfig).ids = [requestA, requestB] := by
    decide +kernel
  rw [hids]
  exact hr

def smallSchedulerConfig : SchedulerConfig :=
  { smallConnectorConfig with numLookaheadTokens := 0, useV2ModelRunner := false }

def smallSchedulerStep : Scheduler SmallMemory LruState → SchedulerOp SmallMemory → Scheduler SmallMemory LruState :=
  schedulerStep smallSchedulerConfig (combinedDevice steadyRuntime) lruScorer

def blankScheduler : Scheduler SmallMemory LruState :=
  Scheduler.init smallSchedulerConfig ⟨.empty, 0⟩ blankMemory (reserveStagingTail 9 (BlockPool.init 9 true) 1).2

/-- The pass of the first request asks the shadow pool for two blocks where it has one. It fails, and the
page the second request got in this step is never mirrored. -/
def refusedScenario : List (SchedulerOp SmallMemory) :=
  [.addRequest requestA 8, .addRequest requestB 2, .schedule ⟨[], [⟨requestA, [], 8⟩, ⟨requestB, [], 2⟩]⟩]

theorem mirror_misses_delta :
    let choices : SchedulePlan := ⟨[.run requestA 1, .run requestB 1], []⟩
    let s := run smallSchedulerStep blankScheduler refusedScenario
    let s' := smallSchedulerStep s (.schedule choices)
    requestB ∈ ((s.plan smallSchedulerConfig choices).output smallSchedulerConfig).ids ∧
      s'.tables.get? requestB = some [5, 7] ∧ s'.connector.reqBlockTable.get? requestB = some [5] := by
  decide +kernel

end KVOffload

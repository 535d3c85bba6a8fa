import KVOffload.CompletionModel
import KVOffload.ConnectorLedger
import Mathlib.Algebra.BigOperators.Fin
import Mathlib.Algebra.Order.BigOperators.Group.Finset
import Mathlib.Order.Interval.Finset.Nat
import Mathlib.Order.Lattice.Nat

/-! Every store event takes effect once, when all workers have seen it complete. A worker's events are
numbered without a gap: those it has seen, then those it has recorded, then those it has yet to hear of.
A completion it has seen is in its own dictionary, in one report, or delivered, and the scheduler's
counts are those of what was delivered. -/

namespace KVOffload
open Base

variable {μ φ ν σ S : Type} [LinearOrder S]

/-- The event that `wait_for_save` records for this metadata. -/
def OffloadPackageMetadata.storeIdx (metadata : OffloadPackageMetadata) : Option Nat :=
  metadata.storeEvent.bind fun e => if e.2.gpuBlockIds = [] then none else some e.1

section Scheduler

/-- A part of a scheduler step that flushes nothing, with batches that have pages. -/
structure Unflushed (c c' : Connector μ σ) : Prop where
  counter : c'.storeEventCounter = c.storeEventCounter
  pending : c'.pendingStoreEvents = c.pendingStoreEvents
  counts : c'.storeEventPendingCounts = c.storeEventPendingCounts
  filled : ∀ batch ∈ c'.stepStoreAcc, batch.gpuBlockIds ≠ []

variable {cfg : ConnectorConfig} {dev : Device μ φ ν S} {scorer : BlockScorer σ ν S} {c c₁ c' : Connector μ σ}
  {failed : Prop}

theorem Unflushed.of_frame (h : Unflushed c c₁) (hframe : BuildFrame c₁ c')
    (hfilled : ∀ batch ∈ c'.stepStoreAcc, batch.gpuBlockIds ≠ []) : Unflushed c c' := by
  rw [BuildFrame] at hframe
  refine ⟨?_, ?_, ?_, hfilled⟩
  · rw [hframe]
    exact h.counter
  · rw [hframe]
    exact h.pending
  · rw [hframe]
    exact h.counts

theorem Unflushed.sync (h : Unflushed c c₁) {r : RequestId} {ids : List Nat} {n : Nat}
    (hstep : SyncStep cfg dev r ids n c₁ failed c') : Unflushed c c' :=
  h.of_frame hstep.frame (by rw [hstep.state]; exact h.filled)

theorem Unflushed.graduate (h : Unflushed c c₁) {r : RequestId} {n : Nat}
    (hstep : GraduateStep cfg dev r n c₁ failed c') : Unflushed c c' :=
  h.of_frame hstep.frame (by rw [hstep.state]; exact h.filled)

theorem Unflushed.started (h : Unflushed c c₁) {req : NewRequestData} (hstep : Started req c₁ c') : Unflushed c c' :=
  h.of_frame hstep.frame (by rw [hstep.state]; exact h.filled)

theorem Unflushed.counted (h : Unflushed c c₁) {r : RequestId} (hstep : Counted r c₁ c') : Unflushed c c' :=
  h.of_frame hstep.frame (by rw [hstep.state]; exact h.filled)

theorem Unflushed.stage (h : Unflushed c c₁) (hstep : StageStep cfg dev c₁ failed c') : Unflushed c c' :=
  h.of_frame hstep.frame (by rw [hstep.state]; exact h.filled)

/-- A pass queues the blocks it moved, of which there is at least one, with their pages. -/
theorem Unflushed.trigger (h : Unflushed c c₁) {moved : List BlockRef}
    (hstep : TriggerStep cfg dev c₁ moved failed c') : Unflushed c c' := by
  apply h.of_frame hstep.frame
  by_cases hfailed : failed
  · rw [(hstep.refused hfailed).1]
    exact h.filled
  · rcases hstep.queued hfailed with ⟨-, hsame⟩ | ⟨hne, cpuBlockIds, requestIds, -, happend⟩
    · rw [hsame]
      exact h.filled
    · rw [happend]
      intro batch hbatch
      rcases List.mem_append.mp hbatch with hold | hnew
      · exact h.filled batch hold
      · have hlen := hstep.pages_length
        rw [List.mem_singleton.mp hnew]
        intro hnil
        rw [show recordedPages c₁.orchestrator.store.residency moved = [] from hnil] at hlen
        exact hne (List.length_eq_zero_iff.mp hlen.symm)

theorem carried_unflushed {out : SchedulerOutput} (hfilled : ∀ batch ∈ c.stepStoreAcc, batch.gpuBlockIds ≠ []) :
    Carried cfg dev out c (fun _ c₁ => Unflushed c c₁) (fun _ => True) (Unflushed c) := by
  have hboth : ∀ {failed : Prop} {c₂ : Connector μ σ}, Unflushed c c₂ → Ends failed (Unflushed c) (Unflushed c) c₂ :=
    fun h => ⟨fun _ => h, fun _ => h⟩
  refine ⟨⟨rfl, rfl, rfl, hfilled⟩, fun done req rest _ c₁ failed c₂ h₁ hpost => ?_,
    fun done req rest _ c₁ failed c₂ h₁ hpost => ?_, fun req _ c₁ failed c₂ h₁ hpost => ?_,
    fun c₁ failed c₂ h₁ hstage => hboth (h₁.holds.stage hstage), fun _ _ _ _ => True.intro⟩
  · exact hpost.elim h₁.sound (fun _ _ hsync => hboth (h₁.holds.sync hsync)) fun _ _ _ h' hstarted =>
      h'.started hstarted
  · exact hpost.elim h₁.sound (fun _ _ hsync => hboth (h₁.holds.sync hsync)) (fun _ _ h' _ => h')
      (fun _ _ _ _ h' _ hgraduate => hboth (h'.graduate hgraduate))
      (fun _ _ _ _ _ h' htrigger => hboth (h'.trigger htrigger))
      fun _ _ _ h' hcounted => h'.counted hcounted
  · exact hpost.elim h₁.sound h₁.holds (fun _ _ _ hgraduate => hboth (h₁.holds.graduate hgraduate))
      fun _ _ _ _ _ h' htrigger => hboth (h'.trigger htrigger)

/-- What a scheduler step does to the store events, and what it tells the workers. -/
inductive BuiltEvent (c c' : Connector μ σ) (metadata : OffloadPackageMetadata) : Prop
  | quiet (h : Unflushed c c') (hidx : metadata.storeIdx = none)
  | flushed (batch : StoreBatch) (hcounter : c'.storeEventCounter = c.storeEventCounter + 1)
      (hpending : c'.pendingStoreEvents = c.pendingStoreEvents.set c.storeEventCounter batch)
      (hcounts : c'.storeEventPendingCounts = c.storeEventPendingCounts.set c.storeEventCounter 0)
      (hacc : c'.stepStoreAcc = []) (hidx : metadata.storeIdx = some c.storeEventCounter)

/-- An event that is flushed has pages, so the workers record it. -/
theorem storeIdx_of_flush {metadata : OffloadPackageMetadata} (h : Unflushed c c₁) (hne : c₁.stepStoreAcc ≠ [])
    (hevent : metadata.storeEvent = flushedEvent c₁.toConnectorState) :
    metadata.storeIdx = some c.storeEventCounter := by
  have hpages : (StoreBatch.join c₁.stepStoreAcc).gpuBlockIds ≠ [] := by
    obtain ⟨batch, rest, hacc⟩ := List.exists_cons_of_ne_nil hne
    have hbatch := h.filled batch (by rw [hacc]; exact List.mem_cons_self)
    rw [StoreBatch.join, hacc, List.flatMap_cons]
    exact fun hnil => hbatch (List.append_eq_nil_iff.mp hnil).1
  rw [OffloadPackageMetadata.storeIdx, hevent, flushedEvent, if_neg hne, Option.bind_some, if_neg hpages, h.counter]

theorem builtEvent (scorer : BlockScorer σ ν S) (hsound : Sound cfg dev c.toConnectorState)
    (hfilled : ∀ batch ∈ c.stepStoreAcc, batch.gpuBlockIds ≠ []) (out : SchedulerOutput) :
    Sound cfg dev (connectorStep cfg dev scorer c (.build out)).toConnectorState ∧
      BuiltEvent c (connectorStep cfg dev scorer c (.build out)) (builtMetadata cfg dev scorer out c) := by
  have hcarry : Carried cfg dev out c (fun _ c₁ => Unflushed c c₁) (fun _ => True) (Unflushed c) :=
    carried_unflushed hfilled
  obtain ⟨metadata, c', hrun, hsound', hpost⟩ := Eff.exists_of_wp (wp_connectorMeta scorer hsound hcarry)
  rw [connectorStep, builtMetadata, hrun]
  refine ⟨hsound', ?_⟩
  show BuiltEvent c c' metadata
  rcases hpost with hbuild | ⟨hkept, hempty⟩
  · obtain ⟨c₁, hread, hflush, hevent⟩ := hbuild.flushed
    cases hflush with
    | idle hnil =>
        refine .quiet hread.holds ?_
        rw [OffloadPackageMetadata.storeIdx, hevent, flushedEvent, if_pos hnil]
        rfl
    | flush hne =>
        refine .flushed (StoreBatch.join c₁.stepStoreAcc) ?_ ?_ ?_ rfl (storeIdx_of_flush hread.holds hne hevent)
        · show c₁.storeEventCounter + 1 = _
          rw [hread.holds.counter]
        · show c₁.pendingStoreEvents.set c₁.storeEventCounter _ = _
          rw [hread.holds.counter, hread.holds.pending]
        · show c₁.storeEventPendingCounts.set c₁.storeEventCounter 0 = _
          rw [hread.holds.counter, hread.holds.counts]
  · rw [hempty]
    exact .quiet hkept rfl

end Scheduler

section Counting

/-- The scheduler's books for event `e` when `tally` workers' completions of it have come in: it is
pending with that count, or it took effect with the last of them and is gone. -/
inductive Booked (numWorkers tally : Nat) (c : ConnectorState μ σ) (effects : List Nat) (e : Nat) : Prop
  | unflushed (hcounter : c.storeEventCounter ≤ e) (hpending : c.pendingStoreEvents.get? e = none)
      (hcounts : c.storeEventPendingCounts.get? e = none) (hout : e ∉ effects) (htally : tally = 0)
  | waiting (hcounter : e < c.storeEventCounter) (hpending : (c.pendingStoreEvents.get? e).isSome)
      (hcounts : c.storeEventPendingCounts.get? e = some tally) (hout : e ∉ effects) (htally : tally < numWorkers)
  | done (hcounter : e < c.storeEventCounter) (hpending : c.pendingStoreEvents.get? e = none)
      (hcounts : c.storeEventPendingCounts.get? e = none) (hin : e ∈ effects) (htally : tally = numWorkers)

structure Tallied (numWorkers : Nat) (tally : Nat → Nat) (c : ConnectorState μ σ) (effects : List Nat) : Prop where
  booked : ∀ e, Booked numWorkers (tally e) c effects e
  once : effects.Nodup

variable {cfg : ConnectorConfig} {tally : Nat → Nat} {c : ConnectorState μ σ} {effects : List Nat}

theorem countCompletion_counter (cfg : ConnectorConfig) (c : ConnectorState μ σ) (e : Nat × Nat) :
    (countCompletion cfg c e).storeEventCounter = c.storeEventCounter := by
  have hframe : CompletionFrame c (countCompletion cfg c e) := completionFrame_countCompletion c e
  rw [CompletionFrame] at hframe
  rw [hframe]

theorem countCompletion_pending (cfg : ConnectorConfig) (c : ConnectorState μ σ) (e : Nat × Nat) :
    (countCompletion cfg c e).pendingStoreEvents =
      if cfg.worldSize ≤ (c.storeEventPendingCounts.get? e.1).getD 0 + e.2 then c.pendingStoreEvents.erase e.1
      else c.pendingStoreEvents := by
  unfold countCompletion
  dsimp only
  split_ifs
  · exact processStoreCompletion_pending cfg e.1 _
  · rfl

theorem countCompletion_counts (cfg : ConnectorConfig) (c : ConnectorState μ σ) (e : Nat × Nat) :
    (countCompletion cfg c e).storeEventPendingCounts =
      if cfg.worldSize ≤ (c.storeEventPendingCounts.get? e.1).getD 0 + e.2 then
        (c.storeEventPendingCounts.set e.1 ((c.storeEventPendingCounts.get? e.1).getD 0 + e.2)).erase e.1
      else c.storeEventPendingCounts.set e.1 ((c.storeEventPendingCounts.get? e.1).getD 0 + e.2) := by
  unfold countCompletion
  dsimp only
  split_ifs
  · rw [processStoreCompletion_counts]
  · rfl

/-- What happens to other events leaves the books of `e` alone. -/
theorem Booked.congr {numWorkers t t' e : Nat} {c' : ConnectorState μ σ} {effects' : List Nat}
    (h : Booked numWorkers t c effects e) (hcounter : c'.storeEventCounter = c.storeEventCounter)
    (hpending : c'.pendingStoreEvents.get? e = c.pendingStoreEvents.get? e)
    (hcounts : c'.storeEventPendingCounts.get? e = c.storeEventPendingCounts.get? e)
    (heffects : e ∈ effects' ↔ e ∈ effects) (htally : t' = t) : Booked numWorkers t' c' effects' e := by
  subst htally
  cases h with
  | unflushed hc hp hk hout htally =>
      exact .unflushed (hcounter ▸ hc) (hpending.trans hp) (hcounts.trans hk) (fun hin => hout (heffects.mp hin)) htally
  | waiting hc hp hk hout htally =>
      exact .waiting (hcounter ▸ hc) (hpending ▸ hp) (hcounts.trans hk) (fun hin => hout (heffects.mp hin)) htally
  | done hc hp hk hin htally =>
      exact .done (hcounter ▸ hc) (hpending.trans hp) (hcounts.trans hk) (heffects.mpr hin) htally

/-- One entry of a report. It counts for an event that waits for it. -/
theorem Tallied.count (h : Tallied cfg.worldSize tally c effects) {e : Nat × Nat} (hpos : 0 < e.2)
    (hflushed : e.1 < c.storeEventCounter) (hle : tally e.1 + e.2 ≤ cfg.worldSize) :
    Tallied cfg.worldSize (fun x => tally x + if x = e.1 then e.2 else 0) (countLogged cfg (c, effects) e).1
      (countLogged cfg (c, effects) e).2 := by
  obtain ⟨event, k⟩ := e
  dsimp only at hpos hflushed hle
  obtain ⟨hout, hsome, hcount, hlt⟩ : event ∉ effects ∧ (c.pendingStoreEvents.get? event).isSome ∧
      c.storeEventPendingCounts.get? event = some (tally event) ∧ tally event < cfg.worldSize := by
    cases h.booked event with
    | unflushed hcounter _ _ _ _ => omega
    | waiting _ hpending hcounts hout htally => exact ⟨hout, hpending, hcounts, htally⟩
    | done _ _ _ _ htally => omega
  have hcounter := countCompletion_counter cfg c (event, k)
  have hpending := countCompletion_pending cfg c (event, k)
  have hcounts := countCompletion_counts cfg c (event, k)
  have heffect : TakesEffect cfg c (event, k) ↔ cfg.worldSize ≤ tally event + k := by
    rw [TakesEffect, hcount, Option.getD_some]
    exact and_iff_left hsome
  rw [hcount, Option.getD_some] at hpending hcounts
  simp only [countLogged, heffect]
  by_cases hlast : cfg.worldSize ≤ tally event + k
  · -- The last completion: the event leaves the books.
    rw [if_pos hlast] at hpending hcounts ⊢
    refine ⟨fun x => ?_, List.nodup_append.mpr ⟨h.once, List.nodup_singleton event, ?_⟩⟩
    · by_cases hx : x = event
      · subst hx
        refine .done (by rw [hcounter]; exact hflushed) ?_ ?_ (by simp) (by rw [if_pos rfl]; omega)
        · rw [hpending, OrderedDict.get?_erase_self]
        · rw [hcounts, OrderedDict.get?_erase_self]
      · refine (h.booked x).congr hcounter ?_ ?_ (by simp [hx]) (by rw [if_neg hx, add_zero])
        · rw [hpending, OrderedDict.get?_erase_of_ne _ hx]
        · rw [hcounts, OrderedDict.get?_erase_of_ne _ hx, OrderedDict.get?_set_of_ne _ _ hx]
    · intro x hx y hy heq
      rw [heq, List.mem_singleton.mp hy] at hx
      exact hout hx
  · rw [if_neg hlast] at hpending hcounts ⊢
    refine ⟨fun x => ?_, h.once⟩
    by_cases hx : x = event
    · subst hx
      refine .waiting (by rw [hcounter]; exact hflushed) (by rw [hpending]; exact hsome) ?_ hout
        (by rw [if_pos rfl]; omega)
      rw [hcounts, OrderedDict.get?_set_self, if_pos rfl]
    · refine (h.booked x).congr hcounter (by rw [hpending]) ?_ Iff.rfl (by rw [if_neg hx, add_zero])
      rw [hcounts, OrderedDict.get?_set_of_ne _ _ hx]

/-- A whole report. -/
theorem Tallied.deliver (h : Tallied cfg.worldSize tally c effects) {items : List (Nat × Nat)}
    (hnodup : (items.map Prod.fst).Nodup)
    (hitems : ∀ e ∈ items, 0 < e.2 ∧ e.1 < c.storeEventCounter ∧ tally e.1 + e.2 ≤ cfg.worldSize) :
    Tallied cfg.worldSize (fun x => tally x + (OrderedDict.lookupItems x items).getD 0)
      (items.foldl (countLogged cfg) (c, effects)).1 (items.foldl (countLogged cfg) (c, effects)).2 := by
  induction items generalizing tally c effects with
  | nil => exact h
  | cons e rest ih =>
      obtain ⟨hpos, hflushed, hle⟩ := hitems e List.mem_cons_self
      obtain ⟨hfresh, hrest⟩ := List.nodup_cons.mp hnodup
      have hcounter : (countLogged cfg (c, effects) e).1.storeEventCounter = c.storeEventCounter :=
        countCompletion_counter cfg c e
      have hothers : ∀ x ∈ rest, 0 < x.2 ∧ x.1 < (countLogged cfg (c, effects) e).1.storeEventCounter ∧
          (tally x.1 + if x.1 = e.1 then e.2 else 0) + x.2 ≤ cfg.worldSize := by
        intro x hx
        have hne : x.1 ≠ e.1 := fun heq => hfresh (heq ▸ List.mem_map_of_mem hx)
        rw [hcounter, if_neg hne, add_zero]
        exact hitems x (List.mem_cons_of_mem e hx)
      have htail := ih (h.count hpos hflushed hle) hrest hothers
      refine ⟨fun x => (htail.booked x).congr rfl rfl rfl Iff.rfl ?_, htail.once⟩
      rw [OrderedDict.lookupItems]
      by_cases hx : x = e.1
      · have hnone : OrderedDict.lookupItems x rest = none :=
          (OrderedDict.lookupItems_eq_none_iff x rest).mpr (hx ▸ hfresh)
        simp only [hx, if_true, Option.getD_some]
        rw [← hx, hnone]
        rfl
      · simp only [hx, Ne.symm hx, if_false, add_zero]

/-- The log follows the code's own loop. -/
theorem foldl_countLogged_fst (cfg : ConnectorConfig) (items : List (Nat × Nat)) (acc : ConnectorState μ σ × List Nat) :
    (items.foldl (countLogged cfg) acc).1 = items.foldl (countCompletion cfg) acc.1 := by
  induction items generalizing acc with
  | nil => rfl
  | cons e rest ih => exact ih (countLogged cfg acc e)

end Counting

section Workers

/-- A worker between two calls: it has seen the events below `seen`, recorded those below `recorded`,
and has yet to handle the metadata of the others. -/
structure WorkerInv (counter : Nat) (inbox : List OffloadPackageMetadata) (w : StoreWorker) (observed : Finset Nat)
    (seen recorded : Nat) : Prop where
  seen_le : seen ≤ recorded
  recorded_le : recorded ≤ counter
  events : w.storeEvents.map (·.eventIdx) = List.range' seen (recorded - seen)
  hwm : w.storeHwm = seen - 1
  pending : w.pendingStoreEventIndices = Finset.Ico seen recorded
  observed : observed = Finset.range seen
  inbox : inbox.filterMap (·.storeIdx) = List.range' recorded (counter - recorded)

variable {counter seen recorded : Nat} {inbox : List OffloadPackageMetadata} {w : StoreWorker} {observed : Finset Nat}

theorem workerInv_init : WorkerInv 0 [] .init ∅ 0 0 :=
  ⟨Nat.le_refl 0, Nat.le_refl 0, rfl, rfl, rfl, rfl, rfl⟩

theorem range'_succ_sub {a b : Nat} (h : a ≤ b) : List.range' a (b + 1 - a) = List.range' a (b - a) ++ [b] := by
  have hlen : b + 1 - a = (b - a) + 1 := by omega
  have hlast : a + 1 * (b - a) = b := by omega
  rw [hlen, List.range'_concat, hlast]

/-- The metadata of a step reaches every worker's inbox. -/
theorem WorkerInv.built (h : WorkerInv counter inbox w observed seen recorded) (metadata : OffloadPackageMetadata) :
    (metadata.storeIdx = none → WorkerInv counter (inbox ++ [metadata]) w observed seen recorded) ∧
      (metadata.storeIdx = some counter → WorkerInv (counter + 1) (inbox ++ [metadata]) w observed seen recorded) := by
  constructor
  · intro hnone
    refine ⟨h.seen_le, h.recorded_le, h.events, h.hwm, h.pending, h.observed, ?_⟩
    rw [List.filterMap_append, List.filterMap_cons_none hnone, List.filterMap_nil, List.append_nil, h.inbox]
  · intro hsome
    refine ⟨h.seen_le, h.recorded_le.trans (Nat.le_succ counter), h.events, h.hwm, h.pending, h.observed, ?_⟩
    rw [List.filterMap_append, List.filterMap_cons_some hsome, List.filterMap_nil, h.inbox,
      range'_succ_sub h.recorded_le]

theorem waitForSave_of_storeIdx (metadata : OffloadPackageMetadata) (w : StoreWorker) :
    w.waitForSave metadata =
      match metadata.storeIdx with
      | none => w
      | some e =>
          { w with
            storeEvents := w.storeEvents ++ [⟨e, false⟩]
            pendingStoreEventIndices := insert e w.pendingStoreEventIndices } := by
  unfold StoreWorker.waitForSave OffloadPackageMetadata.storeIdx
  cases metadata.storeEvent with
  | none => rfl
  | some e =>
      by_cases hnil : e.2.gpuBlockIds = []
      · simp [hnil]
      · simp [hnil]

theorem WorkerInv.waitForSave {metadata : OffloadPackageMetadata} {rest : List OffloadPackageMetadata}
    (h : WorkerInv counter (metadata :: rest) w observed seen recorded) :
    ∃ recorded', WorkerInv counter rest (w.waitForSave metadata) observed seen recorded' ∧
      (w.waitForSave metadata).completedStoreEvents = w.completedStoreEvents := by
  rw [waitForSave_of_storeIdx]
  cases hidx : metadata.storeIdx with
  | none =>
      have hinbox := h.inbox
      rw [List.filterMap_cons_none hidx] at hinbox
      exact ⟨recorded, ⟨h.seen_le, h.recorded_le, h.events, h.hwm, h.pending, h.observed, hinbox⟩, rfl⟩
  | some e =>
      have hinbox := h.inbox
      have hseen := h.seen_le
      rw [List.filterMap_cons_some hidx] at hinbox
      -- The inbox starts with the first event that is not recorded yet.
      have hlt : recorded < counter := by
        by_contra hge
        rw [Nat.sub_eq_zero_of_le (Nat.not_lt.mp hge)] at hinbox
        cases hinbox
      have hsplit : counter - recorded = (counter - (recorded + 1)) + 1 := by omega
      rw [hsplit, List.range'_succ] at hinbox
      obtain ⟨rfl, hrest⟩ := List.cons.inj hinbox
      refine ⟨e + 1, ⟨by omega, hlt, ?_, h.hwm, ?_, h.observed, hrest⟩, rfl⟩
      · rw [List.map_append, h.events, range'_succ_sub hseen]
        rfl
      · show insert e w.pendingStoreEventIndices = _
        rw [h.pending]
        ext x
        rw [Finset.mem_insert, Finset.mem_Ico, Finset.mem_Ico]
        omega

theorem WorkerInv.cudaDone (h : WorkerInv counter inbox w observed seen recorded) (i : Nat) :
    WorkerInv counter inbox (w.cudaDone i) observed seen recorded := by
  refine ⟨h.seen_le, h.recorded_le, ?_, h.hwm, h.pending, h.observed, h.inbox⟩
  rw [← h.events]
  apply List.ext_getElem?
  intro j
  show ((w.storeEvents.modify i _).map _)[j]? = _
  rw [List.getElem?_map, List.getElem?_map, List.getElem?_modify]
  cases w.storeEvents[j]? with
  | none => rfl
  | some e =>
      by_cases hij : i = j
      · simp [hij]
      · simp [hij]

/-- A poll takes the complete events at the front and moves the high-water mark past them. -/
theorem pollEvents_spec {events : List RecordedEvent} {a n : Nat}
    (h : events.map (·.eventIdx) = List.range' a n) :
    ∃ k ≤ n, StoreWorker.pollEvents events ((a : Int) - 1) = (((a + k : Nat) : Int) - 1, events.drop k) ∧
      (events.takeWhile (·.complete)).map (·.eventIdx) = List.range' a k := by
  induction events generalizing a n with
  | nil => exact ⟨0, Nat.zero_le n, rfl, rfl⟩
  | cons e rest ih =>
      cases n with
      | zero => cases h
      | succ n =>
          rw [List.map_cons, List.range'_succ] at h
          obtain ⟨he, hrest⟩ := List.cons.inj h
          cases hcomplete : e.complete with
          | false => exact ⟨0, Nat.zero_le _, by simp [StoreWorker.pollEvents, hcomplete], by simp [hcomplete]⟩
          | true =>
              obtain ⟨k, hk, hpoll, htake⟩ := ih hrest
              refine ⟨k + 1, Nat.succ_le_succ hk, ?_, ?_⟩
              · have hhwm : ((a + 1 : Nat) : Int) - 1 = e.eventIdx := by
                  rw [he]
                  omega
                have hsum : a + (k + 1) = a + 1 + k := by omega
                rw [hhwm] at hpoll
                rw [StoreWorker.pollEvents, if_pos hcomplete, hpoll, hsum]
                rfl
              · rw [List.takeWhile_cons_of_pos hcomplete, List.map_cons, htake, he, List.range'_succ]

theorem mem_finished (order : SetOrder) (s : Finset Nat) (hwm : Int) (x : Nat) :
    x ∈ (order.toList s).filter (fun j : Nat => (j : Int) ≤ hwm) ↔ x ∈ s ∧ (x : Int) ≤ hwm := by
  rw [List.mem_filter, order.mem_toList, decide_eq_true_iff]

/-- `get_finished` completes what the poll took, each event once. -/
theorem WorkerInv.getFinished (h : WorkerInv counter inbox w observed seen recorded) (order : SetOrder) :
    ∃ seen', seen ≤ seen' ∧
      WorkerInv counter inbox (w.getFinished order)
        (observed ∪ (if w.pendingStoreEventIndices = ∅ then []
          else (w.storeEvents.takeWhile (·.complete)).map (·.eventIdx)).toFinset) seen' recorded ∧
      ∀ e, (w.getFinished order).completedStoreEvents.get? e =
        if seen ≤ e ∧ e < seen' then some 1 else w.completedStoreEvents.get? e := by
  by_cases hempty : w.pendingStoreEventIndices = ∅
  · refine ⟨seen, Nat.le_refl seen, ?_, fun e => ?_⟩
    · rw [StoreWorker.getFinished, if_pos hempty, if_pos hempty, List.toFinset_nil, Finset.union_empty]
      exact h
    · rw [StoreWorker.getFinished, if_pos hempty, if_neg (by omega)]
  · obtain ⟨k, hk, hpoll, htake⟩ := pollEvents_spec h.events
    have hseen := h.seen_le
    rw [StoreWorker.getFinished, if_neg hempty, if_neg hempty, h.hwm, hpoll, htake]
    dsimp only
    refine ⟨seen + k, Nat.le_add_right seen k, ⟨by omega, h.recorded_le, ?_, rfl, ?_, ?_, h.inbox⟩, fun e => ?_⟩
    · rw [List.map_drop, h.events, List.drop_range', Nat.sub_sub, Nat.mul_one]
    · ext x
      rw [Finset.mem_sdiff, List.mem_toFinset, mem_finished, h.pending, Finset.mem_Ico, Finset.mem_Ico]
      omega
    · ext x
      rw [h.observed, Finset.mem_union, List.mem_toFinset, List.mem_range'_1, Finset.mem_range, Finset.mem_range]
      omega
    · have hfinished : e ∈ (order.toList w.pendingStoreEventIndices).filter
          (fun j : Nat => (j : Int) ≤ ((seen + k : Nat) : Int) - 1) ↔ seen ≤ e ∧ e < seen + k := by
        rw [mem_finished, h.pending, Finset.mem_Ico]
        omega
      rw [OrderedDict.get?_foldl_set_const]
      simp only [hfinished]

end Workers

section Reports

variable {n : Nat}

/-- How many workers' completions of event `e` are listed. -/
def completions (parts : List (Fin n × Nat)) (e : Nat) : Nat := ∑ w, parts.count (w, e)

@[simp] theorem completions_append (l l' : List (Fin n × Nat)) (e : Nat) :
    completions (l ++ l') e = completions l e + completions l' e := by
  simp only [completions, List.count_append, Finset.sum_add_distrib]

theorem exists_of_completions_pos {l : List (Fin n × Nat)} {e : Nat} (h : 0 < completions l e) : ∃ w, (w, e) ∈ l := by
  obtain ⟨w, -, hw⟩ := Finset.exists_ne_zero_of_sum_ne_zero (Nat.ne_of_gt h)
  exact ⟨w, List.count_pos_iff.mp (Nat.pos_of_ne_zero hw)⟩

/-- What worker `w` reports counts for nobody else. -/
theorem count_own (w w' : Fin n) {keys : List Nat} (hnodup : keys.Nodup) (e : Nat) :
    (keys.map (w, ·)).count (w', e) = if w' = w ∧ e ∈ keys then 1 else 0 := by
  have hmem : (w', e) ∈ keys.map (w, ·) ↔ w' = w ∧ e ∈ keys := by
    simp only [List.mem_map, Prod.mk.injEq]
    constructor
    · rintro ⟨x, hx, rfl, rfl⟩
      exact ⟨rfl, hx⟩
    · rintro ⟨rfl, he⟩
      exact ⟨e, he, rfl, rfl⟩
  have hinj : Function.Injective fun x : Nat => (w, x) := fun _ _ heq => (Prod.mk.inj heq).2
  by_cases hin : (w', e) ∈ keys.map (w, ·)
  · rw [List.count_eq_one_of_mem (hnodup.map hinj) hin, if_pos (hmem.mp hin)]
  · rw [List.count_eq_zero_of_not_mem hin, if_neg fun h => hin (hmem.mpr h)]

theorem completions_own (w : Fin n) {keys : List Nat} (hnodup : keys.Nodup) (e : Nat) :
    completions (keys.map (w, ·)) e = if e ∈ keys then 1 else 0 := by
  have hothers : ∀ w' ∈ (Finset.univ : Finset (Fin n)), w' ≠ w → (keys.map (w, ·)).count (w', e) = 0 := by
    intro w' _ hne
    rw [count_own w w' hnodup, if_neg fun h => hne h.1]
  rw [completions, Finset.sum_eq_single w hothers fun hout => absurd (Finset.mem_univ w) hout, count_own w w hnodup]
  simp only [true_and]

/-- The counts of a report are those of its parts. -/
structure Report.Faithful (r : Report n) : Prop where
  pos : ∀ e k, r.completedStoreEvents.get? e = some k → 0 < k
  sums : ∀ e, (r.completedStoreEvents.get? e).getD 0 = completions r.parts e

theorem faithful_own (w : Fin n) {completed : OrderedDict Nat Nat} (hones : ∀ e k, completed.get? e = some k → k = 1) :
    Report.Faithful ⟨completed, completed.keys.map (w, ·)⟩ := by
  refine ⟨fun e k hk => ?_, fun e => ?_⟩
  · rw [hones e k hk]
    exact Nat.one_pos
  · show (completed.get? e).getD 0 = completions (completed.keys.map (w, ·)) e
    have hnodup : completed.keys.Nodup := completed.nodup
    rw [completions_own w hnodup]
    cases hget : completed.get? e with
    | none => rw [if_neg (OrderedDict.get?_eq_none_iff.mp hget), Option.getD_none]
    | some k => rw [if_pos (OrderedDict.mem_keys_of_get? hget), Option.getD_some, hones e k hget]

theorem get?_foldl_add {items : List (Nat × Nat)} (hnodup : (items.map Prod.fst).Nodup)
    (d : OrderedDict Nat Nat) (k : Nat) :
    (items.foldl (fun merged e => merged.set e.1 ((merged.get? e.1).getD 0 + e.2)) d).get? k =
      match OrderedDict.lookupItems k items with
      | none => d.get? k
      | some v => some ((d.get? k).getD 0 + v) := by
  induction items generalizing d with
  | nil => rfl
  | cons e rest ih =>
      obtain ⟨hfresh, hrest⟩ := List.nodup_cons.mp hnodup
      rw [List.foldl_cons, ih hrest, OrderedDict.lookupItems]
      by_cases hk : e.1 = k
      · have hnone : OrderedDict.lookupItems k rest = none :=
          (OrderedDict.lookupItems_eq_none_iff k rest).mpr (hk ▸ hfresh)
        rw [hnone, if_pos hk, ← hk]
        exact OrderedDict.get?_set_self _ _ _
      · rw [if_neg hk, OrderedDict.get?_set_of_ne _ _ (Ne.symm hk)]

theorem get?_aggregate (own other : OrderedDict Nat Nat) (k : Nat) :
    (aggregate own other).get? k =
      match other.get? k with
      | none => own.get? k
      | some v => some ((own.get? k).getD 0 + v) :=
  get?_foldl_add other.nodup own k

theorem Report.Faithful.aggregate {r r' : Report n} (h : r.Faithful) (h' : r'.Faithful) :
    Report.Faithful ⟨aggregate r.completedStoreEvents r'.completedStoreEvents, r.parts ++ r'.parts⟩ := by
  refine ⟨fun e k hk => ?_, fun e => ?_⟩
  · replace hk : (KVOffload.aggregate r.completedStoreEvents r'.completedStoreEvents).get? e = some k := hk
    rw [get?_aggregate] at hk
    cases hother : r'.completedStoreEvents.get? e with
    | none =>
        rw [hother] at hk
        exact h.pos e k hk
    | some v =>
        rw [hother] at hk
        have := h'.pos e v hother
        have := Option.some.inj hk
        omega
  · show ((KVOffload.aggregate r.completedStoreEvents r'.completedStoreEvents).get? e).getD 0 = _
    rw [get?_aggregate, completions_append, ← h.sums e, ← h'.sums e]
    cases r'.completedStoreEvents.get? e with
    | none => rfl
    | some v => rfl

/-- A report taken out of those under way. -/
theorem parts_eraseIdx {reports : List (Report n)} {i : Nat} {r : Report n} (h : reports[i]? = some r) :
    (r.parts ++ (reports.eraseIdx i).flatMap (·.parts)).Perm (reports.flatMap (·.parts)) := by
  obtain ⟨hi, rfl⟩ := List.getElem?_eq_some_iff.mp h
  exact (List.getElem_cons_eraseIdx_perm hi).flatMap_right (·.parts)

end Reports

section Invariant

/-- Every completion that has left its worker. -/
def Protocol.parts {n : Nat} (s : Protocol n μ σ) : List (Fin n × Nat) := s.delivered ++ s.reports.flatMap (·.parts)

/-- What holds between two steps of the protocol. -/
structure ProtocolInv (cfg : ConnectorConfig) (dev : Device μ φ ν S) (s : Protocol cfg.worldSize μ σ) : Prop where
  sound : Sound cfg dev s.connector.toConnectorState
  filled : ∀ batch ∈ s.connector.stepStoreAcc, batch.gpuBlockIds ≠ []
  workers : ∀ w, ∃ seen recorded,
    WorkerInv s.connector.storeEventCounter (s.inbox w) (s.workers w) (s.observed w) seen recorded
  /-- A completion is where it belongs, once: with its worker, or among those that have left. -/
  handed : ∀ w e, (s.parts.count (w, e) + if e ∈ (s.workers w).completedStoreEvents.keys then 1 else 0) =
    if e ∈ s.observed w then 1 else 0
  ones : ∀ w e k, (s.workers w).completedStoreEvents.get? e = some k → k = 1
  reports : ∀ r ∈ s.reports, r.Faithful
  tallied : Tallied cfg.worldSize (completions s.delivered) s.connector.toConnectorState s.effects

variable {cfg : ConnectorConfig} {dev : Device μ φ ν S} {scorer : BlockScorer σ ν S}
  {s : Protocol cfg.worldSize μ σ}

theorem ProtocolInv.count_le (h : ProtocolInv cfg dev s) (w : Fin cfg.worldSize) (e : Nat) :
    s.parts.count (w, e) ≤ 1 := by
  have hhanded := h.handed w e
  split_ifs at hhanded <;> omega

/-- What has left a worker, the worker has seen. -/
theorem ProtocolInv.observed_of_mem (h : ProtocolInv cfg dev s) {w : Fin cfg.worldSize} {e : Nat}
    (hin : (w, e) ∈ s.parts) : e ∈ s.observed w := by
  have hhanded := h.handed w e
  have hpos := List.count_pos_iff.mpr hin
  by_contra hout
  rw [if_neg hout] at hhanded
  omega

theorem ProtocolInv.flushed_of_mem (h : ProtocolInv cfg dev s) {w : Fin cfg.worldSize} {e : Nat}
    (hin : (w, e) ∈ s.parts) : e < s.connector.storeEventCounter := by
  obtain ⟨seen, recorded, hworker⟩ := h.workers w
  have hobserved := h.observed_of_mem hin
  rw [hworker.observed, Finset.mem_range] at hobserved
  have := hworker.seen_le
  have := hworker.recorded_le
  omega

/-- No event is completed more often than there are workers. -/
theorem ProtocolInv.completions_le (h : ProtocolInv cfg dev s) (e : Nat) : completions s.parts e ≤ cfg.worldSize := by
  calc completions s.parts e ≤ ∑ _w : Fin cfg.worldSize, 1 := Finset.sum_le_sum fun w _ => h.count_le w e
    _ = cfg.worldSize := by rw [Finset.sum_const, Finset.card_univ, Fintype.card_fin, smul_eq_mul, mul_one]

theorem protocolInv_init (x : σ) (mem : μ) (pool : BlockPool) :
    ProtocolInv cfg dev (Protocol.init cfg.worldSize (Connector.init cfg x mem pool)) := by
  refine ⟨sound_init cfg dev x mem pool, fun batch hbatch => absurd hbatch (List.not_mem_nil),
    fun w => ⟨0, 0, workerInv_init⟩,
    fun w e => rfl, fun w e k hk => ?_, fun r hr => absurd hr (List.not_mem_nil), ⟨fun e => ?_, List.nodup_nil⟩⟩
  · cases hk
  · exact .unflushed (Nat.zero_le e) rfl rfl (List.not_mem_nil) (Finset.sum_const_zero)

/-- A step of the scheduler's surroundings. -/
theorem ProtocolInv.unflushed (h : ProtocolInv cfg dev s) {c' : Connector μ σ}
    (hsound : Sound cfg dev c'.toConnectorState)
    (hkept : Unflushed s.connector c') : ProtocolInv cfg dev { s with connector := c' } := by
  refine ⟨hsound, hkept.filled, fun w => ?_, h.handed, h.ones, h.reports, ⟨fun e => ?_, h.tallied.once⟩⟩
  · obtain ⟨seen, recorded, hworker⟩ := h.workers w
    refine ⟨seen, recorded, ?_⟩
    show WorkerInv c'.storeEventCounter _ _ _ _ _
    rw [hkept.counter]
    exact hworker
  · exact (h.tallied.booked e).congr hkept.counter (by rw [hkept.pending]) (by rw [hkept.counts]) Iff.rfl rfl

theorem ProtocolInv.build (hworkers : 0 < cfg.worldSize) (h : ProtocolInv cfg dev s) (out : SchedulerOutput) :
    ProtocolInv cfg dev (protocolStep cfg dev scorer s (.build out)) := by
  obtain ⟨hsound, hevent⟩ := builtEvent scorer h.sound h.filled out
  rw [protocolStep]
  generalize connectorStep cfg dev scorer s.connector (.build out) = c' at hsound hevent
  generalize builtMetadata cfg dev scorer out s.connector = metadata at hevent
  cases hevent with
  | quiet hkept hidx =>
      have hinv := h.unflushed hsound hkept
      refine ⟨hsound, hkept.filled, fun w => ?_, h.handed, h.ones, h.reports, hinv.tallied⟩
      obtain ⟨seen, recorded, hworker⟩ := hinv.workers w
      exact ⟨seen, recorded, (hworker.built metadata).1 hidx⟩
  | flushed batch hcounter hpending hcounts hacc hidx =>
      refine ⟨hsound, fun b hb => ?_, fun w => ?_, h.handed, h.ones, h.reports, ⟨fun e => ?_, h.tallied.once⟩⟩
      · rw [hacc] at hb
        exact absurd hb List.not_mem_nil
      · obtain ⟨seen, recorded, hworker⟩ := h.workers w
        refine ⟨seen, recorded, ?_⟩
        show WorkerInv c'.storeEventCounter _ _ _ _ _
        rw [hcounter]
        exact (hworker.built metadata).2 hidx
      · show Booked cfg.worldSize (completions s.delivered e) c'.toConnectorState s.effects e
        by_cases he : e = s.connector.storeEventCounter
        · -- The new event waits, and nobody has reported it.
          subst he
          cases h.tallied.booked s.connector.storeEventCounter with
          | unflushed _ _ _ hout htally =>
              rw [htally]
              refine .waiting (by omega) ?_ ?_ hout hworkers
              · rw [hpending, OrderedDict.get?_set_self]
                rfl
              · rw [hcounts, OrderedDict.get?_set_self]
          | waiting hlt _ _ _ _ => exact absurd hlt (Nat.lt_irrefl _)
          | done hlt _ _ _ _ => exact absurd hlt (Nat.lt_irrefl _)
        · have hp : c'.pendingStoreEvents.get? e = s.connector.pendingStoreEvents.get? e := by
            rw [hpending, OrderedDict.get?_set_of_ne _ _ he]
          have hk : c'.storeEventPendingCounts.get? e = s.connector.storeEventPendingCounts.get? e := by
            rw [hcounts, OrderedDict.get?_set_of_ne _ _ he]
          cases h.tallied.booked e with
          | unflushed hle hpend hcount hout htally =>
              exact .unflushed (by omega) (hp.trans hpend) (hk.trans hcount) hout htally
          | waiting hlt hpend hcount hout htally => exact .waiting (by omega) (hp ▸ hpend) (hk.trans hcount) hout htally
          | done hlt hpend hcount hin htally => exact .done (by omega) (hp.trans hpend) (hk.trans hcount) hin htally

/-- A step of worker `w` that hands nothing off. -/
theorem ProtocolInv.worker (h : ProtocolInv cfg dev s) (w : Fin cfg.worldSize) {inbox' : List OffloadPackageMetadata}
    {worker' : StoreWorker} {observed' : Finset Nat}
    (hworker : ∃ seen recorded, WorkerInv s.connector.storeEventCounter inbox' worker' observed' seen recorded)
    (hhanded : ∀ e, (s.parts.count (w, e) + if e ∈ worker'.completedStoreEvents.keys then 1 else 0) =
      if e ∈ observed' then 1 else 0)
    (hones : ∀ e k, worker'.completedStoreEvents.get? e = some k → k = 1) :
    ProtocolInv cfg dev { s with
      inbox := Function.update s.inbox w inbox'
      workers := Function.update s.workers w worker'
      observed := Function.update s.observed w observed' } := by
  refine ⟨h.sound, h.filled, fun w' => ?_, fun w' e => ?_, fun w' e k hk => ?_, h.reports, h.tallied⟩
  · by_cases hw : w' = w
    · subst hw
      simpa only [Function.update_self] using hworker
    · simpa only [Function.update_of_ne hw] using h.workers w'
  · by_cases hw : w' = w
    · subst hw
      simp only [Function.update_self]
      exact hhanded e
    · simp only [Function.update_of_ne hw]
      exact h.handed w' e
  · by_cases hw : w' = w
    · subst hw
      simp only [Function.update_self] at hk
      exact hones e k hk
    · simp only [Function.update_of_ne hw] at hk
      exact h.ones w' e k hk

theorem ProtocolInv.waitForSave (h : ProtocolInv cfg dev s) (w : Fin cfg.worldSize) :
    ProtocolInv cfg dev (protocolStep cfg dev scorer s (.waitForSave w)) := by
  rw [protocolStep]
  obtain ⟨seen, recorded, hworker⟩ := h.workers w
  cases hinbox : s.inbox w with
  | nil => exact h
  | cons metadata rest =>
      rw [hinbox] at hworker
      obtain ⟨recorded', hsaved, hcompleted⟩ := hworker.waitForSave
      have hinv := h.worker w ⟨seen, recorded', hsaved⟩ (by rw [hcompleted]; exact h.handed w)
        (by rw [hcompleted]; exact h.ones w)
      rwa [Function.update_eq_self] at hinv

theorem ProtocolInv.cudaDone (h : ProtocolInv cfg dev s) (w : Fin cfg.worldSize) (i : Nat) :
    ProtocolInv cfg dev (protocolStep cfg dev scorer s (.cudaDone w i)) := by
  obtain ⟨seen, recorded, hworker⟩ := h.workers w
  have hinv := h.worker w ⟨seen, recorded, hworker.cudaDone i⟩ (h.handed w) (h.ones w)
  rwa [Function.update_eq_self, Function.update_eq_self] at hinv

theorem ProtocolInv.getFinished (h : ProtocolInv cfg dev s) (w : Fin cfg.worldSize) (order : SetOrder) :
    ProtocolInv cfg dev (protocolStep cfg dev scorer s (.getFinished w order)) := by
  obtain ⟨seen, recorded, hworker⟩ := h.workers w
  obtain ⟨seen', hle, hpolled, hcompleted⟩ := hworker.getFinished order
  have hinv := h.worker w ⟨seen', recorded, hpolled⟩ (fun e => ?_) fun e k hk => ?_
  · rwa [Function.update_eq_self] at hinv
  · have hkeys : e ∈ ((s.workers w).getFinished order).completedStoreEvents.keys ↔
        (seen ≤ e ∧ e < seen') ∨ e ∈ (s.workers w).completedStoreEvents.keys := by
      rw [OrderedDict.mem_keys_iff, OrderedDict.mem_keys_iff, hcompleted e]
      split_ifs with hnew
      · simp [hnew]
      · simp [hnew]
    have hbefore := h.handed w e
    rw [hworker.observed] at hbefore
    rw [hpolled.observed]
    simp only [hkeys, Finset.mem_range] at hbefore ⊢
    by_cases hnew : seen ≤ e ∧ e < seen'
    · -- An event that is completed now was nowhere before.
      rw [if_neg (show ¬e < seen by omega)] at hbefore
      rw [if_pos (Or.inl hnew), if_pos hnew.2]
      omega
    · have hsame : e < seen' ↔ e < seen := by omega
      simp only [hnew, false_or]
      simp only [hsame]
      exact hbefore
  · rw [hcompleted e] at hk
    split_ifs at hk
    · exact (Option.some.inj hk).symm
    · exact h.ones w e k hk

theorem ProtocolInv.buildWorkerMeta (h : ProtocolInv cfg dev s) (w : Fin cfg.worldSize) :
    ProtocolInv cfg dev (protocolStep cfg dev scorer s (.buildWorkerMeta w)) := by
  rw [protocolStep, StoreWorker.buildWorkerMeta]
  by_cases hempty : (s.workers w).completedStoreEvents.items = []
  · rw [if_pos hempty]
    exact h
  · rw [if_neg hempty]
    have hparts : ∀ w' e, (s.delivered ++ (s.reports ++ [(⟨(s.workers w).completedStoreEvents,
        (s.workers w).completedStoreEvents.keys.map (w, ·)⟩ : Report cfg.worldSize)]).flatMap (·.parts)).count (w', e) =
          s.parts.count (w', e) + if w' = w ∧ e ∈ (s.workers w).completedStoreEvents.keys then 1 else 0 := by
      intro w' e
      have hnodup : (s.workers w).completedStoreEvents.keys.Nodup := (s.workers w).completedStoreEvents.nodup
      rw [← count_own w w' hnodup, List.flatMap_append, List.flatMap_singleton, ← List.append_assoc, List.count_append]
      rfl
    refine ⟨h.sound, h.filled, fun w' => ?_, fun w' e => ?_, fun w' e k hk => ?_, fun r hr => ?_, h.tallied⟩
    · obtain ⟨seen, recorded, hworker⟩ := h.workers w'
      refine ⟨seen, recorded, ?_⟩
      by_cases hw : w' = w
      · subst hw
        simp only [Function.update_self]
        exact ⟨hworker.seen_le, hworker.recorded_le, hworker.events, hworker.hwm, hworker.pending, hworker.observed,
          hworker.inbox⟩
      · simp only [Function.update_of_ne hw]
        exact hworker
    · refine (congrArg (· + _) (hparts w' e)).trans ?_
      rw [← h.handed w' e]
      by_cases hw : w' = w
      · subst hw
        have hnone : e ∉ (OrderedDict.empty : OrderedDict Nat Nat).keys := List.not_mem_nil
        simp only [Function.update_self, hnone, if_false, true_and, add_zero]
      · simp only [Function.update_of_ne hw, hw, false_and, if_false, add_zero]
    · by_cases hw : w' = w
      · subst hw
        simp only [Function.update_self] at hk
        cases hk
      · simp only [Function.update_of_ne hw] at hk
        exact h.ones w' e k hk
    · rcases List.mem_append.mp hr with hr | hr
      · exact h.reports r hr
      · rw [List.mem_singleton.mp hr]
        exact faithful_own w (h.ones w)

theorem ProtocolInv.aggregate (h : ProtocolInv cfg dev s) (i j : Nat) :
    ProtocolInv cfg dev (protocolStep cfg dev scorer s (.aggregate i j)) := by
  rw [protocolStep]
  split
  · rename_i own other hown hother
    have hparts :
        (s.delivered ++ (own.parts ++ other.parts ++ ((s.reports.eraseIdx i).eraseIdx j).flatMap (·.parts))).Perm
        s.parts := by
      rw [List.append_assoc]
      exact (((parts_eraseIdx hother).append_left own.parts).trans (parts_eraseIdx hown)).append_left s.delivered
    have hown' : own ∈ s.reports := List.mem_of_getElem? hown
    have hother' : other ∈ s.reports := List.mem_of_mem_eraseIdx (List.mem_of_getElem? hother)
    refine ⟨h.sound, h.filled, h.workers, fun w e => ?_, h.ones, fun r hr => ?_, h.tallied⟩
    · rw [← h.handed w e, ← hparts.count_eq]
      rfl
    · rcases List.mem_cons.mp hr with rfl | hr
      · exact (h.reports own hown').aggregate (h.reports other hother')
      · exact h.reports r (List.mem_of_mem_eraseIdx (List.mem_of_mem_eraseIdx hr))
  · exact h

theorem ProtocolInv.deliver (h : ProtocolInv cfg dev s) (i : Nat) :
    ProtocolInv cfg dev (protocolStep cfg dev scorer s (.deliver i)) := by
  rw [protocolStep]
  cases hget : s.reports[i]? with
  | none => exact h
  | some report =>
      have hmem : report ∈ s.reports := List.mem_of_getElem? hget
      have hfaithful := h.reports report hmem
      have hparts : (s.delivered ++ report.parts ++ (s.reports.eraseIdx i).flatMap (·.parts)).Perm s.parts := by
        rw [List.append_assoc]
        exact (parts_eraseIdx hget).append_left s.delivered
      have hitems : ∀ e ∈ report.completedStoreEvents.items, 0 < e.2 ∧ e.1 < s.connector.storeEventCounter ∧
          completions s.delivered e.1 + e.2 ≤ cfg.worldSize := by
        intro e he
        have hentry := OrderedDict.get?_eq_some_iff.mpr he
        have hpos := hfaithful.pos e.1 e.2 hentry
        have hsum : e.2 = completions report.parts e.1 := by rw [← hfaithful.sums e.1, hentry, Option.getD_some]
        obtain ⟨w, hw⟩ := exists_of_completions_pos (hsum ▸ hpos)
        refine ⟨hpos, h.flushed_of_mem (w := w) (hparts.mem_iff.mp ?_), ?_⟩
        · exact List.mem_append_left _ (List.mem_append_right _ hw)
        · rw [hsum]
          calc completions s.delivered e.1 + completions report.parts e.1
              ≤ completions (s.delivered ++ report.parts ++ (s.reports.eraseIdx i).flatMap (·.parts)) e.1 := by
                rw [completions_append, completions_append]
                exact Nat.le_add_right _ _
            _ = completions s.parts e.1 := Finset.sum_congr rfl fun w _ => hparts.count_eq (w, e.1)
            _ ≤ cfg.worldSize := h.completions_le e.1
      have htallied := h.tallied.deliver report.completedStoreEvents.nodup hitems
      rw [foldl_countLogged_fst] at htallied
      have hquiet : QuietStep cfg dev s.connector
          (connectorStep cfg dev scorer s.connector (.update report.completedStoreEvents.items)) :=
        quietStep_update h.sound _
      have hcounter : (connectorStep cfg dev scorer s.connector
          (.update report.completedStoreEvents.items)).storeEventCounter = s.connector.storeEventCounter := by
        rw [hquiet.state]
      have hfilled : ∀ batch ∈ (connectorStep cfg dev scorer s.connector
          (.update report.completedStoreEvents.items)).stepStoreAcc, batch.gpuBlockIds ≠ [] := by
        rw [hquiet.state]
        exact h.filled
      refine ⟨hquiet.sound h.sound, hfilled, fun w => ?_, fun w e => ?_, h.ones, fun r hr => ?_, ?_⟩
      · obtain ⟨seen, recorded, hworker⟩ := h.workers w
        exact ⟨seen, recorded, hcounter ▸ hworker⟩
      · rw [← h.handed w e, ← hparts.count_eq]
        rfl
      · exact h.reports r (List.mem_of_mem_eraseIdx hr)
      · refine ⟨fun e => (htallied.booked e).congr rfl rfl rfl Iff.rfl ?_, htallied.once⟩
        rw [completions_append, ← hfaithful.sums e]
        rfl

/-- Every step of the protocol keeps the invariant. -/
theorem ProtocolInv.step (hworkers : 0 < cfg.worldSize) (h : ProtocolInv cfg dev s) (op : ProtocolOp cfg.worldSize μ) :
    ProtocolInv cfg dev (protocolStep cfg dev scorer s op) := by
  cases op with
  | build out => exact h.build hworkers out
  | finished r =>
      have hfinish : FinishStep cfg dev r s.connector (connectorStep cfg dev scorer s.connector (.finished r)) :=
        finishStep h.sound r
      apply h.unflushed (hfinish.sound h.sound)
      rw [hfinish.state]
      exact ⟨rfl, rfl, rfl, h.filled⟩
  | vllm pool tables =>
      exact h.unflushed (QuietStep.sound (quietStep_vllm h.sound pool tables) h.sound) ⟨rfl, rfl, rfl, h.filled⟩
  | worker op => exact h.unflushed (QuietStep.sound (quietStep_worker h.sound op) h.sound) ⟨rfl, rfl, rfl, h.filled⟩
  | waitForSave w => exact h.waitForSave w
  | cudaDone w i => exact h.cudaDone w i
  | getFinished w order => exact h.getFinished w order
  | buildWorkerMeta w => exact h.buildWorkerMeta w
  | aggregate i j => exact h.aggregate i j
  | deliver i => exact h.deliver i

end Invariant

section Runs

/-- What the protocol promises in every state it reaches. -/
structure CompletedOnce (cfg : ConnectorConfig) (s : Protocol cfg.worldSize μ σ) : Prop where
  /-- No event takes effect twice. -/
  once : s.effects.Nodup
  /-- An event that took effect was seen complete by every worker. -/
  observed : ∀ e ∈ s.effects, ∀ w, e ∈ s.observed w
  /-- What a worker has seen is not lost on the way. -/
  reported : ∀ w, ∀ e ∈ s.observed w, e ∈ (s.workers w).completedStoreEvents.keys ∨
    (∃ r ∈ s.reports, (w, e) ∈ r.parts) ∨ (w, e) ∈ s.delivered
  /-- When the reports of all workers are in, the event has taken effect and no count is left. -/
  settled : ∀ e, (∀ w, (w, e) ∈ s.delivered) → e ∈ s.effects ∧
    s.connector.pendingStoreEvents.get? e = none ∧ s.connector.storeEventPendingCounts.get? e = none

variable {cfg : ConnectorConfig} {dev : Device μ φ ν S} {s : Protocol cfg.worldSize μ σ}

theorem ProtocolInv.mem_delivered (h : ProtocolInv cfg dev s) {e : Nat}
    (hall : cfg.worldSize ≤ completions s.delivered e)
    (w : Fin cfg.worldSize) : (w, e) ∈ s.delivered := by
  have hle : ∀ w' : Fin cfg.worldSize, s.delivered.count (w', e) ≤ 1 := by
    intro w'
    have hparts := h.count_le w' e
    rw [Protocol.parts, List.count_append] at hparts
    omega
  by_contra hout
  have hlt : completions s.delivered e < ∑ _w' : Fin cfg.worldSize, 1 :=
    Finset.sum_lt_sum (fun w' _ => hle w')
      ⟨w, Finset.mem_univ w, by rw [List.count_eq_zero_of_not_mem hout]; exact Nat.one_pos⟩
  rw [Finset.sum_const, Finset.card_univ, Fintype.card_fin, smul_eq_mul, mul_one] at hlt
  omega

theorem ProtocolInv.completedOnce (hworkers : 0 < cfg.worldSize) (h : ProtocolInv cfg dev s) : CompletedOnce cfg s := by
  refine ⟨h.tallied.once, fun e he w => ?_, fun w e he => ?_, fun e hall => ?_⟩
  · cases h.tallied.booked e with
    | done _ _ _ _ htally =>
        exact h.observed_of_mem (List.mem_append_left _ (h.mem_delivered htally.ge w))
    | unflushed _ _ _ hout _ => exact absurd he hout
    | waiting _ _ _ hout _ => exact absurd he hout
  · have hhanded := h.handed w e
    rw [if_pos he] at hhanded
    by_cases hkeys : e ∈ (s.workers w).completedStoreEvents.keys
    · exact Or.inl hkeys
    · rw [if_neg hkeys] at hhanded
      have hmem : (w, e) ∈ s.delivered ++ s.reports.flatMap (·.parts) := by
        apply List.count_pos_iff.mp
        show 0 < s.parts.count (w, e)
        omega
      rcases List.mem_append.mp hmem with hdelivered | hreport
      · exact Or.inr (Or.inr hdelivered)
      · exact Or.inr (Or.inl (List.mem_flatMap.mp hreport))
  · have hcount : ∀ w, 1 ≤ s.delivered.count (w, e) := fun w => List.count_pos_iff.mpr (hall w)
    have hsum : cfg.worldSize ≤ completions s.delivered e := by
      calc cfg.worldSize = ∑ _w : Fin cfg.worldSize, 1 := by
            rw [Finset.sum_const, Finset.card_univ, Fintype.card_fin, smul_eq_mul, mul_one]
        _ ≤ completions s.delivered e := Finset.sum_le_sum fun w _ => hcount w
    cases h.tallied.booked e with
    | done _ hpending hcounts hin _ => exact ⟨hin, hpending, hcounts⟩
    | unflushed _ _ _ _ htally => omega
    | waiting _ _ _ _ htally => omega

/-- In every interleaving of scheduler steps, recordings, polls, reports, aggregations and deliveries. -/
theorem store_events_complete_once (cfg : ConnectorConfig) (dev : Device μ φ ν S) (scorer : BlockScorer σ ν S) (x : σ)
    (mem : μ) (pool : BlockPool) (hworkers : 0 < cfg.worldSize) (ops : List (ProtocolOp cfg.worldSize μ)) :
    CompletedOnce cfg
      (run (protocolStep cfg dev scorer) (Protocol.init cfg.worldSize (Connector.init cfg x mem pool)) ops) := by
  have hstep : ∀ (s : Protocol cfg.worldSize μ σ) (op : ProtocolOp cfg.worldSize μ), ProtocolInv cfg dev s → True →
      ProtocolInv cfg dev (protocolStep cfg dev scorer s op) := fun s op h _ => h.step hworkers op
  have hops : Along (protocolStep cfg dev scorer) (fun _ _ => True)
      (Protocol.init cfg.worldSize (Connector.init cfg x mem pool)) ops :=
    along_of_forall_mem (fun _ _ => True.intro) _
  have hrun := run_invariant hstep (protocolInv_init x mem pool) hops
  exact hrun.completedOnce hworkers

/-- Sets of small numbers in ascending order. -/
def ascending : SetOrder where
  toList s := (List.range (s.sup id + 1)).filter (· ∈ s)
  nodup s := List.nodup_range.filter _
  mem_toList s x := by
    rw [List.mem_filter, List.mem_range, decide_eq_true_iff]
    exact and_iff_right_of_imp fun hx => Nat.lt_succ_of_le (Finset.le_sup (f := id) hx)

def twoWorkers : ConnectorConfig := { smallConnectorConfig with worldSize := 2 }

def workerA : Fin 2 := ⟨0, Nat.two_pos⟩

def workerB : Fin 2 := ⟨1, Nat.one_lt_two⟩

/-- Two workers record the event of a prefill; the second one sees it complete first, and the reports
meet on the way. -/
def completionScenario : List (ProtocolOp 2 SmallMemory) :=
  [.vllm ((BlockPool.init 9 true).touch [1, 2]) (OrderedDict.empty.set requestA [1, 2]),
    .build ⟨[⟨requestA, [1, 2], 0, 4⟩], [], fun _ => 4⟩,
    .build ⟨[], [⟨requestA, 4, none, false⟩], fun _ => 1⟩,
    .waitForSave workerA, .waitForSave workerA, .waitForSave workerB, .waitForSave workerB, .cudaDone workerB 0,
    .getFinished workerA ascending, .getFinished workerB ascending, .buildWorkerMeta workerB, .cudaDone workerA 0,
    .getFinished workerA ascending, .buildWorkerMeta workerA, .aggregate 1 0, .deliver 0]

theorem store_events_complete_once_completionScenario :
    let s := run (protocolStep twoWorkers (combinedDevice steadyRuntime) lruScorer)
      (Protocol.init 2 (Connector.init twoWorkers ⟨.empty, 0⟩ blankMemory (BlockPool.init 9 true))) completionScenario
    s.effects.Nodup ∧ 0 ∈ s.effects ∧ (∀ w, 0 ∈ s.observed w) ∧
      s.connector.storeEventPendingCounts.get? 0 = none := by
  intro s
  have hs : CompletedOnce twoWorkers s := store_events_complete_once twoWorkers (combinedDevice steadyRuntime) lruScorer
    ⟨.empty, 0⟩ blankMemory (BlockPool.init 9 true) (by decide) completionScenario
  obtain ⟨hin, -, hcounts⟩ := hs.settled 0 (by decide +kernel)
  exact ⟨hs.once, hin, hs.observed 0 hin, hcounts⟩

end Runs

end KVOffload

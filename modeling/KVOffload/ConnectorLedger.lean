import KVOffload.ConnectorRuns
import KVOffload.OrchestratorSlots

/-! No offloaded block is lost. What the passes of a run moved to the CPU is, block by block and in order,
what the store events list plus what waits in the accumulator. The one thing that can break the account
is a shadow pool that refuses blocks which are on the CPU by then. -/

namespace KVOffload
open Base

variable {μ φ ν σ S : Type} [LinearOrder S]

/-- The blocks of a batch with their pages. -/
def StoreBatch.entries (batch : StoreBatch) : List (BlockRef × Option Nat) :=
  batch.refs.zip (batch.gpuBlockIds.map some)

/-- Every block of the batch has one GPU page and one block of the shadow pool. -/
def StoreBatch.Shaped (batch : StoreBatch) : Prop :=
  batch.gpuBlockIds.length = batch.refs.length ∧ batch.cpuBlockIds.length = batch.refs.length

/-- The blocks the passes of a run moved, each with the GPU page it was on. -/
def movedBlocks (trace : List (TraceEvent μ σ)) : List (BlockRef × Option Nat) :=
  trace.flatMap fun
    | .offloaded before moved => moved.map fun ref => (ref, gpuPage before.orchestrator.store.residency ref)
    | _ => []

/-- The blocks the store events of a run list. -/
def flushedBlocks (trace : List (TraceEvent μ σ)) : List (BlockRef × Option Nat) :=
  trace.flatMap fun
    | .flushed _ batch => batch.entries
    | _ => []

def flushedEvents (trace : List (TraceEvent μ σ)) : List Nat :=
  trace.filterMap fun
    | .flushed event _ => some event
    | _ => none

def finishedRequests (trace : List (TraceEvent μ σ)) : List RequestId :=
  trace.filterMap fun
    | .finished r => some r
    | _ => none

/-- The states in which the passes of a run were called. -/
def passStates (trace : List (TraceEvent μ σ)) : List (ConnectorState μ σ) :=
  trace.filterMap fun
    | .offloaded before _ => some before
    | _ => none

section Traces

variable (trace trace' : List (TraceEvent μ σ))

@[simp] theorem movedBlocks_append : movedBlocks (trace ++ trace') = movedBlocks trace ++ movedBlocks trace' :=
  List.flatMap_append

@[simp] theorem flushedBlocks_append : flushedBlocks (trace ++ trace') = flushedBlocks trace ++ flushedBlocks trace' :=
  List.flatMap_append

@[simp] theorem flushedEvents_append : flushedEvents (trace ++ trace') = flushedEvents trace ++ flushedEvents trace' :=
  List.filterMap_append

@[simp] theorem finishedRequests_append :
    finishedRequests (trace ++ trace') = finishedRequests trace ++ finishedRequests trace' :=
  List.filterMap_append

@[simp] theorem passStates_append : passStates (trace ++ trace') = passStates trace ++ passStates trace' :=
  List.filterMap_append

end Traces

section Batches

theorem StoreBatch.join_shaped {batches : List StoreBatch} (h : ∀ batch ∈ batches, batch.Shaped) :
    (StoreBatch.join batches).Shaped := by
  induction batches with
  | nil => exact ⟨rfl, rfl⟩
  | cons batch rest ih =>
      have hbatch := h batch List.mem_cons_self
      have hrest := ih fun b hb => h b (List.mem_cons_of_mem batch hb)
      constructor
      · calc (batch.gpuBlockIds ++ rest.flatMap (·.gpuBlockIds)).length
            = batch.gpuBlockIds.length + (rest.flatMap (·.gpuBlockIds)).length := List.length_append
          _ = batch.refs.length + (rest.flatMap (·.refs)).length := congrArg₂ _ hbatch.1 hrest.1
          _ = (batch.refs ++ rest.flatMap (·.refs)).length := List.length_append.symm
      · calc (batch.cpuBlockIds ++ rest.flatMap (·.cpuBlockIds)).length
            = batch.cpuBlockIds.length + (rest.flatMap (·.cpuBlockIds)).length := List.length_append
          _ = batch.refs.length + (rest.flatMap (·.refs)).length := congrArg₂ _ hbatch.2 hrest.2
          _ = (batch.refs ++ rest.flatMap (·.refs)).length := List.length_append.symm

/-- Joining the batches of a step keeps every block next to its page. -/
theorem StoreBatch.entries_join {batches : List StoreBatch} (h : ∀ batch ∈ batches, batch.Shaped) :
    (StoreBatch.join batches).entries = batches.flatMap StoreBatch.entries := by
  induction batches with
  | nil => rfl
  | cons batch rest ih =>
      have hlen : batch.refs.length = (batch.gpuBlockIds.map some).length := by
        rw [List.length_map, (h batch List.mem_cons_self).1]
      calc (batch.refs ++ rest.flatMap (·.refs)).zip ((batch.gpuBlockIds ++ rest.flatMap (·.gpuBlockIds)).map some)
          = batch.entries ++ (StoreBatch.join rest).entries := by
            rw [List.map_append, List.zip_append hlen]
            rfl
        _ = batch.entries ++ rest.flatMap StoreBatch.entries := by
            rw [ih fun b hb => h b (List.mem_cons_of_mem batch hb)]

/-- The pages on record for blocks on the GPU are the pages they are on. -/
theorem zip_recordedPages {t : ResidencyTable} {refs : List BlockRef} (h : ∀ ref ∈ refs, (gpuPage t ref).isSome) :
    refs.zip ((recordedPages t refs).map some) = refs.map fun ref => (ref, gpuPage t ref) := by
  induction refs with
  | nil => rfl
  | cons ref rest ih =>
      obtain ⟨page, hpage⟩ := Option.isSome_iff_exists.mp (h ref List.mem_cons_self)
      obtain ⟨loc, hget, -, hloc⟩ := gpuPage_eq_some.mp hpage
      have hcons : recordedPages t (ref :: rest) = page :: recordedPages t rest := by
        simp [recordedPages, hget, hloc]
      rw [hcons, List.map_cons, List.zip_cons_cons, List.map_cons, hpage,
        ih fun x hx => h x (List.mem_cons_of_mem ref hx)]

end Batches

/-- Where the blocks are that passes have moved: off the GPU until their request is finished, and if a
batch lists a block, a pass has moved it. -/
structure Account (c : Connector μ σ) : Prop where
  gone : ∀ ref ∈ (movedBlocks c.trace).map Prod.fst,
    c.place ref = .parked ∨ c.place ref = .absent ∧ ref.requestId ∈ finishedRequests c.trace
  once : ((movedBlocks c.trace).map Prod.fst).Nodup
  waiting : ∀ batch ∈ c.stepStoreAcc, ∀ ref ∈ batch.refs, ref ∈ (movedBlocks c.trace).map Prod.fst
  pending : ∀ event batch, c.pendingStoreEvents.get? event = some batch →
    ∀ ref ∈ batch.refs, ref ∈ (movedBlocks c.trace).map Prod.fst

/-- What was moved is what was flushed and what waits, under increasing event numbers. -/
structure Ledger (c : Connector μ σ) : Prop where
  listed : movedBlocks c.trace = flushedBlocks c.trace ++ c.stepStoreAcc.flatMap StoreBatch.entries
  ordered : (flushedEvents c.trace).Pairwise (· < ·)
  numbered : ∀ event ∈ flushedEvents c.trace, event < c.storeEventCounter
  shaped : ∀ batch ∈ c.stepStoreAcc, batch.Shaped
  flushedShaped : ∀ event batch, .flushed event batch ∈ c.trace → batch.Shaped

/-- A part that moves and flushes nothing, and puts no block back onto the GPU that was moved. -/
structure Idle (c c' : Connector μ σ) : Prop where
  trace : ∃ ext, c'.trace = c.trace ++ ext ∧ ∀ e ∈ ext, (∃ r n, e = .reported r n) ∨ ∃ r n, e = .decoded r n
  acc : c'.stepStoreAcc = c.stepStoreAcc
  counter : c'.storeEventCounter = c.storeEventCounter
  pending : c'.pendingStoreEvents = c.pendingStoreEvents
  parked : ∀ ref, c.place ref = .parked → c'.place ref = .parked
  absent : ∀ ref, ref.requestId ∈ finishedRequests c.trace → c.place ref = .absent → c'.place ref = .absent
  tick_le : c.tick ≤ c'.tick

/-- Two traces that agree in what was moved and flushed. -/
structure SameEvents (trace trace' : List (TraceEvent μ σ)) : Prop where
  moved : movedBlocks trace' = movedBlocks trace
  flushed : flushedBlocks trace' = flushedBlocks trace
  events : flushedEvents trace' = flushedEvents trace
  batches : ∀ event batch, .flushed event batch ∈ trace' → .flushed event batch ∈ trace

theorem sameEvents_refl (trace : List (TraceEvent μ σ)) : SameEvents trace trace :=
  ⟨rfl, rfl, rfl, fun _ _ h => h⟩

/-- Events of a kind that neither moves nor flushes. -/
theorem sameEvents_append {trace ext : List (TraceEvent μ σ)}
    (h : ∀ e ∈ ext, (∃ r n, e = .reported r n) ∨ (∃ r n, e = .decoded r n) ∨ ∃ r, e = .finished r) :
    SameEvents trace (trace ++ ext) := by
  have hmoved : movedBlocks ext = [] := by
    refine List.flatMap_eq_nil_iff.mpr fun e he => ?_
    rcases h e he with ⟨r, n, rfl⟩ | ⟨r, n, rfl⟩ | ⟨r, rfl⟩ <;> rfl
  have hflushed : flushedBlocks ext = [] := by
    refine List.flatMap_eq_nil_iff.mpr fun e he => ?_
    rcases h e he with ⟨r, n, rfl⟩ | ⟨r, n, rfl⟩ | ⟨r, rfl⟩ <;> rfl
  have hevents : flushedEvents ext = [] := by
    refine List.filterMap_eq_nil_iff.mpr fun e he => ?_
    rcases h e he with ⟨r, n, rfl⟩ | ⟨r, n, rfl⟩ | ⟨r, rfl⟩ <;> rfl
  refine ⟨?_, ?_, ?_, fun event batch hmem => (List.mem_append.mp hmem).resolve_right fun hext => ?_⟩
  · rw [movedBlocks_append, hmoved, List.append_nil]
  · rw [flushedBlocks_append, hflushed, List.append_nil]
  · rw [flushedEvents_append, hevents, List.append_nil]
  · rcases h _ hext with ⟨r, n, heq⟩ | ⟨r, n, heq⟩ | ⟨r, heq⟩ <;> cases heq

section LedgerSteps

variable {cfg : ConnectorConfig} {dev : Device μ φ ν S} {c c' : Connector μ σ} {failed : Prop}

/-- The account is about the placements, the batches and the blocks moved. -/
theorem Account.of_sameEvents (h : Account c) (hevents : SameEvents c.trace c'.trace)
    (hacc : c'.stepStoreAcc = c.stepStoreAcc)
    (hpending : ∀ event batch, c'.pendingStoreEvents.get? event = some batch →
      c.pendingStoreEvents.get? event = some batch)
    (hgone : ∀ ref, c.place ref = .parked ∨ c.place ref = .absent ∧ ref.requestId ∈ finishedRequests c.trace →
      c'.place ref = .parked ∨ c'.place ref = .absent ∧ ref.requestId ∈ finishedRequests c'.trace) : Account c' := by
  refine ⟨?_, ?_, ?_, ?_⟩
  · rw [hevents.moved]
    exact fun ref href => hgone ref (h.gone ref href)
  · rw [hevents.moved]
    exact h.once
  · rw [hevents.moved, hacc]
    exact h.waiting
  · rw [hevents.moved]
    exact fun event batch hget => h.pending event batch (hpending event batch hget)

theorem Ledger.of_sameEvents (h : Ledger c) (hevents : SameEvents c.trace c'.trace)
    (hacc : c'.stepStoreAcc = c.stepStoreAcc) (hcounter : c'.storeEventCounter = c.storeEventCounter) : Ledger c' := by
  refine ⟨?_, ?_, ?_, ?_, fun event batch hmem => h.flushedShaped event batch (hevents.batches event batch hmem)⟩
  · rw [hevents.moved, hevents.flushed, hacc]
    exact h.listed
  · rw [hevents.events]
    exact h.ordered
  · rw [hevents.events, hcounter]
    exact h.numbered
  · rw [hacc]
    exact h.shaped

theorem Idle.sameEvents (h : Idle c c') : SameEvents c.trace c'.trace := by
  obtain ⟨ext, htrace, hext⟩ := h.trace
  rw [htrace]
  exact sameEvents_append fun e he => (hext e he).imp_right Or.inl

theorem Idle.finishedRequests (h : Idle c c') : finishedRequests c'.trace = finishedRequests c.trace := by
  obtain ⟨ext, htrace, hext⟩ := h.trace
  have hnone : KVOffload.finishedRequests ext = [] := by
    refine List.filterMap_eq_nil_iff.mpr fun e he => ?_
    rcases hext e he with ⟨r, n, rfl⟩ | ⟨r, n, rfl⟩ <;> rfl
  rw [htrace, finishedRequests_append, hnone, List.append_nil]

theorem Idle.account (h : Idle c c') (hacc : Account c) : Account c' := by
  refine hacc.of_sameEvents h.sameEvents h.acc (fun event batch hget => by rwa [h.pending] at hget) fun ref hgone => ?_
  rw [h.finishedRequests]
  exact hgone.imp (h.parked ref) fun hfinished => ⟨h.absent ref hfinished.2 hfinished.1, hfinished.2⟩

theorem Idle.ledger (h : Idle c c') (hledger : Ledger c) : Ledger c' :=
  hledger.of_sameEvents h.sameEvents h.acc h.counter

/-- A step that writes neither the trace nor the batches. -/
theorem Idle.of_state {o : Orchestrator μ σ} {controller : Controller} {loadEventCounter : Nat}
    {prefillCompleted : Finset RequestId} {promptLens : OrderedDict RequestId Nat}
    {reqBlockTable : OrderedDict RequestId (List Nat)}
    (hstate : c' = { c with
      orchestrator := o
      controller := controller
      loadEventCounter := loadEventCounter
      prefillCompleted := prefillCompleted
      promptLens := promptLens
      reqBlockTable := reqBlockTable })
    (htick : c.tick ≤ c'.tick) (hparked : ∀ ref, c.place ref = .parked → c'.place ref = .parked)
    (habsent : ∀ ref, ref.requestId ∈ KVOffload.finishedRequests c.trace → c.place ref = .absent →
      c'.place ref = .absent) :
    Idle c c' := by
  subst hstate
  exact ⟨⟨[], (List.append_nil _).symm, nofun⟩, rfl, rfl, rfl, hparked, habsent, htick⟩

theorem SyncStep.idle {r : RequestId} {ids : List Nat} {n : Nat} (hstep : SyncStep cfg dev r ids n c failed c')
    (hr : r ∉ finishedRequests c.trace) : Idle c c' := by
  refine .of_state hstep.state hstep.tick_le (fun ref hplace => ?_) fun ref hfinished hplace => ?_
  · rcases hstep.place_cases ref with ⟨hsame, -⟩ | ⟨i, page, -, -, -, hbound⟩
    · rw [hsame, hplace]
    · rw [hbound, Placement.bound_eq_parked, hplace]
  · rcases hstep.place_cases ref with ⟨hsame, -⟩ | ⟨i, page, rfl, -⟩
    · rw [hsame, hplace]
    · exact absurd hfinished hr

theorem GraduateStep.idle {r : RequestId} {n : Nat} (hstep : GraduateStep cfg dev r n c failed c') : Idle c c' := by
  refine .of_state hstep.state hstep.tick_le (fun ref hplace => ?_) fun ref _ hplace => ?_
  · rw [hstep.place ref, hplace]
    split_ifs <;> rfl
  · rw [hstep.place ref, hplace]
    split_ifs <;> rfl

theorem Started.idle {req : NewRequestData} (hstep : Started req c c') : Idle c c' := by
  refine .of_state hstep.state (by rw [hstep.state]; exact le_rfl) ?_ ?_
  · rw [hstep.place]
    exact fun _ hplace => hplace
  · rw [hstep.place]
    exact fun _ _ hplace => hplace

theorem Counted.idle {r : RequestId} (hstep : Counted r c c') : Idle c c' := by
  have htrace : ∃ ext, c'.trace = c.trace ++ ext ∧ ∀ e ∈ ext, (∃ r n, e = .reported r n) ∨ ∃ r n, e = .decoded r n := by
    rcases hstep.trace with hsame | ⟨-, n, happend⟩
    · exact ⟨[], by rw [hsame, List.append_nil], nofun⟩
    · exact ⟨_, happend, fun e he => Or.inr ⟨r, n, List.mem_singleton.mp he⟩⟩
  refine ⟨htrace, by rw [hstep.state], by rw [hstep.state], by rw [hstep.state], ?_,
    ?_, by rw [hstep.state]; exact le_rfl⟩
  · rw [hstep.place]
    exact fun _ hplace => hplace
  · rw [hstep.place]
    exact fun _ _ hplace => hplace

theorem StageStep.idle (hstep : StageStep cfg dev c failed c') : Idle c c' := by
  refine .of_state hstep.state hstep.tick_le ?_ ?_
  · rw [hstep.place]
    exact fun _ hplace => hplace
  · rw [hstep.place]
    exact fun _ _ hplace => hplace

/-- What a pass adds to the account of moved blocks, whether or not it got as far as the call. -/
theorem TriggerStep.movedBlocks {moved : List BlockRef} (h : TriggerStep cfg dev c moved failed c') :
    movedBlocks c'.trace =
      movedBlocks c.trace ++ moved.map fun ref => (ref, gpuPage c.orchestrator.store.residency ref) := by
  rcases h.trace with ⟨hnone, htrace⟩ | ⟨before, hbefore, htrace⟩
  · rw [htrace, hnone, List.map_nil, List.append_nil]
  · have htable : before.orchestrator.store.residency = c.orchestrator.store.residency := by rw [hbefore]
    rw [htrace, movedBlocks_append, ← htable]
    simp [KVOffload.movedBlocks]

/-- The blocks a pass moves were on the GPU, so no earlier pass moved them. -/
theorem TriggerStep.fresh {moved : List BlockRef} (h : TriggerStep cfg dev c moved failed c') (hacc : Account c) :
    ∀ ref ∈ moved, ref ∉ (KVOffload.movedBlocks c.trace).map Prod.fst := by
  intro ref href hmoved
  obtain ⟨page, hplace⟩ := mem_allowedBlocks (h.allowed ref href)
  rcases hacc.gone ref hmoved with hparked | ⟨habsent, -⟩
  · rw [hparked] at hplace
    cases hplace
  · rw [habsent] at hplace
    cases hplace

theorem TriggerStep.finishedRequests {moved : List BlockRef} (h : TriggerStep cfg dev c moved failed c') :
    finishedRequests c'.trace = finishedRequests c.trace := by
  rcases h.trace with ⟨-, htrace⟩ | ⟨before, -, htrace⟩
  · rw [htrace]
  · rw [htrace, finishedRequests_append]
    exact List.append_nil _

theorem TriggerStep.account {moved : List BlockRef} (h : TriggerStep cfg dev c moved failed c') (hacc : Account c) :
    Account c' := by
  have hrefs :
      (KVOffload.movedBlocks c'.trace).map Prod.fst = (KVOffload.movedBlocks c.trace).map Prod.fst ++ moved := by
    rw [h.movedBlocks, List.map_append, List.map_map]
    exact congrArg _ (List.map_id moved)
  have hold : ∀ ref ∈ (KVOffload.movedBlocks c.trace).map Prod.fst,
      ref ∈ (KVOffload.movedBlocks c'.trace).map Prod.fst := by
    intro ref href
    rw [hrefs]
    exact List.mem_append_left _ href
  have hpending : c'.pendingStoreEvents = c.pendingStoreEvents := by rw [h.state]
  refine ⟨fun ref href => ?_, ?_, fun batch hbatch ref href => ?_, fun event batch hget ref href => ?_⟩
  · rw [h.place ref, h.finishedRequests]
    by_cases hmem : ref ∈ moved
    · exact Or.inl (if_pos hmem)
    · rw [hrefs] at href
      rw [if_neg hmem]
      exact hacc.gone ref ((List.mem_append.mp href).resolve_right hmem)
  · rw [hrefs]
    exact List.nodup_append.mpr ⟨hacc.once, h.nodup, fun ref hold ref' hnew heq => h.fresh hacc ref' hnew (heq ▸ hold)⟩
  · by_cases hfailed : failed
    · rw [(h.refused hfailed).1] at hbatch
      exact hold ref (hacc.waiting batch hbatch ref href)
    · rcases h.queued hfailed with ⟨-, hsame⟩ | ⟨-, cpuBlockIds, requestIds, -, happend⟩
      · rw [hsame] at hbatch
        exact hold ref (hacc.waiting batch hbatch ref href)
      · rw [happend] at hbatch
        rcases List.mem_append.mp hbatch with hbatch | hbatch
        · exact hold ref (hacc.waiting batch hbatch ref href)
        · rw [List.mem_singleton.mp hbatch] at href
          rw [hrefs]
          exact List.mem_append_right _ href
  · rw [hpending] at hget
    exact hold ref (hacc.pending event batch hget ref href)

/-- What a pass that returned adds to the accumulator. -/
theorem TriggerStep.entries {moved : List BlockRef} (h : TriggerStep cfg dev c moved failed c') (hok : ¬failed) :
    c'.stepStoreAcc.flatMap StoreBatch.entries = c.stepStoreAcc.flatMap StoreBatch.entries ++
        moved.map (fun ref => (ref, gpuPage c.orchestrator.store.residency ref)) ∧
      ((∀ batch ∈ c.stepStoreAcc, batch.Shaped) → ∀ batch ∈ c'.stepStoreAcc, batch.Shaped) := by
  rcases h.queued hok with ⟨hnone, hacc⟩ | ⟨-, cpuBlockIds, requestIds, hlen, hacc⟩
  · rw [hacc, hnone, List.map_nil, List.append_nil]
    exact ⟨rfl, id⟩
  · rw [hacc]
    constructor
    · rw [List.flatMap_append, List.flatMap_singleton, StoreBatch.entries, zip_recordedPages h.gpu]
    · intro hshaped batch hbatch
      rcases List.mem_append.mp hbatch with hbatch | hbatch
      · exact hshaped batch hbatch
      · rw [List.mem_singleton.mp hbatch]
        exact ⟨h.pages_length, hlen⟩

theorem TriggerStep.flushed {moved : List BlockRef} (h : TriggerStep cfg dev c moved failed c') :
    flushedBlocks c'.trace = flushedBlocks c.trace ∧ flushedEvents c'.trace = flushedEvents c.trace ∧
      ∀ event batch, .flushed event batch ∈ c'.trace → .flushed event batch ∈ c.trace := by
  rcases h.trace with ⟨-, htrace⟩ | ⟨before, -, htrace⟩
  · rw [htrace]
    exact ⟨rfl, rfl, fun _ _ hmem => hmem⟩
  · rw [htrace, flushedBlocks_append, flushedEvents_append]
    refine ⟨List.append_nil _, List.append_nil _, fun event batch hmem => ?_⟩
    rcases List.mem_append.mp hmem with hmem | hmem
    · exact hmem
    · cases List.mem_singleton.mp hmem

theorem TriggerStep.ledger {moved : List BlockRef} (h : TriggerStep cfg dev c moved failed c') (hok : ¬failed)
    (hledger : Ledger c) : Ledger c' := by
  obtain ⟨hentries, hshaped⟩ := h.entries hok
  obtain ⟨hblocks, hevents, hflushed⟩ := h.flushed
  have hcounter : c'.storeEventCounter = c.storeEventCounter := by rw [h.state]
  refine ⟨?_, ?_, ?_, hshaped hledger.shaped,
    fun event batch hmem => hledger.flushedShaped event batch (hflushed event batch hmem)⟩
  · rw [h.movedBlocks, hblocks, hentries, hledger.listed, List.append_assoc]
  · rw [hevents]
    exact hledger.ordered
  · rw [hevents, hcounter]
    exact hledger.numbered

/-- A pass that failed before it moved anything leaves the ledger as it was. -/
theorem TriggerStep.ledger_of_nil (h : TriggerStep cfg dev c [] failed c') (hfailed : failed) (hledger : Ledger c) :
    Ledger c' := by
  obtain ⟨hblocks, hevents, hflushed⟩ := h.flushed
  have hcounter : c'.storeEventCounter = c.storeEventCounter := by rw [h.state]
  have hacc := (h.refused hfailed).1
  refine ⟨?_, ?_, ?_, ?_, fun event batch hmem => hledger.flushedShaped event batch (hflushed event batch hmem)⟩
  · rw [h.movedBlocks, hblocks, hacc, hledger.listed, List.map_nil, List.append_nil]
  · rw [hevents]
    exact hledger.ordered
  · rw [hevents, hcounter]
    exact hledger.numbered
  · rw [hacc]
    exact hledger.shaped

theorem opened_idle (cfg : ConnectorConfig) (out : SchedulerOutput) (c : Connector μ σ) :
    Idle c (opened cfg out c) := by
  refine ⟨⟨_, rfl, fun e he => ?_⟩, rfl, rfl, rfl, fun _ h => h, fun _ _ h => h, le_rfl⟩
  obtain ⟨report, -, rfl⟩ := List.mem_map.mp he
  exact Or.inl ⟨_, _, rfl⟩

theorem FlushPost.account (h : FlushPost c c') (hacc : Account c) : Account c' := by
  cases h with
  | idle _ => exact hacc
  | flush _ =>
      have hmoved : movedBlocks (c.trace ++ [.flushed c.storeEventCounter (StoreBatch.join c.stepStoreAcc)]) =
          movedBlocks c.trace := by
        rw [movedBlocks_append]
        exact List.append_nil _
      have hfinished : finishedRequests (c.trace ++ [.flushed c.storeEventCounter (StoreBatch.join c.stepStoreAcc)]) =
          finishedRequests c.trace := by
        rw [finishedRequests_append]
        exact List.append_nil _
      refine ⟨?_, ?_, fun batch hbatch => ?_, ?_⟩
      · simp only [hmoved, hfinished]
        exact hacc.gone
      · simp only [hmoved]
        exact hacc.once
      · cases hbatch
      · simp only [hmoved]
        intro event batch hget ref href
        rw [OrderedDict.get?_set] at hget
        split_ifs at hget
        · rw [← Option.some.inj hget] at href
          obtain ⟨batch', hbatch', href'⟩ := List.mem_flatMap.mp href
          exact hacc.waiting batch' hbatch' ref href'
        · exact hacc.pending event batch hget ref href

theorem FlushPost.tick (h : FlushPost c c') : c'.tick = c.tick := by
  cases h with
  | idle _ => rfl
  | flush _ => rfl

theorem FlushPost.stepStoreAcc (h : FlushPost c c') : c'.stepStoreAcc = [] := by
  cases h with
  | idle hempty => exact hempty
  | flush _ => rfl

theorem FlushPost.grows (h : FlushPost c c') : c.trace <+: c'.trace := by
  cases h with
  | idle _ => exact List.prefix_rfl
  | flush _ => exact List.prefix_append _ _

theorem FlushPost.finishedRequests (h : FlushPost c c') : finishedRequests c'.trace = finishedRequests c.trace := by
  cases h with
  | idle _ => rfl
  | flush _ =>
      rw [finishedRequests_append]
      exact List.append_nil _

/-- The flush moves the waiting blocks into the next event. -/
theorem FlushPost.ledger (h : FlushPost c c') (hledger : Ledger c) : Ledger c' := by
  cases h with
  | idle _ => exact hledger
  | flush _ =>
      refine ⟨?_, ?_, ?_, fun batch hbatch => ?_, fun event batch hmem => ?_⟩
      · calc movedBlocks (c.trace ++ [.flushed c.storeEventCounter (StoreBatch.join c.stepStoreAcc)])
            = movedBlocks c.trace := by
              rw [movedBlocks_append]
              exact List.append_nil _
          _ = flushedBlocks c.trace ++ (StoreBatch.join c.stepStoreAcc).entries := by
              rw [hledger.listed, StoreBatch.entries_join hledger.shaped]
          _ = flushedBlocks (c.trace ++ [.flushed c.storeEventCounter (StoreBatch.join c.stepStoreAcc)]) ++ [] := by
              rw [flushedBlocks_append, List.append_nil]
              exact congrArg _ (List.append_nil _).symm
      · simp only [flushedEvents_append]
        refine List.pairwise_append.mpr ⟨hledger.ordered, List.pairwise_singleton _ _, fun event hold event' hnew => ?_⟩
        rw [List.mem_singleton.mp hnew]
        exact hledger.numbered event hold
      · simp only [flushedEvents_append]
        intro event hevent
        rcases List.mem_append.mp hevent with hold | hnew
        · exact Nat.lt_succ_of_lt (hledger.numbered event hold)
        · rw [List.mem_singleton.mp hnew]
          exact Nat.lt_succ_self _
      · cases hbatch
      · rcases List.mem_append.mp hmem with hold | hnew
        · exact hledger.flushedShaped event batch hold
        · obtain ⟨-, rfl⟩ := TraceEvent.flushed.inj (List.mem_singleton.mp hnew)
          exact StoreBatch.join_shaped hledger.shaped

end LedgerSteps

/-- The states in which the passes between `c` and a later state `c'` were called. -/
def newPasses (c c' : Connector μ σ) : List (ConnectorState μ σ) := passStates (c'.trace.drop c.trace.length)

/-- The shadow pool had room in every pass between `c` and `c'`. -/
def Roomy (cfg : ConnectorConfig) (c c' : Connector μ σ) : Prop := ∀ before ∈ newPasses c c', Room cfg before

instance (cfg : ConnectorConfig) (c c' : Connector μ σ) : Decidable (Roomy cfg c c') :=
  inferInstanceAs (Decidable (∀ before ∈ newPasses c c', Room cfg before))

/-- A scoring pass or a fetch failed between `c` and a later state `c'`. -/
def Struck (dev : Device μ φ ν S) (c c' : Connector μ σ) : Prop :=
  StruckBetween (fun tick => dev.scoreFault tick = true ∨ (dev.fetchFault tick).isSome) c.tick c'.tick

instance (dev : Device μ φ ν S) (c c' : Connector μ σ) : Decidable (Struck dev c c') :=
  inferInstanceAs (Decidable (StruckBetween _ _ _))

/-- What a step that started in `c` keeps, whatever fails: the account; and as long as the shadow pool
has room, the ledger. -/
structure Accounted (cfg : ConnectorConfig) (c c' : Connector μ σ) : Prop where
  account : Account c'
  grows : c.trace <+: c'.trace
  finished : finishedRequests c'.trace = finishedRequests c.trace
  tick_le : c.tick ≤ c'.tick
  ledger : Ledger c → Roomy cfg c c' → Ledger c'

section BuildLedger

variable {cfg : ConnectorConfig} {dev : Device μ φ ν S} {scorer : BlockScorer σ ν S} {c c₁ c₂ : Connector μ σ}
  {failed : Prop}

theorem newPasses_append {ext : List (TraceEvent μ σ)} (hgrows : c.trace <+: c₁.trace)
    (htrace : c₂.trace = c₁.trace ++ ext) : newPasses c c₂ = newPasses c c₁ ++ passStates ext := by
  rw [newPasses, htrace, List.drop_append_of_le_length hgrows.length_le, passStates_append, newPasses]

theorem Roomy.of_grows (hgrows : c.trace <+: c₁.trace) (hgrows' : c₁.trace <+: c₂.trace) (h : Roomy cfg c c₂) :
    Roomy cfg c c₁ := by
  obtain ⟨ext, htrace⟩ := hgrows'
  intro before hbefore
  refine h before ?_
  rw [newPasses_append hgrows htrace.symm]
  exact List.mem_append_left _ hbefore

theorem Accounted.idle (h : Accounted cfg c c₁) (hidle : Idle c₁ c₂) : Accounted cfg c c₂ := by
  obtain ⟨ext, htrace, -⟩ := hidle.trace
  have hgrows : c₁.trace <+: c₂.trace := ⟨ext, htrace.symm⟩
  refine ⟨hidle.account h.account, h.grows.trans hgrows, hidle.finishedRequests.trans h.finished,
    h.tick_le.trans hidle.tick_le, fun hledger hroomy => ?_⟩
  exact hidle.ledger (h.ledger hledger (hroomy.of_grows h.grows hgrows))

theorem TriggerStep.grows {moved : List BlockRef} (h : TriggerStep cfg dev c₁ moved failed c₂) :
    c₁.trace <+: c₂.trace := by
  rcases h.trace with ⟨-, htrace⟩ | ⟨before, -, htrace⟩
  · rw [htrace]
  · exact ⟨_, htrace.symm⟩

/-- A pass that fails while the shadow pool has room moved nothing. -/
theorem TriggerStep.nil_of_roomy {moved : List BlockRef} (h : TriggerStep cfg dev c₁ moved failed c₂) (hfailed : failed)
    (hgrows : c.trace <+: c₁.trace) (hroomy : Roomy cfg c c₂) :
    moved = [] ∧ StruckBetween (dev.scoreFault · = true) c₁.tick c₂.tick := by
  rcases (h.refused hfailed).2 with hnone | ⟨before, hroom, htrace⟩
  · exact hnone
  · refine absurd (hroomy before ?_) hroom
    rw [newPasses_append hgrows htrace]
    exact List.mem_append_right _ List.mem_cons_self

theorem Accounted.trigger {moved : List BlockRef} (h : Accounted cfg c c₁)
    (htrigger : TriggerStep cfg dev c₁ moved failed c₂) :
    Accounted cfg c c₂ := by
  refine ⟨htrigger.account h.account, h.grows.trans htrigger.grows, htrigger.finishedRequests.trans h.finished,
    h.tick_le.trans htrigger.tick_le, fun hledger hroomy => ?_⟩
  have hledger₁ := h.ledger hledger (hroomy.of_grows h.grows htrigger.grows)
  by_cases hfailed : failed
  · obtain ⟨rfl, -⟩ := htrigger.nil_of_roomy hfailed h.grows hroomy
    exact htrigger.ledger_of_nil hfailed hledger₁
  · exact htrigger.ledger hfailed hledger₁

/-- A step that failed with room in the shadow pool met a fault of the device. -/
structure Interrupted (cfg : ConnectorConfig) (dev : Device μ φ ν S) (c c' : Connector μ σ) : Prop extends
    Accounted cfg c c' where
  fault : Roomy cfg c c' → Struck dev c c'

/-- A part that moves nothing, with the fault it failed by. -/
theorem Accounted.ends_idle (h : Accounted cfg c c₁) (hidle : Idle c₁ c₂) {fault : Nat → Prop}
    (himp : ∀ tick, fault tick → dev.scoreFault tick = true ∨ (dev.fetchFault tick).isSome)
    (hfault : failed → StruckBetween fault c₁.tick c₂.tick) :
    Ends failed (Interrupted cfg dev c) (Accounted cfg c) c₂ :=
  ⟨fun hfailed => ⟨h.idle hidle, fun _ => (hfault hfailed).mono h.tick_le himp⟩, fun _ => h.idle hidle⟩

theorem Accounted.ends_trigger {moved : List BlockRef} (h : Accounted cfg c c₁)
    (htrigger : TriggerStep cfg dev c₁ moved failed c₂) :
    Ends failed (Interrupted cfg dev c) (Accounted cfg c) c₂ := by
  refine ⟨fun hfailed => ⟨h.trigger htrigger, fun hroomy => ?_⟩, fun _ => h.trigger htrigger⟩
  exact (htrigger.nil_of_roomy hfailed h.grows hroomy).2.mono h.tick_le fun _ => Or.inl

theorem Accounted.ends_graduate {r : RequestId} {n : Nat} (h : Accounted cfg c c₁)
    (hstep : GraduateStep cfg dev r n c₁ failed c₂) : Ends failed (Interrupted cfg dev c) (Accounted cfg c) c₂ :=
  h.ends_idle hstep.idle (fun _ => Or.inl) hstep.fault

theorem Accounted.ends_sync {r : RequestId} {ids : List Nat} {n : Nat} (h : Accounted cfg c c₁)
    (hr : r ∉ finishedRequests c.trace) (hstep : SyncStep cfg dev r ids n c₁ failed c₂) :
    Ends failed (Interrupted cfg dev c) (Accounted cfg c) c₂ :=
  h.ends_idle (hstep.idle (by rwa [h.finished])) (fun _ => Or.inl) hstep.fault

/-- The accounts are carried through a step that reads no request that is finished. -/
theorem carried_accounted {out : SchedulerOutput} (hacc : Account c)
    (hout : ∀ r ∈ out.ids, r ∉ finishedRequests c.trace) :
    Carried cfg dev out c (fun _ c₁ => Accounted cfg c c₁)
      (fun c' => Accounted cfg c c' ∧ c'.stepStoreAcc = []) (Interrupted cfg dev c) := by
  have hrefl : Accounted cfg c c := ⟨hacc, List.prefix_rfl, rfl, le_rfl, fun hledger _ => hledger⟩
  have hids : ∀ {r : RequestId} {c₁ c₂ : Connector μ σ} {ids : List Nat} {n : Nat} {failed : Prop}, r ∈ out.ids →
      Accounted cfg c c₁ → SyncStep cfg dev r ids n c₁ failed c₂ →
      Ends failed (Interrupted cfg dev c) (Accounted cfg c) c₂ :=
    fun hr h₁ hstep => h₁.ends_sync (hout _ hr) hstep
  refine ⟨hrefl.idle (opened_idle cfg out c), fun done req rest hsplit c₁ failed c₂ h₁ hpost => ?_,
    fun done req rest hsplit c₁ failed c₂ h₁ hpost => ?_, fun req _ c₁ failed c₂ h₁ hpost => ?_,
    fun c₁ failed c₂ h₁ hstage => ?_, fun c₁ c₂ h₁ hflush => ?_⟩
  · have hr : req.requestId ∈ out.ids := by
      rw [SchedulerOutput.ids, hsplit]
      simp
    exact hpost.elim h₁.sound (fun failed c' hsync => hids hr h₁.holds hsync)
      fun c' c'' _ h' hstarted => h'.idle hstarted.idle
  · have hr : req.requestId ∈ out.ids := by
      rw [SchedulerOutput.ids, hsplit]
      simp
    exact hpost.elim h₁.sound (fun failed c' hsync => hids hr h₁.holds hsync) (fun _ _ h' _ => h')
      (fun _ _ _ _ h' _ hgraduate => h'.ends_graduate hgraduate) (fun _ _ _ _ _ h' htrigger => h'.ends_trigger htrigger)
      fun _ _ _ h' hcounted => h'.idle hcounted.idle
  · exact hpost.elim h₁.sound h₁.holds (fun _ _ _ hgraduate => h₁.holds.ends_graduate hgraduate)
      fun _ _ _ _ _ h' htrigger => h'.ends_trigger htrigger
  · exact h₁.holds.ends_idle hstage.idle (fun _ => Or.inr) hstage.fault
  · refine ⟨⟨hflush.account h₁.holds.account, h₁.holds.grows.trans hflush.grows,
      hflush.finishedRequests.trans h₁.holds.finished, h₁.holds.tick_le.trans hflush.tick.ge,
      fun hledger hroomy => hflush.ledger ?_⟩, hflush.stepStoreAcc⟩
    exact h₁.holds.ledger hledger (hroomy.of_grows h₁.holds.grows hflush.grows)

end BuildLedger

section RunLedger

variable {cfg : ConnectorConfig} {dev : Device μ φ ν S} {scorer : BlockScorer σ ν S} {c c' : Connector μ σ}

theorem FinishStep.account {r : RequestId} (h : FinishStep cfg dev r c c') (hsound : Sound cfg dev c.toConnectorState)
    (hacc : Account c) : Account c' := by
  have htrace : c'.trace = c.trace ++ [.finished r] := by rw [h.state]
  have hfinished : finishedRequests c'.trace = finishedRequests c.trace ++ [r] := by
    rw [htrace, finishedRequests_append]
    rfl
  refine hacc.of_sameEvents ?_ (by rw [h.state]) (fun event batch hget => by rwa [h.state] at hget) fun ref hgone => ?_
  · rw [htrace]
    exact sameEvents_append fun e he => Or.inr (Or.inr ⟨r, List.mem_singleton.mp he⟩)
  · rw [h.place ref, hfinished]
    by_cases hlisted : ref ∈ listedBlocks c.orchestrator r
    · rw [if_pos hlisted, hsound.requestId_of_listed hlisted]
      exact Or.inr ⟨rfl, List.mem_append_right _ List.mem_cons_self⟩
    · rw [if_neg hlisted]
      exact hgone.imp_right fun hdone => ⟨hdone.1, List.mem_append_left _ hdone.2⟩

theorem FinishStep.ledger {r : RequestId} (h : FinishStep cfg dev r c c') (hledger : Ledger c) : Ledger c' := by
  have htrace : c'.trace = c.trace ++ [.finished r] := by rw [h.state]
  refine hledger.of_sameEvents ?_ (by rw [h.state]) (by rw [h.state])
  rw [htrace]
  exact sameEvents_append fun e he => Or.inr (Or.inr ⟨r, List.mem_singleton.mp he⟩)

theorem QuietStep.trace (h : QuietStep cfg dev c c') : c'.trace = c.trace := by rw [h.state]

theorem QuietStep.account (h : QuietStep cfg dev c c') (hacc : Account c)
    (hpending : ∀ event batch, c'.pendingStoreEvents.get? event = some batch →
      c.pendingStoreEvents.get? event = some batch) : Account c' := by
  refine hacc.of_sameEvents ?_ (by rw [h.state]) hpending fun ref hgone => ?_
  · rw [h.trace]
    exact sameEvents_refl _
  · rw [h.place, h.trace]
    exact hgone

theorem QuietStep.ledger (h : QuietStep cfg dev c c') (hledger : Ledger c) : Ledger c' := by
  refine hledger.of_sameEvents ?_ (by rw [h.state]) (by rw [h.state])
  rw [h.trace]
  exact sameEvents_refl _

/-- Completions only take events off the pending ones. -/
theorem pending_of_countCompletion {c : ConnectorState μ σ} {e : Nat × Nat} {event : Nat} {batch : StoreBatch}
    (h : (countCompletion cfg c e).pendingStoreEvents.get? event = some batch) :
    c.pendingStoreEvents.get? event = some batch := by
  unfold countCompletion at h
  dsimp only at h
  split_ifs at h
  · rw [processStoreCompletion_pending, OrderedDict.get?_erase] at h
    split_ifs at h
    exact h
  · exact h

theorem pending_of_update {completed : List (Nat × Nat)} {event : Nat} {batch : StoreBatch}
    (h : (connectorStep cfg dev scorer c (.update completed)).pendingStoreEvents.get? event = some batch) :
    c.pendingStoreEvents.get? event = some batch := by
  rw [connectorStep, updateConnectorOutput] at h
  dsimp only at h
  generalize c.toConnectorState = s at h ⊢
  induction completed generalizing s with
  | nil => exact h
  | cons e rest ih => exact pending_of_countCompletion (ih (countCompletion cfg s e) h)

/-- The scheduler does not use the id of a finished request again. -/
def ConnectorOp.Fresh (c : Connector μ σ) : ConnectorOp μ → Prop
  | .build out => ∀ r ∈ out.ids, r ∉ finishedRequests c.trace
  | _ => True

instance (c : Connector μ σ) : (op : ConnectorOp μ) → Decidable (op.Fresh c)
  | .build out => inferInstanceAs (Decidable (∀ r ∈ out.ids, r ∉ finishedRequests c.trace))
  | .update _ => inferInstanceAs (Decidable True)
  | .finished _ => inferInstanceAs (Decidable True)
  | .vllm _ _ => inferInstanceAs (Decidable True)
  | .worker _ => inferInstanceAs (Decidable True)

/-- What holds in every state of a run in which no id is used again. -/
structure Kept (cfg : ConnectorConfig) (dev : Device μ φ ν S) (c : Connector μ σ) : Prop where
  sound : Sound cfg dev c.toConnectorState
  account : Account c

theorem kept_init (cfg : ConnectorConfig) (dev : Device μ φ ν S) (x : σ) (mem : μ) (pool : BlockPool) :
    Kept cfg dev (Connector.init cfg x mem pool) := by
  refine ⟨sound_init cfg dev x mem pool, ⟨nofun, List.nodup_nil, nofun, fun event batch hget => ?_⟩⟩
  cases hget

/-- One operation: the account is kept, and so is the ledger if the shadow pool has room. -/
theorem Kept.step {op : ConnectorOp μ} (h : Kept cfg dev c) (hfresh : op.Fresh c) :
    Kept cfg dev (connectorStep cfg dev scorer c op) ∧
      (Ledger c → Roomy cfg c (connectorStep cfg dev scorer c op) → Ledger (connectorStep cfg dev scorer c op)) := by
  have hquiet : ∀ {c'}, QuietStep cfg dev c c' →
      (∀ event batch, c'.pendingStoreEvents.get? event = some batch →
        c.pendingStoreEvents.get? event = some batch) →
      Kept cfg dev c' ∧ (Ledger c → Roomy cfg c c' → Ledger c') := by
    intro c' hstep hpending
    exact ⟨⟨hstep.sound h.sound, hstep.account h.account hpending⟩, fun hledger _ => hstep.ledger hledger⟩
  cases op with
  | build out =>
      obtain ⟨hsound, hF | hE⟩ := build_step scorer h.sound (carried_accounted h.account hfresh)
      · exact ⟨⟨hsound, hF.1.account⟩, hF.1.ledger⟩
      · exact ⟨⟨hsound, hE.account⟩, hE.ledger⟩
  | update completed => exact hquiet (quietStep_update h.sound completed) fun _ _ => pending_of_update
  | finished r =>
      have hstep : FinishStep cfg dev r c (connectorStep cfg dev scorer c (.finished r)) := finishStep h.sound r
      exact ⟨⟨hstep.sound h.sound, hstep.account h.sound h.account⟩, fun hledger _ => hstep.ledger hledger⟩
  | vllm pool tables => exact hquiet (quietStep_vllm h.sound pool tables) fun _ _ hget => hget
  | worker op => exact hquiet (quietStep_worker h.sound op) fun _ _ hget => hget

theorem Kept.build_finished (scorer : BlockScorer σ ν S) (h : Kept cfg dev c) {out : SchedulerOutput}
    (hfresh : ∀ r ∈ out.ids, r ∉ finishedRequests c.trace) :
    finishedRequests (connectorStep cfg dev scorer c (.build out)).trace = finishedRequests c.trace := by
  obtain ⟨-, hF | hE⟩ := build_step scorer h.sound (carried_accounted h.account hfresh)
  · exact hF.1.finished
  · exact hE.finished

end RunLedger

/-- Every block that was moved is listed once, next to its page and a block of the shadow pool, in the
events flushed so far or in the accumulator, and events are numbered in order. -/
structure NothingLost (c : Connector μ σ) : Prop where
  listed : movedBlocks c.trace = flushedBlocks c.trace ++ c.stepStoreAcc.flatMap StoreBatch.entries
  once : ((movedBlocks c.trace).map Prod.fst).Nodup
  ordered : (flushedEvents c.trace).Pairwise (· < ·)
  shaped : ∀ event batch, .flushed event batch ∈ c.trace → batch.Shaped

/-- A step from `c` to `c'` has flushed what earlier steps moved; and what it moved itself, unless a scoring
pass or a fetch of its own failed. -/
structure FlushedInTime (dev : Device μ φ ν S) (c c' : Connector μ σ) : Prop where
  earlier : movedBlocks c.trace <+: flushedBlocks c'.trace
  own : ¬Struck dev c c' → flushedBlocks c'.trace = movedBlocks c'.trace

/-- A step that finds batches waiting is not cut short by the device. -/
def ConnectorOp.Unhindered (cfg : ConnectorConfig) (dev : Device μ φ ν S) (scorer : BlockScorer σ ν S)
    (c : Connector μ σ) : ConnectorOp μ → Prop
  | .build out => c.stepStoreAcc ≠ [] → ¬Struck dev c (connectorStep cfg dev scorer c (.build out))
  | _ => True

instance (cfg : ConnectorConfig) (dev : Device μ φ ν S) (scorer : BlockScorer σ ν S) (c : Connector μ σ) :
    (op : ConnectorOp μ) → Decidable (op.Unhindered cfg dev scorer c)
  | .build out =>
      inferInstanceAs (Decidable (c.stepStoreAcc ≠ [] → ¬Struck dev c (connectorStep cfg dev scorer c (.build out))))
  | .update _ => inferInstanceAs (Decidable True)
  | .finished _ => inferInstanceAs (Decidable True)
  | .vllm _ _ => inferInstanceAs (Decidable True)
  | .worker _ => inferInstanceAs (Decidable True)

/-- No finished request's id is used again, no pass asks the shadow pool for more than it has, and no two
steps in a row are cut short while batches wait. -/
structure ConnectorOp.KeepsLedger (cfg : ConnectorConfig) (dev : Device μ φ ν S) (scorer : BlockScorer σ ν S)
    (c : Connector μ σ) (op : ConnectorOp μ) : Prop where
  fresh : op.Fresh c
  roomy : Roomy cfg c (connectorStep cfg dev scorer c op)
  unhindered : op.Unhindered cfg dev scorer c

instance (cfg : ConnectorConfig) (dev : Device μ φ ν S) (scorer : BlockScorer σ ν S) (c : Connector μ σ)
    (op : ConnectorOp μ) : Decidable (op.KeepsLedger cfg dev scorer c) :=
  decidable_of_iff (op.Fresh c ∧ Roomy cfg c (connectorStep cfg dev scorer c op) ∧ op.Unhindered cfg dev scorer c)
    ⟨fun h => ⟨h.1, h.2.1, h.2.2⟩, fun h => ⟨h.fresh, h.roomy, h.unhindered⟩⟩

theorem movedBlocks_mono {trace trace' : List (TraceEvent μ σ)} (h : trace <+: trace') :
    movedBlocks trace <+: movedBlocks trace' := by
  obtain ⟨ext, rfl⟩ := h
  rw [movedBlocks_append]
  exact List.prefix_append _ _

theorem flushedBlocks_mono {trace trace' : List (TraceEvent μ σ)} (h : trace <+: trace') :
    flushedBlocks trace <+: flushedBlocks trace' := by
  obtain ⟨ext, rfl⟩ := h
  rw [flushedBlocks_append]
  exact List.prefix_append _ _

theorem Ledger.flushed_of_empty {c : Connector μ σ} (h : Ledger c) (hempty : c.stepStoreAcc = []) :
    flushedBlocks c.trace = movedBlocks c.trace := by
  rw [h.listed, hempty]
  exact (List.append_nil _).symm

theorem Ledger.flushedInTime {cfg : ConnectorConfig} {dev : Device μ φ ν S} (scorer : BlockScorer σ ν S)
    {c : Connector μ σ} (hledger : Ledger c) (hkept : Kept cfg dev c) {out : SchedulerOutput}
    (hop : ConnectorOp.KeepsLedger cfg dev scorer c (.build out)) :
    FlushedInTime dev c (connectorStep cfg dev scorer c (.build out)) := by
  obtain ⟨-, hF | hE⟩ := build_step scorer hkept.sound (carried_accounted hkept.account hop.fresh)
  · -- the step ended with a flush
    have hflushed := (hF.1.ledger hledger hop.roomy).flushed_of_empty hF.2
    refine ⟨?_, fun _ => hflushed⟩
    rw [hflushed]
    exact movedBlocks_mono hF.1.grows
  · -- the step was cut short, so nothing waited when it began
    have hstruck := hE.fault hop.roomy
    have hempty : c.stepStoreAcc = [] := not_not.mp fun hne => hop.unhindered hne hstruck
    refine ⟨?_, fun hnot => absurd hstruck hnot⟩
    rw [← hledger.flushed_of_empty hempty]
    exact flushedBlocks_mono hE.grows

/-- No offload is lost in any state of a run, and every block is flushed by the step that moved it or by the
next one. -/
theorem nothing_lost (cfg : ConnectorConfig) (dev : Device μ φ ν S) (scorer : BlockScorer σ ν S) (x : σ) (mem : μ)
    (pool : BlockPool) {ops : List (ConnectorOp μ)}
    (hops : Along (connectorStep cfg dev scorer) (fun c op => op.KeepsLedger cfg dev scorer c)
      (Connector.init cfg x mem pool) ops) :
    (∀ done, done <+: ops → NothingLost (run (connectorStep cfg dev scorer) (Connector.init cfg x mem pool) done)) ∧
      Along (connectorStep cfg dev scorer)
        (fun c op => ∀ out, op = .build out → FlushedInTime dev c (connectorStep cfg dev scorer c op))
        (Connector.init cfg x mem pool) ops := by
  have hlost : ∀ c : Connector μ σ, Kept cfg dev c ∧ Ledger c → NothingLost c := fun c hc =>
    ⟨hc.2.listed, hc.1.account.once, hc.2.ordered, hc.2.flushedShaped⟩
  have hinit : Kept cfg dev (Connector.init cfg x mem pool) ∧ Ledger (Connector.init cfg x mem pool : Connector μ σ) :=
    ⟨kept_init cfg dev x mem pool, ⟨rfl, List.Pairwise.nil, nofun, nofun, nofun⟩⟩
  have hstep : ∀ (c : Connector μ σ) (op : ConnectorOp μ), Kept cfg dev c ∧ Ledger c → op.KeepsLedger cfg dev scorer c →
      Kept cfg dev (connectorStep cfg dev scorer c op) ∧ Ledger (connectorStep cfg dev scorer c op) := by
    intro c op hc hop
    obtain ⟨hkept, hledger⟩ := hc.1.step hop.fresh
    exact ⟨hkept, hledger hc.2 hop.roomy⟩
  constructor
  · rw [forall_prefix_iff (I := NothingLost)]
    exact ⟨hlost _ hinit, along_imp (fun c op hc hop => ⟨hlost _ (hstep c op hc hop), hstep c op hc hop⟩) hinit hops⟩
  · refine along_imp (fun c op hc hop => ⟨fun out heq => ?_, hstep c op hc hop⟩) hinit hops
    subst heq
    exact hc.2.flushedInTime scorer hc.1 hop

/-- Two CPU slots, so one block of the shadow pool besides its null block. -/
def smallConnectorConfig : ConnectorConfig where
  toOrchestratorConfig := smallConfig
  trueFree := true
  promotePerStep := 1
  worldSize := 1
  offloadFraction_nonneg := by decide +kernel
  offloadFraction_lt_one := by decide +kernel

/-- Eight CPU slots. -/
def wideConfig : ConnectorConfig := { smallConnectorConfig with numCpuSlots := 8, numCpuSlots_pos := by decide }

def smallConnectorStep : Connector SmallMemory LruState → ConnectorOp SmallMemory → Connector SmallMemory LruState :=
  connectorStep smallConnectorConfig (combinedDevice steadyRuntime) lruScorer

def wideConnector : Connector SmallMemory LruState :=
  Connector.init wideConfig ⟨.empty, 0⟩ blankMemory (BlockPool.init 12 true)

def blankConnector : Connector SmallMemory LruState :=
  Connector.init smallConnectorConfig ⟨.empty, 0⟩ blankMemory (BlockPool.init 9 true)

/-- vLLM gives the request pages `1`, …, `k`; its prompt of `2 * k` tokens is computed in one step. -/
def prefillScenario (k : Nat) : List (ConnectorOp SmallMemory) :=
  let pages := (List.range k).map (· + 1)
  [.vllm ((BlockPool.init 9 true).touch pages) (OrderedDict.empty.set requestA pages),
    .build ⟨[⟨requestA, pages, 0, 2 * k⟩], [], fun _ => 2 * k⟩,
    .build ⟨[], [⟨requestA, 2 * k, none, false⟩], fun _ => 1⟩]

/-- Requests `a` and `b` compute prompts of four tokens in one step, are found complete in the next, and decode. -/
def twoPrefills : List (ConnectorOp SmallMemory) :=
  [.vllm ((BlockPool.init 12 true).touch [1, 2, 3, 4]) ((OrderedDict.empty.set requestA [1, 2]).set requestB [3, 4]),
    .build ⟨[⟨requestA, [1, 2], 0, 4⟩, ⟨requestB, [3, 4], 0, 4⟩], [], fun _ => 4⟩,
    .build ⟨[], [⟨requestA, 4, none, false⟩, ⟨requestB, 4, none, false⟩], fun _ => 1⟩,
    .build ⟨[], [⟨requestA, 5, none, false⟩, ⟨requestB, 5, none, false⟩], fun _ => 1⟩]

/-- The first fetch of the run fails: after two passes of the second step, before its flush. -/
def lateRuntime : Runtime SmallMemory SmallMemory Unit Nat :=
  stableRuntime (fun _ _ => ()) (fun _ => none) (fun tick => if tick = 6 then some blankMemory else none) fun _ => false

def lateStep : Connector SmallMemory LruState → ConnectorOp SmallMemory → Connector SmallMemory LruState :=
  connectorStep wideConfig (combinedDevice lateRuntime) lruScorer

/-- Three blocks wait when the second step is cut short, and the third step flushes them with its own. -/
theorem nothing_lost_twoPrefills :
    (movedBlocks (run lateStep wideConnector (twoPrefills.take 3)).trace =
        [(⟨requestA, 0⟩, some 1), (⟨requestA, 1⟩, some 2), (⟨requestB, 0⟩, some 3)] ∧
      flushedBlocks (run lateStep wideConnector (twoPrefills.take 3)).trace = [] ∧
      flushedBlocks (run lateStep wideConnector twoPrefills).trace =
        [(⟨requestA, 0⟩, some 1), (⟨requestA, 1⟩, some 2), (⟨requestB, 0⟩, some 3), (⟨requestB, 1⟩, some 4)]) ∧
      (∀ done, done <+: twoPrefills → NothingLost (run lateStep wideConnector done)) ∧
      Along lateStep (fun c op => ∀ out, op = .build out → FlushedInTime (combinedDevice lateRuntime) c (lateStep c op))
        wideConnector twoPrefills := by
  have hops :
      Along lateStep (fun c op => op.KeepsLedger wideConfig (combinedDevice lateRuntime) lruScorer c) wideConnector
      twoPrefills := by decide +kernel
  refine ⟨by decide +kernel, ?_⟩
  exact nothing_lost wideConfig (combinedDevice lateRuntime) lruScorer ⟨.empty, 0⟩ blankMemory
    (BlockPool.init 12 true) hops

/-- Four full blocks: two go to the CPU, the shadow pool has one block left and refuses, and no event
lists them. -/
theorem shadow_pool_loses_blocks :
    ¬NothingLost (run smallConnectorStep blankConnector (prefillScenario 4)) := by
  intro h
  have hmoved : movedBlocks (run smallConnectorStep blankConnector (prefillScenario 4)).trace ≠ [] := by decide +kernel
  have hflushed : flushedBlocks (run smallConnectorStep blankConnector (prefillScenario 4)).trace ++
      (run smallConnectorStep blankConnector (prefillScenario 4)).stepStoreAcc.flatMap StoreBatch.entries = [] := by
    decide +kernel
  exact hmoved (h.listed.trans hflushed)

end KVOffload

import KVOffload.BaseRecency
import KVOffload.OrchestratorSlots

/-! Recency with the `LRUScorer`. One clock is advanced for every row of a batch, scoring registers blocks at
tick 0 and cleanup drops them, so a tick is not the number of a decode step. Ticks still compare as decode
steps do: those of one call of `note_selection` lie beyond all earlier ones. -/

namespace KVOffload
open Base

variable {μ φ : Type}

section Ticks

/-- Scoring changes no tick: a block it registers had tick 0 already. -/
theorem lruScore_update (s : LruState) (stats : List (BlockRef × Unit)) :
    lruScore (lruScorer.update s stats) = lruScore s := by
  funext ref
  change ((registerAll lruRegister s.lastUsed stats).get? ref).getD 0 = (s.lastUsed.get? ref).getD 0
  generalize s.lastUsed = d
  induction stats generalizing d with
  | nil => rfl
  | cons e rest ih =>
      rw [registerAll, List.foldl_cons]
      refine (ih _).trans ?_
      rw [OrderedDict.get?_set, lruRegister]
      by_cases h : ref = e.1 <;> simp [h]

theorem lruScore_forget (s : LruState) (refs : List BlockRef) (ref : BlockRef) :
    lruScore (lruScorer.forget s refs) ref = if ref ∈ refs then 0 else lruScore s ref := by
  change ((forgetAll s.lastUsed refs).get? ref).getD 0 = _
  rw [get?_forgetAll]
  by_cases h : ref ∈ refs
  · rw [if_pos h, if_pos h, Option.getD_none]
  · rw [if_neg h, if_neg h, lruScore]

theorem lruScore_noteUsage (s : LruState) (r : RequestId) (idxs : List Int) (ref : BlockRef) :
    lruScore (lruNoteUsage s r idxs) ref =
      if ref.requestId = r ∧ ref.blockIdx ∈ idxs then s.clock + 1 else lruScore s ref := by
  have hget : (lruNoteUsage s r idxs).lastUsed.get? ref =
      if ref ∈ idxs.map (fun i => ⟨r, i⟩) then some (s.clock + 1) else s.lastUsed.get? ref := by
    rw [← OrderedDict.get?_foldl_set_const, List.foldl_map, lruNoteUsage, registerAll, List.foldl_map]
  have hmem : ref ∈ idxs.map (fun i => (⟨r, i⟩ : BlockRef)) ↔ ref.requestId = r ∧ ref.blockIdx ∈ idxs := by
    rw [List.mem_map]
    constructor
    · rintro ⟨i, hi, rfl⟩
      exact ⟨rfl, hi⟩
    · rintro ⟨rfl, hi⟩
      exact ⟨ref.blockIdx, hi, rfl⟩
  rw [lruScore, hget]
  by_cases h : ref.requestId = r ∧ ref.blockIdx ∈ idxs
  · rw [if_pos (hmem.mpr h), if_pos h, Option.getD_some]
  · rw [if_neg (mt hmem.mp h), if_neg h, lruScore]

/-- The loop of `note_selection` over the rows of a batch. -/
def noteRows (blocks : SparseRow → List Int) (entries : List (RequestId × SparseRow)) (s : LruState) : LruState :=
  entries.foldl (fun s e => lruNoteUsage s e.1 (blocks e.2)) s

variable {blocks : SparseRow → List Int}

theorem clock_noteUsage (s : LruState) (r : RequestId) (idxs : List Int) :
    (lruNoteUsage s r idxs).clock = s.clock + 1 := rfl

theorem noteRows_cons (e : RequestId × SparseRow) (rest : List (RequestId × SparseRow)) (s : LruState) :
    noteRows blocks (e :: rest) s = noteRows blocks rest (lruNoteUsage s e.1 (blocks e.2)) := rfl

theorem clock_noteRows (entries : List (RequestId × SparseRow)) (s : LruState) :
    (noteRows blocks entries s).clock = s.clock + entries.length := by
  induction entries generalizing s with
  | nil => rfl
  | cons e rest ih =>
      rw [noteRows_cons, ih, clock_noteUsage, List.length_cons]
      omega

theorem lruScore_noteRows_of_not_mem {entries : List (RequestId × SparseRow)} (s : LruState) {ref : BlockRef}
    (h : ∀ e ∈ entries, ¬(ref.requestId = e.1 ∧ ref.blockIdx ∈ blocks e.2)) :
    lruScore (noteRows blocks entries s) ref = lruScore s ref := by
  induction entries generalizing s with
  | nil => rfl
  | cons e rest ih =>
      rw [noteRows_cons, ih _ fun e' he' => h e' (List.mem_cons_of_mem e he'), lruScore_noteUsage,
        if_neg (h e List.mem_cons_self)]

/-- A selected block has the tick of the last row that names it. -/
theorem lruScore_noteRows_of_mem {entries : List (RequestId × SparseRow)} (s : LruState) {ref : BlockRef}
    (h : ∃ e ∈ entries, ref.requestId = e.1 ∧ ref.blockIdx ∈ blocks e.2) :
    s.clock < lruScore (noteRows blocks entries s) ref ∧
      lruScore (noteRows blocks entries s) ref ≤ (noteRows blocks entries s).clock := by
  induction entries generalizing s with
  | nil =>
      obtain ⟨e, he, -⟩ := h
      cases he
  | cons e rest ih =>
      rw [noteRows_cons]
      by_cases hlater : ∃ e' ∈ rest, ref.requestId = e'.1 ∧ ref.blockIdx ∈ blocks e'.2
      · have hrest := ih (lruNoteUsage s e.1 (blocks e.2)) hlater
        rw [clock_noteUsage] at hrest
        exact ⟨Nat.lt_of_succ_lt hrest.1, hrest.2⟩
      · -- no later row names the block, so this one does
        obtain ⟨e', he', hnamed⟩ := h
        obtain rfl : e' = e := by
          rcases List.mem_cons.mp he' with heq | hmem
          · exact heq
          · exact absurd ⟨e', hmem, hnamed⟩ hlater
        rw [lruScore_noteRows_of_not_mem _ fun e' he' hnamed' => hlater ⟨e', he', hnamed'⟩, lruScore_noteUsage,
          if_pos hnamed, clock_noteRows, clock_noteUsage]
        omega

end Ticks

/-- The calls that reach the record of uses. -/
inductive UsageOp where
  /-- One decode step. -/
  | noteSelection (requestIds : List RequestId) (pattern : SparsePattern) (pageSize : Nat)
  | scoreBlocks (refs : List BlockRef) (gpuBlockIds : List Nat)
  | forget (refs : List BlockRef)

namespace UsageOp

/-- Every row of a batch has its request. -/
def CoversRows : UsageOp → Prop
  | noteSelection requestIds pattern _ => pattern.rows.length ≤ requestIds.length
  | _ => True

/-- Some head of the block's request selected a token that lies in the block. -/
def selects : UsageOp → BlockRef → Bool
  | noteSelection requestIds pattern pageSize, ref =>
      decide (0 < pageSize ∧ ∃ e ∈ requestIds.zip pattern.rows, ref.requestId = e.1 ∧
        ∃ head ∈ e.2.heads, ∃ token ∈ head, token / (pageSize : Int) = ref.blockIdx)
  | _, _ => false

def forgets : UsageOp → BlockRef → Bool
  | forget refs, ref => decide (ref ∈ refs)
  | _, _ => false

def usage : Usage UsageOp BlockRef := ⟨selects, forgets⟩

end UsageOp

/-- `y` was selected since it was last forgotten, and `x` was last selected in a strictly earlier step, or never. -/
def SelectedBefore (ops : List UsageOp) (x y : BlockRef) : Prop := UsageOp.usage.UsedBefore ops x y

/-- One call on an orchestrator with the `LRUScorer`, whether it returns or raises. -/
def usageStep (dev : Device μ φ Unit Nat) (o : Orchestrator μ LruState) : UsageOp → Orchestrator μ LruState
  | .noteSelection requestIds pattern pageSize => noteSelection lruScorer requestIds pattern pageSize o
  | .scoreBlocks refs gpuBlockIds => (onStore (scoreBlocks dev lruScorer refs gpuBlockIds) o).2
  | .forget refs => { o with store := { o.store with scorer := lruScorer.forget o.store.scorer refs } }

section Steps

variable {dev : Device μ φ Unit Nat}

/-- The blocks a call names are those the selected tokens lie in. -/
theorem selects_noteSelection {requestIds : List RequestId} {pattern : SparsePattern} {pageSize : Nat}
    {ref : BlockRef} : (UsageOp.noteSelection requestIds pattern pageSize).selects ref = true ↔
      0 < pageSize ∧ ∃ e ∈ requestIds.zip pattern.rows,
        ref.requestId = e.1 ∧ ref.blockIdx ∈ e.2.blocks pageSize pattern.width := by
  rw [UsageOp.selects, decide_eq_true_iff]
  apply and_congr_right
  intro _
  apply exists_congr
  intro e
  apply and_congr_right
  intro he
  apply and_congr_right
  intro _
  have hshape := (pattern.shape e.2 (List.of_mem_zip he).2).2
  rw [SparseRow.mem_blocks]
  apply exists_congr
  intro head
  apply and_congr_right
  intro hhead
  rw [List.take_of_length_le (hshape head hhead).le]

/-- A pattern without heads or without positions selects nothing. -/
theorem selects_of_empty {requestIds : List RequestId} {pattern : SparsePattern} {pageSize : Nat}
    (hempty : pattern.numHeads = 0 ∨ pattern.width = 0) (ref : BlockRef) :
    (UsageOp.noteSelection requestIds pattern pageSize).selects ref = false := by
  rw [UsageOp.selects, decide_eq_false_iff_not]
  rintro ⟨-, e, he, -, head, hhead, token, htoken, -⟩
  obtain ⟨hheads, hwidth⟩ := pattern.shape e.2 (List.of_mem_zip he).2
  rcases hempty with hnone | hnone
  · rw [hnone, List.length_eq_zero_iff] at hheads
    rw [hheads] at hhead
    cases hhead
  · have hhead' := hwidth head hhead
    rw [hnone, List.length_eq_zero_iff] at hhead'
    rw [hhead'] at htoken
    cases htoken

/-- Scoring a batch changes no tick and not the clock, whether it goes through or raises. -/
theorem scoreBlocks_ticks (dev : Device μ φ Unit Nat) (refs : List BlockRef) (gpuBlockIds : List Nat)
    (s : Store μ LruState) :
    lruScore (scoreBlocks dev lruScorer refs gpuBlockIds s).2.scorer = lruScore s.scorer ∧
      (scoreBlocks dev lruScorer refs gpuBlockIds s).2.scorer.clock = s.scorer.clock := by
  unfold scoreBlocks
  dsimp only
  split_ifs
  · exact ⟨rfl, rfl⟩
  · exact ⟨rfl, rfl⟩
  · exact ⟨lruScore_update _ _, rfl⟩

theorem restamps_noteSelection {requestIds : List RequestId} {pattern : SparsePattern} {pageSize : Nat}
    (hcover : pattern.rows.length ≤ requestIds.length) (o : Orchestrator μ LruState) :
    UsageOp.usage.Restamps (.noteSelection requestIds pattern pageSize) (lruScore o.store.scorer) o.store.scorer.clock
      (lruScore (noteSelection lruScorer requestIds pattern pageSize o).store.scorer)
      (noteSelection lruScorer requestIds pattern pageSize o).store.scorer.clock := by
  by_cases hguard : pattern.numHeads = 0 ∨ pattern.width = 0 ∨ pageSize = 0 ∨ requestIds.length < pattern.rows.length
  · -- the call returns at once, and there was nothing to select
    have hsame : noteSelection lruScorer requestIds pattern pageSize o = o := if_pos hguard
    have hnone : ∀ ref, (UsageOp.noteSelection requestIds pattern pageSize).selects ref = false := by
      intro ref
      rcases hguard with hheads | hwidth | hpage | hshort
      · exact selects_of_empty (Or.inl hheads) ref
      · exact selects_of_empty (Or.inr hwidth) ref
      · rw [UsageOp.selects, hpage, decide_eq_false_iff_not]
        exact fun hpos => absurd hpos.1 (Nat.lt_irrefl 0)
      · exact absurd hcover (Nat.not_le.mpr hshort)
    rw [hsame]
    refine ⟨fun ref huse => ?_, fun ref _ hforget => ?_, fun _ _ _ => rfl, Nat.le_refl _⟩
    · cases huse.symm.trans (hnone ref)
    · cases hforget
  · have hpos : 0 < pageSize := by
      simp only [not_or] at hguard
      omega
    have hnoted : noteSelection lruScorer requestIds pattern pageSize o =
        { o with
          store := { o.store with
            scorer := noteRows (fun row => row.blocks pageSize pattern.width) (requestIds.zip pattern.rows)
              o.store.scorer } } :=
      if_neg hguard
    rw [hnoted]
    refine ⟨fun ref huse => ?_, fun ref _ hforget => ?_, fun ref huse _ => ?_, ?_⟩
    · exact lruScore_noteRows_of_mem _ (selects_noteSelection.mp huse).2
    · cases hforget
    · apply lruScore_noteRows_of_not_mem
      intro e he hnamed
      cases huse.symm.trans (selects_noteSelection.mpr ⟨hpos, e, he, hnamed⟩)
    · rw [clock_noteRows]
      exact Nat.le_add_right _ _

theorem restamps_usageStep (dev : Device μ φ Unit Nat) (o : Orchestrator μ LruState) (op : UsageOp)
    (hcover : op.CoversRows) :
    UsageOp.usage.Restamps op (lruScore o.store.scorer) o.store.scorer.clock
      (lruScore (usageStep dev o op).store.scorer) (usageStep dev o op).store.scorer.clock := by
  cases op with
  | noteSelection requestIds pattern pageSize => exact restamps_noteSelection hcover o
  | scoreBlocks refs gpuBlockIds =>
      obtain ⟨hticks, hclock⟩ := scoreBlocks_ticks dev refs gpuBlockIds o.store
      refine ⟨fun _ huse => ?_, fun _ _ hforget => ?_, fun ref _ _ => congrFun hticks ref, hclock.ge⟩
      · cases huse
      · cases hforget
  | forget refs =>
      refine ⟨fun _ huse => ?_, fun ref _ hforget => ?_, fun ref _ hkept => ?_, Nat.le_refl _⟩
      · cases huse
      · refine (lruScore_forget o.store.scorer refs ref).trans (if_pos ?_)
        exact of_decide_eq_true hforget
      · refine (lruScore_forget o.store.scorer refs ref).trans (if_neg ?_)
        exact of_decide_eq_false hkept

end Steps

/-- After every history, no block is given up before one whose last selection lies further back, and scoring
blocks again moves none of them. -/
theorem lru_eviction_respects_recency (cfg : OrchestratorConfig) (dev : Device μ φ Unit Nat) (mem : μ)
    {ops : List UsageOp} (hcover : ∀ op ∈ ops, op.CoversRows) {s : Store μ LruState}
    (hreach : s = (run (usageStep dev) (Orchestrator.init cfg ⟨.empty, 0⟩ mem) ops).store) :
    (∀ refs : List BlockRef, (∀ ref ∈ refs, lruScorer.known s.scorer ref = true) → ∀ budget : Int,
      (0 ≤ budget → ∃ out, (lruScorer.selectForEviction s.scorer refs budget).1 = .ok out) ∧
      ∀ out, (lruScorer.selectForEviction s.scorer refs budget).1 = .ok out →
        ∀ y ∈ out, ∀ x ∈ refs, x ∉ out → ¬SelectedBefore ops x y) ∧
    ∀ refs gpuBlockIds,
      lruScorer.value (scoreBlocks dev lruScorer refs gpuBlockIds s).2.scorer = lruScorer.value s.scorer := by
  have hstamped : UsageOp.usage.Stamped ops (lruScore s.scorer) s.scorer.clock := by
    rw [hreach]
    exact Usage.stamped_run (fun o : Orchestrator μ LruState => lruScore o.store.scorer)
      (fun o => o.store.scorer.clock) (restamps_usageStep dev) (fun _ => rfl) hcover
  refine ⟨fun refs hknown budget => ⟨fun hbudget => lruScorer.select_ok _ _ _ hbudget hknown, ?_⟩, ?_⟩
  · intro out hout y hy x hx hkept hbefore
    have hlt : lruScore s.scorer x < lruScore s.scorer y := hstamped.lt_of_usedBefore hbefore
    by_cases hbudget : 0 ≤ budget
    · have hselect : selectScored s.scorer.lastUsed (lruScore s.scorer) refs budget =
          .ok (lowest (refs.length - budget.toNat) (refs.map fun ref => (ref, lruScore s.scorer ref))) :=
        selectScored_eq hbudget hknown
      cases hselect.symm.trans hout
      exact absurd (lowest_le hy hx hkept) (Nat.not_le.mpr hlt)
    · have hraise : selectScored s.scorer.lastUsed (lruScore s.scorer) refs budget = .error .negativeBudget :=
        if_pos (by omega)
      cases hraise.symm.trans hout
  · intro refs gpuBlockIds
    funext ref
    exact congrArg (fun score => some (score ref)) (scoreBlocks_ticks dev refs gpuBlockIds s).1

/-- Both requests select their block 0, then only the first its block 1; its block 0 is forgotten and scored anew. -/
def usageOps : List UsageOp :=
  [.scoreBlocks [⟨requestA, 0⟩, ⟨['b'], 0⟩] [3, 4],
    .noteSelection [requestA, ['b']] ⟨1, 1, [⟨[[1]], 1⟩, ⟨[[0]], 1⟩], by decide⟩ 2,
    .noteSelection [requestA] ⟨1, 1, [⟨[[2]], 1⟩], by decide⟩ 2,
    .forget [⟨requestA, 0⟩],
    .scoreBlocks [⟨requestA, 0⟩] [3]]

def usageStore : Store SmallMemory LruState :=
  (run (usageStep (combinedDevice steadyRuntime)) (Orchestrator.init smallConfig ⟨.empty, 0⟩ blankMemory)
    usageOps).store

/-- With room for one of three blocks, the forgotten one and the one last selected a step earlier go. -/
theorem lru_eviction_respects_recency_usageOps :
    (∀ op ∈ usageOps, op.CoversRows) ∧ SelectedBefore usageOps ⟨requestA, 0⟩ ⟨['b'], 0⟩ ∧
      SelectedBefore usageOps ⟨['b'], 0⟩ ⟨requestA, 1⟩ ∧
      (lruScorer.selectForEviction usageStore.scorer [⟨requestA, 1⟩, ⟨['b'], 0⟩, ⟨requestA, 0⟩] 1).1 =
        .ok [⟨requestA, 0⟩, ⟨['b'], 0⟩] ∧
      ¬SelectedBefore usageOps ⟨requestA, 1⟩ ⟨['b'], 0⟩ := by
  have hcover : ∀ op ∈ usageOps, op.CoversRows := by
    simp [usageOps, UsageOp.CoversRows]
  have hselect : (lruScorer.selectForEviction usageStore.scorer [⟨requestA, 1⟩, ⟨['b'], 0⟩, ⟨requestA, 0⟩] 1).1 =
      .ok [⟨requestA, 0⟩, ⟨['b'], 0⟩] := by decide +kernel
  have hrespects := (lru_eviction_respects_recency smallConfig (combinedDevice steadyRuntime) blankMemory hcover
    (s := usageStore) rfl).1 [⟨requestA, 1⟩, ⟨['b'], 0⟩, ⟨requestA, 0⟩] (by decide +kernel) 1
  have hb : UsageOp.usage.lastUse usageOps ⟨['b'], 0⟩ = some 1 := by decide +kernel
  refine ⟨hcover, ⟨1, hb, ?_⟩, ⟨2, by decide +kernel, ?_⟩, hselect, ?_⟩
  · rw [show UsageOp.usage.lastUse usageOps ⟨requestA, 0⟩ = none by decide +kernel]
    intro m hm
    cases hm
  · rw [hb]
    intro m hm
    cases hm
    exact Nat.lt_succ_self 1
  · exact hrespects.2 _ hselect _ (by decide) _ (by decide) (by decide)

end KVOffload

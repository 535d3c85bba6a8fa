import KVOffload.BaseProgram
import KVOffload.StoreResidency

/-! The summary slots of a decode batch. A slot is a batch position, and its summary has to be rebuilt
when another request takes the position. The builder does not see who occupied a position before: it
remembers the first page and the length that were there and infers a new occupant from a change of
either. -/

namespace KVOffload
open Base

/-- `_sk_maxbs`, the block size, and whether the sync-free path is on. -/
structure SlotConfig where
  maxBs : Nat
  blockSize : Nat
  syncfree : Bool

/-- A decode request of the batch: its block table row and its length. -/
structure DecodeRow where
  requestId : RequestId
  firstPage : Nat
  otherPages : List Nat
  seqLen : Nat
  deriving DecidableEq, Repr

/-- The decode rows of a batch, and whether `_seq_lens_cpu` is there. -/
structure DecodeBatch where
  rows : List DecodeRow
  seqLensCpu : Bool
  deriving DecidableEq, Repr

/-- What the builder remembers for each position: `_sk_owner`, `_sk_prev_sl` and `_sk_prev_seqlen`. -/
structure SlotMemory where
  owner : Nat → Int
  prevSl : Nat → Int
  prevSeqlen : Nat → Int

def SlotMemory.init : SlotMemory := ⟨fun _ => -1, fun _ => 0, fun _ => -1⟩

/-- What is attached to the metadata; `seqlens` only on the synced path. -/
structure SlotMeta where
  pending : List (Nat × Nat × Nat)
  pages : List (Nat × List Nat)
  slots : List Nat
  seqlens : Option (List Nat)
  deriving DecidableEq, Repr

/-- `mem[:nd] = values`. -/
def remember (mem : Nat → Int) (values : List Int) : Nat → Int := fun b => (values[b]?).getD (mem b)

/-- The length breaks the progression of a steady decode: `+1`, or unchanged during a capture. -/
def discontinuous (prev cur : Int) : Bool := cur ≠ prev + 1 ∧ cur ≠ prev

/-- The positions of the batch that `changed` flags, with their rows. -/
def changedRows (rows : List DecodeRow) (changed : Nat → DecodeRow → Bool) : List (DecodeRow × Nat) :=
  rows.zipIdx.filter fun e => changed e.2 e.1

/-- The metadata of a batch whose flagged positions are `changed`. -/
def slotMeta (cfg : SlotConfig) (rows : List DecodeRow) (changed : Nat → DecodeRow → Bool)
    (seqlens : Option (List Nat)) : SlotMeta where
  pending := (changedRows rows changed).map fun e => (e.2, e.2, e.1.seqLen)
  pages := (changedRows rows changed).map fun e =>
    (e.2, (e.1.firstPage :: e.1.otherPages).take ((e.1.seqLen + cfg.blockSize - 1) / cfg.blockSize))
  slots := List.range rows.length
  seqlens := seqlens

abbrev SlotM := Eff SlotMemory PyError

/-- The synced path flags a new first page or a length that breaks the progression. -/
def changedSynced (mem : SlotMemory) (b : Nat) (row : DecodeRow) : Bool :=
  decide (mem.owner b ≠ row.firstPage) || discontinuous (mem.prevSl b) row.seqLen

/-- The sync-free path sees the lengths alone. -/
def changedSyncfree (mem : SlotMemory) (b : Nat) (row : DecodeRow) : Bool :=
  discontinuous (mem.prevSeqlen b) row.seqLen

/-- The synced half of `_sk_fill_slots`. A batch that does not fit the buffers fails at the first copy. -/
def fillSlotsSynced (cfg : SlotConfig) (batch : DecodeBatch) : SlotM SlotMeta := fun mem =>
  if batch.rows = [] then (.ok ⟨[], [], [], none⟩, mem)
  else if cfg.maxBs < batch.rows.length then (.error .device, mem)
  else (.ok (slotMeta cfg batch.rows (changedSynced mem) (some (batch.rows.map (·.seqLen)))),
    { mem with
      owner := remember mem.owner (batch.rows.map fun row => (row.firstPage : Int))
      prevSl := remember mem.prevSl (batch.rows.map fun row => (row.seqLen : Int)) })

/-- `_sk_fill_slots_syncfree`, which falls back to the synced path without CPU lengths. -/
def fillSlotsSyncfree (cfg : SlotConfig) (batch : DecodeBatch) : SlotM SlotMeta := fun mem =>
  if batch.rows = [] then (.ok ⟨[], [], [], none⟩, mem)
  else if !batch.seqLensCpu then fillSlotsSynced cfg batch mem
  else if cfg.maxBs < batch.rows.length then (.error .device, mem)
  else (.ok (slotMeta cfg batch.rows (changedSyncfree mem) none),
    { mem with prevSeqlen := remember mem.prevSeqlen (batch.rows.map fun row => (row.seqLen : Int)) })

/-- `_sk_fill_slots`. -/
def fillSlots (cfg : SlotConfig) (batch : DecodeBatch) : SlotM SlotMeta :=
  if cfg.syncfree then fillSlotsSyncfree cfg batch else fillSlotsSynced cfg batch

/-- The memory with two records the builder does not have: who was at a position in the last batch that
had it, and for whom its slot was last put in `sk_pending`. -/
structure SlotTrace where
  memory : SlotMemory
  lastSeen : Nat → Option RequestId
  builtFor : Nat → Option RequestId

def SlotTrace.init : SlotTrace := ⟨.init, fun _ => none, fun _ => none⟩

/-- The request at position `b`. -/
def DecodeBatch.occupant (batch : DecodeBatch) (b : Nat) : Option RequestId := (batch.rows[b]?).map (·.requestId)

/-- The positions in `sk_pending`. -/
def SlotMeta.positions (m : SlotMeta) : List Nat := m.pending.map Prod.fst

/-- One call, with the records. A call that raises leaves everything as it was. -/
def fillStep (cfg : SlotConfig) (s : SlotTrace) (batch : DecodeBatch) : SlotTrace :=
  match fillSlots cfg batch s.memory with
  | (.error _, memory) => { s with memory := memory }
  | (.ok m, memory) =>
      { memory := memory
        lastSeen := fun b => (batch.occupant b).or (s.lastSeen b)
        builtFor := fun b => if b ∈ m.positions then batch.occupant b else s.builtFor b }

/-- A call that returns puts every position whose request is not the one its slot was built for in
`sk_pending`. -/
def Rebuilds (cfg : SlotConfig) (s : SlotTrace) (batch : DecodeBatch) : Prop :=
  ∀ m memory, fillSlots cfg batch s.memory = (.ok m, memory) →
    ∀ b row, batch.rows[b]? = some row → s.builtFor b ≠ some row.requestId → b ∈ m.positions

/-- The flag of the path that is on. -/
def changed (cfg : SlotConfig) (mem : SlotMemory) (b : Nat) (row : DecodeRow) : Bool :=
  if cfg.syncfree then changedSyncfree mem b row else changedSynced mem b row

/-- In a batch that fits, every request that was not at its position in the last batch that had the
position shows in what is remembered of it. -/
def Telltale (cfg : SlotConfig) (s : SlotTrace) (batch : DecodeBatch) : Prop :=
  batch.rows.length ≤ cfg.maxBs →
    ∀ b row, batch.rows[b]? = some row → s.lastSeen b ≠ some row.requestId → changed cfg s.memory b row = true

instance (cfg : SlotConfig) (s : SlotTrace) (batch : DecodeBatch) : Decidable (Telltale cfg s batch) :=
  decidable_of_iff (batch.rows.length ≤ cfg.maxBs → ∀ e ∈ batch.rows.zipIdx,
      s.lastSeen e.2 ≠ some e.1.requestId → changed cfg s.memory e.2 e.1 = true) (by
    simp only [Telltale, Prod.forall, List.mem_zipIdx_iff_getElem?]
    exact forall_congr' fun _ => forall_comm)

section

variable {cfg : SlotConfig} {batch : DecodeBatch} {s : SlotTrace}

theorem mem_positions_slotMeta {rows : List DecodeRow} {flag : Nat → DecodeRow → Bool} {seqlens : Option (List Nat)}
    {b : Nat} :
    b ∈ (slotMeta cfg rows flag seqlens).positions ↔ ∃ row, rows[b]? = some row ∧ flag b row = true := by
  simp only [SlotMeta.positions, slotMeta, changedRows, List.map_map, List.mem_map, List.mem_filter,
    Function.comp_apply]
  constructor
  · rintro ⟨⟨row, b⟩, ⟨hmem, hflag⟩, rfl⟩
    exact ⟨row, List.mem_zipIdx_iff_getElem?.mp hmem, hflag⟩
  · rintro ⟨row, hrow, hflag⟩
    exact ⟨(row, b), ⟨List.mem_zipIdx_iff_getElem?.mpr hrow, hflag⟩, rfl⟩

/-- A batch that fits is answered with the flagged positions. -/
theorem fillSlots_of_le (hcpu : cfg.syncfree = true → batch.seqLensCpu = true) (hfits : batch.rows.length ≤ cfg.maxBs)
    (mem : SlotMemory) :
    ∃ m mem', fillSlots cfg batch mem = (.ok m, mem') ∧
      ∀ b, b ∈ m.positions ↔ ∃ row, batch.rows[b]? = some row ∧ changed cfg mem b row = true := by
  have hlt : ¬cfg.maxBs < batch.rows.length := Nat.not_lt.mpr hfits
  by_cases hempty : batch.rows = []
  · refine ⟨⟨[], [], [], none⟩, mem, ?_, fun b => ?_⟩
    · cases hmode : cfg.syncfree <;> simp [fillSlots, fillSlotsSyncfree, fillSlotsSynced, hmode, hempty]
    · simp [SlotMeta.positions, hempty]
  · cases hmode : cfg.syncfree with
    | true =>
        refine ⟨slotMeta cfg batch.rows (changedSyncfree mem) none, (fillSlots cfg batch mem).2, ?_, fun b => ?_⟩
        · simp only [fillSlots, fillSlotsSyncfree, hmode, hempty, hcpu hmode, hlt, Bool.not_true, Bool.false_eq_true,
            if_true, if_false]
        · rw [mem_positions_slotMeta]
          simp only [changed, hmode, if_true]
    | false =>
        refine ⟨slotMeta cfg batch.rows (changedSynced mem) (some (batch.rows.map (·.seqLen))),
          (fillSlots cfg batch mem).2, ?_, fun b => ?_⟩
        · simp only [fillSlots, fillSlotsSynced, hmode, hempty, hlt, Bool.false_eq_true, if_false]
        · rw [mem_positions_slotMeta]
          simp only [changed, hmode, Bool.false_eq_true, if_false]

/-- A batch that does not fit raises before anything is remembered. -/
theorem fillSlots_of_lt (hcpu : cfg.syncfree = true → batch.seqLensCpu = true) (hfull : cfg.maxBs < batch.rows.length)
    (mem : SlotMemory) : fillSlots cfg batch mem = (.error .device, mem) := by
  have hempty : batch.rows ≠ [] := by
    intro hnil
    rw [hnil] at hfull
    exact Nat.not_lt_zero _ hfull
  cases hmode : cfg.syncfree with
  | true => simp [fillSlots, fillSlotsSyncfree, hmode, hempty, hcpu hmode, hfull]
  | false => simp [fillSlots, fillSlotsSynced, hmode, hempty, hfull]

/-- While every slot was built for the request last seen at its position, a batch is handled right
exactly if each new occupant shows. -/
theorem rebuilds_iff (hcpu : cfg.syncfree = true → batch.seqLensCpu = true) (hsame : s.builtFor = s.lastSeen) :
    Rebuilds cfg s batch ↔ Telltale cfg s batch := by
  unfold Rebuilds Telltale
  rw [hsame]
  rcases Nat.lt_or_ge cfg.maxBs batch.rows.length with hfull | hfits
  · rw [fillSlots_of_lt hcpu hfull]
    constructor
    · intro _ hle
      omega
    · intro _ m memory hcall
      cases hcall
  · obtain ⟨m, mem', hcall, hpositions⟩ := fillSlots_of_le hcpu hfits s.memory
    constructor
    · intro hrebuilds _ b row hrow hnew
      obtain ⟨row', hrow', hflag⟩ := (hpositions b).mp (hrebuilds m mem' hcall b row hrow hnew)
      obtain rfl : row = row' := Option.some.inj (hrow.symm.trans hrow')
      exact hflag
    · intro htell m' memory hcall' b row hrow hnew
      rw [hcall] at hcall'
      obtain ⟨hm, -⟩ := Prod.mk.inj hcall'
      obtain rfl := Except.ok.inj hm
      exact (hpositions b).mpr ⟨row, hrow, htell hfits b row hrow hnew⟩

/-- Then every slot is again built for the request last seen at its position. -/
theorem builtFor_fillStep (hcpu : cfg.syncfree = true → batch.seqLensCpu = true) (hsame : s.builtFor = s.lastSeen)
    (htell : Telltale cfg s batch) : (fillStep cfg s batch).builtFor = (fillStep cfg s batch).lastSeen := by
  unfold fillStep
  rcases Nat.lt_or_ge cfg.maxBs batch.rows.length with hfull | hfits
  · rw [fillSlots_of_lt hcpu hfull]
    exact hsame
  · obtain ⟨m, mem', hcall, hpositions⟩ := fillSlots_of_le hcpu hfits s.memory
    rw [hcall]
    funext b
    change (if b ∈ m.positions then batch.occupant b else s.builtFor b) = (batch.occupant b).or (s.lastSeen b)
    rw [hsame]
    cases hrow : batch.rows[b]? with
    | none =>
        -- The batch does not have the position: nothing is recorded for it.
        have hnot : b ∉ m.positions := by
          intro hmem
          obtain ⟨row, hsome, -⟩ := (hpositions b).mp hmem
          rw [hrow] at hsome
          cases hsome
        rw [if_neg hnot, DecodeBatch.occupant, hrow]
        rfl
    | some row =>
        have hoccupant : batch.occupant b = some row.requestId := by rw [DecodeBatch.occupant, hrow, Option.map_some]
        rw [hoccupant, Option.some_or]
        by_cases hnew : s.lastSeen b = some row.requestId
        · rw [hnew, ite_self]
        · rw [if_pos ((hpositions b).mpr ⟨row, hrow, htell hfits b row hrow hnew⟩)]

end

/-- Over every history of decode batches, on the synced path and on the sync-free one with CPU lengths,
slots are rebuilt for every new occupant exactly if every change of occupant shows in the first page
(synced path only) or in the length that is remembered for the position. -/
theorem slots_rebuilt_iff (cfg : SlotConfig) {batches : List DecodeBatch}
    (hcpu : cfg.syncfree = true → ∀ batch ∈ batches, batch.seqLensCpu = true) :
    Along (fillStep cfg) (Rebuilds cfg) SlotTrace.init batches ↔
      Along (fillStep cfg) (Telltale cfg) SlotTrace.init batches := by
  apply along_iff (I := fun s : SlotTrace => s.builtFor = s.lastSeen)
  · intro batch hbatch s hsame
    exact rebuilds_iff (fun hmode => hcpu hmode batch hbatch) hsame
  · intro batch hbatch s hsame htell
    exact builtFor_fillStep (fun hmode => hcpu hmode batch hbatch) hsame htell
  · rfl

/-- A prompt of 20 tokens that decodes on page 7. -/
def firstOccupant (seqLen : Nat) : DecodeBatch := ⟨[⟨['a'], 7, [8], seqLen⟩], true⟩

/-- Another request with the same first page, cached from a shared prefix. -/
def nextOccupant (seqLen : Nat) : DecodeBatch := ⟨[⟨['b'], 7, [9], seqLen⟩], true⟩

theorem slots_rebuilt_longer_prompt :
    Along (fillStep ⟨4, 16, false⟩) (Rebuilds ⟨4, 16, false⟩) SlotTrace.init
      [firstOccupant 20, firstOccupant 21, nextOccupant 30] := by
  apply (slots_rebuilt_iff ⟨4, 16, false⟩ ?_).mpr
  · decide
  · intro hmode
    cases hmode

/-- On either path, a request with the same first page and the next length takes the position and its
slot keeps the summary of the request before it. -/
theorem shared_page_not_rebuilt :
    (run (fillStep ⟨4, 16, false⟩) SlotTrace.init [firstOccupant 20]).builtFor 0 = some ['a'] ∧
      (fillSlots ⟨4, 16, false⟩ (nextOccupant 21)
        (run (fillStep ⟨4, 16, false⟩) SlotTrace.init [firstOccupant 20]).memory).1.toOption.map (·.pending) = some [] ∧
      (run (fillStep ⟨4, 16, true⟩) SlotTrace.init [firstOccupant 20]).builtFor 0 = some ['a'] ∧
      (fillSlots ⟨4, 16, true⟩ (nextOccupant 21)
        (run (fillStep ⟨4, 16, true⟩) SlotTrace.init [firstOccupant 20]).memory).1.toOption.map (·.pending) =
          some [] := by
  decide

end KVOffload

import KVOffload.BaseLists
import KVOffload.BaseProgram
import KVOffload.StoreResidency
import Mathlib.Data.List.Sort
import Mathlib.Logic.Equiv.Basic

/-! The persistent batch of vLLM's model runner. A request keeps its row from step to step. Rows of requests that leave
become holes, new requests fill the holes, lowest first, and `condense` moves the last rows into the holes that remain.
The tokens and sampling parameters of a row follow the same moves and are left out. -/

namespace KVOffload
open Base

/-- What the batch and the runner raise. -/
inductive RunnerError where
  /-- "Cannot register new removed request after self.removed has been read." -/
  | removedAfterRead
  /-- `assert new_req_index < self.max_num_reqs` -/
  | batchFull
  /-- More pages than a row of the block table has columns. -/
  | rowTooLong
  /-- A subscript beyond the rows. -/
  | noSuchRow
  /-- An assertion that a row has a request. -/
  | emptyRow
  /-- A subscript with a request the dictionary does not have. -/
  | unknownRequest
  /-- `assert req_index is None` for a resumed request. -/
  | resumedInBatch
  /-- `assert new_block_ids is not None` for a resumed request. -/
  | resumedWithoutBlocks
  /-- A reordering that does not come to an end. -/
  | endless
  deriving DecidableEq, Repr

/-- The page ids of all rows, in an array of fixed width with the number of columns in use. -/
structure BlockTable where
  maxNumBlocksPerReq : Nat
  numBlocksPerRow : Nat → Nat
  blockTable : Nat → Nat → Nat

/-- `np[row_idx, start : start + len(values)] = values` -/
def writeColumns (cells : Nat → Nat → Nat) (rowIdx start : Nat) (values : List Nat) : Nat → Nat → Nat := fun i j =>
  if i = rowIdx ∧ start ≤ j then (values[j - start]?).getD (cells i j) else cells i j

namespace BlockTable

/-- The columns of a row that are in use. -/
def row (t : BlockTable) (i : Nat) : List Nat := (List.range (t.numBlocksPerRow i)).map (t.blockTable i)

/-- The count is raised before the ids are written. -/
def appendRow (blockIds : List Nat) (rowIdx : Nat) : Eff BlockTable RunnerError Unit :=
  if blockIds = [] then pure ()
  else do
    let t ← Eff.read
    let start := t.numBlocksPerRow rowIdx
    Eff.modify fun t =>
      { t with numBlocksPerRow := Function.update t.numBlocksPerRow rowIdx (start + blockIds.length) }
    if t.maxNumBlocksPerReq < start + blockIds.length then Eff.raise .rowTooLong
    else Eff.modify fun t => { t with blockTable := writeColumns t.blockTable rowIdx start blockIds }

def addRow (blockIds : List Nat) (rowIdx : Nat) : Eff BlockTable RunnerError Unit := do
  Eff.modify fun t => { t with numBlocksPerRow := Function.update t.numBlocksPerRow rowIdx 0 }
  appendRow blockIds rowIdx

def clearRow (t : BlockTable) (rowIdx : Nat) : BlockTable :=
  { t with
    numBlocksPerRow := Function.update t.numBlocksPerRow rowIdx 0
    blockTable := writeColumns t.blockTable rowIdx 0 (List.replicate (t.numBlocksPerRow rowIdx) 0) }

/-- The row that is left is cleared. -/
def moveRow (t : BlockTable) (src tgt : Nat) : BlockTable :=
  let cells := writeColumns t.blockTable tgt 0 (t.row src)
  { t with
    numBlocksPerRow := Function.update (Function.update t.numBlocksPerRow tgt (t.numBlocksPerRow src)) src 0
    blockTable := writeColumns cells src 0 (List.replicate (t.numBlocksPerRow src) 0) }

def swapRow (t : BlockTable) (src tgt : Nat) : BlockTable :=
  { t with
    numBlocksPerRow := t.numBlocksPerRow ∘ Equiv.swap src tgt
    blockTable := t.blockTable ∘ Equiv.swap src tgt }

end BlockTable

/-- The rows that were left in this step. They are sorted, last first, when they are read for the first time. -/
structure BatchUpdateBuilder where
  removed : List Nat
  isRemovedSorted : Bool
  deriving DecidableEq, Repr

namespace BatchUpdateBuilder

def ensureRemovedSorted (u : BatchUpdateBuilder) : BatchUpdateBuilder :=
  if u.isRemovedSorted then u else ⟨u.removed.insertionSort (· ≥ ·), true⟩

def removedAppend (index : Nat) : Eff BatchUpdateBuilder RunnerError Unit := do
  let u ← Eff.read
  if u.isRemovedSorted then Eff.raise .removedAfterRead
  else Eff.modify fun u => { u with removed := u.removed ++ [index] }

/-- The lowest row that was left, if there is one. -/
def popRemoved (u : BatchUpdateBuilder) : Option Nat × BatchUpdateBuilder :=
  if u.removed = [] then (none, u)
  else
    let u := u.ensureRemovedSorted
    (u.removed.getLast?, { u with removed := u.removed.dropLast })

/-- `get_and_reset` -/
def reset : BatchUpdateBuilder := ⟨[], false⟩

end BatchUpdateBuilder

/-- What the runner keeps of a request, in the batch or not. -/
structure CachedRequestState where
  numPromptTokens : Nat
  numComputedTokens : Nat
  blockIds : List Nat
  deriving DecidableEq, Repr

structure InputBatch where
  maxNumReqs : Nat
  /-- `_req_ids`: `none` is a hole. -/
  reqIds : List (Option RequestId)
  reqIdToIndex : OrderedDict RequestId Nat
  numPromptTokens : Nat → Nat
  numComputedTokensCpu : Nat → Nat
  blockTable : BlockTable
  batchUpdateBuilder : BatchUpdateBuilder

abbrev BatchM (α : Type) : Type := Eff InputBatch RunnerError α

namespace InputBatch

def onBlockTable (m : Eff BlockTable RunnerError Unit) : BatchM Unit :=
  Eff.zoom blockTable (fun b t => { b with blockTable := t }) m

def numReqs (b : InputBatch) : Nat := b.reqIdToIndex.keys.length

/-- The next hole, or a new row. -/
def registerAddRequest : BatchM Nat := do
  let b ← Eff.read
  let (hole, u) := b.batchUpdateBuilder.popRemoved
  Eff.modify fun b => { b with batchUpdateBuilder := u }
  let newReqIndex := hole.getD b.numReqs
  if newReqIndex < b.maxNumReqs then pure newReqIndex else Eff.raise .batchFull

def addRequest (reqId : RequestId) (request : CachedRequestState) : BatchM Nat := do
  let reqIndex ← registerAddRequest
  let b ← Eff.read
  if b.reqIds.length < reqIndex then Eff.raise .noSuchRow
  else do
    Eff.modify fun b =>
      { b with
        reqIds := if reqIndex = b.reqIds.length then b.reqIds ++ [some reqId] else b.reqIds.set reqIndex (some reqId)
        reqIdToIndex := b.reqIdToIndex.set reqId reqIndex
        numPromptTokens := Function.update b.numPromptTokens reqIndex request.numPromptTokens
        numComputedTokensCpu := Function.update b.numComputedTokensCpu reqIndex request.numComputedTokens }
    onBlockTable (BlockTable.addRow request.blockIds reqIndex)
    pure reqIndex

def removeRequest (reqId : RequestId) : BatchM (Option Nat) := do
  let b ← Eff.read
  match b.reqIdToIndex.get? reqId with
  | none => pure none
  | some reqIndex => do
      Eff.modify fun b => { b with reqIdToIndex := b.reqIdToIndex.erase reqId }
      Eff.zoom batchUpdateBuilder (fun b u => { b with batchUpdateBuilder := u })
        (BatchUpdateBuilder.removedAppend reqIndex)
      Eff.modify fun b =>
        { b with
          reqIds := b.reqIds.set reqIndex none
          blockTable := b.blockTable.clearRow reqIndex }
      pure (some reqIndex)

/-- The ids are swapped before it is checked that both rows have one. -/
def swapStates (i1 i2 : Nat) : BatchM Unit := do
  let b ← Eff.read
  match b.reqIds[i1]?, b.reqIds[i2]? with
  | some oldId1, some oldId2 => do
      Eff.modify fun b => { b with reqIds := (b.reqIds.set i1 oldId2).set i2 oldId1 }
      match oldId1, oldId2 with
      | some r1, some r2 =>
          match b.reqIdToIndex.get? r1, b.reqIdToIndex.get? r2 with
          | some index1, some index2 =>
              Eff.modify fun b =>
                { b with
                  reqIdToIndex := (b.reqIdToIndex.set r1 index2).set r2 index1
                  numPromptTokens := b.numPromptTokens ∘ Equiv.swap i1 i2
                  numComputedTokensCpu := b.numComputedTokensCpu ∘ Equiv.swap i1 i2
                  blockTable := b.blockTable.swapRow i1 i2 }
          | _, _ => Eff.raise .unknownRequest
      | _, _ => Eff.raise .emptyRow
  | _, _ => Eff.raise .noSuchRow

/-- `while last_req_index in empty_req_indices: last_req_index -= 1`, where `none` is -1. -/
def lastFilled (emptyReqIndices : List Nat) : Nat → Option Nat
  | 0 => if 0 ∈ emptyReqIndices then none else some 0
  | n + 1 => if n + 1 ∈ emptyReqIndices then lastFilled emptyReqIndices n else some (n + 1)

/-- The part of `condense` that moves a request down into a hole. -/
def moveDown (lastReqIndex emptyIndex : Nat) : BatchM Unit := do
  let b ← Eff.read
  match b.reqIds[lastReqIndex]? with
  | some (some reqId) =>
      Eff.modify fun b =>
        { b with
          reqIds := (b.reqIds.set emptyIndex (some reqId)).set lastReqIndex none
          reqIdToIndex := b.reqIdToIndex.set reqId emptyIndex
          numPromptTokens := Function.update b.numPromptTokens emptyIndex (b.numPromptTokens lastReqIndex)
          numComputedTokensCpu :=
            Function.update b.numComputedTokensCpu emptyIndex (b.numComputedTokensCpu lastReqIndex)
          blockTable := b.blockTable.moveRow lastReqIndex emptyIndex }
  | some none => Eff.raise .emptyRow
  | none => Eff.raise .noSuchRow

/-- `while empty_req_indices`: each round takes one hole, so there are at most as many rounds as holes. -/
def condenseLoop : Nat → Nat → BatchM Unit
  | 0, _ => pure ()
  | rounds + 1, lastReqIndex => do
      let b ← Eff.read
      match b.batchUpdateBuilder.removed.getLast?, lastFilled b.batchUpdateBuilder.removed lastReqIndex with
      | some emptyIndex, some lastReqIndex =>
          if lastReqIndex ≤ emptyIndex then pure ()
          else do
            Eff.modify fun b => { b with batchUpdateBuilder := b.batchUpdateBuilder.popRemoved.2 }
            moveDown lastReqIndex emptyIndex
            condenseLoop rounds (lastReqIndex - 1)
      | _, _ => pure ()

def condense : BatchM Unit := do
  Eff.modify fun b => { b with batchUpdateBuilder := b.batchUpdateBuilder.ensureRemovedSorted }
  let b ← Eff.read
  let emptyReqIndices := b.batchUpdateBuilder.removed
  if emptyReqIndices = [] then pure ()
  else if b.numReqs = 0 then Eff.modify fun b => { b with reqIds := [] }
  else do
    condenseLoop emptyReqIndices.length (b.numReqs + emptyReqIndices.length - 1)
    Eff.modify fun b' => { b' with reqIds := b'.reqIds.take b.numReqs }

/-- `refresh_metadata` -/
def refreshMetadata : BatchM Unit := Eff.modify fun b => { b with batchUpdateBuilder := .reset }

/-- The part of `_update_states` for a request that has a row. -/
def updateRow (reqIndex numComputedTokens : Nat) (newBlockIds : Option (List Nat)) : BatchM Unit := do
  Eff.modify fun b =>
    { b with numComputedTokensCpu := Function.update b.numComputedTokensCpu reqIndex numComputedTokens }
  match newBlockIds with
  | none => pure ()
  | some blockIds => onBlockTable (BlockTable.appendRow blockIds reqIndex)

end InputBatch

namespace BlockTable

section Rows

variable {t t' : BlockTable} {i : Nat} {ids : List Nat}

theorem length_row (t : BlockTable) (i : Nat) : (t.row i).length = t.numBlocksPerRow i := by
  rw [row, List.length_map, List.length_range]

theorem row_congr {j : Nat} (hcount : t'.numBlocksPerRow j = t.numBlocksPerRow i)
    (hcells : ∀ k < t.numBlocksPerRow i, t'.blockTable j k = t.blockTable i k) : t'.row j = t.row i := by
  rw [row, row, hcount]
  exact List.map_congr_left fun k hk => hcells k (List.mem_range.mp hk)

theorem writeColumns_of_ne {cells : Nat → Nat → Nat} {start j : Nat} (hne : j ≠ i) (k : Nat) :
    writeColumns cells i start ids j k = cells j k := by
  rw [writeColumns, if_neg fun h => hne h.1]

/-- What is written from the first free column on is appended. -/
theorem row_append (hcount : t'.numBlocksPerRow i = t.numBlocksPerRow i + ids.length)
    (hcells : t'.blockTable = writeColumns t.blockTable i (t.numBlocksPerRow i) ids) : t'.row i = t.row i ++ ids := by
  rw [row, hcount, List.range_add, List.map_append, List.map_map, hcells]
  congr 1
  · apply List.map_congr_left
    intro k hk
    rw [writeColumns, if_neg fun h => absurd h.2 (Nat.not_le.mpr (List.mem_range.mp hk))]
  · apply List.ext_getElem
    · rw [List.length_map, List.length_range]
    · intro k hk hk'
      simp [writeColumns, List.getElem?_eq_getElem hk']

theorem wp_appendRow (hfits : (t.row i).length + ids.length ≤ t.maxNumBlocksPerReq) :
    Eff.wp (appendRow ids i)
      (fun _ t' => t'.maxNumBlocksPerReq = t.maxNumBlocksPerReq ∧
        ∀ j, t'.row j = if j = i then t.row i ++ ids else t.row j)
      (fun _ _ => False) t := by
  rw [length_row] at hfits
  unfold appendRow
  by_cases hids : ids = []
  · rw [if_pos hids, Eff.wp_pure, hids]
    refine ⟨rfl, fun j => ?_⟩
    split_ifs with hj
    · rw [hj, List.append_nil]
    · rfl
  · rw [if_neg hids]
    simp only [Eff.wp_bind, Eff.wp_read, Eff.wp_modify, if_neg (Nat.not_lt.mpr hfits), true_and]
    intro j
    split_ifs with hj
    · rw [hj]
      exact row_append (Function.update_self _ _ _) rfl
    · exact row_congr (Function.update_of_ne hj _ _) fun k _ => writeColumns_of_ne hj k

theorem wp_addRow (hfits : ids.length ≤ t.maxNumBlocksPerReq) :
    Eff.wp (addRow ids i)
      (fun _ t' => t'.maxNumBlocksPerReq = t.maxNumBlocksPerReq ∧ ∀ j, t'.row j = if j = i then ids else t.row j)
      (fun _ _ => False) t := by
  simp only [addRow, Eff.wp_bind, Eff.wp_modify]
  have hempty : row { t with numBlocksPerRow := Function.update t.numBlocksPerRow i 0 } i = [] := by
    rw [← List.length_eq_zero_iff, length_row]
    exact Function.update_self _ _ _
  refine Eff.wp_mono (wp_appendRow (by rw [hempty, List.length_nil, Nat.zero_add]; exact hfits))
    (fun _ t' hrows => ⟨hrows.1, fun j => ?_⟩) fun _ _ hf => hf
  rw [hrows.2 j, hempty, List.nil_append]
  split_ifs with hj
  · rfl
  · exact row_congr (Function.update_of_ne hj _ _) fun _ _ => rfl

theorem row_clearRow (t : BlockTable) (i j : Nat) : (t.clearRow i).row j = if j = i then [] else t.row j := by
  split_ifs with hj
  · rw [← List.length_eq_zero_iff, length_row, hj]
    exact Function.update_self _ _ _
  · exact row_congr (Function.update_of_ne hj _ _) fun k _ => writeColumns_of_ne hj k

theorem row_moveRow {src tgt : Nat} (hne : tgt ≠ src) (t : BlockTable) (j : Nat) :
    (t.moveRow src tgt).row j = if j = src then [] else if j = tgt then t.row src else t.row j := by
  split_ifs with hsrc htgt
  · rw [← List.length_eq_zero_iff, length_row, hsrc]
    exact Function.update_self _ _ _
  · rw [htgt]
    refine row_congr ?_ fun k hk => ?_
    · exact (Function.update_of_ne hne _ _).trans (Function.update_self _ _ _)
    · have hk' : k < (t.row src).length := (length_row t src).symm ▸ hk
      show writeColumns (writeColumns t.blockTable tgt 0 (t.row src)) src 0 _ tgt k = _
      rw [writeColumns_of_ne hne, writeColumns, if_pos ⟨rfl, Nat.zero_le k⟩, Nat.sub_zero,
        List.getElem?_eq_getElem hk', Option.getD_some]
      simp [row]
  · refine row_congr ?_ fun k _ => ?_
    · exact (Function.update_of_ne hsrc _ _).trans (Function.update_of_ne htgt _ _)
    · exact (writeColumns_of_ne hsrc k).trans (writeColumns_of_ne htgt k)

theorem row_swapRow (t : BlockTable) (src tgt j : Nat) : (t.swapRow src tgt).row j = t.row (Equiv.swap src tgt j) := rfl

end Rows

end BlockTable

namespace InputBatch

section Invariants

variable {b b' : InputBatch} {r : RequestId}

/-- The index of a request is the row with its id. -/
def Indexed (b : InputBatch) : Prop := ∀ r i, b.reqIdToIndex.get? r = some i ↔ b.reqIds[i]? = some (some r)

/-- Between the operations of a step: the rows that were left are the holes. -/
structure Tracked (b : InputBatch) : Prop where
  indexed : Indexed b
  holes : ∀ i, i ∈ b.batchUpdateBuilder.removed ↔ b.reqIds[i]? = some none
  nodup : b.batchUpdateBuilder.removed.Nodup
  sorted : b.batchUpdateBuilder.isRemovedSorted = true → b.batchUpdateBuilder.removed.Pairwise (· > ·)
  fits : b.reqIds.length ≤ b.maxNumReqs

/-- Between two steps: there are no holes. -/
structure Dense (b : InputBatch) : Prop where
  indexed : Indexed b
  full : ∀ i : Nat, b.reqIds[i]? ≠ some none
  fits : b.reqIds.length ≤ b.maxNumReqs

/-- What a row says of its request. -/
def rowState (b : InputBatch) (i : Nat) : CachedRequestState :=
  ⟨b.numPromptTokens i, b.numComputedTokensCpu i, b.blockTable.row i⟩

/-- What the batch says of a request, wherever its row is. -/
def state? (b : InputBatch) (r : RequestId) : Option CachedRequestState := (b.reqIdToIndex.get? r).map b.rowState

/-- The limits that never change. -/
structure SameLimits (b b' : InputBatch) : Prop where
  maxNumReqs : b'.maxNumReqs = b.maxNumReqs
  maxNumBlocksPerReq : b'.blockTable.maxNumBlocksPerReq = b.blockTable.maxNumBlocksPerReq

theorem SameLimits.refl (b : InputBatch) : SameLimits b b := ⟨rfl, rfl⟩

theorem SameLimits.trans {b'' : InputBatch} (h : SameLimits b b') (h' : SameLimits b' b'') : SameLimits b b'' :=
  ⟨h'.maxNumReqs.trans h.maxNumReqs, h'.maxNumBlocksPerReq.trans h.maxNumBlocksPerReq⟩

theorem state?_eq_none_iff : b.state? r = none ↔ b.reqIdToIndex.get? r = none := Option.map_eq_none_iff

theorem mem_keys_iff_state? : r ∈ b.reqIdToIndex.keys ↔ (b.state? r).isSome := by
  rw [← not_iff_not, ← OrderedDict.get?_eq_none_iff, ← state?_eq_none_iff, Option.not_isSome_iff_eq_none]

theorem Dense.tracked (h : Dense b) (hremoved : b.batchUpdateBuilder.removed = []) : Tracked b := by
  refine ⟨h.indexed, fun i => ?_, ?_, fun _ => ?_, h.fits⟩
  · rw [hremoved]
    exact ⟨by simp, fun hhole => absurd hhole (h.full i)⟩
  · rw [hremoved]
    exact List.nodup_nil
  · rw [hremoved]
    exact List.Pairwise.nil

end Invariants

section Counting

variable {b : InputBatch}

theorem Indexed.mem_values (h : Indexed b) {i : Nat} :
    i ∈ b.reqIdToIndex.values ↔ ∃ r, b.reqIds[i]? = some (some r) := by
  simp only [OrderedDict.values, List.mem_map, Prod.exists, ← h _ i, OrderedDict.get?_eq_some_iff]
  constructor
  · rintro ⟨r, _, hmem, rfl⟩
    exact ⟨r, hmem⟩
  · rintro ⟨r, hmem⟩
    exact ⟨r, i, hmem, rfl⟩

theorem Indexed.nodup_values (h : Indexed b) : b.reqIdToIndex.values.Nodup := by
  have hitems : b.reqIdToIndex.items.Nodup := List.Nodup.of_map _ b.reqIdToIndex.nodup
  refine hitems.map_on ?_
  rintro ⟨r, i⟩ hr ⟨r', i'⟩ hr' heq
  obtain rfl : i = i' := heq
  have hrow := (h r i).mp (OrderedDict.get?_eq_some_iff.mpr hr)
  rw [(h r' i).mp (OrderedDict.get?_eq_some_iff.mpr hr')] at hrow
  rw [Option.some.inj (Option.some.inj hrow)]

theorem length_values (b : InputBatch) : b.reqIdToIndex.values.length = b.numReqs := by
  rw [numReqs, OrderedDict.values, OrderedDict.keys, List.length_map, List.length_map]

/-- Requests in the first rows and in no others are counted by these rows. -/
theorem Indexed.numReqs_eq (h : Indexed b) {k : Nat} (hk : ∀ i, (∃ r, b.reqIds[i]? = some (some r)) ↔ i < k) :
    b.numReqs = k := by
  have hperm : b.reqIdToIndex.values.Perm (List.range k) := by
    refine (List.perm_ext_iff_of_nodup h.nodup_values List.nodup_range).mpr fun i => ?_
    rw [h.mem_values, hk, List.mem_range]
  rw [← length_values, hperm.length_eq, List.length_range]

theorem Tracked.length_reqIds (h : Tracked b) :
    b.reqIds.length = b.numReqs + b.batchUpdateBuilder.removed.length := by
  have hdisjoint : ∀ i ∈ b.reqIdToIndex.values, ∀ j ∈ b.batchUpdateBuilder.removed, i ≠ j := by
    intro i hi j hj heq
    obtain ⟨r, hrow⟩ := h.indexed.mem_values.mp hi
    rw [heq, (h.holes j).mp hj] at hrow
    cases hrow
  have hperm : (b.reqIdToIndex.values ++ b.batchUpdateBuilder.removed).Perm (List.range b.reqIds.length) := by
    refine (List.perm_ext_iff_of_nodup (List.nodup_append.mpr ⟨h.indexed.nodup_values, h.nodup, hdisjoint⟩)
      List.nodup_range).mpr fun i => ?_
    rw [List.mem_append, h.indexed.mem_values, h.holes, List.mem_range]
    constructor
    · rintro (⟨r, hrow⟩ | hrow) <;> exact (List.getElem?_eq_some_iff.mp hrow).1
    · intro hi
      cases hrow : b.reqIds[i]? with
      | none => exact absurd hi (Nat.not_lt.mpr (List.getElem?_eq_none_iff.mp hrow))
      | some content =>
          cases content with
          | none => exact .inr rfl
          | some r => exact .inl ⟨r, rfl⟩
  calc b.reqIds.length = (b.reqIdToIndex.values ++ b.batchUpdateBuilder.removed).length := by
        rw [hperm.length_eq, List.length_range]
    _ = b.numReqs + b.batchUpdateBuilder.removed.length := by rw [List.length_append, length_values]

end Counting


section Holes

variable {b : InputBatch}

theorem perm_ensureRemovedSorted (u : BatchUpdateBuilder) : u.ensureRemovedSorted.removed.Perm u.removed := by
  unfold BatchUpdateBuilder.ensureRemovedSorted
  split_ifs
  · exact List.Perm.refl _
  · exact List.perm_insertionSort _ _

theorem isRemovedSorted_ensureRemovedSorted (u : BatchUpdateBuilder) :
    u.ensureRemovedSorted.isRemovedSorted = true := by
  unfold BatchUpdateBuilder.ensureRemovedSorted
  split_ifs with h
  · exact h
  · rfl

theorem Tracked.pairwise_removed (h : Tracked b) :
    b.batchUpdateBuilder.ensureRemovedSorted.removed.Pairwise (· > ·) := by
  unfold BatchUpdateBuilder.ensureRemovedSorted
  split_ifs with hsorted
  · exact h.sorted hsorted
  · have hge := List.pairwise_insertionSort (· ≥ ·) b.batchUpdateBuilder.removed
    have hne := (List.perm_insertionSort (· ≥ ·) b.batchUpdateBuilder.removed).symm.nodup h.nodup
    exact (hge.and hne).imp fun hij => lt_of_le_of_ne hij.1 hij.2.symm

/-- `hole` is the lowest hole, `rest` are the others. -/
structure Pops (b : InputBatch) (hole : Nat) (rest : List Nat) : Prop where
  isHole : b.reqIds[hole]? = some none
  others : ∀ i, i ∈ rest ↔ i ≠ hole ∧ b.reqIds[i]? = some none
  sorted : rest.Pairwise (· > ·)

theorem Tracked.popRemoved_cases (h : Tracked b) :
    b.batchUpdateBuilder.removed = [] ∧ b.batchUpdateBuilder.popRemoved = (none, b.batchUpdateBuilder) ∨
      ∃ hole rest, b.batchUpdateBuilder.popRemoved = (some hole, ⟨rest, true⟩) ∧ Pops b hole rest := by
  unfold BatchUpdateBuilder.popRemoved
  by_cases hempty : b.batchUpdateBuilder.removed = []
  · exact .inl ⟨hempty, if_pos hempty⟩
  · have hperm := perm_ensureRemovedSorted b.batchUpdateBuilder
    have hpairwise := h.pairwise_removed
    obtain hnil | ⟨rest, hole, hsplit⟩ := List.eq_nil_or_concat b.batchUpdateBuilder.ensureRemovedSorted.removed
    · exact absurd (List.nil_perm.mp (hnil ▸ hperm)) hempty
    · rw [List.concat_eq_append] at hsplit
      rw [hsplit] at hpairwise hperm
      have hmem : ∀ i, i ∈ rest ∨ i = hole ↔ b.reqIds[i]? = some none := by
        intro i
        rw [← h.holes, ← hperm.mem_iff, List.mem_append, List.mem_singleton]
      obtain ⟨hrest, -, hbelow⟩ := List.pairwise_append.mp hpairwise
      have hgt : ∀ i ∈ rest, hole < i := fun i hi => hbelow i hi hole (List.mem_singleton_self hole)
      refine .inr ⟨hole, rest, ?_, (hmem hole).mp (.inr rfl), fun i => ?_, hrest⟩
      · rw [if_neg hempty]
        dsimp only
        rw [hsplit, List.getLast?_concat, List.dropLast_concat, isRemovedSorted_ensureRemovedSorted]
      · rw [← hmem]
        constructor
        · exact fun hi => ⟨(hgt i hi).ne', .inl hi⟩
        · exact fun hi => hi.2.resolve_right hi.1

/-- The row a new request gets, and the holes that are left then. -/
structure NextRow (b : InputBatch) (i : Nat) (u : BatchUpdateBuilder) : Prop where
  le : i ≤ b.reqIds.length
  lt : i < b.maxNumReqs
  empty : ∀ r, b.reqIds[i]? ≠ some (some r)
  holes : ∀ j, j ∈ u.removed ↔ j ≠ i ∧ b.reqIds[j]? = some none
  sorted : u.isRemovedSorted = true → u.removed.Pairwise (· > ·)
  nodup : u.removed.Nodup

theorem wp_registerAddRequest (h : Tracked b) (hroom : b.numReqs < b.maxNumReqs) :
    Eff.wp registerAddRequest (fun i b' => ∃ u, b' = { b with batchUpdateBuilder := u } ∧ NextRow b i u)
      (fun _ _ => False) b := by
  have hlength := h.length_reqIds
  simp only [registerAddRequest, Eff.wp_bind, Eff.wp_read]
  rcases h.popRemoved_cases with ⟨hempty, hpop⟩ | ⟨hole, rest, hpop, hpops⟩
  · -- No holes: the new row comes after the last one.
    rw [hempty, List.length_nil, Nat.add_zero] at hlength
    rw [hpop]
    simp only [Eff.wp_modify, Option.getD_none, if_pos hroom, Eff.wp_pure]
    refine ⟨_, rfl, hlength.ge, hroom, fun r hrow => ?_, fun j => ?_, h.sorted, h.nodup⟩
    · exact absurd (List.getElem?_eq_some_iff.mp hrow).1 (by omega)
    · rw [h.holes, and_iff_right_of_imp]
      intro hrow
      have := (List.getElem?_eq_some_iff.mp hrow).1
      omega
  · have hlt := (List.getElem?_eq_some_iff.mp hpops.isHole).1
    rw [hpop]
    simp only [Eff.wp_modify, Option.getD_some, if_pos (lt_of_lt_of_le hlt h.fits), Eff.wp_pure]
    refine ⟨_, rfl, hlt.le, lt_of_lt_of_le hlt h.fits, fun r hrow => ?_, hpops.others, fun _ => hpops.sorted,
      hpops.sorted.imp fun hij => hij.ne'⟩
    rw [hpops.isHole] at hrow
    cases hrow

end Holes

section Rows

variable {b b' : InputBatch} {r : RequestId} {i : Nat}

theorem state?_congr (hindex : b'.reqIdToIndex.get? r = b.reqIdToIndex.get? r)
    (hrow : ∀ j, b.reqIdToIndex.get? r = some j → b'.rowState j = b.rowState j) : b'.state? r = b.state? r := by
  rw [state?, state?, hindex]
  cases hget : b.reqIdToIndex.get? r with
  | none => rfl
  | some j => exact congrArg some (hrow j hget)

theorem Indexed.state?_of_row (h : Indexed b) (hrow : b.reqIds[i]? = some (some r)) :
    b.state? r = some (b.rowState i) := by
  rw [state?, (h r i).mpr hrow, Option.map_some]

theorem Indexed.row_unique (h : Indexed b) {j : Nat} (hi : b.reqIds[i]? = some (some r))
    (hj : b.reqIds[j]? = some (some r)) : i = j :=
  Option.some.inj (((h r i).mpr hi).symm.trans ((h r j).mpr hj))

theorem Indexed.id_unique (h : Indexed b) {r' : RequestId} (hrow : b.reqIds[i]? = some (some r))
    (hget : b.reqIdToIndex.get? r' = some i) : r' = r := by
  rw [(h r' i).mp hget] at hrow
  exact Option.some.inj (Option.some.inj hrow)

/-- As many requests as before, if the batch has the same ones. -/
theorem numReqs_congr (h : ∀ r, b'.state? r = b.state? r) : b'.numReqs = b.numReqs := by
  have hmem : ∀ r, r ∈ b'.reqIdToIndex.keys ↔ r ∈ b.reqIdToIndex.keys := by
    intro r
    rw [mem_keys_iff_state?, mem_keys_iff_state?, h r]
  exact ((List.perm_ext_iff_of_nodup b'.reqIdToIndex.nodup b.reqIdToIndex.nodup).mpr hmem).length_eq

/-- A request is put into the next row. -/
theorem NextRow.place {u : BatchUpdateBuilder} {request : CachedRequestState} (hnext : NextRow b i u) (h : Tracked b)
    (hnew : b.reqIdToIndex.get? r = none) (hids : ∀ j, b'.reqIds[j]? = if j = i then some (some r) else b.reqIds[j]?)
    (hindex : b'.reqIdToIndex = b.reqIdToIndex.set r i) (hu : b'.batchUpdateBuilder = u)
    (hrow : ∀ j, b'.rowState j = if j = i then request else b.rowState j) (hfits : b'.reqIds.length ≤ b'.maxNumReqs) :
    Tracked b' ∧ ∀ r', b'.state? r' = if r' = r then some request else b.state? r' := by
  refine ⟨⟨fun r' j => ?_, fun j => ?_, hu ▸ hnext.nodup, hu ▸ hnext.sorted, hfits⟩, fun r' => ?_⟩
  · rw [hindex, OrderedDict.get?_set, hids j]
    split_ifs with hr hj hj
    · rw [hr, hj]
      exact iff_of_true rfl rfl
    · rw [hr, ← h.indexed r j, hnew]
      exact ⟨fun heq => absurd (Option.some.inj heq).symm hj, by simp⟩
    · rw [hj, h.indexed r' i]
      refine ⟨fun hrow' => absurd hrow' (hnext.empty r'), fun heq => absurd ?_ hr⟩
      exact (Option.some.inj (Option.some.inj heq)).symm
    · exact h.indexed r' j
  · rw [hu, hnext.holes, hids j]
    split_ifs with hj
    · exact ⟨fun hne => absurd hj hne.1, by simp⟩
    · exact ⟨And.right, fun hhole => ⟨hj, hhole⟩⟩
  · split_ifs with hr
    · rw [hr, state?, hindex, OrderedDict.get?_set_self, Option.map_some, hrow i, if_pos rfl]
    · refine state?_congr (by rw [hindex, OrderedDict.get?_set_of_ne _ _ hr]) fun j hget => ?_
      have hj : j ≠ i := fun heq => hnext.empty r' (heq ▸ (h.indexed r' j).mp hget)
      rw [hrow j, if_neg hj]

theorem wp_addRequest {request : CachedRequestState} (h : Tracked b) (hnew : b.state? r = none)
    (hroom : b.numReqs < b.maxNumReqs) (hfits : request.blockIds.length ≤ b.blockTable.maxNumBlocksPerReq) :
    Eff.wp (addRequest r request)
      (fun _ b' => Tracked b' ∧ SameLimits b b' ∧ ∀ r', b'.state? r' = if r' = r then some request else b.state? r')
      (fun _ _ => False) b := by
  rw [state?_eq_none_iff] at hnew
  rw [addRequest, Eff.wp_bind]
  refine Eff.wp_mono (wp_registerAddRequest h hroom) (fun i b₁ hregister => ?_) fun _ _ hf => hf
  obtain ⟨u, rfl, hnext⟩ := hregister
  simp only [Eff.wp_bind, Eff.wp_read, if_neg (Nat.not_lt.mpr hnext.le), Eff.wp_modify]
  refine (Eff.wp_zoom _ _ _).mpr (Eff.wp_mono (BlockTable.wp_addRow hfits) (fun _ t hrows => ?_) fun _ _ hf => hf)
  obtain ⟨hwidth, hrows⟩ := hrows
  rw [Eff.wp_pure, and_left_comm]
  refine ⟨⟨rfl, hwidth⟩, hnext.place h hnew (fun j => getElem?_place hnext.le j) rfl rfl (fun j => ?_) ?_⟩
  · rw [rowState, rowState, hrows j]
    dsimp only
    by_cases hj : j = i
    · rw [hj, if_pos rfl, if_pos rfl, Function.update_self, Function.update_self]
    · rw [if_neg hj, if_neg hj, Function.update_of_ne hj, Function.update_of_ne hj]
  · have hlt := hnext.lt
    by_cases hlast : i = b.reqIds.length
    · rw [if_pos hlast, List.length_append, List.length_singleton]
      exact hlast ▸ hlt
    · rw [if_neg hlast, List.length_set]
      exact h.fits

theorem wp_removeRequest (h : Tracked b) (hunread : b.batchUpdateBuilder.isRemovedSorted = false) :
    Eff.wp (removeRequest r)
      (fun _ b' => Tracked b' ∧ SameLimits b b' ∧ b'.batchUpdateBuilder.isRemovedSorted = false ∧
        ∀ r', b'.state? r' = if r' = r then none else b.state? r')
      (fun _ _ => False) b := by
  simp only [removeRequest, Eff.wp_bind, Eff.wp_read]
  cases hget : b.reqIdToIndex.get? r with
  | none =>
      rw [Eff.wp_pure]
      refine ⟨h, .refl b, hunread, fun r' => ?_⟩
      split_ifs with hr
      · rw [hr, state?_eq_none_iff, hget]
      · rfl
  | some i =>
      have hrow := (h.indexed r i).mp hget
      have hlt := (List.getElem?_eq_some_iff.mp hrow).1
      simp only [Eff.wp_bind, Eff.wp_modify, Eff.wp_zoom, BatchUpdateBuilder.removedAppend, Eff.wp_read, hunread,
        Bool.false_eq_true, if_false, Eff.wp_pure]
      have hcontent : ∀ j, (b.reqIds.set i none)[j]? = if j = i then some none else b.reqIds[j]? := by
        intro j
        rw [List.getElem?_set]
        split_ifs with hij hji hji
        · rfl
        · exact absurd hij.symm hji
        · exact absurd hji.symm hij
        · rfl
      have hnot : i ∉ b.batchUpdateBuilder.removed := by
        rw [h.holes, hrow]
        simp
      refine ⟨⟨fun r' j => ?_, fun j => ?_, ?_, by simp, ?_⟩, ⟨rfl, rfl⟩, True.intro, fun r' => ?_⟩
      · show (b.reqIdToIndex.erase r).get? r' = some j ↔ (b.reqIds.set i none)[j]? = some (some r')
        rw [OrderedDict.get?_erase, hcontent j]
        split_ifs with hr hj hj
        · exact ⟨by simp, by simp⟩
        · rw [hr]
          exact ⟨by simp, fun hrow' => absurd (h.indexed.row_unique hrow' hrow) hj⟩
        · rw [hj, h.indexed r' i, hrow]
          exact ⟨fun heq => absurd (Option.some.inj (Option.some.inj heq)).symm hr, by simp⟩
        · exact h.indexed r' j
      · show j ∈ b.batchUpdateBuilder.removed ++ [i] ↔ (b.reqIds.set i none)[j]? = some none
        rw [List.mem_append, List.mem_singleton, h.holes, hcontent j]
        split_ifs with hj
        · exact iff_of_true (.inr hj) rfl
        · exact or_iff_left hj
      · exact List.nodup_append.mpr ⟨h.nodup, List.nodup_singleton i, fun j hj k hk =>
          fun heq => hnot (List.mem_singleton.mp hk ▸ heq ▸ hj)⟩
      · show (b.reqIds.set i none).length ≤ b.maxNumReqs
        rw [List.length_set]
        exact h.fits
      · split_ifs with hr
        · rw [hr, state?_eq_none_iff]
          exact OrderedDict.get?_erase_self _ _
        · refine state?_congr (OrderedDict.get?_erase_of_ne _ hr) fun j hget' => ?_
          have hj : j ≠ i := fun heq => hr (h.indexed.id_unique hrow (heq ▸ hget'))
          rw [rowState, rowState]
          dsimp only
          rw [BlockTable.row_clearRow, if_neg hj]

theorem wp_updateRow {n : Nat} {newBlockIds : Option (List Nat)} (h : Tracked b) (hget : b.reqIdToIndex.get? r = some i)
    (hfits : (b.blockTable.row i).length + (newBlockIds.getD []).length ≤ b.blockTable.maxNumBlocksPerReq) :
    Eff.wp (updateRow i n newBlockIds)
      (fun _ b' => Tracked b' ∧ SameLimits b b' ∧ b'.batchUpdateBuilder = b.batchUpdateBuilder ∧
        ∀ r', b'.state? r' = if r' = r then
          some ⟨b.numPromptTokens i, n, b.blockTable.row i ++ newBlockIds.getD []⟩ else b.state? r')
      (fun _ _ => False) b := by
  -- Whatever the new blocks are, the block table is written as by `append_row`.
  have hprogram : Eff.wp (updateRow i n newBlockIds)
      (fun _ b' => ∃ t : BlockTable, t.maxNumBlocksPerReq = b.blockTable.maxNumBlocksPerReq ∧
        (∀ j, t.row j = if j = i then b.blockTable.row i ++ newBlockIds.getD [] else b.blockTable.row j) ∧
        b' = { b with numComputedTokensCpu := Function.update b.numComputedTokensCpu i n, blockTable := t })
      (fun _ _ => False) b := by
    cases newBlockIds with
    | none =>
        simp only [updateRow, Eff.wp_bind, Eff.wp_modify, Eff.wp_pure, Option.getD_none, List.append_nil]
        refine ⟨b.blockTable, rfl, fun j => ?_, rfl⟩
        split_ifs with hj
        · rw [hj]
        · rfl
    | some ids =>
        simp only [updateRow, Eff.wp_bind, Eff.wp_modify, Option.getD_some]
        refine (Eff.wp_zoom _ _ _).mpr
          (Eff.wp_mono (BlockTable.wp_appendRow hfits) (fun _ t hrows => ?_) fun _ _ hf => hf)
        exact ⟨t, hrows.1, hrows.2, rfl⟩
  refine Eff.wp_mono hprogram (fun _ b' hend => ?_) fun _ _ hf => hf
  obtain ⟨t, hwidth, hrows, rfl⟩ := hend
  refine ⟨⟨h.indexed, h.holes, h.nodup, h.sorted, h.fits⟩, ⟨rfl, hwidth⟩, rfl, fun r' => ?_⟩
  split_ifs with hr
  · rw [hr, state?]
    show (b.reqIdToIndex.get? r).map _ = _
    rw [hget, Option.map_some, rowState]
    dsimp only
    rw [Function.update_self, hrows i, if_pos rfl]
  · refine state?_congr rfl fun j hget' => ?_
    have hj : j ≠ i := fun heq => hr (h.indexed.id_unique ((h.indexed r i).mp hget) (heq ▸ hget'))
    rw [rowState, rowState]
    dsimp only
    rw [Function.update_of_ne hj, hrows j, if_neg hj]

end Rows

end InputBatch

end KVOffload

import KVOffload.BaseOrderedDict
import Mathlib.Data.List.Sort

/-! The residency table, the authoritative map from logical blocks to where their bytes live. The
table carries its own consistency: the CPU-only counter agrees with the entries, the per-request
index lists exactly the tracked blocks, and every location records the fields its residency needs.
Each `mark*` operation therefore has to re-establish them, and no client proves them again. -/

namespace KVOffload
open Base

/-- A Python `str`, by its characters. -/
abbrev RequestId := List Char

/-- Request-local identity of a KV block, independent of the physical allocator. -/
structure BlockRef where
  requestId : RequestId
  blockIdx : Int
  deriving DecidableEq, Repr

/-- `str(request_id).startswith("_warmup_")`. -/
def isWarmup (requestId : RequestId) : Bool :=
  requestId.take 8 = ['_', 'w', 'a', 'r', 'm', 'u', 'p', '_']

inductive ErrorKind where
  | keyError | valueError | runtimeError | assertionError | indexError | deviceError
  deriving DecidableEq, Repr

/-- Why the index patch gave up: `_patch_bail_reason`. -/
inductive BailReason where
  | idsEmpty
  | idsGtReqs
  /-- "row_alignment b={b} rid={rid} tracked={tracked} row_pages={row_pages}" -/
  | rowAlignment (b : Nat) (requestId : RequestId) (tracked : Nat) (rowPages : Int)
  deriving DecidableEq, Repr

/-- What the modelled code can raise, with the data its message shows. -/
inductive PyError where
  /-- "No GPU mapping recorded for {ref}" -/
  | noGpuMapping (ref : BlockRef)
  /-- "No CPU slot recorded for {ref}" -/
  | noCpuSlot (ref : BlockRef)
  /-- "Unknown logical block {ref}" -/
  | unknownBlock (ref : BlockRef)
  /-- A subscript of a dictionary that lacks the key. -/
  | missingKey (ref : BlockRef)
  /-- "{ref} is not backed by a CPU slot" -/
  | notBackedByCpu (ref : BlockRef)
  /-- "No staging slots available and no candidates to evict" -/
  | noStagingSlots
  /-- "Cannot evict staging block {evicted}" -/
  | cannotEvict (ref : BlockRef)
  /-- "fraction must be in [0, 1)" -/
  | badFraction
  /-- "budget must be non-negative" -/
  | negativeBudget
  /-- "eviction candidates must all be scored; unscored={unscored[:5]}" -/
  | unscored (refs : List BlockRef)
  /-- "empty batch" -/
  | emptyBatch
  /-- "CPU offload pool exhausted: need {n}, free {num_free}" -/
  | cpuPoolExhausted (need free : Nat)
  /-- "CPU offload pool exhausted" -/
  | cpuPoolEmpty
  /-- "request_ids must match sparse batch size" -/
  | sparseBatchMismatch
  /-- "paged_kv_indptr must have B+1 entries" -/
  | indptrTooShort
  /-- A tensor position outside the tensor. -/
  | indexOutOfRange
  /-- "num_tokens must be >= 0" -/
  | negativeTokens
  /-- "offload index patch bailed ({reason}) on a decode step with {n} CPU-resident blocks under true
  freeing; refusing to let the kernel read freed pages." -/
  | patchBailed (reason : BailReason) (numCpuBlocks : Int)
  /-- "Cannot get {num_blocks} free blocks from the pool" -/
  | noFreeBlocks (numBlocks : Nat)
  /-- "num_staging_slots ({num_slots}) must be < num_gpu_blocks ({n})" -/
  | stagingTooLarge (numSlots : Int) (numGpuBlocks : Nat)
  /-- "staging tail overlaps the pool null block" -/
  | stagingOverlapsNull
  /-- "staging tail block {blk.block_id} is already in use (reserve_staging_tail must run before any
  allocation)" -/
  | stagingInUse (block : Nat)
  /-- Raised by the tensor runtime: an allocation, a kernel, a copy or a synchronisation. -/
  | device
  deriving DecidableEq, Repr

def PyError.kind : PyError → ErrorKind
  | noGpuMapping _ | noCpuSlot _ | unknownBlock _ | missingKey _ => .keyError
  | notBackedByCpu _ | noStagingSlots | cannotEvict _ | cpuPoolExhausted _ _ | cpuPoolEmpty
  | patchBailed _ _ | stagingInUse _ => .runtimeError
  | badFraction | negativeBudget | emptyBatch | sparseBatchMismatch | indptrTooShort | negativeTokens
  | noFreeBlocks _ | stagingTooLarge _ _ | stagingOverlapsNull => .valueError
  | indexOutOfRange => .indexError
  | unscored _ => .assertionError
  | device => .deviceError

inductive Residency where
  | gpu | cpu | staging
  deriving DecidableEq, Repr

structure BlockLocation where
  residency : Residency
  gpuBlockId : Option Nat := none
  cpuSlot : Option Nat := none
  stagingSlot : Option Nat := none
  complete : Bool := false
  deriving DecidableEq, Repr

/-- The fields a location of each residency has. -/
structure BlockLocation.WellFormed (loc : BlockLocation) : Prop where
  gpuBlockId_isSome : loc.gpuBlockId.isSome
  cpuSlot_isSome : loc.residency ≠ .gpu → loc.cpuSlot.isSome
  stagingSlot_isSome : loc.stagingSlot.isSome ↔ loc.residency = .staging

/-- Marks the blocks whose only backing store is the CPU copy. -/
def cpuOnly (_ : BlockRef) (loc : BlockLocation) : Option Unit :=
  if loc.residency = .cpu then some () else none

def cpuCount (blocks : OrderedDict BlockRef BlockLocation) : Nat := (blocks.collect cpuOnly).length

def isCpu (old : Option BlockLocation) : Bool := old.any fun loc => loc.residency = .cpu

theorem cpuCount_erase (blocks : OrderedDict BlockRef BlockLocation) (ref : BlockRef) :
    cpuCount blocks = (if isCpu (blocks.get? ref) then 1 else 0) + cpuCount (blocks.erase ref) := by
  cases hold : blocks.get? ref with
  | none => simp [isCpu, OrderedDict.erase_of_get?_eq_none hold]
  | some loc =>
      have hcard := congrArg Multiset.card (OrderedDict.coe_collect_of_get? cpuOnly hold)
      rw [Multiset.card_add, Multiset.coe_card, Multiset.coe_card, Multiset.coe_card] at hcard
      rw [cpuCount, cpuCount, hcard, cpuOnly]
      by_cases h : loc.residency = .cpu <;> simp [isCpu, h]

theorem cpuCount_set (blocks : OrderedDict BlockRef BlockLocation) (ref : BlockRef) (loc : BlockLocation) :
    (cpuCount (blocks.set ref loc) : Int) =
      cpuCount blocks - (if isCpu (blocks.get? ref) then 1 else 0) + (if loc.residency = .cpu then 1 else 0) := by
  have hcard := congrArg Multiset.card (OrderedDict.coe_collect_set cpuOnly blocks ref loc)
  rw [Multiset.card_add, Multiset.coe_card, Multiset.coe_card, Multiset.coe_card] at hcard
  have hset : cpuCount (blocks.set ref loc) =
      (if loc.residency = .cpu then 1 else 0) + cpuCount (blocks.erase ref) := by
    rw [cpuCount, hcard, cpuOnly, cpuCount]
    by_cases h : loc.residency = .cpu <;> simp [h]
  have herase := cpuCount_erase blocks ref
  split_ifs at hset herase ⊢ <;> omega

structure ResidencyTable where
  blocks : OrderedDict BlockRef BlockLocation
  numCpu : Int
  cpuVersion : Nat
  byRequest : OrderedDict RequestId (OrderedDict Int BlockRef)
  numCpu_eq : numCpu = cpuCount blocks
  byRequest_get? : ∀ r i, (byRequest.get? r).bind (·.get? i) = if ⟨r, i⟩ ∈ blocks.keys then some ⟨r, i⟩ else none
  wellFormed : ∀ ref loc, blocks.get? ref = some loc → loc.WellFormed

namespace ResidencyTable

def empty : ResidencyTable where
  blocks := .empty
  numCpu := 0
  cpuVersion := 0
  byRequest := .empty
  numCpu_eq := rfl
  byRequest_get? := fun _ _ => rfl
  wellFormed := fun ref loc h => by simp at h

def get (t : ResidencyTable) (ref : BlockRef) : Option BlockLocation := t.blocks.get? ref

/-- Replaces the location of a tracked block. The CPU-only counter and the version move exactly when
the block enters or leaves CPU-only residency. -/
def relocate (t : ResidencyTable) (ref : BlockRef) (loc : BlockLocation) (hloc : loc.WellFormed)
    (hmem : ref ∈ t.blocks.keys) : ResidencyTable where
  blocks := t.blocks.set ref loc
  numCpu := t.numCpu - (if isCpu (t.get ref) then 1 else 0) + (if loc.residency = .cpu then 1 else 0)
  cpuVersion := if isCpu (t.get ref) = decide (loc.residency = .cpu) then t.cpuVersion else t.cpuVersion + 1
  byRequest := t.byRequest
  numCpu_eq := by rw [cpuCount_set, t.numCpu_eq, get]
  byRequest_get? := fun r i => by
    rw [t.byRequest_get?]
    by_cases h : (⟨r, i⟩ : BlockRef) = ref
    · simp [OrderedDict.mem_keys_set, h, hmem]
    · simp [OrderedDict.mem_keys_set, h]
  wellFormed := fun r loc' h => by
    rw [OrderedDict.get?_set] at h
    split_ifs at h
    · exact Option.some.inj h ▸ hloc
    · exact t.wellFormed r loc' h

/-- The index after `setdefault(ref.request_id, {})[ref.block_idx] = ref`. -/
def indexWith (byRequest : OrderedDict RequestId (OrderedDict Int BlockRef)) (ref : BlockRef) :
    OrderedDict RequestId (OrderedDict Int BlockRef) :=
  byRequest.set ref.requestId (((byRequest.get? ref.requestId).getD .empty).set ref.blockIdx ref)

theorem indexWith_get? (byRequest : OrderedDict RequestId (OrderedDict Int BlockRef)) (ref : BlockRef)
    (r : RequestId) (i : Int) :
    ((indexWith byRequest ref).get? r).bind (·.get? i) =
      if (⟨r, i⟩ : BlockRef) = ref then some ref else (byRequest.get? r).bind (·.get? i) := by
  obtain ⟨r', i'⟩ := ref
  simp only [indexWith, OrderedDict.get?_set, BlockRef.mk.injEq]
  by_cases hr : r = r'
  · subst hr
    cases hget : byRequest.get? r <;> by_cases hi : i = i' <;> simp [OrderedDict.get?_set, hi]
  · simp [hr]

/-- `mark_gpu`: the only operation that starts tracking a block. -/
def markGpu (t : ResidencyTable) (ref : BlockRef) (gpuBlockId : Nat) (complete : Bool) : ResidencyTable where
  blocks := t.blocks.set ref
    { residency := .gpu
      gpuBlockId := some gpuBlockId
      cpuSlot := (t.get ref).bind (·.cpuSlot)
      complete := complete }
  numCpu := if isCpu (t.get ref) then t.numCpu - 1 else t.numCpu
  cpuVersion := if isCpu (t.get ref) then t.cpuVersion + 1 else t.cpuVersion
  byRequest := indexWith t.byRequest ref
  numCpu_eq := by
    rw [cpuCount_set, t.numCpu_eq, get]
    split_ifs <;> simp_all
  byRequest_get? := fun r i => by
    rw [indexWith_get?, t.byRequest_get?]
    by_cases h : (⟨r, i⟩ : BlockRef) = ref <;> simp [OrderedDict.mem_keys_set, h]
  wellFormed := fun r loc h => by
    rw [OrderedDict.get?_set] at h
    split_ifs at h
    · cases h
      exact ⟨rfl, fun h => absurd rfl h, by simp⟩
    · exact t.wellFormed r loc h

/-- `mark_complete`. -/
def markComplete (t : ResidencyTable) (ref : BlockRef) : Except PyError ResidencyTable :=
  match h : t.get ref with
  | none => .error (.missingKey ref)
  | some loc => .ok (t.relocate ref { loc with complete := true }
      ⟨(t.wellFormed ref loc h).1, (t.wellFormed ref loc h).2, (t.wellFormed ref loc h).3⟩
      (OrderedDict.mem_keys_of_get? h))

/-- `mark_cpu`. -/
def markCpu (t : ResidencyTable) (ref : BlockRef) (cpuSlot : Nat) : Except PyError ResidencyTable :=
  match h : t.get ref with
  | none => .error (.noGpuMapping ref)
  | some old =>
      match hg : old.gpuBlockId with
      | none => .error (.noGpuMapping ref)
      | some gpuBlockId => .ok (t.relocate ref
          { residency := .cpu, gpuBlockId := some gpuBlockId, cpuSlot := some cpuSlot, complete := old.complete }
          ⟨rfl, fun _ => rfl, by simp⟩ (OrderedDict.mem_keys_of_get? h))

/-- `mark_staging`. -/
def markStaging (t : ResidencyTable) (ref : BlockRef) (stagingSlot : Nat) : Except PyError ResidencyTable :=
  match h : t.get ref with
  | none => .error (.missingKey ref)
  | some old =>
      match hc : old.cpuSlot with
      | none => .error (.noCpuSlot ref)
      | some cpuSlot => .ok (t.relocate ref
          { residency := .staging, gpuBlockId := old.gpuBlockId, cpuSlot := some cpuSlot,
            stagingSlot := some stagingSlot, complete := old.complete }
          ⟨(t.wellFormed ref old h).1, fun _ => rfl, by simp⟩ (OrderedDict.mem_keys_of_get? h))

/-- The index without `ref`; a request whose last block goes is dropped. -/
def indexWithout (byRequest : OrderedDict RequestId (OrderedDict Int BlockRef)) (ref : BlockRef) :
    OrderedDict RequestId (OrderedDict Int BlockRef) :=
  match byRequest.get? ref.requestId with
  | none => byRequest
  | some reqBlocks =>
      if (reqBlocks.erase ref.blockIdx).items = [] then byRequest.erase ref.requestId
      else byRequest.set ref.requestId (reqBlocks.erase ref.blockIdx)

theorem indexWithout_get? (byRequest : OrderedDict RequestId (OrderedDict Int BlockRef)) (ref : BlockRef)
    (r : RequestId) (i : Int) :
    ((indexWithout byRequest ref).get? r).bind (·.get? i) =
      if (⟨r, i⟩ : BlockRef) = ref then none else (byRequest.get? r).bind (·.get? i) := by
  obtain ⟨r', i'⟩ := ref
  simp only [indexWithout, BlockRef.mk.injEq]
  cases hget : byRequest.get? r' with
  | none => by_cases hr : r = r' <;> simp_all
  | some reqBlocks =>
      by_cases hr : r = r'
      · subst hr
        have herase : (reqBlocks.erase i').get? i = if i = i' then none else reqBlocks.get? i :=
          OrderedDict.get?_erase reqBlocks i' i
        by_cases hempty : (reqBlocks.erase i').items = []
        · have hnone : (reqBlocks.erase i').get? i = none := by
            rw [OrderedDict.get?, hempty]; rfl
          simp [hempty, hget, ← herase, hnone]
        · simp [hempty, hget, ← herase]
      · by_cases hempty : (reqBlocks.erase i').items = [] <;>
          simp [hempty, OrderedDict.get?_erase, OrderedDict.get?_set, hr]

/-- `remove`, which also returns the location it dropped. -/
def remove (t : ResidencyTable) (ref : BlockRef) : Option BlockLocation × ResidencyTable :=
  (t.get ref,
    { blocks := t.blocks.erase ref
      numCpu := if isCpu (t.get ref) then t.numCpu - 1 else t.numCpu
      cpuVersion := if isCpu (t.get ref) then t.cpuVersion + 1 else t.cpuVersion
      byRequest := if (t.get ref).isSome then indexWithout t.byRequest ref else t.byRequest
      numCpu_eq := by
        have h := cpuCount_erase t.blocks ref
        rw [t.numCpu_eq, get]
        split_ifs at h ⊢ <;> omega
      byRequest_get? := fun r i => by
        by_cases htracked : (t.get ref).isSome
        · rw [if_pos htracked, indexWithout_get?, t.byRequest_get?]
          by_cases h : (⟨r, i⟩ : BlockRef) = ref <;> simp [OrderedDict.mem_keys_erase, h]
        · rw [if_neg htracked, t.byRequest_get?]
          by_cases h : (⟨r, i⟩ : BlockRef) = ref
          · have hnot : ref ∉ t.blocks.keys := OrderedDict.get?_eq_none_iff.mp (by simpa [get] using htracked)
            simp [OrderedDict.mem_keys_erase, h, hnot]
          · simp [OrderedDict.mem_keys_erase, h]
      wellFormed := fun r loc h => by
        rw [OrderedDict.get?_erase] at h
        split_ifs at h
        exact t.wellFormed r loc h })

/-- `all_gpu_blocks`, in the order the blocks were first tracked. -/
def allGpuBlocks (t : ResidencyTable) (completeOnly : Bool) : List BlockRef :=
  (t.blocks.items.filter fun e => e.2.residency = .gpu ∧ (e.2.complete ∨ ¬completeOnly)).map Prod.fst

/-- `refs_for_request`. -/
def refsForRequest (t : ResidencyTable) (requestId : RequestId) : List BlockRef :=
  match t.byRequest.get? requestId with
  | none => []
  | some reqBlocks => (reqBlocks.keys.insertionSort (· ≤ ·)).filterMap reqBlocks.get?

theorem get_markGpu (t : ResidencyTable) (ref ref' : BlockRef) (gpuBlockId : Nat) (complete : Bool) :
    (t.markGpu ref gpuBlockId complete).get ref' =
      if ref' = ref then
        some { residency := .gpu, gpuBlockId := some gpuBlockId, cpuSlot := (t.get ref).bind (·.cpuSlot),
               complete := complete }
      else t.get ref' :=
  OrderedDict.get?_set _ _ _ _

/-- What a successful mark of a tracked block does to the table: one entry is replaced. -/
def Relocates (t t' : ResidencyTable) (ref : BlockRef) (loc : BlockLocation) : Prop :=
  t'.blocks = t.blocks.set ref loc

theorem Relocates.get {t t' : ResidencyTable} {ref : BlockRef} {loc : BlockLocation}
    (h : Relocates t t' ref loc) (ref' : BlockRef) :
    t'.get ref' = if ref' = ref then some loc else t.get ref' := by
  rw [ResidencyTable.get, h, OrderedDict.get?_set, ResidencyTable.get]

theorem markComplete_of_get {t : ResidencyTable} {ref : BlockRef} {loc : BlockLocation}
    (h : t.get ref = some loc) :
    ∃ t', t.markComplete ref = .ok t' ∧ Relocates t t' ref { loc with complete := true } ∧
      t'.cpuVersion = t.cpuVersion := by
  unfold markComplete
  split
  · simp_all
  · rename_i loc' h'
    obtain rfl : loc' = loc := by simpa [h] using h'.symm
    refine ⟨_, rfl, rfl, ?_⟩
    simp [relocate, h, isCpu]

theorem relocate_of_get {t : ResidencyTable} {ref : BlockRef} {loc : BlockLocation} (h : t.get ref = some loc)
    (hloc : loc.WellFormed) (hmem : ref ∈ t.blocks.keys) : t.relocate ref loc hloc hmem = t := by
  have hblocks : t.blocks.set ref loc = t.blocks := OrderedDict.set_of_get? h
  have hcpu : isCpu (t.get ref) = decide (loc.residency = .cpu) := by rw [h]; rfl
  obtain ⟨blocks, numCpu, cpuVersion, byRequest, _, _, _⟩ := t
  rw [relocate, mk.injEq, hcpu, if_pos rfl]
  refine ⟨hblocks, ?_, rfl, rfl⟩
  by_cases hres : loc.residency = .cpu <;> simp [hres]

/-- Marking a complete block complete again changes nothing. -/
theorem markComplete_of_complete {t : ResidencyTable} {ref : BlockRef} {loc : BlockLocation}
    (h : t.get ref = some loc) (hcomplete : loc.complete = true) : t.markComplete ref = .ok t := by
  have hsame : ({ loc with complete := true } : BlockLocation) = loc := by rw [← hcomplete]
  unfold markComplete
  split
  · simp_all
  · rename_i loc' h'
    obtain rfl : loc' = loc := by simpa [h] using h'.symm
    refine congrArg Except.ok (relocate_of_get ?_ _ _)
    rw [hsame, h]

theorem markCpu_of_get {t : ResidencyTable} {ref : BlockRef} {old : BlockLocation} (h : t.get ref = some old)
    (cpuSlot : Nat) :
    ∃ t', t.markCpu ref cpuSlot = .ok t' ∧
      Relocates t t' ref { residency := .cpu, gpuBlockId := old.gpuBlockId, cpuSlot := some cpuSlot,
                           complete := old.complete } := by
  unfold markCpu
  split
  · simp_all
  · rename_i old' h'
    obtain rfl : old' = old := by simpa [h] using h'.symm
    split
    · rename_i hnone
      have hsome := (t.wellFormed ref old' h).gpuBlockId_isSome
      simp [hnone] at hsome
    · rename_i gpuBlockId hsome
      exact ⟨_, rfl, by rw [hsome]; rfl⟩

theorem markStaging_of_get {t : ResidencyTable} {ref : BlockRef} {old : BlockLocation} {cpuSlot : Nat}
    (h : t.get ref = some old) (hslot : old.cpuSlot = some cpuSlot) (stagingSlot : Nat) :
    ∃ t', t.markStaging ref stagingSlot = .ok t' ∧
      Relocates t t' ref { residency := .staging, gpuBlockId := old.gpuBlockId, cpuSlot := some cpuSlot,
                           stagingSlot := some stagingSlot, complete := old.complete } := by
  unfold markStaging
  split
  · simp_all
  · rename_i old' h'
    obtain rfl : old' = old := by simpa [h] using h'.symm
    split
    · simp_all
    · rename_i slot hsome
      obtain rfl : slot = cpuSlot := by simpa [hslot] using hsome.symm
      exact ⟨_, rfl, rfl⟩

theorem get_remove (t : ResidencyTable) (ref ref' : BlockRef) :
    (t.remove ref).2.get ref' = if ref' = ref then none else t.get ref' :=
  OrderedDict.get?_erase _ _ _

theorem mem_allGpuBlocks {t : ResidencyTable} {ref : BlockRef} :
    ref ∈ t.allGpuBlocks true ↔ ∃ loc, t.get ref = some loc ∧ loc.residency = .gpu ∧ loc.complete = true := by
  simp only [allGpuBlocks, List.mem_map, List.mem_filter, get, OrderedDict.get?_eq_some_iff]
  constructor
  · rintro ⟨⟨_, loc⟩, ⟨hmem, hloc⟩, rfl⟩
    exact ⟨loc, hmem, by simpa using hloc⟩
  · rintro ⟨loc, hmem, hloc⟩
    exact ⟨(ref, loc), ⟨hmem, by simpa using hloc⟩, rfl⟩

theorem mem_keys_iff_isSome {t : ResidencyTable} {ref : BlockRef} : ref ∈ t.blocks.keys ↔ (t.get ref).isSome := by
  rw [OrderedDict.mem_keys_iff, Option.isSome_iff_exists, get]

/-- The blocks of a request in ascending index order, each tracked index once. -/
theorem refsForRequest_eq_map (t : ResidencyTable) (r : RequestId) :
    ∃ idxs : List Int, t.refsForRequest r = idxs.map (fun i => ⟨r, i⟩) ∧ idxs.Pairwise (· < ·) ∧
      ∀ i, i ∈ idxs ↔ (t.get ⟨r, i⟩).isSome := by
  have hindex := t.byRequest_get? r
  unfold refsForRequest
  cases hget : t.byRequest.get? r with
  | none =>
      refine ⟨[], rfl, List.Pairwise.nil, fun i => ?_⟩
      have hi := hindex i
      rw [hget, Option.bind_none] at hi
      rw [← mem_keys_iff_isSome]
      by_cases hmem : (⟨r, i⟩ : BlockRef) ∈ t.blocks.keys
      · rw [if_pos hmem] at hi
        cases hi
      · simpa using hmem
  | some reqBlocks =>
      have hblocks : ∀ i, reqBlocks.get? i = if (⟨r, i⟩ : BlockRef) ∈ t.blocks.keys then some ⟨r, i⟩ else none := by
        intro i
        simpa [hget] using hindex i
      have hkeys : ∀ i, i ∈ reqBlocks.keys ↔ (⟨r, i⟩ : BlockRef) ∈ t.blocks.keys := by
        intro i
        rw [OrderedDict.mem_keys_iff, hblocks]
        by_cases h : (⟨r, i⟩ : BlockRef) ∈ t.blocks.keys <;> simp [h]
      refine ⟨reqBlocks.keys.insertionSort (· ≤ ·), ?_, ?_, fun i => ?_⟩
      · rw [← List.filterMap_eq_map]
        refine List.filterMap_congr fun i hi => ?_
        rw [List.mem_insertionSort, hkeys] at hi
        rw [hblocks, if_pos hi]
        rfl
      · have hle := List.pairwise_insertionSort (· ≤ ·) reqBlocks.keys
        have hne : (reqBlocks.keys.insertionSort (· ≤ ·)).Nodup :=
          (List.perm_insertionSort _ _).nodup_iff.mpr reqBlocks.nodup
        exact hle.imp₂ (fun i j hij hne => lt_of_le_of_ne hij hne) hne
      · rw [List.mem_insertionSort, hkeys, mem_keys_iff_isSome]

theorem refsForRequest_nodup (t : ResidencyTable) (r : RequestId) : (t.refsForRequest r).Nodup := by
  obtain ⟨idxs, hrefs, hlt, -⟩ := t.refsForRequest_eq_map r
  rw [hrefs]
  rw [List.Nodup, List.pairwise_map]
  apply hlt.imp
  intro i j hij heq
  exact ne_of_lt hij (BlockRef.mk.inj heq).2

/-- The tracked block indices of `r` are exactly `0, …, n - 1`. -/
def TracksRange (t : ResidencyTable) (r : RequestId) (n : Nat) : Prop :=
  ∀ i : Int, (t.get ⟨r, i⟩).isSome ↔ 0 ≤ i ∧ i < n

theorem TracksRange.refsForRequest {t : ResidencyTable} {r : RequestId} {n : Nat} (h : t.TracksRange r n) :
    t.refsForRequest r = (List.range n).map fun i : Nat => ⟨r, (i : Int)⟩ := by
  obtain ⟨idxs, hrefs, hlt, hmem⟩ := t.refsForRequest_eq_map r
  have hrange : ((List.range n).map fun i : Nat => (i : Int)).Pairwise (· < ·) := by
    rw [List.pairwise_map]
    exact List.pairwise_lt_range.imp fun hij => Int.ofNat_lt.mpr hij
  have hidxs : idxs = (List.range n).map fun i : Nat => (i : Int) := by
    refine List.SortedLT.eq_of_mem_iff hlt.sortedLT hrange.sortedLT fun i => ?_
    rw [hmem, h, List.mem_map]
    constructor
    · rintro ⟨hnonneg, hlt⟩
      exact ⟨i.toNat, by rw [List.mem_range]; omega, Int.toNat_of_nonneg hnonneg⟩
    · rintro ⟨j, hj, rfl⟩
      rw [List.mem_range] at hj
      omega
  rw [hrefs, hidxs, List.map_map]
  rfl

theorem allGpuBlocks_nodup (t : ResidencyTable) (completeOnly : Bool) : (t.allGpuBlocks completeOnly).Nodup :=
  t.blocks.nodup.sublist (List.filter_sublist.map Prod.fst)

end ResidencyTable

end KVOffload

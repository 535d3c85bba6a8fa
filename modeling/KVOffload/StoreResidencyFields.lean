import KVOffload.BaseProgram
import KVOffload.StoreResidency
import Mathlib.Data.Finset.Basic

/-! The residency table as the code keeps it: four fields, each updated by hand in every operation, with
nothing that ties them together. Every table the code can reach is the fields of a `ResidencyTable`,
so the counter, the version and the index are always what a scan of the entries would give. -/

namespace KVOffload
open Base

structure TableFields where
  blocks : OrderedDict BlockRef BlockLocation
  numCpu : Int
  cpuVersion : Nat
  byRequest : OrderedDict RequestId (OrderedDict Int BlockRef)

namespace TableFields

def empty : TableFields := ⟨.empty, 0, 0, .empty⟩

/-- A block left CPU-only residency. -/
def leaveCpu (t : TableFields) : TableFields := { t with numCpu := t.numCpu - 1, cpuVersion := t.cpuVersion + 1 }

/-- A block entered CPU-only residency. -/
def enterCpu (t : TableFields) : TableFields := { t with numCpu := t.numCpu + 1, cpuVersion := t.cpuVersion + 1 }

/-- `mark_gpu`. -/
def markGpu (t : TableFields) (ref : BlockRef) (gpuBlockId : Nat) (complete : Bool) : TableFields :=
  let old := t.blocks.get? ref
  let t := if isCpu old then t.leaveCpu else t
  { t with
    blocks := t.blocks.set ref
      { residency := .gpu, gpuBlockId := some gpuBlockId, cpuSlot := old.bind (·.cpuSlot), complete := complete }
    byRequest := ResidencyTable.indexWith t.byRequest ref }

/-- `mark_complete`. -/
def markComplete (t : TableFields) (ref : BlockRef) : Except PyError Unit × TableFields :=
  match t.blocks.get? ref with
  | none => (.error (.missingKey ref), t)
  | some loc => (.ok (), { t with blocks := t.blocks.set ref { loc with complete := true } })

/-- `mark_cpu`. -/
def markCpu (t : TableFields) (ref : BlockRef) (cpuSlot : Nat) : Except PyError Unit × TableFields :=
  match t.blocks.get? ref with
  | none => (.error (.noGpuMapping ref), t)
  | some old =>
      match old.gpuBlockId with
      | none => (.error (.noGpuMapping ref), t)
      | some gpuBlockId =>
          let t := if old.residency ≠ .cpu then t.enterCpu else t
          (.ok (), { t with
            blocks := t.blocks.set ref
              { residency := .cpu, gpuBlockId := some gpuBlockId, cpuSlot := some cpuSlot, complete := old.complete } })

/-- `mark_staging`. -/
def markStaging (t : TableFields) (ref : BlockRef) (stagingSlot : Nat) : Except PyError Unit × TableFields :=
  match t.blocks.get? ref with
  | none => (.error (.missingKey ref), t)
  | some old =>
      match old.cpuSlot with
      | none => (.error (.noCpuSlot ref), t)
      | some cpuSlot =>
          let t := if old.residency = .cpu then t.leaveCpu else t
          (.ok (), { t with
            blocks := t.blocks.set ref
              { residency := .staging, gpuBlockId := old.gpuBlockId, cpuSlot := some cpuSlot,
                stagingSlot := some stagingSlot, complete := old.complete } })

/-- `remove`. -/
def remove (t : TableFields) (ref : BlockRef) : TableFields :=
  match t.blocks.get? ref with
  | none => t
  | some old =>
      let t := { t with blocks := t.blocks.erase ref, byRequest := ResidencyTable.indexWithout t.byRequest ref }
      if old.residency = .cpu then t.leaveCpu else t

/-- `refs_for_request`. -/
def refsForRequest (t : TableFields) (requestId : RequestId) : List BlockRef :=
  match t.byRequest.get? requestId with
  | none => []
  | some reqBlocks => (reqBlocks.keys.insertionSort (· ≤ ·)).filterMap reqBlocks.get?

/-- The blocks whose only backing store is the CPU copy. -/
def cpuBlocks (t : TableFields) : Finset BlockRef :=
  (t.blocks.keys.filter fun ref => isCpu (t.blocks.get? ref)).toFinset

/-- The blocks of a request by a scan of the whole table. -/
def scanRequest (t : TableFields) (requestId : RequestId) : List BlockRef :=
  (t.blocks.keys.filter fun ref => ref.requestId = requestId).insertionSort fun ref ref' => ref.blockIdx ≤ ref'.blockIdx

end TableFields

inductive TableOp where
  | markGpu (ref : BlockRef) (gpuBlockId : Nat) (complete : Bool)
  | markComplete (ref : BlockRef)
  | markCpu (ref : BlockRef) (cpuSlot : Nat)
  | markStaging (ref : BlockRef) (stagingSlot : Nat)
  | remove (ref : BlockRef)

def TableFields.call (t : TableFields) : TableOp → Except PyError Unit × TableFields
  | .markGpu ref gpuBlockId complete => (.ok (), t.markGpu ref gpuBlockId complete)
  | .markComplete ref => t.markComplete ref
  | .markCpu ref cpuSlot => t.markCpu ref cpuSlot
  | .markStaging ref stagingSlot => t.markStaging ref stagingSlot
  | .remove ref => (.ok (), t.remove ref)

def TableFields.step (t : TableFields) (op : TableOp) : TableFields := (t.call op).2

namespace ResidencyTable

def fields (t : ResidencyTable) : TableFields := ⟨t.blocks, t.numCpu, t.cpuVersion, t.byRequest⟩

def call (t : ResidencyTable) : TableOp → Except PyError ResidencyTable
  | .markGpu ref gpuBlockId complete => .ok (t.markGpu ref gpuBlockId complete)
  | .markComplete ref => t.markComplete ref
  | .markCpu ref cpuSlot => t.markCpu ref cpuSlot
  | .markStaging ref stagingSlot => t.markStaging ref stagingSlot
  | .remove ref => .ok (t.remove ref).2

/-- The outcome of a call on the fields of the table. -/
def outcome (t : ResidencyTable) : Except PyError ResidencyTable → Except PyError Unit × TableFields
  | .error e => (.error e, t.fields)
  | .ok t' => (.ok (), t'.fields)

theorem fields_markGpu (t : ResidencyTable) (ref : BlockRef) (gpuBlockId : Nat) (complete : Bool) :
    (t.markGpu ref gpuBlockId complete).fields = t.fields.markGpu ref gpuBlockId complete := by
  cases hold : isCpu (t.blocks.get? ref) with
  | false => simp [markGpu, fields, TableFields.markGpu, hold, get]
  | true => simp [markGpu, fields, TableFields.markGpu, TableFields.leaveCpu, hold, get]

/-- Moving a tracked block counts what it leaves and what it enters. -/
theorem fields_relocate {t : ResidencyTable} {ref : BlockRef} {old loc : BlockLocation} (hold : t.get ref = some old)
    (hloc : loc.WellFormed) (hmem : ref ∈ t.blocks.keys) :
    (t.relocate ref loc hloc hmem).fields =
      { (if old.residency = .cpu then if loc.residency = .cpu then t.fields else t.fields.leaveCpu
         else if loc.residency = .cpu then t.fields.enterCpu else t.fields) with
        blocks := t.blocks.set ref loc } := by
  have hcpu : isCpu (t.get ref) = decide (old.residency = .cpu) := by rw [hold]; rfl
  by_cases hleaves : old.residency = .cpu <;> by_cases henters : loc.residency = .cpu <;>
    simp [relocate, fields, hcpu, hleaves, henters, TableFields.leaveCpu, TableFields.enterCpu]

theorem fields_markComplete (t : ResidencyTable) (ref : BlockRef) :
    t.outcome (t.markComplete ref) = t.fields.markComplete ref := by
  unfold markComplete TableFields.markComplete
  split
  · rename_i hold
    rw [show t.fields.blocks.get? ref = none from hold]
    rfl
  · rename_i loc hold
    rw [show t.fields.blocks.get? ref = some loc from hold]
    refine congrArg (Prod.mk (Except.ok ())) ((fields_relocate hold _ _).trans ?_)
    by_cases hcpu : loc.residency = .cpu <;> simp [hcpu, fields]

theorem fields_markCpu (t : ResidencyTable) (ref : BlockRef) (cpuSlot : Nat) :
    t.outcome (t.markCpu ref cpuSlot) = t.fields.markCpu ref cpuSlot := by
  unfold markCpu TableFields.markCpu
  split
  · rename_i hold
    rw [show t.fields.blocks.get? ref = none from hold]
    rfl
  · rename_i old hold
    rw [show t.fields.blocks.get? ref = some old from hold]
    dsimp only
    split
    · rename_i hpage
      rw [hpage]
      rfl
    · rename_i page hpage
      rw [hpage]
      refine congrArg (Prod.mk (Except.ok ())) ((fields_relocate hold _ _).trans ?_)
      by_cases hcpu : old.residency = .cpu <;> simp [hcpu, fields, TableFields.enterCpu]

theorem fields_markStaging (t : ResidencyTable) (ref : BlockRef) (stagingSlot : Nat) :
    t.outcome (t.markStaging ref stagingSlot) = t.fields.markStaging ref stagingSlot := by
  unfold markStaging TableFields.markStaging
  split
  · rename_i hold
    rw [show t.fields.blocks.get? ref = none from hold]
    rfl
  · rename_i old hold
    rw [show t.fields.blocks.get? ref = some old from hold]
    dsimp only
    split
    · rename_i hslot
      rw [hslot]
      rfl
    · rename_i slot hslot
      rw [hslot]
      refine congrArg (Prod.mk (Except.ok ())) ((fields_relocate hold _ _).trans ?_)
      by_cases hcpu : old.residency = .cpu <;> simp [hcpu, fields, TableFields.leaveCpu]

theorem fields_remove (t : ResidencyTable) (ref : BlockRef) : (t.remove ref).2.fields = t.fields.remove ref := by
  unfold TableFields.remove
  cases hold : t.get ref with
  | none =>
      have hblocks : t.blocks.erase ref = t.blocks := OrderedDict.erase_of_get?_eq_none hold
      rw [show t.fields.blocks.get? ref = none from hold]
      simp [remove, fields, hold, hblocks, isCpu]
  | some old =>
      rw [show t.fields.blocks.get? ref = some old from hold]
      by_cases hcpu : old.residency = .cpu <;> simp [remove, fields, hold, isCpu, hcpu, TableFields.leaveCpu]

theorem outcome_call (t : ResidencyTable) (op : TableOp) : t.outcome (t.call op) = t.fields.call op := by
  cases op with
  | markGpu ref gpuBlockId complete => exact congrArg (Prod.mk _) (fields_markGpu t ref gpuBlockId complete)
  | markComplete ref => exact fields_markComplete t ref
  | markCpu ref cpuSlot => exact fields_markCpu t ref cpuSlot
  | markStaging ref stagingSlot => exact fields_markStaging t ref stagingSlot
  | remove ref => exact congrArg (Prod.mk _) (fields_remove t ref)

end ResidencyTable

section Runs

/-- Every table the code can reach is the fields of a consistent one. -/
theorem exists_fields_run (ops : List TableOp) :
    ∃ t : ResidencyTable, run TableFields.step .empty ops = t.fields := by
  have hstep : ∀ (t : TableFields) (op : TableOp), (∃ T : ResidencyTable, t = T.fields) → True →
      ∃ T : ResidencyTable, t.step op = T.fields := by
    intro t op ht _
    obtain ⟨T, rfl⟩ := ht
    rw [TableFields.step, ← T.outcome_call op]
    cases T.call op with
    | error e => exact ⟨T, rfl⟩
    | ok T' => exact ⟨T', rfl⟩
  exact run_invariant (I := fun t : TableFields => ∃ T : ResidencyTable, t = T.fields) hstep
    ⟨ResidencyTable.empty, rfl⟩ (along_of_forall_mem (P := fun _ => True) (fun _ _ => True.intro) _)

theorem mem_cpuBlocks {t : TableFields} {ref : BlockRef} : ref ∈ t.cpuBlocks ↔ isCpu (t.blocks.get? ref) = true := by
  rw [TableFields.cpuBlocks, List.mem_toFinset, List.mem_filter]
  constructor
  · intro h
    exact h.2
  · intro h
    refine ⟨?_, h⟩
    cases hget : t.blocks.get? ref with
    | none =>
        rw [hget] at h
        cases h
    | some loc => exact OrderedDict.mem_keys_of_get? hget

/-- Changing one entry changes the set of CPU-only blocks exactly if that block enters or leaves it. -/
theorem cpuBlocks_eq_iff {t t' : TableFields} {ref : BlockRef}
    (hother : ∀ ref', ref' ≠ ref → t'.blocks.get? ref' = t.blocks.get? ref') :
    t'.cpuBlocks = t.cpuBlocks ↔ isCpu (t'.blocks.get? ref) = isCpu (t.blocks.get? ref) := by
  rw [Finset.ext_iff]
  constructor
  · intro h
    rw [Bool.eq_iff_iff, ← mem_cpuBlocks, ← mem_cpuBlocks]
    exact h ref
  · intro h ref'
    rw [mem_cpuBlocks, mem_cpuBlocks]
    by_cases heq : ref' = ref
    · rw [heq, h]
    · rw [hother ref' heq]

/-- The version moves by one exactly if the set of CPU-only blocks changes. -/
def Versioned (t t' : TableFields) : Prop :=
  t'.cpuVersion = t.cpuVersion + if t'.cpuBlocks = t.cpuBlocks then 0 else 1

theorem versioned_refl (t : TableFields) : Versioned t t := by simp [Versioned]

theorem versioned_of_entry {t t' : TableFields} (ref : BlockRef) (entry : Option BlockLocation)
    (hget : ∀ ref', t'.blocks.get? ref' = if ref' = ref then entry else t.blocks.get? ref')
    (hversion : t'.cpuVersion = t.cpuVersion + if isCpu entry = isCpu (t.blocks.get? ref) then 0 else 1) :
    Versioned t t' := by
  have hother : ∀ ref', ref' ≠ ref → t'.blocks.get? ref' = t.blocks.get? ref' :=
    fun ref' hne => (hget ref').trans (if_neg hne)
  have hself : t'.blocks.get? ref = entry := (hget ref).trans (if_pos rfl)
  rw [Versioned, hversion]
  simp only [cpuBlocks_eq_iff hother, hself]

theorem versioned_of_set {t t' : TableFields} (ref : BlockRef) (loc : BlockLocation)
    (hblocks : t'.blocks = t.blocks.set ref loc)
    (hversion : t'.cpuVersion =
      t.cpuVersion + if isCpu (t.blocks.get? ref) = decide (loc.residency = .cpu) then 0 else 1) : Versioned t t' := by
  apply versioned_of_entry ref (some loc)
  · intro ref'
    rw [hblocks, OrderedDict.get?_set]
  · rw [hversion]
    simp only [isCpu, Option.any_some, eq_comm]

theorem versioned_markGpu (t : TableFields) (ref : BlockRef) (gpuBlockId : Nat) (complete : Bool) :
    Versioned t (t.markGpu ref gpuBlockId complete) := by
  apply versioned_of_set ref
    { residency := .gpu, gpuBlockId := some gpuBlockId, cpuSlot := (t.blocks.get? ref).bind (·.cpuSlot),
      complete := complete }
  · cases hold : isCpu (t.blocks.get? ref) <;> simp [TableFields.markGpu, hold, TableFields.leaveCpu]
  · cases hold : isCpu (t.blocks.get? ref) <;> simp [TableFields.markGpu, hold, TableFields.leaveCpu]

theorem versioned_markComplete (t : TableFields) (ref : BlockRef) : Versioned t (t.markComplete ref).2 := by
  cases hold : t.blocks.get? ref with
  | none =>
      rw [TableFields.markComplete, hold]
      exact versioned_refl t
  | some loc =>
      rw [TableFields.markComplete, hold]
      apply versioned_of_set ref { loc with complete := true } rfl
      simp [hold, isCpu]

theorem versioned_markCpu (t : TableFields) (ref : BlockRef) (cpuSlot : Nat) :
    Versioned t (t.markCpu ref cpuSlot).2 := by
  cases hold : t.blocks.get? ref with
  | none =>
      rw [TableFields.markCpu, hold]
      exact versioned_refl t
  | some old =>
      cases hpage : old.gpuBlockId with
      | none =>
          simp only [TableFields.markCpu, hold, hpage]
          exact versioned_refl t
      | some page =>
          simp only [TableFields.markCpu, hold, hpage]
          apply versioned_of_set ref
            { residency := .cpu, gpuBlockId := some page, cpuSlot := some cpuSlot, complete := old.complete }
          · by_cases hcpu : old.residency = .cpu <;> simp [hcpu, TableFields.enterCpu]
          · by_cases hcpu : old.residency = .cpu <;> simp [hold, isCpu, hcpu, TableFields.enterCpu]

theorem versioned_markStaging (t : TableFields) (ref : BlockRef) (stagingSlot : Nat) :
    Versioned t (t.markStaging ref stagingSlot).2 := by
  cases hold : t.blocks.get? ref with
  | none =>
      rw [TableFields.markStaging, hold]
      exact versioned_refl t
  | some old =>
      cases hslot : old.cpuSlot with
      | none =>
          simp only [TableFields.markStaging, hold, hslot]
          exact versioned_refl t
      | some slot =>
          simp only [TableFields.markStaging, hold, hslot]
          apply versioned_of_set ref
            { residency := .staging, gpuBlockId := old.gpuBlockId, cpuSlot := some slot,
              stagingSlot := some stagingSlot, complete := old.complete }
          · by_cases hcpu : old.residency = .cpu <;> simp [hcpu, TableFields.leaveCpu]
          · by_cases hcpu : old.residency = .cpu <;> simp [hold, isCpu, hcpu, TableFields.leaveCpu]

theorem versioned_remove (t : TableFields) (ref : BlockRef) : Versioned t (t.remove ref) := by
  cases hold : t.blocks.get? ref with
  | none =>
      rw [TableFields.remove, hold]
      exact versioned_refl t
  | some old =>
      apply versioned_of_entry ref none
      · intro ref'
        rw [← OrderedDict.get?_erase, TableFields.remove, hold]
        by_cases hcpu : old.residency = .cpu <;> simp [hcpu, TableFields.leaveCpu]
      · by_cases hcpu : old.residency = .cpu <;>
          simp [TableFields.remove, hold, isCpu, hcpu, TableFields.leaveCpu]

theorem versioned_step (t : TableFields) (op : TableOp) : Versioned t (t.step op) := by
  cases op with
  | markGpu ref gpuBlockId complete => exact versioned_markGpu t ref gpuBlockId complete
  | markComplete ref => exact versioned_markComplete t ref
  | markCpu ref cpuSlot => exact versioned_markCpu t ref cpuSlot
  | markStaging ref stagingSlot => exact versioned_markStaging t ref stagingSlot
  | remove ref => exact versioned_remove t ref

/-- Every raise comes before the first write. -/
theorem step_of_raise {t : TableFields} {op : TableOp} {e : PyError} (h : (t.call op).1 = .error e) :
    t.step op = t ∧ e.kind = .keyError := by
  cases op with
  | markGpu ref gpuBlockId complete => cases h
  | remove ref => cases h
  | markComplete ref =>
      cases hold : t.blocks.get? ref with
      | none =>
          simp only [TableFields.call, TableFields.step, TableFields.markComplete, hold] at h ⊢
          cases h
          exact ⟨True.intro, rfl⟩
      | some loc => simp [TableFields.call, TableFields.markComplete, hold] at h
  | markCpu ref cpuSlot =>
      cases hold : t.blocks.get? ref with
      | none =>
          simp only [TableFields.call, TableFields.step, TableFields.markCpu, hold] at h ⊢
          cases h
          exact ⟨True.intro, rfl⟩
      | some old =>
          cases hpage : old.gpuBlockId with
          | none =>
              simp only [TableFields.call, TableFields.step, TableFields.markCpu, hold, hpage] at h ⊢
              cases h
              exact ⟨True.intro, rfl⟩
          | some page => simp [TableFields.call, TableFields.markCpu, hold, hpage] at h
  | markStaging ref stagingSlot =>
      cases hold : t.blocks.get? ref with
      | none =>
          simp only [TableFields.call, TableFields.step, TableFields.markStaging, hold] at h ⊢
          cases h
          exact ⟨True.intro, rfl⟩
      | some old =>
          cases hslot : old.cpuSlot with
          | none =>
              simp only [TableFields.call, TableFields.step, TableFields.markStaging, hold, hslot] at h ⊢
              cases h
              exact ⟨True.intro, rfl⟩
          | some slot => simp [TableFields.call, TableFields.markStaging, hold, hslot] at h

theorem cpuCount_eq_countP (blocks : OrderedDict BlockRef BlockLocation) :
    cpuCount blocks = blocks.items.countP fun e => e.2.residency = .cpu := by
  rw [cpuCount, OrderedDict.collect]
  induction blocks.items with
  | nil => rfl
  | cons e items ih => by_cases h : e.2.residency = .cpu <;> simpa [cpuOnly, h] using ih

theorem mem_refsForRequest {t : ResidencyTable} {requestId : RequestId} {ref : BlockRef} :
    ref ∈ t.refsForRequest requestId ↔ ref ∈ t.blocks.keys ∧ ref.requestId = requestId := by
  obtain ⟨idxs, hrefs, -, hmem⟩ := t.refsForRequest_eq_map requestId
  rw [hrefs, List.mem_map, ResidencyTable.mem_keys_iff_isSome]
  constructor
  · rintro ⟨i, hi, rfl⟩
    exact ⟨(hmem i).mp hi, rfl⟩
  · rintro ⟨htracked, rfl⟩
    exact ⟨ref.blockIdx, (hmem _).mpr htracked, rfl⟩

theorem refsForRequest_increasing (t : ResidencyTable) (requestId : RequestId) :
    (t.refsForRequest requestId).Pairwise fun ref ref' => ref.blockIdx < ref'.blockIdx := by
  obtain ⟨idxs, hrefs, hlt, -⟩ := t.refsForRequest_eq_map requestId
  rw [hrefs, List.pairwise_map]
  exact hlt

/-- The index returns what a scan of the whole table returns. -/
theorem refsForRequest_eq_scan (t : ResidencyTable) (requestId : RequestId) :
    t.refsForRequest requestId = t.fields.scanRequest requestId := by
  let byIdx : BlockRef → BlockRef → Prop := fun ref ref' => ref.blockIdx ≤ ref'.blockIdx
  have htotal : Std.Total byIdx := ⟨fun a b => Int.le_total a.blockIdx b.blockIdx⟩
  have htrans : IsTrans BlockRef byIdx := ⟨fun a b c hab hbc => Int.le_trans hab hbc⟩
  have hscan : ∀ ref, ref ∈ t.fields.scanRequest requestId ↔ ref ∈ t.blocks.keys ∧ ref.requestId = requestId := by
    intro ref
    rw [TableFields.scanRequest, List.mem_insertionSort, List.mem_filter, decide_eq_true_iff]
    rfl
  have hlt := refsForRequest_increasing t requestId
  have hnodup := t.refsForRequest_nodup requestId
  have hnodup' : (t.fields.scanRequest requestId).Nodup :=
    (List.perm_insertionSort byIdx _).nodup_iff.mpr (t.blocks.nodup.filter _)
  have hperm : (t.refsForRequest requestId).Perm (t.fields.scanRequest requestId) := by
    rw [List.perm_ext_iff_of_nodup hnodup hnodup']
    exact fun ref => mem_refsForRequest.trans (hscan ref).symm
  refine hperm.eq_of_pairwise ?_ (hlt.imp Int.le_of_lt) (List.pairwise_insertionSort byIdx _)
  -- two blocks of one request with the same index are the same block
  intro ref ref' href href' hle hge
  have hrequest : ref.requestId = ref'.requestId :=
    (mem_refsForRequest.mp href).2.trans ((hscan ref').mp href').2.symm
  cases ref
  cases ref'
  rw [BlockRef.mk.injEq]
  exact ⟨hrequest, Int.le_antisymm hle hge⟩

/-- After every sequence of calls the counter is the number of CPU-only entries, the next call moves the
version by one exactly if it changes the set of CPU-only blocks and changes nothing if it raises, and
the index lists the blocks of each request, each once and in order, as a scan of the table does. -/
theorem residencyTable_consistent (ops : List TableOp) :
    let t := run TableFields.step .empty ops
    t.numCpu = t.blocks.items.countP (fun e => e.2.residency = .cpu) ∧
      (∀ op, (t.step op).cpuVersion = t.cpuVersion + if (t.step op).cpuBlocks = t.cpuBlocks then 0 else 1) ∧
      (∀ op e, (t.call op).1 = .error e → t.step op = t ∧ e.kind = .keyError) ∧
      ∀ requestId, t.refsForRequest requestId = t.scanRequest requestId ∧
        (t.refsForRequest requestId).Pairwise (fun ref ref' => ref.blockIdx < ref'.blockIdx) ∧
        ∀ ref, ref ∈ t.refsForRequest requestId ↔ ref ∈ t.blocks.keys ∧ ref.requestId = requestId := by
  intro t
  obtain ⟨T, hfields⟩ := exists_fields_run ops
  have ht : t = T.fields := hfields
  refine ⟨?_, versioned_step t, fun op e => step_of_raise, fun requestId => ?_⟩
  · rw [ht, ← cpuCount_eq_countP]
    exact T.numCpu_eq
  · rw [ht]
    exact ⟨refsForRequest_eq_scan T requestId, refsForRequest_increasing T requestId, fun ref => mem_refsForRequest⟩

end Runs

end KVOffload

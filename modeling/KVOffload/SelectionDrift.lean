import KVOffload.OrchestratorSlots

/-! Rows that do not match the tracked state. When the batch composition has drifted, a row has more or
fewer pages than the table tracks blocks for its request. The second pass of the patch skips such a
row; the first pass compares only the position with the end of the row. -/

namespace KVOffload
open Base

namespace PatchInput

variable (inp : PatchInput)

/-- The write of the first pass for a selected block. -/
def stagedWrite (ref : BlockRef) : Option (Int × Int) :=
  match inp.stagingMap.get? ref, (batchIndex inp.requestIds).get? ref.requestId with
  | some slot, some b =>
      if ((inp.row b).2 : Int) ≤ (inp.row b).1 + ref.blockIdx then none
      else some ((inp.row b).1 + ref.blockIdx, ((inp.stagingBase + slot : Nat) : Int))
  | _, _ => none

/-- The selected blocks, if the first pass runs. -/
def selectedRefs : Except PyError (List BlockRef) :=
  match inp.pattern with
  | none => .ok []
  | some pattern =>
      if inp.stagingMap.items = [] then .ok [] else collectNeededBlockRefs inp.requestIds pattern inp.pageSize

/-- The row of the request at batch position `b` does not have one page for each tracked block. -/
def Misaligned (requestId : RequestId) (b : Nat) : Prop :=
  ((inp.row b).2 : Int) - (inp.row b).1 ≠ (inp.residency.refsForRequest requestId).length

/-- The kernel has to read another page than the block's own: the block is staged, or it is on the CPU and a null
block is given. -/
def Replaced (ref : BlockRef) : Prop :=
  ∃ loc, inp.residency.get ref = some loc ∧
    (loc.residency = .staging ∧ loc.stagingSlot.isSome ∨ loc.residency = .cpu ∧ inp.nullBlockId.isSome)

/-- The position of a selected block that has a slot in the staging map, before the end of its request's row. -/
def StagedPosition (needed : List BlockRef) (pos : Int) : Prop :=
  ∃ ref ∈ needed, (inp.stagingMap.get? ref).isSome ∧ ∃ b, (batchIndex inp.requestIds).get? ref.requestId = some b ∧
    pos = (inp.row b).1 + ref.blockIdx ∧ pos < (inp.row b).2

/-- The position of a tracked block of the request at batch position `b` that is not to be read from its own page,
in a row with one page for each tracked block. -/
def ReplacedPosition (requestId : RequestId) (b : Nat) (pos : Int) : Prop :=
  (inp.row b).1 < (inp.row b).2 ∧ ¬inp.Misaligned requestId b ∧
    ∃ ref ∈ inp.residency.refsForRequest requestId, inp.Replaced ref ∧ pos = (inp.row b).1 + ref.blockIdx

/-- A call on an array of `len` entries that passes every check: it returns. -/
structure Accepted (len : Nat) (needed : List BlockRef) : Prop where
  indptr_length : inp.requestIds.length + 1 ≤ inp.indptr.length
  selected : inp.selectedRefs = .ok needed
  staged_inRange : ∀ pos, inp.StagedPosition needed pos → (wrapIndex len pos).isSome
  replaced_inRange : ∀ b r, inp.requestIds[b]? = some r → ∀ pos, inp.ReplacedPosition r b pos →
    (wrapIndex len pos).isSome

/-- No selected block with a slot in the staging map, and no staged or nulled block of another row, has its
position in row `b`. -/
structure RowSpared (len : Nat) (needed : List BlockRef) (b : Nat) : Prop where
  staged : ∀ pos, inp.StagedPosition needed pos → ∀ p, wrapIndex len pos = some p → ¬inp.InRow b p
  otherRows : ∀ b' r, b' ≠ b → inp.requestIds[b']? = some r → ∀ pos, inp.ReplacedPosition r b' pos →
    ∀ p, wrapIndex len pos = some p → ¬inp.InRow b p

variable {inp} {len : Nat} {needed : List BlockRef}

theorem replacement_isSome_iff {ref : BlockRef} : (inp.replacement ref).isSome ↔ inp.Replaced ref := by
  unfold replacement Replaced
  cases hget : inp.residency.get ref with
  | none => simp
  | some loc =>
      cases hres : loc.residency with
      | gpu => simp [hres]
      | cpu => simp [hres]
      | staging => cases hslot : loc.stagingSlot <;> simp [hres, hslot]

/-- The first pass writes at the positions of the staged blocks. -/
theorem stagedPosition_iff {pos : Int} :
    inp.StagedPosition needed pos ↔ ∃ w ∈ needed.filterMap inp.stagedWrite, w.1 = pos := by
  constructor
  · rintro ⟨ref, href, hslot, b, hb, rfl, hend⟩
    obtain ⟨slot, hslot⟩ := Option.isSome_iff_exists.mp hslot
    refine ⟨((inp.row b).1 + ref.blockIdx, ((inp.stagingBase + slot : Nat) : Int)), ?_, rfl⟩
    refine List.mem_filterMap.mpr ⟨ref, href, ?_⟩
    simp only [stagedWrite, hslot, hb, if_neg (not_le.mpr hend)]
  · rintro ⟨w, hw, rfl⟩
    obtain ⟨ref, href, hwrite⟩ := List.mem_filterMap.mp hw
    unfold stagedWrite at hwrite
    split at hwrite
    · rename_i slot b hslot hb
      split_ifs at hwrite with hend
      obtain rfl := Option.some.inj hwrite
      exact ⟨ref, href, by rw [hslot]; rfl, b, hb, rfl, not_le.mp hend⟩
    · cases hwrite

/-- The second pass writes at the positions of the replaced blocks of aligned rows. -/
theorem replacedPosition_iff {r : RequestId} {b : Nat} {pos : Int} :
    inp.ReplacedPosition r b pos ↔ ∃ w ∈ inp.rowWrites r b, w.1 = pos := by
  unfold ReplacedPosition Misaligned rowWrites
  dsimp only
  split_ifs with hstop hlen
  · refine iff_of_false (fun h => ?_) (by simp)
    have := h.1
    omega
  · refine iff_of_false (fun h => h.2.1 ?_) (by simp)
    omega
  · have haligned : ¬((inp.row b).2 : Int) - (inp.row b).1 ≠ (inp.residency.refsForRequest r).length := by omega
    rw [and_iff_right (not_le.mp hstop), and_iff_right haligned]
    constructor
    · rintro ⟨ref, href, hreplaced, rfl⟩
      obtain ⟨page, hpage⟩ := Option.isSome_iff_exists.mp (replacement_isSome_iff.mpr hreplaced)
      exact ⟨_, List.mem_filterMap.mpr ⟨ref, href, by rw [hpage, Option.map_some]⟩, rfl⟩
    · rintro ⟨w, hw, rfl⟩
      obtain ⟨ref, href, hwrite⟩ := List.mem_filterMap.mp hw
      obtain ⟨page, hpage, rfl⟩ := Option.map_eq_some_iff.mp hwrite
      exact ⟨ref, href, replacement_isSome_iff.mp (Option.isSome_of_eq_some hpage), rfl⟩

theorem Accepted.staged_isSome (h : inp.Accepted len needed) :
    ∀ ref ∈ needed, ∀ w ∈ inp.stagedWrite ref, (wrapIndex len w.1).isSome := fun ref href w hw =>
  h.staged_inRange w.1 (stagedPosition_iff.mpr ⟨w, List.mem_filterMap.mpr ⟨ref, href, hw⟩, rfl⟩)

theorem Accepted.residency_isSome (h : inp.Accepted len needed) :
    ∀ w ∈ inp.residencyWrites, (wrapIndex len w.1).isSome := by
  intro w hw
  obtain ⟨b, r, hr, hrow⟩ := mem_residencyWrites.mp hw
  exact h.replaced_inRange b r hr w.1 (replacedPosition_iff.mpr ⟨w, hrow, rfl⟩)

theorem patchStaged_of_none {ref : BlockRef} (h : inp.stagedWrite ref = none) (buf : List Int) :
    inp.patchStaged ref buf = (.ok (), buf) := by
  unfold stagedWrite at h
  unfold patchStaged
  cases hslot : inp.stagingMap.get? ref with
  | none => rfl
  | some slot =>
      cases hb : (batchIndex inp.requestIds).get? ref.requestId with
      | none => rfl
      | some b =>
          simp only [hslot, hb] at h ⊢
          split_ifs at h with hend
          exact if_pos hend

theorem patchStaged_of_some {ref : BlockRef} {w : Int × Int} (h : inp.stagedWrite ref = some w)
    {buf : List Int} {i : Nat}
    (hi : wrapIndex buf.length w.1 = some i) : inp.patchStaged ref buf = (.ok (), buf.set i w.2) := by
  unfold stagedWrite at h
  unfold patchStaged
  cases hslot : inp.stagingMap.get? ref with
  | none =>
      rw [hslot] at h
      cases h
  | some slot =>
      cases hb : (batchIndex inp.requestIds).get? ref.requestId with
      | none =>
          rw [hslot, hb] at h
          cases h
      | some b =>
          simp only [hslot, hb] at h ⊢
          split_ifs at h with hend
          obtain rfl := Option.some.inj h
          simp only [hend, if_false, writeAt, hi, Option.map_some]

/-- The first pass is its writes, in the order of the selected blocks. -/
theorem wp_forEach_patchStaged {original : List Int}
    (hrange : ∀ ref ∈ needed, ∀ w ∈ inp.stagedWrite ref, (wrapIndex original.length w.1).isSome) :
    Eff.wp (Eff.forEach needed inp.patchStaged)
      (fun _ buf => buf = applyWrites original (needed.filterMap inp.stagedWrite)) (fun _ _ => False) original := by
  refine Eff.wp_forEach_done (I := fun done buf => buf = applyWrites original (done.filterMap inp.stagedWrite)) rfl
    fun done ref rest hsplit buf hbuf => ?_
  have hmem : ref ∈ needed := by
    rw [hsplit]
    exact List.mem_append_right done List.mem_cons_self
  rw [List.filterMap_append]
  cases hwrite : inp.stagedWrite ref with
  | none =>
      refine Eff.wp_of_ok (patchStaged_of_none hwrite buf) ?_
      rw [List.filterMap_cons_none hwrite, List.filterMap_nil, List.append_nil]
      exact hbuf
  | some w =>
      have hlen : buf.length = original.length := by rw [hbuf, length_applyWrites]
      obtain ⟨i, hi⟩ := Option.isSome_iff_exists.mp (hrange ref hmem w hwrite)
      rw [← hlen] at hi
      refine Eff.wp_of_ok (patchStaged_of_some hwrite hi) ?_
      rw [List.filterMap_cons_some hwrite, List.filterMap_nil, applyWrites_concat, ← hbuf, writeAt, hi]
      rfl

theorem wp_patchFromMap_writes {original : List Int} (h : inp.Accepted original.length needed) :
    Eff.wp inp.patchFromMap (fun _ buf => buf = applyWrites original (needed.filterMap inp.stagedWrite))
      (fun _ _ => False) original := by
  have hselected := h.selected
  unfold patchFromMap
  unfold selectedRefs at hselected
  cases hpattern : inp.pattern with
  | none =>
      rw [hpattern] at hselected
      obtain rfl := Except.ok.inj hselected
      rfl
  | some pattern =>
      rw [hpattern] at hselected
      by_cases hempty : inp.stagingMap.items = []
      · simp only [hempty, if_true] at hselected ⊢
        obtain rfl := Except.ok.inj hselected
        rfl
      · simp only [hempty, if_false] at hselected ⊢
        rw [hselected]
        exact wp_forEach_patchStaged h.staged_isSome

/-- An accepted call is the writes of both passes. -/
theorem wp_patchInto_writes {original : List Int} (h : inp.Accepted original.length needed) :
    Eff.wp inp.patchInto
      (fun _ buf => buf = applyWrites original (needed.filterMap inp.stagedWrite ++ inp.residencyWrites))
      (fun _ _ => False) original := by
  have hindptr : ¬inp.indptr.length < inp.requestIds.length + 1 := Nat.not_lt.mpr h.indptr_length
  rw [patchInto, if_neg hindptr, Eff.wp_bind]
  refine Eff.wp_mono (wp_patchFromMap_writes h) (fun _ buf hbuf => ?_) fun _ _ hfalse => hfalse
  have hlen : buf.length = original.length := by rw [hbuf, length_applyWrites]
  have hscatter : scatter buf inp.residencyWrites = some (applyWrites buf inp.residencyWrites) := by
    apply scatter_of_inRange
    rw [hlen]
    exact h.residency_isSome
  unfold Eff.wp patchFromResidency
  rw [hscatter, applyWrites_append, ← hbuf]

theorem patch_eq {original : List Int} (h : inp.Accepted original.length needed) (inplace : Bool) :
    (inp.patchPagedKvIndicesWithStaging inplace original).1 =
      .ok (applyWrites original (needed.filterMap inp.stagedWrite ++ inp.residencyWrites)) := by
  obtain ⟨⟨⟩, buf, hrun, hbuf⟩ := Eff.exists_of_wp (wp_patchInto_writes h)
  rw [patchPagedKvIndicesWithStaging, hrun, hbuf]

/-- A row keeps its entries, whatever they are, exactly if no write addresses one of them. -/
theorem row_kept_iff (h : inp.Accepted len needed) (inplace : Bool) (b : Nat) :
    (∀ original : List Int, original.length = len → ∃ out,
        (inp.patchPagedKvIndicesWithStaging inplace original).1 = .ok out ∧ ∀ p, inp.InRow b p →
          out[p]? = original[p]?) ↔
      ∀ w ∈ needed.filterMap inp.stagedWrite ++ inp.residencyWrites, ∀ p, wrapIndex len w.1 = some p →
        ¬inp.InRow b p := by
  constructor
  · intro hkept w hw p hp hrow
    have hlast : lastWrite len (needed.filterMap inp.stagedWrite ++ inp.residencyWrites) p ≠ none :=
      fun hnone => lastWrite_eq_none_iff.mp hnone w hw hp
    obtain ⟨page, hpage⟩ := Option.ne_none_iff_exists'.mp hlast
    -- An array that holds another page wherever this one is written.
    have hlen : (List.replicate len (page + 1)).length = len := List.length_replicate
    obtain ⟨out, hout, hsame⟩ := hkept _ hlen
    have hpatch := patch_eq (hlen.symm ▸ h) inplace
    obtain rfl := Except.ok.inj (hout.symm.trans hpatch)
    have hentry := hsame p hrow
    rw [getElem?_applyWrites, hlen, hpage, Option.some_or, List.getElem?_replicate, if_pos (wrapIndex_lt hp)] at hentry
    have := Option.some.inj hentry
    omega
  · intro hspared original hlen
    subst hlen
    refine ⟨_, patch_eq h inplace, fun p hrow => ?_⟩
    have hnone : lastWrite original.length (needed.filterMap inp.stagedWrite ++ inp.residencyWrites) p = none :=
      lastWrite_eq_none_iff.mpr fun w hw hp => hspared w hw p hp hrow
    rw [getElem?_applyWrites, hnone, Option.none_or]

theorem rowSpared_iff {r : RequestId} {b : Nat} (hr : inp.requestIds[b]? = some r) (hmisaligned : inp.Misaligned r b) :
    inp.RowSpared len needed b ↔
      ∀ w ∈ needed.filterMap inp.stagedWrite ++ inp.residencyWrites, ∀ p, wrapIndex len w.1 = some p →
        ¬inp.InRow b p := by
  constructor
  · intro h w hw
    rcases List.mem_append.mp hw with hstaged | hresidency
    · exact h.staged w.1 (stagedPosition_iff.mpr ⟨w, hstaged, rfl⟩)
    · obtain ⟨b', r', hr', hw'⟩ := mem_residencyWrites.mp hresidency
      have hposition := replacedPosition_iff.mpr ⟨w, hw', rfl⟩
      refine h.otherRows b' r' (fun heq => ?_) hr' w.1 hposition
      -- The row itself is skipped by the second pass.
      subst heq
      obtain rfl : r = r' := Option.some.inj (hr.symm.trans hr')
      exact hposition.2.1 hmisaligned
  · intro h
    refine ⟨fun pos hpos => ?_, fun b' r' _ hr' pos hpos => ?_⟩
    · obtain ⟨w, hw, rfl⟩ := stagedPosition_iff.mp hpos
      exact h w (List.mem_append_left _ hw)
    · obtain ⟨w, hw, rfl⟩ := replacedPosition_iff.mp hpos
      exact h w (List.mem_append_right _ (mem_residencyWrites.mpr ⟨b', r', hr', hw⟩))

end PatchInput

/-- In an accepted call, a row whose length differs from the number of tracked blocks keeps its entries,
whatever they are, exactly if it is spared by the first pass and by the other rows of the second. -/
theorem patch_misaligned_row_iff {inp : PatchInput} {len : Nat} {needed : List BlockRef}
    (haccepted : inp.Accepted len needed)
    (inplace : Bool) {r : RequestId} {b : Nat} (hr : inp.requestIds[b]? = some r) (hmisaligned : inp.Misaligned r b) :
    (∀ original : List Int, original.length = len → ∃ out,
        (inp.patchPagedKvIndicesWithStaging inplace original).1 = .ok out ∧ ∀ p, inp.InRow b p →
          out[p]? = original[p]?) ↔
      inp.RowSpared len needed b :=
  (PatchInput.row_kept_iff haccepted inplace b).trans (PatchInput.rowSpared_iff hr hmisaligned).symm

section Orchestrator

variable {μ φ ν σ S : Type} [LinearOrder S]

/-- What `OffloadOrchestrator.patch_paged_kv_indices` passes on. -/
def patchPagedKvIndices (cfg : OrchestratorConfig) (o : Orchestrator μ σ) (indptr : List Nat)
    (requestIds : List RequestId) (pattern : SparsePattern) (stagingMap : OrderedDict BlockRef Nat) : PatchInput where
  indptr := indptr
  requestIds := requestIds
  pattern := some pattern
  pageSize := cfg.pageSize
  stagingBase := cfg.stagingBase
  residency := o.store.residency
  stagingMap := stagingMap
  nullBlockId := none

/-- `prepare_sparse_pages`. -/
def prepareSparsePages (cfg : OrchestratorConfig) (dev : Device μ φ ν S) (scorer : BlockScorer σ ν S)
    (requestIds : List RequestId) (pattern : SparsePattern) (pagedKvIndices : List Int) (pagedKvIndptr : List Nat) :
    OrchestratorM μ σ (List Int) := do
  let stagingMap ← prepareStaging cfg dev scorer requestIds pattern
  let o ← Eff.read
  let inp := patchPagedKvIndices cfg o pagedKvIndptr requestIds pattern stagingMap
  match (inp.patchPagedKvIndicesWithStaging false pagedKvIndices).1 with
  | .ok patched => pure patched
  | .error e => Eff.raise e

end Orchestrator

/-- As `smallConfig`, with room for four blocks on the CPU. -/
def crowdedConfig : OrchestratorConfig := { smallConfig with numCpuSlots := 4, numCpuSlots_pos := by decide }

/-- A request with two tracked blocks, the first of which is offloaded. -/
def driftedState : Orchestrator SmallMemory LruState :=
  run (step smallConfig (combinedDevice steadyRuntime) lruScorer)
    (Orchestrator.init smallConfig ⟨.empty, 0⟩ blankMemory)
    [.sync requestA [3, 5] 4, .offloadFraction [⟨requestA, 0⟩] 0 {⟨requestA, 0⟩}]

/-- Request `b` joins with two blocks that go to the CPU, one of which is staged again. -/
def crowdedState : Orchestrator SmallMemory LruState :=
  run (step crowdedConfig (combinedDevice steadyRuntime) lruScorer)
    (Orchestrator.init crowdedConfig ⟨.empty, 0⟩ blankMemory)
    [.sync requestA [3, 5] 4, .offloadFraction [⟨requestA, 0⟩] 0 {⟨requestA, 0⟩}, .sync requestB [6, 7] 4,
      .offloadFraction [⟨requestB, 0⟩] 0 {⟨requestB, 0⟩}, .offloadFraction [⟨requestB, 1⟩] 0 {⟨requestB, 1⟩},
      .ensureResident [⟨requestB, 0⟩]]

/-- The first token of either request is selected. -/
def firstTokens : SparsePattern := ⟨1, 1, [⟨[[0]], 1⟩, ⟨[[0]], 1⟩], by decide⟩

/-- The row of `a` has three pages for its two tracked blocks, that of `b` one for each of its own. Block `0` of
`b` is in the staging map, and CPU blocks are to be read from page `0`. -/
def driftedInput : PatchInput :=
  { patchPagedKvIndices crowdedConfig crowdedState [0, 3, 5] [requestA, requestB] firstTokens
      (OrderedDict.empty.set ⟨requestB, 0⟩ 0) with nullBlockId := some 0 }

/-- Both passes write the row of `b`, and the row of `a` keeps its entries. -/
theorem patch_misaligned_row_driftedInput :
    driftedInput.Misaligned requestA 0 ∧
      (driftedInput.patchPagedKvIndicesWithStaging false [3, 5, 9, 6, 7]).1 = .ok [3, 5, 9, 8, 0] ∧
      ∀ original : List Int, original.length = 5 → ∃ out,
        (driftedInput.patchPagedKvIndicesWithStaging false original).1 = .ok out ∧
          ∀ p, driftedInput.InRow 0 p → out[p]? = original[p]? := by
  have hmisaligned : driftedInput.Misaligned requestA 0 := by
    unfold PatchInput.Misaligned
    decide +kernel
  -- what either pass writes lies behind the row of `a`
  have hstaged : ∀ pos, driftedInput.StagedPosition [⟨requestA, 0⟩, ⟨requestB, 0⟩] pos → pos = 3 := by
    rintro pos ⟨ref, href, hslot, b, hb, rfl, -⟩
    rcases List.mem_pair.mp href with rfl | rfl
    · exact absurd hslot (by decide +kernel)
    · obtain rfl : 1 = b := Option.some.inj ((show _ = some 1 by decide +kernel).symm.trans hb)
      rfl
  have hreplaced : ∀ b r, driftedInput.requestIds[b]? = some r → ∀ pos, driftedInput.ReplacedPosition r b pos →
      pos = 3 ∨ pos = 4 := by
    rintro b r hr pos ⟨-, haligned, ref, href, -, rfl⟩
    rcases b with _ | _ | b
    · obtain rfl : requestA = r := Option.some.inj hr
      exact absurd hmisaligned haligned
    · obtain rfl : requestB = r := Option.some.inj hr
      have hrefs : driftedInput.residency.refsForRequest requestB = [⟨requestB, 0⟩, ⟨requestB, 1⟩] := by decide +kernel
      rw [hrefs] at href
      rcases List.mem_pair.mp href with rfl | rfl
      · exact Or.inl rfl
      · exact Or.inr rfl
    · cases hr
  have haccepted : driftedInput.Accepted 5 [⟨requestA, 0⟩, ⟨requestB, 0⟩] := by
    refine ⟨by decide, by decide +kernel, fun pos hpos => ?_, fun b r hr pos hpos => ?_⟩
    · rw [hstaged pos hpos]
      rfl
    · rcases hreplaced b r hr pos hpos with rfl | rfl <;> rfl
  have hbehind : ∀ p, p = 3 ∨ p = 4 → ¬driftedInput.InRow 0 p := by
    rintro p (rfl | rfl) <;> exact fun hrow => absurd hrow.2 (by decide)
  refine ⟨hmisaligned, by decide +kernel, (patch_misaligned_row_iff haccepted false rfl hmisaligned).mpr ⟨?_, ?_⟩⟩
  · intro pos hpos p hp
    obtain rfl := hstaged pos hpos
    exact hbehind p (Or.inl (Option.some.inj hp).symm)
  · intro b r _ hr pos hpos p hp
    rcases hreplaced b r hr pos hpos with rfl | rfl
    · exact hbehind p (Or.inl (Option.some.inj hp).symm)
    · exact hbehind p (Or.inr (Option.some.inj hp).symm)

/-- The row has three pages for two tracked blocks, and its first entry is rewritten. -/
theorem prepareSparsePages_writes_misaligned_row :
    (prepareSparsePages smallConfig (combinedDevice steadyRuntime) lruScorer [requestA] firstToken [3, 5, 9] [0, 3]
        driftedState).1 = .ok [8, 5, 9] ∧
      (driftedState.store.residency.refsForRequest requestA).length = 2 := by
  decide +kernel

end KVOffload

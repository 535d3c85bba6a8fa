import KVOffload.BaseProgram
import KVOffload.BaseScatter
import KVOffload.StoreResidency

/-! From a sparse token selection to logical blocks, and the rewriting of the flat page-index array
the attention kernel reads. The array is the concatenation of one row per request; `indptr` gives
the row bounds. Two passes write it: one from the slots staged in this step, one from the residency
table for the rows whose length matches the tracked state. -/

namespace KVOffload
open Base

/-- The selected token positions of one batch row, for each head, and `sparse_len[b, 0, 0]`. -/
structure SparseRow where
  heads : List (List Int)
  len : Int
  deriving DecidableEq, Repr

/-- A well-shaped sparse pattern `[B, Hq, S]`: every row has `numHeads` heads of `width` positions. -/
structure SparsePattern where
  numHeads : Nat
  width : Nat
  rows : List SparseRow
  shape : ∀ row ∈ rows, row.heads.length = numHeads ∧ ∀ head ∈ row.heads, head.length = width
  deriving DecidableEq

/-- `unique()`: the distinct values in ascending order. -/
def uniqueSorted (l : List Int) : List Int := l.dedup.insertionSort (· ≤ ·)

/-- The blocks the first `n` selected tokens of a row fall into. -/
def SparseRow.blocks (row : SparseRow) (pageSize n : Nat) : List Int :=
  uniqueSorted ((row.heads.flatMap fun head => head.take n).map (· / (pageSize : Int)))

theorem SparseRow.mem_blocks {row : SparseRow} {pageSize n : Nat} {k : Int} :
    k ∈ row.blocks pageSize n ↔ ∃ head ∈ row.heads, ∃ i ∈ head.take n, i / (pageSize : Int) = k := by
  rw [blocks, uniqueSorted, List.mem_insertionSort, List.mem_dedup]
  simp only [List.mem_map, List.mem_flatMap]
  constructor
  · rintro ⟨i, ⟨head, hhead, hi⟩, rfl⟩
    exact ⟨head, hhead, i, hi, rfl⟩
  · rintro ⟨head, hhead, i, hi, rfl⟩
    exact ⟨i, ⟨head, hhead, hi⟩, rfl⟩

/-- `collect_needed_block_refs`. -/
def collectNeededBlockRefs (requestIds : List RequestId) (pattern : SparsePattern) (pageSize : Nat) :
    Except PyError (List BlockRef) :=
  if requestIds.length ≠ pattern.rows.length then .error .sparseBatchMismatch
  -- An empty pattern selects no token, so `numel() == 0` needs no case of its own.
  else .ok (OrderedDict.fromKeys ((requestIds.zip pattern.rows).flatMap fun e =>
    -- `sparse_len[:, 0, 0].clamp(0, S)`
    (e.2.blocks pageSize (min e.2.len.toNat pattern.width)).map fun i => ⟨e.1, i⟩)).keys

/-- `{rid: i for i, rid in enumerate(request_ids)}`. -/
def batchIndex (requestIds : List RequestId) : OrderedDict RequestId Nat :=
  requestIds.zipIdx.foldl (fun d e => d.set e.1 e.2) .empty

/-- Everything the patch reads besides the index array. -/
structure PatchInput where
  indptr : List Nat
  requestIds : List RequestId
  pattern : Option SparsePattern
  pageSize : Nat
  stagingBase : Nat
  residency : ResidencyTable
  stagingMap : OrderedDict BlockRef Nat
  nullBlockId : Option Int

namespace PatchInput

variable (inp : PatchInput)

/-- `(start, end)` of row `b`. -/
def row (b : Nat) : Nat × Nat := (inp.indptr.getD b 0, inp.indptr.getD (b + 1) 0)

/-- One iteration of the first pass: a block staged in this step, unless the pattern was computed
for another batch composition. -/
def patchStaged (ref : BlockRef) : Eff (List Int) PyError Unit := fun buf =>
  match inp.stagingMap.get? ref, (batchIndex inp.requestIds).get? ref.requestId with
  | some slot, some b =>
      let flatPos : Int := (inp.row b).1 + ref.blockIdx
      if ((inp.row b).2 : Int) ≤ flatPos then (.ok (), buf)
      else
        match writeAt buf flatPos ((inp.stagingBase + slot : Nat) : Int) with
        | some buf => (.ok (), buf)
        | none => (.error .indexOutOfRange, buf)
  | _, _ => (.ok (), buf)

/-- The page the kernel has to read for a block, where it is not the original one. -/
def replacement (ref : BlockRef) : Option Int :=
  match inp.residency.get ref with
  | none => none
  | some loc =>
      match loc.residency, loc.stagingSlot with
      | .staging, some slot => some ((inp.stagingBase + slot : Nat) : Int)
      | .cpu, _ => inp.nullBlockId
      | _, _ => none

/-- The writes of the second pass for row `b`; none if the row does not match the tracked state. -/
def rowWrites (requestId : RequestId) (b : Nat) : List (Int × Int) :=
  let refs := inp.residency.refsForRequest requestId
  let start := (inp.row b).1
  let stop := (inp.row b).2
  if stop ≤ start then []
  else if refs.length ≠ stop - start then []
  else refs.filterMap fun ref => (inp.replacement ref).map fun page => ((start : Int) + ref.blockIdx, page)

def residencyWrites : List (Int × Int) := inp.requestIds.zipIdx.flatMap fun e => inp.rowWrites e.1 e.2

/-- First pass: only needed when something was staged in this step. -/
def patchFromMap : Eff (List Int) PyError Unit :=
  match inp.pattern with
  | none => pure ()
  | some pattern =>
      if inp.stagingMap.items = [] then pure ()
      else
        match collectNeededBlockRefs inp.requestIds pattern inp.pageSize with
        | .error e => Eff.raise e
        | .ok needed => Eff.forEach needed inp.patchStaged

/-- Second pass: one `index_put_` of everything the residency table asks for. -/
def patchFromResidency : Eff (List Int) PyError Unit := fun buf =>
  match scatter buf inp.residencyWrites with
  | some buf => (.ok (), buf)
  | none => (.error .indexOutOfRange, buf)

/-- The body of `patch_paged_kv_indices_with_staging`, on the array it writes. -/
def patchInto : Eff (List Int) PyError Unit :=
  if inp.indptr.length < inp.requestIds.length + 1 then Eff.raise .indptrTooShort
  else do
    inp.patchFromMap
    inp.patchFromResidency

/-- `patch_paged_kv_indices_with_staging`: the returned array, and what the caller's array holds
afterwards. Without `inplace` the patch works on a clone. -/
def patchPagedKvIndicesWithStaging (inplace : Bool) (original : List Int) : Except PyError (List Int) × List Int :=
  match inp.patchInto original with
  | (.ok (), patched) => (.ok patched, if inplace then patched else original)
  | (.error e, patched) => (.error e, if inplace then patched else original)

/-- What the callers provide: distinct requests, rows inside an array of `len` entries, contiguous
tracked blocks, and staged slots that the residency table confirms. -/
structure WellPosed (len : Nat) : Prop where
  requestIds_nodup : inp.requestIds.Nodup
  indptr_length : inp.requestIds.length + 1 ≤ inp.indptr.length
  indptr_mono : inp.indptr.Pairwise (· ≤ ·)
  indptr_le : ∀ x ∈ inp.indptr, x ≤ len
  tracked : ∀ r ∈ inp.requestIds, ∃ n, inp.residency.TracksRange r n
  stagingMap_agrees : ∀ ref slot, inp.stagingMap.get? ref = some slot →
    ∃ loc, inp.residency.get ref = some loc ∧ loc.residency = .staging ∧ loc.stagingSlot = some slot
  pattern_rows : ∀ pattern ∈ inp.pattern, pattern.rows.length = inp.requestIds.length

/-- Position `p` belongs to row `b`. -/
def InRow (b p : Nat) : Prop := (inp.row b).1 ≤ p ∧ p < (inp.row b).2

variable {inp} {len : Nat}

namespace WellPosed

variable (h : inp.WellPosed len)

include h

theorem row_le {b b' : Nat} (hlt : b < b') (hb' : b' < inp.requestIds.length) : (inp.row b).2 ≤ (inp.row b').1 := by
  have hlen := h.indptr_length
  have hle := List.pairwise_iff_getElem.mp h.indptr_mono
  simp only [row, List.getD_eq_getElem?_getD]
  rw [List.getElem?_eq_getElem (show b + 1 < inp.indptr.length by omega),
    List.getElem?_eq_getElem (show b' < inp.indptr.length by omega)]
  rcases Nat.eq_or_lt_of_le (Nat.succ_le_of_lt hlt) with heq | hlt'
  · exact le_of_eq (by simp only [← heq])
  · exact hle (b + 1) b' (by omega) (by omega) hlt'

theorem inRow_unique {b b' p : Nat} (hb : b < inp.requestIds.length) (hb' : b' < inp.requestIds.length)
    (hp : inp.InRow b p) (hp' : inp.InRow b' p) : b = b' := by
  rcases Nat.lt_trichotomy b b' with hlt | heq | hlt
  · exact absurd (h.row_le hlt hb') (by have := hp.2; have := hp'.1; omega)
  · exact heq
  · exact absurd (h.row_le hlt hb) (by have := hp.1; have := hp'.2; omega)

theorem lt_of_inRow {b p : Nat} (hb : b < inp.requestIds.length) (hp : inp.InRow b p) : p < len := by
  have hlen := h.indptr_length
  have hmem : (inp.row b).2 ∈ inp.indptr := by
    simp only [row, List.getD_eq_getElem?_getD]
    rw [List.getElem?_eq_getElem (show b + 1 < inp.indptr.length by omega)]
    exact List.getElem_mem _
  exact lt_of_lt_of_le hp.2 (h.indptr_le _ hmem)

end WellPosed

theorem batchIndex_get?_eq_some {ids : List RequestId} (hnodup : ids.Nodup) {r : RequestId} {b : Nat}
    (h : (batchIndex ids).get? r = some b) : ids[b]? = some r := by
  have hkeys : (ids.zipIdx.map Prod.fst).Nodup := by rwa [List.zipIdx_map_fst]
  rw [batchIndex, OrderedDict.get?_foldl_set Prod.fst Prod.snd hkeys] at h
  rcases h with ⟨e, he, rfl, rfl⟩ | ⟨-, hempty⟩
  · exact List.mem_zipIdx_iff_getElem?.mp he
  · simp at hempty

/-- What the array is after any number of iterations of the first pass: an entry is the original one,
or it is the page of the staged block it stands for. -/
structure FirstPass (inp : PatchInput) (original buf : List Int) : Prop where
  length_eq : buf.length = original.length
  entry : ∀ p : Nat, buf[p]? = original[p]? ∨ ∃ b r i slot, inp.requestIds[b]? = some r ∧ inp.InRow b p ∧
    (p : Int) = (inp.row b).1 + i ∧ inp.stagingMap.get? ⟨r, i⟩ = some slot ∧
    buf[p]? = some ((inp.stagingBase + slot : Nat) : Int)

theorem wp_patchStaged {original buf : List Int} (h : inp.WellPosed original.length) (ref : BlockRef)
    (hbuf : FirstPass inp original buf) :
    Eff.wp (inp.patchStaged ref) (fun _ => FirstPass inp original) (fun _ _ => False) buf := by
  unfold Eff.wp patchStaged
  cases hslot : inp.stagingMap.get? ref with
  | none => exact hbuf
  | some slot =>
      cases hb : (batchIndex inp.requestIds).get? ref.requestId with
      | none => exact hbuf
      | some b =>
          have hr := batchIndex_get?_eq_some h.requestIds_nodup hb
          have hblt : b < inp.requestIds.length := (List.getElem?_eq_some_iff.mp hr).1
          obtain ⟨n, hn⟩ := h.tracked _ (List.mem_of_getElem? hr)
          obtain ⟨loc, hloc, -, -⟩ := h.stagingMap_agrees ref slot hslot
          have hidx : 0 ≤ ref.blockIdx := ((hn ref.blockIdx).mp (by rw [hloc]; rfl)).1
          by_cases hend : ((inp.row b).2 : Int) ≤ (inp.row b).1 + ref.blockIdx
          · simp only [hend, if_true]
            exact hbuf
          · obtain ⟨p, hp⟩ := Int.eq_ofNat_of_zero_le (show 0 ≤ ((inp.row b).1 : Int) + ref.blockIdx by omega)
            have hrow : inp.InRow b p := ⟨by omega, by omega⟩
            have hplt : p < buf.length := hbuf.length_eq ▸ h.lt_of_inRow hblt hrow
            rw [hp] at hend
            simp only [hp, hend, if_false, writeAt_of_lt hplt]
            refine ⟨by rw [List.length_set, hbuf.length_eq], fun q => ?_⟩
            by_cases hpq : p = q
            · subst hpq
              exact Or.inr ⟨b, ref.requestId, ref.blockIdx, slot, hr, hrow, hp.symm, hslot,
                List.getElem?_set_self hplt⟩
            · rw [List.getElem?_set_ne hpq]
              exact hbuf.entry q

theorem mem_residencyWrites {w : Int × Int} :
    w ∈ inp.residencyWrites ↔ ∃ b r, inp.requestIds[b]? = some r ∧ w ∈ inp.rowWrites r b := by
  simp only [residencyWrites, List.mem_flatMap, Prod.exists, List.mem_zipIdx_iff_getElem?]
  constructor
  · rintro ⟨r, b, hr, hw⟩
    exact ⟨b, r, hr, hw⟩
  · rintro ⟨b, r, hr, hw⟩
    exact ⟨r, b, hr, hw⟩

theorem mem_rowWrites {r : RequestId} {b n : Nat} (hn : inp.residency.TracksRange r n) {w : Int × Int} :
    w ∈ inp.rowWrites r b ↔ (inp.row b).2 = (inp.row b).1 + n ∧
      ∃ i < n, ∃ page, inp.replacement ⟨r, (i : Int)⟩ = some page ∧ w = ((inp.row b).1 + (i : Int), page) := by
  simp only [rowWrites, hn.refsForRequest, List.length_map, List.length_range]
  split_ifs with hstop hlen
  · constructor
    · intro hw
      simp at hw
    · rintro ⟨hrow, i, hi, -⟩
      omega
  · constructor
    · intro hw
      simp at hw
    · rintro ⟨hrow, -⟩
      omega
  · simp only [List.mem_filterMap, List.mem_map, List.mem_range, Option.map_eq_some_iff]
    constructor
    · rintro ⟨_, ⟨i, hi, rfl⟩, page, hpage, rfl⟩
      exact ⟨by omega, i, hi, page, hpage, rfl⟩
    · rintro ⟨-, i, hi, page, hpage, rfl⟩
      exact ⟨_, ⟨i, hi, rfl⟩, page, hpage, rfl⟩

/-- A write of the second pass lies in its row, and the position determines the write. -/
theorem residencyWrites_position (h : inp.WellPosed len) {w : Int × Int} (hw : w ∈ inp.residencyWrites) :
    ∃ b r i, inp.requestIds[b]? = some r ∧ inp.InRow b ((inp.row b).1 + i) ∧
      w.1 = ((inp.row b).1 + i : Nat) ∧ inp.replacement ⟨r, (i : Int)⟩ = some w.2 := by
  obtain ⟨b, r, hr, hw⟩ := mem_residencyWrites.mp hw
  obtain ⟨n, hn⟩ := h.tracked r (List.mem_of_getElem? hr)
  obtain ⟨hrow, i, hi, page, hpage, rfl⟩ := (mem_rowWrites hn).mp hw
  exact ⟨b, r, i, hr, ⟨by omega, by omega⟩, by push_cast; rfl, hpage⟩

theorem residencyWrites_functional (h : inp.WellPosed len) :
    ∀ w ∈ inp.residencyWrites, ∀ w' ∈ inp.residencyWrites, w.1 = w'.1 → w = w' := by
  intro w hw w' hw' heq
  obtain ⟨b, r, i, hr, hrow, hpos, hpage⟩ := residencyWrites_position h hw
  obtain ⟨b', r', i', hr', hrow', hpos', hpage'⟩ := residencyWrites_position h hw'
  have hflat : (inp.row b).1 + i = (inp.row b').1 + i' := Int.natCast_inj.mp (by rw [← hpos, ← hpos', heq])
  have hblt := (List.getElem?_eq_some_iff.mp hr).1
  have hblt' := (List.getElem?_eq_some_iff.mp hr').1
  obtain rfl : b = b' := h.inRow_unique hblt hblt' hrow (hflat ▸ hrow')
  obtain rfl : i = i' := by omega
  obtain rfl : r = r' := Option.some.inj (hr.symm.trans hr')
  exact Prod.ext heq (Option.some.inj (hpage.symm.trans hpage'))

/-- The entry the kernel has to find for a tracked block, given the entry that was there. -/
def EntryRight (inp : PatchInput) (ref : BlockRef) (old new : Option Int) : Prop :=
  ∀ loc, inp.residency.get ref = some loc →
    match loc.residency with
    | .staging => ∃ slot, loc.stagingSlot = some slot ∧ new = some ((inp.stagingBase + slot : Nat) : Int)
    | .cpu => new = (match inp.nullBlockId with | some null => some null | none => old)
    | .gpu => new = old

theorem entryRight_of_replacement {ref : BlockRef} {page : Int} (h : inp.replacement ref = some page)
    (old : Option Int) : inp.EntryRight ref old (some page) := by
  intro loc hloc
  rw [replacement, hloc] at h
  cases hres : loc.residency <;> cases hslot : loc.stagingSlot <;> simp_all

theorem entryRight_of_replacement_eq_none {ref : BlockRef} (h : inp.replacement ref = none) (old : Option Int) :
    inp.EntryRight ref old old := by
  intro loc hloc
  have hwf := inp.residency.wellFormed ref loc hloc
  rw [replacement, hloc] at h
  cases hres : loc.residency with
  | gpu => rfl
  | cpu => simp_all
  | staging =>
      obtain ⟨slot, hslot⟩ := Option.isSome_iff_exists.mp (hwf.stagingSlot_isSome.mpr hres)
      simp [hres, hslot] at h

theorem replacement_of_staged (h : inp.WellPosed len) {ref : BlockRef} {slot : Nat}
    (hslot : inp.stagingMap.get? ref = some slot) :
    inp.replacement ref = some ((inp.stagingBase + slot : Nat) : Int) := by
  obtain ⟨loc, hloc, hres, hstaged⟩ := h.stagingMap_agrees ref slot hslot
  simp only [replacement, hloc, hres, hstaged]

theorem wp_patchFromMap {original : List Int} (h : inp.WellPosed original.length) :
    Eff.wp inp.patchFromMap (fun _ => FirstPass inp original) (fun _ _ => False) original := by
  have hinit : FirstPass inp original original := ⟨rfl, fun _ => Or.inl rfl⟩
  unfold patchFromMap
  cases hpattern : inp.pattern with
  | none => exact hinit
  | some pattern =>
      have hrows := h.pattern_rows pattern hpattern
      by_cases hempty : inp.stagingMap.items = []
      · simp only [hempty, if_true]
        exact hinit
      · simp only [hempty, if_false, collectNeededBlockRefs, hrows, ne_eq, not_true_eq_false]
        exact Eff.wp_forEach hinit fun ref _ buf hbuf => wp_patchStaged h ref hbuf

/-- The second pass, on whatever the first one left. -/
theorem scatter_residencyWrites {original buf : List Int} (h : inp.WellPosed original.length)
    (hbuf : FirstPass inp original buf) :
    ∃ out, scatter buf inp.residencyWrites = some out ∧ out.length = original.length ∧
      (∀ (p : Nat) v, ((p : Int), v) ∈ inp.residencyWrites → out[p]? = some v) ∧
      ∀ p : Nat, (∀ v, ((p : Int), v) ∉ inp.residencyWrites) → out[p]? = buf[p]? := by
  have hpos : ∀ w ∈ inp.residencyWrites, ∃ p : Nat, w.1 = p ∧ p < buf.length := by
    intro w hw
    obtain ⟨b, r, i, hr, hrow, hpos, -⟩ := residencyWrites_position h hw
    exact ⟨_, hpos, hbuf.length_eq ▸ h.lt_of_inRow (List.getElem?_eq_some_iff.mp hr).1 hrow⟩
  rw [← hbuf.length_eq]
  exact scatter_of_lt hpos (residencyWrites_functional h)

theorem patchInto_eq {original : List Int} (h : inp.WellPosed original.length) :
    ∃ buf out, FirstPass inp original buf ∧ scatter buf inp.residencyWrites = some out ∧
      inp.patchInto original = (.ok (), out) := by
  have hindptr : ¬inp.indptr.length < inp.requestIds.length + 1 := not_lt.mpr h.indptr_length
  have hwp : Eff.wp inp.patchInto (fun _ out => ∃ buf, FirstPass inp original buf ∧
      scatter buf inp.residencyWrites = some out) (fun _ _ => False) original := by
    rw [patchInto, if_neg hindptr, Eff.wp_bind]
    refine Eff.wp_mono (wp_patchFromMap h) (fun _ buf hbuf => ?_) (fun _ _ hfalse => hfalse)
    obtain ⟨out, hout, -⟩ := scatter_residencyWrites h hbuf
    simp only [Eff.wp, patchFromResidency, hout]
    exact ⟨buf, hbuf, hout⟩
  rcases hrun : inp.patchInto original with ⟨_ | _, out⟩
  · simp [Eff.wp, hrun] at hwp
  · obtain ⟨buf, hbuf, hout⟩ := Eff.of_wp hwp hrun
    exact ⟨buf, out, hbuf, hout, rfl⟩

/-- Row `b` is exactly as long as the tracked state of its request. -/
def Aligned (inp : PatchInput) (b : Nat) (r : RequestId) (n : Nat) : Prop :=
  inp.requestIds[b]? = some r ∧ inp.residency.TracksRange r n ∧ (inp.row b).2 = (inp.row b).1 + n

/-- The patched array, entry by entry: in an aligned row a block's replacement if it has one and the
original entry otherwise; outside the listed rows the original entry. -/
theorem patchInto_entries {original : List Int} (h : inp.WellPosed original.length) :
    ∃ out, inp.patchInto original = (.ok (), out) ∧ out.length = original.length ∧
      (∀ b r n, inp.Aligned b r n → ∀ i < n,
        out[(inp.row b).1 + i]? = (inp.replacement ⟨r, (i : Int)⟩).or original[(inp.row b).1 + i]?) ∧
      ∀ p, (∀ b < inp.requestIds.length, ¬inp.InRow b p) → out[p]? = original[p]? := by
  obtain ⟨buf, out, hbuf, hout, hrun⟩ := patchInto_eq h
  obtain ⟨out', hout', hlen, hin, hfree⟩ := scatter_residencyWrites h hbuf
  obtain rfl : out' = out := Option.some.inj (hout'.symm.trans hout)
  refine ⟨out', hrun, hlen, ?_, ?_⟩
  · rintro b r n ⟨hr, hn, hrow⟩ i hi
    have hblt := (List.getElem?_eq_some_iff.mp hr).1
    have hinrow : inp.InRow b ((inp.row b).1 + i) := ⟨by omega, by omega⟩
    cases hrep : inp.replacement ⟨r, (i : Int)⟩ with
    | some page =>
        have hmem : ((((inp.row b).1 + i : Nat) : Int), page) ∈ inp.residencyWrites :=
          mem_residencyWrites.mpr ⟨b, r, hr, (mem_rowWrites hn).mpr ⟨hrow, i, hi, page, hrep, by push_cast; rfl⟩⟩
        rw [hin _ _ hmem]
        rfl
    | none =>
        -- Neither pass writes here: the position determines the block, which has no replacement.
        have hsecond : ∀ v, ((((inp.row b).1 + i : Nat) : Int), v) ∉ inp.residencyWrites := by
          intro v hv
          obtain ⟨b', r', i', hr', hrow', hpos', hpage⟩ := residencyWrites_position h hv
          have hflat : (inp.row b).1 + i = (inp.row b').1 + i' := Int.natCast_inj.mp hpos'
          obtain rfl := h.inRow_unique hblt (List.getElem?_eq_some_iff.mp hr').1 hinrow (hflat ▸ hrow')
          obtain rfl : i = i' := by omega
          obtain rfl : r = r' := Option.some.inj (hr.symm.trans hr')
          rw [hrep] at hpage
          cases hpage
        have hfirst : buf[(inp.row b).1 + i]? = original[(inp.row b).1 + i]? := by
          rcases hbuf.entry ((inp.row b).1 + i) with heq | ⟨b', r', i', slot, hr', hrow', hp, hslot, -⟩
          · exact heq
          · obtain rfl := h.inRow_unique hblt (List.getElem?_eq_some_iff.mp hr').1 hinrow hrow'
            obtain rfl : i' = (i : Int) := by push_cast at hp; omega
            obtain rfl : r = r' := Option.some.inj (hr.symm.trans hr')
            rw [replacement_of_staged h hslot] at hrep
            cases hrep
        rw [hfree _ hsecond, hfirst, Option.none_or]
  · intro p hp
    have hsecond : ∀ v, ((p : Int), v) ∉ inp.residencyWrites := by
      intro v hv
      obtain ⟨b, r, i, hr, hrow, hpos', -⟩ := residencyWrites_position h hv
      obtain rfl : p = (inp.row b).1 + i := Int.natCast_inj.mp hpos'
      exact hp b (List.getElem?_eq_some_iff.mp hr).1 hrow
    rw [hfree p hsecond]
    rcases hbuf.entry p with heq | ⟨b, r, i, slot, hr, hrow, -⟩
    · exact heq
    · exact absurd hrow (hp b (List.getElem?_eq_some_iff.mp hr).1)

/-- Every row whose length is the tracked count reads the right page for each of its blocks, whatever
the sparse pattern is; entries outside the rows stay; and both calling conventions agree. -/
theorem patchPagedKvIndicesWithStaging_correct (inp : PatchInput) (original : List Int)
    (h : inp.WellPosed original.length) :
    ∃ out, (∀ inplace, inp.patchPagedKvIndicesWithStaging inplace original =
        (.ok out, if inplace then out else original)) ∧
      out.length = original.length ∧
      (∀ b r n, inp.requestIds[b]? = some r → inp.residency.TracksRange r n →
        (inp.row b).2 = (inp.row b).1 + n → ∀ i < n,
          inp.EntryRight ⟨r, (i : Int)⟩ original[(inp.row b).1 + i]? out[(inp.row b).1 + i]?) ∧
      ∀ p, (∀ b < inp.requestIds.length, ¬inp.InRow b p) → out[p]? = original[p]? := by
  obtain ⟨out, hrun, hlen, hrows, hrest⟩ := patchInto_entries h
  refine ⟨out, fun inplace => ?_, hlen, fun b r n hr hn hrow i hi => ?_, hrest⟩
  · simp only [patchPagedKvIndicesWithStaging, hrun]
  · rw [hrows b r n ⟨hr, hn, hrow⟩ i hi]
    cases hrep : inp.replacement ⟨r, (i : Int)⟩ with
    | some page => exact entryRight_of_replacement hrep _
    | none => exact entryRight_of_replacement_eq_none hrep _

/-- Under true freeing, block 0 of one request is staged and its block 1 is on the CPU only; the other request has
block 0 on the GPU and block 1 staged. The pattern selects the first token of one and the last of the other. -/
def offloadedRows : PatchInput where
  indptr := [0, 2, 4]
  requestIds := [['a'], ['b']]
  pattern := some ⟨1, 1, [⟨[[0]], 1⟩, ⟨[[1]], 1⟩], by decide⟩
  pageSize := 1
  stagingBase := 8
  residency :=
    let t := (ResidencyTable.empty.markGpu ⟨['a'], 0⟩ 5 true).markGpu ⟨['a'], 1⟩ 6 true
    let t := (t.markGpu ⟨['b'], 0⟩ 7 true).markGpu ⟨['b'], 1⟩ 4 true
    let t := (t.markCpu ⟨['a'], 0⟩ 0).toOption.getD t
    let t := (t.markCpu ⟨['a'], 1⟩ 1).toOption.getD t
    let t := (t.markCpu ⟨['b'], 1⟩ 2).toOption.getD t
    let t := (t.markStaging ⟨['a'], 0⟩ 3).toOption.getD t
    (t.markStaging ⟨['b'], 1⟩ 1).toOption.getD t
  stagingMap := (OrderedDict.empty.set ⟨['a'], 0⟩ 3).set ⟨['b'], 1⟩ 1
  nullBlockId := some 0

theorem offloadedRows_tracksRange {r : RequestId} (hr : r ∈ offloadedRows.requestIds) :
    offloadedRows.residency.TracksRange r 2 := by
  have hitems : offloadedRows.residency.blocks.items.map Prod.fst =
      [⟨['a'], 0⟩, ⟨['a'], 1⟩, ⟨['b'], 0⟩, ⟨['b'], 1⟩] := by decide
  intro i
  rw [← ResidencyTable.mem_keys_iff_isSome, OrderedDict.keys, hitems]
  simp only [List.mem_cons, List.not_mem_nil, or_false, BlockRef.mk.injEq]
  rcases List.mem_pair.mp hr with rfl | rfl
  · simp only [List.cons.injEq, Char.reduceEq, and_true, true_and, false_and, or_false]
    omega
  · simp only [List.cons.injEq, Char.reduceEq, and_true, true_and, false_and, false_or]
    omega

theorem offloadedRows_wellPosed : offloadedRows.WellPosed 4 where
  requestIds_nodup := by decide
  indptr_length := by decide
  indptr_mono := by decide
  indptr_le := by decide
  tracked r hr := ⟨2, offloadedRows_tracksRange hr⟩
  stagingMap_agrees := by
    intro ref slot hslot
    rw [offloadedRows, OrderedDict.get?_set, OrderedDict.get?_set] at hslot
    split_ifs at hslot with hb ha
    · subst hb
      rw [← Option.some.inj hslot]
      exact ⟨_, rfl, rfl, rfl⟩
    · subst ha
      rw [← Option.some.inj hslot]
      exact ⟨_, rfl, rfl, rfl⟩
    · cases hslot
  pattern_rows := by simp [offloadedRows]

/-- Three entries are replaced, and each is right. -/
theorem offloadedRows_patched :
    (∀ inplace, offloadedRows.patchPagedKvIndicesWithStaging inplace [5, 6, 7, 4] =
      (.ok [11, 0, 7, 9], if inplace then [11, 0, 7, 9] else [5, 6, 7, 4])) ∧
      offloadedRows.EntryRight ⟨['a'], 0⟩ (some 5) (some 11) ∧ offloadedRows.EntryRight ⟨['a'], 1⟩ (some 6) (some 0) ∧
      offloadedRows.EntryRight ⟨['b'], 0⟩ (some 7) (some 7) ∧
        offloadedRows.EntryRight ⟨['b'], 1⟩ (some 4) (some 9) := by
  obtain ⟨out, hout, -, hrows, -⟩ := patchPagedKvIndicesWithStaging_correct offloadedRows [5, 6, 7, 4]
    offloadedRows_wellPosed
  have hentries : offloadedRows.patchPagedKvIndicesWithStaging true [5, 6, 7, 4] =
      (.ok [11, 0, 7, 9], [11, 0, 7, 9]) := by decide
  obtain rfl : out = [11, 0, 7, 9] := Except.ok.inj (congrArg Prod.fst ((hout true).symm.trans hentries))
  have ha := hrows 0 ['a'] 2 rfl (offloadedRows_tracksRange (by decide)) rfl
  have hb := hrows 1 ['b'] 2 rfl (offloadedRows_tracksRange (by decide)) rfl
  exact ⟨hout, ha 0 (by decide), ha 1 (by decide), hb 0 (by decide), hb 1 (by decide)⟩

end PatchInput

end KVOffload

import KVOffload.BaseCycles
import KVOffload.BaseLists
import KVOffload.VllmBatchMoves
import Mathlib.Algebra.GroupWithZero.Nat
import Mathlib.Data.List.Perm.Basic
import Mathlib.Data.List.Range

/-! The order of the rows. Before the attention metadata is built, rows that decode are brought to the front, followed
by those that continue a prompt and those that start one. Only rows in the wrong region are touched; they are sorted by
region into the positions they leave, along the cycles of that permutation. The builder then counts the decode rows as
those before the first row with more tokens than the threshold. -/

namespace KVOffload
open Base

/-- The regions, in their order in the batch. -/
inductive BatchRegion where
  | decode
  | shortExtend
  | longExtend
  | prefill
  deriving DecidableEq, Repr

namespace BatchRegion

def index : BatchRegion → Nat
  | decode => 0
  | shortExtend => 1
  | longExtend => 2
  | prefill => 3

/-- The region of a request from its tokens. -/
def ofTokens (decodeThreshold numScheduledTokens numComputedTokens numPromptTokens : Nat) : BatchRegion :=
  if ¬0 < numComputedTokens then prefill
  else if ¬numScheduledTokens ≤ decodeThreshold then longExtend
  else if ¬numPromptTokens ≤ numComputedTokens then shortExtend
  else decode

/-- `np.repeat([0, 1, 2, 3], counts)` -/
def target (regions : List BatchRegion) : List BatchRegion :=
  List.replicate (regions.count decode) decode ++ List.replicate (regions.count shortExtend) shortExtend ++
    List.replicate (regions.count longExtend) longExtend ++ List.replicate (regions.count prefill) prefill

end BatchRegion

namespace InputBatch

section Definitions

variable (numScheduledTokens : RequestId → Nat) (decodeThreshold : Nat) (b : InputBatch)

/-- The tokens of the request in a row. -/
def rowTokens (i : Nat) : Nat := (b.reqIds[i]?.join).elim 0 numScheduledTokens

/-- `req_regions[i]` -/
def region (i : Nat) : BatchRegion :=
  .ofTokens decodeThreshold (b.rowTokens numScheduledTokens i) (b.numComputedTokensCpu i) (b.numPromptTokens i)

def regions : List BatchRegion := (List.range b.reqIds.length).map (b.region numScheduledTokens decodeThreshold)

/-- `target_regions[i]` -/
def targetAt (i : Nat) : BatchRegion :=
  ((BatchRegion.target (b.regions numScheduledTokens decodeThreshold))[i]?).getD .decode

/-- `np.where(needs_swap)[0]` -/
def needsSwap : List Nat :=
  (List.range b.reqIds.length).filter fun i =>
    b.region numScheduledTokens decodeThreshold i ≠ b.targetAt numScheduledTokens decodeThreshold i

/-- The differences of `query_start_loc`: the tokens of the rows, in their order. -/
def queryLens : List Nat := (List.range b.reqIds.length).map (b.rowTokens numScheduledTokens)

end Definitions

/-- `reorder_batch_to_split_decodes_and_prefills`. Returns whether the batch was changed. -/
def reorderBatch (numScheduledTokens : RequestId → Nat) (decodeThreshold : Nat) : BatchM Bool := do
  let b ← Eff.read
  let origIndices := b.needsSwap numScheduledTokens decodeThreshold
  if origIndices = [] then pure false
  else do
    let srcIndices := origIndices.insertionSort fun i j =>
      (b.region numScheduledTokens decodeThreshold i).index ≤ (b.region numScheduledTokens decodeThreshold j).index
    let srcDestMap := OrderedDict.ofZip srcIndices origIndices
    followCycles swapStates .endless srcDestMap.keys.length srcDestMap.keys srcDestMap
    pure true

end InputBatch

/-- `split_decodes_and_prefills` for a non-empty batch: the numbers of decode and prefill requests and of their
tokens. -/
def splitDecodesAndPrefills (queryLens : List Nat) (decodeThreshold : Nat) : Nat × Nat × Nat × Nat :=
  let numReqs := queryLens.length
  let numTokens := queryLens.sum
  let maxQueryLen := queryLens.foldr max 0
  if maxQueryLen ≤ decodeThreshold then (numReqs, 0, numTokens, 0)
  else if decodeThreshold < queryLens.headD 0 then (0, numReqs, 0, numTokens)
  else
    let isPrefill := queryLens.map fun n => decide (decodeThreshold < n)
    if ¬isPrefill.any id then (numReqs, 0, numTokens, 0)
    else
      let firstPrefill := isPrefill.idxOf true
      let numDecodeTokens := (queryLens.take firstPrefill).sum
      (firstPrefill, numReqs - firstPrefill, numDecodeTokens, numTokens - numDecodeTokens)

section Splitting

variable {queryLens : List Nat} {decodeThreshold : Nat}

theorem foldr_max_le_iff : queryLens.foldr max 0 ≤ decodeThreshold ↔ ∀ n ∈ queryLens, n ≤ decodeThreshold := by
  induction queryLens with
  | nil => simp
  | cons n rest ih => rw [List.foldr_cons, max_le_iff, ih, List.forall_mem_cons]

/-- All shortcuts agree: the batch is cut at its first row with more tokens than the threshold. -/
theorem splitDecodesAndPrefills_eq {k : Nat} (hk : queryLens.findIdx (fun n => decide (decodeThreshold < n)) = k) :
    splitDecodesAndPrefills queryLens decodeThreshold =
      (k, queryLens.length - k, (queryLens.take k).sum, (queryLens.drop k).sum) := by
  have hall : (∀ n ∈ queryLens, n ≤ decodeThreshold) →
      (queryLens.length, 0, queryLens.sum, 0) =
        (k, queryLens.length - k, (queryLens.take k).sum, (queryLens.drop k).sum) := by
    intro hshort
    have hlength : k = queryLens.length := by
      rw [← hk, List.findIdx_eq_length]
      exact fun n hn => decide_eq_false (Nat.not_lt.mpr (hshort n hn))
    rw [hlength, List.take_length, List.drop_length, Nat.sub_self, List.sum_nil]
  have hsum : (queryLens.take k).sum + (queryLens.drop k).sum = queryLens.sum := by
    rw [← List.sum_append, List.take_append_drop]
  unfold splitDecodesAndPrefills
  dsimp only
  split_ifs with hmax hhead hnone
  · exact hall (foldr_max_le_iff.mp hmax)
  · cases queryLens with
    | nil => exact absurd (Nat.zero_le _) hmax
    | cons n rest =>
        rw [List.headD_cons] at hhead
        have hzero : k = 0 := by rw [← hk, List.findIdx_cons, decide_eq_true hhead, cond_true]
        rw [hzero, List.take_zero, List.drop_zero, Nat.sub_zero, List.sum_nil]
  · have hfirst : (queryLens.map fun n => decide (decodeThreshold < n)).idxOf true = k := by
      rw [List.idxOf, List.findIdx_map, ← hk]
      congr 1
      funext n
      exact beq_true _
    rw [hfirst, ← hsum, Nat.add_sub_cancel_left]
  · refine hall fun n hn => Nat.not_lt.mp fun hlong => hnone ?_
    rw [List.any_map, List.any_eq_true]
    exact ⟨n, hn, decide_eq_true hlong⟩

end Splitting

section Sorting

namespace BatchRegion

theorem index_injective : Function.Injective index := by
  intro x y h
  cases x <;> cases y <;> first | rfl | cases h

theorem perm_target (regions : List BatchRegion) : (target regions).Perm regions := by
  rw [List.perm_iff_count]
  intro x
  cases x <;> simp [target, List.count_replicate]

theorem length_target (regions : List BatchRegion) : (target regions).length = regions.length :=
  (perm_target regions).length_eq

theorem pairwise_target (regions : List BatchRegion) : ((target regions).map index).Pairwise (· ≤ ·) := by
  have hblock : ∀ n k : Nat, (List.replicate n k).Pairwise (· ≤ ·) := fun n k =>
    List.pairwise_replicate.mpr (Or.inr le_rfl)
  simp only [target, List.map_append, List.map_replicate]
  refine List.pairwise_append.mpr ⟨List.pairwise_append.mpr ⟨List.pairwise_append.mpr ⟨hblock _ _, hblock _ _, ?_⟩,
    hblock _ _, ?_⟩, hblock _ _, ?_⟩
  all_goals
    intro x hx y hy
    simp only [List.mem_append, List.mem_replicate, index] at hx hy
    omega

/-- The first two regions are those of the short rows with context. -/
theorem index_ofTokens_le_one_iff {decodeThreshold numScheduledTokens numComputedTokens numPromptTokens : Nat} :
    (ofTokens decodeThreshold numScheduledTokens numComputedTokens numPromptTokens).index ≤ 1 ↔
      0 < numComputedTokens ∧ numScheduledTokens ≤ decodeThreshold := by
  unfold ofTokens
  split_ifs with hcontext hshort hprompt <;> simp only [index] <;> omega

end BatchRegion

end Sorting

namespace InputBatch

section Reordering

variable {numScheduledTokens : RequestId → Nat} {decodeThreshold : Nat} {b b' : InputBatch}

theorem length_regions (b : InputBatch) : (b.regions numScheduledTokens decodeThreshold).length = b.reqIds.length := by
  rw [regions, List.length_map, List.length_range]

theorem map_targetAt (b : InputBatch) :
    (List.range b.reqIds.length).map (b.targetAt numScheduledTokens decodeThreshold) =
      BatchRegion.target (b.regions numScheduledTokens decodeThreshold) := by
  apply List.ext_getElem
  · rw [List.length_map, List.length_range, BatchRegion.length_target, length_regions]
  · intro i hi hi'
    rw [List.getElem_map, List.getElem_range, targetAt, List.getElem?_eq_getElem hi', Option.getD_some]

theorem index_targetAt_le {i j : Nat} (hij : i < j) (hj : j < b.reqIds.length) :
    (b.targetAt numScheduledTokens decodeThreshold i).index ≤
      (b.targetAt numScheduledTokens decodeThreshold j).index := by
  have hsorted := BatchRegion.pairwise_target (b.regions numScheduledTokens decodeThreshold)
  rw [← map_targetAt, List.map_map, List.pairwise_map, List.pairwise_iff_getElem] at hsorted
  have hle := hsorted i j (by rw [List.length_range]; omega) (by rwa [List.length_range]) hij
  rw [List.getElem_range, List.getElem_range] at hle
  exact hle

/-- The rows that have to move, sorted by region, have the regions of the positions they go to. -/
theorem map_region_eq {srcs : List Nat} (hperm : srcs.Perm (b.needsSwap numScheduledTokens decodeThreshold))
    (hsorted : (srcs.map fun i => (b.region numScheduledTokens decodeThreshold i).index).Pairwise (· ≤ ·)) :
    srcs.map (b.region numScheduledTokens decodeThreshold) =
      (b.needsSwap numScheduledTokens decodeThreshold).map (b.targetAt numScheduledTokens decodeThreshold) := by
  have hregions : ((List.range b.reqIds.length).map fun i => (b.region numScheduledTokens decodeThreshold i).index).Perm
      ((List.range b.reqIds.length).map fun i => (b.targetAt numScheduledTokens decodeThreshold i).index) := by
    have htarget := (BatchRegion.perm_target (b.regions numScheduledTokens decodeThreshold)).map BatchRegion.index
    rw [← map_targetAt, regions, List.map_map, List.map_map] at htarget
    exact htarget.symm
  have hneeds : (List.range b.reqIds.length).filter (fun i => (b.region numScheduledTokens decodeThreshold i).index ≠
      (b.targetAt numScheduledTokens decodeThreshold i).index) = b.needsSwap numScheduledTokens decodeThreshold := by
    rw [needsSwap]
    apply List.filter_congr
    intro i _
    rw [decide_eq_decide]
    exact not_congr BatchRegion.index_injective.eq_iff
  have hvalues := perm_map_filter_ne hregions
  rw [hneeds] at hvalues
  have hordered : ((b.needsSwap numScheduledTokens decodeThreshold).map fun i =>
      (b.targetAt numScheduledTokens decodeThreshold i).index).Pairwise (· ≤ ·) := by
    rw [List.pairwise_map]
    refine (List.pairwise_lt_range.sublist List.filter_sublist).imp_of_mem fun hi hj hij => ?_
    exact index_targetAt_le hij (List.mem_range.mp (List.mem_filter.mp hj).1)
  have hequal := ((hperm.map _).trans hvalues).eq_of_pairwise' hsorted hordered
  apply (List.map_injective_iff.mpr BatchRegion.index_injective)
  rw [List.map_map, List.map_map]
  exact hequal

/-- Every row has the region of the position it is sent to. -/
theorem region_eq_targetAt_dest {srcs : List Nat} (hperm : srcs.Perm (b.needsSwap numScheduledTokens decodeThreshold))
    (hnodup : srcs.Nodup)
    (hsorted : (srcs.map fun i => (b.region numScheduledTokens decodeThreshold i).index).Pairwise (· ≤ ·)) {p : Nat}
    (hp : p < b.reqIds.length) :
    b.region numScheduledTokens decodeThreshold p = b.targetAt numScheduledTokens decodeThreshold
      ((OrderedDict.ofZip srcs (b.needsSwap numScheduledTokens decodeThreshold)).dest p) := by
  have hlength := hperm.length_eq
  by_cases hmem : p ∈ srcs
  · obtain ⟨k, hsrc⟩ := List.mem_iff_getElem?.mp hmem
    have hk := hlength ▸ (List.getElem?_eq_some_iff.mp hsrc).1
    have hdst := List.getElem?_eq_getElem hk
    have hregions := congrArg (·[k]?) (map_region_eq hperm hsorted)
    simp only [List.getElem?_map, hsrc, hdst, Option.map_some] at hregions
    rw [OrderedDict.dest_ofZip hnodup hlength hsrc hdst]
    exact Option.some.inj hregions
  · rw [OrderedDict.dest_ofZip_of_notMem hnodup hlength hmem]
    by_contra hne
    exact hmem (hperm.mem_iff.mpr (List.mem_filter.mpr ⟨List.mem_range.mpr hp, by simpa using hne⟩))

theorem Dense.exists_row (h : Dense b) {i : Nat} (hi : i < b.reqIds.length) : ∃ r, b.reqIds[i]? = some (some r) := by
  cases hrow : b.reqIds[i]? with
  | none => exact absurd (List.getElem?_eq_none_iff.mp hrow) (by omega)
  | some id =>
      cases id with
      | none => exact absurd hrow (h.full i)
      | some r => exact ⟨r, rfl⟩

/-- The region of a request does not depend on its row. -/
theorem region_congr (h : Indexed b) (h' : Indexed b') (hstate : ∀ r, b'.state? r = b.state? r) {i j : Nat}
    {r : RequestId} (hi : b.reqIds[i]? = some (some r)) (hj : b'.reqIds[j]? = some (some r)) :
    b'.region numScheduledTokens decodeThreshold j = b.region numScheduledTokens decodeThreshold i := by
  have hrow := hstate r
  rw [h.state?_of_row hi, h'.state?_of_row hj, Option.some.injEq, rowState, rowState,
    CachedRequestState.mk.injEq] at hrow
  rw [region, region, rowTokens, rowTokens, hi, hj, hrow.1, hrow.2.1]

/-- Between two swaps: the content of each position `p` comes from where the whole permutation `f` takes to `g p`, and
`g` is what is left to do. -/
structure Reordering (b : InputBatch) (f g : Equiv.Perm Nat) (b' : InputBatch) : Prop where
  dense : Dense b'
  limits : SameLimits b b'
  entry : ∀ r, b'.state? r = b.state? r
  length : b'.reqIds.length = b.reqIds.length
  moved : ∀ p, g p ≠ p → p < b.reqIds.length
  content : ∀ p : Nat, b'.reqIds[p]? = b.reqIds[f.symm (g p)]?

theorem settles_swapStates (b : InputBatch) (f : Equiv.Perm Nat) : Settles swapStates (Reordering b f) := by
  intro g src s hsrc h
  obtain ⟨r1, h1⟩ := h.dense.exists_row (h.length ▸ h.moved src hsrc)
  obtain ⟨r2, h2⟩ := h.dense.exists_row (h.length ▸ h.moved (g src) (apply_dst_ne hsrc))
  refine Eff.wp_mono (wp_swapStates h.dense.indexed h1 h2) (fun _ s' hs' => ?_) fun _ _ hf => hf
  refine ⟨⟨hs'.indexed, fun i => ?_, ?_⟩, h.limits.trans hs'.limits, fun r => (hs'.entry r).trans (h.entry r),
    hs'.length.trans h.length, fun p hp => h.moved p (ne_of_mul_swap hsrc hp), fun p => ?_⟩
  · rw [hs'.content]
    exact h.dense.full _
  · rw [hs'.length, hs'.limits.maxNumReqs]
    exact h.dense.fits
  · rw [hs'.content, h.content, Equiv.Perm.mul_apply]

/-- What the reordering leaves. -/
structure Reordered (numScheduledTokens : RequestId → Nat) (decodeThreshold : Nat) (b b' : InputBatch) : Prop where
  dense : Dense b'
  limits : SameLimits b b'
  entry : ∀ r, b'.state? r = b.state? r
  length : b'.reqIds.length = b.reqIds.length
  regions : ∀ i < b.reqIds.length,
    b'.region numScheduledTokens decodeThreshold i = b.targetAt numScheduledTokens decodeThreshold i

/-- Once nothing is left to do, the rows have their target regions. -/
theorem Reordering.reordered {f : Equiv.Perm Nat} (h : Reordering b f 1 b') (hindexed : Indexed b)
    (hmoved : ∀ p, f p ≠ p → p < b.reqIds.length)
    (htarget : ∀ p < b.reqIds.length,
      b.region numScheduledTokens decodeThreshold p = b.targetAt numScheduledTokens decodeThreshold (f p)) :
    Reordered numScheduledTokens decodeThreshold b b' := by
  refine ⟨h.dense, h.limits, h.entry, h.length, fun i hi => ?_⟩
  have hfrom : f.symm i < b.reqIds.length := by
    by_cases hstay : f.symm i = i
    · rwa [hstay]
    · refine hmoved _ fun heq => hstay ?_
      rw [Equiv.apply_symm_apply] at heq
      exact heq.symm
  obtain ⟨r, hrow⟩ := h.dense.exists_row (h.length.symm ▸ hi)
  have hrow' := hrow
  rw [h.content, Equiv.Perm.one_apply] at hrow'
  rw [region_congr hindexed h.dense.indexed h.entry hrow' hrow, htarget _ hfrom, Equiv.apply_symm_apply]

theorem wp_reorderBatch (h : Dense b) :
    Eff.wp (reorderBatch numScheduledTokens decodeThreshold)
      (fun _ b' => Reordered numScheduledTokens decodeThreshold b b') (fun _ _ => False) b := by
  simp only [reorderBatch, Eff.wp_bind, Eff.wp_read]
  by_cases hnone : b.needsSwap numScheduledTokens decodeThreshold = []
  · rw [if_pos hnone, Eff.wp_pure]
    refine ⟨h, .refl b, fun _ => rfl, rfl, fun i hi => ?_⟩
    by_contra hne
    exact List.filter_eq_nil_iff.mp hnone i (List.mem_range.mpr hi) (by simpa using hne)
  · rw [if_neg hnone]
    set srcs := (b.needsSwap numScheduledTokens decodeThreshold).insertionSort fun i j =>
      (b.region numScheduledTokens decodeThreshold i).index ≤ (b.region numScheduledTokens decodeThreshold j).index
    have hperm : srcs.Perm (b.needsSwap numScheduledTokens decodeThreshold) := List.perm_insertionSort _ _
    have hnodup : srcs.Nodup := hperm.nodup_iff.mpr (List.nodup_range.filter _)
    have hsorted : (srcs.map fun i => (b.region numScheduledTokens decodeThreshold i).index).Pairwise (· ≤ ·) := by
      rw [List.pairwise_map]
      exact List.pairwise_insertionSort _ _
    obtain ⟨f, hf⟩ := OrderedDict.exists_perm_dest_ofZip hnodup hperm
    have hmoved : ∀ p, f p ≠ p → p < b.reqIds.length := by
      intro p hp
      have hkey := OrderedDict.mem_keys_of_dest_ne (hf p ▸ hp)
      rw [OrderedDict.mem_keys_ofZip hnodup hperm.length_eq, hperm.mem_iff] at hkey
      exact List.mem_range.mp (List.mem_filter.mp hkey).1
    have hstart : Reordering b f f b :=
      ⟨h, .refl b, fun _ => rfl, rfl, hmoved, fun p => by rw [Equiv.symm_apply_apply]⟩
    rw [Eff.wp_bind]
    refine Eff.wp_mono (wp_followCycles (settles_swapStates b f) hstart hf le_rfl) (fun _ b' hb' => ?_) fun _ _ hf => hf
    rw [Eff.wp_pure]
    refine hb'.reordered h.indexed hmoved fun p hp => ?_
    rw [region_eq_targetAt_dest hperm hnodup hsorted hp, hf]

theorem Reordered.index_le (h : Reordered numScheduledTokens decodeThreshold b b') {i j : Nat} (hij : i ≤ j)
    (hj : j < b.reqIds.length) :
    (b'.region numScheduledTokens decodeThreshold i).index ≤
      (b'.region numScheduledTokens decodeThreshold j).index := by
  rcases hij.eq_or_lt with rfl | hlt
  · exact le_rfl
  · rw [h.regions i (by omega), h.regions j hj]
    exact index_targetAt_le hlt hj

theorem getElem_queryLens (b : InputBatch) {i : Nat} (hi : i < (b.queryLens numScheduledTokens).length) :
    (b.queryLens numScheduledTokens)[i] = b.rowTokens numScheduledTokens i := by
  simp only [queryLens, List.getElem_map, List.getElem_range]

theorem length_queryLens (b : InputBatch) : (b.queryLens numScheduledTokens).length = b.reqIds.length := by
  rw [queryLens, List.length_map, List.length_range]

/-- The rows before the cut are short. -/
theorem rowTokens_le_of_lt_findIdx {i : Nat}
    (h : i < (b.queryLens numScheduledTokens).findIdx fun n => decide (decodeThreshold < n)) :
    b.rowTokens numScheduledTokens i ≤ decodeThreshold := by
  have hshort := List.not_of_lt_findIdx h
  rw [getElem_queryLens] at hshort
  simpa using hshort

/-- A short row of a request with context stands before the cut, as all rows before it are of that kind. -/
theorem Reordered.lt_findIdx (h : Reordered numScheduledTokens decodeThreshold b b') {i : Nat}
    (hi : i < b'.reqIds.length)
    (hcontext : 0 < b'.numComputedTokensCpu i) (hshort : b'.rowTokens numScheduledTokens i ≤ decodeThreshold) :
    i < (b'.queryLens numScheduledTokens).findIdx fun n => decide (decodeThreshold < n) := by
  have hlast : (b'.region numScheduledTokens decodeThreshold i).index ≤ 1 :=
    BatchRegion.index_ofTokens_le_one_iff.mpr ⟨hcontext, hshort⟩
  refine List.lt_findIdx_of_not (by rwa [length_queryLens]) fun j hj => ?_
  rw [getElem_queryLens]
  have hregion := (h.index_le hj (h.length ▸ hi)).trans hlast
  simpa using (BatchRegion.index_ofTokens_le_one_iff.mp hregion).2

theorem Dense.length_reqIds (h : Dense b) : b.reqIds.length = b.numReqs := by
  refine (h.indexed.numReqs_eq fun i => ⟨?_, h.exists_row⟩).symm
  rintro ⟨r, hrow⟩
  exact (List.getElem?_eq_some_iff.mp hrow).1

/-- The split cuts the batch in the right place: what it counts as decodes are rows with at most the threshold's tokens,
and all such requests with context are among them. -/
def SplitsDecodes (numScheduledTokens : RequestId → Nat) (decodeThreshold : Nat) (b : InputBatch) : Prop :=
  ∃ numDecodes numPrefills, splitDecodesAndPrefills (b.queryLens numScheduledTokens) decodeThreshold =
      (numDecodes, numPrefills, ((b.queryLens numScheduledTokens).take numDecodes).sum,
        ((b.queryLens numScheduledTokens).drop numDecodes).sum) ∧
    numDecodes + numPrefills = b.numReqs ∧
    ∀ r i state, b.reqIdToIndex.get? r = some i → b.state? r = some state →
      (i < numDecodes → numScheduledTokens r ≤ decodeThreshold) ∧
      (0 < state.numComputedTokens → numScheduledTokens r ≤ decodeThreshold → i < numDecodes)

theorem Reordered.splitsDecodes (h : Reordered numScheduledTokens decodeThreshold b b') :
    SplitsDecodes numScheduledTokens decodeThreshold b' := by
  refine ⟨_, _, splitDecodesAndPrefills_eq rfl, ?_, fun r i state hget hstate => ?_⟩
  · rw [← h.dense.length_reqIds, ← length_queryLens b']
    exact Nat.add_sub_cancel' List.findIdx_le_length
  · have hrow := (h.dense.indexed r i).mp hget
    have hi := (List.getElem?_eq_some_iff.mp hrow).1
    have htokens : b'.rowTokens numScheduledTokens i = numScheduledTokens r := by
      rw [rowTokens, hrow, Option.join_some, Option.elim_some]
    rw [h.dense.indexed.state?_of_row hrow, Option.some.injEq] at hstate
    subst hstate
    rw [← htokens]
    exact ⟨rowTokens_le_of_lt_findIdx, h.lt_findIdx hi⟩

end Reordering

end InputBatch

end KVOffload

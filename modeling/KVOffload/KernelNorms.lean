import KVOffload.KernelModel
import Mathlib.Algebra.BigOperators.Intervals
import Mathlib.Algebra.Field.Rat
import Mathlib.Tactic.Ring

/-! The kernels against the tensor operations. In a thread block the lanes share out the channels of a
token, the shuffle tree leaves their sum in lane 0, the warps share out the tokens, and thread 0 adds up
the warps; so a block writes the mean norm of its page and head, for every size, and the blocks write
every output cell once. -/

namespace KVOffload
open Base

variable {R : Type} [Field R] (sqrt : R → R) (mem : Int → R) (args : NormLaunch)

/-- The mean over the tokens of the norm of a half row, `shift` elements into the rows at `base`. -/
def meanNorm (shift : Nat) (base : Int) : R :=
  (∑ t ∈ Finset.range args.pageTokens, sqrt (∑ c ∈ Finset.range args.headDim,
    mem (base + t * args.strideTok + (c + shift : Nat)) * mem (base + t * args.strideTok + (c + shift : Nat)))) /
      args.pageTokens

section Cuda

/-- Lane 0 of a warp ends an iteration with the sum over all channels. -/
theorem shflReduce_laneSquares (shift : Nat) (row : Int) :
    shflReduce 32 16 (laneSquares mem args shift row) 0 =
      ∑ c ∈ Finset.range args.headDim, mem (row + (c + shift : Nat)) * mem (row + (c + shift : Nat)) := by
  calc shflReduce 32 (2 ^ 4) (laneSquares mem args shift row) 0
      = ∑ lane ∈ Finset.range 32, laneSquares mem args shift row lane := shflReduce_zero 4 (Nat.le_refl 32) _
    _ = ∑ lane ∈ Finset.range 32, ∑ c ∈ Finset.range args.headDim with c % 32 = lane,
          mem (row + (c + shift : Nat)) * mem (row + (c + shift : Nat)) := by
        apply Finset.sum_congr rfl
        intro lane hlane
        exact foldl_strided _ (Finset.mem_range.mp hlane)
    _ = _ := sum_residues (by decide) _

/-- The first thread of a warp ends with the norms of the warp's tokens. -/
theorem threadAcc_lead (shift : Nat) (base : Int) {warp : Nat} (hwarp : warp < kWarps) :
    threadAcc sqrt mem args shift base (32 * warp) =
      ∑ t ∈ Finset.range args.pageTokens with t % kWarps = warp, sqrt (∑ c ∈ Finset.range args.headDim,
        mem (base + t * args.strideTok + (c + shift : Nat)) * mem (base + t * args.strideTok + (c + shift : Nat))) := by
  have hlane : 32 * warp % 32 = 0 := Nat.mul_mod_right 32 warp
  have hdiv : 32 * warp / 32 = warp := Nat.mul_div_cancel_left warp (by decide)
  simp only [threadAcc, hlane, hdiv, if_true, shflReduce_laneSquares]
  exact foldl_strided _ hwarp

theorem sharedSums_eq (shift : Nat) (base : Int) {warp : Nat} (hwarp : warp < kWarps) :
    sharedSums sqrt mem args shift base warp = threadAcc sqrt mem args shift base (32 * warp) := by
  apply indexCopy_of_forall
  · rw [List.mem_map]
    refine ⟨(warp, threadAcc sqrt mem args shift base (32 * warp)), List.mem_filterMap.mpr ⟨32 * warp, ?_, ?_⟩, rfl⟩
    · rw [List.mem_range]
      simp only [kBlockThreads, kWarps] at hwarp ⊢
      omega
    · rw [if_pos (Nat.mul_mod_right 32 warp), Nat.mul_div_cancel_left warp (by decide)]
  · intro w hw hindex
    obtain ⟨threadIdx, -, hstore⟩ := List.mem_filterMap.mp hw
    by_cases hlane : threadIdx % 32 = 0
    · rw [if_pos hlane] at hstore
      obtain rfl := Option.some.inj hstore
      have hthread : threadIdx = 32 * warp := by
        change threadIdx / 32 = warp at hindex
        omega
      rw [hthread]
    · rw [if_neg hlane] at hstore
      cases hstore

/-- Thread 0 adds up the warps. -/
theorem sum_sharedSums (shift : Nat) (base : Int) :
    (List.range kWarps).foldl (fun tot w => tot + sharedSums sqrt mem args shift base w) 0 / args.pageTokens =
      meanNorm sqrt mem args shift base := by
  rw [meanNorm]
  congr 1
  calc (List.range kWarps).foldl (fun tot w => tot + sharedSums sqrt mem args shift base w) 0
      = ∑ w ∈ Finset.range kWarps, sharedSums sqrt mem args shift base w := foldl_range _ kWarps
    _ = ∑ w ∈ Finset.range kWarps, ∑ t ∈ Finset.range args.pageTokens with t % kWarps = w,
          sqrt (∑ c ∈ Finset.range args.headDim,
            mem (base + t * args.strideTok + (c + shift : Nat)) *
              mem (base + t * args.strideTok + (c + shift : Nat))) := by
        apply Finset.sum_congr rfl
        intro w hw
        have hw := Finset.mem_range.mp hw
        rw [sharedSums_eq sqrt mem args shift base hw, threadAcc_lead sqrt mem args shift base hw]
    _ = _ := sum_residues (by decide) _

/-- The mean norm a block is to write: the one of the layer, page and head its number decodes to. -/
def cellNorm (shift gid : Nat) : R :=
  meanNorm sqrt mem args shift
    (args.base (gid / args.numHeads / args.numBlocks) (gid / args.numHeads % args.numBlocks) (gid % args.numHeads))

/-- One thread of a block writes, and it writes the cell of the block's own number. -/
theorem kvBlockNormKernel_eq (shift gid : Nat) :
    kvBlockNormKernel sqrt mem args shift gid = [(gid, cellNorm sqrt mem args shift gid)] := by
  have hfirst : ∀ (n : Nat) (x : Nat × R),
      (List.range (n + 1)).filterMap (fun i => if i = 0 then some x else none) = [x] := by
    intro n x
    simp [List.range_succ_eq_map, List.filterMap_map]
  simp only [kvBlockNormKernel, sum_sharedSums, rowMajor_encode]
  exact hfirst 127 _

theorem cudaWrites_eq (shift : Nat) (order : List Nat) :
    cudaWrites sqrt mem args shift order = order.map fun gid => (gid, cellNorm sqrt mem args shift gid) := by
  rw [cudaWrites, List.map_eq_flatMap]
  congr 1
  funext gid
  exact kvBlockNormKernel_eq sqrt mem args shift gid

/-- The blocks write the cells of their own numbers. -/
theorem map_fst_cudaWrites (shift : Nat) (order : List Nat) :
    (cudaWrites sqrt mem args shift order).map Prod.fst = order := by
  rw [cudaWrites_eq, List.map_map]
  exact List.map_id order

theorem cellNorm_rowMajor (shift : Nat) {l b h : Nat} (hb : b < args.numBlocks) (hh : h < args.numHeads) :
    cellNorm sqrt mem args shift ((l * args.numBlocks + b) * args.numHeads + h) =
      meanNorm sqrt mem args shift (args.base l b h) := by
  obtain ⟨hhead, hblock, hlayer⟩ := rowMajor_decode (l := l) hb hh
  rw [cellNorm, hhead, hblock, hlayer]

/-- The output cell of a layer, page and head after a launch, in whatever order its blocks ran. -/
theorem indexCopy_cudaWrites (shift : Nat) {order : List Nat} (horder : order.Perm (List.range args.grid))
    (old : Nat → R) {l b h : Nat} (hl : l < args.layerPtrs.length) (hb : b < args.numBlocks) (hh : h < args.numHeads) :
    indexCopy old (cudaWrites sqrt mem args shift order) ((l * args.numBlocks + b) * args.numHeads + h) =
      meanNorm sqrt mem args shift (args.base l b h) := by
  have hmem : (l * args.numBlocks + b) * args.numHeads + h ∈ order :=
    horder.mem_iff.mpr (List.mem_range.mpr (rowMajor_lt hl hb hh))
  rw [← cellNorm_rowMajor sqrt mem args shift hb hh]
  apply indexCopy_of_mem
  · rw [map_fst_cudaWrites]
    exact horder.nodup_iff.mpr List.nodup_range
  · rw [cudaWrites_eq]
    exact List.mem_map_of_mem hmem

end Cuda

section Triton

/-- The masked lanes of a program add nothing. -/
theorem sum_maskedLoad (row : Int) (shift : Nat) :
    ((List.range (blockC args)).map fun off =>
      maskedLoad mem args row shift off * maskedLoad mem args row shift off).sum =
      ∑ c ∈ Finset.range args.headDim, mem (row + (c + shift : Nat)) * mem (row + (c + shift : Nat)) := by
  have hwidth : args.headDim ≤ blockC args := Nat.le_pow_clog Nat.one_lt_two args.headDim
  calc ((List.range (blockC args)).map fun off =>
      maskedLoad mem args row shift off * maskedLoad mem args row shift off).sum
      = ∑ off ∈ Finset.range (blockC args), maskedLoad mem args row shift off * maskedLoad mem args row shift off := by
        rw [← foldl_range, foldl_add_eq, zero_add]
    _ = ∑ off ∈ Finset.range args.headDim, maskedLoad mem args row shift off * maskedLoad mem args row shift off := by
        symm
        apply Finset.sum_subset
        · intro off hoff
          exact Finset.mem_range.mpr (Nat.lt_of_lt_of_le (Finset.mem_range.mp hoff) hwidth)
        · intro off _ hoff
          rw [maskedLoad, if_neg (by simpa using hoff), mul_zero]
    _ = ∑ c ∈ Finset.range args.headDim, mem (row + (c + shift : Nat)) * mem (row + (c + shift : Nat)) := by
        apply Finset.sum_congr rfl
        intro c hc
        rw [maskedLoad, if_pos (Finset.mem_range.mp hc)]

theorem tritonMean_eq (shift : Nat) (base : Int) :
    tritonMean sqrt mem args shift base = meanNorm sqrt mem args shift base := by
  simp only [tritonMean, meanNorm, sum_maskedLoad]
  rw [foldl_range]

/-- A program writes the two cells of its own number. -/
theorem kvNormKernel_eq (pid : Nat) :
    kvNormKernel sqrt mem args pid =
      [(pid * 2, cellNorm sqrt mem args 0 pid), (pid * 2 + 1, cellNorm sqrt mem args args.headDim pid)] := by
  simp only [kvNormKernel, tritonMean_eq, rowMajor_encode, cellNorm]

/-- The pair of cells of a layer, page and head, in whatever order the programs ran. -/
theorem tritonOut_eq {order : List Nat} (horder : order.Perm (List.range args.grid)) (old : Nat → R) {l b h : Nat}
    (hl : l < args.layerPtrs.length) (hb : b < args.numBlocks) (hh : h < args.numHeads) :
    tritonOut sqrt mem args order old (((l * args.numBlocks + b) * args.numHeads + h) * 2) =
        meanNorm sqrt mem args 0 (args.base l b h) ∧
      tritonOut sqrt mem args order old (((l * args.numBlocks + b) * args.numHeads + h) * 2 + 1) =
        meanNorm sqrt mem args args.headDim (args.base l b h) := by
  have hmem : (l * args.numBlocks + b) * args.numHeads + h ∈ order :=
    horder.mem_iff.mpr (List.mem_range.mpr (rowMajor_lt hl hb hh))
  rw [← cellNorm_rowMajor sqrt mem args 0 hb hh, ← cellNorm_rowMajor sqrt mem args args.headDim hb hh, tritonOut]
  generalize (l * args.numBlocks + b) * args.numHeads + h = pid at hmem
  have hwrites : ∀ w, w ∈ order.flatMap (kvNormKernel sqrt mem args) ↔ ∃ pid ∈ order,
      w = (pid * 2, cellNorm sqrt mem args 0 pid) ∨ w = (pid * 2 + 1, cellNorm sqrt mem args args.headDim pid) := by
    intro w
    simp only [List.mem_flatMap, kvNormKernel_eq, List.mem_cons, List.not_mem_nil, or_false]
  -- an even cell is written by the first store of its program only, an odd one by the second
  constructor <;> apply indexCopy_of_forall
  · exact List.mem_map.mpr ⟨_, (hwrites _).mpr ⟨pid, hmem, Or.inl rfl⟩, rfl⟩
  · intro w hw hindex
    obtain ⟨pid', -, rfl | rfl⟩ := (hwrites w).mp hw
    · rw [show pid' = pid by simp only at hindex; omega]
    · simp only at hindex
      omega
  · exact List.mem_map.mpr ⟨_, (hwrites _).mpr ⟨pid, hmem, Or.inr rfl⟩, rfl⟩
  · intro w hw hindex
    obtain ⟨pid', -, rfl | rfl⟩ := (hwrites w).mp hw
    · simp only at hindex
      omega
    · rw [show pid' = pid by simp only at hindex; omega]

end Triton

section Reference

/-- The tensor operations go through for pages inside both tensors. -/
theorem computeBlockKvNorms_ok {ι : Type} (k v : Tensor4) {pages : List Nat} {ids : List ι}
    (hlen : pages.length = ids.length) (hk : ∀ page ∈ pages, page < k.size0) (hv : ∀ page ∈ pages, page < v.size0)
    (layout : KvLayout) :
    computeBlockKvNorms sqrt mem k v pages ids layout =
      .ok ⟨pages.map (pageNorms sqrt mem layout v), pages.map (pageNorms sqrt mem layout k), ids⟩ := by
  rw [computeBlockKvNorms, if_neg (not_not.mpr hlen)]
  by_cases hempty : pages = []
  · rw [if_pos hempty, hempty]
    rfl
  · rw [if_neg hempty, if_neg]
    rintro ⟨page, hpage, hout | hout⟩
    · exact absurd (hk page hpage) (Nat.not_lt.mpr hout)
    · exact absurd (hv page hpage) (Nat.not_lt.mpr hout)

omit [Field R] in
theorem elem_lastSlice (x : Tensor4) (start len i j k c : Nat) :
    (x.lastSlice start len).elem mem i j k c = x.elem mem i j k (start + c) := by
  have haddr : x.ptr + start * x.stride3 + i * x.stride0 + j * x.stride1 + k * x.stride2 + c * x.stride3 =
      x.ptr + i * x.stride0 + j * x.stride1 + k * x.stride2 + (start + c : Nat) * x.stride3 := by
    push_cast
    ring
  exact congrArg mem haddr

omit [Field R] in
/-- Where the kernels find an element of a layer. -/
theorem elem_layer (numPages : Nat) {l b page : Nat} {ptr : Int} (hptr : args.layerPtrs[l]? = some ptr)
    (hpage : args.blockIds[b]? = some page) (h t shift c : Nat) :
    (args.layer numPages ptr).elem mem page h t (shift + c) =
      mem (args.base l b h + t * args.strideTok + (c + shift : Nat)) := by
  have haddr : ptr + page * args.stridePage + h * args.strideHead + t * args.strideTok + (shift + c : Nat) * 1 =
      args.base l b h + t * args.strideTok + (c + shift : Nat) := by
    simp only [NormLaunch.base, List.getD_eq_getElem?_getD, hptr, hpage, Option.getD_some]
    push_cast
    ring
  exact congrArg mem haddr

/-- The reference on the half of the layer that starts at channel `shift`. -/
theorem pageNorms_lastSlice (numPages shift : Nat) {l b : Nat} {ptr : Int} {page : Nat}
    (hptr : args.layerPtrs[l]? = some ptr) (hpage : args.blockIds[b]? = some page) :
    pageNorms sqrt mem .hnd ((args.layer numPages ptr).lastSlice shift args.headDim) page =
      (List.range args.numHeads).map fun h => meanNorm sqrt mem args shift (args.base l b h) := by
  apply List.map_congr_left
  intro h _
  simp only [tokenNorm, KvLayout.elem, elem_lastSlice, elem_layer mem args numPages hptr hpage]
  rfl

/-- A layer of an output that holds the mean norms is what the reference computes. -/
theorem outRows_eq (numPages shift : Nat) (out : Nat → R) {l : Nat} {ptr : Int} (hptr : args.layerPtrs[l]? = some ptr)
    (hout : ∀ b h, b < args.numBlocks → h < args.numHeads →
      out ((l * args.numBlocks + b) * args.numHeads + h) = meanNorm sqrt mem args shift (args.base l b h)) :
    outRows args out l =
      args.blockIds.map (pageNorms sqrt mem .hnd ((args.layer numPages ptr).lastSlice shift args.headDim)) := by
  apply List.ext_getElem
  · rw [outRows, List.length_map, List.length_range, List.length_map, NormLaunch.numBlocks]
  · intro b hb hb'
    rw [outRows, List.length_map, List.length_range] at hb
    rw [List.length_map] at hb'
    have hpage : args.blockIds[b]? = some args.blockIds[b] := List.getElem?_eq_getElem hb'
    rw [List.getElem_map, pageNorms_lastSlice sqrt mem args numPages shift hptr hpage]
    simp only [outRows, List.getElem_map, List.getElem_range, outRow]
    apply List.map_congr_left
    intro h hh
    exact hout b h hb (List.mem_range.mp hh)

end Reference

/-- After a launch of each kernel over every layer, page and head, in any order: the CUDA kernel has written
every cell once and with the mean norm, the tensor operations give the same rows in every layer, and the
Triton kernel has the same two values in its cells. -/
structure NormsAgree (cudaOrder : List Nat) (k v out : Nat → R) : Prop where
  k_once : ((cudaWrites sqrt mem args 0 cudaOrder).map Prod.fst).Perm (List.range args.grid)
  v_once : ((cudaWrites sqrt mem args args.headDim cudaOrder).map Prod.fst).Perm (List.range args.grid)
  k_mean : ∀ numPages l b h ptr page, args.layerPtrs[l]? = some ptr → args.blockIds[b]? = some page →
    h < args.numHeads →
    k ((l * args.numBlocks + b) * args.numHeads + h) = 1 / (args.pageTokens : R) * ∑ t ∈ Finset.range args.pageTokens,
      sqrt (∑ c ∈ Finset.range args.headDim, (args.layer numPages ptr).elem mem page h t c ^ 2)
  v_mean : ∀ numPages l b h ptr page, args.layerPtrs[l]? = some ptr → args.blockIds[b]? = some page →
    h < args.numHeads →
    v ((l * args.numBlocks + b) * args.numHeads + h) = 1 / (args.pageTokens : R) * ∑ t ∈ Finset.range args.pageTokens,
      sqrt (∑ c ∈ Finset.Ico args.headDim (2 * args.headDim), (args.layer numPages ptr).elem mem page h t c ^ 2)
  reference : ∀ numPages l ptr, args.layerPtrs[l]? = some ptr → (∀ page ∈ args.blockIds, page < numPages) →
    ∃ stats, computeBlockKvNorms sqrt mem ((args.layer numPages ptr).lastSlice 0 args.headDim)
        ((args.layer numPages ptr).lastSlice args.headDim args.headDim) args.blockIds args.blockIds .hnd = .ok stats ∧
      stats.kNorm = outRows args k l ∧ stats.vNorm = outRows args v l
  triton : ∀ l b h, l < args.layerPtrs.length → b < args.numBlocks → h < args.numHeads →
    out (((l * args.numBlocks + b) * args.numHeads + h) * 2) = k ((l * args.numBlocks + b) * args.numHeads + h) ∧
      out (((l * args.numBlocks + b) * args.numHeads + h) * 2 + 1) = v ((l * args.numBlocks + b) * args.numHeads + h)

section Agree

variable {sqrt mem args}

/-- The mean norm in the terms of the layer's tensor. -/
theorem meanNorm_elem (numPages shift : Nat) {l b h page : Nat} {ptr : Int} (hptr : args.layerPtrs[l]? = some ptr)
    (hpage : args.blockIds[b]? = some page) :
    meanNorm sqrt mem args shift (args.base l b h) =
      1 / (args.pageTokens : R) * ∑ t ∈ Finset.range args.pageTokens,
        sqrt (∑ c ∈ Finset.range args.headDim, (args.layer numPages ptr).elem mem page h t (shift + c) ^ 2) := by
  simp only [elem_layer mem args numPages hptr hpage, pow_two]
  rw [meanNorm, div_eq_mul_one_div, mul_comm]

end Agree

/-- The two kernels and the tensor operations compute the same norms, for all sizes, strides and pages. -/
theorem kv_norm_kernels_agree {cudaOrder tritonOrder : List Nat} (hcuda : cudaOrder.Perm (List.range args.grid))
    (htriton : tritonOrder.Perm (List.range args.grid)) (oldK oldV oldOut : Nat → R) :
    NormsAgree sqrt mem args cudaOrder (kOut sqrt mem args cudaOrder oldK) (vOut sqrt mem args cudaOrder oldV)
      (tritonOut sqrt mem args tritonOrder oldOut) where
  k_once := by rwa [map_fst_cudaWrites]
  v_once := by rwa [map_fst_cudaWrites]
  k_mean := by
    intro numPages l b h ptr page hptr hpage hh
    obtain ⟨hl, -⟩ := List.getElem?_eq_some_iff.mp hptr
    obtain ⟨hb, -⟩ := List.getElem?_eq_some_iff.mp hpage
    have hcell : kOut sqrt mem args cudaOrder oldK ((l * args.numBlocks + b) * args.numHeads + h) = _ :=
      indexCopy_cudaWrites sqrt mem args 0 hcuda oldK hl hb hh
    rw [hcell, meanNorm_elem numPages 0 hptr hpage]
    simp only [Nat.zero_add]
  v_mean := by
    intro numPages l b h ptr page hptr hpage hh
    obtain ⟨hl, -⟩ := List.getElem?_eq_some_iff.mp hptr
    obtain ⟨hb, -⟩ := List.getElem?_eq_some_iff.mp hpage
    have hcell : vOut sqrt mem args cudaOrder oldV ((l * args.numBlocks + b) * args.numHeads + h) = _ :=
      indexCopy_cudaWrites sqrt mem args args.headDim hcuda oldV hl hb hh
    have hwidth : 2 * args.headDim - args.headDim = args.headDim := by omega
    rw [hcell, meanNorm_elem numPages args.headDim hptr hpage]
    simp only [Finset.sum_Ico_eq_sum_range, hwidth]
  reference := by
    intro numPages l ptr hptr hpages
    obtain ⟨hl, -⟩ := List.getElem?_eq_some_iff.mp hptr
    have hk := outRows_eq sqrt mem args numPages 0 (kOut sqrt mem args cudaOrder oldK) hptr
      fun b h hb hh => indexCopy_cudaWrites sqrt mem args 0 hcuda oldK hl hb hh
    have hv := outRows_eq sqrt mem args numPages args.headDim (vOut sqrt mem args cudaOrder oldV) hptr
      fun b h hb hh => indexCopy_cudaWrites sqrt mem args args.headDim hcuda oldV hl hb hh
    exact ⟨_, computeBlockKvNorms_ok sqrt mem _ _ rfl hpages hpages .hnd, hk.symm, hv.symm⟩
  triton := by
    intro l b h hl hb hh
    obtain ⟨hk, hv⟩ := tritonOut_eq sqrt mem args htriton oldOut hl hb hh
    refine ⟨hk.trans ?_, hv.trans ?_⟩
    · exact (indexCopy_cudaWrites sqrt mem args 0 hcuda oldK hl hb hh).symm
    · exact (indexCopy_cudaWrites sqrt mem args args.headDim hcuda oldV hl hb hh).symm

/-- Two layers, a page listed twice, five tokens of three channels. -/
def repeatedPage : NormLaunch := ⟨[0, 100], [1, 0, 1], 1, 5, 3, 30, 30, 6⟩

theorem kv_norm_kernels_agree_repeatedPage :
    NormsAgree (R := ℚ) id (fun address => address) repeatedPage (List.range 6).reverse
      (kOut id (fun address => address) repeatedPage (List.range 6).reverse fun _ => 0)
      (vOut id (fun address => address) repeatedPage (List.range 6).reverse fun _ => 0)
      (tritonOut id (fun address => address) repeatedPage (List.range 6) fun _ => 0) :=
  kv_norm_kernels_agree id (fun address => (address : ℚ)) repeatedPage (List.reverse_perm _) (List.Perm.refl _) _ _ _

end KVOffload

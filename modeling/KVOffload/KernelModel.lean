import KVOffload.BaseReduction
import KVOffload.BaseScatter
import Mathlib.Algebra.Field.Defs
import Mathlib.Data.Nat.Log

/-! The norms of cache pages, computed three ways: by tensor operations on one layer
(`compute_block_kv_norms`), by a CUDA kernel and by a Triton kernel, both of which take all layers in one
launch. Arithmetic is exact, over any field, and the square root is a parameter. Memory is addressed in
elements, and a tensor is a strided view of it. -/

namespace KVOffload
open Base

variable {R : Type} [Field R]

section Reference

/-- A strided view with four axes. -/
structure Tensor4 where
  ptr : Int
  size0 : Nat
  size1 : Nat
  size2 : Nat
  size3 : Nat
  stride0 : Int
  stride1 : Int
  stride2 : Int
  stride3 : Int
  deriving DecidableEq

/-- The element `x[i, j, k, c]`. -/
def Tensor4.elem (x : Tensor4) (mem : Int → R) (i j k c : Nat) : R :=
  mem (x.ptr + i * x.stride0 + j * x.stride1 + k * x.stride2 + c * x.stride3)

/-- `x[..., start:start + len]`. -/
def Tensor4.lastSlice (x : Tensor4) (start len : Nat) : Tensor4 :=
  { x with ptr := x.ptr + start * x.stride3, size3 := len }

/-- Order of the token and head axes in a page. -/
inductive KvLayout where
  | nhd | hnd
  deriving DecidableEq

def KvLayout.numHeads : KvLayout → Tensor4 → Nat
  | .nhd, x => x.size2
  | .hnd, x => x.size1

def KvLayout.numTokens : KvLayout → Tensor4 → Nat
  | .nhd, x => x.size1
  | .hnd, x => x.size2

/-- Channel `c` of token `t` and head `h` in page `p`. -/
def KvLayout.elem (mem : Int → R) : KvLayout → Tensor4 → (p h t c : Nat) → R
  | .nhd, x, p, h, t, c => x.elem mem p t h c
  | .hnd, x, p, h, t, c => x.elem mem p h t c

inductive NormError where
  /-- "physical_block_ids and logical_block_ids must have equal length" -/
  | idCounts
  /-- `index_select` with a page number outside the tensor. -/
  | indexOutOfRange
  deriving DecidableEq

/-- Norms by block and head, with the blocks they belong to. -/
structure BlockNorms (ι R : Type) where
  vNorm : List (List R)
  kNorm : List (List R)
  blockIds : List ι

/-- The L2 norm of one token of one head. -/
def tokenNorm (sqrt : R → R) (mem : Int → R) (layout : KvLayout) (x : Tensor4) (p h t : Nat) : R :=
  sqrt (∑ c ∈ Finset.range x.size3, layout.elem mem x p h t c * layout.elem mem x p h t c)

/-- The mean of the token norms of one page, by head. -/
def pageNorms (sqrt : R → R) (mem : Int → R) (layout : KvLayout) (x : Tensor4) (p : Nat) : List R :=
  (List.range (layout.numHeads x)).map fun h =>
    (∑ t ∈ Finset.range (layout.numTokens x), tokenNorm sqrt mem layout x p h t) / layout.numTokens x

/-- `compute_block_kv_norms`. A caller that gives no logical ids passes the physical ones. -/
def computeBlockKvNorms {ι : Type} (sqrt : R → R) (mem : Int → R) (k v : Tensor4) (physicalBlockIds : List Nat)
    (logicalBlockIds : List ι) (layout : KvLayout) : Except NormError (BlockNorms ι R) :=
  if physicalBlockIds.length ≠ logicalBlockIds.length then .error .idCounts
  else if physicalBlockIds = [] then .ok ⟨[], [], logicalBlockIds⟩
  else if ∃ p ∈ physicalBlockIds, k.size0 ≤ p ∨ v.size0 ≤ p then .error .indexOutOfRange
  else
    .ok
      { vNorm := physicalBlockIds.map (pageNorms sqrt mem layout v)
        kNorm := physicalBlockIds.map (pageNorms sqrt mem layout k)
        blockIds := logicalBlockIds }

end Reference

section Launch

/-- What both kernels are given: the address of each layer, the pages to score and the layout the layers share. -/
structure NormLaunch where
  layerPtrs : List Int
  blockIds : List Nat
  numHeads : Nat
  pageTokens : Nat
  headDim : Nat
  stridePage : Int
  strideHead : Int
  strideTok : Int

namespace NormLaunch

variable (args : NormLaunch)

def numBlocks : Nat := args.blockIds.length

/-- Thread blocks, or programs, one for each layer, page and head. -/
def grid : Nat := args.layerPtrs.length * args.numBlocks * args.numHeads

/-- Where head `h` of page `b` starts in layer `l`. -/
def base (l b h : Nat) : Int :=
  args.layerPtrs.getD l 0 + (args.blockIds.getD b 0 : Nat) * args.stridePage + h * args.strideHead

/-- The layer at `ptr` as a tensor of combined pages. -/
def layer (numPages : Nat) (ptr : Int) : Tensor4 where
  ptr := ptr
  size0 := numPages
  size1 := args.numHeads
  size2 := args.pageTokens
  size3 := 2 * args.headDim
  stride0 := args.stridePage
  stride1 := args.strideHead
  stride2 := args.strideTok
  stride3 := 1

end NormLaunch

/-- The row of norms an output tensor of shape `[L, B, H]` has for page `b` of layer `l`. -/
def outRow (args : NormLaunch) (out : Nat → R) (l b : Nat) : List R :=
  (List.range args.numHeads).map fun h => out ((l * args.numBlocks + b) * args.numHeads + h)

/-- Layer `l` of an output tensor. -/
def outRows (args : NormLaunch) (out : Nat → R) (l : Nat) : List (List R) :=
  (List.range args.numBlocks).map (outRow args out l)

end Launch

section Cuda

def kBlockThreads : Nat := 128

def kWarps : Nat := kBlockThreads / 32

variable (sqrt : R → R) (mem : Int → R) (args : NormLaunch)

/-- The channels one lane takes of a row. `shift` is 0 for the keys and `head_dim` for the values. -/
def laneSquares (shift : Nat) (row : Int) (lane : Nat) : R :=
  (strided 32 lane args.headDim).foldl (fun s c => s + mem (row + (c + shift : Nat)) * mem (row + (c + shift : Nat))) 0

/-- What a thread has accumulated after its token loop. The lanes of a warp run through the same tokens, so
that the shuffles of an iteration see the sums of that iteration; only lane 0 takes the square root. -/
def threadAcc (shift : Nat) (base : Int) (threadIdx : Nat) : R :=
  (strided kWarps (threadIdx / 32) args.pageTokens).foldl
    (fun acc (t : Nat) =>
      let s := shflReduce 32 16 (laneSquares mem args shift (base + t * args.strideTok)) (threadIdx % 32)
      if threadIdx % 32 = 0 then acc + sqrt s else acc)
    0

/-- The shared array after the barrier. -/
def sharedSums (shift : Nat) (base : Int) : Nat → R :=
  indexCopy (fun _ => 0) ((List.range kBlockThreads).filterMap fun threadIdx =>
    if threadIdx % 32 = 0 then some (threadIdx / 32, threadAcc sqrt mem args shift base threadIdx) else none)

/-- `kv_block_norm_kernel`: what the threads of block `blockIdx` write to one of the two outputs. -/
def kvBlockNormKernel (shift blockIdx : Nat) : List (Nat × R) :=
  let h := blockIdx % args.numHeads
  let rest := blockIdx / args.numHeads
  let b := rest % args.numBlocks
  let l := rest / args.numBlocks
  (List.range kBlockThreads).filterMap fun threadIdx =>
    if threadIdx = 0 then
      let tot := (List.range kWarps).foldl (fun tot w => tot + sharedSums sqrt mem args shift (args.base l b h) w) 0
      some ((l * args.numBlocks + b) * args.numHeads + h, tot / args.pageTokens)
    else none

/-- The writes of a launch whose blocks run in the given order. -/
def cudaWrites (shift : Nat) (order : List Nat) : List (Nat × R) :=
  order.flatMap (kvBlockNormKernel sqrt mem args shift)

/-- `k_out` and `v_out` after the launch. -/
def kOut (order : List Nat) (old : Nat → R) : Nat → R := indexCopy old (cudaWrites sqrt mem args 0 order)

def vOut (order : List Nat) (old : Nat → R) : Nat → R := indexCopy old (cudaWrites sqrt mem args args.headDim order)

end Cuda

section Triton

variable (sqrt : R → R) (mem : Int → R) (args : NormLaunch)

/-- `triton.next_power_of_2(C)`. -/
def blockC : Nat := 2 ^ Nat.clog 2 args.headDim

/-- `tl.load(ptrs, mask=offs < C, other=0.0)`, one element. -/
def maskedLoad (row : Int) (shift off : Nat) : R := if off < args.headDim then mem (row + (off + shift : Nat)) else 0

def tritonMean (shift : Nat) (pageBase : Int) : R :=
  (List.range args.pageTokens).foldl
    (fun acc (t : Nat) =>
      let row := pageBase + t * args.strideTok
      acc + sqrt ((List.range (blockC args)).map fun off =>
        maskedLoad mem args row shift off * maskedLoad mem args row shift off).sum)
    0 / args.pageTokens

/-- `_kv_norm_kernel`: what program `pid` stores. -/
def kvNormKernel (pid : Nat) : List (Nat × R) :=
  let h := pid % args.numHeads
  let rest := pid / args.numHeads
  let b := rest % args.numBlocks
  let l := rest / args.numBlocks
  let outOff := ((l * args.numBlocks + b) * args.numHeads + h) * 2
  [(outOff, tritonMean sqrt mem args 0 (args.base l b h)),
    (outOff + 1, tritonMean sqrt mem args args.headDim (args.base l b h))]

/-- `OUT` after the programs ran in the given order. -/
def tritonOut (order : List Nat) (old : Nat → R) : Nat → R := indexCopy old (order.flatMap (kvNormKernel sqrt mem args))

end Triton

end KVOffload

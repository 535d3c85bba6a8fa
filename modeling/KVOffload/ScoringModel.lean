import KVOffload.KernelModel
import KVOffload.StoreScorer

/-! Scoring pages, from the caches to the scorer: `score_block` for one page and `score_blocks` for a
batch. Both average the norms over the layers and update the scores; the batch takes its norms from one
gather per layer, or from one of the fused kernels where the caches fit them. -/

namespace KVOffload
open Base

/-- The tensors of one layer: one object for keys and values, or two. -/
inductive LayerCache where
  | combined (cache : Tensor4)
  | separate (k v : Tensor4)
  deriving DecidableEq

def LayerCache.kCache : LayerCache → Tensor4
  | .combined cache => cache
  | .separate k _ => k

def LayerCache.vCache : LayerCache → Tensor4
  | .combined cache => cache
  | .separate _ v => v

inductive ScoreError where
  | norms (error : NormError)
  /-- `torch.stack` of no tensors, or of tensors of different shapes. -/
  | stack
  /-- "no layers" -/
  | noLayers
  /-- "combined last dim must be even (K||V), got {C2}" -/
  | oddLastDim (width : Nat)
  /-- "last dim must be contiguous (stride 1 in elements)" -/
  | notContiguous
  /-- "kv_norm_fused: layer {l} layout mismatch" -/
  | layoutMismatch (layer : Nat)
  deriving DecidableEq

variable {R : Type} [Field R]

section Tensors

def addRows : List R → List R → List R := List.zipWith (· + ·)

def addMatrices : List (List R) → List (List R) → List (List R) := List.zipWith addRows

/-- `torch.stack(matrices).mean(dim=0)`. -/
def stackMean : List (List (List R)) → Except ScoreError (List (List R))
  | [] => .error .stack
  | m :: rest =>
      if ∀ m' ∈ rest, m'.map List.length = m.map List.length then
        .ok ((rest.foldl addMatrices m).map fun row => row.map fun x => x / ((rest.length + 1 : Nat) : R))
      else .error .stack

end Tensors

section Fused

inductive FusedImpl where
  | cuda | triton
  deriving DecidableEq

/-- A fused scorer that is enabled and available. The blocks of a launch run in some order, and a fresh output
tensor holds anything. -/
structure FusedScorer (R : Type) where
  impl : FusedImpl
  order : (n : Nat) → { order : List Nat // order.Perm (List.range n) }
  fresh : Nat → R

/-- What a launch over combined caches is given; the sizes and strides are those of the first layer. -/
def fusedLaunch (first : Tensor4) (caches : List Tensor4) (gpuBlockIds : List Nat) : NormLaunch where
  layerPtrs := caches.map (·.ptr)
  blockIds := gpuBlockIds
  numHeads := first.size1
  pageTokens := first.size2
  headDim := first.size3 / 2
  stridePage := first.stride0
  strideHead := first.stride1
  strideTok := first.stride2

/-- The check of `kv_norm_fused` on a layer. -/
def Tensor4.sameLayout (first x : Tensor4) : Bool :=
  x.size0 = first.size0 && x.size1 = first.size1 && x.size2 = first.size2 && x.size3 = first.size3 &&
    x.stride0 = first.stride0 && x.stride1 = first.stride1 && x.stride2 = first.stride2 && x.stride3 = 1

/-- The key and value norms of a launch, by layer, page and head. -/
def fusedNorms (fused : FusedScorer R) (sqrt : R → R) (mem : Int → R) (args : NormLaunch) :
    List (List (List R)) × List (List (List R)) :=
  let layers := List.range args.layerPtrs.length
  let order := (fused.order args.grid).val
  match fused.impl with
  | .cuda =>
      (layers.map (outRows args (kOut sqrt mem args order fused.fresh)),
        layers.map (outRows args (vOut sqrt mem args order fused.fresh)))
  | .triton =>
      let out := tritonOut sqrt mem args order fused.fresh
      (layers.map (outRows args fun i => out (i * 2)), layers.map (outRows args fun i => out (i * 2 + 1)))

/-- `score_blocks_fused`, of either implementation. Only the CUDA one compares the layers' layouts. -/
def scoreBlocksFused (fused : FusedScorer R) (sqrt : R → R) (mem : Int → R) (caches : List Tensor4)
    (gpuBlockIds : List Nat) : Except ScoreError (List (List (List R)) × List (List (List R))) :=
  match caches with
  | [] => .error .noLayers
  | first :: _ =>
      if gpuBlockIds = [] then .ok (caches.map fun _ => [], caches.map fun _ => [])
      else if first.size3 % 2 ≠ 0 then .error (.oddLastDim first.size3)
      else if first.stride3 ≠ 1 then .error .notContiguous
      else
        match fused.impl, caches.findIdx? fun x => !first.sameLayout x with
        | .cuda, some layer => .error (.layoutMismatch layer)
        | _, _ => .ok (fusedNorms fused sqrt mem (fusedLaunch first caches gpuBlockIds))

end Fused

section Scorer

variable [LinearOrder R]

def PagedEvictionConfig.computeBlockScores (cfg : PagedEvictionConfig R) (stats : BlockNorms BlockRef R) : List R :=
  List.zipWith cfg.rowScore stats.vNorm stats.kNorm

/-- `PagedEvictionScorer.update`. -/
def PagedEvictionConfig.update (cfg : PagedEvictionConfig R) (scores : OrderedDict BlockRef R)
    (stats : BlockNorms BlockRef R) : OrderedDict BlockRef R :=
  registerAll cfg.mixScore scores (stats.blockIds.zip (cfg.computeBlockScores stats))

end Scorer

section Manager

variable [LinearOrder R]

/-- The parts of the offload manager that scoring reads. No fused scorer is there if it is switched off or
could not be built. -/
structure ScoringManager (R : Type) [Field R] [LinearOrder R] where
  layers : List LayerCache
  kvLayout : KvLayout
  scorer : PagedEvictionConfig R
  fused : Option (FusedScorer R)

variable (sqrt : R → R) (mem : Int → R) (manager : ScoringManager R)

/-- The norms of one layer. -/
def layerNorms (layer : LayerCache) (gpuBlockIds : List Nat) (refs : List BlockRef) :
    Except ScoreError (BlockNorms BlockRef R) :=
  (match layer with
    | .combined cache =>
        let headDim := cache.size3 / 2
        computeBlockKvNorms sqrt mem (cache.lastSlice 0 headDim) (cache.lastSlice headDim (cache.size3 - headDim))
          gpuBlockIds refs .hnd
    | .separate k v => computeBlockKvNorms sqrt mem k v gpuBlockIds refs manager.kvLayout).mapError .norms

/-- The mean over the layers of the norms of a list of pages. -/
def meanStats (gpuBlockIds : List Nat) (refs : List BlockRef) : Except ScoreError (BlockNorms BlockRef R) := do
  let stats ← manager.layers.mapM fun layer => layerNorms sqrt mem manager layer gpuBlockIds refs
  let vNorm ← stackMean (stats.map (·.vNorm))
  let kNorm ← stackMean (stats.map (·.kNorm))
  pure ⟨vNorm, kNorm, refs⟩

/-- `score_block`, as a step of the scorer's state. -/
def scoreBlock (ref : BlockRef) (gpuBlockId : Nat) (scores : OrderedDict BlockRef R) :
    Except ScoreError (OrderedDict BlockRef R) :=
  if isWarmup ref.requestId then .ok scores
  else do
    let stats ← meanStats sqrt mem manager [gpuBlockId] [ref]
    pure (manager.scorer.update scores stats)

/-- `_fused_scorer_ok`: the fused scorer to use, if the first layer fits it. -/
def fusedScorerOk : Option (FusedScorer R) :=
  match manager.fused, manager.layers.head? with
  | some fused, some (.combined first) => if first.stride3 = 1 then some fused else none
  | _, _ => none

/-- The norms of a batch, fused or not. -/
def batchStats (gpuBlockIds : List Nat) (refs : List BlockRef) : Except ScoreError (BlockNorms BlockRef R) :=
  match fusedScorerOk manager with
  | some fused => do
      let (k, v) ← scoreBlocksFused fused sqrt mem (manager.layers.map (·.kCache)) gpuBlockIds
      let vNorm ← stackMean v
      let kNorm ← stackMean k
      pure ⟨vNorm, kNorm, refs⟩
  | none => meanStats sqrt mem manager gpuBlockIds refs

/-- `score_blocks`, as a step of the scorer's state. -/
def scoreBlocksBatch (refs : List BlockRef) (gpuBlockIds : List Nat) (scores : OrderedDict BlockRef R) :
    Except ScoreError (OrderedDict BlockRef R) :=
  let items := (refs.zip gpuBlockIds).filter fun e => !isWarmup e.1.requestId
  if items = [] then .ok scores
  else do
    let stats ← batchStats sqrt mem manager (items.map Prod.snd) (items.map Prod.fst)
    pure (manager.scorer.update scores stats)

end Manager

end KVOffload

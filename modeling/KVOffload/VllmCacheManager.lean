import KVOffload.BaseHashChain
import KVOffload.VllmPoolRuns

/-! The KV cache manager of vLLM over the block pool in memory, for one group of full attention layers: the hashes
of a request's tokens, the search for a prefix that is cached, the pages a request is given and when they are
cached, how they are given back, and how the connector takes single pages out of a table. -/

namespace KVOffload
open Base

variable {T E H : Type} [DecidableEq H]

/-- What the manager reads of a request. -/
structure Request (T E H : Type) where
  allTokenIds : List T
  /-- What goes into the hash of a block beside its tokens: adapter, salt, other inputs. -/
  extraKeys : Nat → E
  blockHashes : List H
  numComputedTokens : Nat
  running : Bool

/-- Sizes that do not change. -/
structure CacheConfig where
  blockSize : Nat
  blockSize_pos : 0 < blockSize
  maxModelLen : Nat

/-- A hash of the hash before, the tokens of a block and its extra keys; `NONE_HASH` is its root. -/
abbrev BlockHasher (T E H : Type) : Type := HashChain (List T × E) H

section Hashing

/-- The loop of `request_block_hasher`, which stops at the first block that is not full. -/
def hasherLoop (S : BlockHasher T E H) (blockSize : Nat) (tokens : List T) (extraKeys : Nat → E) :
    Nat → Nat → H → List H
  | 0, _, _ => []
  | fuel + 1, startTokenIdx, prevBlockHashValue =>
      if tokens.length < startTokenIdx + blockSize then []
      else
        let blockHash :=
          S.link prevBlockHashValue ((tokens.drop startTokenIdx).take blockSize, extraKeys (startTokenIdx / blockSize))
        blockHash :: hasherLoop S blockSize tokens extraKeys fuel (startTokenIdx + blockSize) blockHash

def requestBlockHasher (S : BlockHasher T E H) (blockSize : Nat) (req : Request T E H) : List H :=
  hasherLoop S blockSize req.allTokenIds req.extraKeys (req.allTokenIds.length + 1) (req.blockHashes.length * blockSize)
    (req.blockHashes.getLast?.getD S.root)

def Request.updateBlockHashes (S : BlockHasher T E H) (blockSize : Nat) (req : Request T E H) : Request T E H :=
  { req with blockHashes := req.blockHashes ++ requestBlockHasher S blockSize req }

/-- A request as it is created. -/
def Request.init (S : BlockHasher T E H) (blockSize : Nat) (tokens : List T) (extraKeys : Nat → E) : Request T E H :=
  Request.updateBlockHashes S blockSize ⟨tokens, extraKeys, [], 0, false⟩

def Request.appendOutputTokenIds (S : BlockHasher T E H) (blockSize : Nat) (req : Request T E H) (tokens : List T) :
    Request T E H :=
  Request.updateBlockHashes S blockSize { req with allTokenIds := req.allTokenIds ++ tokens }

/-- A full block of the request as it is hashed. -/
def Request.fullBlock (req : Request T E H) (blockSize i : Nat) : List T × E :=
  ((req.allTokenIds.drop (i * blockSize)).take blockSize, req.extraKeys i)

def Request.fullBlocks (req : Request T E H) (blockSize n : Nat) : List (List T × E) :=
  (List.range n).map (req.fullBlock blockSize)

/-- There is one hash for each full block, each over all tokens up to the end of the block. -/
def Request.Hashed (S : BlockHasher T E H) (blockSize : Nat) (req : Request T E H) : Prop :=
  req.blockHashes = S.linkAll S.root (req.fullBlocks blockSize (req.allTokenIds.length / blockSize))

variable {S : BlockHasher T E H} {blockSize : Nat} {req : Request T E H}

omit [DecidableEq H] in
theorem hasherLoop_eq (hpos : 0 < blockSize) (tokens : List T) (extraKeys : Nat → E) {fuel i : Nat}
    (hfuel : tokens.length < fuel + i * blockSize) (prev : H) :
    hasherLoop S blockSize tokens extraKeys fuel (i * blockSize) prev =
      S.linkAll prev ((List.range' i (tokens.length / blockSize - i)).map
        fun j => ((tokens.drop (j * blockSize)).take blockSize, extraKeys j)) := by
  induction fuel generalizing i prev with
  | zero =>
      have hnone : tokens.length / blockSize - i = 0 := by
        have := (Nat.div_lt_iff_lt_mul hpos).mpr (by omega : tokens.length < i * blockSize)
        omega
      rw [hnone]
      rfl
  | succ fuel ih =>
      rw [hasherLoop]
      by_cases hshort : tokens.length < i * blockSize + blockSize
      · have hnone : tokens.length / blockSize - i = 0 := by
          have := (Nat.div_lt_iff_lt_mul hpos).mpr (by rw [Nat.add_mul]; omega : tokens.length < (i + 1) * blockSize)
          omega
        rw [if_pos hshort, hnone]
        rfl
      · have hsome : tokens.length / blockSize - i = tokens.length / blockSize - (i + 1) + 1 := by
          have := (Nat.le_div_iff_mul_le hpos).mpr (by rw [Nat.add_mul]; omega : (i + 1) * blockSize ≤ tokens.length)
          omega
        have hnext : i * blockSize + blockSize = (i + 1) * blockSize := (Nat.succ_mul i blockSize).symm
        rw [if_neg hshort, hsome, List.range'_succ, List.map_cons, HashChain.linkAll, Nat.mul_div_cancel i hpos, hnext]
        exact congrArg (List.cons _) (ih (by rw [← hnext]; omega) _)

omit [DecidableEq H] in
/-- However many full blocks were hashed before, all of them are afterwards. -/
theorem Request.hashed_update (hpos : 0 < blockSize) {n : Nat} (hn : n ≤ req.allTokenIds.length / blockSize)
    (h : req.blockHashes = S.linkAll S.root (req.fullBlocks blockSize n)) :
    (req.updateBlockHashes S blockSize).Hashed S blockSize := by
  have hlen : req.blockHashes.length = n := by
    rw [h, HashChain.length_linkAll, fullBlocks, List.length_map, List.length_range]
  have hlast : req.blockHashes.getLast?.getD S.root = S.chain (req.fullBlocks blockSize n) := by
    rw [h, HashChain.getLast?_linkAll]
  have hsplit : req.fullBlocks blockSize (req.allTokenIds.length / blockSize) = req.fullBlocks blockSize n ++
      (List.range' n (req.allTokenIds.length / blockSize - n)).map (req.fullBlock blockSize) := by
    have hrange : List.range (req.allTokenIds.length / blockSize) =
        List.range n ++ List.range' n (req.allTokenIds.length / blockSize - n) := by
      obtain ⟨k, hk⟩ := Nat.exists_eq_add_of_le hn
      rw [hk, Nat.add_sub_cancel_left, List.range_add, List.range'_eq_map_range]
    rw [fullBlocks, fullBlocks, hrange, List.map_append]
  show req.blockHashes ++ requestBlockHasher S blockSize req = S.linkAll S.root (req.fullBlocks blockSize _)
  rw [requestBlockHasher, hlast, hlen, hasherLoop_eq hpos _ _ (by omega), h]
  exact (hsplit ▸ HashChain.linkAll_append S _ _).symm

omit [DecidableEq H] in
theorem Request.hashed_init (hpos : 0 < blockSize) (tokens : List T) (extraKeys : Nat → E) :
    (Request.init S blockSize tokens extraKeys).Hashed S blockSize :=
  Request.hashed_update hpos (Nat.zero_le _) rfl

omit [DecidableEq H] in
/-- More tokens leave the full blocks as they are. -/
theorem Request.fullBlock_append {tokens : List T} {i : Nat} (hi : (i + 1) * blockSize ≤ req.allTokenIds.length) :
    Request.fullBlock { req with allTokenIds := req.allTokenIds ++ tokens } blockSize i =
      req.fullBlock blockSize i := by
  rw [Nat.add_mul, Nat.one_mul] at hi
  show ((List.drop _ (_ ++ _)).take _, _) = _
  rw [List.drop_append_of_le_length (by omega), List.take_append_of_le_length (by rw [List.length_drop]; omega)]
  rfl

omit [DecidableEq H] in
theorem Request.Hashed.appendOutputTokenIds (hpos : 0 < blockSize) (h : req.Hashed S blockSize) (tokens : List T) :
    (req.appendOutputTokenIds S blockSize tokens).Hashed S blockSize := by
  refine Request.hashed_update hpos (n := req.allTokenIds.length / blockSize) ?_ ?_
  · rw [List.length_append]
    exact Nat.div_le_div_right (Nat.le_add_right _ _)
  · rw [h]
    congr 1
    refine List.map_congr_left fun i hi => (Request.fullBlock_append ?_).symm
    rw [List.mem_range] at hi
    exact (Nat.mul_le_mul_right _ hi).trans (Nat.div_mul_le_self _ _)

end Hashing

structure CacheManager (T E H : Type) where
  blockPool : LinkedBlockPool H
  reqToBlocks : OrderedDict RequestId (List Nat)
  numCachedBlock : OrderedDict RequestId Nat
  requests : OrderedDict RequestId (Request T E H)

abbrev ManagerM (T E H α : Type) : Type := Eff (CacheManager T E H) BlockPoolError α

/-- `cdiv` -/
def cdiv (a b : Nat) : Nat := (a + (b - 1)) / b

namespace CacheManager

/-- The table of a request; an entry that is missing reads as the empty list. -/
def table (m : CacheManager T E H) (r : RequestId) : List Nat := (m.reqToBlocks.get? r).getD []

def onPool {α : Type} (program : PoolM H α) : ManagerM T E H α :=
  Eff.zoom blockPool (fun m pool => { m with blockPool := pool }) program

def setTable (r : RequestId) (blocks : List Nat) (m : CacheManager T E H) : CacheManager T E H :=
  { m with reqToBlocks := m.reqToBlocks.set r blocks }

/-- The loop of `find_longest_cache_hit`: it ends at the first hash without a block. -/
def hitLoop (pool : LinkedBlockPool H) : List H → Except BlockPoolError (List Nat)
  | [] => .ok []
  | blockHash :: rest =>
      match pool.getCachedBlock blockHash 0 with
      | .error e => .error e
      | .ok none => .ok []
      | .ok (some b) => (hitLoop pool rest).map (b :: ·)

def findLongestCacheHit (pool : LinkedBlockPool H) (blockHashes : List H) (maxLength blockSize : Nat) :
    Except BlockPoolError (List Nat) :=
  hitLoop pool (blockHashes.take (maxLength / blockSize))

/-- `get_computed_blocks`: the last token is always computed. -/
def getComputedBlocks (cfg : CacheConfig) (m : CacheManager T E H) (req : Request T E H) :
    Except BlockPoolError (List Nat) :=
  if m.blockPool.enableCaching then
    findLongestCacheHit m.blockPool req.blockHashes (req.allTokenIds.length - 1) cfg.blockSize
  else .ok []

/-- `get_num_blocks_to_allocate` -/
def getNumBlocksToAllocate (cfg : CacheConfig) (m : CacheManager T E H) (r : RequestId) (numTokens : Nat)
    (newComputedBlocks : List Nat) : Except BlockPoolError Nat :=
  let numRequiredBlocks := cdiv numTokens cfg.blockSize
  let numReqBlocks := (m.table r).length
  if (m.numCachedBlock.get? r).isSome then
    if newComputedBlocks.length = 0 then .ok (numRequiredBlocks - numReqBlocks) else .error .unexpectedComputedBlocks
  else
    let numEvictableBlocks := newComputedBlocks.countP fun b => m.blockPool.refCnt b = 0 ∧ m.blockPool.isNull b = false
    .ok (numRequiredBlocks - (newComputedBlocks.length + numReqBlocks) + numEvictableBlocks)

/-- `add_local_computed_blocks` -/
def addLocalComputedBlocks (r : RequestId) (newComputedBlocks : List Nat) : ManagerM T E H Unit := do
  let m ← Eff.read
  if (m.table r).length ≠ 0 then Eff.raise .unexpectedComputedBlocks
  else do
    if m.blockPool.enableCaching then onPool (LinkedBlockPool.touch newComputedBlocks)
    else if newComputedBlocks ≠ [] then Eff.raise .unexpectedComputedBlocks
    else pure ()
    Eff.modify fun m =>
      { setTable r newComputedBlocks m with numCachedBlock := m.numCachedBlock.set r newComputedBlocks.length }

/-- `allocate_new_blocks` -/
def allocateNewBlocks (cfg : CacheConfig) (r : RequestId) (numTokens : Nat) : ManagerM T E H (List Nat) := do
  let m ← Eff.read
  let numNewBlocks := cdiv numTokens cfg.blockSize - (m.table r).length
  if numNewBlocks = 0 then pure []
  else do
    let newBlocks ← onPool (LinkedBlockPool.getNewBlocks numNewBlocks)
    Eff.modify fun m => setTable r (m.table r ++ newBlocks) m
    pure newBlocks

/-- `cache_blocks` -/
def cacheBlocks (cfg : CacheConfig) (r : RequestId) (req : Request T E H) (numTokens : Nat) : ManagerM T E H Unit := do
  let m ← Eff.read
  let numCachedBlocks := (m.numCachedBlock.get? r).getD 0
  let numFullBlocks := numTokens / cfg.blockSize
  if numFullBlocks ≤ numCachedBlocks then pure ()
  else do
    onPool (LinkedBlockPool.cacheFullBlocks req.blockHashes
      (m.table r) numCachedBlocks numFullBlocks cfg.blockSize 0 none)
    Eff.modify fun m => { m with numCachedBlock := m.numCachedBlock.set r numFullBlocks }

/-- How much room `allocate_slots` leaves, and whether the whole request must fit. -/
structure AllocateOptions where
  watermarkBlocks : Nat
  reservedBlocks : Nat
  fullSequenceMustFit : Bool

/-- `allocate_slots`, without draft tokens and with no tokens computed elsewhere; `none` if the pages do not suffice. -/
def allocateSlots (cfg : CacheConfig) (opts : AllocateOptions) (r : RequestId) (req : Request T E H)
    (numNewTokens : Nat) (newComputedBlocks : List Nat) : ManagerM T E H (Option (List Nat)) :=
  if numNewTokens = 0 then Eff.raise .noNewTokens
  else do
    let m ← Eff.read
    let totalComputedTokens := min (req.numComputedTokens + newComputedBlocks.length * cfg.blockSize) cfg.maxModelLen
    let numTokensNeedSlot := min (totalComputedTokens + numNewTokens) cfg.maxModelLen
    let fullNumTokens := min req.allTokenIds.length cfg.maxModelLen
    let numFreeBlocks := m.blockPool.freeBlockQueue.numFreeBlocks
    match m.getNumBlocksToAllocate cfg r fullNumTokens newComputedBlocks,
      m.getNumBlocksToAllocate cfg r numTokensNeedSlot newComputedBlocks with
    | .ok numFull, .ok numBlocks =>
        if opts.fullSequenceMustFit ∧ numFreeBlocks < numFull + opts.watermarkBlocks then pure none
        else if numFreeBlocks - opts.reservedBlocks < numBlocks + opts.watermarkBlocks then pure none
        else do
          if newComputedBlocks ≠ [] then addLocalComputedBlocks r newComputedBlocks else pure ()
          let newBlocks ← allocateNewBlocks cfg r numTokensNeedSlot
          if m.blockPool.enableCaching then
            cacheBlocks cfg r req (min (totalComputedTokens + numNewTokens) req.allTokenIds.length)
          else pure ()
          pure (some newBlocks)
    | .error e, _ => Eff.raise e
    | _, .error e => Eff.raise e

/-- `free` -/
def free (r : RequestId) : ManagerM T E H Unit := do
  let m ← Eff.read
  Eff.modify fun m => { m with reqToBlocks := m.reqToBlocks.erase r, numCachedBlock := m.numCachedBlock.erase r }
  onPool (LinkedBlockPool.freeBlocks (m.table r).reverse)

def setRequest (r : RequestId) (req : Request T E H) (m : CacheManager T E H) : CacheManager T E H :=
  { m with requests := m.requests.set r req }

/-- A request in `schedule`. A running one goes on from where it is, any other first looks into the prefix cache. At
most `tokenBudget` of the tokens that are left are computed; the tokens that will be. -/
def scheduleRequest (cfg : CacheConfig) (opts : AllocateOptions) (r : RequestId) (tokenBudget : Nat) :
    ManagerM T E H (Option (Nat × Nat)) := do
  let m ← Eff.read
  match m.requests.get? r with
  | none => pure none
  | some req =>
      match if req.running then .ok [] else m.getComputedBlocks cfg req with
      | .error e => Eff.raise e
      | .ok computedBlocks => do
          let numComputedTokens := req.numComputedTokens + computedBlocks.length * cfg.blockSize
          let numNewTokens := min (req.allTokenIds.length - numComputedTokens) tokenBudget
          if numNewTokens = 0 then pure none
          else do
            let newBlocks ← allocateSlots cfg opts r req numNewTokens computedBlocks
            match newBlocks with
            | none => pure none
            | some _ => do
                Eff.modify
                  (setRequest r { req with numComputedTokens := numComputedTokens + numNewTokens, running := true })
                pure (some (numComputedTokens, numNewTokens))

/-- `_preempt_request` -/
def preemptRequest (r : RequestId) : ManagerM T E H Unit := do
  let m ← Eff.read
  match m.requests.get? r with
  | none => pure ()
  | some req =>
      if req.running then do
        free r
        Eff.modify (setRequest r { req with numComputedTokens := 0, running := false })
      else pure ()

/-- `finish_requests` -/
def finishRequest (r : RequestId) : ManagerM T E H Unit := do
  free r
  Eff.modify fun m => { m with requests := m.requests.erase r }

/-- The loop of `_process_store_completion`: a page leaves the table of its request if it is still there. Returns the
pages, and those among them that have a hash. -/
def surgeryLoop : List (BlockRef × Nat) → CacheManager T E H → (List Nat × List Nat) × CacheManager T E H
  | [], m => (([], []), m)
  | (ref, gpuId) :: rest, m =>
      match m.reqToBlocks.get? ref.requestId with
      | none => surgeryLoop rest m
      | some blocks =>
          if blocks[ref.blockIdx.toNat]? = some gpuId then
            let r := surgeryLoop rest (setTable ref.requestId (blocks.set ref.blockIdx.toNat BlockPool.nullBlock) m)
            ((gpuId :: r.1.1, if (m.blockPool.blockHash gpuId).isSome then gpuId :: r.1.2 else r.1.2), r.2)
          else surgeryLoop rest m

/-- `_process_store_completion` with true freeing. -/
def processStoreCompletion (entries : List (BlockRef × Nat)) : ManagerM T E H Unit := do
  let m ← Eff.read
  let r := surgeryLoop entries m
  Eff.modify fun _ => r.2
  if r.1.2 ≠ [] then onPool (LinkedBlockPool.evictBlocks r.1.2) else pure ()
  if r.1.1 ≠ [] then onPool (LinkedBlockPool.freeBlocks r.1.1) else pure ()

end CacheManager
end KVOffload

import KVOffload.StoreResidency
import Mathlib.Algebra.Group.Int.Defs
import Mathlib.Data.Finset.Basic

/-! The block pool of vLLM: reference counts and a queue of free blocks in the order in which they are
handed out. Block 0 is the null block; it stands in block tables for pages that are gone and is never
free. Of the prefix cache only the presence of a block's hash matters here, which decides at which
end of the queue a freed block waits. -/

namespace KVOffload

structure BlockPool where
  enableCaching : Bool
  refCnt : Nat → Int
  /-- The blocks that have a hash. -/
  hashed : Finset Nat
  freeQueue : List Nat

namespace BlockPool

def nullBlock : Nat := 0

/-- The null block is the first one taken from a new pool. -/
def init (numBlocks : Nat) (enableCaching : Bool) : BlockPool where
  enableCaching := enableCaching
  refCnt := fun _ => 0
  hashed := ∅
  freeQueue := (List.range numBlocks).tail

def addRef (pool : BlockPool) (block : Nat) : BlockPool :=
  { pool with refCnt := Function.update pool.refCnt block (pool.refCnt block + 1) }

def dropRef (pool : BlockPool) (block : Nat) : BlockPool :=
  { pool with refCnt := Function.update pool.refCnt block (pool.refCnt block - 1) }

/-- `get_new_blocks`. A block that is handed out loses its hash. -/
def getNewBlocks (pool : BlockPool) (numBlocks : Nat) : Except PyError (List Nat) × BlockPool :=
  if pool.freeQueue.length < numBlocks then (.error (.noFreeBlocks numBlocks), pool)
  else
    let blocks := pool.freeQueue.take numBlocks
    (.ok blocks,
      blocks.foldl addRef
        { pool with
          freeQueue := pool.freeQueue.drop numBlocks
          hashed := if pool.enableCaching then pool.hashed \ blocks.toFinset else pool.hashed })

/-- `touch`: a free block leaves the queue. -/
def touch (pool : BlockPool) (blocks : List Nat) : BlockPool :=
  blocks.foldl
    (fun pool block =>
      addRef
        (if pool.refCnt block = 0 ∧ block ≠ nullBlock then { pool with freeQueue := pool.freeQueue.erase block }
          else pool)
        block)
    pool

/-- Drops one reference for each listed block; the blocks that have none left, in order. -/
def dropRefs : BlockPool → List Nat → List Nat × BlockPool
  | pool, [] => ([], pool)
  | pool, block :: rest =>
      let dropped := pool.dropRef block
      let r := dropRefs dropped rest
      (if dropped.refCnt block = 0 ∧ block ≠ nullBlock then block :: r.1 else r.1, r.2)

/-- `free_blocks`: blocks without a hash are reused first, cached ones last. -/
def freeBlocks (pool : BlockPool) (blocks : List Nat) : BlockPool :=
  let r := dropRefs pool blocks
  let cached := fun block => decide (block ∈ pool.hashed) && pool.enableCaching
  { r.2 with freeQueue := r.1.filter (fun block => !cached block) ++ pool.freeQueue ++ r.1.filter cached }

/-- `cache_full_blocks`, which the managers call with caching enabled only. Null blocks are skipped. -/
def cacheFullBlocks (pool : BlockPool) (blocks : List Nat) : BlockPool :=
  { pool with
    hashed := if pool.enableCaching then pool.hashed ∪ (blocks.filter (· ≠ nullBlock)).toFinset else pool.hashed }

/-- `evict_blocks`. -/
def evictBlocks (pool : BlockPool) (blocks : List Nat) : BlockPool :=
  { pool with hashed := pool.hashed \ blocks.toFinset }

end BlockPool

end KVOffload

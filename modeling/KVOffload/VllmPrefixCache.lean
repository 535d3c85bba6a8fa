import KVOffload.BaseOrderedDict
import KVOffload.VllmFreeQueue
import Mathlib.Tactic.SplitIfs
import Mathlib.Tactic.Tauto

/-! The block pool of vLLM as it is in memory: the linked queue of free blocks, the reference counts, and
the prefix cache, which leads from the hash of a token prefix to the blocks that hold it. A block knows
its own keys too, one in a field of the block and any others in a dictionary, so that all of them can be
taken away when the block is given to somebody else. -/

namespace KVOffload
open Base

variable {H : Type} [DecidableEq H]

/-- The keys of the prefix cache: the hash of a prefix, packed with the cache group. -/
abbrev BlockHashWithGroupId (H : Type) : Type := H × Nat

def makeBlockHashWithGroupId (blockHash : H) (groupId : Nat) : BlockHashWithGroupId H := (blockHash, groupId)

/-- A key leads to one block, or to a dictionary of blocks by their ids. -/
inductive CachedBlocks where
  | one (blockId : Nat)
  | many (blocks : OrderedDict Nat Unit)

def CachedBlocks.ids : CachedBlocks → List Nat
  | one b => [b]
  | many blocks => blocks.keys

structure BlockHashToBlockMap (K : Type) where
  cache : OrderedDict K CachedBlocks

namespace BlockHashToBlockMap

variable {K : Type} [DecidableEq K]

def empty : BlockHashToBlockMap K := ⟨.empty⟩

def getOneBlock (m : BlockHashToBlockMap K) (key : K) : Except BlockPoolError (Option Nat) :=
  match m.cache.get? key with
  | none => .ok none
  | some (.one b) => .ok (some b)
  | some (.many blocks) =>
      match blocks.keys.head? with
      | none => .error .stopIteration
      | some b => .ok (some b)

def contain (m : BlockHashToBlockMap K) (key : K) (b : Nat) : Bool :=
  match m.cache.get? key with
  | none => false
  | some (.one b') => b' == b
  | some (.many blocks) => decide (b ∈ blocks.keys)

def insert (m : BlockHashToBlockMap K) (key : K) (b : Nat) : BlockHashToBlockMap K :=
  match m.cache.get? key with
  | none => ⟨m.cache.set key (.one b)⟩
  | some (.one b') => ⟨m.cache.set key (.many ((OrderedDict.empty.set b' ()).set b ()))⟩
  | some (.many blocks) => ⟨m.cache.set key (.many (blocks.set b ()))⟩

/-- `pop`. A key whose last block is taken is gone, any other goes back in at the end. -/
def pop (m : BlockHashToBlockMap K) (key : K) (b : Nat) : Option Nat × BlockHashToBlockMap K :=
  match m.cache.get? key with
  | none => (none, m)
  | some (.one b') => if b' = b then (some b', ⟨m.cache.erase key⟩) else (none, ⟨(m.cache.erase key).set key (.one b')⟩)
  | some (.many blocks) =>
      let popped := if b ∈ blocks.keys then some b else none
      let rest := blocks.erase b
      if 0 < rest.keys.length then (popped, ⟨(m.cache.erase key).set key (.many rest)⟩)
      else (popped, ⟨m.cache.erase key⟩)

/-- The blocks a key leads to, the one `get_one_block` returns first. -/
def blocksAt (m : BlockHashToBlockMap K) (key : K) : List Nat :=
  match m.cache.get? key with
  | none => []
  | some blocks => blocks.ids

/-- A key in the map leads somewhere. -/
def Full (m : BlockHashToBlockMap K) : Prop := ∀ key blocks, m.cache.get? key = some blocks → blocks.ids ≠ []

section Lemmas

variable {m : BlockHashToBlockMap K}

theorem blocksAt_of_get? {key : K} {blocks : CachedBlocks} (h : m.cache.get? key = some blocks) :
    m.blocksAt key = blocks.ids := by
  rw [blocksAt, h]

theorem blocksAt_of_none {key : K} (h : m.cache.get? key = none) : m.blocksAt key = [] := by rw [blocksAt, h]

theorem blocksAt_congr {m' : BlockHashToBlockMap K} {key : K} (h : m'.cache.get? key = m.cache.get? key) :
    m'.blocksAt key = m.blocksAt key := by
  rw [blocksAt, h, ← blocksAt]

theorem contain_iff {key : K} {b : Nat} : m.contain key b = true ↔ b ∈ m.blocksAt key := by
  unfold contain blocksAt
  rcases m.cache.get? key with _ | b' | blocks
  · simp
  · exact beq_iff_eq.trans (eq_comm.trans List.mem_singleton.symm)
  · exact decide_eq_true_iff

theorem getOneBlock_eq (h : m.Full) (key : K) : m.getOneBlock key = .ok (m.blocksAt key).head? := by
  unfold getOneBlock
  rcases hget : m.cache.get? key with _ | b | blocks
  · rw [blocksAt_of_none hget]
    rfl
  · rw [blocksAt_of_get? hget]
    rfl
  · rw [blocksAt_of_get? hget]
    obtain ⟨b, rest, hkeys⟩ := List.exists_cons_of_ne_nil (h key _ hget)
    replace hkeys : blocks.keys = b :: rest := hkeys
    simp [CachedBlocks.ids, hkeys]

/-- What `insert` assigns to the key. -/
theorem insert_spec (m : BlockHashToBlockMap K) (key : K) (b : Nat) :
    ∃ blocks, m.insert key b = ⟨m.cache.set key blocks⟩ ∧ ∀ b', b' ∈ blocks.ids ↔ b' = b ∨ b' ∈ m.blocksAt key := by
  unfold insert
  rcases hget : m.cache.get? key with _ | b₀ | blocks
  · refine ⟨.one b, rfl, fun b' => ?_⟩
    simp [blocksAt_of_none hget, CachedBlocks.ids]
  · refine ⟨_, rfl, fun b' => ?_⟩
    rw [blocksAt_of_get? hget, CachedBlocks.ids, CachedBlocks.ids, OrderedDict.mem_keys_set, OrderedDict.mem_keys_set]
    simp [OrderedDict.keys, OrderedDict.empty]
  · refine ⟨_, rfl, fun b' => ?_⟩
    rw [blocksAt_of_get? hget, CachedBlocks.ids, CachedBlocks.ids, OrderedDict.mem_keys_set]

theorem mem_blocksAt_insert {key key' : K} {b b' : Nat} :
    b' ∈ (m.insert key b).blocksAt key' ↔ (key' = key ∧ b' = b) ∨ b' ∈ m.blocksAt key' := by
  obtain ⟨blocks, hinsert, hids⟩ := insert_spec m key b
  have hget : (m.insert key b).cache.get? key' = if key' = key then some blocks else m.cache.get? key' := by
    rw [hinsert, OrderedDict.get?_set]
  by_cases hkey : key' = key
  · subst hkey
    rw [if_pos rfl] at hget
    rw [blocksAt_of_get? hget, hids, eq_self, true_and]
  · rw [if_neg hkey] at hget
    rw [blocksAt_congr hget]
    simp only [hkey, false_and, false_or]

theorem Full.insert (h : m.Full) (key : K) (b : Nat) : (m.insert key b).Full := by
  obtain ⟨blocks, hinsert, hids⟩ := insert_spec m key b
  rw [hinsert]
  intro key' blocks' hget
  rw [OrderedDict.get?_set] at hget
  split_ifs at hget with hkey
  · cases hget
    exact List.ne_nil_of_mem ((hids b).mpr (Or.inl rfl))
  · exact h key' blocks' hget

/-- What `pop` returns and what it leaves at the key. -/
theorem pop_spec (m : BlockHashToBlockMap K) (key : K) (b : Nat) :
    ∃ left : Option CachedBlocks,
      (∀ key', (m.pop key b).2.cache.get? key' = if key' = key then left else m.cache.get? key') ∧
        (m.pop key b).1 = (if b ∈ m.blocksAt key then some b else none) ∧
        (∀ b', (∃ blocks, left = some blocks ∧ b' ∈ blocks.ids) ↔ b' ∈ m.blocksAt key ∧ b' ≠ b) ∧
        ∀ blocks, left = some blocks → blocks.ids ≠ [] := by
  unfold pop
  rcases hget : m.cache.get? key with _ | b₀ | blocks
  · have hnone := blocksAt_of_none hget
    refine ⟨none, fun key' => ?_, by simp [hnone], by simp [hnone], nofun⟩
    split_ifs with hkey
    · rw [hkey, hget]
    · rfl
  · have hone : m.blocksAt key = [b₀] := blocksAt_of_get? hget
    by_cases hb : b₀ = b
    · subst hb
      refine ⟨none, fun key' => ?_, by simp [hone], by simp [hone], nofun⟩
      simp only [if_true]
      exact OrderedDict.get?_erase _ _ _
    · refine ⟨some (.one b₀), fun key' => ?_, by simp [hone, hb, Ne.symm hb], fun b' => ?_, ?_⟩
      · simp only [hb, if_false]
        rw [OrderedDict.get?_set, OrderedDict.get?_erase]
        split_ifs <;> rfl
      · simp only [hone, Option.some.injEq, exists_eq_left', CachedBlocks.ids, List.mem_singleton]
        exact ⟨fun heq => ⟨heq, heq ▸ hb⟩, And.left⟩
      · rintro blocks ⟨⟩
        exact List.cons_ne_nil _ _
  · have hmany : m.blocksAt key = blocks.keys := blocksAt_of_get? hget
    have herase : ∀ b', b' ∈ (blocks.erase b).keys ↔ b' ∈ m.blocksAt key ∧ b' ≠ b := by
      intro b'
      rw [OrderedDict.mem_keys_erase, hmany, and_comm]
    by_cases hlen : 0 < (blocks.erase b).keys.length
    · refine ⟨some (.many (blocks.erase b)), fun key' => ?_, by simp [hlen, hmany], fun b' => ?_, ?_⟩
      · simp only [hlen, if_true]
        rw [OrderedDict.get?_set, OrderedDict.get?_erase]
        split_ifs <;> rfl
      · simp only [Option.some.injEq, exists_eq_left', CachedBlocks.ids, herase]
      · rintro blocks' ⟨⟩
        exact List.ne_nil_of_length_pos hlen
    · have hnil : (blocks.erase b).keys = [] := List.eq_nil_of_length_eq_zero (by omega)
      refine ⟨none, fun key' => ?_, by simp [hlen, hmany], fun b' => ?_, nofun⟩
      · simp only [hlen, if_false]
        exact OrderedDict.get?_erase _ _ _
      · rw [← herase, hnil]
        simp

theorem mem_blocksAt_pop {key key' : K} {b b' : Nat} :
    b' ∈ (m.pop key b).2.blocksAt key' ↔ b' ∈ m.blocksAt key' ∧ ¬(key' = key ∧ b' = b) := by
  obtain ⟨left, hget, -, hids, -⟩ := pop_spec m key b
  by_cases hkey : key' = key
  · subst hkey
    have hleft := hget key'
    rw [if_pos rfl] at hleft
    rw [eq_self, true_and, ← Ne, ← hids b']
    rcases left with _ | blocks
    · rw [blocksAt_of_none hleft]
      simp
    · rw [blocksAt_of_get? hleft]
      simp
  · have hother := hget key'
    rw [if_neg hkey] at hother
    rw [blocksAt_congr hother]
    simp only [hkey, false_and, not_false_eq_true, and_true]

theorem Full.pop (h : m.Full) (key : K) (b : Nat) : (m.pop key b).2.Full := by
  obtain ⟨left, hget, -, -, hleft⟩ := pop_spec m key b
  intro key' blocks hblocks
  rw [hget key'] at hblocks
  split_ifs at hblocks
  · exact hleft blocks hblocks
  · exact h key' blocks hblocks

end Lemmas

end BlockHashToBlockMap

/-- The hashes of a request at the granularity of a cache group's blocks: the last of each block chains over all
others. -/
def resolveBlockHashes (blockHashes : List H) (hashBlockSize blockSize : Nat) : Except BlockPoolError (List H) :=
  if blockSize = hashBlockSize then .ok blockHashes
  else if blockSize % hashBlockSize ≠ 0 then .error .notPartial
  else
    let scaleFactor := blockSize / hashBlockSize
    .ok ((List.range (blockHashes.length / scaleFactor)).filterMap fun i => blockHashes[(i + 1) * scaleFactor - 1]?)

structure LinkedBlockPool (H : Type) where
  numGpuBlocks : Nat
  enableCaching : Bool
  hashBlockSize : Nat
  freeBlockQueue : FreeKVCacheBlockQueue
  refCnt : Nat → Int
  blockHash : Nat → Option (BlockHashWithGroupId H)
  blockHashNumTokens : Nat → Option Nat
  isNull : Nat → Bool
  cachedBlockHashToBlock : BlockHashToBlockMap (BlockHashWithGroupId H)
  /-- The keys of a block beside its own hash; a Python set, in the order of its iteration. -/
  cachedBlockHashesByBlock : OrderedDict Nat (List (BlockHashWithGroupId H))

abbrev PoolM (H α : Type) : Type := Eff (LinkedBlockPool H) BlockPoolError α

namespace LinkedBlockPool

/-- `__init__`: the null block is popped from the new queue. -/
def init (numGpuBlocks : Nat) (enableCaching : Bool) (hashBlockSize : Nat) :
    Except BlockPoolError (LinkedBlockPool H) :=
  if numGpuBlocks = 0 then .error .noGpuBlocks
  else
    match FreeKVCacheBlockQueue.popleft (.init ((List.range numGpuBlocks).map .block)) with
    | (.ok (.block nullBlock), queue) =>
        .ok
          { numGpuBlocks := numGpuBlocks
            enableCaching := enableCaching
            hashBlockSize := hashBlockSize
            freeBlockQueue := queue
            refCnt := fun _ => 0
            blockHash := fun _ => none
            blockHashNumTokens := fun _ => none
            isNull := fun b => b == nullBlock
            cachedBlockHashToBlock := .empty
            cachedBlockHashesByBlock := .empty }
    | (.ok _, _) => .error .fakeBlock
    | (.error e, _) => .error e

/-- An operation of the queue. -/
def onQueue {α : Type} (m : QueueM α) : PoolM H α :=
  Eff.zoom freeBlockQueue (fun pool queue => { pool with freeBlockQueue := queue }) m

def addRef (b : Nat) (pool : LinkedBlockPool H) : LinkedBlockPool H :=
  { pool with refCnt := Function.update pool.refCnt b (pool.refCnt b + 1) }

def dropRef (b : Nat) (pool : LinkedBlockPool H) : LinkedBlockPool H :=
  { pool with refCnt := Function.update pool.refCnt b (pool.refCnt b - 1) }

/-- The keys of a block beside its own hash. -/
def otherHashes (pool : LinkedBlockPool H) (b : Nat) : List (BlockHashWithGroupId H) :=
  (pool.cachedBlockHashesByBlock.get? b).getD []

/-- Takes the keys from the block; the ones that led to it. -/
def popHashes (b : Nat) : List (BlockHashWithGroupId H) → BlockHashToBlockMap (BlockHashWithGroupId H) →
    List (BlockHashWithGroupId H) × BlockHashToBlockMap (BlockHashWithGroupId H)
  | [], m => ([], m)
  | key :: rest, m =>
      let popped := m.pop key b
      let r := popHashes b rest popped.2
      (if popped.1.isSome then key :: r.1 else r.1, r.2)

def removeCachedBlockHashes (b : Nat) (pool : LinkedBlockPool H) : List (BlockHashWithGroupId H) × LinkedBlockPool H :=
  let blockHashes := (pool.blockHash b).toList ++ pool.otherHashes b
  let pool := { pool with cachedBlockHashesByBlock := pool.cachedBlockHashesByBlock.erase b }
  if blockHashes = [] then ([], pool)
  else
    let r := popHashes b blockHashes pool.cachedBlockHashToBlock
    (r.1,
      { pool with
        cachedBlockHashToBlock := r.2
        blockHash := Function.update pool.blockHash b none
        blockHashNumTokens := Function.update pool.blockHashNumTokens b none })

/-- `set_block_hash` of a block. -/
def setBlockHash (key : BlockHashWithGroupId H) (b : Nat) (numTokens : Option Nat) : PoolM H Unit := do
  let pool ← Eff.read
  if pool.blockHash b = none ∧ pool.blockHashNumTokens b = none then
    Eff.modify fun pool =>
      { pool with
        blockHash := Function.update pool.blockHash b (some key)
        blockHashNumTokens := Function.update pool.blockHashNumTokens b numTokens }
  else Eff.raise (.alreadyHashed b)

def addOtherHash (key : BlockHashWithGroupId H) (b : Nat) (pool : LinkedBlockPool H) : LinkedBlockPool H :=
  { pool with cachedBlockHashesByBlock := pool.cachedBlockHashesByBlock.set b ((pool.otherHashes b).insert key) }

def insertBlockHash (key : BlockHashWithGroupId H) (b : Nat) (numTokens : Option Nat) : PoolM H Unit := do
  let pool ← Eff.read
  if pool.blockHash b = some key then pure ()
  else if pool.cachedBlockHashToBlock.contain key b then pure ()
  else do
    if pool.blockHash b = none then setBlockHash key b numTokens else Eff.modify (addOtherHash key b)
    Eff.modify fun pool => { pool with cachedBlockHashToBlock := pool.cachedBlockHashToBlock.insert key b }

/-- The mask leaves the `i`th of the new full blocks out. -/
def maskedOut (blockMask : Option (List Bool)) (i : Nat) : Bool := blockMask.any fun mask => mask[i]? == some false

/-- The body of the loop of `cache_full_blocks`, for the `i`th of the new full blocks. -/
def cacheFullBlock (blockHashes : List H) (numCachedBlocks blockSize groupId : Nat) (blockMask : Option (List Bool))
    (b i : Nat) : PoolM H Unit := do
  let pool ← Eff.read
  if pool.isNull b || maskedOut blockMask i then pure ()
  else
    match blockHashes[numCachedBlocks + i]? with
    | none => Eff.raise (.noSuchHash (numCachedBlocks + i))
    | some blockHash => do
        let numHashTokens := (numCachedBlocks + i + 1) * blockSize
        if (pool.blockHash b).isSome then
          if (pool.blockHashNumTokens b).any (· < numHashTokens) then
            Eff.modify fun pool => (removeCachedBlockHashes b pool).2
          else Eff.raise (.notPromoted b)
        else pure ()
        insertBlockHash (makeBlockHashWithGroupId blockHash groupId) b (some numHashTokens)

def cacheFullBlocks (requestHashes : List H) (blocks : List Nat) (numCachedBlocks numFullBlocks blockSize groupId : Nat)
    (blockMask : Option (List Bool)) : PoolM H Unit :=
  if numFullBlocks ≤ numCachedBlocks then pure ()
  else do
    let newFullBlocks := (blocks.take numFullBlocks).drop numCachedBlocks
    if blockMask.any fun mask => mask.length != newFullBlocks.length then Eff.raise .maskMismatch
    else do
      let pool ← Eff.read
      match resolveBlockHashes requestHashes pool.hashBlockSize blockSize with
      | .error e => Eff.raise e
      | .ok blockHashes =>
          Eff.forEach newFullBlocks.zipIdx fun e =>
            cacheFullBlock blockHashes numCachedBlocks blockSize groupId blockMask e.1 e.2

/-- `cache_partial_block`: a block is found by a prefix that ends inside it. -/
def cachePartialBlock (requestHashes : List H) (b numTokens groupId blockSize : Nat) :
    PoolM H (Option (BlockHashWithGroupId H)) := do
  let pool ← Eff.read
  if pool.isNull b then pure none
  else if ¬(pool.hashBlockSize < blockSize ∧ blockSize % pool.hashBlockSize = 0 ∧ numTokens % blockSize ≠ 0 ∧
      numTokens % pool.hashBlockSize = 0 ∧ 0 < numTokens / pool.hashBlockSize) then Eff.raise .notPartial
  else
    match requestHashes[numTokens / pool.hashBlockSize - 1]? with
    | none => Eff.raise .notPartial
    | some blockHash => do
        let numHashTokens := numTokens / pool.hashBlockSize * pool.hashBlockSize
        let key := makeBlockHashWithGroupId blockHash groupId
        let alreadyCached := pool.blockHash b == some key || pool.cachedBlockHashToBlock.contain key b
        if !alreadyCached && (pool.blockHash b).isSome && (pool.blockHashNumTokens b).any (· < numHashTokens) then
          Eff.modify fun pool => (removeCachedBlockHashes b pool).2
        else pure ()
        insertBlockHash key b (some numHashTokens)
        pure (some key)

/-- A block that is handed out: its keys go, and it is referenced once. -/
def allocateBlock (b : Nat) : PoolM H Unit := do
  Eff.modify fun pool => if pool.enableCaching then (removeCachedBlockHashes b pool).2 else pool
  let pool ← Eff.read
  if pool.refCnt b = 0 then Eff.modify (addRef b) else Eff.raise (.blockInUse b)

def getNewBlocks (numBlocks : Nat) : PoolM H (List Nat) := do
  let pool ← Eff.read
  if pool.freeBlockQueue.numFreeBlocks < numBlocks then Eff.raise (.cannotGetBlocks numBlocks)
  else do
    let ret ← onQueue (FreeKVCacheBlockQueue.popleftN numBlocks)
    match ret.mapM KVCacheBlock.blockId? with
    | none => Eff.raise .fakeBlock
    | some blocks => do
        Eff.forEach blocks allocateBlock
        pure blocks

def touchBlock (b : Nat) : PoolM H Unit := do
  let pool ← Eff.read
  if pool.refCnt b = 0 ∧ pool.isNull b = false then onQueue (FreeKVCacheBlockQueue.remove (.block b)) else pure ()
  Eff.modify (addRef b)

def touch (blocks : List Nat) : PoolM H Unit := Eff.forEach blocks touchBlock

/-- The loop of `free_blocks`: the freed blocks that are reused first, and those that are reused last. -/
def dropRefs : List Nat → LinkedBlockPool H → (List Nat × List Nat) × LinkedBlockPool H
  | [], pool => (([], []), pool)
  | b :: rest, pool =>
      let dropped := dropRef b pool
      let r := dropRefs rest dropped
      if dropped.refCnt b = 0 ∧ dropped.isNull b = false then
        if dropped.blockHash b = none ∨ dropped.enableCaching = false then ((b :: r.1.1, r.1.2), r.2)
        else ((r.1.1, b :: r.1.2), r.2)
      else r

def freeBlocks (orderedBlocks : List Nat) : PoolM H Unit := do
  let pool ← Eff.read
  let r := dropRefs orderedBlocks pool
  Eff.modify fun _ => r.2
  onQueue (FreeKVCacheBlockQueue.prependN (r.1.1.map .block))
  onQueue (FreeKVCacheBlockQueue.appendN (r.1.2.map .block))

def evictBlocks (blockIds : List Nat) : PoolM H Unit :=
  Eff.forEach blockIds fun b => do
    let pool ← Eff.read
    if pool.numGpuBlocks ≤ b then Eff.raise (.invalidBlockId b)
    else Eff.modify fun pool => (removeCachedBlockHashes b pool).2

/-- `reset_prefix_cache`, possible only while nothing but the null block is in use. -/
def resetPrefixCache : PoolM H Bool := do
  let pool ← Eff.read
  if pool.numGpuBlocks - pool.freeBlockQueue.numFreeBlocks ≠ 1 then pure false
  else do
    Eff.modify fun pool =>
      { pool with
        cachedBlockHashToBlock := .empty
        cachedBlockHashesByBlock := .empty
        blockHash := fun b => if b < pool.numGpuBlocks then none else pool.blockHash b
        blockHashNumTokens := fun b => if b < pool.numGpuBlocks then none else pool.blockHashNumTokens b }
    pure true

/-- `get_cached_block` for one cache group. -/
def getCachedBlock (pool : LinkedBlockPool H) (blockHash : H) (groupId : Nat) : Except BlockPoolError (Option Nat) :=
  pool.cachedBlockHashToBlock.getOneBlock (makeBlockHashWithGroupId blockHash groupId)

/-- The checks of `reserve_staging_tail`. -/
def checkReserved (pool : LinkedBlockPool H) : List Nat → Except BlockPoolError Unit
  | [] => .ok ()
  | b :: rest =>
      if pool.isNull b then .error .stagingOverlapsNull
      else if pool.refCnt b ≠ 0 then .error (.stagingInUse b)
      else checkReserved pool rest

def reserveStagingTail (numSlots : Int) : PoolM H (List Nat) :=
  if numSlots ≤ 0 then pure []
  else do
    let pool ← Eff.read
    if (pool.numGpuBlocks : Int) ≤ numSlots then Eff.raise (.stagingTooLarge numSlots pool.numGpuBlocks)
    else do
      let reservedIds := List.range' (pool.numGpuBlocks - numSlots.toNat) numSlots.toNat
      match pool.checkReserved reservedIds with
      | .error e => Eff.raise e
      | .ok () => do
          touch reservedIds
          pure reservedIds

section Index

/-- `key` is one of the keys the block knows of. -/
def HasKey (pool : LinkedBlockPool H) (b : Nat) (key : BlockHashWithGroupId H) : Prop :=
  pool.blockHash b = some key ∨ key ∈ pool.otherHashes b

/-- The prefix cache and the blocks agree: a key leads to the blocks that know of it and to no others. -/
structure Indexed (pool : LinkedBlockPool H) : Prop where
  full : pool.cachedBlockHashToBlock.Full
  index : ∀ key b, b ∈ pool.cachedBlockHashToBlock.blocksAt key ↔ pool.HasKey b key
  tokens : ∀ b, (pool.blockHashNumTokens b).isSome = (pool.blockHash b).isSome
  others : ∀ b, pool.blockHash b = none → pool.otherHashes b = []

/-- All fields that have nothing to do with hashes. -/
structure SameCore (pool pool' : LinkedBlockPool H) : Prop where
  numGpuBlocks : pool'.numGpuBlocks = pool.numGpuBlocks
  enableCaching : pool'.enableCaching = pool.enableCaching
  hashBlockSize : pool'.hashBlockSize = pool.hashBlockSize
  freeBlockQueue : pool'.freeBlockQueue = pool.freeBlockQueue
  refCnt : pool'.refCnt = pool.refCnt
  isNull : pool'.isNull = pool.isNull

variable {pool pool' : LinkedBlockPool H}

omit [DecidableEq H] in
theorem SameCore.refl (pool : LinkedBlockPool H) : SameCore pool pool := ⟨rfl, rfl, rfl, rfl, rfl, rfl⟩

omit [DecidableEq H] in
theorem SameCore.trans {pool'' : LinkedBlockPool H} (h : SameCore pool pool') (h' : SameCore pool' pool'') :
    SameCore pool pool'' :=
  ⟨h'.1.trans h.1, h'.2.trans h.2, h'.3.trans h.3, h'.4.trans h.4, h'.5.trans h.5, h'.6.trans h.6⟩

/-- The invariant only reads the fields of the prefix cache. -/
theorem Indexed.congr (h : Indexed pool) (hmap : pool'.cachedBlockHashToBlock = pool.cachedBlockHashToBlock)
    (hhash : pool'.blockHash = pool.blockHash) (htokens : pool'.blockHashNumTokens = pool.blockHashNumTokens)
    (hothers : pool'.cachedBlockHashesByBlock = pool.cachedBlockHashesByBlock) : Indexed pool' := by
  have hother : pool'.otherHashes = pool.otherHashes := by
    funext b
    rw [otherHashes, hothers, ← otherHashes]
  refine ⟨hmap ▸ h.full, fun key b => ?_, fun b => ?_, fun b => ?_⟩
  · rw [hmap, h.index, HasKey, HasKey, hhash, hother]
  · rw [htokens, hhash, h.tokens]
  · rw [hhash, hother]
    exact h.others b

theorem mem_blocksAt_popHashes {b b' : Nat} {keys : List (BlockHashWithGroupId H)} {key : BlockHashWithGroupId H}
    {m : BlockHashToBlockMap (BlockHashWithGroupId H)} :
    b' ∈ (popHashes b keys m).2.blocksAt key ↔ b' ∈ m.blocksAt key ∧ ¬(key ∈ keys ∧ b' = b) := by
  induction keys generalizing m with
  | nil => simp [popHashes]
  | cons k rest ih =>
      rw [popHashes, ih, BlockHashToBlockMap.mem_blocksAt_pop, List.mem_cons]
      tauto

theorem full_popHashes {b : Nat} {keys : List (BlockHashWithGroupId H)}
    {m : BlockHashToBlockMap (BlockHashWithGroupId H)}
    (h : m.Full) : (popHashes b keys m).2.Full := by
  induction keys generalizing m with
  | nil => exact h
  | cons k rest ih => exact ih (h.pop k b)

/-- What is left after the keys of a block are taken away. -/
structure Unkeyed (b : Nat) (pool pool' : LinkedBlockPool H) : Prop where
  core : SameCore pool pool'
  indexed : Indexed pool'
  blockHash : pool'.blockHash = Function.update pool.blockHash b none
  numTokens : pool'.blockHashNumTokens = Function.update pool.blockHashNumTokens b none
  otherHashes : pool'.otherHashes = Function.update pool.otherHashes b []

theorem Unkeyed.hasKey {b : Nat} (h : Unkeyed b pool pool') {b' : Nat} {key : BlockHashWithGroupId H} :
    pool'.HasKey b' key ↔ pool.HasKey b' key ∧ b' ≠ b := by
  rw [HasKey, HasKey, h.blockHash, h.otherHashes]
  by_cases hb : b' = b
  · subst hb
    simp
  · simp [hb]

theorem Indexed.removeCachedBlockHashes (h : Indexed pool) (b : Nat) :
    Unkeyed b pool (removeCachedBlockHashes b pool).2 := by
  have hothers : ∀ b', ((pool.cachedBlockHashesByBlock.erase b).get? b').getD [] =
      Function.update pool.otherHashes b [] b' := by
    intro b'
    rw [OrderedDict.get?_erase]
    by_cases hb : b' = b
    · subst hb
      simp
    · rw [if_neg hb, Function.update_of_ne hb, LinkedBlockPool.otherHashes]
  unfold LinkedBlockPool.removeCachedBlockHashes
  dsimp only
  split_ifs with hnil
  · -- The block has no key: nothing changes but an entry that is empty anyway.
    obtain ⟨hhash, hother⟩ := List.append_eq_nil_iff.mp hnil
    have hnone : pool.blockHash b = none := by simpa using hhash
    have hother' : Function.update pool.otherHashes b [] = pool.otherHashes := by
      rw [← hother, Function.update_eq_self]
    have hsame : LinkedBlockPool.otherHashes
        { pool with cachedBlockHashesByBlock := pool.cachedBlockHashesByBlock.erase b } = pool.otherHashes := by
      funext b'
      exact (hothers b').trans (congrFun hother' b')
    refine ⟨⟨rfl, rfl, rfl, rfl, rfl, rfl⟩, ⟨h.full, fun key b' => ?_, h.tokens, fun b' hb' => ?_⟩, ?_, ?_, ?_⟩
    · rw [h.index, HasKey, HasKey, hsame]
    · rw [hsame]
      exact h.others b' hb'
    · rw [← hnone, Function.update_eq_self]
    · have htokens : pool.blockHashNumTokens b = none := by
        rw [← Option.not_isSome_iff_eq_none, h.tokens, hnone]
        simp
      rw [← htokens, Function.update_eq_self]
    · rw [hsame, hother']
  · have hpopped : ∀ key, key ∈ (pool.blockHash b).toList ++ pool.otherHashes b ↔ pool.HasKey b key := by
      intro key
      rw [List.mem_append, Option.mem_toList]
      exact Iff.rfl
    refine ⟨⟨rfl, rfl, rfl, rfl, rfl, rfl⟩, ⟨full_popHashes h.full, fun key b' => ?_, fun b' => ?_, fun b' hb' => ?_⟩,
      rfl, rfl, funext hothers⟩
    · rw [mem_blocksAt_popHashes, h.index, hpopped]
      show _ ↔ Function.update pool.blockHash b none b' = some key ∨ key ∈ ((_ : OrderedDict _ _).get? b').getD []
      rw [hothers]
      by_cases hb : b' = b
      · subst hb
        simp
      · simp [hb, HasKey]
    · show (Function.update pool.blockHashNumTokens b none b').isSome =
        (Function.update pool.blockHash b none b').isSome
      by_cases hb : b' = b
      · subst hb
        simp
      · rw [Function.update_of_ne hb, Function.update_of_ne hb, h.tokens]
    · refine (hothers b').trans ?_
      replace hb' : Function.update pool.blockHash b none b' = none := hb'
      by_cases hb : b' = b
      · subst hb
        simp
      · rw [Function.update_of_ne hb] at hb' ⊢
        exact h.others b' hb'

/-- What a key adds to the prefix cache. A block that had no hash takes it as its own. -/
structure Keyed (key : BlockHashWithGroupId H) (b numTokens : Nat) (pool pool' : LinkedBlockPool H) : Prop where
  core : SameCore pool pool'
  indexed : Indexed pool'
  hasKey : ∀ b' key', pool'.HasKey b' key' ↔ pool.HasKey b' key' ∨ (b' = b ∧ key' = key)
  blockHash : ∀ b', pool'.blockHash b' = if b' = b ∧ pool.blockHash b = none then some key else pool.blockHash b'
  numTokens : ∀ b', pool'.blockHashNumTokens b' =
    if b' = b ∧ pool.blockHash b = none then some numTokens else pool.blockHashNumTokens b'

theorem Indexed.keyed (h : Indexed pool) {key : BlockHashWithGroupId H} {b numTokens : Nat}
    (hcore : SameCore pool pool') (hmap : pool'.cachedBlockHashToBlock = pool.cachedBlockHashToBlock.insert key b)
    (hhash : ∀ b', pool'.blockHash b' = if b' = b ∧ pool.blockHash b = none then some key else pool.blockHash b')
    (htokens : ∀ b', pool'.blockHashNumTokens b' =
      if b' = b ∧ pool.blockHash b = none then some numTokens else pool.blockHashNumTokens b')
    (hothers : ∀ b' key', key' ∈ pool'.otherHashes b' ↔
      key' ∈ pool.otherHashes b' ∨ (b' = b ∧ key' = key ∧ pool.blockHash b ≠ none)) :
    Keyed key b numTokens pool pool' := by
  have hasKey : ∀ b' key', pool'.HasKey b' key' ↔ pool.HasKey b' key' ∨ (b' = b ∧ key' = key) := by
    intro b' key'
    rw [HasKey, HasKey, hhash, hothers]
    by_cases hb : b' = b
    · subst hb
      by_cases hnone : pool.blockHash b' = none
      · simp [hnone, h.others b' hnone, eq_comm]
      · simp [hnone, or_assoc]
    · simp [hb]
  refine ⟨hcore, ⟨?_, fun key' b' => ?_, fun b' => ?_, fun b' hb' => ?_⟩, hasKey, hhash, htokens⟩
  · rw [hmap]
    exact h.full.insert key b
  · rw [hmap, BlockHashToBlockMap.mem_blocksAt_insert, h.index, hasKey, or_comm, and_comm]
  · rw [hhash, htokens]
    split_ifs
    · rfl
    · exact h.tokens b'
  · rw [hhash] at hb'
    split_ifs at hb' with hb
    refine List.eq_nil_iff_forall_not_mem.mpr fun key' hkey' => ?_
    rcases (hothers b' key').mp hkey' with hold | ⟨rfl, -, hsome⟩
    · rw [h.others b' hb'] at hold
      exact List.not_mem_nil hold
    · exact hsome hb'

theorem Indexed.insertBlockHash (h : Indexed pool) (key : BlockHashWithGroupId H) (b numTokens : Nat) :
    Eff.wp (insertBlockHash key b (some numTokens)) (fun _ => Keyed key b numTokens pool) (fun _ _ => False) pool := by
  have hknown : pool.HasKey b key → Keyed key b numTokens pool pool := by
    intro hkey
    have hsome : pool.blockHash b ≠ none := by
      intro hnone
      rcases hkey with hkey | hkey
      · rw [hnone] at hkey
        cases hkey
      · rw [h.others b hnone] at hkey
        exact List.not_mem_nil hkey
    refine ⟨SameCore.refl _, h, fun b' key' => ⟨Or.inl, ?_⟩, fun b' => ?_, fun b' => ?_⟩
    · rintro (hold | ⟨rfl, rfl⟩)
      · exact hold
      · exact hkey
    · rw [if_neg fun hb => hsome hb.2]
    · rw [if_neg fun hb => hsome hb.2]
  simp only [LinkedBlockPool.insertBlockHash, Eff.wp_bind, Eff.wp_read]
  split_ifs with hown hcontain hnone
  · exact hknown (Or.inl hown)
  · exact hknown ((h.index key b).mp (BlockHashToBlockMap.contain_iff.mp hcontain))
  · have htokens : pool.blockHashNumTokens b = none := by
      rw [← Option.not_isSome_iff_eq_none, h.tokens, hnone]
      simp
    simp only [setBlockHash, Eff.wp_bind, Eff.wp_read, hnone, htokens, and_self, if_true, Eff.wp_modify]
    refine h.keyed ⟨rfl, rfl, rfl, rfl, rfl, rfl⟩ rfl (fun b' => ?_) (fun b' => ?_) fun b' key' => ?_
    · simp only [hnone, and_true]
      exact Function.update_apply _ _ _ _
    · simp only [hnone, and_true]
      exact Function.update_apply _ _ _ _
    · simp only [hnone, ne_eq, not_true_eq_false, and_false, or_false]
      exact Iff.rfl
  · simp only [Eff.wp_bind, Eff.wp_modify]
    refine h.keyed ⟨rfl, rfl, rfl, rfl, rfl, rfl⟩ rfl (fun b' => ?_) (fun b' => ?_) fun b' key' => ?_
    · rw [if_neg fun hb => hnone hb.2]
      rfl
    · rw [if_neg fun hb => hnone hb.2]
      rfl
    · show key' ∈ ((pool.cachedBlockHashesByBlock.set b _).get? b').getD [] ↔ _
      rw [OrderedDict.get?_set]
      by_cases hb : b' = b
      · subst hb
        simp [hnone, or_comm]
      · simp [hb, LinkedBlockPool.otherHashes]

end Index

end LinkedBlockPool
end KVOffload

import KVOffload.StagingIsolation
import KVOffload.VllmPrefixCache

/-! The block pool in memory against the block pool of reference counts and a list. Whatever vLLM does
with the pool, the linked queue stands for the list, no assertion of the code fails, and the prefix
cache leads to a block exactly as long as the block knows of the key. -/

namespace KVOffload
open Base

variable {H : Type} [DecidableEq H]

namespace LinkedBlockPool

section Relation

/-- The two pools describe the same blocks. -/
structure Refines (numBlocks : Nat) (lp : LinkedBlockPool H) (pool : BlockPool) : Prop where
  size : lp.numGpuBlocks = numBlocks
  caching : lp.enableCaching = pool.enableCaching
  refCnt : lp.refCnt = pool.refCnt
  queue : lp.freeBlockQueue.Represents pool.freeQueue
  hashed : ∀ b, b ∈ pool.hashed ↔ (lp.blockHash b).isSome = true
  null : ∀ b, lp.isNull b = true ↔ b = BlockPool.nullBlock
  indexed : Indexed lp

/-- The fields of the prefix cache. -/
structure SameHashes (lp lp' : LinkedBlockPool H) : Prop where
  map : lp'.cachedBlockHashToBlock = lp.cachedBlockHashToBlock
  blockHash : lp'.blockHash = lp.blockHash
  numTokens : lp'.blockHashNumTokens = lp.blockHashNumTokens
  byBlock : lp'.cachedBlockHashesByBlock = lp.cachedBlockHashesByBlock

variable {numBlocks tail : Nat} {held : Nat → Nat} {lp lp' : LinkedBlockPool H} {pool : BlockPool}

omit [DecidableEq H] in
theorem SameHashes.refl (lp : LinkedBlockPool H) : SameHashes lp lp := ⟨rfl, rfl, rfl, rfl⟩

omit [DecidableEq H] in
theorem SameHashes.trans {lp'' : LinkedBlockPool H} (h : SameHashes lp lp') (h' : SameHashes lp' lp'') :
    SameHashes lp lp'' :=
  ⟨h'.1.trans h.1, h'.2.trans h.2, h'.3.trans h.3, h'.4.trans h.4⟩

omit [DecidableEq H] in
theorem SameHashes.hasKey (h : SameHashes lp lp') {b : Nat} {key : BlockHashWithGroupId H} :
    lp'.HasKey b key ↔ lp.HasKey b key := by
  rw [HasKey, HasKey, otherHashes, otherHashes, h.blockHash, h.byBlock]

omit [DecidableEq H] in
theorem wp_onQueue {α : Type} (m : QueueM α) {Q : α → LinkedBlockPool H → Prop}
    {E : BlockPoolError → LinkedBlockPool H → Prop} :
    Eff.wp (onQueue m) Q E lp ↔
      Eff.wp m (fun a queue => Q a { lp with freeBlockQueue := queue })
        (fun e queue => E e { lp with freeBlockQueue := queue })
        lp.freeBlockQueue :=
  Eff.wp_zoom _ _ m

theorem Refines.isNull_eq_false (h : Refines numBlocks lp pool) {b : Nat} (hb : b ≠ BlockPool.nullBlock) :
    lp.isNull b = false := by
  rw [← Bool.not_eq_true, h.null]
  exact hb

/-- A new pool. -/
theorem refines_init {numBlocks : Nat} (hpos : 0 < numBlocks) (enableCaching : Bool) (hashBlockSize : Nat) :
    ∃ lp : LinkedBlockPool H, init numBlocks enableCaching hashBlockSize = .ok lp ∧
      Refines numBlocks lp (BlockPool.init numBlocks enableCaching) ∧ ∀ b key, ¬lp.HasKey b key := by
  have hrange : List.range numBlocks = BlockPool.nullBlock :: (List.range numBlocks).tail := by
    obtain ⟨n, rfl⟩ := Nat.exists_eq_succ_of_ne_zero (Nat.ne_of_gt hpos)
    rw [List.range_succ_eq_map]
    rfl
  have hqueue := FreeKVCacheBlockQueue.represents_init (List.nodup_range (n := numBlocks))
  rw [hrange] at hqueue
  obtain ⟨blk, queue, hpop, hblk, hrest⟩ := Eff.exists_of_wp (FreeKVCacheBlockQueue.popleft_cons hqueue)
  rw [← hrange, hblk] at hpop
  refine ⟨_, by rw [init, if_neg (Nat.ne_of_gt hpos), hpop], ⟨rfl, rfl, rfl, hrest, fun b => ?_, fun b => ?_, ?_⟩, ?_⟩
  · simp [BlockPool.init]
  · simp
  · refine ⟨fun key blocks hget => ?_, fun key b => ?_, fun b => rfl, fun b _ => rfl⟩
    · cases hget
    · simp [HasKey, otherHashes, BlockHashToBlockMap.blocksAt, BlockHashToBlockMap.empty]
  · intro b key hkey
    simp [HasKey, otherHashes] at hkey

end Relation

section Touch

variable {numBlocks tail : Nat} {held : Nat → Nat} {lp : LinkedBlockPool H} {pool : BlockPool}

theorem Refines.touchBlock (h : Refines numBlocks lp pool) (hcounts : BlockPool.PoolCounts numBlocks tail held pool)
    (htail : tail ≤ numBlocks) {b : Nat} (hne : b ≠ BlockPool.nullBlock) (hlt : b < tail) :
    Eff.wp (touchBlock b) (fun _ lp' => Refines numBlocks lp' (pool.touch [b]) ∧ SameHashes lp lp')
      (fun _ _ => False) lp := by
  have hnull := h.isNull_eq_false hne
  have hadd : ∀ queue : FreeKVCacheBlockQueue, ∀ free, queue.Represents free →
      Refines numBlocks (addRef b { lp with freeBlockQueue := queue })
        (BlockPool.addRef { pool with freeQueue := free } b) := by
    intro queue free hqueue
    refine ⟨h.size, h.caching, ?_, hqueue, h.hashed, h.null, ?_⟩
    · show Function.update lp.refCnt b (lp.refCnt b + 1) = Function.update pool.refCnt b (pool.refCnt b + 1)
      rw [h.refCnt]
    · exact h.indexed.congr rfl rfl rfl rfl
  have hrefCnt : lp.refCnt b = pool.refCnt b := congrFun h.refCnt b
  by_cases hzero : pool.refCnt b = 0
  · have hmem : b ∈ pool.freeQueue := (hcounts.free b).mpr ⟨hne, by omega, hzero⟩
    simp only [LinkedBlockPool.touchBlock, Eff.wp_bind, Eff.wp_read, hrefCnt, hzero, hnull, and_self,
      if_true, wp_onQueue, Eff.wp_modify]
    refine Eff.wp_mono (FreeKVCacheBlockQueue.remove_mem h.queue hmem) (fun _ queue hqueue => ⟨?_, rfl, rfl, rfl, rfl⟩)
      fun _ _ hf => hf
    have htouch : pool.touch [b] = BlockPool.addRef { pool with freeQueue := pool.freeQueue.erase b } b := by
      simp only [BlockPool.touch, List.foldl_cons, List.foldl_nil, hzero, ne_eq, hne, not_false_eq_true,
        and_self, if_true]
    rw [htouch]
    exact hadd queue _ hqueue
  · simp only [LinkedBlockPool.touchBlock, Eff.wp_bind, Eff.wp_read, hrefCnt, hzero, false_and, if_false, Eff.wp_modify]
    refine ⟨?_, rfl, rfl, rfl, rfl⟩
    have htouch : pool.touch [b] = BlockPool.addRef pool b := by
      simp only [BlockPool.touch, List.foldl_cons, List.foldl_nil, hzero, false_and, if_false]
    rw [htouch]
    exact hadd lp.freeBlockQueue pool.freeQueue h.queue

/-- `touch` on blocks outside of the reserved tail. -/
theorem Refines.touch (h : Refines numBlocks lp pool) (hcounts : BlockPool.PoolCounts numBlocks tail held pool)
    (htail : tail ≤ numBlocks) {blocks : List Nat} (hblocks : ∀ b ∈ blocks, b ≠ BlockPool.nullBlock ∧ b < tail) :
    Eff.wp (touch blocks) (fun _ lp' => Refines numBlocks lp' (pool.touch blocks) ∧ SameHashes lp lp')
      (fun _ _ => False) lp := by
  refine Eff.wp_forEach_done (I := fun done lp' => Refines numBlocks lp' (pool.touch done) ∧ SameHashes lp lp')
    ⟨h, SameHashes.refl _⟩ fun done b rest hsplit lp' hlp' => ?_
  have hdone : ∀ b ∈ done, b ≠ BlockPool.nullBlock ∧ b < tail := fun b hb =>
    hblocks b (hsplit ▸ List.mem_append_left _ hb)
  obtain ⟨hne, hlt⟩ := hblocks b (hsplit ▸ List.mem_append_right done List.mem_cons_self)
  have htouch : pool.touch (done ++ [b]) = (pool.touch done).touch [b] := List.foldl_append
  rw [htouch]
  refine Eff.wp_mono (hlp'.1.touchBlock (hcounts.touch hdone) htail hne hlt) (fun _ _ hend => ?_) fun _ _ hf => hf
  exact ⟨hend.1, hlp'.2.trans hend.2⟩

end Touch

section Allocate

variable {numBlocks tail : Nat} {held : Nat → Nat} {lp lp' : LinkedBlockPool H} {pool : BlockPool}

/-- The blocks of `done` were handed out: one more reference each, and no key. -/
structure Allocated (done : List Nat) (lp lp' : LinkedBlockPool H) : Prop where
  core : SameCore { lp with refCnt := fun b => lp.refCnt b + done.count b } lp'
  indexed : Indexed lp'
  blockHash : ∀ b, lp'.blockHash b = if lp.enableCaching = true ∧ b ∈ done then none else lp.blockHash b
  hasKey : ∀ b key, lp'.HasKey b key ↔ lp.HasKey b key ∧ ¬(lp.enableCaching = true ∧ b ∈ done)

theorem allocated_nil (h : Indexed lp) : Allocated [] lp lp := by
  refine ⟨⟨rfl, rfl, rfl, rfl, ?_, rfl⟩, h, fun b => by simp, fun b key => by simp⟩
  funext b
  simp

/-- The keys of a block that is handed out. -/
theorem Allocated.evict {done : List Nat} (h : Allocated done lp lp') (b : Nat) :
    let evicted := if lp'.enableCaching then (removeCachedBlockHashes b lp').2 else lp'
    SameCore lp' evicted ∧ Indexed evicted ∧
      (∀ c, evicted.blockHash c = if lp.enableCaching = true ∧ c ∈ done ++ [b] then none else lp.blockHash c) ∧
      ∀ c key, evicted.HasKey c key ↔ lp.HasKey c key ∧ ¬(lp.enableCaching = true ∧ c ∈ done ++ [b]) := by
  have hcaching : lp'.enableCaching = lp.enableCaching := h.core.enableCaching
  dsimp only
  by_cases hon : lp.enableCaching = true
  · have hunkeyed := h.indexed.removeCachedBlockHashes b
    rw [hcaching, if_pos hon]
    refine ⟨hunkeyed.core, hunkeyed.indexed, fun c => ?_, fun c key => ?_⟩
    · rw [hunkeyed.blockHash, Function.update_apply, h.blockHash]
      by_cases hc : c = b
      · simp [hc, hon]
      · simp [hc]
    · rw [hunkeyed.hasKey, h.hasKey]
      simp only [hon, true_and, List.mem_append, List.mem_singleton, not_or, and_assoc]
  · rw [hcaching, if_neg hon]
    refine ⟨SameCore.refl _, h.indexed, fun c => ?_, fun c key => ?_⟩
    · rw [h.blockHash]
      simp [hon]
    · rw [h.hasKey]
      simp [hon]

theorem Allocated.allocateBlock {done : List Nat} (h : Allocated done lp lp') {b : Nat} (hb : b ∉ done)
    (hzero : lp.refCnt b = 0) :
    Eff.wp (allocateBlock b) (fun _ lp'' => Allocated (done ++ [b]) lp lp'') (fun _ _ => False) lp' := by
  obtain ⟨hcore, hindexed, hhash, hkey⟩ := h.evict b
  simp only [LinkedBlockPool.allocateBlock, Eff.wp_bind, Eff.wp_modify, Eff.wp_read]
  generalize (if lp'.enableCaching then (removeCachedBlockHashes b lp').2 else lp') = evicted at *
  have hrefCnt : ∀ c, evicted.refCnt c = lp.refCnt c + done.count c := fun c =>
    congrFun (hcore.refCnt.trans h.core.refCnt) c
  have hfree : evicted.refCnt b = 0 := by
    rw [hrefCnt, hzero, List.count_eq_zero_of_not_mem hb]
    rfl
  have hboth := h.core.trans hcore
  rw [if_pos hfree, Eff.wp_modify]
  refine ⟨⟨hboth.1, hboth.2, hboth.3, hboth.4, ?_, hboth.6⟩, hindexed.congr rfl rfl rfl rfl, hhash, hkey⟩
  funext c
  show Function.update evicted.refCnt b (evicted.refCnt b + 1) c = lp.refCnt c + (done ++ [b]).count c
  rw [List.count_append, List.count_singleton, Function.update_apply]
  by_cases hc : c = b
  · rw [hc, if_pos rfl, hrefCnt]
    simp
    omega
  · rw [if_neg hc, hrefCnt]
    simp [Ne.symm hc]

theorem mapM_blockId? (ids : List Nat) : (ids.map KVCacheBlock.block).mapM KVCacheBlock.blockId? = some ids := by
  induction ids with
  | nil => rfl
  | cons x rest ih =>
      rw [List.map_cons, List.mapM_cons, ih]
      rfl

/-- `get_new_blocks` hands out the blocks at the front of the queue, or raises if it has too few. -/
theorem Refines.getNewBlocks (h : Refines numBlocks lp pool)
    (hcounts : BlockPool.PoolCounts numBlocks tail held pool) (n : Nat) :
    Eff.wp (getNewBlocks n)
      (fun blocks lp' => (∃ pool', pool.getNewBlocks n = (.ok blocks, pool') ∧ Refines numBlocks lp' pool') ∧
        ∀ b key, lp'.HasKey b key ↔ lp.HasKey b key ∧ ¬(pool.enableCaching = true ∧ b ∈ blocks))
      (fun e lp' => e = .cannotGetBlocks n ∧ lp' = lp ∧ pool.getNewBlocks n = (.error (.noFreeBlocks n), pool)) lp := by
  simp only [LinkedBlockPool.getNewBlocks, Eff.wp_bind, Eff.wp_read]
  have hcount := h.queue.count
  by_cases hshort : pool.freeQueue.length < n
  · rw [if_pos (by omega)]
    refine ⟨rfl, rfl, ?_⟩
    rw [BlockPool.getNewBlocks, if_pos hshort]
  · rw [if_neg (by omega)]
    have hlen : (pool.freeQueue.take n).length = n := List.length_take_of_le (by omega)
    have hsplit : lp.freeBlockQueue.Represents (pool.freeQueue.take n ++ pool.freeQueue.drop n) := by
      rw [List.take_append_drop]
      exact h.queue
    have hpop := FreeKVCacheBlockQueue.popleftN_spec hsplit
    rw [hlen] at hpop
    have habstract : pool.getNewBlocks n = (.ok (pool.freeQueue.take n), (pool.freeQueue.take n).foldl BlockPool.addRef
        { pool with
          freeQueue := pool.freeQueue.drop n
          hashed := if pool.enableCaching then pool.hashed \ (pool.freeQueue.take n).toFinset else pool.hashed }) := by
      rw [BlockPool.getNewBlocks, if_neg hshort]
    obtain ⟨hnodup, hsub, -⟩ := hcounts.getNewBlocks habstract
    simp only [Eff.wp_bind, wp_onQueue]
    refine Eff.wp_mono hpop ?_ fun _ _ hf => hf.elim
    rintro ret queue ⟨rfl, hqueue⟩
    rw [mapM_blockId?]
    simp only [Eff.wp_bind, Eff.wp_pure]
    generalize pool.freeQueue.take n = blocks at *
    have hloop : Eff.wp (Eff.forEach blocks LinkedBlockPool.allocateBlock)
        (fun _ => Allocated blocks { lp with freeBlockQueue := queue }) (fun _ _ => False)
        { lp with freeBlockQueue := queue } := by
      refine Eff.wp_forEach_done (I := fun done lp' => Allocated done { lp with freeBlockQueue := queue } lp')
        (allocated_nil (h.indexed.congr rfl rfl rfl rfl)) fun done b rest hsplit lp' hlp' => ?_
      have hb : b ∉ done := by
        rw [hsplit] at hnodup
        exact fun hin => (List.nodup_append.mp hnodup).2.2 b hin b List.mem_cons_self rfl
      refine hlp'.allocateBlock hb ?_
      have hmem : b ∈ pool.freeQueue := hsub (hsplit ▸ List.mem_append_right done List.mem_cons_self)
      exact (congrFun h.refCnt b).trans (hcounts.of_mem_freeQueue hmem).2.2.2
    refine Eff.wp_mono hloop (fun _ lp' hlp' => ⟨⟨_, habstract, ?_⟩, fun b key => ?_⟩) fun _ _ hf => hf.elim
    · rw [BlockPool.foldl_addRef]
      refine ⟨hlp'.core.numGpuBlocks.trans h.size, hlp'.core.enableCaching.trans h.caching, ?_, ?_, fun b => ?_,
        fun b => ?_, hlp'.indexed⟩
      · rw [hlp'.core.refCnt]
        funext b
        show lp.refCnt b + _ = pool.refCnt b + _
        rw [h.refCnt]
      · rw [hlp'.core.freeBlockQueue]
        exact hqueue
      · show b ∈ (if pool.enableCaching then pool.hashed \ blocks.toFinset else pool.hashed) ↔ _
        rw [hlp'.blockHash]
        show _ ↔ (if lp.enableCaching = true ∧ b ∈ blocks then none else lp.blockHash b).isSome = true
        rw [h.caching]
        by_cases hon : pool.enableCaching = true
        · by_cases hb : b ∈ blocks
          · simp [hon, hb]
          · simp [hon, hb, h.hashed b]
        · simp [hon, h.hashed b]
      · rw [hlp'.core.isNull]
        exact h.null b
    · rw [hlp'.hasKey, ← h.caching]
      exact Iff.rfl

end Allocate

section Free

variable {numBlocks tail : Nat} {held : Nat → Nat} {lp : LinkedBlockPool H} {pool : BlockPool}

omit [DecidableEq H] in
/-- The loop of `free_blocks` sorts the blocks that became free by whether they can be found in the prefix cache. -/
theorem dropRefs_eq (blocks : List Nat) (hrefCnt : lp.refCnt = pool.refCnt)
    (hnull : ∀ b, lp.isNull b = true ↔ b = BlockPool.nullBlock) :
    (dropRefs blocks lp).1.1 = (BlockPool.dropRefs pool blocks).1.filter
        (fun b => decide (lp.blockHash b = none ∨ lp.enableCaching = false)) ∧
      (dropRefs blocks lp).1.2 = (BlockPool.dropRefs pool blocks).1.filter
        (fun b => !decide (lp.blockHash b = none ∨ lp.enableCaching = false)) ∧
      (dropRefs blocks lp).2 = { lp with refCnt := (BlockPool.dropRefs pool blocks).2.refCnt } := by
  induction blocks generalizing lp pool with
  | nil =>
      refine ⟨rfl, rfl, ?_⟩
      rw [BlockPool.dropRefs, ← hrefCnt]
      rfl
  | cons b rest ih =>
      have hdropped : (dropRef b lp).refCnt = (pool.dropRef b).refCnt := by
        show Function.update lp.refCnt b (lp.refCnt b - 1) = Function.update pool.refCnt b (pool.refCnt b - 1)
        rw [hrefCnt]
      obtain ⟨hfirst, hlast, hpool⟩ := @ih (dropRef b lp) (pool.dropRef b) hdropped hnull
      have hfalse : lp.isNull b = false ↔ b ≠ BlockPool.nullBlock := by
        rw [← Bool.not_eq_true, hnull]
      have hfree : ((dropRef b lp).refCnt b = 0 ∧ (dropRef b lp).isNull b = false) ↔
          ((pool.dropRef b).refCnt b = 0 ∧ b ≠ BlockPool.nullBlock) := by
        rw [hdropped]
        exact and_congr_right fun _ => hfalse
      rw [dropRefs, BlockPool.dropRefs]
      dsimp only
      by_cases hzero : (pool.dropRef b).refCnt b = 0 ∧ b ≠ BlockPool.nullBlock
      · rw [if_pos (hfree.mpr hzero), if_pos hzero]
        by_cases huncached : (dropRef b lp).blockHash b = none ∨ (dropRef b lp).enableCaching = false
        · have hsame : lp.blockHash b = none ∨ lp.enableCaching = false := huncached
          rw [if_pos huncached]
          simp only [List.filter_cons, hsame, decide_true, if_true, Bool.not_true, Bool.false_eq_true, if_false]
          exact ⟨congrArg (List.cons b) hfirst, hlast, hpool⟩
        · have hsame : ¬(lp.blockHash b = none ∨ lp.enableCaching = false) := huncached
          rw [if_neg huncached]
          simp only [List.filter_cons, hsame, decide_false, if_true, Bool.not_false, Bool.false_eq_true, if_false]
          exact ⟨hfirst, congrArg (List.cons b) hlast, hpool⟩
      · rw [if_neg (mt hfree.mp hzero), if_neg hzero]
        exact ⟨hfirst, hlast, hpool⟩

/-- `free_blocks` on held blocks. -/
theorem Refines.freeBlocks (h : Refines numBlocks lp pool) (hcounts : BlockPool.PoolCounts numBlocks tail held pool)
    (htail : tail ≤ numBlocks) {blocks : List Nat} (hblocks : ∀ b, b ≠ BlockPool.nullBlock → blocks.count b ≤ held b) :
    Eff.wp (freeBlocks blocks) (fun _ lp' => Refines numBlocks lp' (pool.freeBlocks blocks) ∧ SameHashes lp lp')
      (fun _ _ => False) lp := by
  obtain ⟨hfirst, hlast, hpool⟩ := dropRefs_eq blocks h.refCnt h.null
  have hcached : ∀ b, decide (lp.blockHash b = none ∨ lp.enableCaching = false) =
      !(decide (b ∈ pool.hashed) && pool.enableCaching) := by
    intro b
    rw [← h.caching, Bool.eq_iff_iff, decide_eq_true_iff, Bool.not_eq_true', Bool.and_eq_false_iff,
      decide_eq_false_iff_not, h.hashed b, Option.not_isSome_iff_eq_none]
  simp only [hcached, Bool.not_not] at hfirst hlast
  have hnodup := (hcounts.freeBlocks htail hblocks).nodup
  have hqueue : (pool.freeBlocks blocks).freeQueue =
      ((dropRefs blocks lp).1.1 ++ pool.freeQueue) ++ (dropRefs blocks lp).1.2 := by
    rw [hfirst, hlast]
    rfl
  rw [hqueue] at hnodup
  simp only [LinkedBlockPool.freeBlocks, Eff.wp_bind, Eff.wp_read, Eff.wp_modify, wp_onQueue]
  have hsame : (dropRefs blocks lp).2.freeBlockQueue = lp.freeBlockQueue := by rw [hpool]
  rw [hsame]
  refine Eff.wp_mono (FreeKVCacheBlockQueue.prependN_spec h.queue (List.nodup_append.mp hnodup).1) ?_ fun _ _ hf => hf
  intro _ queue hprepended
  refine Eff.wp_mono (FreeKVCacheBlockQueue.appendN_spec hprepended hnodup) ?_ fun _ _ hf => hf
  intro _ queue' happended
  rw [hpool]
  have hle : ∀ b, b ≠ BlockPool.nullBlock → (blocks.count b : Int) ≤ pool.refCnt b := by
    intro b hb
    have := hblocks b hb
    rw [hcounts.count b hb]
    split_ifs <;> omega
  obtain ⟨hdropped, -, -⟩ := BlockPool.dropRefs_spec hle
  refine ⟨⟨h.size, ?_, rfl, ?_, fun b => ?_, h.null, h.indexed.congr rfl rfl rfl rfl⟩, rfl, rfl, rfl, rfl⟩
  · show lp.enableCaching = (BlockPool.dropRefs pool blocks).2.enableCaching
    rw [hdropped]
    exact h.caching
  · rw [hqueue]
    exact happended
  · show b ∈ (BlockPool.dropRefs pool blocks).2.hashed ↔ _
    rw [hdropped]
    exact h.hashed b

end Free

section Hashes

variable {numBlocks : Nat} {lp : LinkedBlockPool H} {pool : BlockPool}

theorem Refines.evictBlocks (h : Refines numBlocks lp pool) {ids : List Nat} (hids : ∀ b ∈ ids, b < numBlocks) :
    Eff.wp (evictBlocks ids)
      (fun _ lp' => Refines numBlocks lp' (pool.evictBlocks ids) ∧ ∀ b key, lp'.HasKey b key ↔
        lp.HasKey b key ∧ b ∉ ids)
      (fun _ _ => False) lp := by
  refine Eff.wp_forEach_done (I := fun done lp' => Refines numBlocks lp' (pool.evictBlocks done) ∧
    ∀ b key, lp'.HasKey b key ↔ lp.HasKey b key ∧ b ∉ done)
      ⟨?_, fun b key => by simp⟩ fun done b rest hsplit lp' hlp' => ?_
  · have hnone : pool.evictBlocks [] = pool := by simp [BlockPool.evictBlocks]
    rw [hnone]
    exact h
  · obtain ⟨hrefines, hkeys⟩ := hlp'
    have hb : b < numBlocks := hids b (hsplit ▸ List.mem_append_right done List.mem_cons_self)
    have hunkeyed := hrefines.indexed.removeCachedBlockHashes b
    have hsize : lp'.numGpuBlocks = numBlocks := hrefines.size
    simp only [Eff.wp_bind, Eff.wp_read, hsize, Nat.not_le.mpr hb, if_false, Eff.wp_modify]
    refine ⟨⟨hunkeyed.core.numGpuBlocks.trans hsize, hunkeyed.core.enableCaching.trans hrefines.caching,
      hunkeyed.core.refCnt.trans hrefines.refCnt, hunkeyed.core.freeBlockQueue ▸ hrefines.queue, fun c => ?_,
      hunkeyed.core.isNull ▸ hrefines.null, hunkeyed.indexed⟩, fun c key => ?_⟩
    · have hold := hrefines.hashed c
      simp only [BlockPool.evictBlocks, Finset.mem_sdiff, List.mem_toFinset, List.mem_append, List.mem_singleton,
        not_or] at hold ⊢
      rw [hunkeyed.blockHash, Function.update_apply, ← and_assoc, hold]
      by_cases hc : c = b
      · simp [hc]
      · simp [hc]
    · rw [hunkeyed.hasKey, hkeys, List.mem_append, List.mem_singleton, not_or, and_assoc]

/-- The block is given a key as its own; no other block is concerned. -/
structure Cached (key : BlockHashWithGroupId H) (b : Nat) (lp lp' : LinkedBlockPool H) : Prop where
  core : SameCore lp lp'
  indexed : Indexed lp'
  keys : ∀ key', lp'.HasKey b key' → lp.HasKey b key' ∨ key' = key
  other : ∀ c, c ≠ b → lp'.blockHash c = lp.blockHash c ∧ lp'.blockHashNumTokens c = lp.blockHashNumTokens c ∧
    ∀ key', lp'.HasKey c key' ↔ lp.HasKey c key'

theorem Keyed.cached {key : BlockHashWithGroupId H} {b n : Nat} {lp' : LinkedBlockPool H} (h : Keyed key b n lp lp') :
    Cached key b lp lp' := by
  refine ⟨h.core, h.indexed, fun key' hkey' => ?_, fun c hc => ⟨?_, ?_, fun key' => ?_⟩⟩
  · rcases (h.hasKey b key').mp hkey' with hold | hnew
    · exact Or.inl hold
    · exact Or.inr hnew.2
  · rw [h.blockHash, if_neg fun heq => hc heq.1]
  · rw [h.numTokens, if_neg fun heq => hc heq.1]
  · rw [h.hasKey]
    simp [hc]

/-- Taking a block's keys away before it is given a new one. -/
theorem Unkeyed.cached {key : BlockHashWithGroupId H} {b : Nat} {lp' lp'' : LinkedBlockPool H} (h : Unkeyed b lp lp')
    (h' : Cached key b lp' lp'') : Cached key b lp lp'' := by
  refine ⟨h.core.trans h'.core, h'.indexed, fun key' hkey' => ?_, fun c hc => ?_⟩
  · rcases h'.keys key' hkey' with hold | hnew
    · exact Or.inl (h.hasKey.mp hold).1
    · exact Or.inr hnew
  · obtain ⟨hhash, htokens, hkeys⟩ := h'.other c hc
    refine ⟨?_, ?_, fun key' => ?_⟩
    · rw [hhash, h.blockHash, Function.update_of_ne hc]
    · rw [htokens, h.numTokens, Function.update_of_ne hc]
    · rw [hkeys, h.hasKey]
      simp [hc]

/-- The body of the loop of `cache_full_blocks`, for a block that is not skipped. -/
theorem Indexed.cacheFullBlock (h : Indexed lp) {blockHashes : List H} {numCachedBlocks blockSize groupId b i : Nat}
    {blockMask : Option (List Bool)} {blockHash : H} (hnull : lp.isNull b = false)
    (hmask : maskedOut blockMask i = false) (hhash : blockHashes[numCachedBlocks + i]? = some blockHash)
    (hpromoted : lp.blockHash b = none ∨
      (lp.blockHashNumTokens b).any (· < (numCachedBlocks + i + 1) * blockSize) = true) :
    Eff.wp (cacheFullBlock blockHashes numCachedBlocks blockSize groupId blockMask b i)
      (fun _ lp' => Cached (makeBlockHashWithGroupId blockHash groupId) b lp lp' ∧
        lp'.blockHash b = some (makeBlockHashWithGroupId blockHash groupId))
      (fun _ _ => False) lp := by
  simp only [LinkedBlockPool.cacheFullBlock, Eff.wp_bind, Eff.wp_read, hnull, hmask, Bool.or_self, Bool.false_eq_true,
    if_false, hhash]
  by_cases hsome : (lp.blockHash b).isSome = true
  · have hany := hpromoted.resolve_left (Option.isSome_iff_ne_none.mp hsome)
    have hunkeyed := h.removeCachedBlockHashes b
    simp only [hsome, hany, if_true]
    refine Eff.wp_mono (hunkeyed.indexed.insertBlockHash _ b _)
      (fun _ lp' hkeyed => ⟨hunkeyed.cached hkeyed.cached, ?_⟩)
      fun _ _ hf => hf
    rw [hkeyed.blockHash, if_pos ⟨rfl, by rw [hunkeyed.blockHash, Function.update_self]⟩]
  · have hnone : lp.blockHash b = none := Option.not_isSome_iff_eq_none.mp hsome
    simp only [hsome, if_false, Bool.false_eq_true]
    refine Eff.wp_mono (h.insertBlockHash _ b _) (fun _ lp' hkeyed => ⟨hkeyed.cached, ?_⟩) fun _ _ hf => hf
    rw [hkeyed.blockHash, if_pos ⟨rfl, hnone⟩]

/-- The new full blocks that are not skipped, each with its position. -/
def activeBlocks (lp : LinkedBlockPool H) (newFullBlocks : List Nat) (blockMask : Option (List Bool)) :
    List (Nat × Nat) :=
  newFullBlocks.zipIdx.filter fun e => !(lp.isNull e.1 || maskedOut blockMask e.2)

/-- The blocks are distinct, each has a hash at its position, and a block that was found by part of its tokens
before is now found by more of them. -/
def Cacheable (lp : LinkedBlockPool H) (blockHashes : List H) (newFullBlocks : List Nat)
    (numCachedBlocks blockSize : Nat) (blockMask : Option (List Bool)) : Prop :=
  ((lp.activeBlocks newFullBlocks blockMask).map Prod.fst).Nodup ∧
    ∀ e ∈ lp.activeBlocks newFullBlocks blockMask, numCachedBlocks + e.2 < blockHashes.length ∧
      (lp.blockHash e.1 = none ∨ (lp.blockHashNumTokens e.1).any (· < (numCachedBlocks + e.2 + 1) * blockSize) = true)

instance (lp : LinkedBlockPool H) (blockHashes : List H) (newFullBlocks : List Nat) (numCachedBlocks blockSize : Nat)
    (blockMask : Option (List Bool)) :
    Decidable (lp.Cacheable blockHashes newFullBlocks numCachedBlocks blockSize blockMask) :=
  inferInstanceAs (Decidable (_ ∧ ∀ e ∈ lp.activeBlocks newFullBlocks blockMask, _ ∧ _))

/-- What the loop of `cache_full_blocks` has done after the blocks `done`. -/
structure CachedAll (blockHashes : List H) (numCachedBlocks groupId : Nat) (done : List (Nat × Nat))
    (lp lp' : LinkedBlockPool H) : Prop where
  core : SameCore lp lp'
  indexed : Indexed lp'
  keys : ∀ b key, lp'.HasKey b key → lp.HasKey b key ∨
    ∃ i blockHash, (b, i) ∈ done ∧ blockHashes[numCachedBlocks + i]? = some blockHash ∧
      key = makeBlockHashWithGroupId blockHash groupId
  made : ∀ e ∈ done, ∃ blockHash, blockHashes[numCachedBlocks + e.2]? = some blockHash ∧
    lp'.blockHash e.1 = some (makeBlockHashWithGroupId blockHash groupId)
  other : ∀ c ∉ done.map Prod.fst, lp'.blockHash c = lp.blockHash c ∧
    lp'.blockHashNumTokens c = lp.blockHashNumTokens c ∧
    ∀ key', lp'.HasKey c key' ↔ lp.HasKey c key'

theorem CachedAll.step {blockHashes : List H} {numCachedBlocks groupId : Nat} {done : List (Nat × Nat)}
    {lp' lp'' : LinkedBlockPool H} (h : CachedAll blockHashes numCachedBlocks groupId done lp lp') {e : Nat × Nat}
    {blockHash : H} (he : e.1 ∉ done.map Prod.fst) (hhash : blockHashes[numCachedBlocks + e.2]? = some blockHash)
    (hcached : Cached (makeBlockHashWithGroupId blockHash groupId) e.1 lp' lp'')
    (hmade : lp''.blockHash e.1 = some (makeBlockHashWithGroupId blockHash groupId)) :
    CachedAll blockHashes numCachedBlocks groupId (done ++ [e]) lp lp'' := by
  refine ⟨h.core.trans hcached.core, hcached.indexed, fun b key hkey => ?_, fun e' he' => ?_, fun c hc => ?_⟩
  · by_cases hb : b = e.1
    · subst hb
      rcases hcached.keys key hkey with hold | rfl
      · rcases h.keys _ key hold with hfirst | ⟨i, hash, hmem, hrest⟩
        · exact Or.inl hfirst
        · exact Or.inr ⟨i, hash, List.mem_append_left _ hmem, hrest⟩
      · exact Or.inr ⟨e.2, blockHash, List.mem_append_right _ List.mem_cons_self, hhash, rfl⟩
    · rcases h.keys b key (((hcached.other b hb).2.2 key).mp hkey) with hfirst | ⟨i, hash, hmem, hrest⟩
      · exact Or.inl hfirst
      · exact Or.inr ⟨i, hash, List.mem_append_left _ hmem, hrest⟩
  · rcases List.mem_append.mp he' with hdone | hlast
    · obtain ⟨hash, hget, hfound⟩ := h.made e' hdone
      have hne : e'.1 ≠ e.1 := fun heq => he (heq ▸ List.mem_map_of_mem hdone)
      exact ⟨hash, hget, (hcached.other e'.1 hne).1.trans hfound⟩
    · rw [List.mem_singleton.mp hlast]
      exact ⟨blockHash, hhash, hmade⟩
  · rw [List.map_append, List.mem_append, not_or] at hc
    have hne : c ≠ e.1 := fun heq => hc.2 (heq ▸ List.mem_cons_self)
    obtain ⟨hfirst, hsecond, hthird⟩ := h.other c hc.1
    obtain ⟨hfirst', hsecond', hthird'⟩ := hcached.other c hne
    exact ⟨hfirst'.trans hfirst, hsecond'.trans hsecond, fun key' => (hthird' key').trans (hthird key')⟩

theorem Indexed.cacheLoop (h : Indexed lp) {blockHashes : List H} {numCachedBlocks blockSize : Nat} (groupId : Nat)
    {blockMask : Option (List Bool)} {newFullBlocks : List Nat}
    (hcacheable : lp.Cacheable blockHashes newFullBlocks numCachedBlocks blockSize blockMask) :
    Eff.wp
      (Eff.forEach newFullBlocks.zipIdx fun e =>
        LinkedBlockPool.cacheFullBlock blockHashes numCachedBlocks blockSize groupId blockMask e.1 e.2)
      (fun _ => CachedAll blockHashes numCachedBlocks groupId (lp.activeBlocks newFullBlocks blockMask) lp)
      (fun _ _ => False) lp := by
  obtain ⟨hnodup, hblocks⟩ := hcacheable
  have hstart : CachedAll blockHashes numCachedBlocks groupId [] lp lp :=
    ⟨SameCore.refl _, h, fun _ _ hkey => Or.inl hkey, nofun, fun _ _ => ⟨rfl, rfl, fun _ => Iff.rfl⟩⟩
  refine Eff.wp_forEach_done (I := fun done lp' => CachedAll blockHashes numCachedBlocks groupId
    (done.filter fun e => !(lp.isNull e.1 || maskedOut blockMask e.2)) lp lp') hstart
      fun done e rest hsplit lp' hlp' => ?_
  rw [List.filter_append]
  by_cases hskip : (lp.isNull e.1 || maskedOut blockMask e.2) = true
  · rw [List.filter_cons_of_neg (by simp [hskip]), List.filter_nil, List.append_nil]
    simp only [LinkedBlockPool.cacheFullBlock, Eff.wp_bind, Eff.wp_read, hlp'.core.isNull, hskip, if_true]
    exact hlp'
  · have hactive : lp.activeBlocks newFullBlocks blockMask =
        done.filter (fun e => !(lp.isNull e.1 || maskedOut blockMask e.2)) ++
          e :: rest.filter (fun e => !(lp.isNull e.1 || maskedOut blockMask e.2)) := by
      rw [activeBlocks, hsplit, List.filter_append, List.filter_cons_of_pos (by simpa using hskip)]
    rw [List.filter_cons_of_pos (by simpa using hskip), List.filter_nil]
    generalize done.filter (fun e => !(lp.isNull e.1 || maskedOut blockMask e.2)) = before at *
    have hout : e.1 ∉ before.map Prod.fst := by
      rw [hactive, List.map_append] at hnodup
      exact fun hin => (List.nodup_append.mp hnodup).2.2 e.1 hin e.1 (List.mem_map_of_mem List.mem_cons_self) rfl
    obtain ⟨hlen, hpromoted⟩ := hblocks e (hactive ▸ List.mem_append_right before List.mem_cons_self)
    obtain ⟨hsame, hsameTokens, -⟩ := hlp'.other e.1 hout
    rw [Bool.not_eq_true, Bool.or_eq_false_iff, ← hlp'.core.isNull] at hskip
    rw [← hsame, ← hsameTokens] at hpromoted
    refine Eff.wp_mono (hlp'.indexed.cacheFullBlock hskip.1 hskip.2 (List.getElem?_eq_getElem hlen) hpromoted)
      (fun _ lp'' hend => hlp'.step hout (List.getElem?_eq_getElem hlen) hend.1 hend.2) fun _ _ hf => hf

/-- The conditions under which a call of `cache_full_blocks` returns. -/
structure CacheCall (lp : LinkedBlockPool H) (requestHashes : List H) (newFullBlocks : List Nat)
    (numCachedBlocks blockSize : Nat) (blockMask : Option (List Bool)) (blockHashes : List H) : Prop where
  resolved : resolveBlockHashes requestHashes lp.hashBlockSize blockSize = .ok blockHashes
  mask : blockMask.any (fun mask => mask.length != newFullBlocks.length) = false
  cacheable : lp.Cacheable blockHashes newFullBlocks numCachedBlocks blockSize blockMask

theorem CachedAll.refines {blockHashes : List H} {numCachedBlocks groupId : Nat} {lp' : LinkedBlockPool H}
    {newFullBlocks : List Nat} {blockMask : Option (List Bool)}
    (hall : CachedAll blockHashes numCachedBlocks groupId (lp.activeBlocks newFullBlocks blockMask) lp lp')
    (h : Refines numBlocks lp pool) (hcaching : pool.enableCaching = true) :
    Refines numBlocks lp' (pool.cacheFullBlocks ((lp.activeBlocks newFullBlocks blockMask).map Prod.fst)) := by
  refine ⟨hall.core.numGpuBlocks.trans h.size, hall.core.enableCaching.trans h.caching, hall.core.refCnt.trans h.refCnt,
    hall.core.freeBlockQueue ▸ h.queue, fun b => ?_, hall.core.isNull ▸ h.null, hall.indexed⟩
  have hactive : ∀ c ∈ (lp.activeBlocks newFullBlocks blockMask).map Prod.fst, c ≠ BlockPool.nullBlock := by
    intro c hc hnull
    obtain ⟨e, he, rfl⟩ := List.mem_map.mp hc
    have hkept := (List.mem_filter.mp he).2
    rw [(h.null e.1).mpr hnull] at hkept
    simp at hkept
  simp only [BlockPool.cacheFullBlocks, hcaching, if_true, Finset.mem_union, List.mem_toFinset, List.mem_filter, ne_eq,
    decide_not, Bool.not_eq_true', decide_eq_false_iff_not]
  by_cases hb : b ∈ (lp.activeBlocks newFullBlocks blockMask).map Prod.fst
  · have hne := hactive b hb
    obtain ⟨e, he, rfl⟩ := List.mem_map.mp hb
    obtain ⟨hash, -, hmade⟩ := hall.made e he
    simp [hb, hne, hmade]
  · rw [(hall.other b hb).1, h.hashed]
    simp [hb]

/-- `cache_full_blocks` with caching enabled. -/
theorem Refines.cacheFullBlocks (h : Refines numBlocks lp pool) (hcaching : pool.enableCaching = true)
    {requestHashes : List H}
    {blocks : List Nat} {numCachedBlocks numFullBlocks blockSize groupId : Nat} {blockMask : Option (List Bool)}
    {blockHashes : List H}
    (hcall : CacheCall lp requestHashes ((blocks.take numFullBlocks).drop numCachedBlocks) numCachedBlocks
      blockSize blockMask blockHashes) :
    Eff.wp (cacheFullBlocks requestHashes blocks numCachedBlocks numFullBlocks blockSize groupId blockMask)
      (fun _ lp' =>
        Refines numBlocks lp' (pool.cacheFullBlocks
          ((lp.activeBlocks ((blocks.take numFullBlocks).drop numCachedBlocks) blockMask).map Prod.fst)) ∧
        CachedAll blockHashes numCachedBlocks groupId
          (lp.activeBlocks ((blocks.take numFullBlocks).drop numCachedBlocks) blockMask) lp lp')
      (fun _ _ => False) lp := by
  have hloop := h.indexed.cacheLoop groupId hcall.cacheable
  have hresult := Eff.wp_mono hloop (fun _ _ hall => And.intro (hall.refines h hcaching) hall) fun _ _ hf => hf
  unfold LinkedBlockPool.cacheFullBlocks
  split_ifs with hnone
  · have hempty : (blocks.take numFullBlocks).drop numCachedBlocks = [] :=
      List.drop_eq_nil_of_le ((List.length_take_le _ _).trans hnone)
    rw [hempty] at hresult ⊢
    exact hresult
  · have hmask := hcall.mask
    simp only [hmask, Bool.false_eq_true, if_false, Eff.wp_bind, Eff.wp_read, hcall.resolved]
    exact hresult

/-- The assertions of `cache_partial_block`. -/
def PartialCall (lp : LinkedBlockPool H) (requestHashes : List H) (numTokens blockSize : Nat) : Prop :=
  (lp.hashBlockSize < blockSize ∧ blockSize % lp.hashBlockSize = 0 ∧ numTokens % blockSize ≠ 0 ∧
    numTokens % lp.hashBlockSize = 0 ∧ 0 < numTokens / lp.hashBlockSize) ∧
    numTokens / lp.hashBlockSize - 1 < requestHashes.length

instance (lp : LinkedBlockPool H) (requestHashes : List H) (numTokens blockSize : Nat) :
    Decidable (lp.PartialCall requestHashes numTokens blockSize) :=
  inferInstanceAs (Decidable (_ ∧ _))

/-- `cache_partial_block` on a block of a request. -/
theorem Refines.cachePartialBlock (h : Refines numBlocks lp pool) (hcaching : pool.enableCaching = true)
    {requestHashes : List H}
    {b numTokens groupId blockSize : Nat} (hne : b ≠ BlockPool.nullBlock)
    (hcall : PartialCall lp requestHashes numTokens blockSize) :
    Eff.wp (cachePartialBlock requestHashes b numTokens groupId blockSize)
      (fun r lp' => ∃ blockHash, requestHashes[numTokens / lp.hashBlockSize - 1]? = some blockHash ∧
        r = some (makeBlockHashWithGroupId blockHash groupId) ∧ Refines numBlocks lp' (pool.cacheFullBlocks [b]) ∧
        Cached (makeBlockHashWithGroupId blockHash groupId) b lp lp' ∧
        lp'.HasKey b (makeBlockHashWithGroupId blockHash groupId))
      (fun _ _ => False) lp := by
  obtain ⟨hasserts, hlen⟩ := hcall
  have hget : requestHashes[numTokens / lp.hashBlockSize - 1]? = some _ := List.getElem?_eq_getElem hlen
  generalize requestHashes[numTokens / lp.hashBlockSize - 1] = blockHash at hget
  have hrefines : ∀ lp', Cached (makeBlockHashWithGroupId blockHash groupId) b lp lp' →
      (lp'.blockHash b).isSome = true → Refines numBlocks lp' (pool.cacheFullBlocks [b]) := by
    intro lp' hcached hsome
    refine ⟨hcached.core.numGpuBlocks.trans h.size, hcached.core.enableCaching.trans h.caching,
      hcached.core.refCnt.trans h.refCnt, hcached.core.freeBlockQueue ▸ h.queue, fun c => ?_,
      hcached.core.isNull ▸ h.null, hcached.indexed⟩
    by_cases hc : c = b
    · subst hc
      simp [BlockPool.cacheFullBlocks, hcaching, hne, hsome]
    · rw [(hcached.other c hc).1, ← h.hashed c]
      simp [BlockPool.cacheFullBlocks, hcaching, hne, hc]
  have hkeyedSome : ∀ (lp₁ lp' : LinkedBlockPool H) (n : Nat),
      Keyed (makeBlockHashWithGroupId blockHash groupId) b n lp₁ lp' →
      (lp'.blockHash b).isSome = true ∧ lp'.HasKey b (makeBlockHashWithGroupId blockHash groupId) := by
    intro lp₁ lp' n hkeyed
    refine ⟨?_, (hkeyed.hasKey b _).mpr (Or.inr ⟨rfl, rfl⟩)⟩
    rw [hkeyed.blockHash]
    split_ifs with hnone
    · rfl
    · exact Option.isSome_iff_ne_none.mpr fun heq => hnone ⟨rfl, heq⟩
  simp only [LinkedBlockPool.cachePartialBlock, Eff.wp_bind, Eff.wp_read, h.isNull_eq_false hne,
    Bool.false_eq_true, if_false, hasserts, ne_eq, not_true_eq_false, not_false_eq_true, and_self, hget]
  split_ifs with hreplace
  · have hunkeyed := h.indexed.removeCachedBlockHashes b
    rw [Eff.wp_bind, Eff.wp_modify, Eff.wp_bind]
    refine Eff.wp_mono (hunkeyed.indexed.insertBlockHash _ b _) (fun _ lp' hkeyed => ?_) fun _ _ hf => hf
    obtain ⟨hsome, hkey⟩ := hkeyedSome _ _ _ hkeyed
    have hcached := hunkeyed.cached hkeyed.cached
    exact ⟨blockHash, rfl, rfl, hrefines lp' hcached hsome, hcached, hkey⟩
  · rw [Eff.wp_bind]
    refine Eff.wp_mono (h.indexed.insertBlockHash _ b _) (fun _ lp' hkeyed => ?_) fun _ _ hf => hf
    obtain ⟨hsome, hkey⟩ := hkeyedSome _ _ _ hkeyed
    exact ⟨blockHash, rfl, rfl, hrefines lp' hkeyed.cached hsome, hkeyed.cached, hkey⟩

end Hashes

section Settings

/-- The settings a pool is made with. -/
structure SameSettings (lp lp' : LinkedBlockPool H) : Prop where
  enableCaching : lp'.enableCaching = lp.enableCaching
  hashBlockSize : lp'.hashBlockSize = lp.hashBlockSize

omit [DecidableEq H] in
theorem SameSettings.trans {lp lp' lp'' : LinkedBlockPool H} (h : SameSettings lp lp') (h' : SameSettings lp' lp'') :
    SameSettings lp lp'' :=
  ⟨h'.1.trans h.1, h'.2.trans h.2⟩

instance : IsPreorder (LinkedBlockPool H) SameSettings where
  refl _ := ⟨rfl, rfl⟩
  trans _ _ _ := SameSettings.trans

theorem sameSettings_removeCachedBlockHashes (b : Nat) (lp : LinkedBlockPool H) :
    SameSettings lp (removeCachedBlockHashes b lp).2 := by
  unfold removeCachedBlockHashes
  dsimp only
  split_ifs <;> exact ⟨rfl, rfl⟩

omit [DecidableEq H] in
theorem sameSettings_dropRefs (blocks : List Nat) (lp : LinkedBlockPool H) :
    SameSettings lp (dropRefs blocks lp).2 := by
  induction blocks generalizing lp with
  | nil => exact ⟨rfl, rfl⟩
  | cons b rest ih =>
      have hrest := SameSettings.trans (⟨rfl, rfl⟩ : SameSettings lp (dropRef b lp)) (ih (dropRef b lp))
      unfold dropRefs
      dsimp only
      split_ifs <;> exact hrest

omit [DecidableEq H] in
theorem moves_onQueue {α : Type} (m : QueueM α) : Eff.Moves (SameSettings (H := H)) (onQueue m) := fun _ => ⟨rfl, rfl⟩

omit [DecidableEq H] in
theorem moves_touch (blocks : List Nat) : Eff.Moves (SameSettings (H := H)) (touch blocks) := by
  refine Eff.moves_forEach fun b => Eff.moves_read.bind fun lp => ?_
  have hmodify : Eff.Moves (SameSettings (H := H)) (Eff.modify (addRef b) : PoolM H Unit) := fun _ => ⟨rfl, rfl⟩
  exact Eff.moves_ite ((moves_onQueue _).bind fun _ => hmodify) hmodify

theorem moves_getNewBlocks (n : Nat) : Eff.Moves (SameSettings (H := H)) (getNewBlocks n) := by
  refine Eff.moves_read.bind fun lp => Eff.moves_ite (Eff.moves_raise _) ((moves_onQueue _).bind fun ret => ?_)
  cases ret.mapM KVCacheBlock.blockId? with
  | none => exact Eff.moves_raise _
  | some blocks =>
      refine (Eff.moves_forEach fun b => ?_).bind fun _ => Eff.moves_pure _
      refine Eff.Moves.bind (fun lp => ?_) fun _ => Eff.moves_read.bind fun lp =>
        Eff.moves_ite (fun lp => ⟨rfl, rfl⟩) (Eff.moves_raise _)
      show SameSettings lp (if lp.enableCaching then (removeCachedBlockHashes b lp).2 else lp)
      split_ifs
      · exact sameSettings_removeCachedBlockHashes b lp
      · exact ⟨rfl, rfl⟩

omit [DecidableEq H] in
theorem moves_freeBlocks (blocks : List Nat) : Eff.Moves (SameSettings (H := H)) (freeBlocks blocks) := by
  intro lp
  have hrest : Eff.Moves (SameSettings (H := H)) (do
      onQueue (FreeKVCacheBlockQueue.prependN ((dropRefs blocks lp).1.1.map .block))
      onQueue (FreeKVCacheBlockQueue.appendN ((dropRefs blocks lp).1.2.map .block))) :=
    (moves_onQueue _).bind fun _ => moves_onQueue _
  exact (sameSettings_dropRefs blocks lp).trans (hrest (dropRefs blocks lp).2)

theorem moves_evictBlocks (ids : List Nat) : Eff.Moves (SameSettings (H := H)) (evictBlocks ids) :=
  Eff.moves_forEach fun b => Eff.moves_read.bind fun _ =>
    Eff.moves_ite (Eff.moves_raise _) fun lp => sameSettings_removeCachedBlockHashes b lp

end Settings

section FreeCount

variable {numBlocks tail : Nat} {held : Nat → Nat} {lp : LinkedBlockPool H} {pool : BlockPool}

/-- `get_new_blocks` does not raise while the queue has enough. -/
theorem Refines.getNewBlocks_of_le (h : Refines numBlocks lp pool)
    (hcounts : BlockPool.PoolCounts numBlocks tail held pool) {n : Nat}
    (hn : n ≤ pool.freeQueue.length) :
    Eff.wp (LinkedBlockPool.getNewBlocks n)
      (fun blocks lp' => (∃ pool', pool.getNewBlocks n = (.ok blocks, pool') ∧ Refines numBlocks lp' pool') ∧
        blocks.length = n ∧ ∀ b key, lp'.HasKey b key ↔ lp.HasKey b key ∧ ¬(pool.enableCaching = true ∧ b ∈ blocks))
      (fun _ _ => False) lp := by
  have habstract := BlockPool.getNewBlocks.eq_1 pool n
  rw [if_neg (Nat.not_lt.mpr hn)] at habstract
  refine Eff.wp_mono (h.getNewBlocks hcounts n) (fun blocks lp' hend => ?_) fun _ _ hraise => ?_
  · obtain ⟨⟨pool', hget, hrefines⟩, hkeys⟩ := hend
    have hblocks : .ok blocks = Except.ok (ε := PyError) (pool.freeQueue.take n) :=
      (congrArg Prod.fst (hget.symm.trans habstract))
    refine ⟨⟨pool', hget, hrefines⟩, ?_, hkeys⟩
    rw [Except.ok.inj hblocks, List.length_take, Nat.min_eq_left hn]
  · cases hraise.2.2.symm.trans habstract

/-- `touch` takes at most the blocks from the queue that wait in it. -/
theorem length_le_touch (hcounts : BlockPool.PoolCounts numBlocks tail held pool) {blocks : List Nat}
    (hblocks : ∀ b ∈ blocks, b ≠ BlockPool.nullBlock ∧ b < tail) :
    pool.freeQueue.length ≤
      (pool.touch blocks).freeQueue.length + blocks.countP fun b => pool.refCnt b = 0 ∧ b ≠ BlockPool.nullBlock := by
  induction blocks generalizing held pool with
  | nil => exact Nat.le_add_right _ _
  | cons block rest ih =>
      obtain ⟨hne, hlt⟩ := hblocks block List.mem_cons_self
      have hrest := ih (hcounts.touchOne hne hlt) fun b hb => hblocks b (List.mem_cons_of_mem block hb)
      generalize hnext : BlockPool.addRef (if pool.refCnt block = 0 ∧ block ≠ BlockPool.nullBlock then
        { pool with freeQueue := pool.freeQueue.erase block } else pool) block = next at hrest
      have htouch : pool.touch (block :: rest) = next.touch rest := by
        rw [← hnext]
        rfl
      -- a count that has grown was not negative before, so no block becomes evictable
      have hcountP : rest.countP (fun b => next.refCnt b = 0 ∧ b ≠ BlockPool.nullBlock) ≤
          rest.countP fun b => pool.refCnt b = 0 ∧ b ≠ BlockPool.nullBlock := by
        refine List.countP_mono_left fun b _ hb => ?_
        rw [decide_eq_true_iff] at hb ⊢
        obtain ⟨hzero, hb⟩ := hb
        have hcount := hcounts.count b hb
        have hsame : (if pool.refCnt block = 0 ∧ block ≠ BlockPool.nullBlock then
            { pool with freeQueue := pool.freeQueue.erase block } else pool).refCnt b = pool.refCnt b := by
          split_ifs <;> rfl
        rw [← hnext, BlockPool.refCnt_addRef, hsame] at hzero
        refine ⟨?_, hb⟩
        split_ifs at hzero hcount <;> omega
      have hstep : pool.freeQueue.length ≤ next.freeQueue.length +
          if pool.refCnt block = 0 ∧ block ≠ BlockPool.nullBlock then 1 else 0 := by
        rw [← hnext]
        show _ ≤ (ite _ _ pool : BlockPool).freeQueue.length + _
        split_ifs
        · show _ ≤ (pool.freeQueue.erase block).length + 1
          rw [List.length_erase]
          split_ifs <;> omega
        · exact Nat.le_add_right _ _
      rw [htouch, List.countP_cons]
      simp only [decide_eq_true_eq]
      omega

end FreeCount

end LinkedBlockPool
end KVOffload

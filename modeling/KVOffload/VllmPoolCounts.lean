import KVOffload.VllmBlockPool
import Mathlib.Data.Finset.Lattice.Lemmas
import Mathlib.Data.List.Count
import Mathlib.Data.List.Nodup
import Mathlib.Tactic.SplitIfs

/-! The accounts of the block pool. `PoolCounts` ties the reference counts and the queue to the number
of holders each block has; every operation of the pool keeps it, as long as its caller touches only
cached blocks and frees only held ones. -/

namespace KVOffload
namespace BlockPool

/-- Block `b` has `held b` holders, the blocks from `tail` on are reserved, and exactly the blocks
without a reference wait in the queue. Nothing is said about the null block's count. -/
structure PoolCounts (numBlocks tail : Nat) (held : Nat → Nat) (pool : BlockPool) : Prop where
  count : ∀ b, b ≠ nullBlock → pool.refCnt b = held b + if tail ≤ b ∧ b < numBlocks then 1 else 0
  free : ∀ b, b ∈ pool.freeQueue ↔ b ≠ nullBlock ∧ b < numBlocks ∧ pool.refCnt b = 0
  nodup : pool.freeQueue.Nodup
  owned : ∀ b, b ≠ nullBlock → held b ≠ 0 → b < tail
  cached : ∀ b ∈ pool.hashed, b ≠ nullBlock ∧ b < tail

section Equations

theorem refCnt_addRef (pool : BlockPool) (block b : Nat) :
    (pool.addRef block).refCnt b = pool.refCnt b + if b = block then 1 else 0 := by
  show Function.update pool.refCnt block (pool.refCnt block + 1) b = _
  by_cases hb : b = block
  · rw [hb, Function.update_self, if_pos rfl]
  · rw [Function.update_of_ne hb, if_neg hb, add_zero]

theorem refCnt_dropRef (pool : BlockPool) (block b : Nat) :
    (pool.dropRef block).refCnt b = pool.refCnt b - if b = block then 1 else 0 := by
  show Function.update pool.refCnt block (pool.refCnt block - 1) b = _
  by_cases hb : b = block
  · rw [hb, Function.update_self, if_pos rfl]
  · rw [Function.update_of_ne hb, if_neg hb, sub_zero]

theorem count_cons_eq (block : Nat) (rest : List Nat) (b : Nat) :
    (block :: rest).count b = rest.count b + if b = block then 1 else 0 := by
  by_cases hb : b = block
  · rw [hb, List.count_cons_self, if_pos rfl]
  · rw [List.count_cons_of_ne (Ne.symm hb), if_neg hb, add_zero]

theorem foldl_addRef (pool : BlockPool) (blocks : List Nat) :
    blocks.foldl addRef pool = { pool with refCnt := fun b => pool.refCnt b + blocks.count b } := by
  induction blocks generalizing pool with
  | nil => simp
  | cons block rest ih =>
      rw [List.foldl_cons, ih, BlockPool.mk.injEq]
      refine ⟨rfl, ?_, rfl, rfl⟩
      funext b
      rw [refCnt_addRef, count_cons_eq]
      split_ifs <;> omega

theorem touch_hashed (pool : BlockPool) (blocks : List Nat) : (pool.touch blocks).hashed = pool.hashed := by
  induction blocks generalizing pool with
  | nil => rfl
  | cons block rest ih =>
      refine (ih _).trans ?_
      show (ite _ _ pool : BlockPool).hashed = pool.hashed
      split_ifs <;> rfl

/-- Dropping references that exist. A block is listed as free once, when its last reference goes. -/
theorem dropRefs_spec {pool : BlockPool} {blocks : List Nat}
    (h : ∀ b, b ≠ nullBlock → (blocks.count b : Int) ≤ pool.refCnt b) :
    (dropRefs pool blocks).2 = { pool with refCnt := fun b => pool.refCnt b - blocks.count b } ∧
      (dropRefs pool blocks).1.Nodup ∧
      ∀ b, b ∈ (dropRefs pool blocks).1 ↔ b ≠ nullBlock ∧ b ∈ blocks ∧ pool.refCnt b = blocks.count b := by
  induction blocks generalizing pool with
  | nil => simp [dropRefs]
  | cons block rest ih =>
      have hrest : ∀ b, b ≠ nullBlock → (rest.count b : Int) ≤ (pool.dropRef block).refCnt b := by
        intro b hb
        have hle := h b hb
        rw [count_cons_eq] at hle
        rw [refCnt_dropRef]
        split_ifs at hle ⊢ <;> omega
      obtain ⟨hpool, hnodup, hmem⟩ := ih hrest
      have hlast : (pool.dropRef block).refCnt block = 0 ∧ block ≠ nullBlock →
          block ∉ (dropRefs (pool.dropRef block) rest).1 := by
        intro hzero hin
        obtain ⟨hne, hrestMem, hcount⟩ := (hmem block).mp hin
        have hpos := List.count_pos_iff.mpr hrestMem
        omega
      refine ⟨?_, ?_, fun b => ?_⟩
      · show (dropRefs (pool.dropRef block) rest).2 = _
        rw [hpool, BlockPool.mk.injEq]
        refine ⟨rfl, ?_, rfl, rfl⟩
        funext b
        rw [refCnt_dropRef, count_cons_eq]
        split_ifs <;> omega
      · rw [dropRefs]
        dsimp only
        split_ifs with hzero
        · exact List.nodup_cons.mpr ⟨hlast hzero, hnodup⟩
        · exact hnodup
      · have hhead : b ∈ (dropRefs pool (block :: rest)).1 ↔
            ((pool.dropRef block).refCnt block = 0 ∧ block ≠ nullBlock ∧ b = block) ∨
              b ∈ (dropRefs (pool.dropRef block) rest).1 := by
          rw [dropRefs]
          dsimp only
          split_ifs with hzero
          · simp [hzero]
          · simp only [hzero, ← and_assoc, false_and, false_or]
        rw [hhead, hmem b, refCnt_dropRef, refCnt_dropRef, count_cons_eq, if_pos rfl]
        by_cases hb : b = block
        · subst hb
          have hle := h b
          rw [count_cons_eq, if_pos rfl] at hle
          have hcount : b ∈ rest ↔ rest.count b ≠ 0 := by
            rw [← List.count_pos_iff]
            omega
          simp only [if_true, List.mem_cons, true_or, true_and, and_true, hcount]
          constructor
          · rintro (⟨hzero, hne⟩ | ⟨hne, -, heq⟩)
            · have := hle hne
              exact ⟨hne, by omega⟩
            · exact ⟨hne, by omega⟩
          · rintro ⟨hne, heq⟩
            by_cases hzero : rest.count b = 0
            · exact Or.inl ⟨by omega, hne⟩
            · exact Or.inr ⟨hne, hzero, by omega⟩
        · simp only [hb, if_false, and_false, false_or, List.mem_cons, sub_zero, add_zero]

end Equations

section Operations

variable {numBlocks tail : Nat} {held held' : Nat → Nat} {pool : BlockPool}

theorem PoolCounts.congr (h : PoolCounts numBlocks tail held pool) (heq : ∀ b, b ≠ nullBlock → held' b = held b) :
    PoolCounts numBlocks tail held' pool where
  count b hb := by rw [heq b hb, h.count b hb]
  free := h.free
  nodup := h.nodup
  owned b hb hheld := h.owned b hb (by rwa [← heq b hb])
  cached := h.cached

/-- A block that waits in the queue has no holder and is not reserved. -/
theorem PoolCounts.of_mem_freeQueue (h : PoolCounts numBlocks tail held pool) {b : Nat} (hb : b ∈ pool.freeQueue) :
    b ≠ nullBlock ∧ held b = 0 ∧ b < tail ∧ pool.refCnt b = 0 := by
  obtain ⟨hne, hlt, hzero⟩ := (h.free b).mp hb
  have hcount := h.count b hne
  split_ifs at hcount with hreserved
  · omega
  · exact ⟨hne, by omega, by omega, hzero⟩

/-- A new pool, with nothing reserved yet. -/
theorem poolCounts_init (numBlocks : Nat) (enableCaching : Bool) :
    PoolCounts numBlocks numBlocks (fun _ => 0) (init numBlocks enableCaching) := by
  have hrange : init numBlocks enableCaching = ⟨enableCaching, fun _ => 0, ∅, (List.range numBlocks).tail⟩ := rfl
  have htail : (List.range numBlocks).tail = List.range' 1 (numBlocks - 1) := by
    rw [List.range_eq_range', List.tail_range']
  rw [hrange, htail]
  refine ⟨fun b _ => ?_, fun b => ?_, List.nodup_range', fun b _ hheld => absurd rfl hheld, fun b hb => ?_⟩
  · rw [if_neg (by omega)]
    rfl
  · rw [List.mem_range'_1, nullBlock]
    constructor
    · intro hmem
      exact ⟨by omega, by omega, rfl⟩
    · intro hmem
      omega
  · exact absurd hb (Finset.notMem_empty b)

theorem getNewBlocks_zero (pool : BlockPool) : pool.getNewBlocks 0 = (.ok [], pool) := by
  simp [getNewBlocks]

theorem cacheFullBlocks_nil (pool : BlockPool) : pool.cacheFullBlocks [] = pool := by
  rw [cacheFullBlocks, List.filter_nil, List.toFinset_nil, Finset.union_empty, ite_self]

theorem freeBlocks_nil (pool : BlockPool) : pool.freeBlocks [] = pool := by
  simp [freeBlocks, dropRefs]

theorem evictBlocks_nil (pool : BlockPool) : pool.evictBlocks [] = pool := by
  simp [evictBlocks]

theorem getNewBlocks_error {n : Nat} {e : PyError} {pool' : BlockPool} (h : pool.getNewBlocks n = (.error e, pool')) :
    pool' = pool := by
  rw [BlockPool.getNewBlocks] at h
  by_cases hshort : pool.freeQueue.length < n
  · rw [if_pos hshort] at h
    exact (Prod.mk.inj h).2.symm
  · rw [if_neg hshort] at h
    cases h

/-- `get_new_blocks` hands out blocks that nobody held, each once. -/
theorem PoolCounts.getNewBlocks (h : PoolCounts numBlocks tail held pool) {n : Nat} {blocks : List Nat}
    {pool' : BlockPool} (hget : pool.getNewBlocks n = (.ok blocks, pool')) :
    blocks.Nodup ∧ blocks ⊆ pool.freeQueue ∧ PoolCounts numBlocks tail (fun b => held b + blocks.count b) pool' := by
  rw [BlockPool.getNewBlocks] at hget
  by_cases hshort : pool.freeQueue.length < n
  · rw [if_pos hshort] at hget
    cases hget
  rw [if_neg hshort] at hget
  obtain ⟨hblocks, hpool⟩ := Prod.mk.inj hget
  rw [Except.ok.injEq] at hblocks
  rw [hblocks, foldl_addRef] at hpool
  have hsub : blocks ⊆ pool.freeQueue := hblocks ▸ List.take_subset n pool.freeQueue
  have hnodup : blocks.Nodup := hblocks ▸ h.nodup.sublist (List.take_sublist n pool.freeQueue)
  have hqueue : blocks ++ pool.freeQueue.drop n = pool.freeQueue := by rw [← hblocks, List.take_append_drop]
  have hsplit : (blocks ++ pool.freeQueue.drop n).Nodup := by
    rw [hqueue]
    exact h.nodup
  refine ⟨hnodup, hsub, ?_⟩
  subst hpool
  refine ⟨fun b hb => ?_, fun b => ?_, h.nodup.sublist (List.drop_sublist n pool.freeQueue), fun b hb hheld => ?_,
    fun b hb => ?_⟩
  · show pool.refCnt b + blocks.count b = _
    rw [h.count b hb]
    omega
  · show b ∈ pool.freeQueue.drop n ↔ b ≠ nullBlock ∧ b < numBlocks ∧ pool.refCnt b + blocks.count b = 0
    have hmem : b ∈ pool.freeQueue ↔ b ∈ blocks ∨ b ∈ pool.freeQueue.drop n := by rw [← List.mem_append, hqueue]
    constructor
    · intro hdrop
      have hout : b ∉ blocks := fun hin => (List.nodup_append.mp hsplit).2.2 b hin b hdrop rfl
      obtain ⟨hne, hlt, hzero⟩ := (h.free b).mp (hmem.mpr (Or.inr hdrop))
      rw [List.count_eq_zero_of_not_mem hout]
      exact ⟨hne, hlt, by omega⟩
    · rintro ⟨hne, hlt, hzero⟩
      have hnonneg : 0 ≤ pool.refCnt b := by
        rw [h.count b hne]
        split_ifs <;> omega
      have hout : b ∉ blocks := fun hin => by
        have := List.count_pos_iff.mpr hin
        omega
      have hin : b ∈ pool.freeQueue := (h.free b).mpr ⟨hne, hlt, by omega⟩
      exact (hmem.mp hin).resolve_left hout
  · by_cases hin : b ∈ blocks
    · exact (h.of_mem_freeQueue (hsub hin)).2.2.1
    · apply h.owned b hb
      rwa [List.count_eq_zero_of_not_mem hin, add_zero] at hheld
  · apply h.cached b
    replace hb : b ∈ if pool.enableCaching then pool.hashed \ blocks.toFinset else pool.hashed := hb
    split_ifs at hb
    · exact (Finset.mem_sdiff.mp hb).1
    · exact hb

/-- The body of the loop in `touch`. -/
theorem PoolCounts.touchOne (h : PoolCounts numBlocks tail held pool) {block : Nat}
    (hne : block ≠ nullBlock) (hlt : block < tail) :
    PoolCounts numBlocks tail (fun b => held b + if b = block then 1 else 0)
      (addRef
        (if pool.refCnt block = 0 ∧ block ≠ nullBlock then { pool with freeQueue := pool.freeQueue.erase block }
          else pool)
        block) := by
  have hcount := h.count block hne
  rw [if_neg (by omega), add_zero] at hcount
  generalize hpool' : (if pool.refCnt block = 0 ∧ block ≠ nullBlock then
    { pool with freeQueue := pool.freeQueue.erase block } else pool) = pool'
  have hrefCnt : pool'.refCnt = pool.refCnt := by
    rw [← hpool']
    split_ifs <;> rfl
  have hhashed : pool'.hashed = pool.hashed := by
    rw [← hpool']
    split_ifs <;> rfl
  -- Held or not, the block is not in the queue afterwards.
  have hqueue : pool'.freeQueue = pool.freeQueue.erase block := by
    rw [← hpool']
    split_ifs with hzero
    · rfl
    · refine (List.erase_of_not_mem fun hin => hzero ?_).symm
      exact ⟨((h.free block).mp hin).2.2, hne⟩
  refine ⟨fun b hb => ?_, fun b => ?_, ?_, fun b hb hheld => ?_, ?_⟩
  · rw [refCnt_addRef, hrefCnt, h.count b hb]
    split_ifs <;> omega
  · show b ∈ pool'.freeQueue ↔ _
    rw [hqueue, h.nodup.mem_erase_iff, h.free b, refCnt_addRef, hrefCnt]
    constructor
    · rintro ⟨hother, hb, hbound, hzero⟩
      rw [if_neg hother]
      exact ⟨hb, hbound, by omega⟩
    · rintro ⟨hb, hbound, hzero⟩
      split_ifs at hzero with heq
      · subst heq
        omega
      · exact ⟨heq, hb, hbound, by omega⟩
  · show pool'.freeQueue.Nodup
    rw [hqueue]
    exact h.nodup.erase block
  · by_cases heq : b = block
    · rwa [heq]
    · apply h.owned b hb
      rwa [if_neg heq, add_zero] at hheld
  · show ∀ b ∈ pool'.hashed, _
    rw [hhashed]
    exact h.cached

/-- `touch` on unreserved blocks. -/
theorem PoolCounts.touch (h : PoolCounts numBlocks tail held pool) {blocks : List Nat}
    (hblocks : ∀ b ∈ blocks, b ≠ nullBlock ∧ b < tail) :
    PoolCounts numBlocks tail (fun b => held b + blocks.count b) (pool.touch blocks) := by
  induction blocks generalizing held pool with
  | nil => exact h
  | cons block rest ih =>
      obtain ⟨hne, hlt⟩ := hblocks block List.mem_cons_self
      have hrest := ih (h.touchOne hne hlt) fun b hb => hblocks b (List.mem_cons_of_mem block hb)
      apply hrest.congr
      intro b hb
      rw [count_cons_eq]
      omega

/-- The freed blocks join the queue at one end or the other. -/
theorem freeBlocks_queue_perm (pool : BlockPool) (blocks : List Nat) :
    (pool.freeBlocks blocks).freeQueue.Perm ((dropRefs pool blocks).1 ++ pool.freeQueue) := by
  generalize hcached : (fun block => decide (block ∈ pool.hashed) && pool.enableCaching) = cached
  generalize hfreed : (dropRefs pool blocks).1 = freed
  have hqueue : (pool.freeBlocks blocks).freeQueue =
      freed.filter (fun block => !cached block) ++ (pool.freeQueue ++ freed.filter cached) := by
    rw [← hcached, ← hfreed, ← List.append_assoc]
    rfl
  have hsplit : (freed.filter (fun block => !cached block) ++ freed.filter cached).Perm freed :=
    List.perm_append_comm.trans (List.filter_append_perm cached freed)
  rw [hqueue]
  refine (List.perm_append_comm.append_left _).trans ?_
  rw [← List.append_assoc]
  exact hsplit.append_right pool.freeQueue

/-- `free_blocks` on held blocks. Null blocks may stand among them. -/
theorem PoolCounts.freeBlocks (h : PoolCounts numBlocks tail held pool) (htail : tail ≤ numBlocks) {blocks : List Nat}
    (hblocks : ∀ b, b ≠ nullBlock → blocks.count b ≤ held b) :
    PoolCounts numBlocks tail (fun b => held b - blocks.count b) (pool.freeBlocks blocks) := by
  have hle : ∀ b, b ≠ nullBlock → (blocks.count b : Int) ≤ pool.refCnt b := by
    intro b hb
    have := hblocks b hb
    rw [h.count b hb]
    split_ifs <;> omega
  obtain ⟨hpool, hnodup, hmem⟩ := dropRefs_spec hle
  have hqueue := freeBlocks_queue_perm pool blocks
  have hrefCnt : ∀ b, (pool.freeBlocks blocks).refCnt b = pool.refCnt b - blocks.count b := by
    intro b
    show (dropRefs pool blocks).2.refCnt b = _
    rw [hpool]
  have hhashed : (pool.freeBlocks blocks).hashed = pool.hashed := by
    show (dropRefs pool blocks).2.hashed = _
    rw [hpool]
  refine ⟨fun b hb => ?_, fun b => ?_, ?_, fun b hb hheld => h.owned b hb (by omega), ?_⟩
  · have := hblocks b hb
    rw [hrefCnt, h.count b hb]
    omega
  · rw [hqueue.mem_iff, List.mem_append, hmem b, h.free b, hrefCnt]
    constructor
    · rintro (⟨hne, hin, heq⟩ | ⟨hne, hlt, hzero⟩)
      · -- A block that was freed had a holder, so it is one of the pool's.
        have hpos := List.count_pos_iff.mpr hin
        have hheld := hblocks b hne
        have hlt := h.owned b hne (by omega)
        exact ⟨hne, by omega, by omega⟩
      · have := hle b hne
        exact ⟨hne, hlt, by omega⟩
    · rintro ⟨hne, hlt, hzero⟩
      by_cases hin : b ∈ blocks
      · exact Or.inl ⟨hne, hin, by omega⟩
      · rw [List.count_eq_zero_of_not_mem hin] at hzero
        exact Or.inr ⟨hne, hlt, by omega⟩
  · rw [hqueue.nodup_iff, List.nodup_append]
    refine ⟨hnodup, h.nodup, fun b hb b' hb' heq => ?_⟩
    subst heq
    obtain ⟨hne, hin, heq⟩ := (hmem b).mp hb
    have hzero := ((h.free b).mp hb').2.2
    have hpos := List.count_pos_iff.mpr hin
    omega
  · rw [hhashed]
    exact h.cached

/-- Giving and taking hashes concerns no count. -/
theorem PoolCounts.rehash (h : PoolCounts numBlocks tail held pool) {hashed : Finset Nat}
    (hhashed : ∀ b ∈ hashed, b ≠ nullBlock ∧ b < tail) :
    PoolCounts numBlocks tail held { pool with hashed := hashed } :=
  ⟨h.count, h.free, h.nodup, h.owned, hhashed⟩

theorem PoolCounts.evictBlocks (h : PoolCounts numBlocks tail held pool) (blocks : List Nat) :
    PoolCounts numBlocks tail held (pool.evictBlocks blocks) :=
  h.rehash fun b hb => h.cached b (Finset.mem_sdiff.mp hb).1

theorem PoolCounts.cacheFullBlocks (h : PoolCounts numBlocks tail held pool) {blocks : List Nat}
    (hblocks : ∀ b ∈ blocks, b ≠ nullBlock → held b ≠ 0) :
    PoolCounts numBlocks tail held (pool.cacheFullBlocks blocks) := by
  refine h.rehash fun b hb => ?_
  split_ifs at hb
  · rcases Finset.mem_union.mp hb with hold | hnew
    · exact h.cached b hold
    · have hmem := List.mem_filter.mp (List.mem_toFinset.mp hnew)
      have hne : b ≠ nullBlock := of_decide_eq_true hmem.2
      exact ⟨hne, h.owned b hne (hblocks b hmem.1 hne)⟩
  · exact h.cached b hb

end Operations

end BlockPool
end KVOffload

import KVOffload.BaseLists
import KVOffload.VllmCacheManager
import KVOffload.VllmTables

/-! What the operations of the KV cache manager do to the pool and the tables: the pages found in the prefix cache,
the new pages, the pages that are cached, and the pages that go back. None of them raises, as long as the pages it
needs were counted before, and each does to the pool and the tables what the operation of that name of a
`BlockManager` does. -/

namespace KVOffload
open Base

variable {T E H : Type} [DecidableEq H]

theorem cdiv_le_iff {a b k : Nat} (hb : 0 < b) : cdiv a b ≤ k ↔ a ≤ k * b := by
  rw [cdiv, Nat.div_le_iff_le_mul_add_pred hb, Nat.mul_comm]
  omega

/-- How slots are given to requests that run. -/
def noReserve : CacheManager.AllocateOptions := ⟨0, 0, false⟩

namespace CacheManager

section Entries

variable {m : CacheManager T E H} {r r' : RequestId} {p : Nat}

omit [DecidableEq H] in
theorem tableEntries_eq_table (m : CacheManager T E H) (r : RequestId) (b : Nat) :
    tableEntries m.reqToBlocks b = (m.table r).count b + tableEntries (m.reqToBlocks.erase r) b :=
  tableEntries_eq_getD m.reqToBlocks r b

omit [DecidableEq H] in
theorem tableEntries_pos_of_mem (h : p ∈ m.table r) : 0 < tableEntries m.reqToBlocks p := by
  have hpos := List.count_pos_iff.mpr h
  rw [tableEntries_eq_table m r p]
  omega

omit [DecidableEq H] in
/-- A page in two tables has at least two entries. -/
theorem notMem_other_of_tableEntries (hone : tableEntries m.reqToBlocks p = 1) (hr : p ∈ m.table r) (hne : r' ≠ r) :
    p ∉ m.table r' := by
  intro hr'
  have hfirst := tableEntries_eq_table m r p
  have hsecond := tableEntries_eq_getD (m.reqToBlocks.erase r) r' p
  rw [OrderedDict.get?_erase_of_ne _ hne] at hsecond
  have hpos := List.count_pos_iff.mpr hr
  have hpos' : 0 < ((m.reqToBlocks.get? r').getD []).count p := List.count_pos_iff.mpr hr'
  omega

omit [DecidableEq H] in
theorem index_unique_of_tableEntries (hone : tableEntries m.reqToBlocks p = 1) {i j : Nat}
    (hi : (m.table r)[i]? = some p) (hj : (m.table r)[j]? = some p) : i = j := by
  refine index_unique ?_ hi hj
  have := tableEntries_eq_table m r p
  omega

end Entries

/-- A block of the pool that the prefix cache finds by `key`. -/
def HasKey (m : CacheManager T E H) (b : Nat) (key : BlockHashWithGroupId H) : Prop := m.blockPool.HasKey b key

/-- The manager has the pool and the tables of `bm`, every table entry is one reference, and the settings are those of
the requests' hashes. -/
structure Refines (numBlocks tail blockSize : Nat) (m : CacheManager T E H) (bm : BlockManager) : Prop where
  pool : LinkedBlockPool.Refines numBlocks m.blockPool bm.pool
  tables : m.reqToBlocks = bm.reqToBlocks
  balanced : bm.Balanced numBlocks tail
  caching : m.blockPool.enableCaching = true
  hashBlockSize : m.blockPool.hashBlockSize = blockSize

def PoolInv (numBlocks tail blockSize : Nat) (m : CacheManager T E H) : Prop :=
  ∃ bm, m.Refines numBlocks tail blockSize bm

/-- Pages were added to the table of one request, and nothing else that belongs to another changed. -/
structure Extends (r : RequestId) (added : List Nat) (m m' : CacheManager T E H) : Prop where
  table : m'.table r = m.table r ++ added
  other : ∀ r' ≠ r, m'.table r' = m.table r'
  entries : ∀ b, tableEntries m'.reqToBlocks b = tableEntries m.reqToBlocks b + added.count b
  cached : ∀ r' ≠ r, m'.numCachedBlock.get? r' = m.numCachedBlock.get? r'
  requests : m'.requests = m.requests

section Steps

variable {numBlocks tail : Nat} {cfg : CacheConfig} {m m' m'' : CacheManager T E H} {bm : BlockManager}
  {r : RequestId}

omit [DecidableEq H] in
theorem Extends.refl (r : RequestId) (m : CacheManager T E H) : Extends r [] m m :=
  ⟨(List.append_nil _).symm, fun _ _ => rfl, fun _ => rfl, fun _ _ => rfl, rfl⟩

omit [DecidableEq H] in
theorem Extends.trans {added added' : List Nat} (h : Extends r added m m') (h' : Extends r added' m' m'') :
    Extends r (added ++ added') m m'' where
  table := by rw [h'.table, h.table, List.append_assoc]
  other r' hr' := (h'.other r' hr').trans (h.other r' hr')
  entries b := by rw [h'.entries, h.entries, List.count_append, Nat.add_assoc]
  cached r' hr' := (h'.cached r' hr').trans (h.cached r' hr')
  requests := h'.requests.trans h.requests

omit [DecidableEq H] in
/-- The tables after an assignment to one of them. -/
theorem table_setTable (r r' : RequestId) (blocks : List Nat) (m : CacheManager T E H) :
    (setTable r blocks m).table r' = if r' = r then blocks else m.table r' := by
  unfold table setTable
  rw [OrderedDict.get?_set]
  split_ifs <;> rfl

omit [DecidableEq H] in
theorem extends_setTable (r : RequestId) (added : List Nat) (m : CacheManager T E H) :
    Extends r added m (setTable r (m.table r ++ added) m) where
  table := by rw [table_setTable, if_pos rfl]
  other r' hr' := by rw [table_setTable, if_neg hr']
  entries b := by
    show tableEntries (m.reqToBlocks.set r _) b = _
    rw [tableEntries_set, tableEntries_eq_table m r b, List.count_append]
    omega
  cached _ _ := rfl
  requests := rfl

omit [DecidableEq H] in
/-- Extending a table reads and writes no field of the pool. -/
theorem Extends.of_pool {added : List Nat} {pool : LinkedBlockPool H} {cached : OrderedDict RequestId Nat}
    (h : Extends r added m m') (hcached : ∀ r' ≠ r, cached.get? r' = m.numCachedBlock.get? r') :
    Extends r added m { m' with blockPool := pool, numCachedBlock := cached } :=
  ⟨h.table, h.other, h.entries, hcached, h.requests⟩

omit [DecidableEq H] in
/-- A table that is not empty has an entry of its own. -/
theorem set_table_self (h : m.table r ≠ []) : m.reqToBlocks.set r (m.table r) = m.reqToBlocks := by
  cases hget : m.reqToBlocks.get? r with
  | none => exact absurd (by rw [table, hget, Option.getD_none]) h
  | some blocks =>
      rw [table, hget, Option.getD_some]
      exact OrderedDict.set_of_get? hget

theorem Refines.table (h : m.Refines numBlocks tail cfg.blockSize bm) (r : RequestId) : bm.table r = m.table r := by
  rw [BlockManager.table, CacheManager.table, h.tables]

/-- The pool and the tables are all the invariant speaks about. -/
theorem PoolInv.of_same (h : PoolInv numBlocks tail cfg.blockSize m) (hpool : m'.blockPool = m.blockPool)
    (htables : m'.reqToBlocks = m.reqToBlocks) : PoolInv numBlocks tail cfg.blockSize m' := by
  obtain ⟨bm, hbm⟩ := h
  refine ⟨bm, ?_, htables.trans hbm.tables, hbm.balanced, ?_, ?_⟩
  · rw [hpool]
    exact hbm.pool
  · rw [hpool]
    exact hbm.caching
  · rw [hpool]
    exact hbm.hashBlockSize

/-- A block that can be found is not the null block and not reserved. -/
theorem PoolInv.bounds_of_hasKey (h : PoolInv numBlocks tail cfg.blockSize m) {b : Nat} {key : BlockHashWithGroupId H}
    (hkey : m.HasKey b key) : b ≠ BlockPool.nullBlock ∧ b < tail := by
  obtain ⟨bm, hbm⟩ := h
  refine hbm.balanced.cached b ((hbm.pool.hashed b).mpr ?_)
  rcases hkey with hkey | hkey
  · exact Option.isSome_of_eq_some hkey
  · refine Option.isSome_iff_ne_none.mpr fun hnone => ?_
    rw [hbm.pool.indexed.others b hnone] at hkey
    cases hkey

omit [DecidableEq H] in
/-- A program of the pool in the manager: what it does to the pool, and that it keeps the settings. -/
theorem wp_onPool {α : Type} {program : PoolM H α} {P : α → LinkedBlockPool H → Prop}
    (hmoves : Eff.Moves LinkedBlockPool.SameSettings program)
    (hwp : Eff.wp program P (fun _ _ => False) m.blockPool)
    {Q : α → CacheManager T E H → Prop} {F : BlockPoolError → CacheManager T E H → Prop}
    (hQ : ∀ a pool, P a pool → LinkedBlockPool.SameSettings m.blockPool pool → Q a { m with blockPool := pool }) :
    Eff.wp (onPool program) Q F m := by
  refine (Eff.wp_zoom _ _ _).mpr ?_
  have hsettings : Eff.wp program (fun _ => LinkedBlockPool.SameSettings m.blockPool)
      (fun _ => LinkedBlockPool.SameSettings m.blockPool) m.blockPool := Eff.wp_final.mpr (hmoves m.blockPool)
  exact Eff.wp_mono (Eff.wp_and hwp hsettings) (fun a pool hpool => hQ a pool hpool.1 hpool.2) fun _ _ hf => hf.1.elim

/-- The pages found are touched and make up the table. -/
theorem Refines.addLocalComputedBlocks (htail : tail ≤ numBlocks) (h : m.Refines numBlocks tail cfg.blockSize bm)
    (htable : m.table r = []) {hits : List Nat} (hhits : ∀ b ∈ hits, ∃ key, m.HasKey b key) :
    Eff.wp (addLocalComputedBlocks r hits)
      (fun _ m' => m'.Refines numBlocks tail cfg.blockSize ⟨bm.pool.touch hits, bm.reqToBlocks.set r hits⟩ ∧
        Extends r hits m m' ∧ m'.numCachedBlock.get? r = some hits.length ∧
        ∀ b key, m'.HasKey b key ↔ m.HasKey b key)
      (fun _ _ => False) m := by
  have hbounds : ∀ b ∈ hits, b ≠ BlockPool.nullBlock ∧ b < tail := fun b hb =>
    (hhits b hb).elim fun _ hkey => PoolInv.bounds_of_hasKey ⟨bm, h⟩ hkey
  have hempty : ¬(m.table r).length ≠ 0 := by simp [htable]
  simp only [CacheManager.addLocalComputedBlocks, Eff.wp_bind, Eff.wp_read, hempty, h.caching, if_true, if_false,
    Eff.wp_modify]
  refine wp_onPool (LinkedBlockPool.moves_touch hits) (h.pool.touch h.balanced htail hbounds)
    fun _ lp' hend hsettings => ?_
  obtain ⟨hpool, hsame⟩ := hend
  have hextends := extends_setTable r hits m
  rw [htable, List.nil_append] at hextends
  refine ⟨⟨hpool, ?_, ?_, hsettings.enableCaching.trans h.caching, hsettings.hashBlockSize.trans h.hashBlockSize⟩,
    hextends.of_pool fun r' hr' => OrderedDict.get?_set_of_ne _ _ hr', OrderedDict.get?_set_self _ _ _,
    fun b key => hsame.hasKey⟩
  · show m.reqToBlocks.set r hits = _
    rw [h.tables]
  · refine (h.balanced.touch hbounds).congr fun b _ => ?_
    rw [← h.tables]
    exact hextends.entries b

/-- What `allocate_new_blocks` hands out: pages that no table held and that the prefix cache no longer finds. -/
structure Allocates (r : RequestId) (new : List Nat) (m m' : CacheManager T E H) : Prop where
  extends_ : Extends r new m m'
  nodup : new.Nodup
  unheld : ∀ b ∈ new, b ≠ BlockPool.nullBlock ∧ tableEntries m.reqToBlocks b = 0
  keys : ∀ b key, m'.HasKey b key ↔ m.HasKey b key ∧ b ∉ new
  numCachedBlock : m'.numCachedBlock = m.numCachedBlock

/-- The pages at the front of the queue join the table. -/
theorem Refines.allocateNewBlocks (h : m.Refines numBlocks tail cfg.blockSize bm) {numTokens : Nat}
    (hpos : numTokens ≠ 0) (hfree : cdiv numTokens cfg.blockSize - (m.table r).length ≤ bm.pool.freeQueue.length) :
    Eff.wp (allocateNewBlocks cfg r numTokens)
      (fun new m' =>
        (∃ pool', bm.pool.getNewBlocks (cdiv numTokens cfg.blockSize - (m.table r).length) = (.ok new, pool') ∧
          m'.Refines numBlocks tail cfg.blockSize ⟨pool', bm.reqToBlocks.set r (bm.table r ++ new)⟩) ∧
        Allocates r new m m' ∧ numTokens ≤ (m'.table r).length * cfg.blockSize)
      (fun _ _ => False) m := by
  simp only [CacheManager.allocateNewBlocks, Eff.wp_bind, Eff.wp_read]
  by_cases hzero : cdiv numTokens cfg.blockSize - (m.table r).length = 0
  · have hcovers : numTokens ≤ (m.table r).length * cfg.blockSize := by
      rw [← cdiv_le_iff cfg.blockSize_pos]
      omega
    have hsome : m.table r ≠ [] := by
      intro hnil
      rw [hnil, List.length_nil, Nat.zero_mul] at hcovers
      exact hpos (Nat.le_zero.mp hcovers)
    have hsame : bm.reqToBlocks.set r (bm.table r ++ []) = bm.reqToBlocks := by
      rw [List.append_nil, h.table, ← h.tables]
      exact set_table_self hsome
    rw [if_pos hzero, hzero]
    refine ⟨⟨bm.pool, BlockPool.getNewBlocks_zero bm.pool, ?_⟩,
      ⟨Extends.refl r m, List.nodup_nil, by simp, by simp, rfl⟩, hcovers⟩
    rw [hsame]
    exact h
  · rw [if_neg hzero, Eff.wp_bind]
    generalize hn : cdiv numTokens cfg.blockSize - (m.table r).length = n at hfree
    refine wp_onPool (LinkedBlockPool.moves_getNewBlocks n) (h.pool.getNewBlocks_of_le h.balanced hfree)
      fun new lp' hend hsettings => ?_
    obtain ⟨⟨pool', hnew, hpool⟩, hlen, hkeys⟩ := hend
    obtain ⟨hnodup, hsub, hcounts⟩ := h.balanced.getNewBlocks hnew
    have hextends := extends_setTable r new m
    simp only [Eff.wp_bind, Eff.wp_modify, Eff.wp_pure]
    refine ⟨⟨pool', hnew, hpool, ?_, hcounts.congr fun b _ => ?_, hsettings.enableCaching.trans h.caching,
      hsettings.hashBlockSize.trans h.hashBlockSize⟩, ⟨hextends.of_pool fun _ _ => rfl, hnodup, ?_, ?_, rfl⟩, ?_⟩
    · show m.reqToBlocks.set r (m.table r ++ new) = _
      rw [h.table, h.tables]
    · show tableEntries (bm.reqToBlocks.set r (bm.table r ++ new)) b = _
      rw [h.table, ← h.tables]
      exact hextends.entries b
    · intro b hb
      obtain ⟨hne, hheld, -⟩ := h.balanced.of_mem_freeQueue (hsub hb)
      exact ⟨hne, by rw [h.tables]; exact hheld⟩
    · intro b key
      refine (hkeys b key).trans ?_
      rw [← h.pool.caching, h.caching, eq_self, true_and]
      rfl
    · have htable : (CacheManager.table (setTable r (m.table r ++ new) m) r).length = (m.table r).length + n := by
        rw [table_setTable, if_pos rfl, List.length_append, hlen]
      show _ ≤ (CacheManager.table (setTable r (m.table r ++ new) m) r).length * _
      rw [← cdiv_le_iff cfg.blockSize_pos, htable]
      omega

omit [DecidableEq H] in
/-- The pages that `cache_full_blocks` is given. -/
theorem getElem?_newFullBlocks {blocks : List Nat} {numCachedBlocks numFullBlocks i p : Nat} :
    ((blocks.take numFullBlocks).drop numCachedBlocks)[i]? = some p ↔
      numCachedBlocks + i < numFullBlocks ∧ blocks[numCachedBlocks + i]? = some p := by
  rw [List.getElem?_drop, List.getElem?_take]
  split_ifs with hlt
  · rw [and_iff_right hlt]
  · simp [hlt]

/-- From `start` on, the pages of a table stand in no other table and cannot be found. -/
def OwnPages (m : CacheManager T E H) (r : RequestId) (start : Nat) : Prop :=
  ∀ j p, start ≤ j → (m.table r)[j]? = some p →
    p ≠ BlockPool.nullBlock ∧ (∀ key, ¬m.HasKey p key) ∧ tableEntries m.reqToBlocks p = 1

theorem OwnPages.cacheCall (h : m.Refines numBlocks tail cfg.blockSize bm) {start stop : Nat}
    (hown : m.OwnPages r start) {blockHashes : List H} (hhashes : stop ≤ blockHashes.length) :
    LinkedBlockPool.CacheCall m.blockPool blockHashes (((m.table r).take stop).drop start) start cfg.blockSize none
      blockHashes := by
  have hmem : ∀ p ∈ ((m.table r).take stop).drop start, tableEntries m.reqToBlocks p = 1 := by
    intro p hp
    obtain ⟨i, hi⟩ := List.mem_iff_getElem?.mp hp
    obtain ⟨-, hget⟩ := getElem?_newFullBlocks.mp hi
    exact (hown (start + i) p (Nat.le_add_right _ _) hget).2.2
  refine ⟨if_pos h.hashBlockSize.symm, rfl, ?_, ?_⟩
  · have hnodup : (((m.table r).take stop).drop start).Nodup := by
      refine List.nodup_iff_count_le_one.mpr fun p => ?_
      by_cases hp : p ∈ ((m.table r).take stop).drop start
      · have hsub := ((List.drop_sublist start _).trans (List.take_sublist stop (m.table r))).count_le p
        have hentries := tableEntries_eq_table m r p
        rw [hmem p hp] at hentries
        omega
      · rw [List.count_eq_zero_of_not_mem hp]
        exact Nat.zero_le 1
    have hsub := (List.filter_sublist
      (p := fun e : Nat × Nat => !(m.blockPool.isNull e.1 || LinkedBlockPool.maskedOut none e.2))
      (l := (((m.table r).take stop).drop start).zipIdx)).map Prod.fst
    rw [List.zipIdx_map_fst] at hsub
    exact hsub.nodup hnodup
  · rintro ⟨p, i⟩ he
    obtain ⟨hlt, hget⟩ := getElem?_newFullBlocks.mp (List.mem_zipIdx_iff_getElem?.mp (List.mem_filter.mp he).1)
    refine ⟨by omega, Or.inl ?_⟩
    have hnone := (hown (start + i) p (Nat.le_add_right _ _) hget).2.1
    refine Option.eq_none_iff_forall_ne_some.mpr fun key hkey => hnone key (Or.inl hkey)

/-- None of the pages that became full is skipped. -/
theorem OwnPages.activeBlocks (h : m.Refines numBlocks tail cfg.blockSize bm) {start : Nat} (hown : m.OwnPages r start)
    (stop : Nat) : (m.blockPool.activeBlocks (((m.table r).take stop).drop start) none).map Prod.fst =
      ((m.table r).take stop).drop start := by
  rw [LinkedBlockPool.activeBlocks, List.filter_eq_self.mpr, List.zipIdx_map_fst]
  rintro ⟨p, i⟩ he
  obtain ⟨-, hget⟩ := getElem?_newFullBlocks.mp (List.mem_zipIdx_iff_getElem?.mp he)
  have hne := h.pool.isNull_eq_false (hown (start + i) p (Nat.le_add_right _ _) hget).1
  simp [hne, LinkedBlockPool.maskedOut]

/-- What `cache_blocks` does to the prefix cache: the pages of the table from the last that was cached to the last that
is full can be found. -/
structure Caches (r : RequestId) (blockHashes : List H) (start stop : Nat) (m m' : CacheManager T E H) : Prop where
  extends_ : Extends r [] m m'
  cached : (m'.numCachedBlock.get? r).getD 0 = max start stop
  keys : ∀ b key, m'.HasKey b key → m.HasKey b key ∨ ∃ j blockHash, j < stop ∧ start ≤ j ∧ (m.table r)[j]? = some b ∧
    blockHashes[j]? = some blockHash ∧ key = makeBlockHashWithGroupId blockHash 0
  made : ∀ j b blockHash, start ≤ j → j < stop → (m.table r)[j]? = some b → blockHashes[j]? = some blockHash →
    m'.HasKey b (makeBlockHashWithGroupId blockHash 0)
  kept : ∀ b ∉ m.table r, ∀ key, m.HasKey b key → m'.HasKey b key

theorem Refines.cacheBlocks (h : m.Refines numBlocks tail cfg.blockSize bm) {req : Request T E H}
    {numTokens start : Nat} (hstart : (m.numCachedBlock.get? r).getD 0 = start) (hown : m.OwnPages r start)
    (hhashes : numTokens / cfg.blockSize ≤ req.blockHashes.length) :
    Eff.wp (cacheBlocks cfg r req numTokens)
      (fun _ m' => m'.Refines numBlocks tail cfg.blockSize (bm.cacheBlocks r start (numTokens / cfg.blockSize)) ∧
        Caches r req.blockHashes start (numTokens / cfg.blockSize) m m')
      (fun _ _ => False) m := by
  have hbalanced := h.balanced.cacheBlocks r start (numTokens / cfg.blockSize)
  simp only [CacheManager.cacheBlocks, Eff.wp_bind, Eff.wp_read, hstart]
  generalize numTokens / cfg.blockSize = stop at *
  by_cases hnone : stop ≤ start
  · have hsame : bm.cacheBlocks r start stop = bm := by
      have hnil : ((bm.table r).take stop).drop start = [] :=
        List.drop_eq_nil_of_le ((List.length_take_le _ _).trans hnone)
      rw [BlockManager.cacheBlocks, hnil, BlockPool.cacheFullBlocks_nil]
    rw [if_pos hnone, hsame]
    refine ⟨h, Extends.refl r m, ?_, fun b key => Or.inl, fun j b blockHash hle hlt => ?_, fun _ _ _ => id⟩
    · rw [hstart, Nat.max_eq_left hnone]
    · exact absurd (hle.trans_lt hlt) (Nat.not_lt.mpr hnone)
  · rw [if_neg hnone, Eff.wp_bind]
    refine (Eff.wp_zoom _ _ _).mpr (Eff.wp_mono (h.pool.cacheFullBlocks (h.pool.caching.symm.trans h.caching)
      (hown.cacheCall h hhashes)) (fun _ lp' hend => ?_) fun _ _ hf => hf)
    obtain ⟨hpool, hall⟩ := hend
    rw [hown.activeBlocks h] at hpool
    have hactive : ∀ p i, (p, i) ∈ m.blockPool.activeBlocks (((m.table r).take stop).drop start) none →
        start + i < stop ∧ (m.table r)[start + i]? = some p := fun p i he =>
      getElem?_newFullBlocks.mp (List.mem_zipIdx_iff_getElem?.mp (List.mem_filter.mp he).1)
    refine ⟨⟨?_, h.tables, hbalanced, hall.core.enableCaching.trans h.caching,
      hall.core.hashBlockSize.trans h.hashBlockSize⟩, ?_, ?_, fun b key hkey => ?_,
      fun j b blockHash hle hlt hget hhash => ?_, fun b hb key => ?_⟩
    · show LinkedBlockPool.Refines numBlocks lp' (bm.pool.cacheFullBlocks (((bm.table r).take stop).drop start))
      rw [h.table]
      exact hpool
    · exact (Extends.refl r m).of_pool fun r' hr' => OrderedDict.get?_set_of_ne _ _ hr'
    · show ((OrderedDict.set _ r stop).get? r).getD 0 = _
      rw [OrderedDict.get?_set_self, Nat.max_eq_right (by omega)]
      rfl
    · refine (hall.keys b key hkey).imp id fun hnew => ?_
      obtain ⟨i, blockHash, he, hhash, hmade⟩ := hnew
      obtain ⟨hlt, hget⟩ := hactive b i he
      exact ⟨start + i, blockHash, hlt, Nat.le_add_right _ _, hget, hhash, hmade⟩
    · obtain ⟨i, rfl⟩ := Nat.exists_eq_add_of_le hle
      have hne := h.pool.isNull_eq_false (hown (start + i) b hle hget).1
      have he : (b, i) ∈ m.blockPool.activeBlocks (((m.table r).take stop).drop start) none :=
        List.mem_filter.mpr ⟨List.mem_zipIdx_iff_getElem?.mpr (getElem?_newFullBlocks.mpr ⟨hlt, hget⟩), by
          simp [hne, LinkedBlockPool.maskedOut]⟩
      obtain ⟨blockHash', hhash', hmade⟩ := hall.made _ he
      rw [hhash] at hhash'
      exact Or.inl (Option.some.inj hhash' ▸ hmade)
    · refine ((hall.other b fun hmem => hb ?_).2.2 key).mpr
      obtain ⟨⟨p, i⟩, he, rfl⟩ := List.mem_map.mp hmem
      exact List.mem_of_getElem? (hactive p i he).2

omit [DecidableEq H] in
/-- New pages belong to the request alone, and its other pages stay its own. -/
theorem OwnPages.allocates {start : Nat} {new : List Nat} (hown : m.OwnPages r start) (h : Allocates r new m m') :
    m'.OwnPages r start := by
  intro j p hj hget
  rw [h.extends_.table, List.getElem?_append] at hget
  rw [h.extends_.entries p]
  split_ifs at hget
  · obtain ⟨hne, hkeys, hone⟩ := hown j p hj hget
    have hnot : p ∉ new := fun hp => by
      rw [(h.unheld p hp).2] at hone
      cases hone
    refine ⟨hne, fun key hkey => hkeys key ((h.keys p key).mp hkey).1, ?_⟩
    rw [List.count_eq_zero_of_not_mem hnot, hone]
  · have hp : p ∈ new := List.mem_of_getElem? hget
    obtain ⟨hne, hheld⟩ := h.unheld p hp
    refine ⟨hne, fun key hkey => ((h.keys p key).mp hkey).2 hp, ?_⟩
    rw [hheld, List.count_eq_one_of_mem h.nodup hp]

/-- The pages found for a request that may be given slots: they can be found, they are the first of the request, and
what the request holds already is cached as far as it is full. -/
structure Ready (cfg : CacheConfig) (r : RequestId) (req : Request T E H) (hits : List Nat) (m : CacheManager T E H) :
    Prop where
  keys : ∀ b ∈ hits, ∃ key, m.HasKey b key
  first : hits ≠ [] → m.table r = [] ∧ m.numCachedBlock.get? r = none ∧ req.numComputedTokens = 0
  cached : (m.numCachedBlock.get? r).getD 0 = req.numComputedTokens / cfg.blockSize
  own : m.OwnPages r (req.numComputedTokens / cfg.blockSize)

omit [DecidableEq H] in
theorem getNumBlocksToAllocate_eq {req : Request T E H} {hits : List Nat} (h : Ready cfg r req hits m)
    (numTokens : Nat) : m.getNumBlocksToAllocate cfg r numTokens hits =
      .ok (cdiv numTokens cfg.blockSize - (hits.length + (m.table r).length) +
        hits.countP fun b => m.blockPool.refCnt b = 0 ∧ m.blockPool.isNull b = false) := by
  unfold getNumBlocksToAllocate
  dsimp only
  by_cases hhits : hits = []
  · subst hhits
    by_cases hcached : (m.numCachedBlock.get? r).isSome
    · rw [if_pos hcached, if_pos List.length_nil]
      simp
    · rw [if_neg hcached]
  · rw [(h.first hhits).2.1, Option.isSome_none, if_neg Bool.false_ne_true]

/-- What `allocate_slots` does when the pages suffice: the pages found and new ones, enough for all tokens up to
`numTokens`, and what is full then is cached. -/
structure AllocatesSlots (cfg : CacheConfig) (r : RequestId) (req : Request T E H) (hits new : List Nat)
    (numTokens : Nat) (m m' : CacheManager T E H) : Prop where
  extends_ : Extends r (hits ++ new) m m'
  unheld : ∀ b ∈ new, b ≠ BlockPool.nullBlock ∧ tableEntries m.reqToBlocks b + hits.count b = 0
  cached : (m'.numCachedBlock.get? r).getD 0 = numTokens / cfg.blockSize
  covers : numTokens ≤ (m'.table r).length * cfg.blockSize
  own : ∀ j p, req.numComputedTokens / cfg.blockSize + hits.length ≤ j → (m'.table r)[j]? = some p →
    p ≠ BlockPool.nullBlock ∧ (∀ key, m.HasKey p key → p ∈ new) ∧ tableEntries m'.reqToBlocks p = 1
  keys : ∀ b key, m'.HasKey b key → m.HasKey b key ∧ b ∉ new ∨
    ∃ j blockHash, j < numTokens / cfg.blockSize ∧ req.numComputedTokens / cfg.blockSize + hits.length ≤ j ∧
      (m'.table r)[j]? = some b ∧ req.blockHashes[j]? = some blockHash ∧ key = makeBlockHashWithGroupId blockHash 0
  made : ∀ j b blockHash, req.numComputedTokens / cfg.blockSize + hits.length ≤ j → j < numTokens / cfg.blockSize →
    (m'.table r)[j]? = some b → req.blockHashes[j]? = some blockHash →
    m'.HasKey b (makeBlockHashWithGroupId blockHash 0)
  kept : ∀ b ∉ m'.table r, ∀ key, m.HasKey b key → m'.HasKey b key

omit [DecidableEq H] in
/-- The pages found, the new pages and the cached ones, one after the other. -/
theorem AllocatesSlots.of_phases {req : Request T E H} {hits new : List Nat} {computed n : Nat}
    {m₁ m₂ m₃ : CacheManager T E H}
    (hdiv : computed / cfg.blockSize = req.numComputedTokens / cfg.blockSize + hits.length)
    (hextends₁ : Extends r hits m m₁) (hkeys₁ : ∀ b key, m₁.HasKey b key ↔ m.HasKey b key)
    (halloc : Allocates r new m₁ m₂) (hcovers : computed + n ≤ (m₂.table r).length * cfg.blockSize)
    (hown₂ : m₂.OwnPages r (computed / cfg.blockSize))
    (hcaches : Caches r req.blockHashes (computed / cfg.blockSize) ((computed + n) / cfg.blockSize) m₂ m₃) :
    AllocatesSlots cfg r req hits new (computed + n) m m₃ := by
  have hextends := (hextends₁.trans halloc.extends_).trans hcaches.extends_
  rw [List.append_nil] at hextends
  have htable₃ : m₃.table r = m₂.table r := by rw [hcaches.extends_.table, List.append_nil]
  refine ⟨hextends, fun b hb => ?_, ?_, htable₃ ▸ hcovers, fun j p hj hget => ?_, fun b key hkey => ?_,
    fun j b blockHash hle hlt hget => hcaches.made j b blockHash (by omega) hlt (htable₃ ▸ hget),
    fun b hb key hkey => ?_⟩
  · rw [← hextends₁.entries b]
    exact halloc.unheld b hb
  · rw [hcaches.cached]
    exact Nat.max_eq_right (Nat.div_le_div_right (Nat.le_add_right _ _))
  · rw [htable₃] at hget
    obtain ⟨hne, hnone, hone⟩ := hown₂ j p (by omega) hget
    refine ⟨hne, fun key hkey => ?_, ?_⟩
    · by_contra hnot
      exact hnone key ((halloc.keys p key).mpr ⟨(hkeys₁ p key).mpr hkey, hnot⟩)
    · rw [hcaches.extends_.entries p, hone]
      rfl
  · rw [htable₃]
    refine (hcaches.keys b key hkey).imp (fun hold => ?_) fun hnew => ?_
    · obtain ⟨hold, hnot⟩ := (halloc.keys b key).mp hold
      exact ⟨(hkeys₁ b key).mp hold, hnot⟩
    · obtain ⟨j, blockHash, hlt, hle, hrest⟩ := hnew
      exact ⟨j, blockHash, hlt, by omega, hrest⟩
  · rw [htable₃] at hb
    have hnot : b ∉ new := fun hmem => hb (by
      rw [halloc.extends_.table]
      exact List.mem_append_right _ hmem)
    exact hcaches.kept b hb key ((halloc.keys b key).mpr ⟨(hkeys₁ b key).mpr hkey, hnot⟩)

/-- The pages found join the table. -/
theorem Ready.addHits (htail : tail ≤ numBlocks) (h : m.Refines numBlocks tail cfg.blockSize bm) {req : Request T E H}
    {hits : List Nat} (hready : Ready cfg r req hits m) :
    Eff.wp (if hits ≠ [] then addLocalComputedBlocks r hits else pure ())
      (fun _ m' => m'.Refines numBlocks tail cfg.blockSize ⟨bm.pool.touch hits, m'.reqToBlocks⟩ ∧
        (∀ blocks, m'.reqToBlocks.set r blocks = bm.reqToBlocks.set r blocks) ∧ Extends r hits m m' ∧
        (m'.numCachedBlock.get? r).getD 0 = req.numComputedTokens / cfg.blockSize + hits.length ∧
        m'.OwnPages r (req.numComputedTokens / cfg.blockSize + hits.length) ∧
        ∀ b key, m'.HasKey b key ↔ m.HasKey b key)
      (fun _ _ => False) m := by
  by_cases hhits : hits = []
  · subst hhits
    rw [if_neg (not_not.mpr rfl)]
    refine ⟨⟨h.pool, rfl, ?_, h.caching, h.hashBlockSize⟩, fun blocks => by rw [h.tables], Extends.refl r m,
      hready.cached, hready.own, fun _ _ => Iff.rfl⟩
    rw [h.tables]
    exact h.balanced
  · obtain ⟨htable, -, hzero⟩ := hready.first hhits
    rw [if_pos hhits]
    refine Eff.wp_mono (h.addLocalComputedBlocks htail htable hready.keys) (fun _ m' hend => ?_) fun _ _ hf => hf
    obtain ⟨hrefines, hextends, hcached, hkeys⟩ := hend
    have htables : m'.reqToBlocks = bm.reqToBlocks.set r hits := hrefines.tables
    refine ⟨?_, fun blocks => ?_, hextends, ?_, ?_, hkeys⟩
    · rw [htables]
      exact hrefines
    · rw [htables, OrderedDict.set_set]
    · rw [hcached, hzero, Nat.zero_div, Nat.zero_add, Option.getD_some]
    · intro j p hj hget
      have hlen : hits.length ≤ j := (Nat.le_add_left _ _).trans hj
      rw [hextends.table, htable, List.nil_append, List.getElem?_eq_none hlen] at hget
      cases hget

/-- The pages that a step needs beside those the request holds or has found. -/
def numNewBlocks (cfg : CacheConfig) (r : RequestId) (hits : List Nat) (numTokens : Nat) (m : CacheManager T E H) :
    Nat :=
  cdiv numTokens cfg.blockSize - ((m.table r).length + hits.length)

/-- The pages of a request that wait in the queue are counted alike. -/
theorem Refines.countP_evictable (h : m.Refines numBlocks tail cfg.blockSize bm) (hits : List Nat) :
    (hits.countP fun b => m.blockPool.refCnt b = 0 ∧ m.blockPool.isNull b = false) =
      hits.countP fun b => bm.pool.refCnt b = 0 ∧ b ≠ BlockPool.nullBlock := by
  refine List.countP_congr fun b _ => ?_
  rw [decide_eq_true_iff, decide_eq_true_iff, h.pool.refCnt, ← Bool.not_eq_true, h.pool.null]

/-- `allocate_slots` for tokens the request has. The reserve aside, it is `none` exactly when the queue has too few. -/
theorem Refines.allocateSlots (htail : tail ≤ numBlocks) (h : m.Refines numBlocks tail cfg.blockSize bm)
    {req : Request T E H} {hits : List Nat} (hready : Ready cfg r req hits m) (opts : AllocateOptions)
    {computed n : Nat} (hcomputed : req.numComputedTokens + hits.length * cfg.blockSize = computed) (hn : n ≠ 0)
    (hfits : computed + n ≤ req.allTokenIds.length) (hmax : req.allTokenIds.length ≤ cfg.maxModelLen)
    (hhashes : req.blockHashes.length = req.allTokenIds.length / cfg.blockSize) :
    Eff.wp (allocateSlots cfg opts r req n hits)
      (fun result m' => result = none ∧ m' = m ∧
          (opts = noReserve → bm.allocateSlots r hits (m.numNewBlocks cfg r hits (computed + n)) = (none, bm)) ∨
        ∃ new bm', result = some new ∧
          bm.allocateSlots r hits (m.numNewBlocks cfg r hits (computed + n)) = (some new, bm') ∧
          m'.Refines numBlocks tail cfg.blockSize
            (bm'.cacheBlocks r (computed / cfg.blockSize) ((computed + n) / cfg.blockSize)) ∧
          AllocatesSlots cfg r req hits new (computed + n) m m')
      (fun _ _ => False) m := by
  have hmin : min computed cfg.maxModelLen = computed := Nat.min_eq_left (by omega)
  have hslots : min (computed + n) cfg.maxModelLen = computed + n := Nat.min_eq_left (by omega)
  have hdiv : computed / cfg.blockSize = req.numComputedTokens / cfg.blockSize + hits.length := by
    rw [← hcomputed]
    exact Nat.add_mul_div_right _ _ cfg.blockSize_pos
  have hbounds : ∀ b ∈ hits, b ≠ BlockPool.nullBlock ∧ b < tail := fun b hb =>
    (hready.keys b hb).elim fun _ hkey => PoolInv.bounds_of_hasKey ⟨bm, h⟩ hkey
  have htouch := LinkedBlockPool.length_le_touch h.balanced hbounds
  simp only [CacheManager.allocateSlots, hn, if_false, Eff.wp_bind, Eff.wp_read, getNumBlocksToAllocate_eq hready,
    hcomputed, hmin, hslots, Nat.min_eq_left hfits, h.countP_evictable, h.pool.queue.count, h.caching, if_true]
  generalize hevictable : (hits.countP fun b => bm.pool.refCnt b = 0 ∧ b ≠ BlockPool.nullBlock) = evictable at *
  have hnew : cdiv (computed + n) cfg.blockSize - (hits.length + (m.table r).length) =
      m.numNewBlocks cfg r hits (computed + n) := by rw [numNewBlocks, Nat.add_comm hits.length]
  rw [hnew]
  by_cases hfull : opts.fullSequenceMustFit = true ∧ (bm.pool.freeQueue.length : Int) <
      ((cdiv (min req.allTokenIds.length cfg.maxModelLen) cfg.blockSize - (hits.length + (m.table r).length) +
        evictable : Nat) : Int) + opts.watermarkBlocks
  · rw [if_pos hfull]
    refine Or.inl ⟨rfl, rfl, fun hopts => ?_⟩
    rw [hopts] at hfull
    cases hfull.1
  rw [if_neg hfull]
  by_cases hroom : (bm.pool.freeQueue.length : Int) - opts.reservedBlocks <
      ((m.numNewBlocks cfg r hits (computed + n) + evictable : Nat) : Int) + opts.watermarkBlocks
  · rw [if_pos hroom]
    refine Or.inl ⟨rfl, rfl, fun hopts => ?_⟩
    rw [hopts] at hroom
    simp only [noReserve] at hroom
    rw [BlockManager.allocateSlots, hevictable, if_pos (by omega)]
  rw [if_neg hroom]
  have hjoin : ∀ rest : ManagerM T E H (Option (List Nat)),
      (if hits ≠ [] then CacheManager.addLocalComputedBlocks r hits >>= fun _ => rest else rest) =
        (if hits ≠ [] then CacheManager.addLocalComputedBlocks r hits else pure ()) >>= fun _ => rest := by
    intro rest
    split_ifs <;> rfl
  refine (congrArg (Eff.wp · _ _ m) (hjoin _)).mpr ((Eff.wp_bind _ _).mpr ?_)
  refine Eff.wp_mono (hready.addHits htail h) (fun _ m₁ hmid => ?_) fun _ _ hf => hf
  obtain ⟨hrefines₁, htables₁, hextends₁, hcached₁, hown₁, hkeys₁⟩ := hmid
  have hneeded : cdiv (computed + n) cfg.blockSize - (m₁.table r).length =
      m.numNewBlocks cfg r hits (computed + n) := by rw [hextends₁.table, List.length_append, numNewBlocks]
  have hfree : m.numNewBlocks cfg r hits (computed + n) ≤ (bm.pool.touch hits).freeQueue.length := by omega
  refine (Eff.wp_bind _ _).mpr (Eff.wp_mono (hrefines₁.allocateNewBlocks (by omega) (hneeded.trans_le hfree))
    (fun new m₂ hmid => ?_) fun _ _ hf => hf)
  obtain ⟨⟨pool', hget, hrefines₂⟩, halloc, hcovers⟩ := hmid
  rw [hneeded] at hget
  have hown₂ := hown₁.allocates halloc
  have hcached₂ : (m₂.numCachedBlock.get? r).getD 0 = computed / cfg.blockSize := by
    rw [halloc.numCachedBlock, hcached₁, hdiv]
  rw [← hdiv] at hown₂
  refine (Eff.wp_bind _ _).mpr (Eff.wp_mono (hrefines₂.cacheBlocks hcached₂ hown₂
    (hhashes ▸ Nat.div_le_div_right hfits)) (fun _ m₃ hlast => ?_) fun _ _ hf => hf)
  obtain ⟨hrefines₃, hcaches⟩ := hlast
  have habstract := BlockManager.allocateSlots_of_getNewBlocks r (by omega) hget
  refine Or.inr ⟨new, _, rfl, habstract, ?_, ?_⟩
  · have htable : bm.table r ++ hits = BlockManager.table ⟨bm.pool.touch hits, m₁.reqToBlocks⟩ r :=
      (by rw [h.table, hextends₁.table] : bm.table r ++ hits = m₁.table r)
    rw [htable, ← htables₁]
    exact hrefines₃
  · exact .of_phases hdiv hextends₁ hkeys₁ halloc hcovers hown₂ hcaches

/-- What `allocate_slots` comes to for the accounts. -/
theorem allocateSlots_spec (htail : tail ≤ numBlocks) (h : PoolInv numBlocks tail cfg.blockSize m)
    {req : Request T E H} {hits : List Nat} (hready : Ready cfg r req hits m) (opts : AllocateOptions)
    {computed n : Nat} (hcomputed : req.numComputedTokens + hits.length * cfg.blockSize = computed) (hn : n ≠ 0)
    (hfits : computed + n ≤ req.allTokenIds.length) (hmax : req.allTokenIds.length ≤ cfg.maxModelLen)
    (hhashes : req.blockHashes.length = req.allTokenIds.length / cfg.blockSize) :
    Eff.wp (allocateSlots cfg opts r req n hits)
      (fun result m' => result = none ∧ m' = m ∨ ∃ new, result = some new ∧
        PoolInv numBlocks tail cfg.blockSize m' ∧ AllocatesSlots cfg r req hits new (computed + n) m m')
      (fun _ _ => False) m := by
  obtain ⟨bm, hbm⟩ := h
  refine Eff.wp_mono (hbm.allocateSlots htail hready opts hcomputed hn hfits hmax hhashes) (fun result m' hend => ?_)
    fun _ _ hf => hf
  rcases hend with ⟨hnone, hm', -⟩ | ⟨new, bm', hsome, -, hrefines, hslots⟩
  · exact Or.inl ⟨hnone, hm'⟩
  · exact Or.inr ⟨new, hsome, ⟨_, hrefines⟩, hslots⟩

/-- A request gave its pages back. -/
structure Releases (r : RequestId) (m m' : CacheManager T E H) : Prop where
  table : m'.table r = []
  other : ∀ r' ≠ r, m'.table r' = m.table r'
  entries : ∀ b, tableEntries m'.reqToBlocks b + (m.table r).count b = tableEntries m.reqToBlocks b
  uncached : m'.numCachedBlock.get? r = none
  cached : ∀ r' ≠ r, m'.numCachedBlock.get? r' = m.numCachedBlock.get? r'
  requests : m'.requests = m.requests
  keys : ∀ b key, m'.HasKey b key ↔ m.HasKey b key

theorem Refines.free (htail : tail ≤ numBlocks) (h : m.Refines numBlocks tail cfg.blockSize bm) (r : RequestId) :
    Eff.wp (free r) (fun _ m' => m'.Refines numBlocks tail cfg.blockSize (bm.free r) ∧ Releases r m m')
      (fun _ _ => False) m := by
  have hentries : ∀ b, tableEntries (m.reqToBlocks.erase r) b + (m.table r).count b = tableEntries m.reqToBlocks b :=
    fun b => by rw [tableEntries_eq_table m r b, Nat.add_comm]
  have hheld : ∀ b, b ≠ BlockPool.nullBlock → (m.table r).reverse.count b ≤ tableEntries bm.reqToBlocks b := by
    intro b _
    rw [List.count_reverse, ← h.tables, ← hentries b]
    exact Nat.le_add_left _ _
  simp only [CacheManager.free, Eff.wp_bind, Eff.wp_read, Eff.wp_modify]
  refine wp_onPool (m := { m with reqToBlocks := m.reqToBlocks.erase r, numCachedBlock := m.numCachedBlock.erase r })
    (LinkedBlockPool.moves_freeBlocks _) (h.pool.freeBlocks h.balanced htail hheld)
    fun _ lp' hend hsettings => ?_
  obtain ⟨hpool, hsame⟩ := hend
  refine ⟨⟨?_, ?_, h.balanced.free htail r, hsettings.enableCaching.trans h.caching,
    hsettings.hashBlockSize.trans h.hashBlockSize⟩, ?_⟩
  · show LinkedBlockPool.Refines numBlocks lp' (bm.pool.freeBlocks (bm.table r).reverse)
    rw [h.table]
    exact hpool
  · show m.reqToBlocks.erase r = _
    rw [h.tables]
    rfl
  · exact
      { table := by
          show ((m.reqToBlocks.erase r).get? r).getD [] = []
          rw [OrderedDict.get?_erase_self]
          rfl
        other := fun r' hr' => by
          show ((m.reqToBlocks.erase r).get? r').getD [] = _
          rw [OrderedDict.get?_erase_of_ne _ hr']
          rfl
        entries := hentries
        uncached := OrderedDict.get?_erase_self _ _
        cached := fun r' hr' => OrderedDict.get?_erase_of_ne _ hr'
        requests := rfl
        keys := fun b key => hsame.hasKey }

theorem free_spec (htail : tail ≤ numBlocks) (h : PoolInv numBlocks tail cfg.blockSize m) (r : RequestId) :
    Eff.wp (free r) (fun _ m' => PoolInv numBlocks tail cfg.blockSize m' ∧ Releases r m m') (fun _ _ => False) m := by
  obtain ⟨bm, hbm⟩ := h
  exact Eff.wp_mono (hbm.free htail r) (fun _ _ hend => ⟨⟨_, hend.1⟩, hend.2⟩) fun _ _ hf => hf

/-- `_preempt_request` on a running request. -/
theorem preemptRequest_spec (htail : tail ≤ numBlocks) (h : PoolInv numBlocks tail cfg.blockSize m)
    {req : Request T E H} (hreq : m.requests.get? r = some req) (hrunning : req.running = true) :
    Eff.wp (preemptRequest r)
      (fun _ m' => ∃ m₁, PoolInv numBlocks tail cfg.blockSize m₁ ∧ Releases r m m₁ ∧
        m' = setRequest r { req with numComputedTokens := 0, running := false } m₁)
      (fun _ _ => False) m := by
  simp only [preemptRequest, Eff.wp_bind, Eff.wp_read, hreq, hrunning, if_true]
  refine Eff.wp_mono (free_spec htail h r) (fun _ m₁ hend => ?_) fun _ _ hf => hf
  exact ⟨m₁, hend.1, hend.2, rfl⟩

/-- Pages were taken out of tables; the null block stands in their place. -/
structure Removes (entries : List (BlockRef × Nat)) (m m' : CacheManager T E H) : Prop where
  length : ∀ r, (m'.table r).length = (m.table r).length
  kept : ∀ (r : RequestId) (j p : Nat), (m'.table r)[j]? = some p → p ≠ BlockPool.nullBlock → (m.table r)[j]? = some p
  removed : ∀ (r : RequestId) (j p : Nat), (m.table r)[j]? = some p → (m'.table r)[j]? ≠ some p →
    ∃ e ∈ entries, e.1.requestId = r ∧ e.1.blockIdx.toNat = j ∧ e.2 = p
  numCachedBlock : m'.numCachedBlock = m.numCachedBlock
  requests : m'.requests = m.requests

omit [DecidableEq H] in
theorem Removes.refl (m : CacheManager T E H) : Removes [] m m :=
  ⟨fun _ => rfl, fun _ _ _ h _ => h, fun _ _ _ h hne => absurd h hne, rfl, rfl⟩

omit [DecidableEq H] in
theorem Removes.cons {e : BlockRef × Nat} {rest : List (BlockRef × Nat)} (h : Removes [e] m m')
    (h' : Removes rest m' m'') : Removes (e :: rest) m m'' where
  length r := (h'.length r).trans (h.length r)
  kept r j p hget hne := h.kept r j p (h'.kept r j p hget hne) hne
  removed r j p hget hne := by
    by_cases hmid : (m'.table r)[j]? = some p
    · obtain ⟨e', he', hrest⟩ := h'.removed r j p hmid hne
      exact ⟨e', List.mem_cons_of_mem e he', hrest⟩
    · obtain ⟨e', he', hrest⟩ := h.removed r j p hget hmid
      rw [List.mem_singleton.mp he'] at hrest
      exact ⟨e, List.mem_cons_self, hrest⟩
  numCachedBlock := h'.numCachedBlock.trans h.numCachedBlock
  requests := h'.requests.trans h.requests

omit [DecidableEq H] in
theorem Removes.skip {e : BlockRef × Nat} {rest : List (BlockRef × Nat)} (h : Removes rest m m') :
    Removes (e :: rest) m m' :=
  Removes.cons ⟨fun _ => rfl, fun _ _ _ hget _ => hget, fun _ _ _ hget hne => absurd hget hne, rfl, rfl⟩ h

omit [DecidableEq H] in
/-- One page leaves a table. -/
theorem removes_setTable {ref : BlockRef} {gpuId : Nat} {blocks : List Nat}
    (htable : m.reqToBlocks.get? ref.requestId = some blocks) (hget : blocks[ref.blockIdx.toNat]? = some gpuId) :
    Removes [(ref, gpuId)] m (setTable ref.requestId (blocks.set ref.blockIdx.toNat BlockPool.nullBlock) m) := by
  have hblocks : m.table ref.requestId = blocks := by rw [table, htable, Option.getD_some]
  have htable' : ∀ r j, ((setTable ref.requestId (blocks.set ref.blockIdx.toNat BlockPool.nullBlock) m).table r)[j]? =
      if r = ref.requestId ∧ j = ref.blockIdx.toNat then some BlockPool.nullBlock else (m.table r)[j]? := by
    intro r j
    rw [table_setTable]
    by_cases hr : r = ref.requestId
    · subst hr
      rw [if_pos rfl, hblocks, List.getElem?_set]
      by_cases hj : ref.blockIdx.toNat = j
      · subst hj
        have hlt := (List.getElem?_eq_some_iff.mp hget).1
        simp [hlt]
      · simp [hj, Ne.symm hj]
    · simp [hr]
  refine ⟨fun r => ?_, fun r j p hp hne => ?_, fun r j p hp hne => ?_, rfl, rfl⟩
  · rw [table_setTable]
    split_ifs with hr
    · rw [hr, hblocks, List.length_set]
    · rfl
  · rw [htable'] at hp
    split_ifs at hp with hr
    · exact absurd (Option.some.inj hp).symm hne
    · exact hp
  · rw [htable'] at hne
    split_ifs at hne with hr
    · obtain ⟨rfl, rfl⟩ := hr
      rw [hblocks, hget] at hp
      exact ⟨(ref, gpuId), List.mem_singleton_self _, rfl, rfl, Option.some.inj hp⟩
    · exact absurd hp hne

/-- What the table surgery does: pages leave the tables, and those with a hash are told apart. -/
structure Surgery (entries : List (BlockRef × Nat)) (freed found : List Nat) (m m' : CacheManager T E H) : Prop where
  removes : Removes entries m m'
  pool : m'.blockPool = m.blockPool
  found : ∀ b, b ∈ found ↔ b ∈ freed ∧ (m.blockPool.blockHash b).isSome = true
  count : ∀ b, b ≠ BlockPool.nullBlock →
    tableEntries m'.reqToBlocks b + freed.count b = tableEntries m.reqToBlocks b

omit [DecidableEq H] in
theorem surgeryLoop_spec (entries : List (BlockRef × Nat)) (m : CacheManager T E H) :
    Surgery entries (surgeryLoop entries m).1.1 (surgeryLoop entries m).1.2 m (surgeryLoop entries m).2 := by
  induction entries generalizing m with
  | nil => exact ⟨Removes.refl m, rfl, by simp [surgeryLoop], fun _ _ => rfl⟩
  | cons e rest ih =>
      obtain ⟨ref, gpuId⟩ := e
      rw [surgeryLoop]
      cases htable : m.reqToBlocks.get? ref.requestId with
      | none => exact { ih m with removes := (ih m).removes.skip }
      | some blocks =>
          dsimp only
          by_cases hget : blocks[ref.blockIdx.toNat]? = some gpuId
          · rw [if_pos hget]
            have hrest := ih (setTable ref.requestId (blocks.set ref.blockIdx.toNat BlockPool.nullBlock) m)
            refine ⟨(removes_setTable htable hget).cons hrest.removes, hrest.pool, fun b => ?_, fun b hb => ?_⟩
            · have hfound := hrest.found b
              dsimp only
              split_ifs with hsome
              · rw [List.mem_cons, List.mem_cons, hfound, or_and_right]
                refine or_congr_left ⟨fun hb => ⟨hb, hb ▸ hsome⟩, And.left⟩
              · rw [hfound, List.mem_cons, or_and_right]
                refine ⟨Or.inr, fun hb => hb.resolve_left fun hb => hsome (hb.1 ▸ hb.2)⟩
            · have hentries := tableEntries_set_null htable hget hb
              have hcount := hrest.count b hb
              change _ = tableEntries (m.reqToBlocks.set _ _) b at hcount
              dsimp only
              rw [BlockPool.count_cons_eq, List.count_nil] at hentries
              rw [BlockPool.count_cons_eq]
              omega
          · rw [if_neg hget]
            exact { ih m with removes := (ih m).removes.skip }

/-- Evicting only the pages that have a hash makes no difference. -/
theorem Surgery.evictBlocks {entries : List (BlockRef × Nat)} {freed found : List Nat}
    (h : Surgery entries freed found m m') (hbm : m.Refines numBlocks tail cfg.blockSize bm) :
    bm.pool.evictBlocks found = bm.pool.evictBlocks freed := by
  refine congrArg (fun hashed => { bm.pool with hashed := hashed }) (Finset.ext fun b => ?_)
  rw [Finset.mem_sdiff, Finset.mem_sdiff, List.mem_toFinset, List.mem_toFinset]
  refine and_congr_right fun hb => not_congr ?_
  rw [h.found, and_iff_left ((hbm.pool.hashed b).mp hb)]

/-- `_process_store_completion`: the pages leave the tables, can no longer be found and go back. -/
theorem Refines.processStoreCompletion (htail : tail ≤ numBlocks) (h : m.Refines numBlocks tail cfg.blockSize bm)
    (entries : List (BlockRef × Nat)) :
    let r := surgeryLoop entries m
    Eff.wp (processStoreCompletion entries)
      (fun _ m' => m'.Refines numBlocks tail cfg.blockSize
          ⟨(bm.pool.evictBlocks r.1.1).freeBlocks r.1.1, r.2.reqToBlocks⟩ ∧
        Removes entries m m' ∧ ∀ b key, m'.HasKey b key → m.HasKey b key)
      (fun _ _ => False) m := by
  have hsurgery := surgeryLoop_spec entries m
  simp only [CacheManager.processStoreCompletion, Eff.wp_bind, Eff.wp_read, Eff.wp_modify]
  rw [← hsurgery.evictBlocks h]
  generalize (surgeryLoop entries m).1.1 = freed at *
  generalize (surgeryLoop entries m).1.2 = found at *
  generalize (surgeryLoop entries m).2 = m₁ at *
  have hheld : ∀ b, b ≠ BlockPool.nullBlock → freed.count b ≤ tableEntries bm.reqToBlocks b := fun b hb => by
    rw [← h.tables, ← hsurgery.count b hb]
    exact Nat.le_add_left _ _
  have hbalanced : BlockManager.Balanced numBlocks tail
      ⟨(bm.pool.evictBlocks found).freeBlocks freed, m₁.reqToBlocks⟩ := by
    refine ((h.balanced.evictBlocks found).freeBlocks htail hheld).congr fun b hb => ?_
    rw [← h.tables, ← hsurgery.count b hb, Nat.add_sub_cancel]
  have hend : ∀ lp', LinkedBlockPool.SameSettings m.blockPool lp' →
      LinkedBlockPool.Refines numBlocks lp' ((bm.pool.evictBlocks found).freeBlocks freed) →
      CacheManager.Refines numBlocks tail cfg.blockSize { m₁ with blockPool := lp' }
          ⟨(bm.pool.evictBlocks found).freeBlocks freed, m₁.reqToBlocks⟩ ∧
        Removes entries m { m₁ with blockPool := lp' } := fun lp' hsettings hpool =>
    ⟨⟨hpool, rfl, hbalanced, hsettings.enableCaching.trans h.caching, hsettings.hashBlockSize.trans h.hashBlockSize⟩,
      hsurgery.removes.length, hsurgery.removes.kept, hsurgery.removes.removed, hsurgery.removes.numCachedBlock,
      hsurgery.removes.requests⟩
  -- the second stage, from any pool in which the pages can no longer be found
  have hfree : ∀ lp', LinkedBlockPool.SameSettings m.blockPool lp' →
      LinkedBlockPool.Refines numBlocks lp' (bm.pool.evictBlocks found) →
      (∀ b key, lp'.HasKey b key → m.HasKey b key) →
      Eff.wp (if freed ≠ [] then onPool (LinkedBlockPool.freeBlocks freed) else pure ())
        (fun _ m' => m'.Refines numBlocks tail cfg.blockSize
            ⟨(bm.pool.evictBlocks found).freeBlocks freed, m₁.reqToBlocks⟩ ∧
          Removes entries m m' ∧ ∀ b key, m'.HasKey b key → m.HasKey b key)
        (fun _ _ => False) { m₁ with blockPool := lp' } := by
    intro lp' hsettings hpool hkeys
    by_cases hnone : freed = []
    · rw [if_neg (not_not.mpr hnone)]
      rw [hnone, BlockPool.freeBlocks_nil] at hend ⊢
      obtain ⟨hrefines, hremoves⟩ := hend lp' hsettings hpool
      exact ⟨hrefines, hremoves, hkeys⟩
    · rw [if_pos hnone]
      refine wp_onPool (m := { m₁ with blockPool := lp' }) (LinkedBlockPool.moves_freeBlocks freed)
        (hpool.freeBlocks (h.balanced.evictBlocks found) htail hheld) fun _ lp'' hstage hsettings' => ?_
      obtain ⟨hpool', hsame⟩ := hstage
      obtain ⟨hrefines, hremoves⟩ := hend lp'' (hsettings.trans hsettings') hpool'
      exact ⟨hrefines, hremoves, fun b key hkey => hkeys b key (hsame.hasKey.mp hkey)⟩
  have hstart : m₁ = { m₁ with blockPool := m.blockPool } := by rw [← hsurgery.pool]
  by_cases hnone : found = []
  · rw [if_neg (not_not.mpr hnone), hstart]
    refine hfree m.blockPool ⟨rfl, rfl⟩ ?_ fun _ _ => id
    rw [hnone, BlockPool.evictBlocks_nil]
    exact h.pool
  · rw [if_pos hnone, Eff.wp_bind]
    have hids : ∀ b ∈ found, b < numBlocks := fun b hb =>
      (h.balanced.cached b ((h.pool.hashed b).mpr ((hsurgery.found b).mp hb).2)).2.trans_le htail
    have hpool := h.pool
    rw [← hsurgery.pool] at hpool
    refine wp_onPool (LinkedBlockPool.moves_evictBlocks found) (hpool.evictBlocks hids)
      fun _ lp' hstage hsettings => ?_
    obtain ⟨hpool', hkeys⟩ := hstage
    rw [hsurgery.pool] at hsettings hkeys
    exact hfree lp' hsettings hpool' fun b key hkey => ((hkeys b key).mp hkey).1

theorem processStoreCompletion_spec (htail : tail ≤ numBlocks) (h : PoolInv numBlocks tail cfg.blockSize m)
    (entries : List (BlockRef × Nat)) :
    Eff.wp (processStoreCompletion entries)
      (fun _ m' => PoolInv numBlocks tail cfg.blockSize m' ∧ Removes entries m m' ∧
        (∀ b, tableEntries m'.reqToBlocks b ≤ tableEntries m.reqToBlocks b ∨ b = BlockPool.nullBlock) ∧
        ∀ b key, m'.HasKey b key → m.HasKey b key)
      (fun _ _ => False) m := by
  obtain ⟨bm, hbm⟩ := h
  refine Eff.wp_mono (hbm.processStoreCompletion htail entries) (fun _ m' hend => ?_) fun _ _ hf => hf
  obtain ⟨hrefines, hremoves, hkeys⟩ := hend
  refine ⟨⟨_, hrefines⟩, hremoves, fun b => ?_, hkeys⟩
  by_cases hb : b = BlockPool.nullBlock
  · exact Or.inr hb
  · refine Or.inl ?_
    rw [hrefines.tables, ← (surgeryLoop_spec entries m).count b hb]
    exact Nat.le_add_right _ _

theorem hitLoop_spec {pool : LinkedBlockPool H} (h : pool.Indexed) (blockHashes : List H) :
    ∃ hits, hitLoop pool blockHashes = .ok hits ∧ hits.length ≤ blockHashes.length ∧
      ∀ (i b : Nat), hits[i]? = some b →
        ∃ blockHash, blockHashes[i]? = some blockHash ∧ pool.HasKey b (makeBlockHashWithGroupId blockHash 0) := by
  induction blockHashes with
  | nil => exact ⟨[], rfl, Nat.le_refl 0, by simp⟩
  | cons blockHash rest ih =>
      have hget : pool.getCachedBlock blockHash 0 = .ok (pool.cachedBlockHashToBlock.blocksAt _).head? :=
        BlockHashToBlockMap.getOneBlock_eq h.full _
      rw [hitLoop, hget]
      cases hhead : (pool.cachedBlockHashToBlock.blocksAt (makeBlockHashWithGroupId blockHash 0)).head? with
      | none => exact ⟨[], rfl, Nat.zero_le _, by simp⟩
      | some b =>
          obtain ⟨hits, hloop, hlen, hkeys⟩ := ih
          refine ⟨b :: hits, by rw [hloop]; rfl, Nat.succ_le_succ hlen, fun i b' hb' => ?_⟩
          cases i with
          | zero =>
              obtain rfl : b = b' := Option.some.inj hb'
              exact ⟨blockHash, rfl, (h.index _ b).mp (List.mem_of_mem_head? hhead)⟩
          | succ i => exact hkeys i b' hb'

/-- The prefix cache answers with pages that go by the hashes of the request's first blocks, and leaves a token to
compute. -/
theorem getComputedBlocks_spec (h : PoolInv numBlocks tail cfg.blockSize m) (req : Request T E H) :
    ∃ hits, m.getComputedBlocks cfg req = .ok hits ∧ hits.length ≤ (req.allTokenIds.length - 1) / cfg.blockSize ∧
      ∀ (i b : Nat), hits[i]? = some b →
        ∃ blockHash, req.blockHashes[i]? = some blockHash ∧ m.HasKey b (makeBlockHashWithGroupId blockHash 0) := by
  obtain ⟨bm, hbm⟩ := h
  obtain ⟨hits, hloop, hlen, hkeys⟩ := hitLoop_spec hbm.pool.indexed
    (req.blockHashes.take ((req.allTokenIds.length - 1) / cfg.blockSize))
  refine ⟨hits, by rw [getComputedBlocks, if_pos hbm.caching, findLongestCacheHit, hloop], ?_, fun i b hb => ?_⟩
  · exact hlen.trans (List.length_take_le _ _)
  · obtain ⟨blockHash, hhash, hkey⟩ := hkeys i b hb
    rw [List.getElem?_take] at hhash
    split_ifs at hhash
    exact ⟨blockHash, hhash, hkey⟩

end Steps

end CacheManager

end KVOffload

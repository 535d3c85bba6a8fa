import KVOffload.VllmPoolRefinement

/-! Whole runs of the block pool in memory. From a pool whose tail was reserved for staging, every sequence
of calls that vLLM may make is one of the pool of counts and a list; nothing is raised but the
`ValueError` of a pool that is too empty, and the prefix cache never leads to a staging page. -/

namespace KVOffload
open Base

variable {H : Type} [DecidableEq H]

/-- What vLLM does with the pool. -/
inductive LinkedPoolOp (H : Type) where
  | getNewBlocks (numBlocks : Nat)
  | touch (blocks : List Nat)
  | cacheFullBlocks (requestHashes : List H) (blocks : List Nat) (numCachedBlocks numFullBlocks blockSize groupId : Nat)
      (blockMask : Option (List Bool))
  | cachePartialBlock (requestHashes : List H) (b numTokens groupId blockSize : Nat)
  | freeBlocks (orderedBlocks : List Nat)
  | evictBlocks (blockIds : List Nat)
  | resetPrefixCache

/-- The pool with the blocks that requests hold. -/
structure LinkedPoolUse (H : Type) where
  pool : LinkedBlockPool H
  held : Multiset Nat

namespace LinkedPoolOp

/-- The call, with the blocks its caller then holds. -/
def perform : LinkedPoolOp H → PoolM H (List Nat)
  | getNewBlocks n => LinkedBlockPool.getNewBlocks n
  | touch blocks => (fun _ => blocks) <$> LinkedBlockPool.touch blocks
  | cacheFullBlocks requestHashes blocks numCachedBlocks numFullBlocks blockSize groupId blockMask =>
      (fun _ => []) <$>
        LinkedBlockPool.cacheFullBlocks requestHashes blocks numCachedBlocks numFullBlocks blockSize groupId blockMask
  | cachePartialBlock requestHashes b numTokens groupId blockSize =>
      (fun _ => []) <$> LinkedBlockPool.cachePartialBlock requestHashes b numTokens groupId blockSize
  | freeBlocks blocks => (fun _ => []) <$> LinkedBlockPool.freeBlocks blocks
  | evictBlocks ids => (fun _ => []) <$> LinkedBlockPool.evictBlocks ids
  | resetPrefixCache => (fun _ => []) <$> LinkedBlockPool.resetPrefixCache

/-- The blocks its caller no longer holds. -/
def returned : LinkedPoolOp H → List Nat
  | freeBlocks blocks => blocks
  | _ => []

def step (u : LinkedPoolUse H) (op : LinkedPoolOp H) : LinkedPoolUse H :=
  match op.perform u.pool with
  | (.ok blocks, pool) => ⟨pool, u.held + blocks - op.returned⟩
  | (.error _, pool) => ⟨pool, u.held⟩

/-- Whether `cache_full_blocks` may be called: caching is on, the request holds the blocks, and they can be cached. -/
def CacheLegal (u : LinkedPoolUse H) (requestHashes : List H) (newFullBlocks : List Nat)
    (numCachedBlocks blockSize : Nat) (blockMask : Option (List Bool)) : Prop :=
  u.pool.enableCaching = true ∧ (∀ b ∈ newFullBlocks, u.pool.isNull b = false → b ∈ u.held) ∧
    blockMask.any (fun mask => mask.length != newFullBlocks.length) = false ∧
    match resolveBlockHashes requestHashes u.pool.hashBlockSize blockSize with
    | .error _ => False
    | .ok blockHashes => u.pool.Cacheable blockHashes newFullBlocks numCachedBlocks blockSize blockMask

/-- Only blocks with a hash are touched, only held ones are given a hash or freed, and only blocks of the pool are
evicted. Null blocks may be freed. -/
def Legal (u : LinkedPoolUse H) : LinkedPoolOp H → Prop
  | getNewBlocks _ => True
  | touch blocks => ∀ b ∈ blocks, (u.pool.blockHash b).isSome = true
  | cacheFullBlocks requestHashes blocks numCachedBlocks numFullBlocks blockSize _ blockMask =>
      CacheLegal u requestHashes ((blocks.take numFullBlocks).drop numCachedBlocks) numCachedBlocks blockSize blockMask
  | cachePartialBlock requestHashes b numTokens _ blockSize =>
      u.pool.enableCaching = true ∧ u.pool.isNull b = false ∧ b ∈ u.held ∧
        u.pool.PartialCall requestHashes numTokens blockSize
  | freeBlocks blocks => ∀ b ∈ blocks, u.pool.isNull b = false → blocks.count b ≤ u.held.count b
  | evictBlocks ids => ∀ b ∈ ids, b < u.pool.numGpuBlocks
  | resetPrefixCache => True

instance (u : LinkedPoolUse H) (requestHashes : List H) (newFullBlocks : List Nat) (numCachedBlocks blockSize : Nat)
    (blockMask : Option (List Bool)) :
    Decidable (CacheLegal u requestHashes newFullBlocks numCachedBlocks blockSize blockMask) := by
  unfold CacheLegal
  cases resolveBlockHashes requestHashes u.pool.hashBlockSize blockSize with
  | error e => exact inferInstanceAs (Decidable (_ ∧ _ ∧ _ ∧ False))
  | ok blockHashes =>
      exact inferInstanceAs (Decidable (_ ∧ _ ∧ _ ∧ LinkedBlockPool.Cacheable _ _ _ _ _ _))

instance (u : LinkedPoolUse H) : (op : LinkedPoolOp H) → Decidable (op.Legal u)
  | getNewBlocks _ => inferInstanceAs (Decidable True)
  | touch blocks => inferInstanceAs (Decidable (∀ b ∈ blocks, (u.pool.blockHash b).isSome = true))
  | cacheFullBlocks _ _ _ _ _ _ _ => inferInstanceAs (Decidable (CacheLegal _ _ _ _ _ _))
  | cachePartialBlock requestHashes b numTokens _ blockSize =>
      inferInstanceAs (Decidable (_ ∧ _ ∧ b ∈ u.held ∧ u.pool.PartialCall requestHashes numTokens blockSize))
  | freeBlocks blocks =>
      inferInstanceAs (Decidable (∀ b ∈ blocks, u.pool.isNull b = false → blocks.count b ≤ u.held.count b))
  | evictBlocks ids => inferInstanceAs (Decidable (∀ b ∈ ids, b < u.pool.numGpuBlocks))
  | resetPrefixCache => inferInstanceAs (Decidable True)

/-- A call returns. Too few free blocks make `get_new_blocks` raise and change nothing; otherwise its blocks are
distinct, nobody holds them, and with caching no key leads to them afterwards. The prefix cache is never reset. -/
def Returns (u : LinkedPoolUse H) (op : LinkedPoolOp H) : Prop :=
  match op with
  | getNewBlocks n =>
      (u.pool.freeBlockQueue.numFreeBlocks < n ∧
        LinkedBlockPool.getNewBlocks n u.pool = (.error (.cannotGetBlocks n), u.pool)) ∨
      ∃ blocks pool', LinkedBlockPool.getNewBlocks n u.pool = (.ok blocks, pool') ∧ blocks.length = n ∧ blocks.Nodup ∧
        ∀ b ∈ blocks, b ∉ u.held ∧
          (u.pool.enableCaching = true → ∀ key, b ∉ pool'.cachedBlockHashToBlock.blocksAt key)
  | resetPrefixCache => LinkedBlockPool.resetPrefixCache u.pool = (.ok false, u.pool)
  | op => ∃ blocks pool', op.perform u.pool = (.ok blocks, pool')

end LinkedPoolOp

section Simulation

variable {numBlocks tail : Nat} {u : LinkedPoolUse H} {v : PoolUse}

/-- The pool in memory and the pool of counts, in use by the same holders. -/
structure Simulates (numBlocks tail : Nat) (u : LinkedPoolUse H) (v : PoolUse) : Prop where
  refines : LinkedBlockPool.Refines numBlocks u.pool v.pool
  held : u.held = v.held
  counted : v.Counted numBlocks tail

/-- The calls on the pool of counts that one call on the pool in memory amounts to. -/
def LinkedPoolOp.abstract (u : LinkedPoolUse H) : LinkedPoolOp H → List PoolOp
  | .getNewBlocks n => [.getNewBlocks n]
  | .touch blocks => [.touch blocks]
  | .cacheFullBlocks _ blocks numCachedBlocks numFullBlocks _ _ blockMask =>
      [.cacheFullBlocks
        ((u.pool.activeBlocks ((blocks.take numFullBlocks).drop numCachedBlocks) blockMask).map Prod.fst)]
  | .cachePartialBlock _ b _ _ _ => [.cacheFullBlocks [b]]
  | .freeBlocks blocks => [.freeBlocks blocks]
  | .evictBlocks ids => [.evictBlocks ids]
  | .resetPrefixCache => []

/-- The calls on the pool of counts that a run of the pool in memory amounts to, call by call. -/
def LinkedPoolOp.abstractRun : LinkedPoolUse H → List (LinkedPoolOp H) → List PoolOp
  | _, [] => []
  | u, op :: rest => op.abstract u ++ abstractRun (op.step u) rest

theorem LinkedPoolOp.step_of_ok {op : LinkedPoolOp H} {blocks : List Nat} {pool' : LinkedBlockPool H}
    (h : op.perform u.pool = (.ok blocks, pool')) : op.step u = ⟨pool', u.held + blocks - op.returned⟩ := by
  rw [LinkedPoolOp.step, h]

/-- A call that always returns, and its counterpart. -/
theorem Simulates.of_wp {α : Type} {op : LinkedPoolOp H} {op' : PoolOp} {m : PoolM H α} {taken : List Nat}
    (h : Simulates numBlocks tail u v) (htail : tail ≤ numBlocks) (hperform : op.perform = (fun _ => taken) <$> m)
    (hlegal : op'.Legal v)
    (hwp : Eff.wp m (fun _ lp' => LinkedBlockPool.Refines numBlocks lp' (poolStep v op').pool)
      (fun _ _ => False) u.pool)
    (hheld : u.held + taken - op.returned = (poolStep v op').held) :
    (∃ blocks pool', op.perform u.pool = (.ok blocks, pool')) ∧ Along poolStep PoolOp.Legal v [op'] ∧
      Simulates numBlocks tail (op.step u) (run poolStep v [op']) := by
  have hmap : Eff.wp op.perform (fun blocks lp' => blocks = taken ∧
      LinkedBlockPool.Refines numBlocks lp' (poolStep v op').pool) (fun _ _ => False) u.pool := by
    rw [hperform, Eff.wp_map]
    exact Eff.wp_mono hwp (fun _ _ hrefines => ⟨rfl, hrefines⟩) fun _ _ hf => hf
  obtain ⟨blocks, pool', hrun, rfl, hrefines⟩ := Eff.exists_of_wp hmap
  refine ⟨⟨blocks, pool', hrun⟩, ⟨hlegal, True.intro⟩, ?_⟩
  rw [LinkedPoolOp.step_of_ok hrun]
  exact ⟨hrefines, hheld, h.counted.step htail hlegal⟩

/-- With a reserved tail some block beside the null block is always in use. -/
theorem PoolUse.Counted.length_freeQueue (h : v.Counted numBlocks tail) (htail : 0 < tail) :
    v.pool.freeQueue.length < tail := by
  have hsub : v.pool.freeQueue ⊆ List.range' 1 (tail - 1) := by
    intro b hb
    obtain ⟨hne, -, hlt, -⟩ := h.of_mem_freeQueue hb
    rw [BlockPool.nullBlock] at hne
    rw [List.mem_range'_1]
    omega
  have hle := (List.subperm_of_subset h.nodup hsub).length_le
  rw [List.length_range'] at hle
  omega

theorem Simulates.resetPrefixCache (h : Simulates numBlocks tail u v) (hpos : 0 < tail) (htail : tail < numBlocks) :
    LinkedBlockPool.resetPrefixCache u.pool = (.ok false, u.pool) := by
  have hfree := h.counted.length_freeQueue hpos
  have hcount := h.refines.queue.count
  have hsize := h.refines.size
  have hused : (u.pool.numGpuBlocks : Int) - u.pool.freeBlockQueue.numFreeBlocks ≠ 1 := by omega
  let R : Except BlockPoolError Bool × LinkedBlockPool H → Prop := fun r => r = (.ok false, u.pool)
  refine (Eff.wp_result (R := R)).mp ?_
  simp only [LinkedBlockPool.resetPrefixCache, Eff.wp_bind, Eff.wp_read, hused, ne_eq, not_false_eq_true, if_true,
    Eff.wp_pure, R]

theorem Simulates.getNewBlocks (h : Simulates numBlocks tail u v) (htail : tail ≤ numBlocks) (n : Nat) :
    (LinkedPoolOp.getNewBlocks n : LinkedPoolOp H).Returns u ∧
      Simulates numBlocks tail ((LinkedPoolOp.getNewBlocks n : LinkedPoolOp H).step u)
        (poolStep v (.getNewBlocks n)) := by
  have hwp := h.refines.getNewBlocks h.counted n
  have hcounted : (poolStep v (.getNewBlocks n)).Counted numBlocks tail := h.counted.step htail True.intro
  rcases hrun : LinkedBlockPool.getNewBlocks n u.pool with ⟨e | blocks, pool'⟩
  · obtain ⟨rfl, rfl, hfail⟩ : e = .cannotGetBlocks n ∧ pool' = u.pool ∧
        v.pool.getNewBlocks n = (.error (.noFreeBlocks n), v.pool) := by
      unfold Eff.wp at hwp
      rwa [hrun] at hwp
    have hshort : v.pool.freeQueue.length < n := by
      by_contra hlong
      rw [BlockPool.getNewBlocks, if_neg hlong] at hfail
      cases hfail
    have hcount := h.refines.queue.count
    refine ⟨Or.inl ⟨by omega, hrun⟩, ?_⟩
    have hstep : (LinkedPoolOp.getNewBlocks n : LinkedPoolOp H).step u = ⟨u.pool, u.held⟩ := by
      rw [LinkedPoolOp.step, LinkedPoolOp.perform, hrun]
    have hstep' : poolStep v (.getNewBlocks n) = ⟨v.pool, v.held⟩ := by
      rw [poolStep, hfail]
    rw [hstep'] at hcounted ⊢
    rw [hstep]
    exact ⟨h.refines, h.held, hcounted⟩
  · obtain ⟨⟨pool'', hget, hrefines⟩, hkeys⟩ := Eff.of_wp hwp hrun
    obtain ⟨hnodup, hsub, -⟩ := BlockPool.PoolCounts.getNewBlocks h.counted hget
    have hstep : (LinkedPoolOp.getNewBlocks n : LinkedPoolOp H).step u = ⟨pool', u.held + blocks - ([] : List Nat)⟩ :=
      LinkedPoolOp.step_of_ok hrun
    have hstep' : poolStep v (.getNewBlocks n) = ⟨pool'', v.held + blocks⟩ := by
      rw [poolStep, hget]
    refine ⟨Or.inr ⟨blocks, pool', hrun, ?_, hnodup, fun b hb => ⟨?_, ?_⟩⟩, ?_⟩
    · rw [BlockPool.getNewBlocks] at hget
      by_cases hshort : v.pool.freeQueue.length < n
      · rw [if_pos hshort] at hget
        cases hget
      · rw [if_neg hshort] at hget
        rw [← Except.ok.inj (Prod.mk.inj hget).1]
        exact List.length_take_of_le (by omega)
    · rw [h.held, ← Multiset.count_eq_zero]
      exact (h.counted.of_mem_freeQueue (hsub hb)).2.1
    · intro hcaching key
      rw [hrefines.indexed.index, hkeys, ← h.refines.caching]
      exact fun hkey => hkey.2 ⟨hcaching, hb⟩
    · rw [hstep'] at hcounted ⊢
      rw [hstep]
      refine ⟨hrefines, ?_, hcounted⟩
      rw [h.held]
      exact tsub_zero _

/-- One call: it returns as it should, and amounts to a legal call on the pool of counts. -/
theorem Simulates.step (h : Simulates numBlocks tail u v) (hpos : 0 < tail) (htail : tail < numBlocks)
    {op : LinkedPoolOp H} (hop : op.Legal u) :
    op.Returns u ∧ Along poolStep PoolOp.Legal v (op.abstract u) ∧
      Simulates numBlocks tail (op.step u) (run poolStep v (op.abstract u)) := by
  have hle : tail ≤ numBlocks := Nat.le_of_lt htail
  have hnull : ∀ b, b ≠ BlockPool.nullBlock → u.pool.isNull b = false := fun _ => h.refines.isNull_eq_false
  have hnotNull : ∀ b, u.pool.isNull b = false → b ≠ BlockPool.nullBlock := by
    intro b hb heq
    rw [(h.refines.null b).mpr heq] at hb
    cases hb
  cases op with
  | getNewBlocks n =>
      obtain ⟨hreturns, hsim⟩ := h.getNewBlocks hle n
      exact ⟨hreturns, ⟨True.intro, True.intro⟩, hsim⟩
  | touch blocks =>
      have hlegal : (PoolOp.touch blocks).Legal v := fun b hb => (h.refines.hashed b).mpr (hop b hb)
      refine h.of_wp hle rfl hlegal ?_ ?_
      · have hwp := h.refines.touch h.counted hle fun b hb => h.counted.cached b (hlegal b hb)
        exact Eff.wp_mono hwp (fun _ _ hend => hend.1) fun _ _ hf => hf
      · simp [h.held, LinkedPoolOp.returned, poolStep]
  | cacheFullBlocks requestHashes blocks numCachedBlocks numFullBlocks blockSize groupId blockMask =>
      obtain ⟨hcaching, hheld, hmask, hresolved⟩ := hop
      rw [h.refines.caching] at hcaching
      rcases hresolve : resolveBlockHashes requestHashes u.pool.hashBlockSize blockSize with _ | blockHashes
      · rw [hresolve] at hresolved
        exact hresolved.elim
      · rw [hresolve] at hresolved
        refine h.of_wp hle rfl (fun b hb hne => ?_) ?_ ?_
        · obtain ⟨e, he, rfl⟩ := List.mem_map.mp hb
          rw [← h.held]
          refine hheld e.1 ?_ (hnull e.1 hne)
          exact (List.mem_zipIdx' (List.mem_filter.mp he).1).2 ▸ List.getElem_mem _
        · exact Eff.wp_mono (h.refines.cacheFullBlocks hcaching ⟨hresolve, hmask, hresolved⟩) (fun _ _ hend => hend.1)
            fun _ _ hf => hf
        · simp [h.held, LinkedPoolOp.returned, poolStep]
  | cachePartialBlock requestHashes b numTokens groupId blockSize =>
      obtain ⟨hcaching, hb, hheld, hcall⟩ := hop
      rw [h.refines.caching] at hcaching
      refine h.of_wp hle rfl (fun c hc _ => ?_) ?_ ?_
      · rw [List.mem_singleton.mp hc, ← h.held]
        exact hheld
      · refine Eff.wp_mono (h.refines.cachePartialBlock hcaching (hnotNull b hb) hcall) ?_ fun _ _ hf => hf
        rintro _ _ ⟨_, _, _, hrefines, _⟩
        exact hrefines
      · simp [h.held, LinkedPoolOp.returned, poolStep]
  | freeBlocks blocks =>
      have hlegal : (PoolOp.freeBlocks blocks).Legal v := fun b hb hne => h.held ▸ hop b hb (hnull b hne)
      refine h.of_wp hle rfl hlegal ?_ ?_
      · refine Eff.wp_mono (h.refines.freeBlocks h.counted hle fun b hne => ?_)
          (fun _ _ hend => hend.1) fun _ _ hf => hf
        by_cases hb : b ∈ blocks
        · exact hlegal b hb hne
        · rw [List.count_eq_zero_of_not_mem hb]
          exact Nat.zero_le _
      · simp [h.held, LinkedPoolOp.returned, poolStep]
  | evictBlocks ids =>
      refine h.of_wp hle rfl True.intro ?_ ?_
      · exact Eff.wp_mono (h.refines.evictBlocks fun b hb => h.refines.size ▸ hop b hb)
          (fun _ _ hend => hend.1) fun _ _ hf => hf
      · simp [h.held, LinkedPoolOp.returned, poolStep]
  | resetPrefixCache =>
      have hreset := h.resetPrefixCache hpos htail
      refine ⟨hreset, True.intro, ?_⟩
      have hmap : Eff.wp (LinkedPoolOp.resetPrefixCache : LinkedPoolOp H).perform
          (fun blocks lp' => blocks = [] ∧ lp' = u.pool) (fun _ _ => False) u.pool := by
        rw [LinkedPoolOp.perform, Eff.wp_map]
        exact Eff.wp_of_ok hreset ⟨rfl, rfl⟩
      obtain ⟨_, _, hperform, rfl, rfl⟩ := Eff.exists_of_wp hmap
      rw [LinkedPoolOp.step_of_ok hperform]
      refine ⟨h.refines, ?_, h.counted⟩
      simp [h.held, LinkedPoolOp.returned, LinkedPoolOp.abstract]

/-- What each step of a run does, the whole run does. -/
theorem Simulates.run (h : Simulates numBlocks tail u v) (hpos : 0 < tail) (htail : tail < numBlocks)
    {ops : List (LinkedPoolOp H)} (hops : Along LinkedPoolOp.step LinkedPoolOp.Legal u ops) :
    Along LinkedPoolOp.step LinkedPoolOp.Returns u ops ∧
      Along poolStep PoolOp.Legal v (LinkedPoolOp.abstractRun u ops) ∧
      Simulates numBlocks tail (Base.run LinkedPoolOp.step u ops)
        (Base.run poolStep v (LinkedPoolOp.abstractRun u ops)) := by
  induction ops generalizing u v with
  | nil => exact ⟨True.intro, True.intro, h⟩
  | cons op rest ih =>
      obtain ⟨hreturns, hlegal, hsim⟩ := h.step hpos htail hops.1
      obtain ⟨hreturnsRest, hlegalRest, hsimRest⟩ := ih hsim hops.2
      refine ⟨⟨hreturns, hreturnsRest⟩, along_append.mpr ⟨hlegal, hlegalRest⟩, ?_⟩
      rw [LinkedPoolOp.abstractRun, run_append, run_cons]
      exact hsimRest

end Simulation

section Start

/-- A new pool whose tail is reserved before anything is allocated. -/
def LinkedBlockPool.reserved (numGpuBlocks : Nat) (enableCaching : Bool) (hashBlockSize : Nat) (numSlots : Int) :
    Except BlockPoolError (LinkedBlockPool H) :=
  match LinkedBlockPool.init numGpuBlocks enableCaching hashBlockSize with
  | .error e => .error e
  | .ok pool =>
      match LinkedBlockPool.reserveStagingTail numSlots pool with
      | (.error e, _) => .error e
      | (.ok _, pool) => .ok pool

omit [DecidableEq H] in
theorem LinkedBlockPool.checkReserved_eq_ok {lp : LinkedBlockPool H} {blocks : List Nat}
    (h : ∀ b ∈ blocks, lp.isNull b = false ∧ lp.refCnt b = 0) : lp.checkReserved blocks = .ok () := by
  induction blocks with
  | nil => rfl
  | cons b rest ih =>
      obtain ⟨hnull, hzero⟩ := h b List.mem_cons_self
      rw [checkReserved, hnull, if_neg Bool.false_ne_true, if_neg (not_not.mpr hzero)]
      exact ih fun c hc => h c (List.mem_cons_of_mem b hc)

omit [DecidableEq H] in
theorem LinkedBlockPool.settings_of_reserved {numGpuBlocks hashBlockSize : Nat} {enableCaching : Bool} {numSlots : Int}
    {start : LinkedBlockPool H}
    (h : LinkedBlockPool.reserved numGpuBlocks enableCaching hashBlockSize numSlots = .ok start) :
    start.enableCaching = enableCaching ∧ start.hashBlockSize = hashBlockSize := by
  have hmoves : Eff.Moves (LinkedBlockPool.SameSettings (H := H)) (reserveStagingTail numSlots) := by
    refine Eff.moves_ite (Eff.moves_pure _) (Eff.moves_read.bind fun lp => Eff.moves_ite (Eff.moves_raise _) ?_)
    dsimp only
    cases lp.checkReserved (List.range' (lp.numGpuBlocks - numSlots.toNat) numSlots.toNat) with
    | error e => exact Eff.moves_raise e
    | ok _ => exact (LinkedBlockPool.moves_touch _).bind fun _ => Eff.moves_pure _
  unfold LinkedBlockPool.reserved at h
  split at h
  · cases h
  · rename_i lp hinit
    have hlp : lp.enableCaching = enableCaching ∧ lp.hashBlockSize = hashBlockSize := by
      unfold LinkedBlockPool.init at hinit
      split_ifs at hinit
      split at hinit <;> cases hinit
      exact ⟨rfl, rfl⟩
    have hsame := hmoves lp
    split at h
    · cases h
    · rename_i hrun
      cases h
      rw [hrun] at hsame
      exact ⟨hsame.enableCaching.trans hlp.1, hsame.hashBlockSize.trans hlp.2⟩

theorem exists_reserved {numBlocks numSlots : Nat} (hpos : 0 < numSlots) (hlt : numSlots < numBlocks)
    (enableCaching : Bool) (hashBlockSize : Nat) :
    ∃ start : LinkedBlockPool H, LinkedBlockPool.reserved numBlocks enableCaching hashBlockSize numSlots = .ok start ∧
      Simulates numBlocks (numBlocks - numSlots) ⟨start, 0⟩
        ⟨(reserveStagingTail numBlocks (BlockPool.init numBlocks enableCaching) numSlots).2, 0⟩ ∧
      ∀ b key, ¬start.HasKey b key := by
  have hblocks : 0 < numBlocks := by omega
  obtain ⟨lp, hinit, hrefines, hkeys⟩ := LinkedBlockPool.refines_init (H := H) hblocks enableCaching hashBlockSize
  have hids : ∀ b ∈ List.range' (numBlocks - numSlots) numSlots, b ≠ BlockPool.nullBlock ∧ b < numBlocks := by
    intro b hb
    rw [List.mem_range'_1] at hb
    refine ⟨?_, by omega⟩
    show b ≠ 0
    omega
  have hcheck : lp.checkReserved (List.range' (numBlocks - numSlots) numSlots) = .ok () := by
    apply LinkedBlockPool.checkReserved_eq_ok
    intro b hb
    exact ⟨hrefines.isNull_eq_false (hids b hb).1, congrFun hrefines.refCnt b⟩
  obtain ⟨_, start, htouch, hstart, hsame⟩ := Eff.exists_of_wp
    (hrefines.touch (BlockPool.poolCounts_init numBlocks enableCaching) (Nat.le_refl _) hids)
  have hreserve : LinkedBlockPool.reserveStagingTail numSlots lp =
      (.ok (List.range' (numBlocks - numSlots) numSlots), start) := by
    have hsome : ¬(numSlots : Int) ≤ 0 := by omega
    have hfits : ¬(numBlocks : Int) ≤ numSlots := by omega
    have hwp : Eff.wp (LinkedBlockPool.reserveStagingTail numSlots)
        (fun ids lp' => ids = List.range' (numBlocks - numSlots) numSlots ∧ lp' = start) (fun _ _ => False) lp := by
      simp only [LinkedBlockPool.reserveStagingTail, hsome, if_false, Eff.wp_bind, Eff.wp_read, hrefines.size, hfits,
        Int.toNat_natCast, hcheck, Eff.wp_pure, true_and]
      exact Eff.wp_of_ok htouch rfl
    obtain ⟨_, _, hrun, rfl, rfl⟩ := Eff.exists_of_wp hwp
    exact hrun
  refine ⟨start, ?_, ⟨?_, rfl, ?_⟩, fun b key hkey => hkeys b key ?_⟩
  · rw [LinkedBlockPool.reserved, hinit]
    dsimp only
    rw [hreserve]
  · rw [reserveStagingTail_init hpos hlt]
    exact hstart
  · rw [reserveStagingTail_init hpos hlt]
    apply (poolCounts_reserved hlt enableCaching).congr
    intro b _
    exact Multiset.count_zero b
  · exact hsame.hasKey.mp hkey

/-- The pool in memory does what the pool of counts does, call by call. -/
theorem linkedPool_refines (numBlocks numSlots : Nat) (hpos : 0 < numSlots) (hlt : numSlots < numBlocks)
    (enableCaching : Bool) (hashBlockSize : Nat) :
    ∃ start : LinkedBlockPool H, LinkedBlockPool.reserved numBlocks enableCaching hashBlockSize numSlots = .ok start ∧
      ∀ ops, Along LinkedPoolOp.step LinkedPoolOp.Legal ⟨start, 0⟩ ops →
        let ops' := LinkedPoolOp.abstractRun ⟨start, 0⟩ ops
        let u := run LinkedPoolOp.step ⟨start, 0⟩ ops
        let v := run poolStep
          ⟨(reserveStagingTail numBlocks (BlockPool.init numBlocks enableCaching) numSlots).2, 0⟩ ops'
        Along LinkedPoolOp.step LinkedPoolOp.Returns ⟨start, 0⟩ ops ∧
          Along poolStep PoolOp.Legal
            ⟨(reserveStagingTail numBlocks (BlockPool.init numBlocks enableCaching) numSlots).2, 0⟩ ops' ∧
          u.held = v.held ∧ u.pool.refCnt = v.pool.refCnt ∧
            u.pool.freeBlockQueue.numFreeBlocks = v.pool.freeQueue.length ∧
            (∀ fuel, v.pool.freeQueue.length < fuel →
              u.pool.freeBlockQueue.getAllFreeBlocks fuel = .ok (some (v.pool.freeQueue.map .block))) ∧
            ∀ b, b ∈ v.pool.hashed ↔ (u.pool.blockHash b).isSome = true := by
  obtain ⟨start, hreserved, hsim, -⟩ := exists_reserved (H := H) hpos hlt enableCaching hashBlockSize
  refine ⟨start, hreserved, fun ops hops => ?_⟩
  obtain ⟨hreturns, hlegal, hend⟩ := hsim.run (Nat.sub_pos_of_lt hlt) (by omega) hops
  refine ⟨hreturns, hlegal, hend.held, hend.refines.refCnt, hend.refines.queue.count, fun fuel hfuel => ?_,
    hend.refines.hashed⟩
  exact FreeKVCacheBlockQueue.getAllFreeBlocks_eq hend.refines.queue hfuel

/-- Blocks of two hashes each: two full ones are cached, the third by the first of its hashes and then in full. They
are freed, one is hit again; the pool runs short once and is not reset; a hit block is evicted. -/
def linkedPoolScenario : List (LinkedPoolOp Nat) :=
  [.getNewBlocks 3, .cacheFullBlocks [10, 11, 12, 13, 14, 15] [1, 2, 3] 0 2 4 0 none,
    .cachePartialBlock [10, 11, 12, 13, 14, 15] 3 10 0 4,
    .cacheFullBlocks [10, 11, 12, 13, 14, 15] [1, 2, 3] 2 3 4 0 none,
    .freeBlocks [3, 2, 1], .touch [1], .getNewBlocks 7, .resetPrefixCache, .evictBlocks [1], .getNewBlocks 5,
    .freeBlocks [0, 1]]

/-- The state the scenario starts from; the error branch is never taken. -/
def linkedPoolStart : LinkedPoolUse Nat :=
  match LinkedBlockPool.reserved 9 true 2 1 with
  | .ok pool => ⟨pool, 0⟩
  | .error _ => ⟨⟨0, false, 0, .init [], fun _ => 0, fun _ => none, fun _ => none, fun _ => false, .empty, .empty⟩, 0⟩

theorem linkedPoolStart_eq {start : LinkedBlockPool Nat} (h : LinkedBlockPool.reserved 9 true 2 1 = .ok start) :
    linkedPoolStart = ⟨start, 0⟩ := by
  rw [linkedPoolStart, h]

/-- The partial block and the full one that replaces it are one call each on the pool of counts, the refused reset is
none, and both pools end up with the same holders. -/
theorem linkedPool_refines_scenario :
    ∃ start : LinkedBlockPool Nat, LinkedBlockPool.reserved 9 true 2 1 = .ok start ∧
      Along LinkedPoolOp.step LinkedPoolOp.Returns ⟨start, 0⟩ linkedPoolScenario ∧
      LinkedPoolOp.abstractRun ⟨start, 0⟩ linkedPoolScenario =
        [.getNewBlocks 3, .cacheFullBlocks [1, 2], .cacheFullBlocks [3], .cacheFullBlocks [3],
          .freeBlocks [3, 2, 1], .touch [1], .getNewBlocks 7, .evictBlocks [1], .getNewBlocks 5, .freeBlocks [0, 1]] ∧
      (run LinkedPoolOp.step ⟨start, 0⟩ linkedPoolScenario).held = {3, 4, 5, 6, 7} ∧
      (run poolStep ⟨(reserveStagingTail 9 (BlockPool.init 9 true) 1).2, 0⟩
        (LinkedPoolOp.abstractRun ⟨start, 0⟩ linkedPoolScenario)).held = {3, 4, 5, 6, 7} := by
  obtain ⟨start, hreserved, hrun⟩ := linkedPool_refines (H := Nat) 9 1 (by decide) (by decide) true 2
  have hlegal : Along LinkedPoolOp.step LinkedPoolOp.Legal linkedPoolStart linkedPoolScenario := by decide +kernel
  have hheld : (run LinkedPoolOp.step linkedPoolStart linkedPoolScenario).held = {3, 4, 5, 6, 7} := by decide +kernel
  have habstract : LinkedPoolOp.abstractRun linkedPoolStart linkedPoolScenario =
      [.getNewBlocks 3, .cacheFullBlocks [1, 2], .cacheFullBlocks [3], .cacheFullBlocks [3],
        .freeBlocks [3, 2, 1], .touch [1],
        .getNewBlocks 7, .evictBlocks [1], .getNewBlocks 5, .freeBlocks [0, 1]] := by decide +kernel
  rw [linkedPoolStart_eq hreserved] at hlegal hheld habstract
  obtain ⟨hreturns, -, hsame, -⟩ := hrun linkedPoolScenario hlegal
  exact ⟨start, hreserved, hreturns, habstract, hheld, hsame ▸ hheld⟩

/-- In every run a key of the prefix cache leads to exactly the blocks that know of it, and these are neither the null
block nor staging pages; a block without a hash has no key at all. -/
theorem prefixCache_indexed (numBlocks numSlots : Nat) (hpos : 0 < numSlots) (hlt : numSlots < numBlocks)
    (enableCaching : Bool) (hashBlockSize : Nat) (start : LinkedBlockPool H)
    (hstart : LinkedBlockPool.reserved numBlocks enableCaching hashBlockSize numSlots = .ok start)
    (ops : List (LinkedPoolOp H)) (hops : Along LinkedPoolOp.step LinkedPoolOp.Legal ⟨start, 0⟩ ops) :
    let pool := (run LinkedPoolOp.step ⟨start, 0⟩ ops).pool
    (∀ key b, b ∈ pool.cachedBlockHashToBlock.blocksAt key ↔ pool.blockHash b = some key ∨ key ∈ pool.otherHashes b) ∧
      (∀ key b, b ∈ pool.cachedBlockHashToBlock.blocksAt key →
        (pool.blockHash b).isSome = true ∧ pool.isNull b = false ∧ b < numBlocks - numSlots) ∧
      ∀ key, pool.cachedBlockHashToBlock.getOneBlock key = .ok (pool.cachedBlockHashToBlock.blocksAt key).head? := by
  intro pool
  obtain ⟨start', hreserved, hsim, -⟩ := exists_reserved (H := H) hpos hlt enableCaching hashBlockSize
  obtain rfl : start' = start := Except.ok.inj (hreserved.symm.trans hstart)
  obtain ⟨-, -, hend⟩ := hsim.run (Nat.sub_pos_of_lt hlt) (by omega) hops
  have hindexed := hend.refines.indexed
  refine ⟨hindexed.index, fun key b hb => ?_, BlockHashToBlockMap.getOneBlock_eq hindexed.full⟩
  have hsome : (pool.blockHash b).isSome = true := by
    rw [Option.isSome_iff_ne_none]
    intro hnone
    rcases (hindexed.index key b).mp hb with hown | hother
    · rw [hnone] at hown
      cases hown
    · rw [hindexed.others b hnone] at hother
      exact List.not_mem_nil hother
  obtain ⟨hne, htail⟩ := hend.counted.cached b ((hend.refines.hashed b).mpr hsome)
  exact ⟨hsome, hend.refines.isNull_eq_false hne, htail⟩

/-- Before the pool runs short, the third block is found by its full prefix and no longer by a part of it. -/
theorem prefixCache_indexed_scenario :
    ∃ start : LinkedBlockPool Nat, LinkedBlockPool.reserved 9 true 2 1 = .ok start ∧
      let pool := (run LinkedPoolOp.step ⟨start, 0⟩ (linkedPoolScenario.take 6)).pool
      pool.cachedBlockHashToBlock.getOneBlock (15, 0) = .ok (some 3) ∧
        pool.cachedBlockHashToBlock.getOneBlock (14, 0) = .ok none := by
  obtain ⟨start, hreserved, -⟩ := exists_reserved (H := Nat) (show 0 < 1 by decide) (show 1 < 9 by decide) true 2
  have hlegal : Along LinkedPoolOp.step LinkedPoolOp.Legal linkedPoolStart (linkedPoolScenario.take 6) := by
    decide +kernel
  have hfound :
      (run LinkedPoolOp.step linkedPoolStart (linkedPoolScenario.take 6)).pool.cachedBlockHashToBlock.blocksAt (15, 0) =
      [3] := by decide +kernel
  have hgone :
      (run LinkedPoolOp.step linkedPoolStart (linkedPoolScenario.take 6)).pool.cachedBlockHashToBlock.blocksAt (14, 0) =
      [] := by decide +kernel
  rw [linkedPoolStart_eq hreserved] at hlegal hfound hgone
  obtain ⟨-, -, hone⟩ := prefixCache_indexed 9 1 (by decide) (by decide) true 2 start hreserved _ hlegal
  refine ⟨start, hreserved, ?_, ?_⟩
  · rw [hone, hfound]
    rfl
  · rw [hone, hgone]
    rfl

/-- Once a staging tail is reserved, `reset_prefix_cache` is refused in every state of every run, also when no request
holds a page: the reserved pages count as used. -/
theorem resetPrefixCache_refused (numBlocks numSlots : Nat) (hpos : 0 < numSlots) (hlt : numSlots < numBlocks)
    (enableCaching : Bool) (hashBlockSize : Nat) (start : LinkedBlockPool H)
    (hstart : LinkedBlockPool.reserved numBlocks enableCaching hashBlockSize numSlots = .ok start)
    (ops : List (LinkedPoolOp H)) (hops : Along LinkedPoolOp.step LinkedPoolOp.Legal ⟨start, 0⟩ ops) :
    let pool := (run LinkedPoolOp.step ⟨start, 0⟩ ops).pool
    LinkedBlockPool.resetPrefixCache pool = (.ok false, pool) := by
  obtain ⟨start', hreserved, hsim, -⟩ := exists_reserved (H := H) hpos hlt enableCaching hashBlockSize
  obtain rfl : start' = start := Except.ok.inj (hreserved.symm.trans hstart)
  obtain ⟨-, -, hend⟩ := hsim.run (Nat.sub_pos_of_lt hlt) (by omega) hops
  exact hend.resetPrefixCache (Nat.sub_pos_of_lt hlt) (by omega)

/-- After three pages were taken, cached and given back, nothing is held, and the pages can still be found. -/
theorem resetPrefixCache_refused_scenario :
    ∃ start : LinkedBlockPool Nat, LinkedBlockPool.reserved 9 true 2 1 = .ok start ∧
      (run LinkedPoolOp.step ⟨start, 0⟩ (linkedPoolScenario.take 5)).held = 0 ∧
      (LinkedBlockPool.resetPrefixCache (run LinkedPoolOp.step ⟨start, 0⟩ (linkedPoolScenario.take 5)).pool).1 =
        .ok false := by
  obtain ⟨start, hreserved, -⟩ := exists_reserved (H := Nat) (show 0 < 1 by decide) (show 1 < 9 by decide) true 2
  have hlegal : Along LinkedPoolOp.step LinkedPoolOp.Legal linkedPoolStart (linkedPoolScenario.take 5) := by
    decide +kernel
  have hheld : (run LinkedPoolOp.step linkedPoolStart (linkedPoolScenario.take 5)).held = 0 := by decide +kernel
  rw [linkedPoolStart_eq hreserved] at hlegal hheld
  refine ⟨start, hreserved, hheld, ?_⟩
  exact congrArg Prod.fst (resetPrefixCache_refused 9 1 (by decide) (by decide) true 2 start hreserved _ hlegal)

end Start

end KVOffload

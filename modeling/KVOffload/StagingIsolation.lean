import KVOffload.OrchestratorSlots
import KVOffload.StoreMemory
import KVOffload.VllmPoolCounts

/-! The staging pages and vLLM's block pool. The tail of the pool is taken out of circulation once, by a
reference nobody gives back; whatever the pool does afterwards, no page of the tail is handed out, and
staging writes nowhere else. -/

namespace KVOffload
open Base

variable {μ φ ν σ S : Type} [LinearOrder S]

section Reserve

/-- The checks of `reserve_staging_tail` on the blocks it is about to take. -/
def checkReserved (pool : BlockPool) : List Nat → Except PyError Unit
  | [] => .ok ()
  | block :: rest =>
      if block = BlockPool.nullBlock then .error .stagingOverlapsNull
      else if pool.refCnt block ≠ 0 then .error (.stagingInUse block)
      else checkReserved pool rest

/-- `reserve_staging_tail`. -/
def reserveStagingTail (numGpuBlocks : Nat) (pool : BlockPool) (numSlots : Int) :
    Except PyError (List Nat) × BlockPool :=
  if numSlots ≤ 0 then (.ok [], pool)
  else if (numGpuBlocks : Int) ≤ numSlots then (.error (.stagingTooLarge numSlots numGpuBlocks), pool)
  else
    let reservedIds := List.range' (numGpuBlocks - numSlots.toNat) numSlots.toNat
    match checkReserved pool reservedIds with
    | .error e => (.error e, pool)
    | .ok () => (.ok reservedIds, pool.touch reservedIds)

/-- Nothing is touched before every check has passed. -/
theorem reserveStagingTail_error {numGpuBlocks : Nat} {pool pool' : BlockPool} {numSlots : Int} {e : PyError}
    (h : reserveStagingTail numGpuBlocks pool numSlots = (.error e, pool')) : pool' = pool := by
  unfold reserveStagingTail at h
  split_ifs at h
  · cases h
  · exact (Prod.mk.inj h).2.symm
  · dsimp only at h
    split at h
    · exact (Prod.mk.inj h).2.symm
    · cases h

theorem checkReserved_eq_ok {pool : BlockPool} {blocks : List Nat}
    (h : ∀ b ∈ blocks, b ≠ BlockPool.nullBlock ∧ pool.refCnt b = 0) : checkReserved pool blocks = .ok () := by
  induction blocks with
  | nil => rfl
  | cons block rest ih =>
      obtain ⟨hne, hzero⟩ := h block List.mem_cons_self
      rw [checkReserved, if_neg hne, if_neg (not_not.mpr hzero)]
      exact ih fun b hb => h b (List.mem_cons_of_mem block hb)

theorem reserveStagingTail_init {numBlocks numSlots : Nat} (hpos : 0 < numSlots) (hlt : numSlots < numBlocks)
    (enableCaching : Bool) :
    reserveStagingTail numBlocks (BlockPool.init numBlocks enableCaching) numSlots =
      (.ok (List.range' (numBlocks - numSlots) numSlots),
        (BlockPool.init numBlocks enableCaching).touch (List.range' (numBlocks - numSlots) numSlots)) := by
  have hcheck : checkReserved (BlockPool.init numBlocks enableCaching) (List.range' (numBlocks - numSlots) numSlots) =
      .ok () := by
    apply checkReserved_eq_ok
    intro b hb
    rw [List.mem_range'_1] at hb
    refine ⟨?_, rfl⟩
    show b ≠ 0
    omega
  rw [reserveStagingTail, if_neg (by omega), if_neg (by omega), Int.toNat_natCast]
  dsimp only
  rw [hcheck]

/-- The reserved pages are accounted for as such, and nobody holds a page yet. -/
theorem poolCounts_reserved {numBlocks numSlots : Nat} (hlt : numSlots < numBlocks) (enableCaching : Bool) :
    BlockPool.PoolCounts numBlocks (numBlocks - numSlots) (fun _ => 0)
      ((BlockPool.init numBlocks enableCaching).touch (List.range' (numBlocks - numSlots) numSlots)) := by
  have hids : ∀ b ∈ List.range' (numBlocks - numSlots) numSlots, b ≠ BlockPool.nullBlock ∧ b < numBlocks := by
    intro b hb
    rw [List.mem_range'_1] at hb
    refine ⟨?_, by omega⟩
    show b ≠ 0
    omega
  have htouched := (BlockPool.poolCounts_init numBlocks enableCaching).touch hids
  refine ⟨fun b hb => ?_, htouched.free, htouched.nodup, fun b _ hheld => absurd rfl hheld, fun b hb => ?_⟩
  · rw [htouched.count b hb, if_neg (by omega)]
    by_cases hreserved : numBlocks - numSlots ≤ b ∧ b < numBlocks
    · have hmem : b ∈ List.range' (numBlocks - numSlots) numSlots := by
        rw [List.mem_range'_1]
        omega
      rw [List.count_eq_one_of_mem List.nodup_range' hmem, if_pos hreserved]
      rfl
    · have hout : b ∉ List.range' (numBlocks - numSlots) numSlots := by
        rw [List.mem_range'_1]
        omega
      rw [List.count_eq_zero_of_not_mem hout, if_neg hreserved]
  · rw [BlockPool.touch_hashed] at hb
    exact absurd hb (Finset.notMem_empty b)

end Reserve

section Use

/-- The pool with the blocks that requests hold, one entry for each time a block was handed out or touched. -/
structure PoolUse where
  pool : BlockPool
  held : Multiset Nat

/-- What vLLM does with the pool. -/
inductive PoolOp where
  | getNewBlocks (numBlocks : Nat)
  | touch (blocks : List Nat)
  | cacheFullBlocks (blocks : List Nat)
  | freeBlocks (blocks : List Nat)
  | evictBlocks (blocks : List Nat)
  deriving DecidableEq

def poolStep (u : PoolUse) : PoolOp → PoolUse
  | .getNewBlocks n =>
      match u.pool.getNewBlocks n with
      | (.ok blocks, pool) => ⟨pool, u.held + blocks⟩
      | (.error _, pool) => ⟨pool, u.held⟩
  | .touch blocks => ⟨u.pool.touch blocks, u.held + blocks⟩
  | .cacheFullBlocks blocks => ⟨u.pool.cacheFullBlocks blocks, u.held⟩
  | .freeBlocks blocks => ⟨u.pool.freeBlocks blocks, u.held - blocks⟩
  | .evictBlocks blocks => ⟨u.pool.evictBlocks blocks, u.held⟩

/-- Only blocks with a hash are touched, only held ones are given a hash or freed. Null blocks may be
freed: they stand in block tables. -/
def PoolOp.Legal (u : PoolUse) : PoolOp → Prop
  | .touch blocks => ∀ b ∈ blocks, b ∈ u.pool.hashed
  | .cacheFullBlocks blocks => ∀ b ∈ blocks, b ≠ BlockPool.nullBlock → b ∈ u.held
  | .freeBlocks blocks => ∀ b ∈ blocks, b ≠ BlockPool.nullBlock → blocks.count b ≤ u.held.count b
  | _ => True

instance (u : PoolUse) : (op : PoolOp) → Decidable (op.Legal u)
  | .touch blocks => inferInstanceAs (Decidable (∀ b ∈ blocks, b ∈ u.pool.hashed))
  | .cacheFullBlocks blocks => inferInstanceAs (Decidable (∀ b ∈ blocks, b ≠ BlockPool.nullBlock → b ∈ u.held))
  | .freeBlocks blocks =>
      inferInstanceAs (Decidable (∀ b ∈ blocks, b ≠ BlockPool.nullBlock → blocks.count b ≤ u.held.count b))
  | .getNewBlocks _ => inferInstanceAs (Decidable True)
  | .evictBlocks _ => inferInstanceAs (Decidable True)

variable {numBlocks tail : Nat} {u : PoolUse}

/-- The pool's accounts are those of the blocks in use. -/
def PoolUse.Counted (numBlocks tail : Nat) (u : PoolUse) : Prop :=
  BlockPool.PoolCounts numBlocks tail (fun b => u.held.count b) u.pool

theorem PoolUse.Counted.step (htail : tail ≤ numBlocks) (h : u.Counted numBlocks tail) {op : PoolOp}
    (hop : op.Legal u) : (poolStep u op).Counted numBlocks tail := by
  cases op with
  | getNewBlocks n =>
      rw [poolStep]
      split
      · rename_i blocks pool hget
        apply (BlockPool.PoolCounts.getNewBlocks h hget).2.2.congr
        intro b _
        rw [Multiset.count_add, Multiset.coe_count]
      · rename_i e pool hget
        rw [BlockPool.getNewBlocks_error hget]
        exact h
  | touch blocks =>
      apply (BlockPool.PoolCounts.touch h fun b hb => h.cached b (hop b hb)).congr
      intro b _
      rw [poolStep, Multiset.count_add, Multiset.coe_count]
  | cacheFullBlocks blocks =>
      apply BlockPool.PoolCounts.cacheFullBlocks h
      intro b hb hne
      exact Multiset.count_ne_zero.mpr (hop b hb hne)
  | freeBlocks blocks =>
      have hheld : ∀ b, b ≠ BlockPool.nullBlock → blocks.count b ≤ u.held.count b := by
        intro b hne
        by_cases hb : b ∈ blocks
        · exact hop b hb hne
        · rw [List.count_eq_zero_of_not_mem hb]
          exact Nat.zero_le _
      apply (BlockPool.PoolCounts.freeBlocks h htail hheld).congr
      intro b _
      rw [poolStep, Multiset.count_sub, Multiset.coe_count]
  | evictBlocks blocks => exact BlockPool.PoolCounts.evictBlocks h blocks

/-- The accounts hold in every run from a pool whose tail was reserved. -/
theorem PoolUse.counted_run {numSlots : Nat} (hpos : 0 < numSlots) (hlt : numSlots < numBlocks) (enableCaching : Bool)
    {ops : List PoolOp}
    (hops : Along poolStep PoolOp.Legal
      ⟨(reserveStagingTail numBlocks (BlockPool.init numBlocks enableCaching) numSlots).2, 0⟩
      ops) :
    (run poolStep ⟨(reserveStagingTail numBlocks (BlockPool.init numBlocks enableCaching) numSlots).2, 0⟩ ops).Counted
      numBlocks (numBlocks - numSlots) := by
  apply run_invariant (I := PoolUse.Counted numBlocks (numBlocks - numSlots))
    (fun _ _ h hlegal => h.step (Nat.sub_le _ _) hlegal) _ hops
  rw [reserveStagingTail_init hpos hlt enableCaching]
  apply (poolCounts_reserved hlt enableCaching).congr
  intro b _
  exact Multiset.count_zero b

theorem PoolUse.Counted.held_lt (h : u.Counted numBlocks tail) (htail : 0 < tail) {b : Nat} (hb : b ∈ u.held) :
    b < tail := by
  by_cases hne : b = BlockPool.nullBlock
  · rw [hne, BlockPool.nullBlock]
    exact htail
  · exact h.owned b hne (Multiset.count_ne_zero.mpr hb)

end Use

section Writes

variable {cfg : OrchestratorConfig}

/-- The operations that call `ensure_resident`. -/
def Op.Stages : Op μ → Prop
  | .ensureResident _ => True
  | .prepareStaging _ _ => True
  | .promoteHotCpuBlocks _ _ => True
  | _ => False

theorem StepPost.written {dev : Device μ φ ν S} {K : Backing dev} {scorer : BlockScorer σ ν S} {op : Op μ}
    {o o' : Orchestrator μ σ} (h : StepPost cfg K scorer o op o') (hop : op.Stages) :
    StagingWrite cfg dev o.store.mem o'.store.mem := by
  cases h with
  | staging _ hstaging => exact hstaging.written
  | offload hoffloads _ _ => cases op <;> first | exact hop.elim | exact hoffloads.elim
  | cleanup hclean _ =>
      rcases hclean with rfl | rfl
      · exact hop.elim
      · exact hop.elim
  | warmup _ => exact hop.elim
  | sync _ _ => exact hop.elim
  | prefill _ => exact hop.elim
  | note _ _ => exact hop.elim
  | startDecode => exact hop.elim
  | write => exact hop.elim

/-- A write to staging pages leaves every other page alone, finished or not. -/
theorem StagingWrite.gpu_eq {α : Type} {L H N C : Nat} {runtime : Runtime (Memory α L H N C) (Memory α L H N C) ν S}
    {mem mem' : Memory α L H N C} (h : StagingWrite cfg (combinedDevice runtime) mem mem') {page : Nat}
    (hpage : ¬(cfg.stagingBase ≤ page ∧ page < cfg.stagingBase + cfg.numStagingSlots)) (layer : Fin L) :
    mem'.gpu layer page = mem.gpu layer page := by
  have hout : ∀ slots : List Nat, (∀ slot ∈ slots, slot < cfg.numStagingSlots) →
      page ∉ slots.map (cfg.stagingBase + ·) := by
    intro slots hslots hin
    obtain ⟨slot, hslot, rfl⟩ := List.mem_map.mp hin
    have := hslots slot hslot
    apply hpage
    omega
  cases h with
  | none => rfl
  | fetch cpuSlots hslots => exact indexCopy_zip_of_not_mem (hout _ hslots) _ _
  | torn torn cpuSlots hslots => exact if_neg (hout _ hslots)

end Writes

section Isolation

variable {α : Type} {L H N C : Nat}

/-- The reserved tail is never handed out, and staging writes to the tail only. So nothing a request
holds is written by staging. -/
theorem staging_isolated (numBlocks : Nat) (enableCaching : Bool) (cfg : OrchestratorConfig)
    (runtime : Runtime (Memory α L H N C) (Memory α L H N C) ν S) (scorer : BlockScorer σ ν S) (x : σ)
    (mem : Memory α L H N C) (hlt : cfg.numStagingSlots < numBlocks)
    (hbase : cfg.stagingBase = numBlocks - cfg.numStagingSlots) (ops : List PoolOp)
    (hops : Along poolStep PoolOp.Legal
      ⟨(reserveStagingTail numBlocks (BlockPool.init numBlocks enableCaching) cfg.numStagingSlots).2, 0⟩ ops)
    (workerOps : List (Op (Memory α L H N C))) (hworker : ∀ op ∈ workerOps, op.Distinct) (op : Op (Memory α L H N C))
    (hop : op.Stages) :
    let reserved := reserveStagingTail numBlocks (BlockPool.init numBlocks enableCaching) cfg.numStagingSlots
    let u := run poolStep ⟨reserved.2, 0⟩ ops
    let before := run (step cfg (combinedDevice runtime) scorer) (Orchestrator.init cfg x mem) workerOps
    let after := step cfg (combinedDevice runtime) scorer before op
    reserved.1 = .ok (List.range' (numBlocks - cfg.numStagingSlots) cfg.numStagingSlots) ∧
      (∀ b, b ∈ u.held ∨ b ∈ u.pool.freeQueue → b < numBlocks - cfg.numStagingSlots) ∧
      StagingWrite cfg (combinedDevice runtime) before.store.mem after.store.mem ∧
      (∀ page layer, after.store.mem.gpu layer page ≠ before.store.mem.gpu layer page →
        numBlocks - cfg.numStagingSlots ≤ page ∧ page < numBlocks) ∧
      (∀ b, b ∈ u.held ∨ b = BlockPool.nullBlock →
        ∀ layer, after.store.mem.gpu layer b = before.store.mem.gpu layer b) ∧
      ∀ pool pool' numSlots e, reserveStagingTail numBlocks pool numSlots = (.error e, pool') → pool' = pool := by
  intro reserved u before after
  have hreserved : reserved = (.ok (List.range' (numBlocks - cfg.numStagingSlots) cfg.numStagingSlots),
      (BlockPool.init numBlocks enableCaching).touch
      (List.range' (numBlocks - cfg.numStagingSlots) cfg.numStagingSlots)) :=
    reserveStagingTail_init cfg.numStagingSlots_pos hlt enableCaching
  have hcounts : u.Counted numBlocks (numBlocks - cfg.numStagingSlots) :=
    PoolUse.counted_run cfg.numStagingSlots_pos hlt enableCaching hops
  have hheld : ∀ b, b ∈ u.held → b < numBlocks - cfg.numStagingSlots :=
    fun b hb => hcounts.held_lt (Nat.sub_pos_of_lt hlt) hb
  have hwritten : StagingWrite cfg (combinedDevice runtime) before.store.mem after.store.mem := by
    have hdistinct : op.Distinct := by cases op <;> first | exact True.intro | exact hop.elim
    have hpost : StepPost cfg (Backing.trivial (combinedDevice runtime)) scorer before op after :=
      step_post (storeOk_run cfg _ scorer x mem hworker) hdistinct fun _ _ _ _ => True.intro
    exact hpost.written hop
  have htail : ∀ page, page < numBlocks - cfg.numStagingSlots ∨ numBlocks ≤ page →
      ¬(cfg.stagingBase ≤ page ∧ page < cfg.stagingBase + cfg.numStagingSlots) := by
    intro page hpage
    omega
  refine ⟨by rw [hreserved], ?_, hwritten, ?_, ?_, fun _ _ _ _ => reserveStagingTail_error⟩
  · rintro b (hb | hb)
    · exact hheld b hb
    · exact (hcounts.of_mem_freeQueue hb).2.2.1
  · intro page layer hne
    by_contra hout
    apply hne
    apply hwritten.gpu_eq
    apply htail
    omega
  · rintro b (hb | rfl) layer
    · exact hwritten.gpu_eq (htail b (Or.inl (hheld b hb))) layer
    · apply hwritten.gpu_eq
      apply htail
      rw [BlockPool.nullBlock]
      omega

/-- Pages are handed out, cached, given back and hit again, while a block is staged. -/
def poolScenario : List PoolOp :=
  [.getNewBlocks 3, .cacheFullBlocks [1, 2], .freeBlocks [3, 2, 1], .touch [1], .getNewBlocks 5, .evictBlocks [1],
    .freeBlocks [0, 1]]

theorem staging_isolated_poolScenario :
    let dev := combinedDevice steadyRuntime
    let u := run poolStep ⟨(reserveStagingTail 9 (BlockPool.init 9 true) 1).2, 0⟩ poolScenario
    let before := run (step smallConfig dev lruScorer) (Orchestrator.init smallConfig ⟨.empty, 0⟩ blankMemory)
      [.sync requestA [3, 5] 4, .offloadFraction [⟨requestA, 0⟩] (1 / 2) {⟨requestA, 0⟩}]
    let after := step smallConfig dev lruScorer before (.ensureResident [⟨requestA, 0⟩])
    u.held ≠ 0 ∧ (after.store.residency.get ⟨requestA, 0⟩).map (·.residency) = some .staging ∧
      ∀ b ∈ u.held, b < 8 ∧ ∀ layer, after.store.mem.gpu layer b = before.store.mem.gpu layer b := by
  intro dev u before after
  have hisolated := staging_isolated 9 true smallConfig steadyRuntime lruScorer ⟨.empty, 0⟩ blankMemory (by decide) rfl
    poolScenario (by decide +kernel)
    [.sync requestA [3, 5] 4, .offloadFraction [⟨requestA, 0⟩] (1 / 2) {⟨requestA, 0⟩}]
    (by simp [Op.Distinct]) (.ensureResident [⟨requestA, 0⟩]) True.intro
  obtain ⟨-, hlow, -, -, hsame, -⟩ := hisolated
  refine ⟨by decide +kernel, by decide +kernel, fun b hb => ⟨hlow b (Or.inl hb), hsame b (Or.inl hb)⟩⟩

end Isolation

end KVOffload

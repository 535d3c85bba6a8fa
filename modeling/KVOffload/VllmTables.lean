import Mathlib.Algebra.BigOperators.Group.Multiset.Basic
import KVOffload.ConnectorLedger
import KVOffload.StagingIsolation

/-! vLLM's block tables against its block pool. Requests are given pages, share them through the prefix
cache, are preempted and finish, while the connector edits the tables behind vLLM's back. However these
interleave, a page has as many references as there are table entries that hold it. -/

namespace KVOffload
open Base

variable {μ φ ν σ S : Type} [LinearOrder S]

/-- The block pool and the block tables of vLLM. -/
structure BlockManager where
  pool : BlockPool
  reqToBlocks : OrderedDict RequestId (List Nat)

namespace BlockManager

/-- The table of a request; an entry that is missing reads as the empty list. -/
def table (m : BlockManager) (r : RequestId) : List Nat := (m.reqToBlocks.get? r).getD []

/-- `allocate_slots`: blocks found in the prefix cache are touched before new ones are taken. `none` if
the queue has too few, counting the ones among the hits that wait in it. -/
def allocateSlots (m : BlockManager) (r : RequestId) (hits : List Nat) (numNewBlocks : Nat) :
    Option (List Nat) × BlockManager :=
  let numEvictable := hits.countP fun b => m.pool.refCnt b = 0 ∧ b ≠ BlockPool.nullBlock
  if m.pool.freeQueue.length < numEvictable + numNewBlocks then (none, m)
  else
    match (m.pool.touch hits).getNewBlocks numNewBlocks with
    | (.error _, _) => (none, m)
    | (.ok blocks, pool) => (some blocks, ⟨pool, m.reqToBlocks.set r (m.table r ++ hits ++ blocks)⟩)

/-- `cache_blocks`: the blocks of a request that became full can be found in the prefix cache. -/
def cacheBlocks (m : BlockManager) (r : RequestId) (numCachedBlocks numFullBlocks : Nat) : BlockManager :=
  { m with pool := m.pool.cacheFullBlocks (((m.table r).take numFullBlocks).drop numCachedBlocks) }

/-- `free`: the blocks of a request, tail first. -/
def free (m : BlockManager) (r : RequestId) : BlockManager :=
  ⟨m.pool.freeBlocks (m.table r).reverse, m.reqToBlocks.erase r⟩

theorem allocateSlots_of_getNewBlocks {m : BlockManager} {hits blocks : List Nat} {n : Nat} {pool : BlockPool}
    (r : RequestId)
    (hroom : (hits.countP fun b => m.pool.refCnt b = 0 ∧ b ≠ BlockPool.nullBlock) + n ≤ m.pool.freeQueue.length)
    (hget : (m.pool.touch hits).getNewBlocks n = (.ok blocks, pool)) :
    m.allocateSlots r hits n = (some blocks, ⟨pool, m.reqToBlocks.set r (m.table r ++ hits ++ blocks)⟩) := by
  rw [allocateSlots, if_neg (Nat.not_lt.mpr hroom), hget]

end BlockManager

/-- How many table entries hold `b`. -/
def tableEntries (tables : OrderedDict RequestId (List Nat)) (b : Nat) : Nat := (tables.values.map (List.count b)).sum

/-- Every table entry is one reference. -/
def BlockManager.Balanced (numBlocks tail : Nat) (m : BlockManager) : Prop :=
  BlockPool.PoolCounts numBlocks tail (tableEntries m.reqToBlocks) m.pool

section Entries

variable {tables : OrderedDict RequestId (List Nat)} {r : RequestId} {blocks : List Nat}

theorem tableEntries_set (tables : OrderedDict RequestId (List Nat)) (r : RequestId) (blocks : List Nat) (b : Nat) :
    tableEntries (tables.set r blocks) b = blocks.count b + tableEntries (tables.erase r) b := by
  have hvalues := OrderedDict.coe_collect_set (fun (_ : RequestId) (v : List Nat) => some v) tables r blocks
  rw [← OrderedDict.values_eq_collect, ← OrderedDict.values_eq_collect] at hvalues
  have hsum := congrArg (fun s : Multiset (List Nat) => (s.map (List.count b)).sum) hvalues
  simpa [tableEntries] using hsum

theorem tableEntries_of_get? (h : tables.get? r = some blocks) (b : Nat) :
    tableEntries tables b = blocks.count b + tableEntries (tables.erase r) b := by
  rw [← tableEntries_set, OrderedDict.set_of_get? h]

/-- The table of a request apart from all others. -/
theorem tableEntries_eq_getD (tables : OrderedDict RequestId (List Nat)) (r : RequestId) (b : Nat) :
    tableEntries tables b = ((tables.get? r).getD []).count b + tableEntries (tables.erase r) b := by
  cases hget : tables.get? r with
  | none => rw [OrderedDict.erase_of_get?_eq_none hget, Option.getD_none, List.count_nil, zero_add]
  | some blocks => rw [tableEntries_of_get? hget, Option.getD_some]

theorem tableEntries_eq (m : BlockManager) (r : RequestId) (b : Nat) :
    tableEntries m.reqToBlocks b = (m.table r).count b + tableEntries (m.reqToBlocks.erase r) b :=
  tableEntries_eq_getD m.reqToBlocks r b

end Entries

section Operations

variable {numBlocks tail : Nat} {m : BlockManager}

theorem BlockManager.Balanced.allocateSlots (h : m.Balanced numBlocks tail) (r : RequestId) {hits : List Nat} (n : Nat)
    (hhits : ∀ b ∈ hits, b ∈ m.pool.hashed) : (m.allocateSlots r hits n).2.Balanced numBlocks tail := by
  unfold BlockManager.allocateSlots
  dsimp only
  split_ifs
  · exact h
  · split
    · exact h
    · rename_i blocks pool hget
      have htouched := BlockPool.PoolCounts.touch h fun b hb => h.cached b (hhits b hb)
      apply (htouched.getNewBlocks hget).2.2.congr
      intro b _
      show tableEntries (m.reqToBlocks.set r _) b = _
      rw [tableEntries_set, tableEntries_eq m r b, List.count_append, List.count_append]
      omega

theorem BlockManager.Balanced.cacheBlocks (h : m.Balanced numBlocks tail) (r : RequestId) (k n : Nat) :
    (m.cacheBlocks r k n).Balanced numBlocks tail := by
  apply BlockPool.PoolCounts.cacheFullBlocks h
  intro b hb _
  have hpos := List.count_pos_iff.mpr (List.mem_of_mem_take (List.mem_of_mem_drop hb))
  rw [tableEntries_eq m r b]
  omega

theorem BlockManager.Balanced.free (htail : tail ≤ numBlocks) (h : m.Balanced numBlocks tail) (r : RequestId) :
    (m.free r).Balanced numBlocks tail := by
  have hheld : ∀ b, b ≠ BlockPool.nullBlock → (m.table r).reverse.count b ≤ tableEntries m.reqToBlocks b := by
    intro b _
    rw [tableEntries_eq m r b, List.count_reverse]
    omega
  apply (BlockPool.PoolCounts.freeBlocks h htail hheld).congr
  intro b _
  show tableEntries (m.reqToBlocks.erase r) b = _
  rw [tableEntries_eq m r b, List.count_reverse]
  omega

end Operations

section Surgery

/-- Taking one page out of a table takes one entry from that page and none from another. -/
theorem tableEntries_set_null {tables : OrderedDict RequestId (List Nat)} {r : RequestId} {blocks : List Nat}
    {i page : Nat}
    (htable : tables.get? r = some blocks) (hpage : blocks[i]? = some page) {b : Nat} (hb : b ≠ BlockPool.nullBlock) :
    tableEntries (tables.set r (blocks.set i BlockPool.nullBlock)) b + [page].count b = tableEntries tables b := by
  obtain ⟨hi, hentry⟩ := List.getElem?_eq_some_iff.mp hpage
  have hcount : (blocks.set i BlockPool.nullBlock).count b + [page].count b = blocks.count b := by
    rw [List.count_set hi, hentry, List.count_singleton, beq_false_of_ne (Ne.symm hb)]
    by_cases hpb : page = b
    · have hpos : 0 < blocks.count b := List.count_pos_iff.mpr (hpb ▸ hentry ▸ List.getElem_mem hi)
      simp only [hpb, BEq.rfl, if_true, Bool.false_eq_true, if_false]
      omega
    · simp [hpb]
  rw [tableEntries_set, tableEntries_of_get? htable]
  omega

def ConnectorState.manager (c : ConnectorState μ σ) : BlockManager := ⟨c.gpuBlockPool, c.reqToBlocks⟩

/-- What the table surgery did: it took the pages of `freed` out of the tables of their requests. -/
structure SurgeryPost (entries : List (BlockRef × Nat)) (c : ConnectorState μ σ) (freed : List (BlockRef × Nat))
    (c' : ConnectorState μ σ) : Prop where
  sublist : freed.Sublist entries
  tabled : ∀ e ∈ freed, e.1.requestId ∈ c.reqToBlocks.keys
  held : ∀ e ∈ freed, e.2 ≠ BlockPool.nullBlock → (c.manager.table e.1.requestId)[e.1.blockIdx.toNat]? = some e.2
  shrinks : ∀ r (i page : Nat), page ≠ BlockPool.nullBlock → (c'.manager.table r)[i]? = some page →
    (c.manager.table r)[i]? = some page
  keys : ∀ r, r ∈ c'.reqToBlocks.keys ↔ r ∈ c.reqToBlocks.keys
  count : ∀ b, b ≠ BlockPool.nullBlock →
    tableEntries c'.reqToBlocks b + (freed.map Prod.snd).count b = tableEntries c.reqToBlocks b

theorem freeEntry_spec (e : BlockRef × Nat) (acc : ConnectorState μ σ × List Nat) :
    ∃ freed, SurgeryPost [e] acc.1 freed (freeEntry e acc).1 ∧ (freeEntry e acc).2 = acc.2 ++ freed.map Prod.snd := by
  have hskip : SurgeryPost [e] acc.1 [] acc.1 :=
    ⟨List.nil_sublist _, nofun, nofun, fun _ _ _ _ h => h, fun _ => Iff.rfl, fun _ _ => rfl⟩
  dsimp only [freeEntry]
  split
  · exact ⟨[], hskip, (List.append_nil _).symm⟩
  · rename_i blocks htable
    split_ifs with hpage
    · have hr := OrderedDict.mem_keys_of_get? htable
      have hblocks : acc.1.manager.table e.1.requestId = blocks := by
        rw [BlockManager.table, ConnectorState.manager, htable]
        rfl
      refine ⟨[e], ⟨List.Sublist.refl _, ?_, ?_, fun r i page hpage' hentry => ?_, fun r => ?_,
        fun b hb => tableEntries_set_null htable hpage hb⟩, rfl⟩
      · rintro e' he'
        rwa [List.mem_singleton.mp he']
      · rintro e' he' -
        rw [List.mem_singleton.mp he', hblocks]
        exact hpage
      · rw [BlockManager.table, ConnectorState.manager, OrderedDict.get?_set] at hentry
        by_cases heq : r = e.1.requestId
        · -- an entry of this table that is not null now is not the one taken out
          rw [if_pos heq, Option.getD_some] at hentry
          rw [heq, hblocks]
          rw [List.getElem?_set] at hentry
          split_ifs at hentry
          · exact absurd (Option.some.inj hentry).symm hpage'
          · exact hentry
        · rwa [if_neg heq] at hentry
      · rw [OrderedDict.mem_keys_set]
        exact ⟨fun h => h.elim (fun heq => heq ▸ hr) id, Or.inr⟩
    · exact ⟨[], hskip, (List.append_nil _).symm⟩

theorem SurgeryPost.trans {e : BlockRef × Nat} {rest freed freed' : List (BlockRef × Nat)}
    {c c₁ c' : ConnectorState μ σ}
    (h : SurgeryPost [e] c freed c₁) (h' : SurgeryPost rest c₁ freed' c') :
    SurgeryPost (e :: rest) c (freed ++ freed') c' := by
  refine ⟨h.sublist.append h'.sublist, fun e' he' => ?_, fun e' he' hpage => ?_,
    fun r i page hpage hentry => h.shrinks r i page hpage (h'.shrinks r i page hpage hentry),
    fun r => (h'.keys r).trans (h.keys r), fun b hb => ?_⟩
  · rcases List.mem_append.mp he' with hold | hnew
    · exact h.tabled e' hold
    · exact (h.keys _).mp (h'.tabled e' hnew)
  · rcases List.mem_append.mp he' with hold | hnew
    · exact h.held e' hold hpage
    · exact h.shrinks _ _ _ hpage (h'.held e' hnew hpage)
  · have hfirst := h.count b hb
    have hrest := h'.count b hb
    rw [List.map_append, List.count_append]
    omega

theorem freeEntries_spec (entries : List (BlockRef × Nat)) (acc : ConnectorState μ σ × List Nat) :
    ∃ freed, SurgeryPost entries acc.1 freed (entries.foldl (fun acc e => freeEntry e acc) acc).1 ∧
      (entries.foldl (fun acc e => freeEntry e acc) acc).2 = acc.2 ++ freed.map Prod.snd := by
  induction entries generalizing acc with
  | nil =>
      exact ⟨[], ⟨List.Sublist.refl _, nofun, nofun, fun _ _ _ _ h => h, fun _ => Iff.rfl, fun _ _ => rfl⟩,
        (List.append_nil _).symm⟩
  | cons e rest ih =>
      obtain ⟨freed, hfirst, hpages⟩ := freeEntry_spec e acc
      obtain ⟨freed', hrest, hpages'⟩ := ih (freeEntry e acc)
      refine ⟨freed ++ freed', hfirst.trans hrest, ?_⟩
      rw [List.foldl_cons, hpages', hpages, List.map_append, List.append_assoc]

/-- The pages that `_process_store_completion` gives back to the pool. -/
def freedPages (cfg : ConnectorConfig) (event : Nat) (c : ConnectorState μ σ) : List Nat :=
  match c.pendingStoreEvents.get? event with
  | none => []
  | some batch =>
      if cfg.trueFree then
        ((batch.refs.zip batch.gpuBlockIds).foldl (fun acc e => freeEntry e acc)
          ({ c with pendingStoreEvents := c.pendingStoreEvents.erase event,
                    cpuBlockPool := c.cpuBlockPool.freeBlocks batch.cpuBlockIds }, [])).2
      else []

/-- The blocks and pages a pending store event lists. -/
def eventEntries (event : Nat) (c : ConnectorState μ σ) : List (BlockRef × Nat) :=
  match c.pendingStoreEvents.get? event with
  | none => []
  | some batch => batch.refs.zip batch.gpuBlockIds

/-- What a completion did to the pool and the tables. -/
structure CompletionPost (cfg : ConnectorConfig) (event : Nat) (c : ConnectorState μ σ) (freed : List (BlockRef × Nat))
    (c' : ConnectorState μ σ) : Prop where
  pages : freedPages cfg event c = freed.map Prod.snd
  sublist : freed.Sublist (eventEntries event c)
  tabled : ∀ e ∈ freed, e.1.requestId ∈ c.reqToBlocks.keys
  held : ∀ e ∈ freed, e.2 ≠ BlockPool.nullBlock → (c.manager.table e.1.requestId)[e.1.blockIdx.toNat]? = some e.2
  keys : ∀ r, r ∈ c'.reqToBlocks.keys ↔ r ∈ c.reqToBlocks.keys
  count : ∀ b, b ≠ BlockPool.nullBlock →
    tableEntries c'.reqToBlocks b + (freedPages cfg event c).count b = tableEntries c.reqToBlocks b
  pool : freedPages cfg event c = [] ∧ c'.gpuBlockPool = c.gpuBlockPool ∨
    c'.gpuBlockPool = (c.gpuBlockPool.evictBlocks (freedPages cfg event c)).freeBlocks (freedPages cfg event c)

theorem processStoreCompletion_spec (cfg : ConnectorConfig) (event : Nat) (c : ConnectorState μ σ) :
    ∃ freed, CompletionPost cfg event c freed (processStoreCompletion cfg event c) := by
  have hskip : ∀ {c' : ConnectorState μ σ}, freedPages cfg event c = [] → c'.gpuBlockPool = c.gpuBlockPool →
      c'.reqToBlocks = c.reqToBlocks → ∃ freed, CompletionPost cfg event c freed c' := by
    intro c' hpages hpool htables
    refine ⟨[], hpages, List.nil_sublist _, nofun, nofun, fun r => by rw [htables], fun b _ => ?_,
      Or.inl ⟨hpages, hpool⟩⟩
    rw [htables, hpages, List.count_nil, add_zero]
  cases hget : c.pendingStoreEvents.get? event with
  | none =>
      exact hskip (by rw [freedPages, hget]) (by rw [processStoreCompletion, hget])
        (by rw [processStoreCompletion, hget])
  | some batch =>
      by_cases hfree : cfg.trueFree = true
      · obtain ⟨freed, hpost, hpages⟩ := freeEntries_spec (batch.refs.zip batch.gpuBlockIds)
          (({ c with pendingStoreEvents := c.pendingStoreEvents.erase event,
                     cpuBlockPool := c.cpuBlockPool.freeBlocks batch.cpuBlockIds } : ConnectorState μ σ), [])
        have hframe := surgeryFrame_freeEntries (batch.refs.zip batch.gpuBlockIds)
          (({ c with pendingStoreEvents := c.pendingStoreEvents.erase event,
                     cpuBlockPool := c.cpuBlockPool.freeBlocks batch.cpuBlockIds } : ConnectorState μ σ), [])
        have hfreed : freedPages cfg event c = freed.map Prod.snd := by
          rw [freedPages, hget]
          dsimp only
          rw [if_pos hfree, hpages, List.nil_append]
        refine ⟨freed, hfreed, ?_, hpost.tabled, hpost.held, ?_, ?_, Or.inr ?_⟩
        · rw [eventEntries, hget]
          exact hpost.sublist
        · rw [processStoreCompletion, hget]
          dsimp only
          rw [if_pos hfree]
          exact hpost.keys
        · rw [hfreed, processStoreCompletion, hget]
          dsimp only
          rw [if_pos hfree]
          exact hpost.count
        · rw [hfreed, processStoreCompletion, hget]
          dsimp only
          rw [if_pos hfree, hpages, List.nil_append, hframe]
      · refine hskip ?_ ?_ ?_
        · rw [freedPages, hget]
          exact if_neg hfree
        · rw [processStoreCompletion, hget]
          dsimp only
          rw [if_neg hfree]
        · rw [processStoreCompletion, hget]
          dsimp only
          rw [if_neg hfree]

theorem CompletionPost.balanced {cfg : ConnectorConfig} {event numBlocks tail : Nat} {freed : List (BlockRef × Nat)}
    {c c' : ConnectorState μ σ} (hpost : CompletionPost cfg event c freed c') (htail : tail ≤ numBlocks)
    (h : c.manager.Balanced numBlocks tail) : c'.manager.Balanced numBlocks tail := by
  have hheld : ∀ b, b ≠ BlockPool.nullBlock → (freedPages cfg event c).count b ≤ tableEntries c.reqToBlocks b := by
    intro b hb
    have := hpost.count b hb
    omega
  have hentries : ∀ b, b ≠ BlockPool.nullBlock →
      tableEntries c'.reqToBlocks b = tableEntries c.reqToBlocks b - (freedPages cfg event c).count b := by
    intro b hb
    have := hpost.count b hb
    omega
  unfold BlockManager.Balanced ConnectorState.manager
  rcases hpost.pool with ⟨hnone, hpool⟩ | hpool
  · rw [hpool]
    apply BlockPool.PoolCounts.congr h
    intro b hb
    show tableEntries c'.reqToBlocks b = tableEntries c.reqToBlocks b
    rw [hentries b hb, hnone, List.count_nil, Nat.sub_zero]
  · rw [hpool]
    apply ((BlockPool.PoolCounts.evictBlocks h _).freeBlocks htail hheld).congr
    exact hentries

end Surgery

/-- What vLLM and the connector do to the tables. -/
inductive VllmOp (μ : Type) where
  | allocate (requestId : RequestId) (hits : List Nat) (numNewBlocks : Nat)
  | cacheBlocks (requestId : RequestId) (numCachedBlocks numFullBlocks : Nat)
  | preempt (requestId : RequestId)
  /-- The connector is told first, then the blocks are freed. -/
  | finish (requestId : RequestId)
  | build (out : SchedulerOutput)
  | update (completed : List (Nat × Nat))
  | worker (op : WorkerOp μ)

def Connector.withManager (c : Connector μ σ) (m : BlockManager) : Connector μ σ :=
  { c with gpuBlockPool := m.pool, reqToBlocks := m.reqToBlocks }

def vllmStep (cfg : ConnectorConfig) (dev : Device μ φ ν S) (scorer : BlockScorer σ ν S) (c : Connector μ σ) :
    VllmOp μ → Connector μ σ
  | .allocate r hits n => c.withManager (c.manager.allocateSlots r hits n).2
  | .cacheBlocks r k n => c.withManager (c.manager.cacheBlocks r k n)
  | .preempt r => c.withManager (c.manager.free r)
  | .finish r =>
      let c := connectorStep cfg dev scorer c (.finished r)
      c.withManager (c.manager.free r)
  | .build out => connectorStep cfg dev scorer c (.build out)
  | .update completed => connectorStep cfg dev scorer c (.update completed)
  | .worker op => connectorStep cfg dev scorer c (.worker op)

/-- Hits are blocks that have a hash, and the id of a finished request is not used again. -/
def VllmOp.Legal (c : Connector μ σ) : VllmOp μ → Prop
  | .allocate r hits _ => r ∉ finishedRequests c.trace ∧ ∀ b ∈ hits, b ∈ c.gpuBlockPool.hashed
  | .build out => ∀ r ∈ out.ids, r ∉ finishedRequests c.trace
  | _ => True

instance (c : Connector μ σ) : (op : VllmOp μ) → Decidable (op.Legal c)
  | .allocate r hits _ =>
      inferInstanceAs (Decidable (r ∉ finishedRequests c.trace ∧ ∀ b ∈ hits, b ∈ c.gpuBlockPool.hashed))
  | .cacheBlocks _ _ _ => inferInstanceAs (Decidable True)
  | .preempt _ => inferInstanceAs (Decidable True)
  | .finish _ => inferInstanceAs (Decidable True)
  | .build out => inferInstanceAs (Decidable (∀ r ∈ out.ids, r ∉ finishedRequests c.trace))
  | .update _ => inferInstanceAs (Decidable True)
  | .worker _ => inferInstanceAs (Decidable True)

/-- The accounts of the pool are those of the tables, and no finished request has a table. -/
structure BlockManager.Consistent (numBlocks tail : Nat) (finished : List RequestId) (m : BlockManager) : Prop where
  balanced : m.Balanced numBlocks tail
  live : ∀ r ∈ m.reqToBlocks.keys, r ∉ finished

namespace BlockManager.Consistent

variable {numBlocks tail : Nat} {finished : List RequestId} {m : BlockManager}

theorem allocateSlots (h : m.Consistent numBlocks tail finished) {r : RequestId} (hr : r ∉ finished) {hits : List Nat}
    (hhits : ∀ b ∈ hits, b ∈ m.pool.hashed) (n : Nat) :
    (m.allocateSlots r hits n).2.Consistent numBlocks tail finished := by
  refine ⟨h.balanced.allocateSlots r n hhits, ?_⟩
  unfold BlockManager.allocateSlots
  dsimp only
  split_ifs
  · exact h.live
  · split
    · exact h.live
    · intro r' hr'
      rcases OrderedDict.mem_keys_set.mp hr' with rfl | hold
      · exact hr
      · exact h.live r' hold

theorem cacheBlocks (h : m.Consistent numBlocks tail finished) (r : RequestId) (k n : Nat) :
    (m.cacheBlocks r k n).Consistent numBlocks tail finished :=
  ⟨h.balanced.cacheBlocks r k n, h.live⟩

theorem free (htail : tail ≤ numBlocks) (h : m.Consistent numBlocks tail finished) (r : RequestId) :
    (m.free r).Consistent numBlocks tail finished :=
  ⟨h.balanced.free htail r, fun r' hr' => h.live r' (OrderedDict.mem_keys_erase.mp hr').2⟩

/-- After its blocks are freed a request may count as finished. -/
theorem finish (htail : tail ≤ numBlocks) (h : m.Consistent numBlocks tail finished) (r : RequestId) :
    (m.free r).Consistent numBlocks tail (finished ++ [r]) := by
  refine ⟨h.balanced.free htail r, fun r' hr' hfinished => ?_⟩
  obtain ⟨hne, hkey⟩ := OrderedDict.mem_keys_erase.mp hr'
  rcases List.mem_append.mp hfinished with hold | hnew
  · exact h.live r' hkey hold
  · exact hne (List.mem_singleton.mp hnew)

theorem update {cfg : ConnectorConfig} (htail : tail ≤ numBlocks) (completed : List (Nat × Nat))
    {c : ConnectorState μ σ} (h : c.manager.Consistent numBlocks tail finished) :
    (completed.foldl (countCompletion cfg) c).manager.Consistent numBlocks tail finished := by
  apply update_preserves (P := fun c => c.manager.Consistent numBlocks tail finished) (fun _ _ h => h) _ completed h
  intro c event h
  obtain ⟨freed, hpost⟩ := processStoreCompletion_spec cfg event c
  exact ⟨hpost.balanced htail h.balanced, fun r hr => h.live r ((hpost.keys r).mp hr)⟩

end BlockManager.Consistent

section Runs

variable {cfg : ConnectorConfig} {dev : Device μ φ ν S} {scorer : BlockScorer σ ν S} {c : Connector μ σ}
  {numBlocks tail : Nat}

/-- What holds in every state of a run: the accounts of the connector and those of the pool. -/
structure TablesInv (cfg : ConnectorConfig) (dev : Device μ φ ν S) (numBlocks tail : Nat) (c : Connector μ σ) :
    Prop where
  kept : Kept cfg dev c
  consistent : c.manager.Consistent numBlocks tail (finishedRequests c.trace)

theorem Kept.withManager (h : Kept cfg dev c) (m : BlockManager) : Kept cfg dev (c.withManager m) :=
  ⟨⟨h.sound.ok, h.sound.lists, h.sound.ordinary⟩,
    ⟨h.account.gone, h.account.once, h.account.waiting, h.account.pending⟩⟩

theorem TablesInv.withManager (h : TablesInv cfg dev numBlocks tail c) {m : BlockManager}
    (hm : m.Consistent numBlocks tail (finishedRequests c.trace)) :
    TablesInv cfg dev numBlocks tail (c.withManager m) :=
  ⟨h.kept.withManager m, hm⟩

/-- A step of the connector that leaves the pool and the tables alone and finishes no request. -/
theorem TablesInv.connector (scorer : BlockScorer σ ν S) (h : TablesInv cfg dev numBlocks tail c) {op : ConnectorOp μ}
    (hfresh : op.Fresh c)
    (hmanager : (connectorStep cfg dev scorer c op).manager.Consistent numBlocks tail (finishedRequests c.trace))
    (hfinished : finishedRequests (connectorStep cfg dev scorer c op).trace = finishedRequests c.trace) :
    TablesInv cfg dev numBlocks tail (connectorStep cfg dev scorer c op) := by
  refine ⟨(h.kept.step hfresh).1, ?_⟩
  rw [hfinished]
  exact hmanager

theorem TablesInv.step (htail : tail ≤ numBlocks) (h : TablesInv cfg dev numBlocks tail c) {op : VllmOp μ}
    (hop : op.Legal c) : TablesInv cfg dev numBlocks tail (vllmStep cfg dev scorer c op) := by
  cases op with
  | allocate r hits n => exact h.withManager (h.consistent.allocateSlots hop.1 hop.2 n)
  | cacheBlocks r k n => exact h.withManager (h.consistent.cacheBlocks r k n)
  | preempt r => exact h.withManager (h.consistent.free htail r)
  | finish r =>
      have hstep : FinishStep cfg dev r c (connectorStep cfg dev scorer c (.finished r)) := finishStep h.kept.sound r
      have hfinished : finishedRequests (connectorStep cfg dev scorer c (.finished r)).trace =
          finishedRequests c.trace ++ [r] := by
        rw [hstep.state, finishedRequests_append]
        rfl
      have hmanager : (connectorStep cfg dev scorer c (.finished r)).manager = c.manager := by
        rw [ConnectorState.manager, hstep.state]
        rfl
      have hfresh : (ConnectorOp.finished r : ConnectorOp μ).Fresh c := True.intro
      refine ⟨(h.kept.step hfresh).1.withManager _, ?_⟩
      show (BlockManager.free _ r).Consistent numBlocks tail
        (finishedRequests (connectorStep cfg dev scorer c (.finished r)).trace)
      rw [hfinished, hmanager]
      exact h.consistent.finish htail r
  | build out =>
      obtain ⟨hpool, htables⟩ := build_tables scorer out h.kept.sound
      have hmanager : (connectorStep cfg dev scorer c (.build out)).manager = c.manager := by
        rw [ConnectorState.manager, hpool, htables]
        rfl
      have hfresh : (ConnectorOp.build out : ConnectorOp μ).Fresh c := hop
      exact h.connector scorer hfresh (by rw [hmanager]; exact h.consistent) (h.kept.build_finished scorer hop)
  | update completed =>
      have hfresh : (ConnectorOp.update completed : ConnectorOp μ).Fresh c := True.intro
      exact h.connector scorer hfresh (h.consistent.update htail completed) rfl
  | worker op =>
      have hfresh : (ConnectorOp.worker op).Fresh c := True.intro
      exact h.connector scorer hfresh h.consistent rfl

/-- The page of an entry stands in the request's table at the block's index, and the block has its copy on the
CPU. -/
structure FreesSafely (c : ConnectorState μ σ) (e : BlockRef × Nat) : Prop where
  held : e.2 ≠ BlockPool.nullBlock → (c.manager.table e.1.requestId)[e.1.blockIdx.toNat]? = some e.2
  copied : ∃ loc, c.orchestrator.store.residency.get e.1 = some loc ∧
    (loc.residency = .cpu ∨ loc.residency = .staging) ∧ loc.cpuSlot.isSome

/-- The accounts of the pool, and what the next free can do: whatever gives pages back, a request that is
freed or a store event that completed, no page is given back more often than it was handed out; and the pages
the surgery takes are, entry by entry of the event, pages of blocks that have their copy on the CPU. -/
structure SafeFreeing (cfg : ConnectorConfig) (numBlocks : Nat) (c : ConnectorState μ σ) : Prop where
  counted : ∀ b, b ≠ BlockPool.nullBlock → c.gpuBlockPool.refCnt b =
    tableEntries c.reqToBlocks b + if numBlocks - cfg.numStagingSlots ≤ b ∧ b < numBlocks then 1 else 0
  free : ∀ b, b ∈ c.gpuBlockPool.freeQueue ↔ b ≠ BlockPool.nullBlock ∧ b < numBlocks ∧ c.gpuBlockPool.refCnt b = 0
  nodup : c.gpuBlockPool.freeQueue.Nodup
  request : ∀ r b, b ≠ BlockPool.nullBlock → ((c.manager.table r).count b : Int) ≤ c.gpuBlockPool.refCnt b
  surgery : ∀ event b, b ≠ BlockPool.nullBlock → ((freedPages cfg event c).count b : Int) ≤ c.gpuBlockPool.refCnt b
  parked : ∀ event, ∃ freed : List (BlockRef × Nat), freed.Sublist (eventEntries event c) ∧
    freedPages cfg event c = freed.map Prod.snd ∧ ∀ e ∈ freed, FreesSafely c e

theorem ref_of_eventEntries {event : Nat} {c : ConnectorState μ σ} {e : BlockRef × Nat} (h : e ∈ eventEntries event c) :
    ∃ batch, c.pendingStoreEvents.get? event = some batch ∧ e.1 ∈ batch.refs := by
  unfold eventEntries at h
  split at h
  · cases h
  · rename_i batch hget
    exact ⟨batch, hget, (List.of_mem_zip h).1⟩

/-- A block that is off the GPU has its copy in a CPU slot. -/
theorem location_of_parked {t : ResidencyTable} {ref : BlockRef} (h : placement t ref = .parked) :
    ∃ loc, t.get ref = some loc ∧ (loc.residency = .cpu ∨ loc.residency = .staging) ∧ loc.cpuSlot.isSome := by
  unfold placement placementOf at h
  cases hget : t.get ref with
  | none =>
      rw [hget] at h
      cases h
  | some loc =>
      have hres : loc.residency ≠ .gpu := by
        intro hgpu
        rw [hget] at h
        simp [hgpu] at h
      refine ⟨loc, rfl, ?_, (t.wellFormed ref loc hget).cpuSlot_isSome hres⟩
      cases hloc : loc.residency with
      | gpu => exact absurd hloc hres
      | cpu => exact Or.inl rfl
      | staging => exact Or.inr rfl

theorem TablesInv.safeFreeing (h : TablesInv cfg dev numBlocks (numBlocks - cfg.numStagingSlots) c) :
    SafeFreeing cfg numBlocks c.toConnectorState := by
  have hcounts :
      BlockPool.PoolCounts numBlocks (numBlocks - cfg.numStagingSlots) (tableEntries c.reqToBlocks) c.gpuBlockPool :=
    h.consistent.balanced
  have hle : ∀ {pages : List Nat} {b : Nat}, b ≠ BlockPool.nullBlock → pages.count b ≤ tableEntries c.reqToBlocks b →
      (pages.count b : Int) ≤ c.gpuBlockPool.refCnt b := by
    intro pages b hb hpages
    rw [hcounts.count b hb]
    split_ifs <;> omega
  refine ⟨hcounts.count, hcounts.free, hcounts.nodup, fun r b hb => hle hb ?_, fun event b hb => hle hb ?_,
    fun event => ?_⟩
  · rw [show tableEntries c.reqToBlocks b = _ from tableEntries_eq c.manager r b]
    omega
  · obtain ⟨freed, hpost⟩ := processStoreCompletion_spec cfg event c.toConnectorState
    have := hpost.count b hb
    omega
  · obtain ⟨freed, hpost⟩ := processStoreCompletion_spec cfg event c.toConnectorState
    refine ⟨freed, hpost.sublist, hpost.pages, fun e he => ⟨hpost.held e he, location_of_parked ?_⟩⟩
    -- The block was moved, and its request is not finished: it still has a table.
    obtain ⟨batch, hget, href⟩ := ref_of_eventEntries (hpost.sublist.subset he)
    rcases h.kept.account.gone e.1 (h.kept.account.pending event batch hget e.1 href) with hparked | ⟨-, hfinished⟩
    · exact hparked
    · exact absurd hfinished (h.consistent.live _ (hpost.tabled e he))

end Runs

/-- True freeing is safe whatever the order in which vLLM and the connector act. -/
theorem safe_freeing (numBlocks : Nat) (enableCaching : Bool) (cfg : ConnectorConfig) (dev : Device μ φ ν S)
    (scorer : BlockScorer σ ν S) (x : σ) (mem : μ) (hlt : cfg.numStagingSlots < numBlocks) (ops : List (VllmOp μ))
    (hops : Along (vllmStep cfg dev scorer) VllmOp.Legal
      (Connector.init cfg x mem
        (reserveStagingTail numBlocks (BlockPool.init numBlocks enableCaching) cfg.numStagingSlots).2)
      ops) :
    SafeFreeing cfg numBlocks
      (run (vllmStep cfg dev scorer)
        (Connector.init cfg x mem
          (reserveStagingTail numBlocks (BlockPool.init numBlocks enableCaching) cfg.numStagingSlots).2)
        ops).toConnectorState := by
  have hstart : TablesInv cfg dev numBlocks (numBlocks - cfg.numStagingSlots)
      (Connector.init cfg x mem
        (reserveStagingTail numBlocks (BlockPool.init numBlocks enableCaching) cfg.numStagingSlots).2) := by
    refine ⟨kept_init cfg dev x mem _, ?_, nofun⟩
    rw [reserveStagingTail_init cfg.numStagingSlots_pos hlt enableCaching]
    exact poolCounts_reserved hlt enableCaching
  have hinv := run_invariant (I := TablesInv cfg dev numBlocks (numBlocks - cfg.numStagingSlots))
    (fun _ _ h hop => h.step (Nat.sub_le _ _) hop) hstart hops
  exact hinv.safeFreeing

/-- A block of one request is offloaded while another one is shared through the prefix cache. -/
def sharingScenario : List (VllmOp SmallMemory) :=
  [.allocate requestA [] 2, .build ⟨[⟨requestA, [1, 2], 0, 4⟩], [], fun _ => 4⟩, .cacheBlocks requestA 0 2,
    .build ⟨[], [⟨requestA, 4, none, false⟩], fun _ => 1⟩, .allocate requestB [2] 1]

def smallVllmStep : Connector SmallMemory LruState → VllmOp SmallMemory → Connector SmallMemory LruState :=
  vllmStep smallConnectorConfig (combinedDevice steadyRuntime) lruScorer

def reservedConnector : Connector SmallMemory LruState :=
  Connector.init smallConnectorConfig ⟨.empty, 0⟩ blankMemory
    (reserveStagingTail 9 (BlockPool.init 9 true) smallConnectorConfig.numStagingSlots).2

theorem safe_freeing_sharingScenario :
    let c := run smallVllmStep reservedConnector sharingScenario
    c.gpuBlockPool.refCnt 2 = 2 ∧ eventEntries 0 c.toConnectorState = [(⟨requestA, 0⟩, 1)] ∧
      freedPages smallConnectorConfig 0 c.toConnectorState = [1] ∧
      SafeFreeing smallConnectorConfig 9 c.toConnectorState ∧
      SafeFreeing smallConnectorConfig 9
        (run smallVllmStep reservedConnector
          (sharingScenario ++ [.update [(0, 1)], .finish requestA])).toConnectorState := by
  have hsafe : ∀ ops, Along smallVllmStep VllmOp.Legal reservedConnector ops →
      SafeFreeing smallConnectorConfig 9 (run smallVllmStep reservedConnector ops).toConnectorState :=
    safe_freeing 9 true smallConnectorConfig (combinedDevice steadyRuntime) lruScorer
      ⟨.empty, 0⟩ blankMemory (by decide)
  refine ⟨?_, ?_, ?_, hsafe _ ?_, hsafe _ ?_⟩ <;> decide +kernel

end KVOffload

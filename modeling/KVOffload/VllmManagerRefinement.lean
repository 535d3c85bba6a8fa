import KVOffload.SchedulerModel
import KVOffload.VllmCacheSteps

/-! The KV cache manager under the scheduler. The scheduler and the connector are modelled over a `BlockManager`, a pool
of reference counts with its tables; the manager in memory has a linked queue, hashes and a prefix cache. What
`allocate_slots`, `_preempt_request`, `finish_requests` and `_process_store_completion` do to the one they do to the
other. -/

namespace KVOffload
open Base

variable {μ φ ν σ S T E H : Type} [LinearOrder S] [DecidableEq H]

/-- The manager has the pool and the tables of the scheduler, and the two agree on how much of a request is computed
and on whether it runs. -/
structure CacheManager.Implements (numBlocks tail blockSize : Nat) (m : CacheManager T E H) (s : Scheduler μ σ) :
    Prop where
  manager : m.Refines numBlocks tail blockSize s.connector.manager
  requests : ∀ r, (m.requests.get? r).map (fun req => (req.numComputedTokens, req.running)) =
    (s.requests.get? r).map fun req => (req.numComputedTokens, decide (req.status = .running))

namespace CacheManager

variable {numBlocks tail : Nat} {cfg : CacheConfig} {m : CacheManager T E H} {s : Scheduler μ σ} {r : RequestId}

section Allocate

variable {schedulerConfig : SchedulerConfig} {req : Request T E H} {hits : List Nat} {computed n : Nat}

/-- A step of a request without draft tokens is given the same pages, or none by both. -/
theorem Refines.allocateSlots_scheduler (htail : tail ≤ numBlocks)
    (h : m.Refines numBlocks tail cfg.blockSize s.connector.manager)
    (hpageSize : schedulerConfig.pageSize = cfg.blockSize) (hlookahead : schedulerConfig.numLookaheadTokens = 0)
    (hready : Ready cfg r req hits m) (hcomputed : req.numComputedTokens + hits.length * cfg.blockSize = computed)
    (hn : n ≠ 0) (hfits : computed + n ≤ req.allTokenIds.length) (hmax : req.allTokenIds.length ≤ cfg.maxModelLen)
    (hhashes : req.blockHashes.length = req.allTokenIds.length / cfg.blockSize) :
    Eff.wp (CacheManager.allocateSlots cfg noReserve r req n hits)
      (fun result m' => result = none ∧ m' = m ∧ s.allocateSlots schedulerConfig r hits computed n = none ∨
        ∃ new bm, result = some new ∧ s.allocateSlots schedulerConfig r hits computed n = some (new, bm) ∧
          m'.Refines numBlocks tail cfg.blockSize bm)
      (fun _ _ => False) m := by
  have hneeded : (computed + n + schedulerConfig.numLookaheadTokens + (schedulerConfig.pageSize - 1)) /
      schedulerConfig.pageSize - ((s.connector.manager.table r).length + hits.length) =
        m.numNewBlocks cfg r hits (computed + n) := by
    rw [hpageSize, hlookahead, Nat.add_zero, h.table]
    rfl
  refine Eff.wp_mono (h.allocateSlots htail hready noReserve hcomputed hn hfits hmax hhashes) (fun result m' hend => ?_)
    fun _ _ hf => hf
  rcases hend with ⟨hnone, hm', habstract⟩ | ⟨new, bm, hsome, habstract, hrefines, -⟩
  · refine Or.inl ⟨hnone, hm', ?_⟩
    rw [Scheduler.allocateSlots, hneeded, habstract rfl]
  · refine Or.inr ⟨new, _, hsome, ?_, hrefines⟩
    rw [Scheduler.allocateSlots, hneeded, habstract, hpageSize]

end Allocate

section Release

/-- A request that was changed in both. -/
theorem Implements.requests_set {m' : CacheManager T E H} {s' : Scheduler μ σ}
    (h : m.Implements numBlocks tail cfg.blockSize s) (r : RequestId) (req : Option (Request T E H))
    (request : Option VllmRequest)
    (hm' : ∀ r', m'.requests.get? r' = if r' = r then req else m.requests.get? r')
    (hs' : ∀ r', s'.requests.get? r' = if r' = r then request else s.requests.get? r')
    (hsame : req.map (fun req => (req.numComputedTokens, req.running)) =
      request.map fun req => (req.numComputedTokens, decide (req.status = .running)))
    (hmanager : m'.Refines numBlocks tail cfg.blockSize s'.connector.manager) :
    m'.Implements numBlocks tail cfg.blockSize s' := by
  refine ⟨hmanager, fun r' => ?_⟩
  rw [hm', hs']
  split_ifs
  · exact hsame
  · exact h.requests r'

theorem Implements.preemptRequest (htail : tail ≤ numBlocks) (h : m.Implements numBlocks tail cfg.blockSize s)
    (r : RequestId) :
    Eff.wp (preemptRequest r) (fun _ m' => m'.Implements numBlocks tail cfg.blockSize (s.preemptRequest r))
      (fun _ _ => False) m := by
  have hrequest := h.requests r
  simp only [CacheManager.preemptRequest, Eff.wp_bind, Eff.wp_read]
  cases hreq : m.requests.get? r with
  | none =>
      rw [hreq, Option.map_none] at hrequest
      rw [Scheduler.preemptRequest, Option.map_eq_none_iff.mp hrequest.symm]
      exact h
  | some req =>
      rw [hreq, Option.map_some] at hrequest
      obtain ⟨request, hget, hsame⟩ := Option.map_eq_some_iff.mp hrequest.symm
      obtain ⟨-, hstatus⟩ := Prod.mk.inj hsame
      rw [Scheduler.preemptRequest, hget]
      dsimp only
      cases hrunning : req.running with
      | false =>
          rw [hrunning, decide_eq_false_iff_not] at hstatus
          rw [if_neg hstatus]
          exact h
      | true =>
          rw [hrunning, decide_eq_true_iff] at hstatus
          rw [if_pos hstatus, if_pos rfl, Eff.wp_bind]
          refine Eff.wp_mono (h.manager.free htail r) (fun _ m₁ hend => ?_) fun _ _ hf => hf
          obtain ⟨hrefines, hreleases⟩ := hend
          refine h.requests_set r (some { req with numComputedTokens := 0, running := false })
            (some { request with numComputedTokens := 0, status := .preempted }) (fun r' => ?_)
            (fun r' => OrderedDict.get?_set _ _ _ _) rfl
            ⟨hrefines.pool, hrefines.tables, hrefines.balanced, hrefines.caching, hrefines.hashBlockSize⟩
          show (m₁.requests.set r _).get? r' = _
          rw [OrderedDict.get?_set, hreleases.requests]

/-- A request of the scheduler finishes; the connector is told first and leaves pool and tables alone. -/
theorem Implements.finishRequest {schedulerConfig : SchedulerConfig} {dev : Device μ φ ν S}
    (scorer : BlockScorer σ ν S) (htail : tail ≤ numBlocks) (h : m.Implements numBlocks tail cfg.blockSize s)
    (hsound : Sound schedulerConfig.toConnectorConfig dev s.connector.toConnectorState) (hr : r ∈ s.requests.keys) :
    Eff.wp (finishRequest r)
      (fun _ m' => m'.Implements numBlocks tail cfg.blockSize (s.finishRequest schedulerConfig dev scorer r))
      (fun _ _ => False) m := by
  have hmanager : (connectorStep schedulerConfig.toConnectorConfig dev scorer s.connector (.finished r)).manager =
      s.connector.manager := by
    rw [ConnectorState.manager, (finishStep hsound r).state]
    rfl
  simp only [CacheManager.finishRequest, Eff.wp_bind]
  refine Eff.wp_mono (h.manager.free htail r) (fun _ m₁ hend => ?_) fun _ _ hf => hf
  obtain ⟨hrefines, hreleases⟩ := hend
  rw [Scheduler.finishRequest, if_pos hr]
  refine h.requests_set r none none (fun r' => ?_) (fun r' => OrderedDict.get?_erase _ _ _) rfl ?_
  · show (m₁.requests.erase r).get? r' = _
    rw [OrderedDict.get?_erase, hreleases.requests]
  · show CacheManager.Refines numBlocks tail cfg.blockSize _ (BlockManager.free _ r)
    rw [hmanager]
    exact ⟨hrefines.pool, hrefines.tables, hrefines.balanced, hrefines.caching, hrefines.hashBlockSize⟩

end Release

section Surgery

omit [DecidableEq H] in
/-- The surgery of the connector takes the same pages out of the tables. -/
theorem freeEntries_surgeryLoop (entries : List (BlockRef × Nat)) {c : ConnectorState μ σ} {m : CacheManager T E H}
    (h : m.reqToBlocks = c.reqToBlocks) (freed : List Nat) :
    (entries.foldl (fun acc e => freeEntry e acc) (c, freed)).1.reqToBlocks = (surgeryLoop entries m).2.reqToBlocks ∧
      (entries.foldl (fun acc e => freeEntry e acc) (c, freed)).2 = freed ++ (surgeryLoop entries m).1.1 := by
  induction entries generalizing c m freed with
  | nil => exact ⟨h.symm, (List.append_nil freed).symm⟩
  | cons e rest ih =>
      obtain ⟨ref, gpuId⟩ := e
      rw [List.foldl_cons, surgeryLoop, h, freeEntry]
      dsimp only
      cases htable : c.reqToBlocks.get? ref.requestId with
      | none => exact ih h freed
      | some blocks =>
          dsimp only
          by_cases hpage : blocks[ref.blockIdx.toNat]? = some gpuId
          · rw [if_pos hpage, if_pos hpage]
            have hset : (setTable ref.requestId (blocks.set ref.blockIdx.toNat BlockPool.nullBlock) m).reqToBlocks =
                c.reqToBlocks.set ref.requestId (blocks.set ref.blockIdx.toNat BlockPool.nullBlock) :=
              congrArg (OrderedDict.set · ref.requestId _) h
            refine ⟨(ih (m := setTable ref.requestId _ m) hset (freed ++ [gpuId])).1, ?_⟩
            exact ((ih (m := setTable ref.requestId _ m) hset (freed ++ [gpuId])).2).trans
              (List.append_assoc freed [gpuId] _)
          · rw [if_neg hpage, if_neg hpage]
            exact ih h freed

/-- A store event that completes, with true freeing; an event that is not pending changes nothing. -/
theorem Refines.processStoreCompletion_connector {connectorConfig : ConnectorConfig} {c : ConnectorState μ σ}
    (htail : tail ≤ numBlocks) (h : m.Refines numBlocks tail cfg.blockSize c.manager)
    (htrueFree : connectorConfig.trueFree = true) (event : Nat) :
    Eff.wp (CacheManager.processStoreCompletion (eventEntries event c))
      (fun _ m' => m'.Refines numBlocks tail cfg.blockSize
        (KVOffload.processStoreCompletion connectorConfig event c).manager)
      (fun _ _ => False) m := by
  refine Eff.wp_mono (h.processStoreCompletion htail (eventEntries event c)) (fun _ m' hend => ?_) fun _ _ hf => hf
  obtain ⟨hrefines, -⟩ := hend
  rw [KVOffload.processStoreCompletion]
  rw [eventEntries] at hrefines
  cases hget : c.pendingStoreEvents.get? event with
  | none =>
      rw [hget] at hrefines
      dsimp only [surgeryLoop] at hrefines
      rw [BlockPool.evictBlocks_nil, BlockPool.freeBlocks_nil, h.tables] at hrefines
      exact hrefines
  | some batch =>
      rw [hget] at hrefines
      dsimp only at hrefines ⊢
      rw [if_pos htrueFree]
      have hframe := surgeryFrame_freeEntries (batch.refs.zip batch.gpuBlockIds)
        (({ c with pendingStoreEvents := c.pendingStoreEvents.erase event,
                   cpuBlockPool := c.cpuBlockPool.freeBlocks batch.cpuBlockIds } : ConnectorState μ σ), [])
      obtain ⟨htables, hfreed⟩ := freeEntries_surgeryLoop (batch.refs.zip batch.gpuBlockIds)
        (c := { c with pendingStoreEvents := c.pendingStoreEvents.erase event,
                       cpuBlockPool := c.cpuBlockPool.freeBlocks batch.cpuBlockIds }) h.tables []
      rw [ConnectorState.manager, hfreed, List.nil_append]
      dsimp only
      rw [htables, hframe]
      exact hrefines

end Surgery

end CacheManager

end KVOffload

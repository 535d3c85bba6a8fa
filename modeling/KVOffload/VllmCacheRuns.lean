import KVOffload.VllmCacheContent

/-! Whole runs of the scheduler over the KV cache manager. In a step some requests are scheduled and others are
preempted; then the model runs and writes the tokens of those that are still scheduled. Between steps requests come, get
tokens and finish, and the connector takes pages out of tables. -/

namespace KVOffload
open Base

variable {T E H : Type} [DecidableEq H]

/-- The scheduler between two operations. -/
structure CacheEngine (T E H : Type) where
  manager : CacheManager T E H
  /-- What the slots of the cache hold. -/
  kv : Nat → Option (SlotContent T E)
  /-- `num_scheduled_tokens` of the step that is being planned, with the position of the first of the tokens. -/
  scheduled : List (RequestId × Nat × Nat)

inductive EngineOp (T E : Type) where
  | addRequest (r : RequestId) (tokens : List T) (extraKeys : Nat → E)
  | schedule (r : RequestId) (tokenBudget : Nat) (opts : CacheManager.AllocateOptions)
  | preempt (r : RequestId)
  | executeModel
  | appendOutputTokenIds (r : RequestId) (tokens : List T)
  | finish (r : RequestId)
  | storeCompletion (entries : List (BlockRef × Nat))

namespace CacheEngine

/-- A request whose id is in use is not added. -/
def addRequest (S : BlockHasher T E H) (cfg : CacheConfig) (r : RequestId) (tokens : List T) (extraKeys : Nat → E)
    (m : CacheManager T E H) : CacheManager T E H :=
  match m.requests.get? r with
  | some _ => m
  | none => CacheManager.setRequest r (Request.init S cfg.blockSize tokens extraKeys) m

def appendOutputTokenIds (S : BlockHasher T E H) (cfg : CacheConfig) (r : RequestId) (tokens : List T)
    (m : CacheManager T E H) : CacheManager T E H :=
  match m.requests.get? r with
  | none => m
  | some req => CacheManager.setRequest r (req.appendOutputTokenIds S cfg.blockSize tokens) m

/-- What an operation does with the manager. -/
def perform (S : BlockHasher T E H) (cfg : CacheConfig) : EngineOp T E → ManagerM T E H (Option (Nat × Nat))
  | .addRequest r tokens extraKeys => do
      Eff.modify (addRequest S cfg r tokens extraKeys)
      pure none
  | .schedule r tokenBudget opts => CacheManager.scheduleRequest cfg opts r tokenBudget
  | .preempt r => do
      CacheManager.preemptRequest r
      pure none
  | .executeModel => pure none
  | .appendOutputTokenIds r tokens => do
      Eff.modify (appendOutputTokenIds S cfg r tokens)
      pure none
  | .finish r => do
      CacheManager.finishRequest r
      pure none
  | .storeCompletion entries => do
      CacheManager.processStoreCompletion entries
      pure none

/-- The tokens of one request are written through its table. -/
def writeRequest (cfg : CacheConfig) (m : CacheManager T E H) (kv : Nat → Option (SlotContent T E))
    (e : RequestId × Nat × Nat) : Nat → Option (SlotContent T E) :=
  match m.requests.get? e.1 with
  | none => kv
  | some req => writeTokens cfg.blockSize req (m.table e.1) e.2.1 e.2.2 kv

/-- The cache once the model has run. -/
def settled (cfg : CacheConfig) (s : CacheEngine T E H) : Nat → Option (SlotContent T E) :=
  s.scheduled.foldl (writeRequest cfg s.manager) s.kv

/-- Whatever is scheduled is written when the model runs; a request that is preempted is no longer scheduled. -/
def record (cfg : CacheConfig) (s : CacheEngine T E H) (m : CacheManager T E H) (result : Option (Nat × Nat)) :
    EngineOp T E → CacheEngine T E H
  | .schedule r _ _ => ⟨m, s.kv, s.scheduled ++ (result.map (r, ·)).toList⟩
  | .preempt r => ⟨m, s.kv, s.scheduled.filter (·.1 ≠ r)⟩
  | .executeModel => ⟨m, s.settled cfg, []⟩
  | _ => ⟨m, s.kv, s.scheduled⟩

def step (S : BlockHasher T E H) (cfg : CacheConfig) (s : CacheEngine T E H) (op : EngineOp T E) : CacheEngine T E H :=
  let result := perform S cfg op s.manager
  s.record cfg result.2 result.1.toOption.join op

/-- No request outgrows the model. In a step a request is scheduled once, and only requests that are not scheduled are
preempted, as in the order of arrival. Tokens come, requests finish and pages leave tables between steps, the pages only
once all their tokens are computed. -/
def Legal (cfg : CacheConfig) (s : CacheEngine T E H) : EngineOp T E → Prop
  | .addRequest _ tokens _ => tokens.length ≤ cfg.maxModelLen
  | .schedule r _ _ => r ∉ s.scheduled.map Prod.fst
  | .preempt r => r ∉ s.scheduled.map Prod.fst
  | .executeModel => True
  | .appendOutputTokenIds r tokens => s.scheduled = [] ∧
      ∀ req ∈ s.manager.requests.get? r, req.allTokenIds.length + tokens.length ≤ cfg.maxModelLen
  | .finish _ => s.scheduled = []
  | .storeCompletion entries => s.scheduled = [] ∧
      ∀ e ∈ entries, (s.manager.table e.1.requestId)[e.1.blockIdx.toNat]? = some e.2 →
        ∀ req ∈ s.manager.requests.get? e.1.requestId, (e.1.blockIdx.toNat + 1) * cfg.blockSize ≤ req.numComputedTokens

instance (cfg : CacheConfig) (s : CacheEngine T E H) : (op : EngineOp T E) → Decidable (s.Legal cfg op)
  | .addRequest _ _ _ => inferInstanceAs (Decidable (_ ≤ _))
  | .schedule _ _ _ => inferInstanceAs (Decidable (_ ∉ _))
  | .preempt _ => inferInstanceAs (Decidable (_ ∉ _))
  | .executeModel => inferInstanceAs (Decidable True)
  | .appendOutputTokenIds _ _ => inferInstanceAs (Decidable (_ ∧ _))
  | .finish _ => inferInstanceAs (Decidable (_ = []))
  | .storeCompletion _ => inferInstanceAs (Decidable (_ ∧ _))

/-- The operation does not raise. -/
def Returns (S : BlockHasher T E H) (cfg : CacheConfig) (s : CacheEngine T E H) (op : EngineOp T E) : Prop :=
  ∃ result m, perform S cfg op s.manager = (.ok result, m)

/-- Nothing runs on a new pool whose tail is reserved. -/
def start (pool : LinkedBlockPool H) : CacheEngine T E H := ⟨⟨pool, .empty, .empty, .empty⟩, fun _ => none, []⟩

section Step

variable {S : BlockHasher T E H} {cfg : CacheConfig} {numBlocks tail : Nat} {s : CacheEngine T E H}

/-- Once the model has run, the cache holds what it should. -/
structure Inv (S : BlockHasher T E H) (cfg : CacheConfig) (numBlocks tail : Nat) (s : CacheEngine T E H) : Prop where
  content : ContentInv S cfg numBlocks tail s.manager (s.settled cfg)
  known : ∀ e ∈ s.scheduled, ∃ req, s.manager.requests.get? e.1 = some req

omit [DecidableEq H] in
/-- What will be written depends on the requests that are scheduled and on their tables. -/
theorem settled_congr {m : CacheManager T E H} (h : ∀ e ∈ s.scheduled,
      m.requests.get? e.1 = s.manager.requests.get? e.1 ∧ m.table e.1 = s.manager.table e.1) :
    (⟨m, s.kv, s.scheduled⟩ : CacheEngine T E H).settled cfg = s.settled cfg := by
  refine List.foldl_ext _ _ _ fun kv e he => ?_
  rw [writeRequest, writeRequest, (h e he).1, (h e he).2]

/-- An operation that leaves the requests that are scheduled and their tables alone. -/
theorem Inv.of_manager (h : Inv S cfg numBlocks tail s) {m : CacheManager T E H}
    (hsame : ∀ e ∈ s.scheduled, m.requests.get? e.1 = s.manager.requests.get? e.1 ∧ m.table e.1 = s.manager.table e.1)
    (hm : ContentInv S cfg numBlocks tail m (s.settled cfg)) : Inv S cfg numBlocks tail ⟨m, s.kv, s.scheduled⟩ where
  content := by
    rw [settled_congr hsame]
    exact hm
  known e he := by
    rw [(hsame e he).1]
    exact h.known e he

theorem Inv.addRequest (h : Inv S cfg numBlocks tail s) {r : RequestId} {tokens : List T} {extraKeys : Nat → E}
    (hlen : tokens.length ≤ cfg.maxModelLen) :
    Inv S cfg numBlocks tail ⟨CacheEngine.addRequest S cfg r tokens extraKeys s.manager, s.kv, s.scheduled⟩ := by
  unfold CacheEngine.addRequest
  cases hreq : s.manager.requests.get? r with
  | some _ => exact h
  | none =>
      refine h.of_manager (fun e he => ⟨?_, rfl⟩) (h.content.setRequest ?_ (fun _ => ?_) Bool.noConfusion)
      · obtain ⟨req, hget⟩ := h.known e he
        rw [get?_setRequest, if_neg]
        rintro rfl
        rw [hreq] at hget
        cases hget
      · exact ⟨Request.hashed_init cfg.blockSize_pos tokens extraKeys, Nat.zero_le _, hlen, fun _ => rfl⟩
      · refine h.content.idle r fun req hget => ?_
        rw [hreq] at hget
        cases hget

/-- Tokens come between steps. -/
theorem Inv.appendOutputTokenIds (h : Inv S cfg numBlocks tail s) {r : RequestId} {tokens : List T}
    (hidle : s.scheduled = [])
    (hlen : ∀ req ∈ s.manager.requests.get? r, req.allTokenIds.length + tokens.length ≤ cfg.maxModelLen) :
    Inv S cfg numBlocks tail ⟨CacheEngine.appendOutputTokenIds S cfg r tokens s.manager, s.kv, s.scheduled⟩ := by
  unfold CacheEngine.appendOutputTokenIds
  cases hreq : s.manager.requests.get? r with
  | none => exact h
  | some req =>
      obtain ⟨hhashed, hcomputed, hfits, hwaiting⟩ := h.content.requests r req hreq
      refine h.of_manager (fun e he => absurd he (by simp [hidle])) (h.content.setRequest ?_
        (fun hwait => h.content.of_waiting hreq hwait) fun hrunning => ?_)
      · refine ⟨hhashed.appendOutputTokenIds cfg.blockSize_pos tokens, ?_, ?_, hwaiting⟩
        · exact hcomputed.trans
            (by rw [Request.appendOutputTokenIds, Request.updateBlockHashes, List.length_append]; omega)
        · rw [Request.appendOutputTokenIds, Request.updateBlockHashes, List.length_append]
          exact hlen req hreq
      · have hrow := h.content.rows r req hreq hrunning
        refine ⟨hrow.covers, hrow.cached, hrow.own, fun t page ht hget hne => ?_⟩
        rw [Request.contentAt_append (lt_of_lt_of_le ht hcomputed)]
        exact hrow.content t page ht hget hne

theorem Inv.schedule (htail : tail ≤ numBlocks) (h : Inv S cfg numBlocks tail s) {r : RequestId}
    (hr : r ∉ s.scheduled.map Prod.fst) (tokenBudget : Nat) (opts : CacheManager.AllocateOptions) :
    Eff.wp (CacheManager.scheduleRequest cfg opts r tokenBudget)
      (fun result m => Inv S cfg numBlocks tail ⟨m, s.kv, s.scheduled ++ (result.map (r, ·)).toList⟩) (fun _ _ => False)
      s.manager := by
  refine Eff.wp_mono (h.content.scheduleRequest htail opts r tokenBudget) (fun result m hend => ?_) fun _ _ hf => hf
  rcases hend with ⟨rfl, rfl⟩ | ⟨req, hits, new, start, n, m₁, rfl, hslots, hpool, rfl⟩
  · rw [Option.map_none, Option.toList_none, List.append_nil]
    exact h
  have hother : ∀ e ∈ s.scheduled, e.1 ≠ r := fun e he heq => hr (List.mem_map.mpr ⟨e, he, heq⟩)
  have hsame : ∀ e ∈ s.scheduled,
      (CacheManager.setRequest r (req.advance (start + n)) m₁).requests.get? e.1 = s.manager.requests.get? e.1 ∧
        (CacheManager.setRequest r (req.advance (start + n)) m₁).table e.1 = s.manager.table e.1 := by
    intro e he
    refine ⟨?_, hslots.allocates.extends_.other e.1 (hother e he)⟩
    rw [get?_setRequest, if_neg (hother e he), hslots.allocates.extends_.requests]
  have hsettled :
      settled cfg ⟨CacheManager.setRequest r (req.advance (start + n)) m₁, s.kv, s.scheduled ++ [(r, start, n)]⟩ =
      writeTokens cfg.blockSize req (m₁.table r) start n (s.settled cfg) := by
    rw [← settled_congr hsame]
    show List.foldl _ _ (_ ++ _) = _
    rw [List.foldl_append, List.foldl_cons, List.foldl_nil, writeRequest, get?_setRequest, if_pos rfl]
    rfl
  refine ⟨?_, fun e he => ?_⟩
  · show ContentInv S cfg numBlocks tail (CacheManager.setRequest r (req.advance (start + n)) m₁) (settled cfg _)
    rw [Option.map_some, Option.toList_some, hsettled]
    exact hslots.contentInv h.content hpool
  · show ∃ req', (CacheManager.setRequest r (req.advance (start + n)) m₁).requests.get? e.1 = some req'
    rw [get?_setRequest]
    split_ifs with hcase
    · exact ⟨_, rfl⟩
    · rcases List.mem_append.mp he with he | he
      · rw [hslots.allocates.extends_.requests]
        exact h.known e he
      · rw [Option.map_some, Option.toList_some, List.mem_singleton] at he
        exact absurd (congrArg Prod.fst he) hcase

theorem Inv.preempt (htail : tail ≤ numBlocks) (h : Inv S cfg numBlocks tail s) {r : RequestId}
    (hr : r ∉ s.scheduled.map Prod.fst) :
    Eff.wp (CacheManager.preemptRequest r) (fun _ m => Inv S cfg numBlocks tail ⟨m, s.kv, s.scheduled⟩)
      (fun _ _ => False) s.manager := by
  refine Eff.wp_mono (h.content.preemptRequest htail r) (fun _ m hend => ?_) fun _ _ hf => hf
  refine h.of_manager (fun e he => ?_) hend.1
  have hne : e.1 ≠ r := fun heq => hr (List.mem_map.mpr ⟨e, he, heq⟩)
  exact ⟨hend.2.requests e.1 hne, hend.2.other e.1 hne⟩

theorem Inv.finish (htail : tail ≤ numBlocks) (h : Inv S cfg numBlocks tail s) (hidle : s.scheduled = [])
    (r : RequestId) :
    Eff.wp (CacheManager.finishRequest r) (fun _ m => Inv S cfg numBlocks tail ⟨m, s.kv, s.scheduled⟩)
      (fun _ _ => False) s.manager := by
  simp only [CacheManager.finishRequest, Eff.wp_bind]
  refine Eff.wp_mono (CacheManager.free_spec htail h.content.pool r) (fun _ m hend => ?_) fun _ _ hf => hf
  obtain ⟨hpool, hreleases⟩ := hend
  refine h.of_manager (fun e he => absurd he (by simp [hidle])) (h.content.released hreleases hpool (fun r' hr' => ?_)
    fun req' hreq' => ?_)
  · rw [OrderedDict.get?_erase_of_ne _ hr', hreleases.requests]
  · rw [OrderedDict.get?_erase_self] at hreq'
    cases hreq'

theorem Inv.storeCompletion (htail : tail ≤ numBlocks) (h : Inv S cfg numBlocks tail s) (hidle : s.scheduled = [])
    {entries : List (BlockRef × Nat)}
    (hlegal : ∀ e ∈ entries, (s.manager.table e.1.requestId)[e.1.blockIdx.toNat]? = some e.2 →
      ∀ req ∈ s.manager.requests.get? e.1.requestId, (e.1.blockIdx.toNat + 1) * cfg.blockSize ≤ req.numComputedTokens) :
    Eff.wp (CacheManager.processStoreCompletion entries) (fun _ m => Inv S cfg numBlocks tail ⟨m, s.kv, s.scheduled⟩)
      (fun _ _ => False) s.manager := by
  refine Eff.wp_mono (CacheManager.processStoreCompletion_spec htail h.content.pool entries)
    (fun _ m hend => ?_) fun _ _ hf => hf
  obtain ⟨hpool, hremoves, hentries, hkeys⟩ := hend
  exact h.of_manager (fun e he => absurd he (by simp [hidle])) (h.content.removed hremoves hpool hentries hkeys hlegal)

theorem step_of_ok {op : EngineOp T E} {result : Option (Nat × Nat)} {m : CacheManager T E H}
    (h : CacheEngine.perform S cfg op s.manager = (.ok result, m)) :
    CacheEngine.step S cfg s op = s.record cfg m result op := by
  unfold CacheEngine.step
  rw [h]
  rfl

/-- Every operation returns and keeps the invariant. -/
theorem Inv.perform (htail : tail ≤ numBlocks) (h : Inv S cfg numBlocks tail s) {op : EngineOp T E}
    (hop : s.Legal cfg op) :
    Eff.wp (CacheEngine.perform S cfg op) (fun result m => Inv S cfg numBlocks tail (s.record cfg m result op))
      (fun _ _ => False) s.manager := by
  cases op with
  | addRequest r tokens extraKeys => exact h.addRequest hop
  | schedule r tokenBudget opts => exact h.schedule htail hop tokenBudget opts
  | preempt r =>
      simp only [CacheEngine.perform, Eff.wp_bind]
      refine Eff.wp_mono (h.preempt htail hop) (fun _ m hend => ?_) fun _ _ hf => hf
      have hkeep : s.scheduled.filter (·.1 ≠ r) = s.scheduled := by
        refine List.filter_eq_self.mpr fun e he => decide_eq_true fun heq => hop (List.mem_map.mpr ⟨e, he, heq⟩)
      show Inv S cfg numBlocks tail ⟨m, s.kv, s.scheduled.filter (·.1 ≠ r)⟩
      rw [hkeep]
      exact hend
  | executeModel => exact ⟨h.content, by simp [record]⟩
  | appendOutputTokenIds r tokens => exact h.appendOutputTokenIds hop.1 hop.2
  | finish r =>
      simp only [CacheEngine.perform, Eff.wp_bind]
      exact h.finish htail hop r
  | storeCompletion entries =>
      simp only [CacheEngine.perform, Eff.wp_bind]
      exact h.storeCompletion htail hop.1 hop.2

theorem Inv.step (htail : tail ≤ numBlocks) (h : Inv S cfg numBlocks tail s) {op : EngineOp T E}
    (hop : s.Legal cfg op) : Inv S cfg numBlocks tail (CacheEngine.step S cfg s op) ∧ s.Returns S cfg op := by
  obtain ⟨result, m, hrun, hinv⟩ := Eff.exists_of_wp (h.perform htail hop)
  refine ⟨?_, result, m, hrun⟩
  rw [step_of_ok hrun]
  exact hinv

theorem Inv.run (htail : tail ≤ numBlocks) (h : Inv S cfg numBlocks tail s) {ops : List (EngineOp T E)}
    (hops : Along (CacheEngine.step S cfg) (Legal cfg) s ops) :
    Inv S cfg numBlocks tail (Base.run (CacheEngine.step S cfg) s ops) ∧
      Along (CacheEngine.step S cfg) (Returns S cfg) s ops := by
  induction ops generalizing s with
  | nil => exact ⟨h, True.intro⟩
  | cons op rest ih =>
      obtain ⟨hinv, hreturns⟩ := h.step htail hops.1
      obtain ⟨hend, halong⟩ := ih hinv hops.2
      exact ⟨hend, hreturns, halong⟩

theorem inv_start {numSlots : Nat} (hpos : 0 < numSlots) (hlt : numSlots < numBlocks) (S : BlockHasher T E H)
    (cfg : CacheConfig) :
    ∃ pool : LinkedBlockPool H, LinkedBlockPool.reserved numBlocks true cfg.blockSize numSlots = .ok pool ∧
      Inv S cfg numBlocks (numBlocks - numSlots) (start pool : CacheEngine T E H) := by
  obtain ⟨pool, hreserved, hsim, hkeys⟩ := exists_reserved (H := H) hpos hlt true cfg.blockSize
  obtain ⟨hcaching, hsize⟩ := LinkedBlockPool.settings_of_reserved hreserved
  have hcounts : BlockManager.Balanced numBlocks (numBlocks - numSlots) ⟨_, .empty⟩ :=
    hsim.counted.congr fun b _ => (Multiset.count_zero b).symm
  refine ⟨pool, hreserved, ⟨⟨⟨_, .empty⟩, hsim.refines, rfl, hcounts, hcaching, hsize⟩, ?_, ?_, ?_, ?_⟩,
    by simp [start]⟩
  · intro r req hreq
    cases hreq
  · intro r _
    exact ⟨rfl, rfl⟩
  · intro r req hreq
    cases hreq
  · intro b key hkey
    exact absurd hkey (hkeys b key)

end Step

end CacheEngine

/-- What a page in the table of a request holds: the request's own tokens, as far as they are computed, in a page that
is not reserved; only the null block in place of a page that was taken out says nothing. -/
theorem requestPages_content (numBlocks numSlots : Nat) (hpos : 0 < numSlots) (hlt : numSlots < numBlocks)
    (S : BlockHasher T E H) (cfg : CacheConfig) :
    ∃ pool : LinkedBlockPool H, LinkedBlockPool.reserved numBlocks true cfg.blockSize numSlots = .ok pool ∧
      ∀ ops : List (EngineOp T E), Along (CacheEngine.step S cfg) (CacheEngine.Legal cfg) (.start pool) ops →
        let s := run (CacheEngine.step S cfg) (.start pool) ops
        ∀ r req t, s.manager.requests.get? r = some req → t < req.numComputedTokens →
          ∃ page, (s.manager.table r)[t / cfg.blockSize]? = some page ∧
            (page ≠ BlockPool.nullBlock → page < numBlocks - numSlots ∧
              s.settled cfg (page * cfg.blockSize + t % cfg.blockSize) = some (req.contentAt cfg.blockSize t)) := by
  obtain ⟨pool, hreserved, hstart⟩ := CacheEngine.inv_start hpos hlt S cfg
  refine ⟨pool, hreserved, fun ops hops => ?_⟩
  obtain ⟨⟨hinv, -⟩, -⟩ := hstart.run (Nat.sub_le _ _) hops
  intro s r req t hreq ht
  have hrunning : req.running = true := by
    by_contra hwaiting
    rw [(hinv.requests r req hreq).waiting (Bool.eq_false_of_not_eq_true hwaiting)] at ht
    exact absurd ht (Nat.not_lt_zero t)
  have hrow := hinv.rows r req hreq hrunning
  have hindex : t / cfg.blockSize < (s.manager.table r).length :=
    (Nat.div_lt_iff_lt_mul cfg.blockSize_pos).mpr (ht.trans_le hrow.covers)
  refine ⟨_, List.getElem?_eq_getElem hindex, fun hne => ⟨?_, ?_⟩⟩
  · obtain ⟨bm, hbm⟩ := hinv.pool
    refine hbm.balanced.owned _ hne ?_
    rw [← hbm.tables]
    exact Nat.ne_of_gt (CacheManager.tableEntries_pos_of_mem (List.getElem_mem hindex))
  · exact hrow.content t _ ht (List.getElem?_eq_getElem hindex) hne

/-- Two tokens a page. -/
def smallCacheConfig : CacheConfig := ⟨2, Nat.two_pos, 8⟩

/-- Hashes that are the blocks themselves. -/
def smallHasher : BlockHasher Nat Unit (List (List Nat × Unit)) := HashChain.free _

/-- The second request shares the first two pages of the first. Then the first of them is taken from the first request,
which is preempted, while the second request goes on. -/
def cacheScenario : List (EngineOp Nat Unit) :=
  [.addRequest requestA [1, 2, 3, 4, 5] fun _ => (), .schedule requestA 9 noReserve, .executeModel,
    .addRequest requestB [1, 2, 3, 4, 6] fun _ => (), .schedule requestB 9 noReserve, .executeModel,
    .storeCompletion [(⟨requestA, 0⟩, 1)], .appendOutputTokenIds requestB [7], .schedule requestB 9 noReserve,
    .preempt requestA, .executeModel]

/-- The state the scenarios start from; the error branch is never taken. -/
def cacheStart : CacheEngine Nat Unit (List (List Nat × Unit)) :=
  match LinkedBlockPool.reserved 8 true 2 2 with
  | .ok pool => .start pool
  | .error _ => .start ⟨0, false, 0, .init [], fun _ => 0, fun _ => none, fun _ => none, fun _ => false, .empty, .empty⟩

theorem cacheStart_eq {pool : LinkedBlockPool (List (List Nat × Unit))}
    (h : LinkedBlockPool.reserved 8 true 2 2 = .ok pool) : cacheStart = .start pool := by
  rw [cacheStart, h]

/-- The page that the first request lost still holds the first two tokens of the second. -/
theorem requestPages_content_scenario :
    ∃ pool : LinkedBlockPool (List (List Nat × Unit)), LinkedBlockPool.reserved 8 true 2 2 = .ok pool ∧
      (run (CacheEngine.step smallHasher smallCacheConfig) (.start pool) cacheScenario).settled smallCacheConfig 3 =
        some ⟨[1, 2], [()]⟩ := by
  obtain ⟨pool, hreserved, hcontent⟩ := requestPages_content 8 2 (by decide) (by decide) smallHasher
    smallCacheConfig
  have hlegal : Along (CacheEngine.step smallHasher smallCacheConfig) (CacheEngine.Legal smallCacheConfig) cacheStart
    cacheScenario := by decide +kernel
  have htable : ((run (CacheEngine.step smallHasher smallCacheConfig) cacheStart cacheScenario).manager.table
    requestB)[0]? = some 1 := by decide +kernel
  have hsome : ((run (CacheEngine.step smallHasher smallCacheConfig) cacheStart cacheScenario).manager.requests.get?
      requestB).any (fun req =>
      1 < req.numComputedTokens && (req.contentAt 2 1).tokens == [1, 2] && (req.contentAt 2 1).extraKeys == [()]) =
        true := by
    decide +kernel
  rw [cacheStart_eq hreserved] at hlegal htable hsome
  refine ⟨pool, hreserved, ?_⟩
  obtain ⟨req, hreq, hfacts⟩ := (Option.any_eq_true _ _).mp hsome
  simp only [Bool.and_eq_true, decide_eq_true_eq, beq_iff_eq] at hfacts
  obtain ⟨⟨hcomputed, htokens⟩, hextra⟩ := hfacts
  obtain ⟨page, hpage, hholds⟩ := hcontent cacheScenario hlegal requestB req 1 hreq hcomputed
  have hindex : 1 / smallCacheConfig.blockSize = 0 := rfl
  rw [hindex, htable] at hpage
  obtain rfl : 1 = page := Option.some.inj hpage
  obtain ⟨-, hkv⟩ := hholds Nat.one_ne_zero
  have hslot : 1 * smallCacheConfig.blockSize + 1 % smallCacheConfig.blockSize = 3 := rfl
  have hown : req.contentAt smallCacheConfig.blockSize 1 = ⟨[1, 2], [()]⟩ := by
    rw [← htokens, ← hextra]
    rfl
  rw [hslot, hown] at hkv
  exact hkv

/-- What the prefix cache finds for a request holds the request's own tokens, in pages that are neither the null block
nor reserved, and leaves at least one token to compute. -/
theorem prefixHits_content (numBlocks numSlots : Nat) (hpos : 0 < numSlots) (hlt : numSlots < numBlocks)
    (S : BlockHasher T E H) (cfg : CacheConfig) :
    ∃ pool : LinkedBlockPool H, LinkedBlockPool.reserved numBlocks true cfg.blockSize numSlots = .ok pool ∧
      ∀ ops : List (EngineOp T E), Along (CacheEngine.step S cfg) (CacheEngine.Legal cfg) (.start pool) ops →
        let s := run (CacheEngine.step S cfg) (.start pool) ops
        ∀ r req, s.manager.requests.get? r = some req →
          ∃ hits, s.manager.getComputedBlocks cfg req = .ok hits ∧
            hits.length * cfg.blockSize ≤ req.allTokenIds.length - 1 ∧
            ∀ i page offset, hits[i]? = some page → offset < cfg.blockSize →
              page ≠ BlockPool.nullBlock ∧ page < numBlocks - numSlots ∧
                s.settled cfg (page * cfg.blockSize + offset) =
                  some (req.contentAt cfg.blockSize (i * cfg.blockSize + offset)) := by
  obtain ⟨pool, hreserved, hstart⟩ := CacheEngine.inv_start hpos hlt S cfg
  refine ⟨pool, hreserved, fun ops hops => ?_⟩
  obtain ⟨⟨hinv, -⟩, -⟩ := hstart.run (Nat.sub_le _ _) hops
  intro s r req hreq
  obtain ⟨hits, hget, hlen, hkeys⟩ := CacheManager.getComputedBlocks_spec hinv.pool req
  refine ⟨hits, hget, (Nat.le_div_iff_mul_le cfg.blockSize_pos).mp hlen, fun i page offset hpage hoffset => ?_⟩
  obtain ⟨blockHash, hhash, hkey⟩ := hkeys i page hpage
  obtain ⟨hne, hbound⟩ := hinv.pool.bounds_of_hasKey hkey
  exact ⟨hne, hbound, hinv.hit hreq hhash hkey hoffset⟩

/-- The second request finds both pages that it shares with the first. -/
theorem prefixHits_content_scenario :
    ∃ pool : LinkedBlockPool (List (List Nat × Unit)), LinkedBlockPool.reserved 8 true 2 2 = .ok pool ∧
      (run (CacheEngine.step smallHasher smallCacheConfig) (.start pool) (cacheScenario.take 4)).settled
        smallCacheConfig 5 = some ⟨[1, 2, 3, 4], [(), ()]⟩ := by
  obtain ⟨pool, hreserved, hcontent⟩ := prefixHits_content 8 2 (by decide) (by decide) smallHasher
    smallCacheConfig
  have hlegal : Along (CacheEngine.step smallHasher smallCacheConfig) (CacheEngine.Legal smallCacheConfig) cacheStart
    (cacheScenario.take 4) := by decide +kernel
  have hsome :
      ((run (CacheEngine.step smallHasher smallCacheConfig) cacheStart (cacheScenario.take 4)).manager.requests.get?
        requestB).any (fun req =>
      ((run (CacheEngine.step smallHasher smallCacheConfig) cacheStart (cacheScenario.take 4)).manager.getComputedBlocks
        smallCacheConfig req).toOption == some [1, 2] &&
        (req.contentAt 2 3).tokens == [1, 2, 3, 4] && (req.contentAt 2 3).extraKeys == [(), ()]) = true := by
    decide +kernel
  rw [cacheStart_eq hreserved] at hlegal hsome
  refine ⟨pool, hreserved, ?_⟩
  obtain ⟨req, hreq, hfacts⟩ := (Option.any_eq_true _ _).mp hsome
  simp only [Bool.and_eq_true, beq_iff_eq] at hfacts
  obtain ⟨⟨hlookup, htokens⟩, hextra⟩ := hfacts
  obtain ⟨hits, hget, -, hholds⟩ := hcontent (cacheScenario.take 4) hlegal requestB req hreq
  rw [hget] at hlookup
  obtain rfl : hits = [1, 2] := Option.some.inj hlookup
  obtain ⟨-, -, hkv⟩ := hholds 1 2 1 rfl (by decide)
  have hslot : 2 * smallCacheConfig.blockSize + 1 = 5 := rfl
  have hown :
      req.contentAt smallCacheConfig.blockSize (1 * smallCacheConfig.blockSize + 1) = ⟨[1, 2, 3, 4], [(), ()]⟩ := by
    rw [← htokens, ← hextra]
    rfl
  rwa [hslot, hown] at hkv

/-- No operation of a run raises: no assertion of the queue, the pool or the manager fails, and the pool never runs
short of pages that were counted as free. -/
theorem cacheManager_returns (numBlocks numSlots : Nat) (hpos : 0 < numSlots) (hlt : numSlots < numBlocks)
    (S : BlockHasher T E H) (cfg : CacheConfig) :
    ∃ pool : LinkedBlockPool H, LinkedBlockPool.reserved numBlocks true cfg.blockSize numSlots = .ok pool ∧
      ∀ ops : List (EngineOp T E), Along (CacheEngine.step S cfg) (CacheEngine.Legal cfg) (.start pool) ops →
        Along (CacheEngine.step S cfg) (CacheEngine.Returns S cfg) (.start pool) ops := by
  obtain ⟨pool, hreserved, hstart⟩ := CacheEngine.inv_start hpos hlt S cfg
  exact ⟨pool, hreserved, fun ops hops => (hstart.run (Nat.sub_le _ _) hops).2⟩

theorem cacheManager_returns_scenario :
    ∃ pool : LinkedBlockPool (List (List Nat × Unit)), LinkedBlockPool.reserved 8 true 2 2 = .ok pool ∧
      Along (CacheEngine.step smallHasher smallCacheConfig) (CacheEngine.Returns smallHasher smallCacheConfig)
        (.start pool) cacheScenario := by
  obtain ⟨pool, hreserved, hreturns⟩ := cacheManager_returns 8 2 (by decide) (by decide) smallHasher
    smallCacheConfig
  have hlegal : Along (CacheEngine.step smallHasher smallCacheConfig) (CacheEngine.Legal smallCacheConfig) cacheStart
    cacheScenario := by decide +kernel
  rw [cacheStart_eq hreserved] at hlegal
  exact ⟨pool, hreserved, hreturns cacheScenario hlegal⟩

section Unwritten

variable {S : BlockHasher T E H} {cfg : CacheConfig} {numBlocks tail : Nat} {m m' : CacheManager T E H}
  {kv : Nat → Option (SlotContent T E)} {r : RequestId} {req : Request T E H} {hits new : List Nat} {start n : Nat}

/-- The one page by which a lookup can end. -/
theorem LinkedBlockPool.getCachedBlock_of_unique {pool : LinkedBlockPool H} (h : pool.Indexed) {blockHash : H}
    {page : Nat} (hpage : pool.HasKey page (makeBlockHashWithGroupId blockHash 0))
    (hunique : ∀ b, pool.HasKey b (makeBlockHashWithGroupId blockHash 0) → b = page) :
    pool.getCachedBlock blockHash 0 = .ok (some page) := by
  refine (BlockHashToBlockMap.getOneBlock_eq h.full _).trans (congrArg Except.ok ?_)
  cases hblocks : pool.cachedBlockHashToBlock.blocksAt (makeBlockHashWithGroupId blockHash 0) with
  | nil =>
      have hmem := (h.index _ _).mpr hpage
      rw [hblocks] at hmem
      cases hmem
  | cons b rest =>
      have hmem : b ∈ pool.cachedBlockHashToBlock.blocksAt (makeBlockHashWithGroupId blockHash 0) := by
        rw [hblocks]
        exact List.mem_cons_self
      rw [List.head?_cons, hunique b ((h.index _ _).mp hmem)]

/-- A step that fills a page lets the page be found at once, before it is written. -/
theorem Slots.hasKey_iff (h : Slots cfg r req hits new start n m m') (hinv : ContentInv S cfg numBlocks tail m kv)
    {j page : Nat} (hj : start / cfg.blockSize ≤ j) (hfills : j < (start + n) / cfg.blockSize)
    (hget : (m'.table r)[j]? = some page) {blockHash : H} (hhash : req.blockHashes[j]? = some blockHash)
    (hfresh : ∀ b, ¬m.HasKey b (makeBlockHashWithGroupId blockHash 0)) (b : Nat) :
    m'.HasKey b (makeBlockHashWithGroupId blockHash 0) ↔ b = page := by
  have hstart : req.numComputedTokens / cfg.blockSize + hits.length = start / cfg.blockSize := by
    rw [h.start_, Nat.add_mul_div_right _ _ cfg.blockSize_pos]
  refine ⟨fun hkey => ?_, ?_⟩
  · rcases h.allocates.keys b _ hkey with ⟨hold, -⟩ | ⟨i, blockHash', hlt, -, hget', hhash', hsame⟩
    · exact absurd hold (hfresh b)
    · -- the hashes of a request's blocks are all different
      have hhashed := (hinv.requests r req h.request).hashed
      have hfull : ∀ i, i < (start + n) / cfg.blockSize → i < req.allTokenIds.length / cfg.blockSize := fun i hi =>
        hi.trans_le (Nat.div_le_div_right h.fits)
      rw [hhashed.getElem? (hfull _ hfills)] at hhash
      rw [hhashed.getElem? (hfull _ hlt)] at hhash'
      have hchain : S.chain (req.fullBlocks cfg.blockSize (j + 1)) = S.chain (req.fullBlocks cfg.blockSize (i + 1)) :=
        (Option.some.inj hhash).trans ((congrArg Prod.fst hsame).trans (Option.some.inj hhash').symm)
      rw [← (Request.contentAt_eq_of_chain hchain).1, hget] at hget'
      exact (Option.some.inj hget').symm
  · rintro rfl
    exact h.allocates.made _ _ _ (hstart.le.trans hj) hfills hget hhash

/-- No request holds the page, and it is the one page that goes by the hash. -/
structure CacheManager.Orphaned (m : CacheManager T E H) (page : Nat) (blockHash : H) : Prop where
  unheld : ∀ r, page ∉ m.table r
  found : ∀ b, m.HasKey b (makeBlockHashWithGroupId blockHash 0) ↔ b = page

omit [DecidableEq H] in
/-- A page that only the preempted request held is nobody's. -/
theorem CacheManager.Preempts.orphaned (h : CacheManager.Preempts r m m') {page : Nat} {blockHash : H}
    (hheld : page ∈ m.table r) (hone : tableEntries m.reqToBlocks page = 1)
    (hfound : ∀ b, m.HasKey b (makeBlockHashWithGroupId blockHash 0) ↔ b = page) : m'.Orphaned page blockHash := by
  refine ⟨fun r' hmem => ?_, fun b => (h.keys b _).trans (hfound b)⟩
  have hentries := h.entries page
  have hcount := List.count_pos_iff.mpr hheld
  have hpos := CacheManager.tableEntries_pos_of_mem hmem
  omega

omit [DecidableEq H] in
/-- A page that is not taken stays where it is, and no block of the request goes by its hash. -/
theorem Slots.orphaned (h : Slots cfg r req hits new start n m m') {page : Nat} {blockHash : H}
    (horphaned : m.Orphaned page blockHash) (hforeign : blockHash ∉ req.blockHashes) (hspared : page ∉ m'.table r) :
    m'.Orphaned page blockHash := by
  refine ⟨fun r' hmem => ?_, fun b => ⟨fun hkey => ?_, ?_⟩⟩
  · by_cases hr' : r' = r
    · rw [hr'] at hmem
      exact hspared hmem
    · rw [h.allocates.extends_.other r' hr'] at hmem
      exact horphaned.unheld r' hmem
  · rcases h.allocates.keys b _ hkey with ⟨hold, -⟩ | ⟨i, blockHash', -, -, -, hhash, hsame⟩
    · exact (horphaned.found b).mp hold
    · obtain rfl : blockHash = blockHash' := congrArg Prod.fst hsame
      exact absurd (List.mem_of_getElem? hhash) hforeign
  · rintro rfl
    exact h.allocates.kept b hspared _ ((horphaned.found b).mpr rfl)

/-- A request that gets no pages changes nothing. -/
theorem ContentInv.scheduleRequest_of_none (hinv : ContentInv S cfg numBlocks tail m kv) (htail : tail ≤ numBlocks)
    {opts : CacheManager.AllocateOptions} {tokenBudget : Nat}
    (hnone : (CacheManager.scheduleRequest cfg opts r tokenBudget m).1 = .ok none) :
    CacheManager.scheduleRequest cfg opts r tokenBudget m = (.ok none, m) := by
  obtain ⟨result, m', hrun, hend⟩ := Eff.exists_of_wp (hinv.scheduleRequest htail opts r tokenBudget)
  rw [hrun] at hnone
  obtain rfl : result = none := Except.ok.inj hnone
  rcases hend with ⟨-, rfl⟩ | ⟨_, _, _, _, _, _, hsome, -⟩
  · exact hrun
  · cases hsome

omit [DecidableEq H] in
/-- A page that stands in the table of no request that is scheduled is not written. -/
theorem CacheEngine.settled_of_notMem {s : CacheEngine T E H} {page offset : Nat} (hoffset : offset < cfg.blockSize)
    (hpage : ∀ e ∈ s.scheduled, page ∉ s.manager.table e.1) :
    s.settled cfg (page * cfg.blockSize + offset) = s.kv (page * cfg.blockSize + offset) := by
  have hfold : ∀ (es : List (RequestId × Nat × Nat)) (kv : Nat → Option (SlotContent T E)),
      (∀ e ∈ es, page ∉ s.manager.table e.1) →
        es.foldl (CacheEngine.writeRequest cfg s.manager) kv (page * cfg.blockSize + offset) =
          kv (page * cfg.blockSize + offset) := by
    intro es
    induction es with
    | nil => exact fun _ _ => rfl
    | cons e rest ih =>
        intro kv hes
        rw [List.foldl_cons, ih _ fun e' he' => hes e' (List.mem_cons_of_mem e he'), CacheEngine.writeRequest]
        cases hreq : s.manager.requests.get? e.1 with
        | none => rfl
        | some req =>
            exact writeTokens_of_page hoffset fun j _ hget =>
              hes e List.mem_cons_self (List.mem_of_getElem? hget)
  exact hfold s.scheduled s.kv hpage

/-- A page that is nobody's is found by its hash and keeps its content when the model runs. -/
theorem CacheEngine.executeModel_of_orphaned {s : CacheEngine T E H} {page : Nat} {blockHash : H}
    (horphaned : s.manager.Orphaned page blockHash) (hindexed : s.manager.blockPool.Indexed) :
    (CacheEngine.step S cfg s .executeModel).manager.blockPool.getCachedBlock blockHash 0 = .ok (some page) ∧
      ∀ offset < cfg.blockSize, (CacheEngine.step S cfg s .executeModel).kv (page * cfg.blockSize + offset) =
        s.kv (page * cfg.blockSize + offset) := by
  constructor
  · exact LinkedBlockPool.getCachedBlock_of_unique hindexed ((horphaned.found page).mpr rfl)
      fun b => (horphaned.found b).mp
  · intro offset hoffset
    exact CacheEngine.settled_of_notMem hoffset fun e _ => horphaned.unheld e.1

/-- In one step `r` is scheduled, `r'` does not get its pages, `r` is preempted for it and `r'` tries again, as in the
order of priorities. -/
def preemptingStep (r r' : RequestId) (tokenBudget tokenBudget' : Nat) (opts opts' : CacheManager.AllocateOptions) :
    List (EngineOp T E) :=
  [.schedule r tokenBudget opts, .schedule r' tokenBudget' opts', .preempt r, .schedule r' tokenBudget' opts']

/-- What is left of such a step: the requests that were scheduled before, and `r'` if it got its pages. -/
theorem CacheEngine.run_preemptingStep {s : CacheEngine T E H} {r' : RequestId} {tokenBudget tokenBudget' : Nat}
    {opts opts' : CacheManager.AllocateOptions} {m₁ m₂ m₃ : CacheManager T E H} {result : Option (Nat × Nat)}
    (hr : r ∉ s.scheduled.map Prod.fst)
    (hfirst : CacheManager.scheduleRequest cfg opts r tokenBudget s.manager = (.ok (some (start, n)), m₁))
    (hfails : CacheManager.scheduleRequest cfg opts' r' tokenBudget' m₁ = (.ok none, m₁))
    (hpreempt : CacheManager.preemptRequest r m₁ = (.ok (), m₂))
    (hretry : CacheManager.scheduleRequest cfg opts' r' tokenBudget' m₂ = (.ok result, m₃)) :
    run (CacheEngine.step S cfg) s (preemptingStep r r' tokenBudget tokenBudget' opts opts') =
      ⟨m₃, s.kv, s.scheduled ++ (result.map (r', ·)).toList⟩ := by
  have hperform₁ : CacheEngine.perform S cfg (.schedule r tokenBudget opts) s.manager = (.ok (some (start, n)), m₁) :=
    hfirst
  have hperform₂ : CacheEngine.perform S cfg (.schedule r' tokenBudget' opts') m₁ = (.ok none, m₁) := hfails
  have hperform₃ : CacheEngine.perform S cfg (.preempt r) m₁ = (.ok none, m₂) := by
    have hwp : Eff.wp (CacheEngine.perform S cfg (.preempt r)) (fun result m => result = none ∧ m = m₂)
        (fun _ _ => False) m₁ := by
      simp only [CacheEngine.perform, Eff.wp_bind]
      exact Eff.wp_of_ok hpreempt ⟨rfl, rfl⟩
    obtain ⟨_, _, hperform, rfl, rfl⟩ := Eff.exists_of_wp hwp
    exact hperform
  have hperform₄ : CacheEngine.perform S cfg (.schedule r' tokenBudget' opts') m₂ = (.ok result, m₃) := hretry
  have hother : ∀ e ∈ s.scheduled, e.1 ≠ r := fun e he heq => hr (List.mem_map.mpr ⟨e, he, heq⟩)
  have hkept : (s.scheduled ++ [(r, start, n)] ++ []).filter (·.1 ≠ r) = s.scheduled := by
    rw [List.append_nil, List.filter_append, List.filter_eq_self.mpr fun e he => decide_eq_true (hother e he)]
    simp
  have hstep₁ : CacheEngine.step S cfg s (.schedule r tokenBudget opts) =
      ⟨m₁, s.kv, s.scheduled ++ [(r, start, n)]⟩ := CacheEngine.step_of_ok hperform₁
  have hstep₂ : CacheEngine.step S cfg ⟨m₁, s.kv, s.scheduled ++ [(r, start, n)]⟩
      (.schedule r' tokenBudget' opts') = ⟨m₁, s.kv, s.scheduled ++ [(r, start, n)] ++ []⟩ := by
    refine (CacheEngine.step_of_ok hperform₂).trans ?_
    rfl
  have hstep₃ : CacheEngine.step S cfg ⟨m₁, s.kv, s.scheduled ++ [(r, start, n)] ++ []⟩ (.preempt r) =
      ⟨m₂, s.kv, s.scheduled⟩ := by
    refine (CacheEngine.step_of_ok hperform₃).trans ?_
    rw [CacheEngine.record, hkept]
  rw [preemptingStep, run_cons, hstep₁, run_cons, hstep₂, run_cons, hstep₃, run_cons]
  show CacheEngine.step S cfg ⟨m₂, s.kv, s.scheduled⟩ (.schedule r' tokenBudget' opts') = _
  refine (CacheEngine.step_of_ok hperform₄).trans ?_
  rfl

end Unwritten

/-- Both requests run. The first is given the last pages for all its other tokens, so the second has none for its next
token. -/
def crowdedScenario : List (EngineOp Nat Unit) :=
  [.addRequest requestB [5, 6, 7, 8, 9, 10, 11, 12] fun _ => (), .addRequest requestA [1, 2] fun _ => (),
    .schedule requestB 1 noReserve, .schedule requestA 2 noReserve, .executeModel, .appendOutputTokenIds requestA [3]]

end KVOffload

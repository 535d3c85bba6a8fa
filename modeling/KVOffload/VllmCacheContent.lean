import KVOffload.BaseScatter
import KVOffload.VllmCacheSteps

/-! What the pages hold. Next to the manager runs a record of what every slot of every page was last written with:
the keys and values of a token, which depend on all tokens before it. Pages are shared through the prefix
cache, evicted, given away and taken out of tables; through all of this the pages in the table of a request hold
the request's own prefix, and so does every page that the prefix cache finds for a request. -/

namespace KVOffload
open Base

variable {T E H : Type} [DecidableEq H]

/-- The keys and values of a token: all tokens up to it, and the extra keys of their blocks. -/
structure SlotContent (T E : Type) where
  tokens : List T
  extraKeys : List E
deriving DecidableEq

def Request.contentAt (req : Request T E H) (blockSize t : Nat) : SlotContent T E :=
  ⟨req.allTokenIds.take (t + 1), (List.range (t / blockSize + 1)).map req.extraKeys⟩

/-- The slot of a token in the cache, through the table of its request. -/
def slotMapping (blockSize : Nat) (table : List Nat) (t : Nat) : Option Nat :=
  table[t / blockSize]?.map fun page => page * blockSize + t % blockSize

/-- One step of the model writes the tokens `start`, …, `start + n - 1` of a request. -/
def writeTokens (blockSize : Nat) (req : Request T E H) (table : List Nat) (start n : Nat)
    (kv : Nat → Option (SlotContent T E)) : Nat → Option (SlotContent T E) :=
  indexCopy kv ((List.range' start n).filterMap fun t =>
    (slotMapping blockSize table t).map fun slot => (slot, some (req.contentAt blockSize t)))

section Content

variable {S : BlockHasher T E H} {blockSize start n : Nat} {req author : Request T E H} {table : List Nat}
  {kv : Nat → Option (SlotContent T E)}

omit [DecidableEq H] in
/-- The hash of a full block stands for all blocks up to it. -/
theorem Request.Hashed.getElem? (h : req.Hashed S blockSize) {i : Nat} (hi : i < req.allTokenIds.length / blockSize) :
    req.blockHashes[i]? = some (S.chain (req.fullBlocks blockSize (i + 1))) := by
  have hlen : i < (req.fullBlocks blockSize (req.allTokenIds.length / blockSize)).length := by
    rwa [fullBlocks, List.length_map, List.length_range]
  rw [h]
  refine (HashChain.getElem?_linkAll S [] _ hlen).trans ?_
  rw [List.nil_append, fullBlocks, ← List.map_take, List.take_range, Nat.min_eq_left hi, ← fullBlocks]

omit [DecidableEq H] in
theorem Request.Hashed.length (h : req.Hashed S blockSize) :
    req.blockHashes.length = req.allTokenIds.length / blockSize := by
  rw [h, HashChain.length_linkAll, fullBlocks, List.length_map, List.length_range]

omit [DecidableEq H] in
/-- Requests with the same full blocks have the same tokens in them. -/
theorem Request.take_eq_of_fullBlocks (h : req.fullBlocks blockSize n = author.fullBlocks blockSize n) :
    req.allTokenIds.take (n * blockSize) = author.allTokenIds.take (n * blockSize) := by
  have hblock : ∀ i ∈ List.range n, req.fullBlock blockSize i = author.fullBlock blockSize i := List.map_inj_left.mp h
  clear h
  induction n with
  | zero => rw [Nat.zero_mul, List.take_zero, List.take_zero]
  | succ n ih =>
      have hlast := congrArg Prod.fst (hblock n List.self_mem_range_succ)
      have hinit := ih fun i hi => hblock i (List.mem_range.mpr (Nat.lt_succ_of_lt (List.mem_range.mp hi)))
      rw [Nat.succ_mul, List.take_add, List.take_add, hinit]
      exact congrArg _ hlast

omit [DecidableEq H] in
/-- Equal hashes, equal contents. -/
theorem Request.contentAt_eq_of_chain {i : Nat}
    (h : S.chain (req.fullBlocks blockSize (i + 1)) = S.chain (author.fullBlocks blockSize (n + 1))) :
    i = n ∧ ∀ slot < blockSize,
      req.contentAt blockSize (i * blockSize + slot) = author.contentAt blockSize (n * blockSize + slot) := by
  have hblocks := S.chain_injective h
  have hlen : i = n := by simpa [fullBlocks] using congrArg List.length hblocks
  subst hlen
  refine ⟨rfl, fun slot hslot => ?_⟩
  have hdiv : (i * blockSize + slot) / blockSize = i := by
    rw [Nat.add_comm, Nat.add_mul_div_right _ _ (Nat.zero_lt_of_lt hslot), Nat.div_eq_of_lt hslot, Nat.zero_add]
  have hle : i * blockSize + slot + 1 ≤ (i + 1) * blockSize := by
    rw [Nat.succ_mul]
    omega
  have htokens := congrArg (List.take (i * blockSize + slot + 1)) (Request.take_eq_of_fullBlocks hblocks)
  rw [List.take_take, List.take_take, Nat.min_eq_left hle] at htokens
  have hextra : ∀ j ∈ List.range (i + 1), req.extraKeys j = author.extraKeys j := fun j hj =>
    congrArg Prod.snd (List.map_inj_left.mp hblocks j hj)
  rw [contentAt, contentAt, hdiv, htokens, List.map_inj_left.mpr hextra]

omit [DecidableEq H] in
/-- More tokens change nothing about the tokens that were there. -/
theorem Request.contentAt_append {tokens : List T} {t : Nat} (ht : t < req.allTokenIds.length) :
    (req.appendOutputTokenIds S blockSize tokens).contentAt blockSize t = req.contentAt blockSize t := by
  show SlotContent.mk ((req.allTokenIds ++ tokens).take (t + 1)) _ = _
  rw [List.take_append_of_le_length ht]
  rfl

omit [DecidableEq H] in
theorem mem_tokenWrites {slot : Nat} {v : Option (SlotContent T E)} :
    (slot, v) ∈ (List.range' start n).filterMap (fun t =>
        (slotMapping blockSize table t).map fun slot => (slot, some (req.contentAt blockSize t))) ↔
      ∃ t page, start ≤ t ∧ t < start + n ∧ table[t / blockSize]? = some page ∧
        page * blockSize + t % blockSize = slot ∧ some (req.contentAt blockSize t) = v := by
  simp only [List.mem_filterMap, List.mem_range'_1, slotMapping, Option.map_map, Option.map_eq_some_iff,
    Function.comp_apply, Prod.mk.injEq]
  constructor
  · rintro ⟨t, ⟨hstart, hstop⟩, page, hpage, hslot, hv⟩
    exact ⟨t, page, hstart, hstop, hpage, hslot, hv⟩
  · rintro ⟨t, page, hstart, hstop, hpage, hslot, hv⟩
    exact ⟨t, ⟨hstart, hstop⟩, page, hpage, hslot, hv⟩

/-- Slots of different pages or offsets differ. -/
theorem slot_inj {page page' offset offset' : Nat} (h : page * blockSize + offset = page' * blockSize + offset')
    (hlt : offset < blockSize) (hlt' : offset' < blockSize) : page = page' ∧ offset = offset' := by
  have hpos : 0 < blockSize := Nat.zero_lt_of_lt hlt
  have hpage := congrArg (· / blockSize) h
  have hoffset := congrArg (· % blockSize) h
  simp only [Nat.mul_comm _ blockSize, Nat.mul_add_div hpos, Nat.mul_add_mod, Nat.div_eq_of_lt hlt,
    Nat.div_eq_of_lt hlt', Nat.mod_eq_of_lt hlt, Nat.mod_eq_of_lt hlt', Nat.add_zero] at hpage hoffset
  exact ⟨hpage, hoffset⟩

omit [DecidableEq H] in
theorem writeTokens_of_ne {page offset : Nat} (hoffset : offset < blockSize)
    (h : ∀ t, start ≤ t → t < start + n → table[t / blockSize]? = some page → t % blockSize ≠ offset) :
    writeTokens blockSize req table start n kv (page * blockSize + offset) = kv (page * blockSize + offset) := by
  apply indexCopy_of_not_mem
  intro hmem
  obtain ⟨⟨slot, v⟩, hw, hslot⟩ := List.mem_map.mp hmem
  obtain ⟨t, page', hstart, hstop, hpage, heq, -⟩ := mem_tokenWrites.mp hw
  obtain ⟨rfl, hmod⟩ := slot_inj (heq.trans hslot) (Nat.mod_lt _ (Nat.zero_lt_of_lt hoffset)) hoffset
  exact h t hstart hstop hpage hmod

omit [DecidableEq H] in
/-- Only pages from that of the first token on are written. -/
theorem writeTokens_of_page {page offset : Nat} (hoffset : offset < blockSize)
    (h : ∀ j, start / blockSize ≤ j → table[j]? ≠ some page) :
    writeTokens blockSize req table start n kv (page * blockSize + offset) = kv (page * blockSize + offset) :=
  writeTokens_of_ne hoffset fun _ hstart _ hget _ => h _ (Nat.div_le_div_right hstart) hget

omit [DecidableEq H] in
/-- A token is found where its page stands once in the table. -/
theorem writeTokens_of_unique (hpos : 0 < blockSize) {page t : Nat} (hstart : start ≤ t) (hstop : t < start + n)
    (hpage : table[t / blockSize]? = some page) (hunique : ∀ j, table[j]? = some page → j = t / blockSize) :
    writeTokens blockSize req table start n kv (page * blockSize + t % blockSize) =
      some (req.contentAt blockSize t) := by
  apply indexCopy_of_forall
  · exact List.mem_map.mpr ⟨_, mem_tokenWrites.mpr ⟨t, page, hstart, hstop, hpage, rfl, rfl⟩, rfl⟩
  · rintro ⟨slot, v⟩ hw hslot
    obtain ⟨t', page', -, -, hpage', heq, hv⟩ := mem_tokenWrites.mp hw
    obtain ⟨rfl, hmod⟩ := slot_inj (heq.trans hslot) (Nat.mod_lt _ hpos) (Nat.mod_lt _ hpos)
    have hdiv := hunique _ hpage'
    have ht : t' = t := by rw [← Nat.div_add_mod t' blockSize, hdiv, hmod, Nat.div_add_mod]
    rw [← hv, ht]

end Content

section Invariant

/-- What a page holds that can be found by `key`: a block of some request, which is named by the key. -/
def KeySound (S : BlockHasher T E H) (blockSize : Nat) (kv : Nat → Option (SlotContent T E)) (b : Nat)
    (key : BlockHashWithGroupId H) : Prop :=
  ∃ (author : Request T E H) (n : Nat),
    key = makeBlockHashWithGroupId (S.chain (author.fullBlocks blockSize (n + 1))) 0 ∧
    ∀ offset < blockSize, kv (b * blockSize + offset) = some (author.contentAt blockSize (n * blockSize + offset))

/-- A running request: its table is long enough, its full pages were cached, its other pages belong to it alone, and
what is left of its pages holds its tokens. -/
structure RowInv (cfg : CacheConfig) (m : CacheManager T E H) (kv : Nat → Option (SlotContent T E)) (r : RequestId)
    (req : Request T E H) : Prop where
  covers : req.numComputedTokens ≤ (m.table r).length * cfg.blockSize
  cached : (m.numCachedBlock.get? r).getD 0 = req.numComputedTokens / cfg.blockSize
  own : m.OwnPages r (req.numComputedTokens / cfg.blockSize)
  content : ∀ t page, t < req.numComputedTokens → (m.table r)[t / cfg.blockSize]? = some page →
    page ≠ BlockPool.nullBlock →
    kv (page * cfg.blockSize + t % cfg.blockSize) = some (req.contentAt cfg.blockSize t)

structure RequestInv (S : BlockHasher T E H) (cfg : CacheConfig) (req : Request T E H) : Prop where
  hashed : req.Hashed S cfg.blockSize
  computed : req.numComputedTokens ≤ req.allTokenIds.length
  fits : req.allTokenIds.length ≤ cfg.maxModelLen
  waiting : req.running = false → req.numComputedTokens = 0

structure ContentInv (S : BlockHasher T E H) (cfg : CacheConfig) (numBlocks tail : Nat) (m : CacheManager T E H)
    (kv : Nat → Option (SlotContent T E)) : Prop where
  pool : m.PoolInv numBlocks tail cfg.blockSize
  requests : ∀ r req, m.requests.get? r = some req → RequestInv S cfg req
  idle : ∀ r, (∀ req, m.requests.get? r = some req → req.running = false) → m.table r = [] ∧
    m.numCachedBlock.get? r = none
  rows : ∀ r req, m.requests.get? r = some req → req.running = true → RowInv cfg m kv r req
  keys : ∀ b key, m.HasKey b key → KeySound S cfg.blockSize kv b key

variable {S : BlockHasher T E H} {cfg : CacheConfig} {numBlocks tail : Nat} {m m' : CacheManager T E H}
  {kv kv' : Nat → Option (SlotContent T E)} {r r' : RequestId} {req : Request T E H}

omit [DecidableEq H] in
/-- A row only reads the request's own table, and of other tables that its pages are not in them. -/
theorem RowInv.congr (h : RowInv cfg m kv r req) (htable : m'.table r = m.table r)
    (hcached : m'.numCachedBlock.get? r = m.numCachedBlock.get? r)
    (hentries : ∀ p ∈ m.table r, p ≠ BlockPool.nullBlock → tableEntries m.reqToBlocks p = 1 → (∀ key, ¬m.HasKey p key) →
      tableEntries m'.reqToBlocks p = 1 ∧ ∀ key, ¬m'.HasKey p key)
    (hkv : ∀ p ∈ m.table r, p ≠ BlockPool.nullBlock → ∀ offset < cfg.blockSize,
      kv' (p * cfg.blockSize + offset) = kv (p * cfg.blockSize + offset)) :
    RowInv cfg m' kv' r req where
  covers := by rw [htable]; exact h.covers
  cached := by rw [hcached]; exact h.cached
  own j p hj hget := by
    rw [htable] at hget
    obtain ⟨hne, hkeys, hone⟩ := h.own j p hj hget
    obtain ⟨hone', hkeys'⟩ := hentries p (List.mem_of_getElem? hget) hne hone hkeys
    exact ⟨hne, hkeys', hone'⟩
  content t page ht hget hne := by
    rw [htable] at hget
    rw [hkv page (List.mem_of_getElem? hget) hne _ (Nat.mod_lt _ cfg.blockSize_pos)]
    exact h.content t page ht hget hne

/-- What the prefix cache finds for a request holds the request's own tokens. -/
theorem ContentInv.hit (h : ContentInv S cfg numBlocks tail m kv) (hreq : m.requests.get? r = some req) {i b : Nat}
    {blockHash : H}
    (hhash : req.blockHashes[i]? = some blockHash) (hkey : m.HasKey b (makeBlockHashWithGroupId blockHash 0))
    {offset : Nat} (hoffset : offset < cfg.blockSize) :
    kv (b * cfg.blockSize + offset) = some (req.contentAt cfg.blockSize (i * cfg.blockSize + offset)) := by
  have hhashed := (h.requests r req hreq).hashed
  have hlt : i < req.allTokenIds.length / cfg.blockSize := by
    rw [← hhashed.length]
    exact (List.getElem?_eq_some_iff.mp hhash).1
  rw [hhashed.getElem? hlt] at hhash
  obtain ⟨author, n, hname, hcontent⟩ := h.keys b _ hkey
  rw [← Option.some.inj hhash] at hname
  obtain ⟨-, hsame⟩ := Request.contentAt_eq_of_chain (congrArg Prod.fst hname)
  rw [hcontent offset hoffset, hsame offset hoffset]

/-- A request that is not running holds nothing. -/
theorem ContentInv.of_waiting (hinv : ContentInv S cfg numBlocks tail m kv) (hreq : m.requests.get? r = some req)
    (hwaiting : req.running = false) : m.table r = [] ∧ m.numCachedBlock.get? r = none := by
  refine hinv.idle r fun req' hreq' => ?_
  rw [hreq] at hreq'
  rw [← Option.some.inj hreq', hwaiting]

end Invariant

section Schedule

variable {S : BlockHasher T E H} {cfg : CacheConfig} {numBlocks tail : Nat} {m m' : CacheManager T E H}
  {kv : Nat → Option (SlotContent T E)} {r : RequestId} {req : Request T E H} {hits new : List Nat} {start n : Nat}

/-- A request is given slots for the tokens from `start` on: behind what it has computed, or behind what the prefix
cache found if it has nothing yet. -/
structure Slots (cfg : CacheConfig) (r : RequestId) (req : Request T E H) (hits new : List Nat) (start n : Nat)
    (m m' : CacheManager T E H) : Prop where
  request : m.requests.get? r = some req
  hits_ : ∀ (i b : Nat), hits[i]? = some b →
    ∃ blockHash, req.blockHashes[i]? = some blockHash ∧ m.HasKey b (makeBlockHashWithGroupId blockHash 0)
  waiting : hits ≠ [] → req.running = false
  start_ : start = req.numComputedTokens + hits.length * cfg.blockSize
  fits : start + n ≤ req.allTokenIds.length
  allocates : CacheManager.AllocatesSlots cfg r req hits new (start + n) m m'

omit [DecidableEq H] in
/-- A page that is written belongs to the request alone. -/
theorem Slots.own (h : Slots cfg r req hits new start n m m') {j p : Nat} (hj : start / cfg.blockSize ≤ j)
    (hget : (m'.table r)[j]? = some p) :
    p ≠ BlockPool.nullBlock ∧ (∀ key, m.HasKey p key → p ∈ new) ∧ tableEntries m'.reqToBlocks p = 1 := by
  rw [h.start_, Nat.add_mul_div_right _ _ cfg.blockSize_pos] at hj
  exact h.allocates.own j p hj hget

/-- Before the step, every page of the new table that is not new holds the tokens of the request up to `start`. -/
theorem Slots.content_before (h : Slots cfg r req hits new start n m m')
    (hinv : ContentInv S cfg numBlocks tail m kv) {t p : Nat}
    (ht : t < start) (hget : (m'.table r)[t / cfg.blockSize]? = some p) (hne : p ≠ BlockPool.nullBlock) :
    kv (p * cfg.blockSize + t % cfg.blockSize) = some (req.contentAt cfg.blockSize t) := by
  have hreq := hinv.requests r req h.request
  rw [h.allocates.extends_.table] at hget
  rw [h.start_] at ht
  cases hrunning : req.running with
  | true =>
      have hhits : hits = [] := by
        by_contra hhits
        rw [h.waiting hhits] at hrunning
        cases hrunning
      have hrow := hinv.rows r req h.request hrunning
      rw [hhits, List.length_nil, Nat.zero_mul, Nat.add_zero] at ht
      have hlt : t / cfg.blockSize < (m.table r).length :=
        (Nat.div_lt_iff_lt_mul cfg.blockSize_pos).mpr (ht.trans_le hrow.covers)
      rw [List.getElem?_append_left hlt] at hget
      exact hrow.content t p ht hget hne
  | false =>
      have hempty := (hinv.of_waiting h.request hrunning).1
      rw [hreq.waiting hrunning, Nat.zero_add] at ht
      have hlt : t / cfg.blockSize < hits.length := (Nat.div_lt_iff_lt_mul cfg.blockSize_pos).mpr ht
      rw [hempty, List.nil_append, List.getElem?_append_left hlt] at hget
      obtain ⟨blockHash, hhash, hkey⟩ := h.hits_ _ p hget
      have hhit := hinv.hit h.request hhash hkey (Nat.mod_lt t cfg.blockSize_pos)
      rwa [Nat.div_add_mod' t cfg.blockSize] at hhit

/-- After the step, the table holds the tokens of the request up to the last that was scheduled. -/
theorem Slots.content (h : Slots cfg r req hits new start n m m')
    (hinv : ContentInv S cfg numBlocks tail m kv) {t p : Nat}
    (ht : t < start + n) (hget : (m'.table r)[t / cfg.blockSize]? = some p) (hne : p ≠ BlockPool.nullBlock) :
    writeTokens cfg.blockSize req (m'.table r) start n kv (p * cfg.blockSize + t % cfg.blockSize) =
      some (req.contentAt cfg.blockSize t) := by
  by_cases hstart : start ≤ t
  · refine writeTokens_of_unique cfg.blockSize_pos hstart ht hget fun j hj => ?_
    exact CacheManager.index_unique_of_tableEntries (h.own (Nat.div_le_div_right hstart) hget).2.2 hj hget
  · refine (writeTokens_of_ne (Nat.mod_lt _ cfg.blockSize_pos) fun t' hstart' _ hget' hmod => ?_).trans
      (h.content_before hinv (Nat.lt_of_not_le hstart) hget hne)
    -- a page that is written stands at one index, so that only the same token could be meant
    have hdiv := CacheManager.index_unique_of_tableEntries (h.own (Nat.div_le_div_right hstart') hget').2.2 hget' hget
    have heq : t' = t := by rw [← Nat.div_add_mod t' cfg.blockSize, hdiv, hmod, Nat.div_add_mod]
    omega

/-- The keys after the step: those before it, of pages that were not given away, and those of the request's full
pages. -/
theorem Slots.keySound (h : Slots cfg r req hits new start n m m')
    (hinv : ContentInv S cfg numBlocks tail m kv) {b : Nat}
    {key : BlockHashWithGroupId H} (hkey : m'.HasKey b key) :
    KeySound S cfg.blockSize (writeTokens cfg.blockSize req (m'.table r) start n kv) b key := by
  rcases h.allocates.keys b key hkey with ⟨hold, hnot⟩ | ⟨j, blockHash, hlt, hle, hget, hhash, rfl⟩
  · obtain ⟨author, k, hname, hcontent⟩ := hinv.keys b key hold
    refine ⟨author, k, hname, fun offset hoffset => ?_⟩
    rw [← hcontent offset hoffset]
    exact writeTokens_of_page hoffset fun j hj hget => hnot ((h.own hj hget).2.1 key hold)
  · have hhashed := (hinv.requests r req h.request).hashed
    have hstop : (j + 1) * cfg.blockSize ≤ start + n := (Nat.le_div_iff_mul_le cfg.blockSize_pos).mp hlt
    have hfull : j < req.allTokenIds.length / cfg.blockSize :=
      (Nat.le_div_iff_mul_le cfg.blockSize_pos).mpr (hstop.trans h.fits)
    rw [hhashed.getElem? hfull] at hhash
    refine ⟨req, j, by rw [← Option.some.inj hhash], fun offset hoffset => ?_⟩
    have hdiv : (j * cfg.blockSize + offset) / cfg.blockSize = j := by
      rw [Nat.add_comm, Nat.add_mul_div_right _ _ cfg.blockSize_pos, Nat.div_eq_of_lt hoffset, Nat.zero_add]
    have hmod : (j * cfg.blockSize + offset) % cfg.blockSize = offset := by
      rw [Nat.mul_add_mod', Nat.mod_eq_of_lt hoffset]
    have hne := (h.allocates.own j b hle hget).1
    have hcontent := h.content hinv (t := j * cfg.blockSize + offset) (p := b) (by rw [Nat.succ_mul] at hstop; omega)
      (by rw [hdiv]; exact hget) hne
    rwa [hmod] at hcontent

/-- The request as it is after the step. -/
def Request.advance (req : Request T E H) (numComputedTokens : Nat) : Request T E H :=
  { req with numComputedTokens := numComputedTokens, running := true }

theorem Slots.row (h : Slots cfg r req hits new start n m m') (hinv : ContentInv S cfg numBlocks tail m kv) :
    RowInv cfg (CacheManager.setRequest r (req.advance (start + n)) m')
      (writeTokens cfg.blockSize req (m'.table r) start n kv) r (req.advance (start + n)) where
  covers := h.allocates.covers
  cached := h.allocates.cached
  own j p hj hget := by
    have hj : (start + n) / cfg.blockSize ≤ j := hj
    obtain ⟨hne, hold, hone⟩ := h.own (le_trans (Nat.div_le_div_right (Nat.le_add_right _ _)) hj) hget
    refine ⟨hne, fun key hkey => ?_, hone⟩
    rcases h.allocates.keys p key hkey with ⟨hkey, hnot⟩ | ⟨i, -, hi, -, hget', -⟩
    · exact hnot (hold key hkey)
    · have hsame := CacheManager.index_unique_of_tableEntries hone hget' hget
      omega
  content _ _ ht hget hne := h.content hinv ht hget hne

omit [DecidableEq H] in
theorem Slots.otherRow (h : Slots cfg r req hits new start n m m') {r' : RequestId}
    (hr' : r' ≠ r) {req' : Request T E H} (hrow : RowInv cfg m kv r' req') :
    RowInv cfg (CacheManager.setRequest r (req.advance (start + n)) m')
      (writeTokens cfg.blockSize req (m'.table r) start n kv) r' req' := by
  have htable : m'.table r' = m.table r' := h.allocates.extends_.other r' hr'
  -- a page that the request alone holds is in no other table
  have hforeign : ∀ p ∈ m.table r', ∀ j, start / cfg.blockSize ≤ j → (m'.table r)[j]? ≠ some p := by
    intro p hp j hj hget
    rw [← htable] at hp
    exact CacheManager.notMem_other_of_tableEntries (h.own hj hget).2.2 (List.mem_of_getElem? hget) hr' hp
  refine hrow.congr htable (h.allocates.extends_.cached r' hr')
    (fun p hp _ hone hnone => ?_) fun p hp _ offset hoffset => ?_
  · have hadded : (hits ++ new).count p = 0 := by
      refine List.count_eq_zero_of_not_mem fun hmem => ?_
      rcases List.mem_append.mp hmem with hhit | hnew
      · obtain ⟨i, hi⟩ := List.mem_iff_getElem?.mp hhit
        obtain ⟨_, -, hkey⟩ := h.hits_ i p hi
        exact hnone _ hkey
      · have hfree := (h.allocates.unheld p hnew).2
        omega
    refine ⟨?_, fun key hkey => ?_⟩
    · show tableEntries m'.reqToBlocks p = 1
      rw [h.allocates.extends_.entries p, hone, hadded]
    · rcases h.allocates.keys p key hkey with ⟨hkey, -⟩ | ⟨j, -, -, hle, hget, -⟩
      · exact hnone key hkey
      · refine hforeign p hp j ?_ hget
        rwa [h.start_, Nat.add_mul_div_right _ _ cfg.blockSize_pos]
  · exact writeTokens_of_page hoffset (hforeign p hp)

omit [DecidableEq H] in
theorem get?_setRequest (r r' : RequestId) (req : Request T E H) (m : CacheManager T E H) :
    (CacheManager.setRequest r req m).requests.get? r' = if r' = r then some req else m.requests.get? r' :=
  OrderedDict.get?_set _ _ _ _

/-- Scheduling a request. -/
theorem Slots.contentInv (h : Slots cfg r req hits new start n m m') (hinv : ContentInv S cfg numBlocks tail m kv)
    (hpool : m'.PoolInv numBlocks tail cfg.blockSize) :
    ContentInv S cfg numBlocks tail (CacheManager.setRequest r (req.advance (start + n)) m')
      (writeTokens cfg.blockSize req (m'.table r) start n kv) where
  pool := hpool.of_same rfl rfl
  requests r' req' hreq' := by
    rw [get?_setRequest, h.allocates.extends_.requests] at hreq'
    split_ifs at hreq' with hr'
    · obtain ⟨hhashed, hcomputed, hfits, hwaiting⟩ := hinv.requests r req h.request
      rw [← Option.some.inj hreq']
      exact ⟨hhashed, h.fits, hfits, Bool.noConfusion⟩
    · exact hinv.requests r' req' hreq'
  idle r' hidle := by
    have hr' : r' ≠ r := by
      rintro rfl
      cases hidle (req.advance (start + n)) (by rw [get?_setRequest, if_pos rfl])
    obtain ⟨htable, hcached⟩ := hinv.idle r' fun req' hreq' => hidle req' (by
      rw [get?_setRequest, if_neg hr', h.allocates.extends_.requests, hreq'])
    exact ⟨(h.allocates.extends_.other r' hr').trans htable, (h.allocates.extends_.cached r' hr').trans hcached⟩
  rows r' req' hreq' hrunning := by
    rw [get?_setRequest, h.allocates.extends_.requests] at hreq'
    split_ifs at hreq' with hr'
    · rw [← Option.some.inj hreq', hr']
      exact h.row hinv
    · exact h.otherRow hr' (hinv.rows r' req' hreq' hrunning)
  keys b key hkey := h.keySound hinv hkey

theorem ContentInv.ready (hinv : ContentInv S cfg numBlocks tail m kv) (hreq : m.requests.get? r = some req)
    (hfirst : hits ≠ [] → req.running = false) (hkeys : ∀ b ∈ hits, ∃ key, m.HasKey b key) :
    CacheManager.Ready cfg r req hits m := by
  have hzero := (hinv.requests r req hreq).waiting
  cases hrunning : req.running with
  | true =>
      have hrow := hinv.rows r req hreq hrunning
      refine ⟨hkeys, fun hne => ?_, hrow.cached, hrow.own⟩
      rw [hfirst hne] at hrunning
      cases hrunning
  | false =>
      obtain ⟨htable, hcached⟩ := hinv.of_waiting hreq hrunning
      refine ⟨hkeys, fun _ => ⟨htable, hcached, hzero hrunning⟩, ?_, fun j p _ hget => ?_⟩
      · rw [hcached, hzero hrunning, Nat.zero_div]
        rfl
      · rw [htable] at hget
        cases hget

/-- `schedule` of one request: it raises nothing, and either leaves everything as it was or gives the request slots. -/
theorem ContentInv.scheduleRequest (htail : tail ≤ numBlocks) (hinv : ContentInv S cfg numBlocks tail m kv)
    (opts : CacheManager.AllocateOptions) (r : RequestId) (tokenBudget : Nat) :
    Eff.wp (CacheManager.scheduleRequest cfg opts r tokenBudget)
      (fun result m' => result = none ∧ m' = m ∨ ∃ req hits new start n m₁, result = some (start, n) ∧
        Slots cfg r req hits new start n m m₁ ∧ m₁.PoolInv numBlocks tail cfg.blockSize ∧
        m' = CacheManager.setRequest r (req.advance (start + n)) m₁)
      (fun _ _ => False) m := by
  simp only [CacheManager.scheduleRequest, Eff.wp_bind, Eff.wp_read]
  cases hreq : m.requests.get? r with
  | none => exact Or.inl ⟨rfl, rfl⟩
  | some req =>
      obtain ⟨hhashed, hcomputed, hfits, hwaiting⟩ := hinv.requests r req hreq
      have hlookup : ∃ hits, (if req.running then Except.ok [] else m.getComputedBlocks cfg req) = .ok hits ∧
          (hits ≠ [] → req.running = false) ∧
          ∀ (i b : Nat), hits[i]? = some b →
            ∃ blockHash, req.blockHashes[i]? = some blockHash ∧ m.HasKey b (makeBlockHashWithGroupId blockHash 0) := by
        cases hrunning : req.running with
        | true => exact ⟨[], if_pos rfl, fun hne => absurd rfl hne, by simp⟩
        | false =>
            obtain ⟨hits, hget, -, hkeys⟩ := CacheManager.getComputedBlocks_spec hinv.pool req
            exact ⟨hits, (if_neg Bool.false_ne_true).trans hget, fun _ => rfl, hkeys⟩
      obtain ⟨hits, hget, hfirst, hkeys⟩ := hlookup
      have hready := hinv.ready hreq hfirst fun b hb => by
        obtain ⟨i, hi⟩ := List.mem_iff_getElem?.mp hb
        obtain ⟨_, -, hkey⟩ := hkeys i b hi
        exact ⟨_, hkey⟩
      simp only [hget]
      generalize hstart : req.numComputedTokens + hits.length * cfg.blockSize = start
      generalize hn : min (req.allTokenIds.length - start) tokenBudget = n
      by_cases hnone : n = 0
      · rw [if_pos hnone]
        exact Or.inl ⟨rfl, rfl⟩
      · have hroom : start + n ≤ req.allTokenIds.length := by omega
        rw [if_neg hnone, Eff.wp_bind]
        refine Eff.wp_mono (CacheManager.allocateSlots_spec htail hinv.pool hready opts hstart hnone hroom hfits
          hhashed.length) (fun result m₁ hend => ?_) fun _ _ hf => hf
        rcases hend with ⟨rfl, rfl⟩ | ⟨new, rfl, hpool, halloc⟩
        · exact Or.inl ⟨rfl, rfl⟩
        · exact Or.inr ⟨req, hits, new, start, n, m₁, rfl, ⟨hreq, hkeys, hfirst, hstart.symm, hroom, halloc⟩, hpool,
            rfl⟩

end Schedule

section Other

variable {S : BlockHasher T E H} {cfg : CacheConfig} {numBlocks tail : Nat} {m m' : CacheManager T E H}
  {kv : Nat → Option (SlotContent T E)} {r : RequestId} {req : Request T E H}

/-- A request is added, or its tokens change, while tables and pages stay. -/
theorem ContentInv.setRequest (hinv : ContentInv S cfg numBlocks tail m kv) (hreq : RequestInv S cfg req)
    (hidle : req.running = false → m.table r = [] ∧ m.numCachedBlock.get? r = none)
    (hrow : req.running = true → RowInv cfg m kv r req) :
    ContentInv S cfg numBlocks tail (CacheManager.setRequest r req m) kv where
  pool := hinv.pool.of_same rfl rfl
  requests r' req' hreq' := by
    rw [get?_setRequest] at hreq'
    split_ifs at hreq'
    · exact Option.some.inj hreq' ▸ hreq
    · exact hinv.requests r' req' hreq'
  idle r' hidle' := by
    by_cases hr' : r' = r
    · subst hr'
      exact hidle (hidle' req (by rw [get?_setRequest, if_pos rfl]))
    · exact hinv.idle r' fun req' hreq' => hidle' req' (by rw [get?_setRequest, if_neg hr', hreq'])
  rows r' req' hreq' hrunning := by
    have hkeep : RowInv cfg m kv r' req' → RowInv cfg (CacheManager.setRequest r req m) kv r' req' := fun h =>
      h.congr rfl rfl (fun _ _ _ hone hnone => ⟨hone, hnone⟩) fun _ _ _ _ _ => rfl
    rw [get?_setRequest] at hreq'
    split_ifs at hreq' with hr'
    · cases hreq'
      exact hkeep (hr' ▸ hrow hrunning)
    · exact hkeep (hinv.rows r' req' hreq' hrunning)
  keys := hinv.keys

/-- A request that gave its pages back is gone or waits. -/
theorem ContentInv.released (hinv : ContentInv S cfg numBlocks tail m kv) (hreleases : CacheManager.Releases r m m')
    (hpool : m'.PoolInv numBlocks tail cfg.blockSize) {requests : OrderedDict RequestId (Request T E H)}
    (hother : ∀ r' ≠ r, requests.get? r' = m.requests.get? r')
    (hself : ∀ req, requests.get? r = some req → RequestInv S cfg req ∧ req.running = false) :
    ContentInv S cfg numBlocks tail { m' with requests := requests } kv where
  pool := hpool.of_same rfl rfl
  requests r' req' hreq' := by
    by_cases hr' : r' = r
    · exact (hself req' (hr' ▸ hreq')).1
    · exact hinv.requests r' req' ((hother r' hr').symm.trans hreq')
  idle r' hidle := by
    by_cases hr' : r' = r
    · rw [hr']
      exact ⟨hreleases.table, hreleases.uncached⟩
    · obtain ⟨htable, hcached⟩ := hinv.idle r' fun req' hreq' => hidle req' ((hother r' hr').trans hreq')
      exact ⟨(hreleases.other r' hr').trans htable, (hreleases.cached r' hr').trans hcached⟩
  rows r' req' hreq' hrunning := by
    have hr' : r' ≠ r := by
      rintro rfl
      rw [(hself req' hreq').2] at hrunning
      cases hrunning
    refine (hinv.rows r' req' ((hother r' hr').symm.trans hreq') hrunning).congr (hreleases.other r' hr')
      (hreleases.cached r' hr')
      (fun p hp _ hone hnone => ⟨?_, fun key hkey => hnone key ((hreleases.keys p key).mp hkey)⟩)
      fun _ _ _ _ _ => rfl
    have hnot : p ∉ m.table r := CacheManager.notMem_other_of_tableEntries hone hp (Ne.symm hr')
    have hentries := hreleases.entries p
    rwa [List.count_eq_zero_of_not_mem hnot, Nat.add_zero, hone] at hentries
  keys b key hkey := hinv.keys b key ((hreleases.keys b key).mp hkey)

/-- What a preemption leaves of the other requests and of the prefix cache. -/
structure CacheManager.Preempts (r : RequestId) (m m' : CacheManager T E H) : Prop where
  requests : ∀ r' ≠ r, m'.requests.get? r' = m.requests.get? r'
  other : ∀ r' ≠ r, m'.table r' = m.table r'
  entries : ∀ b, tableEntries m'.reqToBlocks b + (m.table r).count b = tableEntries m.reqToBlocks b
  keys : ∀ b key, m'.HasKey b key ↔ m.HasKey b key

theorem ContentInv.preemptRequest (htail : tail ≤ numBlocks) (hinv : ContentInv S cfg numBlocks tail m kv)
    (r : RequestId) :
    Eff.wp (CacheManager.preemptRequest r)
      (fun _ m' => ContentInv S cfg numBlocks tail m' kv ∧ CacheManager.Preempts r m m') (fun _ _ => False) m := by
  have hnothing : m.table r = [] → CacheManager.Preempts r m m := fun htable =>
    ⟨fun _ _ => rfl, fun _ _ => rfl, fun b => by rw [htable, List.count_nil, Nat.add_zero], fun _ _ => Iff.rfl⟩
  cases hreq : m.requests.get? r with
  | none =>
      simp only [CacheManager.preemptRequest, Eff.wp_bind, Eff.wp_read, hreq]
      refine ⟨hinv, hnothing (hinv.idle r fun req hget => ?_).1⟩
      rw [hreq] at hget
      cases hget
  | some req =>
      cases hrunning : req.running with
      | false =>
          simp only [CacheManager.preemptRequest, Eff.wp_bind, Eff.wp_read, hreq, hrunning, Bool.false_eq_true,
            if_false]
          exact ⟨hinv, hnothing (hinv.of_waiting hreq hrunning).1⟩
      | true =>
          refine Eff.wp_mono (CacheManager.preemptRequest_spec htail hinv.pool hreq hrunning) (fun _ m' hend => ?_)
            fun _ _ hf => hf
          obtain ⟨m₁, hpool, hreleases, rfl⟩ := hend
          have hother : ∀ r' ≠ r, (m₁.requests.set r { req with numComputedTokens := 0, running := false }).get? r' =
              m.requests.get? r' := fun r' hr' => by
            rw [OrderedDict.get?_set_of_ne _ _ hr', hreleases.requests]
          refine ⟨hinv.released hreleases hpool hother fun req' hreq' => ?_, hother, hreleases.other,
            hreleases.entries, hreleases.keys⟩
          obtain ⟨hhashed, -, hfits, -⟩ := hinv.requests r req hreq
          rw [OrderedDict.get?_set_self] at hreq'
          rw [← Option.some.inj hreq']
          exact ⟨⟨hhashed, Nat.zero_le _, hfits, fun _ => rfl⟩, rfl⟩

/-- Pages whose tokens were all computed are taken out of tables. -/
theorem ContentInv.removed (hinv : ContentInv S cfg numBlocks tail m kv) {entries : List (BlockRef × Nat)}
    (hremoves : CacheManager.Removes entries m m') (hpool : m'.PoolInv numBlocks tail cfg.blockSize)
    (hentries : ∀ b, tableEntries m'.reqToBlocks b ≤ tableEntries m.reqToBlocks b ∨ b = BlockPool.nullBlock)
    (hkeys : ∀ b key, m'.HasKey b key → m.HasKey b key)
    (hlegal : ∀ e ∈ entries, (m.table e.1.requestId)[e.1.blockIdx.toNat]? = some e.2 →
      ∀ req, m.requests.get? e.1.requestId = some req →
        (e.1.blockIdx.toNat + 1) * cfg.blockSize ≤ req.numComputedTokens) :
    ContentInv S cfg numBlocks tail m' kv where
  pool := hpool
  requests r' req' hreq' := hinv.requests r' req' (hremoves.requests ▸ hreq')
  idle r' hidle := by
    obtain ⟨htable, hcached⟩ := hinv.idle r' (hremoves.requests ▸ hidle)
    refine ⟨List.eq_nil_of_length_eq_zero ?_, hremoves.numCachedBlock ▸ hcached⟩
    rw [hremoves.length r', htable, List.length_nil]
  rows r' req' hreq' hrunning := by
    rw [hremoves.requests] at hreq'
    have hrow := hinv.rows r' req' hreq' hrunning
    refine ⟨by rw [hremoves.length]; exact hrow.covers, by rw [hremoves.numCachedBlock]; exact hrow.cached,
      fun j p hj hget => ?_, fun t page ht hget hne => hrow.content t page ht (hremoves.kept r' _ page hget hne) hne⟩
    -- the pages that are not yet full stay where they are
    obtain ⟨q, hq⟩ : ∃ q, (m.table r')[j]? = some q := by
      have hlt := (List.getElem?_eq_some_iff.mp hget).1
      rw [hremoves.length] at hlt
      exact ⟨_, List.getElem?_eq_getElem hlt⟩
    obtain ⟨hne, hnone, hone⟩ := hrow.own j q hj hq
    have hsame : (m'.table r')[j]? = some q := by
      by_contra hgone
      obtain ⟨e, he, hid, hidx, hpage⟩ := hremoves.removed r' j q hq hgone
      subst hid hidx hpage
      have hfull := hlegal e he hq req' hreq'
      have hlt := (Nat.le_div_iff_mul_le cfg.blockSize_pos).mpr hfull
      omega
    obtain rfl : q = p := Option.some.inj (hsame.symm.trans hget)
    refine ⟨hne, fun key hkey => hnone key (hkeys q key hkey), ?_⟩
    have hle := (hentries q).resolve_right hne
    have hpos := CacheManager.tableEntries_pos_of_mem (List.mem_of_getElem? hget)
    omega
  keys b key hkey := hinv.keys b key (hkeys b key hkey)

end Other

end KVOffload

import KVOffload.BaseLinked
import KVOffload.BaseProgram
import Mathlib.Data.List.Basic

/-! The free block queue of vLLM, as it is in memory: a doubly linked list through fields of the blocks
themselves, between a fake head and a fake tail. Every operation edits a few fields and a counter.
`Represents` says which list of blocks the fields stand for. -/

namespace KVOffload
open Base

/-- A block object: a block of the pool, or one of the two fakes of the queue. -/
inductive KVCacheBlock where
  | fakeFreeListHead
  | fakeFreeListTail
  | block (blockId : Nat)
  deriving DecidableEq, Repr

/-- The id of a block of the pool. The fakes share the id -1, which is no block's. -/
def KVCacheBlock.blockId? : KVCacheBlock → Option Nat
  | block blockId => some blockId
  | _ => none

/-- What the queue and the block pool raise. -/
inductive BlockPoolError where
  /-- "num_free_blocks ({n}) is out of sync with the free list." -/
  | outOfSync (numFreeBlocks : Int)
  /-- "No free blocks available" -/
  | noFreeBlocksAvailable
  /-- "Invalid block found in popleft() which doesn't have a valid next_free_block" -/
  | invalidFirstBlock
  /-- `assert self.num_free_blocks >= n` -/
  | tooFewBlocks
  /-- `assert curr_block is not None` -/
  | endOfList
  /-- "remove() called on an invalid block: {block}" -/
  | invalidBlock (block : KVCacheBlock)
  /-- "prev_free_block of fake_free_list_tail should always exist" -/
  | tailUnlinked
  /-- "next_free_block of fake_free_list_head should always exist" -/
  | headUnlinked
  /-- A fake block where one of the pool is needed. -/
  | fakeBlock
  /-- `assert isinstance(num_gpu_blocks, int) and num_gpu_blocks > 0` -/
  | noGpuBlocks
  /-- "Cannot get {num_blocks} free blocks from the pool" -/
  | cannotGetBlocks (numBlocks : Nat)
  /-- `assert block.ref_cnt == 0` -/
  | blockInUse (blockId : Nat)
  /-- "The block already has a hash. This should not happen." -/
  | alreadyHashed (blockId : Nat)
  /-- The assertion of `cache_full_blocks` on the tokens of a hash that is replaced. -/
  | notPromoted (blockId : Nat)
  /-- `assert block_mask is None or len(block_mask) == len(new_full_blocks)` -/
  | maskMismatch
  /-- A subscript beyond the hashes of the request. -/
  | noSuchHash (index : Nat)
  /-- The assertions of `cache_partial_block`. -/
  | notPartial
  /-- "Invalid block_id {block_id} >= {len(self.blocks)}. …" -/
  | invalidBlockId (blockId : Nat)
  /-- `next(iter({}))` -/
  | stopIteration
  /-- Blocks from the prefix cache for a request that has blocks already. -/
  | unexpectedComputedBlocks
  /-- "num_new_tokens must be greater than 0 when there are no external computed tokens" -/
  | noNewTokens
  /-- "staging tail overlaps the pool null block" -/
  | stagingOverlapsNull
  /-- "staging tail block {blk.block_id} is already in use …" -/
  | stagingInUse (blockId : Nat)
  /-- "num_staging_slots ({num_slots}) must be < num_gpu_blocks ({n})" -/
  | stagingTooLarge (numSlots numGpuBlocks : Int)
  deriving DecidableEq, Repr

/-- `prev_free_block` and `next_free_block` of all blocks, with the counter. -/
structure FreeKVCacheBlockQueue where
  links : Links KVCacheBlock
  numFreeBlocks : Int

abbrev QueueM (α : Type) : Type := Eff FreeKVCacheBlockQueue BlockPoolError α

namespace FreeKVCacheBlockQueue

open KVCacheBlock

/-- The loop of `__init__`: each block is given the neighbours it has in the list. -/
def linkConsecutive (l : Links KVCacheBlock) (before : Option KVCacheBlock) : List KVCacheBlock → Links KVCacheBlock
  | [] => l
  | blk :: rest =>
      let l := if before.isSome then l.setPrev blk before else l
      let l := if rest ≠ [] then l.setNext blk rest.head? else l
      linkConsecutive l (some blk) rest

/-- `__init__`, on blocks that are on no list yet. -/
def init (blocks : List KVCacheBlock) : FreeKVCacheBlockQueue :=
  let l := linkConsecutive .blank none blocks
  match blocks.head?, blocks.getLast? with
  | some first, some last => ⟨(l.connect fakeFreeListHead first).connect last fakeFreeListTail, blocks.length⟩
  | _, _ => ⟨l.connect fakeFreeListHead fakeFreeListTail, blocks.length⟩

def popleft : QueueM KVCacheBlock := do
  let q ← Eff.read
  match q.links.next fakeFreeListHead with
  | none => if q.numFreeBlocks = 0 then Eff.raise .noFreeBlocksAvailable else Eff.raise (.outOfSync q.numFreeBlocks)
  | some firstBlock =>
      if firstBlock = fakeFreeListTail then
        if q.numFreeBlocks = 0 then Eff.raise .noFreeBlocksAvailable else Eff.raise (.outOfSync q.numFreeBlocks)
      else
        match q.links.next firstBlock with
        | none => Eff.raise .invalidFirstBlock
        | some second => do
            Eff.modify fun q => ⟨(q.links.connect fakeFreeListHead second).clear firstBlock, q.numFreeBlocks - 1⟩
            pure firstBlock

/-- The loop of `popleft_n`: the blocks it passes lose their links. Returns them and the block it ends at. -/
def popLoop : Nat → Option KVCacheBlock → QueueM (List KVCacheBlock × Option KVCacheBlock)
  | 0, currBlock => pure ([], currBlock)
  | _ + 1, none => Eff.raise .endOfList
  | n + 1, some lastBlock => do
      let q ← Eff.read
      Eff.modify fun q => { q with links := q.links.clear lastBlock }
      let r ← popLoop n (q.links.next lastBlock)
      pure (lastBlock :: r.1, r.2)

def popleftN (n : Nat) : QueueM (List KVCacheBlock) :=
  if n = 0 then pure []
  else do
    let q ← Eff.read
    if q.numFreeBlocks < n then Eff.raise .tooFewBlocks
    else do
      Eff.modify fun q => { q with numFreeBlocks := q.numFreeBlocks - n }
      let r ← popLoop n (q.links.next fakeFreeListHead)
      match r.2 with
      | none => pure r.1
      | some currBlock => do
          Eff.modify fun q => { q with links := q.links.connect fakeFreeListHead currBlock }
          pure r.1

def remove (blk : KVCacheBlock) : QueueM Unit := do
  let q ← Eff.read
  match q.links.prev blk, q.links.next blk with
  | some before, some after =>
      Eff.modify fun q => ⟨(q.links.connect before after).clear blk, q.numFreeBlocks - 1⟩
  | _, _ => Eff.raise (.invalidBlock blk)

def append (blk : KVCacheBlock) : QueueM Unit := do
  let q ← Eff.read
  match q.links.prev fakeFreeListTail with
  | none => Eff.raise .tailUnlinked
  | some lastBlock =>
      Eff.modify fun q => ⟨(q.links.connect lastBlock blk).connect blk fakeFreeListTail, q.numFreeBlocks + 1⟩

def prependN (blocks : List KVCacheBlock) : QueueM Unit :=
  if blocks.length = 0 then pure ()
  else do
    let q ← Eff.read
    match q.links.next fakeFreeListHead with
    | none => Eff.raise .headUnlinked
    | some firstBlock =>
        Eff.modify fun q =>
          let made := q.links.connectAll fakeFreeListHead blocks
          ⟨made.1.connect made.2 firstBlock, q.numFreeBlocks + blocks.length⟩

def appendN (blocks : List KVCacheBlock) : QueueM Unit :=
  if blocks.length = 0 then pure ()
  else do
    let q ← Eff.read
    match q.links.prev fakeFreeListTail with
    | none => Eff.raise .tailUnlinked
    | some lastBlock =>
        Eff.modify fun q =>
          let made := q.links.connectAll lastBlock blocks
          ⟨made.1.connect made.2 fakeFreeListTail, q.numFreeBlocks + blocks.length⟩

/-- The loop of `get_all_free_blocks`; `none` when the fuel is used up. -/
def walk (l : Links KVCacheBlock) : Nat → KVCacheBlock → Option (List KVCacheBlock)
  | 0, _ => none
  | fuel + 1, currBlock =>
      match l.next currBlock with
      | none => some []
      | some next => (walk l fuel next).map (currBlock :: ·)

def getAllFreeBlocks (q : FreeKVCacheBlockQueue) (fuel : Nat) : Except BlockPoolError (Option (List KVCacheBlock)) :=
  match q.links.next fakeFreeListHead with
  | none => .error .headUnlinked
  | some currBlock => .ok (walk q.links fuel currBlock)

section Representation

/-- All nodes of a queue that holds the blocks `xs`. -/
def line (xs : List Nat) : List KVCacheBlock := fakeFreeListHead :: (xs.map block ++ [fakeFreeListTail])

/-- The fields and the counter stand for the blocks `xs` in this order; no other block is linked. -/
structure Represents (q : FreeKVCacheBlockQueue) (xs : List Nat) : Prop where
  path : q.links.Path (line xs)
  nodup : xs.Nodup
  count : q.numFreeBlocks = xs.length
  loose : ∀ b ∉ xs, q.links.prev (block b) = none ∧ q.links.next (block b) = none
  first : q.links.prev fakeFreeListHead = none
  last : q.links.next fakeFreeListTail = none

/-- `a` and `b` are neighbours in the queue, between the blocks `ys` and the blocks `zs`. -/
structure Between (ys zs : List Nat) (pre : List KVCacheBlock) (a b : KVCacheBlock) (rest : List KVCacheBlock) :
    Prop where
  left : fakeFreeListHead :: ys.map block = pre ++ [a]
  right : zs.map block ++ [fakeFreeListTail] = b :: rest

theorem block_injective : Function.Injective block := fun _ _ h => block.inj h

theorem line_nodup {xs : List Nat} (h : xs.Nodup) : (line xs).Nodup := by
  have hblocks : (xs.map block).Nodup := h.map block_injective
  rw [line, List.nodup_cons, List.nodup_append]
  refine ⟨by simp, hblocks, List.nodup_singleton _, ?_⟩
  simp

theorem exists_between (ys zs : List Nat) : ∃ pre a b rest, Between ys zs pre a b rest := by
  obtain ⟨pre, a, hleft⟩ :=
    (List.eq_nil_or_concat (fakeFreeListHead :: ys.map block)).resolve_left (List.cons_ne_nil _ _)
  obtain ⟨b, rest, hright⟩ := List.exists_cons_of_ne_nil
    (List.append_ne_nil_of_right_ne_nil (zs.map block) (List.cons_ne_nil fakeFreeListTail []))
  exact ⟨pre, a, b, rest, ⟨by rw [hleft, List.concat_eq_append], hright⟩⟩

namespace Between

variable {ys zs : List Nat} {pre rest : List KVCacheBlock} {a b : KVCacheBlock}

theorem line_eq (h : Between ys zs pre a b rest) (xs : List Nat) :
    line (ys ++ (xs ++ zs)) = pre ++ a :: (xs.map block ++ b :: rest) := by
  rw [line, List.map_append, List.map_append, List.append_assoc, List.append_assoc, h.right, ← List.cons_append, h.left,
    List.append_assoc, List.singleton_append]

theorem mem_left (h : Between ys zs pre a b rest) : a = fakeFreeListHead ∨ ∃ y ∈ ys, a = block y := by
  have hmem : a ∈ fakeFreeListHead :: ys.map block := h.left ▸ List.mem_append_right pre List.mem_cons_self
  rcases List.mem_cons.mp hmem with hhead | hys
  · exact Or.inl hhead
  · obtain ⟨y, hy, heq⟩ := List.mem_map.mp hys
    exact Or.inr ⟨y, hy, heq.symm⟩

theorem mem_right (h : Between ys zs pre a b rest) : b = fakeFreeListTail ∨ ∃ z ∈ zs, b = block z := by
  have hmem : b ∈ zs.map block ++ [fakeFreeListTail] := h.right ▸ List.mem_cons_self
  rcases List.mem_append.mp hmem with hzs | htail
  · obtain ⟨z, hz, heq⟩ := List.mem_map.mp hzs
    exact Or.inr ⟨z, hz, heq.symm⟩
  · exact Or.inl (List.mem_singleton.mp htail)

theorem left_ne (h : Between ys zs pre a b rest) : a ≠ fakeFreeListTail ∧ ∀ c ∉ ys, a ≠ block c := by
  rcases h.mem_left with rfl | ⟨y, hy, rfl⟩
  · exact ⟨by simp, by simp⟩
  · refine ⟨by simp, fun c hc heq => hc ?_⟩
    rwa [← block.inj heq]

theorem right_ne (h : Between ys zs pre a b rest) : b ≠ fakeFreeListHead ∧ ∀ c ∉ zs, b ≠ block c := by
  rcases h.mem_right with rfl | ⟨z, hz, rfl⟩
  · exact ⟨by simp, by simp⟩
  · refine ⟨by simp, fun c hc heq => hc ?_⟩
    rwa [← block.inj heq]

end Between

variable {q : FreeKVCacheBlockQueue} {ys zs : List Nat} {pre rest : List KVCacheBlock} {a b : KVCacheBlock}

theorem Between.path (hab : Between ys zs pre a b rest) (h : q.Represents (ys ++ zs)) :
    q.links.Path (pre ++ a :: b :: rest) := by
  have hpath := h.path
  rwa [← List.nil_append zs, hab.line_eq []] at hpath

theorem Between.follows (hab : Between ys zs pre a b rest) (h : q.Represents (ys ++ zs)) : q.links.Follows a b :=
  (hab.path h).follows

/-- What is connected in between two neighbours joins the queue there. -/
theorem Between.insert (hab : Between ys zs pre a b rest) (h : q.Represents (ys ++ zs)) (xs : List Nat)
    (hnodup : (ys ++ (xs ++ zs)).Nodup) :
    Represents ⟨(q.links.connectAll a (xs.map block)).1.connect (q.links.connectAll a (xs.map block)).2 b,
      q.numFreeBlocks + (xs.map block).length⟩ (ys ++ (xs ++ zs)) := by
  have hline := line_nodup hnodup
  rw [hab.line_eq] at hline
  obtain ⟨hpath, hnext, hprev⟩ := (hab.path h).insert hline
  refine ⟨by rwa [hab.line_eq], hnodup, ?_, fun c hc => ?_, ?_, ?_⟩
  · simp [h.count]
    omega
  · simp only [List.mem_append, not_or] at hc
    obtain ⟨hys, hxs, hzs⟩ := hc
    obtain ⟨hp, hn⟩ := h.loose c (by simp [hys, hzs])
    have ha := (hab.left_ne.2 c hys).symm
    have hb := (hab.right_ne.2 c hzs).symm
    exact ⟨(hprev _ (by simp [hxs, hb])).trans hp, (hnext _ (by simp [hxs, ha])).trans hn⟩
  · exact (hprev _ (by simp [hab.right_ne.1.symm])).trans h.first
  · exact (hnext _ (by simp [hab.left_ne.1.symm])).trans h.last

theorem Between.neighbours {x : Nat} (hab : Between ys zs pre a b rest) (h : q.Represents (ys ++ x :: zs)) :
    q.links.Follows a (block x) ∧ q.links.Follows (block x) b := by
  have hpath : q.links.Path (pre ++ a :: block x :: b :: rest) := by
    have := h.path
    rwa [← List.singleton_append, hab.line_eq [x]] at this
  refine ⟨hpath.follows, ?_⟩
  rw [List.append_cons] at hpath
  exact hpath.follows

/-- A block whose neighbours are connected over it leaves the queue. -/
theorem Between.takeOut {x : Nat} (hab : Between ys zs pre a b rest) (h : q.Represents (ys ++ x :: zs)) :
    Represents ⟨(q.links.connect a b).clear (block x), q.numFreeBlocks - 1⟩ (ys ++ zs) := by
  have hline := line_nodup h.nodup
  have hpath := h.path
  rw [← List.singleton_append, hab.line_eq [x]] at hline hpath
  have hleft : line (ys ++ zs) = pre ++ a :: b :: rest := hab.line_eq []
  obtain ⟨hnodup, hx⟩ : (ys ++ zs).Nodup ∧ x ∉ ys ++ zs := by
    have := List.nodup_middle.mp h.nodup
    exact ⟨(List.nodup_cons.mp this).2, (List.nodup_cons.mp this).1⟩
  refine ⟨by rw [hleft]; exact hpath.remove hline, hnodup, ?_, fun c hc => ?_, ?_, ?_⟩
  · simp [h.count]
    omega
  · by_cases hcx : c = x
    · rw [hcx]
      simp
    · have hne : block c ≠ block x := fun heq => hcx (block.inj heq)
      simp only [List.mem_append, not_or] at hc
      rw [Links.clear_prev_of_ne hne, Links.clear_next_of_ne hne, Links.connect_prev_of_ne (hab.right_ne.2 c hc.2).symm,
        Links.connect_next_of_ne (hab.left_ne.2 c hc.1).symm]
      exact h.loose c (by simp [hc, hcx])
  · have hne : fakeFreeListHead ≠ block x := by simp
    rw [Links.clear_prev_of_ne hne, Links.connect_prev_of_ne hab.right_ne.1.symm]
    exact h.first
  · have hne : fakeFreeListTail ≠ block x := by simp
    rw [Links.clear_next_of_ne hne, Links.connect_next_of_ne hab.left_ne.1.symm]
    exact h.last

end Representation

section Operations

variable {q : FreeKVCacheBlockQueue} {xs ys zs : List Nat}

/-- The loop of `__init__` writes the fields that connecting one block after the other does. -/
theorem linkConsecutive_eq (l : Links KVCacheBlock) (first second : KVCacheBlock) (rest : List KVCacheBlock) :
    linkConsecutive (l.setNext first (some second)) (some first) (second :: rest) =
      (l.connectAll first (second :: rest)).1 := by
  induction rest generalizing l first second with
  | nil => rfl
  | cons third rest ih => exact ih (l.connect first second) second third

theorem linkConsecutive_blank (first : KVCacheBlock) (rest : List KVCacheBlock) :
    linkConsecutive .blank none (first :: rest) = (Links.connectAll .blank first rest).1 := by
  cases rest with
  | nil => rfl
  | cons second rest => exact linkConsecutive_eq .blank first second rest

theorem represents_init (h : xs.Nodup) : (init (xs.map block)).Represents xs := by
  cases xs with
  | nil =>
      refine ⟨?_, h, rfl, fun _ _ => ⟨rfl, rfl⟩, rfl, rfl⟩
      exact List.isChain_pair.mpr (Links.follows_connect _ _ _)
  | cons x rest =>
      have hblocks : (block x :: rest.map block).Nodup := h.map block_injective
      have hline : (fakeFreeListHead :: ((block x :: rest.map block) ++ [fakeFreeListTail])).Nodup := line_nodup h
      have hsingle : (Links.blank : Links KVCacheBlock).Path ([] ++ [block x]) := List.isChain_singleton _
      obtain ⟨hpath, hlast, hnext, hprev⟩ := hsingle.connectAll hblocks
      have hinit : init ((x :: rest).map block) = ⟨((Links.connectAll .blank (block x) (rest.map block)).1.connect
          fakeFreeListHead (block x)).connect (Links.connectAll .blank (block x) (rest.map block)).2 fakeFreeListTail,
          ((x :: rest).map block).length⟩ := by
        rw [List.map_cons, init, linkConsecutive_blank, hlast]
        rfl
      have hmem := List.mem_of_getLast? hlast
      obtain ⟨front, hfront⟩ := List.getLast?_eq_some_iff.mp hlast
      rw [hinit]
      generalize (Links.connectAll .blank (block x) (rest.map block)).1 = made,
        (Links.connectAll .blank (block x) (rest.map block)).2 = last at *
      have hstart : made.Path ([] ++ [fakeFreeListHead]) := List.isChain_singleton _
      have hheaded := hstart.connect hpath (hline.sublist (by simp))
      have hprevNone : ∀ n, n ≠ fakeFreeListTail → n ∉ block x :: rest.map block →
          ((made.connect fakeFreeListHead (block x)).connect last fakeFreeListTail).prev n = none := by
        intro n hn hout
        rw [List.mem_cons, not_or] at hout
        rw [Links.connect_prev_of_ne hn, Links.connect_prev_of_ne hout.1]
        exact hprev n hout.2
      have hnextNone : ∀ n, n ≠ fakeFreeListHead → n ∉ block x :: rest.map block →
          ((made.connect fakeFreeListHead (block x)).connect last fakeFreeListTail).next n = none := by
        intro n hn hout
        have hlastNe : n ≠ last := fun heq => hout (heq ▸ hmem)
        rw [Links.connect_next_of_ne hlastNe, Links.connect_next_of_ne hn]
        exact hnext n fun hin => hout (List.dropLast_subset _ hin)
      refine ⟨?_, h, by simp, fun c hc => ?_, hprevNone _ (by simp) (by simp), hnextNone _ (by simp) (by simp)⟩
      · rw [List.nil_append, hfront, ← List.cons_append] at hheaded
        have hjoined := hheaded.connect (List.isChain_singleton fakeFreeListTail)
        rw [line, List.map_cons, hfront, List.append_assoc, ← List.cons_append]
        apply hjoined
        rw [hfront, List.append_assoc, ← List.cons_append] at hline
        exact hline
      · have hout : block c ∉ (x :: rest).map block := by
          rwa [List.mem_map_of_injective block_injective]
        exact ⟨hprevNone _ (by simp) hout, hnextNone _ (by simp) hout⟩

theorem between_head (zs : List Nat) : ∃ b rest, Between [] zs [] fakeFreeListHead b rest := by
  cases zs with
  | nil => exact ⟨fakeFreeListTail, [], ⟨rfl, rfl⟩⟩
  | cons z zs => exact ⟨block z, zs.map block ++ [fakeFreeListTail], ⟨rfl, rfl⟩⟩

theorem popleft_nil (h : q.Represents []) :
    Eff.wp popleft (fun _ _ => False) (fun e q' => e = .noFreeBlocksAvailable ∧ q' = q) q := by
  have hab : Between [] [] [] fakeFreeListHead fakeFreeListTail [] := ⟨rfl, rfl⟩
  have hcount : q.numFreeBlocks = 0 := h.count
  simp only [popleft, Eff.wp_bind, Eff.wp_read, (hab.follows h).1, if_true, hcount]
  exact ⟨rfl, rfl⟩

theorem popleft_cons {x : Nat} (h : q.Represents (x :: xs)) :
    Eff.wp popleft (fun blk q' => blk = block x ∧ q'.Represents xs) (fun _ _ => False) q := by
  obtain ⟨b, rest, hab⟩ := between_head xs
  obtain ⟨hfirst, hsecond⟩ := hab.neighbours h
  simp only [popleft, Eff.wp_bind, Eff.wp_read, hfirst.1, hsecond.1, reduceCtorEq, if_false, Eff.wp_modify, Eff.wp_pure,
    true_and]
  exact hab.takeOut h

/-- The loop passes the blocks `ys` and ends at the node after them. -/
theorem popLoop_spec {b : KVCacheBlock} {rest : List KVCacheBlock} (hpath : q.links.Path (ys.map block ++ b :: rest))
    (hnodup : (ys.map block ++ b :: rest).Nodup) :
    Eff.wp (popLoop ys.length (ys.map block ++ b :: rest).head?)
      (fun r q' => r = (ys.map block, some b) ∧ q' = { q with links := q.links.clearAll (ys.map block) })
      (fun _ _ => False) q := by
  induction ys generalizing q with
  | nil => exact ⟨rfl, rfl⟩
  | cons y ys ih =>
      obtain ⟨c, tail, hc⟩ := List.exists_cons_of_ne_nil
        (List.append_ne_nil_of_right_ne_nil (ys.map block) (List.cons_ne_nil b rest))
      rw [List.map_cons, List.cons_append] at hpath hnodup
      obtain ⟨hy, hrest⟩ := List.nodup_cons.mp hnodup
      have hnext : q.links.next (block y) = (ys.map block ++ b :: rest).head? := by
        rw [hc] at hpath ⊢
        exact (List.isChain_cons_cons.mp hpath).1.1
      have htail : q.links.Path (ys.map block ++ b :: rest) := (List.isChain_cons.mp hpath).2
      rw [List.map_cons, List.cons_append, List.head?_cons, List.length_cons, popLoop]
      simp only [Eff.wp_bind, Eff.wp_read, Eff.wp_modify, Eff.wp_pure, hnext]
      refine Eff.wp_mono (ih (q := { q with links := q.links.clear (block y) }) (htail.clear hy) hrest) ?_
        (fun _ _ h => h)
      rintro r q' ⟨rfl, rfl⟩
      exact ⟨rfl, rfl⟩

/-- Once the blocks in front are off the list, the head is connected to the first that stays. -/
theorem Represents.dropFront {b : KVCacheBlock} {rest : List KVCacheBlock} (h : q.Represents (ys ++ zs))
    (hab : Between [] zs [] fakeFreeListHead b rest) :
    Represents ⟨(q.links.clearAll (ys.map block)).connect fakeFreeListHead b, q.numFreeBlocks - ys.length⟩ zs := by
  have hline := line_nodup h.nodup
  obtain ⟨-, hzs, hdisjoint⟩ := List.nodup_append.mp h.nodup
  have hright : zs.map block ++ [fakeFreeListTail] = b :: rest := hab.right
  have hzsLine : line zs = fakeFreeListHead :: b :: rest := hab.line_eq []
  have hblocks : ∀ n ∈ b :: rest, n ∉ ys.map block := by
    rw [← hright]
    simp only [List.mem_append, List.mem_map, List.mem_singleton]
    rintro n (⟨z, hz, rfl⟩ | rfl) ⟨y, hy, heq⟩
    · exact hdisjoint y hy z hz (block.inj heq)
    · cases heq
  have htail : q.links.Path (b :: rest) := by
    have hpath : q.links.Path ((fakeFreeListHead :: ys.map block) ++ b :: rest) := by
      have := h.path
      rwa [line, List.map_append, List.append_assoc, hright, ← List.cons_append] at this
    exact hpath.right
  refine ⟨?_, hzs, ?_, fun c hc => ?_, ?_, ?_⟩
  · rw [hzsLine]
    have hstart : (q.links.clearAll (ys.map block)).Path ([] ++ [fakeFreeListHead]) := List.isChain_singleton _
    exact hstart.connect (htail.clearAll hblocks) (hzsLine ▸ line_nodup hzs)
  · show q.numFreeBlocks - ys.length = zs.length
    rw [h.count, List.length_append]
    omega
  · have hb := (hab.right_ne.2 c hc).symm
    have hhead : block c ≠ fakeFreeListHead := by simp
    rw [Links.connect_prev_of_ne hb, Links.connect_next_of_ne hhead, Links.clearAll_prev, Links.clearAll_next]
    by_cases hys : c ∈ ys
    · rw [if_pos (List.mem_map_of_mem hys), if_pos (List.mem_map_of_mem hys)]
      exact ⟨rfl, rfl⟩
    · have hout : block c ∉ ys.map block := by rwa [List.mem_map_of_injective block_injective]
      rw [if_neg hout, if_neg hout]
      exact h.loose c (by simp [hys, hc])
  · rw [Links.connect_prev_of_ne hab.right_ne.1.symm, Links.clearAll_prev, if_neg (by simp)]
    exact h.first
  · have hhead : fakeFreeListTail ≠ fakeFreeListHead := by simp
    rw [Links.connect_next_of_ne hhead, Links.clearAll_next, if_neg (by simp)]
    exact h.last

theorem popleftN_spec (h : q.Represents (ys ++ zs)) :
    Eff.wp (popleftN ys.length) (fun ret q' => ret = ys.map block ∧ q'.Represents zs) (fun _ _ => False) q := by
  cases ys with
  | nil => exact ⟨rfl, h⟩
  | cons y ys =>
      obtain ⟨b, rest, hab⟩ := between_head zs
      have hline := line_nodup h.nodup
      have hpath := h.path
      have hsplit : line (y :: ys ++ zs) = fakeFreeListHead :: ((y :: ys).map block ++ b :: rest) := by
        rw [line, List.map_append, List.append_assoc, hab.right]
      rw [hsplit] at hline hpath
      have hcount : ¬q.numFreeBlocks < ((y :: ys).length : Nat) := by
        rw [h.count, List.length_append]
        omega
      have hnext : q.links.next fakeFreeListHead = ((y :: ys).map block ++ b :: rest).head? :=
        (List.isChain_cons_cons.mp hpath).1.1
      simp only [popleftN, List.length_cons, Nat.add_one_ne_zero, if_false, Eff.wp_bind, Eff.wp_read]
      rw [← List.length_cons, if_neg hcount, hnext]
      simp only [Eff.wp_bind, Eff.wp_modify]
      refine Eff.wp_mono (popLoop_spec (List.isChain_cons.mp hpath).2 (List.nodup_cons.mp hline).2) ?_ fun _ _ hf => hf
      rintro r q' ⟨rfl, rfl⟩
      simp only [Eff.wp_bind, Eff.wp_modify, Eff.wp_pure, true_and]
      exact h.dropFront hab

theorem remove_mem {x : Nat} (h : q.Represents xs) (hx : x ∈ xs) :
    Eff.wp (remove (block x)) (fun _ q' => q'.Represents (xs.erase x)) (fun _ _ => False) q := by
  obtain ⟨ys, zs, rfl⟩ := List.append_of_mem hx
  obtain ⟨pre, a, b, rest, hab⟩ := exists_between ys zs
  obtain ⟨hleft, hright⟩ := hab.neighbours h
  have hys : x ∉ ys := fun hin => (List.nodup_append.mp h.nodup).2.2 x hin x List.mem_cons_self rfl
  simp only [remove, Eff.wp_bind, Eff.wp_read, hleft.2, hright.1, Eff.wp_modify]
  rw [List.erase_append_right _ hys, List.erase_cons_head]
  exact hab.takeOut h

theorem remove_notMem {x : Nat} (h : q.Represents xs) (hx : x ∉ xs) :
    Eff.wp (remove (block x)) (fun _ _ => False) (fun e q' => e = .invalidBlock (block x) ∧ q' = q) q := by
  simp only [remove, Eff.wp_bind, Eff.wp_read, (h.loose x hx).1]
  exact ⟨rfl, rfl⟩

/-- A list whose last block was reached through the tail. -/
theorem between_tail (ys : List Nat) : ∃ pre a, Between ys [] pre a fakeFreeListTail [] := by
  obtain ⟨pre, a, b, rest, hab⟩ := exists_between ys []
  obtain ⟨rfl, rfl⟩ : fakeFreeListTail = b ∧ [] = rest := List.cons.inj hab.right
  exact ⟨pre, a, hab⟩

theorem append_spec {x : Nat} (h : q.Represents xs) (hx : x ∉ xs) :
    Eff.wp (append (block x)) (fun _ q' => q'.Represents (xs ++ [x])) (fun _ _ => False) q := by
  obtain ⟨pre, a, hab⟩ := between_tail xs
  have hnodup : (xs ++ [x]).Nodup := List.concat_eq_append ▸ h.nodup.concat hx
  rw [← List.append_nil xs] at h
  simp only [append, Eff.wp_bind, Eff.wp_read, (hab.follows h).2, Eff.wp_modify]
  exact hab.insert h [x] hnodup

theorem prependN_spec (h : q.Represents xs) (hnodup : (ys ++ xs).Nodup) :
    Eff.wp (prependN (ys.map block)) (fun _ q' => q'.Represents (ys ++ xs)) (fun _ _ => False) q := by
  obtain ⟨b, rest, hab⟩ := between_head xs
  by_cases hys : ys = []
  · subst hys
    exact h
  · have hlen : ¬(ys.map block).length = 0 := by simpa using hys
    simp only [prependN, hlen, if_false, Eff.wp_bind, Eff.wp_read, (hab.follows h).1, Eff.wp_modify]
    exact hab.insert h ys hnodup

theorem appendN_spec (h : q.Represents xs) (hnodup : (xs ++ ys).Nodup) :
    Eff.wp (appendN (ys.map block)) (fun _ q' => q'.Represents (xs ++ ys)) (fun _ _ => False) q := by
  obtain ⟨pre, a, hab⟩ := between_tail xs
  by_cases hys : ys = []
  · subst hys
    rw [List.append_nil]
    exact h
  · rw [← List.append_nil xs] at h
    have hlen : ¬(ys.map block).length = 0 := by simpa using hys
    simp only [appendN, hlen, if_false, Eff.wp_bind, Eff.wp_read, (hab.follows h).2, Eff.wp_modify]
    have hinserted := hab.insert h ys (by rwa [List.append_nil])
    rwa [List.append_nil] at hinserted

theorem walk_spec {l : Links KVCacheBlock} {b : KVCacheBlock} {rest : List KVCacheBlock}
    (hab : zs.map block ++ [fakeFreeListTail] = b :: rest) (hpath : l.Path (b :: rest))
    (hlast : l.next fakeFreeListTail = none) {fuel : Nat} (hfuel : zs.length < fuel) :
    walk l fuel b = some (zs.map block) := by
  induction zs generalizing b rest fuel with
  | nil =>
      obtain ⟨rfl, -⟩ := List.cons.inj hab
      obtain ⟨fuel, rfl⟩ := Nat.exists_eq_succ_of_ne_zero (Nat.ne_of_gt hfuel)
      rw [walk, hlast]
      rfl
  | cons z zs ih =>
      obtain ⟨rfl, htail⟩ := List.cons.inj hab
      obtain ⟨fuel, rfl⟩ := Nat.exists_eq_succ_of_ne_zero (Nat.ne_of_gt (Nat.zero_lt_of_lt hfuel))
      obtain ⟨c, rest', hc⟩ := List.exists_cons_of_ne_nil
        (List.append_ne_nil_of_right_ne_nil (zs.map block) (List.cons_ne_nil fakeFreeListTail []))
      rw [← htail, List.append_eq, hc] at hpath
      obtain ⟨hnext, hrest⟩ := List.isChain_cons_cons.mp hpath
      rw [walk, hnext.1]
      dsimp only
      rw [ih hc hrest (by simpa using hfuel)]
      rfl

/-- Reading the list back. -/
theorem getAllFreeBlocks_eq (h : q.Represents xs) {fuel : Nat} (hfuel : xs.length < fuel) :
    q.getAllFreeBlocks fuel = .ok (some (xs.map block)) := by
  obtain ⟨b, rest, hab⟩ := between_head xs
  have hpath : q.links.Path ([fakeFreeListHead] ++ b :: rest) := hab.path h
  rw [getAllFreeBlocks, (hab.follows h).1]
  dsimp only
  rw [walk_spec hab.right hpath.right h.last hfuel]

end Operations

section Runs

inductive QueueOp where
  | popleft
  | popleftN (n : Nat)
  | remove (blockId : Nat)
  | append (blockId : Nat)
  | prependN (blockIds : List Nat)
  | appendN (blockIds : List Nat)

/-- The operation on the linked list, with the blocks it returns. -/
def perform : QueueOp → QueueM (List KVCacheBlock)
  | .popleft => (fun blk => [blk]) <$> popleft
  | .popleftN n => popleftN n
  | .remove x => (fun _ => []) <$> remove (block x)
  | .append x => (fun _ => []) <$> append (block x)
  | .prependN ys => (fun _ => []) <$> prependN (ys.map block)
  | .appendN ys => (fun _ => []) <$> appendN (ys.map block)

/-- What the operation is for, on a plain list. -/
def performPlain (xs : List Nat) : QueueOp → Except BlockPoolError (List Nat) × List Nat
  | .popleft =>
      match xs with
      | [] => (.error .noFreeBlocksAvailable, [])
      | x :: rest => (.ok [x], rest)
  | .popleftN n => if xs.length < n then (.error .tooFewBlocks, xs) else (.ok (xs.take n), xs.drop n)
  | .remove x => if x ∈ xs then (.ok [], xs.erase x) else (.error (.invalidBlock (block x)), xs)
  | .append x => (.ok [], xs ++ [x])
  | .prependN ys => (.ok [], ys ++ xs)
  | .appendN ys => (.ok [], xs ++ ys)

/-- A block joins the queue once. -/
def QueueOp.Legal (xs : List Nat) : QueueOp → Prop
  | .append x => x ∉ xs
  | .prependN ys => (ys ++ xs).Nodup
  | .appendN ys => (xs ++ ys).Nodup
  | _ => True

instance (xs : List Nat) : (op : QueueOp) → Decidable (op.Legal xs)
  | .append x => inferInstanceAs (Decidable (x ∉ xs))
  | .prependN ys => inferInstanceAs (Decidable (ys ++ xs).Nodup)
  | .appendN ys => inferInstanceAs (Decidable (xs ++ ys).Nodup)
  | .popleft => inferInstanceAs (Decidable True)
  | .popleftN _ => inferInstanceAs (Decidable True)
  | .remove _ => inferInstanceAs (Decidable True)

variable {q : FreeKVCacheBlockQueue} {xs : List Nat}

/-- The linked list does what the plain list does, in its result and in the list it then stands for. -/
theorem Represents.perform (h : q.Represents xs) {op : QueueOp} (hop : op.Legal xs) :
    (FreeKVCacheBlockQueue.perform op q).1 = (performPlain xs op).1.map (List.map block) ∧
      (FreeKVCacheBlockQueue.perform op q).2.Represents (performPlain xs op).2 := by
  let R : Except BlockPoolError (List KVCacheBlock) × FreeKVCacheBlockQueue → Prop := fun r =>
    r.1 = (performPlain xs op).1.map (List.map block) ∧ r.2.Represents (performPlain xs op).2
  refine (Eff.wp_result (R := R)).mp ?_
  cases op with
  | popleft =>
      rw [FreeKVCacheBlockQueue.perform, Eff.wp_map]
      cases xs with
      | nil =>
          refine Eff.wp_mono (popleft_nil h) (fun _ _ hf => hf.elim) ?_
          rintro e q' ⟨rfl, rfl⟩
          exact ⟨rfl, h⟩
      | cons x rest =>
          refine Eff.wp_mono (popleft_cons h) ?_ fun _ _ hf => hf.elim
          rintro blk q' ⟨rfl, hq⟩
          exact ⟨rfl, hq⟩
  | popleftN n =>
      by_cases hn : xs.length < n
      · have hshort : q.numFreeBlocks < n := by
          rw [h.count]
          omega
        have hpos : n ≠ 0 := by omega
        simp only [FreeKVCacheBlockQueue.perform, popleftN, hpos, if_false, Eff.wp_bind, Eff.wp_read,
          hshort, if_true, R, performPlain, hn]
        exact ⟨rfl, h⟩
      · have hlen : (xs.take n).length = n := List.length_take_of_le (by omega)
        rw [← List.take_append_drop n xs] at h
        have hspec := popleftN_spec h
        rw [hlen] at hspec
        refine Eff.wp_mono hspec ?_ fun _ _ hf => hf.elim
        rintro ret q' ⟨rfl, hq⟩
        simp only [R, performPlain, hn, if_false]
        exact ⟨rfl, hq⟩
  | remove x =>
      rw [FreeKVCacheBlockQueue.perform, Eff.wp_map]
      by_cases hx : x ∈ xs
      · refine Eff.wp_mono (remove_mem h hx) (fun _ q' hq => ?_) fun _ _ hf => hf.elim
        simp only [R, performPlain, hx, if_true]
        exact ⟨rfl, hq⟩
      · refine Eff.wp_mono (remove_notMem h hx) (fun _ _ hf => hf.elim) ?_
        rintro e q' ⟨rfl, rfl⟩
        simp only [R, performPlain, hx, if_false]
        exact ⟨rfl, h⟩
  | append x =>
      rw [FreeKVCacheBlockQueue.perform, Eff.wp_map]
      exact Eff.wp_mono (append_spec h hop) (fun _ _ hq => ⟨rfl, hq⟩) fun _ _ hf => hf.elim
  | prependN ys =>
      rw [FreeKVCacheBlockQueue.perform, Eff.wp_map]
      exact Eff.wp_mono (prependN_spec h hop) (fun _ _ hq => ⟨rfl, hq⟩) fun _ _ hf => hf.elim
  | appendN ys =>
      rw [FreeKVCacheBlockQueue.perform, Eff.wp_map]
      exact Eff.wp_mono (appendN_spec h hop) (fun _ _ hq => ⟨rfl, hq⟩) fun _ _ hf => hf.elim

/-- The queue with the results of the operations so far. -/
def linkedStep (s : FreeKVCacheBlockQueue × List (Except BlockPoolError (List KVCacheBlock))) (op : QueueOp) :
    FreeKVCacheBlockQueue × List (Except BlockPoolError (List KVCacheBlock)) :=
  let r := FreeKVCacheBlockQueue.perform op s.1
  (r.2, s.2 ++ [r.1])

def plainStep (s : List Nat × List (Except BlockPoolError (List Nat))) (op : QueueOp) :
    List Nat × List (Except BlockPoolError (List Nat)) :=
  let r := performPlain s.1 op
  (r.2, s.2 ++ [r.1])

theorem Represents.run {results : List (Except BlockPoolError (List Nat))} {ops : List QueueOp} (h : q.Represents xs)
    (hops : Along plainStep (fun s op => op.Legal s.1) (xs, results) ops) :
    (Base.run linkedStep (q, results.map (Except.map (List.map block))) ops).1.Represents
        (Base.run plainStep (xs, results) ops).1 ∧
      (Base.run linkedStep (q, results.map (Except.map (List.map block))) ops).2 =
        (Base.run plainStep (xs, results) ops).2.map (Except.map (List.map block)) := by
  induction ops generalizing q xs results with
  | nil => exact ⟨h, rfl⟩
  | cons op rest ih =>
      obtain ⟨hresult, hrepresents⟩ := h.perform hops.1
      have hlog : (linkedStep (q, results.map (Except.map (List.map block))) op) =
          ((FreeKVCacheBlockQueue.perform op q).2,
            (results ++ [(performPlain xs op).1]).map (Except.map (List.map block))) := by
        rw [List.map_append, List.map_singleton, ← hresult]
        rfl
      rw [run_cons, run_cons, hlog]
      exact ih hrepresents hops.2

/-- Whatever is done with the queue, as long as no block joins it twice: every operation returns or raises
what it would on a plain list of blocks, and the counter and `get_all_free_blocks` agree with that list. -/
theorem freeQueue_refines_list (blocks : List Nat) (hblocks : blocks.Nodup) (ops : List QueueOp)
    (hops : Along plainStep (fun s op => op.Legal s.1) (blocks, []) ops) (fuel : Nat)
    (hfuel : (Base.run plainStep (blocks, []) ops).1.length < fuel) :
    let linked := Base.run linkedStep (init (blocks.map block), []) ops
    let plain := Base.run plainStep (blocks, []) ops
    linked.2 = plain.2.map (Except.map (List.map block)) ∧ linked.1.numFreeBlocks = plain.1.length ∧
      linked.1.getAllFreeBlocks fuel = .ok (some (plain.1.map block)) := by
  intro linked plain
  obtain ⟨hrepresents, hresults⟩ := (represents_init hblocks).run hops
  exact ⟨hresults, hrepresents.count, getAllFreeBlocks_eq hrepresents hfuel⟩

/-- Blocks leave at the front and in the middle and come back at both ends; two calls raise. -/
def queueScenario : List QueueOp :=
  [.popleft, .popleftN 2, .remove 4, .remove 4, .prependN [2, 1], .appendN [4, 0], .popleftN 9, .popleftN 3]

theorem freeQueue_refines_list_scenario :
    let linked := Base.run linkedStep (init ((List.range 6).map block), []) queueScenario
    linked.1.numFreeBlocks = 3 ∧ linked.1.getAllFreeBlocks 4 = .ok (some [block 5, block 4, block 0]) ∧
      linked.2.getLast? = some (.ok [block 2, block 1, block 3]) := by
  intro linked
  obtain ⟨hresults, hcount, hall⟩ :=
    freeQueue_refines_list (List.range 6) (by decide) queueScenario (by decide) 4 (by decide)
  exact ⟨hcount, hall, (congrArg List.getLast? hresults).trans rfl⟩

end Runs

end FreeKVCacheBlockQueue
end KVOffload

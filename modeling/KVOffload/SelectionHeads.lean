import KVOffload.SelectionAdapter

/-! The valid lengths of the heads. `sparse_len` holds a length for each head of each row, and the
blocks a batch needs are those of each head's own positions. `collect_needed_block_refs` reads the
length of the first head and cuts every head of the row there. -/

namespace KVOffload
open Base

/-- `sparse_idx[b, h]` and `sparse_len[b, h, 0]`. -/
structure HeadSelection where
  positions : List Int
  len : Int
  deriving DecidableEq, Repr

/-- `sparse_idx` of shape `[B, Hq, S]` and `sparse_len` of shape `[B, Hq, 1]`. -/
structure HeadPattern where
  numHeads : Nat
  width : Nat
  rows : List (List HeadSelection)
  shape : ∀ row ∈ rows, row.length = numHeads ∧ ∀ head ∈ row, head.positions.length = width

/-- `sparse_len[b, 0, 0]`, which is read only if there is a head. -/
def firstLen (row : List HeadSelection) : Int := (row.head?.map (·.len)).getD 0

namespace HeadPattern

variable (p : HeadPattern)

/-- What `collect_needed_block_refs` reads of the two tensors. -/
def toSparsePattern : SparsePattern where
  numHeads := p.numHeads
  width := p.width
  rows := p.rows.map fun row => ⟨row.map (·.positions), firstLen row⟩
  shape := by
    intro row hrow
    obtain ⟨heads, hheads, rfl⟩ := List.mem_map.mp hrow
    obtain ⟨hnum, hwidth⟩ := p.shape heads hheads
    refine ⟨(List.length_map _).trans hnum, fun head hhead => ?_⟩
    obtain ⟨selection, hselection, rfl⟩ := List.mem_map.mp hhead
    exact hwidth selection hselection

/-- `clamp(0, S)`. -/
def clamp (len : Int) : Nat := min len.toNat p.width

end HeadPattern

/-- The blocks of the positions before `len head` of each head. -/
def blocksBefore (pageSize : Nat) (len : HeadSelection → Nat) (row : List HeadSelection) : List Int :=
  row.flatMap fun head => (head.positions.take (len head)).map (· / (pageSize : Int))

/-- The blocks of every row under the id of its request. -/
def refsOfRows (blocks : List HeadSelection → List Int) (entries : List (RequestId × List HeadSelection)) :
    List BlockRef :=
  entries.flatMap fun e => (blocks e.2).map fun i => ⟨e.1, i⟩

/-- The per-head definition: the blocks of each head's own valid positions. -/
def HeadPattern.neededBlockRefs (p : HeadPattern) (requestIds : List RequestId) (pageSize : Nat) : List BlockRef :=
  refsOfRows (blocksBefore pageSize fun head => p.clamp head.len) (requestIds.zip p.rows)

/-- Where a head's length differs from that of the first head, the positions between the two lengths
name only blocks that the row needs, and that the cut at the first length finds, elsewhere. -/
def HeadPattern.RowCovered (p : HeadPattern) (pageSize : Nat) (row : List HeadSelection) : Prop :=
  (∀ head ∈ row, ∀ i ∈ (head.positions.take (p.clamp head.len)).drop (p.clamp (firstLen row)),
      i / (pageSize : Int) ∈ blocksBefore pageSize (fun _ => p.clamp (firstLen row)) row) ∧
    ∀ head ∈ row, ∀ i ∈ (head.positions.take (p.clamp (firstLen row))).drop (p.clamp head.len),
      i / (pageSize : Int) ∈ blocksBefore pageSize (fun head => p.clamp head.len) row

section

variable {pageSize : Nat} {p : HeadPattern} {requestIds : List RequestId}

theorem mem_blocksBefore {len : HeadSelection → Nat} {row : List HeadSelection} {k : Int} :
    k ∈ blocksBefore pageSize len row ↔ ∃ head ∈ row, ∃ i ∈ head.positions.take (len head),
      i / (pageSize : Int) = k := by
  simp only [blocksBefore, List.mem_flatMap, List.mem_map]

/-- One choice of lengths covers another exactly if it covers the positions that only the other keeps. -/
theorem blocksBefore_subset_iff {len len' : HeadSelection → Nat} {row : List HeadSelection} :
    blocksBefore pageSize len row ⊆ blocksBefore pageSize len' row ↔
      ∀ head ∈ row, ∀ i ∈ (head.positions.take (len head)).drop (len' head),
        i / (pageSize : Int) ∈ blocksBefore pageSize len' row := by
  constructor
  · intro hsub head hhead i hi
    exact hsub (mem_blocksBefore.mpr ⟨head, hhead, i, List.mem_of_mem_drop hi, rfl⟩)
  · intro hcover k hk
    obtain ⟨head, hhead, i, hi, rfl⟩ := mem_blocksBefore.mp hk
    rw [← List.take_append_drop (len' head) (head.positions.take (len head)), List.mem_append] at hi
    rcases hi with hboth | honly
    · rw [List.take_take, min_comm, ← List.take_take] at hboth
      exact mem_blocksBefore.mpr ⟨head, hhead, i, List.mem_of_mem_take hboth, rfl⟩
    · exact hcover head hhead i honly

theorem rowCovered_iff {row : List HeadSelection} :
    p.RowCovered pageSize row ↔ ∀ k, k ∈ blocksBefore pageSize (fun _ => p.clamp (firstLen row)) row ↔
      k ∈ blocksBefore pageSize (fun head => p.clamp head.len) row := by
  rw [HeadPattern.RowCovered, ← blocksBefore_subset_iff, ← blocksBefore_subset_iff]
  constructor
  · rintro ⟨hown, hfirst⟩ k
    exact ⟨fun hk => hfirst hk, fun hk => hown hk⟩
  · intro hsame
    exact ⟨fun k hk => (hsame k).mpr hk, fun k hk => (hsame k).mp hk⟩

/-- The cut at one length, as the code computes it on the device. -/
theorem mem_blocks {row : List HeadSelection} {n : Nat} {k : Int} :
    k ∈ SparseRow.blocks ⟨row.map (·.positions), firstLen row⟩ pageSize n ↔
      k ∈ blocksBefore pageSize (fun _ => n) row := by
  rw [SparseRow.mem_blocks, mem_blocksBefore]
  simp only [List.mem_map]
  constructor
  · rintro ⟨_, ⟨head, hhead, rfl⟩, i, hi, rfl⟩
    exact ⟨head, hhead, i, hi, rfl⟩
  · rintro ⟨head, hhead, i, hi, rfl⟩
    exact ⟨_, ⟨head, hhead, rfl⟩, i, hi, rfl⟩

theorem mem_refsOfRows {blocks : List HeadSelection → List Int} {entries : List (RequestId × List HeadSelection)}
    {ref : BlockRef} :
    ref ∈ refsOfRows blocks entries ↔ ∃ row, (ref.requestId, row) ∈ entries ∧ ref.blockIdx ∈ blocks row := by
  simp only [refsOfRows, List.mem_flatMap, List.mem_map]
  constructor
  · rintro ⟨⟨r, row⟩, he, k, hk, rfl⟩
    exact ⟨row, he, hk⟩
  · rintro ⟨row, he, hk⟩
    exact ⟨(ref.requestId, row), he, ref.blockIdx, hk, rfl⟩

/-- For distinct requests, two listings have the same blocks exactly if they agree row by row. -/
theorem refsOfRows_same_iff {entries : List (RequestId × List HeadSelection)} (hids : (entries.map Prod.fst).Nodup)
    {blocks blocks' : List HeadSelection → List Int} :
    (∀ ref, ref ∈ refsOfRows blocks entries ↔ ref ∈ refsOfRows blocks' entries) ↔
      ∀ e ∈ entries, ∀ k, k ∈ blocks e.2 ↔ k ∈ blocks' e.2 := by
  constructor
  · intro hsame e he k
    have hrow : ∀ listed : List HeadSelection → List Int,
        (⟨e.1, k⟩ : BlockRef) ∈ refsOfRows listed entries ↔ k ∈ listed e.2 := by
      intro listed
      rw [mem_refsOfRows]
      constructor
      · rintro ⟨row, hrow, hk⟩
        have heq : (e.1, row) = e := List.inj_on_of_nodup_map hids hrow he rfl
        rwa [← heq]
      · intro hk
        exact ⟨e.2, he, hk⟩
    rw [← hrow, ← hrow]
    exact hsame _
  · intro hsame ref
    rw [mem_refsOfRows, mem_refsOfRows]
    apply exists_congr
    intro row
    exact and_congr_right fun he => hsame _ he ref.blockIdx

/-- The blocks the code lists: every head of a row is cut at the length of the first. -/
theorem collectNeededBlockRefs_eq (pageSize : Nat) (hlen : requestIds.length = p.rows.length) :
    ∃ refs, collectNeededBlockRefs requestIds p.toSparsePattern pageSize = .ok refs ∧ refs.Nodup ∧
      ∀ ref, ref ∈ refs ↔
        ref ∈ refsOfRows (fun row => blocksBefore pageSize (fun _ => p.clamp (firstLen row)) row)
          (requestIds.zip p.rows) := by
  have hrows : requestIds.length = p.toSparsePattern.rows.length := hlen.trans (List.length_map _).symm
  refine ⟨_, if_neg (not_not.mpr hrows), OrderedDict.nodup _, fun ref => ?_⟩
  rw [OrderedDict.mem_keys_fromKeys, mem_refsOfRows, List.mem_flatMap]
  simp only [HeadPattern.toSparsePattern, List.zip_map_right, List.mem_map]
  constructor
  · rintro ⟨_, ⟨e, he, rfl⟩, k, hk, rfl⟩
    exact ⟨e.2, he, mem_blocks.mp hk⟩
  · rintro ⟨row, he, hk⟩
    exact ⟨_, ⟨_, he, rfl⟩, ref.blockIdx, mem_blocks.mpr hk, rfl⟩

end

/-- For a batch of distinct requests, the vectorised listing is that of the per-head loop exactly if
the positions between unequal lengths name only blocks that the row lists anyway. -/
theorem collectNeededBlockRefs_perHead_iff {requestIds : List RequestId} (hids : requestIds.Nodup) {p : HeadPattern}
    (hlen : requestIds.length = p.rows.length) (pageSize : Nat) :
    (∃ refs, collectNeededBlockRefs requestIds p.toSparsePattern pageSize = .ok refs ∧ refs.Nodup ∧
        ∀ ref, ref ∈ refs ↔ ref ∈ p.neededBlockRefs requestIds pageSize) ↔
      ∀ row ∈ p.rows, p.RowCovered pageSize row := by
  obtain ⟨refs, hcollect, hnodup, hmem⟩ := collectNeededBlockRefs_eq pageSize hlen
  have hfst : (requestIds.zip p.rows).map Prod.fst = requestIds := List.map_fst_zip hlen.le
  have hsnd : (requestIds.zip p.rows).map Prod.snd = p.rows := List.map_snd_zip hlen.ge
  have hrows : (∀ ref, ref ∈ refs ↔ ref ∈ p.neededBlockRefs requestIds pageSize) ↔
      ∀ row ∈ p.rows, p.RowCovered pageSize row := by
    have hbatch : (∀ ref, ref ∈ refs ↔ ref ∈ p.neededBlockRefs requestIds pageSize) ↔
        ∀ e ∈ requestIds.zip p.rows, ∀ k, k ∈ blocksBefore pageSize (fun _ => p.clamp (firstLen e.2)) e.2 ↔
          k ∈ blocksBefore pageSize (fun head => p.clamp head.len) e.2 := by
      simp only [hmem, HeadPattern.neededBlockRefs]
      apply refsOfRows_same_iff
      rwa [hfst]
    calc (∀ ref, ref ∈ refs ↔ ref ∈ p.neededBlockRefs requestIds pageSize)
        ↔ ∀ e ∈ requestIds.zip p.rows, p.RowCovered pageSize e.2 := by simp only [hbatch, rowCovered_iff]
      _ ↔ ∀ row ∈ (requestIds.zip p.rows).map Prod.snd, p.RowCovered pageSize row := List.forall_mem_map.symm
      _ ↔ ∀ row ∈ p.rows, p.RowCovered pageSize row := by rw [hsnd]
  rw [← hrows]
  constructor
  · rintro ⟨refs', hcollect', -, hsame⟩
    obtain rfl : refs = refs' := Except.ok.inj (hcollect.symm.trans hcollect')
    exact hsame
  · intro hsame
    exact ⟨refs, hcollect, hnodup, hsame⟩

/-- Two heads of one row; the second keeps one position more than the first and needs block 1 for it. -/
def raggedPattern : HeadPattern := ⟨2, 2, [[⟨[0, 0], 1⟩, ⟨[0, 4], 2⟩]], by decide⟩

/-- As `raggedPattern`, but the extra position is in a block that the row needs anyway. -/
def coveredPattern : HeadPattern := ⟨2, 2, [[⟨[0, 0], 1⟩, ⟨[0, 1], 2⟩]], by decide⟩

theorem collectNeededBlockRefs_perHead_coveredPattern :
    ∃ refs, collectNeededBlockRefs [['r']] coveredPattern.toSparsePattern 4 = .ok refs ∧ refs.Nodup ∧
      ∀ ref, ref ∈ refs ↔ ref ∈ coveredPattern.neededBlockRefs [['r']] 4 :=
  (collectNeededBlockRefs_perHead_iff (by decide) rfl 4).mpr (by
    unfold HeadPattern.RowCovered
    decide)

/-- The block of the second head's last position is needed and not listed. -/
theorem collectNeededBlockRefs_misses_block :
    collectNeededBlockRefs [['r']] raggedPattern.toSparsePattern 4 = .ok [⟨['r'], 0⟩] ∧
      (⟨['r'], 1⟩ : BlockRef) ∈ raggedPattern.neededBlockRefs [['r']] 4 := by
  decide

end KVOffload

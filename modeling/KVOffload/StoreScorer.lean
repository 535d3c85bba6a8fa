import KVOffload.BaseSelection
import KVOffload.StoreResidency
import Mathlib.Algebra.BigOperators.Group.List.Basic
import Mathlib.Algebra.Order.Field.Rat
import Mathlib.Order.WithBot

/-! The block scorers. `BlockScorer` is the interface the offload and staging code relies on, with
the laws it relies on as fields, so that everything above holds for every scorer. `known` is the
set of registered blocks and `value` the score of a block whose score does not depend on a fresh
random draw. -/

namespace KVOffload
open Base

structure BlockScorer (σ ν S : Type) [LinearOrder S] where
  update : σ → List (BlockRef × ν) → σ
  scores : σ → List BlockRef → List S × σ
  selectForEviction : σ → List BlockRef → Int → Except PyError (List BlockRef) × σ
  forget : σ → List BlockRef → σ
  /-- `note_usage`, for the scorers that have it. -/
  noteUsage : Option (σ → RequestId → List Int → σ)
  known : σ → BlockRef → Bool
  value : σ → BlockRef → Option S
  scores_length : ∀ s refs, (scores s refs).1.length = refs.length
  scores_value : ∀ s refs, (∀ ref ∈ refs, (value s ref).isSome) → (scores s refs).1.map some = refs.map (value s)
  value_scores : ∀ s refs, value (scores s refs).2 = value s
  known_scores : ∀ s refs, known (scores s refs).2 = known s
  select_subperm : ∀ s refs budget out, (selectForEviction s refs budget).1 = .ok out → out.Subperm refs
  select_length : ∀ s refs budget out, 0 ≤ budget → budget ≤ refs.length →
    (selectForEviction s refs budget).1 = .ok out → (out.length : Int) = refs.length - budget
  select_ok : ∀ s refs budget, 0 ≤ budget → (∀ ref ∈ refs, known s ref) →
    ∃ out, (selectForEviction s refs budget).1 = .ok out
  known_select : ∀ s refs budget, known (selectForEviction s refs budget).2 = known s
  value_select : ∀ s refs budget, value (selectForEviction s refs budget).2 = value s
  known_update : ∀ s stats ref, known (update s stats) ref = (known s ref || decide (ref ∈ stats.map Prod.fst))
  known_forget : ∀ s refs ref, known (forget s refs) ref = (known s ref && decide (ref ∉ refs))
  value_forget : ∀ s refs ref, ref ∉ refs → value (forget s refs) ref = value s ref
  known_noteUsage : ∀ note ∈ noteUsage, ∀ s r idxs ref,
    known (note s r idxs) ref = (known s ref || decide (ref.requestId = r ∧ ref.blockIdx ∈ idxs))

section Registry

variable {ν β : Type}

/-- One dictionary write for each entry. -/
def registerAll (write : Option β → ν → β) (d : OrderedDict BlockRef β) (entries : List (BlockRef × ν)) :
    OrderedDict BlockRef β :=
  entries.foldl (fun d e => d.set e.1 (write (d.get? e.1) e.2)) d

def forgetAll (d : OrderedDict BlockRef β) (refs : List BlockRef) : OrderedDict BlockRef β :=
  refs.foldl OrderedDict.erase d

theorem registerAll_append (write : Option β → ν → β) (d : OrderedDict BlockRef β)
    (entries rest : List (BlockRef × ν)) :
    registerAll write d (entries ++ rest) = registerAll write (registerAll write d entries) rest :=
  List.foldl_append

theorem isSome_get?_registerAll (write : Option β → ν → β) (entries : List (BlockRef × ν))
    (d : OrderedDict BlockRef β) (ref : BlockRef) :
    ((registerAll write d entries).get? ref).isSome =
      ((d.get? ref).isSome || decide (ref ∈ entries.map Prod.fst)) := by
  induction entries generalizing d with
  | nil => simp [registerAll]
  | cons e rest ih =>
      rw [registerAll, List.foldl_cons]
      refine (ih _).trans ?_
      rw [OrderedDict.get?_set]
      by_cases h : ref = e.1 <;> simp only [h, List.map_cons, List.mem_cons] <;> simp

theorem get?_forgetAll (refs : List BlockRef) (d : OrderedDict BlockRef β) (ref : BlockRef) :
    (forgetAll d refs).get? ref = if ref ∈ refs then none else d.get? ref := by
  induction refs generalizing d with
  | nil => simp [forgetAll]
  | cons x rest ih =>
      rw [forgetAll, List.foldl_cons]
      refine (ih _).trans ?_
      rw [OrderedDict.get?_erase]
      by_cases h : ref = x <;> simp [h]

theorem isSome_get?_forgetAll (refs : List BlockRef) (d : OrderedDict BlockRef β) (ref : BlockRef) :
    ((forgetAll d refs).get? ref).isSome = ((d.get? ref).isSome && decide (ref ∉ refs)) := by
  rw [get?_forgetAll]
  by_cases h : ref ∈ refs <;> simp [h]

end Registry

section Selection

variable {β S : Type} [LinearOrder S]

def unscoredAmong (registry : OrderedDict BlockRef β) (refs : List BlockRef) : List BlockRef :=
  refs.filter fun ref => ref ∉ registry.keys

/-- The checks and the stable selection that the two registering scorers share. -/
def selectScored (registry : OrderedDict BlockRef β) (score : BlockRef → S) (refs : List BlockRef) (budget : Int) :
    Except PyError (List BlockRef) :=
  if budget < 0 then .error .negativeBudget
  else if (refs.length : Int) ≤ budget then .ok []
  else if unscoredAmong registry refs ≠ [] then .error (.unscored ((unscoredAmong registry refs).take 5))
  else .ok (lowest (refs.length - budget.toNat) (refs.map fun ref => (ref, score ref)))

variable {registry : OrderedDict BlockRef β} {score : BlockRef → S} {refs out : List BlockRef} {budget : Int}

theorem selectScored_subperm (h : selectScored registry score refs budget = .ok out) : out.Subperm refs := by
  unfold selectScored at h
  split_ifs at h
  · cases h
    exact List.nil_subperm
  · cases h
    exact lowest_map_subperm _ refs score

theorem selectScored_length (hbudget : budget ≤ refs.length)
    (h : selectScored registry score refs budget = .ok out) : (out.length : Int) = refs.length - budget := by
  unfold selectScored at h
  split_ifs at h with hneg hle
  · cases h
    simp only [List.length_nil]
    omega
  · cases h
    rw [length_lowest, List.length_map]
    omega

/-- Among scored blocks the call returns the lowest scores. -/
theorem selectScored_eq (hbudget : 0 ≤ budget) (hknown : ∀ ref ∈ refs, (registry.get? ref).isSome) :
    selectScored registry score refs budget =
      .ok (lowest (refs.length - budget.toNat) (refs.map fun ref => (ref, score ref))) := by
  have hunscored : unscoredAmong registry refs = [] := by
    refine List.filter_eq_nil_iff.mpr fun ref hmem => ?_
    have hkey : ref ∈ registry.keys := OrderedDict.mem_keys_iff.mpr (Option.isSome_iff_exists.mp (hknown ref hmem))
    simpa using hkey
  rw [selectScored, if_neg (by omega)]
  by_cases hle : (refs.length : Int) ≤ budget
  · have hzero : refs.length - budget.toNat = 0 := by omega
    rw [if_pos hle, hzero, lowest, List.take_zero]
    rfl
  · rw [if_neg hle, if_neg (not_not.mpr hunscored)]

end Selection

/-! `PagedEvictionScorer`: mean or minimum over the heads of value norm over key norm. -/

inductive HeadReduction where
  | mean | min
  deriving DecidableEq, Repr

structure PagedEvictionConfig (R : Type) [Field R] [LinearOrder R] where
  decay : R := 1
  headReduction : HeadReduction := .mean
  eps : R := 1 / 1000000
  decay_mem : 0 ≤ decay ∧ decay ≤ 1

/-- Per-head value and key norms of one block. -/
abbrev BlockKVStats := List (ℚ × ℚ)

namespace PagedEvictionConfig

section Scores

variable {R : Type} [Field R] [LinearOrder R]

/-- One row of `compute_block_scores`. -/
def rowScore (cfg : PagedEvictionConfig R) (vNorm kNorm : List R) : R :=
  let ratio := List.zipWith (fun v k => v / (k + cfg.eps)) vNorm kNorm
  match cfg.headReduction with
  | .mean => ratio.sum / (ratio.length : R)
  | .min => ratio.min?.getD 0

/-- A new observation is mixed with the old score: `decay = 1` keeps only the newest. -/
def mixScore (cfg : PagedEvictionConfig R) (old : Option R) (new : R) : R :=
  match old with
  | none => new
  | some old => cfg.decay * new + (1 - cfg.decay) * old

end Scores

def blockScore (cfg : PagedEvictionConfig ℚ) (stats : BlockKVStats) : ℚ :=
  cfg.rowScore (stats.map Prod.fst) (stats.map Prod.snd)

def mix (cfg : PagedEvictionConfig ℚ) (old : Option ℚ) (stats : BlockKVStats) : ℚ :=
  cfg.mixScore old (cfg.blockScore stats)

end PagedEvictionConfig

/-- The default parameters. -/
def defaultScorer : PagedEvictionConfig ℚ := { decay_mem := ⟨zero_le_one, le_refl 1⟩ }

/-- Unknown blocks score minus infinity. -/
def pagedScore (registry : OrderedDict BlockRef ℚ) (ref : BlockRef) : WithBot ℚ :=
  match registry.get? ref with
  | some score => score
  | none => ⊥

def pagedEvictionScorer (cfg : PagedEvictionConfig ℚ) :
    BlockScorer (OrderedDict BlockRef ℚ) BlockKVStats (WithBot ℚ) where
  update := registerAll cfg.mix
  scores s refs := (refs.map (pagedScore s), s)
  selectForEviction s refs budget := (selectScored s (pagedScore s) refs budget, s)
  forget := forgetAll
  noteUsage := none
  known s ref := (s.get? ref).isSome
  value s ref := some (pagedScore s ref)
  scores_length s refs := List.length_map _
  scores_value s refs _ := by rw [List.map_map]; rfl
  value_scores _ _ := rfl
  known_scores _ _ := rfl
  select_subperm s refs budget out h := selectScored_subperm h
  select_length s refs budget out _ hle h := selectScored_length hle h
  select_ok s refs budget hbudget hknown := ⟨_, selectScored_eq hbudget hknown⟩
  known_select _ _ _ := rfl
  value_select _ _ _ := rfl
  known_update s stats ref := isSome_get?_registerAll cfg.mix stats s ref
  known_forget s refs ref := isSome_get?_forgetAll refs s ref
  value_forget s refs ref hnot := by rw [pagedScore, pagedScore, get?_forgetAll, if_neg hnot]
  known_noteUsage := by simp

/-! `LRUScorer`: the score of a block is the tick of its last use. -/

structure LruState where
  lastUsed : OrderedDict BlockRef Nat
  clock : Nat

/-- Scoring registers a block at tick 0 and never changes a recorded tick. -/
def lruRegister (old : Option Nat) (_ : Unit) : Nat := old.getD 0

def lruScore (s : LruState) (ref : BlockRef) : Nat := (s.lastUsed.get? ref).getD 0

def lruNoteUsage (s : LruState) (requestId : RequestId) (blockIdxs : List Int) : LruState where
  lastUsed := registerAll (fun _ tick => tick) s.lastUsed
    (blockIdxs.map fun idx => (⟨requestId, idx⟩, s.clock + 1))
  clock := s.clock + 1

def lruScorer : BlockScorer LruState Unit Nat where
  update s stats := { s with lastUsed := registerAll lruRegister s.lastUsed stats }
  scores s refs := (refs.map (lruScore s), s)
  selectForEviction s refs budget := (selectScored s.lastUsed (lruScore s) refs budget, s)
  forget s refs := { s with lastUsed := forgetAll s.lastUsed refs }
  noteUsage := some lruNoteUsage
  known s ref := (s.lastUsed.get? ref).isSome
  value s ref := some (lruScore s ref)
  scores_length s refs := List.length_map _
  scores_value s refs _ := by rw [List.map_map]; rfl
  value_scores _ _ := rfl
  known_scores _ _ := rfl
  select_subperm s refs budget out h := selectScored_subperm h
  select_length s refs budget out _ hle h := selectScored_length hle h
  select_ok s refs budget hbudget hknown := ⟨_, selectScored_eq hbudget hknown⟩
  known_select _ _ _ := rfl
  value_select _ _ _ := rfl
  known_update s stats ref := isSome_get?_registerAll lruRegister stats s.lastUsed ref
  known_forget s refs ref := isSome_get?_forgetAll refs s.lastUsed ref
  value_forget s refs ref hnot := by rw [lruScore, lruScore, get?_forgetAll, if_neg hnot]
  known_noteUsage := by
    rintro note hnote s r idxs ⟨r', i⟩
    cases hnote
    rw [lruNoteUsage, isSome_get?_registerAll]
    congr 2
    simp only [List.map_map, List.mem_map, Function.comp_apply, BlockRef.mk.injEq, eq_iff_iff]
    constructor
    · rintro ⟨idx, hidx, rfl, rfl⟩
      exact ⟨rfl, hidx⟩
    · rintro ⟨rfl, hidx⟩
      exact ⟨i, hidx, rfl, rfl⟩

/-! `RandomScorer`: one draw of the generator for every block looked at, also for known ones. -/

structure RandomState where
  scores : OrderedDict BlockRef ℚ
  draws : Nat

/-- Each entry next to the draw the generator makes for it. -/
def withDraws (rng : Nat → ℚ) (draws : Nat) (refs : List BlockRef) : List (BlockRef × ℚ) :=
  (refs.zipIdx draws).map fun e => (e.1, rng e.2)

/-- `self._scores.get(b, self._rng.random())` for every block. -/
def drawScores (rng : Nat → ℚ) (s : RandomState) (refs : List BlockRef) : List (BlockRef × ℚ) :=
  (withDraws rng s.draws refs).map fun e => (e.1, (s.scores.get? e.1).getD e.2)

theorem map_fst_withDraws (rng : Nat → ℚ) (draws : Nat) (refs : List BlockRef) :
    (withDraws rng draws refs).map Prod.fst = refs := by
  rw [withDraws, List.map_map]
  exact List.zipIdx_map_fst draws refs

theorem map_fst_drawScores (rng : Nat → ℚ) (s : RandomState) (refs : List BlockRef) :
    (drawScores rng s refs).map Prod.fst = refs := by
  rw [drawScores, List.map_map]
  exact map_fst_withDraws rng s.draws refs

theorem drawScores_of_known (rng : Nat → ℚ) (s : RandomState) (refs : List BlockRef)
    (hknown : ∀ ref ∈ refs, (s.scores.get? ref).isSome) :
    ((drawScores rng s refs).map Prod.snd).map some = refs.map s.scores.get? := by
  have hsome : ∀ e ∈ withDraws rng s.draws refs, some ((s.scores.get? e.1).getD e.2) = s.scores.get? e.1 := by
    intro e he
    have hmem : e.1 ∈ refs := by
      rw [← map_fst_withDraws rng s.draws refs]
      exact List.mem_map_of_mem he
    obtain ⟨v, hv⟩ := Option.isSome_iff_exists.mp (hknown e.1 hmem)
    rw [hv, Option.getD_some]
  calc ((drawScores rng s refs).map Prod.snd).map some
      = (withDraws rng s.draws refs).map fun e => some ((s.scores.get? e.1).getD e.2) := by
        rw [drawScores, List.map_map, List.map_map]; rfl
    _ = (withDraws rng s.draws refs).map fun e => s.scores.get? e.1 := List.map_congr_left hsome
    _ = ((withDraws rng s.draws refs).map Prod.fst).map s.scores.get? := by rw [List.map_map]; rfl
    _ = refs.map s.scores.get? := by rw [map_fst_withDraws]

/-- Length of the slice `xs[:k]` of a list of `n` elements. -/
def sliceLength (n : Nat) (k : Int) : Nat := if 0 ≤ k then k.toNat else (n + k).toNat

def randomScorer (rng : Nat → ℚ) : BlockScorer RandomState Unit ℚ where
  update s stats :=
    { scores := registerAll (fun _ x => x) s.scores (withDraws rng s.draws (stats.map Prod.fst))
      draws := s.draws + stats.length }
  scores s refs := ((drawScores rng s refs).map Prod.snd, { s with draws := s.draws + refs.length })
  selectForEviction s refs budget :=
    (.ok (lowest (sliceLength refs.length (refs.length - budget)) (drawScores rng s refs)),
      { s with draws := s.draws + refs.length })
  forget s refs := { s with scores := forgetAll s.scores refs }
  noteUsage := none
  known s ref := (s.scores.get? ref).isSome
  value s ref := s.scores.get? ref
  scores_length s refs := by
    rw [List.length_map]
    exact (List.length_map _).symm.trans (congrArg List.length (map_fst_drawScores rng s refs))
  scores_value s refs hknown := drawScores_of_known rng s refs hknown
  value_scores _ _ := rfl
  known_scores _ _ := rfl
  select_subperm s refs budget out h := by
    cases h
    have hsub := lowest_subperm (sliceLength refs.length (refs.length - budget)) (drawScores rng s refs)
    rwa [map_fst_drawScores] at hsub
  select_length s refs budget out hnonneg hle h := by
    cases h
    have hlen : (drawScores rng s refs).length = refs.length :=
      (List.length_map _).symm.trans (congrArg List.length (map_fst_drawScores rng s refs))
    rw [length_lowest, hlen, sliceLength, if_pos (by omega)]
    omega
  select_ok _ _ _ _ _ := ⟨_, rfl⟩
  known_select _ _ _ := rfl
  value_select _ _ _ := rfl
  known_update s stats ref := by
    rw [isSome_get?_registerAll, map_fst_withDraws]
  known_forget s refs ref := isSome_get?_forgetAll refs s.scores ref
  value_forget s refs ref hnot := (get?_forgetAll refs s.scores ref).trans (if_neg hnot)
  known_noteUsage := by simp

end KVOffload

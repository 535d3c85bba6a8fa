import KVOffload.StoreScorer

/-! The eviction contract. Each scorer, asked to keep `budget` of the listed blocks, takes the lowest of the
scores it would report for them. Two of them cut the ranking at a count they have checked; the third takes
the difference of the two numbers as a slice bound, and a negative bound counts from the end. -/

namespace KVOffload
open Base

variable {σ ν S : Type} [LinearOrder S]

/-- The call returns as many distinct listed blocks as exceed the budget, none scoring more than one it
leaves, and changes no score. -/
def EvictionContract (scorer : BlockScorer σ ν S) (s : σ) (refs : List BlockRef) (budget : Nat) : Prop :=
  ∃ out, (scorer.selectForEviction s refs budget).1 = .ok out ∧
    out.length = refs.length - budget ∧ out.Nodup ∧ out ⊆ refs ∧
    scorer.known (scorer.selectForEviction s refs budget).2 = scorer.known s ∧
    scorer.value (scorer.selectForEviction s refs budget).2 = scorer.value s ∧
    ∀ e ∈ refs.zip (scorer.scores s refs).1, ∀ e' ∈ refs.zip (scorer.scores s refs).1,
      e.1 ∈ out → e'.1 ∉ out → e.2 ≤ e'.2

/-- A scorer that reports `score` and takes the `count` lowest meets the contract exactly if the count is right. -/
theorem evictionContract_iff_of_lowest {scorer : BlockScorer σ ν S} {s : σ} {refs : List BlockRef} {budget count : Nat}
    (hnodup : refs.Nodup) (score : BlockRef → S) (hscores : (scorer.scores s refs).1 = refs.map score)
    (hselect : (scorer.selectForEviction s refs budget).1 = .ok (lowest count (refs.map fun ref => (ref, score ref)))) :
    EvictionContract scorer s refs budget ↔ min count refs.length = refs.length - budget := by
  have hlength : (lowest count (refs.map fun ref => (ref, score ref))).length = min count refs.length := by
    rw [length_lowest, List.length_map]
  have hsub := lowest_map_subperm count refs score
  have hreported : ∀ e ∈ refs.zip (scorer.scores s refs).1, e.1 ∈ refs ∧ e.2 = score e.1 := by
    intro e he
    rw [hscores, ← List.map_id refs, List.map_map, List.zip_map'] at he
    obtain ⟨ref, href, rfl⟩ := List.mem_map.mp he
    exact ⟨href, rfl⟩
  constructor
  · rintro ⟨out, hout, hcount, -⟩
    obtain rfl : lowest count (refs.map fun ref => (ref, score ref)) = out := Except.ok.inj (hselect.symm.trans hout)
    rw [← hlength, hcount]
  · intro hcount
    refine ⟨_, hselect, hlength.trans hcount, nodup_of_subperm hsub hnodup, hsub.subset,
      scorer.known_select s refs budget, scorer.value_select s refs budget, fun e he e' he' hin hout => ?_⟩
    rw [(hreported e he).2, (hreported e' he').2]
    exact lowest_le hin (hreported e' he').1 hout

/-- Among scored blocks the draws of `RandomScorer` are not used. -/
theorem drawScores_eq_of_known (rng : Nat → ℚ) {s : RandomState} {refs : List BlockRef}
    (hknown : ∀ ref ∈ refs, (s.scores.get? ref).isSome) :
    drawScores rng s refs = refs.map fun ref => (ref, (s.scores.get? ref).getD 0) := by
  have hvalue : ∀ e ∈ withDraws rng s.draws refs,
      (e.1, (s.scores.get? e.1).getD e.2) = (e.1, (s.scores.get? e.1).getD 0) := by
    intro e he
    have hmem : e.1 ∈ refs := by
      rw [← map_fst_withDraws rng s.draws refs]
      exact List.mem_map_of_mem he
    obtain ⟨score, hscore⟩ := Option.isSome_iff_exists.mp (hknown e.1 hmem)
    rw [hscore, Option.getD_some, Option.getD_some]
  calc drawScores rng s refs
      = (withDraws rng s.draws refs).map fun e => (e.1, (s.scores.get? e.1).getD 0) := List.map_congr_left hvalue
    _ = ((withDraws rng s.draws refs).map Prod.fst).map fun ref => (ref, (s.scores.get? ref).getD 0) := by
        rw [List.map_map]
        rfl
    _ = refs.map fun ref => (ref, (s.scores.get? ref).getD 0) := by rw [map_fst_withDraws]

section Scorers

variable {refs : List BlockRef} {budget : Nat}

/-- The count the registering scorers cut at. -/
theorem min_sub_budget (n : Nat) : min (n - (budget : Int).toNat) n = n - budget := by
  omega

theorem pagedEviction_contract (cfg : PagedEvictionConfig ℚ) {s : OrderedDict BlockRef ℚ} (hnodup : refs.Nodup)
    (hknown : ∀ ref ∈ refs, (pagedEvictionScorer cfg).known s ref = true) :
    EvictionContract (pagedEvictionScorer cfg) s refs budget := by
  apply (evictionContract_iff_of_lowest hnodup (pagedScore s) rfl _).mpr (min_sub_budget refs.length)
  exact selectScored_eq (Int.natCast_nonneg budget) hknown

theorem lru_contract {s : LruState} (hnodup : refs.Nodup) (hknown : ∀ ref ∈ refs, lruScorer.known s ref = true) :
    EvictionContract lruScorer s refs budget := by
  apply (evictionContract_iff_of_lowest hnodup (lruScore s) rfl _).mpr (min_sub_budget refs.length)
  exact selectScored_eq (Int.natCast_nonneg budget) hknown

/-- `RandomScorer` slices with the difference of the two numbers, which is negative for a larger budget. -/
theorem random_contract_iff (rng : Nat → ℚ) {s : RandomState} (hnodup : refs.Nodup)
    (hknown : ∀ ref ∈ refs, (randomScorer rng).known s ref = true) :
    EvictionContract (randomScorer rng) s refs budget ↔ budget ≤ refs.length ∨ 2 * refs.length ≤ budget := by
  have hdraws := drawScores_eq_of_known rng hknown
  have hscores : ((randomScorer rng).scores s refs).1 = refs.map fun ref => (s.scores.get? ref).getD 0 := by
    show (drawScores rng s refs).map Prod.snd = _
    rw [hdraws, List.map_map]
    rfl
  have hselect : ((randomScorer rng).selectForEviction s refs budget).1 =
      .ok (lowest (sliceLength refs.length (refs.length - budget))
        (refs.map fun ref => (ref, (s.scores.get? ref).getD 0))) := by
    rw [← hdraws]
    rfl
  rw [evictionContract_iff_of_lowest hnodup _ hscores hselect, sliceLength]
  split <;> omega

end Scorers

/-- In every state, among distinct scored blocks and for every budget: two scorers meet the contract, and
`RandomScorer` does exactly if the budget is at most the length of the list or at least twice that. -/
theorem scorers_meet_contract_iff (cfg : PagedEvictionConfig ℚ) (rng : Nat → ℚ) {paged : OrderedDict BlockRef ℚ}
    {lru : LruState} {random : RandomState} {refs : List BlockRef} (hnodup : refs.Nodup)
    (hpaged : ∀ ref ∈ refs, (pagedEvictionScorer cfg).known paged ref = true)
    (hlru : ∀ ref ∈ refs, lruScorer.known lru ref = true)
    (hrandom : ∀ ref ∈ refs, (randomScorer rng).known random ref = true) (budget : Nat) :
    EvictionContract (pagedEvictionScorer cfg) paged refs budget ∧ EvictionContract lruScorer lru refs budget ∧
      (EvictionContract (randomScorer rng) random refs budget ↔ budget ≤ refs.length ∨ 2 * refs.length ≤ budget) :=
  ⟨pagedEviction_contract cfg hnodup hpaged, lru_contract hnodup hlru, random_contract_iff rng hnodup hrandom⟩

/-- Two blocks of one request. -/
def contractRefs : List BlockRef := [⟨['a'], 0⟩, ⟨['a'], 1⟩]

/-- Each scorer after one update with the two blocks. -/
def pagedScored : OrderedDict BlockRef ℚ :=
  (pagedEvictionScorer defaultScorer).update .empty (contractRefs.map fun ref => (ref, [(ref.blockIdx, 1)]))

def lruScored : LruState := lruScorer.update ⟨.empty, 0⟩ (contractRefs.map fun ref => (ref, ()))

def randomScored : RandomState := (randomScorer Nat.cast).update ⟨.empty, 0⟩ (contractRefs.map fun ref => (ref, ()))

theorem scorers_meet_contract_contractRefs :
    EvictionContract (pagedEvictionScorer defaultScorer) pagedScored contractRefs 1 ∧
      EvictionContract lruScorer lruScored contractRefs 1 ∧
      EvictionContract (randomScorer Nat.cast) randomScored contractRefs 1 := by
  have hpaged : ∀ ref ∈ contractRefs, (pagedEvictionScorer defaultScorer).known pagedScored ref = true := by
    decide +kernel
  have hlru : ∀ ref ∈ contractRefs, lruScorer.known lruScored ref = true := by decide +kernel
  have hrandom : ∀ ref ∈ contractRefs, (randomScorer Nat.cast).known randomScored ref = true := by decide +kernel
  obtain ⟨h₁, h₂, h₃⟩ := scorers_meet_contract_iff defaultScorer Nat.cast (by decide) hpaged hlru hrandom 1
  exact ⟨h₁, h₂, h₃.mpr (by decide)⟩

/-- Asked to keep three of two blocks, `RandomScorer` gives one up. -/
theorem randomScorer_evicts_below_budget :
    ((randomScorer Nat.cast).selectForEviction randomScored contractRefs 3).1.toOption = some [⟨['a'], 0⟩] ∧
      ¬EvictionContract (randomScorer Nat.cast) randomScored contractRefs 3 := by
  have hreturns : ((randomScorer Nat.cast).selectForEviction randomScored contractRefs 3).1.toOption =
      some [⟨['a'], 0⟩] := by decide +kernel
  refine ⟨hreturns, ?_⟩
  rintro ⟨out, hout, hlength, -⟩
  have hsame : some out = some [⟨['a'], 0⟩] := by
    rw [← hreturns]
    exact (congrArg Except.toOption hout).symm
  rw [Option.some.inj hsame] at hlength
  cases hlength

end KVOffload

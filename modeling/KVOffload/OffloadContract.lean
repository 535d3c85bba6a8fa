import KVOffload.BaseLists
import KVOffload.OrchestratorSlots

/-! One call of the offload manager from an arbitrary state. A call that gets through moves the coldest
share of the eligible blocks to free CPU slots and touches nothing else, except that the rounding never
asks for less than one block. A call whose batch fails is undone by the code around the copy, except
for what runs before and after it. -/

namespace KVOffload
open Base

variable {μ φ ν σ S : Type} [LinearOrder S]

/-- The blocks of `pairs` were marked CPU-resident at their slots and nothing else changed. -/
structure MarkedCpu (t t' : ResidencyTable) (pairs : List (BlockRef × Nat)) : Prop where
  moved : ∀ e ∈ pairs, ∃ loc, t.get e.1 = some loc ∧
    t'.get e.1 = some { residency := .cpu, gpuBlockId := loc.gpuBlockId, cpuSlot := some e.2, complete := loc.complete }
  kept : ∀ ref, ref ∉ pairs.map Prod.fst → t'.get ref = t.get ref

theorem MarkedCpu.cons {t t₁ t' : ResidencyTable} {e : BlockRef × Nat} {rest : List (BlockRef × Nat)}
    {old : BlockLocation} (hold : t.get e.1 = some old) (hnot : e.1 ∉ rest.map Prod.fst)
    (hmark : t.Relocates t₁ e.1
      { residency := .cpu, gpuBlockId := old.gpuBlockId, cpuSlot := some e.2, complete := old.complete })
    (hrest : MarkedCpu t₁ t' rest) : MarkedCpu t t' (e :: rest) := by
  have hget := hmark.get
  constructor
  · intro x hx
    rcases List.mem_cons.mp hx with rfl | hx
    · refine ⟨old, hold, ?_⟩
      rw [hrest.kept _ hnot, hget, if_pos rfl]
    · obtain ⟨loc, hloc, hmoved⟩ := hrest.moved x hx
      have hne : x.1 ≠ e.1 := fun heq => hnot (heq ▸ List.mem_map_of_mem hx)
      rw [hget, if_neg hne] at hloc
      exact ⟨loc, hloc, hmoved⟩
  · intro ref href
    rw [List.map_cons, List.mem_cons, not_or] at href
    rw [hrest.kept ref href.2, hget, if_neg href.1]

theorem wp_publish {s : Store μ σ} (pairs : List (BlockRef × Nat)) (hnodup : (pairs.map Prod.fst).Nodup)
    (htracked : ∀ e ∈ pairs, ∃ loc, s.residency.get e.1 = some loc) :
    Eff.wp (Eff.forEach pairs fun e => markCpu e.1 e.2)
      (fun _ s' => MarkedCpu s.residency s'.residency pairs ∧ s' = { s with residency := s'.residency })
      (fun _ _ => False) s := by
  induction pairs generalizing s with
  | nil => exact ⟨⟨by simp, fun _ _ => rfl⟩, rfl⟩
  | cons e rest ih =>
      rw [List.map_cons, List.nodup_cons] at hnodup
      obtain ⟨old, hold⟩ := htracked e List.mem_cons_self
      obtain ⟨t, ht, hmark⟩ := ResidencyTable.markCpu_of_get hold e.2
      rw [Eff.forEach, Eff.wp_bind]
      apply wp_onTable ht
      refine Eff.wp_mono (ih hnodup.2 fun x hx => ?_) (fun _ s' hs' => ?_) fun _ _ hfalse => hfalse
      · obtain ⟨loc, hloc⟩ := htracked x (List.mem_cons_of_mem e hx)
        have hne : x.1 ≠ e.1 := fun heq => hnodup.1 (heq ▸ List.mem_map_of_mem hx)
        exact ⟨loc, (hmark.get x.1).trans ((if_neg hne).trans hloc)⟩
      · exact ⟨MarkedCpu.cons hold hnodup.1 hmark hs'.1, hs'.2⟩

/-- A copy that gets through: the blocks are published at the slots on top of the free list. -/
theorem copyAndPublish_ok {dev : Device μ φ ν S} {s : Store μ σ} (hcopy : dev.storeFault s.tick = none)
    {live : List (BlockRef × Nat)} (hne : live ≠ []) (hroom : live.length ≤ s.cpuFree.length)
    (hnodup : (live.map Prod.fst).Nodup) (htracked : ∀ e ∈ live, ∃ loc, s.residency.get e.1 = some loc) :
    ∃ t, copyAndPublish dev live s = (.ok (live.map Prod.fst),
        { s with
          residency := t
          cpuFree := s.cpuFree.drop live.length
          mem := dev.store s.mem (live.map Prod.snd) (s.cpuFree.take live.length)
          tick := s.tick + 1 }) ∧
      MarkedCpu s.residency t ((live.map Prod.fst).zip (s.cpuFree.take live.length)) := by
  have hlen : (s.cpuFree.take live.length).length = live.length := by
    rw [List.length_take]
    omega
  have hfst : (((live.map Prod.fst).zip (s.cpuFree.take live.length)).map Prod.fst) = live.map Prod.fst :=
    List.map_fst_zip (by rw [List.length_map, hlen])
  have hbatch : copyGpuToCpuBatch dev (live.map Prod.snd) s = (.ok (s.cpuFree.take live.length, false),
      { s with
        cpuFree := s.cpuFree.drop live.length
        mem := dev.store s.mem (live.map Prod.snd) (s.cpuFree.take live.length)
        tick := s.tick + 1 }) := by
    simp only [copyGpuToCpuBatch, List.length_map, hcopy]
    rw [if_neg (by simpa using hne), if_neg (by omega)]
  have hwp : Eff.wp (copyAndPublish dev live)
      (fun out s' => out = live.map Prod.fst ∧
        MarkedCpu s.residency s'.residency ((live.map Prod.fst).zip (s.cpuFree.take live.length)) ∧
        s' = { s with
          residency := s'.residency
          cpuFree := s.cpuFree.drop live.length
          mem := dev.store s.mem (live.map Prod.snd) (s.cpuFree.take live.length)
          tick := s.tick + 1 })
      (fun _ _ => False) s := by
    rw [copyAndPublish, Eff.wp_bind]
    apply Eff.wp_of_ok hbatch
    change Eff.wp (Eff.forEach ((live.map Prod.fst).zip (s.cpuFree.take live.length)) _ >>=
      fun _ => pure (live.map Prod.fst)) _ _ _
    rw [Eff.wp_bind]
    refine Eff.wp_mono (wp_publish _ (by rwa [hfst]) fun e he => ?_) (fun _ s' hs' => ?_) fun _ _ hfalse => hfalse
    · obtain ⟨x, hx, heq⟩ := List.mem_map.mp (List.of_mem_zip he).1
      obtain ⟨loc, hloc⟩ := htracked x hx
      exact ⟨loc, heq ▸ hloc⟩
    · exact ⟨rfl, hs'.1, hs'.2⟩
  obtain ⟨out, s', hrun, rfl, hpublished, hs'⟩ := Eff.exists_of_wp hwp
  exact ⟨s'.residency, by rw [hrun, ← hs'], hpublished⟩

/-- A copy that raises inside its guard leaves the table alone. -/
theorem copyAndPublish_raises {dev : Device μ φ ν S} {s : Store μ σ} {torn : φ}
    (hcopy : dev.storeFault s.tick = some (.copy torn)) (live : List (BlockRef × Nat)) :
    ∃ e s', copyAndPublish dev live s = (.error e, s') ∧ s'.residency = s.residency := by
  by_cases hempty : live.length = 0
  · refine ⟨.emptyBatch, s, ?_, rfl⟩
    simp [copyAndPublish, copyGpuToCpuBatch, bind, Eff.andThen, hempty]
  · by_cases hroom : s.cpuFree.length < live.length
    · refine ⟨.cpuPoolExhausted live.length s.cpuFree.length, s, ?_, rfl⟩
      simp [copyAndPublish, copyGpuToCpuBatch, bind, Eff.andThen, hempty, hroom]
    · refine ⟨.device, { s with
          cpuFree := (s.cpuFree.take live.length).reverse ++ s.cpuFree.drop live.length
          mem := dev.storeTorn torn s.mem (live.map Prod.snd) (s.cpuFree.take live.length)
          tick := s.tick + 1 }, ?_, rfl⟩
      simp [copyAndPublish, copyGpuToCpuBatch, bind, Eff.andThen, hempty, hroom, hcopy]

section Calls

variable {dev : Device μ φ ν S} {scorer : BlockScorer σ ν S} {s : Store μ σ}
  {candidates selected : List BlockRef} {x : σ}

/-- The call once its selection has been made. -/
theorem offloadFraction_of_select {fraction : ℚ} {scoredBlocks : Finset BlockRef}
    (hfraction : 0 ≤ fraction ∧ fraction < 1) (hne : scoredCandidates s.residency candidates scoredBlocks ≠ [])
    (hselect : scorer.selectForEviction s.scorer (scoredCandidates s.residency candidates scoredBlocks)
      ((scoredCandidates s.residency candidates scoredBlocks).length -
        numToOffload (scoredCandidates s.residency candidates scoredBlocks).length fraction) = (.ok selected, x))
    (hlive : refsWithGpu s.residency selected ≠ []) :
    offloadFraction dev scorer candidates fraction scoredBlocks s =
      Eff.attempt (copyAndPublish dev (refsWithGpu s.residency selected)) (fun _ => pure [])
        { s with scorer := x } := by
  have hlen : (scoredCandidates s.residency candidates scoredBlocks).length ≠ 0 := by simpa using hne
  have hstep : selectForEviction scorer (scoredCandidates s.residency candidates scoredBlocks)
      ((scoredCandidates s.residency candidates scoredBlocks).length -
        numToOffload (scoredCandidates s.residency candidates scoredBlocks).length fraction) s =
      (.ok selected, { s with scorer := x }) := by
    rw [selectForEviction, hselect]
  simp only [offloadFraction, hfraction, and_self, not_true_eq_false, if_false, bind, Eff.andThen, Eff.read,
    if_neg hlen, hstep, if_neg hlive]

/-- A call whose copy gets through publishes its whole selection at the slots on top of the free list. -/
theorem offloadFraction_publishes {fraction : ℚ} {scoredBlocks : Finset BlockRef}
    (hfraction : 0 ≤ fraction ∧ fraction < 1) (hne : scoredCandidates s.residency candidates scoredBlocks ≠ [])
    (hselect : scorer.selectForEviction s.scorer (scoredCandidates s.residency candidates scoredBlocks)
      ((scoredCandidates s.residency candidates scoredBlocks).length -
        numToOffload (scoredCandidates s.residency candidates scoredBlocks).length fraction) = (.ok selected, x))
    (hnodup : selected.Nodup) (hsub : selected ⊆ scoredCandidates s.residency candidates scoredBlocks)
    (hselected : selected ≠ []) (hcopy : dev.storeFault s.tick = none) (hroom : selected.length ≤ s.cpuFree.length) :
    ∃ t, offloadFraction dev scorer candidates fraction scoredBlocks s = (.ok selected,
        { s with
          residency := t
          cpuFree := s.cpuFree.drop selected.length
          scorer := x
          mem := dev.store s.mem ((refsWithGpu s.residency selected).map Prod.snd) (s.cpuFree.take selected.length)
          tick := s.tick + 1 }) ∧
      MarkedCpu s.residency t (selected.zip (s.cpuFree.take selected.length)) := by
  -- every selected block is still on the GPU, so the batch is the whole selection
  have hcomplete : ∀ ref ∈ selected, isGpuComplete s.residency ref = true := fun ref href =>
    isGpuComplete_of_mem_scoredCandidates ref (hsub href)
  have hfst := map_fst_refsWithGpu_of_complete hcomplete
  have hlen : (refsWithGpu s.residency selected).length = selected.length := by
    rw [← List.length_map Prod.fst, hfst]
  have hlive := refsWithGpu_ne_nil hcomplete hselected
  have hcopy' : dev.storeFault ({ s with scorer := x } : Store μ σ).tick = none := hcopy
  obtain ⟨t, hrun, hmarked⟩ := copyAndPublish_ok hcopy' hlive (by rwa [hlen]) (by rwa [hfst]) fun e he => by
    obtain ⟨loc, hloc, -⟩ := gpuPage_eq_some.mp (mem_refsWithGpu.mp he).2
    exact ⟨loc, hloc⟩
  rw [hfst, hlen] at hrun hmarked
  refine ⟨t, ?_, hmarked⟩
  rw [offloadFraction_of_select hfraction hne hselect hlive, Eff.attempt, hrun]

theorem maybeOffload_of_select {cfg : OrchestratorConfig}
    (hover : cfg.gpuBudgetBlocks < (candidates.filter fun ref => isGpuComplete s.residency ref).length)
    (hselect : scorer.selectForEviction s.scorer (candidates.filter fun ref => isGpuComplete s.residency ref)
      cfg.gpuBudgetBlocks = (.ok selected, x))
    (hlive : refsWithGpu s.residency selected ≠ []) :
    maybeOffload cfg dev scorer candidates s =
      copyAndPublish dev (refsWithGpu s.residency selected) { s with scorer := x } := by
  have hstep : selectForEviction scorer (candidates.filter fun ref => isGpuComplete s.residency ref)
      cfg.gpuBudgetBlocks s = (.ok selected, { s with scorer := x }) := by
    rw [selectForEviction, hselect]
  simp only [maybeOffload, bind, Eff.andThen, Eff.read, if_neg (not_le.mpr hover), hstep, if_neg hlive]

end Calls

section Coldest

/-- The CPU slot the table records for a block. -/
def cpuSlotOf (t : ResidencyTable) (ref : BlockRef) : Option Nat := (t.get ref).bind (·.cpuSlot)

/-- The blocks `out` are the coldest of the eligible ones and moved to CPU slots that were free; every other
entry, free slot and score is as before. -/
structure ColdestMoved (score : BlockRef → S) (eligible : List BlockRef) (s : Store μ σ) (out : List BlockRef)
    (s' : Store μ σ) : Prop where
  nodup : out.Nodup
  subset : out ⊆ eligible
  length_le : out.length ≤ eligible.length
  coldest : ∀ ref ∈ out, ∀ ref' ∈ eligible, ref' ∉ out → score ref ≤ score ref'
  moved : ∀ ref ∈ out, ∃ loc c, s.residency.get ref = some loc ∧ c ∈ s.cpuFree ∧
    s'.residency.get ref =
      some { residency := .cpu, gpuBlockId := loc.gpuBlockId, cpuSlot := some c, complete := loc.complete }
  distinct : ∀ ref ∈ out, ∀ ref' ∈ out, cpuSlotOf s'.residency ref = cpuSlotOf s'.residency ref' → ref = ref'
  kept : ∀ ref, ref ∉ out → s'.residency.get ref = s.residency.get ref
  free : ∀ c, c ∈ s'.cpuFree ↔ c ∈ s.cpuFree ∧ ∀ ref ∈ out, cpuSlotOf s'.residency ref ≠ some c
  scorer : s'.scorer = s.scorer

/-- No block for a zero fraction, the rounded share and at least one block otherwise. -/
def share (m : Nat) (fraction : ℚ) : Nat :=
  if fraction = 0 ∨ m = 0 then 0 else max 1 ⌊(m : ℚ) * fraction + 1 / 2⌋.toNat

theorem coldestMoved_nil (score : BlockRef → S) (eligible : List BlockRef) (s : Store μ σ) :
    ColdestMoved score eligible s [] s where
  nodup := List.nodup_nil
  subset := List.nil_subset _
  length_le := Nat.zero_le _
  coldest := by simp
  moved := by simp
  distinct := by simp
  kept := fun _ _ => rfl
  free := by simp
  scorer := rfl

theorem MarkedCpu.cpuSlotOf_eq {t t' : ResidencyTable} {pairs : List (BlockRef × Nat)} (h : MarkedCpu t t' pairs)
    {ref : BlockRef} {c : Nat} (hmem : (ref, c) ∈ pairs) : cpuSlotOf t' ref = some c := by
  obtain ⟨loc, -, hmoved⟩ := h.moved (ref, c) hmem
  rw [cpuSlotOf, hmoved]
  rfl

/-- Blocks marked at the slots on top of the free list. -/
theorem coldestMoved_of_marked {score : BlockRef → S} {eligible selected : List BlockRef} {s : Store μ σ}
    {t : ResidencyTable} (hnodup : selected.Nodup) (hsub : selected.Subperm eligible)
    (hcold : ∀ ref ∈ selected, ∀ ref' ∈ eligible, ref' ∉ selected → score ref ≤ score ref') (hfree : s.cpuFree.Nodup)
    (hroom : selected.length ≤ s.cpuFree.length)
    (hmarked : MarkedCpu s.residency t (selected.zip (s.cpuFree.take selected.length))) (mem : μ) (tick : Nat) :
    ColdestMoved score eligible s selected
      { s with residency := t, cpuFree := s.cpuFree.drop selected.length, mem := mem, tick := tick } := by
  have hlen : selected.length = (s.cpuFree.take selected.length).length := by
    rw [List.length_take]
    omega
  have hslot : ∀ ref ∈ selected, ∃ c, (ref, c) ∈ selected.zip (s.cpuFree.take selected.length) :=
    fun ref href => exists_mem_zip_left hlen href
  have htake : (s.cpuFree.take selected.length).Nodup := hfree.sublist (List.take_sublist _ _)
  have hsplit : (s.cpuFree.take selected.length ++ s.cpuFree.drop selected.length).Nodup := by
    rwa [List.take_append_drop]
  refine ⟨hnodup, hsub.subset, hsub.length_le, hcold, ?_, ?_, ?_, ?_, rfl⟩
  · intro ref href
    obtain ⟨c, hc⟩ := hslot ref href
    obtain ⟨loc, hloc, hmoved⟩ := hmarked.moved (ref, c) hc
    exact ⟨loc, c, hloc, List.mem_of_mem_take (List.of_mem_zip hc).2, hmoved⟩
  · intro ref href ref' href' hsame
    obtain ⟨c, hc⟩ := hslot ref href
    obtain ⟨c', hc'⟩ := hslot ref' href'
    obtain rfl : c = c' := by
      rw [hmarked.cpuSlotOf_eq hc, hmarked.cpuSlotOf_eq hc'] at hsame
      exact Option.some.inj hsame
    exact eq_of_mem_zip htake hc hc'
  · intro ref href
    apply hmarked.kept
    rwa [List.map_fst_zip hlen.le]
  · intro c
    have hmem : c ∈ s.cpuFree ↔ c ∈ s.cpuFree.take selected.length ∨ c ∈ s.cpuFree.drop selected.length := by
      rw [← List.mem_append, List.take_append_drop]
    rw [hmem]
    constructor
    · intro hdrop
      refine ⟨Or.inr hdrop, fun ref href heq => ?_⟩
      obtain ⟨c', hc'⟩ := hslot ref href
      obtain rfl : c' = c := Option.some.inj ((hmarked.cpuSlotOf_eq hc').symm.trans heq)
      exact (List.nodup_append.mp hsplit).2.2 c' (List.of_mem_zip hc').2 c' hdrop rfl
    · rintro ⟨htaken | hdrop, hunused⟩
      · obtain ⟨ref, href⟩ := exists_mem_zip_right hlen htaken
        exact absurd (hmarked.cpuSlotOf_eq href) (hunused ref (List.of_mem_zip href).1)
      · exact hdrop

variable {dev : Device μ φ BlockKVStats (WithBot ℚ)} {s : Store μ (OrderedDict BlockRef ℚ)}
  {candidates : List BlockRef} {scoredBlocks : Finset BlockRef} {fraction : ℚ}

/-- The selection of `PagedEvictionScorer` among scored blocks. -/
theorem pagedEviction_select (pcfg : PagedEvictionConfig ℚ) {registry : OrderedDict BlockRef ℚ} {refs : List BlockRef}
    (hknown : ∀ ref ∈ refs, (registry.get? ref).isSome) {n : Nat} (hle : n ≤ refs.length) :
    (pagedEvictionScorer pcfg).selectForEviction registry refs (refs.length - n) =
      (.ok (lowest n (refs.map fun ref => (ref, pagedScore registry ref))), registry) := by
  have hcount : refs.length - ((refs.length : Int) - n).toNat = n := by omega
  show (selectScored registry (pagedScore registry) refs _, registry) = _
  rw [selectScored_eq (by omega) hknown, hcount]

/-- What the call does when the copy gets through: at least one eligible block moves. -/
theorem offloadFraction_of_copy (pcfg : PagedEvictionConfig ℚ) (hnodup : candidates.Nodup)
    (hknown : ∀ ref ∈ scoredBlocks, (s.scorer.get? ref).isSome) (hfraction : 0 ≤ fraction ∧ fraction < 1)
    (hfree : s.cpuFree.Nodup) (hcopy : dev.storeFault s.tick = none)
    (hne : scoredCandidates s.residency candidates scoredBlocks ≠ [])
    (hroom : numToOffload (scoredCandidates s.residency candidates scoredBlocks).length fraction ≤ s.cpuFree.length) :
    ∃ out s', offloadFraction dev (pagedEvictionScorer pcfg) candidates fraction scoredBlocks s = (.ok out, s') ∧
      out.length = numToOffload (scoredCandidates s.residency candidates scoredBlocks).length fraction ∧
      ColdestMoved (pagedScore s.scorer) (scoredCandidates s.residency candidates scoredBlocks) s out s' := by
  let eligible := scoredCandidates s.residency candidates scoredBlocks
  let n := numToOffload eligible.length fraction
  let selected := lowest n (eligible.map fun ref => (ref, pagedScore s.scorer ref))
  have hpos : 0 < eligible.length := List.length_pos_of_ne_nil hne
  have hle : n ≤ eligible.length := numToOffload_le hpos hfraction.2
  have hscored : ∀ ref ∈ eligible, (s.scorer.get? ref).isSome := by
    intro ref href
    have hmem := (Bool.and_eq_true_iff.mp (List.mem_filter.mp href).2).1
    exact hknown ref (decide_eq_true_iff.mp hmem)
  have hn : 0 < n := Nat.lt_of_lt_of_le Nat.one_pos (Nat.le_max_left _ _)
  have hselect := pagedEviction_select pcfg hscored hle
  have hsub : selected.Subperm eligible := lowest_map_subperm n eligible (pagedScore s.scorer)
  have hlen : selected.length = n := by
    rw [length_lowest, List.length_map, min_eq_left hle]
  have hselected : selected.Nodup := nodup_of_subperm hsub (scoredCandidates_nodup hnodup scoredBlocks)
  have hselected_ne : selected ≠ [] := List.ne_nil_of_length_pos (by rwa [hlen])
  have hroom' : selected.length ≤ s.cpuFree.length := by rwa [hlen]
  obtain ⟨t, hcall, hmarked⟩ := offloadFraction_publishes hfraction hne hselect hselected hsub.subset hselected_ne
    hcopy hroom'
  exact ⟨selected, _, hcall, hlen, coldestMoved_of_marked hselected hsub
    (fun ref href ref' href' => lowest_le href href') hfree hroom' hmarked _ _⟩

/-- The call offloads the coldest share of the eligible blocks, except that a zero fraction still takes
one block if there is an eligible one. -/
theorem offloadFraction_coldest_iff (pcfg : PagedEvictionConfig ℚ) (hnodup : candidates.Nodup)
    (hknown : ∀ ref ∈ scoredBlocks, (s.scorer.get? ref).isSome) (hfraction : 0 ≤ fraction ∧ fraction < 1)
    (hfree : s.cpuFree.Nodup) (hcopy : dev.storeFault s.tick = none)
    (hroom : scoredCandidates s.residency candidates scoredBlocks ≠ [] →
      max 1 ⌊((scoredCandidates s.residency candidates scoredBlocks).length : ℚ) * fraction + 1 / 2⌋.toNat ≤
        s.cpuFree.length) :
    (∃ out s', offloadFraction dev (pagedEvictionScorer pcfg) candidates fraction scoredBlocks s = (.ok out, s') ∧
      out.length = share (scoredCandidates s.residency candidates scoredBlocks).length fraction ∧
      ColdestMoved (pagedScore s.scorer) (scoredCandidates s.residency candidates scoredBlocks) s out s') ↔
    fraction ≠ 0 ∨ ∀ ref ∈ candidates, ref ∈ scoredBlocks → isGpuComplete s.residency ref = false := by
  have hempty : scoredCandidates s.residency candidates scoredBlocks = [] ↔
      ∀ ref ∈ candidates, ref ∈ scoredBlocks → isGpuComplete s.residency ref = false := by
    rw [scoredCandidates, List.filter_eq_nil_iff]
    simp
  rw [← hempty]
  by_cases hnil : scoredCandidates s.residency candidates scoredBlocks = []
  · refine ⟨fun _ => Or.inr hnil, fun _ => ⟨[], s, ?_, ?_, coldestMoved_nil _ _ s⟩⟩
    · simp only [offloadFraction, hfraction, and_self, not_true_eq_false, if_false, bind, Eff.andThen, Eff.read, hnil,
        List.length_nil, if_true]
      rfl
    · rw [hnil, List.length_nil, share, if_pos (Or.inr rfl)]
  · have hpos : (scoredCandidates s.residency candidates scoredBlocks).length ≠ 0 := by simpa using hnil
    obtain ⟨out, s', hrun, hlen, hmoved⟩ :=
      offloadFraction_of_copy pcfg hnodup hknown hfraction hfree hcopy hnil (hroom hnil)
    constructor
    · rintro ⟨out', s'', hrun', hshare, -⟩
      obtain ⟨rfl, rfl⟩ : out = out' ∧ s' = s'' := by
        rw [hrun, Prod.mk.injEq, Except.ok.injEq] at hrun'
        exact hrun'
      refine Or.inl fun hzero => ?_
      rw [share, if_pos (Or.inl hzero), hlen, numToOffload] at hshare
      omega
    · intro hcond
      have hne : fraction ≠ 0 := hcond.resolve_right hnil
      refine ⟨out, s', hrun, ?_, hmoved⟩
      rw [hlen, share, if_neg (by tauto), numToOffload]

/-- One complete block of a request, scored, with two CPU slots free. -/
def oneBlockStore : Store Unit (OrderedDict BlockRef ℚ) where
  residency := ResidencyTable.empty.markGpu ⟨requestA, 0⟩ 3 true
  cpuFree := [0, 1]
  lru := .empty
  stagingFree := [0]
  scorer := OrderedDict.empty.set ⟨requestA, 0⟩ 1
  mem := ()
  tick := 0

/-- No bytes, and no call fails. -/
def emptyDevice : Device Unit Unit BlockKVStats (WithBot ℚ) where
  toRuntime := stableRuntime (fun _ _ => []) (fun _ => none) (fun _ => none) fun _ => false
  store _ _ _ := ()
  storeTorn _ _ _ _ := ()
  fetch _ _ _ := ()
  fetchTorn _ _ _ _ := ()

/-- Four complete blocks of two requests with different scores, one that is still being filled, and a complete one
without a score. -/
def mixedStore : Store Unit (OrderedDict BlockRef ℚ) :=
  { oneBlockStore with
    residency :=
      (((((ResidencyTable.empty.markGpu ⟨requestA, 0⟩ 3 true).markGpu ⟨requestA, 1⟩ 4 true).markGpu ⟨requestA, 2⟩ 5
        true).markGpu ⟨requestB, 0⟩ 6 true).markGpu ⟨requestB, 1⟩ 7 false).markGpu ⟨requestB, 2⟩ 8 true
    scorer :=
      ((((OrderedDict.empty.set ⟨requestA, 0⟩ 4).set ⟨requestA, 1⟩ 1).set ⟨requestA, 2⟩ 3).set ⟨requestB, 0⟩ 2).set
        ⟨requestB, 1⟩ 0 }

def mixedCandidates : List BlockRef :=
  [⟨requestA, 0⟩, ⟨requestA, 1⟩, ⟨requestA, 2⟩, ⟨requestB, 0⟩, ⟨requestB, 1⟩, ⟨requestB, 2⟩]

def mixedScored : Finset BlockRef :=
  {⟨requestA, 0⟩, ⟨requestA, 1⟩, ⟨requestA, 2⟩, ⟨requestB, 0⟩, ⟨requestB, 1⟩}

/-- Half of the four eligible blocks go to the CPU, the two with the lowest scores; the other two stay. -/
theorem offloadFraction_coldest_mixedStore :
    (offloadFraction emptyDevice (pagedEvictionScorer defaultScorer) mixedCandidates (1 / 2) mixedScored mixedStore).1 =
        .ok [⟨requestA, 1⟩, ⟨requestB, 0⟩] ∧
      ∃ out s', offloadFraction emptyDevice (pagedEvictionScorer defaultScorer) mixedCandidates (1 / 2) mixedScored
          mixedStore = (.ok out, s') ∧
        out.length = share (scoredCandidates mixedStore.residency mixedCandidates mixedScored).length (1 / 2) ∧
        ColdestMoved (pagedScore mixedStore.scorer) (scoredCandidates mixedStore.residency mixedCandidates mixedScored)
          mixedStore out s' := by
  refine ⟨by decide +kernel, (offloadFraction_coldest_iff defaultScorer (by decide) (by decide +kernel) (by norm_num)
    (by decide) rfl (fun _ => by decide +kernel)).mpr (Or.inl (by norm_num))⟩

/-- A zero fraction asks for no block and still moves one. -/
theorem zero_fraction_offloads :
    (offloadFraction emptyDevice (pagedEvictionScorer defaultScorer) [⟨requestA, 0⟩] 0
      {⟨requestA, 0⟩} oneBlockStore).1 =
        .ok [⟨requestA, 0⟩] ∧
      share (scoredCandidates oneBlockStore.residency [⟨requestA, 0⟩] {⟨requestA, 0⟩}).length 0 = 0 := by
  decide +kernel

end Coldest

section Failure

/-- What an unsuccessful batch leaves behind, by the step that failed. -/
inductive FailedCopy (dev : Device μ φ ν S) (live : List (BlockRef × Nat)) (s : Store μ σ) : Store μ σ → Prop
  | exhausted (hroom : s.cpuFree.length < live.length) : FailedCopy dev live s s
  /-- The slots are allocated before the `try` block. -/
  | indexTensors (hroom : live.length ≤ s.cpuFree.length) (hfault : dev.storeFault s.tick = some .indexTensors) :
      FailedCopy dev live s { s with cpuFree := s.cpuFree.drop live.length, tick := s.tick + 1 }
  | copy {torn : φ} (hroom : live.length ≤ s.cpuFree.length) (hfault : dev.storeFault s.tick = some (.copy torn)) :
      FailedCopy dev live s
        { s with
          cpuFree := (s.cpuFree.take live.length).reverse ++ s.cpuFree.drop live.length
          mem := dev.storeTorn torn s.mem (live.map Prod.snd) (s.cpuFree.take live.length)
          tick := s.tick + 1 }
  /-- The caller waits outside the `try` block that would return the slots. -/
  | event (hroom : live.length ≤ s.cpuFree.length) (hfault : dev.storeFault s.tick = some .event) :
      FailedCopy dev live s
        { s with
          cpuFree := s.cpuFree.drop live.length
          mem := dev.store s.mem (live.map Prod.snd) (s.cpuFree.take live.length)
          tick := s.tick + 1 }

theorem copyAndPublish_fails (dev : Device μ φ ν S) {live : List (BlockRef × Nat)} {s : Store μ σ} (hne : live ≠ [])
    (hfail : s.cpuFree.length < live.length ∨ (dev.storeFault s.tick).isSome) :
    ∃ e s', copyAndPublish dev live s = (.error e, s') ∧ FailedCopy dev live s s' := by
  have hlen : live.length ≠ 0 := by simpa using hne
  by_cases hroom : s.cpuFree.length < live.length
  · refine ⟨.cpuPoolExhausted live.length s.cpuFree.length, s, ?_, .exhausted hroom⟩
    simp only [copyAndPublish, copyGpuToCpuBatch, bind, Eff.andThen, List.length_map, if_neg hlen, if_pos hroom]
  · obtain ⟨fault, hfault⟩ := Option.isSome_iff_exists.mp (hfail.resolve_left hroom)
    cases fault with
    | indexTensors =>
        refine ⟨.device, _, ?_, .indexTensors (not_lt.mp hroom) hfault⟩
        simp only [copyAndPublish, copyGpuToCpuBatch, bind, Eff.andThen, List.length_map, if_neg hlen,
          if_neg hroom, hfault]
    | copy torn =>
        refine ⟨.device, _, ?_, .copy (not_lt.mp hroom) hfault⟩
        simp only [copyAndPublish, copyGpuToCpuBatch, bind, Eff.andThen, List.length_map, if_neg hlen,
          if_neg hroom, hfault]
    | event =>
        refine ⟨.device, _, ?_, .event (not_lt.mp hroom) hfault⟩
        simp only [copyAndPublish, copyGpuToCpuBatch, bind, Eff.andThen, List.length_map, if_neg hlen,
          if_neg hroom, hfault, synchronize, if_true, Eff.raise]

/-- The two entry points of the offload manager. -/
inductive OffloadCall where
  | offloadFraction (candidates : List BlockRef) (fraction : ℚ) (scoredBlocks : Finset BlockRef)
  | maybeOffload (candidates : List BlockRef)

namespace OffloadCall

variable (cfg : OrchestratorConfig) (dev : Device μ φ ν S) (scorer : BlockScorer σ ν S)

def perform : OffloadCall → StoreM μ σ (List BlockRef)
  | .offloadFraction candidates fraction scoredBlocks =>
      KVOffload.offloadFraction dev scorer candidates fraction scoredBlocks
  | .maybeOffload candidates => KVOffload.maybeOffload cfg dev scorer candidates

/-- The blocks the call picks, and the scorer afterwards; none if it returns or raises before that. -/
def selection (s : Store μ σ) : OffloadCall → Except PyError (List BlockRef) × σ
  | .offloadFraction candidates fraction scoredBlocks =>
      let eligible := scoredCandidates s.residency candidates scoredBlocks
      if 0 ≤ fraction ∧ fraction < 1 ∧ eligible ≠ [] then
        scorer.selectForEviction s.scorer eligible (eligible.length - numToOffload eligible.length fraction)
      else (.ok [], s.scorer)
  | .maybeOffload candidates =>
      let eligible := candidates.filter fun ref => isGpuComplete s.residency ref
      if cfg.gpuBudgetBlocks < eligible.length then scorer.selectForEviction s.scorer eligible cfg.gpuBudgetBlocks
      else (.ok [], s.scorer)

/-- The batch the call hands to the copy. -/
def batch (s : Store μ σ) (call : OffloadCall) : List (BlockRef × Nat) :=
  match (call.selection cfg scorer s).1 with
  | .ok refs => refsWithGpu s.residency refs
  | .error _ => []

/-- What the call makes of the copy: one entry point swallows its exceptions, the other does not. -/
def handle : OffloadCall → StoreM μ σ (List BlockRef) → StoreM μ σ (List BlockRef)
  | .offloadFraction _ _ _, m => Eff.attempt m fun _ => pure []
  | .maybeOffload _, m => m

/-- What the caller sees of a failure. -/
def Reports : OffloadCall → Except PyError (List BlockRef) → Prop
  | .offloadFraction _ _ _, r => r = .ok []
  | .maybeOffload _, r => ∃ e, r = .error e

/-- Selecting changes no recorded score. -/
theorem selection_scorer (s : Store μ σ) (call : OffloadCall) :
    scorer.known (call.selection cfg scorer s).2 = scorer.known s.scorer ∧
      scorer.value (call.selection cfg scorer s).2 = scorer.value s.scorer := by
  cases call with
  | offloadFraction candidates fraction scoredBlocks =>
      simp only [selection]
      split_ifs
      · exact ⟨scorer.known_select _ _ _, scorer.value_select _ _ _⟩
      · exact ⟨rfl, rfl⟩
  | maybeOffload candidates =>
      simp only [selection]
      split_ifs
      · exact ⟨scorer.known_select _ _ _, scorer.value_select _ _ _⟩
      · exact ⟨rfl, rfl⟩

variable {cfg dev scorer}

theorem perform_of_batch {s : Store μ σ} {call : OffloadCall} (hne : call.batch cfg scorer s ≠ []) :
    call.perform cfg dev scorer s =
      call.handle (copyAndPublish dev (call.batch cfg scorer s))
        { s with scorer := (call.selection cfg scorer s).2 } := by
  rw [batch] at hne ⊢
  rcases hout : call.selection cfg scorer s with ⟨e | refs, x⟩
  · simp [hout] at hne
  simp only [hout] at hne ⊢
  -- a call that made no selection has no batch
  have hnone : (Except.ok [], s.scorer) = ((.ok refs, x) : Except PyError (List BlockRef) × σ) → False := by
    intro heq
    obtain rfl : [] = refs := Except.ok.inj (Prod.mk.inj heq).1
    exact hne rfl
  cases call with
  | offloadFraction candidates fraction scoredBlocks =>
      simp only [selection] at hout
      split_ifs at hout with hmade
      · exact offloadFraction_of_select ⟨hmade.1, hmade.2.1⟩ hmade.2.2 hout hne
      · exact (hnone hout).elim
  | maybeOffload candidates =>
      simp only [selection] at hout
      split_ifs at hout with hmade
      · exact maybeOffload_of_select hmade hout hne
      · exact (hnone hout).elim

/-- A failed copy is reported the way the entry point reports failures, in the state it left. -/
theorem handle_of_error {m : StoreM μ σ (List BlockRef)} {s s' : Store μ σ} {e : PyError} (call : OffloadCall)
    (hm : m s = (.error e, s')) : call.Reports (call.handle m s).1 ∧ (call.handle m s).2 = s' := by
  cases call with
  | offloadFraction candidates fraction scoredBlocks =>
      rw [handle, Eff.attempt, hm]
      exact ⟨rfl, rfl⟩
  | maybeOffload candidates =>
      rw [handle, hm]
      exact ⟨⟨e, rfl⟩, rfl⟩

end OffloadCall

/-- Free CPU slots are distinct and belong to no offloaded block. -/
structure Store.Separate (s : Store μ σ) : Prop where
  nodup : s.cpuFree.Nodup
  unheld : ∀ c ∈ heldCpu s.residency, c ∉ s.cpuFree

/-- The pool of every state that operations can reach is separate. -/
theorem StoreOk.separate {cfg : OrchestratorConfig} {dev : Device μ φ ν S} {K : Backing dev} {s : Store μ σ}
    (h : StoreOk cfg K s) : s.Separate := by
  obtain ⟨leaked, -, hinv⟩ := h
  have hpool := Multiset.nodup_add.mp (Multiset.nodup_add.mp hinv.cpu_nodup).1
  constructor
  · exact Multiset.coe_nodup.mp hpool.1
  · intro c hheld hfree
    exact Multiset.disjoint_left.mp hpool.2.2 (Multiset.mem_coe.mpr hfree) (Multiset.mem_coe.mpr hheld)

section Bytes

variable {α : Type} {L H N C : Nat} {runtime : Runtime (Memory α L H N C) (Memory α L H N C) ν S}

/-- The failed call left no trace: the table, the recorded scores and the set of free CPU slots are as before, and
no CPU slot of an offloaded block was written. -/
structure Undone (scorer : BlockScorer σ ν S) (s s' : Store (Memory α L H N C) σ) : Prop where
  residency : s'.residency = s.residency
  known : scorer.known s'.scorer = scorer.known s.scorer
  value : scorer.value s'.scorer = scorer.value s.scorer
  free : ∀ c, c ∈ s'.cpuFree ↔ c ∈ s.cpuFree
  unwritten : ∀ c ∈ heldCpu s.residency, ∀ layer, s'.mem.cpu layer c = s.mem.cpu layer c

theorem FailedCopy.frame {live : List (BlockRef × Nat)} {s s' : Store (Memory α L H N C) σ}
    (h : FailedCopy (combinedDevice runtime) live s s') (hsep : s.Separate) :
    s'.residency = s.residency ∧ s'.scorer = s.scorer ∧
      ∀ c ∈ heldCpu s.residency, ∀ layer, s'.mem.cpu layer c = s.mem.cpu layer c := by
  have hnot : ∀ c ∈ heldCpu s.residency, c ∉ s.cpuFree.take live.length :=
    fun c hc hmem => hsep.unheld c hc (List.mem_of_mem_take hmem)
  cases h with
  | exhausted _ => exact ⟨rfl, rfl, fun _ _ _ => rfl⟩
  | indexTensors _ _ => exact ⟨rfl, rfl, fun _ _ _ => rfl⟩
  | copy _ _ => exact ⟨rfl, rfl, fun c hc layer => if_neg (hnot c hc)⟩
  | event _ _ => exact ⟨rfl, rfl, fun c hc layer => indexCopy_zip_of_not_mem (hnot c hc) _ _⟩

/-- The free slots survive exactly the failures that strike before the allocation or inside the `try` block. -/
theorem FailedCopy.free_iff {dev : Device μ φ ν S} {live : List (BlockRef × Nat)} {s s' : Store μ σ}
    (h : FailedCopy dev live s s') (hnodup : s.cpuFree.Nodup) (hne : live ≠ []) :
    (∀ c, c ∈ s'.cpuFree ↔ c ∈ s.cpuFree) ↔
      s.cpuFree.length < live.length ∨ ∃ torn, dev.storeFault s.tick = some (.copy torn) := by
  have hlost : live.length ≤ s.cpuFree.length → ¬∀ c, c ∈ s.cpuFree.drop live.length ↔ c ∈ s.cpuFree := by
    intro hroom hsame
    have hlen : live.length ≠ 0 := by simpa using hne
    obtain ⟨c, hc⟩ := List.exists_mem_of_length_pos (show 0 < (s.cpuFree.take live.length).length by
      rw [List.length_take]
      omega)
    have hsplit : (s.cpuFree.take live.length ++ s.cpuFree.drop live.length).Nodup := by rwa [List.take_append_drop]
    exact (List.nodup_append.mp hsplit).2.2 c hc c ((hsame c).mpr (List.mem_of_mem_take hc)) rfl
  cases h with
  | exhausted hroom => exact ⟨fun _ => Or.inl hroom, fun _ _ => Iff.rfl⟩
  | indexTensors hroom hfault =>
      refine ⟨fun hsame => absurd hsame (hlost hroom), ?_⟩
      rintro (hshort | ⟨torn, htorn⟩)
      · omega
      · rw [hfault] at htorn
        cases htorn
  | copy hroom hfault =>
      refine ⟨fun _ => Or.inr ⟨_, hfault⟩, fun _ c => ?_⟩
      show c ∈ (s.cpuFree.take live.length).reverse ++ s.cpuFree.drop live.length ↔ c ∈ s.cpuFree
      rw [List.mem_append, List.mem_reverse, ← List.mem_append, List.take_append_drop]
  | event hroom hfault =>
      refine ⟨fun hsame => absurd hsame (hlost hroom), ?_⟩
      rintro (hshort | ⟨torn, htorn⟩)
      · omega
      · rw [hfault] at htorn
        cases htorn

/-- A call whose batch fails leaves no trace if and only if the pool was too small or the failing step lies
inside the guarded copy. -/
theorem failed_offload_undone_iff (cfg : OrchestratorConfig) (scorer : BlockScorer σ ν S)
    {s : Store (Memory α L H N C) σ} (hsep : s.Separate) (call : OffloadCall) (hne : call.batch cfg scorer s ≠ [])
    (hfail : s.cpuFree.length < (call.batch cfg scorer s).length ∨ (runtime.storeFault s.tick).isSome) :
    call.Reports (call.perform cfg (combinedDevice runtime) scorer s).1 ∧
        Undone scorer s (call.perform cfg (combinedDevice runtime) scorer s).2 ↔
      s.cpuFree.length < (call.batch cfg scorer s).length ∨ ∃ torn, runtime.storeFault s.tick = some (.copy torn) := by
  let s₁ := { s with scorer := (call.selection cfg scorer s).2 }
  have hsep₁ : s₁.Separate := ⟨hsep.nodup, hsep.unheld⟩
  obtain ⟨e, s', hcopy, hfailed⟩ := copyAndPublish_fails (combinedDevice runtime) (s := s₁) hne hfail
  obtain ⟨hreports, hstate⟩ := OffloadCall.handle_of_error call hcopy
  obtain ⟨hresidency, hscorer, hunwritten⟩ := hfailed.frame hsep₁
  obtain ⟨hknown, hvalue⟩ := OffloadCall.selection_scorer cfg scorer s call
  have hfree := hfailed.free_iff hsep₁.nodup hne
  rw [OffloadCall.perform_of_batch hne, hstate]
  refine Iff.trans ⟨fun h => h.2.free, fun hsame => ⟨hreports, ?_⟩⟩ hfree
  refine ⟨hresidency, ?_, ?_, hsame, hunwritten⟩
  · rw [hscorer]
    exact hknown
  · rw [hscorer]
    exact hvalue

/-- Every store fails with `fault`. -/
def failingRuntime (fault : StoreFault SmallMemory) : Runtime SmallMemory SmallMemory Unit Nat :=
  stableRuntime (fun _ _ => ()) (fun _ => some fault) (fun _ => none) fun _ => false

/-- Two complete blocks of a request, both scored, with two CPU slots free. -/
def twoBlockStore : Store SmallMemory LruState where
  residency := (ResidencyTable.empty.markGpu ⟨requestA, 0⟩ 3 true).markGpu ⟨requestA, 1⟩ 5 true
  cpuFree := [0, 1]
  lru := .empty
  stagingFree := [0]
  scorer := ⟨(OrderedDict.empty.set ⟨requestA, 0⟩ 0).set ⟨requestA, 1⟩ 0, 0⟩
  mem := blankMemory
  tick := 0

def twoBlocks : List BlockRef := [⟨requestA, 0⟩, ⟨requestA, 1⟩]

theorem failed_offload_undone_torn :
    (OffloadCall.maybeOffload twoBlocks).Reports ((OffloadCall.maybeOffload twoBlocks).perform smallConfig
        (combinedDevice (failingRuntime (.copy blankMemory))) lruScorer twoBlockStore).1 ∧
      Undone lruScorer twoBlockStore ((OffloadCall.maybeOffload twoBlocks).perform smallConfig
        (combinedDevice (failingRuntime (.copy blankMemory))) lruScorer twoBlockStore).2 :=
  (failed_offload_undone_iff smallConfig lruScorer ⟨by decide, by decide +kernel⟩ (.maybeOffload twoBlocks)
    (by decide +kernel) (Or.inr rfl)).mpr (Or.inr ⟨_, rfl⟩)

/-- The call picks a batch while slot 0 is free; afterwards slot 0 is not free and no block is on the CPU. -/
def LosesSlot (fault : StoreFault SmallMemory) (call : OffloadCall) : Prop :=
  call.batch smallConfig lruScorer twoBlockStore ≠ [] ∧ 0 ∈ twoBlockStore.cpuFree ∧
    0 ∉ (call.perform smallConfig (combinedDevice (failingRuntime fault)) lruScorer twoBlockStore).2.cpuFree ∧
    (call.perform smallConfig (combinedDevice (failingRuntime fault)) lruScorer twoBlockStore).2.residency.numCpu = 0

/-- Index tensors that cannot be built and an event that raises each cost the slots of the batch, at both
entry points. -/
theorem unguarded_fault_leaks :
    LosesSlot .indexTensors (.offloadFraction twoBlocks (1 / 2) twoBlocks.toFinset) ∧
      LosesSlot .indexTensors (.maybeOffload twoBlocks) ∧
      LosesSlot .event (.offloadFraction twoBlocks (1 / 2) twoBlocks.toFinset) ∧
      LosesSlot .event (.maybeOffload twoBlocks) := by
  unfold LosesSlot
  decide +kernel

end Bytes

end Failure

end KVOffload

import KVOffload.StagingContract

/-! Promotion of cold blocks. `promote_hot_cpu_blocks` sorts the CPU-resident blocks of a request by
score, cuts the list at `max_count` and hands it to `ensure_resident`, which serves it in order until
every slot is taken. None of the listed blocks is staged yet, so the evictions of the allocation loop
fall on other blocks, and what is left out is a tail of the ranking. -/

namespace KVOffload
open Base

variable {μ φ ν σ S : Type} [LinearOrder S]

/-- The blocks of a request that a promotion chooses from. -/
def coldBlocks (t : ResidencyTable) (requestId : RequestId) : List BlockRef :=
  (t.refsForRequest requestId).filter (isCpuResident t)

/-- The cold blocks with their scores, as one call reads them. -/
def coldScores (scorer : BlockScorer σ ν S) (s : Store μ σ) (requestId : RequestId) : List (BlockRef × S) :=
  (coldBlocks s.residency requestId).zip (scorer.scores s.scorer (coldBlocks s.residency requestId)).1

/-- The block fell back to the CPU slot it had while it was staged. -/
def FellBack (t t' : ResidencyTable) (ref : BlockRef) : Prop :=
  ∃ old loc, t.get ref = some old ∧ t'.get ref = some loc ∧ loc.residency = .cpu ∧ loc.cpuSlot = old.cpuSlot

/-- A promotion that returned `out`: the best cold blocks are staged, as many as `maxCount` and the
slots allow, and every other staged block stays or falls back. -/
structure Promoted (cfg : OrchestratorConfig) (scorer : BlockScorer σ ν S) (requestId : RequestId) (maxCount : Int)
    (s : Store μ σ) (out : OrderedDict BlockRef Nat) (s' : Store μ σ) : Prop where
  count : out.keys.length = min (min maxCount.toNat (coldBlocks s.residency requestId).length) cfg.numStagingSlots
  cold : ∀ ref ∈ out.keys, ref ∈ coldBlocks s.residency requestId
  best : ∀ e ∈ coldScores scorer s requestId, ∀ e' ∈ coldScores scorer s requestId,
    e.1 ∈ out.keys → e'.1 ∉ out.keys → e'.2 ≤ e.2
  staged : ∀ ref slot, out.get? ref = some slot → StagedAt s'.residency ref slot
  slots_distinct : ∀ ref ref' slot, out.get? ref = some slot → out.get? ref' = some slot → ref = ref'
  displaced : ∀ ref slot, StagedAt s.residency ref slot →
    StagedAt s'.residency ref slot ∨ FellBack s.residency s'.residency ref

section

variable {cfg : OrchestratorConfig} {dev : Device μ φ ν S} {K : Backing dev} {leaked : Multiset Nat}
  {scorer : BlockScorer σ ν S} {s s₁ s₂ s₃ s' : Store μ σ} {refs : List BlockRef} {scan : Scan} {res : Reservation}
  {out : OrderedDict BlockRef Nat × List BlockRef} {r : RequestId} {maxCount : Int}

/-- A staged block that a call does not keep staged falls back to its CPU copy. -/
theorem EnsureRun.displaced
    (h : EnsureRun cfg K scorer leaked s (OrderedDict.fromKeys refs).keys scan s₁ res s₂ s₃ out s') {ref : BlockRef}
    {slot : Nat} (hstaged : StagedAt s.residency ref slot) :
    StagedAt s'.residency ref slot ∨ FellBack s.residency s'.residency ref := by
  by_cases hkey : ref ∈ s₂.lru.keys
  · exact Or.inl ((h.stagedAt_iff hstaged).mpr hkey)
  · refine Or.inr ?_
    have hnot : ref ∉ res.allocs.map (·.ref) := fun hmap => h.not_mem_parts hstaged (List.mem_append_left _ hmap)
    have hunstaged : ¬∃ slot', StagedAt s'.residency ref slot' := by
      simpa only [h.stagedAt_kept hnot, ← mem_keys_iff_staged h.reserving.inv] using hkey
    have hoffloaded : isOffloaded s'.residency ref = true := by
      rw [h.restages.1.isOffloaded]
      exact isOffloaded_iff.mpr (Or.inr ⟨slot, hstaged⟩)
    have hcpu := isCpuResident_iff.mpr ⟨hoffloaded, hunstaged⟩
    obtain ⟨old, hold, -, -⟩ := hstaged
    obtain ⟨loc, hloc, hsame⟩ := h.restages.1.of_some hold
    rw [isCpuResident, hloc, isCpu, Option.any_some, decide_eq_true_iff] at hcpu
    exact ⟨old, loc, hold, hloc, hcpu, hsame.cpuSlot.symm⟩

theorem coldBlocks_nodup (t : ResidencyTable) (r : RequestId) : (coldBlocks t r).Nodup :=
  (t.refsForRequest_nodup r).filter _

/-- The ranking of one call is the cold blocks in descending order of a score function. -/
theorem exists_ranking (dev : Device μ φ ν S) (scorer : BlockScorer σ ν S) (s : Store μ σ) {r : RequestId}
    (hne : coldBlocks s.residency r ≠ []) :
    ∃ score : BlockRef → S, coldScores scorer s r = (coldBlocks s.residency r).map (fun ref => (ref, score ref)) ∧
      (dev.argsortDescending (coldScores scorer s r)).Perm (coldBlocks s.residency r) ∧
      (dev.argsortDescending (coldScores scorer s r)).Pairwise fun ref ref' => score ref' ≤ score ref := by
  have hlen := scorer.scores_length s.scorer (coldBlocks s.residency r)
  have hvalues : (scorer.scores s.scorer (coldBlocks s.residency r)).1 ≠ [] := by
    intro hnil
    rw [hnil] at hlen
    exact hne (List.length_eq_zero_iff.mp hlen.symm)
  have : Nonempty S := ⟨List.head _ hvalues⟩
  obtain ⟨score, hscore⟩ := exists_score (coldBlocks_nodup s.residency r) hlen
  have hsorted := dev.argsortDescending_sorted (coldBlocks s.residency r) score
  rw [← hscore] at hsorted
  refine ⟨score, hscore, ?_, hsorted⟩
  have hperm := dev.argsortDescending_perm (coldScores scorer s r)
  rwa [coldScores, List.map_fst_zip hlen.ge] at hperm

theorem promoted_empty (hguard : maxCount ≤ 0 ∨ coldBlocks s.residency r = []) :
    Promoted cfg scorer r maxCount s .empty s where
  count := by
    have hzero : min maxCount.toNat (coldBlocks s.residency r).length = 0 := by
      rcases hguard with hcount | hnil
      · rw [Int.toNat_of_nonpos hcount, Nat.zero_min]
      · rw [hnil, List.length_nil, Nat.min_zero]
    rw [hzero, Nat.zero_min]
    rfl
  cold ref href := absurd href List.not_mem_nil
  best e _ e' _ he := absurd he List.not_mem_nil
  staged ref slot hslot := by cases hslot
  slots_distinct ref ref' slot hslot := by cases hslot
  displaced ref slot hstaged := Or.inl hstaged

/-- Staging the head of a ranking promotes the best cold blocks: the call serves a prefix of the ranking,
so a block left out stands behind every staged one. -/
theorem promoted_of_ensureRun {x : σ} {ranking : List BlockRef} {score : BlockRef → S}
    (hscore : coldScores scorer s r = (coldBlocks s.residency r).map fun ref => (ref, score ref))
    (hperm : ranking.Perm (coldBlocks s.residency r))
    (hsorted : ranking.Pairwise fun ref ref' => score ref' ≤ score ref)
    (hinv : StoreInv cfg K leaked 0 s')
    (h : EnsureRun cfg K scorer leaked { s with scorer := x }
      (OrderedDict.fromKeys (ranking.take maxCount.toNat)).keys scan s₁ res s₂ s₃ out s') :
    Promoted cfg scorer r maxCount s out.1 s' := by
  have hcpu : ∀ ref ∈ ranking.take maxCount.toNat, isCpuResident s.residency ref = true := by
    intro ref href
    exact (List.mem_filter.mp (hperm.mem_iff.mp (List.mem_of_mem_take href))).2
  have hnodup : (ranking.take maxCount.toNat).Nodup :=
    (hperm.nodup_iff.mpr (coldBlocks_nodup _ r)).sublist (List.take_sublist _ _)
  have hkeys : out.1.keys.Perm ((ranking.take maxCount.toNat).take cfg.numStagingSlots) := h.keys_perm hnodup hcpu
  have hmem : ∀ ref, ref ∈ out.1.keys ↔ ref ∈ ranking.take (min cfg.numStagingSlots maxCount.toNat) := by
    intro ref
    rw [hkeys.mem_iff, List.take_take]
  refine ⟨?_, fun ref href => ?_, fun e he e' he' hin hout => ?_, fun ref slot hslot => h.stagedAt_of_cpu hcpu hslot,
    fun ref ref' slot hslot hslot' => ?_, fun ref slot hbefore => h.displaced hbefore⟩
  · rw [hkeys.length_eq, List.length_take, List.length_take, hperm.length_eq, min_comm]
  · exact hperm.mem_iff.mp (List.mem_of_mem_take ((hmem ref).mp href))
  · rw [hscore, List.mem_map] at he he'
    obtain ⟨ref, -, rfl⟩ := he
    obtain ⟨ref', href', rfl⟩ := he'
    exact rel_of_mem_take hsorted ((hmem ref).mp hin) (hperm.mem_iff.mpr href') (mt (hmem ref').mpr hout)
  · apply hinv.lru_injective
    · exact (hinv.lru_iff ref slot).mpr (h.stagedAt_of_cpu hcpu hslot)
    · exact (hinv.lru_iff ref' slot).mpr (h.stagedAt_of_cpu hcpu hslot')

/-- One promotion from a state that satisfies the invariant. -/
theorem wp_promote_best {o : Orchestrator μ σ} (hinv : StoreInv cfg K leaked 0 o.store) (hsparse : o.sparseMode = true)
    (r : RequestId) (maxCount : Int) (hcopy : dev.fetchFault o.store.tick = none) :
    Eff.wp (promoteHotCpuBlocks cfg dev scorer r maxCount)
      (fun out o' => Promoted cfg scorer r maxCount o.store out o'.store) (fun _ _ => False) o := by
  rw [promoteHotCpuBlocks, Eff.wp_bind, Eff.wp_read, Eff.wp_ite]
  refine ⟨fun hguard => ?_, fun hguard => ?_⟩
  · apply promoted_empty
    simpa [hsparse, coldBlocks] using hguard
  have hne : coldBlocks o.store.residency r ≠ [] := by
    intro hnil
    apply hguard
    rw [coldBlocks] at hnil
    simp [hnil]
  obtain ⟨score, hscore, hperm, hsorted⟩ := exists_ranking dev scorer o.store hne
  rw [Eff.wp_bind, Eff.wp_modify, Eff.wp_bind, onStore, Eff.wp_zoom]
  refine Eff.wp_mono (wp_ensureResident (hinv.rescore _ _) _) (fun out s' hs' => ?_) fun _ s' hfail => ?_
  · obtain ⟨hinv', scan, s₁, res, s₂, s₃, hphases⟩ := hs'
    exact promoted_of_ensureRun hscore hperm hsorted hinv' hphases
  · have hfault : (dev.fetchFault o.store.tick).isSome := (hfail.fault_of_cpu fun ref href =>
      (List.mem_filter.mp (hperm.mem_iff.mp (List.mem_of_mem_take href))).2).1
    rw [hcopy] at hfault
    cases hfault

end

/-- In every reachable state with sparse mode on, a promotion whose copies succeed stages a best prefix
of the cold blocks. -/
theorem promoteHotCpuBlocks_best_prefix (cfg : OrchestratorConfig) (dev : Device μ φ ν S) (scorer : BlockScorer σ ν S)
    (x : σ) (mem : μ) {ops : List (Op μ)} (hops : ∀ op ∈ ops, op.Distinct) {o : Orchestrator μ σ}
    (hreach : o = run (step cfg dev scorer) (Orchestrator.init cfg x mem) ops) (hsparse : o.sparseMode = true)
    (r : RequestId) (maxCount : Int) (hcopy : dev.fetchFault o.store.tick = none) :
    ∃ out o', promoteHotCpuBlocks cfg dev scorer r maxCount o = (.ok out, o') ∧
      Promoted cfg scorer r maxCount o.store out o'.store := by
  have hok := storeOk_run cfg dev scorer x mem hops
  rw [← hreach] at hok
  obtain ⟨leaked, -, hinv⟩ := hok
  exact Eff.exists_of_wp (wp_promote_best hinv hsparse r maxCount hcopy)

/-- The first of the four offloaded blocks is staged; of the other three, the second and then the fourth
have been selected. -/
def threeCold : Orchestrator SmallMemory LruState :=
  run (step roomyConfig (combinedDevice steadyRuntime) lruScorer)
    (Orchestrator.init roomyConfig ⟨.empty, 0⟩ blankMemory)
    (offloadAll ++ [.ensureResident [⟨requestA, 0⟩], .noteSelection [requestA] (selectToken 2) 2,
      .noteSelection [requestA] (selectToken 6) 2])

/-- Of the three cold blocks, the two selected ones are staged, the last selected one first. -/
theorem promoteHotCpuBlocks_best_prefix_threeCold :
    ∃ out o', promoteHotCpuBlocks roomyConfig (combinedDevice steadyRuntime) lruScorer requestA 2 threeCold =
        (.ok out, o') ∧
      out.keys = [⟨requestA, 3⟩, ⟨requestA, 1⟩] ∧
      Promoted roomyConfig lruScorer requestA 2 threeCold.store out o'.store := by
  have hkeys : (promoteHotCpuBlocks roomyConfig (combinedDevice steadyRuntime) lruScorer requestA 2
      threeCold).1.toOption.any (fun out => out.keys = [⟨requestA, 3⟩, ⟨requestA, 1⟩]) = true := by decide +kernel
  have hsparse : threeCold.sparseMode = true := by decide +kernel
  obtain ⟨out, o', hcall, hpromoted⟩ := promoteHotCpuBlocks_best_prefix roomyConfig (combinedDevice steadyRuntime)
    lruScorer ⟨.empty, 0⟩ blankMemory (by simp [offloadAll, Op.Distinct]) rfl hsparse requestA 2 rfl
  rw [← threeCold] at hcall
  rw [hcall] at hkeys
  exact ⟨out, o', hcall, of_decide_eq_true hkeys, hpromoted⟩

end KVOffload

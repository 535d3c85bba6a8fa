import KVOffload.OrchestratorRuns

/-! Where a block is, as far as offloading is concerned: not tracked, on a GPU page that is complete or
still being filled, or parked on the CPU (staged or not). Every operation of the orchestrator acts on
this view by one equation, whatever it does to slots, scores and memory. -/

namespace KVOffload
open Base

inductive Placement where
  | absent
  | gpu (page : Nat) (complete : Bool)
  | parked
  deriving DecidableEq

namespace Placement

/-- A sync that lists the block on `page`. A changed page starts with a fresh completeness flag, a
parked block stays parked. -/
def bound (page : Nat) (full : Bool) : Placement → Placement
  | absent => gpu page full
  | gpu old complete => gpu page (if old = page then complete || full else full)
  | parked => parked

/-- Prefill completion of a full block. -/
def graduated : Placement → Placement
  | absent => absent
  | gpu page _ => gpu page true
  | parked => parked

theorem bound_eq_gpu {p : Placement} {page page' : Nat} {full complete : Bool}
    (h : p.bound page full = gpu page' complete) :
    page' = page ∧ (complete = true → full = true ∨ p = gpu page true) := by
  cases p with
  | absent =>
      obtain ⟨rfl, rfl⟩ := gpu.inj h
      exact ⟨rfl, Or.inl⟩
  | gpu old done =>
      obtain ⟨rfl, rfl⟩ := gpu.inj h
      refine ⟨rfl, fun hdone => ?_⟩
      by_cases hpage : old = page
      · subst hpage
        rw [if_pos rfl, Bool.or_eq_true] at hdone
        exact hdone.symm.imp_right fun hold => by rw [hold]
      · rw [if_neg hpage] at hdone
        exact Or.inl hdone
  | parked => cases h

/-- A listed block ends up complete if it was on that page, or if it is full and was not parked. -/
theorem bound_complete_iff {p : Placement} {page : Nat} {full : Bool} :
    (∃ page', p.bound page full = gpu page' true) ↔ p = gpu page true ∨ full = true ∧ p ≠ parked := by
  cases p with
  | absent => simp [bound]
  | gpu old complete => by_cases hpage : old = page <;> simp [bound, hpage]
  | parked => simp [bound]

theorem bound_eq_parked {p : Placement} {page : Nat} {full : Bool} : p.bound page full = parked ↔ p = parked := by
  cases p <;> simp [bound]

theorem graduated_eq_gpu {p : Placement} {page : Nat} {complete : Bool} (h : p.graduated = gpu page complete) :
    ∃ old, p = gpu page old := by
  cases p with
  | absent => cases h
  | gpu page' old =>
      obtain ⟨rfl, -⟩ := gpu.inj h
      exact ⟨old, rfl⟩
  | parked => cases h

end Placement

def placementOf : Option BlockLocation → Placement
  | none => .absent
  | some loc => if loc.residency = .gpu then .gpu (loc.gpuBlockId.getD 0) loc.complete else .parked

def placement (t : ResidencyTable) (ref : BlockRef) : Placement := placementOf (t.get ref)

section Views

variable {t t' : ResidencyTable} {ref : BlockRef}

theorem placement_eq_gpu {page : Nat} {complete : Bool} :
    placement t ref = .gpu page complete ↔
      ∃ loc, t.get ref = some loc ∧ loc.residency = .gpu ∧ loc.gpuBlockId = some page ∧ loc.complete = complete := by
  unfold placement placementOf
  cases hget : t.get ref with
  | none => simp
  | some loc =>
      obtain ⟨p, hp⟩ := Option.isSome_iff_exists.mp (t.wellFormed ref loc hget).gpuBlockId_isSome
      by_cases hres : loc.residency = .gpu <;> simp [hres, hp]

theorem isGpuComplete_iff_placement : isGpuComplete t ref = true ↔ ∃ page, placement t ref = .gpu page true := by
  rw [isGpuComplete_iff]
  constructor
  · rintro ⟨loc, hget, hres, hcomplete⟩
    obtain ⟨page, hpage⟩ := Option.isSome_iff_exists.mp (t.wellFormed ref loc hget).gpuBlockId_isSome
    exact ⟨page, placement_eq_gpu.mpr ⟨loc, hget, hres, hpage, hcomplete⟩⟩
  · rintro ⟨page, hplace⟩
    obtain ⟨loc, hget, hres, -, hcomplete⟩ := placement_eq_gpu.mp hplace
    exact ⟨loc, hget, hres, hcomplete⟩

theorem gpuPage_eq_some_iff {page : Nat} :
    gpuPage t ref = some page ↔ ∃ complete, placement t ref = .gpu page complete := by
  rw [gpuPage_eq_some]
  constructor
  · rintro ⟨loc, hget, hres, hpage⟩
    exact ⟨loc.complete, placement_eq_gpu.mpr ⟨loc, hget, hres, hpage, rfl⟩⟩
  · rintro ⟨complete, hplace⟩
    obtain ⟨loc, hget, hres, hpage, -⟩ := placement_eq_gpu.mp hplace
    exact ⟨loc, hget, hres, hpage⟩

end Views

section Effects

variable {cfg : OrchestratorConfig} {t t' : ResidencyTable}

theorem placementOf_syncedLocation {old : Option BlockLocation} (hpage : ∀ loc ∈ old, loc.gpuBlockId.isSome)
    (page : Nat) (full : Bool) :
    placementOf (some (syncedLocation old page full)) = (placementOf old).bound page full := by
  cases old with
  | none => rfl
  | some loc =>
      obtain ⟨p, hp⟩ := Option.isSome_iff_exists.mp (hpage loc rfl)
      by_cases hres : loc.residency = .gpu
      · by_cases heq : p = page <;> simp [syncedLocation, placementOf, Placement.bound, hres, hp, heq]
      · simp [syncedLocation, placementOf, Placement.bound, hres]

theorem Synced.placement_listed {r : RequestId} {ids : List Nat} {n i page : Nat} (h : Synced cfg r ids n t t')
    (hi : ids[i]? = some page) :
    placement t' ⟨r, i⟩ = (placement t ⟨r, i⟩).bound page (isFull cfg n i) := by
  rw [placement, h.listed i page hi]
  exact placementOf_syncedLocation (fun loc hloc => (t.wellFormed _ loc hloc).gpuBlockId_isSome) _ _

theorem Synced.placement_kept {r : RequestId} {ids : List Nat} {n : Nat} (h : Synced cfg r ids n t t') {ref : BlockRef}
    (href : ref ∉ blockRefs r ids.length) : placement t' ref = placement t ref := by
  rw [placement, h.kept ref href]
  rfl

theorem Offloaded.placement {out : List BlockRef} (h : Offloaded t t' out) (ref : BlockRef) :
    placement t' ref = if ref ∈ out then .parked else placement t ref := by
  by_cases hmem : ref ∈ out
  · obtain ⟨loc, c, -, -, hget⟩ := h.moved ref hmem
    rw [if_pos hmem, KVOffload.placement, hget]
    rfl
  · rw [if_neg hmem, KVOffload.placement, h.kept ref hmem]
    rfl

theorem Graduated.placement {n : Nat} {refs : List BlockRef} (h : Graduated cfg n refs t t') (ref : BlockRef) :
    placement t' ref =
      if ref ∈ refs ∧ Filled cfg n ref then (placement t ref).graduated else placement t ref := by
  rw [KVOffload.placement, KVOffload.placement, h ref]
  cases t.get ref with
  | none => simp [placementOf, Placement.graduated]
  | some loc =>
      by_cases hfull : ref ∈ refs ∧ Filled cfg n ref
      · by_cases hres : loc.residency = .gpu <;>
          simp [BlockLocation.completeIf, hfull, placementOf, hres, Placement.graduated]
      · simp [BlockLocation.completeIf, hfull]

theorem Restages.placement (h : Restages t t') (ref : BlockRef) : placement t' ref = placement t ref := by
  rw [KVOffload.placement, KVOffload.placement]
  cases hget : t.get ref with
  | none => rw [h.get_eq_none_iff.mpr hget]
  | some loc =>
      obtain ⟨loc', hget', hsame⟩ := h.of_some hget
      rw [hget']
      simp only [placementOf, hsame.gpu_iff, hsame.gpuBlockId, hsame.complete]

theorem Cleaning.placement {μ φ ν σ S : Type} [LinearOrder S] {dev : Device μ φ ν S} {K : Backing dev}
    {scorer : BlockScorer σ ν S} {o o' : Orchestrator μ σ} {done : List BlockRef} (h : Cleaning cfg K scorer o done o')
    (ref : BlockRef) :
    KVOffload.placement o'.store.residency ref =
      if ref ∈ done then .absent else KVOffload.placement o.store.residency ref := by
  rw [KVOffload.placement, KVOffload.placement, h.get]
  by_cases hmem : ref ∈ done
  · rw [if_pos hmem, if_pos hmem]
    rfl
  · rw [if_neg hmem, if_neg hmem]

end Effects

end KVOffload

import KVOffload.StoreRuns

/-! What the staging pool's operations do. Staging only moves offloaded blocks between their CPU copy
and a staging page; it never changes a block's GPU page, CPU slot or completeness. Every case of
slot allocation is listed once, in `allocateSlot_cases`. -/

namespace KVOffload
open Base

variable {μ φ ν σ S : Type} [LinearOrder S]

/-- Two locations that differ at most in where the offloaded block is read from. -/
structure SameBlock (a b : BlockLocation) : Prop where
  gpuBlockId : a.gpuBlockId = b.gpuBlockId
  cpuSlot : a.cpuSlot = b.cpuSlot
  complete : a.complete = b.complete
  gpu_iff : a.residency = .gpu ↔ b.residency = .gpu

/-- The table changed by staging moves only. -/
def Restages (t t' : ResidencyTable) : Prop := ∀ ref, Option.Rel SameBlock (t.get ref) (t'.get ref)

namespace Restages

variable {t t' t'' : ResidencyTable} {ref : BlockRef} {loc old : BlockLocation}

theorem refl (t : ResidencyTable) : Restages t t := by
  intro ref
  cases t.get ref with
  | none => exact Option.Rel.none
  | some loc => exact Option.Rel.some ⟨rfl, rfl, rfl, Iff.rfl⟩

theorem trans (h : Restages t t') (h' : Restages t' t'') : Restages t t'' := by
  intro ref
  have hab := h ref
  have hbc := h' ref
  cases ha : t.get ref with
  | none =>
      rw [ha] at hab
      generalize t'.get ref = x at hab hbc
      cases hab
      exact hbc
  | some a =>
      rw [ha] at hab
      generalize t'.get ref = x at hab hbc
      generalize t''.get ref = y at hbc ⊢
      cases hab with
      | some hsame =>
          cases hbc with
          | some hsame' =>
              exact Option.Rel.some ⟨hsame.1.trans hsame'.1, hsame.2.trans hsame'.2, hsame.3.trans hsame'.3,
                hsame.4.trans hsame'.4⟩

theorem of_relocates (hold : t.get ref = some old) (ht : t.Relocates t' ref loc) (hsame : SameBlock old loc) :
    Restages t t' := by
  intro ref'
  rw [ht.get]
  by_cases heq : ref' = ref
  · subst heq
    rw [if_pos rfl, hold]
    exact Option.Rel.some hsame
  · rw [if_neg heq]
    exact refl t ref'

theorem get_eq_none_iff (h : Restages t t') : t'.get ref = none ↔ t.get ref = none := by
  have hrel := h ref
  generalize t.get ref = x at hrel ⊢
  generalize t'.get ref = y at hrel ⊢
  cases hrel <;> simp

theorem isSome_iff (h : Restages t t') : (t'.get ref).isSome ↔ (t.get ref).isSome := by
  rw [← not_iff_not, Option.not_isSome_iff_eq_none, Option.not_isSome_iff_eq_none]
  exact h.get_eq_none_iff

theorem of_some (h : Restages t t') (hget : t.get ref = some loc) :
    ∃ loc', t'.get ref = some loc' ∧ SameBlock loc loc' := by
  have hrel := h ref
  rw [hget] at hrel
  generalize hx : t'.get ref = x at hrel
  cases hrel with
  | some hsame => exact ⟨_, rfl, hsame⟩

end Restages

section Allocate

variable {cfg : OrchestratorConfig} {dev : Device μ φ ν S} {K : Backing dev} {leaked reserved : Multiset Nat}
  {s : Store μ σ}

theorem evictionCandidates_eq (h : StoreInv cfg K leaked reserved s) {exclude : List Nat}
    (hexclude : ∀ x ∈ exclude, x ∈ reserved) : evictionCandidates s exclude = s.lru.keys := by
  rw [evictionCandidates, OrderedDict.keys]
  congr 1
  refine List.filter_eq_self.mpr fun e he => ?_
  have hget : s.lru.get? e.1 = some e.2 := OrderedDict.get?_eq_some_iff.mpr he
  obtain ⟨loc, hloc, hstaging, -⟩ := (h.lru_iff e.1 e.2).mp hget
  have hnot : e.2 ∉ exclude := fun hmem => h.not_mem_reserved hget (hexclude _ hmem)
  simp [hnot, hloc, hstaging]

/-- The block with the lowest score among the staged ones, the oldest of them on a tie. -/
def IsVictim (scorer : BlockScorer σ ν S) (s : Store μ σ) (victim : BlockRef) : Prop :=
  ∃ score, argmin (s.lru.keys.zip (scorer.scores s.scorer s.lru.keys).1) = some (victim, score)

/-- The state after evicting `victim`: it falls back to its CPU copy and its slot is handed out. -/
structure Evicts (scorer : BlockScorer σ ν S) (s : Store μ σ) (victim : BlockRef) (slot : Nat) (s' : Store μ σ) :
    Prop where
  isVictim : IsVictim scorer s victim
  slot_eq : s.lru.get? victim = some slot
  state : ∃ old c t, s.residency.get victim = some old ∧ old.cpuSlot = some c ∧
    s.residency.Relocates t victim { residency := .cpu, gpuBlockId := old.gpuBlockId, cpuSlot := some c,
                                     complete := old.complete } ∧
    s' = { s with scorer := (scorer.scores s.scorer s.lru.keys).2, residency := t, lru := s.lru.erase victim }

theorem allocateSlot_cases (scorer : BlockScorer σ ν S) (h : StoreInv cfg K leaked reserved s) {exclude : List Nat}
    (hexclude : ∀ x ∈ exclude, x ∈ reserved) :
    (∃ slot rest, s.stagingFree = slot :: rest ∧
      allocateSlot scorer exclude s = (.ok slot, { s with stagingFree := rest })) ∨
    (s.stagingFree = [] ∧ s.lru.keys = [] ∧ allocateSlot scorer exclude s = (.error .noStagingSlots, s)) ∨
    (s.stagingFree = [] ∧ ∃ victim slot s', allocateSlot scorer exclude s = (.ok slot, s') ∧
      Evicts scorer s victim slot s') := by
  by_cases hfree : s.stagingFree = []
  · refine Or.inr ?_
    by_cases hempty : s.lru.keys = []
    · refine Or.inl ⟨hfree, hempty, ?_⟩
      simp only [allocateSlot, hfree, evictionCandidates_eq h hexclude, hempty, if_true]
    · refine Or.inr ⟨hfree, ?_⟩
      have hne : s.lru.keys.zip (scorer.scores s.scorer s.lru.keys).1 ≠ [] := by
        intro hnil
        have hlen := congrArg List.length hnil
        rw [List.length_zip, scorer.scores_length, min_self] at hlen
        exact hempty (List.length_eq_zero_iff.mp hlen)
      obtain ⟨⟨victim, score⟩, hmin⟩ := Option.ne_none_iff_exists'.mp (mt argmin_eq_none_iff.mp hne)
      have hkey : victim ∈ s.lru.keys := (List.of_mem_zip (argmin_mem hmin)).1
      obtain ⟨slot, hslot⟩ := OrderedDict.mem_keys_iff.mp hkey
      obtain ⟨old, hold, hstaging, -⟩ := (h.lru_iff victim slot).mp hslot
      obtain ⟨c, hc⟩ := Option.isSome_iff_exists.mp
        ((s.residency.wellFormed victim old hold).cpuSlot_isSome (by rw [hstaging]; decide))
      obtain ⟨t, ht, hmoved⟩ := ResidencyTable.markCpu_of_get hold c
      refine ⟨victim, slot, _, ?_, ⟨score, hmin⟩, hslot, old, c, t, hold, hc, hmoved, rfl⟩
      simp only [allocateSlot, hfree, evictionCandidates_eq h hexclude, hempty, if_false, hmin, hold, Option.bind_some,
        hc, ht, hslot]
  · obtain ⟨slot, rest, hcons⟩ := List.exists_cons_of_ne_nil hfree
    refine Or.inl ⟨slot, rest, hcons, ?_⟩
    simp only [allocateSlot, hcons]

end Allocate

section Scan

variable {cfg : OrchestratorConfig} {dev : Device μ φ ν S} {K : Backing dev} {leaked reserved : Multiset Nat}

/-- The block, with the CPU slot it is fetched from, if its only copy is there. -/
def cpuSource (t : ResidencyTable) (ref : BlockRef) : Option (BlockRef × Nat) :=
  match t.get ref with
  | some loc => if loc.residency = .cpu then loc.cpuSlot.map fun c => (ref, c) else none
  | none => none

theorem cpuSource_eq_some {t : ResidencyTable} {ref : BlockRef} {e : BlockRef × Nat} :
    cpuSource t ref = some e ↔
      e.1 = ref ∧ ∃ loc, t.get ref = some loc ∧ loc.residency = .cpu ∧ loc.cpuSlot = some e.2 := by
  unfold cpuSource
  cases t.get ref with
  | none => simp
  | some loc =>
      obtain ⟨ref', c⟩ := e
      by_cases hcpu : loc.residency = .cpu
      · simp only [hcpu, if_true, Option.map_eq_some_iff, Prod.mk.injEq, Option.some.injEq]
        constructor
        · rintro ⟨c', hc', rfl, rfl⟩
          exact ⟨rfl, loc, rfl, hcpu, hc'⟩
        · rintro ⟨rfl, loc', rfl, -, hc'⟩
          exact ⟨c, hc', rfl, rfl⟩
      · simp [hcpu]

/-- The first loop after the blocks `done`: the staged ones became the most recent and are in the
result, the CPU-resident ones are to be fetched, in order. -/
structure Scanned (cfg : OrchestratorConfig) {dev : Device μ φ ν S} (K : Backing dev) (leaked reserved : Multiset Nat)
    (s₀ : Store μ σ) (done : List BlockRef) (scan : Scan) (s : Store μ σ) : Prop where
  inv : StoreInv cfg K leaked reserved s
  state : s = { s₀ with lru := s.lru }
  lru_get? : ∀ ref, s.lru.get? ref = s₀.lru.get? ref
  doneLast : s.lru.keys.Pairwise fun x y => x ∈ done → y ∈ done
  result : ∀ ref slot, scan.result.get? ref = some slot ↔ ref ∈ done ∧ StagedAt s₀.residency ref slot
  toFetch : scan.toFetch = done.filterMap (cpuSource s₀.residency)

theorem StagedAt.unique {t : ResidencyTable} {ref : BlockRef} {slot slot' : Nat} (h : StagedAt t ref slot)
    (h' : StagedAt t ref slot') : slot = slot' := by
  obtain ⟨loc, hget, -, hslot⟩ := h
  obtain ⟨loc', hget', -, hslot'⟩ := h'
  obtain rfl : loc = loc' := Option.some.inj (hget.symm.trans hget')
  exact Option.some.inj (hslot.symm.trans hslot')

theorem mem_keys_iff_staged {s : Store μ σ} (h : StoreInv cfg K leaked reserved s) {ref : BlockRef} :
    ref ∈ s.lru.keys ↔ ∃ slot, StagedAt s.residency ref slot := by
  rw [OrderedDict.mem_keys_iff]
  exact exists_congr fun slot => h.lru_iff ref slot

variable {s₀ s : Store μ σ} {done : List BlockRef} {scan : Scan} {ref : BlockRef}

/-- A block that is not staged only adds what there is to fetch. -/
theorem Scanned.concat (h : Scanned cfg K leaked reserved s₀ done scan s)
    (hnone : ∀ slot, ¬StagedAt s₀.residency ref slot) {fetch : List (BlockRef × Nat)}
    (hfetch : fetch = (cpuSource s₀.residency ref).toList) :
    Scanned cfg K leaked reserved s₀ (done ++ [ref]) { scan with toFetch := scan.toFetch ++ fetch } s := by
  have hkey : ref ∉ s.lru.keys := by
    intro hmem
    obtain ⟨slot, hslot⟩ := OrderedDict.mem_keys_iff.mp hmem
    have hstaged := (h.inv.lru_iff ref slot).mp hslot
    rw [h.state] at hstaged
    exact hnone slot hstaged
  refine ⟨h.inv, h.state, h.lru_get?, ?_, fun ref' slot => ?_, ?_⟩
  · refine List.Pairwise.imp_of_mem (fun {x y} hx _ hxy hmem => ?_) h.doneLast
    rcases List.mem_append.mp hmem with hmem | hmem
    · exact List.mem_append_left _ (hxy hmem)
    · rw [List.mem_singleton] at hmem
      exact absurd (hmem ▸ hx) hkey
  · rw [h.result, List.mem_append, List.mem_singleton]
    refine ⟨fun hr => ⟨Or.inl hr.1, hr.2⟩, ?_⟩
    rintro ⟨hmem | rfl, hstaged⟩
    · exact ⟨hmem, hstaged⟩
    · exact absurd hstaged (hnone slot)
  · rw [List.filterMap_append, ← h.toFetch, hfetch]
    cases hsource : cpuSource s₀.residency ref <;> simp [hsource]

theorem not_stagedAt_of_get {t : ResidencyTable} {loc : BlockLocation} (hget : t.get ref = some loc)
    (hne : loc.residency ≠ .staging) (slot : Nat) : ¬StagedAt t ref slot := by
  rintro ⟨loc', hget', hstaging, -⟩
  obtain rfl : loc = loc' := Option.some.inj (hget.symm.trans hget')
  exact hne hstaging

theorem wp_scanBlock (h : Scanned cfg K leaked reserved s₀ done scan s) (ref : BlockRef) :
    Eff.wp (scanBlock ref scan) (fun scan' s' => Scanned cfg K leaked reserved s₀ (done ++ [ref]) scan' s')
      (fun _ s' => s' = s ∧ s₀.residency.get ref = none) s := by
  have hres : s.residency = s₀.residency := by rw [h.state]
  unfold Eff.wp scanBlock
  cases hfound : s.residency.get ref with
  | none => exact ⟨rfl, hres ▸ hfound⟩
  | some loc =>
      have hget : s₀.residency.get ref = some loc := hres ▸ hfound
      have hwf := s₀.residency.wellFormed ref loc hget
      cases hloc : loc.residency with
      | gpu =>
          have hsource : cpuSource s₀.residency ref = none := by simp [cpuSource, hget, hloc]
          have hfetch : [] = (cpuSource s₀.residency ref).toList := by rw [hsource]; rfl
          have hscan := h.concat (not_stagedAt_of_get hget (by rw [hloc]; decide)) hfetch
          rw [List.append_nil] at hscan
          simp only [hloc, if_true]
          exact hscan
      | cpu =>
          obtain ⟨c, hc⟩ := Option.isSome_iff_exists.mp (hwf.cpuSlot_isSome (by rw [hloc]; decide))
          have hsource : cpuSource s₀.residency ref = some (ref, c) :=
            cpuSource_eq_some.mpr ⟨rfl, loc, hget, hloc, hc⟩
          simp only [hloc, reduceCtorEq, if_false, hc]
          exact h.concat (not_stagedAt_of_get hget (by rw [hloc]; decide)) (by rw [hsource, Option.toList_some])
      | staging =>
          obtain ⟨slot, hslot⟩ := Option.isSome_iff_exists.mp (hwf.stagingSlot_isSome.mpr hloc)
          have hstaged : StagedAt s₀.residency ref slot := ⟨loc, hget, hloc, hslot⟩
          have hkey : ref ∈ s.lru.keys := OrderedDict.mem_keys_of_get? ((h.inv.lru_iff ref slot).mpr (hres ▸ hstaged))
          simp only [hloc, reduceCtorEq, if_false, hslot, hkey, if_true]
          refine ⟨h.inv.touch ref, ?_, fun ref' => ?_, ?_, fun ref' slot' => ?_, ?_⟩
          · rw [h.state]
          · rw [OrderedDict.get?_moveToEnd, h.lru_get?]
          · rw [OrderedDict.keys_moveToEnd_of_mem hkey, List.pairwise_append]
            refine ⟨?_, List.pairwise_singleton _ _, fun x _ y hy _ => ?_⟩
            · have hsub := h.doneLast.sublist (OrderedDict.keys_erase_sublist s.lru ref)
              refine List.Pairwise.imp_of_mem (fun {x y} hx _ hxy hmem => ?_) hsub
              rcases List.mem_append.mp hmem with hmem | hmem
              · exact List.mem_append_left _ (hxy hmem)
              · exact absurd (List.mem_singleton.mp hmem) (OrderedDict.mem_keys_erase.mp hx).1
            · rw [List.mem_singleton.mp hy]
              exact List.mem_append_right _ (List.mem_singleton_self ref)
          · rw [OrderedDict.get?_set, List.mem_append, List.mem_singleton]
            by_cases heq : ref' = ref
            · subst heq
              rw [if_pos rfl]
              refine ⟨fun hr => ⟨Or.inr rfl, ?_⟩, fun hr => congrArg some (hstaged.unique hr.2)⟩
              exact Option.some.inj hr ▸ hstaged
            · rw [if_neg heq, h.result]
              simp [heq]
          · have hsource : cpuSource s₀.residency ref = none := by simp [cpuSource, hget, hloc]
            rw [List.filterMap_append, ← h.toFetch]
            simp [hsource]

/-- The whole first loop. It fails only on an untracked block. -/
theorem wp_scanBlocks (h : Scanned cfg K leaked reserved s₀ done scan s) (refs : List BlockRef) :
    Eff.wp (scanBlocks refs scan) (fun scan' s' => Scanned cfg K leaked reserved s₀ (done ++ refs) scan' s')
      (fun _ s' => StoreInv cfg K leaked reserved s' ∧ s' = { s₀ with lru := s'.lru } ∧
        ∃ ref ∈ refs, s₀.residency.get ref = none) s := by
  induction refs generalizing done scan s with
  | nil =>
      rw [List.append_nil]
      exact h
  | cons ref rest ih =>
      rw [scanBlocks, Eff.wp_bind]
      refine Eff.wp_mono (wp_scanBlock h ref) (fun scan' s' hs' => ?_) (fun _ s' hE => ?_)
      · have hrest := ih hs'
        rw [List.append_assoc] at hrest
        refine Eff.wp_mono hrest (fun _ _ hQ => hQ) fun _ _ hE => ⟨hE.1, hE.2.1, ?_⟩
        obtain ⟨ref', hmem, hnone⟩ := hE.2.2
        exact ⟨ref', List.mem_cons_of_mem ref hmem, hnone⟩
      · rw [hE.1]
        exact ⟨h.inv, h.state, ref, List.mem_cons_self, hE.2⟩

theorem scanned_nil (h : StoreInv cfg K leaked reserved s) : Scanned cfg K leaked reserved s [] ⟨.empty, []⟩ s where
  inv := h
  state := rfl
  lru_get? _ := rfl
  doneLast := List.pairwise_of_forall fun _ _ hx => absurd hx List.not_mem_nil
  result _ _ := by simp
  toFetch := rfl

end Scan

section Reserve

variable {cfg : OrchestratorConfig} {dev : Device μ φ ν S} {K : Backing dev} {leaked : Multiset Nat}
  {scorer : BlockScorer σ ν S}

/-- Phase 1 after the fetches `done`: the allocated slots are in hand, evicted blocks fell back to
their CPU copies, and a block is skipped only when every slot is in hand. -/
structure Reserving (cfg : OrchestratorConfig) {dev : Device μ φ ν S} (K : Backing dev) (scorer : BlockScorer σ ν S)
    (leaked : Multiset Nat) (s₀ : Store μ σ) (done : List (BlockRef × Nat)) (res : Reservation) (s : Store μ σ) :
    Prop where
  inv : StoreInv cfg K leaked (res.allocs.map (·.slot) : Multiset Nat) s
  restages : Restages s₀.residency s.residency
  cpuKept : ∀ ref loc, s₀.residency.get ref = some loc → loc.residency = .cpu → s.residency.get ref = some loc
  lru_sub : ∀ ref slot, s.lru.get? ref = some slot → s₀.lru.get? ref = some slot
  cpuFree : s.cpuFree = s₀.cpuFree
  known : scorer.known s.scorer = scorer.known s₀.scorer
  value : scorer.value s.scorer = scorer.value s₀.scorer
  tick : s.tick = s₀.tick
  mem : s.mem = s₀.mem
  allocs : ∀ a ∈ res.allocs, (a.ref, a.cpuSlot) ∈ done
  parts : (res.allocs.map (·.ref) ++ res.skipped).Perm (done.map Prod.fst)
  full : res.skipped ≠ [] → s.stagingFree = [] ∧ s.lru.keys = []

theorem reserving_nil {s : Store μ σ} (h : StoreInv cfg K leaked 0 s) :
    Reserving cfg K scorer leaked s [] ⟨[], []⟩ s where
  inv := h
  restages := Restages.refl _
  cpuKept _ _ hget _ := hget
  lru_sub _ _ hslot := hslot
  cpuFree := rfl
  known := rfl
  value := rfl
  tick := rfl
  mem := rfl
  allocs := by simp
  parts := List.Perm.refl _
  full h := absurd rfl h

theorem coe_slots_concat (allocs : List Alloc) (a : Alloc) :
    ((allocs ++ [a]).map (·.slot) : Multiset Nat) = a.slot ::ₘ (allocs.map (·.slot) : Multiset Nat) := by
  rw [List.map_append]
  exact Multiset.coe_eq_coe.mpr (List.perm_append_singleton a.slot _)

theorem reserveSlots_of_ok {ref : BlockRef} {cpuSlot slot : Nat} {rest : List (BlockRef × Nat)} {res : Reservation}
    {s s' : Store μ σ} (h : allocateSlot scorer (res.allocs.map (·.slot)) s = (.ok slot, s')) :
    reserveSlots scorer ((ref, cpuSlot) :: rest) res s =
      reserveSlots scorer rest { res with allocs := res.allocs ++ [⟨ref, cpuSlot, slot⟩] } s' := by
  simp only [reserveSlots, bind, Eff.andThen, Eff.attempt, Functor.map, h, Function.comp]

theorem reserveSlots_of_full {ref : BlockRef} {cpuSlot : Nat} {rest : List (BlockRef × Nat)} {res : Reservation}
    {s : Store μ σ} (h : allocateSlot scorer (res.allocs.map (·.slot)) s = (.error .noStagingSlots, s)) :
    reserveSlots scorer ((ref, cpuSlot) :: rest) res s =
      reserveSlots scorer rest { res with skipped := res.skipped ++ [ref] } s := by
  simp only [reserveSlots, bind, Eff.andThen, Eff.attempt, Functor.map, h, PyError.kind, ↓reduceIte, pure]

variable {s₀ s s' : Store μ σ} {done : List (BlockRef × Nat)} {res : Reservation} {slot : Nat}

theorem Reserving.allocs_concat (h : Reserving cfg K scorer leaked s₀ done res s) (a : Alloc) :
    ∀ x ∈ res.allocs ++ [a], (x.ref, x.cpuSlot) ∈ done ++ [(a.ref, a.cpuSlot)] := by
  intro x hx
  rcases List.mem_append.mp hx with hx | hx
  · exact List.mem_append_left _ (h.allocs x hx)
  · rw [List.mem_singleton.mp hx]
    exact List.mem_append_right _ (List.mem_singleton_self _)

theorem Reserving.parts_concat (h : Reserving cfg K scorer leaked s₀ done res s) (a : Alloc) :
    ((res.allocs ++ [a]).map (·.ref) ++ res.skipped).Perm ((done ++ [(a.ref, a.cpuSlot)]).map Prod.fst) := by
  rw [List.map_append, List.map_append, List.append_assoc]
  exact (List.perm_append_comm_assoc _ _ _).trans
    ((h.parts.cons a.ref).trans (List.perm_append_singleton a.ref _).symm)

/-- The three outcomes of one iteration. -/
theorem Reserving.takeFree (h : Reserving cfg K scorer leaked s₀ done res s) {rest : List Nat}
    (hfree : s.stagingFree = slot :: rest) (ref : BlockRef) (cpuSlot : Nat) :
    Reserving cfg K scorer leaked s₀ (done ++ [(ref, cpuSlot)])
      { res with allocs := res.allocs ++ [⟨ref, cpuSlot, slot⟩] } { s with stagingFree := rest } where
  inv := by
    rw [coe_slots_concat]
    exact h.inv.takeStaging hfree
  restages := h.restages
  cpuKept := h.cpuKept
  lru_sub := h.lru_sub
  cpuFree := h.cpuFree
  known := h.known
  value := h.value
  tick := h.tick
  mem := h.mem
  allocs := h.allocs_concat ⟨ref, cpuSlot, slot⟩
  parts := h.parts_concat ⟨ref, cpuSlot, slot⟩
  full := by
    intro hskipped
    rw [(h.full hskipped).1] at hfree
    cases hfree

theorem Reserving.evict (h : Reserving cfg K scorer leaked s₀ done res s) {victim : BlockRef}
    (hevict : Evicts scorer s victim slot s') (ref : BlockRef) (cpuSlot : Nat) :
    Reserving cfg K scorer leaked s₀ (done ++ [(ref, cpuSlot)])
      { res with allocs := res.allocs ++ [⟨ref, cpuSlot, slot⟩] } s' := by
  obtain ⟨old, c, t, hold, hc, ht, rfl⟩ := hevict.state
  obtain ⟨loc, hloc, hstaging, -⟩ := (h.inv.lru_iff victim slot).mp hevict.slot_eq
  obtain rfl : loc = old := Option.some.inj (hloc.symm.trans hold)
  have hsame : SameBlock loc { residency := .cpu, gpuBlockId := loc.gpuBlockId, cpuSlot := some c,
                               complete := loc.complete } :=
    ⟨rfl, hc, rfl, by simp [hstaging]⟩
  refine ⟨?_, h.restages.trans (Restages.of_relocates hold ht hsame), fun ref' loc' hget hcpu => ?_,
    fun ref' slot' hslot' => ?_, h.cpuFree, (scorer.known_scores _ _).trans h.known,
    (scorer.value_scores _ _).trans h.value, h.tick, h.mem, h.allocs_concat ⟨ref, cpuSlot, slot⟩,
    h.parts_concat ⟨ref, cpuSlot, slot⟩, fun hskipped => ?_⟩
  · rw [coe_slots_concat]
    exact (h.inv.unstage hevict.slot_eq hold hc ht).rescore _ _
  · have hkept := h.cpuKept ref' loc' hget hcpu
    have hne : ref' ≠ victim := by
      rintro rfl
      obtain rfl : loc' = loc := Option.some.inj (hkept.symm.trans hold)
      rw [hcpu] at hstaging
      cases hstaging
    exact (ht.get ref').trans ((if_neg hne).trans hkept)
  · rw [OrderedDict.get?_erase] at hslot'
    split_ifs at hslot'
    exact h.lru_sub ref' slot' hslot'
  · have hkey := OrderedDict.mem_keys_of_get? hevict.slot_eq
    rw [(h.full hskipped).2] at hkey
    simp at hkey

theorem Reserving.skip (h : Reserving cfg K scorer leaked s₀ done res s) (hfree : s.stagingFree = [])
    (hempty : s.lru.keys = []) (ref : BlockRef) (cpuSlot : Nat) :
    Reserving cfg K scorer leaked s₀ (done ++ [(ref, cpuSlot)]) { res with skipped := res.skipped ++ [ref] } s where
  inv := h.inv
  restages := h.restages
  cpuKept := h.cpuKept
  lru_sub := h.lru_sub
  cpuFree := h.cpuFree
  known := h.known
  value := h.value
  tick := h.tick
  mem := h.mem
  allocs a ha := List.mem_append_left _ (h.allocs a ha)
  parts := by
    rw [List.map_append, ← List.append_assoc]
    exact h.parts.append_right _
  full _ := ⟨hfree, hempty⟩

/-- What the next allocation does: the slots in hand are the ones it may not evict. -/
theorem Reserving.allocateSlot_cases (h : Reserving cfg K scorer leaked s₀ done res s) :
    (∃ slot rest, s.stagingFree = slot :: rest ∧
      allocateSlot scorer (res.allocs.map (·.slot)) s = (.ok slot, { s with stagingFree := rest })) ∨
    (s.stagingFree = [] ∧ s.lru.keys = [] ∧
      allocateSlot scorer (res.allocs.map (·.slot)) s = (.error .noStagingSlots, s)) ∨
    (s.stagingFree = [] ∧ ∃ victim slot s', allocateSlot scorer (res.allocs.map (·.slot)) s = (.ok slot, s') ∧
      Evicts scorer s victim slot s') :=
  KVOffload.allocateSlot_cases scorer h.inv fun _ hx => Multiset.mem_coe.mpr hx

/-- Phase 1 always returns. -/
theorem reserveSlots_eq (h : Reserving cfg K scorer leaked s₀ done res s) (toFetch : List (BlockRef × Nat)) :
    ∃ res' s', reserveSlots scorer toFetch res s = (.ok res', s') ∧
      Reserving cfg K scorer leaked s₀ (done ++ toFetch) res' s' := by
  induction toFetch generalizing done res s with
  | nil => exact ⟨res, s, rfl, by rwa [List.append_nil]⟩
  | cons e rest ih =>
      obtain ⟨ref, cpuSlot⟩ := e
      rw [List.append_cons]
      rcases h.allocateSlot_cases with
        ⟨slot, free, hfree, hrun⟩ | ⟨hfree, hempty, hrun⟩ | ⟨-, victim, slot, s₁, hrun, hevict⟩
      · rw [reserveSlots_of_ok hrun]
        exact ih (h.takeFree hfree ref cpuSlot)
      · rw [reserveSlots_of_full hrun]
        exact ih (h.skip hfree hempty ref cpuSlot)
      · rw [reserveSlots_of_ok hrun]
        exact ih (h.evict hevict ref cpuSlot)

end Reserve

section Ensure

variable {cfg : OrchestratorConfig} {dev : Device μ φ ν S} {K : Backing dev} {leaked : Multiset Nat}
  {scorer : BlockScorer σ ν S} {s : Store μ σ}

/-- Phase 3: exactly the allocated blocks became staged, each in its slot. -/
structure Published (s : Store μ σ) (allocs : List Alloc) (s' : Store μ σ) : Prop where
  state : s' = { s with residency := s'.residency, lru := s'.lru }
  staged : ∀ a ∈ allocs, StagedAt s'.residency a.ref a.slot
  kept : ∀ ref, ref ∉ allocs.map (·.ref) → s'.residency.get ref = s.residency.get ref
  restages : Restages s.residency s'.residency

theorem wp_publishAllocs {allocs : List Alloc} (hnodup : (allocs.map (·.ref)).Nodup)
    (h : StoreInv cfg K leaked (allocs.map (·.slot) : Multiset Nat) s)
    (hcpu : ∀ a ∈ allocs, ∃ loc, s.residency.get a.ref = some loc ∧ loc.residency = .cpu ∧ loc.cpuSlot = some a.cpuSlot)
    (hholds : ∀ a ∈ allocs, K.holds s.mem a.ref a.cpuSlot (some (cfg.stagingBase + a.slot))) :
    Eff.wp (publishAllocs allocs) (fun _ s' => StoreInv cfg K leaked 0 s' ∧ Published s allocs s')
      (fun _ _ => False) s := by
  induction allocs generalizing s with
  | nil => exact ⟨h, rfl, by simp, fun _ _ => rfl, Restages.refl _⟩
  | cons a rest ih =>
      rw [List.map_cons, List.nodup_cons] at hnodup
      obtain ⟨old, hold, hres, hslot⟩ := hcpu a List.mem_cons_self
      obtain ⟨t, ht, hmoved⟩ := ResidencyTable.markStaging_of_get hold hslot a.slot
      have hget := hmoved.get
      rw [publishAllocs, Eff.forEach, Eff.wp_bind, Eff.wp_bind, Eff.wp_modify]
      refine wp_onTable ht ?_
      have hpublished : StoreInv cfg K leaked (rest.map (·.slot) : Multiset Nat)
          { s with residency := t, lru := s.lru.set a.ref a.slot } := by
        refine StoreInv.publishStaging a.slot ?_ hold hres hslot hmoved (hholds a List.mem_cons_self)
        rwa [List.map_cons, ← Multiset.cons_coe] at h
      have hrestages : Restages s.residency t :=
        Restages.of_relocates hold hmoved ⟨rfl, hslot, rfl, by simp [hres]⟩
      have hrest : ∀ x ∈ rest, x.ref ≠ a.ref := fun x hx heq => hnodup.1 (heq ▸ List.mem_map_of_mem hx)
      refine Eff.wp_mono (ih hnodup.2 hpublished (fun x hx => ?_) fun x hx => hholds x (List.mem_cons_of_mem a hx))
        (fun _ s' hs' => ⟨hs'.1, ?_⟩) (fun _ _ hfalse => hfalse)
      · obtain ⟨loc, hloc, hlocres⟩ := hcpu x (List.mem_cons_of_mem a hx)
        exact ⟨loc, (hget x.ref).trans ((if_neg (hrest x hx)).trans hloc), hlocres⟩
      · obtain ⟨-, hpub⟩ := hs'
        refine ⟨?_, fun x hx => ?_, fun ref href => ?_, hrestages.trans hpub.restages⟩
        · rw [hpub.state]
        · rcases List.mem_cons.mp hx with rfl | hx
          · refine ⟨_, (hpub.kept x.ref hnodup.1).trans ((hget x.ref).trans (if_pos rfl)), rfl, rfl⟩
          · exact hpub.staged x hx
        · rw [List.map_cons, List.mem_cons, not_or] at href
          rw [hpub.kept ref href.2]
          exact (hget ref).trans (if_neg href.1)

/-- Memory after a copy, finished or not, that had staging pages only as its targets. -/
inductive StagingWrite (cfg : OrchestratorConfig) (dev : Device μ φ ν S) (mem : μ) : μ → Prop
  | none : StagingWrite cfg dev mem mem
  | fetch (cpuSlots : List Nat) {slots : List Nat} (hslots : ∀ slot ∈ slots, slot < cfg.numStagingSlots) :
      StagingWrite cfg dev mem (dev.fetch mem cpuSlots (slots.map (cfg.stagingBase + ·)))
  | torn (torn : φ) (cpuSlots : List Nat) {slots : List Nat} (hslots : ∀ slot ∈ slots, slot < cfg.numStagingSlots) :
      StagingWrite cfg dev mem (dev.fetchTorn torn mem cpuSlots (slots.map (cfg.stagingBase + ·)))

/-- A run of `ensure_resident` that returns, phase by phase: the scan ends in `s₁`, the reservation in
`s₂`, the copy in `s₃`. With nothing to fetch the last three phases are empty. -/
structure EnsureRun (cfg : OrchestratorConfig) {dev : Device μ φ ν S} (K : Backing dev) (scorer : BlockScorer σ ν S)
    (leaked : Multiset Nat) (s : Store μ σ) (refs : List BlockRef) (scan : Scan) (s₁ : Store μ σ) (res : Reservation)
    (s₂ s₃ : Store μ σ) (out : OrderedDict BlockRef Nat × List BlockRef) (s' : Store μ σ) : Prop where
  scan_eq : scanBlocks refs ⟨.empty, []⟩ s = (.ok scan, s₁)
  scanned : Scanned cfg K leaked 0 s refs scan s₁
  reserve : reserveSlots scorer scan.toFetch ⟨[], []⟩ s₁ = (.ok res, s₂)
  reserving : Reserving cfg K scorer leaked s₁ scan.toFetch res s₂
  steady : scan.toFetch ≠ [] → dev.fetchFault s.tick = none
  fetched : s₃ = { s₂ with mem := s₃.mem, tick := s₃.tick }
  published : Published s₃ res.allocs s'
  written : StagingWrite cfg dev s.mem s'.mem
  out_eq : out = (res.allocs.foldl (fun d a => d.set a.ref a.slot) scan.result, res.skipped)

/-- A fetch failed in the first action of the device after `s`, and no action followed before `s'`. -/
def FetchStruck (dev : Device μ φ ν S) (s s' : Store μ σ) : Prop :=
  (dev.fetchFault s.tick).isSome ∧ s'.tick = s.tick + 1

/-- A call that raises: some listed block is untracked, or the copy failed. No block left its CPU slot. -/
structure EnsureFailed (cfg : OrchestratorConfig) {dev : Device μ φ ν S} (K : Backing dev) (scorer : BlockScorer σ ν S)
    (leaked : Multiset Nat) (s : Store μ σ) (refs : List BlockRef) (s' : Store μ σ) : Prop where
  inv : StoreInv cfg K leaked 0 s'
  restages : Restages s.residency s'.residency
  known : scorer.known s'.scorer = scorer.known s.scorer
  cpuKept : ∀ ref loc, s.residency.get ref = some loc → loc.residency = .cpu → s'.residency.get ref = some loc
  cause : (∃ ref ∈ refs, s.residency.get ref = none) ∨ FetchStruck dev s s'
  written : StagingWrite cfg dev s.mem s'.mem

/-- A block to fetch is CPU-resident in the slot it is fetched from. -/
theorem cpu_of_mem_filterMap {t : ResidencyTable} {refs : List BlockRef} {e : BlockRef × Nat}
    (h : e ∈ refs.filterMap (cpuSource t)) :
    e.1 ∈ refs ∧ ∃ loc, t.get e.1 = some loc ∧ loc.residency = .cpu ∧ loc.cpuSlot = some e.2 := by
  obtain ⟨ref, href, hsource⟩ := List.mem_filterMap.mp h
  obtain ⟨rfl, hloc⟩ := cpuSource_eq_some.mp hsource
  exact ⟨href, hloc⟩

theorem map_fst_filterMap_cpuSource (t : ResidencyTable) (refs : List BlockRef) :
    (refs.filterMap (cpuSource t)).map Prod.fst = refs.filter fun ref => (cpuSource t ref).isSome := by
  induction refs with
  | nil => rfl
  | cons ref rest ih =>
      cases hsource : cpuSource t ref with
      | none =>
          rw [List.filterMap_cons_none hsource, List.filter_cons_of_neg (by simp [hsource]), ih]
      | some e =>
          obtain ⟨rfl, -⟩ := cpuSource_eq_some.mp hsource
          rw [List.filterMap_cons_some hsource, List.filter_cons_of_pos (by simp [hsource]), List.map_cons, ih]

theorem Reserving.refs_nodup {s₀ : Store μ σ} {done : List (BlockRef × Nat)} {res : Reservation}
    (h : Reserving cfg K scorer leaked s₀ done res s) (hnodup : (done.map Prod.fst).Nodup) :
    (res.allocs.map (·.ref)).Nodup :=
  (List.nodup_append.mp (h.parts.nodup_iff.mpr hnodup)).1

/-- A staging slot in hand is one of the pool. -/
theorem StoreInv.slot_lt {reserved : Multiset Nat} (h : StoreInv cfg K leaked reserved s) {slot : Nat}
    (hslot : slot ∈ reserved) : slot < cfg.numStagingSlots := by
  rw [← Multiset.mem_range, ← h.stagingSlots]
  exact Multiset.mem_add.mpr (Or.inr hslot)

theorem StoreInv.slots_nodup {slots : List Nat} (h : StoreInv cfg K leaked (slots : Multiset Nat) s) : slots.Nodup :=
  Multiset.coe_nodup.mp (Multiset.nodup_add.mp h.staging_nodup).2.1

/-- The copy phase: on failure every reserved slot is free again. -/
theorem wp_fetchBatch {s₀ : Store μ σ} {done : List (BlockRef × Nat)} {res : Reservation}
    (h : Reserving cfg K scorer leaked s₀ done res s)
    (hcpu : ∀ a ∈ res.allocs, ∃ loc, s.residency.get a.ref = some loc ∧ loc.residency = .cpu ∧
      loc.cpuSlot = some a.cpuSlot) :
    Eff.wp (fetchBatch cfg dev res.allocs)
      (fun _ s' => StoreInv cfg K leaked (res.allocs.map (·.slot) : Multiset Nat) s' ∧
        s' = { s with mem := s'.mem, tick := s'.tick } ∧ dev.fetchFault s.tick = none ∧
        StagingWrite cfg dev s.mem s'.mem ∧
        ∀ a ∈ res.allocs, K.holds s'.mem a.ref a.cpuSlot (some (cfg.stagingBase + a.slot)))
      (fun _ s' => StoreInv cfg K leaked 0 s' ∧ s'.residency = s.residency ∧ s'.scorer = s.scorer ∧
        FetchStruck dev s s' ∧ StagingWrite cfg dev s.mem s'.mem) s := by
  have hslots : ∀ x ∈ res.allocs.map (·.slot), x ∈ (res.allocs.map (·.slot) : Multiset Nat) :=
    fun x hx => Multiset.mem_coe.mpr hx
  have hpages : res.allocs.map (cfg.stagingBase + ·.slot) = (res.allocs.map (·.slot)).map (cfg.stagingBase + ·) := by
    rw [List.map_map]
    rfl
  have hlt : ∀ slot ∈ res.allocs.map (·.slot), slot < cfg.numStagingSlots :=
    fun slot hslot => h.inv.slot_lt (hslots slot hslot)
  unfold Eff.wp fetchBatch
  simp only [hpages]
  cases hfault : dev.fetchFault s.tick with
  | some torn =>
      have hreserved : (res.allocs.map (·.slot) : Multiset Nat) = (res.allocs.map (·.slot) : Multiset Nat) + 0 :=
        (add_zero _).symm
      have hinv := h.inv.fetchTornInto torn (res.allocs.map (·.cpuSlot)) hslots
      rw [hreserved] at hinv
      exact ⟨hinv.returnStaging.rescore _ _, rfl, rfl, ⟨by rw [hfault]; rfl, rfl⟩, .torn torn _ hlt⟩
  | none =>
      refine ⟨(h.inv.fetchInto (res.allocs.map (·.cpuSlot)) hslots).rescore _ _, rfl, rfl, .fetch _ hlt, fun a ha => ?_⟩
      obtain ⟨loc, hloc, hres, hslot⟩ := hcpu a ha
      have hnodup : ((res.allocs.map (·.slot)).map (cfg.stagingBase + ·)).Nodup :=
        h.inv.slots_nodup.map (add_right_injective cfg.stagingBase)
      refine K.holds_of_fetch _ _ _ _ _ _ hnodup ?_ (K.holds_none _ _ _ _ (h.inv.backed a.ref loc a.cpuSlot hloc
        (by rw [hres]; decide) hslot))
      rw [List.map_map, List.zip_map', List.mem_map]
      exact ⟨a, ha, rfl⟩

/-- `ensure_resident` keeps the invariant however it ends. -/
theorem wp_ensureResident (h : StoreInv cfg K leaked 0 s) (refs : List BlockRef) :
    Eff.wp (ensureResident cfg dev scorer refs)
      (fun out s' => StoreInv cfg K leaked 0 s' ∧ ∃ scan s₁ res s₂ s₃,
        EnsureRun cfg K scorer leaked s (OrderedDict.fromKeys refs).keys scan s₁ res s₂ s₃ out s')
      (fun _ s' => EnsureFailed cfg K scorer leaked s refs s') s := by
  rw [ensureResident, Eff.wp_bind]
  refine Eff.wp_mono (Eff.wp_run (wp_scanBlocks (scanned_nil h) (OrderedDict.fromKeys refs).keys)) ?_ ?_
  · rintro scan s₁ ⟨hscan_eq, hscan⟩
    rw [List.nil_append] at hscan
    have hnone : Reserving cfg K scorer leaked s₁ [] ⟨[], []⟩ s₁ := reserving_nil hscan.inv
    rw [Eff.wp_ite]
    refine ⟨fun hempty =>
      ⟨hscan.inv, scan, s₁, ⟨[], []⟩, s₁, s₁, hscan_eq, hscan, ?_, ?_, absurd hempty, rfl, ?_, ?_, rfl⟩,
      fun _ => ?_⟩
    · rw [hempty]
      rfl
    · rw [hempty]
      exact hnone
    · exact ⟨rfl, by simp, fun _ _ => rfl, Restages.refl _⟩
    · rw [hscan.state]
      exact .none
    obtain ⟨res, s₂, hrun, hres⟩ := reserveSlots_eq hnone scan.toFetch
    rw [List.nil_append] at hres
    have hs₁ : s₁.residency = s.residency ∧ s₁.scorer = s.scorer := by rw [hscan.state]; exact ⟨rfl, rfl⟩
    have htick : s₂.tick = s.tick := by rw [hres.tick, hscan.state]
    have hmem : s₂.mem = s.mem := by rw [hres.mem, hscan.state]
    have hcpu : ∀ a ∈ res.allocs, ∃ loc, s₂.residency.get a.ref = some loc ∧ loc.residency = .cpu ∧
        loc.cpuSlot = some a.cpuSlot := by
      intro a ha
      have hmem := hres.allocs a ha
      rw [hscan.toFetch] at hmem
      obtain ⟨-, loc, hloc, hlocres, hslot⟩ := cpu_of_mem_filterMap hmem
      exact ⟨loc, hres.cpuKept a.ref loc (hs₁.1 ▸ hloc) hlocres, hlocres, hslot⟩
    have hnodup : (res.allocs.map (·.ref)).Nodup := by
      refine hres.refs_nodup ?_
      rw [hscan.toFetch, map_fst_filterMap_cpuSource]
      exact (OrderedDict.fromKeys refs).nodup.sublist List.filter_sublist
    have hreserve : Eff.wp (reserveSlots scorer scan.toFetch ⟨[], []⟩) (fun r s' => r = res ∧ s' = s₂)
        (fun _ _ => False) s₁ := by
      unfold Eff.wp
      rw [hrun]
      exact ⟨rfl, rfl⟩
    rw [Eff.wp_bind]
    refine Eff.wp_mono hreserve ?_ (fun _ _ hfalse => hfalse.elim)
    rintro _ _ ⟨rfl, rfl⟩
    rw [Eff.wp_bind]
    refine Eff.wp_mono (wp_fetchBatch hres hcpu) ?_ ?_
    · rintro - s₃ ⟨hinv₃, hs₃, hsteady, hwritten, hholds⟩
      rw [htick] at hsteady
      rw [hmem] at hwritten
      rw [Eff.wp_bind]
      refine Eff.wp_mono (wp_publishAllocs hnodup hinv₃ (fun a ha => ?_) hholds) ?_ (fun _ _ hfalse => hfalse.elim)
      · rw [hs₃]
        exact hcpu a ha
      · rintro - s' ⟨hinv', hpub⟩
        have hmem' : s'.mem = s₃.mem := by rw [hpub.state]
        exact ⟨hinv', scan, s₁, _, _, s₃, hscan_eq, hscan, hrun, hres, fun _ => hsteady, hs₃, hpub,
          hmem' ▸ hwritten, rfl⟩
    · rintro - s' ⟨hinv', hres', hscorer, hfault, hwritten⟩
      rw [FetchStruck, htick] at hfault
      rw [hmem] at hwritten
      refine ⟨hinv', ?_, ?_, fun ref loc hget hloc => ?_, Or.inr hfault, hwritten⟩
      · rw [hres', ← hs₁.1]
        exact hres.restages
      · rw [hscorer, hres.known, hs₁.2]
      · rw [hres']
        exact hres.cpuKept ref loc (hs₁.1 ▸ hget) hloc
  · rintro - s' ⟨hinv', hs', ref, hmem, hnone⟩
    have hlost : ∃ ref ∈ refs, s.residency.get ref = none := ⟨ref, OrderedDict.mem_keys_fromKeys.mp hmem, hnone⟩
    rw [hs'] at hinv' ⊢
    exact ⟨hinv', Restages.refl _, rfl, fun _ _ hget _ => hget, Or.inl hlost, .none⟩

theorem EnsureRun.restages {refs : List BlockRef} {scan : Scan} {res : Reservation} {s₁ s₂ s₃ s' : Store μ σ}
    {out : OrderedDict BlockRef Nat × List BlockRef}
    (h : EnsureRun cfg K scorer leaked s refs scan s₁ res s₂ s₃ out s') :
    Restages s.residency s'.residency ∧ scorer.known s'.scorer = scorer.known s.scorer := by
  have hs₁ : s₁.residency = s.residency ∧ s₁.scorer = s.scorer := by rw [h.scanned.state]; exact ⟨rfl, rfl⟩
  have hs₃ : s₃.residency = s₂.residency ∧ s₃.scorer = s₂.scorer := by rw [h.fetched]; exact ⟨rfl, rfl⟩
  refine ⟨?_, ?_⟩
  · rw [← hs₁.1]
    exact h.reserving.restages.trans (hs₃.1 ▸ h.published.restages)
  · rw [h.published.state, ← hs₁.2, ← h.reserving.known, ← hs₃.2]

/-- What every staging operation keeps, and where it writes. -/
structure StagingPost (cfg : OrchestratorConfig) {dev : Device μ φ ν S} (K : Backing dev) (scorer : BlockScorer σ ν S)
    (s s' : Store μ σ) : Prop where
  ok : StoreOk cfg K s'
  restages : Restages s.residency s'.residency
  known : scorer.known s'.scorer = scorer.known s.scorer
  written : StagingWrite cfg dev s.mem s'.mem

theorem wp_ensureResident_post (h : StoreOk cfg K s) (refs : List BlockRef) :
    Eff.wp (ensureResident cfg dev scorer refs) (fun _ s' => StagingPost cfg K scorer s s')
      (fun _ s' => StagingPost cfg K scorer s s') s := by
  obtain ⟨leaked, hguard, hinv⟩ := h
  refine Eff.wp_mono (wp_ensureResident hinv refs) (fun out s' hs' => ?_) fun _ s' hE => ?_
  · obtain ⟨hinv', scan, s₁, res, s₂, s₃, hphases⟩ := hs'
    exact ⟨⟨leaked, hguard, hinv'⟩, hphases.restages.1, hphases.restages.2, hphases.written⟩
  · exact ⟨⟨leaked, hguard, hE.inv⟩, hE.restages, hE.known, hE.written⟩

/-- `release` touches nothing but the released block and its slot. -/
structure ReleasePost (ref : BlockRef) (s s' : Store μ σ) : Prop where
  lru : s'.lru = s.lru.erase ref
  stagingFree : s'.stagingFree = (s.lru.get? ref).toList ++ s.stagingFree
  cpuFree : s'.cpuFree = s.cpuFree
  scorer : s'.scorer = s.scorer
  mem : s'.mem = s.mem
  tick : s'.tick = s.tick
  kept : ∀ ref', ref' ≠ ref → s'.residency.get ref' = s.residency.get ref'

theorem wp_release (scorer : BlockScorer σ ν S) (h : StoreOk cfg K s) (ref : BlockRef) :
    Eff.wp (release ref) (fun _ s' => StagingPost cfg K scorer s s' ∧ ReleasePost ref s s') (fun _ _ => False) s := by
  obtain ⟨leaked, hguard, hinv⟩ := h
  unfold release
  cases hslot : s.lru.get? ref with
  | none =>
      simp only [Eff.wp, hslot]
      exact ⟨⟨⟨leaked, hguard, hinv⟩, Restages.refl _, rfl, .none⟩,
        ⟨(OrderedDict.erase_of_get?_eq_none hslot).symm, by rw [hslot]; rfl, rfl, rfl, rfl, rfl, fun _ _ => rfl⟩⟩
  | some slot =>
      obtain ⟨old, hold, hstaging, hat⟩ := (hinv.lru_iff ref slot).mp hslot
      obtain ⟨c, hc⟩ := Option.isSome_iff_exists.mp
        ((s.residency.wellFormed ref old hold).cpuSlot_isSome (by rw [hstaging]; decide))
      obtain ⟨t, ht, hmoved⟩ := ResidencyTable.markCpu_of_get hold c
      have hsame : SameBlock old { residency := .cpu, gpuBlockId := old.gpuBlockId, cpuSlot := some c,
                                   complete := old.complete } := ⟨rfl, hc, rfl, by simp [hstaging]⟩
      have hinv' := hinv.unstage hslot hold hc hmoved
      have hreserved : slot ::ₘ (0 : Multiset Nat) = (([slot] : List Nat) : Multiset Nat) + 0 := by simp
      rw [hreserved] at hinv'
      simp only [Eff.wp, hslot, hold, hc, hstaging, hat, and_self, if_true, markCpu, onTable, ht]
      exact ⟨⟨⟨leaked, hguard, hinv'.returnStaging⟩, Restages.of_relocates hold hmoved hsame, rfl, .none⟩,
        ⟨rfl, by rw [hslot]; rfl, rfl, rfl, rfl, rfl, fun ref' hne => (hmoved.get ref').trans (if_neg hne)⟩⟩

end Ensure

end KVOffload

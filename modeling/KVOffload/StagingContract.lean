import KVOffload.OrchestratorSlots

/-! The contract of `ensure_resident`. The scan records the slots of blocks that are already staged;
the allocation loop then evicts by score and protects only the slots it has reserved itself. The
loop removes minima from the occupancy order, so the recorded slots stay valid exactly when there
are enough free slots and enough unlisted blocks that score no higher than every listed one. -/

namespace KVOffload
open Base

variable {μ φ ν σ S : Type} [LinearOrder S]

/-- The stable score of a block; a block without one ranks lowest. -/
def rank (scorer : BlockScorer σ ν S) (x : σ) (ref : BlockRef) : WithBot S := scorer.value x ref

section Loop

variable {cfg : OrchestratorConfig} {dev : Device μ φ ν S} {K : Backing dev} {leaked : Multiset Nat}
  {scorer : BlockScorer σ ν S} {s₀ s s' : Store μ σ}

theorem IsVictim.evictMin_keys {victim : BlockRef} (h : IsVictim scorer s victim)
    (hvalued : ∀ ref ∈ s.lru.keys, (scorer.value s.scorer ref).isSome) :
    evictMin (rank scorer s.scorer) s.lru.keys = s.lru.keys.erase victim := by
  obtain ⟨score, hmin⟩ := h
  have hpairs : (s.lru.keys.map fun ref => (ref, rank scorer s.scorer ref)) =
      (s.lru.keys.zip (scorer.scores s.scorer s.lru.keys).1).map (Prod.map id WithBot.some) := by
    rw [← List.zip_map_right, List.map_prod_left_eq_zip]
    exact congrArg (s.lru.keys.zip ·) (scorer.scores_value s.scorer s.lru.keys hvalued).symm
  rw [evictMin, hpairs, argmin_map WithBot.coe_strictMono, hmin]
  rfl

/-- Phase 1 takes the free slots first and then removes one minimum for each further block. -/
theorem reserveSlots_keys {done : List (BlockRef × Nat)} {res res' : Reservation}
    (h : Reserving cfg K scorer leaked s₀ done res s)
    (hvalued : ∀ ref ∈ s.lru.keys, (scorer.value s.scorer ref).isSome) {toFetch : List (BlockRef × Nat)}
    (hrun : reserveSlots scorer toFetch res s = (.ok res', s')) :
    s'.lru.keys =
      evictMany (rank scorer s.scorer) (toFetch.length - s.stagingFree.length) s.lru.keys := by
  induction toFetch generalizing done res s with
  | nil =>
      obtain ⟨-, rfl⟩ := Prod.mk.inj hrun
      rw [List.length_nil, Nat.zero_sub, evictMany]
  | cons e rest ih =>
      obtain ⟨ref, cpuSlot⟩ := e
      rcases h.allocateSlot_cases with
        ⟨slot, free, hfree, halloc⟩ | ⟨hfree, hempty, halloc⟩ | ⟨hfree, victim, slot, s₁, halloc, hevict⟩
      · rw [reserveSlots_of_ok halloc] at hrun
        rw [ih (h.takeFree hfree ref cpuSlot) hvalued hrun, hfree, List.length_cons, List.length_cons,
          Nat.add_sub_add_right]
      · rw [reserveSlots_of_full halloc] at hrun
        have hskip := h.skip hfree hempty ref cpuSlot
        rw [ih hskip hvalued hrun, hempty, evictMany_nil, evictMany_nil]
      · rw [reserveSlots_of_ok halloc] at hrun
        have hkeys := hevict.isVictim.evictMin_keys hvalued
        have hnext := h.evict hevict ref cpuSlot
        obtain ⟨old, c, t, -, -, -, rfl⟩ := hevict.state
        have hvalue : scorer.value (scorer.scores s.scorer s.lru.keys).2 = scorer.value s.scorer :=
          scorer.value_scores _ _
        have hrank : rank scorer (scorer.scores s.scorer s.lru.keys).2 = rank scorer s.scorer := by
          funext ref'
          exact congrFun hvalue ref'
        rw [ih hnext ?_ hrun]
        · simp only [hrank, hfree, OrderedDict.keys_erase, List.length_nil, Nat.sub_zero, List.length_cons,
            evictMany, hkeys]
        · intro ref' href'
          rw [hvalue]
          exact hvalued ref' (OrderedDict.mem_keys_erase.mp href').2

/-- Phase 1 serves the blocks in order until every slot is taken. -/
theorem reserveSlots_refs {done : List (BlockRef × Nat)} {res res' : Reservation}
    (h : Reserving cfg K scorer leaked s₀ done res s) {toFetch : List (BlockRef × Nat)}
    (hrun : reserveSlots scorer toFetch res s = (.ok res', s')) :
    res'.allocs.map (·.ref) =
      res.allocs.map (·.ref) ++ (toFetch.take (s.stagingFree.length + s.lru.keys.length)).map Prod.fst := by
  induction toFetch generalizing done res s with
  | nil =>
      obtain ⟨hres, -⟩ := Prod.mk.inj hrun
      obtain rfl := Except.ok.inj hres
      rw [List.take_nil, List.map_nil, List.append_nil]
  | cons e rest ih =>
      obtain ⟨ref, cpuSlot⟩ := e
      rcases h.allocateSlot_cases with
        ⟨slot, free, hfree, halloc⟩ | ⟨hfree, hempty, halloc⟩ | ⟨hfree, victim, slot, s₁, halloc, hevict⟩
      · rw [reserveSlots_of_ok halloc] at hrun
        have hroom : s.stagingFree.length + s.lru.keys.length = free.length + s.lru.keys.length + 1 := by
          rw [hfree, List.length_cons]
          omega
        rw [ih (h.takeFree hfree ref cpuSlot) hrun, hroom, List.take_succ_cons, List.map_append, List.append_assoc]
        rfl
      · rw [reserveSlots_of_full halloc] at hrun
        rw [ih (h.skip hfree hempty ref cpuSlot) hrun, hfree, hempty]
        rfl
      · rw [reserveSlots_of_ok halloc] at hrun
        have hnext := h.evict hevict ref cpuSlot
        have hkey := OrderedDict.mem_keys_of_get? hevict.slot_eq
        obtain ⟨old, c, t, -, -, -, rfl⟩ := hevict.state
        have hroom : s.stagingFree.length + s.lru.keys.length =
            s.stagingFree.length + (s.lru.erase victim).keys.length + 1 := by
          have hpos := List.length_pos_of_mem hkey
          rw [OrderedDict.keys_erase, List.length_erase_of_mem hkey]
          omega
        rw [ih hnext hrun, hroom, List.take_succ_cons, List.map_append, List.append_assoc]
        rfl

end Loop

section Contract

/-- The bytes of the block are in a CPU slot. -/
def isOffloaded (t : ResidencyTable) (ref : BlockRef) : Bool := (t.get ref).any fun loc => loc.residency ≠ .gpu

/-- The distinct offloaded blocks of a list. -/
def offloadedAmong (t : ResidencyTable) (refs : List BlockRef) : List BlockRef :=
  (OrderedDict.fromKeys refs).keys.filter (isOffloaded t)

/-- The distinct blocks of a list that have to be fetched. -/
def cpuAmong (t : ResidencyTable) (refs : List BlockRef) : List BlockRef :=
  (OrderedDict.fromKeys refs).keys.filter (isCpuResident t)

/-- What a caller of `ensure_resident` relies on when it returns `out` in state `s'`. -/
structure StagingContract (cfg : OrchestratorConfig) (s : Store μ σ) (refs : List BlockRef)
    (out : OrderedDict BlockRef Nat × List BlockRef) (s' : Store μ σ) : Prop where
  partition : (out.1.keys ++ out.2).Perm (offloadedAmong s.residency refs)
  staged : ∀ ref slot, out.1.get? ref = some slot → StagedAt s'.residency ref slot
  slots_distinct : ∀ ref ref' slot, out.1.get? ref = some slot → out.1.get? ref' = some slot → ref = ref'
  skipped : (offloadedAmong s.residency refs).length ≤ cfg.numStagingSlots → out.2 = []

/-- No listed block is staged yet, or the free slots and the unlisted blocks that score no higher than
any listed staged one suffice for the blocks to fetch. -/
def RoomBesideListed (scorer : BlockScorer σ ν S) (s : Store μ σ) (refs : List BlockRef) : Prop :=
  (∀ ref ∈ s.lru.keys, ref ∉ refs) ∨
    (cpuAmong s.residency refs).length ≤
      s.stagingFree.length + (spare (rank scorer s.scorer) (· ∈ refs) s.lru.keys).length

theorem isSome_cpuSource (t : ResidencyTable) (ref : BlockRef) : (cpuSource t ref).isSome = isCpuResident t ref := by
  unfold cpuSource isCpuResident isCpu
  cases hget : t.get ref with
  | none => rfl
  | some loc =>
      by_cases hcpu : loc.residency = .cpu
      · have hslot := (t.wellFormed ref loc hget).cpuSlot_isSome (by rw [hcpu]; decide)
        simp [hcpu, hslot]
      · simp [hcpu]

theorem isOffloaded_iff {t : ResidencyTable} {ref : BlockRef} :
    isOffloaded t ref = true ↔ isCpuResident t ref = true ∨ ∃ slot, StagedAt t ref slot := by
  unfold isOffloaded isCpuResident isCpu StagedAt
  cases hget : t.get ref with
  | none => simp
  | some loc =>
      have hslot := (t.wellFormed ref loc hget).stagingSlot_isSome
      cases hres : loc.residency with
      | gpu => simp [hres]
      | cpu => simp [hres]
      | staging =>
          obtain ⟨slot, hslot⟩ := Option.isSome_iff_exists.mp (hslot.mpr hres)
          simp [hres, hslot]

theorem not_cpuResident_of_stagedAt {t : ResidencyTable} {ref : BlockRef} {slot : Nat} (h : StagedAt t ref slot) :
    isCpuResident t ref = false := by
  obtain ⟨loc, hget, hres, -⟩ := h
  simp [isCpuResident, isCpu, hget, hres]

variable {cfg : OrchestratorConfig} {dev : Device μ φ ν S} {K : Backing dev} {leaked : Multiset Nat}
  {scorer : BlockScorer σ ν S} {s s₁ s₂ s₃ s' : Store μ σ} {refs : List BlockRef} {scan : Scan} {res : Reservation}
  {out : OrderedDict BlockRef Nat × List BlockRef}

namespace EnsureRun

theorem map_fst_toFetch
    (h : EnsureRun cfg K scorer leaked s (OrderedDict.fromKeys refs).keys scan s₁ res s₂ s₃ out s') :
    scan.toFetch.map Prod.fst = cpuAmong s.residency refs := by
  rw [h.scanned.toFetch, map_fst_filterMap_cpuSource, cpuAmong]
  exact List.filter_congr fun ref _ => isSome_cpuSource s.residency ref

theorem parts (h : EnsureRun cfg K scorer leaked s (OrderedDict.fromKeys refs).keys scan s₁ res s₂ s₃ out s') :
    (res.allocs.map (·.ref) ++ res.skipped).Perm (cpuAmong s.residency refs) := by
  rw [← h.map_fst_toFetch]
  exact h.reserving.parts

theorem parts_nodup (h : EnsureRun cfg K scorer leaked s (OrderedDict.fromKeys refs).keys scan s₁ res s₂ s₃ out s') :
    (res.allocs.map (·.ref) ++ res.skipped).Nodup :=
  h.parts.nodup_iff.mpr ((OrderedDict.fromKeys refs).nodup.sublist List.filter_sublist)

/-- A block that is staged already is neither fetched nor skipped. -/
theorem not_mem_parts (h : EnsureRun cfg K scorer leaked s (OrderedDict.fromKeys refs).keys scan s₁ res s₂ s₃ out s')
    {ref : BlockRef} {slot : Nat} (hstaged : StagedAt s.residency ref slot) :
    ref ∉ res.allocs.map (·.ref) ++ res.skipped := by
  rw [h.parts.mem_iff, cpuAmong, List.mem_filter, not_cpuResident_of_stagedAt hstaged]
  exact fun hmem => absurd hmem.2 Bool.false_ne_true

/-- The returned map: allocated blocks at their new slots, staged ones where the scan found them. -/
theorem get?_out (h : EnsureRun cfg K scorer leaked s (OrderedDict.fromKeys refs).keys scan s₁ res s₂ s₃ out s')
    {ref : BlockRef} {slot : Nat} :
    out.1.get? ref = some slot ↔
      (∃ a ∈ res.allocs, a.ref = ref ∧ a.slot = slot) ∨ ref ∈ refs ∧ StagedAt s.residency ref slot := by
  have hnodup : (res.allocs.map (·.ref)).Nodup := (List.nodup_append.mp h.parts_nodup).1
  rw [h.out_eq, OrderedDict.get?_foldl_set (fun a : Alloc => a.ref) (fun a => a.slot) hnodup, h.scanned.result,
    OrderedDict.mem_keys_fromKeys]
  constructor
  · rintro (halloc | ⟨-, hstaged⟩)
    · exact Or.inl halloc
    · exact Or.inr hstaged
  · rintro (halloc | ⟨hmem, hstaged⟩)
    · exact Or.inl halloc
    · exact Or.inr ⟨fun hmap => h.not_mem_parts hstaged (List.mem_append_left _ hmap), hmem, hstaged⟩

theorem partition (h : EnsureRun cfg K scorer leaked s (OrderedDict.fromKeys refs).keys scan s₁ res s₂ s₃ out s') :
    (out.1.keys ++ out.2).Perm (offloadedAmong s.residency refs) := by
  have hkeys : ∀ ref, ref ∈ out.1.keys ↔
      ref ∈ res.allocs.map (·.ref) ∨ ref ∈ refs ∧ ∃ slot, StagedAt s.residency ref slot := by
    intro ref
    simp only [OrderedDict.mem_keys_iff, h.get?_out, List.mem_map]
    constructor
    · rintro ⟨slot, ⟨a, ha, rfl, rfl⟩ | ⟨hmem, hstaged⟩⟩
      · exact Or.inl ⟨a, ha, rfl⟩
      · exact Or.inr ⟨hmem, slot, hstaged⟩
    · rintro (⟨a, ha, rfl⟩ | ⟨hmem, slot, hstaged⟩)
      · exact ⟨a.slot, Or.inl ⟨a, ha, rfl, rfl⟩⟩
      · exact ⟨slot, Or.inr ⟨hmem, hstaged⟩⟩
  have hcpu : ∀ ref, ref ∈ res.allocs.map (·.ref) ∨ ref ∈ res.skipped ↔
      ref ∈ refs ∧ isCpuResident s.residency ref = true := by
    intro ref
    rw [← List.mem_append, h.parts.mem_iff, cpuAmong, List.mem_filter, OrderedDict.mem_keys_fromKeys]
  have hskipped : out.2 = res.skipped := by rw [h.out_eq]
  obtain ⟨-, hskippedNodup, hdisjoint⟩ := List.nodup_append.mp h.parts_nodup
  have hnodup : (out.1.keys ++ out.2).Nodup := by
    refine List.nodup_append.mpr ⟨out.1.nodup, by rwa [hskipped], fun ref href ref' href' heq => ?_⟩
    subst heq
    rw [hskipped] at href'
    rcases (hkeys ref).mp href with halloc | ⟨-, slot, hstaged⟩
    · exact hdisjoint ref halloc ref href' rfl
    · exact h.not_mem_parts hstaged (List.mem_append_right _ href')
  have hoffloaded : (offloadedAmong s.residency refs).Nodup :=
    (OrderedDict.fromKeys refs).nodup.sublist List.filter_sublist
  apply (List.perm_ext_iff_of_nodup hnodup hoffloaded).mpr
  intro ref
  rw [List.mem_append, hkeys, hskipped, offloadedAmong, List.mem_filter, OrderedDict.mem_keys_fromKeys,
    isOffloaded_iff]
  have := hcpu ref
  tauto

/-- A block is skipped only when the batch itself fills every slot. -/
theorem skipped (h : EnsureRun cfg K scorer leaked s (OrderedDict.fromKeys refs).keys scan s₁ res s₂ s₃ out s')
    (hle : (offloadedAmong s.residency refs).length ≤ cfg.numStagingSlots) : out.2 = [] := by
  have hskipped : out.2 = res.skipped := by rw [h.out_eq]
  rw [hskipped]
  by_contra hne
  obtain ⟨hfree, hkeys⟩ := h.reserving.full hne
  have hvalues : s₂.lru.values = [] := by
    rw [OrderedDict.values, List.map_eq_nil_iff]
    exact List.map_eq_nil_iff.mp hkeys
  have hslots := congrArg Multiset.card h.reserving.inv.stagingSlots
  rw [hfree, hvalues, Multiset.card_range] at hslots
  have hallocs : res.allocs.length = cfg.numStagingSlots := by simpa using hslots
  have hparts := h.parts.length_eq
  rw [List.length_append, List.length_map, hallocs] at hparts
  have hsub : (cpuAmong s.residency refs).length ≤ (offloadedAmong s.residency refs).length := by
    apply List.Sublist.length_le
    apply List.monotone_filter_right
    intro ref hcpu
    exact isOffloaded_iff.mpr (Or.inl hcpu)
  have hpos : 0 < res.skipped.length := List.length_pos_iff.mpr hne
  omega

theorem lru_get?_scanned (h : EnsureRun cfg K scorer leaked s (OrderedDict.fromKeys refs).keys scan s₁ res s₂ s₃ out s')
    {ref : BlockRef} {slot : Nat} : s₁.lru.get? ref = some slot ↔ StagedAt s.residency ref slot := by
  have hres : s₁.residency = s.residency := by rw [h.scanned.state]
  rw [h.scanned.inv.lru_iff, hres]

/-- A block that got no slot in this call is where the loop left it. -/
theorem stagedAt_kept (h : EnsureRun cfg K scorer leaked s (OrderedDict.fromKeys refs).keys scan s₁ res s₂ s₃ out s')
    {ref : BlockRef} (hnot : ref ∉ res.allocs.map (·.ref)) (slot : Nat) :
    StagedAt s'.residency ref slot ↔ StagedAt s₂.residency ref slot := by
  have hs₃ : s₃.residency = s₂.residency := by rw [h.fetched]
  have hget : s'.residency.get ref = s₂.residency.get ref := by rw [h.published.kept ref hnot, hs₃]
  simp only [StagedAt, hget]

/-- A listed block that was staged keeps its slot exactly when the loop did not evict it. -/
theorem stagedAt_iff (h : EnsureRun cfg K scorer leaked s (OrderedDict.fromKeys refs).keys scan s₁ res s₂ s₃ out s')
    {ref : BlockRef} {slot : Nat} (hstaged : StagedAt s.residency ref slot) :
    StagedAt s'.residency ref slot ↔ ref ∈ s₂.lru.keys := by
  have hnot : ref ∉ res.allocs.map (·.ref) := fun hmap => h.not_mem_parts hstaged (List.mem_append_left _ hmap)
  rw [h.stagedAt_kept hnot, ← h.reserving.inv.lru_iff, OrderedDict.mem_keys_iff]
  constructor
  · intro hslot
    exact ⟨slot, hslot⟩
  · rintro ⟨slot', hslot'⟩
    have hbefore := h.lru_get?_scanned.mp (h.reserving.lru_sub ref slot' hslot')
    rwa [hstaged.unique hbefore]

/-- The returned map is right exactly when every listed block that was staged survived the loop. -/
theorem staged_iff (h : EnsureRun cfg K scorer leaked s (OrderedDict.fromKeys refs).keys scan s₁ res s₂ s₃ out s') :
    (∀ ref slot, out.1.get? ref = some slot → StagedAt s'.residency ref slot) ↔
      ∀ ref ∈ s₁.lru.keys, ref ∈ refs → ref ∈ s₂.lru.keys := by
  constructor
  · intro hright ref hkey hmem
    obtain ⟨slot, hslot⟩ := OrderedDict.mem_keys_iff.mp hkey
    have hstaged := h.lru_get?_scanned.mp hslot
    exact (h.stagedAt_iff hstaged).mp (hright ref slot (h.get?_out.mpr (Or.inr ⟨hmem, hstaged⟩)))
  · intro hkept ref slot hout
    rcases h.get?_out.mp hout with ⟨a, ha, rfl, rfl⟩ | ⟨hmem, hstaged⟩
    · exact h.published.staged a ha
    · apply (h.stagedAt_iff hstaged).mpr
      exact hkept ref (OrderedDict.mem_keys_of_get? (h.lru_get?_scanned.mpr hstaged)) hmem

theorem survive_iff (h : EnsureRun cfg K scorer leaked s (OrderedDict.fromKeys refs).keys scan s₁ res s₂ s₃ out s')
    (hvalued : ∀ ref ∈ s.lru.keys, (scorer.value s.scorer ref).isSome) :
    (∀ ref ∈ s₁.lru.keys, ref ∈ refs → ref ∈ s₂.lru.keys) ↔ RoomBesideListed scorer s refs := by
  have hmem : ∀ ref, ref ∈ s₁.lru.keys ↔ ref ∈ s.lru.keys := by
    intro ref
    rw [OrderedDict.mem_keys_iff, OrderedDict.mem_keys_iff, h.scanned.lru_get?]
  have hscorer : s₁.scorer = s.scorer := by rw [h.scanned.state]
  have hfree : s₁.stagingFree = s.stagingFree := by rw [h.scanned.state]
  have hperm : s₁.lru.keys.Perm s.lru.keys := (List.perm_ext_iff_of_nodup s₁.lru.nodup s.lru.nodup).mpr hmem
  have hlast : s₁.lru.keys.Pairwise fun x y => x ∈ refs → y ∈ refs := by
    have hdone := h.scanned.doneLast
    simp only [OrderedDict.mem_keys_fromKeys] at hdone
    exact hdone
  have hlen : scan.toFetch.length = (cpuAmong s.residency refs).length := by
    rw [← h.map_fst_toFetch, List.length_map]
  have hnodup : s₁.lru.keys.Nodup := s₁.lru.nodup
  have hkeys := reserveSlots_keys (reserving_nil h.scanned.inv) (fun ref href => ?_) h.reserve
  · by_cases hlisted : ∃ ref ∈ s₁.lru.keys, ref ∈ refs
    · rw [hkeys, evictMany_keeps_iff (P := fun ref => ref ∈ refs) hnodup hlast hlisted, length_spare_of_perm hperm,
        hscorer, hfree, hlen, RoomBesideListed]
      obtain ⟨ref, hkey, href⟩ := hlisted
      constructor
      · intro hle
        exact Or.inr (by omega)
      · rintro (hnone | hle)
        · exact absurd href (hnone ref ((hmem ref).mp hkey))
        · omega
    · push Not at hlisted
      constructor
      · intro _
        exact Or.inl fun ref hkey => hlisted ref ((hmem ref).mpr hkey)
      · intro _ ref hkey href
        exact absurd href (hlisted ref hkey)
  · rw [hscorer]
    exact hvalued ref ((hmem ref).mp href)

/-- The blocks that get a slot are the first ones to fetch, up to the number of slots. -/
theorem refs_eq (h : EnsureRun cfg K scorer leaked s (OrderedDict.fromKeys refs).keys scan s₁ res s₂ s₃ out s') :
    res.allocs.map (·.ref) = (cpuAmong s.residency refs).take cfg.numStagingSlots := by
  have hslots : s₁.stagingFree.length + s₁.lru.keys.length = cfg.numStagingSlots := by
    have hcard := congrArg Multiset.card h.scanned.inv.stagingSlots
    simpa [OrderedDict.keys, OrderedDict.values] using hcard
  rw [reserveSlots_refs (reserving_nil h.scanned.inv) h.reserve, hslots, List.map_take, h.map_fst_toFetch]
  rfl

/-- For distinct CPU-resident blocks, the returned map holds the first ones the slots suffice for. -/
theorem keys_perm
    (h : EnsureRun cfg K scorer leaked s (OrderedDict.fromKeys refs).keys scan s₁ res s₂ s₃ out s')
    (hnodup : refs.Nodup) (hcpu : ∀ ref ∈ refs, isCpuResident s.residency ref = true) :
    out.1.keys.Perm (refs.take cfg.numStagingSlots) := by
  have hallocs : res.allocs.map (·.ref) = refs.take cfg.numStagingSlots := by
    rw [h.refs_eq, cpuAmong, OrderedDict.keys_fromKeys_of_nodup hnodup, List.filter_eq_self.mpr hcpu]
  have hkeys : out.1.keys.Nodup := out.1.nodup
  apply (List.perm_ext_iff_of_nodup hkeys (hnodup.sublist (List.take_sublist _ _))).mpr
  intro ref
  rw [OrderedDict.mem_keys_iff, ← hallocs, List.mem_map]
  constructor
  · rintro ⟨slot, hslot⟩
    rcases h.get?_out.mp hslot with ⟨a, ha, rfl, -⟩ | ⟨hmem, hstaged⟩
    · exact ⟨a, ha, rfl⟩
    · exact absurd (hcpu ref hmem) (by rw [not_cpuResident_of_stagedAt hstaged]; exact Bool.false_ne_true)
  · rintro ⟨a, ha, rfl⟩
    exact ⟨a.slot, h.get?_out.mpr (Or.inl ⟨a, ha, rfl, rfl⟩)⟩

/-- When no listed block is staged before the call, every returned slot is one this call filled. -/
theorem stagedAt_of_cpu (h : EnsureRun cfg K scorer leaked s (OrderedDict.fromKeys refs).keys scan s₁ res s₂ s₃ out s')
    (hcpu : ∀ ref ∈ refs, isCpuResident s.residency ref = true) {ref : BlockRef} {slot : Nat}
    (hslot : out.1.get? ref = some slot) : StagedAt s'.residency ref slot := by
  rcases h.get?_out.mp hslot with ⟨a, ha, rfl, rfl⟩ | ⟨hmem, hbefore⟩
  · exact h.published.staged a ha
  · have hcold := hcpu ref hmem
    rw [not_cpuResident_of_stagedAt hbefore] at hcold
    cases hcold

end EnsureRun

/-- CPU-resident blocks are tracked, so for them only the copy can raise. -/
theorem EnsureFailed.fault_of_cpu (h : EnsureFailed cfg K scorer leaked s refs s')
    (hcpu : ∀ ref ∈ refs, isCpuResident s.residency ref = true) : FetchStruck dev s s' := by
  rcases h.cause with ⟨ref, href, hnone⟩ | hfault
  · have hcold := hcpu ref href
    simp [isCpuResident, isCpu, hnone] at hcold
  · exact hfault

theorem StoreInv.lru_injective {reserved : Multiset Nat} (h : StoreInv cfg K leaked reserved s) {ref ref' : BlockRef}
    {slot : Nat} (hget : s.lru.get? ref = some slot) (hget' : s.lru.get? ref' = some slot) : ref = ref' := by
  have hnodup : s.lru.values.Nodup := by
    have hstaging := (Multiset.nodup_add.mp h.staging_nodup).1
    exact Multiset.coe_nodup.mp (Multiset.nodup_add.mp hstaging).2.1
  have hitems := List.inj_on_of_nodup_map hnodup (OrderedDict.get?_eq_some_iff.mp hget)
    (OrderedDict.get?_eq_some_iff.mp hget') rfl
  exact congrArg Prod.fst hitems

/-- A list of CPU-resident blocks leaves the occupancy order alone. -/
theorem scanBlocks_of_cpu {refs : List BlockRef} (hcpu : ∀ ref ∈ refs, isCpuResident s.residency ref = true)
    (scan : Scan) :
    scanBlocks refs scan s =
      (.ok { scan with toFetch := scan.toFetch ++ refs.filterMap (cpuSource s.residency) }, s) := by
  induction refs generalizing scan with
  | nil =>
      rw [List.filterMap_nil, List.append_nil]
      rfl
  | cons ref rest ih =>
      obtain ⟨e, hsource⟩ := Option.isSome_iff_exists.mp
        ((isSome_cpuSource s.residency ref).trans (hcpu ref List.mem_cons_self))
      obtain ⟨rfl, loc, hget, hres, hslot⟩ := cpuSource_eq_some.mp hsource
      have hscan : scanBlock e.1 scan s = (.ok { scan with toFetch := scan.toFetch ++ [e] }, s) := by
        simp [scanBlock, hget, hres, hslot]
      simp only [scanBlocks, bind, Eff.andThen, hscan, ih (fun ref href => hcpu ref (List.mem_cons_of_mem _ href)),
        List.filterMap_cons_some hsource, List.append_assoc, List.singleton_append]

/-- The blocks that are staged after a call for the CPU-resident blocks `refs`: those that found a slot,
and those that were staged before and not evicted for them. -/
def stagedAfter (cfg : OrchestratorConfig) (scorer : BlockScorer σ ν S) (s : Store μ σ) (refs : List BlockRef) :
    List BlockRef :=
  (cpuAmong s.residency refs).take cfg.numStagingSlots ++
    evictMany (rank scorer s.scorer) ((cpuAmong s.residency refs).length - s.stagingFree.length) s.lru.keys

theorem EnsureRun.mem_stagedAfter
    (h : EnsureRun cfg K scorer leaked s (OrderedDict.fromKeys refs).keys scan s₁ res s₂ s₃ out s')
    (hcpu : ∀ ref ∈ refs, isCpuResident s.residency ref = true)
    (hvalued : ∀ ref ∈ s.lru.keys, (scorer.value s.scorer ref).isSome) (ref : BlockRef) :
    (∃ slot, StagedAt s'.residency ref slot) ↔ ref ∈ stagedAfter cfg scorer s refs := by
  have hscan := h.scan_eq
  rw [scanBlocks_of_cpu fun ref href => hcpu ref (OrderedDict.mem_keys_fromKeys.mp href)] at hscan
  obtain ⟨-, rfl⟩ := Prod.mk.inj hscan
  have hlen : scan.toFetch.length = (cpuAmong s.residency refs).length := by
    rw [← h.map_fst_toFetch, List.length_map]
  have hallocs := h.refs_eq
  have hkeys := reserveSlots_keys (reserving_nil h.scanned.inv) hvalued h.reserve
  rw [hlen] at hkeys
  rw [stagedAfter, List.mem_append, ← hallocs, ← hkeys]
  by_cases halloc : ref ∈ res.allocs.map (·.ref)
  · obtain ⟨a, ha, rfl⟩ := List.mem_map.mp halloc
    exact ⟨fun _ => Or.inl halloc, fun _ => ⟨a.slot, h.published.staged a ha⟩⟩
  · simp only [h.stagedAt_kept halloc, ← mem_keys_iff_staged h.reserving.inv, halloc, false_or]

/-- Fetching keeps which blocks are offloaded. -/
theorem Restages.isOffloaded {t t' : ResidencyTable} (h : Restages t t') (ref : BlockRef) :
    KVOffload.isOffloaded t' ref = KVOffload.isOffloaded t ref := by
  unfold KVOffload.isOffloaded
  cases hget : t.get ref with
  | none => rw [h.get_eq_none_iff.mpr hget]
  | some loc =>
      obtain ⟨loc', hget', hsame⟩ := h.of_some hget
      rw [hget', Option.any_some, Option.any_some]
      exact decide_eq_decide.mpr (not_congr hsame.gpu_iff.symm)

/-- An offloaded block is CPU-resident exactly when it is not staged. -/
theorem isCpuResident_iff {t : ResidencyTable} {ref : BlockRef} :
    isCpuResident t ref = true ↔ isOffloaded t ref = true ∧ ¬∃ slot, StagedAt t ref slot := by
  constructor
  · intro hcpu
    refine ⟨isOffloaded_iff.mpr (Or.inl hcpu), fun ⟨slot, hstaged⟩ => ?_⟩
    rw [not_cpuResident_of_stagedAt hstaged] at hcpu
    cases hcpu
  · rintro ⟨hoff, hnot⟩
    exact (isOffloaded_iff.mp hoff).resolve_right hnot

end Contract

/-- In every reachable state, a call that returns meets its contract exactly when there is room for the
fetched blocks beside the listed ones that are staged already. -/
theorem ensureResident_contract_iff (cfg : OrchestratorConfig) (dev : Device μ φ ν S) (scorer : BlockScorer σ ν S)
    (x : σ) (mem : μ) {ops : List (Op μ)} (hops : ∀ op ∈ ops, op.Distinct) {s s' : Store μ σ}
    (hreach : s = (run (step cfg dev scorer) (Orchestrator.init cfg x mem) ops).store)
    (hvalued : ∀ ref ∈ s.lru.keys, (scorer.value s.scorer ref).isSome) {refs : List BlockRef}
    {out : OrderedDict BlockRef Nat × List BlockRef}
    (hcall : ensureResident cfg dev scorer refs s = (.ok out, s')) :
    StagingContract cfg s refs out s' ↔ RoomBesideListed scorer s refs := by
  have hok := storeOk_run cfg dev scorer x mem hops
  rw [← hreach] at hok
  obtain ⟨leaked, -, hinv⟩ := hok
  obtain ⟨hinv', scan, s₁, res, s₂, s₃, hphases⟩ := Eff.of_wp (wp_ensureResident hinv refs) hcall
  rw [← hphases.survive_iff hvalued, ← hphases.staged_iff]
  constructor
  · intro hcontract
    exact hcontract.staged
  · intro hstaged
    refine ⟨hphases.partition, hstaged, fun ref ref' slot hget hget' => ?_, hphases.skipped⟩
    apply hinv'.lru_injective
    · exact (hinv'.lru_iff ref slot).mpr (hstaged ref slot hget)
    · exact (hinv'.lru_iff ref' slot).mpr (hstaged ref' slot hget')

/-- Four CPU slots and three staging pages. -/
def roomyConfig : OrchestratorConfig :=
  { smallConfig with
    numCpuSlots := smallConfig.numCpuSlots + 2
    numStagingSlots := smallConfig.numStagingSlots + 2
    numCpuSlots_pos := Nat.succ_pos _
    numStagingSlots_pos := Nat.succ_pos _ }

/-- The four full blocks of one request move to the CPU. -/
def offloadAll : List (Op SmallMemory) :=
  [.sync requestA [3, 5, 6, 7] 8, .offloadFraction [⟨requestA, 0⟩] 0 {⟨requestA, 0⟩},
    .offloadFraction [⟨requestA, 1⟩] 0 {⟨requestA, 1⟩}, .offloadFraction [⟨requestA, 2⟩] 0 {⟨requestA, 2⟩},
    .offloadFraction [⟨requestA, 3⟩] 0 {⟨requestA, 3⟩}]

/-- Two of the four blocks are staged, the older one first. -/
def twoStaged : Store SmallMemory LruState :=
  (run (step roomyConfig (combinedDevice steadyRuntime) lruScorer)
    (Orchestrator.init roomyConfig ⟨.empty, 0⟩ blankMemory)
    (offloadAll ++ [.ensureResident [⟨requestA, 0⟩], .ensureResident [⟨requestA, 1⟩]])).store

/-- The call lists a staged block and two that it fetches: one of these takes the free page, the other
the page of the staged block that is not listed. -/
theorem ensureResident_contract_twoStaged :
    ∃ out s', ensureResident roomyConfig (combinedDevice steadyRuntime) lruScorer
        [⟨requestA, 1⟩, ⟨requestA, 2⟩, ⟨requestA, 3⟩] twoStaged = (.ok out, s') ∧
      out.1.items = [(⟨requestA, 1⟩, 1), (⟨requestA, 2⟩, 2), (⟨requestA, 3⟩, 0)] ∧
      StagingContract roomyConfig twoStaged [⟨requestA, 1⟩, ⟨requestA, 2⟩, ⟨requestA, 3⟩] out s' := by
  have hreturns : (ensureResident roomyConfig (combinedDevice steadyRuntime) lruScorer
      [⟨requestA, 1⟩, ⟨requestA, 2⟩, ⟨requestA, 3⟩] twoStaged).1.toOption.any (fun out =>
        out.1.items = [(⟨requestA, 1⟩, 1), (⟨requestA, 2⟩, 2), (⟨requestA, 3⟩, 0)]) = true := by
    decide +kernel
  obtain ⟨out, s', hcall, hout⟩ := Eff.exists_of_toOption hreturns
  refine ⟨out, s', hcall, of_decide_eq_true hout, (ensureResident_contract_iff roomyConfig
    (combinedDevice steadyRuntime) lruScorer ⟨.empty, 0⟩ blankMemory ?_ rfl ?_ hcall).mpr ?_⟩
  · simp [offloadAll, Op.Distinct]
  · intro ref _
    rfl
  · exact Or.inr (by decide +kernel)

/-- Two offloaded blocks and one staging page; the first block is staged. -/
def oneStaged : Store SmallMemory LruState :=
  (run (step smallConfig (combinedDevice steadyRuntime) lruScorer)
    (Orchestrator.init smallConfig ⟨.empty, 0⟩ blankMemory)
    [.sync requestA [3, 5] 4, .offloadFraction [⟨requestA, 0⟩] 0 {⟨requestA, 0⟩},
      .offloadFraction [⟨requestA, 1⟩] 0 {⟨requestA, 1⟩}, .ensureResident [⟨requestA, 0⟩]]).store

/-- The listed staged block is evicted for the fetched one, and the call reports both in slot 0. -/
theorem ensureResident_shares_slot :
    ∃ out s', ensureResident smallConfig (combinedDevice steadyRuntime) lruScorer [⟨requestA, 0⟩, ⟨requestA, 1⟩]
        oneStaged = (.ok out, s') ∧
      out.1.items = [(⟨requestA, 0⟩, 0), (⟨requestA, 1⟩, 0)] ∧ out.2 = [] ∧
      ¬StagingContract smallConfig oneStaged [⟨requestA, 0⟩, ⟨requestA, 1⟩] out s' := by
  have hreturns : (ensureResident smallConfig (combinedDevice steadyRuntime) lruScorer [⟨requestA, 0⟩, ⟨requestA, 1⟩]
      oneStaged).1.toOption.any
        (fun out => out.1.items = [(⟨requestA, 0⟩, 0), (⟨requestA, 1⟩, 0)] ∧ out.2 = []) = true := by decide +kernel
  obtain ⟨out, s', hcall, hout⟩ := Eff.exists_of_toOption hreturns
  obtain ⟨hitems, hskipped⟩ := of_decide_eq_true hout
  refine ⟨out, s', hcall, hitems, hskipped, fun hcontract => ?_⟩
  have hfirst : out.1.get? ⟨requestA, 0⟩ = some 0 := OrderedDict.get?_eq_some_iff.mpr (by rw [hitems]; decide)
  have hsecond : out.1.get? ⟨requestA, 1⟩ = some 0 := OrderedDict.get?_eq_some_iff.mpr (by rw [hitems]; decide)
  exact absurd (hcontract.slots_distinct _ _ _ hfirst hsecond) (by decide)

end KVOffload

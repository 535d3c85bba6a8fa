import KVOffload.StoreStaging

/-! The invariant of the store. Slots are conserved: every CPU slot is free, held by an offloaded
block, or in hand of a running operation, and likewise every staging slot. What the slots contain is
a parameter (`Backing`): any relation between memory and blocks that copies establish and that writes
to other slots keep. Each lemma below is one atomic change of the store. -/

namespace KVOffload
open Base

variable {μ φ ν σ S : Type} [LinearOrder S]

/-- A notion of "the bytes of this block are in its slots" that the device's copies respect.
`holds mem ref c page` is about CPU slot `c` and, if given, the staging page; `source mem ref page`
is about a GPU page whose content may be stored for `ref`. -/
structure Backing (dev : Device μ φ ν S) where
  holds : μ → BlockRef → Nat → Option Nat → Prop
  source : μ → BlockRef → Nat → Prop
  holds_none : ∀ mem ref c page, holds mem ref c page → holds mem ref c none
  holds_store : ∀ mem ref c page pages slots, c ∉ slots → holds mem ref c page →
    holds (dev.store mem pages slots) ref c page
  holds_storeTorn : ∀ torn mem ref c page pages slots, c ∉ slots → holds mem ref c page →
    holds (dev.storeTorn torn mem pages slots) ref c page
  holds_fetch : ∀ mem ref c page slots pages, (∀ p ∈ page, p ∉ pages) → holds mem ref c page →
    holds (dev.fetch mem slots pages) ref c page
  holds_fetchTorn : ∀ torn mem ref c page slots pages, (∀ p ∈ page, p ∉ pages) → holds mem ref c page →
    holds (dev.fetchTorn torn mem slots pages) ref c page
  holds_of_store : ∀ mem ref page slot pages slots, slots.Nodup → (page, slot) ∈ pages.zip slots →
    source mem ref page → holds (dev.store mem pages slots) ref slot none
  holds_of_fetch : ∀ mem ref c p slots pages, pages.Nodup → (c, p) ∈ slots.zip pages →
    holds mem ref c none → holds (dev.fetch mem slots pages) ref c (some p)

/-- Slot accounting alone. -/
def Backing.trivial (dev : Device μ φ ν S) : Backing dev where
  holds _ _ _ _ := True
  source _ _ _ := True
  holds_none _ _ _ _ _ := True.intro
  holds_store _ _ _ _ _ _ _ _ := True.intro
  holds_storeTorn _ _ _ _ _ _ _ _ _ := True.intro
  holds_fetch _ _ _ _ _ _ _ _ := True.intro
  holds_fetchTorn _ _ _ _ _ _ _ _ _ := True.intro
  holds_of_store _ _ _ _ _ _ _ _ _ := True.intro
  holds_of_fetch _ _ _ _ _ _ _ _ _ := True.intro

/-- The CPU slot an entry of the table holds. -/
def heldCpuSlot (_ : BlockRef) (loc : BlockLocation) : Option Nat :=
  if loc.residency = .gpu then none else loc.cpuSlot

def heldCpu (t : ResidencyTable) : List Nat := t.blocks.collect heldCpuSlot

/-- The block is staged at `slot`. -/
def StagedAt (t : ResidencyTable) (ref : BlockRef) (slot : Nat) : Prop :=
  ∃ loc, t.get ref = some loc ∧ loc.residency = .staging ∧ loc.stagingSlot = some slot

/-- The invariant, with CPU slots `leaked` and staging slots `reserved` in nobody's structures. -/
structure StoreInv (cfg : OrchestratorConfig) {dev : Device μ φ ν S} (K : Backing dev)
    (leaked reserved : Multiset Nat) (s : Store μ σ) : Prop where
  cpuSlots : (s.cpuFree : Multiset Nat) + (heldCpu s.residency : Multiset Nat) + leaked =
    Multiset.range cfg.numCpuSlots
  gpu_cpuSlot : ∀ ref loc, s.residency.get ref = some loc → loc.residency = .gpu → loc.cpuSlot = none
  stagingSlots : (s.stagingFree : Multiset Nat) + (s.lru.values : Multiset Nat) + reserved =
    Multiset.range cfg.numStagingSlots
  lru_iff : ∀ ref slot, s.lru.get? ref = some slot ↔ StagedAt s.residency ref slot
  backed : ∀ ref loc c, s.residency.get ref = some loc → loc.residency ≠ .gpu → loc.cpuSlot = some c →
    K.holds s.mem ref c (loc.stagingSlot.map (cfg.stagingBase + ·))

section Held

variable {t t' : ResidencyTable} {ref : BlockRef} {loc old : BlockLocation}

theorem coe_heldCpu_of_get (h : t.get ref = some old) :
    (heldCpu t : Multiset Nat) =
      ((heldCpuSlot ref old).toList : Multiset Nat) + ((t.blocks.erase ref).collect heldCpuSlot : Multiset Nat) :=
  OrderedDict.coe_collect_of_get? heldCpuSlot h

theorem ResidencyTable.Relocates.coe_heldCpu (h : t.Relocates t' ref loc) :
    (heldCpu t' : Multiset Nat) =
      ((heldCpuSlot ref loc).toList : Multiset Nat) + ((t.blocks.erase ref).collect heldCpuSlot : Multiset Nat) := by
  rw [heldCpu, h, OrderedDict.coe_collect_set]

/-- A change that keeps what the entry holds keeps the held slots. -/
theorem ResidencyTable.Relocates.coe_heldCpu_eq (h : t.Relocates t' ref loc) (hold : t.get ref = some old)
    (heq : heldCpuSlot ref loc = heldCpuSlot ref old) : (heldCpu t' : Multiset Nat) = heldCpu t := by
  rw [h.coe_heldCpu, heq, ← coe_heldCpu_of_get hold]

theorem mem_heldCpu {c : Nat} :
    c ∈ heldCpu t ↔ ∃ ref loc, t.get ref = some loc ∧ loc.residency ≠ .gpu ∧ loc.cpuSlot = some c := by
  simp only [heldCpu, OrderedDict.mem_collect_iff, ResidencyTable.get, heldCpuSlot]
  refine exists_congr fun ref => exists_congr fun loc => and_congr_right fun _ => ?_
  by_cases h : loc.residency = .gpu <;> simp [h]

theorem coe_values_set (lru : OrderedDict BlockRef Nat) (hnone : lru.get? ref = none) (slot : Nat) :
    ((lru.set ref slot).values : Multiset Nat) = slot ::ₘ (lru.values : Multiset Nat) := by
  rw [OrderedDict.values_eq_collect, OrderedDict.values_eq_collect, OrderedDict.coe_collect_set,
    OrderedDict.erase_of_get?_eq_none hnone]
  rfl

theorem coe_values_erase (lru : OrderedDict BlockRef Nat) {slot : Nat} (hslot : lru.get? ref = some slot) :
    (lru.values : Multiset Nat) = slot ::ₘ ((lru.erase ref).values : Multiset Nat) := by
  rw [OrderedDict.values_eq_collect, OrderedDict.values_eq_collect, OrderedDict.coe_collect_of_get? _ hslot]
  rfl

theorem coe_values_moveToEnd (lru : OrderedDict BlockRef Nat) (ref : BlockRef) :
    ((lru.moveToEnd ref).values : Multiset Nat) = lru.values := by
  rw [OrderedDict.values_eq_collect, OrderedDict.values_eq_collect, OrderedDict.coe_collect_moveToEnd]

theorem mem_values_iff {lru : OrderedDict BlockRef Nat} {slot : Nat} :
    slot ∈ lru.values ↔ ∃ ref, lru.get? ref = some slot := by
  rw [OrderedDict.values_eq_collect, OrderedDict.mem_collect_iff]
  simp only [Option.some.injEq, exists_eq_right]

end Held

namespace StoreInv

variable {cfg : OrchestratorConfig} {dev : Device μ φ ν S} {K : Backing dev} {leaked reserved : Multiset Nat}
  {s : Store μ σ} {t : ResidencyTable} {ref : BlockRef} {old loc : BlockLocation}

theorem rescore (h : StoreInv cfg K leaked reserved s) (x : σ) (tick : Nat) :
    StoreInv cfg K leaked reserved { s with scorer := x, tick := tick } :=
  ⟨h.cpuSlots, h.gpu_cpuSlot, h.stagingSlots, h.lru_iff, h.backed⟩

theorem touch (h : StoreInv cfg K leaked reserved s) (ref : BlockRef) :
    StoreInv cfg K leaked reserved { s with lru := s.lru.moveToEnd ref } where
  cpuSlots := h.cpuSlots
  gpu_cpuSlot := h.gpu_cpuSlot
  stagingSlots := by
    rw [coe_values_moveToEnd]
    exact h.stagingSlots
  lru_iff := fun ref' slot => by
    rw [OrderedDict.get?_moveToEnd]
    exact h.lru_iff ref' slot
  backed := h.backed

/-- A change of an entry that keeps its residency and its slots. -/
theorem sameSlots (h : StoreInv cfg K leaked reserved s) (hold : s.residency.get ref = some old)
    (ht : s.residency.Relocates t ref loc) (hres : loc.residency = old.residency) (hcpu : loc.cpuSlot = old.cpuSlot)
    (hstaging : loc.stagingSlot = old.stagingSlot) :
    StoreInv cfg K leaked reserved { s with residency := t } := by
  have hget := ht.get
  refine ⟨?_, fun ref' loc' hloc' => ?_, h.stagingSlots, fun ref' slot => ?_, fun ref' loc' c hloc' => ?_⟩
  · rw [ht.coe_heldCpu_eq hold (by rw [heldCpuSlot, heldCpuSlot, hres, hcpu])]
    exact h.cpuSlots
  · rw [hget] at hloc'
    split_ifs at hloc' with heq
    · cases hloc'
      rw [hres, hcpu]
      exact h.gpu_cpuSlot ref old hold
    · exact h.gpu_cpuSlot ref' loc' hloc'
  · rw [h.lru_iff]
    simp only [StagedAt, hget]
    by_cases heq : ref' = ref
    · subst heq
      simp [hold, hres, hstaging]
    · simp [heq]
  · rw [hget] at hloc'
    split_ifs at hloc' with heq
    · cases hloc'
      rw [heq, hres, hcpu, hstaging]
      exact h.backed ref old c hold
    · exact h.backed ref' loc' c hloc'

theorem complete (h : StoreInv cfg K leaked reserved s) (hold : s.residency.get ref = some old)
    (ht : s.residency.Relocates t ref { old with complete := true }) :
    StoreInv cfg K leaked reserved { s with residency := t } :=
  h.sameSlots hold ht rfl rfl rfl

/-- Binding an untracked or GPU-resident block to a page. -/
theorem bind (h : StoreInv cfg K leaked reserved s)
    (hold : ∀ old, s.residency.get ref = some old → old.residency = .gpu) (page : Nat) (done : Bool) :
    StoreInv cfg K leaked reserved { s with residency := s.residency.markGpu ref page done } := by
  have hslot : (s.residency.get ref).bind (·.cpuSlot) = none := by
    cases hget : s.residency.get ref with
    | none => rfl
    | some old => exact h.gpu_cpuSlot ref old hget (hold old hget)
  have hget := s.residency.get_markGpu ref
  refine ⟨?_, fun ref' loc' hloc' => ?_, h.stagingSlots, fun ref' slot => ?_, fun ref' loc' c hloc' => ?_⟩
  · have hheld : (heldCpu (s.residency.markGpu ref page done) : Multiset Nat) = heldCpu s.residency := by
      have hset := OrderedDict.coe_collect_set heldCpuSlot s.residency.blocks ref
        { residency := .gpu, gpuBlockId := some page, cpuSlot := (s.residency.get ref).bind (·.cpuSlot),
          complete := done }
      refine hset.trans ?_
      cases htracked : s.residency.get ref with
      | none =>
          rw [OrderedDict.erase_of_get?_eq_none htracked]
          exact zero_add _
      | some old =>
          rw [coe_heldCpu_of_get htracked, heldCpuSlot, heldCpuSlot, if_pos rfl, if_pos (hold old htracked)]
    rw [hheld]
    exact h.cpuSlots
  · rw [hget] at hloc'
    split_ifs at hloc' with heq
    · cases hloc'
      exact fun _ => hslot
    · exact h.gpu_cpuSlot ref' loc' hloc'
  · rw [h.lru_iff]
    simp only [StagedAt, hget]
    by_cases heq : ref' = ref
    · subst heq
      constructor
      · rintro ⟨loc', hloc', hstaging, -⟩
        have hgpu := hold loc' hloc'
        rw [hstaging] at hgpu
        cases hgpu
      · simp
    · simp [heq]
  · rw [hget] at hloc'
    split_ifs at hloc' with heq
    · cases hloc'
      exact fun hne => absurd rfl hne
    · exact h.backed ref' loc' c hloc'

theorem cpu_nodup (h : StoreInv cfg K leaked reserved s) :
    ((s.cpuFree : Multiset Nat) + (heldCpu s.residency : Multiset Nat) + leaked).Nodup := by
  rw [h.cpuSlots]
  exact Multiset.nodup_range _

theorem staging_nodup (h : StoreInv cfg K leaked reserved s) :
    ((s.stagingFree : Multiset Nat) + (s.lru.values : Multiset Nat) + reserved).Nodup := by
  rw [h.stagingSlots]
  exact Multiset.nodup_range _

/-- A CPU slot in hand is held by no block. -/
theorem not_mem_leaked (h : StoreInv cfg K leaked reserved s) {c : Nat} (hget : s.residency.get ref = some loc)
    (hres : loc.residency ≠ .gpu) (hc : loc.cpuSlot = some c) : c ∉ leaked := by
  intro hmem
  have hheld : c ∈ heldCpu s.residency := mem_heldCpu.mpr ⟨ref, loc, hget, hres, hc⟩
  exact Multiset.disjoint_left.mp (Multiset.nodup_add.mp h.cpu_nodup).2.2
    (Multiset.mem_add.mpr (Or.inr (Multiset.mem_coe.mpr hheld))) hmem

/-- A staging slot in hand is occupied by no block. -/
theorem not_mem_reserved (h : StoreInv cfg K leaked reserved s) {slot : Nat} (hslot : s.lru.get? ref = some slot) :
    slot ∉ reserved := by
  intro hmem
  have hvalue : slot ∈ s.lru.values := mem_values_iff.mpr ⟨ref, hslot⟩
  exact Multiset.disjoint_left.mp (Multiset.nodup_add.mp h.staging_nodup).2.2
    (Multiset.mem_add.mpr (Or.inr (Multiset.mem_coe.mpr hvalue))) hmem

/-- A GPU block becomes CPU-resident in a slot that was in hand. -/
theorem publishCpu (slot : Nat) (h : StoreInv cfg K (slot ::ₘ leaked) reserved s)
    (hold : s.residency.get ref = some old) (hgpu : old.residency = .gpu)
    (ht : s.residency.Relocates t ref { residency := .cpu, gpuBlockId := old.gpuBlockId, cpuSlot := some slot,
                                        complete := old.complete })
    (hholds : K.holds s.mem ref slot none) :
    StoreInv cfg K leaked reserved { s with residency := t } := by
  have hget := ht.get
  refine ⟨?_, fun ref' loc' hloc' => ?_, h.stagingSlots, fun ref' slot' => ?_, fun ref' loc' c hloc' => ?_⟩
  · have hheld : (heldCpu t : Multiset Nat) = slot ::ₘ (heldCpu s.residency : Multiset Nat) := by
      rw [ht.coe_heldCpu, coe_heldCpu_of_get hold, heldCpuSlot, heldCpuSlot, if_pos hgpu]
      rfl
    calc (s.cpuFree : Multiset Nat) + (heldCpu t : Multiset Nat) + leaked
        = (s.cpuFree : Multiset Nat) + (heldCpu s.residency : Multiset Nat) + slot ::ₘ leaked := by
          rw [hheld, Multiset.add_cons, Multiset.cons_add, Multiset.add_cons]
      _ = Multiset.range cfg.numCpuSlots := h.cpuSlots
  · rw [hget] at hloc'
    split_ifs at hloc' with heq
    · cases hloc'
      exact fun hne => by cases hne
    · exact h.gpu_cpuSlot ref' loc' hloc'
  · rw [h.lru_iff]
    simp only [StagedAt, hget]
    by_cases heq : ref' = ref
    · subst heq
      simp [hold, hgpu]
    · simp [heq]
  · rw [hget] at hloc'
    split_ifs at hloc' with heq
    · cases hloc'
      rintro - hc
      cases hc
      rw [heq]
      exact hholds
    · exact h.backed ref' loc' c hloc'

/-- An offloaded block stays offloaded in its CPU slot, and the staging slots are accounted for anew. -/
theorem restage {c : Nat} {lru : OrderedDict BlockRef Nat} {reserved' : Multiset Nat}
    (h : StoreInv cfg K leaked reserved s) (hold : s.residency.get ref = some old) (hne : old.residency ≠ .gpu)
    (hc : old.cpuSlot = some c) (ht : s.residency.Relocates t ref loc) (hres : loc.residency ≠ .gpu)
    (hcpu : loc.cpuSlot = some c)
    (hslots : (s.stagingFree : Multiset Nat) + (lru.values : Multiset Nat) + reserved' =
      Multiset.range cfg.numStagingSlots)
    (hself : ∀ slot, lru.get? ref = some slot ↔ loc.residency = .staging ∧ loc.stagingSlot = some slot)
    (hkept : ∀ ref', ref' ≠ ref → lru.get? ref' = s.lru.get? ref')
    (hholds : K.holds s.mem ref c (loc.stagingSlot.map (cfg.stagingBase + ·))) :
    StoreInv cfg K leaked reserved' { s with residency := t, lru := lru } := by
  have hget := ht.get
  refine ⟨?_, fun ref' loc' hloc => ?_, hslots, fun ref' slot' => ?_, fun ref' loc' c' hloc => ?_⟩
  · rw [ht.coe_heldCpu_eq hold (by rw [heldCpuSlot, heldCpuSlot, if_neg hne, if_neg hres, hc, hcpu])]
    exact h.cpuSlots
  · rw [hget] at hloc
    split_ifs at hloc with heq
    · cases hloc
      exact fun hgpu => absurd hgpu hres
    · exact h.gpu_cpuSlot ref' loc' hloc
  · by_cases heq : ref' = ref
    · subst heq
      simp [StagedAt, hget, hself]
    · rw [hkept ref' heq, h.lru_iff]
      simp only [StagedAt, hget, if_neg heq]
  · rw [hget] at hloc
    split_ifs at hloc with heq
    · cases hloc
      intro _ hc'
      obtain rfl : c = c' := Option.some.inj (hcpu.symm.trans hc')
      rw [heq]
      exact hholds
    · exact h.backed ref' loc' c' hloc

/-- A staged block falls back to its CPU copy; its staging slot is then in hand. -/
theorem unstage {slot c : Nat} (h : StoreInv cfg K leaked reserved s) (hslot : s.lru.get? ref = some slot)
    (hold : s.residency.get ref = some old) (hc : old.cpuSlot = some c)
    (ht : s.residency.Relocates t ref { residency := .cpu, gpuBlockId := old.gpuBlockId, cpuSlot := some c,
                                        complete := old.complete }) :
    StoreInv cfg K leaked (slot ::ₘ reserved) { s with residency := t, lru := s.lru.erase ref } := by
  obtain ⟨loc', hloc', hstaging, -⟩ := (h.lru_iff ref slot).mp hslot
  obtain rfl : loc' = old := Option.some.inj (hloc'.symm.trans hold)
  have hne : loc'.residency ≠ .gpu := by rw [hstaging]; decide
  have hslots :=
    calc (s.stagingFree : Multiset Nat) + ((s.lru.erase ref).values : Multiset Nat) + slot ::ₘ reserved
        = (s.stagingFree : Multiset Nat) + (s.lru.values : Multiset Nat) + reserved := by
          rw [coe_values_erase s.lru hslot, Multiset.add_cons, Multiset.add_cons, Multiset.cons_add]
      _ = Multiset.range cfg.numStagingSlots := h.stagingSlots
  apply h.restage hold hne hc ht nofun rfl hslots
  · intro slot'
    simp
  · exact fun ref' heq => OrderedDict.get?_erase_of_ne _ heq
  · exact K.holds_none _ _ _ _ (h.backed ref loc' c hold hne hc)

/-- A CPU-resident block becomes staged in a slot that was in hand. -/
theorem publishStaging (slot : Nat) {c : Nat} (h : StoreInv cfg K leaked (slot ::ₘ reserved) s)
    (hold : s.residency.get ref = some old) (hcpu : old.residency = .cpu) (hc : old.cpuSlot = some c)
    (ht : s.residency.Relocates t ref { residency := .staging, gpuBlockId := old.gpuBlockId, cpuSlot := some c,
                                        stagingSlot := some slot, complete := old.complete })
    (hholds : K.holds s.mem ref c (some (cfg.stagingBase + slot))) :
    StoreInv cfg K leaked reserved { s with residency := t, lru := s.lru.set ref slot } := by
  have hne : old.residency ≠ .gpu := by rw [hcpu]; decide
  have hnone : s.lru.get? ref = none := by
    by_contra hsome
    obtain ⟨slot', hslot'⟩ := Option.ne_none_iff_exists'.mp hsome
    obtain ⟨loc', hloc', hstaging, -⟩ := (h.lru_iff ref slot').mp hslot'
    obtain rfl : loc' = old := Option.some.inj (hloc'.symm.trans hold)
    rw [hcpu] at hstaging
    cases hstaging
  have hslots :=
    calc (s.stagingFree : Multiset Nat) + ((s.lru.set ref slot).values : Multiset Nat) + reserved
        = (s.stagingFree : Multiset Nat) + (s.lru.values : Multiset Nat) + slot ::ₘ reserved := by
          rw [coe_values_set s.lru hnone, Multiset.add_cons, Multiset.cons_add, Multiset.add_cons]
      _ = Multiset.range cfg.numStagingSlots := h.stagingSlots
  apply h.restage hold hne hc ht nofun rfl hslots
  · intro slot'
    simp
  · exact fun ref' heq => OrderedDict.get?_set_of_ne _ _ heq
  · exact hholds

/-- Dropping a block that is not staged returns its CPU slot. -/
theorem free (h : StoreInv cfg K leaked reserved s) (hnone : s.lru.get? ref = none) (scorer : BlockScorer σ ν S) :
    StoreInv cfg K leaked reserved (freeBlock scorer ref s) := by
  have hget := s.residency.get_remove ref
  refine ⟨?_, fun ref' loc hloc => ?_, h.stagingSlots, fun ref' slot => ?_, fun ref' loc c hloc => ?_⟩
  · refine Eq.trans ?_ h.cpuSlots
    cases hold : s.residency.get ref with
    | none =>
        simp only [freeBlock, ResidencyTable.remove, heldCpu, hold, Option.bind_none,
          OrderedDict.erase_of_get?_eq_none hold]
    | some old =>
        rw [coe_heldCpu_of_get hold]
        by_cases hgpu : old.residency = .gpu
        · simp [freeBlock, ResidencyTable.remove, heldCpu, heldCpuSlot, hold, hgpu, h.gpu_cpuSlot ref old hold hgpu]
        · obtain ⟨c, hc⟩ := Option.isSome_iff_exists.mp ((s.residency.wellFormed ref old hold).cpuSlot_isSome hgpu)
          simp only [freeBlock, ResidencyTable.remove, heldCpu, heldCpuSlot, hold, hgpu, hc, Option.bind_some, if_false,
            Option.toList_some, ← Multiset.cons_coe, Multiset.coe_nil, Multiset.cons_add, Multiset.add_cons, zero_add]
  · rw [show (freeBlock scorer ref s).residency.get ref' = _ from hget ref'] at hloc
    split_ifs at hloc
    exact h.gpu_cpuSlot ref' loc hloc
  · rw [show (freeBlock scorer ref s).lru = s.lru from rfl]
    by_cases heq : ref' = ref
    · subst heq
      rw [hnone]
      simp [StagedAt, freeBlock, hget]
    · rw [h.lru_iff]
      simp only [StagedAt, freeBlock, hget, if_neg heq]
  · rw [show (freeBlock scorer ref s).residency.get ref' = _ from hget ref'] at hloc
    split_ifs at hloc
    exact h.backed ref' loc c hloc

/-- A change of memory that keeps what every offloaded block relies on. -/
theorem remember (h : StoreInv cfg K leaked reserved s) (mem : μ)
    (hmem : ∀ ref loc c, s.residency.get ref = some loc → loc.residency ≠ .gpu → loc.cpuSlot = some c →
      K.holds s.mem ref c (loc.stagingSlot.map (cfg.stagingBase + ·)) →
      K.holds mem ref c (loc.stagingSlot.map (cfg.stagingBase + ·))) :
    StoreInv cfg K leaked reserved { s with mem := mem } :=
  ⟨h.cpuSlots, h.gpu_cpuSlot, h.stagingSlots, h.lru_iff,
    fun ref loc c hget hne hc => hmem ref loc c hget hne hc (h.backed ref loc c hget hne hc)⟩

theorem storeInto (h : StoreInv cfg K leaked reserved s) (pages : List Nat) {slots : List Nat}
    (hslots : ∀ c ∈ slots, c ∈ leaked) : StoreInv cfg K leaked reserved { s with mem := dev.store s.mem pages slots } :=
  h.remember _ fun _ _ _ hget hne hc =>
    K.holds_store _ _ _ _ _ _ fun hmem => h.not_mem_leaked hget hne hc (hslots _ hmem)

theorem storeTornInto (h : StoreInv cfg K leaked reserved s) (torn : φ) (pages : List Nat) {slots : List Nat}
    (hslots : ∀ c ∈ slots, c ∈ leaked) :
    StoreInv cfg K leaked reserved { s with mem := dev.storeTorn torn s.mem pages slots } :=
  h.remember _ fun _ _ _ hget hne hc =>
    K.holds_storeTorn _ _ _ _ _ _ _ fun hmem => h.not_mem_leaked hget hne hc (hslots _ hmem)

/-- The page of a staged block is not among the pages of slots in hand. -/
theorem page_not_mem (h : StoreInv cfg K leaked reserved s) {slots : List Nat} (hslots : ∀ x ∈ slots, x ∈ reserved)
    (hget : s.residency.get ref = some loc) :
    ∀ p ∈ loc.stagingSlot.map (cfg.stagingBase + ·), p ∉ slots.map (cfg.stagingBase + ·) := by
  intro p hp hmem
  obtain ⟨slot, hslot, rfl⟩ := Option.map_eq_some_iff.mp hp
  obtain ⟨slot', hslot', heq⟩ := List.mem_map.mp hmem
  obtain rfl : slot' = slot := by omega
  have hstaging : loc.residency = .staging :=
    (s.residency.wellFormed ref loc hget).stagingSlot_isSome.mp (by rw [hslot]; rfl)
  exact h.not_mem_reserved ((h.lru_iff ref slot').mpr ⟨loc, hget, hstaging, hslot⟩) (hslots slot' hslot')

theorem fetchInto (h : StoreInv cfg K leaked reserved s) (cpuSlots : List Nat) {slots : List Nat}
    (hslots : ∀ x ∈ slots, x ∈ reserved) :
    StoreInv cfg K leaked reserved
      { s with mem := dev.fetch s.mem cpuSlots (slots.map (cfg.stagingBase + ·)) } :=
  h.remember _ fun _ _ _ hget _ _ => K.holds_fetch _ _ _ _ _ _ (h.page_not_mem hslots hget)

theorem fetchTornInto (h : StoreInv cfg K leaked reserved s) (torn : φ) (cpuSlots : List Nat) {slots : List Nat}
    (hslots : ∀ x ∈ slots, x ∈ reserved) :
    StoreInv cfg K leaked reserved
      { s with mem := dev.fetchTorn torn s.mem cpuSlots (slots.map (cfg.stagingBase + ·)) } :=
  h.remember _ fun _ _ _ hget _ _ => K.holds_fetchTorn _ _ _ _ _ _ _ (h.page_not_mem hslots hget)

theorem takeCpu (h : StoreInv cfg K leaked reserved s) (n : Nat) :
    StoreInv cfg K ((s.cpuFree.take n : Multiset Nat) + leaked) reserved { s with cpuFree := s.cpuFree.drop n } := by
  refine ⟨Eq.trans ?_ h.cpuSlots, h.gpu_cpuSlot, h.stagingSlots, h.lru_iff, h.backed⟩
  have hfree : (s.cpuFree : Multiset Nat) = (s.cpuFree.take n : Multiset Nat) + (s.cpuFree.drop n : Multiset Nat) := by
    rw [Multiset.coe_add, List.take_append_drop]
  rw [hfree]
  abel

theorem returnCpu {slots : List Nat} (h : StoreInv cfg K ((slots : Multiset Nat) + leaked) reserved s) :
    StoreInv cfg K leaked reserved { s with cpuFree := slots.reverse ++ s.cpuFree } := by
  refine ⟨Eq.trans ?_ h.cpuSlots, h.gpu_cpuSlot, h.stagingSlots, h.lru_iff, h.backed⟩
  rw [← Multiset.coe_add, Multiset.coe_reverse]
  abel

theorem takeStaging {slot : Nat} {rest : List Nat} (h : StoreInv cfg K leaked reserved s)
    (hfree : s.stagingFree = slot :: rest) :
    StoreInv cfg K leaked (slot ::ₘ reserved) { s with stagingFree := rest } := by
  refine ⟨h.cpuSlots, h.gpu_cpuSlot, Eq.trans ?_ h.stagingSlots, h.lru_iff, h.backed⟩
  rw [hfree, ← Multiset.cons_coe, Multiset.cons_add, Multiset.cons_add, Multiset.add_cons]

theorem returnStaging {slots : List Nat} (h : StoreInv cfg K leaked ((slots : Multiset Nat) + reserved) s) :
    StoreInv cfg K leaked reserved { s with stagingFree := slots.reverse ++ s.stagingFree } := by
  refine ⟨h.cpuSlots, h.gpu_cpuSlot, Eq.trans ?_ h.stagingSlots, h.lru_iff, h.backed⟩
  rw [← Multiset.coe_add, Multiset.coe_reverse]
  abel

end StoreInv

end KVOffload

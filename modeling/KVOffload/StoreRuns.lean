import KVOffload.StoreBacking

/-! What each operation of the store does: it keeps the invariant whether it returns or raises, and
it changes the residency table only in the way its contract says. -/

namespace KVOffload
open Base

variable {μ φ ν σ S : Type} [LinearOrder S]

section

variable (cfg : OrchestratorConfig) {dev : Device μ φ ν S} (K : Backing dev)

/-- The invariant between operations. CPU slots are lost only to faults outside the guarded copy. -/
def StoreOk (s : Store μ σ) : Prop :=
  ∃ leaked, (dev.FaultsGuarded → leaked = 0) ∧ StoreInv cfg K leaked 0 s

theorem storeOk_init (scorer : σ) (mem : μ) : StoreOk cfg K (Store.init cfg scorer mem) := by
  refine ⟨0, fun _ => rfl, ?_, ?_, ?_, ?_, ?_⟩
  · exact (add_zero _).trans (add_zero _)
  · intro ref loc hget
    cases hget
  · exact (add_zero _).trans (add_zero _)
  · intro ref slot
    constructor
    · intro h
      cases h
    · rintro ⟨loc, hget, -⟩
      cases hget
  · intro ref loc c hget
    cases hget

end

/-- The blocks `out` went from complete GPU pages to CPU slots and nothing else changed. -/
structure Offloaded (t t' : ResidencyTable) (out : List BlockRef) : Prop where
  moved : ∀ ref ∈ out, ∃ loc c, t.get ref = some loc ∧ loc.residency = .gpu ∧
    t'.get ref = some { residency := .cpu, gpuBlockId := loc.gpuBlockId, cpuSlot := some c, complete := loc.complete }
  kept : ∀ ref, ref ∉ out → t'.get ref = t.get ref

theorem Offloaded.refl (t : ResidencyTable) : Offloaded t t [] := ⟨by simp, fun _ _ => rfl⟩

/-- What an offload leaves alone. -/
structure OffloadFrame (scorer : BlockScorer σ ν S) (s s' : Store μ σ) : Prop where
  lru : s'.lru = s.lru
  stagingFree : s'.stagingFree = s.stagingFree
  known : scorer.known s'.scorer = scorer.known s.scorer

section Offload

variable {cfg : OrchestratorConfig} {dev : Device μ φ ν S} {K : Backing dev} {s : Store μ σ}

theorem gpuPage_eq_some {t : ResidencyTable} {ref : BlockRef} {page : Nat} :
    gpuPage t ref = some page ↔ ∃ loc, t.get ref = some loc ∧ loc.residency = .gpu ∧ loc.gpuBlockId = some page := by
  unfold gpuPage
  cases t.get ref with
  | none => simp
  | some loc => by_cases h : loc.residency = .gpu <;> simp [h]

theorem isGpuComplete_iff {t : ResidencyTable} {ref : BlockRef} :
    isGpuComplete t ref = true ↔ ∃ loc, t.get ref = some loc ∧ loc.residency = .gpu ∧ loc.complete = true := by
  unfold isGpuComplete
  cases t.get ref <;> simp

/-- Only the CPU free list, the memory and the call counter may have changed. -/
structure Unmoved (s s' : Store μ σ) : Prop where
  residency : s'.residency = s.residency
  lru : s'.lru = s.lru
  stagingFree : s'.stagingFree = s.stagingFree
  scorer : s'.scorer = s.scorer

/-- The batched copy: on return the slots are in hand and hold the pages, on raise nothing moved. -/
theorem wp_copyGpuToCpuBatch {leaked : Multiset Nat} (hguard : dev.FaultsGuarded → leaked = 0)
    (h : StoreInv cfg K leaked 0 s) (pages : List Nat) :
    Eff.wp (copyGpuToCpuBatch dev pages)
      (fun r s' => pages.length ≤ s.cpuFree.length ∧ r.1.length = pages.length ∧ (dev.FaultsGuarded → r.2 = false) ∧
        StoreInv cfg K ((r.1 : Multiset Nat) + leaked) 0 s' ∧
        s' = { s with cpuFree := s.cpuFree.drop pages.length, mem := dev.store s.mem pages r.1, tick := s.tick + 1 })
      (fun _ s' => StoreOk cfg K s' ∧ Unmoved s s') s := by
  unfold Eff.wp copyGpuToCpuBatch
  by_cases hempty : pages.length = 0
  · simp only [hempty, if_true]
    exact ⟨⟨leaked, hguard, h⟩, ⟨rfl, rfl, rfl, rfl⟩⟩
  by_cases hfree : s.cpuFree.length < pages.length
  · simp only [hempty, if_false, hfree, if_true]
    exact ⟨⟨leaked, hguard, h⟩, ⟨rfl, rfl, rfl, rfl⟩⟩
  have hlen : (s.cpuFree.take pages.length).length = pages.length := by
    rw [List.length_take]
    omega
  have htaken := h.takeCpu pages.length
  have hmem : ∀ c ∈ s.cpuFree.take pages.length, c ∈ (s.cpuFree.take pages.length : Multiset Nat) + leaked :=
    fun c hc => Multiset.mem_add.mpr (Or.inl (Multiset.mem_coe.mpr hc))
  simp only [hempty, if_false, hfree]
  cases hfault : dev.storeFault s.tick with
  | none => exact ⟨not_lt.mp hfree, hlen, fun _ => rfl, (htaken.storeInto pages hmem).rescore _ _, rfl⟩
  | some fault =>
      cases fault with
      | indexTensors =>
          exact ⟨⟨_, fun hg => absurd hfault (hg s.tick).1, htaken.rescore _ _⟩, ⟨rfl, rfl, rfl, rfl⟩⟩
      | copy torn =>
          exact ⟨⟨leaked, hguard, ((htaken.storeTornInto torn pages hmem).returnCpu).rescore _ _⟩,
            ⟨rfl, rfl, rfl, rfl⟩⟩
      | event =>
          exact ⟨not_lt.mp hfree, hlen, fun hg => absurd hfault (hg s.tick).2,
            (htaken.storeInto pages hmem).rescore _ _, rfl⟩

theorem wp_onTable {f : ResidencyTable → Except PyError ResidencyTable} {t : ResidencyTable}
    (hf : f s.residency = .ok t) {Q : Unit → Store μ σ → Prop} {E : PyError → Store μ σ → Prop}
    (hQ : Q () { s with residency := t }) : Eff.wp (onTable f) Q E s := by
  unfold Eff.wp onTable
  rw [hf]
  exact hQ

/-- The publishing loop after a finished copy cannot fail: every block is still on the GPU. -/
theorem wp_publishCpu {leaked : Multiset Nat} (pairs : List (BlockRef × Nat)) (hnodup : (pairs.map Prod.fst).Nodup)
    (h : StoreInv cfg K ((pairs.map Prod.snd : Multiset Nat) + leaked) 0 s)
    (hgpu : ∀ e ∈ pairs, ∃ loc, s.residency.get e.1 = some loc ∧ loc.residency = .gpu)
    (hholds : ∀ e ∈ pairs, K.holds s.mem e.1 e.2 none) :
    Eff.wp (Eff.forEach pairs fun e => markCpu e.1 e.2)
      (fun _ s' => StoreInv cfg K leaked 0 s' ∧ Offloaded s.residency s'.residency (pairs.map Prod.fst) ∧
        s' = { s with residency := s'.residency })
      (fun _ _ => False) s := by
  induction pairs generalizing s with
  | nil => exact ⟨by simpa using h, Offloaded.refl _, rfl⟩
  | cons e rest ih =>
      rw [List.map_cons, List.nodup_cons] at hnodup
      obtain ⟨old, hold, hres⟩ := hgpu e List.mem_cons_self
      obtain ⟨t, ht, hmoved⟩ := ResidencyTable.markCpu_of_get hold e.2
      have hget := hmoved.get
      rw [Eff.forEach, Eff.wp_bind]
      refine wp_onTable ht ?_
      have hpublished : StoreInv cfg K ((rest.map Prod.snd : Multiset Nat) + leaked) 0 { s with residency := t } := by
        refine StoreInv.publishCpu e.2 ?_ hold hres hmoved (hholds e List.mem_cons_self)
        rwa [List.map_cons, ← Multiset.cons_coe, Multiset.cons_add] at h
      have hrest : ∀ x ∈ rest, x.1 ≠ e.1 := fun x hx heq => hnodup.1 (heq ▸ List.mem_map_of_mem hx)
      refine Eff.wp_mono (ih hnodup.2 hpublished (fun x hx => ?_) fun x hx => hholds x (List.mem_cons_of_mem e hx))
        (fun _ s' hs' => ⟨hs'.1, ⟨fun ref href => ?_, fun ref href => ?_⟩, hs'.2.2⟩) (fun _ _ hfalse => hfalse)
      · obtain ⟨loc, hloc, hlocres⟩ := hgpu x (List.mem_cons_of_mem e hx)
        exact ⟨loc, (hget x.1).trans ((if_neg (hrest x hx)).trans hloc), hlocres⟩
      · obtain ⟨-, hoff, -⟩ := hs'
        rcases List.mem_cons.mp href with rfl | href
        · refine ⟨old, e.2, hold, hres, ?_⟩
          rw [hoff.kept e.1 hnodup.1]
          exact (hget e.1).trans (if_pos rfl)
        · obtain ⟨loc, c, hloc, hlocres, hmoved'⟩ := hoff.moved ref href
          have hne : ref ≠ e.1 := fun heq => hnodup.1 (heq ▸ href)
          exact ⟨loc, c, ((hget ref).trans (if_neg hne)).symm.trans hloc, hlocres, hmoved'⟩
      · rw [List.map_cons, List.mem_cons, not_or] at href
        rw [hs'.2.1.kept ref href.2]
        exact (hget ref).trans (if_neg href.1)

theorem wp_copyAndPublish (h : StoreOk cfg K s) (live : List (BlockRef × Nat)) (hnodup : (live.map Prod.fst).Nodup)
    (hlive : ∀ e ∈ live, gpuPage s.residency e.1 = some e.2) (hsource : ∀ e ∈ live, K.source s.mem e.1 e.2) :
    Eff.wp (copyAndPublish dev live)
      (fun out s' => out = live.map Prod.fst ∧ StoreOk cfg K s' ∧ Offloaded s.residency s'.residency out ∧
        out.length ≤ s.cpuFree.length ∧ s'.cpuFree = s.cpuFree.drop out.length ∧
        s'.lru = s.lru ∧ s'.stagingFree = s.stagingFree ∧ s'.scorer = s.scorer)
      (fun _ s' => StoreOk cfg K s' ∧ Unmoved s s') s := by
  obtain ⟨leaked, hguard, hinv⟩ := h
  rw [copyAndPublish, Eff.wp_bind]
  refine Eff.wp_mono (wp_copyGpuToCpuBatch hguard hinv (live.map Prod.snd)) ?_ (fun _ _ hE => hE)
  rintro ⟨slots, eventRaises⟩ s₁ ⟨hfree, hlen, hevent, hinv₁, hs₁⟩
  rw [List.length_map] at hfree hlen
  cases eventRaises with
  | true =>
      -- The copy finished but its event raises: the slots are lost.
      refine ⟨⟨_, fun hg => absurd (hevent hg) (by simp), hinv₁⟩, ?_⟩
      rw [hs₁]
      exact ⟨rfl, rfl, rfl, rfl⟩
  | false =>
      have hfst : (((live.map Prod.fst).zip slots).map Prod.fst) = live.map Prod.fst :=
        List.map_fst_zip (by rw [List.length_map, hlen])
      have hsnd : (((live.map Prod.fst).zip slots).map Prod.snd) = slots :=
        List.map_snd_zip (by rw [List.length_map, hlen])
      have hslots : slots.Nodup := by
        have hn := (Multiset.nodup_add.mp hinv₁.cpu_nodup).2.1
        exact Multiset.coe_nodup.mp (Multiset.nodup_add.mp hn).1
      have hpages : ∀ e ∈ (live.map Prod.fst).zip slots, ∃ page, (e.1, page) ∈ live ∧
          (page, e.2) ∈ (live.map Prod.snd).zip slots := by
        intro e he
        obtain ⟨i, hi, rfl⟩ := List.mem_iff_getElem.mp he
        rw [List.length_zip, List.length_map, hlen, min_self] at hi
        refine ⟨live[i].2, ?_, ?_⟩
        · rw [List.getElem_zip, List.getElem_map]
          exact List.getElem_mem hi
        · rw [List.mem_iff_getElem]
          refine ⟨i, by rw [List.length_zip, List.length_map, hlen, min_self]; exact hi, ?_⟩
          rw [List.getElem_zip, List.getElem_zip, List.getElem_map]
      change Eff.wp (Eff.forEach ((live.map Prod.fst).zip slots) _ >>= fun _ => pure (live.map Prod.fst)) _ _ s₁
      rw [Eff.wp_bind]
      refine Eff.wp_mono (wp_publishCpu ((live.map Prod.fst).zip slots) (by rwa [hfst]) (by rwa [hsnd])
        (fun e he => ?_) fun e he => ?_) ?_ (fun _ _ hfalse => hfalse.elim)
      · obtain ⟨page, hmem, -⟩ := hpages e he
        obtain ⟨loc, hloc, hres, -⟩ := gpuPage_eq_some.mp (hlive _ hmem)
        exact ⟨loc, by rw [hs₁]; exact hloc, hres⟩
      · obtain ⟨page, hmem, hzip⟩ := hpages e he
        rw [hs₁]
        exact K.holds_of_store _ _ _ _ _ _ hslots hzip (hsource _ hmem)
      · rintro - s' ⟨hinv', hoff, hs'⟩
        rw [hfst] at hoff
        rw [hs₁] at hs' hoff
        refine ⟨rfl, ⟨leaked, hguard, hinv'⟩, hoff, by rwa [List.length_map], ?_, ?_, ?_, ?_⟩
        · rw [hs', List.length_map, List.length_map]
        all_goals rw [hs']

theorem wp_selectForEviction (scorer : BlockScorer σ ν S) (refs : List BlockRef) (budget : Int)
    {Q : List BlockRef → Store μ σ → Prop} {E : PyError → Store μ σ → Prop}
    (hQ : ∀ out x, out.Subperm refs → (0 ≤ budget → budget ≤ refs.length → (out.length : Int) = refs.length - budget) →
      scorer.known x = scorer.known s.scorer → Q out { s with scorer := x })
    (hE : ∀ e x, (0 ≤ budget → ∃ ref ∈ refs, ¬scorer.known s.scorer ref) → scorer.known x = scorer.known s.scorer →
      E e { s with scorer := x }) :
    Eff.wp (selectForEviction scorer refs budget) Q E s := by
  unfold Eff.wp selectForEviction
  have hknown := scorer.known_select s.scorer refs budget
  cases hout : (scorer.selectForEviction s.scorer refs budget).1 with
  | ok out =>
      simp only [hout]
      exact hQ out _ (scorer.select_subperm _ _ _ _ hout)
        (fun hnonneg hle => scorer.select_length _ _ _ _ hnonneg hle hout) hknown
  | error e =>
      simp only [hout]
      refine hE e _ (fun hnonneg => ?_) hknown
      by_contra hall
      push Not at hall
      obtain ⟨out, hok⟩ := scorer.select_ok s.scorer refs budget hnonneg hall
      rw [hout] at hok
      cases hok

theorem mem_refsWithGpu {t : ResidencyTable} {refs : List BlockRef} {e : BlockRef × Nat} :
    e ∈ refsWithGpu t refs ↔ e.1 ∈ refs ∧ gpuPage t e.1 = some e.2 := by
  simp only [refsWithGpu, List.mem_filterMap, Option.map_eq_some_iff]
  constructor
  · rintro ⟨ref, href, page, hpage, rfl⟩
    exact ⟨href, hpage⟩
  · rintro ⟨href, hpage⟩
    exact ⟨e.1, href, e.2, hpage, rfl⟩

theorem map_fst_refsWithGpu (t : ResidencyTable) (refs : List BlockRef) :
    (refsWithGpu t refs).map Prod.fst = refs.filter fun ref => (gpuPage t ref).isSome := by
  induction refs with
  | nil => rfl
  | cons ref rest ih =>
      cases hpage : gpuPage t ref with
      | none =>
          rw [List.filter_cons_of_neg (by simp [hpage]), ← ih, refsWithGpu, List.filterMap_cons_none (by simp [hpage]),
            refsWithGpu]
      | some page =>
          rw [List.filter_cons_of_pos (by simp [hpage]), ← ih, refsWithGpu,
            List.filterMap_cons_some (b := (ref, page)) (by simp [hpage]), List.map_cons, refsWithGpu]

/-- A selection among complete GPU blocks loses nothing when it is reduced to the live ones. -/
theorem map_fst_refsWithGpu_of_complete {t : ResidencyTable} {refs : List BlockRef}
    (h : ∀ ref ∈ refs, isGpuComplete t ref = true) : (refsWithGpu t refs).map Prod.fst = refs := by
  rw [map_fst_refsWithGpu]
  refine List.filter_eq_self.mpr fun ref href => ?_
  obtain ⟨loc, hloc, hres, -⟩ := isGpuComplete_iff.mp (h ref href)
  obtain ⟨page, hpage⟩ := Option.isSome_iff_exists.mp (t.wellFormed ref loc hloc).gpuBlockId_isSome
  rw [gpuPage_eq_some.mpr ⟨loc, hloc, hres, hpage⟩]
  rfl

theorem refsWithGpu_ne_nil {t : ResidencyTable} {refs : List BlockRef} (h : ∀ ref ∈ refs, isGpuComplete t ref = true)
    (hne : refs ≠ []) : refsWithGpu t refs ≠ [] := by
  intro hnil
  have hfst := map_fst_refsWithGpu_of_complete h
  rw [hnil] at hfst
  exact hne hfst.symm

/-- The postcondition the two offload entry points share. -/
structure OffloadPost (cfg : OrchestratorConfig) {dev : Device μ φ ν S} (K : Backing dev) (scorer : BlockScorer σ ν S)
    (eligible : List BlockRef) (s : Store μ σ) (out : List BlockRef) (s' : Store μ σ) : Prop where
  ok : StoreOk cfg K s'
  table : Offloaded s.residency s'.residency out
  frame : OffloadFrame scorer s s'
  nodup : out.Nodup
  subset : out ⊆ eligible

theorem offloadPost_nil {scorer : BlockScorer σ ν S} {eligible : List BlockRef} {s' : Store μ σ} {x : σ}
    (hok : StoreOk cfg K s') (hun : Unmoved { s with scorer := x } s')
    (hknown : scorer.known x = scorer.known s.scorer) : OffloadPost cfg K scorer eligible s [] s' where
  ok := hok
  table := by rw [hun.residency]; exact Offloaded.refl _
  frame := ⟨hun.lru, hun.stagingFree, by rw [hun.scorer]; exact hknown⟩
  nodup := List.nodup_nil
  subset := List.nil_subset _

theorem StoreOk.rescore (h : StoreOk cfg K s) (x : σ) (tick : Nat) :
    StoreOk cfg K { s with scorer := x, tick := tick } := by
  obtain ⟨leaked, hguard, hinv⟩ := h
  exact ⟨leaked, hguard, hinv.rescore x tick⟩

/-- The copying half of both entry points, on a selection of complete GPU blocks. -/
theorem wp_copySelected (scorer : BlockScorer σ ν S) (h : StoreOk cfg K s) {eligible selected : List BlockRef} {x : σ}
    (hknown : scorer.known x = scorer.known s.scorer) (hnodup : eligible.Nodup)
    (hcomplete : ∀ ref ∈ eligible, isGpuComplete s.residency ref = true) (hsub : selected.Subperm eligible)
    (hsource : ∀ ref page, gpuPage s.residency ref = some page → K.source s.mem ref page) :
    Eff.wp (copyAndPublish dev (refsWithGpu s.residency selected))
      (fun out s' => OffloadPost cfg K scorer eligible s out s' ∧ out = selected ∧ out.length ≤ s.cpuFree.length)
      (fun _ s' => OffloadPost cfg K scorer eligible s [] s') { s with scorer := x } := by
  have hfst : (refsWithGpu s.residency selected).map Prod.fst = selected :=
    map_fst_refsWithGpu_of_complete fun ref href => hcomplete ref (hsub.subset href)
  have hlive : ∀ e ∈ refsWithGpu s.residency selected, gpuPage s.residency e.1 = some e.2 :=
    fun e he => (mem_refsWithGpu.mp he).2
  have hselected : selected.Nodup := nodup_of_subperm hsub hnodup
  refine Eff.wp_mono (wp_copyAndPublish (h.rescore x _) _ (by rwa [hfst]) hlive fun e he => hsource _ _ (hlive e he))
    ?_ fun _ s' hE => offloadPost_nil hE.1 hE.2 hknown
  rintro out s' ⟨rfl, hok, htable, hlen, -, hlru, hstaging, hscorer⟩
  rw [hfst] at htable hlen ⊢
  exact ⟨⟨hok, htable, ⟨hlru, hstaging, by rw [hscorer]; exact hknown⟩, hselected, hsub.subset⟩, rfl, hlen⟩

theorem numToOffload_le {m : Nat} {fraction : ℚ} (hm : 0 < m) (hfraction : fraction < 1) :
    numToOffload m fraction ≤ m := by
  have hfloor : ⌊(m : ℚ) * fraction + 1 / 2⌋ < (m : Int) + 1 := by
    rw [Int.floor_lt]
    have hmul : (m : ℚ) * fraction ≤ m := mul_le_of_le_one_right (by positivity) hfraction.le
    push_cast
    linarith
  rw [numToOffload]
  omega

theorem scoredCandidates_nodup {t : ResidencyTable} {candidates : List BlockRef} (hnodup : candidates.Nodup)
    (scoredBlocks : Finset BlockRef) : (scoredCandidates t candidates scoredBlocks).Nodup :=
  hnodup.sublist List.filter_sublist

theorem isGpuComplete_of_mem_scoredCandidates {t : ResidencyTable} {candidates : List BlockRef}
    {scoredBlocks : Finset BlockRef} :
    ∀ ref ∈ scoredCandidates t candidates scoredBlocks, isGpuComplete t ref = true := by
  intro ref href
  have h := (List.mem_filter.mp href).2
  exact (Bool.and_eq_true_iff.mp h).2

/-- `offload_fraction` keeps the invariant, moves complete GPU blocks only, and moves either none or
the whole share; it raises only on a bad fraction or an unscored candidate. -/
theorem wp_offloadFraction (scorer : BlockScorer σ ν S) (h : StoreOk cfg K s) {candidates : List BlockRef}
    (hnodup : candidates.Nodup) (fraction : ℚ) (scoredBlocks : Finset BlockRef)
    (hsource : ∀ ref page, gpuPage s.residency ref = some page → K.source s.mem ref page) :
    Eff.wp (offloadFraction dev scorer candidates fraction scoredBlocks)
      (fun out s' =>
        OffloadPost cfg K scorer (scoredCandidates s.residency candidates scoredBlocks) s out s' ∧
        (out = [] ∨ out.length ≤ s.cpuFree.length ∧
          out.length = numToOffload (scoredCandidates s.residency candidates scoredBlocks).length fraction))
      (fun _ s' =>
        OffloadPost cfg K scorer (scoredCandidates s.residency candidates scoredBlocks) s [] s' ∧
        (0 ≤ fraction ∧ fraction < 1 →
          ∃ ref ∈ scoredCandidates s.residency candidates scoredBlocks, ¬scorer.known s.scorer ref)) s := by
  have hnil : OffloadPost cfg K scorer (scoredCandidates s.residency candidates scoredBlocks) s [] s :=
    offloadPost_nil (x := s.scorer) h ⟨rfl, rfl, rfl, rfl⟩ rfl
  unfold offloadFraction
  rw [Eff.wp_ite]
  refine ⟨fun hbad => ⟨hnil, fun hgood => absurd hgood hbad⟩, fun hgood => ?_⟩
  rw [not_not] at hgood
  rw [Eff.wp_bind, Eff.wp_read, Eff.wp_ite]
  refine ⟨fun _ => ⟨hnil, Or.inl rfl⟩, fun hne => ?_⟩
  have hle := numToOffload_le (Nat.pos_of_ne_zero hne) hgood.2
  rw [Eff.wp_bind]
  refine wp_selectForEviction scorer _ _ (fun selected x hsub hlen hknown => ?_) fun e x hunknown hknown => ?_
  · rw [Eff.wp_bind, Eff.wp_read, Eff.wp_ite]
    refine ⟨fun _ => ⟨offloadPost_nil (h.rescore x _) ⟨rfl, rfl, rfl, rfl⟩ hknown, Or.inl rfl⟩, fun _ => ?_⟩
    rw [Eff.wp_attempt]
    refine Eff.wp_mono (wp_copySelected scorer h hknown (scoredCandidates_nodup hnodup scoredBlocks)
      isGpuComplete_of_mem_scoredCandidates hsub hsource) ?_ fun _ s' hpost => ⟨hpost, Or.inl rfl⟩
    rintro out s' ⟨hpost, rfl, hfree⟩
    refine ⟨hpost, Or.inr ⟨hfree, ?_⟩⟩
    have := hlen (by omega) (by omega)
    omega
  · exact ⟨offloadPost_nil (h.rescore x _) ⟨rfl, rfl, rfl, rfl⟩ hknown, fun _ => hunknown (by omega)⟩

theorem wp_maybeOffload (scorer : BlockScorer σ ν S) (h : StoreOk cfg K s) {candidates : List BlockRef}
    (hnodup : candidates.Nodup)
    (hsource : ∀ ref page, gpuPage s.residency ref = some page → K.source s.mem ref page) :
    Eff.wp (maybeOffload cfg dev scorer candidates)
      (fun out s' => OffloadPost cfg K scorer (candidates.filter fun ref => isGpuComplete s.residency ref) s out s')
      (fun _ s' => OffloadPost cfg K scorer (candidates.filter fun ref => isGpuComplete s.residency ref) s [] s')
        s := by
  unfold maybeOffload
  rw [Eff.wp_bind, Eff.wp_read, Eff.wp_ite]
  refine ⟨fun _ => offloadPost_nil (x := s.scorer) h ⟨rfl, rfl, rfl, rfl⟩ rfl, fun _ => ?_⟩
  rw [Eff.wp_bind]
  refine wp_selectForEviction scorer _ _ (fun selected x hsub _ hknown => ?_) fun e x _ hknown => ?_
  · rw [Eff.wp_bind, Eff.wp_read, Eff.wp_ite]
    refine ⟨fun _ => offloadPost_nil (h.rescore x _) ⟨rfl, rfl, rfl, rfl⟩ hknown, fun _ => ?_⟩
    exact Eff.wp_mono (wp_copySelected scorer h hknown (hnodup.sublist List.filter_sublist)
      (fun ref href => (List.mem_filter.mp href).2) hsub hsource) (fun _ _ hpost => hpost.1) fun _ _ hpost => hpost
  · exact offloadPost_nil (h.rescore x _) ⟨rfl, rfl, rfl, rfl⟩ hknown

end Offload

end KVOffload

import KVOffload.OrchestratorModel
import KVOffload.StagingRuns

/-! What binding a request's blocks and completing its prefill do: which entries of the table change,
and which blocks enter the scored set and the scorer's registry. A failed scoring pass leaves the
table as a successful one does. -/

namespace KVOffload
open Base

variable {μ φ ν σ S : Type} [LinearOrder S]

section Sync

variable {cfg : OrchestratorConfig} {dev : Device μ φ ν S} {K : Backing dev} {scorer : BlockScorer σ ν S}

/-- The location `sync_request_blocks` leaves for a block listed with page `page`. -/
def syncedLocation (old : Option BlockLocation) (page : Nat) (complete : Bool) : BlockLocation :=
  match old with
  | none => { residency := .gpu, gpuBlockId := some page, complete := complete }
  | some old =>
      if old.residency = .gpu ∧ old.gpuBlockId ≠ some page then
        { residency := .gpu, gpuBlockId := some page, cpuSlot := old.cpuSlot, complete := complete }
      else { old with complete := old.complete || complete }

/-- Whether the fill state of a request makes its block `i` full. -/
def isFull (cfg : OrchestratorConfig) (numComputedTokens i : Nat) : Bool :=
  decide ((i + 1) * cfg.pageSize ≤ numComputedTokens)

/-- One entry of the table got location `loc`; nothing else changed. -/
structure EntrySet (cfg : OrchestratorConfig) {dev : Device μ φ ν S} (K : Backing dev) (ref : BlockRef)
    (loc : BlockLocation) (s s' : Store μ σ) : Prop where
  ok : StoreOk cfg K s'
  state : s' = { s with residency := s'.residency }
  get : ∀ ref', s'.residency.get ref' = if ref' = ref then some loc else s.residency.get ref'

theorem wp_markComplete {s : Store μ σ} (h : StoreOk cfg K s) {ref : BlockRef} {loc : BlockLocation}
    (hget : s.residency.get ref = some loc) :
    Eff.wp (markComplete ref) (fun _ s' => EntrySet cfg K ref { loc with complete := true } s s')
      (fun _ _ => False) s := by
  obtain ⟨leaked, hguard, hinv⟩ := h
  obtain ⟨t, ht, hmoved, -⟩ := ResidencyTable.markComplete_of_get hget
  exact wp_onTable ht ⟨⟨leaked, hguard, hinv.complete hget hmoved⟩, rfl, hmoved.get⟩

theorem entrySet_markGpu {s : Store μ σ} (h : StoreOk cfg K s) {ref : BlockRef}
    (hgpu : ∀ old, s.residency.get ref = some old → old.residency = .gpu) (page : Nat) (complete : Bool) :
    EntrySet cfg K ref { residency := .gpu, gpuBlockId := some page, cpuSlot := (s.residency.get ref).bind (·.cpuSlot),
                         complete := complete } s
      { s with residency := s.residency.markGpu ref page complete } := by
  obtain ⟨leaked, hguard, hinv⟩ := h
  exact ⟨⟨leaked, hguard, hinv.bind hgpu _ _⟩, rfl, fun ref' => s.residency.get_markGpu ref ref' page complete⟩

theorem wp_syncBlock {s : Store μ σ} (h : StoreOk cfg K s) (requestId : RequestId) (numComputedTokens page i : Nat) :
    Eff.wp (syncBlock cfg requestId numComputedTokens (page, i))
      (fun _ s' => EntrySet cfg K ⟨requestId, i⟩
        (syncedLocation (s.residency.get ⟨requestId, i⟩) page (isFull cfg numComputedTokens i)) s s')
      (fun _ _ => False) s := by
  rw [syncBlock, Eff.wp_bind, Eff.wp_read]
  cases hget : s.residency.get ⟨requestId, i⟩ with
  | none =>
      have hgpu : ∀ old, s.residency.get ⟨requestId, i⟩ = some old → old.residency = .gpu := by simp [hget]
      have hset := entrySet_markGpu h hgpu page (isFull cfg numComputedTokens i)
      rw [hget, Option.bind_none] at hset
      exact hset
  | some old =>
      by_cases hrebind : old.residency = .gpu ∧ old.gpuBlockId ≠ some page
      · have hgpu : ∀ old, s.residency.get ⟨requestId, i⟩ = some old → old.residency = .gpu := by
          simp [hget, hrebind.1]
        have hset := entrySet_markGpu h hgpu page (isFull cfg numComputedTokens i)
        rw [hget, Option.bind_some] at hset
        simp only [syncedLocation, if_pos hrebind]
        exact hset
      · simp only [syncedLocation, if_neg hrebind]
        by_cases hmark : (decide ((i + 1) * cfg.pageSize ≤ numComputedTokens) && !old.complete) = true
        · have hfull : isFull cfg numComputedTokens i = true := (Bool.and_eq_true_iff.mp hmark).1
          simp only [hmark, if_true, hfull, Bool.or_true]
          exact wp_markComplete h hget
        · have hsame : (old.complete || isFull cfg numComputedTokens i) = old.complete := by
            rw [isFull]
            cases hc : old.complete <;> simp_all
          simp only [hmark, hsame]
          refine ⟨h, rfl, fun ref' => ?_⟩
          by_cases heq : ref' = ⟨requestId, i⟩
          · rw [if_pos heq, heq, hget]
          · rw [if_neg heq]

theorem mem_blockRefs {requestId : RequestId} {n : Nat} {ref : BlockRef} :
    ref ∈ blockRefs requestId n ↔ ∃ i : Nat, i < n ∧ ref = ⟨requestId, i⟩ := by
  simp only [blockRefs, List.mem_map, List.mem_range, eq_comm]

/-- The request's current block list. -/
def listedBlocks (o : Orchestrator μ σ) (r : RequestId) : List BlockRef := (o.requestBlocks.get? r).getD []

theorem blockRefs_subset {r : RequestId} {m n : Nat} (hle : m ≤ n) : blockRefs r m ⊆ blockRefs r n := by
  intro ref href
  obtain ⟨i, hi, rfl⟩ := mem_blockRefs.mp href
  exact mem_blockRefs.mpr ⟨i, by omega, rfl⟩

/-- What the binding loop does to the table: every listed block is bound or refreshed. -/
structure Synced (cfg : OrchestratorConfig) (requestId : RequestId) (gpuBlockIds : List Nat) (numComputedTokens : Nat)
    (t t' : ResidencyTable) : Prop where
  listed : ∀ (i page : Nat), gpuBlockIds[i]? = some page →
    t'.get ⟨requestId, i⟩ = some (syncedLocation (t.get ⟨requestId, i⟩) page (isFull cfg numComputedTokens i))
  kept : ∀ ref, ref ∉ blockRefs requestId gpuBlockIds.length → t'.get ref = t.get ref

/-- The binding loop after the entries `done`. -/
structure SyncingBlocks (cfg : OrchestratorConfig) {dev : Device μ φ ν S} (K : Backing dev) (requestId : RequestId)
    (numComputedTokens : Nat) (o : Orchestrator μ σ) (done : List (Nat × Nat)) (o' : Orchestrator μ σ) : Prop where
  ok : StoreOk cfg K o'.store
  listed : ∀ e ∈ done, o'.store.residency.get ⟨requestId, e.2⟩ =
    some (syncedLocation (o.store.residency.get ⟨requestId, e.2⟩) e.1 (isFull cfg numComputedTokens e.2))
  kept : ∀ ref, (∀ e ∈ done, ref ≠ ⟨requestId, e.2⟩) → o'.store.residency.get ref = o.store.residency.get ref
  state : o' = { o with store := { o.store with residency := o'.store.residency } }

theorem SyncingBlocks.concat {requestId : RequestId} {numComputedTokens : Nat} {o o₁ : Orchestrator μ σ}
    {done : List (Nat × Nat)} (h : SyncingBlocks cfg K requestId numComputedTokens o done o₁) {e : Nat × Nat}
    (hnew : ∀ x ∈ done, x.2 ≠ e.2) {s' : Store μ σ}
    (hset : EntrySet cfg K ⟨requestId, e.2⟩
      (syncedLocation (o₁.store.residency.get ⟨requestId, e.2⟩) e.1 (isFull cfg numComputedTokens e.2)) o₁.store s') :
    SyncingBlocks cfg K requestId numComputedTokens o (done ++ [e]) { o₁ with store := s' } := by
  have hfresh : ∀ x ∈ done, (⟨requestId, e.2⟩ : BlockRef) ≠ ⟨requestId, x.2⟩ := by
    intro x hx heq
    exact hnew x hx (Int.ofNat_inj.mp (BlockRef.mk.inj heq).2).symm
  refine ⟨hset.ok, fun x hx => ?_, fun ref href => ?_, ?_⟩
  · rcases List.mem_append.mp hx with hx | hx
    · rw [hset.get, if_neg (hfresh x hx).symm]
      exact h.listed x hx
    · rw [List.mem_singleton.mp hx, hset.get, if_pos rfl, h.kept _ hfresh]
  · rw [hset.get, if_neg (href e (List.mem_append_right _ (List.mem_singleton_self e)))]
    exact h.kept ref fun x hx => href x (List.mem_append_left _ hx)
  · rw [hset.state, h.state]

theorem SyncingBlocks.synced {requestId : RequestId} {numComputedTokens : Nat} {o o' : Orchestrator μ σ}
    {gpuBlockIds : List Nat} (h : SyncingBlocks cfg K requestId numComputedTokens o gpuBlockIds.zipIdx o') :
    Synced cfg requestId gpuBlockIds numComputedTokens o.store.residency o'.store.residency := by
  refine ⟨fun i page hi => h.listed (page, i) (List.mem_zipIdx_iff_getElem?.mpr hi), fun ref href => ?_⟩
  refine h.kept ref fun e he heq => href (mem_blockRefs.mpr ⟨e.2, ?_, heq⟩)
  exact (List.getElem?_eq_some_iff.mp (List.mem_zipIdx_iff_getElem?.mp he)).1

theorem wp_syncBlocks {o : Orchestrator μ σ} (h : StoreOk cfg K o.store) (requestId : RequestId)
    (gpuBlockIds : List Nat) (numComputedTokens : Nat) :
    Eff.wp (Eff.forEach gpuBlockIds.zipIdx fun e => onStore (syncBlock cfg requestId numComputedTokens e))
      (fun _ o' => SyncingBlocks cfg K requestId numComputedTokens o gpuBlockIds.zipIdx o')
      (fun _ _ => False) o := by
  have hnodup : (gpuBlockIds.zipIdx.map Prod.snd).Nodup := by
    rw [List.zipIdx_map_snd]
    exact List.nodup_range'
  refine Eff.wp_forEach_done (I := SyncingBlocks cfg K requestId numComputedTokens o)
    ⟨h, by simp, fun _ _ => rfl, rfl⟩ fun done e rest hsplit o₁ hdone => ?_
  rw [onStore, Eff.wp_zoom]
  refine Eff.wp_mono (wp_syncBlock hdone.ok requestId numComputedTokens e.1 e.2) (fun _ s' hset => ?_) fun _ _ h => h
  refine hdone.concat (fun x hx heq => ?_) hset
  rw [hsplit, List.map_append, List.map_cons, List.nodup_append] at hnodup
  exact hnodup.2.2 x.2 (List.mem_map_of_mem hx) e.2 List.mem_cons_self heq

end Sync

section Score

variable {cfg : OrchestratorConfig} {dev : Device μ φ ν S} {K : Backing dev} {scorer : BlockScorer σ ν S}

/-- A scoring pass over `refs` finished. -/
structure Rescored (dev : Device μ φ ν S) (scorer : BlockScorer σ ν S) (refs : List BlockRef) (s s' : Store μ σ) :
    Prop where
  state : s' = { s with scorer := s'.scorer, tick := s'.tick }
  steady : ∀ ref ∈ refs, isWarmup ref.requestId = false → dev.scoreFault s.tick = false
  known : ∀ ref, scorer.known s'.scorer ref =
    (scorer.known s.scorer ref || decide (ref ∈ refs ∧ isWarmup ref.requestId = false))

/-- A scoring pass failed in the device. -/
structure ScoreFailed (dev : Device μ φ ν S) (s s' : Store μ σ) : Prop where
  fault : dev.scoreFault s.tick = true
  state : s' = { s with tick := s.tick + 1 }

theorem mem_scoreItems {refs : List BlockRef} {pages : List Nat} (hlen : refs.length = pages.length) (ref : BlockRef) :
    ref ∈ ((refs.zip pages).filter fun e => !isWarmup e.1.requestId).map Prod.fst ↔
      ref ∈ refs ∧ isWarmup ref.requestId = false := by
  have hzip : (refs.zip pages).map Prod.fst = refs := List.map_fst_zip hlen.le
  constructor
  · intro hmem
    obtain ⟨e, he, rfl⟩ := List.mem_map.mp hmem
    obtain ⟨hzipped, hwarm⟩ := List.mem_filter.mp he
    exact ⟨hzip ▸ List.mem_map_of_mem hzipped, by simpa using hwarm⟩
  · rintro ⟨hmem, hwarm⟩
    rw [← hzip] at hmem
    obtain ⟨e, he, rfl⟩ := List.mem_map.mp hmem
    exact List.mem_map_of_mem (List.mem_filter.mpr ⟨he, by simpa using hwarm⟩)

theorem wp_scoreBlocks (dev : Device μ φ ν S) (scorer : BlockScorer σ ν S) {refs : List BlockRef} {pages : List Nat}
    (hlen : refs.length = pages.length) (s : Store μ σ) :
    Eff.wp (scoreBlocks dev scorer refs pages) (fun _ s' => Rescored dev scorer refs s s')
      (fun _ s' => ScoreFailed dev s s') s := by
  have hitems := mem_scoreItems hlen
  unfold Eff.wp scoreBlocks
  generalize ((refs.zip pages).filter fun e => !isWarmup e.1.requestId) = items at hitems ⊢
  by_cases hempty : items = []
  · simp only [hempty, if_true]
    have hnot : ∀ ref, ¬(ref ∈ refs ∧ isWarmup ref.requestId = false) := by
      intro ref
      rw [← hitems ref, hempty]
      exact List.not_mem_nil
    refine ⟨rfl, fun ref href hwarm => absurd ⟨href, hwarm⟩ (hnot ref), fun ref => ?_⟩
    rw [decide_eq_false (hnot ref), Bool.or_false]
  · by_cases hfault : dev.scoreFault s.tick = true
    · simp only [hempty, if_false, hfault, if_true]
      exact ⟨hfault, rfl⟩
    · simp only [hempty, if_false, hfault]
      refine ⟨rfl, fun _ _ _ => Bool.eq_false_of_not_eq_true hfault, fun ref => ?_⟩
      have hfst : (items.map fun e => (e.1, dev.stats s.mem e.2)).map Prod.fst = items.map Prod.fst := by
        rw [List.map_map]
        rfl
      change scorer.known (scorer.update s.scorer _) ref = _
      rw [scorer.known_update, hfst]
      congr 1
      exact decide_eq_decide.mpr (hitems ref)

/-- Scoring only adds blocks that satisfy `P` to the scored set and to the scorer's registry. -/
structure Registers (scorer : BlockScorer σ ν S) (P : BlockRef → Prop) (o o' : Orchestrator μ σ) : Prop where
  scored_mono : o.scored ⊆ o'.scored
  scored_new : ∀ ref ∈ o'.scored, ref ∈ o.scored ∨ P ref
  known_mono : ∀ ref, scorer.known o.store.scorer ref = true → scorer.known o'.store.scorer ref = true
  known_new : ∀ ref, scorer.known o'.store.scorer ref = true → scorer.known o.store.scorer ref = true ∨ P ref

/-- Every block that the pass added to the scored set is in the scorer's registry. -/
def Registered (scorer : BlockScorer σ ν S) (o o' : Orchestrator μ σ) : Prop :=
  ∀ ref ∈ o'.scored, ref ∈ o.scored ∨ scorer.known o'.store.scorer ref = true

/-- Scoring failed in the first action of the device after `s`, and no action followed before `s'`. -/
def ScoreStruck (dev : Device μ φ ν S) (s s' : Store μ σ) : Prop :=
  dev.scoreFault s.tick = true ∧ s'.tick = s.tick + 1

/-- The batch pass over the collected blocks, which the caller has put into the scored set. -/
structure ScorePost (dev : Device μ φ ν S) (scorer : BlockScorer σ ν S) (toScore : List (BlockRef × Nat))
    (o : Orchestrator μ σ) (failed : Prop) (o' : Orchestrator μ σ) : Prop where
  state : o' = { o with store := { o.store with scorer := o'.store.scorer, tick := o'.store.tick } }
  known_mono : ∀ ref, scorer.known o.store.scorer ref = true → scorer.known o'.store.scorer ref = true
  known_new : ∀ ref, scorer.known o'.store.scorer ref = true →
    scorer.known o.store.scorer ref = true ∨ ref ∈ toScore.map Prod.fst
  registered : ¬failed → ∀ ref ∈ toScore.map Prod.fst, isWarmup ref.requestId = false →
    scorer.known o'.store.scorer ref = true
  steady : ¬failed → ∀ ref ∈ toScore.map Prod.fst, isWarmup ref.requestId = false →
    dev.scoreFault o.store.tick = false
  scorer_failed : failed → o'.store.scorer = o.store.scorer
  fault : failed → ScoreStruck dev o.store o'.store

theorem wp_scoreCollected_store (dev : Device μ φ ν S) (scorer : BlockScorer σ ν S) (toScore : List (BlockRef × Nat))
    (o : Orchestrator μ σ) :
    Eff.wp (scoreCollected dev scorer toScore)
      (fun _ o' => ∃ s', o' = { o with store := s' } ∧ Rescored dev scorer (toScore.map Prod.fst) o.store s')
      (fun _ o' => ∃ s', o' = { o with store := s' } ∧ ScoreFailed dev o.store s') o := by
  rw [scoreCollected, Eff.wp_ite]
  constructor
  · intro hempty
    exact ⟨o.store, rfl, rfl, by simp [hempty], by simp [hempty]⟩
  · intro _
    rw [onStore, Eff.wp_zoom]
    have hlen : (toScore.map Prod.fst).length = (toScore.map Prod.snd).length := by
      rw [List.length_map, List.length_map]
    exact Eff.wp_mono (wp_scoreBlocks dev scorer hlen o.store) (fun _ s' hs' => ⟨s', rfl, hs'⟩)
      fun _ s' hs' => ⟨s', rfl, hs'⟩

theorem wp_scoreCollected (dev : Device μ φ ν S) (scorer : BlockScorer σ ν S) (toScore : List (BlockRef × Nat))
    (o : Orchestrator μ σ) :
    Eff.wp (scoreCollected dev scorer toScore) (fun _ o' => ScorePost dev scorer toScore o False o')
      (fun _ o' => ScorePost dev scorer toScore o True o') o := by
  refine Eff.wp_mono (wp_scoreCollected_store dev scorer toScore o) ?_ ?_
  · rintro _ _ ⟨s', rfl, hs'⟩
    refine ⟨by rw [hs'.state], fun ref hknown => ?_, fun ref hknown => ?_, fun _ ref href hwarm => ?_,
      fun _ => hs'.steady, False.elim, False.elim⟩
    · exact (hs'.known ref).trans (by rw [hknown, Bool.true_or])
    · rw [show scorer.known _ ref = _ from hs'.known ref, Bool.or_eq_true, decide_eq_true_iff] at hknown
      exact hknown.imp_right And.left
    · exact (hs'.known ref).trans (by rw [decide_eq_true ⟨href, hwarm⟩, Bool.or_true])
  · rintro _ _ ⟨s', rfl, hs'⟩
    refine ⟨by rw [hs'.state], fun ref hknown => ?_, fun ref hknown => ?_, fun h => absurd True.intro h,
      fun h => absurd True.intro h, fun _ => by rw [hs'.state], fun _ => ⟨hs'.fault, by rw [hs'.state]⟩⟩
    · rw [hs'.state]
      exact hknown
    · rw [hs'.state] at hknown
      exact Or.inl hknown

/-- Re-marking complete blocks is a no-op. -/
theorem wp_remarkComplete {o : Orchestrator μ σ} {refs : List BlockRef}
    (hcomplete : ∀ ref ∈ refs, ∃ loc, o.store.residency.get ref = some loc ∧ loc.complete = true) :
    Eff.wp (Eff.forEach refs fun ref => onStore (markComplete ref)) (fun _ o' => o' = o) (fun _ _ => False) o := by
  refine Eff.wp_forEach (I := fun o' => o' = o) rfl fun ref href o' ho' => ?_
  subst ho'
  obtain ⟨loc, hget, hdone⟩ := hcomplete ref href
  rw [onStore, Eff.wp_zoom]
  exact wp_onTable (ResidencyTable.markComplete_of_complete hget hdone) rfl

theorem mem_unscoredComplete {o : Orchestrator μ σ} {refs : List BlockRef} {ref : BlockRef} :
    ref ∈ (unscoredComplete o refs).map Prod.fst ↔
      ref ∈ refs ∧ isGpuComplete o.store.residency ref = true ∧ ref ∉ o.scored := by
  constructor
  · intro hmem
    obtain ⟨e, he, rfl⟩ := List.mem_map.mp hmem
    obtain ⟨hgpu, hfilter⟩ := List.mem_filter.mp he
    obtain ⟨hcomplete, hnot⟩ := Bool.and_eq_true_iff.mp hfilter
    exact ⟨(mem_refsWithGpu.mp hgpu).1, hcomplete, of_decide_eq_true hnot⟩
  · rintro ⟨hmem, hcomplete, hnot⟩
    obtain ⟨loc, hget, hres, -⟩ := isGpuComplete_iff.mp hcomplete
    obtain ⟨page, hpage⟩ := Option.isSome_iff_exists.mp (o.store.residency.wellFormed ref loc hget).gpuBlockId_isSome
    have hgpu : (ref, page) ∈ refsWithGpu o.store.residency refs :=
      mem_refsWithGpu.mpr ⟨hmem, gpuPage_eq_some.mpr ⟨loc, hget, hres, hpage⟩⟩
    refine List.mem_map.mpr ⟨(ref, page), List.mem_filter.mpr ⟨hgpu, ?_⟩, rfl⟩
    rw [hcomplete, decide_eq_true hnot]
    rfl

theorem complete_of_unscored {o : Orchestrator μ σ} {refs : List BlockRef} :
    ∀ ref ∈ (unscoredComplete o refs).map Prod.fst, ∃ loc, o.store.residency.get ref = some loc ∧
      loc.complete = true := by
  intro ref href
  obtain ⟨loc, hget, -, hdone⟩ := isGpuComplete_iff.mp (mem_unscoredComplete.mp href).2.1
  exact ⟨loc, hget, hdone⟩

/-- The scoring half of `sync_request_blocks`. -/
structure ScoreSynced (dev : Device μ φ ν S) (scorer : BlockScorer σ ν S) (refs : List BlockRef)
    (o : Orchestrator μ σ) (failed : Prop) (o' : Orchestrator μ σ) : Prop where
  state : o' = { o with scored := o'.scored,
                        store := { o.store with scorer := o'.store.scorer, tick := o'.store.tick } }
  scored : ∀ ref, ref ∈ o'.scored ↔ ref ∈ o.scored ∨ ref ∈ refs ∧ isGpuComplete o.store.residency ref = true
  registers : Registers scorer (· ∈ refs) o o'
  registered : ¬failed → (∀ ref ∈ refs, isWarmup ref.requestId = false) → Registered scorer o o'
  steady : ¬failed → ∀ ref ∈ o'.scored, ref ∉ o.scored → isWarmup ref.requestId = false →
    dev.scoreFault o.store.tick = false
  scorer_failed : failed → o'.store.scorer = o.store.scorer
  fault : failed → ScoreStruck dev o.store o'.store

theorem ScorePost.scoreSynced {o o' : Orchestrator μ σ} {refs refs' : List BlockRef} {failed : Prop}
    (hrefs : ∀ ref, ref ∈ refs' ↔ ref ∈ refs)
    (h : ScorePost dev scorer (unscoredComplete o refs')
      { o with scored := o.scored ∪ ((unscoredComplete o refs').map Prod.fst).toFinset } failed o') :
    ScoreSynced dev scorer refs o failed o' := by
  have hmem : ∀ ref, ref ∈ (unscoredComplete o refs').map Prod.fst ↔
      ref ∈ refs ∧ isGpuComplete o.store.residency ref = true ∧ ref ∉ o.scored := by
    intro ref
    rw [mem_unscoredComplete, hrefs]
  have hscored : ∀ ref, ref ∈ o'.scored ↔ ref ∈ o.scored ∨ ref ∈ (unscoredComplete o refs').map Prod.fst := by
    intro ref
    rw [h.state, Finset.mem_union, List.mem_toFinset]
  refine ⟨by rw [h.state], fun ref => ?_,
    ⟨fun ref href => (hscored ref).mpr (Or.inl href), fun ref href => ?_, h.known_mono,
    fun ref href => (h.known_new ref href).imp_right fun hnew => ((hmem ref).mp hnew).1⟩, fun hok hwarm ref href => ?_,
    fun hok ref href hnew => h.steady hok ref (((hscored ref).mp href).resolve_left hnew), h.scorer_failed, h.fault⟩
  · rw [hscored, hmem]
    by_cases hold : ref ∈ o.scored <;> simp [hold]
  · exact ((hscored ref).mp href).imp_right fun hnew => ((hmem ref).mp hnew).1
  · refine ((hscored ref).mp href).imp_right fun hnew => h.registered hok ref hnew (hwarm ref ?_)
    exact ((hmem ref).mp hnew).1

theorem wp_scoreSynced (dev : Device μ φ ν S) (scorer : BlockScorer σ ν S) (refs : List BlockRef) (prevCount : Nat)
    (o : Orchestrator μ σ) :
    Eff.wp (scoreSynced dev scorer refs prevCount) (fun _ o' => ScoreSynced dev scorer refs o False o')
      (fun _ o' => ScoreSynced dev scorer refs o True o') o := by
  have hrefs : ∀ ref, ref ∈ refs.drop prevCount ++ refs.take prevCount ↔ ref ∈ refs := by
    intro ref
    rw [List.mem_append, or_comm, ← List.mem_append, List.take_append_drop]
  rw [scoreSynced, Eff.wp_bind, Eff.wp_read, Eff.wp_bind, Eff.wp_modify, Eff.wp_bind]
  refine Eff.wp_mono (wp_remarkComplete complete_of_unscored) (fun _ o₁ ho₁ => ?_) fun _ _ hfalse => hfalse.elim
  subst ho₁
  exact Eff.wp_mono (wp_scoreCollected dev scorer _ _) (fun _ _ hpost => hpost.scoreSynced hrefs)
    fun _ _ hpost => hpost.scoreSynced hrefs

/-- `sync_request_blocks` of an ordinary request, up to the update of the request's block list. -/
structure SyncPost (cfg : OrchestratorConfig) {dev : Device μ φ ν S} (K : Backing dev) (scorer : BlockScorer σ ν S)
    (requestId : RequestId) (gpuBlockIds : List Nat) (numComputedTokens : Nat) (o : Orchestrator μ σ) (failed : Prop)
    (o' : Orchestrator μ σ) : Prop where
  ok : StoreOk cfg K o'.store
  table : Synced cfg requestId gpuBlockIds numComputedTokens o.store.residency o'.store.residency
  state : o' = { o with requestBlocks := o'.requestBlocks, scored := o'.scored,
                        store := { o.store with residency := o'.store.residency, scorer := o'.store.scorer,
                                                tick := o'.store.tick } }
  requestBlocks : ¬failed →
    o'.requestBlocks = o.requestBlocks.set requestId (blockRefs requestId gpuBlockIds.length)
  requestBlocks_failed : failed → o'.requestBlocks = o.requestBlocks
  scored : ∀ ref, ref ∈ o'.scored ↔
    ref ∈ o.scored ∨ ref ∈ blockRefs requestId gpuBlockIds.length ∧ isGpuComplete o'.store.residency ref = true
  registers : Registers scorer (· ∈ blockRefs requestId gpuBlockIds.length) o o'
  registered : ¬failed → Registered scorer o o'
  steady : ¬failed → ∀ ref ∈ o'.scored, ref ∉ o.scored → dev.scoreFault o.store.tick = false
  scorer_failed : failed → o'.store.scorer = o.store.scorer
  fault : failed → ScoreStruck dev o.store o'.store

theorem SyncingBlocks.syncPost {requestId : RequestId} {gpuBlockIds : List Nat} {numComputedTokens : Nat}
    {o o₁ o₂ : Orchestrator μ σ} {failed : Prop} (hwarm : isWarmup requestId = false)
    (h₁ : SyncingBlocks cfg K requestId numComputedTokens o gpuBlockIds.zipIdx o₁)
    (h₂ : ScoreSynced dev scorer (blockRefs requestId gpuBlockIds.length) o₁ failed o₂)
    (requestBlocks : OrderedDict RequestId (List BlockRef))
    (hset : ¬failed → requestBlocks = o.requestBlocks.set requestId (blockRefs requestId gpuBlockIds.length))
    (hsame : failed → requestBlocks = o.requestBlocks) :
    SyncPost cfg K scorer requestId gpuBlockIds numComputedTokens o failed
      { o₂ with requestBlocks := requestBlocks } := by
  have hwarms : ∀ ref ∈ blockRefs requestId gpuBlockIds.length, isWarmup ref.requestId = false := by
    intro ref href
    obtain ⟨i, -, rfl⟩ := mem_blockRefs.mp href
    exact hwarm
  have htable : o₂.store.residency = o₁.store.residency := by rw [h₂.state]
  have hscored : o₁.scored = o.scored := by rw [h₁.state]
  have hscorer : o₁.store.scorer = o.store.scorer := by rw [h₁.state]
  have htick : o₁.store.tick = o.store.tick := by rw [h₁.state]
  have hregisters := h₂.registers
  have hregistered := h₂.registered
  refine ⟨?_, ?_, ?_, hset, hsame, fun ref => ?_, ?_, fun hok => ?_, fun hok ref href hnew => ?_,
    fun hfailed => (h₂.scorer_failed hfailed).trans hscorer, fun hfailed => ?_⟩
  · rw [h₂.state]
    exact h₁.ok.rescore _ _
  · rw [htable]
    exact h₁.synced
  · rw [h₂.state, h₁.state]
  · rw [← hscored, htable]
    exact h₂.scored ref
  · obtain ⟨hmono, hnew, hknown, hknown'⟩ := hregisters
    rw [hscored] at hmono hnew
    rw [hscorer] at hknown hknown'
    exact ⟨hmono, hnew, hknown, hknown'⟩
  · intro ref href
    rw [← hscored]
    exact hregistered hok hwarms ref href
  · rw [← hscored] at hnew
    rw [← htick]
    refine h₂.steady hok ref href hnew (hwarms ref ?_)
    exact (((h₂.scored ref).mp href).resolve_left hnew).1
  · rw [ScoreStruck, ← htick]
    exact h₂.fault hfailed

theorem wp_syncRequestBlocks {o : Orchestrator μ σ} (h : StoreOk cfg K o.store) {requestId : RequestId}
    (hwarm : isWarmup requestId = false) (gpuBlockIds : List Nat) (numComputedTokens : Nat) :
    Eff.wp (syncRequestBlocks cfg dev scorer requestId gpuBlockIds numComputedTokens)
      (fun _ o' => SyncPost cfg K scorer requestId gpuBlockIds numComputedTokens o False o')
      (fun _ o' => SyncPost cfg K scorer requestId gpuBlockIds numComputedTokens o True o') o := by
  rw [syncRequestBlocks, if_neg (by rw [hwarm]; decide), Eff.wp_bind, Eff.wp_read, Eff.wp_bind]
  refine Eff.wp_mono (wp_syncBlocks h requestId gpuBlockIds numComputedTokens) (fun _ o₁ ho₁ => ?_)
    fun _ _ hfalse => hfalse.elim
  have hblocks : o₁.requestBlocks = o.requestBlocks := by rw [ho₁.state]
  rw [Eff.wp_bind]
  refine Eff.wp_mono (wp_scoreSynced dev scorer _ _ o₁) (fun _ o₂ ho₂ => ?_) fun _ o₂ ho₂ => ?_
  · have hblocks₂ : o₂.requestBlocks = o.requestBlocks := by rw [ho₂.state, hblocks]
    rw [Eff.wp_bind, Eff.wp_modify, Eff.wp_pure, hblocks₂]
    exact ho₁.syncPost hwarm ho₂ _ (fun _ => rfl) False.elim
  · have hblocks₂ : o₂.requestBlocks = o.requestBlocks := by rw [ho₂.state, hblocks]
    exact ho₁.syncPost hwarm ho₂ o₂.requestBlocks (fun hok => absurd True.intro hok) fun _ => hblocks₂

theorem syncRequestBlocks_of_warmup {requestId : RequestId} (hwarm : isWarmup requestId = true)
    (gpuBlockIds : List Nat) (numComputedTokens : Nat) (o : Orchestrator μ σ) :
    syncRequestBlocks cfg dev scorer requestId gpuBlockIds numComputedTokens o = (.ok [], o) := by
  rw [syncRequestBlocks, if_pos hwarm]
  rfl

end Score

section Graduate

variable {cfg : OrchestratorConfig} {dev : Device μ φ ν S} {K : Backing dev} {scorer : BlockScorer σ ν S}

/-- The block is full once `numComputedTokens` tokens are computed. -/
def Filled (cfg : OrchestratorConfig) (numComputedTokens : Nat) (ref : BlockRef) : Prop :=
  (ref.blockIdx + 1) * cfg.pageSize ≤ numComputedTokens

instance (cfg : OrchestratorConfig) (numComputedTokens : Nat) (ref : BlockRef) :
    Decidable (Filled cfg numComputedTokens ref) := inferInstanceAs (Decidable (_ ≤ _))

def BlockLocation.completeIf (loc : BlockLocation) (p : Prop) [Decidable p] : BlockLocation :=
  if p then { loc with complete := true } else loc

/-- The full blocks among `refs` became complete. -/
def Graduated (cfg : OrchestratorConfig) (numComputedTokens : Nat) (refs : List BlockRef) (t t' : ResidencyTable) :
    Prop :=
  ∀ ref, t'.get ref = (t.get ref).map fun loc => loc.completeIf (ref ∈ refs ∧ Filled cfg numComputedTokens ref)

theorem graduated_nil (numComputedTokens : Nat) (t : ResidencyTable) : Graduated cfg numComputedTokens [] t t := by
  intro ref
  cases hget : t.get ref <;> simp [BlockLocation.completeIf]

theorem Graduated.concat {numComputedTokens : Nat} {done : List BlockRef} {t t₁ t₂ : ResidencyTable} {ref : BlockRef}
    (h : Graduated cfg numComputedTokens done t t₁)
    (hget : ∀ ref', t₂.get ref' =
      if ref' = ref then (t₁.get ref).map fun loc => loc.completeIf (Filled cfg numComputedTokens ref)
      else t₁.get ref') :
    Graduated cfg numComputedTokens (done ++ [ref]) t t₂ := by
  intro ref'
  rw [hget ref', h ref]
  by_cases heq : ref' = ref
  · subst heq
    rw [if_pos rfl, Option.map_map]
    congr 1
    funext loc
    by_cases hfull : Filled cfg numComputedTokens ref' <;> by_cases hmem : ref' ∈ done <;>
      simp [BlockLocation.completeIf, hfull, hmem]
  · rw [if_neg heq, h ref']
    simp [heq]

/-- The block becomes complete on its GPU page and is not in the scored set yet. -/
def GraduationDue (cfg : OrchestratorConfig) (numComputedTokens : Nat) (o : Orchestrator μ σ) (ref : BlockRef) : Prop :=
  ref ∉ o.scored ∧ Filled cfg numComputedTokens ref ∧
    ∃ loc, o.store.residency.get ref = some loc ∧ loc.residency = .gpu ∧ loc.complete = false

/-- The graduation loop after the blocks `done`. -/
structure Graduating (cfg : OrchestratorConfig) {dev : Device μ φ ν S} (K : Backing dev) (numComputedTokens : Nat)
    (o : Orchestrator μ σ) (done : List BlockRef) (toScore : List (BlockRef × Nat)) (o' : Orchestrator μ σ) : Prop where
  ok : StoreOk cfg K o'.store
  table : Graduated cfg numComputedTokens done o.store.residency o'.store.residency
  state : o' = { o with scored := o'.scored, store := { o.store with residency := o'.store.residency } }
  scored : ∀ ref, ref ∈ o'.scored ↔ ref ∈ o.scored ∨ ref ∈ toScore.map Prod.fst
  toScore : ∀ ref, ref ∈ toScore.map Prod.fst ↔ ref ∈ done ∧ GraduationDue cfg numComputedTokens o ref

/-- A block the loop has not come to is as it was. -/
theorem Graduating.get_of_not_mem {numComputedTokens : Nat} {o o₁ : Orchestrator μ σ} {done : List BlockRef}
    {toScore : List (BlockRef × Nat)} (h : Graduating cfg K numComputedTokens o done toScore o₁) {ref : BlockRef}
    (hnew : ref ∉ done) : o₁.store.residency.get ref = o.store.residency.get ref := by
  rw [h.table ref]
  simp [BlockLocation.completeIf, hnew]

theorem Graduating.skip {numComputedTokens : Nat} {o o₁ : Orchestrator μ σ} {done : List BlockRef}
    {toScore : List (BlockRef × Nat)} (h : Graduating cfg K numComputedTokens o done toScore o₁) {ref : BlockRef}
    (hsame : ∀ loc, o₁.store.residency.get ref = some loc → Filled cfg numComputedTokens ref → loc.complete = true) :
    Graduating cfg K numComputedTokens o (done ++ [ref]) toScore o₁ := by
  refine ⟨h.ok, h.table.concat fun ref' => ?_, h.state, h.scored, fun ref' => ?_⟩
  · by_cases heq : ref' = ref
    · subst heq
      rw [if_pos rfl]
      cases hget : o₁.store.residency.get ref' with
      | none => rfl
      | some loc =>
          rw [Option.map_some, BlockLocation.completeIf]
          by_cases hfull : Filled cfg numComputedTokens ref'
          · rw [if_pos hfull, ← hsame loc hget hfull]
          · rw [if_neg hfull]
    · rw [if_neg heq]
  · rw [h.toScore, List.mem_append, List.mem_singleton]
    refine ⟨fun hmem => ⟨Or.inl hmem.1, hmem.2⟩, fun hmem => ⟨?_, hmem.2⟩⟩
    rcases hmem.1 with hold | rfl
    · exact hold
    · by_contra hnew
      obtain ⟨-, hfull, loc, hget, -, hopen⟩ := hmem.2
      have hcomplete := hsame loc ((h.get_of_not_mem hnew).trans hget) hfull
      rw [hopen] at hcomplete
      cases hcomplete

/-- The loop marks a block complete and collects it, or finds that it need not be scored. -/
theorem Graduating.mark {numComputedTokens : Nat} {o o₁ : Orchestrator μ σ} {done : List BlockRef}
    {toScore toScore' : List (BlockRef × Nat)} (h : Graduating cfg K numComputedTokens o done toScore o₁)
    {ref : BlockRef}
    {loc : BlockLocation} (hget : o₁.store.residency.get ref = some loc) (hfull : Filled cfg numComputedTokens ref)
    {s' : Store μ σ} (hset : EntrySet cfg K ref { loc with complete := true } o₁.store s') {scored' : Finset BlockRef}
    (hscored : ∀ x, x ∈ scored' ↔ x ∈ o.scored ∨ x ∈ toScore'.map Prod.fst)
    (htoScore : ∀ x, x ∈ toScore'.map Prod.fst ↔
      x ∈ toScore.map Prod.fst ∨ x = ref ∧ GraduationDue cfg numComputedTokens o ref) :
    Graduating cfg K numComputedTokens o (done ++ [ref]) toScore' { o₁ with store := s', scored := scored' } := by
  refine ⟨hset.ok, h.table.concat fun ref' => ?_, by rw [hset.state, h.state], hscored, fun x => ?_⟩
  · rw [hset.get, hget, Option.map_some, BlockLocation.completeIf, if_pos hfull]
  · rw [htoScore, h.toScore, List.mem_append, List.mem_singleton, or_and_right]
    refine or_congr_right (and_congr_right fun heq => ?_)
    rw [heq]

theorem wp_graduateBlock {numComputedTokens : Nat} {o o₁ : Orchestrator μ σ} {done : List BlockRef}
    {toScore : List (BlockRef × Nat)} (h : Graduating cfg K numComputedTokens o done toScore o₁) (ref : BlockRef) :
    Eff.wp (graduateBlock cfg numComputedTokens ref toScore)
      (fun toScore' o' => Graduating cfg K numComputedTokens o (done ++ [ref]) toScore' o')
      (fun _ _ => False) o₁ := by
  unfold Eff.wp graduateBlock
  cases hget : o₁.store.residency.get ref with
  | none => exact h.skip (by simp [hget])
  | some loc =>
      by_cases hskip : ¬(ref.blockIdx + 1) * cfg.pageSize ≤ numComputedTokens ∨ loc.complete
      · simp only [if_pos hskip]
        refine h.skip fun loc' hget' hfull => ?_
        obtain rfl : loc = loc' := Option.some.inj (hget.symm.trans hget')
        exact hskip.resolve_left (not_not_intro hfull)
      · obtain ⟨hfull, hopen⟩ : Filled cfg numComputedTokens ref ∧ loc.complete = false := by
          rwa [not_or, not_not, Bool.not_eq_true] at hskip
        have hnew : ref ∉ done := by
          intro hmem
          obtain ⟨old, -, hold⟩ := Option.map_eq_some_iff.mp ((h.table ref).symm.trans hget)
          rw [BlockLocation.completeIf, if_pos ⟨hmem, hfull⟩] at hold
          rw [← hold] at hopen
          cases hopen
        have hold : o.store.residency.get ref = some loc := (h.get_of_not_mem hnew).symm.trans hget
        obtain ⟨_, s', hrun, hset⟩ := Eff.exists_of_wp (wp_markComplete h.ok hget)
        have hpage : gpuPage s'.residency ref = if loc.residency = .gpu then loc.gpuBlockId else none := by
          rw [gpuPage, hset.get, if_pos rfl]
        -- a block that need not be scored leaves the collection alone
        have hmarked : ¬GraduationDue cfg numComputedTokens o ref →
            Graduating cfg K numComputedTokens o (done ++ [ref]) toScore { o₁ with store := s' } :=
          fun hnot => h.mark hget hfull hset h.scored fun x => by simp [hnot]
        simp only [if_neg hskip, onStore, Eff.zoom, hrun]
        by_cases hgpu : loc.residency = .gpu
        · obtain ⟨page, hblock⟩ :=
            Option.isSome_iff_exists.mp (o.store.residency.wellFormed ref loc hold).gpuBlockId_isSome
          rw [if_pos hgpu, hblock] at hpage
          simp only [hpage]
          by_cases hscored : ref ∈ o₁.scored
          · simp only [if_pos hscored]
            refine hmarked fun hdue => ?_
            rcases (h.scored ref).mp hscored with hscored | hcollected
            · exact hdue.1 hscored
            · exact hnew ((h.toScore ref).mp hcollected).1
          · simp only [if_neg hscored]
            have hdue : GraduationDue cfg numComputedTokens o ref :=
              ⟨fun hmem => hscored ((h.scored ref).mpr (Or.inl hmem)), hfull, loc, hold, hgpu, hopen⟩
            refine h.mark hget hfull hset (fun x => ?_) fun x => by simp [hdue]
            rw [Finset.mem_insert, h.scored, List.map_append, List.mem_append, List.map_singleton, List.mem_singleton,
              or_comm, or_assoc]
        · rw [if_neg hgpu] at hpage
          simp only [hpage]
          refine hmarked fun hdue => ?_
          obtain ⟨-, -, loc', hget', hgpu', -⟩ := hdue
          obtain rfl : loc = loc' := Option.some.inj (hold.symm.trans hget')
          exact hgpu hgpu'

theorem wp_graduateBlocks {numComputedTokens : Nat} {o o₁ : Orchestrator μ σ} {done : List BlockRef}
    {toScore : List (BlockRef × Nat)} (h : Graduating cfg K numComputedTokens o done toScore o₁)
    (refs : List BlockRef) :
    Eff.wp (graduateBlocks cfg numComputedTokens refs toScore)
      (fun toScore' o' => Graduating cfg K numComputedTokens o (done ++ refs) toScore' o')
      (fun _ _ => False) o₁ := by
  induction refs generalizing done toScore o₁ with
  | nil =>
      rw [List.append_nil]
      exact h
  | cons ref rest ih =>
      rw [graduateBlocks, Eff.wp_bind]
      refine Eff.wp_mono (wp_graduateBlock h ref) (fun toScore' o' ho' => ?_) fun _ _ hfalse => hfalse
      have hrest := ih ho'
      rwa [List.append_assoc] at hrest

/-- The blocks `on_prefill_complete` looks at. -/
def prefillRefs (o : Orchestrator μ σ) (requestId : RequestId) : List BlockRef :=
  if isWarmup requestId || !o.sparseMode then [] else (o.requestBlocks.get? requestId).getD []

structure PrefillPost (cfg : OrchestratorConfig) {dev : Device μ φ ν S} (K : Backing dev) (scorer : BlockScorer σ ν S)
    (numComputedTokens : Nat) (refs : List BlockRef) (o : Orchestrator μ σ) (failed : Prop) (o' : Orchestrator μ σ) :
    Prop where
  ok : StoreOk cfg K o'.store
  table : Graduated cfg numComputedTokens refs o.store.residency o'.store.residency
  state : o' = { o with scored := o'.scored,
                        store := { o.store with residency := o'.store.residency, scorer := o'.store.scorer,
                                                tick := o'.store.tick } }
  scored : ∀ ref, ref ∈ o'.scored ↔ ref ∈ o.scored ∨ ref ∈ refs ∧ GraduationDue cfg numComputedTokens o ref
  registers : Registers scorer (fun ref => ref ∈ refs ∧ (o.store.residency.get ref).isSome) o o'
  registered : ¬failed → (∀ ref ∈ refs, isWarmup ref.requestId = false) → Registered scorer o o'
  steady : ¬failed → (∀ ref ∈ refs, isWarmup ref.requestId = false) → ∀ ref ∈ o'.scored, ref ∉ o.scored →
    dev.scoreFault o.store.tick = false
  scorer_failed : failed → o'.store.scorer = o.store.scorer
  fault : failed → ScoreStruck dev o.store o'.store

theorem Graduating.prefillPost {numComputedTokens : Nat} {refs : List BlockRef} {o o₁ o₂ : Orchestrator μ σ}
    {toScore : List (BlockRef × Nat)} {failed : Prop} (h₁ : Graduating cfg K numComputedTokens o refs toScore o₁)
    (h₂ : ScorePost dev scorer toScore o₁ failed o₂) :
    PrefillPost cfg K scorer numComputedTokens refs o failed o₂ := by
  have hscored : ∀ ref, ref ∈ o₂.scored ↔ ref ∈ o.scored ∨ ref ∈ toScore.map Prod.fst := by
    rw [h₂.state]
    exact h₁.scored
  have hscorer : o₁.store.scorer = o.store.scorer := by rw [h₁.state]
  have htick : o₁.store.tick = o.store.tick := by rw [h₁.state]
  have htracked : ∀ ref ∈ toScore.map Prod.fst, ref ∈ refs ∧ (o.store.residency.get ref).isSome := by
    intro ref href
    obtain ⟨hmem, -, -, loc, hget, -⟩ := (h₁.toScore ref).mp href
    exact ⟨hmem, Option.isSome_of_eq_some hget⟩
  have hknown := h₂.known_mono
  have hknown' := h₂.known_new
  rw [hscorer] at hknown hknown'
  refine ⟨?_, ?_, by rw [h₂.state, h₁.state], fun ref => by rw [hscored, h₁.toScore],
    ⟨fun ref href => (hscored ref).mpr (Or.inl href), fun ref href => ((hscored ref).mp href).imp_right (htracked ref),
      hknown, fun ref href => (hknown' ref href).imp_right (htracked ref)⟩,
    fun hok hwarm ref href => ?_, fun hok hwarm ref href hnew => ?_,
    fun hfailed => (h₂.scorer_failed hfailed).trans hscorer, fun hfailed => ?_⟩
  · rw [h₂.state]
    exact h₁.ok.rescore _ _
  · rw [h₂.state]
    exact h₁.table
  · exact ((hscored ref).mp href).imp_right fun hnew => h₂.registered hok ref hnew (hwarm ref (htracked ref hnew).1)
  · have hcollected := ((hscored ref).mp href).resolve_left hnew
    rw [← htick]
    exact h₂.steady hok ref hcollected (hwarm ref (htracked ref hcollected).1)
  · rw [ScoreStruck, ← htick]
    exact h₂.fault hfailed

theorem wp_onPrefillComplete {o : Orchestrator μ σ} (h : StoreOk cfg K o.store) (requestId : RequestId)
    (numComputedTokens : Nat) :
    Eff.wp (onPrefillComplete cfg dev scorer requestId numComputedTokens)
      (fun _ o' => PrefillPost cfg K scorer numComputedTokens (prefillRefs o requestId) o False o')
      (fun _ o' => PrefillPost cfg K scorer numComputedTokens (prefillRefs o requestId) o True o') o := by
  have hstart : Graduating cfg K numComputedTokens o [] [] o :=
    ⟨h, graduated_nil numComputedTokens _, rfl, by simp, by simp⟩
  rw [onPrefillComplete, Eff.wp_bind, Eff.wp_read, Eff.wp_ite, prefillRefs]
  constructor
  · intro hskip
    rw [if_pos hskip]
    exact hstart.prefillPost ⟨rfl, fun _ hk => hk, fun _ hk => Or.inl hk, by simp, by simp, False.elim, False.elim⟩
  · intro hgo
    rw [if_neg hgo, Eff.wp_bind]
    refine Eff.wp_mono (wp_graduateBlocks hstart _) (fun toScore o₁ ho₁ => ?_) fun _ _ hfalse => hfalse.elim
    exact Eff.wp_mono (wp_scoreCollected dev scorer toScore o₁) (fun _ _ hpost => ho₁.prefillPost hpost)
      fun _ _ hpost => ho₁.prefillPost hpost

end Graduate

end KVOffload

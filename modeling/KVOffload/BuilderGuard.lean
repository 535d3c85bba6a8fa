import KVOffload.BuilderModel
import KVOffload.StagingContract

/-! The fail-loud guarantee of `build` under true freeing. The patch is right for a row that carries
its own request's id, and a step whose patch gave up raises as long as some block is CPU-resident.
What is left are rows labelled with another request or none, and steps on which every offloaded
block is staged; the guarantee holds exactly outside of those. -/

namespace KVOffload
open Base

variable {μ φ ν σ S : Type} [LinearOrder S]

/-- The page that the entry of an offloaded block has to hold: its staging page, or the null page. -/
def requiredPage (cfg : OrchestratorConfig) (t : ResidencyTable) (ref : BlockRef) : Option Int :=
  (t.get ref).bind fun loc =>
    match loc.residency with
    | .gpu => none
    | .cpu => some 0
    | .staging => loc.stagingSlot.map fun slot => ((cfg.stagingBase + slot : Nat) : Int)

/-- In every decode row, the entry of each offloaded block of the row's request is the required page. -/
def DecodeRowsRight (cfg : OrchestratorConfig) (call : BuildCall) (b : Builder μ σ) : Prop :=
  ∀ n < call.numDecodes, ∀ row, call.rows[n]? = some row → ∀ i < row.pages.length, ∀ page,
    requiredPage cfg b.orchestrator.store.residency ⟨row.requestId, (i : Int)⟩ = some page →
      b.indices[rowStart call.table n + i]? = some page

/-- `build` raises, or hands on an index array whose decode rows are right. -/
def FailLoud (cfg : OrchestratorConfig) (dev : Device μ φ ν S) (scorer : BlockScorer σ ν S) (call : BuildCall)
    (b : Builder μ σ) : Prop :=
  Eff.wp (build cfg dev scorer call) (fun _ b' => DecodeRowsRight cfg call b') (fun _ _ => True) b

section Condition

variable (cfg : OrchestratorConfig) (dev : Device μ φ ν S) (scorer : BlockScorer σ ν S) (call : BuildCall)
  (b : Builder μ σ)

/-- The ids the patch takes for the first rows of the batch. -/
def rowLabels : List RequestId := (stashRequestIds call b).cachedRequestIds

/-- The CPU-resident blocks that the cached selection of the labelled requests needs. -/
def lagRefs (requestIds : List RequestId) (pattern : SparsePattern) (o : Orchestrator μ σ) : List BlockRef :=
  if o.store.residency.cpuVersion = o.lagSeenCpuVersion then []
  else
    match collectNeededBlockRefs requestIds pattern cfg.pageSize with
    | .error _ => []
    | .ok needed => needed.filter (isCpuResident o.store.residency)

/-- The ids cannot label the rows of this batch. -/
def LabelsRefused : Prop := rowLabels call b = [] ∨ call.rows.length < (rowLabels call b).length

instance : Decidable (LabelsRefused call b) := inferInstanceAs (Decidable (_ ∨ _))

/-- The blocks this call fetches. -/
def prefetchRefs : List BlockRef :=
  if LabelsRefused call b then []
  else
    match b.cachedSparse with
    | none => []
    | some pattern =>
        if pattern.rows.length ≠ (rowLabels call b).length then []
        else lagRefs cfg (rowLabels call b) pattern b.orchestrator

/-- Some listed row is not as long as the tracked state of its label. -/
def Misaligned : Prop :=
  ∃ (n : Nat) (r : RequestId) (row : BatchRow), (rowLabels call b)[n]? = some r ∧ call.rows[n]? = some row ∧
    ((b.orchestrator.store.residency.refsForRequest r).length = 0 ∨
      row.pages.length ≠ (b.orchestrator.store.residency.refsForRequest r).length)

/-- The patch gives up before it writes. -/
def GivesUp : Prop := LabelsRefused call b ∨ Misaligned call b

/-- The block is offloaded and the prefetch leaves it without a staging page. -/
def CpuAfterPrefetch (ref : BlockRef) : Prop :=
  isOffloaded b.orchestrator.store.residency ref = true ∧
    ref ∉ stagedAfter cfg scorer b.orchestrator.store (prefetchRefs cfg call b)

/-- Entry `i` of row `n` comes out right for the offloaded block of the row's request: the row carries
its request's id; or the null page is wanted and written for the labelled request, or was there before. -/
def Served (n i : Nat) (row : BatchRow) : Prop :=
  ¬GivesUp call b ∧ (rowLabels call b)[n]? = some row.requestId ∨
    CpuAfterPrefetch cfg scorer call b ⟨row.requestId, (i : Int)⟩ ∧
      ((¬GivesUp call b ∧ ∃ r, (rowLabels call b)[n]? = some r ∧ CpuAfterPrefetch cfg scorer call b ⟨r, (i : Int)⟩) ∨
        row.pages[i]? = some 0 ∧ (GivesUp call b ∨ ∀ r, (rowLabels call b)[n]? = some r →
          isOffloaded b.orchestrator.store.residency ⟨r, (i : Int)⟩ = false))

/-- When the guarantee holds: the prefetch fails, the patch gives up while a block is CPU-resident, or
every offloaded block of a decode row is served. -/
def Guarded : Prop :=
  (prefetchRefs cfg call b ≠ [] ∧ (dev.fetchFault b.orchestrator.store.tick).isSome) ∨
    (GivesUp call b ∧ ∃ ref, CpuAfterPrefetch cfg scorer call b ref) ∨
    ∀ n < call.numDecodes, ∀ row, call.rows[n]? = some row → ∀ i < row.pages.length,
      isOffloaded b.orchestrator.store.residency ⟨row.requestId, (i : Int)⟩ = true → Served cfg scorer call b n i row

/-- What `build` relies on: a step with decode rows under true freeing, distinct ids whose tracked
blocks are numbered from zero, and block tables that hold no staging page. -/
structure Admissible : Prop where
  outsideCapture : call.capturing = false
  decodes : 0 < call.numDecodes
  trueFreeing : b.orchestrator.trueFreeing = true
  labels_nodup : (rowLabels call b).Nodup
  tracked : ∀ r ∈ rowLabels call b, ∃ n, b.orchestrator.store.residency.TracksRange r n
  pages_lt : ∀ row ∈ call.rows, ∀ page ∈ row.pages, page < cfg.stagingBase
  stagingBase_pos : 0 < cfg.stagingBase
  valued : prefetchRefs cfg call b ≠ [] →
    ∀ ref ∈ b.orchestrator.store.lru.keys, (scorer.value b.orchestrator.store.scorer ref).isSome

end Condition

section RequiredPage

variable {cfg : OrchestratorConfig} {t t' : ResidencyTable} {ref : BlockRef}

theorem requiredPage_of_cpuResident (h : isCpuResident t ref = true) : requiredPage cfg t ref = some 0 := by
  unfold isCpuResident isCpu at h
  unfold requiredPage
  cases hget : t.get ref with
  | none => simp [hget] at h
  | some loc =>
      have hres : loc.residency = .cpu := by simpa [hget] using h
      simp [hres]

theorem requiredPage_of_stagedAt {slot : Nat} (h : StagedAt t ref slot) :
    requiredPage cfg t ref = some ((cfg.stagingBase + slot : Nat) : Int) := by
  obtain ⟨loc, hget, hres, hslot⟩ := h
  simp [requiredPage, hget, hres, hslot]

theorem requiredPage_of_not_offloaded (h : isOffloaded t ref = false) : requiredPage cfg t ref = none := by
  unfold isOffloaded at h
  unfold requiredPage
  cases hget : t.get ref with
  | none => rfl
  | some loc =>
      have hres : loc.residency = .gpu := by simpa [hget] using h
      simp [hres]

theorem replacement_patchInput {call : BuildCall} {requestIds : List RequestId} {pre : Prefetched}
    {o : Orchestrator μ σ} (htrue : o.trueFreeing = true) (ref : BlockRef) :
    (patchInput cfg call requestIds pre o).replacement ref = requiredPage cfg o.store.residency ref := by
  have hnull : (patchInput cfg call requestIds pre o).nullBlockId = some 0 := by simp [patchInput, htrue]
  have htable : (patchInput cfg call requestIds pre o).residency = o.store.residency := rfl
  have hbase : (patchInput cfg call requestIds pre o).stagingBase = cfg.stagingBase := rfl
  unfold PatchInput.replacement requiredPage
  rw [htable, hbase, hnull]
  cases hget : o.store.residency.get ref with
  | none => rfl
  | some loc =>
      cases hres : loc.residency <;> cases hslot : loc.stagingSlot <;> simp [hres, hslot]

end RequiredPage

theorem ResidencyTable.numCpu_pos_iff {t : ResidencyTable} : 0 < t.numCpu ↔ ∃ ref, isCpuResident t ref = true := by
  rw [t.numCpu_eq, Int.natCast_pos, cpuCount, List.length_pos_iff_exists_mem]
  simp only [OrderedDict.mem_collect_iff]
  constructor
  · rintro ⟨_, ref, loc, hget, hcpu⟩
    refine ⟨ref, ?_⟩
    have hres : loc.residency = .cpu := by
      unfold cpuOnly at hcpu
      split_ifs at hcpu with hres
      exact hres
    simp [isCpuResident, isCpu, ResidencyTable.get, hget, hres]
  · rintro ⟨ref, hcpu⟩
    unfold isCpuResident isCpu at hcpu
    cases hget : t.get ref with
    | none => simp [hget] at hcpu
    | some loc =>
        have hres : loc.residency = .cpu := by simpa [hget] using hcpu
        exact ⟨(), ref, loc, hget, by simp [cpuOnly, hres]⟩

section Alignment

/-- The check passes exactly when every listed row has the tracked length of its label. -/
theorem rowAlignment_cases (t : ResidencyTable) {indptr : List Nat} (width : Nat → Nat) {l : List (RequestId × Nat)}
    (hrow : ∀ e ∈ l, ∃ start, indptr[e.2]? = some start ∧ indptr[e.2 + 1]? = some (start + width e.2)) :
    (rowAlignment t indptr l = .ok none ∧
      ∀ e ∈ l, (t.refsForRequest e.1).length ≠ 0 ∧ width e.2 = (t.refsForRequest e.1).length) ∨
    ((∃ reason, rowAlignment t indptr l = .ok (some reason)) ∧
      ∃ e ∈ l, (t.refsForRequest e.1).length = 0 ∨ width e.2 ≠ (t.refsForRequest e.1).length) := by
  induction l with
  | nil => exact Or.inl ⟨rfl, by simp⟩
  | cons e rest ih =>
      obtain ⟨r, n⟩ := e
      obtain ⟨start, hstart, hstop⟩ := hrow (r, n) List.mem_cons_self
      have hwidth : ((start + width n : Nat) : Int) - start = width n := by omega
      simp only [rowAlignment, hstart, hstop, hwidth]
      by_cases hbad : (t.refsForRequest r).length = 0 ∨ (width n : Int) ≠ (t.refsForRequest r).length
      · rw [if_pos hbad]
        refine Or.inr ⟨⟨_, rfl⟩, (r, n), List.mem_cons_self, hbad.imp_right fun hne heq => hne ?_⟩
        exact congrArg Nat.cast heq
      · rw [if_neg hbad]
        obtain ⟨hpos, heq⟩ := not_or.mp hbad
        have hhead : (t.refsForRequest r).length ≠ 0 ∧ width n = (t.refsForRequest r).length := by omega
        rcases ih fun e he => hrow e (List.mem_cons_of_mem _ he) with ⟨hok, hall⟩ | ⟨hbail, e, he, hmis⟩
        · refine Or.inl ⟨hok, fun e he => ?_⟩
          rcases List.mem_cons.mp he with rfl | he
          · exact hhead
          · exact hall e he
        · exact Or.inr ⟨hbail, e, List.mem_cons_of_mem _ he, hmis⟩

namespace BuildCall

variable {call : BuildCall} {k n : Nat}

theorem getElem?_take_indptr (hk : k ≤ call.rows.length) (hn : n ≤ k) :
    (call.indptr.take (k + 1))[n]? = some (rowStart call.table n) := by
  rw [List.getElem?_take_of_lt (by omega), indptr, List.getElem?_map, List.getElem?_range (by omega)]
  rfl

theorem getElem?_table {row : BatchRow} (h : call.rows[n]? = some row) :
    call.table[n]? = some (row.pages.map Int.ofNat) := by
  rw [table, List.getElem?_map, h]
  rfl

theorem rowStart_table_succ {row : BatchRow} (h : call.rows[n]? = some row) :
    rowStart call.table (n + 1) = rowStart call.table n + row.pages.length := by
  rw [rowStart_succ (getElem?_table h), List.length_map]

theorem getElem?_indices {row : BatchRow} (h : call.rows[n]? = some row) {i page : Nat}
    (hpage : row.pages[i]? = some page) : call.indices[rowStart call.table n + i]? = some (page : Int) := by
  have hi : i < (row.pages.map Int.ofNat).length := by
    rw [List.length_map]
    exact (List.getElem?_eq_some_iff.mp hpage).1
  rw [indices, getElem?_flatten_rowStart (getElem?_table h) hi, List.getElem?_map, hpage]
  rfl

end BuildCall

end Alignment

section Prefetch

variable {cfg : OrchestratorConfig} {dev : Device μ φ ν S} {K : Backing dev} {leaked : Multiset Nat}
  {scorer : BlockScorer σ ν S}

/-- What a prefetch of the CPU-resident blocks `refs` leaves behind when it returns. -/
structure Fetched (cfg : OrchestratorConfig) (dev : Device μ φ ν S) (scorer : BlockScorer σ ν S) (refs : List BlockRef)
    (o : Orchestrator μ σ) (stagingMap : OrderedDict BlockRef Nat) (o' : Orchestrator μ σ) : Prop where
  trueFreeing : o'.trueFreeing = o.trueFreeing
  restages : Restages o.store.residency o'.store.residency
  staged : ∀ ref, (∃ slot, StagedAt o'.store.residency ref slot) ↔ ref ∈ stagedAfter cfg scorer o.store refs
  injective : ∀ ref ref' slot, StagedAt o'.store.residency ref slot → StagedAt o'.store.residency ref' slot → ref = ref'
  agrees : ∀ ref slot, stagingMap.get? ref = some slot → StagedAt o'.store.residency ref slot
  steady : refs ≠ [] → dev.fetchFault o.store.tick = none

/-- A prefetch that raises leaves its blocks in their CPU slots. -/
structure FetchFailed (dev : Device μ φ ν S) (refs : List BlockRef) (o o' : Orchestrator μ σ) : Prop where
  trueFreeing : o'.trueFreeing = o.trueFreeing
  nonempty : refs ≠ []
  fault : (dev.fetchFault o.store.tick).isSome
  numCpu_pos : 0 < o'.store.residency.numCpu

theorem StoreInv.stagedAt_injective {reserved : Multiset Nat} {s : Store μ σ} (h : StoreInv cfg K leaked reserved s)
    {ref ref' : BlockRef} {slot : Nat} (hstaged : StagedAt s.residency ref slot)
    (hstaged' : StagedAt s.residency ref' slot) : ref = ref' :=
  h.lru_injective ((h.lru_iff ref slot).mpr hstaged) ((h.lru_iff ref' slot).mpr hstaged')

theorem stagedAfter_nil (s : Store μ σ) : stagedAfter cfg scorer s [] = s.lru.keys := by
  have hnone : cpuAmong s.residency [] = [] := rfl
  rw [stagedAfter, hnone, List.take_nil, List.nil_append, List.length_nil, Nat.zero_sub, evictMany]

theorem fetched_nil {o o' : Orchestrator μ σ} (h : StoreInv cfg K leaked 0 o.store) (hstore : o'.store = o.store)
    (htrue : o'.trueFreeing = o.trueFreeing) : Fetched cfg dev scorer [] o .empty o' where
  trueFreeing := htrue
  restages := by
    rw [hstore]
    exact Restages.refl _
  staged ref := by
    rw [hstore, stagedAfter_nil, mem_keys_iff_staged h]
  injective _ _ _ hstaged hstaged' := by
    rw [hstore] at hstaged hstaged'
    exact h.stagedAt_injective hstaged hstaged'
  agrees ref slot hslot := by simp at hslot
  steady hne := absurd rfl hne

theorem lagRefs_cpu {requestIds : List RequestId} {pattern : SparsePattern} {o : Orchestrator μ σ} {ref : BlockRef}
    (h : ref ∈ lagRefs cfg requestIds pattern o) : isCpuResident o.store.residency ref = true := by
  unfold lagRefs at h
  split_ifs at h
  · cases h
  · split at h
    · cases h
    · exact (List.mem_filter.mp h).2

/-- The fetch itself. -/
theorem wp_ensureResident_cpu {o o₁ : Orchestrator μ σ} (hinv : StoreInv cfg K leaked 0 o.store)
    (hstore : o₁.store = o.store) (htrue : o₁.trueFreeing = o.trueFreeing) {refs : List BlockRef}
    (hcpu : ∀ ref ∈ refs, isCpuResident o.store.residency ref = true)
    (hvalued : refs ≠ [] → ∀ ref ∈ o.store.lru.keys, (scorer.value o.store.scorer ref).isSome) :
    Eff.wp (onStore (ensureResident cfg dev scorer refs)) (fun out o' => Fetched cfg dev scorer refs o out.1 o')
      (fun _ o' => FetchFailed dev refs o o') o₁ := by
  by_cases hempty : refs = []
  · subst hempty
    exact fetched_nil hinv hstore htrue
  rw [onStore, Eff.wp_zoom, hstore]
  refine Eff.wp_mono (wp_ensureResident hinv refs) (fun out s' hok => ?_) fun _ s' hfail => ?_
  · obtain ⟨hinv', scan, s₁, res, s₂, s₃, hphases⟩ := hok
    have hfetch : scan.toFetch ≠ [] := by
      obtain ⟨ref, href⟩ := List.exists_mem_of_ne_nil refs hempty
      have hmem : ref ∈ cpuAmong o.store.residency refs := by
        rw [cpuAmong, List.mem_filter, OrderedDict.mem_keys_fromKeys]
        exact ⟨href, hcpu ref href⟩
      rw [← hphases.map_fst_toFetch] at hmem
      rintro hnil
      rw [hnil] at hmem
      cases hmem
    refine ⟨htrue, hphases.restages.1, hphases.mem_stagedAfter hcpu (hvalued hempty),
      fun _ _ _ hstaged hstaged' => hinv'.stagedAt_injective hstaged hstaged',
      fun _ _ hslot => hphases.stagedAt_of_cpu hcpu hslot,
      fun _ => hphases.steady hfetch⟩
  · obtain ⟨ref, href⟩ := List.exists_mem_of_ne_nil refs hempty
    refine ⟨htrue, hempty, (hfail.fault_of_cpu hcpu).1, ResidencyTable.numCpu_pos_iff.mpr ⟨ref, ?_⟩⟩
    have hcpu' := hcpu ref href
    unfold isCpuResident isCpu at hcpu' ⊢
    cases hget : o.store.residency.get ref with
    | none => simp [hget] at hcpu'
    | some loc =>
        have hres : loc.residency = .cpu := by simpa [hget] using hcpu'
        simp [hfail.cpuKept ref loc hget hres, hres]

theorem wp_prepareStaging {o : Orchestrator μ σ} (hinv : StoreInv cfg K leaked 0 o.store) {requestIds : List RequestId}
    {pattern : SparsePattern} (hrows : pattern.rows.length = requestIds.length)
    (hvalued : lagRefs cfg requestIds pattern o ≠ [] →
      ∀ ref ∈ o.store.lru.keys, (scorer.value o.store.scorer ref).isSome) :
    Eff.wp (prepareStaging cfg dev scorer requestIds pattern)
      (fun staged o' => Fetched cfg dev scorer (lagRefs cfg requestIds pattern o) o staged o')
      (fun _ o' => FetchFailed dev (lagRefs cfg requestIds pattern o) o o') o := by
  rw [prepareStaging, Eff.wp_bind, Eff.wp_read, Eff.wp_ite]
  refine ⟨fun hseen => ?_, fun hnew => ?_⟩
  · rw [lagRefs, if_pos hseen]
    exact fetched_nil hinv rfl rfl
  · obtain ⟨needed, hneeded⟩ : ∃ needed, collectNeededBlockRefs requestIds pattern cfg.pageSize = .ok needed := by
      rw [collectNeededBlockRefs, if_neg (not_not.mpr hrows.symm)]
      exact ⟨_, rfl⟩
    have hrefs : lagRefs cfg requestIds pattern o = needed.filter (isCpuResident o.store.residency) := by
      simp only [lagRefs, if_neg hnew, hneeded]
    rw [Eff.wp_bind, Eff.wp_modify, hneeded]
    simp only [Eff.wp_bind, Eff.wp_pure]
    rw [← hrefs]
    refine wp_ensureResident_cpu hinv ?_ ?_ (fun _ => lagRefs_cpu) hvalued
    · rfl
    · rfl

end Prefetch

section Outcome

variable {cfg : OrchestratorConfig} {dev : Device μ φ ν S} {K : Backing dev} {leaked : Multiset Nat}
  {scorer : BlockScorer σ ν S} {call : BuildCall} {b : Builder μ σ}

/-- The array and the table that a call which returns hands on. -/
structure Handed (cfg : OrchestratorConfig) (scorer : BlockScorer σ ν S) (call : BuildCall) (b b' : Builder μ σ) :
    Prop where
  restages : Restages b.orchestrator.store.residency b'.orchestrator.store.residency
  staged : ∀ ref, (∃ slot, StagedAt b'.orchestrator.store.residency ref slot) ↔
    ref ∈ stagedAfter cfg scorer b.orchestrator.store (prefetchRefs cfg call b)
  injective : ∀ ref ref' slot, StagedAt b'.orchestrator.store.residency ref slot →
    StagedAt b'.orchestrator.store.residency ref' slot → ref = ref'
  labelled : ¬GivesUp call b → ∀ (n i page : Nat) row r, call.rows[n]? = some row → row.pages[i]? = some page →
    (rowLabels call b)[n]? = some r → b'.indices[rowStart call.table n + i]? =
      some ((requiredPage cfg b'.orchestrator.store.residency ⟨r, (i : Int)⟩).getD page)
  unlabelled : ∀ (n i page : Nat) row, call.rows[n]? = some row → row.pages[i]? = some page →
    GivesUp call b ∨ (rowLabels call b)[n]? = none → b'.indices[rowStart call.table n + i]? = some (page : Int)

/-- Everything one call can do. -/
inductive BuildOutcome (cfg : OrchestratorConfig) (dev : Device μ φ ν S) (scorer : BlockScorer σ ν S) (call : BuildCall)
    (b : Builder μ σ) : Except PyError Unit × Builder μ σ → Prop
  | prefetchFailed {e : PyError} {b' : Builder μ σ} (hne : prefetchRefs cfg call b ≠ [])
      (hfault : (dev.fetchFault b.orchestrator.store.tick).isSome) : BuildOutcome cfg dev scorer call b (.error e, b')
  | refused {e : PyError} {b' : Builder μ σ} (hgives : GivesUp call b)
      (hcpu : ∃ ref, CpuAfterPrefetch cfg scorer call b ref) : BuildOutcome cfg dev scorer call b (.error e, b')
  | returned {b' : Builder μ σ}
      (hsteady : prefetchRefs cfg call b ≠ [] → dev.fetchFault b.orchestrator.store.tick = none)
      (hcpu : GivesUp call b → ¬∃ ref, CpuAfterPrefetch cfg scorer call b ref) (hhanded : Handed cfg scorer call b b') :
      BuildOutcome cfg dev scorer call b (.ok (), b')

/-- The builder as the patch finds it. -/
def entered (call : BuildCall) (b : Builder μ σ) : Builder μ σ :=
  { stashRequestIds call b with patchBailReason := none, indices := call.indices }

theorem stashRequestIds_orchestrator (call : BuildCall) (b : Builder μ σ) :
    (stashRequestIds call b).orchestrator = b.orchestrator ∧
      (stashRequestIds call b).cachedSparse = b.cachedSparse := by
  unfold stashRequestIds
  split_ifs
  · exact ⟨rfl, rfl⟩
  · split
    · exact ⟨rfl, rfl⟩
    · split_ifs <;> exact ⟨rfl, rfl⟩

/-- The prefetch inside the patch. -/
theorem wp_prefetch (hinv : StoreInv cfg K leaked 0 b.orchestrator.store) (hlabels : ¬LabelsRefused call b)
    (hvalued : prefetchRefs cfg call b ≠ [] →
      ∀ ref ∈ b.orchestrator.store.lru.keys, (scorer.value b.orchestrator.store.scorer ref).isSome) :
    Eff.wp (prefetch cfg dev scorer (rowLabels call b))
      (fun pre b' => Fetched cfg dev scorer (prefetchRefs cfg call b) b.orchestrator pre.stagingMap b'.orchestrator ∧
        (∀ pattern ∈ pre.pattern, pattern.rows.length = (rowLabels call b).length) ∧
        b' = { entered call b with orchestrator := b'.orchestrator })
      (fun _ b' => FetchFailed dev (prefetchRefs cfg call b) b.orchestrator b'.orchestrator) (entered call b) := by
  obtain ⟨horch, hsparse⟩ := stashRequestIds_orchestrator call b
  have hentered : (entered call b).orchestrator = b.orchestrator := horch
  have hcached : (entered call b).cachedSparse = b.cachedSparse := hsparse
  have hskip : prefetchRefs cfg call b = [] → Fetched cfg dev scorer (prefetchRefs cfg call b) b.orchestrator .empty
      (entered call b).orchestrator := by
    intro hnil
    rw [hnil, hentered]
    exact fetched_nil hinv rfl rfl
  cases hpattern : b.cachedSparse with
  | none =>
      have hrefs : prefetchRefs cfg call b = [] := by simp only [prefetchRefs, if_neg hlabels, hpattern]
      have hrun :
          prefetch cfg dev scorer (rowLabels call b) (entered call b) = (.ok ⟨.empty, none⟩, entered call b) := by
        simp only [prefetch, hcached, hpattern]
      exact Eff.wp_of_ok hrun ⟨hskip hrefs, by simp, rfl⟩
  | some pattern =>
      by_cases hrows : pattern.rows.length = (rowLabels call b).length
      · have hrefs : prefetchRefs cfg call b = lagRefs cfg (rowLabels call b) pattern b.orchestrator := by
          simp only [prefetchRefs, if_neg hlabels, hpattern, hrows, ne_eq, not_true_eq_false, if_false]
        have hrun : prefetch cfg dev scorer (rowLabels call b) (entered call b) =
            ((fun staged => (⟨staged, some pattern⟩ : Prefetched)) <$>
              Eff.zoom Builder.orchestrator (fun b o => { b with orchestrator := o })
                (prepareStaging cfg dev scorer (rowLabels call b) pattern)) (entered call b) := by
          simp only [prefetch, hcached, hpattern, hrows, ne_eq, not_true_eq_false, if_false]
        rw [hrefs] at hvalued
        refine Eff.wp_of_eq hrun ?_
        rw [hrefs, Eff.wp_map, Eff.wp_zoom, hentered]
        refine Eff.wp_mono (wp_prepareStaging hinv hrows hvalued) (fun staged o' hfetched => ?_) fun _ _ hfail => hfail
        refine ⟨hfetched, fun p hp => ?_, rfl⟩
        obtain rfl : pattern = p := Option.some.inj hp
        exact hrows
      · have hrefs : prefetchRefs cfg call b = [] := by
          simp only [prefetchRefs, if_neg hlabels, hpattern, ne_eq, hrows, not_false_eq_true, if_true]
        have hrun : prefetch cfg dev scorer (rowLabels call b) (entered call b) =
            (.ok ⟨.empty, none⟩, entered call b) := by
          simp only [prefetch, hcached, hpattern, ne_eq, hrows, not_false_eq_true, if_true]
        exact Eff.wp_of_ok hrun ⟨hskip hrefs, by simp, rfl⟩

theorem Restages.tracksRange {t t' : ResidencyTable} (h : Restages t t') {r : RequestId} {n : Nat}
    (hn : t.TracksRange r n) : t'.TracksRange r n := by
  intro i
  rw [h.isSome_iff]
  exact hn i

/-- The check after the prefetch finds the same tracked counts as before it. -/
theorem rowAlignment_labels (h : Admissible cfg scorer call b) (hlabels : ¬LabelsRefused call b) {t : ResidencyTable}
    (hrestages : Restages b.orchestrator.store.residency t) :
    (rowAlignment t (call.indptr.take ((rowLabels call b).length + 1)) (rowLabels call b).zipIdx = .ok none ∧
      ¬Misaligned call b) ∨
    ((∃ reason, rowAlignment t (call.indptr.take ((rowLabels call b).length + 1)) (rowLabels call b).zipIdx =
      .ok (some reason)) ∧ Misaligned call b) := by
  have hle : (rowLabels call b).length ≤ call.rows.length := not_lt.mp (not_or.mp hlabels).2
  have hmem : ∀ e ∈ (rowLabels call b).zipIdx, ∃ row, (rowLabels call b)[e.2]? = some e.1 ∧
      call.rows[e.2]? = some row := by
    intro e he
    have hlabel := List.mem_zipIdx_iff_getElem?.mp he
    have hlt : e.2 < call.rows.length := lt_of_lt_of_le (List.getElem?_eq_some_iff.mp hlabel).1 hle
    exact ⟨call.rows[e.2], hlabel, List.getElem?_eq_getElem hlt⟩
  have hlength : ∀ r ∈ rowLabels call b,
      (t.refsForRequest r).length = (b.orchestrator.store.residency.refsForRequest r).length := by
    intro r hr
    obtain ⟨n, hn⟩ := h.tracked r hr
    rw [hn.refsForRequest, (hrestages.tracksRange hn).refsForRequest]
  have hbounds : ∀ e ∈ (rowLabels call b).zipIdx,
      ∃ start, (call.indptr.take ((rowLabels call b).length + 1))[e.2]? = some start ∧
        (call.indptr.take ((rowLabels call b).length + 1))[e.2 + 1]? =
          some (start + (call.rows[e.2]?.map (·.pages.length)).getD 0) := by
    intro e he
    obtain ⟨row, hlabel, hrow⟩ := hmem e he
    have hlt := (List.getElem?_eq_some_iff.mp hlabel).1
    refine ⟨_, BuildCall.getElem?_take_indptr hle (by omega), ?_⟩
    rw [BuildCall.getElem?_take_indptr hle (by omega), BuildCall.rowStart_table_succ hrow, hrow]
    rfl
  rcases rowAlignment_cases t (fun n => (call.rows[n]?.map (·.pages.length)).getD 0) hbounds with
    ⟨hok, hall⟩ | ⟨hbail, e, he, hbad⟩
  · refine Or.inl ⟨hok, ?_⟩
    rintro ⟨n, r, row, hlabel, hrow, hbad⟩
    have hgood := hall (r, n) (List.mem_zipIdx_iff_getElem?.mpr hlabel)
    simp only [hrow, Option.map_some, Option.getD_some, hlength r (List.mem_of_getElem? hlabel)] at hgood
    omega
  · obtain ⟨row, hlabel, hrow⟩ := hmem e he
    refine Or.inr ⟨hbail, e.2, e.1, row, hlabel, hrow, ?_⟩
    simp only [hrow, Option.map_some, Option.getD_some, hlength e.1 (List.mem_of_getElem? hlabel)] at hbad
    exact hbad

theorem patchInput_wellPosed (h : Admissible cfg scorer call b) (hlabels : ¬LabelsRefused call b) {pre : Prefetched}
    {o : Orchestrator μ σ} {refs : List BlockRef}
    (hfetched : Fetched cfg dev scorer refs b.orchestrator pre.stagingMap o)
    (hpattern : ∀ pattern ∈ pre.pattern, pattern.rows.length = (rowLabels call b).length) :
    (patchInput cfg call (rowLabels call b) pre o).WellPosed call.indices.length where
  requestIds_nodup := h.labels_nodup
  indptr_length := by
    have hle := not_lt.mp (not_or.mp hlabels).2
    simp only [patchInput, BuildCall.indptr, List.length_take, List.length_map, List.length_range]
    omega
  indptr_mono := by
    refine List.Pairwise.sublist (List.take_sublist _ _) ?_
    rw [BuildCall.indptr, List.pairwise_map]
    exact List.pairwise_lt_range.imp fun hlt => rowStart_mono _ hlt.le
  indptr_le x hx := by
    obtain ⟨n, -, rfl⟩ := List.mem_map.mp (List.mem_of_mem_take hx)
    exact rowStart_le_length _ n
  tracked r hr := by
    obtain ⟨n, hn⟩ := h.tracked r hr
    exact ⟨n, hfetched.restages.tracksRange hn⟩
  stagingMap_agrees := hfetched.agrees
  pattern_rows := hpattern

theorem row_patchInput {pre : Prefetched} {o : Orchestrator μ σ} (hlabels : ¬LabelsRefused call b) {n : Nat}
    (hn : n < (rowLabels call b).length) :
    (patchInput cfg call (rowLabels call b) pre o).row n = (rowStart call.table n, rowStart call.table (n + 1)) := by
  have hle := not_lt.mp (not_or.mp hlabels).2
  simp only [PatchInput.row, patchInput, List.getD_eq_getElem?_getD]
  rw [BuildCall.getElem?_take_indptr hle (by omega), BuildCall.getElem?_take_indptr hle (by omega)]
  rfl

theorem Fetched.handed_unpatched {stagingMap : OrderedDict BlockRef Nat} {b' : Builder μ σ}
    (hfetched : Fetched cfg dev scorer (prefetchRefs cfg call b) b.orchestrator stagingMap b'.orchestrator)
    (hindices : b'.indices = call.indices) (hgives : GivesUp call b) : Handed cfg scorer call b b' where
  restages := hfetched.restages
  staged := hfetched.staged
  injective := hfetched.injective
  labelled hkeeps := absurd hgives hkeeps
  unlabelled n i page row hrow hpage _ := by
    rw [hindices]
    exact BuildCall.getElem?_indices hrow hpage

/-- The patch on an aligned batch. -/
theorem Fetched.patchInto (h : Admissible cfg scorer call b) (hkeeps : ¬GivesUp call b) {pre : Prefetched}
    {b' : Builder μ σ}
    (hfetched : Fetched cfg dev scorer (prefetchRefs cfg call b) b.orchestrator pre.stagingMap b'.orchestrator)
    (hpattern : ∀ pattern ∈ pre.pattern, pattern.rows.length = (rowLabels call b).length) :
    ∃ out, (patchInput cfg call (rowLabels call b) pre b'.orchestrator).patchInto call.indices = (.ok (), out) ∧
      Handed cfg scorer call b { b' with indices := out } := by
  obtain ⟨hlabels, haligned⟩ := not_or.mp hkeeps
  have hle := not_lt.mp (not_or.mp hlabels).2
  obtain ⟨out, hrun, -, hrows, hrest⟩ :=
    PatchInput.patchInto_entries (patchInput_wellPosed h hlabels hfetched hpattern)
  refine ⟨out, hrun, hfetched.restages, hfetched.staged, hfetched.injective, ?_, ?_⟩
  · intro _ n i page row r hrow hpage hlabel
    have hn := (List.getElem?_eq_some_iff.mp hlabel).1
    have hi := (List.getElem?_eq_some_iff.mp hpage).1
    obtain ⟨m, hm⟩ := h.tracked r (List.mem_of_getElem? hlabel)
    have hlength : row.pages.length = m := by
      by_contra hne
      apply haligned
      refine ⟨n, r, row, hlabel, hrow, Or.inr ?_⟩
      rw [hm.refsForRequest, List.length_map, List.length_range]
      exact hne
    have hentry := hrows n r m ⟨hlabel, hfetched.restages.tracksRange hm, ?_⟩ i (by omega)
    · rw [row_patchInput hlabels hn, replacement_patchInput (by rw [hfetched.trueFreeing, h.trueFreeing]),
        BuildCall.getElem?_indices hrow hpage] at hentry
      rw [hentry]
      cases requiredPage cfg b'.orchestrator.store.residency ⟨r, (i : Int)⟩ <;> rfl
    · rw [row_patchInput hlabels hn, BuildCall.rowStart_table_succ hrow, hlength]
  · intro n i page row hrow hpage hnone
    have hbeyond : (rowLabels call b).length ≤ n := List.getElem?_eq_none_iff.mp (hnone.resolve_left hkeeps)
    have houtside : ∀ k < (rowLabels call b).length,
        ¬(patchInput cfg call (rowLabels call b) pre b'.orchestrator).InRow k (rowStart call.table n + i) := by
      rintro k hk ⟨-, hlt⟩
      rw [row_patchInput hlabels hk] at hlt
      have hmono := rowStart_mono call.table (show k + 1 ≤ n by omega)
      omega
    rw [hrest _ houtside]
    exact BuildCall.getElem?_indices hrow hpage

/-- The state in which the patch returns. -/
structure PatchPost (cfg : OrchestratorConfig) (dev : Device μ φ ν S) (scorer : BlockScorer σ ν S) (call : BuildCall)
    (b b' : Builder μ σ) : Prop where
  handed : Handed cfg scorer call b b'
  bail : b'.patchBailReason.isSome ↔ GivesUp call b
  trueFreeing : b'.orchestrator.trueFreeing = true
  steady : prefetchRefs cfg call b ≠ [] → dev.fetchFault b.orchestrator.store.tick = none

theorem wp_patchGuarded (h : Admissible cfg scorer call b) (hinv : StoreInv cfg K leaked 0 b.orchestrator.store)
    (hlabels : ¬LabelsRefused call b) :
    Eff.wp (patchGuarded cfg dev scorer call (rowLabels call b)) (fun _ b' => PatchPost cfg dev scorer call b b')
      (fun _ b' => FetchFailed dev (prefetchRefs cfg call b) b.orchestrator b'.orchestrator) (entered call b) := by
  rw [patchGuarded, Eff.wp_bind]
  refine Eff.wp_mono (wp_prefetch hinv hlabels h.valued) ?_ fun _ _ hfail => hfail
  rintro pre b₁ ⟨hfetched, hpattern, hstate⟩
  have htrue : b₁.orchestrator.trueFreeing = true := hfetched.trueFreeing.trans h.trueFreeing
  have hindices : b₁.indices = call.indices := by rw [hstate]; rfl
  have hreason : b₁.patchBailReason = none := by rw [hstate]; rfl
  rw [Eff.wp_bind, Eff.wp_read]
  rcases rowAlignment_labels h hlabels hfetched.restages with ⟨hok, haligned⟩ | ⟨⟨reason, hreason'⟩, hmis⟩
  · have hkeeps : ¬GivesUp call b := not_or.mpr ⟨hlabels, haligned⟩
    obtain ⟨out, hrun, hhanded⟩ := hfetched.patchInto h hkeeps hpattern
    simp only [hok]
    rw [Eff.wp_zoom, hindices]
    refine Eff.wp_of_ok hrun ⟨hhanded, ?_, htrue, hfetched.steady⟩
    simp [hreason, hkeeps]
  · have hgives : GivesUp call b := Or.inr hmis
    simp only [hreason']
    rw [bail, Eff.wp_modify]
    refine ⟨?_, by simp [hgives], htrue, hfetched.steady⟩
    exact Fetched.handed_unpatched hfetched hindices hgives

theorem patchPost_refused (h : Admissible cfg scorer call b) (hinv : StoreInv cfg K leaked 0 b.orchestrator.store)
    (hlabels : LabelsRefused call b) (reason : BailReason) :
    PatchPost cfg dev scorer call b { entered call b with patchBailReason := some reason } := by
  have hentered : (entered call b).orchestrator = b.orchestrator := (stashRequestIds_orchestrator call b).1
  have hrefs : prefetchRefs cfg call b = [] := by rw [prefetchRefs, if_pos hlabels]
  have hfetched :
      Fetched cfg dev scorer (prefetchRefs cfg call b) b.orchestrator .empty (entered call b).orchestrator := by
    rw [hrefs]
    exact fetched_nil hinv (by rw [hentered]) (by rw [hentered])
  have hgives : GivesUp call b := Or.inl hlabels
  refine ⟨?_, by simp [hgives], ?_, hfetched.steady⟩
  · exact Fetched.handed_unpatched hfetched rfl hgives
  · exact (congrArg Orchestrator.trueFreeing hentered).trans h.trueFreeing

theorem freedPagesAtRisk_iff {b' : Builder μ σ} (htrue : b'.orchestrator.trueFreeing = true) :
    freedPagesAtRisk b' = true ↔ ∃ ref, isCpuResident b'.orchestrator.store.residency ref = true := by
  rw [freedPagesAtRisk, htrue, Bool.true_and, decide_eq_true_iff]
  exact ResidencyTable.numCpu_pos_iff

theorem wp_patchIndicesForStaging (h : Admissible cfg scorer call b)
    (hinv : StoreInv cfg K leaked 0 b.orchestrator.store) :
    Eff.wp (patchIndicesForStaging cfg dev scorer call) (fun _ b' => PatchPost cfg dev scorer call b b')
      (fun _ _ => prefetchRefs cfg call b ≠ [] ∧ (dev.fetchFault b.orchestrator.store.tick).isSome)
      (entered call b) := by
  have hids : (entered call b).cachedRequestIds = rowLabels call b := rfl
  rw [patchIndicesForStaging, Eff.wp_bind, Eff.wp_read, h.outsideCapture, hids]
  simp only [Bool.false_eq_true, if_false]
  rw [Eff.wp_ite]
  refine ⟨fun hempty => ?_, fun hne => ?_⟩
  · exact patchPost_refused h hinv (Or.inl hempty) .idsEmpty
  rw [Eff.wp_ite]
  refine ⟨fun hlong => ?_, fun hshort => ?_⟩
  · exact patchPost_refused h hinv (Or.inr hlong) .idsGtReqs
  rw [Eff.wp_attempt]
  refine Eff.wp_mono (wp_patchGuarded h hinv (not_or.mpr ⟨hne, hshort⟩)) (fun _ _ hpost => hpost) fun e b' hfail => ?_
  -- A failed prefetch leaves its blocks in their CPU slots, so the handler re-raises.
  have hrisk : freedPagesAtRisk b' = true := by
    rw [freedPagesAtRisk, hfail.trueFreeing, h.trueFreeing, Bool.true_and, decide_eq_true_iff]
    exact hfail.numCpu_pos
  rw [Eff.wp_bind, Eff.wp_read, if_pos hrisk]
  exact ⟨hfail.nonempty, hfail.fault⟩

theorem Handed.cpuResident_iff {b' : Builder μ σ} (h : Handed cfg scorer call b b') (ref : BlockRef) :
    isCpuResident b'.orchestrator.store.residency ref = true ↔ CpuAfterPrefetch cfg scorer call b ref := by
  rw [isCpuResident_iff, h.restages.isOffloaded, h.staged]
  exact Iff.rfl

theorem build_outcome (h : Admissible cfg scorer call b) (hinv : StoreInv cfg K leaked 0 b.orchestrator.store) :
    BuildOutcome cfg dev scorer call b (build cfg dev scorer call b) := by
  rw [← Eff.wp_result (R := BuildOutcome cfg dev scorer call b), build, Eff.wp_bind, Eff.wp_modify, Eff.wp_bind]
  refine Eff.wp_mono (wp_patchIndicesForStaging h hinv) (fun _ b' hpost => ?_) fun _ _ hfail =>
    .prefetchFailed hfail.1 hfail.2
  have hcpu : freedPagesAtRisk b' = true ↔ ∃ ref, CpuAfterPrefetch cfg scorer call b ref := by
    rw [freedPagesAtRisk_iff hpost.trueFreeing]
    exact exists_congr hpost.handed.cpuResident_iff
  rw [checkBail, Eff.wp_bind, Eff.wp_read]
  cases hreason : b'.patchBailReason with
  | none =>
      have hkeeps : ¬GivesUp call b := by
        rw [← hpost.bail, hreason]
        simp
      exact .returned hpost.steady (fun hgives => absurd hgives hkeeps) hpost.handed
  | some reason =>
      have hgives : GivesUp call b := by
        rw [← hpost.bail, hreason]
        rfl
      have hdecodes := decide_eq_true h.decodes
      simp only [h.outsideCapture, hdecodes, Bool.not_false, Bool.true_and]
      rw [Eff.wp_ite]
      refine ⟨fun hrisk => .refused hgives (hcpu.mp hrisk), fun hsafe => ?_⟩
      exact .returned hpost.steady (fun _ hexists => hsafe (hcpu.mpr hexists)) hpost.handed

/-- A block that is offloaded in the table handed on is null-paged or at a staging page. -/
theorem Handed.requiredPage_cases {b' : Builder μ σ} (h : Handed cfg scorer call b b') {ref : BlockRef}
    (hoff : isOffloaded b.orchestrator.store.residency ref = true) :
    (CpuAfterPrefetch cfg scorer call b ref ∧ requiredPage cfg b'.orchestrator.store.residency ref = some 0) ∨
      ¬CpuAfterPrefetch cfg scorer call b ref ∧ ∃ slot, StagedAt b'.orchestrator.store.residency ref slot ∧
        requiredPage cfg b'.orchestrator.store.residency ref = some ((cfg.stagingBase + slot : Nat) : Int) := by
  rw [← h.restages.isOffloaded] at hoff
  rcases isOffloaded_iff.mp hoff with hcpu | ⟨slot, hstaged⟩
  · exact Or.inl ⟨(h.cpuResident_iff ref).mp hcpu, requiredPage_of_cpuResident hcpu⟩
  · refine Or.inr ⟨?_, slot, hstaged, requiredPage_of_stagedAt hstaged⟩
    rw [← h.cpuResident_iff, not_cpuResident_of_stagedAt hstaged]
    exact Bool.false_ne_true

/-- An entry that was not rewritten is right exactly for a block whose null page was there before. -/
theorem Handed.original_iff {b' : Builder μ σ} (hadm : Admissible cfg scorer call b) (h : Handed cfg scorer call b b')
    {ref : BlockRef} (hoff : isOffloaded b.orchestrator.store.residency ref = true) {row : BatchRow}
    (hrow : row ∈ call.rows) {i page : Nat} (hpage : row.pages[i]? = some page) :
    requiredPage cfg b'.orchestrator.store.residency ref = some (page : Int) ↔
      CpuAfterPrefetch cfg scorer call b ref ∧ row.pages[i]? = some 0 := by
  have hlt := hadm.pages_lt row hrow page (List.mem_of_getElem? hpage)
  rcases h.requiredPage_cases hoff with ⟨hcpu, hrequired⟩ | ⟨hcpu, slot, -, hrequired⟩
  · rw [hrequired, hpage, Option.some.injEq, Option.some.injEq]
    constructor
    · intro heq
      exact ⟨hcpu, by omega⟩
    · rintro ⟨-, rfl⟩
      rfl
  · rw [hrequired, Option.some.injEq]
    constructor
    · intro heq
      omega
    · intro hnull
      exact absurd hnull.1 hcpu

/-- Two requests' blocks want the same page exactly when both want the null page. -/
theorem Handed.requiredPage_eq_iff {b' : Builder μ σ} (hadm : Admissible cfg scorer call b)
    (h : Handed cfg scorer call b b') {ref ref' : BlockRef} (hne : ref ≠ ref')
    (hoff : isOffloaded b.orchestrator.store.residency ref = true)
    (hoff' : isOffloaded b.orchestrator.store.residency ref' = true) :
    requiredPage cfg b'.orchestrator.store.residency ref = requiredPage cfg b'.orchestrator.store.residency ref' ↔
      CpuAfterPrefetch cfg scorer call b ref ∧ CpuAfterPrefetch cfg scorer call b ref' := by
  have hbase := hadm.stagingBase_pos
  rcases h.requiredPage_cases hoff with ⟨hcpu, hrequired⟩ | ⟨hcpu, slot, hstaged, hrequired⟩ <;>
    rcases h.requiredPage_cases hoff' with ⟨hcpu', hrequired'⟩ | ⟨hcpu', slot', hstaged', hrequired'⟩ <;>
    rw [hrequired, hrequired']
  · exact ⟨fun _ => ⟨hcpu, hcpu'⟩, fun _ => rfl⟩
  · refine ⟨fun heq => ?_, fun hboth => absurd hboth.2 hcpu'⟩
    have := Option.some.inj heq
    omega
  · refine ⟨fun heq => ?_, fun hboth => absurd hboth.1 hcpu⟩
    have := Option.some.inj heq
    omega
  · refine ⟨fun heq => ?_, fun hboth => absurd hboth.1 hcpu⟩
    have hslot : slot = slot' := by
      have := Option.some.inj heq
      omega
    subst hslot
    exact absurd (h.injective ref ref' slot hstaged hstaged') hne

/-- The entry handed on for an offloaded block of a row's request is right exactly when it is served. -/
theorem Handed.served_iff {b' : Builder μ σ} (hadm : Admissible cfg scorer call b) (h : Handed cfg scorer call b b')
    {n i : Nat} {row : BatchRow} (hrow : call.rows[n]? = some row) (hi : i < row.pages.length)
    (hoff : isOffloaded b.orchestrator.store.residency ⟨row.requestId, (i : Int)⟩ = true) :
    b'.indices[rowStart call.table n + i]? =
        requiredPage cfg b'.orchestrator.store.residency ⟨row.requestId, (i : Int)⟩ ↔
      Served cfg scorer call b n i row := by
  have hpage := List.getElem?_eq_getElem hi
  have hmem := List.mem_of_getElem? hrow
  have horiginal := h.original_iff hadm hoff hmem hpage
  by_cases hgives : GivesUp call b
  · rw [h.unlabelled n i _ row hrow hpage (Or.inl hgives), eq_comm, horiginal]
    simp [Served, hgives]
  cases hlabel : (rowLabels call b)[n]? with
  | none =>
      rw [h.unlabelled n i _ row hrow hpage (Or.inr hlabel), eq_comm, horiginal]
      simp [Served, hlabel]
  | some r =>
      rw [h.labelled hgives n i _ row r hrow hpage hlabel]
      by_cases hown : r = row.requestId
      · subst hown
        have hserved : Served cfg scorer call b n i row := Or.inl ⟨hgives, hlabel⟩
        refine iff_of_true ?_ hserved
        rcases h.requiredPage_cases hoff with ⟨-, hrequired⟩ | ⟨-, slot, -, hrequired⟩ <;> rw [hrequired] <;> rfl
      · have hne : (⟨r, (i : Int)⟩ : BlockRef) ≠ ⟨row.requestId, (i : Int)⟩ :=
          fun heq => hown (congrArg BlockRef.requestId heq)
        by_cases hoff' : isOffloaded b.orchestrator.store.residency ⟨r, (i : Int)⟩ = true
        · have hsame := h.requiredPage_eq_iff hadm hne hoff' hoff
          have hentry :
              some ((requiredPage cfg b'.orchestrator.store.residency ⟨r, (i : Int)⟩).getD (row.pages[i] : Int)) =
              requiredPage cfg b'.orchestrator.store.residency ⟨r, (i : Int)⟩ := by
            rcases h.requiredPage_cases hoff' with ⟨-, hrequired⟩ | ⟨-, slot, -, hrequired⟩ <;> rw [hrequired] <;> rfl
          rw [hentry, hsame]
          simp [Served, hgives, hlabel, hown, hoff', and_comm]
        · have hgpu := Bool.eq_false_iff.mpr hoff'
          have hnot : ¬CpuAfterPrefetch cfg scorer call b ⟨r, (i : Int)⟩ := fun hcpu => hoff' hcpu.1
          rw [requiredPage_of_not_offloaded ((h.restages.isOffloaded _).trans hgpu), Option.getD_none, eq_comm,
            horiginal]
          simp [Served, hgives, hlabel, hown, hgpu, hnot]

end Outcome

/-- `build` keeps its guarantee exactly when the prefetch fails, the patch gives up while a block is
CPU-resident, or every offloaded block of a decode row is served. -/
theorem build_failLoud_iff (cfg : OrchestratorConfig) (dev : Device μ φ ν S) (scorer : BlockScorer σ ν S)
    (call : BuildCall) (b : Builder μ σ) (hok : StoreOk cfg (Backing.trivial dev) b.orchestrator.store)
    (hadm : Admissible cfg scorer call b) :
    FailLoud cfg dev scorer call b ↔ Guarded cfg dev scorer call b := by
  obtain ⟨leaked, -, hinv⟩ := hok
  have houtcome : BuildOutcome cfg dev scorer call b (build cfg dev scorer call b) := build_outcome hadm hinv
  unfold FailLoud Eff.wp
  rcases hrun : build cfg dev scorer call b with ⟨_ | _, b'⟩
  all_goals rw [hrun] at houtcome
  · refine iff_of_true True.intro ?_
    cases houtcome with
    | prefetchFailed hne hfault => exact Or.inl ⟨hne, hfault⟩
    | refused hgives hcpu => exact Or.inr (Or.inl ⟨hgives, hcpu⟩)
  · cases houtcome with
    | returned hsteady hcpu hhanded =>
        constructor
        · intro hright
          refine Or.inr (Or.inr fun n hn row hrow i hi hoff => ?_)
          rw [← hhanded.served_iff hadm hrow hi hoff]
          rcases hhanded.requiredPage_cases hoff with ⟨-, hrequired⟩ | ⟨-, slot, -, hrequired⟩
          · rw [hrequired]
            exact hright n hn row hrow i hi _ hrequired
          · rw [hrequired]
            exact hright n hn row hrow i hi _ hrequired
        · rintro (⟨hne, hfault⟩ | ⟨hgives, hexists⟩ | hserved) n hn row hrow i hi page hrequired
          · rw [hsteady hne] at hfault
            cases hfault
          · exact absurd hexists (hcpu hgives)
          · have hoff : isOffloaded b.orchestrator.store.residency ⟨row.requestId, (i : Int)⟩ = true := by
              by_contra hgpu
              rw [← hhanded.restages.isOffloaded, Bool.not_eq_true] at hgpu
              rw [requiredPage_of_not_offloaded hgpu] at hrequired
              cases hrequired
            rw [(hhanded.served_iff hadm hrow hi hoff).mpr (hserved n hn row hrow i hi hoff), hrequired]

/-- Two decode rows of one page each. -/
def twoRows (disableRunnerIds : Bool) : BuildCall where
  rows := [⟨requestA, [3]⟩, ⟨requestB, [5]⟩]
  numDecodes := 2
  numDecodes_le := by decide
  capturing := false
  disableRunnerIds := disableRunnerIds

/-- The second request's block is offloaded; the cache holds the first request's id from an earlier step. -/
def staleBuilder : Builder SmallMemory LruState where
  orchestrator :=
    { run (step smallConfig (combinedDevice steadyRuntime) lruScorer)
        (Orchestrator.init smallConfig ⟨.empty, 0⟩ blankMemory)
        [.sync requestA [3] 2, .sync requestB [5] 2, .offloadFraction [⟨requestB, 0⟩] 0 {⟨requestB, 0⟩}] with
      trueFreeing := true }
  cachedRequestIds := [requestA]
  cachedSparse := none
  patchBailReason := none
  indices := []

theorem staleBuilder_storeOk :
    StoreOk smallConfig (Backing.trivial (combinedDevice steadyRuntime)) staleBuilder.orchestrator.store := by
  refine storeOk_run smallConfig (combinedDevice steadyRuntime) lruScorer ⟨.empty, 0⟩ blankMemory ?_
  simp [Op.Distinct]

theorem staleBuilder_tracks {r : RequestId} (hr : r ∈ [requestA, requestB]) :
    staleBuilder.orchestrator.store.residency.TracksRange r 1 := by
  have hkeys : staleBuilder.orchestrator.store.residency.blocks.keys = [⟨requestA, 0⟩, ⟨requestB, 0⟩] := by
    decide +kernel
  have hdistinct : requestA ≠ requestB := by decide
  intro i
  rw [← ResidencyTable.mem_keys_iff_isSome, hkeys]
  simp only [List.mem_cons, List.not_mem_nil, or_false] at hr
  rcases hr with rfl | rfl <;> simp [hdistinct, hdistinct.symm] <;> omega

theorem staleBuilder_admissible : Admissible smallConfig lruScorer (twoRows false) staleBuilder where
  outsideCapture := rfl
  decodes := by decide
  trueFreeing := rfl
  labels_nodup := by decide
  tracked r hr := ⟨1, staleBuilder_tracks hr⟩
  pages_lt := by decide
  stagingBase_pos := by decide
  valued hne := absurd rfl hne

theorem build_failLoud_staleBuilder :
    FailLoud smallConfig (combinedDevice steadyRuntime) lruScorer (twoRows false) staleBuilder := by
  refine (build_failLoud_iff smallConfig (combinedDevice steadyRuntime) lruScorer (twoRows false) staleBuilder
    staleBuilder_storeOk staleBuilder_admissible).mpr (Or.inr (Or.inr fun n hn row hrow i hi hoff => Or.inl ?_))
  have hlabels : rowLabels (twoRows false) staleBuilder = (twoRows false).rows.map (·.requestId) := by decide
  have hlength : ∀ row ∈ (twoRows false).rows, row.pages.length = 1 := by decide
  refine ⟨?_, by rw [hlabels, List.getElem?_map, hrow]; rfl⟩
  rintro (hrefused | ⟨m, r, row', hlabel, hrow', hbad⟩)
  · exact absurd hrefused (by decide)
  · rw [(staleBuilder_tracks (List.mem_of_getElem? hlabel)).refsForRequest, List.length_map, List.length_range,
      hlength row' (List.mem_of_getElem? hrow')] at hbad
    omega

/-- With the runner's ids switched off, the patch labels only the first row: the call returns and the
second row still names the page of the offloaded block. -/
theorem build_returns_old_page :
    ∃ b', build smallConfig (combinedDevice steadyRuntime) lruScorer (twoRows true) staleBuilder = (.ok (), b') ∧
      isCpuResident b'.orchestrator.store.residency ⟨requestB, 0⟩ = true ∧ b'.indices = [3, 5] ∧
      ¬FailLoud smallConfig (combinedDevice steadyRuntime) lruScorer (twoRows true) staleBuilder := by
  have hreturns :
      (build smallConfig (combinedDevice steadyRuntime) lruScorer (twoRows true) staleBuilder).1.toOption.any
      (fun _ => true) = true := by decide +kernel
  have hcpu : isCpuResident (build smallConfig (combinedDevice steadyRuntime) lruScorer (twoRows true)
      staleBuilder).2.orchestrator.store.residency ⟨requestB, 0⟩ = true := by decide +kernel
  have hindices : (build smallConfig (combinedDevice steadyRuntime) lruScorer (twoRows true)
      staleBuilder).2.indices = [3, 5] := by decide +kernel
  obtain ⟨_, b', hrun, _⟩ := Eff.exists_of_toOption hreturns
  rw [hrun] at hcpu hindices
  refine ⟨b', hrun, hcpu, hindices, fun hloud => ?_⟩
  have hentry :=
    Eff.of_wp hloud hrun 1 (by decide) ⟨requestB, [5]⟩ rfl 0 (by decide) 0 (requiredPage_of_cpuResident hcpu)
  rw [hindices] at hentry
  exact absurd hentry (by decide)

end KVOffload

import KVOffload.OrchestratorSlots

/-! Data integrity over whole runs on the combined cache. A run is traced with a ghost record of the
bytes each block's page held when the block left the GPU; whatever happens in between, the CPU slot
of an offloaded block, and its staging page if it has one, give back exactly the recorded bytes. -/

namespace KVOffload
open Base

variable {α ν σ S : Type} [LinearOrder S] {L H N C : Nat}

/-- An orchestrator next to the ghost record. -/
structure Traced (α : Type) (L H N C : Nat) (σ : Type) where
  orch : Orchestrator (Memory α L H N C) σ
  saved : Recorded α L H N C

/-- A block that leaves the GPU is recorded with the bytes its page held before the operation. -/
def recordBytes (o o' : Orchestrator (Memory α L H N C) σ) (saved : Recorded α L H N C) : Recorded α L H N C :=
  fun ref =>
    match gpuPage o.store.residency ref, gpuPage o'.store.residency ref with
    | some page, none => some fun layer => o.store.mem.gpu layer page
    | _, _ => saved ref

section

variable (cfg : OrchestratorConfig) (runtime : Runtime (Memory α L H N C) (Memory α L H N C) ν S)
  (scorer : BlockScorer σ ν S)

def traceStep (t : Traced α L H N C σ) (op : Op (Memory α L H N C)) : Traced α L H N C σ where
  orch := step cfg (combinedDevice runtime) scorer t.orch op
  saved := recordBytes t.orch (step cfg (combinedDevice runtime) scorer t.orch op) t.saved

def Traced.init (x : σ) (mem : Memory α L H N C) : Traced α L H N C σ := ⟨Orchestrator.init cfg x mem, fun _ => none⟩

/-- Candidate lists have no repetitions, and others write neither the CPU cache nor staging pages. -/
structure Permitted (t : Traced α L H N C σ) (op : Op (Memory α L H N C)) : Prop where
  distinct : op.Distinct
  cpu : ∀ mem, op = .write mem → mem.cpu = t.orch.store.mem.cpu
  gpu : ∀ mem, op = .write mem → ∀ layer page, cfg.stagingBase ≤ page →
    mem.gpu layer page = t.orch.store.mem.gpu layer page

/-- The offloaded block at `loc` reads back as recorded, from its CPU slot and from its staging page. -/
structure Intact (t : Traced α L H N C σ) (ref : BlockRef) (loc : BlockLocation) : Prop where
  cpu : ∃ c bytes, loc.cpuSlot = some c ∧ t.saved ref = some bytes ∧
    ∀ layer, fetchLayout (t.orch.store.mem.cpu layer c) = bytes layer
  staging : loc.residency = .staging → ∃ slot bytes, loc.stagingSlot = some slot ∧ t.saved ref = some bytes ∧
    ∀ layer, t.orch.store.mem.gpu layer (cfg.stagingBase + slot) = bytes layer

end

section Transfer

variable {cfg : OrchestratorConfig} {runtime : Runtime (Memory α L H N C) (Memory α L H N C) ν S}

theorem HoldsRecorded.congr {saved saved' : Recorded α L H N C} {mem : Memory α L H N C} {ref : BlockRef} {c : Nat}
    {page : Option Nat} (h : HoldsRecorded saved mem ref c page) (heq : saved' ref = saved ref) :
    HoldsRecorded saved' mem ref c page := by
  obtain ⟨hrecorded, hslot, hstaged⟩ := h
  rw [← heq] at hrecorded hslot hstaged
  exact ⟨hrecorded, hslot, hstaged⟩

theorem StoreOk.rerecord {saved saved' : Recorded α L H N C} {s : Store (Memory α L H N C) σ}
    (h : StoreOk cfg (recordedBacking runtime saved) s)
    (heq : ∀ ref, gpuPage s.residency ref = none → saved' ref = saved ref) :
    StoreOk cfg (recordedBacking runtime saved') s := by
  obtain ⟨leaked, hguard, hinv⟩ := h
  refine ⟨leaked, hguard, hinv.cpuSlots, hinv.gpu_cpuSlot, hinv.stagingSlots, hinv.lru_iff, ?_⟩
  intro ref loc c hget hres hc
  have hpage : gpuPage s.residency ref = none := by simp [gpuPage, hget, hres]
  exact (hinv.backed ref loc c hget hres hc).congr (heq ref hpage)

/-- The record an offload that starts in `o` may rely on: every GPU block with the bytes of its page. -/
def recordAll (o : Orchestrator (Memory α L H N C) σ) (saved : Recorded α L H N C) : Recorded α L H N C := fun ref =>
  match gpuPage o.store.residency ref with
  | some page => some fun layer => o.store.mem.gpu layer page
  | none => saved ref

theorem recordAll_of_none {o : Orchestrator (Memory α L H N C) σ} {ref : BlockRef}
    (h : gpuPage o.store.residency ref = none) (saved : Recorded α L H N C) : recordAll o saved ref = saved ref := by
  rw [recordAll, h]

theorem recordBytes_of_none {o o' : Orchestrator (Memory α L H N C) σ} {ref : BlockRef}
    (h : gpuPage o'.store.residency ref = none) (saved : Recorded α L H N C) :
    recordBytes o o' saved ref = recordAll o saved ref := by
  rw [recordBytes, recordAll, h]
  cases gpuPage o.store.residency ref <;> rfl

theorem source_recordAll {o : Orchestrator (Memory α L H N C) σ} {saved : Recorded α L H N C} {ref : BlockRef}
    {page : Nat} (h : gpuPage o.store.residency ref = some page) :
    (recordedBacking runtime (recordAll o saved)).source o.store.mem ref page := by
  have hall : recordAll o saved ref = some fun layer => o.store.mem.gpu layer page := by rw [recordAll, h]
  refine ⟨by rw [hall]; rfl, fun bytes hbytes layer => ?_⟩
  rw [hall] at hbytes
  rw [← Option.some.inj hbytes]

theorem Permitted.holds {t : Traced α L H N C σ} {mem : Memory α L H N C} (h : Permitted cfg t (.write mem))
    {saved : Recorded α L H N C} {ref : BlockRef} {c : Nat} {slot : Option Nat}
    (hholds : HoldsRecorded saved t.orch.store.mem ref c (slot.map (cfg.stagingBase + ·))) :
    HoldsRecorded saved mem ref c (slot.map (cfg.stagingBase + ·)) := by
  refine ⟨hholds.recorded, fun bytes hbytes layer => ?_, fun bytes hbytes p hp layer => ?_⟩
  · rw [h.cpu mem rfl]
    exact hholds.slot bytes hbytes layer
  · obtain ⟨k, -, rfl⟩ := Option.map_eq_some_iff.mp hp
    rw [h.gpu mem rfl layer _ (Nat.le_add_right _ _)]
    exact hholds.staged bytes hbytes _ hp layer

end Transfer

section Runs

variable {cfg : OrchestratorConfig} {runtime : Runtime (Memory α L H N C) (Memory α L H N C) ν S}
  {scorer : BlockScorer σ ν S}

/-- One operation keeps every recorded byte. -/
theorem traceStep_ok {t : Traced α L H N C σ} (h : StoreOk cfg (recordedBacking runtime t.saved) t.orch.store)
    {op : Op (Memory α L H N C)} (hop : Permitted cfg t op) :
    StoreOk cfg (recordedBacking runtime (traceStep cfg runtime scorer t op).saved)
      (traceStep cfg runtime scorer t op).orch.store := by
  have hall : StoreOk cfg (recordedBacking runtime (recordAll t.orch t.saved)) t.orch.store :=
    h.rerecord fun ref hnone => recordAll_of_none hnone t.saved
  have hpost : StepPost cfg (recordedBacking runtime (recordAll t.orch t.saved)) scorer t.orch op
      (step cfg (combinedDevice runtime) scorer t.orch op) :=
    step_post hall hop.distinct fun _ ref page hpage => source_recordAll hpage
  have hok := hpost.storeOk hall fun mem heq ref c slot hholds => by
    subst heq
    exact hop.holds hholds
  exact hok.rerecord fun ref hnone => recordBytes_of_none hnone t.saved

theorem StoreOk.intact {t : Traced α L H N C σ} (h : StoreOk cfg (recordedBacking runtime t.saved) t.orch.store)
    {ref : BlockRef} {loc : BlockLocation} (hget : t.orch.store.residency.get ref = some loc)
    (hres : loc.residency ≠ .gpu) : Intact cfg t ref loc := by
  obtain ⟨leaked, -, hinv⟩ := h
  have hwf := t.orch.store.residency.wellFormed ref loc hget
  obtain ⟨c, hc⟩ := Option.isSome_iff_exists.mp (hwf.cpuSlot_isSome hres)
  have hholds : HoldsRecorded t.saved t.orch.store.mem ref c (loc.stagingSlot.map (cfg.stagingBase + ·)) :=
    hinv.backed ref loc c hget hres hc
  obtain ⟨bytes, hbytes⟩ := Option.isSome_iff_exists.mp hholds.recorded
  refine ⟨⟨c, bytes, hc, hbytes, hholds.slot bytes hbytes⟩, fun hstaging => ?_⟩
  obtain ⟨slot, hslot⟩ := Option.isSome_iff_exists.mp (hwf.stagingSlot_isSome.mpr hstaging)
  refine ⟨slot, bytes, hslot, hbytes, hholds.staged bytes hbytes _ ?_⟩
  rw [hslot]
  rfl

/-- In every run, every offloaded block reads back the bytes its GPU page held when it was offloaded. -/
theorem offloaded_bytes_intact (cfg : OrchestratorConfig)
    (runtime : Runtime (Memory α L H N C) (Memory α L H N C) ν S) (scorer : BlockScorer σ ν S) (x : σ)
    (mem : Memory α L H N C) {ops : List (Op (Memory α L H N C))}
    (hops : Along (traceStep cfg runtime scorer) (Permitted cfg) (Traced.init cfg x mem) ops) {ref : BlockRef}
    {loc : BlockLocation}
    (hget : (run (traceStep cfg runtime scorer) (Traced.init cfg x mem) ops).orch.store.residency.get ref = some loc)
    (hres : loc.residency ≠ .gpu) :
    Intact cfg (run (traceStep cfg runtime scorer) (Traced.init cfg x mem) ops) ref loc := by
  have hinit : StoreOk cfg (recordedBacking runtime (Traced.init cfg x mem).saved) (Traced.init cfg x mem).orch.store :=
    storeOk_init cfg _ x mem
  have hrun := run_invariant (I := fun t : Traced α L H N C σ =>
    StoreOk cfg (recordedBacking runtime t.saved) t.orch.store) (fun _ _ ht hop => traceStep_ok ht hop) hinit hops
  exact hrun.intact hget hres

end Runs

theorem permitted_of_ne_write {cfg : OrchestratorConfig} {t : Traced α L H N C σ} {op : Op (Memory α L H N C)}
    (hdistinct : op.Distinct) (hop : ∀ mem, op ≠ .write mem) : Permitted cfg t op :=
  ⟨hdistinct, fun mem heq => absurd heq (hop mem), fun mem heq => absurd heq (hop mem)⟩

/-- Every page holds its own number. -/
def numberedMemory : SmallMemory := ⟨fun _ page _ _ _ => page, fun _ _ _ _ _ _ => 0⟩

def offloadedState : Traced Nat 1 1 1 1 LruState :=
  let refs : List BlockRef := [⟨requestA, 0⟩, ⟨requestA, 1⟩]
  run (traceStep smallConfig faultyRuntime lruScorer) (Traced.init smallConfig ⟨.empty, 0⟩ numberedMemory)
    [.sync requestA [3, 5] 4, .offloadFraction refs (1 / 2) refs.toFinset, .offloadFraction refs (1 / 2) refs.toFinset]

/-- Page 3 is given to somebody else after the offload. -/
def overwrittenMemory : SmallMemory :=
  { offloadedState.orch.store.mem with
    gpu := fun layer page => if page = 3 then fun _ _ _ => 99 else offloadedState.orch.store.mem.gpu layer page }

def integrityScenario : List (Op SmallMemory) :=
  let refs : List BlockRef := [⟨requestA, 0⟩, ⟨requestA, 1⟩]
  [.sync requestA [3, 5] 4, .offloadFraction refs (1 / 2) refs.toFinset, .offloadFraction refs (1 / 2) refs.toFinset,
    .write overwrittenMemory, .ensureResident refs, .ensureResident refs]

theorem integrityScenario_permitted :
    Along (traceStep smallConfig faultyRuntime lruScorer) (Permitted smallConfig)
      (Traced.init smallConfig ⟨.empty, 0⟩ numberedMemory) integrityScenario := by
  refine ⟨permitted_of_ne_write True.intro (by simp), permitted_of_ne_write (by simp [Op.Distinct]) (by simp),
    permitted_of_ne_write (by simp [Op.Distinct]) (by simp), ⟨True.intro, ?_, ?_⟩,
    permitted_of_ne_write True.intro (by simp), permitted_of_ne_write True.intro (by simp), True.intro⟩
  · rintro mem ⟨rfl⟩
    rfl
  · rintro mem ⟨rfl⟩ layer page hpage
    have hne : page ≠ 3 := by
      rintro rfl
      exact absurd hpage (by decide)
    exact if_neg hne

theorem offloaded_bytes_intact_integrityScenario :
    Intact smallConfig (run (traceStep smallConfig faultyRuntime lruScorer)
        (Traced.init smallConfig ⟨.empty, 0⟩ numberedMemory) integrityScenario) ⟨requestA, 0⟩
      { residency := .staging, gpuBlockId := some 3, cpuSlot := some 0, stagingSlot := some 0, complete := true } :=
  offloaded_bytes_intact smallConfig faultyRuntime lruScorer ⟨.empty, 0⟩ numberedMemory integrityScenario_permitted
    (by decide +kernel) (by decide)

end KVOffload

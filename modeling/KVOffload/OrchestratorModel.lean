import KVOffload.SelectionAdapter
import KVOffload.StoreStaging

/-! The orchestrator: per-request bookkeeping over the store, the decode-token controller, and the
operations the scheduler and the attention backend call. -/

namespace KVOffload
open Base

/-- `KVCompressionController`: decode-token counters of the requests whose prefill is complete. -/
structure Controller where
  started : Finset RequestId
  decodeTokens : OrderedDict RequestId Int

namespace Controller

def init : Controller := ⟨∅, .empty⟩

def onPrefillComplete (c : Controller) (requestId : RequestId) : Controller :=
  ⟨insert requestId c.started, c.decodeTokens.set requestId 0⟩

/-- Whether a request that has decoded `n` tokens triggers an offload pass. -/
def shouldTrigger (window : Nat) (n : Int) : Bool := 0 < n ∧ n % window = 0

/-- `on_decode`. -/
def onDecode (window : Nat) (c : Controller) (requestId : RequestId) (numTokens : Int) :
    Except PyError Bool × Controller :=
  if requestId ∉ c.started then (.ok false, c)
  else if numTokens < 0 then (.error .negativeTokens, c)
  else
    let n := (c.decodeTokens.get? requestId).getD 0 + numTokens
    (.ok (shouldTrigger window n), { c with decodeTokens := c.decodeTokens.set requestId n })

def remove (c : Controller) (requestId : RequestId) : Controller :=
  ⟨c.started.erase requestId, c.decodeTokens.erase requestId⟩

end Controller

structure Orchestrator (μ σ : Type) where
  store : Store μ σ
  requestBlocks : OrderedDict RequestId (List BlockRef)
  scored : Finset BlockRef
  controller : Controller
  sparseMode : Bool
  trueFreeing : Bool
  /-- CPU version the lag prefetch saw last. -/
  lagSeenCpuVersion : Nat

abbrev OrchestratorM (μ σ : Type) := Eff (Orchestrator μ σ) PyError

section

variable {μ φ ν σ S : Type} [LinearOrder S]

def Orchestrator.init (cfg : OrchestratorConfig) (scorer : σ) (mem : μ) : Orchestrator μ σ where
  store := Store.init cfg scorer mem
  requestBlocks := .empty
  scored := ∅
  controller := .init
  sparseMode := true
  trueFreeing := false
  lagSeenCpuVersion := 0

/-- A store program inside the orchestrator. -/
def onStore {α : Type} (m : StoreM μ σ α) : OrchestratorM μ σ α :=
  Eff.zoom Orchestrator.store (fun o s => { o with store := s }) m

/-- One iteration of the first loop of `sync_request_blocks`. An offloaded block keeps its CPU copy
and never rebinds to a GPU page. -/
def syncBlock (cfg : OrchestratorConfig) (requestId : RequestId) (numComputedTokens : Nat) (e : Nat × Nat) :
    StoreM μ σ Unit := do
  let ref : BlockRef := ⟨requestId, e.2⟩
  let complete := decide ((e.2 + 1) * cfg.pageSize ≤ numComputedTokens)
  let s ← Eff.read
  match s.residency.get ref with
  | none => Eff.modify fun s => { s with residency := s.residency.markGpu ref e.1 complete }
  | some old =>
      if old.residency = .gpu ∧ old.gpuBlockId ≠ some e.1 then
        Eff.modify fun s => { s with residency := s.residency.markGpu ref e.1 complete }
      else if complete && !old.complete then markComplete ref
      else pure ()

/-- The complete GPU blocks among `refs` that have no score yet, with their pages. -/
def unscoredComplete (o : Orchestrator μ σ) (refs : List BlockRef) : List (BlockRef × Nat) :=
  (refsWithGpu o.store.residency refs).filter fun e =>
    isGpuComplete o.store.residency e.1 && decide (e.1 ∉ o.scored)

/-- Marks the collected blocks as scored, then scores them in one batch. -/
def scoreCollected (dev : Device μ φ ν S) (scorer : BlockScorer σ ν S) (toScore : List (BlockRef × Nat)) :
    OrchestratorM μ σ Unit :=
  if toScore = [] then pure () else onStore (scoreBlocks dev scorer (toScore.map Prod.fst) (toScore.map Prod.snd))

/-- The logical blocks of a list of `n` pages. -/
def blockRefs (requestId : RequestId) (n : Nat) : List BlockRef :=
  (List.range n).map fun i : Nat => ⟨requestId, i⟩

/-- The second half of `sync_request_blocks`: new tail blocks first, then the earlier ones that just
became complete. -/
def scoreSynced (dev : Device μ φ ν S) (scorer : BlockScorer σ ν S) (refs : List BlockRef) (prevCount : Nat) :
    OrchestratorM μ σ Unit := do
  let o ← Eff.read
  let toScore := unscoredComplete o (refs.drop prevCount ++ refs.take prevCount)
  Eff.modify fun o => { o with scored := o.scored ∪ (toScore.map Prod.fst).toFinset }
  Eff.forEach (toScore.map Prod.fst) fun ref => onStore (markComplete ref)
  scoreCollected dev scorer toScore

/-- `sync_request_blocks`. -/
def syncRequestBlocks (cfg : OrchestratorConfig) (dev : Device μ φ ν S) (scorer : BlockScorer σ ν S)
    (requestId : RequestId) (gpuBlockIds : List Nat) (numComputedTokens : Nat) : OrchestratorM μ σ (List BlockRef) :=
  if isWarmup requestId then pure []
  else do
    let o ← Eff.read
    let prevCount := ((o.requestBlocks.get? requestId).getD []).length
    let refs := blockRefs requestId gpuBlockIds.length
    Eff.forEach gpuBlockIds.zipIdx fun e => onStore (syncBlock cfg requestId numComputedTokens e)
    scoreSynced dev scorer refs prevCount
    Eff.modify fun o => { o with requestBlocks := o.requestBlocks.set requestId refs }
    pure refs

/-- One iteration of the loop of `on_prefill_complete`: a block that is full by now graduates. -/
def graduateBlock (cfg : OrchestratorConfig) (numComputedTokens : Nat) (ref : BlockRef)
    (toScore : List (BlockRef × Nat)) : OrchestratorM μ σ (List (BlockRef × Nat)) := fun o =>
  match o.store.residency.get ref with
  | none => (.ok toScore, o)
  | some loc =>
      if ¬(ref.blockIdx + 1) * cfg.pageSize ≤ numComputedTokens ∨ loc.complete then (.ok toScore, o)
      else
        match onStore (markComplete ref) o with
        | (.error e, o) => (.error e, o)
        | (.ok (), o) =>
            match gpuPage o.store.residency ref with
            | some page =>
                if ref ∈ o.scored then (.ok toScore, o)
                else (.ok (toScore ++ [(ref, page)]), { o with scored := insert ref o.scored })
            | none => (.ok toScore, o)

def graduateBlocks (cfg : OrchestratorConfig) (numComputedTokens : Nat) :
    List BlockRef → List (BlockRef × Nat) → OrchestratorM μ σ (List (BlockRef × Nat))
  | [], toScore => pure toScore
  | ref :: rest, toScore => do
      let toScore ← graduateBlock cfg numComputedTokens ref toScore
      graduateBlocks cfg numComputedTokens rest toScore

/-- `on_prefill_complete`. Completeness is per fill state, not per phase. -/
def onPrefillComplete (cfg : OrchestratorConfig) (dev : Device μ φ ν S) (scorer : BlockScorer σ ν S)
    (requestId : RequestId) (numComputedTokens : Nat) : OrchestratorM μ σ Unit := do
  let o ← Eff.read
  if isWarmup requestId || !o.sparseMode then pure ()
  else
    let toScore ← graduateBlocks cfg numComputedTokens ((o.requestBlocks.get? requestId).getD []) []
    scoreCollected dev scorer toScore

def onController {α : Type} (f : Controller → Except PyError α × Controller) : OrchestratorM μ σ α := fun o =>
  ((f o.controller).1, { o with controller := (f o.controller).2 })

/-- The counting loop of `on_decode_step`: whether some request triggered. -/
def countDecodes (cfg : OrchestratorConfig) (numTokens : Int) : List RequestId → Bool → OrchestratorM μ σ Bool
  | [], triggered => pure triggered
  | r :: rest, triggered => do
      let t ← onController fun c => c.onDecode cfg.window r numTokens
      countDecodes cfg numTokens rest (triggered || t)

/-- `on_decode_step`. -/
def onDecodeStep (cfg : OrchestratorConfig) (dev : Device μ φ ν S) (scorer : BlockScorer σ ν S)
    (requestIds : List RequestId) (numTokens : Int) : OrchestratorM μ σ (List BlockRef) := do
  let triggered ← countDecodes cfg numTokens requestIds false
  if !triggered then pure []
  else
    let o ← Eff.read
    onStore (offloadFraction dev scorer (o.store.residency.allGpuBlocks true) cfg.offloadFraction o.scored)

/-- Whether the block's only backing store is its CPU copy. -/
def isCpuResident (t : ResidencyTable) (ref : BlockRef) : Bool := isCpu (t.get ref)

/-- `prepare_staging`: skipped when no block entered or left CPU-only residency since the last pass. -/
def prepareStaging (cfg : OrchestratorConfig) (dev : Device μ φ ν S) (scorer : BlockScorer σ ν S)
    (requestIds : List RequestId) (pattern : SparsePattern) : OrchestratorM μ σ (OrderedDict BlockRef Nat) := do
  let o ← Eff.read
  let version := o.store.residency.cpuVersion
  if version = o.lagSeenCpuVersion then pure .empty
  else
    Eff.modify fun o => { o with lagSeenCpuVersion := version }
    match collectNeededBlockRefs requestIds pattern cfg.pageSize with
    | .error e => Eff.raise e
    | .ok needed => do
        let staged ← onStore (ensureResident cfg dev scorer (needed.filter (isCpuResident o.store.residency)))
        pure staged.1

/-- `note_selection`, which ignores the valid lengths of the pattern. -/
def noteSelection (scorer : BlockScorer σ ν S) (requestIds : List RequestId) (pattern : SparsePattern)
    (pageSize : Nat) (o : Orchestrator μ σ) : Orchestrator μ σ :=
  match scorer.noteUsage with
  | none => o
  | some note =>
      if pattern.numHeads = 0 ∨ pattern.width = 0 ∨ pageSize = 0 ∨ requestIds.length < pattern.rows.length then o
      else
        let noted := (requestIds.zip pattern.rows).foldl
          (fun s e => note s e.1 (e.2.blocks pageSize pattern.width)) o.store.scorer
        { o with store := { o.store with scorer := noted } }

/-- `promote_hot_cpu_blocks`. -/
def promoteHotCpuBlocks (cfg : OrchestratorConfig) (dev : Device μ φ ν S) (scorer : BlockScorer σ ν S)
    (requestId : RequestId) (maxCount : Int) : OrchestratorM μ σ (OrderedDict BlockRef Nat) := do
  let o ← Eff.read
  let t := o.store.residency
  let refs := (t.refsForRequest requestId).filter (isCpuResident t)
  if maxCount ≤ 0 || !o.sparseMode || refs.isEmpty then pure .empty
  else
    let scored := scorer.scores o.store.scorer refs
    Eff.modify fun o => { o with store := { o.store with scorer := scored.2 } }
    let picked := (dev.argsortDescending (refs.zip scored.1)).take maxCount.toNat
    let staged ← onStore (ensureResident cfg dev scorer picked)
    pure staged.1

/-- The body of the loop of `_cleanup_request`. -/
def cleanupBlock (scorer : BlockScorer σ ν S) (ref : BlockRef) : OrchestratorM μ σ Unit := do
  onStore (release ref)
  Eff.modify fun o => { o with store := freeBlock scorer ref o.store, scored := o.scored.erase ref }

/-- `_cleanup_request`. -/
def cleanupRequest (scorer : BlockScorer σ ν S) (requestId : RequestId) : OrchestratorM μ σ Unit := do
  let o ← Eff.read
  Eff.modify fun o => { o with requestBlocks := o.requestBlocks.erase requestId }
  Eff.forEach ((o.requestBlocks.get? requestId).getD []) (cleanupBlock scorer)
  Eff.modify fun o => { o with controller := o.controller.remove requestId }

def onRequestDone (scorer : BlockScorer σ ν S) (requestId : RequestId) : OrchestratorM μ σ Unit :=
  cleanupRequest scorer requestId

def onRequestPreempted (scorer : BlockScorer σ ν S) (requestId : RequestId) : OrchestratorM μ σ Unit :=
  cleanupRequest scorer requestId

end

end KVOffload

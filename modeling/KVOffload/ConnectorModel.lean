import KVOffload.OrchestratorModel
import KVOffload.VllmBlockPool

/-! The scheduler side of the connector. Once per step it is told what vLLM scheduled: it mirrors the
block tables, decides when an offload pass is due, and hands the blocks a pass moved to the worker as
one store event. When the worker reports the event complete, the pages are taken out of vLLM's block
tables and freed.

The block pool and the block tables belong to vLLM, which changes them between two steps; the connector
reads both and writes them when it frees pages. -/

namespace KVOffload
open Base

structure ConnectorConfig extends OrchestratorConfig where
  /-- `_true_free_enabled` -/
  trueFree : Bool
  promotePerStep : Nat
  /-- `_expected_worker_count` -/
  worldSize : Nat
  offloadFraction_nonneg : 0 ≤ offloadFraction
  offloadFraction_lt_one : offloadFraction < 1

structure NewRequestData where
  requestId : RequestId
  blockIds : List Nat
  numComputedTokens : Nat
  promptLen : Nat

/-- One request of `scheduled_cached_reqs`. -/
structure CachedRequestData where
  requestId : RequestId
  numComputedTokens : Nat
  /-- Only the new tail blocks, or `None`; the whole list if the request is resumed. -/
  newBlockIds : Option (List Nat)
  resumed : Bool

structure SchedulerOutput where
  newReqs : List NewRequestData
  cachedReqs : List CachedRequestData
  /-- 0 for a request that has no entry. -/
  numScheduledTokens : RequestId → Nat

/-- Blocks moved to the CPU with the pages they came from and their blocks in the shadow pool. -/
structure StoreBatch where
  refs : List BlockRef
  gpuBlockIds : List Nat
  cpuBlockIds : List Nat
  requestIds : Finset RequestId
  deriving DecidableEq

/-- The batches of one step as one. -/
def StoreBatch.join (batches : List StoreBatch) : StoreBatch where
  refs := batches.flatMap (·.refs)
  gpuBlockIds := batches.flatMap (·.gpuBlockIds)
  cpuBlockIds := batches.flatMap (·.cpuBlockIds)
  requestIds := batches.foldr (fun batch rs => batch.requestIds ∪ rs) ∅

/-- `OffloadPackageMetadata`; an event that is not set is `none`. -/
structure OffloadPackageMetadata where
  requestIds : List RequestId := []
  loadEvent : Option Nat := none
  storeEvent : Option (Nat × StoreBatch) := none

structure ConnectorState (μ σ : Type) where
  orchestrator : Orchestrator μ σ
  gpuBlockPool : BlockPool
  /-- vLLM's block tables. -/
  reqToBlocks : OrderedDict RequestId (List Nat)
  /-- The shadow pool, which has a null block of its own. -/
  cpuBlockPool : BlockPool
  controller : Controller
  storeEventCounter : Nat
  loadEventCounter : Nat
  storeEventPendingCounts : OrderedDict Nat Nat
  prefillCompleted : Finset RequestId
  promptLens : OrderedDict RequestId Nat
  stepStoreAcc : List StoreBatch
  pendingStoreEvents : OrderedDict Nat StoreBatch
  /-- The connector's mirror of the block tables. -/
  reqBlockTable : OrderedDict RequestId (List Nat)

/-- What a run did, for stating properties of runs; no decision depends on it. -/
inductive TraceEvent (μ σ : Type) where
  /-- The scheduler reported the request with this many computed tokens. -/
  | reported (requestId : RequestId) (numComputedTokens : Nat)
  /-- An offload pass returned `offloaded`; `before` is the state in which it was called. -/
  | offloaded (before : ConnectorState μ σ) (offloaded : List BlockRef)
  | flushed (event : Nat) (batch : StoreBatch)
  /-- `on_decode` was called for the request. -/
  | decoded (requestId : RequestId) (numTokens : Nat)
  | finished (requestId : RequestId)

structure Connector (μ σ : Type) extends ConnectorState μ σ where
  trace : List (TraceEvent μ σ)

abbrev ConnectorM (μ σ : Type) := Eff (Connector μ σ) PyError

section

variable {μ φ ν σ S : Type} [LinearOrder S]

def Connector.init (cfg : ConnectorConfig) (scorer : σ) (mem : μ) (gpuBlockPool : BlockPool) : Connector μ σ where
  orchestrator := Orchestrator.init cfg.toOrchestratorConfig scorer mem
  gpuBlockPool := gpuBlockPool
  reqToBlocks := .empty
  cpuBlockPool := BlockPool.init cfg.numCpuSlots true
  controller := .init
  storeEventCounter := 0
  loadEventCounter := 0
  storeEventPendingCounts := .empty
  prefillCompleted := ∅
  promptLens := .empty
  stepStoreAcc := []
  pendingStoreEvents := .empty
  reqBlockTable := .empty
  trace := []

/-- An orchestrator program inside the connector. -/
def onOrchestrator {α : Type} (m : OrchestratorM μ σ α) : ConnectorM μ σ α :=
  Eff.zoom (fun c => c.orchestrator) (fun c o => { c with orchestrator := o }) m

/-- The complete GPU blocks that a pass may take. With true freeing only sole-owned pages qualify: a
page shared through the prefix cache must not be freed under one request's block. -/
def allowedBlocks (cfg : ConnectorConfig) (c : ConnectorState μ σ) : List BlockRef :=
  let complete := c.orchestrator.store.residency.allGpuBlocks true
  if cfg.trueFree then
    complete.filter fun ref =>
      ((c.orchestrator.store.residency.get ref).bind (·.gpuBlockId)).any fun page => c.gpuBlockPool.refCnt page = 1
  else complete

/-- Scores every allowed block anew. They enter the scored set only once the pass is through. -/
def rescore (dev : Device μ φ ν S) (scorer : BlockScorer σ ν S) (allowed : List BlockRef) :
    OrchestratorM μ σ Unit := do
  let o ← Eff.read
  let toScore := refsWithGpu o.store.residency allowed
  if toScore = [] then pure ()
  else
    Eff.forEach (toScore.map Prod.fst) fun ref => onStore (markComplete ref)
    onStore (scoreBlocks dev scorer (toScore.map Prod.fst) (toScore.map Prod.snd))
    Eff.modify fun o => { o with scored := o.scored ∪ (toScore.map Prod.fst).toFinset }

/-- The pages recorded for `refs`, whatever their residency. -/
def recordedPages (t : ResidencyTable) (refs : List BlockRef) : List Nat :=
  refs.filterMap fun ref => (t.get ref).bind (·.gpuBlockId)

/-- The second half of `_trigger_global_offload`: blocks that are on the CPU by now get a block of the
shadow pool, which raises if it has too few. -/
def queueStore (offloaded : List BlockRef) : ConnectorM μ σ Unit := fun c =>
  match c.cpuBlockPool.getNewBlocks offloaded.length with
  | (.error e, pool) => (.error e, { c with cpuBlockPool := pool })
  | (.ok cpuBlockIds, pool) =>
      let gpuBlockIds := recordedPages c.orchestrator.store.residency offloaded
      if gpuBlockIds.length ≠ offloaded.length then (.ok (), { c with cpuBlockPool := pool })
      else
        let stamped := (cpuBlockIds.zip gpuBlockIds).filter fun e => e.2 ∈ c.gpuBlockPool.hashed
        (.ok (),
          { c with
            cpuBlockPool := { pool with hashed := pool.hashed ∪ (stamped.map Prod.fst).toFinset }
            stepStoreAcc := c.stepStoreAcc ++
              [⟨offloaded, gpuBlockIds, cpuBlockIds, (offloaded.map (·.requestId)).toFinset⟩] })

/-- `_trigger_global_offload`. -/
def triggerGlobalOffload (cfg : ConnectorConfig) (dev : Device μ φ ν S) (scorer : BlockScorer σ ν S) :
    ConnectorM μ σ Unit := do
  let start ← Eff.read
  let allowed := allowedBlocks cfg start.toConnectorState
  onOrchestrator (rescore dev scorer allowed)
  let c ← Eff.read
  let offloaded ← onOrchestrator (onStore
    (offloadFraction dev scorer allowed cfg.offloadFraction c.orchestrator.scored))
  Eff.modify fun c' => { c' with trace := c'.trace ++ [.offloaded c.toConnectorState offloaded] }
  if offloaded = [] then pure () else queueStore offloaded

/-- Mirrors the block list of a request and syncs it. -/
def syncBlockTable (cfg : ConnectorConfig) (dev : Device μ φ ν S) (scorer : BlockScorer σ ν S) (requestId : RequestId)
    (blockIds : List Nat) (numComputedTokens : Nat) : ConnectorM μ σ Unit := do
  Eff.modify fun c => { c with reqBlockTable := c.reqBlockTable.set requestId blockIds }
  let _ ← onOrchestrator (syncRequestBlocks cfg.toOrchestratorConfig dev scorer requestId blockIds numComputedTokens)
  pure ()

/-- The body of the first loop of `build_connector_meta`. -/
def trackNew (cfg : ConnectorConfig) (dev : Device μ φ ν S) (scorer : BlockScorer σ ν S) (req : NewRequestData) :
    ConnectorM μ σ Unit := do
  syncBlockTable cfg dev scorer req.requestId req.blockIds req.numComputedTokens
  Eff.modify fun c =>
    { c with
      controller :=
        if req.requestId ∈ c.prefillCompleted then c.controller else c.controller.onPrefillComplete req.requestId
      promptLens := c.promptLens.set req.requestId req.promptLen }

/-- The full block list of a cached request, as the model runner has it. -/
def fullBlockIds (c : ConnectorState μ σ) (req : CachedRequestData) : List Nat :=
  if req.resumed then req.newBlockIds.getD []
  else (c.reqBlockTable.get? req.requestId).getD [] ++ req.newBlockIds.getD []

/-- A request whose prefill just became complete. -/
def completePrefill (cfg : ConnectorConfig) (dev : Device μ φ ν S) (scorer : BlockScorer σ ν S)
    (requestId : RequestId) (numComputedTokens : Nat) : ConnectorM μ σ Unit := do
  Eff.modify fun c => { c with prefillCompleted := insert requestId c.prefillCompleted }
  onOrchestrator (onPrefillComplete cfg.toOrchestratorConfig dev scorer requestId numComputedTokens)
  triggerGlobalOffload cfg dev scorer

/-- The prefill check of the second loop. -/
def checkPrefill (cfg : ConnectorConfig) (dev : Device μ φ ν S) (scorer : BlockScorer σ ν S)
    (req : CachedRequestData) : ConnectorM μ σ Unit := do
  let c ← Eff.read
  let promptLen := (c.promptLens.get? req.requestId).getD 0
  if 0 < promptLen ∧ promptLen ≤ req.numComputedTokens ∧ req.requestId ∉ c.prefillCompleted then
    completePrefill cfg dev scorer req.requestId req.numComputedTokens
  else pure ()

def onConnectorController {α : Type} (f : Controller → Except PyError α × Controller) : ConnectorM μ σ α := fun c =>
  ((f c.controller).1, { c with controller := (f c.controller).2 })

/-- Counts the tokens of a request in decode; every `window` tokens of it an offload pass is due. -/
def countDecode (cfg : ConnectorConfig) (dev : Device μ φ ν S) (scorer : BlockScorer σ ν S) (requestId : RequestId)
    (numScheduled : Nat) : ConnectorM μ σ Unit := do
  let c ← Eff.read
  if 0 < numScheduled ∧ requestId ∈ c.prefillCompleted then
    Eff.modify fun c => { c with trace := c.trace ++ [.decoded requestId numScheduled] }
    let shouldOffload ← onConnectorController fun k => k.onDecode cfg.window requestId numScheduled
    if shouldOffload then triggerGlobalOffload cfg dev scorer else pure ()
  else pure ()

/-- The body of the second loop. -/
def trackCached (cfg : ConnectorConfig) (dev : Device μ φ ν S) (scorer : BlockScorer σ ν S) (out : SchedulerOutput)
    (req : CachedRequestData) : ConnectorM μ σ Unit := do
  let c ← Eff.read
  syncBlockTable cfg dev scorer req.requestId (fullBlockIds c.toConnectorState req) req.numComputedTokens
  checkPrefill cfg dev scorer req
  countDecode cfg dev scorer req.requestId (out.numScheduledTokens req.requestId)

/-- The body of the third loop: a new request whose whole prompt is computed already. -/
def completeNew (cfg : ConnectorConfig) (dev : Device μ φ ν S) (scorer : BlockScorer σ ν S) (req : NewRequestData) :
    ConnectorM μ σ Unit := do
  let c ← Eff.read
  if req.promptLen ≤ req.numComputedTokens ∧ req.requestId ∉ c.prefillCompleted then
    completePrefill cfg dev scorer req.requestId req.numComputedTokens
  else pure ()

/-- `_get_active_decode_requests`. -/
def activeDecodeRequests (out : SchedulerOutput) (c : ConnectorState μ σ) : List RequestId :=
  (out.cachedReqs.map (·.requestId)).filter (· ∈ c.prefillCompleted)

/-- `_prepare_staging_loads`: a load event for the requests in decode, if there are any. -/
def prepareStagingLoads (active : List RequestId) : ConnectorM μ σ (Option Nat) := fun c =>
  if active = [] then (.ok none, c)
  else (.ok (some c.loadEventCounter), { c with loadEventCounter := c.loadEventCounter + 1 })

/-- Stages the hottest CPU blocks of every request in decode. -/
def promoteActive (cfg : ConnectorConfig) (dev : Device μ φ ν S) (scorer : BlockScorer σ ν S)
    (active : List RequestId) : ConnectorM μ σ Unit := do
  let c ← Eff.read
  if cfg.trueFree ∧ 0 < cfg.promotePerStep ∧ 0 < c.orchestrator.store.residency.numCpu then
    Eff.forEach active fun r => do
      let _ ← onOrchestrator (promoteHotCpuBlocks cfg.toOrchestratorConfig dev scorer r cfg.promotePerStep)
      pure ()
  else pure ()

/-- All batches of the step go into one store event. -/
def flushStores : ConnectorM μ σ (Option (Nat × StoreBatch)) := fun c =>
  if c.stepStoreAcc = [] then (.ok none, c)
  else
    let event := c.storeEventCounter
    let batch := StoreBatch.join c.stepStoreAcc
    (.ok (some (event, batch)),
      { c with
        stepStoreAcc := []
        storeEventCounter := event + 1
        pendingStoreEvents := c.pendingStoreEvents.set event batch
        storeEventPendingCounts := c.storeEventPendingCounts.set event 0
        trace := c.trace ++ [.flushed event batch] })

/-- The reports a scheduler output makes. -/
def SchedulerOutput.reports (out : SchedulerOutput) : List (RequestId × Nat) :=
  out.newReqs.map (fun req => (req.requestId, req.numComputedTokens)) ++
    out.cachedReqs.map fun req => (req.requestId, req.numComputedTokens)

def recordReports (out : SchedulerOutput) : ConnectorM μ σ Unit :=
  Eff.modify fun c => { c with trace := c.trace ++ out.reports.map fun e => .reported e.1 e.2 }

/-- `OffloadPackageScheduler.build_connector_meta`. -/
def buildConnectorMeta (cfg : ConnectorConfig) (dev : Device μ φ ν S) (scorer : BlockScorer σ ν S)
    (out : SchedulerOutput) : ConnectorM μ σ OffloadPackageMetadata := do
  recordReports out
  Eff.modify fun c => { c with orchestrator := { c.orchestrator with trueFreeing := cfg.trueFree } }
  Eff.forEach out.newReqs (trackNew cfg dev scorer)
  Eff.forEach out.cachedReqs (trackCached cfg dev scorer out)
  Eff.forEach out.newReqs (completeNew cfg dev scorer)
  let c ← Eff.read
  let active := activeDecodeRequests out c.toConnectorState
  let loadEvent ← prepareStagingLoads active
  promoteActive cfg dev scorer active
  let storeEvent ← flushStores
  pure { requestIds := active, loadEvent := loadEvent, storeEvent := storeEvent }

/-- `OffloadPackageConnector.build_connector_meta`: any failure is swallowed and reported as empty
metadata. -/
def connectorMeta (cfg : ConnectorConfig) (dev : Device μ φ ν S) (scorer : BlockScorer σ ν S) (out : SchedulerOutput) :
    ConnectorM μ σ OffloadPackageMetadata :=
  Eff.attempt (buildConnectorMeta cfg dev scorer out) fun _ => pure {}

/-- One iteration of the table surgery, with the pages freed so far. An entry that no longer points at
the offloaded page is left alone. -/
def freeEntry (e : BlockRef × Nat) (acc : ConnectorState μ σ × List Nat) : ConnectorState μ σ × List Nat :=
  let c := acc.1
  let r := e.1.requestId
  let i := e.1.blockIdx.toNat
  match c.reqToBlocks.get? r with
  | none => acc
  | some blocks =>
      if blocks[i]? = some e.2 then
        ({ c with
            reqToBlocks := c.reqToBlocks.set r (blocks.set i BlockPool.nullBlock)
            reqBlockTable :=
              match c.reqBlockTable.get? r with
              | some mirror => c.reqBlockTable.set r (mirror.set i BlockPool.nullBlock)
              | none => c.reqBlockTable },
          acc.2 ++ [e.2])
      else acc

/-- `_process_store_completion`. -/
def processStoreCompletion (cfg : ConnectorConfig) (event : Nat) (c : ConnectorState μ σ) : ConnectorState μ σ :=
  match c.pendingStoreEvents.get? event with
  | none => c
  | some batch =>
      let c :=
        { c with
          pendingStoreEvents := c.pendingStoreEvents.erase event
          cpuBlockPool := c.cpuBlockPool.freeBlocks batch.cpuBlockIds }
      if cfg.trueFree then
        let r := (batch.refs.zip batch.gpuBlockIds).foldl (fun acc e => freeEntry e acc) (c, [])
        { r.1 with gpuBlockPool := (r.1.gpuBlockPool.evictBlocks r.2).freeBlocks r.2 }
      else c

/-- One entry of `completed_store_events`. -/
def countCompletion (cfg : ConnectorConfig) (c : ConnectorState μ σ) (e : Nat × Nat) : ConnectorState μ σ :=
  let count := (c.storeEventPendingCounts.get? e.1).getD 0 + e.2
  let c := { c with storeEventPendingCounts := c.storeEventPendingCounts.set e.1 count }
  if cfg.worldSize ≤ count then
    let c := processStoreCompletion cfg e.1 c
    { c with storeEventPendingCounts := c.storeEventPendingCounts.erase e.1 }
  else c

/-- The store half of `update_connector_output`. -/
def updateConnectorOutput (cfg : ConnectorConfig) (completed : List (Nat × Nat)) (c : Connector μ σ) :
    Connector μ σ :=
  { c with toConnectorState := completed.foldl (countCompletion cfg) c.toConnectorState }

/-- `request_finished`. Store events that are pending or still to be flushed keep the request's blocks. -/
def requestFinished (scorer : BlockScorer σ ν S) (requestId : RequestId) : ConnectorM μ σ Unit := do
  onOrchestrator (onRequestDone scorer requestId)
  Eff.modify fun c =>
    { c with
      controller := c.controller.remove requestId
      prefillCompleted := c.prefillCompleted.erase requestId
      reqBlockTable := c.reqBlockTable.erase requestId
      promptLens := c.promptLens.erase requestId
      trace := c.trace ++ [.finished requestId] }

end

end KVOffload

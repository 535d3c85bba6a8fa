import KVOffload.ConnectorRuns

/-! The store-completion protocol. The scheduler hands each step's metadata to every worker; a worker
records a CUDA event for the store event it names and reports it once it has seen it complete; reports
are summed on their way back, in any grouping, and counted by the scheduler, which frees the pages of an
event when the count reaches the number of workers.

The worker's load half has no part in this: no load event is ever made pending, so a report never holds
a completed load. -/

namespace KVOffload
open Base

/-- The order in which the runtime iterates a set. -/
structure SetOrder where
  toList : Finset Nat → List Nat
  nodup : ∀ s, (toList s).Nodup
  mem_toList : ∀ s x, x ∈ toList s ↔ x ∈ s

/-- An entry of `_store_events`. -/
structure RecordedEvent where
  eventIdx : Nat
  /-- `event.query()` -/
  complete : Bool

/-- The store half of `OffloadPackageWorker`. -/
structure StoreWorker where
  storeEvents : List RecordedEvent
  storeHwm : Int
  pendingStoreEventIndices : Finset Nat
  completedStoreEvents : OrderedDict Nat Nat

namespace StoreWorker

def init : StoreWorker := ⟨[], -1, ∅, .empty⟩

/-- `wait_for_save`. The copies are done; an event only marks the point. -/
def waitForSave (metadata : OffloadPackageMetadata) (w : StoreWorker) : StoreWorker :=
  match metadata.storeEvent with
  | none => w
  | some (event, batch) =>
      if batch.gpuBlockIds = [] then w
      else
        { w with
          storeEvents := w.storeEvents ++ [⟨event, false⟩]
          pendingStoreEventIndices := insert event w.pendingStoreEventIndices }

/-- The loop of `_poll_events`: complete events leave at the front, up to the first one that is not. -/
def pollEvents : List RecordedEvent → Int → Int × List RecordedEvent
  | [], hwm => (hwm, [])
  | e :: rest, hwm => if e.complete then pollEvents rest e.eventIdx else (hwm, e :: rest)

/-- The store half of `get_finished`. -/
def getFinished (order : SetOrder) (w : StoreWorker) : StoreWorker :=
  if w.pendingStoreEventIndices = ∅ then w
  else
    let polled := pollEvents w.storeEvents w.storeHwm
    let finished := (order.toList w.pendingStoreEventIndices).filter fun j : Nat => (j : Int) ≤ polled.1
    { storeEvents := polled.2
      storeHwm := polled.1
      pendingStoreEventIndices := w.pendingStoreEventIndices \ finished.toFinset
      completedStoreEvents := finished.foldl (fun d j => d.set j 1) w.completedStoreEvents }

/-- `build_worker_meta`: what is reported is handed off. -/
def buildWorkerMeta (w : StoreWorker) : Option (OrderedDict Nat Nat) × StoreWorker :=
  if w.completedStoreEvents.items = [] then (none, w)
  else (some w.completedStoreEvents, { w with completedStoreEvents := .empty })

/-- A CUDA event completes. -/
def cudaDone (i : Nat) (w : StoreWorker) : StoreWorker :=
  { w with storeEvents := w.storeEvents.modify i fun e => { e with complete := true } }

end StoreWorker

/-- `OffloadPackageWorkerMetadata.aggregate`. -/
def aggregate (own other : OrderedDict Nat Nat) : OrderedDict Nat Nat :=
  other.items.foldl (fun merged e => merged.set e.1 ((merged.get? e.1).getD 0 + e.2)) own

/-- A report on its way. The parts say which worker saw which event complete, for stating properties of
runs; no decision depends on them. -/
structure Report (numWorkers : Nat) where
  completedStoreEvents : OrderedDict Nat Nat
  parts : List (Fin numWorkers × Nat)

/-- The scheduler, its workers and what is under way between them. -/
structure Protocol (numWorkers : Nat) (μ σ : Type) where
  connector : Connector μ σ
  /-- Metadata a worker has not handled yet, oldest first. -/
  inbox : Fin numWorkers → List OffloadPackageMetadata
  workers : Fin numWorkers → StoreWorker
  reports : List (Report numWorkers)
  /-- The events each worker has seen complete. Like the next two fields it is for stating properties. -/
  observed : Fin numWorkers → Finset Nat
  delivered : List (Fin numWorkers × Nat)
  /-- The events that took effect in `_process_store_completion`, in order. -/
  effects : List Nat

inductive ProtocolOp (numWorkers : Nat) (μ : Type) where
  /-- A scheduler step; its metadata goes to every worker. -/
  | build (out : SchedulerOutput)
  | finished (requestId : RequestId)
  | vllm (gpuBlockPool : BlockPool) (reqToBlocks : OrderedDict RequestId (List Nat))
  | worker (op : WorkerOp μ)
  /-- `wait_for_save` with the oldest metadata. -/
  | waitForSave (w : Fin numWorkers)
  /-- The CUDA event at position `i` completes. -/
  | cudaDone (w : Fin numWorkers) (i : Nat)
  | getFinished (w : Fin numWorkers) (order : SetOrder)
  | buildWorkerMeta (w : Fin numWorkers)
  /-- Report `i` takes in the one at position `j` of the others. -/
  | aggregate (i j : Nat)
  | deliver (i : Nat)

section

variable {μ φ ν σ S : Type} [LinearOrder S]

def Protocol.init (numWorkers : Nat) (c : Connector μ σ) : Protocol numWorkers μ σ where
  connector := c
  inbox _ := []
  workers _ := .init
  reports := []
  observed _ := ∅
  delivered := []
  effects := []

/-- The completion of `e` is the one that makes `_process_store_completion` run on a pending event. -/
def TakesEffect (cfg : ConnectorConfig) (c : ConnectorState μ σ) (e : Nat × Nat) : Prop :=
  cfg.worldSize ≤ (c.storeEventPendingCounts.get? e.1).getD 0 + e.2 ∧ (c.pendingStoreEvents.get? e.1).isSome

instance (cfg : ConnectorConfig) (c : ConnectorState μ σ) (e : Nat × Nat) : Decidable (TakesEffect cfg c e) :=
  inferInstanceAs (Decidable (_ ∧ _))

/-- `countCompletion` with the list of events that took effect. -/
def countLogged (cfg : ConnectorConfig) (acc : ConnectorState μ σ × List Nat) (e : Nat × Nat) :
    ConnectorState μ σ × List Nat :=
  (countCompletion cfg acc.1 e, if TakesEffect cfg acc.1 e then acc.2 ++ [e.1] else acc.2)

/-- The metadata of a scheduler step. -/
def builtMetadata (cfg : ConnectorConfig) (dev : Device μ φ ν S) (scorer : BlockScorer σ ν S) (out : SchedulerOutput)
    (c : Connector μ σ) : OffloadPackageMetadata :=
  ((connectorMeta cfg dev scorer out c).1.toOption).getD {}

variable (cfg : ConnectorConfig) (dev : Device μ φ ν S) (scorer : BlockScorer σ ν S)

def protocolStep (s : Protocol cfg.worldSize μ σ) : ProtocolOp cfg.worldSize μ → Protocol cfg.worldSize μ σ
  | .build out =>
      { s with
        connector := connectorStep cfg dev scorer s.connector (.build out)
        inbox := fun w => s.inbox w ++ [builtMetadata cfg dev scorer out s.connector] }
  | .finished r => { s with connector := connectorStep cfg dev scorer s.connector (.finished r) }
  | .vllm pool tables => { s with connector := connectorStep cfg dev scorer s.connector (.vllm pool tables) }
  | .worker op => { s with connector := connectorStep cfg dev scorer s.connector (.worker op) }
  | .waitForSave w =>
      match s.inbox w with
      | [] => s
      | metadata :: rest =>
          { s with
            inbox := Function.update s.inbox w rest
            workers := Function.update s.workers w ((s.workers w).waitForSave metadata) }
  | .cudaDone w i => { s with workers := Function.update s.workers w ((s.workers w).cudaDone i) }
  | .getFinished w order =>
      let worker := s.workers w
      -- What the poll takes off the queue of a worker that has anything pending.
      let seen :=
        if worker.pendingStoreEventIndices = ∅ then []
        else (worker.storeEvents.takeWhile (·.complete)).map (·.eventIdx)
      { s with
        workers := Function.update s.workers w (worker.getFinished order)
        observed := Function.update s.observed w (s.observed w ∪ seen.toFinset) }
  | .buildWorkerMeta w =>
      match (s.workers w).buildWorkerMeta with
      | (none, _) => s
      | (some completed, worker) =>
          { s with
            workers := Function.update s.workers w worker
            reports := s.reports ++ [⟨completed, completed.keys.map (w, ·)⟩] }
  | .aggregate i j =>
      match s.reports[i]?, (s.reports.eraseIdx i)[j]? with
      | some own, some other =>
          { s with
            reports := ⟨aggregate own.completedStoreEvents other.completedStoreEvents, own.parts ++ other.parts⟩ ::
              (s.reports.eraseIdx i).eraseIdx j }
      | _, _ => s
  | .deliver i =>
      match s.reports[i]? with
      | none => s
      | some report =>
          { s with
            connector := connectorStep cfg dev scorer s.connector (.update report.completedStoreEvents.items)
            reports := s.reports.eraseIdx i
            delivered := s.delivered ++ report.parts
            effects :=
              (report.completedStoreEvents.items.foldl (countLogged cfg) (s.connector.toConnectorState, s.effects)).2 }

end

end KVOffload

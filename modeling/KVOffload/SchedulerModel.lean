import KVOffload.VllmTables

/-! vLLM's scheduler around the connector. Which requests get tokens, which are preempted and which are
admitted is left open. What follows from such a choice is not: the pages a request gets, what the scheduler
output reports of them, and when the connector is called. A running request is reported with the pages it
got in this step only; a request that was admitted, for the first time or again, with its whole table. -/

namespace KVOffload
open Base

variable {μ φ ν σ S : Type} [LinearOrder S]

structure SchedulerConfig extends ConnectorConfig where
  numLookaheadTokens : Nat
  useV2ModelRunner : Bool

inductive RequestStatus where
  | waiting
  | running
  | preempted
  deriving DecidableEq

structure VllmRequest where
  promptLen : Nat
  numComputedTokens : Nat
  status : RequestStatus

structure Scheduler (μ σ : Type) where
  connector : Connector μ σ
  requests : OrderedDict RequestId VllmRequest

namespace Scheduler

def init (cfg : SchedulerConfig) (x : σ) (mem : μ) (gpuBlockPool : BlockPool) : Scheduler μ σ :=
  ⟨Connector.init cfg.toConnectorConfig x mem gpuBlockPool, .empty⟩

/-- A member of `self.running`. -/
def IsRunning (s : Scheduler μ σ) (r : RequestId) : Prop := (s.requests.get? r).map (·.status) = some .running

instance (s : Scheduler μ σ) (r : RequestId) : Decidable (s.IsRunning r) :=
  inferInstanceAs (Decidable (_ = _))

/-- `allocate_slots` for the tokens of one step. Pages that become full in the step are cached. -/
def allocateSlots (cfg : SchedulerConfig) (s : Scheduler μ σ) (r : RequestId) (computedBlocks : List Nat)
    (numComputedTokens numNewTokens : Nat) : Option (List Nat × BlockManager) :=
  let m := s.connector.manager
  let numBlocks := (numComputedTokens + numNewTokens + cfg.numLookaheadTokens + (cfg.pageSize - 1)) / cfg.pageSize
  match m.allocateSlots r computedBlocks (numBlocks - ((m.table r).length + computedBlocks.length)) with
  | (none, _) => none
  | (some blocks, m) =>
      some (blocks,
        m.cacheBlocks r (numComputedTokens / cfg.pageSize) ((numComputedTokens + numNewTokens) / cfg.pageSize))

/-- `_preempt_request`. The connector is not told. -/
def preemptRequest (s : Scheduler μ σ) (r : RequestId) : Scheduler μ σ :=
  match s.requests.get? r with
  | none => s
  | some req =>
      if req.status = .running then
        ⟨s.connector.withManager (s.connector.manager.free r),
          s.requests.set r { req with numComputedTokens := 0, status := .preempted }⟩
      else s

end Scheduler

/-- A request that gets tokens in this step, with the pages that are reported. -/
structure ScheduledRequest where
  requestId : RequestId
  promptLen : Nat
  numComputedTokens : Nat
  numNewTokens : Nat
  blockIds : List Nat

/-- `get_block_ids(allow_none=True)` -/
def ScheduledRequest.newBlockIds (e : ScheduledRequest) : Option (List Nat) :=
  if e.blockIds = [] then none else some e.blockIds

/-- A call of `schedule` under way. -/
structure SchedulePass (μ σ : Type) where
  scheduler : Scheduler μ σ
  running : List ScheduledRequest
  new : List ScheduledRequest
  resumed : List ScheduledRequest
  preempted : List RequestId

inductive RunningChoice where
  | run (requestId : RequestId) (numNewTokens : Nat)
  /-- Also a request that was given tokens in this step already can be preempted. -/
  | preempt (requestId : RequestId)

structure Admission where
  requestId : RequestId
  /-- The blocks found in the prefix cache. -/
  computedBlocks : List Nat
  numNewTokens : Nat

structure SchedulePlan where
  running : List RunningChoice
  admissions : List Admission

namespace SchedulePass

def scheduled (p : SchedulePass μ σ) : List ScheduledRequest := p.running ++ p.new ++ p.resumed

def ids (p : SchedulePass μ σ) : List RequestId := p.scheduled.map (·.requestId)

/-- One choice of the loop over `self.running`; a request that cannot get its pages is not scheduled. -/
def scheduleRunning (cfg : SchedulerConfig) (p : SchedulePass μ σ) : RunningChoice → SchedulePass μ σ
  | .run r numNewTokens =>
      match p.scheduler.requests.get? r with
      | none => p
      | some req =>
          if req.status = .running ∧ r ∉ p.ids ∧ numNewTokens ≠ 0 then
            match p.scheduler.allocateSlots cfg r [] req.numComputedTokens numNewTokens with
            | none => p
            | some (blocks, m) =>
                { p with
                  scheduler := { p.scheduler with connector := p.scheduler.connector.withManager m }
                  running := p.running ++ [⟨r, req.promptLen, req.numComputedTokens, numNewTokens, blocks⟩] }
          else p
  | .preempt r =>
      if p.scheduler.IsRunning r then
        { p with
          scheduler := p.scheduler.preemptRequest r
          running := p.running.filter (·.requestId ≠ r)
          preempted := p.preempted ++ [r] }
      else p

/-- One round of the loop over the waiting requests, which is not entered if a request was preempted. -/
def scheduleWaiting (cfg : SchedulerConfig) (p : SchedulePass μ σ) (a : Admission) : SchedulePass μ σ :=
  match p.scheduler.requests.get? a.requestId with
  | none => p
  | some req =>
      if p.preempted = [] ∧ req.status ≠ .running ∧ a.numNewTokens ≠ 0 then
        let numComputedTokens := a.computedBlocks.length * cfg.pageSize
        match p.scheduler.allocateSlots cfg a.requestId a.computedBlocks numComputedTokens a.numNewTokens with
        | none => p
        | some (_, m) =>
            let e : ScheduledRequest :=
              ⟨a.requestId, req.promptLen, numComputedTokens, a.numNewTokens, m.table a.requestId⟩
            { p with
              scheduler :=
                ⟨p.scheduler.connector.withManager m,
                  p.scheduler.requests.set a.requestId
                    { req with numComputedTokens := numComputedTokens, status := .running }⟩
              new := if req.status = .waiting then p.new ++ [e] else p.new
              resumed := if req.status = .waiting then p.resumed else p.resumed ++ [e] }
      else p

/-- The scheduler output. The second model runner wants resumed requests as new ones. -/
def output (cfg : SchedulerConfig) (p : SchedulePass μ σ) : SchedulerOutput where
  newReqs := (if cfg.useV2ModelRunner then p.new ++ p.resumed else p.new).map
    fun e => ⟨e.requestId, e.blockIds, e.numComputedTokens, e.promptLen⟩
  cachedReqs := p.running.map (fun e => ⟨e.requestId, e.numComputedTokens, e.newBlockIds, false⟩) ++
    (if cfg.useV2ModelRunner then [] else p.resumed).map
      fun e => ⟨e.requestId, e.numComputedTokens, e.newBlockIds, true⟩
  numScheduledTokens r := (p.scheduled.find? (·.requestId = r)).elim 0 (·.numNewTokens)

end SchedulePass

namespace Scheduler

/-- `schedule` up to the construction of its output. -/
def plan (cfg : SchedulerConfig) (s : Scheduler μ σ) (choices : SchedulePlan) : SchedulePass μ σ :=
  choices.admissions.foldl (SchedulePass.scheduleWaiting cfg)
    (choices.running.foldl (SchedulePass.scheduleRunning cfg) ⟨s, [], [], [], []⟩)

/-- Adds to the computed tokens of a request. -/
def advance (requests : OrderedDict RequestId VllmRequest) (e : ScheduledRequest) : OrderedDict RequestId VllmRequest :=
  match requests.get? e.requestId with
  | none => requests
  | some req => requests.set e.requestId { req with numComputedTokens := req.numComputedTokens + e.numNewTokens }

/-- `schedule`: the connector gets the output before `_update_after_schedule`. -/
def schedule (cfg : SchedulerConfig) (dev : Device μ φ ν S) (scorer : BlockScorer σ ν S) (s : Scheduler μ σ)
    (choices : SchedulePlan) : Scheduler μ σ :=
  let p := s.plan cfg choices
  ⟨connectorStep cfg.toConnectorConfig dev scorer p.scheduler.connector (.build (p.output cfg)),
    p.scheduled.foldl advance p.scheduler.requests⟩

/-- `finish_requests`: the connector is told, then the blocks are freed. -/
def finishRequest (cfg : SchedulerConfig) (dev : Device μ φ ν S) (scorer : BlockScorer σ ν S) (s : Scheduler μ σ)
    (r : RequestId) : Scheduler μ σ :=
  if r ∈ s.requests.keys then
    let c := connectorStep cfg.toConnectorConfig dev scorer s.connector (.finished r)
    ⟨c.withManager (c.manager.free r), s.requests.erase r⟩
  else s

/-- `add_request`; an id that is in use is not taken again. -/
def addRequest (s : Scheduler μ σ) (r : RequestId) (promptLen : Nat) : Scheduler μ σ :=
  if r ∈ s.requests.keys then s
  else { s with requests := s.requests.set r ⟨promptLen, 0, .waiting⟩ }

/-- Draft tokens that were rejected do not count as computed. -/
def rejectTokens (s : Scheduler μ σ) (r : RequestId) (numRejected : Nat) : Scheduler μ σ :=
  match s.requests.get? r with
  | none => s
  | some req =>
      { s with requests := s.requests.set r { req with numComputedTokens := req.numComputedTokens - numRejected } }

end Scheduler

inductive SchedulerOp (μ : Type) where
  | addRequest (requestId : RequestId) (promptLen : Nat)
  | schedule (choices : SchedulePlan)
  /-- A preemption between two steps, by `reset_prefix_cache`. -/
  | preempt (requestId : RequestId)
  | rejectTokens (requestId : RequestId) (numRejected : Nat)
  | update (completed : List (Nat × Nat))
  | finish (requestId : RequestId)
  | worker (op : WorkerOp μ)

def schedulerStep (cfg : SchedulerConfig) (dev : Device μ φ ν S) (scorer : BlockScorer σ ν S) (s : Scheduler μ σ) :
    SchedulerOp μ → Scheduler μ σ
  | .addRequest r promptLen => s.addRequest r promptLen
  | .schedule choices => s.schedule cfg dev scorer choices
  | .preempt r => s.preemptRequest r
  | .rejectTokens r numRejected => s.rejectTokens r numRejected
  | .update completed =>
      { s with connector := connectorStep cfg.toConnectorConfig dev scorer s.connector (.update completed) }
  | .finish r => s.finishRequest cfg dev scorer r
  | .worker op => { s with connector := connectorStep cfg.toConnectorConfig dev scorer s.connector (.worker op) }

end KVOffload

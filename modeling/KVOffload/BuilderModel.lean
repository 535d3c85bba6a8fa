import KVOffload.OrchestratorModel

/-! The metadata builder of the sparse attention backend. Before each decode plan it lays the block
tables of the batch out as one flat index array, fetches blocks the previous selection needed, and
rewrites the entries of offloaded blocks. Which request a row belongs to is read from a class-level
cache; when a check on it fails the patch gives up, and `build` raises if that leaves the kernel
freed pages to read. -/

namespace KVOffload
open Base

/-- A batch row: the request that occupies it and the pages of its block table in use. -/
structure BatchRow where
  requestId : RequestId
  pages : List Nat
  deriving DecidableEq, Repr

/-- What one call of `build` finds: the batch, its decode rows first, and the environment. -/
structure BuildCall where
  rows : List BatchRow
  numDecodes : Nat
  numDecodes_le : numDecodes ≤ rows.length
  capturing : Bool
  /-- `SKYLIGHT_OFFLOAD_DISABLE_RUNNER_IDS` -/
  disableRunnerIds : Bool

namespace BuildCall

variable (call : BuildCall)

/-- The block tables, one row per request. -/
def table : List (List Int) := call.rows.map fun row => row.pages.map Int.ofNat

/-- `paged_kv_indptr`: the running sums of the row lengths. -/
def indptr : List Nat := (List.range (call.rows.length + 1)).map (rowStart call.table)

/-- `paged_kv_indices` as the base class fills it. -/
def indices : List Int := call.table.flatten

end BuildCall

/-- `ids[0].startswith(("_dummy", "_warmup"))`. -/
def startsDummy (requestId : RequestId) : Bool :=
  requestId.take 6 = ['_', 'd', 'u', 'm', 'm', 'y'] ∨ requestId.take 7 = ['_', 'w', 'a', 'r', 'm', 'u', 'p']

/-- The builder's class-level caches, the orchestrator injected into it, and the index array. -/
structure Builder (μ σ : Type) where
  orchestrator : Orchestrator μ σ
  cachedRequestIds : List RequestId
  cachedSparse : Option SparsePattern
  patchBailReason : Option BailReason
  indices : List Int

abbrev BuilderM (μ σ : Type) := Eff (Builder μ σ) PyError

section

variable {μ φ ν σ S : Type} [LinearOrder S]

/-- Takes the ids of the decode rows from the runner's batch, unless that is switched off. -/
def stashRequestIds (call : BuildCall) (b : Builder μ σ) : Builder μ σ :=
  if call.capturing ∨ call.numDecodes = 0 ∨ call.disableRunnerIds then b
  else
    match (call.rows.map (·.requestId)).take call.numDecodes with
    | [] => b
    | first :: rest => if startsDummy first then b else { b with cachedRequestIds := first :: rest }

/-- What the prefetch hands to the patch. -/
structure Prefetched where
  stagingMap : OrderedDict BlockRef Nat
  pattern : Option SparsePattern

/-- Fetches the CPU blocks the cached selection needs. A selection of another batch size belongs to an
earlier batch and is dropped. -/
def prefetch (cfg : OrchestratorConfig) (dev : Device μ φ ν S) (scorer : BlockScorer σ ν S)
    (requestIds : List RequestId) : BuilderM μ σ Prefetched := fun b =>
  match b.cachedSparse with
  | none => (.ok ⟨.empty, none⟩, b)
  | some pattern =>
      if pattern.rows.length ≠ requestIds.length then (.ok ⟨.empty, none⟩, b)
      else
        ((fun staged => (⟨staged, some pattern⟩ : Prefetched)) <$>
          Eff.zoom Builder.orchestrator (fun b o => { b with orchestrator := o })
            (prepareStaging cfg dev scorer requestIds pattern)) b

/-- The alignment check: the page count of each listed row must be the tracked block count. -/
def rowAlignment (t : ResidencyTable) (indptr : List Nat) : List (RequestId × Nat) → Except PyError (Option BailReason)
  | [] => .ok none
  | (r, b) :: rest =>
      match indptr[b]?, indptr[b + 1]? with
      | some start, some stop =>
          if (t.refsForRequest r).length = 0 ∨ (stop : Int) - start ≠ (t.refsForRequest r).length then
            .ok (some (.rowAlignment b r (t.refsForRequest r).length (stop - start)))
          else rowAlignment t indptr rest
      | _, _ => .error .indexOutOfRange

/-- The arguments of the index patch. Under true freeing the entry of a CPU-resident block becomes the
null page 0. -/
def patchInput (cfg : OrchestratorConfig) (call : BuildCall) (requestIds : List RequestId) (pre : Prefetched)
    (o : Orchestrator μ σ) : PatchInput where
  indptr := call.indptr.take (requestIds.length + 1)
  requestIds := requestIds
  pattern := pre.pattern
  pageSize := cfg.pageSize
  stagingBase := cfg.stagingBase
  residency := o.store.residency
  stagingMap := pre.stagingMap
  nullBlockId := if o.trueFreeing then some 0 else none

def bail (reason : BailReason) : BuilderM μ σ Unit := Eff.modify fun b => { b with patchBailReason := some reason }

/-- The guarded part of `_patch_indices_for_staging`. -/
def patchGuarded (cfg : OrchestratorConfig) (dev : Device μ φ ν S) (scorer : BlockScorer σ ν S) (call : BuildCall)
    (requestIds : List RequestId) : BuilderM μ σ Unit := do
  let pre ← prefetch cfg dev scorer requestIds
  let b ← Eff.read
  match rowAlignment b.orchestrator.store.residency (call.indptr.take (requestIds.length + 1)) requestIds.zipIdx with
  | .error e => Eff.raise e
  | .ok (some reason) => bail reason
  | .ok none =>
      Eff.zoom Builder.indices (fun b indices => { b with indices := indices })
        (patchInput cfg call requestIds pre b.orchestrator).patchInto

/-- Whether a wrong entry would make the kernel read a freed page. -/
def freedPagesAtRisk (b : Builder μ σ) : Bool :=
  b.orchestrator.trueFreeing && decide (0 < b.orchestrator.store.residency.numCpu)

/-- `_patch_indices_for_staging`: an exception is swallowed unless freed pages are at risk. -/
def patchIndicesForStaging (cfg : OrchestratorConfig) (dev : Device μ φ ν S) (scorer : BlockScorer σ ν S)
    (call : BuildCall) : BuilderM μ σ Unit := do
  let b ← Eff.read
  if call.capturing then pure ()
  else if b.cachedRequestIds = [] then bail .idsEmpty
  else if call.rows.length < b.cachedRequestIds.length then bail .idsGtReqs
  else
    Eff.attempt (patchGuarded cfg dev scorer call b.cachedRequestIds) fun e => do
      let b ← Eff.read
      if freedPagesAtRisk b then Eff.raise e else pure ()

/-- The backstop: a patch that gave up on a step with decode rows is an error if freed pages are at risk. -/
def checkBail (call : BuildCall) : BuilderM μ σ Unit := do
  let b ← Eff.read
  match b.patchBailReason with
  | none => pure ()
  | some reason =>
      if !call.capturing && decide (0 < call.numDecodes) && freedPagesAtRisk b then
        Eff.raise (.patchBailed reason b.orchestrator.store.residency.numCpu)
      else pure ()

/-- `build`, up to the index array it hands to the decode plan. -/
def build (cfg : OrchestratorConfig) (dev : Device μ φ ν S) (scorer : BlockScorer σ ν S) (call : BuildCall) :
    BuilderM μ σ Unit := do
  Eff.modify fun b => { stashRequestIds call b with patchBailReason := none, indices := call.indices }
  patchIndicesForStaging cfg dev scorer call
  checkBail call

end

end KVOffload

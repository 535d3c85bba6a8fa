import KVOffload.StoreOffload

/-! The staging pool: GPU tail pages that hold copies of offloaded blocks while sparse attention
reads them. A batch reserves its slots first, copies, and only then enters the blocks into the
occupancy order, so that a failed copy can hand every reserved slot back. -/

namespace KVOffload
open Base

variable {μ φ ν σ S : Type} [LinearOrder S]

/-- What the first loop of `ensure_resident` finds: blocks that already have a slot, and blocks to
fetch with their CPU slots. -/
structure Scan where
  result : OrderedDict BlockRef Nat
  toFetch : List (BlockRef × Nat)

/-- One iteration of the first loop: a GPU block is skipped, a staged one becomes most recent, any
other one is fetched from its CPU slot. -/
def scanBlock (ref : BlockRef) (scan : Scan) : StoreM μ σ Scan := fun s =>
  match s.residency.get ref with
  | none => (.error (.unknownBlock ref), s)
  | some loc =>
      if loc.residency = .gpu then (.ok scan, s)
      else
        match loc.residency, loc.stagingSlot, loc.cpuSlot with
        | .staging, some slot, _ =>
            if ref ∈ s.lru.keys then
              (.ok { scan with result := scan.result.set ref slot }, { s with lru := s.lru.moveToEnd ref })
            else (.error (.missingKey ref), s)
        | _, _, none => (.error (.notBackedByCpu ref), s)
        | _, _, some cpuSlot => (.ok { scan with toFetch := scan.toFetch ++ [(ref, cpuSlot)] }, s)

def scanBlocks : List BlockRef → Scan → StoreM μ σ Scan
  | [], scan => pure scan
  | ref :: rest, scan => do
      let scan ← scanBlock ref scan
      scanBlocks rest scan

/-- The staged blocks that `_allocate_slot` may evict, oldest first. -/
def evictionCandidates (s : Store μ σ) (exclude : List Nat) : List BlockRef :=
  (s.lru.items.filter fun e =>
    e.2 ∉ exclude ∧ (s.residency.get e.1).any fun loc => loc.residency = .staging).map Prod.fst

/-- `_allocate_slot`: a free slot if there is one, else the slot of the lowest-scored candidate. -/
def allocateSlot (scorer : BlockScorer σ ν S) (exclude : List Nat) : StoreM μ σ Nat := fun s =>
  match s.stagingFree with
  | slot :: rest => (.ok slot, { s with stagingFree := rest })
  | [] =>
      let candidates := evictionCandidates s exclude
      if candidates = [] then (.error .noStagingSlots, s)
      else
        let scored := scorer.scores s.scorer candidates
        let s := { s with scorer := scored.2 }
        match argmin (candidates.zip scored.1) with
        | none => (.error .noStagingSlots, s)
        | some (evicted, _) =>
            match (s.residency.get evicted).bind (·.cpuSlot) with
            | none => (.error (.cannotEvict evicted), s)
            | some cpuSlot =>
                match s.residency.markCpu evicted cpuSlot, s.lru.get? evicted with
                | .error e, _ => (.error e, s)
                | .ok t, none => (.error (.missingKey evicted), { s with residency := t })
                | .ok t, some slot => (.ok slot, { s with residency := t, lru := s.lru.erase evicted })

/-- A block with the CPU slot it is fetched from and the staging slot reserved for it. -/
structure Alloc where
  ref : BlockRef
  cpuSlot : Nat
  slot : Nat
  deriving DecidableEq, Repr

structure Reservation where
  allocs : List Alloc
  skipped : List BlockRef
  deriving DecidableEq, Repr

/-- Phase 1: a block that finds no slot is skipped, any other error propagates. -/
def reserveSlots (scorer : BlockScorer σ ν S) : List (BlockRef × Nat) → Reservation → StoreM μ σ Reservation
  | [], res => pure res
  | (ref, cpuSlot) :: rest, res => do
      let slot? ← Eff.attempt (some <$> allocateSlot scorer (res.allocs.map (·.slot))) fun e =>
        if e.kind = .runtimeError then pure none else Eff.raise e
      match slot? with
      | some slot => reserveSlots scorer rest { res with allocs := res.allocs ++ [⟨ref, cpuSlot, slot⟩] }
      | none => reserveSlots scorer rest { res with skipped := res.skipped ++ [ref] }

/-- Phase 2: copy the batch; on failure every reserved slot is returned and the error re-raised. -/
def fetchBatch (cfg : OrchestratorConfig) (dev : Device μ φ ν S) (allocs : List Alloc) : StoreM μ σ Unit := fun s =>
  let slots := allocs.map (·.cpuSlot)
  let pages := allocs.map (cfg.stagingBase + ·.slot)
  match dev.fetchFault s.tick with
  | some torn =>
      (.error .device,
        { s with
          stagingFree := (allocs.map (·.slot)).reverse ++ s.stagingFree
          mem := dev.fetchTorn torn s.mem slots pages
          tick := s.tick + 1 })
  | none => (.ok (), { s with mem := dev.fetch s.mem slots pages, tick := s.tick + 1 })

/-- Phase 3: occupancy and residency become visible. -/
def publishAllocs (allocs : List Alloc) : StoreM μ σ Unit :=
  Eff.forEach allocs fun a => do
    Eff.modify fun s => { s with lru := s.lru.set a.ref a.slot }
    markStaging a.ref a.slot

/-- `ensure_resident`. -/
def ensureResident (cfg : OrchestratorConfig) (dev : Device μ φ ν S) (scorer : BlockScorer σ ν S)
    (refs : List BlockRef) : StoreM μ σ (OrderedDict BlockRef Nat × List BlockRef) := do
  let scan ← scanBlocks (OrderedDict.fromKeys refs).keys ⟨.empty, []⟩
  if scan.toFetch = [] then pure (scan.result, [])
  else
    let res ← reserveSlots scorer scan.toFetch ⟨[], []⟩
    fetchBatch cfg dev res.allocs
    publishAllocs res.allocs
    pure (res.allocs.foldl (fun d a => d.set a.ref a.slot) scan.result, res.skipped)

/-- `release`: the staging slot is recycled, the block falls back to its CPU copy. -/
def release (ref : BlockRef) : StoreM μ σ Unit := fun s =>
  match s.lru.get? ref with
  | none => (.ok (), s)
  | some slot =>
      let s := { s with lru := s.lru.erase ref, stagingFree := slot :: s.stagingFree }
      match s.residency.get ref with
      | some loc =>
          match loc.cpuSlot with
          | some cpuSlot =>
              if loc.residency = .staging ∧ loc.stagingSlot = some slot then markCpu ref cpuSlot s
              else (.ok (), s)
          | none => (.ok (), s)
      | none => (.ok (), s)

end KVOffload

import KVOffload.ConnectorModel
import KVOffload.OrchestratorGate
import KVOffload.OrchestratorPlacement

/-! What each part of a connector step can do. A part either finishes or fails half-way (`failed`); its
relation says what it did to the placements of blocks, to the lists and to the trace in both cases, and
what it worked on: the entries of every other request are untouched. -/

namespace KVOffload
open Base

variable {μ φ ν σ S : Type} [LinearOrder S]

def ConnectorState.place (c : ConnectorState μ σ) (ref : BlockRef) : Placement :=
  placement c.orchestrator.store.residency ref

/-- How many actions of the device there have been. -/
def ConnectorState.tick (c : ConnectorState μ σ) : Nat := c.orchestrator.store.tick

/-- One of the device's actions from `first` on and before `last` met a fault. -/
def StruckBetween (fault : Nat → Prop) (first last : Nat) : Prop := ∃ tick, tick < last ∧ first ≤ tick ∧ fault tick

instance (fault : Nat → Prop) [DecidablePred fault] (first last : Nat) : Decidable (StruckBetween fault first last) :=
  inferInstanceAs (Decidable (∃ tick, tick < last ∧ first ≤ tick ∧ fault tick))

theorem StruckBetween.mono {fault fault' : Nat → Prop} {first first' last : Nat} (h : StruckBetween fault first last)
    (hle : first' ≤ first) (himp : ∀ tick, fault tick → fault' tick) : StruckBetween fault' first' last := by
  obtain ⟨tick, hlast, hfirst, hfault⟩ := h
  exact ⟨tick, hlast, hle.trans hfirst, himp tick hfault⟩

theorem StruckBetween.strikes {fault : Nat → Prop} {first last : Nat} (h : StruckBetween fault first last) :
    ∃ tick, fault tick := by
  obtain ⟨tick, -, -, hfault⟩ := h
  exact ⟨tick, hfault⟩

theorem ScoreStruck.between {dev : Device μ φ ν S} {s s' : Store μ σ} (h : ScoreStruck dev s s') :
    StruckBetween (dev.scoreFault · = true) s.tick s'.tick := by
  refine ⟨s.tick, ?_, le_rfl, h.1⟩
  rw [h.2]
  exact Nat.lt_succ_self _

theorem FetchStruck.between {dev : Device μ φ ν S} {s s' : Store μ σ} (h : FetchStruck dev s s') :
    StruckBetween (fun tick => (dev.fetchFault tick).isSome) s.tick s'.tick := by
  refine ⟨s.tick, ?_, le_rfl, h.1⟩
  rw [h.2]
  exact Nat.lt_succ_self _

/-- What every connector state satisfies. -/
structure Sound (cfg : ConnectorConfig) (dev : Device μ φ ν S) (c : ConnectorState μ σ) : Prop where
  ok : StoreOk cfg.toOrchestratorConfig (Backing.trivial dev) c.orchestrator.store
  lists : ∀ r refs, c.orchestrator.requestBlocks.get? r = some refs → isWarmup r = false ∧ ∃ n, refs = blockRefs r n
  ordinary : ∀ ref, c.place ref ≠ .absent → isWarmup ref.requestId = false

/-- A change after which every new list and every new placement is that of an ordinary request. -/
theorem Sound.of_changed {cfg : ConnectorConfig} {dev : Device μ φ ν S} {c c' : ConnectorState μ σ}
    (h : Sound cfg dev c) (hok : StoreOk cfg.toOrchestratorConfig (Backing.trivial dev) c'.orchestrator.store)
    (hlists : ∀ r refs, c'.orchestrator.requestBlocks.get? r = some refs →
      c.orchestrator.requestBlocks.get? r = some refs ∨ isWarmup r = false ∧ ∃ n, refs = blockRefs r n)
    (hplace : ∀ ref, c.place ref = .absent → c'.place ref = .absent ∨ isWarmup ref.requestId = false) :
    Sound cfg dev c' := by
  refine ⟨hok, fun r refs hget => ?_, fun ref href => ?_⟩
  · rcases hlists r refs hget with hold | hnew
    · exact h.lists r refs hold
    · exact hnew
  · by_cases habsent : c.place ref = .absent
    · exact (hplace ref habsent).resolve_left href
    · exact h.ordinary ref habsent

/-- A change that keeps the lists and records no new block. -/
theorem Sound.of_kept {cfg : ConnectorConfig} {dev : Device μ φ ν S} {c c' : ConnectorState μ σ} (h : Sound cfg dev c)
    (hok : StoreOk cfg.toOrchestratorConfig (Backing.trivial dev) c'.orchestrator.store)
    (hlists : c'.orchestrator.requestBlocks = c.orchestrator.requestBlocks)
    (habsent : ∀ ref, c.place ref = .absent → c'.place ref = .absent) : Sound cfg dev c' := by
  refine h.of_changed hok (fun r refs hget => ?_) fun ref href => Or.inl (habsent ref href)
  rw [hlists] at hget
  exact Or.inl hget

theorem Sound.of_set {cfg : ConnectorConfig} {dev : Device μ φ ν S} {c c' : ConnectorState μ σ} (h : Sound cfg dev c)
    (hok : StoreOk cfg.toOrchestratorConfig (Backing.trivial dev) c'.orchestrator.store) {r : RequestId} {n : Nat}
    (hwarm : isWarmup r = false)
    (hlists : c'.orchestrator.requestBlocks = c.orchestrator.requestBlocks ∨
      c'.orchestrator.requestBlocks = c.orchestrator.requestBlocks.set r (blockRefs r n))
    (hplace : ∀ ref, ref ∉ blockRefs r n → c'.place ref = c.place ref) : Sound cfg dev c' := by
  refine h.of_changed hok (fun r' refs hget => ?_) fun ref habsent => ?_
  · rcases hlists with hsame | hset
    · rw [hsame] at hget
      exact Or.inl hget
    · rw [hset, OrderedDict.get?_set] at hget
      split_ifs at hget with heq
      · subst heq
        exact Or.inr ⟨hwarm, n, (Option.some.inj hget).symm⟩
      · exact Or.inl hget
  · by_cases hmem : ref ∈ blockRefs r n
    · obtain ⟨i, -, rfl⟩ := mem_blockRefs.mp hmem
      exact Or.inr hwarm
    · rw [hplace ref hmem]
      exact Or.inl habsent

theorem Sound.of_erase {cfg : ConnectorConfig} {dev : Device μ φ ν S} {c c' : ConnectorState μ σ} (h : Sound cfg dev c)
    (hok : StoreOk cfg.toOrchestratorConfig (Backing.trivial dev) c'.orchestrator.store) {r : RequestId}
    (hlists : c'.orchestrator.requestBlocks = c.orchestrator.requestBlocks.erase r)
    (hplace : ∀ ref, c'.place ref = if ref ∈ listedBlocks c.orchestrator r then .absent else c.place ref) :
    Sound cfg dev c' := by
  refine h.of_changed hok (fun r' refs hget => ?_) fun ref habsent => ?_
  · rw [hlists] at hget
    by_cases heq : r' = r
    · rw [heq, OrderedDict.get?_erase_self] at hget
      cases hget
    · rw [OrderedDict.get?_erase_of_ne _ heq] at hget
      exact Or.inl hget
  · rw [hplace ref, habsent]
    exact Or.inl (ite_self _)

theorem Sound.requestId_of_listed {cfg : ConnectorConfig} {dev : Device μ φ ν S} {c : ConnectorState μ σ}
    (h : Sound cfg dev c) {r : RequestId} {ref : BlockRef} (href : ref ∈ listedBlocks c.orchestrator r) :
    ref.requestId = r := by
  rw [listedBlocks] at href
  cases hlist : c.orchestrator.requestBlocks.get? r with
  | none =>
      rw [hlist] at href
      cases href
  | some refs =>
      obtain ⟨-, n, rfl⟩ := h.lists r refs hlist
      rw [hlist] at href
      obtain ⟨i, -, rfl⟩ := mem_blockRefs.mp href
      rfl

/-- The bookkeeping of one request is the same in both states, and none of its blocks got a GPU page. -/
structure Untouched (r : RequestId) (c c' : ConnectorState μ σ) : Prop where
  mirror : c'.reqBlockTable.get? r = c.reqBlockTable.get? r
  listed : c'.orchestrator.requestBlocks.get? r = c.orchestrator.requestBlocks.get? r
  promptLen : c'.promptLens.get? r = c.promptLens.get? r
  completed : r ∈ c'.prefillCompleted ↔ r ∈ c.prefillCompleted
  started : r ∈ c'.controller.started ↔ r ∈ c.controller.started
  decoded : c'.controller.decodeTokens.get? r = c.controller.decodeTokens.get? r
  placed : ∀ ref page complete, ref.requestId = r → c'.place ref = .gpu page complete → c.place ref = .gpu page complete

namespace Untouched

variable {r : RequestId} {c c₁ c₂ : ConnectorState μ σ}

theorem refl (r : RequestId) (c : ConnectorState μ σ) : Untouched r c c :=
  ⟨rfl, rfl, rfl, Iff.rfl, Iff.rfl, rfl, fun _ _ _ _ h => h⟩

theorem fullBlockIds {req : CachedRequestData} (h : Untouched req.requestId c c₁) :
    fullBlockIds c₁ req = fullBlockIds c req := by
  unfold KVOffload.fullBlockIds
  rw [h.mirror]

theorem trans (h₁ : Untouched r c c₁) (h₂ : Untouched r c₁ c₂) : Untouched r c c₂ where
  mirror := h₂.mirror.trans h₁.mirror
  listed := h₂.listed.trans h₁.listed
  promptLen := h₂.promptLen.trans h₁.promptLen
  completed := h₂.completed.trans h₁.completed
  started := h₂.started.trans h₁.started
  decoded := h₂.decoded.trans h₁.decoded
  placed ref page complete href hplace := h₁.placed ref page complete href (h₂.placed ref page complete href hplace)

end Untouched

section Parts

variable (cfg : ConnectorConfig) (dev : Device μ φ ν S)

theorem not_scoreFault_of_steady {dev : Device μ φ ν S} (h : ∀ tick, dev.scoreFault tick = false) :
    ¬∃ tick, dev.scoreFault tick = true := by
  rintro ⟨tick, hfault⟩
  rw [h tick] at hfault
  cases hfault

/-- `syncBlockTable`: the mirror takes the list, and every listed block is bound to its page. -/
structure SyncStep (r : RequestId) (ids : List Nat) (n : Nat) (c : Connector μ σ) (failed : Prop) (c' : Connector μ σ) :
    Prop where
  ok : StoreOk cfg.toOrchestratorConfig (Backing.trivial dev) c'.orchestrator.store
  bound : ∀ (i page : Nat), isWarmup r = false → ids[i]? = some page →
    c'.place ⟨r, i⟩ = (c.place ⟨r, i⟩).bound page (isFull cfg.toOrchestratorConfig n i)
  kept : ∀ ref, isWarmup r = true ∨ ref ∉ blockRefs r ids.length → c'.place ref = c.place ref
  lists : ¬failed → isWarmup r = false →
    c'.orchestrator.requestBlocks = c.orchestrator.requestBlocks.set r (blockRefs r ids.length)
  lists_kept : failed ∨ isWarmup r = true → c'.orchestrator.requestBlocks = c.orchestrator.requestBlocks
  tick_le : c.tick ≤ c'.tick
  fault : failed → StruckBetween (dev.scoreFault · = true) c.tick c'.tick
  state : c' = { c with
    reqBlockTable := c.reqBlockTable.set r ids
    orchestrator :=
      { c.orchestrator with
        requestBlocks := c'.orchestrator.requestBlocks
        scored := c'.orchestrator.scored
        store := c'.orchestrator.store } }

/-- The prefill of `r` became complete: its full blocks graduate. -/
structure GraduateStep (r : RequestId) (n : Nat) (c : Connector μ σ) (failed : Prop) (c' : Connector μ σ) : Prop where
  ok : StoreOk cfg.toOrchestratorConfig (Backing.trivial dev) c'.orchestrator.store
  place : ∀ ref, c'.place ref =
    if ref ∈ prefillRefs c.orchestrator r ∧ Filled cfg.toOrchestratorConfig n ref then (c.place ref).graduated
    else c.place ref
  tick_le : c.tick ≤ c'.tick
  fault : failed → StruckBetween (dev.scoreFault · = true) c.tick c'.tick
  state : c' = { c with
    prefillCompleted := insert r c.prefillCompleted
    orchestrator := { c.orchestrator with scored := c'.orchestrator.scored, store := c'.orchestrator.store } }

/-- The state in which a pass calls `offload_fraction`: `c` after the rescoring. -/
def RescoredFrom (c before : ConnectorState μ σ) : Prop :=
  before = { c with
    orchestrator :=
      { c.orchestrator with
        scored := before.orchestrator.scored
        store :=
          { c.orchestrator.store with
            scorer := before.orchestrator.store.scorer
            tick := before.orchestrator.store.tick } } }

/-- The blocks among which a pass called in state `c` chooses. -/
def eligibleBlocks (c : ConnectorState μ σ) : List BlockRef :=
  scoredCandidates c.orchestrator.store.residency (allowedBlocks cfg c) c.orchestrator.scored

/-- How many blocks a pass called in state `c` asks for. -/
def passSize (c : ConnectorState μ σ) : Nat := numToOffload (eligibleBlocks cfg c).length cfg.offloadFraction

/-- The shadow pool can take what a pass called in state `c` moves: the pass finds nothing to move, or
the CPU cache cannot hold its share, or the shadow pool has as many free blocks. -/
def Room (c : ConnectorState μ σ) : Prop :=
  eligibleBlocks cfg c = [] ∨ c.orchestrator.store.cpuFree.length < passSize cfg c ∨
    passSize cfg c ≤ c.cpuBlockPool.freeQueue.length

instance (c : ConnectorState μ σ) : Decidable (Room cfg c) := inferInstanceAs (Decidable (_ ∨ _ ∨ _))

/-- An offload pass that moved the blocks `moved`. It can fail before it moved anything, and after it
moved all of them: then they are in no batch. -/
structure TriggerStep (c : Connector μ σ) (moved : List BlockRef) (failed : Prop) (c' : Connector μ σ) : Prop where
  ok : StoreOk cfg.toOrchestratorConfig (Backing.trivial dev) c'.orchestrator.store
  place : ∀ ref, c'.place ref = if ref ∈ moved then .parked else c.place ref
  allowed : ∀ ref ∈ moved, ref ∈ allowedBlocks cfg c.toConnectorState
  nodup : moved.Nodup
  trace : moved = [] ∧ c'.trace = c.trace ∨
    ∃ before, RescoredFrom c.toConnectorState before ∧ c'.trace = c.trace ++ [.offloaded before moved]
  queued : ¬failed → moved = [] ∧ c'.stepStoreAcc = c.stepStoreAcc ∨
    moved ≠ [] ∧ ∃ cpuBlockIds requestIds, cpuBlockIds.length = moved.length ∧ c'.stepStoreAcc = c.stepStoreAcc ++
      [⟨moved, recordedPages c.orchestrator.store.residency moved, cpuBlockIds, requestIds⟩]
  tick_le : c.tick ≤ c'.tick
  refused : failed → c'.stepStoreAcc = c.stepStoreAcc ∧
    (moved = [] ∧ StruckBetween (dev.scoreFault · = true) c.tick c'.tick ∨
      ∃ before, ¬Room cfg before ∧ c'.trace = c.trace ++ [.offloaded before moved])
  state : c' = { c with
    cpuBlockPool := c'.cpuBlockPool
    stepStoreAcc := c'.stepStoreAcc
    trace := c'.trace
    orchestrator := { c.orchestrator with scored := c'.orchestrator.scored, store := c'.orchestrator.store } }

end Parts

section PartLemmas

variable {cfg : ConnectorConfig} {dev : Device μ φ ν S} {scorer : BlockScorer σ ν S} {c : Connector μ σ}

theorem wp_syncBlockTable (h : StoreOk cfg.toOrchestratorConfig (Backing.trivial dev) c.orchestrator.store)
    (r : RequestId) (ids : List Nat) (n : Nat) :
    Eff.wp (syncBlockTable cfg dev scorer r ids n) (fun _ c' => SyncStep cfg dev r ids n c False c')
      (fun _ c' => SyncStep cfg dev r ids n c True c') c := by
  rw [syncBlockTable, Eff.wp_bind, Eff.wp_modify, Eff.wp_bind, onOrchestrator, Eff.wp_zoom]
  cases hwarm : isWarmup r with
  | true =>
      refine Eff.wp_of_ok (syncRequestBlocks_of_warmup hwarm ids n _) ?_
      exact ⟨h, by simp [hwarm], fun _ _ => rfl, by simp [hwarm], fun _ => rfl, le_rfl, False.elim, rfl⟩
  | false =>
      refine Eff.wp_mono ((moves_syncRequestBlocks r ids n).wp_and (wp_syncRequestBlocks h hwarm ids n))
        (fun _ o hsync => ?_) fun _ o hsync => ?_
      · obtain ⟨hpost, hadvances⟩ := hsync
        refine ⟨hpost.ok, fun i page _ hi => hpost.table.placement_listed hi, fun ref href => ?_,
          fun _ _ => hpost.requestBlocks not_false, by simp [hwarm], hadvances.store.tick_le,
          False.elim, by rw [hpost.state]⟩
        exact hpost.table.placement_kept (href.resolve_left (by simp [hwarm]))
      · obtain ⟨hpost, hadvances⟩ := hsync
        refine ⟨hpost.ok, fun i page _ hi => hpost.table.placement_listed hi, fun ref href => ?_,
          fun hok => absurd True.intro hok, fun _ => hpost.requestBlocks_failed True.intro, hadvances.store.tick_le,
          fun hfailed => (hpost.fault hfailed).between, by rw [hpost.state]⟩
        exact hpost.table.placement_kept (href.resolve_left (by simp [hwarm]))

/-- A block of another request, or beyond the list, is left alone; any other is bound. -/
theorem SyncStep.place_cases {r : RequestId} {ids : List Nat} {n : Nat} {failed : Prop} {c' : Connector μ σ}
    (h : SyncStep cfg dev r ids n c failed c') (ref : BlockRef) :
    (c'.place ref = c.place ref ∧ (isWarmup r = true ∨ ref ∉ blockRefs r ids.length)) ∨
      ∃ i page : Nat, ref = ⟨r, i⟩ ∧ isWarmup r = false ∧ ids[i]? = some page ∧
        c'.place ref = (c.place ref).bound page (isFull cfg.toOrchestratorConfig n i) := by
  by_cases hkept : isWarmup r = true ∨ ref ∉ blockRefs r ids.length
  · exact Or.inl ⟨h.kept ref hkept, hkept⟩
  · rw [not_or, not_not, Bool.not_eq_true] at hkept
    obtain ⟨i, hi, rfl⟩ := mem_blockRefs.mp hkept.2
    have hpage : ids[i]? = some ids[i] := List.getElem?_eq_getElem hi
    exact Or.inr ⟨i, ids[i], rfl, hkept.1, hpage, h.bound i ids[i] hkept.1 hpage⟩

theorem mem_allowedBlocks {c : ConnectorState μ σ} {ref : BlockRef} (href : ref ∈ allowedBlocks cfg c) :
    ∃ page, c.place ref = .gpu page true := by
  have hmem : ref ∈ c.orchestrator.store.residency.allGpuBlocks true := by
    unfold allowedBlocks at href
    split_ifs at href
    · exact List.mem_of_mem_filter href
    · exact href
  exact isGpuComplete_iff_placement.mp (isGpuComplete_iff.mpr (ResidencyTable.mem_allGpuBlocks.mp hmem))

theorem Sound.ordinary_of_allowed {c : ConnectorState μ σ} (hsound : Sound cfg dev c) :
    ∀ ref ∈ allowedBlocks cfg c, isWarmup ref.requestId = false := by
  intro ref href
  obtain ⟨page, hplace⟩ := mem_allowedBlocks href
  exact hsound.ordinary ref (by rw [hplace]; simp)

theorem allowedBlocks_nodup (c : ConnectorState μ σ) : (allowedBlocks cfg c).Nodup := by
  have hnodup := c.orchestrator.store.residency.allGpuBlocks_nodup true
  unfold allowedBlocks
  split_ifs
  · exact hnodup.sublist List.filter_sublist
  · exact hnodup

/-- The rescoring of a pass finished. -/
structure RescorePost (scorer : BlockScorer σ ν S) (allowed : List BlockRef) (o o' : Orchestrator μ σ) : Prop where
  state : o' = { o with scored := o'.scored,
                        store := { o.store with scorer := o'.store.scorer, tick := o'.store.tick } }
  known : ∀ ref ∈ allowed, scorer.known o'.store.scorer ref = true

/-- The rescoring puts a block into the scored set only after the scorer knows it. -/
theorem wp_rescore_registers {o : Orchestrator μ σ} {allowed : List BlockRef}
    (hcomplete : ∀ ref ∈ allowed, isGpuComplete o.store.residency ref = true)
    (hwarm : ∀ ref ∈ allowed, isWarmup ref.requestId = false) :
    Eff.wp (rescore dev scorer allowed)
      (fun _ o' => RescorePost scorer allowed o o' ∧ Registers scorer (· ∈ allowed) o o')
      (fun _ o' => ∃ s', o' = { o with store := s' } ∧ ScoreFailed dev o.store s') o := by
  have hfst : (refsWithGpu o.store.residency allowed).map Prod.fst = allowed :=
    map_fst_refsWithGpu_of_complete hcomplete
  rw [rescore, Eff.wp_bind, Eff.wp_read, Eff.wp_ite]
  constructor
  · intro hempty
    rw [hempty, List.map_nil] at hfst
    exact ⟨⟨rfl, by simp [← hfst]⟩, fun _ href => href, fun _ href => Or.inl href, fun _ hknown => hknown,
      fun _ hknown => Or.inl hknown⟩
  · intro _
    have hlen : allowed.length = ((refsWithGpu o.store.residency allowed).map Prod.snd).length := by
      rw [← hfst, List.length_map, List.length_map, hfst]
    rw [hfst, Eff.wp_bind]
    refine Eff.wp_mono (wp_remarkComplete fun ref href => ?_) (fun _ o₁ ho₁ => ?_) fun _ _ hfalse => hfalse.elim
    · obtain ⟨loc, hget, -, hdone⟩ := isGpuComplete_iff.mp (hcomplete ref href)
      exact ⟨loc, hget, hdone⟩
    · subst ho₁
      rw [Eff.wp_bind, onStore, Eff.wp_zoom]
      refine Eff.wp_mono (wp_scoreBlocks dev scorer hlen o₁.store) (fun _ s' hs' => ?_) fun _ s' hs' => ⟨s', rfl, hs'⟩
      refine ⟨⟨by rw [hs'.state], fun ref href => ?_⟩, Finset.subset_union_left, fun ref href => ?_,
        fun ref hknown => ?_, fun ref hknown => ?_⟩
      · exact (hs'.known ref).trans (by rw [decide_eq_true ⟨href, hwarm ref href⟩, Bool.or_true])
      · exact (Finset.mem_union.mp href).imp_right List.mem_toFinset.mp
      · exact (hs'.known ref).trans (by rw [hknown, Bool.true_or])
      · rw [show scorer.known _ ref = _ from hs'.known ref, Bool.or_eq_true, decide_eq_true_iff] at hknown
        exact hknown.imp_right And.left

theorem wp_rescore {o : Orchestrator μ σ} {allowed : List BlockRef}
    (hcomplete : ∀ ref ∈ allowed, isGpuComplete o.store.residency ref = true)
    (hwarm : ∀ ref ∈ allowed, isWarmup ref.requestId = false) :
    Eff.wp (rescore dev scorer allowed) (fun _ o' => RescorePost scorer allowed o o')
      (fun _ o' => ∃ s', o' = { o with store := s' } ∧ ScoreFailed dev o.store s') o :=
  Eff.wp_mono (wp_rescore_registers hcomplete hwarm) (fun _ _ hpost => hpost.1) fun _ _ hfail => hfail

theorem recordedPages_length (t : ResidencyTable) {refs : List BlockRef} (h : ∀ ref ∈ refs, (t.get ref).isSome) :
    (recordedPages t refs).length = refs.length := by
  induction refs with
  | nil => rfl
  | cons ref rest ih =>
      obtain ⟨loc, hget⟩ := Option.isSome_iff_exists.mp (h ref List.mem_cons_self)
      obtain ⟨page, hpage⟩ := Option.isSome_iff_exists.mp (t.wellFormed ref loc hget).gpuBlockId_isSome
      have hcons : recordedPages t (ref :: rest) = page :: recordedPages t rest := by
        simp [recordedPages, hget, hpage]
      rw [hcons, List.length_cons, List.length_cons, ih fun x hx => h x (List.mem_cons_of_mem ref hx)]

/-- Moving blocks to the CPU keeps their pages on record. -/
theorem Offloaded.recordedPages {t t' : ResidencyTable} {out : List BlockRef} (h : Offloaded t t' out) :
    recordedPages t' out = recordedPages t out := by
  refine List.filterMap_congr fun ref href => ?_
  obtain ⟨loc, c, hget, -, hget'⟩ := h.moved ref href
  rw [hget, hget']
  rfl

theorem getNewBlocks_of_le {pool : BlockPool} {n : Nat} (h : n ≤ pool.freeQueue.length) :
    ∃ blocks pool', pool.getNewBlocks n = (.ok blocks, pool') ∧ blocks.length = n := by
  rw [BlockPool.getNewBlocks, if_neg (Nat.not_lt.mpr h)]
  exact ⟨_, _, rfl, List.length_take_of_le h⟩

theorem getNewBlocks_of_lt {pool : BlockPool} {n : Nat} (h : pool.freeQueue.length < n) :
    pool.getNewBlocks n = (.error (.noFreeBlocks n), pool) := by
  rw [BlockPool.getNewBlocks, if_pos h]

/-- The queueing half of a pass, on blocks that are on the CPU by now. -/
theorem wp_queueStore {moved : List BlockRef}
    (hmoved : ∀ ref ∈ moved, (c.orchestrator.store.residency.get ref).isSome) :
    Eff.wp (queueStore moved)
      (fun _ c' => ∃ pool cpuBlockIds requestIds, cpuBlockIds.length = moved.length ∧
        c' = { c with cpuBlockPool := pool, stepStoreAcc := c.stepStoreAcc ++
          [⟨moved, recordedPages c.orchestrator.store.residency moved, cpuBlockIds, requestIds⟩] })
      (fun _ c' => c' = c ∧ c.cpuBlockPool.freeQueue.length < moved.length) c := by
  unfold Eff.wp queueStore
  by_cases hfree : moved.length ≤ c.cpuBlockPool.freeQueue.length
  · obtain ⟨blocks, pool, hrun, hlen⟩ := getNewBlocks_of_le hfree
    have hpages := recordedPages_length c.orchestrator.store.residency hmoved
    simp only [hrun, hpages, ne_eq, not_true, if_false]
    exact ⟨_, blocks, _, hlen, rfl⟩
  · rw [Nat.not_le] at hfree
    simp only [getNewBlocks_of_lt hfree]
    exact ⟨True.intro, hfree⟩

/-- What `offload_fraction` did inside a pass, before the blocks are queued. -/
theorem OffloadPost.moved_of_rescored {before : ConnectorState μ σ} {moved : List BlockRef} {s' : Store μ σ}
    (h : OffloadPost cfg.toOrchestratorConfig (Backing.trivial dev) scorer (eligibleBlocks cfg before)
      before.orchestrator.store moved s') :
    ∀ ref ∈ moved, ref ∈ allowedBlocks cfg before ∧ (s'.residency.get ref).isSome := by
  intro ref href
  obtain ⟨loc, slot, -, -, hget⟩ := h.table.moved ref href
  exact ⟨List.mem_of_mem_filter (h.subset href), by rw [hget]; rfl⟩

theorem room_of_moved {before : ConnectorState μ σ} {moved : List BlockRef} (hsub : moved ⊆ eligibleBlocks cfg before)
    (hne : moved ≠ []) (hfree : moved.length ≤ before.orchestrator.store.cpuFree.length)
    (hsize : moved.length = passSize cfg before) (hroom : Room cfg before) :
    moved.length ≤ before.cpuBlockPool.freeQueue.length := by
  rcases hroom with hnone | hfull | hroom
  · rw [hnone] at hsub
    exact absurd (List.subset_nil.mp hsub) hne
  · omega
  · omega

/-- The scoring pass of an offload pass failed: nothing moved. -/
theorem triggerStep_of_scoreFailed {s' : Store μ σ}
    (h : StoreOk cfg.toOrchestratorConfig (Backing.trivial dev) c.orchestrator.store)
    (hfail : ScoreFailed dev c.orchestrator.store s') :
    TriggerStep cfg dev c [] True { c with orchestrator := { c.orchestrator with store := s' } } := by
  have hstruck : ScoreStruck dev c.orchestrator.store s' := ⟨hfail.fault, by rw [hfail.state]⟩
  refine ⟨?_, fun ref => ?_, by simp, List.nodup_nil, Or.inl ⟨rfl, rfl⟩, fun hok => absurd True.intro hok,
    (Nat.le_succ _).trans hstruck.2.ge, fun _ => ⟨rfl, Or.inl ⟨rfl, hstruck.between⟩⟩, rfl⟩
  · rw [hfail.state]
    exact h.rescore _ _
  · rw [hfail.state]
    rfl

/-- A pass that got as far as `offload_fraction`, with what became of the shadow pool and the batches. -/
theorem OffloadPost.triggerStep {before : ConnectorState μ σ} {moved : List BlockRef} {s' : Store μ σ}
    {pool : BlockPool} {acc : List StoreBatch} {failed : Prop}
    (h : OffloadPost cfg.toOrchestratorConfig (Backing.trivial dev) scorer (eligibleBlocks cfg before)
      before.orchestrator.store moved s')
    (hbefore : RescoredFrom c.toConnectorState before) (htick : c.tick ≤ s'.tick)
    (hqueued : ¬failed → moved = [] ∧ acc = c.stepStoreAcc ∨
      moved ≠ [] ∧ ∃ cpuBlockIds requestIds, cpuBlockIds.length = moved.length ∧ acc = c.stepStoreAcc ++
        [⟨moved, KVOffload.recordedPages s'.residency moved, cpuBlockIds, requestIds⟩])
    (hrefused : failed → acc = c.stepStoreAcc ∧ ¬Room cfg before) :
    TriggerStep cfg dev c moved failed
      { c with
        orchestrator := { before.orchestrator with store := s' }
        cpuBlockPool := pool
        stepStoreAcc := acc
        trace := c.trace ++ [.offloaded before moved] } := by
  have htable : before.orchestrator.store.residency = c.orchestrator.store.residency := by rw [hbefore]
  have hallowed : allowedBlocks cfg before = allowedBlocks cfg c.toConnectorState := by rw [hbefore]; rfl
  refine ⟨h.ok, fun ref => ?_, fun ref href => hallowed ▸ (h.moved_of_rescored ref href).1, h.nodup,
    Or.inr ⟨before, hbefore, rfl⟩, ?_, htick,
    fun hfail => ⟨(hrefused hfail).1, Or.inr ⟨before, (hrefused hfail).2, rfl⟩⟩, ?_⟩
  · rw [ConnectorState.place, h.table.placement ref, htable]
    rfl
  · rw [h.table.recordedPages, htable] at hqueued
    exact hqueued
  · rw [hbefore]

theorem moves_rescore (allowed : List BlockRef) :
    Eff.Moves OrchestratorAdvances (rescore dev scorer allowed : OrchestratorM μ σ Unit) := by
  refine Eff.moves_read.bind fun o => Eff.moves_ite (Eff.moves_pure _) ?_
  refine (Eff.moves_forEach fun ref => moves_onStore (moves_markComplete ref)).bind fun _ => ?_
  exact (moves_onStore (moves_scoreBlocks _ _)).bind fun _ => moves_of_store (fun _ => rfl) fun _ => rfl

theorem wp_triggerGlobalOffload (h : Sound cfg dev c.toConnectorState) :
    Eff.wp (triggerGlobalOffload cfg dev scorer) (fun _ c' => ∃ moved, TriggerStep cfg dev c moved False c')
      (fun _ c' => ∃ moved, TriggerStep cfg dev c moved True c') c := by
  rw [triggerGlobalOffload, Eff.wp_bind, Eff.wp_read, Eff.wp_bind, onOrchestrator, Eff.wp_zoom]
  have hcomplete : ∀ ref ∈ allowedBlocks cfg c.toConnectorState,
      isGpuComplete c.orchestrator.store.residency ref = true :=
    fun ref href => isGpuComplete_iff_placement.mpr (mem_allowedBlocks href)
  refine Eff.wp_mono ((moves_rescore _).wp_and (wp_rescore hcomplete h.ordinary_of_allowed)) ?_ ?_
  · rintro - o₁ ⟨ho₁, hadvances₁⟩
    -- The rescored state decides what moves; queueing can then only fail for want of shadow blocks.
    have hbefore : RescoredFrom c.toConnectorState { c.toConnectorState with orchestrator := o₁ } := by
      rw [RescoredFrom, ho₁.state]
    have hallowed : allowedBlocks cfg { c.toConnectorState with orchestrator := o₁ } =
        allowedBlocks cfg c.toConnectorState := by rw [ho₁.state]; rfl
    have htable : o₁.store.residency = c.orchestrator.store.residency := by rw [ho₁.state]
    have hok : StoreOk cfg.toOrchestratorConfig (Backing.trivial dev) o₁.store := by
      rw [ho₁.state]
      exact h.ok.rescore _ _
    rw [Eff.wp_bind, Eff.wp_read, Eff.wp_bind, onOrchestrator, Eff.wp_zoom, onStore, Eff.wp_zoom, ← hallowed]
    refine Eff.wp_mono ((moves_offloadFraction _ _ _).wp_and
      (wp_offloadFraction scorer hok (allowedBlocks_nodup _) _ _ fun _ _ _ => True.intro)) ?_ ?_
    · rintro moved s₂ ⟨hs₂, hadvances₂⟩
      have htick : c.tick ≤ s₂.tick := hadvances₁.store.tick_le.trans hadvances₂.tick_le
      have hpost : OffloadPost cfg.toOrchestratorConfig (Backing.trivial dev) scorer
          (eligibleBlocks cfg { c.toConnectorState with orchestrator := o₁ }) o₁.store moved s₂ := hs₂.1
      rw [Eff.wp_bind, Eff.wp_modify, Eff.wp_ite]
      constructor
      · intro hnone
        exact ⟨moved, hpost.triggerStep hbefore htick (fun _ => Or.inl ⟨hnone, rfl⟩) False.elim⟩
      · intro hsome
        have hsize := hs₂.2.resolve_left hsome
        refine Eff.wp_mono (wp_queueStore fun ref href => (hpost.moved_of_rescored ref href).2) ?_ ?_
        · rintro _ _ ⟨pool, cpuBlockIds, requestIds, hlen, rfl⟩
          exact ⟨moved, hpost.triggerStep hbefore htick
            (fun _ => Or.inr ⟨hsome, cpuBlockIds, requestIds, hlen, rfl⟩) False.elim⟩
        · rintro _ _ ⟨rfl, hrefused⟩
          refine ⟨moved, hpost.triggerStep hbefore htick (fun hok => absurd True.intro hok)
            fun _ => ⟨rfl, fun hroom => ?_⟩⟩
          have := room_of_moved hpost.subset hsome hsize.1 hsize.2 hroom
          exact absurd this (Nat.not_le.mpr hrefused)
    · rintro - s₂ ⟨hs₂, -⟩
      obtain ⟨ref, href, hunknown⟩ := hs₂.2 ⟨cfg.offloadFraction_nonneg, cfg.offloadFraction_lt_one⟩
      have hmem : ref ∈ allowedBlocks cfg c.toConnectorState := hallowed ▸ List.mem_of_mem_filter href
      exact absurd (ho₁.known ref hmem) hunknown
  · rintro _ _ ⟨⟨s', rfl, hfail⟩, -⟩
    exact ⟨[], triggerStep_of_scoreFailed h.ok hfail⟩

end PartLemmas

section Composed

variable (cfg : ConnectorConfig) (dev : Device μ φ ν S)

/-- `completePrefill`: the graduation and the pass after it. -/
inductive CompletePost (r : RequestId) (n : Nat) (c : Connector μ σ) : Prop → Connector μ σ → Prop
  | failed {c' : Connector μ σ} (h : GraduateStep cfg dev r n c True c') : CompletePost r n c True c'
  | pass {c₁ c' : Connector μ σ} {moved : List BlockRef} {failed : Prop} (h₁ : GraduateStep cfg dev r n c False c₁)
      (h₂ : TriggerStep cfg dev c₁ moved failed c') : CompletePost r n c failed c'

/-- A cached request whose whole prompt is computed now. -/
def Completes (c : ConnectorState μ σ) (req : CachedRequestData) : Prop :=
  0 < (c.promptLens.get? req.requestId).getD 0 ∧ (c.promptLens.get? req.requestId).getD 0 ≤ req.numComputedTokens ∧
    req.requestId ∉ c.prefillCompleted

instance (c : ConnectorState μ σ) (req : CachedRequestData) : Decidable (Completes c req) :=
  inferInstanceAs (Decidable (_ ∧ _ ∧ _))

inductive CheckPost (req : CachedRequestData) (c : Connector μ σ) : Prop → Connector μ σ → Prop
  | idle (hidle : ¬Completes c.toConnectorState req) : CheckPost req c False c
  | complete {c' : Connector μ σ} {failed : Prop} (hdue : Completes c.toConnectorState req)
      (h : CompletePost cfg dev req.requestId req.numComputedTokens c failed c') : CheckPost req c failed c'

/-- The tokens a request decodes in this step complete a window. -/
def WindowDue (c : ConnectorState μ σ) (r : RequestId) (numScheduled : Nat) : Prop :=
  0 < numScheduled ∧ r ∈ c.prefillCompleted ∧ r ∈ c.controller.started ∧
    Controller.shouldTrigger cfg.window ((c.controller.decodeTokens.get? r).getD 0 + numScheduled) = true

instance (c : ConnectorState μ σ) (r : RequestId) (numScheduled : Nat) : Decidable (WindowDue cfg c r numScheduled) :=
  inferInstanceAs (Decidable (_ ∧ _ ∧ _ ∧ _))

/-- `on_decode` may have been called for `r`, which changes its count only. -/
structure Counted (r : RequestId) (c : Connector μ σ) (c' : Connector μ σ) : Prop where
  started : c'.controller.started = c.controller.started
  decoded : ∀ r', r' ≠ r → c'.controller.decodeTokens.get? r' = c.controller.decodeTokens.get? r'
  trace : c' = c ∨ r ∈ c.prefillCompleted ∧ ∃ numTokens, c'.trace = c.trace ++ [.decoded r numTokens]
  state : c' = { c with controller := c'.controller, trace := c'.trace }

inductive CountPost (r : RequestId) (numScheduled : Nat) (c : Connector μ σ) : Prop → Connector μ σ → Prop
  | idle {c' : Connector μ σ} (h : Counted r c c') : CountPost r numScheduled c False c'
  | pass {c₁ c' : Connector μ σ} {moved : List BlockRef} {failed : Prop}
      (hdue : WindowDue cfg c.toConnectorState r numScheduled) (h₁ : Counted r c c₁)
      (h₂ : TriggerStep cfg dev c₁ moved failed c') : CountPost r numScheduled c failed c'

/-- The body of the second loop. -/
inductive CachedPost (out : SchedulerOutput) (req : CachedRequestData) (c : Connector μ σ) : Prop → Connector μ σ → Prop
  | syncFailed {c' : Connector μ σ}
      (h : SyncStep cfg dev req.requestId (fullBlockIds c.toConnectorState req) req.numComputedTokens c True c') :
      CachedPost out req c True c'
  | checkFailed {c₁ c' : Connector μ σ}
      (h₁ : SyncStep cfg dev req.requestId (fullBlockIds c.toConnectorState req) req.numComputedTokens c False c₁)
      (h₂ : CheckPost cfg dev req c₁ True c') : CachedPost out req c True c'
  | counted {c₁ c₂ c' : Connector μ σ} {failed : Prop}
      (h₁ : SyncStep cfg dev req.requestId (fullBlockIds c.toConnectorState req) req.numComputedTokens c False c₁)
      (h₂ : CheckPost cfg dev req c₁ False c₂)
      (h₃ : CountPost cfg dev req.requestId (out.numScheduledTokens req.requestId) c₂ failed c') :
      CachedPost out req c failed c'

/-- The decode count of a new request starts, and its prompt length is on record. -/
structure Started (req : NewRequestData) (c : Connector μ σ) (c' : Connector μ σ) : Prop where
  started : ∀ r, r ≠ req.requestId → (r ∈ c'.controller.started ↔ r ∈ c.controller.started)
  decoded : ∀ r, r ≠ req.requestId → c'.controller.decodeTokens.get? r = c.controller.decodeTokens.get? r
  state : c' = { c with controller := c'.controller, promptLens := c.promptLens.set req.requestId req.promptLen }

/-- The body of the first loop. -/
inductive NewPost (req : NewRequestData) (c : Connector μ σ) : Prop → Connector μ σ → Prop
  | syncFailed {c' : Connector μ σ}
      (h : SyncStep cfg dev req.requestId req.blockIds req.numComputedTokens c True c') : NewPost req c True c'
  | tracked {c₁ c' : Connector μ σ}
      (h₁ : SyncStep cfg dev req.requestId req.blockIds req.numComputedTokens c False c₁) (h₂ : Started req c₁ c') :
      NewPost req c False c'

/-- The body of the third loop. -/
inductive CompleteNewPost (req : NewRequestData) (c : Connector μ σ) : Prop → Connector μ σ → Prop
  | idle : CompleteNewPost req c False c
  | complete {c' : Connector μ σ} {failed : Prop}
      (hdue : req.promptLen ≤ req.numComputedTokens ∧ req.requestId ∉ c.prefillCompleted)
      (h : CompletePost cfg dev req.requestId req.numComputedTokens c failed c') : CompleteNewPost req c failed c'

end Composed

section Kept

variable {cfg : ConnectorConfig} {dev : Device μ φ ν S} {scorer : BlockScorer σ ν S} {c c' : Connector μ σ}
  {failed : Prop}

theorem SyncStep.requestBlocks {r : RequestId} {ids : List Nat} {n : Nat} (h : SyncStep cfg dev r ids n c failed c') :
    c'.orchestrator.requestBlocks = c.orchestrator.requestBlocks ∨ isWarmup r = false ∧
      c'.orchestrator.requestBlocks = c.orchestrator.requestBlocks.set r (blockRefs r ids.length) := by
  by_cases hkept : failed ∨ isWarmup r = true
  · exact Or.inl (h.lists_kept hkept)
  · rw [not_or, Bool.not_eq_true] at hkept
    exact Or.inr ⟨hkept.2, h.lists hkept.1 hkept.2⟩

theorem SyncStep.sound {r : RequestId} {ids : List Nat} {n : Nat} (h : SyncStep cfg dev r ids n c failed c')
    (hsound : Sound cfg dev c.toConnectorState) : Sound cfg dev c'.toConnectorState := by
  cases hwarm : isWarmup r with
  | true =>
      refine hsound.of_kept h.ok (h.lists_kept (Or.inr hwarm)) fun ref habsent => ?_
      rw [h.kept ref (Or.inl hwarm), habsent]
  | false =>
      exact hsound.of_set h.ok hwarm (h.requestBlocks.imp_right And.right) fun ref href => h.kept ref (Or.inr href)

theorem SyncStep.untouched {r r' : RequestId} {ids : List Nat} {n : Nat} (h : SyncStep cfg dev r ids n c failed c')
    (hne : r' ≠ r) : Untouched r' c.toConnectorState c'.toConnectorState := by
  refine ⟨?_, ?_, by rw [h.state], by rw [h.state], by rw [h.state], by rw [h.state],
    fun ref page complete href hplace => ?_⟩
  · rw [h.state]
    exact OrderedDict.get?_set_of_ne _ _ hne
  · rcases h.requestBlocks with hsame | ⟨-, hset⟩
    · rw [hsame]
    · rw [hset, OrderedDict.get?_set_of_ne _ _ hne]
  · rcases h.place_cases ref with ⟨hsame, -⟩ | ⟨i, page', rfl, -⟩
    · rw [← hsame, hplace]
    · exact absurd href.symm hne

theorem GraduateStep.sound {r : RequestId} {n : Nat} (h : GraduateStep cfg dev r n c failed c')
    (hsound : Sound cfg dev c.toConnectorState) : Sound cfg dev c'.toConnectorState := by
  refine hsound.of_kept h.ok (by rw [h.state]) fun ref habsent => ?_
  rw [h.place ref, habsent]
  split_ifs <;> rfl

theorem GraduateStep.listed_of_graduated {r : RequestId} {n : Nat} (h : GraduateStep cfg dev r n c failed c')
    {ref : BlockRef} (hchanged : c'.place ref ≠ c.place ref) :
    ref ∈ listedBlocks c.orchestrator r ∧ Filled cfg.toOrchestratorConfig n ref := by
  rw [h.place ref] at hchanged
  split_ifs at hchanged with hgraduates
  · refine ⟨?_, hgraduates.2⟩
    have hmem := hgraduates.1
    rw [prefillRefs] at hmem
    split_ifs at hmem
    · cases hmem
    · exact hmem
  · exact absurd rfl hchanged

theorem GraduateStep.untouched {r r' : RequestId} {n : Nat} (h : GraduateStep cfg dev r n c failed c')
    (hsound : Sound cfg dev c.toConnectorState) (hne : r' ≠ r) :
    Untouched r' c.toConnectorState c'.toConnectorState := by
  refine ⟨by rw [h.state], by rw [h.state], by rw [h.state], ?_, by rw [h.state], by rw [h.state],
    fun ref page complete href hplace => ?_⟩
  · rw [h.state]
    exact ⟨fun hmem => (Finset.mem_insert.mp hmem).resolve_left hne, Finset.mem_insert_of_mem⟩
  · by_cases hsame : c'.place ref = c.place ref
    · rw [← hsame, hplace]
    · have hlisted := hsound.requestId_of_listed (h.listed_of_graduated hsame).1
      exact absurd (href.symm.trans hlisted) hne

theorem TriggerStep.place_eq_gpu {moved : List BlockRef} (h : TriggerStep cfg dev c moved failed c') {ref : BlockRef}
    {page : Nat} {complete : Bool} (hplace : c'.place ref = .gpu page complete) :
    ref ∉ moved ∧ c.place ref = .gpu page complete := by
  rw [h.place ref] at hplace
  split_ifs at hplace with hmem
  exact ⟨hmem, hplace⟩

theorem TriggerStep.gpu {moved : List BlockRef} (h : TriggerStep cfg dev c moved failed c') :
    ∀ ref ∈ moved, (gpuPage c.orchestrator.store.residency ref).isSome := by
  intro ref href
  obtain ⟨page, hplace⟩ := mem_allowedBlocks (h.allowed ref href)
  rw [gpuPage_eq_some_iff.mpr ⟨true, hplace⟩]
  rfl

/-- Every block of a batch has its page. -/
theorem TriggerStep.pages_length {moved : List BlockRef} (h : TriggerStep cfg dev c moved failed c') :
    (recordedPages c.orchestrator.store.residency moved).length = moved.length := by
  apply recordedPages_length
  intro ref href
  obtain ⟨page, hpage⟩ := Option.isSome_iff_exists.mp (h.gpu ref href)
  obtain ⟨loc, hget, -⟩ := gpuPage_eq_some.mp hpage
  rw [hget]
  rfl

theorem TriggerStep.sound {moved : List BlockRef} (h : TriggerStep cfg dev c moved failed c')
    (hsound : Sound cfg dev c.toConnectorState) : Sound cfg dev c'.toConnectorState := by
  refine hsound.of_kept h.ok (by rw [h.state]) fun ref habsent => ?_
  have hmem : ref ∉ moved := by
    intro hmem
    obtain ⟨page, hplace⟩ := mem_allowedBlocks (h.allowed ref hmem)
    rw [habsent] at hplace
    cases hplace
  rw [h.place ref, if_neg hmem, habsent]

theorem TriggerStep.untouched {moved : List BlockRef} (h : TriggerStep cfg dev c moved failed c') (r : RequestId) :
    Untouched r c.toConnectorState c'.toConnectorState :=
  ⟨by rw [h.state], by rw [h.state], by rw [h.state], by rw [h.state], by rw [h.state], by rw [h.state],
    fun _ _ _ _ hplace => (h.place_eq_gpu hplace).2⟩

theorem Counted.place {r : RequestId} (h : Counted r c c') : c'.place = c.place := by
  rw [h.state]
  rfl

theorem Counted.sound {r : RequestId} (h : Counted r c c') (hsound : Sound cfg dev c.toConnectorState) :
    Sound cfg dev c'.toConnectorState := by
  rw [h.state]
  exact ⟨hsound.ok, hsound.lists, hsound.ordinary⟩

theorem Counted.untouched {r r' : RequestId} (h : Counted r c c') (hne : r' ≠ r) :
    Untouched r' c.toConnectorState c'.toConnectorState :=
  ⟨by rw [h.state], by rw [h.state], by rw [h.state], by rw [h.state], by rw [h.started], h.decoded r' hne,
    fun _ _ _ _ hplace => by rwa [h.place] at hplace⟩

theorem Started.place {req : NewRequestData} (h : Started req c c') : c'.place = c.place := by
  rw [h.state]
  rfl

theorem Started.sound {req : NewRequestData} (h : Started req c c') (hsound : Sound cfg dev c.toConnectorState) :
    Sound cfg dev c'.toConnectorState := by
  rw [h.state]
  exact ⟨hsound.ok, hsound.lists, hsound.ordinary⟩

theorem Started.untouched {req : NewRequestData} (h : Started req c c') {r : RequestId} (hne : r ≠ req.requestId) :
    Untouched r c.toConnectorState c'.toConnectorState := by
  refine ⟨by rw [h.state], by rw [h.state], ?_, by rw [h.state], h.started r hne, h.decoded r hne,
    fun _ _ _ _ hplace => by rwa [h.place] at hplace⟩
  rw [h.state]
  exact OrderedDict.get?_set_of_ne _ _ hne

/-- A part that works on request `r` keeps the states sound and leaves the other requests alone. -/
structure Keeps (cfg : ConnectorConfig) (dev : Device μ φ ν S) (r : RequestId) (c c' : ConnectorState μ σ) : Prop where
  sound : Sound cfg dev c'
  others : ∀ r', r' ≠ r → Untouched r' c c'

theorem Keeps.trans {r : RequestId} {c c₁ c₂ : ConnectorState μ σ} (h₁ : Keeps cfg dev r c c₁)
    (h₂ : Keeps cfg dev r c₁ c₂) : Keeps cfg dev r c c₂ :=
  ⟨h₂.sound, fun r' hne => (h₁.others r' hne).trans (h₂.others r' hne)⟩

variable (hsound : Sound cfg dev c.toConnectorState)

include hsound

theorem SyncStep.keeps {r : RequestId} {ids : List Nat} {n : Nat} (h : SyncStep cfg dev r ids n c failed c') :
    Keeps cfg dev r c.toConnectorState c'.toConnectorState :=
  ⟨h.sound hsound, fun _ hne => h.untouched hne⟩

theorem TriggerStep.keeps {moved : List BlockRef} (h : TriggerStep cfg dev c moved failed c') (r : RequestId) :
    Keeps cfg dev r c.toConnectorState c'.toConnectorState :=
  ⟨h.sound hsound, fun r' _ => h.untouched r'⟩

theorem CompletePost.keeps {r : RequestId} {n : Nat} (h : CompletePost cfg dev r n c failed c') :
    Keeps cfg dev r c.toConnectorState c'.toConnectorState := by
  cases h with
  | failed h => exact ⟨h.sound hsound, fun _ hne => h.untouched hsound hne⟩
  | pass h₁ h₂ =>
      have hkeeps : Keeps cfg dev r c.toConnectorState _ := ⟨h₁.sound hsound, fun _ hne => h₁.untouched hsound hne⟩
      exact hkeeps.trans (h₂.keeps hkeeps.sound r)

theorem CheckPost.keeps {req : CachedRequestData} (h : CheckPost cfg dev req c failed c') :
    Keeps cfg dev req.requestId c.toConnectorState c'.toConnectorState := by
  cases h with
  | idle _ => exact ⟨hsound, fun r' _ => Untouched.refl r' _⟩
  | complete _ h => exact h.keeps hsound

theorem CountPost.keeps {r : RequestId} {k : Nat} (h : CountPost cfg dev r k c failed c') :
    Keeps cfg dev r c.toConnectorState c'.toConnectorState := by
  cases h with
  | idle h => exact ⟨h.sound hsound, fun _ hne => h.untouched hne⟩
  | pass _ h₁ h₂ =>
      have hkeeps : Keeps cfg dev r c.toConnectorState _ := ⟨h₁.sound hsound, fun _ hne => h₁.untouched hne⟩
      exact hkeeps.trans (h₂.keeps hkeeps.sound r)

theorem CachedPost.keeps {out : SchedulerOutput} {req : CachedRequestData}
    (h : CachedPost cfg dev out req c failed c') :
    Keeps cfg dev req.requestId c.toConnectorState c'.toConnectorState := by
  cases h with
  | syncFailed h => exact h.keeps hsound
  | checkFailed h₁ h₂ => exact (h₁.keeps hsound).trans (h₂.keeps (h₁.sound hsound))
  | counted h₁ h₂ h₃ =>
      have hkeeps := (h₁.keeps hsound).trans (h₂.keeps (h₁.sound hsound))
      exact hkeeps.trans (h₃.keeps hkeeps.sound)

theorem NewPost.keeps {req : NewRequestData} (h : NewPost cfg dev req c failed c') :
    Keeps cfg dev req.requestId c.toConnectorState c'.toConnectorState := by
  cases h with
  | syncFailed h => exact h.keeps hsound
  | tracked h₁ h₂ =>
      exact (h₁.keeps hsound).trans ⟨h₂.sound (h₁.sound hsound), fun _ hne => h₂.untouched hne⟩

theorem CompleteNewPost.keeps {req : NewRequestData} (h : CompleteNewPost cfg dev req c failed c') :
    Keeps cfg dev req.requestId c.toConnectorState c'.toConnectorState := by
  cases h with
  | idle => exact ⟨hsound, fun r' _ => Untouched.refl r' _⟩
  | complete _ h => exact h.keeps hsound

end Kept

section Specs

variable {cfg : ConnectorConfig} {dev : Device μ φ ν S} {scorer : BlockScorer σ ν S} {c : Connector μ σ}

theorem wp_completePrefill (h : Sound cfg dev c.toConnectorState) (r : RequestId) (n : Nat) :
    Eff.wp (completePrefill cfg dev scorer r n) (fun _ c' => CompletePost cfg dev r n c False c')
      (fun _ c' => CompletePost cfg dev r n c True c') c := by
  rw [completePrefill, Eff.wp_bind, Eff.wp_modify, Eff.wp_bind, onOrchestrator, Eff.wp_zoom]
  have hstep : ∀ {failed : Prop} {o : Orchestrator μ σ},
      PrefillPost cfg.toOrchestratorConfig (Backing.trivial dev) scorer n
      (prefillRefs c.orchestrator r) c.orchestrator failed o ∧ OrchestratorAdvances c.orchestrator o →
      GraduateStep cfg dev r n c failed
        { c with prefillCompleted := insert r c.prefillCompleted, orchestrator := o } := by
    rintro failed o ⟨hpost, hadvances⟩
    refine ⟨hpost.ok, fun ref => hpost.table.placement ref, hadvances.store.tick_le,
      fun hfailed => (hpost.fault hfailed).between, ?_⟩
    rw [hpost.state]
  refine Eff.wp_mono ((moves_onPrefillComplete r n).wp_and (wp_onPrefillComplete h.ok r n))
    (fun _ o hpost => ?_) fun _ o hpost => .failed (hstep hpost)
  refine Eff.wp_mono (wp_triggerGlobalOffload ((hstep hpost).sound h)) ?_ ?_
  · rintro _ c' ⟨moved, htrigger⟩
    exact .pass (hstep hpost) htrigger
  · rintro _ c' ⟨moved, htrigger⟩
    exact .pass (hstep hpost) htrigger

theorem wp_checkPrefill (h : Sound cfg dev c.toConnectorState) (req : CachedRequestData) :
    Eff.wp (checkPrefill cfg dev scorer req) (fun _ c' => CheckPost cfg dev req c False c')
      (fun _ c' => CheckPost cfg dev req c True c') c := by
  rw [checkPrefill, Eff.wp_bind, Eff.wp_read, Eff.wp_ite]
  constructor
  · intro hdue
    exact Eff.wp_mono (wp_completePrefill h _ _) (fun _ _ hpost => .complete hdue hpost)
      fun _ _ hpost => .complete hdue hpost
  · intro hidle
    exact .idle hidle

theorem counted_onDecode {c : Connector μ σ} {r : RequestId} (hr : r ∈ c.prefillCompleted) (window n : Nat) :
    Counted r c { c with
      trace := c.trace ++ [.decoded r n], controller := (c.controller.onDecode window r n).2 } := by
  have htrace : r ∈ c.prefillCompleted ∧
      ∃ numTokens, c.trace ++ [.decoded r n] = c.trace ++ [TraceEvent.decoded r numTokens] := ⟨hr, n, rfl⟩
  unfold Controller.onDecode
  split_ifs with hstarted hneg
  · exact ⟨rfl, fun _ _ => rfl, Or.inr htrace, rfl⟩
  · exact ⟨rfl, fun r' hne => OrderedDict.get?_set_of_ne _ _ hne, Or.inr htrace, rfl⟩
  · exact ⟨rfl, fun _ _ => rfl, Or.inr htrace, rfl⟩

theorem onDecode_eq (k : Controller) (window : Nat) (r : RequestId) (numScheduled : Nat) :
    (k.onDecode window r numScheduled).1 = .ok (decide (r ∈ k.started) &&
      Controller.shouldTrigger window ((k.decodeTokens.get? r).getD 0 + numScheduled)) := by
  unfold Controller.onDecode
  by_cases hstarted : r ∈ k.started
  · rw [if_neg (not_not_intro hstarted), if_neg (by omega)]
    simp [hstarted]
  · rw [if_pos hstarted]
    simp [hstarted]

theorem wp_countDecode (h : Sound cfg dev c.toConnectorState) (r : RequestId) (numScheduled : Nat) :
    Eff.wp (countDecode cfg dev scorer r numScheduled) (fun _ c' => CountPost cfg dev r numScheduled c False c')
      (fun _ c' => CountPost cfg dev r numScheduled c True c') c := by
  rw [countDecode, Eff.wp_bind, Eff.wp_read, Eff.wp_ite]
  constructor
  · intro hdecodes
    have hcounted := counted_onDecode hdecodes.2 cfg.window numScheduled
    have hrun : onConnectorController (fun k => k.onDecode cfg.window r numScheduled)
        { c with trace := c.trace ++ [.decoded r numScheduled] } =
        (.ok (decide (r ∈ c.controller.started) &&
          Controller.shouldTrigger cfg.window ((c.controller.decodeTokens.get? r).getD 0 + numScheduled)),
          { c with
            trace := c.trace ++ [.decoded r numScheduled]
            controller := (c.controller.onDecode cfg.window r numScheduled).2 }) := by
      rw [onConnectorController, onDecode_eq]
    rw [Eff.wp_bind, Eff.wp_modify, Eff.wp_bind]
    refine Eff.wp_of_ok hrun ?_
    rw [Eff.wp_ite]
    constructor
    · intro hdue
      rw [Bool.and_eq_true, decide_eq_true_iff] at hdue
      have hwindow : WindowDue cfg c.toConnectorState r numScheduled := ⟨hdecodes.1, hdecodes.2, hdue.1, hdue.2⟩
      refine Eff.wp_mono (wp_triggerGlobalOffload (hcounted.sound h)) ?_ ?_
      · rintro _ c' ⟨moved, htrigger⟩
        exact .pass hwindow hcounted htrigger
      · rintro _ c' ⟨moved, htrigger⟩
        exact .pass hwindow hcounted htrigger
    · intro _
      exact .idle hcounted
  · intro _
    exact .idle ⟨rfl, fun _ _ => rfl, Or.inl rfl, rfl⟩

theorem wp_trackCached (h : Sound cfg dev c.toConnectorState) (out : SchedulerOutput) (req : CachedRequestData) :
    Eff.wp (trackCached cfg dev scorer out req) (fun _ c' => CachedPost cfg dev out req c False c')
      (fun _ c' => CachedPost cfg dev out req c True c') c := by
  rw [trackCached, Eff.wp_bind, Eff.wp_read, Eff.wp_bind]
  refine Eff.wp_mono (wp_syncBlockTable h.ok _ _ _) (fun _ c₁ h₁ => ?_) fun _ _ h₁ => .syncFailed h₁
  rw [Eff.wp_bind]
  refine Eff.wp_mono (wp_checkPrefill (h₁.sound h) req) (fun _ c₂ h₂ => ?_) fun _ _ h₂ => .checkFailed h₁ h₂
  have hsound := (h₂.keeps (h₁.sound h)).sound
  exact Eff.wp_mono (wp_countDecode hsound _ _) (fun _ _ h₃ => .counted h₁ h₂ h₃) fun _ _ h₃ => .counted h₁ h₂ h₃

theorem wp_trackNew (h : Sound cfg dev c.toConnectorState) (req : NewRequestData) :
    Eff.wp (trackNew cfg dev scorer req) (fun _ c' => NewPost cfg dev req c False c')
      (fun _ c' => NewPost cfg dev req c True c') c := by
  rw [trackNew, Eff.wp_bind]
  refine Eff.wp_mono (wp_syncBlockTable h.ok _ _ _) (fun _ c₁ h₁ => ?_) fun _ _ h₁ => .syncFailed h₁
  rw [Eff.wp_modify]
  refine .tracked h₁ ⟨fun r hne => ?_, fun r hne => ?_, rfl⟩
  · split_ifs
    · exact Iff.rfl
    · exact ⟨fun hmem => (Finset.mem_insert.mp hmem).resolve_left hne, Finset.mem_insert_of_mem⟩
  · split_ifs
    · rfl
    · exact OrderedDict.get?_set_of_ne _ _ hne

theorem wp_completeNew (h : Sound cfg dev c.toConnectorState) (req : NewRequestData) :
    Eff.wp (completeNew cfg dev scorer req) (fun _ c' => CompleteNewPost cfg dev req c False c')
      (fun _ c' => CompleteNewPost cfg dev req c True c') c := by
  rw [completeNew, Eff.wp_bind, Eff.wp_read, Eff.wp_ite]
  constructor
  · intro hdue
    exact Eff.wp_mono (wp_completePrefill h _ _) (fun _ _ hpost => .complete hdue hpost)
      fun _ _ hpost => .complete hdue hpost
  · intro _
    exact .idle

end Specs

section Elim

/-- A part that failed ended in `E`, one that finished in `P`. -/
structure Ends (failed : Prop) (E P : Connector μ σ → Prop) (c : Connector μ σ) : Prop where
  raised : failed → E c
  returned : ¬failed → P c

variable {cfg : ConnectorConfig} {dev : Device μ φ ν S} {c c' : Connector μ σ} {failed : Prop}
  {E P₁ P : Connector μ σ → Prop}

variable (hsound : Sound cfg dev c.toConnectorState)

include hsound

theorem CompletePost.elim {r : RequestId} {n : Nat} (h : CompletePost cfg dev r n c failed c')
    (hgraduate : ∀ failed c₁, GraduateStep cfg dev r n c failed c₁ → Ends failed E P c₁)
    (htrigger : ∀ c₁ moved failed c₂, Sound cfg dev c₁.toConnectorState → P c₁ →
      TriggerStep cfg dev c₁ moved failed c₂ → Ends failed E P c₂) :
    Ends failed E P c' := by
  cases h with
  | failed h => exact hgraduate _ c' h
  | pass h₁ h₂ => exact htrigger _ _ _ c' (h₁.sound hsound) ((hgraduate _ _ h₁).returned not_false) h₂

theorem CompleteNewPost.elim {req : NewRequestData} (h : CompleteNewPost cfg dev req c failed c') (hP : P c)
    (hgraduate : ∀ failed c₁, req.promptLen ≤ req.numComputedTokens →
      GraduateStep cfg dev req.requestId req.numComputedTokens c failed c₁ → Ends failed E P c₁)
    (htrigger : ∀ c₁ moved failed c₂, Sound cfg dev c₁.toConnectorState → P c₁ →
      TriggerStep cfg dev c₁ moved failed c₂ → Ends failed E P c₂) :
    Ends failed E P c' := by
  cases h with
  | idle => exact ⟨False.elim, fun _ => hP⟩
  | complete hdue h => exact h.elim hsound (fun failed c₁ h₁ => hgraduate failed c₁ hdue.1 h₁) htrigger

theorem NewPost.elim {req : NewRequestData} (h : NewPost cfg dev req c failed c')
    (hsync : ∀ failed c₁, SyncStep cfg dev req.requestId req.blockIds req.numComputedTokens c failed c₁ →
      Ends failed E P₁ c₁)
    (hstarted : ∀ c₁ c₂, Sound cfg dev c₁.toConnectorState → P₁ c₁ → Started req c₁ c₂ → P c₂) :
    Ends failed E P c' := by
  cases h with
  | syncFailed h => exact ⟨(hsync _ c' h).raised, fun hok => absurd True.intro hok⟩
  | tracked h₁ h₂ =>
      exact ⟨False.elim, fun _ => hstarted _ c' (h₁.sound hsound) ((hsync _ _ h₁).returned not_false) h₂⟩

/-- Between its sync and the prefill check a cached request may be in an exceptional state `P₁`. -/
theorem CachedPost.elim {out : SchedulerOutput} {req : CachedRequestData} (h : CachedPost cfg dev out req c failed c')
    (hsync : ∀ failed c₁, SyncStep cfg dev req.requestId (fullBlockIds c.toConnectorState req) req.numComputedTokens c
      failed c₁ → Ends failed E P₁ c₁)
    (hidle : ∀ c₁, Sound cfg dev c₁.toConnectorState → P₁ c₁ → ¬Completes c₁.toConnectorState req → P c₁)
    (hgraduate : ∀ c₁ failed c₂, Sound cfg dev c₁.toConnectorState → P₁ c₁ → Completes c₁.toConnectorState req →
      GraduateStep cfg dev req.requestId req.numComputedTokens c₁ failed c₂ → Ends failed E P c₂)
    (htrigger : ∀ c₁ moved failed c₂, Sound cfg dev c₁.toConnectorState → P c₁ →
      TriggerStep cfg dev c₁ moved failed c₂ → Ends failed E P c₂)
    (hcounted : ∀ c₁ c₂, Sound cfg dev c₁.toConnectorState → P c₁ → Counted req.requestId c₁ c₂ → P c₂) :
    Ends failed E P c' := by
  have hcheck : ∀ {c₁ c₂ : Connector μ σ} {failed : Prop},
      SyncStep cfg dev req.requestId (fullBlockIds c.toConnectorState req) req.numComputedTokens c False c₁ →
      CheckPost cfg dev req c₁ failed c₂ → Ends failed E P c₂ := by
    intro c₁ c₂ failed h₁ h₂
    have hP₁ := (hsync _ c₁ h₁).returned not_false
    have hsound₁ := h₁.sound hsound
    cases h₂ with
    | idle hnot => exact ⟨False.elim, fun _ => hidle _ hsound₁ hP₁ hnot⟩
    | complete hdue h₂ =>
        exact h₂.elim hsound₁ (fun failed c₂ hgrad => hgraduate c₁ failed c₂ hsound₁ hP₁ hdue hgrad) htrigger
  cases h with
  | syncFailed h => exact ⟨(hsync _ c' h).raised, fun hok => absurd True.intro hok⟩
  | checkFailed h₁ h₂ => exact hcheck h₁ h₂
  | counted h₁ h₂ h₃ =>
      have hsound₂ := (h₂.keeps (h₁.sound hsound)).sound
      have hP := (hcheck h₁ h₂).returned not_false
      cases h₃ with
      | idle h₃ => exact ⟨False.elim, fun _ => hcounted _ c' hsound₂ hP h₃⟩
      | pass _ h₃ h₄ => exact htrigger _ _ _ c' (h₃.sound hsound₂) (hcounted _ _ hsound₂ hP h₃) h₄

end Elim

end KVOffload

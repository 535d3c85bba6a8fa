import KVOffload.ConnectorModel
import KVOffload.VllmBatchOrder

/-! The model runner. It keeps the state of every request it has been told of, and the batch with those that are
scheduled, from which the inputs of a step are taken. `_update_states` brings both up to date from what the scheduler
sends, which for a request it knows is only what is new. -/

namespace KVOffload
open Base

/-- The order in which the runtime iterates a set of requests. -/
structure RequestOrder where
  toList : List RequestId → List RequestId
  perm : ∀ rs, (toList rs).Perm rs

/-- What the scheduler sends to the runner. -/
structure RunnerInput extends SchedulerOutput where
  /-- `num_scheduled_tokens.keys()` -/
  scheduledReqIds : List RequestId
  /-- `finished_req_ids`, as it is iterated. -/
  finishedReqIds : List RequestId
  /-- How the difference of the key sets is iterated. -/
  order : RequestOrder

structure Runner where
  requests : OrderedDict RequestId CachedRequestState
  inputBatch : InputBatch

abbrev RunnerM (α : Type) : Type := Eff Runner RunnerError α

namespace NewRequestData

def state (e : NewRequestData) : CachedRequestState := ⟨e.promptLen, e.numComputedTokens, e.blockIds⟩

end NewRequestData

namespace CachedRequestData

/-- The state of a known request after the update: new pages are appended, or replace all pages of a resumed request. -/
def update (e : CachedRequestData) (req : CachedRequestState) : CachedRequestState :=
  { req with
    numComputedTokens := e.numComputedTokens
    blockIds := if e.resumed then e.newBlockIds.getD [] else req.blockIds ++ e.newBlockIds.getD [] }

end CachedRequestData

namespace RunnerInput

variable (input : RunnerInput)

def newIds : List RequestId := input.newReqs.map (·.requestId)

def cachedIds : List RequestId := input.cachedReqs.map (·.requestId)

/-- `resumed_req_ids` -/
def resumedReqIds : List RequestId := (input.cachedReqs.filter (·.resumed)).map (·.requestId)

/-- `cached_req_ids - (scheduled_req_ids - resumed_req_ids)` -/
def unscheduled (b : InputBatch) : List RequestId :=
  input.order.toList (b.reqIdToIndex.keys.filter fun r =>
    !(input.scheduledReqIds.contains r && !input.resumedReqIds.contains r))

end RunnerInput

namespace Runner

def onBatch {α : Type} (m : BatchM α) : RunnerM α := Eff.zoom inputBatch (fun s b => { s with inputBatch := b }) m

def setRequest (r : RequestId) (req : CachedRequestState) (s : Runner) : Runner :=
  { s with requests := s.requests.set r req }

@[simp] theorem inputBatch_setRequest (r : RequestId) (req : CachedRequestState) (s : Runner) :
    (setRequest r req s).inputBatch = s.inputBatch := rfl

/-- A loop of `remove_request`. -/
def removeRequests (rs : List RequestId) : BatchM Unit :=
  Eff.forEach rs fun r => do
    let _ ← InputBatch.removeRequest r
    pure ()

/-- One of `scheduled_new_reqs`. A request that is known (`_update_streaming_request`) leaves the batch first. -/
def addNewRequest (e : NewRequestData) : RunnerM Unit := do
  let s ← Eff.read
  onBatch (removeRequests (if s.requests.get? e.requestId = none then [] else [e.requestId]))
  Eff.modify (setRequest e.requestId e.state)

/-- One of `scheduled_cached_reqs`. Returns whether the request has to be added to the batch. -/
def updateCachedRequest (e : CachedRequestData) : RunnerM Bool := do
  let s ← Eff.read
  match s.requests.get? e.requestId with
  | none => Eff.raise .unknownRequest
  | some req => do
      let reqIndex := s.inputBatch.reqIdToIndex.get? e.requestId
      Eff.modify (setRequest e.requestId { req with numComputedTokens := e.numComputedTokens })
      if e.resumed ∧ reqIndex ≠ none then Eff.raise .resumedInBatch
      else if e.resumed ∧ e.newBlockIds = none then Eff.raise .resumedWithoutBlocks
      else do
        Eff.modify (setRequest e.requestId (e.update req))
        match reqIndex with
        | none => pure true
        | some i => do
            onBatch (InputBatch.updateRow i e.numComputedTokens e.newBlockIds)
            pure false

/-- The requests among them that join `reqs_to_add`. -/
def updateCachedRequests : List CachedRequestData → RunnerM (List RequestId)
  | [] => pure []
  | e :: rest => do
      let absent ← updateCachedRequest e
      let reqsToAdd ← updateCachedRequests rest
      pure (if absent then e.requestId :: reqsToAdd else reqsToAdd)

/-- The loop over `reqs_to_add`, which holds references to the cached states. -/
def addRequests (reqsToAdd : List RequestId) : RunnerM Unit :=
  Eff.forEach reqsToAdd fun r => do
    let s ← Eff.read
    match s.requests.get? r with
    | none => Eff.raise .unknownRequest
    | some req => do
        let _ ← onBatch (InputBatch.addRequest r req)
        pure ()

/-- `_update_states` up to the new requests: those that have finished are forgotten and leave the batch, those that are
not scheduled only leave the batch. -/
def removeUnscheduled (input : RunnerInput) : RunnerM Unit := do
  Eff.modify fun s => { s with requests := input.finishedReqIds.foldl OrderedDict.erase s.requests }
  onBatch (removeRequests input.finishedReqIds)
  let s ← Eff.read
  onBatch (removeRequests (input.unscheduled s.inputBatch))

/-- The end of `_update_states`, with `_may_reorder_batch`. -/
def arrangeBatch (numScheduledTokens : RequestId → Nat) (decodeThreshold : Nat) : BatchM Unit := do
  InputBatch.condense
  let _ ← InputBatch.reorderBatch numScheduledTokens decodeThreshold
  InputBatch.refreshMetadata

/-- `_update_states` -/
def updateStates (decodeThreshold : Nat) (input : RunnerInput) : RunnerM Unit := do
  removeUnscheduled input
  Eff.forEach input.newReqs addNewRequest
  let absent ← updateCachedRequests input.cachedReqs
  addRequests (input.newIds ++ absent)
  onBatch (arrangeBatch input.numScheduledTokens decodeThreshold)

def init (maxNumReqs maxNumBlocksPerReq : Nat) : Runner where
  requests := .empty
  inputBatch :=
    { maxNumReqs := maxNumReqs
      reqIds := []
      reqIdToIndex := .empty
      numPromptTokens := fun _ => 0
      numComputedTokensCpu := fun _ => 0
      blockTable := ⟨maxNumBlocksPerReq, fun _ => 0, fun _ _ => 0⟩
      batchUpdateBuilder := .reset }

def step (decodeThreshold : Nat) (s : Runner) (input : RunnerInput) : Runner := (updateStates decodeThreshold input s).2

end Runner

section Abstract

/-- The states after the new requests have been entered. -/
def enterNew (m : RequestId → Option CachedRequestState) (es : List NewRequestData) :
    RequestId → Option CachedRequestState :=
  es.foldl (fun m e => Function.update m e.requestId (some e.state)) m

/-- The states after the known requests have been updated. -/
def enterCached (m : RequestId → Option CachedRequestState) (es : List CachedRequestData) :
    RequestId → Option CachedRequestState :=
  es.foldl (fun m e => Function.update m e.requestId ((m e.requestId).map e.update)) m

def forget (m : RequestId → Option CachedRequestState) (rs : List RequestId) (r : RequestId) :
    Option CachedRequestState :=
  if rs.contains r then none else m r

/-- What the runner should know after the step. -/
def RunnerInput.next (input : RunnerInput) (m : RequestId → Option CachedRequestState) :
    RequestId → Option CachedRequestState :=
  enterCached (enterNew (forget m input.finishedReqIds) input.newReqs) input.cachedReqs

variable {m : RequestId → Option CachedRequestState} {r : RequestId}

theorem forget_of_notMem {rs : List RequestId} (h : r ∉ rs) : forget m rs r = m r := by
  rw [forget, if_neg (mt List.contains_iff_mem.mp h)]

theorem enterNew_of_notMem {es : List NewRequestData} (h : r ∉ es.map (·.requestId)) : enterNew m es r = m r := by
  induction es generalizing m with
  | nil => rfl
  | cons e rest ih =>
      rw [List.map_cons, List.mem_cons, not_or] at h
      rw [enterNew, List.foldl_cons]
      exact (ih h.2).trans (Function.update_of_ne h.1 _ _)

theorem isSome_enterNew {es : List NewRequestData} (h : r ∈ es.map (·.requestId) ∨ (m r).isSome) :
    (enterNew m es r).isSome := by
  induction es generalizing m with
  | nil => exact h.resolve_left (by simp)
  | cons e rest ih =>
      rw [enterNew, List.foldl_cons]
      apply ih
      by_cases hr : r = e.requestId
      · rw [hr, Function.update_self]
        exact .inr rfl
      · rw [Function.update_of_ne hr]
        rcases h with hmem | hsome
        · exact .inl ((List.mem_cons.mp hmem).resolve_left hr)
        · exact .inr hsome

theorem isSome_enterCached {es : List CachedRequestData} (h : (m r).isSome) : (enterCached m es r).isSome := by
  induction es generalizing m with
  | nil => exact h
  | cons e rest ih =>
      rw [enterCached, List.foldl_cons]
      apply ih
      by_cases hr : r = e.requestId
      · rw [hr, Function.update_self, Option.isSome_map, ← hr]
        exact h
      · rwa [Function.update_of_ne hr]

end Abstract

namespace Runner

open InputBatch

section Phases

/-- In the course of a step: the runner knows `m`, and the requests in `B` have rows, which say the same. -/
structure Holds (s₀ : Runner) (m : RequestId → Option CachedRequestState) (B : RequestId → Prop) (s : Runner) :
    Prop where
  tracked : InputBatch.Tracked s.inputBatch
  limits : SameLimits s₀.inputBatch s.inputBatch
  requests : ∀ r, s.requests.get? r = m r
  batch : ∀ r state, s.inputBatch.state? r = some state ↔ B r ∧ m r = some state
  present : ∀ r, B r → (m r).isSome
  fits : ∀ r state, m r = some state → state.blockIds.length ≤ s₀.inputBatch.blockTable.maxNumBlocksPerReq

def Unread (s : Runner) : Prop := s.inputBatch.batchUpdateBuilder.isRemovedSorted = false

variable {s₀ s : Runner} {m m' : RequestId → Option CachedRequestState} {B B' : RequestId → Prop} {r : RequestId}

theorem Holds.congr (h : Holds s₀ m B s) (hB : ∀ r, B r ↔ B' r) : Holds s₀ m B' s := by
  have heq : B = B' := funext fun r => propext (hB r)
  exact heq ▸ h

theorem Holds.state?_eq_none_of_not (h : Holds s₀ m B s) (hr : ¬B r) : s.inputBatch.state? r = none := by
  rw [Option.eq_none_iff_forall_ne_some]
  exact fun state hstate => hr ((h.batch r state).mp hstate).1

theorem Holds.isSome_state?_iff (h : Holds s₀ m B s) : (s.inputBatch.state? r).isSome ↔ B r := by
  rw [Option.isSome_iff_exists]
  constructor
  · rintro ⟨state, hstate⟩
    exact ((h.batch r state).mp hstate).1
  · intro hB
    obtain ⟨state, hm⟩ := Option.isSome_iff_exists.mp (h.present r hB)
    exact ⟨state, (h.batch r state).mpr ⟨hB, hm⟩⟩

theorem Holds.fits_update {state : CachedRequestState} (h : Holds s₀ m B s)
    (hfits : state.blockIds.length ≤ s₀.inputBatch.blockTable.maxNumBlocksPerReq) (r' : RequestId)
    (state' : CachedRequestState) (hm : Function.update m r (some state) r' = some state') :
    state'.blockIds.length ≤ s₀.inputBatch.blockTable.maxNumBlocksPerReq := by
  rw [Function.update_apply] at hm
  split_ifs at hm with hr
  · rw [← Option.some.inj hm]
    exact hfits
  · exact h.fits r' state' hm

theorem wp_removeRequests {b : InputBatch} (rs : List RequestId) (h : InputBatch.Tracked b)
    (hunread : b.batchUpdateBuilder.isRemovedSorted = false) :
    Eff.wp (removeRequests rs)
      (fun _ b' => InputBatch.Tracked b' ∧ SameLimits b b' ∧ b'.batchUpdateBuilder.isRemovedSorted = false ∧
        ∀ r, b'.state? r = if r ∈ rs then none else b.state? r)
      (fun _ _ => False) b := by
  induction rs generalizing b with
  | nil => exact ⟨h, .refl b, hunread, fun r => (if_neg (by simp)).symm⟩
  | cons r₁ rest ih =>
      rw [removeRequests, Eff.forEach, Eff.wp_bind, Eff.wp_bind]
      refine Eff.wp_mono (wp_removeRequest h hunread) (fun _ b₁ h₁ => ?_) fun _ _ hf => hf
      obtain ⟨htracked, hlimits, hunread₁, hstate⟩ := h₁
      rw [Eff.wp_pure]
      refine Eff.wp_mono (ih htracked hunread₁) (fun _ b' h' => ?_) fun _ _ hf => hf
      refine ⟨h'.1, hlimits.trans h'.2.1, h'.2.2.1, fun r => ?_⟩
      rw [h'.2.2.2 r, hstate r]
      by_cases hr : r = r₁ <;> by_cases hrest : r ∈ rest <;> simp [hr, hrest]

/-- Requests that lose their rows; only what is known of these may change. -/
theorem Holds.remove {rs : List RequestId} {b' : InputBatch} {requests : OrderedDict RequestId CachedRequestState}
    (h : Holds s₀ m B s) (htracked : InputBatch.Tracked b') (hlimits : SameLimits s.inputBatch b')
    (hstate : ∀ r, b'.state? r = if r ∈ rs then none else s.inputBatch.state? r)
    (hrequests : ∀ r, requests.get? r = m' r) (hsame : ∀ r, r ∉ rs → m' r = m r)
    (hfits : ∀ r state, m' r = some state → state.blockIds.length ≤ s₀.inputBatch.blockTable.maxNumBlocksPerReq) :
    Holds s₀ m' (fun r => B r ∧ r ∉ rs) ⟨requests, b'⟩ := by
  refine ⟨htracked, h.limits.trans hlimits, hrequests, fun r state => ?_, fun r hr => ?_, hfits⟩
  · by_cases hr : r ∈ rs
    · simp [hstate r, hr]
    · rw [hstate r, if_neg hr, h.batch, hsame r hr, and_iff_left hr]
  · rw [hsame r hr.2]
    exact h.present r hr.1

theorem Holds.wp_onBatch_removeRequests (h : Holds s₀ m B s) (hunread : Unread s) (rs : List RequestId) :
    Eff.wp (onBatch (removeRequests rs)) (fun _ s' => Holds s₀ m (fun r => B r ∧ r ∉ rs) s' ∧ Unread s')
      (fun _ _ => False) s := by
  refine (Eff.wp_zoom _ _ _).mpr
    (Eff.wp_mono (wp_removeRequests rs h.tracked hunread) (fun _ b' h' => ?_) fun _ _ hf => hf)
  exact ⟨h.remove h'.1 h'.2.1 h'.2.2.2 h.requests (fun _ _ => rfl) h.fits, h'.2.2.1⟩

theorem Holds.wp_addNewRequest (h : Holds s₀ m B s) (hunread : Unread s) (e : NewRequestData)
    (hwidth : e.blockIds.length ≤ s₀.inputBatch.blockTable.maxNumBlocksPerReq) :
    Eff.wp (addNewRequest e)
      (fun _ s' => Holds s₀ (Function.update m e.requestId (some e.state)) (fun r => B r ∧ r ∉ [e.requestId]) s' ∧
        Unread s')
      (fun _ _ => False) s := by
  have hset : ∀ d : OrderedDict RequestId CachedRequestState, (∀ r, d.get? r = m r) → ∀ r,
      (d.set e.requestId e.state).get? r = Function.update m e.requestId (some e.state) r := by
    intro d hd r
    rw [OrderedDict.get?_set, Function.update_apply, hd]
  have hsame : ∀ r, r ∉ [e.requestId] → Function.update m e.requestId (some e.state) r = m r := by
    intro r hr
    exact Function.update_of_ne (by simpa using hr) _ _
  rw [addNewRequest, Eff.wp_bind, Eff.wp_read, Eff.wp_bind]
  refine (Eff.wp_zoom _ _ _).mpr
    (Eff.wp_mono (wp_removeRequests _ h.tracked hunread) (fun _ b' h' => ?_) fun _ _ hf => hf)
  obtain ⟨htracked, hlimits, hunread', hstate⟩ := h'
  rw [Eff.wp_modify]
  refine ⟨h.remove htracked hlimits (fun r => ?_) (hset _ h.requests) hsame (h.fits_update hwidth),
    hunread'⟩
  rw [hstate r]
  by_cases hknown : s.requests.get? e.requestId = none
  · -- A request that is not known has no row.
    rw [if_pos hknown, if_neg List.not_mem_nil]
    split_ifs with hr
    · rw [List.mem_singleton.mp hr]
      refine h.state?_eq_none_of_not fun hB => ?_
      have hsome := h.present _ hB
      rw [← h.requests, hknown] at hsome
      cases hsome
    · rfl
  · rw [if_neg hknown]

theorem Holds.wp_addNewRequests (h : Holds s₀ m B s) (hunread : Unread s) (es : List NewRequestData)
    (hwidth : ∀ e ∈ es, e.blockIds.length ≤ s₀.inputBatch.blockTable.maxNumBlocksPerReq) :
    Eff.wp (Eff.forEach es addNewRequest)
      (fun _ s' => Holds s₀ (enterNew m es) (fun r => B r ∧ r ∉ es.map (·.requestId)) s') (fun _ _ => False) s := by
  induction es generalizing m B s with
  | nil => exact h.congr fun r => (and_iff_left (by simp)).symm
  | cons e rest ih =>
      rw [Eff.forEach, Eff.wp_bind]
      refine Eff.wp_mono (h.wp_addNewRequest hunread e (hwidth e List.mem_cons_self))
        (fun _ s₁ h₁ => ?_) fun _ _ hf => hf
      refine Eff.wp_mono (ih h₁.1 h₁.2 fun x hx => hwidth x (List.mem_cons_of_mem e hx))
        (fun _ s' h' => ?_) fun _ _ hf => hf
      refine h'.congr fun r => ?_
      rw [List.mem_singleton, List.map_cons, List.mem_cons, not_or, and_assoc]

/-- What is known of one request changes, and its row, if it has one, with it. -/
theorem Holds.set {state : CachedRequestState} {b' : InputBatch} {requests : OrderedDict RequestId CachedRequestState}
    (h : Holds s₀ m B s) (htracked : InputBatch.Tracked b') (hlimits : SameLimits s.inputBatch b')
    (hrequests : ∀ r', requests.get? r' = if r' = r then some state else s.requests.get? r')
    (hB : ∀ r', B' r' ↔ r' = r ∧ B' r ∨ r' ≠ r ∧ B r')
    (hrow : ∀ r', b'.state? r' = if r' = r then (b'.state? r) else s.inputBatch.state? r')
    (hstate : ∀ state', b'.state? r = some state' ↔ B' r ∧ state' = state)
    (hfits : state.blockIds.length ≤ s₀.inputBatch.blockTable.maxNumBlocksPerReq) :
    Holds s₀ (Function.update m r (some state)) B' ⟨requests, b'⟩ := by
  refine ⟨htracked, h.limits.trans hlimits, fun r' => ?_, fun r' state' => ?_, fun r' hr' => ?_, h.fits_update hfits⟩
  · rw [hrequests, Function.update_apply, h.requests]
  · rw [hrow r', Function.update_apply]
    split_ifs with hr
    · rw [hstate, hr, Option.some.injEq, eq_comm]
    · rw [h.batch, hB r', and_iff_right hr, or_iff_right (fun hx => hr hx.1)]
  · rw [Function.update_apply]
    split_ifs with hr
    · rfl
    · exact h.present r' (((hB r').mp hr').resolve_left fun hx => hr hx.1).2

/-- A request with a row, which the update extends. -/
theorem Holds.update_of_row (h : Holds s₀ m B s) {i : Nat} {e : CachedRequestData} {req : CachedRequestState}
    (hrow : s.inputBatch.reqIdToIndex.get? e.requestId = some i) (hknown : m e.requestId = some req)
    (hresumed : e.resumed = true → ¬B e.requestId) :
    B e.requestId ∧ e.update req =
      ⟨s.inputBatch.numPromptTokens i, e.numComputedTokens,
        s.inputBatch.blockTable.row i ++ e.newBlockIds.getD []⟩ := by
  have hstate := h.tracked.indexed.state?_of_row ((h.tracked.indexed _ i).mp hrow)
  obtain ⟨hB, hreq⟩ := (h.batch _ _).mp hstate
  have hstays : e.resumed = false := by
    rw [← Bool.not_eq_true]
    exact fun hres => hresumed hres hB
  obtain rfl : req = s.inputBatch.rowState i := Option.some.inj (hknown.symm.trans hreq)
  refine ⟨hB, ?_⟩
  rw [CachedRequestData.update, hstays, if_neg Bool.false_ne_true, rowState]

theorem Holds.wp_updateCachedRequest (h : Holds s₀ m B s) (e : CachedRequestData) {req : CachedRequestState}
    (hknown : m e.requestId = some req) (hresumed : e.resumed = true → ¬B e.requestId ∧ e.newBlockIds ≠ none)
    (hwidth : (e.update req).blockIds.length ≤ s₀.inputBatch.blockTable.maxNumBlocksPerReq) :
    Eff.wp (updateCachedRequest e)
      (fun absent s' => Holds s₀ (Function.update m e.requestId ((m e.requestId).map e.update)) B s' ∧
        (absent = true ↔ ¬B e.requestId))
      (fun _ _ => False) s := by
  have hself : ∀ r', B r' ↔ r' = e.requestId ∧ B e.requestId ∨ r' ≠ e.requestId ∧ B r' := by
    intro r'
    by_cases hr : r' = e.requestId
    · simp [hr]
    · simp [hr]
  have hget : s.requests.get? e.requestId = some req := (h.requests _).trans hknown
  have hindex : e.resumed = true → s.inputBatch.reqIdToIndex.get? e.requestId = none := fun hres =>
    state?_eq_none_iff.mp (h.state?_eq_none_of_not (hresumed hres).1)
  have hrequests : ∀ r', (setRequest e.requestId (e.update req) (setRequest e.requestId
      { req with numComputedTokens := e.numComputedTokens } s)).requests.get? r' =
        if r' = e.requestId then some (e.update req) else s.requests.get? r' := by
    intro r'
    rw [setRequest, setRequest, OrderedDict.get?_set, OrderedDict.get?_set]
    split_ifs <;> rfl
  simp only [updateCachedRequest, Eff.wp_bind, Eff.wp_read, hget, Eff.wp_modify, hknown, Option.map_some]
  rw [if_neg fun hres => hres.2 (hindex hres.1), if_neg fun hres => (hresumed hres.1).2 hres.2]
  cases hrow : s.inputBatch.reqIdToIndex.get? e.requestId with
  | none =>
      have hstate := state?_eq_none_iff.mpr hrow
      have hnot : ¬B e.requestId := by
        rw [← h.isSome_state?_iff, hstate]
        exact Bool.false_ne_true
      simp only [Eff.wp_bind, Eff.wp_modify, Eff.wp_pure]
      refine ⟨h.set h.tracked (.refl _) hrequests hself (fun r' => ?_) (fun state' => ?_) hwidth, by simp [hnot]⟩
      · split_ifs with hr
        · rw [hr]
        · rfl
      · simp [hstate, hnot]
  | some i =>
      obtain ⟨hB, hupdate⟩ := h.update_of_row hrow hknown fun hres => (hresumed hres).1
      have hcolumns : (s.inputBatch.blockTable.row i).length + (e.newBlockIds.getD []).length ≤
          s.inputBatch.blockTable.maxNumBlocksPerReq := by
        rw [hupdate, List.length_append] at hwidth
        rwa [h.limits.maxNumBlocksPerReq]
      simp only [Eff.wp_bind, Eff.wp_modify]
      refine (Eff.wp_zoom _ _ _).mpr
        (Eff.wp_mono (wp_updateRow h.tracked hrow hcolumns) (fun _ b' h' => ?_) fun _ _ hf => hf)
      obtain ⟨htracked, hlimits, -, hstate'⟩ := h'
      simp only [inputBatch_setRequest] at hlimits hstate'
      rw [Eff.wp_pure]
      refine ⟨h.set htracked hlimits hrequests hself (fun r' => ?_) (fun state' => ?_) hwidth, by simp [hB]⟩
      · rw [hstate' r', hstate' e.requestId, if_pos rfl]
      · rw [hstate', if_pos rfl, and_iff_right hB, hupdate, Option.some.injEq, eq_comm]

theorem Holds.wp_updateCachedRequests (es : List CachedRequestData) (h : Holds s₀ m B s)
    (hnodup : (es.map (·.requestId)).Nodup) (hknown : ∀ e ∈ es, (m e.requestId).isSome)
    (hresumed : ∀ e ∈ es, e.resumed = true → ¬B e.requestId ∧ e.newBlockIds ≠ none)
    (hwidth : ∀ e ∈ es, ∀ req, m e.requestId = some req →
      (e.update req).blockIds.length ≤ s₀.inputBatch.blockTable.maxNumBlocksPerReq) :
    Eff.wp (updateCachedRequests es)
      (fun absent s' => Holds s₀ (enterCached m es) B s' ∧ absent.Sublist (es.map (·.requestId)) ∧
        ∀ r, r ∈ absent ↔ r ∈ es.map (·.requestId) ∧ ¬B r)
      (fun _ _ => False) s := by
  induction es generalizing m s with
  | nil => exact ⟨h, List.Sublist.slnil, by simp⟩
  | cons e rest ih =>
      rw [List.map_cons, List.nodup_cons] at hnodup
      obtain ⟨req, hreq⟩ := Option.isSome_iff_exists.mp (hknown e List.mem_cons_self)
      -- The other requests are as they were.
      have hother :
          ∀ x ∈ rest, Function.update m e.requestId ((m e.requestId).map e.update) x.requestId = m x.requestId := by
        intro x hx
        refine Function.update_of_ne (fun heq => hnodup.1 ?_) _ _
        exact heq ▸ List.mem_map_of_mem hx
      rw [updateCachedRequests, Eff.wp_bind]
      refine Eff.wp_mono (h.wp_updateCachedRequest e hreq (hresumed e List.mem_cons_self)
        (hwidth e List.mem_cons_self req hreq)) (fun absent s₁ h₁ => ?_) fun _ _ hf => hf
      obtain ⟨hholds, habsent⟩ := h₁
      rw [Eff.wp_bind]
      refine Eff.wp_mono (ih hholds hnodup.2 (fun x hx => ?_) (fun x hx => ?_) fun x hx => ?_)
        (fun reqsToAdd s' h' => ?_) fun _ _ hf => hf
      · rw [hother x hx]
        exact hknown x (List.mem_cons_of_mem e hx)
      · exact hresumed x (List.mem_cons_of_mem e hx)
      · rw [hother x hx]
        exact hwidth x (List.mem_cons_of_mem e hx)
      · obtain ⟨hholds', hsub, hmem⟩ := h'
        rw [Eff.wp_pure]
        refine ⟨hholds', ?_, fun r => ?_⟩
        · split_ifs
          · exact hsub.cons_cons e.requestId
          · exact hsub.cons e.requestId
        · by_cases hB : B e.requestId
          · rw [if_neg fun ht => habsent.mp ht hB, hmem, List.map_cons, List.mem_cons, or_and_right]
            refine (or_iff_right ?_).symm
            rintro ⟨rfl, hr⟩
            exact hr hB
          · rw [if_pos (habsent.mpr hB), List.mem_cons, hmem, List.map_cons, List.mem_cons, or_and_right]
            refine or_congr_left ⟨fun hr => ⟨hr, hr ▸ hB⟩, fun hr => hr.1⟩

/-- There is room for one more of the requests in a list that is short enough. -/
theorem Holds.numReqs_lt (h : Holds s₀ m B s) {ids : List RequestId} (hids : ∀ r, B r → r ∈ ids) (hr : ¬B r)
    (hmem : r ∈ ids)
    (hroom : ids.length ≤ s₀.inputBatch.maxNumReqs) : s.inputBatch.numReqs < s.inputBatch.maxNumReqs := by
  have hkeys : ∀ r', r' ∈ s.inputBatch.reqIdToIndex.keys → B r' := fun r' hr' =>
    h.isSome_state?_iff.mp (mem_keys_iff_state?.mp hr')
  have hnodup : (r :: s.inputBatch.reqIdToIndex.keys).Nodup :=
    List.nodup_cons.mpr ⟨fun hkey => hr (hkeys r hkey), s.inputBatch.reqIdToIndex.nodup⟩
  have hsub : r :: s.inputBatch.reqIdToIndex.keys ⊆ ids := by
    intro r' hr'
    rcases List.mem_cons.mp hr' with rfl | hkey
    · exact hmem
    · exact hids r' (hkeys r' hkey)
  calc s.inputBatch.numReqs
      < (r :: s.inputBatch.reqIdToIndex.keys).length := Nat.lt_succ_self _
    _ ≤ ids.length := (List.subperm_of_subset hnodup hsub).length_le
    _ ≤ s₀.inputBatch.maxNumReqs := hroom
    _ = s.inputBatch.maxNumReqs := h.limits.maxNumReqs.symm

theorem Holds.wp_addRequest (h : Holds s₀ m B s) {req : CachedRequestState} (hr : ¬B r) (hreq : m r = some req)
    (hroom : s.inputBatch.numReqs < s.inputBatch.maxNumReqs) :
    Eff.wp (onBatch (InputBatch.addRequest r req)) (fun _ s' => Holds s₀ m (fun r' => B r' ∨ r' = r) s')
      (fun _ _ => False) s := by
  have hcolumns := h.fits r req hreq
  rw [← h.limits.maxNumBlocksPerReq] at hcolumns
  refine (Eff.wp_zoom _ _ _).mpr
    (Eff.wp_mono (InputBatch.wp_addRequest h.tracked (h.state?_eq_none_of_not hr) hroom hcolumns)
    (fun _ b' h' => ?_) fun _ _ hf => hf)
  obtain ⟨htracked, hlimits, hstate⟩ := h'
  refine ⟨htracked, h.limits.trans hlimits, h.requests, fun r' state => ?_, fun r' hr' => ?_, h.fits⟩
  · rw [hstate r']
    split_ifs with heq
    · rw [heq, hreq, and_iff_right (Or.inr rfl)]
    · rw [h.batch, or_iff_left heq]
  · rcases hr' with hB | rfl
    · exact h.present r' hB
    · rw [hreq]
      rfl

theorem Holds.wp_addRequests (h : Holds s₀ m B s) {ids : List RequestId} (hroom : ids.length ≤ s₀.inputBatch.maxNumReqs)
    (hids : ∀ r, B r → r ∈ ids) (rs : List RequestId) (hnodup : rs.Nodup) (hsub : ∀ r ∈ rs, r ∈ ids)
    (hnew : ∀ r ∈ rs, ¬B r ∧ (m r).isSome) :
    Eff.wp (addRequests rs) (fun _ s' => Holds s₀ m (fun r => B r ∨ r ∈ rs) s') (fun _ _ => False) s := by
  induction rs generalizing B s with
  | nil => exact h.congr fun r => (or_iff_left List.not_mem_nil).symm
  | cons r rest ih =>
      obtain ⟨hr, hsome⟩ := hnew r List.mem_cons_self
      obtain ⟨req, hreq⟩ := Option.isSome_iff_exists.mp hsome
      have hmem := hsub r List.mem_cons_self
      have hget : s.requests.get? r = some req := (h.requests r).trans hreq
      rw [List.nodup_cons] at hnodup
      simp only [addRequests, Eff.forEach, Eff.wp_bind, Eff.wp_read, hget]
      refine Eff.wp_mono (h.wp_addRequest hr hreq (h.numReqs_lt hids hr hmem hroom))
        (fun _ s₁ hholds => ?_) fun _ _ hf => hf
      rw [Eff.wp_pure]
      refine Eff.wp_mono (ih hholds (fun r' hr' => ?_) hnodup.2 (fun r' hr' => hsub r' (List.mem_cons_of_mem r hr'))
        fun r' hr' => ?_) (fun _ s' h' => ?_) fun _ _ hf => hf
      · rcases hr' with hB | rfl
        · exact hids r' hB
        · exact hmem
      · obtain ⟨hnot, hsome'⟩ := hnew r' (List.mem_cons_of_mem r hr')
        refine ⟨fun hor => ?_, hsome'⟩
        rcases hor with hB | rfl
        · exact hnot hB
        · exact hnodup.1 hr'
      · exact h'.congr fun r' => by rw [List.mem_cons, or_assoc]

end Phases

section Steps

variable {decodeThreshold : Nat} {input : RunnerInput} {s s' : Runner}

/-- Between two steps. -/
structure Inv (s : Runner) : Prop where
  dense : Dense s.inputBatch
  fresh : s.inputBatch.batchUpdateBuilder = .reset
  agrees : ∀ r state, s.inputBatch.state? r = some state → s.requests.get? r = some state
  fits : ∀ r state, s.requests.get? r = some state → state.blockIds.length ≤ s.inputBatch.blockTable.maxNumBlocksPerReq

/-- What the scheduler sees to. -/
structure Legal (s : Runner) (input : RunnerInput) : Prop where
  nodup : input.scheduledReqIds.Nodup
  scheduled : input.scheduledReqIds.Perm (input.newIds ++ input.cachedIds)
  room : input.scheduledReqIds.length ≤ s.inputBatch.maxNumReqs
  known : ∀ e ∈ input.cachedReqs, e.requestId ∉ input.finishedReqIds ∧ s.requests.get? e.requestId ≠ none
  blocks : ∀ e ∈ input.cachedReqs, e.resumed = true → e.newBlockIds ≠ none
  newFits : ∀ e ∈ input.newReqs, e.blockIds.length ≤ s.inputBatch.blockTable.maxNumBlocksPerReq
  cachedFits : ∀ e ∈ input.cachedReqs, ∀ req ∈ s.requests.get? e.requestId,
    (e.update req).blockIds.length ≤ s.inputBatch.blockTable.maxNumBlocksPerReq

/-- What a step leaves: the runner knows what it should, the batch has a row for each scheduled request and for no
other, every row says what is known of its request, and the decodes come first. -/
structure Updated (decodeThreshold : Nat) (input : RunnerInput) (s s' : Runner) : Prop where
  requests : ∀ r, s'.requests.get? r = input.next s.requests.get? r
  batch : ∀ r, s'.inputBatch.state? r = if r ∈ input.scheduledReqIds then s'.requests.get? r else none
  scheduled : ∀ r ∈ input.scheduledReqIds, (s'.inputBatch.state? r).isSome
  splits : SplitsDecodes input.numScheduledTokens decodeThreshold s'.inputBatch

theorem Inv.holds (h : Inv s) : Holds s s.requests.get? (fun r => (s.inputBatch.state? r).isSome) s := by
  have htracked := h.dense.tracked (by rw [h.fresh]; rfl)
  refine ⟨htracked, .refl _, fun _ => rfl, fun r state => ⟨fun hstate => ?_, ?_⟩, fun r hr => ?_, h.fits⟩
  · exact ⟨by rw [hstate]; rfl, h.agrees r state hstate⟩
  · rintro ⟨hsome, hget⟩
    obtain ⟨state', hstate⟩ := Option.isSome_iff_exists.mp hsome
    rw [hstate, ← hget, h.agrees r state' hstate]
  · obtain ⟨state, hstate⟩ := Option.isSome_iff_exists.mp hr
    rw [h.agrees r state hstate]
    rfl

theorem get?_foldl_erase (rs : List RequestId) (d : OrderedDict RequestId CachedRequestState) (r : RequestId) :
    (rs.foldl OrderedDict.erase d).get? r = forget d.get? rs r := by
  induction rs generalizing d with
  | nil => exact (forget_of_notMem List.not_mem_nil).symm
  | cons r₁ rest ih =>
      rw [List.foldl_cons, ih, forget, forget, OrderedDict.get?_erase]
      simp only [List.contains_iff_mem]
      by_cases hr : r = r₁ <;> by_cases hrest : r ∈ rest <;> simp [hr, hrest]

theorem mem_unscheduled {b : InputBatch} {r : RequestId} :
    r ∈ input.unscheduled b ↔ (b.state? r).isSome ∧ ¬(r ∈ input.scheduledReqIds ∧ r ∉ input.resumedReqIds) := by
  rw [RunnerInput.unscheduled, (input.order.perm _).mem_iff, List.mem_filter, mem_keys_iff_state?]
  simp only [Bool.not_eq_true', ← Bool.not_eq_true, Bool.and_eq_true, List.contains_iff_mem]

/-- The finished requests leave, then those that are not scheduled. -/
theorem Inv.wp_removeUnscheduled (h : Inv s) :
    Eff.wp (removeUnscheduled input)
      (fun _ s' => ∃ B : RequestId → Prop, Holds s (forget s.requests.get? input.finishedReqIds) B s' ∧ Unread s' ∧
        ∀ r, B r → r ∈ input.scheduledReqIds ∧ r ∉ input.resumedReqIds)
      (fun _ _ => False) s := by
  have hholds := h.holds
  have hunread : s.inputBatch.batchUpdateBuilder.isRemovedSorted = false := by rw [h.fresh]; rfl
  rw [removeUnscheduled, Eff.wp_bind, Eff.wp_modify, Eff.wp_bind]
  refine (Eff.wp_zoom _ _ _).mpr
    (Eff.wp_mono (wp_removeRequests _ hholds.tracked hunread) (fun _ b' h' => ?_) fun _ _ hf => hf)
  obtain ⟨htracked, hlimits, hunread', hstate⟩ := h'
  have hfits : ∀ r state, forget s.requests.get? input.finishedReqIds r = some state →
      state.blockIds.length ≤ s.inputBatch.blockTable.maxNumBlocksPerReq := by
    intro r state hforget
    rw [forget] at hforget
    split_ifs at hforget
    exact h.fits r state hforget
  have hfinished := hholds.remove htracked hlimits hstate (get?_foldl_erase input.finishedReqIds s.requests)
    (fun r hr => forget_of_notMem hr) hfits
  rw [Eff.wp_bind, Eff.wp_read]
  refine Eff.wp_mono (hfinished.wp_onBatch_removeRequests hunread' _) (fun _ s' h' => ?_) fun _ _ hf => hf
  refine ⟨_, h'.1, h'.2, fun r hr => ?_⟩
  by_contra hnot
  exact hr.2 (mem_unscheduled.mpr ⟨hfinished.isSome_state?_iff.mpr hr.1, hnot⟩)

/-- The last phase works on the batch alone and changes nothing that is said of a request. -/
theorem wp_arrangeBatch {b : InputBatch} (numScheduledTokens : RequestId → Nat) (h : InputBatch.Tracked b) :
    Eff.wp (arrangeBatch numScheduledTokens decodeThreshold)
      (fun _ b' => Dense b' ∧ SameLimits b b' ∧ b'.batchUpdateBuilder = .reset ∧ (∀ r, b'.state? r = b.state? r) ∧
        SplitsDecodes numScheduledTokens decodeThreshold b')
      (fun _ _ => False) b := by
  rw [arrangeBatch, Eff.wp_bind]
  refine Eff.wp_mono (wp_condense h) (fun _ b₁ h₁ => ?_) fun _ _ hf => hf
  obtain ⟨hdense, hlimits, hstate⟩ := h₁
  rw [Eff.wp_bind]
  refine Eff.wp_mono (wp_reorderBatch hdense) (fun _ b₂ h₂ => ?_) fun _ _ hf => hf
  rw [InputBatch.refreshMetadata, Eff.wp_modify]
  have hlimits' := hlimits.trans h₂.limits
  exact ⟨⟨h₂.dense.indexed, h₂.dense.full, h₂.dense.fits⟩, ⟨hlimits'.maxNumReqs, hlimits'.maxNumBlocksPerReq⟩, rfl,
    fun r => (h₂.entry r).trans (hstate r), h₂.splitsDecodes⟩

/-- At the end of a step. -/
theorem Holds.updated {b' : InputBatch} {m : RequestId → Option CachedRequestState} {s₁ : Runner}
    (h : Holds s m (fun r => r ∈ input.scheduledReqIds) s₁) (hm : m = input.next s.requests.get?)
    (hstate : ∀ r, b'.state? r = s₁.inputBatch.state? r)
    (hsplits : SplitsDecodes input.numScheduledTokens decodeThreshold b') :
    Updated decodeThreshold input s { s₁ with inputBatch := b' } := by
  refine ⟨fun r => (h.requests r).trans (congrFun hm r), fun r => ?_, fun r hr => ?_, hsplits⟩
  · show b'.state? r = if r ∈ input.scheduledReqIds then s₁.requests.get? r else none
    rw [hstate r, h.requests]
    split_ifs with hr
    · obtain ⟨state, hsome⟩ := Option.isSome_iff_exists.mp (h.present r hr)
      rw [hsome, h.batch]
      exact ⟨hr, hsome⟩
    · exact h.state?_eq_none_of_not hr
  · show (b'.state? r).isSome
    rw [hstate r, h.isSome_state?_iff]
    exact hr

theorem Legal.nodup_ids (h : Legal s input) : (input.newIds ++ input.cachedIds).Nodup :=
  h.scheduled.nodup_iff.mp h.nodup

theorem Legal.mem_scheduled_iff (h : Legal s input) {r : RequestId} :
    r ∈ input.scheduledReqIds ↔ r ∈ input.newIds ∨ r ∈ input.cachedIds :=
  h.scheduled.mem_iff.trans List.mem_append

/-- What is known of a cached request when its turn comes is what was known before the step. -/
theorem Legal.enterNew_cached (h : Legal s input) {e : CachedRequestData} (he : e ∈ input.cachedReqs) :
    enterNew (forget s.requests.get? input.finishedReqIds) input.newReqs e.requestId = s.requests.get? e.requestId := by
  have hdisjoint := (List.nodup_append'.mp h.nodup_ids).2.2
  rw [enterNew_of_notMem fun hnew => hdisjoint hnew (List.mem_map_of_mem he), forget_of_notMem (h.known e he).1]

theorem Inv.wp_updateStates (h : Inv s) (hlegal : Legal s input) :
    Eff.wp (updateStates decodeThreshold input) (fun _ s' => Inv s' ∧ Updated decodeThreshold input s s')
      (fun _ _ => False) s := by
  obtain ⟨hnewNodup, hcachedNodup, hdisjoint⟩ := List.nodup_append'.mp hlegal.nodup_ids
  rw [updateStates, Eff.wp_bind]
  refine Eff.wp_mono h.wp_removeUnscheduled (fun _ s₁ h₁ => ?_) fun _ _ hf => hf
  obtain ⟨B, hholds₁, hunread, hB⟩ := h₁
  rw [Eff.wp_bind]
  refine Eff.wp_mono (hholds₁.wp_addNewRequests hunread _ hlegal.newFits) (fun _ s₂ hholds₂ => ?_) fun _ _ hf => hf
  have hknown : ∀ e ∈ input.cachedReqs,
      (enterNew (forget s.requests.get? input.finishedReqIds) input.newReqs e.requestId).isSome := by
    intro e he
    rw [hlegal.enterNew_cached he]
    exact Option.isSome_iff_ne_none.mpr (hlegal.known e he).2
  rw [Eff.wp_bind]
  refine Eff.wp_mono (hholds₂.wp_updateCachedRequests input.cachedReqs hcachedNodup hknown (fun e he hres => ?_)
    fun e he req hreq => ?_) (fun absent s₃ h₃ => ?_) fun _ _ hf => hf
  · refine ⟨fun hrow => (hB _ hrow.1).2 ?_, hlegal.blocks e he hres⟩
    exact List.mem_map_of_mem (List.mem_filter.mpr ⟨he, hres⟩)
  · rw [hlegal.enterNew_cached he] at hreq
    exact hlegal.cachedFits e he req hreq
  obtain ⟨hholds₃, hsub, habsent⟩ := h₃
  have hrows : ∀ r, B r ∧ r ∉ input.newIds → r ∈ input.scheduledReqIds := fun r hr => (hB r hr.1).1
  have hadded : ∀ r ∈ input.newIds ++ absent, r ∈ input.scheduledReqIds := by
    intro r hr
    rw [hlegal.mem_scheduled_iff]
    exact (List.mem_append.mp hr).imp_right fun hmem => hsub.subset hmem
  rw [Eff.wp_bind]
  refine Eff.wp_mono
    (hholds₃.wp_addRequests hlegal.room hrows (input.newIds ++ absent) ?_ (fun r hr => ?_) fun r hr => ?_)
    (fun _ s₄ hholds₄ => ?_) fun _ _ hf => hf
  · exact List.nodup_append'.mpr
      ⟨hnewNodup, hcachedNodup.sublist hsub, fun r hnew hr => hdisjoint hnew (hsub.subset hr)⟩
  · exact hadded r hr
  · rcases List.mem_append.mp hr with hnew | hr
    · exact ⟨fun hrow => hrow.2 hnew, isSome_enterCached (isSome_enterNew (.inl hnew))⟩
    · obtain ⟨hmem, hnot⟩ := (habsent r).mp hr
      obtain ⟨e, he, rfl⟩ := List.mem_map.mp hmem
      exact ⟨hnot, isSome_enterCached (hknown e he)⟩
  have hend : Holds s (input.next s.requests.get?) (fun r => r ∈ input.scheduledReqIds) s₄ := by
    refine hholds₄.congr fun r => ⟨?_, fun hr => ?_⟩
    · rintro (hrow | hr)
      · exact hrows r hrow
      · exact hadded r hr
    · by_cases hrow : B r ∧ r ∉ input.newIds
      · exact .inl hrow
      · rcases hlegal.mem_scheduled_iff.mp hr with hnew | hmem
        · exact .inr (List.mem_append_left _ hnew)
        · exact .inr (List.mem_append_right _ ((habsent r).mpr ⟨hmem, hrow⟩))
  refine (Eff.wp_zoom _ _ _).mpr
    (Eff.wp_mono (wp_arrangeBatch input.numScheduledTokens hend.tracked) (fun _ b' h' => ?_)
    fun _ _ hf => hf)
  obtain ⟨hdense, hlimits, hfresh, hstate, hsplits⟩ := h'
  refine ⟨⟨hdense, hfresh, fun r state hrow => ?_, fun r state hget => ?_⟩, hend.updated rfl hstate hsplits⟩
  · rw [hstate r, hend.batch] at hrow
    exact (hend.requests r).trans hrow.2
  · refine (hend.fits r state ((hend.requests r).symm.trans hget)).trans_eq ?_
    exact (hend.limits.trans hlimits).maxNumBlocksPerReq.symm

end Steps

section Runs

variable {decodeThreshold : Nat} {s : Runner}

instance (s : Runner) (input : RunnerInput) : Decidable (Legal s input) :=
  decidable_of_iff
      (input.scheduledReqIds.Nodup ∧ input.scheduledReqIds.isPerm (input.newIds ++ input.cachedIds) = true ∧
      input.scheduledReqIds.length ≤ s.inputBatch.maxNumReqs ∧
      (∀ e ∈ input.cachedReqs, ¬input.finishedReqIds.contains e.requestId ∧ s.requests.get? e.requestId ≠ none) ∧
      (∀ e ∈ input.cachedReqs, e.resumed = true → e.newBlockIds ≠ none) ∧
      (∀ e ∈ input.newReqs, e.blockIds.length ≤ s.inputBatch.blockTable.maxNumBlocksPerReq) ∧
      ∀ e ∈ input.cachedReqs, ∀ req ∈ s.requests.get? e.requestId,
        (e.update req).blockIds.length ≤ s.inputBatch.blockTable.maxNumBlocksPerReq) <| by
    simp only [List.isPerm_iff, List.contains_iff_mem]
    exact ⟨fun h => ⟨h.1, h.2.1, h.2.2.1, h.2.2.2.1, h.2.2.2.2.1, h.2.2.2.2.2.1, h.2.2.2.2.2.2⟩,
      fun h => ⟨h.nodup, h.scheduled, h.room, h.known, h.blocks, h.newFits, h.cachedFits⟩⟩

/-- No assertion of the step fails, and it leaves what it should. -/
def Returns (decodeThreshold : Nat) (s : Runner) (input : RunnerInput) : Prop :=
  ∃ s', updateStates decodeThreshold input s = (.ok (), s') ∧ Updated decodeThreshold input s s'

theorem inv_init (maxNumReqs maxNumBlocksPerReq : Nat) : Inv (init maxNumReqs maxNumBlocksPerReq) := by
  refine ⟨⟨fun r i => ?_, fun i => ?_, Nat.zero_le _⟩, rfl, fun r state hstate => ?_, fun r state hget => ?_⟩
  · simp [init]
  · simp [init]
  · simp [init, state?] at hstate
  · simp [init] at hget

theorem Inv.run (h : Inv s) {inputs : List RunnerInput} (hlegal : Along (step decodeThreshold) Legal s inputs) :
    Along (step decodeThreshold) (Returns decodeThreshold) s inputs ∧
      (Base.run (step decodeThreshold) s inputs).requests.get? =
        inputs.foldl (fun m input => input.next m) s.requests.get? := by
  induction inputs generalizing s with
  | nil => exact ⟨True.intro, rfl⟩
  | cons input rest ih =>
      obtain ⟨_, s', hrun, hinv, hupdated⟩ := Eff.exists_of_wp (h.wp_updateStates hlegal.1)
      have hstep : step decodeThreshold s input = s' := by rw [step, hrun]
      obtain ⟨hreturns, hrequests⟩ := ih (hstep ▸ hinv) hlegal.2
      refine ⟨⟨⟨s', hrun, hupdated⟩, hreturns⟩, ?_⟩
      have hnext : s'.requests.get? = input.next s.requests.get? := funext hupdated.requests
      rw [run_cons, hrequests, List.foldl_cons, hstep, hnext]

/-- Whatever the scheduler sends, as long as it is legal, `_update_states` returns. At the end of every step the batch
has exactly the scheduled requests, with the states that follow from all that was sent so far, in whichever order the
runtime iterates the sets; and the rows that the attention backend takes for decodes are those of the short requests. -/
theorem runner_tracks_scheduler (decodeThreshold maxNumReqs maxNumBlocksPerReq : Nat) (inputs : List RunnerInput)
    (hlegal : Along (step decodeThreshold) Legal (init maxNumReqs maxNumBlocksPerReq) inputs) :
    Along (step decodeThreshold) (Returns decodeThreshold) (init maxNumReqs maxNumBlocksPerReq) inputs ∧
      (Base.run (step decodeThreshold) (init maxNumReqs maxNumBlocksPerReq) inputs).requests.get? =
        inputs.foldl (fun m input => input.next m) fun _ => none :=
  (inv_init maxNumReqs maxNumBlocksPerReq).run hlegal

/-- A long prompt in two chunks with a decode behind it, then one request finishes while the other is preempted and
a third one starts, and at last the preempted one is resumed. -/
def runnerScenario : List RunnerInput :=
  let tokens (es : List (RequestId × Nat)) (r : RequestId) : Nat := ((es.find? (·.1 = r)).map Prod.snd).getD 0
  let order : RequestOrder := ⟨List.reverse, List.reverse_perm⟩
  [{ newReqs := [⟨['a'], [1, 2], 0, 5⟩, ⟨['b'], [3], 0, 2⟩], cachedReqs := [],
     numScheduledTokens := tokens [(['a'], 3), (['b'], 2)], scheduledReqIds := [['a'], ['b']],
     finishedReqIds := [], order },
   { newReqs := [], cachedReqs := [⟨['a'], 3, some [4], false⟩, ⟨['b'], 2, none, false⟩],
     numScheduledTokens := tokens [(['a'], 2), (['b'], 1)], scheduledReqIds := [['a'], ['b']],
     finishedReqIds := [], order },
   { newReqs := [⟨['c'], [5], 0, 3⟩], cachedReqs := [],
     numScheduledTokens := tokens [(['c'], 3)], scheduledReqIds := [['c']], finishedReqIds := [['a']], order },
   { newReqs := [], cachedReqs := [⟨['c'], 3, none, false⟩, ⟨['b'], 0, some [6, 7], true⟩],
     numScheduledTokens := tokens [(['c'], 1), (['b'], 3)], scheduledReqIds := [['c'], ['b']],
     finishedReqIds := [], order }]

theorem runner_tracks_scheduler_scenario :
    Along (step 1) (Returns 1) (init 3 4) runnerScenario ∧
      (Base.run (step 1) (init 3 4) (runnerScenario.take 2)).inputBatch.reqIds = [some ['b'], some ['a']] ∧
      (Base.run (step 1) (init 3 4) runnerScenario).inputBatch.state? ['b'] = some ⟨2, 0, [6, 7]⟩ :=
  ⟨(runner_tracks_scheduler 1 3 4 runnerScenario (by decide +kernel)).1, by decide +kernel, by decide +kernel⟩

end Runs

end Runner

end KVOffload

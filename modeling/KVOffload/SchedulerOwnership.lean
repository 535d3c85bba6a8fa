import KVOffload.SchedulerMirror

/-! Whose data a pass copies. The connector offloads a page under the block it has on record for it, and
vLLM's tables say whose page it is. The two agree as long as the mirror is right and no request loses its
pages while they are on record: a preemption takes the pages and the connector is not told. -/

namespace KVOffload
open Base

variable {μ φ ν σ S : Type} [LinearOrder S]

/-- vLLM's table of the block's request has `page` at the block's index. -/
def Holds (tables : OrderedDict RequestId (List Nat)) (ref : BlockRef) (page : Nat) : Prop :=
  ∃ blocks, tables.get? ref.requestId = some blocks ∧ 0 ≤ ref.blockIdx ∧ blocks[ref.blockIdx.toNat]? = some page

instance (tables : OrderedDict RequestId (List Nat)) (ref : BlockRef) (page : Nat) :
    Decidable (Holds tables ref page) :=
  decidable_of_iff
    (∃ blocks ∈ tables.get? ref.requestId, 0 ≤ ref.blockIdx ∧ blocks[ref.blockIdx.toNat]? = some page) Iff.rfl

/-- The pages a pass copied were, at that moment, the pages of the blocks under which it copied them. -/
def TraceEvent.CopiesOwn : TraceEvent μ σ → Prop
  | .offloaded before moved => ∀ ref ∈ moved,
      ∃ page, gpuPage before.orchestrator.store.residency ref = some page ∧ Holds before.reqToBlocks ref page
  | _ => True

instance : (e : TraceEvent μ σ) → Decidable e.CopiesOwn
  | .offloaded before moved => inferInstanceAs (Decidable (∀ ref ∈ moved,
      ∃ page ∈ gpuPage before.orchestrator.store.residency ref, Holds before.reqToBlocks ref page))
  | .reported _ _ => inferInstanceAs (Decidable True)
  | .flushed _ _ => inferInstanceAs (Decidable True)
  | .decoded _ _ => inferInstanceAs (Decidable True)
  | .finished _ => inferInstanceAs (Decidable True)

/-- Every page a pass copied was the page of the block under which it was copied. -/
def OwnCopies (trace : List (TraceEvent μ σ)) : Prop := ∀ e ∈ trace, e.CopiesOwn

instance (trace : List (TraceEvent μ σ)) : Decidable (OwnCopies trace) :=
  inferInstanceAs (Decidable (∀ e ∈ trace, e.CopiesOwn))

theorem ownCopies_concat {trace : List (TraceEvent μ σ)} {e : TraceEvent μ σ} (h : OwnCopies trace) (he : e.CopiesOwn) :
    OwnCopies (trace ++ [e]) :=
  List.forall_mem_append.mpr ⟨h, List.forall_mem_singleton.mpr he⟩

section Build

variable {cfg : ConnectorConfig} {dev : Device μ φ ν S} {out : SchedulerOutput} {c c₁ c₂ : Connector μ σ}
  {failed : Prop}

/-- What a step that started in `c` keeps: complete blocks are on their own pages, and for the requests
read so far so are all listed blocks, and the list is as long as the table. -/
structure Owning (c : Connector μ σ) (read : List RequestId) (c₁ : Connector μ σ) :
    Prop extends Mirroring c read c₁ where
  owned : ∀ ref page, c₁.place ref = .gpu page true → Holds c.reqToBlocks ref page
  bound : ∀ r ∈ read, ∀ blocks, c.reqToBlocks.get? r = some blocks → ∀ (i : Nat) page complete, i < blocks.length →
    c₁.place ⟨r, i⟩ = .gpu page complete → blocks[i]? = some page
  listed : ∀ r ∈ read, isWarmup r = false → ∀ blocks, c.reqToBlocks.get? r = some blocks →
    c₁.orchestrator.requestBlocks.get? r = some (blockRefs r blocks.length)
  copies : OwnCopies c₁.trace

/-- What is left of it when the step is over. -/
structure OwnPost (out : SchedulerOutput) (c c' : Connector μ σ) : Prop where
  owned : ∀ ref page, c'.place ref = .gpu page true → Holds c.reqToBlocks ref page
  listed : ∀ r ∈ out.ids, isWarmup r = false → ∀ blocks, c.reqToBlocks.get? r = some blocks →
    c'.orchestrator.requestBlocks.get? r = some (blockRefs r blocks.length)
  others : ∀ r, r ∉ out.ids → c'.orchestrator.requestBlocks.get? r = c.orchestrator.requestBlocks.get? r
  copies : OwnCopies c'.trace

theorem BuildFrame.reqToBlocks (h : BuildFrame c c₁) : c₁.reqToBlocks = c.reqToBlocks := by
  rw [BuildFrame] at h
  rw [h]

theorem holds_of_get? {tables : OrderedDict RequestId (List Nat)} {r : RequestId} {blocks : List Nat} {i page : Nat}
    (htable : tables.get? r = some blocks) (hpage : blocks[i]? = some page) : Holds tables ⟨r, i⟩ page :=
  ⟨blocks, htable, Int.natCast_nonneg i, by rw [Int.toNat_natCast]; exact hpage⟩

/-- After a sync, a listed block on the GPU is on the page listed for it. -/
theorem SyncStep.listed_page {r : RequestId} {ids : List Nat} {n i page : Nat} {complete : Bool}
    (hstep : SyncStep cfg dev r ids n c₁ failed c₂) (hsound : Sound cfg dev c₁.toConnectorState) (hi : i < ids.length)
    (hplace : c₂.place ⟨r, i⟩ = .gpu page complete) : ids[i]? = some page := by
  rcases hstep.place_cases ⟨r, i⟩ with ⟨-, hwarm | hout⟩ | ⟨j, page', href, -, hpage, hbound⟩
  · -- A warm-up request has no blocks.
    have hordinary := (hstep.sound hsound).ordinary ⟨r, i⟩ (by rw [hplace]; exact nofun)
    rw [show isWarmup r = false from hordinary] at hwarm
    cases hwarm
  · exact absurd (mem_blockRefs.mpr ⟨i, hi, rfl⟩) hout
  · have hij : i = j := by
      have hidx := congrArg BlockRef.blockIdx href
      exact Int.ofNat_inj.mp hidx
    rw [hplace] at hbound
    rw [hij, hpage, (Placement.bound_eq_gpu hbound.symm).1]

theorem Owning.sync {F : Connector μ σ → Prop} {read : List RequestId} {r : RequestId} {ids : List Nat} {n : Nat}
    (h : Owning c read c₁) (hsound : Sound cfg dev c₁.toConnectorState) (htable : c.reqToBlocks.get? r = some ids)
    (hstep : SyncStep cfg dev r ids n c₁ failed c₂) :
    Ends failed (Faulted cfg dev c F) (Owning c (read ++ [r])) c₂ := by
  refine ⟨fun hfailed => faulted_of_scoreFault (hstep.fault hfailed).strikes, fun hok => ?_⟩
  have htrace : c₂.trace = c₁.trace := by rw [hstep.state]
  refine ⟨(h.toMirroring.sync (F := F) htable hstep).returned hok, fun ref page hplace => ?_,
    fun r' hr' blocks hget i page complete hi hplace => ?_, fun r' hr' hwarm blocks hget => ?_, htrace ▸ h.copies⟩
  · rcases hstep.place_cases ref with ⟨hsame, -⟩ | ⟨i, page', rfl, -, hpage, -⟩
    · exact h.owned ref page (hsame ▸ hplace)
    · obtain ⟨hi, -⟩ := List.getElem?_eq_some_iff.mp hpage
      exact holds_of_get? htable (hstep.listed_page hsound hi hplace)
  · by_cases heq : r' = r
    · subst heq
      rw [htable] at hget
      rw [← Option.some.inj hget] at hi ⊢
      exact hstep.listed_page hsound hi hplace
    · have hread := (List.mem_append.mp hr').resolve_right fun hlast => heq (List.mem_singleton.mp hlast)
      rcases hstep.place_cases ⟨r', i⟩ with ⟨hsame, -⟩ | ⟨j, page', href, -⟩
      · exact h.bound r' hread blocks hget i page complete hi (hsame ▸ hplace)
      · exact absurd (congrArg BlockRef.requestId href) heq
  · by_cases heq : r' = r
    · subst heq
      rw [htable] at hget
      rw [hstep.lists hok hwarm, OrderedDict.get?_set_self, Option.some.inj hget]
    · have hread := (List.mem_append.mp hr').resolve_right fun hlast => heq (List.mem_singleton.mp hlast)
      cases hwarm' : isWarmup r with
      | true =>
          rw [hstep.lists_kept (Or.inr hwarm')]
          exact h.listed r' hread hwarm blocks hget
      | false =>
          rw [hstep.lists hok hwarm', OrderedDict.get?_set_of_ne _ _ heq]
          exact h.listed r' hread hwarm blocks hget

/-- A part that binds no block to a page and copies only pages of their own. -/
theorem Owning.part {read : List RequestId} (h : Owning c read c₁) (hmirroring : Mirroring c read c₂)
    (hplace : ∀ ref page complete, c₂.place ref = .gpu page complete → c₁.place ref = .gpu page complete)
    (hlists : c₂.orchestrator.requestBlocks = c₁.orchestrator.requestBlocks) (hcopies : OwnCopies c₂.trace) :
    Owning c read c₂ := by
  refine ⟨hmirroring, fun ref page hgpu => h.owned ref page (hplace ref page true hgpu),
    fun r hr blocks hget i page complete hi hgpu => ?_, ?_, hcopies⟩
  · exact h.bound r hr blocks hget i page complete hi (hplace _ page complete hgpu)
  · rw [hlists]
    exact h.listed

/-- The blocks that graduate are listed, so they are on their own pages. -/
theorem Owning.graduate {F : Connector μ σ → Prop} {read : List RequestId} {r : RequestId} {n : Nat} {blocks : List Nat}
    (h : Owning c read c₁) (hr : r ∈ read) (htable : c.reqToBlocks.get? r = some blocks)
    (hstep : GraduateStep cfg dev r n c₁ failed c₂) : Ends failed (Faulted cfg dev c F) (Owning c read) c₂ := by
  refine ⟨fun hfailed => faulted_of_scoreFault (hstep.fault hfailed).strikes, fun hok => ?_⟩
  have htrace : c₂.trace = c₁.trace := by rw [hstep.state]
  have hlists : c₂.orchestrator.requestBlocks = c₁.orchestrator.requestBlocks := by rw [hstep.state]
  have hpage : ∀ ref page complete, c₂.place ref = .gpu page complete → ∃ old, c₁.place ref = .gpu page old := by
    intro ref page complete hplace
    rw [hstep.place] at hplace
    split_ifs at hplace
    · exact Placement.graduated_eq_gpu hplace
    · exact ⟨complete, hplace⟩
  refine ⟨(h.toMirroring.graduate (F := F) hstep).returned hok, fun ref page hplace => ?_,
    fun r' hr' blocks' hget i page complete hi hplace => ?_, by rw [hlists]; exact h.listed, htrace ▸ h.copies⟩
  · by_cases hfull : ref ∈ prefillRefs c₁.orchestrator r ∧ Filled cfg.toOrchestratorConfig n ref
    · obtain ⟨old, hold⟩ := hpage ref page true hplace
      have hlisted := hfull.1
      unfold prefillRefs at hlisted
      split_ifs at hlisted with hskip
      · cases hlisted
      · have hwarm : isWarmup r = false := by
          cases hwarm : isWarmup r with
          | false => rfl
          | true => exact absurd (by rw [hwarm]; rfl) hskip
        rw [h.listed r hr hwarm blocks htable, Option.getD_some] at hlisted
        obtain ⟨i, hi, rfl⟩ := mem_blockRefs.mp hlisted
        exact holds_of_get? htable (h.bound r hr blocks htable i page old hi hold)
    · rw [hstep.place, if_neg hfull] at hplace
      exact h.owned ref page hplace
  · obtain ⟨old, hold⟩ := hpage _ page complete hplace
    exact h.bound r' hr' blocks' hget i page old hi hold

/-- A pass takes complete blocks only. -/
theorem TriggerStep.ownCopies {moved : List BlockRef} (hframe : BuildFrame c c₁)
    (howned : ∀ ref page, c₁.place ref = .gpu page true → Holds c.reqToBlocks ref page) (hcopies : OwnCopies c₁.trace)
    (hstep : TriggerStep cfg dev c₁ moved failed c₂) : OwnCopies c₂.trace := by
  rcases hstep.trace with ⟨-, htrace⟩ | ⟨before, hbefore, htrace⟩
  · rw [htrace]
    exact hcopies
  · rw [htrace]
    refine ownCopies_concat hcopies fun ref href => ?_
    obtain ⟨page, hplace⟩ := mem_allowedBlocks (hstep.allowed ref href)
    have htable : before.orchestrator.store.residency = c₁.orchestrator.store.residency := by rw [hbefore]
    have htables : before.reqToBlocks = c.reqToBlocks := by
      rw [hbefore]
      exact hframe.reqToBlocks
    refine ⟨page, ?_, ?_⟩
    · rw [htable]
      exact gpuPage_eq_some_iff.mpr ⟨true, hplace⟩
    · rw [htables]
      exact howned ref page hplace

theorem Owning.trigger {F : Connector μ σ → Prop} {read : List RequestId} {moved : List BlockRef} (h : Owning c read c₁)
    (hstep : TriggerStep cfg dev c₁ moved failed c₂) : Ends failed (Faulted cfg dev c F) (Owning c read) c₂ := by
  have hmirroring := h.toMirroring.trigger (F := F) hstep
  refine ⟨hmirroring.raised, fun hok => ?_⟩
  apply h.part (hmirroring.returned hok) _ (by rw [hstep.state]) (hstep.ownCopies h.frame h.owned h.copies)
  intro ref page complete hplace
  rw [hstep.place] at hplace
  split_ifs at hplace
  exact hplace

theorem Owning.post (h : Reading cfg dev c (Owning c) out.ids c₁) : OwnPost out c c₁ :=
  ⟨h.holds.owned, h.holds.listed, fun r hr => (h.unread r hr).listed, h.holds.copies⟩

theorem OwnPost.flush (h : OwnPost out c c₁) (hflush : FlushPost c₁ c₂) : OwnPost out c c₂ := by
  cases hflush with
  | idle _ => exact h
  | flush _ =>
      exact ⟨h.owned, h.listed, h.others, ownCopies_concat h.copies True.intro⟩

theorem Counted.ownCopies {r : RequestId} (h : Counted r c₁ c₂) (hcopies : OwnCopies c₁.trace) :
    OwnCopies c₂.trace := by
  rcases h.trace with hsame | ⟨-, n, happend⟩
  · rw [hsame]
    exact hcopies
  · rw [happend]
    exact ownCopies_concat hcopies True.intro

/-- Ownership is carried through a step whose output tells the tables. -/
theorem carried_owning (hout : Delivers c.toConnectorState out)
    (howned : ∀ ref page, c.place ref = .gpu page true → Holds c.reqToBlocks ref page) (hcopies : OwnCopies c.trace) :
    Carried cfg dev out c (Owning c) (OwnPost out c) (Faulted cfg dev c (OwnPost out c)) := by
  have hstart : Mirroring c [] (opened cfg out c) := ⟨rfl, ⟨_, rfl⟩, nofun⟩
  refine ⟨⟨hstart, howned, nofun, nofun, ?_⟩, fun done req rest hsplit c₁ failed c₂ h₁ hpost => ?_,
    fun done req rest hsplit c₁ failed c₂ h₁ hpost => ?_, fun req hreq c₁ failed c₂ h₁ hpost => ?_,
    fun c₁ failed c₂ h₁ hstage => ?_, fun c₁ c₂ h₁ hflush => (Owning.post h₁).flush hflush⟩
  · refine List.forall_mem_append.mpr ⟨hcopies, fun e he => ?_⟩
    obtain ⟨report, -, rfl⟩ := List.mem_map.mp he
    exact True.intro
  · have htable := hout.new req (by rw [hsplit]; simp)
    apply hpost.elim h₁.sound (fun _ _ hsync => h₁.holds.sync h₁.sound htable hsync)
    intro c' c'' _ h' hstarted
    have htrace : c''.trace = c'.trace := by rw [hstarted.state]
    apply h'.part (h'.toMirroring.part hstarted.frame (htrace ▸ List.prefix_rfl) (by rw [hstarted.state])) _
      (by rw [hstarted.state]) (htrace ▸ h'.copies)
    intro ref page complete hplace
    rwa [hstarted.place] at hplace
  · have htable := hout.cached req (by rw [hsplit]; simp)
    have hids := (h₁.unread _ (not_read_of_nodup hout.nodup hsplit)).fullBlockIds
    have hread : req.requestId ∈ out.newReqs.map (·.requestId) ++ done.map (·.requestId) ++ [req.requestId] :=
      List.mem_append_right _ List.mem_cons_self
    rw [← hids] at htable
    apply hpost.elim h₁.sound (fun _ _ hsync => h₁.holds.sync h₁.sound htable hsync) (fun _ _ h' _ => h')
      (fun _ _ _ _ h' _ hgraduate => h'.graduate hread htable hgraduate)
      (fun _ _ _ _ _ h' htrigger => h'.trigger htrigger)
    intro c' c'' _ h' hcounted
    apply h'.part (h'.toMirroring.part hcounted.frame hcounted.grows (by rw [hcounted.state])) _
      (by rw [hcounted.state]) (hcounted.ownCopies h'.copies)
    intro ref page complete hplace
    rwa [hcounted.place] at hplace
  · have hread : req.requestId ∈ out.ids := List.mem_append_left _ (List.mem_map_of_mem hreq)
    exact hpost.elim h₁.sound h₁.holds (fun _ _ _ hgraduate => h₁.holds.graduate hread (hout.new req hreq) hgraduate)
      fun _ _ _ _ _ h' htrigger => h'.trigger htrigger
  · have htrace : c₂.trace = c₁.trace := by rw [hstage.state]
    have hkept : Owning c out.ids c₂ := by
      apply h₁.holds.part (h₁.holds.toMirroring.part hstage.frame (htrace ▸ List.prefix_rfl) (by rw [hstage.state])) _
        (by rw [hstage.state]) (htrace ▸ h₁.holds.copies)
      intro ref page complete hplace
      rwa [hstage.place] at hplace
    exact ⟨fun _ _ _ => Owning.post (h₁.stage hstage hkept), fun _ => hkept⟩

end Build

section Surgery

variable {cfg : ConnectorConfig} {c : ConnectorState μ σ}

/-- Complete blocks are on their own pages, and the blocks listed for a request are those of its table. -/
structure Seated (c : ConnectorState μ σ) : Prop where
  owned : ∀ ref page, c.place ref = .gpu page true → Holds c.reqToBlocks ref page
  listed : ∀ r blocks, isWarmup r = false → c.reqToBlocks.get? r = some blocks →
    c.orchestrator.requestBlocks.get? r = some (blockRefs r blocks.length)

/-- A complete block on the GPU is one of the blocks listed for its request. -/
theorem Seated.mem_listedBlocks {cfg : ConnectorConfig} {dev : Device μ φ ν S} {c : ConnectorState μ σ} {ref : BlockRef}
    {page : Nat} (h : Seated c) (hsound : Sound cfg dev c) (hplace : c.place ref = .gpu page true) :
    ref ∈ listedBlocks c.orchestrator ref.requestId := by
  obtain ⟨blocks, hget, hidx, hpage⟩ := h.owned ref page hplace
  have hwarm := hsound.ordinary ref (by rw [hplace]; exact nofun)
  obtain ⟨hlt, -⟩ := List.getElem?_eq_some_iff.mp hpage
  rw [listedBlocks, h.listed _ _ hwarm hget, Option.getD_some]
  refine mem_blockRefs.mpr ⟨ref.blockIdx.toNat, hlt, ?_⟩
  rw [Int.toNat_of_nonneg hidx]

/-- A block that went to the CPU: its entry may be taken out of the table. -/
def Vacated (c : ConnectorState μ σ) (ref : BlockRef) : Prop :=
  0 ≤ ref.blockIdx ∧ ∀ page, c.place ref ≠ .gpu page true

theorem Holds.set_null {tables : OrderedDict RequestId (List Nat)} {ref ref' : BlockRef} {page : Nat}
    {blocks : List Nat}
    (h : Holds tables ref page) (htable : tables.get? ref'.requestId = some blocks) (hidx : 0 ≤ ref'.blockIdx)
    (hne : ref ≠ ref') :
    Holds (tables.set ref'.requestId (blocks.set ref'.blockIdx.toNat BlockPool.nullBlock)) ref page := by
  obtain ⟨blocks', hget, hnonneg, hpage⟩ := h
  by_cases heq : ref.requestId = ref'.requestId
  · have hblocks : blocks' = blocks := by
      rw [heq, htable] at hget
      exact (Option.some.inj hget).symm
    have hslot : ref'.blockIdx.toNat ≠ ref.blockIdx.toNat := by
      intro hslot
      apply hne
      obtain ⟨r, i⟩ := ref
      obtain ⟨r', i'⟩ := ref'
      dsimp only at heq hslot hidx hnonneg
      rw [heq, show i = i' by omega]
    refine ⟨blocks.set ref'.blockIdx.toNat BlockPool.nullBlock, ?_, hnonneg, ?_⟩
    · rw [heq, OrderedDict.get?_set_self]
    · rw [List.getElem?_set_ne hslot, ← hblocks, hpage]
  · exact ⟨blocks', by rw [OrderedDict.get?_set_of_ne _ _ heq, hget], hnonneg, hpage⟩

theorem Seated.freeEntry {acc : ConnectorState μ σ × List Nat} {e : BlockRef × Nat} (h : Seated acc.1)
    (he : Vacated acc.1 e.1) : Seated (freeEntry e acc).1 := by
  dsimp only [KVOffload.freeEntry]
  split
  · exact h
  · rename_i blocks htable
    split_ifs
    · refine ⟨fun ref page hplace => ?_, fun r blocks' hwarm hget => ?_⟩
      · have hne : ref ≠ e.1 := by
          intro heq
          exact he.2 page (heq ▸ hplace)
        exact (h.owned ref page hplace).set_null htable he.1 hne
      · dsimp only at hget ⊢
        rw [OrderedDict.get?_set] at hget
        split_ifs at hget with heq
        · rw [← Option.some.inj hget, List.length_set, heq]
          exact h.listed _ _ (heq ▸ hwarm) htable
        · exact h.listed r blocks' hwarm hget
    · exact h

theorem Seated.freeEntries (entries : List (BlockRef × Nat)) {acc : ConnectorState μ σ × List Nat} (h : Seated acc.1)
    (hentries : ∀ e ∈ entries, Vacated acc.1 e.1) :
    Seated (entries.foldl (fun acc e => KVOffload.freeEntry e acc) acc).1 := by
  induction entries generalizing acc with
  | nil => exact h
  | cons e rest ih =>
      apply ih (h.freeEntry (hentries e List.mem_cons_self))
      intro e' he'
      have hplace : (KVOffload.freeEntry e acc).1.place = acc.1.place := by
        have hframe := surgeryFrame_freeEntry e acc
        rw [SurgeryFrame] at hframe
        rw [hframe]
        rfl
      rw [Vacated, hplace]
      exact hentries e' (List.mem_cons_of_mem e he')

/-- What a completion needs: the blocks of the pending events went to the CPU. -/
structure Settled (c : ConnectorState μ σ) : Prop extends Seated c where
  pending : ∀ event batch, c.pendingStoreEvents.get? event = some batch → ∀ ref ∈ batch.refs, Vacated c ref

theorem Settled.processStoreCompletion (h : Settled c) (event : Nat) :
    Settled (processStoreCompletion cfg event c) := by
  have hplace : (KVOffload.processStoreCompletion cfg event c).place = c.place := by
    have hframe := completionFrame_processStoreCompletion cfg event c
    rw [CompletionFrame] at hframe
    rw [hframe]
    rfl
  refine ⟨?_, fun event' batch hget ref href => ?_⟩
  · unfold KVOffload.processStoreCompletion
    cases hget : c.pendingStoreEvents.get? event with
    | none => exact h.toSeated
    | some batch =>
        dsimp only
        split_ifs
        · have hstart : Seated (({ c with
              pendingStoreEvents := c.pendingStoreEvents.erase event
              cpuBlockPool := c.cpuBlockPool.freeBlocks batch.cpuBlockIds }, []) : ConnectorState μ σ × List Nat).1 :=
            ⟨h.owned, h.listed⟩
          have hfreed := hstart.freeEntries (batch.refs.zip batch.gpuBlockIds) fun e he =>
            h.pending event batch hget e.1 (List.of_mem_zip he).1
          exact ⟨hfreed.owned, hfreed.listed⟩
        · exact ⟨h.owned, h.listed⟩
  · rw [processStoreCompletion_pending, OrderedDict.get?_erase] at hget
    split_ifs at hget
    rw [Vacated, hplace]
    exact h.pending event' batch hget ref href

theorem Settled.update (h : Settled c) (completed : List (Nat × Nat)) :
    Settled (completed.foldl (countCompletion cfg) c) :=
  update_preserves (fun _ _ h => ⟨⟨h.owned, h.listed⟩, h.pending⟩)
    (fun _ event h => h.processStoreCompletion event) completed h

end Surgery

/-- No complete block of the request is on record for a GPU page. -/
def Clear (c : ConnectorState μ σ) (r : RequestId) : Prop :=
  ∀ ref ∈ c.orchestrator.store.residency.allGpuBlocks true, ref.requestId ≠ r

instance (c : ConnectorState μ σ) (r : RequestId) : Decidable (Clear c r) :=
  inferInstanceAs (Decidable (∀ ref ∈ c.orchestrator.store.residency.allGpuBlocks true, ref.requestId ≠ r))

/-- A request is preempted only while no complete block of it is on record, ids are not used again, and
no pass asks the shadow pool for more than it has. -/
def SchedulerOp.KeepsPages (cfg : SchedulerConfig) (dev : Device μ φ ν S) (scorer : BlockScorer σ ν S)
    (s : Scheduler μ σ) (op : SchedulerOp μ) : Prop :=
  Roomy cfg.toConnectorConfig s.connector (schedulerStep cfg dev scorer s op).connector ∧
    match op with
    | .addRequest r _ => r ∉ finishedRequests s.connector.trace
    | .schedule choices => ∀ r ∈ (s.plan cfg choices).preempted, Clear s.connector.toConnectorState r
    | .preempt r => Clear s.connector.toConnectorState r
    | _ => True

instance (cfg : SchedulerConfig) (dev : Device μ φ ν S) (scorer : BlockScorer σ ν S) (s : Scheduler μ σ) :
    (op : SchedulerOp μ) → Decidable (op.KeepsPages cfg dev scorer s)
  | .addRequest _ _ => inferInstanceAs (Decidable (_ ∧ _))
  | .schedule _ => inferInstanceAs (Decidable (_ ∧ _))
  | .preempt _ => inferInstanceAs (Decidable (_ ∧ _))
  | .rejectTokens _ _ => inferInstanceAs (Decidable (_ ∧ True))
  | .update _ => inferInstanceAs (Decidable (_ ∧ True))
  | .finish _ => inferInstanceAs (Decidable (_ ∧ True))
  | .worker _ => inferInstanceAs (Decidable (_ ∧ True))

section Runs

variable {cfg : SchedulerConfig} {dev : Device μ φ ν S} {scorer : BlockScorer σ ν S} {s : Scheduler μ σ}

theorem Clear.requestId_ne {c : ConnectorState μ σ} {r : RequestId} (h : Clear c r) {ref : BlockRef} {page : Nat}
    (hplace : c.place ref = .gpu page true) : ref.requestId ≠ r := by
  apply h
  apply ResidencyTable.mem_allGpuBlocks.mpr
  exact isGpuComplete_iff.mp (isGpuComplete_iff_placement.mpr ⟨page, hplace⟩)

/-- What holds in every state of such a run. -/
structure OwnInv (cfg : SchedulerConfig) (dev : Device μ φ ν S) (s : Scheduler μ σ) :
    Prop extends MirrorInv cfg dev s where
  kept : Kept cfg.toConnectorConfig dev s.connector
  known : ∀ r ∈ s.requests.keys, r ∉ finishedRequests s.connector.trace
  seated : Seated s.connector.toConnectorState
  copies : OwnCopies s.connector.trace

/-- The blocks of pending events are off the GPU: a pass moved them, under an index of a table. -/
theorem OwnInv.settled (h : OwnInv cfg dev s) : Settled s.connector.toConnectorState := by
  refine ⟨h.seated, fun event batch hget ref href => ?_⟩
  have hmoved := h.kept.account.pending event batch hget ref href
  constructor
  · obtain ⟨entry, hentry, rfl⟩ := List.mem_map.mp hmoved
    obtain ⟨e, he, hentry⟩ := List.mem_flatMap.mp hentry
    cases e with
    | offloaded before moved =>
        obtain ⟨ref', href', rfl⟩ := List.mem_map.mp hentry
        obtain ⟨page, -, blocks, -, hidx, -⟩ := h.copies _ he ref' href'
        exact hidx
    | reported _ _ => cases hentry
    | flushed _ _ => cases hentry
    | decoded _ _ => cases hentry
    | finished _ => cases hentry
  · intro page hplace
    rcases h.kept.account.gone ref hmoved with hparked | ⟨habsent, -⟩
    · rw [hparked] at hplace
      cases hplace
    · rw [habsent] at hplace
      cases hplace

theorem OwnInv.preemptRequest (h : OwnInv cfg dev s) {r : RequestId} (hclear : Clear s.connector.toConnectorState r) :
    OwnInv cfg dev (s.preemptRequest r) := by
  have hmirror := h.toMirrorInv.preemptRequest r
  rcases s.preemptRequest_cases r with ⟨-, hsame⟩ | ⟨-, hpreempt⟩
  · rw [hsame]
    exact h
  · refine ⟨hmirror, ?_, fun r' hr' => ?_, ⟨fun ref page hplace => ?_, fun r' blocks hwarm hget => ?_⟩, ?_⟩
    · rw [hpreempt.connector]
      exact h.kept.withManager _
    · rw [hpreempt.connector]
      exact h.known r' (s.preemptRequest_keys r r' hr')
    · rw [hpreempt.connector] at hplace
      obtain ⟨blocks, hget, hidx, hpage⟩ := h.seated.owned ref page hplace
      refine ⟨blocks, ?_, hidx, hpage⟩
      rw [show (s.preemptRequest r).connector.reqToBlocks.get? ref.requestId = _ from hpreempt.get?_tables _,
        if_neg (hclear.requestId_ne hplace)]
      exact hget
    · rw [show (s.preemptRequest r).connector.reqToBlocks.get? r' = _ from hpreempt.get?_tables _] at hget
      split_ifs at hget
      rw [hpreempt.connector]
      exact h.seated.listed r' blocks hwarm hget
    · rw [hpreempt.connector]
      exact h.copies

/-- A request that finishes takes its blocks along: they are all listed. -/
theorem OwnInv.finishRequest (h : OwnInv cfg dev s) (r : RequestId) :
    OwnInv cfg dev (s.finishRequest cfg dev scorer r) := by
  have hmirror : MirrorInv cfg dev (s.finishRequest cfg dev scorer r) := h.toMirrorInv.finishRequest r
  unfold Scheduler.finishRequest at hmirror ⊢
  split_ifs at hmirror ⊢
  · have hstep : FinishStep cfg.toConnectorConfig dev r s.connector
        (connectorStep cfg.toConnectorConfig dev scorer s.connector (.finished r)) := finishStep h.sound r
    have hfresh : (ConnectorOp.finished r : ConnectorOp μ).Fresh s.connector := True.intro
    have htables :
        (connectorStep cfg.toConnectorConfig dev scorer s.connector (.finished r)).reqToBlocks = s.tables := by
      rw [hstep.state]
      rfl
    have htrace : (connectorStep cfg.toConnectorConfig dev scorer s.connector (.finished r)).trace =
        s.connector.trace ++ [.finished r] := by rw [hstep.state]
    dsimp only at hmirror ⊢
    refine ⟨hmirror, (h.kept.step hfresh).1.withManager _, fun r' hr' => ?_,
      ⟨fun ref page hplace => ?_, fun r' blocks hwarm hget => ?_⟩, ?_⟩
    · show r' ∉ finishedRequests (connectorStep cfg.toConnectorConfig dev scorer s.connector (.finished r)).trace
      obtain ⟨hne, hkey⟩ := OrderedDict.mem_keys_erase.mp hr'
      rw [htrace, finishedRequests_append, List.mem_append, not_or]
      refine ⟨h.known r' hkey, fun hlast => hne ?_⟩
      exact List.mem_singleton.mp hlast
    · have hplace' :
        (connectorStep cfg.toConnectorConfig dev scorer s.connector (.finished r)).place ref = .gpu page true := hplace
      rw [hstep.place] at hplace'
      split_ifs at hplace' with hlisted
      obtain ⟨blocks, hget, hidx, hpage⟩ := h.seated.owned ref page hplace'
      have hne : ref.requestId ≠ r := by
        rintro rfl
        exact hlisted (h.seated.mem_listedBlocks h.sound hplace')
      refine ⟨blocks, ?_, hidx, hpage⟩
      show (OrderedDict.erase _ r).get? ref.requestId = some blocks
      rw [OrderedDict.get?_erase_of_ne _ hne, ConnectorState.manager, htables]
      exact hget
    · have hget' :
          ((connectorStep cfg.toConnectorConfig dev scorer s.connector (.finished r)).reqToBlocks.erase r).get? r' =
          some blocks := hget
      rw [OrderedDict.get?_erase, htables] at hget'
      split_ifs at hget' with heq
      show (connectorStep cfg.toConnectorConfig dev scorer s.connector (.finished r)).orchestrator.requestBlocks.get?
        r' = _
      rw [hstep.state]
      show (s.connector.orchestrator.requestBlocks.erase r).get? r' = _
      rw [OrderedDict.get?_erase_of_ne _ heq]
      exact h.seated.listed r' blocks hwarm hget'
    · show OwnCopies (connectorStep cfg.toConnectorConfig dev scorer s.connector (.finished r)).trace
      rw [htrace]
      exact ownCopies_concat h.copies True.intro
  · exact h

/-- The tables only grow in a plan that preempts no request with a complete block on record. -/
theorem OwnInv.planned_owned (h : OwnInv cfg dev s) {p : SchedulePass μ σ} (hplanned : Planned s p)
    (hclear : ∀ r ∈ p.preempted, Clear s.connector.toConnectorState r) :
    ∀ ref page, p.scheduler.connector.place ref = .gpu page true → Holds p.scheduler.tables ref page := by
  intro ref page hplace
  rw [hplanned.frame] at hplace
  obtain ⟨blocks, hget, hidx, hpage⟩ := h.seated.owned ref page hplace
  have hkept : ref.requestId ∉ p.preempted := fun hmem => (hclear _ hmem).requestId_ne hplace rfl
  obtain ⟨more, hmore⟩ := hplanned.lengthened _ _ hkept hget
  refine ⟨blocks ++ more, hmore, hidx, ?_⟩
  obtain ⟨hlt, -⟩ := List.getElem?_eq_some_iff.mp hpage
  rw [List.getElem?_append_left hlt]
  exact hpage

theorem Scheduler.IsRunning.mem_keys {r : RequestId} (h : s.IsRunning r) : r ∈ s.requests.keys := by
  rw [IsRunning, Option.map_eq_some_iff] at h
  obtain ⟨req, hget, -⟩ := h
  exact OrderedDict.mem_keys_of_get? hget

theorem OwnInv.schedule (hscore : ∀ tick, dev.scoreFault tick = false) (h : OwnInv cfg dev s) {choices : SchedulePlan}
    (hroomy : Roomy cfg.toConnectorConfig s.connector (s.schedule cfg dev scorer choices).connector)
    (hclear : ∀ r ∈ (s.plan cfg choices).preempted, Clear s.connector.toConnectorState r) :
    OwnInv cfg dev (s.schedule cfg dev scorer choices) := by
  have hplanned := planned_plan cfg h.tabled choices
  have htrace : (s.plan cfg choices).scheduler.connector.trace = s.connector.trace := by
    rw [hplanned.frame]
    rfl
  have hkept : Kept cfg.toConnectorConfig dev (s.plan cfg choices).scheduler.connector := by
    rw [hplanned.frame]
    exact h.kept.withManager _
  have hfresh : ∀ r ∈ ((s.plan cfg choices).output cfg).ids,
      r ∉ finishedRequests (s.plan cfg choices).scheduler.connector.trace := by
    intro r hr
    have hrunning := hplanned.active r (((s.plan cfg choices).output_ids cfg).mem_iff.mp hr)
    rw [htrace]
    exact h.known r (hplanned.requests r hrunning.mem_keys)
  have hcopies : OwnCopies (s.plan cfg choices).scheduler.connector.trace := by
    rw [htrace]
    exact h.copies
  obtain ⟨-, htables⟩ := build_tables scorer ((s.plan cfg choices).output cfg) hkept.sound
  have hpost : OwnPost ((s.plan cfg choices).output cfg) (s.plan cfg choices).scheduler.connector
      (s.schedule cfg dev scorer choices).connector := by
    obtain ⟨-, hF | hE⟩ := build_step scorer hkept.sound
      (carried_owning (hplanned.delivers h.mirrors) (h.planned_owned hplanned hclear) hcopies)
    · exact hF
    · apply hE hscore
      rw [Roomy, newPasses, htrace]
      exact hroomy
  have hop : (ConnectorOp.build ((s.plan cfg choices).output cfg) : ConnectorOp μ).Fresh
      (s.plan cfg choices).scheduler.connector := hfresh
  refine ⟨(h.toMirrorInv.schedule hscore hroomy).1, (hkept.step hop).1, fun r hr => ?_,
    ⟨fun ref page hplace => ?_, fun r blocks hwarm hget => ?_⟩, hpost.copies⟩
  · rw [show finishedRequests (s.schedule cfg dev scorer choices).connector.trace = _ from
      hkept.build_finished scorer hfresh, htrace]
    exact h.known r (hplanned.requests r ((mem_keys_advance _ _ r).mp hr))
  · rw [show (s.schedule cfg dev scorer choices).connector.reqToBlocks = _ from htables]
    exact hpost.owned ref page hplace
  · rw [show (s.schedule cfg dev scorer choices).connector.reqToBlocks = _ from htables] at hget
    by_cases hr : r ∈ ((s.plan cfg choices).output cfg).ids
    · exact hpost.listed r hr hwarm blocks hget
    · have hids := mt ((s.plan cfg choices).output_ids cfg).mem_iff.mpr hr
      rw [hpost.others r hr, hplanned.frame]
      exact h.seated.listed r blocks hwarm (hplanned.kept r blocks hids hget)

theorem OwnInv.step (hscore : ∀ tick, dev.scoreFault tick = false) (h : OwnInv cfg dev s) {op : SchedulerOp μ}
    (hop : op.KeepsPages cfg dev scorer s) : OwnInv cfg dev (schedulerStep cfg dev scorer s op) := by
  have hmirror := h.toMirrorInv.step hscore hop.1
  cases op with
  | addRequest r promptLen =>
      have hfresh : r ∉ finishedRequests s.connector.trace := hop.2
      rw [schedulerStep, Scheduler.addRequest] at hmirror ⊢
      split_ifs at hmirror ⊢
      · exact h
      · refine ⟨hmirror, h.kept, fun r' hr' => ?_, h.seated, h.copies⟩
        rcases OrderedDict.mem_keys_set.mp hr' with rfl | hold
        · exact hfresh
        · exact h.known r' hold
  | schedule choices => exact h.schedule hscore hop.1 hop.2
  | preempt r => exact h.preemptRequest hop.2
  | rejectTokens r n =>
      rw [schedulerStep, Scheduler.rejectTokens] at hmirror ⊢
      cases hget : s.requests.get? r with
      | none => exact h
      | some req =>
          rw [hget] at hmirror
          refine ⟨hmirror, h.kept, fun r' hr' => ?_, h.seated, h.copies⟩
          rcases OrderedDict.mem_keys_set.mp hr' with rfl | hold
          · exact h.known _ (OrderedDict.mem_keys_of_get? hget)
          · exact h.known r' hold
  | update completed =>
      have hfresh : (ConnectorOp.update completed : ConnectorOp μ).Fresh s.connector := True.intro
      have hkept : Kept cfg.toConnectorConfig dev
          (connectorStep cfg.toConnectorConfig dev scorer s.connector (.update completed)) := (h.kept.step hfresh).1
      exact ⟨hmirror, hkept, h.known, (h.settled.update completed).toSeated, h.copies⟩
  | finish r => exact h.finishRequest r
  | worker op =>
      have hfresh : (ConnectorOp.worker op).Fresh s.connector := True.intro
      have hquiet : QuietStep cfg.toConnectorConfig dev s.connector
          (connectorStep cfg.toConnectorConfig dev scorer s.connector (.worker op)) := quietStep_worker h.sound op
      refine ⟨hmirror, (h.kept.step hfresh).1, h.known,
        ⟨fun ref page hplace => ?_, fun r blocks hwarm hget => ?_⟩, h.copies⟩
      · have hplace' :
            (connectorStep cfg.toConnectorConfig dev scorer s.connector (.worker op)).place ref = .gpu page true :=
          hplace
        rw [hquiet.place] at hplace'
        exact h.seated.owned ref page hplace'
      · show (connectorStep cfg.toConnectorConfig dev scorer s.connector (.worker op)).orchestrator.requestBlocks.get?
          r = _
        rw [hquiet.state]
        exact h.seated.listed r blocks hwarm hget

end Runs

/-- A pass copies pages of their own only: the page it copies under a block is the one that vLLM's table
of the block's request has at the block's index. -/
theorem offload_copies_own_pages (cfg : SchedulerConfig) (dev : Device μ φ ν S) (scorer : BlockScorer σ ν S) (x : σ)
    (mem : μ) (pool : BlockPool) (hscore : ∀ tick, dev.scoreFault tick = false) {ops : List (SchedulerOp μ)}
    (hops : Along (schedulerStep cfg dev scorer) (fun s op => op.KeepsPages cfg dev scorer s)
      (Scheduler.init cfg x mem pool) ops) :
    OwnCopies (run (schedulerStep cfg dev scorer) (Scheduler.init cfg x mem pool) ops).connector.trace := by
  have hstart : OwnInv cfg dev (Scheduler.init cfg x mem pool : Scheduler μ σ) := by
    refine ⟨⟨sound_init cfg.toConnectorConfig dev x mem pool, nofun, nofun⟩,
      kept_init cfg.toConnectorConfig dev x mem pool,
      nofun, ⟨fun ref page hplace => ?_, nofun⟩, nofun⟩
    cases hplace
  have hinv := run_invariant (I := OwnInv cfg dev) (fun _ _ h hop => h.step hscore hop) hstart hops
  exact hinv.copies

/-- Pages of one token, a pass every three tokens. -/
def singleTokenConfig : OrchestratorConfig where
  offloadFraction := 1 / 2
  numCpuSlots := 6
  numStagingSlots := 1
  window := 3
  pageSize := 1
  gpuBudgetBlocks := 1
  stagingBase := 6
  numCpuSlots_pos := by decide
  numStagingSlots_pos := Nat.one_pos
  window_pos := by decide
  pageSize_pos := Nat.one_pos
  pageSize_dvd_window := by decide

def singleTokenSchedulerConfig : SchedulerConfig where
  toOrchestratorConfig := singleTokenConfig
  trueFree := true
  promotePerStep := 1
  worldSize := 1
  offloadFraction_nonneg := by decide +kernel
  offloadFraction_lt_one := by decide +kernel
  numLookaheadTokens := 0
  useV2ModelRunner := false

def singleTokenStep : Scheduler SmallMemory LruState → SchedulerOp SmallMemory → Scheduler SmallMemory LruState :=
  schedulerStep singleTokenSchedulerConfig (combinedDevice steadyRuntime) lruScorer

/-- Five pages besides the null page and the staging page. -/
def singleTokenScheduler : Scheduler SmallMemory LruState :=
  Scheduler.init singleTokenSchedulerConfig ⟨.empty, 0⟩ blankMemory (reserveStagingTail 7 (BlockPool.init 7 false) 1).2

/-- A request is preempted in its prefill, before a block of it is complete, and admitted again. -/
def earlyPreemption : List (SchedulerOp SmallMemory) :=
  [.addRequest requestB 2, .addRequest requestA 2, .schedule ⟨[], [⟨requestB, [], 2⟩, ⟨requestA, [], 1⟩]⟩,
    .preempt requestA, .schedule ⟨[.run requestB 1], []⟩, .update [(0, 1)], .schedule ⟨[], [⟨requestA, [], 2⟩]⟩,
    .schedule ⟨[.run requestA 1], []⟩, .finish requestB]

theorem offload_copies_own_pages_earlyPreemption :
    (movedBlocks (run singleTokenStep singleTokenScheduler earlyPreemption).connector.trace).length = 3 ∧
      OwnCopies (run singleTokenStep singleTokenScheduler earlyPreemption).connector.trace := by
  have hown : ∀ ops, Along singleTokenStep
      (fun s op => op.KeepsPages singleTokenSchedulerConfig (combinedDevice steadyRuntime) lruScorer s)
        singleTokenScheduler
      ops → OwnCopies (run singleTokenStep singleTokenScheduler ops).connector.trace := by
    intro ops hops
    exact offload_copies_own_pages singleTokenSchedulerConfig (combinedDevice steadyRuntime) lruScorer
      ⟨.empty, 0⟩ blankMemory (reserveStagingTail 7 (BlockPool.init 7 false) 1).2 (fun _ => rfl) hops
  exact ⟨by decide +kernel, hown earlyPreemption (by decide +kernel)⟩

/-- The first request needs a page and the second one is preempted for it, with a complete block on page 3.
Two steps later the first request holds page 3, and its pass copies it under the block of the second. -/
def stalePreemption : List (SchedulerOp SmallMemory) :=
  [.addRequest requestB 1, .addRequest requestA 2, .schedule ⟨[], [⟨requestB, [], 1⟩, ⟨requestA, [], 2⟩]⟩,
    .schedule ⟨[.run requestB 1, .run requestA 1], []⟩,
    .schedule ⟨[.run requestB 1, .preempt requestA, .run requestB 1], []⟩, .schedule ⟨[.run requestB 1], []⟩]

theorem preempted_page_copied :
    let s := run singleTokenStep singleTokenScheduler stalePreemption
    (⟨requestA, 1⟩, some 3) ∈ movedBlocks s.connector.trace ∧ s.tables.get? requestA = none ∧
      s.tables.get? requestB = some [1, 4, 5, 3] ∧ ¬OwnCopies s.connector.trace := by
  decide +kernel

end KVOffload

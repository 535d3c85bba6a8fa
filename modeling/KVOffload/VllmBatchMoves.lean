import KVOffload.VllmInputBatch

/-! How rows of the persistent batch change places. Two rows are swapped when the batch is reordered, and at the end of
an update the last rows move down into the holes that are left. Neither changes what the batch says of a request. -/

namespace KVOffload
open Base

namespace InputBatch

section Swaps

variable {b : InputBatch} {i1 i2 : Nat} {r1 r2 : RequestId}

/-- Two rows change places; nobody's entry changes. -/
structure Swapped (b : InputBatch) (i1 i2 : Nat) (b' : InputBatch) : Prop where
  indexed : Indexed b'
  limits : SameLimits b b'
  content : ∀ j, b'.reqIds[j]? = b.reqIds[Equiv.swap i1 i2 j]?
  length : b'.reqIds.length = b.reqIds.length
  entry : ∀ r, b'.state? r = b.state? r

theorem wp_swapStates (h : Indexed b) (h1 : b.reqIds[i1]? = some (some r1)) (h2 : b.reqIds[i2]? = some (some r2)) :
    Eff.wp (swapStates i1 i2) (fun _ b' => Swapped b i1 i2 b') (fun _ _ => False) b := by
  have hget1 := (h r1 i1).mpr h1
  have hget2 := (h r2 i2).mpr h2
  simp only [swapStates, Eff.wp_bind, Eff.wp_read, h1, h2, Eff.wp_modify, hget1, hget2]
  have hindex :
      ∀ r, ((b.reqIdToIndex.set r1 i2).set r2 i1).get? r = (b.reqIdToIndex.get? r).map (Equiv.swap i1 i2) := by
    intro r
    by_cases hr2 : r = r2
    · rw [hr2, OrderedDict.get?_set_self, hget2, Option.map_some, Equiv.swap_apply_right]
    · rw [OrderedDict.get?_set_of_ne _ _ hr2]
      by_cases hr1 : r = r1
      · rw [hr1, OrderedDict.get?_set_self, hget1, Option.map_some, Equiv.swap_apply_left]
      · rw [OrderedDict.get?_set_of_ne _ _ hr1]
        cases hget : b.reqIdToIndex.get? r with
        | none => rfl
        | some j =>
            -- A third request is in neither of the two rows.
            have hj1 : j ≠ i1 := fun heq => hr1 (h.id_unique h1 (heq ▸ hget))
            have hj2 : j ≠ i2 := fun heq => hr2 (h.id_unique h2 (heq ▸ hget))
            rw [Option.map_some, Equiv.swap_apply_of_ne_of_ne hj1 hj2]
  refine ⟨fun r j => ?_, ⟨rfl, rfl⟩, getElem?_swap h1 h2, by rw [List.length_set, List.length_set], fun r => ?_⟩
  · show ((b.reqIdToIndex.set r1 i2).set r2 i1).get? r = some j ↔ ((b.reqIds.set i1 (some r2)).set i2 (some r1))[j]? = _
    rw [hindex, getElem?_swap h1 h2, ← h r, Option.map_eq_some_iff]
    constructor
    · rintro ⟨k, hk, rfl⟩
      rw [Equiv.swap_apply_self, hk]
    · intro hk
      exact ⟨_, hk, Equiv.swap_apply_self _ _ _⟩
  · rw [state?, state?]
    show Option.map _ (((b.reqIdToIndex.set r1 i2).set r2 i1).get? r) = _
    rw [hindex, Option.map_map]
    congr 1
    funext j
    simp only [rowState, Function.comp_apply, BlockTable.row_swapRow, Equiv.swap_apply_self]

end Swaps

section Condensing

variable {b b' : InputBatch}

theorem lastFilled_of_some {holes : List Nat} {n m : Nat} (h : lastFilled holes n = some m) :
    m ≤ n ∧ m ∉ holes ∧ ∀ j, m < j → j ≤ n → j ∈ holes := by
  induction n with
  | zero =>
      rw [lastFilled] at h
      split_ifs at h with hmem
      obtain rfl := Option.some.inj h
      exact ⟨le_rfl, hmem, fun j hlt hle => absurd hlt (by omega)⟩
  | succ n ih =>
      rw [lastFilled] at h
      split_ifs at h with hmem
      · obtain ⟨hle, hnot, hbetween⟩ := ih h
        refine ⟨by omega, hnot, fun j hlt hj => ?_⟩
        rcases Nat.eq_or_lt_of_le hj with rfl | hj
        · exact hmem
        · exact hbetween j hlt (by omega)
      · obtain rfl := Option.some.inj h
        exact ⟨le_rfl, hmem, fun j hlt hle => absurd hlt (by omega)⟩

theorem lastFilled_of_none {holes : List Nat} {n : Nat} (h : lastFilled holes n = none) : ∀ j ≤ n, j ∈ holes := by
  induction n with
  | zero =>
      rw [lastFilled] at h
      split_ifs at h with hmem
      intro j hj
      obtain rfl : j = 0 := by omega
      exact hmem
  | succ n ih =>
      rw [lastFilled] at h
      split_ifs at h with hmem
      intro j hj
      rcases Nat.eq_or_lt_of_le hj with rfl | hj
      · exact hmem
      · exact ih h j (by omega)

/-- In the loop, with everything beyond `last` done: there are requests up to `last` only, and the holes up to there are
listed. -/
structure Condensing (b : InputBatch) (last : Nat) (b' : InputBatch) : Prop where
  indexed : Indexed b'
  limits : SameLimits b b'
  entry : ∀ r, b'.state? r = b.state? r
  length : b'.reqIds.length = b.reqIds.length
  last_lt : last < b'.reqIds.length
  holes : ∀ i ≤ last, i ∈ b'.batchUpdateBuilder.removed ↔ b'.reqIds[i]? = some none
  beyond : ∀ i > last, ∀ r, b'.reqIds[i]? ≠ some (some r)
  isSorted : b'.batchUpdateBuilder.isRemovedSorted = true
  sorted : b'.batchUpdateBuilder.removed.Pairwise (· > ·)

/-- The requests are in the first rows. -/
structure Condensed (b b' : InputBatch) : Prop where
  indexed : Indexed b'
  limits : SameLimits b b'
  entry : ∀ r, b'.state? r = b.state? r
  length : b'.reqIds.length = b.reqIds.length
  filled : ∀ i, (∃ r, b'.reqIds[i]? = some (some r)) ↔ i < b'.numReqs

theorem Condensing.filled {last i : Nat} (h : Condensing b last b') (hle : i ≤ last)
    (hnot : i ∉ b'.batchUpdateBuilder.removed) : ∃ r, b'.reqIds[i]? = some (some r) := by
  have hlt : i < b'.reqIds.length := lt_of_le_of_lt hle h.last_lt
  cases hrow : b'.reqIds[i]? with
  | none => exact absurd hlt (Nat.not_lt.mpr (List.getElem?_eq_none_iff.mp hrow))
  | some content =>
      cases content with
      | none => exact absurd ((h.holes i hle).mpr hrow) hnot
      | some r => exact ⟨r, rfl⟩

/-- The loop ends with `k` filled rows at the front and none after them. -/
theorem Condensing.condensed {last k : Nat} (h : Condensing b last b') (hk : k ≤ last + 1)
    (hfront : ∀ i < k, i ∉ b'.batchUpdateBuilder.removed)
    (hback : ∀ i, k ≤ i → i ≤ last → i ∈ b'.batchUpdateBuilder.removed) : Condensed b b' := by
  have hfilled : ∀ i, (∃ r, b'.reqIds[i]? = some (some r)) ↔ i < k := by
    intro i
    constructor
    · rintro ⟨r, hrow⟩
      by_contra hge
      rcases Nat.lt_or_ge last i with hlt | hle
      · exact h.beyond i hlt r hrow
      · rw [(h.holes i hle).mp (hback i (by omega) hle)] at hrow
        cases hrow
    · intro hlt
      exact h.filled (by omega) (hfront i hlt)
  exact ⟨h.indexed, h.limits, h.entry, h.length, by rw [h.indexed.numReqs_eq hfilled]; exact hfilled⟩

/-- One round: the last request moves down into the lowest hole. -/
theorem Condensing.moveDown {last m e : Nat} {rest : List Nat} (h : Condensing b last b')
    (hremoved : b'.batchUpdateBuilder.removed = rest ++ [e])
    (hm : lastFilled b'.batchUpdateBuilder.removed last = some m) (hlt : e < m) :
    Eff.wp (InputBatch.moveDown m e) (fun _ b'' => Condensing b (m - 1) b'' ∧ b''.batchUpdateBuilder.removed = rest)
      (fun _ _ => False) { b' with batchUpdateBuilder := ⟨rest, true⟩ } := by
  obtain ⟨hmle, hmnot, hbetween⟩ := lastFilled_of_some hm
  obtain ⟨r, hrow⟩ := h.filled hmle hmnot
  have hmlt := (List.getElem?_eq_some_iff.mp hrow).1
  have hsorted := h.sorted
  rw [hremoved, List.pairwise_append] at hsorted
  have hmem : ∀ i, i ∈ b'.batchUpdateBuilder.removed ↔ i ∈ rest ∨ i = e := by
    intro i
    rw [hremoved, List.mem_append, List.mem_singleton]
  have hehole : b'.reqIds[e]? = some none := (h.holes e (by omega)).mp ((hmem e).mpr (.inr rfl))
  have henot : e ∉ rest := fun hin => lt_irrefl e (hsorted.2.2 e hin e (List.mem_singleton_self e))
  have hcontent : ∀ j, ((b'.reqIds.set e (some r)).set m none)[j]? =
      if j = m then some none else if j = e then some (some r) else b'.reqIds[j]? := by
    intro j
    by_cases hjm : j = m
    · rw [hjm, if_pos rfl, List.getElem?_set_self (by rw [List.length_set]; exact hmlt)]
    · rw [if_neg hjm, List.getElem?_set_ne (Ne.symm hjm)]
      by_cases hje : j = e
      · rw [hje, if_pos rfl, List.getElem?_set_self (by omega)]
      · rw [if_neg hje, List.getElem?_set_ne (Ne.symm hje)]
  simp only [InputBatch.moveDown, Eff.wp_bind, Eff.wp_read, hrow, Eff.wp_modify, and_true]
  refine ⟨fun r' j => ?_, ⟨h.limits.maxNumReqs, h.limits.maxNumBlocksPerReq⟩, fun r' => ?_, ?_, ?_, fun i hi => ?_,
    fun i hi r' => ?_, rfl, hsorted.1⟩
  · show (b'.reqIdToIndex.set r e).get? r' = some j ↔ ((b'.reqIds.set e (some r)).set m none)[j]? = some (some r')
    rw [OrderedDict.get?_set, hcontent j]
    by_cases hr : r' = r
    · rw [if_pos hr, hr]
      by_cases hjm : j = m
      · rw [if_pos hjm]
        exact ⟨fun heq => absurd (Option.some.inj heq) (by omega), by simp⟩
      · rw [if_neg hjm]
        by_cases hje : j = e
        · rw [if_pos hje, hje]
          exact iff_of_true rfl rfl
        · rw [if_neg hje]
          exact ⟨fun heq => absurd (Option.some.inj heq).symm hje,
            fun hrow' => absurd (h.indexed.row_unique hrow' hrow) hjm⟩
    · rw [if_neg hr, h.indexed r' j]
      by_cases hjm : j = m
      · rw [if_pos hjm, hjm, hrow]
        exact ⟨fun heq => absurd (Option.some.inj (Option.some.inj heq)).symm hr, by simp⟩
      · rw [if_neg hjm]
        by_cases hje : j = e
        · rw [if_pos hje, hje, hehole]
          exact ⟨by simp, fun heq => absurd (Option.some.inj (Option.some.inj heq)).symm hr⟩
        · rw [if_neg hje]
  · rw [← h.entry r']
    by_cases hr : r' = r
    · rw [hr, h.indexed.state?_of_row hrow, state?, OrderedDict.get?_set_self, Option.map_some]
      simp only [rowState, Function.update_self, BlockTable.row_moveRow hlt.ne, if_neg hlt.ne, if_true]
    · refine state?_congr (OrderedDict.get?_set_of_ne _ _ hr) fun j hget => ?_
      have hjm : j ≠ m := fun heq => hr (h.indexed.id_unique hrow (heq ▸ hget))
      have hje : j ≠ e := by
        rintro rfl
        rw [(h.indexed r' j).mp hget] at hehole
        cases hehole
      simp only [rowState, Function.update_of_ne hje, BlockTable.row_moveRow hlt.ne, if_neg hjm, if_neg hje]
  · rw [List.length_set, List.length_set]
    exact h.length
  · rw [List.length_set, List.length_set]
    omega
  · show i ∈ rest ↔ ((b'.reqIds.set e (some r)).set m none)[i]? = some none
    rw [hcontent i, if_neg (show i ≠ m by omega)]
    by_cases hie : i = e
    · rw [if_pos hie, hie]
      exact ⟨fun hin => absurd hin henot, by simp⟩
    · rw [if_neg hie, ← h.holes i (by omega), hmem]
      exact (or_iff_left hie).symm
  · show ((b'.reqIds.set e (some r)).set m none)[i]? ≠ some (some r')
    rw [hcontent i]
    by_cases him : i = m
    · rw [if_pos him]
      simp
    · rw [if_neg him, if_neg (show i ≠ e by omega)]
      rcases Nat.lt_or_ge last i with hlast | hle
      · exact h.beyond i hlast r'
      · rw [(h.holes i hle).mp (hbetween i (by omega) hle)]
        simp

theorem wp_condenseLoop {rounds last : Nat} (h : Condensing b last b')
    (hrounds : b'.batchUpdateBuilder.removed.length ≤ rounds) :
    Eff.wp (condenseLoop rounds last) (fun _ b'' => Condensed b b'') (fun _ _ => False) b' := by
  induction rounds generalizing last b' with
  | zero =>
      have hempty := List.length_eq_zero_iff.mp (Nat.le_zero.mp hrounds)
      rw [condenseLoop, Eff.wp_pure]
      exact h.condensed le_rfl (fun i _ => by rw [hempty]; exact List.not_mem_nil) fun i hge hle =>
        absurd hge (by omega)
  | succ rounds ih =>
      simp only [condenseLoop, Eff.wp_bind, Eff.wp_read]
      obtain hempty | ⟨rest, e, hremoved⟩ := List.eq_nil_or_concat b'.batchUpdateBuilder.removed
      · simp only [hempty, List.getLast?_nil, Eff.wp_pure]
        exact h.condensed le_rfl (fun i _ => by rw [hempty]; exact List.not_mem_nil) fun i hge hle =>
          absurd hge (by omega)
      · rw [List.concat_eq_append] at hremoved
        have hlowest : ∀ i ∈ b'.batchUpdateBuilder.removed, e ≤ i := by
          have hsorted := h.sorted
          rw [hremoved, List.pairwise_append] at hsorted
          intro i hi
          rw [hremoved, List.mem_append, List.mem_singleton] at hi
          rcases hi with hi | rfl
          · exact (hsorted.2.2 i hi e (List.mem_singleton_self e)).le
          · exact le_rfl
        have hlast : b'.batchUpdateBuilder.removed.getLast? = some e := by rw [hremoved, List.getLast?_concat]
        cases hm : lastFilled b'.batchUpdateBuilder.removed last with
        | none =>
            simp only [hlast, Eff.wp_pure]
            exact h.condensed (Nat.zero_le _) (fun i hi => absurd hi (by omega)) fun i _ hle =>
              lastFilled_of_none hm i hle
        | some m =>
            obtain ⟨hmle, hmnot, hbetween⟩ := lastFilled_of_some hm
            simp only [hlast]
            by_cases hle : m ≤ e
            · rw [if_pos hle, Eff.wp_pure]
              refine h.condensed (by omega : m + 1 ≤ last + 1) (fun i hi hmem => ?_)
                fun i hge hi => hbetween i (by omega) hi
              have hei := hlowest i hmem
              obtain rfl : i = m := by omega
              exact hmnot hmem
            · have hpop : b'.batchUpdateBuilder.popRemoved.2 = ⟨rest, true⟩ := by
                have hne : b'.batchUpdateBuilder.removed ≠ [] := by
                  rw [hremoved]
                  simp
                rw [BatchUpdateBuilder.popRemoved, if_neg hne, BatchUpdateBuilder.ensureRemovedSorted,
                  if_pos h.isSorted]
                dsimp only
                rw [hremoved, h.isSorted, List.dropLast_concat]
              simp only [if_neg hle, Eff.wp_bind, Eff.wp_modify, hpop]
              refine Eff.wp_mono (h.moveDown hremoved hm (by omega)) (fun _ b'' hend => ?_) fun _ _ hf => hf
              obtain ⟨hnext, hrest⟩ := hend
              refine ih hnext ?_
              rw [hremoved, List.length_append, List.length_singleton] at hrounds
              rw [hrest]
              omega

theorem wp_condense (h : Tracked b) :
    Eff.wp condense (fun _ b' => Dense b' ∧ SameLimits b b' ∧ ∀ r, b'.state? r = b.state? r) (fun _ _ => False) b := by
  have hperm := perm_ensureRemovedSorted b.batchUpdateBuilder
  have hlength := h.length_reqIds
  have hholes : ∀ i, i ∈ b.batchUpdateBuilder.ensureRemovedSorted.removed ↔ b.reqIds[i]? = some none :=
    fun i => hperm.mem_iff.trans (h.holes i)
  have hsame : numReqs { b with batchUpdateBuilder := b.batchUpdateBuilder.ensureRemovedSorted } = b.numReqs := rfl
  simp only [condense, Eff.wp_bind, Eff.wp_modify, Eff.wp_read, hsame]
  by_cases hempty : b.batchUpdateBuilder.ensureRemovedSorted.removed = []
  · rw [if_pos hempty, Eff.wp_pure]
    refine ⟨⟨h.indexed, fun i hhole => ?_, h.fits⟩, ⟨rfl, rfl⟩, fun _ => rfl⟩
    exact List.not_mem_nil (hempty ▸ (hholes i).mpr hhole)
  · rw [if_neg hempty]
    by_cases hnone : b.numReqs = 0
    · -- Nobody is left.
      have hkeys : b.reqIdToIndex.keys = [] := List.length_eq_zero_iff.mp hnone
      rw [if_pos hnone, Eff.wp_modify]
      refine ⟨⟨fun r i => ?_, fun i => by simp, Nat.zero_le _⟩, ⟨rfl, rfl⟩, fun _ => rfl⟩
      show b.reqIdToIndex.get? r = some i ↔ _
      rw [OrderedDict.get?_eq_none_iff.mpr (by rw [hkeys]; exact List.not_mem_nil)]
      simp
    · rw [if_neg hnone]
      have hstart : Condensing b (b.numReqs + b.batchUpdateBuilder.ensureRemovedSorted.removed.length - 1)
          { b with batchUpdateBuilder := b.batchUpdateBuilder.ensureRemovedSorted } := by
        rw [hperm.length_eq, ← hlength]
        refine ⟨h.indexed, ⟨rfl, rfl⟩, fun _ => rfl, rfl, ?_, fun i _ => hholes i, fun i hi r hrow => ?_,
          isRemovedSorted_ensureRemovedSorted _, h.pairwise_removed⟩
        · show b.reqIds.length - 1 < b.reqIds.length
          omega
        · have hlt : i < b.reqIds.length := (List.getElem?_eq_some_iff.mp hrow).1
          omega
      simp only [Eff.wp_bind]
      refine Eff.wp_mono (wp_condenseLoop hstart le_rfl) (fun _ b' hend => ?_) fun _ _ hf => hf
      have hnum := numReqs_congr hend.entry
      have htake : ∀ i, (b'.reqIds.take b.numReqs)[i]? = if i < b.numReqs then b'.reqIds[i]? else none := by
        intro i
        rw [List.getElem?_take]
      rw [Eff.wp_modify]
      refine ⟨⟨fun r i => ?_, fun i hhole => ?_, ?_⟩, ⟨hend.limits.maxNumReqs, hend.limits.maxNumBlocksPerReq⟩,
        hend.entry⟩
      · show b'.reqIdToIndex.get? r = some i ↔ (b'.reqIds.take b.numReqs)[i]? = some (some r)
        rw [htake, hend.indexed r i]
        split_ifs with hi
        · exact Iff.rfl
        · exact ⟨fun hrow => absurd ((hend.filled i).mp ⟨r, hrow⟩) (hnum ▸ hi), by simp⟩
      · replace hhole : (b'.reqIds.take b.numReqs)[i]? = some none := hhole
        rw [htake] at hhole
        split_ifs at hhole with hi
        obtain ⟨r, hrow⟩ := (hend.filled i).mpr (hnum.symm ▸ hi)
        rw [hrow] at hhole
        cases hhole
      · show (b'.reqIds.take b.numReqs).length ≤ b'.maxNumReqs
        rw [List.length_take, hend.limits.maxNumReqs, hend.length]
        have := h.fits
        omega

end Condensing

end InputBatch

end KVOffload

import Mathlib.Data.List.Sort
import Mathlib.Data.List.Zip
import Mathlib.Order.Basic

/-! Selection by score. `argmin` returns the first entry of least score and `lowest` the first
entries of a stable ascending sort; both act on entries paired with their scores, as a tensor of
scores is computed before it is searched. `evictMany` removes minima one after another, and
`evictMany_keeps_iff` counts how many removals the elements at the end of the list survive. -/

namespace KVOffload.Base

variable {α S : Type} [LinearOrder S]

/-- The first element among those of least score. -/
def argmin : List (α × S) → Option (α × S)
  | [] => none
  | e :: rest =>
      match argmin rest with
      | none => some e
      | some b => if b.2 < e.2 then some b else some e

theorem argmin_eq_none_iff {l : List (α × S)} : argmin l = none ↔ l = [] := by
  cases l with
  | nil => simp [argmin]
  | cons e rest =>
      simp only [argmin, reduceCtorEq, iff_false]
      split
      · simp
      · split_ifs <;> simp

/-- Everything before the minimum scores strictly more, everything after it at least as much. -/
theorem argmin_eq_some {l : List (α × S)} {e : α × S} (h : argmin l = some e) :
    ∃ before after, l = before ++ e :: after ∧ (∀ x ∈ before, e.2 < x.2) ∧ ∀ x ∈ after, e.2 ≤ x.2 := by
  induction l generalizing e with
  | nil => simp [argmin] at h
  | cons a rest ih =>
      rw [argmin] at h
      split at h
      · rename_i hnone
        obtain rfl : a = e := Option.some.inj h
        have hrest : rest = [] := argmin_eq_none_iff.mp hnone
        exact ⟨[], [], by rw [hrest]; rfl, by simp, by simp⟩
      · rename_i b hb
        obtain ⟨before, after, hsplit, hbefore, hafter⟩ := ih hb
        split_ifs at h with hlt
        · obtain rfl : b = e := Option.some.inj h
          refine ⟨a :: before, after, by rw [hsplit]; rfl, ?_, hafter⟩
          intro x hx
          rcases List.mem_cons.mp hx with rfl | hx
          · exact hlt
          · exact hbefore x hx
        · obtain rfl : a = e := Option.some.inj h
          have hle : a.2 ≤ b.2 := not_lt.mp hlt
          refine ⟨[], rest, rfl, by simp, ?_⟩
          intro x hx
          rw [hsplit, List.mem_append, List.mem_cons] at hx
          rcases hx with hx | rfl | hx
          · exact hle.trans (hbefore x hx).le
          · exact hle
          · exact hle.trans (hafter x hx)

theorem argmin_mem {l : List (α × S)} {e : α × S} (h : argmin l = some e) : e ∈ l := by
  obtain ⟨before, after, rfl, -, -⟩ := argmin_eq_some h
  simp

/-- Relabelling the scores in order does not change the choice. -/
theorem argmin_map {T : Type} [LinearOrder T] {f : S → T} (hf : StrictMono f) (l : List (α × S)) :
    argmin (l.map (Prod.map id f)) = (argmin l).map (Prod.map id f) := by
  induction l with
  | nil => rfl
  | cons e rest ih =>
      rw [List.map_cons, argmin, argmin, ih]
      cases argmin rest with
      | none => rfl
      | some b =>
          simp only [Option.map_some, Prod.map_snd, hf.lt_iff_lt]
          split_ifs <;> rfl

/-- The `count` entries a stable ascending sort puts first. -/
def lowest (count : Nat) (l : List (α × S)) : List α :=
  ((l.insertionSort fun x y => x.2 ≤ y.2).take count).map Prod.fst

theorem lowest_subperm (count : Nat) (l : List (α × S)) : (lowest count l).Subperm (l.map Prod.fst) := by
  have htake := (List.take_sublist count (l.insertionSort fun x y => x.2 ≤ y.2)).map Prod.fst
  exact htake.subperm.trans ((List.perm_insertionSort _ l).map Prod.fst).subperm

/-- What is taken of scored keys is among them. -/
theorem lowest_map_subperm (count : Nat) (keys : List α) (score : α → S) :
    (lowest count (keys.map fun k => (k, score k))).Subperm keys := by
  have hsub := lowest_subperm count (keys.map fun k => (k, score k))
  rwa [List.map_map, show (Prod.fst ∘ fun k => (k, score k)) = (id : α → α) from rfl, List.map_id] at hsub

theorem nodup_of_subperm {xs ys : List α} (h : xs.Subperm ys) (hnodup : ys.Nodup) : xs.Nodup := by
  obtain ⟨l, hperm, hsublist⟩ := h
  exact hperm.nodup_iff.mp (hnodup.sublist hsublist)

theorem length_lowest (count : Nat) (l : List (α × S)) : (lowest count l).length = min count l.length := by
  rw [lowest, List.length_map, List.length_take, List.length_insertionSort]

/-- Nothing that is left out scores less than what is taken. -/
theorem lowest_le {refs : List α} {score : α → S} {count : Nat} {x y : α}
    (hx : x ∈ lowest count (refs.map fun ref => (ref, score ref))) (hy : y ∈ refs)
    (hleft : y ∉ lowest count (refs.map fun ref => (ref, score ref))) : score x ≤ score y := by
  let sorted := (refs.map fun ref => (ref, score ref)).insertionSort fun a b => a.2 ≤ b.2
  have hmem : ∀ e, e ∈ sorted ↔ ∃ ref ∈ refs, (ref, score ref) = e := by
    intro e
    rw [List.mem_insertionSort, List.mem_map]
  have hsorted : (sorted.take count ++ sorted.drop count).Pairwise fun a b => a.2 ≤ b.2 := by
    rw [List.take_append_drop]
    exact List.pairwise_insertionSort _ _
  obtain ⟨e, he, rfl⟩ := List.mem_map.mp hx
  obtain ⟨x, -, rfl⟩ := (hmem e).mp (List.mem_of_mem_take he)
  have hydrop : (y, score y) ∈ sorted.drop count := by
    have hysorted : (y, score y) ∈ sorted := (hmem _).mpr ⟨y, hy, rfl⟩
    rw [← List.take_append_drop count sorted, List.mem_append] at hysorted
    exact hysorted.resolve_left fun htake => hleft (List.mem_map_of_mem htake)
  exact (List.pairwise_append.mp hsorted).2.2 _ he _ hydrop

omit [LinearOrder S] in
/-- Scores listed for distinct entries are the values of a score function. -/
theorem exists_score [Nonempty S] {keys : List α} {values : List S} (hnodup : keys.Nodup)
    (hlen : values.length = keys.length) : ∃ score : α → S, keys.zip values = keys.map fun k => (k, score k) := by
  classical
  induction keys generalizing values with
  | nil => exact ⟨fun _ => Classical.arbitrary S, rfl⟩
  | cons k rest ih =>
      obtain ⟨v, vs, rfl⟩ := List.exists_cons_of_length_eq_add_one hlen
      obtain ⟨hnot, hrest⟩ := List.nodup_cons.mp hnodup
      obtain ⟨score, hscore⟩ := ih hrest (Nat.succ.inj hlen)
      refine ⟨Function.update score k v, ?_⟩
      rw [List.zip_cons_cons, List.map_cons, Function.update_self, hscore]
      congr 1
      apply List.map_congr_left
      intro k' hk'
      have hne : k' ≠ k := fun heq => hnot (heq ▸ hk')
      rw [Function.update_of_ne hne]

/-- In a sorted list, an element of a prefix is related to every element the prefix leaves out. -/
theorem rel_of_mem_take {R : α → α → Prop} {l : List α} (h : l.Pairwise R) {n : Nat} {x y : α} (hx : x ∈ l.take n)
    (hy : y ∈ l) (hnot : y ∉ l.take n) : R x y := by
  rw [← List.take_append_drop n l, List.mem_append] at hy
  rw [← List.take_append_drop n l, List.pairwise_append] at h
  exact h.2.2 x hx y (hy.resolve_left hnot)

section Evict

variable [DecidableEq α] {score : α → S} {P : α → Prop} [DecidablePred P]

/-- Removes the first element of least score. -/
def evictMin (score : α → S) (l : List α) : List α :=
  match argmin (l.map fun x => (x, score x)) with
  | none => l
  | some e => l.erase e.1

def evictMany (score : α → S) : Nat → List α → List α
  | 0, l => l
  | n + 1, l => evictMany score n (evictMin score l)

theorem evictMany_nil (n : Nat) : evictMany score n [] = [] := by
  induction n with
  | zero => rfl
  | succ n ih => exact ih

theorem evictMin_sublist (l : List α) : (evictMin score l).Sublist l := by
  unfold evictMin
  split
  · exact List.Sublist.refl l
  · exact List.erase_sublist

theorem evictMany_sublist (n : Nat) (l : List α) : (evictMany score n l).Sublist l := by
  induction n generalizing l with
  | zero => exact List.Sublist.refl l
  | succ n ih => exact (ih (evictMin score l)).trans (evictMin_sublist l)

theorem evictMin_eq (score : α → S) {l : List α} (hnodup : l.Nodup) (hne : l ≠ []) :
    ∃ before v after, l = before ++ v :: after ∧ evictMin score l = before ++ after ∧
      (∀ x ∈ before, score v < score x) ∧ ∀ x ∈ after, score v ≤ score x := by
  have hsome : argmin (l.map fun x => (x, score x)) ≠ none := by
    intro hnone
    exact hne (List.map_eq_nil_iff.mp (argmin_eq_none_iff.mp hnone))
  obtain ⟨⟨v, sv⟩, hmin⟩ := Option.ne_none_iff_exists'.mp hsome
  obtain ⟨before, after, hsplit, hbefore, hafter⟩ := argmin_eq_some hmin
  obtain ⟨xs, ys, hl, hxs, hys⟩ := List.map_eq_append_iff.mp hsplit
  obtain ⟨v', zs, rfl, hv, hzs⟩ := List.map_eq_cons_iff.mp hys
  obtain ⟨rfl, rfl⟩ : v' = v ∧ score v' = sv := Prod.mk.inj hv
  subst hxs hzs
  refine ⟨xs, v', zs, hl, ?_, fun x hx => ?_, fun x hx => ?_⟩
  · have hnot : v' ∉ xs := by
      rw [hl, List.nodup_append] at hnodup
      exact fun hmem => hnodup.2.2 v' hmem v' List.mem_cons_self rfl
    rw [evictMin, hmin, hl]
    exact (List.erase_append_right _ hnot).trans (congrArg (xs ++ ·) (List.erase_cons_head v' zs))
  · exact hbefore (x, score x) (List.mem_map_of_mem hx)
  · exact hafter (x, score x) (List.mem_map_of_mem hx)

/-- The elements outside `P` that go before any element of `P`. -/
def spare (score : α → S) (P : α → Prop) [DecidablePred P] (l : List α) : List α :=
  l.filter fun x => ¬P x ∧ ∀ y ∈ l, P y → score x ≤ score y

omit [DecidableEq α] in
theorem length_spare_of_perm {l l' : List α} (h : l.Perm l') :
    (spare score P l).length = (spare score P l').length := by
  have hpred : ∀ x, decide (¬P x ∧ ∀ y ∈ l, P y → score x ≤ score y) =
      decide (¬P x ∧ ∀ y ∈ l', P y → score x ≤ score y) := by
    intro x
    refine decide_eq_decide.mpr (and_congr_right fun _ => forall_congr' fun y => ?_)
    rw [h.mem_iff]
  rw [spare, spare, List.filter_congr fun x _ => hpred x]
  exact (h.filter _).length_eq

omit [DecidableEq α] in
/-- A minimum outside `P` is a spare one; the others stay spare without it. -/
theorem length_spare_evict {before after : List α} {v : α} (hv : ¬P v)
    (hmin : ∀ x ∈ before ++ v :: after, score v ≤ score x) :
    (spare score P (before ++ v :: after)).length = (spare score P (before ++ after)).length + 1 := by
  have hforall : ∀ x, (∀ y ∈ before ++ v :: after, P y → score x ≤ score y) ↔
      ∀ y ∈ before ++ after, P y → score x ≤ score y := by
    intro x
    constructor
    · intro h y hy
      exact h y (by rw [List.mem_append, List.mem_cons]; rw [List.mem_append] at hy; tauto)
    · intro h y hy hPy
      have hne : y ≠ v := fun heq => hv (heq ▸ hPy)
      rw [List.mem_append, List.mem_cons] at hy
      exact h y (by rw [List.mem_append]; tauto) hPy
  have hspare : ¬P v ∧ ∀ y ∈ before ++ after, P y → score v ≤ score y :=
    ⟨hv, (hforall v).mp fun y hy _ => hmin y hy⟩
  simp only [spare, hforall, List.filter_append]
  rw [List.filter_cons_of_pos (by exact decide_eq_true hspare), List.length_append, List.length_append,
    List.length_cons]
  omega

/-- When the elements of `P` stand at the end, removals hit them only after every spare element. -/
theorem evictMany_keeps_iff {l : List α} (hnodup : l.Nodup) (hlast : l.Pairwise fun x y => P x → P y)
    (hsome : ∃ y ∈ l, P y) (n : Nat) :
    (∀ y ∈ l, P y → y ∈ evictMany score n l) ↔ n ≤ (spare score P l).length := by
  induction n generalizing l with
  | zero => exact ⟨fun _ => Nat.zero_le _, fun _ y hy _ => hy⟩
  | succ n ih =>
      obtain ⟨y, hy, hPy⟩ := hsome
      obtain ⟨before, v, after, rfl, hevict, hbefore, hafter⟩ := evictMin_eq score hnodup (List.ne_nil_of_mem hy)
      have hsub : (before ++ after).Sublist (before ++ v :: after) :=
        (List.Sublist.refl before).append (List.sublist_cons_self v after)
      rw [evictMany, hevict]
      by_cases hPv : P v
      · -- The minimum is in `P`: it is lost, and nothing was spare.
        have hlost : v ∉ evictMany score n (before ++ after) := by
          intro hmem
          have hrest := (evictMany_sublist n (before ++ after)).subset hmem
          rw [List.nodup_append, List.nodup_cons] at hnodup
          rcases List.mem_append.mp hrest with hb | ha
          · exact hnodup.2.2 v hb v List.mem_cons_self rfl
          · exact hnodup.2.1.1 ha
        have hspare : spare score P (before ++ v :: after) = [] := by
          refine List.filter_eq_nil_iff.mpr fun x hx => ?_
          rw [decide_eq_true_iff]
          rintro ⟨hPx, hle⟩
          rcases List.mem_append.mp hx with hb | hx
          · exact absurd (hle v (by simp) hPv) (not_le.mpr (hbefore x hb))
          · rcases List.mem_cons.mp hx with rfl | ha
            · exact hPx hPv
            · rw [List.pairwise_append, List.pairwise_cons] at hlast
              exact hPx (hlast.2.1.1 x ha hPv)
        rw [hspare, List.length_nil]
        exact ⟨fun h => absurd (h v (by simp) hPv) hlost, fun h => by omega⟩
      · -- A spare element goes and the elements of `P` are the same as before.
        have hmin : ∀ x ∈ before ++ v :: after, score v ≤ score x := by
          intro x hx
          rcases List.mem_append.mp hx with hb | hx
          · exact (hbefore x hb).le
          · rcases List.mem_cons.mp hx with rfl | ha
            · exact le_rfl
            · exact hafter x ha
        have hsame : ∀ x, P x → (x ∈ before ++ v :: after ↔ x ∈ before ++ after) := by
          intro x hPx
          have hne : x ≠ v := fun heq => hPv (heq ▸ hPx)
          simp [hne]
        have hrest := ih (hnodup.sublist hsub) (hlast.sublist hsub) ⟨y, (hsame y hPy).mp hy, hPy⟩
        rw [length_spare_evict hPv hmin, Nat.add_le_add_iff_right, ← hrest]
        refine forall_congr' fun x => ?_
        constructor
        · intro h hx hPx
          exact h ((hsame x hPx).mpr hx) hPx
        · intro h hx hPx
          exact h ((hsame x hPx).mp hx) hPx

end Evict

end KVOffload.Base

import Mathlib.Data.List.Nodup
import Mathlib.Data.List.Perm.Basic
import Mathlib.Data.List.Zip
import Mathlib.Logic.Equiv.Basic
import Mathlib.Order.Basic
import Mathlib.Tactic.WLOG

/-! Positions in lists: where an element of a concatenation stands, what two exchanged cells hold, which
position an element that occurs once has, and how the entries of two lists are paired. -/

namespace KVOffload.Base

variable {α β : Type}

/-- An element of `t ++ ext` is in `t`, or behind it. -/
theorem split_of_append {t ext pre post : List α} {x : α} (h : t ++ ext = pre ++ x :: post) :
    (∃ post', t = pre ++ x :: post') ∨ ∃ pre', pre = t ++ pre' ∧ ext = pre' ++ x :: post := by
  rcases List.append_eq_append_iff.mp h with ⟨pre', hpre, hext⟩ | ⟨rest, ht, hrest⟩
  · exact Or.inr ⟨pre', hpre, hext⟩
  · cases rest with
    | nil =>
        rw [List.append_nil] at ht
        exact Or.inr ⟨[], by rw [ht, List.append_nil], hrest.symm⟩
    | cons y rest =>
        obtain ⟨rfl, -⟩ := List.cons.inj hrest
        exact Or.inl ⟨rest, ht⟩

section Cells

variable {l : List α} {i j : Nat} {x y : α}

/-- A cell is written, or a new one is added at the end. -/
theorem getElem?_place (hi : i ≤ l.length) (j : Nat) :
    (if i = l.length then l ++ [x] else l.set i x)[j]? = if j = i then some x else l[j]? := by
  by_cases hlast : i = l.length
  · rw [if_pos hlast, hlast]
    split_ifs with hj
    · rw [hj, List.getElem?_concat_length]
    · rcases Nat.lt_or_gt_of_ne hj with hlt | hgt
      · rw [List.getElem?_append_left hlt]
      · rw [List.getElem?_eq_none (by rw [List.length_append, List.length_singleton]; omega),
          List.getElem?_eq_none (by omega)]
  · have hlt : i < l.length := by omega
    rw [if_neg hlast]
    by_cases hj : j = i
    · rw [hj, if_pos rfl, List.getElem?_set_self hlt]
    · rw [if_neg hj, List.getElem?_set_ne (Ne.symm hj)]

/-- Two cells are exchanged. -/
theorem getElem?_swap (hx : l[i]? = some x) (hy : l[j]? = some y) (k : Nat) :
    ((l.set i y).set j x)[k]? = l[Equiv.swap i j k]? := by
  obtain ⟨hi, -⟩ := List.getElem?_eq_some_iff.mp hx
  obtain ⟨hj, -⟩ := List.getElem?_eq_some_iff.mp hy
  by_cases hkj : k = j
  · rw [hkj, List.getElem?_set_self (by rw [List.length_set]; exact hj), Equiv.swap_apply_right, hx]
  · rw [List.getElem?_set_ne (Ne.symm hkj)]
    by_cases hki : k = i
    · rw [hki, List.getElem?_set_self hi, Equiv.swap_apply_left, hy]
    · rw [List.getElem?_set_ne (Ne.symm hki), Equiv.swap_apply_of_ne_of_ne hki hkj]

/-- An element that occurs once stands at one index. -/
theorem index_unique [DecidableEq α] (hcount : l.count x ≤ 1) (hi : l[i]? = some x) (hj : l[j]? = some x) : i = j := by
  by_contra hne
  wlog hlt : i < j generalizing i j with hwlog
  · exact hwlog hj hi (Ne.symm hne) (by omega)
  have hfirst : x ∈ l.take j := by
    rw [List.mem_iff_getElem?]
    exact ⟨i, by rw [List.getElem?_take_of_lt hlt, hi]⟩
  have hsecond : x ∈ l.drop j := by
    rw [List.mem_iff_getElem?]
    exact ⟨0, by rw [List.getElem?_drop, Nat.add_zero, hj]⟩
  have hsplit := congrArg (List.count x) (List.take_append_drop j l)
  rw [List.count_append] at hsplit
  have hpos := List.count_pos_iff.mpr hfirst
  have hpos' := List.count_pos_iff.mpr hsecond
  omega

end Cells

section Pairs

variable {xs : List α} {ys : List β}

theorem exists_mem_zip_left (hlen : xs.length = ys.length) {x : α} (hx : x ∈ xs) : ∃ y, (x, y) ∈ xs.zip ys := by
  have hmem : x ∈ (xs.zip ys).map Prod.fst := by rwa [List.map_fst_zip hlen.le]
  obtain ⟨e, he, rfl⟩ := List.mem_map.mp hmem
  exact ⟨e.2, he⟩

theorem exists_mem_zip_right (hlen : xs.length = ys.length) {y : β} (hy : y ∈ ys) : ∃ x, (x, y) ∈ xs.zip ys := by
  have hmem : y ∈ (xs.zip ys).map Prod.snd := by rwa [List.map_snd_zip hlen.ge]
  obtain ⟨e, he, rfl⟩ := List.mem_map.mp hmem
  exact ⟨e.1, he⟩

/-- In a list without repetitions no element has two partners. -/
theorem eq_of_mem_zip (hnodup : ys.Nodup) {x x' : α} {y : β} (h : (x, y) ∈ xs.zip ys) (h' : (x', y) ∈ xs.zip ys) :
    x = x' := by
  obtain ⟨i, hi, heq⟩ := List.mem_iff_getElem.mp h
  obtain ⟨j, hj, heq'⟩ := List.mem_iff_getElem.mp h'
  rw [List.length_zip] at hi hj
  rw [List.getElem_zip, Prod.mk.injEq] at heq heq'
  have hij : i = j := hnodup.getElem_inj_iff.mp (heq.2.trans heq'.2.symm)
  subst hij
  exact heq.1.symm.trans heq'.1

/-- Two arrangements of the same values that agree outside of some positions have the same values at these. -/
theorem perm_map_filter_ne [DecidableEq β] {f g : α → β} {l : List α} (h : (l.map f).Perm (l.map g)) :
    ((l.filter fun i => f i ≠ g i).map f).Perm ((l.filter fun i => f i ≠ g i).map g) := by
  have hsplit : ∀ k : α → β,
      ((l.filter fun i => f i ≠ g i).map k ++ (l.filter fun i => !decide (f i ≠ g i)).map k).Perm (l.map k) := by
    intro k
    rw [← List.map_append]
    exact (List.filter_append_perm _ l).map k
  have hrest : (l.filter fun i => !decide (f i ≠ g i)).map f = (l.filter fun i => !decide (f i ≠ g i)).map g := by
    apply List.map_congr_left
    intro i hi
    simpa using (List.mem_filter.mp hi).2
  have hall := (hsplit f).trans (h.trans (hsplit g).symm)
  rw [hrest] at hall
  exact (List.perm_append_right_iff _).mp hall

end Pairs

end KVOffload.Base

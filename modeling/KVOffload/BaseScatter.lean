import Mathlib.Algebra.GroupWithZero.Nat
import Mathlib.Data.List.Induction
import Mathlib.Logic.Function.Basic

/-! Scattered writes. `scatter` writes into a flat array at positions counted from either end and
refuses a position outside it, as indexed tensor assignment does; `lastWrite` is what decides an entry
afterwards. `indexCopy` writes one value per row of an array addressed by row number; `rowStart` locates
rows of different lengths in their concatenation. -/

namespace KVOffload.Base

variable {α : Type}

section Arrays

/-- The array position that index `pos` addresses; negative indices count from the end. -/
def wrapIndex (n : Nat) (pos : Int) : Option Nat :=
  if 0 ≤ pos ∧ pos < n then some pos.toNat
  else if -n ≤ pos ∧ pos < 0 then some (n + pos).toNat
  else none

def writeAt (buf : List α) (pos : Int) (v : α) : Option (List α) :=
  (wrapIndex buf.length pos).map fun i => buf.set i v

/-- The writes one after another; one outside the array is skipped. -/
def applyWrites (buf : List α) (writes : List (Int × α)) : List α :=
  writes.foldl (fun buf w => (writeAt buf w.1 w.2).getD buf) buf

/-- All writes, in order, or none if some position is out of range. -/
def scatter (buf : List α) (writes : List (Int × α)) : Option (List α) :=
  if ∀ w ∈ writes, (wrapIndex buf.length w.1).isSome then some (applyWrites buf writes) else none

theorem wrapIndex_of_lt {n p : Nat} (h : p < n) : wrapIndex n (p : Int) = some p := by
  rw [wrapIndex, if_pos (by omega)]
  rfl

theorem writeAt_of_lt {buf : List α} {p : Nat} (h : p < buf.length) (v : α) :
    writeAt buf (p : Int) v = some (buf.set p v) := by
  rw [writeAt, wrapIndex_of_lt h]
  rfl

/-- The value of the last write that addresses position `p` of an array of `n` entries. -/
def lastWrite (n : Nat) (writes : List (Int × α)) (p : Nat) : Option α :=
  (writes.reverse.find? fun w => wrapIndex n w.1 = some p).map Prod.snd

theorem lastWrite_concat (n : Nat) (writes : List (Int × α)) (w : Int × α) (p : Nat) :
    lastWrite n (writes ++ [w]) p = if wrapIndex n w.1 = some p then some w.2 else lastWrite n writes p := by
  rw [lastWrite, List.reverse_append, List.reverse_singleton, List.singleton_append, List.find?_cons]
  by_cases h : wrapIndex n w.1 = some p
  · simp [h]
  · simp [h, lastWrite]

theorem lastWrite_eq_none_iff {n : Nat} {writes : List (Int × α)} {p : Nat} :
    lastWrite n writes p = none ↔ ∀ w ∈ writes, wrapIndex n w.1 ≠ some p := by
  simp only [lastWrite, Option.map_eq_none_iff, List.find?_eq_none, List.mem_reverse, decide_eq_true_iff]

theorem exists_of_lastWrite {n : Nat} {writes : List (Int × α)} {p : Nat} {v : α} (h : lastWrite n writes p = some v) :
    ∃ w ∈ writes, wrapIndex n w.1 = some p ∧ w.2 = v := by
  obtain ⟨w, hfind, rfl⟩ := Option.map_eq_some_iff.mp h
  have hp := List.find?_some hfind
  exact ⟨w, List.mem_reverse.mp (List.mem_of_find?_eq_some hfind), of_decide_eq_true hp, rfl⟩

theorem applyWrites_append (buf : List α) (writes rest : List (Int × α)) :
    applyWrites buf (writes ++ rest) = applyWrites (applyWrites buf writes) rest :=
  List.foldl_append

theorem scatter_of_inRange {buf : List α} {writes : List (Int × α)}
    (h : ∀ w ∈ writes, (wrapIndex buf.length w.1).isSome) : scatter buf writes = some (applyWrites buf writes) :=
  if_pos h

theorem applyWrites_concat (buf : List α) (writes : List (Int × α)) (w : Int × α) :
    applyWrites buf (writes ++ [w]) = (writeAt (applyWrites buf writes) w.1 w.2).getD (applyWrites buf writes) := by
  rw [applyWrites, List.foldl_append]
  rfl

theorem wrapIndex_lt {n p : Nat} {pos : Int} (h : wrapIndex n pos = some p) : p < n := by
  unfold wrapIndex at h
  split_ifs at h with hpos hneg
  · obtain rfl := Option.some.inj h
    omega
  · obtain rfl := Option.some.inj h
    omega

theorem length_applyWrites (buf : List α) (writes : List (Int × α)) : (applyWrites buf writes).length = buf.length := by
  induction writes using List.reverseRecOn with
  | nil => rfl
  | append_singleton rest w ih =>
      rw [applyWrites_concat, writeAt]
      cases wrapIndex (applyWrites buf rest).length w.1 with
      | none => exact ih
      | some i => exact List.length_set.trans ih

/-- An entry holds what the last write to it put there, or what it held before. -/
theorem getElem?_applyWrites (buf : List α) (writes : List (Int × α)) (p : Nat) :
    (applyWrites buf writes)[p]? = (lastWrite buf.length writes p).or buf[p]? := by
  induction writes using List.reverseRecOn with
  | nil => rfl
  | append_singleton rest w ih =>
      rw [applyWrites_concat, lastWrite_concat, writeAt, length_applyWrites]
      cases hwrap : wrapIndex buf.length w.1 with
      | none =>
          rw [if_neg (by simp)]
          exact ih
      | some i =>
          rw [Option.map_some, Option.getD_some]
          by_cases hp : i = p
          · subst hp
            rw [if_pos rfl, List.getElem?_set_self (by rw [length_applyWrites]; exact wrapIndex_lt hwrap),
              Option.some_or]
          · rw [if_neg (by simpa using hp), List.getElem?_set_ne hp, ih]

/-- Writes at positions inside the array succeed, keep its length, and reach each position with the
value meant for it as long as no position is given two values. -/
theorem scatter_of_lt {buf : List α} {writes : List (Int × α)}
    (hpos : ∀ w ∈ writes, ∃ p : Nat, w.1 = p ∧ p < buf.length)
    (hfun : ∀ w ∈ writes, ∀ w' ∈ writes, w.1 = w'.1 → w = w') :
    ∃ out, scatter buf writes = some out ∧ out.length = buf.length ∧
      (∀ (p : Nat) v, ((p : Int), v) ∈ writes → out[p]? = some v) ∧
      ∀ p : Nat, (∀ v, ((p : Int), v) ∉ writes) → out[p]? = buf[p]? := by
  have hwrap : ∀ w ∈ writes, ∃ p : Nat, w.1 = p ∧ wrapIndex buf.length w.1 = some p := by
    intro w hw
    obtain ⟨p, hp, hlt⟩ := hpos w hw
    exact ⟨p, hp, by rw [hp, wrapIndex_of_lt hlt]⟩
  -- a write that addresses a position names it
  have hnames : ∀ w ∈ writes, ∀ p : Nat, wrapIndex buf.length w.1 = some p → w = ((p : Int), w.2) := by
    intro w hw p hp
    obtain ⟨q, hq, hwrapped⟩ := hwrap w hw
    obtain rfl : q = p := Option.some.inj (hwrapped.symm.trans hp)
    exact Prod.ext hq rfl
  refine ⟨_, scatter_of_inRange fun w hw => ?_, length_applyWrites buf writes, fun p v hmem => ?_, fun p hnone => ?_⟩
  · obtain ⟨p, -, hp⟩ := hwrap w hw
    rw [hp]
    rfl
  · have hlast : lastWrite buf.length writes p = some v := by
      cases hlast : lastWrite buf.length writes p with
      | none =>
          obtain ⟨q, hq, hwrapped⟩ := hwrap _ hmem
          obtain rfl : p = q := Int.natCast_inj.mp hq
          exact absurd hwrapped (lastWrite_eq_none_iff.mp hlast _ hmem)
      | some u =>
          obtain ⟨w, hw, hp, rfl⟩ := exists_of_lastWrite hlast
          have heq := hfun w hw _ hmem (by rw [hnames w hw p hp])
          rw [heq]
    rw [getElem?_applyWrites, hlast, Option.some_or]
  · have hlast : lastWrite buf.length writes p = none :=
      lastWrite_eq_none_iff.mpr fun w hw hp => hnone w.2 (hnames w hw p hp ▸ hw)
    rw [getElem?_applyWrites, hlast, Option.none_or]

end Arrays

section RowCopies

/-- `cache.index_copy_(0, ids, rows)`. -/
def indexCopy (cache : Nat → α) : List (Nat × α) → Nat → α
  | [] => cache
  | w :: rest => indexCopy (Function.update cache w.1 w.2) rest

theorem indexCopy_of_not_mem {writes : List (Nat × α)} {id : Nat} (h : id ∉ writes.map Prod.fst)
    (cache : Nat → α) : indexCopy cache writes id = cache id := by
  induction writes generalizing cache with
  | nil => rfl
  | cons w rest ih =>
      rw [List.map_cons, List.mem_cons, not_or] at h
      rw [indexCopy, ih h.2, Function.update_of_ne h.1]

theorem indexCopy_of_mem {writes : List (Nat × α)} (hnodup : (writes.map Prod.fst).Nodup) {id : Nat} {v : α}
    (h : (id, v) ∈ writes) (cache : Nat → α) : indexCopy cache writes id = v := by
  induction writes generalizing cache with
  | nil => simp at h
  | cons w rest ih =>
      rw [List.map_cons, List.nodup_cons] at hnodup
      rw [indexCopy]
      rcases List.mem_cons.mp h with rfl | h
      · rw [indexCopy_of_not_mem hnodup.1, Function.update_self]
      · exact ih hnodup.2 h _

/-- A row that is written, with one value only, holds it. -/
theorem indexCopy_of_forall {writes : List (Nat × α)} {id : Nat} {v : α} (hmem : id ∈ writes.map Prod.fst)
    (hall : ∀ w ∈ writes, w.1 = id → w.2 = v) (cache : Nat → α) : indexCopy cache writes id = v := by
  induction writes generalizing cache with
  | nil => cases hmem
  | cons w rest ih =>
      rw [indexCopy]
      by_cases hrest : id ∈ rest.map Prod.fst
      · exact ih hrest (fun w' hw' => hall w' (List.mem_cons_of_mem w hw')) _
      · have hid : id = w.1 := (List.mem_cons.mp hmem).resolve_right hrest
        rw [indexCopy_of_not_mem hrest, hid, Function.update_self]
        exact hall w List.mem_cons_self hid.symm

/-- Writes to distinct rows may be made in any order. -/
theorem indexCopy_perm {writes writes' : List (Nat × α)} (hperm : writes.Perm writes')
    (hnodup : (writes.map Prod.fst).Nodup) (cache : Nat → α) : indexCopy cache writes = indexCopy cache writes' := by
  induction hperm generalizing cache with
  | nil => rfl
  | cons w _ ih =>
      rw [List.map_cons, List.nodup_cons] at hnodup
      exact ih hnodup.2 _
  | swap w w' rest =>
      have hne : w'.1 ≠ w.1 := by
        intro heq
        rw [List.map_cons, List.map_cons, List.nodup_cons] at hnodup
        exact hnodup.1 (heq ▸ List.mem_cons_self)
      rw [indexCopy, indexCopy, indexCopy, indexCopy, Function.update_comm hne]
  | trans hfirst _ ih ih' => exact (ih hnodup cache).trans (ih' ((hfirst.map Prod.fst).nodup_iff.mp hnodup) cache)

/-- A loop that rewrites one entry after the other, each from its own old value. -/
theorem foldl_update {ι : Type} [DecidableEq ι] (g : ι → α → α) {xs : List ι} (hnodup : xs.Nodup) (f : ι → α) (i : ι) :
    xs.foldl (fun f i => Function.update f i (g i (f i))) f i = if i ∈ xs then g i (f i) else f i := by
  induction xs generalizing f with
  | nil => simp
  | cons x rest ih =>
      rw [List.nodup_cons] at hnodup
      rw [List.foldl_cons, ih hnodup.2]
      by_cases hx : i = x
      · subst hx
        rw [if_neg hnodup.1, if_pos List.mem_cons_self, Function.update_self]
      · simp only [List.mem_cons, hx, false_or, Function.update_of_ne hx]

variable {β : Type} {ids srcs : List Nat} {id src : Nat}

theorem map_fst_zip_sublist (ids : List Nat) (rows : List β) : ((ids.zip rows).map Prod.fst).Sublist ids := by
  induction ids generalizing rows with
  | nil => simp
  | cons id rest ih =>
      cases rows with
      | nil => simp
      | cons row rows => exact (ih rows).cons_cons id

/-- Gathering rows `f src` and copying them to `ids` leaves the other rows alone. -/
theorem indexCopy_zip_of_not_mem (h : id ∉ ids) (rows : List α) (cache : Nat → α) :
    indexCopy cache (ids.zip rows) id = cache id :=
  indexCopy_of_not_mem (fun hmem => h ((map_fst_zip_sublist ids rows).subset hmem)) cache

/-- Gathering rows `f src` and copying them to `ids` puts each one where it belongs. -/
theorem indexCopy_zip_of_mem (hnodup : ids.Nodup) (h : (src, id) ∈ srcs.zip ids) (f : Nat → α) (cache : Nat → α) :
    indexCopy cache (ids.zip (srcs.map f)) id = f src := by
  refine indexCopy_of_mem (hnodup.sublist (map_fst_zip_sublist ids _)) ?_ cache
  obtain ⟨i, hi, heq⟩ := List.mem_iff_getElem.mp h
  rw [List.length_zip] at hi
  rw [List.getElem_zip, Prod.mk.injEq] at heq
  refine List.mem_iff_getElem.mpr ⟨i, by rw [List.length_zip, List.length_map]; omega, ?_⟩
  rw [List.getElem_zip, List.getElem_map, heq.1, heq.2]

end RowCopies

section RowStarts

/-- Where row `b` starts in the concatenation of `rows`. -/
def rowStart (rows : List (List α)) (b : Nat) : Nat := ((rows.take b).map List.length).sum

theorem rowStart_succ {rows : List (List α)} {b : Nat} {row : List α} (h : rows[b]? = some row) :
    rowStart rows (b + 1) = rowStart rows b + row.length := by
  rw [rowStart, rowStart, List.take_add_one, h, List.map_append, List.sum_append]
  simp

theorem rowStart_of_length_le {rows : List (List α)} {b : Nat} (h : rows.length ≤ b) :
    rowStart rows b = rows.flatten.length := by
  rw [rowStart, List.take_of_length_le h, List.length_flatten]

theorem rowStart_mono (rows : List (List α)) {b b' : Nat} (h : b ≤ b') : rowStart rows b ≤ rowStart rows b' := by
  induction h with
  | refl => exact Nat.le_refl _
  | @step m _ ih =>
      cases hrow : rows[m]? with
      | some row =>
          rw [Nat.succ_eq_add_one, rowStart_succ hrow]
          omega
      | none =>
          have hlen := List.getElem?_eq_none_iff.mp hrow
          rw [rowStart_of_length_le hlen] at ih
          rwa [rowStart_of_length_le (by omega : rows.length ≤ m.succ)]

theorem rowStart_le_length (rows : List (List α)) (b : Nat) : rowStart rows b ≤ rows.flatten.length := by
  rcases Nat.le_total b rows.length with hb | hb
  · rw [← rowStart_of_length_le (Nat.le_refl rows.length)]
    exact rowStart_mono rows hb
  · exact Nat.le_of_eq (rowStart_of_length_le hb)

theorem getElem?_flatten_rowStart {rows : List (List α)} {b i : Nat} {row : List α} (h : rows[b]? = some row)
    (hi : i < row.length) : rows.flatten[rowStart rows b + i]? = row[i]? := by
  induction rows generalizing b with
  | nil => simp at h
  | cons r rest ih =>
      cases b with
      | zero =>
          obtain rfl : r = row := by simpa using h
          simp [rowStart, List.getElem?_append_left hi]
      | succ b =>
          have hrest := ih (by simpa using h)
          have hstart : rowStart (r :: rest) (b + 1) = r.length + rowStart rest b := by simp [rowStart]
          rw [hstart, List.flatten_cons, List.getElem?_append_right (by omega), ← hrest]
          congr 1
          omega

end RowStarts

end KVOffload.Base

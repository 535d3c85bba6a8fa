import Mathlib.Algebra.Order.Group.Multiset
import Mathlib.Data.List.Nodup

/-! Insertion-ordered dictionaries. Assigning to a present key keeps its position and assigning
to a new key appends it, so iteration order is first-insertion order until an entry is erased or
moved to the end. `collect` gathers an optional resource from every entry; the multiset lemmas
about it say what one assignment or one removal does to the resources a dictionary holds. -/

namespace KVOffload.Base

structure OrderedDict (κ ν : Type) where
  items : List (κ × ν)
  nodup : (items.map Prod.fst).Nodup

namespace OrderedDict

variable {κ ν β : Type}

instance [DecidableEq κ] [DecidableEq ν] : DecidableEq (OrderedDict κ ν) := fun d e =>
  decidable_of_iff (d.items = e.items) ⟨fun h => by cases d; cases e; cases h; rfl, fun h => h ▸ rfl⟩

@[ext] theorem ext {d e : OrderedDict κ ν} (h : d.items = e.items) : d = e := by
  cases d; cases e; cases h; rfl

def empty : OrderedDict κ ν := ⟨[], List.nodup_nil⟩

def keys (d : OrderedDict κ ν) : List κ := d.items.map Prod.fst

def values (d : OrderedDict κ ν) : List ν := d.items.map Prod.snd

/-- The resources `f` finds in the entries, in iteration order. -/
def collect (f : κ → ν → Option β) (d : OrderedDict κ ν) : List β :=
  d.items.filterMap fun e => f e.1 e.2

theorem values_eq_collect (d : OrderedDict κ ν) : d.values = d.collect fun _ v => some v := by
  simp [values, collect, List.filterMap_eq_map']

variable [DecidableEq κ]

def lookupItems (k : κ) : List (κ × ν) → Option ν
  | [] => none
  | e :: rest => if e.1 = k then some e.2 else lookupItems k rest

def setItems (k : κ) (v : ν) : List (κ × ν) → List (κ × ν)
  | [] => [(k, v)]
  | e :: rest => if e.1 = k then (k, v) :: rest else e :: setItems k v rest

theorem map_fst_setItems_of_mem (k : κ) (v : ν) (items : List (κ × ν)) (h : k ∈ items.map Prod.fst) :
    (setItems k v items).map Prod.fst = items.map Prod.fst := by
  induction items with
  | nil => simp at h
  | cons e rest ih =>
      by_cases he : e.1 = k
      · simp [setItems, he]
      · have hrest : k ∈ rest.map Prod.fst := by
          rcases List.mem_cons.mp h with h | h
          · exact absurd h.symm he
          · exact h
        simp [setItems, he, ih hrest]

theorem setItems_of_not_mem (k : κ) (v : ν) (items : List (κ × ν)) (h : k ∉ items.map Prod.fst) :
    setItems k v items = items ++ [(k, v)] := by
  induction items with
  | nil => rfl
  | cons e rest ih =>
      rw [List.map_cons, List.mem_cons, not_or] at h
      simp [setItems, Ne.symm h.1, ih h.2]

theorem nodup_setItems (k : κ) (v : ν) (items : List (κ × ν)) (h : (items.map Prod.fst).Nodup) :
    ((setItems k v items).map Prod.fst).Nodup := by
  by_cases hk : k ∈ items.map Prod.fst
  · rwa [map_fst_setItems_of_mem k v items hk]
  · rw [setItems_of_not_mem k v items hk, List.map_append]
    exact List.Nodup.append h (by simp) (by simpa using hk)

theorem lookupItems_setItems (k k' : κ) (v : ν) (items : List (κ × ν)) :
    lookupItems k' (setItems k v items) = if k' = k then some v else lookupItems k' items := by
  induction items with
  | nil => simp only [setItems, lookupItems, eq_comm]
  | cons e rest ih =>
      by_cases he : e.1 = k
      · by_cases h : k' = k
        · simp [setItems, lookupItems, he, h]
        · simp [setItems, lookupItems, he, h, Ne.symm h]
      · by_cases h : k' = k
        · subst h; simp [setItems, lookupItems, he, ih]
        · simp [setItems, lookupItems, he, h, ih]

theorem lookupItems_filter (k k' : κ) (items : List (κ × ν)) :
    lookupItems k' (items.filter fun e => e.1 ≠ k) = if k' = k then none else lookupItems k' items := by
  induction items with
  | nil => simp [lookupItems]
  | cons e rest ih =>
      by_cases he : e.1 = k
      · rw [List.filter_cons_of_neg (by simp [he]), ih]
        by_cases h : k' = k
        · simp [h]
        · simp [lookupItems, h, he, Ne.symm h]
      · rw [List.filter_cons_of_pos (by simp [he]), lookupItems, ih]
        by_cases h : k' = k
        · subst h; simp [he]
        · simp [lookupItems, h]

theorem lookupItems_eq_none_iff (k : κ) (items : List (κ × ν)) :
    lookupItems k items = none ↔ k ∉ items.map Prod.fst := by
  induction items with
  | nil => simp [lookupItems]
  | cons e rest ih =>
      by_cases he : e.1 = k
      · simp [lookupItems, he]
      · simp only [lookupItems, he, if_false, ih, List.map_cons, List.mem_cons, Ne.symm he, false_or]

theorem lookupItems_eq_some_iff (k : κ) (v : ν) (items : List (κ × ν)) (h : (items.map Prod.fst).Nodup) :
    lookupItems k items = some v ↔ (k, v) ∈ items := by
  induction items with
  | nil => simp [lookupItems]
  | cons e rest ih =>
      rw [List.map_cons, List.nodup_cons] at h
      by_cases he : e.1 = k
      · have hrest : (k, v) ∉ rest := fun hmem => h.1 (he ▸ List.mem_map_of_mem hmem)
        simp only [lookupItems, he, if_true, Option.some.injEq, List.mem_cons, hrest, or_false,
          Prod.ext_iff, true_and]
        exact eq_comm
      · have hne : (k, v) ≠ e := fun heq => he (by rw [← heq])
        simp only [lookupItems, he, if_false, ih h.2, List.mem_cons, hne, false_or]

def get? (d : OrderedDict κ ν) (k : κ) : Option ν := lookupItems k d.items

/-- `d[k] = v`. -/
def set (d : OrderedDict κ ν) (k : κ) (v : ν) : OrderedDict κ ν :=
  ⟨setItems k v d.items, nodup_setItems k v d.items d.nodup⟩

/-- `d.pop(k, None)`, keeping only the dictionary. -/
def erase (d : OrderedDict κ ν) (k : κ) : OrderedDict κ ν :=
  ⟨d.items.filter fun e => e.1 ≠ k, d.nodup.sublist (List.filter_sublist.map Prod.fst)⟩

/-- `d.move_to_end(k)` for a present key. -/
def moveToEnd (d : OrderedDict κ ν) (k : κ) : OrderedDict κ ν :=
  match d.get? k with
  | some v => (d.erase k).set k v
  | none => d

/-- `dict.fromkeys(ks)`: the distinct keys in first-occurrence order. -/
def fromKeys (ks : List κ) : OrderedDict κ Unit := ks.foldl (fun d k => d.set k ()) empty

theorem get?_eq_none_iff {d : OrderedDict κ ν} {k : κ} : d.get? k = none ↔ k ∉ d.keys :=
  lookupItems_eq_none_iff k d.items

theorem get?_eq_some_iff {d : OrderedDict κ ν} {k : κ} {v : ν} : d.get? k = some v ↔ (k, v) ∈ d.items :=
  lookupItems_eq_some_iff k v d.items d.nodup

theorem mem_keys_iff {d : OrderedDict κ ν} {k : κ} : k ∈ d.keys ↔ ∃ v, d.get? k = some v := by
  rw [← not_iff_not, ← get?_eq_none_iff, Option.eq_none_iff_forall_not_mem, not_exists]
  simp only [Option.mem_def]

theorem mem_keys_of_get? {d : OrderedDict κ ν} {k : κ} {v : ν} (h : d.get? k = some v) : k ∈ d.keys :=
  mem_keys_iff.mpr ⟨v, h⟩

@[simp] theorem get?_empty (k : κ) : (empty : OrderedDict κ ν).get? k = none := rfl

theorem get?_set (d : OrderedDict κ ν) (k k' : κ) (v : ν) :
    (d.set k v).get? k' = if k' = k then some v else d.get? k' :=
  lookupItems_setItems k k' v d.items

@[simp] theorem get?_set_self (d : OrderedDict κ ν) (k : κ) (v : ν) : (d.set k v).get? k = some v := by
  rw [get?_set, if_pos rfl]

theorem get?_set_of_ne (d : OrderedDict κ ν) {k k' : κ} (v : ν) (h : k' ≠ k) :
    (d.set k v).get? k' = d.get? k' := by
  rw [get?_set, if_neg h]

theorem get?_erase (d : OrderedDict κ ν) (k k' : κ) :
    (d.erase k).get? k' = if k' = k then none else d.get? k' :=
  lookupItems_filter k k' d.items

@[simp] theorem get?_erase_self (d : OrderedDict κ ν) (k : κ) : (d.erase k).get? k = none := by
  rw [get?_erase, if_pos rfl]

theorem get?_erase_of_ne (d : OrderedDict κ ν) {k k' : κ} (h : k' ≠ k) : (d.erase k).get? k' = d.get? k' := by
  rw [get?_erase, if_neg h]

@[simp] theorem get?_moveToEnd (d : OrderedDict κ ν) (k k' : κ) : (d.moveToEnd k).get? k' = d.get? k' := by
  unfold moveToEnd
  split
  · rename_i v hv
    rw [get?_set, get?_erase]
    split_ifs with h
    · rw [h, hv]
    · rfl
  · rfl

theorem keys_moveToEnd_of_mem {d : OrderedDict κ ν} {k : κ} (h : k ∈ d.keys) :
    (d.moveToEnd k).keys = (d.erase k).keys ++ [k] := by
  obtain ⟨v, hv⟩ := mem_keys_iff.mp h
  have hnot : k ∉ (d.erase k).items.map Prod.fst := get?_eq_none_iff.mp (get?_erase_self d k)
  simp only [moveToEnd, hv, keys, set, setItems_of_not_mem k v _ hnot, List.map_append, List.map_cons, List.map_nil]

theorem keys_erase_sublist (d : OrderedDict κ ν) (k : κ) : (d.erase k).keys.Sublist d.keys :=
  List.filter_sublist.map Prod.fst

theorem keys_erase (d : OrderedDict κ ν) (k : κ) : (d.erase k).keys = d.keys.erase k := by
  rw [keys, keys, List.Nodup.erase_eq_filter d.nodup, erase, List.filter_map]
  congr 1
  refine List.filter_congr fun e _ => ?_
  by_cases h : e.1 = k <;> simp [h]

theorem mem_keys_set {d : OrderedDict κ ν} {k k' : κ} {v : ν} :
    k' ∈ (d.set k v).keys ↔ k' = k ∨ k' ∈ d.keys := by
  simp only [mem_keys_iff, get?_set]
  by_cases h : k' = k <;> simp [h]

theorem mem_keys_erase {d : OrderedDict κ ν} {k k' : κ} : k' ∈ (d.erase k).keys ↔ k' ≠ k ∧ k' ∈ d.keys := by
  simp only [mem_keys_iff, get?_erase]
  by_cases h : k' = k <;> simp [h]

theorem erase_of_get?_eq_none {d : OrderedDict κ ν} {k : κ} (h : d.get? k = none) : d.erase k = d := by
  rw [get?_eq_none_iff] at h
  refine OrderedDict.ext (List.filter_eq_self.mpr fun e he => ?_)
  have hne : e.1 ≠ k := fun heq => h (heq ▸ List.mem_map_of_mem he)
  simpa using hne

theorem setItems_of_lookupItems (k : κ) (v : ν) (items : List (κ × ν)) (h : lookupItems k items = some v) :
    setItems k v items = items := by
  induction items with
  | nil => simp [lookupItems] at h
  | cons e rest ih =>
      by_cases he : e.1 = k
      · have hv : e.2 = v := by simpa [lookupItems, he] using h
        rw [setItems, if_pos he, ← he, ← hv]
      · rw [setItems, if_neg he, ih (by simpa [lookupItems, he] using h)]

theorem set_of_get? {d : OrderedDict κ ν} {k : κ} {v : ν} (h : d.get? k = some v) : d.set k v = d :=
  OrderedDict.ext (setItems_of_lookupItems k v d.items h)

theorem setItems_setItems (k : κ) (v w : ν) (items : List (κ × ν)) :
    setItems k w (setItems k v items) = setItems k w items := by
  induction items with
  | nil => simp [setItems]
  | cons e rest ih =>
      by_cases he : e.1 = k
      · rw [setItems, if_pos he, setItems, if_pos rfl, setItems, if_pos he]
      · rw [setItems, if_neg he, setItems, if_neg he, setItems, if_neg he, ih]

/-- Of two assignments to one key the second stays. -/
theorem set_set (d : OrderedDict κ ν) (k : κ) (v w : ν) : (d.set k v).set k w = d.set k w :=
  OrderedDict.ext (setItems_setItems k v w d.items)

theorem coe_filterMap_setItems (g : κ × ν → Option β) (k : κ) (v : ν) (items : List (κ × ν))
    (h : (items.map Prod.fst).Nodup) :
    (((setItems k v items).filterMap g : List β) : Multiset β) =
      ((g (k, v)).toList : Multiset β) + ((items.filter fun e => e.1 ≠ k).filterMap g : List β) := by
  induction items with
  | nil => cases hg : g (k, v) <;> simp [setItems, hg]
  | cons e rest ih =>
      rw [List.map_cons, List.nodup_cons] at h
      have hcons (x : κ × ν) (xs : List (κ × ν)) :
          (((x :: xs).filterMap g : List β) : Multiset β) =
            ((g x).toList : Multiset β) + (xs.filterMap g : List β) := by
        cases hg : g x <;> simp [hg]
      by_cases he : e.1 = k
      · have hrest : (rest.filter fun e => e.1 ≠ k) = rest := by
          refine List.filter_eq_self.mpr fun x hx => ?_
          have hne : x.1 ≠ k := fun heq => h.1 (he ▸ heq ▸ List.mem_map_of_mem hx)
          simpa using hne
        rw [setItems, if_pos he, hcons, List.filter_cons_of_neg (by simp [he]), hrest]
      · rw [setItems, if_neg he, hcons, ih h.2, List.filter_cons_of_pos (by simp [he]), hcons, add_left_comm]

/-- An assignment replaces whatever the key contributed by the contribution of the new value. -/
theorem coe_collect_set (f : κ → ν → Option β) (d : OrderedDict κ ν) (k : κ) (v : ν) :
    ((d.set k v).collect f : Multiset β) = ((f k v).toList : Multiset β) + ((d.erase k).collect f : Multiset β) :=
  coe_filterMap_setItems (fun e => f e.1 e.2) k v d.items d.nodup

theorem coe_collect_of_get? (f : κ → ν → Option β) {d : OrderedDict κ ν} {k : κ} {v : ν} (h : d.get? k = some v) :
    (d.collect f : Multiset β) = ((f k v).toList : Multiset β) + ((d.erase k).collect f : Multiset β) := by
  rw [← coe_collect_set, set_of_get? h]

theorem coe_collect_moveToEnd (f : κ → ν → Option β) (d : OrderedDict κ ν) (k : κ) :
    ((d.moveToEnd k).collect f : Multiset β) = (d.collect f : Multiset β) := by
  unfold moveToEnd
  split
  · rename_i v hv
    rw [coe_collect_set, erase_of_get?_eq_none (get?_erase_self d k), ← coe_collect_of_get? f hv]
  · rfl

theorem mem_collect_iff {f : κ → ν → Option β} {d : OrderedDict κ ν} {b : β} :
    b ∈ d.collect f ↔ ∃ k v, d.get? k = some v ∧ f k v = some b := by
  simp only [collect, List.mem_filterMap, get?_eq_some_iff, Prod.exists]

theorem mem_keys_fromKeys {ks : List κ} {k : κ} : k ∈ (fromKeys ks).keys ↔ k ∈ ks := by
  have hfold : ∀ (ks : List κ) (d : OrderedDict κ Unit),
      k ∈ (ks.foldl (fun d k => d.set k ()) d).keys ↔ k ∈ d.keys ∨ k ∈ ks := by
    intro ks
    induction ks with
    | nil => simp
    | cons k' rest ih =>
        intro d
        rw [List.foldl_cons, ih, mem_keys_set, List.mem_cons]
        tauto
  rw [fromKeys, hfold]
  simp [keys, empty]

theorem keys_set_of_notMem {d : OrderedDict κ ν} {k : κ} (h : k ∉ d.keys) (v : ν) :
    (d.set k v).keys = d.keys ++ [k] := by
  calc (d.set k v).keys = (setItems k v d.items).map Prod.fst := rfl
    _ = (d.items ++ [(k, v)]).map Prod.fst := by rw [setItems_of_not_mem k v d.items h]
    _ = d.keys ++ [k] := List.map_append

/-- A list without repetitions is its own key list. -/
theorem keys_fromKeys_of_nodup {ks : List κ} (h : ks.Nodup) : (fromKeys ks).keys = ks := by
  have hfold : ∀ (ks : List κ) (d : OrderedDict κ Unit), (d.keys ++ ks).Nodup →
      (ks.foldl (fun d k => d.set k ()) d).keys = d.keys ++ ks := by
    intro ks
    induction ks with
    | nil => exact fun d _ => (List.append_nil d.keys).symm
    | cons k rest ih =>
        intro d hnodup
        have hnot : k ∉ d.keys := fun hmem => (List.nodup_append.mp hnodup).2.2 k hmem k List.mem_cons_self rfl
        have hkeys : (d.set k ()).keys ++ rest = d.keys ++ k :: rest := by
          rw [keys_set_of_notMem hnot, List.append_assoc, List.singleton_append]
        rw [List.foldl_cons, ih _ (hkeys ▸ hnodup), hkeys]
  exact hfold ks empty h

/-- A loop that writes one value under many keys. -/
theorem get?_foldl_set_const (v : ν) (ks : List κ) (d : OrderedDict κ ν) (k : κ) :
    (ks.foldl (fun d k' => d.set k' v) d).get? k = if k ∈ ks then some v else d.get? k := by
  induction ks generalizing d with
  | nil => simp
  | cons k' rest ih =>
      rw [List.foldl_cons, ih, get?_set]
      by_cases hrest : k ∈ rest
      · simp [hrest]
      · simp [hrest]

/-- A loop of writes under distinct keys. -/
theorem get?_foldl_set (f : β → κ) (g : β → ν) {l : List β} (hnodup : (l.map f).Nodup) (d : OrderedDict κ ν) {k : κ}
    {v : ν} :
    (l.foldl (fun d a => d.set (f a) (g a)) d).get? k = some v ↔
      (∃ a ∈ l, f a = k ∧ g a = v) ∨ k ∉ l.map f ∧ d.get? k = some v := by
  induction l generalizing d with
  | nil => simp
  | cons a rest ih =>
      rw [List.map_cons, List.nodup_cons] at hnodup
      rw [List.foldl_cons, ih hnodup.2, get?_set]
      by_cases hk : k = f a
      · subst hk
        have hnone : ¬∃ x ∈ rest, f x = f a ∧ g x = v := by
          rintro ⟨x, hx, heq, -⟩
          exact hnodup.1 (heq ▸ List.mem_map_of_mem hx)
        simp [hnone, hnodup.1]
      · have hne : ¬(f a = k ∧ g a = v) := fun h => hk h.1.symm
        simp [hk, hne]

end OrderedDict

end KVOffload.Base

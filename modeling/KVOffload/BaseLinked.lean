import Mathlib.Data.List.Chain
import Mathlib.Data.List.Nodup
import Mathlib.Logic.Function.Basic

/-! Doubly linked lists in a heap of nodes. A node may be on no list at all, so both fields are optional.
`Path` says that a sequence of nodes is linked in this order, in both directions; the two writes such
lists are edited with, `connect` and `clear`, each have one lemma about the paths they make or keep. -/

namespace KVOffload.Base

/-- The link fields of a heap of nodes. -/
structure Links (N : Type) where
  prev : N → Option N
  next : N → Option N

namespace Links

variable {N : Type}

/-- No node is linked. -/
def blank : Links N := ⟨fun _ => none, fun _ => none⟩

/-- `b` comes after `a`, and both nodes say so. -/
def Follows (l : Links N) (a b : N) : Prop := l.next a = some b ∧ l.prev b = some a

/-- The nodes of the list are linked in this order. -/
def Path (l : Links N) (path : List N) : Prop := path.IsChain l.Follows

section Reading

variable {l l' : Links N} {a b : N} {pre rest path : List N}

theorem Path.follows (h : l.Path (pre ++ a :: b :: rest)) : l.Follows a b :=
  (List.isChain_append_cons_cons.mp h).2.1

theorem Path.left (h : l.Path (pre ++ a :: rest)) : l.Path (pre ++ [a]) := (List.isChain_split.mp h).1

theorem Path.right (h : l.Path (pre ++ a :: rest)) : l.Path (a :: rest) := (List.isChain_split.mp h).2

theorem Path.join (hleft : l.Path (pre ++ [a])) (hmid : l.Follows a b) (hright : l.Path (b :: rest)) :
    l.Path (pre ++ a :: b :: rest) :=
  List.isChain_append_cons_cons.mpr ⟨hleft, hmid, hright⟩

/-- The first node has no use for its `prev` field and the last none for `next`; a path stays if no other
field of its nodes changes. -/
theorem Path.frame (h : l.Path path) (hnext : ∀ n ∈ path.dropLast, l'.next n = l.next n)
    (hprev : ∀ n ∈ path.tail, l'.prev n = l.prev n) : l'.Path path := by
  refine List.isChain_iff_forall_rel_of_append_cons_cons.mpr fun a b pre rest hsplit => ?_
  subst hsplit
  obtain ⟨hab, hba⟩ := h.follows
  constructor
  · rw [hnext a, hab]
    rw [List.dropLast_append_of_ne_nil (List.cons_ne_nil a _)]
    exact List.mem_append_right pre (by simp [List.dropLast])
  · rw [hprev b, hba]
    cases pre with
    | nil => exact List.mem_cons_self
    | cons x pre => exact List.mem_append_right pre (List.mem_cons_of_mem a List.mem_cons_self)

end Reading

variable [DecidableEq N]

def setPrev (l : Links N) (n : N) (p : Option N) : Links N := { l with prev := Function.update l.prev n p }

def setNext (l : Links N) (n : N) (p : Option N) : Links N := { l with next := Function.update l.next n p }

/-- Makes `b` come after `a`. -/
def connect (l : Links N) (a b : N) : Links N := (l.setNext a (some b)).setPrev b (some a)

/-- Takes both links of a node away. -/
def clear (l : Links N) (n : N) : Links N := (l.setPrev n none).setNext n none

def clearAll (l : Links N) (nodes : List N) : Links N := nodes.foldl clear l

/-- Connects each node of the list to the one before it, the first to `last`; the links and the node the
list ends in. -/
def connectAll (l : Links N) (last : N) : List N → Links N × N
  | [] => (l, last)
  | n :: rest => connectAll (l.connect last n) n rest

section Writing

variable {l : Links N} {a b n : N}

@[simp] theorem connect_next_self (l : Links N) (a b : N) : (l.connect a b).next a = some b := Function.update_self ..

@[simp] theorem connect_prev_self (l : Links N) (a b : N) : (l.connect a b).prev b = some a := Function.update_self ..

theorem connect_next_of_ne (h : n ≠ a) : (l.connect a b).next n = l.next n := Function.update_of_ne h ..

theorem connect_prev_of_ne (h : n ≠ b) : (l.connect a b).prev n = l.prev n := Function.update_of_ne h ..

@[simp] theorem clear_next_self (l : Links N) (n : N) : (l.clear n).next n = none := Function.update_self ..

@[simp] theorem clear_prev_self (l : Links N) (n : N) : (l.clear n).prev n = none := Function.update_self ..

theorem clear_next_of_ne {m : N} (h : m ≠ n) : (l.clear n).next m = l.next m := Function.update_of_ne h ..

theorem clear_prev_of_ne {m : N} (h : m ≠ n) : (l.clear n).prev m = l.prev m := Function.update_of_ne h ..

theorem follows_connect (l : Links N) (a b : N) : (l.connect a b).Follows a b := ⟨by simp, by simp⟩

/-- Two disjoint paths become one when the end of the first is connected to the start of the second. -/
theorem Path.connect {pre rest : List N} (hleft : l.Path (pre ++ [a])) (hright : l.Path (b :: rest))
    (hnodup : (pre ++ a :: b :: rest).Nodup) : (l.connect a b).Path (pre ++ a :: b :: rest) := by
  obtain ⟨-, hrest, hdisjoint⟩ := List.nodup_append.mp hnodup
  obtain ⟨ha, hb⟩ := List.nodup_cons.mp hrest
  refine Path.join (hleft.frame (fun n hn => ?_) fun n hn => ?_) (follows_connect l a b)
    (hright.frame (fun n hn => ?_) fun n hn => ?_)
  · rw [List.dropLast_concat] at hn
    exact connect_next_of_ne (hdisjoint n hn a List.mem_cons_self)
  · apply connect_prev_of_ne
    rintro rfl
    rcases List.mem_append.mp (List.mem_of_mem_tail hn) with hpre | hlast
    · exact hdisjoint n hpre n (List.mem_cons_of_mem a List.mem_cons_self) rfl
    · rw [List.mem_singleton.mp hlast] at ha
      exact ha List.mem_cons_self
  · apply connect_next_of_ne
    rintro rfl
    exact ha (List.dropLast_subset _ hn)
  · apply connect_prev_of_ne
    rintro rfl
    exact (List.nodup_cons.mp hb).1 hn

theorem Path.clear {path : List N} (h : l.Path path) (hn : n ∉ path) : (l.clear n).Path path := by
  refine h.frame (fun m hm => clear_next_of_ne ?_) fun m hm => clear_prev_of_ne ?_
  · rintro rfl
    exact hn (List.dropLast_subset _ hm)
  · rintro rfl
    exact hn (List.mem_of_mem_tail hm)

theorem clearAll_next (l : Links N) (nodes : List N) (n : N) :
    (l.clearAll nodes).next n = if n ∈ nodes then none else l.next n := by
  induction nodes generalizing l with
  | nil => rfl
  | cons m rest ih =>
      rw [clearAll, List.foldl_cons, ← clearAll, ih]
      by_cases hn : n = m
      · simp [hn]
      · simp [hn, clear_next_of_ne hn]

theorem clearAll_prev (l : Links N) (nodes : List N) (n : N) :
    (l.clearAll nodes).prev n = if n ∈ nodes then none else l.prev n := by
  induction nodes generalizing l with
  | nil => rfl
  | cons m rest ih =>
      rw [clearAll, List.foldl_cons, ← clearAll, ih]
      by_cases hn : n = m
      · simp [hn]
      · simp [hn, clear_prev_of_ne hn]

theorem Path.clearAll {path nodes : List N} (h : l.Path path) (hnodes : ∀ n ∈ path, n ∉ nodes) :
    (l.clearAll nodes).Path path := by
  refine h.frame (fun n hn => ?_) fun n hn => ?_
  · rw [clearAll_next, if_neg (hnodes n (List.dropLast_subset _ hn))]
  · rw [clearAll_prev, if_neg (hnodes n (List.mem_of_mem_tail hn))]

/-- What `connectAll` leaves of a path that ends in `last`, and of all other fields. -/
theorem Path.connectAll {pre nodes : List N} (h : l.Path (pre ++ [a])) (hnodup : (pre ++ a :: nodes).Nodup) :
    (l.connectAll a nodes).1.Path (pre ++ a :: nodes) ∧ (a :: nodes).getLast? = some (l.connectAll a nodes).2 ∧
      (∀ n ∉ (a :: nodes).dropLast, (l.connectAll a nodes).1.next n = l.next n) ∧
      ∀ n ∉ nodes, (l.connectAll a nodes).1.prev n = l.prev n := by
  induction nodes generalizing l pre a with
  | nil => exact ⟨h, rfl, fun _ _ => rfl, fun _ _ => rfl⟩
  | cons b rest ih =>
      have hassoc : pre ++ a :: b :: rest = (pre ++ [a]) ++ b :: rest := by simp
      have hstart : (l.connect a b).Path ((pre ++ [a]) ++ [b]) := by
        rw [List.append_assoc, List.singleton_append]
        refine h.connect (List.isChain_singleton b) (hnodup.sublist ?_)
        exact List.Sublist.append_left (by simp) pre
      obtain ⟨hpath, hlast, hnext, hprev⟩ := ih hstart (by rw [← hassoc]; exact hnodup)
      rw [hassoc]
      refine ⟨hpath, by rw [List.getLast?_cons_cons]; exact hlast, fun n hn => ?_, fun n hn => ?_⟩
      · rw [List.dropLast_cons_cons, List.mem_cons, not_or] at hn
        exact (hnext n hn.2).trans (connect_next_of_ne hn.1)
      · rw [List.mem_cons, not_or] at hn
        exact (hprev n hn.2).trans (connect_prev_of_ne hn.1)

/-- Nodes put in between two neighbours. -/
theorem Path.insert {pre nodes rest : List N} (h : l.Path (pre ++ a :: b :: rest))
    (hnodup : (pre ++ a :: (nodes ++ b :: rest)).Nodup) :
    ((l.connectAll a nodes).1.connect (l.connectAll a nodes).2 b).Path (pre ++ a :: (nodes ++ b :: rest)) ∧
      (∀ n ∉ a :: nodes, ((l.connectAll a nodes).1.connect (l.connectAll a nodes).2 b).next n = l.next n) ∧
      ∀ n ∉ nodes ++ [b], ((l.connectAll a nodes).1.connect (l.connectAll a nodes).2 b).prev n = l.prev n := by
  have hsplit : pre ++ a :: (nodes ++ b :: rest) = (pre ++ a :: nodes) ++ b :: rest := by simp
  rw [hsplit] at hnodup ⊢
  obtain ⟨hnodes, hrest, hdisjoint⟩ := List.nodup_append.mp hnodup
  obtain ⟨hpath, hlast, hnext, hprev⟩ := h.left.connectAll hnodes
  generalize (l.connectAll a nodes).1 = made, (l.connectAll a nodes).2 = last at *
  obtain ⟨init, hinit⟩ := List.getLast?_eq_some_iff.mp hlast
  have hmem : last ∈ a :: nodes := List.mem_of_getLast? hlast
  refine ⟨?_, fun n hn => ?_, fun n hn => ?_⟩
  · have hright : made.Path (b :: rest) := by
      have htail : l.Path (b :: rest) := (List.isChain_append_cons_cons.mp h).2.2
      refine htail.frame (fun n hn => hnext n fun hin => ?_) fun n hn => hprev n fun hin => ?_
      · exact hdisjoint n (List.mem_append_right pre (List.dropLast_subset _ hin)) n (List.dropLast_subset _ hn) rfl
      · exact hdisjoint n (List.mem_append_right pre (List.mem_cons_of_mem a hin)) n (List.mem_of_mem_tail hn) rfl
    rw [hinit, ← List.append_assoc] at hpath hnodup ⊢
    have hjoined := hpath.connect hright
    rw [List.append_assoc _ [last], List.singleton_append] at hnodup ⊢
    exact hjoined hnodup
  · have hne : n ≠ last := fun heq => hn (heq ▸ hmem)
    exact (connect_next_of_ne hne).trans (hnext n fun hin => hn (List.dropLast_subset _ hin))
  · rw [List.mem_append, not_or, List.mem_singleton] at hn
    exact (connect_prev_of_ne hn.2).trans (hprev n hn.1)

/-- A node taken out from between its neighbours. -/
theorem Path.remove {pre rest : List N} (h : l.Path (pre ++ a :: n :: b :: rest))
    (hnodup : (pre ++ a :: n :: b :: rest).Nodup) : ((l.connect a b).clear n).Path (pre ++ a :: b :: rest) := by
  have hsub : (pre ++ a :: b :: rest).Nodup := by
    refine hnodup.sublist (List.Sublist.append_left ?_ pre)
    exact List.Sublist.cons_cons a (List.sublist_cons_self n _)
  have hright : l.Path (b :: rest) := by
    have htail : l.Path ([n] ++ b :: rest) := (List.isChain_append_cons_cons.mp h).2.2
    exact htail.right
  refine (h.left.connect hright hsub).clear fun hin => ?_
  have hout : n ∉ pre ++ a :: b :: rest := by
    rw [List.append_cons] at hnodup ⊢
    exact (List.nodup_middle.mp hnodup).notMem
  exact hout hin

end Writing

end Links

end KVOffload.Base

import Mathlib.Data.List.Basic
import Mathlib.Data.List.Induction
import Mathlib.Logic.Function.Basic
import Mathlib.Tactic.TypeStar

/-! Chained hashes. The hash of a sequence links the hash of what comes before its last element with that element,
so that, without collisions, a hash stands for a whole sequence. The sequence may grow: its hashes are computed once,
from the last one on. -/

namespace KVOffload.Base

/-- A hash without collisions, and the hash of nothing, which is no other. -/
structure HashChain (X H : Type) where
  root : H
  link : H → X → H
  link_inj : ∀ {h h' : H} {x x' : X}, link h x = link h' x' → h = h' ∧ x = x'
  link_ne_root : ∀ (h : H) (x : X), link h x ≠ root

namespace HashChain

variable {X H : Type}

def chain (S : HashChain X H) (xs : List X) : H := xs.foldl S.link S.root

/-- The hashes after each of the elements, from `h` on. -/
def linkAll (S : HashChain X H) : H → List X → List H
  | _, [] => []
  | h, x :: rest => S.link h x :: S.linkAll (S.link h x) rest

/-- The sequence itself as its hash. -/
def free (X : Type) : HashChain X (List X) where
  root := []
  link := fun h x => x :: h
  link_inj := fun h => ⟨(List.cons.inj h).2, (List.cons.inj h).1⟩
  link_ne_root := fun _ _ => List.cons_ne_nil _ _

theorem chain_concat (S : HashChain X H) (xs : List X) (x : X) : S.chain (xs ++ [x]) = S.link (S.chain xs) x :=
  List.foldl_append

theorem chain_injective (S : HashChain X H) : Function.Injective S.chain := by
  intro xs
  induction xs using List.reverseRecOn with
  | nil =>
      intro ys hys
      rcases List.eq_nil_or_concat ys with rfl | ⟨init, last, rfl⟩
      · rfl
      · rw [List.concat_eq_append, chain_concat] at hys
        exact absurd hys.symm (S.link_ne_root _ _)
  | append_singleton xs x ih =>
      intro ys hys
      rcases List.eq_nil_or_concat ys with rfl | ⟨init, last, rfl⟩
      · rw [chain_concat] at hys
        exact absurd hys (S.link_ne_root _ _)
      · rw [List.concat_eq_append, chain_concat, chain_concat] at hys
        obtain ⟨hinit, hlast⟩ := S.link_inj hys
        rw [List.concat_eq_append, ih hinit, hlast]

@[simp] theorem length_linkAll (S : HashChain X H) (h : H) (xs : List X) : (S.linkAll h xs).length = xs.length := by
  induction xs generalizing h with
  | nil => rfl
  | cons x rest ih => rw [linkAll, List.length_cons, List.length_cons, ih]

/-- The hash at a position is that of the sequence up to it. -/
theorem getElem?_linkAll (S : HashChain X H) (pre xs : List X) {i : Nat} (hi : i < xs.length) :
    (S.linkAll (S.chain pre) xs)[i]? = some (S.chain (pre ++ xs.take (i + 1))) := by
  induction xs generalizing pre i with
  | nil => exact absurd hi (Nat.not_lt_zero i)
  | cons x rest ih =>
      rw [linkAll, ← chain_concat]
      cases i with
      | zero => rw [List.getElem?_cons_zero, List.take_succ_cons, List.take_zero]
      | succ i =>
          rw [List.getElem?_cons_succ, ih (pre ++ [x]) (Nat.lt_of_succ_lt_succ hi), List.take_succ_cons,
            List.append_assoc, List.singleton_append]

/-- Hashing can stop and go on from the last hash. -/
theorem linkAll_append (S : HashChain X H) (xs ys : List X) :
    S.linkAll S.root (xs ++ ys) = S.linkAll S.root xs ++ S.linkAll (S.chain xs) ys := by
  suffices hfrom : ∀ pre, S.linkAll (S.chain pre) (xs ++ ys) =
      S.linkAll (S.chain pre) xs ++ S.linkAll (S.chain (pre ++ xs)) ys from hfrom []
  induction xs with
  | nil =>
      intro pre
      rw [List.append_nil]
      rfl
  | cons x rest ih =>
      intro pre
      rw [List.cons_append, linkAll, linkAll, List.cons_append, ← chain_concat, ih (pre ++ [x]),
        List.append_cons pre x rest]

theorem getLast?_linkAll (S : HashChain X H) (xs : List X) :
    (S.linkAll S.root xs).getLast?.getD S.root = S.chain xs := by
  rcases List.eq_nil_or_concat xs with rfl | ⟨init, last, rfl⟩
  · rfl
  · rw [List.concat_eq_append, linkAll_append, linkAll, linkAll, List.getLast?_concat, Option.getD_some, chain_concat]

end HashChain

end KVOffload.Base

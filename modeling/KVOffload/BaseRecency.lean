import KVOffload.BaseProgram
import Mathlib.Data.List.Induction

/-! Recency by stamps. Each time a key is used, a component writes down for it a number from a counter that
never goes back; a key it forgets has none. A step of the history may take any number of numbers and hand
them out in any order, but the stamps of keys last used in different steps compare as the steps do. -/

namespace KVOffload.Base

/-- What the operations of a history mean for a key: a use of it, or the loss of every earlier use. -/
structure Usage (ω α : Type) where
  uses : ω → α → Bool
  forgets : ω → α → Bool

namespace Usage

variable {ω α σ : Type} (u : Usage ω α)

/-- The step of the last use of a key since it was last forgotten. -/
def lastUse (ops : List ω) (a : α) : Option Nat :=
  ops.zipIdx.foldl (fun last e => if u.uses e.1 a then some e.2 else if u.forgets e.1 a then none else last) none

/-- `b` is in use, and `a` was last used in a strictly earlier step or not at all. -/
def UsedBefore (ops : List ω) (a b : α) : Prop := ∃ n, u.lastUse ops b = some n ∧ ∀ m, u.lastUse ops a = some m → m < n

/-- One step takes the stamps of the used keys from beyond the counter and leaves the others. -/
structure Restamps (op : ω) (stamp : α → Nat) (clock : Nat) (stamp' : α → Nat) (clock' : Nat) : Prop where
  used : ∀ a, u.uses op a = true → clock < stamp' a ∧ stamp' a ≤ clock'
  forgotten : ∀ a, u.uses op a = false → u.forgets op a = true → stamp' a = 0
  kept : ∀ a, u.uses op a = false → u.forgets op a = false → stamp' a = stamp a
  clock_le : clock ≤ clock'

/-- The stamps after a history refine the order of the last uses. -/
structure Stamped (ops : List ω) (stamp : α → Nat) (clock : Nat) : Prop where
  unused : ∀ a, u.lastUse ops a = none → stamp a = 0
  used : ∀ a n, u.lastUse ops a = some n → 0 < stamp a
  ordered : ∀ a b m n, u.lastUse ops a = some m → u.lastUse ops b = some n → m < n → stamp a < stamp b
  le_clock : ∀ a, stamp a ≤ clock

variable {u} {ops : List ω} {op : ω} {a b : α} {stamp stamp' : α → Nat} {clock clock' : Nat}

theorem lastUse_concat (ops : List ω) (op : ω) (a : α) :
    u.lastUse (ops ++ [op]) a =
      if u.uses op a then some ops.length else if u.forgets op a then none else u.lastUse ops a := by
  rw [lastUse, List.zipIdx_append, List.foldl_append]
  simp only [List.zipIdx_singleton, List.foldl_cons, List.foldl_nil, Nat.zero_add]
  rfl

theorem lastUse_lt {n : Nat} (h : u.lastUse ops a = some n) : n < ops.length := by
  induction ops using List.reverseRecOn with
  | nil => cases h
  | append_singleton ops op ih =>
      rw [lastUse_concat] at h
      rw [List.length_append, List.length_singleton]
      split_ifs at h
      · cases h
        exact Nat.lt_succ_self _
      · exact Nat.lt_succ_of_lt (ih h)

/-- What a step does to one key: it is used now, or forgotten, or left alone. -/
theorem Restamps.cases (h : u.Restamps op stamp clock stamp' clock') (ops : List ω) (a : α) :
    (u.lastUse (ops ++ [op]) a = some ops.length ∧ clock < stamp' a ∧ stamp' a ≤ clock') ∨
      (u.lastUse (ops ++ [op]) a = none ∧ stamp' a = 0) ∨
      (u.lastUse (ops ++ [op]) a = u.lastUse ops a ∧ stamp' a = stamp a) := by
  cases huse : u.uses op a with
  | true => exact Or.inl ⟨by simp [lastUse_concat, huse], h.used a huse⟩
  | false =>
      cases hforget : u.forgets op a with
      | true => exact Or.inr (Or.inl ⟨by simp [lastUse_concat, huse, hforget], h.forgotten a huse hforget⟩)
      | false => exact Or.inr (Or.inr ⟨by simp [lastUse_concat, huse, hforget], h.kept a huse hforget⟩)

theorem Stamped.concat (h : u.Stamped ops stamp clock) (hstep : u.Restamps op stamp clock stamp' clock') :
    u.Stamped (ops ++ [op]) stamp' clock' := by
  refine ⟨fun a hlast => ?_, fun a n hlast => ?_, fun a b m n ha hb hlt => ?_, fun a => ?_⟩
  · rcases hstep.cases ops a with ⟨hnow, -⟩ | ⟨-, hzero⟩ | ⟨hsame, hkept⟩
    · rw [hnow] at hlast
      cases hlast
    · exact hzero
    · rw [hkept]
      exact h.unused a (hsame.symm.trans hlast)
  · rcases hstep.cases ops a with ⟨-, hfresh, -⟩ | ⟨hnone, -⟩ | ⟨hsame, hkept⟩
    · exact Nat.zero_lt_of_lt hfresh
    · rw [hnone] at hlast
      cases hlast
    · rw [hkept]
      exact h.used a n (hsame.symm.trans hlast)
  · rcases hstep.cases ops a with ⟨hnow, -⟩ | ⟨hnone, -⟩ | ⟨hsame, hkept⟩
    · -- nothing is last used after the step that is just taken
      have hlength := lastUse_lt hb
      rw [List.length_append, List.length_singleton] at hlength
      rw [hnow, Option.some.injEq] at ha
      omega
    · rw [hnone] at ha
      cases ha
    · rw [hkept]
      rcases hstep.cases ops b with ⟨-, hfresh, -⟩ | ⟨hnone, -⟩ | ⟨hsame', hkept'⟩
      · exact Nat.lt_of_le_of_lt (h.le_clock a) hfresh
      · rw [hnone] at hb
        cases hb
      · rw [hkept']
        exact h.ordered a b m n (hsame.symm.trans ha) (hsame'.symm.trans hb) hlt
  · rcases hstep.cases ops a with ⟨-, -, hle⟩ | ⟨-, hzero⟩ | ⟨-, hkept⟩
    · exact hle
    · rw [hzero]
      exact Nat.zero_le _
    · rw [hkept]
      exact Nat.le_trans (h.le_clock a) hstep.clock_le

/-- A component whose steps all restamp holds stamps that refine recency after every run. -/
theorem stamped_run {step : σ → ω → σ} (stamp : σ → α → Nat) (clock : σ → Nat) {P : ω → Prop}
    (hstep : ∀ s op, P op → u.Restamps op (stamp s) (clock s) (stamp (step s op)) (clock (step s op))) {s : σ}
    (hstart : ∀ a, stamp s a = 0) (hops : ∀ op ∈ ops, P op) :
    u.Stamped ops (stamp (run step s ops)) (clock (run step s ops)) := by
  induction ops using List.reverseRecOn with
  | nil =>
      refine ⟨fun a _ => hstart a, fun a n hlast => ?_, fun a b m n hlast => ?_, fun a => ?_⟩
      · cases hlast
      · cases hlast
      · rw [run_nil, hstart]
        exact Nat.zero_le _
  | append_singleton ops op ih =>
      rw [run_append]
      apply (ih fun op' hop' => hops op' (List.mem_append_left _ hop')).concat
      exact hstep _ op (hops op (List.mem_append_right _ (List.mem_singleton_self op)))

theorem Stamped.lt_of_usedBefore (h : u.Stamped ops stamp clock) (hbefore : u.UsedBefore ops a b) :
    stamp a < stamp b := by
  obtain ⟨n, hb, hlater⟩ := hbefore
  cases ha : u.lastUse ops a with
  | none =>
      rw [h.unused a ha]
      exact h.used b n hb
  | some m => exact h.ordered a b m n ha hb (hlater m ha)

end Usage

end KVOffload.Base

import KVOffload.OrchestratorModel

/-! The interval trigger. The controller counts the decode tokens of each request and asks for a pass
when the count after a step is a multiple of the window. A step of several tokens can pass over a
multiple; then the pass is missed, and the next one comes a whole window late. -/

namespace KVOffload
open Base

/-- Some positive multiple of the window lies in the half-open interval `(a, b]`. -/
def PassesMultiple (window a b : Nat) : Prop := ∃ m, 0 < m ∧ a < m * window ∧ m * window ≤ b

/-- The step from `a` to `b` stays between two multiples or ends on one. -/
def EndsOnMultiple (window a b : Nat) : Prop := a / window = b / window ∨ window ∣ b

instance (window a b : Nat) : Decidable (EndsOnMultiple window a b) := inferInstanceAs (Decidable (_ ∨ _))

theorem passesMultiple_iff {window a b : Nat} (hwindow : 0 < window) :
    PassesMultiple window a b ↔ a / window < b / window := by
  constructor
  · rintro ⟨m, -, hlt, hle⟩
    calc a / window < m := (Nat.div_lt_iff_lt_mul hwindow).mpr hlt
      _ ≤ b / window := (Nat.le_div_iff_mul_le hwindow).mpr hle
  · intro hlt
    refine ⟨b / window, Nat.zero_lt_of_lt hlt, ?_, Nat.div_mul_le_self b window⟩
    exact (Nat.div_lt_iff_lt_mul hwindow).mp hlt

theorem div_lt_div_of_dvd {window a b : Nat} (hwindow : 0 < window) (hlt : a < b) (hdvd : window ∣ b) :
    a / window < b / window := by
  obtain ⟨q, rfl⟩ := hdvd
  rw [Nat.mul_div_cancel_left q hwindow, Nat.div_lt_iff_lt_mul hwindow, Nat.mul_comm]
  exact hlt

/-- Asking for a multiple at the end of the step and asking for one inside it is the same exactly for
steps that stay between two multiples or end on one. -/
theorem dvd_iff_passesMultiple {window a b : Nat} (hwindow : 0 < window) (hlt : a < b) :
    (window ∣ b ↔ PassesMultiple window a b) ↔ EndsOnMultiple window a b := by
  rw [passesMultiple_iff hwindow]
  have hle : a / window ≤ b / window := Nat.div_le_div_right hlt.le
  constructor
  · intro h
    by_cases hdvd : window ∣ b
    · exact Or.inr hdvd
    · exact Or.inl (by have := mt h.mpr hdvd; omega)
  · rintro (hsame | hdvd)
    · constructor
      · intro hdvd
        exact div_lt_div_of_dvd hwindow hlt hdvd
      · intro hstep
        omega
    · exact ⟨fun _ => div_lt_div_of_dvd hwindow hlt hdvd, fun _ => hdvd⟩

/-- A step of at most one window that ends on a multiple passes that one only. -/
theorem div_eq_succ_of_dvd {window a b : Nat} (hwindow : 0 < window) (hlt : a < b) (hle : b ≤ a + window)
    (hdvd : window ∣ b) : b / window = a / window + 1 := by
  have hstep : a / window < b / window := div_lt_div_of_dvd hwindow hlt hdvd
  have hbound : b / window ≤ (a + window) / window := Nat.div_le_div_right hle
  rw [Nat.add_div_right a hwindow] at hbound
  omega

/-- What the connector does with the controller. -/
inductive ControllerOp where
  | prefillComplete (requestId : RequestId)
  | decode (requestId : RequestId) (numTokens : Nat)
  | remove (requestId : RequestId)
  deriving DecidableEq

namespace Controller

def step (window : Nat) (k : Controller) : ControllerOp → Controller
  | .prefillComplete r => k.onPrefillComplete r
  | .decode r n => (k.onDecode window r n).2
  | .remove r => k.remove r

/-- `on_decode` is called for `r` and returns `True`. -/
def triggers (window : Nat) (k : Controller) (r : RequestId) : ControllerOp → Bool
  | .decode r' n => decide (r' = r) && decide ((k.onDecode window r' n).1.toOption = some true)
  | _ => false

/-- How often `on_decode` returns `True` for `r`. -/
def numTriggers (window : Nat) (r : RequestId) : Controller → List ControllerOp → Nat
  | _, [] => 0
  | k, op :: rest => (if k.triggers window r op then 1 else 0) + numTriggers window r (k.step window op) rest

end Controller

/-- What one call does to the count of `r`. -/
def countAfter (r : RequestId) (count : Option Nat) : ControllerOp → Option Nat
  | .prefillComplete r' => if r' = r then some 0 else count
  | .decode r' n => if r' = r then count.map (· + n) else count
  | .remove r' => if r' = r then none else count

/-- The decode tokens of `r` since its last `on_prefill_complete`, read off the history of calls. -/
def decodedSince (r : RequestId) (ops : List ControllerOp) : Option Nat := ops.foldl (countAfter r) none

/-- The tokens of the `on_decode` calls for `r`. -/
def tokensOf (r : RequestId) (ops : List ControllerOp) : Nat :=
  (ops.map fun
    | .decode r' n => if r' = r then n else 0
    | _ => 0).sum

/-- The controller's record of `r` is what the history says. -/
structure Counts (k : Controller) (r : RequestId) (count : Option Nat) : Prop where
  started : r ∈ k.started ↔ count.isSome
  tokens : ∀ a, count = some a → k.decodeTokens.get? r = some (a : Int)

section Counting

variable {window : Nat} {k : Controller} {r : RequestId} {count : Option Nat}

theorem Counts.prefillComplete (h : Counts k r count) (r' : RequestId) :
    Counts (k.step window (.prefillComplete r')) r (if r' = r then some 0 else count) := by
  by_cases heq : r' = r
  · subst heq
    rw [if_pos rfl]
    refine ⟨⟨fun _ => rfl, fun _ => Finset.mem_insert_self _ _⟩, fun a ha => ?_⟩
    rw [← Option.some.inj ha]
    exact OrderedDict.get?_set_self _ _ _
  · rw [if_neg heq]
    refine ⟨?_, fun a ha => ?_⟩
    · rw [← h.started]
      exact ⟨fun hmem => (Finset.mem_insert.mp hmem).resolve_left (Ne.symm heq), Finset.mem_insert_of_mem⟩
    · rw [← h.tokens a ha]
      exact OrderedDict.get?_set_of_ne _ _ (Ne.symm heq)

theorem Counts.remove (h : Counts k r count) (r' : RequestId) :
    Counts (k.step window (.remove r')) r (if r' = r then none else count) := by
  by_cases heq : r' = r
  · subst heq
    rw [if_pos rfl]
    refine ⟨⟨fun hmem => absurd rfl (Finset.ne_of_mem_erase hmem), nofun⟩, nofun⟩
  · rw [if_neg heq]
    refine ⟨?_, fun a ha => ?_⟩
    · rw [← h.started]
      exact ⟨Finset.mem_of_mem_erase, fun hmem => Finset.mem_erase.mpr ⟨Ne.symm heq, hmem⟩⟩
    · rw [← h.tokens a ha]
      exact OrderedDict.get?_erase_of_ne _ (Ne.symm heq)

theorem onDecode_of_started (hr : r ∈ k.started) (n : Nat) :
    k.onDecode window r n =
      (.ok (Controller.shouldTrigger window ((k.decodeTokens.get? r).getD 0 + n)),
        { k with decodeTokens := k.decodeTokens.set r ((k.decodeTokens.get? r).getD 0 + n) }) := by
  rw [Controller.onDecode, if_neg (not_not_intro hr), if_neg (by omega)]

theorem onDecode_of_not_started (hr : r ∉ k.started) (n : Nat) : k.onDecode window r n = (.ok false, k) := by
  rw [Controller.onDecode, if_pos hr]

theorem Counts.decode (h : Counts k r count) (r' : RequestId) (n : Nat) :
    Counts (k.step window (.decode r' n)) r (if r' = r then count.map (· + n) else count) := by
  rw [Controller.step]
  by_cases hstarted : r' ∈ k.started
  · rw [onDecode_of_started hstarted]
    by_cases heq : r' = r
    · subst heq
      rw [if_pos rfl]
      refine ⟨by rw [Option.isSome_map]; exact h.started, fun b hb => ?_⟩
      obtain ⟨a, ha, rfl⟩ := Option.map_eq_some_iff.mp hb
      have hget := h.tokens a ha
      show (k.decodeTokens.set r' _).get? r' = _
      rw [OrderedDict.get?_set_self, hget, Option.getD_some]
      push_cast
      rfl
    · rw [if_neg heq]
      refine ⟨h.started, fun a ha => ?_⟩
      rw [← h.tokens a ha]
      exact OrderedDict.get?_set_of_ne _ _ (Ne.symm heq)
  · rw [onDecode_of_not_started hstarted]
    by_cases heq : r' = r
    · subst heq
      have hnone : count = none := Option.not_isSome_iff_eq_none.mp (mt h.started.mpr hstarted)
      subst hnone
      rw [if_pos rfl]
      exact h
    · rw [if_neg heq]
      exact h

theorem Counts.step (h : Counts k r count) (op : ControllerOp) :
    Counts (k.step window op) r (countAfter r count op) := by
  cases op with
  | prefillComplete r' => exact h.prefillComplete r'
  | decode r' n => exact h.decode r' n
  | remove r' => exact h.remove r'

theorem Counts.run (h : Counts k r count) (ops : List ControllerOp) :
    Counts (run (Controller.step window) k ops) r (ops.foldl (countAfter r) count) := by
  induction ops generalizing k count with
  | nil => exact h
  | cons op rest ih => exact ih (h.step op)

theorem counts_run (window : Nat) (r : RequestId) (ops : List ControllerOp) :
    Counts (run (Controller.step window) .init ops) r (decodedSince r ops) :=
  Counts.run ⟨by simp [Controller.init], fun _ h => by cases h⟩ ops

/-- `on_decode` asks whether the count after the step is a multiple of the window. -/
theorem Counts.onDecode {a n : Nat} (h : Counts k r (some a)) (hn : 0 < n) :
    (k.onDecode window r n).1 = .ok (decide (window ∣ a + n)) := by
  rw [onDecode_of_started (h.started.mpr rfl), h.tokens a rfl, Option.getD_some]
  refine congrArg Except.ok (Bool.decide_congr ?_)
  have hmod : ((a : Int) + n) % window = 0 ↔ window ∣ a + n := by
    rw [← Int.dvd_iff_emod_eq_zero]
    exact_mod_cast Iff.rfl
  constructor
  · intro h
    exact hmod.mp h.2
  · intro hdvd
    exact ⟨by omega, hmod.mpr hdvd⟩

/-- The condition on one call, when `r` has decoded `a` tokens: it has at most a window of tokens and
does not pass over a multiple. -/
def ControllerOp.Regular (window : Nat) (r : RequestId) (a : Nat) : ControllerOp → Prop
  | .prefillComplete r' => r' ≠ r
  | .decode r' n => r' = r → 0 < n ∧ n ≤ window ∧ EndsOnMultiple window a (a + n)
  | .remove r' => r' ≠ r

instance (window : Nat) (r : RequestId) (a : Nat) : (op : ControllerOp) → Decidable (op.Regular window r a)
  | .prefillComplete r' => inferInstanceAs (Decidable (r' ≠ r))
  | .decode r' _ => inferInstanceAs (Decidable (r' = r → _))
  | .remove r' => inferInstanceAs (Decidable (r' ≠ r))

/-- Every call meets the condition. -/
def RegularCalls (window : Nat) (r : RequestId) : Nat → List ControllerOp → Prop
  | _, [] => True
  | a, op :: rest => op.Regular window r a ∧ RegularCalls window r (a + tokensOf r [op]) rest

instance RegularCalls.decidable (window : Nat) (r : RequestId) :
    ∀ (ops : List ControllerOp) (a : Nat), Decidable (RegularCalls window r a ops)
  | [], _ => inferInstanceAs (Decidable True)
  | _ :: rest, _ => @instDecidableAnd _ _ _ (RegularCalls.decidable window r rest _)

theorem tokensOf_cons (r : RequestId) (op : ControllerOp) (rest : List ControllerOp) :
    tokensOf r (op :: rest) = tokensOf r [op] + tokensOf r rest := by
  simp [tokensOf]

/-- A regular call adds to the count of `r` and triggers once for each multiple it reaches. -/
theorem Counts.regular {a : Nat} {op : ControllerOp} (hwindow : 0 < window) (h : Counts k r (some a))
    (hop : op.Regular window r a) :
    Counts (k.step window op) r (some (a + tokensOf r [op])) ∧
      (a + tokensOf r [op]) / window = a / window + (if k.triggers window r op then 1 else 0) := by
  have hstep : Counts (k.step window op) r (countAfter r (some a) op) := h.step op
  -- Only a call of `on_decode` for `r` itself changes anything.
  have hother : countAfter r (some a) op = some a → tokensOf r [op] = 0 → k.triggers window r op = false →
      Counts (k.step window op) r (some (a + tokensOf r [op])) ∧
        (a + tokensOf r [op]) / window = a / window + (if k.triggers window r op then 1 else 0) := by
    intro hcount htokens htriggers
    rw [hcount] at hstep
    rw [htokens, htriggers]
    exact ⟨hstep, rfl⟩
  cases op with
  | prefillComplete r' => exact hother (if_neg hop) rfl rfl
  | remove r' => exact hother (if_neg hop) rfl rfl
  | decode r' n =>
      by_cases heq : r' = r
      · subst heq
        obtain ⟨hn, hle, hends⟩ := hop rfl
        have htokens : tokensOf r' [.decode r' n] = n := by simp [tokensOf]
        have htriggers : k.triggers window r' (.decode r' n) = decide (window ∣ a + n) := by
          simp [Controller.triggers, h.onDecode hn, Except.toOption]
        rw [htokens, htriggers]
        refine ⟨by simpa [countAfter] using hstep, ?_⟩
        by_cases hdvd : window ∣ a + n
        · rw [decide_eq_true hdvd, if_pos rfl]
          exact div_eq_succ_of_dvd hwindow (by omega) (by omega) hdvd
        · rw [decide_eq_false hdvd]
          exact (hends.resolve_right hdvd).symm
      · have htokens : tokensOf r [.decode r' n] = 0 := by simp [tokensOf, heq]
        exact hother (if_neg heq) htokens (by simp [Controller.triggers, heq])

theorem Counts.numTriggers {a : Nat} (hwindow : 0 < window) (h : Counts k r (some a)) {calls : List ControllerOp}
    (hcalls : RegularCalls window r a calls) :
    (a + tokensOf r calls) / window = a / window + k.numTriggers window r calls := by
  induction calls generalizing k a with
  | nil => rfl
  | cons op rest ih =>
      obtain ⟨hcounts, hdiv⟩ := h.regular hwindow hcalls.1
      calc (a + tokensOf r (op :: rest)) / window
          = (a + tokensOf r [op] + tokensOf r rest) / window := by rw [tokensOf_cons, Nat.add_assoc]
        _ = (a + tokensOf r [op]) / window + (k.step window op).numTriggers window r rest := ih hcounts hcalls.2
        _ = a / window + k.numTriggers window r (op :: rest) := by rw [hdiv, Controller.numTriggers, Nat.add_assoc]

end Counting

/-- A call that takes the count of `r` from `a` to `a + n` answers as interval counting does exactly if it
does not pass over a multiple of the window; and if no call of `r` does, and none has more tokens than a
window, the passes of `r` are one for each full window, whatever the other requests do. -/
theorem interval_trigger (window : Nat) (hwindow : 0 < window) (ops : List ControllerOp) (r : RequestId) :
    (∀ a n : Nat, decodedSince r ops = some a → 0 < n →
      ∃ answer, ((run (Controller.step window) .init ops).onDecode window r n).1 = .ok answer ∧
        ((answer = true ↔ PassesMultiple window a (a + n)) ↔ EndsOnMultiple window a (a + n))) ∧
    ∀ calls, RegularCalls window r 0 calls →
      (run (Controller.step window) .init (ops ++ [.prefillComplete r])).numTriggers window r calls =
        tokensOf r calls / window := by
  constructor
  · intro a n ha hn
    have hcounts := counts_run window r ops
    rw [ha] at hcounts
    refine ⟨_, hcounts.onDecode hn, ?_⟩
    rw [decide_eq_true_iff]
    exact dvd_iff_passesMultiple hwindow (by omega)
  · intro calls hcalls
    have hcounts := counts_run window r (ops ++ [.prefillComplete r])
    have hstart : decodedSince r (ops ++ [.prefillComplete r]) = some 0 := by
      simp [decodedSince, countAfter]
    rw [hstart] at hcounts
    have htriggers := hcounts.numTriggers hwindow hcalls
    rw [Nat.zero_add, Nat.zero_div, Nat.zero_add] at htriggers
    exact htriggers.symm

/-- A window of four tokens, with two requests in turn. -/
def regularCalls : List ControllerOp :=
  [.decode ['a'] 3, .decode ['b'] 3, .decode ['a'] 1, .decode ['b'] 2, .decode ['a'] 4]

theorem interval_trigger_regularCalls :
    (run (Controller.step 4) .init [.prefillComplete ['b'], .prefillComplete ['a']]).numTriggers 4
    ['a'] regularCalls = 2 :=
  (interval_trigger 4 (by decide) [.prefillComplete ['b']] ['a']).2 regularCalls (by decide)

/-- From three to five tokens the count passes over four: no call triggers, though a window is full. -/
theorem interval_missed :
    PassesMultiple 4 3 (3 + 2) ∧
      ((run (Controller.step 4) .init [.prefillComplete ['a'], .decode ['a'] 3]).onDecode 4 ['a'] 2).1.toOption =
        some false ∧
      (run (Controller.step 4) .init [.prefillComplete ['a']]).numTriggers 4 ['a'] [.decode ['a'] 3, .decode ['a'] 2] ≠
        tokensOf ['a'] [.decode ['a'] 3, .decode ['a'] 2] / 4 := by
  exact ⟨⟨1, by decide, by decide, by decide⟩, by decide, by decide⟩

end KVOffload

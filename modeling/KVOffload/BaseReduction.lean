import Mathlib.Algebra.BigOperators.Group.Finset.Basic

/-! Parallel reductions. A strided loop visits every `step`-th index, so `step` of them with different
starts share out a range. A shuffle-down tree halves the offset at which each lane reads from another;
the lanes that read past the width keep adding their own value, but lane 0 ends with the sum of all.
Row-major positions decode into their coordinates. -/

namespace KVOffload.Base

section Strided

/-- The indices of `for (i = start; i < bound; i += step)`, as far as `fuel` iterations go. -/
def stridedFrom (step bound : Nat) : Nat → Nat → List Nat
  | 0, _ => []
  | fuel + 1, i => if i < bound then i :: stridedFrom step bound fuel (i + step) else []

/-- The indices of `for (i = start; i < bound; i += step)`; with a positive step there are at most `bound`. -/
def strided (step start bound : Nat) : List Nat := stridedFrom step bound bound start

variable {step bound : Nat}

theorem mem_stridedFrom {fuel start i : Nat} :
    i ∈ stridedFrom step bound fuel start ↔ ∃ k < fuel, i = start + k * step ∧ i < bound := by
  induction fuel generalizing start with
  | zero => simp [stridedFrom]
  | succ fuel ih =>
      rw [stridedFrom]
      by_cases hstart : start < bound
      · rw [if_pos hstart, List.mem_cons, ih]
        constructor
        · rintro (rfl | ⟨k, hk, rfl, hi⟩)
          · exact ⟨0, Nat.succ_pos fuel, by simp, hstart⟩
          · exact ⟨k + 1, by omega, by rw [Nat.succ_mul]; omega, hi⟩
        · rintro ⟨k, hk, rfl, hi⟩
          cases k with
          | zero => exact Or.inl (by simp)
          | succ k => exact Or.inr ⟨k, by omega, by rw [Nat.succ_mul]; omega, hi⟩
      · rw [if_neg hstart]
        constructor
        · intro hmem
          cases hmem
        · rintro ⟨k, -, rfl, hi⟩
          omega

theorem nodup_stridedFrom (hstep : 0 < step) (fuel start : Nat) : (stridedFrom step bound fuel start).Nodup := by
  induction fuel generalizing start with
  | zero => exact List.nodup_nil
  | succ fuel ih =>
      rw [stridedFrom]
      split
      · refine List.nodup_cons.mpr ⟨fun hmem => ?_, ih (start + step)⟩
        obtain ⟨k, -, hk, -⟩ := mem_stridedFrom.mp hmem
        omega
      · exact List.nodup_nil

/-- A loop that starts below its step visits one residue class. -/
theorem mem_strided {start i : Nat} (hstart : start < step) :
    i ∈ strided step start bound ↔ i < bound ∧ i % step = start := by
  rw [strided, mem_stridedFrom]
  constructor
  · rintro ⟨k, -, rfl, hi⟩
    exact ⟨hi, by rw [Nat.add_mul_mod_self_right, Nat.mod_eq_of_lt hstart]⟩
  · rintro ⟨hi, rfl⟩
    have hdiv : i / step ≤ i := Nat.div_le_self i step
    refine ⟨i / step, by omega, ?_, hi⟩
    rw [Nat.mul_comm]
    exact (Nat.mod_add_div i step).symm

variable {M : Type} [AddCommMonoid M]

theorem foldl_add_eq (f : Nat → M) (xs : List Nat) (a : M) : xs.foldl (fun s i => s + f i) a = a + (xs.map f).sum := by
  induction xs generalizing a with
  | nil => simp
  | cons x rest ih => rw [List.foldl_cons, ih, List.map_cons, List.sum_cons, add_assoc]

/-- The accumulator of a loop over all indices. -/
theorem foldl_range (f : Nat → M) (n : Nat) :
    (List.range n).foldl (fun s i => s + f i) 0 = ∑ i ∈ Finset.range n, f i := by
  induction n with
  | zero => rfl
  | succ n ih =>
      rw [List.range_succ, List.foldl_append, ih, Finset.sum_range_succ]
      rfl

/-- The accumulator of a strided loop. -/
theorem foldl_strided (f : Nat → M) {start : Nat} (hstart : start < step) :
    (strided step start bound).foldl (fun s i => s + f i) 0 = ∑ i ∈ Finset.range bound with i % step = start, f i := by
  have hnodup : (strided step start bound).Nodup := nodup_stridedFrom (Nat.zero_lt_of_lt hstart) bound start
  rw [foldl_add_eq, zero_add, ← List.sum_toFinset f hnodup]
  apply Finset.sum_congr _ fun _ _ => rfl
  ext i
  rw [List.mem_toFinset, mem_strided hstart, Finset.mem_filter, Finset.mem_range]

/-- Loops with the starts below the step share out the range. -/
theorem sum_residues (hstep : 0 < step) (f : Nat → M) :
    ∑ start ∈ Finset.range step, ∑ i ∈ Finset.range bound with i % step = start, f i = ∑ i ∈ Finset.range bound, f i :=
  Finset.sum_fiberwise_of_maps_to (fun i _ => Finset.mem_range.mpr (Nat.mod_lt i hstep)) f

end Strided

section Shuffle

variable {M : Type} [AddCommMonoid M]

/-- The value a lane receives from the lane `off` above it, or its own if there is none. -/
def shflDown (width off : Nat) (x : Nat → M) (lane : Nat) : M := if lane + off < width then x (lane + off) else x lane

/-- The offsets of `for (off = start; off > 0; off >>= 1)`. -/
def halvings (off : Nat) : List Nat := if 0 < off then off :: halvings (off / 2) else []
termination_by off

/-- Each lane adds what it receives, at every offset of the tree. -/
def shflReduce (width off : Nat) (x : Nat → M) : Nat → M :=
  (halvings off).foldl (fun x off lane => x lane + shflDown width off x lane) x

theorem halvings_pow_succ (k : Nat) : halvings (2 ^ (k + 1)) = 2 ^ (k + 1) :: halvings (2 ^ k) := by
  rw [halvings, if_pos (Nat.two_pow_pos _), Nat.pow_succ, Nat.mul_div_cancel _ Nat.two_pos]

theorem halvings_one : halvings (2 ^ 0) = [1] := by
  rw [halvings, if_pos (Nat.two_pow_pos _), halvings]
  simp

/-- Lane 0 ends with the sum of the lanes below twice the first offset. The induction is on the height of the
tree: after a step the lanes below the offset hold the sums of pairs, and what the others hold is not read. -/
theorem shflReduce_zero {width : Nat} (k : Nat) (hwidth : 2 ^ (k + 1) ≤ width) (x : Nat → M) :
    shflReduce width (2 ^ k) x 0 = ∑ i ∈ Finset.range (2 ^ (k + 1)), x i := by
  induction k generalizing x with
  | zero =>
      have hlane : 0 + 1 < width := by omega
      rw [shflReduce, halvings_one, List.foldl_cons, List.foldl_nil, shflDown, if_pos hlane]
      simp [Finset.sum_range_succ]
  | succ k ih =>
      have hhalf : 2 ^ (k + 1 + 1) = 2 ^ (k + 1) + 2 ^ (k + 1) := by rw [Nat.pow_succ]; omega
      calc shflReduce width (2 ^ (k + 1)) x 0
          = shflReduce width (2 ^ k) (fun lane => x lane + shflDown width (2 ^ (k + 1)) x lane) 0 := by
            rw [shflReduce, halvings_pow_succ, List.foldl_cons]
            rfl
        _ = ∑ i ∈ Finset.range (2 ^ (k + 1)), (x i + shflDown width (2 ^ (k + 1)) x i) := ih (by omega) _
        _ = ∑ i ∈ Finset.range (2 ^ (k + 1)), (x i + x (2 ^ (k + 1) + i)) := by
            apply Finset.sum_congr rfl
            intro i hi
            have hi := Finset.mem_range.mp hi
            rw [shflDown, if_pos (by omega), Nat.add_comm i]
        _ = ∑ i ∈ Finset.range (2 ^ (k + 1 + 1)), x i := by
            rw [Finset.sum_add_distrib, hhalf, Finset.sum_range_add]

end Shuffle

section Radix

variable {B H l b h : Nat}

/-- The coordinates of a row-major position. -/
theorem rowMajor_decode (hb : b < B) (hh : h < H) :
    ((l * B + b) * H + h) % H = h ∧ ((l * B + b) * H + h) / H % B = b ∧ ((l * B + b) * H + h) / H / B = l := by
  have hdiv : ((l * B + b) * H + h) / H = l * B + b := by
    rw [Nat.mul_comm, Nat.mul_add_div (Nat.zero_lt_of_lt hh), Nat.div_eq_of_lt hh, Nat.add_zero]
  refine ⟨?_, ?_, ?_⟩
  · rw [Nat.mul_add_mod_self_right, Nat.mod_eq_of_lt hh]
  · rw [hdiv, Nat.mul_add_mod_self_right, Nat.mod_eq_of_lt hb]
  · rw [hdiv, Nat.mul_comm, Nat.mul_add_div (Nat.zero_lt_of_lt hb), Nat.div_eq_of_lt hb, Nat.add_zero]

/-- The row-major position of a position's coordinates. -/
theorem rowMajor_encode (i : Nat) : (i / H / B * B + i / H % B) * H + i % H = i := by
  rw [Nat.div_add_mod', Nat.div_add_mod']

theorem rowMajor_lt {L : Nat} (hl : l < L) (hb : b < B) (hh : h < H) : (l * B + b) * H + h < L * B * H := by
  have houter : l * B + b < L * B := by
    calc l * B + b < l * B + B := Nat.add_lt_add_left hb _
      _ = (l + 1) * B := (Nat.succ_mul l B).symm
      _ ≤ L * B := Nat.mul_le_mul_right B hl
  calc (l * B + b) * H + h < (l * B + b) * H + H := Nat.add_lt_add_left hh _
    _ = (l * B + b + 1) * H := (Nat.succ_mul _ H).symm
    _ ≤ L * B * H := Nat.mul_le_mul_right H houter

end Radix

end KVOffload.Base

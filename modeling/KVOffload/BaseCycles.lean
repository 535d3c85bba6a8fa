import KVOffload.BaseOrderedDict
import KVOffload.BaseProgram
import Mathlib.Algebra.Group.End
import Mathlib.Data.Finset.Card

/-! A permutation carried out in place. A dictionary says where the content of each position has to go, and its
cycles are followed with swaps: the content of `src` is put where it belongs, what was there comes to `src`, and so on
until `src` has the content that belongs to it. Each swap takes one position out of the permutation that is left. -/

namespace KVOffload.Base

variable {ι σ ε : Type} [DecidableEq ι]

namespace OrderedDict

/-- `d.get(i, i)`: a position that is not listed keeps its content. -/
def dest (d : OrderedDict ι ι) (i : ι) : ι := (d.get? i).getD i

theorem dest_set_self (d : OrderedDict ι ι) (i p : ι) : (d.set i i).dest p = if p = i then p else d.dest p := by
  rw [dest, get?_set]
  split_ifs with h
  · exact h.symm
  · rfl

theorem mem_keys_of_dest_ne {d : OrderedDict ι ι} {p : ι} (h : d.dest p ≠ p) : p ∈ d.keys := by
  by_contra hnot
  apply h
  rw [dest, get?_eq_none_iff.mpr hnot, Option.getD_none]

/-- `{src: dst for src, dst in zip(srcs, dsts)}` -/
def ofZip (srcs dsts : List ι) : OrderedDict ι ι := (srcs.zip dsts).foldl (fun d e => d.set e.1 e.2) empty

section OfZip

variable {srcs dsts : List ι} (hnodup : srcs.Nodup) (hlength : srcs.length = dsts.length)

include hnodup hlength

theorem get?_ofZip {p q : ι} :
    (ofZip srcs dsts).get? p = some q ↔ ∃ k : Nat, srcs[k]? = some p ∧ dsts[k]? = some q := by
  have hfst : (srcs.zip dsts).map Prod.fst = srcs := List.map_fst_zip hlength.le
  rw [ofZip, get?_foldl_set Prod.fst Prod.snd (hfst.symm ▸ hnodup)]
  simp only [get?_empty, reduceCtorEq, and_false, or_false, Prod.exists, List.mem_iff_getElem?,
    List.getElem?_zip_eq_some]
  constructor
  · rintro ⟨_, _, ⟨k, hsrc, hdst⟩, rfl, rfl⟩
    exact ⟨k, hsrc, hdst⟩
  · rintro ⟨k, hsrc, hdst⟩
    exact ⟨p, q, ⟨k, hsrc, hdst⟩, rfl, rfl⟩

theorem mem_keys_ofZip {p : ι} : p ∈ (ofZip srcs dsts).keys ↔ p ∈ srcs := by
  rw [mem_keys_iff]
  simp only [get?_ofZip hnodup hlength, List.mem_iff_getElem?]
  constructor
  · rintro ⟨q, k, hsrc, -⟩
    exact ⟨k, hsrc⟩
  · rintro ⟨k, hsrc⟩
    have hk := hlength ▸ (List.getElem?_eq_some_iff.mp hsrc).1
    exact ⟨dsts[k], k, hsrc, List.getElem?_eq_getElem hk⟩

theorem dest_ofZip {k : Nat} {p q : ι} (hsrc : srcs[k]? = some p) (hdst : dsts[k]? = some q) :
    (ofZip srcs dsts).dest p = q := by
  rw [dest, (get?_ofZip hnodup hlength).mpr ⟨k, hsrc, hdst⟩, Option.getD_some]

theorem dest_ofZip_of_notMem {p : ι} (h : p ∉ srcs) : (ofZip srcs dsts).dest p = p := by
  rw [dest, get?_eq_none_iff.mpr (mt (mem_keys_ofZip hnodup hlength).mp h), Option.getD_none]

end OfZip

/-- Positions sent to the same positions in another order: a permutation. -/
theorem exists_perm_dest_ofZip {srcs dsts : List ι} (hnodup : srcs.Nodup) (hperm : srcs.Perm dsts) :
    ∃ g : Equiv.Perm ι, ∀ p, (ofZip srcs dsts).dest p = g p := by
  have hlength := hperm.length_eq
  have hcases : ∀ p, (∃ k : Nat, srcs[k]? = some p ∧ dsts[k]? = some ((ofZip srcs dsts).dest p)) ∨
      p ∉ srcs ∧ (ofZip srcs dsts).dest p = p := by
    intro p
    by_cases hp : p ∈ srcs
    · obtain ⟨k, hsrc⟩ := List.mem_iff_getElem?.mp hp
      have hk := hlength ▸ (List.getElem?_eq_some_iff.mp hsrc).1
      have hdst : dsts[k]? = some dsts[k] := List.getElem?_eq_getElem hk
      exact .inl ⟨k, hsrc, (dest_ofZip hnodup hlength hsrc hdst).symm ▸ hdst⟩
    · exact .inr ⟨hp, dest_ofZip_of_notMem hnodup hlength hp⟩
  have hinjective : Function.Injective (ofZip srcs dsts).dest := by
    intro p p' heq
    rcases hcases p with ⟨k, hsrc, hdst⟩ | ⟨hp, hdest⟩ <;> rcases hcases p' with ⟨k', hsrc', hdst'⟩ | ⟨hp', hdest'⟩
    · have hkk : k = k' :=
        (List.getElem?_inj (List.getElem?_eq_some_iff.mp hdst).1 (hperm.nodup hnodup)).mp (by rw [hdst, hdst', heq])
      rw [hkk, hsrc'] at hsrc
      exact (Option.some.inj hsrc).symm
    · -- The image of a listed position is listed.
      rw [heq, hdest'] at hdst
      exact absurd (hperm.mem_iff.mpr (List.mem_iff_getElem?.mpr ⟨k, hdst⟩)) hp'
    · rw [← heq, hdest] at hdst'
      exact absurd (hperm.mem_iff.mpr (List.mem_iff_getElem?.mpr ⟨k', hdst'⟩)) hp
    · rw [← hdest, ← hdest', heq]
  have hsurjective : Function.Surjective (ofZip srcs dsts).dest := by
    intro q
    by_cases hq : q ∈ dsts
    · obtain ⟨k, hdst⟩ := List.mem_iff_getElem?.mp hq
      have hk := hlength ▸ (List.getElem?_eq_some_iff.mp hdst).1
      exact ⟨srcs[k], dest_ofZip hnodup hlength (List.getElem?_eq_getElem hk) hdst⟩
    · exact ⟨q, dest_ofZip_of_notMem hnodup hlength (mt hperm.mem_iff.mp hq)⟩
  exact ⟨Equiv.ofBijective _ ⟨hinjective, hsurjective⟩, fun _ => rfl⟩

end OrderedDict

section Programs

variable (swap : ι → ι → Eff σ ε Unit) (stuck : ε)

/-- `while src != dst`: raises `stuck` if the fuel does not last. -/
def chase (src : ι) : Nat → ι → OrderedDict ι ι → Eff σ ε (OrderedDict ι ι)
  | 0, dst, d => if src = dst then pure d else Eff.raise stuck
  | fuel + 1, dst, d =>
      if src = dst then pure d
      else do
        swap src dst
        chase src fuel (d.dest dst) (d.set dst dst)

/-- `for src in d`, with `d` edited on the way. -/
def followCycles (fuel : Nat) : List ι → OrderedDict ι ι → Eff σ ε Unit
  | [], _ => pure ()
  | src :: rest, d => do
      let d ← chase swap stuck src fuel (d.dest src) d
      followCycles fuel rest d

end Programs

section Rules

open Equiv

variable {swap : ι → ι → Eff σ ε Unit} {stuck : ε} {P : Perm ι → σ → Prop} {g : Perm ι}

/-- `P g` says that the content of each position `p` still has to go to `g p`. A swap that puts one content in its
place leaves the rest of the permutation to be done. -/
def Settles (swap : ι → ι → Eff σ ε Unit) (P : Perm ι → σ → Prop) : Prop :=
  ∀ g src s, g src ≠ src → P g s →
    Eff.wp (swap src (g src)) (fun _ s' => P (g * Equiv.swap src (g src)) s') (fun _ _ => False) s

/-- The positions that are left, of those that can be moved at all. -/
def unsettled (positions : Finset ι) (g : Perm ι) : Finset ι := positions.filter fun p => g p ≠ p

section Swap

variable {src : ι}

theorem apply_mul_swap (g : Perm ι) (src p : ι) :
    (g * Equiv.swap src (g src)) p = if p = src then g (g src) else if p = g src then p else g p := by
  rw [Perm.mul_apply]
  split_ifs with hleft hright
  · rw [hleft, swap_apply_left]
  · rw [hright, swap_apply_right]
  · rw [swap_apply_of_ne_of_ne hleft hright]

variable (hsrc : g src ≠ src)

include hsrc

omit [DecidableEq ι] in
theorem apply_dst_ne : g (g src) ≠ g src := fun h => hsrc (g.injective h)

theorem ne_of_mul_swap {p : ι} (h : (g * Equiv.swap src (g src)) p ≠ p) : g p ≠ p := by
  rw [apply_mul_swap] at h
  split_ifs at h with hleft hright
  · rw [hleft]
    exact hsrc
  · exact absurd rfl h
  · exact h

theorem card_unsettled_mul_swap {positions : Finset ι} (hmoved : ∀ p, g p ≠ p → p ∈ positions) :
    (unsettled positions (g * Equiv.swap src (g src))).card < (unsettled positions g).card := by
  apply Finset.card_lt_card
  rw [Finset.ssubset_iff_of_subset fun p hp => ?_]
  · have hdst := apply_dst_ne hsrc
    refine ⟨g src, Finset.mem_filter.mpr ⟨hmoved _ hdst, hdst⟩, fun hmem => (Finset.mem_filter.mp hmem).2 ?_⟩
    rw [apply_mul_swap, if_neg hsrc, if_pos rfl]
  · obtain ⟨hpos, hne⟩ := Finset.mem_filter.mp hp
    exact Finset.mem_filter.mpr ⟨hpos, ne_of_mul_swap hsrc hne⟩

end Swap

/-- What the dictionary knows of the permutation that is left: nothing about positions that are settled. -/
structure Knows (settled : List ι) (d : OrderedDict ι ι) (g : Perm ι) : Prop where
  dest : ∀ p, p ∉ settled → d.dest p = g p
  fixed : ∀ p ∈ settled, g p = p

theorem wp_chase (hswap : Settles swap P) {positions : Finset ι} {src : ι} {settled : List ι} {fuel : Nat}
    {d : OrderedDict ι ι} {s : σ} (hP : P g s) (hmoved : ∀ p, g p ≠ p → p ∈ positions)
    (hdest : ∀ p, p ≠ src → p ∉ settled → d.dest p = g p) (hfixed : ∀ p ∈ settled, g p = p)
    (hfuel : (unsettled positions g).card ≤ fuel) :
    Eff.wp (chase swap stuck src fuel (g src) d)
      (fun d' s' => ∃ g' : Perm ι, P g' s' ∧ Knows (src :: settled) d' g' ∧ ∀ p, g' p ≠ p → g p ≠ p)
      (fun _ _ => False) s := by
  induction fuel generalizing g d s with
  | zero =>
      have hstay : g src = src := by
        by_contra hne
        have hmem : src ∈ unsettled positions g := Finset.mem_filter.mpr ⟨hmoved _ hne, hne⟩
        exact absurd (Finset.card_pos.mpr ⟨src, hmem⟩) (by omega)
      rw [chase, if_pos hstay.symm, Eff.wp_pure]
      refine ⟨g, hP, ⟨fun p hp => ?_, fun p hp => ?_⟩, fun _ h => h⟩
      · exact hdest p (List.ne_of_not_mem_cons hp) (List.not_mem_of_not_mem_cons hp)
      · rcases List.mem_cons.mp hp with rfl | hp
        · exact hstay
        · exact hfixed p hp
  | succ fuel ih =>
      rw [chase]
      by_cases hstay : src = g src
      · rw [if_pos hstay, Eff.wp_pure]
        refine ⟨g, hP, ⟨fun p hp => ?_, fun p hp => ?_⟩, fun _ h => h⟩
        · exact hdest p (List.ne_of_not_mem_cons hp) (List.not_mem_of_not_mem_cons hp)
        · rcases List.mem_cons.mp hp with rfl | hp
          · exact hstay.symm
          · exact hfixed p hp
      · have hsrc : g src ≠ src := Ne.symm hstay
        have hdst := apply_dst_ne hsrc
        have hcard := card_unsettled_mul_swap hsrc hmoved
        rw [if_neg hstay, Eff.wp_bind]
        refine Eff.wp_mono (hswap g src s hsrc hP) (fun _ s' hP' => ?_) fun _ _ hf => hf
        -- What comes to `src` has to go where the content of `dst` had to go.
        have hnext : d.dest (g src) = (g * Equiv.swap src (g src)) src := by
          rw [apply_mul_swap, if_pos rfl]
          exact hdest _ hsrc fun hmem => hdst (hfixed _ hmem)
        rw [hnext]
        refine Eff.wp_mono (ih hP' (fun p hp => hmoved p (ne_of_mul_swap hsrc hp)) (fun p hne hp => ?_) (fun p hp => ?_)
          (by omega)) (fun d' s'' hend => ?_) fun _ _ hf => hf
        · rw [OrderedDict.dest_set_self, apply_mul_swap, if_neg hne, hdest p hne hp]
        · by_contra hmoves
          exact ne_of_mul_swap hsrc hmoves (hfixed p hp)
        · obtain ⟨g', hP'', hknows, hback⟩ := hend
          exact ⟨g', hP'', hknows, fun p hp => ne_of_mul_swap hsrc (hback p hp)⟩

/-- As many rounds as there are entries are always enough, and nothing is left to be done. -/
theorem wp_followCycles (hswap : Settles swap P) {d : OrderedDict ι ι} {fuel : Nat} {s : σ} (hP : P g s)
    (hdest : ∀ p, d.dest p = g p) (hfuel : d.keys.length ≤ fuel) :
    Eff.wp (followCycles swap stuck fuel d.keys d) (fun _ s' => P 1 s') (fun _ _ => False) s := by
  have hlisted : ∀ p, g p ≠ p → p ∈ d.keys := fun p hp => OrderedDict.mem_keys_of_dest_ne (hdest p ▸ hp)
  suffices hloop : ∀ rest settled g' d' s', d.keys = settled ++ rest → P g' s' → Knows settled.reverse d' g' →
      (∀ p, g' p ≠ p → g p ≠ p) →
      Eff.wp (followCycles swap stuck fuel rest d') (fun _ s' => P 1 s') (fun _ _ => False) s' from
    hloop d.keys [] g d s rfl hP ⟨fun p _ => hdest p, nofun⟩ fun _ h => h
  intro rest
  induction rest with
  | nil =>
      intro settled g' d' s' hkeys hP' hknows hback
      have hone : g' = 1 := by
        ext p
        by_contra hne
        have hmem : p ∈ settled := by
          rw [List.append_nil] at hkeys
          exact hkeys ▸ hlisted p (hback p hne)
        exact hne (hknows.fixed p (List.mem_reverse.mpr hmem))
      rw [followCycles, Eff.wp_pure, ← hone]
      exact hP'
  | cons src rest ih =>
      intro settled g' d' s' hkeys hP' hknows hback
      have hsrc : d'.dest src = g' src := by
        refine hknows.dest src fun hmem => ?_
        have hnodup : (settled ++ src :: rest).Nodup := hkeys ▸ d.nodup
        exact (List.nodup_append.mp hnodup).2.2 src (List.mem_reverse.mp hmem) src List.mem_cons_self rfl
      have hfuel' : (unsettled d.keys.toFinset g').card ≤ fuel :=
        calc (unsettled d.keys.toFinset g').card ≤ d.keys.toFinset.card := Finset.card_filter_le _ _
          _ ≤ d.keys.length := List.toFinset_card_le _
          _ ≤ fuel := hfuel
      rw [followCycles, Eff.wp_bind, hsrc]
      refine Eff.wp_mono (wp_chase hswap hP' (fun p hp => List.mem_toFinset.mpr (hlisted p (hback p hp)))
        (fun p _ hp => hknows.dest p hp) hknows.fixed hfuel') (fun d'' s'' hend => ?_) fun _ _ hf => hf
      obtain ⟨g'', hP'', hknows', hback'⟩ := hend
      refine ih (settled ++ [src]) g'' d'' s'' (by rw [hkeys, List.append_assoc, List.singleton_append]) hP'' ?_
        fun p hp => hback p (hback' p hp)
      rwa [List.reverse_append, List.reverse_singleton, List.singleton_append]

end Rules

end KVOffload.Base

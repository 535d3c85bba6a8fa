import KVOffload.BaseScatter
import KVOffload.StoreBacking

/-! The combined per-layer cache. A GPU page has shape `[H, N, 2C]`, keys in the first half of the last
axis and values in the second; a CPU slot has shape `[2, N, H, C]`. The store layout splits and
transposes a page, the fetch layout transposes and concatenates it back, and the two are inverse.
A copy that fails may leave anything in the slots or pages it was writing to. -/

namespace KVOffload
open Base

/-- A GPU page: head, row, then keys followed by values. -/
abbrev Page (α : Type) (H N C : Nat) := Fin H → Fin N → Fin (2 * C) → α

/-- A CPU slot: keys or values, row, head, channel. -/
abbrev Slab (α : Type) (H N C : Nat) := Fin 2 → Fin N → Fin H → Fin C → α

section Layout

variable {α : Type} {H N C : Nat}

/-- `stack([page[..., :C].permute(1, 0, 2), page[..., C:].permute(1, 0, 2)])`. -/
def storeLayout (page : Page α H N C) : Slab α H N C := fun kv n h c =>
  if kv = 0 then page h n ⟨c, by omega⟩ else page h n ⟨C + c, by omega⟩

/-- `cat([slab[0].permute(1, 0, 2), slab[1].permute(1, 0, 2)], dim=-1)`. -/
def fetchLayout (slab : Slab α H N C) : Page α H N C := fun h n j =>
  if hj : j < C then slab 0 n h ⟨j, hj⟩ else slab 1 n h ⟨j - C, by omega⟩

theorem fetchLayout_storeLayout (page : Page α H N C) : fetchLayout (storeLayout page) = page := by
  funext h n j
  by_cases hj : j < C
  · simp only [fetchLayout, storeLayout, hj, dite_true, if_true]
  · have hsub : C + (j.val - C) = j.val := by omega
    simp only [fetchLayout, storeLayout, hj, dite_false, hsub]
    rfl

end Layout

/-- The GPU cache and the CPU cache, by layer and page or slot number. -/
structure Memory (α : Type) (L H N C : Nat) where
  gpu : Fin L → Nat → Page α H N C
  cpu : Fin L → Nat → Slab α H N C

namespace Memory

variable {α : Type} {L H N C : Nat}

/-- The batched store: per layer one gather of the pages and one scatter into the slots. -/
def store (mem : Memory α L H N C) (pages slots : List Nat) : Memory α L H N C where
  gpu := mem.gpu
  cpu layer := indexCopy (mem.cpu layer) (slots.zip (pages.map fun page => storeLayout (mem.gpu layer page)))

/-- A store that failed: the slots hold whatever `torn` has there. -/
def storeTorn (torn mem : Memory α L H N C) (_ slots : List Nat) : Memory α L H N C where
  gpu := mem.gpu
  cpu layer c := if c ∈ slots then torn.cpu layer c else mem.cpu layer c

/-- The batched fetch: per layer one gather of the slots and one scatter into the pages. -/
def fetch (mem : Memory α L H N C) (slots pages : List Nat) : Memory α L H N C where
  gpu layer := indexCopy (mem.gpu layer) (pages.zip (slots.map fun c => fetchLayout (mem.cpu layer c)))
  cpu := mem.cpu

/-- A fetch that failed: the pages hold whatever `torn` has there. -/
def fetchTorn (torn mem : Memory α L H N C) (_ pages : List Nat) : Memory α L H N C where
  gpu layer page := if page ∈ pages then torn.gpu layer page else mem.gpu layer page
  cpu := mem.cpu

end Memory

section Device

variable {α ν S : Type} [LinearOrder S] {L H N C : Nat}

/-- A runtime whose `argsort` is stable. -/
def stableRuntime {μ φ : Type} (stats : μ → Nat → ν) (storeFault : Nat → Option (StoreFault φ))
    (fetchFault : Nat → Option φ) (scoreFault : Nat → Bool) : Runtime μ φ ν S where
  stats := stats
  storeFault := storeFault
  fetchFault := fetchFault
  scoreFault := scoreFault
  argsortDescending l := (l.insertionSort fun x y => y.2 ≤ x.2).map Prod.fst
  argsortDescending_perm l := (List.perm_insertionSort _ l).map Prod.fst
  argsortDescending_sorted refs score := by
    have hsorted := List.pairwise_insertionSort (fun x y : BlockRef × S => y.2 ≤ x.2)
      (refs.map fun ref => (ref, score ref))
    rw [List.pairwise_map]
    refine List.Pairwise.imp_of_mem (fun {x y} hx hy hle => ?_) hsorted
    obtain ⟨x', -, rfl⟩ := List.mem_map.mp ((List.perm_insertionSort _ _).mem_iff.mp hx)
    obtain ⟨y', -, rfl⟩ := List.mem_map.mp ((List.perm_insertionSort _ _).mem_iff.mp hy)
    exact hle

/-- The device over the combined cache. -/
def combinedDevice (runtime : Runtime (Memory α L H N C) (Memory α L H N C) ν S) :
    Device (Memory α L H N C) (Memory α L H N C) ν S where
  toRuntime := runtime
  store := Memory.store
  storeTorn := Memory.storeTorn
  fetch := Memory.fetch
  fetchTorn := Memory.fetchTorn

variable (runtime : Runtime (Memory α L H N C) (Memory α L H N C) ν S)

/-- The bytes a block had when it was last offloaded, by layer. -/
abbrev Recorded (α : Type) (L H N C : Nat) := BlockRef → Option (Fin L → Page α H N C)

/-- CPU slot `c` gives back the recorded bytes of `ref`, and so does the staging page if there is one. -/
structure HoldsRecorded (saved : Recorded α L H N C) (mem : Memory α L H N C) (ref : BlockRef) (c : Nat)
    (page : Option Nat) : Prop where
  recorded : (saved ref).isSome
  slot : ∀ bytes ∈ saved ref, ∀ layer, fetchLayout (mem.cpu layer c) = bytes layer
  staged : ∀ bytes ∈ saved ref, ∀ p ∈ page, ∀ layer, mem.gpu layer p = bytes layer

/-- The copies move recorded bytes faithfully, as long as nobody writes the slots in between. -/
def recordedBacking (saved : Recorded α L H N C) : Backing (combinedDevice runtime) where
  holds := HoldsRecorded saved
  source mem ref page := (saved ref).isSome ∧ ∀ bytes ∈ saved ref, ∀ layer, mem.gpu layer page = bytes layer
  holds_none mem ref c page h := ⟨h.recorded, h.slot, by simp⟩
  holds_store mem ref c page pages slots hc h := by
    refine ⟨h.recorded, fun bytes hbytes layer => ?_, h.staged⟩
    rw [← h.slot bytes hbytes layer]
    exact congrArg fetchLayout (indexCopy_zip_of_not_mem hc _ _)
  holds_storeTorn torn mem ref c page pages slots hc h := by
    refine ⟨h.recorded, fun bytes hbytes layer => ?_, h.staged⟩
    rw [← h.slot bytes hbytes layer]
    exact congrArg fetchLayout (if_neg hc)
  holds_fetch mem ref c page slots pages hp h := by
    refine ⟨h.recorded, h.slot, fun bytes hbytes p hpage layer => ?_⟩
    rw [← h.staged bytes hbytes p hpage layer]
    exact indexCopy_zip_of_not_mem (hp p hpage) _ _
  holds_fetchTorn torn mem ref c page slots pages hp h := by
    refine ⟨h.recorded, h.slot, fun bytes hbytes p hpage layer => ?_⟩
    rw [← h.staged bytes hbytes p hpage layer]
    exact if_neg (hp p hpage)
  holds_of_store mem ref page slot pages slots hnodup hzip hsource := by
    refine ⟨hsource.1, fun bytes hbytes layer => ?_, by simp⟩
    have hslot : (Memory.store mem pages slots).cpu layer slot = storeLayout (mem.gpu layer page) :=
      indexCopy_zip_of_mem hnodup hzip (fun page => storeLayout (mem.gpu layer page)) _
    rw [← hsource.2 bytes hbytes layer, ← fetchLayout_storeLayout (mem.gpu layer page), ← hslot]
    rfl
  holds_of_fetch mem ref c p slots pages hnodup hzip h := by
    refine ⟨h.recorded, h.slot, fun bytes hbytes p' hp' layer => ?_⟩
    obtain rfl : p = p' := Option.some.inj hp'
    rw [← h.slot bytes hbytes layer]
    exact indexCopy_zip_of_mem hnodup hzip (fun c => fetchLayout (mem.cpu layer c)) _

end Device

end KVOffload

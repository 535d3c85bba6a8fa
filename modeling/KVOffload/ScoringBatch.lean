import KVOffload.KernelNorms
import KVOffload.ScoringModel
import KVOffload.StoreOffload

/-! Scoring a batch against scoring its pages one at a time. The norms of a batch are, row by row, the norms
of its pages, whichever path computes them, because gathering commutes with everything done to a layer and
with the mean over the layers. So a batch hands the scorer the same observations in the same order, and the
decayed updates compose. -/

namespace KVOffload
open Base

variable {R : Type} [Field R]

section Gather

/-- The mean of the rows that the layers have for one page. -/
def meanRow : List (List R) → List R
  | [] => []
  | row :: rest => (rest.foldl addRows row).map fun x => x / ((rest.length + 1 : Nat) : R)

theorem addMatrices_map {β : Type} (f g : β → List R) (xs : List β) :
    addMatrices (xs.map f) (xs.map g) = xs.map fun x => addRows (f x) (g x) := by
  rw [addMatrices, List.zipWith_map, List.zipWith_self]

theorem foldl_addMatrices_map {β γ : Type} (f : γ → β → List R) (g : β → List R) (layers : List γ) (xs : List β) :
    (layers.map fun l => xs.map (f l)).foldl addMatrices (xs.map g) =
      xs.map fun x => (layers.map fun l => f l x).foldl addRows (g x) := by
  induction layers generalizing g with
  | nil => rfl
  | cons l rest ih =>
      rw [List.map_cons, List.foldl_cons, addMatrices_map, ih]
      rfl

/-- The mean over the layers of gathered rows is the gather of the means. -/
theorem stackMean_map {β γ : Type} {f : γ → β → List R} {layers : List γ} (hne : layers ≠ []) (xs : List β)
    {width : Nat} (hwidth : ∀ l ∈ layers, ∀ x, (f l x).length = width) :
    stackMean (layers.map fun l => xs.map (f l)) = .ok (xs.map fun x => meanRow (layers.map fun l => f l x)) := by
  cases layers with
  | nil => exact absurd rfl hne
  | cons l rest =>
      have hlengths : ∀ l' ∈ l :: rest, (xs.map (f l')).map List.length = xs.map fun _ => width := by
        intro l' hl'
        rw [List.map_map]
        apply List.map_congr_left
        intro x _
        exact hwidth l' hl' x
      rw [List.map_cons, stackMean, if_pos]
      · rw [foldl_addMatrices_map, List.map_map, List.length_map]
        congr 1
        apply List.map_congr_left
        intro x _
        rw [Function.comp_apply, List.map_cons, meanRow, List.length_map]
      · intro m hm
        obtain ⟨l', hl', rfl⟩ := List.mem_map.mp hm
        rw [hlengths l' (List.mem_cons_of_mem l hl'), hlengths l List.mem_cons_self]

end Gather

section Fused

variable (sqrt : R → R) (mem : Int → R) {first : Tensor4} {caches : List Tensor4} (pages : List Nat)

/-- A cache laid out like the first one is the tensor the kernels address. -/
theorem layer_fusedLaunch (heven : first.size3 % 2 = 0) {x : Tensor4} (hx : first.sameLayout x = true) :
    (fusedLaunch first caches pages).layer first.size0 x.ptr = x := by
  simp only [Tensor4.sameLayout, Bool.and_eq_true, decide_eq_true_iff] at hx
  obtain ⟨⟨⟨⟨⟨⟨⟨h0, h1⟩, h2⟩, h3⟩, hs0⟩, hs1⟩, hs2⟩, hs3⟩ := hx
  have hwidth : 2 * (first.size3 / 2) = x.size3 := by omega
  cases x
  simp only [NormLaunch.layer, fusedLaunch, Tensor4.mk.injEq, true_and]
  exact ⟨h0.symm, h1.symm, h2.symm, hwidth, hs0.symm, hs1.symm, hs2.symm, hs3.symm⟩

/-- An output that holds the mean norms is, layer by layer, the gather of the pages' norms. -/
theorem map_outRows_fusedLaunch (heven : first.size3 % 2 = 0) (hsame : ∀ x ∈ caches, first.sameLayout x = true)
    (shift : Nat) (out : Nat → R)
    (hout : ∀ l b h, l < (fusedLaunch first caches pages).layerPtrs.length →
      b < (fusedLaunch first caches pages).numBlocks →
      h < (fusedLaunch first caches pages).numHeads →
      out ((l * (fusedLaunch first caches pages).numBlocks + b) * (fusedLaunch first caches pages).numHeads + h) =
        meanNorm sqrt mem (fusedLaunch first caches pages) shift ((fusedLaunch first caches pages).base l b h)) :
    (List.range (fusedLaunch first caches pages).layerPtrs.length).map (outRows (fusedLaunch first caches pages) out) =
      caches.map fun x => pages.map (pageNorms sqrt mem .hnd (x.lastSlice shift (first.size3 / 2))) := by
  have hlength : (fusedLaunch first caches pages).layerPtrs.length = caches.length := List.length_map _
  apply List.ext_getElem
  · rw [List.length_map, List.length_range, List.length_map, hlength]
  · intro l hl hl'
    rw [List.length_map] at hl'
    have hptr : (fusedLaunch first caches pages).layerPtrs[l]? = some caches[l].ptr := by
      rw [fusedLaunch, List.getElem?_map, List.getElem?_eq_getElem hl']
      rfl
    rw [List.getElem_map, List.getElem_range, List.getElem_map,
      outRows_eq sqrt mem _ first.size0 shift out hptr fun b h hb hh => hout l b h (by rw [hlength]; exact hl') hb hh,
      layer_fusedLaunch pages heven (hsame _ (List.getElem_mem hl'))]
    rfl

/-- Both kernels give the gather of the pages' norms. -/
theorem fusedNorms_eq (fused : FusedScorer R) (heven : first.size3 % 2 = 0)
    (hsame : ∀ x ∈ caches, first.sameLayout x = true) :
    fusedNorms fused sqrt mem (fusedLaunch first caches pages) =
      (caches.map fun x => pages.map (pageNorms sqrt mem .hnd (x.lastSlice 0 (first.size3 / 2))),
        caches.map fun x => pages.map (pageNorms sqrt mem .hnd (x.lastSlice (first.size3 / 2) (first.size3 / 2)))) := by
  have horder := (fused.order (fusedLaunch first caches pages).grid).property
  unfold fusedNorms
  cases fused.impl with
  | cuda =>
      apply Prod.ext
      · apply map_outRows_fusedLaunch sqrt mem pages heven hsame 0
        intro l b h hl hb hh
        exact indexCopy_cudaWrites sqrt mem _ 0 horder fused.fresh hl hb hh
      · apply map_outRows_fusedLaunch sqrt mem pages heven hsame (first.size3 / 2)
        intro l b h hl hb hh
        exact indexCopy_cudaWrites sqrt mem _ _ horder fused.fresh hl hb hh
  | triton =>
      apply Prod.ext
      · apply map_outRows_fusedLaunch sqrt mem pages heven hsame 0
        intro l b h hl hb hh
        exact (tritonOut_eq sqrt mem _ horder fused.fresh hl hb hh).1
      · apply map_outRows_fusedLaunch sqrt mem pages heven hsame (first.size3 / 2)
        intro l b h hl hb hh
        exact (tritonOut_eq sqrt mem _ horder fused.fresh hl hb hh).2

end Fused

def Tensor4.shape (x : Tensor4) : Nat × Nat × Nat × Nat := (x.size0, x.size1, x.size2, x.size3)

variable [LinearOrder R] {sqrt : R → R} {mem : Int → R} {manager : ScoringManager R}

/-- Layers of one shape, all combined or all separate. -/
structure LayersOfOneShape (manager : ScoringManager R) (shape : Nat × Nat × Nat × Nat) : Prop where
  layers_ne : manager.layers ≠ []
  kShape : ∀ layer ∈ manager.layers, layer.kCache.shape = shape
  vShape : ∀ layer ∈ manager.layers, layer.vCache.shape = shape
  format : (∀ layer ∈ manager.layers, ∃ cache, layer = .combined cache) ∨
    ∀ layer ∈ manager.layers, ∃ k v, layer = .separate k v

/-- Where a fused scorer is there, the caches have the layout it is made for: keys and values of one width, and
the layers laid out alike. -/
def FusedLayout (manager : ScoringManager R) : Prop :=
  manager.fused.isSome → ∀ first rest, manager.layers = .combined first :: rest →
    first.size3 % 2 = 0 ∧ ∀ layer ∈ rest, first.stride3 = 1 → first.sameLayout layer.kCache = true

section Rows

variable (sqrt mem manager)

/-- The key norms of a page in one layer, by head. -/
def kRow (layer : LayerCache) (page : Nat) : List R :=
  match layer with
  | .combined cache => pageNorms sqrt mem .hnd (cache.lastSlice 0 (cache.size3 / 2)) page
  | .separate k _ => pageNorms sqrt mem manager.kvLayout k page

/-- The value norms of a page in one layer, by head. -/
def vRow (layer : LayerCache) (page : Nat) : List R :=
  match layer with
  | .combined cache => pageNorms sqrt mem .hnd (cache.lastSlice (cache.size3 / 2) (cache.size3 - cache.size3 / 2)) page
  | .separate _ v => pageNorms sqrt mem manager.kvLayout v page

/-- In a combined cache of even width the two halves are as wide as the first layer's. -/
theorem rows_of_sameLayout {first cache : Tensor4} (heven : first.size3 % 2 = 0)
    (hsame : first.sameLayout cache = true) :
    kRow sqrt mem manager (.combined cache) = pageNorms sqrt mem .hnd (cache.lastSlice 0 (first.size3 / 2)) ∧
      vRow sqrt mem manager (.combined cache) =
        pageNorms sqrt mem .hnd (cache.lastSlice (first.size3 / 2) (first.size3 / 2)) := by
  simp only [Tensor4.sameLayout, Bool.and_eq_true, decide_eq_true_iff] at hsame
  have hwidth : cache.size3 = first.size3 := hsame.1.1.1.1.2
  have hhalf : first.size3 - first.size3 / 2 = first.size3 / 2 := by omega
  constructor
  · funext page
    simp only [kRow, hwidth]
  · funext page
    simp only [vRow, hwidth, hhalf]

/-- The norms of a page, averaged over the layers. -/
def meanKRow (page : Nat) : List R := meanRow (manager.layers.map fun layer => kRow sqrt mem manager layer page)

def meanVRow (page : Nat) : List R := meanRow (manager.layers.map fun layer => vRow sqrt mem manager layer page)

/-- The score a page is observed with. -/
def pageScore (page : Nat) : R :=
  manager.scorer.rowScore (meanVRow sqrt mem manager page) (meanKRow sqrt mem manager page)

variable {sqrt mem manager} {shape : Nat × Nat × Nat × Nat} (hshape : LayersOfOneShape manager shape)
include hshape

/-- All layers have one number of heads, in keys and in values. -/
theorem LayersOfOneShape.exists_width (sqrt : R → R) (mem : Int → R) :
    ∃ width, ∀ layer ∈ manager.layers, ∀ page,
      (kRow sqrt mem manager layer page).length = width ∧ (vRow sqrt mem manager layer page).length = width := by
  obtain ⟨pages, size1, size2, size3⟩ := shape
  have hlength : ∀ (layout : KvLayout) (x : Tensor4) (page : Nat),
      (pageNorms sqrt mem layout x page).length = layout.numHeads x := by
    intro layout x page
    rw [pageNorms, List.length_map, List.length_range]
  rcases hshape.format with hcombined | hseparate
  · refine ⟨size1, fun layer hlayer page => ?_⟩
    obtain ⟨cache, rfl⟩ := hcombined layer hlayer
    have hsize := hshape.kShape _ hlayer
    simp only [LayerCache.kCache, Tensor4.shape, Prod.mk.injEq] at hsize
    rw [kRow, vRow, hlength, hlength]
    exact ⟨hsize.2.1, hsize.2.1⟩
  · refine ⟨manager.kvLayout.numHeads ⟨0, pages, size1, size2, size3, 0, 0, 0, 0⟩, fun layer hlayer page => ?_⟩
    obtain ⟨k, v, rfl⟩ := hseparate layer hlayer
    have hk := hshape.kShape _ hlayer
    have hv := hshape.vShape _ hlayer
    simp only [LayerCache.kCache, LayerCache.vCache, Tensor4.shape, Prod.mk.injEq] at hk hv
    rw [kRow, vRow, hlength, hlength]
    cases manager.kvLayout with
    | nhd => exact ⟨hk.2.2.1, hv.2.2.1⟩
    | hnd => exact ⟨hk.2.1, hv.2.1⟩

/-- A fused scorer in use means combined layers, laid out alike. -/
theorem exists_first_of_fusedScorerOk (hfused : FusedLayout manager) {fused : FusedScorer R}
    (hok : fusedScorerOk manager = some fused) :
    ∃ first rest, manager.layers = .combined first :: rest ∧ first.size3 % 2 = 0 ∧ first.stride3 = 1 ∧
      ∀ layer ∈ manager.layers, ∃ cache, layer = .combined cache ∧ first.sameLayout cache = true := by
  unfold fusedScorerOk at hok
  split at hok
  · rename_i fused' first hsome hhead
    obtain ⟨rest, hlayers⟩ := List.head?_eq_some_iff.mp hhead
    by_cases hstride : first.stride3 = 1
    · obtain ⟨heven, hsame⟩ := hfused (by rw [hsome]; rfl) first rest hlayers
      refine ⟨first, rest, hlayers, heven, hstride, fun layer hlayer => ?_⟩
      have hcombined : ∃ cache, layer = .combined cache := by
        rcases hshape.format with hcombined | hseparate
        · exact hcombined layer hlayer
        · obtain ⟨k, v, heq⟩ := hseparate (.combined first) (by rw [hlayers]; exact List.mem_cons_self)
          cases heq
      obtain ⟨cache, rfl⟩ := hcombined
      refine ⟨cache, rfl, ?_⟩
      rw [hlayers, List.mem_cons] at hlayer
      rcases hlayer with heq | hrest
      · obtain rfl := LayerCache.combined.inj heq
        simp [Tensor4.sameLayout, hstride]
      · exact hsame (.combined cache) hrest hstride
    · rw [if_neg hstride] at hok
      cases hok
  · cases hok

/-- The fused norms of a batch, layer by layer, are the rows of its pages. -/
theorem scoreBlocksFused_eq (sqrt : R → R) (mem : Int → R) (hfused : FusedLayout manager) {fused : FusedScorer R}
    (hok : fusedScorerOk manager = some fused) (pages : List Nat) :
    scoreBlocksFused fused sqrt mem (manager.layers.map (·.kCache)) pages =
      .ok (manager.layers.map fun layer => pages.map (kRow sqrt mem manager layer),
        manager.layers.map fun layer => pages.map (vRow sqrt mem manager layer)) := by
  obtain ⟨first, rest, hlayers, heven, hstride, hall⟩ := exists_first_of_fusedScorerOk hshape hfused hok
  have hsame : ∀ x ∈ manager.layers.map (·.kCache), first.sameLayout x = true := by
    intro x hx
    obtain ⟨layer, hlayer, rfl⟩ := List.mem_map.mp hx
    obtain ⟨cache, rfl, hcache⟩ := hall layer hlayer
    exact hcache
  have hrows : ∀ layer ∈ manager.layers,
      kRow sqrt mem manager layer = pageNorms sqrt mem .hnd (layer.kCache.lastSlice 0 (first.size3 / 2)) ∧
        vRow sqrt mem manager layer =
          pageNorms sqrt mem .hnd (layer.kCache.lastSlice (first.size3 / 2) (first.size3 / 2)) := by
    intro layer hlayer
    obtain ⟨cache, rfl, hcache⟩ := hall layer hlayer
    exact rows_of_sameLayout sqrt mem manager heven hcache
  have hmismatch : (manager.layers.map (·.kCache)).findIdx? (fun x => !first.sameLayout x) = none := by
    rw [List.findIdx?_eq_none_iff]
    intro x hx
    rw [hsame x hx]
    rfl
  have hgather : fusedNorms fused sqrt mem (fusedLaunch first (manager.layers.map (·.kCache)) pages) =
      (manager.layers.map fun layer => pages.map (kRow sqrt mem manager layer),
        manager.layers.map fun layer => pages.map (vRow sqrt mem manager layer)) := by
    rw [fusedNorms_eq sqrt mem pages fused heven hsame, List.map_map, List.map_map]
    apply Prod.ext
    · apply List.map_congr_left
      intro layer hlayer
      rw [(hrows layer hlayer).1]
      rfl
    · apply List.map_congr_left
      intro layer hlayer
      rw [(hrows layer hlayer).2]
      rfl
  have hcaches : manager.layers.map (·.kCache) = first :: rest.map (·.kCache) := by
    rw [hlayers]
    rfl
  rw [hcaches] at hmismatch hgather ⊢
  by_cases hempty : pages = []
  · rw [scoreBlocksFused, if_pos hempty, ← hcaches, hempty, List.map_map]
    rfl
  · rw [scoreBlocksFused, if_neg hempty, if_neg (not_not.mpr heven), if_neg (not_not.mpr hstride), hmismatch, hgather]
    cases fused.impl <;> rfl

variable {pages : List Nat} {refs : List BlockRef} (hlen : pages.length = refs.length)
  (hpages : ∀ page ∈ pages, page < shape.1)
include hlen hpages

/-- One layer's norms of a batch are, row by row, those of its pages. -/
theorem layerNorms_eq {layer : LayerCache} (hlayer : layer ∈ manager.layers) :
    layerNorms sqrt mem manager layer pages refs =
      .ok ⟨pages.map (vRow sqrt mem manager layer), pages.map (kRow sqrt mem manager layer), refs⟩ := by
  have hk : ∀ page ∈ pages, page < layer.kCache.size0 := by
    intro page hpage
    rw [show layer.kCache.size0 = shape.1 from congrArg Prod.fst (hshape.kShape layer hlayer)]
    exact hpages page hpage
  have hv : ∀ page ∈ pages, page < layer.vCache.size0 := by
    intro page hpage
    rw [show layer.vCache.size0 = shape.1 from congrArg Prod.fst (hshape.vShape layer hlayer)]
    exact hpages page hpage
  cases layer with
  | combined cache =>
      have hnorms := computeBlockKvNorms_ok sqrt mem (cache.lastSlice 0 (cache.size3 / 2))
        (cache.lastSlice (cache.size3 / 2) (cache.size3 - cache.size3 / 2)) hlen hk hv .hnd
      simp only [layerNorms, hnorms]
      rfl
  | separate k v =>
      have hnorms := computeBlockKvNorms_ok sqrt mem k v hlen hk hv manager.kvLayout
      simp only [layerNorms, hnorms]
      rfl

/-- The averaged norms of a batch, one page at a time. -/
theorem meanStats_eq :
    meanStats sqrt mem manager pages refs =
      .ok ⟨pages.map (meanVRow sqrt mem manager), pages.map (meanKRow sqrt mem manager), refs⟩ := by
  obtain ⟨width, hwidth⟩ := hshape.exists_width sqrt mem
  have hstats : manager.layers.mapM (fun layer => layerNorms sqrt mem manager layer pages refs) =
      .ok (manager.layers.map fun layer =>
        ⟨pages.map (vRow sqrt mem manager layer), pages.map (kRow sqrt mem manager layer), refs⟩) :=
    mapM_eq_ok fun layer hlayer => layerNorms_eq hshape hlen hpages hlayer
  have hv := stackMean_map hshape.layers_ne pages fun layer hlayer page => (hwidth layer hlayer page).2
  have hk := stackMean_map hshape.layers_ne pages fun layer hlayer page => (hwidth layer hlayer page).1
  simp only [meanStats, hstats, bind, Except.bind, List.map_map, Function.comp_def, hv, hk]
  rfl

/-- The fused path averages the same rows. -/
theorem batchStats_eq (hfused : FusedLayout manager) :
    batchStats sqrt mem manager pages refs =
      .ok ⟨pages.map (meanVRow sqrt mem manager), pages.map (meanKRow sqrt mem manager), refs⟩ := by
  cases hok : fusedScorerOk manager with
  | none =>
      rw [batchStats, hok]
      exact meanStats_eq hshape hlen hpages
  | some fused =>
      obtain ⟨width, hwidth⟩ := hshape.exists_width sqrt mem
      have hv := stackMean_map hshape.layers_ne pages fun layer hlayer page => (hwidth layer hlayer page).2
      have hk := stackMean_map hshape.layers_ne pages fun layer hlayer page => (hwidth layer hlayer page).1
      have hnorms := scoreBlocksFused_eq hshape sqrt mem hfused hok pages
      simp only [batchStats, hok, hnorms, bind, Except.bind, hv, hk]
      rfl

end Rows

section Updates

variable (sqrt mem manager)

/-- What scoring a list of pages hands the scorer. -/
def observations (items : List (BlockRef × Nat)) : List (BlockRef × R) :=
  (items.filter fun e => !isWarmup e.1.requestId).map fun e => (e.1, pageScore sqrt mem manager e.2)

/-- The update for a batch registers one observation for each of its items. -/
theorem update_eq (items : List (BlockRef × Nat)) (scores : OrderedDict BlockRef R) :
    manager.scorer.update scores
        ⟨(items.map Prod.snd).map (meanVRow sqrt mem manager), (items.map Prod.snd).map (meanKRow sqrt mem manager),
          items.map Prod.fst⟩ =
      registerAll manager.scorer.mixScore scores (items.map fun e => (e.1, pageScore sqrt mem manager e.2)) := by
  have hscores : manager.scorer.computeBlockScores
      ⟨(items.map Prod.snd).map (meanVRow sqrt mem manager), (items.map Prod.snd).map (meanKRow sqrt mem manager),
        items.map Prod.fst⟩ = items.map fun e => pageScore sqrt mem manager e.2 := by
    rw [PagedEvictionConfig.computeBlockScores, List.zipWith_map, List.zipWith_self, List.map_map]
    rfl
  rw [PagedEvictionConfig.update, hscores, List.zip_map']

variable {sqrt mem manager} {shape : Nat × Nat × Nat × Nat} (hshape : LayersOfOneShape manager shape)
include hshape

theorem scoreBlocksBatch_eq (hfused : FusedLayout manager) (refs : List BlockRef) {pages : List Nat}
    (hpages : ∀ page ∈ pages, page < shape.1) (scores : OrderedDict BlockRef R) :
    scoreBlocksBatch sqrt mem manager refs pages scores =
      .ok (registerAll manager.scorer.mixScore scores (observations sqrt mem manager (refs.zip pages))) := by
  unfold scoreBlocksBatch observations
  by_cases hempty : ((refs.zip pages).filter fun e => !isWarmup e.1.requestId) = []
  · rw [if_pos hempty, hempty]
    rfl
  · rw [if_neg hempty]
    have hvalid : ∀ page ∈ ((refs.zip pages).filter fun e => !isWarmup e.1.requestId).map Prod.snd, page < shape.1 := by
      intro page hpage
      obtain ⟨e, he, rfl⟩ := List.mem_map.mp hpage
      exact hpages e.2 (List.of_mem_zip (List.mem_of_mem_filter he)).2
    have hstats :
        batchStats sqrt mem manager _ (((refs.zip pages).filter fun e => !isWarmup e.1.requestId).map Prod.fst) = _ :=
      batchStats_eq hshape (by rw [List.length_map, List.length_map]) hvalid hfused
    rw [hstats, ← update_eq]
    rfl

theorem scoreBlock_eq (ref : BlockRef) {page : Nat} (hpage : page < shape.1) (scores : OrderedDict BlockRef R) :
    scoreBlock sqrt mem manager ref page scores =
      .ok (registerAll manager.scorer.mixScore scores (observations sqrt mem manager [(ref, page)])) := by
  unfold scoreBlock observations
  cases hwarm : isWarmup ref.requestId with
  | true =>
      rw [if_pos rfl, List.filter_cons_of_neg (by simp [hwarm])]
      rfl
  | false =>
      have hstats : meanStats sqrt mem manager [page] [ref] = _ :=
        meanStats_eq hshape rfl fun p hp => (List.mem_singleton.mp hp) ▸ hpage
      rw [if_neg Bool.false_ne_true, hstats, List.filter_cons_of_pos (by simp [hwarm]), List.filter_nil, ← update_eq]
      rfl

/-- One call of `score_block` for each pair, in list order. -/
theorem foldlM_scoreBlock_eq {items : List (BlockRef × Nat)} (hpages : ∀ e ∈ items, e.2 < shape.1)
    (scores : OrderedDict BlockRef R) :
    items.foldlM (fun scores e => scoreBlock sqrt mem manager e.1 e.2 scores) scores =
      .ok (registerAll manager.scorer.mixScore scores (observations sqrt mem manager items)) := by
  induction items generalizing scores with
  | nil => rfl
  | cons e rest ih =>
      have hsplit : observations sqrt mem manager (e :: rest) =
          observations sqrt mem manager [e] ++ observations sqrt mem manager rest := by
        rw [observations, ← List.singleton_append, List.filter_append, List.map_append]
        rfl
      rw [List.foldlM_cons, scoreBlock_eq hshape e.1 (hpages e List.mem_cons_self), hsplit, registerAll_append]
      exact ih (fun x hx => hpages x (List.mem_cons_of_mem e hx)) _

end Updates

/-- The store's scoring step, with the averaged norms as its page statistics, hands the scorer the same
observations. -/
theorem scorer_scoreBlocks {μ φ : Type} {dev : Device μ φ BlockKVStats (WithBot ℚ)}
    {s : Store μ (OrderedDict BlockRef ℚ)} {sqrt : ℚ → ℚ} {mem : Int → ℚ} {manager : ScoringManager ℚ}
    (hstats : ∀ page, dev.stats s.mem page = (meanVRow sqrt mem manager page).zip (meanKRow sqrt mem manager page))
    (hfault : dev.scoreFault s.tick = false) (refs : List BlockRef) (pages : List Nat) :
    (scoreBlocks dev (pagedEvictionScorer manager.scorer) refs pages s).2.scorer =
      registerAll manager.scorer.mixScore s.scorer (observations sqrt mem manager (refs.zip pages)) := by
  have hscore : ∀ page, manager.scorer.blockScore (dev.stats s.mem page) = pageScore sqrt mem manager page := by
    intro page
    rw [hstats, pageScore, PagedEvictionConfig.blockScore, PagedEvictionConfig.rowScore, PagedEvictionConfig.rowScore,
      List.zipWith_map, List.zipWith_self, List.map_zip_eq_zipWith]
    rfl
  simp only [scoreBlocks, observations]
  by_cases hempty : ((refs.zip pages).filter fun e => !isWarmup e.1.requestId) = []
  · rw [if_pos hempty, hempty]
    rfl
  · rw [if_neg hempty, hfault]
    show registerAll manager.scorer.mix s.scorer _ = registerAll _ s.scorer _
    rw [registerAll, registerAll, List.foldl_map, List.foldl_map]
    simp only [PagedEvictionConfig.mix, hscore]

/-- Two combined layers of three pages, with one head of one channel, scored by the CUDA kernel. -/
def twoLayers : ScoringManager ℚ where
  layers := [.combined ⟨0, 3, 1, 1, 2, 2, 2, 2, 1⟩, .combined ⟨6, 3, 1, 1, 2, 2, 2, 2, 1⟩]
  kvLayout := .nhd
  scorer := ⟨1 / 4, .mean, 1 / 1000000, by norm_num⟩
  fused := some ⟨.cuda, fun n => ⟨List.range n, List.Perm.refl _⟩, fun _ => 0⟩

/-- A block scored twice, with a warm-up request in between. -/
def scoredTwice : List BlockRef := [⟨['a'], 0⟩, ⟨['_', 'w', 'a', 'r', 'm', 'u', 'p', '_'], 0⟩, ⟨['a'], 0⟩]

end KVOffload

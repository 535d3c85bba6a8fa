import KVOffload.StagingIsolation

/-! Sizing of the staging pool. With the policy `auto` the connector estimates how many pages the sparse
selection of a full batch touches, caps the estimate by a fraction of the KV pool and raises the result to at
least 64 pages; the scheduler then takes that many pages out of vLLM's pool. The floor comes after the cap, so
on a small pool it wins over it. -/

namespace KVOffload
open Base

section Config

inductive ScorerType where
  | pagedEviction | random | lru
  deriving DecidableEq, Repr

inductive StagingPolicy where
  | fixed | auto
  deriving DecidableEq, Repr

inductive ConfigError where
  /-- "offload_fraction must be in [0, 1)" -/
  | offloadFraction
  /-- "scorer_type must be 'paged_eviction', 'random' or 'lru'" -/
  | scorerType
  /-- "promote_per_step must be >= 0" -/
  | promotePerStep
  /-- "staging_policy must be 'fixed' or 'auto'" -/
  | stagingPolicy
  /-- "staging_max_pool_frac must be in (0, 1]" -/
  | stagingMaxPoolFrac
  /-- "staging_safety_margin must be >= 1.0" -/
  | stagingSafetyMargin
  deriving DecidableEq, Repr

/-- The checked fields of `OffloadConfig`. A name the package does not know is `none`. -/
structure OffloadConfig where
  offloadFraction : ℚ := 1 / 5
  scorerType : Option ScorerType := some .pagedEviction
  promotePerStep : Int := 4
  stagingPolicy : Option StagingPolicy := some .fixed
  stagingMaxPoolFrac : ℚ := 1 / 4
  stagingSafetyMargin : ℚ := 11 / 10

/-- `OffloadConfig.__post_init__`. -/
def OffloadConfig.postInit (c : OffloadConfig) : Except ConfigError Unit :=
  if ¬(0 ≤ c.offloadFraction ∧ c.offloadFraction < 1) then .error .offloadFraction
  else if c.scorerType = none then .error .scorerType
  else if c.promotePerStep < 0 then .error .promotePerStep
  else if c.stagingPolicy = none then .error .stagingPolicy
  else if ¬(0 < c.stagingMaxPoolFrac ∧ c.stagingMaxPoolFrac ≤ 1) then .error .stagingMaxPoolFrac
  else if c.stagingSafetyMargin < 1 then .error .stagingSafetyMargin
  else .ok ()

/-- What an accepted configuration says about the sizing. -/
theorem OffloadConfig.sizing_of_accepted {c : OffloadConfig} (h : c.postInit = .ok ()) :
    1 ≤ c.stagingSafetyMargin ∧ 0 < c.stagingMaxPoolFrac ∧ c.stagingMaxPoolFrac ≤ 1 := by
  unfold postInit at h
  split_ifs at h with _ _ _ _ hfrac hsafety
  exact ⟨not_lt.mp hsafety, hfrac⟩

end Config

section Sizing

/-- Python's `int`, which drops the fraction. -/
def pyInt (x : ℚ) : Int := if 0 ≤ x then ⌊x⌋ else ⌈x⌉

/-- What `_auto_staging_slots_for` reads from the two configurations and the environment, in the ranges the
package accepts. -/
structure SizingInput where
  maxModelLen : Int
  maxNumSeqs : Int
  pageSize : Nat
  sink : Int
  localTokens : Int
  topk : ℚ
  safety : ℚ
  poolFraction : ℚ
  numBlocks : Nat
  pageSize_pos : 1 ≤ pageSize
  sink_nonneg : 0 ≤ sink
  localTokens_nonneg : 0 ≤ localTokens
  topk_mem : 0 ≤ topk ∧ topk ≤ 1
  safety_ge : 1 ≤ safety
  poolFraction_mem : 0 < poolFraction ∧ poolFraction ≤ 1
  two_le_numBlocks : 2 ≤ numBlocks

namespace SizingInput

variable (p : SizingInput)

def mid : Int := max 0 (p.maxModelLen - p.sink - p.localTokens)

def pagesPerReq : Int :=
  (p.sink + p.localTokens) / (p.pageSize : Int) + pyInt (p.topk * p.mid / p.pageSize + 999 / 1000)

def est : Int := pyInt (p.maxNumSeqs * p.pagesPerReq * p.safety)

def cap : Int := max 1 (pyInt (p.numBlocks * p.poolFraction))

/-- `_auto_staging_slots_for`. -/
def autoStagingSlotsFor : Int := max 64 (min p.est p.cap)

end SizingInput

end Sizing

section Fits

theorem pyInt_of_nonneg {x : ℚ} (h : 0 ≤ x) : pyInt x = ⌊x⌋ := if_pos h

namespace SizingInput

variable (p : SizingInput)

theorem numBlocks_pos : (0 : ℚ) < p.numBlocks := Nat.cast_pos.mpr (Nat.lt_of_lt_of_le Nat.two_pos p.two_le_numBlocks)

theorem cap_eq : p.cap = max 1 ⌊(p.numBlocks : ℚ) * p.poolFraction⌋ := by
  rw [cap, pyInt_of_nonneg (mul_nonneg p.numBlocks_pos.le p.poolFraction_mem.1.le)]

theorem cap_le_numBlocks : p.cap ≤ p.numBlocks := by
  have hblocks := p.two_le_numBlocks
  have hshare : (p.numBlocks : ℚ) * p.poolFraction ≤ p.numBlocks :=
    mul_le_of_le_one_right p.numBlocks_pos.le p.poolFraction_mem.2
  have hfloor : ⌊(p.numBlocks : ℚ) * p.poolFraction⌋ ≤ (p.numBlocks : Int) := by
    exact_mod_cast (Int.floor_le _).trans hshare
  rw [cap_eq]
  omega

/-- The cap is the whole pool only for the fraction 1. -/
theorem cap_lt_iff : p.cap < p.numBlocks ↔ p.poolFraction < 1 := by
  have hblocks := p.two_le_numBlocks
  have hone : (1 : Int) < p.numBlocks := by omega
  rw [cap_eq, max_lt_iff, and_iff_right hone, Int.floor_lt, Int.cast_natCast]
  exact mul_lt_iff_lt_one_right p.numBlocks_pos

/-- The number of slots is within the cap exactly if the floor is. -/
theorem slots_le_cap_iff : p.autoStagingSlotsFor ≤ p.cap ↔ 64 ≤ p.cap := by
  rw [autoStagingSlotsFor]
  omega

end SizingInput

/-- On a fresh pool a positive number of slots is granted exactly if it leaves a block. -/
theorem reserveStagingTail_init_ok_iff {numBlocks : Nat} {numSlots : Int} (hpos : 0 < numSlots) (enableCaching : Bool) :
    (∃ ids pool, reserveStagingTail numBlocks (.init numBlocks enableCaching) numSlots = (.ok ids, pool)) ↔
      numSlots < numBlocks := by
  constructor
  · rintro ⟨ids, pool, hok⟩
    by_contra hle
    rw [reserveStagingTail, if_neg (by omega), if_pos (by omega)] at hok
    cases hok
  · intro hlt
    lift numSlots to Nat using hpos.le
    exact ⟨_, _, reserveStagingTail_init (by omega) (by omega) enableCaching⟩

end Fits

/-- The automatic size fits the pool exactly if the cap admits the floor, and a fraction of 1 is not used up. -/
theorem auto_staging_fits_iff (p : SizingInput) (enableCaching : Bool) :
    (0 < p.autoStagingSlotsFor ∧ p.autoStagingSlotsFor ≤ max 1 ⌊(p.numBlocks : ℚ) * p.poolFraction⌋ ∧
      ∃ ids pool, reserveStagingTail p.numBlocks (.init p.numBlocks enableCaching) p.autoStagingSlotsFor =
        (.ok ids, pool)) ↔
      64 ≤ ⌊(p.numBlocks : ℚ) * p.poolFraction⌋ ∧ (p.poolFraction < 1 ∨ max 64 p.est < p.numBlocks) := by
  have hpos : 0 < p.autoStagingSlotsFor := lt_of_lt_of_le (by norm_num) (le_max_left 64 (min p.est p.cap))
  have hfloor : 64 ≤ p.cap ↔ 64 ≤ ⌊(p.numBlocks : ℚ) * p.poolFraction⌋ := by
    rw [p.cap_eq]
    omega
  rw [reserveStagingTail_init_ok_iff hpos, ← p.cap_eq, p.slots_le_cap_iff, ← hfloor, ← p.cap_lt_iff]
  have hle := p.cap_le_numBlocks
  rw [SizingInput.autoStagingSlotsFor]
  omega

/-- What the connector reads under an accepted configuration, for the sparse defaults (a tenth of the tokens,
no sink, no local window). -/
def OffloadConfig.sizingInput (c : OffloadConfig) (h : c.postInit = .ok ()) (maxModelLen maxNumSeqs : Int)
    {pageSize numBlocks : Nat} (hpage : 1 ≤ pageSize) (hblocks : 2 ≤ numBlocks) : SizingInput where
  maxModelLen := maxModelLen
  maxNumSeqs := maxNumSeqs
  pageSize := pageSize
  sink := 0
  localTokens := 0
  topk := 1 / 10
  safety := c.stagingSafetyMargin
  poolFraction := c.stagingMaxPoolFrac
  numBlocks := numBlocks
  pageSize_pos := hpage
  sink_nonneg := le_refl 0
  localTokens_nonneg := le_refl 0
  topk_mem := by norm_num
  safety_ge := (OffloadConfig.sizing_of_accepted h).1
  poolFraction_mem := (OffloadConfig.sizing_of_accepted h).2
  two_le_numBlocks := hblocks

theorem default_accepted : OffloadConfig.postInit {} = .ok () := by decide +kernel

theorem whole_pool_accepted : OffloadConfig.postInit { stagingMaxPoolFrac := 1 } = .ok () := by decide +kernel

/-- Under the default settings a pool of 40 blocks is asked for 64 of them, six times its cap, and one of 100
blocks for 64 although its cap is 25. With the whole pool as the cap, all of 100 blocks are asked for. -/
theorem auto_staging_exceeds_pool :
    let small := OffloadConfig.sizingInput {} default_accepted 65536 4 (by decide : 1 ≤ 16) (by decide : 2 ≤ 40)
    let medium := OffloadConfig.sizingInput {} default_accepted 65536 4 (by decide : 1 ≤ 16) (by decide : 2 ≤ 100)
    let whole := OffloadConfig.sizingInput { stagingMaxPoolFrac := 1 } whole_pool_accepted 65536 4 (by decide : 1 ≤ 16)
      (by decide : 2 ≤ 100)
    (small.autoStagingSlotsFor = 64 ∧ small.cap = 10 ∧
      (reserveStagingTail 40 (.init 40 true) small.autoStagingSlotsFor).1 = .error (.stagingTooLarge 64 40)) ∧
    (medium.autoStagingSlotsFor = 64 ∧ medium.cap = 25) ∧
    (whole.autoStagingSlotsFor = 100 ∧ whole.cap = 100 ∧
      (reserveStagingTail 100 (.init 100 true) whole.autoStagingSlotsFor).1 = .error (.stagingTooLarge 100 100)) := by
  decide +kernel

end KVOffload

import Filestore.Telemetry.RuleSelection
import Mathlib.Data.Fintype.Fin

/-!
# The sampled share of trace ids

The threshold test keeps a trace when the 63 random bits of its id are below a share that depends
only on the ratio.  For a ratio in the unit interval the share is the exact product with `2 ^ 63`,
rounded down, so a higher ratio keeps every trace that a lower one keeps.
-/

namespace Filestore.Telemetry

open Ieee

/-! ## The random bits of a trace id -/

/-- Bits 1 to 63 of the low half of a trace id. -/
def randomBits (traceId : TraceId) : ℕ := (traceId.setWidth 64 >>> 1).toNat

theorem randomBits_lt (traceId : TraceId) : randomBits traceId < 2 ^ 63 := by
  have hlt := (traceId.setWidth 64).isLt
  rw [randomBits, BitVec.toNat_ushiftRight, Nat.shiftRight_eq_div_pow]
  omega

/-- A byte that is shifted in continues the bits of the id above it. -/
theorem shiftLeft_or_byte (traceId : TraceId) {start width : ℕ} (hwidth : width + 8 ≤ 64) :
    (traceId.extractLsb' (start + 8) width).setWidth 64 <<< 8 |||
        (traceId.extractLsb' start 8).setWidth 64 =
      (traceId.extractLsb' start (width + 8)).setWidth 64 := by
  ext i hi
  simp only [BitVec.getElem_or, BitVec.getElem_shiftLeft, BitVec.getElem_setWidth,
    BitVec.getLsbD_extractLsb']
  rcases Nat.lt_or_ge i 8 with hlow | hhigh
  · simp [hlow, show i < width + 8 by omega]
  · have hindex : start + 8 + (i - 8) = start + i := by omega
    simp [hindex, show ¬ i < 8 by omega, show i - 8 < width ↔ i < width + 8 by omega]

/-- The last eight of the sixteen big-endian bytes are the low half of the id. -/
theorem fromBeBytes_low (traceId : TraceId) :
    fromBeBytes ((toBytes traceId).splitAt 8).2 = traceId.setWidth 64 := by
  have hlow : ((toBytes traceId).splitAt 8).2 =
      [traceId.extractLsb' 56 8, traceId.extractLsb' 48 8, traceId.extractLsb' 40 8,
        traceId.extractLsb' 32 8, traceId.extractLsb' 24 8, traceId.extractLsb' 16 8,
        traceId.extractLsb' 8 8, traceId.extractLsb' 0 8] := rfl
  have hnone : (0 : BitVec 64) = (traceId.extractLsb' 64 0).setWidth 64 := by
    rw [BitVec.eq_nil (traceId.extractLsb' 64 0)]
    rfl
  -- Each byte widens the field of bits that has been read, from none to all 64.
  rw [hlow, fromBeBytes, hnone]
  simp only [List.foldl_cons, List.foldl_nil]
  iterate 8 rw [shiftLeft_or_byte _ (by norm_num)]
  ext i hi
  simp

/-- A trace id from its high half, its random bits and its last bit. -/
def traceIdOf (high : BitVec 64) (random : Fin (2 ^ 63)) (last : BitVec 1) : TraceId :=
  high ++ BitVec.ofFin random ++ last

@[simp]
theorem randomBits_traceIdOf (high : BitVec 64) (random : Fin (2 ^ 63)) (last : BitVec 1) :
    randomBits (traceIdOf high random last) = random := by
  have hbits : (traceIdOf high random last).setWidth 64 >>> 1 =
      (BitVec.ofFin random : BitVec 63).setWidth 64 := by
    ext i hi
    simp only [traceIdOf, BitVec.getElem_ushiftRight, BitVec.getLsbD_setWidth,
      BitVec.getLsbD_append, BitVec.getElem_setWidth]
    rcases Nat.lt_or_ge i 63 with hlt | hge
    · simp [hlt, show 1 + i < 64 by omega]
    · simp [show ¬ 1 + i < 64 by omega, BitVec.getLsbD_of_ge _ i hge]
  have hrandom := random.isLt
  rw [randomBits, hbits, BitVec.toNat_setWidth, Nat.mod_eq_of_lt]
  · rfl
  · exact hrandom.trans (by norm_num)

/-! ## The share that a ratio keeps -/

/-- How many of the `2 ^ 63` values of the random bits a ratio keeps. -/
def keptShare (prob : Number binary64) : ℕ :=
  if one ≤ prob then 2 ^ 63 else (probUpperBound prob).toNat

theorem sampleBasedOnProbability_iff (prob : Number binary64) (traceId : TraceId) :
    sampleBasedOnProbability prob traceId = .recordAndSample ↔
      randomBits traceId < keptShare prob := by
  simp only [sampleBasedOnProbability, keptShare, fromBeBytes_low]
  by_cases hone : one ≤ prob
  · simpa [hone] using randomBits_lt traceId
  · rw [if_neg hone, if_neg hone]
    simp only [ite_eq_left_iff, reduceCtorEq, imp_false, not_not, BitVec.lt_def,
      UInt64.toNat_toBitVec, randomBits]

/-- The number of random values that are sampled, with the rest of the id fixed. -/
def decisionCount (decision : TraceId → SamplingDecision) (high : BitVec 64) (last : BitVec 1) :
    ℕ :=
  (Finset.univ.filter fun random : Fin (2 ^ 63) ↦
    decision (traceIdOf high random last) = .recordAndSample).card

/-- The number of random values that a ratio samples. -/
def sampledCount (prob : Number binary64) (high : BitVec 64) (last : BitVec 1) : ℕ :=
  decisionCount (sampleBasedOnProbability prob) high last

theorem sampledCount_eq (prob : Number binary64) (high : BitVec 64) (last : BitVec 1)
    (hshare : keptShare prob ≤ 2 ^ 63) : sampledCount prob high last = keptShare prob := by
  simp only [sampledCount, decisionCount, sampleBasedOnProbability_iff, randomBits_traceIdOf]
  rw [Fin.card_filter_val_lt, min_eq_right hshare]

/-! ## Clamping and scaling -/

theorem exists_one_eq : ∃ b, one = .finite false b ∧ b.toRat = 1 := by
  simpa [one] using
    Number.ofNat_two_pow (F := binary64) (k := 0) (by decide) (by decide) (by decide)

theorem one_le_iff {prob : Number binary64} :
    one ≤ prob ↔ ∃ x, prob.place = some x ∧ 1 ≤ x := by
  obtain ⟨b, hone, hvalue⟩ := exists_one_eq
  rw [hone, Number.le_iff]
  simp [Number.place, Number.signed, hvalue]

theorem le_zero_iff {prob : Number binary64} :
    prob ≤ zero ↔ ∃ x, prob.place = some x ∧ x ≤ 0 := by
  rw [Number.le_iff]
  simp [zero, Number.place, Number.signed]

/-- The clamp sends NaN and everything that is not positive to zero. -/
theorem max_zero_of_not_pos {prob : Number binary64} (h : ∀ x, prob.place = some x → x ≤ 0) :
    prob.max zero = zero := by
  cases prob with
  | nan => rfl
  | infinity negative => exact if_pos (le_zero_iff.mpr ⟨_, rfl, h _ rfl⟩)
  | finite negative magnitude => exact if_pos (le_zero_iff.mpr ⟨_, rfl, h _ rfl⟩)

/-- Below one there is room to scale by `2 ^ 63`. -/
theorem exponent_of_lt_one {a : Magnitude binary64} (ha : a.toRat < 1) : a.exponent < 0 := by
  rcases a.canonical with hmin | hnormal
  · simp [hmin, binary64]
  · by_contra hexponent
    have hmantissa : (1 : ℚ) ≤ a.mantissa := by
      exact_mod_cast (Nat.one_le_two_pow).trans hnormal
    have hpow : (1 : ℚ) ≤ 2 ^ a.exponent := one_le_zpow₀ (by norm_num) (by omega)
    exact absurd ha (not_lt.mpr (one_le_mul_of_one_le_of_one_le hmantissa hpow))

/-- The clamped ratio is scaled without rounding. -/
theorem scaled_of_lt_one {prob : Number binary64} {q : ℚ}
    (hplace : prob.place = some ((q : WithTop ℚ) : WithBot (WithTop ℚ))) (hq : q < 1) :
    ∃ product, (prob.max zero).mul (.ofNat binary64 (2 ^ 63)) = .finite false product ∧
      product.toRat = max q 0 * 2 ^ 63 := by
  obtain ⟨b, hb, hvalue⟩ := Number.ofNat_two_pow (F := binary64) (k := 63) (by decide) (by decide)
    (by decide)
  have hclamp : ∃ a, prob.max zero = .finite false a ∧ a.toRat = max q 0 := by
    rcases le_or_gt q 0 with hneg | hpos
    · refine ⟨.zero binary64, max_zero_of_not_pos ?_, by simp [hneg]⟩
      intro x hx
      obtain rfl : ((q : WithTop ℚ) : WithBot (WithTop ℚ)) = x :=
        Option.some.inj (hplace.symm.trans hx)
      exact_mod_cast hneg
    · have hnot : ¬ prob ≤ zero := by
        rintro hle
        obtain ⟨x, hx, hxle⟩ := le_zero_iff.mp hle
        obtain rfl : ((q : WithTop ℚ) : WithBot (WithTop ℚ)) = x :=
          Option.some.inj (hplace.symm.trans hx)
        exact absurd hpos (not_lt.mpr (by exact_mod_cast hxle))
      cases prob with
      | nan => simp [Number.place] at hplace
      | infinity negative => cases negative <;> simp [Number.place] at hplace
      | finite negative a =>
        have hsigned : Number.signed negative a.toRat = q := by
          simpa [Number.place] using hplace
        cases negative with
        | true =>
          rw [Number.signed_true] at hsigned
          linarith [a.toRat_nonneg]
        | false => exact ⟨a, if_neg hnot, by simpa [hpos.le] using hsigned⟩
  obtain ⟨a, hmax, ha⟩ := hclamp
  have hexponent := exponent_of_lt_one (a := a) (by rw [ha]; exact max_lt hq one_pos)
  obtain ⟨product, hproduct, hexact⟩ := Number.mul_two_pow_exact false a hvalue
    (by simp only [binary64]; omega)
  exact ⟨product, by rw [hmax, hb, hproduct], by rw [hexact, ha]⟩

theorem toNat_probUpperBound (prob : Number binary64) :
    (probUpperBound prob).toNat =
      ((prob.max zero).mul (.ofNat binary64 (2 ^ 63))).truncate (2 ^ 64 - 1) := by
  have hle := Number.truncate_le (2 ^ 64 - 1) ((prob.max zero).mul (.ofNat binary64 (2 ^ 63)))
  rw [probUpperBound, UInt64.toNat_ofNat']
  exact Nat.mod_eq_of_lt (by omega)

/-- The cast truncates the scaled ratio; it neither wraps nor saturates. -/
theorem probUpperBound_of_lt_one {prob : Number binary64} {q : ℚ}
    (hplace : prob.place = some ((q : WithTop ℚ) : WithBot (WithTop ℚ))) (hq : q < 1) :
    (probUpperBound prob).toNat = ⌊q * 2 ^ 63⌋₊ ∧ ⌊q * 2 ^ 63⌋₊ < 2 ^ 63 := by
  obtain ⟨product, hproduct, hexact⟩ := scaled_of_lt_one hplace hq
  have hfloor : ⌊max q 0 * 2 ^ 63⌋₊ = ⌊q * 2 ^ 63⌋₊ := by
    rcases le_total q 0 with hneg | hpos
    · rw [max_eq_right hneg, zero_mul, Nat.floor_zero, Nat.floor_of_nonpos]
      exact mul_nonpos_of_nonpos_of_nonneg hneg (by positivity)
    · rw [max_eq_left hpos]
  have hlt : ⌊q * 2 ^ 63⌋₊ < 2 ^ 63 := by
    apply (Nat.floor_lt' (by norm_num)).mpr
    push_cast
    linarith
  refine ⟨?_, hlt⟩
  rw [toNat_probUpperBound, hproduct, Number.truncate, if_neg (by decide), hexact, hfloor]
  exact min_eq_left (by omega)

/-! ## The share by the place of the ratio -/

theorem keptShare_of_one_le {prob : Number binary64} (hone : one ≤ prob) :
    keptShare prob = 2 ^ 63 := if_pos hone

theorem keptShare_of_lt_one {prob : Number binary64} {q : ℚ}
    (hplace : prob.place = some ((q : WithTop ℚ) : WithBot (WithTop ℚ))) (hq : q < 1) :
    keptShare prob = ⌊q * 2 ^ 63⌋₊ := by
  rw [keptShare, if_neg, (probUpperBound_of_lt_one hplace hq).1]
  rintro hone
  obtain ⟨x, hx, hle⟩ := one_le_iff.mp hone
  obtain rfl : ((q : WithTop ℚ) : WithBot (WithTop ℚ)) = x :=
    Option.some.inj (hplace.symm.trans hx)
  exact absurd hq (not_lt.mpr (by exact_mod_cast hle))

/-- NaN and the ratios that are not positive keep nothing. -/
theorem keptShare_of_not_pos {prob : Number binary64} (h : ∀ x, prob.place = some x → x ≤ 0) :
    keptShare prob = 0 := by
  have hone : ¬ one ≤ prob := by
    rintro hone
    obtain ⟨x, hx, hle⟩ := one_le_iff.mp hone
    exact absurd (hle.trans (h x hx)) (by decide)
  have hzero : zero.place = some (((0 : ℚ) : WithTop ℚ) : WithBot (WithTop ℚ)) := by
    simp [zero, Number.place, Number.signed]
  have hbound := (probUpperBound_of_lt_one hzero one_pos).1
  rw [toNat_probUpperBound] at hbound
  rw [keptShare, if_neg hone, toNat_probUpperBound, max_zero_of_not_pos h]
  have hclamp : zero.max zero = zero := max_zero_of_not_pos (by simp [hzero])
  simpa [hclamp] using hbound

/-- A ratio that is not at least one is below one on the rational line, or it keeps nothing. -/
theorem keptShare_cases (prob : Number binary64) :
    one ≤ prob ∨ (∀ x, prob.place = some x → x ≤ 0) ∨
      ∃ q : ℚ, prob.place = some ((q : WithTop ℚ) : WithBot (WithTop ℚ)) ∧ q < 1 := by
  rcases em (one ≤ prob) with hone | hone
  · exact .inl hone
  rw [one_le_iff] at hone
  cases prob with
  | nan => exact .inr (.inl (by simp [Number.place]))
  | infinity negative =>
    cases negative with
    | true => exact .inr (.inl (by simp [Number.place]))
    | false => exact absurd ⟨_, rfl, by simp⟩ hone
  | finite negative a =>
    refine .inr (.inr ⟨_, rfl, not_le.mp fun hle ↦ hone ⟨_, rfl, ?_⟩⟩)
    exact_mod_cast hle

theorem keptShare_le (prob : Number binary64) : keptShare prob ≤ 2 ^ 63 := by
  rcases keptShare_cases prob with hone | hnot | ⟨q, hplace, hq⟩
  · exact (keptShare_of_one_le hone).le
  · simp [keptShare_of_not_pos hnot]
  · rw [keptShare_of_lt_one hplace hq]
    exact (probUpperBound_of_lt_one hplace hq).2.le

/-- A higher ratio keeps at least the share of a lower one. -/
theorem keptShare_mono {prob prob' : Number binary64} (hle : prob ≤ prob') :
    keptShare prob ≤ keptShare prob' := by
  obtain ⟨x, y, hx, hy, hxy⟩ := Number.le_iff.mp hle
  rcases keptShare_cases prob with hone | hnot | ⟨q, hplace, hq⟩
  · rw [keptShare_of_one_le hone, keptShare_of_one_le (Number.le_trans hone hle)]
  · simp [keptShare_of_not_pos hnot]
  obtain rfl : ((q : WithTop ℚ) : WithBot (WithTop ℚ)) = x :=
    Option.some.inj (hplace.symm.trans hx)
  rcases keptShare_cases prob' with hone' | hnot' | ⟨q', hplace', hq'⟩
  · exact (keptShare_le prob).trans (keptShare_of_one_le hone').ge
  · have hzero : q ≤ 0 := by exact_mod_cast hxy.trans (hnot' y hy)
    rw [keptShare_of_lt_one hplace hq, Nat.floor_of_nonpos]
    · exact Nat.zero_le _
    · exact mul_nonpos_of_nonpos_of_nonneg hzero (by positivity)
  · obtain rfl : ((q' : WithTop ℚ) : WithBot (WithTop ℚ)) = y :=
      Option.some.inj (hplace'.symm.trans hy)
    rw [keptShare_of_lt_one hplace hq, keptShare_of_lt_one hplace' hq']
    have hqq' : q ≤ q' := by exact_mod_cast hxy
    exact Nat.floor_le_floor (by gcongr)

/-! ## Options with higher ratios -/

/-- The same matcher with at most the ratio of the other rule. -/
structure TracingSampleRule.AtMost (rule higher : TracingSampleRule) : Prop where
  protocol : rule.protocol = higher.protocol
  requestTypes : rule.requestTypes = higher.requestTypes
  ratio : rule.ratio ≤ higher.ratio

/-- The same matchers in the same order, every ratio at most the corresponding one. -/
structure TracingSampleOptions.AtMost (options higher : TracingSampleOptions) : Prop where
  defaultRatio : options.defaultRatio ≤ higher.defaultRatio
  rules : List.Forall₂ TracingSampleRule.AtMost options.rules higher.rules

theorem TracingSampleRule.AtMost.applies_iff {rule higher : TracingSampleRule}
    (hrule : rule.AtMost higher) (protocol requestType : Option String) :
    rule.Applies protocol requestType ↔ higher.Applies protocol requestType := by
  rw [Applies, Applies, hrule.protocol, hrule.requestTypes]

/-- The two options select corresponding ratios. -/
theorem TracingSampleOptions.AtMost.ratio_le {options higher : TracingSampleOptions}
    (hoptions : options.AtMost higher) (protocol requestType : Option String) :
    options.ratio protocol requestType ≤ higher.ratio protocol requestType := by
  obtain ⟨defaultRatio, rules⟩ := options
  obtain ⟨higherDefault, higherRules⟩ := higher
  obtain ⟨hdefault, hrules⟩ := hoptions
  dsimp only [ratio] at hrules hdefault ⊢
  induction hrules with
  | nil => exact hdefault
  | cons hrule _ ih =>
    simp only [List.find?_cons, hrule.applies_iff protocol requestType]
    split
    · exact hrule.ratio
    · exact ih

section Consistency

variable {Value : Type} (asStr : Value → String)

/-- Whatever ratio the lower options select, the higher options keep the traces it keeps. -/
theorem sampleBasedOnProbability_mono {prob higher : Number binary64} (hle : prob ≤ higher)
    {traceId : TraceId} (hsampled : sampleBasedOnProbability prob traceId = .recordAndSample) :
    sampleBasedOnProbability higher traceId = .recordAndSample := by
  rw [sampleBasedOnProbability_iff] at hsampled ⊢
  exact hsampled.trans_le (keptShare_mono hle)

/-- Higher ratios keep every span that lower ones keep, and a ratio keeps exactly its share of the
`2 ^ 63` random values, as do both samplers with the ratio that they select for a span. -/
theorem sampling_consistent_and_proportional :
    (∀ options higher : TracingSampleOptions, options.AtMost higher →
      ∀ parentContext parentContext' traceId attributes,
        (options.shouldSample asStr parentContext traceId attributes).decision =
            .recordAndSample →
          (higher.shouldSample asStr parentContext' traceId attributes).decision =
            .recordAndSample) ∧
    (∀ traceIdRatioBased : Number binary64 → TraceId → SamplingDecision,
      (∀ prob traceId, traceIdRatioBased prob traceId = sampleBasedOnProbability prob traceId) →
      ∀ options higher : TracingSampleOptions, options.AtMost higher →
        ∀ parentContext parentContext' traceId attributes,
          (createSampler options).decision asStr traceIdRatioBased parentContext traceId
              attributes = .recordAndSample →
            (createSampler higher).decision asStr traceIdRatioBased parentContext' traceId
              attributes = .recordAndSample) ∧
    (∀ (prob : Number binary64) (high : BitVec 64) (last : BitVec 1),
      (∀ q : ℚ, prob.place = some ((q : WithTop ℚ) : WithBot (WithTop ℚ)) → 0 ≤ q → q < 1 →
        ((prob.max zero).mul (.ofNat binary64 (2 ^ 63))).place =
            some (((q * 2 ^ 63 : ℚ) : WithTop ℚ) : WithBot (WithTop ℚ)) ∧
          (probUpperBound prob).toNat = ⌊q * 2 ^ 63⌋₊ ∧ ⌊q * 2 ^ 63⌋₊ < 2 ^ 63 ∧
          sampledCount prob high last = ⌊q * 2 ^ 63⌋₊) ∧
      (one ≤ prob → sampledCount prob high last = 2 ^ 63) ∧
      (prob = .nan ∨ (∃ x, prob.place = some x ∧ x < 0) → sampledCount prob high last = 0)) ∧
    (∀ (options : TracingSampleOptions) parentContext attributes high last,
      decisionCount
          (fun traceId ↦ (options.shouldSample asStr parentContext traceId attributes).decision)
          high last =
        sampledCount (options.ratio (lastValue asStr "protocol" attributes)
          (lastValue asStr "request_type" attributes)) high last) ∧
    (∀ traceIdRatioBased : Number binary64 → TraceId → SamplingDecision,
      (∀ prob traceId, traceIdRatioBased prob traceId = sampleBasedOnProbability prob traceId) →
      ∀ (options : TracingSampleOptions) parentContext attributes high last,
        decisionCount
            (fun traceId ↦ (createSampler options).decision asStr traceIdRatioBased parentContext
              traceId attributes)
            high last =
          sampledCount (options.ratio (lastValue asStr "protocol" attributes)
            (lastValue asStr "request_type" attributes)) high last) := by
  refine ⟨?_, ?_, ?_, ?_, ?_⟩
  · intro options higher hoptions parentContext parentContext' traceId attributes hsampled
    rw [TracingSampleOptions.shouldSample_decision] at hsampled ⊢
    exact sampleBasedOnProbability_mono (hoptions.ratio_le _ _) hsampled
  · intro traceIdRatioBased hsdk options higher hoptions parentContext parentContext' traceId
      attributes hsampled
    rw [createSampler_decision asStr hsdk] at hsampled ⊢
    exact sampleBasedOnProbability_mono (hoptions.ratio_le _ _) hsampled
  · intro prob high last
    rw [sampledCount_eq _ _ _ (keptShare_le prob)]
    refine ⟨fun q hplace hnonneg hlt ↦ ?_, keptShare_of_one_le, fun hnone ↦ ?_⟩
    · obtain ⟨product, hproduct, hexact⟩ := scaled_of_lt_one hplace hlt
      obtain ⟨hbound, hbelow⟩ := probUpperBound_of_lt_one hplace hlt
      refine ⟨?_, hbound, hbelow, keptShare_of_lt_one hplace hlt⟩
      rw [hproduct, Number.place, Number.signed_false, hexact, max_eq_left hnonneg]
    · apply keptShare_of_not_pos
      intro x hx
      rcases hnone with rfl | ⟨y, hy, hneg⟩
      · simp [Number.place] at hx
      · obtain rfl : y = x := Option.some.inj (hy.symm.trans hx)
        exact hneg.le
  · intro options parentContext attributes high last
    simp only [TracingSampleOptions.shouldSample_decision]
    rfl
  · intro traceIdRatioBased hsdk options parentContext attributes high last
    simp only [createSampler_decision asStr hsdk]
    rfl

end Consistency

/-- A quarter keeps `2 ^ 61` random values, and what it keeps, the ratio one keeps too. -/
theorem sampling_quarter :
    let quarter : Number binary64 :=
      .finite false ⟨2 ^ 52, -54, by decide, by decide, by decide, .inr (by decide)⟩
    let rule (ratio : Number binary64) : TracingSampleRule := ⟨"grpc", {"read"}, ratio⟩
    let attributes : List (KeyValue String) := [⟨"protocol", "grpc"⟩, ⟨"request_type", "read"⟩]
    decisionCount
        (fun traceId ↦
          (TracingSampleOptions.shouldSample id ⟨quarter, []⟩ none traceId attributes).decision)
        0 0 = 2 ^ 61 ∧
      sampledCount quarter 0 0 = 2 ^ 61 ∧ sampledCount one 0 0 = 2 ^ 63 ∧
      sampledCount .nan 0 0 = 0 ∧
      (TracingSampleOptions.shouldSample id ⟨zero, [rule one]⟩ none 1 attributes).decision =
        .recordAndSample ∧
      (createSampler ⟨zero, [rule one]⟩).decision id sampleBasedOnProbability none 1 attributes =
        .recordAndSample := by
  intro quarter rule attributes
  obtain ⟨hconsistent, hcreated, hcount, hshare, -⟩ :=
    sampling_consistent_and_proportional (@id String)
  have hplace : quarter.place = some (((1 / 4 : ℚ) : WithTop ℚ) : WithBot (WithTop ℚ)) := by
    have hvalue : ((2 ^ 52 : ℕ) : ℚ) * 2 ^ (-54 : ℤ) = 1 / 4 := by norm_num
    rw [Number.place, Number.signed_false, Magnitude.toRat, hvalue]
  have hrules : TracingSampleOptions.AtMost ⟨zero, [rule quarter]⟩ ⟨zero, [rule one]⟩ :=
    ⟨by decide +kernel, .cons ⟨rfl, rfl, by decide +kernel⟩ .nil⟩
  obtain ⟨-, -, -, hfloor⟩ := (hcount quarter 0 0).1 _ hplace (by norm_num) (by norm_num)
  have hquarter : sampledCount quarter 0 0 = 2 ^ 61 := by
    rw [hfloor]
    norm_num
  refine ⟨(hshare _ none attributes 0 0).trans hquarter, hquarter,
    (hcount one 0 0).2.1 (by decide +kernel), (hcount .nan 0 0).2.2 (.inl rfl),
    hconsistent _ _ hrules none none 1 attributes (by decide +kernel),
    hcreated sampleBasedOnProbability (fun _ _ ↦ rfl) _ _ hrules none none 1 attributes
      (by decide +kernel)⟩

end Filestore.Telemetry

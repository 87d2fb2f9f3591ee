import Filestore.Telemetry.SamplingRatio

/-!
# Equality of sampling options

Options are compared field by field, their ratios by the equality of floating-point numbers, and the
comparison is declared to be an equivalence.  It is one exactly between options without a NaN.
Options that compare equal sample the same spans, although their ratios may be different zeros.
-/

namespace Filestore.Telemetry

open Ieee

def TracingSampleRule.eq (rule other : TracingSampleRule) : Bool :=
  rule.protocol = other.protocol && rule.requestTypes = other.requestTypes &&
    rule.ratio.eq other.ratio

namespace TracingSampleOptions

/-- The comparison of two vectors of rules. -/
def rulesEq : List TracingSampleRule → List TracingSampleRule → Bool
  | [], [] => true
  | rule :: rules, other :: others => rule.eq other && rulesEq rules others
  | _, _ => false

def eq (options other : TracingSampleOptions) : Bool :=
  options.defaultRatio.eq other.defaultRatio && rulesEq options.rules other.rules

/-- The default ratio and the ratios of the rules. -/
def ratios (options : TracingSampleOptions) : List (Number binary64) :=
  options.defaultRatio :: options.rules.map TracingSampleRule.ratio

end TracingSampleOptions

/-! ## Equal options bound each other -/

theorem TracingSampleRule.eq_iff {rule other : TracingSampleRule} :
    rule.eq other = true ↔ rule.AtMost other ∧ other.AtMost rule := by
  simp only [eq, Bool.and_eq_true, decide_eq_true_eq, Number.eq_iff_le_and_le]
  constructor
  · rintro ⟨⟨hprotocol, htypes⟩, hle, hge⟩
    exact ⟨⟨hprotocol, htypes, hle⟩, hprotocol.symm, htypes.symm, hge⟩
  · rintro ⟨hle, hge⟩
    exact ⟨⟨hle.protocol, hle.requestTypes⟩, hle.ratio, hge.ratio⟩

namespace TracingSampleOptions

theorem rulesEq_iff {rules others : List TracingSampleRule} :
    rulesEq rules others = true ↔
      List.Forall₂ TracingSampleRule.AtMost rules others ∧
        List.Forall₂ TracingSampleRule.AtMost others rules := by
  induction rules generalizing others with
  | nil => cases others <;> simp [rulesEq]
  | cons rule rules ih =>
    cases others with
    | nil => simp [rulesEq]
    | cons other others =>
      rw [rulesEq, Bool.and_eq_true, TracingSampleRule.eq_iff, ih, List.forall₂_cons,
        List.forall₂_cons]
      exact and_and_and_comm

theorem eq_iff {options other : TracingSampleOptions} :
    options.eq other = true ↔ options.AtMost other ∧ other.AtMost options := by
  rw [eq, Bool.and_eq_true, Number.eq_iff_le_and_le, rulesEq_iff]
  constructor
  · rintro ⟨⟨hle, hge⟩, hrules, hrules'⟩
    exact ⟨⟨hle, hrules⟩, hge, hrules'⟩
  · rintro ⟨hle, hge⟩
    exact ⟨⟨hle.defaultRatio, hge.defaultRatio⟩, hle.rules, hge.rules⟩

end TracingSampleOptions

theorem TracingSampleRule.AtMost.trans {rule middle higher : TracingSampleRule}
    (h : rule.AtMost middle) (h' : middle.AtMost higher) : rule.AtMost higher where
  protocol := h.protocol.trans h'.protocol
  requestTypes := h.requestTypes.trans h'.requestTypes
  ratio := Number.le_trans h.ratio h'.ratio

theorem TracingSampleOptions.AtMost.trans {options middle higher : TracingSampleOptions}
    (h : options.AtMost middle) (h' : middle.AtMost higher) : options.AtMost higher where
  defaultRatio := Number.le_trans h.defaultRatio h'.defaultRatio
  rules := by
    have htrans : ∀ rules rules' rules'' : List TracingSampleRule,
        List.Forall₂ TracingSampleRule.AtMost rules rules' →
          List.Forall₂ TracingSampleRule.AtMost rules' rules'' →
            List.Forall₂ TracingSampleRule.AtMost rules rules'' := by
      intro rules rules' rules'' hrules
      induction hrules generalizing rules'' with
      | nil => exact id
      | cons hrule _ ih =>
        intro hrules'
        obtain ⟨rule'', rest, hrule', hrest, rfl⟩ := List.forall₂_cons_left_iff.mp hrules'
        exact .cons (hrule.trans hrule') (ih rest hrest)
    exact htrans _ _ _ h.rules h'.rules

/-- Options are equal to themselves exactly when none of their ratios is NaN. -/
theorem TracingSampleOptions.eq_self_iff (options : TracingSampleOptions) :
    options.eq options = true ↔ Number.nan ∉ options.ratios := by
  have hrules : rulesEq options.rules options.rules = true ↔
      Number.nan ∉ options.rules.map TracingSampleRule.ratio := by
    induction options.rules with
    | nil => simp [rulesEq]
    | cons rule rules ih =>
      have hrule : rule.eq rule = true ↔ rule.ratio ≠ .nan := by
        simp [TracingSampleRule.eq, Number.eq_self_iff]
      rw [rulesEq, Bool.and_eq_true, hrule, ih, List.map_cons, List.mem_cons, not_or]
      exact and_congr_left fun _ ↦ ne_comm
  rw [eq, Bool.and_eq_true, Number.eq_self_iff, hrules, ratios, List.mem_cons, not_or]
  exact and_congr_left fun _ ↦ ne_comm

section Decisions

variable {Value : Type} (asStr : Value → String)

/-- The threshold test has two outcomes. -/
theorem sampleBasedOnProbability_eq_of_iff {prob other : Number binary64} {traceId : TraceId}
    (h : sampleBasedOnProbability prob traceId = .recordAndSample ↔
      sampleBasedOnProbability other traceId = .recordAndSample) :
    sampleBasedOnProbability prob traceId = sampleBasedOnProbability other traceId := by
  have houtcome (ratio : Number binary64) :
      sampleBasedOnProbability ratio traceId = .recordAndSample ∨
        sampleBasedOnProbability ratio traceId = .drop := by
    unfold sampleBasedOnProbability
    dsimp only
    split_ifs <;> simp
  rcases houtcome prob with hprob | hprob
  · rw [hprob, h.mp hprob]
  · rcases houtcome other with hother | hother
    · rw [hother, h.mpr hother]
    · rw [hprob, hother]

/-- Equality of options is symmetric and transitive, reflexive exactly without a NaN, and never
tells options equal that decide a span differently. -/
theorem options_eq_decides_alike :
    (∀ options : TracingSampleOptions, options.eq options = true ↔ .nan ∉ options.ratios) ∧
    (∀ options other : TracingSampleOptions, options.eq other = other.eq options) ∧
    (∀ options middle other : TracingSampleOptions, options.eq middle = true →
      middle.eq other = true → options.eq other = true) ∧
    (∀ traceIdRatioBased : Number binary64 → TraceId → SamplingDecision,
      (∀ prob traceId, traceIdRatioBased prob traceId = sampleBasedOnProbability prob traceId) →
      ∀ options other : TracingSampleOptions, options.eq other = true →
        ∀ parentContext parentContext' traceId attributes,
          (createSampler options).decision asStr traceIdRatioBased parentContext traceId
              attributes =
            (createSampler other).decision asStr traceIdRatioBased parentContext' traceId
              attributes) := by
  refine ⟨TracingSampleOptions.eq_self_iff, ?_, ?_, ?_⟩
  · intro options other
    rw [Bool.eq_iff_iff, TracingSampleOptions.eq_iff, TracingSampleOptions.eq_iff]
    exact And.comm
  · intro options middle other h h'
    rw [TracingSampleOptions.eq_iff] at h h' ⊢
    exact ⟨h.1.trans h'.1, h'.2.trans h.2⟩
  · intro traceIdRatioBased hsdk options other h parentContext parentContext' traceId attributes
    obtain ⟨hle, hge⟩ := TracingSampleOptions.eq_iff.mp h
    rw [createSampler_decision asStr hsdk, createSampler_decision asStr hsdk]
    apply sampleBasedOnProbability_eq_of_iff
    constructor
    · exact sampleBasedOnProbability_mono (hle.ratio_le _ _)
    · exact sampleBasedOnProbability_mono (hge.ratio_le _ _)

end Decisions

/-- Options whose zeros have different signs are equal and drop the same spans, and options with a
NaN are not equal to themselves. -/
theorem options_eq_decides_alike_zeros :
    let options : TracingSampleOptions := ⟨zero, [⟨"grpc", ∅, one⟩]⟩
    let negative : TracingSampleOptions := ⟨.finite true (.zero binary64), [⟨"grpc", ∅, one⟩]⟩
    options.eq negative = true ∧ negative.eq negative = true ∧
      (⟨.nan, []⟩ : TracingSampleOptions).eq ⟨.nan, []⟩ ≠ true ∧
      ∀ traceId attributes,
        (createSampler options).decision id sampleBasedOnProbability none traceId attributes =
          (createSampler negative).decision id sampleBasedOnProbability none traceId
            attributes := by
  intro options negative
  obtain ⟨hself, hsymm, htrans, halike⟩ := options_eq_decides_alike (@id String)
  have heq : options.eq negative = true := by decide +kernel
  have hnegative : negative.eq negative = true :=
    htrans negative options negative (by rw [hsymm, heq]) heq
  refine ⟨heq, hnegative, ?_, fun traceId attributes ↦ ?_⟩
  · rw [Ne, hself, not_not]
    exact List.mem_cons_self
  · exact halike sampleBasedOnProbability (fun _ _ ↦ rfl) options negative heq none none traceId
      attributes

end Filestore.Telemetry

import Filestore.Telemetry.TracingSampler

/-!
# First-match selection of sampling ratios

The attribute loop computes the last value of each of the two keys it reads, and the rule scan
finds the first applicable rule.  The decision of a sampler therefore depends on the attributes
only through these two values, and on the rules only up to the first applicable one.
-/

namespace Filestore.Telemetry

open Ieee

section Attributes

variable {Value : Type} (asStr : Value → String)

/-- The value of the last attribute with the given key. -/
def lastValue (key : String) (attributes : List (KeyValue Value)) : Option String :=
  (attributes.filter fun kv ↦ kv.key = key).getLast?.map fun kv ↦ asStr kv.value

theorem lastValue_concat (key : String) (attributes : List (KeyValue Value))
    (kv : KeyValue Value) :
    lastValue asStr key (attributes ++ [kv]) =
      if kv.key = key then some (asStr kv.value) else lastValue asStr key attributes := by
  by_cases hkey : kv.key = key <;> simp [lastValue, hkey]

/-- The last-wins loop over the attributes. -/
theorem protocolAndRequestType_eq (attributes : List (KeyValue Value)) :
    protocolAndRequestType asStr attributes =
      (lastValue asStr "protocol" attributes, lastValue asStr "request_type" attributes) := by
  induction attributes using List.reverseRecOn with
  | nil => rfl
  | append_singleton attributes kv ih =>
    rw [protocolAndRequestType, List.foldl_concat, ← protocolAndRequestType, ih,
      lastValue_concat, lastValue_concat]
    by_cases hprotocol : kv.key = "protocol"
    · simp [hprotocol]
    · by_cases hrequest : kv.key = "request_type"
      · simp [hrequest]
      · simp [hprotocol, hrequest]

/-- Attributes with other keys than `key` do not matter. -/
theorem lastValue_filter (key : String) {kept : String → Bool} (hkept : kept key = true)
    (attributes : List (KeyValue Value)) :
    lastValue asStr key (attributes.filter fun kv ↦ kept kv.key) =
      lastValue asStr key attributes := by
  unfold lastValue
  rw [List.filter_filter]
  congr 2
  apply List.filter_congr
  intro kv _
  by_cases hkey : kv.key = key <;> simp [hkey, hkept]

/-- The order of attributes with distinct keys does not matter. -/
theorem lastValue_perm (key : String) {attributes permuted : List (KeyValue Value)}
    (hperm : attributes.Perm permuted) (hnodup : (attributes.map KeyValue.key).Nodup) :
    lastValue asStr key attributes = lastValue asStr key permuted := by
  have hlength : (attributes.filter fun kv ↦ kv.key = key).length ≤ 1 := by
    have hcount := List.nodup_iff_count_le_one.mp hnodup key
    rwa [List.count_eq_countP, List.countP_map, List.countP_eq_length_filter] at hcount
  have hfilter : (attributes.filter fun kv ↦ kv.key = key) =
      permuted.filter fun kv ↦ kv.key = key := by
    have hfiltered := hperm.filter fun kv ↦ kv.key = key
    match hlist : attributes.filter fun kv ↦ kv.key = key with
    | [] =>
      rw [hlist] at hfiltered ⊢
      exact (List.nil_perm.mp hfiltered).symm
    | [kv] =>
      rw [hlist] at hfiltered ⊢
      exact List.singleton_perm.mp hfiltered
    | _ :: _ :: _ => simp [hlist] at hlength
  rw [lastValue, lastValue, hfilter]

end Attributes

/-! ## Rules -/

/-- The rule's protocol is the span's, and its request types are empty or contain the span's. -/
def TracingSampleRule.Applies (rule : TracingSampleRule)
    (protocol requestType : Option String) : Prop :=
  protocol = some rule.protocol ∧
    (rule.requestTypes = ∅ ∨ ∃ t ∈ rule.requestTypes, requestType = some t)

instance (rule : TracingSampleRule) (protocol requestType : Option String) :
    Decidable (rule.Applies protocol requestType) :=
  inferInstanceAs (Decidable (_ ∧ _))

theorem TracingSampleRule.matchRule_eq (rule : TracingSampleRule) (protocol : String)
    (requestType : Option String) :
    rule.matchRule protocol requestType =
      if rule.Applies (some protocol) requestType then some rule.ratio else none := by
  by_cases hprotocol : protocol = rule.protocol
  · by_cases hempty : rule.requestTypes = ∅
    · simp [matchRule, Applies, hprotocol, hempty]
    · cases requestType <;> simp [matchRule, Applies, hprotocol, hempty]
  · simp [matchRule, Applies, hprotocol]

namespace TracingSampleOptions

/-- The ratio of the first applicable rule in list order, else the default ratio. -/
def ratio (options : TracingSampleOptions) (protocol requestType : Option String) :
    Number binary64 :=
  ((options.rules.find? fun rule ↦ rule.Applies protocol requestType).map
    TracingSampleRule.ratio).getD options.defaultRatio

/-- The scan of `shouldSample` computes that ratio. -/
theorem scan_eq_ratio (options : TracingSampleOptions) (protocol requestType : Option String) :
    (protocol.bind fun p ↦ options.rules.findSome? fun rule ↦
      rule.matchRule p requestType).getD options.defaultRatio =
        options.ratio protocol requestType := by
  unfold ratio
  congr 1
  cases protocol with
  | none => simp [TracingSampleRule.Applies]
  | some protocol =>
    induction options.rules with
    | nil => rfl
    | cons rule rules ih =>
      simp only [Option.bind_some, List.findSome?_cons, List.find?_cons,
        TracingSampleRule.matchRule_eq] at ih ⊢
      by_cases happlies : rule.Applies (some protocol) requestType
      · simp [happlies]
      · simpa [happlies] using ih

theorem ratio_of_forall_not_applies {options : TracingSampleOptions}
    {protocol requestType : Option String}
    (hrules : ∀ rule ∈ options.rules, ¬ rule.Applies protocol requestType) :
    options.ratio protocol requestType = options.defaultRatio := by
  have hfind : (options.rules.find? fun rule ↦ rule.Applies protocol requestType) = none := by
    simpa using hrules
  rw [ratio, hfind]
  rfl

/-- A rule that does not apply, or that stands after an applicable one, is never used. -/
theorem ratio_insert (defaultRatio : Number binary64) (front back : List TracingSampleRule)
    (rule : TracingSampleRule) {protocol requestType : Option String}
    (hrule : ¬ rule.Applies protocol requestType ∨
      ∃ earlier ∈ front, earlier.Applies protocol requestType) :
    ratio ⟨defaultRatio, front ++ rule :: back⟩ protocol requestType =
      ratio ⟨defaultRatio, front ++ back⟩ protocol requestType := by
  have hfind : ((front ++ rule :: back).find? fun rule ↦ rule.Applies protocol requestType) =
      (front ++ back).find? fun rule ↦ rule.Applies protocol requestType := by
    rw [List.find?_append, List.find?_append]
    rcases hrule with hrule | ⟨earlier, hearlier, happlies⟩
    · simp [hrule]
    · have hfound : (front.find? fun rule ↦ rule.Applies protocol requestType).isSome := by
        rw [List.find?_isSome]
        exact ⟨earlier, hearlier, by simpa using happlies⟩
      obtain ⟨found, hfound⟩ := Option.isSome_iff_exists.mp hfound
      simp [hfound]
  simp only [ratio, hfind]

variable {Value : Type} (asStr : Value → String)

theorem shouldSample_decision (options : TracingSampleOptions) (parentContext : Option Context)
    (traceId : TraceId) (attributes : List (KeyValue Value)) :
    (options.shouldSample asStr parentContext traceId attributes).decision =
      sampleBasedOnProbability (options.ratio (lastValue asStr "protocol" attributes)
        (lastValue asStr "request_type" attributes)) traceId := by
  simp only [shouldSample, protocolAndRequestType_eq, scan_eq_ratio]

end TracingSampleOptions

/-! ## The created sampler -/

section CreatedSampler

variable {Value : Type} (asStr : Value → String)
  {traceIdRatioBased : Number binary64 → TraceId → SamplingDecision}

/-- Both samplers make the same threshold test if the SDK's own one is that test. -/
theorem createSampler_decision
    (hsdk : ∀ prob traceId, traceIdRatioBased prob traceId = sampleBasedOnProbability prob traceId)
    (options : TracingSampleOptions) (parentContext : Option Context) (traceId : TraceId)
    (attributes : List (KeyValue Value)) :
    (createSampler options).decision asStr traceIdRatioBased parentContext traceId attributes =
      sampleBasedOnProbability (options.ratio (lastValue asStr "protocol" attributes)
        (lastValue asStr "request_type" attributes)) traceId := by
  obtain ⟨defaultRatio, rules⟩ := options
  cases rules with
  | nil =>
    rw [TracingSampleOptions.ratio_of_forall_not_applies (by simp)]
    exact hsdk defaultRatio traceId
  | cons rule rules => exact TracingSampleOptions.shouldSample_decision asStr _ _ _ _

/-- The keys that a sampling decision reads. -/
def isSamplingKey (key : String) : Bool := key = "protocol" || key = "request_type"

/-- Sampling decides by first match, and agrees with the rule-free fast path. -/
theorem createSampler_decides_by_first_match
    (hsdk : ∀ prob traceId, traceIdRatioBased prob traceId = sampleBasedOnProbability prob traceId)
    (parentContext : Option Context) (traceId : TraceId) :
    let decides (options : TracingSampleOptions) (attributes : List (KeyValue Value)) :=
      (createSampler options).decision asStr traceIdRatioBased parentContext traceId attributes
    (∀ options attributes, decides options attributes =
      sampleBasedOnProbability (options.ratio (lastValue asStr "protocol" attributes)
        (lastValue asStr "request_type" attributes)) traceId) ∧
    (∀ options attributes permuted, attributes.Perm permuted →
      (attributes.map KeyValue.key).Nodup →
        decides options attributes = decides options permuted) ∧
    (∀ options attributes others,
      (attributes.filter fun kv ↦ isSamplingKey kv.key) =
        (others.filter fun kv ↦ isSamplingKey kv.key) →
          decides options attributes = decides options others) ∧
    (∀ defaultRatio front rule back attributes,
      (¬ rule.Applies (lastValue asStr "protocol" attributes)
          (lastValue asStr "request_type" attributes) ∨
        ∃ earlier ∈ front, earlier.Applies (lastValue asStr "protocol" attributes)
          (lastValue asStr "request_type" attributes)) →
        decides ⟨defaultRatio, front ++ rule :: back⟩ attributes =
          decides ⟨defaultRatio, front ++ back⟩ attributes) ∧
    (∀ options attributes,
      (∀ rule ∈ options.rules, ¬ rule.Applies (lastValue asStr "protocol" attributes)
        (lastValue asStr "request_type" attributes)) →
        decides options attributes = decides { options with rules := [] } attributes) := by
  intro decides
  have hdecides (options : TracingSampleOptions) (attributes : List (KeyValue Value)) :
      decides options attributes =
        sampleBasedOnProbability (options.ratio (lastValue asStr "protocol" attributes)
          (lastValue asStr "request_type" attributes)) traceId :=
    createSampler_decision asStr hsdk options parentContext traceId attributes
  refine ⟨hdecides, ?_, ?_, ?_, ?_⟩
  · intro options attributes permuted hperm hnodup
    rw [hdecides, hdecides, lastValue_perm asStr "protocol" hperm hnodup,
      lastValue_perm asStr "request_type" hperm hnodup]
  · intro options attributes others hfilter
    have hlast (key : String) (hkey : isSamplingKey key = true) :
        lastValue asStr key attributes = lastValue asStr key others := by
      rw [← lastValue_filter asStr key hkey attributes, hfilter, lastValue_filter asStr key hkey]
    rw [hdecides, hdecides, hlast "protocol" rfl, hlast "request_type" rfl]
  · intro defaultRatio front rule back attributes hrule
    rw [hdecides, hdecides, TracingSampleOptions.ratio_insert _ _ _ _ hrule]
  · intro options attributes hrules
    rw [hdecides, hdecides, TracingSampleOptions.ratio_of_forall_not_applies hrules,
      TracingSampleOptions.ratio_of_forall_not_applies (by simp)]

/-- A read over gRPC is always sampled in either order of its attributes, a write never, and the
write is decided as without the rule. -/
theorem createSampler_decides_grpc_read :
    let options : TracingSampleOptions := ⟨zero, [⟨"grpc", {"read"}, one⟩]⟩
    let protocol : KeyValue String := ⟨"protocol", "grpc"⟩
    let decides (options : TracingSampleOptions) (attributes : List (KeyValue String)) :=
      (createSampler options).decision id sampleBasedOnProbability none 1 attributes
    decides options [protocol, ⟨"request_type", "read"⟩] = .recordAndSample ∧
      decides options [protocol, ⟨"request_type", "read"⟩] =
        decides options [⟨"request_type", "read"⟩, protocol] ∧
      decides options [protocol, ⟨"request_type", "write"⟩] = .drop ∧
      decides options [protocol, ⟨"request_type", "write"⟩] =
        decides { options with rules := [] } [protocol, ⟨"request_type", "write"⟩] := by
  intro options protocol decides
  have hsdk (prob : Number binary64) (traceId : TraceId) :
      sampleBasedOnProbability prob traceId = sampleBasedOnProbability prob traceId := rfl
  obtain ⟨hratio, hperm, -, -, hclear⟩ := createSampler_decides_by_first_match id hsdk none 1
  refine ⟨(hratio _ _).trans (by decide +kernel), hperm _ _ _ (.swap _ _ []) (by decide),
    (hratio _ _).trans (by decide +kernel), hclear _ _ (by decide)⟩

end CreatedSampler

end Filestore.Telemetry

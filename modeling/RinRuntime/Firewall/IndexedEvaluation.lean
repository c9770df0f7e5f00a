/-
Firewall.IndexedEvaluation — the indexed and the linear evaluation compared.

The index of an accepted set is built and passes the header test, its candidate lists hold every rule that
can match the packet, and the merge selects the winners of the WHOLE table. The table scan selects those of
the cells it reads before its early exit. The two agree exactly when the cells behind the exit would not
have changed the outcome (`ScanSuffices`).
-/
import RinRuntime.Firewall.RuleIndexTables
import RinRuntime.Firewall.RuleSetInvariant

namespace RinRuntime.Firewall
open Lib
variable {A : Abi} {set : RuleSet A} {packet : Packet A}

/-! ## §1. The index of an accepted set. -/

variable {index : RuleIndex A} {rule : Rule A}
  {generic application : List Nat} {sel : Selection} {n i : Nat}

theorem rule_mem_active (hs : WellFormed set) (hi : i < set.ruleCount.toNat) : set.rule i ∈ set.active := by
  have hlen := length_active set hs.header.2.2.2.2.2.1
  rw [← getElem_active set i (by omega)]
  exact List.getElem_mem _

theorem exists_rule_of_mem_active (hs : WellFormed set)
    (h : rule ∈ set.active) : ∃ i < set.ruleCount.toNat, set.rule i = rule := by
  have hlen := length_active set hs.header.2.2.2.2.2.1
  obtain ⟨i, hi, rfl⟩ := List.getElem_of_mem h
  exact ⟨i, by omega, (getElem_active set i hi).symm⟩

theorem WellFormed.indexable (hs : WellFormed set) : Indexable set where
  ids := by
    have hlen := length_active set hs.header.2.2.2.2.2.1
    have hpair := List.pairwise_iff_getElem.mp hs.rules_compatible
    intro i j hi hj hne
    rw [← getElem_active set i (by omega), ← getElem_active set j (by omega)]
    rcases Nat.lt_or_gt_of_ne hne with hlt | hgt
    · exact (hpair i j (by omega) (by omega) hlt).1
    · exact (hpair j i (by omega) (by omega) hgt).1.symm
  count := hs.header.2.2.2.2.2.1

theorem direction_of_directionValid {direction : BitVec 8} (h : directionValid A direction = true) :
    1 ≤ direction.toNat ∧ direction.toNat - 1 < A.directionCount := by
  have hinput := A.directionInput_pos
  have hfwd := A.directionForward_le
  simp only [directionValid, Bool.and_eq_true, decide_eq_true_eq, BitVec.le_def] at h
  omega

theorem ruleValidate_direction (h : ruleValidate A rule = .ok) :
    directionValid A rule.direction = true := by
  rw [ruleValidate_eq_ok] at h
  by_contra hd
  apply h.2.1
  unfold rulePolicyMalformed
  simp only [Bool.not_eq_true] at hd
  simp [hd]

theorem ruleValidate_application (h : ruleValidate A rule = .ok)
    (happ : rule.has .matchApplication = true) : bytesZero rule.applicationId.toList = false := by
  rw [ruleValidate_eq_ok] at h
  by_contra hz
  apply h.2.2.1
  unfold ruleMatcherMalformed
  simp only [Bool.not_eq_false] at hz
  simp [happ, hz]

/-- What the build guarantees about the index of an accepted set. -/
structure IndexOf (set : RuleSet A) (index : RuleIndex A) : Prop where
  header : ruleIndexHeaderValid A set index
  mask : ∀ k, index.activeGuardDirectionMask.getLsbD k = true ↔
    ∃ rule ∈ set.active, activeGuard rule ∧ rule.direction.toNat - 1 = k
  applications_sorted : ApplicationsSorted index.applications
  applications_has : ∀ id, hasApplication index.applications id ↔
    ∃ rule ∈ set.active, rule.has .matchApplication = true ∧ rule.applicationId = id
  groups : ∀ bucket ∈ index.applications,
    bucket.firstRule + bucket.ruleCount ≤ index.applicationRuleIndices.length ∧
      IsApplicationGroup set bucket.applicationId (bucket.slice index.applicationRuleIndices)
  buckets : BucketsUpTo set set.ruleCount.toNat index.buckets

theorem applicationsSorted_of_map_eq {K : AbiConstants} {l l' : List (ApplicationBucket K)}
    (h : l.map (·.applicationId) = l'.map (·.applicationId)) (hs : ApplicationsSorted l') :
    ApplicationsSorted l := by
  have key : ∀ l : List (ApplicationBucket K), ApplicationsSorted l ↔ (l.map (·.applicationId)).Pairwise
        (fun a b => applicationIdValue a.toList < applicationIdValue b.toList) := by
    intro l
    rw [List.pairwise_map]
    rfl
  rw [key, h, ← key]
  exact hs

theorem hasApplication_iff_mem_map {K : AbiConstants} (l : List (ApplicationBucket K))
    (id : Vector (BitVec 8) K.applicationIdSize) : hasApplication l id ↔ id ∈ l.map (·.applicationId) := by
  simp only [hasApplication, List.mem_map]

/-- **The build succeeds on an accepted set**, and the index is the index of that set. -/
theorem ruleIndexBuild_ok (hs : WellFormed set) :
    ∃ index, ruleIndexBuild A set = (.ok, index) ∧ IndexOf set index := by
  have hix := hs.indexable
  have hcnt := hs.header.2.2.2.2.2.1
  have hlen := length_active set hcnt
  obtain ⟨groups, hgroup, hsorted, hglen, hhas⟩ := groupApplications_ok set.active []
    List.Pairwise.nil (by rw [List.length_nil]; omega)
  obtain ⟨flat, hflat, hids, hslices, hcells, hnodup⟩ := flattenApplications_spec hix groups []
  obtain ⟨buckets, hfill, hbuckets⟩ := fillBuckets_ok hix set.ruleCount.toNat 0 (by omega) _
    bucketsUpTo_zero
  rw [← List.range_eq_range'] at hfill
  rw [List.nil_append] at hflat hslices
  have hgnodup : (groups.map (·.applicationId)).Nodup := by
    rw [List.Nodup, List.pairwise_map]
    exact hsorted.imp (fun {a b} hab he => by
      simp only [ApplicationBucket.value, he] at hab; omega)
  have hdirections : ∀ rule ∈ set.active, 1 ≤ rule.direction.toNat ∧
      rule.direction.toNat - 1 < A.directionCount := fun rule hr =>
    direction_of_directionValid (ruleValidate_direction (hs.rules_valid rule hr))
  have hmask := getLsbD_activeGuardMask set.active
    (fun rule hr => Nat.lt_trans (hdirections rule hr).2 A.directionCount_lt)
  have happlen : (flattenApplications set groups []).1.length ≤ A.maxRules := by
    have := congrArg List.length hids
    simp only [List.length_map] at this
    rw [List.length_nil] at hglen
    omega
  refine ⟨{ structSize := A.sizeofRuleIndex, version := ruleIndexVersion, reserved0 := 0,
            generation := set.generation, ruleCount := set.ruleCount, reserved1 := 0,
            activeGuardDirectionMask := activeGuardMask A set.active,
            applications := (flattenApplications set groups []).1,
            applicationRuleIndices := (flattenApplications set groups []).2,
            buckets := buckets }, ?_, ?_⟩
  · unfold ruleIndexBuild
    rw [if_neg (by simp [hs.accepted]), hgroup]
    simp only [hfill]
  refine ⟨⟨hs.header.1, hs.header.2.1, hcnt, hs.header.2.2.2.2.1, rfl, rfl, rfl, rfl, ?_, rfl,
    rfl, happlen, ?_, hs.header.2.2.2.2.2.2.1⟩, hmask, applicationsSorted_of_map_eq hids hsorted,
    ?_, ?_, hbuckets⟩
  · apply and_not_ones_eq_zero A.directionCount_lt
    intro k hk
    obtain ⟨rule, hr, -, rfl⟩ := (hmask k).mp hk
    exact (hdirections rule hr).2
  · show (flattenApplications set groups []).2.length ≤ set.ruleCount.toNat
    rw [hflat]
    exact length_le_of_nodup (hnodup hgnodup) (fun x hx => (hcells x hx).1)
  · intro id
    show hasApplication (flattenApplications set groups []).1 id ↔ _
    rw [hasApplication_iff_mem_map, hids, ← hasApplication_iff_mem_map, hhas id]
    simp [hasApplication]
  intro bucket hb
  show _ ≤ (flattenApplications set groups []).2.length ∧
    IsApplicationGroup set _ (bucket.slice (flattenApplications set groups []).2)
  rw [hflat]
  exact hslices bucket hb

/-! ## §2. The candidates of a packet. -/

theorem of_ite_false {c : Prop} [Decidable c] {rest : Bool}
    (h : (if c then false else rest) = true) : ¬ c ∧ rest = true := by
  by_cases hc : c
  · rw [if_pos hc] at h
    cases h
  · exact ⟨hc, by rwa [if_neg hc] at h⟩

theorem of_ite_malformed {c : Prop} [Decidable c] {refused rest : Status} (hr : refused ≠ .ok)
    (h : (if c then refused else rest) = .ok) : ¬ c ∧ rest = .ok := by
  by_cases hc : c
  · rw [if_pos hc] at h
    exact absurd h hr
  · exact ⟨hc, by rwa [if_neg hc] at h⟩

/-- What a match says about the fields the index is keyed by. -/
theorem ruleMatches_keys (h : ruleMatches A rule packet = true) : rule.direction = packet.direction ∧
      (rule.family = A.familyAny ∨ rule.family = packet.family) ∧
      (rule.protocol = A.protocolAny ∨ rule.protocol = packet.protocol) ∧ rule.has .enabled = true ∧
      (rule.has .matchApplication = true → rule.applicationId = packet.applicationId) := by
  obtain ⟨-, h⟩ := of_ite_false h
  obtain ⟨h2, h⟩ := of_ite_false h
  -- past addresses, interface, namespace, identity, profile and mark, to the application
  obtain ⟨-, h⟩ := of_ite_false h
  obtain ⟨-, h⟩ := of_ite_false h
  obtain ⟨-, h⟩ := of_ite_false h
  obtain ⟨-, h⟩ := of_ite_false h
  obtain ⟨-, h⟩ := of_ite_false h
  obtain ⟨-, h⟩ := of_ite_false h
  obtain ⟨-, h⟩ := of_ite_false h
  obtain ⟨h10, -⟩ := of_ite_false h
  push Not at h2 h10
  refine ⟨h2.2.1, ?_, ?_, ?_, ?_⟩
  · by_cases hf : rule.family = A.familyAny
    · exact .inl hf
    · exact .inr (h2.2.2.1 hf)
  · by_cases hp : rule.protocol = A.protocolAny
    · exact .inl hp
    · exact .inr (h2.2.2.2 hp)
  · -- the masked flags equal the enabled bit, so that bit is set
    rw [Rule.has_iff]
    have hbit := (A.ruleFlagBit .enabled).isLt
    have hand := congrArg (fun flags : BitVec 16 => flags.getLsbD (A.ruleFlagBit .enabled).val) h2.1
    simp only [BitVec.getLsbD_and, AbiConstants.ruleFlag, getLsbD_bit hbit, decide_true,
      Bool.and_eq_true] at hand
    exact hand.1
  intro happ
  have heq := h10 happ
  simp only [bytesEqual, ne_eq, Bool.not_eq_false, beq_iff_eq] at heq
  exact Vector.toList_inj.mp heq

theorem packetValidate_keys (h : packetValidate A packet = .ok) : directionValid A packet.direction = true ∧
      ruleIndexFamily A packet.family < ruleIndexFamilyCount := by
  obtain ⟨-, h⟩ := of_ite_malformed (by decide) h
  obtain ⟨h2, -⟩ := of_ite_malformed (by decide) h
  push Not at h2
  obtain ⟨-, -, hdir, hfam, hany, -⟩ := h2
  refine ⟨by simpa using hdir, ?_⟩
  simp only [familyValid, ne_eq, Bool.not_eq_false, Bool.or_eq_true, beq_iff_eq] at hfam
  unfold ruleIndexFamily
  rcases hfam with (hf | hf) | hf
  · exact absurd hf hany
  · rw [if_pos hf]
    decide
  · split_ifs <;> decide

/-- The generic bucket of a packet, the application group it may have, and what they hold. -/
structure CandidatesOf (set : RuleSet A) (packet : Packet A)
    (generic application : List Nat) : Prop where
  merge : MergeState set packet generic application none none ∅ (fun _ => none)
  complete : ∀ x < set.ruleCount.toNat, ruleMatches A (set.rule x) packet = true →
    x ∈ generic ∨ x ∈ application

theorem applicationGroup_nil_of_not_has (hs : WellFormed set)
    (hno : ¬ ∃ rule ∈ set.active, rule.has .matchApplication = true ∧
      rule.applicationId = packet.applicationId) : IsApplicationGroup set packet.applicationId [] := by
  refine ⟨List.Pairwise.nil, fun x => iff_of_false List.not_mem_nil ?_⟩
  rintro ⟨hx, hin⟩
  exact hno ⟨set.rule x, rule_mem_active hs hx, inApplicationGroup_iff.mp hin⟩

/-- A bucket and an application group of the packet are the candidates of the packet. -/
theorem candidatesOf_group (hidx : IndexOf set index)
    (hpkt : packetValidate A packet = .ok) {group : List Nat}
    (hgroup : IsApplicationGroup set packet.applicationId group) : CandidatesOf set packet
      (index.buckets (packet.direction.toNat - 1) (ruleIndexFamily A packet.family)
        (ruleIndexProtocol A packet.protocol)) group := by
  obtain ⟨hsorted, hmem⟩ := hidx.buckets (packet.direction.toNat - 1) (ruleIndexFamily A packet.family)
    (ruleIndexProtocol A packet.protocol)
  obtain ⟨-, hcell⟩ := packetValidate_keys hpkt
  refine ⟨⟨hsorted, hgroup.1, fun x hx => ((hmem x).mp hx).1, fun x hx => ((hgroup.2 x).mp hx).1, ?_,
    fun j hj => absurd hj (Set.notMem_empty j), fun j hj => absurd hj (Set.notMem_empty j),
    fun j hj => (by cases hj), fun j hj => (by cases hj), Selected.empty⟩, ?_⟩
  · -- a generic rule names no application
    intro g hg a ha he
    subst he
    have h1 := ((hmem g).mp hg).2.1
    have h2 := (inApplicationGroup_iff.mp ((hgroup.2 g).mp ha).2).1
    exact absurd (h2.symm.trans h1) (by decide)
  intro x hx hmatch
  obtain ⟨hdir, hfam, hproto, -, happ⟩ := ruleMatches_keys hmatch
  by_cases happlication : (set.rule x).has .matchApplication = true
  · exact .inr ((hgroup.2 x).mpr ⟨hx, inApplicationGroup_iff.mpr ⟨happlication, happ happlication⟩⟩)
  · refine .inl ((hmem x).mpr ⟨hx, by simpa using happlication, by rw [hdir], ?_⟩)
    exact mem_rulePlaces hcell hfam hproto

theorem CandidatesOf.length_le (h : CandidatesOf set packet generic application) :
    generic.length + application.length ≤ set.ruleCount.toNat := by
  rw [← List.length_append]
  apply length_le_of_nodup
  · refine List.nodup_append.mpr ⟨nodup_of_sorted h.merge.generic_sorted,
      nodup_of_sorted h.merge.application_sorted, ?_⟩
    exact fun g hg a ha => h.merge.disjoint g hg a ha
  intro x hx
  rcases List.mem_append.mp hx with hx | hx
  · exact h.merge.generic_range x hx
  · exact h.merge.application_range x hx

/-- **The candidates**: the index of an accepted set gives an accepted packet two lists that hold
every rule that can match it. -/
theorem ruleIndexCandidates_ok (hidx : IndexOf set index)
    (hs : WellFormed set) (hpkt : packetValidate A packet = .ok) :
    ∃ generic application, ruleIndexCandidates A set index packet = some (generic, application) ∧
      CandidatesOf set packet generic application := by
  obtain ⟨-, hcell⟩ := packetValidate_keys hpkt
  have hproto : ruleIndexProtocol A packet.protocol < ruleIndexProtocolCount :=
    ruleIndexProtocol_lt packet.protocol
  set bucket := index.buckets (packet.direction.toNat - 1) (ruleIndexFamily A packet.family)
    (ruleIndexProtocol A packet.protocol) with hbucket
  by_cases hhas : ∃ rule ∈ set.active, rule.has .matchApplication = true ∧
      rule.applicationId = packet.applicationId
  · -- some rule names the packet's application, which is therefore not the zero identifier
    obtain ⟨position, group, hfind, hget, hid⟩ :=
      applicationFind_of_has hidx.applications_sorted ((hidx.applications_has _).mpr hhas)
    obtain ⟨hextent, hgroup⟩ := hidx.groups group (List.mem_of_getElem? hget)
    rw [hid] at hgroup
    have hcand := candidatesOf_group hidx hpkt hgroup
    have hlen := hcand.length_le
    have hslice : (group.slice index.applicationRuleIndices).length = group.ruleCount := by
      simp only [ApplicationBucket.slice, List.length_take, List.length_drop]
      omega
    rw [hslice, ← hbucket] at hlen
    have hnonzero : bytesZero packet.applicationId.toList = false := by
      obtain ⟨rule, hr, happ, hrid⟩ := hhas
      rw [← hrid]
      exact ruleValidate_application (hs.rules_valid rule hr) happ
    refine ⟨_, _, ?_, hcand⟩
    simp only [ruleIndexCandidates]
    rw [if_neg (by omega), if_neg (by rw [← hbucket]; omega)]
    simp only [hnonzero, Bool.false_eq_true, if_false, hfind, hget]
    rw [if_neg (by omega), if_neg (by rw [← hbucket]; omega)]
    rfl
  have hcand := candidatesOf_group hidx hpkt (applicationGroup_nil_of_not_has hs hhas)
  have hlen := hcand.length_le
  rw [List.length_nil, ← hbucket] at hlen
  refine ⟨_, _, ?_, hcand⟩
  simp only [ruleIndexCandidates]
  rw [if_neg (by omega), if_neg (by rw [← hbucket]; omega)]
  by_cases hzero : bytesZero packet.applicationId.toList = true
  · simp only [if_pos hzero]
  obtain ⟨position, hfind, -⟩ := applicationFind_of_not_has hidx.applications_sorted
    (fun h => hhas ((hidx.applications_has _).mp h))
  simp only [if_neg hzero, hfind]

/-! ## §3. The winners of the whole table. -/

/-- The cells of the two candidate lists compete like the whole table. -/
theorem competitors_candidates (h : CandidatesOf set packet generic application) (kind : RuleKind) :
    competitors set packet (∅ ∪ {x | x ∈ generic ∨ x ∈ application}) kind
      = competitors set packet {i | i < set.ruleCount.toNat} kind := by
  ext x
  constructor
  · rintro ⟨hx, hm⟩
    rcases hx with hx | hx | hx
    · exact absurd hx (Set.notMem_empty x)
    · exact ⟨h.merge.generic_range x hx, hm⟩
    · exact ⟨h.merge.application_range x hx, hm⟩
  · rintro ⟨hx, hm⟩
    exact ⟨.inr (h.complete x hx hm.1), hm⟩

/-- The merge selects from the whole table. -/
theorem selectIndexed_selected (hs : WellFormed set) (h : CandidatesOf set packet generic application) :
    ∃ sel, selectIndexed set packet (generic.length + application.length) generic application none
        none (fun _ => none) = some sel ∧ Selected set packet {i | i < set.ruleCount.toNat} sel := by
  obtain ⟨sel, hrun, hsel⟩ := selectIndexed_from hs.indexable.ids _ generic application none none ∅ _
    (Nat.le_refl _) h.merge
  refine ⟨sel, hrun, fun kind => ?_⟩
  rw [← competitors_candidates h kind]
  exact hsel kind

/-! ## §4. When the early exit changes nothing. -/

/-- Cell `i` holds the first rule of its kind that matches, among the first `n` cells. -/
def FirstOfKind (set : RuleSet A) (packet : Packet A)
    (kind : RuleKind) (n i : Nat) : Prop :=
  i < n ∧ MatchesKind set packet kind i ∧
    ∀ j < n, MatchesKind set packet kind j → j ≠ i → CellPrecedes set i j

instance (set : RuleSet A) (packet : Packet A) (kind : RuleKind)
    (n i : Nat) : Decidable (FirstOfKind set packet kind n i) := by
  unfold FirstOfKind; infer_instance

/-- Two guards have the same effect on a disabled firewall: they are one rule, or neither denies. -/
def SameVerdict (set : RuleSet A) (i j : Nat) : Prop :=
  i = j ∨ ((set.rule i).action = A.actionAllow ∧ (set.rule j).action = A.actionAllow)

instance (set : RuleSet A) (i j : Nat) : Decidable (SameVerdict set i j) := by
  unfold SameVerdict; infer_instance

/-- Stopping after `n` cells is harmless: with the firewall enabled the first bypass rule among them
is the first of the table; with the firewall disabled the first guard among them and the first of the
table have the same effect. -/
def ExitHarmless (set : RuleSet A) (packet : Packet A) (n : Nat) :
    Prop :=
  if set.enabled ≠ 0 then
    ∀ i < n, FirstOfKind set packet .bypass n i →
      FirstOfKind set packet .bypass set.ruleCount.toNat i
  else
    ∀ i < n, FirstOfKind set packet .guard n i →
      ∀ j < set.ruleCount.toNat, FirstOfKind set packet .guard set.ruleCount.toNat j →
        SameVerdict set i j

instance (set : RuleSet A) (packet : Packet A) (n : Nat) :
    Decidable (ExitHarmless set packet n) := by
  unfold ExitHarmless; infer_instance

/-- The cells up to the early exit decide: where the four kinds are complete for the first time,
stopping is harmless. -/
def ScanSuffices (set : RuleSet A) (packet : Packet A) : Prop :=
  ∀ n ≤ set.ruleCount.toNat, FourKinds set packet n → (∀ m < n, ¬ FourKinds set packet m) →
    ExitHarmless set packet n

instance (set : RuleSet A) (packet : Packet A) :
    Decidable (ScanSuffices set packet) := by
  unfold ScanSuffices; infer_instance

theorem winner_iff_firstOfKind {kind : RuleKind} {n i : Nat} :
    Winner (CellPrecedes set) (competitors set packet {j | j < n} kind) (some i) ↔
      FirstOfKind set packet kind n i := by
  constructor
  · rintro ⟨⟨hi, hm⟩, hfst⟩
    exact ⟨hi, hm, fun j hj hmj hne => hfst j ⟨hj, hmj⟩ hne⟩
  · rintro ⟨hi, hm, hfst⟩
    exact ⟨⟨hi, hm⟩, fun j hj hne => hfst j hj.1 hj.2 hne⟩

/-- The selected cell of a kind is the first of its kind, and the only one. -/
theorem Selected.eq_some_iff (h : Selected set packet {i | i < n} sel) (kind : RuleKind) (i : Nat) :
    sel kind = some i ↔ FirstOfKind set packet kind n i := by
  rw [← winner_iff_firstOfKind]
  constructor
  · intro hsel
    have := h kind
    rwa [hsel] at this
  · intro hwin
    exact (h kind).unique (cellPrecedes_asymm set) hwin

theorem Selected.lt (h : Selected set packet {i | i < n} sel)
    {kind : RuleKind} (hi : sel kind = some i) : i < n :=
  ((h.eq_some_iff kind i).mp hi).1

theorem FourKinds.mono {n m : Nat} (h : FourKinds set packet n) (hnm : n ≤ m) : FourKinds set packet m := by
  intro kind hkind
  obtain ⟨i, hi, hm⟩ := h kind hkind
  exact ⟨i, by omega, hm⟩

theorem Selected.exists_of_fourKinds
    (h : Selected set packet {i | i < n} sel) (hfour : FourKinds set packet n) (kind : RuleKind) :
    ∃ i, sel kind = some i := by
  have hmem : kind ∈ [RuleKind.bypass, .system, .guard, .regular] := by cases kind <;> simp
  obtain ⟨i, hi, hm⟩ := hfour kind hmem
  exact Option.isSome_iff_exists.mp ((h kind).isSome_iff.mpr ⟨i, hi, hm⟩)

/-- With all four kinds present the deciding rule is the bypass winner, or, disabled, a guard winner
that denies. -/
theorem decidingRule_of_full {b g : Nat} (hb : sel .bypass = some b) (hg : sel .guard = some g) :
    decidingRule A set sel = if set.enabled ≠ 0 then some (some b)
      else if (set.rule g).action ≠ A.actionAllow then some (some g) else none := by
  unfold decidingRule
  by_cases he : set.enabled = 0
  · by_cases ha : (set.rule g).action = A.actionAllow
    · simp [he, hg, ha]
    · simp [he, hg, ha]
  · rw [if_pos ⟨he, by rw [hb]; rfl⟩, if_pos he, hb]

/-- **The deciding rules agree exactly when the scan suffices.** -/
theorem decidingRule_eq_iff (hend : ScanEnd set packet n) {sel sel' : Selection}
    (hsel : Selected set packet {i | i < n} sel)
    (hsel' : Selected set packet {i | i < set.ruleCount.toNat} sel') :
    decidingRule A set sel' = decidingRule A set sel ↔ ScanSuffices set packet := by
  obtain ⟨hn, hbef, hlast⟩ := hend
  by_cases hfour : FourKinds set packet n
  · -- the scan stopped at `n`: all winners exist on both sides
    have hfour' := hfour.mono hn
    obtain ⟨b, hb⟩ := hsel.exists_of_fourKinds hfour .bypass
    obtain ⟨g, hg⟩ := hsel.exists_of_fourKinds hfour .guard
    obtain ⟨b', hb'⟩ := hsel'.exists_of_fourKinds hfour' .bypass
    obtain ⟨g', hg'⟩ := hsel'.exists_of_fourKinds hfour' .guard
    -- `n` is the only stopping point
    have honly : ScanSuffices set packet ↔ ExitHarmless set packet n := by
      refine ⟨fun h => h n hn hfour hbef, fun h m hm hfm hbm => ?_⟩
      rcases Nat.lt_trichotomy m n with hlt | rfl | hgt
      · exact absurd hfm (hbef m hlt)
      · exact h
      · exact absurd hfour (hbm n hgt)
    -- the first cells of their kinds are the winners
    have hharm : ExitHarmless set packet n ↔ if set.enabled ≠ 0 then b' = b else SameVerdict set g g' := by
      simp only [ExitHarmless, ← hsel.eq_some_iff, ← hsel'.eq_some_iff, hb, hb', hg, hg', Option.some.injEq]
      have hbn := hsel.lt hb
      have hgn := hsel.lt hg
      have hgn' := hsel'.lt hg'
      grind
    rw [honly, hharm, decidingRule_of_full hb hg, decidingRule_of_full hb' hg', SameVerdict]
    split_ifs with he ha' ha ha
    · simp
    · simp only [Option.some.injEq, ha, false_and, or_false]
      exact eq_comm
    · push Not at ha
      refine iff_of_false (by simp) ?_
      rintro (rfl | ⟨-, h⟩)
      · exact ha' ha
      · exact ha' h
    · push Not at ha'
      refine iff_of_false (by simp) ?_
      rintro (rfl | ⟨h, -⟩)
      · exact ha ha'
      · exact ha h
    · push Not at ha ha'
      exact iff_of_true rfl (.inr ⟨ha, ha'⟩)
  -- the scan read the whole table
  have hwhole : n = set.ruleCount.toNat := hlast.resolve_right hfour
  subst hwhole
  have heq : sel' = sel := funext fun kind =>
    (hsel' kind).unique (cellPrecedes_asymm set) (hsel kind)
  refine iff_of_true (by rw [heq]) ?_
  intro m hm hfm
  exact absurd (hfm.mono hm) hfour

/-! ## §5. The two evaluations. -/

/-- The part of the result the entry points hand out. -/
def outcome (result : Status × Decision × RuleSet A × Option Nat) :
    Status × Option Decision × RuleSet A :=
  (result.1, some result.2.1, result.2.2.1)

/-- The outcome shows which rule decided. -/
theorem outcome_conclude_eq_iff (hs : WellFormed set) {sel sel' : Selection}
    (hsel : ∀ kind i, sel kind = some i → i < set.ruleCount.toNat)
    (hsel' : ∀ kind i, sel' kind = some i → i < set.ruleCount.toNat) :
    outcome (conclude A set packet true sel') = outcome (conclude A set packet true sel) ↔
      decidingRule A set sel' = decidingRule A set sel := by
  constructor
  · intro h
    have hdec : (conclude A set packet true sel').2.1 = (conclude A set packet true sel).2.1 :=
      Option.some.inj (congrArg (fun r => r.2.1) h)
    have hmatched := congrArg Decision.matched hdec
    have hruleId := congrArg Decision.ruleId hdec
    -- a disabled firewall never falls back on the default action
    have hnone : ∀ s s' : Selection, decidingRule A set s = none → decidingRule A set s' ≠ some none := by
      intro s s' h1 h2
      simp only [decidingRule] at h1 h2
      split_ifs at h1 h2 with c1 c2 c3 c4 c5 c6 c7 c8 c9
      all_goals simp_all
    rcases hd' : decidingRule A set sel' with _ | (_ | b')
    · rcases hd : decidingRule A set sel with _ | (_ | b)
      · rfl
      · exact absurd hd (hnone sel' sel hd')
      · simp [conclude, hd, hd', decisionInit] at hmatched
    · rcases hd : decidingRule A set sel with _ | (_ | b)
      · exact absurd hd' (hnone sel sel' hd)
      · rfl
      · simp [conclude, hd, hd', decisionInit] at hmatched
    rcases hd : decidingRule A set sel with _ | (_ | b)
    · simp [conclude, hd, hd', decisionInit] at hmatched
    · simp [conclude, hd, hd', decisionInit] at hmatched
    -- identifiers tell the live rules apart
    obtain ⟨kind, hk⟩ := decidingRule_eq_some hd
    obtain ⟨kind', hk'⟩ := decidingRule_eq_some hd'
    have hid : (set.rule b').id = (set.rule b).id := by
      simpa [conclude, hd, hd'] using hruleId
    by_contra hne
    have hbb : b' ≠ b := fun he => hne (by rw [he])
    exact hs.indexable.ids b' b (hsel' kind' b' hk') (hsel kind b hk) hbb hid
  intro h
  unfold conclude
  rw [h]

theorem evaluate_eq_outcome (hs : WellFormed set) (hpkt : packetValidate A packet = .ok) :
    evaluate A set (some packet) true = outcome (conclude A set packet true
      (selectLinear set packet (fun _ => none) (List.range set.ruleCount.toNat))) := by
  simp [evaluate, evaluateInternal, hpkt, hs.accepted, outcome]

/-- No guard of the packet's direction is enabled, so no guard matches. -/
theorem guard_none_of_mask (hidx : IndexOf set index)
    (hs : WellFormed set) (hpkt : packetValidate A packet = .ok)
    (hmask : index.activeGuardDirectionMask &&& (1#32 <<< (packet.direction.toNat - 1)) = 0)
    (hi : i < set.ruleCount.toNat) : ¬ MatchesKind set packet .guard i := by
  rintro ⟨hmatch, hkind⟩
  obtain ⟨hdir, -, -, henabled, -⟩ := ruleMatches_keys hmatch
  have hguard : (set.rule i).has .policyGuard = true := by
    unfold ruleKind at hkind
    split_ifs at hkind with h1 h2 h3
    exact h3
  obtain ⟨-, hlt⟩ := direction_of_directionValid (packetValidate_keys hpkt).1
  have hlt32 : packet.direction.toNat - 1 < 32 := Nat.lt_trans hlt A.directionCount_lt
  have hbit := (hidx.mask (packet.direction.toNat - 1)).mpr
    ⟨set.rule i, rule_mem_active hs hi, ⟨henabled, hguard⟩, by rw [hdir]⟩
  exact absurd hmask ((and_bit_ne_zero _ hlt32).mpr hbit)

/-- **The indexed evaluation** concludes from the winners of the whole table. -/
theorem evaluateIndexed_eq_outcome
    (hidx : IndexOf set index) (hs : WellFormed set) (hpkt : packetValidate A packet = .ok) :
    ∃ sel, Selected set packet {i | i < set.ruleCount.toNat} sel ∧
      evaluateIndexed A set (some index) (some packet) true = outcome (conclude A set packet true sel) := by
  obtain ⟨generic, application, hcand, hof⟩ := ruleIndexCandidates_ok hidx hs hpkt
  obtain ⟨sel, hrun, hsel⟩ := selectIndexed_selected hs hof
  refine ⟨sel, hsel, ?_⟩
  simp only [evaluateIndexed, evaluateInternal, hpkt, hcand, hrun]
  rw [if_neg (by simp), if_neg (by simp), if_neg (by simp [hidx.header])]
  split
  · next hquick =>
    -- the short cut of a disabled firewall without guards
    have hguard : sel .guard = none := by
      cases hg : sel .guard with
      | none => rfl
      | some i =>
        obtain ⟨hi, hm, -⟩ := (hsel.eq_some_iff _ _).mp hg
        exact absurd hm (guard_none_of_mask hidx hs hpkt hquick.2 hi)
    have hdecide : decidingRule A set sel = none := by
      simp [decidingRule, hguard, hquick.1]
    simp [conclude, hdecide, outcome]
  · rfl

/-- **Indexed and linear evaluation.** On an accepted set and an accepted packet the index is built,
and the two entry points return the same status, decision and rule set exactly when the cells up to
the early exit of the scan decide. -/
theorem evaluateIndexed_eq_evaluate_iff (A : Abi) (set : RuleSet A.toAbiConstants)
    (packet : Packet A.toAbiConstants) (hset : ruleSetValidate A set = .ok)
    (hpkt : packetValidate A packet = .ok) : (ruleIndexBuild A set).1 = .ok ∧
      (evaluateIndexed A set (some (ruleIndexBuild A set).2) (some packet) true
          = evaluate A set (some packet) true ↔ ScanSuffices set packet) := by
  have hs := (ruleSetValidate_eq_ok set).mp hset
  obtain ⟨index, hbuild, hidx⟩ := ruleIndexBuild_ok hs
  rw [hbuild]
  refine ⟨rfl, ?_⟩
  obtain ⟨sel', hsel', heval'⟩ := evaluateIndexed_eq_outcome hidx hs hpkt
  obtain ⟨n, hend, hsel⟩ : ∃ n, ScanEnd set packet n ∧ _ := selectLinear_selected
    (fun i j hij hj => hs.indexable.ids j i hj (by omega) (by omega))
  rw [heval', evaluate_eq_outcome hs hpkt,
      outcome_conclude_eq_iff hs (fun kind i hi => Nat.lt_of_lt_of_le (hsel.lt hi) hend.1)
        (fun kind i hi => hsel'.lt hi)]
  exact decidingRule_eq_iff hend hsel hsel'

/-! ## §6. A rule behind the early exit. -/

/-- An enabled wildcard rule for input, with the fields the four kinds differ in. -/
def compactRule (id : BitVec 64) (priority : BitVec 32) (ruleClass : BitVec 8) (flags : BitVec 16)
    (namespaceId : BitVec 64) (owner : BitVec 32) : Rule compactAbi :=
  { Rule.zero compactAbi with
    structSize := compactAbi.sizeofRule
    version := compactAbi.abiVersion
    flags := compactAbi.ruleFlag .enabled ||| flags
    id := id
    priority := priority
    ruleClass := ruleClass
    direction := compactAbi.directionInput
    action := compactAbi.actionAllow
    namespaceId := namespaceId
    name := (Vector.replicate _ 0).set 0 0x72 (by decide)
    reserved := (Vector.replicate _ 0).set 0 owner }

/-- An infrastructure exception. -/
def compactBypass (id : BitVec 64) (priority : BitVec 32) : Rule compactAbi :=
  compactRule id priority 1 (compactAbi.ruleFlag .systemCritical ||| compactAbi.ruleFlag .policyBypass)
    0 0

theorem compactRules_pos : 0 < compactAbi.maxRules := by decide
theorem compactRules_one : 1 < compactAbi.maxRules := by decide

/-- Bypass, system, guard and regular rule in this order, then a bypass rule of better priority. -/
def overtakenSet : RuleSet compactAbi :=
  { ruleSetInit compactAbi with
    ruleCount := 5
    rules := ((((((Vector.replicate _ (Rule.zero compactAbi)).set 0
      (compactBypass 1 50) compactRules_pos).set 1
      (compactRule 2 60 1 0 0 0) compactRules_one).set 2
      (compactRule 3 100 3 (compactAbi.ruleFlag .matchNamespace ||| compactAbi.ruleFlag .policyGuard)
        2 7) (by decide)).set 3
      (compactRule 4 100 3 (compactAbi.ruleFlag .matchNamespace) 2 7) (by decide)).set 4
      (compactBypass 5 10) (by decide)) }

/-- A packet of namespace 2 that every rule of the set matches. -/
def overtakenPacket : Packet compactAbi where
  structSize := compactAbi.sizeofPacket
  version := compactAbi.abiVersion
  flags := 0
  namespaceId := 2
  direction := compactAbi.directionInput
  family := compactAbi.familyIpv4
  protocol := compactAbi.protocolTcp
  icmpType := 0
  icmpCode := 0
  extensionHeaderCount := 0
  sourcePort := 4000
  destinationPort := 443
  fragmentOffset := 0
  sourceAddress := Vector.replicate _ 0
  destinationAddress := Vector.replicate _ 0
  interfaceId := 0
  networkProfile := 0
  connectionState := 0
  payloadLength := 100
  applicationId := Vector.replicate _ 0
  namespaceIdentity := Vector.replicate _ 0
  reserved := Vector.replicate _ 0

/-- The scan stops at the fourth cell and reports rule 1; the index finds rule 5. -/
theorem evaluateIndexed_overtaken : ruleSetValidate compactAbi overtakenSet = .ok ∧
      packetValidate compactAbi overtakenPacket = .ok ∧
      (evaluate compactAbi overtakenSet (some overtakenPacket) true).2.1.map (·.ruleId) = some 1 ∧
      (evaluateIndexed compactAbi overtakenSet (some (ruleIndexBuild compactAbi overtakenSet).2)
        (some overtakenPacket) true).2.1.map (·.ruleId) = some 5 := by
  decide +kernel

/-- The same rules without the last one: both entry points agree. -/
def undisturbedSet : RuleSet compactAbi :=
  { overtakenSet with
    ruleCount := 4
    rules := overtakenSet.rules.set 4 (Rule.zero compactAbi) (by decide) }

theorem evaluateIndexed_undisturbed :
    ruleSetValidate compactAbi undisturbedSet = .ok ∧ ScanSuffices undisturbedSet overtakenPacket ∧
      evaluateIndexed compactAbi undisturbedSet (some (ruleIndexBuild compactAbi undisturbedSet).2)
          (some overtakenPacket) true = evaluate compactAbi undisturbedSet (some overtakenPacket) true := by
  have hset : ruleSetValidate compactAbi undisturbedSet = .ok := by decide +kernel
  have hpkt : packetValidate compactAbi overtakenPacket = .ok := by decide +kernel
  have hscan : ScanSuffices undisturbedSet overtakenPacket := by decide +kernel
  exact ⟨hset, hscan, (evaluateIndexed_eq_evaluate_iff compactAbi undisturbedSet overtakenPacket hset
    hpkt).2.mpr hscan⟩

end RinRuntime.Firewall

/-
Firewall.RuleSetInvariant — what the six operations do to the validity of a rule set.

`ruleSetValidate` is a loop with early exits; `WellFormed` says the same as a conjunction, over the list of
live rules. Every operation edits that list (append, replace one cell, drop one cell), and only edits that
bring in a rule from outside can break the set: `ruleSetAdd` and `ruleSetUpdate` re-check identifiers but
NOT the one-default-guard condition, so a second guard for a namespace and direction slips in
(`Operation.secondGuard`).
-/
import RinRuntime.Firewall.RuleSet
import RinRuntime.Firewall.Evaluate

namespace RinRuntime.Firewall
open Option
variable {A : Abi}

/-! ## §1. The validator as a conjunction. -/

/-- Two rules may stand in one set: different identifiers, and not both the default guard of one
namespace and direction. -/
def Compatible (A : Abi) (other rule : Rule A) : Prop :=
  other.id ≠ rule.id ∧ ¬ defaultGuardClash A other rule

theorem Compatible.symm {other rule : Rule A} (h : Compatible A other rule) : Compatible A rule other :=
  ⟨fun he => h.1 he.symm, fun hc => h.2 ⟨hc.2.1, hc.1, hc.2.2.1.symm, hc.2.2.2.symm⟩⟩

/-- The header fields of a rule set pass `ruleSetValidate`. -/
def HeaderOk (set : RuleSet A) : Prop :=
  set.structSize = A.sizeofRuleSet ∧ set.version = A.abiVersion ∧ set.flags = 0 ∧
    set.generation ≠ 0 ∧ set.enabled ≤ 1 ∧ set.ruleCount.toNat ≤ A.maxRules ∧
    (∀ action ∈ set.defaultAction.toList, actionValid A action = true) ∧
    set.reserved0 = 0 ∧ bytesZero set.reserved.toList = true

/-- A rule set as `ruleSetValidate` accepts it. -/
structure WellFormed (set : RuleSet A) : Prop where
  header : HeaderOk set
  rules_valid : ∀ rule ∈ set.active, ruleValidate A rule = .ok
  rules_compatible : set.active.Pairwise (Compatible A)
  tail_zero : ∀ rule ∈ set.tail, rule = Rule.zero A

theorem ruleSetValidateRules_eq_ok (seen rules : List (Rule A)) : ruleSetValidateRules A seen rules = .ok ↔
      (∀ rule ∈ rules, ruleValidate A rule = .ok) ∧ rules.Pairwise (Compatible A) ∧
        ∀ other ∈ seen, ∀ rule ∈ rules, Compatible A other rule := by
  induction rules generalizing seen with
  | nil => simp [ruleSetValidateRules]
  | cons rule rest ih =>
    unfold ruleSetValidateRules
    by_cases hrule : ruleValidate A rule = .ok
    · rw [if_neg (by simp [hrule])]
      by_cases hclash : ∃ other ∈ seen, other.id = rule.id ∨ defaultGuardClash A other rule
      · rw [if_pos hclash]
        obtain ⟨other, hmem, hbad⟩ := hclash
        constructor
        · intro h; cases h
        intro h
        have hc := h.2.2 other hmem rule List.mem_cons_self
        rcases hbad with hid | hguard
        · exact absurd hid hc.1
        · exact absurd hguard hc.2
      rw [if_neg hclash, ih]
      have hseen : ∀ other ∈ seen, Compatible A other rule := fun other hmem =>
        ⟨fun he => hclash ⟨other, hmem, .inl he⟩, fun hg => hclash ⟨other, hmem, .inr hg⟩⟩
      simp only [List.forall_mem_cons, List.pairwise_cons, List.mem_append, List.mem_singleton]
      constructor
      · rintro ⟨hv, hp, hx⟩
        exact ⟨⟨hrule, hv⟩, ⟨fun r hr => hx rule (.inr rfl) r hr, hp⟩,
          fun o ho => ⟨hseen o ho, fun r hr => hx o (.inl ho) r hr⟩⟩
      rintro ⟨⟨_, hv⟩, ⟨hh, hp⟩, hx⟩
      refine ⟨hv, hp, fun o ho r hr => ?_⟩
      rcases ho with ho | rfl
      · exact (hx o ho).2 r hr
      · exact hh r hr
    rw [if_pos hrule]
    constructor
    · intro h; exact absurd h hrule
    · intro h; exact absurd (h.1 rule List.mem_cons_self) hrule

/-- **The validator accepts exactly the well-formed sets.** -/
theorem ruleSetValidate_eq_ok (set : RuleSet A) : ruleSetValidate A set = .ok ↔ WellFormed set := by
  have hrules := ruleSetValidateRules_eq_ok (A := A) [] set.active
  constructor
  · intro h
    unfold ruleSetValidate at h
    split_ifs at h with h1 h2 h3 h4 h5 h6
    · exact absurd h h5
    push Not at h1 h2 h3 h4 h5 h6
    obtain ⟨hv, hp, -⟩ := hrules.mp h5
    refine ⟨⟨h1.1, h1.2, h2.1, h2.2.1, ?_, h2.2.2.2, ?_, h4.1, ?_⟩, hv, hp, h6⟩
    · exact BitVec.not_lt.mp h2.2.2.1
    · intro action hmem; simpa using h3 action hmem
    · simpa using h4.2
  rintro ⟨⟨h1, h2, h3, h4, h5, h6, h7, h8, h9⟩, hv, hp, ht⟩
  have h10 : ruleSetValidateRules A [] set.active = .ok := hrules.mpr ⟨hv, hp, by simp⟩
  unfold ruleSetValidate
  rw [if_neg (by simp [h1, h2]), if_neg, if_neg, if_neg (by simp [h8, h9]), if_neg (by simp [h10]), if_neg]
  · push Not; exact ht
  · push Not; intro action hmem; simp [h7 action hmem]
  · push Not; exact ⟨h3, h4, BitVec.not_lt.mpr h5, h6⟩

theorem WellFormed.accepted {set : RuleSet A} (hs : WellFormed set) : ruleSetValidate A set = .ok :=
  (ruleSetValidate_eq_ok set).mpr hs

/-! ## §2. The table edits, on the list of live rules. -/

variable {set : RuleSet A} {rule : Rule A} {sel : Selection} {i : Nat}

/-- Replacing one entry of a pairwise-related list, for a symmetric relation. -/
theorem pairwise_set_iff {α : Type*} {R : α → α → Prop} (hsymm : ∀ a b, R a b → R b a)
    {l : List α} (hl : l.Pairwise R) (hi : i < l.length) (x : α) :
    (l.set i x).Pairwise R ↔ ∀ j (hj : j < l.length), j ≠ i → R l[j] x := by
  rw [List.pairwise_iff_getElem] at hl ⊢
  constructor
  · intro h j hj hji
    rcases Nat.lt_or_gt_of_ne hji with hlt | hgt
    · have := h j i (by simpa using hj) (by simpa using hi) hlt
      rwa [List.getElem_set_ne (Ne.symm hji), List.getElem_set_self] at this
    have := h i j (by simpa using hi) (by simpa using hj) hgt
    rw [List.getElem_set_ne (Ne.symm hji), List.getElem_set_self] at this
    exact hsymm _ _ this
  intro h j k hj hk hjk
  rw [List.length_set] at hj hk
  rw [List.getElem_set, List.getElem_set]
  split_ifs with h1 h2 h2
  · omega
  · exact hsymm _ _ (h k hk (Ne.symm h2))
  · exact h j hj (Ne.symm h1)
  · exact hl j k hj hk hjk

/-- Dropping one entry of a list without repeated keys drops all entries with its key. -/
theorem eraseIdx_eq_filter {α β : Type*} [DecidableEq β] {key : α → β} {l : List α}
    (hl : l.Pairwise fun a b => key a ≠ key b) (hi : i < l.length) :
    l.eraseIdx i = l.filter fun a => key a ≠ key l[i] := by
  induction l generalizing i with
  | nil => exact absurd hi (Nat.not_lt_zero i)
  | cons a l ih =>
    obtain ⟨hfst, hrest⟩ := List.pairwise_cons.mp hl
    cases i with
    | zero =>
      rw [List.eraseIdx_cons_zero, List.filter_cons_of_neg (by simp), eq_comm, List.filter_eq_self]
      intro b hb
      simpa using (hfst b hb).symm
    | succ i =>
      have hi : i < l.length := Nat.lt_of_succ_lt_succ hi
      rw [List.eraseIdx_cons_succ, ih hrest hi, List.filter_cons_of_pos]
      · rfl
      · simpa using hfst _ (List.getElem_mem hi)

section
variable (set : RuleSet A)

theorem length_active (h : set.ruleCount.toNat ≤ A.maxRules) : set.active.length = set.ruleCount.toNat := by
  simp [RuleSet.active, h]

theorem getElem_active (i : Nat) (hi : i < set.active.length) : set.active[i] = set.rule i := by
  have hlen : i < set.rules.toList.length := by
    simp [RuleSet.active] at hi ⊢; omega
  simp only [RuleSet.active, RuleSet.rule, List.getElem_take]
  rw [List.getD_eq_getElem?_getD, List.getElem?_eq_getElem hlen, getD_some]

/-- `rule_count + 1` does not wrap: the table is far smaller. -/
theorem toNat_ruleCount_succ (h : set.ruleCount.toNat < A.maxRules) :
    (set.ruleCount + 1).toNat = set.ruleCount.toNat + 1 := by
  have := A.maxRules_lt
  simp only [BitVec.toNat_add, BitVec.ofNat_eq_ofNat, BitVec.toNat_ofNat]
  omega

/-- The set with a rule behind the live ones. -/
abbrev RuleSet.appended (rule : Rule A) (g : BitVec 64) : RuleSet A :=
  { set with
    rules := set.rules.setIfInBounds set.ruleCount.toNat rule
    ruleCount := set.ruleCount + 1
    generation := g }

/-- The set with one cell overwritten. -/
abbrev RuleSet.replaced (i : Nat) (rule : Rule A) (g : BitVec 64) : RuleSet A :=
  { set with rules := set.rules.setIfInBounds i rule, generation := g }

/-- The set without one of the live rules. -/
abbrev RuleSet.removed (i : Nat) (g : BitVec 64) : RuleSet A :=
  { set with
    rules := removeRuleAt set.rules set.ruleCount.toNat i
    ruleCount := set.ruleCount - 1
    generation := g }

theorem active_append (rule : Rule A) (g : BitVec 64) (h : set.ruleCount.toNat < A.maxRules) :
    (set.appended rule g).active = set.active ++ [rule] := by
  have hlen : set.ruleCount.toNat < set.rules.toList.length := by simpa using h
  simp only [RuleSet.active, toNat_ruleCount_succ set h, Vector.toList_setIfInBounds]
  have hmin : min set.ruleCount.toNat set.rules.toList.length = set.ruleCount.toNat := by omega
  rw [List.set_eq_take_append_cons_drop, if_pos hlen, List.take_append, List.length_take, hmin,
      List.take_take, Nat.min_eq_right (Nat.le_succ _), Nat.add_sub_cancel_left]
  rfl

theorem tail_append (rule : Rule A) (g : BitVec 64) (h : set.ruleCount.toNat < A.maxRules) :
    (set.appended rule g).tail = set.tail.drop 1 := by
  simp only [RuleSet.tail, toNat_ruleCount_succ set h, Vector.toList_setIfInBounds]
  rw [List.drop_set_of_lt (by omega), List.drop_drop]

theorem active_replace (rule : Rule A) (g : BitVec 64) (i : Nat) :
    (set.replaced i rule g).active = set.active.set i rule := by
  simp only [RuleSet.active, Vector.toList_setIfInBounds, List.take_set]

theorem tail_replace (rule : Rule A) (g : BitVec 64) (i : Nat) (hi : i < set.ruleCount.toNat) :
    (set.replaced i rule g).tail = set.tail := by
  simp only [RuleSet.tail, Vector.toList_setIfInBounds]
  rw [List.drop_set_of_lt hi]

/-- `rule_count - 1` does not wrap: a rule was found. -/
theorem toNat_ruleCount_pred (h : 0 < set.ruleCount.toNat) :
    (set.ruleCount - 1).toNat = set.ruleCount.toNat - 1 := by
  have := set.ruleCount.isLt
  simp only [BitVec.toNat_sub, BitVec.ofNat_eq_ofNat, BitVec.toNat_ofNat]
  omega

theorem toList_removeRuleAt {K : AbiConstants} (rules : Vector (Rule K) K.maxRules)
    {count index : Nat} (hidx : index < count) (hcnt : count ≤ K.maxRules) :
    (removeRuleAt rules count index).toList
      = (rules.toList.take count).eraseIdx index ++ Rule.zero K :: rules.toList.drop count := by
  have hlen : ((rules.toList.take count).eraseIdx index).length = count - 1 := by
    rw [List.length_eraseIdx_of_lt (by simp; omega)]
    simp; omega
  apply List.ext_getElem
  · simp [hlen]; omega
  intro cell h1 h2
  have hcell : cell < K.maxRules := by simpa using h1
  simp only [removeRuleAt, Vector.getElem_toList, Vector.getElem_ofFn, Vector.get]
  rw [List.getElem_append]
  by_cases hlt : cell < count - 1
  · rw [dif_pos (by omega), List.getElem_eraseIdx]
    by_cases hci : cell < index
    · rw [if_pos hci, dif_pos hci]
      simp
    · rw [if_neg hci, if_pos (by omega), dif_neg hci, List.getElem_take, List.getD_eq_getElem?_getD,
          List.getElem?_eq_getElem (by simp; omega), getD_some]
  rw [dif_neg (by omega), if_neg (by omega), if_neg (by omega), List.getElem_cons]
  by_cases hlast : cell + 1 = count
  · rw [if_pos hlast, dif_pos (by omega)]
  rw [if_neg hlast, dif_neg (by omega), List.getElem_drop]
  simp only [hlen]
  have heq : count + (cell - (count - 1) - 1) = cell := by omega
  simp [heq]

theorem removed_lists {index : Nat} (g : BitVec 64) (hidx : index < set.ruleCount.toNat)
    (hcnt : set.ruleCount.toNat ≤ A.maxRules) :
    (set.removed index g).active = set.active.eraseIdx index ∧
      (set.removed index g).tail = Rule.zero A :: set.tail := by
  have hlength : ((set.rules.toList.take set.ruleCount.toNat).eraseIdx index).length
      = set.ruleCount.toNat - 1 := by
    rw [List.length_eraseIdx_of_lt (by simp; omega)]
    simp; omega
  simp only [RuleSet.active, RuleSet.tail, toNat_ruleCount_pred set (by omega),
    toList_removeRuleAt set.rules hidx hcnt]
  exact ⟨List.take_left' hlength, List.drop_left' hlength⟩

end

/-! ## §3. Rules that stay valid under the edits of the engine. -/

theorem ruleValidate_eq_ok (rule : Rule A) : ruleValidate A rule = .ok ↔
      (rule.structSize = A.sizeofRule ∧ rule.version = A.abiVersion) ∧
        ¬ rulePolicyMalformed A rule ∧ ¬ ruleMatcherMalformed A rule ∧ ¬ ruleLayoutMalformed A rule := by
  unfold ruleValidate
  split_ifs with h1 h2 h3 h4
  · simp only [false_iff]
    rintro ⟨⟨hs, hv⟩, -⟩
    rcases h1 with h | h
    · exact h hs
    · exact h hv
  all_goals simp_all

/-- The default-guard predicate does not read the counters. -/
theorem namespacePolicyDefaultRuleValid_countPacket (rule : Rule A) (packet : Packet A) :
    namespacePolicyDefaultRuleValid A (countPacket rule packet)
      = namespacePolicyDefaultRuleValid A rule := by
  have howner : A.containerRuleOwnerId (countPacket rule packet) = A.containerRuleOwnerId rule :=
    A.containerRuleOwnerId_congr _ _ rfl
  simp only [namespacePolicyDefaultRuleValid, howner]
  rfl

theorem ruleValidate_countPacket (rule : Rule A) (packet : Packet A) :
    ruleValidate A (countPacket rule packet) = ruleValidate A rule := by
  have hpol : rulePolicyMalformed A (countPacket rule packet) ↔ rulePolicyMalformed A rule := by
    simp only [rulePolicyMalformed, namespacePolicyDefaultRuleValid_countPacket]
    rfl
  simp only [ruleValidate, hpol]
  rfl

theorem has_policyGuard_of_default
    (h : namespacePolicyDefaultRuleValid A rule = true) : rule.has .policyGuard = true := by
  unfold namespacePolicyDefaultRuleValid at h
  split_ifs at h with hc
  push Not at hc
  obtain ⟨-, -, -, -, hflags, -⟩ := hc
  rw [Rule.has_iff, hflags, namespacePolicyRequiredFlags, BitVec.getLsbD_or]
  simp [AbiConstants.ruleFlag]

/-- The default-guard predicate reads the action only to test that it is one. -/
theorem namespacePolicyDefaultRuleValid_action {action : BitVec 8}
    (h : namespacePolicyDefaultRuleValid A rule = true) (ha : actionValid A action = true) :
    namespacePolicyDefaultRuleValid A { rule with action := action } = true := by
  have howner : A.containerRuleOwnerId { rule with action := action }
      = A.containerRuleOwnerId rule := A.containerRuleOwnerId_congr _ _ rfl
  unfold namespacePolicyDefaultRuleValid at h ⊢
  split_ifs at h with hc
  rw [if_neg]
  · exact h
  push Not at hc ⊢
  rw [howner, ha]
  obtain ⟨h1, h2, h3, h4, h5, h6, h7, h8, h9, -, hrest⟩ := hc
  exact ⟨h1, h2, h3, h4, h5, h6, h7, h8, h9, by decide, hrest⟩

/-- Changing the action of a valid default guard leaves a valid rule. -/
theorem ruleValidate_default_action {action : BitVec 8}
    (hv : ruleValidate A rule = .ok) (hd : namespacePolicyDefaultRuleValid A rule = true)
    (ha : actionValid A action = true) : ruleValidate A { rule with action := action } = .ok := by
  rw [ruleValidate_eq_ok] at hv ⊢
  obtain ⟨hhead, hpol, hmatcher, hlay⟩ := hv
  refine ⟨hhead, ?_, hmatcher, hlay⟩
  have hguard := has_policyGuard_of_default hd
  have hd' := namespacePolicyDefaultRuleValid_action hd ha
  unfold rulePolicyMalformed at hpol ⊢
  simp only [not_or] at hpol ⊢
  obtain ⟨h1, h2, h3, -, h5, h6, h7, h8, h9, -, h11, h12, -, h14⟩ := hpol
  -- the guard flag excludes the bypass flag, the only other place where the action counts
  have hbypass : rule.has .policyBypass = false := by
    have hmask : rule.flags &&& (A.ruleFlag .matchProcess ||| A.ruleFlag .systemCritical |||
        A.ruleFlag .policyBypass) = 0 := by
      by_contra hne
      exact h9 ⟨hguard, .inr (.inl hne)⟩
    rw [and_or_eq_zero] at hmask
    exact (Rule.and_flag_eq_zero rule .policyBypass).mp hmask.2
  refine ⟨h1, h2, h3, ?_, h5, h6, h7, h8, h9, ?_, h11, h12, ?_, h14⟩
  · rw [hd']; simp
  · intro hb
    have : rule.has .policyBypass = true := hb.1
    rw [hbypass] at this
    cases this
  · rw [ha]; decide

/-! ## §4. The edits on well-formed sets. -/

theorem generation_succ_ne_zero {g : BitVec 64} (h : ¬ generationLimit ≤ g) : g + 1 ≠ 0 := by
  bv_omega

section
variable {set : RuleSet A} {rule : Rule A} {g : BitVec 64} {i : Nat}

theorem HeaderOk.edit (h : HeaderOk set) (hg : g ≠ 0) {count : BitVec 32} (hcnt : count.toNat ≤ A.maxRules)
    (rules : Vector (Rule A.toAbiConstants) A.maxRules) :
    HeaderOk { set with rules := rules, ruleCount := count, generation := g } := by
  obtain ⟨h1, h2, h3, -, h5, -, h7⟩ := h
  exact ⟨h1, h2, h3, hg, h5, hcnt, h7⟩

theorem WellFormed.count (hs : WellFormed set) : set.ruleCount.toNat ≤ A.maxRules := hs.header.2.2.2.2.2.1

theorem WellFormed.compatible (hs : WellFormed set) {j : Nat} (hi : i < set.active.length)
    (hj : j < set.active.length) (hne : j ≠ i) : Compatible A set.active[j] set.active[i] := by
  have hpairs := List.pairwise_iff_getElem.mp hs.rules_compatible
  rcases Nat.lt_or_gt_of_ne hne with hlt | hgt
  · exact hpairs j i hj hi hlt
  · exact (hpairs i j hi hj hgt).symm

/-- The table after an append is well formed exactly when the new rule does not double a guard. -/
theorem wellFormed_append_iff (hs : WellFormed set)
    (hv : ruleValidate A rule = .ok) (hroom : set.ruleCount.toNat < A.maxRules)
    (hid : ∀ other ∈ set.active, other.id ≠ rule.id) (hg : g ≠ 0) :
    WellFormed (set.appended rule g) ↔ ∀ other ∈ set.active, ¬ defaultGuardClash A other rule := by
  constructor
  · rintro ⟨-, -, hp, -⟩ other hmem
    rw [active_append set rule g hroom, List.pairwise_append] at hp
    exact (hp.2.2 other hmem rule (List.mem_singleton.mpr rfl)).2
  intro hguard
  refine ⟨hs.header.edit hg (by rw [toNat_ruleCount_succ set hroom]; exact hroom) _, ?_, ?_, ?_⟩
  · rw [active_append set rule g hroom]
    exact List.forall_mem_append.mpr ⟨hs.rules_valid, List.forall_mem_singleton.mpr hv⟩
  · rw [active_append set rule g hroom, List.pairwise_append]
    refine ⟨hs.rules_compatible, List.pairwise_singleton _ _, fun other hmem r hr => ?_⟩
    rw [List.mem_singleton.mp hr]
    exact ⟨hid other hmem, hguard other hmem⟩
  · rw [tail_append set rule g hroom]
    exact fun r hr => hs.tail_zero r (List.mem_of_mem_drop hr)

/-- The table after one cell was overwritten. -/
theorem wellFormed_replace_iff (hs : WellFormed set) (hi : i < set.active.length)
    (hv : ruleValidate A rule = .ok)
    (hid : rule.id = set.active[i].id) (hg : g ≠ 0) :
    WellFormed (set.replaced i rule g) ↔
      ∀ other ∈ set.active, other.id ≠ rule.id → ¬ defaultGuardClash A other rule := by
  have hicount : i < set.ruleCount.toNat := by rwa [length_active set hs.count] at hi
  have hsymm : ∀ a b, Compatible A a b → Compatible A b a := fun _ _ h => h.symm
  -- the cell of `rule` is the only one with its identifier
  have hoth : ∀ j (hj : j < set.active.length), j ≠ i → set.active[j].id ≠ rule.id := by
    intro j hj hji
    rw [hid]
    exact (hs.compatible hi hj hji).1
  have hpair : (set.active.set i rule).Pairwise (Compatible A) ↔
      ∀ other ∈ set.active, other.id ≠ rule.id → ¬ defaultGuardClash A other rule := by
    rw [pairwise_set_iff hsymm hs.rules_compatible hi]
    constructor
    · intro h other hmem hne
      obtain ⟨j, hj, rfl⟩ := List.getElem_of_mem hmem
      exact (h j hj (fun he => hne (by subst he; exact hid.symm))).2
    · intro h j hj hji
      exact ⟨hoth j hj hji, h _ (List.getElem_mem hj) (hoth j hj hji)⟩
  rw [← hpair]
  constructor
  · rintro ⟨-, -, hp, -⟩
    rwa [active_replace set rule g i] at hp
  intro hp
  refine ⟨hs.header.edit hg hs.count _, ?_, ?_, ?_⟩
  · rw [active_replace set rule g i]
    intro r hr
    rcases List.mem_or_eq_of_mem_set hr with hr | hr
    · exact hs.rules_valid r hr
    · rw [hr]; exact hv
  · rwa [active_replace set rule g i]
  · rw [tail_replace set rule g i hicount]
    exact hs.tail_zero

/-- Replacing a rule by one of the same identity, namespace, direction and guard status keeps a set
well formed: the edit every counter update and every action change makes. -/
theorem wellFormed_replace_similar (hs : WellFormed set) (hi : i < set.active.length)
    (hv : ruleValidate A rule = .ok)
    (hid : rule.id = set.active[i].id) (hns : rule.namespaceId = set.active[i].namespaceId)
    (hdir : rule.direction = set.active[i].direction) (hdef : namespacePolicyDefaultRuleValid A rule
      = namespacePolicyDefaultRuleValid A set.active[i]) (hg : g ≠ 0) :
    WellFormed (set.replaced i rule g) := by
  rw [wellFormed_replace_iff hs hi hv hid hg]
  intro other hmem hne hclash
  obtain ⟨j, hj, rfl⟩ := List.getElem_of_mem hmem
  have hji : j ≠ i := fun he => hne (by subst he; exact hid.symm)
  refine (hs.compatible hi hj hji).2 ?_
  unfold defaultGuardClash at hclash ⊢
  rwa [hdef, hns, hdir] at hclash

theorem wellFormed_remove (hs : WellFormed set) (hi : i < set.active.length)
    (hg : g ≠ 0) :
    WellFormed (set.removed i g) := by
  have hcnt := hs.count
  have hicount : i < set.ruleCount.toNat := by rwa [length_active set hcnt] at hi
  obtain ⟨hactive, htail⟩ := removed_lists set g hicount hcnt
  refine ⟨hs.header.edit hg (by rw [toNat_ruleCount_pred set (by omega)]; omega) _, ?_, ?_, ?_⟩
  · rw [hactive]
    exact fun r hr => hs.rules_valid r (List.mem_of_mem_eraseIdx hr)
  · rw [hactive]
    exact hs.rules_compatible.sublist (List.eraseIdx_sublist _ _)
  · rw [htail]
    exact List.forall_mem_cons.mpr ⟨rfl, hs.tail_zero⟩

end

/-! ## §5. Operations. -/

/-- The operations on a rule set, with any arguments. -/
inductive Operation (A : Abi) where
  | add (rule? : Option (Rule A))
  | update (ruleId : BitVec 64) (rule? : Option (Rule A))
  | remove (ruleId : BitVec 64)
  | setDefaultAction (namespaceId : BitVec 64) (ownerId : BitVec 32) (direction action : BitVec 8)
  | removeDefaults (namespaceId : BitVec 64) (ownerId : BitVec 32)
  | evaluate (packet? : Option (Packet A)) (decision : Bool)

/-- Run an operation: its status and the set it leaves. -/
def Operation.run (set : RuleSet A) :
    Operation A → Status × RuleSet A
  | .add rule? => ruleSetAdd A set rule?
  | .update ruleId rule? => ruleSetUpdate A set ruleId rule?
  | .remove ruleId => ruleSetRemove A set ruleId
  | .setDefaultAction namespaceId ownerId direction action =>
      namespacePolicySetDefaultAction A set namespaceId ownerId direction action
  | .removeDefaults namespaceId ownerId => namespacePolicyRemoveDefaults A set namespaceId ownerId
  | .evaluate packet? decision =>
      ((Firewall.evaluate A set packet? decision).1, (Firewall.evaluate A set packet? decision).2.2)

/-- A call keeps its contract: success leaves an accepted set, an error leaves the set alone. -/
def Contract (set : RuleSet A)
    (result : Status × RuleSet A) : Prop :=
  (result.1 = .ok → ruleSetValidate A result.2 = .ok) ∧ (result.1 ≠ .ok → result.2 = set)

theorem Contract.error {status : Status} (h : status ≠ .ok) : Contract set (status, set) :=
  ⟨fun he => absurd he h, fun _ => rfl⟩

theorem Contract.success {set set' : RuleSet A} (h : WellFormed set') : Contract set (.ok, set') :=
  ⟨fun _ => h.accepted, fun he => absurd rfl he⟩

theorem contract_ok_iff {set set' : RuleSet A} : Contract set (.ok, set') ↔ WellFormed set' :=
  ⟨fun h => (ruleSetValidate_eq_ok set').mp (h.1 rfl), Contract.success⟩

/-- An accepted `add` that brings in a second default guard for a namespace and direction: the rule
passes every test the function makes, and a rule of the set already guards the same pair. -/
def secondGuardAdded (set : RuleSet A) (rule : Rule A) : Prop :=
  ruleValidate A rule = .ok ∧ set.ruleCount.toNat ≠ A.maxRules ∧
    (∀ other ∈ set.active, other.id ≠ rule.id ∧ rulePolicyEqual other rule = false) ∧
    set.generation < generationLimit ∧ ∃ other ∈ set.active, defaultGuardClash A other rule

/-- An accepted `update` that turns a rule into a second default guard. -/
def secondGuardUpdated (set : RuleSet A) (ruleId : BitVec 64)
    (rule : Rule A) : Prop :=
  ruleId ≠ 0 ∧ rule.id = ruleId ∧ ruleValidate A rule = .ok ∧
    set.generation < generationLimit ∧ (∃ other ∈ set.active, other.id = ruleId) ∧
    ∃ other ∈ set.active, other.id ≠ ruleId ∧ defaultGuardClash A other rule

/-- The operations that slip a second default guard into the set. -/
def Operation.secondGuard (set : RuleSet A) : Operation A → Prop
  | .add (some rule) => secondGuardAdded set rule
  | .update ruleId (some rule) => secondGuardUpdated set ruleId rule
  | _ => False

section
variable {set : RuleSet A}

theorem ruleSetAdd_contract (hs : WellFormed set) (rule : Rule A) :
    Contract set (ruleSetAdd A set (some rule)) ↔ ¬ secondGuardAdded set rule := by
  simp only [ruleSetAdd]
  rw [if_neg (by simp [hs.accepted])]
  split_ifs with h1 h2 h3 h4
  · exact iff_of_true (Contract.error h1) (fun h => h1 h.1)
  · exact iff_of_true (Contract.error (by decide)) (fun h => h.2.1 h2)
  · refine iff_of_true (Contract.error (by decide)) (fun h => ?_)
    obtain ⟨other, hmem, he | he⟩ := h3
    · exact (h.2.2.1 other hmem).1 he
    · rw [(h.2.2.1 other hmem).2] at he
      cases he
  · exact iff_of_true (Contract.error (by decide)) (fun h => absurd h.2.2.2.1 (BitVec.not_lt.mpr h4))
  push Not at h1 h3
  rw [contract_ok_iff, wellFormed_append_iff hs h1 (by have := hs.count; omega)
        (fun other hmem => (h3 other hmem).1) (generation_succ_ne_zero h4)]
  constructor
  · rintro h ⟨-, -, -, -, other, hmem, hclash⟩
    exact h other hmem hclash
  intro h other hmem hclash
  refine h ⟨h1, h2, fun o ho => ⟨(h3 o ho).1, ?_⟩, BitVec.not_le.mp h4, other, hmem, hclash⟩
  simpa using (h3 o ho).2

/-- The search of `update` and `remove`: it finds a rule with the identifier, or there is none. -/
theorem findIdx_id_cases (set : RuleSet A) (ruleId : BitVec 64) :
    (set.active.findIdx? (fun other => other.id == ruleId) = none ∧
        ∀ other ∈ set.active, other.id ≠ ruleId) ∨
      ∃ i, set.active.findIdx? (fun other => other.id == ruleId) = some i ∧
        ∃ hi : i < set.active.length, set.active[i].id = ruleId := by
  cases hfind : set.active.findIdx? (fun other => other.id == ruleId) with
  | none => exact .inl ⟨rfl, fun other hoth => by simpa using List.findIdx?_eq_none_iff.mp hfind other hoth⟩
  | some i =>
    obtain ⟨hi, hid, -⟩ := List.findIdx?_eq_some_iff_getElem.mp hfind
    exact .inr ⟨i, rfl, hi, by simpa using hid⟩

theorem ruleSetUpdate_contract (hs : WellFormed set) (ruleId : BitVec 64) (rule : Rule A) :
    Contract set (ruleSetUpdate A set ruleId (some rule)) ↔ ¬ secondGuardUpdated set ruleId rule := by
  simp only [ruleSetUpdate]
  split_ifs with h0 hbad h1 h2 h3
  · exact iff_of_true (Contract.error (by decide)) (fun h => h.1 h0)
  · exact absurd hs.accepted hbad
  · exact iff_of_true (Contract.error (by decide)) (fun h => h1 h.2.1)
  · exact iff_of_true (Contract.error h2) (fun h => h2 h.2.2.1)
  · exact iff_of_true (Contract.error (by decide)) (fun h => absurd h.2.2.2.1 (BitVec.not_lt.mpr h3))
  push Not at h1 h2
  rcases findIdx_id_cases set ruleId with ⟨hfind, hnone⟩ | ⟨i, hfind, hi, hidi⟩
  · rw [hfind]
    refine iff_of_true (Contract.error (by decide)) (fun h => ?_)
    obtain ⟨other, hmem, he⟩ := h.2.2.2.2.1
    exact hnone other hmem he
  · rw [hfind]
    dsimp only
    rw [contract_ok_iff, wellFormed_replace_iff hs hi h2 (by rw [hidi, h1])
      (generation_succ_ne_zero h3), h1]
    constructor
    · rintro h ⟨-, -, -, -, -, other, hmem, hne, hclash⟩
      exact h other hmem hne hclash
    intro h other hmem hne hclash
    exact h ⟨h0, h1, h2, BitVec.not_le.mp h3, ⟨_, List.getElem_mem hi, hidi⟩, other, hmem, hne, hclash⟩

theorem ruleSetRemove_ok (hs : WellFormed set) {ruleId : BitVec 64} (h0 : ruleId ≠ 0)
    (hg : ¬ generationLimit ≤ set.generation) (hmem : ∃ other ∈ set.active, other.id = ruleId) :
    ∃ set' i, ruleSetRemove A set ruleId = (.ok, set') ∧ WellFormed set' ∧
      set'.generation = set.generation + 1 ∧ set'.active = set.active.eraseIdx i ∧
      ∃ hi : i < set.active.length, set.active[i].id = ruleId := by
  simp only [ruleSetRemove]
  rw [if_neg h0, if_neg (by simp [hs.accepted]), if_neg hg]
  rcases findIdx_id_cases set ruleId with ⟨-, hnone⟩ | ⟨i, hfind, hi, hid⟩
  · obtain ⟨other, hoth, he⟩ := hmem
    exact absurd he (hnone other hoth)
  · rw [hfind]
    have hicount : i < set.ruleCount.toNat := by rwa [length_active set hs.count] at hi
    exact ⟨_, i, rfl, wellFormed_remove hs hi (generation_succ_ne_zero hg), rfl,
      (removed_lists set _ hicount hs.count).1, hi, hid⟩

theorem ruleSetRemove_contract (hs : WellFormed set) (ruleId : BitVec 64) :
    Contract set (ruleSetRemove A set ruleId) := by
  by_cases h0 : ruleId = 0
  · simp only [ruleSetRemove, if_pos h0]
    exact Contract.error (by decide)
  by_cases hg : generationLimit ≤ set.generation
  · simp only [ruleSetRemove, if_neg h0, hs.accepted, if_pos hg]
    exact Contract.error (by decide)
  rcases findIdx_id_cases set ruleId with ⟨hfind, -⟩ | ⟨i, -, hi, hid⟩
  · simp only [ruleSetRemove, if_neg h0, hs.accepted, if_neg hg, hfind]
    exact Contract.error (by decide)
  · obtain ⟨set', -, hrun, hwf, -⟩ := ruleSetRemove_ok hs h0 hg ⟨_, List.getElem_mem hi, hid⟩
    rw [hrun]
    exact Contract.success hwf

/-- Changing the action of a default guard in place. -/
theorem wellFormed_default_action (hs : WellFormed set) {i : Nat} (hi : i < set.active.length)
    {action : BitVec 8} (ha : actionValid A action = true)
    (hd : namespacePolicyDefaultRuleValid A set.active[i] = true) {g : BitVec 64} (hg : g ≠ 0) :
    WellFormed (set.replaced i { set.active[i] with action := action } g) := by
  have hvi := hs.rules_valid _ (List.getElem_mem hi)
  exact wellFormed_replace_similar hs hi (ruleValidate_default_action hvi hd ha) rfl rfl rfl
    (by rw [namespacePolicyDefaultRuleValid_action hd ha, hd]) hg

theorem namespacePolicySetDefaultAction_contract (hs : WellFormed set) (namespaceId : BitVec 64)
    (ownerId : BitVec 32) (direction action : BitVec 8) : Contract set
      (namespacePolicySetDefaultAction A set namespaceId ownerId direction action) := by
  simp only [namespacePolicySetDefaultAction]
  split
  · exact Contract.error (by decide)
  next h1 =>
  rw [if_neg (by simp [hs.accepted])]
  push Not at h1
  have ha : actionValid A action = true := by simpa using h1.2.2.2.2
  cases hfind : set.active.findIdx? (fun rule =>
      isNamespaceDefault A namespaceId rule && rule.direction == direction) with
  | some i =>
    obtain ⟨hi, hp, -⟩ := List.findIdx?_eq_some_iff_getElem.mp hfind
    simp only [isNamespaceDefault, Bool.and_eq_true] at hp
    simp only [← getElem_active set i hi]
    split_ifs with h2 h3 h4
    · exact Contract.error (by decide)
    · exact Contract.success hs
    · exact Contract.error (by decide)
    · exact Contract.success (wellFormed_default_action hs hi ha hp.1.1 (generation_succ_ne_zero h4))
  | none =>
    rw [List.findIdx?_eq_none_iff] at hfind
    simp only
    split_ifs with h2
    · exact Contract.error (by decide)
    cases hslot : freeRuleIdSlot A set with
    | none => exact Contract.error (by decide)
    | some slot =>
      simp only
      set rule := namespacePolicyRule A namespaceId direction action
        (namespacePolicyRuleIdBase + BitVec.ofNat 64 slot) with hrule
      have hframe := A.containerRuleSetOwnerId_frame rule ownerId
      rcases hset : A.containerRuleSetOwnerId rule ownerId with ⟨done, owned⟩
      cases done with
      | false => exact Contract.error (by decide)
      | true =>
        -- the scan found no default of this namespace and direction, so the new one is alone
        rw [hset] at hframe
        have hns : owned.namespaceId = namespaceId := congrArg Rule.namespaceId hframe
        have hdir : owned.direction = direction := congrArg Rule.direction hframe
        show Contract set (ruleSetAdd A set (some owned))
        rw [ruleSetAdd_contract hs]
        rintro ⟨-, -, -, -, other, hmem, -, hoth, hnsEq, hdirEq⟩
        have := hfind other hmem
        simp [isNamespaceDefault, hoth, hnsEq, hdirEq, hns, hdir] at this

/-! ### Removing the defaults of a namespace. -/

/-- What the scan answers when the namespace has no more defaults than there are directions. -/
theorem collectNamespaceDefaults_eq {namespaceId : BitVec 64} (ownerId : BitVec 32)
    (ruleIds : List (BitVec 64)) (rules : List (Rule A))
    (hlen : ruleIds.length + (rules.filter (isNamespaceDefault A namespaceId)).length ≤ A.directionCount) :
    collectNamespaceDefaults A namespaceId ownerId ruleIds rules =
      if ∀ rule ∈ rules, isNamespaceDefault A namespaceId rule = true →
        A.containerRuleOwnerId rule = ownerId
      then .ok (ruleIds ++ (rules.filter (isNamespaceDefault A namespaceId)).map (·.id))
      else .error .accessDenied := by
  induction rules generalizing ruleIds with
  | nil => simp [collectNamespaceDefaults]
  | cons rule rest ih =>
    unfold collectNamespaceDefaults
    by_cases hdefault : isNamespaceDefault A namespaceId rule = true
    · rw [List.filter_cons_of_pos hdefault, List.length_cons] at hlen
      rw [if_neg (by simp [hdefault])]
      by_cases howner : A.containerRuleOwnerId rule = ownerId
      · rw [if_neg (not_not_intro howner), if_neg (by omega), ih _ (by simp; omega)]
        simp [hdefault, howner]
      · rw [if_pos howner, if_neg fun h => howner (h rule List.mem_cons_self hdefault)]
    rw [List.filter_cons_of_neg hdefault] at hlen
    rw [if_pos (by simpa using hdefault), ih _ hlen]
    simp [hdefault]

/-- The default guards of a namespace are for different directions, so there are few of them. -/
theorem namespaceDefaults_length_le (hs : WellFormed set) (namespaceId : BitVec 64) :
    (set.active.filter (isNamespaceDefault A namespaceId)).length ≤ A.directionCount := by
  set defaults := set.active.filter (isNamespaceDefault A namespaceId)
  have hmem : ∀ rule ∈ defaults, namespacePolicyDefaultRuleValid A rule = true ∧
      rule.namespaceId = namespaceId := by
    intro rule hrule
    have hdefault := (List.mem_filter.mp hrule).2
    simpa [isNamespaceDefault] using hdefault
  have hnodup : (defaults.map (·.direction.toNat)).Nodup := by
    rw [List.Nodup, List.pairwise_map]
    refine (hs.rules_compatible.filter _).imp_of_mem fun {other rule} hoth hrule h heq => h.2 ?_
    obtain ⟨hval, hns⟩ := hmem rule hrule
    obtain ⟨hval', hns'⟩ := hmem other hoth
    exact ⟨hval, hval', hns'.trans hns.symm, BitVec.toNat_inj.mp heq⟩
  have hsub : defaults.map (·.direction.toNat) ⊆ List.range' 1 A.directionCount := by
    intro direction hdirection
    obtain ⟨rule, hrule, rfl⟩ := List.mem_map.mp hdirection
    have hval := (hmem rule hrule).1
    unfold namespacePolicyDefaultRuleValid at hval
    split_ifs at hval with hc
    push Not at hc
    obtain ⟨-, -, -, -, -, -, -, hinput, hfwd, -⟩ := hc
    have hpos := A.directionInput_pos
    have hle := A.directionForward_le
    rw [BitVec.not_lt, BitVec.le_def] at hinput hfwd
    rw [List.mem_range'_1]
    omega
  have hlength := (hnodup.subperm hsub).length_le
  rwa [List.length_map, List.length_range'] at hlength

theorem rule_id_ne_zero {rule : Rule A} (h : ruleValidate A rule = .ok) : rule.id ≠ 0 := by
  intro h0
  rw [ruleValidate_eq_ok] at h
  exact h.2.1 (.inr (.inl h0))

end

/-- The removal loop succeeds when every identifier is in the set once and the generations last; it
drops the rules with these identifiers. -/
theorem removeRules_ok (ruleIds : List (BitVec 64)) (set : RuleSet A)
    (hs : WellFormed set) (hnodup : ruleIds.Nodup)
    (hmem : ∀ ruleId ∈ ruleIds, ruleId ≠ 0 ∧ ∃ other ∈ set.active, other.id = ruleId)
    (hgen : set.generation.toNat + ruleIds.length ≤ generationLimit.toNat) :
    ∃ set', removeRules A set ruleIds = (.ok, set') ∧ WellFormed set' ∧
      set'.active = set.active.filter (fun rule => rule.id ∉ ruleIds) := by
  induction ruleIds generalizing set with
  | nil => exact ⟨set, rfl, hs, by simp⟩
  | cons ruleId rest ih =>
    obtain ⟨h0, hhere⟩ := hmem ruleId List.mem_cons_self
    rw [List.length_cons] at hgen
    have hg : ¬ generationLimit ≤ set.generation := by
      rw [BitVec.not_le, BitVec.lt_def]; omega
    obtain ⟨set', i, hrun, hwf, hgen', hactive, hi, hidi⟩ := ruleSetRemove_ok hs h0 hg hhere
    have hgenNat : set'.generation.toNat = set.generation.toNat + 1 := by
      have := generationLimit.isLt
      simp only [hgen', BitVec.toNat_add, BitVec.ofNat_eq_ofNat, BitVec.toNat_ofNat]
      omega
    rw [eraseIdx_eq_filter (hs.rules_compatible.imp fun h => h.1) hi, hidi] at hactive
    have hrest : ∀ r ∈ rest, r ≠ 0 ∧ ∃ other ∈ set'.active, other.id = r := by
      intro r hr
      obtain ⟨hr0, other, hoth, he⟩ := hmem r (List.mem_cons_of_mem _ hr)
      have hne : r ≠ ruleId := fun h => (List.nodup_cons.mp hnodup).1 (h ▸ hr)
      exact ⟨hr0, other, hactive ▸ List.mem_filter.mpr ⟨hoth, by simpa [he] using hne⟩, he⟩
    obtain ⟨set'', hloop, hwf'', hactive''⟩ :=
      ih set' hwf (List.nodup_cons.mp hnodup).2 hrest (by omega)
    refine ⟨set'', ?_, hwf'', ?_⟩
    · simp only [removeRules, hrun]
      exact hloop
    rw [hactive'', hactive, List.filter_filter]
    refine List.filter_congr fun rule _ => ?_
    rw [Bool.eq_iff_iff]
    simp [and_comm]

/-- What `removeDefaults` does to an accepted set: it refuses as soon as the namespace has a default of
another owner; otherwise it drops all defaults of the namespace if the generations last. -/
inductive DefaultsRemoved (set : RuleSet A) (namespaceId : BitVec 64)
    (ownerId : BitVec 32) : Status × RuleSet A → Prop
  | denied (rule : Rule A) (hrule : rule ∈ set.active)
      (hdefault : isNamespaceDefault A namespaceId rule = true)
      (hforeign : A.containerRuleOwnerId rule ≠ ownerId) :
      DefaultsRemoved set namespaceId ownerId (.accessDenied, set)
  | missing (hnone : ∀ rule ∈ set.active, isNamespaceDefault A namespaceId rule = false) :
      DefaultsRemoved set namespaceId ownerId (.notFound, set)
  | exhausted (hgen : generationLimit.toNat < set.generation.toNat +
        (set.active.filter (isNamespaceDefault A namespaceId)).length)
      (hown : ∀ rule ∈ set.active, isNamespaceDefault A namespaceId rule = true →
        A.containerRuleOwnerId rule = ownerId) :
      DefaultsRemoved set namespaceId ownerId (.generationExhausted, set)
  | removed (set' : RuleSet A) (hwf : WellFormed set')
      (hactive : set'.active = set.active.filter fun rule => !isNamespaceDefault A namespaceId rule)
      (hgen : set.generation.toNat + (set.active.filter (isNamespaceDefault A namespaceId)).length
        ≤ generationLimit.toNat)
      (hsome : ∃ rule ∈ set.active, isNamespaceDefault A namespaceId rule = true)
      (hown : ∀ rule ∈ set.active, isNamespaceDefault A namespaceId rule = true →
        A.containerRuleOwnerId rule = ownerId) :
      DefaultsRemoved set namespaceId ownerId (.ok, set')

theorem namespacePolicyRemoveDefaults_removed (hs : WellFormed set)
    {namespaceId : BitVec 64} {ownerId : BitVec 32}
    (h1 : ¬ (namespaceId ≤ namespacePolicyHostId ∨ ownerId = A.containerOwnerUnknown)) :
    DefaultsRemoved set namespaceId ownerId (namespacePolicyRemoveDefaults A set namespaceId ownerId) := by
  have hlen := namespaceDefaults_length_le hs namespaceId
  have hcollect := collectNamespaceDefaults_eq ownerId [] set.active (by simpa using hlen)
  simp only [namespacePolicyRemoveDefaults]
  rw [if_neg h1, if_neg (by simp [hs.accepted]), hcollect]
  by_cases hown : ∀ rule ∈ set.active, isNamespaceDefault A namespaceId rule = true →
      A.containerRuleOwnerId rule = ownerId
  swap
  · rw [if_neg hown]
    push Not at hown
    obtain ⟨rule, hrule, hdefault, hforeign⟩ := hown
    exact .denied rule hrule hdefault hforeign
  rw [if_pos hown]
  set defaults := set.active.filter (isNamespaceDefault A namespaceId) with hdefaults
  simp only [List.nil_append, List.length_map]
  have hids : ∀ ruleId ∈ defaults.map (·.id), ruleId ≠ 0 ∧ ∃ other ∈ set.active, other.id = ruleId := by
    intro ruleId hin
    obtain ⟨rule, hrule, rfl⟩ := List.mem_map.mp hin
    have hact := (List.mem_filter.mp hrule).1
    exact ⟨rule_id_ne_zero (hs.rules_valid rule hact), rule, hact, rfl⟩
  have hcnt : defaults.length < 2 ^ 64 := by
    have := A.directionCount_lt
    omega
  split_ifs with h2 h3
  · refine .missing fun rule hrule => ?_
    rw [List.length_eq_zero_iff, hdefaults, List.filter_eq_nil_iff] at h2
    simpa using h2 rule hrule
  · refine .exhausted ?_ hown
    rw [← hdefaults]
    rw [BitVec.lt_def, BitVec.toNat_ofNat, Nat.mod_eq_of_lt hcnt] at h3
    have := BitVec.toNat_sub_of_le (x := generationLimit) (y := set.generation)
    rw [BitVec.le_def] at this
    omega
  by_cases hg : generationLimit ≤ set.generation
  · -- the subtraction wrapped: the first removal refuses, and nothing has been removed
    obtain ⟨ruleId, rest, heq⟩ := List.exists_cons_of_ne_nil
      (fun h : defaults.map (·.id) = [] => h2 (by rw [← List.length_map, h]; rfl))
    have h0 := (hids ruleId (heq ▸ List.mem_cons_self)).1
    have hrun : ruleSetRemove A set ruleId = (.generationExhausted, set) := by
      simp only [ruleSetRemove, if_neg h0, hs.accepted, if_pos hg]
      rfl
    simp only [heq, removeRules, hrun]
    refine .exhausted ?_ hown
    rw [← hdefaults]
    rw [BitVec.le_def] at hg
    omega
  have hgen : set.generation.toNat + defaults.length ≤ generationLimit.toNat := by
    rw [BitVec.not_le, BitVec.lt_def] at hg
    rw [BitVec.not_lt, BitVec.le_def, BitVec.toNat_ofNat, Nat.mod_eq_of_lt hcnt,
      BitVec.toNat_sub_of_le (by rw [BitVec.le_def]; omega)] at h3
    omega
  have huniq : (set.active.map (·.id)).Nodup := by
    rw [List.Nodup, List.pairwise_map]
    exact hs.rules_compatible.imp fun h => h.1
  have hnodup : (defaults.map (·.id)).Nodup := huniq.sublist (List.filter_sublist.map _)
  obtain ⟨set', hrun, hwf, hactive⟩ := removeRules_ok _ set hs hnodup hids (by simpa using hgen)
  rw [hrun]
  refine .removed set' hwf ?_ hgen ?_ hown
  · rw [hactive]
    refine List.filter_congr fun rule hrule => ?_
    -- an identifier belongs to one rule of the set
    rw [Bool.eq_iff_iff, decide_eq_true_eq, Bool.not_eq_true', ← Bool.not_eq_true, not_iff_not]
    constructor
    · intro hin
      obtain ⟨other, hoth, heq⟩ := List.mem_map.mp hin
      obtain ⟨hact, hdefault⟩ := List.mem_filter.mp hoth
      rwa [← List.inj_on_of_nodup_map huniq hact hrule heq]
    · intro hdefault
      exact List.mem_map.mpr ⟨rule, List.mem_filter.mpr ⟨hrule, hdefault⟩, rfl⟩
  · obtain ⟨rule, hrule⟩ := List.exists_mem_of_length_pos (Nat.pos_of_ne_zero h2)
    exact ⟨rule, List.mem_filter.mp hrule⟩

theorem namespacePolicyRemoveDefaults_contract
    (hs : WellFormed set) (namespaceId : BitVec 64) (ownerId : BitVec 32) :
    Contract set (namespacePolicyRemoveDefaults A set namespaceId ownerId) := by
  by_cases h1 : namespaceId ≤ namespacePolicyHostId ∨ ownerId = A.containerOwnerUnknown
  · simp only [namespacePolicyRemoveDefaults, if_pos h1]
    exact Contract.error (by decide)
  generalize hres : namespacePolicyRemoveDefaults A set namespaceId ownerId = result
  cases hres ▸ namespacePolicyRemoveDefaults_removed hs h1 with
  | denied | missing | exhausted => exact Contract.error (by decide)
  | removed set' hwf => exact Contract.success hwf

/-! ### Evaluating a packet. -/

/-- `offer` installs the candidate or leaves the selection alone. -/
theorem offer_eq_some {indexed : Bool}
    {candidate i : Nat} {kind : RuleKind} (h : offer set indexed sel candidate kind = some i) :
    i = candidate ∨ sel kind = some i := by
  have hupdate : ∀ kind', Function.update sel kind' (some candidate) kind = some i →
      i = candidate ∨ sel kind = some i := by
    intro kind' h
    by_cases hk : kind = kind'
    · subst hk
      rw [Function.update_self] at h
      exact .inl (some.inj h).symm
    · rw [Function.update_of_ne hk] at h
      exact .inr h
  cases hcur : sel (ruleKind (set.rule candidate)) with
  | none =>
    simp only [offer, hcur] at h
    exact hupdate _ h
  | some current =>
    simp only [offer, hcur] at h
    split_ifs at h
    · exact hupdate _ h
    · exact .inr h

/-- A winner of the linear loop is one of the candidates it was given. -/
theorem selectLinear_eq_some {packet : Packet A} (sel : Selection) (candidates : List Nat) {kind : RuleKind}
    (h : selectLinear set packet sel candidates kind = some i) : i ∈ candidates ∨ sel kind = some i := by
  induction candidates generalizing sel with
  | nil => exact .inr h
  | cons candidate rest ih =>
    simp only [selectLinear] at h
    split_ifs at h with hmatch hfull
    · exact (ih sel h).imp_left (List.mem_cons_of_mem _)
    · refine (offer_eq_some h).imp_left ?_
      rintro rfl
      exact List.mem_cons_self
    rcases ih _ h with hmem | hsel
    · exact .inl (List.mem_cons_of_mem _ hmem)
    refine (offer_eq_some hsel).imp_left ?_
    rintro rfl
    exact List.mem_cons_self

/-- The deciding rule is one of the four winners. -/
theorem decidingRule_eq_some {best : Nat}
    (h : decidingRule A set sel = some (some best)) : ∃ kind, sel kind = some best := by
  simp only [decidingRule] at h
  split_ifs at h
  · exact ⟨_, some.inj h⟩
  · exact ⟨_, some.inj h⟩
  · exact ⟨_, some.inj h⟩
  · exact ⟨_, some.inj h⟩
  · exact ⟨_, some.inj h⟩
  · cases h

/-- Counting a packet on a live rule keeps the set accepted. -/
theorem wellFormed_countPacket (hs : WellFormed set) (hi : i < set.active.length) (packet : Packet A) :
    WellFormed { set with rules := set.rules.setIfInBounds i (countPacket set.active[i] packet) } :=
  wellFormed_replace_similar hs hi
    ((ruleValidate_countPacket _ packet).trans (hs.rules_valid _ (List.getElem_mem hi)))
    rfl rfl rfl (namespacePolicyDefaultRuleValid_countPacket _ packet) hs.header.2.2.2.1

theorem conclude_contract (hs : WellFormed set) (packet : Packet A)
    (hsel : ∀ kind i, sel kind = some i → i < set.active.length) :
    (conclude A set packet true sel).1 = .ok ∧ WellFormed (conclude A set packet true sel).2.2.1 := by
  unfold conclude
  split
  · exact ⟨rfl, hs⟩
  · exact ⟨rfl, hs⟩
  rename_i best hbest
  obtain ⟨kind, hkind⟩ := decidingRule_eq_some hbest
  have hi := hsel kind best hkind
  refine ⟨rfl, ?_⟩
  have hwf := wellFormed_countPacket hs hi packet
  rw [getElem_active set best hi] at hwf
  exact hwf

theorem evaluate_contract (hs : WellFormed set) (packet? : Option (Packet A)) (decision : Bool) :
    Contract set ((evaluate A set packet? decision).1, (evaluate A set packet? decision).2.2) := by
  cases decision with
  | false => exact Contract.error (show Status.invalidArgument ≠ .ok by decide)
  | true =>
    cases packet? with
    | none => exact Contract.error (show Status.invalidArgument ≠ .ok by decide)
    | some packet =>
      simp only [evaluate, evaluateInternal, hs.accepted]
      by_cases hp : packetValidate A packet = .ok
      · have hsel : ∀ kind i, selectLinear set packet (fun _ => none)
            (List.range set.ruleCount.toNat) kind = some i → i < set.active.length := by
          intro kind i h
          rcases selectLinear_eq_some _ _ h with hmem | hnone
          · rw [length_active set hs.count]
            exact List.mem_range.mp hmem
          · cases hnone
        obtain ⟨hok, hwf⟩ := conclude_contract hs packet hsel
        simp only [hp, ne_eq, not_true_eq_false, if_false, Bool.true_eq_false]
        rw [hok]
        exact Contract.success hwf
      · simp only [hp, ne_eq, not_false_eq_true, if_true, Bool.true_eq_false, if_false]
        exact Contract.error hp

/-! ## §6. The initial set, and every set reachable from it. -/

/-- `rin_firewall_rule_set_init` writes an action for every direction. -/
theorem actionValid_ruleSetInit (A : Abi) : ∀ action ∈ (ruleSetInit A).defaultAction.toList,
      actionValid A action = true := by
  intro action hmem
  obtain ⟨i, hi, rfl⟩ := List.getElem_of_mem hmem
  rw [Vector.length_toList] at hi
  have hdrop : actionValid A A.actionDrop = true := by simp [actionValid]
  have hallow : actionValid A A.actionAllow = true := by simp [actionValid]
  simp only [ruleSetInit, Vector.getElem_toList, Vector.getElem_setIfInBounds hi]
  split_ifs with h1 h2 h3
  · exact hdrop
  · exact hallow
  · exact hdrop
  · rcases A.directions_cover i hi with h | h | h <;> omega

theorem wellFormed_ruleSetInit (A : Abi) : WellFormed (ruleSetInit A) where
  header := by
    refine ⟨rfl, rfl, rfl, show 1#64 ≠ 0 by decide, show 1#32 ≤ 1 by decide, Nat.zero_le _,
      actionValid_ruleSetInit A, rfl, ?_⟩
    simp [ruleSetInit, bytesZero]
  rules_valid := by intro rule h; cases h
  rules_compatible := List.Pairwise.nil
  tail_zero := by
    intro rule hmem
    exact List.eq_of_mem_replicate (List.mem_of_mem_drop hmem)

/-- Each operation keeps its contract exactly when it brings in no second default guard. -/
theorem Operation.contract_iff (hs : WellFormed set)
    (op : Operation A) : Contract set (op.run set) ↔ ¬ op.secondGuard set := by
  cases op with
  | add rule? =>
    cases rule? with
    | none => exact iff_of_true (Contract.error (by decide)) id
    | some rule => exact ruleSetAdd_contract hs rule
  | update ruleId rule? =>
    cases rule? with
    | none =>
      refine iff_of_true ?_ id
      exact Contract.error (by decide)
    | some rule => exact ruleSetUpdate_contract hs ruleId rule
  | remove ruleId => exact iff_of_true (ruleSetRemove_contract hs ruleId) id
  | setDefaultAction namespaceId ownerId direction action =>
    exact iff_of_true (namespacePolicySetDefaultAction_contract hs namespaceId ownerId direction action) id
  | removeDefaults namespaceId ownerId =>
    exact iff_of_true (namespacePolicyRemoveDefaults_contract hs namespaceId ownerId) id
  | evaluate packet? decision => exact iff_of_true (evaluate_contract hs packet? decision) id

/-- One operation that brings in no second default guard. -/
def GuardedStep (set set' : RuleSet A) : Prop :=
  ∃ op : Operation A, ¬ op.secondGuard set ∧ set' = (op.run set).2

theorem WellFormed.step {set set' : RuleSet A} (hs : WellFormed set)
    (hstep : GuardedStep set set') : WellFormed set' := by
  obtain ⟨op, hguard, rfl⟩ := hstep
  have hcontract := (op.contract_iff hs).mpr hguard
  by_cases hok : (op.run set).1 = .ok
  · exact (ruleSetValidate_eq_ok _).mp (hcontract.1 hok)
  · rw [hcontract.2 hok]
    exact hs

theorem WellFormed.run {set set' : RuleSet A} (hs : WellFormed set)
    (hrun : Relation.ReflTransGen GuardedStep set set') : WellFormed set' := by
  induction hrun with
  | refl => exact hs
  | tail _ hstep ih => exact ih.step hstep

/-- **The rule-set contract.** On an accepted set an operation keeps its contract exactly when it
is not an `add` or `update` that brings in a second default guard of a namespace and direction; and
a run of such operations from the initial set reaches accepted sets only. -/
theorem ruleSet_contract (A : Abi) :
    (∀ (set : RuleSet A.toAbiConstants) (op : Operation A), ruleSetValidate A set = .ok →
      (Contract set (op.run set) ↔ ¬ op.secondGuard set)) ∧
    ∀ set, Relation.ReflTransGen GuardedStep (ruleSetInit A) set → ruleSetValidate A set = .ok := by
  refine ⟨fun set op hs => op.contract_iff ((ruleSetValidate_eq_ok set).mp hs), ?_⟩
  intro set hrun
  exact ((wellFormed_ruleSetInit A).run hrun).accepted

/-! ## §7. A second guard that gets in. -/

/-- The set after the default of namespace 2 has been set for input. -/
def guardedSet : RuleSet compactAbi :=
  (namespacePolicySetDefaultAction compactAbi (ruleSetInit compactAbi) 2 7 1 2).2

/-- A default guard of the same namespace and direction under the next identifier, with the other
action. -/
def secondGuardRule : Rule compactAbi :=
  (compactAbi.containerRuleSetOwnerId
    (namespacePolicyRule compactAbi 2 1 1 (namespacePolicyRuleIdBase + 1)) 7).2

/-- `rin_firewall_rule_set_add` reports success and leaves a set the validator refuses. -/
theorem ruleSetAdd_second_guard : ruleSetValidate compactAbi guardedSet = .ok ∧
      ((Operation.add (some secondGuardRule)).run guardedSet).1 = .ok ∧
      ruleSetValidate compactAbi ((Operation.add (some secondGuardRule)).run guardedSet).2
        = .duplicate := by
  decide +kernel

/-- Both halves of the contract at work: setting a namespace default is a step that keeps its
contract, and the set it leaves is accepted. -/
theorem ruleSet_contract_compact : Contract (ruleSetInit compactAbi)
        ((Operation.setDefaultAction 2 7 1 2).run (ruleSetInit compactAbi)) ∧
      ruleSetValidate compactAbi guardedSet = .ok :=
  ⟨((ruleSet_contract compactAbi).1 (ruleSetInit compactAbi) (.setDefaultAction 2 7 1 2)
      ((ruleSet_contract compactAbi).2 _ .refl)).mpr id,
    (ruleSet_contract compactAbi).2 guardedSet
      (.single ⟨.setDefaultAction 2 7 1 2, id, rfl⟩)⟩

/-- **A refused set is stuck**: every operation fails on it and leaves it as it is. -/
theorem Operation.stuck {set : RuleSet A} (hbad : ruleSetValidate A set ≠ .ok) (op : Operation A) :
    (op.run set).1 ≠ .ok ∧ (op.run set).2 = set := by
  have hnull : Status.invalidArgument ≠ .ok := by decide
  -- the arguments are tested first, and then the set
  have htested (c : Prop) [Decidable c] (result : Status × RuleSet A)
      (h : result = if c then (.invalidArgument, set) else (ruleSetValidate A set, set)) :
      result.1 ≠ .ok ∧ result.2 = set := by
    rw [h]
    split
    · exact ⟨hnull, rfl⟩
    · exact ⟨hbad, rfl⟩
  cases op with
  | add rule? =>
    cases rule? with
    | none => exact ⟨hnull, rfl⟩
    | some rule => exact htested False _ (by simp only [Operation.run, ruleSetAdd, if_pos hbad, if_false])
  | update ruleId rule? =>
    cases rule? with
    | none => exact ⟨hnull, rfl⟩
    | some rule => exact htested (ruleId = 0) _ (by simp only [Operation.run, ruleSetUpdate, if_pos hbad])
  | remove ruleId => exact htested (ruleId = 0) _ (by simp only [Operation.run, ruleSetRemove, if_pos hbad])
  | setDefaultAction namespaceId ownerId direction action =>
    exact htested _ _ (by rw [Operation.run, namespacePolicySetDefaultAction, if_pos hbad])
  | removeDefaults namespaceId ownerId =>
    exact htested _ _ (by rw [Operation.run, namespacePolicyRemoveDefaults, if_pos hbad])
  | evaluate packet? decision =>
    cases decision with
    | false => exact ⟨hnull, rfl⟩
    | true =>
      cases packet? with
      | none => exact ⟨hnull, rfl⟩
      | some packet =>
        simp only [Operation.run, Firewall.evaluate, evaluateInternal, if_pos hbad, Bool.true_eq_false, if_false]
        split
        · next hpkt => exact ⟨hpkt, rfl⟩
        · exact ⟨hbad, rfl⟩

/-- **A second guard stays.** Once an operation has succeeded on an accepted set and brought in a second default
guard, no operations take it out: they fail, also those that decide packets, and the set stays as it is. -/
theorem second_guard_stays {set set' : RuleSet A} {op : Operation A} (hset : ruleSetValidate A set = .ok)
    (hok : (op.run set).1 = .ok) (hguard : op.secondGuard set)
    (hrun : Relation.ReflTransGen (fun s s' => ∃ later : Operation A, s' = (later.run s).2) (op.run set).2 set') :
    set' = (op.run set).2 ∧ ∀ later : Operation A, (later.run set').1 ≠ .ok := by
  have hbad : ruleSetValidate A (op.run set).2 ≠ .ok := fun hacc =>
    (op.contract_iff ((ruleSetValidate_eq_ok set).mp hset)).mp
      ⟨fun _ => hacc, fun hfail => absurd hok hfail⟩ hguard
  have hsame : set' = (op.run set).2 := by
    induction hrun with
    | refl => rfl
    | tail _ hstep ih =>
      obtain ⟨later, rfl⟩ := hstep
      rw [ih, (later.stuck hbad).2]
  rw [hsame]
  exact ⟨rfl, fun later => (later.stuck hbad).1⟩

/-- Removing the second guard fails. -/
theorem second_guard_stays_removed :
    ((Operation.remove secondGuardRule.id).run ((Operation.add (some secondGuardRule)).run guardedSet).2).1 ≠ .ok := by
  have hguard : (Operation.add (some secondGuardRule)).secondGuard guardedSet := by
    unfold Operation.secondGuard secondGuardAdded
    decide +kernel
  exact (second_guard_stays (by decide +kernel) (by decide +kernel) hguard .refl).2 _

/-! ## §8. Defaults of several owners. -/

/-- A default guard of the namespace that belongs to the owner. -/
def ownDefault (A : Abi) (namespaceId : BitVec 64) (ownerId : BitVec 32)
    (rule : Rule A) : Bool :=
  isNamespaceDefault A namespaceId rule && A.containerRuleOwnerId rule == ownerId

/-- Removing defaults serves their owner: it succeeds exactly when the owner has a default guard in the
namespace and the generations last, it then drops these guards and no other rule, and `NOT_FOUND` and
`ACCESS_DENIED` are for an owner without one. -/
def RemovesOwnDefaults (set : RuleSet A) (namespaceId : BitVec 64)
    (ownerId : BitVec 32) : Prop :=
  let result := namespacePolicyRemoveDefaults A set namespaceId ownerId
  (result.1 = .ok ↔ (∃ rule ∈ set.active, ownDefault A namespaceId ownerId rule = true) ∧
    set.generation.toNat + (set.active.filter (ownDefault A namespaceId ownerId)).length
      ≤ generationLimit.toNat) ∧
  (result.1 = .ok →
    result.2.active = set.active.filter fun rule => !ownDefault A namespaceId ownerId rule) ∧
  (result.1 = .notFound ∨ result.1 = .accessDenied →
    result.2 = set ∧ ∀ rule ∈ set.active, ownDefault A namespaceId ownerId rule = false)

section
variable {set : RuleSet A} {namespaceId : BitVec 64} {ownerId : BitVec 32}

/-- Nobody without an identity owns a default guard. -/
theorem ownDefault_unknown (rule : Rule A) :
    ownDefault A namespaceId A.containerOwnerUnknown rule = false := by
  rw [← Bool.not_eq_true]
  intro hown
  simp only [ownDefault, isNamespaceDefault, Bool.and_eq_true, beq_iff_eq] at hown
  have hval := hown.1.1
  unfold namespacePolicyDefaultRuleValid at hval
  split_ifs at hval with hc
  push Not at hc
  exact hc.2.2.2.2.2.2.1 hown.2

/-- Where all defaults are the owner's, they are the owner's defaults. -/
theorem ownDefault_eq (hown : ∀ rule ∈ set.active, isNamespaceDefault A namespaceId rule = true →
      A.containerRuleOwnerId rule = ownerId) {rule : Rule A} (hrule : rule ∈ set.active) :
    ownDefault A namespaceId ownerId rule = isNamespaceDefault A namespaceId rule := by
  unfold ownDefault
  cases hdefault : isNamespaceDefault A namespaceId rule with
  | false => rfl
  | true => simp [hown rule hrule hdefault]

/-- A refusal that is in order for an owner without a default guard, and for no other. -/
theorem removesOwnDefaults_refused {status : Status}
    (hres : namespacePolicyRemoveDefaults A set namespaceId ownerId = (status, set))
    (hnone : ∀ rule ∈ set.active, ownDefault A namespaceId ownerId rule = false)
    (hstat : status ≠ .ok) : RemovesOwnDefaults set namespaceId ownerId := by
  unfold RemovesOwnDefaults
  rw [hres]
  refine ⟨⟨fun h => absurd h hstat, fun h => ?_⟩, fun h => absurd h hstat, fun _ => ⟨rfl, hnone⟩⟩
  obtain ⟨rule, hrule, hown⟩ := h.1
  rw [hnone rule hrule] at hown
  cases hown

end

/-- **Removing the defaults of an owner.** On an accepted set it does what it should exactly when the
owner has no default guard in the namespace, or every default guard of the namespace is the owner's. -/
theorem removeDefaults_own_iff (A : Abi) (set : RuleSet A.toAbiConstants) (namespaceId : BitVec 64)
    (ownerId : BitVec 32) (hset : ruleSetValidate A set = .ok)
    (hnamespace : namespacePolicyHostId < namespaceId) : RemovesOwnDefaults set namespaceId ownerId ↔
      (∀ rule ∈ set.active, ownDefault A namespaceId ownerId rule = false) ∨
      ∀ rule ∈ set.active, isNamespaceDefault A namespaceId rule = true →
        A.containerRuleOwnerId rule = ownerId := by
  have hs := (ruleSetValidate_eq_ok set).mp hset
  by_cases hunknown : ownerId = A.containerOwnerUnknown
  · have hnone : ∀ rule ∈ set.active, ownDefault A namespaceId ownerId rule = false := by
      rw [hunknown]
      exact fun rule _ => ownDefault_unknown rule
    have hres : namespacePolicyRemoveDefaults A set namespaceId ownerId = (.invalidArgument, set) := by
      unfold namespacePolicyRemoveDefaults
      rw [if_pos (.inr hunknown)]
    exact ⟨fun _ => .inl hnone, fun _ => removesOwnDefaults_refused hres hnone (by decide)⟩
  have hrem := namespacePolicyRemoveDefaults_removed hs
    (not_or.mpr ⟨BitVec.not_le.mpr hnamespace, hunknown⟩)
  generalize hres : namespacePolicyRemoveDefaults A set namespaceId ownerId = result at hrem
  cases hrem with
  | denied rule hrule hdefault hforeign =>
    constructor
    · intro h
      unfold RemovesOwnDefaults at h
      rw [hres] at h
      exact .inl (h.2.2 (.inr rfl)).2
    intro h
    rcases h with hnone | hown
    · exact removesOwnDefaults_refused hres hnone (by decide)
    · exact absurd (hown rule hrule hdefault) hforeign
  | missing hnone =>
    have hnone : ∀ rule ∈ set.active, ownDefault A namespaceId ownerId rule = false := by
      intro rule hrule
      rw [ownDefault, hnone rule hrule, Bool.false_and]
    exact ⟨fun _ => .inl hnone, fun _ => removesOwnDefaults_refused hres hnone (by decide)⟩
  | exhausted hgen hown =>
    refine ⟨fun _ => .inr hown, fun _ => ?_⟩
    unfold RemovesOwnDefaults
    rw [hres, List.filter_congr fun rule => ownDefault_eq hown]
    refine ⟨⟨(fun h => by cases h), fun h => by omega⟩, (fun h => by cases h), fun h => ?_⟩
    rcases h with h | h <;> cases h
  | removed set' hwf hactive hgen hsome hown =>
    refine ⟨fun _ => .inr hown, fun _ => ?_⟩
    unfold RemovesOwnDefaults
    rw [hres, List.filter_congr fun rule => ownDefault_eq hown,
      List.filter_congr fun rule hrule => congrArg (!·) (ownDefault_eq hown hrule)]
    refine ⟨⟨fun _ => ⟨?_, hgen⟩, fun _ => rfl⟩, fun _ => hactive, fun h => ?_⟩
    · obtain ⟨rule, hrule, hdefault⟩ := hsome
      exact ⟨rule, hrule, (ownDefault_eq hown hrule).trans hdefault⟩
    · rcases h with h | h <;> cases h

/-- The set after another owner has set the default of the namespace for output. -/
def sharedSet : RuleSet compactAbi :=
  (namespacePolicySetDefaultAction compactAbi guardedSet 2 8 2 2).2

/-- The first owner's guard is in the set, and yet its removal is refused. -/
theorem removeDefaults_shared :
    (namespacePolicySetDefaultAction compactAbi (ruleSetInit compactAbi) 2 7 1 2).1 = .ok ∧
      (namespacePolicySetDefaultAction compactAbi guardedSet 2 8 2 2).1 = .ok ∧
      ruleSetValidate compactAbi sharedSet = .ok ∧
      (∃ rule ∈ sharedSet.active, ownDefault compactAbi 2 7 rule = true) ∧ sharedSet.generation = 3 ∧
      namespacePolicyRemoveDefaults compactAbi sharedSet 2 7 = (.accessDenied, sharedSet) := by
  decide +kernel

/-- With the namespace to itself, the owner gets its default removed. -/
theorem removeDefaults_alone : RemovesOwnDefaults guardedSet 2 7 ∧
    (namespacePolicyRemoveDefaults compactAbi guardedSet 2 7).1 = .ok := by
  have hset : ruleSetValidate compactAbi guardedSet = .ok := by decide +kernel
  refine ⟨(removeDefaults_own_iff compactAbi guardedSet 2 7 hset (by decide)).mpr (.inr ?_), ?_⟩ <;>
    decide +kernel

end RinRuntime.Firewall

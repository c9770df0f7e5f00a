/-
Firewall.Policy — the indexed evaluation as a policy, and what it depends on.

`policy` says what the firewall is for: of each kind of rule, only the matching rule that comes first in
(priority, id) order counts, and the kinds are asked in a fixed order. `evaluateIndexed_policy` shows that
the merge over the index computes it, whatever the order of the table.

The policy sees a packet's matching rules only. Outside the host namespace those are system rules and rules
scoped to the packet's namespace or container identity, so nobody else's rules decide about a packet
(`evaluateIndexed_isolated`).

A rule for any protocol is not blind to the transport: the validator forces its ICMP type and code to
zero, and the matcher reads zero as a value (`ruleMatches_transport_iff`).
-/
import RinRuntime.Firewall.IndexedEvaluation

namespace RinRuntime.Firewall
open Lib
variable {A : Abi}

/-! ## §1. The policy. -/

/-- What decides a packet. -/
inductive Verdict (A : Abi) where
  | byRule (rule : Rule A)
  | passes
  | byDefault

/-- The rule denies the packets it matches. -/
def denies (rule : Rule A) : Bool := rule.action != A.actionAllow

/-- The declarative policy over the first rule of each kind. -/
def policy (enabled : Bool) (best : RuleKind → Option (Rule A)) : Verdict A :=
  if enabled = false then
    match (best .guard).filter denies with
    | some rule => .byRule rule
    | none => .passes
  else
    match best .bypass, (best .guard).filter denies, best .system, best .regular, best .guard with
    | some rule, _, _, _, _ => .byRule rule
    | none, some rule, _, _, _ => .byRule rule
    | none, none, some rule, _, _ => .byRule rule
    | none, none, none, some rule, _ => .byRule rule
    | none, none, none, none, some rule => .byRule rule
    | none, none, none, none, none => .byDefault

/-- The default action of a packet: its namespace drops, the host does what the set says. -/
def defaultFor (set : RuleSet A) (packet : Packet A) : BitVec 8 :=
  if packet.namespaceId = namespacePolicyHostId then
    set.defaultAction.toList.getD (packet.direction.toNat - 1) 0
  else A.actionDrop

/-- The decision record of a verdict. -/
def verdictDecision (set : RuleSet A) (packet : Packet A) :
    Verdict A → Decision
  | .byRule rule => { decisionInit A with
      action := rule.action
      matched := 1
      ruleId := rule.id
      priority := rule.priority
      packetCount := (countPacket rule packet).packetCount
      byteCount := (countPacket rule packet).byteCount }
  | .passes => { decisionInit A with action := A.actionAllow }
  | .byDefault => { decisionInit A with action := defaultFor set packet }

/-- The rules of one kind that match a packet. -/
def matching (rules : List (Rule A)) (packet : Packet A)
    (kind : RuleKind) : Set (Rule A) :=
  {rule | rule ∈ rules ∧ ruleMatches A rule packet = true ∧ ruleKind rule = kind}

/-- The order of the rules: by priority, and by identifier where that is the same. -/
def Rule.Before {K : AbiConstants} (first second : Rule K) : Prop :=
  first.priority.toNat < second.priority.toNat ∨
    (first.priority.toNat = second.priority.toNat ∧ first.id.toNat < second.id.toNat)

/-- `best` holds, for each kind, the matching rule that comes first in (priority, id) order. -/
def BestRules (rules : List (Rule A)) (packet : Packet A)
    (best : RuleKind → Option (Rule A)) : Prop :=
  ∀ kind, Winner Rule.Before (matching rules packet kind) (best kind)

section
variable {set set' : RuleSet A} {packet : Packet A}

theorem before_asymm (first second : Rule A) (h : first.Before second) : ¬ second.Before first := by
  unfold Rule.Before at *
  omega

/-- The best rules depend on the matching rules only. -/
theorem BestRules.unique {rules rules' : List (Rule A)}
    {best best' : RuleKind → Option (Rule A)} (h : BestRules rules packet best)
    (h' : BestRules rules' packet best')
    (hsame : ∀ kind, matching rules' packet kind = matching rules packet kind) : best' = best := by
  funext kind
  have hkind := h' kind
  rw [hsame kind] at hkind
  exact hkind.unique before_asymm (h kind)

/-! ## §2. The indexed evaluation computes the policy. -/

/-- The selected cells hold the best rules. -/
theorem Selected.bestRules (hs : WellFormed set) {sel : Selection}
    (h : Selected set packet {i | i < set.ruleCount.toNat} sel) :
    BestRules set.active packet (fun kind => (sel kind).map set.rule) := by
  intro kind
  have hwinner := h kind
  show Winner _ _ ((sel kind).map set.rule)
  cases hsel : sel kind with
  | none =>
    rw [hsel] at hwinner
    intro rule hrule
    obtain ⟨hmem, hmatch⟩ := hrule
    obtain ⟨i, hi, rfl⟩ := exists_rule_of_mem_active hs hmem
    exact hwinner i ⟨hi, hmatch⟩
  | some i =>
    rw [hsel] at hwinner
    obtain ⟨⟨hi, hmatch⟩, hfst⟩ := hwinner
    refine ⟨⟨rule_mem_active hs hi, hmatch⟩, ?_⟩
    intro rule hrule hne
    obtain ⟨hmem, hmatch'⟩ := hrule
    obtain ⟨j, hj, rfl⟩ := exists_rule_of_mem_active hs hmem
    refine (rulePrecedes_iff _ _).mp (hfst j ⟨hj, hmatch'⟩ fun heq => ?_)
    exact hne (by rw [heq])

/-- The verdict a deciding rule stands for. -/
def verdictOf (set : RuleSet A) : Option (Option Nat) → Verdict A
  | none => .passes
  | some none => .byDefault
  | some (some i) => .byRule (set.rule i)

/-- The tail of the evaluation writes the record of its verdict. -/
theorem conclude_verdict (sel : Selection) : (conclude A set packet true sel).1 = .ok ∧
    (conclude A set packet true sel).2.1
      = verdictDecision set packet (verdictOf set (decidingRule A set sel)) := by
  unfold conclude
  cases decidingRule A set sel with
  | none => exact ⟨rfl, rfl⟩
  | some deciding =>
    cases deciding with
    | none => exact ⟨rfl, rfl⟩
    | some i => exact ⟨rfl, rfl⟩

/-- Asking for a denying guard is looking at the first guard's action. -/
theorem filter_denies (guard : Option Nat) : (guard.map set.rule).filter denies = if (match guard with
          | none => false
          | some i => (set.rule i).action != A.actionAllow) = true
        then guard.map set.rule else none := by
  cases guard with
  | none => rfl
  | some i => rfl

/-- The if-cascade of the source is the policy. -/
theorem verdictOf_decidingRule (sel : Selection) : verdictOf set (decidingRule A set sel)
      = policy (set.enabled != 0) (fun kind => (sel kind).map set.rule) := by
  unfold decidingRule policy
  simp only [filter_denies]
  -- split as the source does: disabled or not, then kind by kind
  by_cases henabled : set.enabled = 0#32
  · cases hguard : sel .guard with
    | none => simp [henabled, verdictOf]
    | some g =>
      by_cases hdenies : (set.rule g).action = A.actionAllow <;> simp [henabled, hdenies, verdictOf]
  cases hbypass : sel .bypass with
  | some b => simp [henabled, verdictOf]
  | none =>
    cases hguard : sel .guard with
    | none =>
      cases hsystem : sel .system <;> cases hregular : sel .regular <;>
        simp [henabled, verdictOf]
    | some g =>
      by_cases hdenies : (set.rule g).action = A.actionAllow
      · cases hsystem : sel .system <;> cases hregular : sel .regular <;>
          simp [henabled, hdenies, verdictOf]
      · simp [henabled, hdenies, verdictOf]

/-- The decision of the indexed evaluation, from the best rules of the set. -/
theorem evaluateIndexed_decides (hset : ruleSetValidate A set = .ok)
    (hpkt : packetValidate A packet = .ok) : ∃ best, BestRules set.active packet best ∧
      (evaluateIndexed A set (some (ruleIndexBuild A set).2) (some packet) true).1 = .ok ∧
      (evaluateIndexed A set (some (ruleIndexBuild A set).2) (some packet) true).2.1
        = some (verdictDecision set packet (policy (set.enabled != 0) best)) := by
  have hs := (ruleSetValidate_eq_ok set).mp hset
  obtain ⟨index, hbuild, hidx⟩ := ruleIndexBuild_ok hs
  obtain ⟨sel, hsel, heval⟩ := evaluateIndexed_eq_outcome hidx hs hpkt
  refine ⟨_, hsel.bestRules hs, ?_⟩
  rw [hbuild, heval]
  rw [← verdictOf_decidingRule]
  exact ⟨(conclude_verdict sel).1, congrArg some (conclude_verdict sel).2⟩

/-- **The indexed evaluation is the policy.** The index of an accepted set is built; the decision on an
accepted packet is the policy's over the first matching rule of each kind, and a table with the same
rules in another order leads to the same decision. -/
theorem evaluateIndexed_policy (A : Abi) (set : RuleSet A.toAbiConstants)
    (packet : Packet A.toAbiConstants) (hset : ruleSetValidate A set = .ok)
    (hpkt : packetValidate A packet = .ok) : (ruleIndexBuild A set).1 = .ok ∧
    (∃ best, BestRules set.active packet best) ∧ (∀ best, BestRules set.active packet best →
      (evaluateIndexed A set (some (ruleIndexBuild A set).2) (some packet) true).1 = .ok ∧
      (evaluateIndexed A set (some (ruleIndexBuild A set).2) (some packet) true).2.1
        = some (verdictDecision set packet (policy (set.enabled != 0) best))) ∧
    ∀ set' : RuleSet A.toAbiConstants, ruleSetValidate A set' = .ok →
      set'.active.Perm set.active → set'.enabled = set.enabled → set'.defaultAction = set.defaultAction →
      (evaluateIndexed A set' (some (ruleIndexBuild A set').2) (some packet) true).1
        = (evaluateIndexed A set (some (ruleIndexBuild A set).2) (some packet) true).1 ∧
      (evaluateIndexed A set' (some (ruleIndexBuild A set').2) (some packet) true).2.1
        = (evaluateIndexed A set (some (ruleIndexBuild A set).2) (some packet) true).2.1 := by
  obtain ⟨best, hbest, hstat, hdec⟩ := evaluateIndexed_decides hset hpkt
  obtain ⟨index, hbuild, _⟩ := ruleIndexBuild_ok ((ruleSetValidate_eq_ok set).mp hset)
  refine ⟨by rw [hbuild], ⟨best, hbest⟩, ?_, ?_⟩
  · intro best' hbest'
    rw [hbest.unique hbest' fun _ => rfl]
    exact ⟨hstat, hdec⟩
  intro set' hset' hperm henabled hdef
  obtain ⟨best', hbest', hstat', hdec'⟩ := evaluateIndexed_decides hset' hpkt
  -- the order of the table does not show in the set of matching rules
  have hsame : best' = best := hbest.unique hbest' fun kind => by
    ext rule
    simp only [matching, Set.mem_ofPred_eq, hperm.mem_iff]
  have hver : ∀ verdict, verdictDecision set' packet verdict
      = verdictDecision set packet verdict := by
    intro verdict
    cases verdict <;> simp only [verdictDecision, defaultFor, hdef]
  refine ⟨hstat'.trans hstat.symm, ?_⟩
  rw [hdec', hdec, hsame, henabled, hver]

/-- The policy on a set with all four kinds of rule: the bypass rule 5 of priority 10 decides, which is the
last of the table. -/
theorem evaluateIndexed_policy_overtaken :
    ruleSetValidate compactAbi overtakenSet = .ok ∧ packetValidate compactAbi overtakenPacket = .ok ∧
      (∃ best, BestRules overtakenSet.active overtakenPacket best ∧
        (evaluateIndexed compactAbi overtakenSet (some (ruleIndexBuild compactAbi overtakenSet).2)
            (some overtakenPacket) true).2.1 = some (verdictDecision overtakenSet overtakenPacket
              (policy (overtakenSet.enabled != 0) best))) ∧
      (evaluateIndexed compactAbi overtakenSet (some (ruleIndexBuild compactAbi overtakenSet).2)
        (some overtakenPacket) true).2.1.map (fun d => (d.ruleId, d.priority)) = some (5, 10) := by
  have hset : ruleSetValidate compactAbi overtakenSet = .ok := by decide +kernel
  have hpkt : packetValidate compactAbi overtakenPacket = .ok := by decide +kernel
  obtain ⟨_, ⟨best, hbest⟩, hdecides, _⟩ :=
    evaluateIndexed_policy compactAbi overtakenSet overtakenPacket hset hpkt
  exact ⟨hset, hpkt, ⟨best, hbest, (hdecides best hbest).2⟩, by decide +kernel⟩

/-! ## §3. What a namespace's packets depend on. -/

/-- The rule is scoped to the packet's container identity. -/
def scopedToIdentity (rule : Rule A) (packet : Packet A) : Bool :=
  rule.has .matchNamespaceIdentity && packet.has .namespaceIdentity &&
    bytesEqual rule.reservedBytes packet.namespaceIdentity.toList

/-- The rule is scoped to the namespace. -/
def scopedToNamespace (rule : Rule A) (namespaceId : BitVec 64) : Bool :=
  rule.has .matchNamespace && rule.namespaceId == namespaceId

/-- A rule that matches a packet outside the host is a system rule, or scoped to the packet's namespace
or to its container identity. -/
theorem ruleMatches_scope {rule : Rule A} (hns : packet.namespaceId ≠ namespacePolicyHostId)
    (h : ruleMatches A rule packet = true) :
    rule.ruleClass = A.ruleClassSystem ∨ scopedToNamespace rule packet.namespaceId = true ∨
      scopedToIdentity rule packet = true := by
  obtain ⟨hscope, h⟩ := of_ite_false h
  -- past header, addresses and interface to the two namespace tests
  obtain ⟨-, h⟩ := of_ite_false h
  obtain ⟨-, h⟩ := of_ite_false h
  obtain ⟨-, h⟩ := of_ite_false h
  obtain ⟨-, h⟩ := of_ite_false h
  obtain ⟨hnamed, h⟩ := of_ite_false h
  obtain ⟨hidentified, -⟩ := of_ite_false h
  push Not at hscope hnamed hidentified
  by_cases hsystem : rule.ruleClass = A.ruleClassSystem
  · exact .inl hsystem
  right
  have hflag := hscope hns hsystem
  rw [ne_eq, and_or_eq_zero, Rule.and_flag_eq_zero, Rule.and_flag_eq_zero, not_and_or,
    Bool.not_eq_false, Bool.not_eq_false] at hflag
  rcases hflag with hflag | hflag
  · left
    simp [scopedToNamespace, hflag, hnamed hflag]
  right
  obtain ⟨hhas, hequal⟩ := hidentified hflag
  simp [scopedToIdentity, hflag, hhas, hequal]

/-- **Namespace isolation.** Two accepted sets, both enabled or both disabled, that hold the same system
rules, the same rules scoped to the packet's namespace and the same rules scoped to its container
identity decide a packet outside the host alike. -/
theorem evaluateIndexed_isolated (A : Abi) (set set' : RuleSet A.toAbiConstants)
    (packet : Packet A.toAbiConstants) (hset : ruleSetValidate A set = .ok)
    (hset' : ruleSetValidate A set' = .ok) (hpkt : packetValidate A packet = .ok)
    (hns : packet.namespaceId ≠ namespacePolicyHostId)
    (henabled : set'.enabled = 0 ↔ set.enabled = 0)
    (hsystem : ∀ rule : Rule A.toAbiConstants, rule.ruleClass = A.ruleClassSystem →
      (rule ∈ set'.active ↔ rule ∈ set.active))
    (hscoped : ∀ rule : Rule A.toAbiConstants, scopedToNamespace rule packet.namespaceId = true →
      (rule ∈ set'.active ↔ rule ∈ set.active))
    (hid : ∀ rule : Rule A.toAbiConstants, scopedToIdentity rule packet = true →
      (rule ∈ set'.active ↔ rule ∈ set.active)) :
    (evaluateIndexed A set (some (ruleIndexBuild A set).2) (some packet) true).1 = .ok ∧
    (evaluateIndexed A set' (some (ruleIndexBuild A set').2) (some packet) true).1 = .ok ∧
    (evaluateIndexed A set' (some (ruleIndexBuild A set').2) (some packet) true).2.1
      = (evaluateIndexed A set (some (ruleIndexBuild A set).2) (some packet) true).2.1 := by
  obtain ⟨best, hbest, hstat, hdec⟩ := evaluateIndexed_decides hset hpkt
  obtain ⟨best', hbest', hstat', hdec'⟩ := evaluateIndexed_decides hset' hpkt
  -- foreign rules do not match, so both sets have the same matching rules
  have hshared : ∀ rule, ruleMatches A rule packet = true →
      (rule ∈ set'.active ↔ rule ∈ set.active) := by
    intro rule hmatch
    rcases ruleMatches_scope hns hmatch with h | h | h
    · exact hsystem rule h
    · exact hscoped rule h
    · exact hid rule h
  have hsame : best' = best := hbest.unique hbest' fun kind => by
    ext rule
    exact and_congr_left fun hmatch => hshared rule hmatch.1
  have hver : ∀ verdict, verdictDecision set' packet verdict
      = verdictDecision set packet verdict := by
    intro verdict
    cases verdict <;> simp only [verdictDecision, defaultFor, if_neg hns]
  have hact : (set'.enabled != 0) = (set.enabled != 0) := by
    rw [Bool.eq_iff_iff, bne_iff_ne, bne_iff_ne]
    exact not_congr henabled
  refine ⟨hstat, hstat', ?_⟩
  rw [hdec', hdec, hsame, hact, hver]

end

/-! ## §4. A rule for a container identity. -/

/-- An application rule scoped to the container identity whose first byte is 9. -/
def identityRule : Rule compactAbi :=
  { compactRule 1 100 2 (compactAbi.ruleFlag .matchNamespaceIdentity |||
      compactAbi.ruleFlag .matchApplication) 0 9 with
    applicationId := Vector.replicate _ 0x61 }

/-- The rule set with this rule alone. -/
def identitySet : RuleSet compactAbi :=
  { ruleSetInit compactAbi with
    ruleCount := 1
    rules := (Vector.replicate _ (Rule.zero compactAbi)).set 0 identityRule (by decide) }

/-- The rule and a wildcard rule of the same application, scoped to nothing. -/
def crowdedSet : RuleSet compactAbi :=
  { identitySet with
    ruleCount := 2
    rules := identitySet.rules.set 1
      { compactRule 2 100 2 (compactAbi.ruleFlag .matchApplication) 0 0 with
        action := compactAbi.actionDrop
        applicationId := Vector.replicate _ 0x61 } (by decide) }

/-- A packet of namespace 2 that carries the identity. -/
def identityPacket : Packet compactAbi :=
  { overtakenPacket with
    flags := compactAbi.packetFlag .namespaceIdentity
    applicationId := Vector.replicate _ 0x61
    namespaceIdentity := (Vector.replicate _ 0).set 0 9 (by decide) }

/-- The sets hold no system rule and no rule scoped to the namespace, and yet they decide differently:
the rule for the packet's container identity allows it, the empty set drops it. -/
theorem evaluateIndexed_identity_differs : ruleSetValidate compactAbi identitySet = .ok ∧
      ruleSetValidate compactAbi (ruleSetInit compactAbi) = .ok ∧
      packetValidate compactAbi identityPacket = .ok ∧ identityPacket.namespaceId ≠ namespacePolicyHostId ∧
      identitySet.enabled = (ruleSetInit compactAbi).enabled ∧
      identitySet.active = [identityRule] ∧ (ruleSetInit compactAbi).active = [] ∧
      identityRule.ruleClass ≠ compactAbi.ruleClassSystem ∧
      scopedToNamespace identityRule identityPacket.namespaceId = false ∧
      (evaluateIndexed compactAbi identitySet (some (ruleIndexBuild compactAbi identitySet).2)
          (some identityPacket) true).2.1.map (fun d => (d.action, d.ruleId))
        = some (compactAbi.actionAllow, 1) ∧ (evaluateIndexed compactAbi (ruleSetInit compactAbi)
          (some (ruleIndexBuild compactAbi (ruleSetInit compactAbi)).2)
          (some identityPacket) true).2.1.map (fun d => (d.action, d.ruleId))
        = some (compactAbi.actionDrop, 0) := by
  decide +kernel

/-- A rule scoped to nothing makes no difference to the packet. -/
theorem evaluateIndexed_isolated_crowded : crowdedSet.ruleCount ≠ identitySet.ruleCount ∧
      (evaluateIndexed compactAbi crowdedSet (some (ruleIndexBuild compactAbi crowdedSet).2)
          (some identityPacket) true).2.1
        = (evaluateIndexed compactAbi identitySet (some (ruleIndexBuild compactAbi identitySet).2)
          (some identityPacket) true).2.1 := by
  have hset : ruleSetValidate compactAbi identitySet = .ok := by decide +kernel
  have hset' : ruleSetValidate compactAbi crowdedSet = .ok := by decide +kernel
  have hpkt : packetValidate compactAbi identityPacket = .ok := by decide +kernel
  -- the two tables differ in the wildcard rule only
  have hact : ∀ rule, rule ∈ crowdedSet.active ↔ rule ∈ identitySet.active ∨
      rule = crowdedSet.rule 1 := by
    intro rule
    have hcrowded : crowdedSet.active = identitySet.active ++ [crowdedSet.rule 1] := by decide +kernel
    rw [hcrowded, List.mem_append, List.mem_singleton]
  have hforeign : (crowdedSet.rule 1).ruleClass ≠ compactAbi.ruleClassSystem ∧
      scopedToNamespace (crowdedSet.rule 1) identityPacket.namespaceId = false ∧
      scopedToIdentity (crowdedSet.rule 1) identityPacket = false := by decide +kernel
  refine ⟨by decide, (evaluateIndexed_isolated compactAbi identitySet crowdedSet identityPacket hset hset'
    hpkt (by decide) Iff.rfl ?_ ?_ ?_).2.2⟩
  · intro rule hsystem
    rw [hact, or_iff_left]
    intro heq
    exact hforeign.1 (heq ▸ hsystem)
  · intro rule hscoped
    rw [hact, or_iff_left]
    intro heq
    rw [heq, hforeign.2.1] at hscoped
    exact Bool.false_ne_true hscoped
  intro rule hid
  rw [hact, or_iff_left]
  intro heq
  rw [heq, hforeign.2.2] at hid
  exact Bool.false_ne_true hid

/-! ## §5. Rules for any protocol. -/

/-- What a rule for any protocol takes from the header: the wildcard is none of the protocols that have
selectors of their own, and a packet's mark is read off its flags and reserved words. -/
structure Abi.TransportNeutral (A : Abi) : Prop where
  any_ne_tcp : A.protocolAny ≠ A.protocolTcp
  any_ne_udp : A.protocolAny ≠ A.protocolUdp
  any_ne_icmp : A.protocolAny ≠ A.protocolIcmp
  any_ne_icmpv6 : A.protocolAny ≠ A.protocolIcmpv6
  packetFwmark_congr : ∀ p q : Packet A,
    p.flags = q.flags → p.reserved = q.reserved → A.packetFwmark p = A.packetFwmark q

/-- The packets differ in protocol, ports and ICMP type and code only. -/
def SameButTransport {K : AbiConstants} (p q : Packet K) : Prop :=
  q = { p with
    protocol := q.protocol
    icmpType := q.icmpType
    icmpCode := q.icmpCode
    sourcePort := q.sourcePort
    destinationPort := q.destinationPort }

/-- The packet carries an ICMP type or code other than zero. -/
def Packet.icmpSet {K : AbiConstants} (packet : Packet K) : Bool :=
  packet.icmpType != 0 || packet.icmpCode != 0

/-- **The selectors besides the transport**: scope, state, direction, family, addresses, interface, profile,
mark, application, process, owner and connection state. -/
@[mk_iff]
structure Selects (rule : Rule A) (packet : Packet A) : Prop where
  scope : packet.namespaceId = namespacePolicyHostId ∨ rule.ruleClass = A.ruleClassSystem ∨
    rule.flags &&& (A.ruleFlag .matchNamespace ||| A.ruleFlag .matchNamespaceIdentity) ≠ 0
  enabled : rule.flags &&& (A.ruleFlag .enabled ||| A.ruleFlag .unresolvedNamespace) = A.ruleFlag .enabled
  direction : rule.direction = packet.direction
  family : rule.family = A.familyAny ∨ rule.family = packet.family
  source : rule.sourcePrefixLen = 0 ∨
    prefixMatch packet.sourceAddress rule.sourceAddress rule.sourcePrefixLen = true
  destination : rule.destinationPrefixLen = 0 ∨
    prefixMatch packet.destinationAddress rule.destinationAddress rule.destinationPrefixLen = true
  interface : rule.has .matchInterface = false ∨ rule.interfaceId = packet.interfaceId
  namespaced : rule.has .matchNamespace = false ∨ rule.namespaceId = packet.namespaceId
  container : rule.has .matchNamespaceIdentity = false ∨ packet.has .namespaceIdentity = true ∧
    bytesEqual rule.reservedBytes packet.namespaceIdentity.toList = true
  profile : rule.has .matchProfile = false ∨ rule.networkProfile = packet.networkProfile
  mark : rule.has .matchFwmark = false ∨ A.packetFwmark packet &&& rule.fwmask = rule.fwmark
  application : rule.has .matchApplication = false ∨
    bytesEqual rule.applicationId.toList packet.applicationId.toList = true
  identified : rule.has .matchProcess = false ∨ packet.has .processIdentity = true
  process : rule.has .matchProcess = false ∨
    ruleProcessId rule = packet.reserved.get 0 ∧ ruleProcessCookie rule = packet.reserved.get 1
  owner : rule.ownerUid = 0 ∨ packet.has .userIdentity = true ∧
    (packet.reserved.get 2).setWidth 32 = rule.ownerUid
  state : rule.connectionStateMask = 0 ∨ rule.connectionStateMask &&& packet.connectionState ≠ 0

section
variable {rule : Rule A} {packet p q : Packet A}

/-- The validator leaves a rule for any protocol no port and no ICMP selector. -/
theorem ruleValidate_anyProtocol (hA : A.TransportNeutral) (hrule : ruleValidate A rule = .ok)
    (hany : rule.protocol = A.protocolAny) :
    rule.sourcePortFirst = 0 ∧ rule.destinationPortFirst = 0 ∧ rule.icmpType = 0 ∧ rule.icmpCode = 0 := by
  obtain ⟨-, -, -, hlay⟩ := (ruleValidate_eq_ok rule).mp hrule
  simp only [ruleLayoutMalformed, not_or] at hlay
  obtain ⟨-, -, -, hports, hicmp, -⟩ := hlay
  push Not at hicmp
  have htransport : ¬ (rule.protocol = A.protocolTcp ∨ rule.protocol = A.protocolUdp) := by
    rw [hany, not_or]
    exact ⟨hA.any_ne_tcp, hA.any_ne_udp⟩
  have hzero := hicmp (by rw [hany]; exact ⟨hA.any_ne_icmp, hA.any_ne_icmpv6⟩)
  unfold portsValid at hports
  rw [if_pos htransport] at hports
  simp only [Bool.not_eq_false, Bool.and_eq_true, beq_iff_eq] at hports
  exact ⟨hports.1.1.1, hports.1.2, hzero⟩

/-- A valid packet carries an ICMP type or code only under an ICMP protocol. -/
theorem packetValidate_icmpSet (hpkt : packetValidate A packet = .ok) (hset : packet.icmpSet = true) :
    packet.protocol = A.protocolIcmp ∨ packet.protocol = A.protocolIcmpv6 := by
  obtain ⟨-, h⟩ := of_ite_malformed (by decide) hpkt
  obtain ⟨-, h⟩ := of_ite_malformed (by decide) h
  obtain ⟨-, h⟩ := of_ite_malformed (by decide) h
  obtain ⟨htransport, -⟩ := of_ite_malformed (by decide) h
  simp only [Packet.icmpSet, Bool.or_eq_true, bne_iff_ne] at hset
  split_ifs at htransport with htcp hicmp
  · tauto
  · exact hicmp
  · tauto

/-- **What the zero type and code do.** A rule for any protocol matches the packets its other selectors
match, except those with an ICMP type or code. -/
theorem ruleMatches_anyProtocol (hA : A.TransportNeutral) (hrule : ruleValidate A rule = .ok)
    (hany : rule.protocol = A.protocolAny) (hpkt : packetValidate A packet = .ok) :
    ruleMatches A rule packet = true ↔ Selects rule packet ∧ packet.icmpSet = false := by
  obtain ⟨hsrc, hdest, htype, hcode⟩ := ruleValidate_anyProtocol hA hrule hany
  have hicmp : packet.icmpSet = false ↔ ¬ (packet.protocol = A.protocolIcmp ∨
      packet.protocol = A.protocolIcmpv6) ∨ 0 = packet.icmpType ∧ 0 = packet.icmpCode := by
    rw [← Bool.not_eq_true, ← not_iff_not]
    have hset := @packetValidate_icmpSet A packet hpkt
    simp only [Packet.icmpSet, Bool.or_eq_true, bne_iff_ne] at hset ⊢
    grind
  rw [hicmp, selects_iff]
  unfold ruleMatches
  simp [hany, hsrc, hdest, htype, hcode, and_assoc]

/-- The other selectors do not read the transport of the packet. -/
theorem selects_sameButTransport (hA : A.TransportNeutral) (hsame : SameButTransport p q) :
    Selects rule q ↔ Selects rule p := by
  have hmark : A.packetFwmark q = A.packetFwmark p := by
    rw [hsame]
    exact hA.packetFwmark_congr _ _ rfl rfl
  rw [selects_iff, selects_iff, hmark, hsame]
  rfl

end

/-- **Rules for any protocol and the transport.** Such a rule answers alike for two packets that differ
in their transport only exactly when another selector refuses them, or both or neither carry an ICMP type
or code. -/
theorem ruleMatches_transport_iff (A : Abi) (hA : A.TransportNeutral) (rule : Rule A.toAbiConstants)
    (p q : Packet A.toAbiConstants) (hrule : ruleValidate A rule = .ok)
    (hany : rule.protocol = A.protocolAny) (hp : packetValidate A p = .ok)
    (hq : packetValidate A q = .ok) (hsame : SameButTransport p q) :
    ruleMatches A rule p = ruleMatches A rule q ↔ (Selects rule p → p.icmpSet = q.icmpSet) := by
  rw [Bool.eq_iff_iff, ruleMatches_anyProtocol hA hrule hany hp, ruleMatches_anyProtocol hA hrule hany hq,
    selects_sameButTransport hA hsame]
  by_cases hselects : Selects rule p
  · cases p.icmpSet <;> cases q.icmpSet <;> simp [hselects]
  · simp [hselects]

/-- The compact header tells the wildcard from every protocol. -/
theorem compactAbi_transportNeutral : compactAbi.TransportNeutral where
  any_ne_tcp := by decide
  any_ne_udp := by decide
  any_ne_icmp := by decide
  any_ne_icmpv6 := by decide
  packetFwmark_congr := by
    intro p q _ hresv
    show (p.reserved.get 2 >>> 32).setWidth 32 = (q.reserved.get 2 >>> 32).setWidth 32
    rw [hresv]

/-- The same packet over UDP. -/
def udpPacket : Packet compactAbi :=
  { overtakenPacket with protocol := compactAbi.protocolUdp }

/-- A system rule for any protocol does not tell TCP from UDP. -/
theorem ruleMatches_transport_udp : ruleMatches compactAbi (compactRule 2 60 1 0 0 0) overtakenPacket
      = ruleMatches compactAbi (compactRule 2 60 1 0 0 0) udpPacket :=
  (ruleMatches_transport_iff compactAbi compactAbi_transportNeutral (compactRule 2 60 1 0 0 0)
    overtakenPacket udpPacket (by decide +kernel) rfl (by decide +kernel) (by decide +kernel) rfl).mpr
    fun _ => rfl

/-- An ICMP echo request from the same host. -/
def echoPacket : Packet compactAbi :=
  { overtakenPacket with
    protocol := compactAbi.protocolIcmp
    icmpType := 8
    sourcePort := 0
    destinationPort := 0 }

/-- The same rule matches the TCP packet and not the echo request. -/
theorem ruleMatches_transport_echo : ruleValidate compactAbi (compactRule 2 60 1 0 0 0) = .ok ∧
      (compactRule 2 60 1 0 0 0).protocol = compactAbi.protocolAny ∧
      packetValidate compactAbi overtakenPacket = .ok ∧ packetValidate compactAbi echoPacket = .ok ∧
      SameButTransport overtakenPacket echoPacket ∧
      ruleMatches compactAbi (compactRule 2 60 1 0 0 0) overtakenPacket = true ∧
      ruleMatches compactAbi (compactRule 2 60 1 0 0 0) echoPacket = false := by
  refine ⟨by decide +kernel, rfl, by decide +kernel, by decide +kernel, rfl, by decide +kernel,
    by decide +kernel⟩

end RinRuntime.Firewall

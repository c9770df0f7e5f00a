/-
Firewall.Validate — the validators of `src/firewall/rule_engine.c`.

`ruleValidate`, `packetValidate` and `ruleSetValidate` test the fields in the order of the source, so they
return the status the C function returns. The namespace-default predicate of
`firewall_namespace_policy.h`, which the rule validator calls, is here too.
-/
import RinRuntime.Firewall.Abi

namespace RinRuntime.Firewall
open BitVec

/-! ## §1. Byte helpers. -/

/-- `firewall_bytes_zero`. -/
def bytesZero (bytes : List (BitVec 8)) : Bool := bytes.all (· == 0)

/-- `firewall_bytes_equal`: both sides are read over the same length. -/
def bytesEqual (left right : List (BitVec 8)) : Bool := left == right

/-- `firewall_string_valid`: a NUL inside the buffer, only NULs after it, and a first character when
one is required. -/
def stringValid (text : List (BitVec 8)) (required : Bool) : Bool :=
  match text.dropWhile (· != 0) with
  | [] => false
  | _ :: rest => !(required && text.head? == some 0) && bytesZero rest

/-- The bytes of a 32-bit word in memory order (little-endian). -/
def wordBytes (word : BitVec 32) : List (BitVec 8) :=
  [word.setWidth 8, (word >>> 8).setWidth 8, (word >>> 16).setWidth 8, (word >>> 24).setWidth 8]

section
variable {K : AbiConstants}

/-- `(const uint8_t*)rule->reserved`. -/
def Rule.reservedBytes (rule : Rule K) : List (BitVec 8) := rule.reserved.toList.flatMap wordBytes

/-- `firewall_rule_process_id`. -/
def ruleProcessId (rule : Rule K) : BitVec 64 :=
  ((rule.reserved.get 1).setWidth 64 <<< 32) ||| (rule.reserved.get 0).setWidth 64

/-- `firewall_rule_process_cookie`. -/
def ruleProcessCookie (rule : Rule K) : BitVec 64 :=
  ((rule.reserved.get 3).setWidth 64 <<< 32) ||| (rule.reserved.get 2).setWidth 64

/-- `firewall_process_identity_valid`. -/
def processIdentityValid (processId processCookie : BitVec 64) : Bool :=
  processId != 0 && processCookie != 0

end

/-! ## §2. Field predicates. -/
section
variable (K : AbiConstants)

/-- `firewall_action_valid`. -/
def actionValid (action : BitVec 8) : Bool :=
  action == K.actionAllow || action == K.actionDrop || action == K.actionReject

/-- `firewall_direction_valid`. -/
def directionValid (direction : BitVec 8) : Bool :=
  decide (K.directionInput ≤ direction) && decide (direction ≤ K.directionForward)

/-- `firewall_family_valid`. -/
def familyValid (family : BitVec 8) : Bool :=
  family == K.familyAny || family == K.familyIpv4 || family == K.familyIpv6

/-- `firewall_protocol_valid`. -/
def protocolValid (protocol : BitVec 8) : Bool := protocol == K.protocolAny || protocol != 255

/-- `firewall_profile_valid`. -/
def profileValid (profile : BitVec 32) : Bool := decide (profile ≤ K.profileTrusted)

/-- `firewall_prefix_canonical`: no address bit is set past the prefix length. -/
def prefixCanonical (address : Vector (BitVec 8) 16) (family prefixLen : BitVec 8) : Bool :=
  let bits := if family = K.familyIpv4 then 32 else 128
  if bits < prefixLen.toNat then false
  else if prefixLen = 0 then bytesZero address.toList
  else if family = K.familyIpv4 ∧ bytesZero (address.toList.drop 4) = false then false
  else (List.range' prefixLen.toNat (bits - prefixLen.toNat)).all fun index =>
    address.toList.getD (index / 8) 0 &&& (1#8 <<< (7 - index % 8)) == 0

/-- `firewall_prefix_match`. -/
def prefixMatch (address network : Vector (BitVec 8) 16) (prefixLen : BitVec 8) : Bool :=
  let fullBytes := prefixLen.toNat / 8
  let remaining := prefixLen.toNat % 8
  if fullBytes ≠ 0 ∧
      bytesEqual (address.toList.take fullBytes) (network.toList.take fullBytes) = false then false
  else if remaining = 0 then true
  else
    let mask := 255#8 <<< (8 - remaining)
    address.toList.getD fullBytes 0 &&& mask == network.toList.getD fullBytes 0 &&& mask

variable {K}

/-- `(rule->flags & RIN_FIREWALL_RULE_FLAG_*) != 0`. -/
def Rule.has (rule : Rule K) (f : RuleFlag) : Bool := rule.flags &&& K.ruleFlag f != 0

/-- `(packet->flags & RIN_FIREWALL_PACKET_FLAG_*) != 0`. -/
def Packet.has (packet : Packet K) (f : PacketFlag) : Bool := packet.flags &&& K.packetFlag f != 0

theorem and_bit_ne_zero {w : Nat} (x : BitVec w) {k : Nat} (hk : k < w) :
    x &&& (1#w <<< k) ≠ 0 ↔ x.getLsbD k = true := by
  rw [← twoPow_eq, and_twoPow]
  cases hx : x.getLsbD k with
  | false => simp
  | true =>
    simp only [if_true, iff_true]
    intro h
    have hbit := congrArg (fun y : BitVec w => y.getLsbD k) h
    simp [hk] at hbit

theorem getLsbD_bit {w : Nat} {k : Nat} (hk : k < w) (i : Nat) :
    (1#w <<< k).getLsbD i = decide (k = i) := by
  rw [← twoPow_eq, getLsbD_twoPow, decide_eq_true hk, Bool.true_and]

theorem Rule.has_iff (rule : Rule K) (f : RuleFlag) :
    rule.has f = true ↔ rule.flags.getLsbD (K.ruleFlagBit f).val = true := by
  rw [← and_bit_ne_zero rule.flags (K.ruleFlagBit f).isLt]
  simp [Rule.has, AbiConstants.ruleFlag]

/-- A mask of two parts is clear exactly when both parts are. -/
theorem and_or_eq_zero {w : Nat} (x a b : BitVec w) : x &&& (a ||| b) = 0 ↔ x &&& a = 0 ∧ x &&& b = 0 := by
  rw [and_or_distrib_left]
  exact or_eq_zero_iff

theorem Rule.and_flag_eq_zero (rule : Rule K) (f : RuleFlag) :
    rule.flags &&& K.ruleFlag f = 0 ↔ rule.has f = false := by
  simp [Rule.has]

/-- `firewall_ports_valid`. -/
def portsValid (rule : Rule K) : Bool :=
  if ¬ (rule.protocol = K.protocolTcp ∨ rule.protocol = K.protocolUdp) then
    rule.sourcePortFirst == 0 && rule.sourcePortLast == 0 &&
      rule.destinationPortFirst == 0 && rule.destinationPortLast == 0
  else if (rule.sourcePortFirst == 0) != (rule.sourcePortLast == 0) then false
  else if (rule.destinationPortFirst == 0) != (rule.destinationPortLast == 0) then false
  else
    (rule.sourcePortFirst == 0 || decide (rule.sourcePortFirst ≤ rule.sourcePortLast)) &&
      (rule.destinationPortFirst == 0 ||
        decide (rule.destinationPortFirst ≤ rule.destinationPortLast))

end

/-! ## §3. Namespace default guards (`firewall_namespace_policy.h`). -/

/-- `RIN_FIREWALL_NAMESPACE_POLICY_HOST_ID`. -/
def namespacePolicyHostId : BitVec 64 := 1

/-- `RIN_FIREWALL_NAMESPACE_POLICY_DEFAULT_PRIORITY`, that is `UINT32_MAX - 1`. -/
def namespacePolicyDefaultPriority : BitVec 32 := 0xfffffffe

/-- `RIN_FIREWALL_NAMESPACE_POLICY_RULE_ID_BASE`. -/
def namespacePolicyRuleIdBase : BitVec 64 := 0x4E53000000000000

section
variable (A : Abi)

/-- The flags a namespace default guard carries, exactly. -/
def namespacePolicyRequiredFlags : BitVec 16 :=
  A.ruleFlag .enabled ||| A.ruleFlag .matchNamespace ||| A.ruleFlag .policyGuard

/-- `rin_firewall_namespace_policy_default_rule_valid`. -/
def namespacePolicyDefaultRuleValid (rule : Rule A) : Bool :=
  if rule.id < namespacePolicyRuleIdBase ∨
      namespacePolicyRuleIdBase + BitVec.ofNat 64 A.maxRules ≤ rule.id ∨
      rule.priority ≠ namespacePolicyDefaultPriority ∨
      rule.ruleClass ≠ A.ruleClassContainer ∨
      rule.flags ≠ namespacePolicyRequiredFlags A ∨
      rule.namespaceId ≤ namespacePolicyHostId ∨
      A.containerRuleOwnerId rule = A.containerOwnerUnknown ∨
      rule.direction < A.directionInput ∨
      A.directionForward < rule.direction ∨
      actionValid A rule.action = false ∨
      rule.family ≠ A.familyAny ∨
      rule.protocol ≠ A.protocolAny ∨
      rule.sourcePrefixLen ≠ 0 ∨
      rule.destinationPrefixLen ≠ 0 ∨
      rule.sourcePortFirst ≠ 0 ∨ rule.sourcePortLast ≠ 0 ∨
      rule.destinationPortFirst ≠ 0 ∨
      rule.destinationPortLast ≠ 0 ∨ rule.icmpType ≠ 0 ∨
      rule.icmpCode ≠ 0 ∨ rule.reserved0 ≠ 0 ∨
      rule.interfaceId ≠ 0 ∨
      rule.networkProfile ≠ A.profileAny ∨
      rule.connectionStateMask ≠ 0 then false
  else bytesZero rule.sourceAddress.toList && bytesZero rule.destinationAddress.toList &&
    bytesZero rule.applicationId.toList

/-! ## §4. The rule validator. -/

/-- The first block of `MALFORMED` tests of `rin_firewall_rule_validate`: flags, identity, class and
priority bands, the guard and bypass constraints, and the enumerated fields. -/
def rulePolicyMalformed (rule : Rule A) : Prop :=
  rule.flags &&& ~~~A.ruleKnownFlags ≠ 0 ∨
  rule.id = 0 ∨ rule.priority = 0xffffffff ∨
  (namespacePolicyDefaultPriority ≤ rule.priority ∧
    namespacePolicyDefaultRuleValid A rule = false) ∨
  rule.ruleClass < A.ruleClassSystem ∨
  A.ruleClassContainer < rule.ruleClass ∨
  (rule.ruleClass = A.ruleClassSystem ∧ A.systemPriorityMax < rule.priority) ∨
  (rule.ruleClass ≠ A.ruleClassSystem ∧ rule.priority < A.userPriorityMin) ∨
  (rule.has .policyGuard ∧
    (rule.ruleClass ≠ A.ruleClassContainer ∨
      rule.flags &&& (A.ruleFlag .matchProcess ||| A.ruleFlag .systemCritical |||
        A.ruleFlag .policyBypass) ≠ 0 ∨
      rule.has .matchNamespace = false ∨
      rule.has .matchNamespaceIdentity ∨
      rule.reserved.get 0 = A.containerOwnerUnknown)) ∨
  (rule.has .policyBypass ∧
    (rule.ruleClass ≠ A.ruleClassSystem ∨
      rule.action ≠ A.actionAllow ∨
      rule.has .systemCritical = false)) ∨
  (rule.ruleClass = A.ruleClassContainer ∧
    (rule.has .matchNamespace = false ∨ rule.namespaceId ≤ namespacePolicyHostId)) ∨
  directionValid A rule.direction = false ∨
  actionValid A rule.action = false ∨
  familyValid A rule.family = false ∨
  protocolValid A rule.protocol = false ∨
  (rule.family = A.familyIpv4 ∧ rule.protocol = A.protocolIcmpv6) ∨
  (rule.family = A.familyIpv6 ∧ rule.protocol = A.protocolIcmp)

instance (rule : Rule A) : Decidable (rulePolicyMalformed A rule) := by
  unfold rulePolicyMalformed; infer_instance

/-- The tests on the optional matchers: a matcher's field is set exactly when its flag is. -/
def ruleMatcherMalformed (rule : Rule A) : Prop :=
  rule.reserved0 ≠ 0 ∨
  rule.connectionStateMask &&& ~~~A.stateKnownMask ≠ 0 ∨
  (if rule.has .matchFwmark then
    rule.direction ≠ A.directionOutput ∨ rule.fwmask = 0 ∨ rule.fwmark &&& ~~~rule.fwmask ≠ 0
   else rule.fwmark ≠ 0 ∨ rule.fwmask ≠ 0) ∨
  profileValid A rule.networkProfile = false ∨
  (if rule.has .matchInterface then rule.interfaceId = 0 else rule.interfaceId ≠ 0) ∨
  (if rule.has .matchNamespace then rule.namespaceId = 0 else rule.namespaceId ≠ 0) ∨
  (rule.has .matchNamespaceIdentity ∧
    (rule.flags &&& (A.ruleFlag .matchNamespace ||| A.ruleFlag .matchProcess |||
        A.ruleFlag .unresolvedNamespace) ≠ 0 ∨
      rule.ruleClass = A.ruleClassContainer ∨
      rule.namespaceId ≠ 0 ∨
      bytesZero rule.reservedBytes)) ∨
  (rule.has .unresolvedNamespace ∧
    (rule.has .matchNamespace = false ∨
      rule.flags &&& (A.ruleFlag .enabled ||| A.ruleFlag .matchNamespaceIdentity) ≠ 0 ∨
      rule.namespaceId ≤ namespacePolicyHostId)) ∨
  (if rule.has .matchProfile then rule.networkProfile = A.profileAny
   else rule.networkProfile ≠ A.profileAny) ∨
  (if rule.has .matchApplication then bytesZero rule.applicationId.toList = true
   else bytesZero rule.applicationId.toList = false) ∨
  (rule.ruleClass = A.ruleClassApplication ∧ rule.has .matchApplication = false) ∨
  (rule.has .orphaned ∧
    (rule.ruleClass ≠ A.ruleClassApplication ∨
      rule.has .matchApplication = false ∨
      rule.has .enabled))

instance (rule : Rule A) : Decidable (ruleMatcherMalformed A rule) := by
  unfold ruleMatcherMalformed; infer_instance

/-- The tests on addresses, ports, timestamps, texts and the reserved words. -/
def ruleLayoutMalformed (rule : Rule A) : Prop :=
  let addressFamily := if rule.family = A.familyAny then A.familyIpv6 else rule.family
  prefixCanonical A rule.sourceAddress addressFamily rule.sourcePrefixLen = false ∨
  prefixCanonical A rule.destinationAddress addressFamily
    rule.destinationPrefixLen = false ∨
  (rule.family = A.familyAny ∧
    (rule.sourcePrefixLen ≠ 0 ∨
      rule.destinationPrefixLen ≠ 0 ∨
      bytesZero rule.sourceAddress.toList = false ∨
      bytesZero rule.destinationAddress.toList = false)) ∨
  portsValid rule = false ∨
  (¬ (rule.protocol = A.protocolIcmp ∨ rule.protocol = A.protocolIcmpv6) ∧
    (rule.icmpType ≠ 0 ∨ rule.icmpCode ≠ 0)) ∨
  rule.updatedAtMs < rule.createdAtMs ∨
  stringValid rule.name.toList true = false ∨
  stringValid rule.description.toList false = false ∨
  (if rule.has .matchProcess then
    processIdentityValid (ruleProcessId rule) (ruleProcessCookie rule) = false
   else if rule.has .matchNamespaceIdentity then rule.ruleClass = A.ruleClassContainer
   else if rule.ruleClass = A.ruleClassContainer then
    ∃ i ∈ [1, 2, 3], rule.reserved.get i ≠ 0
   else ∃ i ∈ [0, 1, 2, 3], rule.reserved.get i ≠ 0)

instance (rule : Rule A) : Decidable (ruleLayoutMalformed A rule) := by
  unfold ruleLayoutMalformed; infer_instance

/-- `rin_firewall_rule_validate`. -/
def ruleValidate (rule : Rule A) : Status :=
  if rule.structSize ≠ A.sizeofRule ∨ rule.version ≠ A.abiVersion then .abiMismatch
  else if rulePolicyMalformed A rule then .malformed
  else if ruleMatcherMalformed A rule then .malformed
  else if ruleLayoutMalformed A rule then .malformed
  else .ok

/-! ## §5. The rule-set validator. -/

/-- The namespace-default clash of `rin_firewall_rule_set_validate`: both rules are default guards
of one namespace and one direction. -/
def defaultGuardClash (other rule : Rule A) : Prop :=
  namespacePolicyDefaultRuleValid A rule ∧ namespacePolicyDefaultRuleValid A other ∧
    other.namespaceId = rule.namespaceId ∧ other.direction = rule.direction

instance (other rule : Rule A) : Decidable (defaultGuardClash A other rule) := by
  unfold defaultGuardClash; infer_instance

/-- The rule loop of `rin_firewall_rule_set_validate`; `seen` are the rules before the current. -/
def ruleSetValidateRules (seen : List (Rule A)) :
    List (Rule A) → Status
  | [] => .ok
  | rule :: rest =>
      if ruleValidate A rule ≠ .ok then ruleValidate A rule
      else if ∃ other ∈ seen, other.id = rule.id ∨ defaultGuardClash A other rule then .duplicate
      else ruleSetValidateRules (seen ++ [rule]) rest

/-- `rin_firewall_rule_set_validate`. -/
def ruleSetValidate (set : RuleSet A) : Status :=
  if set.structSize ≠ A.sizeofRuleSet ∨ set.version ≠ A.abiVersion then .abiMismatch
  else if set.flags ≠ 0 ∨ set.generation = 0 ∨ 1 < set.enabled ∨
      A.maxRules < set.ruleCount.toNat then .malformed
  else if ∃ action ∈ set.defaultAction.toList, actionValid A action = false then
    .malformed
  else if set.reserved0 ≠ 0 ∨ bytesZero set.reserved.toList = false then .malformed
  else if ruleSetValidateRules A [] set.active ≠ .ok then ruleSetValidateRules A [] set.active
  else if ∃ rule ∈ set.tail, rule ≠ Rule.zero A then .malformed
  else .ok

/-- `rin_firewall_rule_set_init`. -/
def ruleSetInit : RuleSet A where
  structSize := A.sizeofRuleSet
  version := A.abiVersion
  flags := 0
  generation := 1
  enabled := 1
  ruleCount := 0
  defaultAction :=
    (((Vector.replicate A.directionCount 0).setIfInBounds (A.directionInput.toNat - 1)
      A.actionDrop).setIfInBounds (A.directionOutput.toNat - 1)
      A.actionAllow).setIfInBounds (A.directionForward.toNat - 1) A.actionDrop
  reserved0 := 0
  reserved := Vector.replicate _ 0
  rules := Vector.replicate _ (Rule.zero A)

/-! ## §6. The packet validator. -/

/-- `rin_firewall_packet_validate`. -/
def packetValidate (packet : Packet A) : Status :=
  let identityWord := (packet.reserved.get 2).setWidth 32
  let markWord := (packet.reserved.get 2 >>> 32).setWidth 32
  if packet.structSize ≠ A.sizeofPacket ∨ packet.version ≠ A.abiVersion then .abiMismatch
  else if packet.flags &&& ~~~A.packetKnownFlags ≠ 0 ∨
      packet.namespaceId = 0 ∨
      directionValid A packet.direction = false ∨
      familyValid A packet.family = false ∨
      packet.family = A.familyAny ∨
      protocolValid A packet.protocol = false ∨ packet.protocol = 0 ∨
      (packet.family = A.familyIpv4 ∧ packet.protocol = A.protocolIcmpv6) ∨
      (packet.family = A.familyIpv6 ∧ packet.protocol = A.protocolIcmp) ∨
      profileValid A packet.networkProfile = false ∨
      A.stateInvalid < packet.connectionState ∨
      (packet.connectionState ≠ A.stateUntracked ∧
        packet.connectionState &&& (packet.connectionState - 1) ≠ 0) then .malformed
  else if packet.family = A.familyIpv4 ∧
      (bytesZero (packet.sourceAddress.toList.drop 4) = false ∨
        bytesZero (packet.destinationAddress.toList.drop 4) = false) then .malformed
  else if
      (if packet.protocol = A.protocolTcp ∨ packet.protocol = A.protocolUdp then
        packet.sourcePort = 0 ∨ packet.destinationPort = 0 ∨
          packet.icmpType ≠ 0 ∨ packet.icmpCode ≠ 0
      else if packet.protocol = A.protocolIcmp ∨ packet.protocol = A.protocolIcmpv6 then
        packet.sourcePort ≠ 0 ∨ packet.destinationPort ≠ 0
      else packet.sourcePort ≠ 0 ∨ packet.destinationPort ≠ 0 ∨
        packet.icmpType ≠ 0 ∨ packet.icmpCode ≠ 0) then .malformed
  else if packet.family = A.familyIpv4 ∧ packet.extensionHeaderCount ≠ 0 then .malformed
  else if packet.family = A.familyIpv6 ∧ 8 < packet.extensionHeaderCount then .malformed
  else if packet.has .fragment = false ∧ packet.fragmentOffset ≠ 0 then .malformed
  else if
      (if packet.has .fwmark then packet.direction ≠ A.directionOutput ∨ markWord = 0
      else markWord ≠ 0) then .malformed
  else if
      (if packet.has .processIdentity then
        processIdentityValid (packet.reserved.get 0) (packet.reserved.get 1) = false ∨
          (packet.has .userIdentity = true ∧ identityWord = 0) ∨
          (packet.has .userIdentity = false ∧ identityWord ≠ 0)
      else packet.reserved.get 0 ≠ 0 ∨ packet.reserved.get 1 ≠ 0 ∨ identityWord ≠ 0) then
    .malformed
  else if packet.has .userIdentity = true ∧ packet.has .processIdentity = false then .malformed
  else if
      (if packet.has .namespaceIdentity then
        packet.namespaceId ≤ namespacePolicyHostId ∨ bytesZero packet.namespaceIdentity.toList = true
      else bytesZero packet.namespaceIdentity.toList = false) then .malformed
  else .ok

end
end RinRuntime.Firewall

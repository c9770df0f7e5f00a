/-
Firewall.Abi — the fixed-width records the firewall rule engine works on.

The SDK header `rin/firewall/abi.h` declares the records; the runtime includes it but does not carry it.
What the engine takes from it is a field of `Abi`: array lengths, record sizes, numeric constants, the bit
of every flag, and three accessor functions. So is what the engine RELIES ON:

  • two flags never share a bit (`ruleFlagBit_injective`, `packetFlagBit_injective`),
  • a rule index fits the 16-bit cells of the rule index (`maxRules_lt`),
  • directions are numbered `1 … directionCount` (the engine subscripts with `direction - 1`) and the
    three named ones are all of them,
  • the container-owner accessors touch the `reserved` words of a rule and nothing else.

Every integer is a `BitVec` of the width the C type has; arrays are `Vector`s.
-/
import Mathlib.Data.BitVec

namespace RinRuntime.Firewall

-- the reserved words of rules and packets, and their bytes
scoped instance neZero_three : NeZero 3 := ⟨by decide⟩
scoped instance neZero_four : NeZero 4 := ⟨by decide⟩

/-! ## §1. Flags and status codes. -/

/-- The flags of a rule (`RIN_FIREWALL_RULE_FLAG_*`). -/
inductive RuleFlag where
  | enabled
  | matchInterface
  | matchNamespace
  | matchNamespaceIdentity
  | matchProfile
  | matchApplication
  | matchProcess
  | matchFwmark
  | unresolvedNamespace
  | orphaned
  | systemCritical
  | policyGuard
  | policyBypass
  deriving Repr, DecidableEq

/-- The flags of a packet (`RIN_FIREWALL_PACKET_FLAG_*`). -/
inductive PacketFlag where
  | fragment
  | fwmark
  | processIdentity
  | userIdentity
  | namespaceIdentity
  deriving Repr, DecidableEq

/-- The result codes of the engine (`RIN_FIREWALL_OK` and its errors). -/
inductive Status where
  | ok
  | invalidArgument
  | abiMismatch
  | malformed
  | capacity
  | duplicate
  | notFound
  | accessDenied
  | generationExhausted
  deriving Repr, DecidableEq

/-! ## §2. The constants of the SDK header. -/

/-- Constants of `rin/firewall/abi.h`, with what the engine relies on. -/
structure AbiConstants where
  maxRules : Nat
  applicationIdSize : Nat
  ruleNameMax : Nat
  ruleDescriptionMax : Nat
  ruleSetReservedSize : Nat
  directionCount : Nat
  sizeofRule : BitVec 32
  sizeofRuleSet : BitVec 32
  sizeofPacket : BitVec 32
  sizeofDecision : BitVec 32
  sizeofRuleIndex : BitVec 32
  abiVersion : BitVec 16
  ruleFlagBit : RuleFlag → Fin 16
  ruleKnownFlags : BitVec 16
  packetFlagBit : PacketFlag → Fin 16
  packetKnownFlags : BitVec 16
  actionAllow : BitVec 8
  actionDrop : BitVec 8
  actionReject : BitVec 8
  directionInput : BitVec 8
  directionOutput : BitVec 8
  directionForward : BitVec 8
  familyAny : BitVec 8
  familyIpv4 : BitVec 8
  familyIpv6 : BitVec 8
  protocolAny : BitVec 8
  protocolIcmp : BitVec 8
  protocolTcp : BitVec 8
  protocolUdp : BitVec 8
  protocolIcmpv6 : BitVec 8
  profileAny : BitVec 32
  profileTrusted : BitVec 32
  ruleClassSystem : BitVec 8
  ruleClassApplication : BitVec 8
  ruleClassContainer : BitVec 8
  systemPriorityMax : BitVec 32
  userPriorityMin : BitVec 32
  containerOwnerUnknown : BitVec 32
  stateUntracked : BitVec 32
  stateInvalid : BitVec 32
  stateKnownMask : BitVec 32
  ruleFlagBit_injective : Function.Injective ruleFlagBit
  packetFlagBit_injective : Function.Injective packetFlagBit
  maxRules_lt : maxRules < 2 ^ 16
  directionInput_pos : 1 ≤ directionInput.toNat
  directionForward_le : directionForward.toNat ≤ directionCount
  directionCount_lt : directionCount < 32
  directions_cover : ∀ i, i < directionCount →
    i = directionInput.toNat - 1 ∨ i = directionOutput.toNat - 1 ∨ i = directionForward.toNat - 1

namespace AbiConstants

/-- The constant `RIN_FIREWALL_RULE_FLAG_*` of a rule flag: one bit. -/
def ruleFlag (K : AbiConstants) (f : RuleFlag) : BitVec 16 := 1#16 <<< (K.ruleFlagBit f).val

/-- The constant `RIN_FIREWALL_PACKET_FLAG_*` of a packet flag: one bit. -/
def packetFlag (K : AbiConstants) (f : PacketFlag) : BitVec 16 := 1#16 <<< (K.packetFlagBit f).val

end AbiConstants

/-! ## §3. The records. -/

/-- `RinFirewallRuleV1`. -/
structure Rule (K : AbiConstants) where
  structSize : BitVec 32
  version : BitVec 16
  flags : BitVec 16
  id : BitVec 64
  priority : BitVec 32
  ruleClass : BitVec 8
  direction : BitVec 8
  action : BitVec 8
  family : BitVec 8
  protocol : BitVec 8
  sourcePrefixLen : BitVec 8
  destinationPrefixLen : BitVec 8
  icmpType : BitVec 8
  icmpCode : BitVec 8
  reserved0 : BitVec 32
  sourcePortFirst : BitVec 16
  sourcePortLast : BitVec 16
  destinationPortFirst : BitVec 16
  destinationPortLast : BitVec 16
  sourceAddress : Vector (BitVec 8) 16
  destinationAddress : Vector (BitVec 8) 16
  interfaceId : BitVec 32
  namespaceId : BitVec 64
  networkProfile : BitVec 32
  connectionStateMask : BitVec 32
  fwmark : BitVec 32
  fwmask : BitVec 32
  ownerUid : BitVec 32
  applicationId : Vector (BitVec 8) K.applicationIdSize
  createdAtMs : BitVec 64
  updatedAtMs : BitVec 64
  packetCount : BitVec 64
  byteCount : BitVec 64
  name : Vector (BitVec 8) K.ruleNameMax
  description : Vector (BitVec 8) K.ruleDescriptionMax
  reserved : Vector (BitVec 32) 4
  deriving DecidableEq

/-- The all-zero rule record: what `firewall_zero` leaves behind. -/
def Rule.zero (K : AbiConstants) : Rule K where
  structSize := 0
  version := 0
  flags := 0
  id := 0
  priority := 0
  ruleClass := 0
  direction := 0
  action := 0
  family := 0
  protocol := 0
  sourcePrefixLen := 0
  destinationPrefixLen := 0
  icmpType := 0
  icmpCode := 0
  reserved0 := 0
  sourcePortFirst := 0
  sourcePortLast := 0
  destinationPortFirst := 0
  destinationPortLast := 0
  sourceAddress := Vector.replicate _ 0
  destinationAddress := Vector.replicate _ 0
  interfaceId := 0
  namespaceId := 0
  networkProfile := 0
  connectionStateMask := 0
  fwmark := 0
  fwmask := 0
  ownerUid := 0
  applicationId := Vector.replicate _ 0
  createdAtMs := 0
  updatedAtMs := 0
  packetCount := 0
  byteCount := 0
  name := Vector.replicate _ 0
  description := Vector.replicate _ 0
  reserved := Vector.replicate _ 0

/-- `RinFirewallPacketV1`. -/
structure Packet (K : AbiConstants) where
  structSize : BitVec 32
  version : BitVec 16
  flags : BitVec 16
  namespaceId : BitVec 64
  direction : BitVec 8
  family : BitVec 8
  protocol : BitVec 8
  icmpType : BitVec 8
  icmpCode : BitVec 8
  extensionHeaderCount : BitVec 8
  sourcePort : BitVec 16
  destinationPort : BitVec 16
  fragmentOffset : BitVec 16
  sourceAddress : Vector (BitVec 8) 16
  destinationAddress : Vector (BitVec 8) 16
  interfaceId : BitVec 32
  networkProfile : BitVec 32
  connectionState : BitVec 32
  payloadLength : BitVec 64
  applicationId : Vector (BitVec 8) K.applicationIdSize
  namespaceIdentity : Vector (BitVec 8) 16
  reserved : Vector (BitVec 64) 3
  deriving DecidableEq

/-- `RinFirewallRuleSetV1`. The rule table is the whole array, live rules and tail. -/
structure RuleSet (K : AbiConstants) where
  structSize : BitVec 32
  version : BitVec 16
  flags : BitVec 16
  generation : BitVec 64
  enabled : BitVec 32
  ruleCount : BitVec 32
  defaultAction : Vector (BitVec 8) K.directionCount
  reserved0 : BitVec 32
  reserved : Vector (BitVec 8) K.ruleSetReservedSize
  rules : Vector (Rule K) K.maxRules
  deriving DecidableEq

/-- `RinFirewallDecisionV1`. -/
structure Decision where
  structSize : BitVec 32
  version : BitVec 16
  action : BitVec 8
  matched : BitVec 8
  status : Status
  ruleId : BitVec 64
  priority : BitVec 32
  packetCount : BitVec 64
  byteCount : BitVec 64
  deriving DecidableEq

/-- The header as a whole: its constants and its three inline accessors. -/
structure Abi extends AbiConstants where
  /-- `rin_firewall_packet_fwmark`. -/
  packetFwmark : Packet toAbiConstants → BitVec 32
  /-- `rin_firewall_container_rule_owner_id`. -/
  containerRuleOwnerId : Rule toAbiConstants → BitVec 32
  /-- `rin_firewall_container_rule_set_owner_id`: the returned flag and the updated rule. -/
  containerRuleSetOwnerId : Rule toAbiConstants → BitVec 32 → Bool × Rule toAbiConstants
  /-- The owner is read off the reserved words of the rule. -/
  containerRuleOwnerId_congr : ∀ r s : Rule toAbiConstants,
    r.reserved = s.reserved → containerRuleOwnerId r = containerRuleOwnerId s
  /-- Setting the owner writes the reserved words of the rule and nothing else. -/
  containerRuleSetOwnerId_frame : ∀ (r : Rule toAbiConstants) (owner : BitVec 32),
    (containerRuleSetOwnerId r owner).2
      = { r with reserved := (containerRuleSetOwnerId r owner).2.reserved }

/-- An ABI where its constants are meant. -/
instance : Coe Abi AbiConstants := ⟨Abi.toAbiConstants⟩

/-! ## §4. The live rules and the tail of a rule table. -/

namespace RuleSet

variable {K : AbiConstants}

/-- The rules in use: the first `rule_count` cells. -/
def active (set : RuleSet K) : List (Rule K) := set.rules.toList.take set.ruleCount.toNat

/-- The cells past `rule_count`. -/
def tail (set : RuleSet K) : List (Rule K) := set.rules.toList.drop set.ruleCount.toNat

/-- The rule in cell `i`; the engine only reads cells below `rule_count`. -/
def rule (set : RuleSet K) (i : Nat) : Rule K := set.rules.toList.getD i (Rule.zero K)

end RuleSet

/-! ## §5. A compact header. -/

/-- The bit of each rule flag in the compact header: the order of declaration. -/
def compactRuleFlagBit : RuleFlag → Fin 16
  | .enabled => 0
  | .matchInterface => 1
  | .matchNamespace => 2
  | .matchNamespaceIdentity => 3
  | .matchProfile => 4
  | .matchApplication => 5
  | .matchProcess => 6
  | .matchFwmark => 7
  | .unresolvedNamespace => 8
  | .orphaned => 9
  | .systemCritical => 10
  | .policyGuard => 11
  | .policyBypass => 12

/-- The bit of each packet flag in the compact header. -/
def compactPacketFlagBit : PacketFlag → Fin 16
  | .fragment => 0
  | .fwmark => 1
  | .processIdentity => 2
  | .userIdentity => 3
  | .namespaceIdentity => 4

/-- Constants with short tables, on which the engine can be run. -/
def compactConstants : AbiConstants where
  maxRules := 6
  applicationIdSize := 2
  ruleNameMax := 32
  ruleDescriptionMax := 4
  ruleSetReservedSize := 2
  directionCount := 3
  sizeofRule := 256
  sizeofRuleSet := 2048
  sizeofPacket := 128
  sizeofDecision := 64
  sizeofRuleIndex := 4096
  abiVersion := 1
  ruleFlagBit := compactRuleFlagBit
  ruleKnownFlags := 0x1fff
  packetFlagBit := compactPacketFlagBit
  packetKnownFlags := 0x1f
  actionAllow := 1
  actionDrop := 2
  actionReject := 3
  directionInput := 1
  directionOutput := 2
  directionForward := 3
  familyAny := 0
  familyIpv4 := 4
  familyIpv6 := 6
  protocolAny := 0
  protocolIcmp := 1
  protocolTcp := 6
  protocolUdp := 17
  protocolIcmpv6 := 58
  profileAny := 0
  profileTrusted := 3
  ruleClassSystem := 1
  ruleClassApplication := 2
  ruleClassContainer := 3
  systemPriorityMax := 99
  userPriorityMin := 100
  containerOwnerUnknown := 0
  stateUntracked := 0
  stateInvalid := 8
  stateKnownMask := 15
  ruleFlagBit_injective := by
    intro a b h
    cases a <;> cases b <;> first | rfl | exact absurd h (by decide)
  packetFlagBit_injective := by
    intro a b h
    cases a <;> cases b <;> first | rfl | exact absurd h (by decide)
  maxRules_lt := by decide
  directionInput_pos := by decide
  directionForward_le := by decide
  directionCount_lt := by decide
  directions_cover := by decide

theorem reserved_pos : 0 < 4 := by decide

/-- The compact header: the fwmark is the high half of the last reserved word of a packet, the
container owner the first reserved word of a rule. -/
def compactAbi : Abi where
  toAbiConstants := compactConstants
  packetFwmark := fun packet => (packet.reserved.get 2 >>> 32).setWidth 32
  containerRuleOwnerId := fun rule => rule.reserved.get 0
  containerRuleSetOwnerId := fun rule owner =>
    (true, { rule with reserved := rule.reserved.set 0 owner reserved_pos })
  containerRuleOwnerId_congr := by
    intro r s h
    rw [h]
  containerRuleSetOwnerId_frame := fun _ _ => rfl

end RinRuntime.Firewall

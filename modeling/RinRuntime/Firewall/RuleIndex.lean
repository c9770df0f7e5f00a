/-
Firewall.RuleIndex — the immutable policy index of `firewall_rule_index.h`.

A bucket of the C index is a counted array of 16-bit rule numbers, here the list of those in use. The three
tables of the index are

  • one bucket per (direction, family, protocol) with the rules that name no application,
  • the application table, sorted by identifier for binary search,
  • one flat vector with the rules of every application, group after group.

`ruleIndexBuild` fills them as the source does: insertion from the end, one rule at a time, in the
(priority, id) order of `rulePrecedes`.
-/
import RinRuntime.Firewall.Validate
import RinRuntime.Lib.SortedTable

namespace RinRuntime.Firewall
open Lib

/-- `firewall_rule_precedes`. -/
def rulePrecedes {K : AbiConstants} (candidate current : Rule K) : Bool :=
  decide (candidate.priority < current.priority) ||
    (candidate.priority == current.priority && decide (candidate.id < current.id))

/-! ## §1. The index record. -/

/-- `RIN_FIREWALL_RULE_INDEX_VERSION`. -/
def ruleIndexVersion : BitVec 16 := 2

/-- `RIN_FIREWALL_RULE_INDEX_FAMILY_COUNT`. -/
def ruleIndexFamilyCount : Nat := 2

/-- `RIN_FIREWALL_RULE_INDEX_PROTOCOL_COUNT`. -/
def ruleIndexProtocolCount : Nat := 5

/-- `RinFirewallRuleIndexApplicationBucketV2`: one group of the flat application vector. -/
structure ApplicationBucket (K : AbiConstants) where
  applicationId : Vector (BitVec 8) K.applicationIdSize
  firstRule : Nat
  ruleCount : Nat
  deriving DecidableEq

/-- `RinFirewallRuleIndexV2`. `application_count` and `application_rule_count` are the lengths of
the two lists. -/
structure RuleIndex (K : AbiConstants) where
  structSize : BitVec 32
  version : BitVec 16
  reserved0 : BitVec 16
  generation : BitVec 64
  ruleCount : BitVec 32
  reserved1 : BitVec 32
  activeGuardDirectionMask : BitVec 32
  applications : List (ApplicationBucket K)
  applicationRuleIndices : List Nat
  buckets : Nat → Nat → Nat → List Nat

/-- The index `firewall_zero` leaves behind when the build fails. -/
def RuleIndex.zero (K : AbiConstants) : RuleIndex K where
  structSize := 0
  version := 0
  reserved0 := 0
  generation := 0
  ruleCount := 0
  reserved1 := 0
  activeGuardDirectionMask := 0
  applications := []
  applicationRuleIndices := []
  buckets := fun _ _ _ => []

section
variable (K : AbiConstants)

/-- `firewall_rule_index_protocol`. -/
def ruleIndexProtocol (protocol : BitVec 8) : Nat :=
  if protocol = K.protocolIcmp then 0
  else if protocol = K.protocolTcp then 1
  else if protocol = K.protocolUdp then 2
  else if protocol = K.protocolIcmpv6 then 3
  else ruleIndexProtocolCount - 1

/-- `firewall_rule_index_family`. -/
def ruleIndexFamily (family : BitVec 8) : Nat :=
  if family = K.familyIpv4 then 0
  else if family = K.familyIpv6 then 1
  else ruleIndexFamilyCount

/-- The table `families` of `rin_firewall_rule_index_build`. -/
def ruleIndexFamilies : List (BitVec 8) := [K.familyIpv4, K.familyIpv6]

/-- The table `protocols` of `rin_firewall_rule_index_build`. -/
def ruleIndexProtocols : List (BitVec 8) :=
  [K.protocolIcmp, K.protocolTcp, K.protocolUdp, K.protocolIcmpv6]

end

/-! ## §2. The application table. -/

/-- `firewall_application_id_compare`. -/
def applicationIdCompare : List (BitVec 8) → List (BitVec 8) → Ordering
  | left :: lefts, right :: rights =>
      if left < right then .lt
      else if right < left then .gt
      else applicationIdCompare lefts rights
  | _, _ => .eq

section
variable {K : AbiConstants}

/-- `firewall_rule_index_application_find`: found or not, and the position. -/
def applicationFind (applications : List (ApplicationBucket K))
    (applicationId : Vector (BitVec 8) K.applicationIdSize) : Bool × Nat :=
  SortedTable.search
    (fun bucket => applicationIdCompare applicationId.toList bucket.applicationId.toList)
    applications applications.length 0 applications.length

/-- The grouping loop of `rin_firewall_rule_index_build`: one table entry per application named by
a rule. The entry's extent is filled in by `flattenApplications`. -/
def groupApplications : List (ApplicationBucket K) → List (Rule K) →
    Except Status (List (ApplicationBucket K))
  | applications, [] => .ok applications
  | applications, rule :: rest =>
      if rule.has .matchApplication = false then groupApplications applications rest
      else match applicationFind applications rule.applicationId with
        | (true, _) => groupApplications applications rest
        | (false, position) =>
            if K.maxRules ≤ applications.length then .error .capacity
            else groupApplications
              (applications.take position ++ ⟨rule.applicationId, 0, 0⟩ ::
                applications.drop position) rest

/-- Does the rule belong to the group of this application? -/
def inApplicationGroup (applicationId : Vector (BitVec 8) K.applicationIdSize) (rule : Rule K) :
    Bool :=
  rule.has .matchApplication && bytesEqual rule.applicationId.toList applicationId.toList

/-- The rule loop for one application: append the group's rules behind `firstRule`, sorted. -/
def flattenGroup (set : RuleSet K) (applicationId : Vector (BitVec 8) K.applicationIdSize)
    (firstRule : Nat) : List Nat → List Nat → List Nat
  | indices, [] => indices
  | indices, position :: rest =>
      if inApplicationGroup applicationId (set.rule position) then
        flattenGroup set applicationId firstRule
          (SortedTable.insertSorted
            (fun previous => rulePrecedes (set.rule position) (set.rule previous))
            indices firstRule (position % 2 ^ 16)) rest
      else flattenGroup set applicationId firstRule indices rest

/-- The flattening loop of `rin_firewall_rule_index_build`: the extent of every group and the flat
vector. -/
def flattenApplications (set : RuleSet K) : List (ApplicationBucket K) → List Nat →
    List (ApplicationBucket K) × List Nat
  | [], indices => ([], indices)
  | application :: rest, indices =>
      let indices' := flattenGroup set application.applicationId indices.length indices
        (List.range set.ruleCount.toNat)
      let flat := flattenApplications set rest indices'
      (⟨application.applicationId, indices.length, indices'.length - indices.length⟩ :: flat.1,
        flat.2)

/-! ## §3. The generic buckets. -/

/-- `firewall_rule_index_insert`. -/
def ruleIndexInsert (set : RuleSet K) (bucket : List Nat) (ruleIndex : Nat) :
    Except Status (List Nat) :=
  if set.ruleCount.toNat ≤ ruleIndex ∨ K.maxRules ≤ bucket.length then .error .malformed
  else .ok (SortedTable.insertSorted
    (fun previous => rulePrecedes (set.rule ruleIndex) (set.rule previous)) bucket 0 ruleIndex)

/-- The (family, protocol) cells the two inner loops of the build visit for a rule. -/
def rulePlaces (rule : Rule K) : List (Nat × Nat) :=
  let protocolFirst := if rule.protocol = K.protocolAny then 0 else ruleIndexProtocol K rule.protocol
  let protocolEnd :=
    if rule.protocol = K.protocolAny then ruleIndexProtocolCount
    else ruleIndexProtocol K rule.protocol + 1
  ((List.range ruleIndexFamilyCount).filter fun familyIndex =>
      !(rule.family != K.familyAny && rule.family != (ruleIndexFamilies K).getD familyIndex 0)).flatMap
    fun familyIndex =>
      ((List.range' protocolFirst (protocolEnd - protocolFirst)).filter fun protocolIndex =>
          !(decide (protocolIndex < ruleIndexProtocolCount - 1) &&
            rule.protocol != K.protocolAny &&
            rule.protocol != (ruleIndexProtocols K).getD protocolIndex 0)).map
        fun protocolIndex => (familyIndex, protocolIndex)

/-- Insert one rule into the cells of its direction. -/
def insertAtPlaces (set : RuleSet K) (ruleIndex : Nat) :
    (Nat → Nat → Nat → List Nat) → List (Nat × Nat) → Except Status (Nat → Nat → Nat → List Nat)
  | buckets, [] => .ok buckets
  | buckets, (familyIndex, protocolIndex) :: rest => do
      let directionIndex := (set.rule ruleIndex).direction.toNat - 1
      let bucket ← ruleIndexInsert set (buckets directionIndex familyIndex protocolIndex)
        (ruleIndex % 2 ^ 16)
      insertAtPlaces set ruleIndex
        (fun d f p =>
          if d = directionIndex ∧ f = familyIndex ∧ p = protocolIndex then bucket
          else buckets d f p) rest

/-- The bucket loop of `rin_firewall_rule_index_build`. -/
def fillBuckets (set : RuleSet K) :
    (Nat → Nat → Nat → List Nat) → List Nat → Except Status (Nat → Nat → Nat → List Nat)
  | buckets, [] => .ok buckets
  | buckets, ruleIndex :: rest =>
      if (set.rule ruleIndex).has .matchApplication then fillBuckets set buckets rest
      else do
        let buckets' ← insertAtPlaces set ruleIndex buckets (rulePlaces (set.rule ruleIndex))
        fillBuckets set buckets' rest

end

/-! ## §4. The build. -/
section
variable (A : Abi)

/-- The guard loop: the directions that have an enabled policy guard. -/
def activeGuardMask (rules : List (Rule A)) : BitVec 32 :=
  rules.foldl (fun mask rule =>
    if rule.flags &&& (A.ruleFlag .enabled ||| A.ruleFlag .policyGuard)
        = (A.ruleFlag .enabled ||| A.ruleFlag .policyGuard) then
      mask ||| (1#32 <<< (rule.direction.toNat - 1))
    else mask) 0

/-- `rin_firewall_rule_index_build`. -/
def ruleIndexBuild (set : RuleSet A) : Status × RuleIndex A :=
  if ruleSetValidate A set ≠ .ok then (ruleSetValidate A set, RuleIndex.zero _)
  else match groupApplications [] set.active with
    | .error status => (status, RuleIndex.zero _)
    | .ok groups =>
        let flat := flattenApplications set groups []
        match fillBuckets set (fun _ _ _ => []) (List.range set.ruleCount.toNat) with
        | .error status => (status, RuleIndex.zero _)
        | .ok buckets => (.ok,
            { structSize := A.sizeofRuleIndex
              version := ruleIndexVersion
              reserved0 := 0
              generation := set.generation
              ruleCount := set.ruleCount
              reserved1 := 0
              activeGuardDirectionMask := activeGuardMask A set.active
              applications := flat.1
              applicationRuleIndices := flat.2
              buckets := buckets })

/-- `firewall_rule_index_header_valid`. -/
def ruleIndexHeaderValid (set : RuleSet A) (index : RuleIndex A) :
    Prop :=
  set.structSize = A.sizeofRuleSet ∧ set.version = A.abiVersion ∧
    set.ruleCount.toNat ≤ A.maxRules ∧ set.enabled ≤ 1 ∧
    index.structSize = A.sizeofRuleIndex ∧ index.version = ruleIndexVersion ∧
    index.reserved0 = 0 ∧ index.reserved1 = 0 ∧
    index.activeGuardDirectionMask &&& ~~~((1#32 <<< A.directionCount) - 1) = 0 ∧
    index.generation = set.generation ∧ index.ruleCount = set.ruleCount ∧
    index.applications.length ≤ A.maxRules ∧
    index.applicationRuleIndices.length ≤ set.ruleCount.toNat ∧
    ∀ action ∈ set.defaultAction.toList, actionValid A action = true

instance (set : RuleSet A) (index : RuleIndex A) :
    Decidable (ruleIndexHeaderValid A set index) := by
  unfold ruleIndexHeaderValid
  haveI := List.decidableBAll (fun action => actionValid A action = true) set.defaultAction.toList
  infer_instance

/-- `firewall_rule_index_valid_for_packet`: the two candidate lists of the packet, generic rules and
application rules, or `none` when the index does not fit the set. -/
def ruleIndexCandidates (set : RuleSet A) (index : RuleIndex A)
    (packet : Packet A) : Option (List Nat × List Nat) :=
  let familyIndex := ruleIndexFamily A packet.family
  let protocolIndex := ruleIndexProtocol A packet.protocol
  if ruleIndexFamilyCount ≤ familyIndex ∨ ruleIndexProtocolCount ≤ protocolIndex then none
  else
    let bucket := index.buckets (packet.direction.toNat - 1) familyIndex protocolIndex
    if set.ruleCount.toNat < bucket.length then none
    else
      let application : Option (ApplicationBucket A) :=
        if bytesZero packet.applicationId.toList then none
        else match applicationFind index.applications packet.applicationId with
          | (true, position) => index.applications[position]?
          | (false, _) => none
      match application with
      | none => some (bucket, [])
      | some group =>
          if index.applicationRuleIndices.length < group.firstRule ∨
              index.applicationRuleIndices.length - group.firstRule < group.ruleCount then none
          else if set.ruleCount.toNat < bucket.length + group.ruleCount then none
          else some (bucket,
            (index.applicationRuleIndices.drop group.firstRule).take group.ruleCount)

end
end RinRuntime.Firewall

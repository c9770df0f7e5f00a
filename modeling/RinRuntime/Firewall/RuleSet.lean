/-
Firewall.RuleSet — the operations that change a rule set.

`ruleSetAdd`, `ruleSetUpdate`, `ruleSetRemove` (`src/firewall/rule_engine.c`) and the two namespace
policy helpers (`src/firewall/namespace_policy.c`). Each takes the set by value and returns the
status with the set as the call leaves it; a pointer argument that may be NULL is an `Option`.
-/
import RinRuntime.Firewall.Validate

namespace RinRuntime.Firewall

variable (A : Abi)

/-- `UINT64_MAX - 1`: the last generation an operation may start from is below it. -/
def generationLimit : BitVec 64 := 0xfffffffffffffffe

/-! ## §1. Add, update, remove. -/

/-- A rule with its identity, its texts, its times and its counters blanked. -/
def Rule.policy {K : AbiConstants} (rule : Rule K) : Rule K :=
  { rule with
    id := 0
    name := Vector.replicate _ 0
    description := Vector.replicate _ 0
    createdAtMs := 0
    updatedAtMs := 0
    packetCount := 0
    byteCount := 0 }

/-- `firewall_rule_policy_equal`. -/
def rulePolicyEqual {K : AbiConstants} (left right : Rule K) : Bool := left.policy == right.policy

/-- `rin_firewall_rule_set_add`. -/
def ruleSetAdd (set : RuleSet A) (rule? : Option (Rule A)) :
    Status × RuleSet A :=
  match rule? with
  | none => (.invalidArgument, set)
  | some rule =>
      if ruleSetValidate A set ≠ .ok then (ruleSetValidate A set, set)
      else if ruleValidate A rule ≠ .ok then (ruleValidate A rule, set)
      else if set.ruleCount.toNat = A.maxRules then (.capacity, set)
      else if ∃ other ∈ set.active, other.id = rule.id ∨ rulePolicyEqual other rule then
        (.duplicate, set)
      else if generationLimit ≤ set.generation then (.generationExhausted, set)
      else (.ok, { set with
        rules := set.rules.setIfInBounds set.ruleCount.toNat rule
        ruleCount := set.ruleCount + 1
        generation := set.generation + 1 })

/-- `rin_firewall_rule_set_update`. -/
def ruleSetUpdate (set : RuleSet A) (ruleId : BitVec 64)
    (rule? : Option (Rule A)) : Status × RuleSet A :=
  match rule? with
  | none => (.invalidArgument, set)
  | some rule =>
      if ruleId = 0 then (.invalidArgument, set)
      else if ruleSetValidate A set ≠ .ok then (ruleSetValidate A set, set)
      else if rule.id ≠ ruleId then (.malformed, set)
      else if ruleValidate A rule ≠ .ok then (ruleValidate A rule, set)
      else if generationLimit ≤ set.generation then (.generationExhausted, set)
      else match set.active.findIdx? (fun other => other.id == ruleId) with
        | none => (.notFound, set)
        | some index => (.ok, { set with
            rules := set.rules.setIfInBounds index rule
            generation := set.generation + 1 })

/-- The table after `rin_firewall_rule_set_remove` dropped cell `index`: the rules behind it move
down one cell and the last used cell is zeroed. -/
def removeRuleAt {K : AbiConstants} (rules : Vector (Rule K) K.maxRules) (count index : Nat) :
    Vector (Rule K) K.maxRules :=
  Vector.ofFn fun cell =>
    if cell.val < index then rules.get cell
    else if cell.val + 1 < count then rules.toList.getD (cell.val + 1) (Rule.zero K)
    else if cell.val + 1 = count then Rule.zero K
    else rules.get cell

/-- `rin_firewall_rule_set_remove`. -/
def ruleSetRemove (set : RuleSet A) (ruleId : BitVec 64) :
    Status × RuleSet A :=
  if ruleId = 0 then (.invalidArgument, set)
  else if ruleSetValidate A set ≠ .ok then (ruleSetValidate A set, set)
  else if generationLimit ≤ set.generation then (.generationExhausted, set)
  else match set.active.findIdx? (fun other => other.id == ruleId) with
    | none => (.notFound, set)
    | some index => (.ok, { set with
        rules := removeRuleAt set.rules set.ruleCount.toNat index
        ruleCount := set.ruleCount - 1
        generation := set.generation + 1 })

/-! ## §2. Namespace policy. -/

/-- The text `"ns-default"` at the head of a name buffer. -/
def namespacePolicyName : List (BitVec 8) :=
  [0x6e, 0x73, 0x2d, 0x64, 0x65, 0x66, 0x61, 0x75, 0x6c, 0x74]

/-- The rule `rin_firewall_namespace_policy_set_default_action` fills in before the owner is set. -/
def namespacePolicyRule (namespaceId : BitVec 64) (direction action : BitVec 8)
    (ruleId : BitVec 64) : Rule A :=
  { Rule.zero A with
    structSize := A.sizeofRule
    version := A.abiVersion
    flags := namespacePolicyRequiredFlags A
    id := ruleId
    priority := namespacePolicyDefaultPriority
    ruleClass := A.ruleClassContainer
    direction := direction
    action := action
    family := A.familyAny
    protocol := A.protocolAny
    namespaceId := namespaceId
    networkProfile := A.profileAny
    name := Vector.ofFn fun i => namespacePolicyName.getD i.val 0 }

/-- Is this rule the namespace default of `namespaceId`? -/
def isNamespaceDefault (namespaceId : BitVec 64) (rule : Rule A) : Bool :=
  namespacePolicyDefaultRuleValid A rule && rule.namespaceId == namespaceId

/-- The free-identifier scan of `rin_firewall_namespace_policy_set_default_action`: the first slot
of the reserved range no rule of the set uses. -/
def freeRuleIdSlot (set : RuleSet A) : Option Nat :=
  (List.range A.maxRules).find? fun slot =>
    !set.active.any (fun rule => rule.id == namespacePolicyRuleIdBase + BitVec.ofNat 64 slot)

/-- `rin_firewall_namespace_policy_set_default_action`. -/
def namespacePolicySetDefaultAction (set : RuleSet A) (namespaceId : BitVec 64)
    (ownerId : BitVec 32) (direction action : BitVec 8) : Status × RuleSet A :=
  if namespaceId ≤ namespacePolicyHostId ∨
      ownerId = A.containerOwnerUnknown ∨
      direction < A.directionInput ∨
      A.directionForward < direction ∨
      actionValid A action = false then (.invalidArgument, set)
  else if ruleSetValidate A set ≠ .ok then (ruleSetValidate A set, set)
  else match set.active.findIdx? (fun rule =>
      isNamespaceDefault A namespaceId rule && rule.direction == direction) with
    | some index =>
        let current := set.rule index
        if A.containerRuleOwnerId current ≠ ownerId then (.accessDenied, set)
        else if current.action = action then (.ok, set)
        else if generationLimit ≤ set.generation then (.generationExhausted, set)
        else (.ok, { set with
          rules := set.rules.setIfInBounds index { current with action := action }
          generation := set.generation + 1 })
    | none =>
        if A.maxRules ≤ set.ruleCount.toNat then (.capacity, set)
        else match freeRuleIdSlot A set with
          | none => (.capacity, set)
          | some slot =>
              let rule := namespacePolicyRule A namespaceId direction action
                (namespacePolicyRuleIdBase + BitVec.ofNat 64 slot)
              match A.containerRuleSetOwnerId rule ownerId with
              | (false, _) => (.invalidArgument, set)
              | (true, owned) => ruleSetAdd A set (some owned)

/-- The scan of `rin_firewall_namespace_policy_remove_defaults`: the identifiers of the namespace's
default guards in table order, or the status the scan stops with. -/
def collectNamespaceDefaults (namespaceId : BitVec 64) (ownerId : BitVec 32) :
    List (BitVec 64) → List (Rule A) → Except Status (List (BitVec 64))
  | ruleIds, [] => .ok ruleIds
  | ruleIds, rule :: rest =>
      if isNamespaceDefault A namespaceId rule = false then
        collectNamespaceDefaults namespaceId ownerId ruleIds rest
      else if A.containerRuleOwnerId rule ≠ ownerId then .error .accessDenied
      else if A.directionCount ≤ ruleIds.length then .error .malformed
      else collectNamespaceDefaults namespaceId ownerId (ruleIds ++ [rule.id]) rest

/-- The removal loop: stops at the first removal that fails. -/
def removeRules : RuleSet A → List (BitVec 64) →
    Status × RuleSet A
  | set, [] => (.ok, set)
  | set, ruleId :: rest =>
      match ruleSetRemove A set ruleId with
      | (.ok, set') => removeRules set' rest
      | (status, set') => (status, set')

/-- `rin_firewall_namespace_policy_remove_defaults`. -/
def namespacePolicyRemoveDefaults (set : RuleSet A) (namespaceId : BitVec 64)
    (ownerId : BitVec 32) : Status × RuleSet A :=
  if namespaceId ≤ namespacePolicyHostId ∨ ownerId = A.containerOwnerUnknown then
    (.invalidArgument, set)
  else if ruleSetValidate A set ≠ .ok then (ruleSetValidate A set, set)
  else match collectNamespaceDefaults A namespaceId ownerId [] set.active with
    | .error status => (status, set)
    | .ok ruleIds =>
        if ruleIds.length = 0 then (.notFound, set)
        else if generationLimit - set.generation < BitVec.ofNat 64 ruleIds.length then
          (.generationExhausted, set)
        else removeRules A set ruleIds

end RinRuntime.Firewall

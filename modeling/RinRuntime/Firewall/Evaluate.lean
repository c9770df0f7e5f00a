/-
Firewall.Evaluate — packet evaluation (`firewall_evaluate_internal`).

One function serves both entry points of the source. Without an index it scans the table in array order and
keeps, for each of the four kinds of rule, the best match so far; with an index it merges the two sorted
candidate lists and keeps the FIRST match of each kind. The table scan takes the early exit of the source:
stop once every kind has a match.
-/
import RinRuntime.Firewall.RuleIndex

namespace RinRuntime.Firewall

/-! ## §1. Matching. -/
section
variable (A : Abi)

/-- `firewall_rule_matches`. -/
def ruleMatches (rule : Rule A) (packet : Packet A) : Bool :=
  if packet.namespaceId ≠ namespacePolicyHostId ∧
      rule.ruleClass ≠ A.ruleClassSystem ∧
      rule.flags &&& (A.ruleFlag .matchNamespace ||| A.ruleFlag .matchNamespaceIdentity) = 0 then
    false
  else if rule.flags &&& (A.ruleFlag .enabled ||| A.ruleFlag .unresolvedNamespace)
        ≠ A.ruleFlag .enabled ∨
      rule.direction ≠ packet.direction ∨
      (rule.family ≠ A.familyAny ∧ rule.family ≠ packet.family) ∨
      (rule.protocol ≠ A.protocolAny ∧ rule.protocol ≠ packet.protocol) then false
  else if rule.sourcePrefixLen ≠ 0 ∧
      prefixMatch packet.sourceAddress rule.sourceAddress rule.sourcePrefixLen = false then false
  else if rule.destinationPrefixLen ≠ 0 ∧
      prefixMatch packet.destinationAddress rule.destinationAddress rule.destinationPrefixLen
        = false then false
  else if rule.has .matchInterface ∧ rule.interfaceId ≠ packet.interfaceId then false
  else if rule.has .matchNamespace ∧ rule.namespaceId ≠ packet.namespaceId then false
  else if rule.has .matchNamespaceIdentity ∧
      (packet.has .namespaceIdentity = false ∨
        bytesEqual rule.reservedBytes packet.namespaceIdentity.toList = false) then false
  else if rule.has .matchProfile ∧ rule.networkProfile ≠ packet.networkProfile then false
  else if rule.has .matchFwmark ∧ A.packetFwmark packet &&& rule.fwmask ≠ rule.fwmark then false
  else if rule.has .matchApplication ∧
      bytesEqual rule.applicationId.toList packet.applicationId.toList = false then false
  else if rule.has .matchProcess ∧ packet.has .processIdentity = false then false
  else if rule.has .matchProcess ∧
      (ruleProcessId rule ≠ packet.reserved.get 0 ∨
        ruleProcessCookie rule ≠ packet.reserved.get 1) then false
  else if rule.ownerUid ≠ 0 ∧
      (packet.has .userIdentity = false ∨
        (packet.reserved.get 2).setWidth 32 ≠ rule.ownerUid) then false
  else if rule.connectionStateMask ≠ 0 ∧
      rule.connectionStateMask &&& packet.connectionState = 0 then false
  else if (packet.protocol = A.protocolTcp ∨ packet.protocol = A.protocolUdp) ∧
      ((rule.sourcePortFirst ≠ 0 ∧
          (packet.sourcePort < rule.sourcePortFirst ∨ rule.sourcePortLast < packet.sourcePort)) ∨
        (rule.destinationPortFirst ≠ 0 ∧
          (packet.destinationPort < rule.destinationPortFirst ∨
            rule.destinationPortLast < packet.destinationPort))) then false
  else if (packet.protocol = A.protocolIcmp ∨ packet.protocol = A.protocolIcmpv6) ∧
      ((rule.icmpType ≠ 0xff ∧ rule.icmpType ≠ packet.icmpType) ∨
        (rule.icmpCode ≠ 0xff ∧ rule.icmpCode ≠ packet.icmpCode)) then false
  else true

/-! ## §2. Selection. -/

/-- The four kinds of rule the evaluation keeps a winner for. -/
inductive RuleKind where
  | bypass
  | system
  | guard
  | regular
  deriving Repr, DecidableEq

variable {A}

/-- Which of the four winners a rule competes for. -/
def ruleKind (rule : Rule A) : RuleKind :=
  if rule.ruleClass = A.ruleClassSystem ∧ rule.has .policyBypass then .bypass
  else if rule.ruleClass = A.ruleClassSystem then .system
  else if rule.has .policyGuard then .guard
  else .regular

/-- The four `best_*` variables; `none` is the sentinel `RIN_FIREWALL_MAX_RULES`. -/
abbrev Selection := RuleKind → Option Nat

/-- All four kinds have a winner. -/
abbrev Selection.full (sel : Selection) : Bool :=
  (sel .bypass).isSome && (sel .system).isSome && (sel .guard).isSome && (sel .regular).isSome

/-- Offer a matching candidate to the winner of its kind. With an index the candidates arrive in
order, so a later one never replaces an earlier one. -/
def offer (set : RuleSet A) (indexed : Bool) (sel : Selection) (candidate : Nat) :
    Selection :=
  let kind := ruleKind (set.rule candidate)
  match sel kind with
  | none => Function.update sel kind (some candidate)
  | some current =>
      if !indexed && rulePrecedes (set.rule candidate) (set.rule current) then
        Function.update sel kind (some candidate)
      else sel

/-- The candidate loop without an index: array order, with the early exit. -/
def selectLinear (set : RuleSet A) (packet : Packet A) :
    Selection → List Nat → Selection
  | sel, [] => sel
  | sel, candidate :: rest =>
      if ruleMatches A (set.rule candidate) packet = false then selectLinear set packet sel rest
      else
        let sel' := offer set false sel candidate
        if sel'.full then sel' else selectLinear set packet sel' rest

/-- A candidate read from a sorted list of the index is checked before use: in range, and after the
previous one. -/
def candidateInOrder (set : RuleSet A) (previous : Option Nat)
    (candidate : Option Nat) : Bool :=
  match candidate with
  | none => true
  | some i => decide (i < set.ruleCount.toNat) &&
      match previous with
      | none => true
      | some j => rulePrecedes (set.rule j) (set.rule i)

/-- Consider one candidate of the index. -/
def considerIndexed (set : RuleSet A) (packet : Packet A)
    (sel : Selection) (candidate : Nat) : Selection :=
  if ruleMatches A (set.rule candidate) packet then offer set true sel candidate else sel

/-- The candidate loop with an index: merge the generic and the application list. The lists are
what is left behind the two cursors; `none` is the `MALFORMED` exit. -/
def selectIndexed (set : RuleSet A) (packet : Packet A) :
    Nat → List Nat → List Nat → Option Nat → Option Nat → Selection → Option Selection
  | 0, _, _, _, _, sel => some sel
  | iterations + 1, generic, application, genericPrevious, applicationPrevious, sel =>
      if candidateInOrder set genericPrevious generic.head? = false then none
      else if candidateInOrder set applicationPrevious application.head? = false then none
      else match generic, application with
        | [], [] => some sel
        | [], a :: application' =>
            selectIndexed set packet iterations [] application' genericPrevious (some a)
              (considerIndexed set packet sel a)
        | g :: generic', [] =>
            selectIndexed set packet iterations generic' [] (some g) applicationPrevious
              (considerIndexed set packet sel g)
        | g :: generic', a :: application' =>
            if rulePrecedes (set.rule g) (set.rule a) then
              selectIndexed set packet iterations generic' (a :: application') (some g)
                applicationPrevious (considerIndexed set packet sel g)
            else
              selectIndexed set packet iterations (g :: generic') application' genericPrevious
                (some a) (considerIndexed set packet sel a)

/-! ## §3. The decision. -/

variable (A)

/-- `firewall_decision_init`. -/
def decisionInit : Decision where
  structSize := A.sizeofDecision
  version := A.abiVersion
  action := A.actionDrop
  matched := 0
  status := .ok
  ruleId := 0
  priority := 0
  packetCount := 0
  byteCount := 0

/-- `firewall_counter_add`: saturating. -/
def counterAdd (counter value : BitVec 64) : BitVec 64 :=
  if BitVec.allOnes 64 - counter < value then BitVec.allOnes 64 else counter + value

/-- A rule that has just decided `packet`, with its counters updated. -/
def countPacket {K : AbiConstants} (rule : Rule K) (packet : Packet K) : Rule K :=
  { rule with
    packetCount :=
      if rule.packetCount ≠ BitVec.allOnes 64 then rule.packetCount + 1 else rule.packetCount
    byteCount := counterAdd rule.byteCount packet.payloadLength }

/-- The winner among the four: `none` when the disabled firewall lets the packet pass, otherwise the
deciding rule, if any. -/
def decidingRule (set : RuleSet A) (sel : Selection) : Option (Option Nat) :=
  let guardDenies := match sel .guard with
    | none => false
    | some i => (set.rule i).action != A.actionAllow
  if set.enabled ≠ 0 ∧ (sel .bypass).isSome then some (sel .bypass)
  else if guardDenies then some (sel .guard)
  else if set.enabled ≠ 0 ∧ (sel .system).isSome then some (sel .system)
  else if set.enabled = 0 then none
  else if (sel .regular).isSome then some (sel .regular)
  else if (sel .guard).isSome then some (sel .guard)
  else some none

/-- The tail of `firewall_evaluate_internal`: write the decision, count the packet. -/
def conclude (set : RuleSet A) (packet : Packet A)
    (updateCounters : Bool) (sel : Selection) :
    Status × Decision × RuleSet A × Option Nat :=
  match decidingRule A set sel with
  | none => (.ok, { decisionInit A with action := A.actionAllow }, set, none)
  | some none =>
      (.ok, { decisionInit A with
        action := if packet.namespaceId = namespacePolicyHostId then
            set.defaultAction.toList.getD (packet.direction.toNat - 1) 0
          else A.actionDrop }, set, none)
  | some (some best) =>
      let rule := set.rule best
      let decision : Decision := { decisionInit A with
        action := rule.action
        matched := 1
        ruleId := rule.id
        priority := rule.priority }
      if updateCounters then
        let counted := countPacket rule packet
        (.ok, { decision with
          packetCount := counted.packetCount
          byteCount := counted.byteCount },
          { set with rules := set.rules.setIfInBounds best counted }, some best)
      else (.ok, decision, set, some best)

/-- The decision record of a failed call. -/
def failed (status : Status) (set : RuleSet A) :
    Status × Decision × RuleSet A × Option Nat :=
  (status, { decisionInit A with status := status }, set, none)

/-- `firewall_evaluate_internal` with a decision record to write to. -/
def evaluateInternal (set : RuleSet A)
    (ruleIndex : Option (RuleIndex A)) (packet? : Option (Packet A))
    (updateCounters : Bool) : Status × Decision × RuleSet A × Option Nat :=
  match packet? with
  | none => failed A .invalidArgument set
  | some packet =>
      if packetValidate A packet ≠ .ok then failed A (packetValidate A packet) set
      else match ruleIndex with
        | none =>
            if ruleSetValidate A set ≠ .ok then failed A (ruleSetValidate A set) set
            else conclude A set packet updateCounters
              (selectLinear set packet (fun _ => none) (List.range set.ruleCount.toNat))
        | some index =>
            if ¬ ruleIndexHeaderValid A set index then failed A .malformed set
            else if set.enabled = 0 ∧
                index.activeGuardDirectionMask &&& (1#32 <<< (packet.direction.toNat - 1)) = 0 then
              (.ok, { decisionInit A with action := A.actionAllow }, set, none)
            else match ruleIndexCandidates A set index packet with
              | none => failed A .malformed set
              | some (generic, application) =>
                  match selectIndexed set packet (generic.length + application.length) generic
                      application none none (fun _ => none) with
                  | none => failed A .malformed set
                  | some sel => conclude A set packet updateCounters sel

/-- `rin_firewall_evaluate`. `decision` says whether a decision record was passed. -/
def evaluate (set : RuleSet A) (packet? : Option (Packet A))
    (decision : Bool) : Status × Option Decision × RuleSet A :=
  if decision = false then (.invalidArgument, none, set)
  else
    let result := evaluateInternal A set none packet? true
    (result.1, some result.2.1, result.2.2.1)

/-- `rin_firewall_evaluate_indexed`. -/
def evaluateIndexed (set : RuleSet A)
    (index? : Option (RuleIndex A)) (packet? : Option (Packet A))
    (decision : Bool) : Status × Option Decision × RuleSet A :=
  if decision = false then (.invalidArgument, none, set)
  else match index? with
    | none =>
        (.invalidArgument, some { decisionInit A with status := .invalidArgument }, set)
    | some index =>
        let result := evaluateInternal A set (some index) packet? true
        (result.1, some result.2.1, result.2.2.1)

end
end RinRuntime.Firewall

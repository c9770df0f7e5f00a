/-
Dhcpv6.Bindings — the DHCPv6 client of several addresses.

`RinDhcpv6ClientV2` keeps a list of bindings beside the client of one address, its exchange. The exchange
prepares a message, whose association is then rewritten with every live binding; an answer is parsed for
the bindings, and the exchange is fed a copy of it with one address of thirty days.

The list is the used part of the array. Pointer arguments are modelled as for the client of one address.
-/
import RinRuntime.Dhcpv6.Client

namespace RinRuntime.Dhcpv6
open Lib.Tlv

/-! ## §1. The record. -/

/-- `RinDhcpv6AddressBindingV2`. -/
structure Binding where
  address : Address
  reserved : Nat
  reservedAlignment : Nat
  preferredUntilMs : Nat
  validUntilMs : Nat
  generation : Nat
  deriving DecidableEq

/-- `RIN_DHCPV6_CLIENT_V2_VERSION`. -/
def clientV2Version : Nat := 2

/-- `sizeof(RinDhcpv6ClientV2)`. -/
def clientV2Size : Nat := 1056

/-- `RinDhcpv6ClientV2`. -/
structure ClientV2 where
  version : Nat
  structSize : Nat
  exchange : Client
  reserved : Nat
  nextAddressGeneration : Nat
  addresses : List Binding
  deriving DecidableEq

/-- The checks of `rin_dhcpv6_client_v2_state_valid` on a binding. -/
def Binding.Valid (binding : Binding) (nextAddressGeneration : Nat) : Prop :=
  addressUsable binding.address = true ∧ binding.reserved = 0 ∧ binding.reservedAlignment = 0 ∧
  binding.generation ≠ 0 ∧ binding.preferredUntilMs ≤ binding.validUntilMs ∧
  binding.generation < nextAddressGeneration

/-- The states in which bindings are kept. -/
def stateKeepsBindings (state : State) : Bool :=
  stateHasLease state || state = .advertised || state = .requesting

/-- The checks of `rin_dhcpv6_client_v2_state_valid` beside that of the exchange. -/
@[mk_iff] structure ClientV2.Bound (v : ClientV2) : Prop where
  version : v.version = clientV2Version
  structSize : v.structSize = clientV2Size
  reserved : v.reserved = 0
  count : v.addresses.length ≤ maxIaAddresses
  nextAddressGeneration : v.nextAddressGeneration ≠ 0
  bindings : ∀ binding ∈ v.addresses, binding.Valid v.nextAddressGeneration
  distinct : (v.addresses.map Binding.address).Nodup
  state : v.addresses ≠ [] → stateKeepsBindings v.exchange.state = true

/-- `rin_dhcpv6_client_v2_state_valid`. -/
@[mk_iff] structure ClientV2.Valid (v : ClientV2) : Prop extends ClientV2.Bound v where
  exchange : v.exchange.Valid

instance (binding : Binding) (nextAddressGeneration : Nat) :
    Decidable (binding.Valid nextAddressGeneration) := by
  unfold Binding.Valid; infer_instance

instance (v : ClientV2) : Decidable v.Bound := decidable_of_iff _ v.bound_iff.symm
instance (v : ClientV2) : Decidable v.Valid := decidable_of_iff _ v.valid_iff.symm

/-- `rin_dhcpv6_client_v2_init`. -/
def initV2 (duid : Option (List UInt8)) (iaid interfaceGeneration : Nat) : Option ClientV2 :=
  (init duid iaid interfaceGeneration).map fun exchange =>
    { version := clientV2Version
      structSize := clientV2Size
      exchange := exchange
      reserved := 0
      nextAddressGeneration := 1
      addresses := [] }

/-! ## §2. Calls handed to the exchange. -/

/-- A call that only the exchange takes part in. -/
def ClientV2.onExchange (v : ClientV2) (call : Client → Status × Client) : Status × ClientV2 :=
  if ¬ v.Valid then (.invalidArgument, v)
  else ((call v.exchange).1, { v with exchange := (call v.exchange).2 })

/-- `rin_dhcpv6_client_v2_set_mode`. -/
def ClientV2.setMode (v : ClientV2) (mode : Nat) : Status × ClientV2 := v.onExchange (·.setMode mode)

/-- `rin_dhcpv6_client_v2_request_reconfigure`. -/
def ClientV2.requestReconfigure (v : ClientV2) (requested nowMs : Nat) : Status × ClientV2 :=
  v.onExchange (·.requestReconfigure requested nowMs)

/-- `rin_dhcpv6_client_v2_complete_transmit`. -/
def ClientV2.completeTransmit (v : ClientV2) (transmit : Option Transmit) (sentSuccessfully : Int) :
    Status × ClientV2 :=
  v.onExchange (·.completeTransmit transmit sentSuccessfully)

/-- `rin_dhcpv6_client_v2_stop`. -/
def ClientV2.stop (v : ClientV2) : Status × ClientV2 :=
  if ¬ v.Valid then (.invalidArgument, v)
  else if v.exchange.stop.1 = .ok then (.ok, { v with exchange := v.exchange.stop.2, addresses := [] })
  else (v.exchange.stop.1, { v with exchange := v.exchange.stop.2 })

/-! ## §3. Preparing. -/

/-- `client_v2_remaining_seconds`. -/
def remainingSeconds (deadline nowMs : Nat) : Nat :=
  if deadline ≤ nowMs then 0
  else
    let seconds := (deadline - nowMs) / 1000
    let seconds := if (deadline - nowMs) % 1000 ≠ 0 then seconds + 1 else seconds
    if maxUInt32 < seconds then maxUInt32 else seconds

/-- The option of a binding in the association of a message. -/
def Binding.option (binding : Binding) (nowMs : Nat) : Item :=
  (optionIaAddress, binding.address.toList ++ store32 (remainingSeconds binding.preferredUntilMs nowMs) ++
    store32 (remainingSeconds binding.validUntilMs nowMs))

/-- An option of `client_v2_rewrite_renew_ia`, which is copied but for the association. -/
def renewOption (addresses : List Binding) (nowMs : Nat) (state : Bool × List UInt8) (code : Nat)
    (value : List UInt8) : Except Status (Bool × List UInt8) :=
  let (found, output) := state
  if code ≠ optionIaNa then
    let option := Item.encode (code, value)
    if maxMessageSize - output.length < option.length then .error .rangeExhausted
    else .ok (found, output ++ option)
  else if found = true ∨ value.length < 12 then .error .invalidState
  else
    let live := addresses.filter fun binding => nowMs < binding.validUntilMs
    let payload := value.take 12 ++ encode (live.map (·.option nowMs))
    if 0xffff < payload.length ∨ maxMessageSize - output.length < payload.length + 4 then
      .error .rangeExhausted
    else .ok (true, output ++ Item.encode (optionIaNa, payload))

/-- `client_v2_rewrite_renew_ia`: the message with every live binding. -/
def rewriteRenewIa (addresses : List Binding) (nowMs : Nat) (kind : TransmitKind) (message : List UInt8) :
    Except Status (List UInt8) :=
  if kind ≠ .request ∧ kind ≠ .renew ∧ kind ≠ .rebind then .ok message
  else if message.length < 4 ∨ maxMessageSize < message.length then .error .invalidState
  else
    match each .invalidState (renewOption addresses nowMs) message.length (false, message.take 4)
      (message.drop 4) with
    | .error status => .error status
    | .ok (found, output) =>
        if found = false then .error .invalidState
        else if maxMessageSize < output.length then .error .rangeExhausted
        else .ok output

/-- What `rin_dhcpv6_client_v2_prepare` returns and writes. -/
structure PreparedV2 where
  status : Status
  client : ClientV2
  transmit : Transmit

/-- `rin_dhcpv6_client_v2_prepare`; the output of a refused call stands for whatever it held before. -/
def ClientV2.prepare (v : ClientV2) (newTransactionId nowMs : Nat) (output : Bool) : PreparedV2 :=
  if ¬ v.Valid then ⟨.invalidArgument, v, .zero⟩
  else
    let prepared := v.exchange.prepare newTransactionId nowMs output
    if prepared.status ≠ .packetReady then
      ⟨prepared.status, { v with exchange := prepared.client }, prepared.transmit⟩
    else
      match rewriteRenewIa v.addresses nowMs prepared.transmit.kind prepared.transmit.message with
      | .ok message =>
          { status := .packetReady
            client := { v with exchange := { prepared.client with
              pending := { prepared.client.pending with message := message } } }
            transmit := { prepared.transmit with message := message } }
      | .error status =>
          -- the message cannot be kept without its bindings
          { status := status
            client := { v with exchange := (prepared.client.completeTransmit (some prepared.transmit) 0).2 }
            transmit := .zero }

/-! ## §4. Receiving. -/

/-- The bindings an answer starts from: a renewed association keeps those it does not mention. -/
def preservesOmitted (state : State) : Bool :=
  state = .renewing || state = .rebinding || state = .reconfigureRebinding

/-- The loop of `client_v2_prepare_bindings` on one address; none is `RANGE_EXHAUSTED`. -/
def bindAddress (nowMs : Nat) (state : List Binding × Nat) (parsed : IaAddress) : Option (List Binding × Nat) :=
  let (candidate, nextGeneration) := state
  let found := candidate.findIdx? fun binding => binding.address = parsed.address
  if parsed.statusCode ≠ 0 ∨ parsed.validSeconds = 0 then
    match found with
    | some index => some (candidate.eraseIdx index, nextGeneration)
    | none => some (candidate, nextGeneration)
  else
    match deadlineFromSeconds nowMs parsed.preferredSeconds, deadlineFromSeconds nowMs parsed.validSeconds with
    | some preferredUntil, some validUntil =>
        match found with
        | some index =>
            match candidate[index]? with
            | none => none
            | some previous =>
                if previous.preferredUntilMs ≠ preferredUntil ∨ previous.validUntilMs ≠ validUntil then
                  if nextGeneration = maxUInt64 then none
                  else some (candidate.set index
                    ⟨parsed.address, 0, 0, preferredUntil, validUntil, nextGeneration⟩, nextGeneration + 1)
                else some (candidate.set index
                  ⟨parsed.address, 0, 0, preferredUntil, validUntil, previous.generation⟩, nextGeneration)
        | none =>
            if maxIaAddresses ≤ candidate.length ∨ nextGeneration = maxUInt64 then none
            else some (candidate ++ [⟨parsed.address, 0, 0, preferredUntil, validUntil, nextGeneration⟩],
              nextGeneration + 1)
    | _, _ => none

/-- `client_v2_prepare_bindings`. -/
def ClientV2.prepareBindings (v : ClientV2) (parsed : Parsed) (nowMs : Nat) : Option (List Binding × Nat) :=
  parsed.iaAddresses.foldlM (bindAddress nowMs)
    (if preservesOmitted v.exchange.state then v.addresses else [], v.nextAddressGeneration)

/-- An option inside the association of `client_v2_single_address_reply`: the addresses are left out. -/
def nestedOption (output : List UInt8) (code : Nat) (value : List UInt8) : Except Status (List UInt8) :=
  if code = optionIaAddress then .ok output
  else
    let option := Item.encode (code, value)
    if maxMessageSize - output.length < option.length then .error .rangeExhausted
    else .ok (output ++ option)

/-- The association with the single address: its numbers, the address for thirty days, and the options of
    `value` that are not addresses. `start` is what is written before it. -/
def singleAssociation (parsed : Parsed) (address : Address) (start value : List UInt8) :
    Except Status (List UInt8) :=
  let numbers := value.take 4 ++ store32 parsed.t1Seconds ++ store32 parsed.t2Seconds
  let single := Item.encode (optionIaAddress,
    address.toList ++ store32 maxValidSeconds ++ store32 maxValidSeconds)
  -- four bytes are left for the code and the length, which is written last
  match each .malformedPacket nestedOption value.length (start ++ (List.replicate 4 0 ++ numbers ++ single))
    (value.drop 12) with
  | .error status => .error status
  | .ok output =>
      let payload := output.drop (start.length + 4)
      if 0xffff < payload.length then .error .malformedPacket
      else .ok (start ++ Item.encode (optionIaNa, payload))

/-- An option of `client_v2_single_address_reply`. -/
def replyOption (parsed : Parsed) (address : Address) (state : Bool × List UInt8) (code : Nat)
    (value : List UInt8) : Except Status (Bool × List UInt8) :=
  let (found, output) := state
  if code ≠ optionIaNa then
    let option := Item.encode (code, value)
    if maxMessageSize - output.length < option.length then .error .rangeExhausted
    else .ok (found, output ++ option)
  else if found = true ∨ value.length < 12 ∨ maxMessageSize - output.length < 32 then .error .malformedPacket
  else
    match singleAssociation parsed address output value with
    | .error status => .error status
    | .ok output => .ok (true, output)

/-- `client_v2_single_address_reply`. -/
def singleAddressReply (message : List UInt8) (parsed : Parsed) (address : Address) :
    Except Status (List UInt8) :=
  if message.length < 4 ∨ maxMessageSize < message.length then .error .invalidArgument
  else
    match each .malformedPacket (replyOption parsed address) message.length (false, message.take 4)
      (message.drop 4) with
    | .error status => .error status
    | .ok (found, output) =>
        if found = false ∨ maxMessageSize < output.length then .error .malformedPacket else .ok output

/-- The longest lifetime of the bindings. -/
def maximumValid (bindings : List Binding) : Nat :=
  bindings.foldl (fun maximum binding => max maximum binding.validUntilMs) 0

/-- What `rin_dhcpv6_client_v2_receive` writes once the exchange has an offer or a lease; `before` is the
    exchange as it was. -/
def ClientV2.publish (v : ClientV2) (status : Status) (exchange before : Client) (candidate : List Binding)
    (nextGeneration : Nat) (parsed : Parsed) : ClientV2 :=
  let v' := { v with exchange := exchange, addresses := candidate, nextAddressGeneration := nextGeneration }
  if status = .offerReady then v'
  else if status = .leaseReady then
    match candidate with
    | first :: _ =>
        let maximum := maximumValid candidate
        let maximum :=
          if maximum < exchange.rebindAtMs then
            let floor := if exchange.rebindAtMs ≠ maxUInt64 then exchange.rebindAtMs + 1 else exchange.rebindAtMs
            if maximum < floor then floor else maximum
          else maximum
        { v' with exchange := { exchange with
          address := first.address
          preferredUntilMs := first.preferredUntilMs
          expiresAtMs := maximum } }
    | [] =>
        if stateHasLease before.state = true then
          { v' with exchange := { exchange with
            address := before.address
            renewAtMs := before.renewAtMs
            rebindAtMs := before.rebindAtMs
            expiresAtMs := before.expiresAtMs } }
        else if parsed.iaAddresses ≠ [] then { v' with exchange := { exchange with address := before.address } }
        else v'
  else { v with exchange := exchange }

/-- `rin_dhcpv6_client_v2_receive`. -/
def ClientV2.receive (v : ClientV2) (message : Option (List UInt8)) (nowMs : Nat) : Status × ClientV2 :=
  match message with
  | none => (.invalidArgument, v)
  | some message =>
      if ¬ v.Valid ∨ message.length < 4 ∨ maxMessageSize < message.length then (.invalidArgument, v)
      else if nowMs < v.exchange.lastNowMs then (.clockRollback, v)
      else
        match expectedReply v.exchange.state with
        | none => (.invalidState, v)
        | some (expectedType, requireIa) =>
            let direct := v.exchange.receive (some message) nowMs
            match parseMessage message expectedType requireIa with
            | .ok (.ok, parsed) =>
                if requireIa = false then (direct.1, { v with exchange := direct.2 })
                else
                  match v.prepareBindings parsed nowMs with
                  | none => (.rangeExhausted, v)
                  | some (candidate, nextGeneration) =>
                      if candidate ≠ [] ∨ parsed.iaAddresses ≠ [] then
                        let address :=
                          if addressUsable v.exchange.address then v.exchange.address
                          else (candidate.head?.map Binding.address).getD .zero
                        match singleAddressReply message parsed address with
                        | .error status => (status, v)
                        | .ok normalized =>
                            let received := v.exchange.receive (some normalized) nowMs
                            (received.1, v.publish received.1 received.2 v.exchange candidate nextGeneration
                              parsed)
                      else
                        (direct.1, v.publish direct.1 direct.2 v.exchange candidate nextGeneration parsed)
            | _ => (direct.1, { v with exchange := direct.2 })

/-! ## §5. The lease. -/

/-- `RinDhcpv6LeaseV2`, without its version, size and reserved field. -/
structure LeaseV2 where
  interfaceGeneration : Nat
  leaseGeneration : Nat
  renewAtMs : Nat
  rebindAtMs : Nat
  expiresAtMs : Nat
  state : State
  addresses : List Binding
  dnsServers : List Address
  deriving DecidableEq

/-- The bindings that have not expired. -/
def ClientV2.live (v : ClientV2) (nowMs : Nat) : List Binding :=
  v.addresses.filter fun binding => nowMs < binding.validUntilMs

/-- `rin_dhcpv6_client_v2_get_lease`. -/
def ClientV2.getLease (v : ClientV2) (nowMs : Nat) (output : Bool) : Status × ClientV2 × Option LeaseV2 :=
  if ¬ v.Valid ∨ output = false then (.invalidArgument, v, none)
  else if nowMs < v.exchange.lastNowMs then (.clockRollback, v, none)
  else if v.exchange.hasLease = false then (.notFound, v, none)
  else if v.exchange.expiresAtMs ≤ nowMs then
    (.leaseExpired, { v with
      exchange := ({ v.exchange with lastNowMs := nowMs }.expireLease).2
      addresses := [] }, none)
  else
    let live := v.live nowMs
    let exchange :=
      match live with
      | first :: _ => { v.exchange with
          address := first.address, preferredUntilMs := first.preferredUntilMs, lastNowMs := nowMs }
      | [] => { v.exchange with lastNowMs := nowMs }
    (.ok, { v with exchange := exchange, addresses := live }, some {
      interfaceGeneration := v.exchange.interfaceGeneration
      leaseGeneration := v.exchange.leaseGeneration
      renewAtMs := v.exchange.renewAtMs
      rebindAtMs := v.exchange.rebindAtMs
      expiresAtMs := if live ≠ [] then maximumValid live else v.exchange.expiresAtMs
      state := v.exchange.state
      addresses := live
      dnsServers := v.exchange.dnsServers })

/-- What a call returns and the client it leaves. -/
def ClientV2.call (v : ClientV2) : Call → Status × ClientV2
  | .setMode mode => v.setMode mode
  | .requestReconfigure requested nowMs => v.requestReconfigure requested nowMs
  | .prepare newTransactionId nowMs output =>
      ((v.prepare newTransactionId nowMs output).status, (v.prepare newTransactionId nowMs output).client)
  | .completeTransmit transmit sentSuccessfully => v.completeTransmit transmit sentSuccessfully
  | .receive message nowMs => v.receive message nowMs
  | .getLease nowMs output => ((v.getLease nowMs output).1, (v.getLease nowMs output).2.1)
  | .stop => v.stop

/-- The client after a call. -/
def ClientV2.step (v : ClientV2) (call : Call) : ClientV2 := (v.call call).2

end RinRuntime.Dhcpv6

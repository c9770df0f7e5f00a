/-
Dhcpv6.Client — the DHCPv6 client of one address.

`RinDhcpv6ClientV1` holds the state of an exchange, the lease it led to and the message to be sent.
`prepare` builds the next message, `complete_transmit` starts the retransmission timer once it was sent,
`receive` takes the server's answer. Every call first checks the record with `client_valid`.

A pointer argument that is null, or whose object overlaps the client, is `none` (`false` for an output):
each is answered with `INVALID_ARGUMENT` and nothing is written.
-/
import RinRuntime.Dhcpv6.Message

namespace RinRuntime.Dhcpv6
open Lib.Tlv

/-! ## §1. The record. -/

/-- `RinDhcpv6ClientState`. -/
inductive State where
  | idle
  | soliciting
  | advertised
  | requesting
  | bound
  | renewing
  | rebinding
  | informationRequesting
  | informationBound
  | reconfigureInformationRequesting
  | reconfigureRebinding
  deriving DecidableEq, Repr

/-- `RinDhcpv6ClientMode`. -/
inductive Mode where
  | stateful
  | information
  deriving DecidableEq, Repr

/-- The mode of a number, where it has one. -/
def Mode.ofNat? : Nat → Option Mode
  | 0 => some .stateful
  | 1 => some .information
  | _ => none

/-- The kind of a number; a number without a kind is treated like `none`. -/
def TransmitKind.ofCode : Nat → TransmitKind
  | 1 => .solicit
  | 3 => .request
  | 5 => .renew
  | 6 => .rebind
  | 11 => .informationRequest
  | _ => .none

/-- `RIN_DHCPV6_CLIENT_VERSION`. -/
def clientVersion : Nat := 1

/-- `sizeof(RinDhcpv6ClientV1)`. -/
def clientSize : Nat := 840

/-- `sizeof(RinDhcpv6TransmitV1)`. -/
def transmitSize : Nat := 552

/-- `RinDhcpv6TransmitV1`; the message is its first `message_size` bytes. -/
structure Transmit where
  version : Nat
  structSize : Nat
  ownerGeneration : Nat
  sequence : Nat
  reserved : Nat
  preparedAtMs : Nat
  kind : TransmitKind
  message : List UInt8
  deriving DecidableEq

/-- A message of zeros. -/
def Transmit.zero : Transmit := ⟨0, 0, 0, 0, 0, 0, .none, []⟩

/-- `RinDhcpv6ClientV1`; its field `reserved` holds the mode. -/
structure Client where
  version : Nat
  structSize : Nat
  initialized : Nat
  state : State
  interfaceGeneration : Nat
  generation : Nat
  lastNowMs : Nat
  transactionStartedMs : Nat
  nextTransmitMs : Nat
  retryMs : Nat
  leaseGeneration : Nat
  nextLeaseGeneration : Nat
  preferredUntilMs : Nat
  renewAtMs : Nat
  rebindAtMs : Nat
  expiresAtMs : Nat
  iaid : Nat
  transactionId : Nat
  offerPreferredSeconds : Nat
  offerValidSeconds : Nat
  offerT1Seconds : Nat
  offerT2Seconds : Nat
  nextTransmitSequence : Nat
  pendingPresent : Bool
  duid : List UInt8
  serverDuid : List UInt8
  address : Address
  dnsServers : List Address
  mode : Mode
  pending : Transmit
  deriving DecidableEq

/-! ## §2. Timers. -/

/-- `DHCPV6_RETRANSMISSION_NOT_STARTED`. -/
def retransmissionNotStarted : Nat := maxUInt32

/-- `DHCPV6_MAX_RT_OPTION_MIN_SECONDS`. -/
def maxRtOptionMinSeconds : Nat := 60

/-- `DHCPV6_MAX_RT_OPTION_MAX_SECONDS`. -/
def maxRtOptionMaxSeconds : Nat := 86400

/-- `DHCPV6_MAX_RANDOMIZED_RT_MS`. -/
def maxRandomizedRtMs : Nat := 95040000

/-- `DHCPV6_REQUEST_MAX_RETRANSMISSIONS`. -/
def requestMaxRetransmissions : Nat := 10

/-- `DHCPV6_STARTUP_DELAY_MAX_MS`. -/
def startupDelayMaxMs : Nat := 1000

/-- `retransmission_irt_ms`. -/
def retransmissionIrtMs : TransmitKind → Nat
  | .renew => 10000
  | .rebind => 10000
  | .informationRequest => 1000
  | .solicit => 1000
  | .request => 1000
  | .none => 1000

/-- `retransmission_mrt_ms`; the two offer fields hold SOL_MAX_RT and INF_MAX_RT. -/
def retransmissionMrtMs (c : Client) : TransmitKind → Nat
  | .solicit => c.offerPreferredSeconds * 1000
  | .request => 30000
  | .renew => 600000
  | .rebind => 600000
  | .informationRequest => c.offerValidSeconds * 1000
  | .none => retransmissionIrtMs .none

/-- `retransmission_mrc`. -/
def retransmissionMrc (kind : TransmitKind) : Nat :=
  if kind = .request then requestMaxRetransmissions else 0

/-- One round of the generator of `random_next` and `random_event_seed`. -/
def scramble (value : UInt32) : UInt32 :=
  let value := value ^^^ (value <<< 13)
  let value := value ^^^ (value >>> 17)
  let value := value ^^^ (value <<< 5)
  if value = 0 then 0x6d2b79f5 else value

/-- `random_bounded` on a fresh state. -/
def randomBounded (seed : UInt32) (bound : Nat) : Nat := (scramble seed).toNat * bound / 2 ^ 32

/-- `random_event_seed`. -/
def randomEventSeed (c : Client) (transactionId sequence : Nat) (purpose : UInt32) : UInt32 :=
  let start : UInt32 := 2166136261 ^^^ UInt32.ofNat transactionId ^^^
    (UInt32.ofNat sequence * 0x9e3779b9) ^^^ UInt32.ofNat c.iaid ^^^
    UInt32.ofNat c.interfaceGeneration ^^^ UInt32.ofNat (c.interfaceGeneration / 2 ^ 32) ^^^
    UInt32.ofNat c.generation ^^^ UInt32.ofNat (c.generation / 2 ^ 32) ^^^ purpose
  let value := c.duid.foldl (fun value byte => (value ^^^ UInt32.ofNat byte.toNat) * 16777619) start
  scramble (if value = 0 then 0x6d2b79f5 else value)

/-- `randomized_rt`: the base, up to a tenth of it shorter or longer; the first Solicit is only longer. -/
def randomizedRt (c : Client) (baseMs : Nat) (firstSolicitRt : Bool) (kind : TransmitKind)
    (transactionId sequence : Nat) : Nat :=
  let seed := randomEventSeed c transactionId sequence (0x52540000 ^^^ UInt32.ofNat kind.code.toNat)
  let signedFactor : Int :=
    if firstSolicitRt then randomBounded seed 1000 + 1 else (randomBounded seed 2001 : Int) - 1000
  let magnitude := baseMs * signedFactor.natAbs / 10000
  if signedFactor < 0 then baseMs - magnitude else baseMs + magnitude

/-- `earlier_deadline`. -/
def earlierDeadline (deadline phaseEnd : Nat) : Nat :=
  if phaseEnd ≠ 0 ∧ phaseEnd < deadline then phaseEnd else deadline

/-- `schedule_initial_retry`. -/
def scheduleInitialRetry (c : Client) (kind : TransmitKind) (transactionId sequence nowMs phaseEnd : Nat) :
    Client :=
  let retryMs := randomizedRt c (retransmissionIrtMs kind) (kind = .solicit) kind transactionId sequence
  { c with
    transactionStartedMs := nowMs
    nextTransmitMs := earlierDeadline ((nowMs + retryMs) % 2 ^ 64) phaseEnd
    retryMs := retryMs
    offerT1Seconds := 0
    offerT2Seconds := 0 }

/-- The base of the next interval: the double of the last, up to the longest. -/
def laterBaseMs (c : Client) (kind : TransmitKind) : Nat :=
  let mrtMs := retransmissionMrtMs c kind
  let baseMs := if maxUInt64 / 2 < c.retryMs then mrtMs else c.retryMs * 2
  if mrtMs < baseMs then mrtMs else baseMs

/-- `schedule_later_retry`. -/
def scheduleLaterRetry (c : Client) (kind : TransmitKind) (transactionId sequence nowMs phaseEnd : Nat) :
    Client :=
  let retryMs := randomizedRt c (laterBaseMs c kind) false kind transactionId sequence
  { c with
    nextTransmitMs := earlierDeadline ((nowMs + retryMs) % 2 ^ 64) phaseEnd
    retryMs := retryMs }

/-! ## §3. Validity. -/

/-- `client_state_has_server`. -/
def stateHasServer (state : State) : Bool :=
  state = .advertised || state = .requesting || state = .bound || state = .renewing || state = .rebinding ||
  state = .informationBound || state = .reconfigureInformationRequesting || state = .reconfigureRebinding

/-- `client_state_has_address`. -/
def stateHasAddress (state : State) : Bool :=
  state = .advertised || state = .requesting || state = .bound || state = .renewing || state = .rebinding ||
  state = .reconfigureInformationRequesting || state = .reconfigureRebinding

/-- `client_state_has_lease`. -/
def stateHasLease (state : State) : Bool :=
  state = .bound || state = .renewing || state = .rebinding || state = .informationBound ||
  state = .reconfigureInformationRequesting || state = .reconfigureRebinding

/-- `client_has_lease`. -/
def Client.hasLease (c : Client) : Bool :=
  stateHasLease c.state || (c.state = .informationRequesting && c.leaseGeneration != 0)

/-- `client_state_retransmits`. -/
def stateRetransmits (state : State) : Bool :=
  state = .soliciting || state = .requesting || state = .renewing || state = .rebinding ||
  state = .informationRequesting || state = .reconfigureInformationRequesting || state = .reconfigureRebinding

/-- `client_startup_delayed`. -/
def Client.startupDelayed (c : Client) : Bool :=
  c.state = .idle && c.transactionId != 0 && c.offerT1Seconds = retransmissionNotStarted

/-- `retransmission_kind_for_state`. -/
def retransmissionKindForState : State → TransmitKind
  | .soliciting => .solicit
  | .requesting => .request
  | .renewing => .renew
  | .rebinding => .rebind
  | .reconfigureRebinding => .rebind
  | .informationRequesting => .informationRequest
  | .reconfigureInformationRequesting => .informationRequest
  | _ => .none

/-- `pending_valid`. -/
def Client.PendingValid (c : Client) : Prop :=
  if c.pendingPresent = false then c.pending = .zero
  else
    c.pending.version = clientVersion ∧ c.pending.structSize = transmitSize ∧
    c.pending.ownerGeneration = c.generation ∧ c.pending.sequence ≠ 0 ∧ c.pending.reserved = 0 ∧
    4 ≤ c.pending.message.length ∧ c.pending.message.length ≤ maxMessageSize ∧
    c.pending.message.getD 0 0 = c.pending.kind.code ∧ c.pending.kind ≠ .none ∧
    messageTransaction c.pending.message ≠ 0

/-- The states a client of each mode never takes. -/
def modeForbids : Mode → State → Bool
  | .information, state =>
      state = .soliciting || state = .advertised || state = .requesting || state = .renewing ||
      state = .rebinding || state = .reconfigureInformationRequesting || state = .reconfigureRebinding
  | .stateful, state => state = .informationRequesting || state = .informationBound

/-- Whether a server is recorded: always in the states that have one, by its identifier while information
    is requested. -/
def Client.hasServer (c : Client) : Bool :=
  stateHasServer c.state || (c.state = .informationRequesting && c.serverDuid != [])

/-- The order of the deadlines of a lease. -/
def Client.LeaseOrdered (c : Client) : Prop :=
  c.leaseGeneration ≠ 0 ∧ c.preferredUntilMs ≤ c.expiresAtMs ∧
  if c.mode = .information ∧ stateHasAddress c.state = false then
    c.renewAtMs < c.expiresAtMs ∧ c.rebindAtMs = c.expiresAtMs
  else c.renewAtMs < c.rebindAtMs ∧ c.rebindAtMs < c.expiresAtMs

/-- No lease is recorded. -/
def Client.NoLease (c : Client) : Prop :=
  c.leaseGeneration = 0 ∧ c.preferredUntilMs = 0 ∧ c.renewAtMs = 0 ∧ c.rebindAtMs = 0 ∧
  c.expiresAtMs = 0 ∧ c.dnsServers = []

/-- A first message of the exchange is still to be sent. -/
def Client.firstSendPending (c : Client) : Bool :=
  c.startupDelayed || ((c.state = .reconfigureInformationRequesting || c.state = .reconfigureRebinding) &&
    c.offerT1Seconds = retransmissionNotStarted)

/-- The retransmission interval lies within a tenth of the bounds of its kind. -/
def Client.RetryInRange (c : Client) (kind : TransmitKind) : Prop :=
  retransmissionIrtMs kind - retransmissionIrtMs kind / 10 ≤ c.retryMs ∧
  c.retryMs ≤ retransmissionMrtMs c kind + retransmissionMrtMs c kind / 10

/-- The timers of the exchange under way. -/
def Client.TimersValid (c : Client) : Prop :=
  if stateRetransmits c.state = true ∨ c.firstSendPending = true then
    (if c.offerT1Seconds = retransmissionNotStarted then
      c.firstSendPending = true ∧ c.transactionStartedMs = 0 ∧ c.retryMs = 0
    else
      retransmissionKindForState c.state ≠ .none ∧ c.transactionStartedMs ≤ c.nextTransmitMs ∧
      c.RetryInRange (retransmissionKindForState c.state)) ∧
    (c.state = .requesting → c.offerT1Seconds < requestMaxRetransmissions)
  else
    c.transactionStartedMs = 0 ∧ c.nextTransmitMs = 0 ∧ c.retryMs = 0 ∧ c.offerT1Seconds = 0

/-- The checks of `client_valid` but for those of the timers. -/
@[mk_iff] structure Client.Framed (c : Client) : Prop where
  version : c.version = clientVersion
  structSize : c.structSize = clientSize
  initialized : c.initialized = 1
  interfaceGeneration : c.interfaceGeneration ≠ 0
  generation : c.generation ≠ 0
  iaid : c.iaid ≠ 0
  duid : duidValid c.duid = true
  transactionId : c.transactionId ≤ 0xffffff
  dnsCount : c.dnsServers.length ≤ maxDnsServers
  solMaxRt : maxRtOptionMinSeconds ≤ c.offerPreferredSeconds ∧ c.offerPreferredSeconds ≤ maxRtOptionMaxSeconds
  infMaxRt : maxRtOptionMinSeconds ≤ c.offerValidSeconds ∧ c.offerValidSeconds ≤ maxRtOptionMaxSeconds
  offerT2 : c.offerT2Seconds = 0
  pending : c.PendingValid
  mode : modeForbids c.mode c.state = false
  server : c.hasServer = true ↔ c.serverDuid ≠ []
  serverDuid : c.hasServer = true → duidValid c.serverDuid = true
  address : stateHasAddress c.state = addressUsable c.address
  idle : ¬ (c.state = .idle ∧ c.transactionId = 0 ∧ c.offerT1Seconds ≠ 0)
  transaction : ¬ (c.state ≠ .idle ∧ c.transactionId = 0)
  startup : ¬ (c.state = .idle ∧ c.transactionId ≠ 0 ∧ c.startupDelayed = false)
  lease : if c.hasLease = true then c.LeaseOrdered else c.NoLease
  dns : ∀ server ∈ c.dnsServers, addressUsable server = true

/-- `client_valid`. That state and mode are values of their enumerations, and that buffers are zero behind
    their used part, is so for every `Client`. -/
@[mk_iff] structure Client.Valid (c : Client) : Prop extends Client.Framed c where
  timers : c.TimersValid

instance (c : Client) : Decidable c.PendingValid := by unfold Client.PendingValid; infer_instance
instance (c : Client) : Decidable c.LeaseOrdered := by unfold Client.LeaseOrdered; infer_instance
instance (c : Client) : Decidable c.NoLease := by unfold Client.NoLease; infer_instance
instance (c : Client) (kind : TransmitKind) : Decidable (c.RetryInRange kind) := by
  unfold Client.RetryInRange; infer_instance
instance (c : Client) : Decidable c.TimersValid := by unfold Client.TimersValid; infer_instance

instance (c : Client) : Decidable c.Framed :=
  haveI := List.decidableBAll (fun server => addressUsable server = true) c.dnsServers
  decidable_of_iff _ c.framed_iff.symm
instance (c : Client) : Decidable c.Valid := decidable_of_iff _ c.valid_iff.symm

/-! ## §4. Start and end of an exchange. -/

/-- `clear_pending`. -/
def Client.clearPending (c : Client) : Client := { c with pendingPresent := false, pending := .zero }

/-- `clear_dynamic`. -/
def Client.clearDynamic (c : Client) : Client :=
  { c with
    state := .idle
    transactionStartedMs := 0
    nextTransmitMs := 0
    retryMs := 0
    leaseGeneration := 0
    preferredUntilMs := 0
    renewAtMs := 0
    rebindAtMs := 0
    expiresAtMs := 0
    transactionId := 0
    serverDuid := []
    dnsServers := []
    offerT1Seconds := 0
    offerT2Seconds := 0
    address := .zero
    pendingPresent := false
    pending := .zero }

/-- `expire_lease`. -/
def Client.expireLease (c : Client) : Status × Client :=
  if c.generation = maxUInt64 then (.rangeExhausted, c)
  else (.leaseExpired, { c with generation := c.generation + 1 }.clearDynamic)

/-- `rin_dhcpv6_client_init`: the client, or none where the arguments are refused. -/
def init (duid : Option (List UInt8)) (iaid interfaceGeneration : Nat) : Option Client :=
  match duid with
  | none => none
  | some duid =>
      if duidValid duid = false ∨ iaid = 0 ∨ interfaceGeneration = 0 then none
      else some {
        version := clientVersion
        structSize := clientSize
        initialized := 1
        state := .idle
        interfaceGeneration := interfaceGeneration
        generation := 1
        lastNowMs := 0
        transactionStartedMs := 0
        nextTransmitMs := 0
        retryMs := 0
        leaseGeneration := 0
        nextLeaseGeneration := 1
        preferredUntilMs := 0
        renewAtMs := 0
        rebindAtMs := 0
        expiresAtMs := 0
        iaid := iaid
        transactionId := 0
        offerPreferredSeconds := 3600
        offerValidSeconds := 3600
        offerT1Seconds := 0
        offerT2Seconds := 0
        nextTransmitSequence := 1
        pendingPresent := false
        duid := duid
        serverDuid := []
        address := .zero
        dnsServers := []
        mode := .stateful
        pending := .zero }

/-- `rin_dhcpv6_client_set_mode`. -/
def Client.setMode (c : Client) (mode : Nat) : Status × Client :=
  match Mode.ofNat? mode with
  | none => (.invalidArgument, c)
  | some mode =>
      if ¬ c.Valid ∨ c.state ≠ .idle ∨ c.transactionId ≠ 0 ∨ c.pendingPresent = true then
        (.invalidArgument, c)
      else (.ok, { c with mode := mode })

/-- `rin_dhcpv6_client_stop`. -/
def Client.stop (c : Client) : Status × Client :=
  if ¬ c.Valid then (.invalidArgument, c)
  else if c.state = .idle ∧ c.transactionId = 0 ∧ c.pendingPresent = false then (.ok, c)
  else if c.generation = maxUInt64 then (.rangeExhausted, c)
  else (.ok, { c with generation := c.generation + 1 }.clearDynamic)

/-! ## §5. Reconfigure. -/

/-- The requests `rin_dhcpv6_client_request_reconfigure` takes in the client's state. -/
def Client.takesReconfigure (c : Client) (requestedKind : TransmitKind) : Bool :=
  (requestedKind = .renew && c.state = .bound && c.mode = .stateful) ||
  (requestedKind = .rebind && c.state = .bound && c.mode = .stateful) ||
  (requestedKind = .informationRequest && c.state = .bound && c.mode = .stateful) ||
  (requestedKind = .informationRequest && c.state = .informationBound && c.mode = .information)

/-- `rin_dhcpv6_client_request_reconfigure`. -/
def Client.requestReconfigure (c : Client) (requested nowMs : Nat) : Status × Client :=
  let requestedKind := TransmitKind.ofCode requested
  if ¬ c.Valid then (.invalidArgument, c)
  else if nowMs < c.lastNowMs then (.clockRollback, c)
  else if c.pendingPresent = true then (.busy, c)
  else if c.takesReconfigure requestedKind = true then
    let starts := requestedKind = .rebind ∨ (requestedKind = .informationRequest ∧ c.mode ≠ .information)
    if maxUInt64 - 3 ≤ c.generation ∨ (starts ∧ maxUInt64 - maxRandomizedRtMs < nowMs) then
      (.rangeExhausted, c)
    else if c.expiresAtMs ≤ nowMs then { c with lastNowMs := nowMs }.expireLease
    else
      let c' :=
        if requestedKind = .rebind then
          { c with
            state := .reconfigureRebinding
            transactionStartedMs := 0
            nextTransmitMs := nowMs
            retryMs := 0
            offerT1Seconds := retransmissionNotStarted }
        else if requestedKind = .informationRequest ∧ c.mode ≠ .information then
          { c with
            state := .reconfigureInformationRequesting
            transactionStartedMs := 0
            nextTransmitMs := nowMs
            retryMs := 0
            offerT1Seconds := retransmissionNotStarted }
        else { c with renewAtMs := nowMs }
      (.ok, { c' with lastNowMs := nowMs, generation := c.generation + 1 })
  else (.invalidState, c)

/-! ## §6. Sending. -/

/-- The bytes of `build_message`: none where they do not fit the buffer. -/
def messageBytes (c : Client) (kind : TransmitKind) (transactionId nowMs : Nat) : Option (List UInt8) := do
  let message : List UInt8 := [kind.code, UInt8.ofNat (transactionId / 65536),
    UInt8.ofNat (transactionId / 256), UInt8.ofNat transactionId]
  let message ← appendOption message optionClientId c.duid
  let message ←
    (if kind = .request ∨ kind = .renew then appendOption message optionServerId c.serverDuid
    else some message)
  let elapsed :=
    if transactionId = c.transactionId ∧ c.offerT1Seconds ≠ retransmissionNotStarted ∧
        c.transactionStartedMs ≤ nowMs then (nowMs - c.transactionStartedMs) / 10
    else 0
  let message ← appendOption message optionElapsedTime (store16 (min elapsed 0xffff))
  let message ←
    (if kind = .informationRequest then some message
    else appendIaNa message c.iaid (if kind = .solicit then none else some c.address))
  let requested :=
    if kind = .solicit ∨ kind = .request ∨ kind = .renew ∨ kind = .rebind then
      store16 optionDnsServers ++ store16 optionSolMaxRt
    else if kind = .informationRequest then
      store16 optionDnsServers ++ store16 optionInformationRefreshTime ++ store16 optionInfMaxRt
    else store16 optionDnsServers
  let message ← appendOption message optionOro requested
  appendOption message optionReconfigureAccept []

/-- `build_message`, for a transaction number that `rin_dhcpv6_client_prepare` has checked. -/
def buildMessage (c : Client) (kind : TransmitKind) (transactionId nowMs : Nat) : Option Transmit :=
  (messageBytes c kind transactionId nowMs).map fun message =>
    { version := clientVersion
      structSize := transmitSize
      ownerGeneration := c.generation
      sequence := 0
      reserved := 0
      preparedAtMs := nowMs
      kind := kind
      message := message }

/-- The message `rin_dhcpv6_client_prepare` finds due, and whether it opens a transaction. -/
def Client.due (c : Client) (nowMs : Nat) : TransmitKind × Bool :=
  match c.state with
  | .idle =>
      let kind := if c.mode = .information then TransmitKind.informationRequest else .solicit
      if c.startupDelayed = true then (if c.nextTransmitMs ≤ nowMs then kind else .none, false)
      else (kind, true)
  | .soliciting => (if c.nextTransmitMs ≤ nowMs then .solicit else .none, false)
  | .advertised => (.request, true)
  | .requesting => (if c.nextTransmitMs ≤ nowMs then .request else .none, false)
  | .bound =>
      if c.rebindAtMs ≤ nowMs then (.rebind, true)
      else if c.renewAtMs ≤ nowMs then (.renew, true)
      else (.none, false)
  | .renewing =>
      if c.rebindAtMs ≤ nowMs then (.rebind, true)
      else (if c.nextTransmitMs ≤ nowMs then .renew else .none, false)
  | .rebinding => (if c.nextTransmitMs ≤ nowMs then .rebind else .none, false)
  | .informationRequesting => (if c.nextTransmitMs ≤ nowMs then .informationRequest else .none, false)
  | .informationBound => if c.renewAtMs ≤ nowMs then (.informationRequest, true) else (.none, false)
  | .reconfigureInformationRequesting =>
      if c.nextTransmitMs ≤ nowMs then
        (.informationRequest, decide (c.offerT1Seconds = retransmissionNotStarted))
      else (.none, false)
  | .reconfigureRebinding =>
      if c.nextTransmitMs ≤ nowMs then (.rebind, decide (c.offerT1Seconds = retransmissionNotStarted))
      else (.none, false)

/-- What `rin_dhcpv6_client_prepare` returns and writes. -/
structure Prepared where
  status : Status
  client : Client
  transmit : Transmit

/-- The end of `rin_dhcpv6_client_prepare`: the message is built and kept until it is sent. -/
def Client.enqueue (c : Client) (kind : TransmitKind) (transactionId nowMs : Nat) : Prepared :=
  match buildMessage c kind transactionId nowMs with
  | none => ⟨.rangeExhausted, c, .zero⟩
  | some transmit =>
      let transmit := { transmit with sequence := c.nextTransmitSequence }
      { status := .packetReady
        client := { c with
          nextTransmitSequence := if c.nextTransmitSequence = maxUInt32 then 0 else c.nextTransmitSequence + 1
          pending := transmit
          pendingPresent := true
          lastNowMs := nowMs }
        transmit := transmit }

/-- The random delay before the first message of an idle client. -/
def Client.startupDelay (c : Client) (transactionId : Nat) : Nat :=
  randomBounded (randomEventSeed c transactionId c.nextTransmitSequence 0x53544152) (startupDelayMaxMs + 1)

/-- `rin_dhcpv6_client_prepare`. -/
def Client.prepare (c : Client) (newTransactionId nowMs : Nat) (output : Bool) : Prepared :=
  if ¬ c.Valid ∨ output = false then ⟨.invalidArgument, c, .zero⟩
  else if nowMs < c.lastNowMs then ⟨.clockRollback, c, .zero⟩
  else if c.hasLease = true ∧ c.expiresAtMs ≤ nowMs then
    ⟨({ c with lastNowMs := nowMs }.expireLease).1, ({ c with lastNowMs := nowMs }.expireLease).2, .zero⟩
  else if c.pendingPresent = true then ⟨.busy, c, .zero⟩
  else
    let kind := (c.due nowMs).1
    let needsNewTransaction := (c.due nowMs).2
    if kind = .none then ⟨.ok, { c with lastNowMs := nowMs }, .zero⟩
    else if maxUInt64 - maxRandomizedRtMs < nowMs ∨ c.nextTransmitSequence = 0 ∨
        (needsNewTransaction = true ∧ c.generation = maxUInt64) ∨
        (c.state = .idle ∧ c.transactionId = 0 ∧ maxUInt64 - 1 ≤ c.generation) then
      ⟨.rangeExhausted, c, .zero⟩
    else
      let transactionId := if needsNewTransaction = true then newTransactionId else c.transactionId
      if transactionId = 0 ∨ 0xffffff < transactionId ∨
          (needsNewTransaction = true ∧ transactionId = c.transactionId) then ⟨.invalidArgument, c, .zero⟩
      else if c.state = .idle ∧ c.transactionId = 0 then
        let delay := c.startupDelay transactionId
        let c := { c with
          transactionId := transactionId
          offerT1Seconds := retransmissionNotStarted
          nextTransmitMs := nowMs + delay
          generation := c.generation + 1 }
        if delay ≠ 0 then ⟨.ok, { c with lastNowMs := nowMs }, .zero⟩
        else c.enqueue kind transactionId nowMs
      else c.enqueue kind transactionId nowMs

/-- What a sent message makes of the exchange: the state, the end of its phase (or 0) and whether a new
    transaction starts. -/
structure Move where
  state : State
  phaseEnd : Nat
  transition : Bool
  deriving DecidableEq

/-- The cases of `rin_dhcpv6_client_complete_transmit`; none is `INVALID_STATE`. -/
def Client.move (c : Client) (kind : TransmitKind) (transactionId : Nat) : Option Move :=
  let notStarted := decide (c.offerT1Seconds = retransmissionNotStarted)
  let again (phaseEnd : Nat) : Option Move :=
    if transactionId ≠ c.transactionId then none else some ⟨c.state, phaseEnd, false⟩
  match c.state, kind with
  | .idle, .solicit => if notStarted then some ⟨.soliciting, 0, true⟩ else none
  | .idle, .informationRequest => if notStarted then some ⟨.informationRequesting, 0, true⟩ else none
  | .soliciting, .solicit => again 0
  | .advertised, .request => some ⟨.requesting, 0, true⟩
  | .requesting, .request => again 0
  | .bound, .renew => some ⟨.renewing, c.rebindAtMs, true⟩
  | .bound, .rebind => some ⟨.rebinding, c.expiresAtMs, true⟩
  | .renewing, .rebind => some ⟨.rebinding, c.expiresAtMs, true⟩
  | .renewing, .renew => again c.rebindAtMs
  | .rebinding, .rebind => again c.expiresAtMs
  | .informationBound, .informationRequest => some ⟨.informationRequesting, 0, true⟩
  | .informationRequesting, .informationRequest => again 0
  | .reconfigureInformationRequesting, .informationRequest =>
      if notStarted = false ∧ transactionId ≠ c.transactionId then none
      else some ⟨c.state, c.expiresAtMs, notStarted⟩
  | .reconfigureRebinding, .rebind =>
      if notStarted = false ∧ transactionId ≠ c.transactionId then none
      else some ⟨c.state, c.expiresAtMs, notStarted⟩
  | _, _ => none

/-- `rin_dhcpv6_client_complete_transmit`. -/
def Client.completeTransmit (c : Client) (transmit : Option Transmit) (sentSuccessfully : Int) :
    Status × Client :=
  match transmit with
  | none => (.invalidArgument, c)
  | some transmit =>
      if ¬ c.Valid ∨ c.pendingPresent = false ∨ transmit ≠ c.pending ∨
          (sentSuccessfully ≠ 0 ∧ sentSuccessfully ≠ 1) then (.invalidArgument, c)
      else if sentSuccessfully = 0 then (.ok, c.clearPending)
      else
        let transactionId := messageTransaction transmit.message
        match c.move transmit.kind transactionId with
        | none => (.invalidState, c)
        | some move =>
            let c := { c with state := move.state }
            -- the state is already changed where the generation cannot be advanced
            if move.transition = true ∧ c.generation = maxUInt64 then (.rangeExhausted, c)
            else if move.transition = true then
              let c := { c with generation := c.generation + 1, transactionId := transactionId }
              (.ok, (scheduleInitialRetry c transmit.kind transactionId transmit.sequence
                transmit.preparedAtMs move.phaseEnd).clearPending)
            else
              let c := { c with transactionId := transactionId }
              let retransmissions := retransmissionMrc transmit.kind
              if retransmissions ≠ 0 ∧ c.offerT1Seconds < retransmissions ∧
                  retransmissions ≤ c.offerT1Seconds + 1 then
                let generation := if c.generation ≠ maxUInt64 then c.generation + 1 else c.generation
                (.ok, { c with generation := generation }.clearDynamic)
              else
                let c := { c with offerT1Seconds :=
                  if c.offerT1Seconds < maxUInt32 - 1 then c.offerT1Seconds + 1 else c.offerT1Seconds }
                (.ok, (scheduleLaterRetry c transmit.kind transactionId transmit.sequence
                  transmit.preparedAtMs move.phaseEnd).clearPending)

/-! ## §7. Receiving. -/

/-- `parsed_client_identity_matches`. -/
def Client.clientMatches (c : Client) (parsed : Parsed) : Bool := parsed.clientDuid = c.duid

/-- `parsed_identity_matches`. -/
def Client.identityMatches (c : Client) (parsed : Parsed) : Bool :=
  c.clientMatches parsed && parsed.iaid = c.iaid

/-- `parsed_server_identity_matches`. -/
def Client.serverMatches (c : Client) (parsed : Parsed) : Bool := parsed.serverDuid = c.serverDuid

/-- The maximum of an option, where it is present and in range. -/
def optionMaximum (seen : Bool) (seconds current : Nat) : Nat :=
  if seen = true ∧ maxRtOptionMinSeconds ≤ seconds ∧ seconds ≤ maxRtOptionMaxSeconds then seconds else current

/-- Whether `apply_retransmission_overrides` reads the maxima of a message at all. -/
def Client.overridable (c : Client) (parsed : Parsed) : Bool :=
  let requiresSelectedServer := decide (c.state = .requesting ∨ c.state = .renewing ∨
    c.state = .reconfigureInformationRequesting)
  let allowsInformationReply := decide (c.mode = .information ∨ c.state = .reconfigureInformationRequesting)
  parsed.structuralValid && parsed.serverSeen && c.clientMatches parsed &&
  !(parsed.iaSeen && parsed.iaid ≠ c.iaid) && !(!parsed.iaSeen && !allowsInformationReply) &&
  !(requiresSelectedServer && !c.serverMatches parsed)

/-- `apply_retransmission_overrides`. -/
def Client.applyRetransmissionOverrides (c : Client) (parsed : Parsed) (nowMs : Nat) : Status × Client :=
  if c.overridable parsed = false then (.ok, c)
  else
    let solMaxRt := optionMaximum parsed.solMaxRtSeen parsed.solMaxRtSeconds c.offerPreferredSeconds
    let infMaxRt := optionMaximum parsed.infMaxRtSeen parsed.infMaxRtSeconds c.offerValidSeconds
    if solMaxRt = c.offerPreferredSeconds ∧ infMaxRt = c.offerValidSeconds then (.ok, c)
    else if c.generation = maxUInt64 then (.rangeExhausted, c)
    else
      (.ok, { c with
        generation := c.generation + 1
        offerPreferredSeconds := solMaxRt
        offerValidSeconds := infMaxRt
        lastNowMs := nowMs })

/-- `commit_offer`. -/
def Client.commitOffer (c : Client) (parsed : Parsed) : Status × Client :=
  if c.identityMatches parsed = false ∨ addressUsable parsed.address = false ∨
      lifetimesNormalize parsed.validSeconds parsed.preferredSeconds parsed.t1Seconds parsed.t2Seconds = none
    then (.malformedPacket, c)
  else if c.generation = maxUInt64 then (.rangeExhausted, c)
  else
    (.offerReady, { c with
      serverDuid := parsed.serverDuid
      address := parsed.address
      offerT1Seconds := 0
      offerT2Seconds := 0
      transactionStartedMs := 0
      nextTransmitMs := 0
      retryMs := 0
      state := .advertised
      generation := c.generation + 1 })

/-- The generation of a new lease and the one after it. -/
def Client.takeLeaseGeneration (c : Client) : Client :=
  { c with
    leaseGeneration := c.nextLeaseGeneration
    nextLeaseGeneration := if c.nextLeaseGeneration = maxUInt64 then 0 else c.nextLeaseGeneration + 1 }

/-- The exchange is over; the client is in `state`. -/
def Client.settle (c : Client) (state : State) : Client :=
  { c with
    offerT1Seconds := 0
    offerT2Seconds := 0
    transactionStartedMs := 0
    nextTransmitMs := 0
    retryMs := 0
    state := state
    generation := c.generation + 1 }

/-- `commit_lease`. -/
def Client.commitLease (c : Client) (parsed : Parsed) (nowMs : Nat) : Status × Client :=
  let allowServerChange := decide (c.state = .rebinding ∨ c.state = .reconfigureRebinding)
  if c.identityMatches parsed = false ∨ addressUsable parsed.address = false then (.malformedPacket, c)
  else
    match lifetimesNormalize parsed.validSeconds parsed.preferredSeconds parsed.t1Seconds parsed.t2Seconds with
    | none => (.malformedPacket, c)
    | some (t1, t2) =>
        if allowServerChange = false ∧ c.serverMatches parsed = false then (.notForUs, c)
        else if allowServerChange = false ∧ parsed.address ≠ c.address then (.notForUs, c)
        else
          match deadlineFromSeconds nowMs t1, deadlineFromSeconds nowMs t2,
            deadlineFromSeconds nowMs parsed.preferredSeconds,
            deadlineFromSeconds nowMs parsed.validSeconds with
          | some renewAt, some rebindAt, some preferredUntil, some expiresAt =>
              if c.nextLeaseGeneration = 0 ∨ c.generation = maxUInt64 then (.rangeExhausted, c)
              else
                (.leaseReady, ({ c with
                  serverDuid := if allowServerChange then parsed.serverDuid else c.serverDuid
                  address := parsed.address
                  dnsServers := parsed.dnsServers
                  preferredUntilMs := preferredUntil
                  renewAtMs := renewAt
                  rebindAtMs := rebindAt
                  expiresAtMs := expiresAt }.takeLeaseGeneration).settle .bound)
          | _, _, _, _ => (.rangeExhausted, c)

/-- `commit_information`. -/
def Client.commitInformation (c : Client) (parsed : Parsed) (nowMs : Nat) : Status × Client :=
  let refreshSeconds := informationRefreshNormalize
    (if parsed.informationRefreshSeen then parsed.informationRefreshSeconds else 0)
  if c.mode ≠ .information ∨ c.clientMatches parsed = false ∨ parsed.serverSeen = false ∨
      parsed.iaSeen = true ∨ parsed.addressSeen = true then (.malformedPacket, c)
  else
    match deadlineFromSeconds nowMs refreshSeconds, deadlineFromSeconds nowMs (refreshSeconds * 2) with
    | some refreshAt, some expiresAt =>
        if c.nextLeaseGeneration = 0 ∨ c.generation = maxUInt64 then (.rangeExhausted, c)
        else
          (.leaseReady, ({ c with
            serverDuid := parsed.serverDuid
            address := .zero
            dnsServers := parsed.dnsServers
            preferredUntilMs := expiresAt
            renewAtMs := refreshAt
            rebindAtMs := expiresAt
            expiresAtMs := expiresAt }.takeLeaseGeneration).settle .informationBound)
    | _, _ => (.malformedPacket, c)

/-- `commit_reconfigure_information`. -/
def Client.commitReconfigureInformation (c : Client) (parsed : Parsed) : Status × Client :=
  if c.mode = .information ∨ c.clientMatches parsed = false ∨ parsed.serverSeen = false ∨
      parsed.iaSeen = true ∨ parsed.addressSeen = true ∨ c.serverMatches parsed = false ∨
      c.nextLeaseGeneration = 0 ∨ c.generation = maxUInt64 then (.malformedPacket, c)
  else (.leaseReady, ({ c with dnsServers := parsed.dnsServers }.takeLeaseGeneration).settle .bound)

/-- The type of the message a state waits for, and whether it must carry an association. -/
def expectedReply : State → Option (UInt8 × Bool)
  | .soliciting => some (messageAdvertise, true)
  | .requesting => some (messageReply, true)
  | .renewing => some (messageReply, true)
  | .rebinding => some (messageReply, true)
  | .reconfigureRebinding => some (messageReply, true)
  | .informationRequesting => some (messageReply, false)
  | .reconfigureInformationRequesting => some (messageReply, false)
  | _ => none

/-- The commit `rin_dhcpv6_client_receive` chooses. -/
def Client.commit (c : Client) (parsed : Parsed) (nowMs : Nat) : Status × Client :=
  if c.state = .soliciting then c.commitOffer parsed
  else if c.state = .informationRequesting then c.commitInformation parsed nowMs
  else if c.state = .reconfigureInformationRequesting then c.commitReconfigureInformation parsed
  else c.commitLease parsed nowMs

/-- A status greater than zero. -/
def Status.positive (status : Status) : Bool :=
  status = .packetReady || status = .offerReady || status = .leaseReady || status = .leaseExpired

/-- The part of `rin_dhcpv6_client_receive` behind the parser. -/
def Client.answer (c : Client) (status : Status) (parsed : Parsed) (nowMs : Nat) : Status × Client :=
  let override := c.applyRetransmissionOverrides parsed nowMs
  if override.1 ≠ .ok then override
  else if status = .serverRejected then
    (status, if parsed.structuralValid && override.2.clientMatches parsed then
      { override.2 with lastNowMs := nowMs } else override.2)
  else
    let committed := override.2.commit parsed nowMs
    (committed.1, if committed.1.positive then { committed.2 with lastNowMs := nowMs } else committed.2)

/-- `rin_dhcpv6_client_receive`. -/
def Client.receive (c : Client) (message : Option (List UInt8)) (nowMs : Nat) : Status × Client :=
  match message with
  | none => (.invalidArgument, c)
  | some message =>
      if ¬ c.Valid ∨ message.length < 4 ∨ maxMessageSize < message.length then (.invalidArgument, c)
      else if nowMs < c.lastNowMs then (.clockRollback, c)
      else if c.pendingPresent = true then (.busy, c)
      else
        match expectedReply c.state with
        | none => (.invalidState, c)
        | some (expectedType, requireIa) =>
            if messageTransaction message ≠ c.transactionId then (.notForUs, c)
            else
              match parseMessage message expectedType requireIa with
              | .error status => (status, c)
              | .ok (status, parsed) => c.answer status parsed nowMs

/-! ## §8. The lease. -/

/-- `RinDhcpv6LeaseV1`, without its version and size. -/
structure Lease where
  interfaceGeneration : Nat
  leaseGeneration : Nat
  preferredUntilMs : Nat
  renewAtMs : Nat
  rebindAtMs : Nat
  expiresAtMs : Nat
  state : State
  address : Address
  dnsServers : List Address
  deriving DecidableEq

/-- `rin_dhcpv6_client_get_lease`; no lease is an output of zeros. -/
def Client.getLease (c : Client) (nowMs : Nat) (output : Bool) : Status × Client × Option Lease :=
  if ¬ c.Valid ∨ output = false then (.invalidArgument, c, none)
  else if nowMs < c.lastNowMs then (.clockRollback, c, none)
  else if c.hasLease = true ∧ c.expiresAtMs ≤ nowMs then
    (({ c with lastNowMs := nowMs }.expireLease).1, ({ c with lastNowMs := nowMs }.expireLease).2, none)
  else if c.hasLease = false then (.notFound, c, none)
  else
    (.ok, { c with lastNowMs := nowMs }, some {
      interfaceGeneration := c.interfaceGeneration
      leaseGeneration := c.leaseGeneration
      preferredUntilMs := c.preferredUntilMs
      renewAtMs := c.renewAtMs
      rebindAtMs := c.rebindAtMs
      expiresAtMs := c.expiresAtMs
      state := c.state
      address := c.address
      dnsServers := c.dnsServers })

/-! ## §9. Runs. -/

/-- A call of the client with its arguments. -/
inductive Call where
  | setMode (mode : Nat)
  | requestReconfigure (requested nowMs : Nat)
  | prepare (newTransactionId nowMs : Nat) (output : Bool)
  | completeTransmit (transmit : Option Transmit) (sentSuccessfully : Int)
  | receive (message : Option (List UInt8)) (nowMs : Nat)
  | getLease (nowMs : Nat) (output : Bool)
  | stop

/-- What a call returns and the client it leaves. -/
def Client.call (c : Client) : Call → Status × Client
  | .setMode mode => c.setMode mode
  | .requestReconfigure requested nowMs => c.requestReconfigure requested nowMs
  | .prepare newTransactionId nowMs output =>
      ((c.prepare newTransactionId nowMs output).status, (c.prepare newTransactionId nowMs output).client)
  | .completeTransmit transmit sentSuccessfully => c.completeTransmit transmit sentSuccessfully
  | .receive message nowMs => c.receive message nowMs
  | .getLease nowMs output => ((c.getLease nowMs output).1, (c.getLease nowMs output).2.1)
  | .stop => c.stop

/-- The client after a call. -/
def Client.step (c : Client) (call : Call) : Client := (c.call call).2

end RinRuntime.Dhcpv6

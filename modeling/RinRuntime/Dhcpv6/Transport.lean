/-
Dhcpv6.Transport — the client on an Ethernet link.

`rin_dhcpv6_transport_prepare` draws the transaction of a new exchange before it calls the client, and
hands it the number 1 where it expects a retransmission; to know which, it has its own copy of the client's
conditions (`transmitNeedsNewTransaction`).

Main result: `transport_draws` — a transaction the client did not have was drawn.
-/
import RinRuntime.Dhcpv6.Invariant

namespace RinRuntime.Dhcpv6

/-! ## §1. The transport. -/

/-- `RinDhcpv6TransportStatus`, and the status of the client where it is passed on. -/
inductive TransportStatus where
  | invalidArgument
  | invalidState
  | randomFailure
  | client (status : Status)
  deriving DecidableEq

/-- `RinDhcpv6TransportConfigV1`. -/
structure TransportConfig where
  version : Nat
  structSize : Nat
  interfaceGeneration : Nat
  mac : Vector UInt8 6
  reserved0 : Vector UInt8 2
  sourceAddress : Address
  clientMode : Nat
  reserved1 : Vector UInt8 4

/-- `RinDhcpv6TransportTransmitV1`. -/
structure TransportTransmit where
  version : Nat
  structSize : Nat
  clientTransmit : Transmit
  sourcePort : Nat
  destinationPort : Nat
  sourceMac : Vector UInt8 6
  destinationIsMulticast : Nat
  reserved0 : Nat
  sourceAddress : Address
  destinationAddress : Address

/-- `RinDhcpv6TransportV1`. -/
structure Transport where
  version : Nat
  structSize : Nat
  initialized : Nat
  serverAddressPresent : Nat
  transportGeneration : Nat
  config : TransportConfig
  client : Client
  serverAddress : Address
  reserved0 : Vector UInt8 8

/-- `bytes_all_zero`. -/
def bytesAllZero {n : Nat} (bytes : Vector UInt8 n) : Bool := bytes.toList.all (· == 0)

/-- `mac_valid`. -/
def macValid (mac : Vector UInt8 6) : Bool := mac.toList.getD 0 0 &&& 1 == 0 && !bytesAllZero mac

/-- `ipv6_unicast_valid`. -/
def ipv6UnicastValid (address : Address) : Bool := address.toList.getD 0 0 != 0xff && !bytesAllZero address

/-- `ipv6_link_local_valid`. -/
def ipv6LinkLocalValid (address : Address) : Bool :=
  ipv6UnicastValid address && address.toList.getD 0 0 == 0xfe && address.toList.getD 1 0 &&& 0xc0 == 0x80

/-- `config_valid`. -/
def TransportConfig.valid (config : TransportConfig) : Bool :=
  config.version = 1 && config.structSize = 48 && config.interfaceGeneration ≠ 0 && macValid config.mac &&
  ipv6LinkLocalValid config.sourceAddress && bytesAllZero config.reserved0 && config.clientMode ≤ 1 &&
  bytesAllZero config.reserved1

/-- `state_valid`. -/
def Transport.valid (t : Transport) : Bool :=
  t.version = 1 && t.structSize = 936 && t.initialized = 1 && t.transportGeneration ≠ 0 && t.config.valid &&
  t.serverAddressPresent ≤ 1 &&
  (if t.serverAddressPresent = 0 then bytesAllZero t.serverAddress else ipv6UnicastValid t.serverAddress) &&
  bytesAllZero t.reserved0 && t.client.Valid

/-- `random_bytes`: the three bytes of each call, or none where it fails. -/
abbrev Draws := Nat → Option (UInt8 × UInt8 × UInt8)

/-- The transaction in three random bytes. -/
def drawn (random : UInt8 × UInt8 × UInt8) : Nat :=
  random.1.toNat * 65536 + random.2.1.toNat * 256 + random.2.2.toNat

/-- `random_transaction_id`, with the attempts that are left. -/
def randomTransactionId (c : Client) (draws : Draws) : (left attempt : Nat) → Option Nat
  | 0, _ => none
  | left + 1, attempt =>
      match draws attempt with
      | none => none
      | some random =>
          if drawn random ≠ 0 ∧ drawn random ≠ c.transactionId then some (drawn random)
          else randomTransactionId c draws left (attempt + 1)

/-- `transmit_needs_new_transaction`. -/
def transmitNeedsNewTransaction (c : Client) (nowMs : Nat) : Bool :=
  match c.state with
  | .idle => c.transactionId = 0
  | .advertised => true
  | .bound | .informationBound => c.renewAtMs ≤ nowMs
  | .reconfigureInformationRequesting | .reconfigureRebinding =>
      c.offerT1Seconds = retransmissionNotStarted && c.nextTransmitMs ≤ nowMs
  | .renewing => c.rebindAtMs ≤ nowMs
  | _ => false

/-- The multicast address of all servers and relays. -/
def allServersAndRelays : Address := #v[0xff, 2, 0, 0, 0, 0, 0, 0, 0, 0, 0, 0, 0, 1, 0, 2]

/-- `make_transmit`; a status leaves the output zero. -/
def Transport.makeTransmit (t : Transport) : Except TransportStatus TransportTransmit :=
  let pending := t.client.pending
  if t.valid = false ∨ t.client.pendingPresent = false then .error .invalidArgument
  else if pending.kind = .none then .error .invalidState
  else
    let multicast := decide (pending.kind = .solicit ∨ pending.kind = .rebind ∨ pending.kind = .informationRequest)
    if multicast = false ∧ (t.serverAddressPresent ≠ 1 ∨ ipv6UnicastValid t.serverAddress = false) then
      .error .invalidState
    else .ok {
      version := 1
      structSize := 608
      clientTransmit := pending
      sourcePort := 546
      destinationPort := 547
      sourceMac := t.config.mac
      destinationIsMulticast := if multicast then 1 else 0
      reserved0 := 0
      sourceAddress := t.config.sourceAddress
      destinationAddress := if multicast then allServersAndRelays else t.serverAddress }

/-- The transaction handed to the client where a retransmission is expected. -/
def placeholderId : Nat := 1

/-- `rin_dhcpv6_transport_prepare`. -/
def Transport.prepare (t : Transport) (nowMs : Nat) (randomBytes : Option Draws) (output : Bool) :
    Except TransportStatus TransportTransmit × Transport :=
  match randomBytes with
  | none => (.error .invalidArgument, t)
  | some draws =>
      if t.valid = false ∨ output = false then (.error .invalidArgument, t)
      else if t.client.pendingPresent = true then (t.makeTransmit, t)
      else
        match if transmitNeedsNewTransaction t.client nowMs then randomTransactionId t.client draws 8 0
          else some placeholderId with
        | none => (.error .randomFailure, t)
        | some transactionId =>
            let prepared := t.client.prepare transactionId nowMs true
            let t := { t with client := prepared.client }
            -- `clear_server_address`
            let t := if prepared.status = .leaseExpired then
              { t with serverAddressPresent := 0, serverAddress := .zero } else t
            if prepared.status ≠ .packetReady then (.error (.client prepared.status), t)
            else (t.makeTransmit, t)

/-! ## §2. New exchanges. -/

/-- The transactions of a client: the one of its exchange and the one of its message. -/
def Client.transactions (c : Client) : List Nat :=
  (if c.transactionId = 0 then [] else [c.transactionId]) ++
  if c.pendingPresent then [messageTransaction c.pending.message] else []

/-- The client `c'` has begun an exchange that `c` did not have. -/
def Client.Begins (c c' : Client) (transactionId : Nat) : Prop :=
  transactionId ∈ c'.transactions ∧ transactionId ∉ c.transactions

variable {c : Client} {newTransactionId nowMs transactionId : Nat}

/-- The prediction is right for a client that opens a transaction. -/
theorem needs_of_due (h : c.Valid) (hdue : (c.due nowMs).2 = true) :
    transmitNeedsNewTransaction c nowMs = true := by
  have hbound (hst : c.state = .bound) : c.renewAtMs < c.rebindAtMs := by
    have hlease := h.lease
    rw [if_pos (hasLease_of_state (by rw [hst]; rfl)), Client.LeaseOrdered,
      if_neg (by simp [hst, stateHasAddress])] at hlease
    exact hlease.2.2.1
  have hidle := h.startup
  unfold Client.due at hdue
  unfold transmitNeedsNewTransaction
  cases hst : c.state <;> simp only [hst] at hdue hidle ⊢
  case idle =>
    by_contra hnonzero
    by_cases hdel : c.startupDelayed = true <;> simp_all
  case bound =>
    have hlt := hbound hst
    by_cases hrebind : c.rebindAtMs ≤ nowMs <;> by_cases hrenew : c.renewAtMs ≤ nowMs <;> simp_all
    omega
  all_goals first | rfl | cases hdue | (split at hdue <;> simp_all)

/-- What `prepare` begins is the number it was given, and a transaction was due. -/
theorem prepare_begins {output : Bool}
    (hbegins : c.Begins (c.prepare newTransactionId nowMs output).client transactionId) :
    transmitNeedsNewTransaction c nowMs = true ∧ transactionId = newTransactionId := by
  by_cases h : c.Valid
  swap
  · rw [Client.prepare, if_pos (.inl h)] at hbegins
    exact absurd hbegins.1 hbegins.2
  -- a message that goes out continues an exchange of the client, or begins the one that is due
  have hchosen {id : Nat} (hsends : c.Sends newTransactionId nowMs id)
      (hin : transactionId = id ∨ transactionId ∈ c.transactions) :
      transmitNeedsNewTransaction c nowMs = true ∧ transactionId = newTransactionId := by
    obtain rfl := hin.resolve_right hbegins.2
    have heq := hsends.chosen
    split at heq
    · next hdue => exact ⟨needs_of_due h hdue, heq⟩
    · refine absurd ?_ hbegins.2
      simp [Client.transactions, ← heq, hsends.transaction]
  obtain ⟨hin, hnot⟩ := hbegins
  rcases prepare_cases c newTransactionId nowMs output with ⟨_, heq⟩ | ⟨_, _, _, heq⟩ | ⟨_, heq⟩ |
    ⟨id, hsends, ⟨hst, hnone, heq | heq⟩ | heq⟩ <;> rw [heq] at hin
  · exact absurd hin hnot
  · unfold Client.expireLease at hin
    split at hin
    · exact absurd hin hnot
    · cases hin
  · exact absurd hin hnot
  · refine hchosen hsends (.inl ?_)
    simpa [Client.transactions, Client.chooses, hsends.transaction, hsends.absent] using hin
  · obtain ⟨transmit, hsent, _, hbuilt⟩ := enqueue_eq (startup_valid h hsends hst hnone).1.toFramed
      (c.due nowMs).1 hsends.range nowMs
    rw [hsent] at hin
    refine hchosen hsends (.inl ?_)
    simpa [Client.transactions, Client.chooses, hsends.transaction, hbuilt.transaction] using hin
  obtain ⟨transmit, hsent, _, hbuilt⟩ := enqueue_eq h.toFramed (c.due nowMs).1 hsends.range nowMs
  rw [hsent] at hin
  refine hchosen hsends ?_
  simp only [Client.transactions, hbuilt.transaction, if_true, List.mem_append, List.mem_singleton] at hin
  exact hin.symm.imp_right fun hmem => List.mem_append_left _ hmem

/-- What is drawn comes from one of the attempts. -/
theorem randomTransactionId_drawn {draws : Draws} {left attempt : Nat}
    (h : randomTransactionId c draws left attempt = some transactionId) :
    ∃ k < attempt + left, (draws k).map drawn = some transactionId := by
  induction left generalizing attempt with
  | zero => cases h
  | succ left ih =>
    unfold randomTransactionId at h
    split at h
    · cases h
    next random hdraw =>
    split at h
    · exact ⟨attempt, by omega, by rw [hdraw]; exact h⟩
    · obtain ⟨k, hk, hdrawn⟩ := ih h
      exact ⟨k, by omega, hdrawn⟩

/-- **New exchanges have drawn numbers.** The transport expects a new transaction wherever the client begins
    one; so nothing begins with the placeholder, and the number of every exchange comes from `random_bytes`. -/
theorem transport_draws (t : Transport) (nowMs : Nat) :
    (∀ newTransactionId transactionId,
      t.client.Begins (t.client.prepare newTransactionId nowMs true).client transactionId →
      transmitNeedsNewTransaction t.client nowMs = true) ∧
    (transmitNeedsNewTransaction t.client nowMs = false → ∀ transactionId,
      ¬ t.client.Begins (t.client.prepare placeholderId nowMs true).client transactionId) ∧
    ∀ (draws : Draws) (output : Bool) (transactionId : Nat),
      t.client.Begins (t.prepare nowMs (some draws) output).2.client transactionId →
      ∃ k < 8, (draws k).map drawn = some transactionId := by
  refine ⟨fun _ _ hbegins => (prepare_begins hbegins).1, fun hneeds _ hbegins => ?_,
    fun draws output transactionId hbegins => ?_⟩
  · cases hneeds.symm.trans (prepare_begins hbegins).1
  unfold Transport.prepare at hbegins
  dsimp only at hbegins
  split at hbegins
  · exact absurd hbegins.1 hbegins.2
  split at hbegins
  · exact absurd hbegins.1 hbegins.2
  split at hbegins
  · exact absurd hbegins.1 hbegins.2
  next id hid =>
  have hclient : t.client.Begins (t.client.prepare id nowMs true).client transactionId := by
    split at hbegins <;> split at hbegins <;> exact hbegins
  obtain ⟨hneeds, rfl⟩ := prepare_begins hclient
  rw [if_pos hneeds] at hid
  obtain ⟨k, hk, hdrawn⟩ := randomTransactionId_drawn hid
  exact ⟨k, by omega, hdrawn⟩

/-- The transport of a new client. -/
def sampleTransport : Transport where
  version := 1
  structSize := 936
  initialized := 1
  serverAddressPresent := 0
  transportGeneration := 1
  config := ⟨1, 48, 1, #v[2, 0, 0, 0, 0, 1], #v[0, 0], #v[0xfe, 0x80, 0, 0, 0, 0, 0, 0, 0, 0, 0, 0, 0, 0, 0, 1], 0,
    #v[0, 0, 0, 0]⟩
  client := sampleClient
  serverAddress := .zero
  reserved0 := .replicate 8 0

/-- The first exchange of a new client, at the second draw. -/
theorem transport_draws_second :
    let draws : Draws := fun k => some (0, 0, if k = 0 then 0 else 5)
    sampleTransport.client.Begins (sampleTransport.prepare 1000 (some draws) true).2.client 5 ∧
      ∃ k < 8, (draws k).map drawn = some 5 := by
  intro draws
  have hbegins : sampleTransport.client.Begins (sampleTransport.prepare 1000 (some draws) true).2.client 5 :=
    ⟨by decide +kernel, by decide +kernel⟩
  exact ⟨hbegins, (transport_draws sampleTransport 1000).2.2 draws true 5 hbegins⟩

end RinRuntime.Dhcpv6

/-
Dhcpv6.Message — the messages of the DHCPv6 client.

The checks of identifiers and addresses, the parser of Advertise and Reply messages and the builder of the
client's own. A buffer with a count is the list of its used bytes; those behind them are zero in every
buffer the client fills. Numbers are natural numbers; the random generator computes in `uint32_t`.
-/
import Mathlib.Algebra.Group.Nat.Defs
import Mathlib.Data.Nat.Basic
import RinRuntime.Lib.Tlv

namespace RinRuntime.Dhcpv6
open Lib.Tlv

/-! ## §1. Numbers and enumerations. -/

/-- `UINT64_MAX`. -/
def maxUInt64 : Nat := 2 ^ 64 - 1

/-- `UINT32_MAX`. -/
def maxUInt32 : Nat := 2 ^ 32 - 1

/-- `RIN_DHCPV6_MAX_MESSAGE_SIZE`. -/
def maxMessageSize : Nat := 512

/-- `RIN_DHCPV6_MAX_DUID_SIZE`. -/
def maxDuidSize : Nat := 32

/-- `RIN_DHCPV6_MAX_DNS_SERVERS`. -/
def maxDnsServers : Nat := 3

/-- `RIN_DHCPV6_MAX_IA_ADDRESSES`. -/
def maxIaAddresses : Nat := 4

/-- `DHCPV6_MAX_OPTIONS`. -/
def maxOptions : Nat := 32

/-- `DHCPV6_MAX_NESTED_OPTIONS`. -/
def maxNestedOptions : Nat := 16

/-- `DHCPV6_MIN_VALID_SECONDS`. -/
def minValidSeconds : Nat := 60

/-- `DHCPV6_MAX_VALID_SECONDS`: thirty days. -/
def maxValidSeconds : Nat := 30 * 24 * 60 * 60

/-- The codes of the options, `DHCPV6_OPTION_…`. -/
def optionClientId : Nat := 1
@[inherit_doc optionClientId] def optionServerId : Nat := 2
@[inherit_doc optionClientId] def optionIaNa : Nat := 3
@[inherit_doc optionClientId] def optionIaAddress : Nat := 5
@[inherit_doc optionClientId] def optionOro : Nat := 6
@[inherit_doc optionClientId] def optionPreference : Nat := 7
@[inherit_doc optionClientId] def optionElapsedTime : Nat := 8
@[inherit_doc optionClientId] def optionStatusCode : Nat := 13
@[inherit_doc optionClientId] def optionReconfigureAccept : Nat := 20
@[inherit_doc optionClientId] def optionDnsServers : Nat := 23
@[inherit_doc optionClientId] def optionInformationRefreshTime : Nat := 32
@[inherit_doc optionClientId] def optionSolMaxRt : Nat := 82
@[inherit_doc optionClientId] def optionInfMaxRt : Nat := 83

/-- `RinDhcpv6Status`. -/
inductive Status where
  | ok
  | packetReady
  | offerReady
  | leaseReady
  | leaseExpired
  | invalidArgument
  | invalidState
  | malformedPacket
  | notForUs
  | serverRejected
  | clockRollback
  | busy
  | rangeExhausted
  | notFound
  deriving DecidableEq, Repr

/-- `RinDhcpv6TransmitKind`; `none` is `RIN_DHCPV6_TRANSMIT_NONE`. -/
inductive TransmitKind where
  | none
  | solicit
  | request
  | renew
  | rebind
  | informationRequest
  deriving DecidableEq, Repr

/-- The value of a kind, which is also the type of its message. -/
def TransmitKind.code : TransmitKind → UInt8
  | .none => 0
  | .solicit => 1
  | .request => 3
  | .renew => 5
  | .rebind => 6
  | .informationRequest => 11

/-- The types of the server's messages. -/
def messageAdvertise : UInt8 := 2
@[inherit_doc messageAdvertise] def messageReply : UInt8 := 7

/-! ## §2. Identifiers, addresses and lifetimes. -/

/-- An IPv6 address. -/
abbrev Address := Vector UInt8 16

/-- The address of zeros, which stands for none. -/
def Address.zero : Address := Vector.replicate 16 0

/-- The address in the first sixteen bytes. -/
def Address.read (bytes : List UInt8) : Address := Vector.ofFn fun i => bytes.getD i 0

/-- `duid_valid`. -/
def duidValid (duid : List UInt8) : Bool :=
  let size := duid.length
  let type := load16 duid
  if size < 5 ∨ maxDuidSize < size then false
  else if (type = 1 ∧ size < 9) ∨ (type = 2 ∧ size < 7) ∨ (type = 3 ∧ size < 5) ∨ (type = 4 ∧ size ≠ 18) ∨
      type = 0 ∨ 4 < type then false
  else (duid.drop 2).any (· != 0)

/-- `address_usable`, and `dns_address_usable`. -/
def addressUsable (address : Address) : Bool :=
  let bytes := address.toList
  if bytes.getD 0 0 = 0xff ∨ (bytes.getD 0 0 = 0xfe ∧ bytes.getD 1 0 &&& 0xc0 = 0x80) then false
  else bytes.any (· != 0)

@[simp] theorem addressUsable_zero : addressUsable Address.zero = false := by decide

theorem ne_nil_of_duidValid {duid : List UInt8} (h : duidValid duid = true) : duid ≠ [] := by
  rintro rfl
  exact absurd h (by decide)

/-- `lifetimes_normalize`: the renewal times in effect, or none where the lifetimes are refused. -/
def lifetimesNormalize (valid preferred t1 t2 : Nat) : Option (Nat × Nat) :=
  if valid < minValidSeconds ∨ maxValidSeconds < valid ∨ valid < preferred then none
  else
    let times :=
      if t1 = 0 ∧ t2 = 0 then
        let t2 := valid / 5 * 4
        some (valid / 2, if valid ≤ t2 then valid - 1 else t2)
      else if t1 = 0 ∨ t2 = 0 then none
      else some (t1, t2)
    times.filter fun times => times.1 ≠ 0 ∧ times.1 < times.2 ∧ times.2 < valid

/-- Times that pass are ordered, and the lifetimes they belong to are within their bounds. -/
theorem lifetimesNormalize_ordered {valid preferred t1 t2 : Nat} {times : Nat × Nat}
    (h : lifetimesNormalize valid preferred t1 t2 = some times) :
    times.1 ≠ 0 ∧ times.1 < times.2 ∧ times.2 < valid ∧ preferred ≤ valid ∧ valid ≤ maxValidSeconds := by
  unfold lifetimesNormalize at h
  split at h
  · cases h
  rename_i hbounds
  have hord := of_decide_eq_true (Option.filter_eq_some_iff.mp h).2
  exact ⟨hord.1, hord.2.1, hord.2.2, by omega, by omega⟩

/-- `information_refresh_normalize`. -/
def informationRefreshNormalize (refreshSeconds : Nat) : Nat :=
  let refreshSeconds := if refreshSeconds = 0 then 24 * 60 * 60 else refreshSeconds
  let refreshSeconds := if refreshSeconds < 600 then 600 else refreshSeconds
  if 24 * 60 * 60 < refreshSeconds then 24 * 60 * 60 else refreshSeconds

theorem informationRefreshNormalize_pos (refreshSeconds : Nat) :
    0 < informationRefreshNormalize refreshSeconds := by
  unfold informationRefreshNormalize
  dsimp only
  by_cases hzero : refreshSeconds = 0
  · rw [if_pos hzero]
    decide
  · rw [if_neg hzero]
    split <;> split <;> omega

/-- `deadline_from_seconds`. -/
def deadlineFromSeconds (nowMs seconds : Nat) : Option Nat :=
  let duration := seconds * 1000
  if maxUInt64 - duration < nowMs then none else some (nowMs + duration)

theorem deadlineFromSeconds_eq {nowMs seconds deadline : Nat}
    (h : deadlineFromSeconds nowMs seconds = some deadline) :
    deadline = nowMs + seconds * 1000 ∧ (seconds * 1000 ≤ maxUInt64 → deadline ≤ maxUInt64) := by
  unfold deadlineFromSeconds at h
  dsimp only at h
  split at h
  · cases h
  rename_i hle
  obtain rfl := Option.some.inj h
  exact ⟨rfl, by omega⟩

/-! ## §3. Messages of the server. -/

/-- `ParsedIaAddress`. -/
structure IaAddress where
  address : Address
  preferredSeconds : Nat
  validSeconds : Nat
  statusCode : Nat
  deriving DecidableEq

/-- `ParsedMessage`. -/
structure Parsed where
  clientDuid : List UInt8
  serverDuid : List UInt8
  address : Address
  iaAddresses : List IaAddress
  dnsServers : List Address
  preferredSeconds : Nat
  validSeconds : Nat
  t1Seconds : Nat
  t2Seconds : Nat
  statusCode : Nat
  iaid : Nat
  clientSeen : Bool
  serverSeen : Bool
  iaSeen : Bool
  addressSeen : Bool
  dnsSeen : Bool
  statusSeen : Bool
  preferenceSeen : Bool
  informationRefreshSeconds : Nat
  informationRefreshSeen : Bool
  solMaxRtSeconds : Nat
  solMaxRtSeen : Bool
  infMaxRtSeconds : Nat
  infMaxRtSeen : Bool
  structuralValid : Bool
  deriving DecidableEq

/-- A message of which nothing is parsed. -/
def Parsed.zero : Parsed where
  clientDuid := []
  serverDuid := []
  address := .zero
  iaAddresses := []
  dnsServers := []
  preferredSeconds := 0
  validSeconds := 0
  t1Seconds := 0
  t2Seconds := 0
  statusCode := 0
  iaid := 0
  clientSeen := false
  serverSeen := false
  iaSeen := false
  addressSeen := false
  dnsSeen := false
  statusSeen := false
  preferenceSeen := false
  informationRefreshSeconds := 0
  informationRefreshSeen := false
  solMaxRtSeconds := 0
  solMaxRtSeen := false
  infMaxRtSeconds := 0
  infMaxRtSeen := false
  structuralValid := false

/-- An option inside an IA address of `parse_ia_na`: the status of the address, where one was seen. -/
def addressOption (status : Option Nat) (code : Nat) (option : List UInt8) : Except Status (Option Nat) :=
  if code = optionStatusCode then
    if status.isSome ∨ option.length < 2 then .error .malformedPacket
    else .ok (some (load16 option))
  else .ok status

/-- An IA address of `parse_ia_na`. -/
def parseIaAddress (parsed : Parsed) (option : List UInt8) : Except Status Parsed :=
  if maxIaAddresses ≤ parsed.iaAddresses.length ∨ option.length < 24 then .error .malformedPacket
  else
    let address := Address.read option
    let preferredSeconds := load32 (option.drop 16)
    let validSeconds := load32 (option.drop 20)
    if addressUsable address = false ∨ maxValidSeconds < validSeconds ∨ validSeconds < preferredSeconds ∨
        (validSeconds = 0 ∧ preferredSeconds ≠ 0) then .error .malformedPacket
    else if parsed.iaAddresses.any (·.address = address) then .error .malformedPacket
    else
      match each .malformedPacket addressOption maxNestedOptions none (option.drop 24) with
      | .error e => .error e
      | .ok status =>
          let candidate : IaAddress := ⟨address, preferredSeconds, validSeconds, status.getD 0⟩
          let parsed := { parsed with
            addressSeen := true
            iaAddresses := parsed.iaAddresses ++ [candidate] }
          -- the first usable address, replaced by the first one with a lifetime
          if candidate.statusCode = 0 ∧ (addressUsable parsed.address = false ∨
              (candidate.validSeconds ≠ 0 ∧ parsed.validSeconds = 0)) then
            .ok { parsed with
              address := candidate.address
              preferredSeconds := candidate.preferredSeconds
              validSeconds := candidate.validSeconds }
          else .ok parsed

/-- An option inside the IA_NA of `parse_ia_na`; the flag says whether a status was seen there. -/
def iaOption (state : Parsed × Bool) (code : Nat) (option : List UInt8) : Except Status (Parsed × Bool) :=
  if code = optionIaAddress then
    match parseIaAddress state.1 option with
    | .error e => .error e
    | .ok parsed => .ok (parsed, state.2)
  else if code = optionStatusCode then
    if state.2 = true ∨ option.length < 2 then .error .malformedPacket
    else if load16 option ≠ 0 then .ok ({ state.1 with statusCode := load16 option }, true)
    else .ok (state.1, true)
  else .ok state

/-- `parse_ia_na`. -/
def parseIaNa (parsed : Parsed) (value : List UInt8) : Except Status Parsed :=
  if value.length < 12 then .error .malformedPacket
  else
    let parsed := { parsed with
      iaid := load32 value
      t1Seconds := load32 (value.drop 4)
      t2Seconds := load32 (value.drop 8) }
    match each .malformedPacket iaOption maxNestedOptions (parsed, false) (value.drop 12) with
    | .error e => .error e
    | .ok state => .ok state.1

/-- The addresses of a list of name servers, each usable and none twice, read after `servers`. -/
def readServers : (count : Nat) → (servers : List Address) → List UInt8 → Option (List Address)
  | 0, servers, _ => some servers
  | count + 1, servers, bytes =>
      let server := Address.read bytes
      if addressUsable server = false ∨ server ∈ servers then none
      else readServers count (servers ++ [server]) (bytes.drop 16)

/-- An option of `parse_message`. -/
def messageOption (parsed : Parsed) (code : Nat) (value : List UInt8) : Except Status Parsed :=
  if code = optionClientId then
    if parsed.clientSeen = true ∨ duidValid value = false then .error .malformedPacket
    else .ok { parsed with clientSeen := true, clientDuid := value }
  else if code = optionServerId then
    if parsed.serverSeen = true ∨ duidValid value = false then .error .malformedPacket
    else .ok { parsed with serverSeen := true, serverDuid := value }
  else if code = optionIaNa then
    if parsed.iaSeen = true then .error .malformedPacket
    else parseIaNa { parsed with iaSeen := true } value
  else if code = optionDnsServers then
    if parsed.dnsSeen = true ∨ value.length = 0 ∨ value.length % 16 ≠ 0 ∨
        maxDnsServers < value.length / 16 then .error .malformedPacket
    else
      match readServers (value.length / 16) [] value with
      | none => .error .malformedPacket
      | some servers => .ok { parsed with dnsSeen := true, dnsServers := servers }
  else if code = optionStatusCode then
    if parsed.statusSeen = true ∨ value.length < 2 then .error .malformedPacket
    else if load16 value ≠ 0 then .ok { parsed with statusSeen := true, statusCode := load16 value }
    else .ok { parsed with statusSeen := true }
  else if code = optionPreference then
    if parsed.preferenceSeen = true ∨ value.length ≠ 1 then .error .malformedPacket
    else .ok { parsed with preferenceSeen := true }
  else if code = optionInformationRefreshTime then
    if parsed.informationRefreshSeen = true ∨ value.length ≠ 4 then .error .malformedPacket
    else .ok { parsed with informationRefreshSeen := true, informationRefreshSeconds := load32 value }
  else if code = optionSolMaxRt then
    if parsed.solMaxRtSeen = true ∨ value.length ≠ 4 then .error .malformedPacket
    else .ok { parsed with solMaxRtSeen := true, solMaxRtSeconds := load32 value }
  else if code = optionInfMaxRt then
    if parsed.infMaxRtSeen = true ∨ value.length ≠ 4 then .error .malformedPacket
    else .ok { parsed with infMaxRtSeen := true, infMaxRtSeconds := load32 value }
  else .ok parsed

/-- `parse_message`: an error, or what was parsed with the verdict `ok` or `serverRejected`. What an error
    leaves half parsed is read by no caller. -/
def parseMessage (message : List UInt8) (expectedType : UInt8) (requireIa : Bool) :
    Except Status (Status × Parsed) :=
  if message.length < 4 ∨ maxMessageSize < message.length ∨ message.getD 0 0 ≠ expectedType then
    .error .malformedPacket
  else
    match each .malformedPacket messageOption maxOptions .zero (message.drop 4) with
    | .error e => .error e
    | .ok parsed =>
        if parsed.clientSeen = false ∨ parsed.serverSeen = false then .error .malformedPacket
        else
          let parsed := { parsed with structuralValid := true }
          if (requireIa = true ∧ parsed.iaSeen = false) ∨
              (requireIa = true ∧ parsed.addressSeen = false ∧ parsed.statusCode = 0) ∨
              (requireIa = false ∧ (parsed.iaSeen = true ∨ parsed.addressSeen = true)) then
            .error .malformedPacket
          else if parsed.statusCode = 0 then .ok (.ok, parsed)
          else .ok (.serverRejected, parsed)

/-- The transaction a message belongs to. -/
def messageTransaction (message : List UInt8) : Nat :=
  (message.getD 1 0).toNat * 65536 + (message.getD 2 0).toNat * 256 + (message.getD 3 0).toNat

theorem messageTransaction_le (message : List UInt8) : messageTransaction message ≤ 0xffffff := by
  have h1 : (message.getD 1 0).toNat < 256 := UInt8.toNat_lt _
  have h2 : (message.getD 2 0).toNat < 256 := UInt8.toNat_lt _
  have h3 : (message.getD 3 0).toNat < 256 := UInt8.toNat_lt _
  unfold messageTransaction
  omega

/-! ## §4. What is parsed is well formed. -/

/-- What the later steps rely on of an address of the message. -/
def IaAddress.Sound (a : IaAddress) : Prop :=
  addressUsable a.address = true ∧ a.preferredSeconds ≤ a.validSeconds ∧ a.validSeconds ≤ maxValidSeconds

/-- What the later steps rely on of a message under way. -/
structure Parsed.Sound (parsed : Parsed) : Prop where
  client : parsed.clientSeen = true → duidValid parsed.clientDuid = true
  server : parsed.serverSeen = true → duidValid parsed.serverDuid = true
  addresses : ∀ a ∈ parsed.iaAddresses, a.Sound
  addressSeen : parsed.addressSeen = true → parsed.iaAddresses ≠ []
  dnsCount : parsed.dnsServers.length ≤ maxDnsServers
  dns : ∀ server ∈ parsed.dnsServers, addressUsable server = true

theorem Parsed.Sound.start : Parsed.zero.Sound where
  client := nofun
  server := nofun
  addresses := nofun
  addressSeen := nofun
  dnsCount := by decide
  dns := nofun

theorem readServers_sound {count : Nat} {servers servers' : List Address} {bytes : List UInt8}
    (h : readServers count servers bytes = some servers')
    (husable : ∀ server ∈ servers, addressUsable server = true) :
    servers'.length = servers.length + count ∧ ∀ server ∈ servers', addressUsable server = true := by
  induction count generalizing servers bytes with
  | zero =>
    obtain rfl : servers = servers' := Option.some.inj h
    exact ⟨rfl, husable⟩
  | succ count ih =>
    rw [readServers] at h
    split at h
    · cases h
    rename_i hnew
    push Not at hnew
    have hall : ∀ server ∈ servers ++ [Address.read bytes], addressUsable server = true := by
      intro server hsrv
      rcases List.mem_append.mp hsrv with hsrv | hsrv
      · exact husable server hsrv
      · rw [List.mem_singleton.mp hsrv]
        exact eq_true_of_ne_false hnew.1
    obtain ⟨hlen, hsound⟩ := ih h hall
    rw [List.length_append, List.length_singleton] at hlen
    exact ⟨by omega, hsound⟩

/-- The fields of a message that say whose it is. -/
def Parsed.identity (parsed : Parsed) :=
  (parsed.clientSeen, parsed.clientDuid, parsed.serverSeen, parsed.serverDuid, parsed.iaSeen, parsed.iaid)

/-- The addresses among options of an association. -/
def addressesIn (items : List Item) : List Address := (values optionIaAddress items).map Address.read

/-- What is kept of the options read so far. -/
structure Parsed.Read (seen : List Item) (parsed : Parsed) : Prop extends Parsed.Sound parsed where
  clients : values optionClientId seen = if parsed.clientSeen then [parsed.clientDuid] else []
  servers : values optionServerId seen = if parsed.serverSeen then [parsed.serverDuid] else []
  association : values optionIaNa seen = [] ∧ parsed.iaSeen = false ∧ parsed.address = .zero ∨
    ∃ association, values optionIaNa seen = [association] ∧ parsed.iaSeen = true ∧
      load32 association = parsed.iaid ∧
      (addressUsable parsed.address = true → parsed.address ∈ addressesIn (options (association.drop 12)))

variable {seen : List Item} {parsed : Parsed}

/-- A step of the parser leads to something with `P`, or to its one error. -/
abbrev Parses {α : Type} (P : α → Prop) : Except Status α → Prop := Yields P (· = .malformedPacket)

theorem each_parses {α : Type} {P : List Item → α → Prop} {handle : α → Nat → List UInt8 → Except Status α}
    {left : Nat} {bytes : List UInt8} {state : α}
    (hstep : ∀ {seen state} code value, P seen state → Parses (P (seen ++ [(code, value)])) (handle state code value))
    (h : P [] state) : Parses (P (options bytes)) (each .malformedPacket handle left state bytes) :=
  each_items (Q := (· = Status.malformedPacket)) rfl hstep [] h (Nat.le_refl _)

theorem addressOption_parses (status : Option Nat) (code : Nat) (option : List UInt8) :
    Parses (fun _ => True) (addressOption status code option) :=
  .ite (fun _ => .ite (fun _ => rfl) fun _ => trivial) fun _ => trivial

theorem parseIaAddress_read (h : parsed.Sound) (option : List UInt8) :
    Parses (fun parsed' => parsed'.Sound ∧ parsed'.identity = parsed.identity ∧
      (parsed'.address = parsed.address ∨ parsed'.address = Address.read option)) (parseIaAddress parsed option) := by
  have hnested : Parses (fun _ => True) (each .malformedPacket addressOption maxNestedOptions none (option.drop 24)) :=
    each_parses (P := fun _ _ => True) (fun code value _ => addressOption_parses _ code value) trivial
  unfold parseIaAddress
  -- neither the loop nor the address is to be computed
  generalize each .malformedPacket addressOption maxNestedOptions none (option.drop 24) = nested at hnested ⊢
  generalize Address.read option = address
  refine .ite (fun _ => rfl) fun _ => .ite (fun _ => rfl) fun hfields => .ite (fun _ => rfl) fun _ => ?_
  cases nested with
  | error e => exact hnested
  | ok status =>
    push Not at hfields
    have hnew : IaAddress.Sound ⟨address, load32 (option.drop 16), load32 (option.drop 20),
        status.getD 0⟩ :=
      ⟨eq_true_of_ne_false hfields.1, hfields.2.2.1, hfields.2.1⟩
    have hsound : Parsed.Sound { parsed with
        addressSeen := true
        iaAddresses := parsed.iaAddresses ++ [⟨address, load32 (option.drop 16),
          load32 (option.drop 20), status.getD 0⟩] } :=
      { h with
        addresses := List.forall_mem_append.mpr ⟨h.addresses, List.forall_mem_singleton.mpr hnew⟩
        addressSeen := fun _ => List.append_ne_nil_of_right_ne_nil _ (List.cons_ne_nil _ []) }
    exact .ite (fun _ => ⟨{ hsound with }, rfl, Or.inr rfl⟩) fun _ => ⟨hsound, rfl, Or.inl rfl⟩

/-- A message under way inside its association: it says whose it is as `start` does, and a usable address of
    it is one that was listed. -/
structure Lists (start : Parsed) (seen : List Item) (parsed : Parsed) : Prop extends Parsed.Sound parsed where
  identity : parsed.identity = start.identity
  listed : addressUsable parsed.address = true → parsed.address ∈ addressesIn seen

theorem iaOption_read {start : Parsed} {state : Parsed × Bool} (code : Nat) (option : List UInt8)
    (h : Lists start seen state.1) :
    Parses (fun state => Lists start (seen ++ [(code, option)]) state.1) (iaOption state code option) := by
  have hmore : addressesIn (seen ++ [(code, option)]) =
      addressesIn seen ++ if code = optionIaAddress then [Address.read option] else [] := by
    unfold addressesIn
    rw [values_append, List.map_append]
    split <;> rfl
  have hkept : Lists start (seen ++ [(code, option)]) state.1 :=
    { h with listed := fun husable => hmore ▸ List.mem_append_left _ (h.listed husable) }
  refine .ite (fun hcode => ?_) fun _ =>
    .ite (fun _ => .ite (fun _ => rfl) fun _ => .ite (fun _ => { hkept with }) fun _ => hkept) fun _ => hkept
  have hparsed := parseIaAddress_read h.toSound option
  split
  next hfail =>
    rw [hfail] at hparsed
    exact hparsed
  next hok =>
    rw [hok] at hparsed
    obtain ⟨hsound, hid, haddr⟩ := hparsed
    refine { hsound with identity := hid.trans h.identity, listed := fun husable => ?_ }
    rcases haddr with hsame | hread
    · exact hsame ▸ hkept.listed (hsame ▸ husable)
    · rw [hmore, if_pos hcode]
      exact List.mem_append_right _ (List.mem_singleton.mpr hread)

theorem parseIaNa_read (h : parsed.Sound) (hzero : parsed.address = .zero) (value : List UInt8) :
    Parses (Lists { parsed with iaid := load32 value } (options (value.drop 12))) (parseIaNa parsed value) := by
  unfold parseIaNa
  dsimp only
  refine .ite (fun _ => rfl) fun _ => ?_
  have hloop := @each_parses _ (fun seen state => Lists { parsed with iaid := load32 value } seen state.1) iaOption
    maxNestedOptions (value.drop 12) ({ parsed with
      iaid := load32 value
      t1Seconds := load32 (value.drop 4)
      t2Seconds := load32 (value.drop 8) }, false) iaOption_read { h with
        identity := rfl
        listed := fun husable => by rw [hzero] at husable; cases husable }
  split
  next hfail =>
    rw [hfail] at hloop
    exact hloop
  next hok =>
    rw [hok] at hloop
    exact hloop

theorem messageOption_read (code : Nat) (value : List UInt8) (h : parsed.Read seen) :
    Parses (Parsed.Read (seen ++ [(code, value)])) (messageOption parsed code value) := by
  have hsame {code' : Nat} (hne : code ≠ code') : values code' (seen ++ [(code, value)]) = values code' seen := by
    rw [values_append, if_neg hne, List.append_nil]
  have hnew {code' : Nat} (hcode : code = code') : values code' (seen ++ [(code, value)]) =
      values code' seen ++ [value] := by
    rw [values_append, if_pos hcode]
  -- an option that is checked and fills fields of its own
  have hstored {refused : Prop} [Decidable refused] {stored : Parsed}
      (hstored : ¬ refused → stored.Read (seen ++ [(code, value)])) :
      Parses (Parsed.Read (seen ++ [(code, value)])) (if refused then .error .malformedPacket else .ok stored) :=
    .ite (fun _ => rfl) hstored
  refine .ite (fun hcode => hstored fun hfst => ?_) fun hclient =>
    .ite (fun hcode => hstored fun hfst => ?_) fun hsrv =>
    .ite (fun hcode => .ite (fun _ => rfl) fun hfst => ?_) fun hia => ?_
  · push Not at hfst
    have hvalue := hnew hcode
    rw [h.clients, if_neg hfst.1] at hvalue
    subst hcode
    exact { h with
      client := fun _ => eq_true_of_ne_false hfst.2
      clients := hvalue
      servers := (hsame (by decide)).trans h.servers
      association := by rw [hsame (by decide)]; exact h.association }
  · push Not at hfst
    have hvalue := hnew hcode
    rw [h.servers, if_neg hfst.1] at hvalue
    exact { h with
      server := fun _ => eq_true_of_ne_false hfst.2
      clients := (hsame hclient).trans h.clients
      servers := hvalue
      association := by subst hcode; rw [hsame (by decide)]; exact h.association }
  · obtain ⟨hnone, _, hzero⟩ | ⟨_, _, hseen, _⟩ := h.association
    · have hvalue := hnew hcode
      rw [hnone] at hvalue
      have hsound : Parsed.Sound { parsed with iaSeen := true } := { h with }
      refine (parseIaNa_read hsound hzero value).imp fun parsed' hlists => ?_
      have hid := hlists.identity
      simp only [Parsed.identity, Prod.mk.injEq] at hid
      obtain ⟨hclientSeen, hclientDuid, hserverSeen, hserverDuid, hiaSeen, hiaid⟩ := hid
      exact { hlists with
        clients := by rw [hsame hclient, hclientSeen, hclientDuid]; exact h.clients
        servers := by rw [hsame hsrv, hserverSeen, hserverDuid]; exact h.servers
        association := Or.inr ⟨value, hvalue, hiaSeen, hiaid.symm, hlists.listed⟩ }
    · exact absurd hseen hfst
  have hkept : parsed.Read (seen ++ [(code, value)]) := { h with
    clients := (hsame hclient).trans h.clients
    servers := (hsame hsrv).trans h.servers
    association := by rw [hsame hia]; exact h.association }
  refine .ite (fun _ => .ite (fun _ => rfl) fun hsize => ?_) fun _ =>
    .ite (fun _ => .ite (fun _ => rfl) fun _ => .ite (fun _ => { hkept with }) fun _ => { hkept with }) fun _ =>
    .ite (fun _ => hstored fun _ => { hkept with }) fun _ => .ite (fun _ => hstored fun _ => { hkept with }) fun _ =>
    .ite (fun _ => hstored fun _ => { hkept with }) fun _ => .ite (fun _ => hstored fun _ => { hkept with }) fun _ => hkept
  split
  · rfl
  next servers hread =>
    obtain ⟨hlen, husable⟩ := readServers_sound hread nofun
    rw [List.length_nil] at hlen
    exact { hkept with dnsCount := (by omega : servers.length ≤ maxDnsServers), dns := husable }

/-- The loop over the options of a message. -/
theorem options_read (bytes : List UInt8) :
    Parses (Parsed.Read (options bytes)) (each .malformedPacket messageOption maxOptions .zero bytes) :=
  each_parses messageOption_read ⟨.start, rfl, rfl, Or.inl ⟨rfl, rfl, rfl⟩⟩

/-- **What `parse_message` hands on.** The identifiers, addresses and name servers stand in the message and
    have passed their checks, and the association is there exactly where it is asked for. -/
theorem parseMessage_spec {message : List UInt8} {expectedType : UInt8} {requireIa : Bool} {status : Status}
    {parsed : Parsed} (h : parseMessage message expectedType requireIa = .ok (status, parsed)) :
    message.getD 0 0 = expectedType ∧ parsed.Read (options (message.drop 4)) ∧ parsed.clientSeen = true ∧ parsed.serverSeen = true ∧ parsed.structuralValid = true ∧
      parsed.iaSeen = requireIa ∧ (requireIa = false → parsed.addressSeen = false) ∧
      (status = .ok ∧ parsed.statusCode = 0 ∧ (requireIa = true → parsed.addressSeen = true) ∨
        status = .serverRejected ∧ parsed.statusCode ≠ 0) := by
  unfold parseMessage at h
  split at h
  · cases h
  rename_i htype
  push Not at htype
  split at h
  · cases h
  rename_i loop hloop
  have hread := options_read (message.drop 4)
  rw [hloop] at hread
  split at h
  · cases h
  rename_i hseen
  push Not at hseen
  dsimp only at h
  split at h
  · cases h
  rename_i hia
  push Not at hia
  have hmade : Parsed.Read (options (message.drop 4)) { loop with structuralValid := true } := { hread with }
  have hiaSeen : loop.iaSeen = requireIa := by
    cases requireIa with
    | true => exact eq_true_of_ne_false (hia.1 rfl)
    | false => exact eq_false_of_ne_true (hia.2.2 rfl).1
  have haddr : requireIa = false → loop.addressSeen = false :=
    fun hfalse => eq_false_of_ne_true (hia.2.2 hfalse).2
  split at h
  · rename_i hstat
    obtain ⟨rfl, rfl⟩ := Prod.mk.inj (Except.ok.inj h)
    refine ⟨htype.2.2, hmade, eq_true_of_ne_false hseen.1, eq_true_of_ne_false hseen.2, rfl, hiaSeen, haddr,
      Or.inl ⟨rfl, hstat, ?_⟩⟩
    intro hrequired
    by_contra hnone
    exact hia.2.1 hrequired (eq_false_of_ne_true hnone) hstat
  rename_i hstat
  obtain ⟨rfl, rfl⟩ := Prod.mk.inj (Except.ok.inj h)
  exact ⟨htype.2.2, hmade, eq_true_of_ne_false hseen.1, eq_true_of_ne_false hseen.2, rfl, hiaSeen, haddr,
    Or.inr ⟨rfl, hstat⟩⟩

/-- The parser has one error. -/
theorem parseMessage_error {message : List UInt8} {expectedType : UInt8} {requireIa : Bool} {status : Status}
    (h : parseMessage message expectedType requireIa = .error status) : status = .malformedPacket := by
  have hloop := options_read (message.drop 4)
  unfold parseMessage at h
  split at h
  · cases h; rfl
  split at h
  · rename_i hfail
    cases h
    rw [hfail] at hloop
    exact hloop
  split at h
  · cases h; rfl
  dsimp only at h
  split at h
  · cases h; rfl
  split at h <;> cases h

/-! ## §5. Messages of the client. -/

/-- `append_option`: none where the option does not fit the buffer. -/
def appendOption (message : List UInt8) (code : Nat) (value : List UInt8) : Option (List UInt8) :=
  let message' := message ++ Item.encode (code, value)
  if message'.length ≤ maxMessageSize then some message' else none

/-- `append_ia_na`. -/
def appendIaNa (message : List UInt8) (iaid : Nat) (address : Option Address) : Option (List UInt8) :=
  let association := store32 iaid ++ store32 0 ++ store32 0
  match address with
  | none => appendOption message optionIaNa association
  | some address =>
      appendOption message optionIaNa (association ++ store16 optionIaAddress ++ store16 24 ++
        address.toList ++ store32 0 ++ store32 0)

end RinRuntime.Dhcpv6

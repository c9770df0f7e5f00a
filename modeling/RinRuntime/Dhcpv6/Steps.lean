/-
Dhcpv6.Steps — what the calls of the client make of a valid record.

Validity is taken apart the way the calls need it. The frame (identity, lease, message, state) and the
timers are kept by different parts of a call; messages move the state only between states that agree on
server, address and lease (`move_flags`); every randomised interval stays within a tenth of its base
(`randomizedRt_bounds`).
-/
import RinRuntime.Dhcpv6.Client

namespace RinRuntime.Dhcpv6
open Lib.Tlv

/-! ## §1. Intervals. -/

theorem randomBounded_lt (seed : UInt32) {bound : Nat} (hbound : 0 < bound) :
    randomBounded seed bound < bound := by
  have hword : (scramble seed).toNat < 2 ^ 32 := UInt32.toNat_lt _
  unfold randomBounded
  rw [Nat.div_lt_iff_lt_mul (by decide), Nat.mul_comm bound]
  exact Nat.mul_lt_mul_of_pos_right hword hbound

/-- A factor of at most a thousand ten-thousandths is at most a tenth. -/
theorem scaled_le (base : Nat) {factor : Nat} (hfactor : factor ≤ 1000) :
    base * factor / 10000 ≤ base / 10 := by
  calc base * factor / 10000 ≤ base * 1000 / 10000 :=
        Nat.div_le_div_right (Nat.mul_le_mul_left base hfactor)
    _ = base / 10 := Nat.mul_div_mul_right base 10 (by decide)

/-- A randomised interval is within a tenth of its base. -/
theorem randomizedRt_bounds (c : Client) (base : Nat) (first : Bool) (kind : TransmitKind)
    (transactionId sequence : Nat) :
    base - base / 10 ≤ randomizedRt c base first kind transactionId sequence ∧
      randomizedRt c base first kind transactionId sequence ≤ base + base / 10 := by
  unfold randomizedRt
  dsimp only
  generalize randomEventSeed c transactionId sequence (0x52540000 ^^^ UInt32.ofNat kind.code.toNat) = seed
  have hfst : randomBounded seed 1000 < 1000 := randomBounded_lt seed (by decide)
  have hlater : randomBounded seed 2001 < 2001 := randomBounded_lt seed (by decide)
  have hfactor : (if first = true then (randomBounded seed 1000 : Int) + 1
      else (randomBounded seed 2001 : Int) - 1000).natAbs ≤ 1000 := by
    split <;> omega
  have hmagnitude := scaled_le base hfactor
  generalize (if first = true then (randomBounded seed 1000 : Int) + 1
      else (randomBounded seed 2001 : Int) - 1000) = factor at hmagnitude ⊢
  split <;> omega

/-- A deadline of the phase behind the present moves the next message forward, not before the present. -/
theorem le_earlierDeadline {nowMs deadline phaseEnd : Nat} (hdeadline : nowMs ≤ deadline)
    (hph : phaseEnd ≠ 0 → nowMs ≤ phaseEnd) : nowMs ≤ earlierDeadline deadline phaseEnd := by
  unfold earlierDeadline
  split
  · rename_i h
    exact hph h.1
  · exact hdeadline

variable {c : Client} {transactionId : Nat} {kind : TransmitKind} {message : List UInt8} {m : Move}
  {state : State}

/-- The first interval of a kind is no longer than the longest. -/
theorem irt_le_mrt (h : c.Framed) (kind : TransmitKind) :
    retransmissionIrtMs kind ≤ retransmissionMrtMs c kind := by
  have hsol : 60 ≤ c.offerPreferredSeconds := h.solMaxRt.1
  have hinf : 60 ≤ c.offerValidSeconds := h.infMaxRt.1
  cases kind with
  | solicit => show 1000 ≤ c.offerPreferredSeconds * 1000; omega
  | informationRequest => show 1000 ≤ c.offerValidSeconds * 1000; omega
  | none => exact Nat.le_refl _
  | request => exact (by decide : 1000 ≤ 30000)
  | renew | rebind => exact (by decide : 10000 ≤ 600000)

/-- The longest interval, a tenth longer, fits in the room the clock must leave. -/
theorem mrt_le_room (h : c.Framed) (kind : TransmitKind) :
    retransmissionMrtMs c kind + retransmissionMrtMs c kind / 10 ≤ maxRandomizedRtMs := by
  have hsol : c.offerPreferredSeconds ≤ 86400 := h.solMaxRt.2
  have hinf : c.offerValidSeconds ≤ 86400 := h.infMaxRt.2
  cases kind with
  | solicit =>
    show c.offerPreferredSeconds * 1000 + c.offerPreferredSeconds * 1000 / 10 ≤ 95040000
    omega
  | informationRequest =>
    show c.offerValidSeconds * 1000 + c.offerValidSeconds * 1000 / 10 ≤ 95040000
    omega
  | none => exact (by decide : 1000 + 1000 / 10 ≤ 95040000)
  | request => exact (by decide : 30000 + 30000 / 10 ≤ 95040000)
  | renew | rebind => exact (by decide : 600000 + 600000 / 10 ≤ 95040000)

/-! ## §2. Idle clients. -/

/-- Without an exchange under way every timer is zero. -/
theorem timersValid_iff_of_quiet (hretx : stateRetransmits c.state = false)
    (hfst : c.firstSendPending = false) : c.TimersValid ↔ c.transactionStartedMs = 0 ∧
      c.nextTransmitMs = 0 ∧ c.retryMs = 0 ∧ c.offerT1Seconds = 0 := by
  unfold Client.TimersValid
  rw [if_neg (by simp [hretx, hfst])]

/-- A client that gives up its exchange, its lease and its message is valid. -/
theorem clearDynamic_valid (h : c.Framed) {generation : Nat} (hgen : generation ≠ 0) :
    ({ c with generation := generation }.clearDynamic).Valid where
  toFramed := { h with
    generation := hgen
    transactionId := Nat.zero_le _
    dnsCount := Nat.zero_le _
    offerT2 := rfl
    pending := rfl
    mode := by
      show modeForbids c.mode .idle = false
      cases c.mode <;> rfl
    server := by simp [Client.hasServer, Client.clearDynamic, stateHasServer]
    serverDuid := by simp [Client.hasServer, Client.clearDynamic, stateHasServer]
    address := (by decide : stateHasAddress .idle = addressUsable .zero)
    idle := by simp [Client.clearDynamic]
    transaction := by simp [Client.clearDynamic]
    startup := by simp [Client.clearDynamic]
    lease := by
      rw [if_neg (by simp [Client.hasLease, Client.clearDynamic, stateHasLease])]
      exact ⟨rfl, rfl, rfl, rfl, rfl, rfl⟩
    dns := nofun }
  timers := (timersValid_iff_of_quiet rfl rfl).mpr ⟨rfl, rfl, rfl, rfl⟩

theorem init_valid {duid : Option (List UInt8)} {iaid interfaceGeneration : Nat}
    (h : init duid iaid interfaceGeneration = some c) : c.Valid ∧ c.clearDynamic = c := by
  unfold init at h
  cases duid with
  | none => cases h
  | some duid =>
    dsimp only at h
    split at h
    · cases h
    rename_i hargs
    push Not at hargs
    obtain rfl := Option.some.inj h
    refine ⟨⟨⟨rfl, rfl, rfl, hargs.2.2, nofun, hargs.2.1, eq_true_of_ne_false hargs.1, Nat.zero_le _,
      Nat.zero_le _, (by decide : 60 ≤ 3600 ∧ 3600 ≤ 86400), (by decide : 60 ≤ 3600 ∧ 3600 ≤ 86400), rfl,
      rfl, rfl, ?_, ?_, (by decide : stateHasAddress .idle = addressUsable .zero), ?_, ?_, ?_, ?_, nofun⟩, ?_⟩, rfl⟩
    · simp [Client.hasServer, stateHasServer]
    · simp [Client.hasServer, stateHasServer]
    · simp
    · simp
    · simp
    · rw [if_neg (by simp [Client.hasLease, stateHasLease])]
      exact ⟨rfl, rfl, rfl, rfl, rfl, rfl⟩
    · exact (timersValid_iff_of_quiet rfl rfl).mpr ⟨rfl, rfl, rfl, rfl⟩

/-- The record does not depend on the clock it was last called at. -/
theorem Client.Valid.later (h : c.Valid) (nowMs : Nat) : { c with lastNowMs := nowMs }.Valid :=
  { h with }

/-- Without a message waiting, the generation is free. -/
theorem pendingValid_of_absent {c c' : Client} (h : c.PendingValid) (habs : c.pendingPresent = false)
    (habs' : c'.pendingPresent = false) (hsame : c'.pending = c.pending) : c'.PendingValid := by
  unfold Client.PendingValid at h ⊢
  rw [if_pos habs] at h
  rw [if_pos habs', hsame]
  exact h

/-! ## §3. Leases. -/

/-- With an address the four deadlines are in order. -/
theorem leaseOrdered_iff_of_address (haddr : stateHasAddress c.state = true) :
    c.LeaseOrdered ↔ c.leaseGeneration ≠ 0 ∧ c.preferredUntilMs ≤ c.expiresAtMs ∧
      c.renewAtMs < c.rebindAtMs ∧ c.rebindAtMs < c.expiresAtMs := by
  unfold Client.LeaseOrdered
  rw [if_neg (fun h => Bool.false_ne_true (h.2.symm.trans haddr))]

/-- Without an address a rebinding would only come at the end. -/
theorem leaseOrdered_iff_of_information (hmode : c.mode = .information)
    (haddr : stateHasAddress c.state = false) :
    c.LeaseOrdered ↔ c.leaseGeneration ≠ 0 ∧ c.preferredUntilMs ≤ c.expiresAtMs ∧
      c.renewAtMs < c.expiresAtMs ∧ c.rebindAtMs = c.expiresAtMs := by
  unfold Client.LeaseOrdered
  rw [if_pos ⟨hmode, haddr⟩]

theorem lease_of_ordered (hhas : c.hasLease = true) (h : c.LeaseOrdered) :
    if c.hasLease = true then c.LeaseOrdered else c.NoLease := by
  rw [if_pos hhas]
  exact h

theorem lease_of_none (hhas : c.hasLease = false) (h : c.NoLease) :
    if c.hasLease = true then c.LeaseOrdered else c.NoLease := by
  rw [if_neg (by rw [hhas]; exact Bool.false_ne_true)]
  exact h

theorem Client.Framed.ordered (h : c.Framed) (hhas : c.hasLease = true) : c.LeaseOrdered := by
  have hlease := h.lease
  rw [if_pos hhas] at hlease
  exact hlease

theorem Client.Framed.noLease (h : c.Framed) (hhas : c.hasLease = false) : c.NoLease := by
  have hlease := h.lease
  rw [if_neg (by rw [hhas]; exact Bool.false_ne_true)] at hlease
  exact hlease

theorem hasLease_of_state (h : stateHasLease c.state = true) : c.hasLease = true := by
  simp [Client.hasLease, h]

theorem hasServer_of_state (h : stateHasServer c.state = true) : c.hasServer = true := by
  simp [Client.hasServer, h]

theorem Client.Framed.mode_ne (h : c.Framed) {mode : Mode} (hforbids : modeForbids mode c.state = true) :
    c.mode ≠ mode := by
  rintro rfl
  exact Bool.false_ne_true (h.mode.symm.trans hforbids)

theorem Client.Framed.information_of_state (h : c.Framed)
    (hforbids : modeForbids .stateful c.state = true) : c.mode = .information := by
  cases hmode : c.mode with
  | information => rfl
  | stateful => exact absurd hmode (h.mode_ne hforbids)

theorem Client.Framed.stateful_of_state (h : c.Framed)
    (hforbids : modeForbids .information c.state = true) : c.mode = .stateful := by
  cases hmode : c.mode with
  | stateful => rfl
  | information => exact absurd hmode (h.mode_ne hforbids)

/-! ## §4. Reconfigure. -/

/-- A client that is told to start an exchange of its own accord waits for its first message. -/
theorem Client.Framed.reconfigured (h : c.Framed) (hbound : c.state = .bound)
    (hmode : c.mode = .stateful) (habs : c.pendingPresent = false)
    (hst : state = .reconfigureRebinding ∨ state = .reconfigureInformationRequesting)
    (nowMs generation : Nat) (hgen : generation ≠ 0) :
    { c with
      state := state
      transactionStartedMs := 0
      nextTransmitMs := nowMs
      retryMs := 0
      offerT1Seconds := retransmissionNotStarted
      lastNowMs := nowMs
      generation := generation }.Valid := by
  have hsrv : c.hasServer = true := hasServer_of_state (by rw [hbound]; rfl)
  have haddr : addressUsable c.address = true := by rw [← h.address, hbound]; rfl
  have htxn : c.transactionId ≠ 0 := fun hzero => h.transaction ⟨by rw [hbound]; nofun, hzero⟩
  have hord := (leaseOrdered_iff_of_address (by rw [hbound]; rfl)).mp
    (h.ordered (hasLease_of_state (by rw [hbound]; rfl)))
  have hflags : state ≠ .idle ∧ stateHasServer state = true ∧ stateHasAddress state = true ∧
      stateHasLease state = true ∧ modeForbids .stateful state = false ∧ stateRetransmits state = true := by
    rcases hst with rfl | rfl <;> exact ⟨nofun, rfl, rfl, rfl, rfl, rfl⟩
  obtain ⟨hidle, hhasServer, hhasAddress, hhasLease, hforbids, hretx⟩ := hflags
  refine ⟨{ h with
    generation := hgen
    pending := pendingValid_of_absent h.pending habs habs rfl
    mode := by rw [hmode]; exact hforbids
    server := ⟨fun _ => h.server.mp hsrv, fun _ => hasServer_of_state hhasServer⟩
    serverDuid := fun _ => h.serverDuid hsrv
    address := hhasAddress.trans haddr.symm
    idle := fun hidle' => hidle hidle'.1
    transaction := fun hzero => htxn hzero.2
    startup := fun hidle' => hidle hidle'.1
    lease := lease_of_ordered (hasLease_of_state hhasLease)
      ((leaseOrdered_iff_of_address hhasAddress).mpr hord) }, ?_⟩
  unfold Client.TimersValid
  rw [if_pos (.inl hretx), if_pos rfl]
  refine ⟨⟨?_, rfl, rfl⟩, ?_⟩
  · rcases hst with rfl | rfl <;> simp [Client.firstSendPending]
  · rintro rfl
    exact absurd hst (by decide)

/-- A Reconfigure that only moves the renewal keeps the record valid where the renewal still comes before
    the rebinding. -/
theorem renewed_valid_iff (h : c.Valid) (habs : c.pendingPresent = false)
    (hst : c.state = .bound ∨ c.state = .informationBound ∧ c.mode = .information)
    (nowMs generation : Nat) (hgen : generation ≠ 0) (hexpires : nowMs < c.expiresAtMs) :
    { c with renewAtMs := nowMs, lastNowMs := nowMs, generation := generation }.Valid ↔
      (c.state = .bound → nowMs < c.rebindAtMs) := by
  constructor
  · intro hval hbound
    have hord := hval.toFramed.ordered (hasLease_of_state (by rw [hbound]; rfl))
    exact ((leaseOrdered_iff_of_address (by rw [hbound]; rfl)).mp hord).2.2.1
  intro hbef
  refine ⟨{ h.toFramed with
    generation := hgen
    pending := pendingValid_of_absent h.pending habs habs rfl
    lease := ?_ }, h.timers⟩
  rcases hst with hbound | ⟨hbound, hmode⟩
  · have hlease : stateHasLease c.state = true := by rw [hbound]; rfl
    have haddr : stateHasAddress c.state = true := by rw [hbound]; rfl
    have hord := (leaseOrdered_iff_of_address haddr).mp (h.toFramed.ordered (hasLease_of_state hlease))
    exact lease_of_ordered (hasLease_of_state hlease) ((leaseOrdered_iff_of_address (by exact haddr)).mpr
      ⟨hord.1, hord.2.1, hbef hbound, hord.2.2.2⟩)
  have hlease : stateHasLease c.state = true := by rw [hbound]; rfl
  have haddr : stateHasAddress c.state = false := by rw [hbound]; rfl
  have hord := (leaseOrdered_iff_of_information hmode haddr).mp
    (h.toFramed.ordered (hasLease_of_state hlease))
  exact lease_of_ordered (hasLease_of_state hlease) ((leaseOrdered_iff_of_information (by exact hmode) (by exact haddr)).mpr
    ⟨hord.1, hord.2.1, hexpires, hord.2.2.2⟩)

/-! ## §5. Messages. -/

theorem length_le_of_duidValid {duid : List UInt8} (h : duidValid duid = true) : duid.length ≤ maxDuidSize := by
  unfold duidValid at h
  dsimp only at h
  split at h
  · cases h
  · omega

theorem Client.Framed.serverDuid_length (h : c.Framed) : c.serverDuid.length ≤ maxDuidSize := by
  by_cases hsrv : c.hasServer = true
  · exact length_le_of_duidValid (h.serverDuid hsrv)
  have hnil : c.serverDuid = [] := by
    by_contra hne
    exact hsrv (h.server.mpr hne)
  rw [hnil]
  exact Nat.zero_le _

/-- A step of the builder that adds at most `n` bytes. -/
def Grows (message : List UInt8) (n : Nat) (result : Option (List UInt8)) : Prop :=
  ∃ rest, rest.length ≤ n ∧ result = some (message ++ rest)

theorem grows_same (message : List UInt8) (n : Nat) : Grows message n (some message) :=
  ⟨[], Nat.zero_le n, by rw [List.append_nil]⟩

theorem Grows.bind {n m : Nat} {result : Option (List UInt8)}
    {next : List UInt8 → Option (List UInt8)} (h : Grows message n result)
    (hnext : ∀ message', message'.length ≤ message.length + n → Grows message' m (next message')) :
    Grows message (n + m) (result.bind next) := by
  obtain ⟨rest, hrest, rfl⟩ := h
  have hlen : (message ++ rest).length ≤ message.length + n := by
    rw [List.length_append]
    exact Nat.add_le_add_left hrest _
  obtain ⟨more, hmore, heq⟩ := hnext (message ++ rest) hlen
  refine ⟨rest ++ more, ?_, ?_⟩
  · rw [List.length_append]
    exact Nat.add_le_add hrest hmore
  · show next (message ++ rest) = _
    rw [heq, List.append_assoc]

theorem grows_appendOption {message value : List UInt8} (code : Nat) {n : Nat} (hvalue : 4 + value.length ≤ n)
    (hfits : message.length + n ≤ maxMessageSize) : Grows message n (appendOption message code value) := by
  refine ⟨Item.encode (code, value), ?_, ?_⟩
  · rw [Item.length_encode]
    exact hvalue
  unfold appendOption
  rw [if_pos]
  rw [List.length_append, Item.length_encode]
  exact Nat.le_trans (Nat.add_le_add_left hvalue _) hfits

theorem grows_appendIaNa (iaid : Nat) (address : Option Address)
    (hfits : message.length + 44 ≤ maxMessageSize) : Grows message 44 (appendIaNa message iaid address) := by
  cases address with
  | none =>
    refine grows_appendOption _ ?_ hfits
    simp only [List.length_append, length_store32]
    decide
  | some address =>
    refine grows_appendOption _ ?_ hfits
    simp only [List.length_append, length_store32, length_store16, Vector.length_toList]
    exact Nat.le_refl _

/-- Every message of a client fits its buffer, and begins with its type and its transaction. -/
theorem messageBytes_grows (h : c.Framed) (kind : TransmitKind) (transactionId nowMs : Nat) :
    Grows [kind.code, UInt8.ofNat (transactionId / 65536), UInt8.ofNat (transactionId / 256),
      UInt8.ofNat transactionId] 136 (messageBytes c kind transactionId nowMs) := by
  have hduid : c.duid.length ≤ 32 := length_le_of_duidValid h.duid
  have hsrv : c.serverDuid.length ≤ 32 := h.serverDuid_length
  have hmax : maxMessageSize = 512 := rfl
  have hheader : [kind.code, UInt8.ofNat (transactionId / 65536), UInt8.ofNat (transactionId / 256),
      UInt8.ofNat transactionId].length = 4 := rfl
  refine Grows.bind (n := 36) (m := 100) (grows_appendOption _ (by omega) (by omega)) fun m1 h1 => ?_
  refine Grows.bind (n := 36) (m := 64) ?_ fun m2 h2 => ?_
  · split
    · exact grows_appendOption _ (by omega) (by omega)
    · exact grows_same m1 36
  refine Grows.bind (n := 6) (m := 58) (grows_appendOption _ (Nat.le_refl 6) (by omega)) fun m3 h3 => ?_
  refine Grows.bind (n := 44) (m := 14) ?_ fun m4 h4 => ?_
  · split
    · exact grows_same m3 44
    · exact grows_appendIaNa _ _ (by omega)
  refine Grows.bind (n := 10) (m := 4) (grows_appendOption _ ?_ (by omega)) fun m5 h5 => ?_
  · split
    · decide
    · split <;> decide
  · exact grows_appendOption _ (by decide) (by omega)

/-- A message of a kind for a transaction of the client. -/
structure Built (c : Client) (kind : TransmitKind) (transactionId nowMs : Nat) (transmit : Transmit) : Prop where
  version : transmit.version = clientVersion
  structSize : transmit.structSize = transmitSize
  owner : transmit.ownerGeneration = c.generation
  reserved : transmit.reserved = 0
  prepared : transmit.preparedAtMs = nowMs
  sort : transmit.kind = kind
  complete : 4 ≤ transmit.message.length
  fits : transmit.message.length ≤ maxMessageSize
  type : transmit.message.getD 0 0 = kind.code
  transaction : messageTransaction transmit.message = transactionId

/-- `build_message` of a checked transaction number always returns a message that `pending_valid` takes. -/
theorem buildMessage_spec (h : c.Framed) (kind : TransmitKind)
    (htxn : transactionId ≤ 0xffffff) (nowMs : Nat) :
    ∃ transmit, buildMessage c kind transactionId nowMs = some transmit ∧
      Built c kind transactionId nowMs transmit := by
  obtain ⟨rest, hrest, hbytes⟩ := messageBytes_grows h kind transactionId nowMs
  have hmax : maxMessageSize = 512 := rfl
  refine ⟨_, by rw [buildMessage, hbytes]; rfl, rfl, rfl, rfl, rfl, rfl, rfl, ?_, ?_, rfl, ?_⟩
  · simp only [List.length_append, List.length_cons, List.length_nil]
    omega
  · simp only [List.length_append, List.length_cons, List.length_nil]
    omega
  show (UInt8.ofNat (transactionId / 65536)).toNat * 65536 + (UInt8.ofNat (transactionId / 256)).toNat * 256 +
    (UInt8.ofNat transactionId).toNat = transactionId
  rw [UInt8.toNat_ofNat', UInt8.toNat_ofNat', UInt8.toNat_ofNat']
  omega

/-! ## §6. Sent messages. -/

/-- A sent message either continues the exchange of its state or leads from one state to the next. -/
theorem move_cases (hmove : c.move kind transactionId = some m) :
    (m.state = c.state ∧ stateRetransmits c.state = true ∧ retransmissionKindForState c.state = kind ∧
      (m.transition = true → c.offerT1Seconds = retransmissionNotStarted ∧
        (c.state = .reconfigureInformationRequesting ∨ c.state = .reconfigureRebinding)) ∧
      (m.transition = false → transactionId = c.transactionId)) ∨ m.transition = true ∧
      ((c.state = .idle ∧ kind = .solicit ∧ m.state = .soliciting) ∨
      (c.state = .idle ∧ kind = .informationRequest ∧ m.state = .informationRequesting) ∨
      (c.state = .advertised ∧ kind = .request ∧ m.state = .requesting) ∨
      (c.state = .bound ∧ kind = .renew ∧ m.state = .renewing) ∨
      (c.state = .bound ∧ kind = .rebind ∧ m.state = .rebinding) ∨
      (c.state = .renewing ∧ kind = .rebind ∧ m.state = .rebinding) ∨
      (c.state = .informationBound ∧ kind = .informationRequest ∧ m.state = .informationRequesting)) := by
  unfold Client.move at hmove
  cases hst : c.state <;> cases kind <;> simp only [hst, reduceCtorEq] at hmove
  -- each pair that is left returns one move, some of them under a test
  all_goals (try split at hmove) <;> cases hmove
  all_goals simp_all [stateRetransmits, retransmissionKindForState]

/-- The phase of a sent message ends with the time of the Rebind for a Renew, with the lease otherwise. -/
theorem move_phase (hmove : c.move kind transactionId = some m) (hph : m.phaseEnd ≠ 0) :
    m.phaseEnd = c.rebindAtMs ∧ kind = .renew ∧ (c.state = .bound ∨ c.state = .renewing) ∨
      m.phaseEnd = c.expiresAtMs ∧ stateHasLease c.state = true := by
  unfold Client.move at hmove
  cases hst : c.state <;> cases kind <;> simp only [hst, reduceCtorEq] at hmove
  all_goals (try split at hmove) <;> cases hmove
  all_goals simp_all [stateHasLease]

/-- The states a sent message leads between agree on server, address and lease. -/
theorem move_flags (h : c.Framed) (hmove : c.move kind transactionId = some m) :
    { c with state := m.state }.hasServer = c.hasServer ∧ stateHasAddress m.state = stateHasAddress c.state ∧
      { c with state := m.state }.hasLease = c.hasLease ∧ m.state ≠ .idle ∧
      retransmissionKindForState m.state = kind ∧ stateRetransmits m.state = true := by
  rcases move_cases hmove with ⟨hsame, hretx, hkind, _⟩ | ⟨_, hedge⟩
  · rw [hsame]
    refine ⟨rfl, rfl, rfl, ?_, hkind, hretx⟩
    intro hidle
    rw [hidle] at hretx
    exact absurd hretx (by decide)
  -- only requesting information has its server and its lease decided by the record
  have hsrv := h.server
  have hlease := h.lease
  rcases hedge with ⟨hst, rfl, hnext⟩ | ⟨hst, rfl, hnext⟩ | ⟨hst, rfl, hnext⟩ |
    ⟨hst, rfl, hnext⟩ | ⟨hst, rfl, hnext⟩ | ⟨hst, rfl, hnext⟩ | ⟨hst, rfl, hnext⟩ <;>
    simp_all [Client.hasServer, Client.hasLease, stateHasServer, stateHasAddress, stateHasLease,
      retransmissionKindForState, stateRetransmits, Client.NoLease, Client.LeaseOrdered]

theorem retransmissionKind_ne_none (h : stateRetransmits state = true) :
    retransmissionKindForState state ≠ .none := by
  intro hnone
  cases state <;> simp_all [stateRetransmits, retransmissionKindForState]

/-- The record of an exchange whose message was sent: the timer runs within the bounds of the message's
    kind, and everything else is that of the state before. -/
theorem sent_valid (h : c.Framed)
    (hmove : c.move kind transactionId = some m) (hmode : modeForbids c.mode m.state = false)
    {generation started next retry retransmissions offerT2 : Nat} (hgen : generation ≠ 0)
    (htxn : transactionId ≠ 0) (hrange : transactionId ≤ 0xffffff) (hnext : started ≤ next)
    (hretry : retransmissionIrtMs kind - retransmissionIrtMs kind / 10 ≤ retry ∧
      retry ≤ retransmissionMrtMs c kind + retransmissionMrtMs c kind / 10)
    (hcnt : retransmissions ≠ retransmissionNotStarted)
    (hrequest : m.state = .requesting → retransmissions < requestMaxRetransmissions) (hofferT2 : offerT2 = 0) :
    { c with
      state := m.state
      generation := generation
      transactionId := transactionId
      transactionStartedMs := started
      nextTransmitMs := next
      retryMs := retry
      offerT1Seconds := retransmissions
      offerT2Seconds := offerT2
      pendingPresent := false
      pending := .zero }.Valid := by
  obtain ⟨hsrv, haddr, hlease, hidle, hkind, hretx⟩ := move_flags h hmove
  refine ⟨{ h with
    generation := hgen
    transactionId := hrange
    offerT2 := hofferT2
    pending := rfl
    mode := hmode
    server := by rw [← h.server, ← hsrv]; rfl
    serverDuid := fun hhas => h.serverDuid (hsrv.symm.trans hhas)
    address := haddr.trans h.address
    idle := fun hidle' => hidle hidle'.1
    transaction := fun hzero => htxn hzero.2
    startup := fun hidle' => hidle hidle'.1
    lease := ?_ }, ?_⟩
  · have hbef := h.lease
    rw [← hlease] at hbef
    unfold Client.LeaseOrdered at hbef ⊢
    rw [← haddr] at hbef
    exact hbef
  unfold Client.TimersValid
  rw [if_pos (.inl hretx), if_neg hcnt]
  refine ⟨⟨?_, hnext, ?_⟩, hrequest⟩
  · exact retransmissionKind_ne_none hretx
  show Client.RetryInRange _ (retransmissionKindForState m.state)
  rw [hkind]
  cases kind <;> exact hretry

/-! ## §7. Accepted answers. -/

/-- The record of a client whose exchange is over: quiet timers in a state that has a server and a lease. -/
theorem settled_valid (h : c.Framed) (habs : c.pendingPresent = false)
    (htxn : c.transactionId ≠ 0)
    (hst : state = .bound ∨ state = .informationBound) (hmode : modeForbids c.mode state = false)
    {serverDuid : List UInt8} (hsrv : duidValid serverDuid = true) {address : Address}
    (haddr : stateHasAddress state = addressUsable address) {dnsServers : List Address}
    (hdnsCount : dnsServers.length ≤ maxDnsServers)
    (hdns : ∀ server ∈ dnsServers, addressUsable server = true)
    {preferredUntil renewAt rebindAt expiresAt lastNow : Nat}
    (hord : { c with
      leaseGeneration := c.nextLeaseGeneration
      state := state
      preferredUntilMs := preferredUntil
      renewAtMs := renewAt
      rebindAtMs := rebindAt
      expiresAtMs := expiresAt }.LeaseOrdered) :
    { ({ c with
      serverDuid := serverDuid
      address := address
      dnsServers := dnsServers
      preferredUntilMs := preferredUntil
      renewAtMs := renewAt
      rebindAtMs := rebindAt
      expiresAtMs := expiresAt }.takeLeaseGeneration).settle state with lastNowMs := lastNow }.Valid := by
  have hflags : state ≠ .idle ∧ stateHasServer state = true ∧ stateHasLease state = true ∧
      stateRetransmits state = false := by
    rcases hst with rfl | rfl <;> exact ⟨nofun, rfl, rfl, rfl⟩
  obtain ⟨hidle, hhasServer, hhasLease, hretx⟩ := hflags
  refine ⟨{ h with
    generation := Nat.succ_ne_zero _
    dnsCount := hdnsCount
    offerT2 := rfl
    pending := pendingValid_of_absent h.pending habs habs rfl
    mode := hmode
    server := ⟨fun _ => ne_nil_of_duidValid hsrv, fun _ => hasServer_of_state hhasServer⟩
    serverDuid := fun _ => hsrv
    address := haddr
    idle := fun hidle' => hidle hidle'.1
    transaction := fun hzero => htxn hzero.2
    startup := fun hidle' => hidle hidle'.1
    lease := lease_of_ordered (hasLease_of_state hhasLease) hord
    dns := hdns }, ?_⟩
  refine (timersValid_iff_of_quiet hretx ?_).mpr ⟨rfl, rfl, rfl, rfl⟩
  rcases hst with rfl | rfl <;> rfl

/-- What a commit did: it refused and changed nothing, or it accepted and left a client with `P`. -/
def Committed (c : Client) (result : Status × Client) (P : Client → Prop) : Prop :=
  result.1.positive = false ∧ result.2 = c ∨ result.1.positive = true ∧ P result.2

theorem commitOffer_committed (c : Client) (parsed : Parsed) :
    Committed c (c.commitOffer parsed) fun c' => (c.commitOffer parsed).1 = .offerReady ∧
      c.clientMatches parsed = true ∧ addressUsable parsed.address = true ∧
      c' = { c with serverDuid := parsed.serverDuid, address := parsed.address }.settle .advertised := by
  unfold Client.commitOffer
  split
  · exact .inl ⟨rfl, rfl⟩
  split
  · exact .inl ⟨rfl, rfl⟩
  rename_i href _
  push Not at href
  exact .inr ⟨rfl, rfl, (Bool.and_eq_true_iff.mp (eq_true_of_ne_false href.1)).1,
    eq_true_of_ne_false href.2.1, rfl⟩

theorem commitLease_committed (c : Client) (parsed : Parsed) (nowMs : Nat) :
    Committed c (c.commitLease parsed nowMs) fun c' => (c.commitLease parsed nowMs).1 = .leaseReady ∧
      c.identityMatches parsed = true ∧ (¬ (c.state = .rebinding ∨ c.state = .reconfigureRebinding) →
        c.serverMatches parsed = true ∧ parsed.address = c.address) ∧ ∃ times,
      lifetimesNormalize parsed.validSeconds parsed.preferredSeconds parsed.t1Seconds parsed.t2Seconds =
        some times ∧ addressUsable parsed.address = true ∧ c.nextLeaseGeneration ≠ 0 ∧
      nowMs + parsed.validSeconds * 1000 ≤ maxUInt64 ∧ c' = ({ c with
        serverDuid :=
          if c.state = State.rebinding ∨ c.state = State.reconfigureRebinding then parsed.serverDuid
          else c.serverDuid
        address := parsed.address
        dnsServers := parsed.dnsServers
        preferredUntilMs := nowMs + parsed.preferredSeconds * 1000
        renewAtMs := nowMs + times.1 * 1000
        rebindAtMs := nowMs + times.2 * 1000
        expiresAtMs := nowMs + parsed.validSeconds * 1000 }.takeLeaseGeneration).settle .bound := by
  unfold Client.commitLease
  dsimp only
  split
  · exact .inl ⟨rfl, rfl⟩
  rename_i href
  push Not at href
  split
  · exact .inl ⟨rfl, rfl⟩
  rename_i t1 t2 htimes
  split
  · exact .inl ⟨rfl, rfl⟩
  rename_i hsrv
  split
  · exact .inl ⟨rfl, rfl⟩
  rename_i haddr
  rw [decide_eq_false_iff_not] at hsrv haddr
  push Not at hsrv haddr
  split
  · rename_i renewAt rebindAt preferredUntil expiresAt hrenew hrebind hpreferred hexpires
    split
    · exact .inl ⟨rfl, rfl⟩
    rename_i hleft
    push Not at hleft
    refine .inr ⟨rfl, rfl, eq_true_of_ne_false href.1,
      fun hsel => ⟨eq_true_of_ne_false (hsrv (not_or.mp hsel)), haddr (not_or.mp hsel)⟩,
      (t1, t2), htimes, eq_true_of_ne_false href.2, hleft.1, ?_, ?_⟩
    · have hval : parsed.validSeconds ≤ 30 * 24 * 60 * 60 := (lifetimesNormalize_ordered htimes).2.2.2.2
      have hmax : maxUInt64 = 2 ^ 64 - 1 := rfl
      obtain ⟨hdeadline, hfits⟩ := deadlineFromSeconds_eq hexpires
      rw [← hdeadline]
      exact hfits (by omega)
    rw [(deadlineFromSeconds_eq hrenew).1, (deadlineFromSeconds_eq hrebind).1,
      (deadlineFromSeconds_eq hpreferred).1, (deadlineFromSeconds_eq hexpires).1]
    simp only [decide_eq_true_eq]
  · exact .inl ⟨rfl, rfl⟩

theorem commitInformation_committed (c : Client) (parsed : Parsed) (nowMs : Nat) :
    Committed c (c.commitInformation parsed nowMs) fun c' => (c.commitInformation parsed nowMs).1 = .leaseReady ∧
      c.clientMatches parsed = true ∧ ∃ refreshSeconds, 0 < refreshSeconds ∧ c.mode = .information ∧ c.nextLeaseGeneration ≠ 0 ∧
      c' = ({ c with
        serverDuid := parsed.serverDuid
        address := .zero
        dnsServers := parsed.dnsServers
        preferredUntilMs := nowMs + refreshSeconds * 2 * 1000
        renewAtMs := nowMs + refreshSeconds * 1000
        rebindAtMs := nowMs + refreshSeconds * 2 * 1000
        expiresAtMs := nowMs + refreshSeconds * 2 * 1000 }.takeLeaseGeneration).settle .informationBound := by
  unfold Client.commitInformation
  dsimp only
  have hpos := informationRefreshNormalize_pos
    (if parsed.informationRefreshSeen = true then parsed.informationRefreshSeconds else 0)
  generalize informationRefreshNormalize
    (if parsed.informationRefreshSeen = true then parsed.informationRefreshSeconds else 0) = refreshSeconds
    at hpos ⊢
  split
  · exact .inl ⟨rfl, rfl⟩
  rename_i href
  push Not at href
  split
  · rename_i refreshAt expiresAt hrefresh hexpires
    split
    · exact .inl ⟨rfl, rfl⟩
    rename_i hleft
    push Not at hleft
    refine .inr ⟨rfl, rfl, eq_true_of_ne_false href.2.1, refreshSeconds, hpos, href.1, hleft.1, ?_⟩
    rw [(deadlineFromSeconds_eq hrefresh).1, (deadlineFromSeconds_eq hexpires).1]
  · exact .inl ⟨rfl, rfl⟩

theorem commitReconfigureInformation_committed (c : Client) (parsed : Parsed) :
    Committed c (c.commitReconfigureInformation parsed) fun c' =>
      (c.commitReconfigureInformation parsed).1 = .leaseReady ∧ c.clientMatches parsed = true ∧
      c.nextLeaseGeneration ≠ 0 ∧ c' = ({ c with dnsServers := parsed.dnsServers }.takeLeaseGeneration).settle .bound := by
  unfold Client.commitReconfigureInformation
  split
  · exact .inl ⟨rfl, rfl⟩
  rename_i href
  push Not at href
  exact .inr ⟨rfl, rfl, eq_true_of_ne_false href.2.1, href.2.2.2.2.2.2.1, rfl⟩

/-- What an answer does to the state of the exchange: it is refused and stays, or it is an offer or a lease. -/
def Received (c : Client) (result : Status × Client) : Prop :=
  result.2.mode = c.mode ∧
    (result.1 ≠ .offerReady ∧ result.1 ≠ .leaseReady ∧ result.2.state = c.state ∨
      result.1 = .offerReady ∧ result.2.state = .advertised ∨
      result.1 = .leaseReady ∧ (result.2.state = .bound ∨ result.2.state = .informationBound))

/-- What is accepted is meant for the client. -/
theorem commit_committed (c : Client) (parsed : Parsed) (nowMs : Nat) :
    Committed c (c.commit parsed nowMs) fun _ => c.clientMatches parsed = true ∧
      Received c (c.commit parsed nowMs) := by
  unfold Client.commit
  split
  · rcases commitOffer_committed c parsed with href | ⟨hpos, hstat, hmatches, _, hc'⟩
    · exact .inl href
    refine .inr ⟨hpos, hmatches, ?_⟩
    rw [Received, hc']
    exact ⟨rfl, .inr (.inl ⟨hstat, rfl⟩)⟩
  split
  · rcases commitInformation_committed c parsed nowMs with
      href | ⟨hpos, hstat, hmatches, _, _, _, _, hc'⟩
    · exact .inl href
    refine .inr ⟨hpos, hmatches, ?_⟩
    rw [Received, hc']
    exact ⟨rfl, .inr (.inr ⟨hstat, .inr rfl⟩)⟩
  split
  · rcases commitReconfigureInformation_committed c parsed with href | ⟨hpos, hstat, hmatches, _, hc'⟩
    · exact .inl href
    refine .inr ⟨hpos, hmatches, ?_⟩
    rw [Received, hc']
    exact ⟨rfl, .inr (.inr ⟨hstat, .inl rfl⟩)⟩
  rcases commitLease_committed c parsed nowMs with
    href | ⟨hpos, hstat, hmatches, _, _, _, _, _, _, hc'⟩
  · exact .inl href
  refine .inr ⟨hpos, (Bool.and_eq_true_iff.mp hmatches).1, ?_⟩
  rw [Received, hc']
  exact ⟨rfl, .inr (.inr ⟨hstat, .inl rfl⟩)⟩

theorem received_of_refused {result : Status × Client} (h : result.1.positive = false) (hsame : result.2 = c) :
    Received c result := by
  refine ⟨by rw [hsame], .inl ⟨?_, ?_, by rw [hsame]⟩⟩ <;>
  · intro hwrong
    rw [hwrong] at h
    cases h

theorem commit_received (c : Client) (parsed : Parsed) (nowMs : Nat) : Received c (c.commit parsed nowMs) := by
  rcases commit_committed c parsed nowMs with ⟨hpos, hkept⟩ | ⟨_, _, hreceived⟩
  · exact received_of_refused hpos hkept
  · exact hreceived

/-- An offer leaves a client with a server and an address, and no timer. -/
theorem advertised_valid (h : c.Framed) (hst : c.state = .soliciting)
    (habs : c.pendingPresent = false) {serverDuid : List UInt8} (hsrv : duidValid serverDuid = true)
    {address : Address} (haddr : addressUsable address = true) (nowMs : Nat) :
    { { c with serverDuid := serverDuid, address := address }.settle .advertised with
      lastNowMs := nowMs }.Valid := by
  have hmode : c.mode = .stateful := h.stateful_of_state (by rw [hst]; rfl)
  have hnone : c.NoLease := h.noLease (by simp [Client.hasLease, hst, stateHasLease])
  have htxn : c.transactionId ≠ 0 := fun hzero => h.transaction ⟨by rw [hst]; nofun, hzero⟩
  refine ⟨{ h with
    generation := Nat.succ_ne_zero _
    offerT2 := rfl
    pending := pendingValid_of_absent h.pending habs habs rfl
    mode := by rw [hmode]; rfl
    server := ⟨fun _ => ne_nil_of_duidValid hsrv, fun _ => rfl⟩
    serverDuid := fun _ => hsrv
    address := haddr.symm
    idle := fun hidle => absurd hidle.1 nofun
    transaction := fun hzero => htxn hzero.2
    startup := fun hidle => absurd hidle.1 nofun
    lease := lease_of_none rfl hnone }, ?_⟩
  exact (timersValid_iff_of_quiet rfl rfl).mpr ⟨rfl, rfl, rfl, rfl⟩

/-- What an accepted answer leaves: a valid client whose exchange is over. -/
structure Accepted (c : Client) (nowMs : Nat) (c' : Client) : Prop where
  valid : { c' with lastNowMs := nowMs }.Valid
  absent : c'.pendingPresent = false
  started : c'.transactionStartedMs = 0
  mode : c'.mode = c.mode
  state : c'.state = .advertised ∨ c'.state = .bound ∧ c.mode = .stateful ∨
    c'.state = .informationBound ∧ c.mode = .information

theorem commitLease_accepted (h : c.Framed) (habs : c.pendingPresent = false)
    (htxn : c.transactionId ≠ 0) (hhasServer : stateHasServer c.state = true)
    (hmode : c.mode = .stateful) {parsed : Parsed} (hsound : parsed.Sound)
    (hsrv : duidValid parsed.serverDuid = true) (nowMs : Nat) :
    Committed c (c.commitLease parsed nowMs) (Accepted c nowMs) := by
  rcases commitLease_committed c parsed nowMs with href |
    ⟨hpos, _, _, _, times, htimes, haddr, hlg, _, hc'⟩
  · exact .inl href
  obtain ⟨_, ht12, ht2, hpreferred, _⟩ := lifetimesNormalize_ordered htimes
  have hduid : duidValid (if c.state = .rebinding ∨ c.state = .reconfigureRebinding then
      parsed.serverDuid else c.serverDuid) = true := by
    split
    · exact hsrv
    · exact h.serverDuid (hasServer_of_state hhasServer)
  refine .inr ⟨hpos, ?_⟩
  rw [hc']
  refine ⟨settled_valid h habs htxn (.inl rfl) (by rw [hmode]; rfl) hduid haddr.symm
    hsound.dnsCount hsound.dns ?_, habs, rfl, rfl, .inr (.inl ⟨rfl, hmode⟩)⟩
  exact (leaseOrdered_iff_of_address rfl).mpr ⟨hlg,
    Nat.add_le_add_left (Nat.mul_le_mul_right 1000 hpreferred) nowMs,
    Nat.add_lt_add_left (Nat.mul_lt_mul_of_pos_right ht12 (by decide)) nowMs,
    Nat.add_lt_add_left (Nat.mul_lt_mul_of_pos_right ht2 (by decide)) nowMs⟩

/-- **An accepted answer leaves a valid client**, whatever the timers were; a refused one changes nothing. -/
theorem commit_accepted (h : c.Framed) (habs : c.pendingPresent = false)
    {expectedType : UInt8} {requireIa : Bool} {status : Status} {parsed : Parsed}
    (hexp : expectedReply c.state = some (expectedType, requireIa))
    (hparsed : parseMessage message expectedType requireIa = .ok (status, parsed)) (nowMs : Nat) :
    Committed c (c.commit parsed nowMs) (Accepted c nowMs) := by
  obtain ⟨_, hread, _, hserverSeen, _⟩ := parseMessage_spec hparsed
  have hsound := hread.toSound
  have hsrv := hsound.server hserverSeen
  have htxn : c.transactionId ≠ 0 := by
    intro hzero
    refine h.transaction ⟨?_, hzero⟩
    intro hidle
    rw [hidle] at hexp
    cases hexp
  have hlease (hhasServer : stateHasServer c.state = true)
      (hforbids : modeForbids .information c.state = true) :=
    commitLease_accepted h habs htxn hhasServer (h.stateful_of_state hforbids) hsound hsrv nowMs
  unfold Client.commit
  cases hst : c.state with
  | idle | advertised | bound | informationBound => rw [hst] at hexp; cases hexp
  | soliciting =>
    rw [if_pos rfl]
    rcases commitOffer_committed c parsed with href | ⟨hpos, _, _, haddr, hc'⟩
    · exact .inl href
    refine .inr ⟨hpos, ?_⟩
    rw [hc']
    exact ⟨advertised_valid h hst habs hsrv haddr nowMs, habs, rfl, rfl, .inl rfl⟩
  | informationRequesting =>
    rw [if_neg nofun, if_pos rfl]
    rcases commitInformation_committed c parsed nowMs with
      href | ⟨hpos, _, _, refresh, hrefresh, hmode, hlg, hc'⟩
    · exact .inl href
    refine .inr ⟨hpos, ?_⟩
    rw [hc']
    refine ⟨settled_valid h habs htxn (.inr rfl) (by rw [hmode]; rfl) hsrv
      addressUsable_zero.symm hsound.dnsCount hsound.dns ?_, habs, rfl, rfl,
      .inr (.inr ⟨rfl, hmode⟩)⟩
    have hbef : nowMs + refresh * 1000 < nowMs + refresh * 2 * 1000 := by omega
    exact (leaseOrdered_iff_of_information (by exact hmode) rfl).mpr ⟨hlg, Nat.le_refl _, hbef, rfl⟩
  | reconfigureInformationRequesting =>
    rw [if_neg nofun, if_neg nofun, if_pos rfl]
    have hmode : c.mode = .stateful := h.stateful_of_state (by rw [hst]; rfl)
    have hhasAddress : stateHasAddress c.state = true := by rw [hst]; rfl
    rcases commitReconfigureInformation_committed c parsed with href | ⟨hpos, _, _, hlg, hc'⟩
    · exact .inl href
    refine .inr ⟨hpos, ?_⟩
    rw [hc']
    have hord := (leaseOrdered_iff_of_address hhasAddress).mp
      (h.ordered (hasLease_of_state (by rw [hst]; rfl)))
    refine ⟨settled_valid h habs htxn (.inl rfl) (by rw [hmode]; rfl)
      (h.serverDuid (hasServer_of_state (by rw [hst]; rfl))) (hhasAddress.symm.trans h.address)
      hsound.dnsCount hsound.dns ?_, habs, rfl, rfl, .inr (.inl ⟨rfl, hmode⟩)⟩
    exact (leaseOrdered_iff_of_address rfl).mpr ⟨hlg, hord.2⟩
  | requesting | renewing | rebinding | reconfigureRebinding =>
    rw [if_neg nofun, if_neg nofun, if_neg nofun]
    exact hlease (by rw [hst]; rfl) (by rw [hst]; rfl)

/-- Reading the maxima changes no more than those, the generation and the clock; the only error is that of an
    exhausted generation. -/
theorem overrides_cases (c : Client) (parsed : Parsed) (nowMs : Nat) :
    c.applyRetransmissionOverrides parsed nowMs = (.ok, c) ∨
      c.applyRetransmissionOverrides parsed nowMs = (.rangeExhausted, c) ∨
      c.applyRetransmissionOverrides parsed nowMs = (.ok, { c with
        generation := c.generation + 1
        offerPreferredSeconds := optionMaximum parsed.solMaxRtSeen parsed.solMaxRtSeconds c.offerPreferredSeconds
        offerValidSeconds := optionMaximum parsed.infMaxRtSeen parsed.infMaxRtSeconds c.offerValidSeconds
        lastNowMs := nowMs }) := by
  unfold Client.applyRetransmissionOverrides
  split
  · exact .inl rfl
  dsimp only
  split
  · exact .inl rfl
  split
  · exact .inr (.inl rfl)
  · exact .inr (.inr rfl)

theorem answer_received (c : Client) (status : Status) (parsed : Parsed) (nowMs : Nat) :
    Received c (c.answer status parsed nowMs) := by
  have hsame : (c.applyRetransmissionOverrides parsed nowMs).2.mode = c.mode ∧
      (c.applyRetransmissionOverrides parsed nowMs).2.state = c.state := by
    rcases overrides_cases c parsed nowMs with h | h | h <;> rw [h] <;> exact ⟨rfl, rfl⟩
  obtain ⟨hmode, hst⟩ := hsame
  unfold Client.answer
  dsimp only
  split
  · rename_i hfail
    rcases overrides_cases c parsed nowMs with h | h | h <;> rw [h] at hfail ⊢
    · exact absurd rfl hfail
    · exact received_of_refused rfl rfl
    · exact absurd rfl hfail
  split
  · rename_i hrej
    rw [hrej, Received]
    split <;> exact ⟨hmode, .inl ⟨nofun, nofun, hst⟩⟩
  have hcommit := commit_received (c.applyRetransmissionOverrides parsed nowMs).2 parsed nowMs
  rw [Received, hmode, hst] at hcommit
  rw [Received]
  split <;> exact hcommit

/-- A message is refused and changes nothing, or it is the one of the exchange that the state waits for. -/
theorem receive_cases (c : Client) (message : Option (List UInt8)) (nowMs : Nat) :
    (c.receive message nowMs).1.positive = false ∧ (c.receive message nowMs).2 = c ∨
      ∃ bytes expectedType requireIa status parsed, message = some bytes ∧
        expectedReply c.state = some (expectedType, requireIa) ∧ messageTransaction bytes = c.transactionId ∧
        parseMessage bytes expectedType requireIa = .ok (status, parsed) ∧
        c.receive message nowMs = c.answer status parsed nowMs := by
  unfold Client.receive
  split
  · exact .inl ⟨rfl, rfl⟩
  rename_i bytes
  split
  · exact .inl ⟨rfl, rfl⟩
  split
  · exact .inl ⟨rfl, rfl⟩
  split
  · exact .inl ⟨rfl, rfl⟩
  split
  · exact .inl ⟨rfl, rfl⟩
  rename_i expectedType requireIa hexp
  split
  · exact .inl ⟨rfl, rfl⟩
  rename_i hid
  split
  · rename_i status hfail
    rw [parseMessage_error hfail]
    exact .inl ⟨rfl, rfl⟩
  · rename_i status parsed hparsed
    exact .inr ⟨bytes, expectedType, requireIa, status, parsed, rfl, hexp, not_not.mp hid, hparsed, rfl⟩

theorem receive_received (c : Client) (message : Option (List UInt8)) (nowMs : Nat) :
    Received c (c.receive message nowMs) := by
  rcases receive_cases c message nowMs with ⟨hpos, hsame⟩ | ⟨_, _, _, status, parsed, _, _, _, _, hanswer⟩
  · exact received_of_refused hpos hsame
  · rw [hanswer]
    exact answer_received c status parsed nowMs

end RinRuntime.Dhcpv6

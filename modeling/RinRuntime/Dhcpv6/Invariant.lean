/-
Dhcpv6.Invariant — the client over whole runs.

The calls do not keep `client_valid` alone: a message that waits must have been prepared for the state it
waits in. `Client.Inv` adds that, and every call keeps it but two: a Reconfigure that asks for a Renew after
the time of the Rebind, and an answer that is refused but shortens the longest interval of the running
exchange below its current one.

Main result: `run_valid_iff` — the client at the end of a run is valid exactly when no call of the run was
one of these two; otherwise every later call is answered with `INVALID_ARGUMENT`.
-/
import RinRuntime.Dhcpv6.Steps
import RinRuntime.Lib.Stepwise

namespace RinRuntime.Dhcpv6
open Lib.Tlv Lib.Stepwise Bool

/-! ## §1. The invariant. -/

/-- A waiting message was prepared for the exchange it waits in. -/
structure Client.PendingFits (c : Client) : Prop where
  room : c.pending.preparedAtMs ≤ maxUInt64 - maxRandomizedRtMs
  started : c.transactionStartedMs ≤ c.pending.preparedAtMs
  prepared : c.pending.preparedAtMs ≤ c.lastNowMs
  moves : ∀ m, c.move c.pending.kind (messageTransaction c.pending.message) = some m →
    (m.transition = true → c.generation ≠ maxUInt64) ∧ (m.phaseEnd ≠ 0 → c.pending.preparedAtMs < m.phaseEnd) ∧
      modeForbids c.mode m.state = false

/-- The invariant of the runs. -/
structure Client.Inv (c : Client) : Prop where
  valid : c.Valid
  started : c.transactionStartedMs ≤ c.lastNowMs
  bound : c.state = .bound → c.mode = .stateful
  startup : c.startupDelayed = true → c.generation ≠ maxUInt64
  fits : c.pendingPresent = true → c.PendingFits

variable {c : Client} {newTransactionId nowMs transactionId : Nat} {kind : TransmitKind} {m : Move}

/-- A quiet client without a waiting message. -/
theorem inv_of_quiet (hval : c.Valid) (habs : c.pendingPresent = false)
    (hstarted : c.transactionStartedMs = 0) (hbound : c.state = .bound → c.mode = .stateful)
    (hstartup : c.startupDelayed = false) : c.Inv where
  valid := hval
  started := by rw [hstarted]; exact Nat.zero_le _
  bound := hbound
  startup := fun h => absurd (hstartup.symm.trans h) false_ne_true
  fits := fun h => absurd (habs.symm.trans h) false_ne_true

theorem clearDynamic_inv (h : c.Framed) {generation : Nat} (hgen : generation ≠ 0) :
    ({ c with generation := generation }.clearDynamic).Inv :=
  inv_of_quiet (clearDynamic_valid h hgen) rfl rfl nofun rfl

theorem init_inv {duid : Option (List UInt8)} {iaid interfaceGeneration : Nat}
    (h : init duid iaid interfaceGeneration = some c) : c.Inv := by
  obtain ⟨hval, hidle⟩ := init_valid h
  rw [← hidle] at hval ⊢
  exact inv_of_quiet hval rfl rfl nofun rfl

theorem Client.Inv.later (h : c.Inv) (hnow : c.lastNowMs ≤ nowMs) : { c with lastNowMs := nowMs }.Inv :=
  { h with
    valid := h.valid.later nowMs
    started := Nat.le_trans h.started hnow
    fits := fun hpres =>
      { h.fits hpres with prepared := Nat.le_trans (h.fits hpres).prepared hnow } }

theorem idle_of_startupDelayed (h : c.startupDelayed = true) : c.state = .idle := by
  simp only [Client.startupDelayed, and_eq_true, decide_eq_true_eq] at h
  exact h.1.1

theorem expireLease_inv (h : c.Inv) : c.expireLease.2.Inv := by
  unfold Client.expireLease
  split
  · exact h
  · exact clearDynamic_inv h.valid.toFramed (Nat.succ_ne_zero _)

/-! ## §2. The calls that only stop, read or switch. -/

theorem setMode_inv (h : c.Inv) (mode : Nat) : (c.setMode mode).2.Inv := by
  unfold Client.setMode
  split
  · exact h
  split
  · exact h
  rename_i newMode _ hidle
  push Not at hidle
  obtain ⟨hval, hst, htxn, habs⟩ := hidle
  have habs' : c.pendingPresent = false := eq_false_of_ne_true habs
  have hnone : c.hasLease = false := by simp [Client.hasLease, hst, stateHasLease]
  refine inv_of_quiet ⟨{ hval.toFramed with
    mode := ?_
    lease := lease_of_none hnone (hval.toFramed.noLease hnone) }, hval.timers⟩ habs' ?_ ?_ ?_
  · show modeForbids newMode c.state = false
    rw [hst]
    cases newMode <;> rfl
  · exact ((timersValid_iff_of_quiet (by simp [hst, stateRetransmits])
      (by simp [hst, htxn, Client.firstSendPending, Client.startupDelayed])).mp hval.timers).1
  · intro hbound
    cases hst.symm.trans hbound
  · simp [Client.startupDelayed, htxn]

theorem stop_inv (h : c.Inv) : c.stop.2.Inv := by
  unfold Client.stop
  split
  · exact h
  split
  · exact h
  split
  · exact h
  · exact clearDynamic_inv h.valid.toFramed (Nat.succ_ne_zero _)

theorem getLease_inv (h : c.Inv) (nowMs : Nat) (output : Bool) : (c.getLease nowMs output).2.1.Inv := by
  unfold Client.getLease
  split
  · exact h
  split
  · exact h
  rename_i hnow
  have hlater := h.later (Nat.le_of_not_lt hnow)
  split
  · exact expireLease_inv hlater
  split
  · exact h
  · exact hlater

/-! ## §3. Reconfigure. -/

/-- A Renew is requested after the time of the Rebind. -/
def Client.RenewsLate (c : Client) (requested nowMs : Nat) : Prop :=
  c.Valid ∧ c.lastNowMs ≤ nowMs ∧ c.pendingPresent = false ∧ TransmitKind.ofCode requested = .renew ∧
  c.state = .bound ∧ c.mode = .stateful ∧ c.generation < maxUInt64 - 3 ∧ c.rebindAtMs ≤ nowMs ∧
  nowMs < c.expiresAtMs

instance (c : Client) (requested nowMs : Nat) : Decidable (c.RenewsLate requested nowMs) := by
  unfold Client.RenewsLate; infer_instance

/-- The ways a Reconfigure ends. -/
inductive Reconfigured (c : Client) (kind : TransmitKind) (nowMs : Nat) : Status × Client → Prop
  | refused {status : Status} (hstat : status ≠ .ok) : Reconfigured c kind nowMs (status, c)
  | expired (hnow : c.lastNowMs ≤ nowMs) (habs : c.pendingPresent = false)
      (htakes : c.takesReconfigure kind = true) (hgen : c.generation < maxUInt64 - 3)
      (hroom : kind = .rebind ∨ (kind = .informationRequest ∧ c.mode ≠ .information) →
        nowMs ≤ maxUInt64 - maxRandomizedRtMs) (hexpired : c.expiresAtMs ≤ nowMs) :
      Reconfigured c kind nowMs { c with lastNowMs := nowMs }.expireLease
  | started (hnow : c.lastNowMs ≤ nowMs) (habs : c.pendingPresent = false) (hbound : c.state = .bound)
      (hmode : c.mode = .stateful) (hgen : c.generation < maxUInt64 - 3) (hlive : nowMs < c.expiresAtMs)
      {state : State} (hst : kind = .rebind ∧ state = .reconfigureRebinding ∨
        kind = .informationRequest ∧ state = .reconfigureInformationRequesting) :
      Reconfigured c kind nowMs (.ok, { c with
        state := state
        transactionStartedMs := 0
        nextTransmitMs := nowMs
        retryMs := 0
        offerT1Seconds := retransmissionNotStarted
        lastNowMs := nowMs
        generation := c.generation + 1 })
  | renewed (hnow : c.lastNowMs ≤ nowMs) (habs : c.pendingPresent = false)
      (hgen : c.generation < maxUInt64 - 3) (hlive : nowMs < c.expiresAtMs)
      (hst : kind = .renew ∧ c.state = .bound ∧ c.mode = .stateful ∨
        kind = .informationRequest ∧ c.state = .informationBound ∧ c.mode = .information) :
      Reconfigured c kind nowMs
        (.ok, { c with renewAtMs := nowMs, lastNowMs := nowMs, generation := c.generation + 1 })

theorem requestReconfigure_cases (h : c.Valid) (requested nowMs : Nat) :
    Reconfigured c (TransmitKind.ofCode requested) nowMs (c.requestReconfigure requested nowMs) := by
  unfold Client.requestReconfigure
  dsimp only
  generalize TransmitKind.ofCode requested = kind
  rw [if_neg (not_not_intro h)]
  split
  · exact .refused nofun
  rename_i hnow
  split
  · exact .refused nofun
  rename_i hpres
  have habs : c.pendingPresent = false := eq_false_of_ne_true hpres
  split
  · rename_i htakes
    split
    · exact .refused nofun
    rename_i hroom
    push Not at hroom
    have hgen : c.generation < maxUInt64 - 3 := hroom.1
    split
    · rename_i hexpired
      exact .expired (Nat.le_of_not_lt hnow) habs htakes hgen hroom.2 hexpired
    rename_i hexpires
    have hlive : nowMs < c.expiresAtMs := Nat.lt_of_not_le hexpires
    simp only [Client.takesReconfigure, or_eq_true, and_eq_true, decide_eq_true_eq] at htakes
    rcases htakes with ((⟨⟨rfl, hst⟩, hmode⟩ | ⟨⟨rfl, hst⟩, hmode⟩) | ⟨⟨rfl, hst⟩, hmode⟩) |
      ⟨⟨rfl, hst⟩, hmode⟩
    · rw [if_neg nofun, if_neg (fun h => absurd h.1 nofun)]
      exact .renewed (Nat.le_of_not_lt hnow) habs hgen hlive (.inl ⟨rfl, hst, hmode⟩)
    · rw [if_pos rfl]
      exact .started (Nat.le_of_not_lt hnow) habs hst hmode hgen hlive (.inl ⟨rfl, rfl⟩)
    · rw [if_neg nofun, if_pos ⟨rfl, by rw [hmode]; nofun⟩]
      exact .started (Nat.le_of_not_lt hnow) habs hst hmode hgen hlive (.inr ⟨rfl, rfl⟩)
    · rw [if_neg nofun, if_neg (fun h => h.2 hmode)]
      exact .renewed (Nat.le_of_not_lt hnow) habs hgen hlive (.inr ⟨rfl, hst, hmode⟩)
  · exact .refused nofun

/-- A Reconfigure keeps the invariant, but for a Renew after the time of the Rebind. -/
theorem requestReconfigure_inv (h : c.Inv) {requested nowMs : Nat}
    (hfine : ¬ c.RenewsLate requested nowMs) : (c.requestReconfigure requested nowMs).2.Inv := by
  have hcases := requestReconfigure_cases h.valid requested nowMs
  generalize hres : c.requestReconfigure requested nowMs = result at hcases
  cases hcases with
  | refused hstat => exact h
  | expired hnow => exact expireLease_inv (h.later hnow)
  | @started hnow habs hbound hmode hgen hlive state hst =>
    have hst' : state = .reconfigureRebinding ∨ state = .reconfigureInformationRequesting :=
      hst.imp (fun h => h.2) (fun h => h.2)
    refine inv_of_quiet (h.valid.toFramed.reconfigured hbound hmode habs hst' nowMs _
      (Nat.succ_ne_zero _)) habs rfl ?_ ?_
    · rintro rfl
      exact absurd hst' (by decide)
    · rcases hst' with rfl | rfl <;> rfl
  | renewed hnow habs hgen hlive hst =>
    have hbef : c.state = .bound → nowMs < c.rebindAtMs := by
      intro hbound
      by_contra hrebind
      rcases hst with ⟨hkind, _, hmode⟩ | ⟨_, hinfo, _⟩
      · exact hfine ⟨h.valid, hnow, habs, hkind, hbound, hmode, hgen, Nat.le_of_not_lt hrebind, hlive⟩
      · cases hbound.symm.trans hinfo
    have hval := (renewed_valid_iff h.valid habs (hst.imp (fun h => h.2.1) (fun h => h.2)) nowMs
      (c.generation + 1) (Nat.succ_ne_zero _) hlive).mpr hbef
    have hidle : c.state ≠ .idle := by
      intro hidle
      rcases hst with ⟨_, hbound, _⟩ | ⟨_, hbound, _⟩ <;> cases hidle.symm.trans hbound
    exact {
      valid := hval
      started := Nat.le_trans h.started hnow
      bound := h.bound
      startup := fun hdel => absurd (idle_of_startupDelayed hdel) hidle
      fits := fun hpres => absurd (habs.symm.trans hpres) false_ne_true }

/-- A Renew after the time of the Rebind leaves its deadlines out of order. -/
theorem requestReconfigure_late {requested nowMs : Nat} (h : c.RenewsLate requested nowMs) :
    ¬ (c.requestReconfigure requested nowMs).2.Valid := by
  obtain ⟨hval, hnow, habs, hkind, hbound, hmode, hgen, hrebind, hlive⟩ := h
  have hres : (c.requestReconfigure requested nowMs).2 =
      { c with renewAtMs := nowMs, lastNowMs := nowMs, generation := c.generation + 1 } := by
    unfold Client.requestReconfigure
    rw [hkind, if_neg (not_not_intro hval), if_neg (Nat.not_lt_of_le hnow),
      if_neg (by rw [habs]; exact false_ne_true),
      if_pos (by simp [Client.takesReconfigure, hbound, hmode]), if_neg, if_neg (Nat.not_le_of_lt hlive),
      if_neg nofun, if_neg (fun h => absurd h.1 nofun)]
    rintro (hroom | ⟨hstarts, _⟩)
    · omega
    · rcases hstarts with hwrong | ⟨hwrong, _⟩ <;> cases hwrong
  rw [hres, renewed_valid_iff hval habs (.inl hbound) nowMs _ (Nat.succ_ne_zero _) hlive]
  intro hbef
  exact absurd (hbef hbound) (Nat.not_lt_of_le hrebind)

/-! ## §4. Preparing. -/

/-- A message that is built and kept. -/
theorem enqueue_eq (h : c.Framed) (kind : TransmitKind) (hrange : transactionId ≤ 0xffffff) (nowMs : Nat) :
    ∃ transmit, c.enqueue kind transactionId nowMs = {
        status := .packetReady
        client := { c with
          nextTransmitSequence := if c.nextTransmitSequence = maxUInt32 then 0 else c.nextTransmitSequence + 1
          pending := transmit
          pendingPresent := true
          lastNowMs := nowMs }
        transmit := transmit } ∧
      transmit.sequence = c.nextTransmitSequence ∧ Built c kind transactionId nowMs transmit := by
  obtain ⟨transmit, hbuilds, hbuilt⟩ := buildMessage_spec h kind hrange nowMs
  refine ⟨{ transmit with sequence := c.nextTransmitSequence }, ?_, rfl, { hbuilt with }⟩
  unfold Client.enqueue
  rw [hbuilds]

/-- The invariant with a message kept for the exchange it was built for. -/
theorem enqueue_inv (hval : c.Valid) (hbound : c.state = .bound → c.mode = .stateful)
    (hstartup : c.startupDelayed = true → c.generation ≠ maxUInt64)
    {transactionId nowMs : Nat} (hkind : kind ≠ .none) (htxn : transactionId ≠ 0)
    (hrange : transactionId ≤ 0xffffff) (hstarted : c.transactionStartedMs ≤ nowMs)
    (hroom : nowMs ≤ maxUInt64 - maxRandomizedRtMs) (hsequence : c.nextTransmitSequence ≠ 0)
    (hmoves : ∀ m, c.move kind transactionId = some m →
      (m.transition = true → c.generation ≠ maxUInt64) ∧ (m.phaseEnd ≠ 0 → nowMs < m.phaseEnd) ∧
        modeForbids c.mode m.state = false) : (c.enqueue kind transactionId nowMs).client.Inv := by
  obtain ⟨transmit, heq, hseq, hbuilt⟩ := enqueue_eq hval.toFramed kind hrange nowMs
  have hprep := hbuilt.prepared
  rw [heq]
  have hpend : transmit.version = clientVersion ∧ transmit.structSize = transmitSize ∧
      transmit.ownerGeneration = c.generation ∧ transmit.sequence ≠ 0 ∧ transmit.reserved = 0 ∧
      4 ≤ transmit.message.length ∧ transmit.message.length ≤ maxMessageSize ∧
      transmit.message.getD 0 0 = transmit.kind.code ∧ transmit.kind ≠ .none ∧
      messageTransaction transmit.message ≠ 0 :=
    ⟨hbuilt.version, hbuilt.structSize, hbuilt.owner, by rw [hseq]; exact hsequence, hbuilt.reserved,
      hbuilt.complete, hbuilt.fits, by rw [hbuilt.sort]; exact hbuilt.type, by rw [hbuilt.sort]; exact hkind,
      by rw [hbuilt.transaction]; exact htxn⟩
  exact {
    valid := ⟨{ hval.toFramed with pending := hpend }, hval.timers⟩
    started := hstarted
    bound := hbound
    startup := hstartup
    fits := fun _ => {
      room := by show transmit.preparedAtMs ≤ _; rw [hprep]; exact hroom
      started := by show _ ≤ transmit.preparedAtMs; rw [hprep]; exact hstarted
      prepared := Nat.le_of_eq hprep
      moves := by
        intro m hmove
        show _ ∧ (_ → transmit.preparedAtMs < m.phaseEnd) ∧ _
        rw [hprep]
        refine hmoves m ?_
        rw [← hbuilt.sort, ← hbuilt.transaction]
        exact hmove } }

/-- Whatever is due of a bound client opens a transaction. -/
theorem due_opens (hst : c.state = .bound) (hdue : (c.due nowMs).1 ≠ .none) :
    (c.due nowMs).2 = true := by
  by_cases hrebind : c.rebindAtMs ≤ nowMs
  · simp [Client.due, hst, hrebind]
  by_cases hrenew : c.renewAtMs ≤ nowMs
  · simp [Client.due, hst, hrebind, hrenew]
  · simp [Client.due, hst, hrebind, hrenew] at hdue

/-- What is due of an idle client is the message of its mode. -/
theorem due_idle (hst : c.state = .idle) (hdue : (c.due nowMs).1 ≠ .none) :
    (c.due nowMs).1 = if c.mode = .information then .informationRequest else .solicit := by
  by_cases hdel : c.startupDelayed = true <;> by_cases hnext : c.nextTransmitMs ≤ nowMs <;>
    simp_all [Client.due]

/-- It leads to a state of that mode. -/
theorem move_idle_mode (hst : c.state = .idle)
    (hmove : c.move (if c.mode = .information then .informationRequest else .solicit) transactionId = some m) :
    modeForbids c.mode m.state = false := by
  cases hmode : c.mode <;> simp only [Client.move, hst, hmode, reduceCtorEq, if_false, if_true] at hmove
  all_goals
    split at hmove <;> cases hmove
    rfl

/-- The message that is due continues the exchange of its state or opens a transaction, within the phase it
    belongs to. -/
theorem due_move (h : c.Inv) (hlive : ¬ (c.hasLease = true ∧ c.expiresAtMs ≤ nowMs))
    (hmove : c.move (c.due nowMs).1 transactionId = some m) :
    (m.transition = true → (c.due nowMs).2 = true ∨ c.startupDelayed = true) ∧
      (m.phaseEnd ≠ 0 → nowMs < m.phaseEnd) ∧ modeForbids c.mode m.state = false := by
  have hleased (hlease : stateHasLease c.state = true) : nowMs < c.expiresAtMs := by
    by_contra hexpired
    exact hlive ⟨hasLease_of_state hlease, Nat.le_of_not_lt hexpired⟩
  -- a Renew is due before the time of the Rebind only
  have hrenew (hkind : (c.due nowMs).1 = .renew) (hst : c.state = .bound ∨ c.state = .renewing) :
      nowMs < c.rebindAtMs := by
    by_contra hrebind
    have hle : c.rebindAtMs ≤ nowMs := Nat.le_of_not_lt hrebind
    rcases hst with hst | hst <;> simp [Client.due, hst, hle] at hkind
  have hph : m.phaseEnd ≠ 0 → nowMs < m.phaseEnd := by
    intro hph
    rcases move_phase hmove hph with ⟨heq, hkind, hst⟩ | ⟨heq, hlease⟩
    · rw [heq]
      exact hrenew hkind hst
    · rw [heq]
      exact hleased hlease
  have hidle (hst : c.state = .idle) (hdue : (c.due nowMs).1 ≠ .none) :
      ((c.due nowMs).2 = true ∨ c.startupDelayed = true) ∧ modeForbids c.mode m.state = false := by
    rw [due_idle hst hdue] at hmove
    refine ⟨?_, move_idle_mode hst hmove⟩
    by_cases hdel : c.startupDelayed = true
    · exact .inr hdel
    · exact .inl (by simp [Client.due, hst, hdel])
  rcases move_cases hmove with ⟨hsame, _, hkind, hopens, _⟩ | ⟨_, hedge⟩
  · refine ⟨fun htransition => .inl ?_, hph, by rw [hsame]; exact h.valid.mode⟩
    obtain ⟨hnotStarted, hst⟩ := hopens htransition
    rcases hst with hst | hst <;> rw [hst] at hkind <;>
      by_cases hdue : c.nextTransmitMs ≤ nowMs <;> simp_all [Client.due, retransmissionKindForState]
  rcases hedge with ⟨hst, hkind, hnext⟩ | ⟨hst, hkind, hnext⟩ | ⟨hst, hkind, hnext⟩ |
    ⟨hst, hkind, hnext⟩ | ⟨hst, hkind, hnext⟩ | ⟨hst, hkind, hnext⟩ | ⟨hst, hkind, hnext⟩
  · obtain ⟨hopens, hmode⟩ := hidle hst (by rw [hkind]; decide)
    exact ⟨fun _ => hopens, hph, hmode⟩
  · obtain ⟨hopens, hmode⟩ := hidle hst (by rw [hkind]; decide)
    exact ⟨fun _ => hopens, hph, hmode⟩
  · refine ⟨fun _ => .inl (by simp [Client.due, hst]), hph, ?_⟩
    rw [h.valid.stateful_of_state (by rw [hst]; rfl), hnext]
    rfl
  · refine ⟨fun _ => .inl (due_opens hst (by rw [hkind]; decide)), hph, ?_⟩
    rw [h.bound hst, hnext]
    rfl
  · refine ⟨fun _ => .inl (due_opens hst (by rw [hkind]; decide)), hph, ?_⟩
    rw [h.bound hst, hnext]
    rfl
  · refine ⟨fun _ => .inl ?_, hph, ?_⟩
    · by_cases hrebind : c.rebindAtMs ≤ nowMs <;> by_cases hdue : c.nextTransmitMs ≤ nowMs <;>
        simp_all [Client.due]
    · rw [h.valid.stateful_of_state (by rw [hst]; rfl), hnext]
      rfl
  refine ⟨fun _ => .inl ?_, hph, ?_⟩
  · by_cases hdue : c.renewAtMs ≤ nowMs <;> simp_all [Client.due]
  · rw [h.valid.information_of_state (by rw [hst]; rfl), hnext]
    rfl

/-- A message with `transactionId` goes out: it is due, and the clock, the numbers of the messages and the
    generations have room for it. -/
structure Client.Sends (c : Client) (newTransactionId nowMs transactionId : Nat) : Prop where
  later : c.lastNowMs ≤ nowMs
  live : ¬ (c.hasLease = true ∧ c.expiresAtMs ≤ nowMs)
  absent : c.pendingPresent = false
  due : (c.due nowMs).1 ≠ .none
  clock : nowMs ≤ maxUInt64 - maxRandomizedRtMs
  sequence : c.nextTransmitSequence ≠ 0
  opens : (c.due nowMs).2 = true → c.generation ≠ maxUInt64
  first : c.state = .idle → c.transactionId = 0 → c.generation < maxUInt64 - 1
  chosen : transactionId = if (c.due nowMs).2 = true then newTransactionId else c.transactionId
  transaction : transactionId ≠ 0
  range : transactionId ≤ 0xffffff

/-- An idle client that chooses its first transaction. -/
def Client.chooses (c : Client) (transactionId nowMs : Nat) : Client :=
  { c with
    transactionId := transactionId
    offerT1Seconds := retransmissionNotStarted
    nextTransmitMs := nowMs + c.startupDelay transactionId
    generation := c.generation + 1 }

/-- An idle client that has chosen its first transaction waits for its delay. -/
theorem startup_valid (h : c.Valid) (hsends : c.Sends newTransactionId nowMs transactionId)
    (hst : c.state = .idle) (hnone : c.transactionId = 0) :
    (c.chooses transactionId nowMs).Valid ∧ c.transactionStartedMs = 0 := by
  have htimers := (timersValid_iff_of_quiet (by simp [hst, stateRetransmits])
    (by simp [hst, hnone, Client.firstSendPending, Client.startupDelayed])).mp h.timers
  have hdel : (c.chooses transactionId nowMs).startupDelayed = true := by
    simp [Client.startupDelayed, Client.chooses, hst, hsends.transaction]
  refine ⟨⟨{ h.toFramed with
    generation := Nat.succ_ne_zero _
    transactionId := hsends.range
    pending := pendingValid_of_absent h.pending hsends.absent hsends.absent rfl
    idle := fun hidle => hsends.transaction hidle.2.1
    transaction := fun hzero => hsends.transaction hzero.2
    startup := fun hidle => false_ne_true (hidle.2.2.symm.trans hdel) }, ?_⟩, htimers.1⟩
  unfold Client.TimersValid
  rw [if_pos (.inr (by simp [Client.firstSendPending, hdel])), if_pos (by rfl)]
  refine ⟨⟨by simp [Client.firstSendPending, hdel], htimers.1, htimers.2.2.1⟩, ?_⟩
  intro hrequesting
  cases hst.symm.trans hrequesting

/-- What `prepare` can do: nothing, an expired lease, a later time, or a message. -/
def Client.Prepares (c : Client) (newTransactionId nowMs : Nat) (output : Bool) (p : Prepared) : Prop :=
  (∃ status, p = ⟨status, c, .zero⟩) ∨
  (output = true ∧ c.lastNowMs ≤ nowMs ∧ (c.hasLease = true ∧ c.expiresAtMs ≤ nowMs) ∧
    p = ⟨({ c with lastNowMs := nowMs }.expireLease).1, ({ c with lastNowMs := nowMs }.expireLease).2, .zero⟩) ∨
  (c.lastNowMs ≤ nowMs ∧ p = ⟨.ok, { c with lastNowMs := nowMs }, .zero⟩) ∨
  ∃ transactionId, c.Sends newTransactionId nowMs transactionId ∧
    ((c.state = .idle ∧ c.transactionId = 0 ∧
      (p = ⟨.ok, { c.chooses transactionId nowMs with lastNowMs := nowMs }, .zero⟩ ∨
        p = (c.chooses transactionId nowMs).enqueue (c.due nowMs).1 transactionId nowMs)) ∨
    p = c.enqueue (c.due nowMs).1 transactionId nowMs)

theorem prepare_cases (c : Client) (newTransactionId nowMs : Nat) (output : Bool) :
    c.Prepares newTransactionId nowMs output (c.prepare newTransactionId nowMs output) := by
  unfold Client.prepare
  split
  · exact .inl ⟨_, rfl⟩
  rename_i hargs
  split
  · exact .inl ⟨_, rfl⟩
  rename_i hnow
  have hlater : c.lastNowMs ≤ nowMs := Nat.le_of_not_lt hnow
  split
  · rename_i hexpired
    exact .inr (.inl ⟨eq_true_of_ne_false (not_or.mp hargs).2, hlater, hexpired, rfl⟩)
  rename_i hlive
  split
  · exact .inl ⟨_, rfl⟩
  rename_i hpres
  dsimp only
  generalize hchosen : (if (c.due nowMs).2 = true then newTransactionId else c.transactionId) = transactionId
  split
  · exact .inr (.inr (.inl ⟨hlater, rfl⟩))
  rename_i hdue
  split
  · exact .inl ⟨_, rfl⟩
  rename_i hroom
  push Not at hroom
  obtain ⟨hclock, hsequence, hopens, hfst⟩ := hroom
  split
  · exact .inl ⟨_, rfl⟩
  rename_i hid
  push Not at hid
  obtain ⟨htxn, hrange, _⟩ := hid
  refine .inr (.inr (.inr ⟨transactionId, ⟨hlater, hlive, eq_false_of_ne_true hpres, hdue, hclock,
    hsequence, hopens, hfst, hchosen.symm, htxn, hrange⟩, ?_⟩))
  split
  · rename_i hidle
    split
    · exact .inl ⟨hidle.1, hidle.2, .inl rfl⟩
    · exact .inl ⟨hidle.1, hidle.2, .inr rfl⟩
  · exact .inr rfl

/-- **A prepared message fits the exchange it waits in.** -/
theorem prepare_inv (h : c.Inv) (newTransactionId nowMs : Nat) (output : Bool) :
    (c.prepare newTransactionId nowMs output).client.Inv := by
  have hfst {transactionId : Nat} (hsends : c.Sends newTransactionId nowMs transactionId)
      (hst : c.state = .idle) (hnone : c.transactionId = 0) : c.generation + 1 ≠ maxUInt64 := by
    have hmax : maxUInt64 = 2 ^ 64 - 1 := rfl
    have hlt := hsends.first hst hnone
    omega
  rcases prepare_cases c newTransactionId nowMs output with ⟨_, heq⟩ | ⟨_, hlater, _, heq⟩ | ⟨hlater, heq⟩ |
    ⟨transactionId, hsends, ⟨hst, hnone, heq | heq⟩ | heq⟩ <;> rw [heq]
  · exact h
  · exact expireLease_inv (h.later hlater)
  · exact h.later hlater
  · obtain ⟨hval, hstarted⟩ := startup_valid h.valid hsends hst hnone
    exact {
      valid := hval.later nowMs
      started := by show c.transactionStartedMs ≤ nowMs; rw [hstarted]; exact Nat.zero_le _
      bound := h.bound
      startup := fun _ => hfst hsends hst hnone
      fits := fun hpres => absurd (hsends.absent.symm.trans hpres) false_ne_true }
  · obtain ⟨hval, _⟩ := startup_valid h.valid hsends hst hnone
    refine enqueue_inv hval h.bound (fun _ => hfst hsends hst hnone) hsends.due hsends.transaction
      hsends.range (Nat.le_trans h.started hsends.later) hsends.clock hsends.sequence ?_
    intro m hmove
    refine ⟨fun _ => hfst hsends hst hnone, ?_, ?_⟩
    · intro hph
      rcases move_phase hmove hph with ⟨_, _, hbound | hbound⟩ | ⟨_, hlease⟩
      · cases hst.symm.trans hbound
      · cases hst.symm.trans hbound
      have hlease : stateHasLease c.state = true := hlease
      rw [hst] at hlease
      cases hlease
    -- the message of the record with its transaction is the one that was due without it
    rw [due_idle hst hsends.due] at hmove
    exact move_idle_mode hst hmove
  refine enqueue_inv h.valid h.bound h.startup hsends.due hsends.transaction hsends.range
    (Nat.le_trans h.started hsends.later) hsends.clock hsends.sequence ?_
  intro m hmove
  obtain ⟨htransition, hph, hmode⟩ := due_move h hsends.live hmove
  refine ⟨?_, hph, hmode⟩
  intro hm
  rcases htransition hm with hnew | hdel
  · exact hsends.opens hnew
  · exact h.startup hdel

/-! ## §5. Sent messages. -/

/-- An exchange that is continued has its timer running within its bounds. -/
theorem running_of_again (h : c.Valid)
    (hmove : c.move kind transactionId = some m) (hagain : m.transition = false) :
    m.state = c.state ∧ transactionId = c.transactionId ∧ c.offerT1Seconds ≠ retransmissionNotStarted ∧
      c.RetryInRange kind ∧ (c.state = .requesting → c.offerT1Seconds < requestMaxRetransmissions) := by
  rcases move_cases hmove with ⟨hsame, hretx, hkind, _, hid⟩ | ⟨hopens, _⟩
  · have htimers := h.timers
    unfold Client.TimersValid at htimers
    rw [if_pos (.inl hretx)] at htimers
    obtain ⟨htimer, hrequest⟩ := htimers
    have hstarted : c.offerT1Seconds ≠ retransmissionNotStarted := by
      intro hnot
      rw [if_pos hnot] at htimer
      -- only a Reconfigure waits in a state that retransmits, and its first message opens the transaction
      have hfst := htimer.1
      cases hst : c.state <;> cases kind <;>
        simp_all [Client.move, Client.firstSendPending, Client.startupDelayed, retransmissionKindForState,
          stateRetransmits]
      all_goals rw [← hmove] at hagain; cases hagain
    rw [if_neg hstarted, hkind] at htimer
    exact ⟨hsame, hid hagain, hstarted, htimer.2.2, hrequest⟩
  · exact absurd (hagain.symm.trans hopens) false_ne_true

/-- The base of the next interval lies within the bounds of its kind. -/
theorem laterBaseMs_bounds (h : c.Framed) (hretry : c.RetryInRange kind) :
    retransmissionIrtMs kind ≤ laterBaseMs c kind ∧ laterBaseMs c kind ≤ retransmissionMrtMs c kind := by
  have hirt := irt_le_mrt h kind
  have hmin := hretry.1
  have hdouble : retransmissionIrtMs kind ≤
      if maxUInt64 / 2 < c.retryMs then retransmissionMrtMs c kind else c.retryMs * 2 := by
    split
    · exact hirt
    · omega
  unfold laterBaseMs
  dsimp only
  generalize (if maxUInt64 / 2 < c.retryMs then retransmissionMrtMs c kind else c.retryMs * 2) = double
    at hdouble ⊢
  split <;> omega

/-- The next message is not due before this one was prepared. -/
theorem next_after_prepared (hfits : c.PendingFits) {phaseEnd retry : Nat}
    (hretry : retry ≤ maxRandomizedRtMs) (hph : phaseEnd ≠ 0 → c.pending.preparedAtMs < phaseEnd) :
    c.pending.preparedAtMs ≤ earlierDeadline ((c.pending.preparedAtMs + retry) % 2 ^ 64) phaseEnd := by
  have hroom := hfits.room
  have hmax : maxUInt64 = 2 ^ 64 - 1 := rfl
  have hrange : maxRandomizedRtMs = 95040000 := rfl
  refine le_earlierDeadline ?_ (fun hend => Nat.le_of_lt (hph hend))
  rw [Nat.mod_eq_of_lt (by omega)]
  exact Nat.le_add_right _ _

/-- The invariant of a client whose message was sent and whose timer runs. -/
theorem sent_inv (h : c.Inv) (hpres : c.pendingPresent = true)
    (hmove : c.move c.pending.kind (messageTransaction c.pending.message) = some m)
    {generation started retry retransmissions offerT2 : Nat} (hgen : generation ≠ 0)
    (hstarted : started ≤ c.pending.preparedAtMs)
    (hretry : retransmissionIrtMs c.pending.kind - retransmissionIrtMs c.pending.kind / 10 ≤ retry ∧
      retry ≤ retransmissionMrtMs c c.pending.kind + retransmissionMrtMs c c.pending.kind / 10)
    (hcnt : retransmissions ≠ retransmissionNotStarted)
    (hrequest : m.state = .requesting → retransmissions < requestMaxRetransmissions) (hofferT2 : offerT2 = 0) :
    { c with
      state := m.state
      generation := generation
      transactionId := messageTransaction c.pending.message
      transactionStartedMs := started
      nextTransmitMs := earlierDeadline ((c.pending.preparedAtMs + retry) % 2 ^ 64) m.phaseEnd
      retryMs := retry
      offerT1Seconds := retransmissions
      offerT2Seconds := offerT2
      pendingPresent := false
      pending := .zero }.Inv := by
  have hfits := h.fits hpres
  have hframed := h.valid.toFramed
  have hpend := h.valid.pending
  unfold Client.PendingValid at hpend
  rw [if_neg (by rw [hpres]; nofun)] at hpend
  obtain ⟨_, _, _, _, _, _, _, _, _, hid⟩ := hpend
  obtain ⟨_, hph, hmode⟩ := hfits.moves m hmove
  obtain ⟨_, _, _, hidle, _, hretx⟩ := move_flags hframed hmove
  have hnext := next_after_prepared hfits (Nat.le_trans hretry.2 (mrt_le_room hframed _)) hph
  exact {
    valid := sent_valid hframed hmove hmode hgen hid (messageTransaction_le _)
      (Nat.le_trans hstarted hnext) hretry hcnt hrequest hofferT2
    started := Nat.le_trans hstarted hfits.prepared
    bound := by
      intro hbound
      rw [show m.state = .bound from hbound] at hretx
      exact absurd hretx (by decide)
    startup := fun hdel => absurd (idle_of_startupDelayed hdel) hidle
    fits := nofun }

theorem clearPending_inv (h : c.Inv) : c.clearPending.Inv :=
  { h with valid := { h.valid with pending := rfl }, fits := nofun }

/-- **A sent message keeps the invariant**: it opens the exchange it was prepared for, continues it or
    gives it up. -/
theorem completeTransmit_inv (h : c.Inv) (transmit : Option Transmit) (sentSuccessfully : Int) :
    (c.completeTransmit transmit sentSuccessfully).2.Inv := by
  cases transmit with
  | none => exact h
  | some transmit =>
    unfold Client.completeTransmit
    dsimp only
    split
    · exact h
    rename_i hargs
    push Not at hargs
    obtain ⟨_, hpres, rfl, _⟩ := hargs
    have hpres' : c.pendingPresent = true := eq_true_of_ne_false hpres
    have hframed := h.valid.toFramed
    split
    · exact clearPending_inv h
    split
    · exact h
    rename_i m hmove
    split
    · rename_i hexhausted
      exact absurd hexhausted.2 (((h.fits hpres').moves m hmove).1 hexhausted.1)
    split
    · -- the first message of a transaction
      obtain ⟨hlow, hhigh⟩ := randomizedRt_bounds { c with
        state := m.state
        generation := c.generation + 1
        transactionId := messageTransaction c.pending.message } (retransmissionIrtMs c.pending.kind)
        (c.pending.kind = .solicit) c.pending.kind (messageTransaction c.pending.message) c.pending.sequence
      have hirt := irt_le_mrt hframed c.pending.kind
      exact sent_inv h hpres' hmove (Nat.succ_ne_zero _) (Nat.le_refl _)
        ⟨hlow, Nat.le_trans hhigh (by omega)⟩ (by decide : 0 ≠ retransmissionNotStarted)
        (fun _ => (by decide : 0 < requestMaxRetransmissions)) rfl
    rename_i hopens
    obtain ⟨hsame, hid, hcnt, hinRange, hrequest⟩ :=
      running_of_again h.valid hmove (eq_false_of_ne_true hopens)
    split
    · -- the last retransmission of a Request
      refine clearDynamic_inv (c := { c with
        state := m.state, transactionId := messageTransaction c.pending.message }) ?_ ?_
      · rw [hsame, hid]
        exact hframed
      split
      · exact Nat.succ_ne_zero _
      · exact hframed.generation
    rename_i hleft
    obtain ⟨hbaseLow, hbaseHigh⟩ := laterBaseMs_bounds hframed hinRange
    have hmax : maxUInt32 = 2 ^ 32 - 1 := rfl
    have hlimit : requestMaxRetransmissions = 10 := rfl
    have hnot : retransmissionNotStarted = maxUInt32 := rfl
    generalize hnew : (if c.offerT1Seconds < maxUInt32 - 1 then c.offerT1Seconds + 1
      else c.offerT1Seconds) = retransmissions
    have hcnt' : retransmissions ≠ retransmissionNotStarted := by
      rw [← hnew]
      split <;> omega
    have hrequest' : m.state = .requesting → retransmissions < requestMaxRetransmissions := by
      intro hst
      have hlt := hrequest (hsame.symm.trans hst)
      have hkind : c.pending.kind = .request := by
        have hkind := (move_flags hframed hmove).2.2.2.2.1
        rw [hst] at hkind
        exact hkind.symm
      have hmrc : retransmissionMrc c.pending.kind = 10 := by rw [hkind]; rfl
      rw [hmrc] at hleft
      have hlast : ¬ (10 ≤ c.offerT1Seconds + 1) := fun hlast => hleft ⟨by decide, hlt, hlast⟩
      rw [← hnew]
      split <;> omega
    obtain ⟨hlow, hhigh⟩ := randomizedRt_bounds { c with
      state := m.state
      transactionId := messageTransaction c.pending.message
      offerT1Seconds := retransmissions } (laterBaseMs c c.pending.kind) false c.pending.kind
      (messageTransaction c.pending.message) c.pending.sequence
    exact sent_inv h hpres' hmove hframed.generation (h.fits hpres').started
      ⟨Nat.le_trans (by omega) hlow, Nat.le_trans hhigh (by omega)⟩ hcnt' hrequest' hframed.offerT2

/-! ## §6. Answers. -/

/-- The client after the maxima of an answer were read. -/
def Client.overridden (c : Client) (parsed : Parsed) (nowMs : Nat) : Client :=
  (c.applyRetransmissionOverrides parsed nowMs).2

/-- The option that sets the longest interval of a state's exchange: whether an answer has it, and its seconds. -/
def Parsed.maximum (parsed : Parsed) : State → Bool × Nat
  | .soliciting => (parsed.solMaxRtSeen, parsed.solMaxRtSeconds)
  | .informationRequesting | .reconfigureInformationRequesting => (parsed.infMaxRtSeen, parsed.infMaxRtSeconds)
  | _ => (false, 0)

/-- The answer carries a maximum in range that, a tenth longer, is shorter than the interval the exchange
    waits, and the client can take it over. -/
def Client.shortens (c : Client) (parsed : Parsed) : Bool :=
  let (seen, seconds) := parsed.maximum c.state
  seen && maxRtOptionMinSeconds ≤ seconds && seconds ≤ maxRtOptionMaxSeconds && 1100 * seconds < c.retryMs &&
  c.overridable parsed && c.generation ≠ maxUInt64 && c.offerT1Seconds ≠ retransmissionNotStarted

/-- The message, or a counter that is used up, makes the client refuse the answer after it took a maximum over. -/
def Client.refuses (c : Client) (status : Status) (parsed : Parsed) (nowMs : Nat) : Bool :=
  status = .serverRejected || c.generation + 1 = maxUInt64 ||
  match c.state with
  | .soliciting =>
      !c.identityMatches parsed || !addressUsable parsed.address ||
      lifetimesNormalize parsed.validSeconds parsed.preferredSeconds parsed.t1Seconds parsed.t2Seconds = none
  | .informationRequesting =>
      let refreshSeconds := informationRefreshNormalize
        (if parsed.informationRefreshSeen then parsed.informationRefreshSeconds else 0)
      c.mode ≠ .information || parsed.iaSeen || parsed.addressSeen || c.nextLeaseGeneration = 0 ||
      maxUInt64 - refreshSeconds * 2 * 1000 < nowMs
  | _ => c.mode = .information || parsed.iaSeen || parsed.addressSeen || c.nextLeaseGeneration = 0

/-- An answer that is refused shortens the longest interval below the current one. -/
def Client.LowersMaximum (c : Client) (message : List UInt8) (nowMs : Nat) : Prop :=
  c.Valid ∧ 4 ≤ message.length ∧ message.length ≤ maxMessageSize ∧ c.lastNowMs ≤ nowMs ∧
  c.pendingPresent = false ∧ messageTransaction message = c.transactionId ∧
  match expectedReply c.state with
  | none => False
  | some (expectedType, requireIa) =>
      match parseMessage message expectedType requireIa with
      | .error _ => False
      | .ok (status, parsed) => c.refuses status parsed nowMs = true ∧ c.shortens parsed = true

instance (c : Client) (message : List UInt8) (nowMs : Nat) : Decidable (c.LowersMaximum message nowMs) := by
  unfold Client.LowersMaximum
  have : Decidable (match expectedReply c.state with
      | none => False
      | some (expectedType, requireIa) =>
          match parseMessage message expectedType requireIa with
          | .error _ => False
          | .ok (status, parsed) => c.refuses status parsed nowMs = true ∧ c.shortens parsed = true) := by
    split
    · infer_instance
    · split <;> infer_instance
  infer_instance

theorem optionMaximum_inRange {seen : Bool} {seconds current : Nat}
    (h : maxRtOptionMinSeconds ≤ current ∧ current ≤ maxRtOptionMaxSeconds) :
    maxRtOptionMinSeconds ≤ optionMaximum seen seconds current ∧
      optionMaximum seen seconds current ≤ maxRtOptionMaxSeconds := by
  unfold optionMaximum
  split
  · rename_i hseen
    exact hseen.2
  · exact h

/-- What reading the maxima does to the record. -/
structure Overridden (c : Client) (nowMs : Nat) (c' : Client) : Prop where
  framed : c'.Framed
  same : ∃ generation solMaxRt infMaxRt lastNow, (lastNow = c.lastNowMs ∨ lastNow = nowMs) ∧
    c' = { c with
      generation := generation
      offerPreferredSeconds := solMaxRt
      offerValidSeconds := infMaxRt
      lastNowMs := lastNow }

theorem overridden_spec (h : c.Framed) (habs : c.pendingPresent = false) (parsed : Parsed)
    (nowMs : Nat) : Overridden c nowMs (c.overridden parsed nowMs) := by
  have hrefl : Overridden c nowMs c := ⟨h, c.generation, c.offerPreferredSeconds, c.offerValidSeconds,
    c.lastNowMs, .inl rfl, rfl⟩
  unfold Client.overridden
  rcases overrides_cases c parsed nowMs with hcase | hcase | hcase <;> rw [hcase]
  · exact hrefl
  · exact hrefl
  exact ⟨{ h with
    generation := Nat.succ_ne_zero _
    solMaxRt := optionMaximum_inRange h.solMaxRt
    infMaxRt := optionMaximum_inRange h.infMaxRt
    pending := pendingValid_of_absent h.pending habs habs rfl }, _, _, _, _, .inr rfl, rfl⟩

/-- The overrides report an error only where they changed nothing. -/
theorem overridden_of_error {parsed : Parsed}
    (h : (c.applyRetransmissionOverrides parsed nowMs).1 ≠ .ok) : c.overridden parsed nowMs = c := by
  unfold Client.overridden
  rcases overrides_cases c parsed nowMs with hcase | hcase | hcase <;> rw [hcase] at h ⊢
  exact absurd rfl h

/-- The timers stay valid where the running interval is within the new maximum. -/
theorem overridden_timers_iff {c c' : Client} (h : c.Valid) (ho : Overridden c nowMs c')
    (hretx : stateRetransmits c.state = true) :
    c'.TimersValid ↔ (c.offerT1Seconds ≠ retransmissionNotStarted →
      c.retryMs ≤ retransmissionMrtMs c' (retransmissionKindForState c.state) +
        retransmissionMrtMs c' (retransmissionKindForState c.state) / 10) := by
  have htimers := h.timers
  obtain ⟨_, generation, solMaxRt, infMaxRt, lastNow, _, rfl⟩ := ho
  unfold Client.TimersValid at htimers ⊢
  rw [if_pos (.inl hretx)] at htimers
  rw [if_pos (.inl hretx)]
  by_cases hnot : c.offerT1Seconds = retransmissionNotStarted
  · rw [if_pos hnot] at htimers
    rw [if_pos hnot]
    exact ⟨fun _ hstarted => absurd hnot hstarted, fun _ => htimers⟩
  rw [if_neg hnot] at htimers
  rw [if_neg hnot]
  obtain ⟨⟨hkind, hnext, hmin, hmax⟩, hrequest⟩ := htimers
  exact ⟨fun hnew _ => hnew.1.2.2.2, fun hmax' => ⟨⟨hkind, hnext, hmin, hmax' hnot⟩, hrequest⟩⟩

/-- The maxima of an answer the overrides read; the generation must have a successor. -/
theorem overridden_maxima (c : Client) (parsed : Parsed) (nowMs : Nat) :
    let read := c.overridable parsed = true ∧ c.generation ≠ maxUInt64
    (c.overridden parsed nowMs).offerPreferredSeconds =
        optionMaximum (parsed.solMaxRtSeen && read) parsed.solMaxRtSeconds c.offerPreferredSeconds ∧
      (c.overridden parsed nowMs).offerValidSeconds =
        optionMaximum (parsed.infMaxRtSeen && read) parsed.infMaxRtSeconds c.offerValidSeconds := by
  unfold Client.overridden Client.applyRetransmissionOverrides
  dsimp only
  split_ifs with hskip hsame hgen
  · simp [optionMaximum, hskip]
  · by_cases hgen : c.generation = maxUInt64
    · simp [optionMaximum, hgen]
    · simp [hskip, hgen, hsame]
  · simp [optionMaximum, hgen]
  · simp [hskip, hgen]

/-- An answer shortens the interval exactly if its maxima make the timers invalid. -/
theorem shortens_iff {parsed : Parsed} (h : c.Valid) (ho : Overridden c nowMs (c.overridden parsed nowMs))
    (hretx : stateRetransmits c.state = true) :
    c.shortens parsed = true ↔ ¬ (c.overridden parsed nowMs).TimersValid := by
  have hsame : Overridden c nowMs c := ⟨h.toFramed, _, _, _, _, .inl rfl, rfl⟩
  have hold := (overridden_timers_iff h hsame hretx).mp h.timers
  obtain ⟨hsol, hinf⟩ := overridden_maxima c parsed nowMs
  rw [overridden_timers_iff h ho hretx]
  unfold Client.shortens
  cases hst : c.state <;> rw [hst] at hretx hold <;>
    simp only [Parsed.maximum, retransmissionKindForState, retransmissionMrtMs, hsol, hinf, optionMaximum,
      Bool.and_eq_true, decide_eq_true_eq] at hold ⊢
  case soliciting | informationRequesting | reconfigureInformationRequesting =>
    split <;> grind
  all_goals exact ⟨fun hall => absurd hall.1.1.1.1.1.1 false_ne_true, fun hnot => absurd hold hnot⟩

/-- An answer whose maximum is taken over is refused exactly for these reasons. -/
theorem refuses_iff {status : Status} {parsed : Parsed} (h : c.Valid)
    (ho : Overridden c nowMs (c.overridden parsed nowMs)) (hretx : stateRetransmits c.state = true)
    (hshort : c.shortens parsed = true) :
    (c.answer status parsed nowMs).1.positive = false ↔ c.refuses status parsed nowMs = true := by
  have hbroken := (shortens_iff h ho hretx).mp hshort
  unfold Client.overridden at hbroken
  have hread : c.overridable parsed = true := by
    simp only [Client.shortens, and_eq_true] at hshort
    exact hshort.1.1.2
  simp only [Client.overridable, and_eq_true, not_eq_true', and_eq_false_iff] at hread
  unfold Client.answer Client.refuses
  rcases overrides_cases c parsed nowMs with hcase | hcase | hcase <;> rw [hcase] at hbroken ⊢
  · exact absurd h.timers hbroken
  · exact absurd h.timers hbroken
  by_cases hrej : status = .serverRejected
  · simp [hrej, Status.positive]
  rw [if_neg (not_not_intro rfl), if_neg hrej]
  unfold Client.shortens at hshort
  clear hcase hbroken ho
  simp only [Client.clientMatches, Client.serverMatches] at hread
  cases hst : c.state <;> rw [hst] at hshort hread
  case soliciting =>
    simp only [Client.commit, if_true, Client.commitOffer, Client.identityMatches, Client.clientMatches]
    clear hshort
    split_ifs <;> grind [Status.positive]
  case informationRequesting =>
    simp only [Client.commit, reduceCtorEq, if_true, if_false, Client.commitInformation, Client.clientMatches,
      deadlineFromSeconds]
    clear hshort
    split_ifs <;> grind [Status.positive]
  case reconfigureInformationRequesting =>
    simp only [Client.commit, reduceCtorEq, if_true, if_false, Client.commitReconfigureInformation,
      Client.clientMatches, Client.serverMatches]
    clear hshort
    split_ifs <;> grind [Status.positive]
  all_goals exact absurd hshort nofun

theorem stateRetransmits_of_expected {state : State} {reply : UInt8 × Bool}
    (h : expectedReply state = some reply) : stateRetransmits state = true := by
  cases state <;> first | rfl | cases h

theorem overridden_inv {c c' : Client} (h : c.Inv) (habs : c.pendingPresent = false)
    (hnow : c.lastNowMs ≤ nowMs) (ho : Overridden c nowMs c') (hretx : stateRetransmits c.state = true)
    (hval : c'.Valid) : c'.Inv := by
  obtain ⟨_, generation, solMaxRt, infMaxRt, lastNow, hlast, rfl⟩ := ho
  exact {
    valid := hval
    started := by
      rcases hlast with hlast | hlast
      · rw [hlast]; exact h.started
      · rw [hlast]; exact Nat.le_trans h.started hnow
    bound := h.bound
    startup := by
      intro hdel
      have hidle : c.state = .idle := idle_of_startupDelayed hdel
      rw [hidle] at hretx
      exact absurd hretx (by decide)
    fits := fun hpres => absurd (habs.symm.trans hpres) false_ne_true }

theorem Client.Inv.of_accepted {c c' : Client} (h : Accepted c nowMs c') :
    { c' with lastNowMs := nowMs }.Inv := by
  have hmode := h.mode
  refine inv_of_quiet h.valid h.absent h.started ?_ ?_
  · intro hbound
    rcases h.state with hst | ⟨_, hstateful⟩ | ⟨hst, _⟩
    · cases hst.symm.trans hbound
    · exact hmode.trans hstateful
    · cases hst.symm.trans hbound
  · rcases h.state with hst | ⟨hst, _⟩ | ⟨hst, _⟩ <;> simp [Client.startupDelayed, hst]

/-- The invariant is kept unless `broken`, and then the client is invalid. -/
def Client.Kept (broken : Prop) (c : Client) : Prop := (¬ broken → c.Inv) ∧ (broken → ¬ c.Valid)

/-- A refused answer leaves the new maxima in the client, which keeps its state. -/
theorem overridden_kept {parsed : Parsed} (h : c.Inv) (habs : c.pendingPresent = false)
    (hnow : c.lastNowMs ≤ nowMs) (ho : Overridden c nowMs (c.overridden parsed nowMs))
    (hretx : stateRetransmits c.state = true) {refused : Prop} (href : refused) (lastNow : Nat)
    (hlast : lastNow = (c.overridden parsed nowMs).lastNowMs ∨ lastNow = nowMs) :
    { c.overridden parsed nowMs with lastNowMs := lastNow }.Kept (refused ∧ c.shortens parsed = true) := by
  have hshortens := shortens_iff h.valid ho hretx
  constructor
  · intro hfine
    have hval : (c.overridden parsed nowMs).TimersValid := by
      by_contra hnot
      exact hfine ⟨href, hshortens.mpr hnot⟩
    have hinv := overridden_inv h habs hnow ho hretx ⟨ho.framed, hval⟩
    rcases hlast with rfl | rfl
    · exact hinv
    refine hinv.later ?_
    obtain ⟨_, _, _, _, lastNow, hlast', heq⟩ := ho
    rw [heq]
    rcases hlast' with rfl | rfl
    · exact hnow
    · exact Nat.le_refl _
  · intro hbreaks hval
    exact hshortens.mp hbreaks.2 hval.timers

/-- An answer keeps the invariant, but for one that is refused and shortens the longest interval below the
    current one; that one leaves an invalid client. -/
theorem answer_inv (h : c.Inv) (habs : c.pendingPresent = false)
    (hnow : c.lastNowMs ≤ nowMs) {message : List UInt8} {expectedType : UInt8} {requireIa : Bool}
    {status : Status} {parsed : Parsed} (hexp : expectedReply c.state = some (expectedType, requireIa))
    (hparsed : parseMessage message expectedType requireIa = .ok (status, parsed)) :
    (c.answer status parsed nowMs).2.Kept
      (c.refuses status parsed nowMs = true ∧ c.shortens parsed = true) := by
  have hretx := stateRetransmits_of_expected hexp
  have ho := overridden_spec h.valid.toFramed habs parsed nowMs
  have hshortens := shortens_iff h.valid ho hretx
  rw [← and_congr_left (refuses_iff h.valid ho hretx)]
  have hkept {refused : Prop} (href : refused) := overridden_kept h habs hnow ho hretx href
  have hdef : (c.applyRetransmissionOverrides parsed nowMs).2 = c.overridden parsed nowMs := rfl
  unfold Client.answer
  by_cases herror : (c.applyRetransmissionOverrides parsed nowMs).1 = .ok
  · rw [if_neg (not_not_intro herror), hdef]
    by_cases hrej : status = .serverRejected
    · rw [if_pos hrej]
      have href : status.positive = false := by rw [hrej]; rfl
      split
      · exact hkept href nowMs (.inr rfl)
      · exact hkept href _ (.inl rfl)
    rw [if_neg hrej]
    have hst : (c.overridden parsed nowMs).state = c.state ∧
        (c.overridden parsed nowMs).pendingPresent = c.pendingPresent := by
      obtain ⟨_, _, _, _, _, _, heq⟩ := ho
      rw [heq]
      exact ⟨rfl, rfl⟩
    have hcommit := commit_accepted ho.framed (hst.2.trans habs) (by rw [hst.1]; exact hexp)
      hparsed nowMs
    dsimp only
    rcases hcommit with ⟨href, hsame⟩ | ⟨hacc, hleaves⟩
    · rw [if_neg (by rw [href]; nofun), hsame]
      exact hkept href _ (.inl rfl)
    rw [if_pos hacc]
    refine ⟨fun _ => Client.Inv.of_accepted hleaves, ?_⟩
    intro hbreaks
    exact absurd (hbreaks.1.symm.trans hacc) false_ne_true
  have hsame := overridden_of_error herror
  rw [if_pos herror, hdef]
  rw [hsame] at hshortens ⊢
  exact ⟨fun _ => h, fun hbreaks => absurd h.valid.timers (hshortens.mp hbreaks.2)⟩

/-- Receiving keeps the invariant, but for an answer that is refused and lowers the maximum; that one leaves
    an invalid client. -/
theorem receive_inv (h : c.Inv) (message : List UInt8) (nowMs : Nat) :
    (c.receive (some message) nowMs).2.Kept (c.LowersMaximum message nowMs) := by
  have hrefl (P : Prop) (hnot : ¬ P) : c.Kept P := ⟨fun _ => h, fun hp => absurd hp hnot⟩
  unfold Client.receive
  dsimp only
  split
  · rename_i hargs
    refine hrefl _ ?_
    rintro ⟨hval, hmin, hmax, _⟩
    rcases hargs with hinvalid | hshort | hlong
    · exact hinvalid hval
    · exact Nat.not_lt_of_le hmin hshort
    · exact Nat.not_lt_of_le hmax hlong
  rename_i hargs
  split
  · rename_i hback
    exact hrefl _ fun hlowers => Nat.not_lt_of_le hlowers.2.2.2.1 hback
  rename_i hnow
  split
  · rename_i hpres
    exact hrefl _ fun hlowers => false_ne_true (hlowers.2.2.2.2.1.symm.trans hpres)
  rename_i hpres
  have habs : c.pendingPresent = false := eq_false_of_ne_true hpres
  unfold Client.LowersMaximum
  cases hexp : expectedReply c.state with
  | none => exact hrefl _ fun hlowers => hlowers.2.2.2.2.2.2
  | some reply =>
    obtain ⟨expectedType, requireIa⟩ := reply
    dsimp only
    by_cases hid : messageTransaction message = c.transactionId
    case neg =>
      rw [if_pos hid]
      exact hrefl _ fun hlowers => hid hlowers.2.2.2.2.2.1
    rw [if_neg (not_not_intro hid)]
    cases hparsed : parseMessage message expectedType requireIa with
    | error status => exact hrefl _ fun hlowers => hlowers.2.2.2.2.2.2
    | ok result =>
      obtain ⟨hkeeps, hbreaks⟩ := answer_inv h habs (Nat.le_of_not_lt hnow) hexp hparsed
      refine ⟨fun hfine => hkeeps ?_, fun hlowers => hbreaks hlowers.2.2.2.2.2.2⟩
      intro hboth
      push Not at hargs
      exact hfine ⟨hargs.1, hargs.2.1, hargs.2.2, Nat.le_of_not_lt hnow, habs, hid, hboth⟩

/-! ## §7. Runs. -/

/-- The calls that leave an invalid client. -/
def Client.Breaks (c : Client) : Call → Prop
  | .requestReconfigure requested nowMs => c.RenewsLate requested nowMs
  | .receive (some message) nowMs => c.LowersMaximum message nowMs
  | _ => False

instance (c : Client) : (call : Call) → Decidable (c.Breaks call)
  | .requestReconfigure requested nowMs => inferInstanceAs (Decidable (c.RenewsLate requested nowMs))
  | .receive (some message) nowMs => inferInstanceAs (Decidable (c.LowersMaximum message nowMs))
  | .receive none _ | .setMode _ | .prepare _ _ _ | .completeTransmit _ _ | .getLease _ _ | .stop =>
    inferInstanceAs (Decidable False)

/-- One call: it keeps the invariant, or it breaks the record. -/
theorem step_inv (h : c.Inv) (call : Call) : (c.step call).Kept (c.Breaks call) := by
  have hkept {c' : Client} (h : c'.Inv) : c'.Kept False := ⟨fun _ => h, False.elim⟩
  cases call with
  | setMode mode => exact hkept (setMode_inv h mode)
  | requestReconfigure requested nowMs => exact ⟨requestReconfigure_inv h, requestReconfigure_late⟩
  | prepare newTransactionId nowMs output => exact hkept (prepare_inv h newTransactionId nowMs output)
  | completeTransmit transmit sentSuccessfully =>
    exact hkept (completeTransmit_inv h transmit sentSuccessfully)
  | receive message nowMs =>
    cases message with
    | none => exact hkept h
    | some message => exact receive_inv h message nowMs
  | getLease nowMs output => exact hkept (getLease_inv h nowMs output)
  | stop => exact hkept (stop_inv h)

/-- An invalid client refuses every call and stays as it is. -/
theorem call_of_invalid (h : ¬ c.Valid) (call : Call) : c.call call = (.invalidArgument, c) := by
  cases call with
  | setMode mode =>
    show c.setMode mode = _
    unfold Client.setMode
    split
    · rfl
    · exact if_pos (.inl h)
  | requestReconfigure requested nowMs => exact if_pos h
  | prepare newTransactionId nowMs output =>
    have hprepare : c.prepare newTransactionId nowMs output = ⟨.invalidArgument, c, .zero⟩ := if_pos (.inl h)
    show ((c.prepare newTransactionId nowMs output).status, (c.prepare newTransactionId nowMs output).client) = _
    rw [hprepare]
  | completeTransmit transmit sentSuccessfully =>
    cases transmit with
    | none => rfl
    | some transmit => exact if_pos (.inl h)
  | receive message nowMs =>
    cases message with
    | none => rfl
    | some message => exact if_pos (.inl h)
  | getLease nowMs output =>
    have hlease : c.getLease nowMs output = (.invalidArgument, c, none) := if_pos (.inl h)
    show ((c.getLease nowMs output).1, (c.getLease nowMs output).2.1) = _
    rw [hlease]
  | stop => exact if_pos h

/-- A valid client takes a call. -/
theorem stop_of_valid (h : c.Valid) : (c.call .stop).1 ≠ .invalidArgument := by
  show c.stop.1 ≠ _
  unfold Client.stop
  rw [if_neg (not_not_intro h)]
  split
  · nofun
  split <;> nofun

/-- **The client over whole runs.** At the end of any run of calls on a new client the record is valid
    exactly when none of them was a Renew requested after the time of the Rebind, or an answer that is
    refused and lowers the maximum below the running interval. After one of these every call is refused. -/
theorem run_valid_iff {duid : Option (List UInt8)} {iaid interfaceGeneration : Nat} {c : Client}
    (h : init duid iaid interfaceGeneration = some c) (calls : List Call) :
    ((run Client.step c calls).Valid ↔ Along Client.step (fun c call => ¬ c.Breaks call) c calls) ∧
      ((∀ call, ((run Client.step c calls).call call).1 = .invalidArgument) ↔
        ¬ Along Client.step (fun c call => ¬ c.Breaks call) c calls) := by
  have hinv : c.Inv := init_inv h
  have hstuck : ∀ (c : Client) (call : Call), ¬ c.Valid → c.step call = c := by
    intro c call hinvalid
    unfold Client.step
    rw [call_of_invalid hinvalid call]
  have hiff : (run Client.step c calls).Valid ↔ Along Client.step (fun c call => ¬ c.Breaks call) c calls := by
    rw [good_run_iff hstuck hinv.valid]
    refine along_iff_along (fun c call hc hfine => (step_inv hc call).1 hfine) ?_ hinv
    intro c call hc
    refine ⟨fun hval hbreaks => (step_inv hc call).2 hbreaks hval, ?_⟩
    intro hfine
    exact ((step_inv hc call).1 hfine).valid
  refine ⟨hiff, ?_⟩
  rw [← hiff]
  constructor
  · intro href hval
    exact stop_of_valid hval (href .stop)
  · intro hinvalid call
    rw [call_of_invalid hinvalid call]

/-! ## §8. Two runs. -/

/-- The identifier of a client, and that of its server. -/
def sampleDuid : List UInt8 := [0, 3, 0, 1, 2]
@[inherit_doc sampleDuid] def sampleServer : List UInt8 := [0, 3, 0, 1, 9]

/-- The address the server leases. -/
def sampleAddress : Address := Vector.ofFn fun i => if i.val = 0 then 0x20 else if i.val = 15 then 1 else 0

/-- A message of the server with one address and the options `more`. -/
def sampleMessage (type : UInt8) (transactionId t1 t2 valid : Nat) (more : List Item) : List UInt8 :=
  [type, UInt8.ofNat (transactionId / 65536), UInt8.ofNat (transactionId / 256), UInt8.ofNat transactionId] ++
    encode ([(optionClientId, sampleDuid), (optionServerId, sampleServer),
      (optionIaNa, store32 7 ++ store32 t1 ++ store32 t2 ++
        Item.encode (optionIaAddress, sampleAddress.toList ++ store32 valid ++ store32 valid))] ++ more)

/-- A new client. -/
def sampleClient : Client := (init (some sampleDuid) 7 1).get (by decide)

/-- The calls that prepare a message and report it as sent. -/
def Client.sends (c : Client) (transactionId nowMs : Nat) : List Call :=
  [.prepare transactionId nowMs true,
    .completeTransmit (some (c.prepare transactionId nowMs true).transmit) 1]

/-- Soliciting, with `n` retransmissions, each when it is due. -/
def solicitCalls : (n : Nat) → List Call
  | 0 => .prepare 1 1000 true :: (sampleClient.step (.prepare 1 1000 true)).sends 1 2000
  | n + 1 =>
      let calls := solicitCalls n
      let c := run Client.step sampleClient calls
      calls ++ c.sends 1 c.nextTransmitMs

/-- The exchange up to a lease with T1, T2 and the lifetime at 100, 200 and 300 seconds. -/
def leaseCalls : List Call :=
  let solicited := solicitCalls 0 ++ [.receive (some (sampleMessage messageAdvertise 1 100 200 300 [])) 2100]
  let c := run Client.step sampleClient solicited
  solicited ++ c.sends 2 2200 ++ [.receive (some (sampleMessage messageReply 2 100 200 300 [])) 3000]

/-- The exchange up to the lease leaves a valid client. -/
theorem run_valid_leased : (run Client.step sampleClient leaseCalls).Valid ∧
      (run Client.step sampleClient leaseCalls).state = .bound ∧
      Along Client.step (fun c call => ¬ c.Breaks call) sampleClient leaseCalls := by
  have hinit : init (some sampleDuid) 7 1 = some sampleClient := (Option.some_get _).symm
  have hfine : Along Client.step (fun c call => ¬ c.Breaks call) sampleClient leaseCalls := by decide +kernel
  exact ⟨(run_valid_iff hinit leaseCalls).1.mpr hfine, by decide +kernel, hfine⟩

/-- A Reconfigure for a Renew at the time of the Rebind, and an Advertise with an error and a SOL_MAX_RT of a
    minute after seven retransmissions, each leave a client that refuses every call. -/
theorem run_invalid :
    init (some sampleDuid) 7 1 = some sampleClient ∧
    (let c := run Client.step sampleClient (leaseCalls ++ [.requestReconfigure 5 203000])
     ¬ c.Valid ∧ ∀ call, (c.call call).1 = .invalidArgument) ∧
    (let c := run Client.step sampleClient (solicitCalls 7 ++ [.receive (some (sampleMessage messageAdvertise 1
        100 200 300 [(optionStatusCode, store16 2), (optionSolMaxRt, store32 60)])) 110000])
     ¬ c.Valid ∧ ∀ call, (c.call call).1 = .invalidArgument) := by
  have hinit : init (some sampleDuid) 7 1 = some sampleClient := (Option.some_get _).symm
  have hrenew : ¬ (run Client.step sampleClient (leaseCalls ++ [.requestReconfigure 5 203000])).Valid := by
    decide +kernel
  have hlower : ¬ (run Client.step sampleClient (solicitCalls 7 ++ [.receive (some (sampleMessage
      messageAdvertise 1 100 200 300 [(optionStatusCode, store16 2), (optionSolMaxRt, store32 60)]))
      110000])).Valid := by
    decide +kernel
  refine ⟨hinit, ⟨hrenew, ?_⟩, ⟨hlower, ?_⟩⟩
  · intro call
    rw [call_of_invalid hrenew call]
  · intro call
    rw [call_of_invalid hlower call]

end RinRuntime.Dhcpv6

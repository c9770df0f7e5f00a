/-
Dhcpv6.Reconfigure — a Reconfigure and the message it leads to.

`request_reconfigure` only edits deadlines or the state; the next `prepare`, after a `client_valid` in
between, has to turn that into the exchange that was asked for.

Main result: `reconfigured_prepare_iff` — it does, but for a Renew asked for at or after the time of the Rebind.
-/
import RinRuntime.Dhcpv6.Invariant

namespace RinRuntime.Dhcpv6
open Lib.Stepwise

/-! ## §1. Opening a transaction. -/

/-- A message that is due and opens a transaction is prepared wherever the clock leaves room for its timer. -/
theorem prepare_opens {c : Client} (h : c.Valid) {nowMs : Nat} (hnow : c.lastNowMs ≤ nowMs)
    (hlive : nowMs < c.expiresAtMs) (habs : c.pendingPresent = false) (hst : c.state ≠ .idle)
    {kind : TransmitKind} (hdue : c.due nowMs = (kind, true)) (hkind : kind ≠ .none)
    (hseq : c.nextTransmitSequence ≠ 0) (hgen : c.generation ≠ maxUInt64) {transactionId : Nat}
    (htxn : transactionId ≠ 0) (hrange : transactionId ≤ 0xffffff)
    (hnew : transactionId ≠ c.transactionId) :
    ((c.prepare transactionId nowMs true).status = .packetReady ↔ nowMs ≤ maxUInt64 - maxRandomizedRtMs) ∧
      ((c.prepare transactionId nowMs true).status = .packetReady →
        (c.prepare transactionId nowMs true).transmit.kind = kind ∧
        (c.prepare transactionId nowMs true).transmit.message.getD 0 0 = kind.code) := by
  have hstart : c.prepare transactionId nowMs true =
      if maxUInt64 - maxRandomizedRtMs < nowMs then ⟨.rangeExhausted, c, .zero⟩
      else c.enqueue kind transactionId nowMs := by
    have hid : ¬ (transactionId = 0 ∨ 0xffffff < transactionId ∨
        (true = true ∧ transactionId = c.transactionId)) := by
      rintro (hzero | hlong | ⟨_, hsame⟩)
      · exact htxn hzero
      · exact Nat.not_lt_of_le hrange hlong
      · exact hnew hsame
    have hfst : ¬ (c.state = .idle ∧ c.transactionId = 0) := fun hidle => hst hidle.1
    unfold Client.prepare
    rw [if_neg (by simp [h]), if_neg (Nat.not_lt_of_le hnow),
      if_neg (fun hexpired => Nat.not_le_of_lt hlive hexpired.2), if_neg (by rw [habs]; nofun), hdue]
    rw [if_neg hkind, if_pos rfl, if_neg hid, if_neg hfst]
    by_cases hroom : maxUInt64 - maxRandomizedRtMs < nowMs
    · rw [if_pos (Or.inl hroom), if_pos hroom]
    rw [if_neg hroom, if_neg]
    rintro (hwrong | hwrong | ⟨_, hwrong⟩ | ⟨hwrong, _⟩)
    · exact hroom hwrong
    · exact hseq hwrong
    · exact hgen hwrong
    · exact hst hwrong
  obtain ⟨transmit, henqueue, _, hbuilt⟩ := enqueue_eq h.toFramed kind hrange nowMs
  rw [hstart, henqueue]
  by_cases hroom : maxUInt64 - maxRandomizedRtMs < nowMs
  · rw [if_pos hroom]
    exact ⟨⟨nofun, fun hle => absurd hroom (Nat.not_lt_of_le hle)⟩, nofun⟩
  · rw [if_neg hroom]
    exact ⟨⟨fun _ => Nat.le_of_not_lt hroom, fun _ => rfl⟩, fun _ => ⟨hbuilt.sort, hbuilt.type⟩⟩

/-! ## §2. The exchange that was asked for. -/

/-- **A Reconfigure that is accepted leads to its message.** The next `prepare` before the lease expires,
    with a new transaction and a sequence number left, has a message ready, and at the time of the request it
    is of the requested kind, exactly when it is not a Renew asked for at or after the time of the Rebind
    and the clock leaves room for the timer. -/
theorem reconfigured_prepare_iff {c : Client} (h : c.Valid) {requested requestedAt : Nat}
    (hok : (c.requestReconfigure requested requestedAt).1 = .ok) {nowMs transactionId : Nat}
    (hafter : requestedAt ≤ nowMs) (hlive : nowMs < c.expiresAtMs) (htxn : transactionId ≠ 0)
    (hrange : transactionId ≤ 0xffffff) (hnew : transactionId ≠ c.transactionId)
    (hseq : c.nextTransmitSequence ≠ 0) :
    (let prepared := (c.requestReconfigure requested requestedAt).2.prepare transactionId nowMs true
     prepared.status = .packetReady ∧
      (nowMs = requestedAt → prepared.transmit.kind = TransmitKind.ofCode requested ∧
        prepared.transmit.message.getD 0 0 = (TransmitKind.ofCode requested).code)) ↔
    ¬ (TransmitKind.ofCode requested = .renew ∧ c.rebindAtMs ≤ requestedAt) ∧
      nowMs ≤ maxUInt64 - maxRandomizedRtMs := by
  have hcases := requestReconfigure_cases h requested requestedAt
  have hmax : maxUInt64 = 2 ^ 64 - 1 := rfl
  generalize c.requestReconfigure requested requestedAt = result at hok hcases ⊢
  generalize TransmitKind.ofCode requested = kind at hcases ⊢
  cases hcases with
  | refused hstat => exact absurd hok hstat
  | expired =>
    unfold Client.expireLease at hok
    split at hok <;> cases hok
  | @started hnow habs hbound hmode hgen hbef state hst =>
    have hst' : state = .reconfigureRebinding ∨ state = .reconfigureInformationRequesting :=
      hst.imp (fun h => h.2) (fun h => h.2)
    have hval := h.toFramed.reconfigured hbound hmode habs hst' requestedAt (c.generation + 1)
      (Nat.succ_ne_zero _)
    have hkinds : kind ≠ .renew ∧ kind ≠ .none ∧ state ≠ .idle := by
      rcases hst with ⟨rfl, rfl⟩ | ⟨rfl, rfl⟩ <;> exact ⟨nofun, nofun, nofun⟩
    have hdue : { c with
        state := state
        transactionStartedMs := 0
        nextTransmitMs := requestedAt
        retryMs := 0
        offerT1Seconds := retransmissionNotStarted
        lastNowMs := requestedAt
        generation := c.generation + 1 }.due nowMs = (kind, true) := by
      rcases hst with ⟨rfl, rfl⟩ | ⟨rfl, rfl⟩ <;> simp [Client.due, hafter]
    obtain ⟨hrdy, hmessage⟩ := prepare_opens hval hafter hlive habs hkinds.2.2 hdue hkinds.2.1 hseq
      (by show c.generation + 1 ≠ maxUInt64; omega) htxn hrange hnew
    constructor
    · intro hprep
      exact ⟨fun hrenew => hkinds.1 hrenew.1, hrdy.mp hprep.1⟩
    · intro hroom
      exact ⟨hrdy.mpr hroom.2, fun _ => hmessage (hrdy.mpr hroom.2)⟩
  | renewed hnow habs hgen hbef hst =>
    have hvalidIff := renewed_valid_iff h habs (hst.imp (fun h => h.2.1) (fun h => h.2)) requestedAt
      (c.generation + 1) (Nat.succ_ne_zero _) hbef
    by_cases hlate : kind = .renew ∧ c.rebindAtMs ≤ requestedAt
    · -- the record is invalid, and the next call only finds that out
      have hinv : ¬ { c with
          renewAtMs := requestedAt
          lastNowMs := requestedAt
          generation := c.generation + 1 }.Valid := by
        rw [hvalidIff]
        intro hord
        rcases hst with ⟨_, hbound, _⟩ | ⟨hinfo, _⟩
        · exact Nat.not_lt_of_le hlate.2 (hord hbound)
        · cases hlate.1.symm.trans hinfo
      constructor
      · intro hprep
        have hstat := hprep.1
        unfold Client.prepare at hstat
        rw [if_pos (Or.inl hinv)] at hstat
        cases hstat
      · intro hfine
        exact absurd hlate hfine.1
    have hval := hvalidIff.mpr (by
      intro hbound
      rcases hst with ⟨hrenew, _⟩ | ⟨_, hinfo, _⟩
      · exact Nat.lt_of_not_le fun hle => hlate ⟨hrenew, hle⟩
      · cases hbound.symm.trans hinfo)
    have hidle : c.state ≠ .idle := by
      rcases hst with ⟨_, hbound, _⟩ | ⟨_, hbound, _⟩ <;> (rw [hbound]; decide)
    -- the kind that is due: the requested one, or the Rebind once its time has come
    obtain ⟨due, hdue, hkind, hrequested⟩ : ∃ due, { c with
        renewAtMs := requestedAt
        lastNowMs := requestedAt
        generation := c.generation + 1 }.due nowMs = (due, true) ∧ due ≠ .none ∧
        (nowMs = requestedAt → due = kind) := by
      rcases hst with ⟨rfl, hbound, _⟩ | ⟨rfl, hbound, _⟩
      · by_cases hrebind : c.rebindAtMs ≤ nowMs
        · refine ⟨.rebind, by simp [Client.due, hbound, hrebind], by decide, ?_⟩
          rintro rfl
          exact absurd ⟨rfl, hrebind⟩ hlate
        · exact ⟨.renew, by simp [Client.due, hbound, hrebind, hafter], by decide, fun _ => rfl⟩
      · exact ⟨.informationRequest, by simp [Client.due, hbound, hafter], by decide, fun _ => rfl⟩
    obtain ⟨hrdy, hmessage⟩ := prepare_opens hval hafter hlive habs hidle hdue hkind hseq
      (by show c.generation + 1 ≠ maxUInt64; omega) htxn hrange hnew
    constructor
    · intro hprep
      exact ⟨hlate, hrdy.mp hprep.1⟩
    intro hroom
    refine ⟨hrdy.mpr hroom.2, ?_⟩
    intro hsame
    rw [← hrequested hsame]
    exact hmessage (hrdy.mpr hroom.2)

/-- The lease of the sample run, asked at 150 seconds for a Renew, prepares a Renew. -/
theorem reconfigured_prepare_renew :
    (let c := run Client.step sampleClient leaseCalls
     let prepared := (c.requestReconfigure 5 150000).2.prepare 3 150000 true
     c.Valid ∧ (c.requestReconfigure 5 150000).1 = .ok ∧ prepared.status = .packetReady ∧
      (150000 = 150000 → prepared.transmit.kind = TransmitKind.ofCode 5 ∧
        prepared.transmit.message.getD 0 0 = (TransmitKind.ofCode 5).code)) := by
  have hval : (run Client.step sampleClient leaseCalls).Valid := by decide +kernel
  have hok : ((run Client.step sampleClient leaseCalls).requestReconfigure 5 150000).1 = .ok := by decide +kernel
  refine ⟨hval, hok, ?_⟩
  exact (reconfigured_prepare_iff hval hok (Nat.le_refl _) (by decide +kernel) (by decide) (by decide)
    (by decide +kernel) (by decide +kernel)).mpr ⟨by decide +kernel, by decide⟩

/-- Asked at 203 seconds, the time of the Rebind, the Renew is accepted and the next call is refused. -/
theorem reconfigured_prepare_refused :
    (let c := run Client.step sampleClient leaseCalls
     let c' := (c.requestReconfigure 5 203000).2
     c.Valid ∧ (c.requestReconfigure 5 203000).1 = .ok ∧ 203000 < c.expiresAtMs ∧ c.transactionId ≠ 3 ∧
      c'.nextTransmitSequence ≠ 0 ∧ c'.generation ≠ maxUInt64 ∧
      (c'.prepare 3 203000 true).status = .invalidArgument) := by
  decide +kernel

end RinRuntime.Dhcpv6

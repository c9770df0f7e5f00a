/-
Dhcpv6.BindingRuns — the client of several addresses over whole runs.

The bindings and the exchange are two records that must be given up together. The bindings only ask that
the exchange is in a state that keeps them, so `ClientV2.Inv` speaks of bindings, state and mode, and every
call keeps it but those in which the exchange falls back to idle by itself: a lease that expires inside a
Reconfigure or a prepare, and a Request that is given up.

Main result: `run_bindings_iff` — along a run every call that leaves the exchange valid leaves the client
valid, exactly when no call of the run abandons its bindings.
-/
import RinRuntime.Dhcpv6.Bindings
import RinRuntime.Dhcpv6.Invariant
import RinRuntime.Lib.Keyed

namespace RinRuntime.Dhcpv6
open Lib Tlv Stepwise List Option

/-! ## §1. The set of bindings. -/

/-- The bindings of a client with the number of the next one. -/
structure BindingSet (bindings : List Binding) (nextGeneration : Nat) : Prop where
  count : bindings.length ≤ maxIaAddresses
  next : nextGeneration ≠ 0
  valid : ∀ binding ∈ bindings, binding.Valid nextGeneration
  distinct : Keyed.Unique Binding.address bindings

variable {v : ClientV2} {c : Client} {nextGeneration : Nat} {result : List Binding × Nat}
  {candidate : List Binding}

theorem ClientV2.Bound.set (h : v.Bound) : BindingSet v.addresses v.nextAddressGeneration :=
  ⟨h.count, h.nextAddressGeneration, h.bindings, h.distinct⟩

theorem BindingSet.empty (h : nextGeneration ≠ 0) : BindingSet [] nextGeneration :=
  ⟨Nat.zero_le _, h, nofun, nodup_nil⟩

theorem BindingSet.sublist {bindings bindings' : List Binding}
    (h : BindingSet bindings nextGeneration) (hsub : bindings'.Sublist bindings) :
    BindingSet bindings' nextGeneration where
  count := Nat.le_trans hsub.length_le h.count
  next := h.next
  valid := fun binding hbinding => h.valid binding (hsub.subset hbinding)
  distinct := h.distinct.sublist hsub

/-- A server that takes an address back: it reports an error for it, or gives it no lifetime. -/
def IaAddress.withdrawn (a : IaAddress) : Prop := a.statusCode ≠ 0 ∨ a.validSeconds = 0

/-- The binding of an address of the answer. -/
def IaAddress.binding (a : IaAddress) (nowMs generation : Nat) : Binding :=
  ⟨a.address, 0, 0, nowMs + a.preferredSeconds * 1000, nowMs + a.validSeconds * 1000, generation⟩

/-- What one address of an answer does to the bindings. -/
theorem bindAddress_cases {nowMs nextGeneration : Nat} {a : IaAddress}
    (h : bindAddress nowMs (candidate, nextGeneration) a = some result) :
    a.withdrawn ∧ result = (Keyed.erase Binding.address a.address candidate, nextGeneration) ∨
    ¬ a.withdrawn ∧ ∃ generation,
      result.1 = Keyed.put Binding.address (a.binding nowMs generation) candidate ∧
      (candidate.length ≤ maxIaAddresses → result.1.length ≤ maxIaAddresses) ∧
      (generation = nextGeneration ∧ result.2 = nextGeneration + 1 ∨
        result.2 = nextGeneration ∧ ∃ previous ∈ candidate, generation = previous.generation) := by
  unfold bindAddress at h
  dsimp only at h
  by_cases hwithdrawn : a.statusCode ≠ 0 ∨ a.validSeconds = 0
  · rw [if_pos hwithdrawn] at h
    refine Or.inl ⟨hwithdrawn, ?_⟩
    unfold Keyed.erase
    split at h
    · rename_i index hidx
      rw [hidx]
      exact (some.inj h).symm
    rename_i hidx
    rw [hidx]
    exact (some.inj h).symm
  rw [if_neg hwithdrawn] at h
  refine Or.inr ⟨hwithdrawn, ?_⟩
  split at h
  · rename_i preferredUntil validUntil hpreferred hval
    have hbinding (generation : Nat) :
        (⟨a.address, 0, 0, preferredUntil, validUntil, generation⟩ : Binding) = a.binding nowMs generation := by
      rw [(deadlineFromSeconds_eq hpreferred).1, (deadlineFromSeconds_eq hval).1]
      rfl
    split at h
    · rename_i index hidx
      -- the place of the address: its binding is replaced there
      have hput (generation : Nat) : Keyed.put Binding.address (a.binding nowMs generation) candidate =
          candidate.set index (a.binding nowMs generation) := Keyed.put_of_some hidx
      have hlen (binding : Binding) (hcnt : candidate.length ≤ maxIaAddresses) :
          (candidate.set index binding).length ≤ maxIaAddresses := by
        rw [length_set]
        exact hcnt
      split at h
      · cases h
      rename_i previous hprevious
      have hmem : previous ∈ candidate := mem_of_getElem? hprevious
      split at h
      · split at h
        · cases h
        obtain rfl := some.inj h
        refine ⟨nextGeneration, ?_, hlen _, Or.inl ⟨rfl, rfl⟩⟩
        rw [hput, ← hbinding]
      obtain rfl := some.inj h
      refine ⟨previous.generation, ?_, hlen _, Or.inr ⟨rfl, previous, hmem, rfl⟩⟩
      rw [hput, ← hbinding]
    rename_i hidx
    split at h
    · cases h
    rename_i hroom
    obtain rfl := some.inj h
    refine ⟨nextGeneration, ?_, ?_, Or.inl ⟨rfl, rfl⟩⟩
    · have hput : Keyed.put Binding.address (a.binding nowMs nextGeneration) candidate =
          candidate ++ [a.binding nowMs nextGeneration] := Keyed.put_of_none hidx
      rw [hput, ← hbinding]
    intro _
    rw [length_append, length_singleton]
    omega
  · cases h

/-- A binding stays valid while numbers are handed out. -/
theorem Binding.Valid.mono {binding : Binding} {next next' : Nat} (h : binding.Valid next) (hle : next ≤ next') :
    binding.Valid next' :=
  ⟨h.1, h.2.1, h.2.2.1, h.2.2.2.1, h.2.2.2.2.1, Nat.lt_of_lt_of_le h.2.2.2.2.2 hle⟩

theorem bindAddress_set {nowMs nextGeneration : Nat} {a : IaAddress}
    (h : bindAddress nowMs (candidate, nextGeneration) a = some result)
    (ha : a.Sound) (hset : BindingSet candidate nextGeneration) : BindingSet result.1 result.2 := by
  rcases bindAddress_cases h with ⟨_, rfl⟩ | ⟨_, generation, hput, hcnt, hgen⟩
  · exact hset.sublist (Keyed.erase_sublist _ _)
  have hfresh : generation ≠ 0 ∧ generation < result.2 ∧ nextGeneration ≤ result.2 := by
    rcases hgen with ⟨hnew, hnext⟩ | ⟨hnext, previous, hprevious, hold⟩
    · rw [hnew, hnext]
      exact ⟨hset.next, Nat.lt_succ_self _, Nat.le_succ _⟩
    obtain ⟨_, _, _, hnonzero, _, hlt⟩ := hset.valid previous hprevious
    rw [hold, hnext]
    exact ⟨hnonzero, hlt, Nat.le_refl _⟩
  obtain ⟨hnonzero, hlt, hle⟩ := hfresh
  refine ⟨hcnt hset.count, by omega, ?_, ?_⟩
  · intro binding hbinding
    rw [hput] at hbinding
    rcases Keyed.mem_put hbinding with rfl | hbinding
    · have hord : nowMs + a.preferredSeconds * 1000 ≤ nowMs + a.validSeconds * 1000 :=
        Nat.add_le_add_left (Nat.mul_le_mul_right 1000 ha.2.1) nowMs
      exact ⟨ha.1, rfl, rfl, hnonzero, hord, hlt⟩
    · exact (hset.valid binding hbinding).mono hle
  · rw [hput]
    exact hset.distinct.put _

/-- **The bindings of an answer** are usable, different and numbered below the next. -/
theorem prepareBindings_set (h : v.Bound) {parsed : Parsed} (hsound : parsed.Sound) {nowMs : Nat}
    (hres : v.prepareBindings parsed nowMs = some result) : BindingSet result.1 result.2 := by
  have hstart : BindingSet (if preservesOmitted v.exchange.state then v.addresses else [])
      v.nextAddressGeneration := by
    split
    · exact h.set
    · exact BindingSet.empty h.nextAddressGeneration
  unfold ClientV2.prepareBindings at hres
  have haddrs := hsound.addresses
  generalize parsed.iaAddresses = addresses at haddrs hres
  generalize (if preservesOmitted v.exchange.state then v.addresses else []) = candidate at hstart hres
  generalize v.nextAddressGeneration = nextGeneration at hstart hres
  -- along the addresses of the answer, one binding step each
  induction addresses generalizing candidate nextGeneration with
  | nil =>
    obtain rfl := some.inj hres
    exact hstart
  | cons a addresses ih =>
    rw [foldlM_cons] at hres
    obtain ⟨⟨candidate', nextGeneration'⟩, hstep, hrest⟩ := bind_eq_some_iff.mp hres
    have ha : a.Sound := haddrs a mem_cons_self
    exact ih (fun b hb => haddrs b (mem_cons_of_mem a hb)) candidate' nextGeneration'
      (bindAddress_set hstep ha hstart) hrest

/-! ## §2. The state of the exchange. -/

/-- The exchange is given up for its lease: the calls, other than reading it, that find it expired. -/
def Client.Expires (c : Client) : Call → Prop
  | .requestReconfigure requested nowMs =>
      let kind := TransmitKind.ofCode requested
      c.lastNowMs ≤ nowMs ∧ c.pendingPresent = false ∧ c.takesReconfigure kind = true ∧
      c.generation < maxUInt64 - 3 ∧
      (kind = .rebind ∨ (kind = .informationRequest ∧ c.mode ≠ .information) →
        nowMs ≤ maxUInt64 - maxRandomizedRtMs) ∧
      c.expiresAtMs ≤ nowMs
  | .prepare _ nowMs output =>
      output = true ∧ c.lastNowMs ≤ nowMs ∧ c.hasLease = true ∧ c.expiresAtMs ≤ nowMs ∧
      c.generation ≠ maxUInt64
  | _ => False

/-- The exchange is given up with the report of its last Request. -/
def Client.GivesUp (c : Client) : Call → Prop
  | .completeTransmit transmit sentSuccessfully =>
      c.pendingPresent = true ∧ transmit = some c.pending ∧ sentSuccessfully = 1 ∧ c.state = .requesting ∧
      c.pending.kind = .request ∧ messageTransaction c.pending.message = c.transactionId ∧
      c.offerT1Seconds + 1 = requestMaxRetransmissions
  | _ => False

theorem expireLease_of_room (h : c.generation ≠ maxUInt64) :
    c.expireLease = (.leaseExpired, { c with generation := c.generation + 1 }.clearDynamic) := by
  unfold Client.expireLease
  rw [if_neg h]

/-- A Reconfigure keeps the mode, and a state that keeps bindings unless the lease expires. -/
theorem requestReconfigure_state (h : c.Valid) (requested nowMs : Nat) :
    (c.requestReconfigure requested nowMs).2.mode = c.mode ∧
      (¬ c.Expires (.requestReconfigure requested nowMs) → stateKeepsBindings c.state = true →
        stateKeepsBindings (c.requestReconfigure requested nowMs).2.state = true) := by
  have hcases := requestReconfigure_cases h requested nowMs
  unfold Client.Expires
  dsimp only
  generalize c.requestReconfigure requested nowMs = result at hcases ⊢
  generalize TransmitKind.ofCode requested = kind at hcases ⊢
  cases hcases with
  | refused | renewed => exact ⟨rfl, fun _ hkeeps => hkeeps⟩
  | expired hnow habs htakes hgen hroom hexpired =>
    refine ⟨?_, fun hlive => absurd ⟨hnow, habs, htakes, hgen, hroom, hexpired⟩ hlive⟩
    unfold Client.expireLease
    split <;> rfl
  | started _ _ _ _ _ _ hst =>
    rcases hst with ⟨_, rfl⟩ | ⟨_, rfl⟩ <;> exact ⟨rfl, fun _ _ => rfl⟩

theorem requestReconfigure_expires (h : c.Valid) {requested nowMs : Nat}
    (hexpires : c.Expires (.requestReconfigure requested nowMs)) :
    (c.requestReconfigure requested nowMs).2 =
      { c with lastNowMs := nowMs, generation := c.generation + 1 }.clearDynamic := by
  obtain ⟨hnow, habs, htakes, hgen, hroom, hexpired⟩ := hexpires
  have hleft : c.generation ≠ maxUInt64 := by omega
  have hfits : ¬ (maxUInt64 - 3 ≤ c.generation ∨ ((TransmitKind.ofCode requested = .rebind ∨
      (TransmitKind.ofCode requested = .informationRequest ∧ c.mode ≠ .information)) ∧
        maxUInt64 - maxRandomizedRtMs < nowMs)) := by
    rintro (hfull | ⟨hstarts, hlate⟩)
    · omega
    · exact Nat.not_lt_of_le (hroom hstarts) hlate
  unfold Client.requestReconfigure
  rw [if_neg (not_not_intro h), if_neg (Nat.not_lt_of_le hnow), if_neg (by rw [habs]; nofun), if_pos htakes,
    if_neg hfits, if_pos hexpired]
  have hexpire := expireLease_of_room (c := { c with lastNowMs := nowMs }) hleft
  rw [hexpire]

theorem enqueue_state (c : Client) (kind : TransmitKind) (transactionId nowMs : Nat) :
    (c.enqueue kind transactionId nowMs).client.mode = c.mode ∧
      (c.enqueue kind transactionId nowMs).client.state = c.state := by
  unfold Client.enqueue
  split <;> exact ⟨rfl, rfl⟩

/-- Preparing keeps the mode, and the state unless the lease expires. -/
theorem prepare_state (c : Client) (newTransactionId nowMs : Nat) (output : Bool) :
    (c.prepare newTransactionId nowMs output).client.mode = c.mode ∧
      (¬ c.Expires (.prepare newTransactionId nowMs output) →
        (c.prepare newTransactionId nowMs output).client.state = c.state) := by
  rcases prepare_cases c newTransactionId nowMs output with ⟨_, heq⟩ | ⟨houtput, hlater, hexpired, heq⟩ |
    ⟨_, heq⟩ | ⟨transactionId, _, ⟨_, _, heq | heq⟩ | heq⟩ <;> rw [heq]
  · exact ⟨rfl, fun _ => rfl⟩
  · unfold Client.expireLease
    split
    · exact ⟨rfl, fun _ => rfl⟩
    · rename_i hroom
      exact ⟨rfl, fun hlive => absurd ⟨houtput, hlater, hexpired.1, hexpired.2, hroom⟩ hlive⟩
  · exact ⟨rfl, fun _ => rfl⟩
  · exact ⟨rfl, fun _ => rfl⟩
  · obtain ⟨hmode, hst⟩ := enqueue_state (c.chooses transactionId nowMs) (c.due nowMs).1 transactionId nowMs
    exact ⟨hmode, fun _ => hst⟩
  · obtain ⟨hmode, hst⟩ := enqueue_state c (c.due nowMs).1 transactionId nowMs
    exact ⟨hmode, fun _ => hst⟩

theorem prepare_expires (h : c.Valid) {newTransactionId nowMs : Nat} {output : Bool}
    (hexpires : c.Expires (.prepare newTransactionId nowMs output)) :
    c.prepare newTransactionId nowMs output = ⟨.leaseExpired,
      { c with lastNowMs := nowMs, generation := c.generation + 1 }.clearDynamic, .zero⟩ := by
  obtain ⟨houtput, hnow, hlease, hexpired, hroom⟩ := hexpires
  have hargs : ¬ (¬ c.Valid ∨ output = false) := by
    rintro (hinvalid | hnone)
    · exact hinvalid h
    · exact Bool.false_ne_true (hnone.symm.trans houtput)
  unfold Client.prepare
  rw [if_neg hargs, if_neg (Nat.not_lt_of_le hnow), if_pos ⟨hlease, hexpired⟩]
  have hexpire := expireLease_of_room (c := { c with lastNowMs := nowMs }) hroom
  rw [hexpire]

/-- A message that was not sent leaves the exchange, at most without the message. -/
theorem completeTransmit_unsent (c : Client) (transmit : Option Transmit) :
    (c.completeTransmit transmit 0).2 = c ∨ (c.completeTransmit transmit 0).2 = c.clearPending := by
  unfold Client.completeTransmit
  split
  · exact Or.inl rfl
  split
  · exact Or.inl rfl
  · rw [if_pos rfl]
    exact Or.inr rfl

/-- The states that keep bindings are left with a message only for information. -/
theorem move_keepsBindings {kind : TransmitKind} {transactionId : Nat} {m : Move}
    (hmove : c.move kind transactionId = some m) (hkeeps : stateKeepsBindings c.state = true)
    (hst : c.state ≠ .informationBound) : stateKeepsBindings m.state = true := by
  rcases move_cases hmove with ⟨hsame, _⟩ | ⟨_, hedge⟩
  · rw [hsame]
    exact hkeeps
  rcases hedge with ⟨hidle, _, _⟩ | ⟨hidle, _, _⟩ | ⟨_, _, hnext⟩ | ⟨_, _, hnext⟩ | ⟨_, _, hnext⟩ |
    ⟨_, _, hnext⟩ | ⟨hinfo, _, _⟩
  · rw [hidle] at hkeeps
    exact absurd hkeeps (by decide)
  · rw [hidle] at hkeeps
    exact absurd hkeeps (by decide)
  · rw [hnext]; rfl
  · rw [hnext]; rfl
  · rw [hnext]; rfl
  · rw [hnext]; rfl
  · exact absurd hinfo hst

/-- A Request continues only in the state of its exchange. -/
theorem requesting_of_request_again {transactionId : Nat} {m : Move}
    (hmove : c.move .request transactionId = some m) (hagain : m.transition = false) :
    c.state = .requesting ∧ transactionId = c.transactionId := by
  rcases move_cases hmove with ⟨_, _, hkind, _, hid⟩ | ⟨hopens, _⟩
  · refine ⟨?_, hid hagain⟩
    cases hst : c.state <;> rw [hst] at hkind <;> first | rfl | cases hkind
  · exact absurd (hagain.symm.trans hopens) Bool.false_ne_true

/-- The report of a message keeps the mode, and a state that keeps bindings unless the Request is given up. -/
theorem completeTransmit_state (transmit : Option Transmit) (sentSuccessfully : Int) :
    (c.completeTransmit transmit sentSuccessfully).2.mode = c.mode ∧
      (¬ c.GivesUp (.completeTransmit transmit sentSuccessfully) → stateKeepsBindings c.state = true →
        c.state ≠ .informationBound →
        stateKeepsBindings (c.completeTransmit transmit sentSuccessfully).2.state = true) := by
  unfold Client.completeTransmit
  cases transmit with
  | none => exact ⟨rfl, fun _ hkeeps _ => hkeeps⟩
  | some transmit =>
    dsimp only
    split
    · exact ⟨rfl, fun _ hkeeps _ => hkeeps⟩
    rename_i hargs
    push Not at hargs
    obtain ⟨_, hpres, rfl, hsent⟩ := hargs
    split
    · exact ⟨rfl, fun _ hkeeps _ => hkeeps⟩
    rename_i hunsent
    split
    · exact ⟨rfl, fun _ hkeeps _ => hkeeps⟩
    rename_i m hmove
    have hkept : stateKeepsBindings c.state = true → c.state ≠ .informationBound →
        stateKeepsBindings m.state = true := fun hkeeps hst => move_keepsBindings hmove hkeeps hst
    split
    · exact ⟨rfl, fun _ => hkept⟩
    split
    · exact ⟨rfl, fun _ => hkept⟩
    rename_i hopens
    split
    · rename_i hlast
      -- only a Request has a last retransmission
      have hkind : c.pending.kind = .request := by
        by_contra hoth
        refine hlast.1 ?_
        unfold retransmissionMrc
        rw [if_neg hoth]
      rw [hkind] at hmove hlast
      obtain ⟨hst, hid⟩ := requesting_of_request_again hmove (eq_false_of_ne_true hopens)
      have hcnt : c.offerT1Seconds + 1 = requestMaxRetransmissions :=
        Nat.le_antisymm (Nat.succ_le_of_lt hlast.2.1) hlast.2.2
      exact ⟨rfl, fun hfine => absurd ⟨eq_true_of_ne_false hpres, rfl, hsent hunsent, hst, hkind, hid,
        hcnt⟩ hfine⟩
    · exact ⟨rfl, fun _ => hkept⟩

theorem completeTransmit_givesUp (h : c.Valid) {transmit : Option Transmit} {sentSuccessfully : Int}
    (hgives : c.GivesUp (.completeTransmit transmit sentSuccessfully)) :
    ∃ generation, generation ≠ 0 ∧ (c.completeTransmit transmit sentSuccessfully).2 =
      { c with generation := generation }.clearDynamic := by
  obtain ⟨hpres, rfl, rfl, hst, hkind, hid, hcnt⟩ := hgives
  have hargs : ¬ (¬ c.Valid ∨ c.pendingPresent = false ∨ c.pending ≠ c.pending ∨
      ((1 : Int) ≠ 0 ∧ (1 : Int) ≠ 1)) := by
    rintro (hinvalid | habs | hoth | ⟨_, hnot⟩)
    · exact hinvalid h
    · exact Bool.false_ne_true (habs.symm.trans hpres)
    · exact hoth rfl
    · exact hnot rfl
  have hmove : c.move c.pending.kind (messageTransaction c.pending.message) =
      some ⟨.requesting, 0, false⟩ := by
    simp [Client.move, hst, hkind, hid]
  have hlast : retransmissionMrc c.pending.kind ≠ 0 ∧ c.offerT1Seconds < retransmissionMrc c.pending.kind ∧
      retransmissionMrc c.pending.kind ≤ c.offerT1Seconds + 1 := by
    rw [hkind, show retransmissionMrc .request = requestMaxRetransmissions from rfl, ← hcnt]
    exact ⟨Nat.succ_ne_zero _, Nat.lt_succ_self _, Nat.le_refl _⟩
  refine ⟨if c.generation ≠ maxUInt64 then c.generation + 1 else c.generation, ?_, ?_⟩
  · split
    · exact Nat.succ_ne_zero _
    · exact h.generation
  unfold Client.completeTransmit
  dsimp only
  rw [if_neg hargs, if_neg (by decide), hmove]
  dsimp only
  rw [if_neg (fun hopens => Bool.false_ne_true hopens.1), if_neg Bool.false_ne_true, if_pos hlast]
  rfl

/-! ## §3. The invariant. -/

/-- The bindings fit the exchange, and a client of information has none. -/
structure ClientV2.Inv (v : ClientV2) : Prop extends ClientV2.Bound v where
  information : v.exchange.mode = .information → v.addresses = []

/-- The invariant with another exchange and other bindings. -/
theorem ClientV2.Inv.rebound (h : v.Inv) {bindings : List Binding}
    (hset : BindingSet bindings nextGeneration)
    (hinfo : c.mode = .information → bindings = [])
    (hst : bindings ≠ [] → stateKeepsBindings c.state = true) :
    { v with exchange := c, addresses := bindings, nextAddressGeneration := nextGeneration }.Inv :=
  { h with
    count := hset.count
    nextAddressGeneration := hset.next
    bindings := hset.valid
    distinct := hset.distinct
    state := hst
    information := hinfo }

/-- The invariant with another exchange of the same mode, in a state that keeps the bindings. -/
theorem ClientV2.Inv.exchanged (h : v.Inv) (hmode : c.mode = v.exchange.mode)
    (hst : v.addresses ≠ [] → stateKeepsBindings c.state = true) : { v with exchange := c }.Inv :=
  h.rebound h.toBound.set (fun hinfo => h.information (hmode.symm.trans hinfo)) hst

/-- A client with bindings is in a state that keeps them, which is not one of information. -/
theorem ClientV2.Inv.keeps (h : v.Inv) (hval : v.Valid) (hbind : v.addresses ≠ []) :
    stateKeepsBindings v.exchange.state = true ∧ v.exchange.state ≠ .informationBound := by
  refine ⟨h.state hbind, ?_⟩
  intro hst
  have hmode := hval.exchange.toFramed.information_of_state (by rw [hst]; rfl)
  exact hbind (h.information hmode)

theorem initV2_inv {duid : Option (List UInt8)} {iaid interfaceGeneration : Nat}
    (h : initV2 duid iaid interfaceGeneration = some v) : v.Inv := by
  obtain ⟨c, _, rfl⟩ := map_eq_some_iff.mp h
  exact {
    version := rfl
    structSize := rfl
    reserved := rfl
    count := Nat.zero_le _
    nextAddressGeneration := nofun
    bindings := nofun
    distinct := nodup_nil
    state := fun hne => absurd rfl hne
    information := fun _ => rfl }

/-- An invalid client refuses every call and stays as it is. -/
theorem callV2_of_invalid (h : ¬ v.Valid) (call : Call) : v.call call = (.invalidArgument, v) := by
  have hexch (f : Client → Status × Client) : v.onExchange f = (.invalidArgument, v) := if_pos h
  cases call with
  | setMode mode => exact hexch (·.setMode mode)
  | requestReconfigure requested nowMs => exact hexch (·.requestReconfigure requested nowMs)
  | prepare newTransactionId nowMs output =>
    have hprepare : v.prepare newTransactionId nowMs output = ⟨.invalidArgument, v, .zero⟩ := if_pos h
    show ((v.prepare newTransactionId nowMs output).status, (v.prepare newTransactionId nowMs output).client) = _
    rw [hprepare]
  | completeTransmit transmit sentSuccessfully => exact hexch (·.completeTransmit transmit sentSuccessfully)
  | receive message nowMs =>
    cases message with
    | none => rfl
    | some message => exact if_pos (Or.inl h)
  | getLease nowMs output =>
    have hlease : v.getLease nowMs output = (.invalidArgument, v, none) := if_pos (Or.inl h)
    show ((v.getLease nowMs output).1, (v.getLease nowMs output).2.1) = _
    rw [hlease]
  | stop => exact if_pos h

theorem onExchange_of_valid (h : v.Valid) (f : Client → Status × Client) :
    (v.onExchange f).2 = { v with exchange := (f v.exchange).2 } := by
  unfold ClientV2.onExchange
  rw [if_neg (not_not_intro h)]

/-! ## §4. One call. -/

theorem setModeV2_inv (h : v.Inv) (hval : v.Valid) (mode : Nat) : (v.setMode mode).2.Inv := by
  unfold ClientV2.setMode
  rw [onExchange_of_valid hval]
  unfold Client.setMode
  split
  · exact h
  split
  · exact h
  rename_i hidle
  push Not at hidle
  -- an idle client has no bindings
  have hnil : v.addresses = [] := by
    by_contra hbind
    have hkeeps := h.state hbind
    rw [hidle.2.1] at hkeeps
    exact absurd hkeeps (by decide)
  exact h.rebound h.toBound.set (fun _ => hnil) h.state

theorem stopV2_inv (h : v.Inv) (hval : v.Valid) : v.stop.2.Inv := by
  unfold ClientV2.stop
  rw [if_neg (not_not_intro hval)]
  split
  · exact h.rebound (BindingSet.empty h.nextAddressGeneration) (fun _ => rfl) (fun hne => absurd rfl hne)
  rename_i href
  -- a stop that is refused leaves the exchange
  unfold Client.stop at href ⊢
  rw [if_neg (not_not_intro hval.exchange)] at href ⊢
  split
  · exact h
  rename_i hrunning
  rw [if_neg hrunning] at href
  split
  · exact h
  rename_i hroom
  rw [if_neg hroom] at href
  exact absurd rfl href

theorem prepareV2_inv (h : v.Inv) (hval : v.Valid) {newTransactionId nowMs : Nat} {output : Bool}
    (hfine : v.addresses ≠ [] → ¬ v.exchange.Expires (.prepare newTransactionId nowMs output)) :
    (v.prepare newTransactionId nowMs output).client.Inv := by
  obtain ⟨hmode, hst⟩ := prepare_state v.exchange newTransactionId nowMs output
  have hkeeps : v.addresses ≠ [] →
      stateKeepsBindings (v.exchange.prepare newTransactionId nowMs output).client.state = true := by
    intro hbind
    rw [hst (hfine hbind)]
    exact h.state hbind
  unfold ClientV2.prepare
  rw [if_neg (not_not_intro hval)]
  dsimp only
  split
  · exact h.exchanged hmode hkeeps
  split
  · exact h.exchanged hmode hkeeps
  rcases completeTransmit_unsent (v.exchange.prepare newTransactionId nowMs output).client
    (some (v.exchange.prepare newTransactionId nowMs output).transmit) with hsame | hcleared
  · rw [hsame]
    exact h.exchanged hmode hkeeps
  · rw [hcleared]
    exact h.exchanged hmode hkeeps

/-- What is published of an answer keeps the invariant. -/
theorem publish_inv (h : v.Inv) (hmode : v.exchange.mode = .stateful) {result : Status × Client}
    (hres : Received v.exchange result)
    (hset : BindingSet candidate nextGeneration) (before : Client) (parsed : Parsed) :
    (v.publish result.1 result.2 before candidate nextGeneration parsed).Inv := by
  obtain ⟨hsame, hout⟩ := hres
  obtain ⟨status, c⟩ := result
  dsimp only at hsame hout ⊢
  have hinfo : c.mode = .information → candidate = [] := by
    intro hoth
    rw [hsame, hmode] at hoth
    cases hoth
  unfold ClientV2.publish
  rcases hout with ⟨hoffer, hlease, hst⟩ | ⟨hoffer, hst⟩ | ⟨hlease, hst⟩
  · rw [if_neg hoffer, if_neg hlease]
    refine h.exchanged hsame ?_
    intro hbind
    rw [hst]
    exact h.state hbind
  · rw [if_pos hoffer]
    refine h.rebound hset hinfo ?_
    intro _
    rw [hst]
    rfl
  have hkeeps : candidate ≠ [] → stateKeepsBindings c.state = true := by
    intro _
    rcases hst with hst | hst <;> rw [hst] <;> rfl
  rw [if_neg (by rw [hlease]; nofun), if_pos hlease]
  split
  · exact h.rebound hset hinfo hkeeps
  split
  · exact h.rebound hset hinfo hkeeps
  split
  · exact h.rebound hset hinfo hkeeps
  · exact h.rebound hset hinfo hkeeps

/-- A state that waits for an association is not one of information. -/
theorem stateful_of_expected (h : c.Framed) {expectedType : UInt8}
    (hexp : expectedReply c.state = some (expectedType, true)) : c.mode = .stateful := by
  refine h.stateful_of_state ?_
  cases hst : c.state <;> rw [hst] at hexp <;> first | rfl | cases hexp

theorem receiveV2_inv (h : v.Inv) (hval : v.Valid) (message : Option (List UInt8)) (nowMs : Nat) :
    (v.receive message nowMs).2.Inv := by
  -- an answer handed to the exchange alone
  have hdirect (message : List UInt8) : { v with exchange := (v.exchange.receive (some message) nowMs).2 }.Inv := by
    obtain ⟨hmode, hout⟩ := receive_received v.exchange (some message) nowMs
    refine h.exchanged hmode ?_
    intro hbind
    rcases hout with ⟨_, _, hst⟩ | ⟨_, hst⟩ | ⟨_, hst | hst⟩
    · rw [hst]
      exact h.state hbind
    · rw [hst]; rfl
    · rw [hst]; rfl
    · rw [hst]; rfl
  unfold ClientV2.receive
  split
  · exact h
  rename_i message
  split
  · exact h
  split
  · exact h
  split
  · exact h
  rename_i expectedType requireIa hexp
  dsimp only
  split
  · rename_i parsed hparsed
    split
    · exact hdirect message
    rename_i hrequire
    rw [eq_true_of_ne_false hrequire] at hexp hparsed
    have hmode := stateful_of_expected hval.exchange.toFramed hexp
    split
    · exact h
    rename_i candidate nextGeneration hprep
    have hset := prepareBindings_set h.toBound (parseMessage_spec hparsed).2.1.toSound hprep
    split
    · split
      · exact h
      · exact publish_inv h hmode (receive_received v.exchange _ nowMs) hset _ _
    · exact publish_inv h hmode (receive_received v.exchange _ nowMs) hset _ _
  · exact hdirect message

theorem getLeaseV2_inv (h : v.Inv) (nowMs : Nat) (output : Bool) : (v.getLease nowMs output).2.1.Inv := by
  have hlive : BindingSet (v.live nowMs) v.nextAddressGeneration := h.toBound.set.sublist filter_sublist
  have hsome : v.live nowMs ≠ [] → v.addresses ≠ [] := by
    intro hne hnil
    unfold ClientV2.live at hne
    rw [hnil] at hne
    exact hne rfl
  have hnone : v.exchange.mode = .information → v.live nowMs = [] := by
    intro hmode
    by_contra hne
    exact hsome hne (h.information hmode)
  unfold ClientV2.getLease
  split
  · exact h
  split
  · exact h
  split
  · exact h
  split
  · exact h.rebound (BindingSet.empty h.nextAddressGeneration) (fun _ => rfl) (fun hne => absurd rfl hne)
  dsimp only
  split
  · exact h.rebound hlive hnone (fun hne => h.state (hsome hne))
  · exact h.rebound hlive hnone (fun hne => h.state (hsome hne))

/-- The calls that give the exchange up and keep the bindings. -/
def ClientV2.Abandons (v : ClientV2) (call : Call) : Prop :=
  v.Valid ∧ v.addresses ≠ [] ∧ (v.exchange.Expires call ∨ v.exchange.GivesUp call)

instance (c : Client) : (call : Call) → Decidable (c.Expires call)
  | .requestReconfigure _ _ | .prepare _ _ _ => by unfold Client.Expires; infer_instance
  | .setMode _ | .completeTransmit _ _ | .receive _ _ | .getLease _ _ | .stop =>
    inferInstanceAs (Decidable False)

instance (c : Client) : (call : Call) → Decidable (c.GivesUp call)
  | .completeTransmit _ _ => by unfold Client.GivesUp; infer_instance
  | .requestReconfigure _ _ | .prepare _ _ _ | .setMode _ | .receive _ _ | .getLease _ _ | .stop =>
    inferInstanceAs (Decidable False)

instance (v : ClientV2) (call : Call) : Decidable (v.Abandons call) := by
  unfold ClientV2.Abandons; infer_instance

/-- One call keeps the invariant, unless it abandons the bindings. -/
theorem stepV2_inv (h : v.Inv) {call : Call} (hfine : ¬ v.Abandons call) : (v.step call).Inv := by
  by_cases hval : v.Valid
  · have hstays (hbind : v.addresses ≠ []) : ¬ v.exchange.Expires call ∧ ¬ v.exchange.GivesUp call :=
      ⟨fun hexpires => hfine ⟨hval, hbind, Or.inl hexpires⟩,
        fun hgives => hfine ⟨hval, hbind, Or.inr hgives⟩⟩
    cases call with
    | setMode mode => exact setModeV2_inv h hval mode
    | requestReconfigure requested nowMs =>
      show (v.onExchange _).2.Inv
      rw [onExchange_of_valid hval]
      obtain ⟨hmode, hkeeps⟩ := requestReconfigure_state hval.exchange requested nowMs
      exact h.exchanged hmode fun hbind => hkeeps (hstays hbind).1 (h.state hbind)
    | prepare newTransactionId nowMs output =>
      exact prepareV2_inv h hval fun hbind => (hstays hbind).1
    | completeTransmit transmit sentSuccessfully =>
      show (v.onExchange _).2.Inv
      rw [onExchange_of_valid hval]
      obtain ⟨hmode, hkeeps⟩ := @completeTransmit_state v.exchange transmit sentSuccessfully
      refine h.exchanged hmode fun hbind => ?_
      obtain ⟨hst, hoth⟩ := h.keeps hval hbind
      exact hkeeps (hstays hbind).2 hst hoth
    | receive message nowMs => exact receiveV2_inv h hval message nowMs
    | getLease nowMs output => exact getLeaseV2_inv h nowMs output
    | stop => exact stopV2_inv h hval
  unfold ClientV2.step
  rw [callV2_of_invalid hval]
  exact h

/-- A call that abandons the bindings leaves a valid idle exchange beside them. -/
theorem stepV2_abandons {call : Call} (h : v.Abandons call) :
    (v.step call).exchange.Valid ∧ (v.step call).exchange.state = .idle ∧ (v.step call).addresses ≠ [] := by
  obtain ⟨hval, hbind, hends⟩ := h
  have hframed := hval.exchange.toFramed
  have hcleared (nowMs : Nat) : ({ v.exchange with
      lastNowMs := nowMs, generation := v.exchange.generation + 1 }.clearDynamic).Valid :=
    clearDynamic_valid (c := { v.exchange with lastNowMs := nowMs }) { hframed with } (Nat.succ_ne_zero _)
  cases call with
  | requestReconfigure requested nowMs =>
    have hexpires := hends.resolve_right id
    show (v.onExchange _).2.exchange.Valid ∧ (v.onExchange _).2.exchange.state = _ ∧
      (v.onExchange _).2.addresses ≠ []
    rw [onExchange_of_valid hval, requestReconfigure_expires hval.exchange hexpires]
    exact ⟨hcleared nowMs, rfl, hbind⟩
  | prepare newTransactionId nowMs output =>
    have hexpires := hends.resolve_right id
    have hprep := prepare_expires hval.exchange hexpires
    have hstep : v.step (.prepare newTransactionId nowMs output) = { v with exchange := { v.exchange with
        lastNowMs := nowMs, generation := v.exchange.generation + 1 }.clearDynamic } := by
      show (v.prepare newTransactionId nowMs output).client = _
      unfold ClientV2.prepare
      rw [if_neg (not_not_intro hval), hprep]
      rw [if_pos nofun]
    rw [hstep]
    exact ⟨hcleared nowMs, rfl, hbind⟩
  | completeTransmit transmit sentSuccessfully =>
    have hgives := hends.resolve_left id
    obtain ⟨generation, hgen, hres⟩ := completeTransmit_givesUp hval.exchange hgives
    show (v.onExchange _).2.exchange.Valid ∧ (v.onExchange _).2.exchange.state = _ ∧
      (v.onExchange _).2.addresses ≠ []
    rw [onExchange_of_valid hval, hres]
    exact ⟨clearDynamic_valid hframed hgen, rfl, hbind⟩
  | setMode mode | receive message nowMs | getLease nowMs output | stop =>
    exact absurd (hends.elim id id) not_false

/-! ## §5. Runs. -/

/-- A call that leaves the exchange valid leaves the client valid, and without bindings where it is idle. -/
def ClientV2.StaysValid (v : ClientV2) (call : Call) : Prop :=
  (v.step call).exchange.Valid →
    (v.step call).Valid ∧ ((v.step call).exchange.state = .idle → (v.step call).addresses = [])

/-- **The client of several addresses over whole runs.** Along any run of calls on a new client, every call
    that leaves the exchange valid leaves the whole client valid (and empty where the exchange is idle),
    exactly when no call of the run finds the lease of some bindings expired in a Reconfigure or a prepare, or
    reports the last Request of an offer with bindings. -/
theorem run_bindings_iff {duid : Option (List UInt8)} {iaid interfaceGeneration : Nat} {v : ClientV2}
    (h : initV2 duid iaid interfaceGeneration = some v) (calls : List Call) :
    Along ClientV2.step ClientV2.StaysValid v calls ↔
      Along ClientV2.step (fun v call => ¬ v.Abandons call) v calls := by
  refine along_iff_along (fun v call hv hfine => stepV2_inv hv hfine) ?_ (initV2_inv h)
  intro v call hv
  constructor
  · intro hstays habandons
    obtain ⟨hexch, hidle, hbind⟩ := stepV2_abandons habandons
    exact hbind ((hstays hexch).2 hidle)
  intro hfine hexch
  have hinv := stepV2_inv hv hfine
  refine ⟨⟨hinv.toBound, hexch⟩, ?_⟩
  intro hidle
  by_contra hbind
  have hkeeps := hinv.state hbind
  rw [hidle] at hkeeps
  exact absurd hkeeps (by decide)

/-- A new client of several addresses. -/
def sampleClientV2 : ClientV2 := (initV2 (some sampleDuid) 7 1).get (by decide)

/-- The calls that prepare a message and report it as sent. -/
def ClientV2.sends (v : ClientV2) (transactionId nowMs : Nat) : List Call :=
  [.prepare transactionId nowMs true,
    .completeTransmit (some (v.prepare transactionId nowMs true).transmit) 1]

/-- The exchange up to a Request. -/
def requestCallsV2 : List Call :=
  let calls := solicitCalls 0 ++ [.receive (some (sampleMessage messageAdvertise 1 100 200 300 [])) 2100]
  calls ++ (run ClientV2.step sampleClientV2 calls).sends 2 2200

/-- The client that waits for the answer to its Request. -/
def requestingV2 : ClientV2 :=
  { sampleClientV2 with
    exchange := { sampleClientV2.exchange with
      state := .requesting
      generation := 5
      lastNowMs := 2200
      transactionStartedMs := 2200
      nextTransmitMs := 3104
      retryMs := 904
      transactionId := 2
      nextTransmitSequence := 3
      serverDuid := sampleServer
      address := sampleAddress }
    nextAddressGeneration := 2
    addresses := [⟨sampleAddress, 0, 0, 302100, 302100, 1⟩] }

theorem run_requestCallsV2 : run ClientV2.step sampleClientV2 requestCallsV2 = requestingV2 := by
  decide +kernel

/-- The Request retransmitted `n` times, each when it is due. -/
def retransmitCallsV2 : (n : Nat) → List Call
  | 0 => []
  | n + 1 =>
      let v := run ClientV2.step requestingV2 (retransmitCallsV2 n)
      retransmitCallsV2 n ++ v.sends 2 v.exchange.nextTransmitMs

/-- The answer to the Request, a lease of 300 seconds. -/
def leaseCallV2 : Call := .receive (some (sampleMessage messageReply 2 100 200 300 [])) 3000

/-- The exchange up to the lease leaves a valid client at every call. -/
theorem run_bindings_leased :
    (run ClientV2.step sampleClientV2 (requestCallsV2 ++ [leaseCallV2])).exchange.state = .bound ∧
      Along ClientV2.step ClientV2.StaysValid sampleClientV2 (requestCallsV2 ++ [leaseCallV2]) := by
  have hinit : initV2 (some sampleDuid) 7 1 = some sampleClientV2 := by decide
  refine ⟨?_, (run_bindings_iff hinit _).mpr ?_⟩
  · rw [run_append, run_requestCallsV2]
    decide +kernel
  · rw [along_append, run_requestCallsV2]
    exact ⟨by decide +kernel, by decide +kernel⟩

/-- A prepare and a Reconfigure at the end of the lease, and the tenth retransmission of the Request, each
    leave a valid exchange and an invalid client. -/
theorem run_bindings_abandoned :
    initV2 (some sampleDuid) 7 1 = some sampleClientV2 ∧
    (let v := run ClientV2.step sampleClientV2 (requestCallsV2 ++ [leaseCallV2, .prepare 3 303000 true])
     v.exchange.Valid ∧ ¬ v.Valid) ∧
    (let v := run ClientV2.step sampleClientV2 (requestCallsV2 ++ [leaseCallV2, .requestReconfigure 5 303000])
     v.exchange.Valid ∧ ¬ v.Valid) ∧
    (let v := run ClientV2.step sampleClientV2 (requestCallsV2 ++ retransmitCallsV2 10)
     v.exchange.Valid ∧ ¬ v.Valid) := by
  refine ⟨by decide, ?_, ?_, ?_⟩ <;> rw [run_append, run_requestCallsV2] <;> decide +kernel

end RinRuntime.Dhcpv6

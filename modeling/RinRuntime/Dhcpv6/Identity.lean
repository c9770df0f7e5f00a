/-
Dhcpv6.Identity — whose messages a client takes.

What the parser keeps of a message stands in its options, so the checks of `rin_dhcpv6_client_receive` on
what was parsed are checks on the bytes received.

Main result: `receive_foreign` — a message of another exchange or for another client leaves the client as
it was, and only the selected server's Reply with the selected address renews a lease.
-/
import RinRuntime.Dhcpv6.Steps

namespace RinRuntime.Dhcpv6
open Lib.Tlv

variable {parsed : Parsed} {c : Client} {nowMs : Nat} {status : Status}

theorem answer_foreign (h : c.clientMatches parsed = false) : (c.answer status parsed nowMs).2 = c := by
  have hoverrides : c.applyRetransmissionOverrides parsed nowMs = (.ok, c) := if_pos (by simp [Client.overridable, h])
  unfold Client.answer
  rw [hoverrides]
  dsimp only
  rw [if_neg (not_not_intro rfl)]
  split
  · rw [h, Bool.and_false, if_neg Bool.false_ne_true]
  rcases commit_committed c parsed nowMs with ⟨href, hsame⟩ | ⟨_, hmatches, _⟩
  · rw [href, if_neg Bool.false_ne_true, hsame]
  · cases h.symm.trans hmatches

/-- A lease is taken from the selected server and for the selected address. -/
theorem commit_lease (hst : c.state = .requesting ∨ c.state = .renewing)
    (h : (c.commit parsed nowMs).1 = .leaseReady) :
    c.identityMatches parsed = true ∧ c.serverMatches parsed = true ∧ parsed.address = c.address ∧
      addressUsable parsed.address = true := by
  rw [Client.commit, if_neg, if_neg, if_neg] at h
  · rcases commitLease_committed c parsed nowMs with ⟨href, _⟩ | ⟨_, _, hidentity, hsel, _, _, husable, _⟩
    · rw [h] at href
      cases href
    · obtain ⟨hsrv, haddr⟩ := hsel (by rcases hst with hst | hst <;> simp [hst])
      exact ⟨hidentity, hsrv, haddr, husable⟩
  all_goals rcases hst with hst | hst <;> simp [hst]

theorem answer_lease (hst : c.state = .requesting ∨ c.state = .renewing)
    (h : (c.answer status parsed nowMs).1 = .leaseReady) :
    c.identityMatches parsed = true ∧ c.serverMatches parsed = true ∧ parsed.address = c.address ∧
      addressUsable parsed.address = true := by
  have hcommit : ((c.applyRetransmissionOverrides parsed nowMs).2.commit parsed nowMs).1 = .leaseReady := by
    unfold Client.answer at h
    dsimp only at h
    split at h
    · rcases overrides_cases c parsed nowMs with hcase | hcase | hcase <;> rw [hcase] at h <;> cases h
    split at h
    · rename_i hrej
      cases h.symm.trans hrej
    · exact h
  rcases overrides_cases c parsed nowMs with hcase | hcase | hcase <;> rw [hcase] at hcommit
  all_goals
    have hlease := commit_lease (by exact hst) hcommit
    exact hlease

/-- The values of an option of a message. -/
def carried (code : Nat) (message : List UInt8) : List (List UInt8) := values code (options (message.drop 4))

/-- **A foreign message changes nothing.** One of another exchange, or that does not carry the client's
    identifier, leaves the whole client as it was; and a lease is taken or renewed only by a Reply of the
    exchange from the selected server, with the client's association and its selected address in it. -/
theorem receive_foreign (c : Client) (message : List UInt8) (nowMs : Nat) :
    (messageTransaction message ≠ c.transactionId ∨ carried optionClientId message ≠ [c.duid] →
      (c.receive (some message) nowMs).2 = c) ∧
    (c.state = .requesting ∨ c.state = .renewing → (c.receive (some message) nowMs).1 = .leaseReady →
      message.getD 0 0 = messageReply ∧ messageTransaction message = c.transactionId ∧
      carried optionClientId message = [c.duid] ∧ carried optionServerId message = [c.serverDuid] ∧
      ∃ association, carried optionIaNa message = [association] ∧ load32 association = c.iaid ∧
        c.address ∈ addressesIn (options (association.drop 12))) := by
  rcases receive_cases c (some message) nowMs with
    ⟨hpos, hsame⟩ | ⟨_, expectedType, requireIa, status, parsed, hbytes, hexp, hid, hparsed, hanswer⟩
  · refine ⟨fun _ => hsame, fun _ hrdy => ?_⟩
    rw [hrdy] at hpos
    cases hpos
  obtain rfl := Option.some.inj hbytes
  obtain ⟨htype, hread, hclientSeen, hserverSeen, _, hiaSeen, _⟩ := parseMessage_spec hparsed
  have hclient : carried optionClientId message = [parsed.clientDuid] := by
    rw [carried, hread.clients, if_pos hclientSeen]
  have hsrv : carried optionServerId message = [parsed.serverDuid] := by
    rw [carried, hread.servers, if_pos hserverSeen]
  rw [hanswer]
  constructor
  · rintro (hforeign | hforeign)
    · exact absurd hid hforeign
    · refine answer_foreign (decide_eq_false fun hmatches => hforeign ?_)
      rw [hclient, hmatches]
  intro hst hrdy
  obtain ⟨hidentity, hsel, haddr, husable⟩ := answer_lease hst hrdy
  obtain ⟨hmatches, hiaid⟩ := Bool.and_eq_true_iff.mp hidentity
  obtain ⟨rfl, rfl⟩ : messageReply = expectedType ∧ true = requireIa := by
    rcases hst with hst | hst <;>
    · rw [hst] at hexp
      exact Prod.mk.inj (Option.some.inj hexp)
  obtain ⟨_, hunseen, _⟩ | ⟨association, hvalue, _, hassociation, hlisted⟩ := hread.association
  · cases hunseen.symm.trans hiaSeen
  · exact ⟨htype, hid, by rw [hclient, of_decide_eq_true hmatches], by rw [hsrv, of_decide_eq_true hsel],
      association, hvalue, hassociation.trans (of_decide_eq_true hiaid), haddr ▸ hlisted husable⟩

end RinRuntime.Dhcpv6

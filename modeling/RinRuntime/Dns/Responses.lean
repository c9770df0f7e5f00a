/-
Dns.Responses — what a client makes of a response.

A response is an answer, it asks for a retry over TCP, or it asks for a retry without EDNS; no packet is
two of them (`responses_exclusive`).
-/
import RinRuntime.Dns.Wire

namespace RinRuntime.Dns

/-! ## §1. Classifiers. -/

/-- `rin_dns_wire_is_truncated_response`. -/
def isTruncatedResponse (packet : List UInt8) (expectedId : Nat) (expectedName : Name)
    (expectedType : Nat) : Bool :=
  if packet.length < 12 ∨ ¬ typeExpected expectedType ∨ readU16 packet 0 ≠ expectedId then false
  else if readU16 packet 2 / 2 ^ 15 % 2 = 0 ∨ readU16 packet 2 / 2 ^ 11 % 16 ≠ 0 ∨
      readU16 packet 2 / 2 ^ 9 % 2 = 0 ∨ readU16 packet 2 % 16 ≠ 0 ∨ readU16 packet 4 ≠ 1 then false
  else (readQuestion packet expectedName expectedType).isSome

/-- `rin_dns_wire_is_edns_downgrade_response`. -/
def isEdnsDowngradeResponse (packet : List UInt8) (expectedId : Nat) (expectedName : Name)
    (expectedType : Nat) : Bool :=
  let rcode := readU16 packet 2 % 16
  if packet.length < 12 ∨ ¬ typeExpected expectedType ∨ readU16 packet 0 ≠ expectedId then false
  else if ¬ flagsAdmitted packet ∨ (rcode ≠ 0 ∧ rcode ≠ 1) ∨ readU16 packet 4 ≠ 1 ∨
      readU16 packet 6 ≠ 0 ∨ readU16 packet 8 ≠ 0 ∨ 1 < readU16 packet 10 then false
  else
    match readQuestion packet expectedName expectedType with
    | none => false
    | some position =>
        if readU16 packet 10 = 0 then decide (rcode = 1 ∧ position = packet.length)
        else
          match readFrame packet packet.length position with
          | none => false
          | some frame =>
              if frame.name ≠ [] ∨ frame.type ≠ typeOpt ∨
                  ednsOptionsValid packet frame.dataPosition frame.dataEnd = none ∨
                  frame.dataEnd ≠ packet.length ∨ frame.ttl / 2 ^ 16 % 256 ≠ 0 ∨
                  frame.ttl % 2 ^ 15 ≠ 0 then false
              else decide (rcode = 0 ∧ frame.ttl / 2 ^ 24 = 1)

/-- `rin_dns_wire_parse_response_answers_ex`: the status, the answers and the name to query next. -/
def parseResponseAnswersEx (packet : List UInt8) (expectedId : Nat) (expectedName : Name)
    (expectedType : Nat) (referralCapacity : Option Nat) : Status × AnswerSet × Name :=
  match cnameChainInit expectedName with
  | none => (.failure, AnswerSet.cleared, [])
  | some chain =>
      let output := parseResponseAnswersChainEx packet expectedId expectedName expectedType chain
        referralCapacity
      (output.status, output.answers, output.referral)

/-- The statuses of a response that is used: the non-negative ones but `NOT_IMPLEMENTED`. -/
def Status.used : Status → Bool
  | .success | .cnameReferral | .nameError | .noData => true
  | _ => false

/-! ## §2. Accepted responses. -/
section
variable {packet : List UInt8} {expectedId expectedType : Nat} {expectedName : Name} {chain : CnameChain}
  {referralCapacity : Option Nat} {output : Output}

/-- A response whose sections are admitted, and what is concluded from it. -/
structure Admitted (packet : List UInt8) (expectedName : Name) (expectedType : Nat) (chain : CnameChain)
    (referralCapacity : Option Nat) (output : Output) (current : Name) (start stop : Nat) (c : Chase)
    (edns : Option Edns) : Prop where
  rcode : readU16 packet 2 % 16 = 0 ∨ readU16 packet 2 % 16 = 3
  name : copyName nameCapacity expectedName = some current
  question : readQuestion packet expectedName expectedType = some start
  framed : skipRecords packet (readU16 packet 6) start = some stop
  chased : chaseAnswers packet expectedType start stop (readU16 packet 6) (maxCnameHops + 1)
    ⟨chain, current, 0, false, AnswerSet.cleared⟩ = .ok c
  others : ∃ position, skipRecords packet (readU16 packet 8) stop = some position ∧
    additionalRecords packet (readU16 packet 10) position none = some (packet.length, edns)
  concluded : conclude (readU16 packet 2 % 16) (readU16 packet 6) referralCapacity
    { c with answers := { c.answers with primary := { c.answers.primary with edns := edns } } } = .ok output

theorem parseSections_ok (hrcode : readU16 packet 2 % 16 = 0 ∨ readU16 packet 2 % 16 = 3)
    (h : parseSections packet expectedName expectedType chain referralCapacity = .ok output) :
    ∃ current start stop c edns, Admitted packet expectedName expectedType chain referralCapacity output
      current start stop c edns := by
  unfold parseSections at h
  dsimp only at h
  split at h
  next current start hname hq =>
    split at h
    · cases h
    next stop hframed =>
    split at h
    · cases h
    next c hchased =>
    split at h
    · cases h
    next position hskipped =>
    split at h
    · cases h
    next edns hadd =>
    split at h
    · cases h
    next hend =>
    rw [not_not.mp hend] at hadd
    exact ⟨current, start, stop, c, edns, hrcode, hname, hq, hframed, hchased,
      ⟨position, hskipped, hadd⟩, h⟩
  · cases h

/-- **A response that is accepted** tells that the query is not implemented, or its sections are admitted. -/
theorem parseResponse_ok
    (h : parseResponse packet expectedId expectedName expectedType chain referralCapacity = .ok output) :
    headerAdmitted packet expectedId expectedName expectedType chain = true ∧
      (output = ⟨.notImplemented, chain, AnswerSet.cleared, []⟩ ∨
        ∃ current start stop c edns, Admitted packet expectedName expectedType chain referralCapacity output
          current start stop c edns) := by
  unfold parseResponse at h
  dsimp only at h
  split_ifs at h with hheader hfour hnotimp hrcode hcounts
  · exact ⟨eq_true_of_ne_false hheader, Or.inl (Except.ok.inj h).symm⟩
  · exact ⟨eq_true_of_ne_false hheader, Or.inr (parseSections_ok (by omega) h)⟩

theorem followCname_error {c : Chase} {s : Scan} {target : Name} {ttl : Nat} {e : Status}
    (h : followCname c s target ttl = .error e) : e.used = false := by
  unfold followCname at h
  split_ifs at h
  · cases h; rfl
  split at h
  next e' _ => cases e' <;> cases h <;> rfl
  · split at h
    · cases h; rfl
    · cases h

theorem chaseAnswers_error {start stop count : Nat} {e : Status} : ∀ {rounds : Nat} {c : Chase},
    chaseAnswers packet expectedType start stop count rounds c = .error e → e.used = false
  | 0, c, h => by cases h; rfl
  | rounds + 1, c, h => by
    rw [chaseAnswers] at h
    split at h
    · cases h; rfl
    split at h
    · cases h
    split at h
    next hfollow => cases h; exact followCname_error hfollow
    · exact chaseAnswers_error h

/-- The statuses of a response that is not accepted. -/
theorem parseResponse_error {status : Status}
    (h : parseResponse packet expectedId expectedName expectedType chain referralCapacity = .error status) :
    status.used = false := by
  unfold parseResponse parseSections conclude at h
  dsimp only at h
  repeat' split at h
  all_goals first
    | (cases h; rfl)
    | (cases h; exact chaseAnswers_error (by assumption))
    | cases h

end

/-! ## §3. No packet is two of them. -/
section
variable {packet : List UInt8} {expectedId expectedType : Nat} {expectedName : Name}
  {referralCapacity : Option Nat}

theorem truncated_flag (h : isTruncatedResponse packet expectedId expectedName expectedType = true) :
    ¬ flagsAdmitted packet := by
  unfold isTruncatedResponse at h
  split_ifs at h
  exact fun hflags => absurd hflags.2.2 (by omega)

theorem downgrade_flags (h : isEdnsDowngradeResponse packet expectedId expectedName expectedType = true) :
    flagsAdmitted packet := by
  unfold isEdnsDowngradeResponse at h
  dsimp only at h
  by_contra hflags
  rw [if_pos (Or.inl hflags), ite_self] at h
  cases h

/-- A response that is used has its sections admitted. -/
theorem used_admitted
    (h : (parseResponseAnswersEx packet expectedId expectedName expectedType referralCapacity).1.used = true) :
    flagsAdmitted packet ∧ ∃ chain output current start stop c edns, Admitted packet expectedName expectedType
      chain referralCapacity output current start stop c edns := by
  unfold parseResponseAnswersEx at h
  split at h
  · cases h
  next chain hchain =>
  unfold parseResponseAnswersChainEx at h
  split at h
  next output hparse =>
    obtain ⟨hheader, rfl | hadmitted⟩ := parseResponse_ok hparse
    · cases h
    · simp only [headerAdmitted, Bool.and_eq_true, decide_eq_true_eq] at hheader
      exact ⟨hheader.2.1, chain, output, hadmitted⟩
  next status hparse =>
    rw [parseResponse_error hparse] at h
    cases h

/-- The OPT record of a refusal is no record of an admitted response. -/
theorem Admitted.not_downgrade {chain : CnameChain} {output : Output} {current : Name} {start stop : Nat}
    {c : Chase} {edns : Option Edns} (h : Admitted packet expectedName expectedType chain referralCapacity
      output current start stop c edns) :
    isEdnsDowngradeResponse packet expectedId expectedName expectedType ≠ true := by
  intro hdown
  have hrcode := h.rcode
  have hframed := h.framed
  obtain ⟨position, hskipped, hadd⟩ := h.others
  unfold isEdnsDowngradeResponse at hdown
  rw [h.question] at hdown
  dsimp only at hdown
  split_ifs at hdown with hheader hcounts hnone
  · rw [decide_eq_true_eq] at hdown
    omega
  have hone : readU16 packet 10 = 1 := by omega
  rw [show readU16 packet 6 = 0 by omega] at hframed
  rw [show readU16 packet 8 = 0 by omega] at hskipped
  obtain rfl := Option.some.inj hframed
  obtain rfl := Option.some.inj hskipped
  rw [hone, additionalRecords] at hadd
  split at hdown
  · cases hdown
  next frame hframe =>
  rw [hframe] at hadd
  dsimp only at hadd
  split_ifs at hdown with hopt
  rw [decide_eq_true_eq] at hdown
  have htype : frame.type = typeOpt := by
    by_contra htype
    exact hopt (Or.inr (Or.inl htype))
  have hver : frame.ttl / 2 ^ 24 % 256 ≠ 0 := by
    rw [hdown.2]
    decide
  rw [if_pos htype, readOpt, if_pos (Or.inr (Or.inr (Or.inl hver)))] at hadd
  cases hadd

end

/-- **An answer, a truncated response, or a refusal of EDNS.** Every packet is at most one of them, so none
is used as an answer and makes the client ask again. -/
theorem responses_exclusive (packet : List UInt8) (expectedId : Nat) (expectedName : Name)
    (expectedType : Nat) (referralCapacity : Option Nat) :
    let truncated := isTruncatedResponse packet expectedId expectedName expectedType = true
    let downgrade := isEdnsDowngradeResponse packet expectedId expectedName expectedType = true
    let used := (parseResponseAnswersEx packet expectedId expectedName expectedType
      referralCapacity).1.used = true
    ¬ (truncated ∧ downgrade) ∧ ¬ (truncated ∧ used) ∧ ¬ (downgrade ∧ used) := by
  refine ⟨?_, ?_, ?_⟩
  · rintro ⟨htruncated, hdown⟩
    exact truncated_flag htruncated (downgrade_flags hdown)
  · rintro ⟨htruncated, hused⟩
    exact truncated_flag htruncated (used_admitted hused).1
  rintro ⟨hdown, hused⟩
  obtain ⟨_, _, _, _, _, _, _, _, hadmitted⟩ := used_admitted hused
  exact hadmitted.not_downgrade hdown

end RinRuntime.Dns

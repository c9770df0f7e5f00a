/-
Dns.Order — the order of the answer records.

Responses that differ in the order of their answers are scanned with the same summaries, follow the same
CNAME chain, and agree on everything behind the answers, which is read alike in both packets.
-/
import RinRuntime.Dns.Scan

namespace RinRuntime.Dns
open Except

/-! ## §1. What follows the answers. -/

/-- Two packets with the same records from `position` to their common end. -/
structure SameRest (packet packet' : List UInt8) (position : Nat) (rest : List Record) : Prop where
  length : packet.length = packet'.length
  left : Holds packet position (encodeRecords rest)
  right : Holds packet' position (encodeRecords rest)
  last : position + (encodeRecords rest).length = packet.length

section
variable {packet packet' : List UInt8} {position : Nat} {rest : List Record}

theorem readFrame_at_end : readFrame packet packet.length packet.length = none := by
  unfold readFrame decodeName decodeLoop
  rw [if_neg nameCapacity_ne_zero, if_pos (Nat.le_refl _)]

/-- The next record of two packets with the same rest: none, or one after which the rest is the same. -/
theorem SameRest.next (h : SameRest packet packet' position rest) :
    (readFrame packet packet.length position = none ∧ readFrame packet' packet'.length position = none) ∨
    ∃ (r : Record) (name : Name) (more : List Record),
      readFrame packet packet.length position = some (r.frame name position) ∧
      readFrame packet' packet'.length position = some (r.frame name position) ∧
      Holds packet position r.encode ∧ Holds packet' position r.encode ∧
      SameRest packet packet' (position + r.encode.length) more := by
  cases rest with
  | nil =>
    have hend : position = packet.length := h.last
    left
    constructor
    · rw [hend]
      exact readFrame_at_end
    · rw [hend, h.length]
      exact readFrame_at_end
  | cons r more =>
    have hlen : (encodeRecords (r :: more)).length = r.encode.length + (encodeRecords more).length :=
      List.length_append
    have hlast := h.last
    have hsame := h.length
    obtain ⟨hleft, hmore⟩ := holds_append.mp h.left
    obtain ⟨hright, hmore'⟩ := holds_append.mp h.right
    rw [readFrame_record hleft (by omega), readFrame_record hright (by omega)]
    cases hname : present r.owner with
    | none => exact Or.inl ⟨rfl, rfl⟩
    | some name =>
      exact Or.inr ⟨r, name, more, rfl, rfl, hleft, hright, hsame, hmore, hmore', by omega⟩

theorem skipRecords_rest : ∀ {count position : Nat} {rest : List Record},
    SameRest packet packet' position rest →
    skipRecords packet count position = skipRecords packet' count position ∧
    ∀ position', skipRecords packet count position = some position' →
      ∃ rest', SameRest packet packet' position' rest'
  | 0, position, rest, h => ⟨rfl, fun position' heq => ⟨rest, Option.some.inj heq ▸ h⟩⟩
  | count + 1, position, rest, h => by
    unfold skipRecords
    rcases h.next with ⟨hleft, hright⟩ | ⟨r, name, more, hleft, hright, -, -, hmore⟩
    · rw [hleft, hright]
      exact ⟨rfl, fun _ heq => by cases heq⟩
    rw [hleft, hright]
    dsimp only
    split
    · exact ⟨rfl, fun _ heq => by cases heq⟩
    · exact skipRecords_rest hmore

/-- The options of an OPT record do not depend on where it stands. -/
theorem ednsOptionsFrom_holds {data : List UInt8} (h : Holds packet position data) :
    ∀ {remaining k : Nat} {options : EdnsOptions},
    ednsOptionsFrom packet (position + data.length) remaining (position + k) options
      = ednsOptionsFrom data data.length remaining k options := by
  obtain ⟨tail, htail⟩ := h
  have hbyte : ∀ k, k < data.length → byteAt packet (position + k) = byteAt data k := by
    intro k hk
    unfold byteAt
    rw [List.getD_eq_getElem?_getD, List.getD_eq_getElem?_getD, ← List.getElem?_drop, ← htail,
      List.getElem?_append_left hk]
  have hword : ∀ k, k + 2 ≤ data.length → readU16 packet (position + k) = readU16 data k := by
    intro k hk
    unfold readU16
    rw [hbyte k (by omega), Nat.add_assoc, hbyte (k + 1) (by omega)]
  have hslice : ∀ k length, k + length ≤ data.length →
      slice packet (position + k) length = slice data k length := by
    intro k length hk
    unfold slice
    rw [← List.drop_drop, ← htail, List.drop_append_of_le_length (by omega),
      List.take_append_of_le_length (by rw [List.length_drop]; omega)]
  intro remaining
  induction remaining with
  | zero =>
    intro k options
    unfold ednsOptionsFrom
    simp only [Nat.add_left_cancel_iff]
  | succ remaining ih =>
    intro k options
    unfold ednsOptionsFrom
    simp only [Nat.add_assoc, Nat.add_sub_add_left, Nat.add_le_add_iff_left, Nat.add_left_cancel_iff]
    split
    · rfl
    split
    · rfl
    rw [hword (k + 2) (by omega)]
    split
    · rfl
    rw [hword k (by omega), hslice (k + 4) _ (by omega)]
    cases ednsOption (readU16 data k) (slice data (k + 4) (readU16 data (k + 2))) options with
    | none => rfl
    | some options => exact ih

theorem readOpt_rest {r : Record} {name : Name} {edns : Option Edns}
    (hleft : Holds packet position r.encode) (hright : Holds packet' position r.encode) :
    readOpt packet (r.frame name position) edns = readOpt packet' (r.frame name position) edns := by
  have hend : (r.frame name position).dataEnd = r.dataPosition position + r.data.length := by
    show position + r.encode.length = _
    rw [length_encode]
    unfold Record.dataPosition
    omega
  have hoptions : ∀ p : List UInt8, Holds p position r.encode →
      ednsOptionsValid p (r.frame name position).dataPosition (r.frame name position).dataEnd
        = ednsOptionsValid r.data 0 r.data.length := by
    intro p hp
    rw [hend]
    exact ednsOptionsFrom_holds hp.data (k := 0)
  unfold readOpt
  rw [hoptions packet hleft, hoptions packet' hright]

theorem additionalRecords_rest : ∀ {count position : Nat} {rest : List Record} {edns : Option Edns},
    SameRest packet packet' position rest →
    additionalRecords packet count position edns = additionalRecords packet' count position edns
  | 0, _, _, _, _ => rfl
  | count + 1, position, rest, edns, h => by
    unfold additionalRecords
    rcases h.next with ⟨hleft, hright⟩ | ⟨r, name, more, hleft, hright, hholds, hholds', hmore⟩
    · rw [hleft, hright]
    rw [hleft, hright]
    dsimp only
    rw [readOpt_rest hholds hholds']
    have hend : (r.frame name position).dataEnd = position + r.encode.length := rfl
    rw [hend]
    split
    · cases readOpt packet' (r.frame name position) edns with
      | none => rfl
      | some found => exact additionalRecords_rest hmore
    · exact additionalRecords_rest hmore

end

/-! ## §2. The chain. -/

/-- How far the loop over the chain is, without the order of the addresses. -/
structure Progress where
  chain : CnameChain
  current : Name
  hops : Nat
  resultFound : Bool
  answers : Unordered

/-- The progress of the loop over the chain. -/
def Chase.progress (c : Chase) : Progress := ⟨c.chain, c.current, c.hops, c.resultFound, c.answers.unordered⟩

section
variable {packet packet' : List UInt8} {expectedType answerStart answerEnd : Nat}
  {answers answers' : List Record}

/-- A scan of the answer section. -/
theorem scanAnswers_summary (htype : expectedType = typeA ∨ expectedType = typeAaaa)
    (hplain : ∀ r ∈ answers, r.PlainTarget) (hholds : Holds packet answerStart (encodeRecords answers))
    (hend : answerStart + (encodeRecords answers).length = answerEnd) (hsize : answerEnd ≤ packet.length)
    (c : Chase) : (scanAnswers packet expectedType answerStart answerEnd answers.length c).map Scan.summary
      = takeAll expectedType c.progress.chain.minimumTtl c.progress.current answers
          (some ⟨none, false, c.progress.resultFound, c.progress.answers⟩) := by
  have hloop := @scanFrames_summary packet expectedType c.chain.minimumTtl answerEnd c.current htype answers
    answerStart ⟨none, false, c.resultFound, c.answers⟩ hplain hholds (Nat.le_of_eq hend) hsize
  have htake : takeAll expectedType c.progress.chain.minimumTtl c.progress.current answers
        (some ⟨none, false, c.progress.resultFound, c.progress.answers⟩)
      = takeAll expectedType c.chain.minimumTtl c.current answers
          (some (⟨none, false, c.resultFound, c.answers⟩ : Scan).summary) := rfl
  rw [htake]
  unfold scanAnswers
  cases hscan : scanFrames packet answerEnd expectedType c.chain.minimumTtl c.current answers.length
      answerStart ⟨none, false, c.resultFound, c.answers⟩ with
  | none =>
    rw [hscan] at hloop
    cases htaken : takeAll expectedType c.chain.minimumTtl c.current answers
        (some (⟨none, false, c.resultFound, c.answers⟩ : Scan).summary) with
    | none => rfl
    | some S =>
      rw [htaken] at hloop
      cases hloop
  | some found =>
    rw [hscan] at hloop
    cases htaken : takeAll expectedType c.chain.minimumTtl c.current answers
        (some (⟨none, false, c.resultFound, c.answers⟩ : Scan).summary) with
    | none =>
      rw [htaken] at hloop
      cases hloop
    | some S =>
      rw [htaken] at hloop
      obtain ⟨hS, hpos⟩ := Prod.mk.inj (Option.some.inj hloop)
      dsimp only at hS hpos ⊢
      rw [if_neg (by omega), Option.map_some, hS]

/-- The step to the target of a CNAME record depends on the summary only. -/
theorem followCname_progress {c c' : Chase} {s s' : Scan} (hc : c.progress = c'.progress)
    (hs : s.summary = s'.summary) (target : Name) (ttl : Nat) :
    (followCname c s target ttl).map Chase.progress = (followCname c' s' target ttl).map Chase.progress := by
  have hchain : c.chain = c'.chain := congrArg Progress.chain hc
  have hhops : c.hops = c'.hops := congrArg Progress.hops hc
  have hdata : s.dataSeen = s'.dataSeen := congrArg Summary.dataSeen hs
  have hfound : s.resultFound = s'.resultFound := congrArg Summary.resultFound hs
  have hanswers : s.answers.unordered = s'.answers.unordered := congrArg Summary.answers hs
  unfold followCname
  rw [hdata, hchain]
  split
  · rfl
  cases c'.chain.follow target with
  | error e => rfl
  | ok chain =>
    cases copyName nameCapacity target with
    | none => rfl
    | some current =>
      simp only [Except.map, Chase.progress, hhops, hfound, hanswers]

/-- Two results with the same image: the same error, or values with the same image. -/
theorem Except.map_eq_map {ε α β : Type} {f : α → β} {x y : Except ε α} (h : x.map f = y.map f) :
    (∃ e, x = .error e ∧ y = .error e) ∨ ∃ a b, x = .ok a ∧ y = .ok b ∧ f a = f b := by
  cases x with
  | error e =>
    cases y with
    | error e' => exact Or.inl ⟨e, rfl, by rw [error.inj h]⟩
    | ok b => cases h
  | ok a =>
    cases y with
    | error e' => cases h
    | ok b => exact Or.inr ⟨a, b, rfl, rfl, ok.inj h⟩

/-- **The loop over the chain** makes the same progress where its scans have the same summaries. -/
theorem chaseAnswers_progress {count count' : Nat} (hscan : ∀ c c' : Chase, c.progress = c'.progress →
      (scanAnswers packet expectedType answerStart answerEnd count c).map Scan.summary
        = (scanAnswers packet' expectedType answerStart answerEnd count' c').map Scan.summary) :
    ∀ {rounds : Nat} {c c' : Chase}, c.progress = c'.progress →
    (chaseAnswers packet expectedType answerStart answerEnd count rounds c).map Chase.progress
      = (chaseAnswers packet' expectedType answerStart answerEnd count' rounds c').map Chase.progress
  | 0, _, _, _ => rfl
  | rounds + 1, c, c', hc => by
    have hsame := hscan c c' hc
    unfold chaseAnswers
    cases hleft : scanAnswers packet expectedType answerStart answerEnd count c with
    | none =>
      cases hright : scanAnswers packet' expectedType answerStart answerEnd count' c' with
      | none => rfl
      | some s' =>
        rw [hleft, hright] at hsame
        cases hsame
    | some s =>
      cases hright : scanAnswers packet' expectedType answerStart answerEnd count' c' with
      | none =>
        rw [hleft, hright] at hsame
        cases hsame
      | some s' =>
        rw [hleft, hright] at hsame
        have hs : s.summary = s'.summary := Option.some.inj hsame
        have hcname : s.cname = s'.cname := congrArg Summary.cname hs
        dsimp only
        rw [hcname]
        cases s'.cname with
        | none =>
          have hchain : c.chain = c'.chain := congrArg Progress.chain hc
          have hcur : c.current = c'.current := congrArg Progress.current hc
          have hhops : c.hops = c'.hops := congrArg Progress.hops hc
          have hfound : s.resultFound = s'.resultFound := congrArg Summary.resultFound hs
          have hanswers : s.answers.unordered = s'.answers.unordered := congrArg Summary.answers hs
          simp only [Except.map, Chase.progress, hchain, hcur, hhops, hfound, hanswers]
        | some target =>
          obtain ⟨target, ttl⟩ := target
          dsimp only
          rcases Except.map_eq_map (followCname_progress hc hs target ttl) with
            ⟨e, hnext, hnext'⟩ | ⟨d, d', hnext, hnext', hd⟩
          · rw [hnext, hnext']
          · rw [hnext, hnext']
            exact chaseAnswers_progress hscan hd

end

/-! ## §3. Responses. -/

/-- What a call leaves in its outputs, without the order of the addresses. -/
structure Outcome where
  status : Status
  chain : CnameChain
  answers : Unordered
  referral : Name

/-- The outcome of a call. -/
def Output.outcome (o : Output) : Outcome := ⟨o.status, o.chain, o.answers.unordered, o.referral⟩

/-- A response: what stands before the answers, the answers, and the records of the other sections. -/
def packetOf (lead : List UInt8) (answers rest : List Record) : List UInt8 :=
  lead ++ (encodeRecords answers ++ encodeRecords rest)

/-- The conclusion depends on the progress only. -/
theorem conclude_outcome {c c' : Chase} (hc : c.progress = c'.progress) (rcode answerCount : Nat)
    (referralCapacity : Option Nat) : (conclude rcode answerCount referralCapacity c).map Output.outcome
      = (conclude rcode answerCount referralCapacity c').map Output.outcome := by
  have hchain : c.chain = c'.chain := congrArg Progress.chain hc
  have hcur : c.current = c'.current := congrArg Progress.current hc
  have hhops : c.hops = c'.hops := congrArg Progress.hops hc
  have hfound : c.resultFound = c'.resultFound := congrArg Progress.resultFound hc
  have hanswers : c.answers.unordered = c'.answers.unordered := congrArg Progress.answers hc
  have hout : ∀ status referral, (⟨status, c.chain, c.answers, referral⟩ : Output).outcome
      = (⟨status, c'.chain, c'.answers, referral⟩ : Output).outcome := by
    intro status referral
    simp only [Output.outcome, hchain, hanswers]
  unfold conclude
  dsimp only
  rw [hhops, hfound, hcur]
  split
  · split
    · rfl
    split
    · split
      · rfl
      · exact congrArg ok (hout _ _)
    · exact congrArg ok (hout _ _)
  split
  · exact congrArg ok (hout _ _)
  split
  · exact congrArg ok (hout _ _)
  split
  · rfl
  · exact congrArg ok (hout _ _)

theorem length_encodeRecords_perm {records records' : List Record} (hperm : records.Perm records') :
    (encodeRecords records).length = (encodeRecords records').length := by
  induction hperm with
  | nil => rfl
  | cons r _ ih =>
    show (r.encode ++ encodeRecords _).length = (r.encode ++ encodeRecords _).length
    rw [List.length_append, List.length_append, ih]
  | swap r r' rest =>
    show (r'.encode ++ (r.encode ++ encodeRecords rest)).length
      = (r.encode ++ (r'.encode ++ encodeRecords rest)).length
    simp only [List.length_append]
    omega
  | trans _ _ ih ih' => exact ih.trans ih'

section
variable {lead : List UInt8} {answers answers' rest : List Record} {expectedName : Name}
  {expectedType : Nat}

theorem length_packetOf_perm (hperm : answers.Perm answers') :
    (packetOf lead answers rest).length = (packetOf lead answers' rest).length := by
  unfold packetOf
  simp only [List.length_append, length_encodeRecords_perm hperm]

theorem take_packetOf : (packetOf lead answers rest).take lead.length = lead := List.take_left

theorem readU16_packetOf {k : Nat} (hk : k + 2 ≤ lead.length) :
    readU16 (packetOf lead answers rest) k = readU16 lead k := by
  refine readU16_congr ?_ hk
  rw [take_packetOf, List.take_length]

theorem holds_packetOf : Holds (packetOf lead answers rest) lead.length (encodeRecords answers) ∧
    Holds (packetOf lead answers rest) (lead.length + (encodeRecords answers).length) (encodeRecords rest) := by
  have h := holds_of_append (a := encodeRecords answers ++ encodeRecords rest) lead []
  rw [List.append_nil] at h
  exact holds_append.mp h

/-- **The sections of a response** with permuted answers. -/
theorem parseSections_outcome (htype : expectedType = typeA ∨ expectedType = typeAaaa)
    (hperm : answers.Perm answers') (hplain : ∀ r ∈ answers, r.PlainTarget)
    (hcnt : readU16 lead 6 = answers.length)
    (hq : readQuestion (packetOf lead answers rest) expectedName expectedType = some lead.length)
    (chain : CnameChain) (referralCapacity : Option Nat) :
    (parseSections (packetOf lead answers rest) expectedName expectedType chain referralCapacity).map
        Output.outcome
      = (parseSections (packetOf lead answers' rest) expectedName expectedType chain referralCapacity).map
          Output.outcome := by
  have hheader := readQuestion_position hq
  set packet := packetOf lead answers rest with hpkt
  set packet' := packetOf lead answers' rest with hpkt'
  have hlen : packet.length = packet'.length := length_packetOf_perm hperm
  have hread : ∀ k, k + 2 ≤ 12 → readU16 packet k = readU16 packet' k := fun k hk =>
    (readU16_packetOf (by omega)).trans (readU16_packetOf (by omega)).symm
  have hcnt' : readU16 packet' 6 = answers.length := (readU16_packetOf (by omega)).trans hcnt
  have hq' := readQuestion_congr hq hlen (take_packetOf.trans take_packetOf.symm)
  have hencoded := length_encodeRecords_perm hperm
  -- the answers and the rest, in both packets
  obtain ⟨hanswers, hrest⟩ : Holds packet _ _ ∧ Holds packet _ (encodeRecords rest) := holds_packetOf
  obtain ⟨hanswers', hrest'⟩ : Holds packet' _ _ ∧ Holds packet' _ (encodeRecords rest) := holds_packetOf
  have hsize : lead.length + (encodeRecords answers).length + (encodeRecords rest).length
      = packet.length := by
    rw [hpkt]
    unfold packetOf
    simp only [List.length_append]
    omega
  have hsame : SameRest packet packet' (lead.length + (encodeRecords answers).length) rest := by
    refine ⟨hlen, hrest, ?_, hsize⟩
    rw [hencoded]
    exact hrest'
  have hplain' : ∀ r ∈ answers', r.PlainTarget := fun r hr => hplain r (hperm.mem_iff.mpr hr)
  have hframed : answers.all Record.framed = answers'.all Record.framed := by
    rw [Bool.eq_iff_iff, List.all_eq_true, List.all_eq_true]
    exact ⟨fun h r hr => h r (hperm.mem_iff.mpr hr), fun h r hr => h r (hperm.mem_iff.mp hr)⟩
  unfold parseSections
  rw [hq, hq', hread 2 (by omega), hread 6 (by omega), hread 8 (by omega),
    hread 10 (by omega), hcnt']
  cases copyName nameCapacity expectedName with
  | none => rfl
  | some current =>
    dsimp only
    rw [skipRecords_answers hanswers (by omega), hperm.length_eq,
      skipRecords_answers hanswers' (by omega), hframed, ← hencoded]
    by_cases hok : answers'.all Record.framed = true
    · rw [if_pos hok]
      dsimp only
      have hscan : ∀ c c' : Chase, c.progress = c'.progress →
          (scanAnswers packet expectedType lead.length (lead.length + (encodeRecords answers).length)
              answers'.length c).map Scan.summary
            = (scanAnswers packet' expectedType lead.length
                (lead.length + (encodeRecords answers).length) answers'.length c').map Scan.summary := by
        intro c c' hc
        have hleft := scanAnswers_summary htype hplain hanswers rfl (by omega) c
        have hright := scanAnswers_summary htype hplain' hanswers' rfl (by omega) c'
        rw [hperm.length_eq] at hleft
        rw [← hencoded] at hright
        rw [hleft, hright, hc]
        exact takeAll_perm hperm _
      have hstart : (⟨chain, current, 0, false, AnswerSet.cleared⟩ : Chase).progress
          = (⟨chain, current, 0, false, AnswerSet.cleared⟩ : Chase).progress := rfl
      have hchase := @chaseAnswers_progress _ _ _ _ _ _ _ hscan (maxCnameHops + 1) _ _ hstart
      obtain ⟨hskip, hmore⟩ := @skipRecords_rest packet packet' (readU16 packet' 8) _ _ hsame
      rcases Except.map_eq_map hchase with ⟨e, hleft, hright⟩ | ⟨c, c', hleft, hright, hc⟩
      · rw [hleft, hright]
      rw [hleft, hright, ← hskip]
      cases hpos : skipRecords packet (readU16 packet' 8)
          (lead.length + (encodeRecords answers).length) with
      | none => rfl
      | some position =>
        obtain ⟨more, hadd⟩ := hmore position hpos
        dsimp only
        rw [additionalRecords_rest hadd]
        cases additionalRecords packet' (readU16 packet' 10) position none with
        | none => rfl
        | some found =>
          obtain ⟨final, edns⟩ := found
          dsimp only
          rw [hlen]
          split
          · rfl
          refine conclude_outcome ?_ _ _ _
          show ({ c.progress with answers := { c.progress.answers with
              primary := { c.progress.answers.primary with edns := edns } } } : Progress) = _
          rw [hc]
          rfl
    · rw [if_neg hok]

theorem headerAdmitted_congr {packet packet' : List UInt8} (hlen : packet.length = packet'.length)
    (hread : ∀ k, k + 2 ≤ 12 → readU16 packet k = readU16 packet' k) (expectedId : Nat)
    (expectedName : Name) (expectedType : Nat) (chain : CnameChain) :
    headerAdmitted packet expectedId expectedName expectedType chain
      = headerAdmitted packet' expectedId expectedName expectedType chain := by
  unfold headerAdmitted flagsAdmitted
  simp only [hlen, hread 0 (by omega), hread 2 (by omega), hread 4 (by omega)]

/-- **The order of the answer records does not matter**: a response to an A or AAAA query whose owner and
CNAME target names are written without compression, and the same response with its answers in another
order, have the same status, addresses, TTL, chain and referral name, whether they are accepted or not. -/
theorem parse_answers_perm (expectedId : Nat) (chain : CnameChain) (referralCapacity : Option Nat)
    (htype : expectedType = typeA ∨ expectedType = typeAaaa) (hperm : answers.Perm answers')
    (hplain : ∀ r ∈ answers, r.PlainTarget)
    (hcnt : readU16 lead 6 = answers.length)
    (hq : readQuestion (packetOf lead answers rest) expectedName expectedType = some lead.length) :
    let output := parseResponseAnswersChainEx (packetOf lead answers rest) expectedId expectedName
      expectedType chain referralCapacity
    let output' := parseResponseAnswersChainEx (packetOf lead answers' rest) expectedId expectedName
      expectedType chain referralCapacity
    output'.status = output.status ∧ output'.answers.addresses.Perm output.answers.addresses ∧
      output'.answers.addressCount = output.answers.addressCount ∧
      output'.answers.primary.ttl = output.answers.primary.ttl ∧ output'.chain = output.chain ∧
      output'.referral = output.referral := by
  have hheader := readQuestion_position hq
  have hsections := parseSections_outcome htype hperm hplain hcnt hq chain referralCapacity
  have hlead : readU16 (packetOf lead answers rest) 6 = answers.length := (readU16_packetOf (by omega)).trans hcnt
  have hread : ∀ k, k + 2 ≤ 12 → readU16 (packetOf lead answers rest) k = readU16 (packetOf lead answers' rest) k :=
    fun k hk => (readU16_packetOf (by omega)).trans (readU16_packetOf (by omega)).symm
  intro output output'
  set packet := packetOf lead answers rest
  set packet' := packetOf lead answers' rest
  have hlen : packet.length = packet'.length := length_packetOf_perm hperm
  have hresponse :
      (parseResponse packet expectedId expectedName expectedType chain referralCapacity).map Output.outcome
        = (parseResponse packet' expectedId expectedName expectedType chain referralCapacity).map
          Output.outcome := by
    unfold parseResponse
    dsimp only
    rw [headerAdmitted_congr hlen hread, hread 2 (by omega), hread 6 (by omega), hread 8 (by omega),
      hread 10 (by omega)]
    split
    · rfl
    split
    · -- a NOTIMP response has no answers, so there is nothing to permute
      by_cases hnil : answers = []
      · subst hnil
        obtain rfl := List.nil_perm.mp hperm
        rfl
      have hsome : readU16 packet' 6 ≠ 0 := by
        rw [← hread 6 (by omega), hlead]
        exact fun hzero => hnil (List.length_eq_zero_iff.mp hzero)
      have hnot : ∀ p : List UInt8, readU16 p 6 ≠ 0 →
          isNotimpResponse p expectedId expectedName expectedType = false := by
        intro p hp
        unfold isNotimpResponse
        split
        · rfl
        · rw [if_pos (by simp [hp])]
      rw [hnot _ hsome, hnot _ (by rw [hread 6 (by omega)]; exact hsome)]
    split
    · rfl
    split
    · rfl
    · exact hsections
  have hout : output.outcome = output'.outcome := by
    unfold output output' parseResponseAnswersChainEx
    rcases Except.map_eq_map hresponse with ⟨e, hleft, hright⟩ | ⟨o, o', hleft, hright, ho⟩
    · rw [hleft, hright]
    · rw [hleft, hright]
      exact ho
  have hanswers : output.answers.unordered = output'.answers.unordered := congrArg Outcome.answers hout
  have haddrs : (output.answers.addresses : Multiset (List UInt8)) = output'.answers.addresses :=
    congrArg Unordered.addresses hanswers
  have hprimary := congrArg Unordered.primary hanswers
  refine ⟨(congrArg Outcome.status hout).symm, (Multiset.coe_eq_coe.mp haddrs).symm,
    (congrArg Unordered.addressCount hanswers).symm, ?_, (congrArg Outcome.chain hout).symm,
    (congrArg Outcome.referral hout).symm⟩
  exact (congrArg Answer.ttl hprimary).symm

end

/-! A response with an alias: `a` is an alias of `b`, which has two addresses. -/

/-- A label of one letter. -/
def letter (c : UInt8) : Label := ⟨[c], by simp, by simp⟩

/-- The header, and the question for the addresses of `a`. -/
def aliasLead : List UInt8 := [0, 7, 0x81, 0x80, 0, 1, 0, 3, 0, 0, 0, 0, 1, 0x61, 0, 0, 1, 0, 1]

/-- The answers of the response, in the order of the chain. -/
def aliasAnswers : List Record :=
  [⟨[letter 0x61], 5, 1, 300, [1, 0x62, 0], by decide⟩,
   ⟨[letter 0x62], 1, 1, 60, [10, 0, 0, 1], by decide⟩,
   ⟨[letter 0x62], 1, 1, 30, [10, 0, 0, 2], by decide⟩]

/-- The chain of a query for `a`. -/
def aliasChain : CnameChain := ⟨0, 2 ^ 32 - 1, (Vector.replicate 9 []).setIfInBounds 0 [0x61]⟩

/-- The response is accepted, and its answers may be reversed. -/
theorem parse_alias_reversed :
    (parseResponseAnswersChainEx (packetOf aliasLead aliasAnswers []) 7 [0x61] typeA aliasChain none).status
      = .success ∧
    (parseResponseAnswersChainEx (packetOf aliasLead aliasAnswers.reverse []) 7 [0x61] typeA aliasChain
      none).answers.addresses.Perm
    (parseResponseAnswersChainEx (packetOf aliasLead aliasAnswers []) 7 [0x61] typeA aliasChain
      none).answers.addresses := by
  refine ⟨by decide +kernel, ?_⟩
  have hplain : ∀ r ∈ aliasAnswers, r.PlainTarget := by
    intro r hr hcname
    have hfst : r = ⟨[letter 0x61], 5, 1, 300, [1, 0x62, 0], by decide⟩ := by
      simp only [aliasAnswers, List.mem_cons, List.not_mem_nil, or_false] at hr
      rcases hr with rfl | rfl | rfl
      · rfl
      · exact absurd hcname (by decide)
      · exact absurd hcname (by decide)
    rw [hfst]
    exact ⟨[letter 0x62], rfl⟩
  exact (parse_answers_perm 7 aliasChain none (Or.inl rfl) (List.reverse_perm aliasAnswers).symm hplain
    (by decide) (by decide +kernel)).2.1

end RinRuntime.Dns

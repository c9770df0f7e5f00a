/-
Dns.Scan — scans of the answer section, whatever the order of its records.

A scan is summarised by what does not depend on that order: which CNAME record was seen, how many addresses
there are and which, and the least TTL. Two records change the summary alike in either order, so records
may be permuted. The primary address, the first one on the wire, is left out.
-/
import RinRuntime.Dns.Decode
import Mathlib.Data.Multiset.Basic

namespace RinRuntime.Dns
open List Option

/-! ## §1. Summaries of a scan. -/

/-- An answer set without the order of its addresses. -/
structure Unordered where
  primary : Answer
  addressCount : Nat
  addresses : Multiset (List UInt8)

/-- Forget the order of the addresses, and which of them is the primary one. -/
def AnswerSet.unordered (a : AnswerSet) : Unordered :=
  ⟨{ a.primary with address := [] }, a.addressCount, a.addresses⟩

/-- Add an address; `found` tells whether it is not the first. -/
def Unordered.add (a : Unordered) (expectedType : Nat) (found : Bool) (bytes : List UInt8) (ttl : Nat) :
    Unordered where
  primary := if found = true then { a.primary with ttl := min ttl a.primary.ttl }
    else { a.primary with type := expectedType, ttl := ttl }
  addressCount := a.addressCount + 1
  addresses := bytes ::ₘ a.addresses

/-- A scan without the order of the records. -/
structure Summary where
  cname : Option (Name × Nat)
  dataSeen : Bool
  resultFound : Bool
  answers : Unordered

/-- The summary of a scan. -/
def Scan.summary (s : Scan) : Summary := ⟨s.cname, s.dataSeen, s.resultFound, s.answers.unordered⟩

/-- What a record says to the scan for one name. -/
inductive Reading where
  | ignored
  | rejected
  | cname (target : Name) (ttl : Nat)
  | address (bytes : List UInt8) (ttl : Nat)

/-- The step of a scan on summaries. -/
def Summary.take (S : Summary) (expectedType : Nat) : Reading → Option Summary
  | .ignored => some S
  | .rejected => none
  | .cname target ttl =>
      if S.cname.isSome ∨ S.dataSeen = true then none else some { S with cname := some (target, ttl) }
  | .address bytes ttl =>
      if S.cname.isSome ∨ maxResultAddresses ≤ S.answers.addressCount then none
      else some { S with
        dataSeen := true
        resultFound := true
        answers := S.answers.add expectedType S.resultFound bytes ttl }

theorem Unordered.add_comm (a : Unordered) (expectedType : Nat) (found : Bool) (x y : List UInt8)
    (t u : Nat) : (a.add expectedType found x t).add expectedType true y u
      = (a.add expectedType found y u).add expectedType true x t := by
  unfold Unordered.add
  have haddrs : y ::ₘ x ::ₘ a.addresses = x ::ₘ y ::ₘ a.addresses := Multiset.cons_swap y x _
  cases found with
  | false => simp only [Bool.false_eq_true, if_false, if_true, haddrs, Nat.min_comm u t]
  | true => simp only [if_true, haddrs, Nat.min_left_comm u t]

/-- Behind a CNAME record neither a CNAME record nor an address is taken. -/
theorem Summary.take_of_cname {S : Summary} (expectedType : Nat) (h : S.cname.isSome = true) :
    (∀ target ttl, S.take expectedType (.cname target ttl) = none) ∧
      ∀ bytes ttl, S.take expectedType (.address bytes ttl) = none :=
  ⟨fun _ _ => if_pos (Or.inl h), fun _ _ => if_pos (Or.inl h)⟩

theorem Summary.take_cname {S S' : Summary} {expectedType ttl : Nat} {target : Name}
    (h : S.take expectedType (.cname target ttl) = some S') : S'.cname.isSome = true := by
  unfold Summary.take at h
  dsimp only at h
  split at h
  · cases h
  · rw [← some.inj h]
    rfl

theorem Summary.take_address {S S' : Summary} {expectedType ttl : Nat} {bytes : List UInt8}
    (h : S.take expectedType (.address bytes ttl) = some S') : S'.dataSeen = true := by
  unfold Summary.take at h
  dsimp only at h
  split at h
  · cases h
  · rw [← some.inj h]

/-- A CNAME record and an address are not taken together, in either order. -/
theorem Summary.take_clash (S : Summary) (expectedType : Nat) (target : Name) (bytes : List UInt8)
    (t u : Nat) :
    (S.take expectedType (.cname target t)).bind (·.take expectedType (.address bytes u)) = none ∧
    (S.take expectedType (.address bytes u)).bind (·.take expectedType (.cname target t)) = none := by
  constructor
  · rw [bind_eq_none_iff]
    intro S' hS'
    exact (take_of_cname expectedType (take_cname hS')).2 bytes u
  rw [bind_eq_none_iff]
  intro S' hS'
  exact if_pos (Or.inr (take_address hS'))

/-- **Two records change a summary in the same way in either order.** -/
theorem Summary.take_comm (S : Summary) (expectedType : Nat) (a b : Reading) :
    (S.take expectedType a).bind (·.take expectedType b)
      = (S.take expectedType b).bind (·.take expectedType a) := by
  cases a with
  | ignored => exact (bind_fun_some (S.take expectedType b)).symm
  | rejected => exact (bind_fun_none (S.take expectedType b)).symm
  | cname target ttl =>
    cases b with
    | ignored => exact bind_fun_some (S.take expectedType (.cname target ttl))
    | rejected => exact bind_fun_none (S.take expectedType (.cname target ttl))
    | cname target' ttl' =>
      have hnone : ∀ t u t' u', (S.take expectedType (.cname t u)).bind
          (·.take expectedType (.cname t' u')) = none := by
        intro t u t' u'
        rw [bind_eq_none_iff]
        intro S' hS'
        exact (take_of_cname expectedType (take_cname hS')).1 t' u'
      rw [hnone, hnone]
    | address bytes ttl' =>
      obtain ⟨hfst, hsec⟩ := S.take_clash expectedType target bytes ttl ttl'
      rw [hfst, hsec]
  | address bytes ttl =>
    cases b with
    | ignored => exact bind_fun_some (S.take expectedType (.address bytes ttl))
    | rejected => exact bind_fun_none (S.take expectedType (.address bytes ttl))
    | cname target ttl' =>
      obtain ⟨hfst, hsec⟩ := S.take_clash expectedType target bytes ttl' ttl
      rw [hfst, hsec]
    | address bytes' ttl' =>
      unfold Summary.take
      dsimp only
      split
      · rfl
      simp only [bind_some]
      rw [Unordered.add_comm]
      rfl

/-! ## §2. Readings of records. -/

/-- The length of an address of the expected type. -/
def addressWidth (expectedType : Nat) : Nat := if expectedType = typeA then 4 else 16

/-- The target of a CNAME record that is written without compression. -/
def Record.targetName (r : Record) : Option Name :=
  match decodeName nameCapacity r.data r.data.length 0 with
  | none => none
  | some (name, next) =>
      if next ≠ r.data.length ∨ name = [] then none else copyName nameCapacity name

/-- What a record says to the scan for `current`. -/
def Record.reading (expectedType minimumTtl : Nat) (current : Name) (r : Record) : Reading :=
  match present r.owner with
  | none => .rejected
  | some name =>
      if namesEqual name current = false then .ignored
      else if (r.type.toNat = typeCname ∨ r.type.toNat = expectedType) ∧ r.cls.toNat ≠ classIn then .rejected
      else if r.type.toNat = typeCname then
        match r.targetName with
        | none => .rejected
        | some target => .cname target r.ttl.toNat
      else if r.type.toNat = expectedType then
        if r.data.length ≠ addressWidth expectedType then .rejected
        else .address r.data (min r.ttl.toNat minimumTtl)
      else .ignored

/-- A record whose CNAME target, if it has one, is written without compression. -/
def Record.PlainTarget (r : Record) : Prop :=
  r.type.toNat = typeCname → ∃ target : List Label, r.data = encodeLabels target

section
variable {packet : List UInt8} {position : Nat} {r : Record} {name : Name}

/-- The name in the data of a CNAME record does not depend on where the record stands. -/
theorem dataName_record (hholds : Holds packet position r.encode)
    (hsize : position + r.encode.length ≤ packet.length) {target : List Label}
    (htgt : r.data = encodeLabels target) :
    (dataName packet (r.frame name position)).bind (copyName nameCapacity) = r.targetName := by
  have hdata : Holds packet (r.dataPosition position) (encodeLabels target) := by
    rw [← htgt]
    exact hholds.data
  have hself : Holds r.data 0 (encodeLabels target) := ⟨[], by rw [append_nil, htgt]; rfl⟩
  have hend : r.dataPosition position + (encodeLabels target).length = position + r.encode.length := by
    rw [length_encode, ← htgt]
    unfold Record.dataPosition
    omega
  have hlen : 0 + (encodeLabels target).length = r.data.length := by rw [htgt, Nat.zero_add]
  unfold dataName Record.targetName Record.frame
  rw [decodeName_labels nameCapacity_ne_zero hdata (by omega),
    decodeName_labels nameCapacity_ne_zero hself (by omega), hend, hlen]
  cases presentFrom nameCapacity target 1 [] with
  | none => rfl
  | some name =>
    by_cases hnil : name = [] <;> simp [hnil]

theorem publish_summary (expectedType ttl : Nat) (s : Scan) (bytes : List UInt8) :
    (publish expectedType ttl { s with
      dataSeen := true
      answers := {
        primary := if s.resultFound then s.answers.primary else { s.answers.primary with address := bytes }
        addressCount := s.answers.addressCount + 1
        addresses := s.answers.addresses ++ [bytes] } }).summary
      = { s.summary with
          dataSeen := true
          resultFound := true
          answers := s.summary.answers.add expectedType s.summary.resultFound bytes ttl } := by
  have haddrs : ((s.answers.addresses ++ [bytes] : List (List UInt8)) : Multiset (List UInt8))
      = bytes ::ₘ (s.answers.addresses : Multiset (List UInt8)) := by
    rw [Multiset.cons_coe, Multiset.coe_eq_coe]
    exact perm_append_singleton _ _
  unfold publish Scan.summary AnswerSet.unordered Unordered.add
  cases hfound : s.resultFound with
  | false => simp [haddrs]
  | true =>
    by_cases hless : ttl < s.answers.primary.ttl
    · simp [haddrs, hless, Nat.min_eq_left (Nat.le_of_lt hless)]
    · simp [haddrs, hless, Nat.min_eq_right (Nat.le_of_not_lt hless)]

/-- The addresses of the expected type, on summaries. -/
theorem scanData_summary {expectedType minimumTtl : Nat} {s : Scan}
    (htype : expectedType = typeA ∨ expectedType = typeAaaa)
    (hholds : Holds packet position r.encode) (hcname : s.cname = none) :
    (scanData packet expectedType minimumTtl (r.frame name position) s).map Scan.summary
      = if r.data.length ≠ addressWidth expectedType then none
        else s.summary.take expectedType (.address r.data (min r.ttl.toNat minimumTtl)) := by
  have hlen : (r.frame name position).dataEnd - (r.frame name position).dataPosition = r.data.length := by
    show position + r.encode.length - r.dataPosition position = r.data.length
    rw [length_encode]
    unfold Record.dataPosition
    omega
  have hstore : scanData packet expectedType minimumTtl (r.frame name position) s
      = (storeAddress packet (addressWidth expectedType) (r.frame name position)
          { s with dataSeen := true }).map (publish expectedType (min r.ttl.toNat minimumTtl)) := by
    rcases htype with rfl | rfl
    · rfl
    · rfl
  rw [hstore]
  unfold storeAddress
  rw [hlen]
  by_cases hwidth : r.data.length = addressWidth expectedType
  · rw [if_neg (not_not.mpr hwidth)]
    have hbytes : slice packet (r.frame name position).dataPosition (addressWidth expectedType) = r.data := by
      rw [← hwidth]
      exact hholds.data.slice
    rw [hbytes]
    unfold Summary.take
    dsimp only
    by_cases hfull : maxResultAddresses ≤ s.answers.addressCount
    · have hfull' : maxResultAddresses ≤ s.summary.answers.addressCount := hfull
      rw [if_pos (Or.inr hfull), if_pos (Or.inr hfull')]
      rfl
    have hroom : ¬ (s.summary.cname.isSome ∨ maxResultAddresses ≤ s.summary.answers.addressCount) := by
      rintro (hsome | hle)
      · rw [show s.summary.cname = none from hcname] at hsome
        cases hsome
      · exact hfull hle
    rw [if_neg (by simp [hwidth, hfull]), if_neg hroom]
    exact congrArg some (publish_summary expectedType _ s r.data)
  · rw [if_pos (Or.inl hwidth), if_pos hwidth]
    rfl

/-- **A record in a scan, on summaries.** -/
theorem scanFrame_summary {expectedType minimumTtl : Nat} {current : Name} {s : Scan}
    (htype : expectedType = typeA ∨ expectedType = typeAaaa)
    (hholds : Holds packet position r.encode) (hsize : position + r.encode.length ≤ packet.length)
    (hplain : r.PlainTarget) (hname : present r.owner = some name) :
    (scanFrame packet expectedType minimumTtl current (r.frame name position) s).map Scan.summary
      = s.summary.take expectedType (r.reading expectedType minimumTtl current) := by
  have hframe : (r.frame name position).name = name ∧ (r.frame name position).type = r.type.toNat ∧
      (r.frame name position).cls = r.cls.toNat ∧ (r.frame name position).ttl = r.ttl.toNat :=
    ⟨rfl, rfl, rfl, rfl⟩
  obtain ⟨hown, hkind, hcls, httl⟩ := hframe
  unfold scanFrame Record.reading
  rw [hname, hown, hkind, hcls, httl]
  dsimp only
  split
  · rfl
  split
  · rfl
  split
  · next hcname =>
    obtain ⟨target, htgt⟩ := hplain hcname
    have hdata : (dataName packet (r.frame name position)).bind (copyName nameCapacity) = r.targetName :=
      dataName_record hholds hsize htgt
    rw [← hdata]
    split
    · next hseen =>
      -- the scan fails before it looks at the target
      have hseen' : s.summary.cname.isSome ∨ s.summary.dataSeen = true := hseen
      cases hbind : (dataName packet (r.frame name position)).bind (copyName nameCapacity) with
      | none => rfl
      | some target => exact (if_pos hseen').symm
    next hseen =>
    have hseen' : ¬ (s.summary.cname.isSome ∨ s.summary.dataSeen = true) := hseen
    cases hfound : dataName packet (r.frame name position) with
    | none => rfl
    | some found =>
      rw [bind_some]
      cases hcopy : copyName nameCapacity found with
      | none =>
        dsimp only
        rw [hcopy]
        rfl
      | some target =>
        dsimp only
        rw [hcopy]
        exact (if_neg hseen').symm
  split
  · by_cases hseen : s.cname.isSome = true
    · rw [if_pos hseen]
      have htaken := (Summary.take_of_cname (S := s.summary) expectedType hseen).2
      split
      · rfl
      · exact (htaken _ _).symm
    have hnone : s.cname = none := by simpa using hseen
    rw [if_neg hseen, scanData_summary htype hholds hnone]
    split
    · rfl
    · rfl
  · rfl

end

/-! ## §3. Scans of permuted records. -/

/-- The scan of a list of records, on summaries. -/
def takeAll (expectedType minimumTtl : Nat) (current : Name) (records : List Record) (S : Option Summary) :
    Option Summary :=
  records.foldl (fun S r => S.bind (·.take expectedType (r.reading expectedType minimumTtl current))) S

theorem takeAll_none (expectedType minimumTtl : Nat) (current : Name) (records : List Record) :
    takeAll expectedType minimumTtl current records none = none := by
  induction records with
  | nil => rfl
  | cons r rest ih => exact ih

/-- **Permuted records have the same summary.** -/
theorem takeAll_perm {expectedType minimumTtl : Nat} {current : Name} {records records' : List Record}
    (hperm : records.Perm records') (S : Option Summary) : takeAll expectedType minimumTtl current records S
      = takeAll expectedType minimumTtl current records' S := by
  apply hperm.foldl_eq'
  intro x _ y _ S
  cases S with
  | none => rfl
  | some S => exact S.take_comm expectedType _ _

section
variable {packet : List UInt8} {expectedType minimumTtl answerEnd : Nat} {current : Name}

/-- The loop of a scan over records without compression. -/
theorem scanFrames_summary (htype : expectedType = typeA ∨ expectedType = typeAaaa) {records : List Record} :
    ∀ {position : Nat} {s : Scan}, (∀ r ∈ records, r.PlainTarget) →
    Holds packet position (encodeRecords records) →
    position + (encodeRecords records).length ≤ answerEnd → answerEnd ≤ packet.length →
    (scanFrames packet answerEnd expectedType minimumTtl current records.length position s).map
        (fun found => (found.1.summary, found.2))
      = (takeAll expectedType minimumTtl current records (some s.summary)).map fun S =>
          (S, position + (encodeRecords records).length) := by
  induction records with
  | nil =>
    intro position s _ _ _ _
    rfl
  | cons r rest ih =>
    intro position s hplain hholds hend hsize
    have hlen : (encodeRecords (r :: rest)).length = r.encode.length + (encodeRecords rest).length :=
      length_append
    obtain ⟨hrec, hrest⟩ := holds_append.mp hholds
    rw [hlen] at hend ⊢
    have hstep : takeAll expectedType minimumTtl current (r :: rest) (some s.summary)
        = takeAll expectedType minimumTtl current rest
            (s.summary.take expectedType (r.reading expectedType minimumTtl current)) := rfl
    show (scanFrames packet answerEnd expectedType minimumTtl current (rest.length + 1) position s).map _ = _
    unfold scanFrames
    rw [readFrame_record hrec (by omega), hstep]
    cases hname : present r.owner with
    | none =>
      have hreading : r.reading expectedType minimumTtl current = .rejected := by
        unfold Record.reading
        rw [hname]
      have hrej : s.summary.take expectedType .rejected = none := rfl
      rw [hreading, hrej, takeAll_none]
      rfl
    | some name =>
      dsimp only [map_some]
      rw [← scanFrame_summary (s := s) htype hrec (by omega) (hplain r mem_cons_self) hname]
      cases hscan : scanFrame packet expectedType minimumTtl current (r.frame name position) s with
      | none =>
        simp only [map_none, takeAll_none]
      | some s' =>
        have hloop := @ih (position + r.encode.length) s'
          (fun r' h' => hplain r' (mem_cons_of_mem _ h')) hrest (by omega) hsize
        rw [Nat.add_assoc] at hloop
        exact hloop

/-- A record that the framing of the answers accepts. -/
def Record.framed (r : Record) : Bool := (present r.owner).isSome && decide (r.type.toNat ≠ typeOpt)

/-- The framing loop over records without compression. -/
theorem skipRecords_answers {records : List Record} : ∀ {position : Nat},
    Holds packet position (encodeRecords records) →
    position + (encodeRecords records).length ≤ packet.length → skipRecords packet records.length position
      = if records.all Record.framed = true then some (position + (encodeRecords records).length) else none := by
  induction records with
  | nil =>
    intro position _ _
    rfl
  | cons r rest ih =>
    intro position hholds hsize
    have hlen : (encodeRecords (r :: rest)).length = r.encode.length + (encodeRecords rest).length :=
      length_append
    obtain ⟨hrec, hrest⟩ := holds_append.mp hholds
    rw [hlen] at hsize ⊢
    show skipRecords packet (rest.length + 1) position = _
    unfold skipRecords
    rw [readFrame_record hrec (by omega), all_cons, ← Nat.add_assoc]
    have hloop := @ih (position + r.encode.length) hrest (by omega)
    unfold Record.framed at hloop ⊢
    cases hname : present r.owner with
    | none => simp
    | some name =>
      by_cases hopt : r.type.toNat = typeOpt
      · have hkind : (r.frame name position).type = typeOpt := hopt
        simp [hopt, hkind]
      have hkind : (r.frame name position).type ≠ typeOpt := hopt
      have hend : (r.frame name position).dataEnd = position + r.encode.length := rfl
      simp only [map_some, if_neg hkind, hend, hloop, isSome_some, Bool.true_and,
        decide_not, hopt, decide_false, Bool.not_false]

end
end RinRuntime.Dns

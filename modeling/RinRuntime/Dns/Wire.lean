/-
Dns.Wire — parsing one DNS response.

`rin_dns_wire_parse_response_answers_chain_ex` frames the answer section once and scans it again for every
name of the CNAME chain, until a scan meets no CNAME record. Names are decoded from the packet, where
compression pointers lead backwards. A packet is its list of bytes, a C string the list of its characters,
and an array of 256 characters without a terminator a string of length 256.
-/
import Mathlib.Algebra.Group.Nat.Defs
import Mathlib.Data.List.Basic

namespace RinRuntime.Dns

/-! ## §1. Names. -/

/-- A string of characters. -/
abbrev Name := List UInt8

/-- `RIN_DNS_WIRE_MAX_NAME_SIZE`. -/
def maxNameSize : Nat := 255

/-- `sizeof` of the name buffers. -/
def nameCapacity : Nat := maxNameSize + 1

/-- `RIN_DNS_WIRE_MAX_POINTERS`. -/
def maxPointers : Nat := 32

/-- `rin_dns_wire_fold_ascii`. -/
def foldAscii (character : UInt8) : UInt8 :=
  if 0x41 ≤ character ∧ character ≤ 0x5a then character + 0x20 else character

/-- A character of a name, with the terminator in place of a dot at the end. -/
def nameCharacter (name : Name) (index : Nat) : UInt8 :=
  if index < maxNameSize ∧ name.getD index 0 = 0x2e ∧ name.getD (index + 1) 0 = 0 then 0
  else name.getD index 0

/-- The loop of `rin_dns_wire_names_equal`. -/
def namesEqualFrom (left right : Name) : (remaining index : Nat) → Bool
  | 0, _ => false
  | remaining + 1, index =>
      if foldAscii (nameCharacter left index) ≠ foldAscii (nameCharacter right index) then false
      else if nameCharacter left index = 0 then true
      else namesEqualFrom left right remaining (index + 1)

/-- `rin_dns_wire_names_equal`. -/
def namesEqual (left right : Name) : Bool := namesEqualFrom left right (maxNameSize + 1) 0

/-- `rin_dns_wire_copy_name`. -/
def copyName (capacity : Nat) (source : Name) : Option Name :=
  if source.length < capacity then some source else none

/-! ## §2. Bytes of a packet. -/

/-- A byte of a packet. -/
def byteAt (packet : List UInt8) (position : Nat) : UInt8 := packet.getD position 0

/-- `rin_dns_wire_read_u16`. -/
def readU16 (packet : List UInt8) (position : Nat) : Nat :=
  (byteAt packet position).toNat * 256 + (byteAt packet (position + 1)).toNat

/-- `rin_dns_wire_read_u32`. -/
def readU32 (packet : List UInt8) (position : Nat) : Nat :=
  readU16 packet position * 65536 + readU16 packet (position + 2)

/-- `length` bytes of a packet. -/
def slice (packet : List UInt8) (position length : Nat) : List UInt8 := (packet.drop position).take length

/-! ## §3. Decoding names. -/

/-- The variables of `rin_dns_wire_decode_name`; `final` is `final_offset` once it has jumped. -/
structure Decoding where
  position : Nat
  output : Name
  expanded : Nat
  final : Option Nat
  pointers : Nat

/-- A character that has no place in a presentation name. -/
def badCharacter (character : UInt8) : Bool :=
  decide (character < 0x21 ∨ 0x7e < character ∨ character = 0x2e ∨ character = 0x5c)

/-- Append a label to the output, behind a dot unless it is the first. -/
def appendLabel (capacity : Nat) (output label : Name) : Option Name :=
  if output ≠ [] ∧ capacity ≤ output.length + 1 then none
  else
    let output := if output = [] then [] else output ++ [0x2e]
    if capacity - output.length ≤ label.length ∨ label.any badCharacter = true then none
    else some (output ++ label)

/-- The loop of `rin_dns_wire_decode_name`. A round takes a label, which adds to the expanded size, or a
pointer; both are bounded, so `maxNameSize + maxPointers + 1` rounds are enough. -/
def decodeLoop (capacity : Nat) (packet : List UInt8) (size : Nat) :
    (rounds : Nat) → Decoding → Option (Name × Nat)
  | 0, _ => none
  | rounds + 1, s =>
      if size ≤ s.position then none
      else
        let length := byteAt packet s.position
        if length = 0 then some (s.output, s.final.getD (s.position + 1))
        else if length &&& 0xc0 = 0xc0 then
          if size ≤ s.position + 1 ∨ maxPointers < s.pointers + 1 then none
          else
            let target := (length &&& 0x3f).toNat * 256 + (byteAt packet (s.position + 1)).toNat
            if s.position ≤ target ∨ size ≤ target then none
            else decodeLoop capacity packet size rounds { s with
              position := target
              final := some (s.final.getD (s.position + 2))
              pointers := s.pointers + 1 }
        else if length &&& 0xc0 ≠ 0 ∨ 63 < length then none
        else
          let labelEnd := s.position + 1 + length.toNat
          if size < labelEnd ∨ maxNameSize - (1 + length.toNat) < s.expanded then none
          else
            match appendLabel capacity s.output (slice packet (s.position + 1) length.toNat) with
            | none => none
            | some output => decodeLoop capacity packet size rounds { s with
                position := labelEnd
                output := output
                expanded := s.expanded + (1 + length.toNat) }

/-- `rin_dns_wire_decode_name`: the name and the offset behind it. -/
def decodeName (capacity : Nat) (packet : List UInt8) (size start : Nat) : Option (Name × Nat) :=
  if capacity = 0 then none else decodeLoop capacity packet size (maxNameSize + maxPointers + 1) ⟨start, [], 1, none, 0⟩

/-! ## §4. CNAME chains. -/

/-- `RIN_DNS_WIRE_MAX_CNAME_HOPS`. -/
def maxCnameHops : Nat := 8

/-- `RinDnsWireCnameChain`. -/
structure CnameChain where
  hopCount : Nat
  minimumTtl : Nat
  names : Vector Name (maxCnameHops + 1)
  deriving DecidableEq

/-- A name of a chain. -/
def CnameChain.name (chain : CnameChain) (index : Nat) : Name := chain.names.toList.getD index []

/-- `rin_dns_wire_cname_chain_init`. -/
def cnameChainInit (initial : Name) : Option CnameChain :=
  if initial = [] then none
  else (copyName nameCapacity initial).map fun name =>
    ⟨0, 2 ^ 32 - 1, (Vector.replicate (maxCnameHops + 1) []).setIfInBounds 0 name⟩

/-- `rin_dns_wire_cname_chain_current`. -/
def CnameChain.current (chain : CnameChain) : Option Name :=
  if maxCnameHops < chain.hopCount ∨ chain.name 0 = [] ∨ chain.name chain.hopCount = [] then none
  else if (List.range (chain.hopCount + 1)).any (fun index =>
      decide ((chain.name index).length = 0 ∨ maxNameSize < (chain.name index).length)) = true then none
  else some (chain.name chain.hopCount)

/-- The errors of `rin_dns_wire_cname_chain_follow`. -/
inductive ChainError where
  | invalid
  | loop
  | limit
  deriving DecidableEq

/-- `rin_dns_wire_cname_chain_follow`. -/
def CnameChain.follow (chain : CnameChain) (target : Name) : Except ChainError CnameChain :=
  match chain.current, copyName nameCapacity target with
  | some _, some target =>
      if target = [] then .error .invalid
      else if (List.range (chain.hopCount + 1)).any (fun index =>
          namesEqual target (chain.name index)) = true then .error .loop
      else if maxCnameHops ≤ chain.hopCount then .error .limit
      else .ok { chain with
        hopCount := chain.hopCount + 1
        names := chain.names.setIfInBounds (chain.hopCount + 1) target }
  | _, _ => .error .invalid

/-! ## §5. EDNS options. -/

/-- The lead byte of a longer sequence of `rin_dns_wire_utf8_valid`: the bits it gives, the number of
continuation bytes and the least code point. -/
def utf8Lead (first : UInt8) : Option (Nat × Nat × Nat) :=
  if 0xc2 ≤ first ∧ first ≤ 0xdf then some ((first &&& 0x1f).toNat, 1, 0x80)
  else if 0xe0 ≤ first ∧ first ≤ 0xef then some ((first &&& 0x0f).toNat, 2, 0x800)
  else if 0xf0 ≤ first ∧ first ≤ 0xf4 then some ((first &&& 0x07).toNat, 3, 0x10000)
  else none

/-- The continuation bytes of a sequence. -/
def utf8Continue : (count codePoint : Nat) → List UInt8 → Option (Nat × List UInt8)
  | 0, codePoint, text => some (codePoint, text)
  | _ + 1, _, [] => none
  | count + 1, codePoint, continuation :: text =>
      if continuation &&& 0xc0 ≠ 0x80 then none
      else utf8Continue count (codePoint * 64 + (continuation &&& 0x3f).toNat) text

/-- The loop of `rin_dns_wire_utf8_valid`, which takes a byte or more in a round. -/
def utf8ValidFrom : (rounds : Nat) → List UInt8 → Bool
  | _, [] => true
  | 0, _ :: _ => false
  | rounds + 1, first :: text =>
      if first < 0x80 then utf8ValidFrom rounds text
      else
        match utf8Lead first with
        | none => false
        | some (bits, count, minimum) =>
            match utf8Continue count bits text with
            | none => false
            | some (codePoint, rest) =>
                if codePoint < minimum ∨ (0xd800 ≤ codePoint ∧ codePoint ≤ 0xdfff) ∨
                    0x10ffff < codePoint then false
                else utf8ValidFrom rounds rest

/-- `rin_dns_wire_utf8_valid`. -/
def utf8Valid (text : List UInt8) : Bool := utf8ValidFrom text.length text

/-- `rin_dns_wire_edns_ecs_valid`. -/
def ednsEcsValid (data : List UInt8) : Bool :=
  if data.length < 4 then false
  else
    let family := readU16 data 0
    let sourceLength := (byteAt data 2).toNat
    let scopeLength := (byteAt data 3).toNat
    if family ≠ 1 ∧ family ≠ 2 then true
    else
      let maximum := if family = 1 then 32 else 128
      if maximum < sourceLength ∨ maximum < scopeLength ∨
          data.length - 4 ≠ (sourceLength + 7) / 8 then false
      else if sourceLength % 8 ≠ 0 ∧ data.length - 4 ≠ 0 ∧
          (byteAt data (data.length - 1)).toNat % 2 ^ (8 - sourceLength % 8) ≠ 0 then false
      else true

/-- `RIN_DNS_WIRE_MAX_EDNS_OPTIONS`. -/
def maxEdnsOptions : Nat := 32

/-- What `rin_dns_wire_edns_options_valid` records. -/
structure EdnsOptions where
  extendedError : Option Nat
  cookie : Bool
  clientSubnet : Bool
  padding : Bool
  deriving DecidableEq

/-- One option of `rin_dns_wire_edns_options_valid`. -/
def ednsOption (code : Nat) (data : List UInt8) (options : EdnsOptions) : Option EdnsOptions :=
  if code = 10 then
    if options.cookie = true ∨ ¬ (data.length = 8 ∨ (16 ≤ data.length ∧ data.length ≤ 40)) then none
    else some { options with cookie := true }
  else if code = 8 then
    if options.clientSubnet = true ∨ ednsEcsValid data = false then none
    else some { options with clientSubnet := true }
  else if code = 12 then
    if options.padding = true then none
    else some { options with padding := true }
  else if code = 15 then
    if data.length < 2 ∨ utf8Valid (data.drop 2) = false then none
    else some { options with extendedError := options.extendedError.or (some (readU16 data 0)) }
  else some options

/-- The loop of `rin_dns_wire_edns_options_valid`, with at most `remaining` options. -/
def ednsOptionsFrom (packet : List UInt8) (dataEnd : Nat) :
    (remaining position : Nat) → EdnsOptions → Option EdnsOptions
  | 0, position, options => if position = dataEnd then some options else none
  | remaining + 1, position, options =>
      if dataEnd ≤ position then if position = dataEnd then some options else none
      else if dataEnd - position < 4 then none
      else
        let length := readU16 packet (position + 2)
        if dataEnd - (position + 4) < length then none
        else
          match ednsOption (readU16 packet position) (slice packet (position + 4) length) options with
          | none => none
          | some options => ednsOptionsFrom packet dataEnd remaining (position + 4 + length) options

/-- `rin_dns_wire_edns_options_valid`. -/
def ednsOptionsValid (packet : List UInt8) (position dataEnd : Nat) : Option EdnsOptions :=
  ednsOptionsFrom packet dataEnd maxEdnsOptions position ⟨none, false, false, false⟩

/-! ## §6. Records. -/

/-- The types and the class the parser knows. -/
def typeA : Nat := 1
@[inherit_doc typeA] def typeCname : Nat := 5
@[inherit_doc typeA] def typePtr : Nat := 12
@[inherit_doc typeA] def typeAaaa : Nat := 28
@[inherit_doc typeA] def typeOpt : Nat := 41
@[inherit_doc typeA] def classIn : Nat := 1

/-- The limits on the counts of the header. -/
def maxAnswers : Nat := 32
@[inherit_doc maxAnswers] def maxAuthority : Nat := 32
@[inherit_doc maxAnswers] def maxAdditional : Nat := 32

/-- The fixed part of a record, and where its data are. -/
structure Frame where
  name : Name
  type : Nat
  cls : Nat
  ttl : Nat
  dataPosition : Nat
  dataEnd : Nat

/-- The record at `position`, in the first `size` bytes of a packet. -/
def readFrame (packet : List UInt8) (size position : Nat) : Option Frame :=
  match decodeName nameCapacity packet size position with
  | none => none
  | some (name, next) =>
      if size < next ∨ size - next < 10 then none
      else if size - (next + 10) < readU16 packet (next + 8) then none
      else some {
        name := name
        type := readU16 packet next
        cls := readU16 packet (next + 2)
        ttl := readU32 packet (next + 4)
        dataPosition := next + 10
        dataEnd := next + 10 + readU16 packet (next + 8) }

/-- The framing loop over the answers, and the loop over the authority records: the offset behind `count`
records, none of them an OPT record. -/
def skipRecords (packet : List UInt8) : (count position : Nat) → Option Nat
  | 0, position => some position
  | count + 1, position =>
      match readFrame packet packet.length position with
      | none => none
      | some frame => if frame.type = typeOpt then none else skipRecords packet count frame.dataEnd

/-- What the additional records tell about EDNS. -/
structure Edns where
  udpPayloadSize : Nat
  dnssecOk : Bool
  options : EdnsOptions
  deriving DecidableEq

/-- An OPT record of the additional section. -/
def readOpt (packet : List UInt8) (frame : Frame) (edns : Option Edns) : Option Edns :=
  if edns.isSome ∨ frame.name ≠ [] ∨ frame.ttl / 2 ^ 24 % 256 ≠ 0 ∨ frame.ttl / 2 ^ 16 % 256 ≠ 0 ∨
      frame.ttl % 2 ^ 15 ≠ 0 then none
  else (ednsOptionsValid packet frame.dataPosition frame.dataEnd).map fun options =>
    ⟨if frame.cls < 512 then 512 else frame.cls, decide (frame.ttl / 2 ^ 15 % 2 ≠ 0), options⟩

/-- The loop over the additional records. -/
def additionalRecords (packet : List UInt8) : (count position : Nat) → Option Edns →
    Option (Nat × Option Edns)
  | 0, position, edns => some (position, edns)
  | count + 1, position, edns =>
      match readFrame packet packet.length position with
      | none => none
      | some frame =>
          if frame.type = typeOpt then
            match readOpt packet frame edns with
            | none => none
            | some found => additionalRecords packet count frame.dataEnd (some found)
          else additionalRecords packet count frame.dataEnd edns

/-! ## §7. Questions and NOTIMP. -/

/-- The echoed question: the offset behind it, where it is the one that was asked. -/
def readQuestion (packet : List UInt8) (expectedName : Name) (expectedType : Nat) : Option Nat :=
  match decodeName nameCapacity packet packet.length 12 with
  | none => none
  | some (name, next) =>
      if namesEqual name expectedName = false ∨ packet.length < next ∨ packet.length - next < 4 ∨
          readU16 packet next ≠ expectedType ∨ readU16 packet (next + 2) ≠ classIn then none
      else some (next + 4)

/-- The additional records of a NOTIMP response: at most one OPT record, without flags. -/
def notimpAdditional (packet : List UInt8) : (count position : Nat) → Bool → Option Nat
  | 0, position, _ => some position
  | count + 1, position, optSeen =>
      match readFrame packet packet.length position with
      | none => none
      | some frame =>
          if frame.type = typeOpt then
            if optSeen = true ∨ frame.name ≠ [] ∨ frame.ttl / 2 ^ 24 % 256 ≠ 0 ∨
                frame.ttl / 2 ^ 16 % 256 ≠ 0 ∨ frame.ttl % 2 ^ 15 ≠ 0 ∨
                ednsOptionsValid packet frame.dataPosition frame.dataEnd = none then none
            else notimpAdditional packet count frame.dataEnd true
          else notimpAdditional packet count frame.dataEnd optSeen

/-- A type that can be asked for. -/
def typeExpected (expectedType : Nat) : Prop :=
  expectedType = typeA ∨ expectedType = typeAaaa ∨ expectedType = typePtr

instance (expectedType : Nat) : Decidable (typeExpected expectedType) := by
  unfold typeExpected; infer_instance

/-- The flags of a complete response to a standard query. -/
def flagsAdmitted (packet : List UInt8) : Prop :=
  readU16 packet 2 / 2 ^ 15 % 2 = 1 ∧ readU16 packet 2 / 2 ^ 11 % 16 = 0 ∧
    readU16 packet 2 / 2 ^ 9 % 2 = 0

instance (packet : List UInt8) : Decidable (flagsAdmitted packet) := by
  unfold flagsAdmitted; infer_instance

/-- `rin_dns_wire_is_notimp_response`. -/
def isNotimpResponse (packet : List UInt8) (expectedId : Nat) (expectedName : Name)
    (expectedType : Nat) : Bool :=
  if packet.length < 12 ∨ ¬ typeExpected expectedType ∨ readU16 packet 0 ≠ expectedId then false
  else if ¬ flagsAdmitted packet ∨ readU16 packet 2 % 16 ≠ 4 ∨ readU16 packet 4 ≠ 1 ∨
      readU16 packet 6 ≠ 0 ∨ maxAuthority < readU16 packet 8 ∨ maxAdditional < readU16 packet 10 then false
  else
    match readQuestion packet expectedName expectedType with
    | none => false
    | some position =>
        match skipRecords packet (readU16 packet 8) position with
        | none => false
        | some position =>
            match notimpAdditional packet (readU16 packet 10) position false with
            | none => false
            | some position => decide (position = packet.length)

/-! ## §8. Scanning the answers. -/

/-- `RIN_DNS_WIRE_MAX_RESULT_ADDRESSES`. -/
def maxResultAddresses : Nat := 8

/-- `RinDnsWireAnswer`. -/
structure Answer where
  type : Nat
  ttl : Nat
  address : List UInt8
  name : Name
  edns : Option Edns
  deriving DecidableEq

/-- `RinDnsWireAnswerSet`. -/
structure AnswerSet where
  primary : Answer
  addressCount : Nat
  addresses : List (List UInt8)
  deriving DecidableEq

/-- `rin_dns_wire_clear_answer_set`. -/
def AnswerSet.cleared : AnswerSet := ⟨⟨0, 0, [], [], none⟩, 0, []⟩

/-- The variables of a scan: `cname_target_name` and `cname_ttl` once a CNAME record is seen, `data_seen`,
`result_found` and the answer set. -/
structure Scan where
  cname : Option (Name × Nat)
  dataSeen : Bool
  resultFound : Bool
  answers : AnswerSet

/-- An address record. -/
def storeAddress (packet : List UInt8) (width : Nat) (frame : Frame) (s : Scan) : Option Scan :=
  if frame.dataEnd - frame.dataPosition ≠ width ∨ maxResultAddresses ≤ s.answers.addressCount then none
  else
    let address := slice packet frame.dataPosition width
    some { s with answers := {
      primary := if s.resultFound then s.answers.primary else { s.answers.primary with address := address }
      addressCount := s.answers.addressCount + 1
      addresses := s.answers.addresses ++ [address] } }

/-- The name in the data of a record, which has to end where they end. -/
def dataName (packet : List UInt8) (frame : Frame) : Option Name :=
  match decodeName nameCapacity packet packet.length frame.dataPosition with
  | none => none
  | some (name, next) => if next ≠ frame.dataEnd ∨ name = [] then none else some name

/-- The first answer becomes the primary one; later ones may lower its TTL. -/
def publish (expectedType effectiveTtl : Nat) (s : Scan) : Scan :=
  if s.resultFound = true then
    if effectiveTtl < s.answers.primary.ttl then
      { s with answers := { s.answers with primary := { s.answers.primary with ttl := effectiveTtl } } }
    else s
  else { s with
    resultFound := true
    answers := { s.answers with
      primary := { s.answers.primary with type := expectedType, ttl := effectiveTtl } } }

/-- A PTR record: the name of the first one is that of the primary answer. -/
def storeName (name : Name) (s : Scan) : Option Scan :=
  if s.resultFound = true then some s
  else (copyName nameCapacity name).map fun name =>
    { s with answers := { s.answers with
        primary := { s.answers.primary with name := name }, addressCount := 1 } }

/-- A record of the type that was asked for. -/
def scanData (packet : List UInt8) (expectedType minimumTtl : Nat) (frame : Frame) (s : Scan) :
    Option Scan :=
  let effectiveTtl := min frame.ttl minimumTtl
  let s := { s with dataSeen := true }
  if expectedType = typeA then (storeAddress packet 4 frame s).map (publish expectedType effectiveTtl)
  else if expectedType = typeAaaa then
    (storeAddress packet 16 frame s).map (publish expectedType effectiveTtl)
  else
    match dataName packet frame with
    | none => none
    | some name => (storeName name s).map (publish expectedType effectiveTtl)

/-- A record of the answer section, in the scan for `current`. -/
def scanFrame (packet : List UInt8) (expectedType minimumTtl : Nat) (current : Name) (frame : Frame)
    (s : Scan) : Option Scan :=
  if namesEqual frame.name current = false then some s
  else if (frame.type = typeCname ∨ frame.type = expectedType) ∧ frame.cls ≠ classIn then none
  else if frame.type = typeCname then
    if s.cname.isSome ∨ s.dataSeen = true then none
    else
      match dataName packet frame with
      | none => none
      | some target => (copyName nameCapacity target).map fun target =>
          { s with cname := some (target, frame.ttl) }
  else if frame.type = expectedType then
    if s.cname.isSome then none else scanData packet expectedType minimumTtl frame s
  else some s

/-- The loop of a scan. -/
def scanFrames (packet : List UInt8) (answerEnd expectedType minimumTtl : Nat) (current : Name) :
    (count position : Nat) → Scan → Option (Scan × Nat)
  | 0, position, s => some (s, position)
  | count + 1, position, s =>
      match readFrame packet answerEnd position with
      | none => none
      | some frame =>
          match scanFrame packet expectedType minimumTtl current frame s with
          | none => none
          | some s => scanFrames packet answerEnd expectedType minimumTtl current count frame.dataEnd s

/-! ## §9. The response. -/

/-- The results of the parser; `failure` is -1. -/
inductive Status where
  | success
  | cnameReferral
  | nameError
  | noData
  | notImplemented
  | failure
  | cnameLoop
  | cnameLimit
  deriving DecidableEq

/-- The variables of the loop over the chain: `chain_candidate`, `current_name`, `cname_hops`,
`result_found` and the answer set. -/
structure Chase where
  chain : CnameChain
  current : Name
  hops : Nat
  resultFound : Bool
  answers : AnswerSet

/-- The status of a chain that cannot be followed. -/
def ChainError.status : ChainError → Status
  | .invalid => .failure
  | .loop => .cnameLoop
  | .limit => .cnameLimit

/-- One scan of the answer section, for the current name. -/
def scanAnswers (packet : List UInt8) (expectedType answerStart answerEnd count : Nat) (c : Chase) :
    Option Scan :=
  match scanFrames packet answerEnd expectedType c.chain.minimumTtl c.current count answerStart
      ⟨none, false, c.resultFound, c.answers⟩ with
  | none => none
  | some (s, position) => if position ≠ answerEnd then none else some s

/-- The step to the target of a CNAME record. -/
def followCname (c : Chase) (s : Scan) (target : Name) (ttl : Nat) : Except Status Chase :=
  if s.dataSeen = true then .error .failure
  else
    match c.chain.follow target with
    | .error e => .error e.status
    | .ok chain =>
        match copyName nameCapacity target with
        | none => .error .failure
        | some current => .ok {
            chain := { chain with minimumTtl := min ttl chain.minimumTtl }
            current := current
            hops := c.hops + 1
            resultFound := s.resultFound
            answers := s.answers }

/-- The loop over the chain. The chain has room for `maxCnameHops` hops, so it takes one round more at
most. -/
def chaseAnswers (packet : List UInt8) (expectedType answerStart answerEnd count : Nat) :
    (rounds : Nat) → Chase → Except Status Chase
  | 0, _ => .error .cnameLimit
  | rounds + 1, c =>
      match scanAnswers packet expectedType answerStart answerEnd count c with
      | none => .error .failure
      | some s =>
          match s.cname with
          | none => .ok { c with resultFound := s.resultFound, answers := s.answers }
          | some (target, ttl) =>
              match followCname c s target ttl with
              | .error e => .error e
              | .ok c => chaseAnswers packet expectedType answerStart answerEnd count rounds c

/-- What a call leaves in its outputs. -/
structure Output where
  status : Status
  chain : CnameChain
  answers : AnswerSet
  referral : Name
  deriving DecidableEq

/-- Copy the name to query next, unless the caller has no room for one. -/
def referralName (capacity : Option Nat) (current : Name) : Option Name :=
  match capacity with
  | none => none
  | some capacity => if capacity = 0 then none else copyName capacity current

/-- The last part of the parser: what the response says, once all sections are admitted. -/
def conclude (rcode answerCount : Nat) (referralCapacity : Option Nat) (c : Chase) :
    Except Status Output :=
  let referred := c.hops ≠ 0 ∧ referralCapacity.getD 0 ≠ 0
  if rcode = 3 then
    if c.resultFound = true ∨ (answerCount ≠ 0 ∧ c.hops = 0) then .error .failure
    else if referred then
      match referralName referralCapacity c.current with
      | none => .error .failure
      | some name => .ok ⟨.nameError, c.chain, c.answers, name⟩
    else .ok ⟨.nameError, c.chain, c.answers, []⟩
  else if c.resultFound = true then .ok ⟨.success, c.chain, c.answers, []⟩
  else if c.hops = 0 then .ok ⟨.noData, c.chain, c.answers, []⟩
  else
    match referralName referralCapacity c.current with
    | none => .error .failure
    | some name => .ok ⟨.cnameReferral, c.chain, c.answers, name⟩

/-- The parser between its header tests and its outputs. -/
def parseSections (packet : List UInt8) (expectedName : Name) (expectedType : Nat) (chain : CnameChain)
    (referralCapacity : Option Nat) : Except Status Output :=
  let rcode := readU16 packet 2 % 16
  let answerCount := readU16 packet 6
  match copyName nameCapacity expectedName, readQuestion packet expectedName expectedType with
  | some current, some answerStart =>
      match skipRecords packet answerCount answerStart with
      | none => .error .failure
      | some answerEnd =>
          match chaseAnswers packet expectedType answerStart answerEnd answerCount (maxCnameHops + 1)
              ⟨chain, current, 0, false, AnswerSet.cleared⟩ with
          | .error e => .error e
          | .ok c =>
              match skipRecords packet (readU16 packet 8) answerEnd with
              | none => .error .failure
              | some position =>
                  match additionalRecords packet (readU16 packet 10) position none with
                  | none => .error .failure
                  | some (position, edns) =>
                      if position ≠ packet.length then .error .failure
                      else conclude rcode answerCount referralCapacity
                        { c with answers := { c.answers with
                            primary := { c.answers.primary with edns := edns } } }
  | _, _ => .error .failure

/-- The header tests. -/
def headerAdmitted (packet : List UInt8) (expectedId : Nat) (expectedName : Name) (expectedType : Nat)
    (chain : CnameChain) : Bool :=
  decide (12 ≤ packet.length ∧ typeExpected expectedType ∧ readU16 packet 0 = expectedId) &&
  (match chain.current with
    | none => false
    | some current => namesEqual current expectedName) &&
  decide (flagsAdmitted packet ∧ readU16 packet 4 = 1)

/-- The result of the parser, or the status it fails with. -/
def parseResponse (packet : List UInt8) (expectedId : Nat) (expectedName : Name) (expectedType : Nat)
    (chain : CnameChain) (referralCapacity : Option Nat) : Except Status Output :=
  let rcode := readU16 packet 2 % 16
  if headerAdmitted packet expectedId expectedName expectedType chain = false then .error .failure
  else if rcode = 4 then
    if isNotimpResponse packet expectedId expectedName expectedType = true then
      .ok ⟨.notImplemented, chain, AnswerSet.cleared, []⟩
    else .error .failure
  else if rcode ≠ 0 ∧ rcode ≠ 3 then .error .failure
  else if maxAnswers < readU16 packet 6 ∨ maxAuthority < readU16 packet 8 ∨
      maxAdditional < readU16 packet 10 then .error .failure
  else parseSections packet expectedName expectedType chain referralCapacity

/-- `rin_dns_wire_parse_response_answers_chain_ex`: a response that is not accepted leaves the chain as it
was, and the answers and the referral name cleared. `referralCapacity` is `none` for a null buffer. -/
def parseResponseAnswersChainEx (packet : List UInt8) (expectedId : Nat) (expectedName : Name)
    (expectedType : Nat) (chain : CnameChain) (referralCapacity : Option Nat) : Output :=
  match parseResponse packet expectedId expectedName expectedType chain referralCapacity with
  | .ok output => output
  | .error status => ⟨status, chain, AnswerSet.cleared, []⟩

end RinRuntime.Dns

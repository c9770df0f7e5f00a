/-
Dns.Records — records whose names are written without compression.

`Record.encode` are the bytes of a record, with the owner as plain labels. Where a packet holds them, the
parser reads the record back, whatever the rest of the packet and wherever in it the record stands: this
is what lets records change places.
-/
import RinRuntime.Dns.Wire
import Mathlib.Data.List.GetD

namespace RinRuntime.Dns
open List

/-! ## §1. Bytes at a place. -/

/-- The packet holds `bytes` at `position`. -/
def Holds (packet : List UInt8) (position : Nat) (bytes : List UInt8) : Prop :=
  bytes <+: packet.drop position

section
variable {packet : List UInt8} {position : Nat} {a b : List UInt8}

theorem holds_append : Holds packet position (a ++ b) ↔
    Holds packet position a ∧ Holds packet (position + a.length) b := by
  constructor
  · rintro ⟨rest, hrest⟩
    refine ⟨⟨b ++ rest, by rw [← hrest, append_assoc]⟩, rest, ?_⟩
    rw [← drop_drop, ← hrest, append_assoc, drop_left]
  rintro ⟨⟨rest, hrest⟩, tail, htail⟩
  refine ⟨tail, ?_⟩
  rw [← drop_drop, ← hrest, drop_left] at htail
  rw [← hrest, ← htail, append_assoc]

theorem Holds.slice (h : Holds packet position a) : slice packet position a.length = a := by
  obtain ⟨rest, hrest⟩ := h
  unfold Dns.slice
  rw [← hrest, take_left]

theorem Holds.head {byte : UInt8} (h : Holds packet position (byte :: a)) :
    byteAt packet position = byte := by
  obtain ⟨rest, hrest⟩ := h
  have hget : (packet.drop position).getD 0 0 = byte := by
    rw [← hrest]
    rfl
  unfold byteAt
  rw [← hget, getD_eq_getElem?_getD, getD_eq_getElem?_getD, getElem?_drop, Nat.add_zero]

theorem Holds.tail {byte : UInt8} (h : Holds packet position (byte :: a)) : Holds packet (position + 1) a :=
  (holds_append (a := [byte])).mp h |>.2

theorem holds_of_append (front rest : List UInt8) : Holds (front ++ (a ++ rest)) front.length a := by
  refine ⟨rest, ?_⟩
  rw [drop_left]

end

/-! ## §2. Numbers. -/

/-- A 16-bit number, most significant byte first. -/
def encodeU16 (n : Nat) : List UInt8 := [UInt8.ofNat (n / 256), UInt8.ofNat n]

/-- A 32-bit number. -/
def encodeU32 (n : Nat) : List UInt8 := encodeU16 (n / 65536) ++ encodeU16 n

section
variable {packet : List UInt8} {position n : Nat}

theorem readU16_of_holds (h : Holds packet position (encodeU16 n)) :
    readU16 packet position = n % 65536 := by
  have hhigh := h.head
  have hlow := h.tail.head
  unfold readU16
  rw [hhigh, hlow, UInt8.toNat_ofNat', UInt8.toNat_ofNat']
  omega

theorem readU32_of_holds (h : Holds packet position (encodeU32 n)) (hn : n < 2 ^ 32) :
    readU32 packet position = n := by
  obtain ⟨hhigh, hlow⟩ := holds_append.mp h
  have hlow' : Holds packet (position + 2) (encodeU16 n) := hlow
  unfold readU32
  rw [readU16_of_holds hhigh, readU16_of_holds hlow']
  omega

end

/-! ## §3. Labels. -/

/-- A label of 1 to 63 bytes. -/
structure Label where
  bytes : List UInt8
  nonempty : 1 ≤ bytes.length
  short : bytes.length ≤ 63

/-- Labels on the wire, without compression. -/
def encodeLabels : List Label → List UInt8
  | [] => [0]
  | label :: rest => UInt8.ofNat label.bytes.length :: (label.bytes ++ encodeLabels rest)

/-- The name labels present to the caller, if they fit. -/
def presentFrom (capacity : Nat) : List Label → (expanded : Nat) → (output : Name) → Option Name
  | [], _, output => some output
  | label :: rest, expanded, output =>
      if maxNameSize - (1 + label.bytes.length) < expanded then none
      else
        match appendLabel capacity output label.bytes with
        | none => none
        | some output => presentFrom capacity rest (expanded + (1 + label.bytes.length)) output

/-- The presentation of a name in a name buffer. -/
def present (labels : List Label) : Option Name := presentFrom nameCapacity labels 1 []

/-- The length byte of a label is neither the terminator nor a pointer. -/
theorem label_length_byte {n : Nat} (hpos : 1 ≤ n) (hle : n ≤ 63) :
    UInt8.ofNat n ≠ 0 ∧ UInt8.ofNat n &&& 0xc0 = 0 ∧ ¬ 63 < UInt8.ofNat n ∧ (UInt8.ofNat n).toNat = n := by
  have hall : ∀ m < 64, 1 ≤ m → UInt8.ofNat m ≠ 0 ∧ UInt8.ofNat m &&& 0xc0 = 0 ∧
      ¬ 63 < UInt8.ofNat m ∧ (UInt8.ofNat m).toNat = m := by decide
  exact hall n (by omega) hpos

/-- **Decoding plain labels** gives their presentation, wherever they stand. -/
theorem decodeLoop_labels {packet : List UInt8} {capacity size : Nat} {labels : List Label} :
    ∀ {rounds : Nat} {s : Decoding}, Holds packet s.position (encodeLabels labels) →
    s.position + (encodeLabels labels).length ≤ size → s.final = none →
    s.expanded ≤ maxNameSize → maxNameSize + 1 ≤ rounds + s.expanded →
    decodeLoop capacity packet size rounds s = (presentFrom capacity labels s.expanded s.output).map fun name =>
      (name, s.position + (encodeLabels labels).length) := by
  induction labels with
  | nil =>
    intro rounds s hholds hsize hfinal hexp hrounds
    have hlen : (encodeLabels []).length = 1 := rfl
    obtain ⟨rounds, rfl⟩ : ∃ k, rounds = k + 1 := ⟨rounds - 1, by omega⟩
    unfold decodeLoop
    rw [if_neg (by omega)]
    rw [hholds.head, if_pos rfl, hfinal]
    rfl
  | cons label rest ih =>
    intro rounds s hholds hsize hfinal hexp hrounds
    have hlen : (encodeLabels (label :: rest)).length
        = 1 + label.bytes.length + (encodeLabels rest).length := by
      simp only [encodeLabels, length_cons, length_append]
      omega
    obtain ⟨rounds, rfl⟩ : ∃ k, rounds = k + 1 := ⟨rounds - 1, by omega⟩
    obtain ⟨hzero, hptr, hlong, htoNat⟩ := label_length_byte label.nonempty label.short
    have hne : ¬ ((0 : UInt8) = 0xc0) := by decide
    obtain ⟨hlabel, hrest⟩ := holds_append.mp hholds.tail
    rw [hlen] at hsize ⊢
    unfold decodeLoop
    rw [if_neg (by omega)]
    rw [hholds.head, if_neg hzero, hptr, if_neg hne, if_neg (by simp [hlong]), htoNat, hlabel.slice,
      presentFrom]
    by_cases hfits : maxNameSize - (1 + label.bytes.length) < s.expanded
    · rw [if_pos (Or.inr hfits), if_pos hfits]
      rfl
    rw [if_neg (by omega), if_neg hfits]
    cases happend : appendLabel capacity s.output label.bytes with
    | none => rfl
    | some output =>
      have hlimit : maxNameSize = 255 := rfl
      have hshort := label.short
      have hloop := @ih rounds { s with
        position := s.position + 1 + label.bytes.length
        output := output
        expanded := s.expanded + (1 + label.bytes.length) } hrest (by dsimp only; omega) hfinal
        (by dsimp only; omega) (by dsimp only; omega)
      dsimp only at hloop ⊢
      rw [hloop]
      congr 1
      funext name
      rw [Nat.add_assoc s.position, Nat.add_assoc s.position]

/-- The name at a place where a packet has plain labels. -/
theorem decodeName_labels {packet : List UInt8} {capacity size position : Nat} {labels : List Label}
    (hcap : capacity ≠ 0) (h : Holds packet position (encodeLabels labels))
    (hsize : position + (encodeLabels labels).length ≤ size) :
    decodeName capacity packet size position = (presentFrom capacity labels 1 []).map fun name =>
      (name, position + (encodeLabels labels).length) := by
  rw [decodeName, if_neg hcap]
  exact decodeLoop_labels h hsize rfl (show 1 ≤ maxNameSize by decide)
    (show maxNameSize + 1 ≤ maxNameSize + maxPointers + 1 + 1 by decide)

/-- A name buffer has room for a terminator. -/
theorem nameCapacity_ne_zero : nameCapacity ≠ 0 := by decide

/-! ## §4. Records. -/

/-- A record: its owner is a list of labels. -/
structure Record where
  owner : List Label
  type : UInt16
  cls : UInt16
  ttl : UInt32
  data : List UInt8
  short : data.length < 2 ^ 16

/-- The fixed part of a record behind its owner. -/
def Record.encodeFixed (r : Record) : List UInt8 :=
  encodeU16 r.type.toNat ++ (encodeU16 r.cls.toNat ++ (encodeU32 r.ttl.toNat ++ encodeU16 r.data.length))

/-- A record on the wire. -/
def Record.encode (r : Record) : List UInt8 := encodeLabels r.owner ++ (r.encodeFixed ++ r.data)

/-- The records of a section. -/
def encodeRecords : List Record → List UInt8
  | [] => []
  | r :: rest => r.encode ++ encodeRecords rest

/-- Where the data of a record at `position` are. -/
def Record.dataPosition (r : Record) (position : Nat) : Nat := position + (encodeLabels r.owner).length + 10

theorem length_encode (r : Record) :
    r.encode.length = (encodeLabels r.owner).length + 10 + r.data.length := by
  have hfixed : r.encodeFixed.length = 10 := rfl
  unfold Record.encode
  rw [length_append, length_append, hfixed, Nat.add_assoc]

/-- The frame of a record that stands at `position`. -/
def Record.frame (r : Record) (name : Name) (position : Nat) : Frame where
  name := name
  type := r.type.toNat
  cls := r.cls.toNat
  ttl := r.ttl.toNat
  dataPosition := r.dataPosition position
  dataEnd := position + r.encode.length

section
variable {packet : List UInt8} {size position : Nat} {r : Record}

theorem Holds.data (h : Holds packet position r.encode) : Holds packet (r.dataPosition position) r.data :=
  (holds_append.mp (holds_append.mp h).2).2

/-- **A record is read back** where a packet holds it. -/
theorem readFrame_record (h : Holds packet position r.encode) (hsize : position + r.encode.length ≤ size) :
    readFrame packet size position = (present r.owner).map fun name => r.frame name position := by
  have hlen := length_encode r
  obtain ⟨howner, hrest⟩ := holds_append.mp h
  obtain ⟨hfixed, -⟩ := holds_append.mp hrest
  obtain ⟨htype, hfixed⟩ := holds_append.mp hfixed
  obtain ⟨hcls, hfixed⟩ := holds_append.mp hfixed
  obtain ⟨httl, hdata⟩ := holds_append.mp hfixed
  unfold readFrame
  rw [decodeName_labels nameCapacity_ne_zero howner (by omega), ← present]
  cases hpres : present r.owner with
  | none => rfl
  | some name =>
    set next := position + (encodeLabels r.owner).length with hnext
    have htype' : readU16 packet next = r.type.toNat := by
      rw [readU16_of_holds htype]
      exact Nat.mod_eq_of_lt r.type.toNat_lt
    have hcls' : readU16 packet (next + 2) = r.cls.toNat := by
      have hread := readU16_of_holds hcls
      rw [Nat.mod_eq_of_lt r.cls.toNat_lt] at hread
      exact hread
    have httl' : readU32 packet (next + 4) = r.ttl.toNat := readU32_of_holds httl r.ttl.toNat_lt
    have hdata' : readU16 packet (next + 8) = r.data.length :=
      (readU16_of_holds hdata).trans (Nat.mod_eq_of_lt r.short)
    dsimp only [Option.map_some]
    rw [if_neg (by omega), hdata', if_neg (by omega), htype', hcls', httl']
    unfold Record.frame Record.dataPosition
    have hend : next + 10 + r.data.length = position + r.encode.length := by omega
    rw [hend]

end
end RinRuntime.Dns

/-
Dns.Decode — what decoding a name depends on.

Pointers lead backwards, but behind a pointer the labels run forwards again. They never run past the
first pointer, whose byte is no character of a name, so a decoding that succeeds has looked at nothing
behind the offset it returns. Labels and pointers are counted, so the loop ends on every packet; where it
succeeds, each position determined its way, so it came to none of them twice (§4).
-/
import Mathlib.Algebra.GroupWithZero.Nat
import RinRuntime.Dns.Records

namespace RinRuntime.Dns
open List

/-! ## §1. Packets with a common front. -/
section
variable {p p' : List UInt8} {n : Nat}

theorem byteAt_take {i : Nat} (hi : i < n) : byteAt (p.take n) i = byteAt p i := by
  unfold byteAt
  rw [getD_eq_getElem?_getD, getD_eq_getElem?_getD, getElem?_take_of_lt hi]

theorem byteAt_congr (h : p.take n = p'.take n) {i : Nat} (hi : i < n) : byteAt p i = byteAt p' i := by
  rw [← byteAt_take hi, h, byteAt_take hi]

theorem readU16_congr (h : p.take n = p'.take n) {i : Nat} (hi : i + 2 ≤ n) :
    readU16 p i = readU16 p' i := by
  have hhigh : byteAt p i = byteAt p' i := byteAt_congr h (by omega)
  have hlow : byteAt p (i + 1) = byteAt p' (i + 1) := byteAt_congr h (by omega)
  unfold readU16
  rw [hhigh, hlow]

theorem slice_take {i length : Nat} (hi : i + length ≤ n) :
    slice (p.take n) i length = slice p i length := by
  unfold slice
  rw [drop_take, take_take, Nat.min_eq_left (by omega)]

theorem slice_congr (h : p.take n = p'.take n) {i length : Nat} (hi : i + length ≤ n) :
    slice p i length = slice p' i length := by
  rw [← slice_take hi, h, slice_take hi]

end

/-! ## §2. Decoding behind a pointer. -/

/-- A pointer is no character of a name. -/
theorem badCharacter_of_pointer {byte : UInt8} (h : byte &&& 0xc0 = 0xc0) : badCharacter byte = true := by
  have hall : ∀ k < 256, UInt8.ofNat k &&& 0xc0 = 0xc0 → badCharacter (UInt8.ofNat k) = true := by
    decide +kernel
  have hbyte := hall byte.toNat byte.toNat_lt
  rw [UInt8.ofNat_toNat] at hbyte
  exact hbyte h

/-- A label that was appended has no bad character. -/
theorem appendLabel_characters {capacity : Nat} {output label result : Name}
    (h : appendLabel capacity output label = some result) :
    ∀ c ∈ label, badCharacter c = false := by
  intro c hc
  by_contra hbad
  have hany : label.any badCharacter = true := by
    rw [any_eq_true]
    exact ⟨c, hc, by simpa using hbad⟩
  unfold appendLabel at h
  split at h
  · cases h
  rw [if_pos (Or.inr hany)] at h
  cases h

/-- A pointer within a label: the label cannot be appended. -/
theorem appendLabel_pointer {packet : List UInt8} {output result : Name} {capacity i length pointer : Nat}
    (hbyte : byteAt packet pointer &&& 0xc0 = 0xc0) (hi : i ≤ pointer) (hlt : pointer < i + length) :
    appendLabel capacity output (slice packet i length) ≠ some result := by
  intro h
  have hinside : pointer < packet.length := by
    by_contra hout
    have hzero : byteAt packet pointer = 0 := by
      unfold byteAt
      rw [getD_eq_getElem?_getD, getElem?_eq_none (by omega)]
      rfl
    rw [hzero] at hbyte
    exact absurd hbyte (by decide)
  have hmem : byteAt packet pointer ∈ slice packet i length := by
    have hget : (slice packet i length)[pointer - i]? = some (byteAt packet pointer) := by
      unfold slice byteAt
      rw [getElem?_take_of_lt (by omega), getElem?_drop, Nat.add_sub_of_le hi,
        getElem?_eq_getElem hinside, getD_eq_getElem?_getD, getElem?_eq_getElem hinside]
      rfl
    exact mem_of_getElem? hget
  have hgood := appendLabel_characters h _ hmem
  rw [badCharacter_of_pointer hbyte] at hgood
  cases hgood

variable {p p' : List UInt8} {capacity size : Nat}

/-- The state behind a pointer. -/
def Decoding.jumped (packet : List UInt8) (s : Decoding) : Decoding := { s with
  position := (byteAt packet s.position &&& 0x3f).toNat * 256 + (byteAt packet (s.position + 1)).toNat
  final := some (s.final.getD (s.position + 2))
  pointers := s.pointers + 1 }

/-- The state behind a label. -/
def Decoding.labelled (packet : List UInt8) (s : Decoding) (output : Name) : Decoding := { s with
  position := s.position + 1 + (byteAt packet s.position).toNat
  output := output
  expanded := s.expanded + (1 + (byteAt packet s.position).toNat) }

/-- **A round of a decoding that succeeds**: the end of the name, a pointer or a label. -/
theorem decodeLoop_iff {rounds : Nat} {s : Decoding} {result : Name × Nat} :
    decodeLoop capacity p size (rounds + 1) s = some result ↔ s.position < size ∧
      ((byteAt p s.position = 0 ∧ result = (s.output, s.final.getD (s.position + 1))) ∨
      (byteAt p s.position &&& 0xc0 = 0xc0 ∧ s.position + 1 < size ∧ s.pointers < maxPointers ∧
        (s.jumped p).position < s.position ∧ decodeLoop capacity p size rounds (s.jumped p) = some result) ∨
      (byteAt p s.position ≠ 0 ∧ byteAt p s.position &&& 0xc0 = 0 ∧ byteAt p s.position ≤ 63 ∧
        s.position + 1 + (byteAt p s.position).toNat ≤ size ∧
        s.expanded ≤ maxNameSize - (1 + (byteAt p s.position).toNat) ∧
        ∃ output, appendLabel capacity s.output (slice p (s.position + 1) (byteAt p s.position).toNat) = some output ∧
          decodeLoop capacity p size rounds (s.labelled p output) = some result)) := by
  rw [decodeLoop]
  dsimp only
  split_ifs with hposition hzero hptr hbound htgt hresv hfits
  · grind
  · simp [hzero, Nat.not_le.mp hposition, eq_comm]
  · grind
  · grind [Decoding.jumped]
  · grind [Decoding.jumped]
  · grind
  · grind
  · grind [Decoding.labelled]

/-- Behind a jump the offset is settled. -/
theorem decodeLoop_final {final : Nat} : ∀ {rounds : Nat} {s : Decoding} {result : Name × Nat},
    s.final = some final → decodeLoop capacity p size rounds s = some result → result.2 = final
  | 0, _, _, _, h => by cases h
  | rounds + 1, s, result, hfinal, h => by
    obtain ⟨_, ⟨_, rfl⟩ | ⟨_, _, _, _, hloop⟩ | ⟨_, _, _, _, _, output, _, hloop⟩⟩ := decodeLoop_iff.mp h
    · rw [hfinal]
      rfl
    · refine decodeLoop_final ?_ hloop
      rw [Decoding.jumped, hfinal]
      rfl
    · refine decodeLoop_final ?_ hloop
      exact hfinal

/-- Behind a jump nothing after the pointer is read. -/
theorem decodeLoop_jumped {pointer : Nat} (hagree : p.take (pointer + 2) = p'.take (pointer + 2))
    (hbyte : byteAt p pointer &&& 0xc0 = 0xc0) : ∀ {rounds : Nat} {s : Decoding} {result : Name × Nat},
    s.position ≤ pointer → decodeLoop capacity p size rounds s = some result →
    decodeLoop capacity p' size rounds s = some result
  | 0, _, _, _, h => by cases h
  | rounds + 1, s, result, hle, h => by
    have hlen : byteAt p s.position = byteAt p' s.position := byteAt_congr hagree (by omega)
    rw [decodeLoop_iff] at h ⊢
    obtain ⟨hposition, hend | ⟨hptr, hbound, hcnt, htgt, hloop⟩ |
      ⟨hzero, hbits, hshort, hfits, hexp, output, happend, hloop⟩⟩ := h
    · exact ⟨hposition, Or.inl (hlen ▸ hend)⟩
    · have hlow : byteAt p (s.position + 1) = byteAt p' (s.position + 1) := byteAt_congr hagree (by omega)
      have hsame : s.jumped p' = s.jumped p := by rw [Decoding.jumped, Decoding.jumped, hlen, hlow]
      rw [← hlen, hsame]
      exact ⟨hposition, Or.inr (Or.inl ⟨hptr, hbound, hcnt, htgt,
        decodeLoop_jumped hagree hbyte (by omega) hloop⟩)⟩
    -- the label ends before the pointer, whose byte no label can have
    have hne : s.position ≠ pointer := by
      intro heq
      rw [heq, hbyte] at hbits
      exact absurd hbits (by decide)
    have hend : s.position + 1 + (byteAt p s.position).toNat ≤ pointer := by
      by_contra hover
      exact appendLabel_pointer hbyte (by omega) (by omega) happend
    have hsame : s.labelled p' output = s.labelled p output := by
      rw [Decoding.labelled, Decoding.labelled, hlen]
    rw [← hlen, ← slice_congr hagree (by omega)]
    exact ⟨hposition, Or.inr (Or.inr ⟨hzero, hbits, hshort, hfits, hexp, output, happend,
      hsame ▸ decodeLoop_jumped hagree hbyte hend hloop⟩)⟩

/-! ## §3. Names and the bytes before their end. -/

theorem decodeLoop_congr : ∀ {rounds : Nat} {s : Decoding} {name : Name} {next : Nat},
    s.final = none → decodeLoop capacity p size rounds s = some (name, next) →
    s.position < next ∧ (p.take next = p'.take next → decodeLoop capacity p' size rounds s = some (name, next))
  | 0, _, _, _, _, h => by cases h
  | rounds + 1, s, name, next, hfinal, h => by
    obtain ⟨hposition, ⟨hzero, hres⟩ | ⟨hptr, hbound, hcnt, htgt, hloop⟩ |
      ⟨hzero, hbits, hshort, hfits, hexp, output, happend, hloop⟩⟩ := decodeLoop_iff.mp h
    · have hnext : next = s.position + 1 := by
        rw [hfinal] at hres
        exact (Prod.mk.inj hres).2
      refine ⟨by omega, fun hagree => decodeLoop_iff.mpr ?_⟩
      rw [← byteAt_congr hagree (by omega)]
      exact ⟨hposition, Or.inl ⟨hzero, hres⟩⟩
    · obtain rfl : next = s.position + 2 := by
        refine decodeLoop_final ?_ hloop
        rw [Decoding.jumped, hfinal]
        rfl
      exact ⟨by omega, fun hagree => decodeLoop_jumped hagree hptr (Nat.le_refl _) h⟩
    obtain ⟨hlt, hrest⟩ := decodeLoop_congr (show (s.labelled p output).final = none from hfinal) hloop
    have hlt' : s.position + 1 + (byteAt p s.position).toNat < next := hlt
    refine ⟨by omega, fun hagree => decodeLoop_iff.mpr ?_⟩
    have hlen : byteAt p s.position = byteAt p' s.position := byteAt_congr hagree (by omega)
    have hsame : s.labelled p' output = s.labelled p output := by
      rw [Decoding.labelled, Decoding.labelled, hlen]
    rw [← hlen, ← slice_congr hagree (by omega)]
    exact ⟨hposition, Or.inr (Or.inr ⟨hzero, hbits, hshort, hfits, hexp, output, happend,
      hsame ▸ hrest hagree⟩)⟩

theorem decodeName_iff {start : Nat} {result : Name × Nat} :
    decodeName capacity p size start = some result ↔ capacity ≠ 0 ∧
      decodeLoop capacity p size (maxNameSize + maxPointers + 1) ⟨start, [], 1, none, 0⟩ = some result := by
  unfold decodeName
  split <;> simp [*]

/-- **A decoded name depends on the bytes before its end only.** -/
theorem decodeName_congr {start next : Nat} {name : Name}
    (h : decodeName capacity p size start = some (name, next)) (hagree : p.take next = p'.take next) :
    decodeName capacity p' size start = some (name, next) := by
  obtain ⟨hcap, hloop⟩ := decodeName_iff.mp h
  exact decodeName_iff.mpr ⟨hcap, (decodeLoop_congr rfl hloop).2 hagree⟩

/-- The question stands behind the header. -/
theorem readQuestion_position {expectedName : Name} {expectedType position : Nat}
    (h : readQuestion p expectedName expectedType = some position) : 12 ≤ position := by
  unfold readQuestion at h
  split at h
  · cases h
  next name next hname =>
  split at h
  · cases h
  have hbehind : 12 < next := (@decodeLoop_congr p p _ _ _ _ _ _ rfl (decodeName_iff.mp hname).2).1
  have hposition : next + 4 = position := Option.some.inj h
  omega

/-- The question of a packet, in another one with the same front. -/
theorem readQuestion_congr {expectedName : Name} {expectedType position : Nat}
    (h : readQuestion p expectedName expectedType = some position) (hlen : p.length = p'.length)
    (hagree : p.take position = p'.take position) :
    readQuestion p' expectedName expectedType = some position := by
  unfold readQuestion at h ⊢
  rw [← hlen]
  cases hname : decodeName nameCapacity p p.length 12 with
  | none =>
    rw [hname] at h
    cases h
  | some found =>
    obtain ⟨name, next⟩ := found
    rw [hname] at h
    dsimp only at h
    split at h
    · cases h
    next hq =>
    have hposition : next + 4 = position := Option.some.inj h
    have hshort : p.take next = p'.take next := by
      have hcut := congrArg (take next) hagree
      rw [take_take, take_take, Nat.min_eq_left (by omega)] at hcut
      exact hcut
    rw [decodeName_congr hname hshort]
    dsimp only
    rw [← readU16_congr hagree (by omega), ← readU16_congr hagree (by omega), if_neg hq, hposition]

/-! ## §4. Steps. -/

/-- The rounds of `decodeLoop` are enough: with more of them it does the same. -/
theorem decodeLoop_rounds : ∀ {rounds rounds' : Nat} {s : Decoding}, s.expanded ≤ maxNameSize →
    s.pointers ≤ maxPointers → maxNameSize + maxPointers + 1 ≤ rounds + s.expanded + s.pointers →
    maxNameSize + maxPointers + 1 ≤ rounds' + s.expanded + s.pointers →
    decodeLoop capacity p size rounds s = decodeLoop capacity p size rounds' s
  | 0, _, _, hexp, hpointers, hrounds, _ => by omega
  | _ + 1, 0, _, hexp, hpointers, _, hrounds' => by omega
  | rounds + 1, rounds' + 1, s, hexp, hpointers, hrounds, hrounds' => by
    have hlimit : maxNameSize = 255 := rfl
    rw [decodeLoop, decodeLoop]
    dsimp only
    split
    · rfl
    split
    · rfl
    split
    · split
      · rfl
      split
      · rfl
      · exact decodeLoop_rounds hexp (by dsimp only; omega) (by dsimp only; omega) (by dsimp only; omega)
    split
    · rfl
    split
    · rfl
    next hzero hptr hresv hfits =>
    have hpos : (byteAt p s.position).toNat ≠ 0 := fun heq =>
      hzero (UInt8.toNat_inj.mp (heq.trans rfl))
    have hshort : (byteAt p s.position).toNat ≤ 63 := by
      rw [not_or, UInt8.lt_iff_toNat_lt] at hresv
      exact Nat.le_of_not_lt hresv.2
    split
    · rfl
    · exact decodeLoop_rounds (by dsimp only; omega) hpointers (by dsimp only; omega) (by dsimp only; omega)

/-- The loop of `rin_dns_wire_decode_name` with its trace: for each round that reads, where it stands and
how many bytes from there on it may read. -/
def decodeTraced (capacity : Nat) (packet : List UInt8) (size : Nat) :
    (rounds : Nat) → Decoding → Option (Name × Nat) × List (Nat × Nat)
  | 0, _ => (none, [])
  | rounds + 1, s =>
      if size ≤ s.position then (none, [])
      else
        let length := byteAt packet s.position
        if length = 0 then (some (s.output, s.final.getD (s.position + 1)), [(s.position, 1)])
        else if length &&& 0xc0 = 0xc0 then
          if size ≤ s.position + 1 ∨ maxPointers < s.pointers + 1 then (none, [(s.position, 1)])
          else
            let target := (length &&& 0x3f).toNat * 256 + (byteAt packet (s.position + 1)).toNat
            if s.position ≤ target ∨ size ≤ target then (none, [(s.position, 2)])
            else
              let rest := decodeTraced capacity packet size rounds (s.jumped packet)
              (rest.1, (s.position, 2) :: rest.2)
        else if length &&& 0xc0 ≠ 0 ∨ 63 < length then (none, [(s.position, 1)])
        else if size < s.position + 1 + length.toNat ∨ maxNameSize - (1 + length.toNat) < s.expanded then
          (none, [(s.position, 1)])
        else
          match appendLabel capacity s.output (slice packet (s.position + 1) length.toNat) with
          | none => (none, [(s.position, 1 + length.toNat)])
          | some output =>
              let rest := decodeTraced capacity packet size rounds (s.labelled packet output)
              (rest.1, (s.position, 1 + length.toNat) :: rest.2)

theorem decodeTraced_fst : ∀ (rounds : Nat) (s : Decoding),
    (decodeTraced capacity p size rounds s).1 = decodeLoop capacity p size rounds s
  | 0, _ => rfl
  | rounds + 1, s => by
    rw [decodeTraced, decodeLoop]
    dsimp only
    split_ifs
    · rfl
    · rfl
    · rfl
    · rfl
    · exact decodeTraced_fst rounds _
    · rfl
    · rfl
    cases appendLabel capacity s.output (slice p (s.position + 1) (byteAt p s.position).toNat) with
    | none => rfl
    | some output => exact decodeTraced_fst rounds _

/-- What the rounds read lies in the packet and is no more than the counters leave. -/
theorem decodeTraced_reads : ∀ (rounds : Nat) {s : Decoding}, s.expanded ≤ maxNameSize →
    s.pointers ≤ maxPointers →
    (∀ v ∈ (decodeTraced capacity p size rounds s).2, 0 < v.2 ∧ v.1 + v.2 ≤ size) ∧
      ((decodeTraced capacity p size rounds s).2.map Prod.snd).sum + s.expanded + 2 * s.pointers
        ≤ maxNameSize + 2 * maxPointers + 1
  | 0, s, hexp, hpointers => by
    simp [decodeTraced]
    omega
  | rounds + 1, s, hexp, hpointers => by
    have hlimit : maxNameSize = 255 := rfl
    rw [decodeTraced]
    dsimp only
    split_ifs with hposition hzero hptr hbound htgt hresv hfits
    case neg =>
      have hreads := @decodeTraced_reads rounds (s.jumped p) hexp (by simp only [Decoding.jumped]; omega)
      simp only [Decoding.jumped] at hreads ⊢
      grind
    case neg =>
      have hshort : (byteAt p s.position).toNat ≤ 63 := by
        rw [not_or, UInt8.lt_iff_toNat_lt] at hresv
        exact Nat.le_of_not_lt hresv.2
      cases appendLabel capacity s.output (slice p (s.position + 1) (byteAt p s.position).toNat) with
      | none =>
        simp
        omega
      | some output =>
        have hreads := @decodeTraced_reads rounds (s.labelled p output)
          (by simp only [Decoding.labelled]; omega) hpointers
        simp only [Decoding.labelled] at hreads ⊢
        grind
    all_goals simp; omega

/-- The positions of the rounds. -/
def visits (capacity : Nat) (packet : List UInt8) (size rounds : Nat) (s : Decoding) : List Nat :=
  (decodeTraced capacity packet size rounds s).2.map Prod.fst

/-- Where the decoder goes from a position. -/
def after (packet : List UInt8) (position : Nat) : Nat :=
  if byteAt packet position &&& 0xc0 = 0xc0 then
    (byteAt packet position &&& 0x3f).toNat * 256 + (byteAt packet (position + 1)).toNat
  else position + 1 + (byteAt packet position).toNat

/-- A decoding that succeeds ends at a zero and goes on from every other byte. -/
theorem visits_cases {rounds : Nat} {s : Decoding} {result : Name × Nat}
    (h : decodeLoop capacity p size (rounds + 1) s = some result) :
    (byteAt p s.position = 0 ∧ visits capacity p size (rounds + 1) s = [s.position]) ∨
    (byteAt p s.position ≠ 0 ∧ ∃ s', s'.position = after p s.position ∧
      decodeLoop capacity p size rounds s' = some result ∧
      visits capacity p size (rounds + 1) s = s.position :: visits capacity p size rounds s') := by
  obtain ⟨hposition, hround⟩ := decodeLoop_iff.mp h
  rw [visits, decodeTraced, if_neg (by omega)]
  rcases hround with ⟨hzero, _⟩ | ⟨hptr, hbound, hcnt, htgt, hloop⟩ |
    ⟨hzero, hbits, hshort, hfits, hexp, output, happend, hloop⟩
  · rw [if_pos hzero]
    exact Or.inl ⟨hzero, rfl⟩
  · have hzero : byteAt p s.position ≠ 0 := by
      intro hzero
      rw [hzero] at hptr
      exact absurd hptr (by decide)
    simp only [Decoding.jumped] at htgt
    rw [if_neg hzero, if_pos hptr, if_neg (by omega), if_neg (by omega)]
    exact Or.inr ⟨hzero, s.jumped p, (if_pos hptr).symm, hloop, rfl⟩
  have hlabel : byteAt p s.position &&& 0xc0 ≠ 0xc0 := by
    rw [hbits]
    decide
  rw [if_neg hzero, if_neg hlabel, if_neg (by simp [hbits, UInt8.not_lt.mpr hshort]), if_neg (by omega), happend]
  exact Or.inr ⟨hzero, s.labelled p output, (if_neg hlabel).symm, hloop, rfl⟩

/-- The way of a decoding that succeeds depends on where it starts only. -/
theorem visits_congr : ∀ {rounds rounds' : Nat} {s s' : Decoding} {result result' : Name × Nat},
    s.position = s'.position → decodeLoop capacity p size rounds s = some result →
    decodeLoop capacity p size rounds' s' = some result' → visits capacity p size rounds s = visits capacity p size rounds' s'
  | 0, _, _, _, _, _, _, h, _ => by cases h
  | _ + 1, 0, _, _, _, _, _, _, h' => by cases h'
  | rounds + 1, rounds' + 1, s, s', _, _, heq, h, h' => by
    have hcases' := visits_cases h'
    rw [← heq] at hcases'
    rcases visits_cases h with ⟨hzero, hvisits⟩ | ⟨hzero, t, ht, hloop, hvisits⟩
    · rcases hcases' with ⟨_, hvisits'⟩ | ⟨hne, _⟩
      · rw [hvisits, hvisits']
      · exact absurd hzero hne
    rcases hcases' with ⟨hzero', _⟩ | ⟨_, t', ht', hloop', hvisits'⟩
    · exact absurd hzero' hzero
    · rw [hvisits, hvisits', visits_congr (ht.trans ht'.symm) hloop hloop']

/-- From every visit on, the way is that of a decoding that succeeds. -/
theorem visits_suffix : ∀ {rounds : Nat} {s : Decoding} {result : Name × Nat} {position : Nat},
    decodeLoop capacity p size rounds s = some result → position ∈ visits capacity p size rounds s →
    ∃ rounds' s', s'.position = position ∧ decodeLoop capacity p size rounds' s' = some result ∧
      (visits capacity p size rounds' s').length ≤ (visits capacity p size rounds s).length
  | 0, _, _, _, h, _ => by cases h
  | rounds + 1, s, result, position, h, hmem => by
    by_cases hhere : s.position = position
    · exact ⟨rounds + 1, s, hhere, h, Nat.le_refl _⟩
    rcases visits_cases h with ⟨_, hvisits⟩ | ⟨_, t, _, hloop, hvisits⟩
    · rw [hvisits] at hmem
      exact absurd (mem_singleton.mp hmem).symm hhere
    rw [hvisits] at hmem ⊢
    obtain ⟨rounds', s', hposition, hloop', hlen⟩ :=
      visits_suffix hloop (mem_of_ne_of_mem (Ne.symm hhere) hmem)
    exact ⟨rounds', s', hposition, hloop', Nat.le_succ_of_le hlen⟩

/-- Going on from a position leads to another way than coming back to it. -/
theorem visits_nodup : ∀ {rounds : Nat} {s : Decoding} {result : Name × Nat},
    decodeLoop capacity p size rounds s = some result → (visits capacity p size rounds s).Nodup
  | 0, _, _, h => by cases h
  | rounds + 1, s, result, h => by
    rcases visits_cases h with ⟨_, hvisits⟩ | ⟨_, t, _, hloop, hvisits⟩
    · simp [hvisits]
    rw [hvisits]
    refine nodup_cons.mpr ⟨?_, visits_nodup hloop⟩
    intro hback
    obtain ⟨rounds', s', hposition, hloop', hlen⟩ := visits_suffix hloop hback
    rw [visits_congr hposition hloop' h, hvisits] at hlen
    exact absurd hlen (Nat.not_succ_le_self _)

/-- **Decoding a name takes a bounded number of steps.** For every packet and offset the loop comes to its
end: with any number of rounds from `maxNameSize + maxPointers + 1` on it does the same. The rounds together
read at most `maxNameSize + 2 * maxPointers` bytes, each round at least one, and all of them before the end
of the packet. A decoding that succeeds was at no position twice. -/
theorem decode_steps_bounded (capacity : Nat) (packet : List UInt8) (size start rounds : Nat)
    (hrounds : maxNameSize + maxPointers + 1 ≤ rounds) :
    let traced := decodeTraced capacity packet size rounds ⟨start, [], 1, none, 0⟩
    (decodeName capacity packet size start = if capacity = 0 then none else traced.1) ∧
      (traced.2.map Prod.snd).sum ≤ maxNameSize + 2 * maxPointers ∧
      (∀ visit ∈ traced.2, 0 < visit.2 ∧ visit.1 + visit.2 ≤ size) ∧
      (traced.1 ≠ none → (traced.2.map Prod.fst).Nodup) := by
  dsimp only
  obtain ⟨hreads, hsum⟩ := @decodeTraced_reads packet capacity size rounds ⟨start, [], 1, none, 0⟩
    (show 1 ≤ maxNameSize by decide) (Nat.zero_le _)
  rw [decodeTraced_fst]
  refine ⟨?_, Nat.le_of_succ_le_succ hsum, hreads, ?_⟩
  · rw [decodeName, decodeLoop_rounds (show 1 ≤ maxNameSize by decide) (Nat.zero_le _)
      (Nat.le_add_right _ _) (Nat.le_trans hrounds (Nat.le_add_right _ _))]
  intro hsome
  obtain ⟨result, hres⟩ := Option.ne_none_iff_exists'.mp hsome
  exact visits_nodup hres

theorem decode_steps_bounded_pointer :
    let traced := decodeTraced nameCapacity [1, 0x61, 0, 1, 0x62, 0xc0, 0] 7 300 ⟨3, [], 1, none, 0⟩
    traced = (some ([0x62, 0x2e, 0x61], 7), [(3, 2), (5, 2), (0, 2), (2, 1)]) ∧
      (traced.1 ≠ none → (traced.2.map Prod.fst).Nodup) :=
  ⟨by decide, (decode_steps_bounded nameCapacity _ 7 3 300 (by decide)).2.2.2⟩

end RinRuntime.Dns

/-
Dns.Names — names on the wire and names as text.

A name is a list of labels: `encodeLabels` are its bytes, `dotted` is its text. The encoder accepts
exactly the texts of names of at most 255 bytes, with or without a final dot (`encodeName_iff`); a decoding
that succeeds has walked through labels and pointers to the end of a name (`Walk`) and returns its text
(`decodeLoop_walk`). `namesEqual` compares names, a final dot and letter case apart.
-/
import Mathlib.Data.List.Forall2
import RinRuntime.Dns.Decode

namespace RinRuntime.Dns
open List

/-! ## §1. The encoder. -/

/-- The inner loop of `rin_dns_wire_encode_name`: a label, and what follows it. -/
def encodeLabel : (position : Nat) → Name → Option (Name × Name)
  | _, [] => some ([], [])
  | position, character :: rest =>
      if maxNameSize < position ∨ character = 0x2e then some ([], character :: rest)
      else if character < 0x21 ∨ 0x7e < character ∨ character = 0x5c then none
      else (encodeLabel (position + 1) rest).map fun found => (character :: found.1, found.2)

/-- The loop of `rin_dns_wire_encode_name`, which takes two characters in a round unless it is the last. -/
def encodeLoop (capacity : Nat) : (rounds position : Nat) → Name → List UInt8 → Option (List UInt8)
  | 0, _, _, _ => none
  | rounds + 1, position, name, output =>
      match encodeLabel position name with
      | none => none
      | some (label, rest) =>
          if maxNameSize < position + label.length ∨ label.length = 0 ∨ 63 < label.length ∨
              capacity ≤ output.length ∨ capacity - output.length - 1 < label.length ∨
              maxNameSize ≤ output.length + 1 + label.length then none
          else
            let output := output ++ UInt8.ofNat label.length :: label
            if rest.tail = [] then
              if capacity ≤ output.length ∨ maxNameSize ≤ output.length then none else some (output ++ [0])
            else encodeLoop capacity rounds (position + label.length + 1) rest.tail output

/-- `rin_dns_wire_encode_name`. -/
def encodeName (capacity : Nat) (name : Name) : Option (List UInt8) :=
  if capacity = 0 ∨ name = [] then none else encodeLoop capacity maxNameSize 0 name []

/-! ## §2. The text of a name. -/

/-- Labels with dots between them. -/
def dotted (labels : List Label) : Name := [0x2e].intercalate (labels.map Label.bytes)

/-- A label the text of a name can show. -/
def Label.Plain (label : Label) : Prop := ∀ c ∈ label.bytes, badCharacter c = false

/-- Labels that make a name of at most 255 bytes. -/
structure Presentable (labels : List Label) : Prop where
  nonempty : labels ≠ []
  plain : ∀ l ∈ labels, l.Plain
  short : (encodeLabels labels).length ≤ maxNameSize

/-- A name without the dot that may end it. -/
def undotted (name : Name) : Name := if name.getLast? = some 0x2e then name.dropLast else name

variable {labels done : List Label} {name : Name} {capacity : Nat} {label : Label}

theorem dotted_cons (label : Label) (h : labels ≠ []) :
    dotted (label :: labels) = label.bytes ++ 0x2e :: dotted labels := by
  obtain ⟨next, rest, rfl⟩ := exists_cons_of_ne_nil h
  simp [dotted, List.intercalate]

theorem dotted_singleton (label : Label) : dotted [label] = label.bytes := by simp [dotted, List.intercalate]

theorem dotted_ne_nil (h : labels ≠ []) : dotted labels ≠ [] := by
  obtain ⟨label, rest, rfl⟩ := exists_cons_of_ne_nil h
  have hne := ne_nil_of_length_pos label.nonempty
  cases rest with
  | nil => rwa [dotted_singleton]
  | cons next rest =>
    rw [dotted_cons _ (cons_ne_nil _ _)]
    simp

theorem dotted_append (h : done ≠ []) (label : Label) :
    dotted (done ++ [label]) = dotted done ++ 0x2e :: label.bytes := by
  induction done with
  | nil => exact absurd rfl h
  | cons first done ih =>
    by_cases hdone : done = []
    · rw [hdone, singleton_append, dotted_cons _ (cons_ne_nil _ _), dotted_singleton, dotted_singleton]
    · rw [cons_append, dotted_cons _ (by simp), ih hdone, dotted_cons _ hdone, append_assoc]
      rfl

theorem length_encodeLabels_cons (label : Label) (labels : List Label) :
    (encodeLabels (label :: labels)).length = 1 + label.bytes.length + (encodeLabels labels).length := by
  simp only [encodeLabels, length_cons, length_append]
  omega

theorem encodeLabels_pos (labels : List Label) : 1 ≤ (encodeLabels labels).length := by
  cases labels with
  | nil => exact Nat.le_refl _
  | cons label labels => rw [length_encodeLabels_cons]; omega

/-- A text is one byte shorter than the labels before the end mark. -/
theorem length_dotted (h : labels ≠ []) :
    (dotted labels).length + 2 = (encodeLabels labels).length := by
  induction labels with
  | nil => exact absurd rfl h
  | cons label labels ih =>
    rw [length_encodeLabels_cons]
    by_cases hrest : labels = []
    · rw [hrest, dotted_singleton]
      show _ = 1 + label.bytes.length + 1
      omega
    have hlen := ih hrest
    rw [dotted_cons _ hrest, length_append, length_cons]
    omega

/-- The text of labels, without a dot at its end. -/
theorem undotted_of_text (h : ∀ l ∈ labels, l.Plain)
    (hname : name = dotted labels ∨ name = dotted labels ++ [0x2e]) : undotted name = dotted labels := by
  rcases hname with rfl | rfl
  · refine if_neg ?_
    rcases eq_nil_or_concat labels with rfl | ⟨done, label, rfl⟩
    · simp [dotted, List.intercalate]
    have hlast : (dotted (done ++ [label])).getLast? = label.bytes.getLast? := by
      by_cases hdone : done = []
      · rw [hdone, nil_append, dotted_singleton]
      · rw [dotted_append hdone, List.getLast?_append_of_ne_nil _ (cons_ne_nil _ _),
          List.getLast?_cons_of_ne_nil (ne_nil_of_length_pos label.nonempty)]
    rw [concat_eq_append, hlast]
    intro heq
    exact absurd (h label (by simp) _ (mem_of_getLast? heq)) (by decide)
  · simp [undotted]

/-! ## §3. What the encoder accepts. -/

theorem badCharacter_eq_false {c : UInt8} :
    badCharacter c = false ↔ c ≠ 0x2e ∧ ¬ (c < 0x21 ∨ 0x7e < c ∨ c = 0x5c) := by
  simp only [badCharacter, decide_eq_false_iff_not]
  tauto

/-- A label that was read, up to the end of the name or a dot. -/
theorem encodeLabel_some {label rest : Name} : ∀ {name : Name} {position : Nat},
    encodeLabel position name = some (label, rest) → name = label ++ rest ∧
      (∀ c ∈ label, badCharacter c = false) ∧
      (position + label.length ≤ maxNameSize → rest = [] ∨ ∃ tail, rest = 0x2e :: tail) := by
  induction label with
  | nil =>
    intro name position h
    cases name with
    | nil => exact ⟨(Prod.mk.inj (Option.some.inj h)).2, by simp, fun _ => Or.inl (by simp_all [encodeLabel])⟩
    | cons character name =>
      rw [encodeLabel] at h
      split_ifs at h with hstop hbad
      · obtain ⟨-, rfl⟩ := Prod.mk.inj (Option.some.inj h)
        refine ⟨rfl, by simp, fun hshort => Or.inr ⟨name, ?_⟩⟩
        rw [hstop.resolve_left (by simpa using hshort)]
      · cases hnext : encodeLabel (position + 1) name <;> simp [hnext] at h
  | cons c label ih =>
    intro name position h
    cases name with
    | nil => simp [encodeLabel] at h
    | cons character name =>
      rw [encodeLabel] at h
      split_ifs at h with hstop hbad
      · simp at h
      obtain ⟨⟨label', rest'⟩, hnext, heq⟩ := Option.map_eq_some_iff.mp h
      obtain ⟨⟨rfl, rfl⟩, rfl⟩ : (character = c ∧ label' = label) ∧ rest' = rest := by simpa using heq
      obtain ⟨rfl, hplain, hend⟩ := ih hnext
      refine ⟨rfl, forall_mem_cons.mpr ⟨badCharacter_eq_false.mpr ⟨?_, hbad⟩, hplain⟩, fun hshort => ?_⟩
      · exact fun hdot => hstop (Or.inr hdot)
      · rw [length_cons] at hshort
        exact hend (by omega)

theorem encodeLabel_append {label rest : Name} (hplain : ∀ c ∈ label, badCharacter c = false)
    (hrest : rest = [] ∨ ∃ tail, rest = 0x2e :: tail) : ∀ position, position + label.length ≤ maxNameSize →
    encodeLabel position (label ++ rest) = some (label, rest) := by
  induction label with
  | nil =>
    intro position _
    rcases hrest with rfl | ⟨tail, rfl⟩ <;> simp [encodeLabel]
  | cons c label ih =>
    intro position hshort
    rw [length_cons] at hshort
    obtain ⟨hc, hlabel⟩ := forall_mem_cons.mp hplain
    obtain ⟨hdot, hgood⟩ := badCharacter_eq_false.mp hc
    rw [cons_append, encodeLabel, if_neg (not_or.mpr ⟨by omega, hdot⟩), if_neg hgood,
      ih hlabel _ (by omega)]
    rfl

theorem encodeLoop_some {bytes : List UInt8} : ∀ {rounds position : Nat} {name : Name}
    {output : List UInt8}, encodeLoop capacity rounds position name output = some bytes →
    ∃ labels, labels ≠ [] ∧ (∀ l ∈ labels, l.Plain) ∧
      (name = dotted labels ∨ name = dotted labels ++ [0x2e]) ∧
      bytes = output ++ encodeLabels labels ∧ bytes.length ≤ maxNameSize ∧ bytes.length ≤ capacity
  | 0, _, _, _, h => by cases h
  | rounds + 1, position, name, output, h => by
    rw [encodeLoop] at h
    cases hread : encodeLabel position name with
    | none => simp [hread] at h
    | some found =>
      obtain ⟨label, rest⟩ := found
      rw [hread] at h
      dsimp only at h
      obtain ⟨rfl, hplain, hend⟩ := encodeLabel_some hread
      split_ifs at h with hbound hlast hfull
      · -- the last label, with or without a dot behind it
        refine ⟨[⟨label, by omega, by omega⟩], by simp, by simpa [Label.Plain] using hplain, ?_, ?_⟩
        · rw [dotted_singleton]
          rcases hend (by omega) with rfl | ⟨tail, rfl⟩
          · exact Or.inl (append_nil _)
          · rw [tail_cons] at hlast
            exact Or.inr (by rw [hlast])
        obtain rfl := Option.some.inj h
        simp only [length_append, length_cons, length_nil] at hfull ⊢
        refine ⟨?_, by omega, by omega⟩
        rw [append_assoc]
        rfl
      obtain ⟨labels, hne, hall, htext, hbytes, hlimits⟩ := encodeLoop_some h
      refine ⟨⟨label, by omega, by omega⟩ :: labels, by simp, by simpa [Label.Plain] using ⟨hplain, hall⟩,
        ?_, ?_, hlimits⟩
      · rw [dotted_cons _ hne]
        rcases hend (by omega) with rfl | ⟨tail, rfl⟩
        · exact absurd rfl hlast
        rw [tail_cons] at htext
        rcases htext with rfl | rfl
        · exact Or.inl rfl
        · exact Or.inr (by simp)
      · rw [hbytes, append_assoc]
        rfl

theorem encodeLoop_labels {dot : Name} (hdot : dot = [] ∨ dot = [0x2e]) :
    ∀ (rounds : Nat) (output : List UInt8), labels ≠ [] → (∀ l ∈ labels, l.Plain) →
    (encodeLabels labels).length ≤ rounds → output.length + (encodeLabels labels).length ≤ maxNameSize →
    output.length + (encodeLabels labels).length ≤ capacity →
    encodeLoop capacity rounds output.length (dotted labels ++ dot) output
      = some (output ++ encodeLabels labels) := by
  induction labels with
  | nil => exact fun _ _ h => absurd rfl h
  | cons label labels ih =>
    intro rounds output _ hplain hrounds hsize hcap
    obtain ⟨hlabel, hrest⟩ := forall_mem_cons.mp hplain
    have hnonempty := label.nonempty
    have hshort := label.short
    have hone := encodeLabels_pos labels
    rw [length_encodeLabels_cons] at hrounds hsize hcap
    obtain ⟨rounds, rfl⟩ : ∃ k, rounds = k + 1 := ⟨rounds - 1, by omega⟩
    -- what follows the label: nothing more, or a dot and the other labels
    obtain ⟨rest, hname, hstop, htail⟩ : ∃ rest, dotted (label :: labels) ++ dot = label.bytes ++ rest ∧
        (rest = [] ∨ ∃ tail, rest = 0x2e :: tail) ∧
        rest.tail = if labels = [] then [] else dotted labels ++ dot := by
      by_cases hlast : labels = []
      · refine ⟨dot, by rw [hlast, dotted_singleton], ?_, ?_⟩ <;> rcases hdot with rfl | rfl <;> simp [hlast]
      · exact ⟨0x2e :: (dotted labels ++ dot), by rw [dotted_cons _ hlast]; simp, by simp, by simp [hlast]⟩
    rw [encodeLoop, hname, encodeLabel_append hlabel hstop _ (by omega)]
    dsimp only
    rw [if_neg (by omega), htail]
    have hstep : output ++ encodeLabels (label :: labels)
        = (output ++ UInt8.ofNat label.bytes.length :: label.bytes) ++ encodeLabels labels := by
      simp [encodeLabels]
    have hlen : (output ++ UInt8.ofNat label.bytes.length :: label.bytes).length
        = output.length + label.bytes.length + 1 := by simp; omega
    by_cases hlast : labels = []
    · rw [if_pos hlast, if_pos rfl, hlen, if_neg (by omega), hstep, hlast]
      rfl
    · rw [if_neg hlast, if_neg (by simp [dotted_ne_nil hlast]), ← hlen,
        ih _ _ hlast hrest (by omega) (by omega) (by omega), hstep]

/-- **What `rin_dns_wire_encode_name` accepts**: the text of one or more plain labels, perhaps with a dot at
its end, that make at most 255 bytes and fit. -/
theorem encodeName_iff {bytes : List UInt8} :
    encodeName capacity name = some bytes ↔ ∃ labels, Presentable labels ∧
      (name = dotted labels ∨ name = dotted labels ++ [0x2e]) ∧ bytes = encodeLabels labels ∧
      bytes.length ≤ capacity := by
  unfold encodeName
  constructor
  · intro h
    split_ifs at h
    obtain ⟨labels, hne, hplain, htext, hbytes, hsize, hcap⟩ := encodeLoop_some h
    rw [nil_append] at hbytes
    exact ⟨labels, ⟨hne, hplain, hbytes ▸ hsize⟩, htext, hbytes, hcap⟩
  rintro ⟨labels, ⟨hne, hplain, hsize⟩, htext, rfl, hcap⟩
  have hpos := encodeLabels_pos labels
  obtain ⟨dot, hdot, rfl⟩ : ∃ dot, (dot = [] ∨ dot = [0x2e]) ∧ name = dotted labels ++ dot := by
    rcases htext with rfl | rfl
    · exact ⟨[], Or.inl rfl, (append_nil _).symm⟩
    · exact ⟨[0x2e], Or.inr rfl, rfl⟩
  rw [if_neg (by simp [dotted_ne_nil hne]; omega)]
  exact encodeLoop_labels hdot _ [] hne hplain hsize (by simpa using hsize) (by simpa using hcap)

/-! ## §4. What a decoding walks through. -/

/-- The way from a position to the end of a name: where the decoder stands, and the labels it reads. -/
inductive Walk (packet : List UInt8) : Nat → List Nat → List Label → Prop
  | stop {p : Nat} (hzero : byteAt packet p = 0) : Walk packet p [p] []
  | jump {p : Nat} {positions : List Nat} {labels : List Label}
      (hptr : byteAt packet p &&& 0xc0 = 0xc0)
      (hwalk : Walk packet ((byteAt packet p &&& 0x3f).toNat * 256 + (byteAt packet (p + 1)).toNat)
        positions labels) : Walk packet p (p :: positions) labels
  | label {p : Nat} {positions : List Nat} {labels : List Label} (label : Label)
      (hlen : byteAt packet p = UInt8.ofNat label.bytes.length)
      (hbytes : slice packet (p + 1) label.bytes.length = label.bytes)
      (hwalk : Walk packet (p + 1 + label.bytes.length) positions labels) :
      Walk packet p (p :: positions) (label :: labels)

theorem length_encodeLabels_append (done labels : List Label) :
    (encodeLabels (done ++ labels)).length + 1 = (encodeLabels done).length + (encodeLabels labels).length := by
  induction done with
  | nil => exact Nat.add_comm ..
  | cons label done ih =>
    rw [cons_append, length_encodeLabels_cons, length_encodeLabels_cons]
    omega

theorem dotted_eq_nil : dotted done = [] ↔ done = [] :=
  ⟨fun h => by_contra fun hne => dotted_ne_nil hne h, fun h => by rw [h]; rfl⟩

theorem appendLabel_some {output : Name}
    (h : appendLabel capacity (dotted done) label.bytes = some output) :
    label.Plain ∧ output = dotted (done ++ [label]) := by
  refine ⟨appendLabel_characters h, ?_⟩
  unfold appendLabel at h
  simp only [ne_eq, dotted_eq_nil] at h
  split_ifs at h with hfull hfst hrest hrest
  · rw [hfst, nil_append, dotted_singleton]
    exact (Option.some.inj h).symm
  · rw [dotted_append hfst, ← Option.some.inj h, append_assoc]
    rfl

theorem appendLabel_dotted (hplain : label.Plain) (hfits : (dotted (done ++ [label])).length < capacity) :
    appendLabel capacity (dotted done) label.bytes = some (dotted (done ++ [label])) := by
  have hany : label.bytes.any badCharacter = false := by
    rw [any_eq_false]
    exact fun c hc => by simp [hplain c hc]
  unfold appendLabel
  simp only [ne_eq, dotted_eq_nil, hany]
  by_cases hdone : done = []
  · subst hdone
    rw [nil_append, dotted_singleton] at hfits ⊢
    rw [if_neg (by simp), if_pos rfl]
    exact if_neg (by simp; omega)
  rw [dotted_append hdone] at hfits ⊢
  simp only [length_append, length_cons] at hfits
  rw [if_neg (by omega), if_neg hdone, if_neg (by simp; omega), append_assoc]
  rfl

/-- Labels that make at most 255 bytes are presented as their text, where there is room for it. -/
theorem presentFrom_dotted (hplain : ∀ l ∈ labels, l.Plain) : ∀ done,
    (encodeLabels (done ++ labels)).length ≤ maxNameSize → (dotted (done ++ labels)).length < capacity →
    presentFrom capacity labels (encodeLabels done).length (dotted done) = some (dotted (done ++ labels)) := by
  induction labels with
  | nil =>
    intro done _ _
    rw [append_nil]
    rfl
  | cons label labels ih =>
    intro done hfits hroom
    obtain ⟨hlabel, hrest⟩ := forall_mem_cons.mp hplain
    have happend := length_encodeLabels_append done [label]
    have hall := length_encodeLabels_append (done ++ [label]) labels
    have hone := length_encodeLabels_cons label []
    have hpos := encodeLabels_pos labels
    have hend : (encodeLabels []).length = 1 := rfl
    rw [append_cons] at hfits hroom ⊢
    have hfst : (dotted (done ++ [label])).length + 2 = _ := length_dotted (by simp)
    have hlast : (dotted (done ++ [label] ++ labels)).length + 2 = _ := length_dotted (by simp)
    rw [presentFrom, if_neg (by omega), appendLabel_dotted hlabel (by omega)]
    dsimp only
    rw [← ih hrest _ hfits hroom]
    congr 1
    omega

/-- **A decoding that succeeds** has walked to the end of a name and returns its text. -/
theorem decodeLoop_walk {packet : List UInt8} {size : Nat} (hsize : size ≤ packet.length) : ∀ {rounds : Nat}
    {s : Decoding} {result : Name × Nat} (done : List Label), decodeLoop capacity packet size rounds s = some result →
    s.output = dotted done → s.expanded ≤ maxNameSize →
    ∃ positions labels, Walk packet s.position positions labels ∧ (∀ l ∈ labels, l.Plain) ∧
      result.1 = dotted (done ++ labels) ∧ s.expanded + (encodeLabels labels).length ≤ maxNameSize + 1
  | 0, _, _, _, h, _, _ => by cases h
  | rounds + 1, s, result, done, h, houtput, hexp => by
    obtain ⟨_, ⟨hzero, rfl⟩ | ⟨hptr, _, _, _, hloop⟩ |
      ⟨hzero, _, hshort, hfits, hlimit, output, happend, hloop⟩⟩ := decodeLoop_iff.mp h
    · refine ⟨_, [], .stop hzero, by simp, by rw [append_nil]; exact houtput, ?_⟩
      show s.expanded + 1 ≤ _
      omega
    · obtain ⟨positions, labels, hwalk, hrest⟩ := decodeLoop_walk hsize done hloop houtput hexp
      exact ⟨_, labels, .jump hptr hwalk, hrest⟩
    have hlen : (slice packet (s.position + 1) (byteAt packet s.position).toNat).length
        = (byteAt packet s.position).toNat := by
      rw [Dns.slice, length_take, length_drop]
      omega
    have hpositive : (byteAt packet s.position).toNat ≠ 0 := fun heq => hzero (UInt8.toNat_inj.mp (heq.trans rfl))
    rw [UInt8.le_iff_toNat_le] at hshort
    have hshort' : (byteAt packet s.position).toNat ≤ 63 := hshort
    have hmax : maxNameSize = 255 := rfl
    set label : Label := ⟨slice packet (s.position + 1) (byteAt packet s.position).toNat, by omega, by omega⟩
    obtain ⟨hplain, rfl⟩ := appendLabel_some (show appendLabel capacity (dotted done) label.bytes = some output from
      houtput ▸ happend)
    obtain ⟨positions, labels, hwalk, hall, hname, hrest⟩ :=
      decodeLoop_walk hsize _ hloop rfl (show s.expanded + (1 + _) ≤ _ by omega)
    have hcnt : label.bytes.length = (byteAt packet s.position).toNat := hlen
    refine ⟨s.position :: positions, label :: labels, .label label ?_ ?_ ?_, forall_mem_cons.mpr ⟨hplain, hall⟩, ?_, ?_⟩
    · rw [hcnt, UInt8.ofNat_toNat]
    · rw [hcnt]
    · rw [hcnt]
      exact hwalk
    · rw [hname, append_assoc]
      rfl
    rw [length_encodeLabels_cons, hcnt]
    have hsum : s.expanded + (1 + (byteAt packet s.position).toNat) + (encodeLabels labels).length
      ≤ maxNameSize + 1 := hrest
    omega

/-- A name buffer has room for every name. -/
theorem Presentable.room (h : Presentable labels) : (dotted labels).length < nameCapacity := by
  have hlen := length_dotted h.nonempty
  have hshort := h.short
  have hlimit : nameCapacity = maxNameSize + 1 := rfl
  omega

theorem Presentable.decode (h : Presentable labels) (hroom : (dotted labels).length < capacity) :
    decodeName capacity (encodeLabels labels) (encodeLabels labels).length 0
      = some (dotted labels, (encodeLabels labels).length) := by
  have hpres : presentFrom capacity labels 1 [] = some (dotted labels) :=
    presentFrom_dotted h.plain [] h.short hroom
  have hholds : Holds (encodeLabels labels) 0 (encodeLabels labels) := prefix_refl _
  rw [decodeName_labels (by omega) hholds (Nat.le_of_eq (Nat.zero_add _)), hpres, Nat.zero_add]
  rfl

/-- **The name codec.** What was encoded is decoded to the name, without the dot that may end it, and to its
last byte; a name that was decoded, through whatever pointers, is encoded to the labels on its way. -/
theorem name_codec_inverse : (∀ capacity name bytes, encodeName capacity name = some bytes →
      (undotted name).length < nameCapacity ∧ ∀ room, (undotted name).length < room →
        decodeName room bytes bytes.length 0 = some (undotted name, bytes.length)) ∧
    ∀ room packet start name next, decodeName room packet packet.length start = some (name, next) → name ≠ [] →
      ∃ positions labels, Walk packet start positions labels ∧
        ∀ capacity, (encodeLabels labels).length ≤ capacity →
          encodeName capacity name = some (encodeLabels labels) := by
  constructor
  · intro capacity name bytes h
    obtain ⟨labels, hlabels, hname, rfl, _⟩ := encodeName_iff.mp h
    rw [undotted_of_text hlabels.plain hname]
    exact ⟨hlabels.room, fun room hroom => hlabels.decode hroom⟩
  intro room packet start name next h hname
  obtain ⟨positions, labels, hwalk, hplain, htext, hsize⟩ :=
    decodeLoop_walk (Nat.le_refl _) [] (decodeName_iff.mp h).2 rfl (show 1 ≤ maxNameSize by decide)
  rw [nil_append] at htext
  have htext' : name = dotted labels := htext
  have hsize' : 1 + (encodeLabels labels).length ≤ maxNameSize + 1 := hsize
  refine ⟨positions, labels, hwalk, fun capacity hcap => encodeName_iff.mpr ⟨labels,
    ⟨?_, hplain, by omega⟩, Or.inl htext', rfl, hcap⟩⟩
  intro hnil
  rw [htext', hnil] at hname
  exact hname rfl

/-- The name `a.` is encoded to three bytes, and a pointer to them is decoded to `a`. -/
theorem name_codec_inverse_pointer : decodeName 2 [1, 0x61, 0] 3 0 = some ([0x61], 3) ∧
      ∃ positions labels, Walk [1, 0x61, 0, 0xc0, 0] 3 positions labels ∧
        ∀ capacity, (encodeLabels labels).length ≤ capacity →
          encodeName capacity [0x61] = some (encodeLabels labels) :=
  ⟨(name_codec_inverse.1 3 [0x61, 0x2e] [1, 0x61, 0] (by decide)).2 2 (by decide),
    name_codec_inverse.2 2 [1, 0x61, 0, 0xc0, 0] 3 [0x61] 5 (by decide) (by decide)⟩

/-! ## §5. Comparing names. -/

/-- A fact about bytes is checked on all of them. -/
theorem forall_byte {P : UInt8 → Prop} (h : ∀ k < 256, P (UInt8.ofNat k)) (c : UInt8) : P c := by
  have hc := h c.toNat c.toNat_lt
  rwa [UInt8.ofNat_toNat] at hc

theorem foldAscii_eq_zero (c : UInt8) : foldAscii c = 0 ↔ c = 0 :=
  forall_byte (P := fun c => foldAscii c = 0 ↔ c = 0) (by decide +kernel) c

/-- A character as the comparison sees it. -/
theorem nameCharacter_eq (hzero : 0 ∉ name) (hlen : name.length ≤ maxNameSize) (i : Nat) :
    nameCharacter name i = (undotted name).getD i 0 := by
  -- a character that is zero stands behind the name
  have hbehind : ∀ k, name.getD k 0 = 0 → name.length ≤ k := by
    intro k hk
    by_contra hlt
    rw [getD_eq_getElem _ _ (Nat.not_le.mp hlt)] at hk
    exact hzero (hk ▸ getElem_mem _)
  unfold nameCharacter undotted
  by_cases hdot : name.getLast? = some 0x2e
  · obtain ⟨front, rfl⟩ : ∃ front, name = front ++ [0x2e] := List.getLast?_eq_some_iff.mp hdot
    rw [if_pos hdot, dropLast_concat]
    rw [length_append, length_singleton] at hlen
    rcases Nat.lt_trichotomy i front.length with hlt | rfl | hgt
    · rw [if_neg, getD_append _ _ _ _ hlt]
      intro h
      have hle := hbehind _ h.2.2
      simp at hle
      omega
    · simp; omega
    · rw [getD_eq_default (front ++ [0x2e]) _ (by simp; omega), ite_self,
        getD_eq_default _ _ (Nat.le_of_lt hgt)]
  rw [if_neg hdot, if_neg]
  rintro ⟨_, hchar, hnext⟩
  have hle := hbehind _ hnext
  have hlt : i < name.length := by
    by_contra hge
    rw [getD_eq_default _ _ (Nat.not_lt.mp hge)] at hchar
    exact absurd hchar (by decide)
  refine hdot ?_
  rw [List.getLast?_eq_getElem?, show name.length - 1 = i by omega, List.getElem?_eq_getElem hlt, ← hchar,
    getD_eq_getElem _ _ hlt]

theorem namesEqualFrom_iff {left right u v : Name} (hu : ∀ i, nameCharacter left i = u.getD i 0)
    (hv : ∀ i, nameCharacter right i = v.getD i 0) (hu0 : 0 ∉ u) (hv0 : 0 ∉ v) : ∀ remaining index,
    index ≤ u.length → u.length < index + remaining →
    (namesEqualFrom left right remaining index = true ↔
      (u.drop index).map foldAscii = (v.drop index).map foldAscii)
  | 0, index, hle, hlt => by omega
  | remaining + 1, index, hle, hlt => by
    have hfold : foldAscii 0 = 0 := rfl
    have hnonzero : ∀ {w : Name} {i} (hi : i < w.length), 0 ∉ w → foldAscii w[i] ≠ 0 := fun hi hw h =>
      hw ((foldAscii_eq_zero _).mp h ▸ getElem_mem hi)
    rw [namesEqualFrom, hu, hv]
    by_cases hv' : index < v.length
    · rw [getD_eq_getElem _ _ hv', drop_eq_getElem_cons hv', map_cons]
      by_cases hu' : index < u.length
      · have ih := namesEqualFrom_iff hu hv hu0 hv0 remaining (index + 1) hu' (by omega)
        have hne : u[index] ≠ 0 := fun h => hnonzero hu' hu0 (by rw [h, hfold])
        rw [getD_eq_getElem _ _ hu', drop_eq_getElem_cons hu', map_cons, List.cons.injEq, ← ih, if_neg hne]
        split_ifs with hsame
        · simp [hsame]
        · simp [not_not.mp hsame]
      rw [getD_eq_default _ _ (Nat.not_lt.mp hu'), hfold, if_pos (hnonzero hv' hv0).symm,
        drop_of_length_le (Nat.not_lt.mp hu')]
      simp
    rw [getD_eq_default v _ (Nat.not_lt.mp hv'), hfold, drop_of_length_le (Nat.not_lt.mp hv')]
    by_cases hu' : index < u.length
    · rw [getD_eq_getElem _ _ hu', if_pos (hnonzero hu' hu0), drop_eq_getElem_cons hu']
      simp [hu']
    · rw [getD_eq_default _ _ (Nat.not_lt.mp hu'), drop_of_length_le (Nat.not_lt.mp hu')]
      simp [hfold]

theorem zero_notMem_undotted (h : 0 ∉ name) : 0 ∉ undotted name := by
  unfold undotted
  split_ifs
  · exact fun hmem => h (dropLast_subset _ hmem)
  · exact h

/-- **What `rin_dns_wire_names_equal` compares**, on C strings of at most 255 characters. -/
theorem namesEqual_iff {left right : Name} (hleft : 0 ∉ left) (hright : 0 ∉ right)
    (hl : left.length ≤ maxNameSize) (hr : right.length ≤ maxNameSize) :
    namesEqual left right = true ↔ (undotted left).map foldAscii = (undotted right).map foldAscii := by
  have hshort : (undotted left).length ≤ left.length := by
    unfold undotted
    split_ifs <;> simp
  have h := namesEqualFrom_iff (nameCharacter_eq hleft hl) (nameCharacter_eq hright hr)
    (zero_notMem_undotted hleft) (zero_notMem_undotted hright) (maxNameSize + 1) 0 (Nat.zero_le _) (by omega)
  rwa [drop_zero, drop_zero] at h

/-- A label in lower case. -/
def Label.fold (label : Label) : Label :=
  ⟨label.bytes.map foldAscii, by rw [length_map]; exact label.nonempty,
    by rw [length_map]; exact label.short⟩

theorem Label.Plain.fold (h : label.Plain) : label.fold.Plain := by
  intro c hc
  obtain ⟨d, hd, rfl⟩ := mem_map.mp hc
  exact forall_byte (P := fun d => badCharacter d = false → badCharacter (foldAscii d) = false)
    (by decide +kernel) d (h d hd)

theorem encodeLabels_fold (labels : List Label) :
    encodeLabels (labels.map Label.fold) = (encodeLabels labels).map foldAscii := by
  induction labels with
  | nil => rfl
  | cons label labels ih =>
    have hbyte : ∀ k < 64, foldAscii (UInt8.ofNat k) = UInt8.ofNat k := by decide
    have hlen : label.fold.bytes.length = label.bytes.length := length_map ..
    rw [map_cons, encodeLabels, encodeLabels, ih, hlen, map_cons, map_append,
      hbyte _ (Nat.lt_succ_of_le label.short)]
    rfl

theorem dotted_fold (labels : List Label) :
    dotted (labels.map Label.fold) = (dotted labels).map foldAscii := by
  induction labels with
  | nil => rfl
  | cons label labels ih =>
    by_cases hrest : labels = []
    · rw [hrest, map_cons, map_nil, dotted_singleton, dotted_singleton]
      rfl
    · rw [map_cons, dotted_cons _ (by simpa using hrest), ih, dotted_cons _ hrest, map_append]
      rfl

/-- The text of labels determines their bytes, and the other way round. -/
theorem dotted_eq_iff {labels' : List Label} (h : Presentable labels) (h' : Presentable labels') :
    dotted labels = dotted labels' ↔ encodeLabels labels = encodeLabels labels' := by
  constructor
  · intro heq
    have hencode := encodeName_iff.mpr ⟨labels, h, Or.inl rfl, rfl, h.short⟩
    rw [heq, encodeName_iff.mpr ⟨labels', h', Or.inl rfl, rfl, h'.short⟩] at hencode
    exact (Option.some.inj hencode).symm
  intro heq
  have hdecode := h.decode h.room
  rw [heq, h'.decode h'.room] at hdecode
  exact (Prod.mk.inj (Option.some.inj hdecode)).1.symm

theorem Presentable.fold (h : Presentable labels) : Presentable (labels.map Label.fold) where
  nonempty := by simpa using h.nonempty
  plain l hl := by
    obtain ⟨label, hlabel, rfl⟩ := mem_map.mp hl
    exact (h.plain label hlabel).fold
  short := by
    rw [encodeLabels_fold, length_map]
    exact h.short

/-- The text of labels is a C string that fits a name buffer, with a dot at its end as well. -/
theorem Presentable.string (h : Presentable labels)
    (hname : name = dotted labels ∨ name = dotted labels ++ [0x2e]) :
    0 ∉ name ∧ name.length ≤ maxNameSize := by
  have hlen := length_dotted h.nonempty
  have hshort := h.short
  have hzero : ∀ labels : List Label, (∀ l ∈ labels, l.Plain) → 0 ∉ dotted labels := by
    intro labels hplain
    induction labels with
    | nil => exact not_mem_nil
    | cons label labels ih =>
      obtain ⟨hlabel, hrest⟩ := forall_mem_cons.mp hplain
      have hnone : 0 ∉ label.bytes := fun hmem => absurd (hlabel _ hmem) (by decide)
      by_cases hlast : labels = []
      · rwa [hlast, dotted_singleton]
      · rw [dotted_cons _ hlast]
        simp [hnone, ih hrest]
  rcases hname with rfl | rfl
  · exact ⟨hzero labels h.plain, by omega⟩
  refine ⟨by simp [hzero labels h.plain], ?_⟩
  rw [length_append, length_singleton]
  omega

/-- The comparison sees the text of an accepted name, in lower case. -/
theorem namesEqual_dotted {a b : Name} {labels' : List Label} (h : Presentable labels)
    (h' : Presentable labels') (ha : a = dotted labels ∨ a = dotted labels ++ [0x2e])
    (hb : b = dotted labels' ∨ b = dotted labels' ++ [0x2e]) :
    namesEqual a b = true ↔ (dotted labels).map foldAscii = (dotted labels').map foldAscii := by
  rw [namesEqual_iff (h.string ha).1 (h'.string hb).1 (h.string ha).2 (h'.string hb).2,
    undotted_of_text h.plain ha, undotted_of_text h'.plain hb]

/-- A name that `rin_dns_wire_encode_name` accepts. -/
def Accepted (name : Name) : Prop := ∃ capacity bytes, encodeName capacity name = some bytes

/-- The second byte is the lower case of the first, a letter from `A` to `Z`. -/
def Lowers (upper lower : UInt8) : Prop :=
  'A'.toNat ≤ upper.toNat ∧ upper.toNat ≤ 'Z'.toNat ∧ lower.toNat = upper.toNat + ('a'.toNat - 'A'.toNat)

/-- The same byte, ASCII letter case apart. -/
def SameLetter (x y : UInt8) : Prop := x = y ∨ Lowers x y ∨ Lowers y x

theorem map_foldAscii_eq_iff {x y : List UInt8} : x.map foldAscii = y.map foldAscii ↔ Forall₂ SameLetter x y := by
  have hbyte : ∀ c d, foldAscii c = foldAscii d ↔ SameLetter c d := by
    intro c d
    unfold foldAscii SameLetter Lowers
    simp only [Char.reduceToNat, UInt8.le_iff_toNat_le, ← UInt8.toNat_inj]
    split_ifs with hc hd hd <;> simp at * <;> omega
  rw [← forall₂_eq_eq_eq, forall₂_map_left_iff, forall₂_map_right_iff]
  simp only [hbyte]

/-- **Equal names have the same bytes on the wire, letter case apart**; so being equal is an equivalence of
accepted names. -/
theorem namesEqual_wire :
    (∀ {a b capacity capacity' x y}, encodeName capacity a = some x → encodeName capacity' b = some y →
      (namesEqual a b = true ↔ Forall₂ SameLetter x y)) ∧
    Equivalence fun a b : { name // Accepted name } => namesEqual a.1 b.1 = true := by
  have hwire : ∀ {a b capacity capacity' x y}, encodeName capacity a = some x →
      encodeName capacity' b = some y → (namesEqual a b = true ↔ x.map foldAscii = y.map foldAscii) := by
    intro a b capacity capacity' x y ha hb
    obtain ⟨labels, h, htext, rfl, _⟩ := encodeName_iff.mp ha
    obtain ⟨labels', h', htext', rfl, _⟩ := encodeName_iff.mp hb
    rw [namesEqual_dotted h h' htext htext', ← dotted_fold, ← dotted_fold, dotted_eq_iff h.fold h'.fold,
      encodeLabels_fold, encodeLabels_fold]
  refine ⟨fun ha hb => (hwire ha hb).trans map_foldAscii_eq_iff, ?_, ?_, ?_⟩
  · rintro ⟨a, _, x, ha⟩
    exact (hwire ha ha).mpr rfl
  · rintro ⟨a, _, x, ha⟩ ⟨b, _, y, hb⟩ h
    exact (hwire hb ha).mpr ((hwire ha hb).mp h).symm
  · rintro ⟨a, _, x, ha⟩ ⟨b, _, y, hb⟩ ⟨c, _, z, hc⟩ h h'
    exact (hwire ha hc).mpr (((hwire ha hb).mp h).trans ((hwire hb hc).mp h'))

/-- `A.` and `a` are equal; `[` and `{` are not, although their bytes are as far apart. -/
theorem namesEqual_wire_case : namesEqual [0x41, 0x2e] [0x61] = true ∧ namesEqual [0x5b] [0x7b] = false := by
  have hequal := @namesEqual_wire.1 [0x41, 0x2e] [0x61] 3 3 [1, 0x41, 0] [1, 0x61, 0] (by decide) (by decide)
  have hdiffer := @namesEqual_wire.1 [0x5b] [0x7b] 3 3 [1, 0x5b, 0] [1, 0x7b, 0] (by decide) (by decide)
  refine ⟨hequal.mpr ?_, Bool.eq_false_iff.mpr fun h => ?_⟩
  · exact .cons (.inl rfl) (.cons (.inr (.inl ⟨by decide, by decide, by decide⟩)) (.cons (.inl rfl) .nil))
  · obtain - | ⟨-, - | ⟨hbyte, -⟩⟩ := hdiffer.mp h
    rcases hbyte with hsame | ⟨-, hle, -⟩ | ⟨-, hle, -⟩
    · cases hsame
    · exact absurd hle (by decide)
    · exact absurd hle (by decide)

end RinRuntime.Dns

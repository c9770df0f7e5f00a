/-
Revocation.Cache — the cache of revocation evidence.

`rin_certificate_revocation_cache_put` stores admitted evidence for a pair of certificate and issuer: in
the slot of the pair if its evidence is older, else in an empty slot, else in the slot with the least
sequence number, if that is less than the new one. So the slots are a table that evicts its least entry,
and the sequence numbers of a pair increase over every run.
-/
import Mathlib.Algebra.Group.Nat.Defs
import RinRuntime.Lib.EvictMin
import RinRuntime.Revocation.Policy
import Mathlib.Data.List.Induction
import Mathlib.Data.Nat.Basic

namespace RinRuntime.Revocation
open Lib.EvictMin Option

/-! ## §1. The model. -/

/-- `UINT64_MAX`. -/
def uint64Max : UInt64 := 0xffffffffffffffff

/-- `RIN_CERTIFICATE_REVOCATION_CACHE_VERSION`. -/
def cacheVersion : UInt32 := 0x00010000

/-- `RIN_CERTIFICATE_REVOCATION_CACHE_CAPACITY`. -/
def cacheCapacity : Nat := 16

/-- `sizeof` of the cache. -/
def cacheSize : UInt32 := 3376

/-- `RinCertificateRevocationCacheSlotV1`. -/
structure Slot where
  active : UInt32
  reserved0 : UInt32
  certificate : Digest
  issuer : Digest
  evidence : Evidence
  deriving DecidableEq

/-- A slot of zeros. -/
def Slot.zero : Slot := ⟨0, 0, .zero, .zero, .zero⟩

/-- `RinCertificateRevocationCacheV1`. -/
structure Cache where
  structSize : UInt32
  version : UInt32
  generation : UInt64
  activeCount : UInt32
  reserved0 : UInt32
  nextSequence : UInt64
  slots : Vector Slot cacheCapacity
  reserved : UInt64 × UInt64
  deriving DecidableEq

/-- `RinCertificateRevocationCacheResult`. -/
inductive CacheResult where
  | ok
  | invalid
  | notFound
  | full
  | conflict
  | stale
  | future
  | revoked
  | unavailable
  deriving DecidableEq

/-- The tests of `cache_valid` on a slot. -/
def slotValid (nextSequence : UInt64) (slot : Slot) : Bool :=
  decide (slot.active ≤ 1 ∧ slot.reserved0 = 0) &&
  if slot.active = 0 then
    decide (slot.certificate = .zero ∧ slot.issuer = .zero ∧ slot.evidence = .zero)
  else
    decide (slot.certificate ≠ .zero ∧ slot.issuer ≠ .zero ∧ slot.evidence.structSize = evidenceSize ∧
      slot.evidence.version = revocationVersion ∧ slot.certificate = slot.evidence.certificateSha256 ∧
      slot.issuer = slot.evidence.issuerSha256 ∧ slot.evidence.sequence ≠ 0 ∧
      (nextSequence = uint64Max ∨ slot.evidence.sequence < nextSequence))

/-- Whether a slot is in use. -/
def Slot.isActive (slot : Slot) : Bool := decide (slot.active ≠ 0)

/-- `cache_valid`. -/
def cacheValid (cache : Cache) : Bool :=
  decide (cache.structSize = cacheSize ∧ cache.version = cacheVersion ∧ cache.generation ≠ 0 ∧
    cache.activeCount.toNat ≤ cacheCapacity ∧ cache.nextSequence ≠ 0 ∧ cache.reserved0 = 0 ∧
    cache.reserved = (0, 0)) &&
  cache.slots.toList.all (slotValid cache.nextSequence) &&
  decide (cache.slots.toList.countP Slot.isActive = cache.activeCount.toNat)

/-- `cache_map_validation`. -/
def mapValidation : Validation → CacheResult
  | .ok => .ok
  | .revoked => .revoked
  | .stale => .stale
  | .future => .future
  | .unavailable => .unavailable
  | .invalid => .invalid
  | .scopeMismatch => .invalid
  | .unsupported => .invalid

/-- `rin_certificate_revocation_cache_initialize`. -/
def cacheInitialize (generation : UInt64) : CacheResult × Cache :=
  let zero : Cache := ⟨0, 0, 0, 0, 0, 0, Vector.replicate cacheCapacity Slot.zero, (0, 0)⟩
  if generation = 0 then (.invalid, zero)
  else (.ok, { zero with
    structSize := cacheSize, version := cacheVersion, generation := generation, nextSequence := 1 })

/-- A call of `rin_certificate_revocation_cache_put` without a NULL argument. -/
structure PutCall where
  policy : Policy
  certificate : Digest
  issuer : Digest
  evidence : Evidence

/-- The slot is that of the pair. -/
def Slot.IsFor (slot : Slot) (certificate issuer : Digest) : Prop :=
  slot.active ≠ 0 ∧ slot.certificate = certificate ∧ slot.issuer = issuer

instance (slot : Slot) (certificate issuer : Digest) : Decidable (slot.IsFor certificate issuer) := by
  unfold Slot.IsFor; infer_instance

/-- `selected`, `oldest` and `oldest_sequence`; `none` is `CAPACITY`. -/
structure Search where
  selected : Option Nat
  oldest : Option Nat
  oldestSequence : UInt64

/-- The end of a round of the search, for a slot of another pair. -/
def Search.note (s : Search) (index : Nat) (slot : Slot) : Search :=
  if slot.active = 0 then { s with selected := s.selected.or (some index) }
  else if slot.evidence.sequence < s.oldestSequence then
    { s with oldest := some index, oldestSequence := slot.evidence.sequence }
  else s

/-- How the search ends: with a result, with the slot of the pair, or without one. -/
inductive Found where
  | answered (result : CacheResult)
  | known (index : Nat)
  | absent (s : Search)

/-- The loop of `rin_certificate_revocation_cache_put`. -/
def searchSlots (call : PutCall) (admitted : CacheResult) : List Slot → (index : Nat) → Search → Found
  | [], _, s => .absent s
  | slot :: rest, index, s =>
      if slot.IsFor call.certificate call.issuer then
        if call.evidence.sequence < slot.evidence.sequence then .answered .conflict
        else if call.evidence.sequence = slot.evidence.sequence then
          .answered (if slot.evidence = call.evidence then admitted else .conflict)
        else .known index
      else searchSlots call admitted rest (index + 1) (s.note index slot)

/-- The candidate of a call. -/
def PutCall.candidate (call : PutCall) : Slot := ⟨1, 0, call.certificate, call.issuer, call.evidence⟩

/-- Store the candidate in the selected slot. -/
def Cache.replace (cache : Cache) (call : PutCall) (index : Nat) (wasActive : Bool) : Cache :=
  { cache with
    slots := cache.slots.setIfInBounds index call.candidate
    activeCount := if wasActive then cache.activeCount else cache.activeCount + 1
    nextSequence :=
      if cache.nextSequence ≤ call.evidence.sequence then
        if call.evidence.sequence = uint64Max then uint64Max else call.evidence.sequence + 1
      else cache.nextSequence
    generation := cache.generation + 1 }

/-- The end of `rin_certificate_revocation_cache_put`, where a slot is selected. -/
def Cache.commit (cache : Cache) (call : PutCall) (admitted : CacheResult) (index : Nat)
    (wasActive : Bool) : CacheResult × Cache :=
  if cache.nextSequence = uint64Max ∨ cache.generation = uint64Max then (.invalid, cache)
  else (admitted, cache.replace call index wasActive)

/-- `rin_certificate_revocation_cache_put`, behind its tests for NULL. -/
def Cache.putCall (cache : Cache) (call : PutCall) : CacheResult × Cache :=
  if cacheValid cache = false ∨ policyValid call.policy = false ∨ call.certificate = .zero ∨
      call.issuer = .zero ∨ call.issuer ≠ call.evidence.issuerSha256 then (.invalid, cache)
  else
    let validation := validate call.policy call.certificate call.evidence
    if validation.admits = false then (mapValidation validation, cache)
    else
      match searchSlots call (mapValidation validation) cache.slots.toList 0 ⟨none, none, uint64Max⟩ with
      | .answered result => (result, cache)
      | .known index => cache.commit call (mapValidation validation) index true
      | .absent s =>
          match s.selected with
          | some index => cache.commit call (mapValidation validation) index false
          | none =>
              match s.oldest with
              | none => (.full, cache)
              | some index =>
                  if call.evidence.sequence ≤ s.oldestSequence then (.full, cache)
                  else cache.commit call (mapValidation validation) index true

/-- The arguments of `rin_certificate_revocation_cache_put`; `none` is NULL. -/
structure PutArguments where
  policy : Option Policy
  certificate : Option Digest
  issuer : Option Digest
  evidence : Option Evidence

def PutCall.arguments (call : PutCall) : PutArguments :=
  ⟨some call.policy, some call.certificate, some call.issuer, some call.evidence⟩

/-- `rin_certificate_revocation_cache_put`. -/
def Cache.put (cache : Cache) : PutArguments → CacheResult × Cache
  | ⟨some policy, some certificate, some issuer, some evidence⟩ =>
      cache.putCall ⟨policy, certificate, issuer, evidence⟩
  | _ => (.invalid, cache)

/-- The evidence the cache has for a pair. -/
def Cache.evidenceFor (cache : Cache) (certificate issuer : Digest) : Option Evidence :=
  (cache.slots.toList.find? fun slot => decide (slot.IsFor certificate issuer)).map Slot.evidence

/-- `rin_certificate_revocation_cache_lookup`: the result, and the evidence it hands out. -/
def Cache.lookup (cache : Cache) (policy : Policy) (certificate issuer : Digest) :
    CacheResult × Option Evidence :=
  if cacheValid cache = false ∨ policyValid policy = false ∨ certificate = .zero ∨ issuer = .zero then
    (.invalid, none)
  else
    match cache.evidenceFor certificate issuer with
    | none => (.notFound, none)
    | some evidence =>
        let validation := validate policy certificate evidence
        (mapValidation validation, if validation.admits = true then some evidence else none)

/-- A run of `put` calls. -/
def Cache.run (cache : Cache) (calls : List PutArguments) : Cache :=
  calls.foldl (fun cache call => (cache.put call).2) cache

/-! ## §2. The search. -/

/-- What the search knows about the slots it has passed. -/
structure Search.Describes (s : Search) (call : PutCall) (passed : List Slot) : Prop where
  other : ∀ slot ∈ passed, ¬ slot.IsFor call.certificate call.issuer
  selected : ∀ i, s.selected = some i → ∃ slot, passed[i]? = some slot ∧ slot.active = 0
  used : s.selected = none → ∀ slot ∈ passed, slot.active ≠ 0
  oldest : ∀ i, s.oldest = some i → ∃ slot, passed[i]? = some slot ∧ slot.active ≠ 0 ∧
    slot.evidence.sequence = s.oldestSequence
  least : ∀ slot ∈ passed, slot.active ≠ 0 → s.oldestSequence ≤ slot.evidence.sequence

variable {slot : Slot} {cache : Cache} {i : Fin cacheCapacity} {certificate issuer : Digest}

theorem Search.Describes.note {s : Search} {call : PutCall} {passed : List Slot}
    (h : s.Describes call passed) (hoth : ¬ slot.IsFor call.certificate call.issuer) :
    (s.note passed.length slot).Describes call (passed ++ [slot]) := by
  have hlast : (passed ++ [slot])[passed.length]? = some slot := List.getElem?_concat_length
  have hkeep : ∀ {i : Nat} {P : Slot → Prop}, (∃ x, passed[i]? = some x ∧ P x) →
      ∃ x, (passed ++ [slot])[i]? = some x ∧ P x := by
    rintro i P ⟨x, hx, hP⟩
    refine ⟨x, ?_, hP⟩
    rw [List.getElem?_append_left (List.getElem?_eq_some_iff.mp hx).1, hx]
  have hforall : ∀ {P : Slot → Prop}, (∀ x ∈ passed, P x) → P slot → ∀ x ∈ passed ++ [slot], P x := by
    intro P hpassed hslot x hx
    rcases List.mem_append.mp hx with hold | hnew
    · exact hpassed x hold
    · rw [List.mem_singleton.mp hnew]
      exact hslot
  unfold Search.note
  split_ifs with hact hless
  · refine ⟨hforall h.other hoth, ?_, ?_, ?_, hforall h.least fun hne => absurd hact hne⟩
    · intro i hi
      cases hsel : s.selected with
      | none =>
        rw [hsel] at hi
        have heq : passed.length = i := some.inj hi
        rw [← heq]
        exact ⟨slot, hlast, hact⟩
      | some k =>
        rw [hsel] at hi
        obtain rfl : k = i := some.inj hi
        exact hkeep (h.selected k hsel)
    · intro hnone
      cases hsel : s.selected with
      | none | some k =>
        rw [hsel] at hnone
        cases hnone
    · exact fun i hi => hkeep (h.oldest i hi)
  · refine ⟨hforall h.other hoth, fun i hi => hkeep (h.selected i hi),
      fun hnone => hforall (h.used hnone) hact, ?_, ?_⟩
    · intro i hi
      have heq : passed.length = i := some.inj hi
      rw [← heq]
      exact ⟨slot, hlast, hact, rfl⟩
    · refine hforall (fun x hx hne => ?_) fun _ => UInt64.le_refl _
      exact UInt64.le_trans (UInt64.le_of_lt hless) (h.least x hx hne)
  exact ⟨hforall h.other hoth, fun i hi => hkeep (h.selected i hi),
    fun hnone => hforall (h.used hnone) hact, fun i hi => hkeep (h.oldest i hi),
    hforall h.least fun _ => UInt64.not_lt.mp hless⟩

/-- **What the search finds.** -/
theorem searchSlots_spec {call : PutCall} {admitted : CacheResult} : ∀ {rest passed : List Slot} {s : Search},
    s.Describes call passed →
    match searchSlots call admitted rest passed.length s with
    | .answered _ => True
    | .known i => ∃ slot, (passed ++ rest)[i]? = some slot ∧ slot.IsFor call.certificate call.issuer ∧
        slot.evidence.sequence < call.evidence.sequence
    | .absent s' => s'.Describes call (passed ++ rest)
  | [], passed, s, h => by
    rw [List.append_nil]
    exact h
  | slot :: rest, passed, s, h => by
    unfold searchSlots
    split_ifs with hfor hless hsame
    · trivial
    · trivial
    · trivial
    · refine ⟨slot, ?_, hfor, UInt64.lt_of_le_of_ne (UInt64.not_lt.mp hless) (Ne.symm hsame)⟩
      rw [List.getElem?_append_right (Nat.le_refl _), Nat.sub_self]
      rfl
    have hnext := @searchSlots_spec call admitted rest _ _ (h.note hfor)
    rw [List.length_append, List.append_assoc] at hnext
    exact hnext

/-! ## §3. The slots as a table. -/

/-- Pairs of certificate and issuer. -/
abbrev Pair := Digest × Digest

/-- The pair and the sequence number of a slot in use. -/
def Slot.entry (slot : Slot) : Option (Pair × Nat) :=
  if slot.active = 0 then none else some ((slot.certificate, slot.issuer), slot.evidence.sequence.toNat)

/-- The table of a cache. -/
def Cache.table (cache : Cache) : Table (Fin cacheCapacity) Pair Nat := fun i => (cache.slots[i]).entry

theorem slot_at {i : Nat} (h : cache.slots.toList[i]? = some slot) :
    ∃ hi : i < cacheCapacity, cache.slots[(⟨i, hi⟩ : Fin cacheCapacity)] = slot := by
  obtain ⟨hi, hslot⟩ := List.getElem?_eq_some_iff.mp h
  rw [Vector.length_toList] at hi
  refine ⟨hi, ?_⟩
  rw [Vector.getElem_toList] at hslot
  exact hslot

theorem mem_slots (cache : Cache) (i : Fin cacheCapacity) : cache.slots[i] ∈ cache.slots.toList := by
  rw [Vector.mem_toList_iff]
  exact Vector.getElem_mem _

theorem isFor_of_entry {pair : Pair} {r : Nat} (h : slot.entry = some (pair, r)) :
    slot.IsFor pair.1 pair.2 ∧ slot.evidence.sequence.toNat = r := by
  unfold Slot.entry at h
  split at h
  · cases h
  next hact =>
  obtain ⟨rfl, rfl⟩ := Prod.mk.inj (some.inj h)
  exact ⟨⟨hact, rfl, rfl⟩, rfl⟩

theorem entry_of_active (h : slot.active ≠ 0) :
    slot.entry = some ((slot.certificate, slot.issuer), slot.evidence.sequence.toNat) := if_neg h

/-- Storing a candidate stores its pair and sequence number. -/
theorem table_replace (cache : Cache) (call : PutCall) (i : Fin cacheCapacity) (wasActive : Bool) :
    (cache.replace call i wasActive).table
      = cache.table.store i (call.certificate, call.issuer) call.evidence.sequence.toNat := by
  funext j
  show ((cache.slots.setIfInBounds i call.candidate)[j]).entry = _
  by_cases hji : j = i
  · subst hji
    rw [store_same]
    have hget : (cache.slots.setIfInBounds j call.candidate)[j] = call.candidate := by simp
    rw [hget]
    rfl
  rw [store_other _ _ _ hji]
  have hne : (i : Nat) ≠ j := fun heq => hji (Fin.ext heq.symm)
  have hget : (cache.slots.setIfInBounds i call.candidate)[j] = cache.slots[j] := by
    simp [hne]
  rw [hget]
  rfl

/-- What has been tested when a slot is selected. -/
structure PutCall.Admitted (call : PutCall) (cache : Cache) : Prop where
  valid : cacheValid cache = true
  certificate : call.certificate ≠ .zero
  issuer : call.issuer ≠ .zero
  sameIssuer : call.issuer = call.evidence.issuerSha256
  admits : (validate call.policy call.certificate call.evidence).admits = true

/-- An admitted call has written to the table of the slots. -/
def Cache.Written (cache : Cache) (call : PutCall) (next : Cache) : Prop :=
  ∃ i : Fin cacheCapacity, call.Admitted cache ∧
    (cache.nextSequence ≠ uint64Max ∧ cache.generation ≠ uint64Max) ∧
    Write cache.table (call.certificate, call.issuer) call.evidence.sequence.toNat i ∧
    next = cache.replace call i (decide (cache.slots[i].active ≠ 0))

theorem commit_written {call : PutCall} (hcall : call.Admitted cache) (admitted : CacheResult)
    {wasActive : Bool}
    (hwrite : Write cache.table (call.certificate, call.issuer) call.evidence.sequence.toNat i)
    (hact : wasActive = decide (cache.slots[i].active ≠ 0)) :
    (cache.commit call admitted i wasActive).2 = cache ∨
      cache.Written call (cache.commit call admitted i wasActive).2 := by
  unfold Cache.commit
  split
  · exact .inl rfl
  next hroom =>
  rw [not_or] at hroom
  exact .inr ⟨i, hcall, hroom, hwrite, by rw [hact]⟩

/-- **What a call does**: nothing, or a write to the table of the slots. -/
theorem putCall_written (cache : Cache) (call : PutCall) :
    (cache.putCall call).2 = cache ∨ cache.Written call (cache.putCall call).2 := by
  unfold Cache.putCall
  split
  · exact .inl rfl
  next hargs =>
  dsimp only
  split
  · exact .inl rfl
  next hadmits =>
  simp only [not_or, ne_eq, Decidable.not_not, Bool.not_eq_false] at hargs hadmits
  have hcall : call.Admitted cache := ⟨hargs.1, hargs.2.2.1, hargs.2.2.2.1, hargs.2.2.2.2, hadmits⟩
  have hstart : (⟨none, none, uint64Max⟩ : Search).Describes call [] := by
    refine ⟨?_, ?_, ?_, ?_, ?_⟩ <;> simp
  have hsearch := @searchSlots_spec call
    (mapValidation (validate call.policy call.certificate call.evidence)) cache.slots.toList [] _ hstart
  rw [List.nil_append, List.length_nil] at hsearch
  -- without a slot of the pair in the cache, the pair is absent from the table
  have habs : ∀ s : Search, s.Describes call cache.slots.toList →
      cache.table.Absent (call.certificate, call.issuer) := by
    intro s hs i r hi
    exact hs.other _ (mem_slots cache i) (isFor_of_entry hi).1
  split
  · exact .inl rfl
  · next index hfound =>
    rw [hfound] at hsearch
    obtain ⟨slot, hslot, hfor, hless⟩ := hsearch
    obtain ⟨hi, rfl⟩ := slot_at hslot
    refine commit_written (i := ⟨index, hi⟩) hcall _
      (.raise (cache.slots[(⟨index, hi⟩ : Fin cacheCapacity)].evidence.sequence.toNat) ?_ hless)
      (decide_eq_true hfor.1).symm
    show Slot.entry _ = _
    rw [entry_of_active hfor.1, hfor.2.1, hfor.2.2]
  next s hfound =>
  rw [hfound] at hsearch
  have hs : s.Describes call cache.slots.toList := hsearch
  split
  · next index hsel =>
    obtain ⟨slot, hslot, hzero⟩ := hs.selected index hsel
    obtain ⟨hi, rfl⟩ := slot_at hslot
    refine commit_written (i := ⟨index, hi⟩) hcall _ (.insert ?_ (habs s hs))
      (decide_eq_false (not_not.mpr hzero)).symm
    exact if_pos hzero
  next hsel =>
  split
  · exact .inl rfl
  next index holdest =>
  split
  · exact .inl rfl
  next hgreater =>
  obtain ⟨slot, hslot, hact, hseq⟩ := hs.oldest index holdest
  obtain ⟨hi, rfl⟩ := slot_at hslot
  refine commit_written (i := ⟨index, hi⟩) hcall _ (.evict ?_ (habs s hs) _ _
    (entry_of_active hact) ?_ ?_) (decide_eq_true hact).symm
  · intro j hj
    have hused := hs.used hsel _ (mem_slots cache j)
    rw [show cache.table j = _ from entry_of_active hused] at hj
    cases hj
  · intro j pair r hj
    obtain ⟨hfor, rfl⟩ := isFor_of_entry hj
    rw [hseq]
    exact hs.least _ (mem_slots cache j) hfor.1
  · rw [hseq]
    exact UInt64.not_le.mp hgreater

/-! ## §4. Validity. -/

theorem cacheValid_iff : cacheValid cache = true ↔
    (cache.structSize = cacheSize ∧ cache.version = cacheVersion ∧ cache.generation ≠ 0 ∧
      cache.activeCount.toNat ≤ cacheCapacity ∧ cache.nextSequence ≠ 0 ∧ cache.reserved0 = 0 ∧
      cache.reserved = (0, 0)) ∧ (∀ slot ∈ cache.slots.toList, slotValid cache.nextSequence slot = true) ∧
    cache.slots.toList.countP Slot.isActive = cache.activeCount.toNat := by
  unfold cacheValid
  rw [Bool.and_eq_true, Bool.and_eq_true, decide_eq_true_eq, decide_eq_true_eq, List.all_eq_true, and_assoc]

theorem slotValid_mono {next next' : UInt64} (h : slotValid next slot = true)
    (hnext : next' = uint64Max ∨ next ≤ next') (hne : next ≠ uint64Max) : slotValid next' slot = true := by
  unfold slotValid at h ⊢
  rw [Bool.and_eq_true] at h ⊢
  refine ⟨h.1, ?_⟩
  by_cases hact : slot.active = 0
  · rw [if_pos hact] at h ⊢
    exact h.2
  have htests := h.2
  rw [if_neg hact, decide_eq_true_eq] at htests ⊢
  obtain ⟨hcert, hissuer, hsize, hver, hsame, hsame', hseq, hbound⟩ := htests
  refine ⟨hcert, hissuer, hsize, hver, hsame, hsame', hseq, ?_⟩
  rcases hbound with hmax | hless
  · exact absurd hmax hne
  rcases hnext with hmax | hle
  · exact .inl hmax
  · exact .inr (UInt64.lt_of_lt_of_le hless hle)

/-- A number that is not the greatest has a successor. -/
theorem toNat_succ {n : UInt64} (h : n ≠ uint64Max) : (n + 1).toNat = n.toNat + 1 := by
  have hlt : n.toNat < 2 ^ 64 := n.toNat_lt
  have hne : n.toNat ≠ 2 ^ 64 - 1 := fun heq => h (UInt64.toNat_inj.mp heq)
  rw [UInt64.toNat_add]
  exact Nat.mod_eq_of_lt (by show n.toNat + 1 < 2 ^ 64; omega)

/-- `next_sequence` does not decrease, and bounds the new evidence. -/
theorem replace_nextSequence (cache : Cache) (call : PutCall) (index : Nat) (wasActive : Bool) :
    ((cache.replace call index wasActive).nextSequence = uint64Max ∨
      cache.nextSequence ≤ (cache.replace call index wasActive).nextSequence) ∧
    ((cache.replace call index wasActive).nextSequence = uint64Max ∨
      call.evidence.sequence < (cache.replace call index wasActive).nextSequence) := by
  unfold Cache.replace
  dsimp only
  split_ifs with hle hmax
  · exact ⟨.inl rfl, .inl rfl⟩
  · have hsucc := toNat_succ hmax
    have hle' : cache.nextSequence.toNat ≤ call.evidence.sequence.toNat := hle
    refine ⟨.inr ?_, .inr ?_⟩
    · rw [UInt64.le_iff_toNat_le]
      omega
    · rw [UInt64.lt_iff_toNat_lt]
      omega
  · exact ⟨.inr (UInt64.le_refl _), .inr (UInt64.not_le.mp hle)⟩

theorem replace_slots (cache : Cache) (call : PutCall) (index : Nat) (wasActive : Bool) :
    (cache.replace call index wasActive).slots.toList = cache.slots.toList.set index call.candidate :=
  Vector.toList_setIfInBounds ..

/-- `active_count` stays the number of slots in use. -/
theorem replace_activeCount (call : PutCall) (i : Fin cacheCapacity)
    (hcnt : cache.slots.toList.countP Slot.isActive = cache.activeCount.toNat) :
    (cache.slots.toList.set i call.candidate).countP Slot.isActive
      = (cache.replace call i (decide (cache.slots[i].active ≠ 0))).activeCount.toNat := by
  have hidx : (i : Nat) < cache.slots.toList.length := by
    rw [Vector.length_toList]
    exact i.isLt
  have hslot : cache.slots.toList[(i : Nat)] = cache.slots[i] := Vector.getElem_toList _
  have hle : cache.slots.toList.countP Slot.isActive ≤ cache.slots.toList.length := List.countP_le_length
  have hone := @List.boole_getElem_le_countP _ Slot.isActive cache.slots.toList i hidx
  rw [Vector.length_toList] at hle
  rw [List.countP_set hidx, if_pos (show Slot.isActive call.candidate = true from rfl)]
  rw [hslot] at hone ⊢
  show _ = UInt32.toNat (if decide (cache.slots[i].active ≠ 0) = true then cache.activeCount
    else cache.activeCount + 1)
  by_cases hact : cache.slots[i].active ≠ 0
  · have htrue : cache.slots[i].isActive = true := decide_eq_true hact
    rw [if_pos htrue] at hone
    rw [if_pos htrue, if_pos (decide_eq_true hact), ← hcnt]
    exact Nat.sub_add_cancel hone
  have hfalse : ¬ decide (cache.slots[i].active ≠ 0) = true := by
    rw [decide_eq_true_eq]
    exact hact
  rw [if_neg (show ¬ cache.slots[i].isActive = true from hfalse), if_neg hfalse, UInt32.toNat_add,
    ← hcnt]
  -- at most sixteen slots are in use, so the counter does not wrap
  have hsmall : cache.slots.toList.countP Slot.isActive ≤ 16 := hle
  exact (Nat.mod_eq_of_lt (by show _ + 1 < 2 ^ 32; omega)).symm

theorem put_written (cache : Cache) (arguments : PutArguments) : (cache.put arguments).2 = cache ∨
    ∃ call : PutCall, arguments = call.arguments ∧ cache.Written call (cache.put arguments).2 := by
  unfold Cache.put
  split
  · exact (putCall_written cache _).imp_right fun h => ⟨_, rfl, h⟩
  · exact .inl rfl

/-- **Calls keep the cache valid.** -/
theorem put_valid (arguments : PutArguments) (hval : cacheValid cache = true) :
    cacheValid (cache.put arguments).2 = true := by
  rcases put_written cache arguments with hsame | ⟨call, -, i, hcall, hroom, -, hnext⟩
  · rw [hsame]
    exact hval
  obtain ⟨⟨hsize, hver, -, -, hseq, hresv0, hresv⟩, hslots, hact⟩ :=
    cacheValid_iff.mp hval
  obtain ⟨hev, hevidenceVersion, hnonzero, hcert⟩ := validate_admits hcall.admits
  have hgen := toNat_succ hroom.2
  obtain ⟨hgrows, hbounds⟩ :=
    replace_nextSequence cache call i (decide (cache.slots[i].active ≠ 0))
  have hcnt := replace_activeCount call i hact
  rw [hnext, cacheValid_iff, replace_slots]
  refine ⟨⟨hsize, hver, ?_, ?_, ?_, hresv0, hresv⟩, ?_, hcnt⟩
  · intro hzero
    have hnat : (cache.generation + 1).toNat = 0 := congrArg UInt64.toNat hzero
    omega
  · rw [← hcnt]
    refine Nat.le_trans List.countP_le_length ?_
    rw [List.length_set, Vector.length_toList]
  · intro hzero
    rw [hzero] at hgrows
    rcases hgrows with hmax | hle
    · exact absurd hmax (by decide)
    · exact hseq (UInt64.le_zero_iff.mp hle)
  intro slot hslot
  rcases List.mem_or_eq_of_mem_set hslot with hold | rfl
  · exact slotValid_mono (hslots slot hold) hgrows hroom.1
  have hused : ¬ call.candidate.active = 0 := (by decide : ¬ (1 : UInt32) = 0)
  unfold slotValid
  rw [Bool.and_eq_true, if_neg hused, decide_eq_true_eq, decide_eq_true_eq]
  exact ⟨⟨UInt32.le_refl 1, rfl⟩, hcall.certificate, hcall.issuer, hev, hevidenceVersion,
    hcert.symm, hcall.sameIssuer, hnonzero, hbounds⟩

/-! ## §5. Runs. -/

theorem run_append (cache : Cache) (calls : List PutArguments) (call : PutArguments) :
    cache.run (calls ++ [call]) = ((cache.run calls).put call).2 := by
  unfold Cache.run
  rw [List.foldl_append]
  rfl

theorem run_valid (hval : cacheValid cache = true) (calls : List PutArguments) :
    cacheValid (cache.run calls) = true := by
  induction calls using List.reverseRecOn with
  | nil => exact hval
  | append_singleton calls call ih =>
    rw [run_append]
    exact put_valid call ih

theorem run_steps (cache : Cache) (calls : List PutArguments) :
    Relation.ReflTransGen Step cache.table (cache.run calls).table := by
  induction calls using List.reverseRecOn with
  | nil => exact .refl
  | append_singleton calls call ih =>
    rw [run_append]
    rcases put_written (cache.run calls) call with hsame | ⟨_, -, i, -, -, hwrite, hnext⟩
    · rw [hsame]
      exact ih
    · rw [hnext, table_replace]
      exact ih.tail ⟨_, _, i, hwrite, rfl⟩

/-- The cache of `rin_certificate_revocation_cache_initialize` is valid, and its slots are empty. -/
theorem initialized {generation : UInt64} {start : Cache} (h : cacheInitialize generation = (.ok, start)) :
    cacheValid start = true ∧ ∀ i, start.table i = none := by
  unfold cacheInitialize at h
  split_ifs at h with hzero
  · cases h
  cases h
  refine ⟨?_, fun i => ?_⟩
  · rw [cacheValid_iff]
    refine ⟨⟨rfl, rfl, hzero, Nat.zero_le _, (by decide : (1 : UInt64) ≠ 0), rfl, rfl⟩, ?_, ?_⟩
    · intro slot hslot
      rw [Vector.toList_replicate] at hslot
      rw [List.eq_of_mem_replicate hslot]
      exact (by decide : slotValid 1 Slot.zero = true)
    · exact (by decide : (Vector.replicate cacheCapacity Slot.zero).toList.countP Slot.isActive = 0)
  show Slot.entry (Vector.replicate cacheCapacity Slot.zero)[i] = none
  simp
  rfl

theorem table_of_isFor (h : (cache.slots[i]).IsFor certificate issuer) :
    cache.table i = some ((certificate, issuer), (cache.slots[i]).evidence.sequence.toNat) := by
  obtain ⟨hact, rfl, rfl⟩ := h
  exact entry_of_active hact

/-- The evidence for a pair is that of a slot of the pair. -/
theorem evidenceFor_slot {evidence : Evidence} (h : cache.evidenceFor certificate issuer = some evidence) :
    ∃ i : Fin cacheCapacity, (cache.slots[i]).IsFor certificate issuer ∧ (cache.slots[i]).evidence = evidence := by
  obtain ⟨slot, hfind, hev⟩ := map_eq_some_iff.mp h
  obtain ⟨i, hi⟩ := List.mem_iff_getElem?.mp (List.mem_of_find?_eq_some hfind)
  obtain ⟨hlt, rfl⟩ := slot_at hi
  have hfor := List.find?_some hfind
  rw [decide_eq_true_eq] at hfor
  exact ⟨⟨i, hlt⟩, hfor, hev⟩

theorem evidenceFor_eq (huniq : cache.table.Unique) (h : (cache.slots[i]).IsFor certificate issuer) :
    cache.evidenceFor certificate issuer = some (cache.slots[i]).evidence := by
  cases hcase : cache.evidenceFor certificate issuer with
  | none =>
    rw [Cache.evidenceFor, map_eq_none_iff, List.find?_eq_none] at hcase
    exact absurd (decide_eq_true h) (hcase _ (mem_slots cache i))
  | some evidence =>
    obtain ⟨j, hj, rfl⟩ := evidenceFor_slot hcase
    rw [huniq j i _ _ _ (table_of_isFor hj) (table_of_isFor h)]

/-- **A change of a pair's evidence is a write for the pair.** -/
theorem put_changes {arguments : PutArguments} (huniq : cache.table.Unique) {evidence : Evidence}
    (hnext : (cache.put arguments).2.evidenceFor certificate issuer = some evidence)
    (hchg : cache.evidenceFor certificate issuer ≠ some evidence) :
    ∃ i, Write cache.table (certificate, issuer) evidence.sequence.toNat i := by
  rcases put_written cache arguments with hsame | ⟨call, -, i, -, -, hwrite, hrepl⟩
  · rw [hsame] at hnext
    exact absurd hnext hchg
  rw [hrepl] at hnext
  obtain ⟨j, hfor, hev⟩ := evidenceFor_slot hnext
  have hslot : (cache.replace call i (decide (cache.slots[i].active ≠ 0))).slots[j]
      = (cache.slots.setIfInBounds i call.candidate)[j] := rfl
  rw [hslot] at hfor hev
  by_cases hji : j = i
  · have hget : (cache.slots.setIfInBounds i call.candidate)[j] = call.candidate := by simp [hji]
    rw [hget] at hfor hev
    obtain ⟨-, rfl, rfl⟩ := hfor
    subst hev
    exact ⟨i, hwrite⟩
  -- a slot the call leaves alone had the evidence before
  have hne : (i : Nat) ≠ j := fun heq => hji (Fin.ext heq.symm)
  have hget : (cache.slots.setIfInBounds i call.candidate)[j] = cache.slots[j] := by simp [hne]
  rw [hget] at hfor hev
  rw [evidenceFor_eq huniq hfor, hev] at hchg
  exact absurd rfl hchg

/-- **Sequence numbers increase over every run.** From a new cache, over any calls, the cache is valid and
a pair has at most one slot; evidence the pair ever had has a lesser sequence number than evidence a later
call gives it, also if the pair was evicted in between; so evidence is never followed by older evidence. -/
theorem run_sequences_increase {generation : UInt64} {start : Cache}
    (hstart : cacheInitialize generation = (.ok, start)) (before middle : List PutArguments) :
    cacheValid (start.run before) = true ∧ (∀ (i j : Fin cacheCapacity) (certificate issuer : Digest),
      ((start.run before).slots[i]).IsFor certificate issuer →
      ((start.run before).slots[j]).IsFor certificate issuer → i = j) ∧
    ∀ (certificate issuer : Digest) (evidence : Evidence),
      (start.run before).evidenceFor certificate issuer = some evidence →
      (∀ (call : PutArguments) (evidence' : Evidence),
        (((start.run before).run middle).put call).2.evidenceFor certificate issuer = some evidence' →
        ((start.run before).run middle).evidenceFor certificate issuer ≠ some evidence' →
        evidence.sequence < evidence'.sequence) ∧
      ∀ evidence' : Evidence, ((start.run before).run middle).evidenceFor certificate issuer = some evidence' →
        evidence' = evidence ∨ evidence.sequence < evidence'.sequence := by
  obtain ⟨hval, hnil⟩ := initialized hstart
  have hnew : start.table.Unique := by
    intro i j k r r' hi
    rw [hnil i] at hi
    cases hi
  have huniq : (start.run before).table.Unique := unique_of_steps (run_steps start before) hnew
  -- a change after any calls is a write, so the library's rule applies
  have hchg : ∀ (certificate issuer : Digest) (evidence : Evidence),
      (start.run before).evidenceFor certificate issuer = some evidence →
      ∀ (calls : List PutArguments) (call : PutArguments) (evidence' : Evidence),
      (((start.run before).run calls).put call).2.evidenceFor certificate issuer = some evidence' →
      ((start.run before).run calls).evidenceFor certificate issuer ≠ some evidence' →
      evidence.sequence < evidence'.sequence := by
    intro certificate issuer evidence hheld calls call evidence' hnext hdiffers
    obtain ⟨i, hfor, rfl⟩ := evidenceFor_slot hheld
    have hsteps := run_steps (start.run before) calls
    obtain ⟨j, hwrite⟩ := put_changes (unique_of_steps hsteps huniq) hnext hdiffers
    exact UInt64.lt_iff_toNat_lt.mpr (rank_lt_of_steps huniq (table_of_isFor hfor) hsteps hwrite)
  refine ⟨run_valid hval before, ?_, ?_⟩
  · intro i j certificate issuer hi hj
    exact huniq i j _ _ _ (table_of_isFor hi) (table_of_isFor hj)
  intro certificate issuer evidence hheld
  refine ⟨hchg certificate issuer evidence hheld middle, ?_⟩
  induction middle using List.reverseRecOn with
  | nil =>
    intro evidence' hsame
    exact .inl (Option.some.inj (hsame.symm.trans hheld))
  | append_singleton calls call ih =>
    intro evidence' hlater
    rw [run_append] at hlater
    by_cases hbef : ((start.run before).run calls).evidenceFor certificate issuer = some evidence'
    · exact ih evidence' hbef
    · exact .inr (hchg certificate issuer evidence hheld calls call evidence' hlater hbef)

/-- The digest of one repeated byte. -/
def digestOf (byte : UInt8) : Digest := Vector.replicate 32 byte

/-- Evidence of an OCSP responder that a certificate is revoked. -/
def revokedEvidence (byte : UInt8) (sequence : UInt64) : Evidence :=
  ⟨evidenceSize, revocationVersion, 2, 1, evidenceRequired, 0, 900, 1100, 950, digestOf byte, digestOf 255,
    sequence, (0, 0)⟩

def samplePolicy : Policy := ⟨56, revocationVersion, 1000, 604800, 2592000, evidenceRequired, 0, (0, 0)⟩

/-- A call with that evidence. -/
def putOf (byte : UInt8) (sequence : UInt64) : PutArguments :=
  ⟨samplePolicy, digestOf byte, digestOf 255, revokedEvidence byte sequence⟩

/-- Calls for sixteen other certificates. -/
def sixteenOthers : List PutArguments :=
  (List.range 16).map fun n => putOf (UInt8.ofNat (n + 2)) (UInt64.ofNat (n + 2))

/-- A certificate is revoked, evicted by sixteen others, and revoked again. -/
theorem run_sequences_increase_evicted :
    ((cacheInitialize 1).2.run [putOf 1 1]).evidenceFor (digestOf 1) (digestOf 255)
      = some (revokedEvidence 1 1) ∧
    (((cacheInitialize 1).2.run [putOf 1 1]).run sixteenOthers).evidenceFor (digestOf 1) (digestOf 255)
      = none ∧ (revokedEvidence 1 1).sequence < (revokedEvidence 1 40).sequence := by
  have hheld : ((cacheInitialize 1).2.run [putOf 1 1]).evidenceFor (digestOf 1) (digestOf 255)
      = some (revokedEvidence 1 1) := by decide +kernel
  have hevicted : (((cacheInitialize 1).2.run [putOf 1 1]).run sixteenOthers).evidenceFor (digestOf 1)
      (digestOf 255) = none := by decide +kernel
  have hnext : ((((cacheInitialize 1).2.run [putOf 1 1]).run sixteenOthers).put (putOf 1 40)).2.evidenceFor
      (digestOf 1) (digestOf 255) = some (revokedEvidence 1 40) := by decide +kernel
  have hrun := @run_sequences_increase 1 (cacheInitialize 1).2 rfl [putOf 1 1] sixteenOthers
  refine ⟨hheld, hevicted, (hrun.2.2 _ _ _ hheld).1 (putOf 1 40) _ hnext ?_⟩
  rw [hevicted]
  intro h
  cases h

/-! ## §6. Lookups. -/

/-- The slot is empty, or a call brought what it holds, admitted by the policy of the call. -/
def Slot.BroughtBy (slot : Slot) (calls : List PutArguments) : Prop :=
  slot.active ≠ 0 → ∃ call : PutCall, call.arguments ∈ calls ∧ slot = call.candidate ∧
    (validate call.policy call.certificate call.evidence).admits = true

/-- A call keeps what was brought, or brings its own. -/
theorem put_broughtBy {calls : List PutArguments} (arguments : PutArguments)
    (h : ∀ i : Fin cacheCapacity, (cache.slots[i]).BroughtBy calls) (i : Fin cacheCapacity) :
    ((cache.put arguments).2.slots[i]).BroughtBy (calls ++ [arguments]) := by
  have hkept : (cache.slots[i]).BroughtBy (calls ++ [arguments]) := fun hact =>
    (h i hact).imp fun _ hcall => ⟨List.mem_append_left _ hcall.1, hcall.2⟩
  rcases put_written cache arguments with hsame | ⟨call, rfl, j, hcall, -, -, hrepl⟩
  · rw [hsame]
    exact hkept
  rw [hrepl]
  show ((cache.slots.setIfInBounds j call.candidate)[i]).BroughtBy _
  by_cases hij : j = i
  · have hget : (cache.slots.setIfInBounds j call.candidate)[i] = call.candidate := by simp [hij]
    exact fun _ => ⟨call, List.mem_append_right _ (List.mem_singleton_self _), hget, hcall.admits⟩
  have hne : (j : Nat) ≠ i := fun heq => hij (Fin.ext heq)
  have hget : (cache.slots.setIfInBounds j call.candidate)[i] = cache.slots[i] := by simp [hne]
  rw [hget]
  exact hkept

theorem run_broughtBy (hnil : ∀ i, cache.table i = none) (calls : List PutArguments) :
    ∀ i : Fin cacheCapacity, ((cache.run calls).slots[i]).BroughtBy calls := by
  induction calls using List.reverseRecOn with
  | nil =>
    intro i hact
    have hent : ((cache.run []).slots[i]).entry = none := hnil i
    rw [entry_of_active hact] at hent
    cases hent
  | append_singleton calls call ih =>
    rw [run_append]
    exact put_broughtBy call ih

/-- **What a lookup hands out.** After any run from a new cache, evidence that a lookup hands out for a pair
is admitted by the policy of the lookup, and a call of the run for this very pair brought it, admitted by its
own policy. -/
theorem lookup_hands_out {generation : UInt64} {start : Cache} {policy : Policy} {evidence : Evidence}
    (hstart : cacheInitialize generation = (.ok, start)) (calls : List PutArguments)
    (hlookup : ((start.run calls).lookup policy certificate issuer).2 = some evidence) :
    (validate policy certificate evidence).admits = true ∧ ∃ call ∈ calls,
      call.certificate = some certificate ∧ call.issuer = some issuer ∧ call.evidence = some evidence ∧
      ∃ own, call.policy = some own ∧ (validate own certificate evidence).admits = true := by
  unfold Cache.lookup at hlookup
  split at hlookup
  · cases hlookup
  split at hlookup
  · cases hlookup
  next found hfound =>
  dsimp only at hlookup
  split at hlookup
  · next hadmits =>
    cases hlookup
    obtain ⟨i, ⟨hact, rfl, rfl⟩, rfl⟩ := evidenceFor_slot hfound
    obtain ⟨call, hmem, hslot, hadmits'⟩ := run_broughtBy (initialized hstart).2 calls i hact
    rw [hslot] at hadmits ⊢
    exact ⟨hadmits, call.arguments, hmem, rfl, rfl, rfl, call.policy, rfl, hadmits'⟩
  · cases hlookup

/-- The last of several revoked certificates is looked up. -/
theorem lookup_hands_out_revoked : ∃ call ∈ sixteenOthers, call.evidence = some (revokedEvidence 17 17) := by
  have hlookup : (((cacheInitialize 1).2.run sixteenOthers).lookup samplePolicy (digestOf 17)
      (digestOf 255)).2 = some (revokedEvidence 17 17) := by decide +kernel
  obtain ⟨-, call, hmem, -, -, hev, -⟩ :=
    lookup_hands_out (rfl : cacheInitialize 1 = (.ok, (cacheInitialize 1).2)) _ hlookup
  exact ⟨call, hmem, hev⟩

end RinRuntime.Revocation

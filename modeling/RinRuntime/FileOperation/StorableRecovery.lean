/-
FileOperation.StorableRecovery — the recovery saves only records that can be stored.

One lemma for each change of the record. The walk through the recovery (`Follow`) then leads from a
record that can be stored to one that can be stored.
-/
import RinRuntime.FileOperation.Trail
import RinRuntime.FileOperation.Kept

namespace RinRuntime.FileOperation
open Lib Watch

/-! ## §1. Changes of the record. -/
section
variable {kind : OperationKind} {plan : List Entry} {op : Operation}

theorem Storable.setEntry (h : Storable kind plan op) (i : Nat) {f : Entry → Entry}
    (hf : ∀ planned, StorableEntry planned (op.entry i) → StorableEntry planned (f (op.entry i))) :
    Storable kind plan (op.setEntry i f) := by
  refine { h with count := ?_, entries := fun k hk => ?_ }
  · rw [Operation.entryCount_setEntry]
    exact h.count
  by_cases hki : k = i
  · subst hki
    rw [Operation.entry_setEntry_self (by rw [h.count]; exact hk)]
    exact hf _ (h.entries k hk)
  · rw [Operation.entry_setEntry_ne hki]
    exact h.entries k hk

/-- A change outside the entries, the counters and the temporary file. -/
theorem Storable.of_fields {op' : Operation} (h : Storable kind plan op)
    (hoperation : op'.operation = op.operation) (hact : op'.active = true)
    (hents : op'.entries = op.entries) (hidx : op'.entryIndex ≤ plan.length)
    (hcre : op'.temporaryCreated = op.temporaryCreated)
    (hpath : op'.temporaryPath = op.temporaryPath)
    (hidentity : op'.temporaryIdentity = op.temporaryIdentity)
    (hcleanup : op'.temporaryCleanupState = op.temporaryCleanupState) : Storable kind plan op' where
  operation := hoperation.trans h.operation
  active := hact
  count := by
    have hcnt : op'.entryCount = op.entryCount := congrArg List.length hents
    exact hcnt.trans h.count
  index := hidx
  entries k hk := by
    have hent : op'.entry k = op.entry k := by
      unfold Operation.entry
      rw [hents]
    rw [hent]
    exact h.entries k hk
  temporary := by
    rw [hcre, hpath, hidentity]
    exact h.temporary
  idle := by
    rw [hcre, hcleanup]
    exact h.idle
  sync := by
    rw [hcleanup]
    exact h.sync

/-- A slot whose state may change: the temporary file has to exist. -/
def Slot.Busy (op : Operation) : Slot → Prop
  | .temporary => op.temporaryCreated = true
  | .entry _ => True

theorem Storable.slotCleanup (h : Storable kind plan op) {slot : Slot} (hbusy : slot.Busy op)
    {c : CleanupState} (hc : c.pastSync = false) : Storable kind plan (slot.setCleanup c op) := by
  cases slot with
  | entry i =>
    refine h.setEntry i fun planned he => ?_
    exact { he with }
  | temporary =>
    have hcre : op.temporaryCreated = true := hbusy
    refine { h with idle := fun hidle => ?_, sync := hc }
    have hidle : op.temporaryCreated = false := hidle
    rw [hcre] at hidle
    cases hidle

theorem identityIntentValid_of_valid {id : Identity} (h : identityValid id = true) :
    identityIntentValid id = true := by
  unfold identityIntentValid
  rw [h]
  rfl

theorem Storable.slotIdentity (h : Storable kind plan op) (slot : Slot) {id : Identity}
    (hid : identityValid id = true) : Storable kind plan (slot.setIdentity id op) := by
  cases slot with
  | entry i =>
    refine h.setEntry i fun planned he => ?_
    exact { he with identity := fun _ => hid }
  | temporary =>
    exact { h with
      temporary := fun hcre => ⟨(h.temporary hcre).1, identityIntentValid_of_valid hid⟩ }

/-- Another replacement state of an entry that has a backup. -/
theorem Storable.setReplacement (h : Storable kind plan op) (i : Nat) {state : ReplacementState}
    (hrepl : (op.entry i).replacementState ≠ .none) (hst : state ≠ .none) :
    Storable kind plan (setReplacement i state op) := by
  refine h.setEntry i fun planned he => ?_
  exact { he with unreplaced := fun hnone => absurd hnone hst, replaced := fun _ => he.replaced hrepl }

theorem Storable.clearReplacement (h : Storable kind plan op) (i : Nat) :
    Storable kind plan (clearReplacement i op) := by
  refine h.setEntry i fun planned he => ?_
  exact { he with unreplaced := fun _ => ⟨rfl, rfl⟩, replaced := fun hne => absurd rfl hne }

/-- An entry that has created nothing may hold any identity. -/
theorem StorableEntry.ofUncreated {e : Entry} (hcre : e.created = false) :
    e.created = true → identityValid e.objectIdentity = true :=
  fun htrue => absurd (hcre.symm.trans htrue) Bool.false_ne_true

end

/-! ## §2. The rollback. -/
section
variable {kind : OperationKind} {plan : List Entry} {op : Operation} {c : Operation → Prop}
  {f : Operation → Operation}

theorem CallsKeep.SlotChange.storable {slot : Slot} (hchg : SlotChange slot f)
    (h : Storable kind plan op) (hbusy : slot.Busy op) : Storable kind plan (f op) := by
  cases hchg with
  | cleanup c hc => exact h.slotCleanup hbusy hc
  | identity id hid => exact h.slotIdentity slot hid
  | pending =>
    dsimp only
    split
    · exact h.slotCleanup hbusy rfl
    · exact h

theorem Storable.back (h : Storable kind plan op) : Storable kind plan (stepBack op) :=
  { h with }

theorem CallsKeep.EntryChange.storable {i : Nat} (hchg : EntryChange i c f)
    (h : Storable kind plan op) (hop : c op) : Storable kind plan (f op) := by
  cases hchg with
  | slot hslot => exact hslot.storable h trivial
  | restore hrest =>
    cases hrest with
    | started =>
      dsimp only
      split
      · next hheld =>
        have hrepl : (op.entry i).replacementState ≠ .none := by
          rcases hheld with h | h <;> rw [h] <;> decide
        exact h.setReplacement i hrepl (by decide)
      · exact h
    | held => exact h.setReplacement i hop (by decide)
    | clear => exact h.clearReplacement i
  | rename hrename =>
    cases hrename with
    | started =>
      dsimp only
      split
      · exact h.setEntry i fun planned he => { he with }
      · exact h
    | renamed => exact h.setEntry i fun planned he => { he with }
  | removed =>
    exact h.setEntry i fun planned he => { he with identity := StorableEntry.ofUncreated rfl }
  | forgotten =>
    exact h.setEntry i fun planned he => { he with identity := StorableEntry.ofUncreated hop }
  | adopted id hid =>
    exact h.setEntry i fun planned he =>
      { he with identity := fun _ => hid }

/-- Every change of a rollback leaves the record fit to be stored. -/
theorem CallsKeep.RollbackChange.storable (hchg : RollbackChange c f) (h : Storable kind plan op)
    (hop : c op) : Storable kind plan (f op) := by
  cases hchg with
  | handle hhandle => cases hhandle <;> exact { h with }
  | closed => exact { h with }
  | slot hslot => exact hslot.storable h hop
  | temporary =>
    refine { h with temporary := fun hcre => ?_, idle := fun _ => rfl, sync := rfl }
    cases hcre
  | entry hent => exact hent.storable h hop
  | @back i _ _ hback =>
    cases hback with
    | undone =>
      refine Storable.back (h.setEntry i fun planned he => ?_)
      exact { he with identity := StorableEntry.ofUncreated hop }
    | passed =>
      dsimp only
      split
      · exact h.back
      · exact h
    | stepBack => exact h.back

end

/-- A property of the fields that only the interface calls change. -/
def OfCore (R : Operation → Prop) : Prop := ∀ op op' : Operation, op'.core = op.core → R op → R op'

section
variable {W α : Type} {B : Backend W} {observe : W → α} {T : Watch W α}
  (hB : Traced B observe T.trail) {R : Operation → Prop}
include hB

theorem stored_calls : CallsKeep B T.Stored := by
  refine ⟨fun hcall => silent (hB.silent hcall), fun callback hc s hs => ⟨hs.record, trivial, fun mark hmark => ?_⟩⟩
  -- the new mark holds the record itself
  simp only [hB.checkpoint callback hc s.op s.world, List.mem_append, List.mem_singleton] at hmark
  rcases hmark with hold | hnew
  · exact hs.marks mark hold
  · rw [hnew]
    exact hs.record

theorem stored_removal : RemovalKeeps B T.Stored := by
  intro _ _ _ directory path id
  exact recorded (hB.silent (.removeExpected directory path id))

/-- **A rollback step** saves only what can be stored. -/
theorem rollbackStep_leads (hR : OfCore R) : T.Leads R (rollbackStep B) (fun _ => R) := by
  refine (stored_calls hB).rollbackStep (stored_removal hB) fun c f hchg => turns fun op hop h => ?_
  exact ⟨hchg.storable hop h.2, hR op _ (hchg.sameRecord op).core h.1⟩

end
end RinRuntime.FileOperation

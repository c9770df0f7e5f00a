/-
FileOperation.Layer — what an entry has done to the name space, read off its record.

Each entry puts one layer on the name space: a displaced destination, a created object on top of that, or a
moved object. `Layer e M M'` says, from the flags and states of the entry alone, how the names `M'` above
the layer may differ from the names `M` below it; where a callback may have taken effect or not, both
outcomes are allowed. `Rolling` is the state of a rollback: the entries below `rollback_index` are layers
over the names the operation started from.
-/
import RinRuntime.FileOperation.Effects
import RinRuntime.Lib.Layers

namespace RinRuntime.FileOperation
open Lib NameTree Layers

/-! ## §1. Layers. -/

/-- A path whose creation was refused: an object is there that the recorded identity does not fit,
so that it can neither be adopted nor removed. -/
def Blocked (path : Path) (id : Identity) (cleanup : CleanupState) (M M' : Names) : Prop :=
  M' = M ∧ cleanup ≠ .syncPending ∧ ∃ other : Identity, M path = some other ∧
    if identityValid id = true then other ≠ id else other.operationToken ≠ id.operationToken

/-- A created path: nothing was there, and now there is an object or, its removal done, nothing. -/
def Owned (path : Path) (cleanup : CleanupState) (M M' : Names) : Prop :=
  M path = none ∧ (M' = M ∨ cleanup ≠ .syncPending ∧ ∃ id, M' = insert path id M)

/-- A path the operation claims to have created. -/
def Held (path : Path) (id : Identity) (cleanup : CleanupState) (M M' : Names) : Prop :=
  Owned path cleanup M M' ∨ Blocked path id cleanup M M'

/-- The destination has been moved to its backup path. -/
def Displaced (e : Entry) (M M' : Names) : Prop :=
  Free slash M e.backupPath ∧ M' = move slash e.destinationPath e.backupPath M

/-- The replacement state says whether the destination has been moved away. -/
def Replaced (e : Entry) (M M' : Names) : Prop :=
  match e.replacementState with
  | .none => M' = M
  | .backupHeld | .publishInProgress =>
      M e.destinationPath = some e.backupIdentity ∧ Displaced e M M'
  | .backupInProgress | .restoreInProgress =>
      M e.destinationPath = some e.backupIdentity ∧ (M' = M ∨ Displaced e M M')
  | .undoRemoveInProgress | .undoRestoreInProgress => False

/-- An entry that carries an intent: the creation may have failed, but not over a displaced
object. -/
def Intended (e : Entry) (M M' : Names) : Prop :=
  e.cleanupState = .none ∧ M e.destinationPath = none ∧
    (M' = M ∧ e.replacementState = .none ∨ ∃ id, M' = insert e.destinationPath id M)

/-- What the entry created. -/
def Made (e : Entry) (M M' : Names) : Prop :=
  if e.created = true then Held e.destinationPath e.objectIdentity e.cleanupState M M'
  else if identityHasToken e.objectIdentity = true then Intended e M M'
  else M' = M

/-- What the entry moved. -/
def Moved (e : Entry) (M M' : Names) : Prop :=
  M e.sourcePath = some e.objectIdentity ∧
  match e.cleanupState with
  | .none =>
      Free slash M e.destinationPath ∧ M' = move slash e.sourcePath e.destinationPath M
  | .renameInProgress =>
      M' = M ∨ Free slash M e.destinationPath ∧ M' = move slash e.sourcePath e.destinationPath M
  | .renameSyncPending => M' = M
  | _ => False

/-- **The layer of an entry.** -/
def Layer (e : Entry) (M M' : Names) : Prop :=
  if e.applied = true then
    e.created = false ∧ identityHasToken e.objectIdentity = false ∧ e.replacementState = .none ∧
      Moved e M M'
  else ∃ mid, Replaced e M mid ∧ Made e mid M'

/-- An entry that has done nothing. -/
structure Idle (e : Entry) : Prop where
  applied : e.applied = false
  created : e.created = false
  token : identityHasToken e.objectIdentity = false
  replacement : e.replacementState = .none

variable {M M' : Names} {path : Path} {e : Entry}

theorem Made.of_idle (hc : e.created = false)
    (ht : identityHasToken e.objectIdentity = false) : Made e M M' ↔ M' = M := by
  unfold Made
  rw [if_neg (by simp [hc]), if_neg (by simp [ht])]

theorem Made.of_created (hc : e.created = true) :
    Made e M M' ↔ Held e.destinationPath e.objectIdentity e.cleanupState M M' := by
  unfold Made
  rw [if_pos hc]

theorem Replaced.of_none (hr : e.replacementState = .none) : Replaced e M M' ↔ M' = M := by
  unfold Replaced
  rw [hr]

theorem layer_of_not_applied (ha : e.applied = false) :
    Layer e M M' ↔ ∃ mid, Replaced e M mid ∧ Made e mid M' := by
  unfold Layer
  rw [if_neg (by simp [ha])]

theorem layer_of_applied (ha : e.applied = true) :
    Layer e M M' ↔ e.created = false ∧ identityHasToken e.objectIdentity = false ∧
      e.replacementState = .none ∧ Moved e M M' := by
  unfold Layer
  rw [if_pos ha]

theorem Idle.layer (h : Idle e) (M : Names) : Layer e M M :=
  (layer_of_not_applied h.applied).mpr ⟨M, (Replaced.of_none h.replacement).mpr rfl, (Made.of_idle h.created h.token).mpr rfl⟩

@[simp] theorem identityHasToken_zero : identityHasToken Identity.zero = false := by decide

/-! ## §2. Paths an object may be at. -/

/-- Nothing but `path` may have been named. -/
def Occupied (path : Path) (M M' : Names) : Prop := M' = M ∨ ∃ id, M' = insert path id M

theorem Owned.occupied {cleanup : CleanupState} (h : Owned path cleanup M M') : Occupied path M M' := by
  rcases h.2 with h | ⟨_, h⟩
  · exact Or.inl h
  · exact Or.inr h

theorem Owned.of_occupied {cleanup : CleanupState} (hM : M path = none)
    (hc : cleanup ≠ .syncPending) (h : Occupied path M M') : Owned path cleanup M M' := by
  rcases h with h | h
  · exact ⟨hM, Or.inl h⟩
  · exact ⟨hM, Or.inr ⟨hc, h⟩⟩

/-- A missing name says that the object is gone. -/
theorem Occupied.eq_of_missing (h : Occupied path M M') (hmiss : M' path = none) : M' = M := by
  rcases h with h | ⟨id, h⟩
  · exact h
  · rw [h, insert_self] at hmiss
    cases hmiss

/-- Taking the name away leaves what was there before. -/
theorem Occupied.erase (hM : M path = none) (h : Occupied path M M') : NameTree.erase path M' = M := by
  rcases h with rfl | ⟨id, rfl⟩
  · unfold NameTree.erase
    rw [← hM, Function.update_eq_self]
  · exact erase_insert hM

/-- A removal, whether it succeeds or not, keeps to the path. -/
theorem Occupied.of_attempt {id : Identity} {M : Names} {result : Int} {v v' : View}
    (hM : M path = none) (h : Occupied path M v.names) (htry : Attempt result (Removed path id) v v') :
    Occupied path M v'.names ∧ (result = 0 → v'.names = M) := by
  have hdone : Removed path id v v' → v'.names = M := by
    intro hr
    rw [hr.2]
    exact h.erase hM
  refine ⟨?_, fun h0 => hdone (htry.1 h0)⟩
  rcases htry.2 with heq | hr
  · rw [heq]; exact h
  · exact Or.inl (hdone hr)

/-! ## §3. Frames. -/

/-- Only entry `i` changed. -/
structure EntryOnly (i : Nat) (op op' : Operation) : Prop where
  count : op'.entryCount = op.entryCount
  other : ∀ k, k ≠ i → op'.entry k = op.entry k
  rest : { op' with entries := op.entries } = op

theorem EntryOnly.refl (i : Nat) (op : Operation) : EntryOnly i op op := ⟨rfl, fun _ _ => rfl, rfl⟩

variable {i : Nat} {op op' : Operation}

theorem EntryOnly.trans {op'' : Operation} (h : EntryOnly i op op')
    (h' : EntryOnly i op' op'') : EntryOnly i op op'' := by
  refine ⟨h'.count.trans h.count, fun k hk => (h'.other k hk).trans (h.other k hk), ?_⟩
  calc ({ op'' with entries := op.entries } : Operation)
      = { ({ op'' with entries := op'.entries } : Operation) with entries := op.entries } := rfl
    _ = { op' with entries := op.entries } := by rw [h'.rest]
    _ = op := h.rest

theorem EntryOnly.setEntry (i : Nat) (op : Operation) (f : Entry → Entry) :
    EntryOnly i op (op.setEntry i f) :=
  ⟨Operation.entryCount_setEntry op i f, fun _ hk => Operation.entry_setEntry_ne hk f, rfl⟩

/-- What does not look at the entry list is kept. -/
theorem EntryOnly.field (h : EntryOnly i op op') {α : Type}
    (f : Operation → α) : f { op' with entries := op.entries } = f op := congrArg f h.rest

/-- Only entry `i` changed, and it is `e` now. -/
structure Edited (i : Nat) (op op' : Operation) (e : Entry) : Prop extends EntryOnly i op op' where
  entry : op'.entry i = e

theorem Edited.refl (i : Nat) (op : Operation) : Edited i op op (op.entry i) := ⟨EntryOnly.refl i op, rfl⟩

theorem Edited.set (h : Edited i op op' e) (hi : i < op.entryCount)
    (f : Entry → Entry) : Edited i op (op'.setEntry i f) (f e) := by
  refine ⟨h.toEntryOnly.trans (EntryOnly.setEntry i op' f), ?_⟩
  rw [Operation.entry_setEntry_self (by rw [h.count]; exact hi), h.entry]

theorem Edited.setEntry (hi : i < op.entryCount) (f : Entry → Entry) :
    Edited i op (op.setEntry i f) (f (op.entry i)) := (Edited.refl i op).set hi f

/-- The temporary file, if there is one, is on top of the layers. -/
def TempLayer (op : Operation) (top N : Names) : Prop :=
  if op.temporaryCreated = true then
    Held op.temporaryPath op.temporaryIdentity op.temporaryCleanupState top N
  else N = top

theorem TempLayer.of_none {top N : Names} (h : op.temporaryCreated = false) :
    TempLayer op top N ↔ N = top := by
  unfold TempLayer
  rw [if_neg (by simp [h])]

theorem TempLayer.of_created {top N : Names} (h : op.temporaryCreated = true) :
    TempLayer op top N ↔ Held op.temporaryPath op.temporaryIdentity op.temporaryCleanupState top N := by
  unfold TempLayer
  rw [if_pos h]

variable {W : Type} (view : W → View)

/-- **The state of a rollback**: `rollback_index` layers are left over the names at the start, the
entries above are idle. -/
structure Rolling (N₀ : Names) (s : State W) : Prop where
  index_le : s.op.rollbackIndex ≤ s.op.entryCount
  idle : ∀ k, s.op.rollbackIndex ≤ k → Idle (s.op.entry k)
  temp : s.op.temporaryCreated = true → s.op.operation = .copy
  layers : ∃ top, Stack (fun k => Layer (s.op.entry k)) N₀ s.op.rollbackIndex top ∧
    TempLayer s.op top (view s.world).names

end RinRuntime.FileOperation

/-
FileOperation.Operation — the records of `file_operation.h` and the callback table.

Flag words whose bits are used one by one are `Bool` fields, counters are `Nat` with the wrap of
their C type written out where the code can reach it. A callback takes the world it acts on and
returns its results with the world it leaves; a callback a backend may leave out is an `Option`.
-/
import Mathlib.Algebra.Group.Nat.Defs
import RinRuntime.FileOperation.Path
import RinRuntime.Lib.Exec

namespace RinRuntime.FileOperation
open Lib

/-! ## §1. Enumerations. -/

/-- `RinRuntimeFileOperationReplacementState`. -/
inductive ReplacementState where
  | none
  | backupInProgress
  | backupHeld
  | publishInProgress
  | restoreInProgress
  | undoRemoveInProgress
  | undoRestoreInProgress
  deriving Repr, DecidableEq

/-- `RinRuntimeFileOperationCleanupState`. -/
inductive CleanupState where
  | none
  | removePending
  | removeInProgress
  | syncPending
  | renameInProgress
  | renameSyncPending
  deriving Repr, DecidableEq

/-- `RinRuntimeFileOperationSeekWhence`. -/
inductive SeekWhence where
  | set
  | data
  | hole
  deriving Repr, DecidableEq

/-- `RinRuntimeFileOperationEntryKind`. -/
inductive EntryKind where
  | file
  | directory
  | symlink
  | hardlink
  deriving Repr, DecidableEq

/-- `RinRuntimeFileOperationKind`. -/
inductive OperationKind where
  | copy
  | move
  | rename
  | delete
  | trash
  | restore
  deriving Repr, DecidableEq

/-- `RinRuntimeFileOperationConflictPolicy`. -/
inductive ConflictPolicy where
  | fail
  | skip
  | replace
  | rename
  deriving Repr, DecidableEq

/-- `RinRuntimeFileOperationResult`. -/
inductive Result where
  | ok
  | inProgress
  | completed
  | invalidArgument
  | busy
  | conflict
  | ioFailed
  | noSpace
  | deviceRemoved
  | cancelled
  | rollbackFailed
  | unsupported
  | noMemory
  deriving Repr, DecidableEq

/-- A result below zero. -/
def Result.negative : Result → Bool
  | .ok | .inProgress | .completed => false
  | _ => true

/-- `RINRUNTIME_FILE_OPERATION_BACKEND_NO_SPACE`. -/
def backendNoSpace : Int := -2

/-- `RINRUNTIME_FILE_OPERATION_BACKEND_DEVICE_REMOVED`. -/
def backendDeviceRemoved : Int := -3

/-- `RINRUNTIME_FILE_OPERATION_BACKEND_NO_DATA`. -/
def backendNoData : Int := -4

/-- `RINRUNTIME_FILE_OPERATION_BACKEND_SPARSE_UNSUPPORTED`. -/
def backendSparseUnsupported : Int := -5

/-- `RINRUNTIME_FILE_OPERATION_BACKEND_IDENTITY_MISMATCH`. -/
def backendIdentityMismatch : Int := -6

/-- `RINRUNTIME_FILE_OPERATION_BACKEND_PATH_EXISTS`. -/
def backendPathExists : Int := -7

/-- `file_operation_result`. -/
def resultOf (result : Int) : Result :=
  if result = backendNoSpace then .noSpace
  else if result = backendDeviceRemoved then .deviceRemoved
  else if result = backendIdentityMismatch then .conflict
  else if result = backendPathExists then .conflict
  else .ioFailed

/-! ## §2. Identities. -/

/-- The sixteen bytes of a creation token. -/
abbrev Token := Vector UInt8 16

/-- `RinRuntimeFileOperationObjectIdentityV1`. -/
structure Identity where
  device : UInt64
  inode : UInt64
  generation : UInt64
  operationToken : Token
  deriving DecidableEq

/-- The all-zero token. -/
def Token.zero : Token := Vector.replicate 16 0

theorem token_pos : 0 < 16 := by decide

/-- The all-zero identity. -/
def Identity.zero : Identity := ⟨0, 0, 0, Token.zero⟩

/-- An identity that holds a creation token and nothing else yet. -/
def Identity.ofToken (token : Token) : Identity := ⟨0, 0, 0, token⟩

/-- `file_operation_token_valid`. -/
def tokenValid (token : Token) : Bool := token != Token.zero

/-- `file_operation_token_matches`. -/
def tokenMatches (identity : Identity) (token : Token) : Bool :=
  tokenValid token && identity.operationToken == token

/-- `file_operation_identity_valid`. -/
def identityValid (identity : Identity) : Bool := identity.inode != 0 && identity.generation != 0

/-- `file_operation_identity_equal`. -/
def identityEqual (left right : Identity) : Bool :=
  identityValid left && identityValid right && left == right

/-- `file_operation_identity_has_token`. -/
def identityHasToken (identity : Identity) : Bool := identity.operationToken != Token.zero

/-- `file_operation_identity_intent_valid`. -/
def identityIntentValid (identity : Identity) : Bool :=
  identityValid identity ||
    (identity.device == 0 && identity.inode == 0 && identity.generation == 0 &&
      identityHasToken identity)

/-- `file_operation_identity_empty`. -/
def identityEmpty (identity : Identity) : Bool := identity == Identity.zero

/-! ## §3. Entries and operations. -/

/-- `RinRuntimeFileOperationEntryV1`; the flag word is three `Bool`s. -/
structure Entry where
  sourcePath : Path
  destinationPath : Path
  sizeBytes : Nat
  kind : EntryKind
  skip : Bool
  created : Bool
  applied : Bool
  linkSourceIndex : Nat
  cleanupState : CleanupState
  objectIdentity : Identity
  replacementState : ReplacementState
  backupPath : Path
  backupIdentity : Identity
  deriving DecidableEq

/-- An all-zero entry. -/
def Entry.zero : Entry :=
  ⟨[], [], 0, .file, false, false, false, 0, .none, Identity.zero, .none, [], Identity.zero⟩

/-- `RinRuntimeFileOperationV1` without its callback table and its transfer buffer. -/
structure Operation where
  operation : OperationKind
  entries : List Entry
  entryIndex : Nat
  conflictPolicy : ConflictPolicy
  active : Bool
  cancelRequested : Bool
  fileOpen : Bool
  temporaryCreated : Bool
  sparseFileEnabled : Bool
  sparseOutputSized : Bool
  sourceHandle : Nat
  temporaryHandle : Nat
  temporaryPath : Path
  totalBytes : Nat
  completedBytes : Nat
  completedItems : Nat
  temporarySequence : Nat
  sparseDataEnd : Nat
  recoveryRequired : Bool
  rollbackActive : Bool
  temporaryCleanupState : CleanupState
  pendingResult : Result
  rollbackIndex : Nat
  replaceUndoActive : Bool
  temporaryIdentity : Identity
  deriving DecidableEq

namespace Operation

/-- `operation->entry_count`. -/
def entryCount (op : Operation) : Nat := op.entries.length

/-- `operation->entries[i]`; the code only reads entries below `entry_count`. -/
def entry (op : Operation) (i : Nat) : Entry := op.entries.getD i Entry.zero

/-- Change entry `i`. -/
def setEntry (op : Operation) (i : Nat) (f : Entry → Entry) : Operation :=
  { op with entries := op.entries.modify i f }

end Operation

/-- `rinruntime_file_operation_init`. -/
def operationInit : Operation where
  operation := .copy
  entries := []
  entryIndex := 0
  conflictPolicy := .fail
  active := false
  cancelRequested := false
  fileOpen := false
  temporaryCreated := false
  sparseFileEnabled := false
  sparseOutputSized := false
  sourceHandle := 0
  temporaryHandle := 0
  temporaryPath := []
  totalBytes := 0
  completedBytes := 0
  completedItems := 0
  temporarySequence := 0
  sparseDataEnd := 0
  recoveryRequired := false
  rollbackActive := false
  temporaryCleanupState := .none
  pendingResult := .ok
  rollbackIndex := 0
  replaceUndoActive := false
  temporaryIdentity := Identity.zero

/-! ## §4. The reported progress. -/

/-- The loop of `rinruntime_file_operation_percent`: the largest percentage, counting down from
`percent`, whose threshold is reached. The threshold is a 64-bit value. -/
def percentFrom (completed quotient remainder : Nat) : (percent : Nat) → Nat
  | 0 => 0
  | percent + 1 =>
    let threshold := (quotient * (percent + 1) + (remainder * (percent + 1) + 99) / 100) % 2 ^ 64
    if threshold ≤ completed then percent + 1 else percentFrom completed quotient remainder percent

/-- `rinruntime_file_operation_percent`; there is no record when the pointer is null, or the structure
size or the version is not this one's. -/
def percent : Option Operation → Nat
  | none => 0
  | some op =>
    if op.totalBytes = 0 then if op.active then 0 else 100
    else if op.totalBytes ≤ op.completedBytes then 100
    else percentFrom op.completedBytes (op.totalBytes / 100) (op.totalBytes % 100) 99

/-- The threshold of a percentage is its exact share of the total, rounded up: the sum does not wrap. -/
theorem threshold_le_iff {total completed percent : Nat} (htotal : total < 2 ^ 64) (h : percent < 100) :
    (total / 100 * percent + (total % 100 * percent + 99) / 100) % 2 ^ 64 ≤ completed
      ↔ percent * total ≤ 100 * completed := by
  have hsplit : total * percent = 100 * (total / 100 * percent) + total % 100 * percent := by
    rw [← Nat.mul_assoc, ← Nat.add_mul, Nat.div_add_mod]
  have hbound : percent * total ≤ 99 * total := Nat.mul_le_mul_right _ (by omega)
  rw [Nat.mul_comm] at hsplit
  rw [Nat.mod_eq_of_lt (by omega)]
  omega

theorem percentFrom_eq {total completed n : Nat} (hpos : 0 < total) (htotal : total < 2 ^ 64) (hn : n < 100) :
    percentFrom completed (total / 100) (total % 100) n = min n (100 * completed / total) := by
  induction n with
  | zero => exact (Nat.zero_min _).symm
  | succ n ih =>
    rw [percentFrom, ih (by omega)]
    simp only [threshold_le_iff htotal hn, ← Nat.le_div_iff_mul_le hpos]
    split <;> omega

theorem percent_eq {op : Operation} (hpos : 0 < op.totalBytes) (htotal : op.totalBytes < 2 ^ 64) :
    percent (some op) = min 100 (100 * op.completedBytes / op.totalBytes) := by
  have hfull : 100 ≤ 100 * op.completedBytes / op.totalBytes ↔ _ := Nat.le_div_iff_mul_le hpos
  rw [percent, if_neg (by omega), percentFrom_eq hpos htotal (by omega)]
  split <;> omega

/-- **The reported percentage is the exact quotient.** Although `100 * completed` need not fit the
64-bit counters, the countdown returns the integer part of it over the total, at most 100. -/
theorem percent_exact {op : Operation} (hpos : 0 < op.totalBytes) (htotal : op.totalBytes < 2 ^ 64) :
    percent (some op) = min 100 (100 * op.completedBytes / op.totalBytes)
      ∧ (∀ completed, op.completedBytes ≤ completed →
          percent (some op) ≤ percent (some { op with completedBytes := completed }))
      ∧ (percent (some op) = 100 → op.totalBytes ≤ op.completedBytes) := by
  have hexact := percent_eq hpos htotal
  refine ⟨hexact, fun completed hle => ?_, fun h => ?_⟩
  · have hmono : 100 * op.completedBytes / op.totalBytes ≤ 100 * completed / op.totalBytes :=
      Nat.div_le_div_right (by omega)
    have hlater : percent (some { op with completedBytes := completed })
        = min 100 (100 * completed / op.totalBytes) := percent_eq hpos htotal
    omega
  · have hfull : 100 ≤ 100 * op.completedBytes / op.totalBytes ↔ _ := Nat.le_div_iff_mul_le hpos
    omega

theorem percent_exact_near_full :
    percent (some { operationInit with totalBytes := 2 ^ 64 - 1, completedBytes := 2 ^ 64 - 2 }) = 99 :=
  (percent_exact (by decide) (by decide)).1

/-! ## §5. The callback table. -/

/-- The sparse-copy callbacks: a backend has all three or none. -/
structure SparseBackend (W : Type) where
  seek : Nat → Nat → SeekWhence → W → (Int × Nat) × W
  truncate : Nat → Nat → W → Int × W
  fileSize : Nat → W → (Int × Nat) × W

/-- `RinRuntimeFileOperationBackendV1`. The number of bytes `read` reports is the length of the
list it returns. -/
structure Backend (W : Type) where
  pathState : Path → W → Int × W
  openRead : Path → W → (Int × Nat) × W
  randomOperationToken : W → (Int × Token) × W
  openCreateExclusiveWithToken : Path → Token → W → (Int × Nat) × W
  read : Nat → Nat → W → (Int × List UInt8) × W
  write : Nat → List UInt8 → W → (Int × Nat) × W
  syncFile : Nat → W → Int × W
  close : Nat → W → Int × W
  mkdirWithToken : Path → Token → W → Int × W
  publishNoReplace : Path → Path → W → Int × W
  removeFile : Path → W → Int × W
  removeDirectory : Path → W → Int × W
  syncDirectory : Path → W → Int × W
  copyMetadata : Option (Path → Path → EntryKind → W → Int × W)
  readSymlink : Option (Path → W → (Int × List UInt8) × W)
  createSymlinkWithToken : Option (List UInt8 → Path → Token → W → Int × W)
  linkNoReplace : Option (Path → Path → W → Int × W)
  sparse : Option (SparseBackend W)
  replacementBackupPath : Option (Path → Identity → W → (Int × Path) × W)
  chooseRenamedDestination : Option (Path → Path → W → (Int × Path) × W)
  pathIdentity : Path → W → (Int × Identity) × W
  handleIdentity : Nat → W → (Int × Identity) × W
  removeFileExpected : Path → Identity → W → Int × W
  removeDirectoryExpected : Path → Identity → W → Int × W
  renameNoReplaceExpected : Option (Path → Path → Identity → W → Int × W)
  checkpoint : Option (Operation → W → Int × W)

/-- The callbacks that matter to an observer: what is opened and what is removed. -/
inductive Call where
  | openRead (path : Path)
  | remove (path : Path)
  deriving DecidableEq

/-- A recorded callback: the entry at hand and the world it was issued in. -/
structure Event (W : Type) where
  call : Call
  entryIndex : Nat
  world : W

/-- An operation at work: its record, the world, and the callbacks recorded so far. -/
structure State (W : Type) where
  op : Operation
  world : W
  log : List (Event W)

section
variable {W ε α : Type}

/-- Issue a callback. -/
def ask (callback : W → α × W) : Exec ε (State W) α := fun s =>
  (.ok (callback s.world).1, { s with world := (callback s.world).2 })

/-- Issue a callback and record it. -/
def askRecorded (call : Call) (callback : W → α × W) : Exec ε (State W) α := fun s =>
  (.ok (callback s.world).1,
    { s with world := (callback s.world).2, log := s.log ++ [⟨call, s.op.entryIndex, s.world⟩] })

/-- Change the operation record. -/
def update (f : Operation → Operation) : Exec ε (State W) Unit :=
  Exec.modify fun s => { s with op := f s.op }

/-- Read the operation record. -/
def getOp : Exec ε (State W) Operation := fun s => (.ok s.op, s)

variable {Q : α → State W → Prop} {E : ε → State W → Prop} {s : State W}

@[simp] theorem wp_ask (callback : W → α × W) : Exec.wp (ask callback : Exec ε (State W) α) Q E s ↔
      Q (callback s.world).1 { s with world := (callback s.world).2 } := Iff.rfl

@[simp] theorem wp_askRecorded (call : Call) (callback : W → α × W) :
    Exec.wp (askRecorded call callback : Exec ε (State W) α) Q E s ↔ Q (callback s.world).1 { s with
        world := (callback s.world).2, log := s.log ++ [⟨call, s.op.entryIndex, s.world⟩] } := Iff.rfl

@[simp] theorem wp_update {Q : Unit → State W → Prop} (f : Operation → Operation) :
    Exec.wp (update f : Exec ε (State W) Unit) Q E s ↔ Q () { s with op := f s.op } := Iff.rfl

@[simp] theorem wp_getOp {Q : Operation → State W → Prop} :
    Exec.wp (getOp : Exec ε (State W) Operation) Q E s ↔ Q s.op s := Iff.rfl

end
end RinRuntime.FileOperation

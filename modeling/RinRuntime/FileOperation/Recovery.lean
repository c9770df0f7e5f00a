/-
FileOperation.Recovery — cleanup, restoring of replaced objects and the rollback step.

The functions of `src/file_operation.c` from `file_operation_checkpoint` to `file_operation_finish_failure`.
A C function that returns 1 or 0 is a computation that may fail with `()`; `file_operation_rollback_step`
fails for -1 and returns whether it did something (1) or found nothing left to do (0).
-/
import RinRuntime.FileOperation.Operation

namespace RinRuntime.FileOperation
open Lib
variable {W ε : Type} (B : Backend W)

/-! ## §1. Small steps. -/

/-- `file_operation_checkpoint`: whether the record was saved. -/
def checkpointSaved : Exec ε (State W) Bool :=
  match B.checkpoint with
  | none => pure true
  | some callback => do
      let op ← getOp
      let result ← ask (callback op)
      pure (decide (result = 0))

/-- `file_operation_checkpoint`, with the error its caller turns a failure into. -/
def checkpoint (e : ε) : Exec ε (State W) Unit := do
  let saved ← checkpointSaved B
  Exec.require (saved = true) e

/-- `file_operation_sync_parent_once`. -/
def syncParentOnce (path : Path) : Exec Result (State W) Unit :=
  match parent path with
  | none => Exec.fail .invalidArgument
  | some directory => do
      let result ← ask (B.syncDirectory directory)
      Exec.require (result = 0) (resultOf result)

/-- Close a handle unless it is 0. -/
def closeHandle (handle : Nat) : Exec ε (State W) Int :=
  if handle ≠ 0 then ask (B.close handle) else pure 0

/-- `file_operation_close_files`: whether every open handle closed without an error. -/
def closeFiles : Exec ε (State W) Bool := do
  let op ← getOp
  let sourceClosed ← closeHandle B op.sourceHandle
  update fun op => { op with sourceHandle := 0 }
  let temporaryClosed ← closeHandle B op.temporaryHandle
  update fun op => { op with temporaryHandle := 0 }
  update fun op => { op with fileOpen := false }
  pure (decide (sourceClosed = 0 ∧ temporaryClosed = 0))

/-- The optional `rename_no_replace_expected`; it is only called where it has been checked for. -/
def renameExpected (source destination : Path) (identity : Identity) : Exec ε (State W) Int :=
  match B.renameNoReplaceExpected with
  | none => pure (-1)
  | some callback => ask (callback source destination identity)

/-! ## §2. Removing what the operation created. -/

/-- Where a created path keeps its identity and cleanup state: in the operation or in an entry. -/
inductive Slot where
  | temporary
  | entry (i : Nat)
  deriving DecidableEq

namespace Slot

/-- `*identity`. -/
def identity (op : Operation) : Slot → Identity
  | temporary => op.temporaryIdentity
  | entry i => (op.entry i).objectIdentity

/-- `*cleanup_state`. -/
def cleanup (op : Operation) : Slot → CleanupState
  | temporary => op.temporaryCleanupState
  | entry i => (op.entry i).cleanupState

/-- Store an identity. -/
def setIdentity (identity : Identity) (op : Operation) : Slot → Operation
  | temporary => { op with temporaryIdentity := identity }
  | entry i => op.setEntry i fun e => { e with objectIdentity := identity }

/-- Store a cleanup state. -/
def setCleanup (state : CleanupState) (op : Operation) : Slot → Operation
  | temporary => { op with temporaryCleanupState := state }
  | entry i => op.setEntry i fun e => { e with cleanupState := state }

end Slot

/-- `remove_directory_expected` or `remove_file_expected`. -/
def removeExpected (directory : Bool) (path : Path) (identity : Identity) : W → Int × W :=
  if directory then B.removeDirectoryExpected path identity else B.removeFileExpected path identity

/-- The identity lookup of `file_operation_cleanup_created_path`: an intent becomes the identity of
the object that carries its token. -/
def adoptCreated (path : Path) (slot : Slot) : Exec Unit (State W) Unit := do
  let op ← getOp
  if identityValid (slot.identity op) = true then pure ()
  else do
    let (result, current) ← ask (B.pathIdentity path)
    Exec.require (result = 0 ∧ identityValid current = true ∧
      current.operationToken = (slot.identity op).operationToken) ()
    update fun op => slot.setIdentity current op
    checkpoint B ()

/-- After a failed removal: it may have happened all the same, and a missing name says so. -/
def confirmRemoved (path : Path) : Exec Unit (State W) Unit := do
  let state ← ask (B.pathState path)
  Exec.require (state = 0) ()

/-- The removal half of `file_operation_cleanup_created_path`. -/
def removeCreated (path : Path) (directory : Bool) (slot : Slot) : Exec Unit (State W) Unit := do
  let state ← ask (B.pathState path)
  if state = 0 then do
    update fun op => slot.setCleanup .syncPending op
    checkpoint B ()
  else do
    Exec.require (state = 1) ()
    adoptCreated B path slot
    update fun op => slot.setCleanup .removeInProgress op
    checkpoint B ()
    let op ← getOp
    let result ← askRecorded (.remove path) (removeExpected B directory path (slot.identity op))
    Exec.when (result ≠ 0) (confirmRemoved B path)
    update fun op => slot.setCleanup .syncPending op
    checkpoint B ()

/-- `file_operation_cleanup_created_path`. -/
def cleanupCreatedPath (path : Path) (directory : Bool) (slot : Slot) :
    Exec Unit (State W) Unit := do
  let op ← getOp
  Exec.require (identityIntentValid (slot.identity op) = true) ()
  update fun op => if slot.cleanup op = .none then slot.setCleanup .removePending op else op
  let op ← getOp
  Exec.when (slot.cleanup op = .removePending ∨ slot.cleanup op = .removeInProgress)
    (removeCreated B path directory slot)
  let op ← getOp
  Exec.require (slot.cleanup op = .syncPending) ()
  (syncParentOnce B path).orFail fun _ => ()
  update fun op => slot.setCleanup .none op
  checkpoint B ()

/-! ## §3. Bringing a replaced object back. -/

/-- Forget the replacement of entry `i`. -/
def clearReplacement (i : Nat) (op : Operation) : Operation :=
  op.setEntry i fun e =>
    { e with replacementState := .none, backupPath := [], backupIdentity := Identity.zero }

/-- Set the replacement state of entry `i`. -/
def setReplacement (i : Nat) (state : ReplacementState) (op : Operation) : Operation :=
  op.setEntry i fun e => { e with replacementState := state }

/-- `path_identity` followed by the comparison with the identity of the replaced object. -/
def expectIdentity (path : Path) (identity : Identity) : Exec Unit (State W) Unit := do
  let (result, current) ← ask (B.pathIdentity path)
  Exec.require (result = 0 ∧ identityEqual current identity = true) ()

/-- The rename of `file_operation_restore_replacement`, unless it has happened already. -/
def renameBack (entry : Entry) (destinationState backupState : Int) :
    Exec Unit (State W) Unit :=
  if backupState = 0 ∧ destinationState = 1 then
    expectIdentity B entry.destinationPath entry.backupIdentity
  else do
    Exec.require (backupState = 1 ∧ destinationState = 0) ()
    expectIdentity B entry.backupPath entry.backupIdentity
    checkpoint B ()
    let result ← renameExpected B entry.backupPath entry.destinationPath entry.backupIdentity
    Exec.require (result = 0) ()
    checkpoint B ()

/-- The second half of `file_operation_restore_replacement`, from a held backup on. -/
def restoreFromBackup (i : Nat) (destinationState backupState : Int) :
    Exec Unit (State W) Unit := do
  update fun op =>
    if (op.entry i).replacementState = .publishInProgress ∨
        (op.entry i).replacementState = .backupHeld then
      setReplacement i .restoreInProgress op
    else op
  let op ← getOp
  let entry := op.entry i
  Exec.require (entry.replacementState = .restoreInProgress) ()
  renameBack B entry destinationState backupState
  (syncParentOnce B entry.destinationPath).orFail fun _ => ()
  update (clearReplacement i)
  checkpoint B ()

/-- `file_operation_restore_replacement` for entry `i`. -/
def restoreReplacement (i : Nat) : Exec Unit (State W) Unit := do
  let op ← getOp
  let entry := op.entry i
  Exec.require (entry.replacementState ≠ .none ∧ identityValid entry.backupIdentity = true) ()
  let destinationState ← ask (B.pathState entry.destinationPath)
  let backupState ← ask (B.pathState entry.backupPath)
  Exec.require (0 ≤ destinationState ∧ 0 ≤ backupState) ()
  if entry.replacementState = .backupInProgress then
    if backupState = 0 ∧ destinationState = 1 then do
      -- the backup rename never happened
      expectIdentity B entry.destinationPath entry.backupIdentity
      update (clearReplacement i)
      checkpoint B ()
      (syncParentOnce B entry.destinationPath).orFail fun _ => ()
    else do
      Exec.require (backupState = 1 ∧ destinationState = 0) ()
      expectIdentity B entry.backupPath entry.backupIdentity
      update (setReplacement i .backupHeld)
      restoreFromBackup B i destinationState backupState
  else restoreFromBackup B i destinationState backupState

/-! ## §4. The rollback step. -/

/-- The temporary file of a copy is removed first. -/
def rollbackTemporary : Exec Unit (State W) Unit := do
  let op ← getOp
  cleanupCreatedPath B op.temporaryPath false .temporary
  update fun op => { op with
    temporaryCreated := false
    temporaryPath := []
    temporaryCleanupState := .none
    temporaryIdentity := Identity.zero }
  checkpoint B ()

/-- `--operation->rollback_index`. -/
def stepBack (op : Operation) : Operation := { op with rollbackIndex := op.rollbackIndex - 1 }

/-- The `CREATED` branch of `file_operation_rollback_step`. -/
def rollbackCreated (i : Nat) : Exec Unit (State W) Unit := do
  let op ← getOp
  let entry := op.entry i
  cleanupCreatedPath B entry.destinationPath (entry.kind == .directory) (.entry i)
  update fun op => op.setEntry i fun e =>
    { e with created := false, cleanupState := .none, objectIdentity := Identity.zero }
  checkpoint B ()
  update fun op => if (op.entry i).replacementState = .none then stepBack op else op

/-- The token branch of `file_operation_rollback_step`: forget an intent nothing came of, or adopt
the object that carries the token. -/
def rollbackToken (i : Nat) : Exec Unit (State W) Unit := do
  let op ← getOp
  let entry := op.entry i
  let destinationState ← ask (B.pathState entry.destinationPath)
  Exec.require (0 ≤ destinationState) ()
  if destinationState = 0 then do
    update fun op => op.setEntry i fun e => { e with objectIdentity := Identity.zero }
    checkpoint B ()
    update stepBack
  else do
    let (result, current) ← ask (B.pathIdentity entry.destinationPath)
    Exec.require (result = 0 ∧ identityValid current = true ∧
      tokenMatches current entry.objectIdentity.operationToken = true ∧
      ¬ (identityValid entry.objectIdentity = true ∧
        identityEqual current entry.objectIdentity = false)) ()
    update fun op => op.setEntry i fun e => { e with objectIdentity := current, created := true }
    checkpoint B ()

/-- The reverse rename of the `APPLIED` branch, unless the object is at its source already. -/
def renameToSource (entry : Entry) (sourceState destinationState : Int) :
    Exec Unit (State W) Unit :=
  if sourceState = 0 ∧ destinationState = 1 then do
    expectIdentity B entry.destinationPath entry.objectIdentity
    let result ← renameExpected B entry.destinationPath entry.sourcePath entry.objectIdentity
    Exec.require (result = 0) ()
  else do
    Exec.require (sourceState = 1 ∧ destinationState = 0) ()
    expectIdentity B entry.sourcePath entry.objectIdentity

/-- The `RENAME_IN_PROGRESS` part of the `APPLIED` branch. -/
def reverseRename (i : Nat) : Exec Unit (State W) Unit := do
  let op ← getOp
  let entry := op.entry i
  checkpoint B ()
  let sourceState ← ask (B.pathState entry.sourcePath)
  let destinationState ← ask (B.pathState entry.destinationPath)
  Exec.require (0 ≤ sourceState ∧ 0 ≤ destinationState) ()
  renameToSource B entry sourceState destinationState
  update fun op => op.setEntry i fun e => { e with cleanupState := .renameSyncPending }
  checkpoint B ()

/-- The `APPLIED` branch of `file_operation_rollback_step`. -/
def rollbackApplied (i : Nat) : Exec Unit (State W) Unit := do
  let op ← getOp
  Exec.require (identityValid (op.entry i).objectIdentity = true) ()
  update fun op => if (op.entry i).cleanupState = .none then
    op.setEntry i fun e => { e with cleanupState := .renameInProgress } else op
  let op ← getOp
  Exec.when ((op.entry i).cleanupState = .renameInProgress) (reverseRename B i)
  let op ← getOp
  let entry := op.entry i
  Exec.require (entry.cleanupState = .renameSyncPending) ()
  (syncParentOnce B entry.sourcePath).orFail fun _ => ()
  (syncParentOnce B entry.destinationPath).orFail fun _ => ()
  update fun op => stepBack (op.setEntry i fun e =>
    { e with applied := false, cleanupState := .none, objectIdentity := Identity.zero })
  checkpoint B ()

/-- A recovery action was carried out: the step returns 1. -/
def acted (action : Exec Unit (State W) Unit) : Exec Unit (State W) Bool := do
  action
  pure true

/-- The entry loop of `file_operation_rollback_step`; the number is `rollback_index`. -/
def rollbackEntries : Nat → Exec Unit (State W) Bool
  | 0 => pure false
  | i + 1 => do
      let op ← getOp
      let entry := op.entry i
      if entry.created = true then acted (rollbackCreated B i)
      else if identityHasToken entry.objectIdentity = true then acted (rollbackToken B i)
      else if entry.applied = true then acted (rollbackApplied B i)
      else if entry.replacementState ≠ .none then acted (restoreReplacement B i)
      else do
        update stepBack
        rollbackEntries i

/-- `file_operation_rollback_step`. -/
def rollbackStep : Exec Unit (State W) Bool := do
  let closed ← closeFiles B
  Exec.require (closed = true) ()
  let op ← getOp
  if op.operation = .copy ∧ op.temporaryCreated = true then acted (rollbackTemporary B)
  else rollbackEntries B op.rollbackIndex

/-- The three ways a call goes on after a rollback step: -1, 1 and 0. -/
def settleRollback (finished : Operation → Result) (s : State W) : Result × State W :=
  match rollbackStep B s with
  | (.error _, s') =>
      (.rollbackFailed, { s' with op := { s'.op with active := false, recoveryRequired := true } })
  | (.ok true, s') => (.inProgress, s')
  | (.ok false, s') =>
      (finished s'.op, { s' with op := { s'.op with
        rollbackActive := false, active := false, recoveryRequired := false } })

/-- The record as `file_operation_finish_failure` sets it up for the rollback. -/
def beginRollback (result : Result) (op : Operation) : Operation :=
  { op with
    pendingResult := result
    rollbackActive := true
    rollbackIndex := op.entryCount
    active := true }

/-- `file_operation_finish_failure`, called with `rollback` set. -/
def finishFailure (result : Result) (s : State W) : Result × State W :=
  if s.op.operation = .delete then
    (result, { s with op := { s.op with
      pendingResult := result, active := false, recoveryRequired := false } })
  else
    match checkpoint B () { s with op := beginRollback result s.op } with
    | (.error _, s') =>
        (.rollbackFailed, { s' with op := { s'.op with active := false, recoveryRequired := true } })
    | (.ok _, s') => settleRollback B (fun _ => result) s'

end RinRuntime.FileOperation

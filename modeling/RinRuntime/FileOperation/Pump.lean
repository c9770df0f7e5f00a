/-
FileOperation.Pump — moves, deletions, replace undo, and the calls of the interface.

`step` is one call of the interface or one change of a `SKIP` flag by the caller; a run is a
sequence of them from the record `start` sets up.
-/
import RinRuntime.FileOperation.Copy

namespace RinRuntime.FileOperation
open Lib
variable {W : Type} (B : Backend W)

/-! ## §1. Moves. -/

/-- The forward rename of `file_operation_pump_namespace`. -/
def renameEntry (i : Nat) : Exec Result (State W) Unit := do
  let op ← getOp
  let entry := op.entry i
  let (result, identity) ← ask (B.pathIdentity entry.sourcePath)
  update fun op => op.setEntry i fun e => { e with objectIdentity := identity }
  Exec.require (result = 0) (resultOf result)
  Exec.require (identityValid identity = true) .ioFailed
  update fun op => op.setEntry i fun e =>
    { e with applied := true, cleanupState := .renameInProgress }
  checkpoint B .ioFailed
  let result ← renameExpected B entry.sourcePath entry.destinationPath identity
  Exec.require (result = 0) (resultOf result)
  update fun op => op.setEntry i fun e => { e with cleanupState := .renameSyncPending }

/-- What follows a successful forward rename. -/
def settleRename (i : Nat) : Exec Result (State W) Unit := do
  checkpoint B .ioFailed
  let op ← getOp
  let entry := op.entry i
  syncParentOnce B entry.destinationPath
  Exec.when (descendant entry.destinationPath entry.sourcePath = false)
    (syncParentOnce B entry.sourcePath)
  update fun op => op.setEntry i fun e => { e with cleanupState := .none }
  checkpoint B .ioFailed

/-- `file_operation_pump_namespace` for the operations that move objects, without its failure
handling. -/
def forwardNamespace : Exec Result (State W) Result := do
  let op ← getOp
  if op.entryCount ≤ op.entryIndex then do
    update fun op => { op with active := false }
    pure .completed
  else do
    let i := op.entryIndex
    Exec.require (op.cancelRequested = false) .cancelled
    conflict B i
    let op ← getOp
    if skipped op i = true then finishEntry (pure ())
    else finishEntry do
      renameEntry B i
      settleRename B i

/-! ## §2. Deletions. -/

/-- `file_operation_pump_namespace` for `DELETE`: a failure ends the operation without a rollback. -/
def forwardDelete : Exec Result (State W) Result := do
  let op ← getOp
  if op.entryCount ≤ op.entryIndex then do
    update fun op => { op with active := false }
    pure .completed
  else do
    let i := op.entryIndex
    let entry := op.entry i
    if op.cancelRequested = true then do
      update fun op => { op with pendingResult := .cancelled }
      Exec.fail .cancelled
    else do
      let result ← askRecorded (.remove entry.sourcePath)
        (if entry.kind = .directory then B.removeDirectory entry.sourcePath
          else B.removeFile entry.sourcePath)
      Exec.require (result = 0) (resultOf result)
      update fun op => op.setEntry i fun e => { e with applied := true }
      syncParentOnce B entry.sourcePath
      update nextEntry
      pure .inProgress

/-! ## §3. Undoing a finished replacement. -/

/-- `path_identity` and the comparison of `file_operation_pump_replace_undo`. -/
def undoExpect (path : Path) (identity : Identity) : Exec Result (State W) Unit :=
  (expectIdentity B path identity).orFail fun _ => .conflict

/-- Remove the object that entry `i` created. -/
def undoRemove (i : Nat) : Exec Result (State W) Unit := do
  let op ← getOp
  let entry := op.entry i
  let result ← askRecorded (.remove entry.destinationPath)
    (removeExpected B (entry.kind == .directory) entry.destinationPath entry.objectIdentity)
  Exec.require (result = 0) (resultOf result)
  syncParentOnce B entry.destinationPath
  checkpoint B .ioFailed

/-- Forget what entry `i` created. -/
def forgetCreated (i : Nat) (op : Operation) : Operation :=
  op.setEntry i fun e => { e with created := false, objectIdentity := Identity.zero }

/-- `--operation->entry_index`. -/
def previousEntry (op : Operation) : Operation := { op with entryIndex := op.entryIndex - 1 }

/-- Remove what is at the destination of entry `i`, after the record has been saved in state
`mark`. -/
def undoOccupied (i : Nat) (mark : Operation → Operation) : Exec Result (State W) Unit := do
  let op ← getOp
  undoExpect B (op.entry i).destinationPath (op.entry i).objectIdentity
  update mark
  checkpoint B .ioFailed
  undoRemove B i

/-- The branch of `file_operation_pump_replace_undo` for an entry that replaced nothing. -/
def undoCreated (i : Nat) (destinationState : Int) : Exec Result (State W) Result := do
  Exec.when (destinationState = 1) (undoOccupied B i id)
  update (forgetCreated i)
  checkpoint B .ioFailed
  update previousEntry
  pure .inProgress

/-- The removal half of the branch for an entry that replaced something. -/
def undoDisplacing (i : Nat) (destinationState : Int) : Exec Result (State W) Unit := do
  Exec.when (destinationState = 1) (undoOccupied B i (setReplacement i .undoRemoveInProgress))
  update (setReplacement i .undoRestoreInProgress)
  checkpoint B .ioFailed

/-- The rename of the restoring half, unless it has happened already. -/
def undoRename (entry : Entry) (backupState destinationState : Int) :
    Exec Result (State W) Unit :=
  if backupState = 1 ∧ destinationState = 0 then do
    undoExpect B entry.backupPath entry.backupIdentity
    checkpoint B .ioFailed
    let result ← renameExpected B entry.backupPath entry.destinationPath entry.backupIdentity
    Exec.require (result = 0) (resultOf result)
  else do
    Exec.require (backupState = 0 ∧ destinationState = 1) .conflict
    undoExpect B entry.destinationPath entry.backupIdentity

/-- The restoring half of that branch. -/
def undoRestore (i : Nat) : Exec Result (State W) Result := do
  let op ← getOp
  let entry := op.entry i
  let backupState ← ask (B.pathState entry.backupPath)
  let destinationState ← ask (B.pathState entry.destinationPath)
  Exec.require (0 ≤ backupState ∧ 0 ≤ destinationState) .ioFailed
  undoRename B entry backupState destinationState
  syncParentOnce B entry.destinationPath
  update (clearReplacement i)
  update (forgetCreated i)
  checkpoint B .ioFailed
  update previousEntry
  pure .inProgress

/-- `file_operation_pump_replace_undo`. -/
def pumpReplaceUndo : Exec Result (State W) Result := do
  let op ← getOp
  if op.entryIndex = 0 then do
    update fun op => { op with active := false, replaceUndoActive := false }
    pure .completed
  else do
    let i := op.entryIndex - 1
    let entry := op.entry i
    if entry.skip = true ∨ entry.created = false then do
      update previousEntry
      pure .inProgress
    else do
      let destinationState ← ask (B.pathState entry.destinationPath)
      Exec.require (0 ≤ destinationState) .ioFailed
      if entry.replacementState = .none then undoCreated B i destinationState
      else do
        Exec.require (entry.replacementState = .backupHeld ∨
          entry.replacementState = .undoRemoveInProgress ∨
          entry.replacementState = .undoRestoreInProgress) .conflict
        Exec.when (entry.replacementState ≠ .undoRestoreInProgress)
          (undoDisplacing B i destinationState)
        undoRestore B i

/-! ## §4. The calls of the interface. -/

/-- Run a forward step; its failure starts the rollback. -/
def runForward (forward : Exec Result (State W) Result) (s : State W) : Result × State W :=
  match forward s with
  | (.ok result, s') => (result, s')
  | (.error result, s') => finishFailure B result s'

/-- `rinruntime_file_operation_pump`. -/
def pump (s : State W) : Result × State W :=
  if s.op.active = false then (.invalidArgument, s)
  else if s.op.rollbackActive = true then settleRollback B (fun op => op.pendingResult) s
  else if s.op.replaceUndoActive = true then
    match pumpReplaceUndo B s with
    | (.ok result, s') => (result, s')
    | (.error result, s') => (.rollbackFailed, { s' with op := { s'.op with
        pendingResult := result, active := false, recoveryRequired := true } })
  else
    match s.op.operation with
    | .copy => runForward B (forwardCopy B) s
    | .delete =>
        match forwardDelete B s with
        | (.ok result, s') => (result, s')
        | (.error result, s') => (result, { s' with op := { s'.op with active := false } })
    | _ => runForward B (forwardNamespace B) s

/-- `rinruntime_file_operation_cancel`. -/
def cancel (s : State W) : Result × State W :=
  if s.op.active = false then (.invalidArgument, s)
  else (.inProgress, { s with op := { s.op with cancelRequested := true } })

/-- `file_operation_backend_valid`, as far as a callback can be missing. -/
def backendValid (kind : OperationKind) : Bool :=
  kind == .copy || kind == .delete || B.renameNoReplaceExpected.isSome

/-- The result a finished recovery reports. -/
def recoveryResult (op : Operation) : Result :=
  if op.pendingResult = .ok ∨ op.pendingResult = .inProgress ∨ op.pendingResult = .completed then
    .ioFailed
  else op.pendingResult

/-- `rinruntime_file_operation_retry_recovery`. -/
def retryRecovery (s : State W) : Result × State W :=
  if s.op.active = true ∨ s.op.recoveryRequired = false ∨ s.op.entryCount = 0 ∨
      backendValid B s.op.operation = false then (.invalidArgument, s)
  else
    settleRollback B recoveryResult { s with op := { s.op with
      active := true
      rollbackActive := true
      rollbackIndex := min s.op.rollbackIndex s.op.entryCount } }

/-! ## §5. Starting an operation. -/

/-- `RINRUNTIME_FILE_OPERATION_ENTRY_LIMIT`. -/
def entryLimit : Nat := 4096

/-- `file_operation_entry_valid`; kinds, flags and states are valid by their types. -/
def entryValid (entry : Entry) (kind : OperationKind) : Bool :=
  pathValid entry.sourcePath &&
  (kind == .delete || pathValid entry.destinationPath) &&
  (if entry.replacementState = .none then
      entry.backupPath == [] && identityEmpty entry.backupIdentity
    else pathValid entry.backupPath && identityValid entry.backupIdentity) &&
  (!(entry.created || entry.applied) || identityValid entry.objectIdentity) &&
  (identityEmpty entry.objectIdentity || identityIntentValid entry.objectIdentity)

/-- The entry loop of `rinruntime_file_operation_start`: entry `index`, with the bytes counted so
far; what it returns is the count after it. -/
def startEntryCheck (kind : OperationKind) (plan : List Entry) (index total : Nat) :
    Except Result Nat :=
  let entry := plan.getD index Entry.zero
  if entryValid entry kind = false then .error .invalidArgument
  else if entry.created = true ∨ entry.applied = true ∨ entry.cleanupState ≠ .none ∨
      entry.objectIdentity.device ≠ 0 ∨ entry.objectIdentity.inode ≠ 0 ∨
      entry.objectIdentity.generation ≠ 0 ∨ entry.replacementState ≠ .none ∨
      entry.backupPath ≠ [] ∨ identityEmpty entry.backupIdentity = false then
    .error .invalidArgument
  else if kind ≠ .copy then .ok total
  else if entry.kind = .directory ∧
      descendant entry.sourcePath entry.destinationPath = true then .error .conflict
  else if entry.kind = .file then
    if u64Max - total < entry.sizeBytes then .error .invalidArgument
    else .ok (total + entry.sizeBytes)
  else if entry.kind = .hardlink then
    if index ≤ entry.linkSourceIndex then .error .invalidArgument
    else
      let source := plan.getD entry.linkSourceIndex Entry.zero
      if source.kind ≠ .file ∧ source.kind ≠ .hardlink then .error .invalidArgument
      else .ok total
  else .ok total

/-- An entry of the snapshot `rinruntime_file_operation_start` takes. -/
def snapshotEntry (entry : Entry) : Entry :=
  { entry with skip := false, cleanupState := .none, objectIdentity := Identity.zero }

/-- The record of an accepted plan. -/
def startRecord (op : Operation) (kind : OperationKind) (policy : ConflictPolicy)
    (plan : List Entry) (total : Nat) : Operation :=
  { op with
    operation := kind
    entries := plan.map snapshotEntry
    entryIndex := 0
    conflictPolicy := policy
    active := true
    cancelRequested := false
    fileOpen := false
    temporaryCreated := false
    sparseFileEnabled := false
    sparseOutputSized := false
    sourceHandle := 0
    temporaryHandle := 0
    temporaryPath := []
    totalBytes := total
    completedBytes := 0
    completedItems := 0
    sparseDataEnd := 0
    recoveryRequired := false
    replaceUndoActive := false
    temporaryCleanupState := .none
    pendingResult := .ok
    rollbackIndex := plan.length
    temporaryIdentity := Identity.zero }

/-- `rinruntime_file_operation_start`; `memory` says whether the snapshot can be allocated. -/
def start (op : Operation) (kind : OperationKind) (policy : ConflictPolicy) (plan : List Entry)
    (memory : Bool) : Result × Operation :=
  if op.active = true then (.invalidArgument, op)
  else if op.recoveryRequired = true ∨ op.entries ≠ [] then (.busy, op)
  else if plan = [] ∨ entryLimit < plan.length ∨ backendValid B kind = false then
    (.invalidArgument, op)
  else if policy = .replace ∧ (kind ≠ .copy ∨ B.replacementBackupPath.isSome = false ∨
      B.renameNoReplaceExpected.isSome = false ∨ B.checkpoint.isSome = false) then
    (.unsupported, op)
  else
    match (List.range plan.length).foldlM (fun total index =>
        startEntryCheck kind plan index total) 0 with
    | .error result => (result, op)
    | .ok total =>
        if kind = .copy ∧
            ((plan.any (·.kind == .symlink) = true ∧ (B.readSymlink.isSome = false ∨
              B.createSymlinkWithToken.isSome = false)) ∨
            (plan.any (·.kind == .hardlink) = true ∧ B.linkNoReplace.isSome = false)) then
          (.unsupported, op)
        else if memory = false then (.noMemory, op)
        else (.inProgress, startRecord op kind policy plan total)

/-! ## §6. Runs. -/

/-- What happens to an operation: a call, or the caller changing the `SKIP` flag of an entry. -/
inductive Command where
  | pump
  | cancel
  | retryRecovery
  | setSkip (i : Nat) (skip : Bool)
  deriving DecidableEq

/-- Carry out a command. A change of `SKIP` is no call and has no result of its own. -/
def step (command : Command) (s : State W) : Result × State W :=
  match command with
  | .pump => pump B s
  | .cancel => cancel s
  | .retryRecovery => retryRecovery B s
  | .setSkip i skip => (.ok, { s with op := s.op.setEntry i fun e => { e with skip := skip } })

/-- Carry out commands one after another: the results and the final state. -/
def runCommands : List Command → State W → List Result × State W
  | [], s => ([], s)
  | command :: rest, s =>
      let (result, s') := step B command s
      let (results, s'') := runCommands rest s'
      (result :: results, s'')

/-- `s` is reached from `s₀` by commands that each meet the condition in the state they act on. -/
inductive Reaches (condition : Command → State W → Prop) (s₀ : State W) : State W → Prop
  | refl : Reaches condition s₀ s₀
  | step {s : State W} (command : Command) :
      Reaches condition s₀ s → condition command s →
      Reaches condition s₀ (step B command s).2

end RinRuntime.FileOperation

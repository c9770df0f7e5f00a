/-
FileOperation.Copy — the copying side of `src/file_operation.c`.

One call of `file_operation_pump_copy` settles an entry without contents, opens a file, moves one
chunk of it, or finishes it. `forwardCopy` is that function up to its calls of
`file_operation_finish_failure`: every such call is a failure with the result it passes on.
-/
import RinRuntime.FileOperation.Recovery

namespace RinRuntime.FileOperation
open Lib
variable {W ε α : Type} (B : Backend W)

/-! ## §1. Skipping and conflicts. -/

/-- `file_operation_skipped`. -/
def skipped (op : Operation) (index : Nat) : Bool :=
  (op.entry index).skip ||
    (List.range index).any fun previous =>
      (op.entry previous).skip && (op.entry previous).kind == .directory &&
        descendant (op.entry previous).sourcePath (op.entry index).sourcePath

/-- `file_operation_copy_metadata` for entry `i`. -/
def copyMetadata (i : Nat) (destination : Path) : Exec Result (State W) Unit :=
  match B.copyMetadata with
  | none => pure ()
  | some callback => do
      let op ← getOp
      let entry := op.entry i
      let result ← ask (callback entry.sourcePath destination entry.kind)
      Exec.require (result = 0) (resultOf result)

/-- The optional `replacement_backup_path`; it is only called where it has been checked for. -/
def chooseBackupPath (destination : Path) (identity : Identity) : Exec ε (State W) (Int × Path) :=
  match B.replacementBackupPath with
  | none => pure (-1, [])
  | some callback => ask (callback destination identity)

/-- The optional `choose_renamed_destination`; it is only called where it has been checked for. -/
def chooseRenamed (source destination : Path) : Exec ε (State W) (Int × Path) :=
  match B.chooseRenamedDestination with
  | none => pure (-1, [])
  | some callback => ask (callback source destination)

/-- The displacement of an occupied destination to a backup path. -/
def displaceDestination (i : Nat) : Exec Result (State W) Unit := do
  let op ← getOp
  let entry := op.entry i
  let (result, identity) ← ask (B.pathIdentity entry.destinationPath)
  Exec.require (result = 0) (resultOf result)
  Exec.require (identityValid identity = true) .ioFailed
  let (result, backup) ← chooseBackupPath B entry.destinationPath identity
  Exec.require (result = 0 ∧ pathValid backup = true ∧ backup ≠ [] ∧
    backup ≠ entry.destinationPath ∧ backup ≠ entry.sourcePath) .conflict
  let state ← ask (B.pathState backup)
  Exec.require (state = 0) .conflict
  update fun op => op.setEntry i fun e => { e with
    backupPath := backup, backupIdentity := identity, replacementState := .backupInProgress }
  checkpoint B .ioFailed
  let result ← renameExpected B entry.destinationPath backup identity
  Exec.require (result = 0) (resultOf result)
  syncParentOnce B entry.destinationPath
  update (setReplacement i .backupHeld)
  checkpoint B .ioFailed

/-- The `REPLACE` branch of `file_operation_conflict`. -/
def conflictReplace (i : Nat) : Exec Result (State W) Unit := do
  let op ← getOp
  Exec.require (op.operation = .copy ∧ B.replacementBackupPath.isSome = true ∧
    B.renameNoReplaceExpected.isSome = true ∧ B.checkpoint.isSome = true) .unsupported
  Exec.when ((op.entry i).replacementState = .none) (displaceDestination B i)
  let op ← getOp
  Exec.require ((op.entry i).replacementState = .backupHeld) .conflict
  let state ← ask (B.pathState (op.entry i).destinationPath)
  Exec.require (state = 0) (if state = 1 then .conflict else resultOf state)

/-- The `RENAME` branch of `file_operation_conflict`. -/
def conflictRename (i : Nat) : Exec Result (State W) Unit := do
  let op ← getOp
  let entry := op.entry i
  Exec.require (entry.kind = .file ∧ op.entryCount = 1 ∧
    B.chooseRenamedDestination.isSome = true) .unsupported
  let (result, renamed) ← chooseRenamed B entry.sourcePath entry.destinationPath
  Exec.require (result = 0 ∧ pathValid renamed = true) .ioFailed
  let state ← ask (B.pathState renamed)
  Exec.require (state = 0) (if state = 1 then .conflict else resultOf state)
  update fun op => op.setEntry i fun e => { e with destinationPath := renamed }

/-- `file_operation_conflict` for entry `i`. -/
def conflict (i : Nat) : Exec Result (State W) Unit := do
  let op ← getOp
  let state ← ask (B.pathState (op.entry i).destinationPath)
  if state = 0 then pure ()
  else do
    Exec.require (state = 1) (resultOf state)
    match op.conflictPolicy with
    | .fail => Exec.fail .conflict
    | .skip => update fun op => op.setEntry i fun e => { e with skip := true }
    | .replace => conflictReplace B i
    | .rename => conflictRename B i

/-! ## §2. Opening a file. -/

/-- Close both handles and report an error. -/
def closeAndFail (e : ε) : Exec ε (State W) α := do
  let _ ← closeFiles B
  Exec.fail e

/-- `file_operation_temporary_path`: whether the next temporary name could be built. -/
def nextTemporaryPath (destination : Path) : Exec ε (State W) Bool := do
  if pathMax ≤ destination.length then pure false
  else do
    update fun op => { op with
      temporaryPath := destination, temporarySequence := (op.temporarySequence + 1) % 2 ^ 64 }
    let op ← getOp
    if temporaryFits destination op.temporarySequence = false then pure false
    else do
      update fun op =>
        { op with temporaryPath := temporaryName destination op.temporarySequence }
      let op ← getOp
      pure (pathValid op.temporaryPath)

/-- Forget the temporary file. -/
def forgetTemporary (op : Operation) : Operation :=
  { op with temporaryCreated := false, temporaryPath := [], temporaryIdentity := Identity.zero }

/-- The end of `file_operation_open_copy`, once the temporary file is open. -/
def adoptTemporary (token : Token) : Exec Result (State W) Unit := do
  update fun op => { op with fileOpen := true }
  let op ← getOp
  let (result, current) ← ask (B.handleIdentity op.temporaryHandle)
  Exec.require (result = 0) (resultOf result)
  Exec.require (identityValid current = true ∧ tokenMatches current token = true) .ioFailed
  update fun op => { op with temporaryIdentity := current }
  checkpoint B .ioFailed
  update fun op => { op with
    sparseFileEnabled := B.sparse.isSome, sparseOutputSized := false, sparseDataEnd := 0 }

/-- The attempts of `file_operation_open_copy` at creating a temporary file. -/
def openTemporary (i : Nat) : Nat → Exec Result (State W) Unit
  | 0 => closeAndFail B .conflict
  | attempts + 1 => do
      let op ← getOp
      let named ← nextTemporaryPath (op.entry i).destinationPath
      if named = false then closeAndFail B .invalidArgument
      else do
        let (result, token) ← ask B.randomOperationToken
        if result ≠ 0 ∨ tokenValid token = false then closeAndFail B .ioFailed
        else do
          update fun op =>
            { op with temporaryIdentity := Identity.ofToken token, temporaryCreated := true }
          let saved ← checkpointSaved B
          if saved = false then do
            update forgetTemporary
            closeAndFail B .ioFailed
          else do
            let op ← getOp
            let (result, handle) ← ask (B.openCreateExclusiveWithToken op.temporaryPath token)
            update fun op => { op with temporaryHandle := handle }
            if result = backendPathExists then do
              update forgetTemporary
              let saved ← checkpointSaved B
              if saved = false then closeAndFail B .ioFailed else openTemporary i attempts
            else if result ≠ 0 ∨ handle = 0 then
              closeAndFail B (if result = 0 then .ioFailed else resultOf result)
            else adoptTemporary B token

/-- The size test of `file_operation_open_copy`, for a backend that can tell the size of a file. -/
def expectSize (sizeBytes handle : Nat) : Exec Result (State W) Unit :=
  match B.sparse with
  | none => pure ()
  | some sparse => do
      let (result, size) ← ask (sparse.fileSize handle)
      if result ≠ 0 ∨ size ≠ sizeBytes then
        closeAndFail B (if result = 0 then .ioFailed else resultOf result)
      else pure ()

/-- `file_operation_open_copy` for entry `i`. -/
def openCopy (i : Nat) : Exec Result (State W) Unit := do
  let op ← getOp
  let entry := op.entry i
  let (result, handle) ← askRecorded (.openRead entry.sourcePath) (B.openRead entry.sourcePath)
  update fun op => { op with sourceHandle := handle }
  Exec.require (result = 0) (resultOf result)
  Exec.require (handle ≠ 0) .ioFailed
  expectSize B entry.sizeBytes handle
  openTemporary B i 16

/-! ## §3. Moving the bytes. -/

/-- The largest value of a 64-bit counter. -/
def u64Max : Nat := 2 ^ 64 - 1

/-- `file_operation_entry_completed`: what `completed_bytes` says about the current entry. -/
def entryCompleted (op : Operation) : Option Nat :=
  (List.range op.entryIndex).foldlM (fun completed index =>
    let prior := op.entry index
    if prior.kind ≠ .file then some completed
    else if completed < prior.sizeBytes then none
    else some (completed - prior.sizeBytes)) op.completedBytes

/-- `file_operation_sparse_size_output` for entry `i`. -/
def sparseSizeOutput (sparse : SparseBackend W) (i : Nat) : Exec Result (State W) Unit := do
  let op ← getOp
  if op.sparseOutputSized = true then pure ()
  else do
    let result ← ask (sparse.truncate op.temporaryHandle (op.entry i).sizeBytes)
    Exec.require (result = 0) (resultOf result)
    update fun op => { op with sparseOutputSized := true }

/-- A `SEEK_SET` that has to arrive where it was sent. -/
def positionAt (sparse : SparseBackend W) (handle offset : Nat) : Exec Result (State W) Unit := do
  let (result, positioned) ← ask (sparse.seek handle offset .set)
  Exec.require (result = 0) (resultOf result)
  Exec.require (positioned = offset) .ioFailed

/-- Add to `completed_bytes`, with the overflow test of `file_operation_prepare_sparse_extent`. -/
def advanceCompleted (bytes sparseDataEnd : Nat) : Exec Result (State W) Unit := do
  let op ← getOp
  Exec.require (¬ u64Max - op.completedBytes < bytes) .ioFailed
  update fun op => { op with
    completedBytes := op.completedBytes + bytes, sparseDataEnd := sparseDataEnd }

/-- The extent search of `file_operation_prepare_sparse_extent`: the offset the copy goes on at. -/
def prepareExtent (sparse : SparseBackend W) (i completed : Nat) : Exec Result (State W) Nat := do
  let op ← getOp
  let entry := op.entry i
  let (result, dataStart) ← ask (sparse.seek op.sourceHandle completed .data)
  if result = backendSparseUnsupported then do
    update fun op => { op with sparseFileEnabled := false, sparseDataEnd := 0 }
    pure completed
  else do
    sparseSizeOutput sparse i
    if result = backendNoData then do
      advanceCompleted (entry.sizeBytes - completed) 0
      pure entry.sizeBytes
    else do
      Exec.require (result = 0) (resultOf result)
      Exec.require (¬ (dataStart < completed ∨ entry.sizeBytes ≤ dataStart)) .ioFailed
      let (result, dataEnd) ← ask (sparse.seek op.sourceHandle dataStart .hole)
      Exec.require (result = 0) (resultOf result)
      Exec.require (¬ (dataEnd ≤ dataStart ∨ entry.sizeBytes < dataEnd)) .ioFailed
      positionAt sparse op.sourceHandle dataStart
      positionAt sparse op.temporaryHandle dataStart
      advanceCompleted (dataStart - completed) dataEnd
      pure dataStart

/-- `file_operation_prepare_sparse_extent` for entry `i`. -/
def prepareSparseExtent (i completed : Nat) : Exec Result (State W) Nat := do
  let op ← getOp
  if op.sparseFileEnabled = false then pure completed
  else if (op.entry i).sizeBytes ≤ completed then do
    Exec.require (completed = (op.entry i).sizeBytes) .ioFailed
    pure completed
  else
    match B.sparse with
    | none => pure completed  -- the flag is only set for a backend that has the callbacks
    | some sparse => prepareExtent sparse i completed

/-- The write loop of `file_operation_pump_copy`. Every round takes at least one byte, so as many
rounds as there are bytes are enough. -/
def writeAll : Nat → List UInt8 → Exec Result (State W) Unit
  | 0, _ => pure ()
  | rounds + 1, bytes =>
      if bytes = [] then pure ()
      else do
        let op ← getOp
        let (result, written) ← ask (B.write op.temporaryHandle bytes)
        Exec.require (result = 0) (resultOf result)
        Exec.require (written ≠ 0 ∧ written ≤ bytes.length) .ioFailed
        writeAll rounds (bytes.drop written)

/-! ## §4. Publishing a file. -/

/-- The publication of `file_operation_finish_copy`: the temporary object gets its name. -/
def publishCopy (i : Nat) : Exec Result (State W) Unit := do
  update fun op => op.setEntry i fun e => { e with
    created := true
    objectIdentity := op.temporaryIdentity
    replacementState :=
      if e.replacementState = .backupHeld then .publishInProgress else e.replacementState }
  checkpoint B .ioFailed
  let op ← getOp
  let entry := op.entry i
  let result ← ask (B.publishNoReplace op.temporaryPath entry.destinationPath)
  Exec.require (result = 0) (resultOf result)
  checkpoint B .ioFailed
  let (result, current) ← ask (B.pathIdentity entry.destinationPath)
  Exec.require (result = 0) (resultOf result)
  Exec.require (identityValid entry.objectIdentity = true) .ioFailed
  Exec.require (identityEqual current entry.objectIdentity = true) .conflict
  update fun op => { op with temporaryIdentity := current }
  update fun op => op.setEntry i fun e => { e with
    replacementState :=
      if e.replacementState = .publishInProgress then .backupHeld else e.replacementState }
  syncParentOnce B entry.destinationPath
  checkpoint B .ioFailed

/-- `file_operation_finish_copy` for entry `i`. -/
def finishCopy (i : Nat) : Exec Result (State W) Unit := do
  let op ← getOp
  copyMetadata B i op.temporaryPath
  let result ← ask (B.syncFile op.temporaryHandle)
  Exec.require (result = 0) (resultOf result)
  let closed ← closeFiles B
  Exec.require (closed = true) .ioFailed
  publishCopy B i
  let op ← getOp
  (cleanupCreatedPath B op.temporaryPath false .temporary).orFail fun _ => .ioFailed
  update forgetTemporary

/-! ## §5. Entries without contents. -/

/-- `file_operation_symlink_target_valid`. -/
def symlinkTargetValid (target : List UInt8) : Bool :=
  decide (0 < target.length ∧ target.length < pathMax) && target.all (· != 0)

/-- `file_operation_prepare_entry_token` for entry `i`. -/
def prepareEntryToken (i : Nat) : Exec Result (State W) Unit := do
  let op ← getOp
  if identityHasToken (op.entry i).objectIdentity = true then pure ()
  else do
    Exec.require (identityEmpty (op.entry i).objectIdentity = true) .ioFailed
    let (result, token) ← ask B.randomOperationToken
    Exec.require (result = 0 ∧ tokenValid token = true) .ioFailed
    update fun op => op.setEntry i fun e =>
      { e with objectIdentity := { e.objectIdentity with operationToken := token } }
    let saved ← checkpointSaved B
    if saved = false then do
      update fun op => op.setEntry i fun e => { e with objectIdentity := Identity.zero }
      Exec.fail .ioFailed
    else pure ()

/-- An entry's creation met an existing name: its intent is forgotten. -/
def forgetIntent (i : Nat) : Exec Result (State W) Unit := do
  update fun op => op.setEntry i fun e => { e with objectIdentity := Identity.zero }
  let _ ← checkpointSaved B
  Exec.fail .conflict

/-- Record the object that a creation left at the destination of entry `i`. -/
def recordCreated (i : Nat) (current : Identity) : Exec Result (State W) Unit := do
  update fun op => op.setEntry i fun e => { e with objectIdentity := current, created := true }
  checkpoint B .ioFailed

/-- What follows the creation of a directory or a symlink: the new object has to carry the token. -/
def adoptEntry (i : Nat) (result : Int) (token : Token) : Exec Result (State W) Unit := do
  if result = backendPathExists then forgetIntent B i
  else do
    Exec.require (result = 0) (resultOf result)
    let op ← getOp
    let (result, current) ← ask (B.pathIdentity (op.entry i).destinationPath)
    Exec.require (result = 0) (resultOf result)
    Exec.require (identityValid current = true ∧ tokenMatches current token = true) .ioFailed
    recordCreated B i current

/-- The `DIRECTORY` branch of `file_operation_pump_copy`. -/
def createDirectory (i : Nat) : Exec Result (State W) Unit := do
  prepareEntryToken B i
  let op ← getOp
  let entry := op.entry i
  let token := entry.objectIdentity.operationToken
  let result ← ask (B.mkdirWithToken entry.destinationPath token)
  adoptEntry B i result token
  let result ← ask (B.syncDirectory entry.destinationPath)
  Exec.require (result = 0) (resultOf result)
  syncParentOnce B entry.destinationPath

/-- The callbacks `file_operation_create_symlink` needs. -/
def createSymlinkAt (target : List UInt8) (destination : Path) (token : Token) :
    Exec Result (State W) Int :=
  match B.createSymlinkWithToken with
  | none => pure (-1)
  | some callback => ask (callback target destination token)

/-- `file_operation_create_symlink` for entry `i`. -/
def createSymlink (i : Nat) : Exec Result (State W) Unit :=
  match B.readSymlink with
  | none => Exec.fail .unsupported
  | some readSymlink => do
      Exec.require (B.createSymlinkWithToken.isSome = true) .unsupported
      let op ← getOp
      let (result, target) ← ask (readSymlink (op.entry i).sourcePath)
      Exec.require (result = 0) (resultOf result)
      Exec.require (symlinkTargetValid target = true) .ioFailed
      prepareEntryToken B i
      let op ← getOp
      let entry := op.entry i
      let token := entry.objectIdentity.operationToken
      let result ← createSymlinkAt B target entry.destinationPath token
      adoptEntry B i result token
      copyMetadata B i entry.destinationPath
      syncParentOnce B entry.destinationPath

/-- The link of `file_operation_create_hardlink`, once the intent has been saved. -/
def linkEntry (linkNoReplace : Path → Path → W → Int × W) (i : Nat) (source : Entry) :
    Exec Result (State W) Unit := do
  let op ← getOp
  let destination := (op.entry i).destinationPath
  let result ← ask (linkNoReplace source.destinationPath destination)
  if result = backendPathExists then forgetIntent B i
  else do
    Exec.require (result = 0) (resultOf result)
    let (result, current) ← ask (B.pathIdentity destination)
    Exec.require (result = 0) (resultOf result)
    Exec.require (identityValid current = true) .ioFailed
    Exec.require (identityEqual current source.objectIdentity = true) .conflict
    recordCreated B i current
    syncParentOnce B destination

/-- `file_operation_create_hardlink` for entry `i`. -/
def createHardlink (i : Nat) : Exec Result (State W) Unit :=
  match B.linkNoReplace with
  | none => Exec.fail .unsupported
  | some linkNoReplace => do
      let op ← getOp
      let entry := op.entry i
      Exec.require (entry.linkSourceIndex < op.entryIndex) .unsupported
      let source := op.entry entry.linkSourceIndex
      Exec.require (identityValid source.objectIdentity = true ∧
        identityHasToken source.objectIdentity = true) .unsupported
      update fun op => op.setEntry i fun e => { e with objectIdentity := source.objectIdentity }
      checkpoint B .ioFailed
      linkEntry B linkNoReplace i source

/-- `file_operation_finish_directories`, from entry `index - 1` down. -/
def finishDirectories : Nat → Exec Result (State W) Unit
  | 0 => pure ()
  | index + 1 => do
      let op ← getOp
      let entry := op.entry index
      if entry.kind ≠ .directory ∨ entry.created = false then finishDirectories index
      else do
        copyMetadata B index entry.destinationPath
        let result ← ask (B.syncDirectory entry.destinationPath)
        Exec.require (result = 0) (resultOf result)
        syncParentOnce B entry.destinationPath
        finishDirectories index

/-! ## §6. The pump. -/

/-- Go on to the next entry. -/
def nextEntry (op : Operation) : Operation :=
  { op with
    entryIndex := op.entryIndex + 1
    completedItems := (op.completedItems + 1) % 2 ^ 64 }

/-- Finish the current entry with `step`. -/
def finishEntry (step : Exec Result (State W) Unit) : Exec Result (State W) Result := do
  step
  update nextEntry
  pure .inProgress

/-- `RINRUNTIME_FILE_OPERATION_COPY_CHUNK_SIZE`. -/
def copyChunkSize : Nat := 64 * 1024

/-- The read capacity of one call. -/
def readCapacity (op : Operation) (completed : Nat) : Nat :=
  if op.sparseFileEnabled = true then min copyChunkSize (op.sparseDataEnd - completed)
  else copyChunkSize

/-- One chunk from the source to the temporary file. -/
def transferChunk (i completed : Nat) : Exec Result (State W) Result := do
  let op ← getOp
  let entry := op.entry i
  Exec.require (¬ (op.sparseFileEnabled = true ∧ op.sparseDataEnd ≤ completed)) .ioFailed
  let (result, bytes) ← ask (B.read op.sourceHandle (readCapacity op completed))
  Exec.require (result = 0) (resultOf result)
  Exec.require (bytes.length ≤ readCapacity op completed) .ioFailed
  if bytes = [] then do
    Exec.require (completed = entry.sizeBytes) .ioFailed
    finishEntry (finishCopy B i)
  else do
    Exec.require (bytes.length ≤ entry.sizeBytes - completed) .ioFailed
    writeAll B bytes.length bytes
    update fun op => { op with completedBytes := (op.completedBytes + bytes.length) % 2 ^ 64 }
    pure .inProgress

/-- The part of `file_operation_pump_copy` that works on an open file. -/
def copyOpenFile (i : Nat) : Exec Result (State W) Result := do
  let op ← getOp
  let entry := op.entry i
  match entryCompleted op with
  | none => Exec.fail .ioFailed
  | some completed => do
      Exec.require (completed ≤ entry.sizeBytes) .ioFailed
      let completed ← prepareSparseExtent B i completed
      if completed = entry.sizeBytes then finishEntry (finishCopy B i)
      else transferChunk B i completed

/-- The part of `file_operation_pump_copy` that starts on an entry. -/
def startEntry (i : Nat) : Exec Result (State W) Result := do
  conflict B i
  let op ← getOp
  if skipped op i = true then pure .inProgress
  else
    match (op.entry i).kind with
    | .directory => finishEntry (createDirectory B i)
    | .symlink => finishEntry (createSymlink B i)
    | .hardlink => finishEntry (createHardlink B i)
    | .file => do
        openCopy B i
        copyOpenFile B i

/-- The bytes of a skipped file count as copied. -/
def skipBytes (sizeBytes : Nat) : Exec Result (State W) Unit := do
  let op ← getOp
  Exec.require (¬ u64Max - op.completedBytes < sizeBytes) .ioFailed
  update fun op => { op with completedBytes := op.completedBytes + sizeBytes }

/-- Pass over a skipped entry. -/
def skipEntry (i : Nat) : Exec Result (State W) Result := do
  let op ← getOp
  let entry := op.entry i
  Exec.when (entry.kind = .file) (skipBytes entry.sizeBytes)
  update nextEntry
  pure .inProgress

/-- `file_operation_pump_copy` without its failure handling. -/
def forwardCopy : Exec Result (State W) Result := do
  let op ← getOp
  if op.entryCount ≤ op.entryIndex then do
    finishDirectories B op.entryCount
    update fun op => { op with active := false }
    pure .completed
  else if skipped op op.entryIndex = true then skipEntry op.entryIndex
  else do
    Exec.require (op.cancelRequested = false) .cancelled
    if op.fileOpen = true then copyOpenFile B op.entryIndex
    else startEntry B op.entryIndex

end RinRuntime.FileOperation

/-
FileOperation.Contract — what `file_operation.h` promises about the callbacks.

What an operation can observe of a world is its `View`: the object each path names, the bytes of each file
object, and the object and position behind each open handle. `Lawful` states, callback by callback, how the
view may change. A failing call that changes the name space may have taken effect; nobody else changes the
view while an operation runs.
-/
import RinRuntime.FileOperation.Pump
import RinRuntime.Lib.ByteFile

namespace RinRuntime.FileOperation
open Lib NameTree ByteFile

/-! ## §1. Views. -/

/-- The object each path names. -/
abbrev Names := Path → Option Identity

/-- The observable part of a world. `content` is defined on file objects, those without a name left
included. -/
structure View where
  names : Names
  content : Identity → Option (List UInt8)
  handles : Nat → Option (Identity × Nat)

/-- `dst` becomes another name of the object at `src`. -/
def Linked (src dst : Path) (v v' : View) : Prop :=
  ∃ id, v.names src = some id ∧ v.names dst = none ∧ v' = { v with names := insert dst id v.names }

/-- A directory or symlink that carries the token appears at a missing path. -/
def Created (path : Path) (token : Token) (v v' : View) : Prop :=
  ∃ id : Identity, id.operationToken = token ∧ v.names path = none ∧
    v' = { v with names := insert path id v.names }

/-- An empty file that carries the token appears at a missing path; its object is new. -/
def CreatedFile (path : Path) (token : Token) (id : Identity) (v v' : View) : Prop :=
  id.operationToken = token ∧ v.names path = none ∧ v.content id = none ∧
    (∀ q, v.names q ≠ some id) ∧
    v'.names = insert path id v.names ∧ v'.content = Function.update v.content id (some [])

/-- The name of the expected object goes away. -/
def Removed (path : Path) (id : Identity) (v v' : View) : Prop :=
  v.names path = some id ∧ v' = { v with names := erase path v.names }

/-- The expected object moves, with everything below it, to a path with nothing at or below it. -/
def Renamed (src dst : Path) (id : Identity) (v v' : View) : Prop :=
  v.names src = some id ∧ Free slash v.names dst ∧ ¬ Under slash src dst ∧
    v' = { v with names := move slash src dst v.names }

/-- A call that takes effect when it succeeds, and may have taken effect when it fails. -/
def Attempt (result : Int) (Done : View → View → Prop) (v v' : View) : Prop :=
  (result = 0 → Done v v') ∧ (v' = v ∨ Done v v')

/-! ## §2. The contract. -/
section
variable {W α : Type} (view : W → View)

/-- The callback leaves the view as it is. -/
def Quiet (callback : W → α × W) : Prop := ∀ w, view (callback w).2 = view w

/-- The callback acts on one handle: names and the other handles stay. -/
def OnHandle (h : Nat) (callback : W → α × W) : Prop := ∀ w,
  (view (callback w).2).names = (view w).names ∧
  ∀ k, k ≠ h → (view (callback w).2).handles k = (view w).handles k

/-- A creation under a token: it takes effect as `Created`, and not at all when the path exists. -/
def CreatesEntry (path : Path) (token : Token) (callback : W → Int × W) : Prop := ∀ w,
  Attempt (callback w).1 (Created path token) (view w) (view (callback w).2) ∧
  ((callback w).1 = backendPathExists → view (callback w).2 = view w)

/-- The sparse callbacks do what `file_operation.h` says. -/
structure LawfulSparse (sparse : SparseBackend W) : Prop where
  seek_onHandle : ∀ h offset whence, OnHandle view h (sparse.seek h offset whence)
  seek_content : ∀ h offset whence w,
    (view (sparse.seek h offset whence w).2).content = (view w).content
  /-- A seek stays on the object of its handle and reports the position it leaves. -/
  seek_set : ∀ h offset w id position, (view w).handles h = some (id, position) →
    (sparse.seek h offset .set w).1.1 = 0 →
    (view (sparse.seek h offset .set w).2).handles h
      = some (id, (sparse.seek h offset .set w).1.2)
  seek_object : ∀ h offset whence w id position, (view w).handles h = some (id, position) →
    ∃ position', (view (sparse.seek h offset whence w).2).handles h = some (id, position')
  /-- The bytes that `SEEK_DATA` passes over are zero. -/
  seek_data : ∀ h offset w id position bytes, (view w).handles h = some (id, position) →
    (view w).content id = some bytes → (sparse.seek h offset .data w).1.1 = 0 →
    ∀ k, offset ≤ k → k < (sparse.seek h offset .data w).1.2 → bytes.getD k 0 = 0
  /-- `NO_DATA` says that no later byte is data. -/
  seek_noData : ∀ h offset w id position bytes, (view w).handles h = some (id, position) →
    (view w).content id = some bytes → (sparse.seek h offset .data w).1.1 = backendNoData →
    ∀ k, offset ≤ k → bytes.getD k 0 = 0
  seek_unsupported : ∀ h offset whence w,
    (sparse.seek h offset whence w).1.1 = backendSparseUnsupported →
    view (sparse.seek h offset whence w).2 = view w
  truncate_names : ∀ h size w, (view (sparse.truncate h size w).2).names = (view w).names
  truncate_handles : ∀ h size w, (view (sparse.truncate h size w).2).handles = (view w).handles
  truncate_other : ∀ h size w id, (∀ position, (view w).handles h ≠ some (id, position)) →
    (view (sparse.truncate h size w).2).content id = (view w).content id
  truncate_ok : ∀ h size w id position old, (view w).handles h = some (id, position) →
    (view w).content id = some old → (sparse.truncate h size w).1 = 0 →
    (view (sparse.truncate h size w).2).content id = some (resize old size)
  fileSize_quiet : ∀ h, Quiet view (sparse.fileSize h)
  fileSize_ok : ∀ h w id position bytes, (view w).handles h = some (id, position) →
    (view w).content id = some bytes → (sparse.fileSize h w).1.1 = 0 →
    (sparse.fileSize h w).1.2 = bytes.length

/-- **The callbacks do what `file_operation.h` says.** -/
structure Lawful (B : Backend W) : Prop where
  pathState_quiet : ∀ path, Quiet view (B.pathState path)
  pathState_named : ∀ path w, (B.pathState path w).1 = 1 → (view w).names path ≠ none
  pathState_missing : ∀ path w, (B.pathState path w).1 = 0 → (view w).names path = none
  pathIdentity_quiet : ∀ path, Quiet view (B.pathIdentity path)
  pathIdentity_found : ∀ path w, (B.pathIdentity path w).1.1 = 0 →
    (view w).names path = some (B.pathIdentity path w).1.2
  pathIdentity_failed : ∀ path w, (B.pathIdentity path w).1.1 ≠ 0 →
    (B.pathIdentity path w).1.2 = Identity.zero
  handleIdentity_quiet : ∀ h, Quiet view (B.handleIdentity h)
  handleIdentity_found : ∀ h w id position, (view w).handles h = some (id, position) →
    (B.handleIdentity h w).1.1 = 0 → (B.handleIdentity h w).1.2 = id
  randomOperationToken_quiet : Quiet view B.randomOperationToken
  /-- No object carries a new token. -/
  randomOperationToken_new : ∀ w path id, (B.randomOperationToken w).1.1 = 0 →
    (view w).names path = some id → id.operationToken ≠ (B.randomOperationToken w).1.2
  /-- A file opened for reading gets a new handle at its start. -/
  openRead_ok : ∀ path w, (B.openRead path w).1.1 = 0 →
    (B.openRead path w).1.2 ≠ 0 ∧ (view w).handles (B.openRead path w).1.2 = none ∧
    ∃ id bytes, (view w).names path = some id ∧ (view w).content id = some bytes ∧
      view (B.openRead path w).2 = { view w with
        handles := Function.update (view w).handles (B.openRead path w).1.2 (some (id, 0)) }
  openRead_failed : ∀ path w, (B.openRead path w).1.1 ≠ 0 →
    (B.openRead path w).1.2 = 0 ∧ view (B.openRead path w).2 = view w
  create_ok : ∀ path token w, (B.openCreateExclusiveWithToken path token w).1.1 = 0 →
    (B.openCreateExclusiveWithToken path token w).1.2 ≠ 0 ∧
    (view w).handles (B.openCreateExclusiveWithToken path token w).1.2 = none ∧
    ∃ id, CreatedFile path token id (view w) (view (B.openCreateExclusiveWithToken path token w).2) ∧
      (view (B.openCreateExclusiveWithToken path token w).2).handles
        = Function.update (view w).handles (B.openCreateExclusiveWithToken path token w).1.2
            (some (id, 0))
  create_failed : ∀ path token w, (B.openCreateExclusiveWithToken path token w).1.1 ≠ 0 →
    (B.openCreateExclusiveWithToken path token w).1.2 = 0 ∧
    (view (B.openCreateExclusiveWithToken path token w).2 = view w ∨
      ∃ id, CreatedFile path token id (view w)
        (view (B.openCreateExclusiveWithToken path token w).2))
  create_exists : ∀ path token w,
    (B.openCreateExclusiveWithToken path token w).1.1 = backendPathExists →
    view (B.openCreateExclusiveWithToken path token w).2 = view w
  read_onHandle : ∀ h capacity, OnHandle view h (B.read h capacity)
  read_content : ∀ h capacity w, (view (B.read h capacity w).2).content = (view w).content
  /-- A read returns the bytes at the position and moves past them. -/
  read_ok : ∀ h capacity w id position bytes, (view w).handles h = some (id, position) →
    (view w).content id = some bytes → (B.read h capacity w).1.1 = 0 →
    (B.read h capacity w).1.2 = (bytes.drop position).take (B.read h capacity w).1.2.length ∧
    (view (B.read h capacity w).2).handles h
      = some (id, position + (B.read h capacity w).1.2.length)
  write_onHandle : ∀ h bytes, OnHandle view h (B.write h bytes)
  write_other : ∀ h bytes w id, (∀ position, (view w).handles h ≠ some (id, position)) →
    (view (B.write h bytes w).2).content id = (view w).content id
  /-- A write stores the first bytes, as many as it reports, and moves past them. -/
  write_ok : ∀ h bytes w id position old, (view w).handles h = some (id, position) →
    (view w).content id = some old → (B.write h bytes w).1.1 = 0 →
    (view (B.write h bytes w).2).content id
      = some (overwrite old position (bytes.take (B.write h bytes w).1.2)) ∧
    (view (B.write h bytes w).2).handles h = some (id, position + (B.write h bytes w).1.2)
  syncFile_quiet : ∀ h, Quiet view (B.syncFile h)
  /-- A handle is gone after `close`, whatever it returns. -/
  close_drops : ∀ h w, view (B.close h w).2
    = { view w with handles := Function.update (view w).handles h none }
  mkdir_creates : ∀ path token, CreatesEntry view path token (B.mkdirWithToken path token)
  publish_links : ∀ src dst w, Attempt (B.publishNoReplace src dst w).1 (Linked src dst)
    (view w) (view (B.publishNoReplace src dst w).2)
  syncDirectory_quiet : ∀ path, Quiet view (B.syncDirectory path)
  removeFile_expected : ∀ path id w, Attempt (B.removeFileExpected path id w).1 (Removed path id)
    (view w) (view (B.removeFileExpected path id w).2)
  removeDirectory_expected : ∀ path id w,
    Attempt (B.removeDirectoryExpected path id w).1 (Removed path id)
      (view w) (view (B.removeDirectoryExpected path id w).2)
  copyMetadata_quiet : ∀ callback, B.copyMetadata = some callback →
    ∀ src dst kind, Quiet view (callback src dst kind)
  readSymlink_quiet : ∀ callback, B.readSymlink = some callback → ∀ path, Quiet view (callback path)
  symlink_creates : ∀ callback, B.createSymlinkWithToken = some callback →
    ∀ target path token, CreatesEntry view path token (callback target path token)
  link_links : ∀ callback, B.linkNoReplace = some callback → ∀ src dst w,
    Attempt (callback src dst w).1 (Linked src dst) (view w) (view (callback src dst w).2) ∧
    ((callback src dst w).1 = backendPathExists → view (callback src dst w).2 = view w)
  sparse_lawful : ∀ sparse, B.sparse = some sparse → LawfulSparse view sparse
  backupPath_quiet : ∀ callback, B.replacementBackupPath = some callback →
    ∀ path id, Quiet view (callback path id)
  renamedDestination_quiet : ∀ callback, B.chooseRenamedDestination = some callback →
    ∀ src dst, Quiet view (callback src dst)
  rename_expected : ∀ callback, B.renameNoReplaceExpected = some callback → ∀ src dst id w,
    Attempt (callback src dst id w).1 (Renamed src dst id) (view w) (view (callback src dst id w).2)
  checkpoint_quiet : ∀ callback, B.checkpoint = some callback → ∀ op, Quiet view (callback op)

end
end RinRuntime.FileOperation

/-
FileOperation.Disk — a file system in memory that meets the contract.

A disk is a view with the finitely many paths it names beside it, so that freshness of a name, an object or
a token can be decided. In `diskBackend fails` the `n`-th call that changes or saves something fails without
effect where `fails n` says so. It keeps its checkpoints. It shows that the contract can be met, and
operations can be run on it.
-/
import RinRuntime.FileOperation.Effects

namespace RinRuntime.FileOperation
open Lib NameTree ByteFile Function Option

/-! ## §1. Disks. -/

/-- A view with a list of its names; `made` counts objects and handles, `calls` the calls that may
fail, and `saved` holds the checkpoints. -/
structure Disk where
  view : View
  paths : List Path
  complete : ∀ p, view.names p ≠ none → p ∈ paths
  made : Nat
  calls : Nat
  saved : List (Mark View)

namespace Disk

/-- Change everything but the names. -/
def withHandles (d : Disk) (handles : Nat → Option (Identity × Nat))
    (content : Identity → Option (List UInt8)) : Disk :=
  { d with view := ⟨d.view.names, content, handles⟩, complete := d.complete }

/-- Give an object a name. -/
def name (d : Disk) (path : Path) (id : Identity) : Disk where
  view := { d.view with names := insert path id d.view.names }
  paths := path :: d.paths
  complete p hp := by
    by_cases hpath : p = path
    · exact hpath ▸ List.mem_cons_self
    · have hp : insert path id d.view.names p ≠ none := hp
      rw [insert_of_ne hpath] at hp
      exact List.mem_cons_of_mem _ (d.complete p hp)
  made := d.made
  calls := d.calls
  saved := d.saved

/-- Take a name away. -/
def unname (d : Disk) (path : Path) : Disk where
  view := { d.view with names := erase path d.view.names }
  paths := d.paths
  complete p hp := by
    by_cases hpath : p = path
    · subst hpath
      exact absurd erase_self hp
    · have hp : erase path d.view.names p ≠ none := hp
      rw [erase_of_ne hpath] at hp
      exact d.complete p hp
  made := d.made
  calls := d.calls
  saved := d.saved

/-- Move a subtree. -/
def rename (d : Disk) (src dst : Path) : Disk where
  view := { d.view with names := move slash src dst d.view.names }
  paths := d.paths ++ d.paths.map fun p => dst ++ p.drop src.length
  complete p hp := by
    have hp : move slash src dst d.view.names p ≠ none := hp
    unfold move at hp
    by_cases hdst : Under slash dst p
    · rw [if_pos hdst] at hp
      refine List.mem_append_right _ (List.mem_map.mpr ⟨_, d.complete _ hp, ?_⟩)
      obtain ⟨r, _, rfl⟩ := under_iff.mp hdst
      rw [List.drop_left, List.drop_left]
    · rw [if_neg hdst] at hp
      by_cases hsrc : Under slash src p
      · rw [if_pos hsrc] at hp
        exact absurd rfl hp
      · rw [if_neg hsrc] at hp
        exact List.mem_append_left _ (d.complete p hp)
  made := d.made
  calls := d.calls
  saved := d.saved

/-- Count an object or a handle. -/
def make (d : Disk) : Disk := { d with made := d.made + 1, complete := d.complete }

/-- Count a call. -/
def tick (d : Disk) : Disk := { d with calls := d.calls + 1, complete := d.complete }

/-- No path names an object that `P` holds of. -/
def unnamed (d : Disk) (P : Identity → Bool) : Bool :=
  d.paths.all fun p => !(d.view.names p).any P

theorem unnamed_spec {d : Disk} {P : Identity → Bool} (h : d.unnamed P = true) {p : Path}
    {id : Identity} (hid : d.view.names p = some id) : P id = false := by
  have hp := List.all_eq_true.mp h p (d.complete p (by rw [hid]; simp))
  rw [hid] at hp
  simpa using hp

/-- Nothing is named at or below a path. -/
def free (d : Disk) (path : Path) : Bool :=
  d.paths.all fun p => !(decide (Under slash path p) && (d.view.names p).isSome)

theorem free_spec {d : Disk} {path : Path} (h : d.free path = true) : Free slash d.view.names path := by
  intro q hq
  by_contra hne
  have hp := List.all_eq_true.mp h q (d.complete q hne)
  rw [decide_eq_true hq, isSome_iff_ne_none.mpr hne] at hp
  cases hp

end Disk

/-! ## §2. The callbacks. -/
section
variable (fails : Nat → Bool)

/-- A call that may fail without effect; `change` says what it does and whether it can. -/
def diskCall (change : Disk → Option Disk) (d : Disk) : Int × Disk :=
  if fails d.calls = true then (-1, d.tick)
  else
    match change d with
    | none => (-1, d.tick)
    | some d' => (0, d'.tick)

/-- The identity of the next object. -/
def Disk.nextIdentity (d : Disk) (token : Token) : Identity :=
  ⟨1, UInt64.ofNat (d.made + 1), 1, token⟩

/-- A directory or symlink under a token. -/
def diskCreate (path : Path) (token : Token) (d : Disk) : Option Disk :=
  if d.view.names path = none then some (d.make.name path (d.nextIdentity token)) else none

/-- Another name of an object. -/
def diskLink (src dst : Path) (d : Disk) : Option Disk :=
  match d.view.names src with
  | none => none
  | some id => if d.view.names dst = none then some (d.name dst id) else none

/-- The removal of an expected object. -/
def diskRemove (path : Path) (id : Identity) (d : Disk) : Option Disk :=
  if d.view.names path = some id then some (d.unname path) else none

/-- The move of an expected object. -/
def diskRename (src dst : Path) (id : Identity) (d : Disk) : Option Disk :=
  if d.view.names src = some id ∧ d.free dst = true ∧ ¬ Under slash src dst then
    some (d.rename src dst)
  else none

/-- Open a file. -/
def diskOpenRead (path : Path) (d : Disk) : (Int × Nat) × Disk :=
  match d.view.names path with
  | none => ((-1, 0), d)
  | some id =>
      if (d.view.content id).isSome = true ∧ d.view.handles (d.made + 1) = none then
        ((0, d.made + 1), d.make.withHandles
          (Function.update d.view.handles (d.made + 1) (some (id, 0))) d.view.content)
      else ((-1, 0), d)

/-- Create a file under a token. -/
def diskOpenCreate (path : Path) (token : Token) (d : Disk) : (Int × Nat) × Disk :=
  let id := d.nextIdentity token
  if d.view.names path = none ∧ d.view.content id = none ∧ d.unnamed (· == id) = true ∧
      d.view.handles (d.made + 1) = none then
    ((0, d.made + 1), (d.make.name path id).withHandles
      (Function.update d.view.handles (d.made + 1) (some (id, 0)))
      (Function.update d.view.content id (some [])))
  else ((-1, 0), d)

/-- The next token, unless an object carries it. -/
def diskToken (d : Disk) : (Int × Token) × Disk :=
  let token := Token.zero.set 0 (UInt8.ofNat (d.made + 1)) token_pos
  if d.unnamed (·.operationToken == token) = true then ((0, token), d) else ((-1, Token.zero), d)

/-- Read from a handle. -/
def diskRead (handle capacity : Nat) (d : Disk) : (Int × List UInt8) × Disk :=
  match d.view.handles handle with
  | none => ((-1, []), d)
  | some (id, position) =>
      let chunk := (((d.view.content id).getD []).drop position).take capacity
      ((0, chunk), d.withHandles
        (Function.update d.view.handles handle (some (id, position + chunk.length))) d.view.content)

/-- Write to a handle. -/
def diskWrite (handle : Nat) (bytes : List UInt8) (d : Disk) : (Int × Nat) × Disk :=
  match d.view.handles handle with
  | none => ((-1, 0), d)
  | some (id, position) =>
      ((0, bytes.length), d.withHandles
        (Function.update d.view.handles handle (some (id, position + bytes.length)))
        (Function.update d.view.content id
          (some (overwrite ((d.view.content id).getD []) position bytes))))

/-- Save a record, and keep it. -/
def diskCheckpoint (op : Operation) (d : Disk) : Int × Disk :=
  let (result, d') := diskCall fails some d
  (result, { d' with saved := d'.saved ++ [⟨op, result, d'.view⟩], complete := d'.complete })

/-- The callback table of a disk. -/
def diskBackend : Backend Disk where
  pathState path d := (if d.view.names path = none then 0 else 1, d)
  openRead := diskOpenRead
  randomOperationToken := diskToken
  openCreateExclusiveWithToken := diskOpenCreate
  read := diskRead
  write := diskWrite
  syncFile _ d := (0, d)
  close handle d :=
    (0, d.withHandles (Function.update d.view.handles handle none) d.view.content)
  mkdirWithToken path token := diskCall fails (diskCreate path token)
  publishNoReplace src dst := diskCall fails (diskLink src dst)
  removeFile _ d := (-1, d)
  removeDirectory _ d := (-1, d)
  syncDirectory _ := diskCall fails some
  copyMetadata := none
  readSymlink := none
  createSymlinkWithToken := none
  linkNoReplace := none
  sparse := none
  replacementBackupPath := some fun path _ d => ((0, path ++ [0x7e]), d)
  chooseRenamedDestination := some fun _ path d => ((0, path ++ [0x2b]), d)
  pathIdentity path d :=
    match d.view.names path with
    | none => ((-1, Identity.zero), d)
    | some id => ((0, id), d)
  handleIdentity handle d :=
    match d.view.handles handle with
    | none => ((-1, Identity.zero), d)
    | some (id, _) => ((0, id), d)
  removeFileExpected path id := diskCall fails (diskRemove path id)
  removeDirectoryExpected path id := diskCall fails (diskRemove path id)
  renameNoReplaceExpected := some fun src dst id => diskCall fails (diskRename src dst id)
  checkpoint := some (diskCheckpoint fails)

/-! ## §3. The contract is met. -/

variable {fails}

variable {change : Disk → Option Disk}

/-- A call fails and changes nothing, or does what it is for. -/
theorem diskCall_cases (d : Disk) : diskCall fails change d = (-1, d.tick) ∨
    ∃ d', change d = some d' ∧ diskCall fails change d = (0, d'.tick) := by
  unfold diskCall
  split
  · exact Or.inl rfl
  cases hchg : change d with
  | none => exact Or.inl rfl
  | some d' => exact Or.inr ⟨d', rfl, rfl⟩

theorem diskCall_attempt {Done : View → View → Prop}
    (h : ∀ d d', change d = some d' → Done d.view d'.view) (d : Disk) :
    Attempt (diskCall fails change d).1 Done d.view (diskCall fails change d).2.view := by
  rcases diskCall_cases d with hcall | ⟨d', hchg, hcall⟩ <;> rw [hcall]
  · exact ⟨fun h0 : (-1 : Int) = 0 => absurd h0 (by decide), Or.inl rfl⟩
  · exact ⟨fun _ => h d d' hchg, Or.inr (h d d' hchg)⟩

theorem diskCall_quiet : Quiet Disk.view (diskCall fails some) := by
  intro d
  rcases diskCall_cases d with hcall | ⟨d', hchg, hcall⟩ <;> rw [hcall]
  · rfl
  · cases hchg
    rfl

theorem diskCall_ne_exists (d : Disk) : (diskCall fails change d).1 ≠ backendPathExists := by
  rcases diskCall_cases d with hcall | ⟨_, _, hcall⟩ <;> rw [hcall]
  · show (-1 : Int) ≠ backendPathExists
    decide
  · show (0 : Int) ≠ backendPathExists
    decide

theorem diskCreate_created {path : Path} {token : Token} (d d' : Disk)
    (h : diskCreate path token d = some d') : Created path token d.view d'.view := by
  unfold diskCreate at h
  split at h
  · next hmiss =>
    obtain rfl := some.inj h
    exact ⟨d.nextIdentity token, rfl, hmiss, rfl⟩
  · cases h

theorem diskLink_linked {src dst : Path} (d d' : Disk) (h : diskLink src dst d = some d') :
    Linked src dst d.view d'.view := by
  unfold diskLink at h
  split at h
  · cases h
  next id hsrc =>
  split at h
  · next hmiss =>
    obtain rfl := some.inj h
    exact ⟨id, hsrc, hmiss, rfl⟩
  · cases h

theorem diskRemove_removed {path : Path} {id : Identity} (d d' : Disk)
    (h : diskRemove path id d = some d') : Removed path id d.view d'.view := by
  unfold diskRemove at h
  split at h
  · next hnamed =>
    obtain rfl := some.inj h
    exact ⟨hnamed, rfl⟩
  · cases h

theorem diskRename_renamed {src dst : Path} {id : Identity} (d d' : Disk)
    (h : diskRename src dst id d = some d') : Renamed src dst id d.view d'.view := by
  unfold diskRename at h
  split at h
  · next hcan =>
    obtain rfl := some.inj h
    exact ⟨hcan.1, Disk.free_spec hcan.2.1, hcan.2.2, rfl⟩
  · cases h

theorem diskOpenRead_ok (path : Path) (d : Disk) (h0 : (diskOpenRead path d).1.1 = 0) :
    (diskOpenRead path d).1.2 ≠ 0 ∧ d.view.handles (diskOpenRead path d).1.2 = none ∧
    ∃ id bytes, d.view.names path = some id ∧ d.view.content id = some bytes ∧
      (diskOpenRead path d).2.view = { d.view with
        handles := Function.update d.view.handles (diskOpenRead path d).1.2 (some (id, 0)) } := by
  unfold diskOpenRead at h0 ⊢
  cases hnamed : d.view.names path with
  | none => rw [hnamed] at h0; cases h0
  | some id =>
    rw [hnamed] at h0
    dsimp only at h0 ⊢
    split at h0
    · next hcan =>
      rw [if_pos hcan]
      obtain ⟨bytes, hbytes⟩ := isSome_iff_exists.mp hcan.1
      exact ⟨Nat.succ_ne_zero _, hcan.2, id, bytes, rfl, hbytes, rfl⟩
    · cases h0

theorem diskOpenRead_failed (path : Path) (d : Disk) (h0 : (diskOpenRead path d).1.1 ≠ 0) :
    (diskOpenRead path d).1.2 = 0 ∧ (diskOpenRead path d).2.view = d.view := by
  unfold diskOpenRead at h0 ⊢
  cases hnamed : d.view.names path with
  | none => exact ⟨rfl, rfl⟩
  | some id =>
    rw [hnamed] at h0
    dsimp only at h0 ⊢
    split at h0
    · exact absurd rfl h0
    next hcan =>
    rw [if_neg hcan]
    exact ⟨rfl, rfl⟩

theorem diskOpenCreate_ok (path : Path) (token : Token) (d : Disk)
    (h0 : (diskOpenCreate path token d).1.1 = 0) : (diskOpenCreate path token d).1.2 ≠ 0 ∧
    d.view.handles (diskOpenCreate path token d).1.2 = none ∧
    ∃ id, CreatedFile path token id d.view (diskOpenCreate path token d).2.view ∧
      (diskOpenCreate path token d).2.view.handles
        = Function.update d.view.handles (diskOpenCreate path token d).1.2 (some (id, 0)) := by
  unfold diskOpenCreate at h0 ⊢
  dsimp only at h0 ⊢
  split at h0
  · next hcan =>
    rw [if_pos hcan]
    refine ⟨Nat.succ_ne_zero _, hcan.2.2.2, d.nextIdentity token, ⟨rfl, hcan.1, hcan.2.1, ?_, rfl, rfl⟩,
      rfl⟩
    intro q hq
    have hne := Disk.unnamed_spec hcan.2.2.1 hq
    simp at hne
  · cases h0

theorem diskOpenCreate_failed (path : Path) (token : Token) (d : Disk)
    (h0 : (diskOpenCreate path token d).1.1 ≠ 0) :
    (diskOpenCreate path token d).1.2 = 0 ∧ (diskOpenCreate path token d).2.view = d.view := by
  unfold diskOpenCreate at h0 ⊢
  dsimp only at h0 ⊢
  split at h0
  · exact absurd rfl h0
  next hcan =>
  rw [if_neg hcan]
  exact ⟨rfl, rfl⟩

theorem diskOpenCreate_ne_exists (path : Path) (token : Token) (d : Disk) :
    (diskOpenCreate path token d).1.1 ≠ backendPathExists := by
  unfold diskOpenCreate
  dsimp only
  split
  · show (0 : Int) ≠ backendPathExists
    decide
  · show (-1 : Int) ≠ backendPathExists
    decide

theorem diskToken_spec (d : Disk) : (diskToken d).2 = d ∧ ∀ path id, (diskToken d).1.1 = 0 →
    d.view.names path = some id → id.operationToken ≠ (diskToken d).1.2 := by
  unfold diskToken
  dsimp only
  split
  · next hunused =>
    refine ⟨rfl, fun path id _ hid heq => ?_⟩
    have hne := Disk.unnamed_spec hunused hid
    simp [heq] at hne
  refine ⟨rfl, fun _ _ h0 => ?_⟩
  cases h0

theorem diskRead_spec (handle capacity : Nat) (d : Disk) :
    (diskRead handle capacity d).2.view.names = d.view.names ∧
    (diskRead handle capacity d).2.view.content = d.view.content ∧
    (∀ k, k ≠ handle → (diskRead handle capacity d).2.view.handles k = d.view.handles k) ∧
    ∀ id position bytes, d.view.handles handle = some (id, position) → d.view.content id = some bytes →
      (diskRead handle capacity d).1.2
        = (bytes.drop position).take (diskRead handle capacity d).1.2.length ∧
      (diskRead handle capacity d).2.view.handles handle
        = some (id, position + (diskRead handle capacity d).1.2.length) := by
  unfold diskRead
  cases hhandle : d.view.handles handle with
  | none => exact ⟨rfl, rfl, fun _ _ => rfl, fun _ _ _ h => by cases h⟩
  | some target =>
    refine ⟨rfl, rfl, fun k hk => update_of_ne hk .., ?_⟩
    rintro id' position' bytes h hbytes
    obtain ⟨rfl, rfl⟩ := Prod.mk.inj (some.inj h)
    dsimp only
    rw [hbytes, getD_some]
    refine ⟨?_, update_self ..⟩
    rw [List.length_take, List.take_eq_take_min]

theorem diskWrite_spec (handle : Nat) (bytes : List UInt8) (d : Disk) :
    (diskWrite handle bytes d).2.view.names = d.view.names ∧
    (∀ k, k ≠ handle → (diskWrite handle bytes d).2.view.handles k = d.view.handles k) ∧
    (∀ id, (∀ position, d.view.handles handle ≠ some (id, position)) →
      (diskWrite handle bytes d).2.view.content id = d.view.content id) ∧
    ∀ id position old, d.view.handles handle = some (id, position) → d.view.content id = some old →
      (diskWrite handle bytes d).2.view.content id
        = some (overwrite old position (bytes.take (diskWrite handle bytes d).1.2)) ∧
      (diskWrite handle bytes d).2.view.handles handle
        = some (id, position + (diskWrite handle bytes d).1.2) := by
  unfold diskWrite
  cases hhandle : d.view.handles handle with
  | none => exact ⟨rfl, fun _ _ => rfl, fun _ _ => rfl, fun _ _ _ h => by cases h⟩
  | some target =>
    obtain ⟨id, position⟩ := target
    refine ⟨rfl, fun k hk => update_of_ne hk .., fun id' hoth => ?_, ?_⟩
    · refine update_of_ne (fun heq => ?_) ..
      rw [heq] at hoth
      exact hoth position rfl
    rintro id' position' old h hold
    obtain ⟨rfl, rfl⟩ := Prod.mk.inj (some.inj h)
    refine ⟨?_, update_self ..⟩
    show Function.update d.view.content id _ id = _
    rw [update_self, hold, getD_some, List.take_length]

/-- **The disk meets the contract.** -/
theorem diskBackend_lawful (fails : Nat → Bool) : Lawful Disk.view (diskBackend fails) where
  pathState_quiet _ _ := rfl
  pathState_named path d h := by
    intro hnone
    have h : (if d.view.names path = none then (0 : Int) else 1) = 1 := h
    rw [if_pos hnone] at h
    cases h
  pathState_missing path d h := by
    by_contra hne
    have h : (if d.view.names path = none then (0 : Int) else 1) = 0 := h
    rw [if_neg hne] at h
    cases h
  pathIdentity_quiet path d := by
    show Disk.view (match d.view.names path with
      | none => ((-1, Identity.zero), d)
      | some id => ((0, id), d) : (Int × Identity) × Disk).2 = d.view
    cases d.view.names path <;> rfl
  pathIdentity_found path d h := by
    simp only [diskBackend] at h ⊢
    cases hnamed : d.view.names path with
    | none => rw [hnamed] at h; cases h
    | some id => rfl
  pathIdentity_failed path d h := by
    simp only [diskBackend] at h ⊢
    cases hnamed : d.view.names path with
    | none => rfl
    | some id => rw [hnamed] at h; exact absurd rfl h
  handleIdentity_quiet handle d := by
    simp only [diskBackend]
    cases d.view.handles handle <;> rfl
  handleIdentity_found handle d id position h _ := by
    simp only [diskBackend]
    rw [h]
  randomOperationToken_quiet d := congrArg Disk.view (diskToken_spec d).1
  randomOperationToken_new d path id h0 hid := (diskToken_spec d).2 path id h0 hid
  openRead_ok := diskOpenRead_ok
  openRead_failed := diskOpenRead_failed
  create_ok := diskOpenCreate_ok
  create_failed path token d h0 :=
    ⟨(diskOpenCreate_failed path token d h0).1, Or.inl (diskOpenCreate_failed path token d h0).2⟩
  create_exists path token d h := absurd h (diskOpenCreate_ne_exists path token d)
  read_onHandle handle capacity d :=
    ⟨(diskRead_spec handle capacity d).1, (diskRead_spec handle capacity d).2.2.1⟩
  read_content handle capacity d := (diskRead_spec handle capacity d).2.1
  read_ok handle capacity d id position bytes h hbytes _ :=
    (diskRead_spec handle capacity d).2.2.2 id position bytes h hbytes
  write_onHandle handle bytes d :=
    ⟨(diskWrite_spec handle bytes d).1, (diskWrite_spec handle bytes d).2.1⟩
  write_other handle bytes d := (diskWrite_spec handle bytes d).2.2.1
  write_ok handle bytes d id position old h hold _ :=
    (diskWrite_spec handle bytes d).2.2.2 id position old h hold
  syncFile_quiet _ _ := rfl
  close_drops _ _ := rfl
  mkdir_creates path token d :=
    ⟨diskCall_attempt diskCreate_created d, fun h => absurd h (diskCall_ne_exists d)⟩
  publish_links src dst d := diskCall_attempt diskLink_linked d
  syncDirectory_quiet _ := diskCall_quiet
  removeFile_expected path id d := diskCall_attempt diskRemove_removed d
  removeDirectory_expected path id d := diskCall_attempt diskRemove_removed d
  copyMetadata_quiet _ h := by cases h
  readSymlink_quiet _ h := by cases h
  symlink_creates _ h := by cases h
  link_links _ h := by cases h
  sparse_lawful _ h := by cases h
  backupPath_quiet callback h _ _ _ := by
    obtain rfl := some.inj h
    rfl
  renamedDestination_quiet callback h _ _ _ := by
    obtain rfl := some.inj h
    rfl
  rename_expected callback h src dst id d := by
    obtain rfl := some.inj h
    exact diskCall_attempt diskRename_renamed d
  checkpoint_quiet callback h op d := by
    obtain rfl := some.inj h
    exact diskCall_quiet d

/-- **The disk keeps its checkpoints.** -/
theorem diskBackend_traced (fails : Nat → Bool) : Traced (diskBackend fails) Disk.view Disk.saved := by
  have hcall : ∀ {change : Disk → Option Disk}, (∀ d d', change d = some d' → d'.saved = d.saved) →
      Silent Disk.saved (diskCall fails change) := by
    intro change hchg d
    rcases diskCall_cases d with hcall | ⟨d', hd', hcall⟩ <;> rw [hcall]
    · rfl
    · exact hchg d d' hd'
  constructor
  · intro kind β callback hcb
    cases hcb with
    | pathState | close | syncFile | removeFile | removeDirectory => exact fun _ => rfl
    | copyMetadata h | readSymlink h | createSymlink h | link h | seek h | truncate h | fileSize h => cases h
    | backupPath h | chooseRenamed h =>
      obtain rfl := some.inj h
      exact fun _ => rfl
    | randomOperationToken => exact fun d => congrArg Disk.saved (diskToken_spec d).1
    | syncDirectory path => exact hcall fun _ _ h => by rw [some.inj h]
    | pathIdentity path =>
      intro d
      simp only [diskBackend]
      cases d.view.names path <;> rfl
    | handleIdentity handle =>
      intro d
      simp only [diskBackend]
      cases d.view.handles handle <;> rfl
    | openRead path =>
      intro d
      simp only [diskBackend, diskOpenRead]
      cases d.view.names path with
      | none => rfl
      | some id =>
        dsimp only
        split <;> rfl
    | openCreate path token =>
      intro d
      simp only [diskBackend, diskOpenCreate]
      split <;> rfl
    | read handle capacity =>
      intro d
      simp only [diskBackend, diskRead]
      cases d.view.handles handle <;> rfl
    | write handle bytes =>
      intro d
      simp only [diskBackend, diskWrite]
      cases d.view.handles handle <;> rfl
    | mkdir path token =>
      refine hcall fun d d' h => ?_
      unfold diskCreate at h
      split at h <;> cases h
      rfl
    | publish src dst =>
      refine hcall fun d d' h => ?_
      unfold diskLink at h
      split at h
      · cases h
      split at h <;> cases h
      rfl
    | renameExpected h src dst id =>
      obtain rfl := some.inj h
      refine hcall fun d d' h => ?_
      unfold diskRename at h
      split at h <;> cases h
      rfl
    | removeExpected directory path id =>
      have hremove : Silent Disk.saved (diskCall fails (diskRemove path id)) := by
        refine hcall fun d d' h => ?_
        unfold diskRemove at h
        split at h <;> cases h
        rfl
      cases directory <;> exact hremove
  intro callback h op d
  obtain rfl := some.inj h
  have hsaved : (diskCall fails some d).2.saved = d.saved := hcall (fun _ _ h => by rw [some.inj h]) d
  show (diskCall fails some d).2.saved ++ _ = _
  rw [hsaved]
  rfl

/-! ## §4. Disks to run operations on. -/

/-- A disk on which no call fails. -/
def sureDisk : Backend Disk := diskBackend fun _ => false

theorem sureDisk_lawful : Lawful Disk.view sureDisk := diskBackend_lawful _

theorem sureDisk_traced : Traced sureDisk Disk.view Disk.saved := diskBackend_traced _

/-- A disk that names the listed objects; `files` gives the bytes of those that are files. -/
def Disk.of (objects : List (Path × Identity)) (files : List (Identity × List UInt8)) : Disk where
  view := ⟨fun p => objects.lookup p, fun id => files.lookup id, fun _ => none⟩
  paths := objects.map Prod.fst
  complete p hp := by
    have hp : objects.lookup p ≠ none := hp
    by_contra hnot
    refine hp (List.lookup_eq_none_iff.mpr fun entry hmem => ?_)
    have hne : p ≠ entry.1 := fun heq => hnot (heq ▸ List.mem_map_of_mem hmem)
    simpa using hne
  made := objects.length
  calls := 0
  saved := []

/-- An object of a disk that carries no creation token. -/
def plainObject (inode : UInt64) : Identity := ⟨1, inode, 1, Token.zero⟩

/-- The path of one letter below the root. -/
def pathOf (letter : UInt8) : Path := [slash, letter]

/-- The plan of a single object. -/
def planEntry (kind : EntryKind) (source destination : Path) (sizeBytes : Nat) : Entry :=
  { Entry.zero with
    sourcePath := source, destinationPath := destination, sizeBytes := sizeBytes, kind := kind }

end
end RinRuntime.FileOperation

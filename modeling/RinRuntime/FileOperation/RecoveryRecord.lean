/-
FileOperation.RecoveryRecord — saving an interrupted operation and restoring it.

`recoverySave` and `recoveryRestore` are `rinruntime_file_operation_recovery_save` and
`file_operation_recovery_restore_internal`. The record holds the states of the entries; their paths come
from the plan the caller passes to the restore. `startReplaceUndo` builds on it.

`Storable` is what the way through both asks of a record, up to the identities of its entries; what comes
back is `restored plan op`.
-/
import RinRuntime.FileOperation.Pump
import Mathlib.Data.List.GetD

namespace RinRuntime.FileOperation
open Lib List

/-! ## §1. The record. -/

/-- `RinRuntimeFileOperationRecoveryEntryV1`. -/
structure RecoveryEntry where
  skip : Bool
  created : Bool
  applied : Bool
  cleanupState : CleanupState
  objectIdentity : Identity
  replacementState : ReplacementState
  backupPath : Path
  backupIdentity : Identity
  deriving DecidableEq

/-- `RinRuntimeFileOperationRecoveryV1`; the entries past `entry_count` are zero. -/
structure RecoveryRecord where
  operation : OperationKind
  conflictPolicy : ConflictPolicy
  temporaryCreated : Bool
  temporaryCleanupState : CleanupState
  recoveryRequired : Bool
  rollbackActive : Bool
  pendingResult : Result
  rollbackIndex : Nat
  entryIndex : Nat
  replaceUndoActive : Bool
  temporaryPath : Path
  temporaryIdentity : Identity
  entries : List RecoveryEntry
  deriving DecidableEq

/-- `state > RINRUNTIME_FILE_OPERATION_CLEANUP_SYNC_PENDING`. -/
def CleanupState.pastSync : CleanupState → Bool
  | .renameInProgress | .renameSyncPending => true
  | _ => false

/-- What the record keeps of an entry. -/
def saveEntry (entry : Entry) : RecoveryEntry where
  skip := entry.skip
  created := entry.created
  applied := entry.applied
  cleanupState := entry.cleanupState
  objectIdentity := entry.objectIdentity
  replacementState := entry.replacementState
  backupPath := entry.backupPath
  backupIdentity := entry.backupIdentity

/-- The record of an operation. -/
def savedRecord (op : Operation) : RecoveryRecord where
  operation := op.operation
  conflictPolicy := op.conflictPolicy
  temporaryCreated := op.temporaryCreated
  temporaryCleanupState := op.temporaryCleanupState
  recoveryRequired := op.recoveryRequired || op.active
  rollbackActive := op.rollbackActive
  pendingResult := op.pendingResult
  rollbackIndex := op.rollbackIndex
  entryIndex := op.entryIndex
  replaceUndoActive := op.replaceUndoActive
  temporaryPath := if op.temporaryCreated then op.temporaryPath else []
  temporaryIdentity := if op.temporaryCreated then op.temporaryIdentity else Identity.zero
  entries := op.entries.map saveEntry

/-- The header tests of `rinruntime_file_operation_recovery_save`. -/
def saveRefused (op : Operation) : Prop :=
  op.entries = [] ∨ entryLimit < op.entryCount ∨ op.temporaryCleanupState.pastSync = true ∨
    op.entryCount < op.entryIndex ∨
    (op.temporaryCreated = true ∧ pathValid op.temporaryPath = false)

instance (op : Operation) : Decidable (saveRefused op) := by unfold saveRefused; infer_instance

/-- `rinruntime_file_operation_recovery_save`; `none` is -1. -/
def recoverySave (op : Operation) : Option RecoveryRecord :=
  if saveRefused op then none
  else if op.entries.all (entryValid · op.operation) = false then none
  else some (savedRecord op)

/-! ## §2. Restoring it. -/

/-- The tests on one entry of a record. -/
def recoveryEntryValid (entry : RecoveryEntry) : Bool :=
  (if entry.replacementState = .none then
      entry.backupPath == [] && identityEmpty entry.backupIdentity
    else pathValid entry.backupPath && identityValid entry.backupIdentity) &&
  (!(entry.created || entry.applied) || identityValid entry.objectIdentity) &&
  (identityEmpty entry.objectIdentity || identityIntentValid entry.objectIdentity)

/-- A planned entry with the state of the record. -/
def restoreEntry (planned : Entry) (entry : RecoveryEntry) : Entry :=
  { planned with
    skip := entry.skip
    created := entry.created
    applied := entry.applied
    cleanupState := entry.cleanupState
    objectIdentity := entry.objectIdentity
    replacementState := entry.replacementState
    backupPath := entry.backupPath
    backupIdentity := entry.backupIdentity }

/-- The header tests of `file_operation_recovery_restore_internal`. -/
def recoveryHeaderValid {W : Type} (B : Backend W) (plan : List Entry) (recovery : RecoveryRecord)
    (requireInterrupted : Bool) : Bool :=
  !plan.isEmpty && plan.length == recovery.entries.length && decide (plan.length ≤ entryLimit) &&
  (!requireInterrupted || recovery.recoveryRequired) &&
  decide (recovery.entryIndex ≤ plan.length) && !recovery.temporaryCleanupState.pastSync &&
  backendValid B recovery.operation &&
  (if recovery.temporaryCreated then
      pathValid recovery.temporaryPath && identityIntentValid recovery.temporaryIdentity
    else recovery.temporaryPath == [] && recovery.temporaryCleanupState == .none &&
      identityEmpty recovery.temporaryIdentity)

/-- The record `file_operation_recovery_restore_internal` sets up. -/
def recoveredOperation (plan : List Entry) (recovery : RecoveryRecord) : Operation :=
  { operationInit with
    operation := recovery.operation
    entries := List.zipWith restoreEntry plan recovery.entries
    conflictPolicy := recovery.conflictPolicy
    temporaryCreated := recovery.temporaryCreated
    temporaryCleanupState := recovery.temporaryCleanupState
    temporaryIdentity := recovery.temporaryIdentity
    temporaryPath := recovery.temporaryPath
    pendingResult :=
      if recovery.pendingResult = .ok ∨ recovery.pendingResult = .inProgress ∨
          recovery.pendingResult = .completed then .ioFailed
      else recovery.pendingResult
    rollbackIndex := plan.length
    entryIndex := recovery.entryIndex
    replaceUndoActive := recovery.replaceUndoActive
    active := false
    rollbackActive := false
    recoveryRequired := true }

/-- `file_operation_recovery_restore_internal`: -1 for a record it refuses, -2 without memory. -/
def recoveryRestoreInternal {W : Type} (B : Backend W) (op : Operation) (plan : List Entry)
    (recovery : RecoveryRecord) (requireInterrupted memory : Bool) : Except Int Operation :=
  if op.active = true ∨ op.recoveryRequired = true ∨ op.entries ≠ [] then .error (-1)
  else if recoveryHeaderValid B plan recovery requireInterrupted = false then .error (-1)
  else if plan.all (entryValid · recovery.operation) = false ∨
      recovery.entries.all recoveryEntryValid = false then .error (-1)
  else if memory = false then .error (-2)
  else .ok (recoveredOperation plan recovery)

/-- `rinruntime_file_operation_recovery_restore`. -/
def recoveryRestore {W : Type} (B : Backend W) (op : Operation) (plan : List Entry)
    (recovery : RecoveryRecord) (memory : Bool) : Except Int Operation :=
  recoveryRestoreInternal B op plan recovery true memory

/-- `rinruntime_file_operation_start_replace_undo`. -/
def startReplaceUndo {W : Type} (B : Backend W) (op : Operation) (plan : List Entry)
    (recovery : RecoveryRecord) (memory : Bool) : Result × Operation :=
  if op.active = true ∨ op.recoveryRequired = true ∨ op.entries ≠ [] ∨
      recovery.operation ≠ .copy ∨ recovery.recoveryRequired = true ∨
      recovery.rollbackActive = true ∨ recovery.replaceUndoActive = true ∨
      recovery.entryIndex ≠ plan.length then (.invalidArgument, op)
  else
    match recoveryRestoreInternal B op plan recovery false memory with
    | .error code => (if code = -2 then .noMemory else .invalidArgument, op)
    | .ok op' => (.inProgress, { op' with
        entryIndex := plan.length
        rollbackIndex := 0
        active := true
        recoveryRequired := false
        rollbackActive := false
        replaceUndoActive := true
        pendingResult := .inProgress })

/-! ## §3. The way through both. -/

/-- The record of an operation, restored on a plan. -/
def restored (plan : List Entry) (op : Operation) : Operation :=
  recoveredOperation plan (savedRecord op)

/-- What a checkpoint has to satisfy, apart from the identities its entries hold. -/
structure StorableEntry (planned entry : Entry) : Prop where
  sourcePath : entry.sourcePath = planned.sourcePath
  sizeBytes : entry.sizeBytes = planned.sizeBytes
  kind : entry.kind = planned.kind
  linkSourceIndex : entry.linkSourceIndex = planned.linkSourceIndex
  destination : pathValid entry.destinationPath = true
  unreplaced : entry.replacementState = .none →
    entry.backupPath = [] ∧ entry.backupIdentity = Identity.zero
  replaced : entry.replacementState ≠ .none →
    pathValid entry.backupPath = true ∧ identityValid entry.backupIdentity = true
  identity : entry.created = true → identityValid entry.objectIdentity = true

/-- What every checkpoint of an operation on `plan` satisfies. -/
structure Storable (kind : OperationKind) (plan : List Entry) (op : Operation) : Prop where
  operation : op.operation = kind
  active : op.active = true
  count : op.entryCount = plan.length
  index : op.entryIndex ≤ plan.length
  entries : ∀ k < plan.length, StorableEntry (plan.getD k Entry.zero) (op.entry k)
  temporary : op.temporaryCreated = true →
    pathValid op.temporaryPath = true ∧ identityIntentValid op.temporaryIdentity = true
  idle : op.temporaryCreated = false → op.temporaryCleanupState = .none
  sync : op.temporaryCleanupState.pastSync = false

/-- The identity of an entry is one a record may hold: that of an object when the entry has moved one,
and otherwise that of an object, an intent, or none. -/
def IdentityStorable (entry : Entry) : Prop :=
  (entry.applied = true → identityValid entry.objectIdentity = true) ∧
    (identityEmpty entry.objectIdentity = true ∨ identityIntentValid entry.objectIdentity = true)

instance (entry : Entry) : Decidable (IdentityStorable entry) := by
  unfold IdentityStorable; infer_instance

/-- A plan the restore accepts. -/
structure Restorable {W : Type} (B : Backend W) (kind : OperationKind) (plan : List Entry) : Prop where
  nonempty : plan ≠ []
  limit : plan.length ≤ entryLimit
  valid : ∀ entry ∈ plan, entryValid entry kind = true
  backend : backendValid B kind = true

section
variable {W : Type} {B : Backend W} {kind : OperationKind} {plan : List Entry} {op : Operation}

variable {planned entry : Entry} {k : Nat}

theorem entry_getElem (hk : k < op.entries.length) : op.entry k = op.entries.get ⟨k, hk⟩ := by
  unfold Operation.entry
  rw [getD_eq_getElem _ _ hk]
  rfl

/-- What holds for every entry by index holds for every entry of the list. -/
theorem forall_entries {P : Entry → Prop} :
    (∀ entry ∈ op.entries, P entry) ↔ ∀ k < op.entryCount, P (op.entry k) := by
  constructor
  · intro h k hk
    rw [entry_getElem hk]
    exact h _ (get_mem ..)
  intro h entry hent
  obtain ⟨k, hk, rfl⟩ := mem_iff_getElem.mp hent
  have hget := h k hk
  rw [entry_getElem hk] at hget
  exact hget

theorem StorableEntry.backup_valid (h : StorableEntry planned entry) :
    (if entry.replacementState = .none then entry.backupPath == [] && identityEmpty entry.backupIdentity
      else pathValid entry.backupPath && identityValid entry.backupIdentity) = true := by
  split_ifs with hnone
  · obtain ⟨hpath, hidentity⟩ := h.unreplaced hnone
    simp [hpath, hidentity, identityEmpty]
  · obtain ⟨hpath, hidentity⟩ := h.replaced hnone
    simp [hpath, hidentity]

theorem StorableEntry.identity_valid_iff (h : StorableEntry planned entry) :
    ((!(entry.created || entry.applied) || identityValid entry.objectIdentity) = true ∧
      (identityEmpty entry.objectIdentity || identityIntentValid entry.objectIdentity) = true) ↔
      IdentityStorable entry := by
  have hcre := h.identity
  rw [Bool.or_eq_true (identityEmpty _)]
  apply and_congr_left
  intro _
  cases hc : entry.created with
  | true =>
    have hval := hcre hc
    simp [hval]
  | false => cases entry.applied <;> simp

/-- The validity tests on an entry come down to its identity. -/
theorem StorableEntry.valid_iff (h : StorableEntry planned entry)
    (hsrc : pathValid planned.sourcePath = true) :
    entryValid entry kind = true ↔ IdentityStorable entry := by
  unfold entryValid
  rw [h.backup_valid, h.sourcePath, hsrc, h.destination, Bool.or_true, Bool.and_true,
    Bool.and_true, Bool.true_and, Bool.and_eq_true]
  exact h.identity_valid_iff

theorem StorableEntry.saved_valid (h : StorableEntry planned entry)
    (hidentity : IdentityStorable entry) : recoveryEntryValid (saveEntry entry) = true := by
  have hbackup := h.backup_valid
  obtain ⟨hmade, hid⟩ := h.identity_valid_iff.mpr hidentity
  show (_ && (!(entry.created || entry.applied) || identityValid entry.objectIdentity) &&
    (identityEmpty entry.objectIdentity || identityIntentValid entry.objectIdentity)) = true
  rw [hid, hmade, Bool.and_true, Bool.and_true]
  exact hbackup

theorem Storable.not_refused (h : Storable kind plan op) (hplan : Restorable B kind plan) :
    ¬ saveRefused op := by
  have hcnt : op.entries.length = plan.length := h.count
  rintro (hnil | hlimit | hsync | hidx | ⟨hcre, hpath⟩)
  · rw [hnil] at hcnt
    exact hplan.nonempty (length_eq_zero_iff.mp hcnt.symm)
  · rw [h.count] at hlimit
    exact absurd hplan.limit (Nat.not_le.mpr hlimit)
  · rw [h.sync] at hsync
    cases hsync
  · rw [h.count] at hidx
    exact absurd h.index (Nat.not_le.mpr hidx)
  · rw [(h.temporary hcre).1] at hpath
    cases hpath

/-- **A checkpoint is saved** exactly when the identities of its entries may be stored. -/
theorem recoverySave_eq_some_iff (h : Storable kind plan op) (hplan : Restorable B kind plan) :
    recoverySave op = some (savedRecord op) ↔ ∀ k < plan.length, IdentityStorable (op.entry k) := by
  have hsrc : ∀ k < plan.length, pathValid (plan.getD k Entry.zero).sourcePath = true := by
    intro k hk
    have hval := hplan.valid (plan.get ⟨k, hk⟩) (get_mem ..)
    rw [getD_eq_getElem _ _ hk]
    unfold entryValid at hval
    simp only [Bool.and_eq_true] at hval
    exact hval.1.1.1.1
  have hall : op.entries.all (entryValid · op.operation) = true ↔
      ∀ k < plan.length, IdentityStorable (op.entry k) := by
    rw [all_eq_true, forall_entries, h.count]
    refine forall_congr' fun k => forall_congr' fun hk => ?_
    exact (h.entries k hk).valid_iff (hsrc k hk)
  unfold recoverySave
  rw [if_neg (h.not_refused hplan), ← hall]
  cases op.entries.all (entryValid · op.operation) <;> simp

theorem recoverySave_some {recovery : RecoveryRecord} (hsave : recoverySave op = some recovery) :
    recovery = savedRecord op := by
  unfold recoverySave at hsave
  split at hsave
  · cases hsave
  split at hsave
  · cases hsave
  exact (Option.some.inj hsave).symm

theorem Storable.header_valid (h : Storable kind plan op) (hplan : Restorable B kind plan) :
    recoveryHeaderValid B plan (savedRecord op) true = true := by
  have hcnt : op.entries.length = plan.length := h.count
  have htemp : (if (savedRecord op).temporaryCreated then
      pathValid (savedRecord op).temporaryPath && identityIntentValid (savedRecord op).temporaryIdentity
      else (savedRecord op).temporaryPath == [] && (savedRecord op).temporaryCleanupState == .none &&
        identityEmpty (savedRecord op).temporaryIdentity) = true := by
    cases hcre : op.temporaryCreated with
    | true => simp [savedRecord, hcre, h.temporary hcre]
    | false => simp [savedRecord, hcre, h.idle hcre, identityEmpty]
  have hne : plan.isEmpty = false := by
    cases plan with
    | nil => exact absurd rfl hplan.nonempty
    | cons => rfl
  unfold recoveryHeaderValid
  rw [htemp]
  simp [savedRecord, hcnt, hne, hplan.limit, h.index, h.sync, h.active, h.operation, hplan.backend]

/-- **A saved checkpoint is accepted** on the plan, and what comes back is `restored plan op`. -/
theorem recoveryRestore_saved (h : Storable kind plan op) (hplan : Restorable B kind plan)
    (hids : ∀ k < plan.length, IdentityStorable (op.entry k)) :
    recoveryRestore B operationInit plan (savedRecord op) true = .ok (restored plan op) := by
  have hents : (savedRecord op).entries.all recoveryEntryValid = true := by
    show (op.entries.map saveEntry).all recoveryEntryValid = true
    rw [all_map, all_eq_true, forall_entries, h.count]
    intro k hk
    exact (h.entries k hk).saved_valid (hids k hk)
  have hval : plan.all (entryValid · (savedRecord op).operation) = true := by
    rw [all_eq_true]
    show ∀ entry ∈ plan, entryValid entry op.operation = true
    rw [h.operation]
    exact hplan.valid
  unfold recoveryRestore recoveryRestoreInternal
  rw [if_neg (by decide), h.header_valid hplan, if_neg (by simp), hents, hval, if_neg (by simp),
    if_neg (by simp)]
  rfl

/-- What a restore has checked when it accepts a record. -/
theorem recoveryRestoreInternal_accepts {recovery : RecoveryRecord} {requireInterrupted memory : Bool}
    {op' : Operation} (h : recoveryRestoreInternal B op plan recovery requireInterrupted memory = .ok op') :
    op' = recoveredOperation plan recovery ∧ recoveryHeaderValid B plan recovery requireInterrupted = true ∧
      (∀ entry ∈ plan, entryValid entry recovery.operation = true) ∧
      ∀ entry ∈ recovery.entries, recoveryEntryValid entry = true := by
  unfold recoveryRestoreInternal at h
  split at h
  · cases h
  split at h
  · cases h
  next hheader =>
  split at h
  · cases h
  next hents =>
  split at h
  · cases h
  simp only [not_or, Bool.not_eq_false, all_eq_true] at hheader hents
  exact ⟨(Except.ok.inj h).symm, hheader, hents⟩

/-- What an undo starts from when it accepts a record. -/
theorem startReplaceUndo_restores {recovery : RecoveryRecord} {memory : Bool} {op' : Operation}
    (h : startReplaceUndo B op plan recovery memory = (.inProgress, op')) :
    recovery.operation = .copy ∧
      recoveryRestoreInternal B op plan recovery false memory = .ok (recoveredOperation plan recovery) ∧
      op' = { recoveredOperation plan recovery with
        entryIndex := plan.length
        rollbackIndex := 0
        active := true
        recoveryRequired := false
        rollbackActive := false
        replaceUndoActive := true
        pendingResult := .inProgress } := by
  unfold startReplaceUndo at h
  split at h
  · cases h
  next hheader =>
  simp only [not_or, ne_eq, Decidable.not_not] at hheader
  split at h
  · have hres := (Prod.mk.inj h).1
    split at hres <;> cases hres
  next hrestore =>
  have hop := (recoveryRestoreInternal_accepts hrestore).1
  rw [hop] at hrestore h
  exact ⟨hheader.2.2.2.1, hrestore, (Prod.mk.inj h).2.symm⟩

/-- A restored entry is the entry itself exactly when its destination has not changed. -/
theorem StorableEntry.restore_eq_iff (h : StorableEntry planned entry) :
    restoreEntry planned (saveEntry entry) = entry ↔ entry.destinationPath = planned.destinationPath := by
  constructor
  · intro heq
    exact (congrArg Entry.destinationPath heq).symm
  intro hdest
  show Entry.mk planned.sourcePath planned.destinationPath planned.sizeBytes planned.kind _ _ _
    planned.linkSourceIndex _ _ _ _ _ = _
  rw [← h.sourcePath, ← h.sizeBytes, ← h.kind, ← h.linkSourceIndex, ← hdest]
  rfl

theorem entry_recovered {recovery : RecoveryRecord} (hk : k < plan.length)
    (hk' : k < recovery.entries.length) : (recoveredOperation plan recovery).entry k =
      restoreEntry (plan.getD k Entry.zero) (recovery.entries.get ⟨k, hk'⟩) := by
  show (zipWith restoreEntry plan recovery.entries).getD k Entry.zero = _
  rw [getD_eq_getElem?_getD, getElem?_zipWith, getElem?_eq_getElem hk,
    getElem?_eq_getElem hk', getD_eq_getElem _ _ hk]
  rfl

theorem entry_restored (hcnt : op.entryCount = plan.length) (hk : k < plan.length) :
    (restored plan op).entry k = restoreEntry (plan.getD k Entry.zero) (saveEntry (op.entry k)) := by
  have hk' : k < op.entries.length := by
    show k < op.entryCount
    rw [hcnt]
    exact hk
  have hsaved : k < (savedRecord op).entries.length := by
    show k < (op.entries.map saveEntry).length
    rw [length_map]
    exact hk'
  have hget : (savedRecord op).entries.get ⟨k, hsaved⟩ = saveEntry (op.entry k) := by
    rw [entry_getElem hk']
    exact getElem_map saveEntry
  show (recoveredOperation plan (savedRecord op)).entry k = _
  rw [entry_recovered hk hsaved, hget]

theorem entryCount_restored (hcnt : op.entryCount = plan.length) :
    (restored plan op).entryCount = plan.length := by
  show (zipWith restoreEntry plan (op.entries.map saveEntry)).length = _
  rw [length_zipWith, length_map]
  show min plan.length op.entryCount = _
  rw [hcnt, Nat.min_self]

/-- **The restored entries** are those of the operation exactly when no destination has changed. -/
theorem restored_entries_iff (h : Storable kind plan op) :
    (∀ k < plan.length, (restored plan op).entry k = op.entry k) ↔
      ∀ k < plan.length, (op.entry k).destinationPath = (plan.getD k Entry.zero).destinationPath := by
  refine forall_congr' fun k => forall_congr' fun hk => ?_
  rw [entry_restored h.count hk]
  exact (h.entries k hk).restore_eq_iff

end
end RinRuntime.FileOperation

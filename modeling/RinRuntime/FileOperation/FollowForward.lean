/-
FileOperation.FollowForward — one walk through the way forward for all properties it keeps.

The counterpart of `Follow`. An entry passes through stages: `R` while it has created nothing, `D` while
its destination is being displaced, `A` once it has created something. Properties differ in what they make
of these; the changes between them are those of the code (`EntryTurns`, `PublishTurns`, `TransferChange`).
-/
import RinRuntime.FileOperation.Follow

namespace RinRuntime.FileOperation
open Lib Exec

/-! ## §1. Callbacks and changes. -/
section
variable {W : Type}

/-- A change of the flags, the cleanup state or the identity of an entry. -/
def ObjectOnly (f : Entry → Entry) : Prop :=
  ∀ e, ∃ skip applied cleanup id, f e = { e with
    skip := skip, applied := applied, cleanupState := cleanup, objectIdentity := id }

/-- **The stages of entry `i`**: nothing created (`R`), being displaced (`D`), created (`A`). -/
structure EntryTurns (P : State W → Prop) (i : Nat) (R D A : Operation → Prop) : Prop where
  object : ∀ {f}, ObjectOnly f → Turns P R (fun op => op.setEntry i f) R
  displacing : ∀ path id, pathValid path = true → identityValid id = true →
    Turns P R (fun op => op.setEntry i fun e => { e with
      backupPath := path, backupIdentity := id, replacementState := .backupInProgress }) D
  displaced : Turns P D (setReplacement i .backupHeld) R
  renamed : ∀ path, pathValid path = true → Turns P (fun op => R op ∧ op.conflictPolicy = .rename)
    (fun op => op.setEntry i fun e => { e with destinationPath := path }) R
  created : ∀ id, identityValid id = true →
    Turns P R (fun op => op.setEntry i fun e => { e with objectIdentity := id, created := true }) A

/-- **The stages of a file that is finished**: open (`R`), closed (`C`), published (`A`), done (`N`). -/
structure PublishTurns (P : State W → Prop) (i : Nat) (R C A N : Operation → Prop) : Prop where
  handle : ∀ f, CallsKeep.HandleChange f → Turns P R f R
  closed : Turns P R (fun op => { op with fileOpen := false }) C
  published : Turns P C (fun op => op.setEntry i fun e => { e with
    created := true
    objectIdentity := op.temporaryIdentity
    replacementState :=
      if e.replacementState = .backupHeld then .publishInProgress else e.replacementState }) A
  settled : Turns P A (fun op => op.setEntry i fun e => { e with
    replacementState :=
      if e.replacementState = .publishInProgress then .backupHeld else e.replacementState }) A
  slot : ∀ f, CallsKeep.SlotChange .temporary f → Turns P A f A
  forgotten : Turns P (fun op => A op ∧ op.temporaryCleanupState = .none) forgetTemporary N

/-- The callbacks of the transfer keep `P`. -/
def TransferKeep (B : Backend W) (P : State W → Prop) : Prop :=
  ∀ ⦃α : Type⦄ ⦃callback : W → α × W⦄, Callback B .transfer callback → Harmless P callback

/-- The counters of the transfer do not matter. -/
def TransferTurns (P : State W → Prop) (R : Operation → Prop) : Prop :=
  ∀ (enabled sized : Operation → Bool) (completed dataEnd : Operation → Nat), Turns P R (fun op => { op with
    sparseFileEnabled := enabled op
    sparseOutputSized := sized op
    completedBytes := completed op
    sparseDataEnd := dataEnd op }) R

end

namespace CallsKeep

variable {W ε : Type} {B : Backend W} {P : State W → Prop} (hP : CallsKeep B P)
  {R D C A N : Operation → Prop} {i : Nat}

/-! ## §2. An occupied destination. -/

/-- The result of a look at a path that should have been missing. -/
theorem negative_of_state (state : Int) : Negative (if state = 1 then .conflict else resultOf state) := by
  split
  · rfl
  · exact resultOf_negative _

include hP

/-- A checkpoint that fails ends the walk. -/
theorem checkpointed : Guides P Negative R (FileOperation.checkpoint B .ioFailed) (fun _ => R) :=
  hP.checkpointSaved.bind fun _ => .require rfl

theorem copyMetadata (i : Nat) (path : Path) :
    Guides P Negative R (copyMetadata B i path) (fun _ => R) := by
  unfold FileOperation.copyMetadata
  cases hc : B.copyMetadata with
  | none => exact .pure
  | some callback =>
    refine .readAny fun op => ?_
    exact .bind (.call (hP.call (.copyMetadata hc _ _ _))) fun _ => .require (resultOf_negative _)

section
variable (hT : EntryTurns P i R D A)
include hT

/-- The displacement is announced before the rename and confirmed after it. -/
theorem displaceDestination : Guides P Negative R (displaceDestination B i) (fun _ => R) := by
  have hchoose : ∀ path id, Guides P Negative R (chooseBackupPath B path id) (fun _ => R) := by
    intro path id
    unfold chooseBackupPath
    cases hc : B.replacementBackupPath with
    | none => exact .pure
    | some callback => exact .call (hP.call (.backupPath hc path id))
  refine .readAny fun op => .bind (hP.pathIdentityKept _) fun found => .check ?_ (resultOf_negative _)
  refine .requireThen rfl fun hid => .bind (hchoose _ _) fun chosen => .requireThen rfl fun hchosen => ?_
  refine .bind (hP.pathStateKept _) fun _ => .check ?_ rfl
  refine .seq (.update (hT.displacing _ _ hchosen.2.1 hid)) (.seq hP.checkpointed ?_)
  refine .bind (hP.renameExpected _ _ _) fun _ => .check ?_ (resultOf_negative _)
  exact .seq (hP.syncParentOnce _) (.seq (.update hT.displaced) hP.checkpointed)

theorem conflictReplace : Guides P Negative R (conflictReplace B i) (fun _ => R) := by
  refine .readAny fun op => .check (.seq (.when fun _ => hP.displaceDestination hT) ?_) rfl
  refine .readAny fun op => .check (.bind (hP.pathStateKept _) fun _ => ?_) rfl
  exact .require (negative_of_state _)

/-- Only the `RENAME` policy changes a destination. -/
theorem conflictRename :
    Guides P Negative (fun op => R op ∧ op.conflictPolicy = .rename) (conflictRename B i) (fun _ => R) := by
  have hchoose : ∀ src dst, Guides P Negative (fun op => R op ∧ op.conflictPolicy = .rename)
      (chooseRenamed B src dst) (fun _ op => R op ∧ op.conflictPolicy = .rename) := by
    intro src dst
    unfold chooseRenamed
    cases hc : B.chooseRenamedDestination with
    | none => exact .pure
    | some callback => exact .call (hP.call (.chooseRenamed hc src dst))
  refine .readAny fun op => .check (.bind (hchoose _ _) fun chosen => .requireThen rfl fun hchosen => ?_) rfl
  refine .bind (hP.pathStateKept _) fun _ => .check ?_ (negative_of_state _)
  exact .update (hT.renamed _ hchosen.2)

/-- What each policy does about an occupied destination. -/
theorem conflict : Guides P Negative R (conflict B i) (fun _ => R) := by
  refine .read fun s _ hR => .bind (hP.pathStateKept _) fun _ => ?_
  refine .ite (fun _ => .known hR .pure) fun _ => .check ?_ (resultOf_negative _)
  cases hpol : s.op.conflictPolicy with
  | fail => exact .fail rfl
  | skip => exact .known hR (.update (hT.object fun _ => ⟨_, _, _, _, rfl⟩))
  | replace => exact .known hR (hP.conflictReplace hT)
  | rename => exact .known (R := fun op => R op ∧ op.conflictPolicy = .rename) ⟨hR, hpol⟩ (hP.conflictRename hT)

/-! ## §3. Entries without contents. -/

/-- A token is dropped again where it could not be saved. -/
theorem prepareEntryToken : Guides P Negative R (prepareEntryToken B i) (fun _ => R) := by
  refine .readAny fun op => .ite (fun _ => .pure) fun _ => .check (.bind (.call (hP.call .randomOperationToken)) fun _ => ?_) rfl
  refine .check (.seq (.update (hT.object fun _ => ⟨_, _, _, _, rfl⟩)) ?_) rfl
  refine .bind hP.checkpointSaved fun _ => .ite (fun _ => ?_) fun _ => .pure
  exact .seq (.update (hT.object fun _ => ⟨_, _, _, _, rfl⟩)) (.fail rfl)

/-- Nothing was created: the intent goes, and the walk ends. -/
theorem forgetIntent {R' : Unit → Operation → Prop} : Guides P Negative R (forgetIntent B i) R' := by
  refine .seq (.update (hT.object fun _ => ⟨_, _, _, _, rfl⟩)) ?_
  exact .bind hP.checkpointSaved fun _ => .fail rfl

theorem recordCreated {current : Identity} (hval : identityValid current = true) :
    Guides P Negative R (recordCreated B i current) (fun _ => A) := by
  exact .seq (.update (hT.created current hval)) hP.checkpointed

/-- An entry is recorded as created once its identity was read. -/
theorem adoptEntry (result : Int) (token : Token) :
    Guides P Negative R (adoptEntry B i result token) (fun _ => A) := by
  refine .ite (fun _ => hP.forgetIntent hT) fun _ => .check ?_ (resultOf_negative _)
  refine .readAny fun op => .bind (hP.pathIdentityKept _) fun found => .check ?_ (resultOf_negative _)
  exact .requireThen rfl fun hfound => hP.recordCreated hT hfound.1

theorem createDirectory : Guides P Negative R (createDirectory B i) (fun _ => A) := by
  refine .seq (hP.prepareEntryToken hT) (.readAny fun op => .bind (.call (hP.call (.mkdir _ _))) fun _ => ?_)
  refine .seq (hP.adoptEntry hT _ _) (.bind (.call (hP.call (.syncDirectory _))) fun _ => ?_)
  exact .check (hP.syncParentOnce _) (resultOf_negative _)

theorem createSymlink : Guides P Negative R (createSymlink B i) (fun _ => A) := by
  have hcreate : ∀ target path token, Guides P Negative R (createSymlinkAt B target path token)
      (fun _ => R) := by
    intro target path token
    unfold createSymlinkAt
    cases hc : B.createSymlinkWithToken with
    | none => exact .pure
    | some callback => exact .call (hP.call (.createSymlink hc target path token))
  unfold FileOperation.createSymlink
  cases hread : B.readSymlink with
  | none => exact .fail rfl
  | some readSymlink =>
    refine .check (.readAny fun op => .bind (.call (hP.call (.readSymlink hread _))) fun _ => ?_) rfl
    refine .check (.check (.seq (hP.prepareEntryToken hT) (.readAny fun op => ?_)) rfl) (resultOf_negative _)
    refine .bind (hcreate _ _ _) fun _ => .seq (hP.adoptEntry hT _ _) ?_
    exact .seq (hP.copyMetadata i _) (hP.syncParentOnce _)

theorem createHardlink : Guides P Negative R (createHardlink B i) (fun _ => A) := by
  unfold FileOperation.createHardlink
  cases hlink : B.linkNoReplace with
  | none => exact .fail rfl
  | some linkNoReplace =>
    refine .readAny fun op => .check (.check ?_ rfl) rfl
    refine .seq (.update (hT.object fun _ => ⟨_, _, _, _, rfl⟩)) (.seq hP.checkpointed ?_)
    refine .readAny fun op => .bind (.call (hP.call (.link hlink _ _))) fun _ => ?_
    refine .ite (fun _ => hP.forgetIntent hT) fun _ => .check ?_ (resultOf_negative _)
    refine .bind (hP.pathIdentityKept _) fun found => .check ?_ (resultOf_negative _)
    refine .requireThen rfl fun hfound => .check (.seq (hP.recordCreated hT hfound) ?_) rfl
    exact hP.syncParentOnce _

/-! ## §4. Moves. -/

/-- The forward rename: the identity is stored before it is looked at. -/
theorem renameEntry : Guides P Negative R (renameEntry B i) (fun _ => R) := by
  refine .readAny fun op => .bind (hP.pathIdentityKept _) fun _ => ?_
  refine .seq (.update (hT.object fun _ => ⟨_, _, _, _, rfl⟩)) (.check (.check ?_ rfl) (resultOf_negative _))
  refine .seq (.update (hT.object fun _ => ⟨_, _, _, _, rfl⟩)) (.seq hP.checkpointed ?_)
  refine .bind (hP.renameExpected _ _ _) fun _ => .check ?_ (resultOf_negative _)
  exact .update (hT.object fun _ => ⟨_, _, _, _, rfl⟩)

theorem settleRename : Guides P Negative R (settleRename B i) (fun _ => R) := by
  refine .seq hP.checkpointed (.readAny fun op => .seq (hP.syncParentOnce _) ?_)
  refine .seq (.when fun _ => hP.syncParentOnce _) ?_
  exact .seq (.update (hT.object fun _ => ⟨_, _, _, _, rfl⟩)) hP.checkpointed

end

/-! ## §5. Publishing a file. -/

/-- A file is closed, published and forgotten, in this order. -/
theorem finishCopy (hremoval : RemovalKeeps B P) (hT : PublishTurns P i R C A N) :
    Guides P Negative R (finishCopy B i) (fun _ => N) := by
  have hpublish : Guides P Negative C (publishCopy B i) (fun _ => A) := by
    refine .seq (.update hT.published) (.seq hP.checkpointed (.readAny fun op => ?_))
    refine .bind (.call (hP.call (.publish _ _))) fun _ => .check (.seq hP.checkpointed ?_) (resultOf_negative _)
    refine .bind (hP.pathIdentityKept _) fun found => .check (.check ?_ rfl) (resultOf_negative _)
    refine .requireThen rfl fun hequal => ?_
    have hval : identityValid found.2 = true := by
      unfold identityEqual at hequal
      simp only [Bool.and_eq_true] at hequal
      exact hequal.1.1
    refine .seq (.update (hT.slot _ (.identity _ hval))) (.seq (.update hT.settled) ?_)
    exact .seq (hP.syncParentOnce _) hP.checkpointed
  have hclean : ∀ path, Guides P Negative A
      ((FileOperation.cleanupCreatedPath B path false .temporary).orFail fun _ => Result.ioFailed)
      (fun _ op => A op ∧ op.temporaryCleanupState = .none) := fun path =>
    ((hP.cleanupCreatedPath hremoval path false _ hT.slot).mono fun _ _ h => ⟨h.1, h.2 rfl⟩).orFail fun _ _ => rfl
  refine .readAny fun op => .seq (hP.copyMetadata i _) (.bind (.call (hP.call (.syncFile _))) fun _ => ?_)
  refine .check (.bind (hP.closeFiles hT.handle hT.closed) fun _ => .check ?_ rfl) (resultOf_negative _)
  exact .seq hpublish (.readAny fun op => .seq (hclean _) (.update hT.forgotten))

end CallsKeep

/-! ## §6. The transfer. -/

namespace TransferKeep

variable {W : Type} {B : Backend W} {P : State W → Prop} (hP : TransferKeep B P) {R : Operation → Prop}

theorem advanceCompleted (hT : TransferTurns P R) (bytes dataEnd : Nat) :
    Guides P Negative R (advanceCompleted bytes dataEnd) (fun _ => R) := by
  exact .readAny fun op => .check (.update (hT _ _ _ _)) rfl

include hP

/-- An extent changes only the counters and the positions of the handles. -/
theorem prepareExtent (hT : TransferTurns P R) {sparse : SparseBackend W} (hsparse : B.sparse = some sparse)
    (i completed : Nat) : Guides P Negative R (prepareExtent sparse i completed) (fun _ => R) := by
  have hpos : ∀ handle offset, Guides P Negative R (positionAt sparse handle offset) (fun _ => R) := by
    intro handle offset
    refine .bind (.call (hP (.seek hsparse _ _ _))) fun _ => ?_
    exact .check (.require rfl) (resultOf_negative _)
  have hsize : Guides P Negative R (sparseSizeOutput sparse i) (fun _ => R) := by
    refine .readAny fun op => .ite (fun _ => .pure) fun _ => ?_
    refine .bind (.call (hP (.truncate hsparse _ _))) fun _ => ?_
    exact .check (.update (hT _ _ _ _)) (resultOf_negative _)
  refine .readAny fun op => .bind (.call (hP (.seek hsparse _ _ _))) fun _ => .ite (fun _ => ?_) fun _ => ?_
  · exact .seq (.update (hT _ _ _ _)) .pure
  refine .seq hsize (.ite (fun _ => .seq (advanceCompleted hT _ _) .pure) fun _ => ?_)
  refine .check (.check (.bind (.call (hP (.seek hsparse _ _ _))) fun _ => ?_) rfl) (resultOf_negative _)
  refine .check (.check (.seq (hpos _ _) (.seq (hpos _ _) ?_)) rfl) (resultOf_negative _)
  exact .seq (advanceCompleted hT _ _) .pure

theorem prepareSparseExtent (hT : TransferTurns P R) (i completed : Nat) :
    Guides P Negative R (prepareSparseExtent B i completed) (fun _ => R) := by
  refine .readAny fun op => .ite (fun _ => .pure) fun _ => .ite (fun _ => .check .pure rfl) fun _ => ?_
  cases hsparse : B.sparse with
  | none => exact .pure
  | some sparse => exact hP.prepareExtent hT hsparse i completed

theorem writeAll : ∀ (rounds : Nat) (bytes : List UInt8),
    Guides P Negative R (writeAll B rounds bytes) (fun _ => R)
  | 0, _ => .pure
  | rounds + 1, bytes => by
    unfold FileOperation.writeAll
    refine .ite (fun _ => .pure) fun _ => .readAny fun op => .bind (.call (hP (.write _ _))) fun _ => ?_
    exact .check (.check (writeAll rounds _) rfl) (resultOf_negative _)

end TransferKeep

end RinRuntime.FileOperation

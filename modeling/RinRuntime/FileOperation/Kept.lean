/-
FileOperation.Kept — what the steps of an operation leave alone.

Whatever a step does to the name space, it keeps the plan, the counters and the contents of every file, and
only adds to the recorded calls; the transfer of bytes is the one exception. Every function of the recovery
and every other function of the forward path has this property `Kept`, whether it succeeds or fails.
-/
import RinRuntime.FileOperation.FollowForward

namespace RinRuntime.FileOperation
open Lib Exec

/-! ## §1. Records. -/

/-- The fields that only the interface calls change. -/
structure Core where
  operation : OperationKind
  entryIndex : Nat
  conflictPolicy : ConflictPolicy
  active : Bool
  cancelRequested : Bool
  recoveryRequired : Bool
  rollbackActive : Bool
  pendingResult : Result
  replaceUndoActive : Bool

/-- The core of a record. -/
def Operation.core (op : Operation) : Core where
  operation := op.operation
  entryIndex := op.entryIndex
  conflictPolicy := op.conflictPolicy
  active := op.active
  cancelRequested := op.cancelRequested
  recoveryRequired := op.recoveryRequired
  rollbackActive := op.rollbackActive
  pendingResult := op.pendingResult
  replaceUndoActive := op.replaceUndoActive

/-- The plan of an entry: what the caller chose and no step changes. -/
structure SamePlan (e e' : Entry) : Prop where
  sourcePath : e'.sourcePath = e.sourcePath
  sizeBytes : e'.sizeBytes = e.sizeBytes
  kind : e'.kind = e.kind
  linkSourceIndex : e'.linkSourceIndex = e.linkSourceIndex

/-- What no step of an operation changes in the record. Only the `RENAME` policy changes a
destination. -/
structure SameRecord (op op' : Operation) : Prop where
  core : op'.core = op.core
  count : op'.entryCount = op.entryCount
  plan : ∀ k, SamePlan (op.entry k) (op'.entry k)
  destination : op.conflictPolicy ≠ .rename →
    ∀ k, (op'.entry k).destinationPath = (op.entry k).destinationPath
  completed : op'.completedBytes = op.completedBytes

theorem SamePlan.refl (e : Entry) : SamePlan e e := ⟨rfl, rfl, rfl, rfl⟩

theorem SamePlan.trans {e e' e'' : Entry} (h : SamePlan e e') (h' : SamePlan e' e'') : SamePlan e e'' :=
  ⟨h'.sourcePath.trans h.sourcePath, h'.sizeBytes.trans h.sizeBytes, h'.kind.trans h.kind,
    h'.linkSourceIndex.trans h.linkSourceIndex⟩

namespace SameRecord

theorem refl (op : Operation) : SameRecord op op :=
  ⟨rfl, rfl, fun _ => SamePlan.refl _, fun _ _ => rfl, rfl⟩

theorem trans {op op' op'' : Operation} (h : SameRecord op op') (h' : SameRecord op' op'') :
    SameRecord op op'' where
  core := h'.core.trans h.core
  count := h'.count.trans h.count
  plan k := (h.plan k).trans (h'.plan k)
  destination hpol k := by
    have hpol' : op'.conflictPolicy ≠ .rename := by
      rw [show op'.conflictPolicy = op.conflictPolicy from congrArg Core.conflictPolicy h.core]
      exact hpol
    exact (h'.destination hpol' k).trans (h.destination hpol k)
  completed := h'.completed.trans h.completed

/-- A record is the same up to fields that neither the entries nor the core hold. -/
theorem of_entries {op op' : Operation} (hcore : op'.core = op.core)
    (hents : op'.entries = op.entries) (hcompleted : op'.completedBytes = op.completedBytes) :
    SameRecord op op' := by
  have hent : ∀ k, op'.entry k = op.entry k := by
    intro k
    unfold Operation.entry
    rw [hents]
  refine ⟨hcore, ?_, fun k => ?_, fun _ k => ?_, hcompleted⟩
  · unfold Operation.entryCount
    rw [hents]
  · rw [hent]
    exact SamePlan.refl _
  · rw [hent]

/-- An entry may change but for its plan and its destination. -/
theorem setEntry (op : Operation) (i : Nat) {f : Entry → Entry} (hf : ∀ e, SamePlan e (f e))
    (hdest : ∀ e, (f e).destinationPath = e.destinationPath) : SameRecord op (op.setEntry i f) := by
  refine ⟨rfl, Operation.entryCount_setEntry op i f, fun k => ?_, fun _ k => ?_, rfl⟩
  · rcases Operation.entry_setEntry op i f k with h | h
    · rw [h]
      exact SamePlan.refl _
    · rw [h]
      exact hf _
  · rcases Operation.entry_setEntry op i f k with h | h
    · rw [h]
    · rw [h, hdest]

/-- The `RENAME` policy gives an entry another destination. -/
theorem setDestination {op : Operation} (i : Nat) {path : Path} (hpol : op.conflictPolicy = .rename) :
    SameRecord op (op.setEntry i fun e => { e with destinationPath := path }) := by
  refine ⟨rfl, Operation.entryCount_setEntry op i _, fun k => ?_, fun hne => absurd hpol hne, rfl⟩
  rcases Operation.entry_setEntry op i (fun e => { e with destinationPath := path }) k with h | h
  · rw [h]
    exact SamePlan.refl _
  · rw [h]
    exact ⟨rfl, rfl, rfl, rfl⟩

end SameRecord

/-! ## §2. The kept property. -/
section
variable {W ε α : Type} {view : W → View} {s : State W} {F : ε → Prop}

/-- **What a step outside the transfer keeps.** -/
structure Kept (view : W → View) (s s' : State W) : Prop where
  record : SameRecord s.op s'.op
  content : (view s'.world).content = (view s.world).content
  log : s.log ⊆ s'.log

namespace Kept

theorem refl (s : State W) : Kept view s s :=
  ⟨SameRecord.refl s.op, rfl, List.Subset.refl _⟩

/-- Recorded calls stay recorded. -/
theorem seen_log {s' : State W} (h : Kept view s s') : (seen view s).log ⊆ (seen view s').log :=
  List.map_subset _ h.log

end Kept

end

/-! ## §3. Changes. -/

theorem SameRecord.slotCleanup (slot : Slot) (c : CleanupState) (op : Operation) :
    SameRecord op (slot.setCleanup c op) := by
  cases slot with
  | temporary => exact SameRecord.of_entries rfl rfl rfl
  | entry i => exact SameRecord.setEntry op i (fun _ => ⟨rfl, rfl, rfl, rfl⟩) (fun _ => rfl)

theorem SameRecord.slotIdentity (slot : Slot) (id : Identity) (op : Operation) :
    SameRecord op (slot.setIdentity id op) := by
  cases slot with
  | temporary => exact SameRecord.of_entries rfl rfl rfl
  | entry i => exact SameRecord.setEntry op i (fun _ => ⟨rfl, rfl, rfl, rfl⟩) (fun _ => rfl)

theorem SameRecord.ite {op a b : Operation} (c : Prop) [Decidable c] (ha : SameRecord op a)
    (hb : SameRecord op b) : SameRecord op (if c then a else b) := by
  split
  · exact ha
  · exact hb

theorem CallsKeep.SlotChange.sameRecord {slot : Slot} {f : Operation → Operation} (h : SlotChange slot f)
    (op : Operation) : SameRecord op (f op) := by
  cases h with
  | cleanup c hc => exact SameRecord.slotCleanup _ c op
  | identity id hid => exact SameRecord.slotIdentity _ id op
  | pending => exact SameRecord.ite _ (SameRecord.slotCleanup _ _ op) (SameRecord.refl op)

/-- The changes of a rollback keep the plan of an entry. -/
theorem CallsKeep.EntryChange.sameRecord {i : Nat} {c : Operation → Prop} {f : Operation → Operation}
    (h : EntryChange i c f) (op : Operation) : SameRecord op (f op) := by
  have hent : ∀ {g : Entry → Entry}, (∀ e, SamePlan e (g e)) →
      (∀ e, (g e).destinationPath = e.destinationPath) → SameRecord op (op.setEntry i g) :=
    fun hplan hdest => SameRecord.setEntry op i hplan hdest
  cases h with
  | slot h => exact h.sameRecord op
  | restore h =>
    cases h with
    | started =>
      exact SameRecord.ite _ (hent (fun _ => ⟨rfl, rfl, rfl, rfl⟩) fun _ => rfl) (SameRecord.refl op)
    | held | clear => exact hent (fun _ => ⟨rfl, rfl, rfl, rfl⟩) fun _ => rfl
  | rename h =>
    cases h with
    | started =>
      exact SameRecord.ite _ (hent (fun _ => ⟨rfl, rfl, rfl, rfl⟩) fun _ => rfl) (SameRecord.refl op)
    | renamed => exact hent (fun _ => ⟨rfl, rfl, rfl, rfl⟩) fun _ => rfl
  | removed | forgotten | adopted => exact hent (fun _ => ⟨rfl, rfl, rfl, rfl⟩) fun _ => rfl

/-- A rollback changes no plan and no counter. -/
theorem CallsKeep.RollbackChange.sameRecord {c : Operation → Prop} {f : Operation → Operation}
    (h : RollbackChange c f) (op : Operation) : SameRecord op (f op) := by
  have hback : SameRecord op (FileOperation.stepBack op) := SameRecord.of_entries rfl rfl rfl
  cases h with
  | handle h => cases h <;> exact SameRecord.of_entries rfl rfl rfl
  | closed | temporary => exact SameRecord.of_entries rfl rfl rfl
  | slot h => exact h.sameRecord op
  | entry h => exact h.sameRecord op
  | back h =>
    cases h with
    | undone =>
      refine SameRecord.trans (SameRecord.setEntry op _ (fun _ => ?_) fun _ => ?_)
        (SameRecord.of_entries rfl rfl rfl)
      · exact ⟨rfl, rfl, rfl, rfl⟩
      · rfl
    | passed => exact SameRecord.ite _ hback (SameRecord.refl op)
    | stepBack => exact hback

section
variable {W : Type} {view : W → View} {s : State W} {R : Operation → Prop} {i : Nat}

/-- A change of the record alone is kept if it keeps the plan. -/
theorem Kept.turns {f : Operation → Operation} (hf : ∀ op, SameRecord op (f op)) :
    Turns (Kept view s) R f AnyRecord := fun s' h _ =>
  ⟨⟨h.record.trans (hf s'.op), h.content, h.log⟩, trivial⟩

theorem Kept.turns_entry {f : Entry → Entry}
    (hf : ∀ e, SamePlan e (f e) ∧ (f e).destinationPath = e.destinationPath) :
    Turns (Kept view s) R (fun op => op.setEntry i f) AnyRecord :=
  Kept.turns fun op => SameRecord.setEntry op i (fun e => (hf e).1) (fun e => (hf e).2)

/-- The stages of an entry do not matter here. -/
theorem kept_entry : EntryTurns (Kept view s) i AnyRecord AnyRecord AnyRecord where
  object hf := Kept.turns_entry fun e => by
    obtain ⟨_, _, _, _, hchg⟩ := hf e
    rw [hchg]
    exact ⟨⟨rfl, rfl, rfl, rfl⟩, rfl⟩
  displacing _ _ _ _ := Kept.turns_entry fun _ => ⟨⟨rfl, rfl, rfl, rfl⟩, rfl⟩
  displaced := Kept.turns_entry fun _ => ⟨⟨rfl, rfl, rfl, rfl⟩, rfl⟩
  -- only this step changes a destination
  renamed _ _ _ h hpol :=
    ⟨⟨h.record.trans (SameRecord.setDestination i hpol.2), h.content, h.log⟩, trivial⟩
  created _ _ := Kept.turns_entry fun _ => ⟨⟨rfl, rfl, rfl, rfl⟩, rfl⟩

theorem kept_publish : PublishTurns (Kept view s) i AnyRecord AnyRecord AnyRecord AnyRecord where
  handle _ h := Kept.turns (CallsKeep.RollbackChange.handle h).sameRecord
  closed := Kept.turns fun _ => SameRecord.of_entries rfl rfl rfl
  published := Kept.turns fun op => SameRecord.setEntry op i (fun _ => ⟨rfl, rfl, rfl, rfl⟩) fun _ => rfl
  settled := Kept.turns_entry fun _ => ⟨⟨rfl, rfl, rfl, rfl⟩, rfl⟩
  slot _ h := Kept.turns h.sameRecord
  forgotten := Kept.turns fun _ => SameRecord.of_entries rfl rfl rfl

end

/-! ## §4. Callbacks. -/

/-- A call whose effect is on names only changes no contents. -/
theorem Attempt.content {result : Int} {Done : View → View → Prop} {v v' : View}
    (h : Attempt result Done v v') (hdone : Done v v' → v'.content = v.content) :
    v'.content = v.content := by
  rcases h.2 with heq | hd
  · rw [heq]
  · exact hdone hd

/-- A creation under a token changes no contents. -/
theorem CreatesEntry.content {W : Type} {view : W → View} {path : Path} {token : Token}
    {callback : W → Int × W} (h : CreatesEntry view path token callback) (w : W) :
    (view (callback w).2).content = (view w).content := by
  refine (h w).1.content ?_
  rintro ⟨_, _, _, hv⟩
  rw [hv]

/-- A link changes names only. -/
theorem Linked.content {src dst : Path} {v v' : View} (h : Linked src dst v v') :
    v'.content = v.content := by
  obtain ⟨_, _, _, hv⟩ := h
  rw [hv]

section
variable {W ε : Type} {B : Backend W} {view : W → View} (hB : Lawful view B) {s : State W}
include hB

/-- Every callback but those of the transfer keeps the contents. -/
theorem kept_calls : CallsKeep B (Kept view s) := by
  have hkept : ∀ {β : Type} {callback : W → β × W},
      (∀ w, (view (callback w).2).content = (view w).content) →
      Harmless (Kept view s) callback := fun hc s' h =>
    ⟨h.record, (hc _).trans h.content, h.log⟩
  have hquiet : ∀ {β : Type} {callback : W → β × W}, Quiet view callback →
      Harmless (Kept view s) callback := fun hq => hkept fun w => by rw [hq w]
  refine ⟨fun hcall => ?_, fun callback hc s' => hquiet (hB.checkpoint_quiet callback hc s'.op) s'⟩
  cases hcall with
  | pathState path => exact hquiet (hB.pathState_quiet path)
  | pathIdentity path => exact hquiet (hB.pathIdentity_quiet path)
  | syncDirectory path => exact hquiet (hB.syncDirectory_quiet path)
  | close handle => exact hkept fun w => by rw [hB.close_drops handle]
  | renameExpected hc src dst id =>
    refine hkept fun w => (hB.rename_expected _ hc src dst id w).content ?_
    rintro ⟨_, _, _, hv⟩
    rw [hv]
  | copyMetadata hc src dst kind => exact hquiet (hB.copyMetadata_quiet _ hc src dst kind)
  | backupPath hc path id => exact hquiet (hB.backupPath_quiet _ hc path id)
  | chooseRenamed hc src dst => exact hquiet (hB.renamedDestination_quiet _ hc src dst)
  | randomOperationToken => exact hquiet hB.randomOperationToken_quiet
  | mkdir path token => exact hkept (hB.mkdir_creates path token).content
  | readSymlink hc path => exact hquiet (hB.readSymlink_quiet _ hc path)
  | createSymlink hc target path token => exact hkept (hB.symlink_creates _ hc target path token).content
  | link hc src dst => exact hkept fun w => (hB.link_links _ hc src dst w).1.content Linked.content
  | publish src dst => exact hkept fun w => (hB.publish_links src dst w).content Linked.content
  | syncFile handle => exact hquiet (hB.syncFile_quiet handle)

/-- A removal is recorded, and changes names only. -/
theorem removal_kept : RemovalKeeps B (Kept view s) := by
  intro ε F R directory path id s' h hR
  rw [wp_askRecorded]
  refine ⟨⟨h.record, Eq.trans ?_ h.content, fun event hmem => ?_⟩, hR⟩
  · exact (removeExpected_attempt hB directory path id s'.world).content fun hdone => by rw [hdone.2]
  · exact List.mem_append_left _ (h.log hmem)

/-- **A rollback step** keeps the plan, the counters and the contents. -/
theorem rollbackStep_kept : Keeps (Kept view s) (fun _ => True) (rollbackStep B) :=
  ((kept_calls hB).rollbackStep (removal_kept hB) fun _ _ h => Kept.turns h.sameRecord).keeps

theorem conflict_kept (i : Nat) : Keeps (Kept view s) Negative (conflict B i) :=
  ((kept_calls hB).conflict kept_entry).keeps

theorem createDirectory_kept (i : Nat) : Keeps (Kept view s) Negative (createDirectory B i) :=
  ((kept_calls hB).createDirectory kept_entry).keeps

theorem createSymlink_kept (i : Nat) : Keeps (Kept view s) Negative (createSymlink B i) :=
  ((kept_calls hB).createSymlink kept_entry).keeps

theorem createHardlink_kept (i : Nat) : Keeps (Kept view s) Negative (createHardlink B i) :=
  ((kept_calls hB).createHardlink kept_entry).keeps

theorem finishCopy_kept (i : Nat) : Keeps (Kept view s) Negative (finishCopy B i) :=
  ((kept_calls hB).finishCopy (removal_kept hB) kept_publish).keeps

end
end RinRuntime.FileOperation

/-
FileOperation.StorableForward — the way forward saves only records that can be stored.

The functions of a copy, of a move and of an undo. An entry holds a valid identity once it has created
something, so the way forward keeps track of what has not been created yet (`Current`, `Ahead`) and of the
temporary file (`NoFile`, `Announced`, `Writing`).
-/
import RinRuntime.FileOperation.StorableRecovery

namespace RinRuntime.FileOperation
open Lib Watch

/-! ## §1. Entries on the way forward. -/

/-- The operation is at entry `i`, and no later entry has created anything. -/
def Ahead (i : Nat) (op : Operation) : Prop := op.entryIndex = i ∧ ∀ k, i < k → Uncreated k op

/-- The operation is at entry `i`, which has created nothing so far. -/
def Current (i : Nat) (op : Operation) : Prop := Ahead i op ∧ Uncreated i op

/-- A property that the entries do not matter for. -/
def OffEntries (R : Operation → Prop) : Prop := ∀ op i f, R op → R (op.setEntry i f)

variable {op : Operation} {i : Nat}

/-- Later entries are not affected. -/
theorem Ahead.setEntry (h : Ahead i op) (f : Entry → Entry) : Ahead i (op.setEntry i f) := by
  refine ⟨h.1, fun k hk => ?_⟩
  unfold Uncreated
  rw [Operation.entry_setEntry_ne (Nat.ne_of_gt hk)]
  exact h.2 k hk

theorem Current.setEntry (h : Current i op) {f : Entry → Entry}
    (hf : ∀ e, e.created = false → (f e).created = false) : Current i (op.setEntry i f) :=
  ⟨h.1.setEntry f, h.2.setEntry hf⟩

theorem HasBackup.setReplacement (h : HasBackup i op)
    {state : ReplacementState} (hst : state ≠ .none) : HasBackup i (setReplacement i state op) := by
  unfold HasBackup FileOperation.setReplacement
  rcases Operation.entry_setEntry op i (fun e => { e with replacementState := state }) i with
    hsame | hchanged
  · rw [hsame]
    exact h
  · rw [hchanged]
    exact hst

section
variable {W α : Type} {T : Watch W α} {R : Operation → Prop} {i : Nat}

/-- The stages of an entry: the current entry has created nothing, then it has a backup, or an object. -/
theorem stored_entry (hR : OffEntries R) (hi : i < T.plan.length) :
    EntryTurns T.Stored i (fun op => Current i op ∧ R op)
      (fun op => (Current i op ∧ R op) ∧ HasBackup i op) (fun op => Ahead i op ∧ R op) where
  object {f} hf := turns fun op hop ⟨hcur, hRop⟩ => by
    refine ⟨hop.setEntry i fun planned he => ?_, ?_, hR op i f hRop⟩
    · obtain ⟨_, _, _, _, hchg⟩ := hf (op.entry i)
      rw [hchg]
      exact { he with identity := StorableEntry.ofUncreated hcur.2 }
    refine hcur.setEntry fun e he => ?_
    obtain ⟨_, _, _, _, hchg⟩ := hf e
    rw [hchg]
    exact he
  displacing path id hpath hid := turns fun op hop ⟨hcur, hRop⟩ => by
    refine ⟨hop.setEntry i fun planned he => ?_, ⟨hcur.setEntry fun _ h => h, hR op i _ hRop⟩, ?_⟩
    · refine { he with unreplaced := fun hnone => ?_, replaced := fun _ => ⟨hpath, hid⟩ }
      cases hnone
    unfold HasBackup
    rw [Operation.entry_setEntry_self (by rw [hop.count]; exact hi)]
    intro hnone
    cases hnone
  displaced := turns fun op hop ⟨⟨hcur, hRop⟩, hrepl⟩ =>
    ⟨hop.setReplacement i hrepl (by decide), hcur.setEntry fun _ h => h, hR op i _ hRop⟩
  renamed path hpath := turns fun op hop ⟨⟨hcur, hRop⟩, _⟩ => by
    refine ⟨hop.setEntry i fun planned he => ?_, hcur.setEntry fun _ h => h, hR op i _ hRop⟩
    exact { he with destination := hpath }
  created id hid := turns fun op hop ⟨hcur, hRop⟩ => by
    refine ⟨hop.setEntry i fun planned he => ?_, hcur.1.setEntry _, hR op i _ hRop⟩
    exact { he with identity := fun _ => hid }

end

/-! ## §2. Files. -/

/-- No file is being copied. -/
def NoFile (op : Operation) : Prop := op.temporaryCreated = false ∧ op.fileOpen = false

/-- A temporary file has been announced, and nothing has come of it yet. -/
def Announced (op : Operation) : Prop :=
  op.temporaryCreated = true ∧ op.temporaryCleanupState = .none ∧ op.fileOpen = false

/-- The temporary file is known by its identity. -/
def Written (op : Operation) : Prop :=
  op.temporaryCreated = true ∧ identityValid op.temporaryIdentity = true

/-- A file is being copied. -/
def Writing (op : Operation) : Prop := Written op ∧ op.fileOpen = true

/-- **Between two forward pumps** nothing has been created at the current entry or after it, and an
open file has a temporary file. -/
def CopyReady (op : Operation) : Prop :=
  (∀ k, op.entryIndex ≤ k → Uncreated k op) ∧ (NoFile op ∨ Writing op)

theorem CopyReady.current (h : CopyReady op) : Current op.entryIndex op :=
  ⟨⟨rfl, fun k hk => h.1 k (Nat.le_of_lt hk)⟩, h.1 _ (Nat.le_refl _)⟩

/-- The current entry may be taken up again. -/
theorem Current.ready (h : Current i op) (htemp : NoFile op ∨ Writing op) : CopyReady op := by
  refine ⟨fun k hk => ?_, htemp⟩
  rw [h.1.1] at hk
  rcases Nat.eq_or_lt_of_le hk with heq | hlt
  · rw [← heq]
    exact h.2
  · exact h.1.2 k hlt

/-- The entry behind a finished one is ready. -/
theorem Ahead.ready_next (h : Ahead i op) (htemp : NoFile op ∨ Writing op) : CopyReady (nextEntry op) := by
  refine ⟨fun k hk => ?_, htemp⟩
  have hlt : op.entryIndex + 1 ≤ k := hk
  rw [h.1] at hlt
  exact h.2 k hlt

theorem Storable.nextEntry {kind : OperationKind} {plan : List Entry}
    (h : Storable kind plan op) (hidx : op.entryIndex < plan.length) :
    Storable kind plan (nextEntry op) :=
  { h with index := hidx }

/-- A temporary file without a pending cleanup is forgotten. -/
theorem Storable.forgetTemporary {kind : OperationKind} {plan : List Entry}
    (h : Storable kind plan op) (hcleanup : op.temporaryCleanupState = .none) :
    Storable kind plan (forgetTemporary op) := by
  refine { h with temporary := ?_, idle := fun _ => hcleanup }
  intro hcre
  cases hcre

theorem offEntries_noFile : OffEntries NoFile := fun _ _ _ h => h

section
variable {W α ε β : Type} {B : Backend W} {observe : W → α} {T : Watch W α}
  (hB : Traced B observe T.trail) {R S : Operation → Prop}

/-- A change of fields that a stored record does not depend on. -/
theorem turns_fields {f : Operation → Operation}
    (hf : ∀ op : Operation, Storable T.kind T.plan op → Storable T.kind T.plan (f op))
    (hR : ∀ op, R op → S (f op)) : Turns T.Stored R f S :=
  turns fun op hop h => ⟨hf op hop, hR op h⟩

include hB

theorem closeFiles_leads (hhandle : ∀ f, CallsKeep.HandleChange f → ∀ op, R op → R (f op))
    (hclosed : ∀ op : Operation, R op → S { op with fileOpen := false }) :
    T.Leads R (closeFiles B : Exec ε (State W) Bool) (fun _ => S) :=
  (stored_calls hB).closeFiles
    (fun f h => turns_fields (fun _ hop => (CallsKeep.RollbackChange.handle h).storable hop trivial) (hhandle f h))
    (turns_fields (fun _ hop => CallsKeep.RollbackChange.closed.storable hop trivial) hclosed)

/-- Closing on the way out saves nothing. -/
theorem closeAndFail_leads {e : ε} {R' : β → Operation → Prop} :
    T.Leads R (closeAndFail B e : Exec ε (State W) β) R' := by
  refine .weaken (S := AnyRecord) ?_ fun _ _ => trivial
  exact .bind (closeFiles_leads (S := AnyRecord) hB (fun _ _ _ h => h) fun _ h => h) fun _ => .fail trivial

omit hB in
/-- A temporary path that is named is valid. -/
theorem nextTemporaryPath_leads (i : Nat) (destination : Path) :
    T.Leads (fun op => Current i op ∧ NoFile op) (nextTemporaryPath destination : Exec ε (State W) Bool)
      (fun named op => (Current i op ∧ NoFile op) ∧
        (named = true → pathValid op.temporaryPath = true)) := by
  -- while no temporary file exists, its name is free to change
  have hpath : ∀ (path : Operation → Path) (sequence : Operation → Nat),
      Turns T.Stored (fun op => Current i op ∧ NoFile op)
        (fun op => { op with temporaryPath := path op, temporarySequence := sequence op })
        (fun op => Current i op ∧ NoFile op) := by
    refine fun path sequence => turns fun op hop ⟨hcur, hidle⟩ => ⟨?_, hcur, hidle⟩
    refine { hop with temporary := ?_ }
    intro hcre
    rw [hidle.1] at hcre
    cases hcre
  have href : T.Leads (fun op => Current i op ∧ NoFile op) (Pure.pure false : Exec ε (State W) Bool)
      (fun named op => (Current i op ∧ NoFile op) ∧ (named = true → pathValid op.temporaryPath = true)) :=
    fun s hs hR => ⟨hs, hR, fun h => by cases h⟩
  refine .ite (fun _ => href) fun _ => .seq (.update (hpath (fun _ => _) fun _ => _)) ?_
  refine .readAny fun op => .ite (fun _ => href) fun _ => ?_
  refine .seq (.update (hpath _ _)) (.read fun s _ hknown s' hs' heq => ?_)
  refine ⟨hs', ?_⟩
  rw [heq]
  exact ⟨hknown, fun hval => hval⟩

/-- The announced file gets its identity. -/
theorem adoptTemporary_leads (i : Nat) (token : Token) :
    T.Leads (fun op => Current i op ∧ Announced op) (adoptTemporary B token)
      (fun _ op => Current i op ∧ Writing op) := by
  refine .seq (Q := fun op => Current i op ∧ op.temporaryCreated = true ∧ op.fileOpen = true)
    (.update ?_) (.readAny fun op => ?_)
  · exact turns fun op hop ⟨hcur, hann⟩ =>
      ⟨{ hop with }, hcur, hann.1, rfl⟩
  refine .bind (.call (silent (hB.silent (.handleIdentity _)))) fun found => .test (.requireThen trivial fun hfound => ?_)
  refine .seq (Q := fun op => Current i op ∧ Writing op) (.update ?_) ?_
  · exact turns fun op' hop' ⟨hcur, hcre, hopen⟩ =>
      ⟨hop'.slotIdentity .temporary hfound.1, hcur, ⟨hcre, hfound.1⟩, hopen⟩
  refine .seq (stored_calls hB).checkpointKept (.update (turns_fields (fun op' hop' => ?_) fun _ h => h))
  exact { hop' with }

omit hB in
/-- A token stands for the identity until the file exists. -/
theorem announce_leads (i : Nat) {token : Token} (htoken : tokenValid token = true) :
    T.Leads (fun op => (Current i op ∧ NoFile op) ∧ pathValid op.temporaryPath = true) (update fun op =>
        { op with temporaryIdentity := Identity.ofToken token, temporaryCreated := true } :
        Exec ε (State W) Unit)
      (fun _ op => Current i op ∧ Announced op) := by
  have hintent : identityIntentValid (Identity.ofToken token) = true := by
    have hne : token ≠ Token.zero := by simpa [tokenValid] using htoken
    simp [identityIntentValid, identityHasToken, Identity.ofToken, hne]
  refine .update (turns fun op hop ⟨⟨hcur, hidle⟩, hpath⟩ => ?_)
  refine ⟨{ hop with temporary := fun _ => ⟨hpath, hintent⟩, idle := ?_ }, hcur, rfl, hop.idle hidle.1, hidle.2⟩
  intro hcre
  cases hcre

omit hB in
theorem forgetAnnounced_leads (i : Nat) : T.Leads (fun op => Current i op ∧ Announced op)
      (update forgetTemporary : Exec ε (State W) Unit) (fun _ op => Current i op ∧ NoFile op) :=
  .update <| turns fun _ hop ⟨hcur, hann⟩ =>
    ⟨hop.forgetTemporary hann.2.1, hcur, rfl, hann.2.2⟩

/-- After every attempt the file is either open or forgotten. -/
theorem openTemporary_leads (i : Nat) : ∀ attempts,
    T.Leads (fun op => Current i op ∧ NoFile op) (openTemporary B i attempts)
      (fun _ op => Current i op ∧ Writing op)
  | 0 => closeAndFail_leads hB
  | attempts + 1 => by
    have hfail : ∀ {R e}, T.Leads R (closeAndFail B e : Exec Result (State W) Unit)
        (fun _ op => Current i op ∧ Writing op) := closeAndFail_leads hB
    unfold openTemporary
    refine .readAny fun op => .bind (nextTemporaryPath_leads i _) fun named => .ite (fun _ => hfail) fun hnamed => ?_
    refine .bind (.call (silent (hB.silent .randomOperationToken))) fun found => .ite (fun _ => hfail) fun hfound => ?_
    have htoken : tokenValid found.2 = true := by
      by_contra hne
      exact hfound (Or.inr (by simpa using hne))
    refine .seq (.weaken (announce_leads i htoken) fun op' h => ⟨h.1, h.2 (by simpa using hnamed)⟩) ?_
    refine .bind (stored_calls hB).checkpointSaved fun _ => .ite (fun _ => ?_) fun _ => ?_
    · exact .seq (forgetAnnounced_leads i) hfail
    refine .readAny fun op' => .bind (.call (silent (hB.silent (.openCreate _ _)))) fun opened => ?_
    refine .seq (Q := fun op => Current i op ∧ Announced op)
      (.update (turns_fields (fun op'' hop'' => ?_) fun _ h => h)) (.ite (fun _ => ?_) fun _ => ?_)
    · exact { hop'' with }
    · refine .seq (forgetAnnounced_leads i) (.bind (stored_calls hB).checkpointSaved fun _ => ?_)
      exact .ite (fun _ => hfail) fun _ => openTemporary_leads i attempts
    · exact .ite (fun _ => hfail) fun _ => adoptTemporary_leads hB i _

theorem openCopy_leads (i : Nat) : T.Leads (fun op => Current i op ∧ NoFile op) (openCopy B i)
      (fun _ op => Current i op ∧ Writing op) := by
  have hsize : ∀ sizeBytes handle, T.Leads (fun op => Current i op ∧ NoFile op)
      (expectSize B sizeBytes handle) (fun _ op => Current i op ∧ NoFile op) := by
    intro sizeBytes handle
    unfold expectSize
    cases hsparse : B.sparse with
    | none => exact .pure
    | some sparse =>
      refine .bind (.call (silent (hB.silent (.fileSize hsparse handle)))) fun size => ?_
      exact .ite (fun _ => closeAndFail_leads hB) fun _ => .pure
  refine .readAny fun op => .bind (recorded (hB.silent (.openRead _))) fun opened => ?_
  refine .seq (Q := fun op => Current i op ∧ NoFile op)
    (.update (turns_fields (fun op' hop' => ?_) fun _ h => h)) ?_
  · exact { hop' with }
  · exact .test (.test (.seq (hsize _ _) (openTemporary_leads hB i 16)))

/-! ## §3. The transfer and the publication. -/

theorem stored_transfer : TransferKeep B T.Stored := fun _ _ hcall => silent (hB.silent hcall)

omit hB

theorem writing_transfer (i : Nat) : TransferTurns T.Stored fun op => Current i op ∧ Writing op :=
  fun _ _ _ _ => turns_fields (fun _ hop => { hop with }) fun _ h => h

/-- Another replacement state of an entry, which has a backup exactly when it had one. -/
theorem StorableEntry.withReplacement {planned e : Entry} (h : StorableEntry planned e)
    {state : ReplacementState} (hst : state = .none ↔ e.replacementState = .none) :
    StorableEntry planned { e with replacementState := state } :=
  { h with
    unreplaced := fun hnone => h.unreplaced (hst.mp hnone)
    replaced := fun hne => h.replaced fun hnone => hne (hst.mpr hnone) }

/-- A published entry has the identity of its file. -/
theorem StorableEntry.published {planned e : Entry} (h : StorableEntry planned e) {id : Identity}
    (hid : identityValid id = true) :
    StorableEntry planned { e with
      created := true
      objectIdentity := id
      replacementState :=
        if e.replacementState = .backupHeld then .publishInProgress else e.replacementState } := by
  have hobject : StorableEntry planned { e with created := true, objectIdentity := id } :=
    { h with identity := fun _ => hid }
  refine hobject.withReplacement ?_
  split
  · next hheld => simp [hheld]
  · exact Iff.rfl

theorem StorableEntry.settled {planned e : Entry} (h : StorableEntry planned e) :
    StorableEntry planned { e with replacementState :=
        if e.replacementState = .publishInProgress then .backupHeld else e.replacementState } := by
  refine h.withReplacement ?_
  split
  · next hpublish => simp [hpublish]
  · exact Iff.rfl

/-- The stages of a file: written, closed, published and forgotten. -/
theorem stored_publish (i : Nat) : PublishTurns T.Stored i (fun op => Current i op ∧ Writing op)
      (fun op => Current i op ∧ Written op ∧ op.fileOpen = false)
      (fun op => (Ahead i op ∧ op.fileOpen = false) ∧ op.temporaryCreated = true)
      (fun op => Ahead i op ∧ NoFile op) where
  handle f h := turns fun op hop hR => by
    refine ⟨(CallsKeep.RollbackChange.handle h).storable hop trivial, ?_⟩
    cases h <;> exact hR
  closed := turns fun _ hop hR =>
    ⟨CallsKeep.RollbackChange.closed.storable hop trivial, hR.1, hR.2.1, rfl⟩
  published := turns fun _ hop ⟨hcur, hwr, hclosed⟩ =>
    ⟨hop.setEntry i fun planned he => he.published hwr.2, ⟨hcur.1.setEntry _, hclosed⟩, hwr.1⟩
  settled := turns fun _ hop ⟨⟨hahead, hclosed⟩, hcre⟩ =>
    ⟨hop.setEntry i fun planned he => he.settled, ⟨hahead.setEntry _, hclosed⟩, hcre⟩
  slot f h := turns fun op hop ⟨hR, hcre⟩ => by
    refine ⟨h.storable hop hcre, ?_, h.created hcre⟩
    cases h with
    | cleanup | identity => exact hR
    | pending =>
      dsimp only
      split <;> exact hR
  forgotten := turns fun _ hop ⟨⟨⟨hahead, hclosed⟩, _⟩, hcleanup⟩ =>
    ⟨hop.forgetTemporary hcleanup, hahead, rfl, hclosed⟩

include hB

theorem finishDirectories_leads : ∀ index, T.Leads R (finishDirectories B index) (fun _ => R)
  | 0 => .pure
  | index + 1 => by
    unfold finishDirectories
    refine .readAny fun op => .ite (fun _ => finishDirectories_leads index) fun _ => ?_
    refine .seq ((stored_calls hB).copyMetadata index _).anyError ?_
    refine .bind (.call (silent (hB.silent (.syncDirectory _)))) fun _ => .test ?_
    exact .seq ((stored_calls hB).syncParentOnce _).anyError (finishDirectories_leads index)

/-! ## §4. The forward step. -/

variable {i : Nat}

omit hB in
/-- A step that finishes its entry leads to the next one. -/
theorem finishEntry_leads (hi : i < T.plan.length) {step : Exec Result (State W) Unit}
    (htemp : ∀ op, R op → NoFile op ∨ Writing op) {P : Operation → Prop} {F : Result → Prop}
    (hstep : Guides T.Stored F P step (fun _ op => Ahead i op ∧ R op)) :
    T.Leads P (finishEntry step) (fun _ => CopyReady) := by
  refine .seq hstep.anyError (.seq (Q := CopyReady) (.update ?_) .pure)
  exact turns fun op hop ⟨hahead, hRop⟩ =>
    ⟨hop.nextEntry (by rw [hahead.1]; exact hi), hahead.ready_next (htemp op hRop)⟩

theorem finishFile_leads (hi : i < T.plan.length) :
    T.Leads (fun op => Current i op ∧ Writing op) (finishEntry (finishCopy B i)) (fun _ => CopyReady) :=
  finishEntry_leads hi (fun _ => Or.inl)
    ((stored_calls hB).finishCopy (stored_removal hB) (stored_publish i))

/-- A chunk leaves the file open or finished. -/
theorem transferChunk_leads (hi : i < T.plan.length) (completed : Nat) :
    T.Leads (fun op => Current i op ∧ Writing op) (transferChunk B i completed) (fun _ => CopyReady) := by
  refine .readAny fun op => .test (.bind (.call (silent (hB.silent (.read _ _)))) fun found => .test (.test ?_))
  refine .ite (fun _ => .test (finishFile_leads hB hi)) fun _ => .test ?_
  refine .seq ((stored_transfer hB).writeAll _ _).anyError (.seq (Q := CopyReady) (.update ?_) .pure)
  refine turns fun op' hop' ⟨hcur, hwriting⟩ => ?_
  have hrdy : CopyReady op' := hcur.ready (Or.inr hwriting)
  exact ⟨{ hop' with }, hrdy⟩

theorem copyOpenFile_leads (hi : i < T.plan.length) :
    T.Leads (fun op => Current i op ∧ Writing op) (copyOpenFile B i) (fun _ => CopyReady) := by
  refine .readAny fun op => ?_
  cases entryCompleted op with
  | none => exact .fail trivial
  | some completed =>
    refine .test ?_
    refine .bind ((stored_transfer hB).prepareSparseExtent (writing_transfer i) i completed).anyError ?_
    exact fun completed' => .ite (fun _ => finishFile_leads hB hi) fun _ => transferChunk_leads hB hi _

theorem startEntry_leads (hi : i < T.plan.length) :
    T.Leads (fun op => Current i op ∧ NoFile op) (startEntry B i) (fun _ => CopyReady) := by
  have hent := stored_entry (T := T) offEntries_noFile hi
  have hclosed : ∀ op, NoFile op → NoFile op ∨ Writing op := fun _ h => Or.inl h
  refine .seq ((stored_calls hB).conflict hent).anyError (.readAny fun op => .ite (fun _ => ?_) fun _ => ?_)
  · exact Guides.pure.mono fun _ op' h => h.1.ready (Or.inl h.2)
  cases (op.entry i).kind with
  | directory => exact finishEntry_leads hi hclosed ((stored_calls hB).createDirectory hent)
  | symlink => exact finishEntry_leads hi hclosed ((stored_calls hB).createSymlink hent)
  | hardlink => exact finishEntry_leads hi hclosed ((stored_calls hB).createHardlink hent)
  | file => exact .bind (openCopy_leads hB i) fun _ => copyOpenFile_leads hB hi

omit hB in
/-- A skipped entry has created nothing. -/
theorem skipEntry_leads (hi : i < T.plan.length) :
    T.Leads (fun op => Current i op ∧ (NoFile op ∨ Writing op)) (skipEntry i : Exec Result (State W) Result)
      (fun _ => CopyReady) := by
  have hbytes : ∀ sizeBytes, T.Leads (fun op => Current i op ∧ (NoFile op ∨ Writing op))
      (skipBytes sizeBytes : Exec Result (State W) Unit)
      (fun _ op => Current i op ∧ (NoFile op ∨ Writing op)) := by
    intro sizeBytes
    refine .readAny fun op => .test (.update (turns_fields (fun op' hop' => ?_) fun _ h => h))
    exact { hop' with }
  refine .readAny fun op => .seq (.when fun _ => hbytes _) (.seq (Q := CopyReady) (.update ?_) .pure)
  exact turns fun op' hop' ⟨hcur, htemp⟩ =>
    ⟨hop'.nextEntry (by rw [hcur.1.1]; exact hi), hcur.1.ready_next htemp⟩

end

/-! ## §5. Undoing a replacement. -/

/-- An undo is under way. -/
def UndoFlag (op : Operation) : Prop := op.replaceUndoActive = true

section
variable {W α ε : Type} {B : Backend W} {observe : W → α} {T : Watch W α}
  (hB : Traced B observe T.trail) {R R' : Operation → Prop}

theorem previousEntry_leads :
    T.Leads UndoFlag (update previousEntry : Exec ε (State W) Unit) (fun _ => UndoFlag) := by
  refine .update (turns fun op hop h => ?_)
  have hidx : op.entryIndex - 1 ≤ T.plan.length := Nat.le_trans (Nat.sub_le _ _) hop.index
  exact ⟨{ hop with index := hidx }, h⟩

/-- An undone entry has created nothing. -/
theorem forgetCreated_leads (i : Nat) :
    T.Leads UndoFlag (update (forgetCreated i) : Exec ε (State W) Unit) (fun _ => UndoFlag) := by
  refine .update (turns fun op hop h => ⟨hop.setEntry i fun planned he => ?_, h⟩)
  exact { he with identity := StorableEntry.ofUncreated rfl }

include hB

theorem undoExpect_leads (path : Path) (id : Identity) : T.Leads R (undoExpect B path id) (fun _ => R) := by
  exact ((stored_calls hB).expectIdentity path id).orFail fun _ _ => trivial

theorem undoOccupied_leads (i : Nat) {mark : Operation → Operation} (hmark : Turns T.Stored R mark R') :
    T.Leads R (undoOccupied B i mark) (fun _ => R') := by
  refine .readAny fun op => .seq (undoExpect_leads hB _ _) (.seq (.update hmark) ?_)
  refine .seq (stored_calls hB).checkpointKept ?_
  refine .readAny fun op' => .bind (stored_removal hB _ _ _) fun _ => .test ?_
  exact .seq ((stored_calls hB).syncParentOnce _).anyError (stored_calls hB).checkpointKept

theorem undoCreated_leads (i : Nat) (destinationState : Int) :
    T.Leads UndoFlag (undoCreated B i destinationState) (fun _ => UndoFlag) := by
  have hsame : Turns T.Stored UndoFlag id UndoFlag := fun s hs h => ⟨hs, h⟩
  refine .seq (.when fun _ => undoOccupied_leads hB i hsame) (.seq (forgetCreated_leads i) ?_)
  exact .seq (stored_calls hB).checkpointKept (.seq previousEntry_leads .pure)

omit hB in
/-- The marks of an undo keep the backup. -/
theorem turns_undoMark (i : Nat) {state : ReplacementState} (hst : state ≠ .none) :
    Turns T.Stored (fun op => UndoFlag op ∧ HasBackup i op) (setReplacement i state)
      (fun op => UndoFlag op ∧ HasBackup i op) :=
  turns fun _ hop ⟨hundoing, hbackup⟩ =>
    ⟨hop.setReplacement i hbackup hst, hundoing, hbackup.setReplacement hst⟩

theorem undoDisplacing_leads (i : Nat) (destinationState : Int) :
    T.Leads (fun op => UndoFlag op ∧ HasBackup i op) (undoDisplacing B i destinationState)
      (fun _ op => UndoFlag op ∧ HasBackup i op) := by
  refine .seq (.when fun _ => undoOccupied_leads hB i (turns_undoMark i (by decide))) ?_
  exact .seq (.update (turns_undoMark i (by decide))) (stored_calls hB).checkpointKept

theorem undoRename_leads (entry : Entry) (backupState destinationState : Int) :
    T.Leads R (undoRename B entry backupState destinationState) (fun _ => R) := by
  refine .ite (fun _ => .seq (undoExpect_leads hB _ _) ?_) fun _ => .test (undoExpect_leads hB _ _)
  refine .seq (stored_calls hB).checkpointKept ?_
  exact .bind ((stored_calls hB).renameExpected _ _ _) fun _ => .require trivial

/-- A restored entry drops its backup. -/
theorem undoRestore_leads (i : Nat) : T.Leads UndoFlag (undoRestore B i) (fun _ => UndoFlag) := by
  have hclear : Turns T.Stored UndoFlag (clearReplacement i) UndoFlag :=
    turns fun _ hop h => ⟨hop.clearReplacement i, h⟩
  refine .readAny fun op => .bind ((stored_calls hB).pathStateKept _) fun backupState => ?_
  refine .bind ((stored_calls hB).pathStateKept _) fun destinationState => .test ?_
  refine .seq (undoRename_leads hB _ _ _) (.seq ((stored_calls hB).syncParentOnce _).anyError ?_)
  refine .seq (.update hclear) (.seq (forgetCreated_leads i) ?_)
  exact .seq (stored_calls hB).checkpointKept (.seq previousEntry_leads .pure)

theorem undoEntry_leads {i : Nat} {destinationState : Int} {op : Operation} (hundoing : UndoFlag op) :
    T.Leads (· = op) (if (op.entry i).replacementState = .none then undoCreated B i destinationState else do
        Exec.require ((op.entry i).replacementState = .backupHeld ∨
          (op.entry i).replacementState = .undoRemoveInProgress ∨
          (op.entry i).replacementState = .undoRestoreInProgress) .conflict
        Exec.when ((op.entry i).replacementState ≠ .undoRestoreInProgress)
          (undoDisplacing B i destinationState)
        undoRestore B i) (fun _ => UndoFlag) := by
  refine .ite (fun _ => .known hundoing (undoCreated_leads hB i destinationState)) fun hbackup => ?_
  refine .known (R := fun op => UndoFlag op ∧ HasBackup i op) ⟨hundoing, hbackup⟩ (.test ?_)
  refine .seq (.when fun _ => undoDisplacing_leads hB i destinationState) ?_
  exact (undoRestore_leads hB i).weaken fun _ h => h.1

end
end RinRuntime.FileOperation

/-
FileOperation.Checkpoints — the checkpoints of a run, and what a restore makes of them.

Every command leads from a record that can be stored to one that can be stored (`step_between`), so every
checkpoint of every run is `Storable`. It comes back from `recoverySave` and `recoveryRestore` as it was
exactly when no entry has another destination than the plan gave it and every identity it holds is one a
record may hold.
-/
import RinRuntime.FileOperation.StorableForward
import RinRuntime.FileOperation.Start
import RinRuntime.FileOperation.Disk

namespace RinRuntime.FileOperation
open Lib Exec Watch List

/-! ## §1. Steps. -/
section
variable {W α : Type} {B : Backend W} {observe : W → α} {T : Watch W α}
  (hB : Traced B observe T.trail) {R : Operation → Prop}
include hB

/-- The operation has ended in a record that was fit to be stored up to its last flag. -/
def Watch.Rested (T : Watch W α) (s : State W) : Prop :=
  T.Good (fun _ => True) { s with op := { s.op with active := true } }

/-- **Between two calls.** -/
structure Watch.Between (T : Watch W α) (s : State W) : Prop where
  rested : T.Rested s
  forward : s.op.active = true → s.op.rollbackActive = true ∨ UndoFlag s.op ∨ CopyReady s.op

variable {s : State W}

omit hB

theorem Watch.Good.rested (h : T.Good R s) : T.Rested s := by
  have hop : ({ s.op with active := true } : Operation) = s.op := by
    have hact := h.record.active
    cases hs : s.op with
    | mk => rw [hs] at hact; cases hact; rfl
  unfold Watch.Rested
  rw [hop]
  exact h.trivial

/-- A record that is active is fit to be stored. -/
theorem Watch.Rested.good (h : T.Rested s) (hact : s.op.active = true) : T.Good (fun _ => True) s := by
  have hop : ({ s.op with active := true } : Operation) = s.op := by
    cases hs : s.op with
    | mk => rw [hs] at hact; cases hact; rfl
  unfold Watch.Rested at h
  rw [hop] at h
  exact h

/-- Changing the flags of a record leaves it fit to be stored. -/
theorem Watch.Rested.withFlags (h : T.Rested s) {op : Operation}
    (hoperation : op.operation = s.op.operation) (hents : op.entries = s.op.entries)
    (hidx : op.entryIndex = s.op.entryIndex) (hcre : op.temporaryCreated = s.op.temporaryCreated)
    (hpath : op.temporaryPath = s.op.temporaryPath)
    (hid : op.temporaryIdentity = s.op.temporaryIdentity)
    (hcleanup : op.temporaryCleanupState = s.op.temporaryCleanupState) : T.Rested { s with op := op } := by
  have hle : op.entryIndex ≤ T.plan.length := by
    rw [hidx]
    exact h.record.index
  have hstore : Storable T.kind T.plan { op with active := true } :=
    h.record.of_fields hoperation rfl hents hle hcre hpath hid hcleanup
  exact ⟨hstore, trivial, h.marks⟩

include hB

theorem settleRollback_between {finished : Operation → Result}
    (h : T.Good (fun op => op.rollbackActive = true) s) : T.Between (settleRollback B finished s).2 := by
  have hcore : OfCore fun op => op.rollbackActive = true :=
    fun op op' heq hroll => (congrArg Core.rollbackActive heq).trans hroll
  have hstep := (rollbackStep_leads hB hcore).good h
  unfold settleRollback
  rcases hrun : rollbackStep B s with ⟨_ | more, s'⟩
  · have hs' := wp_error hstep hrun
    exact ⟨hs'.rested.withFlags rfl rfl rfl rfl rfl rfl rfl, fun hact => by cases hact⟩
  have hs' := wp_ok hstep hrun
  cases more with
  | true => exact ⟨hs'.rested, fun _ => .inl hs'.holds⟩
  | false =>
    exact ⟨hs'.rested.withFlags rfl rfl rfl rfl rfl rfl rfl, fun hact => by cases hact⟩

theorem finishFailure_between {r : Result} (hkind : T.kind ≠ .delete)
    (h : T.Good (fun _ => True) s) : T.Between (finishFailure B r s).2 := by
  have hbegin : T.Good (fun op => op.rollbackActive = true) { s with op := beginRollback r s.op } := by
    refine ⟨?_, rfl, h.marks⟩
    exact { h.record with active := rfl }
  have hsave := Leads.good ((stored_calls hB).checkpointKept (e := ())) hbegin
  unfold finishFailure
  rw [if_neg (by rw [h.record.operation]; exact hkind)]
  rcases hrun : checkpoint B () { s with op := beginRollback r s.op } with ⟨_ | _, s'⟩
  · have hs' := wp_error hsave hrun
    exact ⟨hs'.rested.withFlags rfl rfl rfl rfl rfl rfl rfl, fun hact => by cases hact⟩
  · have hs' := wp_ok hsave hrun
    exact settleRollback_between hB hs'

/-- What a forward step leads to: it goes on, it completes the operation, or it fails. -/
def Watch.Proceeds (T : Watch W α) (forward : Exec Result (State W) Result) (s : State W) : Prop :=
  wp forward (fun _ s' => T.Between s') (fun _ s' => T.Good (fun _ => True) s') s

omit hB in
theorem Watch.Leads.proceeds {forward : Exec Result (State W) Result}
    (h : T.Leads R forward (fun _ => CopyReady)) (hs : T.Good R s) : T.Proceeds forward s :=
  wp_mono (h.good hs) (fun _ _ h' => ⟨h'.rested, fun _ => .inr (.inr h'.holds)⟩) (fun _ _ h' => h')

omit hB in
/-- The last call of an operation only takes back its `active` flag. -/
theorem complete_proceeds {f : Operation → Operation}
    (hact : (f s.op).active = false) (hf : T.Rested { s with op := f s.op }) :
    T.Proceeds (do update f; pure .completed) s := by
  unfold Watch.Proceeds
  rw [wp_bind, wp_update, wp_pure]
  refine ⟨hf, fun htrue => ?_⟩
  rw [hact] at htrue
  cases htrue

/-- **A forward step of a copy.** -/
theorem forwardCopy_proceeds (h : T.Good CopyReady s) : T.Proceeds (forwardCopy B) s := by
  have hcnt := h.record.count
  unfold forwardCopy Watch.Proceeds
  rw [wp_bind, wp_getOp, wp_ite]
  constructor
  · intro _
    rw [wp_bind]
    apply wp_mono ((finishDirectories_leads hB _).good h)
    · intro _ s' hs'
      exact complete_proceeds rfl (hs'.rested.withFlags rfl rfl rfl rfl rfl rfl rfl)
    · intro _ _ hs'
      exact hs'
  intro hidx
  have hi : s.op.entryIndex < T.plan.length := by omega
  rw [wp_ite]
  constructor
  · intro _
    have hcur : T.Good (fun op => Current s.op.entryIndex op ∧ (NoFile op ∨ Writing op)) s :=
      ⟨h.record, ⟨h.holds.current, h.holds.2⟩, h.marks⟩
    exact (skipEntry_leads hi).proceeds hcur
  intro _
  rw [wp_bind, wp_require]
  constructor
  · intro _
    rw [wp_ite]
    constructor
    · intro hopen
      rcases h.holds.2 with hclosed | hwriting
      · rw [hclosed.2] at hopen
        cases hopen
      · exact (copyOpenFile_leads hB hi).proceeds ⟨h.record, ⟨h.holds.current, hwriting⟩, h.marks⟩
    intro hopen
    rcases h.holds.2 with hclosed | hwriting
    · exact (startEntry_leads hB hi).proceeds ⟨h.record, ⟨h.holds.current, hclosed⟩, h.marks⟩
    · exact absurd hwriting.2 hopen
  · intro _
    exact h.trivial

/-- **A forward step of a move.** -/
theorem forwardNamespace_proceeds (h : T.Good CopyReady s) : T.Proceeds (forwardNamespace B) s := by
  have hcnt := h.record.count
  have hfree : OffEntries fun op => NoFile op ∨ Writing op := fun _ _ _ h => h
  unfold forwardNamespace Watch.Proceeds
  rw [wp_bind, wp_getOp, wp_ite]
  constructor
  · intro _
    exact complete_proceeds rfl (h.rested.withFlags rfl rfl rfl rfl rfl rfl rfl)
  intro hidx
  have hi : s.op.entryIndex < T.plan.length := by omega
  have hcur : T.Good (fun op => Current s.op.entryIndex op ∧ (NoFile op ∨ Writing op)) s :=
    ⟨h.record, ⟨h.holds.current, h.holds.2⟩, h.marks⟩
  have hstep : T.Leads (fun op => Current s.op.entryIndex op ∧ (NoFile op ∨ Writing op)) (do
      conflict B s.op.entryIndex
      let op ← getOp
      if skipped op s.op.entryIndex = true then finishEntry (pure ())
      else finishEntry do
        renameEntry B s.op.entryIndex
        settleRename B s.op.entryIndex) (fun _ => CopyReady) := by
    have hent := stored_entry (T := T) hfree hi
    refine .seq ((stored_calls hB).conflict hent).anyError (.readAny fun op => .ite (fun _ => ?_) fun _ => ?_)
    · exact finishEntry_leads (F := fun _ => True) hi (fun _ h => h) (Guides.pure.mono fun _ _ h' => ⟨h'.1.1, h'.2⟩)
    · refine finishEntry_leads hi (fun _ h => h) (.seq ((stored_calls hB).renameEntry hent) ?_)
      exact ((stored_calls hB).settleRename hent).mono fun _ _ h' => ⟨h'.1.1, h'.2⟩
  rw [wp_bind, wp_require]
  exact ⟨fun _ => hstep.proceeds hcur, fun _ => h.trivial⟩

/-- **A step of an undo.** -/
theorem pumpReplaceUndo_proceeds (h : T.Good UndoFlag s) : T.Proceeds (pumpReplaceUndo B) s := by
  unfold pumpReplaceUndo Watch.Proceeds
  rw [wp_bind, wp_getOp, wp_ite]
  constructor
  · intro _
    exact complete_proceeds rfl (h.rested.withFlags rfl rfl rfl rfl rfl rfl rfl)
  intro _
  have hknown : T.Good (· = s.op) s := ⟨h.record, rfl, h.marks⟩
  have hundo : ∀ {x : Exec Result (State W) Result}, T.Leads (· = s.op) x (fun _ => UndoFlag) →
      wp x (fun _ => T.Between) (fun _ => T.Good (fun _ => True)) s := by
    intro x hx
    exact wp_mono (hx.good hknown) (fun _ _ h' => ⟨h'.rested, fun _ => .inr (.inl h'.holds)⟩)
      (fun _ _ h' => h')
  rw [wp_ite]
  constructor
  · intro _
    apply hundo
    exact .known h.holds (.seq previousEntry_leads .pure)
  intro _
  apply hundo
  refine .bind ((stored_calls hB).pathStateKept _) fun destinationState => .test ?_
  exact undoEntry_leads hB h.holds

theorem runForward_between {forward : Exec Result (State W) Result}
    (hkind : T.kind ≠ .delete) (h : T.Proceeds forward s) : T.Between (runForward B forward s).2 := by
  unfold runForward
  rcases hrun : forward s with ⟨r | r, s'⟩
  · have hs' := wp_error h hrun
    exact finishFailure_between hB hkind hs'
  · have hs' := wp_ok h hrun
    exact hs'

theorem pump_between (hkind : T.kind ≠ .delete) (h : T.Between s) : T.Between (pump B s).2 := by
  unfold pump
  split
  · exact h
  next hact =>
  have hact : s.op.active = true := by simpa using hact
  have hgood := h.rested.good hact
  split
  · next hroll => exact settleRollback_between hB ⟨hgood.record, hroll, hgood.marks⟩
  next hfwd =>
  split
  · next hundoing =>
    have hstep := pumpReplaceUndo_proceeds hB (T := T) ⟨hgood.record, hundoing, hgood.marks⟩
    rcases hrun : pumpReplaceUndo B s with ⟨r | r, s'⟩
    · have hs' := wp_error hstep hrun
      exact ⟨hs'.rested.withFlags rfl rfl rfl rfl rfl rfl rfl, fun htrue => by cases htrue⟩
    · have hs' := wp_ok hstep hrun
      exact hs'
  next hundoing =>
  have hrdy : T.Good CopyReady s := by
    refine ⟨hgood.record, ?_, hgood.marks⟩
    rcases h.forward hact with hroll | hundo | hrdy
    · exact absurd hroll hfwd
    · exact absurd hundo hundoing
    · exact hrdy
  have hoperation := hgood.record.operation
  split
  · exact runForward_between hB hkind (forwardCopy_proceeds hB hrdy)
  · next hdelete =>
    rw [hdelete] at hoperation
    exact absurd hoperation.symm hkind
  · exact runForward_between hB hkind (forwardNamespace_proceeds hB hrdy)

/-- **Every command** of an operation that is no deletion leads from `Between` to `Between`. -/
theorem step_between (hkind : T.kind ≠ .delete) (command : Command)
    (h : T.Between s) : T.Between (step B command s).2 := by
  have hcases := step_cases B command s
  generalize step B command s = p at hcases ⊢
  cases hcases with
  | refused _ => exact h
  | pumped _ => exact pump_between hB hkind h
  | cancelled _ => exact ⟨h.rested.withFlags rfl rfl rfl rfl rfl rfl rfl, h.forward⟩
  | retried _ =>
    apply settleRollback_between hB
    exact ⟨{ h.rested.record with active := rfl }, rfl, h.rested.marks⟩
  | skipped i skip =>
    refine ⟨⟨?_, trivial, h.rested.marks⟩, fun hact => ?_⟩
    · have hskip := h.rested.record.setEntry i (f := fun e => { e with skip := skip })
        fun planned he => { he with }
      exact hskip
    rcases h.forward hact with hroll | hundo | hrdy
    · exact .inl hroll
    · exact .inr (.inl hundo)
    · exact .inr (.inr ⟨fun k hk => (hrdy.1 k hk).setEntry fun _ he => he, hrdy.2⟩)

end

/-! ## §2. Deletions take no checkpoints. -/

/-- A deletion that has taken no checkpoint. -/
structure Unmarked {W α : Type} (trail : W → List (Mark α)) (s : State W) : Prop where
  operation : s.op.operation = .delete
  rollback : s.op.rollbackActive = false
  undo : s.op.replaceUndoActive = false
  recovery : s.op.recoveryRequired = false
  marks : trail s.world = []

section
variable {W α : Type} {B : Backend W} {observe : W → α} {trail : W → List (Mark α)}
  (hB : Traced B observe trail)
include hB

theorem forwardDelete_unmarked : Keeps (Unmarked trail) (fun _ => True) (forwardDelete B) := by
  have hsync : ∀ path, Guides (Unmarked trail) (fun _ => True) AnyRecord (syncParentOnce B path)
      fun _ => AnyRecord := by
    intro path
    unfold syncParentOnce
    cases parent path with
    | none => exact .fail trivial
    | some directory =>
      refine .bind (.call fun s h => ?_) fun _ => .require trivial
      exact { h with marks := (hB.silent (.syncDirectory directory) s.world).trans h.marks }
  have hturn : ∀ {f : Operation → Operation},
      (∀ s : State W, Unmarked trail s → Unmarked trail { s with op := f s.op }) →
      Turns (Unmarked trail) AnyRecord f AnyRecord := fun hf s h _ => ⟨hf s h, trivial⟩
  refine Guides.keeps (.readAny fun op => .ite (fun _ => ?_) fun _ => .ite (fun _ => ?_) fun _ => ?_)
  · exact .seq (.update (hturn fun _ h => { h with })) .pure
  · exact .seq (.update (hturn fun _ h => { h with })) (.fail trivial)
  have hremove : Silent trail (if (op.entry op.entryIndex).kind = .directory then
      B.removeDirectory (op.entry op.entryIndex).sourcePath
    else B.removeFile (op.entry op.entryIndex).sourcePath) := by
    split
    · exact hB.silent (.removeDirectory _)
    · exact hB.silent (.removeFile _)
  refine .bind (Q := fun _ => AnyRecord) (fun s h _ => ⟨?_, trivial⟩) fun result => .test ?_
  · exact { h with marks := (hremove s.world).trans h.marks }
  refine .seq (.update (hturn fun _ h => { h with })) ?_
  refine .seq (hsync _) (.seq (.update (hturn fun _ h => ?_)) .pure)
  exact { h with }

theorem step_unmarked {s : State W} (command : Command) (h : Unmarked trail s) :
    Unmarked trail (step B command s).2 := by
  have hcases := step_cases B command s
  generalize step B command s = p at hcases ⊢
  cases hcases with
  | refused _ => exact h
  | cancelled _ | skipped _ _ => exact { h with }
  | retried hretry => cases h.recovery.symm.trans hretry.2.1
  | pumped hact =>
    have hact : s.op.active = true := hact
    unfold pump
    rw [if_neg (by simp [hact]), if_neg (by simp [h.rollback]), if_neg (by simp [h.undo]), h.operation]
    have hstep := forwardDelete_unmarked hB s h
    rcases hrun : forwardDelete B s with ⟨r | r, s'⟩
    · have hs' := (wp_error hstep hrun).2
      exact { hs' with }
    · have hs' := wp_ok hstep hrun
      exact hs'

end

/-! ## §3. The first record. -/

/-- `op` is the record of an operation on `plan` that has just been accepted. -/
inductive Begins {W : Type} (B : Backend W) (plan : List Entry) (op : Operation) : Prop
  | start {kind : OperationKind} {policy : ConflictPolicy} {memory : Bool}
      (h : start B operationInit kind policy plan memory = (.inProgress, op))
  | undo {recovery : RecoveryRecord} {memory : Bool}
      (h : startReplaceUndo B operationInit plan recovery memory = (.inProgress, op))

section
variable {W : Type} {B : Backend W} {kind : OperationKind} {policy : ConflictPolicy}
  {plan : List Entry} {memory : Bool} {op : Operation}

/-- What holds of every entry by index holds of every entry of a plan. -/
theorem forall_plan {P : Entry → Prop} (h : ∀ k < plan.length, P (plan.getD k Entry.zero)) :
    ∀ entry ∈ plan, P entry := by
  intro entry hent
  obtain ⟨k, hk, rfl⟩ := mem_iff_getElem.mp hent
  have hget := h k hk
  rw [getD_eq_getElem _ _ hk] at hget
  exact hget

theorem start_restorable (h : start B operationInit kind policy plan memory = (.inProgress, op)) :
    Restorable B kind plan := by
  unfold start at h
  rw [if_neg (by decide), if_neg (by decide)] at h
  split at h
  · cases h
  next hplan =>
  simp only [not_or, Nat.not_lt, Bool.not_eq_false] at hplan
  split at h
  · cases h
  split at h
  · next result hfold =>
    obtain ⟨t, k, herror⟩ := foldlM_error hfold
    exact absurd (Prod.mk.inj h).1 (startEntryCheck_error herror)
  next total hfold =>
  refine ⟨hplan.1, hplan.2.1, forall_plan ?_, hplan.2.2⟩
  refine foldlM_range_inv (fun n _ => ∀ k < n, entryValid (plan.getD k Entry.zero) kind = true)
    (fun k hk => absurd hk (Nat.not_lt_zero k)) (fun k t t' _ hI hk j hj => ?_) hfold
  rcases Nat.lt_succ_iff_lt_or_eq.mp hj with hlt | rfl
  · exact hI j hlt
  unfold startEntryCheck at hk
  dsimp only at hk
  split at hk
  · cases hk
  · next hval => simpa using hval

/-- A valid entry without a replacement has no backup. -/
theorem entryValid_unreplaced {entry : Entry} (h : entryValid entry kind = true)
    (hnone : entry.replacementState = .none) :
    entry.backupPath = [] ∧ entry.backupIdentity = Identity.zero := by
  unfold entryValid at h
  rw [if_pos hnone] at h
  simp only [Bool.and_eq_true, beq_iff_eq, identityEmpty] at h
  exact h.1.1.2

theorem Started.storable (h : Started kind policy plan op) (hplan : Restorable B kind plan)
    (hkind : kind ≠ .delete) : Storable kind plan op := by
  obtain ⟨total, rfl⟩ := h.record
  refine ⟨rfl, rfl, length_map .., Nat.zero_le _, fun k hk => ?_, ?_, fun _ => rfl, rfl⟩
  · rw [entry_startRecord]
    have hchecked := h.checked k hk
    have hval : entryValid (plan.getD k Entry.zero) kind = true := by
      rw [getD_eq_getElem _ _ hk]
      exact hplan.valid _ (getElem_mem hk)
    have hbackup := entryValid_unreplaced hval hchecked.replacement
    refine ⟨rfl, rfl, rfl, rfl, hchecked.destination hkind, fun _ => hbackup, ?_, ?_⟩
    · intro hne
      exact absurd hchecked.replacement hne
    intro hcre
    have hcre : (plan.getD k Entry.zero).created = true := hcre
    rw [hchecked.created] at hcre
    cases hcre
  · intro hcre
    cases hcre

/-- A planned entry with a valid state can be stored. -/
theorem restoreEntry_storable {planned : Entry} {entry : RecoveryEntry}
    (hplanned : entryValid planned kind = true) (hkind : kind ≠ .delete)
    (h : recoveryEntryValid entry = true) : StorableEntry planned (restoreEntry planned entry) := by
  have hdest : pathValid planned.destinationPath = true := by
    unfold entryValid at hplanned
    simp only [Bool.and_eq_true, Bool.or_eq_true, beq_iff_eq] at hplanned
    rcases hplanned.1.1.1.2 with hdelete | hdest
    · exact absurd hdelete hkind
    · exact hdest
  unfold recoveryEntryValid at h
  simp only [Bool.and_eq_true] at h
  obtain ⟨⟨hbackup, hmade⟩, -⟩ := h
  refine ⟨rfl, rfl, rfl, rfl, hdest, ?_, ?_, ?_⟩
  · intro hnone
    have hnone : entry.replacementState = .none := hnone
    rw [if_pos hnone] at hbackup
    show entry.backupPath = [] ∧ entry.backupIdentity = Identity.zero
    simpa [identityEmpty] using hbackup
  · intro hne
    have hne : entry.replacementState ≠ .none := hne
    rw [if_neg hne] at hbackup
    show pathValid entry.backupPath = true ∧ identityValid entry.backupIdentity = true
    simpa using hbackup
  intro hcre
  have hcre : entry.created = true := hcre
  rw [hcre] at hmade
  show identityValid entry.objectIdentity = true
  simpa using hmade

/-- What `startReplaceUndo` has checked when it accepts a record. -/
theorem startReplaceUndo_accepts {recovery : RecoveryRecord}
    (h : startReplaceUndo B operationInit plan recovery memory = (.inProgress, op)) :
    Restorable B .copy plan ∧ Storable .copy plan op ∧ UndoFlag op := by
  obtain ⟨hcopy, hrest, hop⟩ := startReplaceUndo_restores h
  obtain ⟨-, hval, hplan, hrecords⟩ := recoveryRestoreInternal_accepts hrest
  unfold recoveryHeaderValid at hval
  simp only [Bool.and_eq_true, Bool.not_eq_true', beq_iff_eq, decide_eq_true_eq] at hval
  obtain ⟨⟨⟨⟨⟨⟨⟨hne, hlen⟩, hlimit⟩, -⟩, -⟩, hsync⟩, hbackend⟩, htemp⟩ := hval
  rw [hcopy] at hplan hbackend
  refine ⟨⟨?_, hlimit, hplan, hbackend⟩, ?_, ?_⟩
  · intro hnil
    rw [hnil] at hne
    cases hne
  · rw [hop]
    refine ⟨hcopy, rfl, ?_, Nat.le_refl _, fun k hk => ?_, ?_, ?_, hsync⟩
    · show (zipWith restoreEntry plan recovery.entries).length = plan.length
      rw [length_zipWith, ← hlen, Nat.min_self]
    · have hk' : k < recovery.entries.length := hlen ▸ hk
      show StorableEntry (plan.getD k Entry.zero) ((recoveredOperation plan recovery).entry k)
      rw [entry_recovered hk hk', getD_eq_getElem _ _ hk]
      exact restoreEntry_storable (hplan _ (getElem_mem hk)) (by decide)
        (hrecords _ (get_mem ..))
    · intro hcre
      have hcre : recovery.temporaryCreated = true := hcre
      rw [if_pos hcre, Bool.and_eq_true] at htemp
      exact htemp
    intro hcre
    have hcre : recovery.temporaryCreated = false := hcre
    rw [if_neg (by simp [hcre])] at htemp
    simp only [Bool.and_eq_true, beq_iff_eq] at htemp
    exact htemp.1.2
  · rw [hop]
    rfl

end

/-! ## §4. Runs. -/
section
variable {W α : Type} {B : Backend W} {observe : W → α} {trail : W → List (Mark α)}
  {plan : List Entry} {op : Operation} {w : W} {log : List (Event W)} {s : State W}

/-- Whatever every command keeps holds in every reachable state. -/
theorem Reaches.invariant {P : State W → Prop} (hs : Reaches B (fun _ _ => True) ⟨op, w, log⟩ s)
    (hfst : P ⟨op, w, log⟩) (hstep : ∀ command s, P s → P (FileOperation.step B command s).2) : P s := by
  induction hs with
  | refl => exact hfst
  | step command _ _ ih => exact hstep command _ ih

/-- **Every checkpoint of every run can be stored**, up to the identities of its entries. -/
theorem mark_storable (hB : Traced B observe trail) (hbegin : Begins B plan op) (hw : trail w = [])
    (hs : Reaches B (fun _ _ => True) ⟨op, w, log⟩ s) :
    ∃ kind, Restorable B kind plan ∧ ∀ mark ∈ trail s.world, Storable kind plan mark.op := by
  have hrun : ∀ kind, kind ≠ .delete → Watch.Between ⟨kind, plan, trail⟩ ⟨op, w, log⟩ →
      ∀ mark ∈ trail s.world, Storable kind plan mark.op := by
    intro kind hkind hfst
    have hbtw : Watch.Between ⟨kind, plan, trail⟩ s :=
      hs.invariant hfst fun command s' h =>
        step_between (T := ⟨kind, plan, trail⟩) hB hkind command h
    exact hbtw.rested.marks
  have hempty : ∀ kind, ∀ mark ∈ trail w, Storable kind plan mark.op := by
    intro kind mark hmark
    rw [hw] at hmark
    cases hmark
  cases hbegin with
  | undo h =>
    obtain ⟨hplan, hstore, hundo⟩ := startReplaceUndo_accepts h
    refine ⟨.copy, hplan, hrun .copy (by decide) ⟨?_, fun _ => .inr (.inl hundo)⟩⟩
    exact Good.rested (R := fun _ => True) ⟨hstore, trivial, hempty .copy⟩
  | @start kind policy memory h =>
    have hplan := start_restorable h
    have hstarted := start_accepts h
    obtain ⟨total, hop⟩ := hstarted.record
    refine ⟨kind, hplan, ?_⟩
    by_cases hkind : kind = .delete
    · -- a deletion takes no checkpoint at all
      have hfst : Unmarked trail ⟨op, w, log⟩ := by
        refine ⟨?_, ?_, ?_, ?_, hw⟩ <;> rw [hop]
        · exact hkind
        · rfl
        · rfl
        · rfl
      have hunmarked : Unmarked trail s :=
        hs.invariant hfst fun command s' h' => step_unmarked hB command h'
      rw [hunmarked.marks]
      intro mark hmark
      cases hmark
    have hstore := hstarted.storable hplan hkind
    apply hrun kind hkind
    refine ⟨Good.rested (R := fun _ => True) ⟨hstore, trivial, hempty kind⟩, fun _ => ?_⟩
    refine .inr (.inr ⟨fun k _ => (hstarted.fresh k).created, .inl ?_⟩)
    rw [hop]
    exact ⟨rfl, rfl⟩

/-- Two records of one length with the same entries at every index. -/
theorem entries_eq_iff {op op' : Operation} (hcnt : op.entryCount = op'.entryCount) :
    op.entries = op'.entries ↔ ∀ k < op'.entryCount, op.entry k = op'.entry k := by
  constructor
  · intro heq k _
    unfold Operation.entry
    rw [heq]
  intro h
  apply ext_getElem hcnt
  intro k hk hk'
  have hent := h k hk'
  rw [entry_getElem hk, entry_getElem hk'] at hent
  exact hent

/-- **A checkpoint comes back from the recovery record as it was** exactly when every entry still has
the destination of the plan and an identity the record may hold. -/
theorem checkpoint_restores (hB : Traced B observe trail) (hbegin : Begins B plan op)
    (hw : trail w = []) (hs : Reaches B (fun _ _ => True) ⟨op, w, log⟩ s) {mark : Mark α}
    (hmark : mark ∈ trail s.world) : (∃ recovery op', recoverySave mark.op = some recovery ∧
      recoveryRestore B operationInit plan recovery true = .ok op' ∧ op'.entries = mark.op.entries) ↔
    ∀ k < plan.length, (mark.op.entry k).destinationPath = (plan.getD k Entry.zero).destinationPath ∧
        IdentityStorable (mark.op.entry k) := by
  obtain ⟨kind, hplan, hstore⟩ := mark_storable hB hbegin hw hs
  have hmark := hstore mark hmark
  have hsaved := recoverySave_eq_some_iff hmark hplan
  have hents : (restored plan mark.op).entries = mark.op.entries ↔ ∀ k < plan.length,
      (mark.op.entry k).destinationPath = (plan.getD k Entry.zero).destinationPath := by
    have hcnt : (restored plan mark.op).entryCount = mark.op.entryCount :=
      (entryCount_restored hmark.count).trans hmark.count.symm
    rw [entries_eq_iff hcnt, hmark.count]
    exact restored_entries_iff hmark
  constructor
  · rintro ⟨recovery, op', hsave, hrest, heq⟩
    obtain rfl := recoverySave_some hsave
    have hids := hsaved.mp hsave
    rw [recoveryRestore_saved hmark hplan hids] at hrest
    obtain rfl := Except.ok.inj hrest
    intro k hk
    exact ⟨hents.mp heq k hk, hids k hk⟩
  intro h
  have hids : ∀ k < plan.length, IdentityStorable (mark.op.entry k) :=
    fun k hk => (h k hk).2
  exact ⟨savedRecord mark.op, restored plan mark.op, hsaved.mpr hids,
    recoveryRestore_saved hmark hplan hids, hents.mpr fun k hk => (h k hk).1⟩

end

/-! ## §5. A renamed destination, and a planned one. -/

/-- `/a` is a file, and `/b` is taken. -/
def renameDisk : Disk :=
  Disk.of [(pathOf 0x61, plainObject 1), (pathOf 0x62, plainObject 2)] [(plainObject 1, [1, 2, 3])]

/-- Copy `/a` to `/b`. -/
def renamePlan : List Entry := [planEntry .file (pathOf 0x61) (pathOf 0x62) 3]

/-- The record of the accepted plan. -/
def renameStart (policy : ConflictPolicy) : Operation :=
  (start sureDisk operationInit .copy policy renamePlan true).2

/-- The copy, to its end. -/
def renameRun (policy : ConflictPolicy) : State Disk :=
  (runCommands sureDisk [.pump, .pump, .pump] ⟨renameStart policy, renameDisk, []⟩).2

/-- A checkpoint of the copy. -/
def renameMark (policy : ConflictPolicy) (i : Nat) : Mark View :=
  (renameRun policy).world.saved.getD i ⟨operationInit, 0, renameDisk.view⟩

/-- **A destination that the record loses.** `/b` is taken, so the `RENAME` policy sends the copy to
`/b+`. The first checkpoint is saved and accepted on the plan, but what comes back is bound for `/b`,
which belongs to somebody else. -/
theorem renamed_destination_lost :
    start sureDisk operationInit .copy .rename renamePlan true = (.inProgress, renameStart .rename) ∧
    0 < (renameRun .rename).world.saved.length ∧
    ((renameMark .rename 0).op.entry 0).destinationPath = pathOf 0x62 ++ [0x2b] ∧
    recoverySave (renameMark .rename 0).op = some (savedRecord (renameMark .rename 0).op) ∧
    recoveryRestore sureDisk operationInit renamePlan (savedRecord (renameMark .rename 0).op) true
      = .ok (restored renamePlan (renameMark .rename 0).op) ∧
    ((restored renamePlan (renameMark .rename 0).op).entry 0).destinationPath = pathOf 0x62 := by
  refine ⟨?_, ?_, ?_, ?_, ?_, ?_⟩ <;> decide +kernel

/-- Under `REPLACE`, the checkpoint with the old `/b` displaced and the new one created comes back as
it was. -/
theorem checkpoint_restores_created : ((renameMark .replace 6).op.entry 0).created = true ∧
    ((renameMark .replace 6).op.entry 0).replacementState = .backupHeld ∧
    ∃ recovery op', recoverySave (renameMark .replace 6).op = some recovery ∧
      recoveryRestore sureDisk operationInit renamePlan recovery true = .ok op' ∧
      op'.entries = (renameMark .replace 6).op.entries := by
  have hstart : start sureDisk operationInit .copy .replace renamePlan true
      = (.inProgress, renameStart .replace) := by decide +kernel
  have hreach : Reaches sureDisk (fun _ _ => True)
      ⟨renameStart .replace, renameDisk, []⟩ (renameRun .replace) :=
    reaches_runCommands _ _ .refl (allowedAlong_of_forall (fun _ _ => trivial) _ _)
  have hmark : renameMark .replace 6 ∈ (renameRun .replace).world.saved := by
    have hlen : 6 < (renameRun .replace).world.saved.length := by decide +kernel
    unfold renameMark
    rw [List.getD_eq_getElem _ _ hlen]
    exact List.getElem_mem hlen
  have hcond : ∀ k < renamePlan.length, ((renameMark .replace 6).op.entry k).destinationPath
        = (renamePlan.getD k Entry.zero).destinationPath ∧
      IdentityStorable ((renameMark .replace 6).op.entry k) := by decide +kernel
  have hrestores := checkpoint_restores sureDisk_traced (.start hstart) rfl hreach hmark
  exact ⟨by decide +kernel, by decide +kernel, hrestores.mpr hcond⟩

end RinRuntime.FileOperation

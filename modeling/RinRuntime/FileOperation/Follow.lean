/-
FileOperation.Follow — one walk through the recovery for all properties it keeps.

Several properties are kept by the recovery for reasons that its code shows line by line. `CallsKeep` says
that the callbacks keep a property, and each function of the recovery is walked through once for all of
them (`Guides`). Which changes of the record keep it differs; `RollbackChange` lists them, each with what
the code knows of the record where it makes it.
-/
import RinRuntime.FileOperation.Effects
import RinRuntime.FileOperation.RecoveryRecord

namespace RinRuntime.FileOperation
open Lib Exec

/-! ## §1. Following the record. -/
section
variable {W α β ε ε' : Type}

/-- `x` keeps `P` and leads from records of `R` to records of `R'`; it fails with errors in `F` only. -/
def Guides (P : State W → Prop) (F : ε → Prop) (R : Operation → Prop) (x : Exec ε (State W) α)
    (R' : α → Operation → Prop) : Prop :=
  ∀ s, P s → R s.op → wp x (fun a s' => P s' ∧ R' a s'.op) (fun e s' => F e ∧ P s') s

/-- A change of the record that keeps `P` and leads from `R` to `R'`. -/
def Turns (P : State W → Prop) (R : Operation → Prop) (f : Operation → Operation)
    (R' : Operation → Prop) : Prop :=
  ∀ s, P s → R s.op → P { s with op := f s.op } ∧ R' (f s.op)

/-- No record is left out. -/
abbrev AnyRecord : Operation → Prop := fun _ => True

namespace Guides

variable {P : State W → Prop} {F : ε → Prop} {R S : Operation → Prop} {R' : α → Operation → Prop}
  {x : Exec ε (State W) α} {e : ε} {c : Prop} [Decidable c]

theorem pure {a : α} : Guides P F R (Pure.pure a : Exec ε (State W) α) (fun _ => R) :=
  fun _ hs hR => ⟨hs, hR⟩

theorem fail (he : F e) : Guides P F R (Exec.fail e : Exec ε (State W) α) R' :=
  fun _ hs _ => ⟨he, hs⟩

theorem bind {x : Exec ε (State W) β} {f : β → Exec ε (State W) α} {Q : β → Operation → Prop}
    (hx : Guides P F R x Q) (hf : ∀ b, Guides P F (Q b) (f b) R') : Guides P F R (x >>= f) R' := by
  intro s hs hR
  rw [wp_bind]
  exact wp_mono (hx s hs hR) (fun b s' h => hf b s' h.1 h.2) (fun _ _ h => h)

/-- A step whose result does not matter. -/
theorem seq {x : Exec ε (State W) β} {y : Exec ε (State W) α} {Q : Operation → Prop}
    (hx : Guides P F R x fun _ => Q) (hy : Guides P F Q y R') : Guides P F R (x >>= fun _ => y) R' :=
  hx.bind fun _ => hy

theorem mono {Q : α → Operation → Prop} (h : Guides P F R x Q) (hQ : ∀ a op, Q a op → R' a op) :
    Guides P F R x R' :=
  fun s hs hR => wp_mono (h s hs hR) (fun a _ h' => ⟨h'.1, hQ a _ h'.2⟩) (fun _ _ h' => h')

/-- What is known of the record may be weakened first. -/
theorem weaken (h : Guides P F S x R') (hR : ∀ op, R op → S op) : Guides P F R x R' :=
  fun s hs hs' => h s hs (hR s.op hs')

/-- Reading the record without learning anything new. -/
theorem readAny {k : Operation → Exec ε (State W) α} (h : ∀ op, Guides P F R (k op) R') :
    Guides P F R (getOp >>= k) R' := fun s hs hR => h s.op s hs hR

/-- Reading the record: from here on it is known. -/
theorem read {k : Operation → Exec ε (State W) α}
    (h : ∀ s, P s → R s.op → Guides P F (· = s.op) (k s.op) R') : Guides P F R (getOp >>= k) R' :=
  fun s hs hR => h s hs hR s hs rfl

/-- What holds of any record equal to the one known. -/
theorem known {op : Operation} (hR : R op) (h : Guides P F R x R') : Guides P F (· = op) x R' :=
  h.weaken fun _ heq => heq ▸ hR

theorem update {f : Operation → Operation} (h : Turns P R f S) :
    Guides P F R (FileOperation.update f : Exec ε (State W) Unit) (fun _ => S) := h

theorem call {callback : W → α × W} (h : ∀ s, P s → P { s with world := (callback s.world).2 }) :
    Guides P F R (ask callback : Exec ε (State W) α) (fun _ => R) :=
  fun s hs hR => ⟨h s hs, hR⟩

/-- What was required is known afterwards. -/
theorem requireThen {k : Unit → Exec ε (State W) α} (he : F e) (hk : c → Guides P F R (k ()) R') :
    Guides P F R (Exec.require c e >>= k) R' := by
  intro s hs hR
  rw [wp_bind, wp_require]
  exact ⟨fun hc => hk hc s hs hR, fun _ => ⟨he, hs⟩⟩

/-- A test whose outcome does not matter. -/
theorem check (hx : Guides P F R x R') (he : F e) : Guides P F R (Exec.require c e >>= fun _ => x) R' :=
  requireThen he fun _ => hx

theorem test (hx : Guides P (fun _ => True) R x R') :
    Guides P (fun _ => True) R (Exec.require c e >>= fun _ => x) R' := check hx trivial

theorem require (he : F e) : Guides P F R (Exec.require c e : Exec ε (State W) Unit) (fun _ => R) := by
  intro s hs hR
  rw [wp_require]
  exact ⟨fun _ => ⟨hs, hR⟩, fun _ => ⟨he, hs⟩⟩

theorem ite {y : Exec ε (State W) α} (hx : c → Guides P F R x R') (hy : ¬ c → Guides P F R y R') :
    Guides P F R (if c then x else y) R' := by
  split
  next hc => exact hx hc
  next hc => exact hy hc

theorem when {x : Exec ε (State W) Unit} (hx : c → Guides P F R x fun _ => R) :
    Guides P F R (Exec.when c x) (fun _ => R) := ite hx fun _ => pure

theorem orFail {F' : ε' → Prop} {e' : ε → ε'} (hx : Guides P F R x R')
    (he : ∀ e, F e → F' (e' e)) : Guides P F' R (x.orFail e') R' := by
  intro s hs hR
  rw [wp_orFail]
  exact wp_mono (hx s hs hR) (fun _ _ h => h) (fun e _ h => ⟨he e h.1, h.2⟩)

/-- The errors may be left open. -/
theorem anyError (h : Guides P F R x R') : Guides P (fun _ => True) R x R' :=
  fun s hs hR => wp_mono (h s hs hR) (fun _ _ h' => h') (fun _ _ h' => ⟨trivial, h'.2⟩)

theorem keeps (h : Guides P F AnyRecord x fun _ => AnyRecord) : Keeps P F x :=
  fun s hs => wp_mono (h s hs trivial) (fun _ _ h' => h'.1) (fun _ _ h' => h')

end Guides

end

/-! ## §2. The callbacks. -/
section
variable {W : Type}

/-- A callback that keeps `P`. -/
abbrev Harmless {α : Type} (P : State W → Prop) (callback : W → α × W) : Prop :=
  ∀ s, P s → P { s with world := (callback s.world).2 }

/-- The removals of created paths keep `P`. -/
abbrev RemovalKeeps (B : Backend W) (P : State W → Prop) : Prop :=
  ∀ ⦃ε : Type⦄ ⦃F : ε → Prop⦄ ⦃R : Operation → Prop⦄ (directory : Bool) (path : Path) (id : Identity),
    Guides P F R (askRecorded (.remove path) (removeExpected B directory path id) : Exec ε (State W) Int)
      (fun _ => R)

/-- The callbacks of the name space and the checkpoints keep `P`. -/
structure CallsKeep (B : Backend W) (P : State W → Prop) : Prop where
  call : ∀ {α : Type} {callback : W → α × W}, Callback B .naming callback → Harmless P callback
  checkpoint : ∀ callback, B.checkpoint = some callback →
    ∀ s, P s → P { s with world := (callback s.op s.world).2 }

/-- A property that does not look at the world. -/
theorem CallsKeep.of_record {B : Backend W} {P : State W → Prop}
    (h : ∀ s w, P s → P { s with world := w }) : CallsKeep B P :=
  ⟨fun _ s => h s _, fun _ _ s => h s _⟩

end

/-- Failures are failures of the operation. -/
abbrev Negative (r : Result) : Prop := r.negative = true

/-- Entry `i` has created nothing. -/
def Uncreated (i : Nat) (op : Operation) : Prop := (op.entry i).created = false

theorem Uncreated.setEntry {i k : Nat} {op : Operation} (h : Uncreated k op) {f : Entry → Entry}
    (hf : ∀ e, e.created = false → (f e).created = false) : Uncreated k (op.setEntry i f) := by
  unfold Uncreated
  rcases Operation.entry_setEntry op i f k with hsame | hchanged
  · rw [hsame]
    exact h
  · rw [hchanged]
    exact hf _ h

/-- Entry `i` has a backup. -/
def HasBackup (i : Nat) (op : Operation) : Prop := (op.entry i).replacementState ≠ .none

namespace CallsKeep

variable {W ε : Type} {B : Backend W} {P : State W → Prop} (hP : CallsKeep B P) {F : ε → Prop}
  {R S : Operation → Prop}
include hP

theorem checkpointSaved : Guides P F R (checkpointSaved B : Exec ε (State W) Bool) (fun _ => R) := by
  unfold FileOperation.checkpointSaved
  cases hc : B.checkpoint with
  | none => exact .pure
  | some callback => exact fun s hs hR => ⟨hP.checkpoint callback hc s hs, hR⟩

theorem checkpointKept {e : ε} : Guides P (fun _ => True) R (FileOperation.checkpoint B e) (fun _ => R) :=
  hP.checkpointSaved.bind fun _ => .require trivial

theorem pathStateKept (path : Path) :
    Guides P F R (ask (B.pathState path) : Exec ε (State W) Int) (fun _ => R) :=
  .call (hP.call (.pathState path))

theorem pathIdentityKept (path : Path) :
    Guides P F R (ask (B.pathIdentity path) : Exec ε (State W) (Int × Identity)) (fun _ => R) :=
  .call (hP.call (.pathIdentity path))

theorem renameExpected (src dst : Path) (id : Identity) :
    Guides P F R (renameExpected B src dst id : Exec ε (State W) Int) (fun _ => R) := by
  unfold FileOperation.renameExpected
  cases hc : B.renameNoReplaceExpected with
  | none => exact .pure
  | some callback => exact .call (hP.call (.renameExpected hc src dst id))

/-! ## §3. Functions that leave the record alone. -/

theorem syncParentOnce (path : Path) : Guides P Negative R (syncParentOnce B path) (fun _ => R) := by
  unfold FileOperation.syncParentOnce
  cases parent path with
  | none => exact .fail rfl
  | some directory =>
    exact .bind (.call (hP.call (.syncDirectory directory))) fun _ => .require (resultOf_negative _)

theorem syncParent (path : Path) : Guides P (fun _ => True) R
    ((FileOperation.syncParentOnce B path).orFail fun _ => ()) (fun _ => R) :=
  (hP.syncParentOnce path).orFail fun _ _ => trivial

theorem closeHandle (handle : Nat) :
    Guides P F R (closeHandle B handle : Exec ε (State W) Int) (fun _ => R) :=
  .ite (fun _ => .call (hP.call (.close handle))) fun _ => .pure

theorem expectIdentity (path : Path) (id : Identity) :
    Guides P (fun _ => True) R (expectIdentity B path id) (fun _ => R) :=
  .bind (hP.pathIdentityKept path) fun _ => .require trivial

theorem confirmRemoved (path : Path) : Guides P (fun _ => True) R (confirmRemoved B path) (fun _ => R) :=
  .bind (hP.pathStateKept path) fun _ => .require trivial

theorem renameBack (entry : Entry) (destinationState backupState : Int) :
    Guides P (fun _ => True) R (renameBack B entry destinationState backupState) (fun _ => R) := by
  refine .ite (fun _ => hP.expectIdentity _ _) fun _ => .test ?_
  refine .seq (hP.expectIdentity _ _) (.seq hP.checkpointKept ?_)
  exact .bind (hP.renameExpected _ _ _) fun _ => .test hP.checkpointKept

theorem renameToSource (entry : Entry) (sourceState destinationState : Int) :
    Guides P (fun _ => True) R (renameToSource B entry sourceState destinationState) (fun _ => R) := by
  refine .ite (fun _ => .seq (hP.expectIdentity _ _) ?_) fun _ => .test (hP.expectIdentity _ _)
  exact .bind (hP.renameExpected _ _ _) fun _ => .require trivial

/-! ## §4. Closing the files and removing what was created. -/

omit hP in
/-- The handles are forgotten one by one. -/
inductive HandleChange : (Operation → Operation) → Prop
  | source : HandleChange fun op => { op with sourceHandle := 0 }
  | temporary : HandleChange fun op => { op with temporaryHandle := 0 }

theorem closeFiles (hhandle : ∀ f, HandleChange f → Turns P R f R)
    (hclosed : Turns P R (fun op => { op with fileOpen := false }) S) :
    Guides P F R (closeFiles B : Exec ε (State W) Bool) (fun _ => S) := by
  refine .readAny fun op => .bind (hP.closeHandle _) fun _ => ?_
  refine .seq (.update (hhandle _ .source)) (.bind (hP.closeHandle _) fun _ => ?_)
  exact .seq (.update (hhandle _ .temporary)) (.seq (.update hclosed) .pure)

omit hP in
/-- What a removal changes in its slot. -/
inductive SlotChange (slot : Slot) : (Operation → Operation) → Prop
  | cleanup (c : CleanupState) (hc : c.pastSync = false) : SlotChange slot fun op => slot.setCleanup c op
  | identity (id : Identity) (hid : identityValid id = true) :
      SlotChange slot fun op => slot.setIdentity id op
  | pending : SlotChange slot fun op =>
      if slot.cleanup op = .none then slot.setCleanup .removePending op else op

omit hP in
theorem SlotChange.created {f : Operation → Operation} (h : SlotChange .temporary f) {op : Operation}
    (hcre : op.temporaryCreated = true) : (f op).temporaryCreated = true := by
  cases h with
  | cleanup | identity => exact hcre
  | pending =>
    dsimp only
    split <;> exact hcre

/-- **A created path is cleaned up**: afterwards no cleanup of its slot is under way. -/
theorem cleanupCreatedPath (hremoval : RemovalKeeps B P) (path : Path) (directory : Bool)
    (slot : Slot) (hslot : ∀ f, SlotChange slot f → Turns P R f R) :
    Guides P (fun _ => True) R (cleanupCreatedPath B path directory slot)
      (fun _ op => R op ∧ (slot = .temporary → op.temporaryCleanupState = .none)) := by
  have hset : ∀ c : CleanupState, c.pastSync = false → Guides P (fun _ : Unit => True) R
      (update fun op => slot.setCleanup c op) (fun _ => R) := fun c hc => .update (hslot _ (.cleanup c hc))
  have hadopt : Guides P (fun _ => True) R (adoptCreated B path slot) (fun _ => R) := by
    refine .readAny fun op => .ite (fun _ => .pure) fun _ => ?_
    refine .bind (hP.pathIdentityKept path) fun found => .requireThen trivial fun hfound => ?_
    exact .seq (.update (hslot _ (.identity _ hfound.2.1))) hP.checkpointKept
  have hremove : Guides P (fun _ => True) R (removeCreated B path directory slot) (fun _ => R) := by
    refine .bind (hP.pathStateKept path) fun _ => .ite (fun _ => .seq (hset _ rfl) hP.checkpointKept) ?_
    refine fun _ => .test (.seq hadopt (.seq (hset _ rfl) (.seq hP.checkpointKept ?_)))
    refine .readAny fun op => .bind (hremoval directory path _) fun _ => ?_
    exact .seq (.when fun _ => hP.confirmRemoved path) (.seq (hset _ rfl) hP.checkpointKept)
  refine .readAny fun op => .test (.seq (.update (hslot _ .pending)) (.readAny fun op => ?_))
  refine .seq (.when fun _ => hremove) (.readAny fun op => .test (.seq (hP.syncParent path) ?_))
  refine .seq (.update (S := fun op => R op ∧ (slot = .temporary → op.temporaryCleanupState = .none))
    fun s hs hR => ?_) hP.checkpointKept
  obtain ⟨hs', hR'⟩ := hslot _ (.cleanup .none rfl) s hs hR
  refine ⟨hs', hR', fun htemp => ?_⟩
  subst htemp
  rfl

/-! ## §5. Bringing objects back. -/

omit hP in
/-- What bringing a replaced object back changes in entry `i`. -/
inductive RestoreChange (i : Nat) : (Operation → Prop) → (Operation → Operation) → Prop
  | started : RestoreChange i AnyRecord fun op =>
      if (op.entry i).replacementState = .publishInProgress ∨
          (op.entry i).replacementState = .backupHeld then
        setReplacement i .restoreInProgress op
      else op
  | held : RestoreChange i (HasBackup i) (setReplacement i .backupHeld)
  | clear : RestoreChange i AnyRecord (clearReplacement i)

theorem restoreReplacement (i : Nat)
    (hchg : ∀ c f, RestoreChange i c f → Turns P (fun op => R op ∧ c op) f R) :
    Guides P (fun _ => True) R (restoreReplacement B i) (fun _ => R) := by
  have hclear : Turns P R (clearReplacement i) R := fun s hs hR => hchg _ _ .clear s hs ⟨hR, trivial⟩
  have hheld : ∀ destinationState backupState, Guides P (fun _ => True) R
      (restoreFromBackup B i destinationState backupState) (fun _ => R) := by
    intro destinationState backupState
    refine .seq (.update fun s hs hR => hchg _ _ .started s hs ⟨hR, trivial⟩) (.readAny fun op => ?_)
    refine .test (.seq (hP.renameBack _ _ _) (.seq (hP.syncParent _) ?_))
    exact .seq (.update hclear) hP.checkpointKept
  refine .read fun s _ hR => .requireThen trivial fun hrepl => ?_
  refine .known (R := fun op => R op ∧ HasBackup i op) ⟨hR, hrepl.1⟩ ?_
  refine .bind (hP.pathStateKept _) fun _ => .bind (hP.pathStateKept _) fun _ => .test ?_
  refine .ite (fun _ => .ite (fun _ => ?_) fun _ => ?_) fun _ => (hheld _ _).weaken fun _ h => h.1
  · refine .seq (hP.expectIdentity _ _) (.seq (.weaken (.update hclear) fun _ h => h.1) ?_)
    exact .seq hP.checkpointKept (hP.syncParent _)
  · exact .test (.seq (hP.expectIdentity _ _) (.seq (.update (hchg _ _ .held)) (hheld _ _)))

omit hP in
/-- What a reverse rename changes in entry `i`. -/
inductive RenameChange (i : Nat) : (Operation → Operation) → Prop
  | started : RenameChange i fun op => if (op.entry i).cleanupState = .none then
      op.setEntry i fun e => { e with cleanupState := .renameInProgress } else op
  | renamed : RenameChange i fun op =>
      op.setEntry i fun e => { e with cleanupState := .renameSyncPending }

omit hP in
/-- The entry is where it was before the operation. -/
def undoApplied (i : Nat) (op : Operation) : Operation :=
  stepBack (op.setEntry i fun e =>
    { e with applied := false, cleanupState := .none, objectIdentity := Identity.zero })

theorem rollbackApplied (i : Nat) (hchg : ∀ f, RenameChange i f → Turns P R f R)
    (hundone : Turns P R (undoApplied i) S) :
    Guides P (fun _ => True) R (rollbackApplied B i) (fun _ => S) := by
  have hreverse : Guides P (fun _ => True) R (reverseRename B i) (fun _ => R) := by
    refine .readAny fun op => .seq hP.checkpointKept ?_
    refine .bind (hP.pathStateKept _) fun _ => .bind (hP.pathStateKept _) fun _ => .test ?_
    exact .seq (hP.renameToSource _ _ _) (.seq (.update (hchg _ .renamed)) hP.checkpointKept)
  refine .readAny fun op => .test (.seq (.update (hchg _ .started)) (.readAny fun op => ?_))
  refine .seq (.when fun _ => hreverse) (.readAny fun op => .test ?_)
  refine .seq (hP.syncParent _) (.seq (hP.syncParent _) ?_)
  exact .seq (.update hundone) hP.checkpointKept

/-! ## §6. One entry. -/

omit hP in
/-- What rolling entry `i` back changes in it, with what is known of the record there. -/
inductive EntryChange (i : Nat) : (Operation → Prop) → (Operation → Operation) → Prop
  | slot {f} (h : SlotChange (.entry i) f) : EntryChange i AnyRecord f
  | restore {c f} (h : RestoreChange i c f) : EntryChange i c f
  | rename {f} (h : RenameChange i f) : EntryChange i AnyRecord f
  | removed : EntryChange i AnyRecord fun op => op.setEntry i fun e =>
      { e with created := false, cleanupState := .none, objectIdentity := Identity.zero }
  | forgotten : EntryChange i (Uncreated i) fun op =>
      op.setEntry i fun e => { e with objectIdentity := Identity.zero }
  | adopted (id : Identity) (hid : identityValid id = true) : EntryChange i AnyRecord fun op =>
      op.setEntry i fun e => { e with objectIdentity := id, created := true }

omit hP in
/-- The ways entry `i` is done with. -/
inductive BackChange (i : Nat) : (Operation → Prop) → (Operation → Operation) → Prop
  | undone : BackChange i (Uncreated i) (undoApplied i)
  | passed : BackChange i AnyRecord fun op =>
      if (op.entry i).replacementState = .none then stepBack op else op
  | stepBack : BackChange i AnyRecord stepBack

omit hP in
theorem EntryChange.setEntry {i : Nat} {c : Operation → Prop} {f : Operation → Operation}
    (h : EntryChange i c f) (op : Operation) : ∃ g, f op = op.setEntry i g := by
  have hite : ∀ (p : Prop) [Decidable p] g, ∃ g', (if p then op.setEntry i g else op) = op.setEntry i g' := by
    intro p _ g
    split
    · exact ⟨g, rfl⟩
    refine ⟨id, ?_⟩
    unfold Operation.setEntry
    rw [List.modify_id]
  cases h with
  | slot h =>
    cases h with
    | cleanup | identity => exact ⟨_, rfl⟩
    | pending => exact hite _ _
  | restore h =>
    cases h with
    | started => exact hite _ _
    | held | clear => exact ⟨_, rfl⟩
  | rename h =>
    cases h with
    | started => exact hite _ _
    | renamed => exact ⟨_, rfl⟩
  | removed | forgotten | adopted => exact ⟨_, rfl⟩

omit hP in
theorem RenameChange.uncreated {i : Nat} {f : Operation → Operation} (h : RenameChange i f)
    {op : Operation} (hop : Uncreated i op) : Uncreated i (f op) := by
  cases h with
  | started =>
    dsimp only
    split
    · exact hop.setEntry fun _ he => he
    · exact hop
  | renamed => exact hop.setEntry fun _ he => he

section
variable {i : Nat} (hent : ∀ c f, EntryChange i c f → Turns P (fun op => R op ∧ c op) f R)
  (hback : ∀ c f, BackChange i c f → Turns P (fun op => R op ∧ c op) f S)
include hent hback

theorem rollbackCreated (hremoval : RemovalKeeps B P) :
    Guides P (fun _ => True) R (rollbackCreated B i) (fun _ => S) := by
  have hany : ∀ {f}, EntryChange i AnyRecord f → Turns P R f R :=
    fun h s hs hR => hent _ _ h s hs ⟨hR, trivial⟩
  refine .readAny fun op => .seq (Q := R) ?_ ?_
  · exact (hP.cleanupCreatedPath hremoval _ _ _ fun f h => hany (.slot h)).mono fun _ _ h => h.1
  · refine .seq (.update (hany .removed)) (.seq hP.checkpointKept ?_)
    exact .update fun s hs hR => hback _ _ .passed s hs ⟨hR, trivial⟩

variable (hle : ∀ op, R op → S op)
include hle

theorem rollbackToken :
    Guides P (fun _ => True) (fun op => R op ∧ Uncreated i op) (rollbackToken B i) (fun _ => S) := by
  refine .readAny fun op => .bind (hP.pathStateKept _) fun _ => .test (.ite (fun _ => ?_) fun _ => ?_)
  · refine .seq (.update (hent _ _ .forgotten)) (.seq hP.checkpointKept ?_)
    exact .update fun s hs hR => hback _ _ .stepBack s hs ⟨hR, trivial⟩
  refine .bind (hP.pathIdentityKept _) fun found => .requireThen trivial fun hfound => ?_
  refine .seq (.update fun s hs hR => ?_) (hP.checkpointKept.mono fun _ => hle)
  exact hent _ _ (.adopted _ hfound.2.1) s hs ⟨hR.1, trivial⟩

/-- **One round of the entry loop**: it acts on entry `i` or goes on below it. -/
theorem rollbackEntries_succ (hremoval : RemovalKeeps B P) {R2 : Operation → Prop}
    {R' : Bool → Operation → Prop} (hacted : ∀ op, S op → R' true op) (hstep : Turns P R stepBack R2)
    (hrest : Guides P (fun _ => True) R2 (rollbackEntries B i) R') :
    Guides P (fun _ => True) R (rollbackEntries B (i + 1)) R' := by
  have hacts : ∀ {Q : Operation → Prop} {x : Exec Unit (State W) Unit},
      Guides P (fun _ => True) Q x (fun _ => S) → Guides P (fun _ => True) Q (acted x) R' :=
    fun h => .seq h fun s hs hR => ⟨hs, hacted s.op hR⟩
  have happ : Guides P (fun _ => True) (fun op => R op ∧ Uncreated i op)
      (FileOperation.rollbackApplied B i) (fun _ => S) := by
    refine hP.rollbackApplied i (fun f h s hs hR => ?_) (hback _ _ .undone)
    obtain ⟨hs', hR'⟩ := hent _ _ (.rename h) s hs ⟨hR.1, trivial⟩
    exact ⟨hs', hR', h.uncreated hR.2⟩
  have hres := hP.restoreReplacement i fun c f h => hent c f (.restore h)
  refine .read fun s _ hR => .ite (fun _ => ?_) fun hcre => ?_
  · exact .known hR (hacts (hP.rollbackCreated hent hback hremoval))
  refine .known (R := fun op => R op ∧ Uncreated i op) ⟨hR, eq_false_of_ne_true hcre⟩ ?_
  refine .ite (fun _ => hacts (hP.rollbackToken hent hback hle)) fun _ => ?_
  refine .ite (fun _ => hacts happ) fun _ => .weaken (S := R) ?_ fun _ h => h.1
  refine .ite (fun _ => hacts (hres.mono fun _ => hle)) fun _ => ?_
  exact .seq (.update hstep) hrest

end

/-! ## §7. The rollback step. -/

omit hP in
/-- Every change a rollback step makes, with what it knows of the record where it makes it. -/
inductive RollbackChange : (Operation → Prop) → (Operation → Operation) → Prop
  | handle {f} (h : HandleChange f) : RollbackChange AnyRecord f
  | closed : RollbackChange AnyRecord fun op => { op with fileOpen := false }
  | slot {f} (h : SlotChange .temporary f) : RollbackChange (fun op => op.temporaryCreated = true) f
  | temporary : RollbackChange AnyRecord fun op => { op with
      temporaryCreated := false
      temporaryPath := []
      temporaryCleanupState := .none
      temporaryIdentity := Identity.zero }
  | entry {i c f} (h : EntryChange i c f) : RollbackChange c f
  | back {i c f} (h : BackChange i c f) : RollbackChange c f

theorem rollbackStep (hremoval : RemovalKeeps B P)
    (hchg : ∀ c f, RollbackChange c f → Turns P (fun op => R op ∧ c op) f R) :
    Guides P (fun _ => True) R (rollbackStep B) (fun _ => R) := by
  have hany : ∀ {f}, RollbackChange AnyRecord f → Turns P R f R :=
    fun h s hs hR => hchg _ _ h s hs ⟨hR, trivial⟩
  have hents : ∀ index, Guides P (fun _ => True) R (rollbackEntries B index) (fun _ => R) := by
    intro index
    induction index with
    | zero => exact .pure
    | succ i ih =>
      exact hP.rollbackEntries_succ (fun c f h => hchg c f (.entry h)) (fun c f h => hchg c f (.back h))
        (fun _ h => h) hremoval (fun _ h => h) (hany (.back (i := i) .stepBack)) ih
  have htemp : Guides P (fun _ => True) (fun op => R op ∧ op.temporaryCreated = true)
      (rollbackTemporary B) (fun _ => R) := by
    refine .readAny fun op => .seq (hP.cleanupCreatedPath hremoval _ _ _ fun f h s hs hR => ?_) ?_
    · obtain ⟨hs', hR'⟩ := hchg _ _ (.slot h) s hs hR
      exact ⟨hs', hR', h.created hR.2⟩
    · exact .seq (.weaken (.update (hany .temporary)) fun _ h => h.1.1) hP.checkpointKept
  refine .bind (hP.closeFiles (fun f h => hany (.handle h)) (hany .closed)) fun _ => .test ?_
  refine .read fun s _ hR => .ite (fun hcopy => ?_) fun _ => .known hR (hents _)
  exact .known (R := fun op => R op ∧ op.temporaryCreated = true) ⟨hR, hcopy.2⟩ (.seq htemp .pure)

end CallsKeep

end RinRuntime.FileOperation

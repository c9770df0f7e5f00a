/-
FileOperation.Rollback — a rollback step takes layers off, one entry at a time.

`rollbackStep_rule`: from a state with layers over the names at the start, a rollback step leads to
such a state again, whichever of its callbacks fail; a step that finds nothing left to do leaves the
names the operation started from.
-/
import RinRuntime.FileOperation.Layer

namespace RinRuntime.FileOperation
open Lib Exec NameTree Layers

/-! ## §1. Slots. -/

namespace Slot

/-- The slot exists. -/
def Valid (op : Operation) : Slot → Prop
  | temporary => True
  | entry i => i < op.entryCount

/-- Only the identity and the cleanup state of the slot changed. -/
def Only (op op' : Operation) : Slot → Prop
  | temporary => op' = { op with
      temporaryIdentity := op'.temporaryIdentity
      temporaryCleanupState := op'.temporaryCleanupState }
  | entry i => EntryOnly i op op' ∧ op'.entry i = { op.entry i with
      objectIdentity := (op'.entry i).objectIdentity
      cleanupState := (op'.entry i).cleanupState }

/-- What looks neither at the identity nor at the cleanup state of the temporary file is kept. -/
theorem Only.field {op op' : Operation} (h : temporary.Only op op') {α : Type} (f : Operation → α) :
    f op' = f { op with
      temporaryIdentity := op'.temporaryIdentity
      temporaryCleanupState := op'.temporaryCleanupState } := congrArg f h

theorem Only.refl (slot : Slot) (op : Operation) : slot.Only op op := by
  cases slot with
  | temporary => rfl
  | entry i => exact ⟨EntryOnly.refl i op, rfl⟩

variable {slot : Slot} {op : Operation}

theorem Only.trans {op op' op'' : Operation} (h : slot.Only op op')
    (h' : slot.Only op' op'') : slot.Only op op'' := by
  cases slot with
  | temporary =>
    show op'' = _
    rw [h', h]
  | entry i =>
    refine ⟨h.1.trans h'.1, ?_⟩
    rw [h'.2, h.2]

theorem Only.setCleanup (hv : slot.Valid op) (c : CleanupState) : slot.Only op (slot.setCleanup c op) := by
  cases slot with
  | temporary => rfl
  | entry i =>
    refine ⟨EntryOnly.setEntry i op _, ?_⟩
    show (op.setEntry i _).entry i = _
    rw [Slot.setCleanup, Operation.entry_setEntry_self hv]

theorem Only.setIdentity (hv : slot.Valid op) (id : Identity) : slot.Only op (slot.setIdentity id op) := by
  cases slot with
  | temporary => rfl
  | entry i =>
    refine ⟨EntryOnly.setEntry i op _, ?_⟩
    rw [Slot.setIdentity, Operation.entry_setEntry_self hv]

theorem Only.valid {op op' : Operation} (h : slot.Only op op') (hv : slot.Valid op) : slot.Valid op' := by
  cases slot with
  | temporary => trivial
  | entry i =>
    show i < op'.entryCount
    rw [h.1.count]
    exact hv

theorem cleanup_setCleanup (hv : slot.Valid op) (c : CleanupState) :
    slot.cleanup (slot.setCleanup c op) = c := by
  cases slot with
  | temporary => rfl
  | entry i =>
    show ((op.setEntry i _).entry i).cleanupState = c
    rw [Operation.entry_setEntry_self hv]

theorem cleanup_setIdentity (hv : slot.Valid op) (id : Identity) :
    slot.cleanup (slot.setIdentity id op) = slot.cleanup op := by
  cases slot with
  | temporary => rfl
  | entry i =>
    show ((op.setEntry i _).entry i).cleanupState = _
    rw [Operation.entry_setEntry_self hv]
    rfl

theorem identity_setCleanup (hv : slot.Valid op) (c : CleanupState) :
    slot.identity (slot.setCleanup c op) = slot.identity op := by
  cases slot with
  | temporary => rfl
  | entry i =>
    show ((op.setEntry i _).entry i).objectIdentity = _
    rw [Operation.entry_setEntry_self hv]
    rfl

end Slot

/-! ## §2. Removing a created path. -/
section
variable {path : Path} {id : Identity} {c c' : CleanupState} {M M' : Names}

/-- A held path stays held until its removal waits for the directory. -/
theorem Held.of_cleanup (h : Held path id c M M') (hc : c' ≠ .syncPending) : Held path id c' M M' := by
  rcases h with howned | ⟨hN, -, hoth⟩
  · exact .inl (Owned.of_occupied howned.1 hc howned.occupied)
  · exact .inr ⟨hN, hc, hoth⟩

/-- Nothing is at a path whose removal waits for the directory. -/
theorem Held.synced (h : Held path id .syncPending M M') : M path = none ∧ M' = M := by
  rcases h with ⟨hM, hN | ⟨hne, -⟩⟩ | ⟨-, hne, -⟩
  · exact ⟨hM, hN⟩
  · exact absurd rfl hne
  · exact absurd rfl hne

end
section
variable {W : Type} {B : Backend W} {G : Eye W View} (hB : G.Watches B) {a : State View}
include hB

variable {M N₀ : Names} {e : Entry} {i : Nat} {slot : Slot} {directory : Bool} {path : Path}
  {a' : State View} {op : Operation}

theorem adoptCreated_rule {Q E : Unit → State View → Prop} (hv : slot.Valid a.op)
    (h : ∀ op, slot.Only a.op op → slot.cleanup op = slot.cleanup a.op →
      Q () { a with op := op } ∧ E () { a with op := op }) :
    Shows G.watch (adoptCreated B path slot) Q E a := by
  have hkept := h a.op (Slot.Only.refl slot a.op) rfl
  refine .read <| .ite (fun _ => .pure hkept.1) fun _ => ?_
  refine .bind <| .pathIdentity hB fun result current _ _ => ?_
  refine .check (fun _ => ?_) fun _ => hkept.2
  have hset := h _ (Slot.Only.setIdentity hv current) (Slot.cleanup_setIdentity hv current)
  exact .change <| .checkpoint hB hset.1 hset.2

/-- Only the slot changed, and its path is still held. -/
abbrev Slot.Holds (slot : Slot) (path : Path) (M : Names) (a a' : State View) : Prop :=
  slot.Only a.op a'.op ∧ Held path (slot.identity a'.op) (slot.cleanup a'.op) M a'.world.names

/-- The removal of an owned path: on success the names are those below it. -/
theorem removeCreated_owned
    (hv : slot.Valid a.op) (hM : M path = none) (hc : slot.cleanup a.op ≠ .syncPending)
    (hocc : Occupied path M a.world.names) : Shows G.watch (removeCreated B path directory slot)
      (fun _ a' => slot.Only a.op a'.op ∧ a'.world.names = M) (fun _ => slot.Holds path M a) a := by
  refine .bind <| .pathState hB fun state _ hmiss => .ite (fun h0 => ?_) fun _ =>
    .check (fun _ => ?_) fun _ => ⟨Slot.Only.refl slot a.op, .inl (Owned.of_occupied hM hc hocc)⟩
  · -- nothing is there any more
    have hN := hocc.eq_of_missing (hmiss h0)
    have honly := Slot.Only.setCleanup hv .syncPending
    exact .change <| .checkpoint hB ⟨honly, hN⟩ ⟨honly, .inl ⟨hM, .inl hN⟩⟩
  refine .bind <| adoptCreated_rule hB hv fun op honly hc' =>
    ⟨?_, honly, .inl (Owned.of_occupied hM (by rw [hc']; exact hc) hocc)⟩
  -- the removal is announced, tried, and confirmed
  have hv1 := honly.valid hv
  have honly1 := honly.trans (Slot.Only.setCleanup hv1 .removeInProgress)
  have hkept : ∀ w log, Occupied path M w.names →
      slot.Holds path M a ⟨slot.setCleanup .removeInProgress op, w, log⟩ := by
    intro w log hN
    refine ⟨honly1, .inl ?_⟩
    rw [Slot.cleanup_setCleanup hv1]
    exact Owned.of_occupied hM (by decide) hN
  refine .change <| .bind <| .checkpoint hB ?_ (hkept _ _ hocc)
  refine .read <| .bind <| .removeExpected hB fun r w htry => ?_
  obtain ⟨hocc2, hgone⟩ := Occupied.of_attempt hM hocc htry
  have honly2 := honly1.trans (Slot.Only.setCleanup (honly1.valid hv) .syncPending)
  refine .bind <| .when (fun _ => .bind <| .pathState hB fun state _ hmiss => .require
    (fun h0 => ?_) fun _ => hkept _ _ hocc2) fun hr => ?_
  · have hN := hocc2.eq_of_missing (hmiss h0)
    exact .change <| .checkpoint hB ⟨honly2, hN⟩ ⟨honly2, .inl ⟨hM, .inl hN⟩⟩
  · have hN := hgone (not_not.mp hr)
    exact .change <| .checkpoint hB ⟨honly2, hN⟩ ⟨honly2, .inl ⟨hM, .inl hN⟩⟩

/-- A blocked path is not removed, and stays as it is. -/
theorem removeCreated_blocked (hv : slot.Valid a.op)
    (hblocked : Blocked path (slot.identity a.op) (slot.cleanup a.op) M a.world.names) :
    Shows G.watch (removeCreated B path directory slot) (fun _ _ => False) (fun _ => slot.Holds path M a) a := by
  have hkept : slot.Holds path M a a := ⟨Slot.Only.refl slot a.op, .inr hblocked⟩
  obtain ⟨hN, -, other, hoth, hmismatch⟩ := hblocked
  have hnamed : a.world.names path = some other := by rw [hN]; exact hoth
  refine .bind <| .pathState hB fun state _ hmiss => .ite (fun h0 => ?_) fun _ =>
    .check (fun _ => ?_) fun _ => hkept
  · cases hnamed.symm.trans (hmiss h0)
  -- the identity is valid, or the object at hand does not carry its token
  refine .bind <| .read <| .ite (fun hval => .pure ?_) fun hinv => ?_
  · rw [if_pos hval] at hmismatch
    have hid : slot.identity (slot.setCleanup .removeInProgress a.op) = slot.identity a.op :=
      Slot.identity_setCleanup hv _
    have hmarked : ∀ log, slot.Holds path M a ⟨slot.setCleanup .removeInProgress a.op, a.world, log⟩ := by
      refine fun _ => ⟨Slot.Only.setCleanup hv _, .inr ⟨hN, ?_, other, hoth, ?_⟩⟩
      · rw [Slot.cleanup_setCleanup hv]
        decide
      rw [hid, if_pos hval]
      exact hmismatch
    refine .change <| .bind <| .checkpoint hB ?_ (hmarked _)
    refine .read <| .bind <| .removeExpected hB fun r w htry => ?_
    have hnot : ¬ Removed path (slot.identity (slot.setCleanup .removeInProgress a.op)) a.world w := by
      rintro ⟨hfound, _⟩
      rw [hid, hnamed] at hfound
      exact hmismatch (Option.some.inj hfound)
    obtain rfl : w = a.world := htry.2.resolve_right hnot
    refine .bind <| .when (fun _ => ?_) fun h0 => absurd (htry.1 (not_not.mp h0)) hnot
    refine .bind <| .pathState hB fun state _ hmiss => .require (fun h0 => ?_) fun _ => hmarked _
    cases hnamed.symm.trans (hmiss h0)
  rw [if_neg hinv] at hmismatch
  refine .bind <| .pathIdentity hB fun result current hfound _ => .bind <|
    .require (fun hok => ?_) fun _ => hkept
  have hcur := Option.some.inj (hnamed.symm.trans (hfound hok.1))
  rw [← hcur] at hok
  exact absurd hok.2.2 hmismatch

omit hB in
/-- The record once a cleanup is under way. -/
theorem Slot.marked (hv : slot.Valid op) :
    ∃ op1, (if slot.cleanup op = .none then slot.setCleanup .removePending op else op) = op1 ∧
      slot.Only op op1 ∧ slot.identity op1 = slot.identity op ∧
      (slot.cleanup op1 = slot.cleanup op ∨ slot.cleanup op1 = .removePending) := by
  split
  · exact ⟨_, rfl, Only.setCleanup hv _, identity_setCleanup hv _, .inr (cleanup_setCleanup hv _)⟩
  · exact ⟨op, rfl, Only.refl slot op, rfl, .inl rfl⟩

/-- **Cleaning up a created path** leaves the names below it, or a path that is still held. -/
theorem cleanupCreatedPath_rule (hv : slot.Valid a.op)
    (hheld : Held path (slot.identity a.op) (slot.cleanup a.op) M a.world.names) :
    Shows G.watch (cleanupCreatedPath B path directory slot)
      (fun _ a' => slot.Only a.op a'.op ∧ slot.cleanup a'.op = .none ∧ a'.world.names = M)
      (fun _ => slot.Holds path M a) a := by
  refine .read <| .check (fun _ => ?_) fun _ => ⟨Slot.Only.refl slot a.op, hheld⟩
  refine .change <| .read <| .bind ?_
  obtain ⟨op1, hop1, honly1, hid1, hc1⟩ := Slot.marked hv
  rw [hop1]
  have hheld1 : Held path (slot.identity op1) (slot.cleanup op1) M a.world.names := by
    rw [hid1]
    rcases hc1 with hc1 | hc1
    · rw [hc1]; exact hheld
    · rw [hc1]; exact hheld.of_cleanup (by decide)
  -- what follows the removal
  have hfinish : ∀ a2 : State View, slot.Holds path M a a2 →
      (slot.cleanup a2.op = .syncPending → M path = none ∧ a2.world.names = M) →
      Shows G.watch (do
        let op ← getOp
        Exec.require (slot.cleanup op = .syncPending) ()
        (syncParentOnce B path).orFail fun _ => ()
        update fun op => slot.setCleanup .none op
        checkpoint B ())
      (fun _ a' => slot.Only a.op a'.op ∧ slot.cleanup a'.op = .none ∧ a'.world.names = M)
      (fun _ => slot.Holds path M a) a2 := by
    intro a2 h2 hdone
    refine .read <| .check (fun hsync => ?_) fun _ => h2
    refine .bind <| .orFail <| .syncParentOnce hB ?_ fun _ _ => h2
    have hv2 := h2.1.valid hv
    have honly3 := h2.1.trans (Slot.Only.setCleanup hv2 .none)
    obtain ⟨hM, hN⟩ := hdone hsync
    exact .change <| .checkpoint hB ⟨honly3, Slot.cleanup_setCleanup hv2 _, hN⟩ ⟨honly3, .inl ⟨hM, .inl hN⟩⟩
  refine .when (fun hpend => ?_) fun _ => hfinish _ ⟨honly1, hheld1⟩ fun hsync => ?_
  swap
  · rw [hsync] at hheld1
    exact hheld1.synced
  have hne : slot.cleanup op1 ≠ .syncPending := by
    rcases hpend with h | h <;> · rw [h]; decide
  have hstill : ∀ (_ : Unit) a2, slot.Holds path M { a with op := op1 } a2 → slot.Holds path M a a2 :=
    fun _ _ h2 => ⟨honly1.trans h2.1, h2.2⟩
  rcases hheld1 with howned | hblocked
  · refine .mono (removeCreated_owned hB (honly1.valid hv) howned.1 hne howned.occupied) ?_ hstill
    rintro _ a2 ⟨honly2, hN2⟩
    exact hfinish a2 ⟨honly1.trans honly2, .inl ⟨howned.1, .inl hN2⟩⟩ fun _ => ⟨howned.1, hN2⟩
  · exact .mono (removeCreated_blocked hB (honly1.valid hv) hblocked) (fun _ _ h => h.elim) hstill

/-! ## §3. Bringing a replaced object back. -/

omit hB in
/-- A displaced destination is missing at its path. -/
theorem Displaced.missing {M M' : Names} {id : Identity}
    (hM : M e.destinationPath = some id) (h : Displaced e M M') : M' e.destinationPath = none := by
  rw [h.2]
  exact move_src (not_under_of_free h.1 hM)

omit hB in
/-- Whether the destination is named tells whether it is displaced. -/
theorem Displaced.told {M N : Names} {id : Identity} {state : Int}
    (hM : M e.destinationPath = some id) (hmid : N = M ∨ Displaced e M N)
    (hnamed : state = 1 → N e.destinationPath ≠ none) (hmiss : state = 0 → N e.destinationPath = none) :
    (state = 1 → N = M) ∧ (state = 0 → Displaced e M N) := by
  rcases hmid with rfl | h
  · refine ⟨fun _ => rfl, fun h0 => ?_⟩
    cases hM.symm.trans (hmiss h0)
  · exact ⟨fun h1 => absurd (h.missing hM) (hnamed h1), fun _ => h⟩

/-- The rename back: on success the displaced object is at its destination. -/
theorem renameBack_rule {destinationState backupState : Int}
    (hmid : a.world.names = M ∨ Displaced e M a.world.names) (hd : destinationState = 1 → a.world.names = M)
    (hd' : destinationState = 0 → Displaced e M a.world.names) :
    Shows G.watch (renameBack B e destinationState backupState)
      (fun _ a' => a'.op = a.op ∧ a'.world.names = M)
      (fun _ a' => a'.op = a.op ∧ (a'.world.names = M ∨ Displaced e M a'.world.names)) a := by
  refine .ite (fun hstates => .expectIdentity hB (fun _ => ⟨rfl, hd hstates.2⟩) ⟨rfl, hmid⟩) fun _ =>
    .check (fun hstates => ?_) fun _ => ⟨rfl, hmid⟩
  refine .bind <| .expectIdentity hB (fun _ => ?_) ⟨rfl, hmid⟩
  refine .bind <| .checkpoint hB ?_ ⟨rfl, hmid⟩
  refine .bind <| .renameExpected hB fun r w htry => ?_
  have hback : Renamed e.backupPath e.destinationPath e.backupIdentity a.world w → w.names = M := by
    intro hr
    obtain ⟨hfree, hmoved⟩ := hd' hstates.2
    rw [hr.2.2.2, hmoved]
    exact move_move hfree
  refine .check (fun h0 => ?_) fun _ => ⟨rfl, ?_⟩
  · have hN := hback (htry.1 h0)
    exact .checkpoint hB ⟨rfl, hN⟩ ⟨rfl, .inl hN⟩
  rcases htry.2 with rfl | hr
  · exact hmid
  · exact .inl (hback hr)

/-- **Entry `i` on top of the names `M`**, as its rollback finds it. -/
structure TopEntry where
  i : Nat
  M : Names
  start : State View
  index : start.op.rollbackIndex = i + 1
  count : i < start.op.entryCount
  layer : Layer (start.op.entry i) M start.world.names

abbrev TopEntry.entry (T : TopEntry) : Entry := T.start.op.entry T.i

/-- What a rollback of the entry leaves: it is still a layer over `M`, or it is idle and the index is
one less. -/
structure TopEntry.Left (T : TopEntry) (a : State View) : Prop where
  count : a.op.entryCount = T.start.op.entryCount
  other : ∀ k, k ≠ T.i → a.op.entry k = T.start.op.entry k
  temp : a.op.temporaryCreated = T.start.op.temporaryCreated
  state : a.op.rollbackIndex = T.i + 1 ∧ Layer (a.op.entry T.i) T.M a.world.names ∨
    a.op.rollbackIndex = T.i ∧ Idle (a.op.entry T.i) ∧ a.world.names = T.M

/-- `x` rolls the entry back or leaves it as a layer, whether it fails or not. -/
abbrev TopEntry.Unwinds (T : TopEntry) (G : Eye W View) {α ε : Type} (x : Exec ε (State W) α)
    (a : State View) : Prop := Shows G.watch x (fun _ => T.Left) (fun _ => T.Left) a

omit hB

variable {T : TopEntry}

/-- The entry changed and is still a layer. -/
theorem TopEntry.Left.of_layer (h : Edited T.i T.start.op a.op e) (hlayer : Layer e T.M a.world.names) :
    T.Left a := by
  refine ⟨h.count, h.other, h.field (·.temporaryCreated),
    .inl ⟨(h.field (·.rollbackIndex)).trans T.index, ?_⟩⟩
  rw [h.entry]
  exact hlayer

theorem TopEntry.kept : T.Left T.start := .of_layer (Edited.refl T.i T.start.op) T.layer

/-- The entry became idle and the index went down. -/
theorem TopEntry.Left.of_idle {w : View} {log : List (Event View)} (h : Edited T.i T.start.op op e)
    (hidle : Idle e) (hN : w.names = T.M) : T.Left ⟨stepBack op, w, log⟩ := by
  have hri : op.rollbackIndex = T.i + 1 := (h.field (·.rollbackIndex)).trans T.index
  refine ⟨h.count, h.other, h.field (·.temporaryCreated), .inr ⟨?_, ?_, hN⟩⟩
  · show op.rollbackIndex - 1 = T.i
    omega
  show Idle (op.entry T.i)
  rw [h.entry]
  exact hidle

/-- An entry with nothing but a replacement to undo. -/
structure OnlyReplaced (e : Entry) : Prop where
  applied : e.applied = false
  created : e.created = false
  token : identityHasToken e.objectIdentity = false

/-- A layer of an entry that created nothing and moved nothing is a replacement. -/
theorem OnlyReplaced.layer_iff {M M' : Names} (he : OnlyReplaced e) : Layer e M M' ↔ Replaced e M M' := by
  rw [layer_of_not_applied he.applied]
  constructor
  · rintro ⟨mid, hmid, hmade⟩
    rw [(Made.of_idle he.created he.token).mp hmade]
    exact hmid
  · intro h
    exact ⟨M', h, (Made.of_idle he.created he.token).mpr rfl⟩

/-- The replacement state of a replacement may go on to `RESTORE_IN_PROGRESS`. -/
theorem Replaced.pending {M M' : Names} (hne : e.replacementState ≠ .none) (h : Replaced e M M') :
    M e.destinationPath = some e.backupIdentity ∧ (M' = M ∨ Displaced e M M') := by
  unfold Replaced at h
  cases hr : e.replacementState with
  | none => exact absurd hr hne
  | backupInProgress => rw [hr] at h; exact h
  | restoreInProgress => rw [hr] at h; exact h
  | backupHeld | publishInProgress => rw [hr] at h; exact ⟨h.1, .inr h.2⟩
  | undoRemoveInProgress | undoRestoreInProgress => rw [hr] at h; exact h.elim

theorem OnlyReplaced.left (h : Edited T.i T.start.op a.op e) (he : OnlyReplaced e)
    (hrep : Replaced e T.M a.world.names) : T.Left a := .of_layer h (he.layer_iff.mpr hrep)

/-- The entry whose object is back forgets its replacement. -/
theorem OnlyReplaced.cleared (he : OnlyReplaced e) (h : Edited T.i T.start.op op e) {w : View}
    (hN : w.names = T.M) (log : List (Event View)) : T.Left ⟨clearReplacement T.i op, w, log⟩ :=
  OnlyReplaced.left (h.set T.count _) { he with } ((Replaced.of_none rfl).mpr hN)

include hB

/-- The second half of the restoring, for an entry whose replacement is one of the pending states. -/
theorem restoreFromBackup_rule {destinationState backupState : Int}
    (h : Edited T.i T.start.op a.op e) (he : OnlyReplaced e) (hne : e.replacementState ≠ .none)
    (hrep : Replaced e T.M a.world.names) (hd : destinationState = 1 → a.world.names = T.M)
    (hd' : destinationState = 0 → Displaced e T.M a.world.names) :
    T.Unwinds G (restoreFromBackup B T.i destinationState backupState) a := by
  obtain ⟨hM, hmid⟩ := hrep.pending hne
  refine .change <| .read ?_
  -- the record after the state went on
  obtain ⟨op1, hop1, state, h1, hrep1⟩ : ∃ op1, (if (a.op.entry T.i).replacementState = .publishInProgress ∨
          (a.op.entry T.i).replacementState = .backupHeld then
        setReplacement T.i .restoreInProgress a.op else a.op) = op1 ∧
      ∃ state, Edited T.i T.start.op op1 { e with replacementState := state } ∧
        Replaced { e with replacementState := state } T.M a.world.names := by
    split
    · exact ⟨_, rfl, .restoreInProgress, h.set T.count _, hM, hmid⟩
    · exact ⟨a.op, rfl, e.replacementState, h, hrep⟩
  rw [hop1, h1.entry]
  have he1 : OnlyReplaced { e with replacementState := state } := { he with }
  refine .check (fun hrestoring => ?_) fun _ => he1.left h1 hrep1
  -- the state allows for the object to be away or back
  have hkept : ∀ w log, w.names = T.M ∨ Displaced e T.M w.names → T.Left ⟨op1, w, log⟩ := by
    intro w log hw
    refine he1.left h1 ?_
    unfold Replaced
    rw [hrestoring]
    exact ⟨hM, hw⟩
  refine .bind <| .mono (renameBack_rule hB hmid hd hd') ?_ ?_
  · rintro _ ⟨_, w, log⟩ ⟨rfl, hw⟩
    refine .bind <| .orFail <| .syncParentOnce hB ?_ fun _ _ => hkept w log (.inl hw)
    have hcleared := he1.cleared h1 hw log
    exact .change <| .checkpoint hB hcleared hcleared
  · rintro _ ⟨_, w, log⟩ ⟨rfl, hw⟩
    exact hkept w log hw

/-- **Restoring a replacement** keeps the layer or leaves it without a replacement. -/
theorem restoreReplacement_rule (he : OnlyReplaced T.entry) :
    T.Unwinds G (restoreReplacement B T.i) T.start := by
  have hrefl := Edited.refl T.i T.start.op
  have hrep := he.layer_iff.mp T.layer
  refine .read <| .check (fun hpre => ?_) fun _ => T.kept
  obtain ⟨hM, hmid⟩ := hrep.pending hpre.1
  refine .bind <| .pathState hB fun destinationState hd hd' => ?_
  obtain ⟨hback, haway⟩ := Displaced.told hM hmid hd hd'
  refine .bind <| .pathState hB fun backupState _ _ => ?_
  refine .check (fun _ => .ite (fun hprogress => .ite (fun hstates => ?_) fun _ =>
    .check (fun hstates => ?_) fun _ => T.kept) fun _ => ?_) fun _ => T.kept
  · -- the backup rename never happened
    refine .bind <| .expectIdentity hB (fun _ => ?_) T.kept
    have hcleared := he.cleared hrefl (hback hstates.2) T.start.log
    refine .change <| .bind <| .checkpoint hB ?_ hcleared
    exact .orFail <| .syncParentOnce hB hcleared fun _ _ => hcleared
  · -- it happened: the backup is held
    refine .bind <| .expectIdentity hB (fun _ => ?_) T.kept
    exact .change <| restoreFromBackup_rule hB (Edited.setEntry T.count _)
      { he with } (by simp) ⟨hM, haway hstates.2⟩ hback haway
  · exact restoreFromBackup_rule hB hrefl he hpre.1 hrep hback haway

/-! ## §4. The branches of a rollback step. -/

omit hB in
/-- An entry that created something moved nothing. -/
theorem Layer.not_applied {M M' : Names} (h : Layer e M M')
    (hmade : e.created = true ∨ identityHasToken e.objectIdentity = true) : e.applied = false := by
  unfold Layer at h
  split at h
  · rcases hmade with hc | ht
    · rw [h.1] at hc; cases hc
    · rw [h.2.1] at ht; cases ht
  · next ha => simpa using ha

/-- The `CREATED` branch: the object is removed, then its entry forgets it. -/
theorem rollbackCreated_rule (hcre : T.entry.created = true) :
    T.Unwinds G (rollbackCreated B T.i) T.start := by
  have happ := T.layer.not_applied (.inl hcre)
  obtain ⟨mid, hrep, hmade⟩ := (layer_of_not_applied happ).mp T.layer
  refine .read <| .bind <| .mono (cleanupCreatedPath_rule hB
    (show Slot.Valid T.start.op (.entry T.i) from T.count) ((Made.of_created hcre).mp hmade)) ?_ ?_
  · rintro _ ⟨op1, w, log⟩ ⟨⟨honly1, hentry1⟩, _, rfl⟩
    refine .change ?_
    have h2 := Edited.set ⟨honly1, hentry1⟩ T.count fun e =>
      { e with created := false, cleanupState := .none, objectIdentity := Identity.zero }
    have hkept : ∀ log, T.Left ⟨_, w, log⟩ := fun log =>
      OnlyReplaced.left h2 ⟨happ, rfl, identityHasToken_zero⟩ hrep
    refine .bind <| .checkpoint hB (.update ?_) (hkept log)
    rw [h2.entry]
    split
    next hnone =>
      -- nothing was replaced, so the entry is done
      exact .of_idle h2 ⟨happ, rfl, identityHasToken_zero, hnone⟩ ((Replaced.of_none hnone).mp hrep)
    next => exact hkept _
  rintro _ ⟨op1, w, log⟩ ⟨⟨honly1, hentry1⟩, hheld1⟩
  refine .of_layer ⟨honly1, hentry1⟩ ((layer_of_not_applied ?_).mpr ⟨mid, hrep, ?_⟩)
  · exact happ
  refine (Made.of_created ?_).mpr hheld1
  exact hcre

/-- The token branch: an intent nothing came of is forgotten, the object of another is adopted. -/
theorem rollbackToken_rule (hcre : T.entry.created = false)
    (htoken : identityHasToken T.entry.objectIdentity = true) :
    T.Unwinds G (rollbackToken B T.i) T.start := by
  have happ := T.layer.not_applied (.inr htoken)
  obtain ⟨mid, hrep, hmade⟩ := (layer_of_not_applied happ).mp T.layer
  unfold Made at hmade
  rw [if_neg (by simp [hcre]), if_pos htoken] at hmade
  obtain ⟨hclean, hmiss, hst⟩ := hmade
  refine .read <| .bind <| .pathState hB fun state _ hgone => ?_
  refine .check (fun _ => .ite (fun h0 => ?_) fun _ => ?_) fun _ => T.kept
  · -- nothing is at the destination, so nothing was displaced either
    obtain ⟨hN, hnone⟩ : T.start.world.names = mid ∧ T.entry.replacementState = .none := by
      rcases hst with h | ⟨id, h⟩
      · exact h
      have hnone := hgone h0
      rw [h, insert_self] at hnone
      cases hnone
    refine .change ?_
    have h2 := Edited.setEntry T.count fun e => { e with objectIdentity := Identity.zero }
    have hidle2 : Idle { T.entry with objectIdentity := Identity.zero } :=
      ⟨happ, hcre, identityHasToken_zero, hnone⟩
    have hM : T.start.world.names = T.M := hN.trans ((Replaced.of_none hnone).mp hrep)
    refine .bind <| .checkpoint hB (.update (.of_idle h2 hidle2 hM)) (.of_layer h2 ?_)
    rw [hM]
    exact hidle2.layer T.M
  refine .bind <| .pathIdentity hB fun result current _ _ => ?_
  refine .check (fun _ => ?_) fun _ => T.kept
  refine .change ?_
  have hadopted : T.Left ⟨T.start.op.setEntry T.i fun e =>
      { e with objectIdentity := current, created := true }, T.start.world, T.start.log⟩ := by
    refine .of_layer (Edited.setEntry T.count _) ((layer_of_not_applied ?_).mpr ⟨mid, hrep, ?_⟩)
    · exact happ
    refine (Made.of_created rfl).mpr (.inl (Owned.of_occupied hmiss (by rw [hclean]; decide) ?_))
    rcases hst with h | h
    · exact .inl h.1
    · exact .inr h
  exact .checkpoint hB hadopted hadopted

/-- The object of an entry is at its source or at its destination. -/
def MaybeMoved (e : Entry) (M N : Names) : Prop :=
  N = M ∨ Free slash M e.destinationPath ∧ N = move slash e.sourcePath e.destinationPath M

/-- The reverse rename: on success the object is at its source. -/
theorem renameToSource_rule {sourceState destinationState : Int}
    (hM : M e.sourcePath = some e.objectIdentity) (hmoved : MaybeMoved e M a.world.names)
    (hs : sourceState = 1 → a.world.names e.sourcePath ≠ none)
    (hs' : sourceState = 0 → a.world.names e.sourcePath = none) :
    Shows G.watch (renameToSource B e sourceState destinationState)
      (fun _ a' => a'.op = a.op ∧ a'.world.names = M)
      (fun _ a' => a'.op = a.op ∧ MaybeMoved e M a'.world.names) a := by
  refine .ite (fun hstates => ?_) fun _ => .check (fun hstates => ?_) fun _ => ⟨rfl, hmoved⟩
  · -- the source is missing, so the object has been moved
    refine .bind <| .expectIdentity hB (fun _ => ?_) ⟨rfl, hmoved⟩
    refine .bind <| .renameExpected hB fun r w htry => ?_
    have hback : Renamed e.destinationPath e.sourcePath e.objectIdentity a.world w → w.names = M := by
      intro hr
      rcases hmoved with h | ⟨hfree, h⟩
      · have hmiss := hs' hstates.1
        rw [h, hM] at hmiss
        cases hmiss
      · rw [hr.2.2.2, h]
        exact move_move hfree
    refine .require (fun h0 => ⟨rfl, hback (htry.1 h0)⟩) fun _ => ⟨rfl, ?_⟩
    rcases htry.2 with rfl | hr
    · exact hmoved
    · exact .inl (hback hr)
  refine .expectIdentity hB (fun _ => ⟨rfl, ?_⟩) ⟨rfl, hmoved⟩
  rcases hmoved with h | ⟨hfree, h⟩
  · exact h
  refine absurd ?_ (hs hstates.1)
  rw [h]
  exact move_src (not_under_of_free hfree hM)

omit hB in
/-- What the reverse rename of entry `i` leaves. -/
theorem Moved.of_state {M M' : Names} (hM : M e.sourcePath = some e.objectIdentity)
    (h : M' = M ∧ e.cleanupState = .renameSyncPending ∨
      MaybeMoved e M M' ∧ e.cleanupState = .renameInProgress) : Moved e M M' := by
  refine ⟨hM, ?_⟩
  rcases h with ⟨h, hc⟩ | ⟨h, hc⟩
  · rw [hc]; exact h
  · rw [hc]; exact h

/-- The `RENAME_IN_PROGRESS` part: the object comes back, or the entry stays as it is. -/
theorem reverseRename_rule (h : Edited T.i T.start.op a.op e)
    (hM : M e.sourcePath = some e.objectIdentity) (hst : e.cleanupState = .renameInProgress)
    (hmoved : MaybeMoved e M a.world.names) : Shows G.watch (reverseRename B T.i)
      (fun _ a' => Edited T.i T.start.op a'.op { e with cleanupState := .renameSyncPending } ∧
        a'.world.names = M)
      (fun _ a' => ∃ c, Edited T.i T.start.op a'.op { e with cleanupState := c } ∧
        Moved { e with cleanupState := c } M a'.world.names) a := by
  -- while the record is as it was, the entry may be moved or not
  have hkept : ∀ w : View, MaybeMoved e M w.names → ∃ c, Edited T.i T.start.op a.op
      { e with cleanupState := c } ∧ Moved { e with cleanupState := c } M w.names := fun w hw =>
    ⟨e.cleanupState, h, Moved.of_state hM (.inr ⟨hw, hst⟩)⟩
  refine .read ?_
  rw [h.entry]
  refine .bind <| .checkpoint hB ?_ (hkept a.world hmoved)
  refine .bind <| .pathState hB fun sourceState hs hs' => ?_
  refine .bind <| .pathState hB fun destinationState _ _ => ?_
  refine .check (fun _ => ?_) fun _ => hkept a.world hmoved
  refine .bind <| .mono (renameToSource_rule hB hM hmoved hs hs') ?_ ?_
  · rintro _ ⟨_, w, log⟩ ⟨rfl, rfl⟩
    have h1 := h.set T.count fun e => { e with cleanupState := .renameSyncPending }
    exact .change <| .checkpoint hB ⟨h1, rfl⟩ ⟨.renameSyncPending, h1, Moved.of_state hM (.inl ⟨rfl, rfl⟩)⟩
  · rintro _ ⟨_, w, log⟩ ⟨rfl, hw⟩
    exact hkept w hw

/-- **The `APPLIED` branch** moves the object back. -/
theorem rollbackApplied_rule (happ : T.entry.applied = true) :
    T.Unwinds G (rollbackApplied B T.i) T.start := by
  obtain ⟨hcre, htoken, hrepl, hmoved⟩ := (layer_of_applied happ).mp T.layer
  have hM := hmoved.1
  -- an entry that differs in its cleanup state only is the same kind of layer
  have hkind : ∀ {a : State View} {c}, Edited T.i T.start.op a.op { T.entry with cleanupState := c } →
      Moved { T.entry with cleanupState := c } T.M a.world.names → T.Left a := by
    intro a c h hm
    refine .of_layer h ((layer_of_applied ?_).mpr ⟨hcre, htoken, hrepl, hm⟩)
    exact happ
  refine .read <| .check (fun _ => ?_) fun _ => T.kept
  refine .change <| .read <| .bind ?_
  -- the record after the first mark
  obtain ⟨op1, hop1, c1, h1, hmoved1⟩ : ∃ op1, (if T.entry.cleanupState = .none then
        T.start.op.setEntry T.i fun e => { e with cleanupState := .renameInProgress }
      else T.start.op) = op1 ∧
      ∃ c, Edited T.i T.start.op op1 { T.entry with cleanupState := c } ∧
        Moved { T.entry with cleanupState := c } T.M T.start.world.names := by
    split
    next hnone =>
      refine ⟨_, rfl, .renameInProgress, Edited.setEntry T.count _, ?_⟩
      have h := hmoved.2
      rw [hnone] at h
      exact Moved.of_state hM (.inr ⟨.inr h, rfl⟩)
    next => exact ⟨T.start.op, rfl, T.entry.cleanupState, Edited.refl T.i T.start.op, hmoved⟩
  rw [hop1, h1.entry]
  -- the end of the branch: nothing more happens unless the object is back
  have hend : ∀ {a2 : State View} {c}, Edited T.i T.start.op a2.op { T.entry with cleanupState := c } →
      Moved { T.entry with cleanupState := c } T.M a2.world.names →
      T.Unwinds G (do
        let op ← getOp
        let entry := op.entry T.i
        Exec.require (entry.cleanupState = .renameSyncPending) ()
        (syncParentOnce B entry.sourcePath).orFail fun _ => ()
        (syncParentOnce B entry.destinationPath).orFail fun _ => ()
        update fun op => stepBack (op.setEntry T.i fun e =>
          { e with applied := false, cleanupState := .none, objectIdentity := Identity.zero })
        checkpoint B ()) a2 := by
    intro a2 c h2 hmoved2
    have hkept := hkind h2 hmoved2
    refine .read ?_
    rw [h2.entry]
    refine .check (fun hpend => ?_) fun _ => hkept
    refine .bind <| .orFail <| .syncParentOnce hB ?_ fun _ _ => hkept
    refine .bind <| .orFail <| .syncParentOnce hB ?_ fun _ _ => hkept
    have hN := hmoved2.2
    rw [hpend] at hN
    refine .change <| .checkpoint hB ?_ ?_
    all_goals exact .of_idle (h2.set T.count _) ⟨rfl, hcre, identityHasToken_zero, hrepl⟩ hN
  refine .when (fun hprogress => ?_) fun _ => hend h1 hmoved1
  have hmid := hmoved1.2
  rw [hprogress] at hmid
  refine .mono (reverseRename_rule hB h1 hM hprogress hmid) ?_ ?_
  · rintro _ a2 ⟨h2, hN2⟩
    exact hend h2 (Moved.of_state hM (.inl ⟨hN2, rfl⟩))
  · rintro _ a2 ⟨c, h2, hm⟩
    exact hkind h2 hm

/-! ## §5. The step. -/

omit hB in
/-- Rolling back one entry is rolling back the operation. -/
theorem TopEntry.Left.rolling (h : T.Left a) (hroll : Rolling id N₀ T.start)
    (htemp : T.start.op.temporaryCreated = false)
    (hstack : Stack (fun k => Layer (T.start.op.entry k)) N₀ T.i T.M) : Rolling id N₀ a := by
  have hi := T.index
  have htemp' : a.op.temporaryCreated = false := h.temp.trans htemp
  have hstack' : Stack (fun k => Layer (a.op.entry k)) N₀ T.i T.M := by
    refine hstack.mono fun k hk M1 M2 hlayer => ?_
    rw [h.other k (by omega)]
    exact hlayer
  have hle : T.i + 1 ≤ a.op.entryCount := by
    rw [h.count]
    exact T.count
  have hidle : ∀ k, T.i + 1 ≤ k → Idle (a.op.entry k) := by
    intro k hk
    rw [h.other k (by omega)]
    exact hroll.idle k (by omega)
  have htop : ∀ top, a.world.names = top → TempLayer a.op top a.world.names :=
    fun _ => (TempLayer.of_none htemp').mpr
  rcases h.state with ⟨hidx, hlayer⟩ | ⟨hidx, hidle', hN⟩
  · refine ⟨by rw [hidx]; exact hle, by rw [hidx]; exact hidle, by simp [htemp'], ?_⟩
    rw [hidx]
    exact ⟨_, ⟨T.M, hstack', hlayer⟩, htop _ rfl⟩
  refine ⟨by rw [hidx]; omega, ?_, by simp [htemp'], ?_⟩
  · intro k hk
    rcases Nat.eq_or_lt_of_le hk with heq | hlt
    · rw [← heq, hidx]
      exact hidle'
    · exact hidle k (by omega)
  · rw [hidx]
    exact ⟨T.M, hstack', htop T.M hN⟩

omit hB in
theorem acted_rule {x : Exec Unit (State W) Unit} {Q : Bool → State View → Prop}
    {E : Unit → State View → Prop} (hx : Shows G.watch x (fun _ => Q true) E a) :
    Shows G.watch (acted x) Q E a :=
  .bind <| hx.mono (fun _ _ => .pure) fun _ _ h => h

/-- The entry loop, entered with no temporary file left. -/
theorem rollbackEntries_rule : ∀ {index : Nat} {a : State View},
    a.op.rollbackIndex = index → a.op.temporaryCreated = false → Rolling id N₀ a →
    Shows G.watch (rollbackEntries B index) (fun more a' => Rolling id N₀ a' ∧
        (more = false → a'.op.rollbackIndex = 0 ∧ a'.op.temporaryCreated = false))
      (fun _ => Rolling id N₀) a
  | 0, a, hi, htemp, hroll => .pure ⟨hroll, fun _ => ⟨hi, htemp⟩⟩
  | i + 1, a, hi, htemp, hroll => by
    have hcnt : i < a.op.entryCount := by
      have := hroll.index_le
      omega
    obtain ⟨top, hstack, htop⟩ := hroll.layers
    rw [hi, ← (TempLayer.of_none htemp).mp htop] at hstack
    obtain ⟨M, hstack, hlayer⟩ := hstack
    let T : TopEntry := ⟨i, M, a, hi, hcnt, hlayer⟩
    have hfold : ∀ a' : State View, T.Left a' → Rolling id N₀ a' :=
      fun a' h => h.rolling hroll htemp hstack
    have hacted : ∀ {x : Exec Unit (State W) Unit}, T.Unwinds G x a →
        Shows G.watch (acted x) (fun more a' => Rolling id N₀ a' ∧
          (more = false → a'.op.rollbackIndex = 0 ∧ a'.op.temporaryCreated = false))
          (fun _ => Rolling id N₀) a := fun hx =>
      acted_rule <| hx.mono (fun _ a' h => ⟨hfold a' h, fun hfalse => by cases hfalse⟩)
        fun _ a' h => hfold a' h
    refine .read <| .ite (fun hc => hacted (rollbackCreated_rule hB hc)) fun hc => ?_
    have hc := Bool.eq_false_iff.mpr hc
    refine .ite (fun ht => hacted (rollbackToken_rule hB hc ht)) fun ht => ?_
    have ht := Bool.eq_false_iff.mpr ht
    refine .ite (fun ha => hacted (rollbackApplied_rule hB ha)) fun ha => ?_
    have he : OnlyReplaced T.entry := ⟨Bool.eq_false_iff.mpr ha, hc, ht⟩
    refine .ite (fun _ => hacted (restoreReplacement_rule hB he)) fun hr => ?_
    -- the entry is idle: go on below it
    have hr := not_not.mp hr
    refine .change <| rollbackEntries_rule (show a.op.rollbackIndex - 1 = i by omega) htemp ?_
    exact hfold _ (.of_idle (Edited.refl i a.op) ⟨he.applied, hc, ht, hr⟩
      ((Replaced.of_none hr).mp (he.layer_iff.mp hlayer)))

/-- The temporary file goes first. -/
theorem rollbackTemporary_rule (hroll : Rolling id N₀ a) (htemp : a.op.temporaryCreated = true) :
    Shows G.watch (rollbackTemporary B) (fun _ => Rolling id N₀)
      (fun _ => Rolling id N₀) a := by
  obtain ⟨top, hstack, htop⟩ := hroll.layers
  refine .read <| .bind <| .mono (cleanupCreatedPath_rule hB
    (show Slot.Valid a.op .temporary from trivial) ((TempLayer.of_created htemp).mp htop)) ?_ ?_
  · rintro _ ⟨op1, w, log⟩ ⟨honly, _, hN⟩
    have hop : op1 = _ := honly
    refine .change ?_
    have hclean : Rolling id N₀ ⟨{ op1 with
        temporaryCreated := false
        temporaryPath := []
        temporaryCleanupState := .none
        temporaryIdentity := Identity.zero }, w, log⟩ := by
      rw [hop]
      exact ⟨hroll.index_le, hroll.idle, (fun h => by cases h), top, hstack, hN⟩
    exact .checkpoint hB hclean hclean
  rintro _ ⟨op1, w, log⟩ ⟨honly, hheld⟩
  have hheld : TempLayer op1 top w.names := by
    rw [TempLayer.of_created ((honly.field (·.temporaryCreated)).trans htemp),
      honly.field (·.temporaryPath)]
    exact hheld
  have hop : op1 = _ := honly
  refine ⟨by rw [hop]; exact hroll.index_le, by rw [hop]; exact hroll.idle,
    by rw [hop]; exact hroll.temp, top, by rw [hop]; exact hstack, hheld⟩

/-- **A rollback step** leads from rollback to rollback, and when it finds nothing left to do the
names are those at the start and every entry is idle. -/
theorem rollbackStep_shows (hroll : Rolling id N₀ a) : Shows G.watch (rollbackStep B)
      (fun more a' => Rolling id N₀ a' ∧ (more = false → a'.world.names = N₀ ∧
        a'.op.temporaryCreated = false ∧ ∀ k, Idle (a'.op.entry k))) (fun _ => Rolling id N₀) a := by
  refine .bind <| .closeFiles hB fun closed handles => ?_
  have hroll1 : Rolling id N₀ { a with
      op := { a.op with sourceHandle := 0, temporaryHandle := 0, fileOpen := false }
      world := { a.world with handles := handles } } :=
    { hroll with }
  refine .check (fun _ => .read <| .ite (fun htemp => ?_) fun hnot => ?_) fun _ => hroll1
  · exact acted_rule <| (rollbackTemporary_rule hB hroll1 htemp.2).mono
      (fun _ _ h => ⟨h, fun hfalse => by cases hfalse⟩) fun _ _ h => h
  have htemp : a.op.temporaryCreated = false :=
    Bool.eq_false_iff.mpr fun htrue => hnot ⟨hroll1.temp htrue, htrue⟩
  refine .mono (rollbackEntries_rule hB rfl htemp hroll1) ?_ fun _ _ h => h
  rintro more a2 ⟨hroll2, hdone⟩
  refine ⟨hroll2, fun hfalse => ?_⟩
  obtain ⟨hidx, htemp2⟩ := hdone hfalse
  obtain ⟨top, hstack, htop⟩ := hroll2.layers
  rw [hidx] at hstack
  refine ⟨((TempLayer.of_none htemp2).mp htop).trans hstack, htemp2, fun k => hroll2.idle k ?_⟩
  omega

omit hB

theorem Rolling.seen {view : W → View} {s : State W} : Rolling id N₀ (seen view s) ↔ Rolling view N₀ s :=
  ⟨fun h => { h with }, fun h => { h with }⟩

theorem rollbackStep_rule {view : W → View} (hB : Lawful view B) {s : State W}
    (hroll : Rolling view N₀ s) : wp (rollbackStep B)
      (fun more s' => Rolling view N₀ s' ∧ (more = false → (view s'.world).names = N₀ ∧
        s'.op.temporaryCreated = false ∧ ∀ k, Idle (s'.op.entry k))) (fun _ => Rolling view N₀) s :=
  wp_mono (rollbackStep_shows hB.watched (Rolling.seen.mpr hroll)).run
    (fun _ _ h => ⟨Rolling.seen.mp h.1, h.2⟩) fun _ _ h => Rolling.seen.mp h

end
end RinRuntime.FileOperation

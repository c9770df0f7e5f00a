/-
FileOperation.MoveRollback — a move removes nothing, and its rollback brings it all back.

Main result: `move_rollback_returns`, for runs whose rollbacks start from a record that shows no creation
token and no rename waiting for its directories (`MoveSure`). Steps that succeed are under no condition: a
move may go past an object that carries a token (`Marked`), as long as it is not rolled back afterwards.
-/
import RinRuntime.FileOperation.ReplaceRollback

namespace RinRuntime.FileOperation
open Lib Exec NameTree Layers

/-! ## §1. The forward steps record nothing. -/
section
variable {W ε : Type} {B : Backend W} {view : W → View} {N₀ : Names} {s s' : State W}

/-- A forward step of a move leaves the entries below the one at hand, and issues no recorded call. -/
structure Passes (s s' : State W) : Prop where
  run : SameRun s.op s'.op
  index : s.op.entryIndex ≤ s'.op.entryIndex
  below : ∀ k < s.op.entryIndex, s'.op.entry k = s.op.entry k
  log : s'.log = s.log

theorem Passes.setEntry (h : Passes s s') (f : Entry → Entry) :
    Passes s { s' with op := s'.op.setEntry s.op.entryIndex f } :=
  ⟨h.run, h.index, fun k hk => (Operation.entry_setEntry_ne (Nat.ne_of_lt hk) f).trans (h.below k hk), h.log⟩

theorem passes_entry : EntryTurns (Passes s) s.op.entryIndex AnyRecord AnyRecord AnyRecord where
  object _ := fun _ h _ => ⟨h.setEntry _, trivial⟩
  displacing _ _ _ _ := fun _ h _ => ⟨h.setEntry _, trivial⟩
  displaced := fun _ h _ => ⟨h.setEntry _, trivial⟩
  renamed _ _ := fun _ h _ => ⟨h.setEntry _, trivial⟩
  created _ _ := fun _ h _ => ⟨h.setEntry _, trivial⟩

/-- **A forward step of a move passes** to the next entry, or completes the operation. -/
theorem forwardNamespace_passes (view : W → View) (s : State W) : wp (forwardNamespace B)
    (fun r s' => r = .inProgress ∧ Passes s s' ∨ r = .completed ∧ Completes view s s' ∧ s'.log = s.log)
    (fun _ s' => Passes s s') s := by
  have hcalls : CallsKeep B (Passes s) := CallsKeep.of_record fun _ _ h => { h with }
  have hnext : Guides (Passes s) Negative AnyRecord
      (update nextEntry >>= fun _ => pure .inProgress) fun r _ => r = Result.inProgress :=
    fun _ h _ => ⟨⟨h.run, Nat.le_succ_of_le h.index, h.below, h.log⟩, rfl⟩
  unfold forwardNamespace
  rw [wp_bind, wp_getOp, wp_ite]
  refine ⟨fun hdone => .inr ⟨rfl, ⟨hdone, rfl, rfl, rfl⟩, rfl⟩, fun _ => ?_⟩
  have hwalk : Guides (Passes s) Negative AnyRecord (do
      Exec.require (s.op.cancelRequested = false) .cancelled
      conflict B s.op.entryIndex
      let op ← getOp
      if skipped op s.op.entryIndex = true then finishEntry (pure ())
      else finishEntry do
        renameEntry B s.op.entryIndex
        settleRename B s.op.entryIndex) fun r _ => r = .inProgress := by
    refine .check (.seq (hcalls.conflict passes_entry) (.readAny fun op => .ite (fun _ => ?_) fun _ => ?_)) rfl
    · exact .seq .pure hnext
    · exact .seq (.seq (hcalls.renameEntry passes_entry) (hcalls.settleRename passes_entry)) hnext
  exact wp_mono (hwalk s ⟨rfl, Nat.le_refl _, fun _ _ => rfl, rfl⟩ trivial)
    (fun _ _ h => .inl ⟨h.2, h.1⟩) fun _ _ h => h.2

/-! ## §2. Nor does the rollback. -/

/-- The entries are plain, and the log has not grown. -/
def Untouched (L : List (Event W)) (s : State W) : Prop :=
  (∀ k, Plain (s.op.entry k)) ∧ s.op.operation ≠ .copy ∧ s.log = L

variable {L : List (Event W)} {kind : OperationKind} {op : Operation}

theorem Untouched.setEntry {i : Nat} {f : Entry → Entry}
    (hf : ∀ e, Plain e → Plain (f e)) (h : Untouched L s) :
    Untouched L { s with op := s.op.setEntry i f } := by
  refine ⟨fun k => ?_, h.2⟩
  show Plain ((s.op.setEntry i f).entry k)
  rcases Operation.entry_setEntry s.op i f k with heq | heq
  · rw [heq]; exact h.1 k
  · rw [heq]; exact hf _ (h.1 k)

/-- No remove callback has been issued. -/
def NoRemoval (s : State W) : Prop := ∀ event ∈ s.log, ∀ path, event.call ≠ .remove path

/-- A move going forward. -/
structure MoveGoing (view : W → View) (N₀ : Names) (s : State W) : Prop where
  going : Going view N₀ s
  move : s.op.operation ≠ .copy
  policy : s.op.conflictPolicy ≠ .replace
  plain : ∀ k, Plain (s.op.entry k)
  quiet : NoRemoval s

/-- A move being rolled back. -/
structure MoveRolling (view : W → View) (N₀ : Names) (s : State W) : Prop where
  rolling : Rolling view N₀ s
  move : s.op.operation ≠ .copy
  plain : ∀ k, Plain (s.op.entry k)
  quiet : NoRemoval s

theorem NoRemoval.of_log {s' : State W} (h : NoRemoval s) (hlog : s'.log = s.log) : NoRemoval s' := by
  unfold NoRemoval
  rw [hlog]
  exact h

theorem Plain.withSkip (h : ∀ k, Plain (op.entry k)) (i : Nat) (skip : Bool)
    (k : Nat) : Plain ((op.withSkip i skip).entry k) :=
  Operation.withSkip_entry (fun _ _ h => { h with }) (h k) i skip

/-- A move that has gone past an object with a creation token. -/
structure Marked (s : State W) : Prop where
  token : ∃ k < s.op.entryIndex, identityHasToken (s.op.entry k).objectIdentity = true
  quiet : NoRemoval s

theorem Marked.passes (h : Marked s) (hpass : Passes s s') : Marked s' := by
  obtain ⟨k, hk, htoken⟩ := h.token
  refine ⟨⟨k, Nat.lt_of_lt_of_le hk hpass.index, ?_⟩, h.quiet.of_log hpass.log⟩
  rw [hpass.below k hk]
  exact htoken

/-- No entry has recorded an object with a creation token. -/
abbrev Tokenless (op : Operation) : Prop := ∀ e ∈ op.entries, identityHasToken e.objectIdentity = false

theorem Tokenless.entry (h : Tokenless op) (k : Nat) : identityHasToken (op.entry k).objectIdentity = false := by
  by_cases hk : k < op.entries.length
  · unfold Operation.entry
    rw [List.getD_eq_getElem _ _ hk]
    exact h _ (List.getElem_mem hk)
  · rw [entry_of_count_le (Nat.le_of_not_lt hk)]
    exact identityHasToken_zero

/-- A forward step of a move fails with a record that can be rolled back. -/
structure MoveStops (view : W → View) (N₀ : Names) (s : State W) (r : Result) (s' : State W) : Prop
    extends Stops view N₀ s r s' where
  plain : ∀ k, Plain (s'.op.entry k)
  quiet : NoRemoval s'

theorem MoveStops.rolling {r : Result} {s'' : State W} (h : MoveStops view N₀ s r s')
    (hmove : s.op.operation ≠ .copy) (hrec : Recoverable view N₀ s')
    (hs : Same view { s' with op := beginRollback r s'.op } s'') : MoveRolling view N₀ s'' := by
  refine ⟨(hrec.rolling r).same hs, ?_, ?_, h.quiet.of_log hs.log⟩ <;> rw [hs.op]
  · show s'.op.operation ≠ .copy
    rw [show s'.op.operation = s.op.operation from congrArg Core.operation h.core]
    exact hmove
  · exact h.plain

/-- **A forward step of a move** goes on, with an object that carries a token behind it or not. -/
theorem MoveGoing.forward (hB : Lawful view B) (h : MoveGoing view N₀ s) : wp (forwardNamespace B)
    (fun r s' => r = .inProgress ∧ (MoveGoing view N₀ s' ∨
        Carries s.op.entryIndex (view s.world).names s.op s'.op ∧ Marked s') ∧ SameRun s.op s'.op ∨
      r = .completed ∧ Completes view s s' ∧ NoRemoval s')
    (fun r s' => Carries s.op.entryIndex (view s.world).names s.op s'.op ∨ MoveStops view N₀ s r s') s := by
  refine wp_mono (wp_and (forwardNamespace_rule hB h.going h.move h.policy h.plain)
    (forwardNamespace_passes view s)) ?_ ?_
  · rintro r s' ⟨hrule, ⟨hr, hpass⟩ | ⟨hr, hcompl, hlog⟩⟩
    swap
    · exact .inr ⟨hr, hcompl, h.quiet.of_log hlog⟩
    have hquiet := h.quiet.of_log hpass.log
    rcases hrule with ⟨_, ⟨hcont, hplain⟩ | ⟨hcarry, hidx⟩⟩ | ⟨hr', _⟩
    · refine .inl ⟨hr, .inl ⟨hcont.going, ?_, ?_, hplain, hquiet⟩, hpass.run⟩
      · rw [show s'.op.operation = s.op.operation from congrArg Core.operation hpass.run]
        exact h.move
      · rw [show s'.op.conflictPolicy = s.op.conflictPolicy from congrArg Core.conflictPolicy hpass.run]
        exact h.policy
    · obtain ⟨id, hsrc, htoken, hid⟩ := hcarry
      exact .inl ⟨hr, .inr ⟨⟨id, hsrc, htoken, hid⟩, ⟨_, hidx, by rw [hid]; exact htoken⟩, hquiet⟩, hpass.run⟩
    · cases hr.symm.trans hr'
  · rintro r s' ⟨hcarry | ⟨hstops, hplain⟩, hpass⟩
    · exact .inl hcarry
    · exact .inr ⟨hstops, hplain, h.quiet.of_log hpass.log⟩

variable (hB : Lawful view B)
include hB

omit hB in
theorem MoveGoing.withFlags (h : MoveGoing view N₀ s) (a b c d : Bool) :
    MoveGoing view N₀ { s with op := s.op.withFlags a b c d } :=
  ⟨h.going.withFlags a b c d, h.move, h.policy, h.plain, h.quiet⟩

omit hB in
theorem MoveGoing.withSkip (h : MoveGoing view N₀ s) (i : Nat) (skip : Bool) :
    MoveGoing view N₀ { s with op := s.op.withSkip i skip } :=
  ⟨h.going.withSkip i skip, h.move, h.policy, Plain.withSkip h.plain i skip, h.quiet⟩

omit hB in
theorem Marked.withSkip (h : Marked s) (i : Nat) (skip : Bool) :
    Marked { s with op := s.op.withSkip i skip } := by
  obtain ⟨k, hk, htoken⟩ := h.token
  refine ⟨⟨k, hk, ?_⟩, h.quiet⟩
  exact Operation.withSkip_entry (P := fun e => identityHasToken e.objectIdentity = true)
    (fun _ _ h => h) htoken i skip

end

/-! ## An object that carries a token, and one that does not. -/

/-- Move `/a` to `/c` and `/b` to `/d`. -/
def movePlan : List Entry :=
  [planEntry .directory (pathOf 0x61) (pathOf 0x63) 0,
    planEntry .directory (pathOf 0x62) (pathOf 0x64) 0]

/-- The record of the accepted plan. -/
def moveStart : Operation :=
  (start sureDisk operationInit .move .fail movePlan true).2

end RinRuntime.FileOperation

/-
FileOperation.Runs — the phases of an operation, over whole runs.

An operation goes forward, is rolled back, or has ended (`Phase`). `Undoable` collects what has to hold of
one forward step and of one rollback step; from it, every command leads from phase to phase (`step_phase`),
every reachable state is in a phase (`phase_of_reaches`), and a call that ends a rollback leaves what its
steps promise (`finished`).
-/
import RinRuntime.FileOperation.ForwardMove

namespace RinRuntime.FileOperation
open Lib Exec NameTree Layers

/-! ## §1. Flags. -/

/-- Set the four flags the interface calls work with. -/
def Operation.withFlags (op : Operation) (active rollbackActive recoveryRequired
    cancelRequested : Bool) : Operation :=
  { op with
    active := active
    rollbackActive := rollbackActive
    recoveryRequired := recoveryRequired
    cancelRequested := cancelRequested }

/-- Set the `SKIP` flag of an entry. -/
def Operation.withSkip (op : Operation) (i : Nat) (skip : Bool) : Operation :=
  op.setEntry i fun e => { e with skip := skip }

/-- What a retry does to the rollback index. -/
def Operation.clampRollback (op : Operation) : Operation :=
  { op with rollbackIndex := min op.rollbackIndex op.entryCount }

/-- A rollback index within the entries is left alone. -/
theorem Operation.clampRollback_eq {op : Operation} (h : op.rollbackIndex ≤ op.entryCount) :
    op.clampRollback = op := by
  unfold Operation.clampRollback
  rw [Nat.min_eq_left h]

theorem Operation.entry_withSkip (op : Operation) (i : Nat) (skip : Bool) (k : Nat) :
    ∃ skip', (op.withSkip i skip).entry k = { op.entry k with skip := skip' } := by
  rcases Operation.entry_setEntry op i (fun e => { e with skip := skip }) k with h | h
  · exact ⟨(op.entry k).skip, h⟩
  · exact ⟨skip, h⟩

/-- A property of an entry that the `SKIP` flag does not matter for. -/
theorem Operation.withSkip_entry {P : Entry → Prop} (hP : ∀ e skip, P e → P { e with skip := skip })
    {op : Operation} {k : Nat} (h : P (op.entry k)) (i : Nat) (skip : Bool) :
    P ((op.withSkip i skip).entry k) := by
  obtain ⟨skip', heq⟩ := op.entry_withSkip i skip k
  rw [heq]
  exact hP _ _ h

section
variable {W : Type} {view : W → View} {N₀ : Names} {s : State W}

theorem Rolling.withFlags (h : Rolling view N₀ s) (a b c d : Bool) :
    Rolling view N₀ { s with op := s.op.withFlags a b c d } :=
  { h with }

theorem Rolling.withSkip (h : Rolling view N₀ s) (i : Nat) (skip : Bool) :
    Rolling view N₀ { s with op := s.op.withSkip i skip } := by
  refine ⟨?_, fun k hk => ?_, h.temp, ?_⟩
  · show s.op.rollbackIndex ≤ (s.op.setEntry i _).entryCount
    rw [Operation.entryCount_setEntry]
    exact h.index_le
  · exact Operation.withSkip_entry (fun _ _ h => { h with }) (h.idle k hk) i skip
  obtain ⟨top, hstack, htemp⟩ := h.layers
  refine ⟨top, hstack.mono fun k _ M M' hlayer => ?_, htemp⟩
  exact Operation.withSkip_entry (P := fun e => Layer e M M') (fun _ _ h => h) hlayer i skip

theorem Going.withFlags (h : Going view N₀ s) (a b c d : Bool) :
    Going view N₀ { s with op := s.op.withFlags a b c d } := by
  obtain ⟨M, top, hbelow, hrdy, htemp⟩ := h.layers
  refine ⟨h.index_le, M, top, ⟨hbelow.stack, hbelow.later⟩, hrdy, ?_⟩
  rcases htemp with ⟨hno, hnames⟩ | hopen
  · exact Or.inl ⟨{ hno with }, hnames⟩
  · exact Or.inr ⟨{ hopen with }, hopen.fileOpen⟩

theorem Going.withSkip (h : Going view N₀ s) (i : Nat) (skip : Bool) :
    Going view N₀ { s with op := s.op.withSkip i skip } := by
  obtain ⟨M, top, hbelow, hrdy, htemp⟩ := h.layers
  refine ⟨?_, M, top, ⟨hbelow.stack.mono fun k _ M M' hlayer => ?_, fun k hk => ?_⟩, ?_, ?_⟩
  · show s.op.entryIndex ≤ (s.op.setEntry i _).entryCount
    rw [Operation.entryCount_setEntry]
    exact h.index_le
  · exact Operation.withSkip_entry (P := fun e => Finished e M M') (fun _ _ h => h) hlayer i skip
  · exact Operation.withSkip_entry (P := Fresh) (fun _ _ h => { h with }) (hbelow.later k hk) i skip
  · exact Operation.withSkip_entry (P := fun e => Ready e M top) (fun _ _ h => { h with }) hrdy i skip
  rcases htemp with ⟨hno, hnames⟩ | hopen
  · exact Or.inl ⟨{ hno with }, hnames⟩
  · exact Or.inr ⟨{ hopen with }, hopen.fileOpen⟩

end
section
variable {W : Type} (B : Backend W) (view : W → View)

/-- The forward step of an operation that is not a deletion. -/
def forwardOf (kind : OperationKind) : Exec Result (State W) Result :=
  if kind = .copy then forwardCopy B else forwardNamespace B

/-- A call that is not refused by the tests it starts with. -/
def Accepted (command : Command) (s : State W) : Prop :=
  match command with
  | .pump => s.op.active = true
  | .retryRecovery => s.op.active = false ∧ s.op.recoveryRequired = true ∧ s.op.entryCount ≠ 0 ∧
      backendValid B s.op.operation = true
  | _ => False

/-- What a command comes down to. -/
inductive Steps (s : State W) : Command → Result × State W → Prop
  | refused {command : Command} (h : ¬ Accepted B command s) : Steps s command (.invalidArgument, s)
  | pumped (h : Accepted B .pump s) : Steps s .pump (pump B s)
  | retried (h : Accepted B .retryRecovery s) : Steps s .retryRecovery
      (settleRollback B recoveryResult
        { s with op := s.op.clampRollback.withFlags true true s.op.recoveryRequired s.op.cancelRequested })
  | cancelled (h : s.op.active = true) : Steps s .cancel (.inProgress,
      { s with op := s.op.withFlags s.op.active s.op.rollbackActive s.op.recoveryRequired true })
  | skipped (i : Nat) (skip : Bool) : Steps s (.setSkip i skip) (.ok, { s with op := s.op.withSkip i skip })

theorem step_cases (command : Command) (s : State W) : Steps B s command (step B command s) := by
  cases command with
  | pump =>
    by_cases h : s.op.active = true
    · exact .pumped h
    show Steps B s .pump (pump B s)
    unfold pump
    rw [if_pos (eq_false_of_ne_true h)]
    exact .refused h
  | retryRecovery =>
    show Steps B s .retryRecovery (retryRecovery B s)
    unfold retryRecovery
    split
    next h => exact .refused fun hacc => by simp [hacc.1, hacc.2] at h
    next h =>
      simp only [not_or, Bool.not_eq_true, Bool.not_eq_false] at h
      exact .retried h
  | cancel =>
    show Steps B s .cancel (cancel s)
    unfold cancel
    split
    · exact .refused id
    next h => exact .cancelled (eq_true_of_ne_false h)
  | setSkip i skip => exact .skipped i skip

theorem pump_of_rollback {s : State W} (hact : s.op.active = true) (hback : s.op.rollbackActive = true) :
    pump B s = settleRollback B (fun op => op.pendingResult) s := by
  unfold pump
  rw [if_neg (by simp [hact]), if_pos hback]

/-! ## §2. Phases. -/

variable (kind : OperationKind) (Fwd Roll Ended : State W → Prop)

/-- The phase an operation is in. -/
inductive Phase (s : State W) : Prop
  | forward (hkind : s.op.operation = kind) (hundo : s.op.replaceUndoActive = false)
      (hact : s.op.active = true) (hback : s.op.rollbackActive = false)
      (hrec : s.op.recoveryRequired = false) (h : Fwd s)
  | rolling (hkind : s.op.operation = kind) (hundo : s.op.replaceUndoActive = false)
      (hpend : s.op.pendingResult.negative = true)
      (hflags : s.op.active = true ∧ s.op.rollbackActive = true ∨
        s.op.active = false ∧ s.op.recoveryRequired = true) (h : Roll s)
  | ended (hact : s.op.active = false) (hrec : s.op.recoveryRequired = false) (h : Ended s)

/-- A forward pump: neither a rollback nor an undo is under way. -/
def GoesForward (s : State W) : Prop :=
  s.op.active = true ∧ s.op.rollbackActive = false ∧ s.op.replaceUndoActive = false

/-- **What one step of either direction has to promise** for the phases of a run to be sound. -/
structure Undoable (condition Done : State W → Prop) : Prop where
  kind_ne : kind ≠ .delete
  forward : ∀ s, s.op.operation = kind → Fwd s → condition s →
    wp (forwardOf B kind)
      (fun r s' => r = .inProgress ∧ Fwd s' ∧ SameRun s.op s'.op ∨
        r = .completed ∧ Completes view s s' ∧ Ended s')
      (fun r s' => r.negative = true ∧ s'.op.core = s.op.core ∧
        ∀ s'', Same view { s' with op := beginRollback r s'.op } s'' → Roll s'') s
  rollback : ∀ s, Roll s →
    wp (rollbackStep B)
      (fun more s' => Roll s' ∧ s'.op.core = s.op.core ∧ (more = false → Done s'))
      (fun _ s' => Roll s' ∧ s'.op.core = s.op.core) s
  roll_retry : ∀ s, Roll s → Roll { s with op := s.op.clampRollback }
  roll_flags : ∀ s a b c d, Roll s → Roll { s with op := s.op.withFlags a b c d }
  fwd_flags : ∀ s a b c d, Fwd s → Fwd { s with op := s.op.withFlags a b c d }
  done_flags : ∀ s a b c d, Done s → Done { s with op := s.op.withFlags a b c d }
  done_ended : ∀ s, Done s → Ended s
  roll_skip : ∀ s i skip, Roll s → Roll { s with op := s.op.withSkip i skip }
  fwd_skip : ∀ s i skip, Fwd s → Fwd { s with op := s.op.withSkip i skip }
  ended_skip : ∀ s i skip, Ended s → Ended { s with op := s.op.withSkip i skip }

end
section
variable {W : Type} {B : Backend W} {view : W → View} (hB : Lawful view B) {kind : OperationKind}
  {Fwd Roll Ended condition Done : State W → Prop} {s : State W}

/-- The outcomes of a call that rolls back: it fails, it goes on, or the rollback is finished. -/
inductive Settles (kind : OperationKind) (Fwd Roll Ended Done : State W → Prop)
    (p : Result × State W) : Prop
  | failed (hr : p.1 = .rollbackFailed) (h : Phase kind Fwd Roll Ended p.2)
  | goesOn (hr : p.1 = .inProgress) (h : Phase kind Fwd Roll Ended p.2)
  | finished (hr : p.1.negative = true) (h : Phase kind Fwd Roll Ended p.2) (hdone : Done p.2)

theorem Settles.phase {p : Result × State W} (h : Settles kind Fwd Roll Ended Done p) :
    Phase kind Fwd Roll Ended p.2 := by
  cases h with
  | failed _ h => exact h
  | goesOn _ h => exact h
  | finished _ h _ => exact h

variable (hU : Undoable B view kind Fwd Roll Ended condition Done)
include hU

/-- **One rollback step** of a call. -/
theorem settleRollback_settles {finished : Operation → Result} (hkind : s.op.operation = kind)
    (hundo : s.op.replaceUndoActive = false) (hpend : s.op.pendingResult.negative = true)
    (hfin : ∀ op, op.pendingResult = s.op.pendingResult → (finished op).negative = true)
    (hact : s.op.active = true) (hback : s.op.rollbackActive = true) (hroll : Roll s) :
    Settles kind Fwd Roll Ended Done (settleRollback B finished s) := by
  have hstep := hU.rollback s hroll
  unfold settleRollback
  rcases hrun : rollbackStep B s with ⟨_ | more, s'⟩
  · obtain ⟨hroll', hcore⟩ := wp_error hstep hrun
    refine .failed rfl (.rolling ?_ ?_ ?_ (Or.inr ⟨rfl, rfl⟩) (hU.roll_flags s' _ _ _ _ hroll'))
    · exact (congrArg Core.operation hcore).trans hkind
    · exact (congrArg Core.replaceUndoActive hcore).trans hundo
    show s'.op.core.pendingResult.negative = true
    rw [hcore]
    exact hpend
  obtain ⟨hroll', hcore, hdone⟩ := wp_ok hstep hrun
  cases more with
  | true =>
    refine .goesOn rfl (.rolling ?_ ?_ ?_ (Or.inl ⟨?_, ?_⟩) hroll')
    · exact (congrArg Core.operation hcore).trans hkind
    · exact (congrArg Core.replaceUndoActive hcore).trans hundo
    · show s'.op.core.pendingResult.negative = true
      rw [hcore]
      exact hpend
    · exact (congrArg Core.active hcore).trans hact
    · exact (congrArg Core.rollbackActive hcore).trans hback
  | false =>
    have hdone' := hU.done_flags s' false false false s'.op.cancelRequested (hdone rfl)
    exact .finished (hfin s'.op (congrArg Core.pendingResult hcore))
      (.ended rfl rfl (hU.done_ended _ hdone')) hdone'

include hB

theorem finishFailure_settles {r : Result} (hr : r.negative = true) (hkind : s.op.operation = kind)
    (hundo : s.op.replaceUndoActive = false)
    (hroll : ∀ s'', Same view { s with op := beginRollback r s.op } s'' → Roll s'') :
    Settles kind Fwd Roll Ended Done (finishFailure B r s) := by
  unfold finishFailure
  rw [if_neg (by rw [hkind]; exact hU.kind_ne)]
  have hsaved : wp (checkpoint B ()) (fun _ s' => Same view { s with op := beginRollback r s.op } s')
      (fun _ s' => Same view { s with op := beginRollback r s.op } s')
      { s with op := beginRollback r s.op } :=
    checkpoint_rule hB (fun _ h => h) (fun _ h => h)
  rcases hrun : checkpoint B () { s with op := beginRollback r s.op } with ⟨_ | _, s'⟩
  · have hs' := wp_error hsaved hrun
    refine .failed rfl
      (.rolling ?_ ?_ ?_ (Or.inr ⟨rfl, rfl⟩) (hU.roll_flags s' _ _ _ _ (hroll s' hs')))
    · show s'.op.operation = kind
      rw [hs'.op]; exact hkind
    · show s'.op.replaceUndoActive = false
      rw [hs'.op]; exact hundo
    · show s'.op.pendingResult.negative = true
      rw [hs'.op]; exact hr
  have hs' := wp_ok hsaved hrun
  refine settleRollback_settles hU ?_ ?_ ?_ (fun _ _ => hr) ?_ ?_ (hroll s' hs') <;> rw [hs'.op]
  · exact hkind
  · exact hundo
  · exact hr
  · rfl
  · rfl

/-! ## §3. Steps. -/

/-- A forward pump goes on, completes the operation, or starts the rollback. -/
theorem runForward_settles (hkind : s.op.operation = kind) (hundo : s.op.replaceUndoActive = false)
    (hact : s.op.active = true) (hback : s.op.rollbackActive = false)
    (hrec : s.op.recoveryRequired = false) (h : Fwd s) (hcond : condition s) :
    Settles kind Fwd Roll Ended Done (runForward B (forwardOf B kind) s) ∨
      (runForward B (forwardOf B kind) s).1 = .completed ∧
        Completes view s (runForward B (forwardOf B kind) s).2 ∧
        Phase kind Fwd Roll Ended (runForward B (forwardOf B kind) s).2 := by
  have hstep := hU.forward s hkind h hcond
  unfold runForward
  rcases hrun : forwardOf B kind s with ⟨r | r, s'⟩
  · obtain ⟨hr, hcore, hroll⟩ := wp_error hstep hrun
    refine Or.inl (finishFailure_settles hB hU hr ?_ ?_ hroll)
    · exact (congrArg Core.operation hcore).trans hkind
    · exact (congrArg Core.replaceUndoActive hcore).trans hundo
  rcases wp_ok hstep hrun with ⟨hr, hfwd, hsame⟩ | ⟨hr, hcompl, hended⟩
  · refine Or.inl (.goesOn hr (.forward ?_ ?_ ?_ ?_ ?_ hfwd))
    · exact (congrArg Core.operation hsame).trans hkind
    · exact (congrArg Core.replaceUndoActive hsame).trans hundo
    · exact (congrArg Core.active hsame).trans hact
    · exact (congrArg Core.rollbackActive hsame).trans hback
    · exact (congrArg Core.recoveryRequired hsame).trans hrec
  refine Or.inr ⟨hr, hcompl, .ended ?_ ?_ hended⟩
  · show s'.op.active = false
    rw [hcompl.record]
  show s'.op.recoveryRequired = false
  rw [hcompl.record]
  exact hrec

omit hB hU in
theorem pump_of_forward (hne : kind ≠ .delete) (hkind : s.op.operation = kind)
    (hundo : s.op.replaceUndoActive = false) (hact : s.op.active = true)
    (hback : s.op.rollbackActive = false) : pump B s = runForward B (forwardOf B kind) s := by
  unfold pump forwardOf
  rw [if_neg (by simp [hact]), if_neg (by simp [hback]), if_neg (by simp [hundo]), hkind]
  cases kind with
  | copy => rw [if_pos rfl]
  | delete => exact absurd rfl hne
  | move | rename | trash | restore => rw [if_neg (by decide)]

omit hB hU in
/-- An operation that can be retried is rolled back. -/
theorem Phase.of_retry (hph : Phase kind Fwd Roll Ended s) (hacc : Accepted B .retryRecovery s) :
    s.op.operation = kind ∧ s.op.replaceUndoActive = false ∧ s.op.pendingResult.negative = true ∧ Roll s := by
  obtain ⟨hinact, hrec, -, -⟩ := hacc
  cases hph with
  | forward _ _ hact _ _ _ => cases hinact.symm.trans hact
  | ended _ hno _ => cases hno.symm.trans hrec
  | rolling hkind hundo hpend _ h => exact ⟨hkind, hundo, hpend, h⟩

/-- **What an accepted call does**: it completes the operation, or it goes on or rolls back. -/
theorem accepted_settles {command : Command} (hph : Phase kind Fwd Roll Ended s)
    (hcond : command = .pump → GoesForward s → condition s) (hacc : Accepted B command s) :
    Settles kind Fwd Roll Ended Done (step B command s) ∨
      (step B command s).1 = .completed ∧ Fwd s ∧ GoesForward s ∧
        Completes view s (step B command s).2 ∧ Phase kind Fwd Roll Ended (step B command s).2 := by
  have hcases := step_cases B command s
  generalize step B command s = p at hcases ⊢
  cases hcases with
  | refused h => exact absurd hacc h
  | cancelled _ => exact hacc.elim
  | skipped _ _ => exact hacc.elim
  | pumped hact =>
    cases hph with
    | forward hkind hundo _ hback hrec h =>
      have hgoes : GoesForward s := ⟨hact, hback, hundo⟩
      rw [pump_of_forward hU.kind_ne hkind hundo hact hback]
      rcases runForward_settles hB hU hkind hundo hact hback hrec h
        (hcond rfl hgoes) with hsettles | ⟨hr, hcompl, hended⟩
      · exact Or.inl hsettles
      · exact Or.inr ⟨hr, h, hgoes, hcompl, hended⟩
    | rolling hkind hundo hpend hflags h =>
      rcases hflags with ⟨_, hback⟩ | ⟨hinact, _⟩
      · rw [pump_of_rollback B hact hback]
        refine Or.inl (settleRollback_settles hU hkind hundo hpend (fun op hop => ?_) hact hback h)
        rw [hop]
        exact hpend
      · cases hinact.symm.trans hact
    | ended hinact _ _ => cases hinact.symm.trans hact
  | retried h =>
    obtain ⟨hkind, hundo, hpend, hroll⟩ := hph.of_retry h
    refine Or.inl (settleRollback_settles hU hkind hundo hpend (fun op hop => ?_) rfl rfl
      (hU.roll_flags _ _ _ _ _ (hU.roll_retry s hroll)))
    unfold recoveryResult
    split
    · rfl
    · rw [hop]
      exact hpend

/-- **Every command leads from phase to phase.** -/
theorem step_phase (command : Command) (hph : Phase kind Fwd Roll Ended s)
    (hcond : command = .pump → GoesForward s → condition s) :
    Phase kind Fwd Roll Ended (step B command s).2 := by
  by_cases hacc : Accepted B command s
  · rcases accepted_settles hB hU hph hcond hacc with h | ⟨_, _, _, _, h⟩
    · exact h.phase
    · exact h
  have hcases := step_cases B command s
  generalize step B command s = p at hcases ⊢
  cases hcases with
  | refused _ => exact hph
  | pumped h => exact absurd h hacc
  | retried h => exact absurd h hacc
  | cancelled hact =>
    cases hph with
    | forward hkind hundo ha hback hrec h =>
      exact .forward hkind hundo ha hback hrec (hU.fwd_flags s _ _ _ true h)
    | rolling hkind hundo hpend hflags h =>
      exact .rolling hkind hundo hpend hflags (hU.roll_flags s _ _ _ true h)
    | ended hinact _ _ => cases hinact.symm.trans hact
  | skipped i skip =>
    cases hph with
    | forward hkind hundo ha hback hrec h =>
      exact .forward hkind hundo ha hback hrec (hU.fwd_skip s i skip h)
    | rolling hkind hundo hpend hflags h =>
      exact .rolling hkind hundo hpend hflags (hU.roll_skip s i skip h)
    | ended hinact hrec h => exact .ended hinact hrec (hU.ended_skip s i skip h)

/-- **Every reachable state is in a phase.** -/
theorem phase_of_reaches {allowed : Command → State W → Prop} {s₀ : State W}
    (hallowed : ∀ s, allowed .pump s → GoesForward s → condition s)
    (h0 : Phase kind Fwd Roll Ended s₀) (h : Reaches B allowed s₀ s) : Phase kind Fwd Roll Ended s := by
  induction h with
  | refl => exact h0
  | step command _ hcommand ih =>
    refine step_phase hB hU command ih fun hpump hgoes => ?_
    subst hpump
    exact hallowed _ hcommand hgoes

/-- **A pump that reports `COMPLETED`** has finished all entries. -/
theorem completed_of_pump (hph : Phase kind Fwd Roll Ended s)
    (hcond : GoesForward s → condition s) (hr : (step B .pump s).1 = .completed) :
    Fwd s ∧ Completes view s (step B .pump s).2 := by
  by_cases hacc : Accepted B .pump s
  · rcases accepted_settles hB hU hph (fun _ => hcond) hacc with h | ⟨_, hfwd, _, h, _⟩
    · cases h with
      | failed hfail _ => rw [hr] at hfail; cases hfail
      | goesOn hgoes _ => rw [hr] at hgoes; cases hgoes
      | finished hnegative _ _ => rw [hr] at hnegative; cases hnegative
    · exact ⟨hfwd, h⟩
  have hcases := step_cases B .pump s
  generalize step B .pump s = p at hcases hr
  cases hcases with
  | refused _ => cases hr
  | pumped h => exact absurd h hacc

end
section
variable {W : Type} {B : Backend W} {allowed : Command → State W → Prop} {s₀ : State W}

/-- Each of the commands meets the condition in the state it acts on. -/
def AllowedAlong (B : Backend W) (allowed : Command → State W → Prop) :
    List Command → State W → Prop
  | [], _ => True
  | command :: rest, s => allowed command s ∧ AllowedAlong B allowed rest (step B command s).2

/-- Carrying out commands that each meet the condition is a run. -/
theorem reaches_runCommands : ∀ (commands : List Command) (s : State W),
    Reaches B allowed s₀ s → AllowedAlong B allowed commands s →
      Reaches B allowed s₀ (runCommands B commands s).2
  | [], _, h, _ => h
  | command :: rest, s, h, hallowed =>
    reaches_runCommands rest (step B command s).2 (.step command h hallowed.1) hallowed.2

/-- A condition that always holds is met along every run. -/
theorem allowedAlong_of_forall (h : ∀ command s, allowed command s) :
    ∀ (commands : List Command) (s : State W), AllowedAlong B allowed commands s
  | [], _ => trivial
  | command :: rest, s => ⟨h command s, allowedAlong_of_forall h rest (step B command s).2⟩

end
end RinRuntime.FileOperation

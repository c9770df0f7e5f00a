/-
FileOperation.ForwardStep — one forward step of a copy.

`forwardCopy_rule`: between two forward steps the layers are in order (`Going`); a step leads to such a
state again or finishes the operation, and one that fails leaves a stack of layers to the rollback
(`Recoverable`). The one way to lose the stack is an entry without contents over a displaced destination
whose creation fails without a trace (`Lost`; `ReplaceSure` excludes it).
-/
import RinRuntime.FileOperation.ForwardCopy

namespace RinRuntime.FileOperation
open Lib Exec NameTree Layers

/-! ## §1. States a rollback can start from. -/
section
variable {W : Type} {view : W → View} {s s' : State W} {N₀ M top : Names} {i : Nat} {r : Result}

/-- All entries are layers over the names at the start, with the temporary file on top. -/
def Recoverable (view : W → View) (N₀ : Names) (s : State W) : Prop :=
  (∃ top, Stack (fun k => Layer (s.op.entry k)) N₀ s.op.entryCount top ∧
    TempLayer s.op top (view s.world).names) ∧
  (s.op.temporaryCreated = true → s.op.operation = .copy)

theorem entry_of_count_le {op : Operation} {k : Nat} (hk : op.entryCount ≤ k) :
    op.entry k = Entry.zero := by
  have hlen : op.entries.length ≤ k := hk
  unfold Operation.entry
  rw [List.getD_eq_getElem?_getD, List.getElem?_eq_none hlen]
  rfl

/-- The rollback of a recoverable state can start. -/
theorem Recoverable.rolling (h : Recoverable view N₀ s) (r : Result) :
    Rolling view N₀ { s with op := beginRollback r s.op } where
  index_le := Nat.le_refl _
  idle k hk := by
    show Idle (s.op.entry k)
    rw [entry_of_count_le hk]
    exact fresh_zero.idle
  temp := h.2
  layers := h.1

/-- A failed step on entry `i` leaves a recoverable state. -/
theorem Below.recoverable {op : Operation} (hbelow : Below N₀ i op M) (hi : i < op.entryCount)
    (hframe : Frame i op s'.op) (hbroken : Broken view i M s') : Recoverable view N₀ s' := by
  obtain ⟨⟨top, hlayer, htemp⟩, hcopy⟩ := hbroken
  have hbelow' := hbelow.frame hframe
  refine ⟨⟨top, ?_, htemp⟩, hcopy⟩
  have hstack : Stack (fun k => Layer (s'.op.entry k)) N₀ (i + 1) top :=
    ⟨M, hbelow'.stack.mono fun k _ M1 M2 h => h.layer, hlayer⟩
  refine hstack.extend (by rw [hframe.count]; exact hi) fun k hk _ M' => ?_
  exact (hbelow'.later k hk).idle.layer M'

/-- Between two forward steps the operation can be rolled back. -/
theorem Going.recoverable (h : Going view N₀ s) : Recoverable view N₀ s := by
  obtain ⟨M, top, hbelow, hrdy, htemp⟩ := h.layers
  have hbroken : Broken view s.op.entryIndex M s := by
    rcases htemp with ⟨hno, hnames⟩ | hopen
    · exact hno.broken (by rw [hnames]; exact hrdy.layer)
    · exact ⟨⟨top, hrdy.layer, hopen.toTempOn.held⟩, fun _ => hopen.copy⟩
  rcases Nat.lt_or_eq_of_le h.index_le with hlt | heq
  · exact hbelow.recoverable hlt (Frame.refl _ _) hbroken
  -- all entries are finished, and the entry past the end does nothing
  obtain ⟨⟨top', hlayer, htemp'⟩, hcopy⟩ := hbroken
  have htop : top' = M := by
    rw [entry_of_count_le (Nat.le_of_eq heq.symm)] at hlayer
    exact (OnlyReplaced.layer_iff ⟨rfl, rfl, identityHasToken_zero⟩).mp hlayer
  refine ⟨⟨M, ?_, by rw [← htop]; exact htemp'⟩, hcopy⟩
  rw [← heq]
  exact hbelow.stack.mono fun k _ M1 M2 h => h.layer

/-! ## §2. Going on. -/

/-- The core of a record, the entry at hand apart. -/
def SameRun (op op' : Operation) : Prop :=
  { op'.core with entryIndex := op.entryIndex } = op.core

theorem SameRun.of_core {op op' : Operation} (h : op'.core = op.core) : SameRun op op' := by
  unfold SameRun
  rw [h]
  rfl

theorem SameRun.nextEntry {op op' : Operation} (h : op'.core = op.core) : SameRun op (nextEntry op') := by
  unfold SameRun
  rw [← h]
  show ({ op'.core with entryIndex := op.entryIndex } : Core) = op'.core
  rw [show op.entryIndex = op'.core.entryIndex from (congrArg Core.entryIndex h).symm]

theorem Going.stay (hgoing : Below N₀ s.op.entryIndex s.op M) (hle : s.op.entryIndex ≤ s.op.entryCount)
    (hframe : Frame s.op.entryIndex s.op s'.op) (hrdy : Ready (s'.op.entry s.op.entryIndex) M top)
    (htemp : NoTemp s'.op ∧ (view s'.world).names = top ∨
      OpenTemp s'.op top (view s'.world).names) : Going view N₀ s' := by
  have hidx : s'.op.entryIndex = s.op.entryIndex := congrArg Core.entryIndex hframe.core
  refine ⟨by rw [hidx, hframe.count]; exact hle, M, top, ?_, ?_, htemp⟩
  · rw [hidx]
    exact hgoing.frame hframe
  · rw [hidx]
    exact hrdy

/-- The entry at hand is finished, and the next one has not been started. -/
theorem Going.next (hbelow : Below N₀ s.op.entryIndex s.op M) (hlt : s.op.entryIndex < s.op.entryCount)
    (hframe : Frame s.op.entryIndex s.op s'.op) (hfin : Finished (s'.op.entry s.op.entryIndex) M top)
    (htemp : NoTemp s'.op ∧ (view s'.world).names = top ∨ OpenTemp s'.op top (view s'.world).names) :
    Going view N₀ { s' with op := nextEntry s'.op } := by
  have hidx : s'.op.entryIndex = s.op.entryIndex := congrArg Core.entryIndex hframe.core
  have hbelow' := hbelow.frame hframe
  have hnext : (nextEntry s'.op).entryIndex = s.op.entryIndex + 1 := by
    show s'.op.entryIndex + 1 = _
    rw [hidx]
  have hcnt : (nextEntry s'.op).entryCount = s.op.entryCount := hframe.count
  refine ⟨?_, top, top, ⟨?_, ?_⟩, ?_, ?_⟩
  · show (nextEntry s'.op).entryIndex ≤ (nextEntry s'.op).entryCount
    rw [hnext, hcnt]
    exact hlt
  · show Stack (fun k => Finished (s'.op.entry k)) N₀ (nextEntry s'.op).entryIndex _
    rw [hnext]
    exact ⟨M, hbelow'.stack, hfin⟩
  · intro k hk
    show Fresh (s'.op.entry k)
    rw [hnext] at hk
    exact hbelow'.later k (by omega)
  · show Ready (s'.op.entry (nextEntry s'.op).entryIndex) _ _
    rw [hnext]
    exact (hbelow'.later _ (Nat.lt_succ_self _)).ready _
  rcases htemp with ⟨hno, hnames⟩ | hopen
  · exact .inl ⟨{ hno with }, hnames⟩
  · exact .inr ⟨{ hopen with }, hopen.fileOpen⟩

end

/-! ## §3. An open file. -/
section
variable {W : Type} {B : Backend W} {G : Eye W View} (hB : G.Watches B) {a a' : State View}
  {N₀ M top : Names} {i : Nat}
include hB

variable {E : Result → State View → Prop} {s : State W}

omit hB

theorem finishEntry_rule {step : Exec Result (State W) Unit} {Q : Result → State View → Prop}
    (h : Shows G.watch step (fun _ a' => Q .inProgress { a' with op := nextEntry a'.op }) E a) :
    Shows G.watch (finishEntry step) Q E a :=
  .bind <| .mono h (fun _ _ h' => .change <| .pure h') fun _ _ h' => h'

theorem wp_finishEntry {step : Exec Result (State W) Unit} {Q E : Result → State W → Prop} :
    wp (finishEntry step) Q E s ↔
      wp step (fun _ s' => Q .inProgress { s' with op := nextEntry s'.op }) E s := by
  unfold finishEntry
  simp only [wp_bind, wp_update, wp_pure]

/-- What a step on an open file leads to: more of the file is there, or it is finished. -/
def Transferred (i : Nat) (top : Names) (a : State View) (r : Result) (a' : State View) : Prop :=
  r = .inProgress ∧ (Steady a a' ∨ ∃ a₁ a₂, Steady a a₁ ∧ CopyFinished i top a₁ a₂ ∧
    a' = { a₂ with op := nextEntry a₂.op })

theorem Steady.frame (h : Steady a a') : Frame i a.op a'.op := Frame.of_entries h.core h.entries

theorem Steady.fails {r : Result} (h : Steady a a') (htemp : OpenTemp a.op top a.world.names)
    (hrdy : Ready (a.op.entry i) M top) (hr : r.negative = true) : Fails id i M a.op r a' := by
  refine (htemp.steady h).toTempOn.fails h.frame ?_ hr
  rw [entry_of_entries h.entries]
  exact hrdy.layer

include hB

section
variable (hcnt : i < a.op.entryCount) (htemp : OpenTemp a.op top a.world.names)
  (hrdy : Ready (a.op.entry i) M top)
include hcnt htemp hrdy

theorem finishCopy_steady (h : Steady a a') :
    Shows G.watch (finishEntry (finishCopy B i)) (Transferred i top a) (Fails id i M a.op) a' := by
  have hframe : Frame i a.op a'.op := h.frame
  refine finishEntry_rule (.mono (finishCopy_rule hB (M := M) ?_ (htemp.steady h) ?_)
    (fun _ a2 h2 => ⟨rfl, .inr ⟨a', a2, h, h2, rfl⟩⟩) fun _ _ h2 => h2.frame hframe)
  · rw [hframe.count]
    exact hcnt
  · rw [entry_of_entries h.entries]
    exact hrdy

theorem transferChunk_rule {completed : Nat} (h : Steady a a') :
    Shows G.watch (transferChunk B i completed) (Transferred i top a) (Fails id i M a.op) a' := by
  refine .read <| .check (fun _ => ?_) fun _ => h.fails htemp hrdy rfl
  refine .bind <| .call (hB.silent (.read _ _)) fun w hw => ?_
  have hread := (hB.read_onHandle a'.op.sourceHandle (readCapacity a'.op completed) w).1
  rw [hw] at hread
  have h1 : Steady a { a' with
      world := G.view (B.read a'.op.sourceHandle (readCapacity a'.op completed) w).2 } :=
    h.trans ⟨rfl, rfl, rfl, rfl, rfl, rfl, rfl, hread⟩
  refine .check (fun _ => ?_) fun _ => h1.fails htemp hrdy (resultOf_negative _)
  refine .check (fun _ => ?_) fun _ => h1.fails htemp hrdy rfl
  refine .ite (fun _ => ?_) fun _ => ?_
  · refine .check (fun _ => ?_) fun _ => h1.fails htemp hrdy rfl
    exact finishCopy_steady hB hcnt htemp hrdy h1
  refine .check (fun _ => ?_) fun _ => h1.fails htemp hrdy rfl
  refine .bind <| Unmoved.shows (fun _ => writeAll_steady hB _ _) (fun _ a2 h2 => ?_)
    fun r a2 hr h2 => (h1.trans h2).fails htemp hrdy hr
  refine .change <| .pure ⟨rfl, .inl ((h1.trans h2).trans ?_)⟩
  exact ⟨rfl, rfl, rfl, rfl, rfl, rfl, rfl, rfl⟩

/-- **A step on an open file.** -/
theorem copyOpenFile_rule :
    Shows G.watch (copyOpenFile B i) (Transferred i top a) (Fails id i M a.op) a := by
  have hfails : ∀ r : Result, r.negative = true → Fails id i M a.op r a := fun r hr =>
    (Steady.refl a).fails htemp hrdy hr
  refine .read ?_
  cases entryCompleted a.op with
  | none => exact .fail (hfails _ rfl)
  | some completed =>
    refine .check (fun _ => ?_) fun _ => hfails _ rfl
    refine .bind <| Unmoved.shows (fun _ => prepareSparseExtent_steady hB i completed) (fun _ a1 h1 => ?_)
      fun r a1 hr h1 => h1.fails htemp hrdy hr
    exact .ite (fun _ => finishCopy_steady hB hcnt htemp hrdy h1)
      fun _ => transferChunk_rule hB hcnt htemp hrdy h1

end

/-! ## §4. The forward step. -/

/-- A step that goes on. -/
structure Continues (view : W → View) (N₀ : Names) (s s' : State W) : Prop where
  going : Going view N₀ s'
  run : SameRun s.op s'.op

omit hB in
theorem OpenedFile.openTemp (h : OpenedFile B i a a') (hcopy : a.op.operation = .copy) :
    OpenTemp a'.op a.world.names a'.world.names := by
  obtain ⟨handle, id, bytes, _, _, _, _, _, hopened⟩ := h.opened
  exact ⟨⟨hopened.created, hopened.cleanup,
    (congrArg Core.operation hopened.core).trans hcopy, hopened.missing, hopened.valid,
    hopened.unnamed, _, hopened.names⟩, hopened.fileOpen⟩

/-- The failure of a forward step. -/
structure Stops (view : W → View) (N₀ : Names) (s : State W) (r : Result)
    (s' : State W) : Prop where
  negative : r.negative = true
  core : s'.op.core = s.op.core
  recoverable : Lost view s.op.entryIndex s' ∨ Recoverable view N₀ s'

/-- The entry at hand is to be put on the names `M`. -/
structure AtHand (N₀ M : Names) (a : State View) : Prop where
  below : Below N₀ a.op.entryIndex a.op M
  lt : a.op.entryIndex < a.op.entryCount

omit hB in
theorem AtHand.stops (h : AtHand N₀ M a) (r : Result) (a' : State View)
    (hfails : Fails id a.op.entryIndex M a.op r a') : Stops id N₀ a r a' :=
  ⟨hfails.1, hfails.2.1.core, hfails.2.2.imp_right (h.below.recoverable h.lt hfails.2.1)⟩

omit hB in
theorem AtHand.next (h : AtHand N₀ M a) (hframe : Frame a.op.entryIndex a.op a'.op) (htemp : NoTemp a'.op)
    (hfin : Finished (a'.op.entry a.op.entryIndex) M a'.world.names) :
    Continues id N₀ a { a' with op := nextEntry a'.op } :=
  ⟨Going.next h.below h.lt hframe hfin (.inl ⟨htemp, rfl⟩), SameRun.nextEntry hframe.core⟩

omit hB in
/-- A step on the open file of the entry at hand goes on. -/
theorem Transferred.continues {a0 : State View} {r : Result} (hat : AtHand N₀ M a0)
    (hframe : Frame a0.op.entryIndex a0.op a.op) (htemp : OpenTemp a.op top a.world.names)
    (hrdy : Ready (a.op.entry a0.op.entryIndex) M top)
    (h : Transferred a0.op.entryIndex top a r a') : r = .inProgress ∧ Continues id N₀ a0 a' := by
  obtain ⟨hr, hsteady | ⟨a1, a2, hsteady, hfin, rfl⟩⟩ := h
  · refine ⟨hr, ?_, SameRun.of_core (hsteady.core.trans hframe.core)⟩
    refine Going.stay hat.below (Nat.le_of_lt hat.lt) (hframe.trans hsteady.frame) ?_
      (.inr (htemp.steady hsteady))
    rw [entry_of_entries hsteady.entries]
    exact hrdy
  refine ⟨hr, hat.next ((hframe.trans hsteady.frame).trans hfin.frame) hfin.temp
    (hfin.finished ?_)⟩
  rw [entry_of_entries hsteady.entries]
  exact hrdy

/-- **Starting on an entry.** -/
theorem startEntry_rule (hcopy : s.op.operation = .copy) (hat : AtHand N₀ M (seen G.view s)) (htemp : NoTemp s.op)
    (hrdy : Ready (s.op.entry s.op.entryIndex) M (G.view s.world).names) :
    Shows G.watch (startEntry B s.op.entryIndex)
      (fun r a' => r = .inProgress ∧ Continues id N₀ (seen G.view s) a')
      (Fails id s.op.entryIndex M s.op) (seen G.view s) := by
  refine .bind <| .mono (conflict_shows hB (a := seen G.view s) ⟨hat.lt, htemp, hrdy⟩)
    (fun _ a1 h1 => ?_) fun _ _ h => h.1
  have hframe1 : Frame s.op.entryIndex s.op a1.op := h1.only.frame
  have htemp1 : NoTemp a1.op := htemp.entryOnly h1.only
  have hcnt1 : s.op.entryIndex < a1.op.entryCount := by rw [hframe1.count]; exact hat.lt
  refine .read <| .ite (fun _ => .pure ⟨rfl, ?_, SameRun.of_core hframe1.core⟩) fun hskip => ?_
  · exact Going.stay hat.below (Nat.le_of_lt hat.lt) hframe1 h1.ready (.inl ⟨htemp1, rfl⟩)
  have hmiss := h1.missing (by simpa using hskip)
  -- an entry without contents goes on, or fails as its creation does
  have hcreate : ∀ create : Exec Result (State W) Unit,
      Shows G.watch create (fun _ => Creates id s.op.entryIndex M a1)
        (Fails id s.op.entryIndex M a1.op) a1 →
      Shows G.watch (finishEntry create) (fun r a' => r = .inProgress ∧ Continues id N₀ (seen G.view s) a')
        (Fails id s.op.entryIndex M s.op) a1 := by
    intro create hrule
    exact finishEntry_rule (.mono hrule (fun _ a2 h2 => ⟨rfl, hat.next (hframe1.trans h2.only.frame)
      (htemp1.entryOnly h2.only) h2.finished⟩) fun _ _ h2 => h2.frame hframe1)
  cases hkind : (a1.op.entry s.op.entryIndex).kind with
  | directory => exact hcreate _ (createDirectory_rule hB ⟨⟨hcnt1, htemp1, h1.ready⟩, hmiss⟩)
  | symlink => exact hcreate _ (createSymlink_rule hB ⟨⟨hcnt1, htemp1, h1.ready⟩, hmiss⟩)
  | hardlink => exact hcreate _ (createHardlink_rule hB ⟨⟨hcnt1, htemp1, h1.ready⟩, hmiss⟩)
  | file =>
    have hcopy1 : a1.op.operation = .copy := (congrArg Core.operation hframe1.core).trans hcopy
    refine .bind <| .mono (openCopy_rule hB hcopy1 htemp1 h1.ready) (fun _ a2 h2 => ?_)
      fun _ _ h2 => h2.frame hframe1
    obtain ⟨_, _, _, _, _, _, _, _, hopened⟩ := h2.opened
    have hframe2 : Frame s.op.entryIndex s.op a2.op :=
      hframe1.trans (Frame.of_entries hopened.core hopened.entries)
    have htemp2 := h2.openTemp hcopy1
    have hrdy2 : Ready (a2.op.entry s.op.entryIndex) M a1.world.names := by
      rw [entry_of_entries hopened.entries]
      exact h1.ready
    exact .mono (copyOpenFile_rule hB (by rw [hframe2.count]; exact hat.lt) htemp2 hrdy2)
      (fun _ _ h3 => h3.continues hat hframe2 htemp2 hrdy2)
      fun _ _ h3 => h3.frame hframe2

omit hB in
/-- **Passing over a skipped entry**; an open file stays where it is. -/
theorem skipEntry_rule (hgoing : Going id N₀ a) (hlt : a.op.entryIndex < a.op.entryCount)
    (hfail : E .ioFailed a) :
    Shows G.watch (skipEntry a.op.entryIndex) (fun r a' => r = .inProgress ∧ Continues id N₀ a a') E a := by
  obtain ⟨M, top, hbelow, hrdy, htemp⟩ := hgoing.layers
  refine .read <| .bind <| .when (fun _ => ?_) fun _ => ?_
  · refine .read <| .check (fun _ => .update ?_) fun _ => hfail
    refine .change <| .pure ⟨rfl, ?_, SameRun.nextEntry rfl⟩
    set counted : State View := { a with op := { a.op with
      completedBytes := a.op.completedBytes + (a.op.entry a.op.entryIndex).sizeBytes } }
    refine Going.next (show Below N₀ a.op.entryIndex a.op M from hbelow) hlt
      (Frame.of_entries rfl rfl : Frame a.op.entryIndex a.op counted.op) hrdy.finished ?_
    rcases htemp with ⟨hno, hnames⟩ | hopen
    · exact .inl ⟨{ hno with }, hnames⟩
    · exact .inr ⟨{ hopen with }, hopen.fileOpen⟩
  · refine .change <| .pure ⟨rfl, ?_, SameRun.nextEntry rfl⟩
    exact Going.next hbelow hlt (Frame.refl _ _) hrdy.finished htemp

/-- The last pass over the directories changes nothing but their metadata. -/
theorem finishDirectories_rule {Q : Unit → State View → Prop}
    (hfail : ∀ r, r.negative = true → E r a) (hQ : Q () a) :
    ∀ index, Shows G.watch (finishDirectories B index) Q E a
  | 0 => .pure hQ
  | index + 1 => by
    refine .read <| .ite (fun _ => finishDirectories_rule hfail hQ index) fun _ => ?_
    refine .bind <| .copyMetadata hB ?_ hfail
    refine .bind <| .quiet (hB.silent (.syncDirectory _)) (hB.syncDirectory_quiet _) fun _ => ?_
    refine .check (fun _ => ?_) fun _ => hfail _ (resultOf_negative _)
    exact .bind <| .syncParentOnce hB (finishDirectories_rule hfail hQ index) hfail

/-- The end of a copy: nothing but metadata has been written. -/
structure Completes (view : W → View) (s s' : State W) : Prop where
  done : s.op.entryCount ≤ s.op.entryIndex
  record : s'.op = { s.op with active := false }
  log : (seen view s').log = (seen view s).log
  view : view s'.world = view s.world

omit hB in
theorem Completes.of_seen {view : W → View} {s s' : State W} (hdone : s.op.entryCount ≤ s.op.entryIndex)
    (h : seen view s' = { seen view s with op := { s.op with active := false } }) : Completes view s s' :=
  ⟨hdone, (congrArg State.op h :), (congrArg State.log h :), (congrArg State.world h :)⟩

/-- **A forward step of a copy** goes on, completes the operation, or leaves a state that can be
rolled back. -/
theorem forwardCopy_shows (hgoing : Going G.view N₀ s) (hcopy : s.op.operation = .copy) :
    Shows G.watch (forwardCopy B) (fun r a' => r = .inProgress ∧ Continues id N₀ (seen G.view s) a' ∨
        r = .completed ∧ s.op.entryCount ≤ s.op.entryIndex ∧
          a' = { seen G.view s with op := { s.op with active := false } })
      (Stops id N₀ (seen G.view s)) (seen G.view s) := by
  obtain ⟨M, top, hbelow, hrdy, htemp⟩ := hgoing.layers
  -- a step that changed nothing
  have hsame : ∀ r : Result, r.negative = true → Stops id N₀ (seen G.view s) r (seen G.view s) :=
    fun r hr => ⟨hr, rfl, .inr hgoing.recoverable⟩
  refine .read <| .ite (fun hdone => ?_) fun hlt => ?_
  · refine .bind <| finishDirectories_rule hB hsame ?_ _
    exact .change <| .pure (.inr ⟨rfl, hdone, rfl⟩)
  have hat : AtHand N₀ M (seen G.view s) := ⟨hbelow, Nat.lt_of_not_le hlt⟩
  refine .ite (fun _ => ?_) fun _ => .check (fun _ => ?_) fun _ => hsame _ rfl
  · exact .mono (skipEntry_rule (a := seen G.view s) ⟨hgoing.index_le, hgoing.layers⟩ hat.lt (hsame _ rfl))
      (fun _ _ => .inl) fun _ _ h => h
  refine .ite (fun hopen => ?_) fun hopen => ?_
  · have hopen : OpenTemp s.op top (G.view s.world).names := by
      rcases htemp with ⟨hno, _⟩ | h
      · rw [seen_op, hno.fileOpen] at hopen
        cases hopen
      · exact h
    refine .mono (copyOpenFile_rule hB (a := seen G.view s) hat.lt hopen hrdy)
      (fun r a' h => .inl ?_) hat.stops
    exact h.continues hat (Frame.refl _ _) hopen hrdy
  have hno : NoTemp s.op ∧ (G.view s.world).names = top := by
    rcases htemp with h | h
    · exact h
    · exact absurd h.fileOpen hopen
  rw [← hno.2] at hrdy
  exact .mono (startEntry_rule hB hcopy hat hno.1 hrdy) (fun _ _ => .inl) hat.stops

omit hB in
theorem forwardCopy_rule {view : W → View} (hB : Lawful view B) (hgoing : Going view N₀ s)
    (hcopy : s.op.operation = .copy) : wp (forwardCopy B)
      (fun r s' => r = .inProgress ∧ Continues view N₀ s s' ∨ r = .completed ∧ Completes view s s')
      (Stops view N₀ s) s := by
  refine wp_mono (forwardCopy_shows hB.watched hgoing hcopy).run ?_ ?_
  · rintro r s' (⟨hr, h⟩ | ⟨hr, h⟩)
    · exact .inl ⟨hr, ⟨h.going.index_le, h.going.layers⟩, h.run⟩
    · exact .inr ⟨hr, .of_seen h.1 h.2⟩
  · exact fun r s' h => { h with }

end
end RinRuntime.FileOperation

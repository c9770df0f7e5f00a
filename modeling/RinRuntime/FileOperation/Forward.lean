/-
FileOperation.Forward — a forward step adds to the layers, or leaves them to a rollback.

While an operation goes forward, the entries before `entry_index` are finished layers over the names at
the start, the current entry may have displaced its destination, and those after it have done nothing.
Every function of the forward path is followed through its callbacks: where it succeeds this is kept, and
where it fails a stack of layers is left (`Fails`), so that a rollback can start. The exceptions are the
states that the rollback reads wrongly (`Lost`).
-/
import RinRuntime.FileOperation.Kept
import RinRuntime.FileOperation.Rollback

namespace RinRuntime.FileOperation
open Lib Exec NameTree Layers

/-! ## §1. Finished layers. -/

/-- The destination is as it was, or it has been displaced for good. -/
def ReplacedExactly (e : Entry) (M M' : Names) : Prop :=
  e.replacementState = .none ∧ M' = M ∨
  e.replacementState = .backupHeld ∧ M e.destinationPath = some e.backupIdentity ∧ Displaced e M M'

theorem ReplacedExactly.replaced {e : Entry} {M M' : Names} (h : ReplacedExactly e M M') :
    Replaced e M M' := by
  unfold Replaced
  rcases h with ⟨hr, h⟩ | ⟨hr, h⟩
  · rw [hr]; exact h
  · rw [hr]; exact h

/-- An entry at work: nothing but its destination has been touched. -/
structure Ready (e : Entry) (M mid : Names) : Prop where
  applied : e.applied = false
  created : e.created = false
  identity : e.objectIdentity = Identity.zero
  cleanup : e.cleanupState = .none
  replaced : ReplacedExactly e M mid

/-- An entry that has not been started. -/
structure Fresh (e : Entry) : Prop where
  applied : e.applied = false
  created : e.created = false
  identity : e.objectIdentity = Identity.zero
  cleanup : e.cleanupState = .none
  replacement : e.replacementState = .none

theorem Fresh.ready {e : Entry} (h : Fresh e) (M : Names) : Ready e M M :=
  { h with replaced := .inl ⟨h.replacement, rfl⟩ }

theorem Fresh.idle {e : Entry} (h : Fresh e) : Idle e :=
  ⟨h.applied, h.created, by rw [h.identity]; exact identityHasToken_zero, h.replacement⟩

theorem fresh_zero : Fresh Entry.zero := ⟨rfl, rfl, rfl, rfl, rfl⟩

theorem Ready.onlyReplaced {e : Entry} {M mid : Names} (h : Ready e M mid) : OnlyReplaced e :=
  ⟨h.applied, h.created, by rw [h.identity]; exact identityHasToken_zero⟩

theorem Ready.layer {e : Entry} {M mid : Names} (h : Ready e M mid) : Layer e M mid :=
  h.onlyReplaced.layer_iff.mpr h.replaced.replaced

/-- What a finished copy entry created. -/
def MadeExactly (e : Entry) (M M' : Names) : Prop :=
  e.created = true ∧ M e.destinationPath = none ∧
    M' = insert e.destinationPath e.objectIdentity M ∨
  e.created = false ∧ e.objectIdentity = Identity.zero ∧ M' = M

/-- What a finished move entry did. -/
def MovedExactly (e : Entry) (M M' : Names) : Prop :=
  e.created = false ∧ identityHasToken e.objectIdentity = false ∧ e.replacementState = .none ∧
    M e.sourcePath = some e.objectIdentity ∧ Free slash M e.destinationPath ∧
    M' = move slash e.sourcePath e.destinationPath M

/-- **The layer of a finished entry.** -/
def Finished (e : Entry) (M M' : Names) : Prop :=
  e.cleanupState = .none ∧
    (e.applied = false ∧ (∃ mid, ReplacedExactly e M mid ∧ MadeExactly e mid M') ∨
      e.applied = true ∧ MovedExactly e M M')

theorem Ready.finished {e : Entry} {M mid : Names} (h : Ready e M mid) : Finished e M mid :=
  ⟨h.cleanup, .inl ⟨h.applied, mid, h.replaced, .inr ⟨h.created, h.identity, rfl⟩⟩⟩

theorem Finished.layer {e : Entry} {M M' : Names} (h : Finished e M M') : Layer e M M' := by
  obtain ⟨hclean, ⟨happ, mid, hrep, hmade⟩ | ⟨happ, hc, ht, hr, hM, hfree, hmove⟩⟩ := h
  · refine (layer_of_not_applied happ).mpr ⟨mid, hrep.replaced, ?_⟩
    rcases hmade with ⟨hc, hmiss, rfl⟩ | ⟨hc, hid, rfl⟩
    · exact (Made.of_created hc).mpr
        (.inl (Owned.of_occupied hmiss (by rw [hclean]; decide) (.inr ⟨_, rfl⟩)))
    · exact (Made.of_idle hc (by rw [hid]; exact identityHasToken_zero)).mpr rfl
  refine (layer_of_applied happ).mpr ⟨hc, ht, hr, hM, ?_⟩
  rw [hclean]
  exact ⟨hfree, hmove⟩

/-! ## §2. The state of a forward step. -/

/-- A step on entry `i`: the core and the other entries stay. -/
structure Frame (i : Nat) (op op' : Operation) : Prop where
  core : op'.core = op.core
  count : op'.entryCount = op.entryCount
  other : ∀ k, k ≠ i → op'.entry k = op.entry k

theorem Frame.refl (i : Nat) (op : Operation) : Frame i op op := ⟨rfl, rfl, fun _ _ => rfl⟩

theorem Frame.trans {i : Nat} {op op' op'' : Operation} (h : Frame i op op')
    (h' : Frame i op' op'') : Frame i op op'' :=
  ⟨h'.core.trans h.core, h'.count.trans h.count, fun k hk => (h'.other k hk).trans (h.other k hk)⟩

theorem EntryOnly.frame {i : Nat} {op op' : Operation} (h : EntryOnly i op op') : Frame i op op' :=
  ⟨h.field Operation.core, h.count, h.other⟩

/-- The entries below `i` are finished layers, those above have not been started. -/
structure Below (N₀ : Names) (i : Nat) (op : Operation) (M : Names) : Prop where
  stack : Stack (fun k => Finished (op.entry k)) N₀ i M
  later : ∀ k, i < k → Fresh (op.entry k)

theorem Below.frame {N0 M : Names} {i : Nat} {op op' : Operation} (h : Below N0 i op M)
    (hframe : Frame i op op') : Below N0 i op' M := by
  refine ⟨h.stack.mono fun k hk M1 M2 hfin => ?_, fun k hk => ?_⟩
  · rw [hframe.other k (by omega)]
    exact hfin
  · rw [hframe.other k (by omega)]
    exact h.later k hk

section
variable {W : Type} (view : W → View)

/-- What a failed step on entry `i` leaves of it. -/
def Broken (i : Nat) (M : Names) (s : State W) : Prop :=
  (∃ top, Layer (s.op.entry i) M top ∧ TempLayer s.op top (view s.world).names) ∧
    (s.op.temporaryCreated = true → s.op.operation = .copy)

/-- **What a rollback reads wrongly** of entry `i`: an intent over a displaced destination at which nothing
was created, or a rename whose directories are not synced. -/
def Lost (i : Nat) (s : State W) : Prop :=
  i < s.op.entryCount ∧ ((s.op.entry i).created = false ∧
      identityHasToken (s.op.entry i).objectIdentity = true ∧ (s.op.entry i).replacementState ≠ .none ∧
      (view s.world).names (s.op.entry i).destinationPath = none ∨
    (s.op.entry i).applied = true ∧ (s.op.entry i).cleanupState = .renameSyncPending)

instance (i : Nat) (s : State W) : Decidable (Lost view i s) := inferInstanceAs (Decidable (_ ∧ _))

/-- The failure of a step on entry `i`, which is lost or left as a layer. -/
def Fails (i : Nat) (M : Names) (op : Operation) (r : Result) (s' : State W) : Prop :=
  r.negative = true ∧ Frame i op s'.op ∧ (Lost view i s' ∨ Broken view i M s')

/-- No temporary file is around. -/
structure NoTemp (op : Operation) : Prop where
  created : op.temporaryCreated = false
  cleanup : op.temporaryCleanupState = .none
  fileOpen : op.fileOpen = false

/-- A temporary file is on top of `top`. -/
structure TempOn (op : Operation) (top N : Names) : Prop where
  created : op.temporaryCreated = true
  cleanup : op.temporaryCleanupState = .none
  copy : op.operation = .copy
  missing : top op.temporaryPath = none
  valid : identityValid op.temporaryIdentity = true
  unnamed : ∀ p, top p ≠ some op.temporaryIdentity
  named : ∃ id, N = insert op.temporaryPath id top

/-- A temporary file is open on top of `top`. -/
structure OpenTemp (op : Operation) (top N : Names) : Prop extends TempOn op top N where
  fileOpen : op.fileOpen = true

/-- **The state between two forward steps.** -/
structure Going (N₀ : Names) (s : State W) : Prop where
  index_le : s.op.entryIndex ≤ s.op.entryCount
  layers : ∃ M top, Below N₀ s.op.entryIndex s.op M ∧
    Ready (s.op.entry s.op.entryIndex) M top ∧
    (NoTemp s.op ∧ (view s.world).names = top ∨ OpenTemp s.op top (view s.world).names)

variable {view} {i : Nat} {M : Names} {s s' : State W} {r : Result}

theorem NoTemp.entryOnly {op op' : Operation} (h : NoTemp op) (honly : EntryOnly i op op') : NoTemp op' :=
  ⟨(honly.field (·.temporaryCreated)).trans h.created,
    (honly.field (·.temporaryCleanupState)).trans h.cleanup,
    (honly.field (·.fileOpen)).trans h.fileOpen⟩

/-- Without a temporary file, a layer is all that is left. -/
theorem NoTemp.broken (h : NoTemp s.op) (hlayer : Layer (s.op.entry i) M (view s.world).names) :
    Broken view i M s :=
  ⟨⟨_, hlayer, (TempLayer.of_none h.created).mpr rfl⟩, by simp [h.created]⟩

/-- The usual failure: the entry changed, nothing else. -/
theorem Fails.of_layer {op : Operation} (htemp : NoTemp op) (hr : r.negative = true)
    {e : Entry} (h : Edited i op s'.op e) (hlayer : Layer e M (view s'.world).names) :
    Fails view i M op r s' := by
  refine ⟨hr, h.frame, .inr ((htemp.entryOnly h.toEntryOnly).broken ?_)⟩
  rw [h.entry]
  exact hlayer

theorem Fails.frame {op op' : Operation} (hframe : Frame i op op') (h : Fails view i M op' r s') :
    Fails view i M op r s' := ⟨h.1, hframe.trans h.2.1, h.2.2⟩

end

/-! ## §3. Conflicts. -/
section
variable {W : Type} {B : Backend W} {G : Eye W View} (hB : G.Watches B) {a : State View}
  {i : Nat} {M : Names}
include hB

/-- Entry `i` is at work, and there is no temporary file. -/
structure AtWork (i : Nat) (M : Names) (a : State View) : Prop where
  count : i < a.op.entryCount
  temp : NoTemp a.op
  ready : Ready (a.op.entry i) M a.world.names

/-- The destination of the entry at work is missing. -/
structure Clear (i : Nat) (M : Names) (a : State View) : Prop extends AtWork i M a where
  missing : a.world.names (a.op.entry i).destinationPath = none

omit hB in
theorem AtWork.fails {r : Result} (h : AtWork i M a) (hr : r.negative = true) :
    Fails id i M a.op r a :=
  Fails.of_layer h.temp hr (Edited.refl i a.op) h.ready.layer

theorem chooseBackupPath_rule {Q : Int × Path → State View → Prop} {E : Result → State View → Prop}
    {path : Path} {id : Identity} (h : ∀ result backup, Q (result, backup) a) :
    Shows G.watch (chooseBackupPath B path id) Q E a := by
  unfold chooseBackupPath
  cases hc : B.replacementBackupPath with
  | none => exact .pure (h _ _)
  | some callback =>
    exact .quiet (hB.silent (.backupPath hc _ _)) (hB.backupPath_quiet callback hc _ _)
      fun _ => h _ _

theorem chooseRenamed_rule {Q : Int × Path → State View → Prop} {E : Result → State View → Prop}
    {src dst : Path} (h : ∀ result renamed, Q (result, renamed) a) :
    Shows G.watch (chooseRenamed B src dst) Q E a := by
  unfold chooseRenamed
  cases hc : B.chooseRenamedDestination with
  | none => exact .pure (h _ _)
  | some callback =>
    exact .quiet (hB.silent (.chooseRenamed hc _ _))
      (hB.renamedDestination_quiet callback hc _ _) fun _ => h _ _

/-- The displacement of the destination: on success the backup is held. -/
theorem displaceDestination_rule (h : AtWork i M a) (hnone : (a.op.entry i).replacementState = .none) :
    Shows G.watch (displaceDestination B i)
      (fun _ a' => ∃ e backup id, Edited i a.op a'.op e ∧ Ready e M a'.world.names ∧ e = { a.op.entry i with
          backupPath := backup, backupIdentity := id, replacementState := .backupHeld })
      (Fails id i M a.op) a := by
  have hN : a.world.names = M := (Replaced.of_none hnone).mp h.ready.replaced.replaced
  refine .read <| .bind <| .pathIdentity hB fun result identity hfound _ => ?_
  refine .check (fun h0 => ?_) fun _ => h.fails (resultOf_negative _)
  refine .check (fun _ => ?_) fun _ => h.fails rfl
  have hdest : M (a.op.entry i).destinationPath = some identity := by rw [← hN]; exact hfound h0
  -- the backup path is chosen and is missing
  refine .bind <| chooseBackupPath_rule hB fun result backup => ?_
  refine .check (fun _ => ?_) fun _ => h.fails rfl
  refine .bind <| .pathState hB fun state _ _ => ?_
  refine .check (fun _ => ?_) fun _ => h.fails rfl
  -- from here on the entry says that the backup may be in progress
  refine .change ?_
  have h1 := Edited.setEntry h.count fun e => { e with
    backupPath := backup, backupIdentity := identity, replacementState := .backupInProgress }
  set op1 := a.op.setEntry i fun e => { e with
    backupPath := backup, backupIdentity := identity, replacementState := .backupInProgress }
  set e1 : Entry := { a.op.entry i with
    backupPath := backup, backupIdentity := identity, replacementState := .backupInProgress }
  have hprogress : ∀ (r : Result) (w : View), r.negative = true →
      w.names = M ∨ Displaced e1 M w.names → Fails id i M a.op r ⟨op1, w, a.log⟩ := by
    intro r w hr hmid
    refine Fails.of_layer h.temp hr h1 (OnlyReplaced.layer_iff ?_ |>.mpr ⟨hdest, hmid⟩)
    exact { h.ready.onlyReplaced with }
  refine .bind <| .checkpoint hB ?_ (hprogress _ a.world rfl (.inl hN))
  refine .bind <| .renameExpected hB fun result w htry => ?_
  have hrenamed : Renamed (a.op.entry i).destinationPath backup identity a.world w →
      Displaced e1 M w.names := by
    rintro ⟨_, hfree, _, hw⟩
    rw [hw]
    rw [hN] at hfree ⊢
    exact ⟨hfree, rfl⟩
  refine .check (fun h0 => ?_) fun _ => hprogress _ w (resultOf_negative _) ?_
  · have hdisp := hrenamed (htry.1 h0)
    refine .bind <| .syncParentOnce hB ?_ fun r hr => hprogress r w hr (.inr hdisp)
    -- the backup is held
    have h2 := h1.set h.count fun e => { e with replacementState := .backupHeld }
    have hrdy2 : Ready { e1 with replacementState := .backupHeld } M w.names :=
      { h.ready with replaced := .inr ⟨rfl, hdest, hdisp⟩ }
    exact .change <| .checkpoint hB ⟨_, backup, identity, h2, hrdy2, rfl⟩
      (Fails.of_layer h.temp rfl h2 hrdy2.layer)
  rcases htry.2 with rfl | hr
  · exact .inl hN
  · exact .inr (hrenamed hr)

/-- What a conflict check leaves: the entry may go on, or it is skipped. -/
structure Cleared (view : W → View) (i : Nat) (M : Names) (s s' : State W) : Prop where
  only : EntryOnly i s.op s'.op
  ready : Ready (s'.op.entry i) M (view s'.world).names
  missing : skipped s'.op i = false →
    (view s'.world).names (s'.op.entry i).destinationPath = none
  plan : SamePlan (s.op.entry i) (s'.op.entry i)
  replaced : (s'.op.entry i).replacementState ≠ .none →
    (s.op.entry i).replacementState ≠ .none ∨ s.op.conflictPolicy = .replace

/-- The failure of a conflict check; outside `REPLACE` nothing has happened. -/
def Conflicts (i : Nat) (M : Names) (a : State View) (r : Result) (a' : State View) :
    Prop :=
  Fails id i M a.op r a' ∧ (a.op.conflictPolicy ≠ .replace → a'.op = a.op)

omit hB in
/-- Nothing happened, and the destination is missing. -/
theorem Clear.cleared (h : Clear i M a) : Cleared id i M a a where
  only := EntryOnly.refl i a.op
  ready := h.ready
  missing _ := h.missing
  plan := SamePlan.refl _
  replaced := .inl

omit hB in
/-- The entry changed without a displacement. -/
theorem Cleared.of_edit {a' : State View} {e : Entry} (h : Edited i a.op a'.op e)
    (hrdy : Ready e M a'.world.names)
    (hmiss : e.skip = false → a'.world.names e.destinationPath = none)
    (hplan : SamePlan (a.op.entry i) e) (hnone : e.replacementState = .none) :
    Cleared id i M a a' := by
  obtain rfl := h.entry
  refine ⟨h.toEntryOnly, hrdy, fun hskip => hmiss ?_, hplan,
    fun hne => absurd hnone hne⟩
  unfold skipped at hskip
  rw [Bool.or_eq_false_iff] at hskip
  exact hskip.1

theorem conflictReplace_rule (h : AtWork i M a) (hpol : a.op.conflictPolicy = .replace) :
    Shows G.watch (conflictReplace B i) (fun _ => Cleared id i M a) (Fails id i M a.op) a := by
  refine .read <| .check (fun _ => .bind ?_) fun _ => h.fails rfl
  -- the second look at the destination
  have hlook : ∀ {a1 : State View} {e}, Edited i a.op a1.op e → Ready e M a1.world.names →
      SamePlan (a.op.entry i) e → Shows G.watch (do
        let op ← getOp
        Exec.require ((op.entry i).replacementState = .backupHeld) .conflict
        let state ← ask (B.pathState (op.entry i).destinationPath)
        Exec.require (state = 0) (if state = 1 then .conflict else resultOf state))
        (fun _ => Cleared id i M a) (Fails id i M a.op) a1 := by
    intro a1 e h1 hrdy1 hplan
    obtain rfl := h1.entry
    have hfails : ∀ r : Result, r.negative = true → Fails id i M a.op r a1 := fun r hr =>
      Fails.of_layer h.temp hr h1 hrdy1.layer
    refine .read <| .check (fun hheld => ?_) fun _ => hfails _ rfl
    refine .bind <| .pathState hB fun state _ hmiss => .require (fun h0 => ?_) fun _ =>
      hfails _ (CallsKeep.negative_of_state state)
    exact ⟨h1.toEntryOnly, hrdy1, fun _ => hmiss h0, hplan, fun _ => .inr hpol⟩
  refine .when (fun hnone => ?_) fun _ =>
    hlook (Edited.refl i a.op) h.ready (SamePlan.refl _)
  refine .mono (displaceDestination_rule hB h hnone) ?_ fun _ _ h => h
  rintro _ a1 ⟨_, backup, id, h1, hrdy1, rfl⟩
  exact hlook h1 hrdy1 ⟨rfl, rfl, rfl, rfl⟩

theorem conflictRename_rule (h : AtWork i M a) (hnone : (a.op.entry i).replacementState = .none) :
    Shows G.watch (conflictRename B i) (fun _ => Cleared id i M a) (Conflicts i M a) a := by
  have hstay : ∀ r : Result, r.negative = true → Conflicts i M a r a := fun r hr =>
    ⟨h.fails hr, fun _ => rfl⟩
  refine .read <| .check (fun _ => ?_) fun _ => hstay _ rfl
  refine .bind <| chooseRenamed_rule hB fun result renamed => ?_
  refine .check (fun _ => ?_) fun _ => hstay _ rfl
  refine .bind <| .pathState hB fun state _ hmiss => ?_
  refine .check (fun h0 => .update ?_) fun _ => hstay _ (CallsKeep.negative_of_state state)
  refine Cleared.of_edit (Edited.setEntry h.count _) ?_ (fun _ => hmiss h0) ⟨rfl, rfl, rfl, rfl⟩ hnone
  exact { h.ready with
      replaced := .inl ⟨hnone, (Replaced.of_none hnone).mp h.ready.replaced.replaced⟩ }

/-- **The conflict check** clears the way for the entry, or the entry fails. -/
theorem conflict_shows (h : AtWork i M a) :
    Shows G.watch (conflict B i) (fun _ => Cleared id i M a) (Conflicts i M a) a := by
  have hstay : ∀ r : Result, r.negative = true → Conflicts i M a r a := fun r hr =>
    ⟨h.fails hr, fun _ => rfl⟩
  refine .read <| .bind <| .pathState hB fun state hnamed hmiss => ?_
  refine .ite (fun h0 => .pure (Clear.cleared ⟨h, hmiss h0⟩)) fun _ => ?_
  refine .check (fun h1 => ?_) fun _ => hstay _ (resultOf_negative _)
  have hnamed := hnamed h1
  -- a held backup leaves the destination missing, so here nothing has been displaced
  have hnone : (a.op.entry i).replacementState = .none := by
    rcases h.ready.replaced with h | ⟨_, hdest, hdisp⟩
    · exact h.1
    · exact absurd (hdisp.missing hdest) hnamed
  cases hpol : a.op.conflictPolicy with
  | fail => exact .fail (hstay _ rfl)
  | skip =>
    refine .update <| Cleared.of_edit (Edited.setEntry h.count _) ?_ (fun hskip => by cases hskip)
      ⟨rfl, rfl, rfl, rfl⟩ hnone
    exact { h.ready with }
  | replace =>
    exact .mono (conflictReplace_rule hB h hpol) (fun _ _ h => h)
      fun _ _ h => ⟨h, fun hne => absurd hpol hne⟩
  | rename => exact conflictRename_rule hB h hnone

omit hB

theorem conflict_rule {view : W → View} (hB : Lawful view B) {s : State W} (h : AtWork i M (seen view s)) :
    wp (conflict B i) (fun _ => Cleared view i M s) (Fails view i M s.op) s :=
  wp_mono (conflict_shows hB.watched h).run (fun _ _ h => { h with }) fun _ _ h => h.1

/-! ## §4. Creating entries without contents. -/

/-- An entry with an intent, whether or not the creation happened. -/
theorem Ready.intended {e : Entry} {mid N : Names} {id : Identity} (hrdy : Ready e M mid)
    (hmiss : mid e.destinationPath = none) (hid : identityHasToken id = true)
    (h : N = mid ∧ e.replacementState = .none ∨ ∃ id', N = insert e.destinationPath id' mid) :
    Layer { e with objectIdentity := id } M N := by
  refine (layer_of_not_applied ?_).mpr ⟨mid, hrdy.replaced.replaced, ?_⟩
  · exact hrdy.applied
  unfold Made
  rw [if_neg (by simp [hrdy.created]), if_pos hid]
  exact ⟨hrdy.cleanup, hmiss, h⟩

/-- An entry that has forgotten its intent is what it was. -/
theorem Ready.forgotten {e : Entry} {mid : Names} (h : Ready e M mid) :
    Layer { e with objectIdentity := Identity.zero } M mid := by
  rw [← h.identity]
  exact h.layer

theorem identityHasToken_ofToken {token : Token} (h : tokenValid token = true) :
    identityHasToken (Identity.ofToken token) = true := h

/-- An entry whose object has been created and recorded. -/
theorem Ready.made {e : Entry} {mid : Names} {id : Identity} (hrdy : Ready e M mid)
    (hmiss : mid e.destinationPath = none) :
    Finished { e with objectIdentity := id, created := true } M (insert e.destinationPath id mid) :=
  ⟨hrdy.cleanup, .inl ⟨hrdy.applied, mid, hrdy.replaced, .inl ⟨rfl, hmiss, rfl⟩⟩⟩

/-- A failure with an intent: a displaced destination is lost unless the creation happened. -/
theorem Clear.fails_intent {op : Operation} {object : Identity} {w : View} {log : List (Event View)} {r : Result}
    (h : Clear i M a) (hid : identityHasToken object = true)
    (hop : Edited i a.op op { a.op.entry i with objectIdentity := object })
    (hout : w.names = a.world.names ∨ ∃ id, w.names = insert (a.op.entry i).destinationPath id a.world.names)
    (hr : r.negative = true) : Fails id i M a.op r ⟨op, w, log⟩ := by
  by_cases hlost : w.names = a.world.names ∧ (a.op.entry i).replacementState ≠ .none
  · refine ⟨hr, hop.frame, .inl ⟨by rw [hop.count]; exact h.count, .inl ?_⟩⟩
    show (op.entry i).created = false ∧ identityHasToken (op.entry i).objectIdentity = true ∧
      (op.entry i).replacementState ≠ .none ∧ w.names (op.entry i).destinationPath = none
    rw [hop.entry, hlost.1]
    exact ⟨h.ready.created, hid, hlost.2, h.missing⟩
  refine Fails.of_layer h.temp hr hop (h.ready.intended h.missing hid (hout.imp_left fun hsame => ⟨hsame, ?_⟩))
  by_contra hne
  exact hlost ⟨hsame, hne⟩

include hB

/-- Recording the token: the entry carries it, nothing else happened. -/
theorem prepareEntryToken_rule {Q : Unit → State View → Prop} (h : Clear i M a) (hQ : ∀ token op, tokenValid token = true →
      Edited i a.op op { a.op.entry i with objectIdentity := Identity.ofToken token } →
      Q () { a with op := op }) :
    Shows G.watch (prepareEntryToken B i) Q (Fails id i M a.op) a := by
  refine .read <| .ite (fun hhas => ?_) fun _ => ?_
  · rw [h.ready.onlyReplaced.token] at hhas
    cases hhas
  refine .check (fun _ => ?_) fun _ => h.fails rfl
  refine .bind <| .quiet (hB.silent (.randomOperationToken)) hB.randomOperationToken_quiet
    fun ⟨result, token⟩ => ?_
  refine .check (fun hok => ?_) fun _ => h.fails rfl
  -- the record with the token
  refine .change ?_
  have h1 := Edited.setEntry h.count fun e =>
    { e with objectIdentity := { e.objectIdentity with operationToken := token } }
  rw [h.ready.identity] at h1
  refine .bind <| .checkpointSaved hB
    (.inr ⟨.ioFailed, h.fails_intent (identityHasToken_ofToken hok.2) h1 (.inl rfl) rfl⟩) fun saved _ => ?_
  refine .ite (fun _ => ?_) fun _ => .pure (hQ token _ hok.2 h1)
  -- the record could not be saved, so the token is taken back
  exact .change <| .fail <| Fails.of_layer h.temp rfl (h1.set h.count _) h.ready.forgotten

/-- The object of entry `i` has appeared at its destination. -/
abbrev Appeared (i : Nat) (a₀ a : State View) : Prop :=
  ∃ id, a.world.names = insert (a₀.op.entry i).destinationPath id a₀.world.names

/-- An entry with the intent `id`, after the creation was tried. -/
structure Tried (i : Nat) (M : Names) (id : Identity) (result : Int)
    (a₀ a : State View) : Prop extends Clear i M a₀ where
  intent : identityHasToken id = true
  edited : Edited i a₀.op a.op { a₀.op.entry i with objectIdentity := id }
  outcome : a.world.names = a₀.world.names ∨ Appeared i a₀ a
  happened : result = 0 → Appeared i a₀ a
  refused : result = backendPathExists → a.world.names = a₀.world.names

section
variable {token : Identity} {result : Int} {a₀ : State View}

omit hB in
/-- A failure before the object has been recorded. -/
theorem Tried.fails {r : Result} (h : Tried i M token result a₀ a) (hr : r.negative = true) :
    Fails id i M a₀.op r a :=
  h.fails_intent h.intent h.edited h.outcome hr

omit hB in
/-- The object found at the destination is the one created. -/
theorem Tried.current {current : Identity} (h : Tried i M token result a₀ a)
    (h0 : result = 0) (hfound : a.world.names (a₀.op.entry i).destinationPath = some current) :
    a.world.names = insert (a₀.op.entry i).destinationPath current a₀.world.names := by
  obtain ⟨id', hid'⟩ := h.happened h0
  rw [hid', insert_self] at hfound
  rw [hid', Option.some.inj hfound]

theorem forgetIntent_rule {Q : Unit → State View → Prop}
    (h : Tried i M token result a₀ a) (hexists : result = backendPathExists) :
    Shows G.watch (forgetIntent B i) Q (Fails id i M a₀.op) a := by
  refine .change ?_
  have hfails : Fails id i M a₀.op .conflict { a with
      op := a.op.setEntry i fun e => { e with objectIdentity := Identity.zero } } := ?_
  · exact .bind <| .checkpointSaved hB (.inr ⟨_, hfails⟩) fun _ _ => .fail hfails
  refine Fails.of_layer h.temp rfl (h.edited.set h.count _) ?_
  rw [show id a.world = a.world from rfl, h.refused hexists]
  exact h.ready.forgotten

/-- What is left when the object of entry `i` has been recorded. -/
structure Recorded (i : Nat) (M : Names) (a₀ a : State View) : Prop extends Clear i M a₀ where
  entry : ∃ current, Edited i a₀.op a.op
      { a₀.op.entry i with objectIdentity := current, created := true } ∧
    a.world.names = insert (a₀.op.entry i).destinationPath current a₀.world.names

omit hB in
theorem Recorded.finished (h : Recorded i M a₀ a) : Finished (a.op.entry i) M a.world.names := by
  obtain ⟨current, hop, hnames⟩ := h.entry
  rw [hop.entry, hnames]
  exact h.ready.made h.missing

omit hB in
theorem Recorded.fails {r : Result} (h : Recorded i M a₀ a) (hr : r.negative = true) :
    Fails id i M a₀.op r a := by
  obtain ⟨_, hop, _⟩ := h.entry
  exact Fails.of_layer h.temp hr ⟨hop.toEntryOnly, rfl⟩ h.finished.layer

theorem recordCreated_rule {Q : Unit → State View → Prop} {current : Identity}
    (h : Tried i M token result a₀ a)
    (hcur : a.world.names = insert (a₀.op.entry i).destinationPath current a₀.world.names)
    (hQ : ∀ op, Recorded i M a₀ { a with op := op } → Q () { a with op := op }) :
    Shows G.watch (recordCreated B i current) Q (Fails id i M a₀.op) a := by
  have hrec : Recorded i M a₀ { a with op := a.op.setEntry i fun e =>
      { e with objectIdentity := current, created := true } } :=
    ⟨h.toClear, current, h.edited.set h.count _, hcur⟩
  exact .change <| .checkpoint hB (hQ _ hrec) (hrec.fails rfl)

/-- After the creation of a directory or symlink: the new object is recorded. -/
theorem adoptEntry_rule {Q : Unit → State View → Prop} {t : Token} (h : Tried i M token result a₀ a)
    (hQ : ∀ op, Recorded i M a₀ { a with op := op } → Q () { a with op := op }) :
    Shows G.watch (adoptEntry B i result t) Q (Fails id i M a₀.op) a := by
  refine .ite (fun hexists => forgetIntent_rule hB h hexists) fun _ => ?_
  refine .check (fun h0 => ?_) fun _ => h.fails (resultOf_negative _)
  refine .read <| .bind <| .pathIdentity hB fun result' current hfound _ => ?_
  refine .check (fun h0' => ?_) fun _ => h.fails (resultOf_negative _)
  refine .check (fun _ => ?_) fun _ => h.fails rfl
  have hnamed := hfound h0'
  rw [h.edited.entry] at hnamed
  exact recordCreated_rule hB h (h.current h0 hnamed) hQ

end

omit hB

theorem tried_of_attempt {token : Identity} {callback : W → Int × W} {Done : View → View → Prop}
    {op : Operation} {w : W} (h : Clear i M a)
    (hintent : identityHasToken token = true)
    (hop : Edited i a.op op { a.op.entry i with objectIdentity := token }) (hw : G.view w = a.world)
    (hdone : ∀ v v', Done v v' → ∃ id', v'.names = insert (a.op.entry i).destinationPath id' v.names)
    (htry : Attempt (callback w).1 Done (G.view w) (G.view (callback w).2))
    (hexists : (callback w).1 = backendPathExists → G.view (callback w).2 = G.view w) :
    Tried i M token (callback w).1 a { a with op := op, world := G.view (callback w).2 } := by
  rw [hw] at htry hexists
  exact ⟨h, hintent, hop, htry.2.imp (congrArg View.names) (hdone _ _), fun h0 => hdone _ _ (htry.1 h0),
    fun h => congrArg View.names (hexists h)⟩

theorem Created.names_eq {path : Path} {token : Token} {v v' : View} (h : Created path token v v') :
    ∃ id, v'.names = insert path id v.names := by
  obtain ⟨id, _, _, rfl⟩ := h
  exact ⟨id, rfl⟩

theorem Linked.names_eq {src dst : Path} {v v' : View} (h : Linked src dst v v') :
    ∃ id, v'.names = insert dst id v.names := by
  obtain ⟨id, _, _, rfl⟩ := h
  exact ⟨id, rfl⟩

/-- What the creation of an entry without contents leaves. -/
structure Creates (view : W → View) (i : Nat) (M : Names) (s s' : State W) : Prop where
  only : EntryOnly i s.op s'.op
  finished : Finished (s'.op.entry i) M (view s'.world).names
  replacement : (s'.op.entry i).replacementState = (s.op.entry i).replacementState
  applied : (s'.op.entry i).applied = (s.op.entry i).applied

theorem Recorded.creates {a' : State View} (h : Recorded i M a a') : Creates id i M a a' := by
  obtain ⟨_, hop, _⟩ := h.entry
  exact ⟨hop.toEntryOnly, h.finished, by rw [hop.entry], by rw [hop.entry]⟩

include hB

/-- **A directory entry** ends finished, or as a layer that can be taken off. -/
theorem createDirectory_rule (h : Clear i M a) :
    Shows G.watch (createDirectory B i) (fun _ => Creates id i M a) (Fails id i M a.op) a := by
  refine .bind <| prepareEntryToken_rule hB h fun token op htoken hop => ?_
  refine .read ?_
  rw [hop.entry]
  refine .bind <| .call (hB.silent (.mkdir _ _)) fun w hw => ?_
  obtain ⟨htry, hexists⟩ := hB.mkdir_creates (a.op.entry i).destinationPath token w
  have htried := tried_of_attempt h (identityHasToken_ofToken htoken) hop hw
    (fun _ _ h => h.names_eq) htry hexists
  refine .bind <| adoptEntry_rule hB htried fun op hrec => ?_
  refine .bind <| .quiet (hB.silent (.syncDirectory _)) (hB.syncDirectory_quiet _) fun result => ?_
  refine .check (fun _ => ?_) fun _ => hrec.fails (resultOf_negative _)
  exact .syncParentOnce hB hrec.creates fun r hr => hrec.fails hr

/-- **A symlink entry** ends finished, or as a layer that can be taken off. -/
theorem createSymlink_rule (h : Clear i M a) :
    Shows G.watch (createSymlink B i) (fun _ => Creates id i M a) (Fails id i M a.op) a := by
  unfold createSymlink
  cases hread : B.readSymlink with
  | none => exact .fail (h.fails rfl)
  | some readSymlink =>
    refine .check (fun hsome => ?_) fun _ => h.fails rfl
    obtain ⟨callback, hcallback⟩ := Option.isSome_iff_exists.mp hsome
    refine .read <| .bind <| .quiet (hB.silent (.readSymlink hread _))
      (hB.readSymlink_quiet readSymlink hread _) fun ⟨result, target⟩ => ?_
    refine .check (fun _ => ?_) fun _ => h.fails (resultOf_negative _)
    refine .check (fun _ => ?_) fun _ => h.fails rfl
    -- from here on as for a directory
    refine .bind <| prepareEntryToken_rule hB h fun token op htoken hop => ?_
    refine .read ?_
    rw [hop.entry]
    unfold createSymlinkAt
    rw [hcallback]
    refine .bind <| .call (hB.silent (.createSymlink hcallback _ _ _)) fun w hw => ?_
    obtain ⟨htry, hexists⟩ := hB.symlink_creates callback hcallback target
      (a.op.entry i).destinationPath token w
    have htried := tried_of_attempt h (identityHasToken_ofToken htoken) hop hw
      (fun _ _ h => h.names_eq) htry hexists
    refine .bind <| adoptEntry_rule hB htried fun op hrec => ?_
    refine .bind <| .copyMetadata hB ?_ fun r hr => hrec.fails hr
    exact .syncParentOnce hB hrec.creates fun r hr => hrec.fails hr

theorem linkEntry_rule (source : Entry) {linkNoReplace : Path → Path → W → Int × W} {op : Operation}
    (hlink : B.linkNoReplace = some linkNoReplace) (h : Clear i M a)
    (hintent : identityHasToken source.objectIdentity = true)
    (hop : Edited i a.op op { a.op.entry i with objectIdentity := source.objectIdentity }) :
    Shows G.watch (linkEntry B linkNoReplace i source) (fun _ => Creates id i M a)
      (Fails id i M a.op) { a with op := op } := by
  refine .read ?_
  rw [hop.entry]
  refine .bind <| .call (hB.silent (.link hlink _ _)) fun w hw => ?_
  obtain ⟨htry, hexists⟩ := hB.link_links linkNoReplace hlink source.destinationPath
    (a.op.entry i).destinationPath w
  have htried := tried_of_attempt h hintent hop hw (fun _ _ h => h.names_eq) htry hexists
  refine .ite (fun hex => forgetIntent_rule hB htried hex) fun _ => ?_
  refine .check (fun h0 => ?_) fun _ => htried.fails (resultOf_negative _)
  refine .bind <| .pathIdentity hB fun result current hfound _ => ?_
  refine .check (fun h0' => ?_) fun _ => htried.fails (resultOf_negative _)
  refine .check (fun _ => ?_) fun _ => htried.fails rfl
  refine .check (fun _ => ?_) fun _ => htried.fails rfl
  refine .bind <| recordCreated_rule hB htried (htried.current h0 (hfound h0')) fun op hrec => ?_
  exact .syncParentOnce hB hrec.creates fun r hr => hrec.fails hr

/-- **A hard link entry** ends finished, or as a layer that can be taken off. -/
theorem createHardlink_rule (h : Clear i M a) :
    Shows G.watch (createHardlink B i) (fun _ => Creates id i M a) (Fails id i M a.op) a := by
  unfold createHardlink
  cases hlink : B.linkNoReplace with
  | none => exact .fail (h.fails rfl)
  | some linkNoReplace =>
    refine .read <| .check (fun _ => ?_) fun _ => h.fails rfl
    refine .check (fun hsrc => ?_) fun _ => h.fails rfl
    refine .change <| .bind ?_
    set source := a.op.entry (a.op.entry i).linkSourceIndex
    have h1 := Edited.setEntry h.count fun e => { e with objectIdentity := source.objectIdentity }
    exact .checkpoint hB (linkEntry_rule hB source hlink h hsrc.2 h1)
      (h.fails_intent hsrc.2 h1 (.inl rfl) rfl)

end
end RinRuntime.FileOperation

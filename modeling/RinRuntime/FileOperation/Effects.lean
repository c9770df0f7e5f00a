/-
FileOperation.Effects — what the small steps of an operation do to the view.

One rule for each callback and each small function of the model, in the form a proof about a larger
function uses it: to run the step, show the rest from what the contract says about the new state.
-/
import RinRuntime.FileOperation.Contract

namespace RinRuntime.FileOperation
open Lib Exec NameTree List

/-! ## §1. Results and entries. -/

@[simp] theorem resultOf_negative (result : Int) : (resultOf result).negative = true := by
  unfold resultOf
  split_ifs <;> rfl

namespace Operation

@[simp] theorem entryCount_setEntry (op : Operation) (i : Nat) (f : Entry → Entry) :
    (op.setEntry i f).entryCount = op.entryCount := length_modify ..

theorem entry_setEntry_self {op : Operation} {i : Nat} (hi : i < op.entryCount) (f : Entry → Entry) :
    (op.setEntry i f).entry i = f (op.entry i) := by
  have hlen : i < op.entries.length := hi
  simp only [entry, setEntry, getD_eq_getElem?_getD, getElem?_modify_eq,
    getElem?_eq_getElem hlen, Option.map_some, Option.getD_some, Functor.map]

theorem entry_setEntry_ne {op : Operation} {i k : Nat} (hk : k ≠ i) (f : Entry → Entry) :
    (op.setEntry i f).entry k = op.entry k := by
  simp only [entry, setEntry, getD_eq_getElem?_getD, getElem?_modify_ne _ _ hk.symm]

/-- An entry after a change is the old one or the changed one. -/
theorem entry_setEntry (op : Operation) (i : Nat) (f : Entry → Entry) (k : Nat) :
    (op.setEntry i f).entry k = op.entry k ∨ (op.setEntry i f).entry k = f (op.entry k) := by
  by_cases hk : k = i
  · by_cases hi : i < op.entryCount
    · rw [hk]
      exact Or.inr (entry_setEntry_self hi f)
    left
    unfold entry setEntry
    rw [modify_eq_self (by exact Nat.le_of_not_lt hi)]
  · exact Or.inl (entry_setEntry_ne hk f)

end Operation

/-! ## §2. Steps that leave the view alone. -/

variable {W ε α : Type} {B : Backend W} {view : W → View}

/-- The record, the view and the recorded calls are the same. -/
structure Same (view : W → View) (s s' : State W) : Prop where
  op : s'.op = s.op
  view : view s'.world = view s.world
  log : s'.log = s.log

theorem Same.refl (s : State W) : Same view s s := ⟨rfl, rfl, rfl⟩

variable {Q : α → State W → Prop} {E : ε → State W → Prop} {s : State W}

/-- A quiet callback shows in its answer only. -/
theorem ask_quiet {callback : W → α × W} (hquiet : Quiet view callback)
    (h : ∀ s', Same view s s' → Q (callback s.world).1 s') : wp (ask callback : Exec ε (State W) α) Q E s :=
  h _ ⟨rfl, hquiet s.world, rfl⟩

variable (hB : Lawful view B)
include hB

theorem checkpointSaved_rule {Q : Bool → State W → Prop} (h : ∀ saved s', Same view s s' → Q saved s') :
    wp (checkpointSaved B : Exec ε (State W) Bool) Q E s := by
  unfold checkpointSaved
  cases hc : B.checkpoint with
  | none => exact h true s (Same.refl s)
  | some callback =>
    simp only [wp_bind, wp_getOp, wp_pure]
    refine ask_quiet (hB.checkpoint_quiet callback hc s.op) fun s' hs' => ?_
    exact h _ s' hs'

/-- A checkpoint changes nothing that is viewed, whether or not it fails. -/
theorem checkpoint_rule {Q : Unit → State W → Prop} {e : ε} (h : ∀ s', Same view s s' → Q () s')
    (hfail : ∀ s', Same view s s' → E e s') : wp (checkpoint B e) Q E s := by
  unfold checkpoint
  rw [wp_bind]
  refine checkpointSaved_rule hB fun saved s' hs' => ?_
  rw [wp_require]
  exact ⟨fun _ => h s' hs', fun _ => hfail s' hs'⟩

/-! ## §3. Steps that change it. -/

/-- A removal takes the object it expects, or fails and changes nothing. -/
theorem removeExpected_attempt (directory : Bool) (path : Path) (id : Identity) (w : W) :
    Attempt (removeExpected B directory path id w).1 (Removed path id) (view w)
      (view (removeExpected B directory path id w).2) := by
  cases directory with
  | true => exact hB.removeDirectory_expected path id w
  | false => exact hB.removeFile_expected path id w

omit hB

/-! ## §4. Backends with a history. -/

/-- A checkpoint: the record handed over, the callback's result, and what was seen afterwards. -/
structure Mark (α : Type) where
  op : Operation
  result : Int
  seen : α
  deriving DecidableEq

/-- A callback that takes no checkpoint. -/
def Silent {W α β : Type} (trail : W → List (Mark α)) (callback : W → β × W) : Prop :=
  ∀ w, trail (callback w).2 = trail w

/-- What a callback is for: the name space, the bytes of open files, or the rest. -/
inductive CallKind where
  | naming
  | transfer
  | other

/-- The callbacks of a backend at their arguments; `checkpoint` is not among them. -/
inductive Callback {W : Type} (B : Backend W) : CallKind → ∀ {β : Type}, (W → β × W) → Prop
  | pathState (path) : Callback B .naming (B.pathState path)
  | pathIdentity (path) : Callback B .naming (B.pathIdentity path)
  | syncDirectory (path) : Callback B .naming (B.syncDirectory path)
  | close (handle) : Callback B .naming (B.close handle)
  | renameExpected {f} (h : B.renameNoReplaceExpected = some f) (src dst id) :
      Callback B .naming (f src dst id)
  | copyMetadata {f} (h : B.copyMetadata = some f) (src dst kind) : Callback B .naming (f src dst kind)
  | backupPath {f} (h : B.replacementBackupPath = some f) (path id) : Callback B .naming (f path id)
  | chooseRenamed {f} (h : B.chooseRenamedDestination = some f) (src dst) : Callback B .naming (f src dst)
  | randomOperationToken : Callback B .naming B.randomOperationToken
  | mkdir (path token) : Callback B .naming (B.mkdirWithToken path token)
  | readSymlink {f} (h : B.readSymlink = some f) (path) : Callback B .naming (f path)
  | createSymlink {f} (h : B.createSymlinkWithToken = some f) (target path token) :
      Callback B .naming (f target path token)
  | link {f} (h : B.linkNoReplace = some f) (src dst) : Callback B .naming (f src dst)
  | publish (src dst) : Callback B .naming (B.publishNoReplace src dst)
  | syncFile (handle) : Callback B .naming (B.syncFile handle)
  | write (handle bytes) : Callback B .transfer (B.write handle bytes)
  | seek {f} (h : B.sparse = some f) (handle offset whence) : Callback B .transfer (f.seek handle offset whence)
  | truncate {f} (h : B.sparse = some f) (handle size) : Callback B .transfer (f.truncate handle size)
  | openRead (path) : Callback B .other (B.openRead path)
  | openCreate (path token) : Callback B .other (B.openCreateExclusiveWithToken path token)
  | read (handle capacity) : Callback B .other (B.read handle capacity)
  | fileSize {f} (h : B.sparse = some f) (handle) : Callback B .other (f.fileSize handle)
  | handleIdentity (handle) : Callback B .other (B.handleIdentity handle)
  | removeFile (path) : Callback B .other (B.removeFile path)
  | removeDirectory (path) : Callback B .other (B.removeDirectory path)
  | removeExpected (directory path id) : Callback B .other (removeExpected B directory path id)

/-- `trail` is the history of the checkpoints: `checkpoint` extends it, no other callback does. -/
structure Traced {W α : Type} (B : Backend W) (observe : W → α) (trail : W → List (Mark α)) :
    Prop where
  silent : ∀ {kind : CallKind} {β : Type} {callback : W → β × W}, Callback B kind callback →
    Silent trail callback
  checkpoint : ∀ callback, B.checkpoint = some callback → ∀ op w,
    trail (callback op w).2 = trail w ++ [⟨op, (callback op w).1, observe (callback op w).2⟩]

/-! ## §5. Rules on what is watched. -/
section
variable {W V α : Type}

/-- What shows of a state: the record, what is observed of the world, and the recorded calls with
what was observed of the worlds they met. -/
def seen (observe : W → V) (s : State W) : State V :=
  ⟨s.op, observe s.world, s.log.map fun e => ⟨e.call, e.entryIndex, observe e.world⟩⟩

@[simp] theorem seen_op {observe : W → V} (s : State W) : (seen observe s).op = s.op := rfl

/-- What is watched of a world: what is observed of it, its checkpoints, and the records that are of no
concern. -/
structure Eye (W V : Type) where
  view : W → V
  trail : W → List (Mark V)
  exempt : Operation → Prop

/-- A checkpoint hands out the record and what shows of the world. -/
def Eye.watch (G : Eye W V) : Watch (State W) (State V) (Operation × V) where
  seen := seen G.view
  mark a := (a.op, a.world)
  out s m := ∃ c ∈ G.trail s.world, (c.op, c.seen) = m
  exempt m := G.exempt m.1

/-- Without a new checkpoint nothing is handed out. -/
theorem Eye.hands_of_trail {ε : Type} {G : Eye W V} {E : ε → State V → Prop} {s s' : State W}
    (h : G.trail s'.world = G.trail s.world) : G.watch.Hands E s s' := by
  rintro m ⟨c, hc, hm⟩
  rw [h] at hc
  exact Or.inl ⟨c, hc, hm⟩

/-- A lawful backend whose checkpoints are watched, or not. -/
structure Eye.Watches (G : Eye W View) (B : Backend W) : Prop extends Lawful G.view B where
  traced : Traced B G.view G.trail ∨ ∀ w, G.trail w = []

/-- No other callback takes a checkpoint. -/
theorem Eye.Watches.silent {G : Eye W View} {B : Backend W} (hB : G.Watches B) {kind : CallKind}
    {callback : W → α × W} (h : Callback B kind callback) : Silent G.trail callback := by
  rcases hB.traced with htraced | hnone
  · exact htraced.silent h
  · intro w
    rw [hnone, hnone]

/-- A view without a history. -/
def blind (view : W → V) : Eye W V := ⟨view, fun _ => [], fun _ => True⟩

/-- A lawful backend is watched by an eye without a history. -/
theorem Lawful.watched {view : W → View} {B : Backend W} (hB : Lawful view B) : (blind view).Watches B :=
  ⟨hB, Or.inr fun _ => rfl⟩

end
end RinRuntime.FileOperation

namespace RinRuntime.Lib.Exec.Shows
open FileOperation
variable {W ε α : Type}

section
variable {V : Type} {G : Eye W V} {E : ε → State V → Prop} {a : State V}

theorem getOp {Q : Operation → State V → Prop} (h : Q a.op a) : Shows G.watch getOp Q E a := by
  rintro s rfl
  exact ⟨h, .refl⟩

theorem update {Q : Unit → State V → Prop} {g : Operation → Operation}
    (h : Q () { a with op := g a.op }) : Shows G.watch (update g) Q E a := by
  rintro s rfl
  exact ⟨h, Eye.hands_of_trail rfl⟩

variable {Q : α → State V → Prop} {callback : W → α × W}

theorem read {k : Operation → Exec ε (State W) α} (h : Shows G.watch (k a.op) Q E a) :
    Shows G.watch (FileOperation.getOp >>= k) Q E a :=
  .bind (getOp h)

theorem change {k : Unit → Exec ε (State W) α} {g : Operation → Operation}
    (h : Shows G.watch (k ()) Q E { a with op := g a.op }) :
    Shows G.watch (FileOperation.update g >>= k) Q E a :=
  .bind (update h)

/-- A call that takes no checkpoint shows in its answer and in the view. -/
theorem call (hsilent : Silent G.trail callback) (h : ∀ w, G.view w = a.world →
      Q (callback w).1 { a with world := G.view (callback w).2 }) :
    Shows G.watch (ask callback) Q E a := by
  rintro s rfl
  exact ⟨h s.world rfl, Eye.hands_of_trail (hsilent s.world)⟩

/-- A recorded call leaves the view it met in the log. -/
theorem callRecorded {c : Call} (hsilent : Silent G.trail callback)
    (h : ∀ w, G.view w = a.world → Q (callback w).1 { a with
      world := G.view (callback w).2, log := a.log ++ [⟨c, a.op.entryIndex, a.world⟩] }) :
    Shows G.watch (askRecorded c callback) Q E a := by
  rintro s rfl
  refine ⟨?_, Eye.hands_of_trail (hsilent s.world)⟩
  show Q _ (seen G.view _)
  unfold seen
  rw [List.map_append]
  exact h s.world rfl

theorem quiet (hsilent : Silent G.trail callback) (hquiet : ∀ w, G.view (callback w).2 = G.view w)
    (h : ∀ b, Q b a) : Shows G.watch (ask callback) Q E a :=
  call hsilent fun w hw => by rw [hquiet w, hw]; exact h _

end

variable {G : Eye W View} {B : Backend W} {Q : α → State View → Prop}
  {E : ε → State View → Prop} {a : State View} {e : ε} {path : Path}

variable (hB : G.Watches B)
include hB

/-- The state of a path says whether it has a name. -/
theorem pathState {Q : Int → State View → Prop} (h : ∀ state, (state = 1 → a.world.names path ≠ none) →
      (state = 0 → a.world.names path = none) → Q state a) :
    Shows G.watch (ask (B.pathState path)) Q E a := by
  refine call (hB.silent (.pathState path)) fun w hw => ?_
  rw [hB.pathState_quiet path w, hw]
  rw [← hw] at h
  exact h _ (hB.pathState_named path w) (hB.pathState_missing path w)

/-- An identity that is read is the one of the name. -/
theorem pathIdentity {Q : Int × Identity → State View → Prop}
    (h : ∀ result id, (result = 0 → a.world.names path = some id) →
      (result ≠ 0 → id = Identity.zero) → Q (result, id) a) :
    Shows G.watch (ask (B.pathIdentity path)) Q E a := by
  refine call (hB.silent (.pathIdentity path)) fun w hw => ?_
  rw [hB.pathIdentity_quiet path w, hw]
  rw [← hw] at h
  exact h _ _ (hB.pathIdentity_found path w) (hB.pathIdentity_failed path w)

/-- A checkpoint whose record is exempt, or could be left by a failure. -/
theorem checkpointSaved {Q : Bool → State View → Prop} (hmark : G.exempt a.op ∨ ∃ e, E e a)
    (h : ∀ saved, (saved = false → ∃ callback w, B.checkpoint = some callback ∧ G.view w = a.world ∧
      (callback a.op w).1 ≠ 0) → Q saved a) : Shows G.watch (checkpointSaved B) Q E a := by
  rintro s rfl
  unfold FileOperation.checkpointSaved
  cases hc : B.checkpoint with
  | none => exact ⟨h true nofun, .refl⟩
  | some callback =>
    have hview := hB.checkpoint_quiet callback hc s.op s.world
    refine ⟨?_, ?_⟩
    · have hQ := h (decide ((callback s.op s.world).1 = 0)) fun hfalse =>
        ⟨callback, s.world, hc, rfl, of_decide_eq_false hfalse⟩
      show Q _ (seen G.view ⟨s.op, (callback s.op s.world).2, s.log⟩)
      unfold seen
      rw [hview]
      exact hQ
    rintro m ⟨c, hmem, rfl⟩
    rcases hB.traced with htraced | hnone
    · rw [htraced.checkpoint callback hc, List.mem_append, List.mem_singleton] at hmem
      rcases hmem with hold | rfl
      · exact Or.inl ⟨c, hold, rfl⟩
      · exact Or.inr (hmark.imp id fun ⟨e, he⟩ => ⟨e, _, he, by rw [hview]; rfl⟩)
    · rw [hnone] at hmem
      cases hmem

theorem checkpoint {Q : Unit → State View → Prop} (h : Q () a) (hfail : E e a) :
    Shows G.watch (checkpoint B e) Q E a :=
  bind <| checkpointSaved hB (Or.inr ⟨e, hfail⟩) fun _ _ => require (fun _ => h) fun _ => hfail

theorem copyMetadata {Q : Unit → State View → Prop} {E : Result → State View → Prop} {i : Nat}
    (h : Q () a) (hfail : ∀ r, r.negative = true → E r a) :
    Shows G.watch (copyMetadata B i path) Q E a := by
  unfold FileOperation.copyMetadata
  cases hc : B.copyMetadata with
  | none => exact pure h
  | some callback =>
    refine bind <| getOp <| bind <| quiet (hB.silent (.copyMetadata hc _ _ _))
      (hB.copyMetadata_quiet callback hc _ _ _) fun _ => ?_
    exact require (fun _ => h) fun _ => hfail _ (resultOf_negative _)

theorem syncParentOnce {Q : Unit → State View → Prop} {E : Result → State View → Prop} (h : Q () a)
    (hfail : ∀ r, r.negative = true → E r a) : Shows G.watch (syncParentOnce B path) Q E a := by
  unfold FileOperation.syncParentOnce
  cases parent path with
  | none => exact fail (hfail _ rfl)
  | some directory =>
    refine bind <| quiet (hB.silent (.syncDirectory directory)) (hB.syncDirectory_quiet directory)
      fun _ => ?_
    exact require (fun _ => h) fun _ => hfail _ (resultOf_negative _)

theorem expectIdentity {Q E : Unit → State View → Prop} {id : Identity}
    (h : a.world.names path = some id → Q () a) (hfail : E () a) :
    Shows G.watch (expectIdentity B path id) Q E a := by
  refine bind <| pathIdentity hB fun result current hfound _ => require (fun hc => h ?_) fun _ => hfail
  have hequal := hc.2
  simp only [identityEqual, Bool.and_eq_true, beq_iff_eq] at hequal
  rw [hfound hc.1, hequal.2]

theorem renameExpected {Q : Int → State View → Prop} {src dst : Path} {id : Identity}
    (h : ∀ r w, Attempt r (Renamed src dst id) a.world w → Q r { a with world := w }) :
    Shows G.watch (renameExpected B src dst id) Q E a := by
  unfold FileOperation.renameExpected
  cases hc : B.renameNoReplaceExpected with
  | none => exact pure (h (-1) a.world ⟨fun h0 => absurd h0 (by decide), Or.inl rfl⟩)
  | some callback =>
    refine call (hB.silent (.renameExpected hc src dst id)) fun w hw => h _ _ ?_
    rw [← hw]
    exact hB.rename_expected callback hc src dst id w

theorem removeExpected {Q : Int → State View → Prop} {directory : Bool} {id : Identity}
    (h : ∀ r w, Attempt r (Removed path id) a.world w → Q r { a with
      world := w, log := a.log ++ [⟨.remove path, a.op.entryIndex, a.world⟩] }) :
    Shows G.watch (askRecorded (.remove path) (removeExpected B directory path id)) Q E a := by
  refine callRecorded (hB.silent (.removeExpected directory path id)) fun w hw => h _ _ ?_
  rw [← hw]
  exact removeExpected_attempt hB.toLawful _ _ _ w

theorem closeHandle {Q : Int → State View → Prop} {handle : Nat}
    (h : ∀ r handles, Q r { a with world := { a.world with handles := handles } }) :
    Shows G.watch (closeHandle B handle) Q E a := by
  refine ite (fun _ => call (hB.silent (.close handle)) fun w hw => ?_) fun _ => pure (h _ a.world.handles)
  rw [hB.close_drops handle w, hw]
  exact h _ _

/-- Closing forgets both handles, whatever the calls answer. -/
theorem closeFiles {Q : Bool → State View → Prop} (h : ∀ b handles, Q b { a with
      op := { a.op with sourceHandle := 0, temporaryHandle := 0, fileOpen := false }
      world := { a.world with handles := handles } }) :
    Shows G.watch (closeFiles B) Q E a := by
  refine bind <| getOp <| bind <| closeHandle hB fun _ _ => bind <| update <| ?_
  refine bind <| closeHandle hB fun _ _ => bind <| update <| bind <| update <| pure ?_
  exact h _ _

theorem publishNoReplace {Q : Int → State View → Prop} {src dst : Path}
    (h : ∀ r w, Attempt r (Linked src dst) a.world w → Q r { a with world := w }) :
    Shows G.watch (ask (B.publishNoReplace src dst)) Q E a :=
  call (hB.silent (.publish src dst)) fun w hw => h _ _ (by rw [← hw]; exact hB.publish_links src dst w)

end RinRuntime.Lib.Exec.Shows

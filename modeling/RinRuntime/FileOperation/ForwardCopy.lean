/-
FileOperation.ForwardCopy — a copy from the opening of a file to its publication.

The names of a file being copied are those of the finished layers with a temporary file on top.
`openCopy_rule` says what an opened file looks like; `finishCopy_rule` follows the publication, the
removal of the temporary name and every failure between them.
-/
import RinRuntime.FileOperation.Forward

namespace RinRuntime.FileOperation
open Lib Exec NameTree Layers

theorem Frame.of_entries {i : Nat} {op op' : Operation} (hcore : op'.core = op.core)
    (hents : op'.entries = op.entries) : Frame i op op' := by
  refine ⟨hcore, ?_, fun k _ => ?_⟩
  · unfold Operation.entryCount
    rw [hents]
  · unfold Operation.entry
    rw [hents]

theorem entry_of_entries {op op' : Operation} (h : op'.entries = op.entries) (k : Nat) :
    op'.entry k = op.entry k := by
  unfold Operation.entry
  rw [h]

theorem Slot.Only.frame {i : Nat} {op op' : Operation} (h : Slot.temporary.Only op op') : Frame i op op' :=
  Frame.of_entries (h.field Operation.core) (h.field (·.entries))

/-! ## §1. Opening. -/
section
variable {W ε α : Type} {B : Backend W} {G : Eye W View} (hB : G.Watches B) {a a' : State View}
  {i : Nat} {M : Names} {e : Result}
include hB

theorem closeAndFail_rule {Q : α → State View → Prop} {E : ε → State View → Prop} {e : ε}
    (h : ∀ handles, E e { a with
      op := { a.op with sourceHandle := 0, temporaryHandle := 0, fileOpen := false }
      world := { a.world with handles := handles } }) : Shows G.watch (closeAndFail B e) Q E a :=
  .bind <| .closeFiles hB fun _ handles => .fail (h handles)

omit hB in
theorem nextTemporaryPath_rule {Q : Bool → State View → Prop} {E : ε → State View → Prop}
    {destination : Path} (h : ∀ named path sequence, Q named { a with
      op := { a.op with temporaryPath := path, temporarySequence := sequence } }) :
    Shows G.watch (nextTemporaryPath destination) Q E a := by
  refine .ite (fun _ => .pure (h false a.op.temporaryPath a.op.temporarySequence)) fun _ => ?_
  refine .change <| .read <| .ite (fun _ => .pure (h false _ _)) fun _ => ?_
  exact .change <| .read <| .pure (h _ _ _)

/-- The source is open in `a`, and nothing but the temporary file is touched. -/
structure SourceOpen (a a' : State View) : Prop where
  entries : a'.op.entries = a.op.entries
  core : a'.op.core = a.op.core
  completed : a'.op.completedBytes = a.op.completedBytes
  source : a'.op.sourceHandle = a.op.sourceHandle
  cleanup : a'.op.temporaryCleanupState = .none
  log : a'.log = a.log

/-- No temporary file has been created. -/
structure Opening (a a' : State View) : Prop extends SourceOpen a a' where
  created : a'.op.temporaryCreated = false
  world : a'.world = a.world

/-- A file has been opened: its source at the start, an empty temporary file on top of the names. -/
structure Opened (B : Backend W) (a a' : State View) : Prop extends SourceOpen a a' where
  created : a'.op.temporaryCreated = true
  fileOpen : a'.op.fileOpen = true
  enabled : a'.op.sparseFileEnabled = B.sparse.isSome
  sized : a'.op.sparseOutputSized = false
  missing : a.world.names a'.op.temporaryPath = none
  valid : identityValid a'.op.temporaryIdentity = true
  unnamed : ∀ p, a.world.names p ≠ some a'.op.temporaryIdentity
  names : a'.world.names = insert a'.op.temporaryPath a'.op.temporaryIdentity a.world.names
  object : a.world.content a'.op.temporaryIdentity = none
  content : a'.world.content = Function.update a.world.content a'.op.temporaryIdentity (some [])
  target : a.world.handles a'.op.temporaryHandle = none
  handles : a'.world.handles
    = Function.update a.world.handles a'.op.temporaryHandle (some (a'.op.temporaryIdentity, 0))

omit hB in
theorem fails_of_none (hents : a'.op.entries = a.op.entries) (hcore : a'.op.core = a.op.core)
    (hcre : a'.op.temporaryCreated = false) (hnames : a'.world.names = a.world.names)
    (hrdy : Ready (a.op.entry i) M a.world.names) (he : e.negative = true) :
    Fails id i M a.op e a' := by
  refine ⟨he, Frame.of_entries hcore hents, .inr ⟨⟨a.world.names, ?_, ?_⟩, by simp [hcre]⟩⟩
  · rw [entry_of_entries hents]
    exact hrdy.layer
  exact (TempLayer.of_none hcre).mpr hnames

theorem Opening.closeAndFail {Q : α → State View → Prop} (h : Opening a a')
    (hrdy : Ready (a.op.entry i) M a.world.names) (he : e.negative = true) :
    Shows G.watch (closeAndFail B e) Q (Fails id i M a.op) a' := by
  have hnames : a'.world.names = a.world.names := by rw [h.world]
  exact closeAndFail_rule hB fun _ => fails_of_none h.entries h.core h.created hnames hrdy he

omit hB in
/-- A failure once the temporary file has been announced. -/
theorem fails_of_temp (hents : a'.op.entries = a.op.entries) (hcore : a'.op.core = a.op.core)
    (hcopy : a.op.operation = .copy) (hcre : a'.op.temporaryCreated = true)
    (hrdy : Ready (a.op.entry i) M a.world.names) (he : e.negative = true)
    (hheld : Held a'.op.temporaryPath a'.op.temporaryIdentity a'.op.temporaryCleanupState a.world.names
      a'.world.names) : Fails id i M a.op e a' := by
  refine ⟨he, Frame.of_entries hcore hents, .inr ⟨⟨a.world.names, ?_, ?_⟩, fun _ => ?_⟩⟩
  · rw [entry_of_entries hents]
    exact hrdy.layer
  · exact (TempLayer.of_created hcre).mpr hheld
  · exact (congrArg Core.operation hcore).trans hcopy

/-- The end of the opening: the identity of the new file is recorded. -/
theorem adoptTemporary_rule {token : Token} {object : Identity} (hcopy : a.op.operation = .copy)
    (hrdy : Ready (a.op.entry i) M a.world.names) (h : SourceOpen a a')
    (hcre : a'.op.temporaryCreated = true) (htgt : a.world.handles a'.op.temporaryHandle = none)
    (hfile : CreatedFile a'.op.temporaryPath token object a.world a'.world) (hhandles : a'.world.handles
      = Function.update a.world.handles a'.op.temporaryHandle (some (object, 0))) :
    Shows G.watch (adoptTemporary B token) (fun _ => Opened B a) (Fails id i M a.op) a' := by
  obtain ⟨_, hmiss, hnew, hunnamed, hnames, hcont⟩ := hfile
  have howned : ∀ (r : Result) (temporary : Identity), r.negative = true → Fails id i M a.op r
      { a' with op := { a'.op with fileOpen := true, temporaryIdentity := temporary } } := by
    intro r temporary hr
    refine fails_of_temp h.entries h.core hcopy hcre hrdy hr (.inl ?_)
    show Owned a'.op.temporaryPath a'.op.temporaryCleanupState a.world.names a'.world.names
    rw [h.cleanup, hnames]
    exact Owned.of_occupied hmiss (by decide) (.inr ⟨object, rfl⟩)
  refine .change <| .read <| .bind <| .call (hB.silent (.handleIdentity _)) fun w hw => ?_
  have hfound := hB.handleIdentity_found a'.op.temporaryHandle w object 0
    (by rw [hw, hhandles, Function.update_self])
  rw [hB.handleIdentity_quiet, hw]
  generalize (B.handleIdentity a'.op.temporaryHandle w).1 = answer at hfound ⊢
  obtain ⟨result, current⟩ := answer
  refine .check (fun h0 => ?_) fun _ => howned _ a'.op.temporaryIdentity (resultOf_negative _)
  refine .check (fun hval => ?_) fun _ => howned _ a'.op.temporaryIdentity rfl
  obtain rfl : current = object := hfound h0
  refine .change <| .bind <| .checkpoint hB ?_ (howned _ current rfl)
  exact .update ⟨{ h with }, hcre, rfl, rfl, rfl, hmiss, hval.1, hunnamed, hnames, hnew, hcont,
    htgt, hhandles⟩

omit hB in
/-- A temporary file that is announced under a new token: its name is missing, or an object without the
token has it. -/
theorem held_announced {path : Path} {token : Token} {N : Names}
    (hnew : ∀ other, N path = some other → other.operationToken ≠ token) :
    Held path (Identity.ofToken token) .none N N := by
  cases hnamed : N path with
  | none => exact .inl (Owned.of_occupied hnamed (by decide) (.inl rfl))
  | some other =>
    refine .inr ⟨rfl, by decide, other, hnamed, ?_⟩
    rw [if_neg (by simp [identityValid, Identity.ofToken])]
    exact hnew other hnamed

theorem openTemporary_rule (hcopy : a.op.operation = .copy)
    (hrdy : Ready (a.op.entry i) M a.world.names) :
    ∀ {attempts : Nat} {a' : State View}, Opening a a' →
      Shows G.watch (openTemporary B i attempts) (fun _ => Opened B a) (Fails id i M a.op) a'
  | 0, a', h => h.closeAndFail hB hrdy rfl
  | attempts + 1, a', h => by
    refine .read <| .bind <| nextTemporaryPath_rule fun named path sequence => ?_
    have h1 : Opening a { a' with
        op := { a'.op with temporaryPath := path, temporarySequence := sequence } } :=
      { h with }
    refine .ite (fun _ => h1.closeAndFail hB hrdy rfl) fun _ => ?_
    refine .bind <| .call (hB.silent (.randomOperationToken)) fun w hw => ?_
    have hnew := hB.randomOperationToken_new w path
    rw [hB.randomOperationToken_quiet, hw, h.world]
    rw [hw, h.world] at hnew
    generalize (B.randomOperationToken w).1 = answer at hnew ⊢
    obtain ⟨result, token⟩ := answer
    rw [h.world] at h1
    refine .ite (fun _ => h1.closeAndFail hB hrdy rfl) fun hok => ?_
    have hres : result = 0 := by
      by_contra hne
      exact hok (.inl hne)
    -- the temporary file is announced
    have hann := held_announced fun other => hnew other hres
    refine .change <| .bind <| .checkpointSaved hB (.inr ⟨.ioFailed, ?_⟩) fun saved _ => ?_
    · refine fails_of_temp h.entries h.core hcopy rfl hrdy rfl ?_
      show Held path (Identity.ofToken token) a'.op.temporaryCleanupState a.world.names a.world.names
      rw [h.cleanup]
      exact hann
    refine .ite (fun _ => ?_) fun _ => ?_
    · exact .change <| Opening.closeAndFail hB { h with created := rfl, world := rfl } hrdy rfl
    -- the exclusive creation
    refine .read <| .bind <| .call (hB.silent (.openCreate _ _)) fun w hw => ?_
    have hcreate_ok := hB.create_ok path token w
    have hcreate_failed := hB.create_failed path token w
    have hcreate_exists := hB.create_exists path token w
    rcases hcreate : B.openCreateExclusiveWithToken path token w with ⟨⟨result, target⟩, w'⟩
    rw [hcreate, hw] at hcreate_ok hcreate_failed hcreate_exists
    refine .change <| .ite (fun hexists => ?_) fun _ => .ite (fun hfailed => ?_) fun hopen => ?_
    · -- the name is taken: forget it and try the next
      rw [hcreate_exists hexists]
      refine .change <| .bind <| .checkpointSaved hB (.inr ⟨.ioFailed, ?_⟩) fun saved _ => ?_
      · exact fails_of_none h.entries h.core rfl rfl hrdy rfl
      refine .ite (fun _ => Opening.closeAndFail hB ?_ hrdy rfl)
        fun _ => openTemporary_rule hcopy hrdy ?_
      · exact { h with created := rfl, world := rfl }
      · exact { h with created := rfl, world := rfl }
    · have hheld : Held path (Identity.ofToken token) .none a.world.names (G.view w').names := by
        have hinsert : ∀ object, CreatedFile path token object a.world (G.view w') →
            Held path (Identity.ofToken token) .none a.world.names (G.view w').names := by
          rintro object ⟨_, hmiss, _, _, hnames, _⟩
          rw [hnames]
          exact .inl (Owned.of_occupied hmiss (by decide) (.inr ⟨object, rfl⟩))
        by_cases h0 : result = 0
        · obtain ⟨_, _, object, hfile, _⟩ := hcreate_ok h0
          exact hinsert object hfile
        rcases (hcreate_failed h0).2 with hsame | ⟨object, hfile⟩
        · rw [hsame]
          exact hann
        · exact hinsert object hfile
      refine closeAndFail_rule hB fun _ => fails_of_temp h.entries h.core hcopy rfl hrdy ?_ ?_
      · split
        · rfl
        · exact resultOf_negative _
      show Held path (Identity.ofToken token) a'.op.temporaryCleanupState _ (G.view w').names
      rw [h.cleanup]
      exact hheld
    have h0 : result = 0 := by
      by_contra hne
      exact hopen (.inl hne)
    obtain ⟨_, htgt, object, hfile, hhandles⟩ := hcreate_ok h0
    exact adoptTemporary_rule hB hcopy hrdy { h with } rfl htgt hfile hhandles

/-- The size test passes over a file of another size. -/
theorem expectSize_rule {Q : Unit → State View → Prop} {sizeBytes : Nat} {object : Identity}
    {bytes : List UInt8} (hrdy : Ready (a.op.entry i) M a.world.names) (h : Opening a a)
    (hhandle : a.world.handles a.op.sourceHandle = some (object, 0))
    (hbytes : a.world.content object = some bytes)
    (hQ : (B.sparse.isSome = true → bytes.length = sizeBytes) → Q () a) :
    Shows G.watch (expectSize B sizeBytes a.op.sourceHandle) Q (Fails id i M a.op) a := by
  unfold expectSize
  cases hsparse : B.sparse with
  | none =>
    refine .pure (hQ fun hsome => ?_)
    rw [hsparse] at hsome
    cases hsome
  | some sparse =>
    have hlaw := hB.sparse_lawful sparse hsparse
    refine .bind <| .call (hB.silent (.fileSize hsparse _)) fun w hw => ?_
    have hsize := hlaw.fileSize_ok a.op.sourceHandle w object 0 bytes (by rw [hw]; exact hhandle)
      (by rw [hw]; exact hbytes)
    rw [hlaw.fileSize_quiet, hw]
    generalize (sparse.fileSize a.op.sourceHandle w).1 = answer at hsize ⊢
    obtain ⟨result, size⟩ := answer
    refine .ite (fun _ => h.closeAndFail hB hrdy ?_) fun hok => .pure (hQ fun _ => ?_)
    · split
      · rfl
      · exact resultOf_negative _
    by_contra hne
    by_cases h0 : result = 0
    · exact hok (.inr (by rw [show size = bytes.length from hsize h0]; exact hne))
    · exact hok (.inl h0)

/-- What opening the file of entry `i` reads and writes down. -/
structure OpenedFile (B : Backend W) (i : Nat) (a a' : State View) : Prop where
  opened : ∃ handle object bytes, handle ≠ 0 ∧ a.world.handles handle = none ∧
    a.world.names (a.op.entry i).sourcePath = some object ∧ a.world.content object = some bytes ∧
    (B.sparse.isSome = true → bytes.length = (a.op.entry i).sizeBytes) ∧
    Opened B ⟨{ a.op with sourceHandle := handle },
      { a.world with handles := Function.update a.world.handles handle (some (object, 0)) },
      a.log ++ [⟨.openRead (a.op.entry i).sourcePath, a.op.entryIndex, a.world⟩]⟩ a'

/-- **Opening a file** leaves an empty temporary file on top of the names. -/
theorem openCopy_rule (hcopy : a.op.operation = .copy) (htemp : NoTemp a.op)
    (hrdy : Ready (a.op.entry i) M a.world.names) :
    Shows G.watch (openCopy B i) (fun _ => OpenedFile B i a) (Fails id i M a.op) a := by
  refine .read <| .bind <| .callRecorded (hB.silent (.openRead _)) fun w hw => ?_
  have hok := hB.openRead_ok (a.op.entry i).sourcePath w
  have hfailed := hB.openRead_failed (a.op.entry i).sourcePath w
  rw [hw] at hok hfailed
  generalize B.openRead (a.op.entry i).sourcePath w = answer at hok hfailed ⊢
  obtain ⟨⟨result, handle⟩, w'⟩ := answer
  -- a failure to open leaves the names alone
  have hnames : (G.view w').names = a.world.names := by
    by_cases h0 : result = 0
    · obtain ⟨_, _, _, _, _, _, hv⟩ := hok h0
      rw [hv]
    · rw [(hfailed h0).2]
  have hfail : ∀ (r : Result) (log : List (Event View)), r.negative = true → Fails id i M a.op r
      ⟨{ a.op with sourceHandle := handle }, G.view w', log⟩ := fun r log hr =>
    fails_of_none rfl rfl htemp.created hnames hrdy hr
  refine .change <| .check (fun h0 => ?_) fun _ => hfail _ _ (resultOf_negative _)
  refine .check (fun hne => ?_) fun _ => hfail _ _ rfl
  obtain ⟨_, hunused, object, bytes, hnamed, hbytes, hv⟩ := hok h0
  set a1 : State View := ⟨{ a.op with sourceHandle := handle },
    { a.world with handles := Function.update a.world.handles handle (some (object, 0)) },
    a.log ++ [⟨.openRead (a.op.entry i).sourcePath, a.op.entryIndex, a.world⟩]⟩ with ha1
  have hopening : Opening a1 a1 := ⟨⟨rfl, rfl, rfl, rfl, htemp.cleanup, rfl⟩, htemp.created, rfl⟩
  have hframe : Frame i a.op a1.op := Frame.of_entries rfl rfl
  rw [hv]
  refine .mono (E := Fails id i M a1.op) (.bind ?_) (fun _ _ h => h) fun _ _ h => h.frame hframe
  refine expectSize_rule hB (a := a1) hrdy hopening (Function.update_self ..) hbytes fun hsize => ?_
  refine .mono (openTemporary_rule hB (a := a1) hcopy hrdy hopening) (fun _ a' h => ?_) fun _ _ h => h
  exact ⟨handle, object, bytes, hne, hunused, hnamed, hbytes, hsize, h⟩

/-! ## §2. Copying leaves the names alone. -/

/-- What moving bytes does not touch. -/
structure Steady (a a' : State View) : Prop where
  entries : a'.op.entries = a.op.entries
  core : a'.op.core = a.op.core
  created : a'.op.temporaryCreated = a.op.temporaryCreated
  path : a'.op.temporaryPath = a.op.temporaryPath
  identity : a'.op.temporaryIdentity = a.op.temporaryIdentity
  cleanup : a'.op.temporaryCleanupState = a.op.temporaryCleanupState
  fileOpen : a'.op.fileOpen = a.op.fileOpen
  names : a'.world.names = a.world.names

/-- It takes no checkpoint either. -/
def Unmoved (G : Eye W View) (s s' : State W) : Prop :=
  Steady (seen G.view s) (seen G.view s') ∧ G.trail s'.world = G.trail s.world

omit hB in
theorem Steady.refl (a : State View) : Steady a a := ⟨rfl, rfl, rfl, rfl, rfl, rfl, rfl, rfl⟩

omit hB in
theorem Steady.trans {a'' : State View} (h : Steady a a') (h' : Steady a' a'') : Steady a a'' :=
  ⟨h'.entries.trans h.entries, h'.core.trans h.core, h'.created.trans h.created,
    h'.path.trans h.path, h'.identity.trans h.identity, h'.cleanup.trans h.cleanup,
    h'.fileOpen.trans h.fileOpen, h'.names.trans h.names⟩

section
variable {s : State W} {F : ε → Prop}

omit hB in
/-- What a computation that only moves bytes shows. -/
theorem Unmoved.shows {x : Exec Result (State W) α} {Q : α → State View → Prop}
    {E : Result → State View → Prop} (h : ∀ s, Keeps (Unmoved G s) Negative x)
    (hQ : ∀ b a', Steady a a' → Q b a') (hE : ∀ r a', r.negative = true → Steady a a' → E r a') :
    Shows G.watch x Q E a := by
  rintro s rfl
  exact wp_mono (h s s ⟨.refl _, rfl⟩) (fun b s' h' => ⟨hQ b _ h'.1, Eye.hands_of_trail h'.2⟩)
    fun r s' h' => ⟨hE r _ h'.1 h'.2.1, Eye.hands_of_trail h'.2.2⟩

theorem unmoved_transfer : TransferKeep B (Unmoved G s) := by
  have hcall : ∀ {α : Type} {callback : W → α × W}, Silent G.trail callback →
      (∀ w, (G.view (callback w).2).names = (G.view w).names) → Harmless (Unmoved G s) callback :=
    fun hsilent hnames _ h =>
      ⟨h.1.trans ⟨rfl, rfl, rfl, rfl, rfl, rfl, rfl, hnames _⟩, (hsilent _).trans h.2⟩
  intro α callback h
  refine hcall (hB.silent h) fun w => ?_
  cases h with
  | write handle bytes => exact (hB.write_onHandle handle bytes w).1
  | seek hsparse handle offset whence =>
    exact ((hB.sparse_lawful _ hsparse).seek_onHandle handle offset whence w).1
  | truncate hsparse handle size => exact (hB.sparse_lawful _ hsparse).truncate_names handle size w

theorem prepareSparseExtent_steady (i completed : Nat) :
    Keeps (Unmoved G s) Negative (prepareSparseExtent B i completed) := by
  refine ((unmoved_transfer hB).prepareSparseExtent (R := AnyRecord) ?_ i completed).keeps
  exact fun _ _ _ _ _ h _ => ⟨⟨h.1.trans ⟨rfl, rfl, rfl, rfl, rfl, rfl, rfl, rfl⟩, h.2⟩, trivial⟩

theorem writeAll_steady (rounds : Nat) (bytes : List UInt8) :
    Keeps (Unmoved G s) Negative (writeAll B rounds bytes) :=
  ((unmoved_transfer hB).writeAll rounds bytes).keeps

end

variable {top : Names} {op : Operation}

omit hB

theorem OpenTemp.steady (h : OpenTemp a.op top a.world.names) (hs' : Steady a a') :
    OpenTemp a'.op top a'.world.names where
  created := hs'.created.trans h.created
  cleanup := hs'.cleanup.trans h.cleanup
  copy := (congrArg Core.operation hs'.core).trans h.copy
  missing := by rw [hs'.path]; exact h.missing
  valid := by rw [hs'.identity]; exact h.valid
  unnamed := by rw [hs'.identity]; exact h.unnamed
  named := by rw [hs'.path, hs'.names]; exact h.named
  fileOpen := hs'.fileOpen.trans h.fileOpen

theorem TempOn.held {top N : Names} (h : TempOn op top N) : TempLayer op top N := by
  obtain ⟨id, hid⟩ := h.named
  rw [TempLayer.of_created h.created, h.cleanup, hid]
  exact .inl (Owned.of_occupied h.missing (by decide) (.inr ⟨id, rfl⟩))

theorem TempOn.fails (h : TempOn a.op top a.world.names) (hframe : Frame i op a.op)
    (hlayer : Layer (a.op.entry i) M top) (he : e.negative = true) : Fails id i M op e a :=
  ⟨he, hframe, .inr ⟨⟨top, hlayer, h.held⟩, fun _ => h.copy⟩⟩

/-! ## §3. Publishing. -/

/-- What the publication of the object `id` makes of an entry first. -/
abbrev Entry.publishing (e : Entry) (id : Identity) : Entry :=
  { e with
    created := true
    objectIdentity := id
    replacementState :=
      if e.replacementState = .backupHeld then .publishInProgress else e.replacementState }

/-- The entry of a file about to be published: its destination is missing, or taken by an object that
is not the temporary one. -/
theorem Ready.publishing {e : Entry} (hrdy : Ready e M top) {id : Identity}
    (hval : identityValid id = true) (hunnamed : ∀ p, top p ≠ some id) : Layer (e.publishing id) M top ∧
      ∀ N, top e.destinationPath = none → Occupied e.destinationPath top N → Layer (e.publishing id) M N := by
  have hrep : Replaced (e.publishing id) M top := by
    unfold Replaced Entry.publishing
    rcases hrdy.replaced with ⟨hr, h⟩ | ⟨hr, h⟩ <;> · rw [hr]; exact h
  have hmade : ∀ N, Held e.destinationPath id .none top N → Layer (e.publishing id) M N := by
    intro N hheld
    refine (layer_of_not_applied ?_).mpr ⟨top, hrep, (Made.of_created rfl).mpr ?_⟩
    · exact hrdy.applied
    show Held e.destinationPath id e.cleanupState top N
    rw [hrdy.cleanup]
    exact hheld
  refine ⟨hmade top ?_, fun N hmiss hocc => hmade N (.inl (Owned.of_occupied hmiss (by decide) hocc))⟩
  cases hnamed : top e.destinationPath with
  | none => exact .inl (Owned.of_occupied hnamed (by decide) (.inl rfl))
  | some other =>
    refine .inr ⟨rfl, by decide, other, hnamed, ?_⟩
    rw [if_pos hval]
    rintro rfl
    exact hunnamed _ hnamed

/-- What it makes of the entry in the end: the replacement is what it was. -/
theorem Ready.published {e : Entry} (hrdy : Ready e M top) (id : Identity) :
    { e.publishing id with replacementState := if (e.publishing id).replacementState = .publishInProgress
      then .backupHeld else (e.publishing id).replacementState }
        = { e with created := true, objectIdentity := id } := by
  unfold Entry.publishing
  rcases hrdy.replaced with ⟨hr, _⟩ | ⟨hr, _⟩ <;> · rw [hr]; rfl

/-- A failure with the temporary name still on top of `below`. -/
theorem TempOn.fails_named {top below : Names} {x : Identity}
    {w : View} {log : List (Event View)} {r : Result} (h : TempOn a.op top a.world.names)
    {e : Entry} (hop : Edited i a.op op e) (hlayer : Layer e M below)
    (hmiss : below a.op.temporaryPath = none)
    (hnames : w.names = insert a.op.temporaryPath x below) (hr : r.negative = true) :
    Fails id i M a.op r ⟨op, w, log⟩ := by
  obtain rfl := hop.entry
  have hpath : op.temporaryPath = a.op.temporaryPath := hop.field (·.temporaryPath)
  have hcre : op.temporaryCreated = true := (hop.field (·.temporaryCreated)).trans h.created
  have hcleanup := (hop.field (·.temporaryCleanupState)).trans h.cleanup
  refine ⟨hr, hop.frame, .inr ⟨⟨below, hlayer, ?_⟩, fun _ => (hop.field (·.operation)).trans h.copy⟩⟩
  show TempLayer op below w.names
  rw [TempLayer.of_created hcre, hcleanup, hnames, hpath]
  exact .inl (Owned.of_occupied hmiss (by decide) (.inr ⟨x, rfl⟩))

/-- What a publication leaves: the object has both names, the entry is finished. -/
structure Published (i : Nat) (top : Names) (a a' : State View) : Prop where
  only : EntryOnly i a.op a'.op
  entry : a'.op.entry i = { a.op.entry i with
    created := true, objectIdentity := a.op.temporaryIdentity }
  missing : top (a.op.entry i).destinationPath = none
  distinct : a.op.temporaryPath ≠ (a.op.entry i).destinationPath
  names : a'.world.names = insert a.op.temporaryPath a.op.temporaryIdentity
    (insert (a.op.entry i).destinationPath a.op.temporaryIdentity top)

/-- A link puts the object at its second name, below the first. -/
theorem Linked.published {v v' : View} {src dst : Path} {x : Identity}
    (hx : v.names = insert src x top) (h : Linked src dst v v') :
    top dst = none ∧ src ≠ dst ∧ v'.names = insert src x (insert dst x top) := by
  obtain ⟨y, hy, hfree, hv⟩ := h
  rw [hx] at hy hfree
  have hne : src ≠ dst := by
    rintro rfl
    rw [insert_self] at hfree
    cases hfree
  rw [insert_self] at hy
  cases hy
  rw [insert_of_ne hne.symm] at hfree
  refine ⟨hfree, hne, ?_⟩
  rw [hv]
  show insert dst x v.names = _
  rw [hx, insert_comm hne.symm]

include hB

/-- **The publication** of a copied file. -/
theorem publishCopy_rule (hcnt : i < a.op.entryCount)
    (htemp : TempOn a.op top a.world.names) (hrdy : Ready (a.op.entry i) M top) :
    Shows G.watch (publishCopy B i) (fun _ => Published i top a) (Fails id i M a.op) a := by
  obtain ⟨x, hx⟩ := htemp.named
  set e := a.op.entry i with he
  obtain ⟨hlayer, hlayer'⟩ := hrdy.publishing htemp.valid htemp.unnamed
  refine .change ?_
  set op1 := a.op.setEntry i fun e => e.publishing a.op.temporaryIdentity
  have h1 : Edited i a.op op1 (e.publishing a.op.temporaryIdentity) := Edited.setEntry hcnt _
  have hunpublished : ∀ r : Result, r.negative = true →
      Fails id i M a.op r ⟨op1, a.world, a.log⟩ := fun r hr =>
    htemp.fails_named h1 hlayer htemp.missing hx hr
  refine .bind <| .checkpoint hB ?_ (hunpublished _ rfl)
  refine .read ?_
  rw [h1.entry]
  refine .bind <| .publishNoReplace hB fun result w htry => ?_
  -- once the object has both names, a failure leaves both
  have hboth : ∀ {op log e'} {r : Result}, Linked a.op.temporaryPath e.destinationPath a.world w →
      Edited i a.op op e' → Layer e' M (insert e.destinationPath x top) → r.negative = true →
      Fails id i M a.op r ⟨op, w, log⟩ := by
    intro op log e' r hlinked hop hl hr
    obtain ⟨_, hne, hnames⟩ := hlinked.published hx
    refine htemp.fails_named hop hl ?_ hnames hr
    rw [insert_of_ne hne]
    exact htemp.missing
  have hearly : ∀ {log} {r : Result}, Linked a.op.temporaryPath e.destinationPath a.world w →
      r.negative = true → Fails id i M a.op r ⟨op1, w, log⟩ := fun hlinked hr =>
    hboth hlinked h1 (hlayer' _ (hlinked.published hx).1 (.inr ⟨x, rfl⟩)) hr
  refine .check (fun h0 => ?_) fun _ => ?_
  · have hlinked := htry.1 h0
    obtain ⟨hmiss, hne, hnames⟩ := hlinked.published hx
    refine .bind <| .checkpoint hB ?_ (hearly hlinked rfl)
    refine .bind <| .pathIdentity hB fun result' current hfound _ => ?_
    refine .check (fun h0' => ?_) fun _ => hearly hlinked (resultOf_negative _)
    refine .check (fun _ => ?_) fun _ => hearly hlinked rfl
    refine .check (fun hequal => ?_) fun _ => hearly hlinked rfl
    -- the object found is the temporary one
    have hcur : current = a.op.temporaryIdentity := by
      simp only [identityEqual, Bool.and_eq_true, beq_iff_eq] at hequal
      exact hequal.2
    obtain rfl : x = a.op.temporaryIdentity := by
      have hnamed : w.names e.destinationPath = some current := hfound h0'
      rw [hnames, insert_of_ne hne.symm, insert_self, hcur] at hnamed
      exact Option.some.inj hnamed
    refine .change <| .change ?_
    rw [show ({ op1 with temporaryIdentity := current } : Operation) = op1 by rw [hcur]; rfl]
    have h2 := h1.set hcnt fun e => { e with
      replacementState :=
        if e.replacementState = .publishInProgress then .backupHeld else e.replacementState }
    rw [hrdy.published] at h2
    have hlate : ∀ {log} {r : Result}, r.negative = true → Fails id i M a.op r ⟨_, w, log⟩ :=
      hboth hlinked h2 (hrdy.made hmiss).layer
    refine .bind <| .syncParentOnce hB ?_ fun r hr => hlate hr
    exact .checkpoint hB ⟨h2.toEntryOnly, h2.entry, hmiss, hne, hnames⟩ (hlate rfl)
  rcases htry.2 with rfl | hlinked
  · exact hunpublished _ (resultOf_negative _)
  · exact hearly hlinked (resultOf_negative _)

/-- What a finished file leaves: the destination names the object, the temporary name is gone. -/
structure CopyFinished (i : Nat) (top : Names) (a a' : State View) : Prop where
  frame : Frame i a.op a'.op
  temp : NoTemp a'.op
  entry : a'.op.entry i = { a.op.entry i with
    created := true, objectIdentity := a.op.temporaryIdentity }
  missing : top (a.op.entry i).destinationPath = none
  names : a'.world.names
    = insert (a.op.entry i).destinationPath a.op.temporaryIdentity top

omit hB in
theorem CopyFinished.finished (h : CopyFinished i top a a')
    (hrdy : Ready (a.op.entry i) M top) : Finished (a'.op.entry i) M a'.world.names := by
  rw [h.entry, h.names]
  exact hrdy.made h.missing

/-- **Finishing a file** publishes it and removes the temporary name. -/
theorem finishCopy_rule (hcnt : i < a.op.entryCount)
    (htemp : OpenTemp a.op top a.world.names) (hrdy : Ready (a.op.entry i) M top) :
    Shows G.watch (finishCopy B i) (fun _ => CopyFinished i top a) (Fails id i M a.op) a := by
  have hfails : ∀ r : Result, r.negative = true → Fails id i M a.op r a := fun r hr =>
    htemp.toTempOn.fails (Frame.refl i a.op) hrdy.layer hr
  refine .read <| .bind <| .copyMetadata hB ?_ hfails
  refine .bind <| .quiet (hB.silent (.syncFile _)) (hB.syncFile_quiet _) fun result => ?_
  refine .check (fun _ => ?_) fun _ => hfails _ (resultOf_negative _)
  refine .bind <| .closeFiles hB fun closed handles => ?_
  -- the closed record differs from the one before in its handles only
  set op1 : Operation := { a.op with sourceHandle := 0, temporaryHandle := 0, fileOpen := false }
  have hframe1 : Frame i a.op op1 := Frame.of_entries rfl rfl
  have htemp1 : TempOn op1 top a.world.names :=
    { htemp with }
  refine .check (fun _ => ?_) fun _ =>
    ⟨rfl, hframe1, .inr ⟨⟨top, hrdy.layer, htemp1.held⟩, fun _ => htemp1.copy⟩⟩
  refine .bind <| .mono (publishCopy_rule hB (M := M) hcnt htemp1 hrdy) (fun _ a2 h2 => ?_)
    fun r a2 h2 => h2.frame hframe1
  -- both names are there; the temporary one is removed
  have hpath2 : a2.op.temporaryPath = a.op.temporaryPath := h2.only.field (·.temporaryPath)
  have hcleanup2 := (h2.only.field (·.temporaryCleanupState)).trans htemp.cleanup
  have hframe2 := hframe1.trans h2.only.frame
  have hentry2 : a2.op.entry i = { a.op.entry i with
    created := true, objectIdentity := a.op.temporaryIdentity } := h2.entry
  set below := insert (a.op.entry i).destinationPath a.op.temporaryIdentity top with hbelow
  have hheld : Held a2.op.temporaryPath (Slot.temporary.identity a2.op)
      (Slot.temporary.cleanup a2.op) below a2.world.names := by
    refine .inl ?_
    show Owned _ a2.op.temporaryCleanupState _ _
    rw [hpath2, hcleanup2, show a2.world.names = insert a.op.temporaryPath _ below from h2.names]
    refine Owned.of_occupied ?_ (by decide) (.inr ⟨_, rfl⟩)
    exact (insert_of_ne h2.distinct).trans htemp.missing
  refine .read <| .bind <| .orFail <| .mono
    (cleanupCreatedPath_rule hB (show Slot.temporary.Valid a2.op from trivial) hheld) ?_ ?_
  · rintro _ a3 ⟨hslot, hclean, hnames⟩
    exact .update ⟨hframe2.trans { hslot.frame with },
      ⟨rfl, hclean, (hslot.field (·.fileOpen)).trans (h2.only.field (·.fileOpen))⟩,
      (hslot.field (·.entry i)).trans hentry2, h2.missing, hnames⟩
  rintro _ a3 ⟨hslot, hheld3⟩
  refine ⟨rfl, hframe2.trans hslot.frame, .inr ⟨⟨below, ?_, ?_⟩, fun _ => ?_⟩⟩
  · rw [(hslot.field (·.entry i)).trans hentry2]
    exact (hrdy.made h2.missing).layer
  · have hcre := (h2.only.field (·.temporaryCreated)).trans htemp.created
    rw [TempLayer.of_created ((hslot.field (·.temporaryCreated)).trans hcre),
      hslot.field (·.temporaryPath)]
    exact hheld3
  · exact (hslot.field (·.operation)).trans ((h2.only.field (·.operation)).trans htemp.copy)

end
end RinRuntime.FileOperation

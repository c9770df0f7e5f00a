/-
FileOperation.SafeSave — replacing a document through a temporary sibling (`safe_save.c`, POSIX
build).

The backend is arbitrary: its callbacks answer from a state of their own. A run is described by its result
and by the calls it makes, with their answers, in order (`safeSave_ordered`), as a backend that records its
calls sees them (`safeSave_recording`). The backend is well formed and
the data not null; a temporary path without a terminator is one that fills its buffer.
-/
import RinRuntime.FileOperation.PathNames

namespace RinRuntime.FileOperation.SafeSave
open List Option

/-- `RinRuntimeSafeSaveResult`. -/
inductive SafeSaveResult where
  | completed
  | committedUnsynced
  | invalidArgument
  | ioFailed
  | cleanupFailed
  deriving DecidableEq, Repr

/-- `RinRuntimeSafeSaveBackendV1`: every callback answers a status, 0 for success. -/
structure Backend (W : Type) where
  openTemporary : Path → W → (Int × Path × Nat) × W
  write : Nat → List UInt8 → W → (Int × Nat) × W
  syncFile : Nat → W → Int × W
  close : Nat → W → Int × W
  publishReplace : Path → Path → W → Int × W
  removeTemporary : Path → W → Int × W
  syncDirectory : Path → W → Int × W

/-- A call of `write` with its answer. -/
structure Write where
  bytes : List UInt8
  status : Int
  written : Nat

/-- The prefix that a call accepts. -/
def Write.accepted (w : Write) : List UInt8 :=
  if w.status ≠ 0 ∨ w.written = 0 ∨ w.bytes.length < w.written then [] else w.bytes.take w.written

/-- A call of the backend with its answer; the write loop is one item. -/
inductive Call where
  | openTemporary (status : Int) (handle : Nat)
  | writes (calls : List Write)
  | syncFile (status : Int)
  | close (handle : Nat) (status : Int)
  | publishReplace (temporary target : Path) (status : Int)
  | removeTemporary (path : Path) (status : Int)
  | syncDirectory (path : Path) (status : Int)

/-- `safe_save_parent`. A valid path has a slash. -/
def safeSaveParent (path : Path) : Option Path :=
  if pathValid path = false ∨ path.length < 2 ∨ lastSlash path + 1 = path.length then none
  else if lastSlash path = 0 then some [slash]
  else if pathMax ≤ lastSlash path + 1 ∨ pathValid (path.take (lastSlash path)) = false then none
  else some (path.take (lastSlash path))

/-- `RINRUNTIME_SAFE_SAVE_TEMP_PATH_MAX`. -/
def tempPathMax : Nat := pathMax + 64

/-- What follows the parent in a temporary path. -/
def temporaryBasename (temporary expectedParent : Path) : Option Path :=
  if expectedParent.getLast? = some slash then
    if temporary.take expectedParent.length ≠ expectedParent then none
    else some (temporary.drop expectedParent.length)
  else if temporary.length ≤ expectedParent.length + 1 ∨ temporary.take expectedParent.length ≠ expectedParent ∨
      temporary.getD expectedParent.length 0 ≠ slash then none
  else some (temporary.drop (expectedParent.length + 1))

/-- `safe_save_temporary_path_valid`. -/
def temporaryPathValid (temporary expectedParent : Path) : Bool :=
  if pathValid expectedParent = false ∨ tempPathMax ≤ temporary.length ∨
      pathValidLimit temporary tempPathMax = false ∨ expectedParent.length = 0 ∨
      temporary.length ≤ expectedParent.length then false
  else
    match temporaryBasename temporary expectedParent with
    | none => false
    | some basename =>
        basename ≠ [] ∧ basename ≠ [dot] ∧ basename ≠ [dot, dot] ∧
          basename.all (fun value => ¬ (value = slash ∨ value = backslash ∨ value < 0x20 ∨ value = 0x7f)) = true

section
variable {W : Type} (B : Backend W)

/-- `safe_save_cleanup`. -/
def cleanup (temporary parent : Path) (w : W) : SafeSaveResult × List Call × W :=
  let (removed, w) := B.removeTemporary temporary w
  let (synchronized, w) := B.syncDirectory parent w
  (if removed = 0 ∧ synchronized = 0 then .ioFailed else .cleanupFailed,
    [.removeTemporary temporary removed, .syncDirectory parent synchronized], w)

/-- The write loop, with what remains of the data: its calls, and whether it came to the end. -/
def writeAll (handle : Nat) (remaining : List UInt8) (w : W) : List Write × Bool × W :=
  if remaining = [] then ([], true, w)
  else
    let ((status, written), w) := B.write handle remaining w
    if _h : status ≠ 0 ∨ written = 0 ∨ remaining.length < written then ([⟨remaining, status, written⟩], false, w)
    else
      let (calls, complete, w) := writeAll handle (remaining.drop written) w
      (⟨remaining, status, written⟩ :: calls, complete, w)
termination_by remaining.length
decreasing_by
  rw [length_drop]
  omega

/-- `rinruntime_safe_save`. -/
def safeSave (target : Path) (data : List UInt8) (w : W) : SafeSaveResult × List Call × W :=
  match safeSaveParent target with
  | none => (.invalidArgument, [], w)
  | some parent =>
      let ((status, temporary, handle), w) := B.openTemporary target w
      let opened := Call.openTemporary status handle
      if status ≠ 0 then (.ioFailed, [opened], w)
      else if temporaryPathValid temporary parent = false ∨ temporary = target ∨ pathValid target = false then
        let (closed, w) := B.close handle w
        (.ioFailed, [opened, .close handle closed], w)
      else
        let (writes, complete, w) := writeAll B handle data w
        if complete = false then
          let (closed, w) := B.close handle w
          let (result, calls, w) := cleanup B temporary parent w
          (result, opened :: .writes writes :: .close handle closed :: calls, w)
        else
          -- the handle is closed whether or not the file could be synchronized
          let (synced, w) := B.syncFile handle w
          let (closed, w) := B.close handle w
          let calls := [opened, .writes writes, .syncFile synced, .close handle closed]
          if synced ≠ 0 ∨ closed ≠ 0 then
            let (result, rest, w) := cleanup B temporary parent w
            (result, calls ++ rest, w)
          else
            let (published, w) := B.publishReplace temporary target w
            if published ≠ 0 then
              let (result, rest, w) := cleanup B temporary parent w
              (result, calls ++ .publishReplace temporary target published :: rest, w)
            else
              let (synchronized, w) := B.syncDirectory parent w
              (if synchronized ≠ 0 then .committedUnsynced else .completed,
                calls ++ [.publishReplace temporary target published, .syncDirectory parent synchronized], w)

end

/-! ## §1. The paths. -/

theorem joined_append (names : List Path) (name : Path) :
    joined (names ++ [name]) = slashed names ++ slash :: name := by
  simp [joined, slashed]

/-- The parent of a target drops its last component. -/
theorem safeSaveParent_joined {target parent : Path} (h : safeSaveParent target = some parent) :
    ∃ names last, (∀ c ∈ names, Component c) ∧ target = joined (names ++ [last]) ∧ parent = joined names := by
  unfold safeSaveParent at h
  rw [ite_none_left_eq_some] at h
  obtain ⟨hnot, h⟩ := h
  push Not at hnot
  obtain ⟨names, hall, rfl, -⟩ := pathValid_iff.mp (by simpa using hnot.1)
  obtain ⟨front, last, rfl⟩ : ∃ front last, names = front ++ [last] := by
    rcases eq_nil_or_concat names with rfl | ⟨front, last, rfl⟩
    · exact absurd hnot.2.1 (by decide)
    · exact ⟨front, last, concat_eq_append⟩
  obtain ⟨hfront, hlast⟩ := forall_mem_append.mp hall
  refine ⟨front, last, hfront, rfl, ?_⟩
  rw [joined_append, lastSlash_append _ (hlast last (by simp)).noSlash, take_left] at h
  cases front with
  | nil => exact (some.inj h).symm
  | cons c cs =>
    rw [if_neg (by simp [slashed]), ite_none_left_eq_some] at h
    exact (some.inj h.2).symm

/-- A temporary path that is accepted is a child of the parent. -/
theorem temporaryPathValid_joined {temporary : Path} {names : List Path} (hall : ∀ c ∈ names, Component c)
    (h : temporaryPathValid temporary (joined names) = true) :
    ∃ name, Component name ∧ temporary = joined (names ++ [name]) := by
  unfold temporaryPathValid at h
  split_ifs at h with hlimits
  cases hbase : temporaryBasename temporary (joined names) with
  | none => rw [hbase] at h; cases h
  | some name =>
    rw [hbase] at h
    obtain ⟨hnil, hdot, hdots, hbytes⟩ := of_decide_eq_true h
    refine ⟨name, ⟨hnil, hdot, hdots, fun b hb => ?_⟩, ?_⟩
    · exact not_or.mp (of_decide_eq_true (all_eq_true.mp hbytes b hb))
    unfold temporaryBasename at hbase
    rw [joined_append, ← take_append_drop (joined names).length temporary]
    rcases eq_nil_or_concat names with rfl | ⟨front, last, rfl⟩
    · rw [if_pos (by rfl), ite_none_left_eq_some, not_not] at hbase
      rw [hbase.1, some.inj hbase.2]
      rfl
    · rw [concat_eq_append] at *
      have hlast := hall last (by simp)
      have hend : (joined (front ++ [last])).getLast? ≠ some slash := by
        rw [joined_append, append_cons, List.getLast?_append, List.getLast?_eq_some_getLast hlast.nonempty]
        exact fun hslash => hlast.noSlash (some.inj hslash ▸ getLast_mem _)
      have hform : joined (front ++ [last]) = slashed (front ++ [last]) := if_neg (by simp)
      rw [if_neg hend, ite_none_left_eq_some] at hbase
      obtain ⟨hnot, hname⟩ := hbase
      push Not at hnot
      rw [hnot.2.1, ← hform, drop_eq_getElem_cons (by omega)]
      rw [getD_eq_getElem?_getD, List.getElem?_eq_getElem (by omega), getD_some] at hnot
      rw [hnot.2.2, some.inj hname]

/-! ## §2. The calls. -/
section
variable {W : Type} {B : Backend W}

/-- Where the loop comes to the end, the accepted prefixes are the data. -/
theorem writeAll_accepted (handle : Nat) (remaining : List UInt8) (w : W)
    (h : (writeAll B handle remaining w).2.1 = true) :
    (writeAll B handle remaining w).1.flatMap Write.accepted = remaining := by
  fun_induction writeAll B handle remaining w with
  | case1 => rfl
  | case2 => cases h
  | case3 remaining w hne status written w' hwrite hok calls complete w'' hrun ih =>
    rw [hrun] at ih
    rw [flatMap_cons, ih h, Write.accepted, if_neg hok, take_append_drop]

end

/-- A call of `publish_replace`. -/
@[simp] def isPublish : Call → Bool
  | .publishReplace .. => true
  | _ => false

/-- A call of `publish_replace` that succeeds. -/
@[simp] def published : Call → Bool
  | .publishReplace _ _ status => status == 0
  | _ => false

@[simp] def accepted : Call → List UInt8
  | .writes calls => calls.flatMap Write.accepted
  | _ => []

@[simp] def openedHandles : Call → List Nat
  | .openTemporary status handle => if status = 0 then [handle] else []
  | _ => []

@[simp] def closedHandles : Call → List Nat
  | .close handle _ => [handle]
  | _ => []

/-- `path` is another child of the target's parent. -/
def Sibling (target path : Path) : Prop :=
  path ≠ target ∧ ∃ names last name, (∀ c ∈ names, Component c) ∧ Component name ∧
    target = joined (names ++ [last]) ∧ path = joined (names ++ [name])

/-- What the calls of a save keep to. -/
structure Ordered (target : Path) (data : List UInt8) (result : SafeSaveResult) (calls : List Call) : Prop where
  once : calls.countP isPublish ≤ 1
  whole : calls.any isPublish = true → let before := calls.takeWhile (!isPublish ·)
    before.flatMap accepted = data ∧ Call.syncFile 0 ∈ before ∧ ∃ handle, Call.close handle 0 ∈ before
  sibling : ∀ path status, Call.removeTemporary path status ∈ calls → Sibling target path
  kept : ∀ path status, Call.removeTemporary path status ∉ calls.dropWhile (!published ·)
  closed : calls.flatMap closedHandles = calls.flatMap openedHandles
  completed : result = .completed ↔ ∃ temporary parent, calls.dropWhile (!published ·) =
    [.publishReplace temporary target 0, .syncDirectory parent 0]

section
variable {W : Type} {B : Backend W} {temporary parent : Path} {w : W}

@[simp] theorem cleanup_calls : (cleanup B temporary parent w).2.1 =
    [.removeTemporary temporary (B.removeTemporary temporary w).1,
      .syncDirectory parent (B.syncDirectory parent (B.removeTemporary temporary w).2).1] :=
  rfl

@[simp] theorem cleanup_result : (cleanup B temporary parent w).1 ≠ .completed := by
  unfold cleanup
  dsimp only
  split_ifs <;> exact nofun

end

/-- **A save publishes once, the whole data**, removes only what is its own and closes what it opens. -/
theorem safeSave_ordered {W : Type} (B : Backend W) (target : Path) (data : List UInt8) (w : W) :
    Ordered target data (safeSave B target data w).1 (safeSave B target data w).2.1 := by
  unfold safeSave
  cases hparent : safeSaveParent target with
  | none => constructor <;> simp
  | some parent =>
    obtain ⟨names, last, hall, htgt, rfl⟩ := safeSaveParent_joined hparent
    rcases B.openTemporary target w with ⟨⟨status, temporary, handle⟩, w₁⟩
    dsimp only
    -- one case for each return
    split_ifs with hopen hbad hwrites hsynced hpublished
    · constructor <;> simp [hopen]
    · constructor <;> simp_all
    all_goals
      rw [not_not] at hopen
      push Not at hbad
      obtain ⟨name, hname, htemp⟩ := temporaryPathValid_joined hall (by simpa using hbad.1)
      have hsibling : ∀ {path : Path} {p : Prop}, path = temporary ∧ p → Sibling target path := by
        rintro _ _ ⟨rfl, -⟩
        exact ⟨hbad.2.1, names, last, name, hall, hname, htgt, htemp⟩
    · exact ⟨by simp, by simp, fun _ _ h => hsibling (by simpa using h), by simp, by simp [hopen], by simp⟩
    · exact ⟨by simp, by simp, fun _ _ h => hsibling (by simpa using h), by simp, by simp [hopen], by simp⟩
    all_goals
      have hwhole := writeAll_accepted handle data w₁ (by simpa using hwrites)
      push Not at hsynced
    · exact ⟨Nat.le_refl 1, by simp [hwhole, hsynced], fun _ _ h => hsibling (by simpa using h), by simp [hpublished],
        by simp [hopen], by simp [hpublished]⟩
    all_goals
      exact ⟨Nat.le_refl 1, by simp [hwhole, hsynced], fun _ _ h => by simp at h, by simp_all, by simp [hopen],
        by simp_all⟩

/-! ## §3. The calls the backend sees. -/
section
variable {W A : Type} (B : Backend W)

/-- A callback that appends its call to a log. -/
def recorded (callback : W → A × W) (call : A → Call) (w : W × List Call) : A × W × List Call :=
  let (answer, w') := callback w.1
  (answer, w', w.2 ++ [call answer])

/-- The backend with a log of its calls. -/
@[simps] def Backend.recording : Backend (W × List Call) where
  openTemporary path := recorded (B.openTemporary path) fun (status, _, handle) => .openTemporary status handle
  write handle bytes := recorded (B.write handle bytes) fun (status, written) => .writes [⟨bytes, status, written⟩]
  syncFile handle := recorded (B.syncFile handle) .syncFile
  close handle := recorded (B.close handle) (.close handle)
  publishReplace temporary path := recorded (B.publishReplace temporary path) (.publishReplace temporary path)
  removeTemporary path := recorded (B.removeTemporary path) (.removeTemporary path)
  syncDirectory path := recorded (B.syncDirectory path) (.syncDirectory path)

/-- The calls of an item. -/
@[simp] def Call.each : Call → List Call
  | .writes calls => calls.map fun call => .writes [call]
  | call => [call]

theorem writeAll_recording (handle : Nat) (remaining : List UInt8) (w : W) (log : List Call) :
    writeAll B.recording handle remaining (w, log) =
      let (calls, complete, w') := writeAll B handle remaining w
      (calls, complete, w', log ++ (Call.writes calls).each) := by
  fun_induction writeAll B handle remaining w generalizing log with
  | case1 w => rw [writeAll, if_pos rfl]; simp
  | case2 remaining w hne status written w' hwrite hbad =>
    rw [writeAll, if_neg hne]
    simp [recorded, hwrite, hbad]
  | case3 remaining w hne status written w' hwrite hok calls complete w'' hrun ih =>
    rw [writeAll, if_neg hne]
    rw [hrun] at ih
    simp [recorded, hwrite, hok, ih]

/-- The calls of a save are the ones its backend sees. -/
theorem safeSave_recording (target : Path) (data : List UInt8) (w : W) (log : List Call) :
    safeSave B.recording target data (w, log) =
      let (result, calls, w') := safeSave B target data w
      (result, calls, w', log ++ calls.flatMap Call.each) := by
  unfold safeSave
  cases safeSaveParent target with
  | none => simp
  | some parent =>
    simp only [Backend.recording_openTemporary, recorded, writeAll_recording, cleanup, Backend.recording_close,
      Backend.recording_syncFile, Backend.recording_publishReplace, Backend.recording_removeTemporary,
      Backend.recording_syncDirectory]
    split_ifs <;> simp

end

/-- A backend without failures that writes two bytes at most. -/
def twoBytes : Backend Unit where
  openTemporary _ _ := ((0, joined [[0x74]], 3), ())
  write _ bytes _ := ((0, min 2 bytes.length), ())
  syncFile _ _ := (0, ())
  close _ _ := (0, ())
  publishReplace _ _ _ := (0, ())
  removeTemporary _ _ := (0, ())
  syncDirectory _ _ := (0, ())

example : let run := safeSave twoBytes.recording (joined [[0x64]]) [1, 2, 3] ((), [])
    run.1 = .completed ∧ run.2.2.2.flatMap accepted = [1, 2, 3] ∧ run.2.2.2.length = 7 ∧
      run.2.2.2.any published = true := by
  decide +kernel

end RinRuntime.FileOperation.SafeSave

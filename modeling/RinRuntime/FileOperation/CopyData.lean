/-
FileOperation.CopyData — the bytes of a copy.

While a file is open, `completed_bytes` says how much of it has been copied, both handles stand at
that offset, and the temporary file agrees with the source up to it (`OpenFile`). Every step of the
transfer keeps this, dense or sparse; a finished file holds the bytes of its source
(`copyOpenFile_data`).
-/
import RinRuntime.FileOperation.ReplaceRollback

namespace RinRuntime.FileOperation
open Lib Exec NameTree Layers ByteFile List

/-! ## §1. Counting bytes. -/

theorem Operation.bytesBefore_congr {op op' : Operation} {i : Nat}
    (h : ∀ k < i, SamePlan (op.entry k) (op'.entry k)) : op'.bytesBefore i = op.bytesBefore i := by
  induction i with
  | zero => rfl
  | succ i ih =>
    have hbytes : (op'.entry i).bytes = (op.entry i).bytes := by
      unfold Entry.bytes
      rw [(h i (Nat.lt_succ_self i)).kind, (h i (Nat.lt_succ_self i)).sizeBytes]
    rw [Operation.bytesBefore, Operation.bytesBefore, hbytes, ih fun k hk => h k (Nat.lt_succ_of_lt hk)]

theorem Operation.bytesBefore_mono (op : Operation) {i j : Nat} (h : i ≤ j) :
    op.bytesBefore i ≤ op.bytesBefore j := by
  induction h with
  | refl => exact Nat.le_refl _
  | step _ ih => exact Nat.le_trans ih (Nat.le_add_right _ _)

/-- What `completed_bytes` says about the current entry: the bytes beyond those before it. -/
theorem entryCompleted_eq {op : Operation} {c : Nat}
    (h : op.completedBytes = op.bytesBefore op.entryIndex + c) : entryCompleted op = some c := by
  -- the loop takes the sizes off one after the other
  have hloop : ∀ n v, op.bytesBefore n ≤ v →
      (range n).foldlM (fun completed index =>
        let prior := op.entry index
        if prior.kind ≠ .file then some completed
        else if completed < prior.sizeBytes then none
        else some (completed - prior.sizeBytes)) v = some (v - op.bytesBefore n) := by
    intro n
    induction n with
    | zero => intro v _; rfl
    | succ n ih =>
      intro v hv
      have hle : op.bytesBefore n ≤ v := Nat.le_trans (op.bytesBefore_mono (Nat.le_succ n)) hv
      rw [range_succ, foldlM_append, ih v hle]
      rw [Operation.bytesBefore, Entry.bytes] at hv
      rw [Operation.bytesBefore, Entry.bytes]
      show (if (op.entry n).kind ≠ .file then some (v - op.bytesBefore n)
        else if v - op.bytesBefore n < (op.entry n).sizeBytes then none
        else some (v - op.bytesBefore n - (op.entry n).sizeBytes)) >>= _ = _
      by_cases hfile : (op.entry n).kind = .file
      · rw [if_pos hfile] at hv ⊢
        rw [if_neg (by simp [hfile]), if_neg (by omega)]
        show some _ = some _
        rw [Nat.sub_sub]
      rw [if_neg hfile]
      rw [if_pos hfile]
      rfl
  unfold entryCompleted
  rw [hloop op.entryIndex op.completedBytes (by omega), h, Nat.add_sub_cancel_left]

/-! ## §2. An open file. -/
section
variable {W : Type} {B : Backend W} {view : W → View} {s s' s'' : State W} {i c : Nat}
  {src : Identity} {bytes : List UInt8}

/-- The file of entry `i` is open: its first `c` bytes have been copied, and the handles stand at `p`
and `q`. -/
structure OpenFile (B : Backend W) (view : W → View) (i : Nat) (src : Identity) (bytes : List UInt8)
    (c p q : Nat) (s : State W) : Prop where
  distinct : s.op.temporaryHandle ≠ s.op.sourceHandle
  objects : src ≠ s.op.temporaryIdentity
  source : (view s.world).handles s.op.sourceHandle = some (src, p)
  target : (view s.world).handles s.op.temporaryHandle = some (s.op.temporaryIdentity, q)
  sourceBytes : (view s.world).content src = some bytes
  file : ∃ file, (view s.world).content s.op.temporaryIdentity = some file ∧
    Copied (s.op.entry i).sizeBytes bytes c s.op.sparseOutputSized file
  length : B.sparse.isSome = true → bytes.length = (s.op.entry i).sizeBytes
  completed : s.op.completedBytes = s.op.bytesBefore i + c

/-- The temporary file holds all the bytes of its source. -/
structure FilledFile (B : Backend W) (view : W → View) (i : Nat) (bytes : List UInt8)
    (s : State W) : Prop where
  content : (view s.world).content s.op.temporaryIdentity
    = some (bytes.take (s.op.entry i).sizeBytes)
  size_le : (s.op.entry i).sizeBytes ≤ bytes.length
  length : B.sparse.isSome = true → bytes.length = (s.op.entry i).sizeBytes
  completed : s.op.completedBytes = s.op.bytesBefore i + (s.op.entry i).sizeBytes

theorem OpenFile.filled {p q : Nat} (h : OpenFile B view i src bytes (s.op.entry i).sizeBytes p q s) :
    FilledFile B view i bytes s := by
  obtain ⟨file, hfile, hcopied⟩ := h.file
  refine ⟨?_, hcopied.within, h.length, h.completed⟩
  rw [hfile, hcopied.complete]

/-- What the transfer leaves alone: the entries, the core, the log, and every object but the
temporary one. -/
structure Transfers (view : W → View) (s s' : State W) : Prop where
  entries : s'.op.entries = s.op.entries
  core : s'.op.core = s.op.core
  identity : s'.op.temporaryIdentity = s.op.temporaryIdentity
  fileOpen : s'.op.fileOpen = s.op.fileOpen
  log : s'.log = s.log
  content : ∀ id, id ≠ s.op.temporaryIdentity →
    (view s'.world).content id = (view s.world).content id

theorem Transfers.refl (s : State W) : Transfers view s s :=
  ⟨rfl, rfl, rfl, rfl, rfl, fun _ _ => rfl⟩

theorem Transfers.trans (h : Transfers view s s') (h' : Transfers view s' s'') : Transfers view s s'' := by
  refine ⟨h'.entries.trans h.entries, h'.core.trans h.core, h'.identity.trans h.identity,
    h'.fileOpen.trans h.fileOpen, h'.log.trans h.log, fun id hid => ?_⟩
  rw [h'.content id (by rw [h.identity]; exact hid)]
  exact h.content id hid

theorem Transfers.bytesBefore (h : Transfers view s s') (k : Nat) :
    s'.op.bytesBefore k = s.op.bytesBefore k := by
  refine Operation.bytesBefore_congr fun j _ => ?_
  rw [entry_of_entries h.entries]
  exact SamePlan.refl _

/-! ## §3. Writing a chunk. -/

/-- `chunk` has been written to the temporary file at `position`. -/
structure Wrote (view : W → View) (chunk old : List UInt8) (position : Nat) (s s' : State W) :
    Prop where
  op : s'.op = s.op
  log : s'.log = s.log
  handles : ∀ h, h ≠ s.op.temporaryHandle →
    (view s'.world).handles h = (view s.world).handles h
  target : (view s'.world).handles s.op.temporaryHandle
    = some (s.op.temporaryIdentity, position + chunk.length)
  file : (view s'.world).content s.op.temporaryIdentity = some (overwrite old position chunk)
  other : ∀ id, id ≠ s.op.temporaryIdentity →
    (view s'.world).content id = (view s.world).content id

/-- **The write loop** stores the whole chunk, in however many rounds. -/
theorem writeAll_data (hB : Lawful view B) :
    ∀ {rounds : Nat} {chunk old : List UInt8} {position : Nat} {s : State W},
      chunk.length ≤ rounds → position ≤ old.length →
      (view s.world).handles s.op.temporaryHandle = some (s.op.temporaryIdentity, position) →
      (view s.world).content s.op.temporaryIdentity = some old →
      wp (writeAll B rounds chunk) (fun _ => Wrote view chunk old position s) (fun _ _ => True) s := by
  intro rounds
  induction rounds with
  | zero =>
    intro chunk old position s hlen hle htgt hold
    have hnil : chunk = [] := eq_nil_of_length_eq_zero (Nat.le_zero.mp hlen)
    rw [hnil]
    refine ⟨rfl, rfl, fun _ _ => rfl, htgt, ?_, fun _ _ => rfl⟩
    rw [hold, overwrite_nil hle]
  | succ rounds ih =>
    intro chunk old position s hlen hle htgt hold
    unfold writeAll
    simp only [wp_bind, wp_ite, wp_pure, wp_getOp, wp_ask, wp_require]
    refine ⟨fun hnil => ?_, fun _ => ?_⟩
    · rw [hnil]
      refine ⟨rfl, rfl, fun _ _ => rfl, htgt, ?_, fun _ _ => rfl⟩
      rw [hold, overwrite_nil hle]
    have hwrite := hB.write_ok s.op.temporaryHandle chunk s.world _ _ old htgt hold
    have hothers := (hB.write_onHandle s.op.temporaryHandle chunk s.world).2
    have hcontents := hB.write_other s.op.temporaryHandle chunk s.world
    rcases hcall : B.write s.op.temporaryHandle chunk s.world with ⟨⟨result, written⟩, w1⟩
    rw [hcall] at hwrite hothers hcontents
    dsimp only at hwrite hothers hcontents ⊢
    refine ⟨fun h0 => ⟨fun hwr => ?_, fun _ => trivial⟩, fun _ => trivial⟩
    obtain ⟨hfile, hpos⟩ := hwrite h0
    have htake : (chunk.take written).length = written := by
      rw [length_take, Nat.min_eq_left hwr.2]
    -- the rest of the chunk goes on where this write stopped
    have hrounds : (chunk.drop written).length ≤ rounds := by
      rw [length_drop]
      omega
    have hle1 : position + written ≤ (overwrite old position (chunk.take written)).length := by
      rw [length_overwrite hle, htake]
      omega
    refine wp_mono (ih (s := ⟨s.op, w1, s.log⟩) hrounds hle1 hpos hfile) ?_ (fun _ _ h => h)
    intro _ s2 h2
    refine ⟨h2.op, h2.log, fun h hh => (h2.handles h hh).trans (hothers h hh), ?_, ?_, ?_⟩
    · rw [h2.target, length_drop]
      congr 2
      omega
    · have hmerge := overwrite_overwrite hle (chunk.take written) (chunk.drop written)
      rw [htake, take_append_drop] at hmerge
      rw [← hmerge]
      exact h2.file
    intro id hid
    refine (h2.other id hid).trans (hcontents id fun position' h => ?_)
    rw [htgt] at h
    exact hid (Prod.mk.inj (Option.some.inj h)).1.symm

/-! ## §4. Holes. -/
section
variable {sparse : SparseBackend W} {p q : Nat}

/-- A callback that changes neither contents nor the object behind a handle of the open file. -/
theorem OpenFile.of_handles {w : W} {p' q' : Nat} (h : OpenFile B view i src bytes c p q s)
    (hcont : (view w).content = (view s.world).content)
    (hsrc : (view w).handles s.op.sourceHandle = some (src, p'))
    (htgt : (view w).handles s.op.temporaryHandle = some (s.op.temporaryIdentity, q')) :
    OpenFile B view i src bytes c p' q' { s with world := w } := by
  refine ⟨h.distinct, h.objects, hsrc, htgt, ?_, ?_, h.length, h.completed⟩
  · show (view w).content src = some bytes
    rw [hcont]
    exact h.sourceBytes
  obtain ⟨file, hfile, hcopied⟩ := h.file
  refine ⟨file, ?_, hcopied⟩
  show (view w).content s.op.temporaryIdentity = some file
  rw [hcont]
  exact hfile

theorem Transfers.of_content {w : W} (hcont : (view w).content = (view s.world).content) :
    Transfers view s { s with world := w } :=
  ⟨rfl, rfl, rfl, rfl, rfl, fun id _ => congrFun hcont id⟩

theorem OpenFile.seekSource (hlaw : LawfulSparse view sparse)
    (h : OpenFile B view i src bytes c p q s) (offset : Nat) (whence : SeekWhence) :
    ∃ p', OpenFile B view i src bytes c p' q
      { s with world := (sparse.seek s.op.sourceHandle offset whence s.world).2 } := by
  obtain ⟨p', hp'⟩ := hlaw.seek_object s.op.sourceHandle offset whence s.world src p h.source
  refine ⟨p', h.of_handles (hlaw.seek_content _ _ _ _) hp' ?_⟩
  rw [(hlaw.seek_onHandle s.op.sourceHandle offset whence s.world).2 _ h.distinct]
  exact h.target

theorem positionAt_data (hlaw : LawfulSparse view sparse) {handle position : Nat} {id : Identity}
    {Q : Unit → State W → Prop} (hhandle : (view s.world).handles handle = some (id, position)) (offset : Nat)
    (h : ∀ w, (view w).content = (view s.world).content → (view w).handles handle = some (id, offset) →
      (∀ other, other ≠ handle → (view w).handles other = (view s.world).handles other) →
      Q () { s with world := w }) :
    wp (positionAt sparse handle offset) Q (fun _ _ => True) s := by
  have hset := hlaw.seek_set handle offset s.world id position hhandle
  unfold positionAt
  simp only [wp_bind, wp_ask, wp_require]
  refine ⟨fun h0 => ⟨fun hpos => ?_, fun _ => trivial⟩, fun _ => trivial⟩
  refine h _ (hlaw.seek_content _ _ _ _) ?_ (hlaw.seek_onHandle _ _ _ _).2
  rw [hset h0, hpos]

section
variable (hlaw : LawfulSparse view sparse) (h : OpenFile B view i src bytes c p q s)
include hlaw h

theorem positionSource_data (offset : Nat) : wp (positionAt sparse s.op.sourceHandle offset)
      (fun _ s' => OpenFile B view i src bytes c offset q s' ∧ Transfers view s s' ∧ s'.op = s.op)
      (fun _ _ => True) s :=
  positionAt_data hlaw h.source offset fun _ hcont hsrc hoth =>
    ⟨h.of_handles hcont hsrc ((hoth _ h.distinct).trans h.target), Transfers.of_content hcont, rfl⟩

theorem positionTarget_data (offset : Nat) : wp (positionAt sparse s.op.temporaryHandle offset)
      (fun _ s' => OpenFile B view i src bytes c p offset s' ∧ Transfers view s s' ∧ s'.op = s.op)
      (fun _ _ => True) s :=
  positionAt_data hlaw h.target offset fun _ hcont htgt hoth =>
    ⟨h.of_handles hcont ((hoth _ h.distinct.symm).trans h.source) htgt, Transfers.of_content hcont, rfl⟩

/-- Sizing the temporary file, unless that has been done. -/
theorem sparseSizeOutput_data : wp (sparseSizeOutput sparse i)
      (fun _ s' => OpenFile B view i src bytes c p q s' ∧ Transfers view s s' ∧
        s'.op = { s.op with sparseOutputSized := true })
      (fun _ _ => True) s := by
  unfold sparseSizeOutput
  simp only [wp_bind, wp_getOp, wp_ite, wp_pure, wp_ask, wp_require, wp_update]
  refine ⟨fun hsized => ⟨h, Transfers.refl s, ?_⟩, fun hsized => ⟨fun h0 => ?_, fun _ => trivial⟩⟩
  · rw [← hsized]
  have hsized : s.op.sparseOutputSized = false := by simpa using hsized
  obtain ⟨file, hfile, hcopied⟩ := h.file
  rw [hsized] at hcopied
  have hhandles := hlaw.truncate_handles s.op.temporaryHandle (s.op.entry i).sizeBytes s.world
  have hok := hlaw.truncate_ok s.op.temporaryHandle (s.op.entry i).sizeBytes s.world _ q file
    h.target hfile h0
  have hoth : ∀ id, id ≠ s.op.temporaryIdentity →
      (view (sparse.truncate s.op.temporaryHandle (s.op.entry i).sizeBytes s.world).2).content id
        = (view s.world).content id := by
    intro id hid
    refine hlaw.truncate_other _ _ _ _ fun position hpos => ?_
    rw [h.target] at hpos
    exact hid (Prod.mk.inj (Option.some.inj hpos)).1.symm
  have htransfers : Transfers view s ⟨{ s.op with sparseOutputSized := true },
        (sparse.truncate s.op.temporaryHandle (s.op.entry i).sizeBytes s.world).2, s.log⟩ :=
    ⟨rfl, rfl, rfl, rfl, rfl, hoth⟩
  refine ⟨⟨h.distinct, h.objects, ?_, ?_, ?_, ⟨_, hok, hcopied.resize⟩, h.length,
    h.completed.trans (congrArg (· + c) (htransfers.bytesBefore i).symm)⟩, htransfers, trivial⟩
  · exact (congrFun hhandles _).trans h.source
  · exact (congrFun hhandles _).trans h.target
  · exact (hoth src h.objects).trans h.sourceBytes

end

/-- Counting bytes that need no transfer: the record only. -/
theorem advanceCompleted_data {n sparseDataEnd : Nat} {Q : Unit → State W → Prop}
    (h : Q () { s with op := { s.op with
      completedBytes := s.op.completedBytes + n, sparseDataEnd := sparseDataEnd } }) :
    wp (advanceCompleted n sparseDataEnd) Q (fun _ _ => True) s := by
  unfold advanceCompleted
  simp only [wp_bind, wp_getOp, wp_require, wp_update]
  exact ⟨fun _ => h, fun _ => trivial⟩

/-- Zero bytes that the sized file already has count as copied. -/
theorem OpenFile.skipHole (n sparseDataEnd : Nat) (h : OpenFile B view i src bytes c p q s)
    (hsized : s.op.sparseOutputSized = true) (hsparse : B.sparse.isSome = true)
    (hfits : c + n ≤ (s.op.entry i).sizeBytes)
    (hhole : ∀ k, c ≤ k → k < c + n → bytes.getD k 0 = 0) :
    OpenFile B view i src bytes (c + n) p q { s with op := { s.op with
      completedBytes := s.op.completedBytes + n, sparseDataEnd := sparseDataEnd } } := by
  obtain ⟨file, hfile, hcopied⟩ := h.file
  rw [hsized] at hcopied
  have hskipped : Copied (s.op.entry i).sizeBytes bytes (c + n) s.op.sparseOutputSized file := by
    rw [hsized]
    exact hcopied.skip (h.length hsparse) (Nat.le_add_right c n) hfits hhole
  refine { h with file := ⟨file, hfile, hskipped⟩, completed := ?_ }
  have hbytes : Operation.bytesBefore { s.op with
      completedBytes := s.op.completedBytes + n, sparseDataEnd := sparseDataEnd } i
      = s.op.bytesBefore i := Operation.bytesBefore_congr fun _ _ => SamePlan.refl _
  show s.op.completedBytes + n = _ + (c + n)
  rw [hbytes, h.completed, Nat.add_assoc]

/-- The open file after a step: at `c` with both handles there, or complete. -/
def AtOffset (B : Backend W) (view : W → View) (i : Nat) (src : Identity) (bytes : List UInt8)
    (c : Nat) (s : State W) : Prop :=
  OpenFile B view i src bytes c c c s ∨ c = (s.op.entry i).sizeBytes ∧ FilledFile B view i bytes s

/-- **The extent search** loses no data: what it passes over is zero in the source as well. -/
theorem prepareExtent_data (hlaw : LawfulSparse view sparse) (hsparse : B.sparse.isSome = true)
    (h : OpenFile B view i src bytes c c c s) (hlt : c < (s.op.entry i).sizeBytes) :
    wp (prepareExtent sparse i c)
      (fun c' s' => AtOffset B view i src bytes c' s' ∧ Transfers view s s') (fun _ _ => True) s := by
  have hdata := hlaw.seek_data s.op.sourceHandle c s.world src c bytes h.source h.sourceBytes
  have hnone := hlaw.seek_noData s.op.sourceHandle c s.world src c bytes h.source h.sourceBytes
  have hunsupported := hlaw.seek_unsupported s.op.sourceHandle c .data s.world
  obtain ⟨p1, hopen1⟩ := h.seekSource hlaw c .data
  have hmoves1 := Transfers.of_content (s := s) (hlaw.seek_content s.op.sourceHandle c .data s.world)
  unfold prepareExtent
  simp only [wp_bind, wp_getOp, wp_ask]
  rcases hcall : sparse.seek s.op.sourceHandle c .data s.world with ⟨⟨result, dataStart⟩, w1⟩
  rw [hcall] at hdata hnone hunsupported hopen1 hmoves1
  rw [wp_ite]
  refine ⟨fun hres => ?_, fun _ => ?_⟩
  · -- no extents on this file: the copy goes on densely from the same position
    have hview := hunsupported hres
    have hopen : OpenFile B view i src bytes c c c { s with world := w1 } :=
      h.of_handles (by rw [hview]) (by rw [hview]; exact h.source) (by rw [hview]; exact h.target)
    refine ⟨Or.inl { hopen with completed := ?_ }, { hmoves1 with }⟩
    refine h.completed.trans (congrArg (· + c) (Eq.symm ?_))
    exact Operation.bytesBefore_congr fun _ _ => SamePlan.refl _
  simp only [wp_bind]
  refine wp_mono (sparseSizeOutput_data hlaw hopen1) ?_ (fun _ _ h => h)
  rintro _ s2 ⟨hopen2, hmoves2, hop2⟩
  have hmoves12 := hmoves1.trans hmoves2
  have hsized2 : s2.op.sparseOutputSized = true := by rw [hop2]
  have hent2 : s2.op.entry i = s.op.entry i := by rw [hop2]; rfl
  rw [wp_ite]
  refine ⟨fun hres => ?_, fun _ => ?_⟩
  · -- nothing but zeros to the end of the file
    simp only [wp_bind]
    refine advanceCompleted_data ?_
    have hend : c + ((s.op.entry i).sizeBytes - c) = (s.op.entry i).sizeBytes := by omega
    have hskip := hopen2.skipHole ((s.op.entry i).sizeBytes - c) 0 hsized2 hsparse
      (by rw [hent2]; omega) fun k hk _ => hnone hres k hk
    rw [hend, ← hent2] at hskip
    refine ⟨Or.inr ⟨congrArg Entry.sizeBytes hent2.symm, hent2 ▸ hskip.filled⟩, ?_⟩
    exact hmoves12.trans ⟨rfl, rfl, rfl, rfl, rfl, fun _ _ => rfl⟩
  -- an extent: both handles go to its start
  simp only [wp_bind, wp_require, wp_ask]
  refine ⟨fun h0 => ⟨fun hrange => ?_, fun _ => trivial⟩, fun _ => trivial⟩
  have hsrc2 : s2.op.sourceHandle = s.op.sourceHandle := by rw [hop2]
  have htgt2 : s2.op.temporaryHandle = s.op.temporaryHandle := by rw [hop2]
  rw [← hsrc2, ← htgt2]
  obtain ⟨p3, hopen3⟩ := hopen2.seekSource hlaw dataStart .hole
  have hmoves3 := Transfers.of_content (s := s2)
    (hlaw.seek_content s2.op.sourceHandle dataStart .hole s2.world)
  refine ⟨fun _ => ⟨fun hend => ?_, fun _ => trivial⟩, fun _ => trivial⟩
  refine wp_mono (positionSource_data hlaw hopen3 dataStart) ?_ (fun _ _ h => h)
  rintro _ s4 ⟨hopen4, hmoves4, hop4⟩
  have htgt4 : s4.op.temporaryHandle = s2.op.temporaryHandle := by rw [hop4]
  rw [← htgt4]
  refine wp_mono (positionTarget_data hlaw hopen4 dataStart) ?_ (fun _ _ h => h)
  rintro _ s5 ⟨hopen5, hmoves5, hop5⟩
  refine advanceCompleted_data ?_
  have hop52 : s5.op = s2.op := hop5.trans hop4
  have hstart : c + (dataStart - c) = dataStart := by omega
  have hskip := hopen5.skipHole (dataStart - c)
    (sparse.seek s2.op.sourceHandle dataStart .hole s2.world).1.2 (by rw [hop52, hsized2]) hsparse
    (by rw [hop52, hent2, hstart]; omega)
    fun k hk hk' => hdata h0 k hk (by rw [hstart] at hk'; exact hk')
  rw [hstart] at hskip
  refine ⟨Or.inl hskip, ?_⟩
  exact (hmoves12.trans (hmoves3.trans (hmoves4.trans hmoves5))).trans
    ⟨rfl, rfl, rfl, rfl, rfl, fun _ _ => rfl⟩

/-- **The sparse preparation** of a step. -/
theorem prepareSparseExtent_data (hB : Lawful view B) (h : OpenFile B view i src bytes c c c s) :
    wp (prepareSparseExtent B i c)
      (fun c' s' => AtOffset B view i src bytes c' s' ∧ Transfers view s s') (fun _ _ => True) s := by
  have hsame : AtOffset B view i src bytes c s ∧ Transfers view s s := ⟨Or.inl h, Transfers.refl s⟩
  unfold prepareSparseExtent
  simp only [wp_bind, wp_getOp, wp_ite, wp_pure, wp_require]
  refine ⟨fun _ => hsame, fun _ => ⟨fun _ => ⟨fun _ => hsame, fun _ => trivial⟩, fun hlt => ?_⟩⟩
  cases hsparse : B.sparse with
  | none => exact hsame
  | some sparse =>
    exact prepareExtent_data (hB.sparse_lawful sparse hsparse) (by rw [hsparse]; rfl) h (by omega)

end

/-! ## §5. A step on an open file. -/

/-- What a step on the open file of entry `i` leads to: more of the file is there, or the file was
complete and has been finished. -/
def Advances (B : Backend W) (view : W → View) (i : Nat) (src : Identity) (bytes : List UInt8)
    (s s' : State W) : Prop :=
  (∃ c, Transfers view s s' ∧ OpenFile B view i src bytes c c c s') ∨
  ∃ s₁ s₂, Transfers view s s₁ ∧ FilledFile B view i bytes s₁ ∧ Kept view s₁ s₂ ∧
    s' = { s₂ with op := nextEntry s₂.op }

theorem finishCopy_data (hB : Lawful view B) (hs' : Transfers view s s')
    (h : FilledFile B view i bytes s') :
    wp (finishEntry (finishCopy B i)) (fun _ => Advances B view i src bytes s) (fun _ _ => True) s' := by
  rw [wp_finishEntry]
  refine wp_mono (finishCopy_kept hB i s' (Kept.refl s')) ?_ (fun _ _ _ => trivial)
  intro _ s2 h2
  exact Or.inr ⟨s', s2, hs', h, h2, rfl⟩

/-- **One chunk** is copied to where it belongs. -/
theorem transferChunk_data (hB : Lawful view B) (hs' : Transfers view s s')
    (h : OpenFile B view i src bytes c c c s') (hne : c ≠ (s'.op.entry i).sizeBytes)
    (htotal : s'.op.bytesBefore i + (s'.op.entry i).sizeBytes ≤ u64Max) :
    wp (transferChunk B i c) (fun _ => Advances B view i src bytes s) (fun _ _ => True) s' := by
  have hread := hB.read_ok s'.op.sourceHandle (readCapacity s'.op c) s'.world src c bytes h.source
    h.sourceBytes
  have hcont := hB.read_content s'.op.sourceHandle (readCapacity s'.op c) s'.world
  have hhandle := (hB.read_onHandle s'.op.sourceHandle (readCapacity s'.op c) s'.world).2 _ h.distinct
  obtain ⟨file, hfile, hcopied⟩ := h.file
  unfold transferChunk
  simp only [wp_bind, wp_getOp, wp_require, wp_ask, wp_ite, wp_update, wp_pure]
  rcases hcall : B.read s'.op.sourceHandle (readCapacity s'.op c) s'.world with ⟨⟨result, chunk⟩, w1⟩
  rw [hcall] at hread hcont hhandle
  dsimp only at hread hcont hhandle ⊢
  refine ⟨fun _ => ⟨fun h0 => ⟨fun _ => ⟨fun _ => ⟨fun heq => absurd heq hne, fun _ => trivial⟩,
    fun _ => ⟨fun hlen => ?_, fun _ => trivial⟩⟩, fun _ => trivial⟩, fun _ => trivial⟩,
    fun _ => trivial⟩
  obtain ⟨hchunk, hsrc⟩ := hread h0
  have hopen1 : OpenFile B view i src bytes c (c + chunk.length) c { s' with world := w1 } :=
    h.of_handles hcont hsrc (hhandle.trans h.target)
  have hmoves1 : Transfers view s' { s' with world := w1 } := Transfers.of_content hcont
  have hfits : c + chunk.length ≤ (s'.op.entry i).sizeBytes := by
    have := hcopied.fits
    omega
  refine wp_mono (writeAll_data hB (Nat.le_refl _) hcopied.le_length hopen1.target ?_) ?_ (fun _ _ h => h)
  · exact (congrFun hcont _).trans hfile
  rintro _ ⟨op2, w2, log2⟩ h2
  obtain rfl : op2 = s'.op := h2.op
  -- the bytes written are those of the source at `c`
  have hwr := hcopied.write (n := chunk.length) hchunk rfl hfits
  have hmoves2 : Transfers view { s' with world := w1 } ⟨s'.op, w2, log2⟩ :=
    ⟨rfl, rfl, rfl, rfl, h2.log, h2.other⟩
  have hmoves3 : Transfers view s' ⟨{ s'.op with
      completedBytes := (s'.op.completedBytes + chunk.length) % 2 ^ 64 }, w2, log2⟩ :=
    (hmoves1.trans hmoves2).trans ⟨rfl, rfl, rfl, rfl, rfl, fun _ _ => rfl⟩
  refine Or.inl ⟨c + chunk.length, hs'.trans hmoves3, h.distinct, h.objects, ?_, h2.target, ?_,
    ⟨_, h2.file, hwr⟩, h.length, ?_⟩
  · exact (h2.handles _ (Ne.symm h.distinct)).trans hsrc
  · exact (h2.other src h.objects).trans hopen1.sourceBytes
  show (s'.op.completedBytes + chunk.length) % 2 ^ 64 = _
  unfold u64Max at htotal
  rw [hmoves3.bytesBefore, h.completed, Nat.mod_eq_of_lt (by omega), Nat.add_assoc]

/-- **A step on an open file** keeps the temporary file a copy of the source. -/
theorem copyOpenFile_data (hB : Lawful view B) (hi : i = s.op.entryIndex)
    (h : OpenFile B view i src bytes c c c s)
    (htotal : s.op.bytesBefore i + (s.op.entry i).sizeBytes ≤ u64Max) :
    wp (copyOpenFile B i) (fun _ => Advances B view i src bytes s) (fun _ _ => True) s := by
  have hcompleted : entryCompleted s.op = some c := entryCompleted_eq (by rw [← hi]; exact h.completed)
  unfold copyOpenFile
  simp only [wp_bind, wp_getOp, hcompleted, wp_require]
  refine ⟨fun _ => ?_, fun _ => trivial⟩
  refine wp_mono (prepareSparseExtent_data hB h) ?_ (fun _ _ h => h)
  rintro c1 s1 ⟨hat, hs1⟩
  have hent : s1.op.entry i = s.op.entry i := entry_of_entries hs1.entries i
  rw [wp_ite, ← hent]
  refine ⟨fun hend => ?_, fun hne => ?_⟩
  · refine finishCopy_data hB hs1 ?_
    rcases hat with hopen | ⟨_, hfilled⟩
    · rw [hend] at hopen
      exact hopen.filled
    · exact hfilled
  rcases hat with hopen | ⟨hend, _⟩
  · refine transferChunk_data hB hs1 hopen hne ?_
    rw [hs1.bytesBefore, hent]
    exact htotal
  · exact absurd hend hne

end
end RinRuntime.FileOperation

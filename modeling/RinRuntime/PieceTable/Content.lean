/-
PieceTable.Content — a piece table is a byte string.

`content` concatenates the bytes of the pieces. Each loop of the table is an edit of that string: placing a
piece inserts (`content_placeLoop`), erasing cuts (`content_eraseLoop`), coalescing changes nothing
(`content_coalesce`), reading returns a window (`readLoop_eq`).

`tables_follow_strings` runs any calls on any number of tables beside the same edits of plain strings. The
one call that loses text when it fails is `cloneForSecureMode`: out of memory, it leaves its output empty
(`clone_failure_loses`).
-/
import RinRuntime.PieceTable.Table

namespace RinRuntime.PieceTable
open Lib.Splice List Function

/-! ## §1. The string of a piece list. -/

/-- The bytes of the pieces, one after the other. -/
def content (original added : Bytes) (pieces : List Piece) : Bytes :=
  pieces.flatMap (Piece.bytes original added)

/-- The pieces lie within their buffers. -/
def InBounds (original added : Bytes) (pieces : List Piece) : Prop :=
  ∀ piece ∈ pieces, piece.offset + piece.length ≤ (piece.source.buffer original added).length

section
variable {original added : Bytes}

@[simp] theorem content_nil : content original added [] = [] := rfl

@[simp] theorem content_cons (piece : Piece) (pieces : List Piece) :
    content original added (piece :: pieces)
      = piece.bytes original added ++ content original added pieces := flatMap_cons

@[simp] theorem content_append (xs ys : List Piece) :
    content original added (xs ++ ys) = content original added xs ++ content original added ys :=
  flatMap_append

@[simp] theorem inBounds_nil : InBounds original added [] := fun _ h => absurd h (by simp)

variable {pieces : List Piece} {position stop : Nat}

@[simp] theorem inBounds_cons {piece : Piece} : InBounds original added (piece :: pieces) ↔
      piece.offset + piece.length ≤ (piece.source.buffer original added).length ∧
        InBounds original added pieces := forall_mem_cons

@[simp] theorem inBounds_append {xs ys : List Piece} :
    InBounds original added (xs ++ ys) ↔ InBounds original added xs ∧ InBounds original added ys :=
  forall_mem_append

theorem Piece.length_bytes {piece : Piece}
    (h : piece.offset + piece.length ≤ (piece.source.buffer original added).length) :
    (piece.bytes original added).length = piece.length := length_slice h

theorem length_content (h : InBounds original added pieces) :
    (content original added pieces).length = (pieces.map Piece.length).sum := by
  induction pieces with
  | nil => rfl
  | cons piece pieces ih =>
    obtain ⟨hpiece, hrest⟩ := inBounds_cons.mp h
    rw [content_cons, length_append, Piece.length_bytes hpiece, ih hrest, map_cons, sum_cons]

/-- Pieces of the old buffers are pieces of the grown ones. -/
theorem InBounds.appended (h : InBounds original added pieces) (value : Bytes) :
    InBounds original (added ++ value) pieces := by
  intro piece hpiece
  have hbound := h piece hpiece
  cases hsrc : piece.source with
  | original =>
    rw [hsrc] at hbound
    exact hbound
  | added =>
    rw [hsrc] at hbound
    show _ ≤ (added ++ value).length
    rw [length_append]
    exact Nat.le_trans hbound (Nat.le_add_right _ _)

theorem content_appended (h : InBounds original added pieces) (value : Bytes) :
    content original (added ++ value) pieces = content original added pieces := by
  induction pieces with
  | nil => rfl
  | cons piece pieces ih =>
    obtain ⟨hpiece, hrest⟩ := inBounds_cons.mp h
    rw [content_cons, content_cons, ih hrest]
    congr 1
    unfold Piece.bytes
    cases hsrc : piece.source with
    | original => rfl
    | added =>
      rw [hsrc] at hpiece
      exact slice_append hpiece value

/-! ## §2. The loops. -/

theorem placeLoop_placed (position : Nat) (inserted : Piece) (cursor : Nat) (pieces : List Piece) :
    placeLoop position inserted cursor true pieces = pieces := by
  induction pieces generalizing cursor with
  | nil => rfl
  | cons piece pieces ih =>
    rw [placeLoop, ih]
    rfl

section
variable (h : InBounds original added pieces) (cursor : Nat)
include h cursor

theorem content_placeLoop {position : Nat} {inserted : Piece} (hcursor : cursor ≤ position) :
    content original added (placeLoop position inserted cursor false pieces)
      = insertAt (content original added pieces) (position - cursor) (inserted.bytes original added) := by
  induction pieces generalizing cursor with
  | nil => simp [placeLoop, insertAt]
  | cons piece pieces ih =>
    obtain ⟨hpiece, hrest⟩ := inBounds_cons.mp h
    have hlen := Piece.length_bytes hpiece
    rw [placeLoop]
    by_cases hhere : position ≤ cursor + piece.length
    · -- the position falls into this piece or on one of its ends
      rw [if_pos (by simpa using hhere), placeLoop_placed, content_append, content_cons,
        insertAt_append_of_le (by omega)]
      congr 1
      split_ifs with hstart hend
      · simp [insertAt, hstart]
      · simp [insertAt, hend, ← hlen]
      have hsplit : (piece.bytes original added)
          = slice (piece.source.buffer original added) piece.offset (position - cursor) ++
            slice (piece.source.buffer original added) (piece.offset + (position - cursor))
              (piece.length - (position - cursor)) := by
        rw [← slice_add]
        unfold Piece.bytes
        congr 1
        omega
      have hfst : (slice (piece.source.buffer original added) piece.offset
          (position - cursor)).length = position - cursor := length_slice (by omega)
      rw [insertAt, hsplit, take_left' hfst, drop_left' hfst]
      simp [Piece.bytes]
    rw [if_neg (by simpa using hhere), content_cons, content_cons, ih hrest _ (by omega),
      insertAt_append_of_ge (by omega), hlen]
    congr 2
    omega

theorem inBounds_placeLoop {position : Nat} {inserted : Piece}
    (hinserted : InBounds original added [inserted]) (placed : Bool)
    (hcursor : placed = false → cursor ≤ position) :
    InBounds original added (placeLoop position inserted cursor placed pieces) := by
  have hnew := (inBounds_cons.mp hinserted).1
  induction pieces generalizing cursor placed with
  | nil =>
    cases placed with
    | false => exact hinserted
    | true => exact inBounds_nil
  | cons piece pieces ih =>
    obtain ⟨hpiece, hrest⟩ := inBounds_cons.mp h
    rw [placeLoop]
    dsimp only
    split_ifs with hhere hstart hend
    · exact inBounds_append.mpr ⟨by simp [hnew, hpiece], ih hrest _ true (by simp)⟩
    · exact inBounds_append.mpr ⟨by simp [hnew, hpiece], ih hrest _ true (by simp)⟩
    · have hle : position ≤ cursor + piece.length := by simp at hhere; exact hhere.2
      refine inBounds_append.mpr ⟨?_, ih hrest _ true (by simp)⟩
      simp only [inBounds_cons, inBounds_nil, and_true]
      exact ⟨by omega, hnew, by omega⟩
    refine inBounds_cons.mpr ⟨hpiece, ih hrest _ placed ?_⟩
    intro hplaced
    subst hplaced
    have hbehind : ¬ position ≤ cursor + piece.length := by simpa using hhere
    omega

theorem content_eraseLoop (hle : position ≤ stop) :
    content original added (eraseLoop position stop cursor pieces)
      = cut (content original added pieces) (position - cursor) (stop - cursor) := by
  induction pieces generalizing cursor with
  | nil => simp [eraseLoop, cut]
  | cons piece pieces ih =>
    obtain ⟨hpiece, hrest⟩ := inBounds_cons.mp h
    have hlen := Piece.length_bytes hpiece
    rw [eraseLoop, content_append, ih hrest, content_cons]
    by_cases hbef : cursor + piece.length ≤ position
    · -- the piece ends before the range
      rw [if_pos (.inl hbef), cut_append_of_ge (by omega) (by omega), hlen, content_cons,
        content_nil, append_nil]
      congr 2 <;> omega
    by_cases hafter : stop ≤ cursor
    · -- the piece begins behind the range
      rw [if_pos (.inr hafter)]
      have hp : position - cursor = 0 := by omega
      have hs : stop - cursor = 0 := by omega
      have hp' : position - (cursor + piece.length) = 0 := by omega
      have hs' : stop - (cursor + piece.length) = 0 := by omega
      simp [hp, hs, hp', hs', cut]
    rw [if_neg (by omega), cut_append_of_le (by omega), content_append]
    have hfst : content original added
        (if cursor < position then [{ piece with length := position - cursor }] else [])
          = (piece.bytes original added).take (position - cursor) := by
      split_ifs with hcut
      · rw [content_cons, content_nil, append_nil]
        exact (take_slice (piece.source.buffer original added) piece.offset
          (by omega : position - cursor ≤ piece.length)).symm
      · rw [show position - cursor = 0 by omega]
        rfl
    have hlast : content original added (if stop < cursor + piece.length then
          [{ piece with offset := piece.offset + (stop - cursor),
                        length := cursor + piece.length - stop }] else [])
          = (piece.bytes original added).drop (stop - cursor) := by
      split_ifs with hcut
      · rw [content_cons, content_nil, append_nil]
        unfold Piece.bytes
        rw [drop_slice, show piece.length - (stop - cursor) = cursor + piece.length - stop by omega]
      · rw [drop_of_length_le (by omega)]
        rfl
    rw [hfst, hlast, hlen]
    congr 1
    rw [cut, show position - (cursor + piece.length) = 0 by omega, take_zero,
      nil_append, Nat.sub_sub]

theorem inBounds_eraseLoop :
    InBounds original added (eraseLoop position stop cursor pieces) := by
  induction pieces generalizing cursor with
  | nil => exact inBounds_nil
  | cons piece pieces ih =>
    obtain ⟨hpiece, hrest⟩ := inBounds_cons.mp h
    rw [eraseLoop]
    refine inBounds_append.mpr ⟨?_, ih hrest _⟩
    split_ifs with hkeep hfst hlast hlast
    · simpa using hpiece
    · simp only [cons_append, nil_append, inBounds_cons, inBounds_nil, and_true]
      omega
    · simp only [append_nil, inBounds_cons, inBounds_nil, and_true]
      omega
    · simp only [nil_append, inBounds_cons, inBounds_nil, and_true]
      omega
    · exact inBounds_nil

end

/-- Merging adjacent pieces changes neither the string nor the bounds. -/
theorem coalesceLoop_spec (merged pieces : List Piece) : content original added (coalesceLoop merged pieces)
        = content original added (merged.reverse ++ pieces) ∧
      (InBounds original added (merged.reverse ++ pieces) →
        InBounds original added (coalesceLoop merged pieces)) := by
  induction pieces generalizing merged with
  | nil =>
    rw [append_nil]
    cases merged <;> exact ⟨rfl, fun h => h⟩
  | cons piece pieces ih =>
    cases merged with
    | nil => exact ih [piece]
    | cons back merged =>
      rw [coalesceLoop]
      split_ifs with hadjacent
      · obtain ⟨hcont, hbounds⟩ :=
          ih ({ back with length := back.length + piece.length } :: merged)
        simp only [adjacent, Bool.and_eq_true, beq_iff_eq] at hadjacent
        obtain ⟨hsrc, hoffset⟩ := hadjacent
        have hjoin : Piece.bytes original added { back with length := back.length + piece.length }
            = back.bytes original added ++ piece.bytes original added := by
          unfold Piece.bytes
          rw [slice_add, hoffset, hsrc]
        constructor
        · rw [hcont]
          simp [hjoin]
        intro h
        apply hbounds
        simp only [reverse_cons, append_assoc, cons_append, nil_append,
          inBounds_append, inBounds_cons] at h ⊢
        obtain ⟨hmerged, _, hpiece, hrest⟩ := h
        refine ⟨hmerged, ?_, hrest⟩
        rw [hsrc]
        omega
      obtain ⟨hcont, hbounds⟩ := ih (piece :: back :: merged)
      simp only [reverse_cons, append_assoc, cons_append, nil_append] at hcont hbounds ⊢
      exact ⟨hcont, hbounds⟩

theorem content_coalesce (pieces : List Piece) :
    content original added (coalesce pieces) = content original added pieces := by
  unfold coalesce
  split_ifs
  · rfl
  · exact (coalesceLoop_spec [] pieces).1

theorem inBounds_coalesce (h : InBounds original added pieces) :
    InBounds original added (coalesce pieces) := by
  unfold coalesce
  split_ifs
  · exact h
  · exact (coalesceLoop_spec [] pieces).2 h

theorem rebuildLineIndex_eq (pieces : List Piece) : rebuildLineIndex original added pieces
      = ((content original added pieces).foldl lineStep (0, [0])).2 := by
  unfold rebuildLineIndex content
  rw [foldl_flatMap]

theorem readLoop_eq (h : InBounds original added pieces) (cursor : Nat) (output : Bytes) :
    readLoop original added position stop cursor output pieces
      = output ++ window (content original added pieces) (position - cursor) (stop - cursor) := by
  induction pieces generalizing cursor output with
  | nil => simp [readLoop, window]
  | cons piece pieces ih =>
    obtain ⟨hpiece, hrest⟩ := inBounds_cons.mp h
    have hlen := Piece.length_bytes hpiece
    have hbegin : (if cursor < position then position - cursor else 0) = position - cursor := by
      split_ifs <;> omega
    rw [readLoop, content_cons, window_append, hlen, Nat.sub_sub, Nat.sub_sub]
    rw [hbegin]
    split_ifs with hbef hafter hinside
    · rw [ih hrest, window_of_length_le (by omega : (piece.bytes original added).length ≤ _), nil_append]
    · rw [show stop - cursor = 0 by omega, show stop - (cursor + piece.length) = 0 by omega,
        window_zero, window_zero, append_nil, append_nil]
    · rw [ih hrest, append_assoc]
      unfold Piece.bytes
      rw [window_slice _ _ _ (by omega)]
    -- the window reaches the end of the piece
    rw [ih hrest, append_assoc]
    have hwindow : window (piece.bytes original added) (position - cursor) (stop - cursor)
        = slice (piece.source.buffer original added) (piece.offset + (position - cursor))
            (piece.length - (position - cursor)) := by
      rw [window, take_of_length_le (by omega)]
      exact drop_slice _ _ _ _
    rw [hwindow]

end

/-! ## §3. Calls keep the table consistent. -/

/-- The byte string a table represents. -/
def Table.text (t : Table) : Bytes := content t.original t.added t.pieces

/-- The pieces are in bounds, and size and line index are those of the string. -/
structure Consistent (t : Table) : Prop where
  inBounds : InBounds t.original t.added t.pieces
  size : t.size = t.text.length
  bounded : t.size ≤ kMaxBytes
  lines : t.lineStarts = (t.text.foldl lineStep (0, [0])).2

/-- The table represents a string. -/
def Represents (t : Table) (string : Bytes) : Prop := Consistent t ∧ t.text = string

/-- The table after a call represents `done` when the call succeeded and `kept` when it failed. -/
def Leaves (result : Bool × Table) (done kept : Bytes) : Prop :=
  Represents result.2 (if result.1 then done else kept)

section
variable {t : Table} {string : Bytes} {mem : Memory}

theorem represents_new : Represents Table.new [] :=
  ⟨⟨inBounds_nil, rfl, by decide, rfl⟩, rfl⟩

theorem represents_clear (t : Table) : Represents t.clear [] :=
  ⟨⟨inBounds_nil, rfl, Nat.zero_le _, rfl⟩, rfl⟩

/-- What is left of a line index after its reset. -/
theorem secureClear_lineStarts (t : Table) : t.secureClear.lineStarts = [0] := by
  unfold Table.secureClear
  cases hlines : t.lineStarts <;> simp

theorem represents_secureClear (t : Table) (secure : Bool) :
    Represents { t.secureClear with secureStorage := secure } [] :=
  ⟨⟨inBounds_nil, rfl, Nat.zero_le _, secureClear_lineStarts t⟩, rfl⟩

theorem truncateAdded_append (t : Table) (value : Bytes) :
    { t with added := t.added ++ value }.truncateAdded t.added.length = t := by
  unfold Table.truncateAdded
  rw [if_neg (by rw [length_append]; omega), take_left]

theorem truncateAdded_self (t : Table) : t.truncateAdded t.added.length = t := by
  unfold Table.truncateAdded
  simp

theorem content_originalPieces (original : Bytes) :
    content original [] (originalPieces original) = original := by
  unfold originalPieces
  split_ifs with hnil
  · exact (List.isEmpty_iff.mp hnil).symm
  · simp [Piece.bytes, slice, Source.buffer]

theorem inBounds_originalPieces (original : Bytes) : InBounds original [] (originalPieces original) := by
  unfold originalPieces
  split_ifs
  · exact inBounds_nil
  · simp [Source.buffer]

/-- `setOriginal` fails and leaves the table, or starts anew. -/
theorem setOriginal_cases (mem : Memory) (t : Table) (original : Bytes) :
    t.setOriginal mem original = (false, t) ∨
    (original.length ≤ kMaxBytes ∧ t.setOriginal mem original = (true, { t with
      original := original
      added := []
      pieces := originalPieces original
      lineStarts := rebuildLineIndex original [] (originalPieces original)
      size := original.length })) := by
  unfold Table.setOriginal
  split_ifs with hlong
  iterate 5 exact .inl rfl
  exact .inr ⟨Nat.not_lt.mp hlong, rfl⟩

/-- `insert` fails and leaves the table, or places a piece at the end of the buffer. -/
theorem insert_cases (mem : Memory) (t : Table) (position : Nat) (value : Bytes) :
    let next := placeLoop position ⟨.added, t.added.length, value.length⟩ 0 false t.pieces
    t.insert mem position value = (false, t) ∨
    (position ≤ t.size ∧ value.length ≤ kMaxBytes - t.size ∧ next.length ≤ kMaxPieces ∧
      t.insert mem position value = (true, { t with
        added := t.added ++ value
        pieces := coalesce next
        lineStarts := rebuildLineIndex t.original (t.added ++ value) (coalesce next)
        size := t.size + value.length })) := by
  intro next
  unfold Table.insert
  dsimp only
  split_ifs with hreject hfull hadded hpieces hmany hmemory
  · exact .inl rfl
  · exact .inl rfl
  · rw [truncateAdded_self]
    exact .inl rfl
  · rw [truncateAdded_append]
    exact .inl rfl
  · rw [truncateAdded_append]
    exact .inl rfl
  · rw [truncateAdded_append]
    exact .inl rfl
  · exact .inr ⟨by omega, by omega, Nat.not_lt.mp hmany, rfl⟩

/-- `erase` leaves the table, as it fails or has nothing to erase, or cuts the range out of the pieces. -/
theorem erase_cases (mem : Memory) (t : Table) (position length : Nat) :
    let next := eraseLoop position (position + length) 0 t.pieces
    let fits := position + length ≤ t.size ∧ mem .pieces = true ∧ coalesceFits mem next = true ∧
      mem .lineStarts = true
    (¬ fits ∧ t.erase mem position length = (false, t)) ∨
    (length = 0 ∧ t.erase mem position length = (true, t)) ∨
    (fits ∧ length ≠ 0 ∧ t.erase mem position length = (true, { t with
      pieces := coalesce next
      lineStarts := rebuildLineIndex t.original t.added (coalesce next)
      size := t.size - length })) := by
  intro next fits
  unfold Table.erase
  dsimp only
  split_ifs with hreject hnone hpieces hmemory
  · exact .inl ⟨fun h => by omega, rfl⟩
  · exact .inr (.inl ⟨hnone, rfl⟩)
  · exact .inl ⟨fun h => by simp [h.2.1] at hpieces, rfl⟩
  · refine .inl ⟨fun h => ?_, rfl⟩
    obtain ⟨_, _, hmerged, hlines⟩ := h
    simp [hlines, show coalesceFits mem (eraseLoop position (position + length) 0 t.pieces) = true from
      hmerged] at hmemory
  rw [not_or] at hmemory
  exact .inr (.inr ⟨⟨by omega, by simpa using hpieces, by simpa using hmemory.1,
    by simpa using hmemory.2⟩, hnone, rfl⟩)

section
variable (h : Represents t string)
include h

theorem setOriginal_represents (original : Bytes) :
    Leaves (t.setOriginal mem original) original string := by
  obtain heq | ⟨hshort, heq⟩ := setOriginal_cases mem t original
  · rw [heq]
    exact h
  rw [heq]
  exact ⟨⟨inBounds_originalPieces original, congrArg List.length (content_originalPieces original).symm,
    hshort, rebuildLineIndex_eq _⟩, content_originalPieces original⟩

theorem insert_represents (position : Nat) (value : Bytes) :
    Leaves (t.insert mem position value) (insertAt string position value) string := by
  obtain ⟨hcons, rfl⟩ := h
  obtain heq | ⟨hpos, hfits, _, heq⟩ := insert_cases mem t position value
  · rw [heq]
    exact ⟨hcons, rfl⟩
  rw [heq]
  have hbounds := hcons.inBounds.appended value
  have hinserted : InBounds t.original (t.added ++ value) [⟨.added, t.added.length, value.length⟩] := by
    simp [Source.buffer]
  have hbytes : Piece.bytes t.original (t.added ++ value) ⟨.added, t.added.length, value.length⟩
      = value := slice_appended t.added value
  have htext : content t.original (t.added ++ value)
      (coalesce (placeLoop position ⟨.added, t.added.length, value.length⟩ 0 false t.pieces))
        = insertAt t.text position value := by
    rw [content_coalesce, content_placeLoop hbounds 0 (Nat.zero_le _), hbytes,
      content_appended hcons.inBounds]
    rfl
  refine ⟨⟨?_, ?_, ?_, rebuildLineIndex_eq _⟩, htext⟩
  · exact inBounds_coalesce (inBounds_placeLoop hbounds 0 hinserted false (by simp))
  · show t.size + value.length = (content t.original (t.added ++ value) _).length
    rw [htext, hcons.size, insertAt]
    simp only [length_append, length_take, length_drop]
    omega
  show t.size + value.length ≤ kMaxBytes
  have hbounded := hcons.bounded
  omega

theorem erase_represents (position length : Nat) :
    Leaves (t.erase mem position length) (cut string position (position + length)) string := by
  obtain ⟨hcons, rfl⟩ := h
  obtain ⟨_, heq⟩ | ⟨hnone, heq⟩ | ⟨⟨hinside, _⟩, _, heq⟩ := erase_cases mem t position length
  · rw [heq]
    exact ⟨hcons, rfl⟩
  · rw [heq, hnone, Nat.add_zero, cut, take_append_drop]
    exact ⟨hcons, rfl⟩
  rw [heq]
  have htext : content t.original t.added (coalesce (eraseLoop position (position + length) 0 t.pieces))
        = cut t.text position (position + length) := by
    rw [content_coalesce, content_eraseLoop hcons.inBounds 0 (Nat.le_add_right _ _)]
    rfl
  have hsize := hcons.size
  have hbounded := hcons.bounded
  refine ⟨⟨?_, ?_, ?_, rebuildLineIndex_eq _⟩, htext⟩
  · exact inBounds_coalesce (inBounds_eraseLoop hcons.inBounds 0)
  · show t.size - length = (content t.original t.added _).length
    rw [htext, cut]
    simp only [length_append, length_take, length_drop]
    omega
  · show t.size - length ≤ kMaxBytes
    omega

theorem clone_represents (output : Table) : Leaves (t.cloneForSecureMode mem output) string [] := by
  unfold Table.cloneForSecureMode
  split_ifs with hmemory
  · exact represents_secureClear _ true
  · obtain ⟨hcons, htext⟩ := h
    exact ⟨{ hcons with }, htext⟩

/-- `read` returns the range, or refuses one that does not fit. -/
theorem Represents.read (position length : Nat) : t.read true position length
      = if position + length ≤ string.length then (true, window string position (position + length))
        else (false, []) := by
  obtain ⟨hcons, rfl⟩ := h
  have hsize := hcons.size
  have hbounded := hcons.bounded
  unfold Table.read
  by_cases hfits : position + length ≤ t.text.length
  · rw [if_neg (by omega), if_neg (by simp), if_pos hfits]
    split_ifs with hzero
    · rw [hzero, Nat.add_zero, window, drop_of_length_le]
      rw [length_take]
      omega
    have hloop : readLoop t.original t.added position (position + length) 0 [] t.pieces
        = window t.text position (position + length) := by
      rw [readLoop_eq hcons.inBounds]
      rfl
    have hlen : (window t.text position (position + length)).length = length := by
      rw [length_window hfits, Nat.add_sub_cancel_left]
    dsimp only
    rw [hloop, hlen, beq_self_eq_true]
  · rw [if_pos (by omega), if_neg hfits]

theorem Represents.materialize : t.materialize true = string := by
  have hsize : t.size = string.length := by
    rw [h.1.size, h.2]
  unfold Table.materialize
  rw [h.read, Nat.zero_add, hsize, if_pos (Nat.le_refl _), if_pos rfl]
  show window string 0 string.length = string
  rw [window, take_length, drop_zero]

end

end

/-! ## §4. Any sequence of calls on any tables. -/

/-- The calls; tables are numbered. -/
inductive Command where
  | setOriginal (table : Nat) (original : Bytes)
  | insert (table position : Nat) (value : Bytes)
  | erase (table position length : Nat)
  | clear (table : Nat)
  | secureClear (table : Nat)
  | cloneForSecureMode (table output : Nat)
  deriving DecidableEq

/-- Perform a call: what it returns, and the tables after it. -/
def perform (mem : Memory) (tables : Nat → Table) : Command → Bool × (Nat → Table)
  | .setOriginal i original =>
      let result := (tables i).setOriginal mem original
      (result.1, Function.update tables i result.2)
  | .insert i position value =>
      let result := (tables i).insert mem position value
      (result.1, Function.update tables i result.2)
  | .erase i position length =>
      let result := (tables i).erase mem position length
      (result.1, Function.update tables i result.2)
  | .clear i => (true, Function.update tables i (tables i).clear)
  | .secureClear i => (true, Function.update tables i (tables i).secureClear)
  | .cloneForSecureMode i output =>
      if output = i then (false, tables)
      else
        let result := (tables i).cloneForSecureMode mem (tables output)
        (result.1, Function.update tables output result.2)

/-- The same call on plain strings. -/
def edit (strings : Nat → Bytes) : Command → Nat → Bytes
  | .setOriginal i original => Function.update strings i original
  | .insert i position value => Function.update strings i (insertAt (strings i) position value)
  | .erase i position length =>
      Function.update strings i (cut (strings i) position (position + length))
  | .clear i => Function.update strings i []
  | .secureClear i => Function.update strings i []
  | .cloneForSecureMode i output => Function.update strings output (strings i)

/-- What a failed call does to the strings: nothing, but for the output of a clone. -/
def lose (strings : Nat → Bytes) : Command → Nat → Bytes
  | .cloneForSecureMode i output =>
      if output = i then strings else Function.update strings output []
  | _ => strings

/-- A call on the tables beside the same call on the strings. -/
def both (state : (Nat → Table) × (Nat → Bytes)) (call : Command × Memory) :
    (Nat → Table) × (Nat → Bytes) :=
  let result := perform call.2 state.1 call.1
  (result.2, if result.1 then edit state.2 call.1 else lose state.2 call.1)

theorem represents_update {tables : Nat → Table} {strings : Nat → Bytes}
    (h : ∀ i, Represents (tables i) (strings i)) {i : Nat} {t : Table} {string : Bytes}
    (hi : Represents t string) :
    ∀ j, Represents (update tables i t j) (update strings i string j) := by
  intro j
  by_cases hj : j = i
  · subst hj
    rw [update_self, update_self]
    exact hi
  · rw [update_of_ne hj, update_of_ne hj]
    exact h j

/-- A call on one table, beside the same call on its string. -/
theorem represents_both {tables : Nat → Table} {strings : Nat → Bytes}
    (h : ∀ i, Represents (tables i) (strings i)) {i : Nat} {result : Bool × Table} {done : Bytes}
    (hi : Leaves result done (strings i)) : ∀ j, Represents (update tables i result.2 j)
      ((if result.1 then update strings i done else strings) j) := by
  have hite : (if result.1 then update strings i done else strings)
      = update strings i (if result.1 then done else strings i) := by
    cases result.1 with
    | true => rfl
    | false => exact (update_eq_self i strings).symm
  rw [hite]
  exact represents_update h hi

/-- One call. -/
theorem both_represents {state : (Nat → Table) × (Nat → Bytes)}
    (h : ∀ i, Represents (state.1 i) (state.2 i)) (call : Command × Memory) :
    ∀ i, Represents ((both state call).1 i) ((both state call).2 i) := by
  obtain ⟨command, mem⟩ := call
  cases command with
  | setOriginal i original => exact represents_both h (setOriginal_represents (h i) original)
  | insert i position value => exact represents_both h (insert_represents (h i) position value)
  | erase i position length => exact represents_both h (erase_represents (h i) position length)
  | clear i => exact represents_update h (represents_clear _)
  | secureClear i => exact represents_update h (represents_secureClear _ _)
  | cloneForSecureMode i output =>
    by_cases hself : output = i
    · simpa [both, perform, lose, hself] using h
    have hclone : Leaves ((state.1 i).cloneForSecureMode mem (state.1 output)) (state.2 i) [] :=
      clone_represents (h i) _
    unfold Leaves at hclone
    cases hok : ((state.1 i).cloneForSecureMode mem (state.1 output)).1 <;>
      rw [hok] at hclone <;>
      simpa [both, perform, edit, lose, hself, hok] using represents_update h hclone

theorem foldl_both_represents (calls : List (Command × Memory))
    {state : (Nat → Table) × (Nat → Bytes)} (h : ∀ i, Represents (state.1 i) (state.2 i)) :
    ∀ i, Represents ((calls.foldl both state).1 i) ((calls.foldl both state).2 i) := by
  induction calls generalizing state with
  | nil => exact h
  | cons call calls ih => exact ih (both_represents h call)

/-- **Tables follow strings.** Run any sequence of calls, with any arguments and any failing
allocations, on new tables, and beside it on plain strings, where a failed call changes nothing except
that a failed clone empties its output. Then every table represents its string: `size` is its length,
`materialize` returns it, `read` returns its ranges and refuses all others, and the pieces are slices of
their buffers whose lengths add up to `size`. -/
theorem tables_follow_strings (calls : List (Command × Memory)) (i : Nat) :
    let final := calls.foldl both (fun _ => Table.new, fun _ => [])
    let t := final.1 i
    let string := final.2 i
    t.size = string.length ∧ t.materialize true = string ∧
    (∀ position length, t.read true position length
      = if position + length ≤ string.length then (true, window string position (position + length))
        else (false, [])) ∧
    InBounds t.original t.added t.pieces ∧ (t.pieces.map Piece.length).sum = t.size := by
  have hnew : ∀ j, Represents
      (((fun _ => Table.new, fun _ => []) : (Nat → Table) × (Nat → Bytes)).1 j)
      (((fun _ => Table.new, fun _ => []) : (Nat → Table) × (Nat → Bytes)).2 j) :=
    fun _ => represents_new
  have h := foldl_both_represents calls hnew i
  have hsize := h.1.size
  refine ⟨by rw [hsize, h.2], h.materialize, h.read, h.1.inBounds, ?_⟩
  rw [hsize, Table.text, length_content h.1.inBounds]

/-- A clone that runs out of memory returns failure and its output has lost its text. -/
theorem clone_failure_loses :
    let mem : Memory := fun allocation => allocation != .original
    let tables := ([(.setOriginal 1 [0x78], fun _ => true)] : List (Command × Memory)).foldl both
      (fun _ => Table.new, fun _ => [])
    (tables.1 1).materialize true = [0x78] ∧
      (perform mem tables.1 (.cloneForSecureMode 0 1)).1 = false ∧
      ((perform mem tables.1 (.cloneForSecureMode 0 1)).2 1).materialize true = [] := by
  decide

end RinRuntime.PieceTable

/-
PieceTable.Table — the piece table (`include/rinruntime/piece_table.hpp`).

A document is a list of pieces, each a slice of the immutable original text or of the append-only buffer of
inserted text. An edit builds a new piece list and swaps it in; where an allocation of it fails, the handler
puts the buffer back. `Memory` says which allocations of a call succeed. Wiping leaves no trace in the model.
-/
import Mathlib.Algebra.GroupWithZero.Nat
import RinRuntime.Lib.Splice

namespace RinRuntime.PieceTable
open Lib.Splice

/-! ## §1. The table. -/

/-- The bytes of a `std::string`. -/
abbrev Bytes := List UInt8

/-- `kMaxBytes`. -/
def kMaxBytes : Nat := 8 * 1024 * 1024

/-- `kMaxPieces`. -/
def kMaxPieces : Nat := 65536

/-- The buffer a piece is taken from. -/
inductive Source where
  | original
  | added
  deriving DecidableEq, Repr

/-- A slice of one of the two buffers. -/
structure Piece where
  source : Source
  offset : Nat
  length : Nat
  deriving DecidableEq, Repr

/-- `PieceTable`. -/
structure Table where
  original : Bytes
  added : Bytes
  pieces : List Piece
  lineStarts : List Nat
  size : Nat
  secureStorage : Bool
  deriving DecidableEq, Repr

/-- A new table. -/
def Table.new : Table := ⟨[], [], [], [0], 0, false⟩

/-- The allocations of a call. -/
inductive Allocation where
  | original
  | added
  | pieces
  | merged
  | lineStarts
  deriving DecidableEq, Repr

/-- Which allocations of a call succeed. -/
abbrev Memory := Allocation → Bool

/-- The buffer of a source. -/
def Source.buffer (original added : Bytes) : Source → Bytes
  | .original => original
  | .added => added

/-- The bytes of a piece. -/
def Piece.bytes (original added : Bytes) (piece : Piece) : Bytes :=
  slice (piece.source.buffer original added) piece.offset piece.length

/-! ## §2. Helpers. -/

/-- `adjacent`. -/
def adjacent (left right : Piece) : Bool :=
  left.source == right.source && left.offset + left.length == right.offset

/-- The loop of `coalesce`; the merged pieces are kept with the last one in front. -/
def coalesceLoop : List Piece → List Piece → List Piece
  | merged, [] => merged.reverse
  | [], piece :: rest => coalesceLoop [piece] rest
  | back :: merged, piece :: rest =>
      if adjacent back piece then
        coalesceLoop ({ back with length := back.length + piece.length } :: merged) rest
      else coalesceLoop (piece :: back :: merged) rest

/-- `coalesce`. -/
def coalesce (pieces : List Piece) : List Piece :=
  if pieces.length < 2 then pieces else coalesceLoop [] pieces

/-- `coalesce` allocates a second list from two pieces on. -/
def coalesceFits (mem : Memory) (pieces : List Piece) : Bool :=
  decide (pieces.length < 2) || mem .merged

/-- One byte of `rebuildLineIndex`: the position behind it, and the line starts so far. -/
def lineStep (acc : Nat × List Nat) (byte : UInt8) : Nat × List Nat :=
  (acc.1 + 1, if byte = 10 then acc.2 ++ [acc.1 + 1] else acc.2)

/-- `rebuildLineIndex`. -/
def rebuildLineIndex (original added : Bytes) (pieces : List Piece) : List Nat :=
  (pieces.foldl (fun acc piece => (piece.bytes original added).foldl lineStep acc) (0, [0])).2

/-- `truncateAdded`. -/
def Table.truncateAdded (t : Table) (size : Nat) : Table :=
  if t.added.length < size then t else { t with added := t.added.take size }

/-! ## §3. Edits. -/

/-- The pieces of a new document. -/
def originalPieces (original : Bytes) : List Piece :=
  if original.isEmpty then [] else [⟨.original, 0, original.length⟩]

/-- `setOriginal`. -/
def Table.setOriginal (mem : Memory) (t : Table) (original : Bytes) : Bool × Table :=
  if kMaxBytes < original.length then (false, t)
  else if mem .original = false then (false, t)
  else if t.secureStorage && !mem .added then (false, t)
  else if !original.isEmpty && !mem .pieces then (false, t)
  else if mem .lineStarts = false then (false, t)
  else (true, { t with
    original := original
    added := []
    pieces := originalPieces original
    lineStarts := rebuildLineIndex original [] (originalPieces original)
    size := original.length })

/-- `clear`. -/
def Table.clear (t : Table) : Table :=
  { t with original := [], added := [], pieces := [], lineStarts := [0], size := 0 }

/-- `secureClear`. -/
def Table.secureClear (t : Table) : Table :=
  { t with
    original := []
    added := []
    pieces := []
    lineStarts := if t.lineStarts.isEmpty then [0] else (t.lineStarts.set 0 0).take 1
    size := 0 }

/-- The loop of `insert` over the pieces. -/
def placeLoop (position : Nat) (inserted : Piece) : Nat → Bool → List Piece → List Piece
  | _, placed, [] => if placed then [] else [inserted]
  | cursor, placed, piece :: rest =>
      if !placed && decide (position ≤ cursor + piece.length) then
        let local_ := position - cursor
        (if local_ = 0 then [inserted, piece]
          else if local_ = piece.length then [piece, inserted]
          else [{ piece with length := local_ }, inserted,
            { piece with offset := piece.offset + local_, length := piece.length - local_ }]) ++
        placeLoop position inserted (cursor + piece.length) true rest
      else piece :: placeLoop position inserted (cursor + piece.length) placed rest

/-- `insert`. -/
def Table.insert (mem : Memory) (t : Table) (position : Nat) (value : Bytes) : Bool × Table :=
  if t.size < position ∨ value.isEmpty ∨ kMaxBytes - t.size < value.length ∨
      kMaxBytes - value.length < t.added.length then (false, t)
  else if kMaxPieces ≤ t.pieces.length ∧ position ≠ t.size then (false, t)
  else
    let addedOffset := t.added.length
    if mem .added = false then (false, t.truncateAdded addedOffset)
    else
      let appended := { t with added := t.added ++ value }
      let inserted : Piece := ⟨.added, addedOffset, value.length⟩
      if mem .pieces = false then (false, appended.truncateAdded addedOffset)
      else
        let next := placeLoop position inserted 0 false t.pieces
        if kMaxPieces < next.length then (false, appended.truncateAdded addedOffset)
        else if coalesceFits mem next = false ∨ mem .lineStarts = false then
          (false, appended.truncateAdded addedOffset)
        else (true, { appended with
          pieces := coalesce next
          lineStarts := rebuildLineIndex appended.original appended.added (coalesce next)
          size := t.size + value.length })

/-- The loop of `erase` over the pieces. -/
def eraseLoop (position stop : Nat) : Nat → List Piece → List Piece
  | _, [] => []
  | cursor, piece :: rest =>
      let pieceEnd := cursor + piece.length
      (if pieceEnd ≤ position ∨ stop ≤ cursor then [piece]
        else
          (if cursor < position then [{ piece with length := position - cursor }] else []) ++
          (if stop < pieceEnd then
            [{ piece with offset := piece.offset + (stop - cursor), length := pieceEnd - stop }]
          else [])) ++
      eraseLoop position stop pieceEnd rest

/-- `erase`. -/
def Table.erase (mem : Memory) (t : Table) (position length : Nat) : Bool × Table :=
  if t.size < position ∨ t.size - position < length then (false, t)
  else if length = 0 then (true, t)
  else if mem .pieces = false then (false, t)
  else
    let next := eraseLoop position (position + length) 0 t.pieces
    if coalesceFits mem next = false ∨ mem .lineStarts = false then (false, t)
    else (true, { t with
      pieces := coalesce next
      lineStarts := rebuildLineIndex t.original t.added (coalesce next)
      size := t.size - length })

/-- `cloneForSecureMode` into another table; a failed allocation clears the output. -/
def Table.cloneForSecureMode (mem : Memory) (t output : Table) : Bool × Table :=
  let cleared := { output.secureClear with secureStorage := true }
  if mem .added = false ∨ mem .original = false ∨ mem .pieces = false ∨ mem .lineStarts = false then
    (false, { cleared.secureClear with secureStorage := true })
  else (true, { cleared with
    original := t.original
    added := t.added
    pieces := t.pieces
    lineStarts := t.lineStarts
    size := t.size })

/-! ## §4. Readers. -/

/-- The loop of `read` over the pieces. -/
def readLoop (original added : Bytes) (position stop : Nat) : Nat → Bytes → List Piece → Bytes
  | _, output, [] => output
  | cursor, output, piece :: rest =>
      let pieceEnd := cursor + piece.length
      if pieceEnd ≤ position then readLoop original added position stop pieceEnd output rest
      else if stop ≤ cursor then output
      else
        let begin_ := if cursor < position then position - cursor else 0
        let end_ := if stop < pieceEnd then stop - cursor else piece.length
        readLoop original added position stop pieceEnd
          (output ++ slice (piece.source.buffer original added) (piece.offset + begin_) (end_ - begin_))
          rest

/-- `read`; `fits` says whether the output can be allocated. -/
def Table.read (fits : Bool) (t : Table) (position length : Nat) : Bool × Bytes :=
  if t.size < position ∨ t.size - position < length ∨ kMaxBytes < length then (false, [])
  else if fits = false then (false, [])
  else if length = 0 then (true, [])
  else
    let output := readLoop t.original t.added position (position + length) 0 [] t.pieces
    (output.length == length, output)

/-- `materialize`. -/
def Table.materialize (fits : Bool) (t : Table) : Bytes :=
  if (t.read fits 0 t.size).1 then (t.read fits 0 t.size).2 else []

/-- `lineRange`: the position and length of a line. -/
def Table.lineRange (t : Table) (line : Nat) : Option (Nat × Nat) :=
  if t.lineStarts.length ≤ line then none
  else
    let position := t.lineStarts.getD line 0
    let next := if line + 1 < t.lineStarts.length then t.lineStarts.getD (line + 1) 0 - 1 else t.size
    if next < position then none else some (position, next - position)

end RinRuntime.PieceTable

/-
Text.Editor — cursor movements of the text editor model (`include/rinruntime/text_editor.hpp`).

The editor keeps a text and two byte offsets, the cursor and the anchor of the selection. What it takes from
LibUnicode is a field of `Unicode`: the validator and the steps to the previous and the next grapheme
cluster boundary. Word movements and edits are not modelled; the result is about every state, whatever calls
led to it.

A movement without `extend` collapses a selection towards an edge. The movements to the start and to the end
share that helper, so they reach the ends of the text exactly when nothing or all of it is selected
(`move_to_ends_iff`).
-/
import Mathlib.Data.List.Basic

namespace RinRuntime.Text

/-! ## §1. The editor. -/

/-- What the editor calls: `rinruntime_utf8_validate`, `utf8GraphemePrev`, `utf8GraphemeNext`. -/
structure Unicode where
  valid : List UInt8 → Bool
  graphemePrev : List UInt8 → Nat → Nat
  graphemeNext : List UInt8 → Nat → Nat

/-- `TextEditorModel`; a new editor is empty. -/
structure Editor where
  text : List UInt8 := []
  cursor : Nat := 0
  anchor : Nat := 0
  deriving DecidableEq

def continuation (value : UInt8) : Bool := value &&& 0xc0 == 0x80

/-- The loop of `boundary`: back to the first byte of the character at `position`. -/
def stepBack (text : List UInt8) : Nat → Nat
  | 0 => 0
  | position + 1 =>
    if text[position + 1]?.any continuation then stepBack text position else position + 1

/-- `TextEditorModel::boundary`. -/
def boundary (text : List UInt8) (position : Nat) : Nat := stepBack text (min position text.length)

namespace Editor

variable (U : Unicode)

def hasSelection (e : Editor) : Bool := e.cursor != e.anchor

def selectionStart (e : Editor) : Nat := min e.cursor e.anchor

def selectionEnd (e : Editor) : Nat := max e.cursor e.anchor

/-- `TextEditorModel::move`. -/
def move (position : Nat) (extend : Bool) (e : Editor) : Editor :=
  let position := boundary e.text position
  if extend then { e with cursor := position }
  else
    let position := if e.hasSelection then
        if position ≤ e.selectionStart then e.selectionStart else e.selectionEnd
      else position
    { e with cursor := position, anchor := position }

/-- `TextEditorModel::setText`; `memory` is false when the copy runs out of memory. -/
def setText (value : List UInt8) (memory : Bool) (e : Editor) : Bool × Editor :=
  if U.valid value && memory then (true, ⟨value, value.length, value.length⟩) else (false, e)

def selectAll (e : Editor) : Editor := { e with anchor := 0, cursor := e.text.length }

def clearSelection (e : Editor) : Editor := { e with anchor := e.cursor }

def moveStart (extend : Bool) (e : Editor) : Editor := e.move 0 extend

def moveEnd (extend : Bool) (e : Editor) : Editor := e.move e.text.length extend

def previous (text : List UInt8) (position : Nat) : Nat :=
  U.graphemePrev text (boundary text position)

def next (text : List UInt8) (position : Nat) : Nat := U.graphemeNext text (boundary text position)

def moveLeft (extend : Bool) (e : Editor) : Editor :=
  if !extend && e.hasSelection then e.move e.selectionStart false
  else e.move (previous U e.text e.cursor) extend

def moveRight (extend : Bool) (e : Editor) : Editor :=
  if !extend && e.hasSelection then e.move e.selectionEnd false
  else e.move (next U e.text e.cursor) extend

end Editor

/-! ## §2. Movements to the ends of the text. -/

theorem boundary_zero (text : List UInt8) : boundary text 0 = 0 := by
  rw [boundary, Nat.zero_min, stepBack]

theorem boundary_eq_self {text : List UInt8} {p : Nat} (hp : p ≤ text.length)
    (h : text[p]?.any continuation = false) : boundary text p = p := by
  rw [boundary, Nat.min_eq_left hp]
  cases p with
  | zero => rfl
  | succ p => rw [stepBack, h, if_neg Bool.false_ne_true]

theorem boundary_length (text : List UInt8) : boundary text text.length = text.length :=
  boundary_eq_self (Nat.le_refl _) (by simp)

/-- The extending movements reach the ends of the text in every state. -/
theorem extend_reaches_ends (e : Editor) :
    e.moveStart true = { e with cursor := 0 } ∧ e.moveEnd true = { e with cursor := e.text.length } := by
  constructor
  · simp [Editor.moveStart, Editor.move, boundary_zero]
  · simp [Editor.moveEnd, Editor.move, boundary_length]

/-- What the movements to the start and to the end are for. -/
structure Editor.ReachesEnds (e : Editor) : Prop where
  start : e.moveStart false = { e with cursor := 0, anchor := 0 }
  stop : e.moveEnd false = { e with cursor := e.text.length, anchor := e.text.length }
  extendStart : e.moveStart true = { e with cursor := 0 }
  extendStop : e.moveEnd true = { e with cursor := e.text.length }

/-- **The absolute movements.** In every state, they reach the ends of the text exactly when nothing
is selected or the selection has the edges of the text. (An empty text has nothing to select.) -/
theorem move_to_ends_iff (e : Editor) :
    e.ReachesEnds ↔ e.hasSelection = false
      ∨ (e.selectionStart = 0 ∧ (e.text = [] ∨ e.selectionEnd = e.text.length)) := by
  obtain ⟨hstart, hstop⟩ := extend_reaches_ends e
  cases hselection : e.hasSelection with
  | false =>
    refine iff_of_true ⟨?_, ?_, hstart, hstop⟩ (.inl rfl)
    · simp [Editor.moveStart, Editor.move, boundary_zero, hselection]
    · simp [Editor.moveEnd, Editor.move, boundary_length, hselection]
  | true =>
    have hmove : ∀ position, e.move position false
        = let p := if boundary e.text position ≤ e.selectionStart then e.selectionStart
            else e.selectionEnd
          { e with cursor := p, anchor := p } := by
      intro position
      simp [Editor.move, hselection]
    have hlt : e.selectionStart < e.selectionEnd := by
      simp only [Editor.hasSelection, bne_iff_ne] at hselection
      unfold Editor.selectionStart Editor.selectionEnd
      omega
    constructor
    · -- both movements stop at an edge of the selection, so the edges are those of the text
      intro h
      have h0 := congrArg Editor.cursor h.start
      have h1 := congrArg Editor.cursor h.stop
      simp only [Editor.moveStart, Editor.moveEnd, hmove, boundary_zero, boundary_length,
        Nat.zero_le, if_true] at h0 h1
      refine .inr ⟨h0, ?_⟩
      split at h1
      · exact .inl (List.eq_nil_of_length_eq_zero (by omega))
      · exact .inr h1
    · rintro (h | ⟨h0, hends⟩)
      · cases h
      · refine ⟨?_, ?_, hstart, hstop⟩
        · simp only [Editor.moveStart, hmove, boundary_zero, Nat.zero_le, if_true, h0]
        · simp only [Editor.moveEnd, hmove, boundary_length]
          rcases hends with hnil | hend
          · simp [hnil, h0]
          · rw [if_neg (by omega), hend]

/-- Grapheme functions for ASCII: every byte is a cluster. -/
def asciiUnicode : Unicode where
  valid := fun text => text.all fun byte => byte.toNat < 0x80
  graphemePrev := fun _ position => position - 1
  graphemeNext := fun text position => min (position + 1) text.length

/-- The last letter of a text selected: the movement to the start stops before it. -/
theorem moveStart_stops :
    let e := (({} : Editor).setText asciiUnicode [0x61, 0x62] true).2
    ((e.moveLeft asciiUnicode true).moveStart false).cursor = 1 := by
  decide

end RinRuntime.Text

/-
FileOperation.Path — the path functions of `src/file_operation.c` (POSIX build).

A path is the content of a C string: a list of bytes without the terminating NUL.
-/
import RinRuntime.Lib.NameTree

namespace RinRuntime.FileOperation
open Lib

/-- The bytes of a path. -/
abbrev Path := List UInt8

/-- The byte `'/'`. -/
def slash : UInt8 := 0x2f

/-- The byte `'.'`. -/
def dot : UInt8 := 0x2e

/-- The byte `'\\'`. -/
def backslash : UInt8 := 0x5c

/-- `RINRUNTIME_FILE_OPERATION_PATH_MAX`. -/
def pathMax : Nat := 512

/-! ## §1. Validation. -/

/-- The component test of `path_valid`: empty, `.` or `..`. -/
def componentRefused (path : Path) (start size : Nat) : Bool :=
  size == 0 || (size == 1 && path.getD start 0 == dot) ||
    (size == 2 && path.getD start 0 == dot && path.getD (start + 1) 0 == dot)

/-- The scan of `rinruntime_file_operation_path_valid_limit_internal`: what is left of the path, the
index, and the start of the current component. -/
def pathScan (path : Path) (capacity : Nat) : Path → Nat → Nat → Bool
  | [], index, componentStart =>
      decide (index < capacity) && !componentRefused path componentStart (index - componentStart) &&
        decide (1 < index) && path.getD (index - 1) 0 != slash
  | value :: rest, index, componentStart =>
      if capacity ≤ index then false
      else if value = backslash ∨ value < 0x20 ∨ value = 0x7f ∨ capacity ≤ index + 1 then false
      else if value = slash then
        if index ≠ 0 ∧ componentRefused path componentStart (index - componentStart) = true then false
        else pathScan path capacity rest (index + 1) (index + 1)
      else pathScan path capacity rest (index + 1) componentStart

/-- `rinruntime_file_operation_path_valid_limit_internal`. -/
def pathValidLimit (path : Path) (capacity : Nat) : Bool :=
  if capacity < 2 then false
  else if path.head? ≠ some slash then false
  else if path.length = 1 then true
  else pathScan path capacity path 0 1

/-- `rinruntime_file_operation_path_valid`. -/
def pathValid (path : Path) : Bool := pathValidLimit path pathMax

/-! ## §2. Parents, descendants, temporary names. -/

/-- The index of the last `'/'` of the path, 0 without one. -/
def lastSlash (path : Path) : Nat := path.length - 1 - path.reverse.findIdx (· == slash)

/-- `file_operation_parent`. -/
def parent (path : Path) : Option Path :=
  if pathValid path = false then none
  else if lastSlash path = 0 then some [slash]
  else some (path.take (lastSlash path))

/-- `file_operation_descendant`: the path is the root given, or lies below it. -/
def descendant (root path : Path) : Bool :=
  root == [slash] || decide (NameTree.Under slash root path)

/-- The decimal digits of a number, most significant first. -/
def decimalDigits (n : Nat) : Path :=
  (Nat.toDigits 10 n).map (fun c => UInt8.ofNat c.toNat)

/-- `".rinop-"`. -/
def temporarySuffix : Path := [0x2e, 0x72, 0x69, 0x6e, 0x6f, 0x70, 0x2d]

/-- `".tmp"`. -/
def temporaryExtension : Path := [0x2e, 0x74, 0x6d, 0x70]

/-- The name `file_operation_temporary_path` builds for a destination. -/
def temporaryName (destination : Path) (sequence : Nat) : Path :=
  destination ++ temporarySuffix ++ decimalDigits sequence ++ temporaryExtension

/-- Its length test. -/
def temporaryFits (destination : Path) (sequence : Nat) : Bool :=
  decide (destination.length + temporarySuffix.length + (decimalDigits sequence).length + 4 < pathMax)

end RinRuntime.FileOperation

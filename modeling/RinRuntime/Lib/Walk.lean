/-
Lib.Walk — programs that walk a memory while they patch it.

A walk reads words of a memory, decides by them where to go on, and stores into the same memory. A
planned walk reads another memory, the source, and notes whether it finds there what the walked memory
has; as long as it does, the actual walk goes the same way (`Plans`). Every access is recorded.
-/
import Mathlib.Algebra.Group.Nat.Defs
import Mathlib.Data.List.Basic

namespace RinRuntime.Lib.Walk
open List

/-! ## §1. Words of a memory. -/

/-- A memory of bytes. -/
abbrev Memory := Nat → UInt8

/-- The little-endian word of `n` bytes at `a`. -/
def word (m : Memory) (a : Nat) : Nat → Nat
  | 0 => 0
  | n + 1 => (m a).toNat + 256 * word m (a + 1) n

/-- Store the `n` low bytes of a number at `a`. -/
def poke (m : Memory) (a n value : Nat) : Memory := fun x =>
  if a ≤ x ∧ x < a + n then UInt8.ofNat (value / 256 ^ (x - a)) else m x

/-- Copy `n` bytes from `source` to `a`. -/
def copy (m : Memory) (a n : Nat) (source : Nat → UInt8) : Memory := fun x =>
  if a ≤ x ∧ x < a + n then source (x - a) else m x

theorem copy_of_mem {m : Memory} {a n x : Nat} {source : Nat → UInt8} (h : a ≤ x ∧ x < a + n) :
    copy m a n source x = source (x - a) := if_pos h

theorem copy_of_not_mem {m : Memory} {a n x : Nat} {source : Nat → UInt8}
    (h : ¬ (a ≤ x ∧ x < a + n)) : copy m a n source x = m x := if_neg h

/-! ## §2. Walks. -/

/-- What an access is for: filling the memory, reading what decides the way, or patching. -/
inductive Purpose where
  | copied
  | read
  | stored
  deriving DecidableEq

/-- An access to `width` bytes at `offset`. -/
structure Access where
  purpose : Purpose
  offset : Nat
  width : Nat
  deriving DecidableEq

/-- Where a walk reads from: the memory it patches, or a source. -/
inductive Mode where
  | planned (source : Memory)
  | actual

/-- A memory that is walked, something outside of it, and the accesses so far; `intact` tells whether every
word that a plan has read was the one of the memory. -/
structure Run (σ : Type) where
  memory : Memory
  outside : σ
  trace : List Access
  intact : Bool

/-- A walk. -/
def Steps (σ α : Type) : Type := Mode → Run σ → α × Run σ

variable {σ α β : Type}

instance : Monad (Steps σ) where
  pure a := fun _ s => (a, s)
  bind x f := fun mode s => f (x mode s).1 mode (x mode s).2

/-- Read the word of `n` bytes at `a`. -/
def fetch (a n : Nat) : Steps σ Nat := fun mode s =>
  match mode with
  | .planned source => (word source a n, { s with
      trace := s.trace ++ [⟨.read, a, n⟩]
      intact := s.intact && word s.memory a n == word source a n })
  | .actual => (word s.memory a n, { s with trace := s.trace ++ [⟨.read, a, n⟩] })

/-- Fill `n` bytes at `a`. -/
def fill (a n : Nat) (source : Nat → UInt8) : Steps σ Unit := fun _ s =>
  ((), { s with memory := copy s.memory a n source, trace := s.trace ++ [⟨.copied, a, n⟩] })

/-- Store at `a` what `value` makes of the memory and of what is outside, if it makes something. -/
def patch (a n : Nat) (value : Memory → σ → Option Nat × σ) : Steps σ Unit := fun _ s =>
  match value s.memory s.outside with
  | (none, outside) => ((), { s with outside := outside })
  | (some x, outside) => ((), { s with
      memory := poke s.memory a n x
      outside := outside
      trace := s.trace ++ [⟨.stored, a, n⟩] })

/-! ## §3. Planned and actual walks. -/

/-- **What a plan does**: it ends with a result in `Q` and makes accesses in `P` only, and where it has read
what is there, the actual walk does the same. -/
structure PlannedAt (source : Memory) (P : Access → Prop) (x : Steps σ α) (Q : α → Prop) (s : Run σ) : Prop where
  result : Q (x (.planned source) s).1
  accesses : ∀ c ∈ (x (.planned source) s).2.trace, P c
  actual : (x (.planned source) s).2.intact = true → s.intact = true ∧ x .actual s = x (.planned source) s

/-- The plan of `x`, wherever it starts. -/
def Plans (source : Memory) (P : Access → Prop) (x : Steps σ α) (Q : α → Prop) : Prop :=
  ∀ s : Run σ, (∀ c ∈ s.trace, P c) → PlannedAt source P x Q s

namespace Plans

variable {source : Memory} {P : Access → Prop} {Q : α → Prop}

theorem pure {a : α} (h : Q a) : Plans source P (Pure.pure a : Steps σ α) Q :=
  fun _ hs => ⟨h, hs, fun hintact => ⟨hintact, rfl⟩⟩

theorem bind {R : β → Prop} {x : Steps σ β} {f : β → Steps σ α} (hx : Plans source P x R)
    (hf : ∀ b, R b → Plans source P (f b) Q) : Plans source P (x >>= f) Q := by
  intro s hs
  obtain ⟨hR, haccesses, hfst⟩ := hx s hs
  obtain ⟨hQ, haccesses', hsec⟩ := hf _ hR _ haccesses
  refine ⟨hQ, haccesses', fun hintact => ?_⟩
  obtain ⟨hintact', hrest⟩ := hsec hintact
  obtain ⟨hstart, heq⟩ := hfst hintact'
  refine ⟨hstart, ?_⟩
  show f (x .actual s).1 .actual (x .actual s).2 = _
  rw [heq]
  exact hrest

theorem ite {c : Prop} [Decidable c] {x y : Steps σ α} (hx : c → Plans source P x Q)
    (hy : ¬ c → Plans source P y Q) : Plans source P (if c then x else y) Q := by
  split
  · next hc => exact hx hc
  · next hc => exact hy hc

theorem mono {Q Q' : α → Prop} {x : Steps σ α} (hx : Plans source P x Q) (h : ∀ a, Q a → Q' a) :
    Plans source P x Q' := by
  intro s hs
  obtain ⟨hQ, haccesses, hactual⟩ := hx s hs
  exact ⟨h _ hQ, haccesses, hactual⟩

private theorem trace_snoc {l : List Access} {c : Access} (hl : ∀ c ∈ l, P c) (hc : P c) :
    ∀ c' ∈ l ++ [c], P c' := by
  intro c' hc'
  rcases mem_append.mp hc' with hold | hnew
  · exact hl c' hold
  · rw [mem_singleton.mp hnew]
    exact hc

theorem fetch {a n : Nat} (h : P ⟨.read, a, n⟩) :
    Plans source P (Walk.fetch a n : Steps σ Nat) (fun x => x = word source a n) := by
  refine fun s hs => ⟨rfl, trace_snoc hs h, fun hintact => ?_⟩
  obtain ⟨hbef, hsame⟩ := Bool.and_eq_true_iff.mp hintact
  refine ⟨hbef, ?_⟩
  unfold Walk.fetch
  dsimp only
  rw [hsame, Bool.and_true, beq_iff_eq.mp hsame]

theorem fill {a n : Nat} {bytes : Nat → UInt8} (h : P ⟨.copied, a, n⟩) :
    Plans source P (Walk.fill a n bytes : Steps σ Unit) (fun _ => True) :=
  fun _ hs => ⟨trivial, trace_snoc hs h, fun hintact => ⟨hintact, rfl⟩⟩

theorem patch {a n : Nat} {value : Memory → σ → Option Nat × σ} (h : P ⟨.stored, a, n⟩) :
    Plans source P (Walk.patch a n value) (fun _ => True) := by
  intro s hs
  refine ⟨trivial, ?_, fun hintact => ⟨?_, rfl⟩⟩
  · unfold Walk.patch
    split
    · exact hs
    · exact trace_snoc hs h
  · unfold Walk.patch at hintact
    split at hintact
    · exact hintact
    · exact hintact

end Plans

end RinRuntime.Lib.Walk

/-
Lib.ByteFile — the bytes of a file under writes, and a copy in progress.

`overwrite` and `resize` are a write at a position and a truncation. `Copied size source c sized file`
describes a file that is being filled from `source`: its first `c` bytes are there, and the rest is missing,
or zero once the file has its final size. The lemmas follow a copy through its steps: writing a chunk,
skipping a hole, sizing the file, the end.
-/
import Mathlib.Data.List.GetD
import Mathlib.Tactic.Common

namespace RinRuntime.Lib.ByteFile
open List

/-! ## §1. Writes. -/

/-- Write `new` at `position`. -/
def overwrite (old : List UInt8) (position : Nat) (new : List UInt8) : List UInt8 :=
  old.take position ++ List.replicate (position - old.length) 0 ++ new ++
    old.drop (position + new.length)

/-- Cut or zero-fill to `size` bytes. -/
def resize (old : List UInt8) (size : Nat) : List UInt8 :=
  old.take size ++ List.replicate (size - old.length) 0

variable {old new source file : List UInt8} {position size c : Nat} {sized : Bool}

/-- A write within the file or at its end. -/
theorem overwrite_of_le (h : position ≤ old.length) :
    overwrite old position new = old.take position ++ new ++ old.drop (position + new.length) := by
  unfold overwrite
  rw [Nat.sub_eq_zero_of_le h, replicate_zero, append_nil]

theorem overwrite_nil (h : position ≤ old.length) : overwrite old position [] = old := by
  rw [overwrite_of_le h, append_nil, length_nil, Nat.add_zero, take_append_drop]

theorem length_overwrite (h : position ≤ old.length) :
    (overwrite old position new).length = max old.length (position + new.length) := by
  rw [overwrite_of_le h, length_append, length_append, length_take, length_drop]
  omega

/-- Writing two pieces one after the other is writing them at once. -/
theorem overwrite_overwrite (h : position ≤ old.length) (a b : List UInt8) :
    overwrite (overwrite old position a) (position + a.length) b = overwrite old position (a ++ b) := by
  have hhead : (old.take position ++ a).length = position + a.length := by
    rw [length_append, length_take, Nat.min_eq_left h]
  have hlen : position + a.length ≤ (overwrite old position a).length := by
    rw [length_overwrite h]
    omega
  rw [overwrite_of_le hlen, overwrite_of_le h, overwrite_of_le h]
  have htake : (old.take position ++ a ++ old.drop (position + a.length)).take (position + a.length)
      = old.take position ++ a := by
    rw [← hhead, take_left]
  have hdrop : (old.take position ++ a ++ old.drop (position + a.length)).drop
      (position + a.length + b.length) = old.drop (position + (a ++ b).length) := by
    rw [← drop_drop, drop_append_of_le_length (Nat.le_of_eq hhead.symm),
      drop_of_length_le (Nat.le_of_eq hhead), nil_append, drop_drop,
      length_append, Nat.add_assoc]
  rw [htake, hdrop, append_assoc (old.take position)]

/-! ## §2. A copy in progress. -/

/-- The first `c` bytes of `source` have been copied to `file`. -/
structure Copied (size : Nat) (source : List UInt8) (c : Nat) (sized : Bool)
    (file : List UInt8) : Prop where
  copied : file.take c = source.take c
  within : c ≤ source.length
  fits : c ≤ size
  growing : sized = false → file.length = c
  filled : sized = true → file.length = size ∧ ∀ k, c ≤ k → file.getD k 0 = 0

namespace Copied

theorem empty (size : Nat) (source : List UInt8) : Copied size source 0 false [] :=
  ⟨rfl, Nat.zero_le _, Nat.zero_le _, fun _ => rfl, fun h => by cases h⟩

theorem le_length (h : Copied size source c sized file) : c ≤ file.length := by
  cases sized with
  | false => exact Nat.le_of_eq (h.growing rfl).symm
  | true => rw [(h.filled rfl).1]; exact h.fits

/-- The next bytes of the source are written. -/
theorem write {n : Nat} {chunk : List UInt8} (h : Copied size source c sized file)
    (hchunk : chunk = (source.drop c).take n) (hlen : chunk.length = n) (hfits : c + n ≤ size) :
    Copied size source (c + n) sized (overwrite file c chunk) := by
  have hle := h.le_length
  have hhead : (file.take c ++ chunk).length = c + n := by
    rw [length_append, length_take, Nat.min_eq_left hle, hlen]
  have hwithin : c + n ≤ source.length := by
    rw [hchunk, length_take, length_drop] at hlen
    have := h.within
    omega
  rw [overwrite_of_le hle, hlen]
  refine ⟨?_, hwithin, hfits, fun hs => ?_, fun hs => ⟨?_, fun k hk => ?_⟩⟩
  · rw [← hhead, take_left, hhead, h.copied, hchunk, take_add]
  · have hfile := h.growing hs
    rw [length_append, hhead, length_drop]
    omega
  · have hfile := (h.filled hs).1
    rw [length_append, hhead, length_drop]
    omega
  rw [getD_append_right _ _ _ _ (by rw [hhead]; exact hk), hhead,
    getD_eq_getElem?_getD, List.getElem?_drop, ← getD_eq_getElem?_getD]
  exact (h.filled hs).2 _ (by omega)

/-- The file is given its final size. -/
theorem resize (h : Copied size source c false file) :
    Copied size source c true (ByteFile.resize file size) := by
  have hfile := h.growing rfl
  have htake : file.take size = file := take_of_length_le (by rw [hfile]; exact h.fits)
  unfold ByteFile.resize
  rw [htake]
  refine ⟨?_, h.within, h.fits, fun hs => (by cases hs), fun _ => ⟨?_, fun k hk => ?_⟩⟩
  · rw [← h.copied, take_append_of_le_length (Nat.le_of_eq hfile.symm)]
  · rw [length_append, length_replicate]
    have := h.fits
    omega
  rw [getD_append_right _ _ _ _ (by rw [hfile]; exact hk), getD_eq_getElem?_getD]
  cases hget : (List.replicate (size - file.length) (0 : UInt8))[k - file.length]? with
  | none => rfl
  | some x => exact eq_of_mem_replicate (mem_of_getElem? hget)

/-- A hole of the source is passed over. -/
theorem skip {c' : Nat} (h : Copied size source c true file) (hsize : source.length = size)
    (hle : c ≤ c') (hfits : c' ≤ size) (hhole : ∀ k, c ≤ k → k < c' → source.getD k 0 = 0) :
    Copied size source c' true file := by
  obtain ⟨hlen, hzero⟩ := h.filled rfl
  refine ⟨?_, by omega, hfits, fun hs => (by cases hs), fun _ => ⟨hlen, fun k hk => hzero k (by omega)⟩⟩
  apply ext_getElem?
  intro k
  by_cases hk : k < c'
  · rw [List.getElem?_take_of_lt hk, List.getElem?_take_of_lt hk]
    by_cases hkc : k < c
    · have hcopied := congrArg (fun l : List UInt8 => l[k]?) h.copied
      simpa only [List.getElem?_take_of_lt hkc] using hcopied
    have hfile : k < file.length := by omega
    have hsrc : k < source.length := by omega
    have h1 := hzero k (by omega)
    have h2 := hhole k (by omega) hk
    rw [getD_eq_getElem _ _ hfile] at h1
    rw [getD_eq_getElem _ _ hsrc] at h2
    rw [List.getElem?_eq_getElem hfile, List.getElem?_eq_getElem hsrc, h1, h2]
  · rw [List.getElem?_eq_none (by rw [length_take]; omega),
      List.getElem?_eq_none (by rw [length_take]; omega)]

/-- **The end of a copy**: the file holds the first `size` bytes of the source. -/
theorem complete (h : Copied size source size sized file) : file = source.take size := by
  have hlen : file.length = size := by
    cases sized with
    | false => exact h.growing rfl
    | true => exact (h.filled rfl).1
  rw [← h.copied, take_of_length_le (Nat.le_of_eq hlen)]

end Copied

end RinRuntime.Lib.ByteFile

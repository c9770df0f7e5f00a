/-
PeLoader.Load — mapping an admitted image.

`pe_load64_ex_at` copies headers and sections into the destination, applies the base relocations and
resolves the imports there. The relocation blocks, import descriptors and thunks it walks over it reads from
the destination, not from the file; so the model is a walk that patches the memory it reads. Offsets are
relative to `load_addr`.
-/
import Mathlib.Algebra.Group.Int.Defs
import RinRuntime.PeLoader.Validate

namespace RinRuntime.PeLoader
open Lib.Walk
variable {σ : Type}

/-! ## §1. Copying. -/

/-- A section of `pe_load64_ex_at`, unless it has no contents. -/
def copySection (m : Memory) (s : SectionHeader) : Steps σ Unit :=
  if s.sizeOfRawData = 0 ∨ s.pointerToRawData = 0 then pure ()
  else fill s.virtualAddress s.sizeOfRawData fun i => m (s.pointerToRawData + i)

/-- The section loop of `pe_load64_ex_at`. -/
def copySections (m : Memory) : List SectionHeader → Steps σ Unit
  | [] => pure ()
  | s :: rest => do
      copySection m s
      copySections m rest

/-- The destination is cleared, and headers and sections are copied. -/
def mapImage (view : ImageView) : Steps σ Unit := do
  fill 0 view.imageSize fun _ => 0
  fill 0 view.headerSize view.bytes
  copySections view.bytes view.sections

/-! ## §2. Relocations. -/

/-- `*target += amount` for a word of `width` bytes. -/
def addTo (target width : Nat) (amount : Int) : Steps σ Unit :=
  patch target width fun m outside =>
    (some (((word m target width : Int) + amount) % (256 ^ width : Nat)).toNat, outside)

/-- One relocation: the types `pe_load64_ex_at` handles. -/
def relocate (is64bit : Bool) (delta : Int) (type target : Nat) : Steps σ Unit :=
  if is64bit = true ∧ type = 10 then addTo target 8 delta
  else if type = 3 then addTo target 4 delta
  else if type = 1 then addTo target 2 (delta / 2 ^ 16 % 2 ^ 16)
  else if type = 2 then addTo target 2 (delta % 2 ^ 16)
  else pure ()

/-- One entry of a relocation block; the page of the block is read again for every entry. -/
def relocEntry (is64bit : Bool) (delta : Int) (block index : Nat) : Steps σ Unit := do
  let entry ← fetch (block + baseRelocationSize + index * 2) 2
  if entry / 2 ^ 12 = 0 then pure ()
  else do
    let page ← fetch block 4
    relocate is64bit delta (entry / 2 ^ 12) (page + entry % 2 ^ 12)

/-- The entry loop of a relocation block. -/
def relocEntries (is64bit : Bool) (delta : Int) (block : Nat) :
    (remaining index : Nat) → Steps σ Unit
  | 0, _ => pure ()
  | remaining + 1, index => do
      relocEntry is64bit delta block index
      relocEntries is64bit delta block remaining (index + 1)

/-- The block loop. The size of a block is read again behind its entries; a size of 0 ends the loop in
the next round, so one round more than there are bytes is enough. -/
def relocBlocks (is64bit : Bool) (delta : Int) (relocEnd : Nat) : (rounds block : Nat) → Steps σ Unit
  | 0, _ => pure ()
  | rounds + 1, block =>
      if block < relocEnd then do
        let blockSize ← fetch (block + 4) 4
        if blockSize < baseRelocationSize then pure ()
        else do
          relocEntries is64bit delta block ((blockSize - baseRelocationSize) / 2) 0
          let advance ← fetch (block + 4) 4
          relocBlocks is64bit delta relocEnd rounds (block + advance)
      else pure ()

/-- The relocations of an image that is `delta` away from its preferred base; `false` where it has
none. -/
def applyRelocations (view : ImageView) (delta : Int) : Steps σ Bool :=
  let reloc := view.directory dirBaseReloc
  if delta = 0 then pure true
  else if reloc.virtualAddress ≠ 0 ∧ 0 < reloc.size then do
    relocBlocks view.is64bit delta (reloc.virtualAddress + reloc.size) (reloc.size + 2)
      reloc.virtualAddress
    pure true
  else pure false

/-! ## §3. Imports. -/

/-- What the loader asks an import resolver: the offsets of the names in the destination. -/
structure ImportRequest where
  dllName : Nat
  procName : Option Nat
  ordinal : Nat
  byOrdinal : Bool

/-- `PeImportResolver`: it may look at the destination and has a state of its own. -/
abbrev ImportResolver (σ : Type) := ImportRequest → Memory → σ → Nat × σ

/-- What is outside of the destination: the state of the resolver, and `unresolved_imports`. -/
structure Outside (σ : Type) where
  resolver : σ
  unresolved : Nat

/-- The request for a thunk. -/
def thunkRequest (is64bit : Bool) (dllName thunk : Nat) : ImportRequest :=
  if thunk &&& (if is64bit then 2 ^ 63 else 2 ^ 31) ≠ 0 then ⟨dllName, none, thunk % 2 ^ 16, true⟩
  else ⟨dllName, some (thunk % 2 ^ 32 + 2), 0, false⟩

/-- The address the resolver finds for a thunk, if it fits the slot. -/
def resolveThunk (is64bit : Bool) (resolver : Option (ImportResolver σ)) (dllName thunk : Nat)
    (m : Memory) (outside : Outside σ) : Option Nat × Outside σ :=
  let (resolved, state) :=
    match resolver with
    | none => (0, outside.resolver)
    | some resolve => resolve (thunkRequest is64bit dllName thunk) m outside.resolver
  if resolved ≠ 0 ∧ (is64bit = true ∨ resolved ≤ u32Max) then
    (some resolved, { outside with resolver := state })
  else (none, ⟨state, (outside.unresolved + 1) % 2 ^ 32⟩)

/-- The thunk loop of a descriptor; `false` where it is cut off after `rounds` thunks. -/
def bindThunks (is64bit : Bool) (resolver : Option (ImportResolver σ)) (dllName : Nat) :
    (rounds iat intEntry : Nat) → Steps (Outside σ) Bool
  | 0, _, _ => pure false
  | rounds + 1, iat, intEntry => do
      let width := if is64bit then 8 else 4
      let thunk ← fetch intEntry width
      if thunk = 0 then pure true
      else do
        patch iat width (resolveThunk is64bit resolver dllName thunk)
        bindThunks is64bit resolver dllName rounds (iat + width) (intEntry + width)

/-- The descriptor loop. -/
def bindDescriptors (is64bit : Bool) (resolver : Option (ImportResolver σ)) (rounds : Nat) :
    (remaining imp : Nat) → Steps (Outside σ) Bool
  | 0, _ => pure true
  | remaining + 1, imp => do
      let name ← fetch (imp + 12) 4
      let iatRva ← fetch (imp + 16) 4
      let originalFirstThunk ← fetch imp 4
      let intRva := if originalFirstThunk = 0 then iatRva else originalFirstThunk
      let finished ← bindThunks is64bit resolver name rounds iatRva intRva
      if finished = true then bindDescriptors is64bit resolver rounds remaining (imp + importDescriptorSize)
      else pure false

/-- The imports of an image. -/
def resolveImports (view : ImageView) (resolver : Option (ImportResolver σ)) (rounds : Nat) :
    Steps (Outside σ) Bool :=
  let imports := view.directory dirImport
  if imports.virtualAddress ≠ 0 ∧ 0 < imports.size then
    bindDescriptors view.is64bit resolver rounds view.importDescriptorCount imports.virtualAddress
  else pure true

/-! ## §4. The call. -/

/-- Everything `pe_load64_ex_at` does to the destination, for an admitted image at `virtual_base`: it
fails, or it returns whether no thunk loop was cut off. -/
def walkImage (view : ImageView) (virtualBase : Nat) (resolver : Option (ImportResolver σ))
    (rounds : Nat) : Steps (Outside σ) (Except PeError Bool) := do
  mapImage view
  let delta : Int := (virtualBase : Int) - view.preferredBase
  if 2 ^ 63 - 1 < delta.natAbs then pure (.error .errRelocation)
  else do
    let relocated ← applyRelocations view delta
    if relocated = false then pure (.error .errRelocation)
    else do
      let finished ← resolveImports view resolver rounds
      pure (.ok finished)

/-- The tests before anything is written: flags, admission, delay imports, resolver and address range. -/
def admission (file : List UInt8) (virtualBase loadFlags : Nat) (hasResolver : Bool) :
    Except PeError ImageView := do
  ensure (virtualBase ≠ 0) .errNull
  ensure (loadFlags / 2 = 0) .errPolicy
  let view ← validateImage file
  ensure (¬ (view.hasDelayImports = true ∧ loadFlags % 2 = 0)) .errUnsupported
  ensure (¬ (view.importSymbolCount ≠ 0 ∧ hasResolver = false)) .errImport
  ensure (virtualBase ≤ 2 ^ 64 - 1 - view.imageSize ∧ (view.is64bit = true ∨
    virtualBase ≤ u32Max ∧ virtualBase + view.imageSize ≤ 2 ^ 32)) .errBounds
  pure view

/-- `PeLoadInfo`, as the last lines of `pe_load64_ex_at` fill it in. -/
structure LoadInfo where
  entryPoint : Nat
  imageBase : Nat
  preferredBase : Nat
  imageSize : Nat
  headerSize : Nat
  machine : Nat
  subsystem : Nat
  characteristics : Nat
  is64bit : Bool
  isDll : Bool
  hasTls : Bool
  hasDelayImports : Bool
  importCount : Nat
  tlsDirectoryRva : Nat
  tlsDirectorySize : Nat
  deriving DecidableEq

/-- The load info of a mapped image. -/
def loadInfo (view : ImageView) (virtualBase : Nat) : LoadInfo where
  entryPoint := if view.entryRva ≠ 0 then virtualBase + view.entryRva else 0
  imageBase := virtualBase
  preferredBase := view.preferredBase
  imageSize := view.imageSize
  headerSize := view.headerSize
  machine := view.machine
  subsystem := view.subsystem
  characteristics := view.characteristics
  is64bit := view.is64bit
  isDll := view.isDll
  hasTls := view.hasTls
  hasDelayImports := view.hasDelayImports
  importCount := view.importSymbolCount
  tlsDirectoryRva := if view.hasTls then (view.directory dirTls).virtualAddress else 0
  tlsDirectorySize := if view.hasTls then (view.directory dirTls).size else 0

/-- `pe_load64_ex_at` into a destination that holds `m`: the result, the destination afterwards and the
accesses to it. There is no result where a thunk loop was cut off after `rounds` thunks. -/
def load64ExAt (file : List UInt8) (virtualBase loadFlags : Nat) (resolver : Option (ImportResolver σ))
    (state : σ) (rounds : Nat) (m : Memory) :
    Option (Except PeError LoadInfo) × Run (Outside σ) :=
  match admission file virtualBase loadFlags resolver.isSome with
  | .error e => (some (.error e), ⟨m, ⟨state, 0⟩, [], true⟩)
  | .ok view =>
      match walkImage view virtualBase resolver rounds .actual ⟨m, ⟨state, 0⟩, [], true⟩ with
      | (.error e, run) => (some (.error e), run)
      | (.ok false, run) => (none, run)
      | (.ok true, run) =>
          if 0 < run.outside.unresolved then (some (.error .errImport), run)
          else (some (.ok (loadInfo view virtualBase)), run)

end RinRuntime.PeLoader

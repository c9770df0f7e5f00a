/-
PeLoader.Validate — the admission checks of `include/rinruntime/pe_loader.h`.

`validateImage` is `pe_validate_image` with the functions it calls: headers, sections, data directories,
exports, imports and base relocations of a PE32 or PE32+ file. Pointers into the file are offsets;
the 32-bit fields are natural numbers, and sums that may pass 2³² are taken modulo it.
-/
import RinRuntime.Lib.Walk

namespace RinRuntime.PeLoader
open Lib.Walk

/-! ## §1. Results, headers and views. -/

/-- The `PE_ERR_*` codes the admission and the loader return. -/
inductive PeError where
  | errNull
  | errNotPe
  | errUnsupported
  | errBounds
  | errOverlap
  | errImport
  | errRelocation
  | errPolicy
  | errExport
  deriving DecidableEq

/-- Go on when the condition holds, fail otherwise. -/
def ensure (c : Prop) [Decidable c] (e : PeError) : Except PeError Unit :=
  if c then .ok () else .error e

/-- `PeSectionHeader`, as far as it is read. -/
structure SectionHeader where
  virtualSize : Nat
  virtualAddress : Nat
  sizeOfRawData : Nat
  pointerToRawData : Nat
  characteristics : Nat
  deriving DecidableEq

/-- `PeDataDirectory`. -/
structure DataDirectory where
  virtualAddress : Nat
  size : Nat
  deriving DecidableEq

/-- `PeImageView`: what the admission knows of a file. -/
structure ImageView where
  file : List UInt8
  machine : Nat
  characteristics : Nat
  sections : List SectionHeader
  directories : List DataDirectory
  imageSize : Nat
  headerSize : Nat
  entryRva : Nat
  sectionAlignment : Nat
  fileAlignment : Nat
  preferredBase : Nat
  importDescriptorCount : Nat
  importSymbolCount : Nat
  subsystem : Nat
  is64bit : Bool
  isDll : Bool
  hasTls : Bool
  hasDelayImports : Bool
  deriving DecidableEq

/-- The bytes of a file, as a memory. -/
def bytesOf (file : List UInt8) : Memory := fun i => file.getD i 0

namespace ImageView

variable (view : ImageView)

/-- `view->file[offset]`. -/
def bytes : Memory := bytesOf view.file

/-- `view->sections[i]`. -/
def sectionAt (i : Nat) : SectionHeader := view.sections.getD i ⟨0, 0, 0, 0, 0⟩

/-- `view->directories[i]`, or the empty directory past `directory_count`. -/
def directory (i : Nat) : DataDirectory := view.directories.getD i ⟨0, 0⟩

/-- The width of a thunk. -/
def thunkWidth : Nat := if view.is64bit then 8 else 4

end ImageView

/-- The larger of a section's sizes. -/
def SectionHeader.span (s : SectionHeader) : Nat := max s.virtualSize s.sizeOfRawData

/-- `PE_DIR_EXPORT`. -/
def dirExport : Nat := 0
/-- `PE_DIR_IMPORT`. -/
def dirImport : Nat := 1
/-- `PE_DIR_SECURITY`. -/
def dirSecurity : Nat := 4
/-- `PE_DIR_BASERELOC`. -/
def dirBaseReloc : Nat := 5
/-- `PE_DIR_TLS`. -/
def dirTls : Nat := 9
/-- `PE_DIR_DELAY_IMPORT`. -/
def dirDelayImport : Nat := 13

/-- `PE_SCN_MEM_EXECUTE`. -/
def memExecute : Nat := 0x20000000
/-- `PE_SCN_MEM_READ`. -/
def memRead : Nat := 0x40000000
/-- `PE_SCN_MEM_WRITE`. -/
def memWrite : Nat := 0x80000000

/-- `PE_MAX_IMAGE_SIZE`. -/
def maxImageSize : Nat := 1024 * 1024 * 1024
/-- `PE_MAX_IMPORT_SYMBOLS`. -/
def maxImportSymbols : Nat := 65536
/-- `PE_MAX_EXPORT_SYMBOLS`. -/
def maxExportSymbols : Nat := 65536

/-- `UINT32_MAX`. -/
def u32Max : Nat := 2 ^ 32 - 1

/-! ## §2. Helpers. -/

/-- `pe_size_range_ok` and `pe_u32_range_ok`. -/
def rangeOk (offset length limit : Nat) : Prop := offset ≤ limit ∧ length ≤ limit - offset

instance (offset length limit : Nat) : Decidable (rangeOk offset length limit) := by
  unfold rangeOk; infer_instance

/-- `pe_is_power_of_two_u32`. -/
def isPowerOfTwo (value : Nat) : Prop := value ≠ 0 ∧ value &&& (value - 1) = 0

instance (value : Nat) : Decidable (isPowerOfTwo value) := by unfold isPowerOfTwo; infer_instance

/-- `pe_align_up_u32`. -/
def alignUp (value alignment : Nat) : Option Nat :=
  if ¬ isPowerOfTwo alignment then none
  else if u32Max - (alignment - 1) < value then none
  else some (BitVec.ofNat 32 (value + (alignment - 1)) &&& ~~~ BitVec.ofNat 32 (alignment - 1)).toNat

/-- The section loop of `pe_view_rva_to_file`. -/
def sectionToFile (fileSize rva minimumSize : Nat) : List SectionHeader → Option (Nat × Nat)
  | [] => none
  | s :: rest =>
      if rva < s.virtualAddress then sectionToFile fileSize rva minimumSize rest
      else
        let delta := rva - s.virtualAddress
        if s.sizeOfRawData ≤ delta then sectionToFile fileSize rva minimumSize rest
        else
          let available := s.sizeOfRawData - delta
          if available < minimumSize ∨ ¬ rangeOk (s.pointerToRawData + delta) minimumSize fileSize then
            none
          else some (s.pointerToRawData + delta, available)

/-- `pe_view_rva_to_file`: the offset in the file, and the bytes that are available there. -/
def rvaToFile (view : ImageView) (rva minimumSize : Nat) : Option (Nat × Nat) :=
  if rva < view.headerSize then
    let available := view.headerSize - rva
    if available < minimumSize ∨ ¬ rangeOk rva minimumSize view.file.length then none
    else some (rva, available)
  else sectionToFile view.file.length rva minimumSize view.sections

/-- `pe_view_rva_has_flags`. -/
def rvaHasFlags (view : ImageView) (rva size requiredFlags : Nat) : Bool :=
  size != 0 && view.sections.any fun s =>
    decide (s.virtualAddress ≤ rva ∧ rangeOk rva size ((s.virtualAddress + s.span) % 2 ^ 32) ∧
      s.characteristics &&& requiredFlags = requiredFlags)

/-- `pe_validate_file_string`: whether it returns `PE_OK`. -/
def fileStringValid (view : ImageView) (rva prefixSize : Nat) (requireNonempty : Bool) : Bool :=
  match rvaToFile view rva (prefixSize + 1) with
  | none => false
  | some (text, available) =>
      decide (prefixSize < available) &&
      !(requireNonempty && view.bytes (text + prefixSize) == 0) &&
      (List.range' prefixSize (min available 4096 - prefixSize)).any fun index =>
        view.bytes (text + index) == 0

/-! ## §3. Imports. -/

/-- The size of `PeImportDescriptor`. -/
def importDescriptorSize : Nat := 20

/-- `PeImportDescriptor`. -/
structure ImportDescriptor where
  originalFirstThunk : Nat
  timeDateStamp : Nat
  forwarderChain : Nat
  name : Nat
  firstThunk : Nat
  deriving DecidableEq

/-- The descriptor at an offset. -/
def readDescriptor (m : Memory) (offset : Nat) : ImportDescriptor where
  originalFirstThunk := word m offset 4
  timeDateStamp := word m (offset + 4) 4
  forwarderChain := word m (offset + 8) 4
  name := word m (offset + 12) 4
  firstThunk := word m (offset + 16) 4

/-- The RVA of the names a descriptor imports. -/
def ImportDescriptor.thunkRva (d : ImportDescriptor) : Nat :=
  if d.originalFirstThunk ≠ 0 then d.originalFirstThunk else d.firstThunk

/-- `PE_ORDINAL_FLAG64` or `PE_ORDINAL_FLAG32`. -/
def ordinalFlag (view : ImageView) : Nat := if view.is64bit then 2 ^ 63 else 2 ^ 31

/-- The tests of `pe_validate_import_directory` on the name a thunk points to. -/
def checkThunkName (view : ImageView) (thunk : Nat) : Except PeError Unit :=
  if thunk &&& ordinalFlag view = 0 then do
    ensure (¬ (view.is64bit = true ∧ thunk / 2 ^ 32 ≠ 0)) .errImport
    ensure (fileStringValid view thunk 2 true = true) .errImport
  else .ok ()

/-- The thunk loop of `pe_validate_import_directory`: from `index` on, with at most `remaining` thunks
before the end of the available bytes; what it returns is `total_symbols`. -/
def checkThunks (view : ImageView) (firstThunk thunkBytes : Nat) :
    (remaining index total : Nat) → Except PeError Nat
  | 0, _, _ => .error .errImport
  | remaining + 1, index, total =>
      let width := view.thunkWidth
      let thunk := word view.bytes (thunkBytes + index * width) width
      if thunk = 0 then .ok total
      else do
        ensure (total < maxImportSymbols ∧ firstThunk ≤ u32Max - index * width) .errImport
        let iatRva := firstThunk + index * width
        ensure (rangeOk iatRva width view.imageSize ∧
          rvaHasFlags view iatRva width memWrite = true) .errImport
        checkThunkName view thunk
        checkThunks view firstThunk thunkBytes remaining (index + 1) (total + 1)

/-- The descriptor loop of `pe_validate_import_directory`: the number of descriptors before the
terminator, and of symbols. -/
def checkDescriptors (view : ImageView) (descriptorBytes : Nat) :
    (remaining index total : Nat) → Except PeError (Nat × Nat)
  | 0, _, _ => .error .errImport
  | remaining + 1, index, total =>
      let descriptor := readDescriptor view.bytes (descriptorBytes + index * importDescriptorSize)
      if descriptor = ⟨0, 0, 0, 0, 0⟩ then .ok (index, total)
      else do
        ensure (descriptor.name ≠ 0 ∧ descriptor.firstThunk ≠ 0 ∧
          fileStringValid view descriptor.name 0 true = true) .errImport
        match rvaToFile view descriptor.thunkRva view.thunkWidth with
        | none => .error .errImport
        | some (thunkBytes, thunkAvailable) => do
            let total ← checkThunks view descriptor.firstThunk thunkBytes
              (thunkAvailable / view.thunkWidth) 0 total
            checkDescriptors view descriptorBytes remaining (index + 1) total

/-- `pe_validate_import_directory`: `import_descriptor_count` and `import_symbol_count`. -/
def validateImportDirectory (view : ImageView) : Except PeError (Nat × Nat) :=
  let directory := view.directory dirImport
  if directory.virtualAddress = 0 then .ok (0, 0)
  else
    match rvaToFile view directory.virtualAddress directory.size with
    | none => .error .errImport
    | some (descriptorBytes, _) => do
        ensure (importDescriptorSize ≤ directory.size) .errImport
        checkDescriptors view descriptorBytes (directory.size / importDescriptorSize) 0 0

/-! ## §4. Exports. -/

/-- The size of `PeExportDirectory`. -/
def exportDirectorySize : Nat := 40

/-- The name loop of `pe_validate_export_directory`. -/
def exportNameValid (view : ImageView) (numberOfFunctions nameBytes ordinalBytes index : Nat) : Bool :=
  decide (word view.bytes (ordinalBytes + index * 2) 2 < numberOfFunctions) &&
    fileStringValid view (word view.bytes (nameBytes + index * 4) 4) 0 true

/-- The function loop of `pe_validate_export_directory`. -/
def exportFunctionValid (view : ImageView) (functionBytes index : Nat) : Bool :=
  let directory := view.directory dirExport
  let functionRva := word view.bytes (functionBytes + index * 4) 4
  if functionRva = 0 then true
  else if directory.virtualAddress ≤ functionRva ∧
      functionRva < directory.virtualAddress + directory.size then
    fileStringValid view functionRva 0 true
  else decide (rangeOk functionRva 1 view.imageSize) && rvaHasFlags view functionRva 1 memRead

/-- The names of `pe_validate_export_directory`. -/
def validateExportNames (view : ImageView)
    (exports numberOfFunctions numberOfNames : Nat) : Except PeError Unit :=
  if numberOfNames = 0 then .ok ()
  else do
    let addressOfNames := word view.bytes (exports + 32) 4
    let addressOfNameOrdinals := word view.bytes (exports + 36) 4
    ensure (addressOfNames ≠ 0 ∧ addressOfNameOrdinals ≠ 0) .errExport
    match rvaToFile view addressOfNames (numberOfNames * 4),
        rvaToFile view addressOfNameOrdinals (numberOfNames * 2) with
    | some (nameBytes, _), some (ordinalBytes, _) =>
        ensure ((List.range numberOfNames).all
          (exportNameValid view numberOfFunctions nameBytes ordinalBytes) = true) .errExport
    | _, _ => .error .errExport

/-- `pe_validate_export_directory`. -/
def validateExportDirectory (view : ImageView) : Except PeError Unit :=
  let directory := view.directory dirExport
  if directory.virtualAddress = 0 then .ok ()
  else do
    ensure (exportDirectorySize ≤ directory.size ∧ directory.virtualAddress ≤ u32Max - directory.size)
      .errExport
    match rvaToFile view directory.virtualAddress exportDirectorySize with
    | none => .error .errExport
    | some (exports, _) => do
        let name := word view.bytes (exports + 12) 4
        let base := word view.bytes (exports + 16) 4
        let numberOfFunctions := word view.bytes (exports + 20) 4
        let numberOfNames := word view.bytes (exports + 24) 4
        let addressOfFunctions := word view.bytes (exports + 28) 4
        ensure (numberOfFunctions ≤ maxExportSymbols ∧ numberOfNames ≤ numberOfFunctions ∧
          base ≤ u32Max - numberOfFunctions) .errExport
        ensure (name = 0 ∨ fileStringValid view name 0 true = true) .errExport
        if numberOfFunctions = 0 then ensure (numberOfNames = 0) .errExport
        else do
          ensure (addressOfFunctions ≠ 0) .errExport
          match rvaToFile view addressOfFunctions (numberOfFunctions * 4) with
          | none => .error .errExport
          | some (functionBytes, _) => do
              validateExportNames view exports numberOfFunctions numberOfNames
              ensure ((List.range numberOfFunctions).all (exportFunctionValid view functionBytes) = true)
                .errExport

/-! ## §5. Base relocations. -/

/-- The size of `PeBaseRelocation`. -/
def baseRelocationSize : Nat := 8

/-- How many bytes a relocation of a type changes, where the type is admitted. -/
def relocationWidth (is64bit : Bool) (type : Nat) : Option Nat :=
  if is64bit then (if type = 10 then some 8 else none)
  else if type = 3 then some 4
  else if type = 1 ∨ type = 2 then some 2
  else none

/-- The entry loop of `pe_validate_relocation_directory`, for one entry. -/
def relocationEntryValid (view : ImageView) (pageRva entry : Nat) : Bool :=
  if entry / 2 ^ 12 = 0 then true
  else
    match relocationWidth view.is64bit (entry / 2 ^ 12) with
    | none => false
    | some width => decide (pageRva ≤ u32Max - entry % 2 ^ 12 ∧
        rangeOk (pageRva + entry % 2 ^ 12) width view.imageSize)

/-- The block loop of `pe_validate_relocation_directory`, from `cursor` on. Every block takes at least
eight bytes, so as many rounds as there are bytes are enough. -/
def checkBlocks (view : ImageView) (bytes size : Nat) : (rounds cursor : Nat) → Except PeError Unit
  | 0, _ => .error .errRelocation
  | rounds + 1, cursor =>
      if cursor < size then do
        ensure (baseRelocationSize ≤ size - cursor) .errRelocation
        let pageRva := word view.bytes (bytes + cursor) 4
        let blockSize := word view.bytes (bytes + cursor + 4) 4
        ensure (baseRelocationSize ≤ blockSize ∧ blockSize % 2 = 0 ∧ blockSize ≤ size - cursor)
          .errRelocation
        ensure ((List.range ((blockSize - baseRelocationSize) / 2)).all (fun index =>
          relocationEntryValid view pageRva
            (word view.bytes (bytes + cursor + baseRelocationSize + index * 2) 2)) = true) .errRelocation
        checkBlocks view bytes size rounds (cursor + blockSize)
      else ensure (cursor = size) .errRelocation

/-- `pe_validate_relocation_directory`. -/
def validateRelocationDirectory (view : ImageView) : Except PeError Unit :=
  let directory := view.directory dirBaseReloc
  if directory.virtualAddress = 0 then .ok ()
  else do
    ensure (view.characteristics &&& 1 = 0) .errRelocation
    match rvaToFile view directory.virtualAddress directory.size with
    | none => .error .errRelocation
    | some (bytes, _) => checkBlocks view bytes directory.size (directory.size + 1) 0

/-! ## §6. The image. -/

/-- The overlap tests of a section against an earlier one. -/
def checkOverlap (view : ImageView) (s : SectionHeader) (alignedSpan : Nat) (other : SectionHeader) :
    Except PeError Unit :=
  match alignUp other.span view.sectionAlignment with
  | none => .error .errOverlap
  | some otherAligned => do
      ensure (¬ (s.virtualAddress < (other.virtualAddress + otherAligned) % 2 ^ 32 ∧
        other.virtualAddress < (s.virtualAddress + alignedSpan) % 2 ^ 32)) .errOverlap
      ensure (¬ (s.sizeOfRawData ≠ 0 ∧ other.sizeOfRawData ≠ 0 ∧
        s.pointerToRawData < (other.pointerToRawData + other.sizeOfRawData) % 2 ^ 32 ∧
        other.pointerToRawData < (s.pointerToRawData + s.sizeOfRawData) % 2 ^ 32)) .errOverlap

/-- The tests on where the contents of a section are. -/
def checkRawData (view : ImageView) (s : SectionHeader) : Except PeError Unit :=
  if s.sizeOfRawData ≠ 0 then
    ensure (view.headerSize ≤ s.pointerToRawData ∧
      s.pointerToRawData &&& (view.fileAlignment - 1) = 0 ∧
      s.sizeOfRawData &&& (view.fileAlignment - 1) = 0 ∧
      rangeOk s.pointerToRawData s.sizeOfRawData view.file.length) .errBounds
  else ensure (s.pointerToRawData = 0) .errPolicy

/-- The section loop of `pe_validate_image`, for section `index`. -/
def checkSection (view : ImageView) (alignedHeaders index : Nat) : Except PeError Unit :=
  let s := view.sectionAt index
  match alignUp s.span view.sectionAlignment with
  | none => .error .errPolicy
  | some alignedSpan => do
      ensure (s.span ≠ 0 ∧ alignedHeaders ≤ s.virtualAddress ∧
        s.virtualAddress &&& (view.sectionAlignment - 1) = 0 ∧
        rangeOk s.virtualAddress alignedSpan view.imageSize ∧
        s.characteristics &&& (memWrite ||| memExecute) ≠ memWrite ||| memExecute) .errPolicy
      checkRawData view s
      (List.range index).forM fun other => checkOverlap view s alignedSpan (view.sectionAt other)

/-- The directory loop of `pe_validate_image`, for directory `index`. -/
def checkDirectory (view : ImageView) (index : Nat) : Except PeError Unit :=
  let directory := view.directory index
  if directory.virtualAddress = 0 then ensure (directory.size = 0) .errBounds
  else do
    ensure (directory.size ≠ 0) .errBounds
    if index = dirSecurity then
      ensure (rangeOk directory.virtualAddress directory.size view.file.length) .errBounds
    else
      ensure (rangeOk directory.virtualAddress directory.size view.imageSize ∧
        (rvaToFile view directory.virtualAddress directory.size).isSome = true) .errBounds

/-- A section header of the file. -/
def readSection (m : Memory) (offset : Nat) : SectionHeader where
  virtualSize := word m (offset + 8) 4
  virtualAddress := word m (offset + 12) 4
  sizeOfRawData := word m (offset + 16) 4
  pointerToRawData := word m (offset + 20) 4
  characteristics := word m (offset + 36) 4

/-- A data directory of the file. -/
def readDirectory (m : Memory) (offset : Nat) : DataDirectory where
  virtualAddress := word m offset 4
  size := word m (offset + 4) 4

/-- The fields of a view that `pe_validate_image` takes from the headers; `sections` are read once the
section table has been checked. -/
def headerView (file : List UInt8) (fileHeader optional : Nat) (is64bit : Bool) : ImageView :=
  let m := bytesOf file
  let directoryOffset := if is64bit then 112 else 96
  let characteristics := word m (fileHeader + 18) 2
  let directories := (List.range (word m (optional + directoryOffset - 4) 4)).map fun index =>
    readDirectory m (optional + directoryOffset + index * 8)
  { file := file
    machine := word m fileHeader 2
    characteristics := characteristics
    sections := (List.range (word m (fileHeader + 2) 2)).map fun index =>
      readSection m (optional + word m (fileHeader + 16) 2 + index * 40)
    directories := directories
    imageSize := word m (optional + 56) 4
    headerSize := word m (optional + 60) 4
    entryRva := word m (optional + 16) 4
    sectionAlignment := word m (optional + 32) 4
    fileAlignment := word m (optional + 36) 4
    preferredBase := if is64bit then word m (optional + 24) 8 else word m (optional + 28) 4
    importDescriptorCount := 0
    importSymbolCount := 0
    subsystem := word m (optional + 68) 2
    is64bit := is64bit
    isDll := decide (characteristics &&& 0x2000 ≠ 0)
    hasTls := decide ((directories.getD dirTls ⟨0, 0⟩).virtualAddress ≠ 0)
    hasDelayImports := decide ((directories.getD dirDelayImport ⟨0, 0⟩).virtualAddress ≠ 0) }

/-- The header tests of `pe_validate_image`, up to the section table. -/
def readHeaders (file : List UInt8) : Except PeError ImageView := do
  let m := bytesOf file
  ensure (64 ≤ file.length) .errNotPe
  ensure (word m 0 2 = 0x5a4d) .errNotPe
  let peOffset := word m 60 4
  ensure (rangeOk peOffset 24 file.length) .errBounds
  ensure (word m peOffset 4 = 0x4550) .errNotPe
  let fileHeader := peOffset + 4
  let numberOfSections := word m (fileHeader + 2) 2
  ensure (numberOfSections ≠ 0 ∧ numberOfSections ≤ 96 ∧ word m (fileHeader + 18) 2 &&& 2 ≠ 0) .errPolicy
  let optional := fileHeader + 20
  let sizeOfOptionalHeader := word m (fileHeader + 16) 2
  ensure (2 ≤ sizeOfOptionalHeader ∧ rangeOk optional sizeOfOptionalHeader file.length) .errBounds
  let magic := word m optional 2
  ensure (magic = 0x20b ∨ magic = 0x10b) .errUnsupported
  let is64bit := decide (magic = 0x20b)
  let optionalBaseSize := if is64bit then 112 else 96
  ensure (word m fileHeader 2 = (if is64bit then 0x8664 else 0x14c) ∧
    optionalBaseSize ≤ sizeOfOptionalHeader) .errUnsupported
  let directoryCount := word m (optional + optionalBaseSize - 4) 4
  ensure (directoryCount ≤ 16 ∧ optionalBaseSize + directoryCount * 8 ≤ sizeOfOptionalHeader) .errBounds
  let view := headerView file fileHeader optional is64bit
  ensure (isPowerOfTwo view.fileAlignment ∧ 512 ≤ view.fileAlignment ∧ view.fileAlignment ≤ 65536 ∧
    isPowerOfTwo view.sectionAlignment ∧ view.fileAlignment ≤ view.sectionAlignment ∧
    view.imageSize ≠ 0 ∧ view.imageSize ≤ maxImageSize ∧
    view.headerSize ≠ 0 ∧ view.headerSize ≤ view.imageSize ∧ view.headerSize ≤ file.length ∧
    view.imageSize &&& (view.sectionAlignment - 1) = 0 ∧
    view.headerSize &&& (view.fileAlignment - 1) = 0) .errPolicy
  let sectionTable := optional + sizeOfOptionalHeader
  ensure (rangeOk sectionTable (numberOfSections * 40) file.length ∧
    sectionTable + numberOfSections * 40 ≤ view.headerSize) .errBounds
  pure view

/-- The test of `pe_validate_image` on the entry point. -/
def checkEntryPoint (view : ImageView) : Except PeError Unit :=
  if view.entryRva = 0 then ensure (view.isDll = true) .errPolicy
  else ensure (rangeOk view.entryRva 1 view.imageSize ∧
    rvaHasFlags view view.entryRva 1 memExecute = true) .errPolicy

/-- The tests of `pe_validate_image` on sections, entry point and data directories. -/
def checkLayout (view : ImageView) : Except PeError Unit :=
  match alignUp view.headerSize view.sectionAlignment with
  | none => .error .errPolicy
  | some alignedHeaders => do
      (List.range view.sections.length).forM (checkSection view alignedHeaders)
      checkEntryPoint view
      (List.range view.directories.length).forM (checkDirectory view)
      ensure (view.hasTls = false ∨
        (if view.is64bit then 40 else 24) ≤ (view.directory dirTls).size) .errBounds

/-- `pe_validate_image`. -/
def validateImage (file : List UInt8) : Except PeError ImageView := do
  let view ← readHeaders file
  checkLayout view
  validateExportDirectory view
  let (descriptors, symbols) ← validateImportDirectory view
  validateRelocationDirectory view
  pure { view with importDescriptorCount := descriptors, importSymbolCount := symbols }

end RinRuntime.PeLoader

/-
PeLoader.Bounds — the accesses of the loader to its destination.

The admission walks relocation blocks, descriptors and thunks in the file; a walk of the loader that reads
the mapped image meets the same ones, so all it accesses lies in the image. The loader itself reads an image
it is patching: it goes that way where no relocation and no import changes metadata that is read later, and
may leave the image where one does.
-/
import RinRuntime.PeLoader.Admitted

namespace RinRuntime.PeLoader
open Lib.Walk List

/-! ## §1. Mapping. -/
section
variable {σ : Type}

variable {resolver : Option (ImportResolver σ)} {delta : Int} {m : Memory} {view : ImageView}

variable (hview : Admitted view)

/-- An access within the image. -/
def InImage (view : ImageView) (c : Access) : Prop := c.offset + c.width ≤ view.imageSize

instance (c : Access) : Decidable (InImage view c) := by unfold InImage; infer_instance

include hview

theorem mapImage_plans : Plans m (InImage view) (mapImage view : Steps σ Unit) (fun _ => True) := by
  have hsections : ∀ l : List SectionHeader,
      (∀ sec ∈ l, sec.virtualAddress + sec.sizeOfRawData ≤ view.imageSize) →
      Plans m (InImage view) (copySections view.bytes l : Steps σ Unit) (fun _ => True) := by
    intro l hl
    induction l with
    | nil => exact Plans.pure trivial
    | cons sec rest ih =>
      refine Plans.bind (R := fun _ => True) ?_ fun _ _ => ih fun sec' h' => hl sec' (mem_cons_of_mem _ h')
      exact Plans.ite (fun _ => Plans.pure trivial) fun _ => Plans.fill (hl sec (mem_cons_self ..))
  have hheaders : 0 + view.headerSize ≤ view.imageSize := by
    have hle := hview.headers
    omega
  refine (Plans.fill (Nat.le_of_eq (Nat.zero_add _))).bind fun _ _ => (Plans.fill hheaders).bind fun _ _ => ?_
  refine hsections view.sections fun sec hsec => ?_
  obtain ⟨i, hi, rfl⟩ := mem_sections hsec
  exact (hview.sections i hi).2.1

variable {available offset rva index remaining rounds total symbols : Nat}

/-- A word of the mapped image that the admission has read from the file. -/
theorem Admitted.word_mapped {minimumSize k n : Nat}
    (h : rvaToFile view rva minimumSize = some (offset, available)) (hk : k + n ≤ available) :
    word (mapped view m) (rva + k) n = word view.bytes (offset + k) n := by
  obtain ⟨-, -, hbytes⟩ := hview.rvaToFile_mapped h
  induction n generalizing k with
  | zero => rfl
  | succ n ih => rw [word, word, hbytes m k (by omega), Nat.add_assoc rva, Nat.add_assoc offset, ih (by omega)]

/-! ## §2. Planned relocations. -/

omit hview in
/-- A relocation of an admitted entry stays in the image. -/
theorem relocate_plans {page entry : Nat} (hne : entry / 2 ^ 12 ≠ 0)
    (h : relocationEntryValid view page entry = true) : Plans m (InImage view)
      (relocate view.is64bit delta (entry / 2 ^ 12) (page + entry % 2 ^ 12) : Steps σ Unit)
      (fun _ => True) := by
  unfold relocationEntryValid at h
  rw [if_neg hne] at h
  split at h
  · cases h
  next width hwidth =>
  have hrange := rangeOk_iff.mp (of_decide_eq_true h).2
  unfold relocationWidth at hwidth
  unfold relocate addTo
  cases h64 : view.is64bit with
  | true =>
    rw [h64, if_pos rfl] at hwidth
    split at hwidth
    · next htype =>
      obtain rfl := Option.some.inj hwidth
      rw [if_pos ⟨rfl, htype⟩]
      exact Plans.patch hrange
    · cases hwidth
  | false =>
    rw [h64, if_neg (by decide)] at hwidth
    rw [if_neg (by simp)]
    split at hwidth
    · next htype =>
      obtain rfl := Option.some.inj hwidth
      rw [if_pos htype]
      exact Plans.patch hrange
    next htype =>
    rw [if_neg htype]
    split at hwidth
    · next htypes =>
      obtain rfl := Option.some.inj hwidth
      rcases htypes with h1 | h2
      · rw [if_pos h1]
        exact Plans.patch hrange
      · rw [if_neg (by omega), if_pos h2]
        exact Plans.patch hrange
    · cases hwidth

theorem relocEntries_plans {minimumSize cursor : Nat}
    (hfile : rvaToFile view rva minimumSize = some (offset, available))
    (hfits : cursor + baseRelocationSize + (index + remaining) * 2 ≤ available)
    (hval : ∀ k, index ≤ k → k < index + remaining → relocationEntryValid view
      (word view.bytes (offset + cursor) 4)
      (word view.bytes (offset + cursor + baseRelocationSize + k * 2) 2) = true) :
    Plans (mapped view m) (InImage view)
      (relocEntries view.is64bit delta (rva + cursor) remaining index : Steps σ Unit) (fun _ => True) := by
  obtain ⟨-, himage, -⟩ := hview.rvaToFile_mapped hfile
  induction remaining generalizing index with
  | zero => exact Plans.pure trivial
  | succ remaining ih =>
    have hsize : baseRelocationSize = 8 := rfl
    have hrest := @ih (index + 1) (by omega) fun k hk hlt => hval k (by omega) (by omega)
    refine Plans.bind (R := fun _ => True) ?_ fun _ _ => hrest
    have hent := hval index (Nat.le_refl _) (by omega)
    have hread : InImage view ⟨.read, rva + cursor + baseRelocationSize + index * 2, 2⟩ := by
      show rva + cursor + 8 + index * 2 + 2 ≤ view.imageSize
      omega
    refine (Plans.fetch hread).bind fun entry heq => ?_
    have hword : entry = word view.bytes (offset + cursor + baseRelocationSize + index * 2) 2 := by
      have hmapped := hview.word_mapped (m := m) (k := cursor + baseRelocationSize + index * 2)
        (n := 2) hfile (by omega)
      rw [heq, Nat.add_assoc rva, Nat.add_assoc rva, hmapped, Nat.add_assoc offset, Nat.add_assoc offset]
    refine Plans.ite (fun _ => Plans.pure trivial) fun hne => ?_
    have hpage : InImage view ⟨.read, rva + cursor, 4⟩ := by
      show rva + cursor + 4 ≤ view.imageSize
      omega
    refine (Plans.fetch hpage).bind fun page hpageEq => ?_
    have hpageWord : page = word view.bytes (offset + cursor) 4 := by
      rw [hpageEq]
      exact hview.word_mapped hfile (by omega)
    rw [hpageWord]
    rw [hword] at hne ⊢
    exact relocate_plans hne hent

theorem relocBlocks_plans {size : Nat}
    (hfile : rvaToFile view rva size = some (offset, available)) {rounds' cursor : Nat}
    (h : checkBlocks view offset size rounds' cursor = .ok ()) : Plans (mapped view m) (InImage view)
      (relocBlocks view.is64bit delta (rva + size) rounds (rva + cursor) : Steps σ Unit)
      (fun _ => True) := by
  obtain ⟨hsize, himage, -⟩ := hview.rvaToFile_mapped hfile
  induction rounds generalizing rounds' cursor with
  | zero => exact Plans.pure trivial
  | succ rounds ih =>
    refine Plans.ite (fun hlt => ?_) fun _ => Plans.pure trivial
    cases rounds' with
    | zero => cases h
    | succ rounds' =>
      unfold checkBlocks at h
      rw [if_pos (by omega)] at h
      simp only [check_eq_ok, ensure_ok] at h
      obtain ⟨hheader, hblock, hents, hrest⟩ := h
      set blockSize := word view.bytes (offset + cursor + 4) 4 with hblockSize
      have height : baseRelocationSize = 8 := rfl
      have hread : InImage view ⟨.read, rva + cursor + 4, 4⟩ := by
        show rva + cursor + 4 + 4 ≤ view.imageSize
        omega
      have hword : word (mapped view m) (rva + cursor + 4) 4 = blockSize := by
        rw [Nat.add_assoc rva, hview.word_mapped hfile (by omega), ← Nat.add_assoc offset]
      refine (Plans.fetch hread).bind fun first hfst => ?_
      rw [hword] at hfst
      subst hfst
      refine Plans.ite (fun _ => Plans.pure trivial) fun hlarge => ?_
      have hloop : Plans (mapped view m) (InImage view) (relocEntries view.is64bit delta (rva + cursor)
          ((blockSize - baseRelocationSize) / 2) 0 : Steps σ Unit) (fun _ => True) := by
        refine relocEntries_plans hview hfile (by omega) fun k _ hk => ?_
        exact all_eq_true.mp hents k (mem_range.mpr (by omega))
      refine hloop.bind fun _ _ => (Plans.fetch hread).bind fun advance hadvance => ?_
      rw [hword] at hadvance
      rw [hadvance, Nat.add_assoc]
      exact ih hrest

/-- **Planned relocations** stay in the image. -/
theorem applyRelocations_plans (h : validateRelocationDirectory view = .ok ()) :
    Plans (mapped view m) (InImage view) (applyRelocations view delta : Steps σ Bool) (fun _ => True) := by
  refine Plans.ite (fun _ => Plans.pure trivial) fun _ => Plans.ite (fun hpres => ?_)
    fun _ => Plans.pure trivial
  unfold validateRelocationDirectory at h
  rw [if_neg hpres.1, check_eq_ok] at h
  obtain ⟨-, h⟩ := h
  split at h
  · cases h
  next offset available hfile =>
  exact Plans.bind (relocBlocks_plans hview hfile h) fun _ _ => Plans.pure trivial

/-! ## §3. Planned imports. -/

omit hview in
/-- The thunk loop of the admission counts up, and never past the limit. -/
theorem checkThunks_total {firstThunk thunkBytes total' : Nat}
    (h : checkThunks view firstThunk thunkBytes remaining index total = .ok total') :
    total ≤ total' ∧ (total ≤ maxImportSymbols → total' ≤ maxImportSymbols) := by
  induction remaining generalizing index total with
  | zero => cases h
  | succ remaining ih =>
    unfold checkThunks at h
    dsimp only at h
    split at h
    · obtain rfl := Except.ok.inj h
      exact ⟨Nat.le_refl _, id⟩
    simp only [check_eq_ok, ensure_ok] at h
    have hrest := ih h.2.2.2
    have hlimit := h.1.1
    omega

theorem bindThunks_plans {dllName firstThunk : Nat} {intRva total' : Nat}
    (hfile : rvaToFile view intRva view.thunkWidth = some (offset, available))
    (h : checkThunks view firstThunk offset remaining index total = .ok total')
    (hfits : index + remaining ≤ available / view.thunkWidth) :
    Plans (mapped view m) (InImage view) (bindThunks view.is64bit resolver dllName rounds
        (firstThunk + index * view.thunkWidth) (intRva + index * view.thunkWidth))
      (fun finished => total' < total + rounds → finished = true) := by
  obtain ⟨-, himage, -⟩ := hview.rvaToFile_mapped hfile
  induction rounds generalizing remaining index total with
  | zero =>
    have htotal := (checkThunks_total h).1
    refine Plans.pure fun hlt => ?_
    omega
  | succ rounds ih =>
    cases remaining with
    | zero => cases h
    | succ remaining =>
      have hwidth : (if view.is64bit then 8 else 4) = view.thunkWidth := rfl
      have hin : (index + 1) * view.thunkWidth ≤ available := by
        have hle : (index + 1) * view.thunkWidth ≤ available / view.thunkWidth * view.thunkWidth :=
          Nat.mul_le_mul_right _ (by omega)
        exact Nat.le_trans hle (Nat.div_mul_le_self _ _)
      rw [Nat.succ_mul] at hin
      have hread : InImage view ⟨.read, intRva + index * view.thunkWidth, view.thunkWidth⟩ := by
        show intRva + index * view.thunkWidth + view.thunkWidth ≤ view.imageSize
        omega
      unfold bindThunks
      rw [hwidth]
      refine (Plans.fetch hread).bind fun thunk hthunk => ?_
      rw [hview.word_mapped hfile hin] at hthunk
      unfold checkThunks at h
      dsimp only at h
      rw [← hthunk] at h
      refine Plans.ite (fun _ => Plans.pure fun _ => rfl) fun hne => ?_
      rw [if_neg hne] at h
      simp only [check_eq_ok, ensure_ok] at h
      obtain ⟨-, hslot, -, hrest⟩ := h
      have hstore : InImage view ⟨.stored, firstThunk + index * view.thunkWidth, view.thunkWidth⟩ :=
        rangeOk_iff.mp hslot.1
      refine (Plans.patch hstore).bind fun _ _ => ?_
      have hloop := ih hrest (by omega)
      rw [Nat.add_mul, Nat.one_mul, ← Nat.add_assoc, ← Nat.add_assoc] at hloop
      exact hloop.mono fun finished hfin hlt => hfin (by omega)

omit hview in
/-- The descriptor loop of the admission counts up. -/
theorem checkDescriptors_count {count : Nat}
    (h : checkDescriptors view offset remaining index total = .ok (count, symbols)) : index ≤ count := by
  induction remaining generalizing index total with
  | zero => cases h
  | succ remaining ih =>
    unfold checkDescriptors at h
    dsimp only at h
    split at h
    · obtain ⟨rfl, -⟩ := Prod.mk.inj (Except.ok.inj h)
      exact Nat.le_refl _
    rw [check_eq_ok] at h
    obtain ⟨-, h⟩ := h
    split at h
    · cases h
    obtain ⟨total', -, h⟩ := bind_eq_ok.mp h
    have hrest := ih h
    omega

theorem bindDescriptors_plans {size count : Nat}
    (hfile : rvaToFile view rva size = some (offset, available))
    (h : checkDescriptors view offset remaining index total = .ok (count, symbols))
    (hfits : (index + remaining) * importDescriptorSize ≤ size) (htotal : total ≤ maxImportSymbols)
    (hrounds : maxImportSymbols < rounds) :
    Plans (mapped view m) (InImage view) (bindDescriptors view.is64bit resolver rounds (count - index)
        (rva + index * importDescriptorSize)) (fun finished => finished = true) := by
  obtain ⟨hsize, himage, -⟩ := hview.rvaToFile_mapped hfile
  induction remaining generalizing index total with
  | zero => cases h
  | succ remaining ih =>
    have hin : index * importDescriptorSize + 20 ≤ size := by
      unfold importDescriptorSize at hfits ⊢
      omega
    unfold checkDescriptors at h
    dsimp only at h
    split at h
    · obtain ⟨rfl, -⟩ := Prod.mk.inj (Except.ok.inj h)
      rw [Nat.sub_self]
      exact Plans.pure rfl
    rw [check_eq_ok] at h
    obtain ⟨-, h⟩ := h
    split at h
    · cases h
    next thunkBytes thunkAvailable hthunks =>
    obtain ⟨total', hloop, h⟩ := bind_eq_ok.mp h
    have hcnt := checkDescriptors_count h
    have hremaining : count - index = (count - (index + 1)) + 1 := by omega
    -- the fields of the descriptor are those the admission has read
    have hread : ∀ k, k + 4 ≤ 20 → InImage view ⟨.read, rva + index * importDescriptorSize + k, 4⟩ := by
      intro k hk
      show rva + index * importDescriptorSize + k + 4 ≤ view.imageSize
      omega
    have hfield : ∀ k, k + 4 ≤ 20 → word (mapped view m) (rva + index * importDescriptorSize + k) 4
          = word view.bytes (offset + index * importDescriptorSize + k) 4 := by
      intro k hk
      rw [Nat.add_assoc rva, hview.word_mapped hfile (by omega), Nat.add_assoc offset]
    rw [hremaining]
    refine (Plans.fetch (hread 12 (by omega))).bind fun name hname => ?_
    refine (Plans.fetch (hread 16 (by omega))).bind fun iatRva hiat => ?_
    refine (Plans.fetch (hread 0 (by omega))).bind fun original horiginal => ?_
    rw [hfield _ (by omega)] at hiat horiginal
    have hint : (if original = 0 then iatRva else original)
        = (readDescriptor view.bytes (offset + index * importDescriptorSize)).thunkRva := by
      unfold ImportDescriptor.thunkRva readDescriptor
      rw [hiat, horiginal, Nat.add_zero]
      by_cases hzero : word view.bytes (offset + index * importDescriptorSize) 4 = 0
      · rw [if_pos hzero, if_neg (by simp [hzero])]
      · rw [if_neg hzero, if_pos hzero]
    have hbind : Plans (mapped view m) (InImage view) (bindThunks view.is64bit resolver name rounds
        (_ + 0 * view.thunkWidth) (_ + 0 * view.thunkWidth)) _ :=
      bindThunks_plans hview hthunks hloop (by omega)
    rw [Nat.zero_mul, Nat.add_zero, Nat.add_zero] at hbind
    rw [hint, hiat]
    refine Plans.bind hbind fun finished hfin => ?_
    have htotal' := (checkThunks_total hloop).2 htotal
    have hdone : finished = true := hfin (by omega)
    rw [if_pos hdone]
    have hrest := ih h (by rw [Nat.add_assoc, Nat.add_comm 1]; exact hfits) htotal'
    rw [Nat.add_mul, Nat.one_mul, ← Nat.add_assoc] at hrest
    exact hrest

/-- **Planned imports** stay in the image, and no thunk loop is cut off. -/
theorem resolveImports_plans {descriptors : Nat}
    (h : validateImportDirectory view = .ok (descriptors, symbols)) (hrounds : maxImportSymbols < rounds) :
    Plans (mapped view m) (InImage view) (resolveImports
        { view with importDescriptorCount := descriptors, importSymbolCount := symbols } resolver rounds)
      (fun finished => finished = true) := by
  refine Plans.ite (fun hpres => ?_) fun _ => Plans.pure rfl
  unfold validateImportDirectory at h
  have hrva : (view.directory dirImport).virtualAddress ≠ 0 := hpres.1
  rw [if_neg hrva] at h
  split at h
  · cases h
  next offset available hfile =>
  rw [check_eq_ok] at h
  have hloop : Plans (mapped view m) (InImage view) (bindDescriptors view.is64bit resolver rounds
      (descriptors - 0) ((view.directory dirImport).virtualAddress + 0 * importDescriptorSize)) _ :=
    bindDescriptors_plans hview hfile h.2 (by rw [Nat.zero_add]; exact Nat.div_mul_le_self _ _)
      (Nat.zero_le _) hrounds
  rw [Nat.zero_mul] at hloop
  exact hloop

end

/-! ## §4. The actual walk. -/
section
variable {σ : Type} {file : List UInt8} {view : ImageView} {virtualBase rounds : Nat}
  {resolver : Option (ImportResolver σ)}

/-- **The plan of an admitted image** stays in the image and is not cut off, and the loader keeps to it
where it changes nothing that is read later. -/
theorem walkImage_plans (h : validateImage file = .ok view) (hrounds : maxImportSymbols < rounds) (m : Memory) :
    Plans (mapped view m) (InImage view) (walkImage view virtualBase resolver rounds)
      (fun result => result ≠ .ok false) := by
  obtain ⟨base, descriptors, symbols, hbase, himports, hreloc, rfl⟩ := validateImage_ok h
  have hmap : Plans (mapped base m) (InImage base) (mapImage base : Steps (Outside σ) Unit) (fun _ => True) :=
    mapImage_plans hbase
  refine Plans.bind (x := mapImage base) hmap fun _ _ => ?_
  refine Plans.ite (fun _ => Plans.pure (by simp)) fun _ => ?_
  refine (applyRelocations_plans hbase hreloc).bind fun relocated _ => ?_
  refine Plans.ite (fun _ => Plans.pure (by simp)) fun _ => ?_
  refine (resolveImports_plans hbase himports hrounds).bind fun finished hfin => ?_
  exact Plans.pure (by simp [hfin])

/-- What is loaded is what was admitted. -/
theorem admission_view {loadFlags : Nat} {hasResolver : Bool} {view' : ImageView}
    (h : admission file virtualBase loadFlags hasResolver = .ok view') (hval : validateImage file = .ok view) :
    view' = view := by
  unfold admission at h
  rw [check_eq_ok, check_eq_ok] at h
  obtain ⟨first, hfst, hrest⟩ := bind_eq_ok.mp h.2.2
  rw [check_eq_ok, check_eq_ok, check_eq_ok] at hrest
  have hlast : first = view' := Except.ok.inj hrest.2.2.2
  rw [hval] at hfst
  rw [← hlast]
  exact (Except.ok.inj hfst).symm

/-- The relocations and imports of the loader change nothing that it reads later: what a walk over the image
as it was mapped has read was still there. -/
def Undisturbed (view : ImageView) (virtualBase : Nat) (resolver : Option (ImportResolver σ)) (state : σ)
    (rounds : Nat) (m : Memory) : Prop :=
  (walkImage view virtualBase resolver rounds (.planned (mapped view m)) ⟨m, ⟨state, 0⟩, [], true⟩).2.intact = true

/-- **Loading keeps to the image.** A call that is refused touches nothing. Where no relocation and no
resolved import of an admitted file changes relocation blocks, descriptors or thunks that are read later,
the loader returns and every byte of the destination it touches lies in the image. -/
theorem load_in_image (loadFlags : Nat) (state : σ) (m : Memory) (h : validateImage file = .ok view)
    (hrounds : maxImportSymbols < rounds)
    (hundisturbed : admission file virtualBase loadFlags resolver.isSome = .ok view →
      Undisturbed view virtualBase resolver state rounds m) :
    (load64ExAt file virtualBase loadFlags resolver state rounds m).1 ≠ none ∧
      ∀ c ∈ (load64ExAt file virtualBase loadFlags resolver state rounds m).2.trace,
        c.offset + c.width ≤ view.imageSize := by
  unfold load64ExAt
  cases hadmission : admission file virtualBase loadFlags resolver.isSome with
  | error e => exact ⟨by simp, by simp⟩
  | ok view' =>
    obtain rfl := admission_view hadmission h
    obtain ⟨hres, hinside, hactual⟩ :=
      @walkImage_plans σ file view' virtualBase rounds resolver h hrounds m ⟨m, ⟨state, 0⟩, [], true⟩ (by simp)
    rw [← (hactual (hundisturbed hadmission)).2] at hres hinside
    dsimp only
    generalize walkImage view' virtualBase resolver rounds .actual ⟨m, ⟨state, 0⟩, [], true⟩ = walk
      at hres hinside
    obtain ⟨result, run⟩ := walk
    match result with
    | .error e => exact ⟨by simp, hinside⟩
    | .ok false => exact absurd rfl hres
    | .ok true =>
      dsimp only
      split
      · exact ⟨by simp, hinside⟩
      · exact ⟨by simp, hinside⟩

/-- A file of `size` bytes with the given words (offset, width and value) in it. -/
def fileOf (size : Nat) (fields : List (Nat × Nat × Nat)) : List UInt8 :=
  (List.range size).map (fields.foldl (fun m field => poke m field.1 field.2.1 field.2.2) fun _ => 0)

/-- A PE32 library of two relocation blocks, with one relocation each: that of the first block is at
`target`, that of the second at `0x300`. -/
def twoBlocks (target : Nat) : List UInt8 := fileOf 1024 [
  (0, 2, 0x5a4d), (60, 4, 64), (64, 4, 0x4550),
  -- file header: one section, executable library
  (68, 2, 0x14c), (70, 2, 1), (84, 2, 144), (86, 2, 0x2002),
  -- optional header: base, alignments, sizes and six directories
  (88, 2, 0x10b), (116, 4, 0x400000), (120, 4, 512), (124, 4, 512), (144, 4, 1024), (148, 4, 512),
  (180, 4, 6), (224, 4, 512), (228, 4, 24),
  -- the section
  (240, 4, 512), (244, 4, 512), (248, 4, 512), (252, 4, 512), (268, 4, 0xc0000000),
  -- the relocation blocks
  (512, 4, 512), (516, 4, 12), (520, 2, 0x3000 + (target - 512)),
  (524, 4, 512), (528, 4, 12), (532, 2, 0x3100)]

/-- A relocation behind the blocks and the one of the second: they change no metadata. -/
theorem load_in_image_relocated : ∃ view, validateImage (twoBlocks 0x280) = .ok view ∧
    (load64ExAt (twoBlocks 0x280) 0x10400000 0 (none : Option (ImportResolver Unit)) () 65537
      fun _ => 0).1 ≠ none ∧
    ∀ c ∈ (load64ExAt (twoBlocks 0x280) 0x10400000 0 (none : Option (ImportResolver Unit)) () 65537
      fun _ => 0).2.trace, c.offset + c.width ≤ view.imageSize := by
  have hrun : (validateImage (twoBlocks 0x280)).toOption.any (fun view =>
      (walkImage view 0x10400000 (none : Option (ImportResolver Unit)) 65537
        (.planned (mapped view fun _ => 0)) ⟨fun _ => 0, ⟨(), 0⟩, [], true⟩).2.intact) = true := by decide +kernel
  cases hview : validateImage (twoBlocks 0x280) with
  | error e =>
    rw [hview] at hrun
    cases hrun
  | ok view =>
    rw [hview] at hrun
    exact ⟨view, rfl, load_in_image 0 () (fun _ => 0) hview (by decide) fun _ => hrun⟩

/-- **Loading leaves the image.** The relocation of the first block moves the page of the second, which
the admission has seen where it was; its relocation is then made `0x10000000` bytes further on. -/
theorem load_leaves_image : ∃ view, validateImage (twoBlocks 524) = .ok view ∧ view.imageSize = 1024 ∧
    ⟨.stored, 0x10000300, 4⟩ ∈ (load64ExAt (twoBlocks 524) 0x10400000 0
      (none : Option (ImportResolver Unit)) () 65537 fun _ => 0).2.trace := by
  have hrun : (validateImage (twoBlocks 524)).toOption.any (fun view =>
      decide (view.imageSize = 1024)) = true := by decide +kernel
  cases hview : validateImage (twoBlocks 524) with
  | error e =>
    rw [hview] at hrun
    cases hrun
  | ok view =>
    rw [hview] at hrun
    exact ⟨view, rfl, of_decide_eq_true hrun, by decide +kernel⟩

end
end RinRuntime.PeLoader

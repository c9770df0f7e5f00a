/-
PeLoader.Admitted — what the admission knows of an image.

`Admitted` collects what `validateImage` has checked as far as mapping the image depends on it: headers
and sections lie in the image and apart from one another. An RVA that can be translated to the file
lies in the image, and the mapped image holds the bytes of the file there (`rvaToFile_mapped`).
-/
import Mathlib.Data.List.GetD
import RinRuntime.PeLoader.Load

namespace RinRuntime.PeLoader
open Lib.Walk List

/-! ## §1. Inverting checks. -/

theorem ensure_ok {c : Prop} [Decidable c] {e : PeError} {u : Unit} : ensure c e = .ok u ↔ c := by
  unfold ensure
  split
  · next h => exact ⟨fun _ => h, fun _ => rfl⟩
  · next h => exact ⟨(fun hc => by cases hc), fun hc => absurd hc h⟩

theorem bind_eq_ok {ε α β : Type} {x : Except ε α} {f : α → Except ε β} {b : β} :
    (x >>= f) = .ok b ↔ ∃ a, x = .ok a ∧ f a = .ok b := by
  cases x with
  | error e =>
    constructor
    · intro h
      cases h
    · rintro ⟨a, h, -⟩
      cases h
  | ok a =>
    constructor
    · intro h
      exact ⟨a, rfl, h⟩
    rintro ⟨a', h, hf⟩
    cases h
    exact hf

theorem check_eq_ok {ε β : Type} {x : Except ε Unit} {f : Unit → Except ε β} {b : β} :
    (x >>= f) = .ok b ↔ x = .ok () ∧ f () = .ok b := by
  rw [bind_eq_ok]
  exact ⟨fun ⟨_, hx, hf⟩ => ⟨hx, hf⟩, fun ⟨hx, hf⟩ => ⟨(), hx, hf⟩⟩

theorem forM_eq_ok {ε α : Type} {f : α → Except ε Unit} : ∀ {l : List α},
    l.forM f = .ok () ↔ ∀ a ∈ l, f a = .ok ()
  | [] => ⟨(fun _ a ha => by cases ha), fun _ => rfl⟩
  | a :: rest => by
    have hcons : (a :: rest).forM f = (f a >>= fun _ => rest.forM f) := rfl
    rw [hcons, check_eq_ok]
    constructor
    · rintro ⟨hfst, hrest⟩ b hb
      rcases mem_cons.mp hb with rfl | hb
      · exact hfst
      · exact forM_eq_ok.mp hrest b hb
    · intro h
      exact ⟨h a (mem_cons_self ..), forM_eq_ok.mpr fun b hb => h b (mem_cons_of_mem _ hb)⟩

theorem rangeOk_iff {offset length limit : Nat} :
    rangeOk offset length limit ↔ offset + length ≤ limit := by
  unfold rangeOk
  omega

theorem le_alignUp {value alignment aligned : Nat} (h : alignUp value alignment = some aligned) :
    value ≤ aligned := by
  unfold alignUp at h
  split at h
  · cases h
  split at h
  · cases h
  next hfits =>
  have haligned := Option.some.inj h
  set mask := alignment - 1
  set x := BitVec.ofNat 32 (value + mask) with hx
  set m := BitVec.ofNat 32 mask with hm
  by_cases hzero : value = 0
  · omega
  have hfits : value + mask < 2 ^ 32 := by
    unfold u32Max at hfits
    omega
  -- `x` is the sum of its bits below the mask and of those above it
  have hsplit : (x &&& m) + (x &&& ~~~ m) = x := by
    rw [BitVec.add_eq_or_of_and_eq_zero]
    · ext i hi
      simp only [BitVec.getElem_or, BitVec.getElem_and, BitVec.getElem_not]
      cases x[i] <;> cases m[i] <;> rfl
    ext i hi
    simp only [BitVec.getElem_and, BitVec.getElem_not, BitVec.getElem_zero]
    cases x[i] <;> cases m[i] <;> rfl
  have hxNat : x.toNat = value + mask := by
    rw [hx, BitVec.toNat_ofNat, Nat.mod_eq_of_lt hfits]
  have hmNat : m.toNat = mask := by
    rw [hm, BitVec.toNat_ofNat, Nat.mod_eq_of_lt (by omega)]
  have hlow : (x &&& m).toNat ≤ mask := by
    rw [BitVec.toNat_and, ← hmNat]
    exact Nat.and_le_right
  have hsum : x.toNat ≤ (x &&& m).toNat + (x &&& ~~~ m).toNat := by
    have hadd := congrArg BitVec.toNat hsplit
    rw [BitVec.toNat_add] at hadd
    rw [← hadd]
    exact Nat.mod_le _ _
  omega

/-! ## §2. Admitted images. -/

/-- **What the admission has checked** of headers and sections. -/
structure Admitted (view : ImageView) : Prop where
  headers : view.headerSize ≤ view.imageSize
  file : view.headerSize ≤ view.file.length
  limit : view.imageSize ≤ maxImageSize
  sections : ∀ i < view.sections.length, view.headerSize ≤ (view.sectionAt i).virtualAddress ∧
    (view.sectionAt i).virtualAddress + (view.sectionAt i).sizeOfRawData ≤ view.imageSize ∧
    ((view.sectionAt i).sizeOfRawData ≠ 0 → (view.sectionAt i).pointerToRawData ≠ 0)
  apart : ∀ i < view.sections.length, ∀ j < i,
    (view.sectionAt j).virtualAddress + (view.sectionAt j).sizeOfRawData
      ≤ (view.sectionAt i).virtualAddress ∨
    (view.sectionAt i).virtualAddress + (view.sectionAt i).sizeOfRawData
      ≤ (view.sectionAt j).virtualAddress

variable {view : ImageView}

theorem mem_sections {s : SectionHeader} (h : s ∈ view.sections) :
    ∃ i, i < view.sections.length ∧ s = view.sectionAt i := by
  obtain ⟨i, hi, rfl⟩ := mem_iff_getElem.mp h
  exact ⟨i, hi, (getD_eq_getElem _ _ hi).symm⟩

theorem readHeaders_ok {file : List UInt8} (h : readHeaders file = .ok view) :
    view.headerSize ≠ 0 ∧ view.headerSize ≤ view.imageSize ∧ view.headerSize ≤ view.file.length ∧
      view.imageSize ≤ maxImageSize := by
  unfold readHeaders at h
  simp only [check_eq_ok, ensure_ok] at h
  obtain ⟨-, -, -, -, -, -, -, -, -, hpol, -, hview⟩ := h
  cases hview
  exact ⟨hpol.2.2.2.2.2.2.2.1, hpol.2.2.2.2.2.2.2.2.1, hpol.2.2.2.2.2.2.2.2.2.1,
    hpol.2.2.2.2.2.2.1⟩

theorem checkSection_ok {alignedHeaders i : Nat} (h : checkSection view alignedHeaders i = .ok ()) :
    ∃ alignedSpan, alignUp (view.sectionAt i).span view.sectionAlignment = some alignedSpan ∧
      alignedHeaders ≤ (view.sectionAt i).virtualAddress ∧
      (view.sectionAt i).virtualAddress + alignedSpan ≤ view.imageSize ∧
      ((view.sectionAt i).sizeOfRawData ≠ 0 → view.headerSize ≤ (view.sectionAt i).pointerToRawData) ∧
      ∀ j < i, ∃ otherAligned, alignUp (view.sectionAt j).span view.sectionAlignment = some otherAligned ∧
        ¬ ((view.sectionAt i).virtualAddress < ((view.sectionAt j).virtualAddress + otherAligned) % 2 ^ 32 ∧
          (view.sectionAt j).virtualAddress
            < ((view.sectionAt i).virtualAddress + alignedSpan) % 2 ^ 32) := by
  unfold checkSection at h
  dsimp only at h
  split at h
  · cases h
  next alignedSpan hspan =>
  simp only [check_eq_ok, ensure_ok] at h
  obtain ⟨hpol, hraw, hothers⟩ := h
  refine ⟨alignedSpan, hspan, hpol.2.1, rangeOk_iff.mp hpol.2.2.2.1, ?_, ?_⟩
  · intro hne
    unfold checkRawData at hraw
    rw [if_pos hne, ensure_ok] at hraw
    exact hraw.1
  intro j hj
  have hoth := forM_eq_ok.mp hothers j (mem_range.mpr hj)
  unfold checkOverlap at hoth
  split at hoth
  · cases hoth
  next otherAligned hotherSpan =>
  simp only [check_eq_ok, ensure_ok] at hoth
  exact ⟨otherAligned, hotherSpan, hoth.1⟩

theorem checkLayout_ok (hheaders : view.headerSize ≠ 0 ∧ view.headerSize ≤ view.imageSize ∧
      view.headerSize ≤ view.file.length ∧ view.imageSize ≤ maxImageSize)
    (h : checkLayout view = .ok ()) : Admitted view := by
  obtain ⟨hnonzero, himage, hfile, hlimit⟩ := hheaders
  unfold checkLayout at h
  split at h
  · cases h
  next alignedHeaders haligned =>
  simp only [check_eq_ok, ensure_ok] at h
  have hsections : ∀ i < view.sections.length, checkSection view alignedHeaders i = .ok () := by
    intro i hi
    exact forM_eq_ok.mp h.1 i (mem_range.mpr hi)
  have hheader := le_alignUp haligned
  have hspan : ∀ i, (view.sectionAt i).sizeOfRawData ≤ (view.sectionAt i).span :=
    fun i => Nat.le_max_right _ _
  refine ⟨himage, hfile, hlimit, fun i hi => ?_, fun i hi j hj => ?_⟩
  · obtain ⟨alignedSpan, haligned, hstart, hfits, hraw, -⟩ := checkSection_ok (hsections i hi)
    have hle := le_alignUp haligned
    have hle' := hspan i
    refine ⟨by omega, by omega, fun hne => ?_⟩
    have hptr := hraw hne
    omega
  obtain ⟨alignedSpan, haligned, -, hfits, -, hothers⟩ := checkSection_ok (hsections i hi)
  obtain ⟨otherAligned, hoth, happart⟩ := hothers j hj
  obtain ⟨otherAligned', hoth', -, hfits', -, -⟩ := checkSection_ok (hsections j (by omega))
  have heq : otherAligned' = otherAligned := Option.some.inj (hoth'.symm.trans hoth)
  have hle := le_alignUp haligned
  have hle' := le_alignUp hoth
  have hraw := hspan i
  have hraw' := hspan j
  -- neither sum passes 2³², since both sections end within the image
  unfold maxImageSize at hlimit
  rw [heq] at hfits'
  rw [Nat.mod_eq_of_lt (by omega), Nat.mod_eq_of_lt (by omega)] at happart
  omega

/-- The view of an admitted file, with the counts of its imports. -/
theorem validateImage_ok {file : List UInt8} (h : validateImage file = .ok view) :
    ∃ base descriptors symbols, Admitted base ∧ validateImportDirectory base = .ok (descriptors, symbols) ∧
      validateRelocationDirectory base = .ok () ∧
      view = { base with importDescriptorCount := descriptors, importSymbolCount := symbols } := by
  obtain ⟨base, hbase, h⟩ := bind_eq_ok.mp h
  simp only [check_eq_ok] at h
  obtain ⟨hlay, -, himports⟩ := h
  obtain ⟨⟨descriptors, symbols⟩, hcounts, h⟩ := bind_eq_ok.mp himports
  rw [check_eq_ok] at h
  exact ⟨base, descriptors, symbols, checkLayout_ok (readHeaders_ok hbase) hlay, hcounts, h.1,
    (Except.ok.inj h.2).symm⟩

/-! ## §3. The mapped image. -/

/-- The memory after the sections of a list have been copied. -/
def withSections (bytes : Memory) : List SectionHeader → Memory → Memory
  | [], m => m
  | s :: rest, m => withSections bytes rest
      (if s.sizeOfRawData = 0 ∨ s.pointerToRawData = 0 then m
        else copy m s.virtualAddress s.sizeOfRawData fun i => bytes (s.pointerToRawData + i))

/-- The destination once the image has been copied. -/
def mapped (view : ImageView) (m : Memory) : Memory :=
  withSections view.bytes view.sections
    (copy (copy m 0 view.imageSize fun _ => 0) 0 view.headerSize view.bytes)

/-- A byte of the destination that belongs to the contents of a section. -/
def SectionHeader.Holds (s : SectionHeader) (x : Nat) : Prop :=
  s.virtualAddress ≤ x ∧ x < s.virtualAddress + s.sizeOfRawData

theorem withSections_of_not_holds {bytes : Memory} {x : Nat} : ∀ {l : List SectionHeader} {m : Memory},
    (∀ s ∈ l, ¬ s.Holds x) → withSections bytes l m x = m x
  | [], _, _ => rfl
  | s :: rest, m, h => by
    rw [withSections, withSections_of_not_holds fun s' hs' => h s' (mem_cons_of_mem _ hs')]
    split
    · rfl
    · exact copy_of_not_mem (h s (mem_cons_self ..))

theorem withSections_of_holds {bytes : Memory} {x : Nat} {s : SectionHeader} (hs : s.Holds x)
    (hptr : s.pointerToRawData ≠ 0) {before after : List SectionHeader} {m : Memory}
    (h : ∀ s' ∈ after, ¬ s'.Holds x) : withSections bytes (before ++ s :: after) m x
      = bytes (s.pointerToRawData + (x - s.virtualAddress)) := by
  have hraw : ¬ (s.sizeOfRawData = 0 ∨ s.pointerToRawData = 0) := by
    unfold SectionHeader.Holds at hs
    omega
  induction before generalizing m with
  | nil =>
    show withSections bytes after _ x = _
    rw [withSections_of_not_holds h, if_neg hraw]
    exact copy_of_mem hs
  | cons s' before ih => exact ih

variable (hview : Admitted view)
include hview

theorem Admitted.not_holds {i j x : Nat} (hi : i < view.sections.length)
    (hj : j < view.sections.length) (hne : j ≠ i) (hx : (view.sectionAt i).Holds x) :
    ¬ (view.sectionAt j).Holds x := by
  unfold SectionHeader.Holds at hx ⊢
  rcases Nat.lt_or_gt_of_ne hne with hlt | hgt
  · have happart := hview.apart i hi j hlt
    omega
  · have happart := hview.apart j hj i hgt
    omega

/-- A byte of a section holds the byte of the file it was copied from. -/
theorem Admitted.mapped_section {i x : Nat} (hi : i < view.sections.length)
    (hx : (view.sectionAt i).Holds x) (m : Memory) : mapped view m x
      = view.bytes ((view.sectionAt i).pointerToRawData + (x - (view.sectionAt i).virtualAddress)) := by
  have hptr : (view.sectionAt i).pointerToRawData ≠ 0 := by
    apply (hview.sections i hi).2.2
    unfold SectionHeader.Holds at hx
    omega
  have hget : view.sectionAt i = view.sections.get ⟨i, hi⟩ := getD_eq_getElem _ _ hi
  have hsplit : view.sections = view.sections.take i ++ view.sectionAt i :: view.sections.drop (i + 1) := by
    rw [hget, get_eq_getElem, getElem_cons_drop, take_append_drop]
  unfold mapped
  rw [hsplit]
  apply withSections_of_holds hx hptr
  intro s hs
  obtain ⟨k, hk, rfl⟩ := mem_drop_iff_getElem.mp hs
  rw [Nat.add_comm] at hk
  have hnot := hview.not_holds hi hk (by omega) hx
  rwa [ImageView.sectionAt, getD_eq_getElem _ _ hk] at hnot

/-- A byte of the headers holds the byte of the file. -/
theorem Admitted.mapped_header {x : Nat} (hx : x < view.headerSize) (m : Memory) :
    mapped view m x = view.bytes x := by
  unfold mapped
  rw [withSections_of_not_holds, copy_of_mem ⟨Nat.zero_le _, by omega⟩, Nat.sub_zero]
  intro s hs hholds
  obtain ⟨i, hi, rfl⟩ := mem_sections hs
  have hsection := hview.sections i hi
  have hstart := hholds.1
  omega

/-- **Bytes that can be translated to the file are in the image**, and the mapped image holds them. -/
theorem Admitted.rvaToFile_mapped {rva minimumSize offset available : Nat}
    (h : rvaToFile view rva minimumSize = some (offset, available)) :
    minimumSize ≤ available ∧ rva + available ≤ view.imageSize ∧
    ∀ m k, k < available → mapped view m (rva + k) = view.bytes (offset + k) := by
  unfold rvaToFile at h
  split at h
  · next hrva =>
    dsimp only at h
    split at h
    · cases h
    next hok =>
    obtain ⟨rfl, rfl⟩ := Prod.mk.inj (Option.some.inj h)
    have hheaders := hview.headers
    refine ⟨by omega, by omega, fun m k hk => ?_⟩
    exact hview.mapped_header (by omega) m
  -- the first section of the list that holds the address
  have hfound : ∀ l : List SectionHeader,
      sectionToFile view.file.length rva minimumSize l = some (offset, available) →
      ∃ s ∈ l, s.virtualAddress ≤ rva ∧ rva - s.virtualAddress < s.sizeOfRawData ∧
        minimumSize ≤ available ∧ offset = s.pointerToRawData + (rva - s.virtualAddress) ∧
        available = s.sizeOfRawData - (rva - s.virtualAddress) := by
    intro l hl
    induction l with
    | nil => cases hl
    | cons s rest ih =>
      have hrest := fun h' => (ih h').imp fun s' hs' => hs'.imp_left (mem_cons_of_mem s)
      unfold sectionToFile at hl
      dsimp only at hl
      split at hl
      · exact hrest hl
      split at hl
      · exact hrest hl
      split at hl
      · cases hl
      · obtain ⟨rfl, rfl⟩ := Prod.mk.inj (Option.some.inj hl)
        exact ⟨s, mem_cons_self .., by omega, by omega, by omega, rfl, rfl⟩
  obtain ⟨s, hs, hstart, hin, hmin, hoffset, havailable⟩ := hfound _ h
  obtain ⟨i, hi, rfl⟩ := mem_sections hs
  have hsection := hview.sections i hi
  refine ⟨hmin, by omega, fun m k hk => ?_⟩
  have hholds : (view.sectionAt i).Holds (rva + k) := ⟨by omega, by omega⟩
  rw [hview.mapped_section hi hholds m, hoffset]
  congr 1
  omega

end RinRuntime.PeLoader

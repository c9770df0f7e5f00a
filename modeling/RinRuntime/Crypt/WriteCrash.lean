/-
Crypt.WriteCrash — a write of a sector that is interrupted.

From a volume that recovery brings to `base`, every crash of `rin_crypt_integrity_write_cipher` leaves a
medium that recovery brings to `base`, or to `base` with the new sector and its tag. Between the two lies
the flush after the descriptors: any subset of the two copies may have reached the medium, and one is
enough. The last section is about writes that are cut off one after the other.
-/
import RinRuntime.Crypt.Recovery

namespace RinRuntime.Crypt
open Lib Exec CrashDisk Function

/-! ## §1. Filling the journal. -/

/-- Every image is recoverable, to the old data or to the new. -/
def EitherSafe (v : Volume) (old new m : Disk Block) (writes : List (Nat × Block)) : Prop :=
  ∀ m', Lands m writes m' → Recoverable v m' old ∨ Recoverable v m' new

section
variable {v : Volume} {m m' base new : Disk Block} {index : Nat} {ciphertext page : Block}

variable {writes : List (Nat × Block)}

theorem Safe.left (h : Safe v base m writes) : EitherSafe v base new m writes :=
  fun m' hlands => Or.inl (h m' hlands)

theorem Safe.right (h : Safe v new m writes) : EitherSafe v base new m writes :=
  fun m' hlands => Or.inr (h m' hlands)

/-- A medium that differs from a clean one in the journal pages only is clean. -/
theorem Clean.of_pages (h : Clean v m)
    (hsame : ∀ a, a ≠ v.journalFirst + 2 → a ≠ v.journalFirst + 3 → m' a = m a) :
    Clean v m' ∧ SameData v m' m := by
  have hdata : SameData v m' m := sameData_of_two (by decide) (by decide) hsame
  refine ⟨⟨h.ready.of_sameData hdata, fun copy hcopy => ?_⟩, hdata⟩
  unfold EmptyAt
  rw [hsame _ (by omega) (by omega)]
  exact h.empty copy hcopy

/-- Where a copy of the descriptor has reached the medium, it is pending. -/
theorem pending_of_landed (hclean : Clean v m) (hidx : index < v.layout.payloadBlockCount)
    (hcipher : m (v.journalFirst + 2) = ciphertext)
    (hpage : m (v.journalFirst + 3) = page)
    (htag : v.tag index ciphertext = pageTag page (slotOf index))
    (hsame : ∀ a, a ≠ v.journalFirst → a ≠ v.journalFirst + 1 → m' a = m a)
    (hcopies : ∀ copy < 2, m' (v.journalFirst + copy) = m (v.journalFirst + copy) ∨
      m' (v.journalFirst + copy) = v.journal index ciphertext page)
    (hlanded : ∃ copy < 2, m' (v.journalFirst + copy) = v.journal index ciphertext page) :
    Ready v m' ∧ PendingAt v m' index := by
  obtain ⟨hval, hnum⟩ := journal_valid hclean.ready.layout hidx htag
  have hpages : m' (v.journalFirst + 2) = ciphertext ∧ m' (v.journalFirst + 3) = page :=
    ⟨(hsame _ (by omega) (by omega)).trans hcipher, (hsame _ (by omega) (by omega)).trans hpage⟩
  -- a valid copy is the new descriptor, and the new descriptor is valid
  have hiff : ∀ copy < 2, ValidAt v m' copy ↔
      m' (v.journalFirst + copy) = v.journal index ciphertext page := by
    intro copy hcopy
    unfold ValidAt
    rw [hpages.1, hpages.2]
    refine ⟨fun hcopy' => ?_, fun hcopy' => ?_⟩
    · rcases hcopies copy hcopy with hold | hnew
      · rw [hold, not_valid_of_empty (hclean.empty copy hcopy)] at hcopy'
        cases hcopy'
      · exact hnew
    · rw [hcopy']
      exact hval
  refine ⟨hclean.ready.of_state fun a _ hlt => hsame a (by omega) (by omega), ?_, ?_, ?_⟩
  · obtain ⟨copy, hcopy, hnew⟩ := hlanded
    exact or_of_copy hcopy ((hiff copy hcopy).mpr hnew)
  · intro copy hcopy hcopy'
    rw [(hiff copy hcopy).mp hcopy', hnum]
  · intro hfst hsec
    exact ((hiff 0 (by decide)).mp hfst).trans ((hiff 1 (by decide)).mp hsec).symm

/-- The journal pages, once they are durable. -/
theorem filled_clean (h : Clean v m) (ciphertext page : Block) :
    Clean v (filled v m ciphertext page) ∧ SameData v (filled v m ciphertext page) m ∧
      filled v m ciphertext page (v.journalFirst + 2) = ciphertext ∧
      filled v m ciphertext page (v.journalFirst + 3) = page := by
  have hpages : ∀ a, a ≠ v.journalFirst + 2 → a ≠ v.journalFirst + 3 →
      filled v m ciphertext page a = m a := by
    intro a h2 h3
    unfold filled
    rw [update_of_ne h3, update_of_ne h2]
  obtain ⟨hclean, hsame⟩ := h.of_pages hpages
  refine ⟨hclean, hsame, ?_, ?_⟩
  · unfold filled
    rw [update_of_ne (by omega), update_self]
  · unfold filled
    rw [update_self]

/-- Until the pages are durable, the journal is clean. -/
theorem pages_in_flight (hclean : Clean v m) (hsame : SameData v m base) (hwrites : ∀ write ∈ writes,
      write.1 = v.journalFirst + 2 ∨ write.1 = v.journalFirst + 3) :
    Safe v base m writes := by
  intro m' hlands
  have hpages : ∀ a, a ≠ v.journalFirst + 2 → a ≠ v.journalFirst + 3 → m' a = m a := by
    intro a h2 h3
    refine hlands.same fun b hb => ?_
    rcases hwrites _ hb with heq | heq
    · exact h2 heq
    · exact h3 heq
  obtain ⟨hclean', hsame'⟩ := hclean.of_pages hpages
  exact hclean'.recoverable (hsame'.trans hsame)

section
variable (hclean : Clean v m) (hidx : index < v.layout.payloadBlockCount)
include hclean hidx

/-- Then a copy of the descriptor decides. -/
theorem descriptors_in_flight (hsame : SameData v m base)
    (hcipher : m (v.journalFirst + 2) = ciphertext)
    (hpage : m (v.journalFirst + 3) = page)
    (htag : v.tag index ciphertext = pageTag page (slotOf index))
    (hwrites : ∀ write ∈ writes, (write.1 = v.journalFirst ∨
      write.1 = v.journalFirst + 1) ∧ write.2 = v.journal index ciphertext page) :
    EitherSafe v base (replayed v base index ciphertext page) m writes := by
  intro m' hlands
  have hoth : ∀ a, a ≠ v.journalFirst → a ≠ v.journalFirst + 1 → m' a = m a := by
    intro a h0 h1
    refine hlands.same fun b hb => ?_
    rcases (hwrites _ hb).1 with heq | heq
    · exact h0 heq
    · exact h1 heq
  have hdata : SameData v m' m := sameData_of_two (i := 0) (by decide) (by decide) hoth
  have hcopies : ∀ copy < 2, m' (v.journalFirst + copy) = m (v.journalFirst + copy) ∨
      m' (v.journalFirst + copy) = v.journal index ciphertext page :=
    fun copy _ => (hlands _).imp_right fun hwrite => (hwrites _ hwrite).2
  by_cases hlanded : ∃ copy < 2, m' (v.journalFirst + copy) = v.journal index ciphertext page
  · obtain ⟨hrdy, hpend⟩ :=
      pending_of_landed hclean hidx hcipher hpage htag hoth hcopies hlanded
    refine Or.inr (.pending hrdy index hpend ?_)
    rw [hoth _ (by omega) (by omega), hoth _ (by omega) (by omega), hcipher, hpage]
    exact (hdata.trans hsame).replayed index ciphertext page
  have hclean' : Clean v m' := by
    refine ⟨hclean.ready.of_sameData hdata, fun copy hcopy => ?_⟩
    unfold EmptyAt
    rw [(hcopies copy hcopy).resolve_right fun hnew => hlanded ⟨copy, hcopy, hnew⟩]
    exact hclean.empty copy hcopy
  exact Or.inl (hclean'.recoverable (hdata.trans hsame))

/-- **Filling the journal** of a clean volume. -/
theorem fillStages_safe (hsame : SameData v m base)
    (htag : v.tag index ciphertext = pageTag page (slotOf index)) :
    Through (EitherSafe v base (replayed v base index ciphertext page))
      (fillStages v m index ciphertext page) := by
  obtain ⟨hclean', hsame', hcipher, hpage⟩ := filled_clean hclean ciphertext page
  have hdescriptors : ∀ writes : List (Nat × Block), (∀ write ∈ writes,
      (write.1 = v.journalFirst ∨ write.1 = v.journalFirst + 1) ∧
        write.2 = v.journal index ciphertext page) →
      EitherSafe v base (replayed v base index ciphertext page) (filled v m ciphertext page) writes :=
    fun writes => descriptors_in_flight hclean' hidx (hsame'.trans hsame) hcipher hpage htag
  unfold fillStages
  simp only [through_cons]
  refine ⟨(pages_in_flight hclean hsame ?_).left, (pages_in_flight hclean hsame ?_).left,
    (pages_in_flight hclean hsame ?_).left, hdescriptors _ ?_, hdescriptors _ ?_, hdescriptors _ ?_,
    through_nil⟩
  all_goals simp

/-- **With the journal filled**, the new descriptor is pending. -/
theorem journaled_pending (htag : v.tag index ciphertext = pageTag page (slotOf index)) :
    Ready v (journaled v m index ciphertext page) ∧ PendingAt v (journaled v m index ciphertext page) index ∧
      journaled v m index ciphertext page (v.journalFirst + 2) = ciphertext ∧
      journaled v m index ciphertext page (v.journalFirst + 3) = page ∧
      SameData v (journaled v m index ciphertext page) m ∧
      ∀ copy < 2, ValidAt v (journaled v m index ciphertext page) copy := by
  obtain ⟨hclean', hsame', hcipher, hpage⟩ := filled_clean hclean ciphertext page
  have hoth : ∀ a, a ≠ v.journalFirst → a ≠ v.journalFirst + 1 →
      journaled v m index ciphertext page a = filled v m ciphertext page a := by
    intro a h0 h1
    unfold journaled described
    rw [update_of_ne h1, update_of_ne h0]
  have hcopies : ∀ copy < 2, journaled v m index ciphertext page (v.journalFirst + copy)
      = v.journal index ciphertext page := by
    intro copy hcopy
    unfold journaled described
    rcases (by omega : copy = 0 ∨ copy = 1) with rfl | rfl
    · rw [update_of_ne (by omega)]
      exact update_self ..
    · exact update_self ..
  obtain ⟨hrdy, hpend⟩ := pending_of_landed hclean' hidx hcipher hpage htag hoth
    (fun copy hcopy => Or.inr (hcopies copy hcopy)) ⟨1, by decide, hcopies 1 (by decide)⟩
  have hcipher' := (hoth (v.journalFirst + 2) (by omega) (by omega)).trans hcipher
  have hpage' := (hoth (v.journalFirst + 3) (by omega) (by omega)).trans hpage
  refine ⟨hrdy, hpend, hcipher', hpage',
    (sameData_of_two (i := 0) (by decide) (by decide) hoth).trans hsame', fun copy hcopy => ?_⟩
  unfold ValidAt
  rw [hcopies copy hcopy, hcipher', hpage']
  exact (journal_valid hrdy.layout hidx htag).1

end

/-! ## §2. The write. -/

/-- The medium with a new sector and its tag. -/
def written (v : Volume) (m : Disk Block) (index : Nat) (ciphertext : Block) : Disk Block :=
  replayed v m index ciphertext (newPage v m index ciphertext)

/-- **The stages of a write**, from a clean volume, and its end. -/
theorem cipherStages_safe (hclean : Clean v m) (hidx : index < v.layout.payloadBlockCount)
    (ciphertext : Block) :
    Through (EitherSafe v m (written v m index ciphertext)) (cipherStages v m index ciphertext) ∧
      Clean v (rewritten v m index ciphertext) ∧
      SameData v (rewritten v m index ciphertext) (written v m index ciphertext) := by
  obtain ⟨hpage, -⟩ := places hclean.ready.layout hidx
  have hclean' : Clean v (cleared v m) := cleared_clean hclean.ready
  have hsame' : SameData v (cleared v m) m := cleared_sameData
  have hnew : newPage v (cleared v m) index ciphertext = newPage v m index ciphertext := by
    unfold newPage
    rw [hsame' _ fun hin => absurd hin.2 (by omega)]
  have htag : v.tag index ciphertext = pageTag (newPage v m index ciphertext) (slotOf index) :=
    (pageTag_setTag ..).symm
  obtain ⟨hrdy, hpend, hcipher, hpage', hsame'', -⟩ := journaled_pending hclean' hidx htag
  have hdata : SameData v (replayed v (journaled v (cleared v m) index ciphertext (newPage v m index ciphertext))
      index ciphertext (newPage v m index ciphertext)) (written v m index ciphertext) :=
    (hsame''.trans hsame').replayed index ciphertext _
  unfold cipherStages rewritten
  rw [hnew]
  refine ⟨through_append.mpr ⟨through_append.mpr ⟨?_, ?_⟩, ?_⟩,
    cleared_clean (hrdy.replayed hidx ..), cleared_sameData.trans hdata⟩
  · exact (clearStages_safe (hclean.atRest (SameData.refl v m))).mono fun _ _ hsafe => hsafe.left
  · exact fillStages_safe hclean' hidx hsame' htag
  · refine (applyStages_safe hrdy hpend hcipher hpage').mono fun _ _ hsafe => ?_
    exact (hsafe.trans hdata).right

/-! ## §3. Verification. -/

/-- The result of `rin_crypt_integrity_verify_cipher` for a ciphertext, on a medium with power. -/
def verdict (v : Volume) (m : Disk Block) (index : Nat) (ciphertext : Block) : Except Failure Verdict :=
  (verifyCipher v index ciphertext (Device.on m)).1

/-- Verification looks at the tag page. -/
theorem verdict_eq (hrdy : Ready v m) (hidx : index < v.layout.payloadBlockCount) (ciphertext : Block) :
    verdict v m index ciphertext = verifyTag v index ciphertext (m (v.pageLba index)) := by
  obtain ⟨-, -, -, hquot⟩ := places hrdy.layout hidx
  obtain ⟨hpay, htags⟩ := no_overflow hrdy.layout hidx
  have hwp : wp (verifyCipher v index ciphertext)
      (fun verdict _ => verifyTag v index ciphertext (m (v.pageLba index)) = .ok verdict)
      (fun e _ => verifyTag v index ciphertext (m (v.pageLba index)) = .error e) (Device.on m) := by
    unfold verifyCipher
    rw [wp_bind, wp_require]
    refine ⟨fun _ => ?_, fun hfails => absurd ⟨hrdy.layout, hidx, hrdy.epoch⟩ hfails⟩
    rw [wp_bind, wp_require]
    refine ⟨fun _ => ?_, fun hfails => absurd ⟨hquot, hpay, htags⟩ hfails⟩
    rw [wp_bind]
    refine wp_readBlock (Device.on_at m) (fun hsteady => absurd trivial hsteady) fun d' _ => ?_
    rw [show applyAll m [] (v.layout.tagFirstLba + index / tagsPerBlock) = m (v.pageLba index) from rfl]
    cases hcase : verifyTag v index ciphertext (m (v.pageLba index)) with
    | ok verdict => exact rfl
    | error e => exact rfl
  unfold verdict
  rcases hx : verifyCipher v index ciphertext (Device.on m) with ⟨e | result, d'⟩
  · exact (wp_error hwp hx).symm
  · exact (wp_ok hwp hx).symm

/-- Media with the same tag page give the same verdict. -/
theorem verdict_congr (hrdy : Ready v m) (hsame : SameData v m' m) (hidx : index < v.layout.payloadBlockCount)
    (ciphertext : Block) : verdict v m' index ciphertext = verdict v m index ciphertext := by
  obtain ⟨hpage, -⟩ := places hrdy.layout hidx
  rw [verdict_eq hrdy hidx, verdict_eq (hrdy.of_sameData hsame) hidx,
    hsame _ fun hin => absurd hin.2 (by omega)]

/-- The stored bytes of a sector are accepted. -/
def SectorAccepted (v : Volume) (m : Disk Block) (index : Nat) : Prop :=
  (verdict v m index (m (v.sectorLba index))).isOk = true

/-- The new sector has the new ciphertext, and the new tag. -/
theorem written_sector (hlay : layoutValid v.layout = true) (hidx : index < v.layout.payloadBlockCount)
    (ciphertext : Block) : written v base index ciphertext (v.sectorLba index) = ciphertext ∧
      written v base index ciphertext (v.pageLba index) = newPage v base index ciphertext := by
  obtain ⟨-, hbtw, hsector, -⟩ := places hlay hidx
  unfold written replayed
  rw [update_of_ne (by omega), update_self, update_self]
  exact ⟨rfl, rfl⟩

/-- **The new ciphertext is accepted** after the write. -/
theorem written_accepted (hrdy : Ready v (written v base index ciphertext))
    (hidx : index < v.layout.payloadBlockCount) :
    (verdict v (written v base index ciphertext) index ciphertext).isOk = true := by
  rw [verdict_eq hrdy hidx, (written_sector hrdy.layout hidx ciphertext).2]
  unfold verifyTag newPage
  rw [pageTag_setTag]
  split
  · rfl
  · rw [if_pos rfl]
    rfl

/-- **Other sectors** keep their bytes and their verdicts. -/
theorem written_other {other : Nat} (hrdy : Ready v base) (hidx : index < v.layout.payloadBlockCount)
    (hoth : other < v.layout.payloadBlockCount) (hne : other ≠ index) (ciphertext' : Block) :
    written v base index ciphertext (v.sectorLba other) = base (v.sectorLba other) ∧
      verdict v (written v base index ciphertext) other ciphertext' = verdict v base other ciphertext' := by
  obtain ⟨hpage, hbtw, hsector, -⟩ := places hrdy.layout hidx
  obtain ⟨hpage', hbtw', hsector', -⟩ := places hrdy.layout hoth
  have hrdy' : Ready v (written v base index ciphertext) := hrdy.replayed hidx ..
  have hsectors : v.sectorLba other ≠ v.sectorLba index := by
    unfold Volume.sectorLba
    omega
  refine ⟨?_, ?_⟩
  · unfold written replayed
    rw [update_of_ne (by omega), update_of_ne hsectors]
  rw [verdict_eq hrdy' hoth, verdict_eq hrdy hoth]
  -- only the slot of the sector changes, and only in its own page
  have htag : pageTag (written v base index ciphertext (v.pageLba other)) (slotOf other)
      = pageTag (base (v.pageLba other)) (slotOf other) := by
    by_cases hsame : v.pageLba other = v.pageLba index
    · rw [hsame, (written_sector hrdy.layout hidx ciphertext).2]
      refine pageTag_setTag_other _ _ fun hslot => hne ?_
      have hremainder : other % tagsPerBlock = index % tagsPerBlock := congrArg Fin.val hslot
      have hquot : other / tagsPerBlock = index / tagsPerBlock := by
        unfold Volume.pageLba at hsame
        omega
      rw [← Nat.div_add_mod other tagsPerBlock, ← Nat.div_add_mod index tagsPerBlock, hremainder, hquot]
    · unfold written replayed
      rw [update_of_ne hsame, update_of_ne (by omega)]
  unfold verifyTag
  rw [htag]

/-! ## §4. Crashes. -/

/-- HMAC, truncated to a tag, has no collision among these messages. -/
def CollisionFree (v : Volume) (occurs : List Byte → Prop) : Prop :=
  ∀ message message', occurs message → occurs message' →
    truncate (v.mac message) = truncate (v.mac message') → message = message'

/-- **Without collisions, nothing but the new ciphertext is accepted.** -/
theorem written_accepts_only {occurs : List Byte → Prop} (hfree : CollisionFree v occurs)
    (hrdy : Ready v (written v base index ciphertext)) (hidx : index < v.layout.payloadBlockCount)
    (hnew : occurs (v.tagMessage index ciphertext)) (hzero : occurs (v.zeroSectorMessage index))
    {other : Block} (hoth : occurs (v.tagMessage index other)) :
    (verdict v (written v base index ciphertext) index other).isOk = true ↔ other = ciphertext := by
  refine ⟨fun hacc => ?_, fun heq => ?_⟩
  · rw [verdict_eq hrdy hidx, (written_sector hrdy.layout hidx ciphertext).2] at hacc
    unfold verifyTag newPage at hacc
    rw [pageTag_setTag] at hacc
    split at hacc
    · next hcase =>
      -- the message of a zero sector is shorter
      have hlen := congrArg List.length (hfree _ _ hzero hnew hcase.2)
      unfold Volume.zeroSectorMessage Volume.tagMessage at hlen
      have hzeroText : (text "RinOS RCT2 logical zero sector").length = 30 := by decide
      have htagText : (text "RinOS RCT2 sector tag").length = 21 := by decide
      simp only [List.length_append, Vector.length_toList, hzeroText, htagText] at hlen
      omega
    split at hacc
    · next hcase =>
      have hmessages := hfree _ _ hoth hnew hcase
      exact Vector.toList_inj.mp (List.append_cancel_left hmessages)
    · cases hacc
  · rw [heq]
    exact written_accepted hrdy hidx

/-- What a crash leaves where a write loses power after some operations. -/
def CrashImage (v : Volume) (index : Nat) (ciphertext : Block) (disk : Disk Block) (operations : Nat)
    (image : Disk Block) : Prop :=
  Lands (writeCipher v index ciphertext (Device.until disk operations)).2.durable
    (writeCipher v index ciphertext (Device.until disk operations)).2.pending image

/-- Every crash leaves a medium that is recoverable to the old data or the new. -/
theorem crash_recoverable {disk image : Disk Block} {operations : Nat} (hrdy : Ready v disk)
    (hacc : Accepted v disk) (hidx : index < v.layout.payloadBlockCount)
    (hcrash : CrashImage v index ciphertext disk operations image) :
    Recoverable v image (recovered v disk) ∨
      Recoverable v image (written v (recovered v disk) index ciphertext) := by
  obtain ⟨-, hclean, -, hsafe⟩ := (hacc.recoverable hrdy).outcome
  obtain ⟨hstages, hclean', hsame⟩ := cipherStages_safe hclean hidx ciphertext
  have hwp : wp (writeCipher v index ciphertext)
      (fun _ d' => d'.At False (rewritten v (recovered v disk) index ciphertext) [])
      (Lost .io False (EitherSafe v (recovered v disk) (written v (recovered v disk) index ciphertext)))
      (Device.until disk operations) :=
    wp_writeCipher hrdy hacc hidx (Device.until_at disk operations)
      (through_append.mpr ⟨hsafe.mono fun _ _ h => h.left, hstages⟩) fun _ hd' => hd'
  refine final_of_wp hwp (fun _ d' hd' => ?_) image hcrash
  rw [hd'.durable, hd'.pending]
  exact (safe_nil (hclean'.recoverable hsame)).right

/-- The data of a medium decides on its sectors. -/
theorem accepted_congr (hrdy : Ready v m) (hsame : SameData v m' m) (hidx : index < v.layout.payloadBlockCount) :
    m' (v.sectorLba index) = m (v.sectorLba index) ∧
      verdict v m' index (m' (v.sectorLba index)) = verdict v m index (m (v.sectorLba index)) := by
  obtain ⟨-, -, hsector, -⟩ := places hrdy.layout hidx
  have hord := hrdy.ordered
  have hsector' : m' (v.sectorLba index) = m (v.sectorLba index) := by
    refine hsame _ fun hin => ?_
    have htags := hord.tags
    have hpay := hord.payload
    have hlt := hin.2
    omega
  rw [hsector', verdict_congr hrdy hsame hidx]
  exact ⟨rfl, rfl⟩

end

/-- **Writes survive crashes.** For a ready volume that recovery brings to `base` (itself, if its journal is
clean), wherever a write of a sector is cut off and whatever subset of the unflushed blocks has reached the
medium: recovery succeeds, the sector has its old or its new ciphertext and is accepted, and every other
sector has its bytes and its verdict. A write that is not cut off succeeds, and then, where HMAC has no
collisions on the messages that occur, exactly the new ciphertext is accepted. -/
theorem write_survives_crash {v : Volume} {disk base : Disk Block} {index : Nat} (ciphertext : Block)
    (hrecovers : Recovers v disk base) (hidx : index < v.layout.payloadBlockCount)
    (hacc : SectorAccepted v base index) : ((∀ copy < 2, EmptyAt v disk copy) → base = disk) ∧
    (∀ (operations : Nat) (image : Disk Block), CrashImage v index ciphertext disk operations image →
      ∃ after, Recovers v image after ∧
        (after (v.sectorLba index) = base (v.sectorLba index) ∨ after (v.sectorLba index) = ciphertext) ∧
        SectorAccepted v after index ∧ ∀ other < v.layout.payloadBlockCount, other ≠ index →
          after (v.sectorLba other) = base (v.sectorLba other) ∧
          verdict v after other (after (v.sectorLba other)) = verdict v base other (base (v.sectorLba other))) ∧
    ∃ d', writeCipher v index ciphertext (Device.on disk) = (.ok (), d') ∧
      d'.view (v.sectorLba index) = ciphertext ∧
      ∀ occurs : List Byte → Prop, CollisionFree v occurs → occurs (v.tagMessage index ciphertext) →
        occurs (v.zeroSectorMessage index) → ∀ other : Block, occurs (v.tagMessage index other) →
        ((verdict v d'.view index other).isOk = true ↔ other = ciphertext) := by
  obtain ⟨hrdy, hacc', rfl⟩ := recovers_iff.mp hrecovers
  obtain ⟨-, hclean, -, -⟩ := (hacc'.recoverable hrdy).outcome
  have hlay := hclean.ready.layout
  have hwr : Ready v (written v (recovered v disk) index ciphertext) := hclean.ready.replayed hidx ..
  refine ⟨fun hnil => ?_, fun operations image hcrash => ?_, ?_⟩
  · exact Clean.recovered_eq ⟨hrdy, hnil⟩
  · rcases crash_recoverable hrdy hacc' hidx hcrash with hold | hnew
    · obtain ⟨after, hafter, hsame⟩ := hold.recovers
      obtain ⟨hsector, hver⟩ := accepted_congr hclean.ready hsame hidx
      refine ⟨after, hafter, Or.inl hsector, ?_, fun other hoth _ => accepted_congr hclean.ready hsame hoth⟩
      unfold SectorAccepted
      rw [hver]
      exact hacc
    obtain ⟨after, hafter, hsame⟩ := hnew.recovers
    obtain ⟨hsector, hver⟩ := accepted_congr hwr hsame hidx
    rw [(written_sector hlay hidx ciphertext).1] at hsector hver
    refine ⟨after, hafter, Or.inr hsector, ?_, fun other hoth hne => ?_⟩
    · unfold SectorAccepted
      rw [hver]
      exact written_accepted hwr hidx
    obtain ⟨hbytes, hver'⟩ := accepted_congr hwr hsame hoth
    obtain ⟨hbytes', hver''⟩ := written_other hclean.ready hidx hoth hne
      (recovered v disk (v.sectorLba other))
    rw [hbytes'] at hbytes hver'
    exact ⟨hbytes, hver'.trans hver''⟩
  obtain ⟨-, -, hsame⟩ := cipherStages_safe hclean hidx ciphertext
  have hwp : wp (writeCipher v index ciphertext)
      (fun _ d' => d'.At True (rewritten v (recovered v disk) index ciphertext) [])
      (Lost .io True fun _ _ => True) (Device.on disk) :=
    wp_writeCipher hrdy hacc' hidx (Device.on_at disk) (fun _ _ => trivial) fun _ hd' => hd'
  obtain ⟨_, d', hrun, hd'⟩ := returns_of_wp hwp
  have hview : d'.view = rewritten v (recovered v disk) index ciphertext := hd'.view_eq
  obtain ⟨hsector, -⟩ := accepted_congr hwr hsame hidx
  rw [(written_sector hlay hidx ciphertext).1] at hsector
  refine ⟨d', hrun, by rw [hview, hsector], fun occurs hfree hnew hzero other hoth => ?_⟩
  rw [hview, verdict_congr hwr hsame hidx]
  exact written_accepts_only hfree hwr hidx hnew hzero hoth

/-- A remainder that every byte of a message counts in. -/
def checksum (message : List Byte) : Nat := message.foldl (fun sum byte => (31 * sum + byte.toNat) % 251) 1

/-- A volume of two sectors with a checksum for HMAC. -/
def smallVolume : Volume where
  layout := ⟨0, 2, 6, 1, 7, 2⟩
  hmac := fun key message => .replicate 32 (.ofNat 8 (checksum (key ++ message)))
  key := Vector.replicate 32 0
  volumeId := Vector.replicate 16 0
  keyEpoch := 1

/-- The tags of a zero sector and of a sector of fives. -/
def smallTags : Block :=
  ⟨((smallVolume.zeroSectorTag 0).toList ++ (smallVolume.tag 1 (.replicate 512 5)).toList ++
    List.replicate 480 0).toArray, by
    rw [List.size_toArray, List.length_append, List.length_append, Vector.length_toList,
      Vector.length_toList, List.length_replicate]⟩

/-- Its medium: ready state blocks, empty descriptors, the tags and the two sectors. -/
def smallDisk : Disk Block := fun a =>
  if a < 2 then smallVolume.stateBlock 2
  else if a < 4 then smallVolume.emptyJournal
  else if a = 6 then smallTags
  else if a = 8 then .replicate 512 5 else .replicate 512 0

theorem smallDisk_clean : Clean smallVolume smallDisk := by
  refine ⟨⟨by decide, by decide, by decide +kernel⟩, fun copy hcopy => ?_⟩
  have hplace : smallDisk (smallVolume.layout.journalFirstLba + copy) = smallVolume.emptyJournal := by
    unfold smallDisk
    rw [if_neg (by show ¬ 2 + copy < 2; omega), if_pos (by show 2 + copy < 4; omega)]
  unfold EmptyAt
  rw [hplace]
  exact emptyJournal_valid (by decide)

theorem smallDisk_recovers : Recovers smallVolume smallDisk smallDisk := by
  have hacc : Accepted smallVolume smallDisk :=
    ((smallDisk_clean.recoverable (SameData.refl _ _)).outcome).1
  have hrecovers := hacc.recovers smallDisk_clean.ready
  rw [smallDisk_clean.recovered_eq] at hrecovers
  exact hrecovers

theorem smallDisk_accepted {i : Nat} (hi : i < 2) : SectorAccepted smallVolume smallDisk i := by
  rw [SectorAccepted, verdict_eq smallDisk_clean.ready hi]
  obtain rfl | rfl : i = 0 ∨ i = 1 := by omega
  · decide +kernel
  · decide +kernel

/-- A sector of zeros is overwritten, and power is lost while the first descriptor is on its way. Without
the loss of power another ciphertext is rejected. -/
theorem write_survives_crash_descriptor : Recovers smallVolume smallDisk smallDisk ∧
    (∃ image after, CrashImage smallVolume 0 (.replicate 512 7) smallDisk 15 image ∧
      Recovers smallVolume image after ∧ SectorAccepted smallVolume after 0 ∧
      after 8 = .replicate 512 5 ∧ SectorAccepted smallVolume after 1) ∧
    ∃ d', writeCipher smallVolume 0 (.replicate 512 7) (Device.on smallDisk) = (.ok (), d') ∧
      (verdict smallVolume d'.view 0 (.replicate 512 9)).isOk = false := by
  obtain ⟨-, hcut, d', hrun, -, honly⟩ := write_survives_crash (.replicate 512 7) smallDisk_recovers
    (by decide) (smallDisk_accepted (i := 0) (by decide))
  have hcrash : CrashImage smallVolume 0 (.replicate 512 7) smallDisk 15
      (writeCipher smallVolume 0 (.replicate 512 7) (Device.until smallDisk 15)).2.durable :=
    fun a => Or.inl rfl
  obtain ⟨after, hafter, -, hsector, hothers⟩ := hcut 15 _ hcrash
  obtain ⟨hoth, hver⟩ := hothers 1 (by decide) (by decide)
  refine ⟨smallDisk_recovers, ⟨_, after, hcrash, hafter, hsector, hoth, ?_⟩, d', hrun, ?_⟩
  · rw [SectorAccepted, hver]
    exact smallDisk_accepted (by decide)
  let messages := [smallVolume.tagMessage 0 (.replicate 512 7), smallVolume.zeroSectorMessage 0,
    smallVolume.tagMessage 0 (.replicate 512 9)]
  have hfree : ∀ m ∈ messages, ∀ m' ∈ messages,
      truncate (smallVolume.mac m) = truncate (smallVolume.mac m') → m = m' := by decide +kernel
  have hexact := honly (· ∈ messages) (fun m m' hm hm' => hfree m hm m' hm') (by simp [messages])
    (by simp [messages]) (.replicate 512 9) (by simp [messages])
  have hne : Vector.replicate 512 (9 : Byte) ≠ .replicate 512 7 := by decide +kernel
  exact Bool.eq_false_iff.mpr (mt hexact.mp hne)

/-! ## §5. Histories of writes. -/

/-- A write of a sector, and whether it succeeds. -/
structure Write where
  index : Nat
  ciphertext : Block
  done : Bool

/-- Writes one after the other, each with power for some operations, lead from one medium to another. -/
def History (v : Volume) : List Write → Disk Block → Disk Block → Prop
  | [], m, after => after = m
  | w :: rest, m, after => ∃ operations image, w.index < v.layout.payloadBlockCount ∧
      (writeCipher v w.index w.ciphertext (Device.until m operations)).1.isOk = w.done ∧
      CrashImage v w.index w.ciphertext m operations image ∧ History v rest image after

/-- **What writes may make of the sectors**: one that fails happens as a whole or not at all. -/
def Outcome : List Write → (Nat → Block) → (Nat → Block) → Prop
  | [], s, s' => s' = s
  | w :: rest, s, s' => Outcome rest (update s w.index w.ciphertext) s' ∨ w.done = false ∧ Outcome rest s s'

/-- Every sector is accepted and has these bytes. -/
def Holds (v : Volume) (base : Disk Block) (s : Nat → Block) : Prop :=
  ∀ i < v.layout.payloadBlockCount, base (v.sectorLba i) = s i ∧ SectorAccepted v base i

/-- Recovery succeeds, and then the sectors have these bytes. -/
def Stores (v : Volume) (m : Disk Block) (s : Nat → Block) : Prop := ∃ base, Recovers v m base ∧ Holds v base s

section
variable {v : Volume} {m image base : Disk Block} {s : Nat → Block} {index operations : Nat} {ciphertext : Block}

theorem Recoverable.stores (h : Recoverable v image base) (hrdy : Ready v base) (hs : Holds v base s) :
    Stores v image s := by
  obtain ⟨after, hafter, hsame⟩ := h.recovers
  refine ⟨after, hafter, fun i hi => ?_⟩
  obtain ⟨hsector, hver⟩ := accepted_congr hrdy hsame hi
  unfold SectorAccepted
  rw [hver, hsector]
  exact hs i hi

theorem Holds.written (hs : Holds v base s) (hrdy : Ready v base) (hidx : index < v.layout.payloadBlockCount)
    (ciphertext : Block) : Holds v (written v base index ciphertext) (update s index ciphertext) := by
  intro i hi
  unfold SectorAccepted
  by_cases hne : i = index
  · rw [hne, update_self, (written_sector hrdy.layout hidx ciphertext).1]
    exact ⟨rfl, written_accepted (hrdy.replayed hidx ..) hidx⟩
  obtain ⟨hbytes, hver⟩ := written_other hrdy hidx hi hne (base (v.sectorLba i))
  rw [update_of_ne hne, hbytes, hver]
  exact hs i hi

/-- **One write**, cut off or not. -/
theorem Stores.write (h : Stores v m s) (hidx : index < v.layout.payloadBlockCount)
    (hcrash : CrashImage v index ciphertext m operations image) :
    Stores v image (update s index ciphertext) ∨
      (writeCipher v index ciphertext (Device.until m operations)).1.isOk = false ∧ Stores v image s := by
  obtain ⟨base, hrecovers, hs⟩ := h
  obtain ⟨hrdy, hacc, rfl⟩ := recovers_iff.mp hrecovers
  obtain ⟨-, hclean, -, -⟩ := (hacc.recoverable hrdy).outcome
  have hwr : Ready v (written v (recovered v m) index ciphertext) := hclean.ready.replayed hidx ..
  have hnew := hs.written hclean.ready hidx ciphertext
  rcases hx : writeCipher v index ciphertext (Device.until m operations) with ⟨e | u, d'⟩
  · rcases crash_recoverable hrdy hacc hidx hcrash with hold | hwrote
    · exact Or.inr ⟨rfl, hold.stores hclean.ready hs⟩
    · exact Or.inl (hwrote.stores hwr hnew)
  -- a write that succeeds leaves nothing unflushed
  obtain ⟨-, hclean', hsame⟩ := cipherStages_safe hclean hidx ciphertext
  have hd' := wp_ok (Q := fun _ d' => d'.At False (rewritten v (recovered v m) index ciphertext) [])
    (wp_writeCipher (C := fun _ _ => True) hrdy hacc hidx (Device.until_at m operations)
      (fun _ _ => trivial) fun _ h => h) hx
  unfold CrashImage at hcrash
  rw [hx, hd'.durable, hd'.pending] at hcrash
  rw [hcrash.eq]
  exact Or.inl ((hclean'.recoverable hsame).stores hwr hnew)

end

/-- **Histories of writes.** Wherever writes are cut off, one after the other, recovery then succeeds, every
sector is accepted, and the sectors hold the writes that succeeded and, as a whole, some of the others. -/
theorem history_stores {v : Volume} {m image : Disk Block} {s : Nat → Block} {writes : List Write}
    (hstores : Stores v m s) (hhistory : History v writes m image) :
    ∃ s', Outcome writes s s' ∧ Stores v image s' := by
  induction writes generalizing m s with
  | nil => exact ⟨s, rfl, hhistory ▸ hstores⟩
  | cons w rest ih =>
    obtain ⟨operations, middle, hidx, hdone, hcrash, hrest⟩ := hhistory
    rcases hstores.write hidx hcrash with hnew | ⟨hfail, hold⟩
    · obtain ⟨s', hout, hs'⟩ := ih hnew hrest
      exact ⟨s', Or.inl hout, hs'⟩
    · obtain ⟨s', hout, hs'⟩ := ih hold hrest
      exact ⟨s', Or.inr ⟨hdone.symm.trans hfail, hout⟩, hs'⟩

/-- Power is lost during the write of one sector, and that of the other one succeeds. -/
theorem history_stores_second : ∃ image s', Stores smallVolume image s' ∧ s' 1 = .replicate 512 8 ∧
    (s' 0 = .replicate 512 0 ∨ s' 0 = .replicate 512 7) := by
  have hstores : Stores smallVolume smallDisk fun i => smallDisk (7 + i) :=
    ⟨smallDisk, smallDisk_recovers, fun i hi => ⟨rfl, smallDisk_accepted hi⟩⟩
  have hhistory : History smallVolume [⟨0, .replicate 512 7, false⟩, ⟨1, .replicate 512 8, true⟩] smallDisk _ :=
    ⟨15, _, by decide, by decide +kernel, fun _ => Or.inl rfl,
      99, _, by decide, by decide +kernel, fun _ => Or.inl rfl, rfl⟩
  obtain ⟨s', hout, hs'⟩ := history_stores hstores hhistory
  refine ⟨_, s', hs', ?_⟩
  rcases hout with (rfl | ⟨h, -⟩) | ⟨-, rfl | ⟨h, -⟩⟩
  · exact ⟨rfl, .inr rfl⟩
  · cases h
  · exact ⟨rfl, .inl rfl⟩
  · cases h

end RinRuntime.Crypt

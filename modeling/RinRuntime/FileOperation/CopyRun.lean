/-
FileOperation.CopyRun — what a completed copy has delivered.

`copy_delivers`: in a run of a copy that skips no entry while its file is open, a pump that reports
`COMPLETED` leaves at the destination of every created file the bytes of its own source, and no temporary
file. The invariant is `Data`: the files before the entry at hand have been delivered, and
`completed_bytes` accounts for exactly them and the open file.
-/
import RinRuntime.FileOperation.CopyData

namespace RinRuntime.FileOperation
open Lib Exec NameTree Layers ByteFile Function List

/-! ## §1. Names above a finished layer. -/
section
variable {e : Entry} {M M' mid : Names} {p : Path} {id : Identity}

/-- Displacing a destination keeps every name elsewhere. -/
theorem ReplacedExactly.keeps (h : ReplacedExactly e M mid)
    (hp : e.replacementState = .none ∨ ¬ Under slash e.destinationPath p) (hM : M p = some id) :
    mid p = some id := by
  rcases h with ⟨_, rfl⟩ | ⟨hheld, _, hfree, rfl⟩
  · exact hM
  have hnot : ¬ Under slash e.destinationPath p := by
    rcases hp with hnone | hnot
    · rw [hheld] at hnone
      cases hnone
    · exact hnot
  unfold move
  rw [if_neg (not_under_of_free hfree hM), if_neg hnot]
  exact hM

/-- Displacing a destination loses no object. -/
theorem ReplacedExactly.persists (h : ReplacedExactly e M mid) (hM : M p = some id) :
    ∃ q, mid q = some id := by
  by_cases hp : e.replacementState = .none ∨ ¬ Under slash e.destinationPath p
  · exact ⟨p, h.keeps hp hM⟩
  rcases h with ⟨hnone, rfl⟩ | ⟨_, _, hfree, rfl⟩
  · exact ⟨p, hM⟩
  -- carried to the same place under the backup path
  obtain ⟨hne, hunder⟩ := not_or.mp hp
  obtain ⟨r, hr, rfl⟩ := under_iff.mp (not_not.mp hunder)
  refine ⟨e.backupPath ++ r, ?_⟩
  unfold move
  rw [if_pos (under_append hr), drop_left]
  exact hM

/-- Displacing a destination names no new object, and only what was under it gets another name. -/
theorem ReplacedExactly.origin (h : ReplacedExactly e M mid) (hmid : mid p = some id) :
    ∃ q, M q = some id ∧ (q = p ∨ e.replacementState ≠ .none ∧ Under slash e.destinationPath q) := by
  rcases h with ⟨_, rfl⟩ | ⟨hheld, _, hfree, rfl⟩
  · exact ⟨p, hmid, .inl rfl⟩
  unfold move at hmid
  split at hmid
  · next hunder =>
    refine ⟨_, hmid, .inr ⟨by rw [hheld]; decide, ?_⟩⟩
    exact under_append hunder.2
  split at hmid
  · cases hmid
  · exact ⟨p, hmid, .inl rfl⟩

theorem MadeExactly.keeps (h : MadeExactly e M M') (hM : M p = some id) : M' p = some id := by
  rcases h with ⟨_, hmiss, rfl⟩ | ⟨_, _, rfl⟩
  · have hne : p ≠ e.destinationPath := by
      intro heq
      rw [heq, hmiss] at hM
      cases hM
    rw [insert_of_ne hne]
    exact hM
  · exact hM

theorem MadeExactly.origin (h : MadeExactly e M M') (hM' : M' p = some id) :
    M p = some id ∨ e.created = true ∧ p = e.destinationPath ∧ id = e.objectIdentity := by
  rcases h with ⟨hcre, _, rfl⟩ | ⟨_, _, rfl⟩
  · by_cases hp : p = e.destinationPath
    · subst hp
      rw [insert_self] at hM'
      exact .inr ⟨hcre, rfl, (Option.some.inj hM').symm⟩
    · rw [insert_of_ne hp] at hM'
      exact .inl hM'
  · exact .inl hM'

theorem Finished.copied (h : Finished e M M') (happ : e.applied = false) :
    ∃ mid, ReplacedExactly e M mid ∧ MadeExactly e mid M' := by
  rcases h.2 with ⟨_, hmid⟩ | ⟨happ', _⟩
  · exact hmid
  · rw [happ] at happ'
    cases happ'

end

theorem Finished.named {e : Entry} {M M' : Names} (h : Finished e M M') (happ : e.applied = false)
    (hcre : e.created = true) : M' e.destinationPath = some e.objectIdentity := by
  obtain ⟨mid, _, ⟨_, _, rfl⟩ | ⟨hnot, _⟩⟩ := h.copied happ
  · exact insert_self
  · rw [hcre] at hnot
    cases hnot

section
variable {op : Operation} {N₀ top : Names}

/-- The objects of the start are still named on top of finished copy entries. -/
theorem stack_persists (happ : ∀ k, (op.entry k).applied = false) :
    ∀ {n : Nat} {top : Names}, Stack (fun k => Finished (op.entry k)) N₀ n top →
      ∀ {p id}, N₀ p = some id → ∃ q, top q = some id
  | 0, _, rfl, p, _, h => ⟨p, h⟩
  | n + 1, _, ⟨M, hM, htop⟩, p, _, h => by
    obtain ⟨q, hq⟩ := stack_persists happ hM h
    obtain ⟨mid, hrepl, hmade⟩ := htop.copied (happ n)
    obtain ⟨q', hq'⟩ := hrepl.persists hq
    exact ⟨q', hmade.keeps hq'⟩

/-- **Names on top of finished copy entries** none of which displaced what an earlier one created:
every created object is at its destination, and every other name is of an object of the start. -/
theorem stack_named (happ : ∀ k, (op.entry k).applied = false) :
    ∀ {n : Nat} {top : Names}, Stack (fun k => Finished (op.entry k)) N₀ n top →
      (∀ j < n, ∀ k < j, (op.entry j).replacementState = .none ∨
        ¬ Under slash (op.entry j).destinationPath (op.entry k).destinationPath) →
      (∀ k < n, (op.entry k).created = true →
        top (op.entry k).destinationPath = some (op.entry k).objectIdentity) ∧
      ∀ p id, top p = some id → (∃ q, N₀ q = some id) ∨
        ∃ k < n, (op.entry k).created = true ∧ p = (op.entry k).destinationPath ∧
          id = (op.entry k).objectIdentity
  | 0, _, rfl, _ => ⟨fun k hk => absurd hk (Nat.not_lt_zero k), fun p id h => .inl ⟨p, h⟩⟩
  | n + 1, _, ⟨M, hM, htop⟩, hapart => by
    obtain ⟨hbelow, horigin⟩ := stack_named happ hM
      fun j hj => hapart j (Nat.lt_succ_of_lt hj)
    have hlast := hapart n (Nat.lt_succ_self n)
    obtain ⟨mid, hrepl, hmade⟩ := htop.copied (happ n)
    refine ⟨fun k hk hcre => ?_, fun p id hp => ?_⟩
    · rcases Nat.lt_succ_iff_lt_or_eq.mp hk with hlt | rfl
      · exact hmade.keeps (hrepl.keeps (hlast k hlt) (hbelow k hlt hcre))
      · exact htop.named (happ k) hcre
    rcases hmade.origin hp with hmid | hnew
    · obtain ⟨q, hq, hwhere⟩ := hrepl.origin hmid
      rcases horigin q id hq with hstart | ⟨k, hk, hcre, hdest, hid⟩
      · exact .inl hstart
      -- a created object stays where it is
      rcases hwhere with rfl | ⟨hne, hunder⟩
      · exact .inr ⟨k, Nat.lt_succ_of_lt hk, hcre, hdest, hid⟩
      rw [hdest] at hunder
      rcases hlast k hk with hnone | hnot
      · exact absurd hnone hne
      · exact absurd hunder hnot
    · exact .inr ⟨n, Nat.lt_succ_self n, hnew⟩

end

/-! ## §2. The plan of a run. -/

/-- The plan that a record carries: what a forward step of a copy leaves as it is. -/
structure SamePlans (op op' : Operation) : Prop where
  policy : op'.conflictPolicy = op.conflictPolicy
  count : op'.entryCount = op.entryCount
  plan : ∀ k, SamePlan (op.entry k) (op'.entry k)
  destination : op.conflictPolicy ≠ .rename →
    ∀ k, (op'.entry k).destinationPath = (op.entry k).destinationPath

theorem SamePlans.refl (op : Operation) : SamePlans op op :=
  ⟨rfl, rfl, fun _ => SamePlan.refl _, fun _ _ => rfl⟩

theorem SamePlans.trans {op op' op'' : Operation} (h : SamePlans op op') (h' : SamePlans op' op'') :
    SamePlans op op'' :=
  ⟨h'.policy.trans h.policy, h'.count.trans h.count, fun k => (h.plan k).trans (h'.plan k),
    fun hne k => (h'.destination (by rw [h.policy]; exact hne) k).trans (h.destination hne k)⟩

variable {op op' : Operation}

theorem SamePlans.of_entries (hpol : op'.conflictPolicy = op.conflictPolicy)
    (hents : op'.entries = op.entries) : SamePlans op op' := by
  have hent : ∀ k, op'.entry k = op.entry k := entry_of_entries hents
  refine ⟨hpol, congrArg length hents, fun k => ?_, fun _ k => ?_⟩
  · rw [hent k]
    exact SamePlan.refl _
  · rw [hent k]

theorem SameRecord.samePlans (h : SameRecord op op') : SamePlans op op' :=
  ⟨congrArg Core.conflictPolicy h.core, h.count, h.plan, h.destination⟩

theorem SamePlans.bytesBefore (h : SamePlans op op') (k : Nat) : op'.bytesBefore k = op.bytesBefore k :=
  Operation.bytesBefore_congr fun j _ => h.plan j

theorem SamePlans.withSkip (op : Operation) (i : Nat) (skip : Bool) :
    SamePlans op (op.withSkip i skip) := by
  refine ⟨rfl, Operation.entryCount_setEntry .., fun k => ?_, fun _ k => ?_⟩
  · obtain ⟨skip', heq⟩ := op.entry_withSkip i skip k
    rw [heq]
    exact ⟨rfl, rfl, rfl, rfl⟩
  · obtain ⟨skip', heq⟩ := op.entry_withSkip i skip k
    rw [heq]

/-! ## §3. Delivered files. -/
section
variable {W : Type} {B : Backend W} {view : W → View} {N₀ : Names} {op₀ : Operation}
  {s s' : State W} {k : Nat}

/-- `path` was opened for entry `k`, and what it named held `bytes`. -/
def SourceOpened (view : W → View) (log : List (Event W)) (k : Nat) (path : Path) (src : Identity)
    (bytes : List UInt8) : Prop :=
  ∃ event ∈ log, event.call = .openRead path ∧ event.entryIndex = k ∧
    (view event.world).names path = some src ∧ (view event.world).content src = some bytes

variable {bytes : List UInt8} {src : Identity} {M : Names}

/-- An opening shows in what is seen of the calls. -/
theorem sourceOpened_seen {path : Path} :
    SourceOpened id (seen view s).log k path src bytes ↔ SourceOpened view s.log k path src bytes := by
  unfold SourceOpened seen
  simp only [mem_map, exists_exists_and_eq_and]
  exact Iff.rfl

theorem SourceOpened.mono {path : Path}
    (h : SourceOpened view s.log k path src bytes) (hlog : (seen view s).log ⊆ (seen view s').log) :
    SourceOpened view s'.log k path src bytes := by
  obtain ⟨event, hmem, hrest⟩ := sourceOpened_seen.mpr h
  exact sourceOpened_seen.mp ⟨event, hlog hmem, hrest⟩

/-- The object of entry `k` holds the bytes of the source that was opened for it. It is new, and
neither it nor the source is the file being written. -/
def Delivered (B : Backend W) (view : W → View) (N₀ : Names) (s : State W) (k : Nat) : Prop :=
  ∃ src bytes, SourceOpened view s.log k (s.op.entry k).sourcePath src bytes ∧
    (view s.world).content src = some bytes ∧
    (view s.world).content (s.op.entry k).objectIdentity
      = some (bytes.take (s.op.entry k).sizeBytes) ∧
    (s.op.entry k).sizeBytes ≤ bytes.length ∧
    (B.sparse.isSome = true → bytes.length = (s.op.entry k).sizeBytes) ∧
    (∀ p, N₀ p ≠ some (s.op.entry k).objectIdentity) ∧
    (s.op.fileOpen = true → src ≠ s.op.temporaryIdentity ∧
      (s.op.entry k).objectIdentity ≠ s.op.temporaryIdentity)

/-- `id` holds bytes and is not the file being written. -/
structure Settled (view : W → View) (s : State W) (id : Identity) : Prop where
  content : (view s.world).content id ≠ none
  other : s.op.fileOpen = true → id ≠ s.op.temporaryIdentity

/-- A step that writes to no object but the temporary one keeps a delivered file. -/
theorem Delivered.keep (h : Delivered B view N₀ s k) (hplan : SamePlan (s.op.entry k) (s'.op.entry k))
    (hobject : (s'.op.entry k).objectIdentity = (s.op.entry k).objectIdentity)
    (hlog : (seen view s).log ⊆ (seen view s').log) (hcontent : ∀ id, Settled view s id →
      (view s'.world).content id = (view s.world).content id ∧
      (s'.op.fileOpen = true → id ≠ s'.op.temporaryIdentity)) : Delivered B view N₀ s' k := by
  obtain ⟨src, bytes, hsource, hsrc, hobj, hle, hlen, hnew, hoth⟩ := h
  obtain ⟨hsrc', hsrcOpen⟩ := hcontent src ⟨by rw [hsrc]; simp, fun hopen => (hoth hopen).1⟩
  obtain ⟨hobj', hobjOpen⟩ := hcontent (s.op.entry k).objectIdentity
    ⟨by rw [hobj]; simp, fun hopen => (hoth hopen).2⟩
  unfold Delivered
  rw [hplan.sourcePath, hplan.sizeBytes, hobject]
  exact ⟨src, bytes, hsource.mono hlog, hsrc'.trans hsrc, hobj'.trans hobj, hle, hlen, hnew,
    fun hopen => ⟨hsrcOpen hopen, hobjOpen hopen⟩⟩

/-- The file of the entry at hand is open. -/
structure OpenEntry (B : Backend W) (view : W → View) (N₀ : Names) (s : State W) : Prop where
  index_lt : s.op.entryIndex < s.op.entryCount
  kind : (s.op.entry s.op.entryIndex).kind = .file
  new : ∀ p, N₀ p ≠ some s.op.temporaryIdentity
  copying : ∃ src bytes c,
    SourceOpened view s.log s.op.entryIndex (s.op.entry s.op.entryIndex).sourcePath src bytes ∧
    OpenFile B view s.op.entryIndex src bytes c c c s

/-- **The bytes of a copy** between two steps. -/
structure Data (B : Backend W) (view : W → View) (N₀ : Names) (op₀ : Operation) (s : State W) :
    Prop where
  plans : SamePlans op₀ s.op
  applied : ∀ k, (s.op.entry k).applied = false
  replaced : s.op.conflictPolicy ≠ .replace → ∀ k, (s.op.entry k).replacementState = .none
  delivered : ∀ k < s.op.entryIndex, (s.op.entry k).kind = .file →
    (s.op.entry k).created = true → Delivered B view N₀ s k
  closed : s.op.fileOpen = false → s.op.completedBytes = s.op.bytesBefore s.op.entryIndex
  opened : s.op.fileOpen = true → OpenEntry B view N₀ s

section
variable (h : Data B view N₀ op₀ s)
include h

/-- A step that stays at its entry and changes no entry but for its `SKIP` flag. -/
theorem Data.stay (hidx : s'.op.entryIndex = s.op.entryIndex) (hplans : SamePlans s.op s'.op)
    (hent : ∀ k, ∃ skip, s'.op.entry k = { s.op.entry k with skip := skip })
    (hlog : (seen view s).log ⊆ (seen view s').log) (hcontent : ∀ id, Settled view s id →
      (view s'.world).content id = (view s.world).content id ∧
      (s'.op.fileOpen = true → id ≠ s'.op.temporaryIdentity))
    (hclosed : s'.op.fileOpen = false → s'.op.completedBytes = s'.op.bytesBefore s'.op.entryIndex)
    (hopened : s'.op.fileOpen = true → OpenEntry B view N₀ s') : Data B view N₀ op₀ s' := by
  refine ⟨h.plans.trans hplans, fun k => ?_, fun hne k => ?_, fun k hk hkind hcre => ?_, hclosed, hopened⟩
  all_goals obtain ⟨skip, heq⟩ := hent k
  · rw [heq]
    exact h.applied k
  · rw [hplans.policy] at hne
    rw [heq]
    exact h.replaced hne k
  · rw [hidx] at hk
    rw [heq] at hkind hcre
    exact (h.delivered k hk hkind hcre).keep (hplans.plan k) (by rw [heq]) hlog hcontent

/-- The flags of a record and of its entries are of no interest to the bytes. -/
theorem Data.reflag {op : Operation} (hplans : SamePlans s.op op)
    (hent : ∀ k, ∃ skip, op.entry k = { s.op.entry k with skip := skip })
    (hrest : ∃ entries a b c d, op = ({ s.op with entries := entries } : Operation).withFlags a b c d) :
    Data B view N₀ op₀ { s with op := op } := by
  obtain ⟨entries, a, b, c, d, rfl⟩ := hrest
  refine h.stay rfl hplans hent (fun _ hx => hx) (fun id hid => ⟨rfl, hid.other⟩)
    (fun hclosed => (h.closed hclosed).trans (hplans.bytesBefore _).symm) fun hopen => ?_
  obtain ⟨hlt, hkind, hnew, src, bytes, n, hsource, hfile⟩ := h.opened hopen
  have hplan := hplans.plan s.op.entryIndex
  obtain ⟨file, hcontent, hcopied⟩ := hfile.file
  rw [← hplan.sizeBytes] at hcopied
  rw [← hplan.sourcePath] at hsource
  refine ⟨Nat.lt_of_lt_of_eq hlt hplans.count.symm, hplan.kind.trans hkind, hnew, src, bytes, n, hsource,
    { hfile with
      file := ⟨file, hcontent, hcopied⟩
      length := fun hsparse => (hfile.length hsparse).trans hplan.sizeBytes.symm
      completed := hfile.completed.trans (congrArg (· + n) (hplans.bytesBefore _).symm) }⟩

theorem Data.withFlags (a b c d : Bool) : Data B view N₀ op₀ { s with op := s.op.withFlags a b c d } :=
  h.reflag (SamePlans.of_entries rfl rfl) (fun _ => ⟨_, rfl⟩) ⟨s.op.entries, a, b, c, d, rfl⟩

theorem Data.withSkip (i : Nat) (skip : Bool) : Data B view N₀ op₀ { s with op := s.op.withSkip i skip } :=
  h.reflag (SamePlans.withSkip s.op i skip) (s.op.entry_withSkip i skip)
    ⟨(s.op.withSkip i skip).entries, s.op.active, s.op.rollbackActive, s.op.recoveryRequired,
      s.op.cancelRequested, rfl⟩

/-! ## §4. Steps. -/

/-- The conflict test, with no file open: the entry at hand may have been displaced or skipped. -/
theorem Data.cleared (hclosed : s.op.fileOpen = false) (hcleared : Cleared view s.op.entryIndex M s s')
    (hkept : Kept view s s') :
    Data B view N₀ op₀ s' := by
  have hidx : s'.op.entryIndex = s.op.entryIndex :=
    congrArg Core.entryIndex hkept.record.core
  have hpol : s'.op.conflictPolicy = s.op.conflictPolicy :=
    congrArg Core.conflictPolicy hkept.record.core
  have hopen' : s'.op.fileOpen = false :=
    (hcleared.only.field (·.fileOpen)).trans hclosed
  refine ⟨h.plans.trans hkept.record.samePlans, fun k => ?_, fun hne k => ?_,
    fun k hk hkind hcre => ?_, fun _ => ?_, fun hopen => ?_⟩
  · by_cases hk : k = s.op.entryIndex
    · rw [hk]
      exact hcleared.ready.applied
    · rw [hcleared.only.other k hk]
      exact h.applied k
  · rw [hpol] at hne
    by_cases hk : k = s.op.entryIndex
    · rw [hk]
      by_contra hst
      rcases hcleared.replaced hst with hold | hreplace
      · exact hold (h.replaced hne _)
      · exact hne hreplace
    · rw [hcleared.only.other k hk]
      exact h.replaced hne k
  · rw [hidx] at hk
    have hsame : s'.op.entry k = s.op.entry k := hcleared.only.other k (Nat.ne_of_lt hk)
    rw [hsame] at hkind hcre
    refine (h.delivered k hk hkind hcre).keep (hkept.record.plan k) (by rw [hsame]) hkept.seen_log
      fun id _ => ⟨congrFun hkept.content id, fun hopen => ?_⟩
    rw [hopen'] at hopen
    cases hopen
  · rw [hkept.record.completed, h.closed hclosed, hidx]
    exact (hkept.record.samePlans.bytesBefore _).symm
  · rw [hopen'] at hopen
    cases hopen

theorem Data.next (hframe : Frame s.op.entryIndex s.op s'.op) (hplans : SamePlans s.op s'.op)
    (hlog : (seen view s).log ⊆ (seen view s').log) (hclosed' : s'.op.fileOpen = false)
    (hcontent : ∀ id, Settled view s id → (view s'.world).content id = (view s.world).content id)
    (happ : (s'.op.entry s.op.entryIndex).applied = false)
    (hrepl : s.op.conflictPolicy ≠ .replace → (s'.op.entry s.op.entryIndex).replacementState = .none)
    (hent : (s'.op.entry s.op.entryIndex).kind = .file →
      (s'.op.entry s.op.entryIndex).created = true → Delivered B view N₀ s' s.op.entryIndex)
    (hbytes : s'.op.completedBytes
      = s.op.bytesBefore s.op.entryIndex + (s.op.entry s.op.entryIndex).bytes) :
    Data B view N₀ op₀ { s' with op := nextEntry s'.op } := by
  have hidx : s'.op.entryIndex = s.op.entryIndex := congrArg Core.entryIndex hframe.core
  have hnext : (nextEntry s'.op).entryIndex = s.op.entryIndex + 1 := by
    show s'.op.entryIndex + 1 = _
    rw [hidx]
  have hstays : SamePlans s'.op (nextEntry s'.op) := SamePlans.of_entries rfl rfl
  refine ⟨h.plans.trans (hplans.trans hstays), fun k => ?_, fun hne k => ?_,
    fun k hk hkind hcre => ?_, fun _ => ?_, fun hopen => ?_⟩
  · show (s'.op.entry k).applied = false
    by_cases hk : k = s.op.entryIndex
    · rw [hk]
      exact happ
    · rw [hframe.other k hk]
      exact h.applied k
  · have hne : s.op.conflictPolicy ≠ .replace := by
      rw [← hplans.policy]
      exact hne
    show (s'.op.entry k).replacementState = .none
    by_cases hk : k = s.op.entryIndex
    · rw [hk]
      exact hrepl hne
    · rw [hframe.other k hk]
      exact h.replaced hne k
  · rw [hnext] at hk
    rcases Nat.lt_succ_iff_lt_or_eq.mp hk with hlt | rfl
    · have hsame : s'.op.entry k = s.op.entry k := hframe.other k (Nat.ne_of_lt hlt)
      have hkind : (s'.op.entry k).kind = .file := hkind
      have hcre : (s'.op.entry k).created = true := hcre
      rw [hsame] at hkind hcre
      refine (h.delivered k hlt hkind hcre).keep (hplans.plan k) (congrArg _ hsame) hlog
        fun id hid => ⟨hcontent id hid, fun hopen => ?_⟩
      have hopen : s'.op.fileOpen = true := hopen
      rw [hclosed'] at hopen
      cases hopen
    · exact hent hkind hcre
  · show s'.op.completedBytes = (nextEntry s'.op).bytesBefore (nextEntry s'.op).entryIndex
    rw [hnext, hstays.bytesBefore, hplans.bytesBefore, hbytes]
    rfl
  have hopen : s'.op.fileOpen = true := hopen
  rw [hclosed'] at hopen
  cases hopen

theorem Data.creates (hclosed : s.op.fileOpen = false) (hkind : (s.op.entry s.op.entryIndex).kind ≠ .file)
    (hcreates : Creates id s.op.entryIndex M (seen view s) (seen view s')) (hkept : Kept view s s') :
    Data B view N₀ op₀ { s' with op := nextEntry s'.op } := by
  have hbytes : (s.op.entry s.op.entryIndex).bytes = 0 := by
    unfold Entry.bytes
    rw [if_neg hkind]
  refine h.next hcreates.only.frame hkept.record.samePlans hkept.seen_log
    ((hcreates.only.field (·.fileOpen)).trans hclosed)
    (fun id _ => congrFun hkept.content id) ?_ ?_ ?_ ?_
  · exact hcreates.applied.trans (h.applied _)
  · intro hne
    exact hcreates.replacement.trans (h.replaced hne _)
  · intro hfile
    rw [(hkept.record.plan _).kind] at hfile
    exact absurd hfile hkind
  · rw [hkept.record.completed, h.closed hclosed, hbytes, Nat.add_zero]

theorem Data.opens (hclosed : s.op.fileOpen = false) (hlt : s.op.entryIndex < s.op.entryCount)
    (hkind : (s.op.entry s.op.entryIndex).kind = .file)
    (hpersists : ∀ p id, N₀ p = some id → ∃ q, (view s.world).names q = some id)
    (hfile : OpenedFile B s.op.entryIndex (seen view s) (seen view s')) : Data B view N₀ op₀ s' := by
  obtain ⟨handle, src, bytes, _, hfree, hnamed, hbytes, hlength, hopened⟩ := hfile.opened
  have hbytes : (view s.world).content src = some bytes := hbytes
  have hsource : s'.op.sourceHandle = handle := hopened.source
  have hopen : s'.op.fileOpen = true := hopened.fileOpen
  have hfilled : (view s'.world).content
      = Function.update (view s.world).content s'.op.temporaryIdentity (some []) := hopened.content
  have htgt : (view s'.world).handles
      = Function.update (Function.update (view s.world).handles handle (some (src, 0)))
        s'.op.temporaryHandle (some (s'.op.temporaryIdentity, 0)) := hopened.handles
  have hent : ∀ k, s'.op.entry k = s.op.entry k := entry_of_entries hopened.entries
  have hidx : s'.op.entryIndex = s.op.entryIndex := congrArg Core.entryIndex hopened.core
  have hplans : SamePlans s.op s'.op :=
    SamePlans.of_entries (congrArg Core.conflictPolicy hopened.core) hopened.entries
  -- the temporary file is a new object
  have hnew : ∀ id, (view s.world).content id ≠ none → id ≠ s'.op.temporaryIdentity := by
    intro id hid heq
    rw [heq] at hid
    exact hid hopened.object
  have hcontent : ∀ id, (view s.world).content id ≠ none →
      (view s'.world).content id = (view s.world).content id := by
    intro id hid
    rw [hfilled, update_of_ne (hnew id hid)]
  have hlog : (seen view s).log ⊆ (seen view s').log := by
    rw [hopened.log]
    exact subset_append_left _ _
  have hhandles : s'.op.temporaryHandle ≠ s'.op.sourceHandle := by
    intro heq
    have hunused : Function.update (view s.world).handles handle (some (src, 0)) s'.op.temporaryHandle
        = none := hopened.target
    rw [heq, hsource] at hunused
    simp at hunused
  refine h.stay hidx hplans (fun k => ⟨_, hent k⟩) hlog
    (fun id hid => ⟨hcontent id hid.content, fun _ => hnew id hid.content⟩) (fun hnot => ?_) fun _ => ?_
  · rw [hopen] at hnot
    cases hnot
  have hsrc : (view s.world).content src ≠ none := by
    rw [hbytes]
    simp
  refine ⟨?_, ?_, ?_, src, bytes, 0, ?_, ?_⟩
  · rw [hidx, hplans.count]
    exact hlt
  · rw [hidx, hent]
    exact hkind
  · intro p hp
    obtain ⟨q, hq⟩ := hpersists p _ hp
    exact hopened.unnamed q hq
  · rw [hidx, hent]
    refine sourceOpened_seen.mp ⟨⟨.openRead (s.op.entry s.op.entryIndex).sourcePath,
      s.op.entryIndex, view s.world⟩, ?_, rfl, rfl, hnamed, hbytes⟩
    rw [hopened.log]
    exact mem_append_right _ (mem_singleton_self _)
  rw [hidx]
  refine ⟨hhandles, hnew src hsrc, ?_, ?_, (hcontent src hsrc).trans hbytes, ⟨[], ?_, ?_⟩, ?_, ?_⟩
  · rw [htgt, update_of_ne (Ne.symm hhandles), hsource]
    exact update_self ..
  · rw [htgt]
    exact update_self ..
  · rw [hfilled]
    exact update_self ..
  · rw [show s'.op.sparseOutputSized = false from hopened.sized]
    exact Copied.empty _ _
  · rw [hent]
    exact hlength
  · rw [show s'.op.completedBytes = s.op.completedBytes from hopened.completed, h.closed hclosed, hplans.bytesBefore, Nat.add_zero]

/-- A step after which the file is still open: more of it is there. -/
theorem Data.transfers {c : Nat} (hopen : s.op.fileOpen = true)
    (hsource : SourceOpened view s.log s.op.entryIndex (s.op.entry s.op.entryIndex).sourcePath src bytes)
    (hmoves : Transfers view s s') (hfile : OpenFile B view s.op.entryIndex src bytes c c c s') :
    Data B view N₀ op₀ s' := by
  have hopened := h.opened hopen
  have hent : ∀ k, s'.op.entry k = s.op.entry k := entry_of_entries hmoves.entries
  have hidx : s'.op.entryIndex = s.op.entryIndex := congrArg Core.entryIndex hmoves.core
  have hplans : SamePlans s.op s'.op :=
    SamePlans.of_entries (congrArg Core.conflictPolicy hmoves.core) hmoves.entries
  refine h.stay hidx hplans (fun k => ⟨_, hent k⟩)
    (map_subset _ (by rw [hmoves.log]; exact fun _ hx => hx))
    (fun id hid => ⟨hmoves.content id (hid.other hopen), fun _ => ?_⟩) (fun hnot => ?_)
    fun _ => ⟨?_, ?_, ?_, src, bytes, c, ?_, ?_⟩
  · rw [hmoves.identity]
    exact hid.other hopen
  · rw [hmoves.fileOpen, hopen] at hnot
    cases hnot
  · rw [hidx, hplans.count]
    exact hopened.index_lt
  · rw [hidx, hent]
    exact hopened.kind
  · rw [hmoves.identity]
    exact hopened.new
  · rw [hidx, hent, hmoves.log]
    exact hsource
  · rw [hidx]
    exact hfile

/-- The step that completes the file and publishes it: the entry is delivered. -/
theorem Data.publishes {s1 s2 : State W} {top : Names} {r : Result} (hopen : s.op.fileOpen = true)
    (hsource : SourceOpened view s.log s.op.entryIndex (s.op.entry s.op.entryIndex).sourcePath src bytes)
    (hsrc : (view s.world).content src = some bytes) (hobjects : src ≠ s.op.temporaryIdentity)
    (hmoves : Transfers view s s1) (hfilled : FilledFile B view s.op.entryIndex bytes s1)
    (hkept : Kept view s1 s2) (htransferred : Transferred s.op.entryIndex top (seen view s) r
      (seen view { s2 with op := nextEntry s2.op })) :
    Data B view N₀ op₀ { s2 with op := nextEntry s2.op } := by
  have hopened := h.opened hopen
  obtain ⟨_, hsteady | ⟨t1, t2, hsteady, hfin, heq⟩⟩ := htransferred
  · have hidx : s2.op.entryIndex + 1 = s.op.entryIndex := congrArg Core.entryIndex hsteady.core
    have hkeptIndex : s2.op.entryIndex = s1.op.entryIndex :=
      congrArg Core.entryIndex hkept.record.core
    have hmovesIndex : s1.op.entryIndex = s.op.entryIndex :=
      congrArg Core.entryIndex hmoves.core
    omega
  have hents : s2.op.entries = t2.op.entries := congrArg (·.op.entries) heq
  have hent : ∀ k, s2.op.entry k = t2.op.entry k := entry_of_entries hents
  have hclosed : s2.op.fileOpen = false := by
    have hsame : s2.op.fileOpen = t2.op.fileOpen := congrArg (·.op.fileOpen) heq
    rw [hsame]
    exact hfin.temp.fileOpen
  have hcur : s2.op.entry s.op.entryIndex = { s.op.entry s.op.entryIndex with
      created := true, objectIdentity := s.op.temporaryIdentity } := by
    rw [hent, hfin.entry, entry_of_entries hsteady.entries, hsteady.identity]
    rfl
  have hent1 : ∀ k, s1.op.entry k = s.op.entry k := entry_of_entries hmoves.entries
  have hplans : SamePlans s.op s2.op :=
    (SamePlans.of_entries (congrArg Core.conflictPolicy hmoves.core) hmoves.entries).trans
      hkept.record.samePlans
  have hframe : Frame s.op.entryIndex s.op s2.op := by
    refine ⟨hkept.record.core.trans hmoves.core, hplans.count, fun k hk => ?_⟩
    rw [hent, hfin.frame.other k hk, entry_of_entries hsteady.entries]
    rfl
  have hlog : (seen view s).log ⊆ (seen view s2).log := by
    refine map_subset _ ?_
    rw [← hmoves.log]
    exact hkept.log
  have hcontent : ∀ id, id ≠ s.op.temporaryIdentity →
      (view s2.world).content id = (view s.world).content id := by
    intro id hid
    rw [hkept.content]
    exact hmoves.content id hid
  refine h.next hframe hplans hlog hclosed (fun id hid => hcontent id (hid.other hopen)) ?_ ?_ ?_ ?_
  · rw [hcur]
    exact h.applied _
  · intro hne
    rw [hcur]
    exact h.replaced hne _
  · intro _ _
    unfold Delivered
    rw [hcur]
    refine ⟨src, bytes, hsource.mono hlog, (hcontent src hobjects).trans hsrc, ?_, ?_, ?_,
      hopened.new, fun hnot => ?_⟩
    · show (view s2.world).content s.op.temporaryIdentity = _
      rw [hkept.content, ← hmoves.identity, hfilled.content, hent1]
    · have hle := hfilled.size_le
      rw [hent1] at hle
      exact hle
    · have hlen := hfilled.length
      rw [hent1] at hlen
      exact hlen
    · rw [hclosed] at hnot
      cases hnot
  rw [hkept.record.completed, hfilled.completed, hmoves.bytesBefore, hent1]
  unfold Entry.bytes
  rw [if_pos hopened.kind]

/-- A step on the open file: more of it is there, or it has been delivered. -/
theorem Data.advances {top : Names} {r : Result} (hopen : s.op.fileOpen = true)
    (hsource : SourceOpened view s.log s.op.entryIndex (s.op.entry s.op.entryIndex).sourcePath src bytes)
    (hsrc : (view s.world).content src = some bytes) (hobjects : src ≠ s.op.temporaryIdentity)
    (hadvances : Advances B view s.op.entryIndex src bytes s s')
    (htransferred : Transferred s.op.entryIndex top (seen view s) r (seen view s')) :
    Data B view N₀ op₀ s' := by
  rcases hadvances with ⟨c, hmoves, hfile⟩ | ⟨s1, s2, hmoves, hfilled, hkept, rfl⟩
  · exact h.transfers hopen hsource hmoves hfile
  · exact h.publishes hopen hsource hsrc hobjects hmoves hfilled hkept htransferred

theorem Data.fits (htotal : op₀.bytesBefore op₀.entryCount ≤ u64Max)
    (hlt : s.op.entryIndex < s.op.entryCount) :
    s.op.bytesBefore s.op.entryIndex + (s.op.entry s.op.entryIndex).bytes ≤ u64Max := by
  have hmono := s.op.bytesBefore_mono (i := s.op.entryIndex + 1) hlt
  rw [h.plans.bytesBefore s.op.entryCount, h.plans.count] at hmono
  exact Nat.le_trans hmono htotal

theorem copyOpenFile_delivers {M top : Names} (hB : Lawful view B)
    (htotal : op₀.bytesBefore op₀.entryCount ≤ u64Max) (htemp : OpenTemp s.op top (view s.world).names)
    (hrdy : Ready (s.op.entry s.op.entryIndex) M top) :
    wp (copyOpenFile B s.op.entryIndex) (fun _ => Data B view N₀ op₀) (fun _ _ => True) s := by
  obtain ⟨hlt, hkind, _, src, bytes, c, hsource, hfile⟩ := h.opened htemp.fileOpen
  have hfits := h.fits htotal hlt
  unfold Entry.bytes at hfits
  rw [if_pos hkind] at hfits
  have hrule := (copyOpenFile_rule hB.watched (a := seen view s) hlt htemp hrdy).run
  refine wp_mono (wp_and (copyOpenFile_data hB rfl hfile hfits) hrule) ?_
    (fun _ _ _ => trivial)
  rintro r s' ⟨hadvances, htransferred⟩
  exact h.advances htemp.fileOpen hsource hfile.sourceBytes hfile.objects hadvances htransferred

theorem startEntry_delivers (hB : Lawful view B) (htotal : op₀.bytesBefore op₀.entryCount ≤ u64Max)
    (hcopy : s.op.operation = .copy) (hlt : s.op.entryIndex < s.op.entryCount)
    (hbelow : Below N₀ s.op.entryIndex s.op M) (htemp : NoTemp s.op)
    (hrdy : Ready (s.op.entry s.op.entryIndex) M (view s.world).names) :
    wp (startEntry B s.op.entryIndex) (fun _ => Data B view N₀ op₀) (fun _ _ => True) s := by
  unfold startEntry
  simp only [wp_bind, wp_getOp, wp_ite, wp_pure]
  refine wp_mono (wp_and (conflict_rule hB ⟨hlt, htemp, hrdy⟩) (conflict_kept hB _ s (Kept.refl s)))
    ?_ (fun _ _ _ => trivial)
  rintro _ s1 ⟨h1, hkept1⟩
  have hdata1 := h.cleared htemp.fileOpen h1 hkept1
  refine ⟨fun _ => hdata1, fun hskip => ?_⟩
  have hframe1 := h1.only.frame
  have htemp1 := htemp.entryOnly h1.only
  have hidx1 : s1.op.entryIndex = s.op.entryIndex := congrArg Core.entryIndex hframe1.core
  have hmiss := h1.missing (by simpa using hskip)
  have hrdy1 := h1.ready
  have hbelow1 := hbelow.frame hframe1
  have hlt1 : s1.op.entryIndex < s1.op.entryCount := by
    rw [hidx1, hframe1.count]
    exact hlt
  rw [← hidx1] at hmiss hrdy1 hbelow1 ⊢
  -- an entry without contents
  have hcreate : (s1.op.entry s1.op.entryIndex).kind ≠ .file →
      ∀ create : Exec Result (State W) Unit,
      Shows (blind view).watch create (fun _ => Creates id s1.op.entryIndex M (seen view s1))
        (Fails id s1.op.entryIndex M s1.op) (seen view s1) →
      Keeps (Kept view s1) Negative create →
      wp (finishEntry create) (fun _ => Data B view N₀ op₀) (fun _ _ => True) s1 := by
    intro hkind create hrule hkeeps
    rw [wp_finishEntry]
    refine wp_mono (wp_and hrule.run (hkeeps s1 (Kept.refl s1))) ?_ (fun _ _ _ => trivial)
    rintro _ s2 ⟨h2, hkept2⟩
    exact hdata1.creates htemp1.fileOpen hkind h2 hkept2
  cases hkind : (s1.op.entry s1.op.entryIndex).kind with
  | directory =>
    refine hcreate (by rw [hkind]; decide) _ ?_ (createDirectory_kept hB _)
    exact createDirectory_rule hB.watched ⟨⟨hlt1, htemp1, hrdy1⟩, hmiss⟩
  | symlink =>
    refine hcreate (by rw [hkind]; decide) _ ?_ (createSymlink_kept hB _)
    exact createSymlink_rule hB.watched ⟨⟨hlt1, htemp1, hrdy1⟩, hmiss⟩
  | hardlink =>
    refine hcreate (by rw [hkind]; decide) _ ?_ (createHardlink_kept hB _)
    exact createHardlink_rule hB.watched ⟨⟨hlt1, htemp1, hrdy1⟩, hmiss⟩
  | file =>
    have hcopy1 : s1.op.operation = .copy := (congrArg Core.operation hframe1.core).trans hcopy
    have hopen := (openCopy_rule hB.watched (a := seen view s1) hcopy1 htemp1 hrdy1).run
    rw [wp_bind]
    refine wp_mono hopen ?_ (fun _ _ _ => trivial)
    intro _ s2 h2
    have hdata2 : Data B view N₀ op₀ s2 := by
      refine hdata1.opens htemp1.fileOpen hlt1 hkind (fun p id hp => ?_) h2
      obtain ⟨q, hq⟩ := stack_persists hdata1.applied hbelow1.stack hp
      exact hrdy1.replaced.persists hq
    obtain ⟨_, _, _, _, _, _, _, _, hopened⟩ := h2.opened
    have hidx2 : s2.op.entryIndex = s1.op.entryIndex := congrArg Core.entryIndex hopened.core
    have hrdy2 : Ready (s2.op.entry s2.op.entryIndex) M (view s1.world).names := by
      rw [hidx2, show s2.op.entry s1.op.entryIndex = s1.op.entry s1.op.entryIndex from
        entry_of_entries hopened.entries _]
      exact hrdy1
    rw [← hidx2]
    exact copyOpenFile_delivers hdata2 hB htotal (h2.openTemp hcopy1) hrdy2

theorem skipEntry_delivers {M top : Names} (hclosed : s.op.fileOpen = false)
    (hrdy : Ready (s.op.entry s.op.entryIndex) M top) :
    wp (skipEntry s.op.entryIndex) (fun _ => Data B view N₀ op₀) (fun _ _ => True) s := by
  have hbytes := h.closed hclosed
  -- whatever is added to the count, the entry itself has created nothing
  have hnext : ∀ n, n = (s.op.entry s.op.entryIndex).bytes → Data B view N₀ op₀
      ⟨nextEntry { s.op with completedBytes := s.op.completedBytes + n }, s.world, s.log⟩ := by
    intro n hn
    set s1 : State W := ⟨{ s.op with completedBytes := s.op.completedBytes + n }, s.world, s.log⟩
      with hs1
    have hstays : SamePlans s.op s1.op := SamePlans.of_entries rfl rfl
    have hframe : Frame s.op.entryIndex s.op s1.op := Frame.of_entries rfl rfl
    refine h.next hframe hstays (fun _ hx => hx) hclosed (fun _ _ => rfl) (h.applied _)
      (fun hne => h.replaced hne _) ?_ ?_
    · intro _ hcre
      have hcre : (s.op.entry s.op.entryIndex).created = true := hcre
      rw [hrdy.created] at hcre
      cases hcre
    · show s.op.completedBytes + n = _
      rw [hbytes, hn]
  unfold skipEntry skipBytes
  simp only [wp_bind, wp_getOp, wp_when, wp_require, wp_update, wp_pure]
  unfold Entry.bytes at hnext
  refine ⟨fun hfile => ⟨fun _ => ?_, fun _ => trivial⟩, fun hfile => ?_⟩
  · exact hnext _ (by rw [if_pos hfile])
  · exact hnext 0 (by rw [if_neg hfile])

end

/-- The entry at hand is not skipped while its file is open. -/
def OpenNotSkipped (s : State W) : Prop :=
  s.op.fileOpen = true → skipped s.op s.op.entryIndex = false

/-- **A forward step of a copy** keeps the bytes in order. -/
theorem forwardCopy_delivers (hB : Lawful view B) (htotal : op₀.bytesBefore op₀.entryCount ≤ u64Max)
    (hgoing : Going view N₀ s) (h : Data B view N₀ op₀ s) (hcopy : s.op.operation = .copy)
    (hskip : OpenNotSkipped s) : wp (forwardCopy B) (fun r s' => r = .inProgress → Data B view N₀ op₀ s')
      (fun _ _ => True) s := by
  obtain ⟨M, top, hbelow, hrdy, htemp⟩ := hgoing.layers
  unfold forwardCopy
  simp only [wp_bind, wp_getOp, wp_ite, wp_update, wp_pure, wp_require]
  refine ⟨fun _ => ?_, fun hlt => ⟨fun hskipped => ?_, fun _ => ⟨fun _ => ⟨fun hopen => ?_,
    fun hopen => ?_⟩, fun _ => trivial⟩⟩⟩
  · exact wp_mono (finishDirectories_rule hB.watched (a := seen view s) (Q := fun _ _ => True)
      (E := fun _ _ => True) (fun _ _ => trivial) trivial _).run (fun _ _ _ h => by cases h) fun _ _ _ => trivial
  · have hclosed : s.op.fileOpen = false := by
      cases hopen : s.op.fileOpen with
      | false => rfl
      | true =>
        rw [hskip hopen] at hskipped
        cases hskipped
    exact wp_mono (skipEntry_delivers h hclosed hrdy)
      (fun _ _ hdata _ => hdata) (fun _ _ h => h)
  · have hopen : OpenTemp s.op top (view s.world).names := by
      rcases htemp with ⟨hno, _⟩ | hopen'
      · rw [hno.fileOpen] at hopen
        cases hopen
      · exact hopen'
    exact wp_mono (copyOpenFile_delivers h hB htotal hopen hrdy)
      (fun _ _ hdata _ => hdata) (fun _ _ h => h)
  have hno : NoTemp s.op ∧ (view s.world).names = top := by
    rcases htemp with hno | hopen'
    · exact hno
    · exact absurd hopen'.fileOpen hopen
  rw [← hno.2] at hrdy
  exact wp_mono (startEntry_delivers h hB htotal hcopy (by omega) hbelow hno.1 hrdy)
    (fun _ _ hdata _ => hdata) (fun _ _ h => h)

/-! ## §5. Runs. -/

/-- The steps of a copy, as far as its bytes are concerned; a rollback is of no interest here. -/
theorem copy_data_undoable (hB : Lawful view B) (N₀ : Names) (op₀ : Operation)
    (htotal : op₀.bytesBefore op₀.entryCount ≤ u64Max) :
    Undoable B view .copy (fun s => Going view N₀ s ∧ Data B view N₀ op₀ s) (fun _ => True)
      (fun _ => True) OpenNotSkipped (fun _ => True) where
  kind_ne := by decide
  forward s hkind h hskip := by
    refine wp_mono (wp_and (forwardCopy_rule hB h.1 hkind)
      (forwardCopy_delivers hB htotal h.1 h.2 hkind hskip)) ?_ ?_
    · rintro r s' ⟨⟨hr, hcont⟩ | ⟨hr, hcompl⟩, hdata⟩
      · exact .inl ⟨hr, ⟨hcont.going, hdata hr⟩, hcont.run⟩
      · exact .inr ⟨hr, hcompl, trivial⟩
    · rintro r s' ⟨hstops, _⟩
      exact ⟨hstops.negative, hstops.core, fun _ _ => trivial⟩
  rollback s _ := by
    refine wp_mono (rollbackStep_kept hB s (Kept.refl s)) ?_ ?_
    · intro _ s' hkept
      exact ⟨trivial, hkept.record.core, fun _ => trivial⟩
    · rintro _ s' ⟨_, hkept⟩
      exact ⟨trivial, hkept.record.core⟩
  roll_retry _ _ := trivial
  roll_flags _ _ _ _ _ _ := trivial
  fwd_flags s a b c d h := ⟨h.1.withFlags a b c d, h.2.withFlags a b c d⟩
  done_flags _ _ _ _ _ _ := trivial
  done_ended _ _ := trivial
  roll_skip _ _ _ _ := trivial
  fwd_skip s i skip h := ⟨h.1.withSkip i skip, h.2.withSkip i skip⟩
  ended_skip _ _ _ _ := trivial

theorem Started.data {policy : ConflictPolicy} {plan : List Entry} {op : Operation}
    (h : Started .copy policy plan op) (w : W) : Data B view (view w).names op ⟨op, w, []⟩ := by
  obtain ⟨total, hop⟩ := h.record
  have hidx : op.entryIndex = 0 := by rw [hop]; rfl
  have hopen : op.fileOpen = false := by rw [hop]; rfl
  refine ⟨SamePlans.refl _, fun k => (h.fresh k).applied, fun _ k => (h.fresh k).replacement,
    fun k hk => ?_, fun _ => ?_, fun hnot => ?_⟩
  · rw [hidx] at hk
    exact absurd hk (Nat.not_lt_zero k)
  · show op.completedBytes = op.bytesBefore op.entryIndex
    rw [hidx, hop]
    rfl
  rw [hopen] at hnot
  cases hnot

/-- No later entry of the plan has a destination that an earlier one is at or under. -/
def DestinationsApart (plan : List Entry) : Prop :=
  ∀ j < plan.length, ∀ k < j, ¬ Under slash (plan.getD j Entry.zero).destinationPath
    (plan.getD k Entry.zero).destinationPath

/-- The source of an entry has the planned size when it is opened, unless the backend can tell. -/
def SizesAsPlanned (B : Backend W) (view : W → View) (plan : List Entry) (log : List (Event W)) :
    Prop :=
  B.sparse.isSome = true ∨ ∀ event ∈ log, ∀ path id bytes, event.call = .openRead path →
    (view event.world).names path = some id → (view event.world).content id = some bytes →
    bytes.length = (plan.getD event.entryIndex Entry.zero).sizeBytes

/-- The entries of a record with the plan of an accepted operation. -/
theorem Started.plans {policy : ConflictPolicy} {plan : List Entry} {op op' : Operation}
    (h : Started .copy policy plan op) (hplans : SamePlans op op') :
    op'.conflictPolicy = policy ∧ op'.entryCount = plan.length ∧
    (∀ k, SamePlan (plan.getD k Entry.zero) (op'.entry k)) ∧ (policy ≠ .rename → ∀ k,
      (op'.entry k).destinationPath = (plan.getD k Entry.zero).destinationPath) := by
  obtain ⟨total, hop⟩ := h.record
  have hpol : op.conflictPolicy = policy := by rw [hop]; rfl
  have hent : ∀ k, op.entry k = snapshotEntry (plan.getD k Entry.zero) := by
    intro k
    rw [hop, entry_startRecord]
  refine ⟨hplans.policy.trans hpol, hplans.count.trans h.count, fun k => ?_, fun hne k => ?_⟩
  · have hsnapshot : SamePlan (plan.getD k Entry.zero) (op.entry k) := by
      rw [hent k]
      exact ⟨rfl, rfl, rfl, rfl⟩
    exact hsnapshot.trans (hplans.plan k)
  · rw [hplans.destination (by rw [hpol]; exact hne) k, hent k]
    rfl

/-- **What a completed copy has delivered.** In every run in which no entry is skipped while its file
is open, a pump that reports `COMPLETED` leaves every created file with the bytes its own source had
when it was opened; nothing but the created objects is new, each at its destination, and no temporary
file remains. Under `REPLACE` no later destination may contain an earlier one, and a backend that
cannot tell sizes must open sources of the planned size. -/
theorem copy_delivers (hB : Lawful view B) {policy : ConflictPolicy} {plan : List Entry}
    {memory : Bool} {op : Operation} {w : W}
    (hstart : start B operationInit .copy policy plan memory = (.inProgress, op))
    (hapart : policy = .replace → DestinationsApart plan)
    (hreach : Reaches B (fun command s => command = .pump → GoesForward s → OpenNotSkipped s) ⟨op, w, []⟩ s)
    (hcond : GoesForward s → OpenNotSkipped s) (hres : (step B .pump s).1 = .completed)
    (hsizes : SizesAsPlanned B view plan (step B .pump s).2.log) :
    (∀ k < plan.length, (plan.getD k Entry.zero).kind = .file →
      ((step B .pump s).2.op.entry k).created = true → ∃ src bytes id,
        SourceOpened view (step B .pump s).2.log k (plan.getD k Entry.zero).sourcePath src bytes ∧
        (view (step B .pump s).2.world).names ((step B .pump s).2.op.entry k).destinationPath = some id ∧
        (view (step B .pump s).2.world).content id = some bytes ∧ (∀ p, (view w).names p ≠ some id)) ∧
    (step B .pump s).2.op.temporaryCreated = false ∧
    ∀ p id, (view (step B .pump s).2.world).names p = some id → (∃ q, (view w).names q = some id) ∨
      ∃ k < plan.length, ((step B .pump s).2.op.entry k).created = true ∧
        p = ((step B .pump s).2.op.entry k).destinationPath ∧
        id = ((step B .pump s).2.op.entry k).objectIdentity := by
  have hstarted := start_accepts hstart
  have htotal : op.bytesBefore op.entryCount ≤ u64Max := by
    rw [hstarted.count]
    exact hstarted.bytes rfl
  have hU := copy_data_undoable hB (view w).names op htotal
  have hph := phase_of_reaches hB hU (fun s h hgoes => h rfl hgoes)
    (hstarted.phase ⟨hstarted.going w [], hstarted.data w⟩) hreach
  obtain ⟨⟨hgoing, hdata⟩, hcompl⟩ := completed_of_pump hB hU hph hcond hres
  obtain ⟨hpol, hcnt, hplan, hdestination⟩ := hstarted.plans hdata.plans
  -- the last pump only clears a flag
  set s' := (step B .pump s).2
  have hent : ∀ k, s'.op.entry k = s.op.entry k := entry_of_entries (by rw [hcompl.record])
  have hidx : s.op.entryIndex = plan.length := by
    rw [← hcnt]
    exact Nat.le_antisymm hgoing.index_le hcompl.done
  have hclosed : s.op.fileOpen = false := by
    cases hopen : s.op.fileOpen with
    | false => rfl
    | true => exact absurd (hdata.opened hopen).index_lt (Nat.not_lt.mpr hcompl.done)
  obtain ⟨M, top, hbelow, hrdy, ⟨hno, hnames⟩ | hopen⟩ := hgoing.layers
  case inr => rw [hopen.fileOpen] at hclosed; cases hclosed
  have htop : top = M := by
    rw [entry_of_count_le hcompl.done] at hrdy
    exact (OnlyReplaced.layer_iff ⟨rfl, rfl, identityHasToken_zero⟩).mp hrdy.layer
  have hstack := hbelow.stack
  rw [hidx] at hstack
  -- only `REPLACE` displaces, and then the destinations are apart
  have hseparate : ∀ j < plan.length, ∀ k < j, (s.op.entry j).replacementState = .none ∨
      ¬ Under slash (s.op.entry j).destinationPath (s.op.entry k).destinationPath := by
    intro j hj k hk
    by_cases hreplace : policy = .replace
    · refine .inr ?_
      have hne : policy ≠ .rename := by rw [hreplace]; decide
      rw [hdestination hne j, hdestination hne k]
      exact hapart hreplace j hj k hk
    · exact .inl (hdata.replaced (by rw [hpol]; exact hreplace) j)
  obtain ⟨hnamed, horigin⟩ := stack_named hdata.applied hstack hseparate
  rw [← htop, ← hnames] at hnamed horigin
  refine ⟨fun k hk hkind hcre => ?_, ?_, fun p id hp => ?_⟩
  · rw [hent k] at hcre ⊢
    have hfile : (s.op.entry k).kind = .file := (hplan k).kind.trans hkind
    obtain ⟨src, bytes, hsource, _, hobject, hle, hlength, hnew, _⟩ :=
      hdata.delivered k (by rw [hidx]; exact hk) hfile hcre
    rw [(hplan k).sourcePath] at hsource
    replace hsource := hsource.mono (by rw [hcompl.log]; exact fun _ hx => hx)
    have hsize : bytes.length = (s.op.entry k).sizeBytes := by
      rcases hsizes with hsparse | hplanned
      · exact hlength hsparse
      obtain ⟨event, hmem, hcall, hevent, hsrc, hbytes⟩ := hsource
      rw [hplanned event hmem _ src bytes hcall hsrc hbytes, hevent]
      exact (hplan k).sizeBytes.symm
    refine ⟨src, bytes, (s.op.entry k).objectIdentity, hsource, ?_, ?_, hnew⟩
    · rw [hcompl.view]
      exact hnamed k hk hcre
    · rw [hcompl.view, hobject, List.take_of_length_le (Nat.le_of_eq hsize)]
  · rw [hcompl.record]
    exact hno.created
  rw [hcompl.view] at hp
  rcases horigin p id hp with hold | ⟨k, hk, hcre, hdest, hid⟩
  · exact .inl hold
  refine .inr ⟨k, hk, ?_⟩
  rw [hent k]
  exact ⟨hcre, hdest, hid⟩

end

/-! ## An entry skipped while its file is open, and a run without. -/

/-- The files `/a` and `/b`, of one byte each. -/
def copyDisk : Disk :=
  Disk.of [(pathOf 0x61, plainObject 1), (pathOf 0x62, plainObject 2)]
    [(plainObject 1, [1]), (plainObject 2, [2])]

/-- Copy `/a` to `/c` and `/b` to `/d`. -/
def copyPlan : List Entry :=
  [planEntry .file (pathOf 0x61) (pathOf 0x63) 1, planEntry .file (pathOf 0x62) (pathOf 0x64) 1]

/-- The record of the accepted plan. -/
def copyStart : Operation :=
  (start sureDisk operationInit .copy .fail copyPlan true).2

/-- **The bytes of another file.** `/a` has been opened and its byte copied when its entry is marked
`SKIP`. The next pump goes on to `/b` with the files of `/a` still open, and publishes the copy of
`/a` as `/d`: the operation reports `COMPLETED`, and the created `/d` holds the byte of `/a`. -/
theorem copy_delivers_other : Lawful Disk.view sureDisk ∧
    start sureDisk operationInit .copy .fail copyPlan true = (.inProgress, copyStart) ∧
    (runCommands sureDisk [.pump, .setSkip 0 true, .pump, .pump, .pump]
      ⟨copyStart, copyDisk, []⟩).1 = [.inProgress, .ok, .inProgress, .inProgress, .completed] ∧
    ((runCommands sureDisk [.pump, .setSkip 0 true, .pump, .pump, .pump]
      ⟨copyStart, copyDisk, []⟩).2.op.entry 1).created = true ∧
    ((runCommands sureDisk [.pump, .setSkip 0 true, .pump, .pump, .pump]
      ⟨copyStart, copyDisk, []⟩).2.op.entry 1).skip = false ∧
    (((runCommands sureDisk [.pump, .setSkip 0 true, .pump, .pump, .pump]
      ⟨copyStart, copyDisk, []⟩).2.world.view.names (pathOf 0x64)).bind
        (runCommands sureDisk [.pump, .setSkip 0 true, .pump, .pump, .pump]
          ⟨copyStart, copyDisk, []⟩).2.world.view.content) = some [1] ∧
    copyDisk.view.content (plainObject 2) = some [2] := by
  refine ⟨sureDisk_lawful, ?_, ?_, ?_, ?_, ?_, ?_⟩ <;> decide +kernel

/-- A recorded call opened nothing, or a file of the planned size. -/
def openedAsPlanned (plan : List Entry) (event : Event Disk) : Bool :=
  match event.call with
  | .openRead path => (event.world.view.names path).all fun id =>
      (event.world.view.content id).all fun bytes =>
        bytes.length == (plan.getD event.entryIndex Entry.zero).sizeBytes
  | .remove _ => true

/-- The run of a copy that nobody interferes with, up to its last pump. -/
def copyFinished : State Disk :=
  (runCommands sureDisk [.pump, .pump, .pump, .pump]
    ⟨copyStart, copyDisk, []⟩).2

/-- Left alone, the copy delivers both files. -/
theorem copy_delivers_both : (step sureDisk .pump copyFinished).1 = .completed ∧
    ∀ k < copyPlan.length, (copyPlan.getD k Entry.zero).kind = .file →
      ((step sureDisk .pump copyFinished).2.op.entry k).created = true →
      ∃ src bytes id, SourceOpened Disk.view (step sureDisk .pump copyFinished).2.log k
          (copyPlan.getD k Entry.zero).sourcePath src bytes ∧
        (Disk.view (step sureDisk .pump copyFinished).2.world).names
          ((step sureDisk .pump copyFinished).2.op.entry k).destinationPath = some id ∧
        (Disk.view (step sureDisk .pump copyFinished).2.world).content id
          = some bytes ∧ ∀ p, (Disk.view copyDisk).names p ≠ some id := by
  have hres : (step sureDisk .pump copyFinished).1 = .completed := by
    decide +kernel
  have hstart : start sureDisk operationInit .copy .fail copyPlan true
      = (.inProgress, copyStart) := by decide +kernel
  -- no entry is ever skipped
  have hskip : ∀ {s : State Disk}, skipped s.op s.op.entryIndex = false → OpenNotSkipped s :=
    fun h _ => h
  have hreach : Reaches sureDisk
      (fun command s => command = .pump → GoesForward s → OpenNotSkipped s)
      ⟨copyStart, copyDisk, []⟩ copyFinished := by
    refine reaches_runCommands _ _ .refl ⟨fun _ _ => hskip ?_, fun _ _ => hskip ?_,
      fun _ _ => hskip ?_, fun _ _ => hskip ?_, trivial⟩ <;> decide +kernel
  have hlast : OpenNotSkipped copyFinished := hskip (by decide +kernel)
  -- both files were opened at their planned size
  have hlog : (step sureDisk .pump copyFinished).2.log.all (openedAsPlanned copyPlan)
      = true := by decide +kernel
  have hsizes : SizesAsPlanned sureDisk Disk.view copyPlan
      (step sureDisk .pump copyFinished).2.log := by
    refine .inr fun event hmem path id bytes hcall hnamed hbytes => ?_
    have hopened := List.all_eq_true.mp hlog event hmem
    unfold openedAsPlanned at hopened
    rw [hcall] at hopened
    simpa [hnamed, hbytes] using hopened
  have hdelivered := copy_delivers sureDisk_lawful hstart
    (fun h => by cases h) hreach (fun _ => hlast) hres hsizes
  exact ⟨hres, hdelivered.1⟩

end RinRuntime.FileOperation

/-
FileOperation.Start — the plans `rinruntime_file_operation_start` accepts.

An accepted plan has valid paths and untouched entries, and the sizes of its files fit a 64-bit
counter. The record it is copied to is the state every run begins in.
-/
import RinRuntime.FileOperation.Runs

namespace RinRuntime.FileOperation
open Lib NameTree Layers List Except

/-! ## §1. The loop over the plan. -/

/-- What holds before a loop over indices and is kept by every round holds at its end. -/
theorem foldlM_range_inv {ε : Type} {f : Nat → Nat → Except ε Nat} (I : Nat → Nat → Prop) :
    ∀ {n start total : Nat}, I 0 start → (∀ k t t', k < n → I k t → f t k = .ok t' → I (k + 1) t') →
      (range n).foldlM (fun t k => f t k) start = .ok total → I n total
  | 0, start, total, h0, _, h => by
    have heq : start = total := ok.inj h
    rw [← heq]
    exact h0
  | n + 1, start, total, h0, hstep, h => by
    rw [range_succ, foldlM_append] at h
    cases hrest : (range n).foldlM (fun t k => f t k) start with
    | error e =>
      rw [hrest] at h
      cases h
    | ok t =>
      rw [hrest] at h
      have hlast : ([n].foldlM (fun t k => f t k) t : Except ε Nat) = .ok total := h
      have hI := foldlM_range_inv I h0 (fun k t t' hk => hstep k t t' (by omega)) hrest
      cases hfinal : f t n with
      | error e =>
        rw [foldlM_cons, hfinal] at hlast
        cases hlast
      | ok t' =>
        rw [foldlM_cons, hfinal] at hlast
        have heq : t' = total := ok.inj hlast
        rw [← heq]
        exact hstep n t t' (Nat.lt_succ_self n) hI hfinal

/-- A loop that fails has failed in one of its rounds. -/
theorem foldlM_error {ε α β : Type} {f : β → α → Except ε β} {e : ε} :
    ∀ {l : List α} {start : β}, l.foldlM f start = .error e → ∃ t k, f t k = .error e
  | [], _, h => by cases h
  | k :: rest, start, h => by
    rw [foldlM_cons] at h
    cases hfst : f start k with
    | error e' =>
      rw [hfst] at h
      have heq : e' = e := error.inj h
      exact ⟨start, k, by rw [hfst, heq]⟩
    | ok t =>
      rw [hfst] at h
      exact foldlM_error h

/-- The bytes an entry adds to the total of a copy. -/
def Entry.bytes (e : Entry) : Nat := if e.kind = .file then e.sizeBytes else 0

/-- The bytes of the files among the first `i` entries. -/
def Operation.bytesBefore (op : Operation) : Nat → Nat
  | 0 => 0
  | i + 1 => op.bytesBefore i + (op.entry i).bytes

/-- An entry that passed the tests of `start`. -/
structure Checked (kind : OperationKind) (e : Entry) : Prop where
  applied : e.applied = false
  created : e.created = false
  replacement : e.replacementState = .none
  source : pathValid e.sourcePath = true
  destination : kind ≠ .delete → pathValid e.destinationPath = true

theorem startEntryCheck_ok {kind : OperationKind} {plan : List Entry} {k t t' : Nat}
    (h : startEntryCheck kind plan k t = .ok t') : Checked kind (plan.getD k Entry.zero) ∧
    (kind = .copy → t' = t + (plan.getD k Entry.zero).bytes ∧ (t ≤ u64Max → t' ≤ u64Max)) := by
  unfold startEntryCheck at h
  set e := plan.getD k Entry.zero with he
  dsimp only at h
  split at h
  · cases h
  next hval =>
  split at h
  · cases h
  next hfresh =>
  simp only [not_or, ne_eq, Decidable.not_not, Bool.not_eq_true] at hfresh hval
  have hchecked : Checked kind e := by
    have hval : entryValid e kind = true := by simpa using hval
    unfold entryValid at hval
    simp only [Bool.and_eq_true, Bool.or_eq_true, beq_iff_eq] at hval
    refine ⟨hfresh.2.1, hfresh.1, hfresh.2.2.2.2.2.2.1, hval.1.1.1.1, fun hkind => ?_⟩
    rcases hval.1.1.1.2 with hdelete | hdest
    · exact absurd hdelete hkind
    · exact hdest
  refine ⟨hchecked, fun hcopy => ?_⟩
  rw [if_neg (by simp [hcopy])] at h
  unfold Entry.bytes
  split at h
  · cases h
  split at h
  · next hfile =>
    rw [if_pos hfile]
    split at h
    · cases h
    next hfits =>
      have heq : t + e.sizeBytes = t' := ok.inj h
      exact ⟨heq.symm, fun _ => by omega⟩
  next hfile =>
  rw [if_neg hfile]
  have hsame : t = t' := by
    split at h
    · split at h
      · cases h
      split at h
      · cases h
      · exact ok.inj h
    · exact ok.inj h
  rw [← hsame]
  exact ⟨rfl, fun ht => ht⟩

theorem startEntryCheck_error {kind : OperationKind} {plan : List Entry} {k t : Nat} {e : Result}
    (h : startEntryCheck kind plan k t = .error e) : e ≠ .inProgress := by
  intro he
  subst he
  unfold startEntryCheck at h
  dsimp only at h
  repeat' split at h
  all_goals cases h

/-! ## §2. Accepted plans. -/
section
variable {W : Type} {B : Backend W} {view : W → View} {kind : OperationKind}
  {policy : ConflictPolicy} {plan : List Entry} {memory : Bool} {op : Operation}

theorem entry_startRecord (op : Operation) (total k : Nat) :
    (startRecord op kind policy plan total).entry k = snapshotEntry (plan.getD k Entry.zero) := by
  show (plan.map snapshotEntry).getD k Entry.zero = _
  rw [getD_eq_getElem?_getD, getElem?_map, getD_eq_getElem?_getD]
  cases plan[k]? with
  | none => rfl
  | some e => rfl

/-- What `start` has checked when it accepts a plan. -/
structure Started (kind : OperationKind) (policy : ConflictPolicy) (plan : List Entry)
    (op : Operation) : Prop where
  record : ∃ total, op = startRecord operationInit kind policy plan total
  checked : ∀ k < plan.length, Checked kind (plan.getD k Entry.zero)
  bytes : kind = .copy → op.bytesBefore plan.length ≤ u64Max
  replace : policy = .replace → kind = .copy

theorem start_accepts (h : start B operationInit kind policy plan memory = (.inProgress, op)) :
    Started kind policy plan op := by
  unfold start at h
  rw [if_neg (by decide), if_neg (by decide)] at h
  split at h
  · cases h
  split at h
  · cases h
  next hrepl =>
  split at h
  · next result hfold =>
    obtain ⟨t, k, herror⟩ := foldlM_error hfold
    exact absurd (Prod.mk.inj h).1 (startEntryCheck_error herror)
  next total hfold =>
  split at h
  · cases h
  split at h
  · cases h
  have hop : op = startRecord operationInit kind policy plan total := (Prod.mk.inj h).2.symm
  refine ⟨⟨total, hop⟩, ?_, fun hcopy => ?_, fun hpol => ?_⟩
  · refine foldlM_range_inv (fun n _ => ∀ k < n, Checked kind (plan.getD k Entry.zero))
      (fun k hk => absurd hk (Nat.not_lt_zero k)) (fun k t t' _ hI hk j hj => ?_) hfold
    rcases Nat.lt_succ_iff_lt_or_eq.mp hj with hlt | rfl
    · exact hI j hlt
    · exact (startEntryCheck_ok hk).1
  · have hsum : total = op.bytesBefore plan.length ∧ total ≤ u64Max := by
      refine foldlM_range_inv (fun n t => t = op.bytesBefore n ∧ t ≤ u64Max)
        ⟨rfl, Nat.zero_le _⟩ (fun k t t' _ hI hk => ?_) hfold
      obtain ⟨heq, hle⟩ := (startEntryCheck_ok hk).2 hcopy
      have hbytes : (op.entry k).bytes = (plan.getD k Entry.zero).bytes := by
        rw [hop, entry_startRecord]
        rfl
      refine ⟨?_, hle hI.2⟩
      rw [heq, hI.1, Operation.bytesBefore, hbytes]
    rw [← hsum.1]
    exact hsum.2
  · by_contra hne
    exact hrepl ⟨hpol, Or.inl hne⟩

/-! ## §3. The first state of a run. -/
section
variable (h : Started kind policy plan op)
include h

/-- The entries of a new operation have not been started. -/
theorem Started.fresh (k : Nat) : Fresh (op.entry k) := by
  obtain ⟨total, hop⟩ := h.record
  rw [hop, entry_startRecord]
  by_cases hk : k < plan.length
  · have hchecked := h.checked k hk
    exact ⟨hchecked.applied, hchecked.created, rfl, rfl, hchecked.replacement⟩
  have hzero : plan.getD k Entry.zero = Entry.zero := by
    rw [getD_eq_getElem?_getD, getElem?_eq_none (Nat.le_of_not_lt hk)]
    rfl
  rw [hzero]
  exact fresh_zero

theorem Started.count : op.entryCount = plan.length := by
  obtain ⟨total, hop⟩ := h.record
  rw [hop]
  exact length_map ..

/-- **A run begins going forward**, with nothing on the names. -/
theorem Started.going (w : W) (log : List (Event W)) : Going view (view w).names ⟨op, w, log⟩ := by
  have hidx : op.entryIndex = 0 := by
    obtain ⟨total, hop⟩ := h.record
    rw [hop]
    rfl
  refine ⟨by rw [hidx]; exact Nat.zero_le _, (view w).names, (view w).names, ⟨?_, fun k _ => h.fresh k⟩,
    (h.fresh _).ready _, Or.inl ⟨?_, rfl⟩⟩
  · show Stack _ _ op.entryIndex _
    rw [hidx]
    rfl
  obtain ⟨total, hop⟩ := h.record
  rw [hop]
  exact ⟨rfl, rfl, rfl⟩

theorem Started.phase {Fwd Roll Ended : State W → Prop} {w : W} {log : List (Event W)}
    (hfwd : Fwd ⟨op, w, log⟩) : Phase kind Fwd Roll Ended ⟨op, w, log⟩ := by
  obtain ⟨total, hop⟩ := h.record
  refine .forward ?_ ?_ ?_ ?_ ?_ hfwd <;> rw [hop] <;> rfl

end

end
end RinRuntime.FileOperation

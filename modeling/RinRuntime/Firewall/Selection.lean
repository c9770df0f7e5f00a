/-
Firewall.Selection — what the two candidate loops of the evaluation select.

Both loops keep one winner for each of the four kinds of rule. `Selected` says what the winners are once
the cells of a set have been seen: for every kind, the matching rule that precedes all others. The table
scan reaches it for the cells it reads before its early exit (`selectLinear_selected`), the merge of two
sorted lists for every cell of the lists (`selectIndexed_selected`).
-/
import RinRuntime.Firewall.Evaluate
import RinRuntime.Lib.Winner

namespace RinRuntime.Firewall
open Lib List
variable {A : Abi}

/-! ## §1. The precedence order of the cells. -/

/-- The rule in cell `i` precedes the rule in cell `j`. -/
def CellPrecedes (set : RuleSet A) (i j : Nat) : Prop :=
  rulePrecedes (set.rule i) (set.rule j) = true

instance (set : RuleSet A) (i j : Nat) : Decidable (CellPrecedes set i j) := by
  unfold CellPrecedes; infer_instance

theorem rulePrecedes_iff {K : AbiConstants} (r s : Rule K) :
    rulePrecedes r s = true ↔ r.priority.toNat < s.priority.toNat ∨
      (r.priority.toNat = s.priority.toNat ∧ r.id.toNat < s.id.toNat) := by
  simp only [rulePrecedes, Bool.or_eq_true, Bool.and_eq_true, decide_eq_true_eq, beq_iff_eq,
    BitVec.lt_def, BitVec.toNat_inj]

theorem cellPrecedes_trans (set : RuleSet A) (i j k : Nat)
    (hij : CellPrecedes set i j) (hjk : CellPrecedes set j k) : CellPrecedes set i k := by
  unfold CellPrecedes at *
  rw [rulePrecedes_iff] at *
  omega

theorem cellPrecedes_asymm (set : RuleSet A) (i j : Nat)
    (hij : CellPrecedes set i j) : ¬ CellPrecedes set j i := by
  unfold CellPrecedes at *
  rw [rulePrecedes_iff] at *
  omega

/-- Two cells with different identifiers are ordered one way or the other. -/
theorem cellPrecedes_total (set : RuleSet A) {i j : Nat}
    (hid : (set.rule i).id ≠ (set.rule j).id) (h : ¬ CellPrecedes set i j) : CellPrecedes set j i := by
  have hne : (set.rule i).id.toNat ≠ (set.rule j).id.toNat := fun he => hid (BitVec.eq_of_toNat_eq he)
  unfold CellPrecedes at *
  rw [rulePrecedes_iff] at *
  omega

/-! ## §2. The selection of a set of cells. -/

/-- Cell `i` holds a rule of this kind that matches the packet. -/
def MatchesKind (set : RuleSet A) (packet : Packet A)
    (kind : RuleKind) (i : Nat) : Prop :=
  ruleMatches A (set.rule i) packet = true ∧ ruleKind (set.rule i) = kind

instance (set : RuleSet A) (packet : Packet A) (kind : RuleKind)
    (i : Nat) : Decidable (MatchesKind set packet kind i) := by
  unfold MatchesKind; infer_instance

/-- The cells of `seen` that compete for a kind. -/
def competitors (set : RuleSet A) (packet : Packet A)
    (seen : Set Nat) (kind : RuleKind) : Set Nat :=
  {i | i ∈ seen ∧ MatchesKind set packet kind i}

/-- `sel` holds the winner of every kind among the cells of `seen`. -/
def Selected (set : RuleSet A) (packet : Packet A) (seen : Set Nat)
    (sel : Selection) : Prop :=
  ∀ kind, Winner (CellPrecedes set) (competitors set packet seen kind) (sel kind)

section
variable {set : RuleSet A} {packet : Packet A}

variable {sel : Selection} {seen : Set Nat} {c : Nat} {kind : RuleKind}

theorem competitors_insert_of_not (h : ¬ MatchesKind set packet kind c) :
    competitors set packet (insert c seen) kind = competitors set packet seen kind :=
  Set.insert_inter_of_notMem h

theorem competitors_insert_of_matches (h : MatchesKind set packet kind c) :
    competitors set packet (insert c seen) kind = insert c (competitors set packet seen kind) :=
  Set.insert_inter_of_mem h

theorem Selected.empty : Selected set packet ∅ (fun _ => none) := by
  intro kind
  have hnone : competitors set packet ∅ kind = ∅ := Set.empty_inter _
  rw [hnone]
  exact Winner.empty

/-- A cell whose rule does not match leaves the selection as it is. -/
theorem Selected.skip (h : Selected set packet seen sel) (hc : ruleMatches A (set.rule c) packet = false) :
    Selected set packet (insert c seen) sel := by
  intro kind
  rw [competitors_insert_of_not (fun hm => by rw [hm.1] at hc; cases hc)]
  exact h kind

/-- Only the kind of the candidate is touched by `offer`. -/
theorem offer_of_ne {indexed : Bool}
    (h : kind ≠ ruleKind (set.rule c)) : offer set indexed sel c kind = sel kind := by
  cases hsel : sel (ruleKind (set.rule c)) with
  | none =>
    simp only [offer, hsel]
    exact Function.update_of_ne h _ _
  | some current =>
    simp only [offer, hsel]
    split_ifs
    · exact Function.update_of_ne h _ _
    · rfl

/-- **One step of either loop**: a matching candidate is offered to the winner of its kind. With
an index every cell seen before precedes the candidate. -/
theorem Selected.offer (h : Selected set packet seen sel)
    (indexed : Bool) (hc : ruleMatches A (set.rule c) packet = true)
    (hids : indexed = false → ∀ j ∈ seen, (set.rule c).id ≠ (set.rule j).id)
    (horder : indexed = true → ∀ j ∈ seen, CellPrecedes set j c) :
    Selected set packet (insert c seen) (offer set indexed sel c) := by
  intro kind
  by_cases hkind : kind = ruleKind (set.rule c)
  · subst hkind
    rw [competitors_insert_of_matches ⟨hc, rfl⟩]
    have hwin := h (ruleKind (set.rule c))
    cases hsel : sel (ruleKind (set.rule c)) with
    | none =>
      rw [hsel] at hwin
      simp only [Firewall.offer, hsel, Function.update_self]
      exact hwin.insert_none c
    | some current =>
      rw [hsel] at hwin
      have hseen : current ∈ seen := hwin.1.1
      by_cases hp : (!indexed && rulePrecedes (set.rule c) (set.rule current)) = true
      · simp only [Firewall.offer, hsel, if_pos hp, Function.update_self]
        rw [Bool.and_eq_true] at hp
        exact hwin.insert_replace (cellPrecedes_trans set) hp.2
      simp only [Firewall.offer, hsel, if_neg hp]
      refine hwin.insert_keep ?_
      cases indexed with
      | true => exact horder rfl current hseen
      | false =>
        exact cellPrecedes_total set (hids rfl current hseen)
          (fun hlt => hp (by simpa [CellPrecedes] using hlt))
  · rw [competitors_insert_of_not (fun hm => hkind hm.2.symm), offer_of_ne hkind]
    exact h kind

/-! ## §3. The table scan. -/

/-- Every kind has a match among the first `n` cells: the test of the early exit. -/
def FourKinds (set : RuleSet A) (packet : Packet A) (n : Nat) : Prop :=
  ∀ kind ∈ [RuleKind.bypass, .system, .guard, .regular], ∃ i < n, MatchesKind set packet kind i

instance (set : RuleSet A) (packet : Packet A) (n : Nat) :
    Decidable (FourKinds set packet n) := by
  unfold FourKinds; infer_instance

theorem Selected.full_iff {n : Nat}
    (h : Selected set packet {i | i < n} sel) : sel.full = true ↔ FourKinds set packet n := by
  have hsome : ∀ kind, (sel kind).isSome = true ↔ ∃ i < n, MatchesKind set packet kind i :=
    fun kind => (h kind).isSome_iff
  simp only [Selection.full, Bool.and_eq_true, hsome, FourKinds, forall_mem_cons,
    not_mem_nil, false_implies, implies_true, and_true, and_assoc]

theorem setOf_lt_succ (n : Nat) : {i | i < n + 1} = insert n {i | i < n} := by
  ext j
  simp only [Set.mem_ofPred_eq, Set.mem_insert_iff]
  omega

/-- The number of cells the table scan reads: all of them, or those up to the first that completes
the four kinds. -/
def ScanEnd (set : RuleSet A) (packet : Packet A) (n : Nat) : Prop :=
  n ≤ set.ruleCount.toNat ∧ (∀ m < n, ¬ FourKinds set packet m) ∧
    (n = set.ruleCount.toNat ∨ FourKinds set packet n)

theorem openUpTo_succ {k : Nat} (hopen : ∀ m ≤ k, ¬ FourKinds set packet m)
    (hnext : ¬ FourKinds set packet (k + 1)) : ∀ m ≤ k + 1, ¬ FourKinds set packet m := by
  intro m hm
  rcases Nat.of_le_succ hm with hle | rfl
  · exact hopen m hle
  · exact hnext

theorem selectLinear_from (hids : ∀ i j, i < j → j < set.ruleCount.toNat →
      (set.rule j).id ≠ (set.rule i).id) (rest k : Nat) (hk : k + rest = set.ruleCount.toNat)
    (sel : Selection) (hsel : Selected set packet {i | i < k} sel)
    (hopen : ∀ m ≤ k, ¬ FourKinds set packet m) : ∃ n, ScanEnd set packet n ∧
      Selected set packet {i | i < n} (selectLinear set packet sel (List.range' k rest)) := by
  induction rest generalizing k sel with
  | zero => exact ⟨k, ⟨by omega, fun m hm => hopen m (by omega), .inl (by omega)⟩, hsel⟩
  | succ rest ih =>
    rw [List.range'_succ, selectLinear]
    split
    · next hmatch =>
      have hnext := hsel.skip hmatch
      rw [← setOf_lt_succ] at hnext
      refine ih (k + 1) (by omega) sel hnext (openUpTo_succ hopen ?_)
      -- a cell that does not match completes nothing
      intro hfour
      exact hopen k (Nat.le_refl k) (hsel.full_iff.mp (hnext.full_iff.mpr hfour))
    next hmatch =>
    have hnext := hsel.offer false (by simpa using hmatch)
      (fun _ j hj => hids j k hj (by omega)) (fun h => by cases h)
    rw [← setOf_lt_succ] at hnext
    dsimp only
    split
    · next hfull =>
      exact ⟨k + 1, ⟨by omega, fun m hm => hopen m (by omega), .inr (hnext.full_iff.mp hfull)⟩, hnext⟩
    next hfull =>
    refine ih (k + 1) (by omega) _ hnext (openUpTo_succ hopen ?_)
    exact fun hfour => hfull (hnext.full_iff.mpr hfour)

/-- **The table scan** selects from the cells up to its early exit. -/
theorem selectLinear_selected (hids : ∀ i j, i < j → j < set.ruleCount.toNat →
      (set.rule j).id ≠ (set.rule i).id) : ∃ n, ScanEnd set packet n ∧ Selected set packet {i | i < n}
      (selectLinear set packet (fun _ => none) (List.range set.ruleCount.toNat)) := by
  rw [range_eq_range']
  have hnil : {i : Nat | i < 0} = ∅ := by
    ext j
    simp
  refine selectLinear_from hids set.ruleCount.toNat 0 (by omega) _ ?_ ?_
  · rw [hnil]
    exact Selected.empty
  intro m hm hfour
  obtain ⟨i, hi, -⟩ := hfour .bypass (by simp)
  omega

/-! ## §4. The merge of the two sorted lists. -/

/-- The test on a candidate of the index passes when the candidate is in range and the previous one
precedes it. -/
theorem candidateInOrder_head {previous : Option Nat} {list : List Nat}
    (hrange : ∀ x ∈ list, x < set.ruleCount.toNat)
    (hprev : ∀ j, previous = some j → ∀ x ∈ list, CellPrecedes set j x) :
    candidateInOrder set previous list.head? = true := by
  cases list with
  | nil => rfl
  | cons x rest =>
    have hx := hrange x mem_cons_self
    cases previous with
    | none => simp [candidateInOrder, hx]
    | some j =>
      have hjx := hprev j rfl x mem_cons_self
      simp only [CellPrecedes] at hjx
      simp [candidateInOrder, hx, hjx]

theorem Selected.considerIndexed
    (h : Selected set packet seen sel) (hbef : ∀ j ∈ seen, CellPrecedes set j c) :
    Selected set packet (insert c seen) (considerIndexed set packet sel c) := by
  unfold Firewall.considerIndexed
  split_ifs with hmatch
  · exact h.offer true hmatch (fun h => by cases h) (fun _ => hbef)
  · exact h.skip (by simpa using hmatch)

/-- The state of the merge: both lists are sorted and in range, every cell seen precedes every cell
still to come, and the two lists have no cell in common. -/
structure MergeState (set : RuleSet A) (packet : Packet A)
    (generic application : List Nat) (genericPrevious applicationPrevious : Option Nat)
    (seen : Set Nat) (sel : Selection) : Prop where
  generic_sorted : generic.Pairwise (CellPrecedes set)
  application_sorted : application.Pairwise (CellPrecedes set)
  generic_range : ∀ x ∈ generic, x < set.ruleCount.toNat
  application_range : ∀ x ∈ application, x < set.ruleCount.toNat
  disjoint : ∀ g ∈ generic, ∀ a ∈ application, g ≠ a
  seen_generic : ∀ j ∈ seen, ∀ x ∈ generic, CellPrecedes set j x
  seen_application : ∀ j ∈ seen, ∀ x ∈ application, CellPrecedes set j x
  generic_previous : ∀ j, genericPrevious = some j → j ∈ seen
  application_previous : ∀ j, applicationPrevious = some j → j ∈ seen
  selected : Selected set packet seen sel

section
variable {generic application : List Nat} {genericPrevious applicationPrevious : Option Nat}
  {seen : Set Nat} {sel : Selection} {g a : Nat}

theorem MergeState.takeGeneric
    (h : MergeState set packet (g :: generic) application genericPrevious applicationPrevious seen
      sel) (hfst : ∀ x ∈ application, CellPrecedes set g x) :
    MergeState set packet generic application (some g) applicationPrevious (insert g seen)
      (considerIndexed set packet sel g) where
  generic_sorted := (pairwise_cons.mp h.generic_sorted).2
  application_sorted := h.application_sorted
  generic_range := fun x hx => h.generic_range x (mem_cons_of_mem g hx)
  application_range := h.application_range
  disjoint := fun x hx => h.disjoint x (mem_cons_of_mem g hx)
  seen_generic := Set.forall_insert_of_forall
    (fun j hj x hx => h.seen_generic j hj x (mem_cons_of_mem g hx))
    (pairwise_cons.mp h.generic_sorted).1
  seen_application := Set.forall_insert_of_forall h.seen_application hfst
  generic_previous := by
    intro j hj
    rw [← Option.some.inj hj]
    exact Set.mem_insert g seen
  application_previous := fun j hj => Set.mem_insert_of_mem g (h.application_previous j hj)
  selected := h.selected.considerIndexed (fun j hj => h.seen_generic j hj g mem_cons_self)

/-- The two lists play the same part. -/
theorem MergeState.swap
    (h : MergeState set packet generic application genericPrevious applicationPrevious seen sel) :
    MergeState set packet application generic applicationPrevious genericPrevious seen sel where
  generic_sorted := h.application_sorted
  application_sorted := h.generic_sorted
  generic_range := h.application_range
  application_range := h.generic_range
  disjoint := fun x hx y hy he => h.disjoint y hy x hx he.symm
  seen_generic := h.seen_application
  seen_application := h.seen_generic
  generic_previous := h.application_previous
  application_previous := h.generic_previous
  selected := h.selected

theorem MergeState.takeApplication
    (h : MergeState set packet generic (a :: application) genericPrevious applicationPrevious seen
      sel) (hfst : ∀ x ∈ generic, CellPrecedes set a x) :
    MergeState set packet generic application genericPrevious (some a) (insert a seen)
      (considerIndexed set packet sel a) :=
  (h.swap.takeGeneric hfst).swap

/-- Neither head is refused. -/
theorem MergeState.inOrder
    (h : MergeState set packet generic application genericPrevious applicationPrevious seen sel) :
    candidateInOrder set genericPrevious generic.head? = true ∧
      candidateInOrder set applicationPrevious application.head? = true :=
  ⟨candidateInOrder_head h.generic_range (fun j hj x hx => h.seen_generic j (h.generic_previous j hj) x hx),
    candidateInOrder_head h.application_range
      (fun j hj x hx => h.seen_application j (h.application_previous j hj) x hx)⟩

end

theorem union_cons_generic (seen : Set Nat) (g : Nat) (generic application : List Nat) :
    seen ∪ {x | x ∈ g :: generic ∨ x ∈ application}
      = insert g seen ∪ {x | x ∈ generic ∨ x ∈ application} := by
  ext x
  simp only [Set.mem_union, Set.mem_insert_iff, Set.mem_ofPred_eq, mem_cons]
  tauto

theorem union_cons_application (seen : Set Nat) (a : Nat) (generic application : List Nat) :
    seen ∪ {x | x ∈ generic ∨ x ∈ a :: application}
      = insert a seen ∪ {x | x ∈ generic ∨ x ∈ application} := by
  ext x
  simp only [Set.mem_union, Set.mem_insert_iff, Set.mem_ofPred_eq, mem_cons]
  tauto

/-- What precedes the head of a sorted list precedes the whole list. -/
theorem CellPrecedes.all {i j : Nat} {rest : List Nat} (h : CellPrecedes set i j)
    (hsorted : (j :: rest).Pairwise (CellPrecedes set)) : ∀ x ∈ j :: rest, CellPrecedes set i x :=
  forall_mem_cons.mpr ⟨h, fun x hx =>
    cellPrecedes_trans set i j x h ((pairwise_cons.mp hsorted).1 x hx)⟩

/-- **The merge** never refuses a candidate, and selects from everything the two lists hold. -/
theorem selectIndexed_from (hids : ∀ i j, i < set.ruleCount.toNat → j < set.ruleCount.toNat →
      i ≠ j → (set.rule i).id ≠ (set.rule j).id) (iterations : Nat) :
    ∀ (generic application : List Nat) (genericPrevious applicationPrevious : Option Nat)
      (seen : Set Nat) (sel : Selection), generic.length + application.length ≤ iterations →
      MergeState set packet generic application genericPrevious applicationPrevious seen sel →
      ∃ sel', selectIndexed set packet iterations generic application genericPrevious
          applicationPrevious sel = some sel' ∧
        Selected set packet (seen ∪ {x | x ∈ generic ∨ x ∈ application}) sel' := by
  induction iterations with
  | zero =>
    intro generic application genericPrevious applicationPrevious seen sel hlen h
    obtain rfl : generic = [] := eq_nil_of_length_eq_zero (by omega)
    obtain rfl : application = [] := eq_nil_of_length_eq_zero (by omega)
    refine ⟨sel, rfl, ?_⟩
    simpa using h.selected
  | succ iterations ih =>
    intro generic application genericPrevious applicationPrevious seen sel hlen h
    obtain ⟨hgo, hao⟩ := h.inOrder
    unfold selectIndexed
    rw [if_neg (by simp [hgo]), if_neg (by simp [hao])]
    cases generic with
    | nil =>
      cases application with
      | nil =>
        refine ⟨sel, rfl, ?_⟩
        simpa using h.selected
      | cons a application =>
        rw [union_cons_application]
        exact ih [] application genericPrevious (some a) _ _
          (by simp only [length_cons, length_nil] at hlen ⊢; omega)
          (h.takeApplication fun x hx => absurd hx not_mem_nil)
    | cons g generic =>
      cases application with
      | nil =>
        rw [union_cons_generic]
        exact ih generic [] (some g) applicationPrevious _ _
          (by simp only [length_cons, length_nil] at hlen ⊢; omega)
          (h.takeGeneric fun x hx => absurd hx not_mem_nil)
      | cons a application =>
        simp only [length_cons] at hlen
        dsimp only
        split
        · -- the generic head precedes the application head, and so the whole list behind it
          next hga =>
          rw [union_cons_generic]
          exact ih generic (a :: application) (some g) applicationPrevious _ _
            (by simp only [length_cons]; omega)
            (h.takeGeneric (CellPrecedes.all hga h.application_sorted))
        next hga =>
        have hne : (set.rule g).id ≠ (set.rule a).id :=
          hids g a (h.generic_range g mem_cons_self) (h.application_range a mem_cons_self)
            (h.disjoint g mem_cons_self a mem_cons_self)
        have hag : CellPrecedes set a g := cellPrecedes_total set hne hga
        rw [union_cons_application]
        exact ih (g :: generic) application genericPrevious (some a) _ _
          (by simp only [length_cons]; omega) (h.takeApplication (hag.all h.generic_sorted))

end
end RinRuntime.Firewall

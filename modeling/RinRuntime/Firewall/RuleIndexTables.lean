/-
Firewall.RuleIndexTables — what the build stores in the three tables of the index.

  • §1: application identifiers compare like the numbers they spell in base 256;
  • §2: the application table is sorted and has one entry per application the rules name;
  • §3: the flat vector holds, behind every entry, the rules of that application in order;
  • §4: every bucket holds the rules of its cell in order;
  • §5: the guard mask has the bits of the directions with an enabled guard.
-/
import RinRuntime.Firewall.Selection

namespace RinRuntime.Firewall
open Lib
variable {A : Abi}

/-! ## §1. The order of application identifiers. -/

/-- The number an identifier spells, most significant byte first. -/
def applicationIdValue : List (BitVec 8) → Nat
  | [] => 0
  | byte :: rest => byte.toNat * 256 ^ rest.length + applicationIdValue rest

theorem applicationIdValue_lt (id : List (BitVec 8)) : applicationIdValue id < 256 ^ id.length := by
  induction id with
  | nil => simp [applicationIdValue]
  | cons byte rest ih =>
    have hbyte : byte.toNat + 1 ≤ 256 := byte.isLt
    have hmul := Nat.mul_le_mul_right (256 ^ rest.length) hbyte
    simp only [applicationIdValue, List.length_cons, Nat.pow_succ]
    rw [Nat.add_mul, Nat.one_mul] at hmul
    omega

/-- The byte-by-byte comparison compares the two numbers. -/
theorem applicationIdCompare_eq (left right : List (BitVec 8)) (h : left.length = right.length) :
    applicationIdCompare left right = compare (applicationIdValue left) (applicationIdValue right) := by
  induction left generalizing right with
  | nil =>
    obtain rfl : right = [] := List.eq_nil_of_length_eq_zero h.symm
    rfl
  | cons l lefts ih =>
    cases right with
    | nil => cases h
    | cons r rights =>
      have hlen : lefts.length = rights.length := by simpa using h
      have hl := applicationIdValue_lt lefts
      have hr := applicationIdValue_lt rights
      rw [hlen] at hl
      simp only [applicationIdCompare, applicationIdValue, hlen, BitVec.lt_def]
      -- the leading bytes decide unless they agree
      have hstep : ∀ a b x y : Nat, a < b → x < 256 ^ rights.length →
          a * 256 ^ rights.length + x < b * 256 ^ rights.length + y := by
        intro a b x y hab hx
        have hmul := Nat.mul_le_mul_right (256 ^ rights.length) (Nat.succ_le_of_lt hab)
        rw [Nat.succ_mul] at hmul
        omega
      split_ifs with hlt hgt
      · exact (Nat.compare_eq_lt.mpr (hstep _ _ _ _ hlt hl)).symm
      · exact (Nat.compare_eq_gt.mpr (hstep _ _ _ _ hgt hr)).symm
      have heq : l.toNat = r.toNat := by omega
      rw [ih rights hlen, heq, Nat.compare_eq_ite_le, Nat.compare_eq_ite_le]
      simp only [Nat.add_le_add_iff_left]

theorem applicationIdCompare_eq_iff (left right : List (BitVec 8))
    (h : left.length = right.length) : applicationIdCompare left right = .eq ↔ left = right := by
  induction left generalizing right with
  | nil =>
    obtain rfl : right = [] := List.eq_nil_of_length_eq_zero h.symm
    exact iff_of_true rfl rfl
  | cons l lefts ih =>
    cases right with
    | nil => cases h
    | cons r rights =>
      have hlen : lefts.length = rights.length := by simpa using h
      simp only [applicationIdCompare, List.cons.injEq, ← ih rights hlen, BitVec.lt_def]
      split_ifs with hlt hgt
      · exact iff_of_false (by decide) (fun he => by rw [he.1] at hlt; omega)
      · exact iff_of_false (by decide) (fun he => by rw [he.1] at hgt; omega)
      · have heq : l = r := BitVec.eq_of_toNat_eq (by omega)
        simp [heq]

/-! ## §2. The application table. -/
section
variable {K : AbiConstants}

/-- The number of the identifier of a table entry. -/
def ApplicationBucket.value (bucket : ApplicationBucket K) : Nat :=
  applicationIdValue bucket.applicationId.toList

/-- The table is sorted by identifier, without repetition. -/
def ApplicationsSorted (applications : List (ApplicationBucket K)) : Prop :=
  applications.Pairwise fun a b => a.value < b.value

theorem applicationIdCompare_bucket (applicationId : Vector (BitVec 8) K.applicationIdSize)
    (bucket : ApplicationBucket K) : applicationIdCompare applicationId.toList bucket.applicationId.toList
      = compare (applicationIdValue applicationId.toList) bucket.value :=
  applicationIdCompare_eq _ _ (by simp)

variable {applications : List (ApplicationBucket K)}

theorem applicationFind_spec (h : ApplicationsSorted applications)
    (applicationId : Vector (BitVec 8) K.applicationIdSize) : SortedTable.SearchSpec
      (fun bucket => applicationIdCompare applicationId.toList bucket.applicationId.toList)
      applications (applicationFind applications applicationId) := by
  apply SortedTable.search_whole
  refine h.imp ?_
  intro a b hab
  simp only [applicationIdCompare_bucket, ne_eq, Nat.compare_eq_lt, Nat.compare_eq_gt]
  omega

/-- The identifiers the table has an entry for. -/
def hasApplication (applications : List (ApplicationBucket K))
    (applicationId : Vector (BitVec 8) K.applicationIdSize) : Prop :=
  ∃ bucket ∈ applications, bucket.applicationId = applicationId

/-- The search finds the entry of an identifier the table has. -/
theorem applicationFind_of_has
    (h : ApplicationsSorted applications) {applicationId : Vector (BitVec 8) K.applicationIdSize}
    (hhas : hasApplication applications applicationId) :
    ∃ position bucket, applicationFind applications applicationId = (true, position) ∧
      applications[position]? = some bucket ∧ bucket.applicationId = applicationId := by
  have hspec := applicationFind_spec h applicationId
  rcases hfind : applicationFind applications applicationId with ⟨found, position⟩
  rw [hfind] at hspec
  cases found with
  | true =>
    obtain ⟨bucket, hget, hcmp⟩ := hspec
    rw [applicationIdCompare_eq_iff _ _ (by simp)] at hcmp
    exact ⟨position, bucket, rfl, hget, (Vector.toList_inj.mp hcmp).symm⟩
  | false =>
    -- the entry would have to lie on one side of the gap
    obtain ⟨-, hbelow, habove⟩ := hspec
    obtain ⟨bucket, hmem, rfl⟩ := hhas
    have hself : applicationIdCompare bucket.applicationId.toList bucket.applicationId.toList
        = .eq := (applicationIdCompare_eq_iff _ _ rfl).mpr rfl
    rw [← List.take_append_drop position applications, List.mem_append] at hmem
    rcases hmem with hmem | hmem
    · exact absurd (hself.symm.trans (hbelow bucket hmem)) (by decide)
    · exact absurd (hself.symm.trans (habove bucket hmem)) (by decide)

/-- The search finds nothing for an identifier the table does not have. -/
theorem applicationFind_of_not_has
    (h : ApplicationsSorted applications) {applicationId : Vector (BitVec 8) K.applicationIdSize}
    (hhas : ¬ hasApplication applications applicationId) :
    ∃ position, applicationFind applications applicationId = (false, position) ∧
      ApplicationsSorted (applications.take position ++ ⟨applicationId, 0, 0⟩ ::
        applications.drop position) := by
  have hspec := applicationFind_spec h applicationId
  rcases hfind : applicationFind applications applicationId with ⟨found, position⟩
  rw [hfind] at hspec
  cases found with
  | true =>
    obtain ⟨bucket, hget, hcmp⟩ := hspec
    rw [applicationIdCompare_eq_iff _ _ (by simp)] at hcmp
    exact absurd ⟨bucket, List.mem_of_getElem? hget, (Vector.toList_inj.mp hcmp).symm⟩ hhas
  | false =>
    obtain ⟨-, hbelow, habove⟩ := hspec
    simp only [applicationIdCompare_bucket, Nat.compare_eq_lt, Nat.compare_eq_gt] at hbelow habove
    refine ⟨position, rfl, ?_⟩
    refine List.pairwise_append.mpr ⟨h.sublist (List.take_sublist _ _),
      List.pairwise_cons.mpr ⟨habove, h.sublist (List.drop_sublist _ _)⟩, ?_⟩
    intro x hx y hy
    rcases List.mem_cons.mp hy with rfl | hy
    · exact hbelow x hx
    · exact Nat.lt_trans (hbelow x hx) (habove y hy)

theorem hasApplication_insert (applications : List (ApplicationBucket K)) (position : Nat)
    (applicationId id : Vector (BitVec 8) K.applicationIdSize) :
    hasApplication (applications.take position ++ ⟨applicationId, 0, 0⟩ ::
        applications.drop position) id ↔ hasApplication applications id ∨ applicationId = id := by
  have hmem : ∀ bucket, bucket ∈ applications.take position ++ ⟨applicationId, 0, 0⟩ ::
      applications.drop position ↔ bucket = ⟨applicationId, 0, 0⟩ ∨ bucket ∈ applications := by
    intro bucket
    rw [List.perm_middle.mem_iff, List.mem_cons, List.take_append_drop]
  simp only [hasApplication, hmem]
  constructor
  · rintro ⟨bucket, rfl | hb, he⟩
    · exact .inr he
    · exact .inl ⟨bucket, hb, he⟩
  rintro (⟨bucket, hb, he⟩ | he)
  · exact ⟨bucket, .inr hb, he⟩
  · exact ⟨_, .inl rfl, he⟩

/-- **The application table**: the grouping loop succeeds, keeps the table sorted, and adds an entry
for exactly the applications the rules name. -/
theorem groupApplications_ok (rules : List (Rule K)) (applications : List (ApplicationBucket K))
    (hsorted : ApplicationsSorted applications) (hroom : applications.length + rules.length ≤ K.maxRules) :
    ∃ groups, groupApplications applications rules = .ok groups ∧ ApplicationsSorted groups ∧
      groups.length ≤ applications.length + rules.length ∧
      ∀ id, hasApplication groups id ↔ hasApplication applications id ∨
        ∃ rule ∈ rules, rule.has .matchApplication = true ∧ rule.applicationId = id := by
  induction rules generalizing applications with
  | nil => exact ⟨applications, rfl, hsorted, Nat.le_refl _, fun id => by simp⟩
  | cons rule rest ih =>
    rw [List.length_cons] at hroom
    unfold groupApplications
    simp only [List.mem_cons, exists_eq_or_imp]
    split
    · next hmatch =>
      obtain ⟨groups, hrun, hs, hlen, hids⟩ := ih applications hsorted (by omega)
      exact ⟨groups, hrun, hs, by rw [List.length_cons]; omega, fun id => by simp [hids id, hmatch]⟩
    next hmatch =>
    rw [Bool.not_eq_false] at hmatch
    by_cases hhas : hasApplication applications rule.applicationId
    · obtain ⟨position, bucket, hfind, -, -⟩ := applicationFind_of_has hsorted hhas
      obtain ⟨groups, hrun, hs, hlen, hids⟩ := ih applications hsorted (by omega)
      refine ⟨groups, by rw [hfind]; exact hrun, hs, by rw [List.length_cons]; omega, fun id => ?_⟩
      -- the application of this rule is one the table has
      rw [hids id, ← or_assoc]
      exact or_congr_left (or_iff_left_of_imp fun h => h.2 ▸ hhas).symm
    obtain ⟨position, hfind, hins⟩ := applicationFind_of_not_has hsorted hhas
    have hlen' : (applications.take position ++ ⟨rule.applicationId, 0, 0⟩ ::
        applications.drop position).length = applications.length + 1 := by
      rw [List.perm_middle.length_eq, List.length_cons, List.take_append_drop]
    obtain ⟨groups, hrun, hs, hlen, hids⟩ := ih _ hins (by omega)
    refine ⟨groups, by rw [hfind]; simpa [Nat.not_le.mpr (show applications.length < K.maxRules
      by omega)] using hrun, hs, by rw [List.length_cons]; omega, fun id => ?_⟩
    rw [hids id, hasApplication_insert]
    simp only [hmatch, true_and, or_assoc]

end

/-! ## §3. The flat application vector. -/
section
variable {set : RuleSet A}

theorem not_cellPrecedes_self (set : RuleSet A) (i : Nat) : ¬ CellPrecedes set i i :=
  fun h => cellPrecedes_asymm set i i h h

variable {list : List Nat}

theorem nodup_of_sorted (h : list.Pairwise (CellPrecedes set)) : list.Nodup :=
  h.imp (fun {a b} hab he => by subst he; exact not_cellPrecedes_self set a hab)

/-- A list without repetition of numbers below `n` has at most `n` elements. -/
theorem length_le_of_nodup (h : list.Nodup) {n : Nat} (hlt : ∀ x ∈ list, x < n) : list.length ≤ n := by
  have hsub : list ⊆ List.range n := fun x hx => List.mem_range.mpr (hlt x hx)
  simpa using (List.subperm_of_subset h hsub).length_le

/-- The live rules have distinct identifiers, and a rule number fits 16 bits. -/
structure Indexable (set : RuleSet A) : Prop where
  ids : ∀ i j, i < set.ruleCount.toNat → j < set.ruleCount.toNat → i ≠ j →
    (set.rule i).id ≠ (set.rule j).id
  count : set.ruleCount.toNat ≤ A.maxRules

theorem Indexable.mod_eq (h : Indexable set) {i : Nat} (hi : i < set.ruleCount.toNat) : i % 2 ^ 16 = i :=
  Nat.mod_eq_of_lt (by have := h.count; have := A.maxRules_lt; omega)

/-- Inserting a cell that is not there yet keeps a list of cells sorted. -/
theorem Indexable.insertSorted_pairwise (h : Indexable set) {x : Nat}
    (hrange : ∀ y ∈ list, y < set.ruleCount.toNat) (hx : x < set.ruleCount.toNat)
    (hnew : x ∉ list) (hsorted : list.Pairwise (CellPrecedes set)) :
    (SortedTable.insertSorted (fun previous => rulePrecedes (set.rule x) (set.rule previous)) list 0
      x).Pairwise (CellPrecedes set) := by
  refine SortedTable.insertSorted_pairwise (cellPrecedes_trans set) ?_ ?_ hsorted
  · intro y _ hb
    exact hb
  intro y hy hb
  have hne : x ≠ y := fun he => hnew (he ▸ hy)
  exact cellPrecedes_total set (h.ids x y hx (hrange y hy) hne) (by simp [CellPrecedes, hb])

/-- The rule loop for one application appends the group, sorted. -/
theorem flattenGroup_eq (h : Indexable set) (applicationId : Vector (BitVec 8) A.applicationIdSize)
    (done positions group : List Nat) (hrange : ∀ x ∈ group ++ positions, x < set.ruleCount.toNat)
    (hnodup : (group ++ positions).Nodup) (hsorted : group.Pairwise (CellPrecedes set)) :
    ∃ group', flattenGroup set applicationId done.length (done ++ group) positions = done ++ group' ∧
      group'.Pairwise (CellPrecedes set) ∧
      group'.Perm (group ++ positions.filter fun x => inApplicationGroup applicationId (set.rule x)) := by
  induction positions generalizing group with
  | nil => exact ⟨group, rfl, hsorted, by simp⟩
  | cons position rest ih =>
    have hposition := hrange position (by simp)
    unfold flattenGroup
    split
    · next hin =>
      rw [h.mod_eq hposition, SortedTable.insertSorted_append, List.filter_cons, if_pos hin]
      -- the cell moves from the rest to its place in the group
      have hmove : ∀ tail, (SortedTable.insertSorted (fun previous =>
          rulePrecedes (set.rule position) (set.rule previous)) group 0 position ++ tail).Perm
          (group ++ position :: tail) := fun tail =>
        ((SortedTable.insertSorted_perm _ group 0 position).append_right tail).trans List.perm_middle.symm
      obtain ⟨group', hrun, hs, hperm⟩ := ih _
        (fun x hx => hrange x ((hmove rest).mem_iff.mp hx)) ((hmove rest).nodup_iff.mpr hnodup)
        (h.insertSorted_pairwise (fun x hx => hrange x (List.mem_append_left _ hx)) hposition
          (fun hx => List.disjoint_of_nodup_append hnodup hx List.mem_cons_self) hsorted)
      exact ⟨group', hrun, hs, hperm.trans (hmove _)⟩
    next hin =>
    have hsub : (group ++ rest).Sublist (group ++ position :: rest) :=
      (List.sublist_cons_self position rest).append_left group
    rw [List.filter_cons, if_neg hin]
    exact ih group (fun x hx => hrange x (hsub.subset hx)) (hnodup.sublist hsub) hsorted

/-- A sorted list of exactly the rules of one application. -/
def IsApplicationGroup (set : RuleSet A)
    (applicationId : Vector (BitVec 8) A.applicationIdSize) (list : List Nat) : Prop :=
  list.Pairwise (CellPrecedes set) ∧ ∀ x, x ∈ list ↔
    x < set.ruleCount.toNat ∧ inApplicationGroup applicationId (set.rule x) = true

/-- The extent of a table entry in the flat vector. -/
def ApplicationBucket.slice {K : AbiConstants} (bucket : ApplicationBucket K) (flat : List Nat) :
    List Nat :=
  (flat.drop bucket.firstRule).take bucket.ruleCount

theorem inApplicationGroup_iff {K : AbiConstants}
    {applicationId : Vector (BitVec 8) K.applicationIdSize} {rule : Rule K} :
    inApplicationGroup applicationId rule = true ↔
      rule.has .matchApplication = true ∧ rule.applicationId = applicationId := by
  simp only [inApplicationGroup, bytesEqual, Bool.and_eq_true, beq_iff_eq, Vector.toList_inj]

/-- **The flat vector**: every entry of the table gets the sorted group of its application, and no
cell is stored twice. -/
theorem flattenApplications_spec (h : Indexable set)
    (groups : List (ApplicationBucket A)) (indices : List Nat) :
    ∃ rest, (flattenApplications set groups indices).2 = indices ++ rest ∧
      (flattenApplications set groups indices).1.map (·.applicationId) = groups.map (·.applicationId) ∧
      (∀ bucket ∈ (flattenApplications set groups indices).1,
        bucket.firstRule + bucket.ruleCount ≤ (indices ++ rest).length ∧
        IsApplicationGroup set bucket.applicationId (bucket.slice (indices ++ rest))) ∧
      (∀ x ∈ rest, x < set.ruleCount.toNat ∧
        ∃ bucket ∈ groups, inApplicationGroup bucket.applicationId (set.rule x) = true) ∧
      ((groups.map (·.applicationId)).Nodup → rest.Nodup) := by
  induction groups generalizing indices with
  | nil => exact ⟨[], by simp [flattenApplications]⟩
  | cons application groups ih =>
    obtain ⟨group, hrun, hsorted, hperm⟩ := flattenGroup_eq h application.applicationId indices
      (List.range set.ruleCount.toNat) [] (fun x hx => List.mem_range.mp hx) List.nodup_range
      List.Pairwise.nil
    rw [List.append_nil] at hrun
    have hgroup : IsApplicationGroup set application.applicationId group :=
      ⟨hsorted, fun x => by rw [hperm.mem_iff]; simp⟩
    obtain ⟨rest, hflat, hids, hslices, hrest, hnodup⟩ := ih (indices ++ group)
    simp only [flattenApplications, hrun]
    rw [List.append_assoc] at hflat hslices
    refine ⟨group ++ rest, hflat, by simp [hids], ?_, ?_, ?_⟩
    · intro bucket hbucket
      rcases List.mem_cons.mp hbucket with rfl | hbucket
      · -- the extent of the first entry is the group just appended
        have hslice : (ApplicationBucket.mk application.applicationId indices.length
            ((indices ++ group).length - indices.length)).slice (indices ++ (group ++ rest))
            = group := by
          simp [ApplicationBucket.slice]
        rw [hslice]
        exact ⟨by simp only [List.length_append]; omega, hgroup⟩
      · exact hslices bucket hbucket
    · intro x hx
      rcases List.mem_append.mp hx with hx | hx
      · exact ⟨((hgroup.2 x).mp hx).1, application, List.mem_cons_self, ((hgroup.2 x).mp hx).2⟩
      · obtain ⟨hlt, bucket, hb, hin⟩ := hrest x hx
        exact ⟨hlt, bucket, List.mem_cons_of_mem _ hb, hin⟩
    intro hn
    rw [List.map_cons, List.nodup_cons] at hn
    refine List.nodup_append.mpr ⟨nodup_of_sorted hsorted, hnodup hn.2, ?_⟩
    -- a cell in both would name two applications
    intro x hx y hy hxy
    subst hxy
    obtain ⟨-, bucket, hb, hin⟩ := hrest x hy
    have h1 := (inApplicationGroup_iff.mp ((hgroup.2 x).mp hx).2).2
    have h2 := (inApplicationGroup_iff.mp hin).2
    exact hn.1 (List.mem_map.mpr ⟨bucket, hb, h2.symm.trans h1⟩)

end

/-! ## §4. The generic buckets. -/
section
variable {K : AbiConstants}

theorem rulePlaces_nodup (rule : Rule K) : (rulePlaces rule).Nodup := by
  refine List.nodup_flatMap.mpr ⟨?_, ?_⟩
  · intro f _
    refine List.Nodup.map (fun a b hab => (Prod.mk.inj hab).2) ?_
    exact (List.nodup_range' _ Nat.one_pos).filter _
  refine (List.nodup_range.filter _).imp ?_
  intro f g hne
  simp only [Function.onFun, List.disjoint_left, List.mem_map, not_exists, not_and]
  rintro x ⟨p, -, rfl⟩ q - hq
  exact hne (Prod.mk.inj hq).1.symm

/-- The family cell of an address family that is not the wildcard. -/
theorem ruleIndexFamilies_getD {family : BitVec 8} (h : ruleIndexFamily K family < ruleIndexFamilyCount) :
    (ruleIndexFamilies K).getD (ruleIndexFamily K family) 0 = family := by
  unfold ruleIndexFamily at h ⊢
  split_ifs at h ⊢ with h4 h6
  · exact h4.symm
  · exact h6.symm
  · exact absurd h (Nat.lt_irrefl _)

theorem ruleIndexProtocol_lt (protocol : BitVec 8) :
    ruleIndexProtocol K protocol < ruleIndexProtocolCount := by
  unfold ruleIndexProtocol
  split_ifs <;> decide

/-- The protocol cell of a protocol with a cell of its own. -/
theorem ruleIndexProtocols_getD {protocol : BitVec 8}
    (h : ruleIndexProtocol K protocol < ruleIndexProtocolCount - 1) :
    (ruleIndexProtocols K).getD (ruleIndexProtocol K protocol) 0 = protocol := by
  unfold ruleIndexProtocol at h ⊢
  split_ifs at h ⊢ with h0 h1 h2 h3
  · exact h0.symm
  · exact h1.symm
  · exact h2.symm
  · exact h3.symm
  · exact absurd h (Nat.lt_irrefl _)

/-- A rule is stored in the cell of every packet whose family and protocol it admits. -/
theorem mem_rulePlaces {rule : Rule K} {family protocol : BitVec 8}
    (hcell : ruleIndexFamily K family < ruleIndexFamilyCount)
    (hfamily : rule.family = K.familyAny ∨ rule.family = family)
    (hproto : rule.protocol = K.protocolAny ∨ rule.protocol = protocol) :
    (ruleIndexFamily K family, ruleIndexProtocol K protocol) ∈ rulePlaces rule := by
  simp only [rulePlaces, List.mem_flatMap, List.mem_map, List.mem_filter, List.mem_range,
    List.mem_range'_1]
  have hplt : ruleIndexProtocol K protocol < ruleIndexProtocolCount := ruleIndexProtocol_lt protocol
  refine ⟨ruleIndexFamily K family, ⟨hcell, ?_⟩, ruleIndexProtocol K protocol, ⟨?_, ?_⟩, rfl⟩
  · rw [ruleIndexFamilies_getD hcell]
    rcases hfamily with h | h <;> simp [h]
  · by_cases hany : rule.protocol = K.protocolAny
    · simp only [if_pos hany]
      omega
    have heq := hproto.resolve_left hany
    rw [heq] at hany ⊢
    simp only [if_neg hany]
    omega
  by_cases hany : rule.protocol = K.protocolAny
  · simp [hany]
  have heq := hproto.resolve_left hany
  by_cases hlast : ruleIndexProtocol K protocol < ruleIndexProtocolCount - 1
  · rw [ruleIndexProtocols_getD hlast, heq]
    simp
  · simp [hlast]

end
section
variable {set : RuleSet A}

/-- The cell a rule that names no application is stored in. -/
def InBucket (set : RuleSet A) (direction family protocol : Nat) (x : Nat) : Prop :=
  (set.rule x).has .matchApplication = false ∧ (set.rule x).direction.toNat - 1 = direction ∧
    (family, protocol) ∈ rulePlaces (set.rule x)

/-- The buckets hold the rules of the first `k` cells, sorted. -/
def BucketsUpTo (set : RuleSet A) (k : Nat)
    (buckets : Nat → Nat → Nat → List Nat) : Prop :=
  ∀ d f p, (buckets d f p).Pairwise (CellPrecedes set) ∧
    ∀ x, x ∈ buckets d f p ↔ x < k ∧ InBucket set d f p x

theorem BucketsUpTo.length_le {k : Nat} {buckets : Nat → Nat → Nat → List Nat}
    (h : BucketsUpTo set k buckets) (d f p : Nat) : (buckets d f p).length ≤ k :=
  length_le_of_nodup (nodup_of_sorted (h d f p).1) (fun x hx => (((h d f p).2 x).mp hx).1)

/-- Inserting one rule at its places: the buckets of those places get it, the others stay. -/
theorem insertAtPlaces_eq (h : Indexable set) {i : Nat} (hi : i < set.ruleCount.toNat)
    (places : List (Nat × Nat)) (hnodup : places.Nodup) (buckets : Nat → Nat → Nat → List Nat)
    (hroom : ∀ f p, (f, p) ∈ places →
      (buckets ((set.rule i).direction.toNat - 1) f p).length < A.maxRules) :
    insertAtPlaces set i buckets places = .ok (fun d f p =>
      if d = (set.rule i).direction.toNat - 1 ∧ (f, p) ∈ places then
        SortedTable.insertSorted (fun previous => rulePrecedes (set.rule i) (set.rule previous))
          (buckets d f p) 0 i else buckets d f p) := by
  induction places generalizing buckets with
  | nil => simp [insertAtPlaces]
  | cons place rest ih =>
    obtain ⟨f0, p0⟩ := place
    obtain ⟨hnotin, hnodup'⟩ := List.nodup_cons.mp hnodup
    have hlen := hroom f0 p0 List.mem_cons_self
    simp only [insertAtPlaces, h.mod_eq hi, ruleIndexInsert]
    rw [if_neg (by omega)]
    show insertAtPlaces set i _ rest = _
    rw [ih hnodup' _ ?_]
    · -- a place of the rest is not the place just filled
      congr 1
      funext d f p
      by_cases hd : d = (set.rule i).direction.toNat - 1
      · by_cases hfp : (f, p) = (f0, p0)
        · obtain ⟨rfl, rfl⟩ := Prod.mk.inj hfp
          simp [hd, hnotin]
        · have hne : ¬ (f = f0 ∧ p = p0) := fun he => hfp (by rw [he.1, he.2])
          simp [hd, hne, hfp]
      · simp [hd]
    intro f p hfp
    have hne : ¬ (f = f0 ∧ p = p0) := fun he => hnotin (by rw [← he.1, ← he.2]; exact hfp)
    simp only [true_and, if_neg hne]
    exact hroom f p (List.mem_cons_of_mem _ hfp)

/-- A property of the cells before `k + 1` is one of the cells before `k` and of `k`. -/
theorem lt_succ_and_iff {p : Nat → Prop} {x k : Nat} : x < k + 1 ∧ p x ↔ x < k ∧ p x ∨ x = k ∧ p k := by
  rw [Nat.lt_succ_iff_lt_or_eq, or_and_right]
  exact or_congr_right (and_congr_right fun hx => by rw [hx])

theorem BucketsUpTo.succ (h : Indexable set) {k : Nat} (hk : k < set.ruleCount.toNat)
    {buckets : Nat → Nat → Nat → List Nat} (hb : BucketsUpTo set k buckets)
    (happ : (set.rule k).has .matchApplication = false) : BucketsUpTo set (k + 1) (fun d f p =>
      if d = (set.rule k).direction.toNat - 1 ∧ (f, p) ∈ rulePlaces (set.rule k) then
        SortedTable.insertSorted (fun previous => rulePrecedes (set.rule k) (set.rule previous))
          (buckets d f p) 0 k else buckets d f p) := by
  intro d f p
  obtain ⟨hsorted, hmem⟩ := hb d f p
  dsimp only
  split
  · next hcell =>
    have hnew : k ∉ buckets d f p := fun hx => Nat.lt_irrefl k ((hmem k).mp hx).1
    refine ⟨h.insertSorted_pairwise (fun y hy => Nat.lt_trans ((hmem y).mp hy).1 hk) hk hnew
      hsorted, fun x => ?_⟩
    have hin : InBucket set d f p k := ⟨happ, hcell.1.symm, hcell.2⟩
    rw [(SortedTable.insertSorted_perm _ _ 0 k).mem_iff, List.mem_cons, hmem x, lt_succ_and_iff,
      and_iff_left hin, or_comm]
  next hcell =>
  refine ⟨hsorted, fun x => ?_⟩
  rw [hmem x, lt_succ_and_iff, or_iff_left fun hin => hcell ⟨hin.2.2.1.symm, hin.2.2.2⟩]

/-- **The buckets**: the bucket loop succeeds and every bucket holds the rules of its cell. -/
theorem fillBuckets_ok (h : Indexable set) (rest k : Nat) (hk : k + rest = set.ruleCount.toNat)
    (buckets : Nat → Nat → Nat → List Nat) (hb : BucketsUpTo set k buckets) :
    ∃ buckets', fillBuckets set buckets (List.range' k rest) = .ok buckets' ∧
      BucketsUpTo set set.ruleCount.toNat buckets' := by
  induction rest generalizing k buckets with
  | zero =>
    obtain rfl : k = set.ruleCount.toNat := by omega
    exact ⟨buckets, rfl, hb⟩
  | succ rest ih =>
    rw [List.range'_succ, fillBuckets]
    split
    · next happ =>
      refine ih (k + 1) (by omega) buckets ?_
      -- an application rule is in no bucket
      intro d f p
      refine ⟨(hb d f p).1, fun x => ?_⟩
      rw [(hb d f p).2 x, lt_succ_and_iff,
        or_iff_left fun hin => absurd (happ.symm.trans hin.2.1) (by decide)]
    next happ =>
    rw [insertAtPlaces_eq h (by omega) _ (rulePlaces_nodup _) buckets ?_]
    · exact ih (k + 1) (by omega) _ (hb.succ h (by omega) (by simpa using happ))
    intro f p _
    have hlen := hb.length_le ((set.rule k).direction.toNat - 1) f p
    have hcnt := h.count
    omega

theorem bucketsUpTo_zero : BucketsUpTo set 0 (fun _ _ _ => []) := by
  intro d f p
  exact ⟨List.Pairwise.nil, fun x => iff_of_false List.not_mem_nil (fun hx => Nat.not_lt_zero x hx.1)⟩

end

/-! ## §5. The guard mask. -/

/-- An enabled policy guard. -/
def activeGuard (rule : Rule A) : Prop :=
  rule.has .enabled = true ∧ rule.has .policyGuard = true

theorem activeGuard_iff (rule : Rule A) : rule.flags &&& (A.ruleFlag .enabled ||| A.ruleFlag .policyGuard)
        = (A.ruleFlag .enabled ||| A.ruleFlag .policyGuard) ↔ activeGuard rule := by
  have he := (A.ruleFlagBit .enabled).isLt
  have hg := (A.ruleFlagBit .policyGuard).isLt
  rw [activeGuard, Rule.has_iff, Rule.has_iff]
  constructor
  · intro h
    have hbit : ∀ k, (rule.flags &&& (A.ruleFlag .enabled ||| A.ruleFlag .policyGuard)).getLsbD k
        = (A.ruleFlag .enabled ||| A.ruleFlag .policyGuard).getLsbD k := fun k => by rw [h]
    simp only [AbiConstants.ruleFlag, BitVec.getLsbD_and, BitVec.getLsbD_or, getLsbD_bit he,
      getLsbD_bit hg] at hbit
    exact ⟨by simpa using hbit (A.ruleFlagBit .enabled), by simpa using hbit (A.ruleFlagBit .policyGuard)⟩
  rintro ⟨h1, h2⟩
  apply BitVec.eq_of_getLsbD_eq
  intro k _
  simp only [AbiConstants.ruleFlag, BitVec.getLsbD_and, BitVec.getLsbD_or, getLsbD_bit he, getLsbD_bit hg]
  by_cases hk : (A.ruleFlagBit .enabled).val = k
  · rw [← hk, h1]
    simp
  by_cases hk' : (A.ruleFlagBit .policyGuard).val = k
  · rw [← hk', h2]
    simp
  · simp [hk, hk']

/-- **The guard mask**: the bit of a direction is set exactly when an enabled guard has it. -/
theorem getLsbD_activeGuardMask (rules : List (Rule A))
    (hdirections : ∀ rule ∈ rules, rule.direction.toNat - 1 < 32) (k : Nat) :
    (activeGuardMask A rules).getLsbD k = true ↔
      ∃ rule ∈ rules, activeGuard rule ∧ rule.direction.toNat - 1 = k := by
  have hfold : ∀ (rules : List (Rule A)) (mask : BitVec 32),
      (∀ rule ∈ rules, rule.direction.toNat - 1 < 32) →
      ((rules.foldl (fun mask rule =>
        if rule.flags &&& (A.ruleFlag .enabled ||| A.ruleFlag .policyGuard)
            = (A.ruleFlag .enabled ||| A.ruleFlag .policyGuard) then
          mask ||| (1#32 <<< (rule.direction.toNat - 1))
        else mask) mask).getLsbD k = true ↔
        mask.getLsbD k = true ∨ ∃ rule ∈ rules, activeGuard rule ∧ rule.direction.toNat - 1 = k) := by
    intro rules
    induction rules with
    | nil => intro mask _; simp
    | cons rule rest ih =>
      intro mask hdir
      rw [List.foldl_cons, ih _ (fun r hr => hdir r (List.mem_cons_of_mem _ hr))]
      by_cases hact : activeGuard rule
      · rw [if_pos ((activeGuard_iff rule).mpr hact), BitVec.getLsbD_or,
          getLsbD_bit (hdir rule List.mem_cons_self)]
        simp only [Bool.or_eq_true, decide_eq_true_eq, List.mem_cons, exists_eq_or_imp, hact,
          true_and, or_assoc]
      · rw [if_neg (fun h => hact ((activeGuard_iff rule).mp h))]
        simp only [List.mem_cons, exists_eq_or_imp, hact, false_and, false_or]
  rw [activeGuardMask, hfold rules 0 hdirections]
  simp

/-- A mask whose bits lie below `n` passes the header test. -/
theorem and_not_ones_eq_zero {mask : BitVec 32} {n : Nat} (hn : n < 32)
    (h : ∀ k, mask.getLsbD k = true → k < n) : mask &&& ~~~((1#32 <<< n) - 1) = 0 := by
  apply BitVec.eq_of_getLsbD_eq
  intro k hk
  have hones : ((1#32 <<< n) - 1).getLsbD k = decide (k < n) := by
    have hpow : 2 ^ n < 2 ^ 32 := Nat.pow_lt_pow_right (by decide) hn
    have hnat : ((1#32 <<< n) - 1).toNat = 2 ^ n - 1 := by
      rw [← BitVec.twoPow_eq, BitVec.toNat_sub, BitVec.toNat_twoPow_of_lt hn]
      have hpos : 0 < 2 ^ n := Nat.two_pow_pos n
      simp only [BitVec.ofNat_eq_ofNat, BitVec.toNat_ofNat]
      omega
    rw [← BitVec.testBit_toNat, hnat, Nat.testBit_two_pow_sub_one]
  simp only [BitVec.getLsbD_and, BitVec.getLsbD_not, hones, hk, decide_true, Bool.true_and]
  cases hm : mask.getLsbD k with
  | false => simp
  | true => simp [h k hm]

end RinRuntime.Firewall

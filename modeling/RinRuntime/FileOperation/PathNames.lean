/-
FileOperation.PathNames — what the path functions say about components.

A path stands for a list of names: the validator accepts exactly the written forms of such lists, the parent
drops the last name, and one path lies below another exactly when its list extends the other's.
-/
import RinRuntime.FileOperation.Path

namespace RinRuntime.FileOperation
open Lib NameTree List

/-- The bytes of a name. -/
def NameBytes (name : Path) : Prop := ∀ b ∈ name, b ≠ slash ∧ ¬ (b = backslash ∨ b < 0x20 ∨ b = 0x7f)

/-- A name a component may have: not empty, `.` or `..`, and without separators and control bytes. -/
structure Component (name : Path) : Prop where
  nonempty : name ≠ []
  notDot : name ≠ [dot]
  notDots : name ≠ [dot, dot]
  bytes : NameBytes name

/-- The components, each after a slash. -/
def slashed (names : List Path) : Path := names.flatMap (slash :: ·)

/-- The path of a list of names. -/
def joined (names : List Path) : Path := if names = [] then [slash] else slashed names

theorem boundary_slashed (names : List Path) : Boundary slash (slashed names) := by
  cases names with
  | nil => trivial
  | cons name names => exact rfl

/-- A name ends where the next slash or the end of the path is. -/
theorem append_boundary_inj {a b x y : Path} (ha : slash ∉ a) (hb : slash ∉ b) (hx : Boundary slash x)
    (hy : Boundary slash y) (h : a ++ x = b ++ y) : a = b ∧ x = y := by
  rcases append_eq_append_iff.mp h with ⟨c, rfl, rfl⟩ | ⟨c, rfl, rfl⟩
  · cases c with
    | nil => exact ⟨(append_nil a).symm, rfl⟩
    | cons value c => exact absurd (mem_append_right a (mem_cons.mpr (.inl hx.symm))) hb
  · cases c with
    | nil => exact ⟨append_nil b, rfl⟩
    | cons value c => exact absurd (mem_append_right b (mem_cons.mpr (.inl hy.symm))) ha

theorem Component.noSlash {name : Path} (h : Component name) : slash ∉ name :=
  fun hmem => (h.bytes slash hmem).1 rfl

/-! ## §1. Validation. -/

theorem componentRefused_iff (front name rest : Path) :
    componentRefused (front ++ (name ++ rest)) front.length name.length = true ↔
      name = [] ∨ name = [dot] ∨ name = [dot, dot] := by
  rcases name with _ | ⟨a, _ | ⟨b, _ | ⟨c, name⟩⟩⟩ <;> simp [componentRefused, getD_eq_getElem?_getD]

/-- The next byte belongs to the current component, or it is the slash before the next one. -/
theorem cons_eq_append_slashed {value : UInt8} {rest tail : Path} {names : List Path} :
    value :: rest = tail ++ slashed names ↔ (∃ tail', tail = value :: tail' ∧ rest = tail' ++ slashed names) ∨
      tail = [] ∧ value = slash ∧ ∃ c cs, names = c :: cs ∧ rest = c ++ slashed cs := by
  cases tail with
  | nil => cases names <;> simp [slashed]
  | cons b tail => simp [eq_comm]

/-- A name that the scan does not refuse. -/
theorem component_iff (front rest : Path) {name : Path} (hname : NameBytes name) : Component name ↔
    componentRefused (front ++ (name ++ rest)) front.length name.length = false := by
  rw [← Bool.not_eq_true, componentRefused_iff, not_or, not_or]
  exact ⟨fun h => ⟨h.nonempty, h.notDot, h.notDots⟩, fun h => ⟨h.1, h.2.1, h.2.2, hname⟩⟩

/-- The scan in the middle of a component accepts what completes it, followed by components. -/
theorem pathScan_iff {path : Path} {capacity : Nat} (rest : Path) : ∀ front name : Path, front ≠ [] →
    path = front ++ (name ++ rest) → NameBytes name →
    (pathScan path capacity rest (front.length + name.length) front.length = true ↔
      ∃ tail names, rest = tail ++ slashed names ∧ Component (name ++ tail) ∧ (∀ c ∈ names, Component c) ∧
        path.length < capacity) := by
  induction rest with
  | nil =>
    intro front name hfront hpath hname
    have hcomponent := component_iff front [] hname
    have hpos : 0 < front.length := length_pos_iff.mpr hfront
    rw [pathScan, Nat.add_sub_cancel_left, hpath, Bool.and_eq_true, Bool.and_eq_true, Bool.and_eq_true,
      Bool.not_eq_true', ← hcomponent]
    simp only [decide_eq_true_eq, bne_iff_ne, length_append, length_nil, Nat.add_zero]
    constructor
    · intro h
      exact ⟨[], [], rfl, by simpa using h.1.1.2, by simp, h.1.1.1⟩
    · rintro ⟨tail, names, hrest, hc, -, hlt⟩
      obtain rfl := (append_eq_nil_iff.mp hrest.symm).1
      rw [append_nil] at hc
      have hne := length_pos_iff.mpr hc.nonempty
      refine ⟨⟨⟨hlt, hc⟩, by omega⟩, ?_⟩
      -- the last byte is one of the name
      rw [append_nil, getD_eq_getElem?_getD, List.getElem?_append_right (by omega),
        List.getElem?_eq_getElem (by omega)]
      exact (hname _ (getElem_mem _)).1
  | cons value rest ih =>
    intro front name hfront hpath hname
    have hcomponent := component_iff front (value :: rest) hname
    have hlen : path.length = front.length + (name.length + (rest.length + 1)) := by simp [hpath]
    have hpos : 0 < front.length := length_pos_iff.mpr hfront
    rw [← hpath] at hcomponent
    simp only [cons_eq_append_slashed]
    rw [pathScan, Nat.add_sub_cancel_left]
    split_ifs with hfull hbad hslash href
    · refine iff_of_false not_false ?_
      rintro ⟨tail, names, -, -, -, hlt⟩
      omega
    · refine iff_of_false not_false ?_
      rintro ⟨tail, names, hrest, hc, -, hlt⟩
      have hroom : ¬ capacity ≤ front.length + name.length + 1 := by omega
      have hvalue : value = backslash ∨ value < 0x20 ∨ value = 0x7f := by tauto
      rcases hrest with ⟨tail', rfl, -⟩ | ⟨-, rfl, -⟩
      · exact (hc.bytes value (by simp)).2 hvalue
      · exact absurd hvalue (by decide)
    · refine iff_of_false not_false ?_
      rintro ⟨tail, names, ⟨tail', rfl, -⟩ | ⟨rfl, -⟩, hc, -⟩
      · exact hc.noSlash (by simp [hslash])
      · rw [append_nil] at hc
        cases href.2.symm.trans (hcomponent.mp hc)
    · have hc : Component name := hcomponent.mpr (by simpa using fun h => href ⟨by omega, h⟩)
      have hnext := ih (front ++ (name ++ [slash])) [] (by simp) (by simp [hpath, hslash]) (by simp [NameBytes])
      simp only [length_append, length_singleton, length_nil, Nat.add_zero, ← Nat.add_assoc,
        nil_append] at hnext
      rw [hnext]
      constructor
      · rintro ⟨tail, names, hrest, htail, hall, hlt⟩
        exact ⟨[], tail :: names, .inr ⟨rfl, hslash, tail, names, rfl, hrest⟩, by simpa using hc,
          forall_mem_cons.mpr ⟨htail, hall⟩, hlt⟩
      · rintro ⟨tail, names, ⟨tail', rfl, -⟩ | ⟨rfl, -, c, cs, rfl, hrest⟩, hc, hall, hlt⟩
        · exact absurd (by simp [hslash]) hc.noSlash
        · obtain ⟨hfst, hothers⟩ := forall_mem_cons.mp hall
          exact ⟨c, cs, hrest, hfst, hothers, hlt⟩
    · have hnext := ih front (name ++ [value]) hfront (by simp [hpath]) (forall_mem_append.mpr
        ⟨hname, forall_mem_singleton.mpr ⟨hslash, fun h => hbad (by tauto)⟩⟩)
      rw [length_append, length_singleton, ← Nat.add_assoc] at hnext
      rw [hnext]
      constructor
      · rintro ⟨tail, names, hrest, hc, hall, hlt⟩
        exact ⟨value :: tail, names, .inl ⟨tail, rfl, hrest⟩, by simpa using hc, hall, hlt⟩
      · rintro ⟨tail, names, ⟨tail', rfl, hrest⟩ | ⟨-, hvalue, -⟩, hc, hall, hlt⟩
        · exact ⟨tail', names, hrest, by simpa using hc, hall, hlt⟩
        · exact absurd hvalue hslash

/-- **The validator** accepts the paths of lists of components that are short enough. -/
theorem pathValid_iff {path : Path} : pathValid path = true ↔
    ∃ names, (∀ c ∈ names, Component c) ∧ path = joined names ∧ path.length < pathMax := by
  unfold pathValid pathValidLimit
  rw [if_neg (by decide)]
  split_ifs with hhead hone
  · refine iff_of_false not_false ?_
    rintro ⟨names, -, rfl, -⟩
    cases names <;> exact hhead rfl
  · obtain ⟨b, rfl⟩ := length_eq_one_iff.mp hone
    obtain rfl : b = slash := by simpa using hhead
    exact iff_of_true rfl ⟨[], by simp, rfl, by decide⟩
  rw [ne_eq, not_not] at hhead
  obtain ⟨rest, rfl⟩ : ∃ rest, path = slash :: rest := by
    cases path with
    | nil => cases hhead
    | cons b rest => exact ⟨rest, by rw [Option.some.inj hhead]⟩
  have hscan := @pathScan_iff (slash :: rest) pathMax rest [slash] [] (by simp) rfl (by simp [NameBytes])
  rw [pathScan, if_neg (by decide), if_neg (by decide), if_pos rfl, if_neg (by simp)]
  refine hscan.trans ⟨?_, ?_⟩
  · rintro ⟨tail, names, rfl, hc, hall, hlt⟩
    exact ⟨tail :: names, forall_mem_cons.mpr ⟨hc, hall⟩, rfl, hlt⟩
  · rintro ⟨names, hall, hpath, hlt⟩
    cases names with
    | nil => exact absurd (congrArg List.length hpath) hone
    | cons c cs =>
      obtain ⟨hc, hcs⟩ := forall_mem_cons.mp hall
      exact ⟨c, cs, (List.cons.inj hpath).2, hc, hcs, hlt⟩

/-! ## §2. Parents and descendants. -/

/-- The last slash is the one before the last component. -/
theorem lastSlash_append (front : Path) {name : Path} (h : slash ∉ name) :
    lastSlash (front ++ slash :: name) = front.length := by
  have hfind : (name.reverse ++ slash :: front.reverse).findIdx (· == slash) = name.length := by
    have hnone : name.reverse.findIdx (· == slash) = name.reverse.length := findIdx_eq_length.mpr
      fun b hb => beq_false_of_ne fun hslash => h (hslash ▸ mem_reverse.mp hb)
    rw [findIdx_append, if_neg (by omega), length_reverse]
    simp [findIdx_cons]
  unfold lastSlash
  rw [show (front ++ slash :: name).reverse = name.reverse ++ slash :: front.reverse by simp, hfind]
  simp

/-- One list of names extends another exactly when one written form extends the other at a boundary. -/
theorem slashed_under_iff {root path : List Path} (hroot : ∀ c ∈ root, Component c)
    (hpath : ∀ c ∈ path, Component c) : Under slash (slashed root) (slashed path) ↔ root <+: path := by
  rw [under_iff]
  induction root generalizing path with
  | nil => exact iff_of_true ⟨slashed path, boundary_slashed path, rfl⟩ nil_prefix
  | cons c root ih =>
    obtain ⟨hc, hroot⟩ := forall_mem_cons.mp hroot
    cases path with
    | nil => exact iff_of_false (by simp [slashed]) (by simp)
    | cons d path =>
      obtain ⟨hd, hpath⟩ := forall_mem_cons.mp hpath
      rw [cons_prefix_cons, ← ih hroot hpath]
      have hforms : ∀ r, slashed (d :: path) = slashed (c :: root) ++ r ↔
          d ++ slashed path = c ++ (slashed root ++ r) := fun r => by simp [slashed]
      simp only [hforms]
      constructor
      · rintro ⟨r, hr, h⟩
        have hnext : Boundary slash (slashed root ++ r) := by cases root <;> [exact hr; exact rfl]
        obtain ⟨rfl, hrest⟩ := append_boundary_inj hd.noSlash hc.noSlash (boundary_slashed path) hnext h
        exact ⟨rfl, r, hr, hrest⟩
      · rintro ⟨rfl, r, hr, h⟩
        exact ⟨r, hr, by rw [h]⟩

/-- **The path functions follow the components.** -/
theorem paths_follow_components :
    (∀ path, pathValid path = true ↔
      ∃ names, (∀ c ∈ names, Component c) ∧ path = joined names ∧ path.length < pathMax) ∧
    (∀ names, names ≠ [] → (∀ c ∈ names, Component c) → pathValid (joined names) = true →
      parent (joined names) = some (joined names.dropLast) ∧ pathValid (joined names.dropLast) = true) ∧
    ∀ root names, (∀ c ∈ root, Component c) → (∀ c ∈ names, Component c) →
      (descendant (joined root) (joined names) = true ↔ root <+: names) := by
  refine ⟨fun _ => pathValid_iff, fun names hne hall hval => ?_, fun root names hroot hnames => ?_⟩
  · obtain ⟨front, last, rfl⟩ : ∃ front last, names = front ++ [last] :=
      ⟨_, _, (dropLast_concat_getLast hne).symm⟩
    obtain ⟨hfront, hlast⟩ := forall_mem_append.mp hall
    have hlen := (pathValid_iff.mp hval).choose_spec.2.2
    have hform : joined (front ++ [last]) = slashed front ++ slash :: last := by simp [joined, slashed]
    have hparent : parent (joined (front ++ [last])) = some (joined front) := by
      unfold parent
      rw [if_neg (by simp [hval]), hform, lastSlash_append _ (hlast last (by simp)).noSlash, take_left]
      cases front <;> rfl
    have hshort : (joined front).length ≤ (joined (front ++ [last])).length := by
      rw [hform]
      cases front <;> simp [joined, slashed]
    rw [dropLast_concat]
    exact ⟨hparent, pathValid_iff.mpr ⟨front, hfront, rfl, Nat.lt_of_le_of_lt hshort hlen⟩⟩
  · cases root with
    | nil => exact iff_of_true rfl nil_prefix
    | cons c root =>
      have hc := (hroot c (by simp)).nonempty
      rw [← slashed_under_iff hroot hnames, descendant, Bool.or_eq_true, decide_eq_true_eq, beq_iff_eq]
      cases names with
      | nil => simp [joined, slashed, under_iff, hc]
      | cons d names => simp [joined, slashed, hc]

end RinRuntime.FileOperation

/-
Lib.CrashDisk — a block device that buffers writes and may lose power.

A device has durable blocks and the writes since the last flush, which makes them durable. Power lasts for
a number of operations, or for ever; an operation without power fails and does nothing, so a run that fails
leaves the device as it was when power was lost.

What is then on the medium is an image: each block holds its durable content or that of a write that was
not flushed (`Lands`); where writes can tear, a torn block holds anything (`Tears`). The rules follow a
program from operation to operation; what may hold after a crash is asked before each of them, as a
property `C` of the durable blocks and the unflushed writes.
-/
import RinRuntime.Lib.Exec

namespace RinRuntime.Lib.CrashDisk
open Lib
variable {B ε α : Type}

/-! ## §1. Devices. -/

/-- The content of every block. -/
abbrev Disk (B : Type) := Nat → B

/-- Carry out writes, the first one first. -/
def applyAll (m : Disk B) (writes : List (Nat × B)) : Disk B :=
  writes.foldl (fun m write => Function.update m write.1 write.2) m

/-- A block device: its durable blocks, the writes since the last flush, and the number of operations until
power is lost, if it is. -/
structure Device (B : Type) where
  durable : Disk B
  pending : List (Nat × B)
  power : Option Nat

/-- A device with this content and lasting power. -/
def Device.on (m : Disk B) : Device B := ⟨m, [], none⟩

/-- A device with this content that loses power after some operations. -/
def Device.until (m : Disk B) (operations : Nat) : Device B := ⟨m, [], some operations⟩

/-- What a read finds. -/
def Device.view (d : Device B) : Disk B := applyAll d.durable d.pending

/-- Power for one operation. -/
def Device.spend (d : Device B) : Option (Device B) :=
  match d.power with
  | none => some d
  | some 0 => none
  | some (n + 1) => some { d with power := some n }

/-- An operation of the device, which fails with `lost` where there is no power. -/
def operation (lost : ε) (f : Device B → α × Device B) : Exec ε (Device B) α := fun d =>
  match d.spend with
  | none => (.error lost, d)
  | some d' => (.ok (f d').1, (f d').2)

/-- Read a block. -/
def readBlock (lost : ε) (a : Nat) : Exec ε (Device B) B := operation lost fun d => (d.view a, d)

/-- Write a block. -/
def writeBlock (lost : ε) (a : Nat) (b : B) : Exec ε (Device B) Unit :=
  operation lost fun d => ((), { d with pending := d.pending ++ [(a, b)] })

/-- Make all writes durable. -/
def flush (lost : ε) : Exec ε (Device B) Unit :=
  operation lost fun d => ((), { d with durable := d.view, pending := [] })

/-- Write a block and make it durable. -/
def writeThrough (lost : ε) (a : Nat) (b : B) : Exec ε (Device B) Unit := do
  writeBlock lost a b
  flush lost

/-- What may be found after a crash, where block writes are atomic: an arbitrary subset of the unflushed
writes has reached the medium. -/
def Lands (m : Disk B) (writes : List (Nat × B)) (m' : Disk B) : Prop :=
  ∀ a, m' a = m a ∨ (a, m' a) ∈ writes

/-- What may be found after a crash that tears some blocks: these have an unflushed write and may hold
anything, and every other block holds its durable content or that of an unflushed write. -/
structure Tears (m : Disk B) (writes : List (Nat × B)) (torn : Nat → Prop) (m' : Disk B) : Prop where
  flight : ∀ a, torn a → ∃ b, (a, b) ∈ writes
  whole : ∀ a, ¬ torn a → m' a = m a ∨ (a, m' a) ∈ writes

/-! ## §2. Rules. -/

/-- The device has these durable blocks and unflushed writes; if `steady`, it does not lose power. -/
structure Device.At (d : Device B) (steady : Prop) (m : Disk B) (writes : List (Nat × B)) : Prop where
  durable : d.durable = m
  pending : d.pending = writes
  power : steady → d.power = none

theorem Device.on_at (m : Disk B) : (Device.on m).At True m [] := ⟨rfl, rfl, fun _ => rfl⟩

theorem Device.until_at (m : Disk B) (n : Nat) : (Device.until m n).At False m [] := ⟨rfl, rfl, False.elim⟩

theorem Device.At.view_eq {d : Device B} {steady : Prop} {m : Disk B} {writes : List (Nat × B)}
    (h : d.At steady m writes) : d.view = applyAll m writes := by
  unfold Device.view
  rw [h.durable, h.pending]

/-- Power was lost where `C` holds of the durable blocks and the unflushed writes. -/
def Lost (lost : ε) (steady : Prop) (C : Disk B → List (Nat × B) → Prop) (e : ε) (d : Device B) : Prop :=
  e = lost ∧ ¬ steady ∧ C d.durable d.pending

/-- Durable blocks and unflushed writes that a program goes through. -/
abbrev Stage (B : Type) := Disk B × List (Nat × B)

/-- `C` holds at every stage. -/
def Through (C : Disk B → List (Nat × B) → Prop) (stages : List (Stage B)) : Prop :=
  ∀ stage ∈ stages, C stage.1 stage.2

/-- The stages of writing through. -/
def writeStages (m : Disk B) (a : Nat) (b : B) : List (Stage B) := [(m, []), (m, [(a, b)])]

section
variable {lost : ε} {C : Disk B → List (Nat × B) → Prop} {d : Device B} {steady : Prop} {m : Disk B}
  {writes : List (Nat × B)}

theorem through_nil : Through C [] := fun _ h => absurd h List.not_mem_nil

theorem through_cons {stage : Stage B} {stages : List (Stage B)} :
    Through C (stage :: stages) ↔ C stage.1 stage.2 ∧ Through C stages := List.forall_mem_cons

theorem through_append {stages stages' : List (Stage B)} :
    Through C (stages ++ stages') ↔ Through C stages ∧ Through C stages' := List.forall_mem_append

variable {Q : Unit → Device B → Prop} {a : Nat} {b : B}

theorem through_writeStages : Through C (writeStages m a b) ↔ C m [] ∧ C m [(a, b)] := by
  unfold writeStages
  rw [through_cons, through_cons]
  exact ⟨fun h => ⟨h.1, h.2.1⟩, fun h => ⟨h.1, h.2, through_nil⟩⟩

theorem Through.mono {C' : Disk B → List (Nat × B) → Prop} {stages : List (Stage B)} (h : Through C stages)
    (hC : ∀ m writes, C m writes → C' m writes) : Through C' stages :=
  fun stage hstage => hC _ _ (h stage hstage)

theorem wp_operation {f : Device B → α × Device B} {Q : α → Device B → Prop} {E : ε → Device B → Prop}
    (h : d.At steady m writes) (hE : ¬ steady → E lost d)
    (hQ : ∀ d', d'.At steady m writes → Q (f d').1 (f d').2) : Exec.wp (operation lost f) Q E d := by
  unfold Exec.wp operation Device.spend
  rcases hpower : d.power with _ | _ | n
  · exact hQ d h
  · refine hE fun hsteady => ?_
    rw [h.power hsteady] at hpower
    cases hpower
  refine hQ _ ⟨h.durable, h.pending, fun hsteady => ?_⟩
  rw [h.power hsteady] at hpower
  cases hpower

/-- Where `C` holds, an operation may fail. -/
theorem Device.At.crash (h : d.At steady m writes) (hC : C m writes) (hsteady : ¬ steady) :
    Lost lost steady C lost d := by
  refine ⟨rfl, hsteady, ?_⟩
  rw [h.durable, h.pending]
  exact hC

/-- **Reading.** -/
theorem wp_readBlock {Q : B → Device B → Prop} {E : ε → Device B → Prop} (h : d.At steady m writes)
    (hE : ¬ steady → E lost d) (hQ : ∀ d', d'.At steady m writes → Q (applyAll m writes a) d') :
    Exec.wp (readBlock lost a) Q E d := by
  refine wp_operation h hE fun d' h' => ?_
  show Q (d'.view a) d'
  rw [h'.view_eq]
  exact hQ d' h'

/-- **Writing.** -/
theorem wp_writeBlock (h : d.At steady m writes)
    (hC : C m writes) (hQ : ∀ d', d'.At steady m (writes ++ [(a, b)]) → Q () d') :
    Exec.wp (writeBlock lost a b) Q (Lost lost steady C) d := by
  refine wp_operation h (h.crash hC) fun d' h' => hQ _ ⟨h'.durable, ?_, h'.power⟩
  show d'.pending ++ [(a, b)] = writes ++ [(a, b)]
  rw [h'.pending]

/-- **Flushing.** -/
theorem wp_flush (h : d.At steady m writes) (hC : C m writes)
    (hQ : ∀ d', d'.At steady (applyAll m writes) [] → Q () d') :
    Exec.wp (flush lost) Q (Lost lost steady C) d :=
  wp_operation h (h.crash hC) fun _ h' => hQ _ ⟨h'.view_eq, rfl, h'.power⟩

/-- **Writing through.** -/
theorem wp_writeThrough (h : d.At steady m [])
    (hC : Through C (writeStages m a b)) (hQ : ∀ d', d'.At steady (Function.update m a b) [] → Q () d') :
    Exec.wp (writeThrough lost a b) Q (Lost lost steady C) d := by
  obtain ⟨hbef, hflight⟩ := through_writeStages.mp hC
  unfold writeThrough
  rw [Exec.wp_bind]
  exact wp_writeBlock h hbef fun d' h' => wp_flush h' hflight hQ

/-- **A program returns where power lasts.** -/
theorem returns_of_wp {x : Exec ε (Device B) α} {Q : α → Device B → Prop}
    (h : Exec.wp x Q (Lost lost True C) d) : ∃ a d', x d = (.ok a, d') ∧ Q a d' := by
  rcases hx : x d with ⟨e | a, d'⟩
  · exact absurd trivial (Exec.wp_error h hx).2.1
  · exact ⟨a, d', rfl, Exec.wp_ok h hx⟩

/-- **What holds wherever a run ends**, with power or without. -/
theorem final_of_wp {x : Exec ε (Device B) α} {Q : α → Device B → Prop}
    (h : Exec.wp x Q (Lost lost steady C) d) (hQ : ∀ a d', Q a d' → C d'.durable d'.pending) :
    C (x d).2.durable (x d).2.pending := by
  rcases hx : x d with ⟨e | a, d'⟩
  · exact (Exec.wp_error h hx).2.2
  · exact hQ a d' (Exec.wp_ok h hx)

end

/-! ## §3. Images. -/
section
variable {m m' : Disk B} {writes : List (Nat × B)} {a : Nat} {b : B}

/-- A block without an unflushed write is durable. -/
theorem Tears.same {torn : Nat → Prop} (h : Tears m writes torn m') (ha : ∀ b, (a, b) ∉ writes) : m' a = m a := by
  have hwhole : ¬ torn a := fun htorn => (h.flight a htorn).elim ha
  exact (h.whole a hwhole).resolve_right (ha _)

/-- Where no block is torn, writes have landed. -/
theorem Tears.lands {torn : Nat → Prop} (h : Tears m writes torn m') (hwhole : ∀ write ∈ writes, ¬ torn write.1) :
    Lands m writes m' :=
  fun a => h.whole a fun htorn => (h.flight a htorn).elim fun _ hb => hwhole _ hb htorn

theorem Lands.same (h : Lands m writes m') (ha : ∀ b, (a, b) ∉ writes) : m' a = m a := by
  rcases h a with hsame | hb
  · exact hsame
  · exact absurd hb (ha _)

/-- Without unflushed writes the content is what is durable. -/
theorem Lands.eq (h : Lands m [] m') : m' = m := funext fun _ => h.same fun _ hb => List.not_mem_nil hb

/-- One unflushed write has reached the medium or not. -/
theorem Lands.single (h : Lands m [(a, b)] m') : m' = m ∨ m' = Function.update m a b := by
  have hoth : ∀ x, x ≠ a → m' x = m x := by
    intro x hx
    refine h.same fun b' hb' => hx ?_
    exact (Prod.mk.inj (List.mem_singleton.mp hb')).1
  rcases h a with hsame | hwrite
  · left
    funext x
    by_cases hx : x = a
    · rw [hx, hsame]
    · exact hoth x hx
  right
  funext x
  by_cases hx : x = a
  · rw [hx, Function.update_self]
    exact (Prod.mk.inj (List.mem_singleton.mp hwrite)).2
  · rw [Function.update_of_ne hx]
    exact hoth x hx

end
end RinRuntime.Lib.CrashDisk

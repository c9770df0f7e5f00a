/-
FileOperation.Trail — the checkpoints of a run, as a history of the world.

`Traced` is a backend whose world remembers the records it was asked to save. `Leads` follows a computation
on the record alone: what it promises holds of the record at its end, and every record saved on the way is
`Storable`.
-/
import RinRuntime.FileOperation.Follow

namespace RinRuntime.FileOperation
open Lib Exec

/-- What is watched: the operation, its plan and the history. -/
structure Watch (W α : Type) where
  kind : OperationKind
  plan : List Entry
  trail : W → List (Mark α)

namespace Watch

variable {W α β ε : Type} (T : Watch W α)

/-- The record and every saved record can be stored, and `R` holds of the record. -/
structure Good (R : Operation → Prop) (s : State W) : Prop where
  record : Storable T.kind T.plan s.op
  holds : R s.op
  marks : ∀ mark ∈ T.trail s.world, Storable T.kind T.plan mark.op

/-- The record and every saved record can be stored. -/
abbrev Stored : State W → Prop := T.Good AnyRecord

/-- From `R` on, `x` ends in `R'`, and saves only what can be stored, also when it fails. -/
abbrev Leads (R : Operation → Prop) (x : Exec ε (State W) β) (R' : β → Operation → Prop) : Prop :=
  Guides T.Stored (fun _ => True) R x R'

variable {T} {R S : Operation → Prop} {R' : β → Operation → Prop}

theorem Good.trivial {s : State W} (h : T.Good R s) : T.Stored s := ⟨h.record, True.intro, h.marks⟩

theorem Leads.good {x : Exec ε (State W) β} (h : T.Leads R x R') {s : State W} (hs : T.Good R s) :
    wp x (fun b s' => T.Good (R' b) s') (fun _ => T.Stored) s :=
  wp_mono (h s hs.trivial hs.holds) (fun _ _ h' => ⟨h'.1.record, h'.2, h'.1.marks⟩) (fun _ _ h' => h'.2)

/-- A change that leaves the record fit to be stored. -/
theorem turns {f : Operation → Operation}
    (h : ∀ op, Storable T.kind T.plan op → R op → Storable T.kind T.plan (f op) ∧ S (f op)) :
    Turns T.Stored R f S := by
  intro s hs hR
  obtain ⟨hrec, hholds⟩ := h s.op hs.record hR
  exact ⟨⟨hrec, True.intro, hs.marks⟩, hholds⟩

theorem silent {callback : W → β × W} (h : Silent T.trail callback) : Harmless T.Stored callback := by
  intro s hs
  refine ⟨hs.record, True.intro, ?_⟩
  rw [h]
  exact hs.marks

theorem recorded {F : ε → Prop} {call : Call} {callback : W → β × W} (h : Silent T.trail callback) :
    Guides T.Stored F R (askRecorded call callback : Exec ε (State W) β) (fun _ => R) := by
  intro s hs hR
  rw [wp_askRecorded]
  refine ⟨⟨hs.record, True.intro, ?_⟩, hR⟩
  rw [h]
  exact hs.marks

end Watch

end RinRuntime.FileOperation

/-
FileOperation.ForwardMove — one forward step of a move.

A move renames the object of its entry and makes the rename durable. `forwardNamespace_rule` is the
counterpart of `forwardCopy_rule`. Two things keep a move from being rolled back: an object that carries a
creation token, once its entry has recorded it (`Carries`), and a rename that could not be made durable
(`Lost`). The states in between are those of `Moved` in the layers.
-/
import RinRuntime.FileOperation.ForwardStep

namespace RinRuntime.FileOperation
open Lib Exec NameTree Layers

/-! ## §1. Entries of a move. -/

/-- An entry that has created nothing and replaced nothing. -/
structure Plain (e : Entry) : Prop where
  created : e.created = false
  token : identityHasToken e.objectIdentity = false
  replacement : e.replacementState = .none

section
variable {W : Type} {B : Backend W} {view : W → View} {G : Eye W View} (hB : G.Watches B)
  {a : State View} {N₀ M : Names} {i : Nat}

/-- Entry `i` has recorded its object, which carries a creation token. -/
def Carries (i : Nat) (M : Names) (op op' : Operation) : Prop :=
  ∃ id, M (op.entry i).sourcePath = some id ∧ identityHasToken id = true ∧ (op'.entry i).objectIdentity = id

/-! ## §2. The rename. -/

/-- The object of entry `i` has been renamed; what is left is to make the rename durable. -/
structure JustMoved (view : W → View) (i : Nat) (M : Names) (s s' : State W) : Prop where
  only : EntryOnly i s.op s'.op
  moved : ∃ id, M (s.op.entry i).sourcePath = some id ∧ s'.op.entry i = { s.op.entry i with
      objectIdentity := id, applied := true, cleanupState := .renameSyncPending }
  free : Free slash M (s.op.entry i).destinationPath
  names : (view s'.world).names
    = move slash (s.op.entry i).sourcePath (s.op.entry i).destinationPath M

/-- The layer of an entry whose rename is under way. -/
theorem layer_of_moving {e : Entry} {id : Identity} {N : Names} (hrdy : Ready e M M)
    (hnone : e.replacementState = .none) (hsrc : M e.sourcePath = some id)
    (htoken : identityHasToken id = false) (h : N = M ∨ Free slash M e.destinationPath ∧
      N = move slash e.sourcePath e.destinationPath M) :
    Layer { e with objectIdentity := id, applied := true, cleanupState := .renameInProgress } M N :=
  (layer_of_applied rfl).mpr ⟨hrdy.created, htoken, hnone, hsrc, h⟩

/-- The failure of a move: its object carries a token, or the entry stays plain. -/
def MoveFails (view : W → View) (i : Nat) (M : Names) (op : Operation) (r : Result)
    (s' : State W) : Prop :=
  Carries i M op s'.op ∨ Fails view i M op r s' ∧ Plain (s'.op.entry i)

theorem MoveFails.of_layer {op : Operation} {r : Result} {s' : State W} {e : Entry}
    (htemp : NoTemp op) (hr : r.negative = true) (h : Edited i op s'.op e) (hplain : Plain e)
    (hlayer : Layer e M (view s'.world).names) : MoveFails view i M op r s' := by
  refine .inr ⟨Fails.of_layer htemp hr h hlayer, ?_⟩
  rw [h.entry]
  exact hplain

/-- A failure once the object has been recorded. -/
theorem MoveFails.of_object {op : Operation} {r : Result} {s' : State W} {e : Entry} {object : Identity}
    (htemp : NoTemp op) (hr : r.negative = true) (h : Edited i op s'.op e)
    (hsrc : M (op.entry i).sourcePath = some object) (hobject : e.objectIdentity = object)
    (hplain : identityHasToken object = false → Plain e ∧ Layer e M (view s'.world).names) :
    MoveFails view i M op r s' := by
  by_cases htoken : identityHasToken object = true
  · exact .inl ⟨object, hsrc, htoken, by rw [h.entry]; exact hobject⟩
  · obtain ⟨hplain, hlayer⟩ := hplain (eq_false_of_ne_true htoken)
    exact .of_layer htemp hr h hplain hlayer

include hB

/-- **The forward rename.** -/
theorem renameEntry_rule (hcnt : i < a.op.entryCount) (htemp : NoTemp a.op)
    (hrdy : Ready (a.op.entry i) M a.world.names) (hnone : (a.op.entry i).replacementState = .none) :
    Shows G.watch (renameEntry B i) (fun _ => JustMoved id i M a) (MoveFails id i M a.op) a := by
  obtain rfl : a.world.names = M := (Replaced.of_none hnone).mp hrdy.replaced.replaced
  set e := a.op.entry i with he
  refine .read <| .bind <| .pathIdentity hB fun result object hfound hfail => ?_
  -- the identity found is recorded first
  refine .change ?_
  have h1 : Edited i a.op _ { e with objectIdentity := object } :=
    Edited.setEntry hcnt fun e => { e with objectIdentity := object }
  refine .check (fun h0 => ?_) fun hne => ?_
  swap
  · -- no identity was found, so nothing was recorded
    rw [hfail hne] at h1 ⊢
    exact MoveFails.of_layer htemp (resultOf_negative _) h1 ⟨hrdy.created, identityHasToken_zero, hnone⟩
      hrdy.forgotten
  have hsrc := hfound h0
  refine .check (fun _ => ?_) fun _ => ?_
  swap
  · refine MoveFails.of_object htemp rfl h1 hsrc rfl fun hplain => ⟨⟨hrdy.created, hplain, hnone⟩, ?_⟩
    refine (OnlyReplaced.layer_iff ⟨?_, ?_, hplain⟩).mpr ((Replaced.of_none ?_).mpr rfl)
    · exact hrdy.applied
    · exact hrdy.created
    · exact hnone
  -- the rename is announced
  refine .change ?_
  have h2 : Edited i a.op _
      { e with objectIdentity := object, applied := true, cleanupState := .renameInProgress } :=
    h1.set hcnt fun e => { e with applied := true, cleanupState := .renameInProgress }
  have hmoving : ∀ (r : Result) (w : View), r.negative = true → MaybeMoved e a.world.names w.names →
      MoveFails id i a.world.names a.op r ⟨_, w, a.log⟩ := fun r w hr hmid =>
    MoveFails.of_object htemp hr h2 hsrc rfl fun hplain =>
      ⟨⟨hrdy.created, hplain, hnone⟩, layer_of_moving hrdy hnone hsrc hplain hmid⟩
  refine .bind <| .checkpoint hB ?_ (hmoving _ a.world rfl (Or.inl rfl))
  refine .bind <| .renameExpected hB fun result w htry => ?_
  have hrenamed : Renamed e.sourcePath e.destinationPath object a.world w →
      Free slash a.world.names e.destinationPath ∧
        w.names = move slash e.sourcePath e.destinationPath a.world.names := by
    rintro ⟨_, hfree, _, hw⟩
    exact ⟨hfree, by rw [hw]⟩
  refine .check (fun h0 => .update ?_) fun _ => hmoving _ w (resultOf_negative _) ?_
  · obtain ⟨hfree, hmove⟩ := hrenamed (htry.1 h0)
    have h3 := h2.set hcnt fun e => { e with cleanupState := .renameSyncPending }
    exact ⟨h3.toEntryOnly, ⟨object, hsrc, h3.entry⟩, hfree, hmove⟩
  rcases htry.2 with rfl | hr
  · exact Or.inl rfl
  · exact Or.inr (hrenamed hr)

/-- **Making the rename durable** finishes the entry. -/
theorem settleRename_rule {a0 : State View} (hcnt : i < a0.op.entryCount) (htemp : NoTemp a0.op)
    (hrdy : Ready (a0.op.entry i) M M) (hnone : (a0.op.entry i).replacementState = .none)
    (hmoved : JustMoved id i M a0 a) : Shows G.watch (settleRename B i)
      (fun _ a' => EntryOnly i a0.op a'.op ∧ (Carries i M a0.op a'.op ∨
        Plain (a'.op.entry i) ∧ Finished (a'.op.entry i) M a'.world.names)) (MoveFails id i M a0.op) a := by
  obtain ⟨object, hsrc, hent⟩ := hmoved.moved
  set e := a0.op.entry i with he
  -- until both directories are durable a failure leaves the entry lost
  have hlost : ∀ r : Result, r.negative = true → MoveFails id i M a0.op r a := by
    intro r hr
    by_cases htoken : identityHasToken object = true
    · exact .inl ⟨object, hsrc, htoken, by rw [hent]⟩
    refine .inr ⟨⟨hr, hmoved.only.frame, .inl ⟨by rw [hmoved.only.count]; exact hcnt, .inr ?_⟩⟩, ?_⟩
    · rw [hent]
      exact ⟨rfl, rfl⟩
    · rw [hent]
      exact ⟨hrdy.created, eq_false_of_ne_true htoken, hnone⟩
  have hfinish : Shows G.watch (do
        update fun op => op.setEntry i fun e => { e with cleanupState := .none }
        checkpoint B Result.ioFailed)
      (fun _ a' => EntryOnly i a0.op a'.op ∧ (Carries i M a0.op a'.op ∨
        Plain (a'.op.entry i) ∧ Finished (a'.op.entry i) M a'.world.names)) (MoveFails id i M a0.op) a := by
    have h1 := Edited.set ⟨hmoved.only, hent⟩ hcnt fun e => { e with cleanupState := .none }
    set e1 : Entry := { e with objectIdentity := object, applied := true, cleanupState := .none }
    have hfin (htoken : identityHasToken object = false) : Plain e1 ∧ Finished e1 M a.world.names :=
      ⟨⟨hrdy.created, htoken, hnone⟩,
        rfl, .inr ⟨rfl, hrdy.created, htoken, hnone, hsrc, hmoved.free, hmoved.names⟩⟩
    refine .change <| .checkpoint hB ⟨h1.toEntryOnly, ?_⟩ (MoveFails.of_object htemp rfl h1 hsrc rfl
      fun htoken => ⟨(hfin htoken).1, (hfin htoken).2.layer⟩)
    by_cases htoken : identityHasToken object = true
    · exact .inl ⟨object, hsrc, htoken, by rw [h1.entry]⟩
    · rw [h1.entry]
      exact .inr (hfin (eq_false_of_ne_true htoken))
  refine .bind <| .checkpoint hB ?_ (hlost _ rfl)
  refine .read <| .bind <| .syncParentOnce hB ?_ hlost
  refine .bind <| .when (fun _ => ?_) fun _ => hfinish
  exact .syncParentOnce hB hfinish hlost

/-! ## §3. The forward step. -/

omit hB

/-- All entries are plain when the entry at hand is. -/
theorem plain_of_frame {op op' : Operation} (hplain : ∀ k, Plain (op.entry k))
    (hframe : Frame i op op') (hi : Plain (op'.entry i)) (k : Nat) : Plain (op'.entry k) := by
  by_cases hk : k = i
  · rw [hk]; exact hi
  · rw [hframe.other k hk]; exact hplain k

/-- A conflict check leaves a plain entry plain. -/
theorem Cleared.plain {a' : State View} (h : Cleared id i M a a') (hpol : a.op.conflictPolicy ≠ .replace)
    (hplain : Plain (a.op.entry i)) : Plain (a'.op.entry i) := by
  refine ⟨h.ready.created, h.ready.onlyReplaced.token, ?_⟩
  by_contra hne
  rcases h.replaced hne with hold | hrepl
  · exact hold hplain.replacement
  · exact hpol hrepl

include hB

/-- **A forward step of a move** goes on, completes the operation, or leaves a state that can be
rolled back; otherwise it has recorded an object that carries a token. -/
theorem forwardNamespace_shows {s : State W} (hgoing : Going G.view N₀ s) (hmove : s.op.operation ≠ .copy)
    (hpol : s.op.conflictPolicy ≠ .replace) (hplain : ∀ k, Plain (s.op.entry k)) :
    Shows G.watch (forwardNamespace B)
      (fun r a' => r = .inProgress ∧ (Continues id N₀ (seen G.view s) a' ∧ (∀ k, Plain (a'.op.entry k)) ∨
          Carries s.op.entryIndex (G.view s.world).names s.op a'.op ∧ s.op.entryIndex < a'.op.entryIndex) ∨
        r = .completed ∧ s.op.entryCount ≤ s.op.entryIndex ∧
          a' = { seen G.view s with op := { s.op with active := false } })
      (fun r a' => Carries s.op.entryIndex (G.view s.world).names s.op a'.op ∨
        Stops id N₀ (seen G.view s) r a' ∧ ∀ k, Plain (a'.op.entry k))
      (seen G.view s) := by
  obtain ⟨M, top, hbelow, hrdy, htemp⟩ := hgoing.layers
  have hno : NoTemp s.op ∧ (G.view s.world).names = top := by
    rcases htemp with h | h
    · exact h
    · exact absurd h.copy hmove
  rw [← hno.2] at hrdy
  refine .read <| .ite (fun hdone => ?_) fun hlt => ?_
  · exact .change <| .pure (.inr ⟨rfl, hdone, rfl⟩)
  refine .check (fun _ => ?_) fun _ => .inr ⟨⟨rfl, rfl, .inr hgoing.recoverable⟩, hplain⟩
  have hat : AtHand N₀ M (seen G.view s) := ⟨hbelow, Nat.lt_of_not_le hlt⟩
  have hfails : ∀ (r : Result) (a' : State View),
      Fails id s.op.entryIndex M s.op r a' → Plain (a'.op.entry s.op.entryIndex) →
      Stops id N₀ (seen G.view s) r a' ∧ ∀ k, Plain (a'.op.entry k) := fun r a' h hi =>
    ⟨hat.stops r a' h, plain_of_frame hplain h.2.1 hi⟩
  have hN : (G.view s.world).names = M :=
    (Replaced.of_none (hplain _).replacement).mp hrdy.replaced.replaced
  -- the conflict check leaves the entry ready and plain, on the plan it had
  refine .bind <| .mono (conflict_shows hB (a := seen G.view s) ⟨hat.lt, hno.1, hrdy⟩) (fun _ a1 h1 => ?_)
    fun r a1 h1 => .inr (hfails r a1 h1.1 (by rw [h1.2 hpol]; exact hplain _))
  have hplain1 := h1.plain hpol (hplain _)
  have hframe1 : Frame s.op.entryIndex s.op a1.op := h1.only.frame
  have htemp1 : NoTemp a1.op := hno.1.entryOnly h1.only
  have hcnt1 : s.op.entryIndex < a1.op.entryCount := by rw [hframe1.count]; exact hat.lt
  have hN1 : a1.world.names = M :=
    (Replaced.of_none hplain1.replacement).mp h1.ready.replaced.replaced
  have hnext : ∀ a' : State View, Frame s.op.entryIndex s.op a'.op → NoTemp a'.op →
      Plain (a'.op.entry s.op.entryIndex) → Finished (a'.op.entry s.op.entryIndex) M a'.world.names →
      Continues id N₀ (seen G.view s) { a' with op := nextEntry a'.op } ∧
        ∀ k, Plain (a'.op.entry k) := fun a' hframe htemp' hplain' hfin =>
    ⟨hat.next hframe htemp' hfin, plain_of_frame hplain hframe hplain'⟩
  refine .read <| .ite (fun _ => finishEntry_rule (.pure ?_)) fun _ => finishEntry_rule ?_
  · obtain ⟨hcont, hplain'⟩ := hnext a1 hframe1 htemp1 hplain1 h1.ready.finished
    exact .inl ⟨rfl, .inl ⟨hcont, hplain'⟩⟩
  have hsrc1 : (a1.op.entry s.op.entryIndex).sourcePath
      = (s.op.entry s.op.entryIndex).sourcePath := h1.plan.sourcePath
  have hcarries : ∀ op', Carries s.op.entryIndex M a1.op op' →
      Carries s.op.entryIndex (G.view s.world).names s.op op' := by
    rintro op' ⟨object, hobject, h⟩
    rw [hsrc1, ← hN] at hobject
    exact ⟨object, hobject, h⟩
  have hback : ∀ (r : Result) (a' : State View), MoveFails id s.op.entryIndex M a1.op r a' →
      Carries s.op.entryIndex (G.view s.world).names s.op a'.op ∨
        Stops id N₀ (seen G.view s) r a' ∧ ∀ k, Plain (a'.op.entry k) := fun r a' h =>
    h.imp (hcarries _) fun h => hfails r a' (h.1.frame hframe1) h.2
  refine .bind <| .mono (renameEntry_rule hB (i := s.op.entryIndex) hcnt1 htemp1 h1.ready hplain1.replacement)
    (fun _ a2 h2 => ?_) hback
  have hrdy1 : Ready (a1.op.entry s.op.entryIndex) M M := by
    have hrdy1 := h1.ready
    rw [show (id a1.world).names = M from hN1] at hrdy1
    exact hrdy1
  refine .mono (settleRename_rule hB (i := s.op.entryIndex) hcnt1 htemp1 hrdy1 hplain1.replacement h2) ?_ hback
  rintro _ a3 ⟨honly, hcarry | ⟨hplain3, hfin⟩⟩
  · refine .inl ⟨rfl, .inr ⟨hcarries _ hcarry, ?_⟩⟩
    have hidx : a3.op.entryIndex = s.op.entryIndex :=
      congrArg Core.entryIndex (hframe1.trans honly.frame).core
    show s.op.entryIndex < a3.op.entryIndex + 1
    omega
  · exact .inl ⟨rfl, .inl (hnext a3 (hframe1.trans honly.frame) (htemp1.entryOnly honly) hplain3 hfin)⟩

omit hB in
theorem forwardNamespace_rule (hB : Lawful view B) {s : State W} (hgoing : Going view N₀ s)
    (hmove : s.op.operation ≠ .copy) (hpol : s.op.conflictPolicy ≠ .replace)
    (hplain : ∀ k, Plain (s.op.entry k)) : wp (forwardNamespace B)
      (fun r s' => r = .inProgress ∧ (Continues view N₀ s s' ∧ (∀ k, Plain (s'.op.entry k)) ∨
          Carries s.op.entryIndex (view s.world).names s.op s'.op ∧ s.op.entryIndex < s'.op.entryIndex) ∨
        r = .completed ∧ Completes view s s')
      (fun r s' => Carries s.op.entryIndex (view s.world).names s.op s'.op ∨
        Stops view N₀ s r s' ∧ ∀ k, Plain (s'.op.entry k)) s := by
  refine wp_mono (forwardNamespace_shows hB.watched hgoing hmove hpol hplain).run ?_ ?_
  · rintro r s' (⟨hr, ⟨h, hplain'⟩ | hcarry⟩ | ⟨hr, h⟩)
    · exact .inl ⟨hr, .inl ⟨⟨⟨h.going.index_le, h.going.layers⟩, h.run⟩, hplain'⟩⟩
    · exact .inl ⟨hr, .inr hcarry⟩
    · exact .inr ⟨hr, .of_seen h.1 h.2⟩
  · rintro r s' (hcarry | ⟨h, hplain'⟩)
    · exact .inl hcarry
    · exact .inr ⟨{ h with }, hplain'⟩

end
end RinRuntime.FileOperation

/-
PieceTable.Reachable — what holds of every table a program can reach.

Two facts over any sequence of operations. The line index is the split of the text at its newlines
(`lines_split`): every success rebuilds it, every failure leaves text and index alone. The number of pieces
stays within `kMaxPieces` as long as no `erase` cuts a hole into one piece of a full table
(`pieces_bounded_iff`): `insert` counts the pieces it makes, `erase` does not.

Neighbouring pieces of a reachable table are never adjacent slices (`Coalesced`), so `coalesce` gives
nothing back after such an `erase`.
-/
import RinRuntime.PieceTable.Content
import Mathlib.Data.List.Chain
import Mathlib.Data.List.GetD

namespace RinRuntime.PieceTable
open Lib.Splice List Function

/-! ## §1. Operations. -/

/-- `disableSecureStorage`. -/
def Table.disableSecureStorage (t : Table) : Table := { t.secureClear with secureStorage := false }

/-- `reserveSecureAppend`; `reserved` says that the buffer has the capacity already. -/
def Table.reserveSecureAppend (mem : Memory) (reserved : Bool) (t : Table) : Bool × Table :=
  if reserved then (true, { t with secureStorage := true })
  else if t.added ≠ [] then (false, t)
  else (mem .added, { t with secureStorage := true })

/-- `lineCount`. -/
def Table.lineCount (t : Table) : Nat := t.lineStarts.length

/-- `pieceCount`. -/
def Table.pieceCount (t : Table) : Nat := t.pieces.length

/-- The operations of a program; tables are numbered. -/
inductive Operation where
  | call (command : Command) (mem : Memory)
  | disableSecureStorage (table : Nat)
  | reserveSecureAppend (table : Nat) (reserved : Bool) (mem : Memory)

/-- The tables after an operation. -/
def operate (tables : Nat → Table) : Operation → Nat → Table
  | .call command mem => (perform mem tables command).2
  | .disableSecureStorage i => Function.update tables i (tables i).disableSecureStorage
  | .reserveSecureAppend i reserved mem =>
      Function.update tables i ((tables i).reserveSecureAppend mem reserved).2

theorem operate_erase (tables : Nat → Table) (i position length : Nat) (mem : Memory) :
    operate tables (.call (.erase i position length) mem) i = ((tables i).erase mem position length).2 :=
  update_self ..

theorem operate_insert (tables : Nat → Table) (i position : Nat) (value : Bytes) (mem : Memory) :
    operate tables (.call (.insert i position value) mem) i = ((tables i).insert mem position value).2 :=
  update_self ..

/-- The tables after a sequence of operations, all tables new at first. -/
def reach (operations : List Operation) : Nat → Table := operations.foldl operate fun _ => Table.new

theorem reach_append (operations : List Operation) (operation : Operation) :
    reach (operations ++ [operation]) = operate (reach operations) operation := foldl_concat ..

variable {tables : Nat → Table} {pieces : List Piece} {position stop : Nat}

/-- What holds of a table that replaces another one, and of the others, holds of all. -/
theorem forall_update {P : Table → Prop} (h : ∀ i, P (tables i)) {i : Nat}
    {t : Table} (ht : P t) : ∀ j, P (update tables i t j) := by
  intro j
  by_cases hj : j = i
  · rw [hj, update_self]
    exact ht
  · rw [update_of_ne hj]
    exact h j

theorem reserveSecureAppend_eq (mem : Memory) (reserved : Bool) (t : Table) :
    ∃ secure, (t.reserveSecureAppend mem reserved).2 = { t with secureStorage := secure } := by
  unfold Table.reserveSecureAppend
  split_ifs
  · exact ⟨true, rfl⟩
  · exact ⟨t.secureStorage, rfl⟩
  · exact ⟨true, rfl⟩

theorem operate_consistent (h : ∀ i, Consistent (tables i))
    (operation : Operation) : ∀ i, Consistent (operate tables operation i) := by
  cases operation with
  | call command mem =>
    have hboth : ∀ i, Represents (tables i) (tables i).text := fun i => ⟨h i, rfl⟩
    exact fun i => (@both_represents (tables, fun i => (tables i).text) hboth (command, mem) i).1
  | disableSecureStorage i => exact forall_update h (represents_secureClear _ false).1
  | reserveSecureAppend i reserved mem =>
    refine forall_update h ?_
    obtain ⟨secure, hsecure⟩ := reserveSecureAppend_eq mem reserved (tables i)
    rw [hsecure]
    exact ⟨(h i).inBounds, (h i).size, (h i).bounded, (h i).lines⟩

theorem reach_consistent (operations : List Operation) : ∀ i, Consistent (reach operations i) := by
  induction operations using List.reverseRecOn with
  | nil => exact fun _ => represents_new.1
  | append_singleton operations operation ih =>
    rw [reach_append]
    exact operate_consistent ih operation

/-! ## §2. Lines. -/

/-- Where lines start that stand one after the other from `position` on, with a newline behind each. -/
def startsFrom : (position : Nat) → List Bytes → List Nat
  | _, [] => []
  | position, line :: lines => position :: startsFrom (position + line.length + 1) lines

/-- The bytes of lines with a newline behind each. -/
def extent (lines : List Bytes) : Nat := (lines.map fun line => line.length + 1).sum

@[simp] theorem extent_cons (line : Bytes) (lines : List Bytes) :
    extent (line :: lines) = line.length + 1 + extent lines := sum_cons

theorem length_startsFrom (position : Nat) (lines : List Bytes) :
    (startsFrom position lines).length = lines.length := by
  induction lines generalizing position with
  | nil => rfl
  | cons line lines ih => rw [startsFrom, length_cons, length_cons, ih]

/-- A line starts behind the lines before it. -/
theorem getD_startsFrom {lines : List Bytes} {i : Nat} (hi : i < lines.length) (position : Nat) :
    (startsFrom position lines).getD i 0 = position + extent (lines.take i) := by
  induction lines generalizing i position with
  | nil => simp at hi
  | cons line lines ih =>
    cases i with
    | zero => rfl
    | succ i =>
      rw [startsFrom, getD_cons_succ, ih (Nat.lt_of_succ_lt_succ hi), take_succ_cons, extent_cons]
      omega

/-- The index `rebuildLineIndex` makes of a text: behind the lines it has, the starts of those to come. -/
theorem foldl_lineStep (text : Bytes) (position : Nat) (starts : List Nat) :
    (text.foldl lineStep (position, starts)).2
      = starts ++ (startsFrom position (text.splitOn 10)).tail := by
  induction text generalizing position starts with
  | nil => simp [startsFrom]
  | cons byte text ih =>
    rw [foldl_cons, lineStep, ih]
    unfold List.splitOn
    obtain ⟨line, lines, hlines⟩ := exists_cons_of_ne_nil (splitOnP_ne_nil (· == (10 : UInt8)) text)
    rw [splitOnP_cons_eq_if_modifyHead, hlines]
    by_cases hnewline : byte = 10
    · simp [hnewline, startsFrom]
    simp only [hnewline, if_false, beq_iff_eq, modifyHead_cons, startsFrom, tail_cons, length_cons]
    congr 2
    omega

/-- The lines of a text with their newlines make up the text, but for the newline the last one lacks. -/
theorem extent_splitOn (text : Bytes) : extent (text.splitOn 10) = text.length + 1 := by
  induction text with
  | nil => rfl
  | cons byte text ih =>
    unfold List.splitOn at ih ⊢
    obtain ⟨line, lines, hlines⟩ := exists_cons_of_ne_nil (splitOnP_ne_nil (· == (10 : UInt8)) text)
    rw [splitOnP_cons_eq_if_modifyHead]
    rw [hlines] at ih ⊢
    split_ifs
    · rw [extent_cons, ih, length_nil, length_cons]
      omega
    rw [modifyHead_cons, extent_cons, length_cons, length_cons]
    rw [extent_cons] at ih
    omega

theorem length_splitOn_eq_count (text : Bytes) : (text.splitOn 10).length = 1 + text.count 10 := by
  induction text with
  | nil => rfl
  | cons byte text ih =>
    unfold List.splitOn at ih ⊢
    rw [splitOnP_cons_eq_if_modifyHead, count_cons]
    split_ifs
    · rw [length_cons, ih]
      omega
    · rw [length_modifyHead, ih, Nat.add_zero]

section
variable {t : Table} (h : Consistent t)
include h

theorem Consistent.lineStarts_eq : t.lineStarts = startsFrom 0 (t.text.splitOn 10) := by
  rw [h.lines, foldl_lineStep]
  obtain ⟨line, lines, hlines⟩ := exists_cons_of_ne_nil (splitOn_ne_nil (10 : UInt8) t.text)
  rw [hlines]
  rfl

theorem Consistent.lineCount_eq : t.lineCount = (t.text.splitOn 10).length := by
  rw [Table.lineCount, h.lineStarts_eq, length_startsFrom]

theorem Consistent.lineRange_eq {line : Nat} (hline : line < t.lineCount) :
    t.lineRange line = some (extent ((t.text.splitOn 10).take line),
      ((t.text.splitOn 10).getD line []).length) := by
  have hcnt := h.lineCount_eq
  have hstarts := h.lineStarts_eq
  have hsize := h.size
  have htotal := extent_splitOn t.text
  set lines := t.text.splitOn 10
  have hlt : line < lines.length := hcnt ▸ hline
  have hnext : extent (lines.take (line + 1)) = extent (lines.take line) + ((lines.getD line []).length + 1) := by
    rw [take_succ_eq_append_getElem hlt, extent, map_append, sum_append, getD_eq_getElem _ _ hlt]
    rfl
  have hlen : t.lineStarts.length = lines.length := hcnt
  unfold Table.lineRange
  rw [hlen, if_neg (Nat.not_le.mpr hlt), hstarts, getD_startsFrom hlt, Nat.zero_add]
  dsimp only
  split_ifs with hlast hshort hshort
  · rw [getD_startsFrom hlast] at hshort
    omega
  · rw [getD_startsFrom hlast]
    congr 2
    omega
  all_goals rw [show line + 1 = lines.length by omega, take_length] at hnext
  · omega
  · congr 2
    omega

end

/-- **The line index is the split of the text at its newlines**, in every reachable table: there is one line
more than there are newlines, and `lineRange` returns where a line of the split starts and how long it is. -/
theorem lines_split (operations : List Operation) (i : Nat) :
    let t := reach operations i
    let lines := t.text.splitOn 10
    t.lineCount = 1 + t.text.count 10 ∧ t.lineCount = lines.length ∧
    ∀ line < t.lineCount,
      t.lineRange line = some (extent (lines.take line), (lines.getD line []).length) := by
  have h := reach_consistent operations i
  refine ⟨?_, h.lineCount_eq, fun line hline => h.lineRange_eq hline⟩
  rw [h.lineCount_eq, length_splitOn_eq_count]

/-! ## §3. Pieces. -/

/-- No piece continues the one before it. -/
def Coalesced (pieces : List Piece) : Prop := pieces.IsChain fun left right => adjacent left right = false

theorem coalesceLoop_coalesced (merged pieces : List Piece) (h : Coalesced merged.reverse) :
    Coalesced (coalesceLoop merged pieces) ∧
      (coalesceLoop merged pieces).length ≤ merged.length + pieces.length := by
  induction pieces generalizing merged with
  | nil =>
    cases merged with
    | nil => exact ⟨h, Nat.le_refl _⟩
    | cons back merged => exact ⟨h, by simp [coalesceLoop]⟩
  | cons piece pieces ih =>
    cases merged with
    | nil =>
      obtain ⟨hchain, hlen⟩ := ih [piece] (.singleton _)
      refine ⟨hchain, Nat.le_trans hlen ?_⟩
      simp only [length_cons, length_nil]
      omega
    | cons back merged =>
      rw [coalesceLoop]
      rw [reverse_cons] at h
      split_ifs with hadjacent
      · -- a longer last piece is adjacent to the same pieces on its left
        obtain ⟨hchain, hlen⟩ := ih ({ back with length := back.length + piece.length } :: merged) (by
          rw [reverse_cons]
          obtain ⟨hfront, _, hlast⟩ := isChain_append.mp h
          refine isChain_append.mpr ⟨hfront, .singleton _, fun left hleft right hright => ?_⟩
          obtain rfl : _ = right := Option.some.inj hright
          exact hlast left hleft back rfl)
        refine ⟨hchain, Nat.le_trans hlen ?_⟩
        simp only [length_cons]
        omega
      obtain ⟨hchain, hlen⟩ := ih (piece :: back :: merged) (by
        rw [reverse_cons, reverse_cons]
        refine isChain_append.mpr ⟨h, .singleton _, fun left hleft right hright => ?_⟩
        obtain rfl : piece = right := Option.some.inj hright
        rw [List.getLast?_concat] at hleft
        obtain rfl : back = left := Option.some.inj hleft
        simpa using hadjacent)
      refine ⟨hchain, Nat.le_trans hlen ?_⟩
      simp only [length_cons]
      omega

theorem coalesce_coalesced (pieces : List Piece) :
    Coalesced (coalesce pieces) ∧ (coalesce pieces).length ≤ pieces.length := by
  unfold coalesce
  split_ifs with hfew
  · refine ⟨?_, Nat.le_refl _⟩
    match pieces, hfew with
    | [], _ => exact .nil
    | [_], _ => exact .singleton _
  · obtain ⟨hchain, hlen⟩ := coalesceLoop_coalesced [] pieces .nil
    exact ⟨hchain, by simpa using hlen⟩

/-- Where nothing is adjacent there is nothing to merge. -/
theorem coalesceLoop_eq (merged pieces : List Piece) (h : Coalesced (merged.reverse ++ pieces)) :
    coalesceLoop merged pieces = merged.reverse ++ pieces := by
  induction pieces generalizing merged with
  | nil => cases merged <;> simp [coalesceLoop]
  | cons piece pieces ih =>
    have hcons : Coalesced ((piece :: merged).reverse ++ pieces) := by simpa using h
    cases merged with
    | nil => simpa [coalesceLoop] using ih [piece] hcons
    | cons back merged =>
      have hfree : adjacent back piece = false :=
        (isChain_append.mp h).2.2 back (by simp) piece rfl
      rw [coalesceLoop, hfree]
      simpa using ih (piece :: back :: merged) hcons

theorem coalesce_eq (h : Coalesced pieces) : coalesce pieces = pieces := by
  unfold coalesce
  split_ifs
  · rfl
  · exact coalesceLoop_eq [] pieces h

/-- The range lies within one piece and touches neither of its ends. -/
def Pierces (pieces : List Piece) (position stop : Nat) : Prop :=
  ∃ front piece back, pieces = front ++ piece :: back ∧
    (front.map Piece.length).sum < position ∧ stop < (front.map Piece.length).sum + piece.length

theorem eraseLoop_before {front : List Piece} (back : List Piece) :
    ∀ cursor, cursor + (front.map Piece.length).sum ≤ position →
    eraseLoop position stop cursor (front ++ back)
      = front ++ eraseLoop position stop (cursor + (front.map Piece.length).sum) back := by
  induction front with
  | nil => exact fun _ _ => rfl
  | cons piece front ih =>
    intro cursor h
    rw [map_cons, sum_cons] at h ⊢
    rw [cons_append, eraseLoop, if_pos (Or.inl (by omega)), ih _ (by omega), Nat.add_assoc]
    rfl

theorem eraseLoop_behind (pieces : List Piece) :
    ∀ cursor, stop ≤ cursor → eraseLoop position stop cursor pieces = pieces := by
  induction pieces with
  | nil => exact fun _ _ => rfl
  | cons piece pieces ih =>
    intro cursor h
    rw [eraseLoop, if_pos (Or.inr h), ih _ (by omega)]
    rfl

/-- A hole leaves the two ends of its piece; they do not merge with anything. -/
theorem eraseLoop_pierced (h : Coalesced pieces)
    (hlt : position < stop) (hhole : Pierces pieces position stop) :
    Coalesced (eraseLoop position stop 0 pieces) ∧
      (eraseLoop position stop 0 pieces).length = pieces.length + 1 := by
  obtain ⟨front, piece, back, rfl, hfst, hlast⟩ := hhole
  set cursor := (front.map Piece.length).sum
  have hloop : eraseLoop position stop 0 (front ++ piece :: back)
      = front ++ { piece with length := position - cursor } ::
        { piece with offset := piece.offset + (stop - cursor), length := cursor + piece.length - stop } ::
          back := by
    rw [eraseLoop_before _ 0 (by omega), Nat.zero_add, eraseLoop, if_neg (by omega), if_pos hfst,
      if_pos hlast, eraseLoop_behind _ _ (by omega)]
    rfl
  obtain ⟨hfront, hback, hjoin⟩ := isChain_append.mp h
  rw [hloop]
  refine ⟨isChain_append.mpr ⟨hfront, ?_, fun left hleft right hright => ?_⟩, ?_⟩
  · refine isChain_cons_cons.mpr ⟨?_, ?_⟩
    · simp only [adjacent, beq_self_eq_true, Bool.true_and, beq_eq_false_iff_ne]
      omega
    cases back with
    | nil => exact .singleton _
    | cons next back =>
      obtain ⟨hnext, hrest⟩ := isChain_cons_cons.mp hback
      refine isChain_cons_cons.mpr ⟨?_, hrest⟩
      rw [← hnext]
      unfold adjacent
      congr 2
      dsimp only
      omega
  · obtain rfl : _ = right := Option.some.inj hright
    exact hjoin left hleft piece rfl
  · simp only [length_append, length_cons]
    omega

/-- Nothing but a hole makes more pieces. -/
theorem pierces_of_longer : ∀ cursor, pieces.length < (eraseLoop position stop cursor pieces).length →
    ∃ front piece back, pieces = front ++ piece :: back ∧ cursor + (front.map Piece.length).sum < position ∧
      stop < cursor + (front.map Piece.length).sum + piece.length := by
  induction pieces with
  | nil => simp [eraseLoop]
  | cons piece pieces ih =>
    intro cursor h
    by_cases hhere : cursor < position ∧ stop < cursor + piece.length
    · exact ⟨[], piece, pieces, rfl, hhere⟩
    have hone : pieces.length < (eraseLoop position stop (cursor + piece.length) pieces).length := by
      rw [eraseLoop, length_append, length_cons] at h
      split_ifs at h <;> simp only [length_append, length_cons, length_nil] at h <;> omega
    obtain ⟨front, found, back, rfl, hfst, hlast⟩ := ih _ hone
    refine ⟨piece :: front, found, back, rfl, ?_⟩
    rw [map_cons, sum_cons]
    omega

/-- An `erase` that cuts a hole into a piece of a full table, and gets the memory for it. -/
structure Overfills (mem : Memory) (t : Table) (position length : Nat) : Prop where
  full : t.pieceCount = kMaxPieces
  inside : position + length ≤ t.size
  nonempty : length ≠ 0
  memory : mem .pieces = true ∧ mem .merged = true ∧ mem .lineStarts = true
  hole : Pierces t.pieces position (position + length)

section
variable {t : Table} {mem : Memory}

/-- A table that keeps to the limit, without adjacent pieces. -/
structure Bounded (t : Table) : Prop where
  coalesced : Coalesced t.pieces
  count : t.pieceCount ≤ kMaxPieces

theorem insert_bounded (h : Bounded t) (position : Nat) (value : Bytes) :
    Bounded (t.insert mem position value).2 := by
  obtain heq | ⟨_, _, hfew, heq⟩ := insert_cases mem t position value
  · rw [heq]
    exact h
  rw [heq]
  obtain ⟨hchain, hlen⟩ := coalesce_coalesced
    (placeLoop position ⟨.added, t.added.length, value.length⟩ 0 false t.pieces)
  exact ⟨hchain, Nat.le_trans hlen hfew⟩

theorem setOriginal_bounded (h : Bounded t) (original : Bytes) :
    Bounded (t.setOriginal mem original).2 := by
  obtain heq | ⟨_, heq⟩ := setOriginal_cases mem t original
  · rw [heq]
    exact h
  rw [heq]
  unfold originalPieces
  split_ifs
  · exact ⟨.nil, Nat.zero_le _⟩
  · exact ⟨.singleton _, show 1 ≤ kMaxPieces by decide⟩

/-- Such an `erase` leaves one piece too many. -/
theorem Overfills.count {position length : Nat} (h : Coalesced t.pieces) (hover : Overfills mem t position length) :
    (t.erase mem position length).2.pieceCount = kMaxPieces + 1 := by
  obtain ⟨hsplit, hone⟩ := eraseLoop_pierced h
    (Nat.lt_add_of_pos_right (Nat.pos_of_ne_zero hover.nonempty)) hover.hole
  obtain ⟨hpieces, hmerged, hlines⟩ := hover.memory
  obtain ⟨hunfit, _⟩ | ⟨hnone, _⟩ | ⟨_, _, heq⟩ := erase_cases mem t position length
  · exact absurd ⟨hover.inside, hpieces, by simp [coalesceFits, hmerged], hlines⟩ hunfit
  · exact absurd hnone hover.nonempty
  · rw [heq, Table.pieceCount, coalesce_eq hsplit, hone]
    exact congrArg (· + 1) hover.full

/-- Any other one keeps to the limit. -/
theorem erase_bounded {position length : Nat} (h : Bounded t) (hsafe : ¬ Overfills mem t position length) :
    Bounded (t.erase mem position length).2 := by
  have hmax : 2 ≤ kMaxPieces := by decide
  have hlimit : t.pieces.length ≤ kMaxPieces := h.count
  obtain ⟨_, heq⟩ | ⟨_, heq⟩ | ⟨⟨hinside, hpieces, hmerged, hlines⟩, hnone, heq⟩ :=
    erase_cases mem t position length
  · rw [heq]
    exact h
  · rw [heq]
    exact h
  rw [heq]
  obtain ⟨hchain, hlen⟩ := coalesce_coalesced (eraseLoop position (position + length) 0 t.pieces)
  refine ⟨hchain, Nat.le_trans hlen (Nat.not_lt.mp fun hmore => hsafe ?_)⟩
  -- more pieces than before: the table was full, and the range is a hole
  obtain ⟨front, piece, back, hsplit, hfst, hlast⟩ := pierces_of_longer 0 (Nat.lt_of_le_of_lt hlimit hmore)
  rw [Nat.zero_add] at hfst hlast
  have hhole : Pierces t.pieces position (position + length) := ⟨front, piece, back, hsplit, hfst, hlast⟩
  obtain ⟨_, hone⟩ := eraseLoop_pierced h.coalesced (by omega) hhole
  rw [coalesceFits, decide_eq_false (by omega), Bool.false_or] at hmerged
  exact ⟨show t.pieces.length = kMaxPieces by omega, hinside, hnone, ⟨hpieces, hmerged, hlines⟩, hhole⟩

end

/-- The operation is such an `erase`. -/
def Overfill (tables : Nat → Table) : Operation → Prop
  | .call (.erase i position length) mem => Overfills mem (tables i) position length
  | _ => False

theorem operate_overfill (h : ∀ i, Bounded (tables i)) {operation : Operation}
    (hover : Overfill tables operation) : ∃ i, kMaxPieces < (operate tables operation i).pieceCount := by
  match operation, hover with
  | .call (.erase i position length) mem, hover =>
    refine ⟨i, ?_⟩
    rw [operate_erase, Overfills.count (h i).coalesced hover]
    exact Nat.lt_succ_self _

theorem operate_bounded (h : ∀ i, Bounded (tables i)) {operation : Operation}
    (hsafe : ¬ Overfill tables operation) : ∀ i, Bounded (operate tables operation i) := by
  have hnil : ∀ t : Table, t.pieces = [] → Bounded t := fun t ht =>
    ⟨by rw [ht]; exact .nil, by rw [Table.pieceCount, ht]; exact Nat.zero_le _⟩
  cases operation with
  | call command mem =>
    cases command with
    | erase i position length => exact forall_update h (erase_bounded (h i) hsafe)
    | setOriginal i original => exact forall_update h (setOriginal_bounded (h i) original)
    | insert i position value => exact forall_update h (insert_bounded (h i) position value)
    | clear i | secureClear i => exact forall_update h (hnil _ rfl)
    | cloneForSecureMode i output =>
      rw [operate, perform]
      split_ifs
      · exact h
      refine forall_update h ?_
      unfold Table.cloneForSecureMode
      split_ifs
      · exact hnil _ rfl
      · exact ⟨(h i).coalesced, (h i).count⟩
  | disableSecureStorage i => exact forall_update h (hnil _ rfl)
  | reserveSecureAppend i reserved mem =>
    refine forall_update h ?_
    obtain ⟨secure, hsecure⟩ := reserveSecureAppend_eq mem reserved (tables i)
    rw [hsecure]
    exact ⟨(h i).coalesced, (h i).count⟩

/-- A run without such an `erase`. -/
theorem reach_bounded (operations : List Operation)
    (h : ∀ before operation, before ++ [operation] <+: operations → (∀ i, Bounded (reach before i)) →
      ¬ Overfill (reach before) operation) : ∀ i, Bounded (reach operations i) := by
  induction operations using List.reverseRecOn with
  | nil => exact fun _ => ⟨show Coalesced [] from .nil, Nat.zero_le _⟩
  | append_singleton operations operation ih =>
    have hbounded := ih fun before next hbef => h before next (hbef.trans (prefix_append _ _))
    rw [reach_append]
    exact operate_bounded hbounded (h _ _ (prefix_refl _) hbounded)

/-- **The limit on pieces**: along a run the tables keep to `kMaxPieces` exactly when no operation of it is
an `erase` that cuts a hole into a piece of a full table. -/
theorem pieces_bounded_iff (operations : List Operation) :
    (∀ before, before <+: operations → ∀ i, (reach before i).pieceCount ≤ kMaxPieces) ↔
    ∀ before operation, before ++ [operation] <+: operations → ¬ Overfill (reach before) operation := by
  constructor
  · intro hcnt
    have hstep : ∀ before operation, before ++ [operation] <+: operations →
        (∀ i, Bounded (reach before i)) → ¬ Overfill (reach before) operation := by
      intro before operation hbef hbounded hover
      obtain ⟨i, hi⟩ := operate_overfill hbounded hover
      rw [← reach_append] at hi
      exact absurd (hcnt _ hbef i) (Nat.not_le.mpr hi)
    intro before operation hbef
    refine hstep before operation hbef (reach_bounded before fun front next hfront => hstep front next ?_)
    exact hfront.trans ((prefix_append _ _).trans hbef)
  intro hsafe before hbef i
  refine (reach_bounded before (fun front next hfront _ => ?_) i).count
  exact hsafe front next (hfront.trans hbef)

/-! A table fills up with pieces when text is inserted at its front: each piece stands before the one it
follows in the buffer. -/

/-- Three letters at the front of table 0. -/
def atFront : Operation := .call (.insert 0 0 [0x61, 0x61, 0x61]) fun _ => true

theorem insert_front {t : Table} (h : Consistent t) (hchain : Coalesced t.pieces)
    (hsize : t.size + 3 ≤ kMaxBytes) (hadded : t.added.length + 3 ≤ kMaxBytes)
    (hpieces : t.pieceCount < kMaxPieces) :
    let t' := (t.insert (fun _ => true) 0 [0x61, 0x61, 0x61]).2
    t'.size = t.size + 3 ∧ t'.added.length = t.added.length + 3 ∧
      t'.pieces = ⟨.added, t.added.length, 3⟩ :: t.pieces := by
  have hcnt : t.pieces.length < kMaxPieces := hpieces
  have hplace : placeLoop 0 ⟨.added, t.added.length, 3⟩ 0 false t.pieces
      = ⟨.added, t.added.length, 3⟩ :: t.pieces := by
    cases t.pieces with
    | nil => rfl
    | cons piece pieces => simp [placeLoop, placeLoop_placed]
  have hcoalesced : Coalesced (⟨.added, t.added.length, 3⟩ :: t.pieces) := by
    have hbounds := h.inBounds
    cases hhead : t.pieces with
    | nil => exact .singleton _
    | cons piece pieces =>
      rw [hhead] at hchain hbounds
      refine isChain_cons_cons.mpr ⟨?_, hchain⟩
      have hpiece := (inBounds_cons.mp hbounds).1
      cases hsrc : piece.source with
      | original => simp [adjacent, hsrc]
      | added =>
        rw [hsrc] at hpiece
        have hle : piece.offset + piece.length ≤ t.added.length := hpiece
        simp only [adjacent, Bool.and_eq_false_iff, beq_eq_false_iff_ne]
        omega
  unfold Table.insert
  simp only [length_cons, length_nil, hplace, coalesce_eq hcoalesced]
  rw [if_neg (by simp; omega), if_neg (by omega), if_neg (by simp), if_neg (by simp), if_neg (by omega),
    if_neg (by simp [coalesceFits])]
  exact ⟨rfl, by simp, rfl⟩

theorem reach_front {n : Nat} (hn : n ≤ kMaxPieces) :
    Bounded (reach (List.replicate n atFront) 0) ∧ (reach (List.replicate n atFront) 0).size = 3 * n ∧
      (reach (List.replicate n atFront) 0).added.length = 3 * n ∧
      (reach (List.replicate n atFront) 0).pieceCount = n ∧
      (0 < n → ∃ offset rest, (reach (List.replicate n atFront) 0).pieces = ⟨.added, offset, 3⟩ :: rest) := by
  induction n with
  | zero => exact ⟨⟨.nil, Nat.zero_le _⟩, rfl, rfl, rfl, fun h => absurd h (Nat.lt_irrefl 0)⟩
  | succ n ih =>
    obtain ⟨hbounded, hsize, hadded, hcnt, _⟩ := ih (by omega)
    have hlimit : 3 * kMaxPieces ≤ kMaxBytes := by decide
    obtain ⟨hsize', hadded', hpieces⟩ := insert_front (reach_consistent _ 0) hbounded.coalesced
      (by omega) (by omega) (by omega)
    have hnext : reach (List.replicate (n + 1) atFront) 0 = ((reach (List.replicate n atFront) 0).insert
        (fun _ => true) 0 [0x61, 0x61, 0x61]).2 := by
      rw [replicate_succ', reach_append]
      exact operate_insert ..
    rw [hnext]
    refine ⟨insert_bounded hbounded _ _, by omega, by omega, ?_, fun _ => ⟨_, _, hpieces⟩⟩
    rw [Table.pieceCount, hpieces, length_cons]
    exact congrArg (· + 1) hcnt

/-- A table that is full, and then one letter is erased from the middle of its first piece. -/
theorem erase_overfills :
    (reach (List.replicate kMaxPieces atFront ++ [.call (.erase 0 1 1) fun _ => true]) 0).pieceCount
      = kMaxPieces + 1 := by
  obtain ⟨hbounded, hsize, _, hcnt, hhead⟩ := reach_front (Nat.le_refl kMaxPieces)
  obtain ⟨offset, rest, hpieces⟩ := hhead (by decide)
  have hmax : 1 ≤ kMaxPieces := by decide
  rw [reach_append, operate_erase]
  refine Overfills.count hbounded.coalesced ⟨hcnt, by omega, by decide, ⟨rfl, rfl, rfl⟩, ?_⟩
  exact ⟨[], _, rest, hpieces, Nat.one_pos, show 2 < 0 + 3 by decide⟩

end RinRuntime.PieceTable

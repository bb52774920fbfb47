import Interlocking.Proofs.Additions

/-!
# Layouts stay sound while they are built

Each operation on a layout, whether it succeeds or fails, leaves a sound layout in which
everything that was outside before still is.
-/

namespace Interlocking

namespace Layout

variable {layout : Layout}

/-- The layout with one more piece. -/
def extend (layout : Layout) (table : Table) (draft : Draft) (name : String) : Layout :=
  { layout with
    table
    sides := layout.sides ++ draft.sides
    pieces := layout.pieces.push (draft.piece name)
    names := name :: layout.names }

section Extend

variable {table : Table} {draft : Draft} {name : String}

theorem side?_extend {id : SideId} : (layout.extend table draft name).side? id =
    (layout.sides.toList ++ draft.sides)[id.index]? := by
  simp [side?, extend, ← Array.getElem?_toList]

theorem side?_extend_of_some {id : SideId} {side : Side} (found : layout.side? id = some side) :
    (layout.extend table draft name).side? id = some side := by
  rw [side?_extend]
  rw [side?, ← Array.getElem?_toList] at found
  exact List.getElem?_append_left (List.getElem?_eq_some_iff.mp found).1 ▸ found

theorem side?_extend_cases {id : SideId} {side : Side}
    (found : (layout.extend table draft name).side? id = some side) :
    layout.side? id = some side ∨ layout.sides.size ≤ id.index ∧
      draft.sides[id.index - layout.sides.size]? = some side := by
  rw [side?_extend, List.getElem?_append] at found
  simp only [Array.length_toList, Array.getElem?_toList] at found
  split at found
  · exact .inl found
  · exact .inr ⟨by omega, found⟩

theorem piece?_extend_of_some {id : PieceId} {piece : Piece}
    (found : layout.piece? id = some piece) :
    (layout.extend table draft name).piece? id = some piece := by
  have inside := (Array.getElem?_eq_some_iff.mp found).1
  simp only [piece?, extend, Array.getElem?_push, Nat.ne_of_lt inside, if_false]
  exact found

theorem piece?_extend_new :
    (layout.extend table draft name).piece? ⟨layout.pieces.size⟩ = some (draft.piece name) := by
  simp [piece?, extend]

theorem piece?_extend_cases {id : PieceId} {piece : Piece}
    (found : (layout.extend table draft name).piece? id = some piece) :
    layout.piece? id = some piece ∨
      id = ⟨layout.pieces.size⟩ ∧ piece = draft.piece name := by
  simp only [piece?, extend, Array.getElem?_push] at found
  split at found
  · rename_i last
    right
    cases id
    exact ⟨congrArg PieceId.mk last, (Option.some.inj found).symm⟩
  · exact .inl found

/-- The bits of sides do not depend on where the sides stand. -/
theorem vars_of_sides (sides : List Side) (first : Nat) :
    (sides.zipIdx first).flatMap (fun (side, index) => (side.bits.roles ⟨index⟩).map (·.2)) =
      sides.flatMap (·.bits.vars) := by
  induction sides generalizing first with
  | nil => rfl
  | cons side sides ih => simpa [List.zipIdx_cons] using ih (first + 1)

theorem vars_extend (layout : Layout) (table : Table) (draft : Draft) (name : String) :
    (layout.extend table draft name).roles.map (·.2) =
      (layout.sides.toList.zipIdx.flatMap fun (side, index) => side.bits.roles ⟨index⟩).map (·.2) ++
        draft.sides.flatMap (·.bits.vars) ++
        ((layout.pieces.toList.zipIdx.flatMap
          fun (piece, index) => piece.roles ⟨index⟩).map (·.2) ++
        ((draft.piece name).roles ⟨layout.pieces.size⟩).map (·.2)) := by
  rw [← vars_of_sides draft.sides layout.sides.size]
  simp [roles, extend, List.zipIdx_append, List.map_flatMap]

/-- The new bits come on top of the old ones. -/
theorem roles_extend {given : Var → Prop} {vars : List Var}
    (fits : draft.Fits name ⟨layout.pieces.size⟩ layout.sides.size given vars) :
    List.Perm ((layout.extend table draft name).roles.map (·.2))
      (layout.roles.map (·.2) ++ vars) := by
  rw [vars_extend, fits.handed, roles, List.map_append]
  simp only [List.append_assoc]
  apply List.Perm.append_left
  rw [← List.append_assoc, ← List.append_assoc]
  apply List.Perm.append_right
  exact List.perm_append_comm

theorem mate?_extend_of_some {left right : SideId} (joined : layout.mate? left = some right) :
    (layout.extend table draft name).mate? left = some right := by
  obtain ⟨side, found, mate⟩ := Option.bind_eq_some_iff.mp joined
  exact Option.bind_eq_some_iff.mpr ⟨side, side?_extend_of_some found, mate⟩

/-- The new addresses lie above all that were in use. -/
theorem grows_extend {given : Var → Prop} {vars : List Var}
    (fits : draft.Fits name ⟨layout.pieces.size⟩ layout.sides.size given vars)
    (ascends : Ascends layout.table.span table.span vars) :
    layout.Grows (layout.extend table draft name) := by
  refine ⟨ascends.le, ?_, piece?_extend_of_some⟩
  intro var outside
  refine ⟨Nat.lt_of_lt_of_le outside.1 ascends.le, ?_⟩
  intro member
  rw [(roles_extend fits).mem_iff, List.mem_append] at member
  rcases member with old | new
  · exact outside.2 old
  · exact absurd (ascends.bounds new).1 (Nat.not_le_of_lt outside.1)

/-- A side of the draft belongs to the new piece and is free. -/
theorem new_side_of_fits {given : Var → Prop} {vars : List Var}
    (fits : draft.Fits name ⟨layout.pieces.size⟩ layout.sides.size given vars) {id : SideId}
    {side : Side} (later : layout.sides.size ≤ id.index)
    (found : draft.sides[id.index - layout.sides.size]? = some side) :
    side.owner = ⟨layout.pieces.size⟩ ∧ side.mate = none ∧ id ∈ (draft.piece name).sides := by
  obtain ⟨inside, rfl⟩ := List.getElem?_eq_some_iff.mp found
  obtain ⟨owner, mate⟩ := fits.fresh _ (List.getElem_mem inside)
  refine ⟨owner, mate, ?_⟩
  rw [fits.numbered]
  apply List.mem_map.mpr
  exact ⟨id.index, by rw [List.mem_range'_1]; omega, rfl⟩

/-- A fitting draft keeps the frame of a layout. -/
theorem Framed.extend (framed : layout.Framed) {given : Var → Prop} {vars : List Var}
    (fits : draft.Fits name ⟨layout.pieces.size⟩ layout.sides.size given vars)
    (ascends : Ascends layout.table.span table.span vars) (inBounds : table.InBounds) :
    (layout.extend table draft name).Framed := by
  have perm : List.Perm ((layout.extend table draft name).roles.map (·.2))
      (layout.roles.map (·.2) ++ vars) := roles_extend fits
  constructor
  case inBounds => exact inBounds
  case reserved =>
    intro entry member
    have used := perm.mem_iff.mp (List.mem_map.mpr ⟨entry, member, rfl⟩)
    rcases List.mem_append.mp used with old | new
    · obtain ⟨earlier, member, same⟩ := List.mem_map.mp old
      rw [← same]
      exact Nat.lt_of_lt_of_le (framed.reserved earlier member) ascends.le
    · exact (ascends.bounds new).2
  case distinct =>
    apply perm.nodup_iff.mpr
    apply List.nodup_append.mpr
    refine ⟨framed.distinct, ascends.nodup, ?_⟩
    intro left old right new same
    obtain ⟨earlier, member, rfl⟩ := List.mem_map.mp old
    have below := framed.reserved earlier member
    have above := (ascends.bounds new).1
    rw [same] at below
    omega
  case shaped =>
    intro id piece found
    rcases piece?_extend_cases found with old | ⟨rfl, rfl⟩
    · exact framed.shaped old
    · exact fits.shaped
  case listed =>
    intro id piece found side member
    rcases piece?_extend_cases found with old | ⟨rfl, rfl⟩
    · obtain ⟨record, known, owner⟩ := framed.listed old side member
      exact ⟨record, side?_extend_of_some known, owner⟩
    · rw [fits.numbered] at member
      obtain ⟨index, inRange, rfl⟩ := List.mem_map.mp member
      rw [List.mem_range'_1] at inRange
      have inside : index - layout.sides.size < draft.sides.length := by omega
      refine ⟨draft.sides[index - layout.sides.size], ?_,
        (fits.fresh _ (List.getElem_mem inside)).1⟩
      rw [side?_extend, List.getElem?_append_right (by simpa using inRange.1)]
      simp [inside]
  case owned =>
    intro side record found
    rcases side?_extend_cases found with old | ⟨later, new⟩
    · obtain ⟨piece, known, member⟩ := framed.owned old
      exact ⟨piece, piece?_extend_of_some known, member⟩
    · obtain ⟨owner, -, member⟩ := new_side_of_fits fits later new
      rw [owner]
      exact ⟨draft.piece name, piece?_extend_new, member⟩
  case paired =>
    intro left right joined
    obtain ⟨side, found, mate⟩ := Option.bind_eq_some_iff.mp joined
    rcases side?_extend_cases found with old | ⟨later, new⟩
    · apply mate?_extend_of_some
      apply framed.paired
      exact Option.bind_eq_some_iff.mpr ⟨side, old, mate⟩
    · obtain ⟨-, unbound, -⟩ := new_side_of_fits fits later new
      rw [unbound] at mate
      cases mate
  case named =>
    intro other
    change other ∈ name :: layout.names ↔
      ∃ piece ∈ (layout.pieces.push (draft.piece name)).toList, piece.name = other
    rw [List.mem_cons, framed.named]
    simp only [Array.toList_push, List.mem_append, List.mem_singleton, or_and_right, exists_or,
      exists_eq_left, Draft.piece]
    rw [or_comm, eq_comm]

/-- A fitting draft makes a sound layout of a sound one. -/
theorem Sound.extend (sound : layout.Sound) {vars : List Var}
    (fits : draft.Fits name ⟨layout.pieces.size⟩ layout.sides.size layout.Outside vars)
    (ascends : Ascends layout.table.span table.span vars) (inBounds : table.InBounds) :
    (layout.extend table draft name).Sound ∧
      layout.Grows (layout.extend table draft name) := by
  have grows : layout.Grows (layout.extend table draft name) := grows_extend fits ascends
  refine ⟨⟨sound.toFramed.extend fits ascends inBounds, ?_⟩, grows⟩
  intro id piece found var member
  rcases piece?_extend_cases found with old | ⟨rfl, rfl⟩
  · exact grows.outside (sound.supplied old var member)
  · exact grows.outside (fits.supplied var member)

end Extend

/-- `after` is sound and keeps what was outside in `base`. -/
structure Keeps (base after : Layout) : Prop where
  sound : after.Sound
  grows : base.Grows after

variable {base : Layout}

theorem Keeps.step {after : Layout} (kept : base.Keeps layout) (sound : after.Sound)
    (grows : layout.Grows after) : base.Keeps after :=
  ⟨sound, kept.grows.trans grows⟩

/-- A layout of which only the table has changed. -/
theorem Keeps.withTable {after : Layout} (kept : base.Keeps layout)
    (same : after = { layout with table := after.table }) (inBounds : after.table.InBounds)
    (larger : layout.table.span ≤ after.table.span) : base.Keeps after ∧ layout.Grows after := by
  obtain ⟨sound, grows⟩ := kept.sound.withTable inBounds larger
  rw [← same] at sound grows
  exact ⟨kept.step sound grows, grows⟩

/-- On `layout`, the action keeps what was outside in `base`, and in `layout` itself. -/
def Allows {α : Type} (base layout : Layout) (action : Build α) : Prop :=
  Outcome (action layout) (fun _ after => base.Keeps after ∧ layout.Grows after)
    (fun after => base.Keeps after)

theorem onTable_outcome {α : Type} {action : EStateM Failure Table α} {ok : α → Table → Prop}
    {error : Table → Prop} (outcome : Outcome (action layout.table) ok error) :
    Outcome (onTable action layout)
      (fun result after => after = { layout with table := after.table } ∧ ok result after.table)
      (fun after => after = { layout with table := after.table } ∧ error after.table) := by
  unfold onTable
  cases run : action layout.table with
  | ok result table =>
      rw [run] at outcome
      exact ⟨rfl, outcome⟩
  | error failure table =>
      rw [run] at outcome
      exact ⟨rfl, outcome⟩

/-- A variable with a new address is an outside one. -/
theorem Sound.fresh_outside (sound : layout.Sound) {table : Table} {var : Var}
    (fresh : layout.table.span ≤ var.index) (inside : var.index < table.span) :
    ({ layout with table }).Outside var := by
  refine ⟨inside, ?_⟩
  intro member
  obtain ⟨entry, listed, same⟩ := List.mem_map.mp member
  have below := sound.reserved entry listed
  rw [same] at below
  omega

/-- A variable that the author names is an outside one. -/
theorem external_outcome (kept : base.Keeps layout) (name : String) :
    Outcome (external name layout)
      (fun var after => base.Keeps after ∧ layout.Grows after ∧ after.Outside var)
      (fun after => base.Keeps after) := by
  apply (onTable_outcome (Table.allocate_outcome name kept.sound.inBounds)).mono
  · intro var after ⟨same, address, spanEq, inBounds⟩
    obtain ⟨keptAfter, grows⟩ := kept.withTable same inBounds (by omega)
    refine ⟨keptAfter, grows, ?_⟩
    rw [same]
    exact kept.sound.fresh_outside (Nat.le_of_eq address.symm) (by omega)
  · intro after ⟨same, inBounds, larger⟩
    exact (kept.withTable same inBounds larger).1

/-- What an addition does: it extends the layout by a piece with a new name, or it fails and
leaves all but the table as it was. -/
theorem adds_outcome {action : Build PieceId} {given : Var → Prop}
    (adds : Build.Adds action given) (inBounds : layout.table.InBounds) :
    Outcome (action layout)
      (fun _ after => ∃ table draft name vars, after = layout.extend table draft name ∧
        name ∉ layout.names ∧
        draft.Fits name ⟨layout.pieces.size⟩ layout.sides.size given vars ∧
        Ascends layout.table.span table.span vars ∧ table.InBounds)
      (fun after => after = { layout with table := after.table } ∧ after.table.InBounds ∧
        layout.table.span ≤ after.table.span) := by
  obtain ⟨name, count, draft, rfl, hands⟩ := adds
  unfold addPiece
  split
  · exact ⟨rfl, inBounds, Nat.le_refl _⟩
  · rename_i fresh
    have made := Table.within_outcome name count
      (hands ⟨layout.pieces.size⟩ layout.sides.size) inBounds
    simp only
    cases run : Table.within name count (draft ⟨layout.pieces.size⟩ layout.sides.size)
        layout.table with
    | error failure table =>
        rw [run] at made
        exact ⟨rfl, made⟩
    | ok draft table =>
        rw [run] at made
        obtain ⟨⟨vars, fits, ascends⟩, inBounds⟩ := made
        exact ⟨table, draft, name, vars, rfl, fresh, fits, ascends, inBounds⟩

/-- Any way to add a piece to which only outside variables are handed. -/
theorem allows_addition (kept : base.Keeps layout) {action : Build PieceId}
    (adds : Build.Adds action layout.Outside) : base.Allows layout action := by
  apply (adds_outcome adds kept.sound.inBounds).mono
  · rintro id after ⟨table, draft, name, vars, rfl, _, fits, ascends, inBounds⟩
    obtain ⟨sound, grows⟩ := kept.sound.extend fits ascends inBounds
    exact ⟨kept.step sound grows, grows⟩
  · intro after ⟨same, inBounds, larger⟩
    exact (kept.withTable same inBounds larger).1

theorem side?_setMate (id mate other : SideId) :
    (layout.setMate id mate).side? other = (layout.side? other).map
      (fun side => if other = id then { side with mate := some mate } else side) := by
  simp only [side?, setMate, Array.getElem?_modify]
  by_cases same : other = id
  · subst same
    simp
  · have differ : id.index ≠ other.index := by
      intro equal
      apply same
      cases id
      cases other
      exact congrArg SideId.mk equal.symm
    simp [same, differ]

/-- Of the sides only the bits have roles. -/
theorem roles_eq_of_bits (layout : Layout) : layout.roles =
    (layout.sides.toList.map (·.bits)).zipIdx.flatMap
      (fun (bits, index) => bits.roles ⟨index⟩) ++
    layout.pieces.toList.zipIdx.flatMap (fun (piece, index) => piece.roles ⟨index⟩) := by
  simp [roles, List.zipIdx_map, List.flatMap_map]

theorem roles_setMate (id mate : SideId) : (layout.setMate id mate).roles = layout.roles := by
  have bits : (layout.setMate id mate).sides.toList.map (·.bits) =
      layout.sides.toList.map (·.bits) := by
    apply List.ext_getElem?
    intro index
    have same : (layout.setMate id mate).side? ⟨index⟩ = _ := side?_setMate id mate ⟨index⟩
    simp only [side?] at same
    simp only [List.getElem?_map, Array.getElem?_toList, same, Option.map_map]
    congr 1
    funext side
    simp only [Function.comp]
    split <;> rfl
  rw [roles_eq_of_bits, roles_eq_of_bits layout, bits]
  rfl

theorem mate?_setMate {id mate other : SideId} {side : Side} (found : layout.side? id = some side) :
    (layout.setMate id mate).mate? other = if other = id then some mate else layout.mate? other := by
  simp only [mate?, side?_setMate]
  by_cases same : other = id
  · subst same
    simp [found]
  · cases layout.side? other <;> simp [same]

/-- Two free sides may be joined. -/
theorem Framed.join (framed : layout.Framed) {left right : SideId} {leftSide rightSide : Side}
    (leftFound : layout.side? left = some leftSide) (leftFree : leftSide.mate = none)
    (rightFound : layout.side? right = some rightSide) (rightFree : rightSide.mate = none)
    (differ : left ≠ right) :
    ((layout.setMate left right).setMate right left).Framed := by
  have roles : ((layout.setMate left right).setMate right left).roles = layout.roles := by
    rw [roles_setMate, roles_setMate]
  have leftMate : layout.mate? left = none := by simp [mate?, leftFound, leftFree]
  have rightMate : layout.mate? right = none := by simp [mate?, rightFound, rightFree]
  have rightStill : (layout.setMate left right).side? right = some rightSide := by
    simp [side?_setMate, rightFound, differ.symm]
  have mates (side : SideId) : ((layout.setMate left right).setMate right left).mate? side =
      if side = right then some left else if side = left then some right
      else layout.mate? side := by
    rw [mate?_setMate rightStill, mate?_setMate leftFound]
  have sides {side : SideId} {record : Side} (found : layout.side? side = some record) :
      ∃ record', ((layout.setMate left right).setMate right left).side? side = some record' ∧
        record'.owner = record.owner := by
    simp only [side?_setMate, found, Option.map_some]
    refine ⟨_, rfl, ?_⟩
    split <;> split <;> rfl
  constructor
  case inBounds => exact framed.inBounds
  case reserved => exact roles ▸ framed.reserved
  case distinct => exact roles ▸ framed.distinct
  case shaped => exact framed.shaped
  case listed =>
    intro id piece found side member
    obtain ⟨record, known, owner⟩ := framed.listed found side member
    obtain ⟨record', known', owner'⟩ := sides known
    exact ⟨record', known', owner'.trans owner⟩
  case owned =>
    intro side record found
    simp only [side?_setMate, Option.map_eq_some_iff] at found
    obtain ⟨_, ⟨original, known, rfl⟩, rfl⟩ := found
    obtain ⟨piece, owner, member⟩ := framed.owned known
    refine ⟨piece, ?_, member⟩
    split <;> split <;> exact owner
  case paired =>
    intro first second joined
    rw [mates] at joined ⊢
    have back := fun known : layout.mate? first = some second => framed.paired known
    split at joined
    · rename_i same
      obtain rfl := Option.some.inj joined
      simp [same, differ]
    · split at joined
      · rename_i same
        obtain rfl := Option.some.inj joined
        simp [same]
      · have known := back joined
        have notRight : second ≠ right := by
          intro same
          simp [same, rightMate] at known
        have notLeft : second ≠ left := by
          intro same
          simp [same, leftMate] at known
        simp [notRight, notLeft, known]
  case named => exact framed.named

theorem grows_setMate (layout : Layout) (left right : SideId) :
    layout.Grows ((layout.setMate left right).setMate right left) := by
  refine ⟨Nat.le_refl _, ?_, fun found => found⟩
  intro var outside
  exact ⟨outside.1, by rw [roles_setMate, roles_setMate]; exact outside.2⟩

theorem free_of_checkFree {left right id : SideId}
    (checked : layout.checkFree left right id = .ok ()) :
    left ≠ right ∧ ∃ side, layout.side? id = some side ∧ side.mate = none := by
  unfold checkFree side at checked
  cases found : layout.side? id with
  | none =>
      rw [found] at checked
      cases checked
  | some side =>
      rw [found] at checked
      by_cases taken : left = right ∨ side.mate.isSome
      · simp only [bind, Except.bind, taken, if_true] at checked
        cases owner : layout.owner id with
        | error failure =>
            rw [owner] at checked
            cases checked
        | ok piece =>
            rw [owner] at checked
            cases checked
      · rw [not_or] at taken
        exact ⟨taken.1, side, rfl, by simpa using taken.2⟩

/-- What joining two sides does: it makes mates of two free sides, or fails without a trace. -/
theorem join_outcome (left right : SideId) :
    Outcome (join left right layout)
      (fun _ after => after = (layout.setMate left right).setMate right left ∧ left ≠ right ∧
        (∃ side, layout.side? left = some side ∧ side.mate = none) ∧
        ∃ side, layout.side? right = some side ∧ side.mate = none)
      (fun after => after = layout) := by
  unfold join
  cases leftCheck : layout.checkFree left right left with
  | error failure => exact rfl
  | ok _ =>
      cases rightCheck : layout.checkFree left right right with
      | error failure => exact rfl
      | ok _ =>
          obtain ⟨differ, leftFree⟩ := free_of_checkFree leftCheck
          exact ⟨rfl, differ, leftFree, (free_of_checkFree rightCheck).2⟩

theorem allows_join (kept : base.Keeps layout) (left right : SideId) :
    base.Allows layout (join left right) := by
  apply (join_outcome left right).mono
  · rintro _ after ⟨rfl, differ, ⟨leftSide, leftFound, leftFree⟩, rightSide, rightFound, rightFree⟩
    have framed := kept.sound.toFramed.join leftFound leftFree rightFound rightFree differ
    have grows := grows_setMate layout left right
    refine ⟨kept.step ⟨framed, ?_⟩ grows, grows⟩
    exact fun found var member => grows.outside (kept.sound.supplied found var member)
  · rintro after rfl
    exact kept

/-- Actions in sequence, where the second may rely on what the first has kept. -/
theorem Allows.bind {α β : Type} {first : Build α} {next : α → Build β}
    (allowed : base.Allows layout first)
    (continued : ∀ value {after}, base.Keeps after → layout.Grows after →
      base.Allows after (next value)) :
    base.Allows layout (first >>= next) := by
  apply Outcome.bind allowed
  intro value after ⟨kept, grows⟩
  apply (continued value kept grows).mono
  · intro _ last ⟨kept', grows'⟩
    exact ⟨kept', grows.trans grows'⟩
  · exact fun _ kept' => kept'

theorem allows_pure {α : Type} (kept : base.Keeps layout) (value : α) :
    base.Allows layout (pure value) :=
  ⟨kept, .refl layout⟩

theorem allows_ask {α : Type} (kept : base.Keeps layout)
    (question : Layout → Except Failure α) : base.Allows layout (ask question) := by
  unfold Allows ask
  cases question layout with
  | ok answer => exact ⟨kept, .refl layout⟩
  | error failure => exact kept

theorem allows_joinPairs (kept : base.Keeps layout) (pairs : List (SideId × SideId)) :
    base.Allows layout (joinPairs pairs) := by
  induction pairs generalizing layout with
  | nil => exact allows_pure kept ()
  | cons pair pairs ih =>
      apply (allows_join kept pair.1 pair.2).bind
      intro _ after kept' _
      exact ih kept'

theorem allows_joinRuns (kept : base.Keeps layout) (runs : List Run) :
    base.Allows layout (joinRuns runs) := by
  induction runs generalizing layout with
  | nil => exact allows_pure kept ()
  | cons first runs ih =>
      cases runs with
      | nil => exact allows_pure kept ()
      | cons second runs =>
          apply (allows_ask kept first.exit).bind
          intro exit between keptBetween _
          apply (allows_ask keptBetween second.entry).bind
          intro entry before keptBefore _
          apply (allows_join keptBefore exit entry).bind
          intro _ after keptAfter _
          exact ih keptAfter

end Layout

end Interlocking

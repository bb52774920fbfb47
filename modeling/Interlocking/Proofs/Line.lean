import Interlocking.Proofs.Tracks

/-!
# Lines

A line is an endpoint with tracks behind it, each joined to the next. When only the endpoint
asks for a route, nothing ever comes from the far end, and in each cycle every track takes its
turn like a piece in a wave. So a machine that runs a line settles where the wave ends.
-/

namespace Interlocking

/-- An endpoint with a sequence of tracks behind it, and nothing else. -/
structure Line (layout : Layout) where
  id : PieceId
  name : String
  occupancy : Var
  /-- The side of the endpoint. -/
  side : SideId
  found : layout.piece? id = some { name, occupancy, body := .endpoint side }
  tracks : List (Track layout)
  nonempty : tracks ≠ []
  /-- The endpoint is joined to side `a` of the first track, and side `b` of each track to side
  `a` of the next. Side `b` of the last track is joined to nothing. -/
  joined : (side :: tracks.map (·.straight.b)).map layout.mate? =
    tracks.map (fun track => some track.straight.a) ++ [none]
  complete : ∀ {other piece}, layout.piece? other = some piece →
    other = id ∨ ∃ track ∈ tracks, track.id = other

namespace Line

variable {layout : Layout} (line : Line layout)

/-- The sides from which routes are asked for along the line, the end of the line included. -/
def exits : List SideId := line.side :: line.tracks.map (·.straight.b)

/-- A track stands at a place of the line, and a side asks for a route over it. -/
structure Stands (place : Nat) (asker : SideId) (track : Track layout) : Prop where
  here : line.tracks[place]? = some track
  before : line.exits[place]? = some asker

variable {line} {place : Nat} {asker : SideId} {track : Track layout}

theorem length_exits : line.exits.length = line.tracks.length + 1 := by
  simp [exits]

/-- Each side that asks is joined to the track at its place. -/
theorem mate_of_exits {side : SideId} (known : line.exits[place]? = some side) :
    layout.mate? side = (line.tracks[place]?).map (·.straight.a) := by
  have same : (line.exits.map layout.mate?)[place]? =
      (line.tracks.map (fun track => some track.straight.a) ++ [none])[place]? :=
    congrArg (·[place]?) line.joined
  rw [List.getElem?_map, known, Option.map_some] at same
  have inside := (List.getElem?_eq_some_iff.mp known).1
  rw [length_exits] at inside
  rcases Nat.lt_succ_iff_lt_or_eq.mp inside with short | rfl
  · rw [List.getElem?_append_left (by simpa using short), List.getElem?_map,
      List.getElem?_eq_getElem short] at same
    rw [List.getElem?_eq_getElem short]
    exact Option.some.inj same
  · simpa using same

namespace Stands

variable (stands : line.Stands place asker track)

include stands

theorem inside : place < line.tracks.length :=
  (List.getElem?_eq_some_iff.mp stands.here).1

theorem mate_asker : layout.mate? asker = some track.straight.a := by
  rw [mate_of_exits stands.before, stands.here]
  rfl

theorem behind : line.exits[place + 1]? = some track.straight.b := by
  simp [exits, stands.here]

theorem mate_b : layout.mate? track.straight.b = (line.tracks[place + 1]?).map (·.straight.a) :=
  mate_of_exits stands.behind

/-- The next track is asked from side `b`. -/
theorem next {follower : Track layout} (known : line.tracks[place + 1]? = some follower) :
    line.Stands (place + 1) track.straight.b follower :=
  ⟨known, stands.behind⟩

end Stands

theorem stands_of_getElem? (known : line.tracks[place]? = some track) :
    ∃ asker, line.Stands place asker track := by
  have inside := (List.getElem?_eq_some_iff.mp known).1
  cases before : line.exits[place]? with
  | none =>
      rw [List.getElem?_eq_none_iff, length_exits] at before
      omega
  | some asker => exact ⟨asker, known, before⟩

/-- The asker in front of a track is the endpoint or the track before. -/
theorem Stands.previous {previous : Nat} (stands : line.Stands (previous + 1) asker track) :
    ∃ front earlier, line.Stands previous front earlier ∧ asker = earlier.straight.b := by
  have inside := stands.inside
  have known := List.getElem?_eq_getElem (Nat.lt_of_succ_lt inside)
  obtain ⟨front, earlier⟩ := stands_of_getElem? known
  exact ⟨front, _, earlier, Option.some.inj (stands.before.symm.trans earlier.behind)⟩

theorem Stands.entry (stands : line.Stands 0 asker track) : asker = line.side :=
  (Option.some.inj stands.before).symm

section Geometry

variable (sound : layout.Sound) {other : Nat} {rival : Track layout} {against : SideId}

include sound

theorem borders_a (track : Track layout) : layout.Borders track.id track.straight.a :=
  sound.listed track.found _ (by simp [Piece.sides])

theorem borders_b (track : Track layout) : layout.Borders track.id track.straight.b :=
  sound.listed track.found _ (by simp [Piece.sides])

omit sound in
/-- Tracks with one number are one piece. -/
theorem straight_of_id (same : track.id = rival.id) : track.straight = rival.straight := by
  have found := track.found
  rw [same, rival.found] at found
  simp only [Option.some.injEq, Piece.mk.injEq, Body.straight.injEq] at found
  exact found.2.2.symm

/-- Tracks with one side `a` are one piece. -/
theorem id_of_a (same : track.straight.a = rival.straight.a) : track.id = rival.id :=
  (borders_a sound track).unique (same ▸ borders_a sound rival)

/-- No route is asked for from side `a` of a track. -/
theorem a_not_mem_exits (track : Track layout) : track.straight.a ∉ line.exits := by
  intro member
  rcases List.mem_cons.mp member with same | member
  · have borders : layout.Borders line.id line.side :=
      sound.listed line.found _ (by simp [Piece.sides])
    have piece := track.found
    rw [(borders_a sound track).unique (same ▸ borders), line.found] at piece
    simp at piece
  · obtain ⟨rival, _, same⟩ := List.mem_map.mp member
    have owner : track.id = rival.id := (borders_a sound track).unique (same ▸ borders_b sound rival)
    rw [straight_of_id owner] at same
    exact (rival.courses sound).1 same.symm

/-- A route is asked for from each side at one place only. -/
theorem exits_injective : ∀ {place other : Nat} {side : SideId},
    line.exits[place]? = some side → line.exits[other]? = some side → place = other := by
  -- Two places with one side would be followed by two more, up to the end of the line.
  have apart : ∀ (rest place other : Nat) {side : SideId}, place < other →
      line.tracks.length = other + rest → line.exits[place]? = some side →
      line.exits[other]? ≠ some side := by
    intro rest
    induction rest with
    | zero =>
        intro place other side before last first second
        have mate := mate_of_exits second
        rw [List.getElem?_eq_none (by omega), mate_of_exits first,
          List.getElem?_eq_getElem (by omega)] at mate
        cases mate
    | succ rest ih =>
        intro place other side before last first second
        have here := List.getElem?_eq_getElem (show place < line.tracks.length by omega)
        have there := List.getElem?_eq_getElem (show other < line.tracks.length by omega)
        have one : line.Stands place side _ := ⟨here, first⟩
        have two : line.Stands other side _ := ⟨there, second⟩
        have same := Option.some.inj (one.mate_asker.symm.trans two.mate_asker)
        refine ih (place + 1) (other + 1) (by omega) (by omega) one.behind ?_
        rw [straight_of_id (id_of_a sound same)]
        exact two.behind
  intro place other side first second
  have inside := (List.getElem?_eq_some_iff.mp first).1
  have inside' := (List.getElem?_eq_some_iff.mp second).1
  rw [length_exits] at inside inside'
  rcases Nat.lt_trichotomy place other with before | same | after
  · exact absurd second (apart (line.tracks.length - other) _ _ before (by omega) first)
  · exact same
  · exact absurd first (apart (line.tracks.length - place) _ _ after (by omega) second)

namespace Stands

variable (stands : line.Stands place asker track) (rivals : line.Stands other against rival)

include stands rivals

theorem place_of_asker (same : asker = against) : place = other :=
  exits_injective sound stands.before (same ▸ rivals.before)

theorem place_of_b (same : track.straight.b = rival.straight.b) : place = other :=
  Nat.succ.inj (exits_injective sound stands.behind (same ▸ rivals.behind))

theorem place_of_id (same : track.id = rival.id) : place = other :=
  stands.place_of_b sound rivals (by rw [straight_of_id same])

theorem place_of_ab (same : track.straight.ab = rival.straight.ab) : place = other := by
  obtain ⟨_, out, _⟩ := track.courses sound
  obtain ⟨_, out', _⟩ := rival.courses sound
  rw [same, out'] at out
  exact stands.place_of_b sound rivals (congrArg Course.exit out).symm

end Stands

/-- Side `b` of a track is not the asker, and is joined to neither the asker nor to itself. -/
theorem Stands.faces (stands : line.Stands place asker track) : track.Faces asker where
  joined := sound.paired stands.mate_asker
  apart := by
    rintro rfl
    have same := exits_injective sound stands.before stands.behind
    omega
  onward := by
    intro loop
    rw [stands.mate_b] at loop
    obtain ⟨follower, _, same⟩ := Option.map_eq_some_iff.mp loop
    have member : track.straight.b ∈ line.exits := List.mem_of_getElem? stands.behind
    exact a_not_mem_exits sound follower (same ▸ member)

end Geometry

end Line

end Interlocking

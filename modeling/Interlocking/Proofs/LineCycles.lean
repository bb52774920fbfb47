import Interlocking.Proofs.Line
import Mathlib.Data.List.Basic

/-!
# Cycles on a line

In a cycle the tracks of a line take their turns in the order of their numbers, or in the
opposite order, whatever their places on the line are. A panel shows a line at a wave if every
track has written what the wave says for the turns it has had. Each turn of a track leads on to
the next turn of the wave, so a cycle leads every track on by one turn, and the machine settles
where the wave ends.
-/

namespace Interlocking

open Function (update)

/-- In a list without repetitions, what stands in front of an entry has the smaller index. -/
theorem mem_left_iff_idxOf_lt {order done rest : List Nat} {index other : Nat}
    (split : order = done ++ index :: rest) (nodup : order.Nodup) :
    other ∈ done ↔ order.idxOf other < order.idxOf index := by
  subst split
  have absent : index ∉ done := fun member =>
    (List.nodup_append.mp nodup).2.2 index member index List.mem_cons_self rfl
  rw [List.idxOf_append_of_notMem absent, List.idxOf_cons_self, Nat.add_zero]
  constructor
  · intro member
    rw [List.idxOf_append_of_mem member]
    exact List.idxOf_lt_length_of_mem member
  · intro before
    by_contra outside
    rw [List.idxOf_append_of_notMem outside] at before
    omega

theorem Layout.order_nodup (layout : Layout) (reverse : Bool) : (layout.order reverse).Nodup := by
  unfold order
  split
  · exact List.nodup_reverse.mpr List.nodup_range
  · exact List.nodup_range

namespace Line

variable {layout : Layout} (line : Line layout)

/-- What is given on the line. -/
def setting (request : Bool) (occupied : Nat → Bool) : Setting where
  length := line.tracks.length
  request
  occupied

/-- Whether in each cycle the track at a place takes its turn before the next one. -/
def follows (reverse : Bool) (place : Nat) : Bool :=
  match line.tracks[place]?, line.tracks[place + 1]? with
  | some track, some next =>
      (layout.order reverse).idxOf track.id.index < (layout.order reverse).idxOf next.id.index
  | _, _ => false

/-- Whether the track at a place is among the pieces that have had their turns. Behind the end
of the line there is nobody to wait for. -/
def turned (done : List Nat) (place : Nat) : Bool :=
  (line.tracks[place]?).elim true fun track => track.id.index ∈ done

/-- The bits that stay 0 as long as a route is asked for from the endpoint only. -/
inductive Idle : Role → Prop where
  | released : Idle (.released line.side)
  | track {track : Track layout} {role : Role} (member : track ∈ line.tracks)
      (idle : role ∈ track.idles) : Idle role
  | back {track : Track layout} {role : Role} (member : track ∈ line.tracks)
      (idle : role ∈ [.request track.straight.a, .granted track.straight.a,
        .denied track.straight.a]) : Idle role
  | terminus {track : Track layout} {role : Role} (member : track ∈ line.tracks)
      (unbound : layout.mate? track.straight.b = none)
      (idle : role ∈ [.granted track.straight.b, .denied track.straight.b]) : Idle role

/-- A panel shows what the tracks of a line have written, and that nothing has come from the
far end of the line. -/
structure Shows (request : Bool) (occupied : Nat → Bool) (hops : Nat → Hop) (panel : Panel) :
    Prop where
  request : panel (.request line.side) = request
  idle : ∀ {role}, line.Idle role → panel role = false
  occupied : ∀ {place track}, line.tracks[place]? = some track →
    panel (layout.role track.occupancy) = occupied place
  hops : ∀ {place asker track}, line.Stands place asker track →
    track.hop asker panel = hops place

variable {line} {request : Bool} {occupied : Nat → Bool} {hops others : Nat → Hop}
  {panel before after : Panel} {place : Nat} {asker : SideId} {track : Track layout}

theorem Shows.congr (shows : line.Shows request occupied hops panel)
    (same : ∀ place < line.tracks.length, hops place = others place) :
    line.Shows request occupied others panel :=
  { shows with hops := fun stands => (shows.hops stands).trans (same _ stands.inside) }

theorem Shows.ready (shows : line.Shows request occupied hops panel)
    (member : track ∈ line.tracks) : track.Ready panel :=
  fun _ idle => shows.idle (.track member idle)

theorem linked_iff : (line.setting request occupied).linked place = true ↔
    ∃ follower, line.tracks[place + 1]? = some follower := by
  constructor
  · exact fun linked => ⟨_, List.getElem?_eq_getElem (of_decide_eq_true linked)⟩
  · exact fun ⟨_, found⟩ => decide_eq_true (List.getElem?_eq_some_iff.mp found).1

namespace Stands

section Neighbours

variable (stands : line.Stands place asker track)

include stands

theorem member : track ∈ line.tracks := List.mem_of_getElem? stands.here

/-- A track is linked to the next one if its side `b` leads somewhere. -/
theorem outlet_isSome (sound : layout.Sound) : (layout.outlet? track.straight.b).isSome =
    (line.setting request occupied).linked place := by
  have onward := stands.mate_b
  rw [Bool.eq_iff_iff, linked_iff]
  constructor
  · intro leads
    obtain ⟨outlet, known⟩ := Option.isSome_iff_exists.mp leads
    obtain ⟨mate, joined⟩ := Layout.mate_of_outlet known
    rw [onward] at joined
    obtain ⟨follower, found, _⟩ := Option.map_eq_some_iff.mp joined
    exact ⟨follower, found⟩
  · intro ⟨follower, found⟩
    rw [found] at onward
    cases known : layout.outlet? track.straight.b with
    | some outlet => rfl
    | none =>
        rw [sound.mate_of_no_outlet known] at onward
        cases onward

/-- The piece behind a track is the next track. -/
theorem neighbour (sound : layout.Sound) {next : Var}
    (known : layout.neighbourOccupancy? track.straight.b = some next) :
    ∃ follower, line.tracks[place + 1]? = some follower ∧ next = follower.occupancy := by
  simp only [Layout.neighbourOccupancy?, stands.mate_b, Option.bind_eq_bind,
    Option.map_eq_some_iff, Option.bind_eq_some_iff] at known
  obtain ⟨piece, ⟨side, ⟨follower, found, rfl⟩, owner⟩, rfl⟩ := known
  refine ⟨follower, found, ?_⟩
  rw [sound.owner_of_listed follower.found (by simp [Piece.sides])] at owner
  rw [← Option.some.inj owner]

/-- What a panel shows is what the setting lets the track look at. -/
theorem cue_eq (shows : line.Shows request occupied hops panel) :
    track.cue asker panel = (line.setting request occupied).cue hops place := by
  have asks : panel (.request asker) = ((line.setting request occupied).cue hops place).request ∧
      panel (.released asker) = ((line.setting request occupied).cue hops place).released := by
    cases place with
    | zero =>
        obtain rfl := stands.entry
        exact ⟨shows.request, shows.idle .released⟩
    | succ previous =>
        obtain ⟨front, earlier, stood, rfl⟩ := stands.previous
        simp only [Setting.cue, ← shows.hops stood]
        exact ⟨rfl, rfl⟩
  have answers :
      panel (.granted track.straight.b) =
        ((line.setting request occupied).cue hops place).granted ∧
      panel (.denied track.straight.b) =
        ((line.setting request occupied).cue hops place).denied := by
    simp only [Setting.cue]
    cases found : line.tracks[place + 1]? with
    | some follower =>
        rw [linked_iff.mpr ⟨follower, found⟩, ← shows.hops (stands.next found)]
        exact ⟨rfl, rfl⟩
    | none =>
        have unlinked : (line.setting request occupied).linked place = false := by
          rw [← Bool.not_eq_true, linked_iff, found]
          simp
        have unbound : layout.mate? track.straight.b = none := by
          rw [stands.mate_b, found]
          rfl
        rw [unlinked]
        exact ⟨shows.idle (.terminus stands.member unbound (by simp)),
          shows.idle (.terminus stands.member unbound (by simp))⟩
  exact Cue.ext asks.1 asks.2 (shows.occupied stands.here) answers.1 answers.2

/-- The piece behind a reserved track is free in a wave. -/
theorem free (sound : layout.Sound) (shows : line.Shows request occupied hops panel)
    (vacant : (line.setting request occupied).linked place = true →
      (hops place).route = true → occupied (place + 1) = false) :
    ∀ next, layout.neighbourOccupancy? track.straight.b = some next →
      panel (.route track.straight.ab) = true → panel (layout.role next) = false := by
  intro next known routed
  obtain ⟨follower, found, rfl⟩ := stands.neighbour sound known
  rw [shows.occupied found]
  refine vacant (linked_iff.mpr ⟨follower, found⟩) ?_
  rw [← shows.hops stands]
  exact routed

end Neighbours

section Frame

variable (stands : line.Stands place asker track) (sound : layout.Sound)

include stands sound

theorem a_ne_b (rival : Track layout) : rival.straight.a ≠ track.straight.b := by
  intro same
  have absent : rival.straight.a ∉ line.exits := a_not_mem_exits sound rival
  exact absent (same ▸ List.mem_of_getElem? stands.behind)

theorem a_ne_asker (rival : Track layout) : rival.straight.a ≠ asker := by
  intro same
  have absent : rival.straight.a ∉ line.exits := a_not_mem_exits sound rival
  exact absent (same ▸ List.mem_of_getElem? stands.before)

theorem side_ne_b : line.side ≠ track.straight.b := by
  intro same
  have entry : line.exits[0]? = some line.side := rfl
  have places := exits_injective sound entry (same ▸ stands.behind)
  omega

/-- A track does not write what stays 0. -/
theorem not_mem_writes_of_idle {role : Role} (idle : line.Idle role) :
    role ∉ track.writes asker := by
  cases idle with
  | released => simp [Track.writes, stands.side_ne_b sound]
  | track member idle =>
      rename_i rival
      obtain ⟨other, known⟩ := List.mem_iff_getElem?.mp member
      obtain ⟨against, stood⟩ := stands_of_getElem? known
      have passages : rival.straight.ba ≠ track.straight.ab := by
        intro same
        obtain ⟨_, out, _⟩ := track.courses sound
        obtain ⟨_, _, back⟩ := rival.courses sound
        rw [same, out] at back
        exact stood.a_ne_b sound track (congrArg Course.entry back)
      simp only [Track.idles, List.mem_append] at idle
      rcases idle with own | behind
      · simp only [List.mem_cons, List.not_mem_nil, or_false] at own
        rcases own with rfl | rfl | rfl | rfl | rfl <;>
          simp [Track.writes, passages, stands.a_ne_b sound]
      · obtain ⟨mate, onward, listed⟩ := List.mem_flatMap.mp behind
        rw [Option.mem_toList, stood.mate_b] at onward
        obtain ⟨follower, _, rfl⟩ := Option.map_eq_some_iff.mp onward
        simp only [List.mem_cons, List.not_mem_nil, or_false] at listed
        rcases listed with rfl | rfl | rfl <;>
          simp [Track.writes, stands.a_ne_b sound, stands.a_ne_asker sound]
  | back member idle =>
      simp only [List.mem_cons, List.not_mem_nil, or_false] at idle
      rcases idle with rfl | rfl | rfl <;>
        simp [Track.writes, stands.a_ne_b sound, stands.a_ne_asker sound]
  | terminus member unbound idle =>
      rename_i rival
      have differs : rival.straight.b ≠ asker := by
        intro same
        rw [same, stands.mate_asker] at unbound
        cases unbound
      simp only [List.mem_cons, List.not_mem_nil, or_false] at idle
      rcases idle with rfl | rfl <;> simp [Track.writes, differs]

/-- Two tracks do not write the same. -/
theorem not_mem_writes_of_ne {other : Nat} {against : SideId} {rival : Track layout}
    (stood : line.Stands other against rival) (differs : place ≠ other) :
    ∀ role ∈ rival.writes against, role ∉ track.writes asker := by
  have askers : against ≠ asker := fun same => differs (stands.place_of_asker sound stood same.symm)
  have exits : rival.straight.b ≠ track.straight.b :=
    fun same => differs (stands.place_of_b sound stood same.symm)
  have passages : rival.straight.ab ≠ track.straight.ab :=
    fun same => differs (stands.place_of_ab sound stood same.symm)
  simp [Track.writes, askers, exits, passages]

omit stands in
theorem occupancy_not_mem_writes (rival : Track layout) :
    layout.role rival.occupancy ∉ track.writes asker := by
  intro member
  have aside := sound.occupancy_aside rival.found
  rw [Track.writes_inProtocol _ member] at aside
  cases aside

/-- After a turn of a track the panel shows what the track has written. -/
theorem shows_of_writes {hop : Hop} (shows : line.Shows request occupied hops before)
    (written : track.Writes asker before after hop) :
    line.Shows request occupied (update hops place hop) after where
  request := by
    rw [written.keeps _ (by simp [Track.writes, stands.side_ne_b sound]), shows.request]
  idle idle := by
    rw [written.keeps _ (stands.not_mem_writes_of_idle sound idle), shows.idle idle]
  occupied known := by
    rw [written.keeps _ (occupancy_not_mem_writes sound _), shows.occupied known]
  hops := by
    intro other against rival stood
    by_cases same : other = place
    · subst same
      obtain rfl := Option.some.inj (stands.here.symm.trans stood.here)
      obtain rfl := Option.some.inj (stands.before.symm.trans stood.before)
      rw [Function.update_self, written.shows]
    · have kept : ∀ role ∈ rival.writes against, after role = before role := fun role member =>
        written.keeps role (stands.not_mem_writes_of_ne sound stood (Ne.symm same) role member)
      rw [Function.update_of_ne same, ← shows.hops stood]
      simp only [Track.writes, List.forall_mem_cons] at kept
      simp only [Track.hop, kept]

end Frame

end Stands

section Endpoint

theorem plain_endpoint :
    Piece.Plain { name := line.name, occupancy := line.occupancy, body := .endpoint line.side }
      layout where
  summary := rfl
  bits := by
    simp only [Piece.work, Piece.tracking, Piece.duties, List.nil_append, List.flatMap_cons,
      List.flatMap_nil, List.append_nil]
    split <;> simp [endpointRules, answerResetRules, Action.var?]

/-- The endpoint has nothing to answer. -/
theorem Shows.rests_endpoint (sound : layout.Sound) (shows : line.Shows request occupied hops panel) :
    layout.Rests panel (Piece.work
      { name := line.name, occupancy := line.occupancy, body := .endpoint line.side } layout) := by
  simp only [Piece.work, Piece.tracking, Piece.duties, List.nil_append, List.flatMap_cons,
    List.flatMap_nil, List.append_nil]
  split
  · rename_i own inlet _ known
    obtain ⟨mate, joined, wired⟩ := sound.inlet known
    obtain ⟨first, found⟩ : ∃ first, line.tracks[0]? = some first :=
      ⟨_, List.getElem?_eq_getElem (List.length_pos_iff.mpr line.nonempty)⟩
    rw [mate_of_exits (show line.exits[0]? = some line.side from rfl), found] at joined
    obtain rfl := Option.some.inj joined
    have idle : ∀ role ∈ [Role.request first.straight.a, .granted first.straight.a,
        .denied first.straight.a], panel role = false :=
      fun role member => shows.idle (.back (List.mem_of_getElem? found) member)
    simp only [List.forall_mem_cons, ← wired.request, ← wired.granted, ← wired.denied] at idle
    obtain ⟨unasked, ungranted, undenied, _⟩ := idle
    simp [Layout.Rests, endpointRules, answerResetRules, Layout.Sees, unasked, ungranted, undenied]
  · simp [Layout.Rests]

end Endpoint

/-- Each piece of the layout is the endpoint or stands on the line. -/
theorem piece_cases {id : PieceId} {piece : Piece} (found : layout.piece? id = some piece) :
    (id = line.id ∧
        piece = { name := line.name, occupancy := line.occupancy, body := .endpoint line.side }) ∨
      ∃ place asker track, line.Stands place asker track ∧ id = track.id ∧ piece = track.piece := by
  rcases line.complete found with rfl | ⟨track, member, rfl⟩
  · exact .inl ⟨rfl, Option.some.inj (found.symm.trans line.found)⟩
  · obtain ⟨place, known⟩ := List.mem_iff_getElem?.mp member
    obtain ⟨asker, stands⟩ := stands_of_getElem? known
    exact .inr ⟨place, asker, track, stands, rfl, Option.some.inj (found.symm.trans track.found)⟩

theorem plain (line : Line layout) {id : PieceId} {piece : Piece}
    (found : layout.piece? id = some piece) : piece.Plain layout := by
  rcases line.piece_cases found with ⟨_, rfl⟩ | ⟨_, _, track, _, _, rfl⟩
  · exact plain_endpoint
  · exact track.plain_piece

/-- The endpoint does not stand on the line. -/
theorem id_ne (track : Track layout) : track.id ≠ line.id := by
  intro same
  have found := track.found
  rw [same, line.found] at found
  simp at found

section Turned

variable {done rest : List Nat} {index : Nat} {reverse : Bool}

theorem turned_append (known : line.tracks[place]? = some track) :
    line.turned (done ++ [index]) place = (line.turned done place || track.id.index == index) := by
  simp [turned, known, Bool.decide_or, beq_eq_decide]

theorem turned_order (place : Nat) : line.turned (layout.order reverse) place = true := by
  unfold turned
  cases known : line.tracks[place]? with
  | none => rfl
  | some track =>
      have inside : track.id.index < layout.pieces.size :=
        (Array.getElem?_eq_some_iff.mp track.found).1
      simpa using Layout.mem_order.mpr inside

variable (stands : line.Stands place asker track)
  (split : layout.order reverse = done ++ track.id.index :: rest)

include stands split

theorem Stands.unturned : line.turned done place = false := by
  have order := layout.order_nodup reverse
  rw [split] at order
  simp only [turned, stands.here, Option.elim_some, decide_eq_false_iff_not]
  exact fun member => (List.nodup_append.mp order).2.2 _ member _ List.mem_cons_self rfl

/-- A neighbour in front has had its turn if it takes its turns first. -/
theorem Stands.turned_previous {previous : Nat} (next : place = previous + 1) :
    line.turned done previous = line.follows reverse previous := by
  subst next
  obtain ⟨front, earlier, stood, _⟩ := stands.previous
  simp only [turned, follows, stood.here, stands.here, Option.elim_some]
  exact decide_eq_decide.mpr (mem_left_iff_idxOf_lt split (layout.order_nodup reverse))

/-- A neighbour behind has had its turn unless it takes its turns later. -/
theorem Stands.turned_next (sound : layout.Sound) :
    line.turned done (place + 1) = !line.follows reverse place := by
  simp only [turned, follows, stands.here]
  cases found : line.tracks[place + 1]? with
  | none => rfl
  | some follower =>
      have apart : (layout.order reverse).idxOf track.id.index ≠
          (layout.order reverse).idxOf follower.id.index := by
        intro same
        have listed : track.id.index ∈ layout.order reverse := by simp [split]
        have ids : track.id = follower.id := by
          have indices := (List.idxOf_inj listed).mp same
          cases hid : track.id
          cases hid' : follower.id
          simp_all
        have places := stands.place_of_id sound (stands.next found) ids
        omega
      simp only [Option.elim_some, ← decide_not, decide_eq_decide,
        mem_left_iff_idxOf_lt split (layout.order_nodup reverse)]
      omega

end Turned

section Course

variable (sound : layout.Sound) {reverse : Bool}
  {wave : Wave (line.setting request occupied) (line.follows reverse)} {count : Nat}

include sound

/-- While the pieces take their turns in a cycle, each track that has had its turn has gone on
by one. -/
theorem Shows.rounds {done rest : List Nat} (split : layout.order reverse = done ++ rest)
    (shows : line.Shows request occupied
      (fun place => wave.plan place (count + (line.turned done place).toNat)) before)
    (rounds : layout.Rounds rest before after) :
    line.Shows request occupied (fun place => wave.plan place (count + 1)) after := by
  induction rounds generalizing done with
  | done =>
      refine shows.congr fun place _ => ?_
      rw [List.append_nil] at split
      rw [← split, turned_order]
      rfl
  | turn found runs rest ih =>
      rename_i index indices piece before middle after
      have further : layout.order reverse = (done ++ [index]) ++ indices := by simpa using split
      refine ih further ?_
      rcases line.piece_cases found with ⟨here, rfl⟩ | ⟨place, asker, track, stands, here, rfl⟩
      · -- The endpoint rests, and no track has its number.
        rw [plain_endpoint.rules] at runs
        obtain ⟨worked, works, starts⟩ := runs.split
        obtain rfl := (shows.rests_endpoint sound).eq_of_runs works
        obtain rfl := Layout.eq_of_runs_startRule starts
        refine shows.congr fun place inside => ?_
        have known := List.getElem?_eq_getElem inside
        have differs : (line.tracks[place].id.index == index) = false := by
          rw [beq_eq_false_iff_ne]
          rintro rfl
          exact line.id_ne _ here
        simp only [turned_append known, differs, Bool.or_false]
      · have number : index = track.id.index := congrArg PieceId.index here
        subst number
        have own := stands.unturned split
        have vacant := stands.free sound shows (fun linked routed => wave.vacant linked routed)
        have written := (stands.faces sound).writes_of_runs sound (shows.ready stands.member) vacant runs
        rw [stands.outlet_isSome sound, stands.cue_eq shows, shows.hops stands] at written
        have next : (line.setting request occupied).turn
            (fun place => wave.plan place (count + (line.turned done place).toNat)) place =
              wave.plan place (count + 1) := by
          apply wave.turn stands.inside
          · simp [own]
          · intro previous behind
            rw [stands.turned_previous split behind]
          · rw [stands.turned_next split sound]
        rw [Setting.turn] at next
        rw [next] at written
        refine (stands.shows_of_writes sound shows written).congr fun other inside => ?_
        have known := List.getElem?_eq_getElem inside
        obtain ⟨against, stood⟩ := stands_of_getElem? known
        by_cases same : other = place
        · subst same
          obtain rfl := Option.some.inj (stands.here.symm.trans known)
          simp [turned_append stands.here]
        · have differs : (line.tracks[other].id.index == track.id.index) = false := by
            rw [beq_eq_false_iff_ne]
            intro indices
            refine same (stood.place_of_id sound stands ?_)
            cases hid : line.tracks[other].id
            cases hid' : track.id
            simp_all
          rw [Function.update_of_ne same, turned_append known, differs, Bool.or_false]

theorem Shows.cycle (shows : line.Shows request occupied (fun place => wave.plan place count) before)
    (rounds : layout.Rounds (layout.order reverse) before after) :
    line.Shows request occupied (fun place => wave.plan place (count + 1)) after := by
  have split : layout.order reverse = [] ++ layout.order reverse := rfl
  refine Shows.rounds sound split (shows.congr fun place inside => ?_) rounds
  have unturned : line.turned [] place = false := by
    simp [turned, List.getElem?_eq_getElem inside]
  rw [unturned]
  rfl

/-- Where a wave has ended, no rule fires. -/
theorem Shows.rests (shows : line.Shows request occupied wave.final panel) {id : PieceId}
    {piece : Piece} (found : layout.piece? id = some piece) :
    layout.Rests panel (piece.work layout) := by
  rcases line.piece_cases found with ⟨_, rfl⟩ | ⟨place, asker, track, stands, _, rfl⟩
  · exact shows.rests_endpoint sound
  · have vacant := stands.free sound shows fun linked routed => by
      rw [← wave.reached stands.inside] at routed
      exact wave.vacant linked routed
    refine (stands.faces sound).rests_work sound (shows.ready stands.member) vacant ?_
    rw [stands.outlet_isSome sound, stands.cue_eq shows, shows.hops stands]
    exact wave.still stands.inside

/-- A machine that runs a line settles where a wave ends. -/
theorem Shows.settle {settings : SimConfig} {machine : Machine}
    {wave : Wave (line.setting request occupied) (line.follows settings.reverseOrder)}
    (hosts : layout.Hosts settings machine)
    (shows : line.Shows request occupied (fun place => wave.plan place 0)
      (layout.panel machine.memory))
    (positive : 0 < wave.last) (enough : wave.last < settings.maxSettleCycles.toNat) :
    ∃ next, machine.settle = .ok (next, true) ∧ layout.Hosts settings next ∧
      line.Shows request occupied wave.final (layout.panel next.memory) := by
  have reached : ∀ {panel}, line.Shows request occupied (fun place => wave.plan place wave.last)
      panel → line.Shows request occupied wave.final panel :=
    fun shows => shows.congr fun _ inside => wave.reached inside
  let course (count : Nat) (panel : Panel) : Prop :=
    line.Shows request occupied (fun place => wave.plan place count) panel
  have cycle : ∀ {count before after}, course count before →
      layout.Rounds (layout.order settings.reverseOrder) before after → course (count + 1) after :=
    fun shows rounds => Shows.cycle sound shows rounds
  have still : ∀ {panel}, course wave.last panel → ∀ {id piece},
      layout.piece? id = some piece → layout.Rests panel (piece.work layout) :=
    fun shows _ _ found => (reached shows).rests sound found
  obtain ⟨next, settled, hosted, ended⟩ :=
    hosts.settle sound line.plain cycle still shows positive enough
  exact ⟨next, settled, hosted, reached ended⟩

end Course

end Line

end Interlocking

import Interlocking.Proofs.Panel
import Interlocking.Proofs.Representation

/-!
# The reservation protocol

What the reservation rules of all pieces have in common, stated about panels. A shift is
one thing that a piece can do to the bits of its passages and sides: it answers a
neighbour, or it takes one of its own passages a step further. All safety properties of
the protocol are properties of single shifts.

While a piece works on a passage, the release that it announced at the exit may still
stand although the passage is asked for anew. The side at which this can happen is the
`loose` one; between the passages there is none.
-/

namespace Interlocking

open Function (update)

/-- The passage is reserved, or its reservation is being negotiated. -/
def Panel.Held (panel : Panel) (passage : Passage) : Prop :=
  panel (.route passage) = true ∨ panel (.pending passage) = true

/-- Whether the reservation protocol is about bits of this role. -/
def Role.inProtocol : Role → Bool
  | .request _ | .granted _ | .denied _ | .released _ => true
  | .route _ | .pending _ | .position _ => true
  | .seen _ | .occupancy _ | .helper _ | .anyRoute _ | .outside _ => false

/-- The panels show the same as far as the protocol is concerned. -/
def Panel.Alike (panel other : Panel) : Prop :=
  ∀ role, role.inProtocol = true → panel role = other role

namespace Panel.Alike

variable {panel other : Panel} {role : Role}

theorem refl (panel : Panel) : panel.Alike panel := fun _ _ => rfl

theorem trans {third : Panel} (first : panel.Alike other) (second : other.Alike third) :
    panel.Alike third :=
  fun role concerned => (first role concerned).trans (second role concerned)

theorem update (alike : panel.Alike other) (value : Bool) :
    Panel.Alike (Function.update panel role value) (Function.update other role value) := by
  intro tested concerned
  simp only [Function.update_apply, alike tested concerned]

theorem aside (alike : panel.Alike other) (apart : role.inProtocol = false) (value : Bool) :
    Panel.Alike (Function.update panel role value) other := by
  intro tested concerned
  have differs : tested ≠ role := by
    intro same
    simp [same, apart] at concerned
  simp [differs, alike tested concerned]

end Panel.Alike

/-- The passages for which the neighbour at the entry asks. A signal asks itself for its
passage from `a` to `b`. -/
def Piece.asked (piece : Piece) : List Passage :=
  match piece.body with
  | .straight { kind := .signal .., ba, .. } => [ba]
  | _ => piece.passages

namespace Layout

/-- The passage is a way through the piece. -/
def Way (layout : Layout) (id : PieceId) (passage : Passage) : Prop :=
  ∃ piece, layout.piece? id = some piece ∧ passage ∈ piece.passages

/-- The neighbour at the entry asks for the passage. -/
def Asked (layout : Layout) (passage : Passage) : Prop :=
  ∃ id piece, layout.piece? id = some piece ∧ passage ∈ piece.asked

/-- The side belongs to the piece. -/
def Borders (layout : Layout) (id : PieceId) (side : SideId) : Prop :=
  ∃ record, layout.side? side = some record ∧ record.owner = id

/-- The side belongs to a piece that is not an endpoint. -/
def Inner (layout : Layout) (side : SideId) : Prop :=
  ∃ piece, layout.owner? side = some piece ∧ ∀ own, piece.body ≠ .endpoint own

/-- No passage of the piece is in use. -/
def Free (layout : Layout) (panel : Panel) (id : PieceId) : Prop :=
  ∀ passage, layout.Way id passage → ¬panel.Held passage

/-- The turnout stands as the passage needs it. -/
def Fits (panel : Panel) (id : PieceId) (passage : Passage) : Prop :=
  ∀ position, passage.position = some position → panel (.position id) = position.bit

/-- A train may leave through the side, or may do so as soon as the piece has noticed. -/
def Secured (layout : Layout) (panel : Panel) (side : SideId) : Prop :=
  ∃ id passage, layout.Way id passage ∧ passage.exit = side ∧
    (panel (.route passage) = true ∨
      panel (.pending passage) = true ∧ panel (.granted side) = true)

/-- What a piece does in one step to the bits of its passages and sides. -/
inductive Shift (layout : Layout) (loose : Option SideId) (panel : Panel) : Panel → Prop where
  /-- Refuses the request that arrives at `entry`. -/
  | refuse {entry asker : SideId} (joined : layout.mate? entry = some asker)
      (ungranted : panel (.granted asker) = false)
      (idle : ∀ passage, layout.Asked passage → passage.entry = entry →
        panel (.pending passage) = false) :
      Shift layout loose panel (update panel (.denied asker) true)
  /-- Grants the request that arrives at `entry`. -/
  | concede {entry asker : SideId} (joined : layout.mate? entry = some asker)
      (undenied : panel (.denied asker) = false)
      (idle : ∀ passage, layout.Asked passage → passage.entry = entry →
        panel (.pending passage) = false)
      (clear : ∀ {id passage}, layout.Way id passage → passage.exit = entry →
        ¬panel.Held passage)
      (calm : ∀ {id passage}, layout.Way id passage → passage.exit = asker →
        loose = some asker → panel (.pending passage) = false) :
      Shift layout loose panel (update panel (.granted asker) true)
  /-- Reserves a passage behind which the track ends. -/
  | arrive {id : PieceId} {passage : Passage} (way : layout.Way id passage)
      (unbound : layout.mate? passage.exit = none) (free : layout.Free panel id)
      (fits : Fits panel id passage) :
      Shift layout loose panel (update panel (.route passage) true)
  /-- Asks the neighbour at the exit for the rest of the route. -/
  | ask {id : PieceId} {passage : Passage} (way : layout.Way id passage)
      (working : loose = some passage.exit) (free : layout.Free panel id)
      (fits : Fits panel id passage) (ungranted : panel (.granted passage.exit) = false)
      (unanswered : layout.Asked passage → ∀ asker, layout.mate? passage.entry = some asker →
        panel (.granted asker) = false ∧ panel (.denied asker) = false) :
      Shift layout loose panel
        (update (update panel (.pending passage) true) (.request passage.exit) true)
  /-- Takes the grant of the neighbour at the exit over. -/
  | confirm {id : PieceId} {passage : Passage} (way : layout.Way id passage)
      (pending : panel (.pending passage) = true)
      (granted : panel (.granted passage.exit) = true) :
      Shift layout loose panel
        (update (update panel (.route passage) true) (.pending passage) false)
  /-- Takes the refusal of the neighbour at the exit over. -/
  | abandon {id : PieceId} {passage : Passage} (way : layout.Way id passage)
      (pending : panel (.pending passage) = true) :
      Shift layout loose panel
        (update (update panel (.pending passage) false) (.request passage.exit) false)
  /-- Gives a route up and tells the neighbour at the exit. -/
  | release {id : PieceId} {passage : Passage} (way : layout.Way id passage)
      (reserved : panel (.route passage) = true) :
      Shift layout loose panel
        (update (update (update panel (.route passage) false) (.request passage.exit) false)
          (.released passage.exit) true)
  /-- Gives a route up behind which the track ends. -/
  | leave {id : PieceId} {passage : Passage} (way : layout.Way id passage)
      (unbound : layout.mate? passage.exit = none)
      (reserved : panel (.route passage) = true) :
      Shift layout loose panel (update panel (.route passage) false)
  /-- Takes a grant back that is not used any more. -/
  | withdraw {asker : SideId}
      (unused : panel (.released asker) = true ∨ panel (.request asker) = false) :
      Shift layout loose panel (update panel (.granted asker) false)
  /-- Takes a refusal back. -/
  | forget {asker : SideId} : Shift layout loose panel (update panel (.denied asker) false)
  /-- Stops announcing a release. -/
  | settle {exit : SideId} : Shift layout loose panel (update panel (.released exit) false)

/-- At most one passage of a piece is in use, and its turnout stands right. -/
structure Exclusive (layout : Layout) (panel : Panel) : Prop where
  settled : ∀ {id passage}, layout.Way id passage → panel (.route passage) = true →
    panel (.pending passage) = false
  alone : ∀ {id passage other}, layout.Way id passage → layout.Way id other →
    panel.Held passage → panel.Held other → passage = other
  aligned : ∀ {id passage}, layout.Way id passage → panel.Held passage → Fits panel id passage

/-- The handshake bits tell of the reservations for which they stand. -/
structure Agreed (layout : Layout) (loose : Option SideId) (panel : Panel) : Prop where
  requested : ∀ {side mate}, layout.mate? side = some mate → layout.Inner side →
    (panel (.request side) = true ↔
      ∃ id passage, layout.Way id passage ∧ passage.exit = side ∧ panel.Held passage)
  granted : ∀ {id passage mate}, layout.Way id passage → layout.mate? passage.exit = some mate →
    panel (.route passage) = true → panel (.granted passage.exit) = true ∧
      panel (.denied passage.exit) = false ∧ panel (.released passage.exit) = false
  answered : ∀ side, panel (.granted side) = true → panel (.denied side) = false
  waiting : ∀ {passage asker}, layout.Asked passage → layout.mate? passage.entry = some asker →
    panel (.pending passage) = true →
    panel (.granted asker) = false ∧ panel (.denied asker) = false
  quiet : ∀ {id passage mate}, layout.Way id passage → layout.mate? passage.exit = some mate →
    panel (.pending passage) = true → panel (.released passage.exit) = true →
    loose = some passage.exit ∧ panel (.granted passage.exit) = false

/-- All that the reservation protocol maintains. -/
structure Orderly (layout : Layout) (loose : Option SideId) (panel : Panel) : Prop where
  exclusive : layout.Exclusive panel
  agreed : layout.Agreed loose panel
  apart : ∀ {left right}, layout.mate? left = some right →
    ¬(layout.Secured panel left ∧ layout.Secured panel right)

variable {layout : Layout} {loose : Option SideId} {before after : Panel}

section Ways

variable {id other : PieceId} {passage rival : Passage}

theorem Borders.unique {side : SideId} (first : layout.Borders id side)
    (second : layout.Borders other side) : id = other := by
  obtain ⟨record, found, owner⟩ := first
  obtain ⟨record', found', owner'⟩ := second
  rw [found] at found'
  rw [← owner, ← owner', Option.some.inj found']

theorem Sound.borders (sound : layout.Sound) (way : layout.Way id passage) :
    layout.Borders id passage.entry ∧ layout.Borders id passage.exit := by
  obtain ⟨piece, found, member⟩ := way
  have leads := (sound.shaped found).leads member
  exact ⟨sound.listed found _ leads.1, sound.listed found _ leads.2.1⟩

/-- Passages that end at one side belong to one piece. -/
theorem Sound.same_piece (sound : layout.Sound) (way : layout.Way id passage)
    (against : layout.Way other rival) (exits : passage.exit = rival.exit) : id = other :=
  (sound.borders way).2.unique (exits ▸ (sound.borders against).2)

theorem Sound.exit_inner (sound : layout.Sound) (way : layout.Way id passage) :
    layout.Inner passage.exit := by
  obtain ⟨record, found, owner⟩ := (sound.borders way).2
  obtain ⟨piece, known, member⟩ := way
  refine ⟨piece, by simp [owner?, found, owner, known], ?_⟩
  intro own same
  simp [Piece.passages, same] at member

theorem Sound.mate_injective (sound : layout.Sound) {left right mate : SideId}
    (first : layout.mate? left = some mate) (second : layout.mate? right = some mate) :
    left = right := by
  have back := sound.paired first
  rw [sound.paired second] at back
  exact (Option.some.inj back).symm

theorem mem_passages_of_mem_asked {piece : Piece} (member : passage ∈ piece.asked) :
    passage ∈ piece.passages := by
  unfold Piece.asked at member
  split at member
  · rename_i body
    simp_all [Piece.passages]
  · exact member

theorem Asked.way (asked : layout.Asked passage) : ∃ id, layout.Way id passage := by
  obtain ⟨id, piece, found, member⟩ := asked
  exact ⟨id, piece, found, mem_passages_of_mem_asked member⟩

section

variable (sound : layout.Sound) {piece : Piece} (found : layout.piece? id = some piece)
  {side : SideId} (listed : side ∈ piece.sides)

include sound found listed

/-- A passage that is asked for at a side of a piece is one for which the piece is asked. -/
theorem Sound.mem_asked (asked : layout.Asked passage) (entries : passage.entry = side) :
    passage ∈ piece.asked := by
  obtain ⟨place, piece', known, member⟩ := asked
  have way : layout.Way place passage := ⟨piece', known, mem_passages_of_mem_asked member⟩
  obtain rfl := (sound.borders way).1.unique (entries ▸ sound.listed found side listed)
  obtain rfl := Option.some.inj (found.symm.trans known)
  exact member

/-- A passage that ends at a side of a piece is one of the piece. -/
theorem Sound.mem_passages (way : layout.Way other passage) (exits : passage.exit = side) :
    passage ∈ piece.passages := by
  obtain rfl := (sound.borders way).2.unique (exits ▸ sound.listed found side listed)
  obtain ⟨piece', known, member⟩ := way
  obtain rfl := Option.some.inj (found.symm.trans known)
  exact member

end

end Ways

section Exclusion

variable {id other : PieceId} {passage rival : Passage}

/-- A passage in use is the only one in use that leads to its exit. -/
theorem Exclusive.sole_at_exit (exclusive : layout.Exclusive before) (sound : layout.Sound)
    (way : layout.Way id passage) (held : before.Held passage)
    (against : layout.Way other rival) (exits : rival.exit = passage.exit)
    (used : before.Held rival) : rival = passage := by
  obtain rfl := sound.same_piece against way exits
  exact exclusive.alone against way used held

/-- Apart from the bits of one passage, the reservations and positions are the same. -/
structure Touches (passage : Passage) (before after : Panel) : Prop where
  route : ∀ other, other ≠ passage → after (.route other) = before (.route other)
  pending : ∀ other, other ≠ passage → after (.pending other) = before (.pending other)
  position : ∀ id, after (.position id) = before (.position id)

theorem Touches.held (touches : Touches passage before after) (differs : rival ≠ passage) :
    after.Held rival ↔ before.Held rival := by
  simp only [Panel.Held, touches.route rival differs, touches.pending rival differs]

/-- A passage may change if at the end it is in use in one way at most, and was in use
before or belongs to a free piece that stands right. -/
theorem Exclusive.touch (exclusive : layout.Exclusive before) (sound : layout.Sound)
    (way : layout.Way id passage) (touches : Touches passage before after)
    (settled : after (.route passage) = true → after (.pending passage) = false)
    (allowed : after.Held passage → before.Held passage ∨
      layout.Free before id ∧ Fits before id passage) : layout.Exclusive after where
  settled := by
    intro other rival against reserved
    by_cases same : rival = passage
    · subst same
      exact settled reserved
    · rw [touches.pending rival same]
      rw [touches.route rival same] at reserved
      exact exclusive.settled against reserved
  alone := by
    -- A passage in use besides the changed one contradicts that the piece was free.
    have against : ∀ {rival}, layout.Way id rival → after.Held rival → after.Held passage →
        rival = passage := by
      intro rival against used held
      by_contra differs
      have old := (touches.held differs).mp used
      rcases allowed held with before | ⟨free, _⟩
      · exact differs (exclusive.alone against way old before)
      · exact free rival against old
    intro other left right wayLeft wayRight heldLeft heldRight
    by_cases sameLeft : left = passage
    · subst sameLeft
      obtain rfl := sound.same_piece wayLeft way rfl
      exact (against wayRight heldRight heldLeft).symm
    · by_cases sameRight : right = passage
      · subst sameRight
        obtain rfl := sound.same_piece wayRight way rfl
        exact against wayLeft heldLeft heldRight
      · exact exclusive.alone wayLeft wayRight ((touches.held sameLeft).mp heldLeft)
          ((touches.held sameRight).mp heldRight)
  aligned := by
    intro other rival against held position needed
    rw [touches.position]
    by_cases same : rival = passage
    · subst same
      obtain rfl := sound.same_piece against way rfl
      rcases allowed held with old | ⟨_, fits⟩
      · exact exclusive.aligned way old position needed
      · exact fits position needed
    · exact exclusive.aligned against ((touches.held same).mp held) position needed

/-- Where a passage has changed, the request at its exit has to follow. -/
theorem Agreed.requested_touch (agreed : layout.Agreed loose before)
    (exclusive : layout.Exclusive before) (sound : layout.Sound) (way : layout.Way id passage)
    (touches : Touches passage before after)
    (used : before.Held passage ∨ layout.Free before id)
    (follows : ∀ mate, layout.mate? passage.exit = some mate →
      (after (.request passage.exit) = true ↔ after.Held passage))
    (elsewhere : ∀ side, side ≠ passage.exit → after (.request side) = before (.request side))
    {side mate : SideId} (joined : layout.mate? side = some mate) (inner : layout.Inner side) :
    after (.request side) = true ↔
      ∃ id passage, layout.Way id passage ∧ passage.exit = side ∧ after.Held passage := by
  by_cases same : side = passage.exit
  · subst same
    rw [follows mate joined]
    constructor
    · intro held
      exact ⟨id, passage, way, rfl, held⟩
    · intro ⟨other, rival, against, exits, held⟩
      by_cases differs : rival = passage
      · exact differs ▸ held
      · have old := (touches.held differs).mp held
        rcases used with before | free
        · exact absurd (exclusive.sole_at_exit sound way before against exits old) differs
        · obtain rfl := sound.same_piece against way exits
          exact absurd old (free rival against)
  · rw [elsewhere side same, agreed.requested joined inner]
    have others : ∀ {rival : Passage}, rival.exit = side →
        (after.Held rival ↔ before.Held rival) := by
      intro rival exits
      apply touches.held
      intro equal
      exact same (by rw [← exits, equal])
    constructor
    · intro ⟨other, rival, against, exits, held⟩
      exact ⟨other, rival, against, exits, (others exits).mpr held⟩
    · intro ⟨other, rival, against, exits, held⟩
      exact ⟨other, rival, against, exits, (others exits).mp held⟩

end Exclusion

namespace Shift

/-- What a shift does to the passages: nothing, or it changes one of them. -/
theorem exclusive (sound : layout.Sound) (shift : layout.Shift loose before after)
    (exclusive : layout.Exclusive before) : layout.Exclusive after := by
  cases shift with
  | refuse | concede | withdraw | forget | settle =>
      obtain ⟨settled, alone, aligned⟩ := exclusive
      constructor
      · simpa using @settled
      · simpa [Panel.Held] using @alone
      · simpa [Panel.Held, Fits] using @aligned
  | arrive way _ free fits | ask way _ free fits =>
      have idle := free _ way
      apply exclusive.touch sound way
      · constructor <;> simp +contextual
      · simp_all [Panel.Held]
      · exact fun _ => .inr ⟨free, fits⟩
  | confirm way pending | abandon way pending =>
      apply exclusive.touch sound way
      · constructor <;> simp +contextual
      · simp
      · exact fun _ => .inl (.inr pending)
  | release way reserved | leave way _ reserved =>
      apply exclusive.touch sound way
      · constructor <;> simp +contextual
      · simp
      · exact fun _ => .inl (.inl reserved)

section

variable (sound : layout.Sound) (exclusive : layout.Exclusive before)
  (agreed : layout.Agreed loose before) (shift : layout.Shift loose before after)

include sound exclusive agreed shift

theorem requested {side mate : SideId} (joined : layout.mate? side = some mate)
    (inner : layout.Inner side) : after (.request side) = true ↔
      ∃ id passage, layout.Way id passage ∧ passage.exit = side ∧ after.Held passage := by
  cases shift with
  | refuse | concede | withdraw | forget | settle =>
      simpa [Panel.Held] using agreed.requested joined inner
  | arrive way unbound free fits =>
      refine agreed.requested_touch exclusive sound way ?_ (.inr free) ?_ ?_ joined inner
      · constructor <;> simp +contextual
      · simp [unbound]
      · simp
  | ask way working free fits ungranted unanswered =>
      refine agreed.requested_touch exclusive sound way ?_ (.inr free) ?_ ?_ joined inner
      · constructor <;> simp +contextual
      · simp [Panel.Held]
      · simp +contextual
  | confirm way pending granted =>
      refine agreed.requested_touch exclusive sound way ?_ (.inl (.inr pending)) ?_ ?_ joined inner
      · constructor <;> simp +contextual
      · intro mate bound
        have asking := (agreed.requested bound (sound.exit_inner way)).mpr
          ⟨_, _, way, rfl, .inr pending⟩
        simp [Panel.Held, asking]
      · simp
  | abandon way pending =>
      have settled := exclusive.settled way
      refine agreed.requested_touch exclusive sound way ?_ (.inl (.inr pending)) ?_ ?_ joined inner
      · constructor <;> simp +contextual
      · simp_all [Panel.Held]
      · simp +contextual
  | release way reserved =>
      have settled := exclusive.settled way reserved
      refine agreed.requested_touch exclusive sound way ?_ (.inl (.inl reserved)) ?_ ?_ joined inner
      · constructor <;> simp +contextual
      · simp [Panel.Held, settled]
      · simp +contextual
  | leave way unbound reserved =>
      refine agreed.requested_touch exclusive sound way ?_ (.inl (.inl reserved)) ?_ ?_ joined inner
      · constructor <;> simp +contextual
      · simp [unbound]
      · simp

theorem granted {id : PieceId} {passage : Passage} {mate : SideId}
    (way : layout.Way id passage) (joined : layout.mate? passage.exit = some mate)
    (reserved : after (.route passage) = true) : after (.granted passage.exit) = true ∧
      after (.denied passage.exit) = false ∧ after (.released passage.exit) = false := by
  have known := agreed.granted way joined
  cases shift with
  | @refuse entry asker bound ungranted idle =>
      have known := known (by simpa using reserved)
      have differs : passage.exit ≠ asker := by
        intro same
        simp [← same, known] at ungranted
      simpa [differs] using known
  | concede | forget | settle =>
      have known := known (by simpa using reserved)
      simp [Function.update_apply, known]
  | @arrive _ changed against unbound free fits =>
      have differs : passage ≠ changed := by
        intro same
        simp [← same, joined] at unbound
      simpa using known (by simpa [differs] using reserved)
  | ask | abandon => simpa using known (by simpa using reserved)
  | @confirm _ changed against pending granted =>
      by_cases same : passage = changed
      · subst same
        have undenied := agreed.answered _ granted
        -- The grant is not an old one: a release would still be announced.
        have unreleased : before (.released passage.exit) = false := by
          by_contra released
          have loosened := agreed.quiet against joined pending (by simpa using released)
          simp [loosened.2] at granted
        simp [granted, undenied, unreleased]
      · simpa using known (by simpa [same] using reserved)
  | @release _ changed against left =>
      have differs : passage ≠ changed := by
        intro same
        simp [same] at reserved
      have old : before (.route passage) = true := by simpa [differs] using reserved
      have exits : passage.exit ≠ changed.exit := by
        intro same
        exact differs (exclusive.sole_at_exit sound against (.inl left) way same (.inl old))
      simpa [exits] using known old
  | @leave _ changed against unbound left =>
      have differs : passage ≠ changed := by
        intro same
        simp [same] at reserved
      simpa using known (by simpa [differs] using reserved)
  | @withdraw asker unused =>
      -- A reserved passage keeps its request up and announces no release.
      have old : before (.route passage) = true := by simpa using reserved
      have known := known old
      have asking := (agreed.requested joined (sound.exit_inner way)).mpr
        ⟨id, passage, way, rfl, .inl old⟩
      have differs : passage.exit ≠ asker := by
        intro same
        simp [← same, known, asking] at unused
      simpa [differs] using known

omit sound exclusive in
theorem answered (side : SideId) (granted : after (.granted side) = true) :
    after (.denied side) = false := by
  have known := agreed.answered side
  cases shift with
  | refuse | concede | withdraw | forget =>
      simp only [Function.update_apply] at granted ⊢
      grind
  | arrive | ask | confirm | abandon | release | leave | settle =>
      simpa using known (by simpa using granted)

omit exclusive in
theorem waiting {passage : Passage} {asker : SideId} (asked : layout.Asked passage)
    (joined : layout.mate? passage.entry = some asker)
    (pending : after (.pending passage) = true) :
    after (.granted asker) = false ∧ after (.denied asker) = false := by
  have known := agreed.waiting asked joined
  cases shift with
  | @refuse entry answered bound _ idle | @concede entry answered bound _ idle =>
      -- Whoever still waits for its own answer has not answered the asker.
      have old : before (.pending passage) = true := by simpa using pending
      have differs : asker ≠ answered := by
        intro same
        subst same
        have quiet := idle passage asked (sound.mate_injective joined bound)
        simp [quiet] at old
      simpa [differs] using known old
  | arrive | release | leave | settle => simpa using known (by simpa using pending)
  | @ask _ changed way working free fits ungranted unanswered =>
      by_cases same : passage = changed
      · subst same
        simpa using unanswered asked asker joined
      · simpa using known (by simpa [same] using pending)
  | @confirm _ changed | @abandon _ changed =>
      have differs : passage ≠ changed := by
        intro same
        simp [same] at pending
      simpa using known (by simpa [differs] using pending)
  | withdraw | forget =>
      have known := known (by simpa using pending)
      simp [Function.update_apply, known]

theorem quiet {id : PieceId} {passage : Passage} {mate : SideId}
    (way : layout.Way id passage) (joined : layout.mate? passage.exit = some mate)
    (pending : after (.pending passage) = true)
    (released : after (.released passage.exit) = true) :
    loose = some passage.exit ∧ after (.granted passage.exit) = false := by
  have known := agreed.quiet way joined
  cases shift with
  | refuse | arrive | leave | forget =>
      simpa using known (by simpa using pending) (by simpa using released)
  | @concede entry asker bound undenied idle clear calm =>
      have old : before (.pending passage) = true := by simpa using pending
      have known := known old (by simpa using released)
      have differs : passage.exit ≠ asker := by
        intro same
        simp [calm way same (same ▸ known.1)] at old
      simpa [differs] using known
  | @ask _ changed against working free fits ungranted unanswered =>
      by_cases same : passage = changed
      · subst same
        simpa using And.intro working ungranted
      · simpa using known (by simpa [same] using pending) (by simpa using released)
  | @confirm _ changed | @abandon _ changed =>
      have differs : passage ≠ changed := by
        intro same
        simp [same] at pending
      simpa using known (by simpa [differs] using pending) (by simpa using released)
  | @release _ changed against reserved =>
      have old : before (.pending passage) = true := by simpa using pending
      have exits : passage.exit ≠ changed.exit := by
        intro same
        obtain rfl := exclusive.sole_at_exit sound against (.inl reserved) way same (.inr old)
        simp [exclusive.settled way reserved] at old
      simpa using known old (by simpa [exits] using released)
  | withdraw unused =>
      have known := known (by simpa using pending) (by simpa using released)
      simp [Function.update_apply, known]
  | @settle exit =>
      have differs : passage.exit ≠ exit := by
        intro same
        simp [same] at released
      simpa using known (by simpa using pending) (by simpa [differs] using released)

end

/-- Apart from a new grant, a shift makes no side secured. -/
theorem secured {side : SideId} {mate : SideId} (joined : layout.mate? side = some mate)
    (shift : layout.Shift loose before after) (secured : layout.Secured after side) :
    layout.Secured before side ∨ ∃ entry, layout.mate? entry = some side ∧
      ∀ {id passage}, layout.Way id passage → passage.exit = entry → ¬after.Held passage := by
  obtain ⟨id, passage, way, exits, holds⟩ := secured
  cases shift with
  | refuse | forget | settle => exact .inl ⟨id, passage, way, exits, by simpa using holds⟩
  | @concede entry asker bound undenied idle clear calm =>
      by_cases same : side = asker
      · subst same
        refine .inr ⟨entry, bound, ?_⟩
        intro id passage way leads
        simpa [Panel.Held] using clear way leads
      · exact .inl ⟨id, passage, way, exits, by simpa [same] using holds⟩
  | @arrive _ changed against unbound free fits =>
      have differs : passage ≠ changed := by
        intro same
        simp [← same, exits, joined] at unbound
      exact .inl ⟨id, passage, way, exits, by simpa [differs] using holds⟩
  | @ask _ changed against working free fits ungranted unanswered =>
      left
      refine ⟨id, passage, way, exits, ?_⟩
      by_cases same : passage = changed
      · subst same
        simpa [← exits, ungranted] using holds
      · simpa [same] using holds
  | @confirm _ changed against pending granted =>
      left
      refine ⟨id, passage, way, exits, ?_⟩
      by_cases same : passage = changed
      · subst same
        exact .inr ⟨pending, exits ▸ granted⟩
      · simpa [same] using holds
  | abandon | release | leave | withdraw =>
      left
      refine ⟨id, passage, way, exits, ?_⟩
      simp only [Function.update_apply, reduceCtorEq, if_false] at holds
      grind

theorem apart (sound : layout.Sound) (shift : layout.Shift loose before after)
    {left right : SideId} (joined : layout.mate? left = some right)
    (apart : ¬(layout.Secured before left ∧ layout.Secured before right)) :
    ¬(layout.Secured after left ∧ layout.Secured after right) := by
  -- A side to which a grant was given has a mate through which no passage in use leads.
  have open_mate : ∀ {side mate entry}, layout.mate? side = some mate →
      layout.mate? entry = some side →
      (∀ {id passage}, layout.Way id passage → passage.exit = entry → ¬after.Held passage) →
      ¬layout.Secured after mate := by
    intro side mate entry bound answers unused ⟨id, passage, way, exits, holds⟩
    obtain rfl := sound.mate_injective answers (sound.paired bound)
    exact unused way exits (holds.imp_right And.left)
  intro ⟨securedLeft, securedRight⟩
  rcases shift.secured joined securedLeft with oldLeft | ⟨entry, answers, unused⟩
  · rcases shift.secured (sound.paired joined) securedRight with oldRight | ⟨entry, answers, unused⟩
    · exact apart ⟨oldLeft, oldRight⟩
    · exact open_mate (sound.paired joined) answers unused securedLeft
  · exact open_mate joined answers unused securedRight

/-- The protocol is maintained by everything that a piece can do. -/
theorem orderly (sound : layout.Sound) (shift : layout.Shift loose before after)
    (orderly : layout.Orderly loose before) : layout.Orderly loose after where
  exclusive := shift.exclusive sound orderly.exclusive
  agreed := {
    requested := shift.requested sound orderly.exclusive orderly.agreed
    granted := shift.granted sound orderly.exclusive orderly.agreed
    answered := shift.answered orderly.agreed
    waiting := shift.waiting sound orderly.agreed
    quiet := shift.quiet sound orderly.exclusive orderly.agreed }
  apart := fun joined => shift.apart sound joined (orderly.apart joined)

end Shift

namespace Orderly

/-- The protocol starts from a panel on which nothing is set. -/
theorem zeros (layout : Layout) : layout.Orderly none (fun _ => false) where
  exclusive := by constructor <;> simp [Panel.Held]
  agreed := by constructor <;> simp [Panel.Held]
  apart := by simp [Secured]

/-- Bits that the protocol is not about have no influence on it. -/
theorem congr (alike : after.Alike before) (orderly : layout.Orderly loose before) :
    layout.Orderly loose after := by
  obtain ⟨⟨settled, alone, aligned⟩, ⟨requested, granted, answered, waiting, quiet⟩, apart⟩ :=
    orderly
  have request : ∀ side, after (.request side) = before (.request side) := fun _ => alike _ rfl
  have grant : ∀ side, after (.granted side) = before (.granted side) := fun _ => alike _ rfl
  have deny : ∀ side, after (.denied side) = before (.denied side) := fun _ => alike _ rfl
  have release : ∀ side, after (.released side) = before (.released side) := fun _ => alike _ rfl
  have route : ∀ passage, after (.route passage) = before (.route passage) := fun _ => alike _ rfl
  have pending : ∀ passage, after (.pending passage) = before (.pending passage) :=
    fun _ => alike _ rfl
  have position : ∀ id, after (.position id) = before (.position id) := fun _ => alike _ rfl
  simp only [Panel.Held, Fits, Secured, ← request, ← grant, ← deny, ← release, ← route, ← pending,
    ← position] at settled alone aligned requested granted answered waiting quiet apart
  exact ⟨⟨settled, alone, aligned⟩, ⟨requested, granted, answered, waiting, quiet⟩, apart⟩

theorem loosen (orderly : layout.Orderly none before) : layout.Orderly loose before := by
  obtain ⟨exclusive, agreed, apart⟩ := orderly
  refine ⟨exclusive, ⟨agreed.requested, agreed.granted, agreed.answered, agreed.waiting, ?_⟩, apart⟩
  intro id passage mate way joined pending released
  cases (agreed.quiet way joined pending released).1

/-- No side is loose any more once a release without a grant is not announced any more. -/
theorem tighten (orderly : layout.Orderly loose before)
    (finished : ∀ side mate, loose = some side → layout.mate? side = some mate →
      before (.granted side) = false → before (.released side) = false) :
    layout.Orderly none before := by
  obtain ⟨exclusive, agreed, apart⟩ := orderly
  refine ⟨exclusive, ⟨agreed.requested, agreed.granted, agreed.answered, agreed.waiting, ?_⟩, apart⟩
  intro id passage mate way joined pending released
  obtain ⟨working, ungranted⟩ := agreed.quiet way joined pending released
  simp [finished _ _ working joined ungranted] at released

/-- The turnout of a free piece may move. -/
theorem move (orderly : layout.Orderly loose before) {id : PieceId}
    (free : layout.Free before id) (value : Bool) :
    layout.Orderly loose (update before (.position id) value) := by
  obtain ⟨⟨settled, alone, aligned⟩, ⟨requested, granted, answered, waiting, quiet⟩, apart⟩ :=
    orderly
  refine ⟨⟨?_, ?_, ?_⟩, ⟨?_, ?_, ?_, ?_, ?_⟩, ?_⟩
  · simpa using @settled
  · simpa [Panel.Held] using @alone
  · intro other passage way held position needed
    have held : before.Held passage := by simpa [Panel.Held] using held
    have differs : other ≠ id := by
      intro same
      subst same
      exact free passage way held
    simpa [differs] using aligned way held position needed
  · simpa [Panel.Held] using @requested
  · simpa using @granted
  · simpa using answered
  · simpa using @waiting
  · simpa using @quiet
  · simpa [Secured] using @apart

/-- The request and the announced release of an endpoint may change at any time. -/
theorem drive (orderly : layout.Orderly loose before) (sound : layout.Sound) {side : SideId}
    (outer : ¬layout.Inner side) {role : Role}
    (driven : role = .request side ∨ role = .released side) (value : Bool) :
    layout.Orderly loose (update before role value) := by
  obtain ⟨⟨settled, alone, aligned⟩, ⟨requested, granted, answered, waiting, quiet⟩, apart⟩ :=
    orderly
  have elsewhere : ∀ {id passage}, layout.Way id passage → passage.exit ≠ side :=
    fun way same => outer (same ▸ sound.exit_inner way)
  rcases driven with rfl | rfl
  · refine ⟨⟨?_, ?_, ?_⟩, ⟨?_, ?_, ?_, ?_, ?_⟩, ?_⟩
    · simpa using @settled
    · simpa [Panel.Held] using @alone
    · simpa [Panel.Held, Fits] using @aligned
    · intro other mate joined inner
      have differs : other ≠ side := fun same => outer (same ▸ inner)
      simpa [differs, Panel.Held] using requested joined inner
    · simpa using @granted
    · simpa using answered
    · simpa using @waiting
    · simpa using @quiet
    · simpa [Secured] using @apart
  · refine ⟨⟨?_, ?_, ?_⟩, ⟨?_, ?_, ?_, ?_, ?_⟩, ?_⟩
    · simpa using @settled
    · simpa [Panel.Held] using @alone
    · simpa [Panel.Held, Fits] using @aligned
    · simpa [Panel.Held] using @requested
    · intro id passage mate way joined
      simpa [elsewhere way] using granted way joined
    · simpa using answered
    · simpa using @waiting
    · intro id passage mate way joined
      simpa [elsewhere way] using quiet way joined
    · simpa [Secured] using @apart

end Orderly

/-- The protocol is maintained and the turnouts stand as given. -/
structure Steady (layout : Layout) (stand : PieceId → Bool) (loose : Option SideId)
    (panel : Panel) : Prop where
  orderly : layout.Orderly loose panel
  stands : ∀ id, panel (.position id) = stand id

namespace Steady

variable {stand : PieceId → Bool}

/-- Shifts move no turnout. -/
theorem shift (steady : layout.Steady stand loose before) (sound : layout.Sound)
    (shift : layout.Shift loose before after) : layout.Steady stand loose after := by
  refine ⟨shift.orderly sound steady.orderly, ?_⟩
  intro id
  rw [← steady.stands id]
  cases shift <;> simp

theorem congr (steady : layout.Steady stand loose before) (alike : after.Alike before) :
    layout.Steady stand loose after :=
  ⟨steady.orderly.congr alike, fun id => (alike _ rfl).trans (steady.stands id)⟩

theorem loosen (steady : layout.Steady stand none before) : layout.Steady stand loose before :=
  ⟨steady.orderly.loosen, steady.stands⟩

theorem tighten (steady : layout.Steady stand loose before)
    (finished : ∀ side mate, loose = some side → layout.mate? side = some mate →
      before (.granted side) = false → before (.released side) = false) :
    layout.Steady stand none before :=
  ⟨steady.orderly.tighten finished, steady.stands⟩

end Steady

end Layout

end Interlocking

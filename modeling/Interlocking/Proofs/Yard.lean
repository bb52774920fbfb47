import Interlocking.Program.Basic
import Interlocking.Proofs.Declarations

/-!
# Yards

A yard is a layout together with the blocks, arbiters and schedules declared on it. It
comes about by orders, which are the operations that the library offers to the author of
a layout. An order that fails leaves behind what it did up to its failure, and the author
may go on after it.

An author may hand variables to the library only if no piece has allocated them for
itself. Under this condition every yard is sound, and all that arbiters and schedules
write are outside variables.
-/

namespace Interlocking

/-- Runs an action and goes on also if it fails. -/
def Scoped.attempt {α : Type} (action : Scoped α) : Scoped Unit := fun state =>
  match action state with
  | .ok _ state => .ok () state
  | .error _ state => .ok () state

/-- What an author names in a scope of their own. -/
inductive Allotment where
  | nothing
  | bit (name : String) (rest : Allotment)
  | scope (name : String) (count : UInt32) (inner rest : Allotment)
  deriving DecidableEq, Repr

/-- Names the variables of an allotment as far as there is room for them. -/
def Allotment.allocate : Allotment → Scoped Unit
  | .nothing => pure ()
  | .bit name rest => do
      (Scope.allocate name).attempt
      rest.allocate
  | .scope name count inner rest => do
      (Scope.within name count inner.allocate).attempt
      rest.allocate

theorem Scoped.attempt_hands {α : Type} {action : Scoped α} {handed : α → List Var → Prop}
    (hands : Scoped.Hands action handed) :
    Scoped.Hands action.attempt (fun _ vars => vars = []) := by
  intro scope table ordered
  have outcome := hands scope table ordered
  unfold Scoped.attempt
  cases run : action (scope, table) with
  | ok result state =>
      rw [run] at outcome
      obtain ⟨-, leaves, same⟩ := outcome
      exact ⟨⟨[], rfl, UInt32.le_iff_toNat_le.mp leaves.later⟩, leaves, same⟩
  | error failure state =>
      rw [run] at outcome
      obtain ⟨leaves, same⟩ := outcome
      exact ⟨⟨[], rfl, UInt32.le_iff_toNat_le.mp leaves.later⟩, leaves, same⟩

theorem Allotment.allocate_hands (allotment : Allotment) :
    Scoped.Hands allotment.allocate (fun _ vars => vars = []) := by
  induction allotment with
  | nothing => exact .pure rfl
  | bit name rest ih =>
      apply (Scoped.attempt_hands (Scope.allocate_hands name)).bind
      intro _ vars handed
      subst handed
      exact ih
  | scope name count inner rest inductionInner inductionRest =>
      apply (Scoped.attempt_hands (Scope.within_hands name count inductionInner)).bind
      intro _ vars handed
      subst handed
      exact inductionRest

theorem Allotment.allows_within (allotment : Allotment) {base layout : Layout}
    (kept : base.Keeps layout) (name : String) (count : UInt32) :
    Layout.Allows base layout (Layout.onTable (Table.within name count allotment.allocate)) := by
  have made := Table.within_outcome name count allotment.allocate_hands kept.sound.inBounds
  apply (Layout.onTable_outcome made).mono
  · intro _ after ⟨same, ⟨vars, _, ascends⟩, inBounds⟩
    exact kept.withTable same inBounds ascends.le
  · intro after ⟨same, inBounds, larger⟩
    exact (kept.withTable same inBounds larger).1

/-- An operation of the author. Blocks, clients, arbiters and schedules are meant by
their place among those declared so far. -/
inductive Order where
  | external (name : String)
  | scope (name : String) (count : UInt32) (inner : Allotment)
  | short (name : String)
  | long (name : String)
  | detector (name : String) (sensor : Var)
  | filtered (name : String) (raw : Var) (window : UInt8)
  | signal (name : String) (request aspect : Var)
  | endpoint (name : String)
  | fixedTurnout (name : String) (position : Position)
  | movableTurnout (name : String) (motor : Motor)
  | join (left right : SideId)
  | joinPairs (pairs : List (SideId × SideId))
  | joinRuns (runs : List Run)
  | block (name : String)
  | filteredBlock (name : String)
  | arbiter (name : String)
  | client (arbiter : Nat) (name : String)
  | schedule (name : String)
  | move (schedule source target : Nat) (guards : List (Var × Bool)) (client : Option Nat)
      (turnouts : List (Motor × Position))
  | stop (schedule block : Nat)
  | sensitive (schedule block : Nat) (value : Bool)
  deriving DecidableEq, Repr

/-- The variables that an author hands to the library with an order. -/
def Order.supplied : Order → List Var
  | .detector _ sensor => [sensor]
  | .filtered _ raw _ => [raw]
  | .signal _ request aspect => [request, aspect]
  | .movableTurnout _ motor => [motor.command, motor.current]
  | .move _ _ _ _ _ turnouts => turnouts.map fun (motor, _) => motor.command
  | _ => []

/-- What an order does that adds a single piece. -/
def Order.addition? : Order → Option (Build PieceId)
  | .short name => some (Layout.addShort name)
  | .long name => some (Layout.addLong name)
  | .detector name sensor => some (Layout.addDetector name sensor)
  | .filtered name raw window => some (Layout.addFiltered name raw window)
  | .signal name request aspect => some (Layout.addSignal name request aspect)
  | .endpoint name => some (Layout.addEndpoint name)
  | .fixedTurnout name position => some (Layout.addFixedTurnout name position)
  | .movableTurnout name motor => some (Layout.addMovableTurnout name motor)
  | _ => none

theorem Order.adds {order : Order} {action : Build PieceId} {given : Var → Prop}
    (addition : order.addition? = some action) (handed : ∀ var ∈ order.supplied, given var) :
    Build.Adds action given := by
  cases order with
  | short name =>
      cases addition
      exact Layout.adds_short name
  | long name =>
      cases addition
      exact Layout.adds_long name
  | detector name sensor =>
      cases addition
      exact Layout.adds_detector name (handed sensor (by simp [supplied]))
  | filtered name raw window =>
      cases addition
      exact Layout.adds_filtered name window (handed raw (by simp [supplied]))
  | signal name request aspect =>
      cases addition
      exact Layout.adds_signal name (handed request (by simp [supplied]))
        (handed aspect (by simp [supplied]))
  | endpoint name =>
      cases addition
      exact Layout.adds_endpoint name
  | fixedTurnout name position =>
      cases addition
      exact Layout.adds_fixedTurnout name position
  | movableTurnout name motor =>
      cases addition
      exact Layout.adds_movableTurnout name (handed motor.command (by simp [supplied]))
        (handed motor.current (by simp [supplied]))
  | _ => cases addition

/-- A layout and what was declared on it. A changed arbiter or schedule is listed behind
its earlier states, which stay available. -/
structure Yard where
  layout : Layout
  blocks : List Block := []
  clients : List Client := []
  arbiters : List Arbiter := []
  schedules : List Schedule := []
  deriving DecidableEq, Repr

namespace Yard

/-- A yard on which nothing was built yet. -/
def empty (config : Config) : Yard where
  layout := .empty config

/-- Builds on the layout and declares the result. -/
def build {α : Type} (yard : Yard) (action : Build α) (declare : α → Yard → Yard) : Yard :=
  match action yard.layout with
  | .ok result layout => declare result { yard with layout }
  | .error _ layout => { yard with layout }

/-- Works on the plan of a schedule. -/
def plan {α : Type} (yard : Yard) (schedule : Schedule) (action : Schedule.Planning α) : Yard :=
  match action (schedule, yard.layout) with
  | .ok _ (schedule, layout) | .error _ (schedule, layout) =>
      { yard with layout, schedules := yard.schedules ++ [schedule] }

/-- Carries an order out. An order for something that was not declared has no effect. -/
def perform (yard : Yard) : Order → Yard
  | .external name => yard.build (Layout.external name) fun _ yard => yard
  | .scope name count inner =>
      yard.build (Layout.onTable (Table.within name count inner.allocate)) fun _ yard => yard
  | .short name => yard.build (Layout.addShort name) fun _ yard => yard
  | .long name => yard.build (Layout.addLong name) fun _ yard => yard
  | .detector name sensor => yard.build (Layout.addDetector name sensor) fun _ yard => yard
  | .filtered name raw window =>
      yard.build (Layout.addFiltered name raw window) fun _ yard => yard
  | .signal name request aspect =>
      yard.build (Layout.addSignal name request aspect) fun _ yard => yard
  | .endpoint name => yard.build (Layout.addEndpoint name) fun _ yard => yard
  | .fixedTurnout name position =>
      yard.build (Layout.addFixedTurnout name position) fun _ yard => yard
  | .movableTurnout name motor =>
      yard.build (Layout.addMovableTurnout name motor) fun _ yard => yard
  | .join left right => yard.build (Layout.join left right) fun _ yard => yard
  | .joinPairs pairs => yard.build (Layout.joinPairs pairs) fun _ yard => yard
  | .joinRuns runs => yard.build (Layout.joinRuns runs) fun _ yard => yard
  | .block name => yard.build (Block.make name) declareBlock
  | .filteredBlock name => yard.build (Block.makeFiltered name) declareBlock
  | .arbiter name => { yard with arbiters := yard.arbiters ++ [{ name }] }
  | .client arbiter name =>
      match yard.arbiters[arbiter]? with
      | none => yard
      | some arbiter => yard.build (arbiter.allocateClient name) fun client yard =>
          { yard with
            clients := yard.clients ++ [client]
            arbiters := yard.arbiters ++ [arbiter.addClient client] }
  | .schedule name => yard.build (Schedule.make name) fun schedule yard =>
      { yard with schedules := yard.schedules ++ [schedule] }
  | .move schedule source target guards client turnouts =>
      match yard.schedules[schedule]?, yard.blocks[source]?, yard.blocks[target]? with
      | some schedule, some source, some target =>
          yard.plan schedule
            (Schedule.addMove source target guards (client >>= (yard.clients[·]?)) turnouts)
      | _, _, _ => yard
  | .stop schedule block =>
      match yard.schedules[schedule]?, yard.blocks[block]? with
      | some schedule, some block => yard.plan schedule (Schedule.stopAt block)
      | _, _ => yard
  | .sensitive schedule block value =>
      match yard.schedules[schedule]?, yard.blocks[block]? with
      | some schedule, some block => yard.plan schedule (Schedule.setSensitive block value)
      | _, _ => yard
where
  declareBlock (block : Block) (yard : Yard) : Yard :=
    { yard with blocks := yard.blocks ++ [block] }

theorem perform_addition (yard : Yard) {order : Order} {action : Build PieceId}
    (addition : order.addition? = some action) :
    yard.perform order = yard.build action fun _ yard => yard := by
  cases order <;> cases addition <;> rfl

/-- Carries orders out one after another. -/
def performAll (yard : Yard) : List Order → Yard
  | [] => yard
  | order :: orders => (yard.perform order).performAll orders

/-- With each order the author hands over outside variables only. -/
def Admits (yard : Yard) : List Order → Prop
  | [] => True
  | order :: orders =>
      (∀ var ∈ order.supplied, yard.layout.Outside var) ∧ (yard.perform order).Admits orders

instance decidableAdmits (yard : Yard) : (orders : List Order) → Decidable (yard.Admits orders)
  | [] => inferInstanceAs (Decidable True)
  | order :: orders =>
      have := decidableAdmits (yard.perform order) orders
      inferInstanceAs (Decidable (_ ∧ _))

/-- The automata that were declared besides those of the pieces. -/
def sources (yard : Yard) : List Source :=
  yard.arbiters.map Source.permission ++ yard.schedules.map Source.train

/-- The layout is sound, and what was declared on it writes outside variables only. -/
structure Sound (yard : Yard) : Prop where
  layout : yard.layout.Sound
  blocks : ∀ block ∈ yard.blocks, block.Fits yard.layout
  clients : ∀ client ∈ yard.clients, ∀ var ∈ client.vars, yard.layout.Outside var
  arbiters : ∀ arbiter ∈ yard.arbiters, ∀ var ∈ arbiter.outputs, yard.layout.Outside var
  schedules : ∀ schedule ∈ yard.schedules, schedule.Drives yard.layout

variable {yard : Yard}

theorem empty_sound (config : Config) : (empty config).Sound where
  layout := Layout.empty_sound config
  blocks := by simp [empty]
  clients := by simp [empty]
  arbiters := by simp [empty]
  schedules := by simp [empty]

/-- What was declared stays sound while the layout grows. -/
theorem Sound.withLayout (sound : yard.Sound) {after : Layout} (kept : yard.layout.Keeps after) :
    ({ yard with layout := after }).Sound where
  layout := kept.sound
  blocks := fun block member => (sound.blocks block member).grows kept.grows
  clients := fun client member var owned =>
    kept.grows.outside (sound.clients client member var owned)
  arbiters := fun arbiter member var written =>
    kept.grows.outside (sound.arbiters arbiter member var written)
  schedules := fun schedule member => (sound.schedules schedule member).grows kept.grows

theorem build_sound {α : Type} (sound : yard.Sound) {action : Build α}
    {declare : α → Yard → Yard} {made : α → Layout → Prop}
    (outcome : Outcome (action yard.layout)
      (fun result after => yard.layout.Keeps after ∧ made result after)
      (fun after => yard.layout.Keeps after))
    (declared : ∀ result after, ({ yard with layout := after }).Sound → made result after →
      (declare result { yard with layout := after }).Sound) :
    (yard.build action declare).Sound := by
  unfold build
  cases run : action yard.layout with
  | ok result after =>
      rw [run] at outcome
      exact declared result after (sound.withLayout outcome.1) outcome.2
  | error failure after =>
      rw [run] at outcome
      exact sound.withLayout outcome

/-- An operation that declares nothing. -/
theorem build_sound_of_allows {α : Type} (sound : yard.Sound) {action : Build α}
    (allows : Layout.Allows yard.layout yard.layout action) :
    (yard.build action fun _ yard => yard).Sound :=
  build_sound sound allows fun _ _ next _ => next

theorem Sound.declareSchedule (sound : yard.Sound) {schedule : Schedule}
    (drives : schedule.Drives yard.layout) :
    ({ yard with schedules := yard.schedules ++ [schedule] }).Sound := by
  refine ⟨sound.layout, sound.blocks, sound.clients, sound.arbiters, ?_⟩
  intro other member
  rcases List.mem_append.mp member with member | member
  · exact sound.schedules other member
  · exact List.mem_singleton.mp member ▸ drives

theorem plan_sound {α : Type} (sound : yard.Sound) {schedule : Schedule}
    {action : Schedule.Planning α}
    (outcome : Outcome (action (schedule, yard.layout))
      (fun _ state => yard.layout.Keeps state.2 ∧ state.1.Drives state.2)
      (fun state => yard.layout.Keeps state.2 ∧ state.1.Drives state.2)) :
    (yard.plan schedule action).Sound := by
  unfold plan
  cases run : action (schedule, yard.layout) with
  | ok result state =>
      rw [run] at outcome
      exact (sound.withLayout outcome.1).declareSchedule outcome.2
  | error failure state =>
      rw [run] at outcome
      exact (sound.withLayout outcome.1).declareSchedule outcome.2

theorem Sound.declareBlock (sound : yard.Sound) {block : Block}
    (fits : block.Fits yard.layout) : (perform.declareBlock block yard).Sound := by
  refine ⟨sound.layout, ?_, sound.clients, sound.arbiters, sound.schedules⟩
  intro other member
  rcases List.mem_append.mp member with member | member
  · exact sound.blocks other member
  · exact List.mem_singleton.mp member ▸ fits

theorem Sound.declareClient (sound : yard.Sound) {arbiter : Arbiter}
    (known : ∀ var ∈ arbiter.outputs, yard.layout.Outside var) {client : Client}
    (outside : ∀ var ∈ client.vars, yard.layout.Outside var) :
    ({ yard with
      clients := yard.clients ++ [client]
      arbiters := yard.arbiters ++ [arbiter.addClient client] }).Sound := by
  refine ⟨sound.layout, sound.blocks, ?_, ?_, sound.schedules⟩
  · intro other member
    rcases List.mem_append.mp member with member | member
    · exact sound.clients other member
    · exact List.mem_singleton.mp member ▸ outside
  · intro other member var written
    rcases List.mem_append.mp member with member | member
    · exact sound.arbiters other member var written
    · obtain rfl := List.mem_singleton.mp member
      simp only [Arbiter.outputs, Arbiter.addClient, List.flatMap_append, List.flatMap_singleton,
        List.mem_append] at written
      rcases written with written | written
      · exact known var written
      · exact outside var (List.mem_cons_of_mem _ written)

/-- Only what an author hands over has to be looked at: everything else that an order can
refer to was declared before. -/
theorem perform_sound (sound : yard.Sound) {order : Order}
    (outside : ∀ var ∈ order.supplied, yard.layout.Outside var) : (yard.perform order).Sound := by
  have kept : yard.layout.Keeps yard.layout := ⟨sound.layout, .refl yard.layout⟩
  cases addition : order.addition? with
  | some action =>
      rw [yard.perform_addition addition]
      exact build_sound_of_allows sound (Layout.allows_addition kept (order.adds addition outside))
  | none =>
  cases order with
  | short | long | detector | filtered | signal | endpoint | fixedTurnout | movableTurnout =>
      cases addition
  | external name =>
      apply build_sound_of_allows sound
      apply (Layout.external_outcome kept name).mono
      · intro var after ⟨keptAfter, grows, _⟩
        exact ⟨keptAfter, grows⟩
      · intro after keptAfter
        exact keptAfter
  | scope name count inner =>
      exact build_sound_of_allows sound (inner.allows_within kept name count)
  | join left right => exact build_sound_of_allows sound (Layout.allows_join kept left right)
  | joinPairs pairs => exact build_sound_of_allows sound (Layout.allows_joinPairs kept pairs)
  | joinRuns runs => exact build_sound_of_allows sound (Layout.allows_joinRuns kept runs)
  | block name =>
      apply build_sound sound (Block.make_outcome kept name)
      intro block after next fits
      exact next.declareBlock fits
  | filteredBlock name =>
      apply build_sound sound (Block.makeFiltered_outcome kept name)
      intro block after next fits
      exact next.declareBlock fits
  | arbiter name =>
      refine ⟨sound.layout, sound.blocks, sound.clients, ?_, sound.schedules⟩
      intro arbiter member var written
      rcases List.mem_append.mp member with member | member
      · exact sound.arbiters arbiter member var written
      · obtain rfl := List.mem_singleton.mp member
        cases written
  | client index name =>
      simp only [perform]
      cases found : yard.arbiters[index]? with
      | none => exact sound
      | some arbiter =>
          have member := List.mem_of_getElem? found
          apply build_sound sound (arbiter.allocateClient_outcome kept name)
          intro client after next bits
          exact next.declareClient (next.arbiters arbiter member) bits
  | schedule name =>
      simp only [perform]
      apply build_sound sound (Schedule.make_outcome kept name)
      intro schedule after next drives
      exact next.declareSchedule drives
  | move index source target guards client turnouts =>
      simp only [perform]
      split
      · rename_i schedule sourceBlock targetBlock foundSchedule foundSource foundTarget
        apply plan_sound sound
        apply Schedule.addMove_outcome kept
        · exact sound.schedules schedule (List.mem_of_getElem? foundSchedule)
        · exact (sound.blocks _ (List.mem_of_getElem? foundSource)).request
        · exact (sound.blocks _ (List.mem_of_getElem? foundTarget)).request
        · intro var member
          obtain ⟨known, chosen, owned⟩ := List.mem_flatMap.mp member
          obtain ⟨place, _, found⟩ := Option.bind_eq_some_iff.mp (Option.mem_toList.mp chosen)
          exact sound.clients known (List.mem_of_getElem? found) var owned
        · intro entry member
          exact outside _ (List.mem_map.mpr ⟨entry, member, rfl⟩)
      · exact sound
  | stop index place =>
      simp only [perform]
      split
      · rename_i schedule block foundSchedule foundBlock
        have drives := sound.schedules schedule (List.mem_of_getElem? foundSchedule)
        have request := (sound.blocks block (List.mem_of_getElem? foundBlock)).request
        exact plan_sound sound (Schedule.stopAt_outcome kept drives request)
      · exact sound
  | sensitive index place value =>
      simp only [perform]
      split
      · rename_i schedule block foundSchedule foundBlock
        have drives := sound.schedules schedule (List.mem_of_getElem? foundSchedule)
        have request := (sound.blocks block (List.mem_of_getElem? foundBlock)).request
        exact plan_sound sound (Schedule.setSensitive_outcome kept drives request value)
      · exact sound

/-- Every yard that an author can build is sound. -/
theorem performAll_sound (sound : yard.Sound) {orders : List Order}
    (admitted : yard.Admits orders) : (yard.performAll orders).Sound := by
  induction orders generalizing yard with
  | nil => exact sound
  | cons order orders ih => exact ih (perform_sound sound admitted.1) admitted.2

end Yard

end Interlocking

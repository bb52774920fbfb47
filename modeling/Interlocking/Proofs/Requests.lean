import Interlocking.Proofs.Aspect
import Interlocking.Proofs.Debouncing
import Interlocking.Proofs.Ownership

/-!
# One train for each request

A signal that is asked to show proceed asks for the route behind it, gets it and gives it up when
the train has passed. Then it remembers that the request was used, and as long as it finds the
request in its turns it does not begin anew. How far the signal is, three bits of its own tell, and
every rule of the signal takes them a step further or leaves them alone.
-/

namespace Interlocking

open Function (update)

/-- How far a signal is with its own passage. -/
structure Progress where
  pending : Bool
  reserved : Bool
  used : Bool

namespace Progress

/-- The signal has begun nothing. -/
def Rests (progress : Progress) : Prop :=
  progress.pending = false ∧ progress.reserved = false ∧ progress.used = false

/-- What a rule can make of the progress of a signal that is asked to show proceed or not. -/
inductive Moves (wanted : Bool) (progress next : Progress) : Prop where
  | stay (after : next = progress)
  | ask (asked : wanted = true) (rests : progress.Rests)
      (after : next = { progress with pending := true })
  | take (asked : wanted = true) (rests : progress.Rests)
      (after : next = { progress with reserved := true })
  | confirm (waits : progress.pending = true)
      (after : next = { progress with pending := false, reserved := true })
  | abandon (after : next = { progress with pending := false })
  | passed (holds : progress.reserved = true)
      (after : next = { progress with reserved := false, used := true })
  | giveBack (after : next = { progress with reserved := false })
  | forget (unasked : wanted = false) (after : next = { progress with used := false })

/-- The signal waits for its route, has it, or has used it, but never two of these. -/
structure Single (progress : Progress) : Prop where
  waits : progress.pending = true → progress.reserved = false ∧ progress.used = false
  holds : progress.reserved = true → progress.used = false

/-- The signal neither has its route nor waits for it, and if it is asked to show proceed the
request was used. -/
structure Spent (wanted : Bool) (progress : Progress) : Prop where
  idle : progress.pending = false
  free : progress.reserved = false
  used : wanted = true → progress.used = true

variable {wanted : Bool} {progress next : Progress}

theorem Moves.single (moves : Moves wanted progress next) (single : progress.Single) :
    next.Single := by
  obtain ⟨waits, holds⟩ := single
  cases moves with
  | stay after => exact after ▸ ⟨waits, holds⟩
  | ask _ rests after => exact after ▸ ⟨fun _ => rests.2, fun _ => rests.2.2⟩
  | take _ rests after =>
      subst after
      exact ⟨fun pending => absurd (pending.symm.trans rests.1) (by simp), fun _ => rests.2.2⟩
  | confirm pending after => exact after ▸ ⟨by simp, fun _ => (waits pending).2⟩
  | abandon after => exact after ▸ ⟨by simp, holds⟩
  | passed reserved after =>
      subst after
      refine ⟨fun pending => absurd ((waits pending).1.symm.trans reserved) (by simp), by simp⟩
  | giveBack after => exact after ▸ ⟨fun pending => ⟨rfl, (waits pending).2⟩, by simp⟩
  | forget _ after => exact after ▸ ⟨fun pending => ⟨(waits pending).1, rfl⟩, fun _ => rfl⟩

theorem Moves.spent (moves : Moves wanted progress next) (spent : progress.Spent wanted) :
    next.Spent wanted := by
  obtain ⟨idle, free, used⟩ := spent
  cases moves with
  | stay after => exact after ▸ ⟨idle, free, used⟩
  | ask asked rests | take asked rests => cases rests.2.2.symm.trans (used asked)
  | confirm pending => cases idle.symm.trans pending
  | abandon after => exact after ▸ ⟨rfl, free, used⟩
  | passed reserved => cases free.symm.trans reserved
  | giveBack after => exact after ▸ ⟨idle, rfl, used⟩
  | forget unasked after =>
      subst after
      exact ⟨idle, free, fun asked => absurd (unasked.symm.trans asked) (by simp)⟩

end Progress

namespace Straight

/-- How far the signal is. -/
def progress (straight : Straight) (used : Var) (view : View) : Progress :=
  ⟨view.bits straight.ab.pending, view.bits straight.ab.route, view.bits used⟩

/-- The rule by which a signal gives its route up after the train has passed: it has the route, the
train was seen behind it, and its own piece is free. -/
def passedRule (straight : Straight) (occupancy used : Var) (outlet : Option Outlet) : Rule where
  conditions := [.on straight.ab.route, .on straight.seen, .off occupancy]
  actions := .raise used :: straight.originRelease outlet

/-- The bits that tell how far the signal is. -/
def traces (straight : Straight) (used : Var) : List Var :=
  [straight.ab.pending, straight.ab.route, used]

/-- All bits that the rules for the own passage of a signal are about. -/
def scene (straight : Straight) (request used : Var) (outlet : Option Outlet) : List Var :=
  request :: straight.traces used ++ straight.seen ::
    outlet.toList.flatMap fun out => [out.bits.request, out.bits.released]

/-- The request stays as it is, and the signal moves on. -/
structure Advances (straight : Straight) (request used : Var) (view next : View) : Prop where
  asked : next.bits request = view.bits request
  moves : Progress.Moves (view.bits request) (straight.progress used view)
    (straight.progress used next)

/-- The request has this value, and the progress is of this kind. -/
structure Stands (straight : Straight) (request used : Var) (wanted : Bool) (kind : Progress → Prop)
    (view : View) : Prop where
  asked : view.bits request = wanted
  stands : kind (straight.progress used view)

variable {straight : Straight} {occupancy request used : Var} {outlet : Option Outlet}
  {view next : View}

theorem Advances.stands {wanted : Bool} {kind : Progress → Prop}
    (advances : straight.Advances request used view next)
    (moves : ∀ {progress after}, Progress.Moves wanted progress after → kind progress → kind after)
    (stands : straight.Stands request used wanted kind view) :
    straight.Stands request used wanted kind next := by
  obtain ⟨rfl, stands⟩ := stands
  exact ⟨advances.asked, moves advances.moves stands⟩

theorem progress_congr (same : ∀ var ∈ straight.traces used, next.bits var = view.bits var) :
    straight.progress used next = straight.progress used view := by
  simp only [traces, List.forall_mem_cons] at same
  simp [progress, same]

theorem looksAt_traces (kind : Progress → Prop) :
    View.LooksAt (straight.traces used) fun view => kind (straight.progress used view) := by
  intro view next _ _ same holds
  exact progress_congr same ▸ holds

/-- The timer is not looked at. -/
theorem Stands.tick {wanted : Bool} {kind : Progress → Prop}
    (stands : straight.Stands request used wanted kind view) :
    straight.Stands request used wanted kind view.tick := by
  have same : straight.progress used view.tick = straight.progress used view :=
    progress_congr fun _ _ => by rw [View.bits_tick]
  exact ⟨by rw [View.bits_tick, stands.asked], same ▸ stands.stands⟩

/-- Actions that write none of these bits change nothing about them. -/
theorem advances_of_apart {actions : List Action}
    (apart : ∀ var ∈ actions.filterMap Action.var?, var ∉ request :: straight.traces used) :
    straight.Advances request used view (view.carry actions) := by
  have kept : ∀ var ∈ request :: straight.traces used,
      (view.carry actions).bits var = view.bits var :=
    fun var listed => View.bits_carry fun written => apart var written listed
  obtain ⟨asked, same⟩ := List.forall_mem_cons.mp kept
  exact ⟨asked, .stay (progress_congr same)⟩

section Own

variable (apart : (straight.scene request used outlet).Pairwise fun one other =>
  one ≠ other ∧ other ≠ one)

include apart

theorem advances_originRules : ∀ rule ∈ straight.originRules request used outlet, ∀ view : View,
    view.Enables rule → straight.Advances request used view (view.carry rule.actions) := by
  cases outlet with
  | none =>
      simp only [scene, traces, Option.toList_none, List.flatMap_nil, List.cons_append,
        List.nil_append, List.pairwise_cons, List.forall_mem_cons] at apart
      simp only [Lane.originRules, Lane.originAllowed, List.forall_mem_cons, View.Enables, View.Meets]
      refine ⟨?_, by simp⟩
      rintro view ⟨wanted, free, idle, unused, -⟩
      exact ⟨by simp [apart], .take wanted ⟨idle, free, unused⟩ (by simp [progress, apart])⟩
  | some out =>
      simp only [scene, traces, Option.toList_some, List.flatMap_cons, List.flatMap_nil,
        List.append_nil, List.cons_append, List.nil_append, List.pairwise_cons,
        List.forall_mem_cons] at apart
      simp only [Lane.originRules, Lane.originAllowed, List.cons_append, List.forall_mem_cons, View.Enables,
        View.Meets]
      refine ⟨?_, ?_, ?_, by simp⟩
      · rintro view ⟨wanted, free, idle, unused, -⟩
        exact ⟨by simp [apart], .ask wanted ⟨idle, free, unused⟩ (by simp [progress, apart])⟩
      · rintro view ⟨waits, -⟩
        exact ⟨by simp [apart], .confirm waits (by simp [progress, apart])⟩
      · rintro view -
        exact ⟨by simp [apart], .abandon (by simp [progress, apart])⟩

/-- Giving the route up concerns no other of the bits. -/
theorem bits_originRelease (view : View) :
    (view.carry (straight.originRelease outlet)).bits request = view.bits request ∧
      straight.progress used (view.carry (straight.originRelease outlet)) =
        { straight.progress used view with reserved := false } := by
  cases outlet with
  | none =>
      simp only [scene, traces, Option.toList_none, List.flatMap_nil, List.cons_append,
        List.nil_append, List.pairwise_cons, List.forall_mem_cons] at apart
      simp [Lane.originRelease, progress, apart]
  | some out =>
      simp only [scene, traces, Option.toList_some, List.flatMap_cons, List.flatMap_nil,
        List.append_nil, List.cons_append, List.nil_append, List.pairwise_cons,
        List.forall_mem_cons] at apart
      simp [Lane.originRelease, progress, apart]

/-- After a train has passed, the signal remembers that its request was used. -/
theorem progress_passedRule (occupancy : Var) (view : View) :
    (view.carry (straight.passedRule occupancy used outlet).actions).bits request =
        view.bits request ∧
      straight.progress used (view.carry (straight.passedRule occupancy used outlet).actions) =
        { straight.progress used view with reserved := false, used := true } := by
  obtain ⟨asked, after⟩ := bits_originRelease apart (view.act (.raise used))
  simp only [scene, traces, List.cons_append, List.nil_append, List.pairwise_cons,
    List.forall_mem_cons] at apart
  refine ⟨asked.trans (by simp [apart]), after.trans ?_⟩
  simp [progress, apart]

theorem advances_originReleaseRules :
    ∀ rule ∈ straight.originReleaseRules occupancy request used outlet, ∀ view : View,
      view.Enables rule → straight.Advances request used view (view.carry rule.actions) := by
  have passed := progress_passedRule apart occupancy
  have released := bits_originRelease apart
  simp only [scene, traces, List.cons_append, List.nil_append, List.pairwise_cons,
    List.forall_mem_cons] at apart
  simp only [originReleaseRules, List.forall_mem_cons, View.Enables, View.Meets]
  refine ⟨?_, ?_, ?_, by simp⟩
  · rintro view ⟨reserved, -⟩
    exact ⟨(passed view).1, .passed reserved (passed view).2⟩
  · rintro view -
    exact ⟨(released view).1, .giveBack (released view).2⟩
  · rintro view ⟨-, unwanted, -⟩
    exact ⟨by simp [apart], .forget unwanted (by simp [progress, apart])⟩

end Own

end Straight

/-- Bits of this role belong to a piece, but do not tell how far the piece is with the passage. -/
def Role.Remote (id : PieceId) (passage : Passage) : Role → Prop
  | .route other | .pending other => other ≠ passage
  | .helper other => other ≠ id
  | .outside _ => False
  | _ => True

namespace Layout

variable {layout : Layout} {id : PieceId} {passage other : Passage} {rules : List Rule}

/-- The rules write nothing that tells how far the piece is with the passage, and no outside
variable. -/
def Omits (layout : Layout) (id : PieceId) (passage : Passage) (rules : List Rule) : Prop :=
  ∀ rule ∈ rules, Alters (fun var => (layout.role var).Remote id passage) rule.actions

theorem Omits.append {others : List Rule} (left : layout.Omits id passage rules)
    (right : layout.Omits id passage others) : layout.Omits id passage (rules ++ others) :=
  List.forall_mem_append.mpr ⟨left, right⟩

theorem Replies.omits {inlet : Handshake} {asker : SideId} (replies : Replies inlet rules)
    (wired : layout.Wired inlet asker) : layout.Omits id passage rules := by
  intro rule member
  obtain ⟨_, _, _, granted | denied⟩ := replies rule member
  · simp [granted, wired.granted, Role.Remote]
  · simp [denied, wired.denied, Role.Remote]

theorem Wired.omits_answerResetRules {inlet : Handshake} {asker : SideId}
    (wired : layout.Wired inlet asker) : layout.Omits id passage (answerResetRules inlet) := by
  simp [Omits, answerResetRules, wired.granted, wired.denied, Role.Remote]

theorem Describes.omits_tracking {piece : Piece} {site : Site}
    (describes : layout.Describes id piece site) (unsimulated : site.simulated = false) :
    layout.Omits id passage (site.seenRules layout ++ site.clearRules) := by
  apply Omits.append
  · intro rule member
    obtain ⟨way, _, made⟩ := List.mem_filterMap.mp member
    obtain ⟨next, _, rfl⟩ := Option.map_eq_some_iff.mp made
    simp [unsimulated, describes.seen, Role.Remote]
  · simp [Omits, Site.clearRules, unsimulated, describes.seen, Role.Remote]

section Sound

variable (sound : layout.Sound)

include sound

theorem Sound.omits_releaseDoneRules (exit : SideId) :
    layout.Omits id passage (releaseDoneRules (layout.outlet? exit)) := by
  cases known : layout.outlet? exit with
  | none => simp [Omits, releaseDoneRules]
  | some outlet =>
      simp [Omits, releaseDoneRules, (sound.outlet known).released, Role.Remote]

theorem Serves.omits_handshakeRules {piece : Piece} {site : Site} {index : Nat} {inlet : Handshake}
    {asker : SideId} (serves : layout.Serves id piece site index other inlet asker)
    (different : other ≠ passage) (unsimulated : site.simulated = false) :
    layout.Omits id passage (site.handshakeRules index other inlet (layout.outlet? other.exit)) := by
  have route := sound.role_route serves.way
  have pending := sound.role_pending serves.way
  have released : Alters (fun var => (layout.role var).Remote id passage)
      (site.releaseActions other (layout.outlet? other.exit)) := by
    cases known : layout.outlet? other.exit with
    | none =>
        simp [Site.releaseActions, unsimulated, route, serves.describes.seen, Role.Remote, different]
    | some outlet =>
        simp [Site.releaseActions, unsimulated, route, serves.describes.seen, Role.Remote, different,
          (sound.outlet known).request, (sound.outlet known).released]
  rw [Site.handshakeRules_eq, Site.workRules]
  refine .append (.append (.append (.append ?_ ?_) ?_) (.append ?_ ?_)) ?_
  · exact (denyRules_replies site index other inlet).omits serves.wired
  · cases known : layout.outlet? other.exit with
    | none => simp [Omits, Site.acceptRules, route, serves.wired.granted, Role.Remote, different]
    | some outlet =>
        simp [Omits, Site.acceptRules, route, pending, serves.wired.granted, serves.wired.denied,
          (sound.outlet known).request, Role.Remote, different]
  · exact serves.wired.omits_answerResetRules
  · intro rule member
    obtain ⟨freed, rfl⟩ := Site.mem_passedRules member
    exact released
  · exact List.forall_mem_singleton.mpr released
  · exact sound.omits_releaseDoneRules other.exit

end Sound

section Signals

variable {name : String} {occupancy request aspect used : Var} {straight : Straight}
  (sound : layout.Sound)
  (found : layout.piece? id = some { name, occupancy, body := .straight straight })
  (kind : straight.kind = .signal request aspect used)

include sound found kind

/-- What the bits of a signal are for. -/
theorem Sound.roles_of_signal : layout.role request = .outside request ∧
    layout.role straight.ab.pending = .pending straight.ab ∧
    layout.role straight.ab.route = .route straight.ab ∧ layout.role used = .helper id := by
  have way : layout.Way id straight.ab := ⟨_, found, by simp [Piece.passages]⟩
  have given : request ∈ ({ name, occupancy, body := .straight straight } : Piece).supplied := by
    obtain ⟨⟨seen, ab, ba⟩, _, a, b⟩ := straight
    subst kind
    simp [Piece.supplied]
  exact ⟨role_of_outside (sound.supplied found request given), sound.role_pending way,
    sound.role_route way, sound.role_helper found (straight_of_signal kind).1⟩

/-- Rules that are not about the own passage of a signal leave its progress as it is. -/
theorem Sound.advances_of_omits (omits : layout.Omits id straight.ab rules) :
    ∀ rule ∈ rules, ∀ view : View,
      straight.Advances request used view (view.carry rule.actions) := by
  obtain ⟨asked, pending, route, helper⟩ := sound.roles_of_signal found kind
  intro rule member view
  apply Straight.advances_of_apart
  intro var written listed
  have remote : (layout.role var).Remote id straight.ab := omits rule member var written
  simp only [Straight.traces, List.mem_cons, List.not_mem_nil, or_false] at listed
  rcases listed with rfl | rfl | rfl | rfl
  · rw [asked] at remote
    exact remote
  · rw [pending] at remote
    exact remote rfl
  · rw [route] at remote
    exact remote rfl
  · rw [helper] at remote
    exact remote rfl

omit sound found in
theorem mem_roles_of_traces (id : PieceId) : ∀ var ∈ straight.traces used, ∃ role,
    (role, var) ∈ ({ name, occupancy, body := .straight straight } : Piece).roles id := by
  have helper : Piece.helper? { name, occupancy, body := .straight straight } = some used :=
    (straight_of_signal kind).1
  simp only [Straight.traces, List.forall_mem_cons]
  refine ⟨⟨.pending straight.ab, ?_⟩, ⟨.route straight.ab, ?_⟩, ⟨.helper id, ?_⟩, by simp⟩
  · simp [Piece.roles, Piece.passages, Passage.roles]
  · simp [Piece.roles, Piece.passages, Passage.roles]
  · simp [Piece.roles, helper]

/-- No two of the bits are the same. -/
theorem Sound.scene_apart (exit : SideId) :
    (straight.scene request used (layout.outlet? exit)).Pairwise fun one other =>
      one ≠ other ∧ other ≠ one := by
  obtain ⟨asked, pending, route, helper⟩ := sound.roles_of_signal found kind
  have seen : layout.role straight.seen = .seen id := sound.role_seen found rfl
  have distinct : (straight.scene request used (layout.outlet? exit)).Nodup := by
    apply List.Nodup.of_map layout.role
    cases known : layout.outlet? exit with
    | none => simp [Straight.scene, Straight.traces, asked, pending, route, helper, seen]
    | some outlet =>
        simp [Straight.scene, Straight.traces, asked, pending, route, helper, seen,
          (sound.outlet known).request, (sound.outlet known).released]
  exact distinct.imp fun different => ⟨different, different.symm⟩

/-- Whatever a signal does in its duties, it moves on or stays. -/
theorem Task.advances {duty : Duty} (task : layout.Task id duty) :
    ∀ rule ∈ duty.rules, ∀ view : View, view.Enables rule →
      straight.Advances request used view (view.carry rule.actions) := by
  have stays {rules : List Rule} (omits : layout.Omits id straight.ab rules) :
      ∀ rule ∈ rules, ∀ view : View, view.Enables rule →
        straight.Advances request used view (view.carry rule.actions) :=
    fun rule member view _ => sound.advances_of_omits found kind omits rule member view
  cases task with
  | rest => simp
  | negotiate serves =>
      obtain rfl := Option.some.inj (found.symm.trans serves.found)
      have back := serves.asked
      rw [(straight_of_signal kind).2.1] at back
      obtain rfl := List.mem_singleton.mp back
      obtain ⟨differ, out, back⟩ := sound.straight_courses found
      refine stays (serves.omits_handshakeRules sound ?_ ?_)
      · intro same
        have enters : straight.ba.entry = straight.ab.entry := congrArg Passage.entry same
        exact differ ((congrArg Course.entry out).symm.trans
          (enters.symm.trans (congrArg Course.entry back)))
      · rw [serves.describes.simulated]
        obtain ⟨⟨seen, ab, ba⟩, _, a, b⟩ := straight
        subst kind
        rfl
  | originate known same =>
      cases Option.some.inj (found.symm.trans known)
      cases kind.symm.trans same
      have apart := sound.scene_apart found kind straight.ab.exit
      rw [Straight.signalRouteRules_eq]
      refine List.forall_mem_append.mpr ⟨List.forall_mem_append.mpr ⟨?_, ?_⟩, ?_⟩
      · exact Straight.advances_originRules apart
      · exact Straight.advances_originReleaseRules apart
      · exact stays (sound.omits_releaseDoneRules _)
  | answer given =>
      exact stays (.append (given.replies.omits given.wired) given.wired.omits_answerResetRules)

omit kind in
theorem Sound.omits_copyRules
    (unsensed : Piece.sensed { name, occupancy, body := .straight straight } = false)
    (approaching : Var) : layout.Omits id passage (copyRules approaching occupancy) := by
  have own : layout.role occupancy = .occupancy id := sound.role_occupancy found unsensed
  simp [Omits, copyRules, own, Role.Remote]

/-- The same is true of all that a signal does before it decides on its aspect. -/
theorem Sound.advances_of_signal {piece : Piece}
    (same : piece = { name, occupancy, body := .straight straight }) :
    ∀ rule ∈ piece.tracking layout ++ (piece.duties layout).flatMap Duty.rules, ∀ view : View,
      view.Enables rule → straight.Advances request used view (view.carry rule.actions) := by
  have unsimulated : (straight.site occupancy).simulated = false := by
    simp [Straight.site, Straight.simulated, kind]
  have unsensed : Piece.sensed { name, occupancy, body := .straight straight } = false := by
    obtain ⟨⟨seen, ab, ba⟩, _, a, b⟩ := straight
    subst kind
    rfl
  subst same
  refine List.forall_mem_append.mpr ⟨?_, ?_⟩
  · have omits : layout.Omits id straight.ab
        (({ name, occupancy, body := .straight straight } : Piece).tracking layout) := by
      simp only [Piece.tracking, kind]
      refine .append ?_ ((sound.describes_straight found).omits_tracking unsimulated)
      cases layout.neighbourOccupancy? straight.a with
      | none => simp [Omits]
      | some approaching => exact sound.omits_copyRules found unsensed approaching
    exact fun rule member view _ => sound.advances_of_omits found kind omits rule member view
  · intro rule member
    obtain ⟨duty, listed, member⟩ := List.mem_flatMap.mp member
    exact (sound.task found duty listed).advances sound found kind rule member

/-- A turn of a signal: what it does before it decides on its aspect, and the decision. -/
theorem Sound.rules_of_signal :
    ∃ front, (({ name, occupancy, body := .straight straight } : Piece).automaton layout).rules =
        front ++ (straight.aspectRules request aspect (layout.neighbourOccupancy? straight.b) ++
          [RuleBook.startRule]) ∧
      ∀ rule ∈ front, ∀ view : View, view.Enables rule →
        straight.Advances request used view (view.carry rule.actions) := by
  refine ⟨_, ?_, sound.advances_of_signal found kind rfl⟩
  rw [Piece.rules_automaton, summary_of_signal kind]

theorem Sound.ne_aspect : ∀ var ∈ straight.traces used, var ≠ aspect := by
  obtain ⟨-, pending, route, helper⟩ := sound.roles_of_signal found kind
  have shown := role_of_outside (sound.supplied found aspect (straight_of_signal kind).2.2)
  have differs {var : Var} {role : Role} (known : layout.role var = role)
      (inside : role ≠ .outside aspect) : var ≠ aspect := by
    rintro rfl
    exact inside (known.symm.trans shown)
  simp only [Straight.traces, List.forall_mem_cons]
  exact ⟨differs pending (by simp), differs route (by simp), differs helper (by simp), by simp⟩

/-- The decision on the aspect leaves the progress, and without a route it is stop. -/
theorem Sound.decision_of_signal (next : Option Var) {view after : View}
    (passed : after =
      view.pass (straight.aspectRules request aspect next ++ [RuleBook.startRule])) :
    straight.progress used after = straight.progress used view ∧
      (view.bits straight.ab.route = false → after.bits aspect = false) := by
  have apart := sound.ne_aspect found kind
  subst passed
  refine ⟨Straight.progress_congr fun var listed => View.bits_pass fun rule member written => ?_,
    Straight.aspect_eq_false_of_summary (apart _ (by simp [Straight.traces]))⟩
  exact apart var listed (Straight.writes_summary rule member var written)

section Turns

variable {view after : View} (passed : after =
  view.tick.pass (({ name, occupancy, body := .straight straight } : Piece).automaton layout).rules)

include passed

theorem Sound.single_turn (single : (straight.progress used view).Single) :
    (straight.progress used after).Single := by
  obtain ⟨front, rules, advances⟩ := sound.rules_of_signal found kind
  rw [rules, View.pass_append] at passed
  rw [(sound.decision_of_signal found kind _ passed).1]
  refine Straight.Stands.stands (View.pass_induct (motive := straight.Stands request used
    (view.bits request) Progress.Single) ?_ (Straight.Stands.tick ⟨rfl, single⟩))
  intro rule member view stands enabled
  exact (advances rule member view enabled).stands Progress.Moves.single stands

/-- A signal does not begin anew with a request that was used. -/
theorem Sound.spent_turn (spent : (straight.progress used view).Spent (view.bits request)) :
    (straight.progress used after).Spent (view.bits request) ∧ after.bits aspect = false := by
  obtain ⟨front, rules, advances⟩ := sound.rules_of_signal found kind
  rw [rules, View.pass_append] at passed
  obtain ⟨same, stop⟩ := sound.decision_of_signal found kind _ passed
  have stands : straight.Stands request used (view.bits request) (Progress.Spent (view.bits request))
      (view.tick.pass front) := by
    refine View.pass_induct (fun rule member view stands enabled => ?_)
      (Straight.Stands.tick ⟨rfl, spent⟩)
    exact (advances rule member view enabled).stands Progress.Moves.spent stands
  exact ⟨same ▸ stands.stands, stop stands.stands.free⟩

/-- In the turn in which its route is given up after a train, the request of a signal is used. -/
theorem Sound.passed_turn (single : (straight.progress used view).Single)
    (fires : View.Fires (· = straight.passedRule occupancy used (layout.outlet? straight.ab.exit))
      (({ name, occupancy, body := .straight straight } : Piece).automaton layout).rules view.tick) :
    (straight.progress used after).Spent (view.bits request) ∧ after.bits aspect = false := by
  obtain ⟨front, rules, advances⟩ := sound.rules_of_signal found kind
  have apart := sound.scene_apart found kind straight.ab.exit
  rw [rules, View.pass_append] at passed
  rw [rules, View.fires_append] at fires
  obtain ⟨same, stop⟩ := sound.decision_of_signal found kind _ passed
  -- The decision on the aspect writes nothing else, so the rule stands before it.
  have early := fires.resolve_right <| by
    refine View.not_fires (motive := fun _ => True) (fun _ _ _ _ _ => trivial) ?_ trivial
    rintro _ member _ _ rfl
    have same := Straight.writes_summary _ member used
      (by simp [Straight.passedRule, Rule.writes, Action.var?])
    exact absurd same (sound.ne_aspect found kind used (by simp [Straight.traces]))
  have stands := early.pass (straight.Stands request used (view.bits request) Progress.Single)
    (straight.Stands request used (view.bits request) (Progress.Spent (view.bits request)))
    (Straight.Stands.tick ⟨rfl, single⟩)
    (fun rule member view stands enabled =>
      (advances rule member view enabled).stands Progress.Moves.single stands)
    ?_
    (fun rule member view stands enabled =>
      (advances rule member view enabled).stands Progress.Moves.spent stands)
  · exact ⟨same ▸ stands.stands, stop stands.stands.free⟩
  · rintro rule member next rfl ⟨asked, single⟩ enabled
    obtain ⟨kept, after⟩ := Straight.progress_passedRule apart occupancy next
    have reserved : (straight.progress used next).reserved = true :=
      enabled (.on straight.ab.route) List.mem_cons_self
    have idle : (straight.progress used next).pending = false := by
      by_contra pending
      cases (single.waits (by simpa using pending)).1.symm.trans reserved
    exact ⟨kept.trans asked, after ▸ ⟨idle, rfl, fun _ => rfl⟩⟩

end Turns

end Signals

end Layout

theorem View.looksAt_bit (var : Var) (value : Bool) :
    View.LooksAt [var] fun view => view.bits var = value := by
  intro view next _ _ same holds
  exact (same var List.mem_cons_self).trans holds

theorem Machine.play_cons_eq_ok {machine last : Machine} {event : Event} {events : List Event}
    (played : machine.play (event :: events) = .ok last) :
    ∃ next, machine.react event = .ok next ∧ next.play events = .ok last :=
  foldlM_cons_eq_ok.mp played

theorem Program.Entrusts.of_subset {program : Program} {index : Nat} {vars : List Var}
    {events fewer : List Event} (entrusts : program.Entrusts index vars events)
    (subset : ∀ event ∈ fewer, event ∈ events) : program.Entrusts index vars fewer where
  others := entrusts.others
  writes var listed value written := entrusts.writes var listed value (subset _ written)

theorem Program.Sees.mono {program : Program} {index : Nat} {kind other : View → Prop}
    {machine : Machine} (sees : program.Sees index kind machine)
    (weaker : ∀ {view}, kind view → other view) : program.Sees index other machine := by
  obtain ⟨cell, here, holds⟩ := sees.sees
  exact ⟨sees.automata, sees.size, cell, here, weaker holds⟩

/-- The rule is carried out in the turn of the automaton at the place. -/
def Machine.Fires (machine : Machine) (index : Nat) (rule : Rule) : Prop :=
  ∃ cell ∈ machine.cells[index]?,
    View.Fires (· = rule) cell.automaton.rules (cell.view machine.memory).tick

instance (machine : Machine) (index : Nat) : DecidablePred (machine.Fires index) := fun rule =>
  inferInstanceAs (Decidable (∃ cell ∈ machine.cells[index]?,
    View.Fires (· = rule) cell.automaton.rules (cell.view machine.memory).tick))

namespace Operation

variable (operation : Operation) {id : PieceId} {name : String}
  {occupancy request aspect used : Var} {straight : Straight}
  (found : operation.layout.piece? id = some { name, occupancy, body := .straight straight })
  (kind : straight.kind = .signal request aspect used)

include found kind

/-- A signal has the bits that tell how far it is for itself. -/
theorem entrusts_signal :
    operation.program.Entrusts id.index (straight.traces used) operation.events := by
  have sound : operation.layout.Sound := operation.sound.layout
  obtain ⟨-, pending, route, helper⟩ := sound.roles_of_signal found kind
  constructor
  · rintro ⟨automaton, index⟩ stands apart rule member var written listed
    have placed := List.mem_zipIdx_iff_getElem?.mp stands
    have owns := operation.sound.owns_of_written operation.declared operation.compiled placed member
      written
    obtain ⟨role, own⟩ := Layout.mem_roles_of_traces kind id var listed
    exact apart (congrArg PieceId.index (sound.eq_of_owns found own owns))
  · intro var listed value written
    have permitted := operation.permitted _ written
    have closed : ∀ passage, operation.layout.role var ≠ .pending passage ∧
        operation.layout.role var ≠ .route passage := by
      intro passage
      rcases sound.role_open permitted with aside | ⟨side, _, role | role⟩
      · constructor <;> intro role <;> rw [role] at aside <;> cases aside
      · simp [role]
      · simp [role]
    simp only [Straight.traces, List.mem_cons, List.not_mem_nil, or_false] at listed
    rcases listed with rfl | rfl | rfl
    · exact (closed straight.ab).1 pending
    · exact (closed straight.ab).2 route
    · exact (sound.spares_of_permits found permitted).2 helper

/-- In a run a signal waits for its route, has it, or has used it, but never two of these. -/
theorem single_signal {past : List Event} {machine : Machine}
    (inside : ∀ event ∈ past, event ∈ operation.events)
    (played : (Machine.powerOn operation.program operation.settings).play past = .ok machine) :
    operation.program.Sees id.index (fun view => (straight.progress used view).Single) machine := by
  have sound : operation.layout.Sound := operation.sound.layout
  have placed := Program.getElem?_of_piece operation.compiled found
  have begins : (straight.progress used ⟨fun _ => false, .initial, 0⟩).Single :=
    ⟨by simp [Straight.progress], by simp [Straight.progress]⟩
  refine Program.Sees.play (.powerOn placed operation.settings begins)
    ((operation.entrusts_signal found kind).of_subset inside)
    (Straight.looksAt_traces Progress.Single) placed ?_ played
  intro _ view single
  exact sound.single_turn found kind rfl single

variable {past later : List Event} {before released : Machine} {changed : Bool}

/-- After the turn in which the route was given up behind a train, the request is used and the
signal shows stop. -/
theorem spent_of_passed (inside : ∀ event ∈ past, event ∈ operation.events)
    (reached : (Machine.powerOn operation.program operation.settings).play past = .ok before)
    (passed : before.Fires id.index
      (straight.passedRule occupancy used (operation.layout.outlet? straight.ab.exit)))
    (asked : before.memory.value request = true)
    (evaluated : before.evaluate id.index = .ok (released, changed)) :
    operation.program.Sees id.index (fun view => (straight.progress used view).Spent true ∧
      view.bits aspect = false) released := by
  have sound : operation.layout.Sound := operation.sound.layout
  have placed := Program.getElem?_of_piece operation.compiled found
  obtain ⟨automata, size, cell, here, single⟩ := operation.single_signal found kind inside reached
  obtain ⟨known, there, fires⟩ := passed
  obtain rfl := Option.some.inj (here.symm.trans there)
  have same := Option.some.inj ((Machine.automata_getElem? here).symm.trans (automata ▸ placed))
  rw [same] at fires
  have sees : operation.program.Sees id.index (· = cell.view before.memory) before :=
    ⟨automata, size, cell, here, rfl⟩
  refine sees.evaluate placed ?_ evaluated
  rintro view rfl
  have turned := sound.passed_turn found kind rfl single fires
  rwa [show (cell.view before.memory).bits request = true from asked] at turned

/-- What a turn of the signal leaves if its request was used before. -/
theorem spent_evaluate {machine next : Machine} {wanted : Bool}
    (sees : operation.program.Sees id.index (fun view => (straight.progress used view).Spent true)
      machine) (asked : machine.memory.value request = wanted)
    (evaluated : machine.evaluate id.index = .ok (next, changed)) :
    operation.program.Sees id.index (fun view => (straight.progress used view).Spent wanted ∧
      view.bits aspect = false) next := by
  have placed := Program.getElem?_of_piece operation.compiled found
  obtain ⟨automata, size, cell, here, idle, free, used⟩ := sees
  have sees : operation.program.Sees id.index (· = cell.view machine.memory) machine :=
    ⟨automata, size, cell, here, rfl⟩
  refine sees.evaluate placed ?_ evaluated
  rintro view rfl
  have turned := operation.sound.layout.spent_turn found kind rfl ⟨idle, free, fun _ => used rfl⟩
  rwa [show (cell.view machine.memory).bits request = wanted from asked] at turned

/-- As long as the signal finds the request in its turns, it stays so. -/
theorem spent_of_asked (inside : ∀ event ∈ later, event ∈ operation.events)
    (spent : operation.program.Sees id.index (fun view => (straight.progress used view).Spent true ∧
      view.bits aspect = false) released) {last : Machine}
    (played : released.play later = .ok last)
    (asked : ∀ sample ∈ released.samples id.index request later, sample = true) :
    operation.program.Sees id.index (fun view => (straight.progress used view).Spent true) last ∧
      (operation.program.Entrusts id.index [aspect] later →
        operation.program.Sees id.index (fun view => view.bits aspect = false) last) := by
  have entrusts := (operation.entrusts_signal found kind).of_subset inside
  revert asked
  refine Machine.play_induct (motive := fun ran machine =>
    (∀ sample ∈ released.samples id.index request ran, sample = true) →
      operation.program.Sees id.index (fun view => (straight.progress used view).Spent true) machine ∧
      (operation.program.Entrusts id.index [aspect] later →
        operation.program.Sees id.index (fun view => view.bits aspect = false) machine)) ?_ ?_ played
  · exact fun _ => ⟨spent.mono And.left, fun _ => spent.mono And.right⟩
  · intro ran event middle next within played stays reacted asked
    rw [Machine.samples_concat event played] at asked
    obtain ⟨now, earlier⟩ := List.forall_mem_append.mp asked
    obtain ⟨spent, dark⟩ := stays earlier
    have member : event ∈ later := within.subset (by simp)
    by_cases here : event = .turn id.index
    · subst here
      obtain ⟨changed, evaluated⟩ := Machine.react_turn_eq_ok reacted
      have turned := operation.spent_evaluate found kind spent (now _ (by simp)) evaluated
      exact ⟨turned.mono And.left, fun _ => turned.mono And.right⟩
    · refine ⟨spent.react entrusts (Straight.looksAt_traces _) member here reacted, fun alone => ?_⟩
      exact (dark alone).react alone (View.looksAt_bit aspect false) member here reacted

/-- What is known of a signal whose request was used can be read from the machine. -/
theorem get_of_spent {machine : Machine} {wanted : Bool}
    (sees : operation.program.Sees id.index (fun view => (straight.progress used view).Spent wanted)
      machine) :
    machine.get straight.ab.pending = .ok false ∧ machine.get straight.ab.route = .ok false := by
  obtain ⟨_, size, _, _, idle, free, _⟩ := sees
  have reads {var : Var} (listed : var ∈ straight.traces used)
      (shows : machine.memory.value var = false) : machine.get var = .ok false := by
    obtain ⟨role, own⟩ := Layout.mem_roles_of_traces kind id var listed
    have reserved := operation.sound.layout.reserved _ (Layout.mem_roles_piece found own)
    refine Memory.read_eq_ok.mpr ⟨?_, shows⟩
    rwa [size, (Program.automata_of_compile operation.compiled).1]
  exact ⟨reads (by simp [Straight.traces]) idle, reads (by simp [Straight.traces]) free⟩

theorem get_of_stop {machine : Machine}
    (sees : operation.program.Sees id.index (fun view => view.bits aspect = false) machine) :
    machine.get aspect = .ok false := by
  obtain ⟨_, size, _, _, stop⟩ := sees
  have outside := operation.sound.layout.supplied found aspect (Layout.straight_of_signal kind).2.2
  refine Memory.read_eq_ok.mpr ⟨?_, stop⟩
  rw [size, (Program.automata_of_compile operation.compiled).1]
  exact outside.1

end Operation

section Home

/-- The signal is asked to show proceed, gets its route and lets a train pass. -/
def homePast : List Event := [
  .write ⟨0⟩ true, .turn 1, .turn 2, .turn 1, .write ⟨2⟩ true, .turn 1, .write ⟨75⟩ true, .turn 1,
  .write ⟨2⟩ false]

/-- The train leaves while the signal is still asked, and the next train comes. -/
def homeLater : List Event := [
  .turn 2, .turn 1, .write ⟨75⟩ false, .turn 1, .turn 2, .write ⟨2⟩ true, .turn 1]

/-- The rule with which the signal gives its route up. -/
def homeRule : Rule := homeSignal.passedRule ⟨51⟩ ⟨53⟩ (homeYard.layout.outlet? ⟨3⟩)

theorem homeYard_operates :
    ∃ operation ∈ Operation.start? {} homeOrders [] {} (homePast ++ .turn 1 :: homeLater),
      operation.layout.piece? ⟨1⟩ =
        some { name := "s", occupancy := ⟨51⟩, body := .straight homeSignal } ∧
      operation.layout.outlet? ⟨3⟩ = homeYard.layout.outlet? ⟨3⟩ ∧
      operation.events = homePast ++ .turn 1 :: homeLater ∧
      operation.program.Entrusts 1 [⟨1⟩] homeLater ∧
      ∃ before ∈ ((Machine.powerOn operation.program operation.settings).play homePast).toOption,
        before.Fires 1 homeRule ∧
        before.samples 1 ⟨0⟩ (.turn 1 :: homeLater) = [true, true, true, true] := by
  decide +kernel

end Home

/-- One train passes a signal for each request. Let a signal give its route up in a turn because the
train has passed: it has the route, the train was seen in the piece behind, and its own piece is
free. Whatever else has happened before and happens later, until the signal has found its request
withdrawn in a turn, this one or a later one, it neither waits for its route nor has it, and no turn
of any automaton changes that. If no other automaton writes its aspect, no turn raises the aspect,
and if it is not written from outside either, the signal shows stop all the time. -/
theorem one_train_per_request (operation : Operation) {id : PieceId} {name : String}
    {occupancy request aspect used : Var} {straight : Straight}
    (found : operation.layout.piece? id = some { name, occupancy, body := .straight straight })
    (kind : straight.kind = .signal request aspect used) {past later : List Event} {before : Machine}
    (happens : operation.events = past ++ .turn id.index :: later)
    (reached : (Machine.powerOn operation.program operation.settings).play past = .ok before)
    (passed : before.Fires id.index
      (straight.passedRule occupancy used (operation.layout.outlet? straight.ab.exit)))
    (asked : ∀ sample ∈ before.samples id.index request (.turn id.index :: later), sample = true) :
    operation.machine.get straight.ab.pending = .ok false ∧
    operation.machine.get straight.ab.route = .ok false ∧
    (operation.program.Entrusts id.index [aspect] later →
      operation.machine.get aspect = .ok false) ∧
    ∀ index next changed, operation.machine.evaluate index = .ok (next, changed) →
      next.get straight.ab.pending = .ok false ∧ next.get straight.ab.route = .ok false ∧
      (operation.program.Entrusts id.index [aspect] [] → operation.machine.get aspect = .ok false →
        next.get aspect = .ok false) := by
  have inside : ∀ event ∈ past, event ∈ operation.events :=
    fun event member => happens ▸ List.mem_append_left _ member
  have inLater : ∀ event ∈ later, event ∈ operation.events :=
    fun event member => happens ▸ List.mem_append_right _ (List.mem_cons_of_mem _ member)
  have played := operation.played
  rw [happens, Machine.play_append reached] at played
  obtain ⟨released, turned, played⟩ := Machine.play_cons_eq_ok played
  obtain ⟨changed, evaluated⟩ := Machine.react_turn_eq_ok turned
  rw [Machine.samples, turned, if_pos rfl] at asked
  obtain ⟨others, now⟩ := List.forall_mem_append.mp asked
  have spent := operation.spent_of_passed found kind inside reached passed (now _ (by simp)) evaluated
  obtain ⟨spent, dark⟩ := operation.spent_of_asked found kind inLater spent played others
  obtain ⟨idle, free⟩ := operation.get_of_spent found kind spent
  refine ⟨idle, free, fun alone => operation.get_of_stop found kind (dark alone), ?_⟩
  intro index next changed evaluated
  by_cases here : index = id.index
  · subst here
    have turned := operation.spent_evaluate found kind spent rfl evaluated
    obtain ⟨idle, free⟩ := operation.get_of_spent found kind (turned.mono And.left)
    exact ⟨idle, free, fun _ _ => operation.get_of_stop found kind (turned.mono And.right)⟩
  · have reacted : operation.machine.react (.turn index) = .ok next := by
      simp only [Machine.react, evaluated, bind, Except.bind]
      rfl
    have elsewhere : Event.turn index ≠ .turn id.index := by simpa using here
    have entrusts : operation.program.Entrusts id.index (straight.traces used) [.turn index] :=
      ⟨(operation.entrusts_signal found kind).others, by simp⟩
    have kept := spent.react entrusts (Straight.looksAt_traces _) List.mem_cons_self elsewhere
      reacted
    obtain ⟨idle, free⟩ := operation.get_of_spent found kind kept
    refine ⟨idle, free, fun alone stop => operation.get_of_stop found kind ?_⟩
    obtain ⟨automata, size, cell, stands, _⟩ := spent
    have sees : operation.program.Sees id.index (fun view => view.bits aspect = false)
        operation.machine := ⟨automata, size, cell, stands, (Memory.read_eq_ok.mp stop).2⟩
    have entrusts : operation.program.Entrusts id.index [aspect] [.turn index] :=
      ⟨alone.others, by simp⟩
    exact sees.react entrusts (View.looksAt_bit aspect false) List.mem_cons_self elsewhere reacted

/-- The second train waits, since the signal was never found without its request. -/
theorem one_train_per_request_at_home :
    ∃ operation ∈ Operation.start? {} homeOrders [] {} (homePast ++ .turn 1 :: homeLater),
      ∃ before, (Machine.powerOn operation.program operation.settings).play homePast = .ok before ∧
        Machine.Fires before 1 homeRule ∧
        Machine.samples 1 ⟨0⟩ (.turn 1 :: homeLater) before = [true, true, true, true] ∧
        operation.program.Entrusts 1 [⟨1⟩] homeLater ∧ operation.machine.get ⟨55⟩ = .ok false ∧
        operation.machine.get ⟨54⟩ = .ok false ∧ operation.machine.get ⟨1⟩ = .ok false := by
  obtain ⟨operation, started, found, outlet, events, alone, before, known, fires, samples⟩ :=
    homeYard_operates
  have reached := Machine.mem_toOption_iff.mp known
  have passed : before.Fires 1
      (homeSignal.passedRule ⟨51⟩ ⟨53⟩ (operation.layout.outlet? homeSignal.ab.exit)) := by
    rw [show homeSignal.ab.exit = ⟨3⟩ from rfl, outlet]
    exact fires
  obtain ⟨idle, free, stop, -⟩ := one_train_per_request operation found rfl events reached passed
    (by rw [samples]; simp)
  exact ⟨operation, started, before, reached, fires, samples, alone, idle, free, stop alone⟩

end Interlocking

import Interlocking.Proofs.Operation
import Interlocking.Proofs.Vacancy

/-!
# Measured occupancy

Whether a piece with a filtered sensor is occupied is found out by the piece itself, with its
filter rules. No other rule writes its occupancy or the bit in which it holds the last value of
the sensor: not those of other pieces, and not those with which the piece reserves its passages.
-/

namespace Interlocking.Layout

variable {layout : Layout} {goal id : PieceId} {piece : Piece} {rules : List Rule}

/-- The variable is neither the occupancy nor the helper of the piece `goal`. -/
def Spares (layout : Layout) (goal : PieceId) (var : Var) : Prop :=
  layout.role var ≠ .occupancy goal ∧ layout.role var ≠ .helper goal

/-- The rules leave the occupancy and the helper of the piece `goal` alone. -/
def Ignores (layout : Layout) (goal : PieceId) (rules : List Rule) : Prop :=
  ∀ rule ∈ rules, ∀ var ∈ rule.writes, layout.Spares goal var

theorem Spares.of_role {var : Var} {role : Role} (known : layout.role var = role)
    (notOccupancy : role ≠ .occupancy goal) (notHelper : role ≠ .helper goal) :
    layout.Spares goal var := by
  subst known
  exact ⟨notOccupancy, notHelper⟩

theorem Spares.of_reserving {var : Var} (reserving : (layout.role var).reserving = true) :
    layout.Spares goal var := by
  constructor <;>
  · intro role
    rw [role] at reserving
    cases reserving

theorem Ignores.append {others : List Rule} (left : layout.Ignores goal rules)
    (right : layout.Ignores goal others) : layout.Ignores goal (rules ++ others) :=
  List.forall_mem_append.mpr ⟨left, right⟩

theorem Reserves.ignores (reserves : layout.Reserves rules) : layout.Ignores goal rules :=
  fun rule member var written => .of_reserving (reserves rule member var written)

theorem Summarizes.ignores (summarizes : layout.Summarizes rules) : layout.Ignores goal rules := by
  intro rule member var written
  have passing := summarizes rule member var written
  constructor <;>
  · intro role
    rw [role] at passing
    cases passing

theorem Spares.of_outside {var : Var} (outside : layout.Outside var) : layout.Spares goal var :=
  .of_role (role_of_outside outside) (by simp) (by simp)

section Sites

variable {site : Site} (describes : layout.Describes id piece site)
  (spared : site.simulated = true → layout.Spares goal site.occupancy)

include describes spared

theorem Describes.ignores_tracking :
    layout.Ignores goal (site.seenRules layout ++ site.clearRules) := by
  have seen : layout.Spares goal site.seen := .of_role describes.seen (by simp) (by simp)
  apply Ignores.append
  · intro rule member var written
    obtain ⟨passage, _, made⟩ := List.mem_filterMap.mp member
    obtain ⟨next, _, rfl⟩ := Option.map_eq_some_iff.mp made
    cases simulated : site.simulated with
    | false =>
        obtain rfl : var = site.seen := by simpa [Rule.writes, simulated, Action.var?] using written
        exact seen
    | true =>
        have either : var = site.seen ∨ var = site.occupancy := by
          simpa [Rule.writes, simulated, Action.var?] using written
        rcases either with rfl | rfl
        · exact seen
        · exact spared simulated
  · intro rule member var written
    rcases List.mem_cons.mp member with rfl | member
    · obtain rfl : var = site.seen := by simpa [Rule.writes, Action.var?] using written
      exact seen
    · split at member
      · rename_i simulated
        obtain rfl := List.mem_singleton.mp member
        obtain rfl : var = site.occupancy := by simpa [Rule.writes, Action.var?] using written
        exact spared simulated
      · cases member

end Sites

section Work

variable (sound : layout.Sound)

include sound

theorem Sound.spares_releaseNotice (exit : SideId) :
    ∀ var ∈ (releaseNotice (layout.outlet? exit)).filterMap Action.var?, layout.Spares goal var := by
  cases known : layout.outlet? exit with
  | none => simp [releaseNotice]
  | some outlet =>
      have request : layout.Spares goal outlet.bits.request :=
        .of_role (sound.outlet known).request (by simp) (by simp)
      have released : layout.Spares goal outlet.bits.released :=
        .of_role (sound.outlet known).released (by simp) (by simp)
      simp [releaseNotice, Action.var?, request, released]

theorem Serves.ignores_handshakeRules {site : Site} {index : Nat} {passage : Passage}
    {inlet : Handshake} {asker : SideId}
    (serves : layout.Serves id piece site index passage inlet asker)
    (spared : site.simulated = true → layout.Spares goal site.occupancy) :
    layout.Ignores goal
      (site.handshakeRules index passage inlet (layout.outlet? passage.exit)) := by
  have released : ∀ var ∈ (site.releaseActions passage
      (layout.outlet? passage.exit)).filterMap Action.var?, layout.Spares goal var := by
    have route : layout.Spares goal passage.route :=
      .of_role (sound.role_route serves.way) (by simp) (by simp)
    have seen : layout.Spares goal site.seen := .of_role serves.describes.seen (by simp) (by simp)
    rw [Site.releaseActions_eq, List.filterMap_append, List.filterMap_append]
    simp only [List.forall_mem_append]
    refine ⟨⟨by simp [Action.var?, route, seen], ?_⟩, sound.spares_releaseNotice passage.exit⟩
    split
    · rename_i simulated
      simpa [Action.var?] using spared simulated
    · simp
  rw [Site.handshakeRules_eq, Site.workRules]
  refine .append (.append (.append (.append ?_ ?_) ?_) (.append ?_ ?_)) ?_
  · exact ((denyRules_replies site index passage inlet).reserves serves.wired).ignores
  · exact (serves.reserves_acceptRules sound).ignores
  · exact serves.wired.reserves_answerResetRules.ignores
  · intro rule member
    obtain ⟨freed, rfl⟩ := Site.mem_passedRules member
    exact released
  · exact List.forall_mem_singleton.mpr released
  · exact (sound.reserves_releaseDoneRules passage.exit).ignores

/-- The occupancy of another piece is not the one of `goal`. -/
theorem Sound.spares_occupancy (found : layout.piece? id = some piece) (other : id ≠ goal) :
    layout.Spares goal piece.occupancy := by
  cases sensed : piece.sensed with
  | true => exact .of_outside (sound.supplied found _ (piece.occupancy_supplied sensed))
  | false => exact .of_role (sound.role_occupancy found sensed) (by simp [other]) (by simp)

theorem Sound.spares_helper (found : layout.piece? id = some piece) (other : id ≠ goal) {var : Var}
    (known : piece.helper? = some var) : layout.Spares goal var :=
  .of_role (sound.role_helper found known) (by simp) (by simp [other])

theorem Task.ignores {duty : Duty} (task : layout.Task id duty) (other : id ≠ goal) :
    layout.Ignores goal duty.rules := by
  cases task with
  | rest => simp [Ignores]
  | negotiate serves =>
      refine serves.ignores_handshakeRules sound fun _ => ?_
      rw [serves.describes.occupancy]
      exact sound.spares_occupancy serves.found other
  | @originate _ _ request _ used straight found kind =>
      have way : layout.Way id straight.ab := ⟨_, found, by simp [Piece.passages]⟩
      have route : layout.Spares goal straight.ab.route :=
        .of_role (sound.role_route way) (by simp) (by simp)
      have seen : layout.Spares goal straight.seen :=
        .of_role (sound.role_seen found rfl) (by simp) (by simp)
      have helper : layout.Spares goal used :=
        sound.spares_helper found other (straight_of_signal kind).1
      have released : ∀ var ∈ (straight.originRelease
          (layout.outlet? straight.ab.exit)).filterMap Action.var?, layout.Spares goal var := by
        rw [Straight.originRelease_eq, List.filterMap_append]
        exact List.forall_mem_append.mpr
          ⟨by simp [Action.var?, route, seen], sound.spares_releaseNotice straight.ab.exit⟩
      rw [Straight.signalRouteRules_eq]
      refine .append (.append (sound.reserves_originRules way request used).ignores ?_)
        (sound.reserves_releaseDoneRules _).ignores
      simp only [Ignores, Straight.originReleaseRules, Rule.writes, List.forall_mem_cons]
      exact ⟨List.forall_mem_cons.mpr ⟨helper, released⟩, released, by simp [Action.var?, helper],
        by simp⟩
  | answer given =>
      exact .append (given.replies.reserves given.wired).ignores
        given.wired.reserves_answerResetRules.ignores

/-- A piece leaves the occupancy and the helper of every other piece alone. -/
theorem Sound.ignores_automaton (found : layout.piece? id = some piece) (other : id ≠ goal) :
    layout.Ignores goal (piece.automaton layout).rules := by
  have occupancy := sound.spares_occupancy found other
  rw [piece.rules_automaton]
  refine .append (.append ?_ ?_) (sound.summary_summarizes found).ignores
  · obtain ⟨name, occupied, body⟩ := piece
    cases body with
    | straight straight =>
        refine .append ?_ ((sound.describes_straight found).ignores_tracking fun _ => occupancy)
        obtain ⟨⟨seen, ab, ba⟩, kind, a, b⟩ := straight
        cases kind with
        | short | long | detector => simp [Ignores]
        | filtered raw window shadow =>
            have helper := sound.spares_helper found other rfl
            simp [Ignores, filterRules, Rule.writes, Action.var?, occupancy, helper]
        | signal request aspect used =>
            cases layout.neighbourOccupancy? a with
            | none => simp [Ignores]
            | some approaching =>
                simp [Ignores, copyRules, Rule.writes, Action.var?, occupancy]
    | turnout turnout => exact (sound.describes_turnout found).ignores_tracking fun _ => occupancy
    | endpoint side => simp [Ignores, Piece.tracking]
  · intro rule member
    obtain ⟨duty, listed, member⟩ := List.mem_flatMap.mp member
    exact (sound.task found duty listed).ignores sound other rule member

end Work

/-- The rules start no timer. -/
def Untimed (rules : List Rule) : Prop :=
  ∀ rule ∈ rules, ∀ cycles, .loadTimer cycles ∉ rule.actions

theorem Untimed.append {others : List Rule} (left : Untimed rules) (right : Untimed others) :
    Untimed (rules ++ others) :=
  List.forall_mem_append.mpr ⟨left, right⟩

theorem untimed_tracking (site : Site) : Untimed (site.seenRules layout ++ site.clearRules) := by
  apply Untimed.append
  · intro rule member
    obtain ⟨passage, _, made⟩ := List.mem_filterMap.mp member
    obtain ⟨next, _, rfl⟩ := Option.map_eq_some_iff.mp made
    cases simulated : site.simulated <;> simp
  · cases simulated : site.simulated <;> simp [Untimed, Site.clearRules, simulated]

theorem untimed_handshakeRules (site : Site) (index : Nat) (passage : Passage) (inlet : Handshake)
    (outlet : Option Outlet) : Untimed (site.handshakeRules index passage inlet outlet) := by
  have released : ∀ cycles, .loadTimer cycles ∉ site.releaseActions passage outlet := by
    cases outlet <;> cases simulated : site.simulated <;> simp [Site.releaseActions, simulated]
  rw [Site.handshakeRules_eq, Site.workRules]
  refine .append (.append (.append (.append ?_ ?_) ?_) (.append ?_ ?_)) ?_
  · intro rule member
    obtain ⟨var, value, rfl⟩ := Site.mem_denyRules member
    simp
  · cases outlet <;> simp [Untimed, Site.acceptRules]
  · simp [Untimed, answerResetRules]
  · intro rule member
    obtain ⟨freed, rfl⟩ := Site.mem_passedRules member
    exact released
  · exact List.forall_mem_singleton.mpr released
  · cases outlet <;> simp [Untimed, releaseDoneRules]

theorem le_longer (longest window : UInt8) :
    longest ≤ max longest window ∧ window ≤ max longest window := by
  change longest ≤ (if longest ≤ window then window else longest) ∧
    window ≤ if longest ≤ window then window else longest
  split
  · rename_i longer
    exact ⟨longer, UInt8.le_refl _⟩
  · rename_i shorter
    exact ⟨UInt8.le_refl _, UInt8.le_of_lt (UInt8.not_le.mp shorter)⟩

section Filter

variable {name : String} {occupancy raw shadow : Var} {window : UInt8} {straight : Straight}
  (sound : layout.Sound)
  (found : layout.piece? id = some { name, occupancy, body := .straight straight })
  (kind : straight.kind = .filtered raw window shadow)

include kind

theorem duties_of_filtered :
    ({ name, occupancy, body := .straight straight } : Piece).duties layout =
      (straight.site occupancy).duties layout := by
  simp [Piece.duties, kind]

theorem asked_of_filtered :
    ({ name, occupancy, body := .straight straight } : Piece).asked =
      [straight.ab, straight.ba] := by
  obtain ⟨⟨seen, ab, ba⟩, _, a, b⟩ := straight
  subst kind
  rfl

include found

theorem mem_roles_of_filtered : (.occupancy id, occupancy) ∈ layout.roles := by
  obtain ⟨⟨seen, ab, ba⟩, _, a, b⟩ := straight
  subst kind
  exact mem_roles_piece found (by simp [Piece.roles, Piece.sensed])

include sound

theorem Sound.passage_of_filtered {index : Nat} {rule : Rule}
    (member : rule ∈ (straight.site occupancy).passageRules layout index) :
    ∃ passage inlet asker, layout.Serves id { name, occupancy, body := .straight straight }
      (straight.site occupancy) index passage inlet asker ∧
      rule ∈ (straight.site occupancy).handshakeRules index passage inlet
        (layout.outlet? passage.exit) := by
  have describes := sound.describes_straight found
  unfold Site.passageRules at member
  split at member
  · cases member
  · rename_i passage placed
    split at member
    · cases member
    · rename_i inlet known
      obtain ⟨asker, joined, wired⟩ := sound.inlet known
      have asked : passage ∈ ({ name, occupancy, body := .straight straight } : Piece).asked := by
        rw [asked_of_filtered kind]
        exact List.mem_of_getElem? placed
      exact ⟨passage, inlet, asker, ⟨found, describes, placed, asked, joined, wired⟩, member⟩

/-- A piece with a filtered sensor first runs its filter. What it does behind that concerns
neither the filter nor the timer. -/
theorem Sound.rules_of_filtered :
    ∃ rest, (({ name, occupancy, body := .straight straight } : Piece).automaton layout).rules =
        filterRules occupancy raw window shadow ++ rest ∧
      layout.Ignores id rest ∧ Untimed rest := by
  have simulated : (straight.site occupancy).simulated = true → layout.Spares id occupancy := by
    simp [Straight.site, Straight.simulated, kind]
  have worked : ∀ rule ∈ ((straight.site occupancy).duties layout).flatMap Duty.rules,
      ∃ index, rule ∈ (straight.site occupancy).passageRules layout index := by
    intro rule member
    obtain ⟨duty, listed, member⟩ := List.mem_flatMap.mp member
    obtain ⟨⟨passage, index⟩, _, rfl⟩ := List.mem_map.mp listed
    exact ⟨index, member⟩
  refine ⟨((straight.site occupancy).seenRules layout ++ (straight.site occupancy).clearRules) ++
    (((straight.site occupancy).duties layout).flatMap Duty.rules ++ [RuleBook.startRule]),
    ?_, ?_, ?_⟩
  · rw [Piece.rules_automaton, duties_of_filtered kind]
    simp [Piece.tracking, Piece.summary, kind]
  · refine .append ((sound.describes_straight found).ignores_tracking simulated) (.append ?_ ?_)
    · intro rule member
      obtain ⟨index, member⟩ := worked rule member
      obtain ⟨passage, inlet, asker, serves, member⟩ := sound.passage_of_filtered found kind member
      exact serves.ignores_handshakeRules sound simulated rule member
    · simp [Ignores, RuleBook.startRule, Rule.writes, Action.var?]
  · refine .append (untimed_tracking _) (.append ?_ ?_)
    · intro rule member
      obtain ⟨index, member⟩ := worked rule member
      obtain ⟨passage, inlet, asker, serves, member⟩ := sound.passage_of_filtered found kind member
      exact untimed_handshakeRules _ index passage inlet _ rule member
    · simp [Untimed, RuleBook.startRule]

theorem Sound.role_of_filtered :
    layout.role occupancy = .occupancy id ∧ layout.role shadow = .helper id ∧
      layout.Outside raw := by
  have measured := sound.role_eq (mem_roles_of_filtered found kind)
  obtain ⟨⟨seen, ab, ba⟩, _, a, b⟩ := straight
  subst kind
  exact ⟨measured, sound.role_helper found rfl, sound.supplied found raw List.mem_cons_self⟩

theorem Sound.ne_of_spares {var : Var} (spares : layout.Spares id var) :
    var ≠ occupancy ∧ var ≠ shadow := by
  obtain ⟨measured, shadowed, _⟩ := sound.role_of_filtered found kind
  constructor
  · rintro rfl
    exact spares.1 measured
  · rintro rfl
    exact spares.2 shadowed

omit kind in
/-- From outside neither the occupancy nor the helper of such a piece is written. -/
theorem Sound.spares_of_permits {var : Var} {value : Bool}
    (permitted : layout.Permits (.write var value)) : layout.Spares id var := by
  rcases permitted with outside | member
  · exact .of_outside outside
  · obtain ⟨⟨_, occupied, body⟩, listed, member⟩ := List.mem_flatMap.mp member
    obtain ⟨place, known⟩ := mem_pieces.mp listed
    cases body with
    | straight | turnout => cases member
    | endpoint side =>
        have other : place ≠ id := by
          rintro rfl
          cases known.symm.trans found
        simp only [List.mem_cons, List.mem_flatMap, Option.mem_toList, List.not_mem_nil,
          or_false] at member
        rcases member with rfl | ⟨record, foundSide, driven⟩
        · exact sound.spares_occupancy known other
        · have wired := sound.wired foundSide
          rcases driven with rfl | rfl
          · exact .of_role wired.request (by simp) (by simp)
          · exact .of_role wired.released (by simp) (by simp)

omit sound found kind in
theorem le_longest {longest : UInt8} {pieces : List Piece} : longest ≤ pieces.foldl
    (fun longest piece => match piece.body with
      | .straight { kind := .filtered _ window _, .. } => max longest window
      | _ => longest) longest := by
  induction pieces generalizing longest with
  | nil => exact UInt8.le_refl _
  | cons piece pieces ih =>
      refine UInt8.le_trans ?_ ih
      dsimp only
      split
      · exact (le_longer _ _).1
      · exact UInt8.le_refl _

omit sound in
/-- No window is longer than the longest one. -/
theorem window_le_maxDebounceCycles : window ≤ layout.maxDebounceCycles := by
  obtain ⟨⟨seen, ab, ba⟩, _, a, b⟩ := straight
  subst kind
  have listed := mem_pieces.mpr ⟨id, found⟩
  rw [maxDebounceCycles, ← Array.foldl_toList]
  generalize layout.pieces.toList = pieces at listed
  generalize layout.debounceCycles = usual
  induction pieces generalizing usual with
  | nil => cases listed
  | cons piece pieces ih =>
      rcases List.mem_cons.mp listed with rfl | listed
      · exact UInt8.le_trans (le_longer _ _).2 le_longest
      · exact ih listed _

end Filter

end Interlocking.Layout

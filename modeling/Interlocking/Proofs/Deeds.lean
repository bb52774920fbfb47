import Interlocking.Proofs.TurnoutRules

/-!
# What the rules do, and when

A shift tells what a piece may do without harm. The rules do it for a reason: they answer
only a request that is there, they pass a request on only for somebody, they give a route up
only if it was used or is not wanted any more. A deed is a shift together with its reasons.
Each reservation rule that fires is a deed.
-/

namespace Interlocking

open Function (update)

/-- Tells an answer to whoever has asked, if somebody has. -/
def Panel.tell (patron : Option SideId) (answer : SideId → Role) (panel : Panel) : Panel :=
  match patron with
  | some asker => update panel (answer asker) true
  | none => panel

namespace Panel

variable {patron : Option SideId} {answer : SideId → Role} {panel : Panel} {role : Role}

@[simp] theorem tell_of_ne (apart : ∀ side, role ≠ answer side) :
    tell patron answer panel role = panel role := by
  cases patron with
  | none => rfl
  | some asker => exact Function.update_of_ne (apart asker) true panel

theorem tell_granted_iff {side : SideId} : tell patron .granted panel (.granted side) = true ↔
    side ∈ patron ∨ panel (.granted side) = true := by
  cases patron with
  | none => simp [tell]
  | some asker =>
      by_cases same : side = asker
      · simp [tell, same]
      · simp [tell, same, Ne.symm same]

end Panel

/-- What the patron has asked for was not answered yet. -/
def Panel.Wants (panel : Panel) (patron : Option SideId) : Prop :=
  ∀ asker ∈ patron, panel (.request asker) = true ∧ panel (.granted asker) = false ∧
    panel (.denied asker) = false

/-- The patron has withdrawn what it has asked for. -/
def Panel.Withdrawn (panel : Panel) (patron : Option SideId) : Prop :=
  ∀ asker ∈ patron, panel (.request asker) = false

open Panel (tell)

namespace Layout

/-- For whom a passage is reserved: for the neighbour that asks at its entry, or for nobody
else, if it is the passage of a signal. -/
inductive Patron (layout : Layout) (passage : Passage) : Option SideId → Prop where
  | neighbour {asker : SideId} (asked : layout.Asked passage)
      (joined : layout.mate? passage.entry = some asker) : Patron layout passage (some asker)
  | own (unasked : ¬layout.Asked passage) : Patron layout passage none

/-- Routes end at the side: it belongs to an endpoint, or it is side `a` of a signal. -/
def Ends (layout : Layout) (side : SideId) : Prop :=
  ∃ piece, layout.owner? side = some piece ∧
    ((∃ own, piece.body = .endpoint own) ∨ ∃ straight request aspect used,
      piece.body = .straight straight ∧ straight.kind = .signal request aspect used ∧
        side = straight.a)

/-- What a piece does while it works on one of its passages, or on none. -/
inductive Deed (layout : Layout) (id : PieceId) (panel : Panel) : Option Passage → Panel → Prop where
  | refuse {work : Option Passage} {entry asker : SideId} (borders : layout.Borders id entry)
      (joined : layout.mate? entry = some asker) (wanted : panel.Wants (some asker)) :
      Deed layout id panel work (update panel (.denied asker) true)
  | concede {work : Option Passage} {entry asker : SideId} (borders : layout.Borders id entry)
      (joined : layout.mate? entry = some asker) (wanted : panel.Wants (some asker))
      (ends : layout.Ends entry) :
      Deed layout id panel work (update panel (.granted asker) true)
  | arrive {passage : Passage} {patron : Option SideId} (way : layout.Way id passage)
      (served : layout.Patron passage patron) (wanted : panel.Wants patron)
      (unbound : layout.mate? passage.exit = none) (free : layout.Free panel id) :
      Deed layout id panel (some passage)
        (tell patron .granted (update panel (.route passage) true))
  | ask {passage : Passage} {patron : Option SideId} {mate : SideId} (way : layout.Way id passage)
      (served : layout.Patron passage patron) (wanted : panel.Wants patron)
      (bound : layout.mate? passage.exit = some mate) (free : layout.Free panel id)
      (ungranted : panel (.granted passage.exit) = false)
      (undenied : panel (.denied passage.exit) = false) :
      Deed layout id panel (some passage)
        (update (update panel (.pending passage) true) (.request passage.exit) true)
  | confirm {passage : Passage} {patron : Option SideId} {mate : SideId}
      (way : layout.Way id passage) (served : layout.Patron passage patron)
      (bound : layout.mate? passage.exit = some mate) (pending : panel (.pending passage) = true)
      (granted : panel (.granted passage.exit) = true) :
      Deed layout id panel (some passage)
        (tell patron .granted (update (update panel (.route passage) true) (.pending passage) false))
  | abandon {passage : Passage} {patron : Option SideId} {mate : SideId}
      (way : layout.Way id passage) (served : layout.Patron passage patron)
      (bound : layout.mate? passage.exit = some mate) (pending : panel (.pending passage) = true)
      (denied : panel (.denied passage.exit) = true) :
      Deed layout id panel (some passage)
        (tell patron .denied
          (update (update panel (.pending passage) false) (.request passage.exit) false))
  | release {passage : Passage} {patron : Option SideId} {mate : SideId}
      (way : layout.Way id passage) (served : layout.Patron passage patron)
      (bound : layout.mate? passage.exit = some mate) (reserved : panel (.route passage) = true)
      (done : panel (.seen id) = true ∨ panel.Withdrawn patron) :
      Deed layout id panel (some passage)
        (update (update (update panel (.route passage) false) (.request passage.exit) false)
          (.released passage.exit) true)
  | leave {passage : Passage} {patron : Option SideId} (way : layout.Way id passage)
      (served : layout.Patron passage patron) (unbound : layout.mate? passage.exit = none)
      (reserved : panel (.route passage) = true)
      (done : panel (.seen id) = true ∨ panel.Withdrawn patron) :
      Deed layout id panel (some passage) (update panel (.route passage) false)
  | withdraw {work : Option Passage} {entry asker : SideId} (borders : layout.Borders id entry)
      (joined : layout.mate? entry = some asker) (granted : panel (.granted asker) = true)
      (unused : panel (.released asker) = true ∨ panel (.request asker) = false) :
      Deed layout id panel work (update panel (.granted asker) false)
  | forget {work : Option Passage} {entry asker : SideId} (borders : layout.Borders id entry)
      (joined : layout.mate? entry = some asker) (unrequested : panel (.request asker) = false) :
      Deed layout id panel work (update panel (.denied asker) false)
  | settle {work : Option Passage} {exit : SideId} (borders : layout.Borders id exit)
      (ungranted : panel (.granted exit) = false) :
      Deed layout id panel work (update panel (.released exit) false)

/-- Each rule that fires does what a deed does, apart from bits with which the protocol is
not concerned, or concerns these only. -/
def Enacts (layout : Layout) (id : PieceId) (work : Option Passage) (rules : List Rule) : Prop :=
  ∀ rule ∈ rules, ∀ panel, (∀ condition ∈ rule.conditions, layout.Sees panel condition) →
    ∃ after, (after = panel ∨ layout.Deed id panel work after) ∧
      (layout.carry panel rule.actions).Alike after

variable {layout : Layout} {id : PieceId} {work : Option Passage}

theorem Enacts.append {first second : List Rule} (left : layout.Enacts id work first)
    (right : layout.Enacts id work second) : layout.Enacts id work (first ++ second) :=
  List.forall_mem_append.mpr ⟨left, right⟩

/-- What deeds maintain is maintained by rules that do nothing else. The deeds can rely on
what the rules are known to maintain already. -/
theorem Enacts.maintains {rules : List Rule} (enacts : layout.Enacts id work rules)
    {ground invariant : Panel → Prop} (grounds : layout.Maintains ground rules)
    (kept : ∀ {before after}, ground before → invariant before →
      layout.Deed id before work after → invariant after)
    (congr : ∀ {panel other : Panel}, panel.Alike other → invariant other → invariant panel) :
    layout.Maintains (fun panel => ground panel ∧ invariant panel) rules := by
  intro rule member panel ⟨grounded, holds⟩ sees
  refine ⟨grounds rule member panel grounded sees, ?_⟩
  obtain ⟨after, done, alike⟩ := enacts rule member panel sees
  apply congr alike
  rcases done with rfl | deed
  · exact holds
  · exact kept grounded holds deed

/-- Nothing but the work at hand changes a passage. -/
theorem Deed.elsewhere {before after : Panel} (deed : layout.Deed id before work after)
    {passage : Passage} (apart : work ≠ some passage) :
    after (.route passage) = before (.route passage) ∧
      after (.pending passage) = before (.pending passage) := by
  cases deed with
  | refuse | concede | withdraw | forget | settle => simp
  | @arrive _ patron | @confirm _ patron | @abandon _ patron =>
      have differs : passage ≠ _ := fun same => apart (congrArg some same.symm)
      cases patron <;> simp [Panel.tell, differs]
  | ask | release | leave =>
      have differs : passage ≠ _ := fun same => apart (congrArg some same.symm)
      simp [differs]

section Answers

variable {inlet : Handshake} {entry asker : SideId} (borders : layout.Borders id entry)
  (joined : layout.mate? entry = some asker) (wired : layout.Wired inlet asker)

include borders joined wired

theorem Wired.enacts_answerResetRules : layout.Enacts id work (answerResetRules inlet) := by
  simp only [Enacts, answerResetRules, List.forall_mem_cons, Sees, carry, List.foldl_cons,
    List.foldl_nil, act, wired.request, wired.granted, wired.denied, wired.released]
  refine ⟨?_, ?_, ?_, by simp⟩
  · rintro panel ⟨released, granted, _⟩
    exact ⟨_, .inr (.withdraw borders joined granted (.inl released)), .refl _⟩
  · rintro panel ⟨unrequested, granted, _⟩
    exact ⟨_, .inr (.withdraw borders joined granted (.inr unrequested)), .refl _⟩
  · rintro panel ⟨unrequested, _⟩
    exact ⟨_, .inr (.forget borders joined unrequested), .refl _⟩

end Answers

/-- Stopping to announce a release is a deed. -/
theorem Sound.enacts_releaseDoneRules (sound : layout.Sound) {exit : SideId}
    (borders : layout.Borders id exit) :
    layout.Enacts id work (releaseDoneRules (layout.outlet? exit)) := by
  cases known : layout.outlet? exit with
  | none => simp [Enacts, releaseDoneRules]
  | some outlet =>
      have wired := sound.outlet known
      simp only [Enacts, releaseDoneRules, List.forall_mem_cons, Sees, carry, List.foldl_cons,
        List.foldl_nil, act, wired.granted, wired.released]
      refine ⟨?_, by simp⟩
      rintro panel ⟨_, ungranted, _⟩
      exact ⟨_, .inr (.settle borders ungranted), .refl _⟩

/-- An exit with an outlet is joined to another side. -/
theorem mate_of_outlet {exit : SideId} {outlet : Outlet} (found : layout.outlet? exit = some outlet) :
    ∃ mate, layout.mate? exit = some mate := by
  simp only [outlet?, neighbourOccupancy?, Option.bind_eq_bind, Option.bind_eq_some_iff,
    Option.map_eq_some_iff] at found
  obtain ⟨_, _, _, ⟨_, ⟨mate, joined, _⟩, _⟩, _⟩ := found
  exact ⟨mate, joined⟩

/-- Clearing the route and telling the exit, with other bits cleared in between, is a deed. -/
theorem Sound.deed_release (sound : layout.Sound) {passage : Passage} {patron : Option SideId}
    (way : layout.Way id passage) (served : layout.Patron passage patron) {panel cleared : Panel}
    (reserved : panel (.route passage) = true)
    (done : panel (.seen id) = true ∨ panel.Withdrawn patron)
    (alike : cleared.Alike (update panel (.route passage) false)) :
    ∃ after, layout.Deed id panel (some passage) after ∧
      (layout.carry cleared (releaseNotice (layout.outlet? passage.exit))).Alike after := by
  cases known : layout.outlet? passage.exit with
  | none => exact ⟨_, .leave way served (sound.mate_of_no_outlet known) reserved done, alike⟩
  | some outlet =>
      have wired := sound.outlet known
      obtain ⟨mate, bound⟩ := mate_of_outlet known
      refine ⟨_, .release way served bound reserved done, ?_⟩
      simp only [releaseNotice, carry, List.foldl_cons, List.foldl_nil, act, wired.request,
        wired.released]
      exact (alike.update false).update true

namespace Serves

variable {piece : Piece} {site : Site} {index : Nat} {passage : Passage} {inlet : Handshake}
  {asker : SideId} {panel : Panel}
  (serves : layout.Serves id piece site index passage inlet asker) (sound : layout.Sound)

include serves

theorem patron : layout.Patron passage (some asker) := .neighbour serves.isAsked serves.joined

include sound

theorem wants (sees : ∀ condition ∈ site.asked index passage inlet, layout.Sees panel condition) :
    panel.Wants (some asker) := by
  have requested := sees (.on inlet.request) (by simp [Site.asked])
  obtain ⟨ungranted, undenied, -⟩ := serves.sees_asked sound sees
  intro other same
  obtain rfl := Option.some.inj same
  simp only [Sees, serves.wired.request] at requested
  exact ⟨requested, ungranted, undenied⟩

theorem enacts_denyRules : layout.Enacts id work (site.denyRules index passage inlet) := by
  intro rule member panel sees
  obtain ⟨var, value, rfl⟩ := Site.mem_denyRules member
  have asked := (List.forall_mem_append.mp sees).1
  simp only [carry, List.foldl_cons, List.foldl_nil, act, serves.wired.denied]
  exact ⟨_, .inr (.refuse (sound.borders serves.way).1 serves.joined (serves.wants sound asked)),
    .refl _⟩

theorem enacts_acceptRules : layout.Enacts id (some passage)
    (site.acceptRules index passage inlet (layout.outlet? passage.exit)) := by
  have route := sound.role_route serves.way
  have pending := sound.role_pending serves.way
  have acceptable : ∀ {panel : Panel},
      (∀ condition ∈ site.acceptable index passage inlet, layout.Sees panel condition) →
      panel.Wants (some asker) ∧ layout.Free panel id := by
    intro panel sees
    refine ⟨serves.wants sound fun condition asked => sees condition ?_,
      (serves.sees_acceptable sound sees).2.2.1⟩
    simp only [Site.acceptable, List.mem_append]
    exact .inl (.inl (.inl asked))
  cases known : layout.outlet? passage.exit with
  | none =>
      intro rule member panel sees
      obtain rfl := List.mem_singleton.mp member
      obtain ⟨wanted, free⟩ := acceptable sees
      refine ⟨_, .inr (.arrive serves.way serves.patron wanted (sound.mate_of_no_outlet known) free),
        ?_⟩
      simp only [carry, List.foldl_cons, List.foldl_nil, act, serves.wired.granted, route]
      exact .refl _
  | some outlet =>
      obtain ⟨out, occupancy⟩ := outlet
      have wired := sound.outlet known
      obtain ⟨mate, bound⟩ := mate_of_outlet known
      simp only at wired
      simp only [Enacts, Site.acceptRules, List.forall_mem_cons]
      refine ⟨?_, ?_, ?_, by simp⟩
      · intro panel sees
        obtain ⟨accepted, sees⟩ := List.forall_mem_append.mp sees
        obtain ⟨wanted, free⟩ := acceptable accepted
        simp only [List.forall_mem_cons, Sees, wired.granted, wired.denied] at sees
        refine ⟨_, .inr (.ask serves.way serves.patron wanted bound free sees.2.1 sees.2.2.1), ?_⟩
        simp only [carry, List.foldl_cons, List.foldl_nil, act, wired.request, pending]
        exact .refl _
      · intro panel sees
        simp only [Sees, wired.granted, pending] at sees
        refine ⟨_, .inr (.confirm serves.way serves.patron bound sees.1 sees.2.2.1), ?_⟩
        simp only [carry, List.foldl_cons, List.foldl_nil, act, serves.wired.granted, route, pending]
        exact .refl _
      · intro panel sees
        simp only [Sees, wired.denied, pending] at sees
        refine ⟨_, .inr (.abandon serves.way serves.patron bound sees.1 sees.2.2.1), ?_⟩
        simp only [carry, List.foldl_cons, List.foldl_nil, act, serves.wired.denied, wired.request,
          pending]
        exact .refl _

theorem enacts_releaseRules : layout.Enacts id (some passage)
    (site.passedRules passage (layout.outlet? passage.exit) ++
      [site.withdrawnRule passage inlet (layout.outlet? passage.exit)]) := by
  have released : ∀ {panel : Panel}, panel (.route passage) = true →
      panel (.seen id) = true ∨ panel.Withdrawn (some asker) →
      ∃ after, (after = panel ∨ layout.Deed id panel (some passage) after) ∧
        (layout.carry panel (site.releaseActions passage (layout.outlet? passage.exit))).Alike
          after := by
    intro panel reserved done
    obtain ⟨after, deed, alike⟩ := sound.deed_release serves.way serves.patron reserved done
      (serves.alike_cleared sound panel)
    rw [Site.releaseActions_eq, carry, List.foldl_append]
    exact ⟨after, .inr deed, alike⟩
  apply Enacts.append
  · intro rule member panel sees
    obtain ⟨freed, rfl⟩ := Site.mem_passedRules member
    simp only [List.forall_mem_cons, Sees, sound.role_route serves.way, serves.describes.seen] at sees
    exact released sees.1 (.inl sees.2.1)
  · intro rule member panel sees
    obtain rfl := List.mem_singleton.mp member
    simp only [Site.withdrawnRule, List.forall_mem_cons, Sees, sound.role_route serves.way,
      serves.wired.request] at sees
    obtain ⟨reserved, _, _, unrequested, _⟩ := sees
    refine released reserved (.inr ?_)
    intro other same
    exact Option.some.inj same ▸ unrequested

theorem enacts_workRules : layout.Enacts id (some passage)
    (site.workRules index passage inlet (layout.outlet? passage.exit)) :=
  (((serves.enacts_denyRules sound).append (serves.enacts_acceptRules sound)).append
    (serves.wired.enacts_answerResetRules (sound.borders serves.way).1 serves.joined)).append
    (serves.enacts_releaseRules sound)

end Serves

section Signals

variable {name : String} {occupancy request aspect used : Var} {straight : Straight}
  (sound : layout.Sound)
  (found : layout.piece? id = some { name, occupancy, body := .straight straight })
  (kind : straight.kind = .signal request aspect used)

include sound found kind

theorem Sound.patron_of_signal : layout.Patron straight.ab none :=
  .own fun asked => absurd rfl (sound.signal_not_asked found kind asked)

theorem Sound.enacts_originRules : layout.Enacts id (some straight.ab)
    (straight.originRules request used (layout.outlet? straight.ab.exit)) := by
  have way : layout.Way id straight.ab := ⟨_, found, by simp [Piece.passages]⟩
  have served := sound.patron_of_signal found kind
  have wanted : ∀ {panel : Panel}, panel.Wants none := fun _ same => by cases same
  cases known : layout.outlet? straight.ab.exit with
  | none =>
      intro rule member panel sees
      obtain rfl := List.mem_singleton.mp member
      have free := (sound.sees_originAllowed found sees).1
      refine ⟨_, .inr (.arrive way served wanted (sound.mate_of_no_outlet known) free), ?_⟩
      simp only [carry, List.foldl_cons, List.foldl_nil, act, sound.role_route way]
      exact .refl _
  | some outlet =>
      obtain ⟨out, next⟩ := outlet
      have wired := sound.outlet known
      obtain ⟨mate, bound⟩ := mate_of_outlet known
      simp only at wired
      simp only [Enacts, Lane.originRules, List.forall_mem_cons]
      refine ⟨?_, ?_, ?_, by simp⟩
      · intro panel sees
        obtain ⟨allowed, sees⟩ := List.forall_mem_append.mp sees
        have free := (sound.sees_originAllowed found allowed).1
        simp only [List.forall_mem_cons, Sees, wired.granted, wired.denied] at sees
        refine ⟨_, .inr (.ask way served wanted bound free sees.2.1 sees.2.2.1), ?_⟩
        simp only [carry, List.foldl_cons, List.foldl_nil, act, wired.request,
          sound.role_pending way]
        exact .refl _
      · intro panel sees
        simp only [Sees, wired.granted, sound.role_pending way] at sees
        refine ⟨_, .inr (.confirm way served bound sees.1 sees.2.2.1), ?_⟩
        simp only [carry, List.foldl_cons, List.foldl_nil, act, sound.role_route way,
          sound.role_pending way]
        exact .refl _
      · intro panel sees
        simp only [Sees, wired.denied, sound.role_pending way] at sees
        refine ⟨_, .inr (.abandon way served bound sees.1 sees.2.2.1), ?_⟩
        simp only [carry, List.foldl_cons, List.foldl_nil, act, wired.request,
          sound.role_pending way]
        exact .refl _

theorem Sound.enacts_originReleaseRules : layout.Enacts id (some straight.ab)
    (straight.originReleaseRules occupancy request used (layout.outlet? straight.ab.exit)) := by
  have way : layout.Way id straight.ab := ⟨_, found, by simp [Piece.passages]⟩
  have helped := sound.role_helper found (straight_of_signal kind).1
  have released : ∀ {panel other : Panel}, panel (.route straight.ab) = true → other.Alike panel →
      ∃ after, layout.Deed id panel (some straight.ab) after ∧
        (layout.carry other (straight.originRelease (layout.outlet? straight.ab.exit))).Alike
          after := by
    intro panel other reserved alike
    rw [Straight.originRelease_eq, carry, List.foldl_append]
    exact sound.deed_release way (sound.patron_of_signal found kind) reserved
      (.inr fun _ same => by cases same)
      ((sound.alike_originCleared found other).trans (alike.update false))
  simp only [Enacts, Straight.originReleaseRules, List.forall_mem_cons, Sees, sound.role_route way]
  refine ⟨?_, ?_, ?_, by simp⟩
  · rintro panel ⟨reserved, _⟩
    have noted : Panel.Alike (update panel (.helper id) true) panel :=
      (Panel.Alike.refl panel).aside rfl true
    obtain ⟨after, deed, alike⟩ := released reserved noted
    refine ⟨after, .inr deed, ?_⟩
    simpa only [carry, List.foldl_cons, act, helped] using alike
  · rintro panel ⟨reserved, _⟩
    obtain ⟨after, deed, alike⟩ := released reserved (.refl panel)
    exact ⟨after, .inr deed, alike⟩
  · intro panel _
    simp only [carry, List.foldl_cons, List.foldl_nil, act, helped]
    exact ⟨panel, .inl rfl, (Panel.Alike.refl panel).aside rfl false⟩

end Signals

end Layout

end Interlocking

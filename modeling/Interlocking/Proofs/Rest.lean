import Interlocking.Proofs.Vacancy

/-!
# Layouts at rest

A layout is at rest when no rule fires by which a piece does one of its duties. Then each
request that was not answered waits for a passage in use. The passages that are negotiated
form chains, and at the end of each chain stands a passage that is reserved although the
grant for it is gone. Where there is no such passage nothing is negotiated.
-/

namespace Interlocking

namespace Layout

variable {layout : Layout} {id : PieceId} {piece : Piece} {passage : Passage} {panel : Panel}

/-- No piece has anything to do for a neighbour or for itself. -/
def AtRest (layout : Layout) (panel : Panel) : Prop :=
  ∀ {id piece}, layout.piece? id = some piece → ∀ duty ∈ piece.duties layout,
    layout.Rests panel duty.rules

/-- The request at a side waits for a passage: the passage begins behind the side, or it
does so behind a passage that is negotiated on behalf of the request. -/
inductive Awaits (layout : Layout) (negotiated : Passage → Prop) : SideId → Passage → Prop where
  | here {side : SideId} {passage : Passage} (asked : layout.Asked passage)
      (joined : layout.mate? passage.entry = some side) : Awaits layout negotiated side passage
  | beyond {side : SideId} {next passage : Passage} (asked : layout.Asked next)
      (joined : layout.mate? next.entry = some side) (waits : negotiated next)
      (further : Awaits layout negotiated next.exit passage) : Awaits layout negotiated side passage

/-- A signal works on its own passage. -/
theorem originates (layout : Layout) (member : passage ∈ piece.passages)
    (unasked : passage ∉ piece.asked) :
    ∃ straight request aspect used, piece.body = .straight straight ∧
      straight.kind = .signal request aspect used ∧ passage = straight.ab ∧
      ⟨some straight.ab, straight.signalRouteRules piece.occupancy request used
        (layout.outlet? straight.ab.exit)⟩ ∈ piece.duties layout := by
  obtain ⟨straight, request, aspect, used, body, kind, same⟩ :=
    Piece.signal_of_not_mem_asked member unasked
  exact ⟨straight, request, aspect, used, body, kind, same, by simp [Piece.duties, body, kind]⟩

/-- Behind a joint there is a piece. -/
theorem Sound.exists_owner (sound : layout.Sound) {side mate : SideId}
    (joined : layout.mate? side = some mate) :
    ∃ id piece, layout.piece? id = some piece ∧ side ∈ piece.sides := by
  obtain ⟨record, known, _⟩ := Option.bind_eq_some_iff.mp joined
  obtain ⟨piece, found, listed⟩ := sound.owned known
  exact ⟨record.owner, piece, found, listed⟩

variable (sound : layout.Sound) (rest : layout.AtRest panel)

include sound rest

/-- Answers that are not wanted any more have been taken back. -/
theorem AtRest.unanswered {side mate : SideId} (joined : layout.mate? side = some mate)
    (unrequested : panel (.request side) = false) :
    panel (.granted side) = false ∧ panel (.denied side) = false := by
  have back := sound.paired joined
  obtain ⟨id, piece, found, listed⟩ := sound.exists_owner back
  have reset : ∃ inlet, layout.Wired inlet side ∧ layout.Rests panel (answerResetRules inlet) := by
    rcases sound.attends found listed back with ⟨passage, asked, rfl⟩ | ⟨inlet, answers, given, member⟩
    · obtain ⟨site, index, inlet, serves, member⟩ := sound.negotiates found asked back
      refine ⟨inlet, serves.wired, fun rule own => rest found _ member rule ?_⟩
      simp only [Site.handshakeRules, List.mem_append]
      exact .inl (.inl (.inl (.inr own)))
    · exact ⟨inlet, given.wired, fun rule own =>
        rest found _ member rule (List.mem_append_right _ own)⟩
  obtain ⟨inlet, wired, rests⟩ := reset
  simp [Rests, answerResetRules, Sees, wired.granted, wired.denied, wired.request,
    unrequested] at rests
  exact rests.2

section Passages

variable (found : layout.piece? id = some piece) (member : passage ∈ piece.passages)
  (entered : passage ∈ piece.asked → ∃ asker, layout.mate? passage.entry = some asker)

include found member entered

/-- The piece works on a passage for which there is somebody: it takes answers from the exit
over, and stops to announce a release. -/
theorem AtRest.rests_outlet {outlet : Outlet} (known : layout.outlet? passage.exit = some outlet) :
    layout.Rests panel [
      { conditions := [.on passage.pending, .on outlet.bits.request, .on outlet.bits.granted] },
      { conditions := [.on passage.pending, .on outlet.bits.request, .on outlet.bits.denied] },
      { conditions := [.on outlet.bits.released, .off outlet.bits.granted] }] := by
  by_cases asked : passage ∈ piece.asked
  · obtain ⟨asker, joined⟩ := entered asked
    obtain ⟨site, index, inlet, serves, listed⟩ := sound.negotiates found asked joined
    have rests := rest found _ listed
    simp only [Rests, Site.handshakeRules, known, Site.acceptRules, releaseDoneRules,
      List.forall_mem_append, List.forall_mem_cons] at rests ⊢
    exact ⟨rests.1.1.1.1.2.2.1, rests.1.1.1.1.2.2.2.1, rests.2⟩
  · obtain ⟨straight, request, aspect, used, _, _, rfl, listed⟩ :=
      originates layout member asked
    have rests := rest found _ listed
    simp only [Rests, Lane.signalRouteRules, known, Lane.originRules, releaseDoneRules,
      List.forall_mem_append, List.forall_mem_cons] at rests ⊢
    exact ⟨rests.1.1.2.1, rests.1.1.2.2.1, rests.2⟩

end Passages

/-- Releases that were taken notice of are not announced any longer. -/
theorem AtRest.unreleased (announced : layout.Announced panel) {side mate : SideId}
    (joined : layout.mate? side = some mate) (ungranted : panel (.granted side) = false) :
    panel (.released side) = false := by
  by_contra released
  obtain ⟨id, passage, patron, ⟨piece, found, member⟩, rfl, served⟩ :=
    announced joined (by simpa using released)
  have entered : passage ∈ piece.asked → ∃ asker, layout.mate? passage.entry = some asker := by
    intro asked
    cases served with
    | neighbour _ joined => exact ⟨_, joined⟩
    | own unasked => exact absurd ⟨id, piece, found, asked⟩ unasked
  cases known : layout.outlet? passage.exit with
  | none =>
      rw [sound.mate_of_no_outlet known] at joined
      cases joined
  | some outlet =>
      have wired := sound.outlet known
      have rests := rest.rests_outlet sound found member entered known
      simp [Rests, Sees, wired.granted, wired.released, ungranted] at rests
      exact released rests.2

/-- A passage that is negotiated waits for an answer. -/
theorem AtRest.waits (orderly : layout.Orderly none panel) (linked : layout.Linked panel)
    (way : layout.Way id passage) (pending : panel (.pending passage) = true) :
    ∃ mate, layout.mate? passage.exit = some mate ∧ panel.Wants (some passage.exit) := by
  obtain ⟨mate, bound⟩ := linked.bound way pending
  have requested := (orderly.agreed.requested bound (sound.exit_inner way)).mpr
    ⟨id, passage, way, rfl, .inr pending⟩
  have role := sound.role_pending way
  obtain ⟨piece, found, member⟩ := way
  have entered : passage ∈ piece.asked → ∃ asker, layout.mate? passage.entry = some asker :=
    fun asked => linked.entered ⟨id, piece, found, asked⟩ (.inr pending)
  refine ⟨mate, bound, ?_⟩
  cases known : layout.outlet? passage.exit with
  | none =>
      rw [sound.mate_of_no_outlet known] at bound
      cases bound
  | some outlet =>
      have wired := sound.outlet known
      have rests := rest.rests_outlet sound found member entered known
      simp [Rests, Sees, role, wired.request, wired.granted, wired.denied, pending,
        requested] at rests
      simp [Panel.Wants, requested, rests.1, rests.2.1]

section Selection

variable {site : Site} {index : Nat} {inlet : Handshake} {asker : SideId}
  (serves : layout.Serves id piece site index passage inlet asker)

omit rest in
include serves in
/-- A request for a passage that is not in use, as the rules see it. -/
theorem Serves.sees_asked_of_wants (wanted : panel.Wants (some asker)) (unheld : ¬panel.Held passage)
    (selected : site.sharesEntry index passage = true → Fits panel id passage) :
    ∀ condition ∈ site.asked index passage inlet, layout.Sees panel condition := by
  obtain ⟨requested, ungranted, undenied⟩ := wanted asker rfl
  simp only [Panel.Held, not_or, Bool.not_eq_true] at unheld
  simp only [Site.asked, List.forall_mem_append, List.forall_mem_cons, Sees, serves.wired.request,
    serves.wired.granted, serves.wired.denied, sound.role_pending serves.way,
    sound.role_route serves.way]
  refine ⟨⟨requested, ungranted, undenied, unheld.2, unheld.1, by simp⟩, ?_⟩
  cases shares : site.sharesEntry index passage with
  | false => simp [Site.selector, shares]
  | true =>
      cases needed : passage.position with
      | none => simp [Site.selector, Site.required?, needed]
      | some position =>
          obtain ⟨var, role, required⟩ := serves.required sound needed
          simpa [Site.selector, shares, required, Sees, role] using selected shares position needed

omit rest in
include serves in
/-- Where the turnout does not select the passage, it selects another one from the same entry. -/
theorem Serves.exists_selected (shares : site.sharesEntry index passage = true)
    (unfit : ¬Fits panel id passage) :
    ∃ other ∈ piece.asked, other.entry = passage.entry ∧ Fits panel id other := by
  obtain ⟨other, rival, entries⟩ := List.any_eq_true.mp shares
  obtain ⟨place, away, known⟩ := List.mem_eraseIdx_iff_getElem?.mp rival
  have member : other ∈ piece.passages := serves.describes.passages ▸ List.mem_of_getElem? known
  have entries : other.entry = passage.entry := by simpa using entries
  have shaped := sound.shaped serves.found
  have differs : other ≠ passage := by
    intro same
    subst same
    have nodup := shaped.nodup
    rw [← serves.describes.passages] at nodup
    exact away ((List.getElem?_inj (List.getElem?_eq_some_iff.mp known).1 nodup).mp
      (known.trans serves.placed.symm))
  obtain ⟨wanted, needed, wants, needs, positions⟩ :=
    shaped.selects member serves.member entries differs
  refine ⟨other, ?_, entries, ?_⟩
  · by_contra unasked
    obtain ⟨straight, _, _, _, body, _⟩ := Piece.signal_of_not_mem_asked member unasked
    obtain ⟨var, movable⟩ := shaped.positioned member wants
    simp [Piece.position?, body] at movable
  · simp only [Fits, wants, needs, Option.some.injEq, forall_eq'] at unfit ⊢
    cases wanted <;> cases needed <;> simp_all [Position.bit]

variable (listed : ⟨some passage, site.handshakeRules index passage inlet
  (layout.outlet? passage.exit)⟩ ∈ piece.duties layout)

include serves listed

omit sound in
/-- A request that is not refused can be accepted. -/
theorem AtRest.sees_acceptable
    (asked : ∀ condition ∈ site.asked index passage inlet, layout.Sees panel condition) :
    ∀ condition ∈ site.acceptable index passage inlet, layout.Sees panel condition := by
  have unrefused : ∀ var value,
      { conditions := site.asked index passage inlet ++ [.bit var value]
        actions := [.raise inlet.denied] } ∈ site.denyRules index passage inlet →
      panel (layout.role var) = !value := by
    intro var value member
    have own : { conditions := site.asked index passage inlet ++ [.bit var value]
                 actions := [.raise inlet.denied] } ∈
        site.handshakeRules index passage inlet (layout.outlet? passage.exit) := by
      simp only [Site.handshakeRules, List.mem_append]
      exact .inl (.inl (.inl (.inl (.inl member))))
    have blocked := rest serves.found _ listed _ own
    by_contra met
    refine blocked (List.forall_mem_append.mpr ⟨asked, List.forall_mem_singleton.mpr ?_⟩)
    simpa [Sees] using met
  simp only [Site.acceptable, List.forall_mem_append, List.forall_mem_map,
    List.forall_mem_singleton]
  refine ⟨⟨⟨asked, ?_⟩, ?_⟩, ?_⟩
  · exact unrefused site.occupancy true List.mem_cons_self
  · intro bit conflicting
    apply unrefused bit true
    simp only [Site.denyRules, List.mem_cons, List.mem_append, List.mem_map]
    exact .inr (.inl ⟨bit, conflicting, rfl⟩)
  · cases demanded : site.demand? index passage with
    | none => simp
    | some demand =>
        have stands := unrefused demand.1 (!demand.2) (by simp [Site.denyRules, demanded])
        simpa [Sees] using stands

/-- A request for the passage that the turnout selects is left unanswered only while the
passage is in use. -/
theorem AtRest.held_of_selected (orderly : layout.Orderly none panel)
    (wanted : panel.Wants (some asker))
    (selected : site.sharesEntry index passage = true → Fits panel id passage) :
    panel.Held passage := by
  by_contra unheld
  have acceptable := rest.sees_acceptable serves listed
    (serves.sees_asked_of_wants sound wanted unheld selected)
  have free := (serves.sees_acceptable sound acceptable).2.2.1
  have accepts : layout.Rests panel
      (site.acceptRules index passage inlet (layout.outlet? passage.exit)) := by
    intro rule member
    apply rest serves.found _ listed
    simp only [Site.handshakeRules, List.mem_append]
    exact .inl (.inl (.inl (.inl (.inr member))))
  cases known : layout.outlet? passage.exit with
  | none =>
      rw [known] at accepts
      exact accepts _ List.mem_cons_self acceptable
  | some outlet =>
      -- Nothing is asked for at the exit, so no old answer stands there either.
      have wired := sound.outlet known
      obtain ⟨mate, bound⟩ := mate_of_outlet known
      have unrequested : panel (.request passage.exit) = false := by
        by_contra requested
        obtain ⟨place, other, way, exits, held⟩ :=
          (orderly.agreed.requested bound (sound.exit_inner serves.way)).mp (by simpa using requested)
        obtain rfl := sound.same_piece way serves.way exits
        exact free other way held
      obtain ⟨ungranted, undenied⟩ := rest.unanswered sound bound unrequested
      rw [known] at accepts
      refine accepts _ List.mem_cons_self (List.forall_mem_append.mpr ⟨acceptable, ?_⟩)
      simp [Sees, wired.request, wired.granted, wired.denied, unrequested, ungranted, undenied]

end Selection

/-- A request is left unanswered only while a passage that begins there is in use. -/
theorem AtRest.held_of_wanted (orderly : layout.Orderly none panel) {entry side : SideId}
    (joined : layout.mate? entry = some side) (wanted : panel.Wants (some side)) :
    ∃ passage, layout.Asked passage ∧ passage.entry = entry ∧ panel.Held passage := by
  obtain ⟨id, piece, found, listed⟩ := sound.exists_owner joined
  rcases sound.attends found listed joined with ⟨passage, asked, rfl⟩ | ⟨inlet, answers, given, member⟩
  · have isAsked : ∀ {other}, other ∈ piece.asked → layout.Asked other :=
      fun asked => ⟨id, piece, found, asked⟩
    obtain ⟨site, index, inlet, serves, member⟩ := sound.negotiates found asked joined
    by_cases fits : site.sharesEntry index passage = true → Fits panel id passage
    · exact ⟨passage, isAsked asked, rfl,
        rest.held_of_selected sound serves member orderly wanted fits⟩
    · obtain ⟨shares, unfit⟩ := Classical.not_imp.mp fits
      obtain ⟨other, selected, entries, fits⟩ := serves.exists_selected sound shares unfit
      obtain ⟨site, index, inlet, serves, member⟩ :=
        sound.negotiates found selected (entries ▸ joined)
      exact ⟨other, isAsked selected, entries,
        rest.held_of_selected sound serves member orderly wanted fun _ => fits⟩
  · obtain ⟨rule, own, enabled, _⟩ := given.covers panel wanted
    exact absurd enabled (rest found _ member rule (List.mem_append_left _ own))

/-- A passage is reserved although the grant for it is gone, and it is asked for again. -/
structure Stale (layout : Layout) (panel : Panel) (passage : Passage) : Prop where
  asked : layout.Asked passage
  reserved : panel (.route passage) = true
  wanted : ∃ asker, layout.mate? passage.entry = some asker ∧ panel.Wants (some asker)

/-- At the end of the chain of passages that wait for an answer stands a passage that is
reserved although the grant for it is gone. -/
theorem AtRest.awaits_stale (orderly : layout.Orderly none panel) (linked : layout.Linked panel)
    (ranked : layout.Ranked panel) {entry side : SideId} (joined : layout.mate? entry = some side)
    (wanted : panel.Wants (some side)) :
    ∃ stale, layout.Awaits (fun next => panel (.pending next) = true) side stale ∧
      layout.Stale panel stale := by
  obtain ⟨rank, bound, below, ascends⟩ := ranked
  -- The induction is on how far the rank of the waiting passage is below the bound.
  have chain : ∀ distance {id : PieceId} {passage : Passage}, bound - rank passage ≤ distance →
      layout.Way id passage → panel (.pending passage) = true →
      ∃ stale, layout.Awaits (fun next => panel (.pending next) = true) passage.exit stale ∧
        layout.Stale panel stale := by
    intro distance
    induction distance with
    | zero =>
        intro id passage near
        have lower := below passage
        omega
    | succ distance ih =>
        intro id passage near way pending
        obtain ⟨mate, bound, wanted⟩ := rest.waits sound orderly linked way pending
        have back := sound.paired bound
        obtain ⟨next, asked, rfl, held⟩ := rest.held_of_wanted sound orderly back wanted
        rcases held with reserved | negotiated
        · exact ⟨next, .here asked back, asked, reserved, passage.exit, back, wanted⟩
        · have further := ascends ⟨asked, back, .inr pending, .inl negotiated⟩
          obtain ⟨place, against⟩ := asked.way
          obtain ⟨stale, awaits, gone⟩ := ih (by omega) against negotiated
          exact ⟨stale, .beyond asked back negotiated awaits, gone⟩
  obtain ⟨next, asked, rfl, held⟩ := rest.held_of_wanted sound orderly joined wanted
  rcases held with reserved | negotiated
  · exact ⟨next, .here asked joined, asked, reserved, side, joined, wanted⟩
  · obtain ⟨place, way⟩ := asked.way
    obtain ⟨stale, awaits, gone⟩ := chain _ (Nat.le_refl _) way negotiated
    exact ⟨stale, .beyond asked joined negotiated awaits, gone⟩

section Vacant

variable (orderly : layout.Orderly none panel) (vacant : layout.Vacant panel)
  (undisturbed : layout.Undisturbed panel)

include orderly undisturbed

/-- Where no grant is gone, every request has been answered. -/
theorem AtRest.not_wanted {entry side : SideId} (joined : layout.mate? entry = some side) :
    ¬panel.Wants (some side) := by
  intro wanted
  obtain ⟨stale, _, asked, reserved, asker, bound, unanswered⟩ := rest.awaits_stale sound orderly
    undisturbed.linked undisturbed.ranked joined wanted
  have granted := undisturbed.standing asked bound reserved
  simp [(unanswered asker rfl).2.1] at granted

/-- Where no grant is gone, no passage is being negotiated. -/
theorem AtRest.not_pending (way : layout.Way id passage) : panel (.pending passage) = false := by
  by_contra pending
  obtain ⟨mate, bound, wanted⟩ :=
    rest.waits sound orderly undisturbed.linked way (by simpa using pending)
  exact rest.not_wanted sound orderly undisturbed (sound.paired bound) wanted

include vacant

omit orderly in
/-- A route that is not used is kept only because somebody asks for it. -/
theorem AtRest.requested_of_route (asked : layout.Asked passage)
    (reserved : panel (.route passage) = true) :
    ∃ asker, layout.mate? passage.entry = some asker ∧ panel (.request asker) = true := by
  obtain ⟨asker, joined⟩ := undisturbed.linked.entered asked (.inl reserved)
  obtain ⟨id, piece, found, member⟩ := asked
  obtain ⟨site, index, inlet, serves, listed⟩ := sound.negotiates found member joined
  have rests := rest found _ listed (site.withdrawnRule passage inlet (layout.outlet? passage.exit))
    (by simp [Site.handshakeRules])
  have unoccupied := vacant.unoccupied sound found
  rw [← serves.describes.occupancy] at unoccupied
  refine ⟨asker, joined, ?_⟩
  simpa [Site.withdrawnRule, Sees, sound.role_route serves.way, serves.describes.seen,
    serves.wired.request, reserved, vacant.seen, unoccupied] using rests

/-- If no endpoint and no signal asks for anything, nothing is reserved. -/
theorem AtRest.not_route
    (unasked : ∀ {side mate}, layout.mate? side = some mate → ¬layout.Inner side →
      panel (.request side) = false)
    (unsignalled : ∀ {id piece straight request aspect used}, layout.piece? id = some piece →
      piece.body = .straight straight → straight.kind = .signal request aspect used →
      panel (layout.role request) = false) (way : layout.Way id passage) :
    panel (.route passage) = false := by
  obtain ⟨rank, bound, below, ascends⟩ := undisturbed.ranked
  -- A reserved passage is asked for by a passage of lower rank, which is reserved as well.
  induction height : rank passage using Nat.strongRecOn generalizing id passage with
  | _ height ih =>
    by_contra reserved
    have reserved : panel (.route passage) = true := by simpa using reserved
    obtain ⟨piece, found, member⟩ := way
    by_cases asked : passage ∈ piece.asked
    · have isAsked : layout.Asked passage := ⟨id, piece, found, asked⟩
      obtain ⟨asker, joined, requested⟩ :=
        rest.requested_of_route sound vacant undisturbed isAsked reserved
      have inner : layout.Inner asker := by
        by_contra outer
        simp [unasked (sound.paired joined) outer] at requested
      obtain ⟨place, origin, against, rfl, held⟩ :=
        (orderly.agreed.requested (sound.paired joined) inner).mp requested
      have settled := rest.not_pending sound orderly undisturbed against
      have lower := ascends ⟨isAsked, joined, held,
        .inr ⟨reserved, undisturbed.standing isAsked joined reserved⟩⟩
      have unreserved := ih _ (height ▸ lower) against rfl
      simp [Panel.Held, settled, unreserved] at held
    · obtain ⟨straight, request, aspect, used, body, kind, rfl, listed⟩ :=
        originates layout member asked
      have rests := rest found _ listed
        { conditions := [.on straight.ab.route, .off straight.seen, .off request]
          actions := straight.originRelease (layout.outlet? straight.ab.exit) }
        (by simp [Lane.signalRouteRules])
      have route := sound.role_route ⟨piece, found, member⟩
      have seen := sound.role_seen found (show piece.seen? = some straight.seen by
        simp [Piece.seen?, body])
      have unrequested := unsignalled found body kind
      simp [Sees, route, seen, reserved, vacant.seen, unrequested] at rests

end Vacant

end Layout

end Interlocking

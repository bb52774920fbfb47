import Interlocking.Proofs.Duties

/-!
# Chains of reservations

A request is passed on from piece to piece, and the answer comes back the same way. The
passages on the way form a chain. This module shows what the deeds of the pieces maintain
about chains: a passage is negotiated only for one that is negotiated itself, no chain runs
in a circle, a grant stands on a reserved passage, and a reserved passage keeps its grant
until it is given up.
-/

namespace Interlocking

open Function (update)
open Panel (tell)

/-- Whether bits of this role tell of reservations. -/
def Role.reserving : Role → Bool
  | .request _ | .granted _ | .denied _ | .released _ | .route _ | .pending _ => true
  | _ => false

/-- The panels show the same reservations. -/
def Panel.Accords (panel other : Panel) : Prop :=
  ∀ role, role.reserving = true → panel role = other role

namespace Panel

variable {panel other : Panel}

theorem Alike.accords (alike : panel.Alike other) : panel.Accords other := by
  intro role concerned
  apply alike
  cases role <;> first | rfl | cases concerned

end Panel

namespace Layout

variable {layout : Layout} {id : PieceId} {work : Option Passage} {loose : Option SideId}
  {before after : Panel}

/-- What is known of requests on their way. -/
structure Linked (layout : Layout) (panel : Panel) : Prop where
  /-- A passage is negotiated only for one that is negotiated itself. -/
  forwarded : ∀ {passage asker}, layout.Asked passage → layout.mate? passage.entry = some asker →
    layout.Inner asker → panel (.pending passage) = true →
    ∃ id origin, layout.Way id origin ∧ origin.exit = asker ∧ panel (.pending origin) = true
  /-- There is somebody with whom to negotiate. -/
  bound : ∀ {id passage}, layout.Way id passage → panel (.pending passage) = true →
    ∃ mate, layout.mate? passage.exit = some mate
  /-- There is somebody who has asked. -/
  entered : ∀ {passage}, layout.Asked passage → panel.Held passage →
    ∃ asker, layout.mate? passage.entry = some asker

/-- No passage begins where routes end. -/
theorem Sound.not_asked_of_ends (sound : layout.Sound) {side : SideId} (ends : layout.Ends side)
    {passage : Passage} (asked : layout.Asked passage) : passage.entry ≠ side := by
  intro entries
  obtain ⟨⟨name, occupancy, body⟩, owner, kind⟩ := ends
  obtain ⟨record, known, found⟩ := Option.bind_eq_some_iff.mp owner
  rcases kind with ⟨own, rfl⟩ | ⟨straight, request, aspect, used, rfl, kind, rfl⟩
  · obtain ⟨piece, found', listed⟩ := sound.owned known
    obtain rfl := Option.some.inj (found.symm.trans found')
    cases sound.mem_asked found listed asked entries
  · have enters : straight.ab.entry = straight.a :=
      congrArg Course.entry (sound.straight_courses found).2.1
    exact sound.signal_not_asked found kind asked (entries.trans enters.symm)

/-- The patron of a passage that is asked for is the neighbour. -/
theorem Patron.eq_some {passage : Passage} {patron : Option SideId} {asker : SideId}
    (served : layout.Patron passage patron) (asked : layout.Asked passage)
    (joined : layout.mate? passage.entry = some asker) : patron = some asker := by
  cases served with
  | neighbour _ bound => exact bound.symm.trans joined
  | own unasked => exact absurd asked unasked

/-- A request that a neighbour passes on stands for a passage that is negotiated. -/
theorem Orderly.origin_pending (orderly : layout.Orderly loose before) (sound : layout.Sound)
    {passage : Passage} {patron : Option SideId} {asker : SideId}
    (served : layout.Patron passage patron) (asked : layout.Asked passage)
    (joined : layout.mate? passage.entry = some asker) (inner : layout.Inner asker)
    (wanted : before.Wants patron) :
    ∃ id origin, layout.Way id origin ∧ origin.exit = asker ∧ before (.pending origin) = true := by
  obtain rfl := served.eq_some asked joined
  have back := sound.paired joined
  obtain ⟨requested, ungranted, _⟩ := wanted asker rfl
  obtain ⟨id, origin, way, rfl, held⟩ := (orderly.agreed.requested back inner).mp requested
  refine ⟨id, origin, way, rfl, held.resolve_left ?_⟩
  intro reserved
  rw [(orderly.agreed.granted way back reserved).1] at ungranted
  cases ungranted

namespace Deed

variable (sound : layout.Sound) (orderly : layout.Orderly loose before)
  (linked : layout.Linked before) (deed : layout.Deed id before work after)

section

include sound orderly linked deed

theorem forwarded {passage : Passage} {asker : SideId} (asked : layout.Asked passage)
    (joined : layout.mate? passage.entry = some asker) (inner : layout.Inner asker)
    (pending : after (.pending passage) = true) :
    ∃ id origin, layout.Way id origin ∧ origin.exit = asker ∧ after (.pending origin) = true := by
  have known := linked.forwarded asked joined inner
  cases deed with
  | refuse | concede | arrive | release | leave | withdraw | forget | settle => simp_all
  | @ask changed patron mate way served wanted =>
      have origin : ∃ id origin, layout.Way id origin ∧ origin.exit = asker ∧
          before (.pending origin) = true := by
        by_cases same : passage = changed
        · subst same
          exact orderly.origin_pending sound served asked joined inner wanted
        · exact known (by simpa [same] using pending)
      obtain ⟨place, origin, against, exits, waits⟩ := origin
      refine ⟨place, origin, against, exits, ?_⟩
      simp [Function.update_apply, waits]
  | @confirm changed patron mate way served bound negotiated granted =>
      have differs : passage ≠ changed := by
        intro same
        simp [same] at pending
      have old : before (.pending passage) = true := by simpa [differs] using pending
      obtain ⟨place, origin, against, exits, waits⟩ := known old
      refine ⟨place, origin, against, exits, ?_⟩
      have others : origin ≠ changed := by
        intro same
        subst same
        rw [exits, (orderly.agreed.waiting asked joined old).1] at granted
        cases granted
      simpa [others] using waits
  | @abandon changed patron mate way served bound negotiated denied =>
      have differs : passage ≠ changed := by
        intro same
        simp [same] at pending
      have old : before (.pending passage) = true := by simpa [differs] using pending
      obtain ⟨place, origin, against, exits, waits⟩ := known old
      refine ⟨place, origin, against, exits, ?_⟩
      have others : origin ≠ changed := by
        intro same
        subst same
        rw [exits, (orderly.agreed.waiting asked joined old).2] at denied
        cases denied
      simpa [others] using waits

end

section

include linked deed

theorem bound {place : PieceId} {passage : Passage} (way : layout.Way place passage)
    (pending : after (.pending passage) = true) :
    ∃ mate, layout.mate? passage.exit = some mate := by
  have known := linked.bound way
  cases deed with
  | refuse | concede | arrive | release | leave | withdraw | forget | settle => simp_all
  | @ask changed patron mate _ served wanted bound =>
      by_cases same : passage = changed
      · exact ⟨mate, same ▸ bound⟩
      · exact known (by simpa [same] using pending)
  | @confirm changed | @abandon changed =>
      have differs : passage ≠ changed := by
        intro same
        simp [same] at pending
      exact known (by simpa [differs] using pending)

theorem entered {passage : Passage} (asked : layout.Asked passage) (held : after.Held passage) :
    ∃ asker, layout.mate? passage.entry = some asker := by
  have known := linked.entered asked
  have began : ∀ {changed patron}, layout.Patron changed patron → passage = changed →
      ∃ asker, layout.mate? passage.entry = some asker := by
    intro changed patron served same
    subst same
    cases served with
    | neighbour _ joined => exact ⟨_, joined⟩
    | own unasked => exact absurd asked unasked
  cases deed with
  | refuse | concede | withdraw | forget | settle => exact known (by simpa [Panel.Held] using held)
  | @arrive changed patron way served | @ask changed patron mate way served
  | @confirm changed patron mate way served | @abandon changed patron mate way served
  | @release changed patron mate way served | @leave changed patron way served =>
      by_cases same : passage = changed
      · exact began served same
      · exact known (by simpa [Panel.Held, same] using held)

end

include sound orderly linked deed

theorem linked_after : layout.Linked after where
  forwarded := deed.forwarded sound orderly linked
  bound := deed.bound linked
  entered := deed.entered linked

end Deed

/-- A passage in use leads to the one that is negotiated or reserved on its behalf. -/
structure Leads (layout : Layout) (panel : Panel) (origin passage : Passage) : Prop where
  asked : layout.Asked passage
  joined : layout.mate? passage.entry = some origin.exit
  used : panel.Held origin
  holds : panel (.pending passage) = true ∨
    panel (.route passage) = true ∧ panel (.granted origin.exit) = true

/-- No chain of reservations runs in a circle: along each chain the ranks ascend. -/
def Ranked (layout : Layout) (panel : Panel) : Prop :=
  ∃ (rank : Passage → Nat) (bound : Nat), (∀ passage, rank passage < bound) ∧
    ∀ {origin passage}, layout.Leads panel origin passage → rank origin < rank passage

/-- Where less is in use, less leads on. -/
theorem Leads.mono {origin passage : Passage} (leads : layout.Leads after origin passage)
    (routes : ∀ passage, after (.route passage) = true → before (.route passage) = true)
    (pendings : ∀ passage, after (.pending passage) = true → before (.pending passage) = true)
    (grants : ∀ side, after (.granted side) = true → before (.granted side) = true) :
    layout.Leads before origin passage where
  asked := leads.asked
  joined := leads.joined
  used := leads.used.imp (routes origin) (pendings origin)
  holds := leads.holds.imp (pendings passage) (And.imp (routes passage) (grants origin.exit))

/-- Passages with one patron belong to one piece. -/
theorem Patron.way_of_mem {changed passage : Passage} {patron : Option SideId} {side : SideId}
    (served : layout.Patron changed patron) (sound : layout.Sound) (way : layout.Way id changed)
    (told : side ∈ patron) (asked : layout.Asked passage)
    (joined : layout.mate? passage.entry = some side) : layout.Way id passage := by
  obtain ⟨place, against⟩ := asked.way
  cases served with
  | own => cases told
  | neighbour _ bound =>
      obtain rfl := Option.some.inj told
      have entries := sound.mate_injective joined bound
      obtain rfl := (sound.borders against).1.unique (entries ▸ (sound.borders way).1)
      exact against

namespace Deed

variable (sound : layout.Sound) (orderly : layout.Orderly loose before)
  (linked : layout.Linked before)

include sound orderly linked

/-- A passage for which a piece has just asked does not lead on yet: nobody can have dealt
with the new request, and an older one would need a passage of the piece in use. -/
theorem not_leads_of_ask {passage : Passage} {patron : Option SideId} {mate : SideId}
    (way : layout.Way id passage) (served : layout.Patron passage patron)
    (wanted : before.Wants patron) (bound : layout.mate? passage.exit = some mate)
    (free : layout.Free before id) (ungranted : before (.granted passage.exit) = false)
    (next : Passage) : ¬layout.Leads
      (update (update before (.pending passage) true) (.request passage.exit) true) passage next := by
  intro ⟨asked, joined, _, holds⟩
  have inner := sound.exit_inner way
  have pending : ∃ id origin, layout.Way id origin ∧ origin.exit = passage.exit ∧
      before (.pending origin) = true := by
    by_cases same : next = passage
    · subst same
      exact orderly.origin_pending sound served asked joined inner wanted
    · apply linked.forwarded asked joined inner
      simpa [same, ungranted] using holds
  obtain ⟨place, origin, against, exits, waits⟩ := pending
  obtain rfl := sound.same_piece against way exits
  exact free origin against (.inr waits)

/-- A deed lets a passage lead to another only if that one is new and does not lead on. -/
theorem leads (deed : layout.Deed id before work after) {origin passage : Passage}
    (leads : layout.Leads after origin passage) : layout.Leads before origin passage ∨
      work = some passage ∧ ∀ next, ¬layout.Leads after passage next := by
  cases deed with
  | refuse | forget | settle => exact .inl (leads.mono (by simp) (by simp) (by simp))
  | abandon | release | leave | withdraw =>
      left
      apply leads.mono
      · simp +contextual [Function.update_apply]
      · simp +contextual [Function.update_apply]
      · simp +contextual [Function.update_apply]
  | @concede _ entry asker borders bound wanted ends =>
      obtain ⟨asked, joined, used, holds⟩ := leads
      have differs : origin.exit ≠ asker := by
        intro same
        exact sound.not_asked_of_ends ends asked (sound.mate_injective (same ▸ joined) bound)
      exact .inl ⟨asked, joined, by simpa [Panel.Held] using used, by simpa [differs] using holds⟩
  | @arrive changed patron way served wanted unbound free =>
      -- Behind the new passage the track ends.
      have alone : ∀ next, ¬layout.Leads
          (tell patron .granted (update before (.route changed) true)) changed next := by
        intro next leads
        have bound := sound.paired leads.joined
        rw [unbound] at bound
        cases bound
      by_cases same : passage = changed
      · exact .inr ⟨same ▸ rfl, same ▸ alone⟩
      · have others : origin ≠ changed := fun equal => alone passage (equal ▸ leads)
        obtain ⟨asked, joined, used, holds⟩ := leads
        have used : before.Held origin := by simpa [Panel.Held, others] using used
        refine .inl ⟨asked, joined, used, ?_⟩
        simp only [Panel.tell_granted_iff] at holds
        rcases holds with pending | ⟨reserved, told | granted⟩
        · exact .inl (by simpa using pending)
        · have reserved : before (.route passage) = true := by simpa [same] using reserved
          have against := served.way_of_mem sound way told asked joined
          exact absurd (.inl reserved) (free passage against)
        · exact .inr ⟨by simpa [same] using reserved, by simpa using granted⟩
  | @ask changed patron mate way served wanted bound free ungranted undenied =>
      have alone := not_leads_of_ask sound orderly linked way served wanted bound free ungranted
      by_cases same : passage = changed
      · exact .inr ⟨same ▸ rfl, same ▸ alone⟩
      · have others : origin ≠ changed := fun equal => alone passage (equal ▸ leads)
        obtain ⟨asked, joined, used, holds⟩ := leads
        exact .inl ⟨asked, joined, by simpa [Panel.Held, others] using used,
          by simpa [same] using holds⟩
  | @confirm changed patron mate way served bound pending granted =>
      -- The passage was in use before, and led to what it leads to now.
      obtain ⟨asked, joined, used, holds⟩ := leads
      have used : before.Held origin := by
        by_cases same : origin = changed
        · exact same ▸ .inr pending
        · simpa [Panel.Held, same] using used
      refine .inl ⟨asked, joined, used, ?_⟩
      by_cases same : passage = changed
      · exact .inl (same ▸ pending)
      · simp only [Panel.tell_granted_iff] at holds
        rcases holds with pending | ⟨reserved, told | granted⟩
        · exact .inl (by simpa [same] using pending)
        · have reserved : before (.route passage) = true := by simpa [same] using reserved
          have against := served.way_of_mem sound way told asked joined
          exact absurd (orderly.exclusive.alone against way (.inl reserved) (.inr pending)) same
        · exact .inr ⟨by simpa [same] using reserved, by simpa using granted⟩

/-- A new passage gets the highest rank. -/
theorem ranked (deed : layout.Deed id before work after) (ranked : layout.Ranked before) :
    layout.Ranked after := by
  obtain ⟨rank, bound, below, ascends⟩ := ranked
  by_cases new : ∃ passage, work = some passage ∧ ∀ next, ¬layout.Leads after passage next
  · obtain ⟨changed, worked, alone⟩ := new
    refine ⟨update rank changed bound, bound + 1, ?_, ?_⟩
    · intro passage
      have lower := below passage
      by_cases same : passage = changed
      · simp [same]
      · simp only [Function.update_of_ne same]
        omega
    · intro origin passage leads
      have others : origin ≠ changed := fun same => alone passage (same ▸ leads)
      rw [Function.update_of_ne others]
      by_cases same : passage = changed
      · simpa [same] using below origin
      · rw [Function.update_of_ne same]
        rcases deed.leads sound orderly linked leads with old | ⟨equal, _⟩
        · exact ascends old
        · exact absurd (Option.some.inj (equal.symm.trans worked)) same
  · refine ⟨rank, bound, below, ?_⟩
    intro origin passage leads
    rcases deed.leads sound orderly linked leads with old | fresh
    · exact ascends old
    · exact absurd ⟨passage, fresh⟩ new

end Deed

section Grants

/-- A grant that somebody makes use of stands on a reserved passage, or routes end there. -/
def Backed (layout : Layout) (panel : Panel) : Prop :=
  ∀ {entry side}, layout.mate? entry = some side → layout.Inner side →
    panel (.granted side) = true → panel (.request side) = true →
    layout.Ends entry ∨ ∃ passage, layout.Asked passage ∧ passage.entry = entry ∧
      panel (.route passage) = true

/-- A reserved passage has its grant, unless the piece at work is about to give it up. -/
def Kept (layout : Layout) (working : PieceId) (panel : Panel) : Prop :=
  ∀ {place passage asker}, layout.Way place passage → layout.Asked passage →
    layout.mate? passage.entry = some asker → panel (.route passage) = true →
    panel (.granted asker) = true ∨ place = working ∧ panel (.request asker) = false

/-- Without a train in sight, a route is given up only if it is not asked for any more. -/
theorem Patron.not_asked_of_done {passage : Passage} {patron : Option SideId}
    (served : layout.Patron passage patron) (calm : before (.seen id) = false)
    (done : before (.seen id) = true ∨ before.Withdrawn patron) (asked : layout.Asked passage)
    {asker : SideId} (joined : layout.mate? passage.entry = some asker) :
    before (.request asker) = false := by
  have withdrawn := done.resolve_left (by simp [calm])
  exact withdrawn asker (served.eq_some asked joined)

theorem Deed.backed (deed : layout.Deed id before work after) (sound : layout.Sound)
    (calm : before (.seen id) = false) (backed : layout.Backed before) : layout.Backed after := by
  intro entry side joined inner granted requested
  have known := backed joined inner
  -- A passage that is given up was not asked for any more, so it is not the one that is granted.
  have remains : ∀ {changed patron}, layout.Patron changed patron →
      (before (.seen id) = true ∨ before.Withdrawn patron) → before (.granted side) = true →
      before (.request side) = true → layout.Ends entry ∨ ∃ passage, layout.Asked passage ∧
        passage.entry = entry ∧ passage ≠ changed ∧ before (.route passage) = true := by
    intro changed patron served done granted asking
    refine (known granted asking).imp_right ?_
    rintro ⟨passage, asked, rfl, holds⟩
    refine ⟨passage, asked, rfl, ?_, holds⟩
    intro same
    subst same
    simp [served.not_asked_of_done calm done asked joined] at asking
  cases deed with
  | refuse | forget | settle => simpa using known (by simpa using granted) (by simpa using requested)
  | @concede _ place asker borders bound wanted ends =>
      by_cases same : side = asker
      · subst same
        exact .inl (sound.mate_injective joined bound ▸ ends)
      · simpa using known (by simpa [same] using granted) (by simpa using requested)
  | @arrive changed patron way served | @confirm changed patron mate way served =>
      rw [Panel.tell_granted_iff] at granted
      rcases granted with told | granted
      · cases served with
        | own => cases told
        | neighbour asked bound =>
            obtain rfl := Option.some.inj told
            exact .inr ⟨changed, asked, sound.mate_injective bound joined, by simp⟩
      · rcases known (by simpa using granted) (by simpa using requested) with
          ends | ⟨passage, asked, entries, reserved⟩
        · exact .inl ends
        · exact .inr ⟨passage, asked, entries, by simp [Function.update_apply, reserved]⟩
  | @ask changed patron mate way served wanted bound free ungranted undenied =>
      have differs : side ≠ changed.exit := by
        intro same
        simp [same, ungranted] at granted
      simpa using known (by simpa using granted) (by simpa [differs] using requested)
  | @abandon changed =>
      have differs : side ≠ changed.exit := by
        intro same
        simp [same] at requested
      simpa using known (by simpa using granted) (by simpa [differs] using requested)
  | @release changed patron mate way served bound reserved done =>
      have differs : side ≠ changed.exit := by
        intro same
        simp [same] at requested
      refine (remains served done (by simpa using granted)
        (by simpa [differs] using requested)).imp_right ?_
      rintro ⟨passage, asked, entries, others, holds⟩
      exact ⟨passage, asked, entries, by simpa [others] using holds⟩
  | @leave changed patron way served unbound reserved done =>
      refine (remains served done (by simpa using granted)
        (by simpa using requested)).imp_right ?_
      rintro ⟨passage, asked, entries, others, holds⟩
      exact ⟨passage, asked, entries, by simpa [others] using holds⟩
  | @withdraw _ place asker =>
      have differs : side ≠ asker := by
        intro same
        simp [same] at granted
      simpa using known (by simpa [differs] using granted) (by simpa using requested)

/-- Releases are announced at the ends of passages that could be reserved. -/
def Announced (layout : Layout) (panel : Panel) : Prop :=
  ∀ {side mate}, layout.mate? side = some mate → panel (.released side) = true →
    ∃ id passage patron, layout.Way id passage ∧ passage.exit = side ∧ layout.Patron passage patron

theorem Deed.announced (deed : layout.Deed id before work after) (announced : layout.Announced before) :
    layout.Announced after := by
  intro side mate joined released
  have known := announced joined
  cases deed with
  | refuse | concede | arrive | ask | confirm | abandon | leave | withdraw | forget =>
      exact known (by simpa using released)
  | @release changed patron _ way served =>
      by_cases same : side = changed.exit
      · exact ⟨id, changed, patron, way, same.symm, served⟩
      · exact known (by simpa [same] using released)
  | @settle _ exit =>
      have differs : side ≠ exit := by
        intro same
        simp [same] at released
      exact known (by simpa [differs] using released)

/-- What is released although it is granted is not asked for any more. -/
theorem Announced.unrequested (announced : layout.Announced before)
    (orderly : layout.Orderly loose before) (sound : layout.Sound) {side mate : SideId}
    (joined : layout.mate? side = some mate) (granted : before (.granted side) = true)
    (released : before (.released side) = true) : before (.request side) = false := by
  by_contra requested
  obtain ⟨place, passage, patron, way, rfl, served⟩ := announced joined released
  have inner := sound.exit_inner way
  obtain ⟨other, rival, against, exits, held⟩ :=
    (orderly.agreed.requested joined inner).mp (by simpa using requested)
  rw [← exits] at joined granted released
  rcases held with reserved | pending
  · simp [(orderly.agreed.granted against joined reserved).2.2] at released
  · simp [(orderly.agreed.quiet against joined pending released).2] at granted

theorem Deed.kept (deed : layout.Deed id before work after) (sound : layout.Sound)
    (orderly : layout.Orderly loose before) (announced : layout.Announced before)
    (kept : layout.Kept id before) : layout.Kept id after := by
  intro place passage asker against asked joined reserved
  have known := kept against asked joined
  cases deed with
  | refuse | forget | settle => simpa using known (by simpa using reserved)
  | concede =>
      rcases known (by simpa using reserved) with granted | given
      · exact .inl (by simp [Function.update_apply, granted])
      · exact .inr (by simpa using given)
  | @arrive changed patron way served | @confirm changed patron mate way served =>
      rw [Panel.tell_granted_iff]
      by_cases same : passage = changed
      · subst same
        exact .inl (.inl (served.eq_some asked joined))
      · rcases known (by simpa [same] using reserved) with granted | given
        · exact .inl (.inr (by simpa using granted))
        · exact .inr (by simpa using given)
  | @ask changed patron mate way served wanted bound free ungranted undenied =>
      -- A piece of which a passage is reserved does not ask.
      have old : before (.route passage) = true := by simpa using reserved
      rcases known old with granted | ⟨rfl, _⟩
      · exact .inl (by simpa using granted)
      · exact absurd (.inl old) (free passage against)
  | abandon =>
      rcases known (by simpa using reserved) with granted | ⟨working, unrequested⟩
      · exact .inl (by simpa using granted)
      · exact .inr ⟨working, by simp [Function.update_apply, unrequested]⟩
  | @release changed | @leave changed =>
      have differs : passage ≠ changed := by
        intro same
        simp [same] at reserved
      rcases known (by simpa [differs] using reserved) with granted | ⟨working, unrequested⟩
      · exact .inl (by simpa using granted)
      · exact .inr ⟨working, by simp [Function.update_apply, unrequested]⟩
  | @withdraw _ entry other borders bound granted unused =>
      by_cases same : asker = other
      · subst same
        have entries := sound.mate_injective joined bound
        have working := (sound.borders against).1.unique (entries ▸ borders)
        refine .inr ⟨working, ?_⟩
        rcases unused with released | unrequested
        · simpa using announced.unrequested orderly sound (sound.paired bound) granted released
        · simpa using unrequested
      · simpa [same] using known (by simpa using reserved)

end Grants

section Elsewhere

/-- Requests on their way are told by the bits of the passages. -/
theorem Linked.congr (linked : layout.Linked before)
    (routes : ∀ passage, after (.route passage) = before (.route passage))
    (pendings : ∀ passage, after (.pending passage) = before (.pending passage)) :
    layout.Linked after := by
  obtain ⟨forwarded, bound, entered⟩ := linked
  simp only [Panel.Held, ← routes, ← pendings] at forwarded bound entered
  exact ⟨forwarded, bound, entered⟩

theorem Ranked.congr (ranked : layout.Ranked before)
    (routes : ∀ passage, after (.route passage) = before (.route passage))
    (pendings : ∀ passage, after (.pending passage) = before (.pending passage))
    (grants : ∀ side, after (.granted side) = before (.granted side)) : layout.Ranked after := by
  obtain ⟨rank, bound, below, ascends⟩ := ranked
  refine ⟨rank, bound, below, fun leads => ascends (leads.mono ?_ ?_ ?_)⟩
  · exact fun passage reserved => (routes passage).symm.trans reserved
  · exact fun passage pending => (pendings passage).symm.trans pending
  · exact fun side granted => (grants side).symm.trans granted

/-- Whether a grant is used is told by the requests at inner sides. -/
theorem Backed.congr (backed : layout.Backed before)
    (routes : ∀ passage, after (.route passage) = before (.route passage))
    (grants : ∀ side, after (.granted side) = before (.granted side))
    (requests : ∀ side, layout.Inner side → after (.request side) = before (.request side)) :
    layout.Backed after := by
  intro entry side joined inner granted requested
  simp only [routes]
  exact backed joined inner ((grants side).symm.trans granted)
    ((requests side inner).symm.trans requested)

theorem Announced.congr (announced : layout.Announced before)
    (releases : ∀ side, after (.released side) = before (.released side)) :
    layout.Announced after :=
  fun joined released => announced joined ((releases _).symm.trans released)

end Elsewhere

end Layout

end Interlocking

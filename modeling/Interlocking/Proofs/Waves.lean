import Mathlib.Data.Bool.Basic

/-!
# Waves along a line

On a line of pieces, requests run from the entry of the line to its end, and answers run
back. This module follows the bits that each piece writes, apart from any layout. In a cycle
every piece takes one turn, and whether a neighbour has had its turn in the same cycle decides
whether a piece sees what the neighbour has written in this cycle or in the one before. A wave
says for each piece what it has written after any number of turns.
-/

namespace Interlocking

/-- What a piece of a line looks at besides the bits that it writes: the request and the
release at its entry, whether it is occupied, and the answer at its exit. -/
@[ext] structure Cue where
  request : Bool := false
  released : Bool := false
  occupied : Bool := false
  granted : Bool := false
  denied : Bool := false
  deriving DecidableEq, Repr

/-- The bits that a piece of a line writes: the answer at its entry, the marks of the passage,
and the request and the release at its exit. -/
structure Hop where
  granted : Bool := false
  denied : Bool := false
  pending : Bool := false
  route : Bool := false
  request : Bool := false
  released : Bool := false
  deriving DecidableEq, Repr

/-- Something that a piece does with its bits under a condition. -/
structure Reflex where
  when : Cue → Hop → Bool
  act : Hop → Hop

namespace Reflex

/-- Does it if the condition holds. -/
def run (cue : Cue) (hop : Hop) (reflex : Reflex) : Hop :=
  if reflex.when cue hop then reflex.act hop else hop

/-- There is a request that was not dealt with yet. -/
def asked (cue : Cue) (hop : Hop) : Bool :=
  cue.request && !hop.granted && !hop.denied && !hop.pending && !hop.route

/-- An occupied piece refuses. -/
def refuse : Reflex where
  when cue hop := asked cue hop && cue.occupied
  act hop := { hop with denied := true }

/-- At the end of the track the route is set at once. -/
def arrive : Reflex where
  when cue hop := asked cue hop && !cue.occupied
  act hop := { hop with route := true, granted := true }

/-- Elsewhere the request is passed on. -/
def forward : Reflex where
  when cue hop := asked cue hop && !cue.occupied && !hop.request && !cue.granted && !cue.denied
  act hop := { hop with pending := true, request := true }

/-- A grant is handed back. -/
def confirm : Reflex where
  when cue hop := hop.pending && hop.request && cue.granted
  act hop := { hop with route := true, pending := false, granted := true }

/-- A denial is handed back. -/
def abandon : Reflex where
  when cue hop := hop.pending && hop.request && cue.denied
  act hop := { hop with pending := false, request := false, denied := true }

/-- A grant is taken back when the route was released. -/
def dismiss : Reflex where
  when cue hop := cue.released && hop.granted
  act hop := { hop with granted := false }

/-- A grant is taken back when the request is gone. -/
def revoke : Reflex where
  when cue hop := !cue.request && hop.granted
  act hop := { hop with granted := false }

/-- A denial is taken back when the request is gone. -/
def relent : Reflex where
  when cue hop := !cue.request && hop.denied
  act hop := { hop with denied := false }

/-- A route is given up that is not asked for any more; a piece behind the exit is told. -/
def withdraw (linked : Bool) : Reflex where
  when cue hop := hop.route && !cue.occupied && !cue.request
  act hop := if linked then { hop with route := false, request := false, released := true }
    else { hop with route := false }

/-- The release is not announced any longer when the grant is gone. -/
def finish : Reflex where
  when cue hop := hop.released && !cue.granted
  act hop := { hop with released := false }

end Reflex

/-- The reflexes of a piece in order. The last piece of a line is not linked to a next one. -/
def Hop.reflexes (linked : Bool) : List Reflex :=
  [Reflex.refuse] ++ (if linked then [Reflex.forward, .confirm, .abandon] else [.arrive]) ++
    [Reflex.dismiss, .revoke, .relent] ++ [Reflex.withdraw linked] ++
    (if linked then [Reflex.finish] else [])

/-- What a piece makes of its bits in a turn. -/
def Hop.turn (linked : Bool) (cue : Cue) (hop : Hop) : Hop :=
  (Hop.reflexes linked).foldl (Reflex.run cue) hop

/-- What is given on a line: its length, whether a route over the line is asked for, and which
of its pieces are occupied. -/
structure Setting where
  length : Nat
  request : Bool
  occupied : Nat → Bool

namespace Setting

variable (setting : Setting)

/-- Whether there is a piece behind the one at a place. -/
def linked (place : Nat) : Bool := place + 1 < setting.length

/-- What the piece at a place looks at. -/
def cue (hops : Nat → Hop) (place : Nat) : Cue where
  request :=
    match place with
    | 0 => setting.request
    | previous + 1 => (hops previous).request
  released :=
    match place with
    | 0 => false
    | previous + 1 => (hops previous).released
  occupied := setting.occupied place
  granted := setting.linked place && (hops (place + 1)).granted
  denied := setting.linked place && (hops (place + 1)).denied

/-- What the piece at a place makes of its bits in a turn. -/
def turn (hops : Nat → Hop) (place : Nat) : Hop :=
  (hops place).turn (setting.linked place) (setting.cue hops place)

end Setting

/-- The course of a line over the cycles. Whether a piece is followed in each cycle by the
next one, or comes after it, is given with the line. -/
structure Wave (setting : Setting) (follows : Nat → Bool) where
  /-- What the piece at a place has written after a number of turns. -/
  plan : Nat → Nat → Hop
  /-- The number of cycles after which nothing changes any more. -/
  last : Nat
  /-- What the piece at a place has written in the end. -/
  final : Nat → Hop
  turn : ∀ {hops place count}, place < setting.length → hops place = plan place count →
    (∀ previous, place = previous + 1 →
      hops previous = plan previous (count + (follows previous).toNat)) →
    hops (place + 1) = plan (place + 1) (count + (!follows place).toNat) →
    setting.turn hops place = plan place (count + 1)
  /-- No piece is reserved in front of an occupied one. -/
  vacant : ∀ {place count}, setting.linked place = true → (plan place count).route = true →
    setting.occupied (place + 1) = false
  reached : ∀ {place}, place < setting.length → plan place last = final place
  still : ∀ {place}, place < setting.length → ∀ reflex ∈ Hop.reflexes (setting.linked place),
    reflex.when (setting.cue final place) (final place) = false

/-- The number of the turn in which a piece sees for the first time what the piece at the
entry has seen in its first turn. -/
def arrival (follows : Nat → Bool) : Nat → Nat
  | 0 => 1
  | place + 1 => arrival follows place + (!follows place).toNat

section Arrival

variable (follows : Nat → Bool)

theorem arrival_pos (place : Nat) : 0 < arrival follows place := by
  induction place with
  | zero => exact Nat.one_pos
  | succ place ih => exact Nat.lt_of_lt_of_le ih (Nat.le_add_right _ _)

theorem arrival_le (place : Nat) : arrival follows place ≤ place + 1 := by
  induction place with
  | zero => exact Nat.le_refl _
  | succ place ih =>
      simp only [arrival]
      have hop := Bool.toNat_le (!follows place)
      omega

end Arrival

namespace Setting

variable {setting : Setting} {hops : Nat → Hop} {place : Nat}

/-- A turn is known from what the piece looks at and what it has written. -/
theorem turn_eq {cue : Cue} {hop next : Hop} (own : hops place = hop)
    (looks : setting.cue hops place = cue)
    (table : hop.turn (setting.linked place) cue = next) : setting.turn hops place = next := by
  rw [turn, own, looks, table]

end Setting

section Tables

theorem Hop.turn_idle : ∀ linked occupied : Bool,
    Hop.turn linked { occupied } {} = {} := by decide

theorem Hop.turn_granting : ∀ linked seen sees told tells : Bool,
    (seen = true → sees = true) → (told = true → tells = true) → (told = true → seen = true) →
    (tells = true → sees = true) → (linked = true → tells = true → seen = true) →
    (linked = false → told = seen ∧ tells = sees) →
    Hop.turn linked { request := sees, granted := linked && tells }
        { granted := told, pending := seen && !told, route := told, request := linked && seen } =
      { granted := tells, pending := sees && !tells, route := tells, request := linked && sees } := by
  decide

theorem Hop.turn_refusing : ∀ linked sees denied : Bool,
    Hop.turn linked { request := sees, occupied := true } { denied } = { denied := sees } := by
  decide

theorem Hop.turn_relaying : ∀ sees told pending denied pends denies : Bool,
    (pending = true → sees = true ∧ denied = false) → (told = true → pending = true) →
    pends = (sees && !(told || denied)) → denies = (sees && (told || denied)) →
    Hop.turn true { request := sees, denied := told } { denied, pending, request := pending } =
      { denied := denies, pending := pends, request := pends } := by
  decide

theorem Hop.turn_releasing : ∀ linked holds keeps announced announces dismissed : Bool,
    (keeps = true → holds = true) → (announces = (holds && !keeps)) →
    (announced = true → holds = false) → (dismissed = true → announces = true) →
    Hop.turn linked { request := keeps, released := dismissed, granted := linked && holds }
        { granted := holds, route := holds, request := linked && holds,
          released := linked && announced } =
      { granted := keeps, route := keeps, request := linked && keeps,
        released := linked && announces } := by
  decide

theorem Hop.turn_relenting : ∀ linked occupied denied : Bool,
    Hop.turn linked { occupied } { denied } = {} := by decide

theorem Hop.still_idle : ∀ linked occupied : Bool,
    ∀ reflex ∈ Hop.reflexes linked, reflex.when { occupied } {} = false := by decide

theorem Hop.still_granted : ∀ linked : Bool,
    ∀ reflex ∈ Hop.reflexes linked, reflex.when { request := true, granted := linked }
      { granted := true, route := true, request := linked } = false := by decide

theorem Hop.still_denied : ∀ linked occupied : Bool,
    ∀ reflex ∈ Hop.reflexes linked, reflex.when { request := true, occupied } { denied := true } = false := by
  decide

end Tables

section Plans

variable (setting : Setting) (follows : Nat → Bool)

/-- The turn in which the answer from the end of the line reaches a piece. -/
def answer (place : Nat) : Nat := arrival follows place + (setting.length - 1 - place)

/-- A request runs along a free line, and the grant runs back. -/
def granting (place count : Nat) : Hop where
  granted := answer setting follows place ≤ count
  pending := arrival follows place ≤ count && !decide (answer setting follows place ≤ count)
  route := answer setting follows place ≤ count
  request := setting.linked place && arrival follows place ≤ count

/-- The turn in which the denial from an occupied piece reaches a piece in front of it. -/
def rebuff (first place : Nat) : Nat := arrival follows place + (first - place)

/-- A request runs up to the first piece that is occupied, and the denial runs back. Only the
denial at the entry of the line stands. -/
def refusing (first place count : Nat) : Hop where
  denied := decide (place ≤ first ∧ (count = rebuff follows first place ∨
    place = 0 ∧ rebuff follows first place < count))
  pending := decide (place < first ∧
    arrival follows place ≤ count ∧ count < rebuff follows first place)
  request := decide (place < first ∧
    arrival follows place ≤ count ∧ count < rebuff follows first place)

/-- The route is given up from the entry of the line to its end. -/
def releasing (place count : Nat) : Hop where
  granted := count < arrival follows place
  route := count < arrival follows place
  request := setting.linked place && count < arrival follows place
  released := setting.linked place && count = arrival follows place

/-- The denial at the entry of the line is taken back. -/
def relenting (place count : Nat) : Hop where
  denied := place = 0 && count = 0

end Plans

section Beginnings

variable (setting : Setting) (follows : Nat → Bool) (place : Nat)

theorem granting_zero : granting setting follows place 0 = {} := by
  have early := arrival_pos follows place
  simp [granting, answer, Nat.ne_of_gt early]

theorem refusing_zero (first : Nat) : refusing follows first place 0 = {} := by
  have early := arrival_pos follows place
  have later : rebuff follows first place = arrival follows place + (first - place) := rfl
  simp only [refusing, Hop.mk.injEq, decide_eq_false_iff_not, and_true, true_and]
  omega

theorem releasing_zero : releasing setting follows place 0 =
    { granted := true, route := true, request := setting.linked place } := by
  have early := arrival_pos follows place
  simp [releasing, early, Nat.ne_of_lt early]

end Beginnings

theorem toNat_add_toNat_not (value : Bool) : value.toNat + (!value).toNat = 1 := by
  cases value <;> rfl

namespace Wave

variable {setting : Setting} {follows : Nat → Bool} {hops : Nat → Hop} {place count : Nat}

/-- Nothing is asked for and nothing happens. -/
def rest (unasked : setting.request = false) : Wave setting follows where
  plan _ _ := {}
  last := 1
  final _ := {}
  turn := by
    intro hops place count _ own before after
    have looks : setting.cue hops place = { occupied := setting.occupied place } := by
      cases place with
      | zero => simp [Setting.cue, unasked, after]
      | succ previous => simp [Setting.cue, before previous rfl, after]
    exact Setting.turn_eq own looks (Hop.turn_idle _ _)
  vacant := by simp
  reached _ := rfl
  still := by
    intro place _
    have looks : setting.cue (fun _ => {}) place = { occupied := setting.occupied place } := by
      cases place <;> simp [Setting.cue, unasked]
    rw [looks]
    exact Hop.still_idle _ _

section Granting

variable (asked : setting.request = true)
  (free : ∀ place < setting.length, setting.occupied place = false)

include asked free

theorem turn_granting (inside : place < setting.length)
    (own : hops place = granting setting follows place count)
    (before : ∀ previous, place = previous + 1 →
      hops previous = granting setting follows previous (count + (follows previous).toNat))
    (after : hops (place + 1) =
      granting setting follows (place + 1) (count + (!follows place).toNat)) :
    setting.turn hops place = granting setting follows place (count + 1) := by
  have request : (setting.cue hops place).request = (arrival follows place ≤ count + 1 : Bool) := by
    cases place with
    | zero => simp [Setting.cue, asked, arrival]
    | succ previous =>
        have linked : setting.linked previous = true := decide_eq_true inside
        have hop := toNat_add_toNat_not (follows previous)
        simp only [Setting.cue, before previous rfl, granting, linked, Bool.true_and, arrival]
        exact decide_eq_decide.mpr (by omega)
  have released : (setting.cue hops place).released = false := by
    cases place with
    | zero => rfl
    | succ previous => simp [Setting.cue, before previous rfl, granting]
  have granted : (setting.cue hops place).granted =
      (setting.linked place && (answer setting follows place ≤ count + 1 : Bool)) := by
    have hop := toNat_add_toNat_not (follows place)
    simp only [Setting.cue, after, granting, Setting.linked, answer, arrival]
    by_cases linked : place + 1 < setting.length
    · simp only [linked, decide_true, Bool.true_and]
      exact decide_eq_decide.mpr (by omega)
    · simp [linked]
  have denied : (setting.cue hops place).denied = false := by
    simp [Setting.cue, after, granting]
  have looks : setting.cue hops place = {
      request := arrival follows place ≤ count + 1
      granted := setting.linked place && answer setting follows place ≤ count + 1 } :=
    Cue.ext request released (free place inside) granted denied
  apply Setting.turn_eq own looks
  have delay : answer setting follows place =
    arrival follows place + (setting.length - 1 - place) := rfl
  apply Hop.turn_granting
  all_goals simp only [decide_eq_true_eq, decide_eq_false_iff_not, decide_eq_decide,
    Setting.linked]
  all_goals omega

/-- The course of a request on a free line. -/
def grant : Wave setting follows where
  plan := granting setting follows
  last := setting.length
  final place := { granted := true, route := true, request := setting.linked place }
  turn := turn_granting asked free
  vacant linked _ := free _ (of_decide_eq_true linked)
  reached := by
    intro place inside
    have bound := arrival_le follows place
    have early : answer setting follows place ≤ setting.length := by
      simp only [answer]
      omega
    have sooner : arrival follows place ≤ setting.length := by omega
    simp [granting, early, sooner]
  still := by
    intro place inside
    have looks : setting.cue
        (fun place => { granted := true, route := true, request := setting.linked place }) place =
          { request := true, granted := setting.linked place } := by
      cases place with
      | zero => simp [Setting.cue, asked, free _ inside]
      | succ previous =>
          have linked : setting.linked previous = true := decide_eq_true inside
          simp [Setting.cue, linked, free _ inside]
    rw [looks]
    exact Hop.still_granted _

end Granting

section Refusing

variable {first : Nat} (asked : setting.request = true)
  (free : ∀ place < first, setting.occupied place = false) (inside : first < setting.length)
  (occupied : setting.occupied first = true)

include asked free inside occupied

theorem turn_refusing (own : hops place = refusing follows first place count)
    (before : ∀ previous, place = previous + 1 →
      hops previous = refusing follows first previous (count + (follows previous).toNat))
    (after : hops (place + 1) =
      refusing follows first (place + 1) (count + (!follows place).toNat)) :
    setting.turn hops place = refusing follows first place (count + 1) := by
  have released : (setting.cue hops place).released = false := by
    cases place with
    | zero => rfl
    | succ previous => simp [Setting.cue, before previous rfl, refusing]
  have granted : (setting.cue hops place).granted = false := by
    simp [Setting.cue, after, refusing]
  have request : (setting.cue hops place).request = decide (place = 0 ∨ place ≤ first ∧
      arrival follows place ≤ count + 1 ∧ count + 1 ≤ rebuff follows first place) := by
    cases place with
    | zero => simp [Setting.cue, asked]
    | succ previous =>
        have hop := toNat_add_toNat_not (follows previous)
        simp only [Setting.cue, before previous rfl, refusing, arrival, rebuff]
        exact decide_eq_decide.mpr (by omega)
  have delay : rebuff follows first place = arrival follows place + (first - place) := rfl
  have denied : (setting.cue hops place).denied =
      decide (place < first ∧ count + 1 = rebuff follows first place) := by
    have hop := toNat_add_toNat_not (follows place)
    have next : rebuff follows first (place + 1) =
      arrival follows place + (!follows place).toNat + (first - (place + 1)) := rfl
    apply Bool.eq_iff_iff.mpr
    simp only [Setting.cue, after, refusing, Setting.linked, Bool.and_eq_true, decide_eq_true_eq]
    omega
  have begins : place = 0 → arrival follows place = 1 := by
    rintro rfl
    rfl
  rcases Nat.lt_trichotomy place first with near | rfl | far
  · have linked : setting.linked place = true := decide_eq_true (by omega)
    have looks : setting.cue hops place = {
        request := decide (place = 0 ∨ place ≤ first ∧
          arrival follows place ≤ count + 1 ∧ count + 1 ≤ rebuff follows first place)
        denied := decide (place < first ∧ count + 1 = rebuff follows first place) } :=
      Cue.ext request released (free place near) granted denied
    refine Setting.turn_eq own looks ?_
    rw [linked]
    apply Hop.turn_relaying
    · simp only [decide_eq_true_eq, decide_eq_false_iff_not]
      omega
    · simp only [decide_eq_true_eq]
      omega
    · apply Bool.eq_iff_iff.mpr
      simp only [Bool.and_eq_true, Bool.not_eq_true', Bool.or_eq_false_iff, decide_eq_true_eq,
        decide_eq_false_iff_not]
      omega
    · apply Bool.eq_iff_iff.mpr
      simp only [Bool.and_eq_true, Bool.or_eq_true, decide_eq_true_eq]
      omega
  · have looks : setting.cue hops place = {
        request := decide (place = 0 ∨ place ≤ place ∧
          arrival follows place ≤ count + 1 ∧ count + 1 ≤ rebuff follows place place)
        occupied := true } :=
      Cue.ext request released occupied granted (denied.trans (by simp))
    have hop : refusing follows place place count =
        { denied := (refusing follows place place count).denied } := by
      simp [refusing]
    rw [hop] at own
    refine Setting.turn_eq own looks ?_
    rw [Hop.turn_refusing]
    simp only [refusing, Hop.mk.injEq, Nat.lt_irrefl, false_and, decide_false, and_self, and_true,
      true_and, decide_eq_decide]
    omega
  · have looks : setting.cue hops place = { occupied := setting.occupied place } :=
      Cue.ext (request.trans (decide_eq_false (by omega))) released rfl granted
        (denied.trans (decide_eq_false (by omega)))
    have hop : ∀ count, refusing follows first place count = {} := by
      intro count
      simp [refusing, Nat.not_le.mpr far, Nat.not_lt.mpr (Nat.le_of_lt far)]
    rw [hop] at own ⊢
    exact Setting.turn_eq own looks (Hop.turn_idle _ _)

/-- The course of a request on a line with an occupied piece. -/
def refusal : Wave setting follows where
  plan := refusing follows first
  last := setting.length + 1
  final place := { denied := place = 0 }
  turn _ := turn_refusing asked free inside occupied
  vacant := by simp [refusing]
  reached := by
    intro place _
    have bound := arrival_le follows place
    have delay : rebuff follows first place = arrival follows place + (first - place) := rfl
    simp only [refusing, Hop.mk.injEq, decide_eq_decide, decide_eq_false_iff_not, and_true, true_and]
    omega
  still := by
    intro place _
    have looks : setting.cue (fun place => { denied := place = 0 }) place =
        { request := place = 0, occupied := setting.occupied place } := by
      cases place with
      | zero => simp [Setting.cue, asked]
      | succ previous => simp [Setting.cue]
    rw [looks]
    by_cases entry : place = 0
    · simpa [entry] using Hop.still_denied _ _
    · simpa [entry] using Hop.still_idle _ _

end Refusing

section Releasing

variable (unasked : setting.request = false)

include unasked

theorem turn_releasing (free : ∀ place < setting.length, setting.occupied place = false)
    (inside : place < setting.length) (own : hops place = releasing setting follows place count)
    (before : ∀ previous, place = previous + 1 →
      hops previous = releasing setting follows previous (count + (follows previous).toNat))
    (after : hops (place + 1) =
      releasing setting follows (place + 1) (count + (!follows place).toNat)) :
    setting.turn hops place = releasing setting follows place (count + 1) := by
  have request : (setting.cue hops place).request = (count + 1 < arrival follows place : Bool) := by
    cases place with
    | zero => simp [Setting.cue, unasked, arrival]
    | succ previous =>
        have linked : setting.linked previous = true := decide_eq_true inside
        have hop := toNat_add_toNat_not (follows previous)
        simp only [Setting.cue, before previous rfl, releasing, linked, Bool.true_and, arrival]
        exact decide_eq_decide.mpr (by omega)
  have released : (setting.cue hops place).released = true →
      (count + 1 = arrival follows place : Bool) = true := by
    cases place with
    | zero => simp [Setting.cue]
    | succ previous =>
        have hop := toNat_add_toNat_not (follows previous)
        have next : arrival follows (previous + 1) =
          arrival follows previous + (!follows previous).toNat := rfl
        simp only [Setting.cue, before previous rfl, releasing, Bool.and_eq_true,
          decide_eq_true_eq]
        omega
  have granted : (setting.cue hops place).granted =
      (setting.linked place && (count < arrival follows place : Bool)) := by
    simp [Setting.cue, after, releasing, arrival]
  have denied : (setting.cue hops place).denied = false := by
    simp [Setting.cue, after, releasing]
  have looks : setting.cue hops place = {
      request := count + 1 < arrival follows place
      released := (setting.cue hops place).released
      granted := setting.linked place && count < arrival follows place } :=
    Cue.ext request rfl (free place inside) granted denied
  apply Setting.turn_eq own looks
  apply Hop.turn_releasing
  · simp only [decide_eq_true_eq]
    omega
  · apply Bool.eq_iff_iff.mpr
    simp only [Bool.and_eq_true, Bool.not_eq_true', decide_eq_true_eq, decide_eq_false_iff_not]
    omega
  · simp only [decide_eq_true_eq, decide_eq_false_iff_not]
    omega
  · exact released

/-- How a route over the line is given up. -/
def release (free : ∀ place < setting.length, setting.occupied place = false) :
    Wave setting follows where
  plan := releasing setting follows
  last := setting.length + 1
  final _ := {}
  turn := turn_releasing unasked free
  vacant linked _ := free _ (of_decide_eq_true linked)
  reached := by
    intro place inside
    have bound := arrival_le follows place
    have past : ¬setting.length + 1 < arrival follows place := by omega
    have beyond : ¬setting.length + 1 = arrival follows place := by omega
    simp [releasing, past, beyond]
  still := (rest unasked : Wave setting follows).still

/-- How a denial is taken back. -/
def relent : Wave setting follows where
  plan := relenting
  last := 1
  final _ := {}
  turn := by
    intro hops place count _ own before after
    have looks : setting.cue hops place = { occupied := setting.occupied place } := by
      cases place with
      | zero => simp [Setting.cue, unasked, after, relenting]
      | succ previous => simp [Setting.cue, before previous rfl, after, relenting]
    have next : relenting place (count + 1) = {} := by simp [relenting]
    rw [next]
    exact Setting.turn_eq own looks (Hop.turn_relenting _ _ _)
  vacant := by simp [relenting]
  reached := by simp [relenting]
  still := (rest unasked : Wave setting follows).still

end Releasing

end Wave

end Interlocking

import Interlocking.Failure

/-!
# Computations that can fail

A computation succeeds if all of its parts do, and fails with the first part that does. The lemmas
here take computations apart and put them together, for single steps and for the steps of a list.
-/

namespace Interlocking

variable {α β σ ε : Type}

/-- A computation succeeds exactly if its first part does and the rest does after it. -/
theorem bind_eq_ok {first : Except ε α} {rest : α → Except ε β} {result : β} :
    first >>= rest = .ok result ↔ ∃ value, first = .ok value ∧ rest value = .ok result := by
  cases first with
  | error failure => simp [bind, Except.bind]
  | ok value => simp [bind, Except.bind]

theorem bind_eq_error {first : Except ε α} {rest : α → Except ε β} {failure : ε} :
    first >>= rest = .error failure ↔
      first = .error failure ∨ ∃ value, first = .ok value ∧ rest value = .error failure := by
  cases first with
  | error reason => simp [bind, Except.bind]
  | ok value => simp [bind, Except.bind]

variable {step : σ → α → Except ε σ} {start last : σ} {item : α} {items : List α}

theorem foldlM_cons_eq_ok : (item :: items).foldlM step start = .ok last ↔
    ∃ middle, step start item = .ok middle ∧ items.foldlM step middle = .ok last := by
  rw [List.foldlM_cons, bind_eq_ok]

/-- What holds at first and is maintained by each step holds at last. -/
theorem foldlM_induct {motive : σ → Prop}
    (each : ∀ item ∈ items, ∀ state next, motive state → step state item = .ok next → motive next)
    (begins : motive start) (done : items.foldlM step start = .ok last) : motive last := by
  induction items generalizing start with
  | nil => exact Except.ok.inj done ▸ begins
  | cons item items ih =>
      obtain ⟨here, others⟩ := List.forall_mem_cons.mp each
      obtain ⟨middle, first, rest⟩ := foldlM_cons_eq_ok.mp done
      exact ih others (here start middle begins first) rest

theorem mapM_cons_eq_ok {action : α → Except ε β} {results : List β} :
    (item :: items).mapM action = .ok results ↔ ∃ result others,
      action item = .ok result ∧ items.mapM action = .ok others ∧ results = result :: others := by
  simp only [List.mapM_cons, bind_eq_ok]
  constructor
  · rintro ⟨result, first, others, rest, same⟩
    exact ⟨result, others, first, rest, (Except.ok.inj same).symm⟩
  · rintro ⟨result, others, first, rest, rfl⟩
    exact ⟨result, first, others, rest, rfl⟩

/-- A list of steps of which each is known to succeed. -/
theorem mapM_eq_ok {action : α → Except ε β} {value : α → β}
    (each : ∀ item ∈ items, action item = .ok (value item)) :
    items.mapM action = .ok (items.map value) := by
  induction items with
  | nil => rfl
  | cons item items ih =>
      obtain ⟨first, rest⟩ := List.forall_mem_cons.mp each
      exact mapM_cons_eq_ok.mpr ⟨_, _, first, ih rest, rfl⟩

theorem mapM_congr {action other : α → Except ε β}
    (same : ∀ item ∈ items, action item = other item) : items.mapM action = items.mapM other := by
  induction items with
  | nil => rfl
  | cons item items ih =>
      obtain ⟨first, rest⟩ := List.forall_mem_cons.mp same
      rw [List.mapM_cons, List.mapM_cons, first, ih rest]

theorem mem_of_mapM_eq_ok {action : α → Except ε β} {results : List β}
    (mapped : items.mapM action = .ok results) {result : β}
    (member : result ∈ results) : ∃ item ∈ items, action item = .ok result := by
  induction items generalizing results with
  | nil =>
      obtain rfl := Except.ok.inj mapped
      cases member
  | cons item items ih =>
      obtain ⟨head, tail, first, rest, rfl⟩ := mapM_cons_eq_ok.mp mapped
      rcases List.mem_cons.mp member with rfl | member
      · exact ⟨item, List.mem_cons_self, first⟩
      · obtain ⟨other, listed, done⟩ := ih rest member
        exact ⟨other, List.mem_cons_of_mem _ listed, done⟩

theorem getElem?_of_mapM_eq_ok {action : α → Except ε β} {results : List β}
    (mapped : items.mapM action = .ok results) {index : Nat}
    (found : items[index]? = some item) :
    ∃ result, action item = .ok result ∧ results[index]? = some result := by
  induction items generalizing results index with
  | nil => simp at found
  | cons first items ih =>
      obtain ⟨result, tail, head, rest, rfl⟩ := mapM_cons_eq_ok.mp mapped
      cases index with
      | zero =>
          obtain rfl := Option.some.inj found
          exact ⟨result, head, rfl⟩
      | succ index => exact ih rest found

section Failures

variable {failure : ε}

theorem mem_of_mapM_eq_error {action : α → Except ε β}
    (failed : items.mapM action = .error failure) :
    ∃ item ∈ items, action item = .error failure := by
  induction items with
  | nil => cases failed
  | cons item items ih =>
      rw [List.mapM_cons] at failed
      rcases bind_eq_error.mp failed with first | ⟨result, -, failed⟩
      · exact ⟨item, List.mem_cons_self, first⟩
      · rcases bind_eq_error.mp failed with rest | ⟨results, -, failed⟩
        · obtain ⟨other, listed, same⟩ := ih rest
          exact ⟨other, List.mem_cons_of_mem _ listed, same⟩
        · cases failed

theorem mem_of_forM_eq_error {action : α → Except ε Unit}
    (failed : items.forM action = .error failure) :
    ∃ item ∈ items, action item = .error failure := by
  induction items with
  | nil => cases failed
  | cons item items ih =>
      rcases bind_eq_error.mp failed with first | ⟨_, -, failed⟩
      · exact ⟨item, List.mem_cons_self, first⟩
      · obtain ⟨other, listed, same⟩ := ih failed
        exact ⟨other, List.mem_cons_of_mem _ listed, same⟩

/-- Where a step fails and no other failure is possible, the list of steps fails with it. -/
theorem mapM_eq_error {action : α → Except ε β}
    (fails : ∃ item ∈ items, action item = .error failure)
    (only : ∀ item ∈ items, ∀ reason, action item = .error reason → reason = failure) :
    items.mapM action = .error failure := by
  cases mapped : items.mapM action with
  | error reason =>
      obtain ⟨item, listed, failed⟩ := mem_of_mapM_eq_error mapped
      rw [only item listed reason failed]
  | ok results =>
      obtain ⟨item, listed, failed⟩ := fails
      obtain ⟨index, found⟩ := List.mem_iff_getElem?.mp listed
      obtain ⟨result, succeeded, -⟩ := getElem?_of_mapM_eq_ok mapped found
      cases failed.symm.trans succeeded

end Failures

end Interlocking

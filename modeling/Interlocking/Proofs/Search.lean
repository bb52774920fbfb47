import Interlocking.Variable.Search

/-!
# Searches in sorted arrays

In an array that is sorted, halving the range finds the one place at which the comparison
changes. An entry that compares as equal is therefore found where it stands, and the entries
that come before a new one are counted correctly.
-/

namespace Interlocking

variable {α : Type} {entries : Array α}

/-- If exactly the places behind a threshold are above, the range is narrowed down to it. -/
theorem bisect_eq {above : Nat → Bool} {base count threshold : Nat}
    (sorted : ∀ place, base < place → place < base + count →
      (above place = true ↔ threshold < place))
    (inside : base ≤ threshold) (bounded : threshold < base + count) :
    bisect above base count = threshold := by
  fun_induction bisect above base count with
  | case1 base count several half ih =>
      have position : 0 < half ∧ half < count := by omega
      have middle := sorted (base + half) (by omega) (by omega)
      apply ih <;> split <;> grind
  | case2 base count single => omega

theorem locate_ok {order : α → Ordering} {place : Nat} (found : locate order entries = .ok place) :
    ∃ entry, entries[place]? = some entry ∧ order entry = .eq := by
  unfold locate at found
  simp only at found
  split at found
  · cases found
  · rename_i entry here
    split at found
    · rename_i equal
      cases found
      exact ⟨entry, here, equal⟩
    · cases found
    · cases found

/-- An entry that compares as equal is found if exactly the entries behind it compare as
greater. -/
theorem locate_eq_ok {order : α → Ordering} {place : Nat} {entry : α}
    (here : entries[place]? = some entry) (equal : order entry = .eq)
    (sorted : ∀ {index other}, entries[index]? = some other →
      (order other = .gt ↔ place < index)) :
    locate order entries = .ok place := by
  obtain ⟨bounded, -⟩ := Array.getElem?_eq_some_iff.mp here
  have found : bisect (fun index => entries[index]?.any (fun entry => order entry = .gt)) 0
      entries.size = place := by
    apply bisect_eq _ (Nat.zero_le _) (by omega)
    intro index _ inside
    have present : entries[index]? = some entries[index] := Array.getElem?_eq_getElem (by omega)
    simp [present, sorted present]
  simp only [locate, found, here, equal]

/-- If the early entries are the first `count`, the partition point is `count`. -/
theorem partitionPoint_eq {early : α → Bool} {count : Nat} (bounded : count ≤ entries.size)
    (split : ∀ {index other}, entries[index]? = some other →
      (early other = true ↔ index < count)) :
    partitionPoint early entries = count := by
  rcases Nat.eq_zero_or_pos entries.size with empty | nonempty
  · have missing : entries[0]? = none := Array.getElem?_eq_none (by omega)
    have first (above : Nat → Bool) : bisect above 0 0 = 0 := by simp [bisect]
    simp only [partitionPoint, locate, empty, first, missing]
    omega
  · -- The last early entry, or the first entry of all if none is early.
    have found : bisect (fun index => entries[index]?.any (fun entry =>
        (if early entry then Ordering.lt else .gt) = .gt)) 0 entries.size = count - 1 := by
      apply bisect_eq _ (Nat.zero_le _) (by omega)
      intro index later inside
      have present : entries[index]? = some entries[index] := Array.getElem?_eq_getElem (by omega)
      have early := split present
      simp only [present, Option.any_some]
      grind
    have here : entries[count - 1]? = some (entries[count - 1]) :=
      Array.getElem?_eq_getElem (by omega)
    have early := split here
    simp only [partitionPoint, locate, found, here]
    grind

end Interlocking

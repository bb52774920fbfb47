/-!
# Searching sorted arrays

A sorted array is searched by halving: of a range of places the half is kept that can still
hold what is looked for, until one place is left. The last comparison is with the entry at
this place, and it also tells where an entry that is missing would belong.
-/

namespace Interlocking

variable {α : Type}

/-- The place that is left of the `count` places from `base` on. The lower half is kept if
`above` holds of the place in the middle, and the upper half otherwise. -/
def bisect (above : Nat → Bool) (base count : Nat) : Nat :=
  if 1 < count then
    let half := count / 2
    bisect above (if above (base + half) then base else base + half) (count - half)
  else base
termination_by count
decreasing_by omega

/-- The place of an entry that compares as equal, or else the place at which such an entry
would have to be inserted. -/
def locate (order : α → Ordering) (entries : Array α) : Except Nat Nat :=
  let above := fun place => entries[place]?.any (fun entry => order entry = .gt)
  let place := bisect above 0 entries.size
  match entries[place]? with
  | none => .error place
  | some entry =>
      match order entry with
      | .eq => .ok place
      | .lt => .error (place + 1)
      | .gt => .error place

/-- The number of entries at the front for which `early` holds. -/
def partitionPoint (early : α → Bool) (entries : Array α) : Nat :=
  match locate (fun entry => if early entry then .lt else .gt) entries with
  | .ok place => place
  | .error place => place

end Interlocking

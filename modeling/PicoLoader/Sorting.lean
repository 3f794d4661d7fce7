/-!
# Stable sorting by a key

Two places put things in the order of a number and must keep the given order among equals: spans by
their start, and the settings of a device by their interface. Both sort by insertion.
-/

namespace PicoLoader.Sorting

variable {α : Type} (key : α → Nat)

/-- Puts `a` in front of the first element whose key is not smaller. -/
def insertOn (a : α) : List α → List α
  | [] => [a]
  | b :: bs => if key a ≤ key b then a :: b :: bs else b :: insertOn a bs

/-- The list in ascending order of the key; elements with one key keep their order. -/
def sortOn (as : List α) : List α :=
  as.foldr (insertOn key) []

end PicoLoader.Sorting

import PicoLoader.Sorting

/-!
# Spans of addresses

A span is a half-open range of addresses. Erase ranges are spans: each segment of flash asks for the
sectors it touches, and the requests are merged before anything is erased.

* `PicoLoader.Memory.Span.merge` – sorts spans by their start and joins those that overlap or touch;
* `PicoLoader.Memory.Span.joinOnto` – the pass that joins, with the span that is still growing.

A span whose start lies above its end covers nothing; merging takes such spans as they are.
-/

namespace PicoLoader.Memory

/-- The addresses from `start` up to but not including `stop`. -/
structure Span where
  start : UInt32
  stop : UInt32
deriving DecidableEq, Repr

namespace Span

/-- The number of addresses from start to end. -/
def length (s : Span) : UInt32 := s.stop - s.start

/-- Whether start and end coincide. -/
def isEmpty (s : Span) : Bool := s.start == s.stop

/-- Whether `addr` lies in the span. -/
def Covers (s : Span) (addr : Nat) : Prop :=
  s.start.toNat ≤ addr ∧ addr < s.stop.toNat

instance (s : Span) (addr : Nat) : Decidable (s.Covers addr) :=
  inferInstanceAs (Decidable (_ ∧ _))

/-! ### Merging -/

/-- Walks along sorted spans with `current` still growing: a span that starts at or below its end is
joined to it, any other closes it and grows in its place. -/
def joinOnto (current : Span) : List Span → List Span
  | [] => [current]
  | s :: ss =>
    if s.start ≤ current.stop then joinOnto { current with stop := max current.stop s.stop } ss
    else current :: joinOnto s ss

/-- Joins the neighbours that overlap or touch in a list sorted by start. -/
def join : List Span → List Span
  | [] => []
  | s :: ss => joinOnto s ss

/-- **The merged spans**: sorted by start, with those that overlap or touch made one. -/
def merge (spans : List Span) : List Span :=
  join (Sorting.sortOn (fun s => s.start.toNat) spans)

end Span

end PicoLoader.Memory

import Mathlib.Logic.Basic
import PicoLoader.Load.Step

/-!
# What steps ask for

A list of steps asks for calls and says lines, and it may contain a step that stops. This file reads
that off the list alone, without a target or a sink:

* `PicoLoader.Load.requests` – the calls, each with what its failure means for the load;
* `PicoLoader.Load.said` – the lines;
* `PicoLoader.Load.halt?` – the fault of the first step that stops, if there is one.

All three end at a step that stops. So they are read part by part where the first part does not stop
(`requests_append`, `said_append`), and a part behind one that stops counts for nothing
(`requests_append_of_halt`, `said_append_of_halt`). `PicoLoader.Load.AmountsTo` puts the two cases
into one statement, which goes from parts to the whole.
-/

namespace PicoLoader

/-- The characters of some lines, one line after the other. -/
def Line.chars (lines : List Line) : List Char :=
  lines.flatMap fun line => line.text.toList

@[simp] theorem Line.chars_nil : chars [] = [] := rfl

@[simp] theorem Line.chars_cons (line : Line) (lines : List Line) :
    chars (line :: lines) = line.text.toList ++ chars lines := rfl

@[simp] theorem Line.chars_append (first second : List Line) :
    chars (first ++ second) = chars first ++ chars second := List.flatMap_append

namespace Load

/-- What the failure of a call means for a load. -/
inductive Severity where
  /-- The failure is logged with a text, and forgotten. -/
  | warning (text : String)
  /-- The failure ends the load, at a stage. -/
  | fatal (stage : Stage)
deriving DecidableEq, Repr

/-- The calls that steps make, up to a step that stops. -/
def requests : List Step → List (Call × Severity)
  | [] => []
  | .attempt call text :: steps => (call, .warning text) :: requests steps
  | .require call stage :: steps => (call, .fatal stage) :: requests steps
  | .note _ :: steps => requests steps
  | .say _ :: steps => requests steps
  | .stop _ :: _ => []

/-- The lines that steps say, up to a step that stops. -/
def said : List Step → List Line
  | [] => []
  | .attempt _ _ :: steps => said steps
  | .require _ _ :: steps => said steps
  | .note _ :: steps => said steps
  | .say line :: steps => line :: said steps
  | .stop _ :: _ => []

/-- The fault of the first step that stops. -/
def halt? : List Step → Option Fault
  | [] => none
  | .attempt _ _ :: steps => halt? steps
  | .require _ _ :: steps => halt? steps
  | .note _ :: steps => halt? steps
  | .say _ :: steps => halt? steps
  | .stop fault :: _ => some fault

/-- The result of steps on which nothing fails: the fault of the step that stops, if any. -/
def resultOf : Option Fault → Except Fault Unit
  | none => .ok ()
  | some fault => .error fault

/-! ### Part by part -/

theorem halt?_append (first second : List Step) :
    halt? (first ++ second) = (halt? first).or (halt? second) := by
  induction first with
  | nil => rfl
  | cons step steps ih => cases step <;> simp [halt?, ih]

section Append

variable {first : List Step} (second : List Step)

/-- Past steps that do not stop, the requests go on. -/
theorem requests_append (h : halt? first = none) :
    requests (first ++ second) = requests first ++ requests second := by
  induction first with
  | nil => rfl
  | cons step steps ih => cases step <;> simp_all [halt?, requests]

theorem said_append (h : halt? first = none) :
    said (first ++ second) = said first ++ said second := by
  induction first with
  | nil => rfl
  | cons step steps ih => cases step <;> simp_all [halt?, said]

/-- Nothing is asked for after a step that stops. -/
theorem requests_append_of_halt (h : halt? first ≠ none) :
    requests (first ++ second) = requests first := by
  induction first with
  | nil => exact absurd rfl h
  | cons step steps ih => cases step <;> simp_all [halt?, requests]

theorem said_append_of_halt (h : halt? first ≠ none) : said (first ++ second) = said first := by
  induction first with
  | nil => exact absurd rfl h
  | cons step steps ih => cases step <;> simp_all [halt?, said]

end Append

/-- No line is said that none of the parts says. -/
theorem said_append_isPrefix (first second : List Step) :
    said (first ++ second) <+: said first ++ said second := by
  rcases Option.eq_none_or_eq_some (halt? first) with hhalt | ⟨fault, hhalt⟩
  · exact (said_append _ hhalt).symm ▸ List.prefix_rfl
  · rw [said_append_of_halt _ (by simp [hhalt])]
    exact List.prefix_append _ _

/-- Steps that say nothing may follow any steps. -/
theorem said_append_of_silent {second : List Step} (h : said second = []) (first : List Step) :
    said (first ++ second) = said first := by
  rcases Option.eq_none_or_eq_some (halt? first) with hhalt | ⟨fault, hhalt⟩
  · rw [said_append _ hhalt, h, List.append_nil]
  · exact said_append_of_halt _ (by simp [hhalt])

/-! ### Steps that ask for given calls -/

/-- Steps *amount to* some requests if they ask for these, in this order, and for all of them unless
they stop. -/
structure AmountsTo (steps : List Step) (wanted : List (Call × Severity)) : Prop where
  isPrefix : requests steps <+: wanted
  eq_of_halt : halt? steps = none → requests steps = wanted

theorem amountsTo_requests (steps : List Step) : AmountsTo steps (requests steps) :=
  ⟨List.prefix_rfl, fun _ => rfl⟩

/-- **What parts amount to, the whole amounts to**, whether or not the first part stops. -/
theorem AmountsTo.append {first second : List Step} {wanted more : List (Call × Severity)}
    (hfirst : AmountsTo first wanted) (hsecond : AmountsTo second more) :
    AmountsTo (first ++ second) (wanted ++ more) := by
  rcases Option.eq_none_or_eq_some (halt? first) with hhalt | ⟨fault, hhalt⟩
  · have heq := requests_append second hhalt
    rw [hfirst.eq_of_halt hhalt] at heq
    constructor
    · rw [heq]
      exact (List.prefix_append_right_inj _).mpr hsecond.isPrefix
    · intro h
      rw [halt?_append, hhalt, Option.none_or] at h
      rw [heq, hsecond.eq_of_halt h]
  · -- The first part stops, so nothing of the second is asked for.
    constructor
    · rw [requests_append_of_halt _ (by simp [hhalt])]
      exact hfirst.isPrefix.trans (List.prefix_append _ _)
    · intro h
      rw [halt?_append, hhalt] at h
      cases h

section FlatMap

variable {α : Type} {items : List α} {f : α → List Step}

theorem amountsTo_flatMap {wanted : α → List (Call × Severity)}
    (h : ∀ item ∈ items, AmountsTo (f item) (wanted item)) :
    AmountsTo (items.flatMap f) (items.flatMap wanted) := by
  induction items with
  | nil => exact amountsTo_requests []
  | cons item items ih =>
    rw [List.flatMap_cons, List.flatMap_cons]
    exact (h item List.mem_cons_self).append (ih fun i hi => h i (List.mem_cons_of_mem _ hi))

theorem said_flatMap_of_silent (h : ∀ item ∈ items, said (f item) = []) :
    said (items.flatMap f) = [] := by
  induction items with
  | nil => rfl
  | cons item items ih =>
    rw [List.flatMap_cons, said_append_of_silent (ih fun i hi => h i (List.mem_cons_of_mem _ hi)),
      h item List.mem_cons_self]

/-- Steps for each of some items do not stop if and only if those for none of the items do. -/
theorem halt?_flatMap_iff :
    halt? (items.flatMap f) = none ↔ ∀ item ∈ items, halt? (f item) = none := by
  induction items with
  | nil => exact iff_of_true rfl fun item hitem => absurd hitem List.not_mem_nil
  | cons item items ih =>
    rw [List.flatMap_cons, halt?_append, Option.or_eq_none_iff, ih, List.forall_mem_cons]

end FlatMap

/-! ### Steps of one kind -/

section Kinds

variable {α : Type} (f : α → Call) (stage : Stage) (items : List α) (lines : List Line)

/-- Calls whose failure ends the load, one for each item. -/
theorem requests_map_require : requests (items.map fun item => .require (f item) stage) =
    items.map fun item => (f item, .fatal stage) := by
  induction items with
  | nil => rfl
  | cons item items ih => exact congrArg ((f item, Severity.fatal stage) :: ·) ih

theorem said_map_require : said (items.map fun item => .require (f item) stage) = [] := by
  induction items with
  | nil => rfl
  | cons item items ih => exact ih

theorem halt?_map_require : halt? (items.map fun item => .require (f item) stage) = none := by
  induction items with
  | nil => rfl
  | cons item items ih => exact ih

/-- Steps that say some lines and do nothing else. -/
theorem requests_map_say : requests (lines.map .say) = [] := by
  induction lines with
  | nil => rfl
  | cons line lines ih => exact ih

theorem said_map_say : said (lines.map .say) = lines := by
  induction lines with
  | nil => rfl
  | cons line lines ih => exact congrArg (line :: ·) ih

theorem halt?_map_say : halt? (lines.map .say) = none := by
  induction lines with
  | nil => rfl
  | cons line lines ih => exact ih

end Kinds

end Load

end PicoLoader

import PicoLoader.Proofs.Load.Loadable

/-!
# What is told of a plan

The lines of a dry run and of a load are values, and their texts are put together by the program.
Here the texts are given once more, letter by letter, for what they are about:

* `PicoLoader.Load.Action.told` – what a dry run tells of an action: its kind, its address, and its
  number of bytes;
* `PicoLoader.Plan.toldNotes` – what both tell of segments that are not written where they belong;
* `PicoLoader.Plan.toldEnd` – what a load tells at its end.

The program tells just this (`text_line`, `chars_lines`, `chars_notes`, `chars_ending`). For an
action that erases a span this needs that the span does not end before it starts: the number of its
bytes is a difference of words in the program, and a difference of numbers here.
-/

namespace PicoLoader

open Memory

namespace Load

/-- An address as it is told: the marker and the digits in base 16. -/
def hexadecimal (addr : UInt32) : String := "0x" ++ String.ofList (Nat.toDigits 16 addr.toNat)

/-- A number of bytes as it is told: in base 10. -/
def byteCount (n : Nat) : String := "(" ++ String.ofList (Nat.toDigits 10 n) ++ " bytes)"

/-- The letters of some texts, one text after the other. -/
def letters (texts : List String) : List Char := texts.flatMap String.toList

theorem letters_append (first second : List String) :
    letters (first ++ second) = letters first ++ letters second := List.flatMap_append

/-- **What a dry run tells of an action.** -/
def Action.told : Action → String
  | exitXip => "Dry run: would exit XIP mode.\n"
  | erase span =>
    "Dry run: would erase flash " ++ hexadecimal span.start ++ "-" ++ hexadecimal span.stop ++ " " ++
      byteCount (span.stop.toNat - span.start.toNat) ++ ".\n"
  | ram block =>
    "Dry run: would write RAM " ++ hexadecimal block.addr ++ " " ++
      byteCount block.bytes.length ++ ".\n"
  | page block =>
    "Dry run: would write flash page " ++ hexadecimal block.addr ++ " " ++
      byteCount block.bytes.length ++ ".\n"
  | start addr => "Dry run: would execute at " ++ hexadecimal addr ++ ".\n"

end Load

open Load

namespace Plan

/-- What is told of segments meant for flash that are not written to flash. -/
def toldNotes (plan : Plan) : List String :=
  (if plan.mirrored then
    ["Mirroring flash segments into SRAM (use --flash to write flash instead).\n"]
    else []) ++
  (if plan.skipped then
    ["Skipping flash segments that do not fit in SRAM (use --flash to enable flash writes).\n"]
    else [])

/-- What a load tells at its end: where the image has been started, if it is to be started, and that
the load is over. Nothing is told if there is no address to start at. -/
def toldEnd (plan : Plan) (layout : Layout) (allowFlash start : Bool) : List String :=
  if start then
    match plan.startAddress layout allowFlash with
    | .ok addr => ["Executing at " ++ hexadecimal addr ++ ".\n", "Load complete.\n"]
    | .error _ => []
  else ["Load complete.\n"]

end Plan

namespace Load

/-! ### The program tells just this -/

/-- A number has a digit, so that no zero is put in front of it. -/
theorem number_eq (n : Nat) : Hex.number n = "0x" ++ String.ofList (Nat.toDigits 16 n) := by
  have hpos : 1 ≤ (Nat.toDigits 16 n).length := Nat.length_toDigits_pos
  rw [Hex.number, Hex.digits, Nat.sub_eq_zero_of_le hpos, List.replicate_zero, List.nil_append]

theorem number_toNat (addr : UInt32) : Hex.number addr.toNat = hexadecimal addr := number_eq _

/-- How the program puts a number of bytes behind an address. -/
theorem count_eq (n : Nat) : s!" ({n} bytes).\n" = " " ++ byteCount n ++ ".\n" := by
  have htext : s!" ({n} bytes).\n" = " (" ++ Nat.repr n ++ " bytes).\n" := rfl
  have hopen : " (" = " " ++ "(" := rfl
  have hclose : " bytes).\n" = " bytes)" ++ ".\n" := rfl
  rw [htext, Nat.repr_eq_ofList_toDigits, byteCount, hopen, hclose]
  simp only [String.append_assoc]

/-- A line about a block begins with some words, and ends with the place and the size of it. -/
theorem text_sized (words : String) (block : Block) :
    words ++ Hex.number block.addr.toNat ++ s!" ({block.size} bytes).\n" =
      words ++ hexadecimal block.addr ++ " " ++ byteCount block.bytes.length ++ ".\n" := by
  rw [count_eq, number_toNat, Block.size]
  simp only [String.append_assoc]

/-- The line about an action is what is told of it. -/
theorem text_line {action : Action}
    (h : ∀ span, action = .erase span → span.start ≤ span.stop) :
    action.line.text = action.told := by
  cases action with
  | exitXip => rfl
  | erase span =>
    have hle := UInt32.le_iff_toNat_le.mp (h span rfl)
    have htext : (Action.erase span).line.text = "Dry run: would erase flash " ++
        Hex.number span.start.toNat ++ "-" ++ Hex.number span.stop.toNat ++
          s!" ({span.length.toNat} bytes).\n" := rfl
    rw [htext, count_eq, number_toNat, number_toNat, Span.toNat_length hle]
    simp only [← String.append_assoc]
    rfl
  | ram block => exact text_sized "Dry run: would write RAM " block
  | page block => exact text_sized "Dry run: would write flash page " block
  | start addr =>
    have htext : (Action.start addr).line.text =
        "Dry run: would execute at " ++ Hex.number addr.toNat ++ ".\n" := rfl
    rw [htext, number_toNat]
    rfl

theorem chars_eq_letters (lines : List Line) : Line.chars lines = letters (lines.map Line.text) := by
  rw [letters, List.flatMap_map]
  rfl

variable {plan : Plan}

/-- **The lines about the actions of a loadable plan** are what is told of them. -/
theorem chars_lines (h : plan.Loadable) (layout : Layout) (allowFlash start : Bool) :
    Line.chars ((plan.actions layout allowFlash start).map Action.line) =
      letters ((plan.actions layout allowFlash start).map Action.told) := by
  rw [chars_eq_letters, List.map_map]
  refine congrArg letters (List.map_congr_left fun action hmem => text_line ?_)
  rintro span rfl
  exact h.start_le_stop span (Plan.mem_erase_of_mem_actions hmem)

/-- The notes are what is told of the segments that are not written to flash. -/
theorem chars_notes (plan : Plan) : Line.chars plan.notes = letters plan.toldNotes := by
  rw [chars_eq_letters, Plan.notes, Plan.toldNotes, List.map_append]
  cases plan.mirrored <;> cases plan.skipped <;> rfl

/-- The last lines of a load are what is told at its end. -/
theorem chars_ending (plan : Plan) (layout : Layout) (allowFlash start : Bool) :
    Line.chars (ending plan layout allowFlash start) =
      letters (plan.toldEnd layout allowFlash start) := by
  rw [chars_eq_letters, ending, Plan.toldEnd]
  cases start with
  | false => rfl
  | true =>
    cases plan.startAddress layout allowFlash with
    | ok addr =>
      have htext : (Line.executing addr).text =
          "Executing at " ++ Hex.number addr.toNat ++ ".\n" := rfl
      rw [if_pos rfl, if_pos rfl, List.map_cons, htext, number_toNat]
      rfl
    | error problem => rfl

end Load

end PicoLoader

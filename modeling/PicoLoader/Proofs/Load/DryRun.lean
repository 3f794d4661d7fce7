import Mathlib.Data.List.Forall2
import PicoLoader.Proofs.Load.Telling
import PicoLoader.Report

/-!
# A dry run predicts the load

A dry run (`PicoLoader.Report.print`) and a load go through a plan on their own, one line for each
action here, one or more calls for each there. This file says that they agree: the lines tell the
actions of the plan (`PicoLoader.Plan.actions`) one after the other, letter by letter
(`PicoLoader.Load.Action.told`), and the calls fall into groups, one for each action in the same
order, that carry it out (`PicoLoader.Load.Performs`).

The plan has to be loadable for that (`PicoLoader.Plan.Loadable`), because a dry run does not look
where a block ends. `PicoLoader.Load.Predicts` puts the statements together.
-/

namespace PicoLoader

open Memory Load

namespace Load

/-! ### What carries an action out -/

/-- Calls that write a block in chunks: as many as its size in chunks, rounded up, and each of them
the next chunk at its place. -/
def Tiles (block : Block) (calls : List Call) : Prop :=
  calls.length = (block.size + 1023) / 1024 ∧
    ∀ i < calls.length, ∃ addr, addr.toNat = block.addr.toNat + 1024 * i ∧
      calls[i]? = some (.write addr ((block.bytes.drop (1024 * i)).take 1024))

/-- **The calls that carry an action out.** -/
inductive Performs : Action → List Call → Prop
  | exitXip : Performs .exitXip [.exitXip]
  | erase (span : Span) (h : span.start.toNat + span.length.toNat = span.stop.toNat) :
      Performs (.erase span) [.erase span.start span.length]
  | ram (block : Block) (calls : List Call) (h : Tiles block calls) : Performs (.ram block) calls
  | page (block : Block) : Performs (.page block) [.write block.addr block.bytes]
  | start (addr : UInt32) : Performs (.start addr) [.exec addr]

/-- The calls for a block inside the address space write it in chunks. -/
theorem tiles_calls_ram {block : Block} (hfits : block.stop ≤ UInt32.size) :
    Tiles block (Action.ram block).calls := by
  have hlength : (Action.ram block).calls.length = block.chunkCount := by
    rw [Action.calls_ram, List.length_map, Block.chunks, List.length_map, List.length_range]
  refine ⟨hlength, fun i hi => ⟨(block.chunk i).addr, ?_, ?_⟩⟩
  · rw [Block.toNat_addr_chunk hfits (hlength ▸ hi), chunkSize, Nat.mul_comm]
  · rw [hlength] at hi
    rw [Action.calls_ram, Block.chunks, List.getElem?_map, List.getElem?_map,
      List.getElem?_range hi,
      Nat.mul_comm]
    rfl

variable {plan : Plan} {layout : Layout} {allowFlash start : Bool}

/-- **The calls of each action carry it out.** -/
theorem performs_calls (h : plan.Loadable) {action : Action}
    (hmem : action ∈ plan.actions layout allowFlash start) :
    Performs action action.calls := by
  cases action with
  | exitXip => exact .exitXip
  | erase span =>
    have hle := UInt32.le_iff_toNat_le.mp
      (h.start_le_stop span (Plan.mem_erase_of_mem_actions hmem))
    refine .erase span ?_
    rw [Span.toNat_length hle]
    omega
  | ram block =>
    have hstop := h.stop_le block (Plan.mem_ram_of_mem_actions hmem)
    exact .ram block _ (tiles_calls_ram (Nat.le_succ_of_le hstop))
  | page page => exact .page page
  | start addr => exact .start addr

/-! ### The dry run -/

/-- A sink without a limit takes all lines. -/
theorem printLines_unlimited (text : String) (lines : List Line) :
    ∃ text', Sink.printLines ⟨text, none⟩ lines = (.ok (), ⟨text', none⟩) ∧
      text'.toList = text.toList ++ Line.chars lines := by
  induction lines generalizing text with
  | nil => exact ⟨text, rfl, (List.append_nil _).symm⟩
  | cons line lines ih =>
    obtain ⟨text', heq, htext⟩ := ih (text ++ line.text)
    refine ⟨text', heq, ?_⟩
    rw [htext, String.toList_append, List.append_assoc, Line.chars_cons]

theorem map_line_loading (plan : Plan) :
    plan.loading.map Action.line = Report.flashLines plan ++ Report.writeLines plan := by
  have hflash : (if plan.writesFlash then Action.exitXip :: plan.erase.map .erase
      else []).map Action.line = Report.flashLines plan := by
    rw [Report.flashLines]
    split
    · rw [List.map_cons, List.map_map]
      rfl
    · rfl
  rw [Plan.loading, List.map_append, List.map_append, hflash, List.map_map, List.map_map,
    Report.writeLines, List.append_assoc]
  rfl

/-- The last line of a dry run that comes to its end. -/
def dryEnding : Except Fault Unit → List Line
  | .ok () => [.dryRunComplete]
  | .error _ => []

/-- **The lines of a dry run** are the notes, the lines of the actions, and a last line, unless
the image cannot be started. -/
theorem exists_lines_eq (plan : Plan) (layout : Layout) (allowFlash start : Bool) :
    ∃ problem?, halt? (endSteps plan layout allowFlash start) = problem?.map Fault.plan ∧
      Report.lines plan layout allowFlash start =
        (plan.notes ++ (plan.actions layout allowFlash start).map Action.line ++
          dryEnding (resultOf (problem?.map Fault.plan)), problem?) := by
  have hwritten : plan.notes ++ Report.flashLines plan ++ Report.writeLines plan =
      plan.notes ++ plan.loading.map Action.line := by
    rw [map_line_loading, List.append_assoc]
  simp only [Report.lines, hwritten, Plan.actions, List.map_append]
  cases start with
  | false => exact ⟨none, rfl, by simp [Plan.starting, resultOf, dryEnding]⟩
  | true =>
    simp only [endSteps, Plan.starting, if_true]
    cases plan.startAddress layout allowFlash with
    | ok addr => exact ⟨none, rfl, by simp [Action.line, resultOf, dryEnding]⟩
    | error problem => exact ⟨some problem, rfl, by simp [resultOf, dryEnding]⟩

/-- **A dry run with an unlimited sink** prints its lines, and fails where the load would for want
of an address to start at. -/
theorem print_unlimited_spec (plan : Plan) (layout : Layout) (allowFlash start : Bool) :
    (Report.print plan layout allowFlash start .unlimited).1 =
      resultOf (halt? (endSteps plan layout allowFlash start)) ∧
    (Report.print plan layout allowFlash start .unlimited).2.text.toList =
      Line.chars (plan.notes ++ (plan.actions layout allowFlash start).map Action.line ++
        dryEnding (resultOf (halt? (endSteps plan layout allowFlash start)))) := by
  obtain ⟨problem?, hhalt, hlines⟩ := exists_lines_eq plan layout allowFlash start
  obtain ⟨text, hprint, htext⟩ := printLines_unlimited "" (plan.notes ++
    (plan.actions layout allowFlash start).map Action.line ++
      dryEnding (resultOf (problem?.map Fault.plan)))
  rw [hhalt, Report.print, hlines]
  simp only [Sink.unlimited, hprint]
  cases problem? with
  | none => exact ⟨rfl, htext⟩
  | some problem => exact ⟨rfl, htext⟩

/-- The last line of a dry run is told if and only if the dry run succeeds. -/
theorem chars_dryEnding (result : Except Fault Unit) : Line.chars (dryEnding result) =
    letters (if result = .ok () then ["Dry run complete.\n"] else []) := by
  cases result with
  | ok done => rfl
  | error fault => rw [if_neg (by simp)]; rfl

/-! ### The statement -/

/-- **A dry run predicts the load**, for an unlimited sink and a load on which nothing fails. -/
structure Predicts (plan : Plan) (layout : Layout) (allowFlash start : Bool) : Prop where
  /-- Both succeed, or both fail with the same fault. -/
  result_eq : (Report.print plan layout allowFlash start .unlimited).1 =
    (ideal plan layout allowFlash start).result
  /-- The dry run tells the notes, each of the actions, and if it succeeds that it is over. -/
  report_text : (Report.print plan layout allowFlash start .unlimited).2.text.toList =
    letters (plan.toldNotes ++ (plan.actions layout allowFlash start).map Action.told ++
      if (ideal plan layout allowFlash start).result = .ok () then ["Dry run complete.\n"] else [])
  /-- The load tells the same notes, and then what happens at its end. -/
  load_text : (ideal plan layout allowFlash start).text =
    letters (plan.toldNotes ++ plan.toldEnd layout allowFlash start)
  /-- Once the interface is taken over, the calls of the load are groups of calls that carry out the
  actions one by one, in order. -/
  calls : ∃ groups : List (List Call),
    (ideal plan layout allowFlash start).calls = .resetInterface :: groups.flatten ∧
    List.Forall₂ Performs (plan.actions layout allowFlash start) groups

/-- **A dry run predicts the load** of every loadable plan, and the plan of an image is loadable. -/
theorem dryRun_predicts_load (plan : Plan) (layout : Layout) (allowFlash start : Bool) :
    (∀ (image : Elf.Image) (planned : Layout) (planFlash : Bool),
      Plan.build image planned planFlash = .ok plan → plan.Loadable) ∧
    (plan.Loadable → Predicts plan layout allowFlash start) := by
  refine ⟨fun image planned planFlash h => Plan.loadable_of_build h, ?_⟩
  intro h
  obtain ⟨hresult, hcalls, htext⟩ := ideal_of_loadable layout allowFlash start h
  obtain ⟨hprinted, hlines⟩ := print_unlimited_spec plan layout allowFlash start
  refine ⟨hprinted.trans hresult.symm, ?_, ?_, ?_⟩
  · rw [hlines, hresult, Line.chars_append, Line.chars_append, letters_append, letters_append,
      chars_notes, chars_lines h, chars_dryEnding]
  · rw [htext, Line.chars_append, letters_append, chars_notes, chars_ending]
  · refine ⟨(plan.actions layout allowFlash start).map Action.calls, ?_, ?_⟩
    · rw [hcalls, List.flatMap_def]
    · rw [List.forall₂_map_right_iff, List.forall₂_same]
      intro action hmem
      exact performs_calls h hmem

/-- A file with a segment for RAM that takes two writes, and a short segment for flash. -/
def ramAndFlash : Elf.Image where
  header := ⟨2, 40, 1, 0x20000000, 52, 0, 0, 32, 2, 0⟩
  segments := [⟨1, 0, 0x20000000, 0x20000000, 1025, 1025, 5, 4⟩,
    ⟨1, 0, 0x10000000, 0x10000000, 2, 2, 5, 4⟩]
  bytes := List.replicate 1025 7

/-- The plan of this file is loadable, so that its dry run predicts its load: here is what is told,
and what is done. -/
theorem dryRun_predicts_ramAndFlash :
    ∃ plan, Plan.build ramAndFlash .rp2040 true = .ok plan ∧ plan.Loadable ∧
      Predicts plan .rp2040 true true ∧
      (Report.print plan .rp2040 true true .unlimited).2.text =
        "Dry run: would exit XIP mode.\n" ++
        "Dry run: would erase flash 0x10000000-0x10001000 (4096 bytes).\n" ++
        "Dry run: would write RAM 0x20000000 (1025 bytes).\n" ++
        "Dry run: would write flash page 0x10000000 (256 bytes).\n" ++
        "Dry run: would execute at 0x20000000.\n" ++
        "Dry run complete.\n" ∧
      (ideal plan .rp2040 true true).calls =
        [.resetInterface, .exitXip, .erase 0x10000000 4096,
          .write 0x20000000 (List.replicate 1024 7), .write 0x20000400 [7],
          .write 0x10000000 (7 :: 7 :: List.replicate 254 0), .exec 0x20000000] := by
  let plan : Plan := ⟨[⟨0x20000000, List.replicate 1025 7⟩],
    ⟨[⟨0x10000000, 7 :: 7 :: List.replicate 254 0⟩], List.pairwise_singleton _ _⟩,
    [⟨0x10000000, 0x10001000⟩], false, false, 0x20000000⟩
  have hbuild : Plan.build ramAndFlash .rp2040 true = .ok plan := by decide +kernel
  have hloadable := (dryRun_predicts_load _ .rp2040 true true).1 ramAndFlash .rp2040 true hbuild
  refine ⟨plan, hbuild, hloadable, (dryRun_predicts_load _ .rp2040 true true).2 hloadable, ?_, ?_⟩
  · decide +kernel
  · decide +kernel

end Load

end PicoLoader

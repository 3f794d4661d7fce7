import PicoLoader.Output.Sink
import PicoLoader.Plan.Entry

/-!
# Dry runs

A dry run says what a load would do, one line for each operation, and touches no device. The lines
follow the order of the load: notes, erasing, RAM, flash pages, start.

* `PicoLoader.Report.lines` – the lines of a plan, and the problem they end with if the image cannot
  be started;
* `PicoLoader.Report.print` – gives them to a sink;
* `PicoLoader.Report.run` – the whole dry run of a file, which always assumes the smaller layout.
-/

namespace PicoLoader.Report

open Memory

/-- The lines about flash that come before any write. -/
def flashLines (plan : Plan) : List Line :=
  if plan.writesFlash then .wouldExitXip :: plan.erase.map .wouldErase else []

/-- The lines about what would be written. -/
def writeLines (plan : Plan) : List Line :=
  (plan.ram.map fun block => .wouldWriteRam block.addr block.size) ++
    (plan.pages.pages.map fun page => .wouldWritePage page.addr page.size)

/-- The lines of a plan, and the problem they end with, if there is one. With `start` the image
would be started at the end. -/
def lines (plan : Plan) (layout : Layout) (allowFlash start : Bool) :
    List Line × Option Plan.Problem :=
  let written := plan.notes ++ flashLines plan ++ writeLines plan
  if start then
    match plan.startAddress layout allowFlash with
    | .ok addr => (written ++ [.wouldExecute addr, .dryRunComplete], none)
    | .error problem => (written, some problem)
  else (written ++ [.dryRunComplete], none)

/-- Gives the lines of a plan to a sink; then fails with the problem, if there is one. -/
def print (plan : Plan) (layout : Layout) (allowFlash start : Bool) (sink : Sink) :
    Except Fault Unit × Sink :=
  let (lines, problem?) := lines plan layout allowFlash start
  match sink.printLines lines, problem? with
  | (.ok (), sink), some problem => (.error (.plan problem), sink)
  | printed, _ => printed

/-- The layout that a dry run assumes. -/
def layout : Layout := .rp2040

/-- **The dry run of a file**: what became of it, the sink, and what was logged. The assumed layout
is printed before the file is looked at. -/
def run (file : Except Elf.Error (List UInt8)) (allowFlash start : Bool) (sink : Sink) :
    Except Fault Unit × Sink × List Log.Entry :=
  match sink.print (Line.assumedLayout layout).text with
  | (.error fault, sink) => (.error fault, sink, [])
  | (.ok (), sink) =>
    match Plan.ofFile file layout allowFlash with
    | (.error fault, log) => (.error fault, sink, log)
    | (.ok plan, log) =>
      let (result, sink) := print plan layout allowFlash start sink
      (result, sink, log)

end PicoLoader.Report

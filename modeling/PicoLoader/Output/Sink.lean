import PicoLoader.Fault
import PicoLoader.Output.Line

/-!
# Where output goes

A sink takes text. It may have room for so many characters only; text that does not fit is cut
where the room ends, and the attempt fails. Once a sink is full it stays full.
-/

namespace PicoLoader

/-- The text taken so far, and how much more will be taken: any amount if `room` is none. -/
structure Sink where
  text : String
  room : Option Nat
deriving DecidableEq, Repr

namespace Sink

/-- A sink with nothing in it that takes any amount. -/
def unlimited : Sink := ⟨"", none⟩

/-- A sink with nothing in it that takes `room` characters. -/
def limited (room : Nat) : Sink := ⟨"", some room⟩

/-- The fault of a sink without room for what it is given. -/
def full : Fault := .host "sink full"

/-- Gives `text` to the sink. -/
def print (sink : Sink) (text : String) : Except Fault Unit × Sink :=
  match sink.room with
  | none => (.ok (), ⟨sink.text ++ text, none⟩)
  | some room =>
    if text.length ≤ room then (.ok (), ⟨sink.text ++ text, some (room - text.length)⟩)
    else (.error full, ⟨sink.text ++ String.ofList (text.toList.take room), some 0⟩)

/-- Gives lines to the sink, until one does not fit. -/
def printLines (sink : Sink) : List Line → Except Fault Unit × Sink
  | [] => (.ok (), sink)
  | line :: lines =>
    match sink.print line.text with
    | (.ok (), sink) => sink.printLines lines
    | (.error fault, sink) => (.error fault, sink)

/-- Without a limit every text is taken whole. -/
@[simp] theorem print_unlimited (text more : String) :
    print ⟨text, none⟩ more = (.ok (), ⟨text ++ more, none⟩) := rfl

end Sink

end PicoLoader

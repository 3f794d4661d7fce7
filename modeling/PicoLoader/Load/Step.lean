import PicoLoader.Attempt
import PicoLoader.Load.Call
import PicoLoader.Log
import PicoLoader.Output.Sink

/-!
# Steps of a load

A load is a list of steps, and running it is one recursion over the list that stops at the first
failure. What may fail and what happens then is part of the step:

* `attempt` – a call whose failure is logged as a warning and then forgotten;
* `require` – a call whose failure ends the load, with the stage and the address it was for;
* `note` – a message for the log;
* `say` – a line of output, which ends the load if the sink is full;
* `stop` – the end of the load, with a fault.

`PicoLoader.Load.run` runs steps on any `PicoLoader.Load.Target`. Main statement: `run_append`,
which says that a list is run part by part.
-/

namespace PicoLoader.Load

/-- One step of a load. -/
inductive Step where
  | attempt (call : Call) (warning : String)
  | require (call : Call) (stage : Stage)
  | note (entry : Log.Entry)
  | say (line : Line)
  | stop (fault : Fault)
deriving DecidableEq, Repr

/-- Something that calls can be made to, with a state `σ` of its own. -/
structure Target (σ : Type) where
  perform : Call → Attempt σ Unit
  note : Log.Entry → σ → σ

variable {σ : Type}

/-- Runs one step: whether the load goes on, the state of the target, and the sink. -/
def runStep (target : Target σ) (state : σ) (sink : Sink) : Step → Except Fault Unit × σ × Sink
  | .attempt call warning =>
    match target.perform call state with
    | (.ok (), state) => (.ok (), state, sink)
    | (.error fault, state) =>
      let text := warning ++ " (" ++ fault.message ++ ")"
      (.ok (), target.note ⟨.warn, .load, text⟩ state, sink)
  | .require call stage =>
    match target.perform call state with
    | (.ok (), state) => (.ok (), state, sink)
    | (.error fault, state) => (.error (.load stage call.addr fault), state, sink)
  | .note entry => (.ok (), target.note entry state, sink)
  | .say line =>
    let (result, sink) := sink.print line.text
    (result, state, sink)
  | .stop fault => (.error fault, state, sink)

/-- **Runs steps** in order, up to the first that fails. -/
def run (target : Target σ) (state : σ) (sink : Sink) : List Step → Except Fault Unit × σ × Sink
  | [] => (.ok (), state, sink)
  | step :: steps =>
    match runStep target state sink step with
    | (.ok (), state, sink) => run target state sink steps
    | (.error fault, state, sink) => (.error fault, state, sink)

@[simp] theorem run_nil (target : Target σ) (state : σ) (sink : Sink) :
    run target state sink [] = (.ok (), state, sink) := rfl

/-- **A list is run part by part**: the second part runs where the first has succeeded. -/
theorem run_append (target : Target σ) (state : σ) (sink : Sink) (first second : List Step) :
    run target state sink (first ++ second) =
      match run target state sink first with
      | (.ok (), state, sink) => run target state sink second
      | (.error fault, state, sink) => (.error fault, state, sink) := by
  induction first generalizing state sink with
  | nil => rfl
  | cons step steps ih =>
    simp only [List.cons_append, run]
    split
    · exact ih _ _
    · rfl

end PicoLoader.Load

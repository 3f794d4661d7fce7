import PicoLoader.Load.Step

/-!
# A target that records

The plainest target: it writes down each call and answers as it was told to beforehand, by the
number of the call. It shows what a load asks for, under any pattern of failures.
-/

namespace PicoLoader.Load

/-- The calls made so far, and the log. -/
structure Record where
  calls : List Call
  log : List Log.Entry
deriving DecidableEq, Repr

/-- How a call fails: with a fault, and with messages about what led to it. -/
structure Failure where
  fault : Fault
  log : List Log.Entry
deriving DecidableEq, Repr

namespace Record

/-- No calls yet. -/
def empty : Record := ⟨[], []⟩

/-- The target whose call number `i`, counted from zero, fails as `failures i` says, if it says
anything. A call that fails is recorded like any other. -/
def target (failures : Nat → Option Failure) : Target Record where
  perform call record :=
    let after := { record with calls := record.calls ++ [call] }
    match failures record.calls.length with
    | some failure => (.error failure.fault, { after with log := after.log ++ failure.log })
    | none => (.ok (), after)
  note entry record := { record with log := record.log ++ [entry] }

end Record

end PicoLoader.Load

import PicoLoader.Load.OverUsb
import PicoLoader.Proofs.Load.Runs
import PicoLoader.Proofs.Picoboot.Operations

/-!
# Calls on the wire

A session carries out the calls of a load one after the other, whatever becomes of each of them.
What a call does on the bus and how it ends depends on the connection, the token and the responses
to come, and not on what has been logged (`perform_spec`, `SameBus.perform`). So the calls may be
followed on their own, without the messages in between:

* `PicoLoader.Load.after` – the session after some calls;
* `PicoLoader.Load.blocks` – the exchanges of the calls, one block for each call;
* `PicoLoader.Load.FailsAsOn` – failures that are *those of a session*: each call fails as it does
  on the session, after the calls before it.

Main statement: `Ran.simulates`. A run on the recording target, with the failures of a session, is
the run on the session: the same result, the same output, and the bus is left as the calls of the
run leave it.
-/

namespace PicoLoader.Load

open Picoboot Usb

/-! ### One call -/

namespace Call

variable (call : Call) (endpoints : Endpoints) (token : UInt32) (responses : List Response)

/-- The exchanges of a call. -/
def exchanges : List Exchange :=
  match call.operation? with
  | some operation => operation.exchanges endpoints token responses
  | none => carryOut [takeOverPhase endpoints] responses

/-- How a call ends. -/
def fault? : Option Fault :=
  match call.operation? with
  | some operation => faultOf (operation.result endpoints token responses)
  | none => firstFault (carryOut [takeOverPhase endpoints] responses)

/-- The token after a call: only operations take one. -/
def tokenAfter : UInt32 := if call.operation?.isSome then token + 1 else token

end Call

/-- The exchanges of a call in a session. -/
def exchangesOf (session : Session) (call : Call) : List Exchange :=
  call.exchanges session.connection.endpoints session.token session.host.responses

/-- The fault of a call in a session. -/
def failureOf (session : Session) (call : Call) : Option Fault :=
  faultOf (sessionTarget.perform call session).1

/-- The session after a call. -/
def next (session : Session) (call : Call) : Session := (sessionTarget.perform call session).2

/-- **A call makes its exchanges, and ends as they say.** -/
theorem perform_spec (session : Session) (call : Call) :
    failureOf session call =
        call.fault? session.connection.endpoints session.token session.host.responses ∧
      Made (exchangesOf session call) session.host (next session call).host ∧
      (next session call).connection = session.connection ∧
      (next session call).token = call.tokenAfter session.token := by
  simp only [failureOf, next, exchangesOf, Call.fault?, Call.exchanges, Call.tokenAfter,
    sessionTarget]
  cases call.operation? with
  | some operation =>
    obtain ⟨hresult, hmade, hconnection, htoken⟩ := session.perform_spec operation
    exact ⟨congrArg faultOf hresult, hmade, hconnection, htoken⟩
  | none =>
    have hfollows := follows_takeOver session.connection.endpoints
    exact ⟨hfollows.faultOf_eq session.host, hfollows.made session.host, rfl, rfl⟩

/-! ### What the log does not matter to -/

/-- Two sessions are at the same point of the same bus; only their logs may differ. -/
structure SameBus (session session' : Session) : Prop where
  connection : session.connection = session'.connection
  token : session.token = session'.token
  responses : session.host.responses = session'.host.responses
  trace : session.host.trace = session'.host.trace

namespace SameBus

variable {session session' : Session}

/-- A message leaves the bus alone. -/
theorem note (h : SameBus session session') (entry : Log.Entry) :
    SameBus session (sessionTarget.note entry session') :=
  ⟨h.connection, h.token, h.responses, h.trace⟩

/-- **A call does the same on the same bus.** -/
theorem perform (h : SameBus session session') (call : Call) :
    failureOf session' call = failureOf session call ∧
      SameBus (next session call) (next session' call) := by
  obtain ⟨hfault, hmade, hconnection, htoken⟩ := perform_spec session call
  obtain ⟨hfault', hmade', hconnection', htoken'⟩ := perform_spec session' call
  have hexchanges : exchangesOf session' call = exchangesOf session call := by
    rw [exchangesOf, exchangesOf, h.connection, h.token, h.responses]
  rw [hexchanges] at hmade'
  refine ⟨?_, ?_, ?_, ?_, ?_⟩
  · rw [hfault, hfault', h.connection, h.token, h.responses]
  · rw [hconnection, hconnection', h.connection]
  · rw [htoken, htoken', h.token]
  · rw [hmade.responses_eq, hmade'.responses_eq, h.responses]
  · rw [hmade.trace_eq, hmade'.trace_eq, h.trace]

end SameBus

/-! ### Calls in sequence -/

/-- The session after some calls, whatever has become of them. -/
def after (session : Session) (calls : List Call) : Session := calls.foldl next session

@[simp] theorem after_nil (session : Session) : after session [] = session := rfl

@[simp] theorem after_cons (session : Session) (call : Call) (calls : List Call) :
    after session (call :: calls) = after (next session call) calls := rfl

/-- The exchanges of some calls, call by call. -/
def blocks (session : Session) : List Call → List (List Exchange)
  | [] => []
  | call :: calls => exchangesOf session call :: blocks (next session call) calls

@[simp] theorem length_blocks (session : Session) (calls : List Call) :
    (blocks session calls).length = calls.length := by
  induction calls generalizing session with
  | nil => rfl
  | cons call calls ih => simp [blocks, ih]

/-- A block belongs to a call, and is what the call does after those before it. -/
theorem getElem?_blocks {session : Session} {calls : List Call} {i : Nat} {call : Call}
    (h : calls[i]? = some call) :
    (blocks session calls)[i]? = some (exchangesOf (after session (calls.take i)) call) := by
  induction calls generalizing session i with
  | nil => cases h
  | cons first calls ih =>
    cases i with
    | zero =>
      obtain rfl := Option.some.inj h
      rfl
    | succ i => exact ih h

/-- **Calls leave the exchanges of all of them**, in order. -/
theorem made_after (session : Session) (calls : List Call) :
    Made (blocks session calls).flatten session.host (after session calls).host := by
  induction calls generalizing session with
  | nil => exact .nil rfl rfl
  | cons call calls ih => exact (perform_spec session call).2.1.trans (ih (next session call))

theorem connection_after (session : Session) (calls : List Call) :
    (after session calls).connection = session.connection := by
  induction calls generalizing session with
  | nil => rfl
  | cons call calls ih =>
    rw [after_cons, ih, (perform_spec session call).2.2.1]

/-! ### The failures of a session -/

/-- Failures are *those of a session* for some calls if each of the calls fails as it does on the
session, after the calls before it. -/
def FailsAsOn (session : Session) (failures : Nat → Option Failure) (calls : List Call) : Prop :=
  ∀ i call, calls[i]? = some call →
    (failures i).map Failure.fault = failureOf (after session (calls.take i)) call

/-- The failures of a session for some calls. -/
def failuresOn (session : Session) (calls : List Call) (i : Nat) : Option Failure :=
  match calls[i]? with
  | some call => (failureOf (after session (calls.take i)) call).map fun fault => ⟨fault, []⟩
  | none => none

/-- There are such failures, for calls and for the first of them. -/
theorem failsAsOn_failuresOn (session : Session) {first calls : List Call} (h : first <+: calls) :
    FailsAsOn session (failuresOn session calls) first := by
  intro i call hcall
  obtain ⟨rest, rfl⟩ := h
  have hlt := (List.getElem?_eq_some_iff.mp hcall).1
  have hwhole : (first ++ rest)[i]? = some call := by
    rw [List.getElem?_append_left hlt, hcall]
  rw [failuresOn, hwhole, List.take_append_of_le_length (Nat.le_of_lt hlt), Option.map_map]
  exact congrFun Option.map_id _

/-- The first call fails as on the session, the others as on the session after it. -/
theorem FailsAsOn.of_cons {session : Session} {failures : Nat → Option Failure}
    {call : Call} {before calls : List Call}
    (h : FailsAsOn session (fun i => failures (before.length + i)) (call :: calls)) :
    (failures before.length).map Failure.fault = failureOf session call ∧
      FailsAsOn (next session call) (fun i => failures ((before ++ [call]).length + i)) calls := by
  refine ⟨h 0 call rfl, fun i c hc => ?_⟩
  show (failures ((before ++ [call]).length + i)).map Failure.fault = _
  rw [length_snoc_add]
  exact h (i + 1) c hc

/-! ### Runs -/

variable {failures : Nat → Option Failure} {record : Record} {sink : Sink} {steps : List Step}
  {out : Outcome}

/-- A run that makes a call first makes the others behind it. -/
theorem eq_cons_of_snoc {before made more all : List Call} {call : Call} (h : all = before ++ made)
    (h' : all = before ++ [call] ++ more) : made = call :: more := by
  rw [h, List.append_assoc] at h'
  exact List.append_cancel_left h'

/-- **A recorded run with the failures of a session is the run on the session.** The session may be
ahead of the calls by messages in its log. -/
theorem Ran.simulates (h : Ran failures record sink steps out) {made : List Call}
    (hmade : out.calls = record.calls ++ made) {session session' : Session}
    (hsame : SameBus session session')
    (hfails : FailsAsOn session (fun i => failures (record.calls.length + i)) made) :
    ∃ final, run sessionTarget session' sink steps = (out.result, final, out.2.2) ∧
      SameBus (after session made) final := by
  induction h generalizing made session session' with
  | done =>
    obtain rfl : made = [] := List.self_eq_append_right.mp hmade
    exact ⟨session', rfl, hsame⟩
  | @attempt record sink call text steps out rest ih =>
    obtain ⟨made, heq, -⟩ := rest.calls_isPrefix
    obtain rfl := eq_cons_of_snoc hmade heq
    obtain ⟨-, hfails⟩ := hfails.of_cons
    obtain ⟨-, hnext⟩ := hsame.perform call
    -- The run goes on whether or not the call fails; only the log tells the difference.
    rcases hperform : sessionTarget.perform call session' with ⟨fault | _, session''⟩ <;>
      rw [next, next, hperform] at hnext
    · obtain ⟨final, hrun, hfinal⟩ := ih heq (hnext.note _) hfails
      exact ⟨final, by simpa [run, runStep, hperform] using hrun, hfinal⟩
    · obtain ⟨final, hrun, hfinal⟩ := ih heq hnext hfails
      exact ⟨final, by simpa [run, runStep, hperform] using hrun, hfinal⟩
  | @require record sink call stage steps out h rest ih =>
    obtain ⟨made, heq, -⟩ := rest.calls_isPrefix
    obtain rfl := eq_cons_of_snoc hmade heq
    obtain ⟨hnone, hfails⟩ := hfails.of_cons
    obtain ⟨hfault, hnext⟩ := hsame.perform call
    rw [← hnone, h, failureOf] at hfault
    rcases hperform : sessionTarget.perform call session' with ⟨fault | _, session''⟩ <;>
      rw [hperform] at hfault
    · cases hfault
    · rw [next, next, hperform] at hnext
      obtain ⟨final, hrun, hfinal⟩ := ih heq hnext hfails
      exact ⟨final, by simpa [run, runStep, hperform] using hrun, hfinal⟩
  | @fail record sink call stage steps failure h =>
    obtain rfl : made = [call] := (List.append_cancel_left hmade).symm
    obtain ⟨hsome, -⟩ := hfails.of_cons
    obtain ⟨hfault, hnext⟩ := hsame.perform call
    rw [← hsome, h, failureOf] at hfault
    rcases hperform : sessionTarget.perform call session' with ⟨fault | _, session''⟩ <;>
      rw [hperform] at hfault
    · obtain rfl : fault = failure.fault := Option.some.inj hfault
      rw [next, next, hperform] at hnext
      exact ⟨session'', by simp [run, runStep, hperform], hnext⟩
    · cases hfault
  | @note record sink entry steps out rest ih =>
    obtain ⟨final, hrun, hfinal⟩ := ih hmade (hsame.note entry) hfails
    exact ⟨final, hrun, hfinal⟩
  | @say record sink sink' line steps out h rest ih =>
    obtain ⟨final, hrun, hfinal⟩ := ih hmade hsame hfails
    exact ⟨final, by simp [run, runStep, h, hrun], hfinal⟩
  | @full record sink sink' line steps fault h =>
    obtain rfl : made = [] := List.self_eq_append_right.mp hmade
    exact ⟨session', by simp [run, runStep, h], hsame⟩
  | stop =>
    obtain rfl : made = [] := List.self_eq_append_right.mp hmade
    exact ⟨session', rfl, hsame⟩

end PicoLoader.Load

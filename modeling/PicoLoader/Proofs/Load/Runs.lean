import Mathlib.Logic.Function.Basic
import PicoLoader.Load.Recorder
import PicoLoader.Proofs.Load.Requests

/-!
# How far a run of steps gets

`PicoLoader.Load.run` goes through a list of steps and stops at the first failure. This file
compares what a run *does* with what its steps *ask for* (`PicoLoader.Load.requests`,
`PicoLoader.Load.said`), on the target that records its calls and fails where it is told to, and
with a sink that may have room for so many characters only.

The runs on that target are given a second time, as a relation: `PicoLoader.Load.Ran` has one rule
for each way in which a step is carried out, and `ran_run` says that every run follows the rules. So
a property of runs is shown by induction on the rules.

* `Ran.calls_isPrefix`, `Ran.text_isPrefix` – a run does a prefix of what its steps ask for;
* `Ran.of_ok` – a run that succeeds does all of it;
* `Ran.last_of_fatal` – a call that fails, and may not, is the last, and gives the fault;
* `Ran.congr` – nothing but the log depends on the failures that are forgotten;
* `Ran.forget` – and each of these failures leaves its own messages in the log, and nothing else.

`run_unfailing` says what is done where nothing fails.
-/

namespace PicoLoader

namespace Sink

variable {sink after : Sink} {text : String} {fault : Fault}

/-- What a sink takes, it takes whole, behind what it has. -/
theorem text_of_print (h : sink.print text = (.ok (), after)) :
    after.text.toList = sink.text.toList ++ text.toList := by
  simp only [print] at h
  split at h
  · obtain rfl := congrArg Prod.snd h
    exact String.toList_append
  split at h
  · obtain rfl := congrArg Prod.snd h
    exact String.toList_append
  · cases congrArg Prod.fst h

/-- What a sink has no room for, it takes in part. -/
theorem exists_part_of_print (h : sink.print text = (.error fault, after)) :
    ∃ part, after.text.toList = sink.text.toList ++ part ∧ part <+: text.toList ∧
      part.length < text.toList.length := by
  simp only [print] at h
  split at h
  · cases congrArg Prod.fst h
  split at h
  · cases congrArg Prod.fst h
  case isFalse room _ hroom =>
    obtain rfl := congrArg Prod.snd h
    refine ⟨text.toList.take room, ?_, List.take_prefix _ _, ?_⟩
    · rw [String.toList_append, String.toList_ofList]
    · rw [String.length_toList, List.length_take, String.length_toList]
      omega

end Sink

namespace Load

/-- The target all of whose calls succeed. -/
abbrev unfailing : Target Record := Record.target fun _ => none

/-- **Where nothing fails, a run does what its steps ask for.** -/
theorem run_unfailing (steps : List Step) (record : Record) (text : String) :
    ∃ log text', run unfailing record ⟨text, none⟩ steps =
        (resultOf (halt? steps), ⟨record.calls ++ (requests steps).map Prod.fst, log⟩,
          ⟨text', none⟩) ∧
      text'.toList = text.toList ++ Line.chars (said steps) := by
  induction steps generalizing record text with
  | nil => exact ⟨record.log, text, by simp [halt?, resultOf, requests], by simp [said]⟩
  | cons step steps ih =>
    cases step with
    | attempt call warning =>
      obtain ⟨log, text', heq, htext⟩ := ih ⟨record.calls ++ [call], record.log⟩ text
      exact ⟨log, text', by simpa [run, runStep, Record.target, requests, halt?] using heq, htext⟩
    | require call stage =>
      obtain ⟨log, text', heq, htext⟩ := ih ⟨record.calls ++ [call], record.log⟩ text
      exact ⟨log, text', by simpa [run, runStep, Record.target, requests, halt?] using heq, htext⟩
    | note entry =>
      obtain ⟨log, text', heq, htext⟩ := ih ⟨record.calls, record.log ++ [entry]⟩ text
      exact ⟨log, text', by simpa [run, runStep, Record.target, requests, halt?] using heq, htext⟩
    | say line =>
      obtain ⟨log, text', heq, htext⟩ := ih record (text ++ line.text)
      refine ⟨log, text', by simpa [run, runStep, requests, halt?] using heq, ?_⟩
      rw [htext, String.toList_append, List.append_assoc]
      rfl
    | stop fault =>
      exact ⟨record.log, text, by simp [run, runStep, halt?, resultOf, requests], by simp [said]⟩

/-! ### Runs as a relation -/

/-- What a recorded run leaves: the result, the record, and the sink. -/
abbrev Outcome : Type := Except Fault Unit × Record × Sink

namespace Outcome

/-- Whether and why the run ended early. -/
def result (out : Outcome) : Except Fault Unit := out.1

/-- The calls that were made. -/
def calls (out : Outcome) : List Call := out.2.1.calls

/-- The messages that were left. -/
def log (out : Outcome) : List Log.Entry := out.2.1.log

/-- The text that the sink took. -/
def text (out : Outcome) : List Char := out.2.2.text.toList

/-- The same, but with other messages. -/
def withLog (out : Outcome) (log : List Log.Entry) : Outcome :=
  (out.result, ⟨out.calls, log⟩, out.2.2)

section Fields

variable (result : Except Fault Unit) (record : Record) (sink : Sink)

@[simp] theorem result_mk : Outcome.result (result, record, sink) = result := rfl

@[simp] theorem calls_mk : Outcome.calls (result, record, sink) = record.calls := rfl

@[simp] theorem log_mk : Outcome.log (result, record, sink) = record.log := rfl

@[simp] theorem text_mk : Outcome.text (result, record, sink) = sink.text.toList := rfl

@[simp] theorem withLog_mk (log : List Log.Entry) :
    Outcome.withLog (result, record, sink) log = (result, ⟨record.calls, log⟩, sink) := rfl

end Fields

end Outcome

/-- What a forgotten failure leaves in the log: its own messages, and a warning with its cause. -/
def warned (failure : Failure) (text : String) : List Log.Entry :=
  failure.log ++ [⟨.warn, .load, text ++ " (" ++ failure.fault.message ++ ")"⟩]

/-- What call number `i` leaves in the log if its failure is forgotten. -/
def forgotten (failures : Nat → Option Failure) (i : Nat) (text : String) : List Log.Entry :=
  match failures i with
  | some failure => warned failure text
  | none => []

/-- The record after a call whose failure is forgotten. -/
def Record.tried (failures : Nat → Option Failure) (call : Call) (text : String)
    (record : Record) : Record :=
  ⟨record.calls ++ [call], record.log ++ forgotten failures record.calls.length text⟩

/-- Only the failure of the call itself counts for the record after it. -/
theorem Record.tried_congr {failures failures' : Nat → Option Failure} {record : Record}
    (h : failures' record.calls.length = failures record.calls.length) (call : Call)
    (text : String) : record.tried failures' call text = record.tried failures call text := by
  rw [tried, tried, forgotten, forgotten, h]

/-- **The recorded runs of steps**, one rule for each way in which a step is carried out. -/
inductive Ran (failures : Nat → Option Failure) : Record → Sink → List Step → Outcome → Prop
  | done {record sink} : Ran failures record sink [] (.ok (), record, sink)
  | attempt {record sink call text steps out}
      (rest : Ran failures (record.tried failures call text) sink steps out) :
      Ran failures record sink (.attempt call text :: steps) out
  | require {record sink call stage steps out} (h : failures record.calls.length = none)
      (rest : Ran failures ⟨record.calls ++ [call], record.log⟩ sink steps out) :
      Ran failures record sink (.require call stage :: steps) out
  | fail {record sink call stage steps failure} (h : failures record.calls.length = some failure) :
      Ran failures record sink (.require call stage :: steps)
        (.error (.load stage call.addr failure.fault),
          ⟨record.calls ++ [call], record.log ++ failure.log⟩, sink)
  | note {record sink entry steps out}
      (rest : Ran failures ⟨record.calls, record.log ++ [entry]⟩ sink steps out) :
      Ran failures record sink (.note entry :: steps) out
  | say {record sink sink' line steps out} (h : sink.print line.text = (.ok (), sink'))
      (rest : Ran failures record sink' steps out) :
      Ran failures record sink (.say line :: steps) out
  | full {record sink sink' line steps fault} (h : sink.print line.text = (.error fault, sink')) :
      Ran failures record sink (.say line :: steps) (.error fault, record, sink')
  | stop {record sink steps fault} :
      Ran failures record sink (.stop fault :: steps) (.error fault, record, sink)

variable {failures : Nat → Option Failure} {record : Record} {sink : Sink} {steps : List Step}
  {out : Outcome}

/-- **Every run follows the rules.** -/
theorem ran_run (failures : Nat → Option Failure) (record : Record) (sink : Sink)
    (steps : List Step) :
    Ran failures record sink steps (run (Record.target failures) record sink steps) := by
  induction steps generalizing record sink with
  | nil => exact .done
  | cons step steps ih =>
    cases step with
    | attempt call text =>
      refine .attempt ?_
      -- The run goes on whether or not the call fails; only the log tells the difference.
      cases h : failures record.calls.length with
      | none => simpa [run, runStep, Record.target, Record.tried, forgotten, h] using ih _ _
      | some failure =>
        simpa [run, runStep, Record.target, Record.tried, forgotten, h, warned] using ih _ _
    | require call stage =>
      cases h : failures record.calls.length with
      | none =>
        refine .require h ?_
        simpa [run, runStep, Record.target, h] using ih _ _
      | some failure =>
        simpa [run, runStep, Record.target, h] using Ran.fail h
    | note entry => exact .note (ih _ _)
    | say line =>
      cases h : sink.print line.text with
      | mk result sink' =>
        cases result with
        | ok =>
          refine .say h ?_
          simpa [run, runStep, h] using ih _ _
        | error fault => simpa [run, runStep, h] using Ran.full h
    | stop fault => exact .stop

/-- The rules leave no choice: there is one run of some steps. -/
theorem Ran.eq_run (h : Ran failures record sink steps out) :
    out = run (Record.target failures) record sink steps := by
  induction h with
  | done => rfl
  | @attempt record sink call text steps out rest ih =>
    rw [ih]
    cases h : failures record.calls.length with
    | none => simp [run, runStep, Record.target, Record.tried, forgotten, h]
    | some failure => simp [run, runStep, Record.target, Record.tried, forgotten, h, warned]
  | require h rest ih => simp [run, runStep, Record.target, h, ih]
  | fail h => simp [run, runStep, Record.target, h]
  | note rest ih => exact ih
  | say h rest ih => simp [run, runStep, h, ih]
  | full h => simp [run, runStep, h]
  | stop => rfl

/-- **A run goes part by part**: it ends in the first part, or the second part runs where the first
has succeeded. -/
theorem Ran.append_cases {first second : List Step}
    (h : Ran failures record sink (first ++ second) out) :
    (∃ fault, out.result = .error fault ∧ Ran failures record sink first out) ∨
      ∃ record' sink', Ran failures record sink first (.ok (), record', sink') ∧
        Ran failures record' sink' second out := by
  -- The rules leave no choice, so the two parts may be computed.
  have hfirst := ran_run failures record sink first
  have heq := h.eq_run
  rw [run_append] at heq
  split at heq
  case h_1 record' sink' hrun =>
    rw [hrun] at hfirst
    exact Or.inr ⟨record', sink', hfirst, heq ▸ ran_run failures record' sink' second⟩
  case h_2 fault record' sink' hrun =>
    rw [hrun, ← heq] at hfirst
    exact Or.inl ⟨fault, congrArg Outcome.result heq, hfirst⟩

/-! ### What every run does -/

/-- Behind one more call the number of a call that is still to come is one less. -/
theorem length_snoc_add (calls : List Call) (call : Call) (i : Nat) :
    (calls ++ [call]).length + i = calls.length + (i + 1) := by
  rw [List.length_append, List.length_singleton, Nat.add_assoc, Nat.add_comm 1 i]

theorem le_of_length_snoc_le (calls : List Call) (call : Call) {i : Nat}
    (h : (calls ++ [call]).length ≤ i) : calls.length ≤ i :=
  Nat.le_trans (List.prefix_append calls [call]).length_le h

/-- **The calls of a run are a prefix of those that its steps ask for.** -/
theorem Ran.calls_isPrefix (h : Ran failures record sink steps out) :
    ∃ made, out.calls = record.calls ++ made ∧ made <+: (requests steps).map Prod.fst := by
  induction h with
  | done => exact ⟨[], (List.append_nil _).symm, List.nil_prefix⟩
  | @attempt record sink call text steps out rest ih =>
    obtain ⟨made, heq, hmade⟩ := ih
    exact ⟨call :: made, by simpa [Record.tried] using heq, by simpa [requests] using hmade⟩
  | @require record sink call stage steps out h rest ih =>
    obtain ⟨made, heq, hmade⟩ := ih
    exact ⟨call :: made, by simpa using heq, by simpa [requests] using hmade⟩
  | @fail record sink call stage steps failure h =>
    exact ⟨[call], rfl, by simp [requests]⟩
  | note rest ih => exact ih
  | say h rest ih => exact ih
  | full h => exact ⟨[], (List.append_nil _).symm, List.nil_prefix⟩
  | stop => exact ⟨[], (List.append_nil _).symm, List.nil_prefix⟩

/-- **The text of a run is a prefix of what its steps say.** -/
theorem Ran.text_isPrefix (h : Ran failures record sink steps out) :
    ∃ told, out.text = sink.text.toList ++ told ∧ told <+: Line.chars (said steps) := by
  induction h with
  | done => exact ⟨[], (List.append_nil _).symm, List.nil_prefix⟩
  | attempt rest ih => exact ih
  | require h rest ih => exact ih
  | fail h => exact ⟨[], (List.append_nil _).symm, List.nil_prefix⟩
  | note rest ih => exact ih
  | @say record sink sink' line steps out h rest ih =>
    obtain ⟨told, heq, htold⟩ := ih
    refine ⟨line.text.toList ++ told, ?_, ?_⟩
    · rw [heq, Sink.text_of_print h, List.append_assoc]
    · exact (List.prefix_append_right_inj _).mpr htold
  | @full record sink sink' line steps fault h =>
    obtain ⟨part, heq, hpart, -⟩ := Sink.exists_part_of_print h
    exact ⟨part, heq, hpart.trans (List.prefix_append _ _)⟩
  | stop => exact ⟨[], (List.append_nil _).symm, List.nil_prefix⟩

/-- **A run that succeeds does all that its steps ask for**, and no call failed that may not. -/
theorem Ran.of_ok (h : Ran failures record sink steps out) (hok : out.result = .ok ()) :
    halt? steps = none ∧ out.calls = record.calls ++ (requests steps).map Prod.fst ∧
      out.text = sink.text.toList ++ Line.chars (said steps) ∧
      ∀ i call stage, (requests steps)[i]? = some (call, .fatal stage) →
        failures (record.calls.length + i) = none := by
  induction h with
  | done =>
    refine ⟨rfl, (List.append_nil _).symm, (List.append_nil _).symm, ?_⟩
    intro i call stage hreq
    cases hreq
  | @attempt record sink call text steps out rest ih =>
    obtain ⟨hhalt, hcalls, htext, hnone⟩ := ih hok
    refine ⟨hhalt, by simpa [Record.tried, requests] using hcalls, htext, ?_⟩
    intro i c stage hreq
    cases i with
    | zero => simp [requests] at hreq
    | succ i => exact length_snoc_add record.calls call i ▸ hnone i c stage hreq
  | @require record sink call stage steps out h rest ih =>
    obtain ⟨hhalt, hcalls, htext, hnone⟩ := ih hok
    refine ⟨hhalt, by simpa [requests] using hcalls, htext, ?_⟩
    intro i c stage' hreq
    cases i with
    | zero => exact h
    | succ i => exact length_snoc_add record.calls call i ▸ hnone i c stage' hreq
  | fail h => cases hok
  | note rest ih => exact ih hok
  | @say record sink sink' line steps out h rest ih =>
    obtain ⟨hhalt, hcalls, htext, hnone⟩ := ih hok
    refine ⟨hhalt, hcalls, ?_, hnone⟩
    rw [htext, Sink.text_of_print h, List.append_assoc]
    rfl
  | full h => cases hok
  | stop => cases hok

/-- **A call that fails, and may not, is the last call**, and the run fails with the stage and the
address of this call. -/
theorem Ran.last_of_fatal (h : Ran failures record sink steps out) {i : Nat} {call : Call}
    {stage : Stage} {failure : Failure} (hreq : (requests steps)[i]? = some (call, .fatal stage))
    (hmade : record.calls.length + i < out.calls.length)
    (hfail : failures (record.calls.length + i) = some failure) :
    out.calls.length = record.calls.length + i + 1 ∧
      out.result = .error (.load stage call.addr failure.fault) := by
  induction h generalizing i with
  | done => cases hreq
  | @attempt record sink c text steps out rest ih =>
    cases i with
    | zero => simp [requests] at hreq
    | succ i =>
      have hlen := length_snoc_add record.calls c i
      obtain ⟨hlast, hresult⟩ := ih hreq (hlen ▸ hmade) (hlen ▸ hfail)
      exact ⟨hlen ▸ hlast, hresult⟩
  | @require record sink c s steps out h rest ih =>
    cases i with
    | zero => exact absurd (h.symm.trans hfail) (Option.some_ne_none _).symm
    | succ i =>
      have hlen := length_snoc_add record.calls c i
      obtain ⟨hlast, hresult⟩ := ih hreq (hlen ▸ hmade) (hlen ▸ hfail)
      exact ⟨hlen ▸ hlast, hresult⟩
  | @fail record sink c s steps f h =>
    cases i with
    | zero =>
      obtain ⟨rfl, hstage⟩ := Prod.mk.inj (Option.some.inj hreq)
      obtain rfl := Severity.fatal.inj hstage
      obtain rfl := Option.some.inj (h.symm.trans hfail)
      exact ⟨by simp, rfl⟩
    | succ i =>
      rw [Outcome.calls_mk, List.length_append, List.length_singleton] at hmade
      omega
  | note rest ih => exact ih hreq hmade hfail
  | say h rest ih => exact ih hreq hmade hfail
  | full h => exact absurd hmade (by simp)
  | stop => exact absurd hmade (by simp)

/-! ### Failures that are forgotten -/

/-- **Only the log depends on the log**: what a run leaves behind the messages that are there is the
same whatever these are. -/
theorem Ran.exists_withLog (h : Ran failures record sink steps out) :
    ∃ more, out.log = record.log ++ more ∧
      ∀ log, Ran failures ⟨record.calls, log⟩ sink steps (out.withLog (log ++ more)) := by
  induction h with
  | done => exact ⟨[], (List.append_nil _).symm, fun log => by simpa [Outcome.withLog] using .done⟩
  | @attempt record sink call text steps out rest ih =>
    obtain ⟨more, heq, hran⟩ := ih
    refine ⟨forgotten failures record.calls.length text ++ more, ?_, fun log => .attempt ?_⟩
    · rw [heq, Record.tried, List.append_assoc]
    · rw [← List.append_assoc]
      exact hran _
  | require h rest ih =>
    obtain ⟨more, heq, hran⟩ := ih
    exact ⟨more, heq, fun log => .require h (hran log)⟩
  | fail h => exact ⟨_, rfl, fun log => .fail h⟩
  | @note record sink entry steps out rest ih =>
    obtain ⟨more, heq, hran⟩ := ih
    refine ⟨[entry] ++ more, by rw [heq, List.append_assoc], fun log => .note ?_⟩
    rw [← List.append_assoc]
    exact hran _
  | say h rest ih =>
    obtain ⟨more, heq, hran⟩ := ih
    exact ⟨more, heq, fun log => .say h (hran log)⟩
  | full h =>
    exact ⟨[], (List.append_nil _).symm, fun log => by simpa [Outcome.withLog] using .full h⟩
  | stop => exact ⟨[], (List.append_nil _).symm, fun log => by simpa [Outcome.withLog] using .stop⟩

/-- **Nothing but the log depends on the failures that are forgotten.** -/
theorem Ran.congr (h : Ran failures record sink steps out) {failures' : Nat → Option Failure}
    (hagree : ∀ i call stage, (requests steps)[i]? = some (call, .fatal stage) →
      failures' (record.calls.length + i) = failures (record.calls.length + i)) :
    ∃ log, Ran failures' record sink steps (out.withLog log) := by
  induction h with
  | done => exact ⟨_, .done⟩
  | @attempt record sink call text steps out rest ih =>
    obtain ⟨log, hran⟩ := ih fun i c stage hreq =>
      (length_snoc_add record.calls call i).symm ▸ hagree (i + 1) c stage hreq
    -- The two runs go on behind different messages, so the rest is moved to the new ones.
    obtain ⟨more, -, hlog⟩ := hran.exists_withLog
    exact ⟨_, .attempt (hlog _)⟩
  | @require record sink call stage steps out h rest ih =>
    obtain ⟨log, hran⟩ := ih fun i c stage' hreq =>
      (length_snoc_add record.calls call i).symm ▸ hagree (i + 1) c stage' hreq
    exact ⟨log, .require ((hagree 0 call stage rfl).trans h) hran⟩
  | @fail record sink call stage steps failure h =>
    exact ⟨_, .fail ((hagree 0 call stage rfl).trans h)⟩
  | note rest ih =>
    obtain ⟨log, hran⟩ := ih hagree
    exact ⟨log, .note hran⟩
  | say h rest ih =>
    obtain ⟨log, hran⟩ := ih hagree
    exact ⟨log, .say h hran⟩
  | full h => exact ⟨_, .full h⟩
  | stop => exact ⟨_, .stop⟩

/-- Failures of calls before the run do not matter. -/
theorem Ran.of_later (h : Ran failures record sink steps out) {failures' : Nat → Option Failure}
    (hagree : ∀ i, record.calls.length ≤ i → failures' i = failures i) :
    Ran failures' record sink steps out := by
  induction h with
  | done => exact .done
  | @attempt record sink call text steps out rest ih =>
    refine .attempt ?_
    rw [Record.tried_congr (hagree _ (Nat.le_refl _))]
    exact ih fun i hi => hagree i (le_of_length_snoc_le record.calls call hi)
  | @require record sink call stage steps out h rest ih =>
    exact .require ((hagree _ (Nat.le_refl _)).trans h)
      (ih fun i hi => hagree i (le_of_length_snoc_le record.calls call hi))
  | fail h => exact .fail ((hagree _ (Nat.le_refl _)).trans h)
  | note rest ih => exact .note (ih hagree)
  | say h rest ih => exact .say h (ih hagree)
  | full h => exact .full h
  | stop => exact .stop

/-- If it is the first call whose failure is forgotten, the rest runs as it would without. -/
theorem Ran.forget_first {call : Call} {text : String} {failure : Failure}
    (rest : Ran failures (record.tried failures call text) sink steps out)
    (hfail : failures record.calls.length = some failure) :
    ∃ after, out.log = record.log ++ warned failure text ++ after ∧
      Ran (Function.update failures record.calls.length none) record sink
        (.attempt call text :: steps) (out.withLog (record.log ++ after)) := by
  obtain ⟨after, heq, hran⟩ := rest.exists_withLog
  refine ⟨after, by rw [heq, Record.tried, forgotten, hfail], .attempt ?_⟩
  have hquiet : forgotten (Function.update failures record.calls.length none)
      record.calls.length text = [] := by
    rw [forgotten, Function.update_self]
  rw [Record.tried, hquiet, List.append_nil]
  refine (hran record.log).of_later fun i hi => Function.update_of_ne ?_ _ _
  have hlater : (record.calls ++ [call]).length ≤ i := hi
  rw [List.length_append, List.length_singleton] at hlater
  omega

/-- **A failure that is forgotten leaves its messages, and nothing else**: without it the run is the
same but for these messages. -/
theorem Ran.forget (h : Ran failures record sink steps out) {i : Nat} {call : Call} {text : String}
    {failure : Failure} (hreq : (requests steps)[i]? = some (call, .warning text))
    (hmade : record.calls.length + i < out.calls.length)
    (hfail : failures (record.calls.length + i) = some failure) :
    ∃ before after, out.log = before ++ warned failure text ++ after ∧
      Ran (Function.update failures (record.calls.length + i) none) record sink steps
        (out.withLog (before ++ after)) := by
  induction h generalizing i with
  | done => cases hreq
  | @attempt record sink c t steps out rest ih =>
    cases i with
    | zero =>
      obtain ⟨rfl, htext⟩ := Prod.mk.inj (Option.some.inj hreq)
      obtain rfl := Severity.warning.inj htext
      obtain ⟨after, hlog, hran⟩ := rest.forget_first hfail
      exact ⟨record.log, after, hlog, hran⟩
    | succ i =>
      have hlen : (record.tried failures c t).calls.length + i = record.calls.length + (i + 1) :=
        length_snoc_add record.calls c i
      obtain ⟨before, after, hlog, hran⟩ := ih hreq (hlen ▸ hmade) (hlen ▸ hfail)
      refine ⟨before, after, hlog, .attempt ?_⟩
      rw [hlen] at hran
      -- The call that fails is a later one, so the first leaves the same record in both runs.
      rw [Record.tried_congr (Function.update_of_ne (by omega) _ _)]
      exact hran
  | @require record sink c s steps out h rest ih =>
    cases i with
    | zero => simp [requests] at hreq
    | succ i =>
      have hlen := length_snoc_add record.calls c i
      obtain ⟨before, after, hlog, hran⟩ := ih hreq (hlen ▸ hmade) (hlen ▸ hfail)
      rw [hlen] at hran
      refine ⟨before, after, hlog, .require ?_ hran⟩
      rw [Function.update_of_ne (by omega), h]
  | @fail record sink c s steps f h =>
    rw [Outcome.calls_mk, List.length_append, List.length_singleton] at hmade
    obtain rfl : i = 0 := by omega
    simp [requests] at hreq
  | note rest ih =>
    obtain ⟨before, after, hlog, hran⟩ := ih hreq hmade hfail
    exact ⟨before, after, hlog, .note hran⟩
  | say h rest ih =>
    obtain ⟨before, after, hlog, hran⟩ := ih hreq hmade hfail
    exact ⟨before, after, hlog, .say h hran⟩
  | full h => exact absurd hmade (by simp)
  | stop => exact absurd hmade (by simp)

end Load

end PicoLoader

import PicoLoader.Proofs.Load.Actions
import PicoLoader.Proofs.Output.LastLine
import PicoLoader.Proofs.Plan.Paging

/-!
# A load stops at the first failure

A load can fail anywhere: at any call, at any character of its output, at a block that leaves the
address space, and for want of an address to start at. This file says what is left of a load for
*every* assignment of failures to its calls and every room of the sink
(`PicoLoader.Load.outcome`), by comparing it with the load on which nothing fails
(`PicoLoader.Load.ideal`).

Two calls may fail without harm, taking over the interface and leaving flash
(`PicoLoader.Load.Call.warning?`). An image is started only once its plan has been carried out
(`PicoLoader.Load.CarriedOut`), which asks for no erasing where no page is to be written.
`PicoLoader.Load.FailStop` puts the statements together.
-/

namespace PicoLoader.Load

open Memory

/-- The warning that the failure of a call gives rise to, if the load goes on after it. -/
def Call.warning? : Call → Option String
  | resetInterface => some "reset interface failed"
  | exitXip => some "Failed to exit XIP mode"
  | _ => none

/-! ### What the requests of a plan are -/

/-- A request is *fitting* if its call fails without harm just when there is a warning for that. -/
def Fitting (request : Call × Severity) : Prop :=
  match request.1.warning? with
  | some text => request.2 = .warning text
  | none => ∃ stage, request.2 = .fatal stage

/-- **All requests of a plan are fitting.** -/
theorem fitting_of_mem {plan : Plan} {layout : Layout} {allowFlash start : Bool}
    {request : Call × Severity} (h : request ∈ plan.requests layout allowFlash start) :
    Fitting request := by
  rcases List.mem_append.mp h with h | h
  · rcases Plan.mem_schedule_iff.mp h with
      rfl | ⟨-, rfl⟩ | ⟨-, span, -, rfl⟩ | ⟨block, -, chunk, -, rfl⟩ | ⟨page, -, rfl⟩
    · exact rfl
    · exact rfl
    · exact ⟨.flashErase, rfl⟩
    · exact ⟨.ramWrite, rfl⟩
    · exact ⟨.flashWrite, rfl⟩
  · rcases Plan.starting_cases with ⟨addr, -, -, heq⟩ | heq
    · rw [heq] at h
      obtain rfl := List.mem_singleton.mp h
      exact ⟨.exec, rfl⟩
    · rw [heq] at h
      cases h

/-- Nothing that brings an image onto a device starts it. -/
theorem exec_not_mem_schedule (plan : Plan) (addr : UInt32) :
    Call.exec addr ∉ plan.schedule.map Prod.fst := by
  intro h
  obtain ⟨request, hrequest, heq⟩ := List.mem_map.mp h
  rcases Plan.mem_schedule_iff.mp hrequest with
    rfl | ⟨-, rfl⟩ | ⟨-, span, -, rfl⟩ | ⟨block, -, chunk, -, rfl⟩ | ⟨page, -, rfl⟩ <;> cases heq

/-! ### What is done before an image is started -/

/-- A call *succeeds before* call number `i` if it is an earlier call and does not fail. -/
def Outcome.SucceedsBefore (out : Outcome) (failures : Nat → Option Failure) (i : Nat)
    (call : Call) : Prop :=
  ∃ j < i, out.calls[j]? = some call ∧ failures j = none

/-- **A plan has been carried out before call number `i`** if all of its writing has been done, and
all of its erasing too if there are pages. The size of a span is a difference of words: for a span
that ends before it starts it wraps, as in a release build. -/
structure CarriedOut (plan : Plan) (failures : Nat → Option Failure) (out : Outcome)
    (i : Nat) : Prop where
  /-- If a page is to be written, each span has been erased, all of it. -/
  erased : plan.pages.pages ≠ [] → ∀ span ∈ plan.erase,
    out.SucceedsBefore failures i (.erase span.start (span.stop - span.start))
  /-- Each 1024 bytes of a block for RAM, and what is left at its end, are at their place. -/
  filled : ∀ block ∈ plan.ram, ∀ k, 1024 * k < block.bytes.length →
    ∃ addr, addr.toNat = block.addr.toNat + 1024 * k ∧
      out.SucceedsBefore failures i (.write addr ((block.bytes.drop (1024 * k)).take 1024))
  /-- Each page has been written whole. -/
  written : ∀ page ∈ plan.pages.pages,
    out.SucceedsBefore failures i (.write page.addr page.bytes)

section Scheduled

variable {plan : Plan} {failures : Nat → Option Failure} {out : Outcome} {more : List Call}
  (hcalls : out.calls = plan.schedule.map Prod.fst ++ more)
  (hnone : ∀ (j : Nat) (call : Call) (stage : Stage),
    plan.schedule[j]? = some (call, .fatal stage) → failures j = none)

include hcalls hnone

/-- Where all calls of the schedule have been made, and none has failed whose failure counts, each
call whose failure would count has succeeded. -/
theorem succeedsBefore_of_mem_schedule {call : Call} {stage : Stage}
    (hmem : (call, .fatal stage) ∈ plan.schedule) :
    out.SucceedsBefore failures plan.schedule.length call := by
  obtain ⟨j, hj, hget⟩ := List.mem_iff_getElem.mp hmem
  have hget : plan.schedule[j]? = some (call, .fatal stage) :=
    List.getElem?_eq_some_iff.mpr ⟨hj, hget⟩
  refine ⟨j, hj, ?_, hnone j call stage hget⟩
  rw [hcalls, List.getElem?_append_left (by rwa [List.length_map]), List.getElem?_map, hget]
  rfl

/-- **So the plan has been carried out**, if no block for RAM has stopped the load. -/
theorem carriedOut_of_schedule (hhalt : halt? (bodySteps plan) = none) :
    CarriedOut plan failures out plan.schedule.length := by
  refine ⟨?_, ?_, ?_⟩
  · intro hpages span hspan
    have hflash : plan.writesFlash = true :=
      Plan.writesFlash_iff.mpr (List.exists_mem_of_ne_nil _ hpages)
    exact succeedsBefore_of_mem_schedule hcalls hnone (Plan.erase_mem_schedule hflash hspan)
  · intro block hblock k hk
    have hk : k < block.chunkCount := by
      rw [Block.lt_chunkCount_iff, chunkSize, Nat.mul_comm]
      exact hk
    have hbegin := begins_of_halt (halt?_bodySteps_iff.mp hhalt block hblock) hk
    have hchunk : block.chunk k ∈ block.chunks := List.mem_map_of_mem (List.mem_range.mpr hk)
    have hwrite :=
      succeedsBefore_of_mem_schedule hcalls hnone (Plan.chunk_mem_schedule hblock hchunk)
    rw [Nat.mul_comm]
    exact ⟨_, Block.toNat_addr_chunk_of_lt hbegin, hwrite⟩
  · intro page hpage
    exact succeedsBefore_of_mem_schedule hcalls hnone (Plan.page_mem_schedule hpage)

end Scheduled

/-! ### How a load ends -/

/-- **A load ends in one of two ways**: by saying the last line, behind other lines, or by a step
that stops it. -/
theorem steps_cases (plan : Plan) (layout : Layout) (allowFlash start : Bool) :
    (∃ front, steps plan layout allowFlash start = front ++ [.say .loadComplete] ∧
      ∀ line ∈ said front, line.IsEarly) ∨
    (halt? (steps plan layout allowFlash start) ≠ none ∧
      ∀ line ∈ said (steps plan layout allowFlash start), line.IsEarly) := by
  have hbody : ∀ line ∈ said (bodySteps plan), line.IsEarly := fun line hline => by
    rw [said_bodySteps] at hline
    exact isEarly_of_mem_notes hline
  rw [steps_eq]
  cases start with
  | false => exact Or.inl ⟨bodySteps plan, rfl, hbody⟩
  | true =>
    rw [endSteps, if_pos rfl]
    cases plan.startAddress layout allowFlash with
    | ok addr =>
      let started : List Step := [.require (.exec addr) .exec, .say (.executing addr)]
      refine Or.inl ⟨bodySteps plan ++ started, (List.append_assoc _ started _).symm, ?_⟩
      intro line hline
      have hline := (said_append_isPrefix (bodySteps plan) started).subset hline
      rcases List.mem_append.mp hline with hline | hline
      · exact hbody line hline
      · obtain rfl := List.mem_singleton.mp hline
        exact isEarly_executing addr
    | error problem =>
      refine Or.inr ⟨?_, fun line hline => hbody line ?_⟩
      · rw [halt?_append]
        exact fun h => absurd (Option.or_eq_none_iff.mp h).2 (Option.some_ne_none _)
      · have hline := (said_append_isPrefix (bodySteps plan) [.stop (.plan problem)]).subset hline
        rwa [said, List.append_nil] at hline

variable {failures : Nat → Option Failure} {room : Option Nat}

/-- A run whose last step says the last line succeeds if and only if the line is in its text. -/
theorem Ran.ok_iff_isInfix {record : Record} {front : List Step} {out : Outcome}
    (h : Ran failures record ⟨"", room⟩ (front ++ [.say .loadComplete]) out)
    (hfront : ∀ line ∈ said front, line.IsEarly) :
    out.result = .ok () ↔ Line.loadComplete.text.toList <:+: out.text := by
  have hnot : 'L' ∉ Line.chars (said front) := fun hL => (isEarly_of_mem_chars hfront hL).1 rfl
  rcases h.append_cases with ⟨fault, herror, hran⟩ | ⟨record', sink', hran, hlast⟩
  · -- The run has failed before the last line, whose first letter is in none of the others.
    obtain ⟨told, htext, htold⟩ := hran.text_isPrefix
    rw [herror, htext]
    refine iff_of_false (by simp) fun hin => hnot (htold.subset ?_)
    obtain ⟨word, hword, -⟩ := exists_text_loadComplete
    rw [hword] at hin
    exact hin.subset List.mem_cons_self
  · obtain ⟨-, -, htext, -⟩ := hran.of_ok rfl
    have htext : sink'.text.toList = Line.chars (said front) := htext
    cases hlast with
    | say hprint hdone =>
      cases hdone
      rw [Outcome.text_mk, Sink.text_of_print hprint, htext]
      exact iff_of_true rfl (List.suffix_append _ _).isInfix
    | full hprint =>
      obtain ⟨part, heq, hpart, hshort⟩ := Sink.exists_part_of_print hprint
      rw [Outcome.text_mk, heq, htext, loadComplete_isInfix_iff hnot hpart]
      refine iff_of_false (by simp) ?_
      intro hwhole
      rw [hwhole] at hshort
      exact Nat.lt_irrefl _ hshort

section Requested

variable {plan : Plan} {layout : Layout} {allowFlash start : Bool}
  {failures : Nat → Option Failure} {room : Option Nat}

/-- **Every call that is made was asked for**, by the steps and by the plan. -/
theorem exists_request {i : Nat} {call : Call}
    (h : (outcome plan layout allowFlash start failures room).calls[i]? = some call) :
    ∃ severity, (requests (steps plan layout allowFlash start))[i]? = some (call, severity) ∧
      (plan.requests layout allowFlash start)[i]? = some (call, severity) ∧
      Fitting (call, severity) := by
  obtain ⟨made, heq, rest, hmade⟩ :=
    (ran_outcome plan layout allowFlash start failures room).calls_isPrefix
  have hcalls : (outcome plan layout allowFlash start failures room).calls = made := heq
  rw [hcalls] at h
  -- The calls are the first that the steps ask for, and these the first that the plan asks for.
  have hfirst : ((requests (steps plan layout allowFlash start)).map Prod.fst)[i]? = some call := by
    rw [← hmade, List.getElem?_append_left (List.getElem?_eq_some_iff.mp h).1, h]
  rw [List.getElem?_map, Option.map_eq_some_iff] at hfirst
  obtain ⟨⟨c, severity⟩, hreq, rfl⟩ := hfirst
  obtain ⟨more, hmore⟩ := (amountsTo_steps plan layout allowFlash start).isPrefix
  have hplan : (plan.requests layout allowFlash start)[i]? = some (c, severity) := by
    rw [← hmore, List.getElem?_append_left (List.getElem?_eq_some_iff.mp hreq).1, hreq]
  exact ⟨severity, hreq, hplan, fitting_of_mem (List.mem_of_getElem? hplan)⟩

/-- A load that comes to its end has carried out all of the schedule, and no call of it has failed
that may not. -/
theorem calls_of_body {record : Record} {sink : Sink}
    (h : Ran failures .empty ⟨"", room⟩ (bodySteps plan) (.ok (), record, sink)) :
    halt? (bodySteps plan) = none ∧ record.calls = plan.schedule.map Prod.fst ∧
      ∀ (j : Nat) (call : Call) (stage : Stage),
        plan.schedule[j]? = some (call, .fatal stage) → failures j = none := by
  obtain ⟨hhalt, hcalls, -, hnone⟩ := h.of_ok rfl
  have hcalls : record.calls = (requests (bodySteps plan)).map Prod.fst := hcalls
  rw [(amountsTo_bodySteps plan).eq_of_halt hhalt] at hcalls hnone
  refine ⟨hhalt, hcalls, ?_⟩
  intro j call stage hj
  have hzero : Record.empty.calls.length + j = j := Nat.zero_add j
  exact hzero ▸ hnone j call stage hj

/-- A load that fails before its end has not started the image. -/
theorem exec_not_mem_of_body {out : Outcome}
    (h : Ran failures .empty ⟨"", room⟩ (bodySteps plan) out) (addr : UInt32) :
    .exec addr ∉ out.calls := by
  obtain ⟨made, heq, hmade⟩ := h.calls_isPrefix
  have hcalls : out.calls = made := heq
  intro hmem
  rw [hcalls] at hmem
  have hscheduled := hmade.trans ((amountsTo_bodySteps plan).isPrefix.map Prod.fst)
  exact exec_not_mem_schedule plan addr (hscheduled.subset hmem)

/-- The end of a load makes no call, or starts the image. -/
theorem calls_of_end {record : Record} {sink : Sink} {out : Outcome}
    (h : Ran failures record sink (endSteps plan layout allowFlash start) out) :
    out.calls = record.calls ∨
      ∃ addr, start = true ∧ plan.startAddress layout allowFlash = .ok addr ∧
        out.calls = record.calls ++ [.exec addr] := by
  obtain ⟨made, heq, hmade⟩ := h.calls_isPrefix
  rw [requests_endSteps] at hmade
  rcases Plan.starting_cases with ⟨addr, hstart, haddr, hstarting⟩ | hstarting
  · rw [hstarting] at hmade
    have hmade : made <+: [.exec addr] := hmade
    rcases List.prefix_cons_iff.mp hmade with rfl | ⟨rest, rfl, hrest⟩
    · exact Or.inl (heq.trans (List.append_nil _))
    · obtain rfl := List.prefix_nil.mp hrest
      exact Or.inr ⟨addr, hstart, haddr, heq⟩
  · rw [hstarting] at hmade
    obtain rfl := List.prefix_nil.mp hmade
    exact Or.inl (heq.trans (List.append_nil _))

/-- **Starting the image is the last thing that is done**, and done only once all of the schedule
has been carried out without a failure that counts. -/
theorem calls_of_exec {i : Nat} {addr : UInt32}
    (h : (outcome plan layout allowFlash start failures room).calls[i]? = some (.exec addr)) :
    i + 1 = (outcome plan layout allowFlash start failures room).calls.length ∧
      start = true ∧ plan.startAddress layout allowFlash = .ok addr ∧
      (outcome plan layout allowFlash start failures room).calls =
        plan.schedule.map Prod.fst ++ [.exec addr] ∧
      (∀ (j : Nat) (call : Call) (stage : Stage),
        plan.schedule[j]? = some (call, .fatal stage) → failures j = none) ∧
      CarriedOut plan failures (outcome plan layout allowFlash start failures room) i := by
  have hran := ran_outcome plan layout allowFlash start failures room
  have hmem := List.mem_of_getElem? h
  rw [steps_eq] at hran
  rcases hran.append_cases with ⟨fault, -, hbody⟩ | ⟨record, sink, hbody, hend⟩
  · exact absurd hmem (exec_not_mem_of_body hbody addr)
  obtain ⟨hhalt, hscheduled, hnone⟩ := calls_of_body hbody
  rcases calls_of_end hend with heq | ⟨a, hstart, haddr, heq⟩
  · rw [heq, hscheduled] at hmem
    exact absurd hmem (exec_not_mem_schedule plan addr)
  · rw [hscheduled] at heq
    rw [heq] at h
    -- The schedule does not start the image, so this call is behind it.
    have hge : (plan.schedule.map Prod.fst).length ≤ i := by
      refine Nat.le_of_not_lt fun hlt => exec_not_mem_schedule plan addr ?_
      rw [List.getElem?_append_left hlt] at h
      exact List.mem_of_getElem? h
    obtain ⟨hi, -⟩ := List.getElem?_eq_some_iff.mp h
    rw [List.getElem?_append_right hge] at h
    obtain rfl := Call.exec.inj (List.mem_singleton.mp (List.mem_of_getElem? h))
    rw [List.length_append, List.length_singleton] at hi
    have hi : i = plan.schedule.length := by
      rw [List.length_map] at hi hge
      omega
    refine ⟨?_, hstart, haddr, heq, hnone, hi ▸ carriedOut_of_schedule heq hnone hhalt⟩
    rw [heq, List.length_append, List.length_singleton, List.length_map, hi]

/-- **A load succeeds if and only if its last line has been taken whole.** -/
theorem ok_iff_isInfix : (outcome plan layout allowFlash start failures room).result = .ok () ↔
    "Load complete.\n".toList <:+:
      (outcome plan layout allowFlash start failures room).text := by
  change _ ↔ Line.loadComplete.text.toList <:+: _
  have hran := ran_outcome plan layout allowFlash start failures room
  rcases steps_cases plan layout allowFlash start with ⟨front, heq, hfront⟩ | ⟨hhalt, hsaid⟩
  · rw [heq] at hran
    exact hran.ok_iff_isInfix hfront
  · refine iff_of_false (fun hok => hhalt (hran.of_ok hok).1) ?_
    intro hin
    obtain ⟨told, htext, htold⟩ := hran.text_isPrefix
    obtain ⟨word, hword, -⟩ := exists_text_loadComplete
    rw [htext, hword] at hin
    have hmem := htold.subset (hin.subset List.mem_cons_self)
    exact (isEarly_of_mem_chars hsaid hmem).1 rfl

/-- Every character that a load says is one byte long. -/
theorem utf8Size_of_mem_ideal {c : Char} (h : c ∈ (ideal plan layout allowFlash start).text) :
    c.utf8Size = 1 := by
  rw [(ideal_spec plan layout allowFlash start).2.2] at h
  rcases steps_cases plan layout allowFlash start with ⟨front, heq, hfront⟩ | ⟨-, hsaid⟩
  · rw [heq] at h
    obtain ⟨line, hline, hc⟩ := List.mem_flatMap.mp h
    have hline := (said_append_isPrefix front [.say .loadComplete]).subset hline
    rcases List.mem_append.mp hline with hline | hline
    · exact (hfront line hline c hc).2
    · obtain rfl := List.mem_singleton.mp hline
      exact utf8Size_of_mem_loadComplete c hc
  · exact (isEarly_of_mem_chars hsaid h).2

end Requested

/-! ### The statement -/

/-- **A load stops at the first failure.** What is left of a load under some failures and with a
sink that has some room, compared with the load on which nothing fails. -/
structure FailStop (plan : Plan) (layout : Layout) (allowFlash start : Bool)
    (failures : Nat → Option Failure) (room : Option Nat) : Prop where
  /-- The calls are the first of those that are made when nothing fails. -/
  calls_isPrefix : (outcome plan layout allowFlash start failures room).calls <+:
    (ideal plan layout allowFlash start).calls
  /-- The output is the beginning of what is written when nothing fails. -/
  text_isPrefix : (outcome plan layout allowFlash start failures room).text <+:
    (ideal plan layout allowFlash start).text
  /-- Each character of the output is one byte, so that the room of the sink counts bytes. -/
  utf8Size_text : ∀ c ∈ (ideal plan layout allowFlash start).text, c.utf8Size = 1
  /-- A call that may fail, and fails, leaves a warning in the log. But for that, the load is the
  same as if the call had succeeded. -/
  forgotten : ∀ (i : Nat) (call : Call) (text : String) (failure : Failure),
    (outcome plan layout allowFlash start failures room).calls[i]? = some call →
    call.warning? = some text → failures i = some failure →
    ∃ before after,
      (outcome plan layout allowFlash start failures room).log =
        before ++ warned failure text ++ after ∧
      outcome plan layout allowFlash start (Function.update failures i none) room =
        (outcome plan layout allowFlash start failures room).withLog (before ++ after)
  /-- Any other call that fails is the last, and the load fails with its stage and its address. -/
  fatal : ∀ (i : Nat) (call : Call) (failure : Failure),
    (outcome plan layout allowFlash start failures room).calls[i]? = some call →
    call.warning? = none → failures i = some failure →
    i + 1 = (outcome plan layout allowFlash start failures room).calls.length ∧
    ∃ stage, (plan.requests layout allowFlash start)[i]? = some (call, .fatal stage) ∧
      (outcome plan layout allowFlash start failures room).result =
        .error (.load stage call.addr failure.fault)
  /-- Starting the image is the last call. It stands behind the schedule of the plan, of which
  nothing has failed that may not, so the plan has been carried out. -/
  exec_last : ∀ (i : Nat) (addr : UInt32),
    (outcome plan layout allowFlash start failures room).calls[i]? = some (.exec addr) →
    i + 1 = (outcome plan layout allowFlash start failures room).calls.length ∧
    start = true ∧ plan.startAddress layout allowFlash = .ok addr ∧
    (outcome plan layout allowFlash start failures room).calls =
      plan.schedule.map Prod.fst ++ [.exec addr] ∧
    (∀ (j : Nat) (call : Call) (stage : Stage),
      plan.schedule[j]? = some (call, .fatal stage) → failures j = none) ∧
    CarriedOut plan failures (outcome plan layout allowFlash start failures room) i
  /-- The load succeeds if and only if its last line is in the output, whole. -/
  ok_iff : (outcome plan layout allowFlash start failures room).result = .ok () ↔
    "Load complete.\n".toList <:+:
      (outcome plan layout allowFlash start failures room).text

/-- **Every load stops at the first failure**, whatever fails and whatever room there is. -/
theorem failStop (plan : Plan) (layout : Layout) (allowFlash start : Bool)
    (failures : Nat → Option Failure) (room : Option Nat) :
    FailStop plan layout allowFlash start failures room := by
  have hran := ran_outcome plan layout allowFlash start failures room
  obtain ⟨-, hcalls, htext⟩ := ideal_spec plan layout allowFlash start
  refine ⟨?_, ?_, fun c hc => utf8Size_of_mem_ideal hc, ?_, ?_, fun i addr h => calls_of_exec h,
    ok_iff_isInfix⟩
  · obtain ⟨made, heq, hmade⟩ := hran.calls_isPrefix
    rw [heq, hcalls]
    exact hmade
  · obtain ⟨told, heq, htold⟩ := hran.text_isPrefix
    rw [heq, htext]
    exact htold
  · intro i call text failure hcall hwarning hfail
    obtain ⟨severity, hreq, -, hfitting⟩ := exists_request hcall
    rw [Fitting, hwarning] at hfitting
    obtain rfl : severity = .warning text := hfitting
    have hzero : Record.empty.calls.length + i = i := Nat.zero_add i
    have hmade := (List.getElem?_eq_some_iff.mp hcall).1
    obtain ⟨before, after, hlog, hforget⟩ :=
      hran.forget hreq (hzero.symm ▸ hmade) (hzero.symm ▸ hfail)
    rw [hzero] at hforget
    exact ⟨before, after, hlog, hforget.eq_run.symm⟩
  · intro i call failure hcall hwarning hfail
    obtain ⟨severity, hreq, hplan, hfitting⟩ := exists_request hcall
    rw [Fitting, hwarning] at hfitting
    obtain ⟨stage, rfl⟩ := hfitting
    have hzero : Record.empty.calls.length + i = i := Nat.zero_add i
    have hmade := (List.getElem?_eq_some_iff.mp hcall).1
    obtain ⟨hlast, hresult⟩ :=
      hran.last_of_fatal hreq (hzero.symm ▸ hmade) (hzero.symm ▸ hfail)
    rw [hzero] at hlast
    exact ⟨hlast.symm, stage, hplan, hresult⟩

/-- A plan with a span to erase, a block for RAM, and no page. -/
def noPages : Plan := ⟨[⟨0x20000000, [0]⟩], .empty, [⟨0x10000000, 0x10001000⟩], false, false,
  0x20000000⟩

/-- Where no page is to be written nothing is erased. So an image can be started although a span of
its plan has not been erased. -/
theorem not_erased_before_exec_noPages :
    ¬ ∀ (plan : Plan) (layout : Layout) (allowFlash start : Bool)
        (failures : Nat → Option Failure) (room : Option Nat) (i : Nat) (addr : UInt32),
      (∀ span ∈ plan.erase, span.start ≤ span.stop) →
      (outcome plan layout allowFlash start failures room).calls[i]? = some (.exec addr) →
      ∀ span ∈ plan.erase, (outcome plan layout allowFlash start failures room).SucceedsBefore
        failures i (.erase span.start (span.stop - span.start)) := by
  intro h
  have hcalls : (outcome noPages .rp2040 false true (fun _ => none) none).calls =
      [.resetInterface, .write 0x20000000 [0], .exec 0x20000000] := by
    decide +kernel
  obtain ⟨j, hj, herase, -⟩ := h noPages .rp2040 false true (fun _ => none) none 2 0x20000000
    (by decide) (by rw [hcalls]; rfl) ⟨0x10000000, 0x10001000⟩ List.mem_cons_self
  rw [hcalls] at herase
  have hmem := List.mem_of_getElem? herase
  revert hmem
  decide

end PicoLoader.Load

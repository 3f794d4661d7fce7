import PicoLoader.Proofs.Load.Chunking
import PicoLoader.Proofs.Load.Runs

/-!
# The actions of a plan

What a load does to a device, one entry for each thing that a user would name: leaving flash,
erasing a span, filling a block of RAM, writing a flash page, starting the image. An action has a
line in a dry run (`PicoLoader.Load.Action.line`) and some requests in a load
(`PicoLoader.Load.Action.requests`); only a block of RAM takes more than one.

* `PicoLoader.Plan.loading` – the actions that bring the image onto the device, in order;
* `PicoLoader.Plan.starting` – the action that starts it, if it is to be started and can be;
* `PicoLoader.Plan.requests` – the requests for all of these, behind taking over the interface.

The steps of a load amount to these requests (`amountsTo_steps`). They stop early only where a block
of RAM leaves the address space (`halt?_bodySteps`), or for want of an address to start at. So these
are the calls of a load on which nothing fails (`ideal_spec`).
-/

namespace PicoLoader

open Memory

namespace Load

/-- One thing that a load does to a device. -/
inductive Action where
  /-- Stop running out of flash. -/
  | exitXip
  /-- Erase a span of flash. -/
  | erase (span : Span)
  /-- Fill a block of RAM. -/
  | ram (block : Block)
  /-- Write a flash page. -/
  | page (block : Block)
  /-- Start the image at an address. -/
  | start (addr : UInt32)
deriving DecidableEq, Repr

namespace Action

/-- The line about an action in a dry run. -/
def line : Action → Line
  | exitXip => .wouldExitXip
  | erase span => .wouldErase span
  | ram block => .wouldWriteRam block.addr block.size
  | page block => .wouldWritePage block.addr block.size
  | start addr => .wouldExecute addr

/-- The requests for an action in a load. -/
def requests : Action → List (Call × Severity)
  | exitXip => [(.exitXip, .warning "Failed to exit XIP mode")]
  | erase span => [(.erase span.start span.length, .fatal .flashErase)]
  | ram block => ramRequests block
  | page block => [(writeOf block, .fatal .flashWrite)]
  | start addr => [(.exec addr, .fatal .exec)]

/-- The calls for an action. -/
def calls (action : Action) : List Call := action.requests.map Prod.fst

/-- A block of RAM takes one call for each chunk. -/
theorem calls_ram (block : Block) : (ram block).calls = block.chunks.map writeOf := by
  rw [calls, requests, ramRequests, List.map_map]
  rfl

end Action

/-- The request that comes before all actions. -/
def takeOver : Call × Severity := (.resetInterface, .warning "reset interface failed")

end Load

open Load

namespace Plan

/-- The actions that bring the image onto the device. -/
def loading (plan : Plan) : List Action :=
  (if plan.writesFlash then .exitXip :: plan.erase.map .erase else []) ++
    plan.ram.map .ram ++ plan.pages.pages.map .page

/-- The action that starts the image, if it is to be started and has an address for that. -/
def starting (plan : Plan) (layout : Layout) (allowFlash start : Bool) : List Action :=
  if start then
    match plan.startAddress layout allowFlash with
    | .ok addr => [.start addr]
    | .error _ => []
  else []

/-- All actions of a load. -/
def actions (plan : Plan) (layout : Layout) (allowFlash start : Bool) : List Action :=
  plan.loading ++ plan.starting layout allowFlash start

/-- The requests of a load before the image is started. -/
def schedule (plan : Plan) : List (Call × Severity) :=
  takeOver :: plan.loading.flatMap Action.requests

/-- The requests of a whole load. -/
def requests (plan : Plan) (layout : Layout) (allowFlash start : Bool) : List (Call × Severity) :=
  plan.schedule ++ (plan.starting layout allowFlash start).flatMap Action.requests

variable {plan : Plan} {layout : Layout} {allowFlash start : Bool} {request : Call × Severity}

/-- The actions before the image is started, one by one. -/
theorem mem_loading_iff {action : Action} : action ∈ plan.loading ↔
    (plan.writesFlash = true ∧ action = .exitXip) ∨
    (plan.writesFlash = true ∧ ∃ span ∈ plan.erase, action = .erase span) ∨
    (∃ block ∈ plan.ram, action = .ram block) ∨
    ∃ page ∈ plan.pages.pages, action = .page page := by
  cases hflash : plan.writesFlash <;> simp [loading, hflash, eq_comm]

/-- **What is requested before the image is started**: taking the interface over, leaving flash,
erasing the spans, writing the chunks of the blocks, and writing the pages. -/
theorem mem_schedule_iff : request ∈ plan.schedule ↔
    request = takeOver ∨
    (plan.writesFlash = true ∧ request = (.exitXip, .warning "Failed to exit XIP mode")) ∨
    (plan.writesFlash = true ∧ ∃ span ∈ plan.erase,
      request = (.erase span.start span.length, .fatal .flashErase)) ∨
    (∃ block ∈ plan.ram, ∃ chunk ∈ block.chunks, request = (writeOf chunk, .fatal .ramWrite)) ∨
    ∃ page ∈ plan.pages.pages, request = (writeOf page, .fatal .flashWrite) := by
  rw [schedule, List.mem_cons, List.mem_flatMap]
  refine or_congr Iff.rfl ⟨?_, ?_⟩
  · rintro ⟨action, hmem, hrequest⟩
    rcases mem_loading_iff.mp hmem with
      ⟨hflash, rfl⟩ | ⟨hflash, span, hspan, rfl⟩ | ⟨block, hblock, rfl⟩ | ⟨page, hpage, rfl⟩
    · exact Or.inl ⟨hflash, List.mem_singleton.mp hrequest⟩
    · exact Or.inr (Or.inl ⟨hflash, span, hspan, List.mem_singleton.mp hrequest⟩)
    · obtain ⟨chunk, hchunk, rfl⟩ := List.mem_map.mp hrequest
      exact Or.inr (Or.inr (Or.inl ⟨block, hblock, chunk, hchunk, rfl⟩))
    · exact Or.inr (Or.inr (Or.inr ⟨page, hpage, List.mem_singleton.mp hrequest⟩))
  · rintro (⟨hflash, rfl⟩ | ⟨hflash, span, hspan, rfl⟩ | ⟨block, hblock, chunk, hchunk, rfl⟩ |
      ⟨page, hpage, rfl⟩)
    · exact ⟨.exitXip, mem_loading_iff.mpr (Or.inl ⟨hflash, rfl⟩), List.mem_singleton_self _⟩
    · exact ⟨.erase span, mem_loading_iff.mpr (Or.inr (Or.inl ⟨hflash, span, hspan, rfl⟩)),
        List.mem_singleton_self _⟩
    · exact ⟨.ram block, mem_loading_iff.mpr (Or.inr (Or.inr (Or.inl ⟨block, hblock, rfl⟩))),
        List.mem_map_of_mem hchunk⟩
    · exact ⟨.page page, mem_loading_iff.mpr (Or.inr (Or.inr (Or.inr ⟨page, hpage, rfl⟩))),
        List.mem_singleton_self _⟩

/-- What is requested for the erasing, if a page is to be written. -/
theorem erase_mem_schedule {span : Span} (hflash : plan.writesFlash = true)
    (hspan : span ∈ plan.erase) :
    (.erase span.start span.length, .fatal .flashErase) ∈ plan.schedule :=
  mem_schedule_iff.mpr (Or.inr (Or.inr (Or.inl ⟨hflash, span, hspan, rfl⟩)))

/-- What is requested for a chunk of a block. -/
theorem chunk_mem_schedule {block chunk : Block} (hblock : block ∈ plan.ram)
    (hchunk : chunk ∈ block.chunks) : (writeOf chunk, .fatal .ramWrite) ∈ plan.schedule :=
  mem_schedule_iff.mpr (Or.inr (Or.inr (Or.inr (Or.inl ⟨block, hblock, chunk, hchunk, rfl⟩))))

/-- What is requested for a page. -/
theorem page_mem_schedule {page : Block} (hpage : page ∈ plan.pages.pages) :
    (writeOf page, .fatal .flashWrite) ∈ plan.schedule :=
  mem_schedule_iff.mpr (Or.inr (Or.inr (Or.inr (Or.inr ⟨page, hpage, rfl⟩))))

/-- **The calls before the image is started**, all in one list: leaving flash and erasing, if there
are pages, then the chunks of the blocks, then the pages. -/
theorem flatMap_calls_loading (plan : Plan) : plan.loading.flatMap Action.calls =
    (if plan.writesFlash then
      .exitXip :: plan.erase.map fun span => .erase span.start span.length else []) ++
      (plan.ram.flatMap Block.chunks).map writeOf ++ plan.pages.pages.map writeOf := by
  have hflash : (if plan.writesFlash then Action.exitXip :: plan.erase.map .erase
      else []).flatMap Action.calls =
      if plan.writesFlash then
        .exitXip :: plan.erase.map fun span => .erase span.start span.length else [] := by
    split
    · rw [List.flatMap_cons, List.flatMap_map, List.map_eq_flatMap]
      rfl
    · rfl
  have hram : (plan.ram.map Action.ram).flatMap Action.calls =
      (plan.ram.flatMap Block.chunks).map writeOf := by
    rw [List.flatMap_map, List.map_flatMap]
    simp only [Action.calls_ram]
  have hpages : (plan.pages.pages.map Action.page).flatMap Action.calls =
      plan.pages.pages.map writeOf := by
    rw [List.flatMap_map, List.map_eq_flatMap]
    rfl
  rw [loading, List.flatMap_append, List.flatMap_append, hflash, hram, hpages]

/-- An image is started at its address, if it has one and is to be started. -/
theorem starting_cases :
    (∃ addr, start = true ∧ plan.startAddress layout allowFlash = .ok addr ∧
      plan.starting layout allowFlash start = [.start addr]) ∨
    plan.starting layout allowFlash start = [] := by
  cases start with
  | false => exact Or.inr rfl
  | true =>
    rw [starting, if_pos rfl]
    cases plan.startAddress layout allowFlash with
    | ok addr => exact Or.inl ⟨addr, rfl, rfl, rfl⟩
    | error problem => exact Or.inr rfl

/-- All actions but the start of the image bring the image onto the device. -/
theorem mem_loading_of_mem_actions {action : Action}
    (h : action ∈ plan.actions layout allowFlash start) (hne : ∀ addr, action ≠ .start addr) :
    action ∈ plan.loading := by
  rcases List.mem_append.mp h with h | h
  · exact h
  · rcases starting_cases with ⟨addr, -, -, heq⟩ | heq <;> rw [heq] at h
    · exact absurd (List.mem_singleton.mp h) (hne addr)
    · cases h

/-- What is erased is a span of the plan. -/
theorem mem_erase_of_mem_actions {span : Span}
    (h : .erase span ∈ plan.actions layout allowFlash start) : span ∈ plan.erase := by
  rcases mem_loading_iff.mp (mem_loading_of_mem_actions h nofun) with
    ⟨-, heq⟩ | ⟨-, span', hspan, heq⟩ | ⟨block, -, heq⟩ | ⟨page, -, heq⟩ <;> cases heq
  exact hspan

/-- What is filled is a block of the plan. -/
theorem mem_ram_of_mem_actions {block : Block}
    (h : .ram block ∈ plan.actions layout allowFlash start) : block ∈ plan.ram := by
  rcases mem_loading_iff.mp (mem_loading_of_mem_actions h nofun) with
    ⟨-, heq⟩ | ⟨-, span, -, heq⟩ | ⟨block', hblock, heq⟩ | ⟨page, -, heq⟩ <;> cases heq
  exact hblock

end Plan

namespace Load

/-! ### The steps before the end -/

/-- The steps of a plan but for those that end the load. -/
def bodySteps (plan : Plan) : List Step :=
  .attempt .resetInterface "reset interface failed" :: plan.notes.map .say ++ flashSteps plan ++
    plan.ram.flatMap ramSteps ++ plan.pages.pages.map pageStep

theorem steps_eq (plan : Plan) (layout : Layout) (allowFlash start : Bool) :
    steps plan layout allowFlash start =
      bodySteps plan ++ endSteps plan layout allowFlash start := rfl

theorem amountsTo_flashSteps (plan : Plan) : AmountsTo (flashSteps plan)
    ((if plan.writesFlash then Action.exitXip :: plan.erase.map .erase else []).flatMap
      Action.requests) := by
  rw [flashSteps]
  split
  case isTrue =>
    have herase : AmountsTo (plan.erase.flatMap eraseSteps)
        (plan.erase.flatMap fun span => (Action.erase span).requests) :=
      amountsTo_flatMap fun span _ => amountsTo_requests (eraseSteps span)
    rw [List.flatMap_cons, List.flatMap_map]
    exact (amountsTo_requests [.attempt .exitXip "Failed to exit XIP mode"]).append herase
  case isFalse => exact amountsTo_requests []

theorem halt?_flashSteps (plan : Plan) : halt? (flashSteps plan) = none := by
  rw [flashSteps]
  split
  · exact halt?_flatMap_iff.mpr fun span _ => rfl
  · rfl

theorem said_flashSteps (plan : Plan) : said (flashSteps plan) = [] := by
  rw [flashSteps]
  split
  · exact said_flatMap_of_silent fun span _ => rfl
  · rfl

/-- **The steps before the end amount to the schedule** of the plan. -/
theorem amountsTo_bodySteps (plan : Plan) : AmountsTo (bodySteps plan) plan.schedule := by
  have hfront : AmountsTo
      (.attempt .resetInterface "reset interface failed" :: plan.notes.map .say) [takeOver] := by
    have h := amountsTo_requests
      (.attempt .resetInterface "reset interface failed" :: plan.notes.map .say)
    rwa [requests, requests_map_say] at h
  have hram : AmountsTo (plan.ram.flatMap ramSteps)
      ((plan.ram.map Action.ram).flatMap Action.requests) := by
    rw [List.flatMap_map]
    exact amountsTo_flatMap fun block _ => amountsTo_ramSteps block
  have hpages : AmountsTo (plan.pages.pages.map pageStep)
      ((plan.pages.pages.map Action.page).flatMap Action.requests) := by
    rw [List.flatMap_map, List.map_eq_flatMap]
    exact amountsTo_flatMap fun page _ => amountsTo_requests [pageStep page]
  have h := ((hfront.append (amountsTo_flashSteps plan)).append hram).append hpages
  rw [Plan.schedule, Plan.loading, List.flatMap_append, List.flatMap_append,
    ← List.singleton_append, ← List.append_assoc, ← List.append_assoc]
  exact h

/-- Before the end, a load says the notes and nothing else. -/
theorem said_bodySteps (plan : Plan) : said (bodySteps plan) = plan.notes := by
  have hram : said (plan.ram.flatMap ramSteps) = [] :=
    said_flatMap_of_silent fun block _ => said_ramSteps block
  have hpages : said (plan.pages.pages.map pageStep) = [] :=
    said_map_require writeOf .flashWrite plan.pages.pages
  rw [bodySteps, said_append_of_silent hpages, said_append_of_silent hram,
    said_append_of_silent (said_flashSteps plan), said, said_map_say]

/-- The steps before the end stop only at a block for RAM. -/
theorem halt?_bodySteps_iff {plan : Plan} : halt? (bodySteps plan) = none ↔
    ∀ block ∈ plan.ram, halt? (ramSteps block) = none := by
  have hpages : halt? (plan.pages.pages.map pageStep) = none :=
    halt?_map_require writeOf .flashWrite plan.pages.pages
  rw [bodySteps, halt?_append, halt?_append, halt?_append, halt?, halt?_map_say,
    halt?_flashSteps, hpages, Option.none_or, Option.none_or, Option.or_none, halt?_flatMap_iff]

/-- The steps before the end do not stop if all blocks for RAM end inside the address space. -/
theorem halt?_bodySteps {plan : Plan} (hfits : ∀ block ∈ plan.ram, block.stop ≤ UInt32.size) :
    halt? (bodySteps plan) = none :=
  halt?_bodySteps_iff.mpr fun block hblock => halt?_ramSteps_of_fits (hfits block hblock)

/-! ### The steps at the end -/

variable (plan : Plan) (layout : Layout) (allowFlash start : Bool)

theorem requests_endSteps : requests (endSteps plan layout allowFlash start) =
    (plan.starting layout allowFlash start).flatMap Action.requests := by
  cases start with
  | false => rfl
  | true =>
    rw [endSteps, Plan.starting, if_pos rfl, if_pos rfl]
    cases plan.startAddress layout allowFlash with
    | ok addr => rfl
    | error problem => rfl

theorem amountsTo_endSteps : AmountsTo (endSteps plan layout allowFlash start)
    ((plan.starting layout allowFlash start).flatMap Action.requests) := by
  rw [← requests_endSteps]
  exact amountsTo_requests _

/-- **The steps of a load amount to the requests** of its plan. -/
theorem amountsTo_steps : AmountsTo (steps plan layout allowFlash start)
    (plan.requests layout allowFlash start) :=
  (amountsTo_bodySteps plan).append (amountsTo_endSteps plan layout allowFlash start)

/-! ### Loads -/

/-- What is left of a load of which call number `i` fails as `failures i` says, and whose output
goes to a sink with some room. -/
def outcome (failures : Nat → Option Failure) (room : Option Nat) : Outcome :=
  perform (Record.target failures) plan layout allowFlash start .empty ⟨"", room⟩

/-- What is left of a load on which nothing fails. -/
def ideal : Outcome := outcome plan layout allowFlash start (fun _ => none) none

theorem ran_outcome (failures : Nat → Option Failure) (room : Option Nat) :
    Ran failures .empty ⟨"", room⟩ (steps plan layout allowFlash start)
      (outcome plan layout allowFlash start failures room) := ran_run _ _ _ _

/-- **A load that succeeds has made all calls of its plan.** -/
theorem calls_of_result_ok {failures : Nat → Option Failure} {room : Option Nat}
    (h : (outcome plan layout allowFlash start failures room).result = .ok ()) :
    (outcome plan layout allowFlash start failures room).calls =
      (plan.requests layout allowFlash start).map Prod.fst := by
  obtain ⟨hhalt, hcalls, -⟩ := (ran_outcome plan layout allowFlash start failures room).of_ok h
  rw [← (amountsTo_steps plan layout allowFlash start).eq_of_halt hhalt]
  exact hcalls

/-- **Where nothing fails, a load does what its steps ask for.** -/
theorem ideal_spec : (ideal plan layout allowFlash start).result =
      resultOf (halt? (steps plan layout allowFlash start)) ∧
    (ideal plan layout allowFlash start).calls =
      (requests (steps plan layout allowFlash start)).map Prod.fst ∧
    (ideal plan layout allowFlash start).text =
      Line.chars (said (steps plan layout allowFlash start)) := by
  obtain ⟨log, text, heq, htext⟩ :=
    run_unfailing (steps plan layout allowFlash start) .empty ""
  have hideal : ideal plan layout allowFlash start = _ := heq
  rw [hideal]
  exact ⟨rfl, rfl, htext⟩

end Load

end PicoLoader

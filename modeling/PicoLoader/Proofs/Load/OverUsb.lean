import PicoLoader.Proofs.Load.Messages
import PicoLoader.Proofs.Picoboot.Connecting
import PicoLoader.Proofs.Plan.Paging

/-!
# A load over USB does what a load asks for

A load over USB is compared with the load on the recording target that fails where the operations
of the connection fail. Both end in the same way and give the same output. What is put out over the
bulk endpoint, read by the layout of the packets alone, is the calls of the recorded load, one
message for each, under the tokens one, two, three; and a load that succeeds has moved every byte
of every erase and every write, and had each acknowledged.

This holds for every list of responses. `PicoLoader.Load.Refines` says what the two loads have to do
with each other, `PicoLoader.Load.Faithful` says it of a file, and `faithful_overUsb` is the main
statement.
-/

namespace PicoLoader.Load

open Memory Picoboot Usb

/-! ### The calls of a plan -/

/-- All calls of a plan: taking the interface over, and the calls of its actions. -/
def callsOf (plan : Plan) (layout : Layout) (allowFlash start : Bool) : List Call :=
  .resetInterface :: (plan.actions layout allowFlash start).flatMap Action.calls

section Calls

variable {image : Elf.Image} {layout : Layout} {allowFlash start : Bool} {plan : Plan}
  {failures : Nat → Option Failure} {room : Option Nat}

/-- A plan that was made of an image asks for calls that can be told of, but for the first. -/
theorem tellable_of_mem (h : Plan.build image layout allowFlash = .ok plan) {action : Action}
    (haction : action ∈ plan.actions layout allowFlash start) {call : Call}
    (hcall : call ∈ action.calls) : call.Tellable := by
  have hpages := Plan.whole_pages h
  rcases List.mem_append.mp haction with haction | haction
  · rcases Plan.mem_loading_iff.mp haction with
      ⟨-, rfl⟩ | ⟨-, span, -, rfl⟩ | ⟨block, -, rfl⟩ | ⟨page, hpage, rfl⟩
    · obtain rfl := List.mem_singleton.mp hcall
      exact ⟨nofun, nofun⟩
    · obtain rfl := List.mem_singleton.mp hcall
      exact ⟨nofun, nofun⟩
    · rw [Action.calls_ram] at hcall
      obtain ⟨chunk, hchunk, rfl⟩ := List.mem_map.mp hcall
      obtain ⟨i, -, rfl⟩ := List.mem_map.mp hchunk
      refine ⟨nofun, fun addr bytes heq => ?_⟩
      obtain ⟨-, rfl⟩ := Call.write.inj heq
      exact Nat.lt_of_le_of_lt Block.size_chunk_le (by decide)
    · obtain rfl := List.mem_singleton.mp hcall
      refine ⟨nofun, fun addr bytes heq => ?_⟩
      obtain ⟨-, rfl⟩ := Call.write.inj heq
      exact Nat.lt_of_le_of_lt (Nat.le_of_eq (hpages page hpage).2) (by decide)
  · rcases Plan.starting_cases with ⟨addr, -, -, heq⟩ | heq
    · rw [heq] at haction
      obtain rfl := List.mem_singleton.mp haction
      obtain rfl := List.mem_singleton.mp hcall
      exact ⟨nofun, nofun⟩
    · rw [heq] at haction
      cases haction

theorem map_fst_requests (plan : Plan) (layout : Layout) (allowFlash start : Bool) :
    (plan.requests layout allowFlash start).map Prod.fst =
      callsOf plan layout allowFlash start := by
  rw [Plan.requests, Plan.schedule, callsOf, Plan.actions, List.cons_append, List.map_cons,
    ← List.flatMap_append, List.map_flatMap]
  rfl

/-- **A load takes the interface over first**, and its calls are the first of those of its
plan. -/
theorem exists_calls_eq (plan : Plan) (layout : Layout) (allowFlash start : Bool)
    (failures : Nat → Option Failure) (room : Option Nat) :
    ∃ rest, (outcome plan layout allowFlash start failures room).calls = .resetInterface :: rest ∧
      .resetInterface :: rest <+: callsOf plan layout allowFlash start := by
  have hran := ran_outcome plan layout allowFlash start failures room
  obtain ⟨made, heq, hmade⟩ := hran.calls_isPrefix
  have hwanted := hmade.trans ((amountsTo_steps plan layout allowFlash start).isPrefix.map Prod.fst)
  rw [map_fst_requests] at hwanted
  have hfirst : ∃ rest, (outcome plan layout allowFlash start failures room).calls =
      .resetInterface :: rest := by
    cases hran with
    | attempt hrest =>
      obtain ⟨rest, hrest, -⟩ := hrest.calls_isPrefix
      exact ⟨rest, hrest⟩
  obtain ⟨rest, hrest⟩ := hfirst
  have hmade : made = .resetInterface :: rest := heq.symm.trans hrest
  exact ⟨rest, hrest, hmade ▸ hwanted⟩

/-- A call for which there is no warning was required by the steps. -/
theorem exists_fatal_request {i : Nat} {call : Call}
    (h : (outcome plan layout allowFlash start failures room).calls[i]? = some call)
    (hwarning : call.warning? = none) :
    ∃ stage, (requests (steps plan layout allowFlash start))[i]? = some (call, .fatal stage) := by
  obtain ⟨severity, hrequest, -, hfitting⟩ := exists_request h
  rw [Fitting, hwarning] at hfitting
  obtain ⟨stage, rfl⟩ := hfitting
  exact ⟨stage, hrequest⟩

/-- A call that fails, and may not, is the last. -/
theorem length_calls_of_failure {i : Nat} {call : Call}
    (h : (outcome plan layout allowFlash start failures room).calls[i]? = some call)
    (hwarning : call.warning? = none) (hfailed : failures i ≠ none) :
    i + 1 = (outcome plan layout allowFlash start failures room).calls.length := by
  obtain ⟨stage, hrequest⟩ := exists_fatal_request h hwarning
  obtain ⟨failure, hfailure⟩ := Option.ne_none_iff_exists'.mp hfailed
  have hzero : Record.empty.calls.length + i = i := Nat.zero_add i
  have hlast := (ran_outcome plan layout allowFlash start failures room).last_of_fatal hrequest
    (hzero.symm ▸ (List.getElem?_eq_some_iff.mp h).1) (hzero.symm ▸ hfailure)
  exact (hzero ▸ hlast.1).symm

/-- A load that succeeds has made all calls of its plan, and none has failed that may not. -/
theorem calls_of_ok (h : (outcome plan layout allowFlash start failures room).result = .ok ()) :
    (outcome plan layout allowFlash start failures room).calls =
        callsOf plan layout allowFlash start ∧
      ∀ (i : Nat) (call : Call),
        (outcome plan layout allowFlash start failures room).calls[i]? = some call →
        call.warning? = none → failures i = none := by
  obtain ⟨-, -, -, hnone⟩ := (ran_outcome plan layout allowFlash start failures room).of_ok h
  constructor
  · rw [calls_of_result_ok plan layout allowFlash start h, map_fst_requests]
  · intro i call hcall hwarning
    obtain ⟨stage, hrequest⟩ := exists_fatal_request hcall hwarning
    have hzero : Record.empty.calls.length + i = i := Nat.zero_add i
    exact hzero ▸ hnone i call stage hrequest

end Calls

/-! ### Delivery -/

/-- Exchanges *deliver* a call under a token: they are all phases of its command, and every phase
went as it should. -/
def Delivers (endpoints : Endpoints) (token : UInt32) (call : Call)
    (exchanges : List Exchange) : Prop :=
  ∃ operation, call.operation? = some operation ∧
    exchanges.map Exchange.phase =
      phases endpoints token operation.command operation.payload ∧
    ∀ exchange ∈ exchanges, exchange.fault? = none

/-- **An erase or a write that succeeds is delivered**: no failure on the way is made good by what
the device says afterwards. -/
theorem delivers_of_fault?_eq_none {endpoints : Endpoints} {token : UInt32}
    {responses : List Response} {call : Call} (hstores : call.Stores)
    (h : call.fault? endpoints token responses = none) :
    Delivers endpoints token call (call.exchanges endpoints token responses) := by
  obtain ⟨operation, hoperation, hne⟩ := hstores.exists_operation
  simp only [Call.fault?, Call.exchanges, hoperation] at h ⊢
  obtain ⟨a, hok⟩ := faultOf_eq_none_iff.mp h
  have hnone := Operation.firstFault_of_result_ok hne hok
  have hexchanges : operation.exchanges endpoints token responses =
      operation.transfers endpoints token responses := by
    rw [Operation.exchanges, hnone, List.append_nil]
  rw [hexchanges]
  exact ⟨operation, hoperation, map_phase_carryOut hnone, firstFault_eq_none_iff.mp hnone⟩

/-! ### The statement -/

/-- What a load over USB has to do with the recorded load of its plan: `opened` is the host once it
has connected, `loaded` what the load leaves, and `out` what the recorded load leaves. -/
structure Refines (plan : Plan) (allowFlash start : Bool) (connection : Connection)
    (opened : Host) (out : Outcome) (loaded : Except Fault Unit × Host × Sink) : Prop where
  /-- It ends in the same way. -/
  result_eq : loaded.1 = out.result
  /-- It gives the same output. -/
  sink_eq : loaded.2.2 = out.2.2
  /-- What was put out is read as the calls after the first, in order, under the tokens from one
  on. -/
  messages : ∃ rest messages, out.calls = .resetInterface :: rest ∧
    readMessages (bulkOuts loaded.2.1.trace) = some messages ∧
    List.Forall₂ (fun numbered message => TellsOf message numbered.1 numbered.2)
      (rest.zipIdx 1) messages
  /-- If it succeeds, every call of the plan was made. -/
  calls_eq : loaded.1 = .ok () →
    out.calls = callsOf plan (.ofChip connection.chip) allowFlash start
  /-- What is done on the bus falls into one block of exchanges for each call. If the load succeeds,
  the block of every erase and every write delivers it. -/
  delivers : ∃ blocks : List (List Exchange), Made blocks.flatten opened loaded.2.1 ∧
    blocks.length = out.calls.length ∧
    (loaded.1 = .ok () → ∀ i call block, out.calls[i]? = some call → blocks[i]? = some block →
      call.Stores → Delivers connection.endpoints (UInt32.ofNat i) call block)

/-- A trace without transfers puts nothing out. -/
theorem bulkOuts_eq_nil {trace : List Event} (h : ∀ event ∈ trace, ¬event.IsTransfer) :
    bulkOuts trace = [] := by
  refine List.filterMap_eq_nil_iff.mpr fun event hevent => ?_
  have hnot := h event hevent
  cases event with
  | bulkOut endpoint bytes => exact absurd trivial hnot
  | _ => rfl

section Refines

variable {image : Elf.Image} {connection : Connection} {allowFlash start : Bool} {plan : Plan}
  {failures : Nat → Option Failure} {room : Option Nat} {opened host : Host}

/-- In a load with the failures of a session, a call that stores and fails is the last. -/
theorem storesEnd_of_failsAsOn {layout : Layout} {rest : List Call} {session : Session}
    (heq : (outcome plan layout allowFlash start failures room).calls = .resetInterface :: rest)
    (hfails : FailsAsOn session failures (.resetInterface :: rest)) :
    StoresEnd (next session .resetInterface) rest := by
  intro i call hcall hstores hfailed
  have hfailure : failures (i + 1) ≠ none := by
    intro hnone
    have hfault := hfails (i + 1) call hcall
    rw [hnone] at hfault
    exact hfailed hfault.symm
  have hmade : (outcome plan layout allowFlash start failures room).calls[i + 1]? =
      some call := by
    rw [heq]
    exact hcall
  have hlast := length_calls_of_failure hmade hstores.warning?_eq_none hfailure
  rwa [heq, List.length_cons, Nat.add_right_cancel_iff] at hlast

/-- **In a load that succeeds every erase and every write is delivered.** -/
theorem delivers_of_ok {rest : List Call} (htell : ∀ call ∈ rest, call.Tellable)
    (hfails : FailsAsOn (.start connection opened) failures (.resetInterface :: rest))
    (hnone : ∀ (i : Nat) (call : Call), (Call.resetInterface :: rest)[i]? = some call →
      call.warning? = none → failures i = none)
    {i : Nat} {call : Call} {block : List Exchange}
    (hcall : (Call.resetInterface :: rest)[i]? = some call)
    (hblock : (blocks (.start connection opened) (.resetInterface :: rest))[i]? = some block)
    (hstores : call.Stores) :
    Delivers connection.endpoints (UInt32.ofNat i) call block := by
  have hfault := hfails i call hcall
  rw [hnone i call hcall hstores.warning?_eq_none, (perform_spec _ _).1, connection_after] at hfault
  rw [getElem?_blocks hcall, Option.some_inj] at hblock
  rw [← hblock, exchangesOf, connection_after]
  have hdelivers := delivers_of_fault?_eq_none hstores hfault.symm
  cases i with
  | zero =>
    obtain rfl := Option.some.inj hcall
    exact hstores.elim
  | succ i =>
    have hi : i < rest.length := Nat.lt_of_succ_lt_succ (List.getElem?_eq_some_iff.mp hcall).1
    rwa [token_after_take rfl htell hi] at hdelivers ⊢

/-- **The run on a session refines the recorded run** with the failures of the session. -/
theorem refines_performPlan (h : Plan.build image (.ofChip connection.chip) allowFlash = .ok plan)
    (hopened : ∀ event ∈ opened.trace, ¬event.IsTransfer)
    (hsame : SameBus (.start connection opened) (.start connection host))
    (hfails : FailsAsOn (.start connection opened) failures
      (outcome plan (.ofChip connection.chip) allowFlash start failures room).calls) :
    Refines plan allowFlash start connection opened
      (outcome plan (.ofChip connection.chip) allowFlash start failures room)
      (performPlan connection (.ok plan) allowFlash start host ⟨"", room⟩) := by
  have hran := ran_outcome plan (.ofChip connection.chip) allowFlash start failures room
  obtain ⟨final, hrun, hfinal⟩ :=
    hran.simulates (List.nil_append _).symm hsame (by simpa [Record.empty] using hfails)
  have hloaded : performPlan connection (.ok plan) allowFlash start host ⟨"", room⟩ =
      ((outcome plan (.ofChip connection.chip) allowFlash start failures room).result, final.host,
        (outcome plan (.ofChip connection.chip) allowFlash start failures room).2.2) := by
    rw [performPlan, perform, hrun]
  obtain ⟨rest, heq, hrest⟩ :=
    exists_calls_eq plan (.ofChip connection.chip) allowFlash start failures room
  have htell : ∀ call ∈ rest, call.Tellable := by
    intro call hcall
    have hrest := (List.prefix_cons_inj _).mp hrest
    obtain ⟨action, haction, hcall⟩ := List.mem_flatMap.mp (hrest.subset hcall)
    exact tellable_of_mem h haction hcall
  rw [heq] at hfails hfinal
  have hmade : Made (blocks (.start connection opened) (.resetInterface :: rest)).flatten opened
      final.host := by
    have hmade := (made_after (.start connection opened) (.resetInterface :: rest)).trans
      (.nil hfinal.responses.symm hfinal.trace.symm)
    rwa [List.append_nil] at hmade
  rw [hloaded]
  constructor
  · rfl
  · rfl
  · have hends := storesEnd_of_failsAsOn heq hfails
    obtain ⟨messages, hread, htold⟩ := exists_messages_of_takeOver rfl htell hends
    refine ⟨rest, messages, heq, ?_, htold⟩
    rw [hmade.trace_eq, bulkOuts_append, bulkOuts_eq_nil hopened, List.nil_append, hread]
  · exact fun hok => (calls_of_ok hok).1
  · refine ⟨_, hmade, by rw [length_blocks, heq], ?_⟩
    intro hok i call block hcall hblock hstores
    have hnone := (calls_of_ok hok).2
    rw [heq] at hcall hnone
    exact delivers_of_ok htell hfails hnone hcall hblock hstores

end Refines

/-- A load over USB is *faithful* if it does on the bus what a load asks for, and nothing else. The
connection is open in `opened`, and the load leaves `loaded`. -/
structure Faithful (file : Except Elf.Error (List UInt8)) (allowFlash start : Bool)
    (responses : List Response) (room : Option Nat) (connection : Connection) (opened : Host)
    (loaded : Except Fault Unit × Host × Sink) : Prop where
  /-- Up to then there was no transfer. -/
  untouched : Untouched responses opened
  /-- If the image cannot be read, or not be planned, there is none afterwards either. -/
  of_error : ∀ fault, (Plan.ofFile file (.ofChip connection.chip) allowFlash).1 = .error fault →
    loaded.1 = .error fault ∧ ∀ event ∈ loaded.2.1.trace, ¬event.IsTransfer
  /-- If there is a plan, there are recorded loads that fail as the operations of the connection
  do, -/
  exists_failures : ∀ plan, (Plan.ofFile file (.ofChip connection.chip) allowFlash).1 = .ok plan →
    ∃ failures, FailsAsOn (.start connection opened) failures
      (outcome plan (.ofChip connection.chip) allowFlash start failures room).calls
  /-- and the load over USB refines each of them. -/
  refines : ∀ plan failures, (Plan.ofFile file (.ofChip connection.chip) allowFlash).1 = .ok plan →
    FailsAsOn (.start connection opened) failures
      (outcome plan (.ofChip connection.chip) allowFlash start failures room).calls →
    Refines plan allowFlash start connection opened
      (outcome plan (.ofChip connection.chip) allowFlash start failures room) loaded

/-- A plan of a file is made of an image. -/
theorem exists_build_of_ofFile {file : Except Elf.Error (List UInt8)} {layout : Layout}
    {allowFlash : Bool} {plan : Plan} (h : (Plan.ofFile file layout allowFlash).1 = .ok plan) :
    ∃ image, Plan.build image layout allowFlash = .ok plan := by
  unfold Plan.ofFile at h
  split at h
  · cases h
  · split at h
    · cases h
    case h_2 image _ => exact ⟨image, h⟩

/-- A bus with one board on it, the smaller one. -/
def oneBoard : Bus where
  listRefusal := none
  devices := [⟨Chip.vendorId, 0x0003, [[⟨1, 0, 0xff, 0, 0, [⟨0x03, 2⟩, ⟨0x84, 2⟩]⟩]],
    none, none, none⟩]

/-- The board on it. -/
def theBoard : Connection := ⟨.rp2040, ⟨1, 0x03, 0x84⟩⟩

/-- A file with one segment of four bytes at the start of SRAM. -/
def fourBytes : List UInt8 :=
  [0x7f, 0x45, 0x4c, 0x46, 1, 1, 1] ++ List.replicate 9 0 ++
    [2, 0, 40, 0, 1, 0, 0, 0, 1, 0, 0, 0x20, 52, 0, 0, 0] ++ List.replicate 8 0 ++
    [52, 0, 32, 0, 1, 0] ++ List.replicate 6 0 ++
    [1, 0, 0, 0, 84, 0, 0, 0, 0, 0, 0, 0x20, 0, 0, 0, 0x20] ++
    [4, 0, 0, 0, 4, 0, 0, 0, 6, 0, 0, 0, 4, 0, 0, 0] ++ [0xA0, 0xA1, 0xA2, 0xA3]

/-- Responses under which the interface is taken over and a packet goes out whole, and then the
data are one byte short. -/
def oneByteShort : List Response := [.moved .whole, .moved .whole, .moved (.count 3)]

/-- The plan of this file. -/
def fourBytesPlan : Plan :=
  ⟨[⟨0x20000000, [0xA0, 0xA1, 0xA2, 0xA3]⟩], .empty, [], false, false, 0x20000001⟩

/-- The host once it has connected to the board. -/
def connected : Host :=
  ⟨oneByteShort, [.opened 0, .claimed 1], [⟨.info, .usb, "Found an Some(Rp2040) in bootsel mode"⟩]⟩

end PicoLoader.Load

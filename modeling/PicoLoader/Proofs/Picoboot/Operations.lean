import PicoLoader.Proofs.Picoboot.Transactions

/-!
# What operations do on the bus

All that an operation does on the bus, and how it ends, depends on its endpoints, its token and the
responses to come, and on nothing else: `PicoLoader.Picoboot.Operation.exchanges` and
`PicoLoader.Picoboot.Operation.result` say how (`Session.perform_spec`).

What goes out over the bulk endpoint is the packet, and then the data unless the packet does not go
through (`bulkOuts_exchanges`).
-/

namespace PicoLoader

namespace Usb

/-- What went out over bulk endpoints. -/
def bulkOuts (trace : List Event) : List (List UInt8) :=
  trace.filterMap fun
    | .bulkOut _ bytes => some bytes
    | _ => none

@[simp] theorem bulkOuts_append (first second : List Event) :
    bulkOuts (first ++ second) = bulkOuts first ++ bulkOuts second :=
  List.filterMap_append

theorem bulkOuts_isPrefix {first second : List Event} (h : first <+: second) :
    bulkOuts first <+: bulkOuts second := h.filterMap _

/-- An exchange puts out what its phase asks for, whatever the response. -/
theorem bulkOuts_events (exchanges : List Exchange) :
    bulkOuts (exchanges.flatMap Exchange.events) =
      bulkOuts ((exchanges.map Exchange.phase).map Phase.event) := by
  rw [List.map_map]
  exact filterMap_flatMap_events (fun _ => rfl) exchanges

end Usb

namespace Picoboot

open Usb

namespace Operation

section Wire

variable (operation : Operation) (endpoints : Endpoints) (token : UInt32)
  (responses : List Response)

/-- The exchanges of the transaction of an operation. -/
def transfers : List Exchange :=
  carryOut (phases endpoints token operation.command operation.payload) responses

/-- The responses to come after the transaction of an operation. -/
def responsesAfter : List Response :=
  responses.drop (operation.transfers endpoints token responses).length

/-- **The exchanges of an operation**: its transaction, and the request for the status if that
failed and the device is still there. -/
def exchanges : List Exchange :=
  operation.transfers endpoints token responses ++
    match firstFault (operation.transfers endpoints token responses) with
    | none => []
    | some fault =>
      if fault.isDisconnect then []
      else [⟨statusPhase endpoints,
        answer (operation.responsesAfter endpoints token responses)⟩]

/-- **How an operation ends.** -/
def result : Except Fault Unit :=
  match firstFault (operation.transfers endpoints token responses) with
  | none => .ok ()
  | some fault =>
    if fault.isDisconnect then operation.onGone fault
    else operation.onReply fault
      (replyOf (answer (operation.responsesAfter endpoints token responses)))

end Wire

end Operation

/-- **An operation makes its exchanges, and ends as they say**, under the token of the session. -/
theorem Session.perform_spec (session : Session) (operation : Operation) :
    let endpoints := session.connection.endpoints
    (session.perform operation).1 =
        operation.result endpoints session.token session.host.responses ∧
      Made (operation.exchanges endpoints session.token session.host.responses) session.host
        (session.perform operation).2.host ∧
      (session.perform operation).2.connection = session.connection ∧
      (session.perform operation).2.token = session.token + 1 := by
  intro endpoints
  obtain ⟨x, hx, hperform⟩ := session.exists_settles_perform operation
  have hfollows := follows_transact endpoints session.token operation.command operation.payload
  have hfault : faultOf (session.transaction operation session.host).1 =
      firstFault (operation.transfers endpoints session.token session.host.responses) :=
    hfollows.faultOf_eq session.host
  have hmade : Made (operation.transfers endpoints session.token session.host.responses)
      session.host (session.transaction operation session.host).2 := hfollows.made session.host
  rw [hperform]
  refine (and_assoc.mp ⟨?_, rfl, rfl⟩)
  rcases htransaction : session.transaction operation session.host
    with ⟨fault | received, host'⟩ <;> rw [htransaction] at hfault hmade
  · rw [Operation.result, Operation.exchanges, ← hfault, faultOf_error,
      Operation.responsesAfter, ← hmade.responses_eq]
    cases hgone : fault.isDisconnect with
    | true =>
      rw [hx.of_gone htransaction hgone]
      simpa [hgone] using hmade
    | false =>
      obtain ⟨hresult, hstatus⟩ := hx.exists_response htransaction hgone
      simpa [hgone, hresult] using hmade.trans hstatus
  · rw [Operation.result, Operation.exchanges, ← hfault, faultOf_ok, hx.of_ok htransaction]
    simpa using hmade

/-- Only the start of a program succeeds after a failed transaction. -/
theorem Operation.firstFault_of_result_ok {operation : Operation} {endpoints : Endpoints}
    {token : UInt32} {responses : List Response} (h : ∀ addr, operation ≠ .exec addr)
    (hok : operation.result endpoints token responses = .ok ()) :
    firstFault (operation.transfers endpoints token responses) = none := by
  cases hfault : firstFault (operation.transfers endpoints token responses) with
  | none => rfl
  | some fault =>
    rw [Operation.result, hfault, onGone_of_ne_exec h, onReply_of_ne_exec h] at hok
    cases hgone : fault.isDisconnect with
    | true => simp [hgone] at hok
    | false => exact absurd (by simpa [hgone] using hok) (blame_ne_ok _ _ _)

/-! ### What goes out -/

namespace Operation

section Outgoing

variable (operation : Operation) (endpoints : Endpoints) (token : UInt32)
  (responses : List Response)

/-- The data of an operation, if it has data. -/
def outgoing : List (List UInt8) :=
  if operation.command.transferLength = 0 then [] else [operation.payload]

theorem bulkOuts_phases :
    bulkOuts ((phases endpoints token operation.command operation.payload).map Phase.event) =
      operation.command.packet token :: operation.outgoing := by
  have hout := operation.testBit_code_command
  by_cases hlength : operation.command.transferLength = 0 <;>
    simp [phases, packetPhase, dataPhases, ackPhase, outgoing, bulkOuts, hout, hlength]

/-- The request for the status puts nothing out over a bulk endpoint. -/
theorem bulkOuts_exchanges :
    bulkOuts ((operation.exchanges endpoints token responses).flatMap Exchange.events) =
      bulkOuts (((operation.transfers endpoints token responses).map Exchange.phase).map
        Phase.event) := by
  rw [bulkOuts_events, exchanges, List.map_append, List.map_append, bulkOuts_append]
  refine (congrArg _ ?_).trans (List.append_nil _)
  split
  · rfl
  split
  · rfl
  · rfl

/-- **What an operation puts out**: its packet, and then its data, or nothing more. -/
theorem exists_bulkOuts_exchanges : ∃ sent,
    bulkOuts ((operation.exchanges endpoints token responses).flatMap Exchange.events) =
        operation.command.packet token :: sent ∧
      sent <+: operation.outgoing ∧
      (firstFault (operation.transfers endpoints token responses) = none →
        sent = operation.outgoing) := by
  -- The packet is the first transfer, whatever becomes of it; the rest is read off the phases.
  have hfirst : ∃ more, (operation.transfers endpoints token responses).map Exchange.phase =
      packetPhase endpoints token operation.command :: more := ⟨_, rfl⟩
  obtain ⟨more, hmore⟩ := hfirst
  have hcons : bulkOuts (((operation.transfers endpoints token responses).map Exchange.phase).map
      Phase.event) = operation.command.packet token :: bulkOuts (more.map Phase.event) := by
    rw [hmore]
    rfl
  refine ⟨_, (operation.bulkOuts_exchanges endpoints token responses).trans hcons, ?_, ?_⟩
  · have hphases := map_phase_carryOut_isPrefix
      (phases endpoints token operation.command operation.payload) responses
    have hout := bulkOuts_isPrefix (hphases.map Phase.event)
    rw [bulkOuts_phases] at hout
    exact List.prefix_cons_inj _ |>.mp (hcons ▸ hout)
  · intro hnone
    have hall := congrArg (fun phases => bulkOuts (phases.map Phase.event))
      (map_phase_carryOut hnone)
    exact List.tail_eq_of_cons_eq
      (hcons.symm.trans (hall.trans (operation.bulkOuts_phases endpoints token)))

end Outgoing

/-- A command without data has its packet as its first exchange; the others are the acknowledgement
and the request for the status. -/
theorem exists_exchanges_eq {operation : Operation} (h : operation.command.transferLength = 0)
    (endpoints : Endpoints) (token : UInt32) (responses : List Response) :
    ∃ response rest, operation.exchanges endpoints token responses =
        ⟨packetPhase endpoints token operation.command, response⟩ :: rest ∧
      ∀ exchange ∈ rest, exchange.phase = ackPhase endpoints operation.command ∨
        exchange.phase = statusPhase endpoints := by
  have hphases : phases endpoints token operation.command operation.payload =
      [packetPhase endpoints token operation.command, ackPhase endpoints operation.command] := by
    simp [phases, dataPhases, h]
  refine ⟨_, _, by rw [exchanges, transfers, hphases, carryOut,
    List.cons_append], fun exchange hmem => ?_⟩
  -- The acknowledgement follows a packet that went through, and the status is asked for after a
  -- failure.
  rcases List.mem_append.mp hmem with hacknowledged | hasked
  · split at hacknowledged
    · rw [carryOut_singleton] at hacknowledged
      exact Or.inl (congrArg Exchange.phase (List.mem_singleton.mp hacknowledged))
    · cases hacknowledged
  · split at hasked
    · cases hasked
    split at hasked
    · cases hasked
    · exact Or.inr (congrArg Exchange.phase (List.mem_singleton.mp hasked))

end Operation

/-! ### Taking the interface over -/

/-- The request that takes the interface over. -/
def takeOverPhase (endpoints : Endpoints) : Phase :=
  ⟨.controlOut ⟨vendorOut, resetRequest, 0, endpoints.interface.toUInt16⟩ [], commandLimit, none⟩

theorem follows_takeOver (endpoints : Endpoints) :
    Follows (takeOver endpoints) [takeOverPhase endpoints] := follows_controlOut _ _ _

end Picoboot

end PicoLoader

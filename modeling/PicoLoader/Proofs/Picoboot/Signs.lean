import PicoLoader.Proofs.Picoboot.Operations

/-!
# Signs that a device is going away

A device that starts a program or reboots leaves the bus, and it may do so in the middle of the
operation that makes it. The host sees signs of it: a transfer finds the device gone
(`PicoLoader.Usb.Gone`), or the device says in reply to the request for its status that it is about
to go (`PicoLoader.Picoboot.Answers`). This file reads the signs off the exchanges of an operation.

An operation can go in three ways, and `PicoLoader.Picoboot.Operation.exchanges_cases` has for each
of them the exchanges and the result: all transfers go through; or one finds the device gone, and is
the last; or one has another fault, and only the request for the status follows. That request is the
one transfer of the third way that can still find the device gone, and no other transfer looks like
it (`phase_ne_statusPhase`).
-/

namespace PicoLoader

namespace Usb

/-- Whether a transfer found the device gone. -/
def Gone (exchanges : List Exchange) : Prop :=
  ∃ exchange ∈ exchanges, exchange.response = .failed .disconnected

theorem gone_append_iff {first second : List Exchange} :
    Gone (first ++ second) ↔ Gone first ∨ Gone second := by
  simp only [Gone, List.mem_append, or_and_right, exists_or]

theorem gone_singleton_iff {exchange : Exchange} :
    Gone [exchange] ↔ exchange.response = .failed .disconnected := by
  simp [Gone]

/-- A disconnection is the fault of no other response than the one that says so. -/
theorem Exchange.fault?_eq_disconnected_iff {exchange : Exchange} :
    exchange.fault? = some (.transfer .disconnected) ↔
      exchange.response = .failed .disconnected := by
  obtain ⟨phase, response⟩ := exchange
  cases response with
  | failed error => simp [fault?, Phase.fault?]
  | hung => simp [fault?, Phase.fault?]
  | moved delivery =>
    simp only [fault?, Phase.fault?, reduceCtorEq, iff_false]
    split
    · simp
    split
    · simp
    · simp

section CarryOut

variable {phases : List Phase} {responses : List Response} {exchange : Exchange}

/-- The fault of an exchange is the first fault: there is no second one. -/
theorem firstFault_carryOut_of_mem {fault : Fault} (hmem : exchange ∈ carryOut phases responses)
    (hfault : exchange.fault? = some fault) :
    firstFault (carryOut phases responses) = some fault := by
  cases hfirst : firstFault (carryOut phases responses) with
  | none =>
    rw [firstFault_eq_none_iff.mp hfirst exchange hmem] at hfault
    cases hfault
  | some first =>
    -- The exchange can only be the last, because none before it has a fault.
    obtain ⟨before, last, heq, hbefore, hlast⟩ := exists_last_of_firstFault hfirst
    rw [heq] at hmem
    rcases List.mem_append.mp hmem with hmem | hmem
    · rw [firstFault_eq_none_iff.mp hbefore exchange hmem] at hfault
      cases hfault
    · rw [← hfault, List.mem_singleton.mp hmem, hlast]

/-- **The device was found gone** if and only if that is what ended the phases. -/
theorem gone_carryOut_iff : Gone (carryOut phases responses) ↔
    firstFault (carryOut phases responses) = some (.transfer .disconnected) := by
  constructor
  · rintro ⟨exchange, hmem, hgone⟩
    exact firstFault_carryOut_of_mem hmem (Exchange.fault?_eq_disconnected_iff.mpr hgone)
  · intro hfirst
    obtain ⟨before, last, heq, -, hlast⟩ := exists_last_of_firstFault hfirst
    refine ⟨last, ?_, Exchange.fault?_eq_disconnected_iff.mp hlast⟩
    rw [heq]
    exact List.mem_append_right _ (List.mem_singleton_self last)

/-- Another fault means that the device was still there. -/
theorem not_gone_carryOut {fault : Fault}
    (hfirst : firstFault (carryOut phases responses) = some fault)
    (hne : fault ≠ .transfer .disconnected) : ¬Gone (carryOut phases responses) := by
  intro hgone
  exact hne (Option.some.inj (hfirst.symm.trans (gone_carryOut_iff.mp hgone)))

end CarryOut

/-- Exchanges after a fault do not change which is the first. -/
theorem firstFault_append_of_some {first second : List Exchange} {fault : Fault}
    (h : firstFault first = some fault) : firstFault (first ++ second) = some fault := by
  rw [firstFault_append, h, Option.some_or]

end Usb

namespace Picoboot

open Usb

/-! ### Replies -/

/-- A response to the request for the status *replies* with a status: it is a whole reply, with the
code of that status. -/
def Replies (response : Response) (status : Status) : Prop :=
  ∃ delivery, response = .moved delivery ∧
    (delivery.received 16).length = 16 ∧
    LittleEndian.field (delivery.received 16) 4 4 = status.code.toNat

/-- Whether the device was asked for its status among some exchanges, and replied with `status`. -/
def Answers (endpoints : Endpoints) (status : Status) (exchanges : List Exchange) : Prop :=
  ∃ response, ⟨statusPhase endpoints, response⟩ ∈ exchanges ∧ Replies response status

/-- Whether the packet of a command went out as a whole among some exchanges. -/
def PacketSent (endpoints : Endpoints) (token : UInt32) (command : Command)
    (exchanges : List Exchange) : Prop :=
  ∃ exchange ∈ exchanges, exchange.phase = packetPhase endpoints token command ∧
    exchange.fault? = none

/-! ### How an operation can go -/

namespace Operation

variable {operation : Operation} {endpoints : Endpoints} {token : UInt32}
  {responses : List Response} {exchange : Exchange}

/-- No transfer of a transaction is the request for the status. -/
theorem phase_ne_statusPhase (hmem : exchange ∈ operation.transfers endpoints token responses) :
    exchange.phase ≠ statusPhase endpoints := by
  have hphase : exchange.phase ∈ phases endpoints token operation.command operation.payload :=
    (map_phase_carryOut_isPrefix _ _).subset (List.mem_map_of_mem hmem)
  intro heq
  rw [heq, phases, packetPhase, dataPhases, ackPhase, statusPhase] at hphase
  by_cases hlength : operation.command.transferLength = 0 <;>
    simp [hlength, operation.testBit_code_command] at hphase

theorem status_not_mem_transfers {response : Response} :
    ⟨statusPhase endpoints, response⟩ ∉ operation.transfers endpoints token responses :=
  fun hmem => phase_ne_statusPhase hmem rfl

/-- The first transfer of an operation is its packet. -/
theorem packet_mem_exchanges (operation : Operation) (endpoints : Endpoints) (token : UInt32)
    (responses : List Response) :
    ⟨packetPhase endpoints token operation.command, answer responses⟩ ∈
      operation.exchanges endpoints token responses :=
  List.mem_append_left _ List.mem_cons_self

/-- **How an operation can go**, with the exchanges and the result of each way. -/
theorem exchanges_cases (operation : Operation) (endpoints : Endpoints) (token : UInt32)
    (responses : List Response) :
    (firstFault (operation.transfers endpoints token responses) = none ∧
      operation.exchanges endpoints token responses =
        operation.transfers endpoints token responses ∧
      operation.result endpoints token responses = .ok ()) ∨
    (firstFault (operation.transfers endpoints token responses) =
        some (.transfer .disconnected) ∧
      operation.exchanges endpoints token responses =
        operation.transfers endpoints token responses ∧
      operation.result endpoints token responses =
        operation.onGone (.transfer .disconnected)) ∨
    ∃ fault response, firstFault (operation.transfers endpoints token responses) = some fault ∧
      fault ≠ .transfer .disconnected ∧
      operation.exchanges endpoints token responses =
        operation.transfers endpoints token responses ++ [⟨statusPhase endpoints, response⟩] ∧
      operation.result endpoints token responses =
        operation.onReply fault (replyOf response) := by
  rw [exchanges, result]
  cases hfirst : firstFault (operation.transfers endpoints token responses) with
  | none => exact Or.inl ⟨rfl, List.append_nil _, rfl⟩
  | some fault =>
    by_cases hgone : fault = .transfer .disconnected
    · subst hgone
      exact Or.inr (Or.inl ⟨rfl, List.append_nil _, rfl⟩)
    · have hthere : fault.isDisconnect = false :=
        Bool.eq_false_iff.mpr (mt Fault.isDisconnect_iff.mp hgone)
      simp only [hthere, Bool.false_eq_true, ↓reduceIte]
      exact Or.inr (Or.inr ⟨fault, _, rfl, hgone, rfl, rfl⟩)

/-- After the transfers, the device is asked for its status once. -/
theorem status_mem_append_iff {response response' : Response} :
    ⟨statusPhase endpoints, response'⟩ ∈ operation.transfers endpoints token responses ++
      [⟨statusPhase endpoints, response⟩] ↔ response' = response := by
  constructor
  · intro hmem
    rcases List.mem_append.mp hmem with hmem | hmem
    · exact absurd hmem status_not_mem_transfers
    · exact congrArg Exchange.response (List.mem_singleton.mp hmem)
  · rintro rfl
    exact List.mem_append_right _ (List.mem_singleton_self _)

theorem answers_append_iff {status : Status} {response : Response} :
    Answers endpoints status (operation.transfers endpoints token responses ++
      [⟨statusPhase endpoints, response⟩]) ↔ Replies response status := by
  simp only [Answers, status_mem_append_iff, exists_eq_left]

end Operation

/-- The exchanges of an operation in a session. -/
def Session.exchanges (session : Session) (operation : Operation) : List Exchange :=
  operation.exchanges session.connection.endpoints session.token session.host.responses

end Picoboot

end PicoLoader

import PicoLoader.Proofs.Picoboot.Signs

/-!
# When the start of a program is reported

The start of a program is reported as a success after a failed transaction too, on certain signs. A
wrong sign is a program that never started although the user is told so. This file says exactly
which signs there are (`PicoLoader.Picoboot.StartReported`), for every session and all responses to
come: all transfers went through; or one of them found the device gone, the request for the status
included; or the device replied to this request that it is rebooting, or that nothing is wrong.

The last of these says nothing about the packet. A device that stalled the packet, and then replies
that nothing is wrong, counts as one that has started the program (`not_packetSent_stalled`).
-/

namespace PicoLoader.Picoboot

open Usb

theorem mayHaveStarted_iff {reply : StatusReply} : mayHaveStarted reply = true ↔
    reply.status? = some .ok ∨ reply.status? = some .rebooting := by
  simp [mayHaveStarted]

/-- **What the request for the status has to come to** for a start to be condoned. -/
theorem condone_replyOf_eq_ok_iff {fault : Fault} {response : Response} :
    condone fault (replyOf response) = .ok () ↔
      response = .failed .disconnected ∨ Replies response .ok ∨ Replies response .rebooting := by
  cases response with
  | failed error =>
    rw [replyOf, condone, ite_eq_left_iff]
    simp [Fault.isDisconnect_iff, Replies]
  | hung => simp [replyOf, condone, Replies, Fault.isDisconnect]
  | moved delivery =>
    by_cases hlength : (delivery.received 16).length = 16
    · have hcondone : condone fault (replyOf (.moved delivery)) = .ok () ↔
          mayHaveStarted (.ofBytes (delivery.received 16)) = true := by
        simp [replyOf, hlength, condone]
      rw [hcondone, mayHaveStarted_iff, status?_ofBytes_eq_some_iff, status?_ofBytes_eq_some_iff]
      simp [Replies, hlength]
    · simp [replyOf, hlength, condone, Replies, Fault.isDisconnect]

/-- What is not condoned is reported as the failure that it is. -/
theorem condone_eq_error {fault fault' : Fault} {reply : Except Fault StatusReply}
    (h : condone fault reply = .error fault') : fault = fault' := by
  cases reply with
  | error statusFault =>
    rw [condone] at h
    split at h
    · cases h
    · exact Except.error.inj h
  | ok reply =>
    rw [condone] at h
    split at h
    · cases h
    · exact Except.error.inj h

/-- **What the report of a start means**, by the exchanges of the operation. This is said of every
token, the greatest too, which is followed by zero, as in a release build. A build with overflow
checks halts under the greatest token, before the packet goes out. -/
structure StartReported (session : Session) (addr : UInt32) : Prop where
  /-- These are the transfers that were made. -/
  made : Made (session.exchanges (.exec addr)) session.host
    (session.perform (.exec addr)).2.host
  /-- A success is reported on one of these signs, and on no other. -/
  ok_iff : (session.perform (.exec addr)).1 = .ok () ↔
    (∀ exchange ∈ session.exchanges (.exec addr), exchange.fault? = none) ∨
    Gone (session.exchanges (.exec addr)) ∨
    Answers session.connection.endpoints .ok (session.exchanges (.exec addr)) ∨
    Answers session.connection.endpoints .rebooting (session.exchanges (.exec addr))
  /-- With a success, the packet went out, or the device went away, or it replied to the request for
  its status in one of two ways. -/
  of_ok : (session.perform (.exec addr)).1 = .ok () →
    PacketSent session.connection.endpoints session.token (Operation.exec addr).command
      (session.exchanges (.exec addr)) ∨
    Gone (session.exchanges (.exec addr)) ∨
    Answers session.connection.endpoints .ok (session.exchanges (.exec addr)) ∨
    Answers session.connection.endpoints .rebooting (session.exchanges (.exec addr))
  /-- A failure is that of the first transfer that failed. -/
  of_error : ∀ fault, (session.perform (.exec addr)).1 = .error fault →
    firstFault (session.exchanges (.exec addr)) = some fault

section Exec

variable (endpoints : Endpoints) (token : UInt32) (responses : List Response) (addr : UInt32)

/-- **The signs of a start**, whatever the responses. -/
theorem result_exec_eq_ok_iff :
    (Operation.exec addr).result endpoints token responses = .ok () ↔
      (∀ exchange ∈ (Operation.exec addr).exchanges endpoints token responses,
        exchange.fault? = none) ∨
      Gone ((Operation.exec addr).exchanges endpoints token responses) ∨
      Answers endpoints .ok ((Operation.exec addr).exchanges endpoints token responses) ∨
      Answers endpoints .rebooting
        ((Operation.exec addr).exchanges endpoints token responses) := by
  rw [← firstFault_eq_none_iff]
  rcases (Operation.exec addr).exchanges_cases endpoints token responses with
    ⟨hfirst, hexchanges, hresult⟩ | ⟨hfirst, hexchanges, hresult⟩ |
      ⟨fault, response, hfirst, hfault, hexchanges, hresult⟩
  · rw [hexchanges, hresult, hfirst]
    exact iff_of_true rfl (Or.inl rfl)
  · rw [hexchanges, hresult]
    exact iff_of_true rfl (Or.inr (Or.inl (gone_carryOut_iff.mpr hfirst)))
  · -- The transfers did not find the device gone, so the request for the status decides.
    have hthere := not_gone_carryOut hfirst hfault
    have hreply : (Operation.exec addr).onReply fault (replyOf response) = .ok () ↔ _ :=
      condone_replyOf_eq_ok_iff
    rw [hexchanges, hresult, Operation.answers_append_iff, Operation.answers_append_iff,
      gone_append_iff, gone_singleton_iff, firstFault_append_of_some hfirst, hreply,
      Operation.transfers]
    simp [hthere]

theorem firstFault_of_result_exec_eq_error {fault : Fault}
    (h : (Operation.exec addr).result endpoints token responses = .error fault) :
    firstFault ((Operation.exec addr).exchanges endpoints token responses) = some fault := by
  rcases (Operation.exec addr).exchanges_cases endpoints token responses with
    ⟨-, -, hresult⟩ | ⟨-, -, hresult⟩ | ⟨first, response, hfirst, -, hexchanges, hresult⟩
  · cases hresult.symm.trans h
  · cases hresult.symm.trans h
  · rw [hexchanges, firstFault_append_of_some hfirst, condone_eq_error (hresult.symm.trans h)]

end Exec

/-- **When the start of a program is reported**, for every session and every address. -/
theorem startReported (session : Session) (addr : UInt32) : StartReported session addr := by
  obtain ⟨hresult, hmade, -, -⟩ := session.perform_spec (.exec addr)
  have hok := result_exec_eq_ok_iff session.connection.endpoints session.token
    session.host.responses addr
  rw [← hresult] at hok
  refine ⟨hmade, hok, ?_, ?_⟩
  · intro h
    refine (hok.mp h).imp_left fun hall => ?_
    have hpacket := (Operation.exec addr).packet_mem_exchanges session.connection.endpoints
      session.token session.host.responses
    exact ⟨_, hpacket, rfl, hall _ hpacket⟩
  · intro fault h
    exact firstFault_of_result_exec_eq_error _ _ _ _ (hresult.symm.trans h)

/-- A session whose device stalls the next transfer, and then replies that nothing is wrong. -/
def stalled : Session :=
  .start ⟨.rp2040, ⟨1, 3, 132⟩⟩
    (.start [.failed .stall, .moved (.data (List.replicate 16 0))])

/-- **A start may be reported of a program that the device was never told to start**: the packet was
stalled, the device is still there, and it does not say that it is rebooting. -/
theorem not_packetSent_stalled :
    ¬∀ (session : Session) (addr : UInt32), (session.perform (.exec addr)).1 = .ok () →
      PacketSent session.connection.endpoints session.token (Operation.exec addr).command
        (session.exchanges (.exec addr)) ∨
      Gone (session.exchanges (.exec addr)) ∨
      Answers session.connection.endpoints .rebooting (session.exchanges (.exec addr)) := by
  intro h
  have hexchanges : stalled.exchanges (.exec 0x20000000) =
      [⟨packetPhase ⟨1, 3, 132⟩ 1 (Operation.exec 0x20000000).command, .failed .stall⟩,
        ⟨statusPhase ⟨1, 3, 132⟩, .moved (.data (List.replicate 16 0))⟩] := rfl
  have hsigns := h stalled 0x20000000 rfl
  rw [hexchanges] at hsigns
  rcases hsigns with ⟨exchange, hmem, hphase, hfault⟩ | ⟨exchange, hmem, hgone⟩ |
    ⟨response, hmem, delivery, hmoved, -, hcode⟩
  · rcases List.mem_pair.mp hmem with rfl | rfl
    · cases hfault
    · cases hphase
  · rcases List.mem_pair.mp hmem with rfl | rfl <;> cases hgone
  · rcases List.mem_pair.mp hmem with hmem | hmem
    · cases congrArg Exchange.phase hmem
    · obtain rfl : delivery = .data (List.replicate 16 0) :=
        Response.moved.inj (hmoved.symm.trans (congrArg Exchange.response hmem))
      exact absurd hcode (by decide)

end PicoLoader.Picoboot

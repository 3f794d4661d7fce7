import PicoLoader.Proofs.Picoboot.Signs
import PicoLoader.Reboot.Request

/-!
# When a reboot is reported as sent

A board that is told to reboot through its boot loader goes away, and a disconnection counts as
success. This file says exactly which disconnections do (`PicoLoader.Reboot.SentReported`). The
reboot is reported as sent if all transfers went through, or if one of the transfers *of the
command* found the board gone. It is not where only the request for the status, which follows any
other failure, finds the board gone, and not where the board replies to this request that it is
rebooting: the first is reported as the failure before it, and the second as a fault of that name.
The start of a program takes both as signs of success
(`PicoLoader.Picoboot.condone_replyOf_eq_ok_iff`).

So a reboot that took effect may be reported as a failure (`not_sent_vanished`).
-/

namespace PicoLoader.Reboot

open Picoboot Usb

/-! ### The way through the boot loader -/

/-- What the result of the command for a reboot is reported as. -/
def reported : Except Fault Unit → Except Fault Outcome
  | .ok () => .ok .sent
  | .error fault => if fault.isDisconnect then .ok .sent else .error fault

theorem reported_error_of_ne {fault : Fault} (h : fault ≠ .transfer .disconnected) :
    reported (.error fault) = .error fault := by
  rw [reported, if_neg (mt Fault.isDisconnect_iff.mp h)]

section Route

variable {board : Board} {bootsel : Bool} {endpoints : Endpoints} {connection : Connection}
  {host claimed : Host}

/-- A claimed interface is the one that was asked for. -/
theorem eq_of_claimFor {device : Device} {chip : Chip}
    (h : claimFor device chip endpoints host = (.ok connection, claimed)) :
    connection = ⟨chip, endpoints⟩ := by
  rw [claimFor, Attempt.bind_apply] at h
  rcases hclaim : claim device endpoints.interface host with ⟨fault | _, host'⟩ <;>
    rw [hclaim] at h
  · cases h
  · exact (Except.ok.inj (congrArg Prod.fst h)).symm

/-- **A reboot through the boot loader is one operation**, in a session of its own. -/
theorem perform_picoboot (hroute : board.interfaces.route bootsel = .ok (.picoboot endpoints))
    (hclaim : claimFor board.device board.chip endpoints host = (.ok connection, claimed)) :
    perform board bootsel host =
      (reported (Session.perform (operation board.chip) (.start connection claimed)).1,
        (Session.perform (operation board.chip) (.start connection claimed)).2.host) := by
  have hchip : connection.chip = board.chip := by rw [eq_of_claimFor hclaim]
  simp only [perform, hroute, follow, Attempt.bind_apply, hclaim, viaPicoboot, hchip,
    Attempt.acceptDisconnect]
  rcases Session.perform (operation board.chip) (.start connection claimed) with
    ⟨fault | _, session⟩
  · cases hgone : fault.isDisconnect <;> simp [reported, hgone]
  · rfl

theorem operation_ne_exec (chip : Chip) : ∀ addr, operation chip ≠ .exec addr := by
  cases chip <;> rintro addr ⟨⟩

end Route

/-! ### What is reported -/

/-- **What the report on a reboot means**, by the exchanges with the boot loader. -/
structure SentReported (endpoints : Endpoints) (command : Command) (exchanges : List Exchange)
    (result : Except Fault Outcome) : Prop where
  /-- It was sent if all transfers went through, or if one of the command found the board gone. -/
  sent_iff : result = .ok .sent ↔
    (∀ exchange ∈ exchanges, exchange.fault? = none) ∨
    ∃ exchange ∈ exchanges, exchange.phase ≠ statusPhase endpoints ∧
      exchange.response = .failed .disconnected
  /-- If the board was asked for its status, the status that it blames is reported. -/
  of_blames : ∀ response status, ⟨statusPhase endpoints, response⟩ ∈ exchanges →
    Blames response status → result = .error (.reported command.id.code status)
  /-- If it blames none, the failure before it is. -/
  of_not_blames : ∀ response, ⟨statusPhase endpoints, response⟩ ∈ exchanges →
    (∀ status, ¬Blames response status) →
      ∃ fault, firstFault exchanges = some fault ∧ result = .error fault

/-- A failure that is no disconnection stays one, whatever the reply. -/
theorem reported_blame_ne_sent {command : Command} {fault : Fault}
    (h : fault ≠ .transfer .disconnected) (response : Response) :
    reported (blame command fault (replyOf response)) ≠ .ok .sent := by
  by_cases hblames : ∃ status, Blames response status
  · obtain ⟨status, hstatus⟩ := hblames
    rw [blame_of_blames hstatus, reported_error_of_ne (by rintro ⟨⟩)]
    rintro ⟨⟩
  · rw [blame_of_not_blames (not_exists.mp hblames), reported_error_of_ne h]
    rintro ⟨⟩

/-- **What is reported of an operation that starts no program**, whatever the responses. -/
theorem sentReported_result {operation : Operation} (hexec : ∀ addr, operation ≠ .exec addr)
    (endpoints : Endpoints) (token : UInt32) (responses : List Response) :
    SentReported endpoints operation.command (operation.exchanges endpoints token responses)
      (reported (operation.result endpoints token responses)) := by
  rcases operation.exchanges_cases endpoints token responses with
    ⟨hfirst, hexchanges, hresult⟩ | ⟨hfirst, hexchanges, hresult⟩ |
      ⟨fault, response, hfirst, hfault, hexchanges, hresult⟩
  · rw [hexchanges, hresult]
    exact
      { sent_iff := iff_of_true rfl (Or.inl (firstFault_eq_none_iff.mp hfirst))
        of_blames := fun _ _ hmem => absurd hmem Operation.status_not_mem_transfers
        of_not_blames := fun _ hmem => absurd hmem Operation.status_not_mem_transfers }
  · rw [hexchanges, hresult, Operation.onGone_of_ne_exec hexec]
    obtain ⟨exchange, hmem, hgone⟩ := gone_carryOut_iff.mpr hfirst
    exact
      { sent_iff := iff_of_true rfl
          (Or.inr ⟨exchange, hmem, Operation.phase_ne_statusPhase hmem, hgone⟩)
        of_blames := fun _ _ hmem => absurd hmem Operation.status_not_mem_transfers
        of_not_blames := fun _ hmem => absurd hmem Operation.status_not_mem_transfers }
  · -- The request for the status is the last exchange, and cannot make a success of the failure.
    rw [hexchanges, hresult, Operation.onReply_of_ne_exec hexec]
    refine ⟨iff_of_false (reported_blame_ne_sent hfault response) ?_, ?_, ?_⟩
    · rintro (hall | ⟨exchange, hmem, hphase, hgone⟩)
      · cases (firstFault_eq_none_iff.mpr hall).symm.trans (firstFault_append_of_some hfirst)
      rcases List.mem_append.mp hmem with hmem | hmem
      · exact not_gone_carryOut hfirst hfault ⟨exchange, hmem, hgone⟩
      · exact hphase (congrArg Exchange.phase (List.mem_singleton.mp hmem))
    · intro response' status hmem hblames
      obtain rfl := Operation.status_mem_append_iff.mp hmem
      rw [blame_of_blames hblames, reported_error_of_ne (by rintro ⟨⟩)]
    · intro response' hmem hnone
      obtain rfl := Operation.status_mem_append_iff.mp hmem
      refine ⟨fault, firstFault_append_of_some hfirst, ?_⟩
      rw [blame_of_not_blames hnone, reported_error_of_ne hfault]

/-! ### The statement -/

/-- **When a reboot is reported as sent**: on the way through the boot loader, with its interface
claimed, for both chips and whatever the responses. -/
theorem sentReported {board : Board} {bootsel : Bool} {endpoints : Endpoints}
    {connection : Connection} {host claimed : Host}
    (hroute : board.interfaces.route bootsel = .ok (.picoboot endpoints))
    (hclaim : claimFor board.device board.chip endpoints host = (.ok connection, claimed)) :
    let exchanges := (Session.start connection claimed).exchanges (operation board.chip)
    Made exchanges claimed (perform board bootsel host).2 ∧
      SentReported endpoints (operation board.chip).command exchanges
        (perform board bootsel host).1 := by
  intro exchanges
  obtain rfl := eq_of_claimFor hclaim
  obtain ⟨hresult, hmade, -, -⟩ :=
    Session.perform_spec (.start ⟨board.chip, endpoints⟩ claimed) (operation board.chip)
  rw [perform_picoboot hroute hclaim, hresult]
  exact ⟨hmade, sentReported_result (operation_ne_exec board.chip) endpoints 1 claimed.responses⟩

/-- A board in BOOTSEL mode. -/
def inBootsel : Board where
  device := ⟨Chip.vendorId, 0x0003, [[⟨1, 0, 255, 0, 0, [⟨3, 2⟩, ⟨132, 2⟩]⟩]], none, none, none⟩
  number := 0
  chip := .rp2040

/-- It goes away instead of acknowledging the command, and the reboot is reported as sent. -/
theorem sentReported_inBootsel :
    ∃ claimed, inBootsel.interfaces.route false = .ok (.picoboot ⟨1, 3, 132⟩) ∧
      claimFor inBootsel.device inBootsel.chip ⟨1, 3, 132⟩
          (.start [.moved .whole, .failed .disconnected]) =
        (.ok ⟨.rp2040, ⟨1, 3, 132⟩⟩, claimed) ∧
      SentReported ⟨1, 3, 132⟩ (operation .rp2040).command
        ((Session.start ⟨.rp2040, ⟨1, 3, 132⟩⟩ claimed).exchanges (operation .rp2040))
        (perform inBootsel false (.start [.moved .whole, .failed .disconnected])).1 ∧
      (perform inBootsel false (.start [.moved .whole, .failed .disconnected])).1 = .ok .sent := by
  have hroute : inBootsel.interfaces.route false = .ok (.picoboot ⟨1, 3, 132⟩) := rfl
  have hclaim : claimFor inBootsel.device inBootsel.chip ⟨1, 3, 132⟩
      (.start [.moved .whole, .failed .disconnected]) = (.ok ⟨.rp2040, ⟨1, 3, 132⟩⟩,
        ⟨[.moved .whole, .failed .disconnected], [.claimed 1], []⟩) := rfl
  exact ⟨_, hroute, hclaim, (sentReported hroute hclaim).2, rfl⟩

/-- The responses of a board that takes the command, does not acknowledge it, and is gone when it is
asked for its status. -/
def vanished : List Response := [.moved .whole, .hung, .failed .disconnected]

/-- **A reboot that took effect may be reported as a failure**: the command went out as a whole, and
after that the board was found gone, but only by the request for its status. -/
theorem not_sent_vanished :
    ¬∀ (board : Board) (bootsel : Bool) (endpoints : Endpoints) (connection : Connection)
      (host claimed : Host), board.interfaces.route bootsel = .ok (.picoboot endpoints) →
      claimFor board.device board.chip endpoints host = (.ok connection, claimed) →
      let exchanges := (Session.start connection claimed).exchanges (operation board.chip)
      PacketSent endpoints 1 (operation board.chip).command exchanges →
      Gone exchanges ∨ Answers endpoints .rebooting exchanges →
      (perform board bootsel host).1 = .ok .sent := by
  intro h
  have hexchanges : (Session.start ⟨.rp2040, ⟨1, 3, 132⟩⟩
      ⟨vanished, [.claimed 1], []⟩).exchanges (operation .rp2040) =
        [⟨packetPhase ⟨1, 3, 132⟩ 1 (operation .rp2040).command, .moved .whole⟩,
          ⟨ackPhase ⟨1, 3, 132⟩ (operation .rp2040).command, .hung⟩,
          ⟨statusPhase ⟨1, 3, 132⟩, .failed .disconnected⟩] := rfl
  have hfailed : (perform inBootsel false (.start vanished)).1 = .error .timedOut := rfl
  have hsent := h inBootsel false ⟨1, 3, 132⟩ ⟨.rp2040, ⟨1, 3, 132⟩⟩ (.start vanished)
    ⟨vanished, [.claimed 1], []⟩ rfl rfl ⟨_, hexchanges ▸ List.mem_cons_self, rfl, rfl⟩
    (Or.inl ⟨_, hexchanges ▸ List.mem_cons_of_mem _ (List.mem_cons_of_mem _ List.mem_cons_self),
      rfl⟩)
  rw [hfailed] at hsent
  cases hsent

end PicoLoader.Reboot

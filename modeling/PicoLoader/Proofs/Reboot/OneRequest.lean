import PicoLoader.CommandLine.RebootCommand
import PicoLoader.Proofs.Picoboot.Operations
import PicoLoader.Proofs.Picoboot.Packets
import PicoLoader.Proofs.Reboot.Interfaces
import PicoLoader.Proofs.Reboot.Scanning
import PicoLoader.Proofs.Usb.Conversations

/-!
# One request to one board

To reboot a board, the host looks for one and then takes the way that its interfaces leave. Here the
trace of the whole is followed, on any bus and under any responses. The search only opens boards;
everything after it is done with the board that was opened last, which is the one that was found:
one of its interfaces is claimed, and if that succeeds, *one* transfer goes out, whatever comes
back. It is either the request to the reset interface or the packet of the command for the boot
loader. All other transfers only ask the board for something: for the acknowledgement of the
command, and for the status if the command fails.

What the board has to say about itself is told by its descriptors: which number its reset interface
has, which endpoints its boot loader has, and by its product id which command makes it reboot.

* `leaves_perform_reset`, `leaves_perform_picoboot` – the conversations that the two ways to reboot
  leave in the trace;
* `PicoLoader.Reboot.Asked` – what may be done with the board that was found, by its interfaces;
* `PicoLoader.Reboot.OneRequest` – the statement.
-/

namespace PicoLoader

namespace Reboot

open Picoboot Usb

/-! ### The two ways to reboot -/

section Ways

variable {board : Board} {bootsel : Bool}

/-- A reset request, as a transfer. -/
def resetPhase (interface : UInt8) (request : ResetRequest) : Phase :=
  ⟨.controlOut (request.setup interface) [], resetLimit, none⟩

/-- **The way through the reset interface**: one transfer. -/
theorem leaves_perform_reset {interface : UInt8} {request : ResetRequest}
    (hroute : board.interfaces.route bootsel = .ok (.reset interface request)) :
    Leaves (perform board bootsel) fun responses =>
      conversation board.device interface (carryOut [resetPhase interface request] responses) := by
  have hrequest : Leaves (controlOut (request.setup interface) [] resetLimit) fun responses =>
      (carryOut [resetPhase interface request] responses).flatMap Exchange.events :=
    .of_follows (follows_controlOut _ _ _)
  rw [perform, hroute]
  simp only [follow, sendReset, bind_assoc]
  exact ((hrequest.acceptDisconnect.bind_pure request.outcome).note_bind _).claim_bind _ _

/-- **The way through the boot loader**: one command, under the first token. -/
theorem leaves_perform_picoboot {endpoints : Endpoints}
    (hroute : board.interfaces.route bootsel = .ok (.picoboot endpoints)) :
    Leaves (perform board bootsel) fun responses =>
      conversation board.device endpoints.interface
        ((operation board.chip).exchanges endpoints 1 responses) := by
  have hsession : Leaves (viaPicoboot ⟨board.chip, endpoints⟩) fun responses =>
      ((operation board.chip).exchanges endpoints 1 responses).flatMap Exchange.events := by
    -- The session holds the host, and a disconnection that is accepted adds nothing to its trace.
    intro host
    let session := Session.start ⟨board.chip, endpoints⟩ host
    have hmade := (session.perform_spec (operation board.chip)).2.1
    exact (congrArg (fun session => session.host.trace) (Attempt.acceptDisconnect_snd
      (Session.perform (operation board.chip)) session)).trans hmade.trace_eq
  rw [perform, hroute]
  simp only [follow, claimFor, bind_assoc, pure_bind]
  exact (hsession.bind_pure _).claim_bind _ _

/-- **The way that is taken**: through the reset interface if there is one, unless the boot loader
has an interface and the board should not go into BOOTSEL mode. -/
theorem Interfaces.route_cases {interfaces : Interfaces} (hany : interfaces.any = true)
    (bootsel : Bool) :
    (∃ interface, interfaces.reset = some interface ∧
      (bootsel = true ∨ interfaces.picoboot = none) ∧
      interfaces.route bootsel =
        .ok (.reset interface (if bootsel then .bootsel else .flash))) ∨
    (∃ endpoints, interfaces.picoboot = some endpoints ∧ bootsel = false ∧
      interfaces.route bootsel = .ok (.picoboot endpoints)) ∨
    (interfaces.reset = none ∧ bootsel = true ∧
      interfaces.route bootsel = .ok .alreadyInBootsel) := by
  obtain ⟨picoboot, reset⟩ := interfaces
  cases bootsel <;> cases picoboot <;> cases reset <;> simp_all [Interfaces.any, Interfaces.route]

/-- **A board is left alone, as being in BOOTSEL mode, only where this is the way to go.** -/
theorem route_of_perform_eq_ok {host : Host}
    (h : (perform board bootsel host).1 = .ok .alreadyInBootsel) :
    board.interfaces.route bootsel = .ok .alreadyInBootsel := by
  rcases hroute : board.interfaces.route bootsel with fault | ⟨endpoints⟩ | ⟨interface, request⟩ | _
  · rw [perform, hroute] at h
    cases h
  · rw [perform, hroute] at h
    simp only [follow, ← bind_assoc] at h
    cases Attempt.eq_of_bind_pure h
  · rw [perform, hroute] at h
    have houtcome : request.outcome = .alreadyInBootsel := Attempt.eq_of_bind_pure h
    cases request <;> cases houtcome
  · rfl

end Ways

/-! ### What may be done with a board -/

/-- What may be done with a board to reset it through an interface. -/
inductive OverReset (interface : UInt8) (bootsel : Bool) : Event → Prop
  | claimed : OverReset interface bootsel (.claimed interface)
  | detached : OverReset interface bootsel (.detached interface)
  /-- The request: without data, to the interface, in the sense of its class. -/
  | request : OverReset interface bootsel
      (.controlOut ⟨0x21, if bootsel then 1 else 2, 0, interface.toUInt16⟩ [])
  | timedOut (limit : Nat) : OverReset interface bootsel (.timedOut limit)

/-- The packet that makes the boot loader of a board reboot, by the product id of the board. -/
inductive IsRebootPacket (product : UInt16) : Packet → Prop
  | rp2040 (h : product = 0x0003 ∨ product = 0x000a) :
      IsRebootPacket product ⟨1, .reboot, [0, 0, 500], 0⟩
  | rp2350 (h : product = 0x000f ∨ product = 0x0009) :
      IsRebootPacket product ⟨1, .reboot2, [0, 500, 0, 0], 0⟩

/-- What may be done with a board to reboot it through its boot loader. -/
inductive OverPicoboot (product : UInt16) (endpoints : Endpoints) : Event → Prop
  | claimed : OverPicoboot product endpoints (.claimed endpoints.interface)
  | detached : OverPicoboot product endpoints (.detached endpoints.interface)
  /-- The command. -/
  | command (bytes : List UInt8) (packet : Packet) (hread : Packet.read? bytes = some packet)
      (h : IsRebootPacket product packet) :
      OverPicoboot product endpoints (.bulkOut endpoints.bulkOut bytes)
  | acknowledgement : OverPicoboot product endpoints (.bulkIn endpoints.bulkIn 1)
  /-- The request for the status, if the command fails. -/
  | status : OverPicoboot product endpoints
      (.controlIn ⟨0xc1, 0x42, 0, endpoints.interface.toUInt16⟩ 16)
  | timedOut (limit : Nat) : OverPicoboot product endpoints (.timedOut limit)

/-- **What is done with the device that was found, and reported of it.** -/
structure Asked (device : Device) (bootsel : Bool) (events : List Event)
    (result : Except Fault Outcome) : Prop where
  /-- No other device is opened. -/
  not_opened : ∀ number, .opened number ∉ events
  /-- At most one transfer goes out. -/
  length_requests_le : (requests events).length ≤ 1
  /-- The reset interface is used if there is one and the board should go into BOOTSEL mode, or has
  no interface of the boot loader: it is claimed, and if that succeeds, the request goes out. -/
  of_reset : HasReset device → bootsel = true ∨ ¬HasBootLoader device →
    ∃ interface, IsReset device interface ∧
      .claimed interface ∈ events ∧ (∀ event ∈ events, OverReset interface bootsel event) ∧
      (requests events ≠ [] ↔ device.Grants)
  /-- The boot loader is used if it has an interface and the board should not go into BOOTSEL
  mode. -/
  of_picoboot : HasBootLoader device → bootsel = false →
    ∃ endpoints, IsBootLoader device endpoints ∧
      .claimed endpoints.interface ∈ events ∧
      (∀ event ∈ events, OverPicoboot device.product endpoints event) ∧
      (requests events ≠ [] ↔ device.Grants)
  /-- So a reset request goes out in no other case. -/
  controlOut_mem_iff : (∃ setup bytes, .controlOut setup bytes ∈ events) ↔
    HasReset device ∧ (bootsel = true ∨ ¬HasBootLoader device) ∧ device.Grants
  /-- A board that is in BOOTSEL mode, and should be, is left alone. -/
  alreadyInBootsel_iff : result = .ok .alreadyInBootsel ↔ bootsel = true ∧ ¬HasReset device
  of_alreadyInBootsel : result = .ok .alreadyInBootsel → events = []

/-! ### Conversations with a board -/

section Conversations

variable {board : Board} {bootsel : Bool} {responses : List Response}

/-- A conversation over the reset interface. -/
theorem overReset_of_mem {device : Device} {interface : UInt8} {event : Event}
    (h : event ∈ conversation device interface
      (carryOut [resetPhase interface (if bootsel then .bootsel else .flash)] responses)) :
    OverReset interface bootsel event := by
  rcases mem_conversation h with rfl | rfl | ⟨limit, rfl⟩ | ⟨exchange, hmem, rfl⟩
  · exact .claimed
  · exact .detached
  · exact .timedOut limit
  · rw [carryOut_singleton] at hmem
    obtain rfl := List.mem_singleton.mp hmem
    cases bootsel <;> exact .request

/-- **The request is the one transfer that goes out** in a conversation over the reset interface. -/
theorem requests_conversation_reset (device : Device) (interface : UInt8) (request : ResetRequest)
    (responses : List Response) :
    requests (conversation device interface
        (carryOut [resetPhase interface request] responses)) =
      if device.Grants then [.controlOut (request.setup interface) []] else [] := by
  rw [carryOut_singleton]
  exact requests_conversation rfl (List.forall_mem_nil _)

/-- **The packet of the command is read back**, and it is the one for the product id. -/
theorem exists_read?_packet_operation {product : UInt16} {chip : Chip}
    (h : IsOfFamily chip product) :
    ∃ packet, Packet.read? ((operation chip).command.packet 1) = some packet ∧
      IsRebootPacket product packet := by
  cases chip with
  | rp2040 => exact ⟨_, read?_packet _ _ _ _, .rp2040 h⟩
  | rp2350 => exact ⟨_, read?_packet _ _ _ _, .rp2350 h⟩

theorem transferLength_operation (chip : Chip) : (operation chip).command.transferLength = 0 := by
  cases chip <;> rfl

/-- A conversation with the boot loader. -/
theorem overPicoboot_of_mem {device : Device} {chip : Chip} {endpoints : Endpoints} {event : Event}
    (hfamily : IsOfFamily chip device.product)
    (h : event ∈ conversation device endpoints.interface
      ((operation chip).exchanges endpoints 1 responses)) :
    OverPicoboot device.product endpoints event := by
  rcases mem_conversation h with rfl | rfl | ⟨limit, rfl⟩ | ⟨exchange, hmem, rfl⟩
  · exact .claimed
  · exact .detached
  · exact .timedOut limit
  · obtain ⟨response, rest, heq, hrest⟩ :=
      Operation.exists_exchanges_eq (transferLength_operation chip) endpoints 1 responses
    rw [heq] at hmem
    rcases List.mem_cons.mp hmem with rfl | hmem
    · obtain ⟨packet, hread, hpacket⟩ := exists_read?_packet_operation hfamily
      exact .command _ packet hread hpacket
    rcases hrest exchange hmem with hphase | hphase
    · rw [hphase, ackPhase, (operation chip).testBit_code_command]
      exact .acknowledgement
    · rw [hphase]
      exact .status

/-- **The command is the one transfer that goes out** in a conversation with the boot loader. -/
theorem requests_conversation_operation (device : Device) (chip : Chip) (endpoints : Endpoints)
    (responses : List Response) :
    requests (conversation device endpoints.interface
        ((operation chip).exchanges endpoints 1 responses)) =
      if device.Grants then
        [.bulkOut endpoints.bulkOut ((operation chip).command.packet 1)] else [] := by
  obtain ⟨response, rest, heq, hrest⟩ :=
    Operation.exists_exchanges_eq (transferLength_operation chip) endpoints 1 responses
  rw [heq]
  refine requests_conversation rfl fun exchange hmem => ?_
  rcases hrest exchange hmem with hphase | hphase
  · rw [hphase, ackPhase, (operation chip).testBit_code_command]
    rfl
  · rw [hphase]
    rfl

/-! ### What a board is asked -/

/-- A board is asked over its reset interface. -/
theorem asked_reset {device : Device} {interface : UInt8} {result : Except Fault Outcome}
    (hfound : resetInterface? device = some interface)
    (hway : bootsel = true ∨ ¬HasBootLoader device) (hresult : result ≠ .ok .alreadyInBootsel) :
    Asked device bootsel (conversation device interface
      (carryOut [resetPhase interface (if bootsel then .bootsel else .flash)] responses))
      result := by
  have hreset : HasReset device := isSome_resetInterface?_iff_hasReset.mp (by simp [hfound])
  have hrequests := requests_conversation_reset device interface
    (if bootsel then .bootsel else .flash) responses
  refine
    { not_opened := fun number hmem => nomatch overReset_of_mem hmem
      length_requests_le := ?_
      of_reset := ?_
      of_picoboot := ?_
      controlOut_mem_iff := ?_
      alreadyInBootsel_iff := iff_of_false hresult fun h => h.2 hreset
      of_alreadyInBootsel := fun h => absurd h hresult }
  · rw [hrequests]
    split <;> simp
  · intro _ _
    refine ⟨interface, isReset_of_resetInterface? hfound, claimed_mem_conversation,
      fun event => overReset_of_mem, ?_⟩
    rw [hrequests]
    split <;> simp_all
  · -- The way through the boot loader is not open: that is what `hway` says.
    rintro hpicoboot rfl
    exact absurd hpicoboot (hway.resolve_left Bool.false_ne_true)
  · simp only [controlOut_mem_iff_of_requests_eq hrequests]
    by_cases hgrants : device.Grants <;> simp [hgrants, hreset, hway]

/-- A board is asked over its boot loader. -/
theorem asked_picoboot {device : Device} {chip : Chip} {endpoints : Endpoints}
    {result : Except Fault Outcome} (hfamily : IsOfFamily chip device.product)
    (hfound : Endpoints.find? device = some endpoints) (hresult : result ≠ .ok .alreadyInBootsel) :
    Asked device false (conversation device endpoints.interface
      ((operation chip).exchanges endpoints 1 responses)) result := by
  have hpicoboot : HasBootLoader device := isSome_find?_iff.mp (by simp [hfound])
  have hrequests := requests_conversation_operation device chip endpoints responses
  refine
    { not_opened := fun number hmem => nomatch overPicoboot_of_mem hfamily hmem
      length_requests_le := ?_
      of_reset := ?_
      of_picoboot := ?_
      controlOut_mem_iff := ?_
      alreadyInBootsel_iff := iff_of_false hresult (by simp)
      of_alreadyInBootsel := fun h => absurd h hresult }
  · rw [hrequests]
    split <;> simp
  · intro _ hway
    exact absurd hpicoboot (hway.resolve_left Bool.false_ne_true)
  · intro _ _
    refine ⟨endpoints, isBootLoader_of_find? hfound, claimed_mem_conversation,
      fun event => overPicoboot_of_mem hfamily, ?_⟩
    rw [hrequests]
    split <;> simp_all
  · simp only [controlOut_mem_iff_of_requests_eq hrequests]
    by_cases hgrants : device.Grants <;> simp [hgrants, hpicoboot]

/-- A board in BOOTSEL mode is not asked to go there. -/
theorem asked_nothing {device : Device} (hreset : ¬HasReset device) :
    Asked device true [] (.ok .alreadyInBootsel) where
  not_opened := by simp
  length_requests_le := by simp [requests]
  of_reset hreset' := absurd hreset' hreset
  of_picoboot _ hway := by simp at hway
  controlOut_mem_iff := by simp [hreset]
  alreadyInBootsel_iff := by simp [hreset]
  of_alreadyInBootsel _ := rfl

/-- **What a board is asked**, if it has an interface to reboot it. -/
theorem exists_asked_perform (hfamily : IsOfFamily board.chip board.device.product)
    (hany : board.interfaces.any = true) (bootsel : Bool) (host : Host) :
    ∃ events, (perform board bootsel host).2.trace = host.trace ++ events ∧
      Asked board.device bootsel events (perform board bootsel host).1 := by
  -- What is reported says which way was taken.
  have hresult : ∀ {route}, board.interfaces.route bootsel = .ok route →
      route ≠ .alreadyInBootsel → (perform board bootsel host).1 ≠ .ok .alreadyInBootsel :=
    fun hroute hne h => hne (Except.ok.inj (hroute.symm.trans (route_of_perform_eq_ok h)))
  rcases Interfaces.route_cases hany bootsel with
    ⟨interface, hreset, hway, hroute⟩ | ⟨endpoints, hpicoboot, rfl, hroute⟩ |
      ⟨hreset, rfl, hroute⟩
  · have hway : bootsel = true ∨ ¬HasBootLoader board.device := hway.imp_right find?_eq_none_iff.mp
    exact ⟨_, leaves_perform_reset hroute host, asked_reset hreset hway (hresult hroute nofun)⟩
  · exact ⟨_, leaves_perform_picoboot hroute host,
      asked_picoboot hfamily hpicoboot (hresult hroute nofun)⟩
  · rw [perform, hroute]
    exact ⟨[], (List.append_nil _).symm, asked_nothing (resetInterface?_eq_none_iff.mp hreset)⟩

end Conversations

/-! ### The statement -/

/-- Looks for a board that can be rebooted, and reboots it. -/
def rebootFirst (bus : Bus) (bootsel : Bool) : Attempt Host Outcome := do
  perform (← find bus) bootsel

/-- **At most one request goes out, to one board**, on a bus and under some responses. -/
structure OneRequest (bus : Bus) (bootsel : Bool) (responses : List Response) : Prop where
  /-- The command that reboots a board does this and nothing else. -/
  command : ∀ request : CommandLine.RebootRequest, request.bootsel = bootsel →
    (request.perform bus (.start responses)).2 = (rebootFirst bus bootsel (.start responses)).2
  /-- If no board is found, devices may have been opened, and that is all. -/
  of_not_found : ∀ fault host, find bus (.start responses) = (.error fault, host) →
    rebootFirst bus bootsel (.start responses) = (.error fault, host) ∧
      ∀ event ∈ host.trace, ∃ number, event = .opened number
  /-- If a board is found, it is on the bus, and it is the device that was opened last. All that
  is done after this is done with this board. -/
  of_found : ∀ board host, find bus (.start responses) = (.ok board, host) →
    bus.devices[board.number]? = some board.device ∧
      IsBoard board.device ∧ IsOfFamily board.chip board.device.product ∧
      (∀ event ∈ host.trace, ∃ number, event = .opened number) ∧
      host.trace.getLast? = some (.opened board.number) ∧
      ∃ events, (rebootFirst bus bootsel (.start responses)).2.trace = host.trace ++ events ∧
        Asked board.device bootsel events (rebootFirst bus bootsel (.start responses)).1
  /-- If a board is reported to be in BOOTSEL mode, devices were opened, and that is all. -/
  of_alreadyInBootsel : (rebootFirst bus bootsel (.start responses)).1 = .ok .alreadyInBootsel →
    ∀ event ∈ (rebootFirst bus bootsel (.start responses)).2.trace,
      ∃ number, event = .opened number

section Statement

variable {bus : Bus} {bootsel : Bool} {host host' : Host}

theorem rebootFirst_of_error {fault : Fault} (h : find bus host = (.error fault, host')) :
    rebootFirst bus bootsel host = (.error fault, host') := by
  rw [rebootFirst, Attempt.bind_apply, h]

theorem rebootFirst_of_ok {board : Board} (h : find bus host = (.ok board, host')) :
    rebootFirst bus bootsel host = perform board bootsel host' := by
  rw [rebootFirst, Attempt.bind_apply, h]

/-- What the command leaves is what looking for a board and rebooting it leave. -/
theorem snd_perform_eq (request : CommandLine.RebootRequest) :
    (request.perform bus host).2 = (rebootFirst bus request.bootsel host).2 := by
  rcases hfind : find bus host with ⟨fault | board, found⟩
  · rw [rebootFirst_of_error hfind, CommandLine.RebootRequest.perform, hfind]
  · rw [rebootFirst_of_ok hfind, CommandLine.RebootRequest.perform, hfind]
    dsimp only
    rcases perform board request.bootsel found with ⟨fault | outcome, left⟩ <;> rfl

/-- The openings of boards are openings. -/
theorem exists_opened_of_mem {boards : List Board} {event : Event}
    (h : event ∈ boards.map Board.opening) : ∃ number, event = .opened number := by
  obtain ⟨board, -, rfl⟩ := List.mem_map.mp h
  exact ⟨board.number, rfl⟩

end Statement

/-- A bus with one board of the newer family, which has a serial port, the boot loader, and two
settings of a reset interface. -/
def twoWays : Bus where
  listRefusal := none
  devices :=
    [⟨0x2E8A, 0x000f, [[⟨0, 0, 0x02, 2, 0, []⟩, ⟨1, 0, 0xFF, 0, 0, [⟨0x03, 2⟩, ⟨0x84, 2⟩]⟩,
      ⟨2, 0, 0xFF, 0, 1, []⟩, ⟨3, 0, 0xFF, 0, 1, []⟩]], none, none, none⟩]

end Reboot

end PicoLoader

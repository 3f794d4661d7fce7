import PicoLoader.Picoboot.Session
import PicoLoader.Proofs.LittleEndian
import PicoLoader.Proofs.Usb.Exchanges

/-!
# What commands do on the bus

A command has up to three phases (`PicoLoader.Picoboot.phases`): its packet, its data if there is
any, and the acknowledgement in the other direction. A transaction carries them out
(`PicoLoader.Picoboot.follows_transact`). An operation does one transaction, and where this fails
and leaves the device on the bus, one request for the status (`PicoLoader.Picoboot.Reports`).

Both are said for every list of responses: whatever the device does, the transfers and the result
are these. The direction of a command is bit 7 of its id, counted from zero; the program tests it
with a mask (`testBit_code`).
-/

namespace PicoLoader.Picoboot

open Usb

/-! ### Transactions -/

/-- The data of a command comes in if and only if bit 7 of its id is set. -/
theorem CommandId.testBit_code (id : CommandId) : id.code.toNat.testBit 7 = id.isIn := by
  cases id <;> decide

/-- Bit 7 is clear in the id of every operation. -/
theorem Operation.testBit_code_command (operation : Operation) :
    operation.command.id.code.toNat.testBit 7 = false :=
  (CommandId.testBit_code _).trans operation.isIn_command

section Phases

variable (endpoints : Endpoints) (token : UInt32) (command : Command) (payload : List UInt8)

/-- The packet goes out, all of it. -/
def packetPhase : Phase :=
  ⟨.bulkOut endpoints.bulkOut (command.packet token), commandLimit, some 32⟩

/-- The data, if there is any, comes in if bit 7 of the id is set and goes out if not, all of it. -/
def dataPhases : List Phase :=
  let length := command.transferLength.toNat
  if command.transferLength = 0 then []
  else if command.id.code.toNat.testBit 7 then
    [⟨.bulkIn endpoints.bulkIn length, dataLimit, some length⟩]
  else [⟨.bulkOut endpoints.bulkOut payload, dataLimit, some payload.length⟩]

/-- The acknowledgement goes in the other direction, with any length. -/
def ackPhase : Phase :=
  if command.id.code.toNat.testBit 7 then ⟨.bulkOut endpoints.bulkOut [], commandLimit, none⟩
  else ⟨.bulkIn endpoints.bulkIn 1, commandLimit, none⟩

/-- **The phases of a command.** -/
def phases : List Phase :=
  packetPhase endpoints token command ::
    (dataPhases endpoints command payload ++ [ackPhase endpoints command])

theorem follows_transferData :
    Follows (transferData endpoints command payload) (dataPhases endpoints command payload) := by
  unfold transferData dataPhases
  rw [CommandId.testBit_code]
  split
  · exact .pure []
  split
  · exact follows_bulkInExact _ _ _
  · exact (follows_bulkOutExact _ _ _).bind fun _ => .pure []

theorem follows_acknowledge :
    Follows (acknowledge endpoints command) [ackPhase endpoints command] := by
  unfold acknowledge ackPhase
  rw [CommandId.testBit_code]
  split
  · exact (follows_bulkOut _ _ _).bind fun _ => .pure ()
  · exact (follows_bulkIn _ _ _).bind fun _ => .pure ()

/-- **A transaction follows the phases of its command.** -/
theorem follows_transact :
    Follows (transact endpoints token command payload)
      (phases endpoints token command payload) := by
  have hpacket := follows_bulkOutExact endpoints.bulkOut (command.packet token) commandLimit
  rw [Command.length_packet] at hpacket
  have hrest := (follows_transferData endpoints command payload).bind fun received =>
    (follows_acknowledge endpoints command).bind fun _ => .pure received
  exact (Follows.tell _ _).bind fun _ => hpacket.bind fun _ => hrest

end Phases

/-! ### The status -/

/-- The request for the status of the last command. -/
def statusPhase (endpoints : Endpoints) : Phase :=
  ⟨.controlIn ⟨0xc1, 0x42, 0, endpoints.interface.toUInt16⟩ 16, commandLimit, some 16⟩

/-- What the host makes of the response to this request. -/
def replyOf : Response → Except Fault StatusReply
  | .moved delivery =>
    let bytes := delivery.received 16
    if bytes.length = 16 then .ok (.ofBytes bytes)
    else .error (.shortTransfer 16 bytes.length)
  | .failed error => .error (.transfer error)
  | .hung => .error .timedOut

theorem follows_queryStatus (endpoints : Endpoints) :
    Follows (queryStatus endpoints) [statusPhase endpoints] := by
  simp only [queryStatus, controlIn, bind_assoc, pure_bind]
  refine follows_transfer (statusPhase endpoints) fun delivery host => ?_
  by_cases h : (delivery.received 16).length = 16
  · simp only [StatusReply.size, h, ↓reduceIte, statusPhase, Phase.fault?, Event.moved]
    exact ⟨rfl, .nil rfl rfl⟩
  · simp only [StatusReply.size, h, ↓reduceIte, statusPhase, Phase.fault?, Event.moved]
    exact ⟨rfl, .nil rfl rfl⟩

/-- The result of the request is read off the response. -/
theorem queryStatus_result (endpoints : Endpoints) (host : Host) :
    (queryStatus endpoints host).1 = replyOf (answer host.responses) := by
  simp only [queryStatus, controlIn, bind_assoc, pure_bind, Attempt.bind_apply, transfer_apply]
  cases answer host.responses with
  | moved delivery =>
    by_cases h : (delivery.received 16).length = 16
    · simp [replyOf, StatusReply.size, h]
      rfl
    · simp [replyOf, StatusReply.size, h]
  | failed error => rfl
  | hung => rfl

/-! ### After a transaction -/

/-- A use of a transaction that goes on after its failure: with a result at once if the device has
gone away, or else with one that depends on what the request for the status comes to. -/
structure Settles (x : Attempt Host Unit) (endpoints : Endpoints)
    (transaction : Attempt Host (List UInt8)) (onGone : Fault → Except Fault Unit)
    (onReply : Fault → Except Fault StatusReply → Except Fault Unit) : Prop where
  of_ok : ∀ {host received host'}, transaction host = (.ok received, host') →
    x host = (.ok (), host')
  of_gone : ∀ {host fault host'}, transaction host = (.error fault, host') →
    fault.isDisconnect = true → x host = (onGone fault, host')
  of_failure : ∀ {host fault host'}, transaction host = (.error fault, host') →
    fault.isDisconnect = false →
      (x host).1 = onReply fault (queryStatus endpoints host').1 ∧
        Made [] (queryStatus endpoints host').2 (x host).2

/-- What a command is said to have failed with, after the request for the status. -/
def blame (command : Command) (fault : Fault) : Except Fault StatusReply → Except Fault Unit
  | .ok reply => .error (explain command fault reply)
  | .error _ => .error fault

/-- Whether the start of a program counts as a success, after the request for the status. -/
def condone (fault : Fault) : Except Fault StatusReply → Except Fault Unit
  | .ok reply => if mayHaveStarted reply then .ok () else .error fault
  | .error statusFault => if statusFault.isDisconnect then .ok () else .error fault

section Settles

variable (endpoints : Endpoints) (token : UInt32) (command : Command) (payload : List UInt8)

theorem settles_perform : Settles (perform endpoints token command payload) endpoints
    (transact endpoints token command payload) .error (blame command) where
  of_ok h := by simp [perform, Attempt.bind_apply, h]
  of_gone h hgone := by simp [perform, Attempt.bind_apply, h, hgone]
  of_failure {host fault host'} h hthere := by
    simp only [perform, Attempt.bind_apply, Attempt.result_apply, h, hthere, Bool.false_eq_true,
      ↓reduceIte]
    rcases queryStatus endpoints host' with ⟨statusFault | reply, host''⟩
    · exact ⟨rfl, .nil rfl rfl⟩
    · exact ⟨rfl, .nil rfl rfl⟩

theorem settles_start : Settles (start endpoints token command payload) endpoints
    (transact endpoints token command payload) (fun _ => .ok ()) condone where
  of_ok h := by simp [start, Attempt.bind_apply, h]
  of_gone h hgone := by simp [start, Attempt.bind_apply, h, hgone]
  of_failure {host fault host'} h hthere := by
    simp only [start, Attempt.bind_apply, Attempt.result_apply, h, hthere, Bool.false_eq_true,
      ↓reduceIte]
    rcases queryStatus endpoints host' with ⟨statusFault | reply, host''⟩
    · by_cases hgone : statusFault.isDisconnect <;>
        simpa [condone, hgone] using Made.nil rfl rfl
    · by_cases hstarted : mayHaveStarted reply <;>
        simpa [condone, hstarted] using Made.nil rfl rfl

end Settles

/-! ### Operations -/

/-- How an operation ends if the device goes away during its transaction. -/
def Operation.onGone : Operation → Fault → Except Fault Unit
  | .exec _ => fun _ => .ok ()
  | _ => .error

/-- How an operation ends if its transaction fails otherwise. -/
def Operation.onReply : Operation → Fault → Except Fault StatusReply → Except Fault Unit
  | .exec _ => condone
  | operation => blame operation.command

section NeExec

variable {operation : Operation} (h : ∀ addr, operation ≠ .exec addr)
include h

theorem Operation.onGone_of_ne_exec : operation.onGone = .error := by
  cases operation with
  | exec addr => exact absurd rfl (h addr)
  | _ => rfl

theorem Operation.onReply_of_ne_exec : operation.onReply = blame operation.command := by
  cases operation with
  | exec addr => exact absurd rfl (h addr)
  | _ => rfl

end NeExec

/-- The transaction of an operation in a session. -/
def Session.transaction (session : Session) (operation : Operation) : Attempt Host (List UInt8) :=
  transact session.connection.endpoints session.token operation.command operation.payload

/-- **An operation settles its transaction**, under the token of the session, and advances the
token. -/
theorem Session.exists_settles_perform (session : Session) (operation : Operation) :
    ∃ x, Settles x session.connection.endpoints (session.transaction operation)
        operation.onGone operation.onReply ∧
      session.perform operation =
        ((x session.host).1, ⟨session.connection, session.token + 1, (x session.host).2⟩) := by
  cases operation with
  | exec addr => exact ⟨_, settles_start _ _ _ _, rfl⟩
  | exitXip => exact ⟨_, settles_perform _ _ _ _, rfl⟩
  | flashErase addr size => exact ⟨_, settles_perform _ _ _ _, rfl⟩
  | write addr bytes => exact ⟨_, settles_perform _ _ _ _, rfl⟩
  | reboot pc sp delay => exact ⟨_, settles_perform _ _ _ _, rfl⟩
  | rebootNormal delay => exact ⟨_, settles_perform _ _ _ _, rfl⟩

/-- A response to the request for the status *blames* a status: it is a whole reply, with the code
of that status, which is not `ok`. -/
def Blames (response : Response) (status : Status) : Prop :=
  ∃ delivery, response = .moved delivery ∧
    (delivery.received 16).length = 16 ∧
    LittleEndian.field (delivery.received 16) 4 4 = status.code.toNat ∧
    status ≠ .ok

/-- A reply has the code of a status if its second word is this code. -/
theorem status?_ofBytes_eq_some_iff {bytes : List UInt8} {status : Status} :
    (StatusReply.ofBytes bytes).status? = some status ↔
      LittleEndian.field bytes 4 4 = status.code.toNat := by
  have hlt : LittleEndian.field bytes 4 4 < 2 ^ 32 := by
    refine Nat.lt_of_lt_of_le (LittleEndian.decode_lt _) ?_
    exact Nat.pow_le_pow_right (n := 256) (by decide) (List.length_take_le 4 _)
  rw [StatusReply.status?, Status.ofCode?_eq_some_iff, StatusReply.ofBytes, eq_comm,
    ← UInt32.toNat_inj, UInt32.toNat_ofNat', Nat.mod_eq_of_lt hlt]

theorem blame_of_blames {command : Command} {fault : Fault} {response : Response} {status : Status}
    (h : Blames response status) :
    blame command fault (replyOf response) = .error (.reported command.id.code status) := by
  obtain ⟨delivery, rfl, hlength, hcode, hne⟩ := h
  simp [replyOf, hlength, blame, explain, status?_ofBytes_eq_some_iff.mpr hcode, hne]

theorem blame_of_not_blames {command : Command} {fault : Fault} {response : Response}
    (h : ∀ status, ¬Blames response status) :
    blame command fault (replyOf response) = .error fault := by
  cases response with
  | failed error => rfl
  | hung => rfl
  | moved delivery =>
    by_cases hlength : (delivery.received 16).length = 16
    · simp only [replyOf, hlength, ↓reduceIte, blame, explain]
      split
      case h_1 status hstatus =>
        have hok : status = .ok := by
          by_contra hne
          exact h status ⟨delivery, rfl, hlength, status?_ofBytes_eq_some_iff.mp hstatus, hne⟩
        rw [if_pos hok]
      case h_2 => rfl
    · simp [replyOf, hlength, blame]

/-- What an operation reports, told by its transaction in the session. The token of the session goes
up by one as a word, so that zero follows the greatest, as in a release build. A build with overflow
checks halts under the greatest token, before the packet goes out. -/
structure Reports (session : Session) (operation : Operation) : Prop where
  /-- It succeeds if and only if its transaction does. -/
  ok_iff : (session.perform operation).1 = .ok () ↔
    ∃ received, (session.transaction operation session.host).1 = .ok received
  /-- After a transaction that succeeds nothing more is done. -/
  of_ok : ∀ received, (session.transaction operation session.host).1 = .ok received →
    (session.perform operation).2.host = (session.transaction operation session.host).2
  /-- After a disconnection nothing more is done, and the disconnection is reported. -/
  of_disconnected :
    (session.transaction operation session.host).1 = .error (.transfer .disconnected) →
      (session.perform operation).1 = .error (.transfer .disconnected) ∧
        (session.perform operation).2.host = (session.transaction operation session.host).2
  /-- After any other failure exactly one more transfer is made, which asks for the status. If its
  response blames a status, this is reported, and else the failure. -/
  of_failure : ∀ fault, (session.transaction operation session.host).1 = .error fault →
    fault ≠ .transfer .disconnected → ∃ response,
      Made [⟨statusPhase session.connection.endpoints, response⟩]
        (session.transaction operation session.host).2 (session.perform operation).2.host ∧
      (∀ status, Blames response status →
        (session.perform operation).1 = .error (.reported operation.command.id.code status)) ∧
      ((∀ status, ¬Blames response status) → (session.perform operation).1 = .error fault)

/-- Whatever the request for the status comes to, the failure of a command stays one. -/
theorem blame_ne_ok (command : Command) (fault : Fault) (reply : Except Fault StatusReply) :
    blame command fault reply ≠ .ok () := by
  cases reply <;> simp [blame]

/-- The request for the status is one transfer, and its response decides what is blamed. -/
theorem Settles.exists_response {x : Attempt Host Unit} {endpoints : Endpoints}
    {transaction : Attempt Host (List UInt8)} {onGone : Fault → Except Fault Unit}
    {onReply : Fault → Except Fault StatusReply → Except Fault Unit}
    (h : Settles x endpoints transaction onGone onReply) {host : Host} {fault : Fault}
    {host' : Host} (htransaction : transaction host = (.error fault, host'))
    (hthere : fault.isDisconnect = false) :
    (x host).1 = onReply fault (replyOf (answer host'.responses)) ∧
      Made [⟨statusPhase endpoints, answer host'.responses⟩] host' (x host).2 := by
  obtain ⟨hresult, hmade⟩ := h.of_failure htransaction hthere
  have hquery := (follows_queryStatus endpoints).made host'
  rw [carryOut_singleton] at hquery
  exact ⟨by rw [hresult, queryStatus_result], hquery.trans hmade⟩

/-- **Every operation but the start of a program reports the failure of its transaction.** -/
theorem reports_of_ne_exec (session : Session) {operation : Operation}
    (h : ∀ addr, operation ≠ .exec addr) : Reports session operation := by
  obtain ⟨x, hx, hperform⟩ := session.exists_settles_perform operation
  rw [Operation.onGone_of_ne_exec h, Operation.onReply_of_ne_exec h] at hx
  rcases htransaction : session.transaction operation session.host with ⟨fault | received, host'⟩
  · by_cases hfault : fault = .transfer .disconnected
    · have hdone := hx.of_gone htransaction (Fault.isDisconnect_iff.mpr hfault)
      constructor <;> simp [htransaction, hperform, hdone, hfault]
    · have hthere : fault.isDisconnect = false :=
        Bool.eq_false_iff.mpr (mt Fault.isDisconnect_iff.mp hfault)
      obtain ⟨hresult, hmade⟩ := hx.exists_response htransaction hthere
      constructor
      · simp [htransaction, hperform, hresult, blame_ne_ok]
      · simp [htransaction]
      · simp [htransaction, hfault]
      · intro fault' heq _
        obtain rfl : fault = fault' := by simpa [htransaction] using heq
        rw [htransaction, hperform, hresult]
        exact ⟨_, hmade, fun status hstatus => blame_of_blames hstatus, blame_of_not_blames⟩
  · have hdone := hx.of_ok htransaction
    constructor <;> simp [htransaction, hperform, hdone]

/-! ### The statement -/

/-- **The contract of a command.** Whatever the command and the responses, its transaction carries
out its phases; and an operation that does not start a program reports what its transaction
fails with. -/
theorem carriesOut_transact_and_reports (endpoints : Endpoints) (token : UInt32)
    (command : Command) (payload : List UInt8) (host : Host) (session : Session)
    (operation : Operation) (h : ∀ addr, operation ≠ .exec addr) :
    (∃ exchanges, CarriesOut (phases endpoints token command payload) host
      (transact endpoints token command payload host) exchanges) ∧ Reports session operation :=
  ⟨⟨_, (follows_transact endpoints token command payload).carriesOut host⟩,
    reports_of_ne_exec session h⟩

/-- A session whose next data transfer is short, after which the device reports a bad alignment. -/
def shortOfData : Session :=
  .start ⟨.rp2040, ⟨1, 0x03, 0x84⟩⟩
    (.start [.moved .whole, .moved (.count 1),
      .moved (.data ([1, 0, 0, 0, 5, 0, 0, 0, 5] ++ List.replicate 7 0))])

/-- A command that reads four bytes, so that bit 7 of its id is set. -/
def readFour : Command := .ofWords .read [0x20000000, 4] 4

/-- The bytes that a command reads come in, and the acknowledgement goes out. A write of two bytes
of which one goes out fails, and what it reports is the bad alignment. -/
theorem carriesOut_transact_and_reports_shortOfData :
    (∃ exchanges, CarriesOut
        [⟨.bulkOut 0x03 (readFour.packet 1), 3000, some 32⟩, ⟨.bulkIn 0x84 4, 9000, some 4⟩,
          ⟨.bulkOut 0x03 [], 3000, none⟩]
        (.start [.moved .whole, .moved (.data [9, 8, 7, 6])])
        (transact ⟨1, 0x03, 0x84⟩ 1 readFour []
          (.start [.moved .whole, .moved (.data [9, 8, 7, 6])])) exchanges) ∧
      (transact ⟨1, 0x03, 0x84⟩ 1 readFour []
        (.start [.moved .whole, .moved (.data [9, 8, 7, 6])])).1 = .ok [9, 8, 7, 6] ∧
      (∃ exchanges, CarriesOut
        (phases shortOfData.connection.endpoints 1
          (Operation.write 0x20000000 [7, 8]).command [7, 8])
        shortOfData.host (transact shortOfData.connection.endpoints 1
          (Operation.write 0x20000000 [7, 8]).command [7, 8] shortOfData.host) exchanges) ∧
      Reports shortOfData (.write 0x20000000 [7, 8]) ∧
      (shortOfData.transaction (.write 0x20000000 [7, 8]) shortOfData.host).1 =
        .error (.shortTransfer 2 1) ∧
      (shortOfData.perform (.write 0x20000000 [7, 8])).1 = .error (.reported 5 .badAlignment) := by
  have hwrite : ∀ addr, Operation.write 0x20000000 [7, 8] ≠ .exec addr := by
    rintro addr ⟨⟩
  have hread := carriesOut_transact_and_reports ⟨1, 0x03, 0x84⟩ 1 readFour []
    (.start [.moved .whole, .moved (.data [9, 8, 7, 6])]) shortOfData _ hwrite
  have hcontract := carriesOut_transact_and_reports shortOfData.connection.endpoints 1
    (Operation.write 0x20000000 [7, 8]).command [7, 8] shortOfData.host shortOfData _ hwrite
  exact ⟨hread.1, rfl, hcontract.1, hcontract.2, rfl, rfl⟩

end PicoLoader.Picoboot

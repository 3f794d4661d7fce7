import PicoLoader.Proofs.Picoboot.Operations
import PicoLoader.Proofs.Picoboot.Packets

/-!
# Tokens over a session

The boot loader tells commands apart by their tokens. A session hands them out: the first command
goes out under 1, and each further one under the next number, whatever has become of those before
it. So a command that failed, or was never answered, has used its token up, while taking the
interface over and asking for the status use none.

Here a session is followed through any list of *uses* (`PicoLoader.Picoboot.Use`), on any host. The
tokens are read off the bus: of what a use puts out over the bulk endpoint, the first bytes are read
as a packet (`PicoLoader.Picoboot.readToken?`).

* `next_spec` – what one use does to the session: its exchanges are made, the connection stays as it
  is, and the token goes on by one, or by none;
* `toNat_token_after`, `map_toNat_tokens` – what many uses do to the token, and which tokens go out,
  both by induction on the uses.

The token is a word of 32 bits. It does not wrap as long as there are no more than 2³² - 2 commands,
as the last of these leaves the greatest word for the next. `PicoLoader.Picoboot.Numbered` puts the
statements together.
-/

namespace PicoLoader.Picoboot

open Usb

/-! ### Uses of a session -/

/-- Something that is done in a session. -/
inductive Use where
  /-- Take the interface over from an earlier user. -/
  | takeOver
  /-- Ask for the status of the last command. -/
  | queryStatus
  /-- Carry out an operation. -/
  | carryOut (operation : Operation)
deriving DecidableEq, Repr

/-- The operation of a use, if it is one. -/
def Use.operation? : Use → Option Operation
  | carryOut operation => some operation
  | _ => none

/-- The operations among some uses. -/
def operations (uses : List Use) : List Operation := uses.filterMap Use.operation?

/-- The exchanges of a use. -/
def Use.exchanges (endpoints : Endpoints) (token : UInt32) (responses : List Response) :
    Use → List Exchange
  | takeOver => Usb.carryOut [takeOverPhase endpoints] responses
  | queryStatus => Usb.carryOut [statusPhase endpoints] responses
  | carryOut operation => operation.exchanges endpoints token responses

/-- The token in the first packet that was put out, if there is one. -/
def readToken? (events : List Event) : Option UInt32 :=
  (bulkOuts events).head?.bind fun bytes => (Packet.read? bytes).map Packet.token

namespace Session

/-- The session after a use, whether or not that succeeded. -/
def next (session : Session) : Use → Session
  | .takeOver => (takeOver session).2
  | .queryStatus => (onBus (Picoboot.queryStatus session.connection.endpoints) session).2
  | .carryOut operation => (perform operation session).2

/-- The session after some uses. -/
def after (session : Session) (uses : List Use) : Session := uses.foldl next session

/-- What a use leaves in the trace. -/
def eventsOf (session : Session) (use : Use) : List Event :=
  (session.next use).host.trace.drop session.host.trace.length

/-- The tokens that go out with some uses. -/
def tokens : Session → List Use → List UInt32
  | _, [] => []
  | session, use :: uses =>
    (readToken? (session.eventsOf use)).toList ++ (session.next use).tokens uses

/-! ### One use -/

variable (session : Session) (use : Use)

/-- **What one use does**: it makes its exchanges, leaves the connection as it is, and takes the
token if it is an operation. -/
theorem next_spec :
    Made (use.exchanges session.connection.endpoints session.token session.host.responses)
        session.host (session.next use).host ∧
      (session.next use).connection = session.connection ∧
      (session.next use).token =
        if use.operation?.isSome then session.token + 1 else session.token := by
  cases use with
  | takeOver => exact ⟨(follows_takeOver session.connection.endpoints).made session.host, rfl, rfl⟩
  | queryStatus =>
    exact ⟨(follows_queryStatus session.connection.endpoints).made session.host, rfl, rfl⟩
  | carryOut operation =>
    obtain ⟨-, hmade, hconnection, htoken⟩ := session.perform_spec operation
    exact ⟨hmade, hconnection, htoken⟩

/-- What a use leaves in the trace is what its exchanges leave. -/
theorem eventsOf_eq : session.eventsOf use =
    (use.exchanges session.connection.endpoints session.token
      session.host.responses).flatMap Exchange.events := by
  rw [eventsOf, (session.next_spec use).1.trace_eq, List.drop_left]

/-- **An operation puts out its packet** under the token of the session, and then its data or
nothing. -/
theorem exists_bulkOuts_carryOut (operation : Operation) : ∃ sent,
    bulkOuts (session.eventsOf (.carryOut operation)) =
        operation.command.packet session.token :: sent ∧ sent <+: operation.outgoing := by
  obtain ⟨sent, hout, hsent, -⟩ := operation.exists_bulkOuts_exchanges
    session.connection.endpoints session.token session.host.responses
  exact ⟨sent, (congrArg bulkOuts (session.eventsOf_eq (.carryOut operation))).trans hout, hsent⟩

variable {use}

/-- Any other use puts nothing out. -/
theorem bulkOuts_of_operation?_eq_none (h : use.operation? = none) :
    bulkOuts (session.eventsOf use) = [] := by
  rw [eventsOf_eq, bulkOuts_events]
  cases use with
  | takeOver =>
    rw [Use.exchanges, carryOut_singleton]
    rfl
  | queryStatus =>
    rw [Use.exchanges, carryOut_singleton]
    rfl
  | carryOut operation => cases h

end Session

/-- **The token is read back from the packet** of an operation. -/
theorem Operation.exists_read?_packet (operation : Operation) (token : UInt32) :
    ∃ packet, Packet.read? (operation.command.packet token) = some packet ∧
      packet.token = token := by
  cases operation <;> exact ⟨_, read?_packet _ _ _ _, rfl⟩

namespace Session

/-- **The token in the first packet of a use** is that of the session, if the use is an operation;
otherwise there is no packet. -/
theorem readToken?_eventsOf (session : Session) (use : Use) :
    readToken? (session.eventsOf use) =
      if use.operation?.isSome then some session.token else none := by
  cases hoperation : use.operation? with
  | none =>
    rw [readToken?, session.bulkOuts_of_operation?_eq_none hoperation]
    rfl
  | some operation =>
    obtain rfl : use = .carryOut operation := by
      cases use <;> simp [Use.operation?] at hoperation ⊢
      exact hoperation
    obtain ⟨sent, hout, -⟩ := session.exists_bulkOuts_carryOut operation
    obtain ⟨packet, hread, htoken⟩ := operation.exists_read?_packet session.token
    rw [readToken?, hout, List.head?_cons, Option.bind_some, hread, Option.map_some, htoken]
    rfl

/-! ### Many uses -/

variable (session : Session) {uses : List Use}

theorem after_append (first second : List Use) :
    session.after (first ++ second) = (session.after first).after second := List.foldl_append

/-- The connection is never changed. -/
theorem connection_after (uses : List Use) :
    (session.after uses).connection = session.connection := by
  induction uses generalizing session with
  | nil => rfl
  | cons use uses ih => exact (ih (session.next use)).trans (session.next_spec use).2.1

/-- One use takes the token on by the number of operations in it, if there is a word for that. -/
theorem toNat_token_next {use : Use}
    (h : session.token.toNat + (operations [use]).length < UInt32.size) :
    (session.next use).token.toNat = session.token.toNat + (operations [use]).length := by
  rw [(session.next_spec use).2.2]
  cases use with
  | carryOut operation =>
    exact UInt32.toNat_add session.token 1 |>.trans (Nat.mod_eq_of_lt h)
  | takeOver => rfl
  | queryStatus => rfl

theorem length_operations_cons (use : Use) (uses : List Use) :
    (operations (use :: uses)).length = (operations [use]).length + (operations uses).length := by
  rw [← List.singleton_append, operations, List.filterMap_append, List.length_append]
  rfl

/-- **Uses take the token on** by the number of operations among them, if there is a word for
that. -/
theorem toNat_token_after (h : session.token.toNat + (operations uses).length < UInt32.size) :
    (session.after uses).token.toNat = session.token.toNat + (operations uses).length := by
  induction uses generalizing session with
  | nil => rfl
  | cons use uses ih =>
    rw [length_operations_cons] at h ⊢
    have hnext : (session.next use).token.toNat =
        session.token.toNat + (operations [use]).length := session.toNat_token_next (by omega)
    have hrest := ih (session.next use) (by omega)
    rw [after, List.foldl_cons, ← after, hrest, hnext, Nat.add_assoc]

/-- **The tokens that go out count on** from that of the session, one for each operation. -/
theorem map_toNat_tokens (h : session.token.toNat + (operations uses).length < UInt32.size) :
    (session.tokens uses).map UInt32.toNat =
      List.range' session.token.toNat (operations uses).length := by
  induction uses generalizing session with
  | nil => rfl
  | cons use uses ih =>
    rw [length_operations_cons] at h ⊢
    have hnext : (session.next use).token.toNat =
        session.token.toNat + (operations [use]).length := session.toNat_token_next (by omega)
    have hrest := ih (session.next use) (by omega)
    rw [tokens, List.map_append, hrest, hnext, readToken?_eventsOf, ← List.range'_append_1]
    cases use <;> rfl

end Session

/-! ### The statement -/

/-- **How a session numbers its commands**, whatever the responses. -/
structure Numbered (connection : Connection) (host : Host) (uses : List Use) : Prop where
  /-- The tokens on the bus are 1, 2, 3 and so on, one for each command. -/
  map_toNat_tokens : ((Session.start connection host).tokens uses).map UInt32.toNat =
    List.range' 1 (operations uses).length
  /-- So each is above all before it. -/
  pairwise_tokens : ((Session.start connection host).tokens uses).Pairwise (· < ·)
  /-- A command goes out under the number of commands before it, and one. What else goes out with
  it are its data, or nothing. -/
  sent_of_carryOut : ∀ before operation later, uses = before ++ .carryOut operation :: later →
    ∃ token sent, token.toNat = (operations before).length + 1 ∧
      bulkOuts (((Session.start connection host).after before).eventsOf (.carryOut operation)) =
        operation.command.packet token :: sent ∧
      sent <+: operation.outgoing
  /-- Taking the interface over, or asking for the status, puts no packet out and leaves the
  token. -/
  token_of_not_carryOut : ∀ before use later, uses = before ++ use :: later →
    use.operation? = none →
    bulkOuts (((Session.start connection host).after before).eventsOf use) = [] ∧
      ((Session.start connection host).after (before ++ [use])).token =
        ((Session.start connection host).after before).token
  /-- At any time the token is one more than the number of commands so far: it has not wrapped. -/
  toNat_token_after : ∀ before, before <+: uses →
    ((Session.start connection host).after before).token.toNat = 1 + (operations before).length
  /-- At any time the connection is the one that the session began with. -/
  connection_after : ∀ before, before <+: uses →
    ((Session.start connection host).after before).connection = connection

theorem length_operations_le {first second : List Use} (h : first <+: second) :
    (operations first).length ≤ (operations second).length :=
  (h.filterMap Use.operation?).length_le

/-- **A session numbers its commands**, as long as there are words to number them with. -/
theorem numbered (connection : Connection) (host : Host) {uses : List Use}
    (h : (operations uses).length ≤ UInt32.size - 2) : Numbered connection host uses := by
  let session := Session.start connection host
  have hstart : session.token.toNat = 1 := rfl
  have hsize : 2 ≤ UInt32.size := by decide
  have htokens := session.map_toNat_tokens (show _ + (operations uses).length < _ by omega)
  have hafter : ∀ before, before <+: uses →
      (session.after before).token.toNat = 1 + (operations before).length := by
    intro before hbefore
    have hle := length_operations_le hbefore
    exact session.toNat_token_after (by omega)
  refine ⟨htokens, ?_, ?_, ?_, hafter, fun before _ => session.connection_after before⟩
  · have hsorted : ((session.tokens uses).map UInt32.toNat).Pairwise (· < ·) := by
      rw [htokens]
      exact List.pairwise_lt_range'
    exact (List.pairwise_map.mp hsorted).imp UInt32.lt_iff_toNat_lt.mpr
  · rintro before operation later rfl
    obtain ⟨sent, hout, hsent⟩ := (session.after before).exists_bulkOuts_carryOut operation
    refine ⟨_, sent, ?_, hout, hsent⟩
    rw [hafter before (List.prefix_append _ _), Nat.add_comm]
  · rintro before use later rfl hnone
    refine ⟨(session.after before).bulkOuts_of_operation?_eq_none hnone, ?_⟩
    have htoken := ((session.after before).next_spec use).2.2
    rw [hnone] at htoken
    rw [Session.after_append]
    exact htoken

/-- Three commands, with the interface taken over and the status asked for in between. -/
def threeCommands : List Use :=
  [.carryOut .exitXip, .takeOver, .carryOut (.write 0x20000000 [1, 2]), .queryStatus,
    .carryOut (.reboot 0 0 500)]

/-- Three commands are numbered also where the first is refused, the request for its status fails,
and nothing answers the second. -/
theorem numbered_threeCommands :
    ∃ connection host, (Session.perform .exitXip (.start connection host)).1 =
        .error (.transfer .stall) ∧
      (operations threeCommands).length ≤ UInt32.size - 2 ∧
      Numbered connection host threeCommands := by
  let connection : Connection := ⟨.rp2040, ⟨1, 3, 132⟩⟩
  let host : Host := .start [.failed .stall, .failed .fault, .moved .whole, .hung, .hung]
  have hfew : (operations threeCommands).length ≤ UInt32.size - 2 := by decide
  exact ⟨connection, host, rfl, hfew, numbered connection host hfew⟩

end PicoLoader.Picoboot

import PicoLoader.Proofs.Load.FailStop
import PicoLoader.Proofs.Load.Wire
import PicoLoader.Proofs.Picoboot.Packets

/-!
# The messages of calls

What the calls of a load put out over the bulk endpoint can be read back, by the layout of the
packets alone: one message for each call, in order, under tokens that count on. A message *tells of*
its call (`PicoLoader.Load.TellsOf`).

Packets and data go out over the same endpoint, so the reading hangs on one thing: the data that a
packet announces must follow it, unless nothing follows. That is so if a call that stores and fails
is the last call (`PicoLoader.Load.StoresEnd`). Main statement: `exists_messages_of_takeOver`.
-/

namespace PicoLoader.Load

open Memory Picoboot Usb

/-! ### Calls that store -/

/-- Whether a call erases or writes. -/
def Call.Stores : Call → Prop
  | .erase _ _ | .write _ _ => True
  | .resetInterface | .exitXip | .exec _ => False

namespace Call.Stores

variable {call : Call} (h : call.Stores)
include h

theorem warning?_eq_none : call.warning? = none := by
  cases call with
  | erase addr size => rfl
  | write addr bytes => rfl
  | resetInterface => exact h.elim
  | exitXip => exact h.elim
  | exec addr => exact h.elim

/-- A call that stores is an operation that starts nothing. -/
theorem exists_operation : ∃ operation, call.operation? = some operation ∧
    ∀ addr, operation ≠ .exec addr := by
  cases call with
  | erase addr size => exact ⟨_, rfl, nofun⟩
  | write addr bytes => exact ⟨_, rfl, nofun⟩
  | resetInterface => exact h.elim
  | exitXip => exact h.elim
  | exec addr => exact h.elim

end Call.Stores

/-! ### Messages of calls -/

/-- A packet *asks for* a call: it has the id and the arguments of that call, and announces its
data. -/
def AsksFor (packet : Packet) : Call → Prop
  | .resetInterface => False
  | .exitXip => packet.id = .exitXip ∧ packet.words = [] ∧ packet.transferLength = 0
  | .erase addr size =>
    packet.id = .flashErase ∧ packet.words = [addr, size] ∧ packet.transferLength = 0
  | .write addr bytes =>
    packet.id = .write ∧ packet.words = [addr, packet.transferLength] ∧
      packet.transferLength.toNat = bytes.length
  | .exec addr => packet.id = .exec ∧ packet.words = [addr] ∧ packet.transferLength = 0

/-- A message *tells of* a call that goes out under a token: its packet asks for the call, and its
data, if they follow, are the bytes of a write. -/
structure TellsOf (message : Message) (call : Call) (token : Nat) : Prop where
  token_eq : token < UInt32.size → message.packet.token.toNat = token
  asksFor : AsksFor message.packet call
  data_eq : ∀ bytes, message.data = some bytes → ∃ addr, call = .write addr bytes

/-- A call that can be told of: an operation, with no more bytes than a packet can announce. -/
def Call.Tellable (call : Call) : Prop :=
  call ≠ .resetInterface ∧ ∀ addr bytes, call = .write addr bytes → bytes.length < UInt32.size

/-- **The packet of a call is read as one that asks for it**, and only a write announces data. -/
theorem Call.Tellable.exists_packet {call : Call} (h : call.Tellable) (token : UInt32) :
    ∃ operation packet, call.operation? = some operation ∧
      Packet.read? (operation.command.packet token) = some packet ∧
      packet.transferLength = operation.command.transferLength ∧ packet.token = token ∧
      AsksFor packet call ∧
      (packet.transferLength ≠ 0 → ∃ addr, call = .write addr operation.payload) := by
  cases call with
  | resetInterface => exact absurd rfl h.1
  | exitXip =>
    exact ⟨_, _, rfl, read?_packet _ _ _ _, rfl, rfl, ⟨rfl, rfl, rfl⟩, fun hne => absurd rfl hne⟩
  | erase addr size =>
    exact ⟨_, _, rfl, read?_packet _ _ _ _, rfl, rfl, ⟨rfl, rfl, rfl⟩, fun hne => absurd rfl hne⟩
  | exec addr =>
    exact ⟨_, _, rfl, read?_packet _ _ _ _, rfl, rfl, ⟨rfl, rfl, rfl⟩, fun hne => absurd rfl hne⟩
  | write addr bytes =>
    have hlength : (UInt32.ofNat bytes.length).toNat = bytes.length :=
      UInt32.toNat_ofNat_of_lt' (h.2 addr bytes rfl)
    exact ⟨_, _, rfl, read?_packet _ _ _ _, rfl, rfl, ⟨rfl, rfl, hlength⟩,
      fun _ => ⟨addr, rfl⟩⟩

/-- **The message of a call comes first** in what is put out from the call on. The data may be
missing only if nothing follows. -/
theorem exists_message {call : Call} (h : call.Tellable) {n : Nat} {endpoints : Endpoints}
    {responses : List Response} {outs : List (List UInt8)} {messages : List Message}
    (hrest : readMessages outs = some messages)
    (hwhole : outs ≠ [] → call.Stores →
      call.fault? endpoints (UInt32.ofNat n) responses = none) :
    ∃ message,
      readMessages (bulkOuts ((call.exchanges endpoints (UInt32.ofNat n) responses).flatMap
        Exchange.events) ++ outs) = some (message :: messages) ∧ TellsOf message call n := by
  obtain ⟨operation, packet, hoperation, hread, hlength, htoken, hasks, hwrite⟩ :=
    h.exists_packet (UInt32.ofNat n)
  obtain ⟨sent, hout, hsent, hall⟩ :=
    operation.exists_bulkOuts_exchanges endpoints (UInt32.ofNat n) responses
  simp only [Call.exchanges, Call.fault?, hoperation] at hwhole ⊢
  rw [Operation.outgoing, ← hlength] at hsent hall
  have hsentAll : outs ≠ [] → sent = if packet.transferLength = 0 then [] else
      [operation.payload] := by
    intro hne
    by_cases hzero : packet.transferLength = 0
    · rw [if_pos hzero] at hsent ⊢
      exact List.prefix_nil.mp hsent
    · -- Only a write announces data, and this one has not failed.
      obtain ⟨addr, hcall⟩ := hwrite hzero
      have hstores : call.Stores := hcall ▸ trivial
      obtain ⟨_, hsame, hnotExec⟩ := hstores.exists_operation
      obtain rfl := Option.some.inj (hoperation.symm.trans hsame)
      obtain ⟨a, hok⟩ := faultOf_eq_none_iff.mp (hwhole hne hstores)
      exact hall (Operation.firstFault_of_result_ok hnotExec hok)
  obtain ⟨message, hmessage, hpacket, hdata⟩ :=
    exists_readMessages_eq hread hsent hsentAll hrest
  rw [hout, List.cons_append]
  refine ⟨message, hmessage, fun hn => ?_, hpacket ▸ hasks, fun bytes hbytes => ?_⟩
  · rw [hpacket, htoken, UInt32.toNat_ofNat_of_lt' hn]
  · obtain ⟨hne, rfl⟩ := hdata bytes hbytes
    exact hwrite hne

/-- A call that stores and fails is the last of some calls in a session. -/
def StoresEnd (session : Session) (calls : List Call) : Prop :=
  ∀ i call, calls[i]? = some call → call.Stores →
    failureOf (after session (calls.take i)) call ≠ none → i + 1 = calls.length

theorem StoresEnd.of_cons {session : Session} {call : Call} {calls : List Call}
    (h : StoresEnd session (call :: calls)) : StoresEnd (next session call) calls := by
  intro i later hlater hstores hfailed
  have hlast := h (i + 1) later hlater hstores hfailed
  rwa [List.length_cons, Nat.add_right_cancel_iff] at hlast

/-- A call that can be told of takes the next token. -/
theorem Call.Tellable.token_next {session : Session} {call : Call} (h : call.Tellable) {n : Nat}
    (htoken : session.token = UInt32.ofNat n) :
    (next session call).token = UInt32.ofNat (n + 1) := by
  obtain ⟨operation, -, hoperation, -⟩ := h.exists_packet 0
  rw [(perform_spec session call).2.2.2, Call.tokenAfter, hoperation, htoken, UInt32.ofNat_add]
  rfl

/-- Calls that can be told of take one token each. -/
theorem token_after {session : Session} {calls : List Call} (h : ∀ call ∈ calls, call.Tellable)
    {n : Nat} (htoken : session.token = UInt32.ofNat n) :
    (after session calls).token = UInt32.ofNat (n + calls.length) := by
  induction calls generalizing session n with
  | nil => exact htoken
  | cons call calls ih =>
    have hnext := (h call List.mem_cons_self).token_next htoken
    rw [after_cons, ih (fun c hc => h c (List.mem_cons_of_mem _ hc)) hnext, List.length_cons,
      Nat.add_assoc, Nat.add_comm 1]

/-- **What calls put out is read as their messages**, one for each call, under tokens that count
on. -/
theorem exists_messages {session : Session} {calls : List Call}
    (h : ∀ call ∈ calls, call.Tellable) {n : Nat} (htoken : session.token = UInt32.ofNat n)
    (hends : StoresEnd session calls) :
    ∃ messages,
      readMessages (bulkOuts ((blocks session calls).flatten.flatMap Exchange.events)) =
        some messages ∧
      List.Forall₂ (fun numbered message => TellsOf message numbered.1 numbered.2)
        (calls.zipIdx n) messages := by
  induction calls generalizing session n with
  | nil => exact ⟨[], rfl, .nil⟩
  | cons call calls ih =>
    have hfirst := h call List.mem_cons_self
    obtain ⟨messages, hrest, htold⟩ := ih (fun c hc => h c (List.mem_cons_of_mem _ hc))
      (hfirst.token_next htoken) hends.of_cons
    have hwhole : bulkOuts ((blocks (next session call) calls).flatten.flatMap
        Exchange.events) ≠ [] → call.Stores →
        call.fault? session.connection.endpoints (UInt32.ofNat n) session.host.responses =
          none := by
      intro hne hstores
      by_contra hfailed
      rw [← htoken, ← (perform_spec session call).1] at hfailed
      have hlast := hends 0 call rfl hstores hfailed
      rw [List.length_cons, Nat.add_right_cancel_iff, eq_comm, List.length_eq_zero_iff] at hlast
      exact hne (hlast ▸ rfl)
    obtain ⟨message, hread, htells⟩ := exists_message hfirst hrest hwhole
    refine ⟨message :: messages, ?_, ?_⟩
    · rw [blocks, List.flatten_cons, List.flatMap_append, bulkOuts_append, exchangesOf, htoken]
      exact hread
    · rw [List.zipIdx_cons]
      exact .cons htells htold

section TakeOver

variable {session : Session} {rest : List Call}

/-- Taking the interface over takes no token. -/
theorem token_next_resetInterface (htoken : session.token = 1) :
    (next session .resetInterface).token = UInt32.ofNat 1 :=
  (perform_spec session .resetInterface).2.2.2.trans htoken

/-- Taking the interface over puts nothing out over the bulk endpoint. -/
theorem exists_messages_of_takeOver (htoken : session.token = 1)
    (h : ∀ call ∈ rest, call.Tellable)
    (hends : StoresEnd (next session .resetInterface) rest) :
    ∃ messages,
      readMessages (bulkOuts ((blocks session (.resetInterface :: rest)).flatten.flatMap
        Exchange.events)) = some messages ∧
      List.Forall₂ (fun numbered message => TellsOf message numbered.1 numbered.2)
        (rest.zipIdx 1) messages := by
  have hone : exchangesOf session .resetInterface =
      [⟨takeOverPhase session.connection.endpoints, answer session.host.responses⟩] :=
    carryOut_singleton _ _
  have hquiet : bulkOuts ((exchangesOf session .resetInterface).flatMap Exchange.events) = [] := by
    rw [hone, bulkOuts_events]
    rfl
  rw [blocks, List.flatten_cons, List.flatMap_append, bulkOuts_append, hquiet, List.nil_append]
  exact exists_messages h (token_next_resetInterface htoken) hends

/-- Behind taking the interface over, the number of a call is its token. -/
theorem token_after_take (htoken : session.token = 1) (h : ∀ call ∈ rest, call.Tellable) {i : Nat}
    (hi : i < rest.length) :
    (after session ((.resetInterface :: rest).take (i + 1))).token = UInt32.ofNat (i + 1) := by
  rw [List.take_succ_cons, after_cons, token_after (fun c hc => h c (List.mem_of_mem_take hc))
    (token_next_resetInterface htoken), List.length_take_of_le (Nat.le_of_lt hi), Nat.add_comm]

end TakeOver

end PicoLoader.Load

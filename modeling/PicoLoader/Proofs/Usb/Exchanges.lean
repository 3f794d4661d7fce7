import Mathlib.Data.List.Basic
import PicoLoader.Usb.Host

/-!
# Transfers in sequence

A protocol asks for some transfers, one after the other, and gives up at the first that does not go
as it should. Here that is said once, for every protocol and every list of responses.

* `PicoLoader.Usb.Phase` – a transfer as a protocol asks for it: what it is, its time limit, and how
  many bytes it has to move, if that matters;
* `PicoLoader.Usb.Exchange` – a phase with the response to it, which says whether it went as it
  should (`PicoLoader.Usb.Exchange.fault?`);
* `PicoLoader.Usb.carryOut` – the exchanges that phases come to: one for each of them, up to the
  first with a fault;
* `PicoLoader.Usb.Made` – what exchanges leave on the host;
* `PicoLoader.Usb.Follows` – an attempt *follows* phases if it makes exactly these exchanges,
  whatever the host, and fails with the fault among them.

What attempts in sequence follow is put together from what they follow one by one
(`Follows.bind`), and the transfers of the host follow the phase that they are
(`follows_bulkOutExact` and those after it). `Follows.carriesOut` says what it means for the outcome
to follow phases.
-/

namespace PicoLoader

namespace Attempt

variable {σ : Type}

/-- Attempts are put together in sequence as programs are. -/
instance : LawfulMonad (Attempt σ) := LawfulMonad.mk' _
  (fun x => by
    funext state
    change (match x state with | (.ok a, s) => _ | (.error f, s) => _) = _
    rcases x state with ⟨_ | _, _⟩ <;> rfl)
  (fun _ _ => rfl)
  (fun x _ _ => by
    funext state
    simp only [bind_apply]
    rcases x state with ⟨_ | _, _⟩ <;> rfl)

end Attempt

namespace Usb

section FaultOf

variable {α : Type} {result : Except Fault α}

/-- The fault of a result, if it has one. -/
def faultOf : Except Fault α → Option Fault
  | .ok _ => none
  | .error fault => some fault

@[simp] theorem faultOf_ok (a : α) : faultOf (.ok a) = none := rfl

@[simp] theorem faultOf_error (fault : Fault) :
    faultOf (.error fault : Except Fault α) = some fault := rfl

theorem faultOf_eq_none_iff : faultOf result = none ↔ ∃ a, result = .ok a := by
  cases result <;> simp

end FaultOf

/-! ### Phases and exchanges -/

/-- How many bytes a transfer moves whose response is `delivery`. -/
def Event.moved (event : Event) (delivery : Delivery) : Nat :=
  match event with
  | .bulkOut _ bytes => delivery.sent bytes.length
  | .bulkIn _ length => (delivery.received length).length
  | .controlOut _ bytes => delivery.sent bytes.length
  | .controlIn _ length => (delivery.received length).length
  | _ => 0

/-- A transfer that a protocol asks for. -/
structure Phase where
  event : Event
  /-- The time limit, in milliseconds. -/
  limit : Nat
  /-- How many bytes it has to move, if that matters. -/
  expected : Option Nat
deriving DecidableEq, Repr

/-- What is wrong with a response to a phase. -/
def Phase.fault? (phase : Phase) : Response → Option Fault
  | .failed error => some (.transfer error)
  | .hung => some .timedOut
  | .moved delivery =>
    match phase.expected with
    | none => none
    | some expected =>
      if phase.event.moved delivery = expected then none
      else some (.shortTransfer expected (phase.event.moved delivery))

/-- A transfer that was made, with the response to it. -/
structure Exchange where
  phase : Phase
  response : Response
deriving DecidableEq, Repr

namespace Exchange

/-- What is wrong with an exchange. -/
def fault? (exchange : Exchange) : Option Fault := exchange.phase.fault? exchange.response

/-- What an exchange leaves in the trace: the transfer, and the end of its time limit if it had to
be ended. -/
def events (exchange : Exchange) : List Event :=
  exchange.phase.event ::
    if exchange.response = .hung then [.timedOut exchange.phase.limit] else []

end Exchange

/-- The fault of the first exchange with one. -/
def firstFault (exchanges : List Exchange) : Option Fault := exchanges.findSome? Exchange.fault?

@[simp] theorem firstFault_nil : firstFault [] = none := rfl

@[simp] theorem firstFault_cons (exchange : Exchange) (exchanges : List Exchange) :
    firstFault (exchange :: exchanges) = exchange.fault?.or (firstFault exchanges) := by
  rw [firstFault, List.findSome?_cons]
  cases exchange.fault? <;> rfl

theorem firstFault_append (first second : List Exchange) :
    firstFault (first ++ second) = (firstFault first).or (firstFault second) :=
  List.findSome?_append

theorem firstFault_eq_none_iff {exchanges : List Exchange} :
    firstFault exchanges = none ↔ ∀ exchange ∈ exchanges, exchange.fault? = none :=
  List.findSome?_eq_none_iff

/-- The response to the next transfer. -/
def answer (responses : List Response) : Response := responses.headD (.moved .whole)

/-- **The exchanges that phases come to** under some responses. -/
def carryOut : List Phase → List Response → List Exchange
  | [], _ => []
  | phase :: phases, responses =>
    let exchange : Exchange := ⟨phase, answer responses⟩
    exchange :: if exchange.fault? = none then carryOut phases responses.tail else []

section CarryOut

variable {phases : List Phase} {responses : List Response}

/-- One phase makes one exchange. -/
theorem carryOut_singleton (phase : Phase) (responses : List Response) :
    carryOut [phase] responses = [⟨phase, answer responses⟩] := by
  simp [carryOut]

/-- **Phases are carried out part by part**: the second part where the first has no fault. -/
theorem carryOut_append (first second : List Phase) (responses : List Response) :
    carryOut (first ++ second) responses = carryOut first responses ++
      if firstFault (carryOut first responses) = none then
        carryOut second (responses.drop (carryOut first responses).length)
      else [] := by
  induction first generalizing responses with
  | nil => rfl
  | cons phase phases ih =>
    by_cases h : Exchange.fault? ⟨phase, answer responses⟩ = none
    · simp [carryOut, h, ih]
    · obtain ⟨fault, hfault⟩ := Option.ne_none_iff_exists'.mp h
      simp [carryOut, hfault]

/-- Exchanges are made in the order of the phases. -/
theorem map_phase_carryOut_isPrefix (phases : List Phase) (responses : List Response) :
    (carryOut phases responses).map Exchange.phase <+: phases := by
  induction phases generalizing responses with
  | nil => exact List.nil_prefix
  | cons phase phases ih =>
    rw [carryOut, List.map_cons, List.prefix_cons_inj]
    split
    · exact ih _
    · exact List.nil_prefix

/-- Without a fault every phase is carried out. -/
theorem map_phase_carryOut (h : firstFault (carryOut phases responses) = none) :
    (carryOut phases responses).map Exchange.phase = phases := by
  induction phases generalizing responses with
  | nil => rfl
  | cons phase phases ih =>
    have hfirst : Exchange.fault? ⟨phase, answer responses⟩ = none :=
      firstFault_eq_none_iff.mp h _ (by simp [carryOut])
    simp only [carryOut, hfirst, ↓reduceIte, firstFault_cons, Option.none_or] at h
    simp [carryOut, hfirst, ih h]

/-- A fault is the fault of the last exchange, and of no other. -/
theorem exists_last_of_firstFault {fault : Fault}
    (h : firstFault (carryOut phases responses) = some fault) :
    ∃ before last, carryOut phases responses = before ++ [last] ∧
      firstFault before = none ∧ last.fault? = some fault := by
  induction phases generalizing responses with
  | nil => cases h
  | cons phase phases ih =>
    cases hfirst : Exchange.fault? ⟨phase, answer responses⟩ with
    | none =>
      simp only [carryOut, hfirst, ↓reduceIte, firstFault_cons, Option.none_or] at h ⊢
      obtain ⟨before, last, heq, hbefore, hlast⟩ := ih h
      refine ⟨⟨phase, answer responses⟩ :: before, last, by rw [heq, List.cons_append], ?_, hlast⟩
      rw [firstFault_cons, hfirst, hbefore, Option.none_or]
    | some first =>
      simp only [carryOut, hfirst, firstFault_cons, Option.some_or] at h
      exact ⟨[], _, by simp [carryOut, hfirst], rfl, hfirst.trans h⟩

end CarryOut

/-! ### What exchanges leave -/

/-- From one host to the other, exactly these exchanges were made: they took the responses in order,
and left their events. -/
structure Made (exchanges : List Exchange) (host host' : Host) : Prop where
  answered : ∀ i exchange, exchanges[i]? = some exchange →
    exchange.response = answer (host.responses.drop i)
  responses_eq : host'.responses = host.responses.drop exchanges.length
  trace_eq : host'.trace = host.trace ++ exchanges.flatMap Exchange.events

namespace Made

variable {first second : List Exchange} {host host' host'' : Host}

/-- Nothing was made if the responses and the trace are the same. -/
theorem nil (hresponses : host'.responses = host.responses) (htrace : host'.trace = host.trace) :
    Made [] host host' where
  answered i exchange h := by cases h
  responses_eq := hresponses
  trace_eq := htrace.trans (List.append_nil _).symm

/-- **Exchanges in sequence.** -/
theorem trans (h : Made first host host') (h' : Made second host' host'') :
    Made (first ++ second) host host'' where
  answered i exchange hi := by
    rcases Nat.lt_or_ge i first.length with hlt | hge
    · exact h.answered i exchange (List.getElem?_append_left hlt ▸ hi)
    · rw [List.getElem?_append_right hge] at hi
      rw [h'.answered _ _ hi, h.responses_eq, List.drop_drop, Nat.add_sub_cancel' hge]
  responses_eq := by
    rw [h'.responses_eq, h.responses_eq, List.drop_drop, List.length_append]
  trace_eq := by
    rw [h'.trace_eq, h.trace_eq, List.append_assoc, List.flatMap_append]

end Made

/-- What is picked out of the events of exchanges is picked out of their transfers, if the ends of
time limits are left out. -/
theorem filterMap_flatMap_events {β : Type} {f : Event → Option β}
    (h : ∀ limit, f (.timedOut limit) = none) (exchanges : List Exchange) :
    (exchanges.flatMap Exchange.events).filterMap f =
      (exchanges.map fun exchange => exchange.phase.event).filterMap f := by
  induction exchanges with
  | nil => rfl
  | cons exchange exchanges ih =>
    have hone : exchange.events.filterMap f = [exchange.phase.event].filterMap f := by
      rw [Exchange.events]
      split
      · rw [List.filterMap_cons, List.filterMap_cons, List.filterMap_cons, h]
      · rfl
    rw [List.flatMap_cons, List.filterMap_append, ih, hone, ← List.filterMap_append]
    rfl

/-! ### Attempts that follow phases -/

/-- An attempt *follows* phases if on every host it makes the exchanges that these come to, and
fails with the fault among them. -/
structure Follows {α : Type} (x : Attempt Host α) (phases : List Phase) : Prop where
  faultOf_eq : ∀ host, faultOf (x host).1 = firstFault (carryOut phases host.responses)
  made : ∀ host, Made (carryOut phases host.responses) host (x host).2

namespace Follows

variable {α β : Type} {x : Attempt Host α} {f : α → Attempt Host β} {first second : List Phase}

theorem pure (a : α) : Follows (pure a : Attempt Host α) [] where
  faultOf_eq _ := rfl
  made _ := .nil rfl rfl

/-- Messages are no transfers. -/
theorem tell (level : Log.Level) (text : String) : Follows (tell level text) [] where
  faultOf_eq _ := rfl
  made _ := .nil rfl rfl

/-- **In sequence**: the second phases are followed where the first had no fault. -/
theorem bind (hx : Follows x first) (hf : ∀ a, Follows (f a) second) :
    Follows (x >>= f) (first ++ second) := by
  have hcases : ∀ host,
      faultOf ((x >>= f) host).1 = firstFault (carryOut (first ++ second) host.responses) ∧
        Made (carryOut (first ++ second) host.responses) host ((x >>= f) host).2 := by
    intro host
    have hfault := hx.faultOf_eq host
    have hmade := hx.made host
    rw [Attempt.bind_apply, carryOut_append, ← hfault]
    rcases hstep : x host with ⟨_ | a, host'⟩ <;> rw [hstep] at hfault hmade
    · simpa [firstFault_append, ← hfault] using hmade
    · rw [← hmade.responses_eq]
      refine ⟨?_, hmade.trans ((hf a).made host')⟩
      rw [(hf a).faultOf_eq, faultOf_ok, if_pos rfl, firstFault_append, ← hfault, faultOf_ok,
        Option.none_or]
  exact ⟨fun host => (hcases host).1, fun host => (hcases host).2⟩

end Follows

/-- What a transfer comes to under each response. -/
theorem transfer_apply (event : Event) (limit : Nat) (host : Host) :
    transfer event limit host =
      match answer host.responses with
      | .moved delivery =>
        (.ok delivery, ⟨host.responses.tail, host.trace ++ [event], host.log⟩)
      | .failed error =>
        (.error (.transfer error), ⟨host.responses.tail, host.trace ++ [event], host.log⟩)
      | .hung =>
        (.error .timedOut,
          ⟨host.responses.tail, host.trace ++ [event, .timedOut limit], host.log⟩) := by
  obtain ⟨responses, trace, log⟩ := host
  rcases responses with _ | ⟨response, responses⟩
  · rfl
  · cases response <;> simp [transfer, Attempt.bind_apply, record, nextResponse, answer]

/-- **A transfer follows a phase** if its bytes are counted as the phase wants them. -/
theorem follows_transfer {α : Type} {f : Delivery → Attempt Host α} (phase : Phase)
    (hf : ∀ delivery host, faultOf (f delivery host).1 = phase.fault? (.moved delivery) ∧
      Made [] host (f delivery host).2) :
    Follows (transfer phase.event phase.limit >>= f) [phase] := by
  have hcases : ∀ host,
      faultOf ((transfer phase.event phase.limit >>= f) host).1 =
          phase.fault? (answer host.responses) ∧
        ((transfer phase.event phase.limit >>= f) host).2.responses = host.responses.tail ∧
        ((transfer phase.event phase.limit >>= f) host).2.trace =
          host.trace ++ Exchange.events ⟨phase, answer host.responses⟩ := by
    intro host
    rw [Attempt.bind_apply, transfer_apply]
    cases answer host.responses with
    | moved delivery =>
      obtain ⟨hfault, hmade⟩ := hf delivery
        ⟨host.responses.tail, host.trace ++ [phase.event], host.log⟩
      refine ⟨hfault, hmade.responses_eq, ?_⟩
      simpa [Exchange.events] using hmade.trace_eq
    | failed error => simp [Exchange.events, Phase.fault?]
    | hung => simp [Exchange.events, Phase.fault?]
  constructor
  · intro host
    rw [(hcases host).1, carryOut_singleton]
    simp [Exchange.fault?]
  · intro host
    rw [carryOut_singleton]
    constructor
    · intro i exchange hi
      obtain ⟨rfl, rfl⟩ : i = 0 ∧ exchange = ⟨phase, answer host.responses⟩ := by
        cases i <;> simp_all
      rfl
    · simpa using (hcases host).2.1
    · simpa using (hcases host).2.2

/-! ### What it means to follow phases -/

/-- The outcome of an attempt on a host, told by its exchanges: it goes through the phases in order,
stops at the first fault, and succeeds if there is none. -/
structure CarriesOut {α : Type} (phases : List Phase) (host : Host)
    (outcome : Except Fault α × Host) (exchanges : List Exchange) : Prop where
  made : Made exchanges host outcome.2
  isPrefix : exchanges.map Exchange.phase <+: phases
  /-- It succeeds if and only if every phase is carried out, and none has a fault. -/
  ok_iff : (∃ a, outcome.1 = .ok a) ↔
    exchanges.map Exchange.phase = phases ∧ ∀ exchange ∈ exchanges, exchange.fault? = none
  /-- It stops at the first exchange with a fault, and fails with this fault. -/
  stopped : ∀ fault, outcome.1 = .error fault → ∃ before last, exchanges = before ++ [last] ∧
    (∀ exchange ∈ before, exchange.fault? = none) ∧ last.fault? = some fault

/-- **Who follows phases carries them out**, on every host. -/
theorem Follows.carriesOut {α : Type} {x : Attempt Host α} {phases : List Phase}
    (h : Follows x phases) (host : Host) :
    CarriesOut phases host (x host) (carryOut phases host.responses) where
  made := h.made host
  isPrefix := map_phase_carryOut_isPrefix _ _
  ok_iff := by
    rw [← faultOf_eq_none_iff, h.faultOf_eq, ← firstFault_eq_none_iff]
    exact ⟨fun hnone => ⟨map_phase_carryOut hnone, hnone⟩, And.right⟩
  stopped fault hfault := by
    have hsome := h.faultOf_eq host
    rw [hfault, faultOf_error] at hsome
    obtain ⟨before, last, heq, hbefore, hlast⟩ := exists_last_of_firstFault hsome.symm
    exact ⟨before, last, heq, firstFault_eq_none_iff.mp hbefore, hlast⟩

/-! ### The transfers of the host -/

theorem follows_bulkOutExact (endpoint : UInt8) (bytes : List UInt8) (limit : Nat) :
    Follows (bulkOutExact endpoint bytes limit)
      [⟨.bulkOut endpoint bytes, limit, some bytes.length⟩] := by
  simp only [bulkOutExact, bulkOut, bind_assoc, pure_bind]
  refine follows_transfer ⟨.bulkOut endpoint bytes, limit, some bytes.length⟩
    fun delivery host => ?_
  by_cases h : delivery.sent bytes.length = bytes.length <;>
    simpa [Phase.fault?, Event.moved, h] using Made.nil rfl rfl

theorem follows_bulkInExact (endpoint : UInt8) (length limit : Nat) :
    Follows (bulkInExact endpoint length limit)
      [⟨.bulkIn endpoint length, limit, some length⟩] := by
  simp only [bulkInExact, bulkIn, bind_assoc, pure_bind]
  refine follows_transfer ⟨.bulkIn endpoint length, limit, some length⟩ fun delivery host => ?_
  by_cases h : (delivery.received length).length = length <;>
    simpa [Phase.fault?, Event.moved, h] using Made.nil rfl rfl

theorem follows_bulkOut (endpoint : UInt8) (bytes : List UInt8) (limit : Nat) :
    Follows (bulkOut endpoint bytes limit) [⟨.bulkOut endpoint bytes, limit, none⟩] :=
  follows_transfer ⟨.bulkOut endpoint bytes, limit, none⟩ fun _ _ => ⟨rfl, .nil rfl rfl⟩

theorem follows_bulkIn (endpoint : UInt8) (length limit : Nat) :
    Follows (bulkIn endpoint length limit) [⟨.bulkIn endpoint length, limit, none⟩] :=
  follows_transfer ⟨.bulkIn endpoint length, limit, none⟩ fun _ _ => ⟨rfl, .nil rfl rfl⟩

theorem follows_controlOut (setup : Setup) (bytes : List UInt8) (limit : Nat) :
    Follows (controlOut setup bytes limit) [⟨.controlOut setup bytes, limit, none⟩] :=
  follows_transfer ⟨.controlOut setup bytes, limit, none⟩ fun _ _ => ⟨rfl, .nil rfl rfl⟩

end Usb

end PicoLoader

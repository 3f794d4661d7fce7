import PicoLoader.Proofs.Usb.Exchanges

/-!
# Conversations over a claimed interface

Before the host makes exchanges with a device, it claims an interface of it, and where another
driver holds the interface it detaches that driver first. This makes no transfer. If the host gets
hold of the interface, the exchanges follow; otherwise nothing does
(`PicoLoader.Usb.conversation`).

An attempt *leaves* events (`PicoLoader.Usb.Leaves`) if they are what it adds to the trace. What an
attempt in sequence leaves is put together from its parts, the claim (`Leaves.claim_bind`) and the
exchanges after it.

Of a conversation, the transfers that go out are its requests. `requests_conversation` counts them
where only the first exchange is one.
-/

namespace PicoLoader

namespace Attempt

variable {σ α β : Type}

/-- A value that comes after an attempt is the only one it can succeed with. -/
theorem eq_of_bind_pure {x : Attempt σ α} {b b' : β} {state : σ}
    (h : ((x >>= fun _ => pure b) state).1 = .ok b') : b = b' := by
  rw [bind_apply] at h
  rcases hstep : x state with ⟨_ | _, _⟩ <;> rw [hstep] at h
  · cases h
  · exact Except.ok.inj h

/-- A disconnection that is accepted has left the state as it is. -/
theorem acceptDisconnect_snd (x : Attempt σ Unit) (state : σ) :
    (x.acceptDisconnect state).2 = (x state).2 := by
  rw [acceptDisconnect]
  rcases x state with ⟨fault | _, state'⟩
  · cases hgone : fault.isDisconnect <;> simp [hgone]
  · rfl

end Attempt

namespace Usb

/-! ### Requests -/

/-- Whether an event is a transfer that goes out. -/
def Event.isRequest : Event → Bool
  | .bulkOut _ _ | .controlOut _ _ => true
  | _ => false

/-- The transfers among some events that go out. -/
def requests (events : List Event) : List Event := events.filter Event.isRequest

@[simp] theorem requests_append (first second : List Event) :
    requests (first ++ second) = requests first ++ requests second := List.filter_append ..

/-- A control transfer that goes out is among the requests. -/
theorem controlOut_mem_iff_of_requests_eq {events sent : List Event} {setup : Setup}
    {bytes : List UInt8} (h : requests events = sent) :
    .controlOut setup bytes ∈ events ↔ .controlOut setup bytes ∈ sent := by
  rw [← h, requests, List.mem_filter]
  exact (and_iff_left rfl).symm

/-- Exchanges put out what their phases ask for, whatever the responses. -/
theorem requests_flatMap_events (exchanges : List Exchange) :
    requests (exchanges.flatMap Exchange.events) =
      requests (exchanges.map fun exchange => exchange.phase.event) := by
  simp only [requests, ← List.filterMap_eq_filter]
  exact filterMap_flatMap_events (fun _ => rfl) exchanges

/-! ### Claiming an interface -/

/-- Whether the host gets hold of the interfaces of a device: it may claim them, or else detach
another driver and claim. -/
def Device.Grants (device : Device) : Prop :=
  device.claimRefusal = none ∨ device.detachRefusal = none

instance (device : Device) : Decidable device.Grants := inferInstanceAs (Decidable (_ ∨ _))

/-- What it leaves to claim an interface. -/
def claiming (device : Device) (interface : UInt8) : List Event :=
  .claimed interface :: if device.claimRefusal = none then [] else [.detached interface]

/-- **Claiming an interface** makes no transfer, and succeeds if the host gets hold of it. -/
theorem claim_spec (device : Device) (interface : UInt8) (host : Host) :
    ((claim device interface host).1 = .ok () ↔ device.Grants) ∧
      (claim device interface host).2.responses = host.responses ∧
      (claim device interface host).2.trace = host.trace ++ claiming device interface := by
  cases hclaim : device.claimRefusal <;> cases hdetach : device.detachRefusal <;>
    simp [claim, claiming, Device.Grants, Attempt.bind_apply, record, unlessRefused, tell, note,
      hclaim, hdetach]

/-! ### Conversations -/

/-- What it leaves to claim an interface and, if the host gets hold of it, make exchanges. -/
def conversation (device : Device) (interface : UInt8) (exchanges : List Exchange) : List Event :=
  claiming device interface ++
    if device.Grants then exchanges.flatMap Exchange.events else []

section Conversation

variable {device : Device} {interface : UInt8} {exchanges : List Exchange} {event : Event}

theorem claimed_mem_conversation : .claimed interface ∈ conversation device interface exchanges :=
  List.mem_append_left _ List.mem_cons_self

/-- All that is in a conversation. -/
theorem mem_conversation (h : event ∈ conversation device interface exchanges) :
    event = .claimed interface ∨ event = .detached interface ∨ (∃ limit, event = .timedOut limit) ∨
      ∃ exchange ∈ exchanges, event = exchange.phase.event := by
  rcases List.mem_append.mp h with hclaim | hmade
  · rcases List.mem_cons.mp hclaim with rfl | hdetach
    · exact Or.inl rfl
    · split at hdetach
      · cases hdetach
      · exact Or.inr (Or.inl (List.mem_singleton.mp hdetach))
  · split at hmade
    case isFalse => cases hmade
    obtain ⟨exchange, hmem, hevent⟩ := List.mem_flatMap.mp hmade
    rcases List.mem_cons.mp hevent with rfl | hended
    · exact Or.inr (Or.inr (Or.inr ⟨exchange, hmem, rfl⟩))
    · split at hended
      · exact Or.inr (Or.inr (Or.inl ⟨_, List.mem_singleton.mp hended⟩))
      · cases hended

/-- **A conversation whose first exchange alone is a request** puts out this one, if the host gets
hold of the interface, and nothing otherwise. -/
theorem requests_conversation {first : Exchange} {rest : List Exchange}
    (hfirst : first.phase.event.isRequest = true)
    (hrest : ∀ exchange ∈ rest, exchange.phase.event.isRequest = false) :
    requests (conversation device interface (first :: rest)) =
      if device.Grants then [first.phase.event] else [] := by
  have hclaim : requests (claiming device interface) = [] := by
    rw [claiming]
    split <;> rfl
  rw [conversation, requests_append, hclaim, List.nil_append]
  split
  · rw [requests_flatMap_events, requests, List.map_cons, List.filter_cons_of_pos hfirst,
      List.filter_eq_nil_iff.mpr]
    simpa using hrest
  · rfl

end Conversation

/-! ### What attempts leave in the trace -/

/-- An attempt *leaves* events if on every host it adds to the trace what they are under the
responses to come. -/
def Leaves {α : Type} (x : Attempt Host α) (events : List Response → List Event) : Prop :=
  ∀ host, (x host).2.trace = host.trace ++ events host.responses

namespace Leaves

variable {α β : Type} {x : Attempt Host α} {events : List Response → List Event}

/-- Who follows phases leaves the events of their exchanges. -/
theorem of_follows {phases : List Phase} (h : Follows x phases) :
    Leaves x fun responses => (carryOut phases responses).flatMap Exchange.events :=
  fun host => (h.made host).trace_eq

/-- A value is returned without a trace. -/
theorem bind_pure (h : Leaves x events) (b : β) : Leaves (x >>= fun _ => pure b) events := by
  intro host
  rw [← h host, Attempt.bind_apply]
  rcases x host with ⟨_ | _, _⟩ <;> rfl

theorem acceptDisconnect {x : Attempt Host Unit} (h : Leaves x events) :
    Leaves x.acceptDisconnect events :=
  fun host => (congrArg Host.trace (x.acceptDisconnect_snd host)).trans (h host)

/-- Messages are left in the log only. -/
theorem note_bind (entry : Log.Entry) (h : Leaves x events) :
    Leaves (note entry >>= fun _ => x) events :=
  fun host => h ⟨host.responses, host.trace, host.log ++ [entry]⟩

/-- **Exchanges over a claimed interface** make a conversation. -/
theorem claim_bind {exchanges : List Response → List Exchange}
    (h : Leaves x fun responses => (exchanges responses).flatMap Exchange.events) (device : Device)
    (interface : UInt8) :
    Leaves (claim device interface >>= fun _ => x) fun responses =>
      conversation device interface (exchanges responses) := by
  intro host
  obtain ⟨hresult, hresponses, htrace⟩ := claim_spec device interface host
  rw [Attempt.bind_apply]
  rcases hclaim : claim device interface host with ⟨fault | _, host'⟩ <;>
    rw [hclaim] at hresult hresponses htrace
  · have hrefused : ¬device.Grants := fun hgrants => nomatch hresult.mpr hgrants
    simpa [conversation, hrefused] using htrace
  · -- The claim has used up no response, so the exchanges begin where they would without it.
    have hgrants : device.Grants := hresult.mp rfl
    have hstart : host'.trace = host.trace ++ claiming device interface := htrace
    have hanswers : host'.responses = host.responses := hresponses
    simp only [conversation, if_pos hgrants, ← List.append_assoc, ← hstart, ← hanswers]
    exact h host'

end Leaves

end Usb

end PicoLoader

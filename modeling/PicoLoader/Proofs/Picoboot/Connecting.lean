import PicoLoader.Picoboot.Session

/-!
# Connecting makes no transfer

To find a board, the host lists the devices, opens one and claims an interface of it. None of this
is a transfer: no response is used up, and the trace has none of the four transfers in it
(`untouched_connect`). It does not matter how far the host gets (`quiet_connect`).
-/

namespace PicoLoader

namespace Usb

/-- Whether an event is a transfer. -/
def Event.IsTransfer : Event → Prop
  | .bulkOut _ _ | .bulkIn _ _ | .controlOut _ _ | .controlIn _ _ => True
  | .opened _ | .claimed _ | .detached _ | .timedOut _ => False

/-- The responses are still to come, and no transfer is in the trace. -/
structure Untouched (responses : List Response) (host : Host) : Prop where
  responses_eq : host.responses = responses
  not_isTransfer : ∀ event ∈ host.trace, ¬event.IsTransfer

theorem untouched_start (responses : List Response) : Untouched responses (.start responses) :=
  ⟨rfl, by simp [Host.start]⟩

/-- An attempt that makes no transfer, however it ends. -/
def Quiet {α : Type} (x : Attempt Host α) : Prop :=
  ∀ responses host, Untouched responses host → Untouched responses (x host).2

namespace Quiet

variable {α β : Type}

theorem pure (a : α) : Quiet (pure a : Attempt Host α) := fun _ _ h => h

theorem fail (fault : Fault) : Quiet (.fail fault : Attempt Host α) := fun _ _ h => h

theorem bind {x : Attempt Host α} {f : α → Attempt Host β} (hx : Quiet x)
    (hf : ∀ a, Quiet (f a)) : Quiet (x >>= f) := by
  intro responses host h
  have hafter := hx responses host h
  rw [Attempt.bind_apply]
  rcases hstep : x host with ⟨_ | a, host'⟩ <;> rw [hstep] at hafter
  · exact hafter
  · exact hf a responses host' hafter

theorem result {x : Attempt Host α} (hx : Quiet x) : Quiet x.result := hx

theorem tell (level : Log.Level) (text : String) : Quiet (tell level text) :=
  fun _ _ h => ⟨h.responses_eq, h.not_isTransfer⟩

theorem record {event : Event} (hevent : ¬event.IsTransfer) : Quiet (record event) := by
  intro responses host h
  refine ⟨h.responses_eq, fun other hother => ?_⟩
  rcases List.mem_append.mp hother with hother | hother
  · exact h.not_isTransfer other hother
  · exact List.mem_singleton.mp hother ▸ hevent

theorem unlessRefused (refusal : Option String) : Quiet (unlessRefused refusal) := by
  cases refusal with
  | none => exact .pure ()
  | some text => exact .fail _

theorem devices (bus : Bus) : Quiet (devices bus) :=
  (unlessRefused bus.listRefusal).bind fun _ => .pure _

theorem openDevice (device : Device) (number : Nat) : Quiet (openDevice device number) :=
  (record id).bind fun _ => unlessRefused _

theorem claim (device : Device) (interface : UInt8) : Quiet (claim device interface) := by
  refine (record id).bind fun _ => (unlessRefused _).result.bind fun result => ?_
  cases result with
  | ok _ => exact .pure ()
  | error fault =>
    exact (Quiet.tell _ _).bind fun _ => (record id).bind fun _ => unlessRefused _

end Quiet

end Usb

namespace Picoboot

open Usb

theorem quiet_announce (found : List (Device × Nat)) : Quiet (announce found) := by
  induction found with
  | nil => exact .pure ()
  | cons first found ih => exact (Quiet.tell _ _).bind fun _ => ih

/-- **Connecting makes no transfer.** -/
theorem quiet_connect (bus : Bus) : Quiet (connect bus) := by
  refine (Quiet.devices bus).bind fun listed => (quiet_announce _).bind fun _ => ?_
  split
  case h_1 => exact .fail _
  case h_2 device number others _ =>
    -- Whatever follows the warning about other boards follows it, or stands alone.
    have hwarned : ∀ {f : Unit → Attempt Host Connection}, (∀ u, Quiet (f u)) →
        Quiet (if others ≠ [] then
          tell .warn "Found more than one device. Using the first one found" >>= f else f ()) := by
      intro f hf
      split
      · exact (Quiet.tell _ _).bind hf
      · exact hf ()
    split
    · exact hwarned fun _ => .fail _
    · refine hwarned fun _ => (Quiet.openDevice _ _).bind fun _ => ?_
      split
      · exact .fail _
      · exact (Quiet.claim _ _).bind fun _ => .pure _

/-- Once a host has connected, all responses are still to come. -/
theorem untouched_connect {bus : Bus} {responses : List Response} {connection : Connection}
    {host : Host} (h : connect bus (.start responses) = (.ok connection, host)) :
    Untouched responses host := by
  have hquiet := quiet_connect bus responses _ (untouched_start responses)
  rwa [h] at hquiet

end Picoboot

end PicoLoader

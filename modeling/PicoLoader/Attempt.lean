import PicoLoader.Fault

/-!
# Attempts

An attempt changes a state and then succeeds with a value or fails with a fault. What it did to the
state stays done when it fails: a transfer that times out was made all the same. So an attempt is a
function from a state to a result *and* a state, never to one of the two.

Attempts are put together in sequence, where the first failure ends the whole
(`PicoLoader.Attempt.bind_apply`); `PicoLoader.Attempt.result` turns a failure into a value, for
those who go on after it.
-/

namespace PicoLoader

/-- A change of a state that may fail, and keeps the state when it does. -/
def Attempt (σ α : Type) : Type := σ → Except Fault α × σ

namespace Attempt

variable {σ τ α β : Type}

instance : Monad (Attempt σ) where
  pure a := fun state => (.ok a, state)
  bind x f := fun state =>
    match x state with
    | (.ok a, state) => f a state
    | (.error fault, state) => (.error fault, state)

/-- Fails without changing the state. -/
def fail (fault : Fault) : Attempt σ α := fun state => (.error fault, state)

/-- Changes the state and succeeds. -/
def change (f : σ → σ) : Attempt σ Unit := fun state => (.ok (), f state)

/-- Succeeds with the outcome of an attempt, whatever it is. -/
def result (x : Attempt σ α) : Attempt σ (Except Fault α) := fun state =>
  let (outcome, state) := x state
  (.ok outcome, state)

/-- Makes an attempt after which a device that has gone away is as good as one that answers. -/
def acceptDisconnect (x : Attempt σ Unit) : Attempt σ Unit := fun state =>
  match x state with
  | (.ok (), state) => (.ok (), state)
  | (.error fault, state) =>
    if fault.isDisconnect then (.ok (), state) else (.error fault, state)

/-- Makes an attempt on a part of a larger state. -/
def onPart (get : τ → σ) (set : σ → τ → τ) (x : Attempt σ α) : Attempt τ α := fun state =>
  let (outcome, part) := x (get state)
  (outcome, set part state)

@[simp] theorem pure_apply (a : α) (state : σ) :
    (pure a : Attempt σ α) state = (.ok a, state) := rfl

/-- **In sequence**: the second attempt is made where the first has succeeded. -/
theorem bind_apply (x : Attempt σ α) (f : α → Attempt σ β) (state : σ) :
    (x >>= f) state =
      match x state with
      | (.ok a, state) => f a state
      | (.error fault, state) => (.error fault, state) := rfl

@[simp] theorem fail_apply (fault : Fault) (state : σ) :
    (fail fault : Attempt σ α) state = (.error fault, state) := rfl

@[simp] theorem change_apply (f : σ → σ) (state : σ) : change f state = (.ok (), f state) := rfl

@[simp] theorem result_apply (x : Attempt σ α) (state : σ) :
    x.result state = (.ok (x state).1, (x state).2) := rfl

@[simp] theorem onPart_apply (get : τ → σ) (set : σ → τ → τ) (x : Attempt σ α) (state : τ) :
    x.onPart get set state = ((x (get state)).1, set (x (get state)).2 state) := rfl

end Attempt

end PicoLoader

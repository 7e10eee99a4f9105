import Conductor.Event

/-!
Fan-out of events. Subscribers are called one after the other, in the order in which they
subscribed, and from the list as it stood when the event was published.
-/

namespace Conductor

structure Bus (η : Type) where
  /-- The hooks that the next event goes to. -/
  subscribers : List η := []
  /-- The hooks of all subscriptions so far; a handle is a position in this list. -/
  issued : List η := []

namespace Bus

variable {η σ : Type}

/-- A new subscription, with its handle. -/
def subscribe (bus : Bus η) (hook : η) : Bus η × Nat :=
  ({ subscribers := bus.subscribers ++ [hook], issued := bus.issued ++ [hook] }, bus.issued.length)

/-- Takes back a subscription of the handle's hook, the first one if there are several; nothing
happens if there is none. -/
def unsubscribe [DecidableEq η] (bus : Bus η) (handle : Nat) : Bus η :=
  match bus.issued[handle]? with
  | some hook => { bus with subscribers := bus.subscribers.erase hook }
  | none => bus

/-- Calls hooks in order until one of them fails. -/
def deliver (call : η → σ → σ × Option Fault) : List η → σ → σ × Option Fault
  | [], state => (state, none)
  | hook :: rest, state =>
    match call hook state with
    | (state, none) => deliver call rest state
    | (state, some fault) => (state, some fault)

/-- Publishes an event: a line for the log if the event has a message, then a call of every hook
that is subscribed at this moment. -/
def publish (note : Severity → String → σ → σ) (hooks : σ → List η)
    (call : η → Event → σ → σ × Option Fault) (event : Event) (state : σ) : σ × Option Fault :=
  match event.notice with
  | .error fault => (state, some fault)
  | .ok notice =>
    let state :=
      match notice with
      | some (severity, line) => note severity line state
      | none => state
    deliver (fun hook => call hook event) (hooks state) state

end Bus

end Conductor

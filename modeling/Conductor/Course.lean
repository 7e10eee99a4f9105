import Conductor.World

/-!
Computations that wait. A course is a computation up to the point where it waits, together with
how it goes on: when the moment it waits for has come, or when it is told to stop. A course is a
well-founded tree, so it can be followed to its end by recursion, whatever the moments it waits
for.
-/

namespace Conductor

inductive Course (α : Type) where
  | ended (world : World) (result : Except Fault α)
  /-- Waits for the moment `due`. -/
  | waiting (world : World) (due : Time) (go : World → Course α)
      (stop : World → String → Course α)
  /-- Waits for nothing that will ever come. -/
  | hanging (world : World) (stop : World → String → Course α)

/-- A computation that starts in a given world. -/
abbrev Flow (α : Type) := World → Course α

namespace Course

variable {α β : Type}

def world : Course α → World
  | ended w _ => w
  | waiting w _ _ _ => w
  | hanging w _ => w

/-- The same course after something else has changed the world. -/
def inWorld (w : World) : Course α → Course α
  | ended _ r => ended w r
  | waiting _ due go stop => waiting w due go stop
  | hanging _ stop => hanging w stop

/-- Goes on with `next` when the course ends, however it ends. -/
def andThen (next : World → Except Fault α → Course β) : Course α → Course β
  | ended w r => next w r
  | waiting w due go stop =>
    waiting w due (fun w => (go w).andThen next) (fun w message => (stop w message).andThen next)
  | hanging w stop => hanging w (fun w message => (stop w message).andThen next)

/-- Goes on with `next` if the course ends well. -/
def bind (course : Course α) (next : World → α → Course β) : Course β :=
  course.andThen fun w r =>
    match r with
    | .ok a => next w a
    | .error fault => ended w (.error fault)

/-- Follows the course to its end, letting time pass; one that hangs has no result. -/
def finish : Course α → World × Option (Except Fault α)
  | ended w r => (w, some r)
  | waiting w due go _ => (go (w.advanceTo due)).finish
  | hanging w _ => (w, none)

/-- Lets the course go on until the clock shows `t`: whatever is due by then happens. -/
def upTo (t : Time) : Course α → Course α
  | ended w r => ended (w.advanceTo t) r
  | waiting w due go stop =>
    if due ≤ t then (go (w.advanceTo due)).upTo t else waiting (w.advanceTo t) due go stop
  | hanging w stop => hanging (w.advanceTo t) stop

/-- Lets the course go on as long as what it waits for is due before `t`. -/
def before (t : Time) : Course α → Course α
  | ended w r => ended w r
  | waiting w due go stop =>
    if due < t then (go (w.advanceTo due)).before t else waiting (w.advanceTo t) due go stop
  | hanging w stop => hanging (w.advanceTo t) stop

/-- Tells a course that waits to stop, with a message. -/
def cancel (message : String) : Course α → Course α
  | ended w r => ended w r
  | waiting w _ _ stop => stop w message
  | hanging w stop => stop w message

/-- Whether the course has ended. -/
def isEnded : Course α → Bool
  | ended .. => true
  | _ => false

end Course

namespace Flow

variable {α β : Type}

def pure (a : α) : Flow α := fun w => .ended w (.ok a)

def fail (fault : Fault) : Flow α := fun w => .ended w (.error fault)

/-- Waits for the moment `due`, or until it is told to stop. -/
def sleepUntil (due : Time) : Flow Unit := fun w =>
  .waiting w due (fun w => .ended w (.ok ()))
    (fun w message => .ended w (.error (.cancelled message)))

/-- Waits for a span of time. -/
def sleep (span : Time) : Flow Unit := fun w => sleepUntil (Time.after w.now span) w

/-- Does a step that may fail. -/
def step (act : World → World × Option Fault) : Flow Unit := fun w =>
  match act w with
  | (w, none) => .ended w (.ok ())
  | (w, some fault) => .ended w (.error fault)

/-- Goes on with the present stamp. -/
def stamped (next : Stamp → Flow α) : Flow α := fun w =>
  World.proceed (fun stamp => next stamp w) (fun fault => .ended w (.error fault)) w.stamp

/-- One flow after the other. -/
def seq (first : Flow α) (second : α → Flow β) : Flow β := fun w =>
  (first w).bind fun w a => second a w

end Flow

end Conductor

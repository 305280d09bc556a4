import Excimer.Lib.Sections
import Excimer.Timer.Invariant

/-!
The critical sections of `excimer_timer.c`, statement by statement. The system of
`Timer.System` performs each section in one step. Here the thread that holds the
mutex performs one statement at a time, and every other thread may take steps in
between that do not need the mutex, in the build with one PHP thread.
-/

namespace Excimer.Timer

open CircularList Sections

/-- The memory that the mutex protects. -/
@[ext] structure Shared where
  links : Links TimerId
  eventCount : TimerId → Int

namespace Shared

def setNext (m : Shared) (timer : TimerId) (target : Option TimerId) : Shared :=
  { m with links := m.links.setNext timer target }

def setPrev (m : Shared) (timer : TimerId) (target : Option TimerId) : Shared :=
  { m with links := m.links.setPrev timer target }

def setHead (m : Shared) (target : Option TimerId) : Shared :=
  { m with links := m.links.setHead target }

def setCount (m : Shared) (timer : TimerId) (count : Int) : Shared :=
  { m with eventCount := Function.update m.eventCount timer count }

variable (m : Shared) (timer : TimerId) (target : Option TimerId) (count : Int)

@[simp] theorem setNext_links : (m.setNext timer target).links = m.links.setNext timer target := rfl

@[simp] theorem setPrev_links : (m.setPrev timer target).links = m.links.setPrev timer target := rfl

@[simp] theorem setHead_links : (m.setHead target).links = m.links.setHead target := rfl

@[simp] theorem setCount_links : (m.setCount timer count).links = m.links := rfl

end Shared

section Programs

variable (timer : TimerId)

/-- `excimer_timer_list_enqueue`; `*head_pp` is read anew in every statement. -/
def enqueueStatements : Program Shared Unit :=
  .read fun m =>
    if m.links.next timer = none then
      .read fun m =>
        if m.links.head = none then
          .write (fun m => some (m.setHead (some timer))) <|
          .write (fun m => some (m.setNext timer (some timer))) <|
          .write (fun m => some (m.setPrev timer (some timer))) <|
          .ret ()
        else
          .write (fun m => some (m.setNext timer m.links.head)) <|
          .write (fun m => m.links.head.map fun head => m.setPrev timer (m.links.prev head)) <|
          .write (fun m => m.links.head.bind fun head =>
            (m.links.prev head).map fun last => m.setNext last (some timer)) <|
          .write (fun m => m.links.head.map fun head => m.setPrev head (some timer)) <|
          .ret ()
    else
      .ret ()

/-- The last two statements of a removal. -/
def unlinkStatements {ρ : Type} (result : ρ) : Program Shared ρ :=
  .write (fun m => some (m.setNext timer none)) <|
  .write (fun m => some (m.setPrev timer none)) <|
  .ret result

/-- `excimer_timer_list_dequeue` once the head is known to be `timer`. The double
assignment is two statements, whose common value is read first. -/
def dequeueHeadStatements : Program Shared TimerId :=
  .read fun m =>
    if m.links.next timer = some timer then
      .write (fun m => some (m.setHead none)) (unlinkStatements timer timer)
    else
      .write (fun m => (m.links.next timer).map fun next =>
        m.setPrev next (m.links.prev timer)) <|
      .read fun m =>
        let target := m.links.next timer
        .write (fun m => (m.links.prev timer).map fun prev => m.setNext prev target) <|
        .write (fun m => some (m.setHead target)) (unlinkStatements timer timer)

/-- `excimer_timer_list_remove` -/
def removeStatements : Program Shared Unit :=
  .read fun m =>
    if m.links.next timer = none then
      .ret ()
    else
      .read fun m =>
        if m.links.next timer = some timer then
          .write (fun m => some (m.setHead none)) (unlinkStatements timer ())
        else
          .write (fun m => (m.links.next timer).map fun next =>
            m.setPrev next (m.links.prev timer)) <|
          .write (fun m => (m.links.prev timer).map fun prev =>
            m.setNext prev (m.links.next timer)) <|
          .read fun m =>
            if m.links.head = some timer then
              .write (fun m => some (m.setHead (m.links.next timer))) (unlinkStatements timer ())
            else
              unlinkStatements timer ()

end Programs

/-- The section of `excimer_timer_handle`. -/
def handleStatements (timer : TimerId) (overrunCount : Int) : Program Shared Unit :=
  .write (fun m => some (m.setCount timer (m.eventCount timer + toInt (overrunCount + 1))))
    (enqueueStatements timer)

/-- The section of `excimer_timer_pending_dequeue`. -/
def pendingDequeueStatements : Program Shared (Option (TimerId × Int)) :=
  .read fun m =>
    match m.links.head with
    | none => .ret none
    | some head =>
        (dequeueHeadStatements head).andThen fun timer =>
          .read fun m =>
            let count := m.eventCount timer
            .write (fun m => some (m.setCount timer 0)) (.ret (some (timer, count)))

/-- Which function a section belongs to, with what it returns. -/
inductive Outcome where
  | handled
  | dequeued (result : Option (TimerId × Int))
  | removed (timer : TimerId)

/-- A section that a thread has entered: the timer whose handler thread it is, or
nothing for the PHP thread, and the statements that remain. -/
structure Section where
  handler : Option TimerId
  rest : Program Shared Outcome

namespace State

def shared (s : State) : Shared where
  links := s.links (.php 0)
  eventCount timer := (s.timers timer).eventCount

/-- Another content of the shared memory and another holder of the mutex. -/
def overlay (s : State) (m : Shared) (holder : Option Thread) : State :=
  { s with
    timers := fun timer => { s.timers timer with
      pendingNext := m.links.next timer
      pendingPrev := m.links.prev timer
      eventCount := m.eventCount timer }
    tls := Function.update s.tls (.php 0)
      { s.tls (.php 0) with mutex := holder, pendingHead := m.links.head } }

def withShared (s : State) (m : Shared) : State := s.overlay m (s.tls (.php 0)).mutex

end State

/-- The system of threads with the section that is under way. -/
structure Detailed where
  memory : State
  inside : Option Section

namespace Detailed

def initial : Detailed := ⟨State.initial, none⟩

inductive Action where
  /-- A handler thread calls `excimer_timer_handle` and gets the mutex. -/
  | handle (timer : TimerId) (overrunCount : Int)
  /-- The PHP thread gets the mutex in `excimer_timer_pending_dequeue`. -/
  | dequeue
  /-- The PHP thread, which has the mutex, calls `excimer_timer_list_remove`. -/
  | remove
  /-- The thread inside a section performs its next statement, or leaves. -/
  | statement
  | other (action : Timer.Action)

/-- What follows the statements: the release of the mutex and the return from
`excimer_timer_handle`'s section or `excimer_timer_pending_dequeue`, or the return
from `excimer_timer_list_remove` with the mutex still held. -/
def leave (s : State) : Outcome → State
  | .handled => s.setMutex (.php 0) none
  | .dequeued none => (s.setMutex (.php 0) none).setStack 0 (s.stack 0).tail
  | .dequeued (some (timer, count)) =>
      (s.setMutex (.php 0) none).setStack 0 (.deliver timer count :: (s.stack 0).tail)
  | .removed timer => s.setStack 0 (.destroy timer .unlock :: (s.stack 0).tail)

/-- Whether a step that enters no section can be taken: the thread inside a
section can do nothing else. -/
def permits (t : Detailed) : Timer.Action → Bool
  | .handle _ _ => false
  | .store timer => t.inside.all fun sec => sec.handler != some timer
  | .raise _ => true
  | .php _ move =>
      (t.inside.all fun sec => sec.handler.isSome) &&
      (match move, (t.memory.stack 0).head? with
      | .dequeue, _ => false
      | .destroyNext, some (.destroy _ .remove) => false
      | _, _ => true)

def statement (s : State) (sec : Section) : Option Detailed :=
  match sec.rest with
  | .ret outcome => some ⟨leave s outcome, none⟩
  | rest =>
      (rest.step s.shared).map fun next => ⟨s.withShared next.2, some { sec with rest := next.1 }⟩

def step (t : Detailed) : Action → Option Detailed
  | .handle timer overrunCount =>
      match t.memory.handlers timer with
      | some ⟨number, false⟩ =>
          if (t.memory.tls (.php 0)).mutex = none ∧
              0 ≤ overrunCount ∧ overrunCount + 1 ≤ intMax then
            let locked := t.memory.setMutex (.php 0) (some (.handler number))
            some
              { memory := { locked with
                  handlers := Function.update locked.handlers timer (some ⟨number, true⟩)
                  trace := .handle timer overrunCount :: locked.trace }
                inside := some ⟨some timer,
                  (handleStatements timer overrunCount).andThen fun _ => .ret .handled⟩ }
          else
            none
      | _ => none
  | .dequeue =>
      match t.memory.stack 0 with
      | .drain :: _ =>
          if (t.memory.tls (.php 0)).mutex = none then
            some
              { memory := t.memory.setMutex (.php 0) (some (.php 0))
                inside := some ⟨none, pendingDequeueStatements.andThen fun result =>
                  .ret (.dequeued result)⟩ }
          else
            none
      | _ => none
  | .remove =>
      match t.inside, t.memory.stack 0 with
      | none, .destroy timer .remove :: _ =>
          some { t with
            inside := some ⟨none, (removeStatements timer).andThen fun _ => .ret (.removed timer)⟩ }
      | _, _ => none
  | .statement => t.inside.bind (statement t.memory)
  | .other action =>
      if t.permits action then
        (Timer.step .nonZts t.memory action).map fun next => { t with memory := next }
      else
        none

def Reachable (t : Detailed) : Prop := Transition.Reachable step (· = initial) t

end Detailed

end Excimer.Timer

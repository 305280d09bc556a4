import Excimer.Lib.CircularList
import Excimer.Lib.Transition

/-!
The pending list of `excimer_timer.c`. The links are the `pending_next` and
`pending_prev` fields of every timer together with the `pending_head` of one
instance of the thread-local data. A dereference of a null pointer has no
result, so the specifications below also say that none happens.
-/

namespace Excimer.Timer

open CircularList

/-- The address of an `excimer_timer`. -/
abbrev TimerId := Nat

def listEnqueue (links : Links TimerId) (timer : TimerId) : Option (Links TimerId) :=
  if links.next timer = none then
    match links.head with
    | some head => do
        let links := links.setNext timer (some head)
        let links := links.setPrev timer (links.prev head)
        let last ← links.prev head
        let links := links.setNext last (some timer)
        return links.setPrev head (some timer)
    | none =>
        some (((links.setHead (some timer)).setNext timer (some timer)).setPrev timer
          (some timer))
  else
    some links

/-- Remove the first timer. The second component is the timer that the C
function stores through `timer_pp`, if it returns true. -/
def listDequeue (links : Links TimerId) : Option (Links TimerId × Option TimerId) :=
  match links.head with
  | none => some (links, none)
  | some timer => do
      let links ←
        if links.next timer = some timer then
          some (links.setHead none)
        else do
          let next ← links.next timer
          let links := links.setPrev next (links.prev timer)
          let prev ← links.prev timer
          let links := links.setNext prev (links.next timer)
          some (links.setHead (links.next timer))
      return ((links.setNext timer none).setPrev timer none, some timer)

def listRemove (links : Links TimerId) (timer : TimerId) : Option (Links TimerId) :=
  match links.next timer with
  | none => some links
  | some next => do
      let links ←
        if next = timer then
          some (links.setHead none)
        else do
          let links := links.setPrev next (links.prev timer)
          let prev ← links.prev timer
          let links := links.setNext prev (links.next timer)
          some (if links.head = some timer then links.setHead (links.next timer) else links)
      return (links.setNext timer none).setPrev timer none

/-- What enqueueing does to the list: a timer that is already there stays
where it is. -/
def enqueued (order : List TimerId) (timer : TimerId) : List TimerId :=
  if timer ∈ order then order else order ++ [timer]

@[simp] theorem mem_enqueued {order : List TimerId} {timer other : TimerId} :
    other ∈ enqueued order timer ↔ other ∈ order ∨ other = timer := by
  unfold enqueued
  split
  · constructor
    · exact Or.inl
    · rintro (h | rfl) <;> assumption
  · simp

variable {links : Links TimerId} {order : List TimerId}

theorem listEnqueue_spec (h : links.Represents order) (timer : TimerId) :
    ∃ after, listEnqueue links timer = some after ∧
      after.Represents (enqueued order timer) := by
  unfold listEnqueue enqueued
  by_cases hmem : timer ∈ order
  · refine ⟨links, ?_, by simpa [hmem] using h⟩
    rw [if_neg]
    rw [h.next_eq_none_iff timer]
    exact not_not_intro hmem
  · rw [if_pos ((h.next_eq_none_iff timer).mpr hmem), h.head_eq, if_neg hmem]
    cases order with
    | nil => exact ⟨_, rfl, h.insert_first timer⟩
    | cons first rest =>
        obtain ⟨last, hlast, hafter⟩ := h.insert_last hmem
        have hfirst : first ≠ timer := fun heq => hmem (by simp [heq])
        refine ⟨_, ?_, hafter⟩
        simp [hlast, hfirst]

theorem listDequeue_nil (h : links.Represents []) :
    listDequeue links = some (links, none) := by
  simp [listDequeue, h.head_eq]

theorem listDequeue_cons {first : TimerId} {rest : List TimerId}
    (h : links.Represents (first :: rest)) :
    ∃ after, listDequeue links = some (after, some first) ∧
      after.Represents rest := by
  have hself := h.next_self_iff (List.mem_cons_self (a := first) (l := rest))
  cases rest with
  | nil =>
      refine ⟨_, ?_, h.unlink_only⟩
      simp [listDequeue, h.head_eq, hself.mpr rfl]
  | cons second rest =>
      have hfront : links.Represents ([] ++ first :: second :: rest) := h
      obtain ⟨hnext, hprev, _⟩ := hfront.neighbours
      have hsome := List.getLast?_eq_getLast_of_ne_nil
        (List.cons_ne_nil first (second :: rest ++ []))
      rw [hsome] at hprev
      have hne : second ≠ first := by
        have hnodup := h.nodup
        simp only [List.nodup_cons, List.mem_cons, not_or] at hnodup
        exact fun heq => hnodup.1.1 heq.symm
      have hafter := h.unlink hnext hprev hne (some second) (by simp)
      rw [List.erase_cons_head] at hafter
      refine ⟨_, ?_, hafter⟩
      have hnext' : links.next first = some second := hnext
      simp [listDequeue, h.head_eq, hnext', hne, hprev]

/-- Removal deletes exactly the given timer, wherever it stands, and leaves a
list that does not contain it alone. -/
theorem listRemove_spec (h : links.Represents order) (timer : TimerId) :
    ∃ after, listRemove links timer = some after ∧
      after.Represents (order.erase timer) := by
  unfold listRemove
  cases hnext : links.next timer with
  | none =>
      refine ⟨links, rfl, ?_⟩
      rw [List.erase_of_not_mem ((h.next_eq_none_iff timer).mp hnext)]
      exact h
  | some next =>
      have hmem : timer ∈ order := (h.next_isSome_iff timer).mp (by simp [hnext])
      by_cases hself : next = timer
      · subst hself
        have halone := (h.next_self_iff hmem).mp hnext
        subst halone
        refine ⟨((links.setHead none).setNext next none).setPrev next none,
          by simp, ?_⟩
        simpa using h.unlink_only
      · have hprevSome : ∃ pred, links.prev timer = some pred := by
          obtain ⟨left, right, rfl⟩ := List.append_of_mem hmem
          rw [h.neighbours.2.1]
          exact ⟨_, List.getLast?_eq_getLast_of_ne_nil (List.cons_ne_nil _ _)⟩
        obtain ⟨pred, hpred⟩ := hprevSome
        -- The head moves on only when it was the removed timer itself.
        have hhead : (if links.head = some timer then some next else links.head) =
            (order.erase timer).head? := by
          cases order with
          | nil => simp at hmem
          | cons first rest =>
              by_cases hfirst : first = timer
              · subst hfirst
                have hfront : links.Represents ([] ++ first :: rest) := h
                have hfollow := hfront.neighbours.1
                rw [hnext] at hfollow
                simp only [h.head_eq, List.head?_cons, List.erase_cons_head, if_true]
                cases rest with
                | nil => exact absurd (by simpa using hfollow) hself
                | cons second rest => simpa using hfollow
              · rw [h.head_eq, List.erase_cons_tail (by simpa using hfirst)]
                simp [hfirst]
        refine ⟨_, ?_, h.unlink hnext hpred hself _ hhead⟩
        by_cases hfirst : links.head = some timer
        · simp [hself, hpred, hnext, hfirst]
        · simp [hself, hpred, hnext, hfirst]
          rfl

/-- A call of one of the three functions. -/
inductive ListCall where
  | enqueue (timer : TimerId)
  | dequeue
  | remove (timer : TimerId)
  deriving DecidableEq, Repr

namespace ListCall

/-- What a call does to the links, and the timer that it provides. -/
def perform (links : Links TimerId) : ListCall → Option (Links TimerId × Option TimerId)
  | .enqueue timer => (listEnqueue links timer).map fun after => (after, none)
  | .dequeue => listDequeue links
  | .remove timer => (listRemove links timer).map fun after => (after, none)

def step (links : Links TimerId) (call : ListCall) : Option (Links TimerId) :=
  (call.perform links).map Prod.fst

/-- The same call on a first-in, first-out queue without duplicates. -/
def fifo (order : List TimerId) : ListCall → List TimerId × Option TimerId
  | .enqueue timer => (enqueued order timer, none)
  | .dequeue => (order.tail, order.head?)
  | .remove timer => (order.erase timer, none)

/-- The queue after a sequence of calls. -/
def queue (calls : List ListCall) : List TimerId :=
  calls.foldl (fun order call => (call.fifo order).1) []

theorem perform_spec (h : links.Represents order) (call : ListCall) :
    ∃ after, call.perform links = some (after, (call.fifo order).2) ∧
      after.Represents (call.fifo order).1 := by
  cases call with
  | enqueue timer =>
      obtain ⟨after, henqueue, hafter⟩ := listEnqueue_spec h timer
      exact ⟨after, by rw [perform, henqueue]; rfl, hafter⟩
  | dequeue =>
      cases order with
      | nil => exact ⟨links, listDequeue_nil h, h⟩
      | cons first rest => exact listDequeue_cons h
  | remove timer =>
      obtain ⟨after, hremove, hafter⟩ := listRemove_spec h timer
      exact ⟨after, by rw [perform, hremove]; rfl, hafter⟩

theorem step_spec (h : links.Represents order) (call : ListCall) :
    ∃ after, step links call = some after ∧ after.Represents (call.fifo order).1 := by
  obtain ⟨after, hperform, hafter⟩ := perform_spec h call
  exact ⟨after, by rw [step, hperform]; rfl, hafter⟩

theorem run_spec (calls : List ListCall) :
    ∃ links, Transition.run step .empty calls = some links ∧ links.Represents (queue calls) :=
  Transition.run_simulates Links.Represents (fun _ _ call h => step_spec h call)
    Links.empty_represents calls

end ListCall

/-- What one finds by following the pointers: a cycle without repetitions that
contains the timers of the list in order, and the same cycle in reverse. -/
structure ReadsAs (links : Links TimerId) (order : List TimerId) : Prop where
  nodup : order.Nodup
  forward : ∀ count, Links.follow links.next count links.head = order[count % order.length]?
  backward : ∀ count,
    Links.follow links.prev (count + 1) links.head = order.reverse[count % order.length]?
  next_iff : ∀ timer, links.next timer ≠ none ↔ timer ∈ order
  prev_iff : ∀ timer, links.prev timer ≠ none ↔ timer ∈ order
  head_iff : links.head = none ↔ order = []

theorem readsAs_of_represents (h : links.Represents order) : ReadsAs links order where
  nodup := h.nodup
  forward := h.follow_next
  backward := h.follow_prev
  next_iff timer := by
    rw [← h.next_isSome_iff timer, Option.isSome_iff_ne_none]
  prev_iff timer := by
    rw [← h.prev_isSome_iff timer, Option.isSome_iff_ne_none]
  head_iff := by
    rw [h.head_eq, List.head?_eq_none_iff]

/-- The pending list is a first-in, first-out queue without duplicates. No
sequence of calls dereferences a null pointer. After it the pointers form one
cycle in both directions, and the next call does to the timers in the cycle, and
returns, what it does to the queue. A call that does not change the queue leaves
all pointers alone. -/
theorem pendingList_refines_fifo (calls : List ListCall) :
    ∃ links, Transition.run ListCall.step .empty calls = some links ∧
      ReadsAs links (ListCall.queue calls) ∧
      ∀ call : ListCall, ∃ after,
        call.perform links = some (after, (call.fifo (ListCall.queue calls)).2) ∧
        ReadsAs after (call.fifo (ListCall.queue calls)).1 ∧
        ((call.fifo (ListCall.queue calls)).1 = ListCall.queue calls → after = links) := by
  obtain ⟨links, hrun, hlinks⟩ := ListCall.run_spec calls
  refine ⟨links, hrun, readsAs_of_represents hlinks, fun call => ?_⟩
  obtain ⟨after, hperform, hafter⟩ := ListCall.perform_spec hlinks call
  refine ⟨after, hperform, readsAs_of_represents hafter, fun hsame => ?_⟩
  rw [hsame] at hafter
  exact hafter.unique hlinks

end Excimer.Timer

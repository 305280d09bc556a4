import Excimer.Log.Paths

/-!
Reading a log while it grows. An `ExcimerLog` object has a cursor of its own for
the methods of `Iterator`, every `foreach` loop has another one, and entries can
be read by their offset. A cursor creates the object for its current entry when
it is asked for it and keeps it in `z_current`. An event may add an entry between
any two calls.
-/

namespace Excimer

/-- `ExcimerLogEntry_obj`: the handle of a log object and an index. -/
structure LogEntry where
  log : Nat
  index : Int
  deriving DecidableEq, Repr

/-- `ExcimerLog_init_entry`. Without such an entry the result is null. -/
def LogEntry.init (log : Log) (handle : Nat) (index : Int) : Option LogEntry :=
  (log.getEntry index).map fun _ => ⟨handle, index⟩

/-- The index and the cache `z_current` of an `ExcimerLog` object or of an
`ExcimerLog_iterator`. -/
structure Cursor where
  index : Int
  zCurrent : Option LogEntry
  deriving DecidableEq, Repr

namespace Cursor

/-- A new cursor, made by `ExcimerLog_new` or `ExcimerLog_get_iterator`. -/
def start : Cursor := ⟨0, none⟩

/-- `ExcimerLog::rewind` and `ExcimerLog_iterator_rewind`. -/
def rewind (_ : Cursor) : Cursor := ⟨0, none⟩

/-- `ExcimerLog::next` and `ExcimerLog_iterator_move_forward`. -/
def next (cursor : Cursor) (log : Log) : Cursor where
  index := if cursor.index < log.getSize then cursor.index + 1 else cursor.index
  zCurrent := none

/-- `ExcimerLog::current` and `ExcimerLog_iterator_get_current_data`, which return
`z_current` after this. At the end of the log the second one returns a null
pointer instead of a null value. -/
def current (cursor : Cursor) (log : Log) (handle : Nat) : Cursor :=
  if cursor.zCurrent = none ∧ cursor.index < log.getSize then
    { cursor with zCurrent := LogEntry.init log handle cursor.index }
  else
    cursor

/-- `ExcimerLog::key` and `ExcimerLog_iterator_get_current_key`. -/
def key (cursor : Cursor) (log : Log) : Option Int :=
  if cursor.index < log.getSize then some cursor.index else none

/-- `ExcimerLog::valid` and `ExcimerLog_iterator_valid`. -/
def valid (cursor : Cursor) (log : Log) : Bool := decide (cursor.index < log.getSize)

/-- `ExcimerLog_iterator_invalidate_current` -/
def invalidateCurrent (cursor : Cursor) : Cursor := { cursor with zCurrent := none }

end Cursor

/-- Whose cursor it is. -/
inductive LogObject.Reader where
  /-- The methods of the log object. -/
  | methods
  /-- An iterator, by the number of its creation. -/
  | iterator (id : Nat)
  deriving DecidableEq, Repr

inductive LogObject.Operation where
  | rewind
  | next
  | current
  | key
  | valid
  /-- Only iterators have this operation. Nothing depends on that. -/
  | invalidateCurrent
  deriving DecidableEq, Repr

inductive LogObject.Call where
  /-- `excimer_log_add`, or a change of the depth limit. -/
  | log (action : Log.Action)
  | cursor (reader : LogObject.Reader) (operation : LogObject.Operation)
  /-- The start of a `foreach` loop. -/
  | getIterator (byRef : Bool)
  /-- `ExcimerLog_iterator_dtor` -/
  | dtor (id : Nat)
  | offsetGet (offset : Int)
  | offsetExists (offset : Int)
  | count

/-- What a call returns. -/
inductive LogObject.Answer where
  | void
  | bool (value : Bool)
  | index (value : Option Int)
  | entry (value : Option LogEntry)
  | count (value : Nat)
  deriving DecidableEq, Repr

/-- `ExcimerLog_obj` with the iterators over it. -/
structure LogObject where
  /-- The number that refers to this object. -/
  handle : Nat
  log : Log
  cursor : Cursor
  /-- Destroyed iterators leave a gap. -/
  iterators : List (Option Cursor)
  /-- The calls so far and what they returned, oldest first. -/
  answers : List (LogObject.Call × LogObject.Answer)

namespace LogObject

/-- `ExcimerLog_new` -/
def new (handle : Nat) (memory : Log) : LogObject where
  handle := handle
  log := Log.init memory
  cursor := .start
  iterators := []
  answers := []

/-- `ExcimerLog::count` -/
def count (obj : LogObject) : Nat := obj.log.getSize

/-- `ExcimerLog::offsetExists` -/
def offsetExists (obj : LogObject) (offset : Int) : Bool :=
  decide (offset ≥ 0 ∧ offset < obj.log.getSize)

/-- `ExcimerLog::offsetGet` -/
def offsetGet (obj : LogObject) (offset : Int) : Option LogEntry :=
  if offset < 0 ∨ offset ≥ obj.log.getSize then none
  else LogEntry.init obj.log obj.handle offset

def cursorOf (obj : LogObject) : Reader → Option Cursor
  | .methods => some obj.cursor
  | .iterator id => (obj.iterators[id]?).join

def withCursor (obj : LogObject) (cursor : Cursor) : Reader → LogObject
  | .methods => { obj with cursor := cursor }
  | .iterator id => { obj with iterators := obj.iterators.set id (some cursor) }

/-- The effect of an operation on its cursor, and what it returns. -/
def operate (obj : LogObject) (cursor : Cursor) : Operation → Cursor × Answer
  | .rewind => (cursor.rewind, .void)
  | .next => (cursor.next obj.log, .void)
  | .current =>
      let loaded := cursor.current obj.log obj.handle
      (loaded, .entry loaded.zCurrent)
  | .key => (cursor, .index (cursor.key obj.log))
  | .valid => (cursor, .bool (cursor.valid obj.log))
  | .invalidateCurrent => (cursor.invalidateCurrent, .void)

def perform (obj : LogObject) : Call → Option (LogObject × Answer)
  | .log action => (obj.log.step action).map fun log => ({ obj with log := log }, .void)
  | .cursor reader operation =>
      (obj.cursorOf reader).map fun cursor =>
        let (next, answer) := obj.operate cursor operation
        (obj.withCursor next reader, answer)
  | .getIterator byRef =>
      -- by reference, an exception is thrown instead
      if byRef then some (obj, .void)
      else some ({ obj with iterators := obj.iterators ++ [some .start] }, .void)
  | .dtor id =>
      (obj.cursorOf (.iterator id)).map fun _ =>
        ({ obj with iterators := obj.iterators.set id none }, .void)
  | .offsetGet offset => some (obj, .entry (obj.offsetGet offset))
  | .offsetExists offset => some (obj, .bool (obj.offsetExists offset))
  | .count => some (obj, .count obj.count)

def step (obj : LogObject) (call : Call) : Option LogObject :=
  (obj.perform call).map fun (next, answer) =>
    { next with answers := next.answers ++ [(call, answer)] }

section Effects

variable {obj next : LogObject} {call : Call} {answer : Answer} {reader : Reader} {cursor : Cursor}

theorem cursorOf_withCursor {other : Reader} {old : Cursor} (hold : obj.cursorOf other = some old) :
    (obj.withCursor cursor other).cursorOf reader =
      if reader = other then some cursor else obj.cursorOf reader := by
  cases other with
  | methods =>
      cases reader with
      | methods => rfl
      | iterator id => rfl
  | iterator other =>
      obtain ⟨hlt, -⟩ := List.getElem?_eq_some_iff.mp (Option.join_eq_some_iff.mp hold)
      cases reader with
      | methods => rfl
      | iterator id =>
          by_cases heq : id = other
          · subst heq
            simp [withCursor, cursorOf, hlt]
          · simp [withCursor, cursorOf, heq, Ne.symm heq]

/-- Where a cursor comes from that is there after a call. -/
inductive Origin (obj : LogObject) (call : Call) (answer : Answer) (reader : Reader)
    (cursor : Cursor) : Prop
  | kept (hold : obj.cursorOf reader = some cursor)
      (hother : ∀ operation, call ≠ .cursor reader operation)
  | operated {operation : Operation} {old : Cursor} (hcall : call = .cursor reader operation)
      (hold : obj.cursorOf reader = some old)
      (hoperate : obj.operate old operation = (cursor, answer))
  | created (hreader : reader = .iterator obj.iterators.length) (hstart : cursor = .start)

/-- Everything that a call can do. -/
structure Effect (obj next : LogObject) (call : Call) (answer : Answer) : Prop where
  handle : next.handle = obj.handle
  answers : next.answers = obj.answers ++ [(call, answer)]
  count_le : obj.count ≤ next.count
  iterators_le : obj.iterators.length ≤ next.iterators.length
  origin : ∀ reader cursor, next.cursorOf reader = some cursor →
    Origin obj call answer reader cursor
  answered : ∀ reader operation, call = .cursor reader operation →
    ∃ old, obj.cursorOf reader = some old ∧ (obj.operate old operation).2 = answer

theorem log_step_size {log next : Log} {action : Log.Action} (hstep : log.step action = some next) :
    log.getSize ≤ next.getSize := by
  cases action with
  | add stack eventCount timestamp =>
      obtain ⟨-, -, entry, hentries⟩ := Log.add_fields hstep
      simp [Log.getSize, hentries]
  | setMaxDepth depth =>
      obtain rfl := Option.some.inj hstep
      exact Nat.le_refl _

/-- A call that only returns something. -/
theorem Effect.silent (obj : LogObject)
    (hcall : ∀ reader operation, call ≠ .cursor reader operation) :
    Effect obj { obj with answers := obj.answers ++ [(call, answer)] } call answer where
  handle := rfl
  answers := rfl
  count_le := Nat.le_refl _
  iterators_le := Nat.le_refl _
  origin reader _ hcursor := .kept hcursor (hcall reader)
  answered reader operation heq := absurd heq (hcall reader operation)

/-- What an operation does to the cursor of its reader, and what it returns. -/
theorem Effect.operated {operation : Operation}
    (heffect : Effect obj next (.cursor reader operation) answer) :
    ∃ old, obj.cursorOf reader = some old ∧ answer = (obj.operate old operation).2 ∧
      ∀ cursor, next.cursorOf reader = some cursor → cursor = (obj.operate old operation).1 := by
  obtain ⟨old, hold, hanswer⟩ := heffect.answered reader operation rfl
  refine ⟨old, hold, hanswer.symm, fun cursor hcursor => ?_⟩
  cases heffect.origin reader cursor hcursor with
  | kept _ hother => exact absurd rfl (hother operation)
  | operated hcall hfound hoperate =>
      obtain ⟨-, rfl⟩ := Call.cursor.inj hcall
      obtain rfl := Option.some.inj (hold.symm.trans hfound)
      rw [hoperate]
  | created hreader =>
      subst hreader
      simp [cursorOf] at hold

theorem operate_effect {operation : Operation} (hold : obj.cursorOf reader = some cursor) :
    Effect obj
      { obj.withCursor (obj.operate cursor operation).1 reader with
        answers := (obj.withCursor (obj.operate cursor operation).1 reader).answers ++
          [(.cursor reader operation, (obj.operate cursor operation).2)] }
      (.cursor reader operation) (obj.operate cursor operation).2 where
  handle := by cases reader <;> rfl
  answers := by cases reader <;> rfl
  count_le := by cases reader <;> exact Nat.le_refl _
  iterators_le := by
    cases reader with
    | methods => exact Nat.le_refl _
    | iterator id => simp [withCursor]
  origin other found hcursor := by
    have hfound : (obj.withCursor (obj.operate cursor operation).1 reader).cursorOf other =
        some found := hcursor
    rw [cursorOf_withCursor hold] at hfound
    split at hfound
    next heq =>
      subst heq
      obtain rfl := Option.some.inj hfound
      exact .operated rfl hold rfl
    next hne => exact .kept hfound (by simp [Ne.symm hne])
  answered other operation hcall := by
    obtain ⟨rfl, rfl⟩ := Call.cursor.inj hcall
    exact ⟨cursor, hold, rfl⟩

/-- `getIterator` adds a cursor at the start, under the next number. -/
theorem cursorOf_getIterator
    (hcursor : cursorOf { obj with iterators := obj.iterators ++ [some .start] } reader =
      some cursor) :
    obj.cursorOf reader = some cursor ∨
      reader = .iterator obj.iterators.length ∧ cursor = .start := by
  cases reader with
  | methods => exact Or.inl hcursor
  | iterator id =>
      have hfound : ((obj.iterators ++ [some Cursor.start])[id]?).join = some cursor := hcursor
      by_cases hlt : id < obj.iterators.length
      · rw [List.getElem?_append_left hlt] at hfound
        exact Or.inl hfound
      · have hget := Option.join_eq_some_iff.mp hfound
        rw [List.getElem?_append_right (Nat.le_of_not_lt hlt)] at hget
        obtain ⟨hbound, hstart⟩ := List.getElem?_eq_some_iff.mp hget
        obtain rfl : id = obj.iterators.length := by
          rw [List.length_singleton] at hbound
          omega
        exact Or.inr ⟨rfl, by simpa using hstart.symm⟩

/-- The destructor of an iterator takes no other cursor away. -/
theorem cursorOf_dtor {id : Nat}
    (hcursor : cursorOf { obj with iterators := obj.iterators.set id none } reader =
      some cursor) : obj.cursorOf reader = some cursor := by
  cases reader with
  | methods => exact hcursor
  | iterator other =>
      have hfound : ((obj.iterators.set id none)[other]?).join = some cursor := hcursor
      rw [List.getElem?_set] at hfound
      split at hfound
      · split at hfound <;> cases hfound
      · exact hfound

theorem step_effect (hstep : step obj call = some next) :
    ∃ answer, Effect obj next call answer := by
  obtain ⟨⟨mid, answer⟩, hperform, rfl⟩ := Option.map_eq_some_iff.mp hstep
  refine ⟨answer, ?_⟩
  cases call with
  | log action =>
      obtain ⟨log, hlog, hpair⟩ := Option.map_eq_some_iff.mp hperform
      obtain ⟨rfl, rfl⟩ := Prod.mk.inj hpair
      exact ⟨rfl, rfl, log_step_size hlog, Nat.le_refl _, fun reader cursor hcursor =>
        .kept hcursor (by simp), by simp⟩
  | cursor reader operation =>
      obtain ⟨old, hold, hpair⟩ := Option.map_eq_some_iff.mp hperform
      obtain ⟨rfl, rfl⟩ := Prod.mk.inj hpair
      exact operate_effect hold
  | getIterator byRef =>
      cases byRef with
      | true =>
          obtain ⟨rfl, rfl⟩ := Prod.mk.inj (Option.some.inj hperform)
          exact .silent obj (by simp)
      | false =>
          obtain ⟨rfl, rfl⟩ := Prod.mk.inj (Option.some.inj hperform)
          refine ⟨rfl, rfl, Nat.le_refl _, by simp, fun reader cursor hcursor => ?_, by simp⟩
          have hfound : obj.cursorOf reader = some cursor ∨ _ := cursorOf_getIterator hcursor
          rcases hfound with hold | ⟨hreader, hstart⟩
          · exact .kept hold (by simp)
          · exact .created hreader hstart
  | dtor id =>
      obtain ⟨old, hold, hpair⟩ := Option.map_eq_some_iff.mp hperform
      obtain ⟨rfl, rfl⟩ := Prod.mk.inj hpair
      exact ⟨rfl, rfl, Nat.le_refl _, by simp, fun reader cursor hcursor =>
        .kept (cursorOf_dtor hcursor) (by simp), by simp⟩
  | offsetGet offset =>
      obtain ⟨rfl, rfl⟩ := Prod.mk.inj (Option.some.inj hperform)
      exact .silent obj (by simp)
  | offsetExists offset =>
      obtain ⟨rfl, rfl⟩ := Prod.mk.inj (Option.some.inj hperform)
      exact .silent obj (by simp)
  | count =>
      obtain ⟨rfl, rfl⟩ := Prod.mk.inj (Option.some.inj hperform)
      exact .silent obj (by simp)

end Effects

section Invariant

variable {obj next : LogObject} {cursor : Cursor}

/-- The index is in range, and the cache is empty or holds the entry at the index. -/
structure Sound (obj : LogObject) (cursor : Cursor) : Prop where
  nonneg : 0 ≤ cursor.index
  le_count : cursor.index ≤ obj.count
  cached : ∀ entry, cursor.zCurrent = some entry →
    entry = ⟨obj.handle, cursor.index⟩ ∧ cursor.index < obj.count

theorem start_sound (obj : LogObject) : Sound obj .start where
  nonneg := by decide
  le_count := by simp [Cursor.start]
  cached entry hentry := by cases hentry

theorem Sound.mono (hsound : Sound obj cursor) (hhandle : next.handle = obj.handle)
    (hcount : obj.count ≤ next.count) : Sound next cursor where
  nonneg := hsound.nonneg
  le_count := by
    have := hsound.le_count
    omega
  cached entry hentry := by
    obtain ⟨heq, hlt⟩ := hsound.cached entry hentry
    exact ⟨hhandle ▸ heq, by omega⟩

theorem init_eq (obj : LogObject) {index : Int} (hnonneg : 0 ≤ index) (hlt : index < obj.count) :
    LogEntry.init obj.log obj.handle index = some ⟨obj.handle, index⟩ := by
  have hbound : index.toNat < obj.log.entries.length := by
    simp only [count, Log.getSize] at hlt
    omega
  have hrange : index ≥ 0 ∧ index < obj.log.entries.length := ⟨hnonneg, hlt⟩
  rw [LogEntry.init, Log.getEntry, if_pos hrange, List.getElem?_eq_getElem hbound, Option.map_some]

/-- What `current` leaves in the cache. -/
theorem Sound.current_zCurrent (hsound : Sound obj cursor) :
    (cursor.current obj.log obj.handle).zCurrent =
      if cursor.index < obj.count then some ⟨obj.handle, cursor.index⟩ else none := by
  unfold Cursor.current
  by_cases hlt : cursor.index < obj.count
  · rw [if_pos hlt]
    cases hcache : cursor.zCurrent with
    | none =>
        rw [if_pos ⟨rfl, hlt⟩]
        exact init_eq obj hsound.nonneg hlt
    | some entry =>
        rw [if_neg (by simp)]
        rw [hcache, (hsound.cached entry hcache).1]
  · have hend : ¬(cursor.zCurrent = none ∧ cursor.index < obj.log.getSize) := fun h => hlt h.2
    rw [if_neg hlt, if_neg hend]
    cases hcache : cursor.zCurrent with
    | none => rfl
    | some entry => exact absurd (hsound.cached entry hcache).2 hlt

theorem current_index (cursor : Cursor) (log : Log) (handle : Nat) :
    (cursor.current log handle).index = cursor.index := by
  unfold Cursor.current
  split <;> rfl

theorem Sound.operate (hsound : Sound obj cursor) (operation : Operation) :
    Sound obj (obj.operate cursor operation).1 := by
  obtain ⟨hnonneg, hle, hcached⟩ := hsound
  cases operation with
  | rewind => exact start_sound obj
  | next =>
      have hcount : obj.count = obj.log.getSize := rfl
      refine ⟨?_, ?_, fun entry hentry => by cases hentry⟩
      · simp only [LogObject.operate, Cursor.next]
        split <;> omega
      · simp only [LogObject.operate, Cursor.next]
        split <;> omega
  | current =>
      have hindex := current_index cursor obj.log obj.handle
      have hloaded := Sound.current_zCurrent ⟨hnonneg, hle, hcached⟩
      refine ⟨hindex ▸ hnonneg, hindex ▸ hle, fun entry hentry => ?_⟩
      rw [LogObject.operate, hloaded] at hentry
      split at hentry
      next hlt =>
        refine ⟨?_, hindex ▸ hlt⟩
        rw [LogObject.operate, hindex]
        exact (Option.some.inj hentry).symm
      next => cases hentry
  | key => exact ⟨hnonneg, hle, hcached⟩
  | valid => exact ⟨hnonneg, hle, hcached⟩
  | invalidateCurrent => exact ⟨hnonneg, hle, fun entry hentry => by cases hentry⟩

/-- The invariant of the object: all its cursors are sound. -/
def Inv (obj : LogObject) : Prop :=
  ∀ reader cursor, obj.cursorOf reader = some cursor → Sound obj cursor

theorem new_inv (handle : Nat) (memory : Log) : Inv (new handle memory) := by
  intro reader cursor hcursor
  cases reader with
  | methods =>
      obtain rfl := Option.some.inj hcursor
      exact start_sound _
  | iterator id => simp [new, cursorOf] at hcursor

theorem step_inv {call : Call} (hinv : Inv obj) (hstep : step obj call = some next) : Inv next := by
  obtain ⟨answer, heffect⟩ := step_effect hstep
  intro reader cursor hcursor
  refine Sound.mono ?_ heffect.handle heffect.count_le
  cases heffect.origin reader cursor hcursor with
  | kept hold => exact hinv reader cursor hold
  | @operated operation old _ hold hoperate =>
      have hsound := (hinv reader old hold).operate operation
      rw [hoperate] at hsound
      exact hsound
  | created _ hstart => exact hstart ▸ start_sound obj

end Invariant

section Traversal

/-- The place in a loop that calls `valid`, `current` and `next` in turn. -/
inductive Stage where
  | idle
  | ready
  | read
  deriving DecidableEq, Repr

/-- Such a loop, with what `current` has returned so far. -/
structure Walk where
  entries : List (Option LogEntry)
  stage : Stage
  deriving DecidableEq, Repr

namespace Walk

def start : Walk := ⟨[], .idle⟩

/-- One more call. The loop ends as soon as `valid` returns false. -/
def step : Walk → Operation × Answer → Option Walk
  | ⟨entries, .idle⟩, (.valid, .bool true) => some ⟨entries, .ready⟩
  | ⟨entries, .ready⟩, (.current, .entry entry) => some ⟨entries ++ [entry], .read⟩
  | ⟨entries, .read⟩, (.next, .void) => some ⟨entries, .idle⟩
  | _, _ => none

end Walk

/-- The calls that a reader has made, without those that only show or drop what
the cursor holds. -/
def observed (reader : Reader) (answers : List (Call × Answer)) : List (Operation × Answer) :=
  answers.filterMap fun (call, answer) =>
    match call with
    | .cursor other operation =>
        if other = reader ∧ operation ≠ .key ∧ operation ≠ .invalidateCurrent then
          some (operation, answer)
        else
          none
    | _ => none

/-- The index of a cursor in the stages of a loop. -/
def Position (obj : LogObject) (cursor : Cursor) : Walk → Prop
  | ⟨entries, .idle⟩ => cursor.index = entries.length
  | ⟨entries, .ready⟩ => cursor.index = entries.length ∧ cursor.index < obj.count
  | ⟨entries, .read⟩ => cursor.index + 1 = entries.length ∧ cursor.index < obj.count

/-- The loop has seen the entries from the first one on, each once. -/
structure Follows (obj : LogObject) (reader : Reader) (walk : Walk) : Prop where
  entries : walk.entries = (List.range walk.entries.length).map fun i => some ⟨obj.handle, i⟩
  position : ∀ cursor, obj.cursorOf reader = some cursor → Position obj cursor walk
  known : ∀ id, reader = .iterator id → id < obj.iterators.length

variable {obj next : LogObject} {call : Call} {answer : Answer} {reader : Reader}
  {walk after : Walk}

theorem Position.mono {cursor : Cursor} (hposition : Position obj cursor walk)
    (hcount : obj.count ≤ next.count) : Position next cursor walk := by
  obtain ⟨entries, stage⟩ := walk
  cases stage with
  | idle => exact hposition
  | ready => exact ⟨hposition.1, by have := hposition.2; omega⟩
  | read => exact ⟨hposition.1, by have := hposition.2; omega⟩

theorem run_answers {calls : List Call}
    (hrun : Transition.run LogObject.step obj calls = some next) :
    ∃ new, next.answers = obj.answers ++ new := by
  refine Transition.run_invariant (fun mid => ∃ new, mid.answers = obj.answers ++ new) ?_
    ⟨[], (List.append_nil _).symm⟩ hrun
  rintro mid call last ⟨new, hnew⟩ hstep
  obtain ⟨answer, heffect⟩ := step_effect hstep
  exact ⟨new ++ [(call, answer)], by rw [heffect.answers, hnew, List.append_assoc]⟩

theorem run_handle {calls : List Call}
    (hrun : Transition.run LogObject.step obj calls = some next) :
    next.handle = obj.handle := by
  refine Transition.run_invariant (fun mid => mid.handle = obj.handle) ?_ rfl hrun
  intro mid call last hhandle hstep
  obtain ⟨answer, heffect⟩ := step_effect hstep
  exact heffect.handle.trans hhandle

/-- A loop starts with a rewind. -/
theorem rewound_follows (heffect : Effect obj next (.cursor reader .rewind) answer) :
    Follows next reader .start := by
  obtain ⟨old, hold, -, hcursor⟩ := heffect.operated
  refine ⟨rfl, fun cursor hfound => ?_, fun id hid => ?_⟩
  · rw [hcursor cursor hfound]
    rfl
  · subst hid
    obtain ⟨hlt, -⟩ := List.getElem?_eq_some_iff.mp (Option.join_eq_some_iff.mp hold)
    exact Nat.lt_of_lt_of_le hlt heffect.iterators_le

/-- A call that the loop does not consist of leaves it where it is. -/
theorem Follows.skip (hfollows : Follows obj reader walk) (heffect : Effect obj next call answer)
    (hskip : ∀ operation, call = .cursor reader operation →
      operation = .key ∨ operation = .invalidateCurrent) : Follows next reader walk := by
  refine ⟨heffect.handle ▸ hfollows.entries, fun cursor hcursor => ?_, fun id hid => ?_⟩
  · refine Position.mono ?_ heffect.count_le
    cases heffect.origin reader cursor hcursor with
    | kept hold => exact hfollows.position cursor hold
    | @operated operation old hcall hold hoperate =>
        have hposition := hfollows.position old hold
        have hindex : cursor.index = old.index := by
          rw [← (Prod.mk.inj hoperate).1]
          rcases hskip operation hcall with rfl | rfl <;> rfl
        obtain ⟨entries, stage⟩ := walk
        cases stage with
        | idle => exact hindex.trans hposition
        | ready => exact ⟨hindex.trans hposition.1, hindex ▸ hposition.2⟩
        | read => exact ⟨hindex ▸ hposition.1, hindex ▸ hposition.2⟩
    | created hreader => exact absurd (hfollows.known _ hreader) (Nat.lt_irrefl _)
  · exact Nat.lt_of_lt_of_le (hfollows.known id hid) heffect.iterators_le

/-- The loop makes its next call. -/
theorem Follows.advance (hinv : Inv obj) (hfollows : Follows obj reader walk)
    {operation : Operation} (heffect : Effect obj next (.cursor reader operation) answer)
    (hwalk : walk.step (operation, answer) = some after) : Follows next reader after := by
  obtain ⟨old, hold, hanswer, hcursor⟩ := heffect.operated
  obtain ⟨hentries, hposition, hknown⟩ := hfollows
  have hknown' : ∀ id, reader = .iterator id → id < next.iterators.length := fun id hid =>
    Nat.lt_of_lt_of_le (hknown id hid) heffect.iterators_le
  have hold' := hposition old hold
  have hcount : obj.count = obj.log.getSize := rfl
  unfold Walk.step at hwalk
  split at hwalk
  next entries heq =>
    obtain ⟨rfl, rfl⟩ := Prod.mk.inj heq
    obtain rfl := Option.some.inj hwalk
    have hvalid : old.index < obj.count := of_decide_eq_true (Answer.bool.inj hanswer).symm
    refine ⟨heffect.handle ▸ hentries, fun cursor hfound => ?_, hknown'⟩
    obtain rfl := hcursor cursor hfound
    exact Position.mono ⟨hold', hvalid⟩ heffect.count_le
  next entries entry heq =>
    obtain ⟨rfl, rfl⟩ := Prod.mk.inj heq
    obtain rfl := Option.some.inj hwalk
    obtain ⟨hindex, hlt⟩ := hold'
    have hentry : entry = some ⟨obj.handle, entries.length⟩ := by
      have hloaded := (hinv reader old hold).current_zCurrent
      rw [if_pos hlt, hindex] at hloaded
      exact (Answer.entry.inj hanswer).trans hloaded
    refine ⟨?_, fun cursor hfound => ?_, hknown'⟩
    · rw [heffect.handle, hentry]
      simp only at hentries
      rw [List.length_append, List.length_singleton, List.range_succ, List.map_append, ← hentries]
      rfl
    · obtain rfl := hcursor cursor hfound
      have hsame := current_index old obj.log obj.handle
      have hread : Position obj (old.current obj.log obj.handle) ⟨entries ++ [entry], .read⟩ := by
        refine ⟨?_, by omega⟩
        rw [List.length_append, List.length_singleton]
        omega
      exact hread.mono heffect.count_le
  next entries heq =>
    obtain ⟨rfl, rfl⟩ := Prod.mk.inj heq
    obtain rfl := Option.some.inj hwalk
    refine ⟨heffect.handle ▸ hentries, fun cursor hfound => ?_, hknown'⟩
    obtain rfl := hcursor cursor hfound
    obtain ⟨hindex, hlt⟩ := hold'
    -- the entry that was read is still there, so the index moves on
    have hmoved : (old.next obj.log).index = old.index + 1 := if_pos hlt
    exact hmoved.trans hindex
  next => cases hwalk

theorem observed_append (reader : Reader) (first second : List (Call × Answer)) :
    observed reader (first ++ second) = observed reader first ++ observed reader second :=
  List.filterMap_append

theorem Follows.step (hinv : Inv obj) (hfollows : Follows obj reader walk)
    (heffect : Effect obj next call answer)
    (hwalk : Transition.run Walk.step walk (observed reader [(call, answer)]) = some after) :
    Follows next reader after := by
  by_cases hcall : ∃ operation, call = .cursor reader operation ∧ operation ≠ .key ∧
      operation ≠ .invalidateCurrent
  · obtain ⟨operation, rfl, hkey, hinvalidate⟩ := hcall
    have hone : observed reader [(.cursor reader operation, answer)] = [(operation, answer)] := by
      simp [observed, hkey, hinvalidate]
    rw [hone] at hwalk
    obtain ⟨mid, hmid, hnil⟩ := Transition.run_cons hwalk
    obtain rfl := Option.some.inj hnil
    exact hfollows.advance hinv heffect hmid
  · have hskip : ∀ operation, call = .cursor reader operation →
        operation = .key ∨ operation = .invalidateCurrent := by
      intro operation heq
      by_contra hneither
      exact hcall ⟨operation, heq, not_or.mp hneither⟩
    have hnone : observed reader [(call, answer)] = [] := by
      rw [observed, List.filterMap_cons_none, List.filterMap_nil]
      cases call with
      | cursor other operation =>
          simp only [ite_eq_right_iff, reduceCtorEq, imp_false]
          rintro ⟨rfl, hkey, hinvalidate⟩
          exact hcall ⟨operation, rfl, hkey, hinvalidate⟩
      | _ => rfl
    rw [hnone] at hwalk
    obtain rfl := Option.some.inj hwalk
    exact hfollows.skip heffect hskip

/-- A whole loop, with any other calls in between. -/
theorem Follows.run {calls : List Call} {new : List (Call × Answer)} (hinv : Inv obj)
    (hfollows : Follows obj reader walk)
    (hrun : Transition.run LogObject.step obj calls = some next)
    (hanswers : next.answers = obj.answers ++ new)
    (hwalk : Transition.run Walk.step walk (observed reader new) = some after) :
    Follows next reader after := by
  induction calls generalizing obj walk new with
  | nil =>
      obtain rfl := Option.some.inj hrun
      obtain rfl : new = [] := by simpa using hanswers
      obtain rfl := Option.some.inj hwalk
      exact hfollows
  | cons call rest ih =>
      obtain ⟨mid, hstep, hrest⟩ := Transition.run_cons hrun
      obtain ⟨answer, heffect⟩ := step_effect hstep
      obtain ⟨later, hlater⟩ := run_answers hrest
      obtain rfl : new = [(call, answer)] ++ later := by
        rw [hlater, heffect.answers, List.append_assoc] at hanswers
        exact (List.append_cancel_left hanswers).symm
      rw [observed_append, Transition.run_append] at hwalk
      obtain ⟨between, hfirst, hsecond⟩ := Option.bind_eq_some_iff.mp hwalk
      exact ih (step_inv hinv hstep) (hfollows.step hinv heffect hfirst) hrest hlater hsecond

end Traversal

/-- The ways of reading agree on a cursor. -/
structure Agrees (obj : LogObject) (cursor : Cursor) : Prop where
  cached : ∀ entry, cursor.zCurrent = some entry → entry = ⟨obj.handle, cursor.index⟩
  valid_key : cursor.valid obj.log = true ↔ cursor.key obj.log ≠ none
  valid_current : cursor.valid obj.log = true ↔
    (cursor.current obj.log obj.handle).zCurrent ≠ none
  same_entry : ∀ key, cursor.key obj.log = some key →
    (cursor.current obj.log obj.handle).zCurrent = obj.offsetGet key ∧
      obj.offsetExists key = true
  nonneg : 0 ≤ cursor.index
  le_count : cursor.index ≤ obj.count

theorem Sound.agrees {obj : LogObject} {cursor : Cursor} (hsound : Sound obj cursor) :
    Agrees obj cursor := by
  have hloaded := hsound.current_zCurrent
  have hcount : obj.count = obj.log.getSize := rfl
  refine ⟨fun entry hentry => (hsound.cached entry hentry).1, ?_, ?_, ?_, hsound.nonneg,
    hsound.le_count⟩
  · simp [Cursor.valid, Cursor.key]
  · rw [hloaded, hcount]
    simp [Cursor.valid]
  · intro key hkey
    simp only [Cursor.key, Option.ite_none_right_eq_some, Option.some.injEq] at hkey
    obtain ⟨hlt, rfl⟩ := hkey
    have hnonneg := hsound.nonneg
    constructor
    · rw [hloaded, hcount, if_pos hlt, offsetGet, if_neg (by omega), init_eq obj hnonneg hlt]
    · simp [offsetExists, hnonneg, hlt]

theorem offsetGet_isSome (obj : LogObject) (offset : Int) :
    (obj.offsetGet offset).isSome = obj.offsetExists offset := by
  unfold offsetGet offsetExists
  by_cases hrange : offset ≥ 0 ∧ offset < obj.log.getSize
  · rw [if_neg (by omega), init_eq obj hrange.1 hrange.2, decide_eq_true hrange]
    rfl
  · rw [if_pos (by omega), decide_eq_false hrange]
    rfl

/-- However a log grows between the calls, its own cursor, the iterators over it
and the access by offset agree, and a loop over it sees the entries from the first
one on, each once, until `valid` finds that there are no more. -/
theorem readers_agree {handle : Nat} {memory : Log} {calls : List Call} {obj : LogObject}
    (hrun : Transition.run step (new handle memory) calls = some obj) :
    (∀ reader cursor, obj.cursorOf reader = some cursor → Agrees obj cursor) ∧
      (∀ offset, (obj.offsetGet offset).isSome = obj.offsetExists offset) ∧
      ∀ reader more after walk,
        Transition.run step obj (.cursor reader .rewind :: more) = some after →
        Transition.run Walk.step .start
          (observed reader (after.answers.drop (obj.answers.length + 1))) = some walk →
        walk.entries = ((List.range walk.entries.length).map fun i => some ⟨obj.handle, i⟩) ∧
          (walk.stage = .idle → ∀ cursor, after.cursorOf reader = some cursor →
            cursor.index = walk.entries.length ∧
            (cursor.valid after.log = false ↔ walk.entries.length = after.count)) := by
  have hinv : Inv obj :=
    Transition.run_invariant Inv (fun _ _ _ => step_inv) (new_inv handle memory) hrun
  refine ⟨fun reader cursor hcursor => (hinv reader cursor hcursor).agrees,
    offsetGet_isSome obj, ?_⟩
  intro reader more after walk hmore hwalk
  obtain ⟨rewound, hstep, hrest⟩ := Transition.run_cons hmore
  obtain ⟨answer, heffect⟩ := step_effect hstep
  have hrewound : Follows rewound reader .start := rewound_follows heffect
  obtain ⟨later, hlater⟩ := run_answers hrest
  have hsince : after.answers.drop (obj.answers.length + 1) = later := by
    rw [hlater, heffect.answers]
    simp
  rw [hsince] at hwalk
  have hinv' := step_inv hinv hstep
  have hfollows := hrewound.run hinv' hrest hlater hwalk
  have hinvAfter : Inv after := Transition.run_invariant Inv (fun _ _ _ => step_inv) hinv' hrest
  obtain ⟨entries, stage⟩ := walk
  refine ⟨?_, ?_⟩
  · have hhandle : after.handle = obj.handle := (run_handle hrest).trans heffect.handle
    rw [← hhandle]
    exact hfollows.entries
  · rintro rfl cursor hcursor
    have hindex : cursor.index = entries.length := hfollows.position cursor hcursor
    have hle := (hinvAfter reader cursor hcursor).le_count
    refine ⟨hindex, ?_⟩
    have hcount : after.count = after.log.getSize := rfl
    simp only [Cursor.valid, decide_eq_false_iff_not]
    omega

/-- A log with one entry and an iterator over it. -/
def oneEntry : List Call :=
  [.log (.add [Log.plainCall (Bytes.ofString "f") 3] 1 10), .getIterator false]

/-- A loop that finds a second entry, which is added while it handles the first
one. The iterator moves in between. -/
def growingLoop : List Call :=
  [.cursor .methods .valid, .cursor .methods .current,
   .log (.add [Log.plainCall (Bytes.ofString "g") 5] 1 20), .cursor (.iterator 0) .next,
   .cursor .methods .next, .cursor .methods .valid, .cursor .methods .key,
   .cursor .methods .current, .cursor .methods .next]

theorem readers_agree_growingLoop :
    ∃ obj after, Transition.run step (new 4 Log.zero) oneEntry = some obj ∧
      Transition.run step obj (.cursor .methods .rewind :: growingLoop) = some after ∧
      after.count = 2 ∧ ∀ cursor, after.cursorOf .methods = some cursor →
        cursor.index = 2 ∧ cursor.valid after.log = false := by
  obtain ⟨obj, hrun, hcheck⟩ := Transition.run_check step (new 4 Log.zero) oneEntry
    (fun obj : LogObject =>
      (Transition.run step obj (.cursor .methods .rewind :: growingLoop)).any
        fun after : LogObject =>
      decide (after.count = 2 ∧ Transition.run Walk.step .start
        (observed .methods (after.answers.drop (obj.answers.length + 1))) =
          some ⟨[some ⟨4, 0⟩, some ⟨4, 1⟩], .idle⟩)) (by decide)
  obtain ⟨after, hmore, hfinal⟩ := Transition.run_check step obj _ _ hcheck
  obtain ⟨hcount, hwalk⟩ := of_decide_eq_true hfinal
  obtain ⟨-, -, hloop⟩ := readers_agree hrun
  obtain ⟨-, hidle⟩ := hloop .methods growingLoop after _ hmore hwalk
  refine ⟨obj, after, hrun, hmore, hcount, fun cursor hcursor => ?_⟩
  obtain ⟨hindex, hvalid⟩ := hidle rfl cursor hcursor
  exact ⟨hindex, hvalid.mpr hcount.symm⟩

end LogObject

end Excimer

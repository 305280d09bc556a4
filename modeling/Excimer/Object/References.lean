import Excimer.Lib.References
import Excimer.Lib.Transition
import Excimer.Object.Basic

/-!
The references that an `ExcimerProfiler` or an `ExcimerTimer` holds to its
callback. The callback is a value of the engine with a reference count, to which
other code may hold references as well. A method is one step: the destructor of a
value that is released calls no method of the same object.
-/

namespace Excimer.Object

open References

/-- `z_callback` -/
inductive Zval where
  | undef
  | null
  | value (function : Nat)
  deriving DecidableEq, Repr

/-- The counted values that a zval refers to. -/
def Zval.refs : Zval → List Nat
  | .undef | .null => []
  | .value function => [function]

/-- An object with its callback and the reference counts of all values. -/
structure Holder where
  kind : Kind
  zCallback : Zval
  maxSamples : Int
  /-- `free_object` has been called. -/
  freed : Bool
  refcount : Nat → Int
  /-- The references that other code holds. -/
  others : Nat → Int
  warnings : List String

namespace Holder

inductive Action where
  | setFlushCallback (value : Value) (maxSamples : Int)
  | clearFlushCallback
  | setCallback (value : Value)
  | freeObject
  /-- Other code takes a reference to a value. -/
  | retain (function : Nat)
  | release (function : Nat)

/-- `ExcimerTimer_new` and `ExcimerProfiler_new`. -/
def new (kind : Kind) (others : Nat → Int) : Holder where
  kind := kind
  zCallback :=
    match kind with
    | .timer => .undef
    | .profiler => .null
  maxSamples := 0
  freed := false
  refcount := others
  others := others
  warnings := []

def warn (s : Holder) (message : String) : Holder :=
  { s with warnings := s.warnings ++ [message] }

/-- `ZVAL_COPY` to `z_callback`. -/
def zvalCopy (s : Holder) (function : Nat) : Holder :=
  { s with zCallback := .value function, refcount := References.retain s.refcount [function] }

/-- `zval_ptr_dtor` of `z_callback`, followed by an assignment to it. -/
def zvalReset (s : Holder) (zval : Zval) : Holder :=
  { s with zCallback := zval, refcount := References.release s.refcount s.zCallback.refs }

/-- `ExcimerProfiler::setFlushCallback` -/
def setFlushCallback (s : Holder) (maxSamples : Int) : Value → Holder
  | .callable function => { s.zvalCopy function with maxSamples := maxSamples }
  | .null => s.warn "flush callback is not callable: no array or string given"
  | .other error => s.warn ("flush callback is not callable: " ++ error)

/-- `ExcimerProfiler::clearFlushCallback` -/
def clearFlushCallback (s : Holder) : Holder :=
  { s.zvalReset .null with maxSamples := 0 }

/-- `ExcimerTimer_set_callback`. The old value stays in `z_callback` until it is
overwritten. -/
def timerSetCallback (s : Holder) : Value → Holder
  | .callable function => (s.zvalReset s.zCallback).zvalCopy function
  | .null => s.warn "timer callback is not callable: no array or string given"
  | .other error => s.warn ("timer callback is not callable: " ++ error)

/-- `ExcimerTimer::setCallback` -/
def setCallback (s : Holder) (value : Value) : Holder :=
  if value = .null then s.zvalReset .null else s.timerSetCallback value

/-- `ExcimerProfiler_free_object` and `ExcimerTimer_free_object`. -/
def freeObject (s : Holder) : Holder :=
  { s.zvalReset .undef with freed := true }

/-- A method of a class, called on an object that has not been freed. -/
def method (s : Holder) (kind : Kind) (next : Holder) : Option Holder :=
  if s.freed = false ∧ s.kind = kind then some next else none

def step (s : Holder) : Action → Option Holder
  | .setFlushCallback value maxSamples => s.method .profiler (s.setFlushCallback maxSamples value)
  | .clearFlushCallback => s.method .profiler s.clearFlushCallback
  | .setCallback value => s.method .timer (s.setCallback value)
  | .freeObject => s.method s.kind s.freeObject
  | .retain function =>
      some { s with
        refcount := References.retain s.refcount [function]
        others := References.retain s.others [function] }
  | .release function =>
      if 0 < s.others function then
        some { s with
          refcount := References.release s.refcount [function]
          others := References.release s.others [function] }
      else
        none

/-- The object holds one reference to its callback, or none after it was freed,
and no other one. -/
structure Sound (s : Holder) : Prop where
  balanced : Balanced s.refcount s.others s.zCallback.refs
  freed : s.freed = true → s.refcount = s.others

/-- A flush callback is set only while there is none. -/
def Vacant (s : Holder) : Action → Prop
  | .setFlushCallback (.callable _) _ => s.zCallback.refs = []
  | _ => True

instance (s : Holder) (action : Action) : Decidable (Vacant s action) :=
  match action with
  | .setFlushCallback (.callable _) _ => inferInstanceAs (Decidable (_ = _))
  | .setFlushCallback .null _ => instDecidableTrue
  | .setFlushCallback (.other _) _ => instDecidableTrue
  | .clearFlushCallback => instDecidableTrue
  | .setCallback _ => instDecidableTrue
  | .freeObject => instDecidableTrue
  | .retain _ => instDecidableTrue
  | .release _ => instDecidableTrue

/-- The references that a step gives away without releasing them. -/
def forgotten (s : Holder) : Action → List Nat
  | .setFlushCallback (.callable _) _ => s.zCallback.refs
  | _ => []

/-- The references to a value that nobody will release. -/
def leaked (s : Holder) (function : Nat) : Int :=
  excess s.refcount s.others s.zCallback.refs function

section Steps

variable {s next : Holder} {action : Action}

theorem leaked_zvalReset (s : Holder) (zval : Zval) (function : Nat) :
    (s.zvalReset zval).leaked function = s.leaked function - zval.refs.count function := by
  simp only [leaked, zvalReset, excess, References.release]
  omega

/-- Copying over a value forgets the reference to it. -/
theorem leaked_zvalCopy (s : Holder) (other function : Nat) :
    (s.zvalCopy other).leaked function =
      s.leaked function + s.zCallback.refs.count function := by
  simp only [leaked, zvalCopy, excess, References.retain, Zval.refs]
  omega

theorem leaked_setFlushCallback (s : Holder) (maxSamples : Int) (value : Value) (function : Nat) :
    (s.setFlushCallback maxSamples value).leaked function =
      s.leaked function + (s.forgotten (.setFlushCallback value maxSamples)).count function := by
  cases value with
  | callable other => exact leaked_zvalCopy s other function
  | null | other error => exact (Int.add_zero _).symm

theorem leaked_setCallback (s : Holder) (value : Value) (function : Nat) :
    (s.setCallback value).leaked function = s.leaked function := by
  unfold setCallback
  split
  next =>
    rw [leaked_zvalReset]
    exact Int.sub_zero _
  next =>
    cases value with
    | callable other =>
        -- the value that is copied over has been released before
        have hkept : (s.zvalReset s.zCallback).zCallback = s.zCallback := rfl
        rw [timerSetCallback, leaked_zvalCopy, leaked_zvalReset, hkept, Int.sub_add_cancel]
    | null | other error => rfl

theorem method_eq {kind : Kind} {result : Holder} (hmethod : s.method kind result = some next) :
    s.kind = kind ∧ s.freed = false ∧ next = result := by
  simp only [method, Option.ite_none_right_eq_some] at hmethod
  exact ⟨hmethod.1.2, hmethod.1.1, (Option.some.inj hmethod.2).symm⟩

theorem step_leaked (hstep : step s action = some next) (function : Nat) :
    next.leaked function = s.leaked function + (s.forgotten action).count function := by
  cases action with
  | setFlushCallback value maxSamples =>
      obtain ⟨-, -, rfl⟩ := method_eq hstep
      exact leaked_setFlushCallback s maxSamples value function
  | clearFlushCallback =>
      obtain ⟨-, -, rfl⟩ := method_eq hstep
      refine Eq.trans ?_ (Int.add_zero _).symm
      exact (leaked_zvalReset s .null function).trans (Int.sub_zero _)
  | setCallback value =>
      obtain ⟨-, -, rfl⟩ := method_eq hstep
      exact (leaked_setCallback s value function).trans (Int.add_zero _).symm
  | freeObject =>
      obtain ⟨-, -, rfl⟩ := method_eq hstep
      refine Eq.trans ?_ (Int.add_zero _).symm
      exact (leaked_zvalReset s .undef function).trans (Int.sub_zero _)
  | retain other =>
      obtain rfl := Option.some.inj hstep
      refine Eq.trans ?_ (Int.add_zero _).symm
      exact excess_others_retain [other] function
  | release other =>
      simp only [step, Option.ite_none_right_eq_some] at hstep
      obtain ⟨-, hnext⟩ := hstep
      obtain rfl := Option.some.inj hnext
      refine Eq.trans ?_ (Int.add_zero _).symm
      exact excess_others_release [other] function

theorem vacant_iff_forgotten : Vacant s action ↔ s.forgotten action = [] := by
  cases action with
  | setFlushCallback value maxSamples => cases value <;> simp [Vacant, forgotten]
  | _ => simp [Vacant, forgotten]

/-- A step keeps the kind of the object. Once it is freed, `z_callback` is empty or
as it was. -/
theorem step_frame (hstep : step s action = some next) :
    next.kind = s.kind ∧ (next.freed = true →
      next.zCallback.refs = [] ∨ s.freed = true ∧ next.zCallback = s.zCallback) := by
  cases action with
  | setFlushCallback value maxSamples =>
      obtain ⟨-, halive, rfl⟩ := method_eq hstep
      cases value <;>
        exact ⟨rfl, fun hfreed => absurd (halive.symm.trans hfreed) Bool.false_ne_true⟩
  | setCallback value =>
      obtain ⟨-, halive, rfl⟩ := method_eq hstep
      cases value <;>
        exact ⟨rfl, fun hfreed => absurd (halive.symm.trans hfreed) Bool.false_ne_true⟩
  | clearFlushCallback | freeObject =>
      obtain ⟨-, -, rfl⟩ := method_eq hstep
      exact ⟨rfl, fun _ => Or.inl rfl⟩
  | retain other =>
      obtain rfl := Option.some.inj hstep
      exact ⟨rfl, fun hfreed => Or.inr ⟨hfreed, rfl⟩⟩
  | release other =>
      simp only [step, Option.ite_none_right_eq_some] at hstep
      obtain ⟨-, hnext⟩ := hstep
      obtain rfl := Option.some.inj hnext
      exact ⟨rfl, fun hfreed => Or.inr ⟨hfreed, rfl⟩⟩

/-- `z_callback` is cleared when the object is freed. -/
def Cleared (s : Holder) : Prop := s.freed = true → s.zCallback.refs = []

theorem step_cleared (hcleared : Cleared s) (hstep : step s action = some next) :
    Cleared next := by
  intro hfreed
  rcases (step_frame hstep).2 hfreed with hempty | ⟨hbefore, hsame⟩
  · exact hempty
  · rw [hsame]
    exact hcleared hbefore

/-- Nothing has been forgotten. -/
def Inv (s : Holder) : Prop := (∀ function, s.leaked function = 0) ∧ Cleared s

def Spoiled (s : Holder) : Prop := ∃ function, 0 < s.leaked function

theorem Inv.sound (hinv : Inv s) : Sound s := by
  have hbalanced : Balanced s.refcount s.others s.zCallback.refs := balanced_iff_excess.mpr hinv.1
  refine ⟨hbalanced, fun hfreed => ?_⟩
  funext function
  rw [hbalanced function, hinv.2 hfreed]
  exact Int.add_zero _

theorem Spoiled.not_sound (hspoiled : Spoiled s) : ¬Sound s := by
  obtain ⟨function, hleaked⟩ := hspoiled
  intro hsound
  have hnone := balanced_iff_excess.mp hsound.balanced function
  unfold leaked at hleaked
  omega

theorem step_inv (hinv : Inv s) (hvacant : Vacant s action) (hstep : step s action = some next) :
    Inv next := by
  refine ⟨fun function => ?_, step_cleared hinv.2 hstep⟩
  rw [step_leaked hstep, hinv.1, vacant_iff_forgotten.mp hvacant]
  rfl

theorem occupied_spoiled (hinv : Inv s) (hoccupied : ¬Vacant s action)
    (hstep : step s action = some next) : Spoiled next := by
  rw [vacant_iff_forgotten] at hoccupied
  obtain ⟨function, hmem⟩ := List.exists_mem_of_ne_nil _ hoccupied
  refine ⟨function, ?_⟩
  have hcount := List.count_pos_iff.mpr hmem
  rw [step_leaked hstep, hinv.1]
  omega

theorem step_spoiled (hspoiled : Spoiled s) (hstep : step s action = some next) :
    Spoiled next := by
  obtain ⟨function, hleaked⟩ := hspoiled
  refine ⟨function, ?_⟩
  rw [step_leaked hstep]
  omega

/-- A value that is not callable changes nothing but the list of warnings. -/
theorem rejected_unchanged {value : Value} (hvalue : ∀ function, value ≠ .callable function) :
    (∀ maxSamples, step s (.setFlushCallback value maxSamples) = some next →
        next = { s with warnings := next.warnings }) ∧
      (value ≠ .null → step s (.setCallback value) = some next →
        next = { s with warnings := next.warnings }) := by
  refine ⟨fun maxSamples hstep => ?_, fun hnull hstep => ?_⟩
  · obtain ⟨-, -, rfl⟩ := method_eq hstep
    cases value with
    | callable function => exact absurd rfl (hvalue function)
    | null | other error => rfl
  · obtain ⟨-, -, rfl⟩ := method_eq hstep
    cases value with
    | callable function => exact absurd rfl (hvalue function)
    | null => exact absurd rfl hnull
    | other error => rfl

end Steps

theorem new_inv (kind : Kind) (others : Nat → Int) : Inv (new kind others) := by
  constructor
  · intro function
    cases kind <;> simp [leaked, new, excess, Zval.refs]
  · intro hfreed
    cases hfreed

/-- The references to a callback are balanced exactly if `setFlushCallback` is
called with a callable only while no flush callback is set; for a timer they
always are. A value that is rejected changes neither the callback nor a count nor
`max_samples`. -/
theorem callbacks_balanced_iff {kind : Kind} {others : Nat → Int} {actions : List Action}
    {s : Holder} (hrun : Transition.run step (new kind others) actions = some s) :
    (Sound s ↔ Transition.Along step Vacant (new kind others) actions) ∧
      (kind = .timer → Sound s) ∧
      ∀ value next, (∀ function, value ≠ .callable function) →
        (∀ maxSamples, step s (.setFlushCallback value maxSamples) = some next →
          next = { s with warnings := next.warnings }) ∧
        (value ≠ .null → step s (.setCallback value) = some next →
          next = { s with warnings := next.warnings }) := by
  have hcases := Transition.Along.dichotomy Inv Spoiled (fun _ _ _ => step_inv)
    (fun _ _ _ => occupied_spoiled) (fun _ _ _ => step_spoiled) (new_inv kind others) hrun
  refine ⟨?_, fun htimer => ?_, fun value next hvalue => rejected_unchanged hvalue⟩
  · rcases hcases with ⟨hvacant, hinv⟩ | ⟨hoccupied, hspoiled⟩
    · exact ⟨fun _ => hvacant, fun _ => hinv.sound⟩
    · exact ⟨fun hsound => absurd hsound hspoiled.not_sound,
        fun hvacant => absurd hvacant hoccupied⟩
  · -- a timer has no flush callback that could be overwritten
    have hinv : Inv s ∧ s.kind = .timer := by
      apply Transition.run_invariant (fun s => Inv s ∧ s.kind = .timer) _ _ hrun
      · intro s action next hs hstep
        have hvacant : Vacant s action := by
          cases action with
          | setFlushCallback value maxSamples =>
              obtain ⟨hkind, -⟩ := method_eq hstep
              rw [hs.2] at hkind
              cases hkind
          | _ => trivial
        exact ⟨step_inv hs.1 hvacant hstep, (step_frame hstep).1.trans hs.2⟩
      · exact ⟨new_inv kind others, htimer⟩
    exact hinv.1.sound

/-- A second flush callback is set after the first one was cleared. -/
def clearedFirst : List Action :=
  [.setFlushCallback (.callable 7) 10, .setFlushCallback (.other "no array or string given") 5,
   .clearFlushCallback, .setFlushCallback (.callable 8) 20, .freeObject]

theorem callbacks_balanced_iff_clearedFirst :
    ∃ s, Transition.run step (new .profiler fun _ => 1) clearedFirst = some s ∧ s.freed = true ∧
      Sound s := by
  obtain ⟨s, hrun, hfreed⟩ := Transition.run_check step (new .profiler fun _ => 1) clearedFirst
    (fun s => s.freed) (by decide)
  exact ⟨s, hrun, hfreed, (callbacks_balanced_iff hrun).1.mpr (by decide)⟩

/-- A flush callback is replaced by another one. -/
def replaced : List Action :=
  [.setFlushCallback (.callable 7) 10, .setFlushCallback (.callable 8) 10, .freeObject]

theorem replaced_leaks :
    ∃ s, Transition.run step (new .profiler fun _ => 1) replaced = some s ∧ s.freed = true ∧
      s.others 7 = 1 ∧ s.refcount 7 = 2 ∧ ¬Sound s := by
  obtain ⟨s, hrun, hcheck⟩ := Transition.run_check step (new .profiler fun _ => 1) replaced
    (fun s => decide (s.freed = true ∧ s.others 7 = 1 ∧ s.refcount 7 = 2)) (by decide)
  obtain ⟨hfreed, hothers, hcount⟩ := of_decide_eq_true hcheck
  refine ⟨s, hrun, hfreed, hothers, hcount, fun hsound => ?_⟩
  rw [hsound.freed hfreed, hothers] at hcount
  cases hcount

end Holder

end Excimer.Object

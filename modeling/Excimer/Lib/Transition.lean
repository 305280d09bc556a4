import Mathlib.Logic.Relation

/-!
Systems given by a partial step function. An action that is not enabled in a
state has no result, so one function describes the guards and the effects of
every thread, and a run is the result of performing a list of actions. The
rules below are the only inductions over runs that the development needs.
-/

namespace Transition

variable {σ τ α β : Type*}

/-- Perform the actions in order. There is no result as soon as one of them
is not enabled. -/
def run (step : σ → α → Option σ) : σ → List α → Option σ
  | s, [] => some s
  | s, action :: rest => (step s action).bind fun next => run step next rest

/-- A state that some run from an initial state ends in. -/
def Reachable (step : σ → α → Option σ) (initial : σ → Prop) (s : σ) : Prop :=
  ∃ start actions, initial start ∧ run step start actions = some s

theorem run_cons {step : σ → α → Option σ} {s final : σ} {action : α}
    {rest : List α} (hrun : run step s (action :: rest) = some final) :
    ∃ next, step s action = some next ∧ run step next rest = some final :=
  Option.bind_eq_some_iff.mp hrun

theorem run_append (step : σ → α → Option σ) (s : σ) (first second : List α) :
    run step s (first ++ second) =
      (run step s first).bind fun next => run step next second := by
  induction first generalizing s with
  | nil => rfl
  | cons action rest ih =>
      simp only [List.cons_append, run]
      cases hstep : step s action with
      | none => rfl
      | some next => exact ih next

theorem run_last {step : σ → α → Option σ} {s final : σ} {before : List α} {action : α}
    (hrun : run step s (before ++ [action]) = some final) :
    ∃ mid, run step s before = some mid ∧ step mid action = some final := by
  rw [run_append] at hrun
  obtain ⟨mid, hbefore, hlast⟩ := Option.bind_eq_some_iff.mp hrun
  refine ⟨mid, hbefore, ?_⟩
  obtain ⟨next, hstep, hnil⟩ := run_cons hlast
  exact hstep.trans hnil

/-- A run that has been evaluated, with a test of the state it ends in. -/
theorem run_check (step : σ → α → Option σ) (s : σ) (actions : List α)
    (check : σ → Bool) (hcheck : (run step s actions).any check = true) :
    ∃ final, run step s actions = some final ∧ check final = true := by
  cases hrun : run step s actions with
  | none => simp [hrun] at hcheck
  | some final => exact ⟨final, rfl, by simpa [hrun] using hcheck⟩

/-- A predicate kept by every step that satisfies `allowed` holds at the end
of every run made of such steps. -/
theorem run_invariant_of {step : σ → α → Option σ} (allowed : α → Prop)
    (inv : σ → Prop)
    (hkeep : ∀ s action next, allowed action → inv s →
      step s action = some next → inv next)
    {s final : σ} {actions : List α} (hallowed : ∀ action ∈ actions, allowed action)
    (hstart : inv s) (hrun : run step s actions = some final) : inv final := by
  induction actions generalizing s with
  | nil =>
      have hfinal : s = final := Option.some.inj hrun
      exact hfinal ▸ hstart
  | cons action rest ih =>
      obtain ⟨next, hstep, hrest⟩ := run_cons hrun
      have hnext : inv next :=
        hkeep s action next (hallowed action (by simp)) hstart hstep
      exact ih (fun other hmem => hallowed other (by simp [hmem])) hnext hrest

theorem run_invariant {step : σ → α → Option σ} (inv : σ → Prop)
    (hkeep : ∀ s action next, inv s → step s action = some next → inv next)
    {s final : σ} {actions : List α} (hstart : inv s)
    (hrun : run step s actions = some final) : inv final :=
  run_invariant_of (fun _ => True) inv
    (fun s action next _ => hkeep s action next) (fun _ _ => trivial) hstart hrun

/-- A rank bounds the actions it counts: when no allowed step raises the rank and
every counted one lowers it, a run has at most as many of these as the rank it
starts with. -/
theorem run_bounded {step : σ → α → Option σ} (allowed : α → Prop) (inv : σ → Prop)
    (rank : σ → Nat) (counted : α → Bool)
    (hstep : ∀ s action next, allowed action → inv s → step s action = some next →
      inv next ∧ rank next + (if counted action then 1 else 0) ≤ rank s)
    {s final : σ} {actions : List α} (hallowed : ∀ action ∈ actions, allowed action)
    (hstart : inv s) (hrun : run step s actions = some final) :
    inv final ∧ rank final + (actions.filter counted).length ≤ rank s := by
  induction actions generalizing s with
  | nil =>
      have hfinal : s = final := Option.some.inj hrun
      subst hfinal
      exact ⟨hstart, by simp⟩
  | cons action rest ih =>
      obtain ⟨next, hfirst, hrest⟩ := run_cons hrun
      obtain ⟨hnext, hdrop⟩ := hstep s action next (hallowed action (by simp)) hstart hfirst
      obtain ⟨hfinal, hbound⟩ :=
        ih (fun other hmem => hallowed other (by simp [hmem])) hnext hrest
      refine ⟨hfinal, ?_⟩
      cases hcounted : counted action with
      | false =>
          simp only [hcounted, Bool.false_eq_true, if_false] at hdrop
          simp only [List.filter_cons, hcounted, Bool.false_eq_true, if_false]
          omega
      | true =>
          simp only [hcounted, if_true] at hdrop
          simp only [List.filter_cons, hcounted, if_true, List.length_cons]
          omega

/-- Forward simulation of a total specification. When every action has a result
that stays related to what the specification makes of it, so has every run. -/
theorem run_simulates {step : σ → α → Option σ} {spec : τ → α → τ} (related : σ → τ → Prop)
    (hsim : ∀ s t action, related s t →
      ∃ next, step s action = some next ∧ related next (spec t action))
    {s : σ} {t : τ} (hstart : related s t) (actions : List α) :
    ∃ final, run step s actions = some final ∧ related final (actions.foldl spec t) := by
  induction actions generalizing s t with
  | nil => exact ⟨s, rfl, hstart⟩
  | cons action rest ih =>
      obtain ⟨next, hstep, hnext⟩ := hsim s t action hstart
      obtain ⟨final, hrest, hfinal⟩ := ih hnext
      refine ⟨final, ?_, hfinal⟩
      rw [run, hstep]
      exact hrest

/-- Every action of a run is allowed in the state in which it is performed. -/
def Along (step : σ → α → Option σ) (allowed : σ → α → Prop) : σ → List α → Prop
  | _, [] => True
  | s, action :: rest =>
      allowed s action ∧ ∀ next ∈ step s action, Along step allowed next rest

instance Along.decidable (step : σ → α → Option σ) (allowed : σ → α → Prop)
    [∀ s action, Decidable (allowed s action)] :
    ∀ s actions, Decidable (Along step allowed s actions)
  | _, [] => instDecidableTrue
  | s, action :: rest =>
      have : ∀ next, Decidable (Along step allowed next rest) := fun next =>
        Along.decidable step allowed next rest
      inferInstanceAs (Decidable
        (allowed s action ∧ ∀ next ∈ step s action, Along step allowed next rest))

/-- What holds at the start and is kept by the allowed steps holds at the end of
a run of allowed steps. -/
theorem Along.invariant {step : σ → α → Option σ} {allowed : σ → α → Prop} (inv : σ → Prop)
    (hkeep : ∀ s action next, inv s → allowed s action → step s action = some next → inv next)
    {s final : σ} {actions : List α} (halong : Along step allowed s actions) (hstart : inv s)
    (hrun : run step s actions = some final) : inv final := by
  induction actions generalizing s with
  | nil => exact Option.some.inj hrun ▸ hstart
  | cons action rest ih =>
      obtain ⟨next, hstep, hrest⟩ := run_cons hrun
      exact ih (halong.2 next hstep) (hkeep s action next hstart halong.1 hstep) hrest

theorem Along.append_iff {step : σ → α → Option σ} {allowed : σ → α → Prop} {s mid : σ}
    {first : List α} (hrun : run step s first = some mid) (second : List α) :
    Along step allowed s (first ++ second) ↔
      Along step allowed s first ∧ Along step allowed mid second := by
  induction first generalizing s with
  | nil =>
      obtain rfl := Option.some.inj hrun
      simp [Along]
  | cons action rest ih =>
      obtain ⟨next, hstep, hrest⟩ := run_cons hrun
      simp [Along, hstep, ih hrest, and_assoc]

/-- When the first step that is not allowed spoils a state for good, a run ends in
a state with the invariant or in a spoiled one, depending on its steps. -/
theorem Along.dichotomy {step : σ → α → Option σ} {allowed : σ → α → Prop} (inv spoiled : σ → Prop)
    (hkeep : ∀ s action next, inv s → allowed s action → step s action = some next → inv next)
    (hspoil : ∀ s action next, inv s → ¬allowed s action → step s action = some next → spoiled next)
    (hstay : ∀ s action next, spoiled s → step s action = some next → spoiled next)
    {s final : σ} {actions : List α} (hstart : inv s) (hrun : run step s actions = some final) :
    Along step allowed s actions ∧ inv final ∨ ¬Along step allowed s actions ∧ spoiled final := by
  induction actions generalizing s with
  | nil => exact Or.inl ⟨trivial, Option.some.inj hrun ▸ hstart⟩
  | cons action rest ih =>
      obtain ⟨next, hstep, hrest⟩ := run_cons hrun
      by_cases hallowed : allowed s action
      · have halong : Along step allowed s (action :: rest) ↔ Along step allowed next rest := by
          simp [Along, hallowed, hstep]
        rw [halong]
        exact ih (hkeep s action next hstart hallowed hstep) hrest
      · refine Or.inr ⟨fun halong => hallowed halong.1, ?_⟩
        exact run_invariant spoiled hstay (hspoil s action next hstart hallowed hstep) hrest

/-- When a step keeps a property exactly if it meets a condition, a run keeps the
property exactly if all its steps meet the condition. -/
theorem Along.kept_iff {step : σ → α → Option σ} {allowed met : σ → α → Prop} (inv kept : σ → Prop)
    (hkeep : ∀ s action next, inv s → allowed s action → step s action = some next →
      inv next ∧ (kept next ↔ kept s ∧ met s action))
    {s final : σ} {actions : List α} (halong : Along step allowed s actions) (hstart : inv s)
    (hrun : run step s actions = some final) :
    kept final ↔ kept s ∧ Along step met s actions := by
  induction actions generalizing s with
  | nil =>
      obtain rfl := Option.some.inj hrun
      simp [Along]
  | cons action rest ih =>
      obtain ⟨next, hstep, hrest⟩ := run_cons hrun
      obtain ⟨hnext, hkept⟩ := hkeep s action next hstart halong.1 hstep
      rw [ih (halong.2 next hstep) hnext hrest, hkept, and_assoc]
      simp [Along, hstep]

/-- Some action of a run meets a condition in the state in which it is performed. -/
def Sometime (step : σ → α → Option σ) (met : σ → α → Prop) : σ → List α → Prop
  | _, [] => False
  | s, action :: rest => met s action ∨ ∃ next ∈ step s action, Sometime step met next rest

instance Sometime.decidable (step : σ → α → Option σ) (met : σ → α → Prop)
    [∀ s action, Decidable (met s action)] : ∀ s actions, Decidable (Sometime step met s actions)
  | _, [] => instDecidableFalse
  | s, action :: rest =>
      have : ∀ next, Decidable (Sometime step met next rest) := fun next =>
        Sometime.decidable step met next rest
      inferInstanceAs (Decidable
        (met s action ∨ ∃ next ∈ step s action, Sometime step met next rest))

/-- Every request among the actions of a run is followed by a response. -/
def Answered (step : σ → α → Option σ) (request response : σ → α → Prop) : σ → List α → Prop
  | _, [] => True
  | s, action :: rest => ∀ next ∈ step s action,
      (request s action → Sometime step response next rest) ∧
        Answered step request response next rest

instance Answered.decidable (step : σ → α → Option σ) (request response : σ → α → Prop)
    [∀ s action, Decidable (request s action)] [∀ s action, Decidable (response s action)] :
    ∀ s actions, Decidable (Answered step request response s actions)
  | _, [] => instDecidableTrue
  | s, action :: rest =>
      have : ∀ next, Decidable (Answered step request response next rest) := fun next =>
        Answered.decidable step request response next rest
      inferInstanceAs (Decidable (∀ next ∈ step s action,
        (request s action → Sometime step response next rest) ∧
          Answered step request response next rest))

theorem Answered.of_no_request {step : σ → α → Option σ} {request response : σ → α → Prop}
    {s : σ} {actions : List α} (hnone : ∀ action ∈ actions, ∀ s, ¬request s action) :
    Answered step request response s actions := by
  induction actions generalizing s with
  | nil => trivial
  | cons action rest ih =>
      intro next _
      refine ⟨fun hrequest => absurd hrequest (hnone action (by simp) s), ih ?_⟩
      exact fun other hmem => hnone other (by simp [hmem])

/-- A state that requests unsettle and responses settle is settled at the end of a
run exactly if no request has been left unanswered. -/
theorem Along.settled_iff {step : σ → α → Option σ} {allowed request response : σ → α → Prop}
    (inv settled : σ → Prop)
    (hkeep : ∀ s action next, inv s → allowed s action → step s action = some next →
      inv next ∧ (settled next ↔ ¬request s action ∧ (settled s ∨ response s action)))
    {s final : σ} {actions : List α} (halong : Along step allowed s actions) (hstart : inv s)
    (hrun : run step s actions = some final) :
    settled final ↔ Answered step request response s actions ∧
      (settled s ∨ Sometime step response s actions) := by
  induction actions generalizing s with
  | nil =>
      obtain rfl := Option.some.inj hrun
      simp [Answered, Sometime]
  | cons action rest ih =>
      obtain ⟨next, hstep, hrest⟩ := run_cons hrun
      obtain ⟨hnext, hsettled⟩ := hkeep s action next hstart halong.1 hstep
      have hanswered : Answered step request response s (action :: rest) ↔
          (request s action → Sometime step response next rest) ∧
            Answered step request response next rest := by
        simp [Answered, hstep]
      have hsometime : Sometime step response s (action :: rest) ↔
          response s action ∨ Sometime step response next rest := by
        simp [Sometime, hstep]
      rw [ih (halong.2 next hstep) hnext hrest, hsettled, hanswered, hsometime]
      by_cases hlater : Sometime step response next rest
      · simp [hlater]
      · simp only [hlater, or_false, imp_false]
        exact and_left_comm.trans and_assoc.symm

namespace Reachable

variable {step : σ → α → Option σ} {initial : σ → Prop}

theorem start {s : σ} (hinitial : initial s) : Reachable step initial s :=
  ⟨s, [], hinitial, rfl⟩

theorem run_from {s final : σ} {actions : List α}
    (hreach : Reachable step initial s) (hrun : run step s actions = some final) :
    Reachable step initial final := by
  obtain ⟨origin, before, hinitial, hbefore⟩ := hreach
  refine ⟨origin, before ++ actions, hinitial, ?_⟩
  rw [run_append, hbefore]
  exact hrun

theorem step_from {s next : σ} {action : α} (hreach : Reachable step initial s)
    (hstep : step s action = some next) : Reachable step initial next := by
  have hrun : run step s [action] = some next := by simp [run, hstep]
  exact hreach.run_from hrun

/-- What holds initially and is kept by every step holds in every reachable
state. -/
theorem invariant (inv : σ → Prop) (hinit : ∀ s, initial s → inv s)
    (hkeep : ∀ s action next, inv s → step s action = some next → inv next)
    {s : σ} (hreach : Reachable step initial s) : inv s := by
  obtain ⟨origin, actions, hinitial, hrun⟩ := hreach
  exact run_invariant inv hkeep (hinit origin hinitial) hrun

/-- The same rule with an invariant that is already known to hold, which each
step may then use. -/
theorem invariant_with (known inv : σ → Prop)
    (hknown : ∀ s, Reachable step initial s → known s)
    (hinit : ∀ s, initial s → inv s)
    (hkeep : ∀ s action next, known s → inv s →
      step s action = some next → inv next)
    {s : σ} (hreach : Reachable step initial s) : inv s := by
  have hboth : Reachable step initial s ∧ inv s := by
    apply invariant (fun s => Reachable step initial s ∧ inv s) _ _ hreach
    · intro s hinitial
      exact ⟨start hinitial, hinit s hinitial⟩
    · intro s action next hs hstep
      exact ⟨hs.1.step_from hstep, hkeep s action next (hknown s hs.1) hs.2 hstep⟩
  exact hboth.2

/-- Forward simulation by projection. When every concrete step leaves the
projection alone or performs one abstract step on it, reachable concrete
states project to reachable abstract states. -/
theorem project {concrete : τ → β → Option τ} {concreteInit : τ → Prop}
    (view : τ → σ) (hinit : ∀ t, concreteInit t → initial (view t))
    (hsim : ∀ t action next, concrete t action = some next →
      view next = view t ∨ ∃ abstract, step (view t) abstract = some (view next))
    {t : τ} (hreach : Reachable concrete concreteInit t) :
    Reachable step initial (view t) := by
  apply invariant (fun t => Reachable step initial (view t)) _ _ hreach
  · intro t hinitial
    exact start (hinit t hinitial)
  · intro t action next ht hstep
    rcases hsim t action next hstep with hsame | ⟨abstract, habs⟩
    · exact hsame.symm ▸ ht
    · exact ht.step_from habs

end Reachable

end Transition

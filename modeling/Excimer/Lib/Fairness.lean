import Excimer.Lib.Transition
import Mathlib.Algebra.Order.Ring.Int

/-!
Infinite behaviours of a system given by a partial step function, and what fair
scheduling of its threads guarantees. A thread is a set of actions. It is treated
weakly fairly when it moves once it could move at every moment from some time on,
and strongly fairly when it moves once it could move again and again.
-/

namespace Transition

variable {σ α ι : Type*} {step : σ → α → Option σ}

/-- At every moment one action is performed, or nothing happens. -/
structure Behaviour (step : σ → α → Option σ) where
  state : ℕ → σ
  action : ℕ → Option α
  next : ∀ n, (match action n with
    | none => some (state n)
    | some action => step (state n) action) = some (state (n + 1))

/-- Some action of the thread is possible. -/
def Enabled (step : σ → α → Option σ) (thread : α → Bool) (s : σ) : Prop :=
  ∃ action, thread action = true ∧ (step s action).isSome = true

namespace Behaviour

variable (b : Behaviour step)

def Moves (thread : α → Bool) (n : ℕ) : Prop :=
  ∃ action, b.action n = some action ∧ thread action = true

def WeaklyFair (thread : α → Bool) : Prop :=
  ∀ n, (∀ m, n ≤ m → Enabled step thread (b.state m)) → ∃ m, n ≤ m ∧ b.Moves thread m

def StronglyFair (thread : α → Bool) : Prop :=
  ∀ n, (∀ m, n ≤ m → ∃ k, m ≤ k ∧ Enabled step thread (b.state k)) →
    ∃ m, n ≤ m ∧ b.Moves thread m

variable {b}

theorem next_of_some {n : ℕ} {action : α} (haction : b.action n = some action) :
    step (b.state n) action = some (b.state (n + 1)) := by
  have hnext := b.next n
  rw [haction] at hnext
  exact hnext

theorem next_of_none {n : ℕ} (haction : b.action n = none) : b.state (n + 1) = b.state n := by
  have hnext := b.next n
  rw [haction] at hnext
  exact (Option.some.inj hnext).symm

theorem invariant {inv : σ → Prop}
    (hkeep : ∀ s action next, inv s → step s action = some next → inv next) {n m : ℕ}
    (hle : n ≤ m) (hstart : inv (b.state n)) : inv (b.state m) := by
  induction m, hle using Nat.le_induction with
  | base => exact hstart
  | succ m _ ih =>
      cases haction : b.action m with
      | none => exact (next_of_none haction).symm ▸ ih
      | some action => exact hkeep _ action _ ih (next_of_some haction)

/-- Descent: a goal is reached when no step on the way to it raises a rank and the
rank cannot stay the same for ever. -/
theorem eventually_of_descent (inv goal : σ → Prop) (rank : σ → ℕ)
    (hstep : ∀ s action next, inv s → ¬goal s → step s action = some next →
      goal next ∨ inv next ∧ rank next ≤ rank s)
    (hstuck : ∀ n, (∀ m, n ≤ m → inv (b.state m) ∧ ¬goal (b.state m) ∧
      rank (b.state m) = rank (b.state n)) → False)
    {n : ℕ} (hstart : inv (b.state n)) : ∃ m, n ≤ m ∧ goal (b.state m) := by
  induction hrank : rank (b.state n) using Nat.strong_induction_on generalizing n with
  | _ value ih =>
      by_contra hnever
      push Not at hnever
      -- without the goal the invariant stays and the rank does not rise
      have hdescends : ∀ m, n ≤ m → inv (b.state m) ∧ rank (b.state m) ≤ rank (b.state n) := by
        intro m hle
        induction m, hle using Nat.le_induction with
        | base => exact ⟨hstart, le_rfl⟩
        | succ m hle ih =>
            obtain ⟨hinv, hrank⟩ := ih
            cases haction : b.action m with
            | none => exact (next_of_none haction).symm ▸ ⟨hinv, hrank⟩
            | some action =>
                rcases hstep _ action _ hinv (hnever m hle) (next_of_some haction) with
                  hgoal | ⟨hnext, hdrop⟩
                · exact absurd hgoal (hnever (m + 1) (Nat.le_succ_of_le hle))
                · exact ⟨hnext, hdrop.trans hrank⟩
      apply hstuck n
      intro m hle
      obtain ⟨hinv, hbound⟩ := hdescends m hle
      refine ⟨hinv, hnever m hle, ?_⟩
      rcases hbound.lt_or_eq with hless | hsame
      · obtain ⟨k, hk, hgoal⟩ := ih _ (hrank ▸ hless) hinv rfl
        exact absurd hgoal (hnever k (hle.trans hk))
      · exact hsame

/-- A weakly fair behaviour reaches a goal when at every moment on the way to it
one thread is of help: it can move, its moves lower the rank, and the moves of the
others lower the rank or leave the rank and the thread that helps as they are. -/
theorem eventually_of_helpful (inv goal : σ → Prop) (rank : σ → ℕ) (threads : ι → α → Bool)
    (helpful : σ → ι) (hfair : ∀ i, b.WeaklyFair (threads i))
    (henabled : ∀ s, inv s → ¬goal s → Enabled step (threads (helpful s)) s)
    (hstep : ∀ s action next, inv s → ¬goal s → step s action = some next →
      goal next ∨ inv next ∧ (rank next < rank s ∨ rank next = rank s ∧
        helpful next = helpful s ∧ threads (helpful s) action = false))
    {n : ℕ} (hstart : inv (b.state n)) : ∃ m, n ≤ m ∧ goal (b.state m) := by
  refine eventually_of_descent inv goal rank ?_ ?_ hstart
  · intro s action next hinv hgoal hnext
    rcases hstep s action next hinv hgoal hnext with hreached | ⟨hkept, hless | ⟨hsame, -⟩⟩
    · exact Or.inl hreached
    · exact Or.inr ⟨hkept, hless.le⟩
    · exact Or.inr ⟨hkept, hsame.le⟩
  · intro n hstays
    -- the rank does not change, so no step is one of the thread that helps
    have hquiet (m : ℕ) (hle : n ≤ m) (action : α) (haction : b.action m = some action) :
        helpful (b.state (m + 1)) = helpful (b.state m) ∧
          threads (helpful (b.state m)) action = false := by
      obtain ⟨hinv, hgoal, hrank⟩ := hstays m hle
      obtain ⟨-, hgoal', hrank'⟩ := hstays (m + 1) (Nat.le_succ_of_le hle)
      rcases hstep _ action _ hinv hgoal (next_of_some haction) with
        hreached | ⟨-, hless | ⟨-, hsame, hother⟩⟩
      · exact absurd hreached hgoal'
      · omega
      · exact ⟨hsame, hother⟩
    have hsame (m : ℕ) (hle : n ≤ m) : helpful (b.state m) = helpful (b.state n) := by
      induction m, hle using Nat.le_induction with
      | base => rfl
      | succ m hle ih =>
          cases haction : b.action m with
          | none => rw [next_of_none haction, ih]
          | some action => exact (hquiet m hle action haction).1.trans ih
    obtain ⟨m, hle, action, haction, hmoves⟩ := hfair (helpful (b.state n)) n (by
      intro m hle
      obtain ⟨hinv, hgoal, -⟩ := hstays m hle
      exact hsame m hle ▸ henabled _ hinv hgoal)
    have hother := (hquiet m hle action haction).2
    rw [hsame m hle, hmoves] at hother
    cases hother

section Finite

variable {s final : σ} {actions : List α}

theorem run_take (hrun : run step s actions = some final) (n : ℕ) :
    ∃ mid, run step s (actions.take n) = some mid := by
  rw [← List.take_append_drop n actions, run_append] at hrun
  obtain ⟨mid, hmid, -⟩ := Option.bind_eq_some_iff.mp hrun
  exact ⟨mid, hmid⟩

/-- The behaviour that performs a run and rests. -/
def ofRun (hrun : run step s actions = some final) : Behaviour step where
  state n := (run step s (actions.take n)).getD final
  action n := actions[n]?
  next n := by
    by_cases hlt : n < actions.length
    · obtain ⟨mid, hmid⟩ := run_take hrun n
      obtain ⟨later, hlater⟩ := run_take hrun (n + 1)
      have hlast := hlater
      rw [List.take_succ_eq_append_getElem hlt] at hlast
      obtain ⟨before, hbefore, hstep⟩ := run_last hlast
      cases hmid.symm.trans hbefore
      simpa [hlt, hmid, hlater] using hstep
    · have hshort : actions.length ≤ n := Nat.le_of_not_lt hlt
      simp [List.getElem?_eq_none hshort, List.take_of_length_le hshort,
        List.take_of_length_le (Nat.le_succ_of_le hshort), hrun]

theorem ofRun_rests (hrun : run step s actions = some final) {n : ℕ} (hle : actions.length ≤ n) :
    (ofRun hrun).state n = final := by
  simp [ofRun, List.take_of_length_le hle, hrun]

/-- It is fair to every thread that has nothing to do in the end. -/
theorem ofRun_weaklyFair (hrun : run step s actions = some final) {thread : α → Bool}
    (hdone : ¬Enabled step thread final) : (ofRun hrun).WeaklyFair thread := by
  intro n henabled
  have hlate := henabled (max n actions.length) (le_max_left ..)
  rw [ofRun_rests hrun (le_max_right ..)] at hlate
  exact absurd hlate hdone

theorem ofRun_stronglyFair (hrun : run step s actions = some final) {thread : α → Bool}
    (hdone : ¬Enabled step thread final) : (ofRun hrun).StronglyFair thread := by
  intro n henabled
  obtain ⟨m, hle, hlate⟩ := henabled (max n actions.length) (le_max_left ..)
  rw [ofRun_rests hrun ((le_max_right ..).trans hle)] at hlate
  exact absurd hlate hdone

end Finite

end Behaviour

end Transition

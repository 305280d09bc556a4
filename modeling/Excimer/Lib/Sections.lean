import Mathlib.Algebra.Group.Action.Defs

/-!
Critical sections as programs. A section is a sequence of statements on the
memory that a lock protects; each statement is performed in one step, and other
threads may take steps in between. What the others can do to the memory is given
by the action of a monoid. A section does not depend on them when each of its
statements commutes with each of their changes, and then the whole section can be
taken to happen at any one of its steps.
-/

namespace Sections

universe u v

variable {σ : Type u} {ρ τ : Type v}

/-- The statements that remain of a section. -/
inductive Program (σ : Type u) (ρ : Type v) where
  | ret (result : ρ)
  /-- Evaluate an expression, and continue as its value says. -/
  | read (next : σ → Program σ ρ)
  /-- Change the memory. A statement that dereferences a null pointer has no
  result. -/
  | write (effect : σ → Option σ) (next : Program σ ρ)

namespace Program

/-- The next statement. -/
def step : Program σ ρ → σ → Option (Program σ ρ × σ)
  | ret _, _ => none
  | read next, memory => some (next memory, memory)
  | write effect next, memory => (effect memory).map fun after => (next, after)

/-- All statements without an interruption. -/
def exec : Program σ ρ → σ → Option (σ × ρ)
  | ret result, memory => some (memory, result)
  | read next, memory => exec (next memory) memory
  | write effect next, memory => (effect memory).bind fun after => exec next after

/-- One program after another. -/
def andThen : Program σ ρ → (ρ → Program σ τ) → Program σ τ
  | ret result, rest => rest result
  | read next, rest => read fun memory => (next memory).andThen rest
  | write effect next, rest => write effect (next.andThen rest)

/-- No path through the program has more statements. -/
def Within : Nat → Program σ ρ → Prop
  | _, ret _ => True
  | 0, _ => False
  | n + 1, read next => ∀ memory, Within n (next memory)
  | n + 1, write _ next => Within n next

theorem exec_andThen (p : Program σ ρ) (rest : ρ → Program σ τ) (memory : σ) :
    (p.andThen rest).exec memory =
      (p.exec memory).bind fun result => (rest result.2).exec result.1 := by
  induction p generalizing memory with
  | ret result => rfl
  | read next ih => exact ih memory memory
  | write effect next ih =>
      simp only [andThen, exec]
      cases effect memory with
      | none => rfl
      | some after => exact ih after

variable {p q : Program σ ρ} {memory after : σ}

theorem exec_step (hstep : p.step memory = some (q, after)) : q.exec after = p.exec memory := by
  cases p with
  | ret result => cases hstep
  | read next =>
      cases hstep
      rfl
  | write effect next =>
      obtain ⟨changed, heffect, heq⟩ := Option.map_eq_some_iff.mp hstep
      cases heq
      simp [exec, heffect]

/-- A program that can be completed is complete or can take its next step. -/
theorem progress {result : σ × ρ} (hexec : p.exec memory = some result) :
    p = ret result.2 ∧ memory = result.1 ∨ ∃ next, p.step memory = some next := by
  cases p with
  | ret value =>
      cases hexec
      exact Or.inl ⟨rfl, rfl⟩
  | read next => exact Or.inr ⟨_, rfl⟩
  | write effect next =>
      obtain ⟨changed, heffect, -⟩ := Option.bind_eq_some_iff.mp hexec
      exact Or.inr ⟨(next, changed), by simp [step, heffect]⟩

theorem Within.mono {m n : Nat} (hwithin : p.Within m) (hle : m ≤ n) : p.Within n := by
  induction p generalizing m n with
  | ret result => simp [Within]
  | read next ih =>
      cases m with
      | zero => exact hwithin.elim
      | succ m =>
          obtain ⟨n, rfl⟩ := Nat.exists_eq_add_of_lt hle
          exact fun memory => ih memory (hwithin memory) (by omega)
  | write effect next ih =>
      cases m with
      | zero => exact hwithin.elim
      | succ m =>
          obtain ⟨n, rfl⟩ := Nat.exists_eq_add_of_lt hle
          exact ih hwithin (by omega)

theorem Within.andThen {rest : ρ → Program σ τ} {m n : Nat} (hwithin : p.Within m)
    (hrest : ∀ result, (rest result).Within n) : (p.andThen rest).Within (m + n) := by
  induction p generalizing m with
  | ret result => exact (hrest result).mono (Nat.le_add_left n m)
  | read next ih =>
      cases m with
      | zero => exact hwithin.elim
      | succ m =>
          rw [Nat.succ_add]
          exact fun memory => ih memory (hwithin memory)
  | write effect next ih =>
      cases m with
      | zero => exact hwithin.elim
      | succ m =>
          rw [Nat.succ_add]
          exact ih hwithin

theorem Within.step {n : Nat} (hwithin : p.Within n) (hstep : p.step memory = some (q, after)) :
    ∃ m, n = m + 1 ∧ q.Within m := by
  cases p with
  | ret result => cases hstep
  | read next =>
      cases hstep
      cases n with
      | zero => exact hwithin.elim
      | succ m => exact ⟨m, rfl, hwithin memory⟩
  | write effect next =>
      obtain ⟨changed, -, heq⟩ := Option.map_eq_some_iff.mp hstep
      cases heq
      cases n with
      | zero => exact hwithin.elim
      | succ m => exact ⟨m, rfl, hwithin⟩

section Environment

variable (Change : Type*) [Monoid Change] [MulAction Change σ]

/-- From this point on, no statement of the program can tell whether other
threads have changed the memory before it or after it. -/
def Stable : Program σ ρ → σ → Prop
  | ret _, _ => True
  | read next, memory =>
      (∀ change : Change, next (change • memory) = next memory) ∧ Stable (next memory) memory
  | write effect next, memory =>
      (∀ change : Change, effect (change • memory) = (effect memory).map (change • ·)) ∧
        ∀ after ∈ effect memory, Stable next after

variable {Change}

theorem Stable.step (hstable : p.Stable Change memory) (hstep : p.step memory = some (q, after)) :
    q.Stable Change after := by
  cases p with
  | ret result => cases hstep
  | read next =>
      cases hstep
      exact hstable.2
  | write effect next =>
      obtain ⟨changed, heffect, heq⟩ := Option.map_eq_some_iff.mp hstep
      cases heq
      exact hstable.2 _ heffect

theorem Stable.andThen {rest : ρ → Program σ τ} (hstable : p.Stable Change memory)
    (hrest : ∀ result after, (rest result).Stable Change after) :
    (p.andThen rest).Stable Change memory := by
  induction p generalizing memory with
  | ret result => exact hrest result memory
  | read next ih =>
      refine ⟨fun change => ?_, ih memory hstable.2⟩
      exact congrArg (·.andThen rest) (hstable.1 change)
  | write effect next ih =>
      exact ⟨hstable.1, fun after hafter => ih (hstable.2 after hafter)⟩

/-- A change by another thread can be moved behind the section. -/
theorem Stable.exec (hstable : p.Stable Change memory) (change : Change) :
    p.exec (change • memory) = (p.exec memory).map fun result => (change • result.1, result.2) := by
  induction p generalizing memory with
  | ret result => rfl
  | read next ih =>
      simp only [Program.exec, hstable.1 change]
      exact ih memory hstable.2
  | write effect next ih =>
      simp only [Program.exec, hstable.1 change]
      cases heffect : effect memory with
      | none => rfl
      | some after => exact ih (hstable.2 after heffect)

/-- The change leaves the rest of the section as stable as it was. -/
theorem Stable.smul (hstable : p.Stable Change memory) (change : Change) :
    p.Stable Change (change • memory) := by
  induction p generalizing memory with
  | ret result => trivial
  | read next ih =>
      obtain ⟨hread, hnext⟩ := hstable
      refine ⟨fun other => ?_, ?_⟩
      · rw [← mul_smul, hread, hread]
      · rw [hread]
        exact ih memory hnext
  | write effect next ih =>
      obtain ⟨hwrite, hnext⟩ := hstable
      refine ⟨fun other => ?_, ?_⟩
      · rw [← mul_smul, hwrite, hwrite, Option.map_map]
        simp only [mul_smul, Function.comp_def]
      · intro after hafter
        rw [hwrite] at hafter
        obtain ⟨changed, heffect, rfl⟩ := Option.map_eq_some_iff.mp hafter
        exact ih (hnext changed heffect)

end Environment

end Program

end Sections

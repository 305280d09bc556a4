import Mathlib.Data.List.Count

/-!
Reference counts. A counted object is freed by whoever gives up the last
reference, so a component is correct when the counts are the references of all
others plus the ones that it holds itself. What it holds is a list, in which an
object occurs once for each reference.
-/

namespace References

variable {α : Type*} [DecidableEq α] {counts others : α → Int} {held refs : List α}

/-- Take a reference for each occurrence in a list. -/
def retain (counts : α → Int) (refs : List α) : α → Int :=
  fun a => counts a + refs.count a

/-- Give up a reference for each occurrence in a list. -/
def release (counts : α → Int) (refs : List α) : α → Int :=
  fun a => counts a - refs.count a

/-- The references to an object that nobody holds. -/
def excess (counts others : α → Int) (held : List α) (a : α) : Int :=
  counts a - others a - held.count a

/-- The counts are the references of the others and the ones that are held. -/
def Balanced (counts others : α → Int) (held : List α) : Prop :=
  ∀ a, counts a = others a + held.count a

theorem balanced_iff_excess :
    Balanced counts others held ↔ ∀ a, excess counts others held a = 0 := by
  refine forall_congr' fun a => ?_
  unfold excess
  omega

@[simp] theorem release_retain (counts : α → Int) (refs : List α) :
    release (retain counts refs) refs = counts := by
  funext a
  simp [release, retain]

/-- A change of the references of others. -/
@[simp] theorem excess_others_retain (refs : List α) (a : α) :
    excess (retain counts refs) (retain others refs) held a = excess counts others held a := by
  simp only [excess, retain]
  omega

@[simp] theorem excess_others_release (refs : List α) (a : α) :
    excess (release counts refs) (release others refs) held a = excess counts others held a := by
  simp only [excess, release]
  omega

/-- Changes of the references of others keep the balance. -/
theorem Balanced.others_retain (hbalanced : Balanced counts others held) (refs : List α) :
    Balanced (retain counts refs) (retain others refs) held := by
  simpa only [balanced_iff_excess, excess_others_retain] using hbalanced

theorem Balanced.others_release (hbalanced : Balanced counts others held) (refs : List α) :
    Balanced (release counts refs) (release others refs) held := by
  simpa only [balanced_iff_excess, excess_others_release] using hbalanced

end References

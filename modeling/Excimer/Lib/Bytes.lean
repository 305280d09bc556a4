import Mathlib.Data.List.Basic

/-!
Byte strings, and the decimal numerals that `printf` writes into them. A
string that ends in a separator and a part without the separator can be taken
apart again, whatever bytes stand before the separator.
-/

abbrev Bytes := List UInt8

namespace Bytes

/-- The bytes of a string literal of the source, all of them ASCII. -/
def ofString (text : String) : Bytes :=
  text.toList.map Char.toUInt8

def digits (n : Nat) : Bytes :=
  (Nat.toDigits 10 n).map Char.toUInt8

/-- The numeral of a signed integer, as the conversion `%d` prints it. -/
def decimal : Int → Bytes
  | .ofNat n => digits n
  | .negSucc n => 45 :: digits (n + 1)

theorem digit_range {c : Char} (hdigit : c.isDigit = true) : 48 ≤ c.toNat ∧ c.toNat ≤ 57 := by
  simp only [Char.isDigit, Bool.and_eq_true, decide_eq_true_eq, ge_iff_le] at hdigit
  exact hdigit

theorem toUInt8_toNat {c : Char} (hdigit : c.isDigit = true) : c.toUInt8.toNat = c.toNat := by
  have hrange := digit_range hdigit
  show c.toNat % 256 = c.toNat
  omega

theorem mem_digits {n : Nat} {b : UInt8} (hmem : b ∈ digits n) : 48 ≤ b.toNat ∧ b.toNat ≤ 57 := by
  obtain ⟨c, hc, rfl⟩ := List.mem_map.mp hmem
  have hdigit := Nat.isDigit_of_mem_toDigits (by omega) (by omega) hc
  rw [toUInt8_toNat hdigit]
  exact digit_range hdigit

theorem digits_chars (n : Nat) :
    (digits n).map (fun b => Char.ofNat b.toNat) = Nat.toDigits 10 n := by
  rw [digits, List.map_map]
  conv_rhs => rw [← List.map_id (Nat.toDigits 10 n)]
  apply List.map_congr_left
  intro c hc
  have hdigit := Nat.isDigit_of_mem_toDigits (by omega) (by omega) hc
  rw [Function.comp_apply, toUInt8_toNat hdigit, Char.ofNat_toNat, id]

theorem digits_injective : Function.Injective digits := by
  intro m n heq
  calc
    m = Nat.ofDigitChars 10 (Nat.toDigits 10 m) 0 := Nat.ofDigitChars_ten_toDigits.symm
    _ = Nat.ofDigitChars 10 (Nat.toDigits 10 n) 0 := by rw [← digits_chars, heq, digits_chars]
    _ = n := Nat.ofDigitChars_ten_toDigits

/-- A numeral is made of digits, after a minus sign when it is negative. -/
theorem mem_decimal {n : Int} {b : UInt8} (hmem : b ∈ decimal n) :
    b = 45 ∨ (48 ≤ b.toNat ∧ b.toNat ≤ 57) := by
  cases n with
  | ofNat n => exact Or.inr (mem_digits hmem)
  | negSucc n =>
      rcases List.mem_cons.mp hmem with rfl | hdigits
      · exact Or.inl rfl
      · exact Or.inr (mem_digits hdigits)

theorem minus_notMem_digits (n : Nat) : (45 : UInt8) ∉ digits n := by
  intro hmem
  have hrange := mem_digits hmem
  simp at hrange

theorem decimal_injective : Function.Injective decimal := by
  intro m n heq
  cases m with
  | ofNat m =>
      cases n with
      | ofNat n => exact congrArg Int.ofNat (digits_injective heq)
      | negSucc n =>
          have heq : digits m = 45 :: digits (n + 1) := heq
          exact absurd (heq ▸ List.mem_cons_self) (minus_notMem_digits m)
  | negSucc m =>
      cases n with
      | ofNat n =>
          have heq : 45 :: digits (m + 1) = digits n := heq
          exact absurd (heq ▸ List.mem_cons_self) (minus_notMem_digits n)
      | negSucc n =>
          have hdigits := digits_injective (List.cons.inj heq).2
          rw [Nat.succ_inj.mp hdigits]

/-- Read a numeral without a sign. -/
def readDigits (text : Bytes) : Option Nat :=
  if text ≠ [] ∧ text.all (fun b => 48 ≤ b.toNat && b.toNat ≤ 57) then
    some (Nat.ofDigitChars 10 (text.map fun b => Char.ofNat b.toNat) 0)
  else none

/-- Read what `decimal` writes. -/
def readDecimal : Bytes → Option Int
  | 45 :: rest => (readDigits rest).map fun n => -(n : Int)
  | text => (readDigits text).map fun n => (n : Int)

theorem digits_ne_nil (n : Nat) : digits n ≠ [] := by
  rw [digits, ne_eq, List.map_eq_nil_iff]
  exact Nat.toDigits_ne_nil

theorem readDigits_digits (n : Nat) : readDigits (digits n) = some n := by
  have hall : (digits n).all (fun b => 48 ≤ b.toNat && b.toNat ≤ 57) = true := by
    rw [List.all_eq_true]
    intro b hmem
    have hrange := mem_digits hmem
    simpa using hrange
  rw [readDigits, if_pos ⟨digits_ne_nil n, hall⟩, digits_chars, Nat.ofDigitChars_ten_toDigits]

theorem readDecimal_decimal (n : Int) : readDecimal (decimal n) = some n := by
  cases n with
  | ofNat n =>
      have hread : readDecimal (digits n) = (readDigits (digits n)).map fun n => (n : Int) := by
        unfold readDecimal
        split
        · next rest heq => exact absurd (heq ▸ List.mem_cons_self) (minus_notMem_digits n)
        · rfl
      rw [decimal, hread, readDigits_digits]
      rfl
  | negSucc n =>
      simp only [decimal, readDecimal, readDigits_digits]
      rfl

theorem notMem_decimal {b : UInt8} (hminus : b ≠ 45) (hdigit : b.toNat < 48 ∨ 57 < b.toNat)
    (n : Int) : b ∉ decimal n := by
  intro hmem
  rcases mem_decimal hmem with heq | hrange
  · exact hminus heq
  · omega

theorem nul_notMem_decimal (n : Int) : (0 : UInt8) ∉ decimal n :=
  notMem_decimal (by decide) (by decide) n

/-- The last separator of a string determines both parts. -/
theorem append_sep_inj {α : Type*} {sep : α} {a b c d : List α} (hb : sep ∉ b) (hd : sep ∉ d)
    (heq : a ++ sep :: b = c ++ sep :: d) : a = c ∧ b = d := by
  rcases List.append_eq_append_iff.mp heq with ⟨more, hc, hrest⟩ | ⟨more, ha, hrest⟩
  · cases more with
    | nil => simp_all
    | cons x more =>
        obtain ⟨-, hb'⟩ := List.cons.inj hrest
        exact absurd (hb' ▸ List.mem_append_right _ List.mem_cons_self) hb
  · cases more with
    | nil => simp_all
    | cons x more =>
        obtain ⟨-, hd'⟩ := List.cons.inj hrest
        exact absurd (hd' ▸ List.mem_append_right _ List.mem_cons_self) hd

/-- The first separator of a string determines both parts. -/
theorem append_first_sep_inj {α : Type*} {sep : α} {a b c d : List α} (ha : sep ∉ a) (hc : sep ∉ c)
    (heq : a ++ sep :: b = c ++ sep :: d) : a = c ∧ b = d := by
  rcases List.append_eq_append_iff.mp heq with ⟨more, hc', hrest⟩ | ⟨more, ha', hrest⟩
  · cases more with
    | nil => simp_all
    | cons x more =>
        obtain ⟨rfl, -⟩ := List.cons.inj hrest
        exact absurd (hc' ▸ List.mem_append_right _ List.mem_cons_self) hc
  · cases more with
    | nil => simp_all
    | cons x more =>
        obtain ⟨rfl, -⟩ := List.cons.inj hrest
        exact absurd (ha' ▸ List.mem_append_right _ List.mem_cons_self) ha

/-- A piece of a split string does not contain the separator. -/
theorem notMem_of_mem_splitOn {α : Type*} [DecidableEq α] {sep : α} {text piece : List α}
    (hmem : piece ∈ text.splitOn sep) : sep ∉ piece := by
  induction text generalizing piece with
  | nil =>
      rw [List.splitOn_nil, List.mem_singleton] at hmem
      simp [hmem]
  | cons first rest ih =>
      rw [List.splitOn_cons_eq_if_modifyHead] at hmem
      cases hpieces : rest.splitOn sep with
      | nil => exact absurd hpieces (List.splitOn_ne_nil sep rest)
      | cons head tail =>
          rw [hpieces] at hmem
          split at hmem
          · rcases List.mem_cons.mp hmem with rfl | hlater
            · exact List.not_mem_nil
            · exact ih (hpieces ▸ hlater)
          · next hne =>
              rw [List.modifyHead_cons] at hmem
              rcases List.mem_cons.mp hmem with rfl | hlater
              · rw [List.mem_cons, not_or]
                refine ⟨fun heq => hne (beq_iff_eq.mpr heq.symm), ?_⟩
                exact ih (hpieces ▸ List.mem_cons_self)
              · exact ih (hpieces ▸ List.mem_cons_of_mem _ hlater)

end Bytes

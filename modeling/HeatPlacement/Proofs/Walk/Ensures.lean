import HeatPlacement.Heat.Resolution

/-!
# Answers of walks

A walk ensures a property if each of its answers has it, wherever the walk begins. Nothing is said
about failures, so that a walk without answers is one that ensures the impossible.

* `Walk.Ensures`: every answer of a walk has a property
* `Walk.Ensures.bind`, `Walk.Ensures.foldlM`: sequences, and loops with an invariant
* `Walk.Fails`: a walk without answers
* `Walk.Fails.foldlM`: **a loop fails** if the step for one of its items does
-/

namespace HeatPlacement.Heat.Walk

variable {α β : Type} {P : α → Prop} {Q : β → Prop} {walk : Walk α}

/-- **Every answer has the property**, wherever the walk begins. -/
def Ensures (walk : Walk α) (P : α → Prop) : Prop :=
  ∀ (here : Position) (a : α), walk.outcome here = .ok a → P a

namespace Ensures

theorem ofExcept {result : Except TemplateError α} (h : ∀ a, result = .ok a → P a) :
    (ofExcept result).Ensures P := fun _ a => h a

theorem pure {a : α} (h : P a) : (Pure.pure a : Walk α).Ensures P := by
  intro here b hb
  cases hb
  exact h

/-- A walk ensures what follows from what it ensures. -/
theorem imp {P' : α → Prop} (h : walk.Ensures P) (himp : ∀ a, P a → P' a) : walk.Ensures P' :=
  fun here a ha => himp a (h here a ha)

/-- The next walk may rely on what the first one ensures. -/
theorem bind (h : walk.Ensures P) {next : α → Walk β} (hnext : ∀ a, P a → (next a).Ensures Q) :
    (walk >>= next).Ensures Q := by
  intro here b hb
  rw [outcome, bind_apply] at hb
  split at hb
  · rename_i a there heq
    exact hnext a (h here a (congrArg Prod.fst heq)) there b hb
  · cases hb

/-- What every next walk ensures, the sequence does. -/
theorem of_next {next : α → Walk β} (hnext : ∀ a, (next a).Ensures Q) : (walk >>= next).Ensures Q :=
  bind (P := fun _ => True) (fun _ _ _ => trivial) fun a _ => hnext a

theorem map {f : α → β} (h : walk.Ensures fun a => Q (f a)) : (f <$> walk).Ensures Q := by
  rw [map_eq_pure_bind]
  exact h.bind fun a ha => pure ha

/-- A loop keeps an invariant that each of its steps keeps. -/
theorem foldlM {step : β → α → Walk β} {items : List α} {start : β} (hstart : Q start)
    (hstep : ∀ b, Q b → ∀ a ∈ items, (step b a).Ensures Q) :
    (items.foldlM step start).Ensures Q := by
  induction items generalizing start with
  | nil => exact pure hstart
  | cons item rest ih =>
    rw [List.foldlM_cons]
    refine (hstep start hstart item List.mem_cons_self).bind fun b hb => ih hb fun b hb a ha => ?_
    exact hstep b hb a (List.mem_cons_of_mem _ ha)

theorem withCursor (h : walk.Ensures P) (cursor : Nat) : (withCursor cursor walk).Ensures P :=
  fun _ a ha => h _ a ha

theorem within (h : walk.Ensures P) (frame : Fields Json) : (within frame walk).Ensures P :=
  fun _ a ha => h _ a ha

theorem descend (h : walk.Ensures P) : (descend walk).Ensures P := by
  intro here a ha
  by_cases hlt : here.depth < depthLimit
  · rw [outcome, descend_of_lt hlt] at ha
    exact h _ a ha
  · rw [outcome, descend_of_le (Nat.not_lt.mp hlt)] at ha
    cases ha

end Ensures

/-- **A walk that never gives an answer**, wherever it begins. -/
def Fails (walk : Walk α) : Prop := walk.Ensures fun _ => False

namespace Fails

/-- A walk without answers gives an error. -/
theorem exists_error (h : walk.Fails) (here : Position) : ∃ e, walk.outcome here = .error e := by
  cases hwalk : walk.outcome here with
  | error e => exact ⟨e, rfl⟩
  | ok a => exact (h here a hwalk).elim

theorem throw (e : TemplateError) : (throw e : Walk α).Fails := fun _ _ h => nomatch h

/-- Nothing comes after a walk without answers. -/
theorem bind (h : walk.Fails) (next : α → Walk β) : (walk >>= next).Fails :=
  Ensures.bind h fun _ hfalse => hfalse.elim

theorem map (h : walk.Fails) (f : α → β) : (f <$> walk).Fails := Ensures.map h

/-- **A loop fails** if the step for one of its items does, whatever was done before. -/
theorem foldlM {step : β → α → Walk β} {items : List α} {item : α} (hitem : item ∈ items)
    (hstep : ∀ b, (step b item).Fails) (start : β) : (items.foldlM step start).Fails := by
  induction items generalizing start with
  | nil => exact absurd hitem List.not_mem_nil
  | cons first rest ih =>
    rw [List.foldlM_cons]
    rcases List.mem_cons.mp hitem with rfl | hrest
    · exact (hstep start).bind _
    · exact Ensures.of_next fun b => ih hrest b

end Fails

end HeatPlacement.Heat.Walk

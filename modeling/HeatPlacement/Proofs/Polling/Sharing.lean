import HeatPlacement.Proofs.Polling.Isolation

/-!
# Clients that share a key

A client asks for its result and removes it by two calls, and the store does not know that they
belong together. Where two clients wait under one key, as when a caller sends a request again, the
second one may ask in between: then both have the row, and both hand it on.

* `Interleaves`: the steps of clients under any keys and of the engine, one after another
* `World.Holds`, `World.Delivered`, `World.Found`: what has become of a row that the engine has put
* `Intrudes`: a client asks for a row **between the question and the removal** of another client
* `Interleaves.single`: without such a question no row is found twice
* `Interleaves.found_twice`: after such a question a row was found twice
* `delivered_once_unless_intruded`, `row_delivered_twice`: when each row is delivered once, and when
  it is not
-/

namespace HeatPlacement.Polling

variable {ι : Type*}

/-! ### Rows that were found -/

namespace World

/-- A client has found the row that was put as the `n`-th, and is yet to remove it. -/
def Holds (world : World ι) (n : Nat) (i : ι) : Prop :=
  world.seen i = some n ∧ ∃ row, world.phases i = .clearing row

/-- The row that was put as the `n`-th was delivered to a client. -/
def Delivered (world : World ι) (n : Nat) (i : ι) : Prop :=
  world.seen i = some n ∧ ∃ row, world.phases i = .finished (.delivered row)

/-- A client has found the row that was put as the `n`-th. -/
def Found (world : World ι) (n : Nat) (i : ι) : Prop :=
  world.seen i = some n ∧ ∃ row, (world.phases i).row? = some row

/-- **Each row is delivered to at most one client.** -/
def DeliversOnce (world : World ι) : Prop :=
  ∀ n i j, world.Delivered n i → world.Delivered n j → i = j

variable {world : World ι} {n : Nat} {i : ι}

theorem Holds.found (h : world.Holds n i) : world.Found n i := by
  obtain ⟨hseen, row, hphase⟩ := h
  exact ⟨hseen, row, by rw [hphase]; rfl⟩

theorem Delivered.found (h : world.Delivered n i) : world.Found n i := by
  obtain ⟨hseen, row, hphase⟩ := h
  exact ⟨hseen, row, by rw [hphase]; rfl⟩

/-- A row that was found is removed sooner or later, and delivered then. -/
theorem Found.holds_or_delivered (h : world.Found n i) : world.Holds n i ∨ world.Delivered n i := by
  obtain ⟨hseen, row, hrow⟩ := h
  generalize hphase : world.phases i = phase at hrow
  cases phase with
  | clearing found => exact .inl ⟨hseen, found, hphase⟩
  | finished outcome =>
    cases outcome with
    | delivered found => exact .inr ⟨hseen, found, hphase⟩
    | timedOut => cases hrow
  | _ => cases hrow

end World

/-! ### Rows that are there -/

/-- **A question in between**: by a step one client finds the row that another one has found and is
yet to remove. -/
def Intrudes (keys : ι → String) (step : Option ι × World ι) : Prop :=
  ∃ i j n, step.1 = some j ∧ step.2.phases j = .asking ∧
    (foundRow (step.2.store.row .results (keys j))).isSome ∧
    step.2.latest (keys j) = some n ∧ step.2.Holds n i

namespace World

variable {keys : ι → String} {world : World ι} {n : Nat} {i j : ι}

/-- A world in which no client has found anything yet. Clients that only wait ask at first, others
may have a request to write. -/
structure Unread (keys : ι → String) (world : World ι) : Prop where
  accounted : world.Accounted
  writes : ∀ i, (world.phases i).Writes (keys i)
  unread : ∀ i, (world.phases i).row? = none

/-- **What holds of every world**: a row that was found is one that was put under the client's
key. -/
structure Tracked (keys : ι → String) (world : World ι) : Prop where
  accounted : world.Accounted
  writes : ∀ i, (world.phases i).Writes (keys i)
  found : ∀ n i, world.Found n i → ∃ row, world.puts[n]? = some (keys i, row)

theorem Unread.not_found (h : world.Unread keys) : ¬ world.Found n i := by
  rintro ⟨-, row, hrow⟩
  rw [h.unread i] at hrow
  cases hrow

theorem Unread.tracked (h : world.Unread keys) : world.Tracked keys :=
  ⟨h.accounted, h.writes, fun _ _ hfound => absurd hfound h.not_found⟩

theorem Tracked.put (h : world.Tracked keys) (key : String) (row : Json) :
    (world.put key row).Tracked keys where
  accounted := h.accounted.put key row
  writes := h.writes
  found n i hfound := by
    obtain ⟨put, hput⟩ := h.found n i hfound
    exact ⟨put, getElem?_puts_put hput key row⟩

/-- The last row under a key was put under this key, if it is still there. -/
theorem Tracked.put_of_latest (h : world.Tracked keys) {key : String}
    (hsome : (foundRow (world.store.row .results key)).isSome)
    (hlatest : world.latest key = some n) : ∃ row, world.puts[n]? = some (key, row) := by
  obtain ⟨row, hfound⟩ := Option.isSome_iff_exists.mp hsome
  obtain ⟨text, htext, -⟩ := LocalStore.exists_text_of_foundRow hfound
  obtain ⟨m, put, hm, hput, -⟩ := h.accounted key text htext
  cases hlatest.symm.trans hm
  exact ⟨put, hput⟩

/-- **What holds where nobody asks in between**: no row was found twice, and one that was delivered
is no longer there. -/
structure Single (keys : ι → String) (world : World ι) : Prop where
  only : ∀ n i j, world.Found n i → world.Found n j → i = j
  gone : ∀ n i, world.Delivered n i → world.latest (keys i) = some n →
    world.store.rowText? .results (keys i) = none

theorem Unread.single (h : world.Unread keys) : world.Single keys :=
  ⟨fun _ _ _ hfound => absurd hfound h.not_found, fun _ _ hdelivered =>
    absurd hdelivered.found h.not_found⟩

theorem Single.put (htracked : world.Tracked keys) (h : world.Single keys) (key : String)
    (row : Json) : (world.put key row).Single keys where
  only := h.only
  gone n i hdelivered hlatest := by
    have hdelivered : world.Delivered n i := hdelivered
    obtain ⟨put, hput⟩ := htracked.found n i hdelivered.found
    have hlatest : Function.update world.latest key (some world.puts.length) (keys i) = some n :=
      hlatest
    by_cases hkey : keys i = key
    · -- The row that is put now is another one.
      rw [hkey, Function.update_self] at hlatest
      cases hlatest
      exact absurd (List.getElem?_eq_some_iff.mp hput).1 (Nat.lt_irrefl _)
    · rw [Function.update_of_ne hkey] at hlatest
      rw [World.put, LocalStore.rowText?_putRow, if_neg fun heq => hkey heq.2.symm]
      exact h.gone n i hdelivered hlatest

/-- A row that a client finds now was found by nobody, unless the client asks in between. -/
theorem Single.not_found (htracked : world.Tracked keys) (h : world.Single keys)
    (hphase : world.phases i = .asking)
    (hsome : (foundRow (world.store.row .results (keys i))).isSome)
    (hlatest : world.latest (keys i) = some n) (hstep : ¬ Intrudes keys (some i, world)) :
    ¬ world.Found n j := by
  intro hfound
  rcases hfound.holds_or_delivered with hholds | hdelivered
  · exact hstep ⟨j, i, n, rfl, hphase, hsome, hlatest, hholds⟩
  · -- Both rows are the `n`-th one, so the keys are the same, and under this key there is none.
    obtain ⟨put, hput⟩ := htracked.found n j hfound
    obtain ⟨other, hother⟩ := htracked.put_of_latest hsome hlatest
    have hkey : keys j = keys i := congrArg Prod.fst (Option.some.inj (hput.symm.trans hother))
    have hgone := h.gone n j hdelivered (hkey ▸ hlatest)
    rw [hkey] at hgone
    rw [LocalStore.row, hgone] at hsome
    cases hsome

end World

variable [DecidableEq ι]

/-! ### Interleavings -/

/-- **An interleaving**: the steps of clients that wait under keys and of the engine, in any order.
Each step is kept with the one who makes it and the world in which it is made. -/
inductive Interleaves (keys : ι → String) (start : World ι) :
    List (Option ι × World ι) → World ι → Prop where
  | refl : Interleaves keys start [] start
  /-- The engine puts a row. -/
  | engine {steps : List (Option ι × World ι)} {world : World ι} (key : String) (row : Json) :
    Interleaves keys start steps world →
      Interleaves keys start (steps ++ [(none, world)]) (world.put key row)
  /-- A client makes a step. -/
  | client {steps : List (Option ι × World ι)} {world : World ι} {i : ι}
      {after : Phase × LocalStore} :
    Interleaves keys start steps world → Acts (keys i) (world.phases i, world.store) after →
      Interleaves keys start (steps ++ [(some i, world)]) (world.moved i (keys i) after)

namespace World

variable {keys : ι → String} {world : World ι} {n : Nat} {i j : ι} {after : Phase × LocalStore}

theorem found_moved_of_ne (h : j ≠ i) :
    (world.moved i (keys i) after).Found n j ↔ world.Found n j := by
  rw [Found, Found, moved_seen_of_ne h, moved_phases_of_ne h]

theorem delivered_moved_of_ne (h : j ≠ i) :
    (world.moved i (keys i) after).Delivered n j ↔ world.Delivered n j := by
  rw [Delivered, Delivered, moved_seen_of_ne h, moved_phases_of_ne h]

/-- What was found stays found. -/
theorem Found.moved (h : world.Found n j)
    (hacts : Acts (keys i) (world.phases i, world.store) after)
    (hwrites : (world.phases i).Writes (keys i)) :
    (world.moved i (keys i) after).Found n j := by
  by_cases hj : j = i
  · subst hj
    obtain ⟨hseen, row, hrow⟩ := h
    rw [Found, moved_seen_self, moved_phases_self]
    generalize world.phases j = phase at hacts hwrites hrow
    cases hacts.does hwrites with
    | clear found => exact ⟨hseen, found, rfl⟩
    | _ => cases hrow
  · exact (found_moved_of_ne hj).mpr h

/-- What a client has found after a step, it has found before, or by a question in this step. -/
theorem found_of_moved (hacts : Acts (keys i) (world.phases i, world.store) after)
    (hwrites : (world.phases i).Writes (keys i))
    (h : (world.moved i (keys i) after).Found n i) :
    world.Found n i ∨ world.phases i = .asking ∧ world.latest (keys i) = some n ∧
      (foundRow (world.store.row .results (keys i))).isSome := by
  obtain ⟨hseen, row, hrow⟩ := h
  rw [moved_seen_self] at hseen
  rw [moved_phases_self] at hrow
  generalize hphase : world.phases i = phase at hacts hwrites hseen
  cases hacts.does hwrites with
  | @find _ text found htext hread =>
    have hfound : foundRow (world.store.row .results (keys i)) = some found := by
      rw [LocalStore.row, htext]
      simp only [hread]
      rfl
    exact .inr ⟨rfl, hseen, by rw [hfound]; rfl⟩
  | clear found => exact .inl ⟨hseen, found, by rw [hphase]; rfl⟩
  | _ => cases hrow

/-- A step that delivers a row removes what is under the key. -/
theorem delivered_of_moved (hacts : Acts (keys i) (world.phases i, world.store) after)
    (hwrites : (world.phases i).Writes (keys i))
    (h : (world.moved i (keys i) after).Delivered n i) :
    after.2.rowText? .results (keys i) = none := by
  obtain ⟨-, row, hrow⟩ := h
  rw [moved_phases_self] at hrow
  generalize world.phases i = phase at hacts hwrites
  cases hacts.does hwrites with
  | clear found => rw [LocalStore.rowText?_removeRow, if_pos ⟨rfl, rfl⟩]
  | _ => cases hrow

/-- A client that asks where there is a row finds the last one that was put. -/
theorem found_of_asking (hacts : Acts (keys i) (world.phases i, world.store) after)
    (hphase : world.phases i = .asking)
    (hsome : (foundRow (world.store.row .results (keys i))).isSome)
    (hlatest : world.latest (keys i) = some n) : (world.moved i (keys i) after).Found n i := by
  obtain ⟨row, hfound⟩ := Option.isSome_iff_exists.mp hsome
  rw [Found, moved_seen_self, moved_phases_self, if_pos hphase]
  rw [hphase] at hacts
  cases hacts with
  | call hdue =>
    cases hdue
    refine ⟨hlatest, row, ?_⟩
    show (Phase.asking.answered (world.store.row .results (keys i))).row? = some row
    rw [answered_asking_of_some hfound]
    rfl
  | pause hdue => cases hdue

theorem Tracked.moved (h : world.Tracked keys)
    (hacts : Acts (keys i) (world.phases i, world.store) after) :
    (world.moved i (keys i) after).Tracked keys where
  accounted key text htext := h.accounted key text (hacts.results_of_results (h.writes i) htext)
  writes j := by
    by_cases hj : j = i
    · subst hj
      rw [moved_phases_self]
      exact hacts.submitted.writes _
    · rw [moved_phases_of_ne hj]
      exact h.writes j
  found m j hfound := by
    by_cases hj : j = i
    · subst hj
      rcases found_of_moved hacts (h.writes j) hfound with hbefore | ⟨-, hlatest, hsome⟩
      · exact h.found m j hbefore
      · exact h.put_of_latest hsome hlatest
    · exact h.found m j ((found_moved_of_ne hj).mp hfound)

theorem Single.moved (htracked : world.Tracked keys) (h : world.Single keys)
    (hacts : Acts (keys i) (world.phases i, world.store) after)
    (hstep : ¬ Intrudes keys (some i, world)) : (world.moved i (keys i) after).Single keys where
  only n j k hj hk := by
    -- Only the client that moves can have found something just now.
    have hbefore : ∀ l, (world.moved i (keys i) after).Found n l → world.Found n l ∨
        l = i ∧ ∀ m, ¬ world.Found n m := by
      intro l hl
      by_cases hli : l = i
      · subst hli
        rcases found_of_moved hacts (htracked.writes l) hl with hl | ⟨hphase, hlatest, hsome⟩
        · exact .inl hl
        · exact .inr ⟨rfl, fun m => h.not_found htracked hphase hsome hlatest hstep⟩
      · exact .inl ((found_moved_of_ne hli).mp hl)
    rcases hbefore j hj with hj | ⟨rfl, hnone⟩
    · rcases hbefore k hk with hk | ⟨-, hnone⟩
      · exact h.only n j k hj hk
      · exact absurd hj (hnone j)
    · rcases hbefore k hk with hk | ⟨rfl, -⟩
      · exact absurd hk (hnone k)
      · rfl
  gone n j hdelivered hlatest := by
    by_cases hj : j = i
    · subst hj
      exact delivered_of_moved hacts (htracked.writes j) hdelivered
    · have hgone := h.gone n j ((delivered_moved_of_ne hj).mp hdelivered) hlatest
      refine Option.eq_none_iff_forall_ne_some.mpr fun text htext => ?_
      rw [hacts.results_of_results (htracked.writes i) htext] at hgone
      cases hgone

end World

/-! ### Whole interleavings -/

namespace Interleaves

variable {keys : ι → String} {start world : World ι} {steps : List (Option ι × World ι)}

theorem tracked (h : Interleaves keys start steps world) (hstart : start.Unread keys) :
    world.Tracked keys := by
  induction h with
  | refl => exact hstart.tracked
  | engine key row _ ih => exact ih.put key row
  | client _ hacts ih => exact ih.moved hacts

/-- **Without a question in between** no row is found twice. -/
theorem single (h : Interleaves keys start steps world) (hstart : start.Unread keys)
    (hsteps : ∀ step ∈ steps, ¬ Intrudes keys step) : world.Single keys := by
  induction h with
  | refl => exact hstart.single
  | engine key row hrun ih =>
    refine (ih fun step hstep => ?_).put (hrun.tracked hstart) key row
    exact hsteps step (List.mem_append_left _ hstep)
  | client hrun hacts ih =>
    refine (ih fun step hstep => ?_).moved (hrun.tracked hstart) hacts ?_
    · exact hsteps step (List.mem_append_left _ hstep)
    · exact hsteps _ (List.mem_append_right _ (List.mem_singleton_self _))

/-- **After a question in between** a row was found twice, and so it stays. -/
theorem found_twice (h : Interleaves keys start steps world) (hstart : start.Unread keys)
    {step : Option ι × World ι} (hmem : step ∈ steps) (hstep : Intrudes keys step) :
    ∃ n i j, i ≠ j ∧ world.Found n i ∧ world.Found n j := by
  induction h with
  | refl => cases hmem
  | engine key row hrun ih =>
    rcases List.mem_append.mp hmem with hmem | hmem
    · exact ih hmem
    · cases List.mem_singleton.mp hmem
      obtain ⟨_, _, _, hactor, -⟩ := hstep
      cases hactor
  | client hrun hacts ih =>
    have hwrites := (hrun.tracked hstart).writes
    rcases List.mem_append.mp hmem with hmem | hmem
    · obtain ⟨n, i, j, hne, hi, hj⟩ := ih hmem
      exact ⟨n, i, j, hne, hi.moved hacts (hwrites _), hj.moved hacts (hwrites _)⟩
    · cases List.mem_singleton.mp hmem
      obtain ⟨i, j, n, hactor, hphase, hsome, hlatest, hholds⟩ := hstep
      cases hactor
      refine ⟨n, i, _, ?_, hholds.found.moved hacts (hwrites _),
        World.found_of_asking hacts hphase hsome hlatest⟩
      -- The one has found a row and the other one asks.
      rintro rfl
      obtain ⟨-, row, hrow⟩ := hholds
      cases hphase.symm.trans hrow

end Interleaves

/-- **When each row is delivered once**, whatever the keys of the clients are: as long as nobody
asks for a row between the question and the removal of another client. And once somebody has, and
every row that was found is removed, a row was delivered twice. -/
theorem delivered_once_unless_intruded {keys : ι → String} {start world : World ι}
    {steps : List (Option ι × World ι)} (hstart : start.Unread keys)
    (hrun : Interleaves keys start steps world) :
    ((∀ step ∈ steps, ¬ Intrudes keys step) → world.DeliversOnce) ∧
      ((∀ i row, world.phases i ≠ .clearing row) → world.DeliversOnce →
        ∀ step ∈ steps, ¬ Intrudes keys step) := by
  constructor
  · intro hsteps n i j hi hj
    exact (hrun.single hstart hsteps).only n i j hi.found hj.found
  · intro hdone honce step hmem hstep
    obtain ⟨n, i, j, hne, hi, hj⟩ := hrun.found_twice hstart hmem hstep
    have hdelivered (k : ι) (hk : world.Found n k) : world.Delivered n k := by
      rcases hk.holds_or_delivered with ⟨-, row, hrow⟩ | hdelivered
      · exact absurd hrow (hdone k row)
      · exact hdelivered
    exact hne (honce n i j (hdelivered i hi) (hdelivered j hj))

/-- Two clients that wait under one key, in a store without rows. -/
def retried : World Bool := ⟨.empty, fun _ => .asking, [], fun _ => none, fun _ => none⟩

theorem retried_unread (keys : Bool → String) : retried.Unread keys where
  accounted _ _ htext := by cases htext
  writes _ _ hphase := by cases hphase
  unread _ := rfl

/-- The second client asks when the first one has removed the row, finds nothing and gives up. -/
theorem delivered_once_unless_intruded_of_retry :
    let keys (_ : Bool) : String := "create-r1"
    ∃ steps world, retried.Unread keys ∧ Interleaves keys retried steps world ∧
      (∀ step ∈ steps, ¬ Intrudes keys step) ∧ world.DeliversOnce ∧ world.Delivered 0 true ∧
      world.phases false = .finished .timedOut := by
  intro keys
  have hstart : Interleaves keys retried [] retried := .refl
  have hput := hstart.engine "create-r1" .null
  have hfound := hput.client (i := true) (.call rfl)
  have hcleared := hfound.client (i := true) (.call rfl)
  have hmissed := hcleared.client (i := false) (.call rfl)
  have hlate := hmissed.client (i := false) (.pause rfl true)
  obtain ⟨honce, -⟩ := delivered_once_unless_intruded (retried_unread keys) hlate
  refine ⟨_, _, retried_unread keys, hlate, ?steps, honce ?steps, ⟨rfl, .null, rfl⟩, rfl⟩
  simp only [List.forall_mem_append, List.forall_mem_singleton, List.not_mem_nil, false_imp_iff,
    implies_true, true_and, and_assoc]
  refine ⟨?engine, ?asks, ?removes, ?misses, ?late⟩ <;>
    rintro ⟨i, j, n, hactor, hphase, -, -, -, row, hrow⟩ <;> cases hactor
  case asks | misses => cases i <;> cases hrow
  case removes | late => cases hphase

/-- **A row that was put once is delivered twice.** Two clients wait under one key; both ask before
either of them removes the row. -/
theorem row_delivered_twice :
    let keys (_ : Bool) : String := "create-r1"
    ∃ steps world, Interleaves keys retried steps world ∧ world.puts = [("create-r1", .null)] ∧
      world.Delivered 0 true ∧ world.Delivered 0 false ∧ ¬ world.DeliversOnce := by
  intro keys
  have hstart : Interleaves keys retried [] retried := .refl
  have hput := hstart.engine "create-r1" .null
  have hfirst := hput.client (i := true) (.call rfl)
  have hsecond := hfirst.client (i := false) (.call rfl)
  have hcleared := hsecond.client (i := true) (.call rfl)
  have hagain := hcleared.client (i := false) (.call rfl)
  refine ⟨_, _, hagain, rfl, ⟨rfl, .null, rfl⟩, ⟨rfl, .null, rfl⟩, fun honce => ?_⟩
  exact absurd (honce 0 true false ⟨rfl, .null, rfl⟩ ⟨rfl, .null, rfl⟩) (by decide)

end HeatPlacement.Polling

import HeatPlacement.Proofs.Polling.Clients

/-!
# Clients with keys of their own

Clients that share a store meet under the keys of their rows only. What a client has found, it has
found under its key, where nobody but the engine puts a result; so clients whose keys are distinct
do not notice each other.

* `World.Sound`: every result row, and every row that was found, **is one that the engine has put**
* `World.Sound.step`, `World.Sound.reaches`: this stays so, whatever the keys are
* `World.Kept`: the requests that were written; they stay where keys are distinct
* `clients_isolated`: what each client gets, and what becomes of its rows
-/

namespace HeatPlacement.Polling

/-- The row that was found before a phase. -/
def Phase.row? : Phase → Option Json
  | .clearing row | .finished (.delivered row) => some row
  | _ => none

variable {ι : Type*} {clients : ι → Client} {world next : World ι}

namespace World

/-! ### Where rows come from -/

/-- Whether every result row is the last one that the engine has put under its key. -/
def Accounted (world : World ι) : Prop :=
  ∀ key text, world.store.rowText? .results key = some text →
    ∃ n row, world.latest key = some n ∧ world.puts[n]? = some (key, row) ∧ row.text = text

/-- A world in which the clients have yet to begin. Results may be left in it from earlier. -/
structure Begins (clients : ι → Client) (world : World ι) : Prop where
  phases : ∀ i, world.phases i = .submitting (clients i).document
  accounted : world.Accounted

/-- **What holds of every world**, whatever the keys are: each row that a client has found is the
one that it has seen under its own key. -/
structure Sound (clients : ι → Client) (world : World ι) : Prop where
  accounted : world.Accounted
  document : ∀ i document, world.phases i = .submitting document →
    document = (clients i).document
  found : ∀ i row, (world.phases i).row? = some row →
    ∃ n put, world.seen i = some n ∧ world.puts[n]? = some ((clients i).key, put) ∧
      Json.read? put.text = some row

theorem Begins.sound (h : world.Begins clients) : world.Sound clients where
  accounted := h.accounted
  document i document hphase := by
    rw [h.phases i] at hphase
    exact (Phase.submitting.inj hphase).symm
  found i row hrow := by
    rw [h.phases i] at hrow
    cases hrow

theorem Sound.writes (h : world.Sound clients) (i : ι) :
    (world.phases i).Writes (clients i).key := by
  intro document hphase
  rw [h.document i document hphase]
  exact (clients i).rowKey?_row

/-- The engine takes no row back. -/
theorem getElem?_puts_put {n : Nat} {entry : String × Json} (h : world.puts[n]? = some entry)
    (key : String) (row : Json) : (world.put key row).puts[n]? = some entry :=
  (List.getElem?_append_left (List.getElem?_eq_some_iff.mp h).1).trans h

theorem Accounted.put (h : world.Accounted) (key : String) (row : Json) :
    (world.put key row).Accounted := by
  intro name text htext
  rw [World.put, LocalStore.rowText?_putRow] at htext
  by_cases hname : key = name
  · subst hname
    rw [if_pos ⟨rfl, rfl⟩] at htext
    -- The row that is put is the last one under its key from now on.
    refine ⟨world.puts.length, row, Function.update_self key _ world.latest, ?_,
      Option.some.inj htext⟩
    exact List.getElem?_concat_length
  · rw [if_neg fun heq => hname heq.2] at htext
    obtain ⟨n, put, hlatest, hput, hrow⟩ := h name text htext
    refine ⟨n, put, ?_, getElem?_puts_put hput key row, hrow⟩
    exact (Function.update_of_ne (Ne.symm hname) _ world.latest).trans hlatest

theorem Sound.put (h : world.Sound clients) (key : String) (row : Json) :
    (world.put key row).Sound clients where
  accounted := h.accounted.put key row
  document := h.document
  found i found hfound := by
    obtain ⟨n, put, hseen, hput, hread⟩ := h.found i found hfound
    exact ⟨n, put, hseen, getElem?_puts_put hput key row, hread⟩

/-- What a client finds by its step, if it finds something, or has found before. -/
theorem Sound.found_moved [DecidableEq ι] (h : world.Sound clients) {i : ι}
    {after : Phase × LocalStore}
    (hacts : Acts (clients i).key (world.phases i, world.store) after) {row : Json}
    (hrow : after.1.row? = some row) :
    ∃ n put, (world.moved i (clients i).key after).seen i = some n ∧
      world.puts[n]? = some ((clients i).key, put) ∧ Json.read? put.text = some row := by
  rw [moved_seen_self]
  have hbefore := h.found i row
  generalize hphase : world.phases i = phase at hacts hbefore
  cases hacts.does (hphase ▸ h.writes i) with
  | find htext hread =>
    -- The row that the question finds is the last one that the engine has put under the key.
    cases hrow
    obtain ⟨n, put, hlatest, hput, rfl⟩ := h.accounted _ _ htext
    exact ⟨n, put, hlatest, hput, hread⟩
  | clear found => exact hbefore hrow
  | _ => cases hrow

theorem Sound.moved [DecidableEq ι] (h : world.Sound clients) {i : ι} {after : Phase × LocalStore}
    (hacts : Acts (clients i).key (world.phases i, world.store) after) :
    (world.moved i (clients i).key after).Sound clients where
  accounted key text htext := h.accounted key text (hacts.results_of_results (h.writes i) htext)
  document j document hphase := by
    by_cases hj : j = i
    · subst hj
      rw [moved_phases_self] at hphase
      have hsubmitted := hacts.submitted
      rw [hphase] at hsubmitted
      exact hsubmitted.elim
    · rw [moved_phases_of_ne hj] at hphase
      exact h.document j document hphase
  found j row hrow := by
    by_cases hj : j = i
    · subst hj
      rw [moved_phases_self] at hrow
      exact h.found_moved hacts hrow
    · rw [moved_phases_of_ne hj] at hrow
      rw [moved_seen_of_ne hj]
      exact h.found j row hrow

/-- **Every step keeps a world sound.** -/
theorem Sound.step [DecidableEq ι] {actor : Option ι} (h : world.Sound clients)
    (hstep : Step clients actor world next) : next.Sound clients := by
  cases hstep with
  | engine _ key row => exact h.put key row
  | client hacts => exact h.moved hacts

/-- **Every world that a sound one comes to is sound.** -/
theorem Sound.reaches [DecidableEq ι] (h : world.Sound clients)
    (hreaches : Reaches clients world next) : next.Sound clients := by
  induction hreaches with
  | refl => exact h
  | tail _ hstep ih =>
    obtain ⟨actor, hstep⟩ := hstep
    exact ih.step hstep

/-! ### Requests that were written -/

/-- Whether every request that was written is there as its client wrote it. -/
def Kept (clients : ι → Client) (world : World ι) : Prop :=
  ∀ i, (world.phases i).Submitted →
    world.store.rowText? .requests (clients i).key = some (clients i).row.text

theorem Begins.kept (h : world.Begins clients) : world.Kept clients := by
  intro i hphase
  rw [h.phases i] at hphase
  exact hphase.elim

theorem Kept.put (h : world.Kept clients) (key : String) (row : Json) :
    (world.put key row).Kept clients := by
  intro i hphase
  rw [World.put, LocalStore.rowText?_putRow, if_neg fun heq => by cases heq.1]
  exact h i hphase

/-- A client with a key of its own neither loses its request nor takes another client's. -/
theorem Kept.moved [DecidableEq ι] (hkeys : Function.Injective fun i => (clients i).key)
    (hsound : world.Sound clients) (h : world.Kept clients) {i : ι} {after : Phase × LocalStore}
    (hacts : Acts (clients i).key (world.phases i, world.store) after) :
    (world.moved i (clients i).key after).Kept clients := by
  intro j hphase
  by_cases hj : j = i
  · subst hj
    -- The client has written its request before, or does so by this step.
    by_cases hbefore : (world.phases j).Submitted
    · exact (hacts.requests_of_submitted hbefore _).trans (h j hbefore)
    · obtain ⟨document, hdocument, htext⟩ :=
        hacts.requests_of_not_submitted (hsound.writes j) hbefore
      rwa [hsound.document j document hdocument] at htext
  · rw [moved_phases_of_ne hj] at hphase
    have hne : (clients j).key ≠ (clients i).key := fun heq => hj (hkeys heq)
    exact (hacts.rowText?_of_ne (hsound.writes i) hne .requests).trans (h j hphase)

theorem Kept.reaches [DecidableEq ι] (hkeys : Function.Injective fun i => (clients i).key)
    (hsound : world.Sound clients) (h : world.Kept clients)
    (hreaches : Reaches clients world next) : next.Kept clients := by
  induction hreaches with
  | refl => exact h
  | @tail between _ hbefore hstep ih =>
    obtain ⟨actor, hstep⟩ := hstep
    cases hstep with
    | engine _ key row => exact ih.put key row
    | client hacts => exact ih.moved hkeys (hsound.reaches hbefore) hacts

end World

/-! ### Isolation -/

/-- **Clients whose keys are distinct do not notice each other.** However their steps and those of
the engine follow one another: a row that is delivered is one that the engine has put under the
client's own key, and as such it is delivered to nobody else; no step of a client changes a row
under another key, in either table; and a request, once written, is there as its client wrote it. -/
theorem clients_isolated [DecidableEq ι] (hkeys : Function.Injective fun i => (clients i).key)
    {start : World ι} (hstart : start.Begins clients) (hreaches : Reaches clients start world) :
    (∀ i row, world.phases i = .finished (.delivered row) →
      ∃ n put, world.seen i = some n ∧ world.puts[n]? = some ((clients i).key, put) ∧
        Json.read? put.text = some row) ∧
    (∀ i j row row', world.phases i = .finished (.delivered row) →
      world.phases j = .finished (.delivered row') → world.seen i = world.seen j → i = j) ∧
    (∀ i next, Step clients (some i) world next → ∀ table key, key ≠ (clients i).key →
      next.store.rowText? table key = world.store.rowText? table key) ∧
    ∀ i, (world.phases i).Submitted →
      world.store.rowText? .requests (clients i).key = some (clients i).row.text := by
  have hsound := hstart.sound.reaches hreaches
  have hfound (i : ι) (row : Json) (hphase : world.phases i = .finished (.delivered row)) :=
    hsound.found i row (by rw [hphase]; rfl)
  refine ⟨hfound, fun i j row row' hi hj hseen => ?_, fun i next hstep table key hne => ?_,
    hstart.kept.reaches hkeys hstart.sound hreaches⟩
  · obtain ⟨n, put, hn, hput, -⟩ := hfound i row hi
    obtain ⟨m, other, hm, hother, -⟩ := hfound j row' hj
    -- One and the same row was put under both keys.
    obtain rfl : n = m := Option.some.inj (hn.symm.trans (hseen.trans hm))
    exact hkeys (congrArg Prod.fst (Option.some.inj (hput.symm.trans hother)))
  · cases hstep with
    | client hacts => exact hacts.rowText?_of_ne (hsound.writes i) hne table

/-- A creation and an update under one identifier. The update asks in vain and gives up; the engine
puts a second row for the creation between its question and the removal. -/
theorem clients_isolated_of_two :
    let clients (first : Bool) : Client :=
      if first then ⟨.create, "r1", 7, .obj []⟩ else ⟨.update, "r1", 8, .obj []⟩
    let start : World Bool := ⟨.empty, fun i => .submitting (clients i).document, [], fun _ => none,
      fun _ => none⟩
    Function.Injective (fun i => (clients i).key) ∧ start.Begins clients ∧
      ∃ world, Reaches clients start world ∧ world.phases true = .finished (.delivered .null) ∧
        world.phases false = .finished .timedOut ∧
        (∃ n put, world.seen true = some n ∧ world.puts[n]? = some ("create-r1", put) ∧
          Json.read? put.text = some .null) ∧
        world.store.rowText? .requests "update-r1" = some (clients false).row.text := by
  intro clients start
  have hkeys : Function.Injective (fun i => (clients i).key) := by
    intro i j h
    cases i <;> cases j <;> first | rfl | exact absurd h (by decide)
  have hstart : start.Begins clients := ⟨fun _ => rfl, fun _ _ htext => by cases htext⟩
  have hbegun : Reaches clients start start := .refl
  have hcreated := hbegun.tail ⟨some true, .client (.call rfl)⟩
  have hupdated := hcreated.tail ⟨some false, .client (.call rfl)⟩
  have hmissed := hupdated.tail ⟨some false, .client (.call rfl)⟩
  have hput := hmissed.tail ⟨none, .engine _ "create-r1" .null⟩
  have hfound := hput.tail ⟨some true, .client (.call rfl)⟩
  have hputagain := hfound.tail ⟨none, .engine _ "create-r1" (.bool true)⟩
  have hdelivered := hputagain.tail ⟨some true, .client (.call rfl)⟩
  have hlate := hdelivered.tail ⟨some false, .client (.pause rfl true)⟩
  have hisolated := clients_isolated hkeys hstart hlate
  exact ⟨hkeys, hstart, _, hlate, rfl, rfl, hisolated.1 true .null rfl,
    hisolated.2.2.2 false trivial⟩

end HeatPlacement.Polling

import HeatPlacement.Proofs.Polling.Protocol
import Mathlib.Logic.Function.Basic
import Mathlib.Logic.Relation

/-!
# Clients of one store

Any number of clients submit their requests to one local store, a call at a time and in any order,
while the engine puts result rows into it. Beside the store and the phases of the clients, a world
keeps the rows that the engine has put, in their order, so that one can tell where a row comes from.

* `Acts`: one step of a client under a key, and `Does`: **all that it can be**
* `Acts.rowText?_of_ne`: a client leaves the rows of other keys alone
* `Client`, `World`, `Step`, `Reaches`: clients, and what they and the engine do
* `reaches_of_leads`, `reaches_submitAndPoll`: **a submission that runs alone** is one of the ways
  that a world can take
-/

namespace HeatPlacement

namespace LocalStore

/-- A document for a row that says its key is written under it. -/
theorem store_insert {document : Json} {key : String}
    (h : rowKey? (insertedRow document) = some key) (table : Table) (state : LocalStore) :
    store (.insert table document) state =
      (.ok none, state.putRow table key (insertedRow document)) := by
  simp only [store, h]

/-- A row that is found is what its text reads as. -/
theorem exists_text_of_foundRow {state : LocalStore} {table : Table} {key : String} {row : Json}
    (h : Polling.foundRow (state.row table key) = some row) :
    ∃ text, state.rowText? table key = some text ∧ Json.read? text = some row := by
  rw [LocalStore.row] at h
  cases htext : state.rowText? table key with
  | none =>
    rw [htext] at h
    cases h
  | some text =>
    rw [htext] at h
    dsimp only at h
    cases hread : Json.read? text with
    | none =>
      rw [hread] at h
      cases h
    | some found =>
      rw [hread] at h
      cases h
      exact ⟨text, rfl, hread⟩

end LocalStore

namespace Polling

/-! ### One client -/

/-- **One step of a client** under a key: it calls the store, or goes on after a pause. How late it
is then is left open. -/
inductive Acts (key : String) : Phase × LocalStore → Phase × LocalStore → Prop where
  | call {phase : Phase} {store : LocalStore} {call : StoreCall}
    (hdue : phase.due key = .call call) :
    Acts key (phase, store)
      (phase.answered (LocalStore.store call store).1, (LocalStore.store call store).2)
  | pause {phase : Phase} {store : LocalStore} (hdue : phase.due key = .pause) (late : Bool) :
    Acts key (phase, store) (phase.woken late, store)

/-- Whether what is to be written before a phase is a row under a key. -/
def Phase.Writes (key : String) (phase : Phase) : Prop :=
  ∀ document, phase = .submitting document →
    LocalStore.rowKey? (LocalStore.insertedRow document) = some key

/-- Behind the insertion there is nothing to be written. -/
theorem Phase.Submitted.writes {phase : Phase} (h : phase.Submitted) (key : String) :
    phase.Writes key := by
  rintro document rfl
  exact h.elim

/-- **All that a step can be**, for a client that writes a row under its own key. -/
inductive Does (key : String) : Phase × LocalStore → Phase × LocalStore → Prop where
  /-- The request is written. -/
  | insert (document : Json) (store : LocalStore) :
    Does key (.submitting document, store)
      (.asking, store.putRow .requests key (LocalStore.insertedRow document))
  /-- A question finds no row that can be read. -/
  | miss (store : LocalStore) : Does key (.asking, store) (.waiting, store)
  /-- A question finds a row. -/
  | find {store : LocalStore} {text : String} {row : Json}
    (htext : store.rowText? .results key = some text) (hread : Json.read? text = some row) :
    Does key (.asking, store) (.clearing row, store)
  /-- The row that was found is removed and handed on. -/
  | clear (row : Json) (store : LocalStore) :
    Does key (.clearing row, store)
      (.finished (.delivered row), store.removeRow .results key)
  | again (store : LocalStore) : Does key (.waiting, store) (.asking, store)
  | giveUp (store : LocalStore) : Does key (.waiting, store) (.finished .timedOut, store)

namespace Acts

variable {key : String} {phase : Phase} {store : LocalStore} {after : Phase × LocalStore}

theorem does (h : Acts key (phase, store) after) (hwrites : phase.Writes key) :
    Does key (phase, store) after := by
  cases h with
  | call hdue =>
    cases phase with
    | submitting document =>
      cases hdue
      rw [LocalStore.store_insert (hwrites document rfl)]
      exact .insert document store
    | asking =>
      cases hdue
      show Does key (.asking, store) (Phase.asking.answered (store.row .results key), store)
      -- The store does not change, and what is found decides on the phase.
      cases hfound : foundRow (store.row .results key) with
      | none =>
        rw [answered_asking_of_none hfound]
        exact .miss store
      | some row =>
        obtain ⟨text, htext, hread⟩ := LocalStore.exists_text_of_foundRow hfound
        rw [answered_asking_of_some hfound]
        exact .find htext hread
    | waiting => cases hdue
    | clearing row =>
      cases hdue
      exact .clear row store
    | finished outcome => cases hdue
  | pause hdue late =>
    cases phase with
    | waiting =>
      cases late with
      | false => exact .again store
      | true => exact .giveUp store
    | _ => cases hdue

/-- No step leads back before the insertion. -/
theorem submitted (h : Acts key (phase, store) after) : after.1.Submitted := by
  cases h with
  | call hdue => exact phase.submitted_answered _
  | pause hdue late =>
    cases phase with
    | waiting => cases late <;> trivial
    | _ => cases hdue

/-- **A client leaves the rows of other keys alone**, in both tables. -/
theorem rowText?_of_ne (h : Acts key (phase, store) after) (hwrites : phase.Writes key)
    {name : String} (hne : name ≠ key) (table : Table) :
    after.2.rowText? table name = store.rowText? table name := by
  cases h.does hwrites with
  | insert document => rw [LocalStore.rowText?_putRow, if_neg fun heq => hne heq.2.symm]
  | clear row => rw [LocalStore.rowText?_removeRow, if_neg fun heq => hne heq.2.symm]
  | _ => rfl

/-- A client puts no row among the results. -/
theorem results_of_results (h : Acts key (phase, store) after) (hwrites : phase.Writes key)
    {name text : String} (htext : after.2.rowText? .results name = some text) :
    store.rowText? .results name = some text := by
  cases h.does hwrites with
  | insert document =>
    rwa [LocalStore.rowText?_putRow, if_neg fun heq => by cases heq.1] at htext
  | clear row =>
    rw [LocalStore.rowText?_removeRow] at htext
    split at htext
    · cases htext
    · exact htext
  | _ => exact htext

/-- Behind the insertion a client changes no request. -/
theorem requests_of_submitted (h : Acts key (phase, store) after) (hphase : phase.Submitted)
    (name : String) : after.2.rowText? .requests name = store.rowText? .requests name := by
  cases h.does (hphase.writes key) with
  | insert document => exact hphase.elim
  | clear row => rw [LocalStore.rowText?_removeRow, if_neg fun heq => by cases heq.1]
  | _ => rfl

/-- The step that writes a request writes it under the key of the client. -/
theorem requests_of_not_submitted (h : Acts key (phase, store) after) (hwrites : phase.Writes key)
    (hphase : ¬ phase.Submitted) :
    ∃ document, phase = .submitting document ∧
      after.2.rowText? .requests key = some (LocalStore.insertedRow document).text := by
  cases h.does hwrites with
  | insert document =>
    exact ⟨document, rfl, by rw [LocalStore.rowText?_putRow, if_pos ⟨rfl, rfl⟩]⟩
  | _ => exact absurd trivial hphase

end Acts

/-- A course is made of steps of the client. -/
theorem Leads.acts {settings : Settings} {key : String} {steps : Nat}
    {here last : Moment LocalStore} {calls : List (Nat × StoreCall)}
    (h : Leads settings LocalStore.store key steps here calls last) :
    Relation.ReflTransGen (Acts key) (here.phase, here.state) (last.phase, last.state) := by
  induction h with
  | refl here => exact .refl
  | call hdue _ ih => exact .head (.call hdue) ih
  | sleep hdue _ _ ih => exact .head (.pause hdue false) ih
  | late hdue _ _ ih => exact .head (.pause hdue true) ih

/-! ### Many clients -/

/-- What a client submits, and when. -/
structure Client where
  operation : Operation
  requestId : String
  timestamp : Nat
  request : Json
  deriving DecidableEq, Repr, Inhabited

namespace Client

/-- The key under which the request is written and the result is asked for. -/
def key (client : Client) : String := client.operation.requestKey client.requestId

/-- The document that writes the request. -/
def document (client : Client) : Json :=
  insertDocument client.key client.timestamp client.request

/-- The row of the request. -/
def row (client : Client) : Json := LocalStore.insertedRow client.document

theorem rowKey?_row (client : Client) : LocalStore.rowKey? client.row = some client.key := rfl

end Client

/-- **A store with its clients**, and where the rows come from that the engine has put among the
results. -/
structure World (ι : Type*) where
  store : LocalStore
  phases : ι → Phase
  /-- The rows that the engine has put with their keys, in their order. -/
  puts : List (String × Json)
  /-- Which of them was the last one under a key. -/
  latest : String → Option Nat
  /-- Which of them was the last one under a client's key when the client last asked. -/
  seen : ι → Option Nat

variable {ι : Type*} [DecidableEq ι]

namespace World

/-- The engine puts a result row under a key. -/
def put (world : World ι) (key : String) (row : Json) : World ι :=
  { world with
    store := world.store.putRow .results key row
    puts := world.puts ++ [(key, row)]
    latest := Function.update world.latest key (some world.puts.length) }

/-- A client gets to a phase and leaves a store behind. -/
def moved (world : World ι) (client : ι) (key : String) (after : Phase × LocalStore) : World ι :=
  { world with
    store := after.2
    phases := Function.update world.phases client after.1
    seen := Function.update world.seen client
      (if world.phases client = .asking then world.latest key else world.seen client) }

section Moved

variable {world : World ι} {i j : ι} {key : String} {after : Phase × LocalStore}

theorem moved_phases_self : (world.moved i key after).phases i = after.1 := by
  simp only [moved, Function.update_self]

theorem moved_phases_of_ne (h : j ≠ i) : (world.moved i key after).phases j = world.phases j := by
  simp only [moved, Function.update_of_ne h]

theorem moved_seen_self : (world.moved i key after).seen i =
    if world.phases i = .asking then world.latest key else world.seen i := by
  simp only [moved, Function.update_self]

theorem moved_seen_of_ne (h : j ≠ i) : (world.moved i key after).seen j = world.seen j := by
  simp only [moved, Function.update_of_ne h]

end Moved

end World

/-- **One step of a world**: the engine puts a row, or one of the clients makes a step. -/
inductive Step (clients : ι → Client) : Option ι → World ι → World ι → Prop where
  | engine (world : World ι) (key : String) (row : Json) :
    Step clients none world (world.put key row)
  | client {world : World ι} {i : ι} {after : Phase × LocalStore}
    (hacts : Acts (clients i).key (world.phases i, world.store) after) :
    Step clients (some i) world (world.moved i (clients i).key after)

/-- What a world comes to, whoever makes the steps. -/
def Reaches (clients : ι → Client) : World ι → World ι → Prop :=
  Relation.ReflTransGen fun world next => ∃ actor, Step clients actor world next

/-- What a client can do alone, it can do among others while these rest. -/
theorem reaches_of_acts {clients : ι → Client} {i : ι} {world : World ι}
    {after : Phase × LocalStore}
    (h : Relation.ReflTransGen (Acts (clients i).key) (world.phases i, world.store) after) :
    ∃ next, Reaches clients world next ∧ (next.phases i, next.store) = after ∧
      ∀ j ≠ i, next.phases j = world.phases j := by
  induction h with
  | refl => exact ⟨world, .refl, rfl, fun _ _ => rfl⟩
  | @tail between after _ hacts ih =>
    obtain ⟨next, hreaches, rfl, hothers⟩ := ih
    refine ⟨next.moved i (clients i).key after, hreaches.tail ⟨some i, .client hacts⟩, ?_, ?_⟩
    · exact congrArg (·, after.2) World.moved_phases_self
    · exact fun j hj => (World.moved_phases_of_ne hj).trans (hothers j hj)

/-- The course of a single submission is one of the ways that a world can take. -/
theorem reaches_of_leads {clients : ι → Client} {settings : Settings} {steps : Nat}
    {here last : Moment LocalStore} {calls : List (Nat × StoreCall)} {i : ι}
    (h : Leads settings LocalStore.store (clients i).key steps here calls last) {world : World ι}
    (hphase : world.phases i = here.phase) (hstore : world.store = here.state) :
    ∃ next, Reaches clients world next ∧ (next.phases i, next.store) = (last.phase, last.state) ∧
      ∀ j ≠ i, next.phases j = world.phases j := by
  have hacts := h.acts
  rw [← hphase, ← hstore] at hacts
  exact reaches_of_acts hacts

/-- **A submission that runs alone** comes to its outcome in the world as well. -/
theorem reaches_submitAndPoll {clients : ι → Client} {settings : Settings}
    (hpoll : 0 < settings.pollEvery.millis) {i : ι} {world : World ι}
    (hphase : world.phases i = .submitting (clients i).document) :
    ∃ next, Reaches clients world next ∧
      next.phases i = .finished (submitAndPoll settings LocalStore.store (clients i).operation
        (clients i).requestId (clients i).timestamp (clients i).request world.store).result ∧
      ∀ j ≠ i, next.phases j = world.phases j := by
  obtain ⟨time, steps, last, hleads⟩ :=
    exists_concludes hpoll LocalStore.store (clients i).key (clients i).document world.store
  obtain ⟨next, hreaches, hnext, hothers⟩ := reaches_of_leads hleads hphase rfl
  exact ⟨next, hreaches, congrArg Prod.fst hnext, hothers⟩

end Polling

end HeatPlacement

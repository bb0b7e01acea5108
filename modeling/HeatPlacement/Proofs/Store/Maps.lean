import HeatPlacement.Proofs.Json.ReadBack
import HeatPlacement.Store.Local
import Mathlib.Data.Finmap

/-!
# The local store as two maps

Whoever asks a local store sees two maps from keys to rows, one for each table. That rows are kept
as texts does not show, as long as the rows that are written can be read back.

* `RowOperation`, `RowReply`: what can be asked of a local store, and what it answers
* `RowChange`: what an operation does to the rows
* `RowMaps`: two finite maps that answer the same operations
* `LocalStore.Represents`: a store shows the rows of two maps
* `LocalStore.Represents.perform`, `LocalStore.Represents.run`: **one operation and any number of
  them** are answered alike and lead to a store and maps that still agree
* `LocalStore.Lawful`: what single operations do
* `LocalStore.refines_maps`: the local store is two maps
-/

namespace HeatPlacement

open LocalStore (insertedRow rowKey?)

/-! ### Operations -/

/-- What can be asked of a local store: the calls of every row store, and single rows. -/
inductive RowOperation where
  | call (call : StoreCall)
  | putRow (table : Table) (key : String) (row : Json)
  | removeRow (table : Table) (key : String)
  | readRow (table : Table) (key : String)
  deriving DecidableEq, Repr

/-- What a local store answers. -/
inductive RowReply where
  | answer (answer : StoreAnswer)
  /-- Whether there was a row to remove. -/
  | removed (existed : Bool)
  deriving DecidableEq

/-- What becomes of the rows. -/
inductive RowChange where
  | keep
  | put (table : Table) (key : String) (row : Json)
  | remove (table : Table) (key : String)
  deriving DecidableEq, Repr

namespace RowChange

/-- The table and the key at which something changes. -/
def place? : RowChange → Option (Table × String)
  | keep => none
  | put table key _ | remove table key => some (table, key)

/-- The row that is written. -/
def row? : RowChange → Option Json
  | put _ _ row => some row
  | keep | remove _ _ => none

end RowChange

namespace RowOperation

/-- What an operation does to the rows. -/
def change : RowOperation → RowChange
  | .call (.insert table document) =>
    match rowKey? (insertedRow document) with
    | some key => .put table key (insertedRow document)
    | none => .keep
  | .putRow table key row => .put table key row
  | .call (.delete table key _) | .removeRow table key => .remove table key
  | .call (.get _ _) | .readRow _ _ => .keep

/-- The row that is written, if any, can be read back. -/
def Readable (operation : RowOperation) : Prop :=
  ∀ row ∈ operation.change.row?, row.plain Json.depthLimit = true

instance (operation : RowOperation) : Decidable operation.Readable :=
  inferInstanceAs (Decidable (∀ row ∈ operation.change.row?, row.plain Json.depthLimit = true))

/-- Perform operations in order: the replies and the last state. -/
def runAll {σ : Type} (perform : RowOperation → σ → RowReply × σ) :
    List RowOperation → σ → List RowReply × σ
  | [], state => ([], state)
  | operation :: more, state =>
    let (reply, next) := perform operation state
    let (replies, last) := runAll perform more next
    (reply :: replies, last)

end RowOperation

/-! ### Two maps -/

/-- Finite maps from keys to rows, one for each table. -/
abbrev RowMaps := Table → Finmap fun _ : String => Json

namespace RowMaps

/-- The maps without rows. -/
def empty : RowMaps := fun _ => ∅

/-- The maps after a change. -/
def apply (maps : RowMaps) : RowChange → RowMaps
  | .keep => maps
  | .put table key row => Function.update maps table ((maps table).insert key row)
  | .remove table key => Function.update maps table ((maps table).erase key)

/-- A change leaves the maps alone at every other place. -/
theorem lookup_apply_of_ne {maps : RowMaps} {change : RowChange} {table : Table} {key : String}
    (h : change.place? ≠ some (table, key)) :
    (maps.apply change table).lookup key = (maps table).lookup key := by
  cases change with
  | keep => rfl
  | put other name row =>
    rcases eq_or_ne table other with rfl | htable
    · have hkey : key ≠ name := by rintro rfl; exact h rfl
      rw [apply, Function.update_self, Finmap.lookup_insert_of_ne _ hkey]
    · rw [apply, Function.update_of_ne htable]
  | remove other name =>
    rcases eq_or_ne table other with rfl | htable
    · have hkey : key ≠ name := by rintro rfl; exact h rfl
      rw [apply, Function.update_self, Finmap.lookup_erase_ne hkey]
    · rw [apply, Function.update_of_ne htable]

/-- What two maps answer. -/
def reply (maps : RowMaps) : RowOperation → RowReply
  | .call (.insert _ document) =>
    match rowKey? (insertedRow document) with
    | some _ => .answer (.ok none)
    | none => .answer (.error (.missingKey (insertedRow document)))
  | .call (.get table key) | .readRow table key => .answer (.ok ((maps table).lookup key))
  | .call (.delete _ _ _) | .putRow _ _ _ => .answer (.ok none)
  | .removeRow table key => .removed (decide (key ∈ maps table))

/-- How two maps perform an operation. -/
def perform (operation : RowOperation) (maps : RowMaps) : RowReply × RowMaps :=
  (maps.reply operation, maps.apply operation.change)

end RowMaps

/-! ### The store -/

namespace LocalStore

/-- How a local store performs an operation. -/
def perform : RowOperation → LocalStore → RowReply × LocalStore
  | .call call, state => let (answer, next) := store call state; (.answer answer, next)
  | .putRow table key row, state => (.answer (.ok none), state.putRow table key row)
  | .removeRow table key, state => (.removed (state.hasRow table key), state.removeRow table key)
  | .readRow table key, state => (.answer (state.row table key), state)

/-- The store after a change. -/
def apply (state : LocalStore) : RowChange → LocalStore
  | .keep => state
  | .put table key row => state.putRow table key row
  | .remove table key => state.removeRow table key

/-- An operation changes the rows as it says. -/
theorem perform_snd (operation : RowOperation) (state : LocalStore) :
    (perform operation state).2 = state.apply operation.change := by
  match operation with
  | .call (.insert table document) =>
    simp only [perform, store, RowOperation.change]
    cases rowKey? (insertedRow document) <;> rfl
  | .call (.get _ _) | .call (.delete _ _ _) | .putRow _ _ _ | .removeRow _ _ | .readRow _ _ => rfl

/-- A change leaves the rows alone at every other place. -/
theorem rowText?_apply_of_ne {state : LocalStore} {change : RowChange} {table : Table}
    {key : String} (h : change.place? ≠ some (table, key)) :
    (state.apply change).rowText? table key = state.rowText? table key := by
  cases change with
  | keep => rfl
  | put other name row =>
    rw [apply, rowText?_putRow, if_neg]
    rintro ⟨rfl, rfl⟩
    exact h rfl
  | remove other name =>
    rw [apply, rowText?_removeRow, if_neg]
    rintro ⟨rfl, rfl⟩
    exact h rfl

/-- A row is answered by its text alone. -/
theorem row_congr {state other : LocalStore} {table : Table} {key : String}
    (h : state.rowText? table key = other.rowText? table key) :
    state.row table key = other.row table key := by
  rw [row, row, h]

/-- Only where there is no text is there no row. -/
theorem row_eq_ok_none_iff {state : LocalStore} {table : Table} {key : String} :
    state.row table key = .ok none ↔ state.hasRow table key = false := by
  rw [row, hasRow]
  split
  next htext => simp [htext]
  next text htext =>
    simp only [htext, Option.isSome_some, Bool.true_eq_false, iff_false]
    split <;> simp

/-- A row that was written is read back. -/
theorem row_putRow_self (state : LocalStore) (table : Table) (key : String) {row : Json}
    (h : row.plain Json.depthLimit = true) :
    (state.putRow table key row).row table key = .ok (some row) := by
  rw [LocalStore.row, rowText?_putRow, if_pos ⟨rfl, rfl⟩]
  simp [Json.read?_text h]

/-- A row that was removed is gone. -/
theorem row_removeRow_self (state : LocalStore) (table : Table) (key : String) :
    (state.removeRow table key).row table key = .ok none := by
  rw [row, rowText?_removeRow, if_pos ⟨rfl, rfl⟩]

/-! ### The store and the maps -/

/-- A store shows the rows of two maps. -/
def Represents (state : LocalStore) (maps : RowMaps) : Prop :=
  ∀ table key, state.row table key = .ok ((maps table).lookup key)

namespace Represents

theorem empty : Represents .empty .empty := fun table key => by
  cases table <;> rfl

variable {state : LocalStore} {maps : RowMaps}

/-- The store has a row where the maps have one. -/
theorem hasRow_eq (h : state.Represents maps) (table : Table) (key : String) :
    state.hasRow table key = decide (key ∈ maps table) := by
  have hnone : state.hasRow table key = false ↔ key ∉ maps table := by
    rw [← row_eq_ok_none_iff, h table key, ← Finmap.lookup_eq_none, Except.ok.injEq]
  by_cases hmem : key ∈ maps table
  · simpa [hmem] using hnone
  · simpa [hmem] using hnone

/-- **One change** of both. -/
theorem apply (h : state.Represents maps) {change : RowChange}
    (hrow : ∀ row ∈ change.row?, row.plain Json.depthLimit = true) :
    (state.apply change).Represents (maps.apply change) := by
  intro table key
  -- At the place of the change the new row decides, everywhere else the old ones do.
  by_cases hplace : change.place? = some (table, key)
  · cases change with
    | keep => cases hplace
    | put other name row =>
      obtain ⟨rfl, rfl⟩ : other = table ∧ name = key := by simpa [RowChange.place?] using hplace
      rw [LocalStore.apply, row_putRow_self state other name (hrow row rfl), RowMaps.apply,
        Function.update_self, Finmap.lookup_insert]
    | remove other name =>
      obtain ⟨rfl, rfl⟩ : other = table ∧ name = key := by simpa [RowChange.place?] using hplace
      rw [LocalStore.apply, row_removeRow_self, RowMaps.apply, Function.update_self,
        Finmap.lookup_erase]
  · rw [row_congr (rowText?_apply_of_ne hplace), h table key, RowMaps.lookup_apply_of_ne hplace]

/-- **One operation** is answered alike, and what it leads to still agrees. -/
theorem perform (h : state.Represents maps) {operation : RowOperation}
    (hread : operation.Readable) :
    (LocalStore.perform operation state).1 = (RowMaps.perform operation maps).1 ∧
      (LocalStore.perform operation state).2.Represents (RowMaps.perform operation maps).2 := by
  refine ⟨?_, by rw [perform_snd]; exact h.apply hread⟩
  -- What is left is the reply. A row is looked up before the change.
  match operation with
  | .call (.insert table document) =>
    simp only [LocalStore.perform, store, RowMaps.perform, RowMaps.reply]
    cases rowKey? (insertedRow document) <;> rfl
  | .call (.get table key) | .readRow table key => exact congrArg RowReply.answer (h table key)
  | .call (.delete _ _ _) | .putRow _ _ _ => rfl
  | .removeRow table key => exact congrArg RowReply.removed (h.hasRow_eq table key)

/-- **Any number of operations.** -/
theorem run (h : state.Represents maps) {operations : List RowOperation}
    (hread : ∀ operation ∈ operations, operation.Readable) :
    (RowOperation.runAll LocalStore.perform operations state).1 =
        (RowOperation.runAll RowMaps.perform operations maps).1 ∧
      (RowOperation.runAll LocalStore.perform operations state).2.Represents
        (RowOperation.runAll RowMaps.perform operations maps).2 := by
  induction operations generalizing state maps with
  | nil => exact ⟨rfl, h⟩
  | cons operation more ih =>
    obtain ⟨hreply, hnext⟩ := h.perform (hread operation List.mem_cons_self)
    obtain ⟨hreplies, hlast⟩ := ih hnext fun op hop => hread op (List.mem_cons_of_mem operation hop)
    exact ⟨congrArg₂ List.cons hreply hreplies, hlast⟩

end Represents

/-! ### What single operations do -/

/-- What an operation does to a store, whatever has happened to it before. -/
structure Lawful (state : LocalStore) : Prop where
  /-- The row is the document's `values`, or the document without them. Under its own key it is
  found from then on. -/
  insert_row : ∀ {table : Table} {document row : Json} {key : String},
    document.member? "values" = some row ∨ document.member? "values" = none ∧ row = document →
    row.member? "request_id" = some (.str key) → row.plain Json.depthLimit = true →
    (perform (.call (.insert table document)) state).1 = .answer (.ok none) ∧
      (perform (.call (.insert table document)) state).2.row table key = .ok (some row)
  /-- A row that has no text as its key is refused, and nothing changes. -/
  insert_without_key : ∀ {table : Table} {document row : Json},
    document.member? "values" = some row ∨ document.member? "values" = none ∧ row = document →
    (∀ key, row.member? "request_id" ≠ some (.str key)) →
    perform (.call (.insert table document)) state = (.answer (.error (.missingKey row)), state)
  /-- To delete what is not there succeeds, and nothing changes. -/
  delete_absent : ∀ {table : Table} {key : String} {document : Json},
    state.row table key = .ok none →
    perform (.call (.delete table key document)) state = (.answer (.ok none), state)
  /-- A removal reports whether there was a row. -/
  removeRow_reports : ∀ {table : Table} {key : String},
    (perform (.removeRow table key) state).1 =
      .removed (decide (state.row table key ≠ .ok none))
  /-- Nothing changes in the other table or under other keys. -/
  elsewhere : ∀ {operation : RowOperation} {table : Table} {key : String},
    operation.change.place? ≠ some (table, key) →
    (perform operation state).2.rowText? table key = state.rowText? table key

/-- The row of a document is its `values`, or the document without them. -/
theorem insertedRow_eq {document row : Json}
    (h : document.member? "values" = some row ∨
      document.member? "values" = none ∧ row = document) : insertedRow document = row := by
  rcases h with h | ⟨h, rfl⟩ <;> rw [insertedRow, h] <;> rfl

/-- The key of a row is the text that it holds for it. -/
theorem rowKey?_eq_some_iff {row : Json} {key : String} :
    rowKey? row = some key ↔ row.member? "request_id" = some (.str key) := by
  rw [rowKey?, Option.bind_eq_some_iff]
  constructor
  · rintro ⟨value, hvalue, htext⟩
    cases value <;> simp_all [Json.asStr?]
  · intro h
    exact ⟨.str key, h, rfl⟩

/-- To remove what is not there changes nothing. -/
theorem removeRow_of_absent {state : LocalStore} {table : Table} {key : String}
    (h : state.row table key = .ok none) : state.removeRow table key = state := by
  have habsent : key ∉ Fields.names (state.rows table) := by
    rw [← Fields.has_iff_mem, Bool.not_eq_true]
    exact row_eq_ok_none_iff.mp h
  rw [removeRow, Fields.erase_of_not_mem habsent]
  cases table <;> rfl

/-- **Every store is lawful.** -/
theorem lawful (state : LocalStore) : state.Lawful where
  insert_row {table document row key} hrow hkey hplain := by
    have hinsert : store (.insert table document) state =
        (.ok none, state.putRow table key row) := by
      rw [store, insertedRow_eq hrow, rowKey?_eq_some_iff.mpr hkey]
    rw [perform, hinsert]
    exact ⟨rfl, row_putRow_self state table key hplain⟩
  insert_without_key {table document row} hrow hkey := by
    have hnone : rowKey? row = none :=
      Option.eq_none_iff_forall_ne_some.mpr fun key h => hkey key (rowKey?_eq_some_iff.mp h)
    rw [perform, store, insertedRow_eq hrow, hnone]
  delete_absent {table key document} h := by rw [perform, store, removeRow_of_absent h]
  removeRow_reports {table key} := by
    rw [perform, RowReply.removed.injEq, Bool.eq_iff_iff, decide_eq_true_iff, ne_eq,
      row_eq_ok_none_iff, Bool.not_eq_false]
  elsewhere {operation table key} h := by rw [perform_snd, rowText?_apply_of_ne h]

/-- **The local store is two maps.** From the empty store on, any operations are answered as by a
map from keys to rows for each table, and what is read then is what the maps hold. -/
theorem refines_maps {operations : List RowOperation}
    (hread : ∀ operation ∈ operations, operation.Readable) :
    (RowOperation.runAll perform operations empty).1 =
        (RowOperation.runAll RowMaps.perform operations .empty).1 ∧
      (RowOperation.runAll perform operations empty).2.Represents
        (RowOperation.runAll RowMaps.perform operations .empty).2 ∧
      (RowOperation.runAll perform operations empty).2.Lawful := by
  obtain ⟨hreplies, hlast⟩ := Represents.empty.run hread
  exact ⟨hreplies, hlast, lawful _⟩

/-- Two rows under one key, each in its table: the one is written by a document without `values` and
then again by one with them, the other is put and removed twice. A document without a key is
refused. -/
theorem refines_maps_of_shared_key :
    let first : Json := .obj [("request_id", .str "create-r1"), ("step", .num (.int (-1)))]
    let second : Json := .obj [("request_id", .str "create-r1"), ("note", .str "\"\n")]
    let result : Json := .obj [("status", .arr [.null, .bool true])]
    let operations : List RowOperation :=
      [.call (.insert .requests first), .putRow .results "create-r1" result,
        .call (.insert .requests (.single "values" second)),
        .call (.insert .requests (.single "values" result)), .readRow .results "create-r1",
        .removeRow .results "create-r1", .removeRow .results "create-r1",
        .call (.delete .results "create-r1" .null), .call (.get .requests "create-r1")]
    (∀ operation ∈ operations, operation.Readable) ∧
      (RowOperation.runAll perform operations empty).1 =
        [.answer (.ok none), .answer (.ok none), .answer (.ok none),
          .answer (.error (.missingKey result)), .answer (.ok (some result)), .removed true,
          .removed false, .answer (.ok none), .answer (.ok (some second))] := by
  intro first second result operations
  have hread : ∀ operation ∈ operations, operation.Readable := by decide +kernel
  exact ⟨hread, (refines_maps hread).1.trans (by decide +kernel)⟩

end LocalStore

end HeatPlacement

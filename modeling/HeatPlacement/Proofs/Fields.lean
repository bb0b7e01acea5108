import HeatPlacement.Json.Basic
import Mathlib.Data.List.Dedup
import Mathlib.Data.List.Nodup
import Mathlib.Data.List.TakeDrop
import Mathlib.Data.List.TakeWhile

/-!
# Binding many names

Entries are bound one after another; a later entry under the same name replaces the value and keeps
the place.

* `Fields.get?_eq_of_perm`: look-ups do not see the order
* `Fields.extend_of_nodup`: entries with new, distinct names are appended
* `Fields.length_extend_nil_eq_iff`: **no entry is lost** iff the names are distinct
* `Fields.extend_cons_eq`: the first entry keeps its place, with the last value under its name
* `Fields.get?_extend`: a look-up finds the last entry under its name
* `Fields.names_extend`: where the new names are distinct, those come last that were not bound
* `Fields.get?_filterMap`: look-ups where some values are changed and others dropped
* `Fields.get?_swapErase`, `Fields.get?_foldl_swapErase`: look-ups after one name is removed, and
  after many
* `Fields.swapErase_map`: removal sees the names alone
-/

namespace HeatPlacement.Fields

variable {α : Type}

@[simp] theorem names_nil : names ([] : Fields α) = [] := rfl

@[simp] theorem names_cons (name : String) (value : α) (rest : Fields α) :
    names ((name, value) :: rest) = name :: names rest := rfl

@[simp] theorem names_append (first second : Fields α) :
    names (first ++ second) = names first ++ names second := List.map_append

@[simp] theorem names_mapValues {β : Type} (f : α → β) (fields : Fields α) :
    names (mapValues f fields) = names fields := by
  rw [names, mapValues, List.map_map, names]
  rfl

theorem get?_eq_none_iff {fields : Fields α} {key : String} :
    get? fields key = none ↔ key ∉ names fields := by
  rw [← has_iff_mem, has, Option.not_isSome_iff_eq_none]

/-- What is looked up is among the entries. -/
theorem mem_of_get? {fields : Fields α} {key : String} {value : α}
    (h : get? fields key = some value) : (key, value) ∈ fields := by
  induction fields with
  | nil => cases h
  | cons entry rest ih =>
    obtain ⟨name, first⟩ := entry
    rw [get?_cons] at h
    split at h
    · rename_i hname
      cases h
      rw [hname]
      exact List.mem_cons_self
    · exact List.mem_cons_of_mem _ (ih h)

/-- Under distinct names, every entry is found. -/
theorem get?_of_mem {fields : Fields α} (h : (names fields).Nodup) {key : String} {value : α}
    (hmem : (key, value) ∈ fields) : get? fields key = some value := by
  induction fields with
  | nil => cases hmem
  | cons entry rest ih =>
    obtain ⟨name, first⟩ := entry
    rw [names_cons, List.nodup_cons] at h
    rw [get?_cons]
    rcases List.mem_cons.mp hmem with heq | hmem
    · cases heq
      rw [if_pos rfl]
    · have hne : name ≠ key := fun heq => h.1 (heq ▸ List.mem_map_of_mem hmem)
      rw [if_neg hne, ih h.2 hmem]

/-- Under distinct names, look-ups do not see the order. -/
theorem get?_eq_of_perm {fields fields' : Fields α} (h : fields'.Perm fields)
    (hnames : (names fields).Nodup) : get? fields' = get? fields := by
  funext key
  have hnames' : (names fields').Perm (names fields) := h.map Prod.fst
  cases hvalue : get? fields' key with
  | none =>
    rw [get?_eq_none_iff, hnames'.mem_iff, ← get?_eq_none_iff] at hvalue
    exact hvalue.symm
  | some value => exact (get?_of_mem hnames (h.mem_iff.mp (mem_of_get? hvalue))).symm

theorem get?_append (first second : Fields α) (key : String) :
    get? (first ++ second) key = (get? first key).or (get? second key) := by
  induction first with
  | nil => rfl
  | cons entry rest ih =>
    obtain ⟨name, value⟩ := entry
    rw [List.cons_append, get?_cons, get?_cons, ih]
    split <;> rfl

/-- A new name comes last. -/
theorem insert_of_not_mem {fields : Fields α} {key : String} (h : key ∉ names fields) (value : α) :
    insert fields key value = fields ++ [(key, value)] := by
  induction fields with
  | nil => rfl
  | cons entry rest ih =>
    obtain ⟨name, old⟩ := entry
    rw [names_cons, List.mem_cons, not_or] at h
    rw [insert_cons, if_neg (Ne.symm h.1), ih h.2, List.cons_append]

/-- To bind a name to the value that it has changes nothing. -/
theorem insert_of_get? {fields : Fields α} {key : String} {value : α}
    (h : get? fields key = some value) : insert fields key value = fields := by
  induction fields with
  | nil => cases h
  | cons entry rest ih =>
    obtain ⟨name, old⟩ := entry
    rw [get?_cons] at h
    rw [insert_cons]
    split at h
    · rename_i hname
      cases h
      rw [if_pos hname]
    · rename_i hname
      rw [if_neg hname, ih h]

/-- To erase a name that is not bound changes nothing. -/
theorem erase_of_not_mem {fields : Fields α} {key : String} (h : key ∉ names fields) :
    erase fields key = fields := by
  refine List.filter_eq_self.mpr fun entry hmem => ?_
  have hne : entry.1 ≠ key := fun heq => h (heq ▸ List.mem_map_of_mem hmem)
  simpa using hne

theorem nodup_names_insert {fields : Fields α} (h : (names fields).Nodup) (key : String)
    (value : α) : (names (insert fields key value)).Nodup := by
  rw [names_insert]
  split
  · exact h
  · rename_i hkey
    exact List.nodup_append'.mpr ⟨h, List.nodup_singleton key, List.disjoint_singleton.mpr hkey⟩

/-- A name that stands apart from the others is new, and once it is bound they still stand apart. -/
theorem nodup_names_insert_append {fields : Fields α} {key : String} {rest : List String}
    (h : (names fields ++ key :: rest).Nodup) (value : α) :
    key ∉ names fields ∧ (names (insert fields key value) ++ rest).Nodup := by
  have hkey : key ∉ names fields := by
    rw [List.nodup_append'] at h
    exact fun hmem => h.2.2 hmem List.mem_cons_self
  refine ⟨hkey, ?_⟩
  rw [names_insert, if_neg hkey, List.append_assoc]
  exact h

theorem mem_names_insert {fields : Fields α} {key name : String} {value : α} :
    name ∈ names (insert fields key value) ↔ name ∈ names fields ∨ name = key := by
  rw [names_insert]
  split
  · rename_i hkey
    exact ⟨Or.inl, fun h => h.elim id fun h => h ▸ hkey⟩
  · rw [List.mem_append, List.mem_singleton]

theorem mem_of_mem_insert {fields : Fields α} {key : String} {value : α} {entry : String × α}
    (h : entry ∈ insert fields key value) : entry = (key, value) ∨ entry ∈ fields := by
  induction fields with
  | nil => exact .inl (List.mem_singleton.mp h)
  | cons first rest ih =>
    obtain ⟨name, old⟩ := first
    rw [insert_cons] at h
    split at h
    · rename_i hname
      rcases List.mem_cons.mp h with rfl | h
      · exact .inl (by rw [hname])
      · exact .inr (List.mem_cons_of_mem _ h)
    · rcases List.mem_cons.mp h with rfl | h
      · exact .inr List.mem_cons_self
      · exact (ih h).imp_right (List.mem_cons_of_mem _)

/-! ### Many entries -/

theorem extend_append (fields first second : Fields α) :
    extend fields (first ++ second) = extend (extend fields first) second := List.foldl_append

theorem mem_of_mem_extend {fields more : Fields α} {entry : String × α}
    (h : entry ∈ extend fields more) : entry ∈ fields ∨ entry ∈ more := by
  induction more generalizing fields with
  | nil => exact .inl h
  | cons first rest ih =>
    rcases ih h with h | h
    · rcases mem_of_mem_insert h with rfl | h
      · exact .inr List.mem_cons_self
      · exact .inl h
    · exact .inr (List.mem_cons_of_mem _ h)

/-- Names stay distinct. -/
theorem nodup_names_extend {fields : Fields α} (h : (names fields).Nodup) (more : Fields α) :
    (names (extend fields more)).Nodup := by
  induction more generalizing fields with
  | nil => exact h
  | cons entry rest ih => exact ih (nodup_names_insert h entry.1 entry.2)

/-- The names of both are bound, and no others. -/
theorem mem_names_extend {fields more : Fields α} {name : String} :
    name ∈ names (extend fields more) ↔ name ∈ names fields ∨ name ∈ names more := by
  induction more generalizing fields with
  | nil => simp
  | cons entry rest ih =>
    obtain ⟨key, value⟩ := entry
    rw [extend_cons, ih, mem_names_insert, names_cons, List.mem_cons, or_assoc]

/-- New, distinct names come last, in order. -/
theorem extend_of_nodup {fields more : Fields α} (h : (names (fields ++ more)).Nodup) :
    extend fields more = fields ++ more := by
  induction more generalizing fields with
  | nil => rw [extend_nil, List.append_nil]
  | cons entry rest ih =>
    obtain ⟨key, value⟩ := entry
    rw [names_append, names_cons] at h
    obtain ⟨hkey, -⟩ := nodup_names_insert_append h value
    rw [extend_cons, insert_of_not_mem hkey, ih (by simpa using h), List.append_assoc,
      List.singleton_append]

/-- The names that are bound are those of the entries, each once. -/
theorem length_extend_nil (more : Fields α) :
    (extend [] more).length = (names more).dedup.length := by
  have hnodup : (names (extend [] more)).Nodup :=
    nodup_names_extend (by simp) more
  have hperm : (names (extend [] more)).Perm (names more).dedup := by
    rw [List.perm_ext_iff_of_nodup hnodup (List.nodup_dedup _)]
    intro name
    rw [mem_names_extend, List.mem_dedup, names_nil]
    simp
  rw [← hperm.length_eq, names, List.length_map]

/-- **No entry is lost** iff the names are distinct. -/
theorem length_extend_nil_eq_iff {more : Fields α} :
    (extend [] more).length = more.length ↔ (names more).Nodup := by
  rw [length_extend_nil]
  constructor
  · intro h
    have hlength : (names more).dedup.length = (names more).length := by
      rw [h, names, List.length_map]
    rw [← (List.dedup_sublist _).eq_of_length hlength]
    exact List.nodup_dedup _
  · intro h
    rw [h.dedup, names, List.length_map]

/-- The first entry keeps its place, with the last value under its name. -/
theorem extend_cons_eq (key : String) (value : α) (fields more : Fields α) :
    ∃ rest, extend ((key, value) :: fields) more =
      (key, (get? more.reverse key).getD value) :: rest := by
  induction more generalizing value fields with
  | nil => exact ⟨fields, rfl⟩
  | cons entry more ih =>
    obtain ⟨name, new⟩ := entry
    rw [extend_cons, insert_cons, List.reverse_cons, get?_append, get?_cons, get?_nil]
    by_cases h : key = name
    · subst h
      obtain ⟨rest, hrest⟩ := ih new fields
      refine ⟨rest, ?_⟩
      rw [if_pos rfl, hrest, if_pos rfl]
      cases get? more.reverse key <;> rfl
    · obtain ⟨rest, hrest⟩ := ih value (insert fields name new)
      refine ⟨rest, ?_⟩
      rw [if_neg h, hrest, if_neg (Ne.symm h), Option.or_none]

/-- The first of the entries that are bound keeps its place, with the last value under its name. -/
theorem head?_extend_nil (entries : Fields α) :
    (extend [] entries).head? = entries.head?.map fun first =>
      (first.1, (get? entries.tail.reverse first.1).getD first.2) := by
  cases entries with
  | nil => rfl
  | cons entry rest =>
    obtain ⟨key, value⟩ := entry
    obtain ⟨bound, hbound⟩ := extend_cons_eq key value [] rest
    rw [extend_cons, insert_nil, hbound]
    rfl

/-- The last entry under a name is the one that is bound. -/
theorem get?_extend (fields more : Fields α) (key : String) :
    get? (extend fields more) key = (get? more.reverse key).or (get? fields key) := by
  induction more generalizing fields with
  | nil => rfl
  | cons entry rest ih =>
    obtain ⟨name, value⟩ := entry
    rw [extend_cons, ih, get?_insert, List.reverse_cons, get?_append, get?_cons, get?_nil,
      Option.or_assoc]
    split <;> rfl

/-- The new names come last, in their order. -/
theorem names_extend {fields more : Fields α} (h : (names more).Nodup) :
    names (extend fields more) =
      names fields ++ (names more).filter (· ∉ names fields) := by
  induction more generalizing fields with
  | nil => simp
  | cons entry rest ih =>
    obtain ⟨key, value⟩ := entry
    obtain ⟨hkey, hrest⟩ := List.nodup_cons.mp h
    rw [extend_cons, ih hrest, names_insert, names_cons]
    split
    · rename_i hmem
      rw [List.filter_cons_of_neg (by simpa using hmem)]
    · rename_i hmem
      rw [List.filter_cons_of_pos (by simpa using hmem), List.append_assoc, List.singleton_append]
      congr 2
      refine List.filter_congr fun name hname => ?_
      have hne : name ≠ key := fun heq => hkey (heq ▸ hname)
      simp [hne]

/-- Which names are bound depends on the names that were bound alone. -/
theorem names_extend_congr {fields fields' : Fields α} (h : names fields = names fields')
    (more : Fields α) : names (extend fields more) = names (extend fields' more) := by
  induction more generalizing fields fields' with
  | nil => exact h
  | cons entry rest ih =>
    obtain ⟨key, value⟩ := entry
    rw [extend_cons, extend_cons]
    exact ih (by rw [names_insert, names_insert, h])

/-- Where the names of the new entries are distinct, a look-up finds them first. -/
theorem get?_extend_of_nodup (fields : Fields α) {more : Fields α} (h : (names more).Nodup)
    (key : String) : get? (extend fields more) key = (get? more key).or (get? fields key) := by
  rw [get?_extend, get?_eq_of_perm more.reverse_perm h]

/-- Changing a value under another name changes no look-up. -/
theorem get?_insert_of_ne {fields : Fields α} {key name : String} (h : key ≠ name) (value : α) :
    get? (insert fields key value) name = get? fields name := by
  rw [get?_insert, if_neg h]

@[simp] theorem get?_insert_self (fields : Fields α) (key : String) (value : α) :
    get? (insert fields key value) key = some value := by
  rw [get?_insert, if_pos rfl]

/-- Of two values bound to one name, the second stays. -/
@[simp] theorem insert_insert (fields : Fields α) (key : String) (first second : α) :
    insert (insert fields key first) key second = insert fields key second := by
  induction fields with
  | nil => simp [insert_cons]
  | cons entry rest ih =>
    obtain ⟨name, old⟩ := entry
    by_cases hname : name = key <;> simp [insert_cons, hname, ih]

/-- A look-up among changed values is the changed value of a look-up. -/
theorem get?_mapValues {β : Type} (f : α → β) (fields : Fields α) (key : String) :
    get? (mapValues f fields) key = (get? fields key).map f := by
  induction fields with
  | nil => rfl
  | cons entry rest ih =>
    obtain ⟨name, value⟩ := entry
    show get? ((name, f value) :: mapValues f rest) key = _
    rw [get?_cons, get?_cons, ih]
    split <;> rfl

/-- A name that is kept has the value that it had. -/
theorem get?_restrict {allowed : List String} {key : String} (h : key ∈ allowed)
    (fields : Fields α) : get? (restrict fields allowed) key = get? fields key := by
  induction fields with
  | nil => rfl
  | cons entry rest ih =>
    obtain ⟨name, value⟩ := entry
    rw [restrict] at ih ⊢
    by_cases hname : name ∈ allowed
    · rw [List.filter_cons_of_pos (by simpa using hname), get?_cons, get?_cons, ih]
    · have hne : name ≠ key := fun heq => hname (heq ▸ h)
      rw [List.filter_cons_of_neg (by simpa using hname), get?_cons, if_neg hne, ih]

/-! ### Entries with new values -/

section FilterMap

variable {β : Type} (f : String × α → Option β)

theorem sublist_names_filterMap (fields : Fields α) :
    (names (fields.filterMap fun entry => (f entry).map (entry.1, ·))).Sublist (names fields) := by
  induction fields with
  | nil => exact .slnil
  | cons entry rest ih =>
    obtain ⟨name, value⟩ := entry
    cases hvalue : f (name, value) with
    | none => simpa [hvalue] using ih.cons name
    | some new => simpa [hvalue] using ih.cons_cons name

/-- Where names are distinct, a look-up among the new values is one among the old values. -/
theorem get?_filterMap {fields : Fields α} (h : (names fields).Nodup) (key : String) :
    get? (fields.filterMap fun entry => (f entry).map (entry.1, ·)) key =
      (get? fields key).bind fun value => f (key, value) := by
  induction fields with
  | nil => rfl
  | cons entry rest ih =>
    obtain ⟨name, value⟩ := entry
    obtain ⟨hname, hrest⟩ := List.nodup_cons.mp h
    rw [get?_cons]
    by_cases hkey : name = key
    · subst hkey
      cases hvalue : f (name, value) with
      | none =>
        have hnone : get? rest name = none := get?_eq_none_iff.mpr hname
        simp [hvalue, ih hrest, hnone]
      | some new => simp [hvalue, get?_cons]
    · cases hvalue : f (name, value) with
      | none => simp [hvalue, ih hrest, hkey]
      | some new => simp [hvalue, get?_cons, ih hrest, hkey]

end FilterMap

/-! ### Removal -/

/-- Where a name stands, the last of the entries behind it takes its place. -/
theorem swapErase_cases (fields : Fields α) (key : String) :
    (key ∉ names fields ∧ swapErase fields key = fields) ∨
      ∃ before value after, fields = before ++ (key, value) :: after ∧ key ∉ names before ∧
        swapErase fields key = before ++ (after.getLast?.toList ++ after.dropLast) := by
  have hsplit := List.takeWhile_append_dropWhile (p := fun entry => entry.1 ≠ key) (l := fields)
  have hbefore : key ∉ names (fields.takeWhile fun entry => entry.1 ≠ key) := by
    intro hmem
    obtain ⟨entry, hentry, rfl⟩ := List.mem_map.mp hmem
    simpa using List.mem_takeWhile_imp hentry
  rw [swapErase, List.span_eq_takeWhile_dropWhile]
  cases hafter : fields.dropWhile fun entry => entry.1 ≠ key with
  | nil =>
    rw [hafter, List.append_nil] at hsplit
    rw [hsplit] at hbefore ⊢
    exact .inl ⟨hbefore, rfl⟩
  | cons entry after =>
    obtain ⟨name, value⟩ := entry
    have hname : name = key := by
      have h := List.head?_dropWhile_not (fun entry : String × α => decide (entry.1 ≠ key)) fields
      rw [hafter] at h
      simpa using h
    rw [hafter, hname] at hsplit
    refine .inr ⟨_, value, after, hsplit.symm, hbefore, ?_⟩
    cases hlast : after.getLast? with
    | none => simp [List.getLast?_eq_none_iff.mp hlast]
    | some last => simp [hlast]

/-- The entries that stay are those of `erase`, in another order. -/
theorem swapErase_perm {fields : Fields α} (h : (names fields).Nodup) (key : String) :
    (swapErase fields key).Perm (erase fields key) := by
  rcases swapErase_cases fields key with ⟨hkey, heq⟩ | ⟨before, value, after, rfl, hbefore, heq⟩
  · rw [heq, erase_of_not_mem hkey]
  · have hafter : key ∉ names after := by
      rw [names_append, names_cons, List.nodup_middle, List.nodup_cons] at h
      exact fun hmem => h.1 (List.mem_append_right _ hmem)
    have herase : erase (before ++ (key, value) :: after) key = before ++ after := by
      rw [erase, List.filter_append, List.filter_cons_of_neg (by simp), ← erase, ← erase,
        erase_of_not_mem hbefore, erase_of_not_mem hafter]
    rw [heq, herase]
    refine List.Perm.append_left before (List.perm_append_comm.trans ?_)
    cases hlast : after.getLast? with
    | none => simp [List.getLast?_eq_none_iff.mp hlast]
    | some last => rw [Option.toList_some, List.dropLast_append_getLast? last hlast]

theorem nodup_names_swapErase {fields : Fields α} (h : (names fields).Nodup) (key : String) :
    (names (swapErase fields key)).Nodup := by
  have hperm : (names (swapErase fields key)).Perm (names (erase fields key)) :=
    (swapErase_perm h key).map Prod.fst
  exact hperm.nodup_iff.mpr (h.sublist (List.filter_sublist.map Prod.fst))

/-- After `swapErase` the key is unbound and every other name has what it had. -/
theorem get?_swapErase {fields : Fields α} (h : (names fields).Nodup) (key name : String) :
    get? (swapErase fields key) name = if key = name then none else get? fields name := by
  have hnames : (names (erase fields key)).Nodup := h.sublist (List.filter_sublist.map Prod.fst)
  rw [get?_eq_of_perm (swapErase_perm h key) hnames, get?_erase]

/-- Removal sees the names alone. -/
theorem swapErase_map {β : Type} {f : String × α → String × β}
    (hf : ∀ entry, (f entry).1 = entry.1) (fields : Fields α) (key : String) :
    swapErase (fields.map f) key = (swapErase fields key).map f := by
  have hcomp : ((fun entry : String × β => decide (entry.1 ≠ key)) ∘ f) =
      fun entry => decide (entry.1 ≠ key) := by
    funext entry
    rw [Function.comp_apply, hf]
  rw [swapErase, swapErase, List.span_eq_takeWhile_dropWhile, List.span_eq_takeWhile_dropWhile,
    List.takeWhile_map, List.dropWhile_map, hcomp]
  cases fields.dropWhile fun entry => entry.1 ≠ key with
  | nil => rfl
  | cons entry after =>
    rw [List.map_cons]
    simp only [List.getLast?_map]
    cases after.getLast? with
    | none => rfl
    | some last => simp

/-- Many names are removed. -/
theorem nodup_names_foldl_swapErase {fields : Fields α} (h : (names fields).Nodup)
    (keys : List String) : (names (keys.foldl swapErase fields)).Nodup := by
  induction keys generalizing fields with
  | nil => exact h
  | cons key more ih => exact ih (nodup_names_swapErase h key)

theorem get?_foldl_swapErase {fields : Fields α} (h : (names fields).Nodup) (keys : List String)
    (name : String) :
    get? (keys.foldl swapErase fields) name = if name ∈ keys then none else get? fields name := by
  induction keys generalizing fields with
  | nil => simp
  | cons key more ih =>
    rw [List.foldl_cons, ih (nodup_names_swapErase h key), get?_swapErase h]
    by_cases hkey : key = name
    · simp [hkey]
    · simp [hkey, Ne.symm hkey]

theorem foldl_swapErase_map {β : Type} {f : String × α → String × β}
    (hf : ∀ entry, (f entry).1 = entry.1) (fields : Fields α) (keys : List String) :
    keys.foldl swapErase (fields.map f) = (keys.foldl swapErase fields).map f := by
  induction keys generalizing fields with
  | nil => rfl
  | cons key more ih => rw [List.foldl_cons, swapErase_map hf, ih, List.foldl_cons]

end HeatPlacement.Fields

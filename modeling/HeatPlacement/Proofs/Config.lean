import HeatPlacement.Config.Text
import HeatPlacement.Proofs.Toml.Library

/-!
# Configurations that are read back

Every member of a configuration but an absent option is written, and what a text leaves out has its
default. So the text of a configuration describes the configuration, also without any of the tables
and settings that have their defaults.

* `LeavesOut`: what may be left of the settings of a table
* `Abridges`: what may be left of several tables
* `ReadsBack`: a table is read from what may be left of its settings
* `Config.read_back`: **a configuration survives being written and read**
-/

namespace HeatPlacement

open Fields (get? mapValues names)
open Toml (Bare Section Setting Tells Value)

/-! ### What may be left out -/

/-- What is left of settings, if any of those that the defaults have may be left out. -/
inductive LeavesOut (defaults : List (String × Setting)) :
    List (String × Setting) → List (String × Setting) → Prop where
  | nil : LeavesOut defaults [] []
  | keep (entry : String × Setting) {settings left : List (String × Setting)} :
      LeavesOut defaults settings left → LeavesOut defaults (entry :: settings) (entry :: left)
  | drop {entry : String × Setting} (h : entry ∈ defaults)
      {settings left : List (String × Setting)} :
      LeavesOut defaults settings left → LeavesOut defaults (entry :: settings) left

namespace LeavesOut

variable {defaults settings left : List (String × Setting)}

theorem refl (defaults settings : List (String × Setting)) :
    LeavesOut defaults settings settings := by
  induction settings with
  | nil => exact .nil
  | cons entry settings ih => exact .keep entry ih

theorem sublist (h : LeavesOut defaults settings left) : left.Sublist settings := by
  induction h with
  | nil => exact .slnil
  | keep entry _ ih => exact ih.cons_cons entry
  | drop _ _ ih => exact ih.cons _

/-- A setting is kept, or the defaults have it. -/
theorem get?_cases (h : LeavesOut defaults settings left) (hnames : (names settings).Nodup)
    (name : String) : get? left name = get? settings name ∨
      get? left name = none ∧ ∃ setting, get? settings name = some setting ∧
        (name, setting) ∈ defaults := by
  induction h with
  | nil => exact .inl rfl
  | keep entry _ ih =>
    rw [Fields.get?_cons, Fields.get?_cons]
    split
    · exact .inl rfl
    · exact ih (List.nodup_cons.mp hnames).2
  | @drop entry hdefault settings left hleft ih =>
    obtain ⟨hentry, hrest⟩ := List.nodup_cons.mp hnames
    rw [Fields.get?_cons]
    split
    · rename_i hname
      subst hname
      have hnone : entry.1 ∉ names left := fun hmem => hentry ((hleft.sublist.map _).mem hmem)
      exact .inr ⟨Fields.get?_eq_none_iff.mpr hnone, entry.2, rfl, hdefault⟩
    · exact ih hrest

end LeavesOut

/-- What is left of tables, if any of those that are as the defaults have them may be left out, and
of the others the settings that are. -/
inductive Abridges : (defaults tables left : List Section) → Prop where
  | nil : Abridges [] [] []
  | keep (name : String) {default settings kept : List (String × Setting)}
      (h : LeavesOut default settings kept) {defaults tables left : List Section} :
      Abridges defaults tables left →
      Abridges (⟨name, default⟩ :: defaults) (⟨name, settings⟩ :: tables) (⟨name, kept⟩ :: left)
  | drop (table : Section) {defaults tables left : List Section} :
      Abridges defaults tables left → Abridges (table :: defaults) (table :: tables) left

/-! ### Fields -/

namespace Config

/-- A field that is read from the settings of every table is read from what may be left of them:
where it is left out, the table has the default. -/
theorem field_leavesOut {α β : Type} {settings : α → List (String × Setting)}
    (hnames : ∀ table, (names (settings table)).Nodup) {default table : α}
    {left : List (String × Setting)} (h : LeavesOut (settings default) (settings table) left)
    (name : String) (read : Value → Option β) (get : α → β)
    (hread : ∀ table, field (mapValues Setting.value (settings table)) name read (get default) =
      some (get table)) :
    field (mapValues Setting.value left) name read (get default) = some (get table) := by
  have htable := hread table
  have hdefault := hread default
  simp only [field, Fields.get?_mapValues] at htable hdefault ⊢
  rcases h.get?_cases (hnames table) name with heq | ⟨hnone, setting, hsome, hmem⟩
  · rw [heq]
    exact htable
  · -- The default has the very setting that was left out, so both are read as one value.
    rw [Fields.get?_of_mem (hnames default) hmem] at hdefault
    rw [hsome] at htable
    rw [hnone]
    exact hdefault.symm.trans htable

end Config

/-! ### Tables -/

/-- A table is read from what may be left of its settings. -/
def ReadsBack {α : Type} (settings : α → List (String × Setting)) (read : Value → Option α)
    (default : α) : Prop :=
  ∀ (table : α) (left : List (String × Setting)),
    LeavesOut (settings default) (settings table) left →
      read (.table (mapValues Setting.value left)) = some table

/-- Tables that are read back differ in their settings. -/
theorem ReadsBack.inj {α : Type} {settings : α → List (String × Setting)}
    {read : Value → Option α} {default : α} (h : ReadsBack settings read default) {table other : α}
    (heq : settings table = settings other) : table = other := by
  have htable := h table _ (.refl _ _)
  have hother := h other _ (.refl _ _)
  rw [heq, hother] at htable
  exact (Option.some.inj htable).symm

/-- The settings about callers. -/
def ServerConfig.settings (server : ServerConfig) : List (String × Setting) :=
  [("port", .natural server.port)]

/-- The settings about rows. -/
def StoreConfig.settings (store : StoreConfig) : List (String × Setting) :=
  [("backend", .text store.backend.name), ("keyspace", .text store.keyspace),
    ("endpoints", .texts store.endpoints)] ++
  Config.optionalSetting "namespace" store.namespaceId ++
  Config.optionalSetting "user_id" store.userId ++
  Config.optionalSetting "password" store.password ++
  [("request_timeout", .text store.timeoutText), ("data_dir", .text store.dataDir)]

/-- The settings about waiting. -/
def PollingConfig.settings (polling : PollingConfig) : List (String × Setting) :=
  [("wait_until", .text polling.waitText), ("poll_every", .text polling.everyText)]

/-- The settings about logging. -/
def LoggingConfig.settings (logging : LoggingConfig) : List (String × Setting) :=
  [("json", .flag logging.json), ("ping", .flag logging.ping)]

namespace Config

theorem sections_eq (config : Config) : config.sections =
    [⟨"server", config.server.settings⟩, ⟨"store", config.store.settings⟩,
      ⟨"polling", config.polling.settings⟩, ⟨"logging", config.logging.settings⟩] := rfl

/-! ### Names -/

theorem fits_of_mem_optionalSetting {name : String} {value : Option String}
    {entry : String × Setting} (h : entry ∈ optionalSetting name value) : entry.2.Fits := by
  cases value with
  | none => cases h
  | some s =>
    rw [List.mem_singleton.mp h]
    trivial

theorem sublist_names_optionalSetting (name : String) (value : Option String) :
    (names (optionalSetting name value)).Sublist [name] := by
  cases value with
  | none => exact List.nil_sublist _
  | some s => exact List.Sublist.refl _

theorem get?_optionalSetting (name : String) (value : Option String) (key : String) :
    get? (optionalSetting name value) key = if name = key then value.map .text else none := by
  cases value with
  | none => simp [optionalSetting]
  | some s => rw [optionalSetting, Fields.get?_cons]; rfl

theorem nodup_names_server (server : ServerConfig) : (names server.settings).Nodup :=
  List.nodup_singleton "port"

theorem sublist_names_store (store : StoreConfig) :
    (names store.settings).Sublist StoreConfig.memberNames := by
  rw [StoreConfig.settings, Fields.names_append, Fields.names_append, Fields.names_append,
    Fields.names_append]
  exact ((((List.Sublist.refl ["backend", "keyspace", "endpoints"]).append
    (sublist_names_optionalSetting _ _)).append (sublist_names_optionalSetting _ _)).append
    (sublist_names_optionalSetting _ _)).append (.refl ["request_timeout", "data_dir"])

theorem nodup_names_store (store : StoreConfig) : (names store.settings).Nodup :=
  (sublist_names_store store).nodup (by decide)

theorem nodup_names_polling (polling : PollingConfig) : (names polling.settings).Nodup :=
  show ["wait_until", "poll_every"].Nodup by decide

theorem nodup_names_logging (logging : LoggingConfig) : (names logging.settings).Nodup :=
  show ["json", "ping"].Nodup by decide

theorem fits_of_mem_store {store : StoreConfig} : ∀ entry ∈ store.settings, entry.2.Fits := by
  simp only [StoreConfig.settings, List.mem_append]
  rintro entry ((((h | h) | h) | h) | h)
  · rcases h with _ | ⟨_, _ | ⟨_, _ | ⟨_, ⟨⟩⟩⟩⟩ <;> trivial
  · exact fits_of_mem_optionalSetting h
  · exact fits_of_mem_optionalSetting h
  · exact fits_of_mem_optionalSetting h
  · rcases h with _ | ⟨_, _ | ⟨_, ⟨⟩⟩⟩ <;> trivial

/-- Every table has bare, distinct names and values that the reader knows. -/
theorem legible_of_mem_sections {config : Config} :
    ∀ table ∈ config.sections, table.Legible := by
  have hstore : ∀ name ∈ StoreConfig.memberNames, Bare name := by decide
  rw [sections_eq]
  simp only [List.mem_cons, List.not_mem_nil, or_false]
  rintro table (rfl | rfl | rfl | rfl)
  · refine ⟨show Bare "server" by decide, ?_, nodup_names_server _⟩
    rintro entry (_ | ⟨_, ⟨⟩⟩)
    exact ⟨show Bare "port" by decide, Nat.lt_trans config.server.port_lt (by decide)⟩
  · refine ⟨show Bare "store" by decide, fun entry hmem => ⟨hstore _ ?_, ?_⟩, nodup_names_store _⟩
    · exact (sublist_names_store _).mem (List.mem_map_of_mem hmem)
    · exact fits_of_mem_store entry hmem
  · refine ⟨show Bare "polling" by decide, ?_, nodup_names_polling _⟩
    rintro entry (_ | ⟨_, _ | ⟨_, ⟨⟩⟩⟩)
    · exact ⟨show Bare "wait_until" by decide, trivial⟩
    · exact ⟨show Bare "poll_every" by decide, trivial⟩
  · refine ⟨show Bare "logging" by decide, ?_, nodup_names_logging _⟩
    rintro entry (_ | ⟨_, _ | ⟨_, ⟨⟩⟩⟩)
    · exact ⟨show Bare "json" by decide, trivial⟩
    · exact ⟨show Bare "ping" by decide, trivial⟩

/-! ### Readers -/

/-- A setting that is found is read. -/
theorem field_of_get? {α : Type} {settings : List (String × Setting)} {name : String}
    {setting : Setting} (h : get? settings name = some setting) {read : Value → Option α}
    {default value : α} (hread : read setting.value = some value) :
    field (mapValues Setting.value settings) name read default = some value := by
  rw [field, Fields.get?_mapValues, h]
  exact hread

/-- The settings about rows behind the first three, by their names. -/
theorem get?_settings (store : StoreConfig) :
    get? store.settings "namespace" = store.namespaceId.map .text ∧
      get? store.settings "user_id" = store.userId.map .text ∧
      get? store.settings "password" = store.password.map .text ∧
      get? store.settings "request_timeout" = some (.text store.timeoutText) ∧
      get? store.settings "data_dir" = some (.text store.dataDir) := by
  simp [StoreConfig.settings, Fields.get?_append, get?_optionalSetting, Fields.get?_cons]

section Readers

variable {library : Toml.Library} (lawful : library.Lawful)

include lawful

/-- What is left of the settings of a table are the fields of its record. -/
theorem record?_leavesOut {default settings left : List (String × Setting)}
    (h : LeavesOut default settings left) (hnames : (names settings).Nodup) {fields : List String}
    (hfields : names settings ⊆ fields) :
    library.record? fields (.table (mapValues Setting.value left)) =
      some (mapValues Setting.value left) := by
  have hleft : (names left).Sublist (names settings) := h.sublist.map _
  refine lawful.record _ _ ?_ ?_
  · rw [Fields.names_mapValues]
    exact hleft.nodup hnames
  · rw [Fields.names_mapValues]
    exact fun name hmem => hfields (hleft.subset hmem)

theorem port?_natural (server : ServerConfig) :
    port? library (Setting.natural server.port).value = some server := by
  rw [port?, Setting.value, lawful.short ⟨server.port, server.port_lt⟩]
  rfl

theorem backend?_name (backend : Backend) :
    backend? library (Setting.text backend.name).value = some backend := by
  have hname : backend.name ∈ Backend.all.map Backend.name := by cases backend <;> decide
  rw [backend?, Setting.value, lawful.variant _ _ hname, Option.bind_some]
  cases backend <;> rfl

/-- An option is absent where no setting is found. -/
theorem field_option {settings : List (String × Setting)} {name : String} {value : Option String}
    (h : get? settings name = value.map .text) :
    field (mapValues Setting.value settings) name (option? library) none = some value := by
  rw [field, Fields.get?_mapValues, h]
  cases value with
  | none => rfl
  | some s => exact congrArg (Option.map some) (lawful.text s)

theorem readServer_readsBack :
    ReadsBack ServerConfig.settings (readServer library) .defaults := by
  intro server left h
  have hport := field_leavesOut nodup_names_server h "port" (port? library) id
    (port?_natural lawful)
  rw [readServer, record?_leavesOut lawful h (nodup_names_server server)
    (List.Subset.refl ["port"])]
  exact hport

theorem readStore_readsBack : ReadsBack StoreConfig.settings (readStore library) .defaults := by
  intro store left h
  have hfield {β : Type} (name : String) (read : Value → Option β) (get : StoreConfig → β) :=
    field_leavesOut nodup_names_store h name read get
  have hoption (name : String) (get : StoreConfig → Option String) (hnone : get .defaults = none)
      (hget : ∀ store, get? store.settings name = (get store).map .text) :
      field (mapValues Setting.value left) name (option? library) none = some (get store) := by
    rw [← hnone]
    refine hfield name _ get fun store => ?_
    rw [hnone]
    exact field_option lawful (hget store)
  have hbackend := hfield "backend" (backend? library) StoreConfig.backend fun _ =>
    backend?_name lawful _
  have hkeyspace := hfield "keyspace" library.text? StoreConfig.keyspace fun _ => lawful.text _
  have hendpoints := hfield "endpoints" library.texts? StoreConfig.endpoints fun _ => lawful.texts _
  have hnamespace := hoption "namespace" StoreConfig.namespaceId rfl fun store =>
    (get?_settings store).1
  have huser := hoption "user_id" StoreConfig.userId rfl fun store => (get?_settings store).2.1
  have hpassword := hoption "password" StoreConfig.password rfl fun store =>
    (get?_settings store).2.2.1
  have htimeout := hfield "request_timeout" library.text? StoreConfig.timeoutText fun store =>
    field_of_get? (get?_settings store).2.2.2.1 (lawful.text _)
  have hdir := hfield "data_dir" library.text? StoreConfig.dataDir fun store =>
    field_of_get? (get?_settings store).2.2.2.2 (lawful.text _)
  have hrecord := record?_leavesOut lawful h (nodup_names_store store)
    (sublist_names_store store).subset
  simp only [readStore, hrecord, Option.bind_eq_bind, Option.bind_some, hbackend, hkeyspace,
    hendpoints, hnamespace, huser, hpassword, htimeout, hdir]
  rfl

theorem readPolling_readsBack :
    ReadsBack PollingConfig.settings (readPolling library) .defaults := by
  intro polling left h
  have hwait := field_leavesOut nodup_names_polling h "wait_until" library.text?
    PollingConfig.waitText fun _ => lawful.text _
  have hevery := field_leavesOut nodup_names_polling h "poll_every" library.text?
    PollingConfig.everyText fun _ => lawful.text _
  have hrecord := record?_leavesOut lawful h (nodup_names_polling polling)
    (List.Subset.refl ["wait_until", "poll_every"])
  simp only [readPolling, hrecord, Option.bind_eq_bind, Option.bind_some, hwait, hevery]
  rfl

theorem readLogging_readsBack :
    ReadsBack LoggingConfig.settings (readLogging library) .defaults := by
  intro logging left h
  have hjson := field_leavesOut nodup_names_logging h "json" library.flag? LoggingConfig.json
    fun _ => lawful.flag _
  have hping := field_leavesOut nodup_names_logging h "ping" library.flag? LoggingConfig.ping
    fun _ => lawful.flag _
  have hrecord := record?_leavesOut lawful h (nodup_names_logging logging)
    (List.Subset.refl ["json", "ping"])
  simp only [readLogging, hrecord, Option.bind_eq_bind, Option.bind_some, hjson, hping]
  rfl

end Readers

end Config

/-! ### Whole configurations -/

namespace Abridges

variable {defaults tables left : List Section}

theorem refl (h : defaults.map Section.name = tables.map Section.name) :
    Abridges defaults tables tables := by
  induction tables generalizing defaults with
  | nil =>
    obtain rfl := List.map_eq_nil_iff.mp h
    exact .nil
  | cons table tables ih =>
    obtain ⟨default, defaults, rfl, hname, hrest⟩ := List.map_eq_cons_iff.mp h
    obtain ⟨name, settings⟩ := default
    obtain ⟨_, _⟩ := table
    cases hname
    exact .keep name (.refl _ _) (ih hrest)

theorem sublist (h : Abridges defaults tables left) :
    (left.map Section.name).Sublist (tables.map Section.name) := by
  induction h with
  | nil => exact .slnil
  | keep name _ _ ih => exact ih.cons_cons name
  | drop table _ ih => exact ih.cons table.name

theorem legible (h : Abridges defaults tables left) (htables : ∀ table ∈ tables, table.Legible) :
    ∀ table ∈ left, table.Legible := by
  induction h with
  | nil => exact htables
  | keep name hkept _ ih =>
    obtain ⟨hfirst, hrest⟩ := List.forall_mem_cons.mp htables
    refine List.forall_mem_cons.mpr ⟨⟨hfirst.name, fun entry hmem => ?_, ?_⟩, ih hrest⟩
    · exact hfirst.setting entry (hkept.sublist.mem hmem)
    · exact (hkept.sublist.map _).nodup hfirst.nodup
  | drop table _ ih => exact ih (List.forall_mem_cons.mp htables).2

theorem map_name_eq (h : Abridges defaults tables left) :
    defaults.map Section.name = tables.map Section.name := by
  induction h with
  | nil => rfl
  | keep name _ _ ih => exact congrArg (name :: ·) ih
  | drop table _ ih => exact congrArg (table.name :: ·) ih

/-- A table is there with what may be left of its settings, or it is as the defaults have it. -/
theorem get?_cases (h : Abridges defaults tables left) (hnames : (tables.map Section.name).Nodup)
    {name : String} {default settings : List (String × Setting)}
    (hdefault : ⟨name, default⟩ ∈ defaults) (htable : ⟨name, settings⟩ ∈ tables) :
    (∃ kept, LeavesOut default settings kept ∧
      get? (Toml.values left) name = some (.table (mapValues Setting.value kept))) ∨
      settings = default ∧ get? (Toml.values left) name = none := by
  -- Names are distinct in both lists, so a table and its default stand at the same place.
  have hdefaults : (defaults.map Section.name).Nodup := h.map_name_eq ▸ hnames
  have hne {first : Section} (hname : first.name ≠ name) (settings : List (String × Setting)) :
      (⟨name, settings⟩ : Section) ≠ first := by
    rintro rfl
    exact hname rfl
  induction h with
  | nil => cases htable
  | @keep first firstDefault firstSettings kept hkept _ _ left hrest ih =>
    have hget : get? (Toml.values (⟨first, kept⟩ :: left)) name =
      if first = name then some (.table (mapValues Setting.value kept))
      else get? (Toml.values left) name := Fields.get?_cons _ _ _ _
    by_cases hname : first = name
    · subst hname
      cases List.inj_on_of_nodup_map hdefaults hdefault List.mem_cons_self rfl
      cases List.inj_on_of_nodup_map hnames htable List.mem_cons_self rfl
      exact .inl ⟨kept, hkept, hget.trans (if_pos rfl)⟩
    · rw [hget, if_neg hname]
      exact ih (List.nodup_cons.mp hnames).2 (List.mem_of_ne_of_mem (hne hname _) hdefault)
        (List.mem_of_ne_of_mem (hne hname _) htable) (List.nodup_cons.mp hdefaults).2
  | @drop first _ _ left hrest ih =>
    by_cases hname : first.name = name
    · subst hname
      have hdefault := List.inj_on_of_nodup_map hdefaults hdefault List.mem_cons_self rfl
      have htable := List.inj_on_of_nodup_map hnames htable List.mem_cons_self rfl
      refine .inr ⟨congrArg Section.settings (htable.trans hdefault.symm), ?_⟩
      rw [Fields.get?_eq_none_iff, names, Toml.values, List.map_map]
      exact fun hmem => (List.nodup_cons.mp hnames).1 (hrest.sublist.mem hmem)
    · exact ih (List.nodup_cons.mp hnames).2 (List.mem_of_ne_of_mem (hne hname _) hdefault)
        (List.mem_of_ne_of_mem (hne hname _) htable) (List.nodup_cons.mp hdefaults).2

/-- A table that is read back is read from what is left of all tables. -/
theorem field_eq {α : Type} {settings : α → List (String × Setting)} {read : Value → Option α}
    {default value : α} (hread : ReadsBack settings read default) {name : String}
    (h : Abridges defaults tables left) (hnames : (tables.map Section.name).Nodup)
    (hdefault : ⟨name, settings default⟩ ∈ defaults) (hvalue : ⟨name, settings value⟩ ∈ tables) :
    Config.field (Toml.values left) name read default = some value := by
  rw [Config.field]
  rcases h.get?_cases hnames hdefault hvalue with ⟨kept, hkept, hget⟩ | ⟨heq, hget⟩
  · rw [hget]
    exact hread value kept hkept
  · rw [hget, hread.inj heq]

end Abridges

namespace Config

theorem nodup_names_sections (config : Config) : (config.sections.map Section.name).Nodup :=
  show ["server", "store", "polling", "logging"].Nodup by decide

section Library

variable {library : Toml.Library} (lawful : library.Lawful)

include lawful

/-- The tables of a configuration describe it, also when what is as the defaults have it is left
out. -/
theorem ofTable?_of_abridges {config : Config} {left : List Section}
    (h : Abridges Config.defaults.sections config.sections left) :
    ofTable? library (Toml.values left) = some config := by
  rw [sections_eq, sections_eq] at h
  have hnames := nodup_names_sections config
  have hserver := h.field_eq (readServer_readsBack lawful) hnames (.head _) (.head _)
  have hstore := h.field_eq (readStore_readsBack lawful) hnames (.tail _ (.head _))
    (.tail _ (.head _))
  have hpolling := h.field_eq (readPolling_readsBack lawful) hnames (.tail _ (.tail _ (.head _)))
    (.tail _ (.tail _ (.head _)))
  have hlogging := h.field_eq (readLogging_readsBack lawful) hnames
    (.tail _ (.tail _ (.tail _ (.head _)))) (.tail _ (.tail _ (.tail _ (.head _))))
  rw [ofTable?, hserver, hstore, hpolling, hlogging]
  rfl

/-- A text that tells what may be left of a configuration's tables is read as the configuration. -/
theorem read?_of_tells {config : Config} {left : List Section}
    (h : Abridges Config.defaults.sections config.sections left) {text : List Char}
    (htells : Tells text left) : read? library (String.ofList text) = some config := by
  have hnames : (left.map Section.name).Nodup := h.sublist.nodup (nodup_names_sections config)
  have htables := lawful.reads left text (h.legible legible_of_mem_sections) hnames htells
  rw [read?, htables, Option.bind_some, ofTable?_of_abridges lawful h]

end Library

/-- **A configuration survives being written and read**: with a lawful library it can be written,
and reading the text gives it back. So does every text that tells its tables, also without any of
the tables and settings that are as the defaults have them. -/
theorem read_back (library : Toml.Library) (lawful : library.Lawful) (config : Config) :
    (∃ text, text? library config = some text ∧ read? library text = some config) ∧
      ∀ left text, Abridges Config.defaults.sections config.sections left → Tells text left →
        read? library (String.ofList text) = some config := by
  refine ⟨?_, fun left text hleft htells => read?_of_tells lawful hleft htells⟩
  obtain ⟨text, hwrite, htells⟩ := lawful.writes config.sections legible_of_mem_sections
    (nodup_names_sections config)
  have hall : Abridges Config.defaults.sections config.sections config.sections := .refl rfl
  have hread := read?_of_tells lawful hall htells
  rw [String.ofList_toList] at hread
  exact ⟨text, hwrite, hread⟩

/-- A configuration whose texts are quoted in three ways. -/
def replicated : Config where
  server := .defaults
  store :=
    { StoreConfig.defaults with
      backend := .replicated
      endpoints := ["http://db1", "http://db2"]
      namespaceId := some ""
      userId := some "o\"neil"
      password := some "first\nsecond" }
  polling := .defaults
  logging := .defaults

/-- Its text. -/
def replicatedText : String :=
  "[server]\nport = 8080\n\n[store]\nbackend = \"music\"\nkeyspace = \"valet\"\n" ++
  "endpoints = [\n    \"http://db1\",\n    \"http://db2\",\n]\nnamespace = \"\"\n" ++
  "user_id = 'o\"neil'\npassword = \"\"\"\nfirst\nsecond\"\"\"\nrequest_timeout = \"10s\"\n" ++
  "data_dir = \"/var/lib/valet\"\n\n[polling]\nwait_until = \"300s\"\npoll_every = \"5s\"\n\n" ++
  "[logging]\njson = false\nping = false\n"

/-- What differs from the defaults in its tables. -/
def replicatedStore : Section where
  name := "store"
  settings := [("backend", .text "music"), ("endpoints", .texts ["http://db1", "http://db2"]),
    ("namespace", .text ""), ("user_id", .text "o\"neil"), ("password", .text "first\nsecond")]

/-- The program writes it with the quotes that its texts call for, and reads it back from there, and
from what differs from the defaults. -/
theorem read_back_of_library :
    Toml.library.Lawful ∧
      text? Toml.library replicated = some replicatedText ∧
      read? Toml.library replicatedText = some replicated ∧
      read? Toml.library ("[store]\nbackend = \"music\"\n" ++
        "endpoints = [\n    \"http://db1\",\n    \"http://db2\",\n]\nnamespace = \"\"\n" ++
        "user_id = 'o\"neil'\npassword = \"\"\"\nfirst\nsecond\"\"\"\n") = some replicated := by
  have hback := read_back Toml.library Toml.library_lawful replicated
  obtain ⟨⟨text, hwrite, hread⟩, hleft⟩ := hback
  have htext : text? Toml.library replicated = some replicatedText := by decide +kernel
  obtain rfl : replicatedText = text := Option.some.inj (htext.symm.trans hwrite)
  have hstore : LeavesOut StoreConfig.defaults.settings replicated.store.settings
      replicatedStore.settings :=
    .keep _ (.drop (by decide) (.keep _ (.keep _ (.keep _ (.keep _
      (.drop (by decide) (.drop (by decide) .nil)))))))
  have habridged := hleft [replicatedStore] _
    (.drop _ (.keep "store" hstore (.drop _ (.drop _ .nil)))) (Toml.tells_render _)
  have hrender : String.ofList (Toml.render [replicatedStore]) = "[store]\nbackend = \"music\"\n" ++
      "endpoints = [\n    \"http://db1\",\n    \"http://db2\",\n]\nnamespace = \"\"\n" ++
      "user_id = 'o\"neil'\npassword = \"\"\"\nfirst\nsecond\"\"\"\n" := by decide +kernel
  exact ⟨Toml.library_lawful, htext, hread, hrender ▸ habridged⟩

example : read? Toml.library "[logging]\nping = true\n" =
    some { defaults with logging := { json := false, ping := true } } := by decide +kernel

end Config

end HeatPlacement

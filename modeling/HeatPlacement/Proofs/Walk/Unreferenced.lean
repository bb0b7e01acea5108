import HeatPlacement.Proofs.Walk.Lookups

/-!
# Files that nothing refers to

Nested templates are looked up under names that stand in the documents. A file whose name stands in
none of them is never looked up, even where the name would have to pass through parameters, injected
properties and attributes first.

* `HeatRequest.Unreferenced`: a file whose name is no text of the other documents
* `HeatRequest.Unreferenced.filesInStep`: the files with and without it are in lockstep
* `HeatRequest.unreferenced_file_ignored`: **whatever the file holds**, and whether it is there at
  all, the resolution is the same
-/

namespace HeatPlacement.HeatRequest

open Heat

/-- **A file that nothing refers to.** All other documents are parsed, and none of them has the name
of the file among its texts. -/
structure Unreferenced (request : HeatRequest) (file : String) : Prop where
  nested : namesNestedTemplate file = true
  template : ∃ template, request.template = .obj template ∧
    ¬ request.template.Contains (.str file)
  environment : ∃ environment, request.environment = .obj environment ∧
    ¬ request.environment.Contains (.str file)
  parameters : ∀ parameter ∈ request.parameters, ¬ parameter.2.Contains (.str file)
  files : ∀ other ∈ request.files, other.1 ≠ file →
    ∃ document, other.2 = .obj document ∧ ¬ other.2.Contains (.str file)

/-! ### Texts that are not there -/

/-- That a text is not there is kept by evaluation, unless it is one of the markers. -/
theorem kept_of_namesNestedTemplate {file : String} (h : namesNestedTemplate file = true) :
    Kept (· ≠ .str file) where
  null := nofun
  -- The markers name no template file.
  unresolvedZone := by
    rintro ⟨⟩
    exact absurd h (by decide +kernel)
  host := by
    rintro ⟨⟩
    exact absurd h (by decide +kernel)
  pair := nofun
  empty := nofun
  withProperties := nofun
  merged := nofun
  mapped := nofun

/-- No failure is excluded. -/
theorem unreferenced_bound {file : String} (h : namesNestedTemplate file = true) :
    FailureBound (· ≠ .str file) fun _ => True where
  toKept := kept_of_namesNestedTemplate h
  recursionLimit := trivial
  invalidCount _ _ _ _ := .inr fun _ => trivial

/-! ### Files that differ in one -/

namespace Unreferenced

variable {request : HeatRequest} {file : String} (h : request.Unreferenced file)

include h

/-- What stands under another name is a mapping without the text. -/
theorem get?_files {name : String} (hname : name ≠ file) {document : Json}
    (hdocument : Fields.get? request.files name = some document) :
    ∃ template, document = .obj template ∧ (Json.obj template).Everywhere (· ≠ .str file) := by
  obtain ⟨template, rfl, habsent⟩ := h.files _ (Fields.mem_of_get? hdocument) hname
  exact ⟨template, rfl, Json.everywhere_ne_iff.mpr habsent⟩

/-- Files that differ in this one only are in lockstep. -/
theorem filesInStep (reader : Reader) {scopes : Scopes} (hscopes : scopes.Keeps (· ≠ .str file))
    {files : Fields Json}
    (hfiles : ∀ name, name ≠ file → Fields.get? files name = Fields.get? request.files name) :
    FilesInStep (· ≠ .str file) (fun _ => True) reader scopes request.files files where
  kept := hscopes
  same name hname := by
    have hne : name ≠ file := fun heq => hname (congrArg Json.str heq)
    unfold Sources.nested?
    rw [hfiles name hne]
  templates name hname := by
    have hne : name ≠ file := fun heq => hname (congrArg Json.str heq)
    unfold Sources.nested?
    split
    · exact nofun
    · exact nofun
    · rename_i document _ hdocument
      obtain ⟨template, rfl, hparts⟩ := h.get?_files hne hdocument
      rintro _ ⟨⟩
      exact ⟨.inr trivial, hparts⟩

/-- The environment and the parameters of the request do not hold the text. -/
theorem scopes_keep {environment : Fields Json}
    (henvironment : request.environment = .obj environment) :
    Scopes.Keeps (· ≠ .str file) ⟨environmentParameters environment, request.parameters⟩ where
  environment := by
    obtain ⟨_, -, habsent⟩ := h.environment
    rw [henvironment] at habsent
    exact environmentParameters_everywhere (Json.everywhere_ne_iff.mpr habsent)
  request parameter hparameter := Json.everywhere_ne_iff.mpr (h.parameters parameter hparameter)

end Unreferenced

/-- **An unreferenced file never matters**, whether it is added, removed or replaced by anything and
in whatever way texts are read. The resources that the request asks for are the same, and so is a
failure. -/
theorem unreferenced_file_ignored {request : HeatRequest} {file : String}
    (h : request.Unreferenced file) (reader : Reader) {files : Fields Json}
    (hfiles : ∀ name, name ≠ file → Fields.get? files name = Fields.get? request.files name) :
    { request with files := files }.resolveWith reader = request.resolveWith reader := by
  obtain ⟨template, htemplate, habsent⟩ := h.template
  obtain ⟨environment, henvironment, -⟩ := h.environment
  rw [htemplate] at habsent
  let scopes : Scopes := ⟨environmentParameters environment, request.parameters⟩
  have hresolve : ∀ files, { request with files := files }.resolveWith reader =
      resolveTemplate ⟨reader, files, scopes⟩ template := by
    intro files
    rw [resolveWith, htemplate, henvironment]
    rfl
  have hlockstep := resolver_lockstep (unreferenced_bound h.nested)
    (h.filesInStep reader (h.scopes_keep henvironment) hfiles) (depthLimit + 1)
  have hparent : ∀ fields ∈ (none : Option (Fields Json)),
      (Json.obj fields).Everywhere (· ≠ .str file) := by simp
  have hstart := hlockstep.template (.inr trivial) (Json.everywhere_ne_iff.mpr habsent) hparent
    .start .empty
  calc { request with files := files }.resolveWith reader
      = resolveTemplate ⟨reader, files, scopes⟩ template := hresolve files
    _ = resolveTemplate ⟨reader, request.files, scopes⟩ template := congrArg Prod.fst hstart.1
    _ = request.resolveWith reader := (hresolve request.files).symm

/-- A group whose template file takes its zone from the outputs of another one, beside a file that
nothing refers to. -/
def spareFile : HeatRequest where
  stackName := none
  template := .single "resources" (.obj [
    ("zones", .single "type" (.str "zones.yaml")),
    ("vms", .obj [("type", .str "OS::Heat::ResourceGroup"), ("properties", .obj [
      ("count", .single "get_param" (.str "size")),
      ("resource_def", .obj [("type", .str "node.yaml"),
        ("properties", .single "zone"
          (.single "get_attr" (.arr [.str "zones", .str "names"])))])])])])
  files := [
    ("zones.yaml", .single "outputs" (.single "names" (.single "value" (.arr [.str "az-a"])))),
    ("spare.yaml", .single "resources" (.obj [])),
    ("node.yaml", .single "resources" (.single "node" (.obj [("type", .str "OS::Nova::Server"),
      ("properties", .obj [("availability_zone", .single "str_replace" (.single "params"
        (.single "$AZ" (.single "get_param" (.str "zone"))))),
        ("name", .single "get_param" (.str "names"))])])))]
  environment := .single "parameters" (.single "size" (.ofNat 2))
  parameters := [("names", .arr [.str "vm-a", .str "vm-b"])]

/-- The spare file of `spareFile` may as well be no YAML. -/
theorem unreferenced_file_ignored_of_spare :
    spareFile.Unreferenced "spare.yaml" ∧
      spareFile.resolve.isOk = true ∧
      Yaml.read? "spare: [" = none ∧
      { spareFile with
        files := Fields.insert spareFile.files "spare.yaml" (.str "spare: [") }.resolve =
        spareFile.resolve ∧
      { spareFile with files := Fields.erase spareFile.files "spare.yaml" }.resolve =
        spareFile.resolve := by
  have hspare : spareFile.Unreferenced "spare.yaml" := by
    refine ⟨by decide +kernel, ⟨_, rfl, ?_⟩, ⟨_, rfl, ?_⟩, ?_, ?_⟩
    · exact Json.everywhere_ne_iff.mp (by simp [spareFile, Json.single, Json.ofNat])
    · exact Json.everywhere_ne_iff.mp (by simp [spareFile, Json.single, Json.ofNat])
    · simp only [← Json.everywhere_ne_iff]
      simp [spareFile, Json.single, Json.ofNat]
    · simp only [← Json.everywhere_ne_iff]
      simp [spareFile, Json.single, Json.ofNat]
  refine ⟨hspare, by decide +kernel, by decide +kernel, ?_, ?_⟩
  · exact unreferenced_file_ignored hspare Yaml.read? fun name hname => by
      rw [Fields.get?_insert, if_neg hname.symm]
  · exact unreferenced_file_ignored hspare Yaml.read? fun name hname => by
      rw [Fields.get?_erase, if_neg hname.symm]

end HeatPlacement.HeatRequest

import HeatPlacement.Heat.Request
import HeatPlacement.Proofs.Walk.Likeness
import HeatPlacement.Proofs.Walk.Properties
import Mathlib.Data.List.Forall2

/-!
# Texts and parsed documents

A text stands for the mapping that it is read as. Where the mapping takes the place of the text, a
request asks for the same resources, or fails in the same way.

* `StandsFor`: the same document, or the mapping in place of a text that is read as it
* `StandsFor.normalize_eq`: both are read alike
* `FilesStandFor.alike`: **files that stand for others** lead to the same templates
* `HeatRequest.Reparsed`: a request with some of its texts parsed
* `HeatRequest.parsed_texts_resolve_alike`: **texts and parsed documents are interchangeable**
-/

namespace HeatPlacement

namespace Heat

/-- **A document in place of another one**: the same, or the mapping that a text is read as. -/
inductive StandsFor (reader : Reader) (source : String) : Json → Json → Prop where
  | same (document : Json) : StandsFor reader source document document
  | parsed {text : String} {fields : Fields Json} :
      normalize reader source (.str text) = .ok fields →
      StandsFor reader source (.obj fields) (.str text)

namespace StandsFor

variable {reader : Reader} {source : String} {document original : Json}

/-- Both documents are read alike. -/
theorem normalize_eq (h : StandsFor reader source document original) :
    normalize reader source document = normalize reader source original := by
  cases h with
  | same => rfl
  | parsed hread => rw [hread, normalize_obj]

/-- Null, which is no template, stands for itself only. -/
theorem eq_null_iff (h : StandsFor reader source document original) :
    document = .null ↔ original = .null := by
  cases h with
  | same => exact Iff.rfl
  | parsed => simp

end StandsFor

/-- Files in place of others: under the same names, in the same order. -/
def FilesStandFor (reader : Reader) : Fields Json → Fields Json → Prop :=
  List.Forall₂ fun file original =>
    file.1 = original.1 ∧ StandsFor reader file.1 file.2 original.2

theorem FilesStandFor.get? {reader : Reader} {files originals : Fields Json}
    (h : FilesStandFor reader files originals) (name : String) :
    (Fields.get? files name = none ∧ Fields.get? originals name = none) ∨
      ∃ document original, Fields.get? files name = some document ∧
        Fields.get? originals name = some original ∧ StandsFor reader name document original := by
  induction h with
  | nil => exact .inl ⟨rfl, rfl⟩
  | @cons file other rest others hfile _ ih =>
    obtain ⟨key, document⟩ := file
    obtain ⟨key', original⟩ := other
    obtain ⟨hkey, hstands⟩ := hfile
    dsimp only at hkey hstands
    subst hkey
    rw [Fields.get?_cons, Fields.get?_cons]
    by_cases hname : key = name
    · subst hname
      rw [if_pos rfl, if_pos rfl]
      exact .inr ⟨document, original, rfl, rfl, hstands⟩
    · rw [if_neg hname, if_neg hname]
      exact ih

/-- **Files that stand for others** lead to the same templates. -/
theorem FilesStandFor.alike {reader : Reader} {files originals : Fields Json}
    (h : FilesStandFor reader files originals) (scopes : Scopes) :
    Sources.Alike ⟨reader, files, scopes⟩ ⟨reader, originals, scopes⟩ where
  resolve := rfl
  nested? := by
    funext name
    rcases h.get? name with ⟨hfile, horiginal⟩ | ⟨document, original, hfile, horiginal, hstands⟩
    · unfold Sources.nested?
      rw [hfile, horiginal]
    · rw [Sources.nested?_of_get? hfile, Sources.nested?_of_get? horiginal, hstands.normalize_eq]
      simp only [hstands.eq_null_iff]

end Heat

namespace HeatRequest

open Heat

/-- **A request with some of its texts parsed**: its template, its environment and any of its
files. -/
structure Reparsed (reader : Reader) (request original : HeatRequest) : Prop where
  template : StandsFor reader "template" request.template original.template
  files : FilesStandFor reader request.files original.files
  environment : StandsFor reader "environment" request.environment original.environment
  parameters : request.parameters = original.parameters

/-- **Texts and parsed documents are interchangeable**, in whatever way texts are read. A request in
which some of the texts are replaced by the mappings that they are read as has the same resources,
or the same failure. -/
theorem parsed_texts_resolve_alike {reader : Reader} {request original : HeatRequest}
    (h : Reparsed reader request original) :
    request.resolveWith reader = original.resolveWith reader := by
  unfold resolveWith
  rw [h.template.normalize_eq, h.environment.normalize_eq, h.parameters]
  refine bind_congr fun template => bind_congr fun environment => ?_
  have halike := h.files.alike ⟨environmentParameters environment, original.parameters⟩
  dsimp only
  rw [resolveTemplate, resolveTemplate, walkTemplate, walkTemplate, resolver_eq_of_alike halike]

/-- A group of servers whose template, environment and template file are texts, beside a blank
file. -/
def texts : HeatRequest where
  stackName := none
  template := .str ("resources:\n  vms:\n    type: OS::Heat::ResourceGroup\n    properties:\n" ++
    "      count:\n        get_param: size\n      resource_def:\n        type: node.yaml\n")
  files := [
    ("node.yaml", .str
      "resources:\n  node:\n    type: OS::Nova::Server\n    properties:\n      name: vm\n"),
    ("blank.yaml", .str " ")]
  environment := .str "parameters:\n  size: 2\n"
  parameters := []

/-- Two replicas are resolved, with all these texts parsed. -/
theorem parsed_texts_resolve_alike_of_group :
    let node := serverOf [("name", .str "vm")]
    let parsed : HeatRequest :=
      { texts with
        template := .obj (templateOf [("vms",
          .obj (replicaGroup (.single "get_param" (.str "size")) "node.yaml"))])
        files := [("node.yaml", .obj (templateOf [("node", .obj node)])), ("blank.yaml", .obj [])]
        environment := .single "parameters" (.single "size" (.ofNat 2)) }
    Reparsed Yaml.read? parsed texts ∧
      parsed.resolve = .ok [("node_0", .obj node), ("node_1", .obj node)] ∧
      texts.resolve = .ok [("node_0", .obj node), ("node_1", .obj node)] := by
  have htemplate : normalize Yaml.read? "template" texts.template = .ok (templateOf [("vms",
      .obj (replicaGroup (.single "get_param" (.str "size")) "node.yaml"))]) := by
    decide +kernel
  have henvironment : normalize Yaml.read? "environment" texts.environment =
      .ok [("parameters", .single "size" (.ofNat 2))] := by
    decide +kernel
  have hnode : normalize Yaml.read? "node.yaml"
      (.str "resources:\n  node:\n    type: OS::Nova::Server\n    properties:\n      name: vm\n") =
        .ok (templateOf [("node", .obj (serverOf [("name", .str "vm")]))]) := by
    decide +kernel
  have hblank : normalize Yaml.read? "blank.yaml" (.str " ") = .ok [] := by decide +kernel
  intro node parsed
  have hreparsed : Reparsed Yaml.read? parsed texts :=
    ⟨.parsed htemplate, .cons ⟨rfl, .parsed hnode⟩ (.cons ⟨rfl, .parsed hblank⟩ .nil),
      .parsed henvironment, rfl⟩
  have hresolve : parsed.resolve = .ok [("node_0", .obj node), ("node_1", .obj node)] := by
    decide +kernel
  exact ⟨hreparsed, hresolve, (parsed_texts_resolve_alike hreparsed).symm.trans hresolve⟩

end HeatRequest

end HeatPlacement

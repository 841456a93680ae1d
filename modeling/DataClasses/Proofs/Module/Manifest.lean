import DataClasses.Module.Manifest
import DataClasses.Proofs.Json.Written
import DataClasses.TypeTable.Data

/-!
# Manifests and type tables come back from their text

What is left out of the text of a table is what its schema has as a default.
-/

set_option autoImplicit false

namespace DataClasses

open Json (Schema Fields)

theorem BuildOptions.keeps (o : BuildOptions) : schema.Keeps toJson ofJson o := by
  have hname (x : Optimization) : x.name ∈ Optimization.all.map Optimization.name ∧
      Optimization.ofName? x.name = some x := by
    cases x <;> decide
  have hbyte : o.warningLevel.toNat < 256 := o.warningLevel.toNat_lt
  have hfields := Fields.written "optimization" none (.choice (hname o.optimization).1)
    (.written "warning_level" none (.byte hbyte) (.written "warnings_as_errors" none
      (.flag o.warningsAsErrors) (.written "deterministic" none (.flag o.deterministic)
        (.written "allow_unsafe" none (.flag o.allowUnsafe)
          (.written "platform" none (.text o.platform) .nil)))))
  refine ⟨_, hfields.writes "CompilationOptions" (by decide), ?_⟩
  simp [ofJson, Json.member, Entries.get?, Json.text, Json.natural, Json.isTrue,
    (hname o.optimization).2]

namespace Manifest

theorem keeps_reference (r : ReferenceEntry) :
    (Schema.record "ReferenceInfo" [("name", .text, none), ("version", .text, none),
      ("source", .text, none)]).Keeps referenceJson referenceOfJson r := by
  have hfields := Fields.written "name" none (.text r.name) (.written "version" none (.text r.version)
    (.written "source" none (.text r.source) .nil))
  exact ⟨_, hfields.writes "ReferenceInfo" (by decide), rfl⟩

theorem writes_checksum (checksum : String) :
    (Schema.record "FileInfo" [("checksum", .text, none)]).Writes (.obj [("checksum", .str checksum)])
      (.obj [("checksum", .str checksum)]) :=
  (Fields.written "checksum" none (.text checksum) .nil).writes "FileInfo" (by decide)

theorem keeps {m : Manifest} (h : (m.checksums.map (·.1)).Nodup) : schema.Keeps toJson ofJson m := by
  have hruntime := Schema.Writes.choice (List.mem_map_of_mem (f := Runtime.moniker) m.runtime.mem_all)
  have hlibrary : m.library.assemblyName ∈ JsonLibrary.all.map JsonLibrary.assemblyName ∧
      JsonLibrary.ofName? m.library.assemblyName = some m.library := by
    cases m.library <;> decide
  obtain ⟨options, hoptions, hsame⟩ := m.options.keeps
  obtain ⟨references, hreferences, hrefs⟩ :=
    Schema.Keeps.list fun r (_ : r ∈ m.references) => keeps_reference r
  have hassembly := (Fields.written "name" none (.text m.name)
    (.written "version" none (.text m.version) .nil)).writes "AssemblyInfo" (by decide)
  let written (entry : String × String) : String × Json × Json :=
    (entry.1, .obj [("checksum", .str entry.2)], .obj [("checksum", .str entry.2)])
  have hfiles := Schema.Writes.dictionary (m.checksums.map written)
    (by simpa [written, Function.comp_def] using h) (by
      intro entry hentry
      obtain ⟨e, -, rfl⟩ := List.mem_map.mp hentry
      exact writes_checksum e.2)
  rw [List.map_map, List.map_map] at hfiles
  have hfields := Fields.written "module_version" none (.text m.formatVersion)
    (.written "assembly" none hassembly (.written "target_framework" none hruntime
      (.written "json_library" none (.choice hlibrary.1) (.written "options" none hoptions
        (.written "generator" none (.text m.generator) (.written "references" (some (.arr []))
          hreferences (.written "files" (some (.obj [])) hfiles .nil)))))))
  refine ⟨_, hfields.writes "ModuleManifest" (by decide), ?_⟩
  have hchecksums : ((m.checksums.map ((fun m => (m.1, m.2.2)) ∘ written)).map fun entry =>
      (entry.1, (entry.2.member "checksum").text)) = m.checksums := by
    rw [List.map_map]
    exact List.map_id _
  obtain ⟨_, _, _, _, _, _, _, _, _⟩ := m
  simpa [ofJson, Json.member, Entries.get?, Json.text, Runtime.ofMoniker?_moniker, hlibrary.2, hsame,
    Json.items, hrefs, Json.entries] using hchecksums

theorem ofText_text {m : Manifest} (h : (m.checksums.map (·.1)).Nodup) : ofText m.text = .ok m := by
  obtain ⟨normal, hwrites, hsame⟩ := keeps h
  rw [ofText, text, hwrites.parse]
  exact congrArg Except.ok hsame

end Manifest

theorem MemberKind.mem_all (k : MemberKind) : k ∈ all := by cases k <;> decide

theorem MemberKind.ofName?_name (k : MemberKind) : ofName? k.name = some k := by cases k <;> decide

theorem TypeKind.mem_all (k : TypeKind) : k ∈ all := by cases k <;> decide

theorem TypeKind.ofName?_name (k : TypeKind) : ofName? k.name = some k := by cases k <;> decide

section

variable {fields : List (String × Schema × Option Json)} {members all : Entries Json}

theorem optionalText_fields (key : String) (value : Option String) (h : Json.Fields fields members all) :
    Json.Fields ((key, .optional .text, some .null) :: fields) (optionalText key value ++ members)
      ((key, value.elim .null .str) :: all) := by
  cases value with
  | none => exact .omitted key _ .null h
  | some s => exact .written key _ (.optional (.text s)) h

theorem someTexts_fields (key : String) (texts : List String) (h : Json.Fields fields members all) :
    Json.Fields ((key, .list .text, some (.arr [])) :: fields) (someTexts key texts ++ members)
      ((key, .arr (texts.map .str)) :: all) := by
  cases texts with
  | nil => exact .omitted key _ (.arr []) h
  | cons s texts =>
    have htexts : ∀ i ∈ (s :: texts).map fun s => (Json.str s, Json.str s),
      Schema.text.Writes i.1 i.2 := by
      intro i hi
      obtain ⟨s, -, rfl⟩ := List.mem_map.mp hi
      exact .text s
    have hwrites := Schema.Writes.list _ htexts
    rw [List.map_map, List.map_map] at hwrites
    exact .written key _ hwrites h

end

namespace MemberEntry

theorem keeps (m : MemberEntry) : schema.Keeps toJson ofJson m := by
  have hkind := Schema.Writes.choice (List.mem_map_of_mem (f := MemberKind.name) m.kind.mem_all)
  have hfields := Json.Fields.written "name" none (.text m.name) (.written "kind" none hkind
    (optionalText_fields "type_name" m.typeName (optionalText_fields "serialized_name" m.key .nil)))
  refine ⟨_, by simpa [toJson, schema] using hfields.writes "MemberEntry" (by decide), ?_⟩
  obtain ⟨name, kind, typeName, key⟩ := m
  cases typeName <;> cases key <;>
    simp [ofJson, Json.member, Entries.get?, Json.text, MemberKind.ofName?_name, Json.text?]

end MemberEntry

namespace TypeEntry

theorem keeps (t : TypeEntry) : schema.Keeps toJson ofJson t := by
  have hkind := Schema.Writes.choice (List.mem_map_of_mem (f := TypeKind.name) t.kind.mem_all)
  obtain ⟨members, hmembers, hsame⟩ := Schema.Keeps.list fun m (_ : m ∈ t.members) => m.keeps
  have hfields := Json.Fields.written "namespace" none (.text t.scope) (.written "name" none
    (.text t.name) (.written "kind" none hkind (someTexts_fields "type_parameters" t.typeParameters
    (someTexts_fields "base_types" t.baseTypes (.written "members" (some (.arr [])) hmembers .nil)))))
  refine ⟨_, by simpa [toJson, schema] using hfields.writes "TypeEntry" (by decide), ?_⟩
  have htext : Json.text ∘ Json.str = id := rfl
  simp [ofJson, Json.member, Entries.get?, Json.text, TypeKind.ofName?_name, Json.items, hsame, htext]

end TypeEntry

namespace TypeTable

theorem keeps (table : TypeTable) : schema.Keeps toJson ofJson table := by
  obtain ⟨types, htypes, hsame⟩ := Schema.Keeps.list fun t (_ : t ∈ table.types) => t.keeps
  have hfields := Json.Fields.written "types" none htypes .nil
  refine ⟨_, hfields.writes "TypeTable" (by decide), ?_⟩
  simp [ofJson, Json.member, Entries.get?, Json.items, hsame]

theorem ofText_pretty (table : TypeTable) : ofText table.toJson.pretty = .ok table :=
  table.keeps.parse

end TypeTable

end DataClasses

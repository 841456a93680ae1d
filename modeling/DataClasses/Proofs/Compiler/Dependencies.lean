import DataClasses.Proofs.Compilation.Modules
import DataClasses.Proofs.Compiler.Caches

/-!
# Which registered libraries a source may refer to

A library that was registered is among those that a source may refer to, unless the platform has one of
the same name and version, which then comes before it.
-/

set_option autoImplicit false

namespace DataClasses

namespace Assembly

theorem sameVersion_iff {a b : Assembly} :
    a.sameVersion b = true ↔ a.name = b.name ∧ a.version = b.version := by
  simp [sameVersion]

/-- Of the libraries of one name and version the first one stays. -/
theorem mem_distinctVersions {all : List Assembly} {a : Assembly} :
    a ∈ distinctVersions all ↔ all.find? (·.sameVersion a) = some a := by
  induction all with
  | nil => simp [distinctVersions]
  | cons first rest ih =>
    rw [distinctVersions, List.mem_cons, List.mem_filter, ih, List.find?_cons]
    cases hsame : first.sameVersion a with
    | true => simp [eq_comm]
    | false =>
      have hne : a ≠ first := by
        rintro rfl
        simp [sameVersion] at hsame
      simp [hne]

/-- What is alone in its name and version stays. -/
theorem mem_distinctVersions_of_alone {all : List Assembly} {a : Assembly} (ha : a ∈ all)
    (h : ∀ b ∈ all, b.sameVersion a = true → b = a) : a ∈ distinctVersions all := by
  obtain ⟨first, hfirst⟩ : ∃ first, all.find? (·.sameVersion a) = some first := by
    rw [← Option.isSome_iff_exists, List.find?_isSome]
    exact ⟨a, ha, sameVersion_iff.mpr ⟨rfl, rfl⟩⟩
  have hsame : first.sameVersion a = true := by simpa using List.find?_some hfirst
  rw [mem_distinctVersions, hfirst, h first (List.mem_of_find?_eq_some hfirst) hsame]

/-- What stays although others of its name and version are in some part, and in none before that, is
in this part itself. -/
theorem mem_of_mem_distinctVersions {before part behind : List Assembly} {a b : Assembly}
    (h : a ∈ distinctVersions (before ++ part ++ behind))
    (hbefore : ∀ d ∈ before, d.sameVersion a ≠ true) (hb : b ∈ part)
    (hsame : b.sameVersion a = true) :
    a ∈ part := by
  obtain ⟨first, hfirst⟩ : ∃ first, part.find? (·.sameVersion a) = some first := by
    rw [← Option.isSome_iff_exists, List.find?_isSome]
    exact ⟨b, hb, hsame⟩
  rw [mem_distinctVersions, List.append_assoc, List.find?_append, List.find?_eq_none.mpr hbefore,
    Option.none_or, List.find?_append, hfirst, Option.some_or] at h
  rw [← Option.some.inj h]
  exact List.mem_of_find?_eq_some hfirst

theorem ofRuntime_apart_of_base (r : Runtime) : ∀ b ∈ ofRuntime r, b.name ∉ Catalog.baseNames := by
  cases r <;> decide

theorem ofRuntime_distinct (r : Runtime) :
    ∀ b ∈ ofRuntime r, ∀ d ∈ ofRuntime r, b.sameVersion d = true → b = d := by
  cases r <;> simp [ofRuntime, sameVersion, netStandard20, netStandard21, mscorlib, systemNumerics,
    systemXml, coreLib6, coreLib7, coreLib9, immutable8]

end Assembly

namespace ReferenceSource

theorem loadAll_ok {files : Files} {sources : List ReferenceSource}
    (h : ∀ source ∈ sources, ∃ a, source.load files = .ok a) :
    ∃ all, loadAll files sources = .ok all ∧
      ∀ a, a ∈ all ↔ ∃ source ∈ sources, source.load files = .ok a := by
  induction sources with
  | nil => exact ⟨[], rfl, by simp⟩
  | cons source rest ih =>
    obtain ⟨⟨a, ha⟩, hrest⟩ := List.forall_mem_cons.mp h
    obtain ⟨others, hothers, hmem⟩ := ih hrest
    refine ⟨a :: others, ?_, fun b => ?_⟩
    · rw [loadAll_cons, ha, hothers]
      rfl
    · rw [List.mem_cons, List.exists_mem_cons_iff, ha, hmem, Except.ok.injEq, eq_comm]

theorem loadAll_builtIn (files : Files) (all : List Assembly) :
    loadAll files (all.map .builtIn) = .ok all := by
  induction all with
  | nil => rfl
  | cons a rest ih =>
    rw [List.map_cons, loadAll_cons, ih]
    rfl

end ReferenceSource

namespace Compiler

def Describes (c : Compiler) (files : Files) (a : Assembly) : Prop :=
  ∃ source, c.catalog.lookup? a.name = some source ∧ source.load files = .ok a

theorem Describes.unique {c : Compiler} {files : Files} {a b : Assembly} (ha : c.Describes files a)
    (hb : c.Describes files b) (h : a.name = b.name) : a = b := by
  obtain ⟨source, hsource, hload⟩ := ha
  obtain ⟨other, hother, hloaded⟩ := hb
  rw [h, hother] at hsource
  cases hsource
  exact Except.ok.inj (hload.symm.trans hloaded)

section

variable {c : Compiler} {history : Catalog.History} {files : Files}
  (hcatalog : c.catalog = .after history) (hkept : Catalog.Unchanged history files)

include hcatalog hkept

theorem load_of_lookup? {name : String} {source : ReferenceSource}
    (h : c.catalog.lookup? name = some source) : ∃ a, source.load files = .ok a ∧ a.name = name := by
  rw [hcatalog] at h
  exact Catalog.load_of_isEntry (Catalog.after_isEntry hkept _ (Entries.mem_of_get? h))

/-- The libraries of some names are those that the catalog has under them. -/
theorem loadAll_names (names : List String) :
    ∃ all, ReferenceSource.loadAll files (names.filterMap c.catalog.lookup?) = .ok all ∧
      ∀ a, a ∈ all ↔ a.name ∈ names ∧ c.Describes files a := by
  have hloads : ∀ source ∈ names.filterMap c.catalog.lookup?, ∃ a, source.load files = .ok a := by
    intro source hsource
    obtain ⟨name, -, hlookup⟩ := List.mem_filterMap.mp hsource
    obtain ⟨a, hload, -⟩ := load_of_lookup? hcatalog hkept hlookup
    exact ⟨a, hload⟩
  obtain ⟨all, hall, hmem⟩ := ReferenceSource.loadAll_ok hloads
  refine ⟨all, hall, fun a => (hmem a).trans ⟨?_, ?_⟩⟩
  · rintro ⟨source, hsource, hload⟩
    obtain ⟨name, hname, hlookup⟩ := List.mem_filterMap.mp hsource
    obtain ⟨b, hb, rfl⟩ := load_of_lookup? hcatalog hkept hlookup
    obtain rfl : b = a := Except.ok.inj (hb.symm.trans hload)
    exact ⟨hname, source, hlookup, hload⟩
  · rintro ⟨hname, source, hlookup, hload⟩
    exact ⟨source, List.mem_filterMap.mpr ⟨a.name, hname, hlookup⟩, hload⟩

theorem libraries_ok (s : Settings) :
    ∃ base json registered,
      c.libraries files s =
        .ok (Assembly.distinctVersions (base ++ Assembly.ofRuntime s.runtime ++ json ++ registered)) ∧
      (∀ a ∈ base, a.name ∈ Catalog.baseNames) ∧
      (∀ a ∈ base ++ json ++ registered, c.Describes files a) ∧
      ∀ a, a.name ∈ c.catalog.registered → c.Describes files a → a ∈ registered := by
  obtain ⟨base, hbase, hbaseMem⟩ := loadAll_names hcatalog hkept Catalog.baseNames
  obtain ⟨json, hjson, hjsonMem⟩ := loadAll_names hcatalog hkept [s.library.assemblyName]
  obtain ⟨registered, hregistered, hregisteredMem⟩ := loadAll_names hcatalog hkept c.catalog.registered
  refine ⟨base, json, registered, ?_, fun a ha => ((hbaseMem a).mp ha).1, ?_,
    fun a hname hdescribes => (hregisteredMem a).mpr ⟨hname, hdescribes⟩⟩
  · have hplatform : c.catalog.runtimeSources s.runtime =
        (Assembly.ofRuntime s.runtime).map .builtIn := by
      rw [Catalog.runtimeSources, hcatalog, Catalog.after_hasPlatforms, if_pos rfl]
    have hone : [s.library.assemblyName].filterMap c.catalog.lookup? =
        (c.catalog.lookup? s.library.assemblyName).toList := by
      cases hlookup : c.catalog.lookup? s.library.assemblyName <;> simp [hlookup]
    rw [hone] at hjson
    rw [libraries_eq, hplatform, ReferenceSource.loadAll_builtIn, Catalog.baseSources, hbase, hjson,
      Catalog.registeredSources, hregistered]
    rfl
  · intro a ha
    rcases List.mem_append.mp ha with ha | ha
    · rcases List.mem_append.mp ha with ha | ha
      · exact ((hbaseMem a).mp ha).2
      · exact ((hjsonMem a).mp ha).2
    · exact ((hregisteredMem a).mp ha).2

/-- A registered library stays unless the platform has another one of its name and version. -/
theorem held_mem_iff {name : String} {a : Assembly} (hheld : Catalog.held history name = some a)
    (s : Settings) :
    ∃ references, c.libraries files s = .ok references ∧
      (a ∈ references ↔ ∀ b ∈ Assembly.ofRuntime s.runtime, b.sameVersion a = true → b = a) := by
  obtain ⟨hregistered, path, hlookup, hload⟩ := Catalog.lookup?_of_held hkept hheld
  rw [← hcatalog] at hregistered hlookup
  obtain ⟨_, hloaded, hname⟩ := load_of_lookup? hcatalog hkept hlookup
  obtain rfl := Except.ok.inj (hload.symm.trans hloaded)
  rw [← hname] at hregistered hlookup
  have hdescribes : c.Describes files a := ⟨_, hlookup, hload⟩
  obtain ⟨base, json, registered, hlibraries, hbase, hall, hmem⟩ := libraries_ok hcatalog hkept s
  refine ⟨_, hlibraries, fun hmemReferences b hb hsame => ?_, fun hplatform => ?_⟩
  · have hbefore : ∀ d ∈ base, d.sameVersion a ≠ true := by
      intro d hd hdsame
      refine Assembly.ofRuntime_apart_of_base s.runtime b hb ?_
      rw [(Assembly.sameVersion_iff.mp hsame).1, ← (Assembly.sameVersion_iff.mp hdsame).1]
      exact hbase d hd
    rw [List.append_assoc] at hmemReferences
    have ha := Assembly.mem_of_mem_distinctVersions hmemReferences hbefore hb hsame
    exact Assembly.ofRuntime_distinct s.runtime b hb a ha hsame
  · refine Assembly.mem_distinctVersions_of_alone
      (List.mem_append_right _ (hmem a hregistered hdescribes)) fun b hb hsame => ?_
    have hothers (h : b ∈ base ++ json ++ registered) : b = a :=
      (hall b h).unique hdescribes (Assembly.sameVersion_iff.mp hsame).1
    simp only [List.mem_append] at hb
    rcases hb with ((hb | hb) | hb) | hb
    · exact hothers (by simp [hb])
    · exact hplatform b hb hsame
    · exact hothers (by simp [hb])
    · exact hothers (by simp [hb])

end

/-- A registered library is one of those that sources are bound to and that the manifest of a module
records, just if no other library of its name and version belongs to the platform. -/
theorem registered_bound (c : Compiler) (history : Catalog.History) (files : Files) (name : String)
    (a : Assembly) (s : Settings) (hcatalog : c.catalog = .after history)
    (hkept : Catalog.Unchanged history files) (hc : c.catalog.Unambiguous files)
    (hheld : Catalog.held history name = some a) :
    ∃ references : List Assembly,
      ((do let _ ← c.optionsFor s; c.references s : Build (List Assembly)).run files {}).1 =
        .ok references ∧
      (∀ source path d, ((c.prepare source path s).run files {}).1 = .ok d →
        d.manifest.references = references.map referenceEntry ∧
        (Manifest.metadataName,
          ((SourceUnit.ofSource source).1.bind references).table.toJson.pretty.toUTF8) ∈ d.entries) ∧
      (a ∈ references ↔ ∀ b ∈ Assembly.ofRuntime s.runtime, b.sameVersion a = true → b = a) := by
  obtain ⟨references, hlibraries, hmem⟩ := held_mem_iff hcatalog hkept hheld s
  have hreferences := (references_new hc s).trans hlibraries
  refine ⟨references, hreferences, fun source path d hd => ?_, hmem⟩
  obtain ⟨middle, analysis, hoptions, hanalyzed, htable, rfl⟩ := prepare_ok .new (Prod.ext hd rfl)
  have hsame : references = analysis.references := by
    rw [Build.run_bind, hoptions] at hreferences
    exact Except.ok.inj (hreferences.symm.trans (congrArg Prod.fst hanalyzed))
  subst hsame
  refine ⟨(draft_manifest source s _ analysis).2.2.2.2, ?_⟩
  rw [draft_entries, htable]
  exact List.mem_cons_self

theorem acme_bound :
    let c : Compiler := { catalog := .after Catalog.acmeHistory }
    let s : Settings := { runtime := .net80 }
    Catalog.Unchanged Catalog.acmeHistory Catalog.acmeFiles ∧
      c.catalog.Unambiguous Catalog.acmeFiles ∧
      Catalog.held Catalog.acmeHistory "Acme" = some Catalog.acme ∧
      ∃ references : List Assembly,
        ((do let _ ← c.optionsFor s; c.references s : Build (List Assembly)).run Catalog.acmeFiles {}).1 =
          .ok references ∧
        Catalog.acme ∈ references := by
  intro c s
  have hkept : Catalog.Unchanged Catalog.acmeHistory Catalog.acmeFiles := Catalog.acme_unchanged rfl
  have hc : c.catalog.Unambiguous Catalog.acmeFiles := Catalog.unambiguous_of_apart hkept Catalog.acme_apart
  obtain ⟨references, hreferences, -, hmem⟩ :=
    registered_bound c Catalog.acmeHistory Catalog.acmeFiles "Acme" Catalog.acme s rfl hkept hc
      Catalog.held_acme
  exact ⟨hkept, hc, Catalog.held_acme, references, hreferences, hmem.mpr (by decide)⟩

/-- A file that has the name and the version of a library of the platform is left out. -/
theorem netstandard_left_out :
    let a := Catalog.ofMoney "netstandard.toml" "netstandard" "2.1.0.0"
    let files : Files :=
      [("netstandard.toml", .file (.ofText (Catalog.moneyText "netstandard" "2.1.0.0")))]
    let history : Catalog.History := [(files, .register "netstandard.toml")]
    let c : Compiler := { catalog := .after history }
    Catalog.Unchanged history files ∧ c.catalog.Unambiguous files ∧
      Catalog.held history "netstandard" = some a ∧
      ∃ references : List Assembly,
        ((do let _ ← c.optionsFor {}; c.references {} : Build (List Assembly)).run files {}).1 =
          .ok references ∧
        a ∉ references := by
  intro a files history c
  have hload : ReferenceSource.load files (.file "netstandard.toml") = .ok a := by
    rw [ReferenceSource.load_of_read (Files.read_of_get? (by decide) (by decide +kernel) rfl)]
    exact Assembly.ofText_of_isFile (by decide +kernel) (by decide +kernel)
  have hkept : Catalog.Unchanged history files := Catalog.unchanged_once files _
  have hheld : Catalog.held history "netstandard" = some a := Catalog.held_once hload
  have hc : c.catalog.Unambiguous files := Catalog.unambiguous_of_apart hkept <| by
    intro before path hmem
    obtain ⟨-, rfl⟩ := by simpa [history] using hmem
    decide +kernel
  obtain ⟨references, hreferences, hmem⟩ := held_mem_iff (c := c) rfl hkept hheld {}
  refine ⟨hkept, hc, hheld, references, (references_new hc {}).trans hreferences, ?_⟩
  rw [hmem]
  intro hplatform
  have hsame := hplatform Assembly.netStandard21 (by decide) (by decide)
  exact absurd hsame (by decide)

/-- A file at the path of a library that came with the program is taken for that library. -/
theorem file_at_shipped_path_left_out :
    let a := Catalog.ofMoney "builtin:refs/System.Linq.toml" "Acme" "2.0.0.0"
    let files : Files :=
      [("builtin:refs", .folder [("System.Linq.toml", .file (.ofText Catalog.acmeText))])]
    let history : Catalog.History := [(files, .register "builtin:refs/System.Linq.toml")]
    let c : Compiler := { catalog := .after history }
    Catalog.Unchanged history files ∧ Catalog.held history "Acme" = some a ∧
      ((do let _ ← c.optionsFor {}; c.references {} : Build (List Assembly)).run files {}).1 =
        .ok (Assembly.standard .netStandard21 .systemText) := by
  intro a files history c
  have hpath : Path.ofText "builtin:refs/System.Linq.toml" =
      ⟨["builtin:refs", "System.Linq.toml"], .name⟩ := by decide +kernel
  have hread : files.read "builtin:refs/System.Linq.toml" = .ok (.ofText Catalog.acmeText) := by
    simp [files, Files.read, hpath, Files.find, Entries.get?, Path.asFolder]
  have hload : ReferenceSource.load files (.file "builtin:refs/System.Linq.toml") = .ok a := by
    rw [ReferenceSource.load_of_read hread]
    exact Catalog.ofText_acmeText _
  have hc : c = { catalog :=
      { Catalog.builtIn with
        libraries := Catalog.builtIn.libraries.put "Acme" (.file "builtin:refs/System.Linq.toml")
        registered := ["Acme"] } } := by
    simp only [c, history, Catalog.after, Catalog.change, Catalog.register, hload]
    rfl
  refine ⟨Catalog.unchanged_once files _, Catalog.held_once hload, ?_⟩
  rw [hc]
  rfl

end Compiler

end DataClasses

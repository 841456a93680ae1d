import DataClasses.Proofs.Entries
import DataClasses.Proofs.Reference.Exports

/-!
# Catalogs that have been changed

Libraries are registered and removed. What a history of changes leaves of them is said apart from the
catalog: the library of a name is the one that was registered last, if it was not removed since.
-/

set_option autoImplicit false

namespace DataClasses

/-- A table whose entries are sorted is looked at as it is written. -/
theorem Toml.view_of_sorted {origin : TableOrigin} {entries : Table}
    (h : entries.Pairwise fun a b => decide (a.1 ≤ b.1) = true) :
    view (.table origin entries) = .obj entries := by
  rw [view, sorted, List.mergeSort_of_pairwise h]

section

namespace Assembly

variable {path text name version scope type : String}

def scopeEntries (scope type : String) : Toml.Table := [("name", .str scope), ("types", .arr [.str type])]

def fileEntries (name version scope type : String) : Toml.Table :=
  [("name", .str name), ("namespace", .arr [.table .inline (scopeEntries scope type)]),
    ("version", .str version)]

def isFile (name version scope type : String) : Except Toml.Fault Toml.Table → Bool
  | .ok [(k, .str n), (k', .arr [.table .inline [(j, .str m), (j', .arr [.str t])]]), (k'', .str v)] =>
    decide ([k, n, k', j, m, j', t, k'', v] =
      ["name", name, "namespace", "name", scope, "types", type, "version", version])
  | _ => false

theorem eq_of_isFile {r : Except Toml.Fault Toml.Table} (h : isFile name version scope type r = true) :
    r = .ok (fileEntries name version scope type) := by
  unfold isFile at h
  split at h
  · simp only [decide_eq_true_eq, List.cons.injEq, and_true] at h
    obtain ⟨rfl, rfl, rfl, rfl, rfl, rfl, rfl, rfl, rfl⟩ := h
    rfl
  · contradiction

theorem read_of_isFile (h : isFile name version scope type (Toml.parse text) = true) :
    Toml.read schema text = .ok (.obj [("name", .str name), ("version", .str version),
      ("namespace", .arr [.obj [("name", .str scope), ("types", .arr [.str type])]])]) := by
  have hscope : Toml.view (.table .inline (scopeEntries scope type)) = .obj (scopeEntries scope type) :=
    Toml.view_of_sorted (by simp [scopeEntries])
  have hfile : Toml.view (.table .header (fileEntries name version scope type)) =
      .obj (fileEntries name version scope type) :=
    Toml.view_of_sorted (by simp [fileEntries])
  rw [Toml.read, eq_of_isFile h]
  rw [scopeEntries] at hscope
  simp only [schema, Json.Schema.decode, Json.fieldDecoders, Toml.format, hfile]
  simp [fileEntries, scopeEntries, Json.decodeRecord, Json.decodeFields, Toml.view.eq_1, Toml.view.eq_6,
    hscope, Json.decodeText, Json.decodeList, pure, Except.pure, bind, Except.bind, Json.fill, Entries.get?]
  rfl

theorem ofText_of_isFile (h : isFile name version scope type (Toml.parse text) = true)
    (hfault : fault? ⟨name, version, [⟨scope, [type]⟩], path⟩ = none) :
    ofText path text = .ok ⟨name, version, [⟨scope, [type]⟩], path⟩ := by
  rw [ofText, read_of_isFile h]
  simp only
  rw [show ofJson path _ = (⟨name, version, [⟨scope, [type]⟩], path⟩ : Assembly) from rfl, hfault]

/-- What an accepted library has been checked for. -/
theorem fault?_eq_none {a : Assembly} :
    a.fault? = none ↔ isDottedName a.name = true ∧ Text.allBlank a.version = false ∧
      ∀ n ∈ a.namespaces, isDottedName n.name = true ∧ ∀ raw ∈ n.types, isTypeName raw = true := by
  have hnamespace (n : ExportedNamespace) : namespaceFault? n = none ↔
      isDottedName n.name = true ∧ ∀ raw ∈ n.types, isTypeName raw = true := by
    simp [namespaceFault?, ite_eq_iff]
  simp [fault?, ite_eq_iff, List.findSome?_eq_none_iff, hnamespace]

theorem fault?_of_ofText {a : Assembly} (h : ofText path text = .ok a) : a.fault? = none := by
  rw [ofText] at h
  split at h
  · contradiction
  · dsimp only at h
    split at h
    · contradiction
    · next hfault =>
      cases h
      exact hfault

end Assembly

end

theorem Files.read_of_get? {files : Files} {name : String} {content : Content}
    (hname : name.isEmpty = false) (hpath : Path.ofText name = ⟨[name], .name⟩)
    (h : files.get? name = some (.file content)) : files.read name = .ok content := by
  simp [read, hname, hpath, find, h, Path.asFolder]

theorem ReferenceSource.load_of_read {files : Files} {path text : String}
    (h : files.read path = .ok (.ofText text)) : load files (.file path) = Assembly.ofText path text := by
  have hvalid : String.fromUTF8? text.toUTF8 = some text := dif_pos text.isValidUTF8
  have htext : (Content.ofText text).text? = .ok text := by rw [Content.ofText, Content.text?, hvalid]
  rw [load, Files.readText, h, Except.bind, htext]

namespace Catalog

inductive Change where
  | register (path : String)
  | remove (name : String)

def change (c : Catalog) (files : Files) : Change → Catalog
  | .register path =>
    match c.register files path with
    | .ok (_, changed) => changed
    | .error _ => c
  | .remove name => c.remove name

section

variable {c : Catalog} {files : Files} {path : String}

/-- A library that was registered comes to be among those that are used. -/
theorem change_of_load {a : Assembly} (h : ReferenceSource.load files (.file path) = .ok a) :
    (c.change files (.register path)).libraries = c.libraries.put a.name (.file path) ∧
      (c.change files (.register path)).hasPlatforms = c.hasPlatforms ∧
      ∀ name, name ∈ (c.change files (.register path)).registered ↔
        name = a.name ∨ name ∈ c.registered := by
  rw [change, register, h]
  refine ⟨rfl, rfl, fun name => ?_⟩
  simp only [Except.map]
  split
  · next hcontains =>
    refine ⟨.inr, ?_⟩
    rintro (rfl | hname)
    · simpa using hcontains
    · exact hname
  · rw [List.mem_append, List.mem_singleton, or_comm]

theorem change_of_failure {failure : Failure}
    (h : ReferenceSource.load files (.file path) = .error failure) :
    c.change files (.register path) = c := by
  rw [change, register, h]
  rfl

end

abbrev History := List (Files × Change)

def after : History → Catalog
  | [] => builtIn
  | (files, request) :: earlier => (after earlier).change files request

def held : History → String → Option Assembly
  | [], _ => none
  | (files, .register path) :: earlier, name =>
    match ReferenceSource.load files (.file path) with
    | .ok a => if a.name = name then some a else held earlier name
    | .error _ => held earlier name
  | (_, .remove other) :: earlier, name => if other = name then none else held earlier name

def Unchanged (history : History) (files : Files) : Prop :=
  ∀ before path, (before, Change.register path) ∈ history → ∀ a,
    ReferenceSource.load before (.file path) = .ok a → ReferenceSource.load files (.file path) = .ok a

/-- The source of a library: it came with the program, or it is a file that was registered and that
describes it under its name. -/
def IsEntry (history : History) (files : Files) (name : String) (source : ReferenceSource) : Prop :=
  (∃ a ∈ Assembly.libraries, source = .builtIn a ∧ a.name = name) ∨
    ∃ before path a, (before, Change.register path) ∈ history ∧ source = .file path ∧
      source.load files = .ok a ∧ a.name = name

section

variable {history : History} {files : Files}

theorem load_of_isEntry {name : String} {source : ReferenceSource}
    (h : IsEntry history files name source) : ∃ a, source.load files = .ok a ∧ a.name = name := by
  rcases h with ⟨a, -, rfl, hname⟩ | ⟨_, _, a, -, -, hload, hname⟩
  · exact ⟨a, rfl, hname⟩
  · exact ⟨a, hload, hname⟩

theorem after_isEntry (h : Unchanged history files) :
    ∀ entry ∈ (after history).libraries, IsEntry history files entry.1 entry.2 := by
  induction history with
  | nil =>
    intro entry hentry
    obtain ⟨a, ha, rfl⟩ := List.mem_map.mp hentry
    exact .inl ⟨a, ha, rfl, rfl⟩
  | cons first earlier ih =>
    have hearlier : ∀ entry ∈ (after earlier).libraries,
        IsEntry (first :: earlier) files entry.1 entry.2 :=
      fun entry hentry => (ih (fun before path hmem => h before path (List.mem_cons_of_mem _ hmem))
        entry hentry).imp_right fun ⟨before, path, a, hmem, hentry⟩ =>
          ⟨before, path, a, List.mem_cons_of_mem _ hmem, hentry⟩
    obtain ⟨before, request⟩ := first
    cases request with
    | remove name => exact fun entry hentry => hearlier entry (List.mem_filter.mp hentry).1
    | register path =>
      rw [after]
      cases hload : ReferenceSource.load before (.file path) with
      | error failure =>
        rw [change_of_failure hload]
        exact hearlier
      | ok a =>
        rw [(change_of_load hload).1]
        intro entry hentry
        rcases Entries.mem_put hentry with rfl | hentry
        · have hlater := h before path List.mem_cons_self a hload
          exact .inr ⟨before, path, a, List.mem_cons_self, rfl, hlater, rfl⟩
        · exact hearlier entry hentry

theorem after_hasPlatforms (history : History) : (after history).hasPlatforms = true := by
  induction history with
  | nil => rfl
  | cons first earlier ih =>
    obtain ⟨before, request⟩ := first
    cases request with
    | remove name => exact ih
    | register path =>
      rw [after]
      cases hload : ReferenceSource.load before (.file path) with
      | error failure => rw [change_of_failure hload, ih]
      | ok a => rw [(change_of_load hload).2.1, ih]

/-- What is held is found in the catalog as the file that it was registered from. -/
theorem lookup?_of_held {name : String} {a : Assembly} (h : Unchanged history files)
    (hheld : held history name = some a) :
    name ∈ (after history).registered ∧
      ∃ path, (after history).lookup? name = some (.file path) ∧
        ReferenceSource.load files (.file path) = .ok a := by
  induction history with
  | nil => simp [held] at hheld
  | cons first earlier ih =>
    have hearlier := ih fun before path hmem => h before path (List.mem_cons_of_mem _ hmem)
    obtain ⟨before, request⟩ := first
    cases request with
    | remove other =>
      rw [held] at hheld
      split at hheld
      · contradiction
      · next hother =>
        obtain ⟨hregistered, path, hlookup, hload⟩ := hearlier hheld
        refine ⟨List.mem_filter.mpr ⟨hregistered, by simpa using Ne.symm hother⟩, path, ?_, hload⟩
        rw [lookup?, after, change, remove, Entries.get?_erase, if_neg hother]
        exact hlookup
    | register path =>
      rw [held] at hheld
      rw [after]
      cases hload : ReferenceSource.load before (.file path) with
      | error failure =>
        rw [hload] at hheld
        rw [change_of_failure hload]
        exact hearlier hheld
      | ok b =>
        obtain ⟨hlibraries, -, hregistered⟩ := change_of_load (c := after earlier) hload
        rw [hload] at hheld
        simp only at hheld
        simp only [lookup?, hlibraries, Entries.get?_put, hregistered]
        split at hheld
        · next hname =>
          cases hheld
          exact ⟨.inl hname.symm, path, if_pos hname, h before path List.mem_cons_self _ hload⟩
        · next hname =>
          obtain ⟨hmem, other, hlookup, hother⟩ := hearlier hheld
          exact ⟨.inr hmem, other, (if_neg hname).trans hlookup, hother⟩

theorem unchanged_once (files : Files) (path : String) : Unchanged [(files, .register path)] files := by
  intro before other hmem a hload
  obtain ⟨rfl, rfl⟩ := by simpa using hmem
  exact hload

theorem held_once {path : String} {a : Assembly} (h : ReferenceSource.load files (.file path) = .ok a) :
    held [(files, .register path)] a.name = some a := by
  rw [held, h]
  exact if_pos rfl

end

def Offers (c : Catalog) (source : ReferenceSource) : Prop :=
  (∃ name, c.lookup? name = some source) ∨ ∃ r, source ∈ c.runtimeSources r

def Unambiguous (c : Catalog) (files : Files) : Prop :=
  ∀ source other, c.Offers source → c.Offers other → source.path = other.path →
    source.load files = other.load files

def Apart (history : History) : Prop :=
  ∀ before path, (before, Change.register path) ∈ history →
    ∀ b ∈ Assembly.shipped, b.source ≠ path

theorem after_offers {history : History} {files : Files} (h : Unchanged history files)
    {source : ReferenceSource} (hsource : (after history).Offers source) :
    (∃ b ∈ Assembly.shipped, source = .builtIn b) ∨
      ∃ before path, (before, Change.register path) ∈ history ∧ source = .file path := by
  obtain ⟨name, hlookup⟩ | ⟨r, hr⟩ := hsource
  · rcases after_isEntry h _ (Entries.mem_of_get? hlookup) with
      ⟨b, hb, rfl, -⟩ | ⟨before, path, _, hmem, rfl, -⟩
    · exact .inl ⟨b, List.mem_append_left _ hb, rfl⟩
    · exact .inr ⟨before, path, hmem, rfl⟩
  · rw [runtimeSources, after_hasPlatforms, if_pos rfl] at hr
    obtain ⟨b, hb, rfl⟩ := List.mem_map.mp hr
    exact .inl ⟨b, Assembly.ofRuntime_shipped r hb, rfl⟩

theorem unambiguous_of_apart {history : History} {files : Files} (h : Unchanged history files)
    (hapart : Apart history) : (after history).Unambiguous files := by
  intro source other hsource hother hpath
  rcases after_offers h hsource with ⟨b, hb, rfl⟩ | ⟨before, path, hmem, rfl⟩ <;>
    rcases after_offers h hother with ⟨d, hd, rfl⟩ | ⟨earlier, place, hplace, rfl⟩
  · rw [List.inj_on_of_nodup_map Assembly.shipped_sources_nodup hb hd hpath]
  · exact absurd hpath (hapart earlier place hplace b hb)
  · exact absurd hpath.symm (hapart before path hmem d hd)
  · rw [show path = place from hpath]

def ofMoney (path name version : String) : Assembly := ⟨name, version, [⟨"Acme", ["Money"]⟩], path⟩

def moneyText (name version : String) : String :=
  "name=\"" ++ name ++ "\"\nnamespace=[\x7bname=\"Acme\",types=[\"Money\"]\x7d]\nversion=\"" ++
    version ++ "\""

def acme : Assembly := ofMoney "Acme.toml" "Acme" "2.0.0.0"

def acmeText : String := moneyText "Acme" "2.0.0.0"

def acmeFiles : Files := [("Acme.toml", .file (.ofText acmeText))]

def acmeHistory : History :=
  [(acmeFiles, .register "Acme.toml"), (acmeFiles, .remove "Newtonsoft.Json")]

theorem ofText_acmeText (path : String) :
    Assembly.ofText path acmeText = .ok (ofMoney path "Acme" "2.0.0.0") := by
  refine Assembly.ofText_of_isFile (by decide +kernel) ?_
  change acme.fault? = none
  decide +kernel

theorem load_acme {files : Files} (h : files.get? "Acme.toml" = some (.file (.ofText acmeText))) :
    ReferenceSource.load files (.file "Acme.toml") = .ok acme := by
  rw [ReferenceSource.load_of_read (Files.read_of_get? (by decide) (by decide +kernel) h)]
  exact ofText_acmeText _

theorem held_acme : held acmeHistory "Acme" = some acme := by
  rw [acmeHistory, held, load_acme rfl]
  rfl

theorem of_mem_acmeHistory {before : Files} {path : String}
    (h : (before, Change.register path) ∈ acmeHistory) : before = acmeFiles ∧ path = "Acme.toml" := by
  simpa [acmeHistory] using h

theorem acme_unchanged {files : Files} (h : files.get? "Acme.toml" = some (.file (.ofText acmeText))) :
    Unchanged acmeHistory files := by
  intro before path hmem a hload
  obtain ⟨rfl, rfl⟩ := of_mem_acmeHistory hmem
  rw [load_acme h, ← hload, load_acme rfl]

theorem acme_apart : Apart acmeHistory := by
  intro before path hmem
  obtain ⟨-, rfl⟩ := of_mem_acmeHistory hmem
  decide +kernel

end Catalog

end DataClasses

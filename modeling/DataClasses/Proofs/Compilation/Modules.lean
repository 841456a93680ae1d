import DataClasses.Proofs.Compilation.WellFormed
import DataClasses.Proofs.Compiler.Builds
import DataClasses.Proofs.Module.Opened

/-!
# What a compilation writes can be opened

The module of a source has one or two entries. When it is opened again nothing of what it was made of
has been lost.
-/

set_option autoImplicit false

namespace DataClasses

namespace Compiler

section

variable (source : String) (s : Settings) (o : BuildOptions) (a : Analysis)

theorem draft_isSealed : (draft source s o a).IsSealed := by
  have htypes := (ModuleDraft.IsSealed.start (m := { Manifest.start s.container Manifest.moduleVersion
    s.runtime s.library o with references := a.references.map referenceEntry }) rfl).add
      Manifest.metadataName a.table.toJson.pretty.toUTF8
  unfold draft
  split
  · exact htypes.add _ _
  · exact htypes

/-- The entries of a module: its table, and the source where that is kept. -/
theorem draft_entries : (draft source s o a).entries =
    (Manifest.metadataName, a.table.toJson.pretty.toUTF8) ::
      if o.embedsSource then [(ModuleDraft.sourceFolder ++ (s.rootClass ++ ".cs"), source.toUTF8)]
      else [] := by
  unfold draft
  split <;> rfl

theorem draft_manifest :
    let m := (draft source s o a).manifest
    m.name = s.container ∧ m.runtime = s.runtime ∧ m.library = s.library ∧ m.options = o ∧
      m.references = a.references.map referenceEntry := by
  unfold draft
  split <;> exact ⟨rfl, rfl, rfl, rfl, rfl⟩

end

theorem source?_of_draft {source : String} {s : Settings} {o : BuildOptions} {a : Analysis}
    {archive : Archive} {m : Manifest} (hnodup : (archive.map (·.1)).Nodup)
    (h : archive = (Manifest.entryName, m.text.toUTF8) :: (draft source s o a).entries) :
    OpenedModule.source? ⟨m, .ofArchive archive⟩ =
      .ok (if o.embedsSource then some source else none) := by
  let inFolder (name : String) : Bool := ModuleDraft.sourceFolder.toList.isPrefixOf name.toList
  have hmanifest : inFolder Manifest.entryName = false ∧ inFolder Manifest.metadataName = false := by
    decide
  have hsource : inFolder (ModuleDraft.sourceFolder ++ (s.rootClass ++ ".cs")) = true := by
    simp [inFolder]
  rw [draft_entries] at h
  rw [OpenedModule.source?, OpenedModule.firstSource?, PackedArchive.names_ofArchive]
  cases hembeds : o.embedsSource with
  | false =>
    have hnone : (archive.map (·.1)).find? inFolder = none := by
      rw [h, hembeds]
      simp [hmanifest]
    rw [hnone]
    rfl
  | true =>
    have hfound : (archive.map (·.1)).find? inFolder =
        some (ModuleDraft.sourceFolder ++ (s.rootClass ++ ".cs")) := by
      rw [h, hembeds]
      simp [hmanifest, hsource]
    have hmem : (ModuleDraft.sourceFolder ++ (s.rootClass ++ ".cs"), source.toUTF8) ∈ archive := by
      rw [h, hembeds]
      simp
    rw [hfound]
    simp only [OpenedModule.text, OpenedModule.readEntry_text_of_mem source _ hnodup hmem]
    rfl

theorem draft_archive (source : String) {s : Settings} (o : BuildOptions) (a : Analysis)
    (h : s.container.isEmpty = false) : ∃ archive, (draft source s o a).archive = .ok archive := by
  have hnames : (Manifest.entryName :: (draft source s o a).entries.map (·.1)).Nodup := by
    have hfirst (name : String) (hname : name.toList.head? ≠ some 's') :
        name ≠ ModuleDraft.sourceFolder ++ (s.rootClass ++ ".cs") := by
      rintro rfl
      exact hname (by simp [ModuleDraft.sourceFolder])
    have hmanifest := hfirst Manifest.entryName (by decide)
    have hmetadata := hfirst Manifest.metadataName (by decide)
    rw [draft_entries]
    cases o.embedsSource <;> simp [hmanifest, hmetadata] <;> decide
  have hchecksums := draft_isSealed source s o a (List.nodup_cons.mp hnames).2
  have hlisted : Entries.has (draft source s o a).manifest.checksums Manifest.metadataName = true := by
    rw [hchecksums, draft_entries]
    simp [Entries.has]
  have hmarked : (draft source s o a).manifest.checksums.find?
      (fun entry => !Checksum.isMarked entry.2) = none := by
    rw [hchecksums]
    simp [Checksum.isMarked_ofBytes]
  have hname := (draft_manifest source s o a).1
  have hversions : (draft source s o a).manifest.formatVersion = Manifest.currentFormat ∧
      (draft source s o a).manifest.version = Manifest.moduleVersion := by
    unfold draft
    split <;> exact ⟨rfl, rfl⟩
  have hfault : (draft source s o a).manifest.fault? = none := by
    rw [Manifest.fault?, hversions.1, hversions.2, hname, hlisted, hmarked, h]
    rfl
  exact ⟨_, ModuleDraft.archive_eq_ok.mpr ⟨hfault, rfl, hnames⟩⟩

/-- A source that passes becomes a module, if there is a name for that and it can be written. -/
theorem compile_of_passes {source path : String} {s : Settings} {files : Files}
    (hblank : Text.allBlank source = false) (hpass : (analysisOf source s).failures = [])
    (hruntime : s.runtime.needsInstallation = false) (hcontainer : s.container.isEmpty = false)
    (hpath : path.isEmpty = false)
    (hwrite : ∀ archive, (files.writeDeep path (.packed archive)).1 = .ok ()) :
    ∃ after, ({} : Compiler).compile source path s { files } = (.ok (), after) := by
  obtain ⟨cache, hfresh⟩ :
      ∃ cache, (fresh source s).run files {} = (.ok (analysisOf source s), cache) :=
    ⟨_, Prod.ext (fresh_apply source s files) rfl⟩
  obtain ⟨o, middle, hoptions, hanalyze⟩ := Build.ok_bind hfresh
  have hexamine : (({} : Compiler).examine source s).run files {} =
      (.ok (o, analysisOf source s), cache) := by
    rw [examine, Build.run_bind, hoptions]
    simp only
    rw [Build.run_bind, hanalyze]
    rfl
  have hplatform : ({} : Compiler).hasPlatform files s.runtime = true := by
    rw [hasPlatform, hruntime, Bool.not_false, Bool.true_or]
  have hprepare : (({} : Compiler).prepare source path s).run files {} =
      (.ok (draft source s o (analysisOf source s)), cache) := by
    rw [prepare_run hblank hpath hplatform, Build.run_bind, hexamine]
    simp only [settle, hpass, List.isEmpty_nil, if_true]
    rfl
  obtain ⟨archive, harchive⟩ := draft_archive source o (analysisOf source s) hcontainer
  obtain ⟨after, hafter⟩ : ∃ after, files.writeDeep path (.packed archive) = (.ok (), after) :=
    ⟨_, Prod.ext (hwrite archive) rfl⟩
  exact ⟨⟨after, cache⟩, by simp only [compile, hprepare, ModuleDraft.write, harchive, hafter]⟩

/-- What a compilation writes opens again, with the types of the bound source, all that the module
was made for and of, and the source itself if the module is made for finding faults. -/
theorem compile_opens {c : Compiler} {w after : Workspace} {source path : String} {s : Settings}
    (hcache : c.Leaves w.cache) (h : c.compile source path s w = (.ok (), after)) :
    ∃ (references : List Assembly) (m : OpenedModule),
      (do let _ ← c.optionsFor s; c.references s : Build (List Assembly)).run w.files w.cache =
        (.ok references, after.cache) ∧
      OpenedModule.load after.files path = .ok m ∧
      m.types = .ok ((SourceUnit.ofSource source).1.bind references).table ∧
      m.manifest.name = s.container ∧
      m.manifest.runtime = s.runtime ∧
      m.manifest.library = s.library ∧
      m.manifest.options = .choose s.optimize c.warningsAsErrors ∧
      m.manifest.references = references.map referenceEntry ∧
      m.source? = .ok (if s.optimize then none else some source) := by
  unfold compile at h
  split at h
  · cases h
  · next d cache hprepare =>
    obtain ⟨middle, a, hoptions, hreferences, htable, rfl⟩ := prepare_ok hcache hprepare
    split at h
    · cases h
    · next files hwrite =>
      cases h
      obtain ⟨archive, harchive, hload⟩ :=
        OpenedModule.load_write (draft_isSealed source s _ a) hwrite
      obtain ⟨hentries, hnodup, -⟩ :=
        OpenedModule.ofArchive_archive (draft_isSealed source s _ a) harchive
      obtain ⟨hname, hruntime, hlibrary, hchosen, hrefs⟩ := draft_manifest source s
        (.choose s.optimize c.warningsAsErrors) a
      refine ⟨a.references, _, ?_, hload, ?_, hname, hruntime, hlibrary, hchosen, hrefs, ?_⟩
      · rw [Build.run_bind, hoptions]
        exact hreferences
      · rw [← htable]
        exact OpenedModule.types_of_mem hnodup (by rw [hentries, draft_entries]; simp)
      · rw [source?_of_draft hnodup hentries]
        cases s.optimize <;> rfl

def shelfTree : ClassTree :=
  ⟨⟨"Shelf", true, [⟨"all books", "AllBooks", .listOf (.classNamed "Book")⟩]⟩,
    [⟨"Book", false, [⟨"lent at", "LentAt", .primitive .timestamp⟩]⟩]⟩

def shelfSettings : Settings := { rootClass := "Shelf", optimize := false }

def shelfSource : String := shelfTree.source shelfSettings

theorem shelfTree_wellFormed : shelfTree.WellFormed shelfSettings where
  named := by decide
  nodup := by decide
  notTimestamp := by decide
  members := by decide
  closed := by decide
  notWord := by simp [ClassTree.classes, shelfTree, ClassTree.contextualWords]
  depth := by decide
  container := by decide
  root := by decide
  parts := by decide

theorem shelfSource_compiles :
    ∃ after, ({} : Compiler).compile shelfSource "Shelf.dll" shelfSettings {} = (.ok (), after) := by
  have h := shelfTree_wellFormed
  have hpass := (ClassTree.failures_iff_clear (fun part hpart => (h.container part hpart).2) h.bindable
    h.allNamed h.closed h.accepts).mpr ⟨h.nodup, h.members⟩
  have hpath : Path.ofText "Shelf.dll" = ⟨["Shelf.dll"], .name⟩ := by decide +kernel
  refine compile_of_passes (ClassTree.source_not_blank _ _) hpass rfl (by decide) (by decide)
    fun archive => ?_
  simp [Files.writeDeep, Files.write, hpath, Files.makeFolders, Files.place, Path.asFolder, Entries.get?]

theorem shelfSource_opens :
    Leaves {} {} ∧ ∃ after references m,
      ({} : Compiler).compile shelfSource "Shelf.dll" shelfSettings {} = (.ok (), after) ∧
      OpenedModule.load after.files "Shelf.dll" = .ok m ∧
      m.types = .ok ((SourceUnit.ofSource shelfSource).1.bind references).table ∧
      m.manifest.name = "RpaJsonModels" ∧
      m.manifest.runtime = .netStandard21 ∧
      m.manifest.library = .systemText ∧
      m.manifest.options = .choose false false ∧
      m.manifest.references = references.map referenceEntry ∧
      m.source? = .ok (some shelfSource) := by
  obtain ⟨after, hafter⟩ := shelfSource_compiles
  obtain ⟨references, m, -, hload, hrest⟩ := compile_opens .new hafter
  exact ⟨.new, after, references, m, hafter, hload, hrest⟩

end Compiler

end DataClasses

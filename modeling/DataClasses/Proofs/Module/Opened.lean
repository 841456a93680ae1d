import DataClasses.Module.Opened
import DataClasses.Proofs.Files.Tree
import DataClasses.Proofs.Module.Manifest

/-!
# Modules that are written can be opened

What a module was made of is what comes out of the file that it is written to.
-/

set_option autoImplicit false

namespace DataClasses

namespace PackedEntry

theorem verified_self {α : Type} (content : ByteArray) (value : α) :
    verified content (Crc32.ofBytes content).toNat value = .ok value :=
  if_pos (beq_self_eq_true _)

theorem bytes_ofContent (content : ByteArray) : (ofContent content).bytes = .ok content :=
  verified_self content content

theorem text_ofContent (text : String) : (ofContent text.toUTF8).text = .ok text := by
  have hvalid : String.fromUTF8? text.toUTF8 = some text := dif_pos text.isValidUTF8
  have hunpack : (ofContent text.toUTF8).unpack =
      .ok (text.toUTF8, (Crc32.ofBytes text.toUTF8).toNat) := rfl
  rw [PackedEntry.text, hunpack]
  simp only [bind, Except.bind, hvalid]
  exact verified_self _ text

end PackedEntry

theorem PackedArchive.get?_ofArchive (archive : Archive) (name : String) :
    Entries.get? (ofArchive archive) name = (archive.get? name).map .ofContent := by
  simp [ofArchive, Entries.get?, List.find?_map, Function.comp_def]

theorem PackedArchive.names_ofArchive (archive : Archive) :
    names (ofArchive archive) = archive.map (·.1) := by
  rw [names, ofArchive, List.map_map]
  rfl

namespace Archive

theorem repeated?_eq_none_iff {before names : List String} :
    repeated? before names = none ↔ names.Nodup ∧ ∀ name ∈ names, name ∉ before := by
  induction names generalizing before with
  | nil => simp [repeated?]
  | cons name names ih =>
    rw [repeated?, List.nodup_cons, List.forall_mem_cons]
    split
    · next h => simpa using fun _ _ hnew => absurd (by simpa using h) hnew
    · next h =>
      have hname : name ∉ before := by simpa using h
      rw [ih]
      constructor
      · rintro ⟨hnodup, hnew⟩
        exact ⟨⟨fun hmem => hnew name hmem List.mem_cons_self, hnodup⟩, hname,
          fun other hother hmem => hnew other hother (List.mem_cons_of_mem _ hmem)⟩
      · rintro ⟨⟨hfirst, hnodup⟩, -, hnew⟩
        refine ⟨hnodup, fun other hother hmem => ?_⟩
        rcases List.mem_cons.mp hmem with rfl | hmem
        · exact hfirst hother
        · exact hnew other hother hmem

theorem nodup_of_ofEntries {entries : List (String × ByteArray)} {archive : Archive}
    (h : ofEntries entries = .ok archive) : archive = entries ∧ (entries.map (·.1)).Nodup := by
  rw [ofEntries] at h
  split at h
  · contradiction
  · next hnone => exact ⟨(Except.ok.inj h).symm, (repeated?_eq_none_iff.mp hnone).1⟩

end Archive

namespace Checksum

theorem isMarked_ofBytes (bytes : ByteArray) : isMarked (ofBytes bytes) = true := by
  simp [isMarked, ofBytes]

theorem verifies_ofBytes (bytes : ByteArray) : verifies bytes (ofBytes bytes) = true := by
  simp [verifies, isMarked_ofBytes]

end Checksum

namespace ModuleDraft

/-- The manifest of a draft has the checksums of the entries, as far as their names differ. -/
def IsSealed (d : ModuleDraft) : Prop :=
  (d.entries.map (·.1)).Nodup →
    d.manifest.checksums = d.entries.map fun entry => (entry.1, Checksum.ofBytes entry.2)

theorem IsSealed.start {m : Manifest} (h : m.checksums = []) : IsSealed { manifest := m } :=
  fun _ => h

theorem IsSealed.add {d : ModuleDraft} (h : d.IsSealed) (path : String) (content : ByteArray) :
    (d.add path content).IsSealed := by
  intro hnodup
  simp only [ModuleDraft.add, List.map_append, List.map_cons, List.map_nil] at hnodup ⊢
  rw [List.nodup_append] at hnodup
  have hnew : path ∉ d.manifest.checksums.map (·.1) := by
    rw [h hnodup.1, List.map_map]
    exact fun hmem => hnodup.2.2 path hmem path (by simp) rfl
  rw [Entries.put_of_new hnew, h hnodup.1]

/-- A draft has an archive if its manifest is as it should be and no two of its entries, the manifest
among them, have one name. -/
theorem archive_eq_ok {d : ModuleDraft} {archive : Archive} :
    d.archive = .ok archive ↔ d.manifest.fault? = none ∧
      archive = (Manifest.entryName, d.manifest.text.toUTF8) :: d.entries ∧
      (archive.map (·.1)).Nodup := by
  rw [ModuleDraft.archive]
  constructor
  · intro h
    split at h
    · contradiction
    · next hfault =>
      split at h
      · contradiction
      · next hentries =>
        obtain rfl := Except.ok.inj h
        obtain ⟨rfl, hnodup⟩ := Archive.nodup_of_ofEntries hentries
        exact ⟨hfault, rfl, hnodup⟩
  · rintro ⟨hfault, rfl, hnodup⟩
    have hdistinct := Archive.repeated?_eq_none_iff.mpr ⟨hnodup, fun name _ => List.not_mem_nil⟩
    simp only [hfault, Archive.ofEntries, hdistinct]

end ModuleDraft

namespace OpenedModule

section

variable {archive : Archive} {path : String}

theorem contentOf_ofArchive (archive : Archive) (path : String) :
    contentOf (.ofArchive archive) path =
      match archive.get? path with
      | some content => .ok content
      | none => .error (.missingEntry path) := by
  rw [contentOf, readEntry, PackedArchive.get?_ofArchive]
  cases archive.get? path with
  | none => rfl
  | some content =>
    simp only [Option.map_some, PackedEntry.bytes_ofContent]
    rfl

theorem contentOf_of_mem {content : ByteArray} (hnodup : (archive.map (·.1)).Nodup)
    (h : (path, content) ∈ archive) : contentOf (.ofArchive archive) path = .ok content := by
  rw [contentOf_ofArchive, Entries.get?_of_mem hnodup h]

theorem readEntry_text_of_mem (text : String) (missing : ModuleFault)
    (hnodup : (archive.map (·.1)).Nodup) (h : (path, text.toUTF8) ∈ archive) :
    readEntry (.ofArchive archive) path missing PackedEntry.text = .ok text := by
  rw [readEntry, PackedArchive.get?_ofArchive, Entries.get?_of_mem hnodup h]
  simp only [Option.map_some, PackedEntry.text_ofContent]
  rfl

/-- Entries that are in the archive have the checksums that are recorded of them. -/
theorem verify_entries {entries : List (String × ByteArray)} (hnodup : (archive.map (·.1)).Nodup)
    (h : ∀ e ∈ entries, e ∈ archive) :
    verify (.ofArchive archive) (entries.map fun e => (e.1, Checksum.ofBytes e.2)) = .ok () := by
  induction entries with
  | nil => rfl
  | cons e entries ih =>
    obtain ⟨he, hrest⟩ := List.forall_mem_cons.mp h
    rw [List.map_cons, verify, contentOf_of_mem hnodup he]
    simp only [Bind.bind, Except.bind, Checksum.verifies_ofBytes, if_true]
    exact ih hrest

end

/-- An archive opens if its manifest is as it should be and records entries that are there. -/
theorem ofArchive_of_listed {m : Manifest} {archive : Archive} {listed : List (String × ByteArray)}
    (hnodup : (archive.map (·.1)).Nodup) (hmanifest : (Manifest.entryName, m.text.toUTF8) ∈ archive)
    (hfault : m.fault? = none) (hlisted : ∀ e ∈ listed, e ∈ archive)
    (hnames : (listed.map (·.1)).Nodup)
    (hchecksums : m.checksums = listed.map fun e => (e.1, Checksum.ofBytes e.2)) :
    ofArchive (.ofArchive archive) = .ok ⟨m, .ofArchive archive⟩ := by
  have hkeys : (m.checksums.map (·.1)).Nodup := by
    rw [hchecksums, List.map_map]
    exact hnames
  rw [ofArchive, readEntry_text_of_mem _ _ hnodup hmanifest]
  simp only [Bind.bind, Except.bind, Manifest.ofText_text hkeys, hfault]
  rw [hchecksums, verify_entries hnodup hlisted]
  rfl

/-- The archive of a draft opens, with the manifest of the draft. -/
theorem ofArchive_archive {d : ModuleDraft} {archive : Archive} (hsealed : d.IsSealed)
    (h : d.archive = .ok archive) :
    archive = (Manifest.entryName, d.manifest.text.toUTF8) :: d.entries ∧
      (archive.map (·.1)).Nodup ∧
      ofArchive (.ofArchive archive) = .ok ⟨d.manifest, .ofArchive archive⟩ := by
  obtain ⟨hfault, rfl, hnodup⟩ := ModuleDraft.archive_eq_ok.mp h
  have hnames : (d.entries.map (·.1)).Nodup := (List.nodup_cons.mp hnodup).2
  exact ⟨rfl, hnodup, ofArchive_of_listed hnodup List.mem_cons_self hfault
    (fun e he => List.mem_cons_of_mem _ he) hnames (hsealed hnames)⟩

theorem load_write {d : ModuleDraft} {files after : Files} {path : String} (hsealed : d.IsSealed)
    (h : d.write files path = (.ok (), after)) :
    ∃ archive, d.archive = .ok archive ∧ load after path = .ok ⟨d.manifest, .ofArchive archive⟩ := by
  rw [ModuleDraft.write] at h
  split at h
  · simp at h
  · next archive harchive =>
    refine ⟨archive, harchive, ?_⟩
    split at h
    · simp at h
    · next hwrite =>
      obtain rfl := (Prod.mk.inj h).2
      rw [load, Files.read_of_writeDeep hwrite]
      exact (ofArchive_archive hsealed harchive).2.2

/-- A module has the type table that is among the entries of its archive. -/
theorem types_of_mem {archive : Archive} {m : Manifest} {table : TypeTable}
    (hnodup : (archive.map (·.1)).Nodup)
    (h : (Manifest.metadataName, table.toJson.pretty.toUTF8) ∈ archive) :
    types ⟨m, .ofArchive archive⟩ = .ok table := by
  rw [types, text, readEntry_text_of_mem _ _ hnodup h]
  simp only [Bind.bind, Except.bind, TypeTable.ofText_pretty]
  rfl

end OpenedModule

end DataClasses

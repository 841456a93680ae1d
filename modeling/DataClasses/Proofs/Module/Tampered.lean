import DataClasses.Proofs.Module.Integrity

/-!
# Modules that were tampered with

Whoever has the archive of a module can put other contents into its entries, or take entries out. As
long as the manifest stays as it was, opening the module tells the first entry in the manifest's order
that is gone or has another checksum, and the module opens if there is none.
-/

set_option autoImplicit false

namespace DataClasses

namespace ModuleDraft

inductive Addition where
  | types (table : TypeTable)
  | source (fileName text : String)
  | raw (path : String) (content : ByteArray)

def addition (d : ModuleDraft) : Addition → ModuleDraft
  | .types table => d.addTypes table
  | .source fileName text => d.addSource fileName text
  | .raw path content => d.add path content

def made (m : Manifest) (additions : List Addition) : ModuleDraft :=
  additions.foldl addition { manifest := m }

variable {m : Manifest} {additions : List Addition}

/-- Whatever adding a single entry keeps is kept by all that is added. -/
theorem made_induction {P : ModuleDraft → Prop} (hstart : P { manifest := m })
    (hadd : ∀ d path content, P d → P (d.add path content)) : P (made m additions) := by
  have hstep (d : ModuleDraft) (a : Addition) (hd : P d) : P (d.addition a) := by
    cases a with
    | types table => exact hadd d _ _ hd
    | source fileName text => exact hadd d _ _ hd
    | raw path content => exact hadd d path content hd
  have hall (additions : List Addition) (d : ModuleDraft) (hd : P d) : P (additions.foldl addition d) := by
    induction additions generalizing d with
    | nil => exact hd
    | cons a additions ih => exact ih (d.addition a) (hstep d a hd)
  exact hall additions _ hstart

theorem made_keys_nodup (h : (m.checksums.map (·.1)).Nodup) :
    ((made m additions).manifest.checksums.map (·.1)).Nodup :=
  made_induction (P := fun d => (d.manifest.checksums.map (·.1)).Nodup) h
    fun _ _ _ hd => Entries.keys_put_nodup hd

theorem made_isSealed (h : m.checksums = []) : (made m additions).IsSealed :=
  made_induction (.start h) fun _ path content hd => hd.add path content

end ModuleDraft

namespace Archive

/-- An archive in which entries other than the manifest have been replaced or removed: `change` gives
what is put in the place of a content, if anything is. -/
def tampered (archive : Archive) (change : String → ByteArray → Option ByteArray) : Archive :=
  archive.filterMap fun e =>
    if e.1 = Manifest.entryName then some e else (change e.1 e.2).map fun content => (e.1, content)

def Holds (archive : Archive) (listed : String × String) : Prop :=
  ∃ content, archive.get? listed.1 = some content ∧ Checksum.ofBytes content = listed.2

variable {archive : Archive} {change : String → ByteArray → Option ByteArray}

theorem tampered_keys_sublist (archive : Archive) (change : String → ByteArray → Option ByteArray) :
    ((archive.tampered change).map (·.1)).Sublist (archive.map (·.1)) := by
  induction archive with
  | nil => exact .slnil
  | cons e archive ih =>
    rw [tampered, List.filterMap_cons]
    by_cases he : e.1 = Manifest.entryName
    · simp only [if_pos he, List.map_cons]
      exact ih.cons_cons e.1
    · simp only [if_neg he]
      cases change e.1 e.2 with
      | none => exact ih.cons e.1
      | some content => exact ih.cons_cons e.1

theorem manifest_mem_tampered {content : ByteArray} (h : (Manifest.entryName, content) ∈ archive) :
    (Manifest.entryName, content) ∈ archive.tampered change :=
  List.mem_filterMap.mpr ⟨_, h, if_pos rfl⟩

end Archive

theorem Checksum.verifies_marked {content : ByteArray} {checksum : String}
    (h : isMarked checksum = true) : verifies content checksum = (ofBytes content == checksum) := by
  rw [verifies, if_pos h]

namespace OpenedModule

variable {archive : Archive} {files : Files} {path : String} {m : Manifest}

/-- Entries that are as they were recorded are passed over. -/
theorem verify_append {before rest : Entries String}
    (hmarked : ∀ e ∈ before, Checksum.isMarked e.2 = true) (h : ∀ e ∈ before, archive.Holds e) :
    verify (.ofArchive archive) (before ++ rest) = verify (.ofArchive archive) rest := by
  induction before with
  | nil => rfl
  | cons e before ih =>
    obtain ⟨⟨content, hget, hsame⟩, hmore⟩ := List.forall_mem_cons.mp h
    obtain ⟨hmark, hmarks⟩ := List.forall_mem_cons.mp hmarked
    have hverifies : Checksum.verifies content e.2 = true := by
      rw [Checksum.verifies_marked hmark, hsame, beq_self_eq_true]
    rw [List.cons_append, verify, contentOf_ofArchive, hget]
    simp only [bind, Except.bind, hverifies, if_true]
    exact ih hmarks hmore

/-- The first entry that is not as it was recorded is the one that matters. -/
theorem verify_split {listed before after : Entries String} {e : String × String}
    (hlisted : listed = before ++ e :: after) (hmarked : ∀ e ∈ listed, Checksum.isMarked e.2 = true)
    (hbefore : ∀ e ∈ before, archive.Holds e) :
    Checksum.isMarked e.2 = true ∧
      verify (.ofArchive archive) listed = verify (.ofArchive archive) (e :: after) := by
  subst hlisted
  exact ⟨hmarked e (by simp),
    verify_append (fun x hx => hmarked x (List.mem_append_left _ hx)) hbefore⟩

theorem verify_missing {rest : Entries String} {listed : String × String}
    (h : archive.get? listed.1 = none) :
    verify (.ofArchive archive) (listed :: rest) = .error (.missingEntry listed.1) := by
  rw [verify, contentOf_ofArchive, h]
  rfl

theorem verify_changed {rest : Entries String} {listed : String × String} {content : ByteArray}
    (hmarked : Checksum.isMarked listed.2 = true) (hget : archive.get? listed.1 = some content)
    (hother : Checksum.ofBytes content ≠ listed.2) :
    verify (.ofArchive archive) (listed :: rest) =
      .error (.checksumMismatch listed.1 listed.2 (Checksum.ofBytes content)) := by
  have hverifies : Checksum.verifies content listed.2 = false := by
    rw [Checksum.verifies_marked hmarked, beq_eq_false_iff_ne]
    exact hother
  rw [verify, contentOf_ofArchive, hget]
  simp only [bind, Except.bind, hverifies, Bool.false_eq_true, if_false]
  rfl

/-- An archive with a manifest as it should be opens just as the entries are verified. -/
theorem load_eq_verify (hkeys : (m.checksums.map (·.1)).Nodup) (hfault : m.fault? = none)
    (hnodup : (archive.map (·.1)).Nodup) (hmanifest : (Manifest.entryName, m.text.toUTF8) ∈ archive)
    (hread : files.read path = .ok (.packed archive)) :
    load files path = (verify (.ofArchive archive) m.checksums).map fun _ => ⟨m, .ofArchive archive⟩ := by
  rw [load, hread]
  simp only [Content.archive?, ofArchive, readEntry_text_of_mem _ _ hnodup hmanifest, bind, Except.bind,
    Manifest.ofText_text hkeys, hfault]
  cases verify (.ofArchive archive) m.checksums <;> rfl

/-- A module whose entries were replaced or removed, the manifest apart, opens if all listed entries
are there with the recorded checksums, and otherwise the first one that is not so is told. -/
theorem load_tampered {additions : List ModuleDraft.Addition}
    {change : String → ByteArray → Option ByteArray} (hkeys : (m.checksums.map (·.1)).Nodup)
    (h : (ModuleDraft.made m additions).archive = .ok archive)
    (hread : files.read path = .ok (.packed (archive.tampered change))) :
    let d := ModuleDraft.made m additions
    let listed := d.manifest.checksums
    let found := archive.tampered change
    (m.checksums = [] → listed = d.entries.map fun e => (e.1, Checksum.ofBytes e.2)) ∧
    ((∀ e ∈ listed, found.Holds e) → load files path = .ok ⟨d.manifest, .ofArchive found⟩) ∧
    ∀ before e after, listed = before ++ e :: after → (∀ e ∈ before, found.Holds e) →
      (found.get? e.1 = none → load files path = .error (.missingEntry e.1)) ∧
      ∀ content, found.get? e.1 = some content → Checksum.ofBytes content ≠ e.2 →
        load files path = .error (.checksumMismatch e.1 e.2 (Checksum.ofBytes content)) := by
  intro d listed found
  obtain ⟨hfault, hentries, hnodup⟩ := ModuleDraft.archive_eq_ok.mp h
  have hmarked := (Manifest.of_fault?_eq_none hfault).2
  have hmanifest : (Manifest.entryName, d.manifest.text.toUTF8) ∈ found :=
    Archive.manifest_mem_tampered (hentries ▸ List.mem_cons_self)
  have hload := load_eq_verify (ModuleDraft.made_keys_nodup hkeys) hfault
    (hnodup.sublist (Archive.tampered_keys_sublist archive change)) hmanifest hread
  refine ⟨fun hnone => ?_, fun hholds => ?_, fun before e after hlisted hbefore => ?_⟩
  · rw [hentries, List.map_cons, List.nodup_cons] at hnodup
    exact ModuleDraft.made_isSealed hnone hnodup.2
  · have hverify : verify (.ofArchive found) (listed ++ []) = .ok () := verify_append hmarked hholds
    rw [List.append_nil] at hverify
    rw [hload, hverify]
    rfl
  · obtain ⟨hmark, hverify⟩ := verify_split hlisted hmarked hbefore
    have hrest : load files path =
        (verify (.ofArchive found) (e :: after)).map fun _ => ⟨d.manifest, .ofArchive found⟩ := by
      rw [hload, ← hverify]
    constructor
    · intro hnone
      rw [hrest, verify_missing hnone]
      rfl
    · intro content hget hother
      rw [hrest, verify_changed hmark hget hother]
      rfl

def boxAdditions : List ModuleDraft.Addition := [.types ⟨[]⟩, .source "Box.cs" boxText]

def emptySource (name : String) (content : ByteArray) : Option ByteArray :=
  some (if name = "source/Box.cs" then "".toUTF8 else content)

theorem made_boxAdditions :
    ModuleDraft.made (boxManifest []) boxAdditions =
      { manifest := boxManifest [boxTypes, boxSource], entries := [boxTypes, boxSource] } := by
  rfl

theorem archive_boxAdditions :
    (ModuleDraft.made (boxManifest []) boxAdditions).archive = .ok (boxArchive [boxTypes, boxSource] []) := by
  rw [made_boxAdditions]
  exact ModuleDraft.archive_eq_ok.mpr ⟨boxManifest_fault? [boxSource], rfl, by decide⟩

theorem emptied_box_told :
    load [("Box.dll", .file (.packed ((boxArchive [boxTypes, boxSource] []).tampered emptySource)))]
        "Box.dll" =
      .error (.checksumMismatch "source/Box.cs" (Checksum.ofBytes boxText.toUTF8)
        (Checksum.ofBytes "".toUTF8)) := by
  have hread := read_box ((boxArchive [boxTypes, boxSource] []).tampered emptySource)
  have hkeys : ((boxManifest []).checksums.map (·.1)).Nodup := by decide
  obtain ⟨-, -, hfirst⟩ := load_tampered hkeys archive_boxAdditions hread
  have htypes : ∀ e ∈ [(boxTypes.1, Checksum.ofBytes boxTypes.2)],
      ((boxArchive [boxTypes, boxSource] []).tampered emptySource).Holds e :=
    List.forall_mem_singleton.mpr ⟨boxTypes.2, rfl, rfl⟩
  exact (hfirst [(boxTypes.1, Checksum.ofBytes boxTypes.2)] (boxSource.1, Checksum.ofBytes boxSource.2) []
    rfl htypes).2 "".toUTF8 rfl (by decide +kernel)

end OpenedModule

end DataClasses

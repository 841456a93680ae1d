import DataClasses.Proofs.Module.Opened

/-!
# What an opened module shows

When a module is opened, the entries that its manifest lists are compared with their checksums. What
is read afterwards need not be among them: the type table is, since a manifest has to list it, but a
source is looked for among all entries of the archive.
-/

set_option autoImplicit false

namespace DataClasses

theorem ok_of_bind {ε α β : Type} {x : Except ε α} {f : α → Except ε β} {b : β}
    (h : x >>= f = .ok b) : ∃ a, x = .ok a ∧ f a = .ok b := by
  cases x with
  | error fault => contradiction
  | ok a => exact ⟨a, rfl, h⟩

namespace PackedEntry

variable {e : PackedEntry} {content : ByteArray} {text : String}

theorem ok_of_verified {α : Type} {checksum : Nat} {value result : α}
    (h : verified content checksum value = .ok result) :
    checksum = (Crc32.ofBytes content).toNat ∧ value = result := by
  rw [verified] at h
  split at h
  · next hsame => exact ⟨(beq_iff_eq.mp hsame).symm, Except.ok.inj h⟩
  · contradiction

theorem unpack_of_bytes (h : e.bytes = .ok content) :
    e.unpack = .ok (content, (Crc32.ofBytes content).toNat) := by
  obtain ⟨⟨unpacked, checksum⟩, hunpack, h⟩ := ok_of_bind h
  obtain ⟨rfl, rfl⟩ := ok_of_verified h
  exact hunpack

/-- An entry whose bytes can be read can be read as text just if they are text. -/
theorem text_of_bytes (h : e.bytes = .ok content) :
    e.text =
      match String.fromUTF8? content with
      | some text => .ok text
      | none => .error (.file .notText) := by
  rw [PackedEntry.text, unpack_of_bytes h]
  cases htext : String.fromUTF8? content with
  | none => simp [bind, Except.bind, htext]
  | some text => simp [bind, Except.bind, htext, verified_self]

theorem toUTF8_of_fromUTF8? (h : String.fromUTF8? content = some text) : text.toUTF8 = content := by
  rw [String.fromUTF8?] at h
  split at h
  · cases h
    rfl
  · contradiction

theorem bytes_of_text (h : e.text = .ok text) : e.bytes = .ok text.toUTF8 := by
  obtain ⟨⟨content, checksum⟩, hunpack, h⟩ := ok_of_bind h
  simp only at h
  split at h
  · next found hfound =>
    obtain ⟨rfl, rfl⟩ := ok_of_verified h
    rw [bytes, hunpack, toUTF8_of_fromUTF8? hfound]
    exact verified_self content content
  · contradiction

end PackedEntry

theorem Checksum.eq_ofBytes {content : ByteArray} {checksum : String} (hmarked : isMarked checksum = true)
    (h : verifies content checksum = true) : checksum = ofBytes content := by
  rw [verifies, if_pos hmarked] at h
  exact (beq_iff_eq.mp h).symm

/-- A manifest as it should be lists the type table, and its checksums are marked. -/
theorem Manifest.of_fault?_eq_none {m : Manifest} (h : m.fault? = none) :
    m.checksums.has metadataName = true ∧ ∀ e ∈ m.checksums, Checksum.isMarked e.2 = true := by
  simp only [fault?, ite_eq_iff, reduceCtorEq, and_false, false_or,
    Option.map_eq_none_iff, List.find?_eq_none] at h
  obtain ⟨-, -, -, -, hlisted, hmarked⟩ := h
  exact ⟨by simpa using hlisted, fun e he => by simpa using hmarked e he⟩

namespace OpenedModule

variable {files : Files} {archive : PackedArchive} {m : OpenedModule} {path entry text : String}
  {content : ByteArray}

def Records (m : OpenedModule) (entry : String) (content : ByteArray) : Prop :=
  m.manifest.checksums.get? entry = some (Checksum.ofBytes content)

theorem ok_of_verify {checksums : Entries String} (h : verify archive checksums = .ok ()) :
    ∀ e ∈ checksums, ∃ content, contentOf archive e.1 = .ok content ∧
      Checksum.verifies content e.2 = true := by
  induction checksums with
  | nil => simp
  | cons first rest ih =>
    obtain ⟨content, hcontent, h⟩ := ok_of_bind h
    split at h
    · next hverifies => exact List.forall_mem_cons.mpr ⟨⟨content, hcontent, hverifies⟩, ih h⟩
    · contradiction

theorem ok_of_ofArchive (h : ofArchive archive = .ok m) :
    m.manifest.fault? = none ∧ verify m.archive m.manifest.checksums = .ok () := by
  obtain ⟨text, -, h⟩ := ok_of_bind h
  obtain ⟨manifest, -, h⟩ := ok_of_bind h
  split at h
  · contradiction
  · next hfault =>
    obtain ⟨⟨⟩, hverify, h⟩ := ok_of_bind h
    cases h
    exact ⟨hfault, hverify⟩

theorem ok_of_load (h : load files path = .ok m) :
    m.manifest.fault? = none ∧ verify m.archive m.manifest.checksums = .ok () := by
  rw [load] at h
  split at h
  · contradiction
  · contradiction
  · split at h
    · contradiction
    · exact ok_of_ofArchive h

/-- What an opened module lists can be read, and has the checksum that is recorded of it. -/
theorem records_of_listed (h : load files path = .ok m)
    (hlisted : m.manifest.checksums.has entry = true) :
    ∃ content, m.bytes entry = .ok content ∧ m.Records entry content := by
  obtain ⟨hfault, hverify⟩ := ok_of_load h
  have hsome : m.manifest.checksums.get? entry ≠ none := fun hnone =>
    Entries.get?_eq_none_iff.mp hnone (Entries.has_iff.mp hlisted)
  obtain ⟨checksum, hget⟩ := Option.ne_none_iff_exists'.mp hsome
  have hmem := Entries.mem_of_get? hget
  obtain ⟨content, hcontent, hverifies⟩ := ok_of_verify hverify _ hmem
  have hmarked := (Manifest.of_fault?_eq_none hfault).2 _ hmem
  exact ⟨content, hcontent, hget.trans (congrArg some (Checksum.eq_ofBytes hmarked hverifies))⟩

theorem ok_of_readEntry {α : Type} {missing : ModuleFault} {value : α}
    {read : PackedEntry → Except PackedEntry.Fault α}
    (h : readEntry archive entry missing read = .ok value) :
    ∃ e, archive.get? entry = some e ∧ read e = .ok value := by
  rw [readEntry] at h
  split at h
  · contradiction
  · next e hget =>
    cases hread : read e with
    | error fault => simp [hread, Except.mapError] at h
    | ok found =>
      rw [hread] at h
      cases h
      exact ⟨e, hget, hread⟩

theorem bytes_of_text (h : m.text entry = .ok text) : m.bytes entry = .ok text.toUTF8 := by
  obtain ⟨e, hget, hread⟩ := ok_of_readEntry h
  rw [bytes, contentOf, readEntry, hget]
  simp only [PackedEntry.bytes_of_text hread]
  rfl

theorem text_of_bytes (h : m.bytes entry = .ok content) :
    m.text entry =
      match String.fromUTF8? content with
      | some text => .ok text
      | none => .error (.file .notText) := by
  obtain ⟨e, hget, hread⟩ := ok_of_readEntry h
  rw [OpenedModule.text, readEntry, hget]
  simp only [PackedEntry.text_of_bytes hread]
  split <;> rfl

def typesOf (content : ByteArray) : Except ModuleFault TypeTable :=
  match String.fromUTF8? content with
  | some text => (TypeTable.ofText text).mapError .json
  | none => .error (.file .notText)

theorem types_of_bytes (h : m.bytes Manifest.metadataName = .ok content) : m.types = typesOf content := by
  rw [types, text_of_bytes h, typesOf]
  cases String.fromUTF8? content with
  | none => rfl
  | some text =>
    simp only [bind, Except.bind]
    cases TypeTable.ofText text <;> rfl

theorem text_of_source? (h : m.source? = .ok (some text)) :
    ∃ entry, m.firstSource? = some entry ∧ m.text entry = .ok text := by
  rw [source?] at h
  split at h
  · simp at h
  · next entry hentry =>
    refine ⟨entry, hentry, ?_⟩
    cases htext : m.text entry with
    | error fault => simp [htext, Except.map] at h
    | ok found => simpa [htext, Except.map] using h

/-- The type table that an opened module shows is made of bytes that its manifest records. A source
that it shows is recorded just if the manifest lists the entry from which it is read. -/
theorem load_records (h : load files path = .ok m) :
    (∃ content, m.bytes Manifest.metadataName = .ok content ∧
      m.Records Manifest.metadataName content ∧ m.types = typesOf content) ∧
    ∀ text, m.source? = .ok (some text) →
      ∃ entry, m.firstSource? = some entry ∧ m.text entry = .ok text ∧
        (m.Records entry text.toUTF8 ↔ m.manifest.checksums.has entry = true) := by
  constructor
  · have hlisted := (Manifest.of_fault?_eq_none (ok_of_load h).1).1
    obtain ⟨content, hcontent, hrecords⟩ := records_of_listed h hlisted
    exact ⟨content, hcontent, hrecords, types_of_bytes hcontent⟩
  · intro text hsource
    obtain ⟨entry, hentry, htext⟩ := text_of_source? hsource
    refine ⟨entry, hentry, htext, fun hrecords => ?_, fun hlisted => ?_⟩
    · exact Entries.has_iff.mpr (List.mem_map_of_mem (f := (·.1)) (Entries.mem_of_get? hrecords))
    · obtain ⟨content, hcontent, hrecords⟩ := records_of_listed h hlisted
      have hsame : content = text.toUTF8 := Except.ok.inj (hcontent.symm.trans (bytes_of_text htext))
      exact hsame ▸ hrecords

def boxTypes : String × ByteArray := (Manifest.metadataName, (⟨[]⟩ : TypeTable).toJson.pretty.toUTF8)

def boxText : String := "class Box { }"

def boxSource : String × ByteArray := ("source/Box.cs", boxText.toUTF8)

def boxManifest (listed : List (String × ByteArray)) : Manifest :=
  { Manifest.start "Box" Manifest.moduleVersion .netStandard21 .systemText (.choose false false) with
    checksums := listed.map fun e => (e.1, Checksum.ofBytes e.2) }

def boxArchive (listed others : List (String × ByteArray)) : Archive :=
  (Manifest.entryName, (boxManifest listed).text.toUTF8) :: (listed ++ others)

def boxFiles (listed others : List (String × ByteArray)) : Files :=
  [("Box.dll", .file (.packed (boxArchive listed others)))]

theorem boxManifest_fault? (more : List (String × ByteArray)) :
    (boxManifest (boxTypes :: more)).fault? = none := by
  have hmarked : (boxManifest (boxTypes :: more)).checksums.find? (fun e => !Checksum.isMarked e.2) =
      none := by
    simp [boxManifest, List.find?_eq_none, Checksum.isMarked_ofBytes]
  have hlisted : (boxManifest (boxTypes :: more)).checksums.has Manifest.metadataName = true :=
    Entries.has_iff.mpr List.mem_cons_self
  have hversion : (boxManifest (boxTypes :: more)).formatVersion = Manifest.currentFormat ∧
      (boxManifest (boxTypes :: more)).name = "Box" ∧
      (boxManifest (boxTypes :: more)).version = Manifest.moduleVersion := ⟨rfl, rfl, rfl⟩
  rw [Manifest.fault?, hversion.1, hversion.2.1, hversion.2.2, hmarked, hlisted]
  rfl

theorem read_box (archive : Archive) :
    Files.read [("Box.dll", .file (.packed archive))] "Box.dll" = .ok (.packed archive) := by
  have hpath : Path.ofText "Box.dll" = ⟨["Box.dll"], .name⟩ := by decide +kernel
  simp [Files.read, hpath, Files.find, Entries.get?, Path.asFolder]

theorem boxFiles_opens (more others : List (String × ByteArray))
    (h : (Manifest.entryName :: (boxTypes :: more ++ others).map (·.1)).Nodup) :
    load (boxFiles (boxTypes :: more) others) "Box.dll" =
      .ok ⟨boxManifest (boxTypes :: more), .ofArchive (boxArchive (boxTypes :: more) others)⟩ := by
  have hnames : ((boxTypes :: more).map (·.1)).Nodup := by
    rw [List.map_append, List.nodup_cons, List.nodup_append] at h
    exact h.2.1
  rw [load, boxFiles, read_box]
  exact ofArchive_of_listed h List.mem_cons_self (boxManifest_fault? more)
    (fun e he => List.mem_cons_of_mem _ (List.mem_append_left _ he)) hnames rfl

/-- The source is shown whether it is listed or not. -/
theorem boxSource_shown (more others : List (String × ByteArray)) (h : more ++ others = [boxSource])
    (m : Manifest) :
    let opened : OpenedModule := ⟨m, .ofArchive (boxArchive (boxTypes :: more) others)⟩
    opened.firstSource? = some "source/Box.cs" ∧ opened.source? = .ok (some boxText) := by
  have harchive : boxArchive (boxTypes :: more) others =
      [(Manifest.entryName, (boxManifest (boxTypes :: more)).text.toUTF8), boxTypes, boxSource] := by
    rw [boxArchive, List.cons_append, h]
  have hnames : (boxArchive (boxTypes :: more) others).map (·.1) =
      [Manifest.entryName, Manifest.metadataName, "source/Box.cs"] := by
    rw [harchive]
    rfl
  intro opened
  have hentry : opened.firstSource? = some "source/Box.cs" := by
    rw [firstSource?, PackedArchive.names_ofArchive, hnames]
    decide
  have hmem : ("source/Box.cs", boxText.toUTF8) ∈ boxArchive (boxTypes :: more) others := by
    rw [harchive]
    exact List.mem_cons_of_mem _ (List.mem_cons_of_mem _ List.mem_cons_self)
  have htext : opened.text "source/Box.cs" = .ok boxText :=
    readEntry_text_of_mem boxText _ (by rw [hnames]; decide) hmem
  refine ⟨hentry, ?_⟩
  rw [source?, hentry]
  simp [htext, Except.map]

theorem listed_boxSource_recorded :
    ∃ m, load (boxFiles [boxTypes, boxSource] []) "Box.dll" = .ok m ∧
      (∃ content, m.Records Manifest.metadataName content ∧ m.types = typesOf content) ∧
      m.source? = .ok (some boxText) ∧ m.Records "source/Box.cs" boxText.toUTF8 := by
  have hopens := boxFiles_opens [boxSource] [] (by decide)
  obtain ⟨hfirst, hsource⟩ := boxSource_shown [boxSource] [] rfl (boxManifest [boxTypes, boxSource])
  obtain ⟨⟨content, -, hrecords, htypes⟩, hshown⟩ := load_records hopens
  obtain ⟨entry, hentry, -, hiff⟩ := hshown boxText hsource
  obtain rfl := Option.some.inj (hentry.symm.trans hfirst)
  exact ⟨_, hopens, ⟨content, hrecords, htypes⟩, hsource,
    hiff.mpr (Entries.has_iff.mpr (List.mem_cons_of_mem _ List.mem_cons_self))⟩

/-- Not everything that is shown is recorded: here a source is shown that the manifest does not list. -/
theorem unlisted_boxSource_shown :
    ∃ m, load (boxFiles [boxTypes] [boxSource]) "Box.dll" = .ok m ∧
      m.firstSource? = some "source/Box.cs" ∧ m.source? = .ok (some boxText) ∧
      m.manifest.checksums.has "source/Box.cs" = false := by
  have hshown := boxSource_shown [] [boxSource] rfl (boxManifest [boxTypes])
  exact ⟨_, boxFiles_opens [] [boxSource] (by decide), hshown.1, hshown.2, by decide⟩

end OpenedModule

end DataClasses

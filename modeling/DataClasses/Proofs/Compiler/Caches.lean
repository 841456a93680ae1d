import DataClasses.Proofs.Compiler.Agreement
import DataClasses.Proofs.Reference.Registered

/-!
# What is kept makes no difference

A compiler keeps what it has read and chosen. As long as the files that describe libraries stay as they
are, a call comes to the same as with a new compiler, whatever was called before.
-/

set_option autoImplicit false

namespace DataClasses

variable {α β : Type}

namespace ReferenceSource

def loadAll (files : Files) (sources : List ReferenceSource) : Except Failure (List Assembly) :=
  sources.mapM (load files)

theorem loadAll_cons (files : Files) (source : ReferenceSource) (rest : List ReferenceSource) :
    loadAll files (source :: rest) = (do
      let a ← source.load files
      let others ← loadAll files rest
      pure (a :: others)) :=
  List.mapM_cons

theorem loadAll_congr {files now : Files} {sources : List ReferenceSource}
    (h : ∀ source ∈ sources, source.load now = source.load files) :
    loadAll now sources = loadAll files sources := by
  induction sources with
  | nil => rfl
  | cons source rest ih =>
    obtain ⟨hsource, hrest⟩ := List.forall_mem_cons.mp h
    rw [loadAll_cons, loadAll_cons, hsource, ih hrest]

end ReferenceSource

namespace Catalog

def SameIn (c : Catalog) (files now : Files) : Prop :=
  ∀ source, c.Offers source → source.load now = source.load files

theorem SameIn.symm {c : Catalog} {files now : Files} (h : c.SameIn files now) : c.SameIn now files :=
  fun source hsource => (h source hsource).symm

theorem Unambiguous.of_sameIn {c : Catalog} {files now : Files} (h : c.Unambiguous files)
    (hsame : c.SameIn files now) : c.Unambiguous now := by
  intro source other hsource hother hpath
  rw [hsame source hsource, hsame other hother]
  exact h source other hsource hother hpath

def consulted (c : Catalog) (s : Settings) : List ReferenceSource :=
  c.baseSources ++ c.runtimeSources s.runtime ++ (c.lookup? s.library.assemblyName).toList ++
    c.registeredSources

theorem offers_of_lookups {c : Catalog} {names : List String} {source : ReferenceSource}
    (h : source ∈ names.filterMap c.lookup?) : c.Offers source := by
  obtain ⟨name, -, hname⟩ := List.mem_filterMap.mp h
  exact .inl ⟨name, hname⟩

end Catalog

structure Cache.Faithful (c : Compiler) (files : Files) (cache : Cache) : Prop where
  assemblies : ∀ source, c.catalog.Offers source → ∀ a, cache.assemblies.get? source.path = some a →
    source.load files = .ok a
  options : Build.Chosen c.warningsAsErrors cache
  platforms : ∀ kept ∈ cache.platforms,
    ReferenceSource.loadAll files (c.catalog.runtimeSources kept.1) = .ok kept.2

namespace Cache.Faithful

variable {c : Compiler} {files now : Files} {cache : Cache}

theorem empty (c : Compiler) (files : Files) : Faithful c files {} where
  assemblies := by simp [Entries.get?]
  options := by simp [Build.Chosen]
  platforms := by simp

/-- A cache stays faithful where the libraries are described in the same way. -/
theorem of_sameIn (h : Faithful c files cache) (hsame : c.catalog.SameIn files now) :
    Faithful c now cache where
  assemblies source hsource a hget := (hsame source hsource).trans (h.assemblies source hsource a hget)
  options := h.options
  platforms kept hkept := by
    rw [← h.platforms kept hkept]
    exact ReferenceSource.loadAll_congr fun source hsource => hsame source (.inr ⟨kept.1, hsource⟩)

theorem put (h : Faithful c files cache) (hc : c.catalog.Unambiguous files) {source : ReferenceSource}
    (hsource : c.catalog.Offers source) {a : Assembly} (hload : source.load files = .ok a) :
    Faithful c files { cache with assemblies := cache.assemblies.put source.path a } where
  assemblies other hother b hget := by
    rw [Entries.get?_put] at hget
    split at hget
    · next hpath =>
      rw [← Option.some.inj hget, ← hload]
      exact hc other source hother hsource hpath.symm
    · exact h.assemblies other hother b hget
  options := h.options
  platforms := h.platforms

end Cache.Faithful

namespace Build

variable {c : Compiler} {files : Files}

def Settles (c : Compiler) (files : Files) (m : Build α) (r : Except Failure α) : Prop :=
  Keeps (Cache.Faithful c files) files m (· = r)

namespace Settles

theorem pure (a : α) : Settles c files (Pure.pure a) (.ok a) := Keeps.pure rfl

theorem fail (failure : Failure) : Settles c files (Build.fail failure : Build α) (.error failure) :=
  Keeps.fail rfl

theorem bind {m : Build α} {r : Except Failure α} {f : α → Build β} {g : α → Except Failure β}
    (h : Settles c files m r) (hf : ∀ a, Settles c files (f a) (g a)) :
    Settles c files (m >>= f) (r >>= g) := by
  refine Keeps.bind h ?_ ?_
  · rintro a rfl
    exact hf a
  · rintro failure rfl
    rfl

/-- A build of parts that settle settles, whatever it comes to. -/
theorem exists_bind {m : Build α} {f : α → Build β} (h : ∃ r, Settles c files m r)
    (hf : ∀ a, ∃ r, Settles c files (f a) r) : ∃ r, Settles c files (m >>= f) r := by
  obtain ⟨r, hr⟩ := h
  choose g hg using hf
  exact ⟨r >>= g, hr.bind hg⟩

theorem assembly (hc : c.catalog.Unambiguous files) {source : ReferenceSource}
    (hsource : c.catalog.Offers source) : Settles c files (Build.assembly source) (source.load files) := by
  refine Keeps.get.bind ?_ (by simp)
  rintro cache ⟨_, hcache, ⟨⟩⟩
  split
  · next a hget => exact .pure (hcache.assemblies source hsource a hget).symm
  · refine Keeps.read.bind ?_ (by simp)
    rintro _ ⟨⟩
    split
    · next failure hload => exact .fail hload.symm
    · next a hload =>
      intro cache hcache
      exact ⟨hload.symm, hcache.put hc hsource hload⟩

theorem assemblies (hc : c.catalog.Unambiguous files) {sources : List ReferenceSource}
    (h : ∀ source ∈ sources, c.catalog.Offers source) :
    Settles c files (Build.assemblies sources) (ReferenceSource.loadAll files sources) := by
  induction sources with
  | nil => exact .pure []
  | cons source rest ih =>
    obtain ⟨hsource, hrest⟩ := List.forall_mem_cons.mp h
    rw [ReferenceSource.loadAll_cons]
    exact (assembly hc hsource).bind fun a => (ih hrest).bind fun others => .pure _

theorem platform (hc : c.catalog.Unambiguous files) (r : Runtime) :
    Settles c files (Build.platform r (Build.assemblies (c.catalog.runtimeSources r)))
      (ReferenceSource.loadAll files (c.catalog.runtimeSources r)) := by
  refine Keeps.get.bind ?_ (by simp)
  rintro cache ⟨_, hcache, ⟨⟩⟩
  split
  · next found hfound =>
    obtain ⟨_, _, hsplit, -⟩ := List.lookup_eq_some_iff.mp hfound
    exact .pure (hcache.platforms (r, found) (by simp [hsplit])).symm
  · refine Keeps.bind (assemblies hc fun source hsource => .inr ⟨r, hsource⟩) ?_ fun _ h => h
    intro found hfound cache hcache
    exact ⟨hfound,
      { hcache with platforms := List.forall_mem_cons.mpr ⟨hfound.symm, hcache.platforms⟩ }⟩

theorem options (optimize : Bool) :
    Settles c files (Build.options optimize c.warningsAsErrors)
      (.ok (.choose optimize c.warningsAsErrors)) := by
  refine Keeps.get.bind ?_ (by simp)
  rintro cache ⟨_, hcache, ⟨⟩⟩
  split
  · next o hlookup =>
    obtain ⟨_, _, hsplit, -⟩ := List.lookup_eq_some_iff.mp hlookup
    exact .pure (congrArg Except.ok (hcache.options (optimize, o) (by simp [hsplit])))
  · intro cache hcache
    exact ⟨rfl, { hcache with options := List.forall_mem_cons.mpr ⟨rfl, hcache.options⟩ }⟩

end Settles

end Build

namespace Compiler

open Build (Settles)

section

variable {c : Compiler} {files : Files}

def libraries (c : Compiler) (files : Files) (s : Settings) : Except Failure (List Assembly) := do
  let all ← ReferenceSource.loadAll files (c.catalog.consulted s)
  pure (Assembly.distinctVersions all)

theorem libraries_eq (c : Compiler) (files : Files) (s : Settings) : c.libraries files s = (do
    let base ← ReferenceSource.loadAll files c.catalog.baseSources
    let platform ← ReferenceSource.loadAll files (c.catalog.runtimeSources s.runtime)
    let json ← ReferenceSource.loadAll files (c.catalog.lookup? s.library.assemblyName).toList
    let registered ← ReferenceSource.loadAll files c.catalog.registeredSources
    pure (Assembly.distinctVersions (base ++ platform ++ json ++ registered))) := by
  simp only [libraries, Catalog.consulted, ReferenceSource.loadAll, List.mapM_append, bind_assoc,
    pure_bind]

theorem references_settles (hc : c.catalog.Unambiguous files) (s : Settings) :
    Settles c files (c.references s) (c.libraries files s) := by
  rw [libraries_eq]
  exact (Settles.assemblies hc fun _ => Catalog.offers_of_lookups).bind fun base =>
    (Settles.platform hc s.runtime).bind fun platform =>
    (Settles.assemblies hc fun _ h => .inl ⟨_, Option.mem_toList.mp h⟩).bind fun json =>
    (Settles.assemblies hc fun _ => Catalog.offers_of_lookups).bind fun registered => .pure _

/-- A new compiler finds the libraries that the files describe. -/
theorem references_new (hc : c.catalog.Unambiguous files) (s : Settings) :
    ((do let _ ← c.optionsFor s; c.references s : Build (List Assembly)).run files {}).1 =
      c.libraries files s :=
  ((Settles.options s.optimize).bind (fun _ => references_settles hc s) {} (.empty c files)).1

theorem examine_settles (hc : c.catalog.Unambiguous files) (source : String) (s : Settings) :
    ∃ r, Settles c files (c.examine source s) r :=
  ⟨_, (Settles.options s.optimize).bind fun _ =>
    (((references_settles hc s).bind fun _ => .pure _).bind fun _ => .pure _)⟩

theorem validate_settles (hc : c.catalog.Unambiguous files) (source : String) (s : Settings) :
    ∃ r, Settles c files (c.validate source s) r := by
  cases hblank : Text.allBlank source with
  | true =>
    rw [validate, hblank]
    exact ⟨_, .fail _⟩
  | false =>
    rw [validate_eq hblank]
    exact Settles.exists_bind (examine_settles hc source s) fun _ => ⟨_, .pure _⟩

theorem settle_settles (source : String) (s : Settings) (x : BuildOptions × Analysis) :
    ∃ r, Settles c files (settle source s x) r := by
  unfold settle
  split
  · exact ⟨_, .pure _⟩
  · exact ⟨_, .fail _⟩

theorem prepare_settles (hc : c.catalog.Unambiguous files) (source path : String) (s : Settings) :
    ∃ r, Settles c files (c.prepare source path s) r := by
  cases hblank : Text.allBlank source with
  | true =>
    rw [prepare, hblank]
    exact ⟨_, .fail _⟩
  | false =>
    cases hpath : path.isEmpty with
    | true =>
      rw [prepare, hblank, hpath]
      exact ⟨_, .fail _⟩
    | false =>
      cases hplatform : c.hasPlatform files s.runtime with
      | false =>
        refine ⟨.error (missingPlatform s.runtime), ?_⟩
        rw [prepare, hblank, hpath]
        refine Build.Keeps.bind Build.Keeps.read ?_ (by simp)
        rintro _ ⟨⟩
        rw [hplatform]
        exact Settles.fail (missingPlatform s.runtime)
      | true =>
        obtain ⟨r, hr⟩ := Settles.exists_bind (examine_settles hc source s) (settle_settles source s)
        refine ⟨r, fun cache hcache => ?_⟩
        rw [prepare_run hblank hpath hplatform]
        exact hr cache hcache

end

inductive Call where
  | validate (source : String) (s : Settings)
  | compile (source path : String) (s : Settings)

structure Answer where
  result : Except Failure (List Diagnostic)
  files : Files

def Call.run (c : Compiler) (w : Workspace) : Call → Answer × Cache
  | .validate source s =>
    let run := (c.validate source s).run w.files w.cache
    (⟨run.1, w.files⟩, run.2)
  | .compile source path s =>
    let run := c.compile source path s w
    (⟨run.1.map fun _ => [], run.2.files⟩, run.2.cache)

def answers (c : Compiler) : Cache → List (Files × Call) → List Answer
  | _, [] => []
  | cache, (files, call) :: rest =>
    let run := call.run c ⟨files, cache⟩
    run.1 :: c.answers run.2 rest

section

variable {c : Compiler} {files : Files} {cache : Cache}

/-- What is prepared settles what is returned and how the files are left. -/
theorem compile_congr {source path : String} {s : Settings} {other : Cache}
    (h : ((c.prepare source path s).run files cache).1 = ((c.prepare source path s).run files other).1) :
    (c.compile source path s ⟨files, cache⟩).1 = (c.compile source path s ⟨files, other⟩).1 ∧
      (c.compile source path s ⟨files, cache⟩).2.files =
        (c.compile source path s ⟨files, other⟩).2.files := by
  simp only [compile]
  rcases hrun : (c.prepare source path s).run files cache with ⟨result, after⟩
  rcases hother : (c.prepare source path s).run files other with ⟨otherResult, otherAfter⟩
  rw [hrun, hother] at h
  obtain rfl : result = otherResult := h
  cases result with
  | error failure => exact ⟨rfl, rfl⟩
  | ok d =>
    simp only
    split <;> exact ⟨rfl, rfl⟩

/-- With a faithful cache a call is answered as with an empty one, and the cache stays faithful. -/
theorem run_faithful (hc : c.catalog.Unambiguous files) (h : cache.Faithful c files) (call : Call) :
    (call.run c ⟨files, cache⟩).1 = (call.run c ⟨files, {}⟩).1 ∧
      (call.run c ⟨files, cache⟩).2.Faithful c files := by
  cases call with
  | validate source s =>
    obtain ⟨r, hr⟩ := validate_settles hc source s
    obtain ⟨hresult, hafter⟩ := hr cache h
    have hfresh := (hr {} (.empty c files)).1
    exact ⟨by simp only [Call.run, hresult, hfresh], hafter⟩
  | compile source path s =>
    obtain ⟨r, hr⟩ := prepare_settles hc source path s
    obtain ⟨hresult, hafter⟩ := hr cache h
    have hfresh := (hr {} (.empty c files)).1
    obtain ⟨hreturned, hfiles⟩ := compile_congr (hresult.trans hfresh.symm)
    refine ⟨by simp only [Call.run, hreturned, hfiles], ?_⟩
    simp only [Call.run, compile_cache]
    exact hafter

/-- What a compiler keeps is not seen in its answers. -/
theorem answers_eq (c : Compiler) (files : Files) (calls : List (Files × Call))
    (hc : c.catalog.Unambiguous files) (hsame : ∀ x ∈ calls, c.catalog.SameIn files x.1) :
    c.answers {} calls = calls.map fun x => (x.2.run c ⟨x.1, {}⟩).1 := by
  suffices h : ∀ cache : Cache, cache.Faithful c files →
      c.answers cache calls = calls.map fun x => (x.2.run c ⟨x.1, {}⟩).1 from h {} (.empty c files)
  induction calls with
  | nil => exact fun _ _ => rfl
  | cons first rest ih =>
    intro cache hcache
    obtain ⟨hfirst, hrest⟩ := List.forall_mem_cons.mp hsame
    have hnow := hc.of_sameIn hfirst
    obtain ⟨hanswer, hafter⟩ := run_faithful hnow (hcache.of_sameIn hfirst) first.2
    rw [List.map_cons, answers, hanswer, ih hrest _ (hafter.of_sameIn hfirst.symm)]

end

theorem acme_sameIn {files : Files}
    (h : files.get? "Acme.toml" = some (.file (.ofText Catalog.acmeText))) :
    (Catalog.after Catalog.acmeHistory).SameIn Catalog.acmeFiles files := by
  intro source hsource
  rcases Catalog.after_offers (Catalog.acme_unchanged h) hsource with ⟨b, -, rfl⟩ | ⟨_, _, hmem, rfl⟩
  · rfl
  · obtain ⟨-, rfl⟩ := Catalog.of_mem_acmeHistory hmem
    rw [Catalog.load_acme h, Catalog.load_acme rfl]

/-- Calls for several platforms, some of which fail, with a file that is there only later. -/
theorem acme_answers :
    let c : Compiler := { catalog := .after Catalog.acmeHistory }
    let later : Files := Catalog.acmeFiles ++ [("out", .folder [])]
    let calls : List (Files × Call) :=
      [(Catalog.acmeFiles, .validate "class A : Acme.Money \x7b \x7d" {}),
        (Catalog.acmeFiles, .compile "class A \x7b \x7d" "A.dll" { runtime := .netFramework48 }),
        (later, .compile "\x7d" "out/A.dll" { runtime := .net80 }),
        (later, .compile "class A : Acme.Money \x7b \x7d" "out/A.dll" { optimize := false })]
    c.catalog.Unambiguous Catalog.acmeFiles ∧ (∀ x ∈ calls, c.catalog.SameIn Catalog.acmeFiles x.1) ∧
      c.answers {} calls = calls.map fun x => (x.2.run c ⟨x.1, {}⟩).1 := by
  intro c later calls
  have hc : c.catalog.Unambiguous Catalog.acmeFiles :=
    Catalog.unambiguous_of_apart (Catalog.acme_unchanged rfl) Catalog.acme_apart
  have hsame : ∀ x ∈ calls, c.catalog.SameIn Catalog.acmeFiles x.1 := by
    intro x hx
    simp only [calls, List.mem_cons, List.not_mem_nil, or_false] at hx
    rcases hx with rfl | rfl | rfl | rfl <;> exact acme_sameIn rfl
  exact ⟨hc, hsame, c.answers_eq Catalog.acmeFiles calls hc hsame⟩

end Compiler

end DataClasses

import DataClasses.Compiler.Basic
import DataClasses.Proofs.Binding.Reported
import DataClasses.Proofs.Compiler.Builds
import DataClasses.Proofs.Reference.Exports

/-!
# Compiling and validating agree

Both look at a source in the same way. A new compiler refers to the libraries that come with the
program, and a source passes it just if nothing that is reported makes a compilation fail. A
compilation is refused for what a validation finds, and where it does not come to the writing of its
module no file has been touched.
-/

set_option autoImplicit false

namespace DataClasses

namespace Compiler

open Assembly (standard)

def fresh (source : String) (s : Settings) : Build Analysis := do
  let compiler : Compiler := {}
  let o ← compiler.optionsFor s
  compiler.analyze source s o

theorem references_fresh (files : Files) (options : List (Bool × BuildOptions)) (s : Settings) :
    ((({} : Compiler).references s).run files ⟨[], options, []⟩).1 =
      .ok (standard s.runtime s.library) := by
  obtain ⟨r, l, _, _, _, _, _, _, _, _⟩ := s
  cases r <;> cases l <;> rfl

def analysisOf (source : String) (s : Settings) : Analysis :=
  let bound := (SourceUnit.ofSource source).1.bind (standard s.runtime s.library)
  ⟨byLine ((SourceUnit.ofSource source).2 ++ bound.diagnostics), bound.table,
    standard s.runtime s.library⟩

theorem run_last {α β : Type} (m : Build α) (f : α → β) (files : Files) (cache : Cache) :
    ((do let a ← m; pure (f a) : Build β).run files cache).1 = (m.run files cache).1.map f := by
  rw [Build.run_bind]
  cases m.run files cache with
  | mk result after => cases result <;> rfl

theorem fresh_apply (source : String) (s : Settings) (files : Files) :
    ((fresh source s).run files {}).1 = .ok (analysisOf source s) := by
  have hanalyze : (fresh source s).run files {} =
      (do
        let references ← ({} : Compiler).references s
        let bound := (SourceUnit.ofSource source).1.bind references
        pure ⟨byLine ((SourceUnit.ofSource source).2 ++ bound.diagnostics), bound.table, references⟩ :
        Build Analysis).run files ⟨[], [(s.optimize, .choose s.optimize false)], []⟩ := rfl
  rw [hanalyze, run_last, references_fresh]
  rfl

/-- A source passes if nothing that is reported is a failure. -/
theorem validate_fresh {source : String} (h : Text.allBlank source = false) (s : Settings)
    (files : Files) :
    ((({} : Compiler).validate source s).run files {}).1 = .ok (analysisOf source s).failures := by
  have hvalidate : ({} : Compiler).validate source s = (do
      let analysis ← fresh source s
      pure analysis.failures) := by
    simp only [validate, h, Bool.false_eq_true, if_false, examine, fresh, bind_assoc, pure_bind]
  rw [hvalidate, run_last, fresh_apply]
  rfl

theorem failures_eq_nil_iff {source : String} {s : Settings} :
    (analysisOf source s).failures = [] ↔
      (∀ d ∈ (SourceUnit.ofSource source).2, d.isFailure = false) ∧
        ∀ d ∈ (Binding.bindUnit
          ((Binding.Symbols.ofAssemblies (standard s.runtime s.library)).append
            (Binding.Symbols.ofUnit (SourceUnit.ofSource source).1))
          (SourceUnit.ofSource source).1).reports, d.isFailure = false := by
  have hperm (ds : List Diagnostic) (d : Diagnostic) : d ∈ byLine ds ↔ d ∈ ds :=
    (List.mergeSort_perm ds _).mem_iff
  rw [Analysis.failures, List.filter_eq_nil_iff]
  simp only [analysisOf, hperm, List.forall_mem_append, SourceUnit.bind, SourceUnit.symbols,
    Binding.mem_distinct, Bool.not_eq_true]

end Compiler

/-- What goes wrong with a module is not told as what is wrong with its source. -/
theorem ModuleFault.toFailure_ne_compilation (fault : ModuleFault) (ds : List Diagnostic)
    (report : String) : fault.toFailure ≠ .compilation ds report := by
  cases fault <;> simp [toFailure]

/-- Where a module is not written, the files are left alone unless they are at fault. -/
theorem ModuleDraft.files_of_write {d : ModuleDraft} {files after : Files} {path : String}
    {fault : ModuleFault} (h : d.write files path = (.error fault, after)) :
    after = files ∨ ∃ found, fault = .file found := by
  rw [write] at h
  split at h
  · exact .inl (Prod.mk.inj h).2.symm
  · split at h
    · next found _ _ =>
      exact .inr ⟨found, (Except.error.inj (Prod.mk.inj h).1).symm⟩
    · simp at h

namespace Compiler

section

variable {c : Compiler} {source path : String} {s : Settings} {w : Workspace} {files : Files}
  {cache : Cache}

theorem validate_eq (h : Text.allBlank source = false) :
    c.validate source s = (do
      let x ← c.examine source s
      pure x.2.failures) := by
  simp only [validate, h, Bool.false_eq_true, if_false]

theorem prepare_run (hblank : Text.allBlank source = false) (hpath : path.isEmpty = false)
    (hplatform : c.hasPlatform files s.runtime = true) :
    (c.prepare source path s).run files cache =
      (c.examine source s >>= settle source s).run files cache := by
  simp only [prepare, hblank, hpath, Bool.false_eq_true, if_false]
  rw [Build.run_bind]
  simp only [show (MonadReader.read : Build Files).run files cache = (.ok files, cache) from rfl,
    hplatform, Bool.not_true, Bool.false_eq_true, if_false]

/-- Where the libraries can be read, a source is looked at to the end. -/
theorem examine_ok (source : String) {references : List Assembly}
    (h : ((do let _ ← c.optionsFor s; c.references s : Build (List Assembly)).run files cache).1 =
      .ok references) :
    ∃ o a after, (c.examine source s).run files cache = (.ok (o, a), after) := by
  obtain ⟨after, hrun⟩ : ∃ after,
      (do let _ ← c.optionsFor s; c.references s : Build (List Assembly)).run files cache =
        (.ok references, after) := ⟨_, Prod.ext h rfl⟩
  obtain ⟨o, middle, hoptions, hreferences⟩ := Build.ok_bind hrun
  have hanalyze : ∃ a, (c.analyze source s o).run files middle = (.ok a, after) := by
    simp only [analyze]
    rw [Build.run_bind, hreferences]
    exact ⟨_, rfl⟩
  obtain ⟨a, ha⟩ := hanalyze
  refine ⟨o, a, after, ?_⟩
  rw [examine, Build.run_bind, hoptions]
  simp only
  rw [Build.run_bind, ha]
  rfl

theorem validate_of_examine (hblank : Text.allBlank source = false) {o : BuildOptions} {a : Analysis}
    {after : Cache} (h : (c.examine source s).run files cache = (.ok (o, a), after)) :
    (c.validate source s).run files cache = (.ok a.failures, after) := by
  rw [validate_eq hblank, Build.run_bind, h]
  rfl

end

/-- Where a source is looked at to the end, a compilation is refused for its failures just if it has
some, and whatever comes of the module is told in another way. -/
theorem compile_of_examine {c : Compiler} {source path : String} {s : Settings} {w : Workspace}
    {o : BuildOptions} {a : Analysis} {after : Cache} (hblank : Text.allBlank source = false)
    (hpath : path.isEmpty = false) (hplatform : c.hasPlatform w.files s.runtime = true)
    (h : (c.examine source s).run w.files w.cache = (.ok (o, a), after)) (found : List Diagnostic)
    (report : String) :
    (c.compile source path s w).1 = .error (.compilation found report) ↔
      a.failures ≠ [] ∧ found = a.failures ∧ report = reportText a.failures s.runtime := by
  have hprepare : (c.prepare source path s).run w.files w.cache =
      (settle source s (o, a)).run w.files after := by
    rw [prepare_run hblank hpath hplatform, Build.run_bind, h]
  rw [compile, hprepare, settle]
  by_cases hnone : a.failures = []
  · simp only [hnone, List.isEmpty_nil, if_true, ne_eq, not_true_eq_false, false_and, iff_false]
    rw [show (pure (draft source s o a) : Build ModuleDraft).run w.files after =
      (.ok (draft source s o a), after) from rfl]
    simp only
    split
    · next fault _ _ => simpa using fault.toFailure_ne_compilation found report
    · simp
  · simp only [List.isEmpty_iff, hnone, if_false, ne_eq, not_false_eq_true, true_and]
    constructor
    · rintro ⟨⟩
      exact ⟨rfl, rfl⟩
    · rintro ⟨rfl, rfl⟩
      rfl

/-- A compilation that does not come to the writing of its module leaves the files alone. -/
theorem compile_files {c : Compiler} {source path : String} {s : Settings} {w : Workspace}
    {failure : Failure} (h : (c.compile source path s w).1 = .error failure)
    (hfile : ∀ fault, failure ≠ .file fault) : (c.compile source path s w).2.files = w.files := by
  rw [compile] at h ⊢
  split
  · rfl
  · next d cache hprepare =>
    rw [hprepare] at h
    simp only at h
    cases hwrite : d.write w.files path with
    | mk result files =>
      rw [hwrite] at h
      cases result with
      | ok _ => simp at h
      | error fault =>
        rcases ModuleDraft.files_of_write hwrite with rfl | ⟨found, rfl⟩
        · rfl
        · exact absurd (Except.error.inj h).symm (hfile found)

/-- A compilation is refused for failures just if a validation with the same cache finds some, and it
tells all that this finds. Files are touched only where it succeeds or where they are at fault. -/
theorem compile_agrees (c : Compiler) (source path : String) (s : Settings) (w : Workspace) :
    (∀ references, Text.allBlank source = false → path.isEmpty = false →
      c.hasPlatform w.files s.runtime = true →
      ((do let _ ← c.optionsFor s; c.references s : Build (List Assembly)).run w.files w.cache).1 =
        .ok references →
      ∃ ds, ((c.validate source s).run w.files w.cache).1 = .ok ds ∧
        ∀ found report, (c.compile source path s w).1 = .error (.compilation found report) ↔
          ds ≠ [] ∧ found = ds ∧ report = reportText ds s.runtime) ∧
    ∀ failure, (c.compile source path s w).1 = .error failure → (∀ fault, failure ≠ .file fault) →
      (c.compile source path s w).2.files = w.files := by
  refine ⟨fun references hblank hpath hplatform hreferences => ?_, fun failure => compile_files⟩
  obtain ⟨o, a, after, hexamine⟩ := examine_ok source hreferences
  refine ⟨a.failures, ?_, compile_of_examine hblank hpath hplatform hexamine⟩
  rw [validate_of_examine hblank hexamine]

/-- A brace that closes nothing. -/
theorem stray_brace_refused :
    ∃ ds, ds ≠ [] ∧ ((({} : Compiler).validate "\x7d" {}).run [] {}).1 = .ok ds ∧
      (({} : Compiler).compile "\x7d" "out/Stray.dll" {} {}).1 =
        .error (.compilation ds (reportText ds .netStandard21)) ∧
      (({} : Compiler).compile "\x7d" "out/Stray.dll" {} {}).2.files = [] := by
  obtain ⟨hagrees, hfiles⟩ := compile_agrees {} "\x7d" "out/Stray.dll" {} {}
  have hreferences : ((do
      let _ ← ({} : Compiler).optionsFor {}
      ({} : Compiler).references {} : Build (List Assembly)).run [] {}).1 =
      .ok (Assembly.standard .netStandard21 .systemText) :=
    references_fresh [] [(true, .choose true false)] {}
  obtain ⟨ds, hvalidate, hcompile⟩ := hagrees _ (by decide) (by decide) rfl hreferences
  have hds : ds ≠ [] := by
    rw [validate_fresh (by decide)] at hvalidate
    rw [← Except.ok.inj hvalidate, ne_eq, failures_eq_nil_iff]
    intro hpass
    have h := hpass.1
    revert h
    decide +kernel
  have hrefused := (hcompile ds _).mpr ⟨hds, rfl, rfl⟩
  exact ⟨ds, hds, hvalidate, hrefused, hfiles _ hrefused (by simp)⟩

end Compiler

end DataClasses

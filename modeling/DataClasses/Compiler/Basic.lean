import DataClasses.Binding.Unit
import DataClasses.Compiler.Cache
import DataClasses.Declaration.Unit
import DataClasses.Module.Draft
import DataClasses.Report

/-!
# Compilers

From source to module. A source is read and bound to the libraries that it may refer to; if
nothing in this makes it fail, its types become a module. A compilation that fails touches
no files, unless it is the writing that fails.
-/

set_option autoImplicit false

namespace DataClasses

structure Compiler where
  catalog : Catalog := .builtIn
  systemPath : String := "C:\\Windows\\Microsoft.NET\\Framework\\v4.0.30319"
  warningsAsErrors : Bool := false

structure Analysis where
  diagnostics : List Diagnostic
  table : TypeTable
  references : List Assembly

namespace Analysis

def failures (a : Analysis) : List Diagnostic := a.diagnostics.filter (·.isFailure)

end Analysis

structure Workspace where
  files : Files := []
  cache : Cache := {}

namespace Compiler

/-- The libraries a source may refer to: those of every compilation, those of the platform,
the JSON library if the catalog has it, and those that were registered. -/
def references (c : Compiler) (s : Settings) : Build (List Assembly) := do
  let base ← Build.assemblies c.catalog.baseSources
  let platform ← Build.platform s.runtime (Build.assemblies (c.catalog.runtimeSources s.runtime))
  let json ← Build.assemblies (c.catalog.lookup? s.library.assemblyName).toList
  let registered ← Build.assemblies c.catalog.registeredSources
  pure (Assembly.distinctVersions (base ++ platform ++ json ++ registered))

def promote (d : Diagnostic) : Diagnostic :=
  if d.severity == .warning then { d with warningAsError := true } else d

def byLine (ds : List Diagnostic) : List Diagnostic := ds.mergeSort fun a b => a.line ≤ b.line

def analyze (c : Compiler) (source : String) (s : Settings) (o : BuildOptions) : Build Analysis := do
  let (u, syntaxReports) := SourceUnit.ofSource source
  let references ← c.references s
  let bound := u.bind references
  let reports := syntaxReports ++ bound.diagnostics
  pure ⟨byLine (if o.warningsAsErrors then reports.map promote else reports), bound.table,
    references⟩

def optionsFor (c : Compiler) (s : Settings) : Build BuildOptions :=
  Build.options s.optimize c.warningsAsErrors

def examine (c : Compiler) (source : String) (s : Settings) : Build (BuildOptions × Analysis) := do
  let o ← c.optionsFor s
  let analysis ← c.analyze source s o
  pure (o, analysis)

def emptySource : Failure := .invalidInput "source code is empty"
def emptyPath : Failure := .invalidInput "output path is empty"

def validate (c : Compiler) (source : String) (s : Settings) : Build (List Diagnostic) := do
  if Text.allBlank source then Build.fail emptySource
  else
    let x ← c.examine source s
    pure x.2.failures

def missingPlatform (r : Runtime) : Failure :=
  .environment (r.displayName ++ " is not installed on this machine. Please install it from " ++
    Report.downloadPage)

def hasPlatform (c : Compiler) (files : Files) (r : Runtime) : Bool :=
  !r.needsInstallation || files.exists? c.systemPath

def referenceEntry (a : Assembly) : ReferenceEntry := ⟨a.name, a.version, a.source⟩

def draft (source : String) (s : Settings) (o : BuildOptions) (a : Analysis) : ModuleDraft :=
  let manifest : Manifest :=
    { Manifest.start s.container Manifest.moduleVersion s.runtime s.library o with
      references := a.references.map referenceEntry }
  let d := ModuleDraft.addTypes { manifest } a.table
  if o.embedsSource then d.addSource (s.rootClass ++ ".cs") source else d

def settle (source : String) (s : Settings) (x : BuildOptions × Analysis) : Build ModuleDraft :=
  if x.2.failures.isEmpty then pure (draft source s x.1 x.2)
  else Build.fail (.compilation x.2.failures (reportText x.2.failures s.runtime))

def prepare (c : Compiler) (source path : String) (s : Settings) : Build ModuleDraft := do
  if Text.allBlank source then Build.fail emptySource
  else if path.isEmpty then Build.fail emptyPath
  else if !c.hasPlatform (← read) s.runtime then Build.fail (missingPlatform s.runtime)
  else c.examine source s >>= settle source s

def compile (c : Compiler) (source path : String) (s : Settings) (w : Workspace) :
    Except Failure Unit × Workspace :=
  match (c.prepare source path s).run w.files w.cache with
  | (.error failure, cache) => (.error failure, { w with cache })
  | (.ok d, cache) =>
    match d.write w.files path with
    | (.error fault, files) => (.error fault.toFailure, ⟨files, cache⟩)
    | (.ok (), files) => (.ok (), ⟨files, cache⟩)

end Compiler
end DataClasses

import DataClasses.Compiler.Basic

/-!
# Builds on what a compiler keeps

A compiler may have been used before: its cache is what its earlier calls left. The options it has
kept are those it would choose now, since what it chooses them by does not change.
-/

set_option autoImplicit false

namespace DataClasses

variable {α β : Type}

namespace Build

variable {files : Files} {cache after : Cache}

theorem run_bind (m : Build α) (f : α → Build β) (files : Files) (cache : Cache) :
    (m >>= f).run files cache =
      match m.run files cache with
      | (.ok a, cache) => (f a).run files cache
      | (.error failure, cache) => (.error failure, cache) := by
  rcases hm : m files cache with ⟨result, after⟩
  have hrun : m.run files cache = (result, after) := hm
  rw [hrun]
  cases result with
  | error failure =>
    simp [ReaderT.run, bind, ReaderT.bind, ExceptT.bind, ExceptT.mk, StateT.bind, ExceptT.bindCont, hm]
    rfl
  | ok a =>
    simp [ReaderT.run, bind, ReaderT.bind, ExceptT.bind, ExceptT.mk, StateT.bind, ExceptT.bindCont, hm]

/-- A build of two parts succeeds just if both do, one after the other. -/
theorem ok_bind {m : Build α} {f : α → Build β} {b : β}
    (h : (m >>= f).run files cache = (.ok b, after)) :
    ∃ a middle, m.run files cache = (.ok a, middle) ∧ (f a).run files middle = (.ok b, after) := by
  rw [run_bind] at h
  split at h
  · next a middle hm => exact ⟨a, middle, hm, h⟩
  · cases h

theorem ok_pure {a b : α} (h : (pure a : Build α).run files cache = (.ok b, after)) :
    a = b ∧ cache = after := by
  cases h
  exact ⟨rfl, rfl⟩

def Keeps (P : Cache → Prop) (files : Files) (m : Build α) (Q : Except Failure α → Prop) : Prop :=
  ∀ cache, P cache → Q (m.run files cache).1 ∧ P (m.run files cache).2

namespace Keeps

variable {P : Cache → Prop} {Q : Except Failure α → Prop} {R : Except Failure β → Prop}

theorem pure {a : α} (h : Q (.ok a)) : Keeps P files (Pure.pure a) Q := fun _ hcache => ⟨h, hcache⟩

theorem fail {failure : Failure} (h : Q (.error failure)) : Keeps P files (Build.fail failure) Q :=
  fun _ hcache => ⟨h, hcache⟩

theorem bind {m : Build α} {f : α → Build β} (h : Keeps P files m Q)
    (hf : ∀ a, Q (.ok a) → Keeps P files (f a) R)
    (hfail : ∀ failure, Q (.error failure) → R (.error failure)) :
    Keeps P files (m >>= f) R := by
  intro cache hcache
  obtain ⟨hresult, hafter⟩ := h cache hcache
  rw [run_bind]
  split
  · next a middle hm =>
    rw [hm] at hresult hafter
    exact hf a hresult middle hafter
  · next failure middle hm =>
    rw [hm] at hresult hafter
    exact ⟨hfail failure hresult, hafter⟩

theorem get : Keeps P files (MonadState.get : Build Cache) (fun r => ∃ cache, P cache ∧ r = .ok cache) :=
  fun cache hcache => ⟨⟨cache, hcache, rfl⟩, hcache⟩

theorem read : Keeps P files (MonadReader.read : Build Files) (· = .ok files) :=
  fun _ hcache => ⟨rfl, hcache⟩

end Keeps

def Chosen (warningsAsErrors : Bool) (cache : Cache) : Prop :=
  ∀ kept ∈ cache.options, kept.2 = BuildOptions.choose kept.1 warningsAsErrors

/-- Whatever the build comes to, the options in its cache are still those that are chosen. -/
def KeepsOptions (warningsAsErrors : Bool) (m : Build α) : Prop :=
  ∀ files, Keeps (Chosen warningsAsErrors) files m fun _ => True

namespace KeepsOptions

variable {w : Bool}

theorem bind {m : Build α} {f : α → Build β} (h : KeepsOptions w m) (hf : ∀ a, KeepsOptions w (f a)) :
    KeepsOptions w (m >>= f) :=
  fun files => (h files).bind (fun a _ => hf a files) fun _ _ => trivial

theorem of_chosen {m : Build α} (h : ∀ files cache, Chosen w cache → Chosen w (m.run files cache).2) :
    KeepsOptions w m := fun files cache hcache => ⟨trivial, h files cache hcache⟩

theorem pure (a : α) : KeepsOptions w (Pure.pure a) := fun _ => .pure trivial

theorem fail (failure : Failure) : KeepsOptions w (Build.fail failure : Build α) := fun _ => .fail trivial

theorem get : KeepsOptions w (MonadState.get : Build Cache) := of_chosen fun _ _ h => h

theorem read : KeepsOptions w (MonadReader.read : Build Files) := of_chosen fun _ _ h => h

theorem assembly (source : ReferenceSource) : KeepsOptions w (Build.assembly source) := by
  refine get.bind fun cache => ?_
  split
  · exact .pure _
  · refine read.bind fun files => ?_
    split
    · exact .fail _
    · exact bind (of_chosen fun _ _ h => h) fun _ => .pure _

theorem assemblies (sources : List ReferenceSource) : KeepsOptions w (Build.assemblies sources) := by
  induction sources with
  | nil => exact .pure []
  | cons source rest ih => exact (assembly source).bind fun a => ih.bind fun others => .pure _

theorem platform (r : Runtime) {resolve : Build (List Assembly)} (h : KeepsOptions w resolve) :
    KeepsOptions w (Build.platform r resolve) := by
  refine get.bind fun cache => ?_
  split
  · exact .pure _
  · exact h.bind fun found => bind (of_chosen fun _ _ h => h) fun _ => .pure found

theorem options (optimize : Bool) : KeepsOptions w (Build.options optimize w) := by
  refine get.bind fun cache => ?_
  split
  · exact .pure _
  · exact bind (of_chosen fun _ _ h => List.forall_mem_cons.mpr ⟨rfl, h⟩) fun _ => .pure _

end KeepsOptions

end Build

namespace Compiler

/-- The caches that a compiler can come to have by its calls, whatever is done to the files. -/
inductive Leaves (c : Compiler) : Cache → Prop where
  | new : Leaves c {}
  | validate {cache : Cache} (h : Leaves c cache) (source : String) (s : Settings) (files : Files) :
      Leaves c ((c.validate source s).run files cache).2
  | compile {w : Workspace} (h : Leaves c w.cache) (source path : String) (s : Settings) :
      Leaves c (c.compile source path s w).2.cache

section

variable (c : Compiler) (source path : String) (s : Settings)

theorem references_keepsOptions {w : Bool} : Build.KeepsOptions w (c.references s) := by
  refine (Build.KeepsOptions.assemblies _).bind fun base => ?_
  refine (Build.KeepsOptions.platform _ (.assemblies _)).bind fun platform => ?_
  exact (Build.KeepsOptions.assemblies _).bind fun json => (Build.KeepsOptions.assemblies _).bind
    fun registered => .pure _

theorem analyze_keepsOptions {w : Bool} (o : BuildOptions) :
    Build.KeepsOptions w (c.analyze source s o) :=
  (c.references_keepsOptions s).bind fun _ => .pure _

theorem examine_keepsOptions : Build.KeepsOptions c.warningsAsErrors (c.examine source s) :=
  (Build.KeepsOptions.options s.optimize).bind fun o =>
    (c.analyze_keepsOptions source s o).bind fun _ => .pure _

theorem validate_keepsOptions : Build.KeepsOptions c.warningsAsErrors (c.validate source s) := by
  unfold validate
  split
  · exact .fail _
  · exact (c.examine_keepsOptions source s).bind fun _ => .pure _

theorem prepare_keepsOptions : Build.KeepsOptions c.warningsAsErrors (c.prepare source path s) := by
  unfold prepare
  split
  · exact .fail _
  · split
    · exact .fail _
    · refine Build.KeepsOptions.read.bind fun files => ?_
      split
      · exact .fail _
      · refine (c.examine_keepsOptions source s).bind fun x => ?_
        unfold settle
        split
        · exact .pure _
        · exact .fail _

end

theorem compile_cache (c : Compiler) (source path : String) (s : Settings) (w : Workspace) :
    (c.compile source path s w).2.cache = ((c.prepare source path s).run w.files w.cache).2 := by
  unfold compile
  split
  · next h => rw [h]
  · next h =>
    rw [h]
    split <;> rfl

/-- The options a compiler has kept are those it would choose again. -/
theorem Leaves.options {c : Compiler} {cache : Cache} (h : c.Leaves cache) :
    ∀ kept ∈ cache.options, kept.2 = BuildOptions.choose kept.1 c.warningsAsErrors := by
  induction h with
  | new => simp
  | validate _ source s files ih => exact (c.validate_keepsOptions source s files _ ih).2
  | @compile w _ source path s ih =>
    rw [compile_cache]
    exact (c.prepare_keepsOptions source path s w.files w.cache ih).2

section

variable {c : Compiler} {source path : String} {s : Settings} {files : Files} {cache after : Cache}

theorem optionsFor_run (s : Settings) (files : Files) (h : c.Leaves cache) :
    ∃ after, (c.optionsFor s).run files cache =
      (.ok (BuildOptions.choose s.optimize c.warningsAsErrors), after) := by
  unfold optionsFor Build.options
  rw [Build.run_bind]
  simp only [show (MonadState.get : Build Cache).run files cache = (.ok cache, cache) from rfl]
  split
  · next o hlookup =>
    have hkept : (s.optimize, o) ∈ cache.options := by
      obtain ⟨_, _, hsplit, -⟩ := List.lookup_eq_some_iff.mp hlookup
      simp [hsplit]
    have ho : o = _ := h.options _ hkept
    rw [ho]
    exact ⟨cache, rfl⟩
  · exact ⟨_, rfl⟩

theorem analyze_ok {o : BuildOptions} {a : Analysis}
    (h : (c.analyze source s o).run files cache = (.ok a, after)) :
    (c.references s).run files cache = (.ok a.references, after) ∧
      a.table = ((SourceUnit.ofSource source).1.bind a.references).table := by
  obtain ⟨references, last, hreferences, hpure⟩ := Build.ok_bind h
  obtain ⟨rfl, rfl⟩ := Build.ok_pure hpure
  exact ⟨hreferences, rfl⟩

theorem examine_inv {o : BuildOptions} {a : Analysis}
    (h : (c.examine source s).run files cache = (.ok (o, a), after)) :
    ∃ middle, (c.optionsFor s).run files cache = (.ok o, middle) ∧
      (c.analyze source s o).run files middle = (.ok a, after) := by
  obtain ⟨_, middle, hoptions, h⟩ := Build.ok_bind h
  obtain ⟨_, _, hanalyze, hpure⟩ := Build.ok_bind h
  obtain ⟨hpair, rfl⟩ := Build.ok_pure hpure
  cases hpair
  exact ⟨middle, hoptions, hanalyze⟩

/-- What is prepared for writing is made of the options, the libraries and the bound source. -/
theorem prepare_ok {d : ModuleDraft} (hcache : c.Leaves cache)
    (h : (c.prepare source path s).run files cache = (.ok d, after)) :
    ∃ (middle : Cache) (a : Analysis),
      (c.optionsFor s).run files cache =
        (.ok (BuildOptions.choose s.optimize c.warningsAsErrors), middle) ∧
      (c.references s).run files middle = (.ok a.references, after) ∧
      a.table = ((SourceUnit.ofSource source).1.bind a.references).table ∧
      d = draft source s (.choose s.optimize c.warningsAsErrors) a := by
  unfold prepare at h
  split at h
  · cases h
  · split at h
    · cases h
    · obtain ⟨_, _, hread, h⟩ := Build.ok_bind h
      cases hread
      split at h
      · cases h
      · obtain ⟨⟨o, a⟩, last, hexamine, h⟩ := Build.ok_bind h
        obtain ⟨middle, hoptions, hanalyze⟩ := examine_inv hexamine
        obtain ⟨_, hchosen⟩ := optionsFor_run s files hcache
        obtain rfl : o = _ := Except.ok.inj (congrArg Prod.fst (hoptions.symm.trans hchosen))
        obtain ⟨hreferences, htable⟩ := analyze_ok hanalyze
        unfold settle at h
        split at h
        · obtain ⟨rfl, rfl⟩ := Build.ok_pure h
          exact ⟨middle, a, hoptions, hreferences, htable, rfl⟩
        · cases h

end

end Compiler

end DataClasses

import DataClasses.Proofs.Binding.Reported
import DataClasses.Proofs.Binding.Symbols

/-!
# Classes of one name

Nothing is reported of the declarations of types just if no two types outside of others have the
same full name.
-/

set_option autoImplicit false

namespace DataClasses.Binding

open Identifier (IsName)
open ClassTree

def Declared.identity (d : Declared) : String × Nat := (d.fullName, d.arity)

theorem identity_eq_iff {d e : Declared} :
    (d.fullName == e.fullName && d.arity == e.arity) = true ↔ d.identity = e.identity := by
  simp [Declared.identity]

theorem repeatedTypes_severity (before ds : List Declared) :
    ∀ d ∈ repeatedTypes before ds, d.severity = .error := by
  intro report hreport
  obtain ⟨d, -, rfl⟩ := repeatedTypes_mem report hreport
  rfl

theorem firstLike_congr {d e : Declared} (h : d.identity = e.identity) (before : List Declared) :
    firstLike before d = firstLike before e := by
  simp only [Declared.identity, Prod.mk.injEq] at h
  simp only [firstLike, h.1, h.2]

theorem firstLike_concat (before : List Declared) (d e : Declared) :
    firstLike (before ++ [d]) e =
      (firstLike before e).or (if d.identity = e.identity then some d else none) := by
  rw [firstLike, List.find?_append, ← firstLike]
  simp only [List.find?_singleton, identity_eq_iff]

def Declared.Joins (d e : Declared) : Prop :=
  d.identity = e.identity → d.isOutermost = true → e.isOutermost = true →
    d.isPartial = true ∧ e.isPartial = true

theorem repeatedTypes_silent {ds before : List Declared} (h : repeatedTypes before ds = []) :
    (∀ d ∈ ds, d.isOutermost = true → ∀ first, firstLike before d = some first →
      first.isPartial = true ∧ d.isPartial = true) ∧ ds.Pairwise Declared.Joins := by
  induction ds generalizing before with
  | nil => exact ⟨nofun, List.Pairwise.nil⟩
  | cons d ds ih =>
    rw [repeatedTypes] at h
    cases hlike : firstLike before d with
    | none =>
      rw [hlike] at h
      obtain ⟨hbefore, hds⟩ := ih h
      refine ⟨?_, List.pairwise_cons.mpr ⟨?_, hds⟩⟩
      · intro e he houter first hfirst
        rcases List.mem_cons.mp he with rfl | he
        · rw [hlike] at hfirst
          cases hfirst
        · exact hbefore e he houter first (by rw [firstLike_concat, hfirst, Option.some_or])
      · intro e he heq _ houter
        -- Nothing before is like the two, so the later one is compared with the earlier.
        apply hbefore e he houter d
        rw [firstLike_concat, if_pos heq, ← firstLike_congr heq, hlike, Option.none_or]
    | some like =>
      rw [hlike] at h
      obtain ⟨hreport, hrest⟩ := List.append_eq_nil_iff.mp h
      obtain ⟨hbefore, hds⟩ := ih hrest
      have hboth : d.isOutermost = true → like.isPartial = true ∧ d.isPartial = true := by
        intro houter
        by_contra hno
        simp only [houter, Bool.true_and, Bool.not_eq_true', Bool.and_eq_false_iff] at hreport
        rw [not_and_or, Bool.not_eq_true, Bool.not_eq_true] at hno
        simp [hno] at hreport
      refine ⟨?_, List.pairwise_cons.mpr ⟨?_, hds⟩⟩
      · intro e he houter first hfirst
        rcases List.mem_cons.mp he with rfl | he
        · cases hlike.symm.trans hfirst
          exact hboth houter
        · exact hbefore e he houter first hfirst
      · intro e he heq houter houter'
        have hlater := hbefore e he houter' like (by rw [← firstLike_congr heq, hlike])
        exact ⟨(hboth houter).2, hlater.2⟩

/-- If nothing is reported and no type outside of others is partial, no two of them have one
identity. -/
theorem distinct_of_repeatedTypes {before ds : List Declared}
    (hwhole : ∀ d ∈ ds, d.isOutermost = true → d.isPartial = false) (h : repeatedTypes before ds = []) :
    ((ds.filter (·.isOutermost)).map Declared.identity).Nodup := by
  rw [List.nodup_iff_pairwise_ne, List.pairwise_map, List.pairwise_filter]
  refine (repeatedTypes_silent h).2.imp_of_mem fun {d e} hd _ hjoins houter houter' heq => ?_
  have hpartial := (hjoins heq houter houter').1
  rw [hwhole d hd houter] at hpartial
  cases hpartial

theorem repeatedTypes_of_distinct {before ds : List Declared}
    (h : ((before ++ ds).map Declared.identity).Nodup) : repeatedTypes before ds = [] := by
  induction ds generalizing before with
  | nil => rfl
  | cons d ds ih =>
    have hnone : firstLike before d = none := by
      rw [firstLike, List.find?_eq_none]
      intro e he heq
      rw [List.map_append, List.nodup_append] at h
      exact h.2.2 _ (List.mem_map_of_mem he) _ (by simp) (identity_eq_iff.mp heq)
    rw [repeatedTypes, hnone]
    exact ih (by simpa using h)

section

variable {tree : ClassTree} {settings : Settings}

theorem identities_nodup (container : String) {cs : List ClassShape} (h : ∀ c ∈ cs, IsName c.name) :
    (cs.map fun c => (joinNames container c.name, 0)).Nodup ↔ (cs.map (·.name)).Nodup := by
  induction cs with
  | nil => simp
  | cons c cs ih =>
    have hrest := ih fun d hd => h d (by simp [hd])
    rw [List.map_cons, List.map_cons, List.nodup_cons, List.nodup_cons, hrest]
    refine and_congr_left' (not_congr ?_)
    constructor
    · intro hmem
      obtain ⟨d, hd, heq⟩ := List.mem_map.mp hmem
      rw [Prod.mk.injEq] at heq
      exact (joinNames_inj (h d (by simp [hd])) (h c (by simp)) heq.1).2 ▸ List.mem_map_of_mem hd
    · intro hmem
      obtain ⟨d, hd, heq⟩ := List.mem_map.mp hmem
      exact List.mem_map.mpr ⟨d, hd, by rw [heq]⟩

theorem outermost_classes (settings : Settings) (n : Nat) {cs : List ClassShape}
    (h : ∀ c ∈ cs, IsName c.name) :
    ((declaredTypes settings.container (declaredClasses settings n cs)).filter
        (·.isOutermost)).map Declared.identity =
      cs.map (fun c => (joinNames settings.container c.name, 0)) ∧
    ∀ d ∈ declaredTypes settings.container (declaredClasses settings n cs),
      d.isOutermost = true → d.isPartial = false := by
  induction cs generalizing n with
  | nil => simp [declaredClasses, declaredTypes]
  | cons c cs ih =>
    have hinner := declaredMembers_inner (joinNames settings.container c.name)
      (classMembers settings (classLineFrom settings n + 2) c)
    obtain ⟨hmap, hwhole⟩ := ih (n + (classLines settings c).length) fun d hd => h d (by simp [hd])
    rw [declaredClasses, declaredTypes_class settings n (h c (by simp))]
    constructor
    · have hnone : (declaredMembers (joinNames settings.container c.name)
          (classMembers settings (classLineFrom settings n + 2) c)).filter (·.isOutermost) = [] := by
        rw [List.filter_eq_nil_iff]
        intro d hd
        simp [hinner d hd]
      have houter : (outerOf settings n c).isOutermost = true := rfl
      rw [List.cons_append, List.filter_cons, if_pos houter, List.filter_append, hnone, List.nil_append,
        List.map_cons, hmap]
      rfl
    · intro d hd houter
      rcases List.mem_append.mp hd with hd | hd
      · rcases List.mem_cons.mp hd with rfl | hd
        · rfl
        · simp [hinner d hd] at houter
      · exact hwhole d hd houter

def repeats (tree : ClassTree) (settings : Settings) : List Diagnostic :=
  repeatedTypes [] (declaredTypes "" (declaredSource tree settings).members)

theorem declaredTypes_source :
    declaredTypes "" (declaredSource tree settings).members =
      declaredTypes settings.container (declaredClasses settings (scopeLine settings + 2) tree.classes) := by
  simp only [declaredSource, declaredTypes, scopeName_container, List.append_nil]

theorem nodup_of_repeats (hnames : ∀ c ∈ tree.classes, IsName c.name) (h : repeats tree settings = []) :
    (tree.classes.map (·.name)).Nodup := by
  rw [repeats, declaredTypes_source] at h
  obtain ⟨hmap, hwhole⟩ := outermost_classes settings (scopeLine settings + 2) hnames
  have hnodup := distinct_of_repeatedTypes hwhole h
  rw [hmap] at hnodup
  exact (identities_nodup settings.container hnames).mp hnodup

/-- Where no class has a type inside, it is enough that the names of the classes differ. -/
theorem repeats_verdict (settings : Settings) (hnames : ∀ c ∈ tree.classes, IsName c.name)
    (hplain : ∀ c ∈ tree.classes, ∀ p ∈ c.properties, IsPlain settings p) :
    Verdict (repeats tree settings) (tree.classes.map (·.name)).Nodup := by
  refine ⟨⟨nodup_of_repeats hnames, fun h => ?_⟩, repeatedTypes_severity _ _⟩
  have htypes := declaredTypes_isPlain settings (scopeLine settings + 2) hnames hplain
  rw [repeats, declaredTypes_source]
  refine repeatedTypes_of_distinct ?_
  rw [List.nil_append]
  rw [← identities_nodup settings.container hnames, ← htypes] at h
  exact h

end

end DataClasses.Binding

import DataClasses.Binding.Written
import DataClasses.Proofs.Entries
import Mathlib.Data.Option.Basic

/-!
# What names can mean

What a name at a place can mean, and what comes of a dotted name part by part. Only a known type is
meant by a name with type arguments, and looking up a name fails with an error.
-/

set_option autoImplicit false

namespace DataClasses.Binding

def Meaning.name : Meaning → String
  | .scope name => name
  | .type name => name
  | .typeParameter name => name
  | .native name => name

variable {symbols : Symbols} {place : Place} {name : String} {arity : Nat} {m : Meaning} {p : Problem}

theorem zero_of_and {b : Bool} (h : (arity == 0 && b) = true) : arity = 0 :=
  beq_iff_eq.mp (Bool.and_eq_true_iff.mp h).1

inductive Gives (symbols : Symbols) (scope : Scope) (name : String) : Nat → Meaning → Prop where
  | type {arity : Nat} (h : symbols.hasType (joinNames scope.name name) arity = true) :
      Gives symbols scope name arity (.type (joinNames scope.name name))
  | inner : Gives symbols scope name 0 (.scope (joinNames scope.name name))
  | shortName {m : Meaning} (h : (name, m) ∈ scope.aliases) : Gives symbols scope name 0 m
  | imported {arity : Nat} {outer : String} (houter : outer ∈ scope.imported)
      (h : symbols.hasType (joinNames outer name) arity = true) :
      Gives symbols scope name arity (.type (joinNames outer name))

inductive Means (symbols : Symbols) (place : Place) (name : String) : Nat → Meaning → Prop where
  | typeParameter : Means symbols place name 0 (.typeParameter name)
  | enclosed {arity : Nat} {outer : String} (houter : outer ∈ place.enclosing)
      (h : symbols.hasType (joinNames outer name) arity = true) :
      Means symbols place name arity (.type (joinNames outer name))
  | given {arity : Nat} {m : Meaning} {scope : Scope} (hscope : scope ∈ place.scopes)
      (h : Gives symbols scope name arity m) : Means symbols place name arity m
  | native : Means symbols place name 0 (.native name)

theorem gives_of_inScope {scope : Scope} (h : inScope symbols name arity scope = some (.ok m)) :
    Gives symbols scope name arity m := by
  simp only [inScope] at h
  split at h
  · next htype =>
    cases h
    exact .type htype
  · split at h
    · next hnamespace =>
      cases h
      cases zero_of_and hnamespace
      exact .inner
    · split at h
      · next meaning halias =>
        cases h
        split at halias
        · next harity =>
          cases beq_iff_eq.mp harity
          exact .shortName (Entries.mem_of_get? halias)
        · cases halias
      · split at h
        · cases h
        · next only honly =>
          cases h
          have hmem : only ∈ importedTypes symbols scope name arity := honly ▸ List.mem_cons_self
          obtain ⟨hjoined, htype⟩ := List.mem_filter.mp hmem
          obtain ⟨outer, houter, rfl⟩ := List.mem_map.mp hjoined
          exact .imported houter htype
        · cases h

theorem means_of_lookupSimple (h : lookupSimple symbols place name arity = .ok m) :
    Means symbols place name arity m := by
  rw [lookupSimple] at h
  split at h
  · next hparameter =>
    cases h
    cases zero_of_and hparameter
    exact .typeParameter
  · split at h
    · next result hresult =>
      subst h
      rcases (Option.orElse_eq_some _ _ _).mp hresult with hfound | ⟨-, hfound⟩
      · obtain ⟨outer, houter, hinside⟩ := List.exists_of_findSome?_eq_some hfound
        simp only [inEnclosing] at hinside
        split at hinside
        · next htype =>
          cases hinside
          exact .enclosed houter htype
        · cases hinside
      · obtain ⟨scope, hscope, hinside⟩ := List.exists_of_findSome?_eq_some hfound
        exact .given hscope (gives_of_inScope hinside)
    · split at h
      · next hnative =>
        cases h
        cases zero_of_and hnative
        exact .native
      · split at h <;> cases h

def Known (symbols : Symbols) (arity : Nat) (m : Meaning) : Prop :=
  arity ≠ 0 → ∃ full, m = .type full ∧ symbols.hasType full arity = true

theorem known_type {full : String} (h : symbols.hasType full arity = true) :
    Known symbols arity (.type full) :=
  fun _ => ⟨full, rfl, h⟩

theorem known_zero (m : Meaning) : Known symbols 0 m := fun h => absurd rfl h

theorem Means.known (h : Means symbols place name arity m) : Known symbols arity m := by
  cases h with
  | typeParameter => exact known_zero _
  | enclosed houter htype => exact known_type htype
  | given hscope hgives =>
    cases hgives with
    | type htype => exact known_type htype
    | inner => exact known_zero _
    | shortName halias => exact known_zero _
    | imported houter htype => exact known_type htype
  | native => exact known_zero _

theorem of_lookupInside {outer : Meaning} (h : lookupInside symbols outer name arity = .ok m) :
    m.name = joinNames outer.name name ∧ Known symbols arity m := by
  have hfound {full : String} (hprobe : symbols.probe full arity = .found) :
      symbols.hasType full arity = true := by
    rw [Symbols.hasType, hprobe, beq_self_eq_true]
  cases outer with
  | scope scope =>
    simp only [lookupInside] at h
    split at h
    · next hprobe =>
      cases h
      exact ⟨rfl, known_type (hfound hprobe)⟩
    · split at h
      · next hnamespace =>
        cases h
        cases zero_of_and hnamespace
        exact ⟨rfl, known_zero _⟩
      · cases h
    · split at h
      · next hnamespace =>
        cases h
        cases zero_of_and hnamespace
        exact ⟨rfl, known_zero _⟩
      · cases h
  | type type =>
    simp only [lookupInside] at h
    split at h
    · next hprobe =>
      cases h
      exact ⟨rfl, known_type (hfound hprobe)⟩
    · cases h
    · cases h
  | typeParameter type => cases h
  | native type => cases h

theorem of_lookupRoot (h : lookupRoot symbols name arity = .ok m) :
    m.name = name ∧ Known symbols arity m := by
  rw [lookupRoot] at h
  split at h
  · next htype =>
    cases h
    exact ⟨rfl, known_type htype⟩
  · split at h
    · next hnamespace =>
      cases h
      cases zero_of_and hnamespace
      exact ⟨rfl, known_zero _⟩
    · cases h

theorem lookup_cons (part : String × Nat) (rest : List (String × Nat)) (fromRoot : Bool) :
    lookup symbols place (part :: rest) fromRoot =
      (lookupFirst symbols place fromRoot part).bind fun first => lookupRest symbols first rest := by
  cases fromRoot <;> rfl

theorem lookupRest_cons (outer : Meaning) (part : String × Nat) (rest : List (String × Nat)) :
    lookupRest symbols outer (part :: rest) =
      (lookupInside symbols outer part.1 part.2).bind fun m => lookupRest symbols m rest := rfl

theorem known_of_lookupFirst {part : String × Nat} {fromRoot : Bool}
    (h : lookupFirst symbols place fromRoot part = .ok m) : Known symbols part.2 m := by
  rw [lookupFirst] at h
  split at h
  · exact (of_lookupRoot h).2
  · exact (means_of_lookupSimple h).known

theorem ok_of_bind {x : Lookup} {f : Meaning → Lookup} (h : x.bind f = .ok m) :
    ∃ first, x = .ok first ∧ f first = .ok m := by
  cases x with
  | error p => cases h
  | ok first => exact ⟨first, rfl, h⟩

/-- Each further part is joined to the name of what is meant before it. -/
theorem of_lookupRest {rest : List (String × Nat)} {outer : Meaning}
    (h : lookupRest symbols outer rest = .ok m) :
    m.name = (rest.map (·.1)).foldl joinNames outer.name ∧
      ∀ last ∈ rest.getLast?, Known symbols last.2 m := by
  induction rest generalizing outer with
  | nil =>
    cases h
    exact ⟨rfl, nofun⟩
  | cons part rest ih =>
    rw [lookupRest_cons] at h
    obtain ⟨inner, hinner, hrest⟩ := ok_of_bind h
    obtain ⟨hname, hknown⟩ := of_lookupInside hinner
    obtain ⟨hnames, hlast⟩ := ih hrest
    refine ⟨by rw [hnames, hname]; rfl, ?_⟩
    cases rest with
    | nil =>
      cases hrest
      intro last hpart
      cases hpart
      exact hknown
    | cons next rest => exact hlast

/-- What a dotted name means is known with the type arguments behind its last part. -/
theorem known_of_lookup {parts : List (String × Nat)} {fromRoot : Bool}
    (h : lookup symbols place parts fromRoot = .ok m) :
    ∀ last ∈ parts.getLast?, Known symbols last.2 m := by
  cases parts with
  | nil => nofun
  | cons part rest =>
    rw [lookup_cons] at h
    obtain ⟨first, hfirst, hrest⟩ := ok_of_bind h
    cases rest with
    | nil =>
      cases hrest
      intro last hpart
      cases hpart
      exact known_of_lookupFirst hfirst
    | cons next rest => exact (of_lookupRest hrest).2

theorem ofArity_severity (full : String) (known : Nat) : (Problem.ofArity full known).severity = .error := by
  rw [Problem.ofArity]
  split <;> rfl

theorem inScope_severity {scope : Scope} (h : inScope symbols name arity scope = some (.error p)) :
    p.severity = .error := by
  simp only [inScope] at h
  split at h
  · cases h
  · split at h
    · cases h
    · split at h
      · cases h
      · split at h
        · cases h
        · cases h
        · cases h
          rfl

theorem lookupSimple_severity (h : lookupSimple symbols place name arity = .error p) :
    p.severity = .error := by
  rw [lookupSimple] at h
  split at h
  · cases h
  · split at h
    · next result hresult =>
      subst h
      rcases (Option.orElse_eq_some _ _ _).mp hresult with hfound | ⟨-, hfound⟩
      · obtain ⟨outer, -, hinside⟩ := List.exists_of_findSome?_eq_some hfound
        simp only [inEnclosing] at hinside
        split at hinside <;> cases hinside
      · obtain ⟨scope, -, hinside⟩ := List.exists_of_findSome?_eq_some hfound
        exact inScope_severity hinside
    · split at h
      · cases h
      · split at h
        · cases h
          exact ofArity_severity _ _
        · cases h
          rfl

theorem lookupInside_severity {outer : Meaning} (h : lookupInside symbols outer name arity = .error p) :
    p.severity = .error := by
  cases outer with
  | scope scope =>
    simp only [lookupInside] at h
    split at h
    · cases h
    · split at h
      · cases h
      · cases h
        exact ofArity_severity _ _
    · split at h
      · cases h
      · cases h
        rfl
  | type type =>
    simp only [lookupInside] at h
    split at h
    · cases h
    · cases h
      exact ofArity_severity _ _
    · cases h
      rfl
  | typeParameter type =>
    cases h
    rfl
  | native type =>
    cases h
    rfl

theorem lookupFirst_severity {part : String × Nat} {fromRoot : Bool}
    (h : lookupFirst symbols place fromRoot part = .error p) : p.severity = .error := by
  rw [lookupFirst, lookupRoot] at h
  split at h
  · split at h
    · cases h
    · split at h
      · cases h
      · cases h
        rfl
  · exact lookupSimple_severity h

theorem lookupRest_severity {rest : List (String × Nat)} {outer : Meaning}
    (h : lookupRest symbols outer rest = .error p) : p.severity = .error := by
  induction rest generalizing outer with
  | nil => cases h
  | cons part rest ih =>
    rw [lookupRest_cons] at h
    cases hinner : lookupInside symbols outer part.1 part.2 with
    | error q =>
      rw [hinner] at h
      cases h
      exact lookupInside_severity hinner
    | ok inner =>
      rw [hinner] at h
      exact ih h

/-- Nothing but an error is reported of a name that means nothing. -/
theorem lookup_severity {parts : List (String × Nat)} {fromRoot : Bool}
    (h : lookup symbols place parts fromRoot = .error p) : p.severity = .error := by
  cases parts with
  | nil =>
    cases h
    rfl
  | cons part rest =>
    rw [lookup_cons] at h
    cases hfirst : lookupFirst symbols place fromRoot part with
    | error q =>
      rw [hfirst] at h
      cases h
      exact lookupFirst_severity hfirst
    | ok first =>
      rw [hfirst] at h
      exact lookupRest_severity h

end DataClasses.Binding

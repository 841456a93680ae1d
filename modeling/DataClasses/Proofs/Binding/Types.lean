import DataClasses.Proofs.Binding.Meanings
import DataClasses.Proofs.Binding.Reported
import DataClasses.Proofs.Declaration.Inside

/-!
# What written types are bound to

A written type has a full name just if nothing is reported of it, and what is reported of a type inside
of another is reported of the other.
-/

set_option autoImplicit false

namespace DataClasses.Binding

variable (symbols : Symbols) (place : Place)

/-- Types in a row are bound one by one. -/
theorem bindTypes_eq (ts : List TypeExpr) :
    bindTypes symbols place ts =
      ⟨ts.map fun t => (bindType symbols place t).value,
        ts.flatMap fun t => (bindType symbols place t).reports⟩ := by
  induction ts with
  | nil => rfl
  | cons t ts ih =>
    rw [bindTypes, ih]
    simp [Bind.bind, Pure.pure]

/-- The type arguments behind all parts of a name are bound in a row. -/
theorem bindSegments_eq (segments : List (String × List TypeExpr)) :
    bindSegments symbols place segments = bindTypes symbols place (segments.flatMap (·.2)) := by
  induction segments with
  | nil => rfl
  | cons s segments ih =>
    rw [bindSegments, ih, bindTypes_eq, bindTypes_eq, bindTypes_eq, List.flatMap_cons]
    simp [Bind.bind, Pure.pure]

def typeMeant : Meaning → Option String
  | .scope _ => none
  | .type name => some name
  | .typeParameter name => some name
  | .native name => some name

theorem typeMeant_name {m : Meaning} {full : String} (h : typeMeant m = some full) : m.name = full := by
  cases m with
  | scope name => cases h
  | type name => exact Option.some.inj h
  | typeParameter name => exact Option.some.inj h
  | native name => exact Option.some.inj h

theorem Verdict.failure {d : Diagnostic} {p : Prop} (hd : d.severity = .error) (h : ¬p) :
    Verdict [d] p :=
  ⟨by simpa using h, List.forall_mem_singleton.mpr hd⟩

theorem asType_value (line : Nat) (m : Meaning) : (m.asType line).value = typeMeant m := by
  cases m <;> rfl

theorem asType_verdict (line : Nat) (m : Meaning) :
    Verdict (m.asType line).reports ((typeMeant m).isSome = true) := by
  cases m with
  | scope name => exact .failure rfl (by simp [typeMeant])
  | type name => exact .silent rfl
  | typeParameter name => exact .silent rfl
  | native name => exact .silent rfl

theorem allOf_isSome {values : List (Option String)} :
    (allOf values).isSome = true ↔ ∀ v ∈ values, v.isSome = true := by
  induction values with
  | nil => simp [allOf]
  | cons v values ih =>
    rw [List.forall_mem_cons, ← ih, allOf, allOf, List.mapM_cons]
    cases v with
    | none => simp
    | some name => cases values.mapM id <;> simp

def argumentsOf (segments : List (String × List TypeExpr)) : List TypeExpr := segments.flatMap (·.2)

theorem bindName_verdict (segments : List (String × List TypeExpr)) (fromRoot : Bool) (line : Nat) :
    Verdict (bindName symbols place segments fromRoot line).reports
      ((bindName symbols place segments fromRoot line).value.isSome = true) := by
  rw [bindName]
  split
  · next problem herror => exact .failure (lookup_severity herror) (by simp)
  · next meaning _ =>
    rw [asType_value]
    exact asType_verdict line meaning

theorem bindType_named (segments : List (String × List TypeExpr)) (fromRoot : Bool) (line : Nat) :
    bindType symbols place (.named segments fromRoot line) = (do
      let arguments ← bindTypes symbols place (argumentsOf segments)
      let name ← bindName symbols place segments fromRoot line
      pure (name.bind fun n => (allOf arguments).map (withArguments n))) := by
  rw [bindType, bindSegments_eq, argumentsOf]

theorem bindTypes_verdict {ts : List TypeExpr}
    (h : ∀ t ∈ ts, Verdict (bindType symbols place t).reports
      ((bindType symbols place t).value.isSome = true)) :
    Verdict (bindTypes symbols place ts).reports
      ((allOf (bindTypes symbols place ts).value).isSome = true) := by
  rw [bindTypes_eq]
  constructor
  · rw [List.flatMap_eq_nil_iff, allOf_isSome, List.forall_mem_map]
    exact forall₂_congr fun t ht => (h t ht).nil_iff
  · intro d hd
    obtain ⟨t, ht, hd⟩ := List.mem_flatMap.mp hd
    exact (h t ht).errors d hd

/-- A type has a full name just if nothing is reported of it, and all that is reported are errors. -/
theorem bindType_verdict (t : TypeExpr) :
    Verdict (bindType symbols place t).reports ((bindType symbols place t).value.isSome = true) := by
  induction t using TypeExpr.induct with
  | predefined keyword line => exact .silent rfl
  | named segments fromRoot line ih =>
    have harguments : ∀ t ∈ argumentsOf segments, Verdict (bindType symbols place t).reports
        ((bindType symbols place t).value.isSome = true) := by
      intro t ht
      obtain ⟨s, hs, ht⟩ := List.mem_flatMap.mp ht
      exact ih s hs t ht
    have hname := bindName_verdict symbols place segments fromRoot line
    rw [bindType_named]
    apply ((bindTypes_verdict symbols place harguments).append (hname.append (.silent trivial))).congr
    simp only [Reported.bind_value, Reported.pure_value, and_true]
    cases (bindName symbols place segments fromRoot line).value <;> simp
  | array element rank ih =>
    rw [bindType]
    apply (ih.append (.silent trivial)).congr
    simp
  | nullable inner ih =>
    rw [bindType]
    apply (ih.append (.silent trivial)).congr
    simp
  | tuple elements line ih =>
    rw [bindType]
    apply ((bindTypes_verdict symbols place ih).append (.silent trivial)).congr
    simp

/-- What is reported of a type is reported of those that it stands in. -/
theorem reports_inside {s t : TypeExpr} (h : s.IsInside t) :
    (bindType symbols place s).reports ⊆ (bindType symbols place t).reports := by
  have hrow {ts : List TypeExpr} {t : TypeExpr} (ht : t ∈ ts) :
      (bindType symbols place t).reports ⊆ (bindTypes symbols place ts).reports := by
    intro d hd
    rw [bindTypes_eq]
    exact List.mem_flatMap.mpr ⟨t, ht, hd⟩
  induction h with
  | self => exact fun d hd => hd
  | argument hsegment ht _ ih =>
    rw [bindType_named]
    exact fun d hd => List.mem_append_left _ (hrow (List.mem_flatMap.mpr ⟨_, hsegment, ht⟩) (ih hd))
  | element _ ih =>
    rw [bindType]
    exact fun d hd => List.mem_append_left _ (ih hd)
  | inner _ ih =>
    rw [bindType]
    exact fun d hd => List.mem_append_left _ (ih hd)
  | part ht _ ih =>
    rw [bindType]
    exact fun d hd => List.mem_append_left _ (hrow ht (ih hd))

/-- A type without a full name has an error reported of it. -/
theorem exists_error {t : TypeExpr} (h : (bindType symbols place t).value = none) :
    ∃ d ∈ (bindType symbols place t).reports, d.severity = .error := by
  have hverdict := bindType_verdict symbols place t
  have hne : (bindType symbols place t).reports ≠ [] := by
    intro hnil
    have hsome := hverdict.nil_iff.mp hnil
    rw [h] at hsome
    cases hsome
  obtain ⟨d, hd⟩ := List.exists_mem_of_ne_nil _ hne
  exact ⟨d, hd, hverdict.errors d hd⟩

end DataClasses.Binding

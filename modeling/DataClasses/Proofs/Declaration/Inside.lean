import DataClasses.Declaration.Basic

/-!
# Types inside of types

The types that stand inside of a written type at any depth, and an induction that reaches a type from
those inside of it.
-/

set_option autoImplicit false

namespace DataClasses.TypeExpr

/-- What holds of a type if it holds of its type arguments, its element or its elements holds of all
types. -/
@[elab_as_elim]
theorem induct {motive : TypeExpr → Prop}
    (predefined : ∀ keyword line, motive (.predefined keyword line))
    (named : ∀ segments fromRoot line, (∀ s ∈ segments, ∀ t ∈ s.2, motive t) →
      motive (.named segments fromRoot line))
    (array : ∀ element rank, motive element → motive (.array element rank))
    (nullable : ∀ inner, motive inner → motive (.nullable inner))
    (tuple : ∀ elements line, (∀ t ∈ elements, motive t) → motive (.tuple elements line))
    (t : TypeExpr) : motive t := by
  apply @TypeExpr.rec motive (fun segments => ∀ s ∈ segments, ∀ t ∈ s.2, motive t)
    (fun elements => ∀ t ∈ elements, motive t) (fun s => ∀ t ∈ s.2, motive t)
  · exact predefined
  · exact named
  · exact array
  · exact nullable
  · exact tuple
  · exact List.forall_mem_nil _
  · intro s segments hs hsegments
    exact List.forall_mem_cons.mpr ⟨hs, hsegments⟩
  · exact List.forall_mem_nil _
  · intro t elements ht helements
    exact List.forall_mem_cons.mpr ⟨ht, helements⟩
  · intro name arguments harguments
    exact harguments

inductive IsInside (s : TypeExpr) : TypeExpr → Prop where
  | self : IsInside s s
  | argument {segments : List (String × List TypeExpr)} {fromRoot : Bool} {line : Nat}
      {segment : String × List TypeExpr} {t : TypeExpr} (hsegment : segment ∈ segments)
      (ht : t ∈ segment.2) (h : IsInside s t) : IsInside s (.named segments fromRoot line)
  | element {t : TypeExpr} {rank : Nat} (h : IsInside s t) : IsInside s (.array t rank)
  | inner {t : TypeExpr} (h : IsInside s t) : IsInside s (.nullable t)
  | part {elements : List TypeExpr} {line : Nat} {t : TypeExpr} (ht : t ∈ elements)
      (h : IsInside s t) : IsInside s (.tuple elements line)

theorem IsInside.trans {r s t : TypeExpr} (hr : r.IsInside s) (hs : s.IsInside t) : r.IsInside t := by
  induction hs with
  | self => exact hr
  | argument hsegment ht _ ih => exact .argument hsegment ht ih
  | element _ ih => exact .element ih
  | inner _ ih => exact .inner ih
  | part ht _ ih => exact .part ht ih

def ArgumentsLast (t : TypeExpr) : Prop :=
  ∀ segments fromRoot line, (named segments fromRoot line).IsInside t →
    ∀ s ∈ segments.dropLast, s.2 = []

theorem ArgumentsLast.inside {s t : TypeExpr} (h : t.ArgumentsLast) (hs : s.IsInside t) :
    s.ArgumentsLast :=
  fun segments fromRoot line hnamed => h segments fromRoot line (hnamed.trans hs)

theorem argumentsLast_predefined (keyword : String) (line : Nat) :
    (predefined keyword line).ArgumentsLast := by
  intro segments fromRoot line hinside
  cases hinside

theorem argumentsLast_named {segments : List (String × List TypeExpr)} (fromRoot : Bool) (line : Nat)
    (hbare : ∀ s ∈ segments.dropLast, s.2 = []) (h : ∀ s ∈ segments, ∀ t ∈ s.2, t.ArgumentsLast) :
    (named segments fromRoot line).ArgumentsLast := by
  intro parts root first hinside
  cases hinside with
  | self => exact hbare
  | argument hsegment ht hinside => exact h _ hsegment _ ht parts root first hinside

end DataClasses.TypeExpr

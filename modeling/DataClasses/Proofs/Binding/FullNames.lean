import DataClasses.Binding.Unit
import DataClasses.Proofs.Identifier.Naming

/-!
# Full names as parts

A full name is a list of parts, and names are put together as their parts are. The namespaces
around a namespace are what its parts begin with.
-/

set_option autoImplicit false

namespace DataClasses

namespace Text

theorem dottedParts_append (a b : String) :
    dottedParts (a ++ "." ++ b) = dottedParts a ++ dottedParts b := by
  have hpoint : ".".toList = ['.'] := rfl
  simp only [dottedParts, String.toList_append, hpoint, List.append_assoc, List.singleton_append]
  rw [List.splitOn_append_cons_self, List.map_append]

theorem dottedParts_of_notMem {name : String} (h : '.' ∉ name.toList) : dottedParts name = [name] := by
  rw [dottedParts, List.splitOn_eq_singleton h]
  simp

theorem dottedParts_inj {a b : String} (h : dottedParts a = dottedParts b) : a = b := by
  rw [← intercalate_dottedParts a, h, intercalate_dottedParts]

end Text

namespace Identifier

theorem IsName.point_notMem {name : String} (h : IsName name) : '.' ∉ name.toList := by
  intro hmem
  have hpart : isPart '.' = true := isPart_of_mem h '.' hmem
  exact absurd hpart (by decide)

theorem IsName.ne_empty {name : String} (h : IsName name) : name ≠ "" := by
  rintro rfl
  exact absurd h (by decide)

theorem IsName.dottedParts {name : String} (h : IsName name) : Text.dottedParts name = [name] :=
  Text.dottedParts_of_notMem h.point_notMem

end Identifier

namespace Binding

open Identifier (IsName)
open Symbols (beginnings ofNamespace)

def partsOf (name : String) : List String := if name = "" then [] else Text.dottedParts name

theorem partsOf_empty : partsOf "" = [] := rfl

theorem partsOf_of_ne {name : String} (h : name ≠ "") : partsOf name = Text.dottedParts name :=
  if_neg h

theorem partsOf_inj {a b : String} (h : partsOf a = partsOf b) : a = b := by
  have hne := Text.dottedParts_ne_nil
  rw [partsOf, partsOf] at h
  split at h
  · next ha =>
    split at h
    · next hb => rw [ha, hb]
    · exact absurd h.symm (hne b)
  · split at h
    · exact absurd h (hne a)
    · exact Text.dottedParts_inj h

theorem joinNames_empty (name : String) : joinNames "" name = name := rfl

theorem joinNames_of_ne {outer : String} (h : outer ≠ "") (name : String) :
    joinNames outer name = outer ++ "." ++ name := by
  rw [joinNames, if_neg (by simpa using h)]

theorem joinNames_ne_empty {outer : String} (h : outer ≠ "") (name : String) :
    joinNames outer name ≠ "" := by
  rw [joinNames_of_ne h]
  intro heq
  have := congrArg String.toList heq
  simp at this

theorem partsOf_joinNames (outer : String) {name : String} (h : IsName name) :
    partsOf (joinNames outer name) = partsOf outer ++ [name] := by
  by_cases houter : outer = ""
  · subst houter
    rw [joinNames_empty, partsOf_of_ne h.ne_empty, h.dottedParts, partsOf_empty, List.nil_append]
  · rw [partsOf_of_ne (joinNames_ne_empty houter name), joinNames_of_ne houter,
      Text.dottedParts_append, h.dottedParts, partsOf_of_ne houter]

theorem joinNames_inj {a b x y : String} (hx : IsName x) (hy : IsName y)
    (h : joinNames a x = joinNames b y) : a = b ∧ x = y := by
  have hparts := congrArg partsOf h
  rw [partsOf_joinNames a hx, partsOf_joinNames b hy] at hparts
  obtain ⟨hab, hxy⟩ := List.append_inj' hparts rfl
  exact ⟨partsOf_inj hab, by simpa using hxy⟩

theorem head_joinNames {outer : String} (h : outer ≠ "") (name : String) :
    (partsOf (joinNames outer name)).head? = (partsOf outer).head? := by
  rw [partsOf_of_ne (joinNames_ne_empty h name), joinNames_of_ne h, Text.dottedParts_append,
    partsOf_of_ne h]
  exact List.head?_append_of_ne_nil _ (Text.dottedParts_ne_nil outer)

theorem partsOf_foldl {parts : List String} (h : ∀ part ∈ parts, IsName part) (outer : String) :
    partsOf (parts.foldl joinNames outer) = partsOf outer ++ parts := by
  induction parts generalizing outer with
  | nil => simp
  | cons part parts ih =>
    rw [List.foldl_cons, ih (fun q hq => h q (by simp [hq])), partsOf_joinNames outer (h part (by simp)),
      List.append_assoc, List.singleton_append]

theorem foldl_dottedParts {name : String} (hne : name ≠ "")
    (h : ∀ part ∈ Text.dottedParts name, IsName part) :
    (Text.dottedParts name).foldl joinNames "" = name := by
  apply partsOf_inj
  rw [partsOf_foldl h, partsOf_empty, List.nil_append, partsOf_of_ne hne]

theorem parts_of_beginning {parts : List String} (h : ∀ part ∈ parts, IsName part) {outer y : String}
    (hy : y ∈ beginnings outer parts) :
    ∃ p, p ≠ [] ∧ p <+: parts ∧ partsOf y = partsOf outer ++ p := by
  induction parts generalizing outer with
  | nil => simp [beginnings] at hy
  | cons part parts ih =>
    have hcurrent := partsOf_joinNames outer (h part (by simp))
    rw [beginnings, List.mem_cons] at hy
    rcases hy with rfl | hy
    · exact ⟨[part], by simp, by simp, hcurrent⟩
    · obtain ⟨p, -, hp, hparts⟩ := ih (fun q hq => h q (by simp [hq])) hy
      refine ⟨part :: p, by simp, List.cons_prefix_cons.mpr ⟨rfl, hp⟩, ?_⟩
      rw [hparts, hcurrent, List.append_assoc, List.singleton_append]

theorem head_of_beginning {parts : List String} {outer y : String} (houter : outer ≠ "")
    (hy : y ∈ beginnings outer parts) : (partsOf y).head? = (partsOf outer).head? := by
  induction parts generalizing outer with
  | nil => simp [beginnings] at hy
  | cons part parts ih =>
    rw [beginnings, List.mem_cons] at hy
    rcases hy with rfl | hy
    · exact head_joinNames houter part
    · rw [ih (joinNames_ne_empty houter part) hy, head_joinNames houter]

theorem head_of_ofNamespace {name root y : String} (hroot : IsName root)
    (h : (Text.dottedParts name).head? = some root) (hy : y ∈ ofNamespace name) :
    (partsOf y).head? = some root := by
  have hparts : partsOf root = [root] := by rw [partsOf_of_ne hroot.ne_empty, hroot.dottedParts]
  obtain ⟨rest, hname⟩ := List.head?_eq_some_iff.mp h
  rw [ofNamespace, hname, beginnings, List.mem_cons, joinNames_empty] at hy
  rcases hy with rfl | hy
  · rw [hparts]
    rfl
  · rw [head_of_beginning hroot.ne_empty hy, hparts]
    rfl

end Binding
end DataClasses

import DataClasses.Proofs.Binding.Reach
import DataClasses.Proofs.Binding.Resolved
import DataClasses.Proofs.Binding.Symbols
import DataClasses.Proofs.TypeTable.TypeText

/-!
# Type arguments behind their parts

The full name of a written type with the type arguments behind the parts that they are written
behind. It is the one that is bound where only last parts have type arguments, and then all types in
it that have type arguments are known with as many.
-/

set_option autoImplicit false

namespace DataClasses.Binding

open TypeText (Unmarked Reads row)

variable (symbols : Symbols) (place : Place)

def firstMeant (fromRoot : Bool) (part : String × Nat) : String :=
  match lookupFirst symbols place fromRoot part with
  | .ok m => m.name
  | .error _ => part.1

def attach (outer : String) (part : String × List String) : String :=
  withArguments (joinNames outer part.1) part.2

def attachedText (fromRoot : Bool) : List (String × List String) → String
  | [] => ""
  | (name, arguments) :: rest =>
    rest.foldl attach (withArguments (firstMeant symbols place fromRoot (name, arguments.length)) arguments)

mutual

def fullText : TypeExpr → String
  | .predefined keyword _ => keyword
  | .named segments fromRoot _ => attachedText symbols place fromRoot (fullSegments segments)
  | .array element rank =>
    fullText element ++ "[" ++ String.ofList (List.replicate (rank - 1) ',') ++ "]"
  | .nullable inner => fullText inner ++ "?"
  | .tuple elements _ => "(" ++ ", ".intercalate (fullTexts elements) ++ ")"

def fullTexts : List TypeExpr → List String
  | [] => []
  | t :: rest => fullText t :: fullTexts rest

def fullSegments : List (String × List TypeExpr) → List (String × List String)
  | [] => []
  | (name, arguments) :: rest => (name, fullTexts arguments) :: fullSegments rest

end

theorem fullTexts_eq (ts : List TypeExpr) : fullTexts symbols place ts = ts.map (fullText symbols place) := by
  induction ts with
  | nil => rfl
  | cons t ts ih => rw [fullTexts, ih, List.map_cons]

theorem fullSegments_eq (segments : List (String × List TypeExpr)) :
    fullSegments symbols place segments =
      segments.map fun s => (s.1, s.2.map (fullText symbols place)) := by
  induction segments with
  | nil => rfl
  | cons s segments ih => rw [fullSegments, ih, fullTexts_eq, List.map_cons]

theorem allOf_eq_some {values : List (Option String)} {names : List String} :
    allOf values = some names ↔ values = names.map some := by
  induction values generalizing names with
  | nil => cases names <;> simp [allOf]
  | cons value values ih =>
    rw [allOf] at ih
    rw [allOf, List.mapM_cons]
    cases value with
    | none => cases names <;> simp
    | some first =>
      cases names with
      | nil => simp [Option.bind_eq_some_iff]
      | cons name names => simp [Option.bind_eq_some_iff, ih, and_comm]

variable {symbols place}

theorem bindTypes_some {ts : List TypeExpr} {names : List String}
    (h : allOf (bindTypes symbols place ts).value = some names) :
    List.Forall₂ (fun t name => (bindType symbols place t).value = some name) ts names := by
  rw [allOf_eq_some, bindTypes_eq] at h
  induction ts generalizing names with
  | nil =>
    rw [List.map_eq_nil_iff.mp h.symm]
    exact .nil
  | cons t ts ih =>
    cases names with
    | nil => cases h
    | cons name names =>
      obtain ⟨hname, hnames⟩ := List.cons.inj h
      exact .cons hname (ih hnames)

structure FoundName (symbols : Symbols) (place : Place) (segments : List (String × List TypeExpr))
    (fromRoot : Bool) (m : Meaning) (names : List String) : Prop where
  meant : lookup symbols place (partsWritten segments) fromRoot = .ok m
  isType : typeMeant m = some m.name
  arguments : List.Forall₂ (fun t name => (bindType symbols place t).value = some name)
    (argumentsOf segments) names

theorem bindType_named_some {segments : List (String × List TypeExpr)} {fromRoot : Bool} {line : Nat}
    {full : String} (h : (bindType symbols place (.named segments fromRoot line)).value = some full) :
    ∃ m names, FoundName symbols place segments fromRoot m names ∧ full = withArguments m.name names := by
  rw [bindType_named] at h
  obtain ⟨name, hname, hfull⟩ := Option.bind_eq_some_iff.mp h
  obtain ⟨names, hnames, rfl⟩ := Option.map_eq_some_iff.mp hfull
  rw [bindName] at hname
  split at hname
  · cases hname
  · next m hm =>
    rw [asType_value] at hname
    have hsame := typeMeant_name hname
    subst hsame
    exact ⟨m, names, ⟨hm, hname, bindTypes_some hnames⟩, rfl⟩

theorem bindType_array_some {element : TypeExpr} {rank : Nat} {full : String}
    (h : (bindType symbols place (.array element rank)).value = some full) :
    ∃ name, (bindType symbols place element).value = some name ∧
      full = name ++ "[" ++ String.ofList (List.replicate (rank - 1) ',') ++ "]" := by
  rw [bindType] at h
  obtain ⟨name, hname, rfl⟩ := Option.map_eq_some_iff.mp h
  exact ⟨name, hname, rfl⟩

theorem bindType_nullable_some {inner : TypeExpr} {full : String}
    (h : (bindType symbols place (.nullable inner)).value = some full) :
    ∃ name, (bindType symbols place inner).value = some name ∧ full = name ++ "?" := by
  rw [bindType] at h
  obtain ⟨name, hname, rfl⟩ := Option.map_eq_some_iff.mp h
  exact ⟨name, hname, rfl⟩

theorem bindType_tuple_some {elements : List TypeExpr} {line : Nat} {full : String}
    (h : (bindType symbols place (.tuple elements line)).value = some full) :
    ∃ names, List.Forall₂ (fun t name => (bindType symbols place t).value = some name) elements names ∧
      full = "(" ++ ", ".intercalate names ++ ")" := by
  rw [bindType] at h
  obtain ⟨names, hnames, rfl⟩ := Option.map_eq_some_iff.mp h
  exact ⟨names, bindTypes_some hnames, rfl⟩

theorem attached_last {rest : List (String × List String)} (name first : String) (arguments : List String)
    (h : ∀ s ∈ ((name, arguments) :: rest).dropLast, s.2 = []) :
    rest.foldl attach (withArguments first arguments) =
      withArguments ((rest.map (·.1)).foldl joinNames first) (arguments ++ rest.flatMap (·.2)) := by
  induction rest generalizing name first arguments with
  | nil => simp
  | cons s rest ih =>
    rw [List.dropLast_cons_cons] at h
    obtain ⟨hnone, hrest⟩ := List.forall_mem_cons.mp h
    change arguments = [] at hnone
    subst hnone
    exact ih s.1 (joinNames first s.1) s.2 hrest

theorem firstMeant_of_ok {fromRoot : Bool} {part : String × Nat} {m : Meaning}
    (h : lookupFirst symbols place fromRoot part = .ok m) :
    firstMeant symbols place fromRoot part = m.name := by
  rw [firstMeant, h]

/-- The name that has been found, with all type arguments behind it. -/
theorem FoundName.text {segments : List (String × List TypeExpr)} {fromRoot : Bool} {m : Meaning}
    {names : List String} (h : FoundName symbols place segments fromRoot m names)
    (hlast : ∀ s ∈ segments.dropLast, s.2 = []) :
    attachedText symbols place fromRoot (fullSegments symbols place segments) =
      withArguments m.name ((argumentsOf segments).map (fullText symbols place)) := by
  cases segments with
  | nil => cases h.meant
  | cons s rest =>
    have hmeant := h.meant
    rw [partsWritten, List.map_cons, lookup_cons] at hmeant
    obtain ⟨first, hfirst, hrest⟩ := ok_of_bind hmeant
    have hbare : ∀ x ∈ ((s :: rest).map fun s => (s.1, s.2.map (fullText symbols place))).dropLast,
        x.2 = [] := by
      intro x hx
      rw [← List.map_dropLast] at hx
      obtain ⟨y, hy, rfl⟩ := List.mem_map.mp hx
      rw [hlast y hy, List.map_nil]
    rw [fullSegments_eq, List.map_cons, attachedText, List.length_map, firstMeant_of_ok hfirst,
      attached_last s.1 first.name _ hbare, (of_lookupRest hrest).1, argumentsOf, List.flatMap_cons,
      List.map_append]
    simp [List.map_flatMap, List.flatMap_map, Function.comp_def]

theorem eq_map_of_forall₂ {ts : List TypeExpr} {names : List String} {p : TypeExpr → String → Prop}
    {f : TypeExpr → String} (h : List.Forall₂ p ts names)
    (hf : ∀ t ∈ ts, ∀ name, p t name → name = f t) :
    names = ts.map f := by
  induction h with
  | nil => rfl
  | cons hp _ ih =>
    obtain ⟨ht, hts⟩ := List.forall_mem_cons.mp hf
    rw [List.map_cons, ht _ hp, ih hts]

/-- A type that is found has its full text, if type arguments stand behind last parts alone. -/
theorem bindType_text {t : TypeExpr} (hlast : t.ArgumentsLast) {full : String}
    (h : (bindType symbols place t).value = some full) : full = fullText symbols place t := by
  induction t using TypeExpr.induct generalizing full with
  | predefined keyword line =>
    cases h
    rfl
  | named segments fromRoot line ih =>
    obtain ⟨m, names, hfound, rfl⟩ := bindType_named_some h
    have hnames : names = (argumentsOf segments).map (fullText symbols place) := by
      apply eq_map_of_forall₂ hfound.arguments
      intro t ht name hname
      obtain ⟨s, hs, ht⟩ := List.mem_flatMap.mp ht
      exact ih s hs t ht (hlast.inside (.argument hs ht .self)) hname
    rw [fullText, hfound.text (hlast segments fromRoot line .self), hnames]
  | array element rank ih =>
    obtain ⟨name, hname, rfl⟩ := bindType_array_some h
    rw [fullText, ih (hlast.inside (.element .self)) hname]
  | nullable inner ih =>
    obtain ⟨name, hname, rfl⟩ := bindType_nullable_some h
    rw [fullText, ih (hlast.inside (.inner .self)) hname]
  | tuple elements line ih =>
    obtain ⟨names, hnames, rfl⟩ := bindType_tuple_some h
    have hall : names = elements.map (fullText symbols place) := by
      apply eq_map_of_forall₂ hnames
      intro t ht name hname
      exact ih t ht (hlast.inside (.part ht .self)) hname
    rw [fullText, fullTexts_eq, hall]

theorem withArguments_toList (name : String) {arguments : List String} (h : arguments ≠ []) :
    (withArguments name arguments).toList =
      name.toList ++ '<' :: row (arguments.map String.toList) ++ ['>'] := by
  rw [withArguments, if_neg (by simpa using h)]
  simp [row, String.toList_intercalate]

/-- A name with type arguments behind its last part is a known type that has as many. -/
theorem FoundName.known {segments : List (String × List TypeExpr)} {fromRoot : Bool} {m : Meaning}
    {names : List String} (h : FoundName symbols place segments fromRoot m names)
    (hlast : ∀ s ∈ segments.dropLast, s.2 = []) (hne : names ≠ []) :
    (m.name, names.length) ∈ symbols.types := by
  have hlength := h.arguments.length_eq
  cases segments using List.reverseRecOn with
  | nil => cases h.meant
  | append_singleton front last =>
    rw [List.dropLast_concat] at hlast
    have harguments : argumentsOf (front ++ [last]) = last.2 := by
      rw [argumentsOf, List.flatMap_append, List.flatMap_singleton,
        List.flatMap_eq_nil_iff.mpr hlast, List.nil_append]
    rw [harguments] at hlength
    have hknown : Known symbols last.2.length m := by
      apply known_of_lookup h.meant (last.1, last.2.length)
      simp [partsWritten]
    have hpositive : last.2.length ≠ 0 := by
      rw [hlength]
      exact fun hzero => hne (List.length_eq_zero_iff.mp hzero)
    obtain ⟨full, rfl, htype⟩ := hknown hpositive
    rw [← hlength]
    exact Symbols.hasType_iff.mp htype

variable {e : Extent}

/-- The parts of a name that stand in a text lead from names without marks to such. -/
theorem joins_unmarked (he : ∀ name, e.hasName name → Unmarked name)
    {segments : List (String × List TypeExpr)} (h : TypeExpr.SegmentsStandIn e segments) :
    ∀ part ∈ partsWritten segments, Joins Unmarked part.1 := by
  intro part hpart outer houter
  obtain ⟨s, hs, rfl⟩ := List.mem_map.mp hpart
  apply TypeText.unmarked_joinNames houter
  by_cases hempty : s.1 = ""
  · change Unmarked s.1
    rw [hempty]
    exact List.forall_mem_nil _
  · exact he _ ((TypeExpr.segmentsStandIn_iff.mp h s hs).1 hempty)

theorem FoundName.unmarked (he : ∀ name, e.hasName name → Unmarked name) (hplace : place.Within Unmarked)
    {segments : List (String × List TypeExpr)} (hsegments : TypeExpr.SegmentsStandIn e segments)
    {fromRoot : Bool} {m : Meaning} {names : List String}
    (h : FoundName symbols place segments fromRoot m names) : Unmarked m.name :=
  lookup_within (List.forall_mem_nil _) hplace (joins_unmarked he hsegments) h.meant

/-- In the text of a type that is found, names with type arguments are known types that have as many, if
type arguments stand behind last parts alone. -/
theorem bindType_reads (he : ∀ name, e.hasName name → Unmarked name) (hplace : place.Within Unmarked)
    {t : TypeExpr} (ht : t.StandsIn e) (hlast : t.ArgumentsLast) {full : String}
    (h : (bindType symbols place t).value = some full) : Reads (· ∈ symbols.types) full.toList := by
  induction t using TypeExpr.induct generalizing full with
  | predefined keyword line =>
    cases h
    exact TypeText.reads_unmarked (he _ ht.1)
  | named segments fromRoot line ih =>
    obtain ⟨m, names, hfound, rfl⟩ := bindType_named_some h
    have hname := hfound.unmarked he hplace ht.2
    have hnames : ∀ name ∈ names, Reads (· ∈ symbols.types) name.toList := by
      intro name hname
      obtain ⟨t, hargument, hname⟩ := exists_of_mem_right hfound.arguments hname
      obtain ⟨s, hs, hargument⟩ := List.mem_flatMap.mp hargument
      have harguments := (TypeExpr.segmentsStandIn_iff.mp ht.2 s hs).2
      exact ih s hs t hargument (TypeExpr.allStandIn_iff.mp harguments t hargument)
        (hlast.inside (.argument hs hargument .self)) hname
    by_cases hne : names = []
    · subst hne
      exact TypeText.reads_unmarked hname
    · rw [withArguments_toList m.name hne]
      apply TypeText.reads_constructed hname (by simpa using hne)
      · exact List.forall_mem_map.mpr hnames
      · rw [List.length_map]
        exact hfound.known (hlast segments fromRoot line .self) hne
  | array element rank ih =>
    obtain ⟨name, hname, rfl⟩ := bindType_array_some h
    have hread := TypeText.reads_array (ih ht (hlast.inside (.element .self)) hname) (rank - 1)
    simpa using hread
  | nullable inner ih =>
    obtain ⟨name, hname, rfl⟩ := bindType_nullable_some h
    have hread := TypeText.reads_nullable (ih ht (hlast.inside (.inner .self)) hname)
    simpa using hread
  | tuple elements line ih =>
    obtain ⟨names, hnames, rfl⟩ := bindType_tuple_some h
    have hall : ∀ name ∈ names, Reads (· ∈ symbols.types) name.toList := by
      intro name hname
      obtain ⟨t, helement, hname⟩ := exists_of_mem_right hnames hname
      exact ih t helement (TypeExpr.allStandIn_iff.mp ht.2 t helement)
        (hlast.inside (.part helement .self)) hname
    have hread := TypeText.reads_tuple (List.forall_mem_map.mpr hall)
    simpa [row, String.toList_intercalate] using hread

end DataClasses.Binding

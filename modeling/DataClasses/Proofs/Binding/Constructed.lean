import DataClasses.Proofs.Binding.FullTexts
import DataClasses.Proofs.Binding.References

/-!
# Constructed types of a table

The types of the members of a table have their type arguments where they are written, behind types that
have as many type parameters, just if the source writes type arguments behind last parts of names alone.
-/

set_option autoImplicit false

namespace DataClasses

open Binding
open Identifier (IsName)

namespace TypeText

def Unjoined (text : List Char) : Prop := text.IsChain fun a b => a = '>' → b ≠ '.'

theorem unjoined_of_notMem {text : List Char} (h : '>' ∉ text) : Unjoined text := by
  induction text with
  | nil => exact .nil
  | cons c text ih =>
    rw [List.mem_cons, not_or] at h
    obtain ⟨hc, htext⟩ := h
    exact (ih htext).cons fun _ _ heq => absurd heq.symm hc

theorem unjoined_unmarked {name : String} (h : Unmarked name) : Unjoined name.toList :=
  unjoined_of_notMem fun hmem => h '>' hmem (by decide)

theorem Unjoined.append {a b : List Char} (ha : Unjoined a) (hb : Unjoined b)
    (h : a.getLast? ≠ some '>' ∨ b.head? ≠ some '.') : Unjoined (a ++ b) := by
  apply List.IsChain.append ha hb
  intro x hx y hy hgt hpoint
  rcases h with h | h
  · exact h (hgt ▸ hx)
  · exact h (hpoint ▸ hy)

/-- Brackets do not join their content to what is around them. -/
theorem Unjoined.bracket {before inside : List Char} {first last : Char} (hbefore : Unjoined before)
    (hinside : Unjoined inside) (hfirst : first ≠ '.' ∧ first ≠ '>') (hlast : last ≠ '.') :
    Unjoined (before ++ first :: inside ++ [last]) := by
  have hcons : Unjoined (first :: inside) := hinside.cons fun _ _ heq => absurd heq hfirst.2
  apply Unjoined.append (hbefore.append hcons (.inr (by simpa using hfirst.1))) (List.isChain_singleton _)
  exact .inr (by simpa using hlast)

theorem unjoined_row {texts : List (List Char)} (h : ∀ text ∈ texts, Unjoined text) :
    Unjoined (row texts) := by
  induction texts with
  | nil => exact .nil
  | cons text texts ih =>
    obtain ⟨htext, htexts⟩ := List.forall_mem_cons.mp h
    cases texts with
    | nil =>
      rw [row, List.intercalate_singleton]
      exact htext
    | cons next rest =>
      rw [row, List.intercalate_cons_cons]
      have hcomma : Unjoined [',', ' '] := unjoined_of_notMem (by decide)
      exact (htext.append hcomma (.inr (by decide))).append (ih htexts) (.inl (by simp))

theorem infix_row {texts : List (List Char)} {text : List Char} (h : text ∈ texts) :
    text <:+: row texts := by
  induction texts with
  | nil => cases h
  | cons first texts ih =>
    cases texts with
    | nil =>
      obtain rfl := List.mem_singleton.mp h
      exact ⟨[], [], by rw [row, List.intercalate_singleton, List.nil_append, List.append_nil]⟩
    | cons next rest =>
      rw [row, List.intercalate_cons_cons]
      rcases List.mem_cons.mp h with rfl | h
      · exact ((List.prefix_append _ _).trans (List.prefix_append _ _)).isInfix
      · exact (ih h).trans (List.suffix_append _ _).isInfix

end TypeText

namespace Binding

open TypeText (Unmarked Unjoined row)

variable {symbols : Symbols} {place : Place} {e : Extent}

/-- The full name of a type that is found has no part behind type arguments. -/
theorem bindType_unjoined (he : ∀ name, e.hasName name → Unmarked name) (hplace : place.Within Unmarked)
    {t : TypeExpr} (ht : t.StandsIn e) {full : String} (h : (bindType symbols place t).value = some full) :
    Unjoined full.toList := by
  induction t using TypeExpr.induct generalizing full with
  | predefined keyword line =>
    cases h
    exact TypeText.unjoined_unmarked (he _ ht.1)
  | named segments fromRoot line ih =>
    obtain ⟨m, names, hfound, rfl⟩ := bindType_named_some h
    have hname := TypeText.unjoined_unmarked (hfound.unmarked he hplace ht.2)
    have hnames : ∀ name ∈ names, Unjoined name.toList := by
      intro name hname
      obtain ⟨t, hargument, hname⟩ := exists_of_mem_right hfound.arguments hname
      obtain ⟨s, hs, hargument⟩ := List.mem_flatMap.mp hargument
      have harguments := (TypeExpr.segmentsStandIn_iff.mp ht.2 s hs).2
      exact ih s hs t hargument (TypeExpr.allStandIn_iff.mp harguments t hargument) hname
    by_cases hne : names = []
    · subst hne
      exact hname
    · rw [withArguments_toList m.name hne]
      exact hname.bracket (TypeText.unjoined_row (List.forall_mem_map.mpr hnames)) (by decide) (by decide)
  | array element rank ih =>
    obtain ⟨name, hname, rfl⟩ := bindType_array_some h
    have hcommas : Unjoined (List.replicate (rank - 1) ',') :=
      TypeText.unjoined_of_notMem fun hmem => absurd (List.eq_of_mem_replicate hmem) (by decide)
    have hall : Unjoined (name.toList ++ '[' :: List.replicate (rank - 1) ',' ++ [']']) :=
      (ih ht hname).bracket hcommas (by decide) (by decide)
    simpa using hall
  | nullable inner ih =>
    obtain ⟨name, hname, rfl⟩ := bindType_nullable_some h
    have hall : Unjoined (name.toList ++ ['?']) :=
      (ih ht hname).append (List.isChain_singleton _) (.inr (by decide))
    simpa using hall
  | tuple elements line ih =>
    obtain ⟨names, hnames, rfl⟩ := bindType_tuple_some h
    have hrow : ∀ name ∈ names, Unjoined name.toList := by
      intro name hname
      obtain ⟨t, helement, hname⟩ := exists_of_mem_right hnames hname
      exact ih t helement (TypeExpr.allStandIn_iff.mp ht.2 t helement) hname
    have hnone : Unjoined [] := .nil
    have hall : Unjoined ([] ++ '(' :: row (names.map String.toList) ++ [')']) :=
      hnone.bracket (TypeText.unjoined_row (List.forall_mem_map.mpr hrow)) (by decide) (by decide)
    simpa [row, String.toList_intercalate] using hall

theorem prefix_withArguments (name : String) (arguments : List String) :
    name.toList <+: (withArguments name arguments).toList := by
  by_cases hnone : arguments = []
  · subst hnone
    exact List.prefix_rfl
  · rw [withArguments_toList name hnone, List.append_assoc]
    exact List.prefix_append _ _

theorem infix_withArguments (name : String) {arguments : List String} {text : String}
    (h : text ∈ arguments) : text.toList <:+: (withArguments name arguments).toList := by
  have hrow := TypeText.infix_row (List.mem_map_of_mem (f := String.toList) h)
  rw [withArguments_toList name (List.ne_nil_of_mem h)]
  apply hrow.trans
  exact ⟨name.toList ++ ['<'], ['>'], by simp⟩

theorem prefix_attach (outer : String) (part : String × List String) :
    outer.toList <+: (attach outer part).toList := by
  have hjoined : outer.toList <+: (joinNames outer part.1).toList := by
    by_cases hempty : outer = ""
    · subst hempty
      exact List.nil_prefix
    · rw [joinNames_of_ne hempty]
      simp
  exact hjoined.trans (prefix_withArguments _ _)

theorem prefix_foldl_attach (outer : String) (parts : List (String × List String)) :
    outer.toList <+: (parts.foldl attach outer).toList := by
  induction parts generalizing outer with
  | nil => exact List.prefix_rfl
  | cons part parts ih => exact (prefix_attach outer part).trans (ih _)

theorem getLast?_withArguments (name : String) {arguments : List String} (h : arguments ≠ []) :
    (withArguments name arguments).toList.getLast? = some '>' := by
  rw [withArguments_toList name h, List.getLast?_concat]

/-- A part that is attached behind type arguments is joined to them. -/
theorem attach_unjoined {outer : String} {part : String × List String}
    (h : Unjoined (attach outer part).toList) : outer.toList.getLast? ≠ some '>' := by
  intro hlast
  have hne : outer ≠ "" := by
    rintro rfl
    cases hlast
  have hjoined : outer.toList ++ ['.'] <+: (joinNames outer part.1).toList := by
    rw [joinNames_of_ne hne]
    simp
  have hall : Unjoined (outer.toList ++ ['.']) := h.prefix (hjoined.trans (prefix_withArguments _ _))
  exact (List.isChain_append.mp hall).2.2 '>' hlast '.' rfl rfl rfl

/-- Nothing is attached to a part that has type arguments. -/
theorem bare_of_end {part : String × List String} {parts : List (String × List String)} {name : String}
    (hend : parts ≠ [] → (withArguments name part.2).toList.getLast? ≠ some '>')
    (hbare : ∀ x ∈ parts.dropLast, x.2 = []) : ∀ x ∈ (part :: parts).dropLast, x.2 = [] := by
  cases parts with
  | nil => exact List.forall_mem_nil _
  | cons next rest =>
    rw [List.dropLast_cons_cons]
    refine List.forall_mem_cons.mpr ⟨?_, hbare⟩
    by_contra harguments
    exact hend (List.cons_ne_nil next rest) (getLast?_withArguments _ harguments)

theorem attached_unjoined {parts : List (String × List String)} {outer : String}
    (h : Unjoined (parts.foldl attach outer).toList) :
    (parts ≠ [] → outer.toList.getLast? ≠ some '>') ∧ ∀ part ∈ parts.dropLast, part.2 = [] := by
  induction parts generalizing outer with
  | nil => exact ⟨fun hne => absurd rfl hne, List.forall_mem_nil _⟩
  | cons part parts ih =>
    obtain ⟨hend, hbare⟩ := ih h
    have hattached : Unjoined (attach outer part).toList := h.prefix (prefix_foldl_attach _ parts)
    exact ⟨fun _ => attach_unjoined hattached, bare_of_end hend hbare⟩

theorem attachedText_unjoined {fromRoot : Bool} {parts : List (String × List String)}
    (h : Unjoined (attachedText symbols place fromRoot parts).toList) :
    ∀ part ∈ parts.dropLast, part.2 = [] := by
  cases parts with
  | nil => exact List.forall_mem_nil _
  | cons part parts =>
    obtain ⟨hend, hbare⟩ := attached_unjoined h
    exact bare_of_end hend hbare

theorem infix_attachedText (fromRoot : Bool) {parts : List (String × List String)}
    {part : String × List String} (hpart : part ∈ parts) {text : String} (htext : text ∈ part.2) :
    text.toList <:+: (attachedText symbols place fromRoot parts).toList := by
  have hrest {rest : List (String × List String)} (hpart : part ∈ rest) (outer : String) :
      text.toList <:+: (rest.foldl attach outer).toList := by
    induction rest generalizing outer with
    | nil => cases hpart
    | cons first rest ih =>
      rcases List.mem_cons.mp hpart with rfl | hpart
      · exact (infix_withArguments _ htext).trans (prefix_foldl_attach _ rest).isInfix
      · exact ih hpart _
  cases parts with
  | nil => cases hpart
  | cons first rest =>
    rcases List.mem_cons.mp hpart with rfl | hpart
    · exact (infix_withArguments _ htext).trans (prefix_foldl_attach _ rest).isInfix
    · exact hrest hpart _

/-- The text of a type holds those of the types inside of it. -/
theorem fullText_inside {s t : TypeExpr} (h : s.IsInside t) :
    (fullText symbols place s).toList <:+: (fullText symbols place t).toList := by
  induction h with
  | self => exact List.infix_rfl
  | argument hsegment ht _ ih =>
    apply ih.trans
    rw [fullText, fullSegments_eq]
    exact infix_attachedText _ (List.mem_map_of_mem hsegment) (List.mem_map_of_mem ht)
  | element _ ih =>
    apply ih.trans
    rw [fullText, String.append_assoc, String.append_assoc, String.toList_append]
    exact (List.prefix_append _ _).isInfix
  | inner _ ih =>
    apply ih.trans
    rw [fullText, String.toList_append]
    exact (List.prefix_append _ _).isInfix
  | part ht _ ih =>
    apply ih.trans
    rw [fullText, fullTexts_eq, String.toList_append, String.toList_append, String.toList_intercalate]
    apply List.IsInfix.trans _ (List.infix_append _ _ _)
    exact TypeText.infix_row (List.mem_map_of_mem (List.mem_map_of_mem ht))

/-- Where the text of a type has no part behind type arguments, these stand behind last parts alone. -/
theorem argumentsLast_of_unjoined {t : TypeExpr} (h : Unjoined (fullText symbols place t).toList) :
    t.ArgumentsLast := by
  intro segments fromRoot line hinside s hs
  have hall : Unjoined (fullText symbols place (.named segments fromRoot line)).toList :=
    h.infix (fullText_inside hinside)
  rw [fullText, fullSegments_eq] at hall
  have hbare := attachedText_unjoined hall (s.1, s.2.map (fullText symbols place))
    (by rw [← List.map_dropLast]; exact List.mem_map_of_mem hs)
  exact List.map_eq_nil_iff.mp hbare

end Binding

open TypeText (Unmarked constructed)

theorem Identifier.IsName.unmarked {name : String} (h : IsName name) : Unmarked name := by
  intro c hc hmark
  have hpart : isPart c = true := isPart_of_mem h c hc
  have hnone : isPart c = false := by
    simp only [TypeText.marks, List.mem_cons, List.not_mem_nil, or_false] at hmark
    rcases hmark with rfl | rfl | rfl | rfl | rfl | rfl | rfl | rfl | rfl <;> decide
  rw [hnone] at hpart
  cases hpart

theorem Extent.HasWords.closed {e : Extent} (he : ∀ name, e.hasName name → IsName name)
    {words : List String} (h : e.HasWords words) : Closed Unmarked words := by
  have hword : ∀ w ∈ words, Unmarked w := by
    intro w hw
    by_cases hempty : w = ""
    · subst hempty
      exact List.forall_mem_nil _
    · exact (he w (h w hw hempty)).unmarked
  have hsuffix : Unmarked "Attribute" := by
    have hname : IsName "Attribute" := by decide
    exact hname.unmarked
  refine ⟨List.forall_mem_nil _, ?_, ?_⟩
  · intro w hw outer houter
    exact TypeText.unmarked_joinNames houter (hword w hw)
  · intro w hw outer houter
    exact TypeText.unmarked_joinNames houter (TypeText.unmarked_append (hword w hw) hsuffix)

namespace PlacedPart

variable {p : PlacedPart} {d : DeclaredMember}

/-- The names in the type of a member are looked up inside of the type that it is declared in. -/
theorem declares_within {reach : String → Prop} (hp : p.inside.Within reach) (hd : d ∈ p.declares) :
    d.place.Within reach := by
  cases declares_of_mem hd with
  | parameter hq => exact hp
  | field hf => exact hp
  | property hf => exact hp
  | method hf => exact ⟨hp.scopes, hp.enclosing⟩
  | constructor => exact hp
  | enumValue => exact hp

theorem declares_stand {e : Extent} (hp : p.StandsIn e) (hd : d ∈ p.declares) :
    ∀ t ∈ d.type, t.StandsIn e := by
  intro t ht
  cases declares_of_mem hd with
  | parameter hq =>
    cases ht
    exact (hp.parameters _ hq).type
  | field hf =>
    cases ht
    exact FieldDecl.StandsIn.type (hp.members _ hf)
  | property hf =>
    cases ht
    exact PropertyDecl.StandsIn.type (hp.members _ hf)
  | method hf =>
    have hmethod := (hp.members _ hf).2
    exact hmethod.returns t (Option.filter_eq_some_iff.mp ht).1
  | constructor => cases ht
  | enumValue => cases ht

end PlacedPart

namespace SourceUnit

def HasType (u : SourceUnit) (references : List Assembly) (type : String × Nat) : Prop :=
  (∃ d ∈ declaredTypes "" u.members, (d.fullName, d.arity) = type) ∨
    ∃ t ∈ Assembly.exportedTypes references, (joinNames t.scope t.name, t.arity) = type

variable {u : SourceUnit} {references : List Assembly}

theorem hasType_of_mem {type : String × Nat} (h : type ∈ (u.symbols references).types) :
    u.HasType references type := by
  rcases Symbols.mem_types_append.mp h with h | h
  · obtain ⟨t, ht, hname, harity⟩ := Assembly.mem_types.mp h
    exact .inr ⟨t, ht, Prod.ext hname harity⟩
  · obtain ⟨d, hd, htype⟩ := List.mem_map.mp h
    exact .inl ⟨d, hd, htype⟩

theorem placed_stands {e : Extent} (hu : u.StandsIn e) : ∀ p ∈ u.placed references, p.StandsIn e := by
  intro p hp
  have hpart : p.toTypePart ∈ u.parts := by
    rw [← u.placed_parts references]
    exact List.mem_map_of_mem hp
  exact parts_stand hu _ hpart

theorem exists_of_mem_both {α β : Type} {r s : α → β → Prop} {l : List α} {k : List β}
    (hr : List.Forall₂ r l k) (hs : List.Forall₂ s l k) {a : α} (ha : a ∈ l) :
    ∃ b, r a b ∧ s a b := by
  induction hr with
  | nil => cases ha
  | cons hfirst _ ih =>
    cases hs with
    | cons hsecond hs =>
      rcases List.mem_cons.mp ha with rfl | ha
      · exact ⟨_, hfirst, hsecond⟩
      · exact ih hs ha

/-- Each type declaration is about a type of the table. -/
theorem exists_entry {p : PlacedPart} (hp : p ∈ u.placed references) :
    ∃ t ∈ (u.bind references).table.types, t.identity = p.identity := by
  have hpart : p.toTypePart ∈ u.parts := by
    rw [← u.placed_parts references]
    exact List.mem_map_of_mem hp
  have hmem : p.identity ∈ (u.bind references).table.types.map (·.identity) := by
    rw [u.table_identities references, List.mem_eraseDups]
    exact List.mem_map_of_mem hpart
  obtain ⟨t, ht, hidentity⟩ := List.mem_map.mp hmem
  exact ⟨t, ht, hidentity⟩

def Keeps (symbols : Symbols) (d : DeclaredMember) (m : MemberEntry) : Prop :=
  ∀ t ∈ d.type, m.typeName = some (fullText symbols d.place t)

section

variable {e : Extent} (he : ∀ name, e.hasName name → IsName name) (hu : u.StandsIn e)

include he hu

theorem placed_unmarked : ∀ p ∈ u.placed references, p.Within Unmarked :=
  u.placed_within references ((words_stand hu).closed he)

/-- Members keep type arguments where they are written only if these are behind last parts. -/
theorem argumentsLast_of_keeps
    (hkeeps : ∀ t ∈ (u.bind references).table.types,
      List.Forall₂ (Keeps (u.symbols references)) (u.declaredIn references t) t.members) :
    ∀ p ∈ u.placed references, ∀ d ∈ p.declares, ∀ t ∈ d.type, t.ArgumentsLast := by
  intro p hp d hd written hwritten
  obtain ⟨t, ht, hidentity⟩ := exists_entry hp
  have hdeclared : d ∈ u.declaredIn references t := by
    apply List.mem_flatMap.mpr
    exact ⟨p, List.mem_filter.mpr ⟨hp, beq_iff_eq.mpr hidentity.symm⟩, hd⟩
  obtain ⟨m, ⟨q, -, -, hentry⟩, hkept⟩ :=
    exists_of_mem_both (u.table_declared references ht) (hkeeps t ht) hdeclared
  have hfound : (bindType (u.symbols references) d.place written).value =
      some (fullText (u.symbols references) d.place written) := by
    rw [← hentry.typed written hwritten, hkept written hwritten]
  have hwithin := PlacedPart.declares_within (placed_unmarked he hu p hp).inside hd
  have hstands := PlacedPart.declares_stand (placed_stands hu p hp) hd written hwritten
  exact argumentsLast_of_unjoined
    (bindType_unjoined (fun name hname => (he name hname).unmarked) hwithin hstands hfound)

variable (hlast : ∀ p ∈ u.placed references, ∀ d ∈ p.declares, ∀ t ∈ d.type, t.ArgumentsLast)

include hlast

theorem constructed_known {t : TypeEntry} (ht : t ∈ (u.bind references).table.types) {m : MemberEntry}
    (hm : m ∈ t.members) {name : String} (hname : name ∈ m.typeName) :
    ∀ type ∈ constructed name, u.HasType references type := by
  obtain ⟨d, -, p, hp, hd, hentry⟩ := exists_of_mem_right (u.table_declared references ht) hm
  have hplaced := placed_unmarked he hu p hp
  have hreads : TypeText.Reads (· ∈ (u.symbols references).types) name.toList := by
    cases hwritten : d.type with
    | none =>
      -- Only the value of an enumeration has a type that is not written: the enumeration itself.
      rcases hentry.untyped hwritten with hnone | hfull
      · rw [hnone] at hname
        cases hname
      · rw [hfull] at hname
        cases hname
        exact TypeText.reads_unmarked hplaced.full
    | some written =>
      have hfound := hentry.typed written hwritten
      rw [hname] at hfound
      exact bindType_reads (fun name hname => (he name hname).unmarked)
        (PlacedPart.declares_within hplaced.inside hd)
        (PlacedPart.declares_stand (placed_stands hu p hp) hd written hwritten)
        (hlast p hp d hd written hwritten) hfound.symm
  exact fun type htype => hasType_of_mem (hreads.constructed_known type htype)

omit he hu in
theorem keeps_of_argumentsLast
    (h : ∀ d ∈ (u.bind references).diagnostics, d.severity ≠ .error) {t : TypeEntry}
    (ht : t ∈ (u.bind references).table.types) :
    List.Forall₂ (Keeps (u.symbols references)) (u.declaredIn references t) t.members := by
  apply (u.table_declared references ht).imp
  rintro d m ⟨p, hp, hd, hentry⟩ written hwritten
  obtain ⟨full, hfull⟩ := Option.isSome_iff_exists.mp (u.type_resolved references h hp hd hwritten)
  rw [hentry.typed written hwritten, hfull, bindType_text (hlast p hp d hd written hwritten) hfull]

end

/-- Where no error is reported of a source, all names with type arguments in the types of the
members of its table are known types that have as many type parameters, and all type arguments are
behind the parts that they are written behind, just if the source writes type arguments behind last
parts of names alone. -/
theorem constructed_iff (source : String) (references : List Assembly)
    (h : ∀ d ∈ ((SourceUnit.ofSource source).1.bind references).diagnostics, d.severity ≠ .error) :
    (∀ t ∈ ((SourceUnit.ofSource source).1.bind references).table.types,
      (∀ m ∈ t.members, ∀ name ∈ m.typeName, ∀ type ∈ constructed name,
        (SourceUnit.ofSource source).1.HasType references type) ∧
        List.Forall₂ (Keeps ((SourceUnit.ofSource source).1.symbols references))
          ((SourceUnit.ofSource source).1.declaredIn references t) t.members) ↔
      ∀ p ∈ (SourceUnit.ofSource source).1.placed references, ∀ d ∈ p.declares, ∀ t ∈ d.type,
        t.ArgumentsLast := by
  obtain ⟨hu, -⟩ := SourceUnit.ofSource_stands source
  have he : ∀ name, (Extent.ofSource source).hasName name → IsName name := fun _ hname => hname
  constructor
  · intro hkept
    exact argumentsLast_of_keeps he hu fun t ht => (hkept t ht).2
  · intro hlast t ht
    exact ⟨fun m hm name hname => constructed_known he hu hlast ht hm hname,
      keeps_of_argumentsLast hlast h ht⟩

def innerUnit : SourceUnit where
  imports := []
  members :=
    [.type (plainHead [] "Outer" [] 1) [.nested (plainHead [] "Inner" ["T"] 1) []],
      .type (plainHead [] "C" [] 2)
        [fieldOf (.named [("Outer", []), ("Inner", [.predefined "int" 2])] false 2) "f" 2]]

def innerSource : String :=
  "class Outer \x7b class Inner<T> \x7b \x7d \x7d\nclass C \x7b Outer.Inner<int> f; \x7d\n"

theorem ofSource_inner : SourceUnit.ofSource innerSource = (innerUnit, []) := by decide +kernel

theorem inner_silent :
    ∀ d ∈ ((SourceUnit.ofSource innerSource).1.bind []).diagnostics, d.severity ≠ .error := by
  have hnone : (innerUnit.bind []).diagnostics = [] := by
    simp only [innerUnit, fieldOf, bind, symbols, Symbols.ofUnit, bindUnit, bindDeclarations,
      declaredScopes, declaredTypes, declaredType, declaredMembers]
    decide +kernel
  rw [ofSource_inner, hnone]
  exact List.forall_mem_nil _

theorem inner_argumentsLast :
    ∀ p ∈ innerUnit.placed [], ∀ d ∈ p.declares, ∀ t ∈ d.type, t.ArgumentsLast := by
  have hwritten : ((innerUnit.placed []).flatMap (·.declares)).filterMap (·.type) =
      [.named [("Outer", []), ("Inner", [.predefined "int" 2])] false 2] := by
    simp only [innerUnit, placed, Declaration.allPlacedIn]
    decide +kernel
  intro p hp d hd t ht
  have hmem : t ∈ ((innerUnit.placed []).flatMap (·.declares)).filterMap (·.type) :=
    List.mem_filterMap.mpr ⟨d, List.mem_flatMap.mpr ⟨p, hp, hd⟩, ht⟩
  rw [hwritten] at hmem
  cases List.mem_singleton.mp hmem
  apply TypeExpr.argumentsLast_named false 2 (by decide)
  simp [TypeExpr.argumentsLast_predefined]

theorem inner_constructed :
    (∀ d ∈ ((SourceUnit.ofSource innerSource).1.bind []).diagnostics, d.severity ≠ .error) ∧
      ∀ t ∈ ((SourceUnit.ofSource innerSource).1.bind []).table.types,
        (∀ m ∈ t.members, ∀ name ∈ m.typeName, ∀ type ∈ constructed name,
          (SourceUnit.ofSource innerSource).1.HasType [] type) ∧
          List.Forall₂ (Keeps ((SourceUnit.ofSource innerSource).1.symbols []))
            ((SourceUnit.ofSource innerSource).1.declaredIn [] t) t.members := by
  refine ⟨inner_silent, (constructed_iff innerSource [] inner_silent).mpr ?_⟩
  rw [ofSource_inner]
  exact inner_argumentsLast

def outerUnit : SourceUnit where
  imports := []
  members :=
    [.type (plainHead [] "Outer" ["T"] 1) [.nested (plainHead [] "Inner" [] 1) []],
      .type (plainHead [] "C" [] 2)
        [fieldOf (.named [("Outer", [.predefined "int" 2]), ("Inner", [])] false 2) "f" 2]]

def outerSource : String :=
  "class Outer<T> \x7b class Inner \x7b \x7d \x7d\nclass C \x7b Outer<int>.Inner f; \x7d\n"

theorem ofSource_outer : SourceUnit.ofSource outerSource = (outerUnit, []) := by decide +kernel

/-- Nothing is reported, and the field has a type with a type argument behind a class that has no type
parameters. -/
theorem outer_argument_moved :
    (SourceUnit.ofSource outerSource).2 = [] ∧
      ((SourceUnit.ofSource outerSource).1.bind []).diagnostics = [] ∧
      (∃ t ∈ ((SourceUnit.ofSource outerSource).1.bind []).table.types, ∃ m ∈ t.members,
        m.typeName = some "Outer.Inner<int>") ∧
      constructed "Outer.Inner<int>" = [("Outer.Inner", 1)] ∧
      ¬(SourceUnit.ofSource outerSource).1.HasType [] ("Outer.Inner", 1) := by
  rw [ofSource_outer]
  obtain ⟨hnone, htypes⟩ : (outerUnit.bind []).diagnostics = [] ∧
      ((outerUnit.bind []).table.types.flatMap (·.members)).map (·.typeName) =
        [some "Outer.Inner<int>"] := by
    simp only [outerUnit, fieldOf, bind, symbols, Symbols.ofUnit, bindUnit, bindDeclarations,
      declaredScopes, declaredTypes, declaredType, declaredMembers]
    decide +kernel
  have hdeclared : (declaredTypes "" outerUnit.members).map (fun d => (d.fullName, d.arity)) =
      [("Outer", 1), ("Outer.Inner", 0), ("C", 0)] := by
    simp only [outerUnit, fieldOf, declaredTypes, declaredType, declaredMembers]
    rfl
  refine ⟨rfl, hnone, ?_, by decide +kernel, ?_⟩
  · have hmem : some "Outer.Inner<int>" ∈
        ((outerUnit.bind []).table.types.flatMap (·.members)).map (·.typeName) := by
      rw [htypes]
      exact List.mem_cons_self
    obtain ⟨m, hm, hname⟩ := List.mem_map.mp hmem
    obtain ⟨t, ht, hm⟩ := List.mem_flatMap.mp hm
    exact ⟨t, ht, m, hm, hname⟩
  · rintro (⟨d, hd, htype⟩ | ⟨t, ht, -⟩)
    · have hmem := List.mem_map_of_mem (f := fun d => (d.fullName, d.arity)) hd
      rw [hdeclared, htype] at hmem
      exact absurd hmem (by decide)
    · cases ht

end SourceUnit

end DataClasses

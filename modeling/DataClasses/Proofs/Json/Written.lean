import DataClasses.Proofs.Entries
import DataClasses.Proofs.Json.Grammar

/-!
# Values read back from their text

A value is read by a schema from the text that it is written as. There is one rule for each kind of
schema; what is read is the normal form, in which fields that were left out have their defaults.
-/

set_option autoImplicit false

namespace DataClasses.Json

variable {α : Type}

theorem quote_toList (text : String) :
    (quote text).toList = '"' :: (text.toList.flatMap quoteChar ++ ['"']) := by
  simp [quote]

def indentation (depth : Nat) : List Char := '\n' :: List.replicate (2 * depth) ' '

theorem newline_toList (depth : Nat) : (newline depth).toList = indentation depth := by
  simp [newline, indentation]

theorem isSpace_of_mem_indentation {depth : Nat} {c : Char} (h : c ∈ indentation depth) :
    Reader.isSpace c = true := by
  rcases List.mem_cons.mp h with rfl | h
  · decide
  · rw [List.eq_of_mem_replicate h]
    decide

/-- What stands in a block behind some of its entries, or behind its opening bracket if it is
`fresh`. -/
def blockRest (depth : Nat) (closing : Char) : Bool → List (List Char) → List Char
  | fresh, [] => (if fresh then [] else indentation depth) ++ [closing]
  | fresh, entry :: entries =>
    (if fresh then [] else [',']) ++ (indentation (depth + 1) ++
      (entry ++ blockRest depth closing false entries))

theorem block_toList (opening closing : Char) (depth : Nat) (entries : List String) :
    (block (String.singleton opening) (String.singleton closing) depth entries).toList =
      opening :: blockRest depth closing true (entries.map String.toList) := by
  have hmore (entry : String) (entries : List String) :
      (("," ++ newline (depth + 1)).intercalate (entry :: entries)).toList ++
          (indentation depth ++ [closing]) =
        entry.toList ++ blockRest depth closing false (entries.map String.toList) := by
    induction entries generalizing entry with
    | nil => simp [blockRest]
    | cons next entries ih =>
      have hnext := ih next
      rw [String.toList_intercalate] at hnext ⊢
      simp only [List.map_cons, List.intercalate_cons_cons, List.append_assoc] at hnext ⊢
      rw [hnext]
      simp [blockRest, newline_toList]
  cases entries with
  | nil => simp [block, blockRest]
  | cons entry entries =>
    have h := hmore entry entries
    simp only [block, List.isEmpty_cons, Bool.false_eq_true, if_false, String.toList_append,
      String.toList_singleton, newline_toList, List.append_assoc, h, List.map_cons, blockRest,
      if_true, List.nil_append, List.cons_append]

theorem prettyItems_eq (depth : Nat) (items : List Json) :
    prettyItems depth items = items.map (prettyAt depth) := by
  induction items with
  | nil => rfl
  | cons v items ih => rw [prettyItems, ih, List.map_cons]

theorem prettyMembers_eq (depth : Nat) (members : List (String × Json)) :
    prettyMembers depth members =
      members.map fun e => quote e.1 ++ ": " ++ prettyAt depth e.2 := by
  induction members with
  | nil => rfl
  | cons e members ih => rw [prettyMembers, ih, List.map_cons]

theorem prettyAt_arr (depth : Nat) (items : List Json) :
    (prettyAt depth (.arr items)).toList = '[' :: blockRest depth ']' true
      (items.map fun v => (prettyAt (depth + 1) v).toList) := by
  rw [prettyAt, prettyItems_eq]
  exact (block_toList '[' ']' depth _).trans (by rw [List.map_map]; rfl)

theorem prettyAt_obj (depth : Nat) (members : List (String × Json)) :
    (prettyAt depth (.obj members)).toList = '{' :: blockRest depth '}' true
      (members.map fun e =>
        (quote e.1).toList ++ (':' :: ' ' :: (prettyAt (depth + 1) e.2).toList)) := by
  rw [prettyAt, prettyMembers_eq]
  refine (block_toList '{' '}' depth _).trans ?_
  simp [List.map_map, Function.comp_def]

/-- The characters that no value that is read by a schema begins with: blanks, the end of a list, and
the beginning of `null`. -/
def notFirst : List Char := [' ', '\n', '\t', '\r', ']', 'n']

theorem isSpace_of_first {c : Char} (h : c ∉ notFirst) : Reader.isSpace c = false := by
  simp [notFirst] at h
  simp [Reader.isSpace, h]

structure Schema.Writes (schema : Schema) (v normal : Json) : Prop where
  opens : ∀ depth, ∃ c ∈ (prettyAt depth v).toList.head?, c ∉ notFirst
  reads : ∀ depth spaces left, (∀ c ∈ spaces, Reader.isSpace c = true) → Ends left →
    Reads schema.reader (spaces ++ ((prettyAt depth v).toList ++ left)) left normal

theorem textReader_reads (expected text : String) (spaces : List Char)
    (hspaces : ∀ c ∈ spaces, Reader.isSpace c = true) (left : List Char) :
    Reads (textReader expected) (spaces ++ ((quote text).toList ++ left)) left text := by
  rw [quote_toList, List.cons_append, List.append_assoc]
  exact (next?_reads hspaces (by decide) _).bind ((Reads.skip _ _).bind (quotedRest_reads text left))

/-- The digits of a number that fits a byte. -/
theorem byteDigits {n : Nat} (h : n < 256) :
    ∃ d ds, (toString (n : Int)).toList = d :: ds ∧ d.isDigit = true ∧
      (∀ c ∈ ds, c.isDigit = true) ∧
      (d = '0' → ds = []) ∧ gather wordLimit 0 (d :: ds) = (n, (d :: ds).length) := by
  have hall : ((List.range 256).all fun m =>
      let text := (toString (m : Int)).toList
      text.head?.any Char.isDigit && text.tail.all Char.isDigit &&
        (text.head? != some '0' || text.tail.isEmpty) &&
        gather wordLimit 0 text == (m, text.length)) = true := by
    decide +kernel
  have hn := List.all_eq_true.mp hall n (List.mem_range.mpr h)
  cases htext : (toString (n : Int)).toList with
  | nil =>
    simp only [htext, List.head?_nil, Option.any_none, Bool.false_and] at hn
    exact absurd hn Bool.false_ne_true
  | cons d ds =>
    simp only [htext, List.head?_cons, List.tail_cons, Option.any_some, Bool.and_eq_true, beq_iff_eq,
      List.all_eq_true, Bool.or_eq_true, bne_iff_ne, Ne, Option.some.injEq, List.isEmpty_iff] at hn
    obtain ⟨⟨⟨hd, hds⟩, hzero⟩, hvalue⟩ := hn
    exact ⟨d, ds, rfl, hd, hds, hzero.resolve_left ∘ not_not_intro, hvalue⟩

/-- A number that fits a byte is read back from its digits. -/
theorem byte_reads {n : Nat} (h : n < 256) {left : List Char} (hleft : Ends left) :
    Reads number ((toString (n : Int)).toList ++ left) left (.integer n) := by
  obtain ⟨d, ds, htext, hd, hds, hzero, hvalue⟩ := byteDigits h
  rw [htext]
  refine number_reads (n := ⟨false, d :: ds, [], none⟩) ?_ ?_ hleft
  · refine ⟨[], [], by simp [signOf],
      ⟨⟨by simp, List.forall_mem_cons.mpr ⟨hd, hds⟩⟩, ?_⟩, .inl ⟨rfl, rfl⟩,
      .inl ⟨rfl, rfl⟩⟩
    intro hfirst
    rw [hzero (Option.some.inj hfirst), Option.some.inj hfirst]
  · simp [Numeral.value, hvalue, Numeral.isWhole]

namespace Schema.Writes

variable {schema : Schema} {v normal : Json}

theorem text (s : String) : Schema.text.Writes (.str s) (.str s) where
  opens depth := ⟨'"', by simp [prettyAt, quote_toList], by decide⟩
  reads depth spaces left hspaces _ := (textReader_reads _ s spaces hspaces left).map Json.str

theorem flag (b : Bool) : Schema.flag.Writes (.bool b) (.bool b) := by
  cases b with
  | false =>
    refine ⟨fun depth => ⟨'f', by simp [prettyAt, boolText], by decide⟩,
      fun depth spaces left hspaces _ => ?_⟩
    rw [show (prettyAt depth (.bool false)).toList = 'f' :: "alse".toList by rw [prettyAt]; rfl]
    refine (next?_reads hspaces (by decide) ("alse".toList ++ left)).bind ?_
    exact keyword_reads "alse".toList _ left
  | true =>
    refine ⟨fun depth => ⟨'t', by simp [prettyAt, boolText], by decide⟩,
      fun depth spaces left hspaces _ => ?_⟩
    rw [show (prettyAt depth (.bool true)).toList = 't' :: "rue".toList by rw [prettyAt]; rfl]
    refine (next?_reads hspaces (by decide) ("rue".toList ++ left)).bind ?_
    exact keyword_reads "rue".toList _ left

theorem choice {names : List String} {name : String} (h : name ∈ names) :
    (Schema.choice names).Writes (.str name) (.str name) where
  opens depth := ⟨'"', by simp [prettyAt, quote_toList], by decide⟩
  reads depth spaces left hspaces _ := by
    have hname : Reads (variantName "variant identifier" names)
        ((quote name).toList ++ left) left name := by
      have htext := textReader_reads "variant identifier" name [] isSpaces_nil left
      rw [List.nil_append] at htext
      refine htext.bind ?_
      rw [if_pos (by simpa using h)]
      exact .pure name left
    have hfirst : (prettyAt depth (.str name)).toList ++ left =
        '"' :: (name.toList.flatMap quoteChar ++ ['"'] ++ left) := by
      rw [prettyAt, quote_toList, List.cons_append]
    rw [hfirst]
    refine (next?_reads hspaces (by decide) _).bind ?_
    rw [← hfirst, prettyAt]
    exact hname.bind (.pure _ left)

theorem optional (h : schema.Writes v normal) : (Schema.optional schema).Writes v normal where
  opens := h.opens
  reads depth spaces left hspaces hleft := by
    obtain ⟨c, hc, hfirst⟩ := h.opens depth
    have hread := h.reads depth [] left (by simp) hleft
    obtain ⟨cs, hcs⟩ : ∃ cs, (prettyAt depth v).toList = c :: cs := List.head?_eq_some_iff.mp hc
    rw [hcs, List.cons_append] at hread ⊢
    refine (next?_reads hspaces (isSpace_of_first hfirst) _).bind ?_
    split
    · next hnull =>
      obtain rfl := Option.some.inj hnull
      exact absurd (by decide) hfirst
    · exact hread

theorem byte {n : Nat} (h : n < 256) : Schema.byte.Writes (.integer n) (.integer n) := by
  obtain ⟨d, ds, htext, hd, -⟩ := byteDigits h
  have hfirst : d ∉ notFirst := by
    have hall : notFirst.all (fun c => !c.isDigit) = true := by decide
    intro hmem
    have hnot := List.all_eq_true.mp hall d hmem
    rw [hd] at hnot
    contradiction
  refine ⟨fun depth => ⟨d, by rw [prettyAt, htext]; rfl, hfirst⟩,
    fun depth spaces left hspaces hleft => ?_⟩
  have hread := byte_reads h hleft
  rw [prettyAt]
  rw [htext] at hread ⊢
  refine (next?_reads hspaces (isSpace_of_first hfirst) _).bind ?_
  simp only [hd, Bool.or_true, if_true]
  refine hread.bind ?_
  have : byteOf n = .ok (.integer n) := by
    rw [byteOf, if_pos (by simp; omega)]
  simp only [this]
  exact .pure _ left

end Schema.Writes

theorem isLead_block (fresh : Bool) (depth : Nat) :
    IsLead fresh ((if fresh then [] else [',']) ++ indentation depth) := by
  have hspaces : IsSpaces (indentation depth) := fun _ => isSpace_of_mem_indentation
  cases fresh with
  | true => exact hspaces
  | false => exact ⟨[], indentation depth, rfl, isSpaces_nil, hspaces⟩

/-- A block is its entries with what stands before each of them, and the closing bracket. -/
theorem blockRest_items {ι : Type} (depth : Nat) (closing : Char) (body : ι → List Char) (fresh : Bool)
    (items : List ι) :
    ∃ text spaces, Items (fun code i => body i = code) fresh text items ∧ IsSpaces spaces ∧
      ∀ left, blockRest depth closing fresh (items.map body) ++ left =
        text ++ (spaces ++ closing :: left) := by
  induction items generalizing fresh with
  | nil =>
    refine ⟨[], if fresh then [] else indentation depth, .nil fresh, ?_, fun left => by simp [blockRest]⟩
    cases fresh with
    | true => exact isSpaces_nil
    | false => exact fun _ => isSpace_of_mem_indentation
  | cons i items ih =>
    obtain ⟨text, spaces, hitems, hspaces, hrest⟩ := ih false
    refine ⟨_, spaces, .cons (isLead_block fresh (depth + 1)) rfl hitems, hspaces, fun left => ?_⟩
    simp only [List.map_cons, blockRest, List.append_assoc, hrest]

theorem opens_of_first {c : Char} {cs : List Char} (h : c ∉ notFirst) : Opens (c :: cs) := by
  refine ⟨c, rfl, isSpace_of_first h, ?_⟩
  rintro rfl
  exact h (by decide)

theorem quoted_key_reads (k : String) (left : List Char) :
    Reads key ('"' :: (k.toList.flatMap quoteChar ++ '"' :: left)) left k := by
  have h := key_reads (quoted_flatMap k.toList) left
  rwa [String.ofList_toList] at h

namespace Schema.Writes

variable {schema : Schema}

/-- A list with items `v` that are read as `normal`. -/
theorem list (items : List (Json × Json)) (h : ∀ i ∈ items, schema.Writes i.1 i.2) :
    (Schema.list schema).Writes (.arr (items.map (·.1))) (.arr (items.map (·.2))) where
  opens depth := ⟨'[', by simp [prettyAt_arr], by decide⟩
  reads depth spaces left hspaces _ := by
    let add (acc : List Json) (i : Json × Json) : List Json := i.2 :: acc
    have hfold (acc : List Json) : (items.foldl add acc).reverse = acc.reverse ++ items.map (·.2) := by
      simp [add]
    obtain ⟨text, close, hitems, hclose, hblock⟩ := blockRest_items depth ']'
      (fun i : Json × Json => (prettyAt (depth + 1) i.1).toList) true items
    rw [prettyAt_arr, List.map_map, Function.comp_def, List.cons_append, hblock]
    refine (next?_reads hspaces (by decide) _).bind ((Reads.skip _ _).bind ?_)
    rw [← List.nil_append (items.map (·.2)), ← List.reverse_nil, ← hfold]
    refine hitems.reads add (fun acc => Json.arr acc.reverse)
      (fun fresh acc rest => acc.isEmpty = fresh ∧ ∀ i ∈ rest, schema.Writes i.1 i.2)
      ?_ ?_ (hclose.ends (ends_cons (by decide))) ⟨rfl, h⟩
    · rintro _ acc i rest lead _ tail ⟨rfl, hrest⟩ hlead rfl htail
      obtain ⟨hi, hrest⟩ := List.forall_mem_cons.mp hrest
      obtain ⟨c, hc, hfirst⟩ := hi.opens (depth + 1)
      obtain ⟨cs, hcs⟩ := List.head?_eq_some_iff.mp hc
      have hread := hi.reads (depth + 1) [] tail isSpaces_nil htail
      rw [hcs] at hread ⊢
      exact ⟨⟨rfl, hrest⟩, List.cons_ne_nil _ _,
        (hasElement_reads hlead (opens_of_first hfirst)).bind (hread.bind (.pure _ tail))⟩
    · rintro _ acc ⟨rfl, -⟩
      exact (hasElement_ends acc.isEmpty hclose).bind ((endList_reads left).bind (.pure _ left))

def memberText (depth : Nat) (m : String × Json × Json) : List Char :=
  (quote m.1).toList ++ (':' :: ' ' :: (prettyAt (depth + 1) m.2.1).toList)

theorem memberText_append (depth : Nat) (m : String × Json × Json) (tail : List Char) :
    memberText depth m ++ tail = '"' :: (m.1.toList.flatMap quoteChar ++ '"' ::
      (':' :: ([' '] ++ ((prettyAt (depth + 1) m.2.1).toList ++ tail)))) := by
  simp [memberText, quote_toList]

theorem memberText_ne_nil (depth : Nat) (m : String × Json × Json) : memberText depth m ≠ [] := by
  simp [memberText]

/-- The text of an object: its members with what stands before each of them, between braces. -/
theorem object_text (depth : Nat) (members : List (String × Json × Json)) :
    ∃ text close, Items (fun code m => memberText depth m = code) true text members ∧ IsSpaces close ∧
      ∀ left, (prettyAt depth (.obj (members.map fun m => (m.1, m.2.1)))).toList ++ left =
        '{' :: (text ++ (close ++ '}' :: left)) := by
  obtain ⟨text, close, hitems, hclose, hblock⟩ :=
    blockRest_items depth '}' (memberText depth) true members
  refine ⟨text, close, hitems, hclose, fun left => ?_⟩
  rw [prettyAt_obj, List.map_map, List.cons_append]
  exact congrArg ('{' :: ·) (hblock left)

def addMember (x : Bool × Entries Json) (m : String × Json × Json) : Bool × Entries Json :=
  (false, x.2.put m.1 m.2.2)

/-- A member with a key of its own is put behind the others, and the keys remain distinct. -/
theorem addMember_new {m : String × Json × Json} {members : List (String × Json × Json)}
    {x : Bool × Entries Json} (h : (x.2.map (·.1) ++ (m :: members).map (·.1)).Nodup) :
    m.1 ∉ x.2.map (·.1) ∧ (addMember x m).2 = x.2 ++ [(m.1, m.2.2)] ∧
      ((addMember x m).2.map (·.1) ++ members.map (·.1)).Nodup := by
  have hnew : m.1 ∉ x.2.map (·.1) := fun hmem =>
    (List.nodup_append.mp h).2.2 _ hmem _ List.mem_cons_self rfl
  have hput : (addMember x m).2 = x.2 ++ [(m.1, m.2.2)] := Entries.put_of_new hnew
  exact ⟨hnew, hput, by simpa [hput] using h⟩

theorem foldl_addMember {members : List (String × Json × Json)} {x : Bool × Entries Json}
    (h : (x.2.map (·.1) ++ members.map (·.1)).Nodup) :
    (members.foldl addMember x).2 = x.2 ++ members.map fun m => (m.1, m.2.2) := by
  induction members generalizing x with
  | nil => simp
  | cons m members ih =>
    obtain ⟨-, hput, hdistinct⟩ := addMember_new h
    rw [List.foldl_cons, ih hdistinct, hput]
    simp

/-- An object with members `v` that are read as `normal`. -/
theorem dictionary (members : List (String × Json × Json)) (hkeys : (members.map (·.1)).Nodup)
    (h : ∀ m ∈ members, schema.Writes m.2.1 m.2.2) :
    (Schema.dictionary schema).Writes (.obj (members.map fun m => (m.1, m.2.1)))
      (.obj (members.map fun m => (m.1, m.2.2))) where
  opens depth := ⟨'{', by simp [prettyAt_obj], by decide⟩
  reads depth spaces left hspaces _ := by
    obtain ⟨text, close, hitems, hclose, htext⟩ := object_text depth members
    rw [htext]
    refine (next?_reads hspaces (by decide) _).bind ((Reads.skip _ _).bind ?_)
    rw [← List.nil_append (members.map fun m => (m.1, m.2.2)),
      ← foldl_addMember (x := (true, [])) (by simpa using hkeys)]
    refine hitems.reads addMember (fun x => Json.obj x.2)
      (fun fresh x rest => x.1 = fresh ∧ ∀ m ∈ rest, schema.Writes m.2.1 m.2.2)
      ?_ ?_ (hclose.ends (ends_cons (by decide))) ⟨rfl, h⟩
    · rintro _ x m rest lead _ tail ⟨rfl, hrest⟩ hlead rfl htail
      obtain ⟨hm, hrest⟩ := List.forall_mem_cons.mp hrest
      refine ⟨⟨rfl, hrest⟩, memberText_ne_nil depth m, ?_⟩
      rw [memberText_append]
      refine (hasKey_reads hlead _).bind ((quoted_key_reads m.1 _).bind ((colon_reads isSpaces_nil).bind ?_))
      exact (hm.reads (depth + 1) [' '] tail isSpaces_single htail).bind (.pure _ tail)
    · rintro _ x ⟨rfl, -⟩
      exact (hasKey_ends x.1 hclose).bind ((endObject_reads left).bind (.pure _ left))

theorem find?_fieldReaders (fields : List (String × Schema × Option Json)) (name : String) :
    (fieldReaders fields).find? (·.name == name) =
      (fields.find? (·.1 == name)).map fun f => ⟨f.1, f.2.1.reader, f.2.2⟩ := by
  induction fields with
  | nil => rfl
  | cons f fields ih =>
    rw [fieldReaders, List.find?_cons, List.find?_cons]
    split <;> simp [*]

/-- The fields that a record is written with, `v` read as `normal`, are completed by the defaults. -/
theorem record {name : String} {fields : List (String × Schema × Option Json)} {all : Entries Json}
    (members : List (String × Json × Json)) (hkeys : (members.map (·.1)).Nodup)
    (h : ∀ m ∈ members, ∃ f ∈ fields.find? (·.1 == m.1), f.2.1.Writes m.2.1 m.2.2)
    (hfill : fill (members.map fun m => (m.1, m.2.2)) (fieldReaders fields) = .ok all) :
    (Schema.record name fields).Writes (.obj (members.map fun m => (m.1, m.2.1))) (.obj all) where
  opens depth := ⟨'{', by simp [prettyAt_obj], by decide⟩
  reads depth spaces left hspaces _ := by
    obtain ⟨text, close, hitems, hclose, htext⟩ := object_text depth members
    rw [htext]
    refine (next?_reads hspaces (by decide) _).bind ((Reads.skip _ _).bind ?_)
    have hfields : Reads (fieldsRest (fieldReaders fields)) (text ++ (close ++ '}' :: left))
        ('}' :: left) (members.map fun m => (m.1, m.2.2)) := by
      rw [← List.nil_append (members.map fun m => (m.1, m.2.2)),
        ← foldl_addMember (x := (true, [])) (by simpa using hkeys)]
      refine hitems.reads addMember (fun x => x.2)
        (fun fresh x rest => x.1 = fresh ∧ (x.2.map (·.1) ++ rest.map (·.1)).Nodup ∧
          ∀ m ∈ rest, ∃ f ∈ fields.find? (·.1 == m.1), f.2.1.Writes m.2.1 m.2.2)
        ?_ ?_ (hclose.ends (ends_cons (by decide))) ⟨rfl, by simpa using hkeys, h⟩
      · rintro _ x m rest lead _ tail ⟨rfl, hdistinct, hrest⟩ hlead rfl htail
        obtain ⟨⟨f, hf, hm⟩, hrest⟩ := List.forall_mem_cons.mp hrest
        obtain ⟨hnew, -, hdistinct⟩ := addMember_new hdistinct
        refine ⟨⟨rfl, hdistinct, hrest⟩, memberText_ne_nil depth m, ?_⟩
        rw [memberText_append]
        refine (hasKey_reads hlead _).bind ((quoted_key_reads m.1 _).bind ?_)
        have hhas : Entries.has x.2 m.1 = false := by
          rw [Bool.eq_false_iff, Ne, Entries.has_iff]
          exact hnew
        simp only [find?_fieldReaders, Option.mem_def.mp hf, Option.map_some, hhas]
        refine (colon_reads isSpaces_nil).bind ?_
        exact (hm.reads (depth + 1) [' '] tail isSpaces_single htail).bind (.pure _ tail)
      · rintro _ x ⟨rfl, -⟩
        exact (hasKey_ends x.1 hclose).bind (.pure _ _)
    refine hfields.bind ?_
    rw [hfill]
    exact (endObject_reads left).bind (.pure _ left)

end Schema.Writes

/-- A record of these fields is written as some members and read as others: those that are written,
and the defaults of those that are left out. -/
inductive Fields : List (String × Schema × Option Json) → Entries Json → Entries Json → Prop where
  | nil : Fields [] [] []
  | written {fields : List (String × Schema × Option Json)} {members all : Entries Json}
      {schema : Schema} {v normal : Json} (name : String) (fallback : Option Json)
      (h : schema.Writes v normal) (hrest : Fields fields members all) :
      Fields ((name, schema, fallback) :: fields) ((name, v) :: members) ((name, normal) :: all)
  | omitted {fields : List (String × Schema × Option Json)} {members all : Entries Json}
      (name : String) (schema : Schema) (default : Json) (hrest : Fields fields members all) :
      Fields ((name, schema, some default) :: fields) members ((name, default) :: all)

theorem get?_before {before after : Entries Json} {name : String} (h : name ∉ before.map (·.1)) :
    Entries.get? (before ++ after) name = after.get? name := by
  have hnone : before.find? (·.1 == name) = none := by
    simpa [Entries.get?] using Entries.get?_eq_none_iff.mpr h
  rw [Entries.get?, List.find?_append, hnone, Option.none_or]
  rfl

namespace Fields

variable {fields : List (String × Schema × Option Json)} {members all : Entries Json}

/-- A further field has another name than those that are read, so it does not stand for them. -/
theorem writes_cons {name : String} {read : List (String × Json × Json)} (f : Schema × Option Json)
    (hname : name ∉ fields.map (·.1)) (hsub : (read.map (·.1)).Sublist (fields.map (·.1)))
    (hwrites : ∀ m ∈ read, ∃ g ∈ fields.find? (·.1 == m.1), g.2.1.Writes m.2.1 m.2.2) :
    ∀ m ∈ read, ∃ g ∈ ((name, f) :: fields).find? (·.1 == m.1), g.2.1.Writes m.2.1 m.2.2 := by
  intro m hm
  have hother : name ≠ m.1 := by
    rintro rfl
    exact hname (hsub.subset (List.mem_map_of_mem hm))
  simpa [List.find?_cons, hother] using hwrites m hm

/-- The written fields, each with what is written and what is read, are completed to the whole record,
also when others stand before them. -/
theorem exists_read (h : Fields fields members all) (hnames : (fields.map (·.1)).Nodup) :
    ∃ read : List (String × Json × Json), (read.map fun m => (m.1, m.2.1)) = members ∧
      (read.map (·.1)).Sublist (fields.map (·.1)) ∧
      (∀ m ∈ read, ∃ f ∈ fields.find? (·.1 == m.1), f.2.1.Writes m.2.1 m.2.2) ∧
      ∀ before : Entries Json, (∀ name ∈ before.map (·.1), name ∉ fields.map (·.1)) →
        fill (before ++ read.map fun m => (m.1, m.2.2)) (fieldReaders fields) = .ok all := by
  induction h with
  | nil => exact ⟨[], rfl, .slnil, by simp, fun _ _ => rfl⟩
  | @written fields members all schema v normal name fallback h hrest ih =>
    rw [List.map_cons, List.nodup_cons] at hnames
    obtain ⟨read, hfrom, hsub, hwrites, hfill⟩ := ih hnames.2
    refine ⟨(name, v, normal) :: read, by simp [hfrom], hsub.cons_cons name, ?_, ?_⟩
    · exact List.forall_mem_cons.mpr
        ⟨⟨(name, schema, fallback), by simp, h⟩, writes_cons _ hnames.1 hsub hwrites⟩
    · intro before hbefore
      have hget : Entries.get? (before ++ (name, normal) :: read.map fun m => (m.1, m.2.2)) name =
          some normal := by
        rw [get?_before fun hmem => hbefore name hmem (by simp)]
        simp [Entries.get?]
      have hmore := hfill (before ++ [(name, normal)]) (by
        intro other hmem
        rcases List.mem_append.mp (List.map_append ▸ hmem) with hmem | hmem
        · exact fun hlist => hbefore other hmem (List.mem_cons_of_mem _ hlist)
        · rw [List.mem_singleton.mp hmem]
          exact hnames.1)
      rw [List.append_assoc, List.singleton_append] at hmore
      rw [List.map_cons, fieldReaders, fill, hget, hmore]
      rfl
  | @omitted fields members all name schema default hrest ih =>
    rw [List.map_cons, List.nodup_cons] at hnames
    obtain ⟨read, hfrom, hsub, hwrites, hfill⟩ := ih hnames.2
    refine ⟨read, hfrom, hsub.cons name, writes_cons _ hnames.1 hsub hwrites, ?_⟩
    intro before hbefore
    have hget : Entries.get? (before ++ read.map fun m => (m.1, m.2.2)) name = none := by
      rw [Entries.get?_eq_none_iff, List.map_append, List.mem_append, List.map_map]
      rintro (hmem | hmem)
      · exact hbefore name hmem (by simp)
      · exact hnames.1 (hsub.subset hmem)
    have hmore := hfill before fun other hmem hlist =>
      hbefore other hmem (List.mem_cons_of_mem _ hlist)
    rw [fieldReaders, fill, hget, hmore]
    rfl

theorem writes (name : String) (h : Fields fields members all) (hnames : (fields.map (·.1)).Nodup) :
    (Schema.record name fields).Writes (.obj members) (.obj all) := by
  obtain ⟨read, rfl, hsub, hwrites, hfill⟩ := h.exists_read hnames
  exact .record read (hnames.sublist hsub) hwrites (hfill [] (by simp))

end Fields

/-- The text of a value is read by the schema as its normal form. -/
theorem Schema.Writes.parse {schema : Schema} {v normal : Json} (h : schema.Writes v normal) :
    schema.parse v.pretty = .ok normal := by
  have hread := h.reads 0 [] [] isSpaces_nil ends_nil
  rw [List.nil_append, List.append_nil] at hread
  exact readAll_of_reads hread isSpaces_nil

section

variable {schema : Schema} {toJson : α → Json} {ofJson : Json → α}

/-- Data comes back from its text: the schema reads the value it is written as, and what is read
stands for the same data. -/
def Schema.Keeps (schema : Schema) (toJson : α → Json) (ofJson : Json → α) (x : α) : Prop :=
  ∃ normal, schema.Writes (toJson x) normal ∧ ofJson normal = x

theorem Schema.Keeps.list {xs : List α} (h : ∀ x ∈ xs, schema.Keeps toJson ofJson x) :
    ∃ normals : List Json,
      (Schema.list schema).Writes (.arr (xs.map toJson)) (.arr normals) ∧ normals.map ofJson = xs := by
  have hitems : ∃ items : List (Json × Json), items.map (·.1) = xs.map toJson ∧
      (items.map (·.2)).map ofJson = xs ∧ ∀ i ∈ items, schema.Writes i.1 i.2 := by
    induction xs with
    | nil => exact ⟨[], rfl, rfl, by simp⟩
    | cons x xs ih =>
      obtain ⟨⟨normal, hwrites, hsame⟩, hrest⟩ := List.forall_mem_cons.mp h
      obtain ⟨items, hfrom, hto, hall⟩ := ih hrest
      exact ⟨(toJson x, normal) :: items, by simp [hfrom], by simp [hsame, hto],
        List.forall_mem_cons.mpr ⟨hwrites, hall⟩⟩
  obtain ⟨items, hfrom, hto, hall⟩ := hitems
  exact ⟨items.map (·.2), hfrom ▸ .list items hall, hto⟩

theorem Schema.Keeps.parse {x : α} (h : schema.Keeps toJson ofJson x) :
    (schema.parse (toJson x).pretty).map ofJson = .ok x := by
  obtain ⟨normal, hwrites, hsame⟩ := h
  rw [hwrites.parse, Except.map, hsame]

end

end DataClasses.Json

import DataClasses.Generation
import DataClasses.Proofs.Identifier.Alphabet
import DataClasses.Proofs.Json.Grammar

/-!
# Integers at any place of a document

How documents are written, and what is read of them. A whole number that 64 bits hold, with or without a
sign, is read as an integer wherever it stands, unless it is a zero with a minus sign.
-/

set_option autoImplicit false

namespace DataClasses

namespace Json

def IsMember (P : List Char → Json → Prop) (text : List Char) (m : String × Json) : Prop :=
  ∃ code key before behind inner,
    text = '"' :: (code ++ '"' :: (before ++ ':' :: (behind ++ inner))) ∧ Quoted code key ∧
      m.1 = String.ofList key ∧ IsSpaces before ∧ IsSpaces behind ∧ P inner m.2

/-- The members of an object: the last value of each key, at the place of the first. -/
def collect (members : List (String × Json)) : Entries Json :=
  members.foldl (fun found m => found.put m.1 m.2) []

inductive Spells (inner : Option (List Char → Json → Prop)) : List Char → Json → Prop where
  | null : Spells inner "null".toList .null
  | bool (b : Bool) : Spells inner (boolText b).toList (.bool b)
  | number {n : Numeral} {text : List Char} {v : Json} (h : n.IsText text) (hv : n.value = .ok v) :
      Spells inner text v
  | str {code cs : List Char} (h : Quoted code cs) :
      Spells inner ('"' :: (code ++ ['"'])) (.str (String.ofList cs))
  | arr {P : List Char → Json → Prop} {text spaces : List Char} {items : List Json}
      (hinner : inner = some P)
      (h : Items P true text items) (hspaces : IsSpaces spaces) :
      Spells inner ('[' :: (text ++ (spaces ++ [']']))) (.arr items)
  | obj {P : List Char → Json → Prop} {text spaces : List Char} {members : List (String × Json)}
      (hinner : inner = some P) (h : Items (IsMember P) true text members) (hspaces : IsSpaces spaces) :
      Spells inner ('{' :: (text ++ (spaces ++ ['}']))) (.obj (collect members))

def IsText : Nat → List Char → Json → Prop
  | 0 => Spells none
  | room + 1 => Spells (some (IsText room))

def IsRead (r : Reader Json) (text : List Char) (v : Json) : Prop :=
  Opens text ∧ ∀ spaces left, IsSpaces spaces → Ends left → Reads r (spaces ++ (text ++ left)) left v

section

variable {text left spaces : List Char} {v : Json}

theorem Opens.append (h : Opens text) (left : List Char) : Opens (text ++ left) := by
  obtain ⟨c, hc, hfirst⟩ := h
  obtain ⟨cs, rfl⟩ := List.head?_eq_some_iff.mp hc
  exact ⟨c, rfl, hfirst⟩

theorem Numeral.IsText.head {n : Numeral} (h : n.IsText text) :
    ∃ c cs, text = c :: cs ∧ (c == '-' || c.isDigit) = true := by
  obtain ⟨fraction, power, rfl, ⟨⟨hne, hds⟩, -⟩, -⟩ := h
  cases n.negative with
  | true => exact ⟨'-', _, rfl, rfl⟩
  | false =>
    obtain ⟨d, ds, hwhole⟩ := List.exists_cons_of_ne_nil hne
    rw [hwhole] at hds ⊢
    exact ⟨d, _, rfl, by rw [hds d List.mem_cons_self, Bool.or_true]⟩

theorem listRest_reads {P : List Char → Json → Prop} {r : Reader Json} {items : List Json}
    (hr : ∀ text v, P text v → IsRead r text v) (h : Items P true text items)
    (hspaces : IsSpaces spaces) :
    Reads (listRest r) (text ++ (spaces ++ ']' :: left)) left (.arr items) := by
  have hfold : (items.foldl (fun acc v => v :: acc) []).reverse = items := by simp
  rw [← hfold]
  refine h.reads (fun acc v => v :: acc) (fun acc => Json.arr acc.reverse)
    (fun first acc _ => acc.isEmpty = first) ?_ ?_ (hspaces.ends (ends_cons (c := ']') (by decide))) rfl
  · rintro _ acc v items lead text tail rfl hlead htext htail
    obtain ⟨hopens, hread⟩ := hr text v htext
    refine ⟨rfl, hopens.ne_nil, (hasElement_reads hlead (hopens.append tail)).bind ?_⟩
    exact (hread [] tail isSpaces_nil htail).bind (.pure _ tail)
  · rintro _ acc rfl
    exact (hasElement_ends acc.isEmpty hspaces).bind ((endList_reads left).bind (.pure _ left))

theorem objectRest_reads {P : List Char → Json → Prop} {r : Reader Json} {members : List (String × Json)}
    (hr : ∀ text v, P text v → IsRead r text v) (h : Items (IsMember P) true text members)
    (hspaces : IsSpaces spaces) :
    Reads (objectRest r) (text ++ (spaces ++ '}' :: left)) left (.obj (collect members)) := by
  let add (x : Bool × Entries Json) (m : String × Json) : Bool × Entries Json := (false, x.2.put m.1 m.2)
  have hfold (members : List (String × Json)) (x : Bool × Entries Json) :
      (members.foldl add x).2 = members.foldl (fun found m => found.put m.1 m.2) x.2 := by
    induction members generalizing x with
    | nil => rfl
    | cons m members ih => exact ih (add x m)
  rw [collect, ← hfold members (true, [])]
  refine h.reads add (fun x => Json.obj x.2)
    (fun first x _ => x.1 = first) ?_ ?_ (hspaces.ends (ends_cons (c := '}') (by decide))) rfl
  · rintro _ x ⟨name, v⟩ members lead _ tail rfl hlead
      ⟨code, key, before, behind, inner, rfl, hcode, rfl, hbefore, hbehind, hinner⟩ htail
    refine ⟨rfl, List.cons_ne_nil _ _, ?_⟩
    simp only [List.cons_append, List.append_assoc]
    refine (hasKey_reads hlead _).bind ((key_reads hcode _).bind ((colon_reads hbefore).bind ?_))
    exact ((hr inner v hinner).2 behind tail hbehind htail).bind (.pure _ tail)
  · rintro _ x rfl
    exact (hasKey_ends x.1 hspaces).bind ((endObject_reads left).bind (.pure _ left))

/-- A number is told from all else by its first character. -/
theorem number_isRead {n : Numeral} (r : Option (Reader Json)) (h : n.IsText text) (hv : n.value = .ok v) :
    IsRead (valueWith r) text v := by
  obtain ⟨c, cs, rfl, hc⟩ := h.head
  have hother {d : Char} (hd : (d == '-' || d.isDigit) = false) : c ≠ d := by
    rintro rfl
    rw [hc] at hd
    contradiction
  have hfirst : Reader.isSpace c = false ∧ c ≠ ']' := by
    simp [Reader.isSpace, hother]
  refine ⟨⟨c, rfl, hfirst⟩, fun spaces left hspaces hleft => ?_⟩
  have hread := number_reads h hv hleft
  refine (next?_reads hspaces hfirst.1 _).bind ?_
  split
  case h_1 => contradiction
  case h_2 heq | h_3 heq | h_4 heq | h_5 heq | h_6 heq | h_7 heq =>
    exact absurd (Option.some.inj heq) (hother (by decide))
  case h_8 heq =>
    obtain rfl := Option.some.inj heq
    rw [if_pos hc]
    exact hread

theorem Spells.isRead {inner : Option (List Char → Json → Prop)} {r : Option (Reader Json)}
    (hr : ∀ P ∈ inner, ∃ reader ∈ r, ∀ text v, P text v → IsRead reader text v)
    (h : Spells inner text v) : IsRead (valueWith r) text v := by
  cases h with
  | null =>
    refine ⟨⟨'n', rfl, by decide⟩, fun spaces left hspaces _ => ?_⟩
    refine (next?_reads hspaces (c := 'n') (by decide) ("ull".toList ++ left)).bind ?_
    exact keyword_reads "ull".toList _ left
  | bool b =>
    cases b with
    | false =>
      refine ⟨⟨'f', rfl, by decide⟩, fun spaces left hspaces _ => ?_⟩
      refine (next?_reads hspaces (c := 'f') (by decide) ("alse".toList ++ left)).bind ?_
      exact keyword_reads "alse".toList _ left
    | true =>
      refine ⟨⟨'t', rfl, by decide⟩, fun spaces left hspaces _ => ?_⟩
      refine (next?_reads hspaces (c := 't') (by decide) ("rue".toList ++ left)).bind ?_
      exact keyword_reads "rue".toList _ left
  | number h hv => exact number_isRead r h hv
  | str h =>
    refine ⟨⟨'"', rfl, by decide⟩, fun spaces left hspaces _ => ?_⟩
    simp only [List.cons_append, List.append_assoc, List.nil_append]
    exact (next?_reads hspaces (by decide) _).bind ((Reads.skip _ _).bind ((h.reads left).map Json.str))
  | @arr P text close items hinner h hclose =>
    obtain ⟨reader, hreader, hall⟩ := hr P hinner
    refine ⟨⟨'[', rfl, by decide⟩, fun spaces left hspaces _ => ?_⟩
    simp only [List.cons_append, List.append_assoc, List.nil_append]
    rw [Option.mem_def.mp hreader]
    exact (next?_reads hspaces (by decide) _).bind ((Reads.skip _ _).bind (listRest_reads hall h hclose))
  | @obj P text close members hinner h hclose =>
    obtain ⟨reader, hreader, hall⟩ := hr P hinner
    refine ⟨⟨'{', rfl, by decide⟩, fun spaces left hspaces _ => ?_⟩
    simp only [List.cons_append, List.append_assoc, List.nil_append]
    rw [Option.mem_def.mp hreader]
    exact (next?_reads hspaces (by decide) _).bind ((Reads.skip _ _).bind (objectRest_reads hall h hclose))

theorem IsText.isRead {room : Nat} (h : IsText room text v) : IsRead (value room) text v := by
  induction room generalizing text v with
  | zero =>
    refine Spells.isRead ?_ h
    rintro P ⟨⟩
  | succ room ih =>
    refine Spells.isRead ?_ h
    rintro P ⟨⟩
    exact ⟨value room, rfl, fun text v => ih⟩

end

/-- A place for a value: what stands before and behind it in the text, and what the whole text is
read as when the value is there. -/
inductive Place : Nat → List Char → List Char → (Json → Json) → Prop where
  | here (room : Nat) : Place room [] [] id
  | item {room : Nat} {before behind earlier later lead spaces : List Char} {items further : List Json}
      {put : Json → Json} (h : Place room before behind put)
      (hearlier : Items (IsText room) true earlier items) (hlead : IsLead items.isEmpty lead)
      (hlater : Items (IsText room) false later further) (hspaces : IsSpaces spaces) :
      Place (room + 1) ('[' :: (earlier ++ (lead ++ before))) (behind ++ (later ++ (spaces ++ [']'])))
        fun v => .arr (items ++ put v :: further)
  | member {room : Nat} {before behind earlier later lead code key gap space spaces : List Char}
      {members further : List (String × Json)} {put : Json → Json} (h : Place room before behind put)
      (hearlier : Items (IsMember (IsText room)) true earlier members)
      (hlead : IsLead members.isEmpty lead) (hkey : Quoted code key) (hgap : IsSpaces gap)
      (hspace : IsSpaces space) (hlater : Items (IsMember (IsText room)) false later further)
      (hspaces : IsSpaces spaces) :
      Place (room + 1)
        ('{' :: (earlier ++ (lead ++ '"' :: (code ++ '"' :: (gap ++ ':' :: (space ++ before))))))
        (behind ++ (later ++ (spaces ++ ['}'])))
        fun v => .obj (collect (members ++ (String.ofList key, put v) :: further))

/-- A text of a value that may stand at any depth makes a text of the whole. -/
theorem Place.isText {room : Nat} {before behind text : List Char} {put : Json → Json} {v : Json}
    (h : Place room before behind put) (hv : ∀ room, IsText room text v) :
    IsText room (before ++ (text ++ behind)) (put v) := by
  induction h with
  | here room => simpa using hv room
  | @item room before behind earlier later lead spaces items further put h hearlier hlead hlater hspaces ih =>
    have hitems := hearlier.append (.cons hlead ih hlater)
    have hwhole : IsText (room + 1) _ _ := Spells.arr rfl hitems hspaces
    simpa using hwhole
  | @member room before behind earlier later lead code key gap space spaces members further put h hearlier
      hlead hkey hgap hspace hlater hspaces ih =>
    have hmember : IsMember (IsText room) _ (String.ofList key, put v) :=
      ⟨code, key, gap, space, _, rfl, hkey, rfl, hgap, hspace, ih⟩
    have hmembers := hearlier.append (.cons hlead hmember hlater)
    have hwhole : IsText (room + 1) _ _ := Spells.obj rfl hmembers hspaces
    simpa using hwhole

def wholeValue (negative : Bool) (digits : List Char) : Int :=
  if negative then -(Nat.ofDigitChars 10 digits 0 : Int) else Nat.ofDigitChars 10 digits 0

def IsWord (v : Int) : Prop := -0x8000000000000000 ≤ v ∧ v ≤ 0xffffffffffffffff

def IsMinusZero (negative : Bool) (digits : List Char) : Prop := negative = true ∧ digits = ['0']

instance (negative : Bool) (digits : List Char) : Decidable (IsMinusZero negative digits) :=
  inferInstanceAs (Decidable (_ ∧ _))

def ofWhole (negative : Bool) (digits : List Char) : Json :=
  if IsMinusZero negative digits then .float ⟨true, 0, 0⟩ else .integer (wholeValue negative digits)

section

variable {limit n : Nat} {digits : List Char}

theorem le_ofDigitChars (n : Nat) (digits : List Char) : n ≤ Nat.ofDigitChars 10 digits n := by
  rw [Nat.ofDigitChars_eq_ofDigitChars_zero]
  have hpow := Nat.le_mul_of_pos_left n (Nat.pow_pos (n := digits.length) (by decide : 0 < 10))
  omega

/-- Digits of a number within the limit are all gathered. -/
theorem gather_of_le (h : Nat.ofDigitChars 10 digits n ≤ limit) :
    gather limit n digits = (Nat.ofDigitChars 10 digits n, digits.length) := by
  induction digits generalizing n with
  | nil => rfl
  | cons d ds ih =>
    have hstep : Nat.ofDigitChars 10 (d :: ds) n = Nat.ofDigitChars 10 ds (Nat.ofDigitChars 10 [d] n) :=
      rfl
    rw [hstep] at h ⊢
    have hsmall := le_ofDigitChars (Nat.ofDigitChars 10 [d] n) ds
    rw [gather]
    dsimp only
    rw [if_neg (by omega), ih h]
    rfl

theorem IsWhole.eq_zero (h : IsWhole digits) (hzero : Nat.ofDigitChars 10 digits 0 = 0) :
    digits = ['0'] := by
  obtain ⟨⟨hne, hdigits⟩, hsingle⟩ := h
  obtain ⟨d, ds, rfl⟩ := List.exists_cons_of_ne_nil hne
  have hd := Char.isDigit_iff_toNat.mp (hdigits d List.mem_cons_self)
  have hfirst := le_ofDigitChars (10 * 0 + (d.toNat - '0'.toNat)) ds
  rw [← Nat.ofDigitChars_cons, hzero] at hfirst
  have hd0 : d = '0' := by
    apply Char.toNat_inj.mp
    omega
  exact hsingle (by rw [hd0]; rfl)

theorem Numeral.value_whole {negative : Bool} (h : IsWhole digits)
    (hword : IsWord (wholeValue negative digits)) :
    Numeral.value ⟨negative, digits, [], none⟩ = .ok (ofWhole negative digits) := by
  obtain ⟨hlow, hhigh⟩ := hword
  have hfits : Nat.ofDigitChars 10 digits 0 ≤ wordLimit := by
    rw [wordLimit]
    cases negative with
    | false =>
      rw [wholeValue, if_neg Bool.false_ne_true] at hhigh
      omega
    | true =>
      rw [wholeValue, if_pos rfl] at hlow
      omega
  by_cases hzero : IsMinusZero negative digits
  · obtain ⟨rfl, rfl⟩ := hzero
    rfl
  · rw [ofWhole, if_neg hzero, Numeral.value]
    simp only [gather_of_le hfits, isWhole, List.isEmpty_nil, Option.isNone_none, Bool.and_self,
      beq_self_eq_true, if_true]
    cases negative with
    | false => rfl
    | true =>
      have hpos : 0 < Nat.ofDigitChars 10 digits 0 := by
        apply Nat.pos_of_ne_zero
        exact fun hvalue => hzero ⟨rfl, h.eq_zero hvalue⟩
      have hsmall : Nat.ofDigitChars 10 digits 0 ≤ 0x8000000000000000 := by
        rw [wholeValue, if_pos rfl] at hlow
        omega
      simp [hpos, hsmall, wholeValue]

theorem isText_whole {negative : Bool} (room : Nat) (h : IsWhole digits)
    (hword : IsWord (wholeValue negative digits)) :
    IsText room (signOf negative ++ digits) (ofWhole negative digits) := by
  have hnumber : Numeral.IsText ⟨negative, digits, [], none⟩ (signOf negative ++ digits) :=
    ⟨[], [], by simp, h, .inl ⟨rfl, rfl⟩, .inl ⟨rfl, rfl⟩⟩
  cases room with
  | zero => exact .number hnumber (Numeral.value_whole h hword)
  | succ room => exact .number hnumber (Numeral.value_whole h hword)

end

/-- A text with white space around it is read as its value. -/
theorem IsText.parse {text lead trail : List Char} {v : Json} (h : IsText depthLimit text v)
    (hlead : IsSpaces lead) (htrail : IsSpaces trail) :
    Json.parse (String.ofList (lead ++ (text ++ trail))) = .ok v := by
  have hends : Ends trail := by
    have h := htrail.ends ends_nil
    rwa [List.append_nil] at h
  exact readAll_of_reads (by rw [String.toList_ofList]; exact h.isRead.2 lead trail hlead hends) htrail

end Json

/-- A whole number that 64 bits hold is read as an integer at every place of a document, and has the
type of one; but a zero with a minus sign is read as a floating-point number. -/
theorem Sample.read_whole {before behind lead trail digits : List Char} {put : Json → Json}
    {negative : Bool} (hplace : Json.Place Json.depthLimit before behind put) (hlead : Json.IsSpaces lead)
    (htrail : Json.IsSpaces trail) (hdigits : Json.IsWhole digits)
    (hword : Json.IsWord (Json.wholeValue negative digits)) :
    Sample.read (String.ofList (lead ++ ((before ++ (Json.signOf negative ++ digits ++ behind)) ++ trail))) =
        .ok (put (Json.ofWhole negative digits)) ∧
      ∀ capitalize name found, (ClassTree.typeOf capitalize name (Json.ofWhole negative digits) found).1 =
        .primitive (if Json.IsMinusZero negative digits then .float else .integer) := by
  have htext := hplace.isText fun room => Json.isText_whole room hdigits hword
  have hblank : Text.allBlank
      (String.ofList (lead ++ ((before ++ (Json.signOf negative ++ digits ++ behind)) ++ trail))) =
        false := by
    obtain ⟨d, ds, rfl⟩ := List.exists_cons_of_ne_nil hdigits.1.1
    have hd : Text.isBlank d = false :=
      Identifier.part_not_blank (Identifier.digit_part (hdigits.1.2 d List.mem_cons_self))
    rw [Text.allBlank, String.toList_ofList, List.all_eq_false]
    exact ⟨d, by simp, by rw [hd]; decide⟩
  refine ⟨?_, fun capitalize name found => ?_⟩
  · rw [Sample.read, hblank, htext.parse hlead htrail]
    rfl
  · rw [Json.ofWhole]
    split <;> rfl

theorem Json.place_behind_null :
    Json.Place Json.depthLimit "[null, ".toList "]".toList fun v => .arr [.null, v] := by
  have hlead : Json.IsLead true [] := Json.isSpaces_nil
  have hcomma : Json.IsLead false [',', ' '] := ⟨[], [' '], rfl, Json.isSpaces_nil, Json.isSpaces_single⟩
  have hnull : Json.IsText 126 "null".toList .null := Json.Spells.null
  have hitems : Json.Items (Json.IsText 126) true "null".toList [.null] := .cons hlead hnull (.nil false)
  have hnone : Json.Items (Json.IsText 126) false [] [] := .nil false
  exact .item (.here 126) hitems hcomma hnone Json.isSpaces_nil

theorem Sample.read_greatest :
    Json.IsWhole "18446744073709551615".toList ∧ Sample.read "[null, 18446744073709551615]" =
      .ok (.arr [.null, .integer 18446744073709551615]) := by
  have hall : "18446744073709551615".toList.all Char.isDigit = true := by decide
  have hdigits : Json.IsWhole "18446744073709551615".toList :=
    ⟨⟨by decide, List.all_eq_true.mp hall⟩, by decide⟩
  have hword : Json.IsWord (Json.wholeValue false "18446744073709551615".toList) := ⟨by decide, by decide⟩
  have hread := Sample.read_whole Json.place_behind_null Json.isSpaces_nil Json.isSpaces_nil hdigits hword
  exact ⟨hdigits, hread.1⟩

theorem Sample.minus_zero_not_integer :
    Sample.read "-0" = .ok (.float ⟨true, 0, 0⟩) ∧ Sample.read "-0" ≠ .ok (.integer 0) := by
  have hread : Sample.read "-0" = .ok (.float ⟨true, 0, 0⟩) := rfl
  exact ⟨hread, by rw [hread]; simp⟩

end DataClasses

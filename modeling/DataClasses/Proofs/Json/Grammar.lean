import DataClasses.Proofs.Json.Reads

/-!
# The parts of JSON text

Numbers, and entries between brackets with commas and white space around them, as they may be written,
and what readers make of them.
-/

set_option autoImplicit false

namespace DataClasses.Json

def IsSpaces (cs : List Char) : Prop := ∀ c ∈ cs, Reader.isSpace c = true

def Ends (left : List Char) : Prop := ∀ c ∈ left.head?, Reader.isSpace c = true ∨ c ∈ [',', ']', '}']

/-- What stands before an entry: white space, with a comma in it unless the entry is the first. -/
def IsLead (first : Bool) (lead : List Char) : Prop :=
  match first with
  | true => IsSpaces lead
  | false => ∃ before behind, lead = before ++ ',' :: behind ∧ IsSpaces before ∧ IsSpaces behind

section

variable {cs spaces left : List Char} {c : Char}

theorem isSpaces_nil : IsSpaces [] := List.forall_mem_nil _

theorem isSpaces_single : IsSpaces [' '] := List.forall_mem_singleton.mpr rfl

theorem ends_nil : Ends [] := nofun

theorem ends_cons (hc : c ∈ [',', ']', '}']) : Ends (c :: left) := by
  rintro d ⟨⟩
  exact .inr hc

theorem IsSpaces.ends (h : IsSpaces cs) (hleft : Ends left) : Ends (cs ++ left) := by
  cases cs with
  | nil => exact hleft
  | cons c cs =>
    rintro d ⟨⟩
    exact .inl (h c List.mem_cons_self)

theorem IsLead.ends {lead : List Char} (h : IsLead false lead) : Ends (lead ++ left) := by
  obtain ⟨before, behind, rfl, hbefore, -⟩ := h
  rw [List.append_assoc]
  exact hbefore.ends (ends_cons List.mem_cons_self)

/-- What may follow a value does not go on with a number. -/
theorem Ends.not_number (h : Ends left) :
    ∀ c ∈ left.head?, c.isDigit = false ∧ c ≠ '.' ∧ c ≠ 'e' ∧ c ≠ 'E' := by
  intro c hc
  rcases h c hc with hspace | hmem
  · simp only [Reader.isSpace, Bool.or_eq_true, beq_iff_eq] at hspace
    rcases hspace with ((rfl | rfl) | rfl) | rfl <;> decide
  · simp only [List.mem_cons, List.not_mem_nil, or_false] at hmem
    rcases hmem with rfl | rfl | rfl <;> decide

theorem next?_reads (hspaces : IsSpaces spaces) (hc : Reader.isSpace c = false) (left : List Char) :
    Reads Reader.next? (spaces ++ c :: left) (c :: left) (some c) :=
  Reads.next? spaces hspaces (by simpa using hc)

/-- A word is read to its end once its first character has told which it is. -/
theorem keyword_reads {α : Type} (word : List Char) (x : α) (left : List Char) :
    Reads (do Reader.skip; Json.word word; pure x) (c :: (word ++ left)) left x :=
  (Reads.skip c _).bind ((Reads.word word left).bind (.pure x left))

/-- A value with white space behind it is all of a text. -/
theorem readAll_of_reads {α : Type} {reader : Reader α} {text : String} {x : α}
    (h : Reads reader text.toList spaces x) (hspaces : IsSpaces spaces) : readAll reader text = .ok x := by
  have hnext : Reads Reader.next? (spaces ++ []) [] none := Reads.next? spaces hspaces (by simp)
  rw [List.append_nil] at hnext
  have hend : Reads atEnd spaces [] () := hnext.bind (.pure () [])
  have hall : Reads (do let a ← reader; atEnd; pure a) text.toList [] x := h.bind (hend.bind (.pure x []))
  obtain ⟨d, hd, -⟩ := hall { rest := text.toList } rfl
  exact congrArg (Except.map (·.1)) hd

end

def IsDigits (ds : List Char) : Prop := ds ≠ [] ∧ ∀ d ∈ ds, d.isDigit = true

def IsWhole (ds : List Char) : Prop := IsDigits ds ∧ (ds.head? = some '0' → ds = ['0'])

def IsFraction (text digits : List Char) : Prop :=
  text = [] ∧ digits = [] ∨ text = '.' :: digits ∧ IsDigits digits

def IsPower (text : List Char) (power : Option (Bool × List Char)) : Prop :=
  text = [] ∧ power = none ∨
    ∃ mark sign digits, text = mark :: (sign ++ digits) ∧ power = some (sign == ['-'], digits) ∧
      (mark = 'e' ∨ mark = 'E') ∧ (sign = [] ∨ sign = ['+'] ∨ sign = ['-']) ∧ IsDigits digits

def signOf (negative : Bool) : List Char := if negative then ['-'] else []

def Numeral.IsText (n : Numeral) (text : List Char) : Prop :=
  ∃ fraction power, text = signOf n.negative ++ (n.whole ++ (fraction ++ power)) ∧ IsWhole n.whole ∧
    IsFraction fraction n.fraction ∧ IsPower power n.power

section

variable {ds text left : List Char}

theorem someDigits_reads (h : IsDigits ds) (hleft : ∀ c ∈ left.head?, c.isDigit = false) (atEnd : Cause) :
    Reads (someDigits atEnd) (ds ++ left) left ds := by
  refine (Reads.takeWhile ds h.2 hleft).bind ?_
  rw [if_neg (by simpa using h.1)]
  exact .pure ds left

theorem wholeDigits_reads (h : IsWhole ds) (hleft : ∀ c ∈ left.head?, c.isDigit = false) (atEnd : Cause) :
    Reads (wholeDigits atEnd) (ds ++ left) left ds := by
  refine (Reads.peek? _).bind ?_
  obtain ⟨⟨hne, hds⟩, hzero⟩ := h
  obtain ⟨d, es, rfl⟩ := List.exists_cons_of_ne_nil hne
  simp only [List.cons_append, List.head?_cons]
  split
  · next heq =>
    obtain rfl := Option.some.inj heq
    obtain ⟨-, rfl⟩ := List.cons.inj (hzero rfl)
    refine (Reads.skip _ _).bind ((Reads.peek? _).bind ?_)
    split
    · next c hc =>
      rw [hleft c hc]
      exact .pure _ left
    · exact .pure _ left
  · exact someDigits_reads ⟨hne, hds⟩ hleft atEnd

theorem fractionDigits_reads (h : IsFraction text ds)
    (hleft : ∀ c ∈ left.head?, c.isDigit = false ∧ c ≠ '.') (atEnd : Cause) :
    Reads (fractionDigits atEnd) (text ++ left) left ds := by
  refine (Reads.peek? _).bind ?_
  rcases h with ⟨rfl, rfl⟩ | ⟨rfl, hds⟩
  · split
    · next heq => exact absurd rfl (hleft '.' heq).2
    · exact .pure _ left
  · simp only [List.cons_append, List.head?_cons]
    exact (Reads.skip _ _).bind (someDigits_reads hds (fun c hc => (hleft c hc).1) atEnd)

theorem powerDigits_reads {power : Option (Bool × List Char)} (h : IsPower text power)
    (hleft : ∀ c ∈ left.head?, c.isDigit = false ∧ c ≠ 'e' ∧ c ≠ 'E') (atEnd : Cause) :
    Reads (powerDigits atEnd) (text ++ left) left power := by
  have hdigit : ∀ c ∈ left.head?, c.isDigit = false := fun c hc => (hleft c hc).1
  refine (Reads.peek? _).bind ?_
  rcases h with ⟨rfl, rfl⟩ | ⟨mark, sign, digits, rfl, rfl, hmark, hsign, hdigits⟩
  · split
    · next c hc =>
      obtain ⟨-, hlow, hhigh⟩ := hleft c hc
      rw [if_neg (by simp [hlow, hhigh])]
      exact .pure _ left
    · exact .pure _ left
  · simp only [List.cons_append, List.head?_cons, List.append_assoc]
    rw [if_pos (by simpa using hmark)]
    have hread : Reads (someDigits atEnd) (digits ++ left) left digits :=
      someDigits_reads hdigits hdigit atEnd
    refine (Reads.skip mark _).bind ((Reads.peek? _).bind ?_)
    rcases hsign with rfl | rfl | rfl
    · obtain ⟨d, es, rfl⟩ := List.exists_cons_of_ne_nil hdigits.1
      have hd := hdigits.2 d List.mem_cons_self
      have hother : d ≠ '+' ∧ d ≠ '-' := by constructor <;> rintro rfl <;> contradiction
      have hplus : ((([] ++ (d :: es ++ left)).head? == some '+') = false) := by simpa using hother.1
      have hminus : ((([] ++ (d :: es ++ left)).head? == some '-') = false) := by simpa using hother.2
      rw [hplus, hminus]
      exact hread.bind (.pure _ left)
    · exact (Reads.skip '+' _).bind (hread.bind (.pure _ left))
    · exact (Reads.skip '-' _).bind (hread.bind (.pure _ left))

theorem IsWhole.head_ne_minus (h : IsWhole ds) : ∀ c ∈ (ds ++ left).head?, c ≠ '-' := by
  obtain ⟨⟨hne, hds⟩, -⟩ := h
  obtain ⟨d, es, rfl⟩ := List.exists_cons_of_ne_nil hne
  rintro c ⟨⟩ rfl
  exact absurd (hds '-' List.mem_cons_self) (by decide)

theorem IsFraction.ends (h : IsFraction text ds) (hleft : ∀ c ∈ left.head?, c.isDigit = false) :
    ∀ c ∈ (text ++ left).head?, c.isDigit = false := by
  rcases h with ⟨rfl, -⟩ | ⟨rfl, -⟩
  · exact hleft
  · rintro c ⟨⟩
    decide

theorem IsPower.ends {power : Option (Bool × List Char)} (h : IsPower text power)
    (hleft : ∀ c ∈ left.head?, c.isDigit = false ∧ c ≠ '.') :
    ∀ c ∈ (text ++ left).head?, c.isDigit = false ∧ c ≠ '.' := by
  rcases h with ⟨rfl, -⟩ | ⟨mark, sign, digits, rfl, -, rfl | rfl, -⟩
  · exact hleft
  · rintro c ⟨⟩
    decide
  · rintro c ⟨⟩
    decide

theorem numeral_reads {n : Numeral} (h : n.IsText text) (hleft : Ends left) (atEnd : Cause) :
    Reads (numeral atEnd) (text ++ left) left n := by
  obtain ⟨negative, whole, digits, power⟩ := n
  obtain ⟨fraction, mark, rfl, hwhole, hfraction, hpower⟩ := h
  have hends := hleft.not_number
  have hparts : Reads (do
      let whole ← wholeDigits atEnd
      let fraction ← fractionDigits atEnd
      let power ← powerDigits atEnd
      pure (⟨negative, whole, fraction, power⟩ : Numeral)) (whole ++ (fraction ++ (mark ++ left))) left
        ⟨negative, whole, digits, power⟩ := by
    have hpoint := hpower.ends fun c hc => ⟨(hends c hc).1, (hends c hc).2.1⟩
    refine (wholeDigits_reads hwhole (hfraction.ends fun c hc => (hpoint c hc).1) atEnd).bind ?_
    refine (fractionDigits_reads hfraction hpoint atEnd).bind ?_
    exact (powerDigits_reads hpower (fun c hc => ⟨(hends c hc).1, (hends c hc).2.2⟩) atEnd).bind
      (.pure _ left)
  simp only [List.append_assoc]
  refine (Reads.peek? _).bind ?_
  cases negative with
  | false =>
    have hminus : ((signOf false ++ (whole ++ (fraction ++ (mark ++ left)))).head? == some '-') = false := by
      rw [beq_eq_false_iff_ne]
      exact fun heq => hwhole.head_ne_minus '-' heq rfl
    rw [hminus]
    exact hparts
  | true => exact (Reads.skip '-' _).bind hparts

theorem number_reads {n : Numeral} {v : Json} (h : n.IsText text) (hv : n.value = .ok v) (hleft : Ends left) :
    Reads number (text ++ left) left v := by
  refine (numeral_reads h hleft _).bind ?_
  rw [hv]
  exact .pure v left

end

inductive Items {ι : Type} (P : List Char → ι → Prop) : Bool → List Char → List ι → Prop where
  | nil (first : Bool) : Items P first [] []
  | cons {first : Bool} {lead text rest : List Char} {i : ι} {items : List ι} (hlead : IsLead first lead)
      (h : P text i) (hrest : Items P false rest items) :
      Items P first (lead ++ (text ++ rest)) (i :: items)

section

variable {ι : Type} {P : List Char → ι → Prop} {first : Bool} {text rest spaces left : List Char}
  {items further : List ι}

theorem Items.append (h : Items P first text items) (hrest : Items P (first && items.isEmpty) rest further) :
    Items P first (text ++ rest) (items ++ further) := by
  induction h with
  | nil first => simpa using hrest
  | cons hlead h hmore ih =>
    simp only [List.isEmpty_cons, Bool.and_false, Bool.false_and] at hrest ih
    simp only [List.append_assoc, List.cons_append]
    exact .cons hlead h (ih hrest)

/-- What stands behind an entry may stand behind a value. -/
theorem Items.ends (h : Items P false text items) (hleft : Ends left) : Ends (text ++ left) := by
  cases h with
  | nil => exact hleft
  | cons hlead h hrest =>
    rw [List.append_assoc]
    exact hlead.ends

/-- Reading what stands between brackets is taking its entries, one each round, into what has been
built. -/
theorem Items.reads {α σ : Type} {close : σ → α} {round : σ → Reader (Round σ α)}
    {last : List Char} (add : σ → ι → σ) (result : σ → α) (Next : Bool → σ → List ι → Prop)
    (hentry : ∀ fresh s i items lead text tail, Next fresh s (i :: items) → IsLead fresh lead →
      P text i →
      Ends tail → Next false (add s i) items ∧ text ≠ [] ∧
        Reads (round s) (lead ++ (text ++ tail)) tail (.again (add s i)))
    (hend : ∀ fresh s, Next fresh s [] → Reads (round s) left last (.done (result s)))
    (hleft : Ends left) (h : Items P first text items) {s : σ} (hnext : Next first s items) :
    Reads (Reader.loop close round s) (text ++ left) last (result (items.foldl add s)) := by
  refine Reads.loop (I := fun t code => ∃ fresh more rest, Items P fresh more rest ∧ Next fresh t rest ∧
    code = more ++ left ∧ rest.foldl add t = items.foldl add s) ?_
      ⟨first, text, items, h, hnext, rfl, rfl⟩
  rintro t _ ⟨fresh, more, rest, hitems, hnext, rfl, hsame⟩
  cases hitems with
  | nil =>
    left
    rw [← hsame]
    exact hend fresh t hnext
  | @cons _ lead text more i rest hlead htext hrest =>
    right
    obtain ⟨hmore, hne, hread⟩ := hentry fresh t i rest lead text _ hnext hlead htext (hrest.ends hleft)
    refine ⟨add t i, _, ⟨false, more, rest, hrest, hmore, rfl, hsame⟩, ?_, ?_⟩
    · have hpos := List.length_pos_iff.mpr hne
      simp only [List.length_append]
      omega
    · simp only [List.append_assoc]
      exact hread

end

section

variable {first : Bool} {lead spaces left text : List Char}

def Opens (text : List Char) : Prop := ∃ c ∈ text.head?, Reader.isSpace c = false ∧ c ≠ ']'

theorem Opens.ne_nil (h : Opens text) : text ≠ [] := by
  obtain ⟨c, hc, -⟩ := h
  rintro rfl
  contradiction

theorem hasElement_reads (hlead : IsLead first lead) (h : Opens text) :
    Reads (hasElement first) (lead ++ text) text true := by
  obtain ⟨c, hc, hspace, hclose⟩ := h
  obtain ⟨cs, rfl⟩ := List.head?_eq_some_iff.mp hc
  cases first with
  | true =>
    refine (next?_reads hlead hspace cs).bind ?_
    simp only [if_true]
    exact .pure true _
  | false =>
    obtain ⟨before, behind, rfl, hbefore, hbehind⟩ := hlead
    rw [List.append_assoc]
    refine (next?_reads hbefore (c := ',') (by decide) _).bind ?_
    refine (Reads.skip _ _).bind ((next?_reads hbehind hspace cs).bind ?_)
    simp only
    exact .pure true _

theorem hasElement_ends (first : Bool) (hspaces : IsSpaces spaces) :
    Reads (hasElement first) (spaces ++ ']' :: left) (']' :: left) false :=
  (next?_reads hspaces (by decide) _).bind (.pure false _)

theorem hasKey_reads (hlead : IsLead first lead) (text : List Char) :
    Reads (hasKey first) (lead ++ '"' :: text) ('"' :: text) true := by
  cases first with
  | true => exact (next?_reads hlead (by decide) _).bind (.pure true _)
  | false =>
    obtain ⟨before, behind, rfl, hbefore, hbehind⟩ := hlead
    rw [List.append_assoc]
    refine (next?_reads hbefore (c := ',') (by decide) _).bind ?_
    exact (Reads.skip _ _).bind ((next?_reads hbehind (by decide) _).bind (.pure true _))

theorem hasKey_ends (first : Bool) (hspaces : IsSpaces spaces) :
    Reads (hasKey first) (spaces ++ '}' :: left) ('}' :: left) false :=
  (next?_reads hspaces (by decide) _).bind (.pure false _)

theorem key_reads {code cs : List Char} (h : Quoted code cs) (left : List Char) :
    Reads key ('"' :: (code ++ '"' :: left)) left (String.ofList cs) :=
  (Reads.skip _ _).bind (h.reads left)

theorem colon_reads (hspaces : IsSpaces spaces) : Reads colon (spaces ++ ':' :: left) left () :=
  (next?_reads hspaces (by decide) _).bind (Reads.skip _ _)

theorem endObject_reads (left : List Char) : Reads endObject ('}' :: left) left () :=
  (next?_reads isSpaces_nil (by decide) _).bind (Reads.skip _ _)

theorem endList_reads (left : List Char) : Reads endList (']' :: left) left () :=
  (next?_reads isSpaces_nil (by decide) _).bind (Reads.skip _ _)

end

end DataClasses.Json

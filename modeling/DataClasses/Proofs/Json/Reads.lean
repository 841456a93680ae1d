import DataClasses.Json.Printer
import DataClasses.Json.Typed
import Mathlib.Data.List.TakeWhile

/-!
# What readers take from the front of a text

A reader takes a value from the front of a text and leaves the rest. The places of the characters are
left open: they matter for faults only.
-/

set_option autoImplicit false

namespace DataClasses.Json

variable {α β σ ι : Type}

def Reads (r : Reader α) (text left : List Char) (x : α) : Prop :=
  ∀ c : Cursor, c.rest = text → ∃ d : Cursor, r c = .ok (x, d) ∧ d.rest = left

namespace Reads

variable {text left last : List Char} {x : α} {y : β}

theorem pure (x : α) (text : List Char) : Reads (Pure.pure x) text text x :=
  fun c hc => ⟨c, rfl, hc⟩

theorem bind {r : Reader α} {f : α → Reader β} (h : Reads r text left x)
    (hf : Reads (f x) left last y) : Reads (r >>= f) text last y := by
  intro c hc
  obtain ⟨d, hd, hrest⟩ := h c hc
  obtain ⟨e, he, hlast⟩ := hf d hrest
  refine ⟨e, ?_, hlast⟩
  simp only [Bind.bind, StateT.bind, Except.bind, hd]
  exact he

theorem map {r : Reader α} (f : α → β) (h : Reads r text left x) :
    Reads (f <$> r) text left (f x) := by
  rw [map_eq_pure_bind]
  exact h.bind (pure _ _)

/-- A repetition is followed by an invariant of its state and the text before each round. -/
theorem loop {close : σ → α} {round : σ → Reader (Round σ α)} {I : σ → List Char → Prop}
    (hround : ∀ s text, I s text → Reads (round s) text left (.done x) ∨
      ∃ t next, I t next ∧ next.length < text.length ∧ Reads (round s) text next (.again t))
    {s : σ} {text : List Char} (h : I s text) : Reads (Reader.loop close round s) text left x := by
  induction hn : text.length using Nat.strongRecOn generalizing s text with
  | _ n ih =>
    intro c hc
    obtain hdone | ⟨t, next, ht, hless, hagain⟩ := hround s text h
    · obtain ⟨d, hd, hrest⟩ := hdone c hc
      refine ⟨d, ?_, hrest⟩
      rw [Reader.loop, readRounds, rounds]
      simp only [hd]
    · obtain ⟨d, hd, hnext⟩ := hagain c hc
      obtain ⟨e, he, hrest⟩ := ih next.length (hn ▸ hless) ht rfl d hnext
      refine ⟨e, ?_, hrest⟩
      rw [Reader.loop, readRounds, rounds]
      simp only [hd, hc, hnext, hless, if_true]
      exact he

theorem peek? (text : List Char) : Reads Reader.peek? text text text.head? :=
  fun c hc => ⟨c, by rw [Reader.peek?, hc], hc⟩

theorem skip (c : Char) (text : List Char) : Reads Reader.skip (c :: text) text () := by
  rintro ⟨_, line, column⟩ rfl
  by_cases hc : c = '\n' <;> exact ⟨_, rfl, by simp [hc]⟩

theorem skipAll (cs text : List Char) : Reads (Reader.skipAll cs) (cs ++ text) text () := by
  induction cs with
  | nil => exact .pure () text
  | cons c cs ih => exact (skip c (cs ++ text)).bind ih

theorem takeWhile {p : Char → Bool} (cs : List Char) (hcs : ∀ c ∈ cs, p c = true)
    (hleft : ∀ c ∈ left.head?, p c = false) :
    Reads (Reader.takeWhile p) (cs ++ left) left cs := by
  intro c hc
  have hnone : left.takeWhile p = [] := by
    cases left with
    | nil => rfl
    | cons d _ => rw [List.takeWhile_cons, hleft d rfl]; rfl
  have htaken : c.rest.takeWhile p = cs := by
    rw [hc, List.takeWhile_append_of_pos hcs, hnone, List.append_nil]
  obtain ⟨d, hd, hrest⟩ := skipAll cs left c hc
  refine ⟨d, ?_, hrest⟩
  simp only [Reader.takeWhile, Bind.bind, StateT.bind, get, getThe, MonadStateOf.get, StateT.get,
    Except.bind, Pure.pure, Except.pure, htaken, hd]
  rfl

theorem next? (spaces : List Char) (hspaces : ∀ c ∈ spaces, Reader.isSpace c = true)
    (hleft : ∀ c ∈ left.head?, Reader.isSpace c = false) :
    Reads Reader.next? (spaces ++ left) left left.head? :=
  (takeWhile spaces hspaces hleft).bind (peek? left)

theorem word (cs text : List Char) : Reads (Json.word cs) (cs ++ text) text () := by
  induction cs with
  | nil => exact .pure () text
  | cons c cs ih =>
    refine (peek? _).bind ?_
    simp only [List.cons_append, List.head?_cons, beq_self_eq_true, if_true]
    exact (skip c _).bind ih

end Reads

/-- What stands behind a backslash for a character: one letter, or the hexadecimal digits of its one or
two units of 16 bits. -/
inductive Escape : List Char → Char → Prop where
  | short {c d : Char} (h : shortEscape? c = some d) : Escape [c] d
  | unit {digits : List Char} {n : Nat} (hlength : digits.length = 4)
      (hn : Text.hexNumber? digits = some n) (hleading : isLeading n = false)
      (htrailing : isTrailing n = false) : Escape ('u' :: digits) (Char.ofNat n)
  | pair {high low : List Char} {m n : Nat} (hhigh : high.length = 4) (hlow : low.length = 4)
      (hm : Text.hexNumber? high = some m) (hn : Text.hexNumber? low = some n)
      (hleading : isLeading m = true) (htrailing : isTrailing n = true) :
      Escape ('u' :: (high ++ '\\' :: 'u' :: low)) (Char.ofNat (joinSurrogates m n))

inductive Quoted : List Char → List Char → Prop where
  | nil : Quoted [] []
  | plain {c : Char} {code cs : List Char} (hc : isPlain c = true) (hrest : Quoted code cs) :
      Quoted (c :: code) (c :: cs)
  | escaped {c : Char} {escape code cs : List Char} (hc : Escape escape c) (hrest : Quoted code cs) :
      Quoted ('\\' :: (escape ++ code)) (c :: cs)

theorem fourDigits_reads {digits : List Char} {n : Nat} (hlength : digits.length = 4)
    (hn : Text.hexNumber? digits = some n) (left : List Char) :
    Reads fourDigits (digits ++ left) left n := by
  have hsize (cs : List Char) (k : Nat) :
      k + cs.length ≤ cs.foldl (fun k c => k + c.utf8Size) k := by
    induction cs generalizing k with
    | nil => exact Nat.le_refl _
    | cons c cs ih =>
      have hc := c.utf8Size_pos
      have hcs := ih (k + c.utf8Size)
      rw [List.foldl_cons, List.length_cons]
      omega
  intro c hc
  have htake : c.rest.take 4 = digits := by rw [hc, List.take_left' hlength]
  have hfour := hsize digits 0
  obtain ⟨d, hd, hrest⟩ := (Reads.skipAll digits left).bind (f := fun _ => pure n) (.pure n left) c hc
  refine ⟨d, ?_, hrest⟩
  rw [fourDigits, htake, if_neg (by omega), hn]
  exact hd

theorem expectEscape_reads (c : Char) (left : List Char) :
    Reads (expectEscape c) (c :: left) left () := by
  refine (Reads.peek? _).bind ?_
  simp only [List.head?_cons, beq_self_eq_true, if_true]
  exact Reads.skip c left

theorem Escape.reads {code : List Char} {c : Char} (h : Escape code c) (left : List Char) :
    Reads escape (code ++ left) left c := by
  refine (Reads.peek? _).bind ?_
  cases h with
  | @short letter _ h =>
    have hletter : letter ≠ 'u' := by
      rintro rfl
      contradiction
    simp only [List.cons_append, List.nil_append, List.head?_cons, h]
    exact (Reads.skip letter left).bind (.pure c left)
  | unit hlength hn hleading htrailing =>
    refine (Reads.skip 'u' _).bind ((fourDigits_reads hlength hn left).bind ?_)
    simp only [hleading, htrailing, Bool.false_eq_true, if_false]
    exact .pure _ left
  | @pair high low m n hhigh hlow hm hn hleading htrailing =>
    have hplain : isTrailing m = false := by
      simp only [isLeading, isTrailing, Bool.and_eq_true, Bool.and_eq_false_iff, decide_eq_true_eq,
        decide_eq_false_iff_not] at hleading ⊢
      omega
    simp only [List.cons_append, List.append_assoc]
    refine (Reads.skip 'u' _).bind ((fourDigits_reads hhigh hm _).bind ?_)
    simp only [hleading, hplain, Bool.false_eq_true, if_false, if_true]
    refine (expectEscape_reads _ _).bind ((expectEscape_reads _ _).bind ?_)
    refine (fourDigits_reads hlow hn left).bind ?_
    simp only [htrailing, if_true]
    exact .pure _ left

/-- The code up to the first escape, and the escape with what follows it. -/
theorem Quoted.split {code cs : List Char} (h : Quoted code cs) :
    ∃ plain, (∀ c ∈ plain, isPlain c = true) ∧
      (code = plain ∧ cs = plain ∨
        ∃ escape c further rest, code = plain ++ '\\' :: (escape ++ further) ∧
        cs = plain ++ c :: rest ∧ Escape escape c ∧ Quoted further rest) := by
  induction h with
  | nil => exact ⟨[], List.forall_mem_nil _, .inl ⟨rfl, rfl⟩⟩
  | @plain c code cs hc hrest ih =>
    obtain ⟨plain, hplain, ⟨hcode, hcs⟩ |
      ⟨escape, d, further, rest, rfl, rfl, hescape, hfurther⟩⟩ := ih
    · exact ⟨c :: plain, List.forall_mem_cons.mpr ⟨hc, hplain⟩,
        .inl ⟨by rw [hcode], by rw [hcs]⟩⟩
    · exact ⟨c :: plain, List.forall_mem_cons.mpr ⟨hc, hplain⟩,
        .inr ⟨escape, d, further, rest, rfl, rfl, hescape, hfurther⟩⟩
  | @escaped c escape code cs hc hrest ih =>
    exact ⟨[], List.forall_mem_nil _, .inr ⟨escape, c, code, cs, rfl, rfl, hc, hrest⟩⟩

/-- A plain stretch of characters and an escape are read in each round. -/
theorem Quoted.reads {code cs : List Char} (h : Quoted code cs) (left : List Char) :
    Reads quotedRest (code ++ '"' :: left) left (String.ofList cs) := by
  refine Reads.loop (I := fun acc text => ∃ further rest, acc ++ rest = cs ∧ Quoted further rest ∧
    text = further ++ '"' :: left) ?_ ⟨code, cs, rfl, h, rfl⟩
  rintro acc _ ⟨further, rest, hcs, hfurther, rfl⟩
  obtain ⟨plain, hplain, ⟨rfl, rfl⟩ |
    ⟨escape, c, later, behind, rfl, rfl, hescape, hlater⟩⟩ := hfurther.split
  · left
    refine (Reads.takeWhile _ hplain (by simp; decide)).bind ((Reads.peek? _).bind ?_)
    simp only [List.head?_cons]
    refine (Reads.skip _ left).bind ?_
    rw [hcs]
    exact .pure _ left
  · right
    refine ⟨acc ++ plain ++ [c], later ++ '"' :: left, ?_, ?_, ?_⟩
    · exact ⟨later, behind, by simpa using hcs, hlater, rfl⟩
    · simp only [List.length_append, List.length_cons]
      omega
    · simp only [List.append_assoc, List.cons_append]
      refine (Reads.takeWhile _ hplain (by simp; decide)).bind ((Reads.peek? _).bind ?_)
      simp only [List.head?_cons]
      exact (Reads.skip _ _).bind ((hescape.reads _).bind (.pure _ _))

theorem hexNumber?_of_lt {n : Nat} (h : n < 32) : Text.hexNumber? (Text.hexDigits 4 n) = some n := by
  have hall : ∀ m ∈ List.range 32, Text.hexNumber? (Text.hexDigits 4 m) = some m := by decide
  exact hall n (List.mem_range.mpr h)

/-- Every character is quoted as itself or as an escape. -/
theorem quoteChar_quoted (c : Char) {code cs : List Char} (h : Quoted code cs) :
    Quoted (quoteChar c ++ code) (c :: cs) := by
  unfold quoteChar
  split
  · exact .escaped (.short (c := '"') rfl) h
  · exact .escaped (.short (c := '\\') rfl) h
  · exact .escaped (.short (c := 'b') rfl) h
  · exact .escaped (.short (c := 'f') rfl) h
  · exact .escaped (.short (c := 'n') rfl) h
  · exact .escaped (.short (c := 'r') rfl) h
  · exact .escaped (.short (c := 't') rfl) h
  · next hquote hslash _ _ _ _ _ =>
    split
    · next hcontrol =>
      have hplain : isLeading c.toNat = false ∧ isTrailing c.toNat = false := by
        simp only [isTrailing, isLeading, Bool.and_eq_false_iff, decide_eq_false_iff_not]
        omega
      have hunit := Escape.unit (Text.length_hexDigits 4 c.toNat)
        (hexNumber?_of_lt hcontrol) hplain.1 hplain.2
      rw [Char.ofNat_toNat] at hunit
      exact .escaped hunit h
    · next hcontrol =>
      refine .plain ?_ h
      simp only [isPlain, Bool.and_eq_true, bne_iff_ne, decide_eq_true_eq]
      exact ⟨⟨hquote, hslash⟩, Nat.le_of_not_lt hcontrol⟩

theorem quoted_flatMap (cs : List Char) : Quoted (cs.flatMap quoteChar) cs := by
  induction cs with
  | nil => exact .nil
  | cons c cs ih => exact quoteChar_quoted c ih

/-- What quoting adds is taken away again. -/
theorem quotedRest_reads (text : String) (left : List Char) :
    Reads quotedRest (text.toList.flatMap quoteChar ++ '"' :: left) left text := by
  have h := (quoted_flatMap text.toList).reads left
  rwa [String.ofList_toList] at h

end DataClasses.Json

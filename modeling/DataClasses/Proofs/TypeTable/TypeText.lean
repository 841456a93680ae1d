import DataClasses.TypeTable.Basic
import Mathlib.Data.List.Chain

/-!
# The text of a type

A reader of the full names of types. It finds the names that type arguments stand behind, each with the
number of its arguments.
-/

set_option autoImplicit false

namespace DataClasses.TypeText

/-- A bracket that is open: the name before it, and the commas between its items so far. -/
structure Bracket where
  name : List Char
  commas : Nat

/-- A text up to some place: the name that stands there, the brackets that are open, the innermost
first, and the names whose type arguments have ended, with the numbers of these. -/
structure Reading where
  name : List Char := []
  opened : List Bracket := []
  found : List (String × Nat) := []

namespace Reading

def enter (r : Reading) : Reading := { r with name := [], opened := ⟨r.name, 0⟩ :: r.opened }

def comma (r : Reading) : Reading :=
  match r.opened with
  | [] => { r with name := [] }
  | b :: rest => { r with name := [], opened := { b with commas := b.commas + 1 } :: rest }

def leave (r : Reading) : Reading := { r with name := [], opened := r.opened.tail }

def close (r : Reading) : Reading :=
  match r.opened with
  | [] => { r with name := [] }
  | b :: rest => ⟨b.name, rest, r.found ++ [(String.ofList b.name, b.commas + 1)]⟩

def step (r : Reading) (c : Char) : Reading :=
  if c = '<' ∨ c = '(' ∨ c = '[' then r.enter
  else if c = ',' then r.comma
  else if c = '>' then r.close
  else if c = ')' ∨ c = ']' then r.leave
  else if c = '?' ∨ c = ' ' then { r with name := [] }
  else { r with name := r.name ++ [c] }

end Reading

def constructed (text : String) : List (String × Nat) := (text.toList.foldl Reading.step {}).found

def marks : List Char := ['<', '>', '(', ')', '[', ']', ',', '?', ' ']

def Unmarked (name : String) : Prop := ∀ c ∈ name.toList, c ∉ marks

theorem unmarked_append {a b : String} (ha : Unmarked a) (hb : Unmarked b) : Unmarked (a ++ b) := by
  intro c hc
  rw [String.toList_append] at hc
  rcases List.mem_append.mp hc with hc | hc
  · exact ha c hc
  · exact hb c hc

theorem unmarked_joinNames {outer name : String} (houter : Unmarked outer) (hname : Unmarked name) :
    Unmarked (joinNames outer name) := by
  have hpoint : Unmarked "." := by
    intro c hc
    cases List.mem_singleton.mp hc
    decide
  rw [joinNames]
  split
  · exact hname
  · exact unmarked_append (unmarked_append houter hpoint) hname

theorem foldl_unmarked {name : String} (h : Unmarked name) (r : Reading) :
    name.toList.foldl Reading.step r = { r with name := r.name ++ name.toList } := by
  have hchars {cs : List Char} (hcs : ∀ c ∈ cs, c ∉ marks) (r : Reading) :
      cs.foldl Reading.step r = { r with name := r.name ++ cs } := by
    induction cs generalizing r with
    | nil => simp
    | cons c cs ih =>
      obtain ⟨hc, hcs⟩ := List.forall_mem_cons.mp hcs
      have hstep : r.step c = { r with name := r.name ++ [c] } := by
        simp only [marks, List.mem_cons, List.not_mem_nil, or_false, not_or] at hc
        simp [Reading.step, hc]
      rw [List.foldl_cons, hstep, ih hcs]
      simp
  exact hchars h r

/-- Wherever this text stands behind a mark, the brackets are open behind it that were open before,
and all that has been found by then is known. -/
def Reads (known : String × Nat → Prop) (text : List Char) : Prop :=
  ∀ opened before, (∀ x ∈ before, known x) → ∃ name found,
    text.foldl Reading.step ⟨[], opened, before⟩ = ⟨name, opened, found⟩ ∧ ∀ x ∈ found, known x

variable {known : String × Nat → Prop}

theorem Reads.constructed_known {text : String} (h : Reads known text.toList) :
    ∀ x ∈ constructed text, known x := by
  obtain ⟨name, found, hread, hfound⟩ := h [] [] (List.forall_mem_nil _)
  have hall : constructed text = found := congrArg Reading.found hread
  rw [hall]
  exact hfound

theorem reads_unmarked {name : String} (h : Unmarked name) : Reads known name.toList := by
  intro opened before hbefore
  exact ⟨[] ++ name.toList, before, foldl_unmarked h _, hbefore⟩

def row (texts : List (List Char)) : List Char := [',', ' '].intercalate texts

theorem foldl_row {texts : List (List Char)} (hne : texts ≠ []) (h : ∀ text ∈ texts, Reads known text)
    (b : Bracket) (opened : List Bracket) {before : List (String × Nat)}
    (hbefore : ∀ x ∈ before, known x) :
    ∃ name found, (row texts).foldl Reading.step ⟨[], b :: opened, before⟩ =
      ⟨name, { b with commas := b.commas + (texts.length - 1) } :: opened, found⟩ ∧
        ∀ x ∈ found, known x := by
  induction texts generalizing b before with
  | nil => exact absurd rfl hne
  | cons text texts ih =>
    obtain ⟨htext, htexts⟩ := List.forall_mem_cons.mp h
    obtain ⟨name, found, hread, hfound⟩ := htext (b :: opened) before hbefore
    cases texts with
    | nil =>
      rw [row, List.intercalate_singleton]
      exact ⟨name, found, hread, hfound⟩
    | cons next rest =>
      obtain ⟨last, all, hrest, hall⟩ :=
        ih (List.cons_ne_nil next rest) htexts { b with commas := b.commas + 1 } hfound
      have hcommas : b.commas + 1 + ((next :: rest).length - 1) =
          b.commas + ((text :: next :: rest).length - 1) := by
        simp only [List.length_cons]
        omega
      refine ⟨last, all, ?_, hall⟩
      rw [row, List.intercalate_cons_cons, List.foldl_append, List.foldl_append, hread]
      change (row (next :: rest)).foldl Reading.step
        ⟨[], { b with commas := b.commas + 1 } :: opened, found⟩ = _
      rw [hrest, ← hcommas]

theorem reads_constructed {name : String} (hname : Unmarked name) {texts : List (List Char)}
    (hne : texts ≠ []) (h : ∀ text ∈ texts, Reads known text) (hknown : known (name, texts.length)) :
    Reads known (name.toList ++ '<' :: row texts ++ ['>']) := by
  intro opened before hbefore
  obtain ⟨last, found, hread, hfound⟩ := foldl_row hne h ⟨name.toList, 0⟩ opened hbefore
  refine ⟨name.toList, found ++ [(name, texts.length)], ?_, ?_⟩
  · have hlength : 0 + (texts.length - 1) + 1 = texts.length := by
      have hpos := List.length_pos_iff.mpr hne
      omega
    rw [List.foldl_append, List.foldl_append, foldl_unmarked hname, List.foldl_cons]
    change ['>'].foldl Reading.step ((row texts).foldl Reading.step
      ⟨[], ⟨name.toList, 0⟩ :: opened, before⟩) = _
    rw [hread]
    change Reading.mk name.toList opened
      (found ++ [(String.ofList name.toList, 0 + (texts.length - 1) + 1)]) = _
    rw [hlength, String.ofList_toList]
  · exact List.forall_mem_append.mpr ⟨hfound, List.forall_mem_singleton.mpr hknown⟩

example : constructed "Acme.Pair<(int, Acme.Box<T>[,])?, string>" =
    [("Acme.Box", 1), ("Acme.Pair", 2)] := by decide +kernel

theorem reads_array {text : List Char} (h : Reads known text) (commas : Nat) :
    Reads known (text ++ '[' :: List.replicate commas ',' ++ [']']) := by
  intro opened before hbefore
  obtain ⟨name, found, hread, hfound⟩ := h opened before hbefore
  have hcommas (b : Bracket) : (List.replicate commas ',').foldl Reading.step ⟨[], b :: opened, found⟩ =
      ⟨[], { b with commas := b.commas + commas } :: opened, found⟩ := by
    induction commas generalizing b with
    | zero => rfl
    | succ n ih =>
      rw [List.replicate_succ, List.foldl_cons]
      change (List.replicate n ',').foldl Reading.step
        ⟨[], { b with commas := b.commas + 1 } :: opened, found⟩ = _
      rw [ih, Nat.add_comm n 1, ← Nat.add_assoc]
  refine ⟨[], found, ?_, hfound⟩
  rw [List.foldl_append, List.foldl_append, hread, List.foldl_cons]
  change [']'].foldl Reading.step ((List.replicate commas ',').foldl Reading.step
    ⟨[], ⟨name, 0⟩ :: opened, found⟩) = _
  rw [hcommas]
  rfl

theorem reads_nullable {text : List Char} (h : Reads known text) : Reads known (text ++ ['?']) := by
  intro opened before hbefore
  obtain ⟨name, found, hread, hfound⟩ := h opened before hbefore
  refine ⟨[], found, ?_, hfound⟩
  rw [List.foldl_append, hread]
  rfl

theorem reads_tuple {texts : List (List Char)} (h : ∀ text ∈ texts, Reads known text) :
    Reads known ('(' :: row texts ++ [')']) := by
  intro opened before hbefore
  cases texts with
  | nil => exact ⟨[], before, rfl, hbefore⟩
  | cons text rest =>
    obtain ⟨last, found, hread, hfound⟩ :=
      foldl_row (List.cons_ne_nil text rest) h ⟨[], 0⟩ opened hbefore
    refine ⟨[], found, ?_, hfound⟩
    rw [List.foldl_append, List.foldl_cons]
    change [')'].foldl Reading.step ((row (text :: rest)).foldl Reading.step
      ⟨[], ⟨[], 0⟩ :: opened, before⟩) = _
    rw [hread]
    rfl

end DataClasses.TypeText

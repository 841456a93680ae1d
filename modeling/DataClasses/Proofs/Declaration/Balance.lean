import DataClasses.Proofs.Declaration.Steps
import DataClasses.Proofs.Token.OwnLines

/-!
# Balanced code

Code that is not looked into is passed over whole if it closes what it opens, wherever it stands.
How its brackets pair up does not matter, only that at no place more of them are closed than are
open there.
-/

set_option autoImplicit false

namespace DataClasses

namespace Token

variable {opens closes : Token → Bool} {depth rest k : Nat} {marks : List String} {t u : Token}
  {ts us : List Token}

/-- Code behind which no bracket is open, where that many are open before it. None of its beginnings
closes more than are open. -/
structure Balanced (opens closes : Token → Bool) (depth : Nat) (ts : List Token) : Prop where
  never : ∀ k ≤ ts.length, (ts.take k).countP closes ≤ depth + (ts.take k).countP opens
  settled : ts.countP closes = depth + ts.countP opens

instance (opens closes : Token → Bool) (depth : Nat) (ts : List Token) :
    Decidable (Balanced opens closes depth ts) :=
  decidable_of_iff
    ((∀ k ≤ ts.length, (ts.take k).countP closes ≤ depth + (ts.take k).countP opens) ∧
      ts.countP closes = depth + ts.countP opens)
    ⟨fun h => ⟨h.1, h.2⟩, fun h => ⟨h.never, h.settled⟩⟩

structure Enclosed (marks : List String) (depth : Nat) (ts : List Token) : Prop
    extends Balanced Parse.isOpener Parse.isCloser depth ts where
  inside : ∀ k, (hk : k < ts.length) → ts[k].isAnyMark marks = true →
    (ts.take k).countP Parse.isCloser < depth + (ts.take k).countP Parse.isOpener

instance (marks : List String) (depth : Nat) (ts : List Token) : Decidable (Enclosed marks depth ts) :=
  decidable_of_iff
    (Balanced Parse.isOpener Parse.isCloser depth ts ∧
      ∀ k, (hk : k < ts.length) → ts[k].isAnyMark marks = true →
        (ts.take k).countP Parse.isCloser < depth + (ts.take k).countP Parse.isOpener)
    ⟨fun h => ⟨h.1, h.2⟩, fun h => ⟨h.toBalanced, h.inside⟩⟩

theorem isMark_of_ne {mark other : String} (h : t.isMark mark = true) (hne : mark ≠ other) :
    t.isMark other = false := by
  simp only [isMark, beq_iff_eq] at h
  simpa [isMark, h] using hne

theorem isWord_of_isMark {mark : String} (h : t.isMark mark = true) (word : String) :
    t.isWord word = false := by
  simp only [isMark, beq_iff_eq] at h
  simp [isWord, h]

theorem isDone_of_isMark {mark : String} (h : t.isMark mark = true) : t.isDone = false := by
  simp only [isMark, beq_iff_eq] at h
  simp [isDone, h]

theorem Balanced.nil_depth (h : Balanced opens closes depth []) : depth = 0 := by
  simpa using h.settled.symm

theorem balanced_nil : Balanced opens closes 0 [] := ⟨by simp, by simp⟩

/-- Behind its first token, code is balanced for what is open there. -/
theorem Balanced.tail (h : Balanced opens closes depth (t :: ts))
    (hrest : depth + (if opens t then 1 else 0) = rest + if closes t then 1 else 0) :
    Balanced opens closes rest ts := by
  constructor
  · intro k hk
    have hnever := h.never (k + 1) (Nat.succ_le_succ hk)
    rw [List.take_succ_cons, List.countP_cons, List.countP_cons] at hnever
    omega
  · have hsettled := h.settled
    rw [List.countP_cons, List.countP_cons] at hsettled
    omega

theorem Balanced.cons (h : Balanced opens closes rest ts)
    (hrest : depth + (if opens t then 1 else 0) = rest + if closes t then 1 else 0) :
    Balanced opens closes depth (t :: ts) := by
  constructor
  · intro k hk
    cases k with
    | zero => simp
    | succ k =>
      have hnever := h.never k (Nat.le_of_succ_le_succ hk)
      rw [List.take_succ_cons, List.countP_cons, List.countP_cons]
      omega
  · have hsettled := h.settled
    rw [List.countP_cons, List.countP_cons]
    omega

/-- What is not open is not closed. -/
theorem Balanced.open_before (h : Balanced opens closes depth (t :: ts)) (hopens : opens t = false)
    (hcloses : closes t = true) : 0 < depth := by
  have hnever := h.never 1 (Nat.succ_le_succ (Nat.zero_le _))
  simp [hopens, hcloses] at hnever
  omega

theorem Balanced.append (h : Balanced opens closes 0 ts) (hus : Balanced opens closes depth us) :
    Balanced opens closes depth (ts ++ us) := by
  have hsettled := h.settled
  constructor
  · intro k hk
    rw [List.take_append, List.countP_append, List.countP_append]
    by_cases hlong : k ≤ ts.length
    · have hnever := h.never k hlong
      have hnone : us.take (k - ts.length) = [] := by simp [hlong]
      rw [hnone, List.countP_nil, List.countP_nil]
      omega
    · have hnever := hus.never (k - ts.length) (by rw [List.length_append] at hk; omega)
      rw [List.take_of_length_le (by omega : ts.length ≤ k)]
      omega
  · have := hus.settled
    rw [List.countP_append, List.countP_append]
    omega

/-- Code between brackets is balanced with them. -/
theorem Balanced.wrap (h : Balanced opens closes 0 ts) (ht : opens t = true ∧ closes t = false)
    (hu : opens u = false ∧ closes u = true) : Balanced opens closes 0 (t :: (ts ++ [u])) := by
  have hclose : Balanced opens closes 1 [u] := balanced_nil.cons (by simp [hu])
  exact (h.append hclose).cons (by simp [ht])

theorem Enclosed.tail (h : Enclosed marks depth (t :: ts))
    (hrest : depth + (if Parse.isOpener t then 1 else 0) = rest + if Parse.isCloser t then 1 else 0) :
    Enclosed marks rest ts := by
  refine ⟨h.toBalanced.tail hrest, fun k hk hmark => ?_⟩
  have hinside := h.inside (k + 1) (Nat.succ_lt_succ hk) hmark
  rw [List.take_succ_cons, List.countP_cons, List.countP_cons] at hinside
  omega

theorem enclosed_nil : Enclosed marks 0 [] := ⟨balanced_nil, by simp⟩

theorem Enclosed.cons (h : Enclosed marks rest ts) (hmark : t.isAnyMark marks = true → 0 < depth)
    (hrest : depth + (if Parse.isOpener t then 1 else 0) = rest + if Parse.isCloser t then 1 else 0) :
    Enclosed marks depth (t :: ts) := by
  refine ⟨h.toBalanced.cons hrest, fun k hk hkmark => ?_⟩
  cases k with
  | zero => simpa using hmark hkmark
  | succ k =>
    have hinside := h.inside k (Nat.lt_of_succ_lt_succ hk) hkmark
    rw [List.take_succ_cons, List.countP_cons, List.countP_cons]
    omega

/-- A token that is neither a bracket nor one of the marks changes nothing. -/
theorem Enclosed.plain (h : Enclosed marks depth ts) (hmark : t.isAnyMark marks = false)
    (hopens : Parse.isOpener t = false) (hcloses : Parse.isCloser t = false) :
    Enclosed marks depth (t :: ts) :=
  h.cons (by simp [hmark]) (by simp [hopens, hcloses])

/-- Outside of all brackets stands none of the marks. -/
theorem Enclosed.outside (h : Enclosed marks 0 (t :: ts)) : t.isAnyMark marks = false := by
  by_contra hmark
  have hinside := h.inside 0 (Nat.succ_pos _) (by simpa using hmark)
  simp at hinside

@[simp] theorem later_isAnyMark : (later k t).isAnyMark marks = t.isAnyMark marks := rfl

theorem countP_later {p : Token → Bool} (hp : ∀ t, p (later k t) = p t) (ts : List Token) :
    (ts.map (later k)).countP p = ts.countP p := by
  rw [List.countP_map]
  exact List.countP_congr fun t _ => by rw [Function.comp_apply, hp]

theorem Balanced.later (h : Balanced opens closes depth ts) (k : Nat)
    (hopens : ∀ t, opens (later k t) = opens t) (hcloses : ∀ t, closes (later k t) = closes t) :
    Balanced opens closes depth (ts.map (later k)) := by
  constructor
  · intro n hn
    rw [← List.map_take, countP_later hopens, countP_later hcloses]
    exact h.never n (by simpa using hn)
  · rw [countP_later hopens, countP_later hcloses]
    exact h.settled

theorem Enclosed.later (h : Enclosed marks depth ts) (k : Nat) :
    Enclosed marks depth (ts.map (Token.later k)) := by
  refine ⟨h.toBalanced.later k (fun _ => rfl) (fun _ => rfl), fun n hn hmark => ?_⟩
  rw [← List.map_take, countP_later (fun _ => rfl), countP_later (fun _ => rfl)]
  rw [List.getElem_map, later_isAnyMark] at hmark
  exact h.inside n _ hmark

end Token

namespace Parse

open Token (Balanced Enclosed)

variable {depth e l : Nat} {r : List Diagnostic} {marks stops : List String} {t u : Token}
  {ts us : List Token}

theorem not_opener_of_closer (h : isCloser t = true) : isOpener t = false := by
  obtain ⟨mark, hmark, ht⟩ := List.any_eq_true.mp h
  rw [isOpener, Token.isAnyMark, List.any_eq_false]
  intro other hother
  have hne : ∀ m ∈ [")", "]", closeBrace], ∀ k ∈ ["(", "[", openBrace], m ≠ k := by decide
  simp [Token.isMark_of_ne ht (hne mark hmark other hother)]

/-- A block ends at the brace behind balanced code. -/
theorem blockLength_balanced (h : Balanced (·.isMark openBrace) (·.isMark closeBrace) depth ts)
    (hu : u.isMark closeBrace = true) (us : List Token) :
    blockLength depth (ts ++ u :: us) = (ts.length + 1, true) := by
  induction ts generalizing depth with
  | nil =>
    obtain rfl := h.nil_depth
    simp [blockLength, hu, Token.isMark_of_ne hu (by decide : closeBrace ≠ openBrace)]
  | cons t ts ih =>
    rw [List.cons_append, blockLength.eq_def]
    dsimp only
    by_cases hopens : t.isMark openBrace = true
    · have hcloses := Token.isMark_of_ne hopens (by decide : openBrace ≠ closeBrace)
      rw [if_pos hopens, ih (h.tail (by simp [hopens, hcloses]))]
      rfl
    · rw [if_neg hopens]
      rw [Bool.not_eq_true] at hopens
      by_cases hcloses : t.isMark closeBrace = true
      · rw [if_pos hcloses]
        cases depth with
        | zero => exact absurd (h.open_before hopens hcloses) (Nat.lt_irrefl 0)
        | succ inner =>
          dsimp only
          rw [ih (h.tail (by simp [hopens, hcloses])), List.length_cons]
      · rw [if_neg hcloses, ih (h.tail (by simp [hopens, hcloses]))]
        rfl

/-- An expression ends at the mark behind balanced code in which none of the marks stands outside. -/
theorem expressionLength_enclosed (h : Enclosed marks depth ts)
    (hstops : ∀ mark ∈ stops, mark ∈ marks ∨ mark ∈ [")", "]", closeBrace])
    (hu : u.isAnyMark stops = true)
    (us : List Token) : expressionLength stops depth (ts ++ u :: us) = ts.length := by
  induction ts generalizing depth with
  | nil =>
    obtain rfl := h.nil_depth
    simp [expressionLength, hu]
  | cons t ts ih =>
    have hgoes : (depth == 0 && t.isAnyMark stops) = false := by
      by_contra hstop
      simp only [Bool.not_eq_false, Bool.and_eq_true, beq_iff_eq] at hstop
      obtain ⟨rfl, hstop⟩ := hstop
      obtain ⟨mark, hmark, ht⟩ := List.any_eq_true.mp hstop
      rcases hstops mark hmark with hmark | hmark
      · have houtside := h.outside
        rw [Token.isAnyMark, List.any_eq_false] at houtside
        exact houtside mark hmark ht
      · have hcloser : isCloser t = true := List.any_eq_true.mpr ⟨mark, hmark, ht⟩
        exact absurd (h.open_before (not_opener_of_closer hcloser) hcloser) (Nat.lt_irrefl 0)
    rw [List.cons_append, expressionLength.eq_def]
    dsimp only
    rw [hgoes, if_neg Bool.false_ne_true]
    by_cases hcloses : isCloser t = true
    · have hopens := not_opener_of_closer hcloses
      rw [if_neg (by simp [hopens]), if_pos hcloses]
      cases depth with
      | zero => exact absurd (h.open_before hopens hcloses) (Nat.lt_irrefl 0)
      | succ inner =>
        dsimp only
        rw [ih (h.tail (by simp [hopens, hcloses])), List.length_cons]
    · by_cases hopens : isOpener t = true
      · rw [if_pos hopens, ih (h.tail (by simp [hopens, hcloses])), List.length_cons]
      · rw [if_neg hopens, if_neg hcloses, ih (h.tail (by simp [hopens, hcloses])), List.length_cons]

def lineBehind (l : Nat) (ts : List Token) : Nat := (ts.getLast?.map Token.line).getD l

theorem drop_append (l : Nat) (ts us : List Token) :
    (Cursor.mk (ts ++ us) e l r).drop ts.length = ⟨us, e, lineBehind l ts, r⟩ := by
  rw [Cursor.drop, List.drop_left, List.take_left, lineBehind]

theorem skipBlock_balanced (h : Balanced (·.isMark openBrace) (·.isMark closeBrace) 0 ts)
    (hu : u.isMark closeBrace = true) :
    skipBlock ⟨t :: (ts ++ u :: us), e, l, r⟩ = ((), ⟨us, e, u.line, r⟩) := by
  have hdrop : (Cursor.mk (ts ++ u :: us) e t.line r).drop (ts.length + 1) = ⟨us, e, u.line, r⟩ := by
    have hone := drop_append (e := e) (r := r) t.line (ts ++ [u]) us
    rw [List.append_assoc, List.singleton_append, List.length_append] at hone
    rw [List.length_singleton] at hone
    rw [hone]
    simp [lineBehind]
  rw [skipBlock, bind_apply, skip_apply, drop_one, bind_apply, get_apply]
  simp only [blockLength_balanced h hu us, bind_apply, skip_apply, hdrop]
  rfl

theorem skipExpression_enclosed (h : Enclosed marks 0 ts)
    (hstops : ∀ mark ∈ stops, mark ∈ marks ∨ mark ∈ [")", "]", closeBrace])
    (hu : u.isAnyMark stops = true) :
    skipExpression stops ⟨ts ++ u :: us, e, l, r⟩ = ((), ⟨u :: us, e, lineBehind l ts, r⟩) := by
  rw [skipExpression, bind_apply, get_apply]
  simp only [expressionLength_enclosed h hstops hu us]
  rw [skip_apply, drop_append]

end Parse
end DataClasses

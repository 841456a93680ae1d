import DataClasses.Declaration.Unit
import DataClasses.Proofs.Token.Layout

/-!
# Steps of reading

What the steps that readers are made of come to, where the next token is known. A reader is
followed by rewriting with these.
-/

set_option autoImplicit false

namespace DataClasses

namespace Token

variable {line : Nat} {name : String}

@[simp] theorem ofName_name? : (ofName line name).name? = some name := by
  simp [ofName, name?]

@[simp] theorem ofName_isName : (ofName line name).isName = true := by
  simp [isName]

@[simp] theorem ofName_identifier? : (ofName line name).identifier? = some name := rfl

@[simp] theorem ofName_isIdentifier : (ofName line name).isIdentifier = true := rfl

@[simp] theorem ofName_line : (ofName line name).line = line := rfl

@[simp] theorem ofName_isMark (mark : String) : (ofName line name).isMark mark = false := rfl

@[simp] theorem ofName_isAnyMark (marks : List String) :
    (ofName line name).isAnyMark marks = false := by
  simp [isAnyMark]

@[simp] theorem ofName_isDone : (ofName line name).isDone = false := rfl

theorem ofName_isWord (word : String) :
    (ofName line name).isWord word = (name == word && !Identifier.isKeyword name) := by
  rw [Bool.eq_iff_iff]
  simp [ofName, isWord]

/-- A reserved word that is a name is verbatim, so it is not that word. -/
theorem ofName_isWord_of_keyword {word : String} (h : Identifier.isKeyword word = true) :
    (ofName line name).isWord word = false := by
  rw [ofName_isWord]
  by_cases hw : name = word
  · subst hw
    simp [h]
  · simp [hw]

theorem ofName_isOneOf_of_keywords {words : List String}
    (h : ∀ w ∈ words, Identifier.isKeyword w = true) : (ofName line name).isOneOf words = false := by
  rw [isOneOf, List.any_eq_false]
  intro w hw
  simp [ofName_isWord_of_keyword (h w hw)]

end Token

namespace Parse

variable {α β σ : Type}

theorem bind_apply (x : Parse α) (f : α → Parse β) (c : Cursor) :
    (x >>= f) c = f (x c).1 (x c).2 := rfl

theorem pure_apply (a : α) (c : Cursor) : (pure a : Parse α) c = (a, c) := rfl

theorem map_apply (f : α → β) (x : Parse α) (c : Cursor) : (f <$> x) c = (f (x c).1, (x c).2) := rfl

theorem get_apply (c : Cursor) : (get : Parse Cursor) c = (c, c) := rfl

theorem loop_again {close : σ → α} {round : σ → Parse (Round σ α)} {x y : σ} {c d : Cursor}
    (h : round x c = (.again y, d)) (hless : d.rest.length < c.rest.length) :
    loop close round x c = loop close round y d := by
  unfold loop
  rw [rounds]
  simp [h, hless]

theorem loop_done {close : σ → α} {round : σ → Parse (Round σ α)} {x : σ} {a : α} {c d : Cursor}
    (h : round x c = (.done a, d)) : loop close round x c = (a, d) := by
  unfold loop
  rw [rounds]
  simp [h]

variable {t u : Token} {ts : List Token} {e l : Nat} {r : List Diagnostic}

@[simp] theorem ahead_zero : (Cursor.mk (t :: ts) e l r).ahead 0 = t := rfl

@[simp] theorem ahead_succ (n : Nat) :
    (Cursor.mk (t :: ts) e l r).ahead (n + 1) = (Cursor.mk ts e l r).ahead n := rfl

@[simp] theorem ahead_one : (Cursor.mk (t :: u :: ts) e l r).ahead 1 = u := rfl

@[simp] theorem drop_one : (Cursor.mk (t :: ts) e l r).drop 1 = ⟨ts, e, t.line, r⟩ := rfl

theorem current_apply (c : Cursor) : current c = (c.ahead 0, c) := rfl

theorem skip_apply (n : Nat) (c : Cursor) : skip n c = ((), c.drop n) := rfl

theorem advance_apply : advance ⟨t :: ts, e, l, r⟩ = (t, ⟨ts, e, t.line, r⟩) := rfl

theorem atMark_apply (mark : String) (c : Cursor) : atMark mark c = ((c.ahead 0).isMark mark, c) := rfl

theorem atWord_apply (word : String) (c : Cursor) : atWord word c = ((c.ahead 0).isWord word, c) := rfl

theorem atEnd_apply (c : Cursor) : atEnd c = ((c.ahead 0).isDone, c) := rfl

theorem eatMark_of {mark : String} (h : t.isMark mark = true) :
    eatMark mark ⟨t :: ts, e, l, r⟩ = (true, ⟨ts, e, t.line, r⟩) := by
  rw [eatMark, bind_apply, atMark_apply]
  simp only [ahead_zero, h]
  rfl

theorem eatMark_of_ahead {mark : String} {c : Cursor} (h : (c.ahead 0).isMark mark = false) :
    eatMark mark c = (false, c) := by
  rw [eatMark, bind_apply, atMark_apply]
  simp only [h]
  rfl

theorem eatMark_not {mark : String} (h : t.isMark mark = false) :
    eatMark mark ⟨t :: ts, e, l, r⟩ = (false, ⟨t :: ts, e, l, r⟩) := eatMark_of_ahead h

theorem eatWord_not {word : String} (h : t.isWord word = false) :
    eatWord word ⟨t :: ts, e, l, r⟩ = (false, ⟨t :: ts, e, l, r⟩) := by
  rw [eatWord, bind_apply, atWord_apply]
  simp only [ahead_zero, h]
  rfl

theorem expectMark_of {mark : String} (fault : Fault) (h : t.isMark mark = true) :
    expectMark mark fault ⟨t :: ts, e, l, r⟩ = (true, ⟨ts, e, t.line, r⟩) := by
  rw [expectMark, bind_apply, eatMark_of h]
  rfl

theorem expectSemicolon_of (h : t.isMark ";" = true) :
    expectSemicolon ⟨t :: ts, e, l, r⟩ = ((), ⟨ts, e, t.line, r⟩) := by
  rw [expectSemicolon, bind_apply, expectMark_of _ h]
  rfl

theorem report_apply (fault : Fault) (line : Nat) :
    report fault line ⟨ts, e, l, r⟩ = ((), ⟨ts, e, l, fault.onLine line :: r⟩) := rfl

theorem expectName_of {name : String} (h : t.name? = some name) :
    expectName ⟨t :: ts, e, l, r⟩ = (some name, ⟨ts, e, t.line, r⟩) := by
  rw [expectName, bind_apply, current_apply]
  simp only [ahead_zero, h]
  rfl

theorem expectName_not (h : t.name? = none) :
    expectName ⟨t :: ts, e, l, r⟩ = (none, (report .nameExpected t.line ⟨t :: ts, e, l, r⟩).2) := by
  rw [expectName, bind_apply, current_apply]
  simp only [ahead_zero, h]
  rfl

end Parse
end DataClasses

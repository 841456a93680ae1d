import DataClasses.Proofs.Token.OwnLines
import DataClasses.Proofs.Walk.Units

/-!
# Every source is walked through

Whatever the source text is, the walk over its tokens comes to an end: no token is asked for that
is not there, nothing is closed that is not open, and no repetition takes more rounds than there are
tokens. It reads what the reader reads, and leaves nothing open and only the end to be passed.
-/

set_option autoImplicit false

namespace DataClasses

namespace Token

/-- The last token is the end, on the last line, and no other token is. -/
theorem scan_ends (line : Nat) (fresh : Bool) (cs : List Char) :
    ∃ before endLine, (scan line fresh cs).1 = before ++ [⟨.done, endLine⟩] ∧ line ≤ endLine ∧
      ∀ t ∈ before, t.isDone = false ∧ t.line ≤ endLine := by
  obtain ⟨before, htokens, hreadable⟩ := scan_inside line fresh cs
  let extent : Extent := ⟨fun n => n ≤ line + lineEnds cs, Identifier.IsName⟩
  have hstands := (scan_stands (e := extent) (fun _ h => h) line fresh cs fun _ _ h => h).1
  rw [htokens] at hstands
  refine ⟨before, line + lineEnds cs, htokens, Nat.le_add_right _ _, fun t ht =>
    ⟨?_, (hstands t (List.mem_append_left _ ht)).line⟩⟩
  refine beq_eq_false_iff_ne.mpr fun hdone => ?_
  have h := hreadable t ht
  rw [hdone] at h
  exact h

end Token

namespace Walk

/-- The walk over the tokens of a source, for which each repetition may take so many rounds and
what is nested may stand so many levels deep. -/
def ofSource (patience : Nat) (source : String) : Option ((SourceUnit × List Diagnostic) × Place) :=
  let (tokens, diagnostics) := Token.ofSource source
  match sourceUnit patience ⟨tokens, patience⟩ {} with
  | some (u, p) => some ((u, diagnostics ++ p.reports.reverse), p)
  | none => none

/-- The walk ends where no tokens are left but the end. -/
theorem sourceUnit_walks (g : Course) (h : Parse.depthLimit < g.patience) :
    sourceUnit g.patience g.ground {} = some ((Parse.sourceUnit (g.cursor {})).1,
      ⟨g.before.length, 0, (Parse.sourceUnit (g.cursor {})).2.reports⟩) := by
  obtain ⟨q, hrun, hcursor, hq⟩ := sourceUnit_follows h {} ⟨Nat.zero_le _, rfl⟩
  have hdone := Parse.sourceUnit_stops (g.cursor {})
  rw [← hcursor, Course.isDone_iff] at hdone
  have hposition : q.position = g.before.length := by have := hq.inside; omega
  have hdepth : q.depth = 0 := by have := hq.depth; omega
  rw [hrun, ← hcursor, ← hposition, ← hdepth]
  rfl

/-- The reader starts where the walk does. -/
theorem start_eq (g : Course) : Parse.start g.ground.tokens = g.cursor {} := by
  simp [Parse.start, Course.ground, Course.cursor]

/-- The walk through a source ends, however many rounds more it may take, with what the reader reads;
nothing is open any more, and it stands at the only end among the tokens. -/
theorem ofSource_walks (source : String) :
    ∃ place : Place,
      (∀ more, ofSource (max (Token.ofSource source).1.length (Parse.depthLimit + 1) + more) source =
        some (SourceUnit.ofSource source, place)) ∧
      place.depth = 0 ∧
      (Token.ofSource source).1.findIdx? Token.isDone = some place.position ∧
      (Token.ofSource source).1.length = place.position + 1 := by
  obtain ⟨before, endLine, htokens, -, hbefore⟩ := Token.scan_ends 1 true source.toList
  rcases hsource : Token.ofSource source with ⟨tokens, diagnostics⟩
  rw [← Token.ofSource, hsource] at htokens
  subst htokens
  refine ⟨⟨before.length, 0,
    (Parse.sourceUnit (Parse.start (before ++ [⟨.done, endLine⟩]))).2.reports⟩, fun more => ?_,
    rfl, ?_, by simp⟩
  · let patience := max (before ++ [(⟨.done, endLine⟩ : Token)]).length (Parse.depthLimit + 1) + more
    have henough : before.length < patience ∧ Parse.depthLimit < patience := by
      simp only [patience, List.length_append, List.length_singleton]
      omega
    let g : Course := ⟨before, endLine, patience, fun t ht => (hbefore t ht).1,
      fun t ht => (hbefore t ht).2, henough.1⟩
    have hwalk := sourceUnit_walks g henough.2
    rw [← start_eq g] at hwalk
    have hunit : SourceUnit.ofSource source =
        ((Parse.sourceUnit (Parse.start g.ground.tokens)).1,
          diagnostics ++ (Parse.sourceUnit (Parse.start g.ground.tokens)).2.reports.reverse) := by
      rw [SourceUnit.ofSource, hsource]
      rfl
    change ofSource patience source = _
    rw [ofSource, hsource, hunit]
    exact congrArg (fun found => match found with
      | some (u, p) => some ((u, diagnostics ++ p.reports.reverse), p)
      | none => none) hwalk
  · have hnone : before.findIdx? Token.isDone = none :=
      List.findIdx?_eq_none_iff.mpr fun t ht => (hbefore t ht).1
    simp [List.findIdx?_append, hnone, Token.isDone]

end Walk
end DataClasses

import DataClasses.Proofs.Binding.Lines
import DataClasses.Proofs.Compiler.Agreement
import DataClasses.Proofs.Token.Lines

/-!
# Reports by lines

A validation gives the failures in the order of their lines, and those on one line in the order in
which they were found: in the tokens, in the order of the tokens, and in the names.
-/

set_option autoImplicit false

namespace DataClasses

def SourceUnit.orderReports (source : String) : List Diagnostic :=
  (Parse.sourceUnit (Parse.start (Token.ofSource source).1)).2.reports.reverse

namespace Compiler

theorem byLine_perm (ds : List Diagnostic) : (byLine ds).Perm ds := List.mergeSort_perm ds _

theorem line_le_trans (a b c : Diagnostic) (hab : decide (a.line ≤ b.line) = true)
    (hbc : decide (b.line ≤ c.line) = true) : decide (a.line ≤ c.line) = true := by
  simp only [decide_eq_true_eq] at *
  omega

theorem line_le_total (a b : Diagnostic) :
    (decide (a.line ≤ b.line) || decide (b.line ≤ a.line)) = true := by
  simp only [Bool.or_eq_true, decide_eq_true_eq]
  omega

theorem byLine_sorted (ds : List Diagnostic) : (byLine ds).Pairwise fun a b => a.line ≤ b.line :=
  (List.pairwise_mergeSort line_le_trans line_le_total ds).imp of_decide_eq_true

/-- Sorting keeps the order of the reports on a line. -/
theorem byLine_filter (ds : List Diagnostic) (n : Nat) :
    (byLine ds).filter (·.line == n) = ds.filter (·.line == n) := by
  have hline : (ds.filter (·.line == n)).Pairwise fun a b => decide (a.line ≤ b.line) = true := by
    apply List.pairwise_of_forall_mem_list
    intro a ha b hb
    have hsame : a.line = n ∧ b.line = n :=
      ⟨beq_iff_eq.mp (List.mem_filter.mp ha).2, beq_iff_eq.mp (List.mem_filter.mp hb).2⟩
    simp [hsame]
  have hsub : (ds.filter (·.line == n)).Sublist (byLine ds) :=
    List.sublist_mergeSort line_le_trans line_le_total hline List.filter_sublist
  have hfiltered : (ds.filter (·.line == n)).Sublist ((byLine ds).filter (·.line == n)) := by
    have h := hsub.filter (·.line == n)
    rwa [List.filter_filter, List.filter_congr (q := (·.line == n)) (by simp)] at h
  exact (hfiltered.eq_of_length ((byLine_perm ds).filter _).length_eq.symm).symm

def found (o : BuildOptions) (source : String) (references : List Assembly) : List Diagnostic :=
  let reports := (Token.ofSource source).2 ++ SourceUnit.orderReports source ++
    ((SourceUnit.ofSource source).1.bind references).diagnostics
  if o.warningsAsErrors then reports.map promote else reports

theorem examine_found {c : Compiler} {s : Settings} {files : Files} {cache : Cache}
    {references : List Assembly} (source : String)
    (h : ((do let _ ← c.optionsFor s; c.references s : Build (List Assembly)).run files cache).1 =
      .ok references) :
    ∃ o a after, ((c.optionsFor s).run files cache).1 = .ok o ∧
      (c.examine source s).run files cache = (.ok (o, a), after) ∧
      a.diagnostics = byLine (found o source references) := by
  obtain ⟨o, a, after, hexamine⟩ := examine_ok source h
  obtain ⟨o', middle, hoptions, hrest⟩ := Build.ok_bind hexamine
  obtain ⟨a', last, hanalyze, hlast⟩ := Build.ok_bind hrest
  obtain ⟨hpair, -⟩ := Build.ok_pure hlast
  cases hpair
  have hreferences : ((c.references s).run files middle).1 = .ok references := by
    rw [Build.run_bind, hoptions] at h
    exact h
  refine ⟨o, a, after, congrArg Prod.fst hoptions, hexamine, ?_⟩
  obtain ⟨references', next, hfound, hresult⟩ := Build.ok_bind hanalyze
  rw [hfound] at hreferences
  cases hreferences
  obtain ⟨rfl, -⟩ := Build.ok_pure hresult
  rfl

/-- Whatever is reported of a source stands on one of its lines. Where the libraries can be read, a
validation gives the failures among all that is found, by lines, with those on a line in the order in
which they were found. -/
theorem reports_by_lines (source : String) :
    (∀ d ∈ (SourceUnit.ofSource source).2, 1 ≤ d.line ∧ d.line ≤ source.toList.count '\n' + 1) ∧
    (∀ references, ∀ d ∈ ((SourceUnit.ofSource source).1.bind references).diagnostics,
      1 ≤ d.line ∧ d.line ≤ source.toList.count '\n' + 1) ∧
    ∀ (c : Compiler) (s : Settings) (files : Files) (cache : Cache) (references : List Assembly),
      Text.allBlank source = false →
      ((do let _ ← c.optionsFor s; c.references s : Build (List Assembly)).run files cache).1 =
        .ok references →
      ∃ o ds, ((c.optionsFor s).run files cache).1 = .ok o ∧
        ((c.validate source s).run files cache).1 = .ok ds ∧
        (∀ d ∈ ds, d.isFailure = true) ∧
        (ds.Pairwise fun a b => a.line ≤ b.line) ∧
        ∀ n, ds.filter (·.line == n) =
          ((found o source references).filter (·.isFailure)).filter (·.line == n) := by
  obtain ⟨hunit, hreports⟩ := SourceUnit.ofSource_stands source
  refine ⟨hreports, SourceUnit.bind_lined hunit, ?_⟩
  intro c s files cache references hblank h
  obtain ⟨o, a, after, hoptions, hexamine, hfound⟩ := examine_found source h
  refine ⟨o, a.failures, hoptions, congrArg Prod.fst (validate_of_examine hblank hexamine), ?_, ?_, ?_⟩
  · intro d hd
    exact (List.mem_filter.mp hd).2
  · rw [Analysis.failures, hfound]
    exact (byLine_sorted _).sublist List.filter_sublist
  · intro n
    rw [Analysis.failures, hfound, List.filter_comm, byLine_filter, List.filter_comm]

def strayMarks : String := "\x7d\n$"

theorem strayMarks_found (references : List Assembly) :
    found (.choose true false) strayMarks references =
      [Lexeme.Flaw.onLine 2 (.strayCharacter '$'), .error "CS1022" Parse.Fault.misplaced.message 1] := by
  have hflaws : (Token.ofSource strayMarks).2 = [Lexeme.Flaw.onLine 2 (.strayCharacter '$')] := by
    decide +kernel
  have horder : SourceUnit.orderReports strayMarks =
      [.error "CS1022" Parse.Fault.misplaced.message 1] := by
    decide +kernel
  have himports : (SourceUnit.ofSource strayMarks).1.imports = [] :=
    List.eq_nil_of_length_eq_zero (by decide +kernel)
  have hmembers : (SourceUnit.ofSource strayMarks).1.members = [] :=
    List.eq_nil_of_length_eq_zero (by decide +kernel)
  have hnames : ((SourceUnit.ofSource strayMarks).1.bind references).diagnostics = [] := by
    simp [SourceUnit.bind, Binding.bindUnit, himports, hmembers, Binding.declaredTypes,
      Binding.repeatedTypes, Binding.bindImports, Binding.bindImportsInto, Binding.bindDeclarations,
      Binding.distinct]
  rw [found, hflaws, horder, hnames]
  rfl

/-- The character is found first, and the brace comes first. -/
theorem stray_marks_reported :
    ∃ ds, ((({} : Compiler).validate strayMarks {}).run [] {}).1 = .ok ds ∧
      (ds.Pairwise fun a b => a.line ≤ b.line) ∧
      ds.filter (·.line == 1) = [.error "CS1022" Parse.Fault.misplaced.message 1] ∧
      ds.filter (·.line == 2) = [Lexeme.Flaw.onLine 2 (.strayCharacter '$')] := by
  obtain ⟨-, -, hvalidate⟩ := reports_by_lines strayMarks
  obtain ⟨o, ds, hoptions, hds, -, hsorted, hlines⟩ := hvalidate {} {} [] {} _ (by decide)
    (references_fresh [] [(true, .choose true false)] {})
  obtain rfl : BuildOptions.choose true false = o := Except.ok.inj hoptions
  refine ⟨ds, hds, hsorted, ?_, ?_⟩
  · rw [hlines 1, strayMarks_found]
    rfl
  · rw [hlines 2, strayMarks_found]
    rfl

end Compiler

end DataClasses

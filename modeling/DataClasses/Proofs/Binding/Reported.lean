import DataClasses.Binding.Unit
import Mathlib.Data.List.Nodup

/-!
# What is reported on the way to a result

The value and the reports of steps in turn, and reports that decide whether a condition holds.
-/

set_option autoImplicit false

namespace DataClasses.Binding

namespace Reported

variable {α β : Type}

@[simp] theorem pure_value (a : α) : (pure a : Reported α).value = a := rfl

@[simp] theorem pure_reports (a : α) : (pure a : Reported α).reports = [] := rfl

@[simp] theorem bind_value (x : Reported α) (f : α → Reported β) :
    (x >>= f).value = (f x.value).value := rfl

@[simp] theorem bind_reports (x : Reported α) (f : α → Reported β) :
    (x >>= f).reports = x.reports ++ (f x.value).reports := rfl

@[simp] theorem say_reports (reports : List Diagnostic) : (say reports).reports = reports := rfl

@[simp] theorem sayIf_reports (condition : Bool) (line : Nat) (p : Problem) :
    (sayIf condition line p).reports = if condition then [p.onLine line] else [] := rfl

theorem bind_pure (a : α) (f : α → Reported β) : (pure a : Reported α) >>= f = f a := rfl

end Reported

structure Verdict (reports : List Diagnostic) (ok : Prop) : Prop where
  nil_iff : reports = [] ↔ ok
  errors : ∀ d ∈ reports, d.severity = .error

namespace Verdict

variable {first second : List Diagnostic} {p q : Prop}

theorem silent (h : p) : Verdict [] p := ⟨by simp [h], by simp⟩

theorem append (hp : Verdict first p) (hq : Verdict second q) : Verdict (first ++ second) (p ∧ q) := by
  refine ⟨by rw [List.append_eq_nil_iff, hp.nil_iff, hq.nil_iff], fun d hd => ?_⟩
  rcases List.mem_append.mp hd with hd | hd
  · exact hp.errors d hd
  · exact hq.errors d hd

theorem congr (h : p ↔ q) (hp : Verdict first p) : Verdict first q :=
  ⟨hp.nil_iff.trans h, hp.errors⟩

theorem report {condition : Bool} {d : Diagnostic} (hd : d.severity = .error)
    (h : condition = true ↔ ¬p) : Verdict (if condition then [d] else []) p := by
  cases condition with
  | true => exact ⟨by simpa using h, by simpa using hd⟩
  | false => exact silent (by simpa using h)

end Verdict

/-- All that is reported of a name is on the line on which it is claimed. -/
theorem claimProblems_mem {head : TypeHead} {full : String} {used : UsedNames} {c : NameClaim} :
    ∀ d ∈ claimProblems head full used c, d = (Problem.namedLikeType c.name).onLine c.line ∨
      d = (Problem.repeatedMember full c.name).onLine c.line := by
  intro d hd
  rw [claimProblems] at hd
  split at hd
  · cases hd
  · rcases List.mem_append.mp hd with hd | hd
    · split at hd
      · exact .inl (List.mem_singleton.mp hd)
      · cases hd
    · split at hd
      · cases hd
      · split at hd
        · cases hd
        · exact .inr (List.mem_singleton.mp hd)

theorem claimAll_mem {head : TypeHead} {full : String} {cs : List NameClaim} {used : UsedNames} :
    ∀ d ∈ (claimAll head full used cs).reports, ∃ c ∈ cs,
      d = (Problem.namedLikeType c.name).onLine c.line ∨
        d = (Problem.repeatedMember full c.name).onLine c.line := by
  induction cs generalizing used with
  | nil => simp [claimAll]
  | cons c cs ih =>
    intro d hd
    rw [claimAll, Reported.bind_reports] at hd
    rcases List.mem_append.mp hd with hd | hd
    · exact ⟨c, List.mem_cons_self, claimProblems_mem d hd⟩
    · obtain ⟨c', hc', hreport⟩ := ih d hd
      exact ⟨c', List.mem_cons_of_mem _ hc', hreport⟩

/-- A repeated type is reported on the line on which it is declared. -/
theorem repeatedTypes_mem {before ds : List Declared} :
    ∀ report ∈ repeatedTypes before ds, ∃ d ∈ ds,
      report = (Problem.repeatedType d.container d.name).onLine d.line := by
  induction ds generalizing before with
  | nil => simp [repeatedTypes]
  | cons d ds ih =>
    intro report hreport
    have hrest {before : List Declared} (h : report ∈ repeatedTypes before ds) : ∃ e ∈ d :: ds,
        report = (Problem.repeatedType e.container e.name).onLine e.line := by
      obtain ⟨e, he, heq⟩ := ih report h
      exact ⟨e, List.mem_cons_of_mem _ he, heq⟩
    rw [repeatedTypes] at hreport
    split at hreport
    · exact hrest hreport
    · rcases List.mem_append.mp hreport with hreport | hreport
      · split at hreport
        · exact ⟨d, List.mem_cons_self, List.mem_singleton.mp hreport⟩
        · cases hreport
      · exact hrest hreport

theorem mem_distinct {reports : List Diagnostic} {d : Diagnostic} :
    d ∈ distinct reports ↔ d ∈ reports := by
  have hfold (acc : List Diagnostic) :
      d ∈ reports.foldl (fun acc d => if acc.contains d then acc else acc ++ [d]) acc ↔
        d ∈ acc ∨ d ∈ reports := by
    induction reports generalizing acc with
    | nil => simp
    | cons e reports ih =>
      rw [List.foldl_cons, ih, List.mem_cons]
      by_cases he : e ∈ acc
      · simp only [List.contains_eq_mem, he, decide_true, if_true]
        constructor
        · rintro (h | h)
          · exact .inl h
          · exact .inr (.inr h)
        · rintro (h | rfl | h)
          · exact .inl h
          · exact .inl he
          · exact .inr h
      · simp [he, or_assoc]
  rw [distinct, hfold]
  simp

theorem distinct_nodup (reports : List Diagnostic) : (distinct reports).Nodup := by
  have hfold (acc : List Diagnostic) (hacc : acc.Nodup) :
      (reports.foldl (fun acc d => if acc.contains d then acc else acc ++ [d]) acc).Nodup := by
    induction reports generalizing acc with
    | nil => exact hacc
    | cons d reports ih =>
      rw [List.foldl_cons]
      apply ih
      split
      · exact hacc
      · next hnew =>
        rw [List.contains_iff_mem] at hnew
        rw [List.nodup_append_comm, List.singleton_append, List.nodup_cons]
        exact ⟨hnew, hacc⟩
  exact hfold [] List.nodup_nil

/-- What is reported at all does not depend on the order in which it was found. -/
theorem distinct_perm {reports others : List Diagnostic} (h : reports.Perm others) :
    (distinct reports).Perm (distinct others) := by
  rw [List.perm_ext_iff_of_nodup (distinct_nodup reports) (distinct_nodup others)]
  intro d
  rw [mem_distinct, mem_distinct]
  exact h.mem_iff

end DataClasses.Binding

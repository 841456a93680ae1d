import DataClasses.Proofs.Binding.Placed
import DataClasses.Proofs.Binding.Sites
import Mathlib.Data.List.Pairwise

/-!
# What an error says about names

Where no error is reported, members of one declaration that share a name are methods or partial types,
and types of one name outside of others are partial.
-/

set_option autoImplicit false

namespace DataClasses

open Binding
open Identifier (IsName)

namespace Binding

theorem mayShare_iff {first second : NameUse} :
    first.mayShare second = true ↔ first = second ∧ first ≠ .other := by
  simp [NameUse.mayShare]

def NameClaim.Shares (a b : NameClaim) : Prop :=
  a.name ≠ "" → a.name = b.name → a.use.mayShare b.use = true

theorem claimAll_severity {head : TypeHead} {full : String} {cs : List NameClaim} {used : UsedNames} :
    ∀ d ∈ (claimAll head full used cs).reports, d.severity = .error := by
  intro d hd
  obtain ⟨c, -, rfl | rfl⟩ := claimAll_mem d hd
  · rfl
  · rfl

theorem mayShare_of_silent {head : TypeHead} {full : String} {used : UsedNames} {c : NameClaim}
    (h : claimProblems head full used c = []) (hname : c.name ≠ "") {first : NameUse}
    (hfirst : used.get? c.name = some first) : first.mayShare c.use = true := by
  rw [claimProblems, if_neg (by simpa using hname), hfirst] at h
  have hclash := (List.append_eq_nil_iff.mp h).2
  by_contra hno
  simp [hno] at hclash

/-- A name keeps the use it had first. -/
theorem claim_get? {used : UsedNames} {c : NameClaim} (hname : c.name ≠ "") (other : String) :
    (claim used c).get? other =
      (used.get? other).or (if c.name = other then some c.use else none) := by
  have hempty : c.name.isEmpty = false := by simpa using hname
  rw [claim, hempty, Bool.false_or]
  by_cases hhas : used.has c.name = true
  · rw [if_pos hhas]
    split
    · next heq =>
      cases hget : used.get? other with
      | none => exact absurd (heq ▸ Entries.has_iff.mp hhas) (Entries.get?_eq_none_iff.mp hget)
      | some first => rfl
    · rw [Option.or_none]
  · rw [if_neg hhas, Entries.get?_put]
    split
    · next heq =>
      have hnone : used.get? other = none :=
        Entries.get?_eq_none_iff.mpr fun hmem => hhas (Entries.has_iff.mpr (heq ▸ hmem))
      rw [hnone, Option.none_or]
    · rw [Option.or_none]

/-- Claims of which nothing is reported clash neither with names used before nor with each other. -/
theorem claimAll_silent {head : TypeHead} {full : String} {cs : List NameClaim} {used : UsedNames}
    (h : (claimAll head full used cs).reports = []) :
    (∀ c ∈ cs, c.name ≠ "" → ∀ first, used.get? c.name = some first →
      first.mayShare c.use = true) ∧
      cs.Pairwise NameClaim.Shares := by
  induction cs generalizing used with
  | nil => exact ⟨nofun, List.Pairwise.nil⟩
  | cons c cs ih =>
    rw [claimAll, Reported.bind_reports, Reported.say_reports, List.append_eq_nil_iff] at h
    obtain ⟨hused, hcs⟩ := ih h.2
    refine ⟨?_, List.pairwise_cons.mpr ⟨?_, hcs⟩⟩
    · intro d hd hname first hfirst
      rcases List.mem_cons.mp hd with rfl | hd
      · exact mayShare_of_silent h.1 hname hfirst
      · by_cases hc : c.name = ""
        · have hclaim : claim used c = used := by simp [claim, hc]
          exact hused d hd hname first (by rw [hclaim, hfirst])
        · exact hused d hd hname first (by rw [claim_get? hc, hfirst, Option.some_or])
    · intro d hd hname heq
      have hkept := hused d hd (heq ▸ hname)
      rw [claim_get? hname, if_pos heq] at hkept
      cases hfirst : used.get? d.name with
      | none =>
        rw [hfirst] at hkept
        exact hkept c.use rfl
      | some first =>
        -- What used the name first decides for both.
        rw [hfirst] at hkept
        have hc := mayShare_iff.mp (mayShare_of_silent h.1 hname (heq ▸ hfirst))
        have hd := mayShare_iff.mp (hkept first rfl)
        exact mayShare_iff.mpr ⟨hc.1.symm.trans hd.1, hc.1 ▸ hc.2⟩

theorem partial_of_shares {head head' : TypeHead}
    (h : NameClaim.Shares ⟨head.name, if head.isPartial then .partialType else .other, head.line⟩
      ⟨head'.name, if head'.isPartial then .partialType else .other, head'.line⟩)
    (hname : head.name ≠ "") (heq : head.name = head'.name) :
    head.isPartial = true ∧ head'.isPartial = true := by
  obtain ⟨huse, hother⟩ := mayShare_iff.mp (h hname heq)
  cases hfirst : head.isPartial with
  | false => simp [hfirst] at hother
  | true =>
    cases hsecond : head'.isPartial with
    | false => simp [hfirst, hsecond] at huse
    | true => exact ⟨rfl, rfl⟩

end Binding

section

variable {u : SourceUnit} {references : List Assembly}
  (h : ∀ d ∈ (u.bind references).diagnostics, d.severity ≠ .error)

include h

/-- The members of a declaration that have the same name are methods or partial types. -/
theorem SourceUnit.claims_share {p : TypePart} (hp : p ∈ u.parts) :
    (p.members.flatMap claims).Pairwise NameClaim.Shares := by
  obtain ⟨full, hclaims⟩ := (u.bound_records references).claims p hp
  have hsilent : (claimsOf p full).reports = [] := by
    rw [List.eq_nil_iff_forall_not_mem]
    intro d hd
    exact h d (mem_distinct.mpr (hclaims d hd)) (claimAll_severity d hd)
  exact (claimAll_silent hsilent).2

theorem SourceUnit.repeatedTypes_nil : repeatedTypes [] (declaredTypes "" u.members) = [] := by
  rw [List.eq_nil_iff_forall_not_mem]
  intro d hd
  exact h d (mem_distinct.mpr (List.mem_append_left _ hd)) (repeatedTypes_severity _ _ d hd)

/-- Two members of a declaration that are types of one name are partial. -/
theorem SourceUnit.members_partial {outer p q : TypePart} {i k : Nat} (houter : outer ∈ u.parts)
    (hp : p.StandsAt i outer) (hq : q.StandsAt k outer) (hik : i ≠ k) (hname : p.head.name ≠ "")
    (heq : p.head.name = q.head.name) : p.head.isPartial = true ∧ q.head.isPartial = true := by
  obtain ⟨hi, hpi⟩ := List.getElem?_eq_some_iff.mp hp.member
  obtain ⟨hk, hqk⟩ := List.getElem?_eq_some_iff.mp hq.member
  have hshare := (List.pairwise_flatMap.mp (SourceUnit.claims_share h houter)).2
  rw [List.pairwise_iff_getElem] at hshare
  rcases Nat.lt_or_gt_of_ne hik with hlt | hlt
  · have hclaims := hshare i k hi hk hlt
    rw [hpi, hqk] at hclaims
    exact partial_of_shares (hclaims _ List.mem_cons_self _ List.mem_cons_self) hname heq
  · have hclaims := hshare k i hk hi hlt
    rw [hpi, hqk] at hclaims
    exact (partial_of_shares (hclaims _ List.mem_cons_self _ List.mem_cons_self) (heq ▸ hname)
      heq.symm).symm

/-- Two declarations of one type outside of others are partial. -/
theorem SourceUnit.outermost_partial {e : Extent} (he : ∀ name, e.hasName name → IsName name)
    (hu : u.StandsIn e) {p q : TypePart} (hp : p ∈ u.parts) (hq : q ∈ u.parts)
    (hsite : p.site ≠ q.site) (houter : p.around = []) (houter' : q.around = [])
    (heq : p.identity = q.identity) : p.head.isPartial = true ∧ q.head.isPartial = true := by
  have hjoin := (repeatedTypes_silent (SourceUnit.repeatedTypes_nil h)).2
  rw [declaredTypes_eq he "" [] 0 u.members (Declaration.allStandIn_iff.mpr hu.members),
    List.pairwise_map] at hjoin
  have hsymm : Std.Symm fun p q : TypePart => p.declared.Joins q.declared :=
    ⟨fun _ _ hpq hqp houter houter' => (hpq hqp.symm houter' houter).symm⟩
  have hidentity : p.declared.identity = q.declared.identity := by
    obtain ⟨-, hlevel⟩ := TypePart.names_eq he (SourceUnit.parts_stand hu p hp)
      (SourceUnit.parts_stand hu q hq) heq
    simp only [TypeHead.level, Prod.mk.injEq] at hlevel
    have hscope : p.scope = q.scope := congrArg Prod.fst heq
    simp [Declared.identity, Declared.fullName, TypePart.declared, houter, houter', hlevel, hscope]
  have hne : p ≠ q := fun hpq => hsite (congrArg TypePart.site hpq)
  exact hjoin.forall hp hq hne hidentity (by simp [TypePart.declared, houter])
    (by simp [TypePart.declared, houter'])

end

end DataClasses

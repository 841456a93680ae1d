import DataClasses.Proofs.Binding.Merging

/-!
# Names of members

The names that the members of a type can have. Where no error is reported, the members of one
declaration have such names; those of a type have them if no two of its declarations are at odds.
-/

set_option autoImplicit false

namespace DataClasses

open Binding
open Identifier (IsName)

/-- Members of these kinds may have one name: any with a constructor, and methods with each other. -/
def MemberKind.Share (k l : MemberKind) : Prop :=
  k = .constructor ∨ l = .constructor ∨ k = .method ∧ l = .method

def MembersFit (a b : String × MemberKind) : Prop := a.1 = b.1 → a.2.Share b.2

instance (a b : String × MemberKind) : Decidable (MembersFit a b) :=
  inferInstanceAs (Decidable (_ → _ ∨ _ ∨ _ ∧ _))

theorem MembersFit.symm {a b : String × MemberKind} (h : MembersFit a b) : MembersFit b a := by
  intro heq
  rcases h heq.symm with ha | hb | ⟨ha, hb⟩
  · exact .inr (.inl ha)
  · exact .inl hb
  · exact .inr (.inr ⟨hb, ha⟩)

def MemberEntry.Fits (m n : MemberEntry) : Prop := MembersFit (m.name, m.kind) (n.name, n.kind)

def MemberKind.use : MemberKind → NameUse
  | .method => .method
  | _ => .other

structure Binding.NameClaim.IsFor (c : NameClaim) (a : String × MemberKind) : Prop where
  name : c.name = a.1
  use : c.use = a.2.use
  named : a.1 = "" → a.2 = .method

theorem fits_of_shares {a b : String × MemberKind} {c d : NameClaim} (h : c.Shares d)
    (hc : c.IsFor a) (hd : d.IsFor b) : MembersFit a b := by
  intro heq
  right; right
  by_cases hempty : a.1 = ""
  · exact ⟨hc.named hempty, hd.named (heq ▸ hempty)⟩
  · have hmay := h (hc.name ▸ hempty) (hc.name.trans (heq.trans hd.name.symm))
    rw [hc.use, hd.use] at hmay
    obtain ⟨huse, hother⟩ := mayShare_iff.mp hmay
    have hmethod {k : MemberKind} (hk : k.use ≠ .other) : k = .method := by
      cases k <;> first | rfl | exact absurd rfl hk
    exact ⟨hmethod hother, hmethod (huse ▸ hother)⟩

section

variable {e : Extent} (he : ∀ name, e.hasName name → IsName name)

include he

theorem Member.shown_claimed {m : Member} (h : m.StandsIn e) :
    ∀ a ∈ m.shown, a.2 = .constructor ∨ ∃ c ∈ claims m, c.IsFor a := by
  have hnamed {name : String} {k : MemberKind} (hname : e.hasName name) : name = "" → k = .method :=
    fun hempty => absurd hempty (he name hname).ne_empty
  intro a ha
  cases m with
  | field d =>
    obtain ⟨name, hname, rfl⟩ := List.mem_map.mp ha
    exact .inr ⟨_, List.mem_map_of_mem hname, rfl, rfl, hnamed (h.names name hname)⟩
  | property d =>
    obtain rfl := List.mem_singleton.mp ha
    exact .inr ⟨_, List.mem_singleton_self _, rfl, rfl, hnamed h.name⟩
  | method d =>
    obtain rfl := List.mem_singleton.mp ha
    exact .inr ⟨_, List.mem_singleton_self _, rfl, rfl, fun _ => rfl⟩
  | constructor d =>
    obtain rfl := List.mem_singleton.mp ha
    exact .inl rfl
  | enumValue d =>
    obtain rfl := List.mem_singleton.mp ha
    exact .inr ⟨_, List.mem_singleton_self _, rfl, rfl, hnamed h.name⟩
  | nested head members => cases ha

/-- The names of one member clash only where it is a field with several. -/
theorem Member.shown_fit {m : Member} (h : m.StandsIn e) (hshare : (claims m).Pairwise NameClaim.Shares) :
    m.shown.Pairwise MembersFit := by
  cases m with
  | field d =>
    have hfor : ∀ name ∈ d.names, NameClaim.IsFor ⟨name, .other, d.line⟩ (name, .field) :=
      fun name hname => ⟨rfl, rfl, fun hempty => absurd hempty (he name (h.names name hname)).ne_empty⟩
    rw [claims, List.pairwise_map] at hshare
    rw [shown, List.pairwise_map]
    apply hshare.imp_of_mem
    intro first second hfirst hsecond hclaims
    exact fits_of_shares hclaims (hfor first hfirst) (hfor second hsecond)
  | nested head members => exact .nil
  | _ => exact List.pairwise_singleton _ _

theorem Member.shown_fit_apart {m n : Member} (hm : m.StandsIn e) (hn : n.StandsIn e)
    (hshare : ∀ c ∈ claims m, ∀ d ∈ claims n, c.Shares d) :
    ∀ a ∈ m.shown, ∀ b ∈ n.shown, MembersFit a b := by
  intro a ha b hb
  rcases Member.shown_claimed he hm a ha with hconstructor | ⟨c, hc, hca⟩
  · exact fun _ => .inl hconstructor
  · rcases Member.shown_claimed he hn b hb with hconstructor | ⟨d, hd, hdb⟩
    · exact fun _ => .inr (.inl hconstructor)
    · exact fits_of_shares (hshare c hc d hd) hca hdb

theorem TypePart.shown_fit {p : TypePart} (h : p.StandsIn e) (hparameters : p.head.parameters = [])
    (hshare : (p.members.flatMap claims).Pairwise NameClaim.Shares) : p.shown.Pairwise MembersFit := by
  obtain ⟨hone, hapart⟩ := List.pairwise_flatMap.mp hshare
  rw [shown, hparameters, List.map_nil, List.nil_append, List.pairwise_flatMap]
  constructor
  · intro m hm
    exact Member.shown_fit he (h.members m hm) (hone m hm)
  · apply hapart.imp_of_mem
    intro m n hm hn hclaims
    exact Member.shown_fit_apart he (h.members m hm) (h.members n hn) hclaims

end

namespace SourceUnit

variable {u : SourceUnit} {references : List Assembly}

theorem members_fit {t : TypeEntry} (ht : t ∈ (u.bind references).table.types) :
    t.members.Pairwise MemberEntry.Fits ↔
      ((u.parts.filter (·.identity == t.identity)).flatMap (·.shown)).Pairwise MembersFit := by
  rw [← u.table_members references ht, List.pairwise_map]
  rfl

/-- The members of all types fit if those of each declaration do and no two declarations of a type are
at odds. -/
theorem all_members_fit (hparts : ∀ p ∈ u.parts, p.shown.Pairwise MembersFit) :
    (∀ t ∈ (u.bind references).table.types, t.members.Pairwise MemberEntry.Fits) ↔
      ∀ p q, u.Merges references p q → ∀ a ∈ p.shown, ∀ b ∈ q.shown, MembersFit a b := by
  constructor
  · intro hfit p q hmerges
    obtain ⟨t, ht, hpt, hqt⟩ := hmerges.type
    have hall := (List.pairwise_flatMap.mp ((members_fit ht).mp (hfit t ht))).2
    have hsymm : Std.Symm fun p q : TypePart => ∀ a ∈ p.shown, ∀ b ∈ q.shown, MembersFit a b :=
      ⟨fun _ _ hpq a ha b hb => (hpq b hb a ha).symm⟩
    have hp : p ∈ u.parts.filter (·.identity == t.identity) :=
      List.mem_filter.mpr ⟨hmerges.left, beq_iff_eq.mpr hpt⟩
    have hq : q ∈ u.parts.filter (·.identity == t.identity) :=
      List.mem_filter.mpr ⟨hmerges.right, beq_iff_eq.mpr hqt⟩
    exact hall.forall hp hq fun heq => hmerges.apart (congrArg TypePart.site heq)
  · intro hmerged t ht
    rw [members_fit ht, List.pairwise_flatMap]
    constructor
    · intro p hp
      exact hparts p (List.mem_of_mem_filter hp)
    · apply (u.parts_apart.filter _).imp_of_mem
      intro p q hp hq hsite
      obtain ⟨hp, hpt⟩ := List.mem_filter.mp hp
      obtain ⟨hq, hqt⟩ := List.mem_filter.mp hq
      exact hmerged p q ⟨hp, hq, hsite, t, ht, beq_iff_eq.mp hpt, beq_iff_eq.mp hqt⟩

/-- Where no error is reported and no type has parameters, the members of each type of the table fit
together just if those of different declarations do. -/
theorem members_fit_iff (source : String) (references : List Assembly)
    (hparameters : ∀ p ∈ (SourceUnit.ofSource source).1.parts, p.head.parameters = [])
    (h : ∀ d ∈ ((SourceUnit.ofSource source).1.bind references).diagnostics, d.severity ≠ .error) :
    (∀ t ∈ ((SourceUnit.ofSource source).1.bind references).table.types,
      t.members.Pairwise MemberEntry.Fits) ↔
      ∀ p q, (SourceUnit.ofSource source).1.Merges references p q →
        ∀ a ∈ p.shown, ∀ b ∈ q.shown, MembersFit a b := by
  obtain ⟨hu, -⟩ := SourceUnit.ofSource_stands source
  apply all_members_fit
  intro p hp
  exact TypePart.shown_fit (fun _ hname => hname) (parts_stand hu p hp) (hparameters p hp)
    (claims_share h hp)

/-- The class that is in two parts has a number of its own in each. -/
theorem parted_members_fit :
    (∀ p ∈ (SourceUnit.ofSource partedSource).1.parts, p.head.parameters = []) ∧
      (∀ d ∈ ((SourceUnit.ofSource partedSource).1.bind []).diagnostics, d.severity ≠ .error) ∧
      ∀ t ∈ ((SourceUnit.ofSource partedSource).1.bind []).table.types,
        t.members.Pairwise MemberEntry.Fits := by
  have hparameters : ∀ p ∈ (SourceUnit.ofSource partedSource).1.parts, p.head.parameters = [] := by
    rw [ofSource_parted]
    decide +kernel
  refine ⟨hparameters, parted_silent, (members_fit_iff partedSource [] hparameters parted_silent).mpr ?_⟩
  have hfit : ∀ p ∈ partedUnit.parts, ∀ q ∈ partedUnit.parts, p.site ≠ q.site →
      p.identity = q.identity → ∀ a ∈ p.shown, ∀ b ∈ q.shown, MembersFit a b := by
    decide +kernel
  rw [ofSource_parted]
  intro p q hmerges
  obtain ⟨hp, hq, hsite, heq⟩ := merges_iff.mp hmerges
  exact hfit p hp q hq hsite heq

def clashingUnit : SourceUnit where
  imports := []
  members :=
    [.type (plainHead ["partial"] "A" [] 1) [plainField "x" 1],
      .type (plainHead ["partial"] "A" [] 2) [plainField "x" 2]]

def clashingSource : String :=
  "partial class A \x7b int x; \x7d\npartial class A \x7b int x; \x7d\n"

theorem ofSource_clashing : SourceUnit.ofSource clashingSource = (clashingUnit, []) := by decide +kernel

theorem bind_clashing (references : List Assembly) : (clashingUnit.bind references).diagnostics = [] := by
  simp only [clashingUnit, plainField, bind, symbols, Symbols.ofUnit, bindUnit, bindDeclarations,
    declaredScopes, declaredTypes, declaredType, declaredMembers]
  rfl

/-- Nothing is reported of two fields with one name, and the type has both. -/
theorem clashing_members_kept :
    (SourceUnit.ofSource clashingSource).2 = [] ∧
      (∀ p ∈ (SourceUnit.ofSource clashingSource).1.parts, p.head.parameters = []) ∧
      ((SourceUnit.ofSource clashingSource).1.bind []).diagnostics = [] ∧
      ∃ t ∈ ((SourceUnit.ofSource clashingSource).1.bind []).table.types,
        t.members.map (fun m => (m.name, m.kind)) = [("x", .field), ("x", .field)] ∧
          ¬ t.members.Pairwise MemberEntry.Fits := by
  rw [ofSource_clashing]
  have hclass : ∃ p ∈ clashingUnit.parts, ∃ q ∈ clashingUnit.parts, (p.site ≠ q.site ∧
      p.identity = q.identity) ∧ p.identity = ("", "A", 0) := by
    decide +kernel
  have hshown : (clashingUnit.parts.filter (·.identity == ("", "A", 0))).flatMap (·.shown) =
      [("x", .field), ("x", .field)] := by
    decide +kernel
  obtain ⟨p, hp, q, hq, hmerges, hclass⟩ := hclass
  obtain ⟨t, ht, hpt, -⟩ := (merges_iff.mpr ⟨hp, hq, hmerges⟩ : clashingUnit.Merges [] p q).type
  rw [← hclass, hpt] at hshown
  refine ⟨rfl, by decide +kernel, bind_clashing [], t, ht, ?_, ?_⟩
  · rw [clashingUnit.table_members [] ht, hshown]
  · rw [members_fit ht, hshown]
    decide

end SourceUnit

end DataClasses

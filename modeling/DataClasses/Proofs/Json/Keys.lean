import DataClasses.Generation
import DataClasses.Proofs.Entries

/-!
# Keys of documents

Whatever a text is, no object of the document that is read from it has two members of one key.
-/

set_option autoImplicit false

namespace DataClasses

namespace Json

inductive KeysDistinct : Json → Prop where
  | null : KeysDistinct .null
  | bool (value : Bool) : KeysDistinct (.bool value)
  | integer (value : Int) : KeysDistinct (.integer value)
  | float (value : Binary64) : KeysDistinct (.float value)
  | str (value : String) : KeysDistinct (.str value)
  | arr {items : List Json} (h : ∀ item ∈ items, KeysDistinct item) : KeysDistinct (.arr items)
  | obj {members : List (String × Json)} (keys : (members.map (·.1)).Nodup)
      (h : ∀ m ∈ members, KeysDistinct m.2) : KeysDistinct (.obj members)

def Gives {α : Type} (P : α → Prop) (r : Reader α) : Prop := ∀ c a d, r c = .ok (a, d) → P a

namespace Gives

variable {α β σ : Type} {P : α → Prop} {Q : β → Prop}

theorem any (r : Reader α) : Gives (fun _ => True) r := fun _ _ _ _ => trivial

theorem pure {a : α} (h : P a) : Gives P (Pure.pure a) := by
  intro c b d hread
  cases hread
  exact h

theorem failNext (cause : Cause) : Gives P (Reader.failNext cause) := nofun

theorem bind {r : Reader β} {f : β → Reader α} (hr : Gives Q r) (hf : ∀ b, Q b → Gives P (f b)) :
    Gives P (r >>= f) := by
  intro c a d hread
  change (r c >>= fun x => f x.1 x.2) = .ok (a, d) at hread
  cases hfirst : r c with
  | error fault =>
    rw [hfirst] at hread
    cases hread
  | ok x =>
    rw [hfirst] at hread
    exact hf x.1 (hr c x.1 x.2 hfirst) x.2 a d hread

theorem behind {r : Reader β} {f : β → Reader α} (hf : ∀ b, Gives P (f b)) : Gives P (r >>= f) :=
  (any r).bind fun b _ => hf b

/-- What a round asks for keeps an invariant, and what it is done with is as it should be. -/
theorem loop {I : σ → Prop} {close : σ → α} {round : σ → Reader (Round σ α)}
    (hround : ∀ x, I x → Gives (fun | .again y => I y | .done a => P a) (round x))
    (hclose : ∀ x, I x → P (close x)) {x : σ} (hx : I x) : Gives P (Reader.loop close round x) := by
  intro c
  rw [Reader.loop, readRounds]
  refine rounds_induction (P := fun y : σ × Cursor => I y.1)
    (Q := fun result : Except Fault (α × Cursor) => ∀ a d, result = .ok (a, d) → P a) ?_ ?_ ?_ (x, c) hx
  · intro y result hy hdone a d hresult
    have hgives := hround y.1 hy y.2
    split at hdone <;> cases hdone <;> cases hresult
    next heq => exact hgives _ _ heq
  · intro y z hy hagain
    have hgives := hround y.1 hy y.2
    split at hagain <;> cases hagain
    next heq => exact hgives _ _ heq
  · intro y hy a d hresult
    cases hresult
    exact hclose y.1 hy

end Gives

theorem Numeral.value_keysDistinct {n : Numeral} {v : Json} (h : n.value = .ok v) : KeysDistinct v := by
  have hfloat (hv : n.float.map Json.float = .ok v) : KeysDistinct v := by
    cases hx : n.float with
    | error behind =>
      rw [hx] at hv
      cases hv
    | ok x =>
      rw [hx] at hv
      cases hv
      exact .float x
  rw [Numeral.value] at h
  generalize gather wordLimit 0 n.whole = gathered at h
  obtain ⟨s, taken⟩ := gathered
  dsimp only at h
  split at h
  · split at h
    · cases h
      exact .integer _
    · split at h
      · cases h
        exact .integer _
      · exact hfloat h
  · exact hfloat h

theorem number_keysDistinct : Gives KeysDistinct number := by
  apply Gives.behind
  intro n
  cases hv : n.value with
  | ok v => exact .pure (Numeral.value_keysDistinct hv)
  | error behind => exact nofun

theorem listRest_keysDistinct {element : Reader Json} (h : Gives KeysDistinct element) :
    Gives KeysDistinct (listRest element) := by
  have hlist {acc : List Json} (hacc : ∀ item ∈ acc, KeysDistinct item) :
      KeysDistinct (.arr acc.reverse) :=
    .arr fun item hitem => hacc item (List.mem_reverse.mp hitem)
  refine Gives.loop (I := fun acc : List Json => ∀ item ∈ acc, KeysDistinct item) ?_ ?_ ?_
  · intro acc hacc
    apply Gives.behind
    rintro (_ | _)
    · exact .behind fun _ => .pure (hlist hacc)
    · exact h.bind fun item hitem => .pure (List.forall_mem_cons.mpr ⟨hitem, hacc⟩)
  · exact fun acc hacc => hlist hacc
  · exact List.forall_mem_nil _

theorem objectRest_keysDistinct {element : Reader Json} (h : Gives KeysDistinct element) :
    Gives KeysDistinct (objectRest element) := by
  refine Gives.loop (I := fun x : Bool × Entries Json => KeysDistinct (.obj x.2)) ?_ ?_ ?_
  · rintro ⟨first, members⟩ hmembers
    apply Gives.behind
    rintro (_ | _)
    · exact .behind fun _ => .pure hmembers
    · apply Gives.behind
      intro key
      refine .behind fun _ => h.bind fun value hvalue => ?_
      cases hmembers with
      | obj hkeys hvalues =>
        refine .pure (KeysDistinct.obj (Entries.keys_put_nodup hkeys) ?_)
        intro m hm
        rcases Entries.mem_put hm with rfl | hm
        · exact hvalue
        · exact hvalues m hm
  · exact fun x hx => hx
  · exact .obj List.nodup_nil (List.forall_mem_nil _)

theorem nested_keysDistinct {inner : Option (Reader Json)} (hinner : ∀ r ∈ inner, Gives KeysDistinct r)
    {rest : Reader Json → Reader Json}
    (hrest : ∀ r, Gives KeysDistinct r → Gives KeysDistinct (rest r)) :
    Gives KeysDistinct (nested inner rest) := by
  cases inner with
  | none => exact .failNext _
  | some element => exact .behind fun _ => hrest element (hinner element rfl)

theorem valueWith_keysDistinct {inner : Option (Reader Json)}
    (hinner : ∀ r ∈ inner, Gives KeysDistinct r) :
    Gives KeysDistinct (valueWith inner) := by
  apply Gives.behind
  intro next
  split
  · exact .failNext _
  · exact .behind fun _ => .behind fun _ => .pure .null
  · exact .behind fun _ => .behind fun _ => .pure (.bool true)
  · exact .behind fun _ => .behind fun _ => .pure (.bool false)
  · exact .behind fun _ => .behind fun s => .pure (.str s)
  · exact nested_keysDistinct hinner fun r => listRest_keysDistinct
  · exact nested_keysDistinct hinner fun r => objectRest_keysDistinct
  · split
    · exact number_keysDistinct
    · exact .failNext _

theorem value_keysDistinct (room : Nat) : Gives KeysDistinct (value room) := by
  induction room with
  | zero => exact valueWith_keysDistinct nofun
  | succ room ih =>
    apply valueWith_keysDistinct
    rintro r ⟨⟩
    exact ih

theorem Gives.of_readAll {α : Type} {P : α → Prop} {reader : Reader α} (h : Gives P reader)
    {text : String} {a : α} (hread : readAll reader text = .ok a) : P a := by
  have hwhole : Gives P (do let a ← reader; atEnd; Pure.pure a) :=
    h.bind fun a ha => .behind fun _ => .pure ha
  rw [readAll] at hread
  cases hresult : (do let a ← reader; atEnd; Pure.pure a : Reader α) { rest := text.toList } with
  | error fault =>
    rw [hresult] at hread
    cases hread
  | ok x =>
    rw [hresult] at hread
    cases hread
    exact hwhole _ x.1 x.2 hresult

end Json

/-- A sample is read with distinct keys in all of its objects. -/
theorem Sample.read_keysDistinct {text : String} {document : Json} (h : Sample.read text = .ok document) :
    document.KeysDistinct := by
  rw [Sample.read] at h
  split at h
  · cases h
  · split at h
    · next v hv =>
      cases h
      exact (Json.value_keysDistinct Json.depthLimit).of_readAll hv
    · cases h

end DataClasses

/-!
# Repetition with a measure

A repetition whose rounds make a state smaller. A round that asks for another one and
has not made its state smaller is the last, so every repetition ends.
-/

set_option autoImplicit false

namespace DataClasses

inductive Round (σ ρ : Type) where
  | again (state : σ)
  | done (result : ρ)

/-- Takes rounds until one is done. `close` gives the result after a round that asked
for another without progress. -/
def rounds {σ ρ : Type} (size : σ → Nat) (close : σ → ρ) (round : σ → Round σ ρ)
    (s : σ) : ρ :=
  match round s with
  | .done r => r
  | .again t => if size t < size s then rounds size close round t else close t
termination_by size s

/-- What holds at the start and after each round holds at the end. -/
theorem rounds_induction {σ ρ : Type} {size : σ → Nat} {close : σ → ρ}
    {round : σ → Round σ ρ} {P : σ → Prop} {Q : ρ → Prop}
    (hdone : ∀ s r, P s → round s = .done r → Q r)
    (hagain : ∀ s t, P s → round s = .again t → P t)
    (hclose : ∀ s, P s → Q (close s)) (s : σ) (h : P s) :
    Q (rounds size close round s) := by
  induction hn : size s using Nat.strongRecOn generalizing s with
  | _ n ih =>
    rw [rounds]
    split
    · next r hr => exact hdone s r h hr
    · next t ht =>
      split
      · next hlt => exact ih (size t) (by omega) t (hagain s t h ht) rfl
      · exact hclose t (hagain s t h ht)

/-- Takes rounds on a text that is being read, with something built up on the way. What
is built when a round makes no progress is the result. -/
def readRounds {σ τ ε α : Type} (size : τ → Nat) (close : σ → α)
    (round : σ → StateT τ (Except ε) (Round σ α)) (x : σ) : StateT τ (Except ε) α := fun s =>
  rounds (fun y : σ × τ => size y.2)
    (fun y => .ok (close y.1, y.2))
    (fun y =>
      match round y.1 y.2 with
      | .error fault => .done (.error fault)
      | .ok (.done a, t) => .done (.ok (a, t))
      | .ok (.again z, t) => .again (z, t))
    (x, s)

end DataClasses

import Mathlib.Data.List.Basic

/-!
# Loops that serve

A program waits, serves what it gets and waits again, until waiting fails. Serving one
request changes the state in which the next one is served, and may come to nothing at
all. `loop_of_served` is the rule for such programs: where each request is served, in
whatever state an invariant admits, all of them are, one answer for each, in order.
-/

namespace ServerLoop

variable {σ α β : Type}

/-- What one wait comes to. -/
inductive Turn (α : Type) where
  /-- Nothing, and the loop waits again. -/
  | idle
  | request (a : α)
  /-- Waiting failed, and the loop is left. -/
  | failed
  deriving DecidableEq

/-- What the loop has come to, after the turns it had. -/
structure Served (σ β : Type) where
  state : σ
  answers : List β
  left : Bool

/-- The loop; none when a request could not be served. -/
def loop (serve : σ → α → Option (σ × β)) (s : σ) : List (Turn α) → Option (Served σ β)
  | [] => some ⟨s, [], false⟩
  | .idle :: turns => loop serve s turns
  | .request a :: turns =>
      match serve s a with
      | none => none
      | some (t, b) => (loop serve t turns).map fun r => { r with answers := b :: r.answers }
  | .failed :: _ => some ⟨s, [], true⟩

/-- The requests that the loop gets to. -/
def requests : List (Turn α) → List α
  | [] => []
  | .idle :: turns => requests turns
  | .request a :: turns => a :: requests turns
  | .failed :: _ => []

/--
**The rule for loops that serve.**

If every request the loop gets to is served in every state that `I` admits, leaves such
a state and is answered as `R` says, then the loop goes on until waiting fails, and has
answered what it got, in order.
-/
theorem loop_of_served (serve : σ → α → Option (σ × β)) (I : σ → Prop) (R : α → β → Prop)
    {turns : List (Turn α)}
    (h : ∀ a ∈ requests turns, ∀ s, I s → ∃ t b, serve s a = some (t, b) ∧ I t ∧ R a b)
    {s : σ} (hs : I s) :
    ∃ r, loop serve s turns = some r ∧ I r.state ∧ List.Forall₂ R (requests turns) r.answers
      ∧ (r.left = true ↔ .failed ∈ turns) := by
  induction turns generalizing s with
  | nil => exact ⟨_, rfl, hs, .nil, iff_of_false Bool.noConfusion List.not_mem_nil⟩
  | cons turn turns ih =>
      cases turn with
      | idle =>
          obtain ⟨r, hr, hI, hR, hleft⟩ := ih h hs
          refine ⟨r, hr, hI, hR, hleft.trans ?_⟩
          rw [List.mem_cons, or_iff_right fun hc => by cases hc]
      | failed => exact ⟨_, rfl, hs, .nil, iff_of_true rfl (List.mem_cons_self ..)⟩
      | request a =>
          obtain ⟨t, b, ht, hI, hb⟩ := h a (List.mem_cons_self ..) s hs
          obtain ⟨r, hr, hIr, hR, hleft⟩ := ih (fun c hc => h c (List.mem_cons_of_mem a hc)) hI
          refine ⟨{ r with answers := b :: r.answers }, ?_, hIr, .cons hb hR, hleft.trans ?_⟩
          · simp only [loop, ht, hr, Option.map_some]
          · rw [List.mem_cons, or_iff_right fun hc => by cases hc]

/-- A request that no state can serve ends the program, whatever came before. -/
theorem loop_eq_none (serve : σ → α → Option (σ × β)) {turns : List (Turn α)}
    (h : ∃ a ∈ requests turns, ∀ s, serve s a = none) (s : σ) : loop serve s turns = none := by
  obtain ⟨a, ha, hnone⟩ := h
  induction turns generalizing s with
  | nil => exact absurd ha List.not_mem_nil
  | cons turn turns ih =>
      cases turn with
      | idle => exact ih s ha
      | failed => exact absurd ha List.not_mem_nil
      | request b =>
          rcases List.mem_cons.mp ha with rfl | hrest
          · rw [loop, hnone]
          · rw [loop]
            rcases serve s b with _ | ⟨t, c⟩
            · rfl
            · simp only [ih t hrest, Option.map_none]

end ServerLoop

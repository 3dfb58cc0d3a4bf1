import Mathlib.Data.List.Induction
import Mathlib.Logic.Relation

/-!
# Labelled transition systems with computed steps

A system is given by one partial function: in state `s` the label `l` either
fires, to a definite next state, or is not enabled. A run is the list of labels
that fired, so a schedule is data: every interleaving of several processes is one
list, and a concrete schedule can be evaluated.

Four rules carry the safety proofs built on top. `run_induction` grows a run by
its last step. `run_invariant` is the usual invariant rule, with a side condition
`C` on the steps that were taken, so that it also covers statements about those
runs only whose every step meets a condition. `run_mark` follows whether some label
has fired. `run_exists_flip` finds the step at which a state predicate first became
true. `run_progress` is for the other direction: it finds a schedule to a goal.
-/

namespace TransitionSystem

variable {σ ℓ α : Type}

/-- Fire the labels of a list in order; `none` as soon as one is not enabled. -/
def run (step : σ → ℓ → Option σ) : σ → List ℓ → Option σ
  | s, [] => some s
  | s, l :: ls => (step s l).bind fun s' => run step s' ls

/-- Every step of the run from `s` along `ls` meets `C`, judged in the state before the step. -/
def StepsMeet (step : σ → ℓ → Option σ) (C : σ → ℓ → Prop) : σ → List ℓ → Prop
  | _, [] => True
  | s, l :: ls => C s l ∧ ∀ s', step s l = some s' → StepsMeet step C s' ls

variable {step : σ → ℓ → Option σ} {C : σ → ℓ → Prop}

@[simp] theorem run_nil (s : σ) : run step s [] = some s := rfl

theorem run_cons (s : σ) (l : ℓ) (ls : List ℓ) :
    run step s (l :: ls) = (step s l).bind fun s' => run step s' ls := rfl

theorem run_append (s : σ) (ls ls' : List ℓ) :
    run step s (ls ++ ls') = (run step s ls).bind fun s' => run step s' ls' := by
  induction ls generalizing s with
  | nil => rfl
  | cons l ls ih =>
      rw [List.cons_append, run_cons, run_cons]
      cases hs : step s l with
      | none => rfl
      | some s' => exact ih s'

/-- A run that fires `l :: ls` fires `l` first. -/
theorem run_cons_eq_some {s s' : σ} {l : ℓ} {ls : List ℓ} :
    run step s (l :: ls) = some s' ↔ ∃ m, step s l = some m ∧ run step m ls = some s' := by
  rw [run_cons, Option.bind_eq_some_iff]

theorem run_append_eq_some {s s' : σ} {ls ls' : List ℓ} :
    run step s (ls ++ ls') = some s'
      ↔ ∃ m, run step s ls = some m ∧ run step m ls' = some s' := by
  rw [run_append, Option.bind_eq_some_iff]

@[simp] theorem run_singleton (s : σ) (l : ℓ) : run step s [l] = step s l := by
  rw [run_cons]; cases step s l <;> rfl

/-- A step that is known to fire is judged on its own. -/
theorem stepsMeet_cons_of_step {s s' : σ} {l : ℓ} {ls : List ℓ} (hs : step s l = some s') :
    StepsMeet step C s (l :: ls) ↔ C s l ∧ StepsMeet step C s' ls := by
  refine and_congr_right fun _ => ⟨fun h => h s' hs, fun h m hm => ?_⟩
  rw [hs] at hm
  cases hm
  exact h

theorem stepsMeet_append {s : σ} {ls ls' : List ℓ} :
    StepsMeet step C s (ls ++ ls')
      ↔ StepsMeet step C s ls ∧ ∀ m, run step s ls = some m → StepsMeet step C m ls' := by
  induction ls generalizing s with
  | nil => exact ⟨fun h => ⟨trivial, fun m hm => by cases hm; exact h⟩, fun h => h.2 s rfl⟩
  | cons l ls ih =>
      constructor
      · intro h
        refine ⟨⟨h.1, fun s' hs' => (ih.mp (h.2 s' hs')).1⟩, ?_⟩
        intro m hm
        obtain ⟨s', hs', hrest⟩ := run_cons_eq_some.mp hm
        exact (ih.mp (h.2 s' hs')).2 m hrest
      · intro ⟨h, hrest⟩
        refine ⟨h.1, fun s' hs' => ih.mpr ⟨h.2 s' hs', fun m hm => ?_⟩⟩
        exact hrest m (run_cons_eq_some.mpr ⟨s', hs', hm⟩)

theorem stepsMeet_mono {D : σ → ℓ → Prop} (hCD : ∀ s l, C s l → D s l) {s : σ}
    {ls : List ℓ} (h : StepsMeet step C s ls) : StepsMeet step D s ls := by
  induction ls generalizing s with
  | nil => trivial
  | cons l ls ih => exact ⟨hCD s l h.1, fun s' hs' => ih (h.2 s' hs')⟩

/-- A condition on labels alone is met by the steps exactly when every label meets it. -/
theorem stepsMeet_of_forall {A : ℓ → Prop} {s : σ} {ls : List ℓ} (h : ∀ l ∈ ls, A l) :
    StepsMeet step (fun _ l => A l) s ls := by
  induction ls generalizing s with
  | nil => trivial
  | cons l ls ih =>
      exact ⟨h l (List.mem_cons_self ..), fun s' _ =>
        ih fun l' hl' => h l' (List.mem_cons_of_mem _ hl')⟩

/-- A condition that asks for nothing is met by every run. -/
theorem stepsMeet_true {s : σ} (ls : List ℓ) : StepsMeet step (fun _ _ => True) s ls :=
  stepsMeet_of_forall (A := fun _ => True) fun _ _ => trivial

/--
**Runs grow at the end.**

To prove `P` of every run whose steps meet `C`, prove it of the empty run and
extend it by one step that meets `C`.
-/
theorem run_induction {P : List ℓ → σ → Prop} {s₀ : σ} (hnil : P [] s₀)
    (hsnoc : ∀ ls s l s', StepsMeet step C s₀ ls → run step s₀ ls = some s → P ls s → C s l →
      step s l = some s' → P (ls ++ [l]) s') :
    ∀ ls s, StepsMeet step C s₀ ls → run step s₀ ls = some s → P ls s := by
  intro ls
  induction ls using List.reverseRecOn with
  | nil => intro s _ hr; cases hr; exact hnil
  | append_singleton ls l ih =>
      intro s' hm hr
      obtain ⟨s, hrun, hlast⟩ := run_append_eq_some.mp hr
      rw [run_singleton] at hlast
      obtain ⟨hpre, hpost⟩ := stepsMeet_append.mp hm
      exact hsnoc ls s l s' hpre hrun (ih s hpre hrun) (hpost s hrun).1 hlast

/-- **The invariant rule**, for runs whose every step meets `C`. -/
theorem run_invariant {I : σ → Prop} {s₀ s : σ} {ls : List ℓ} (h₀ : I s₀)
    (hstep : ∀ s l s', I s → C s l → step s l = some s' → I s')
    (hm : StepsMeet step C s₀ ls) (hr : run step s₀ ls = some s) : I s :=
  run_induction (P := fun _ s => I s) h₀
    (fun _ s l s' _ _ hI hC hs => hstep s l s' hI hC hs) ls s hm hr

/--
**A label that leaves its mark.**

To prove `P` of a run and of whether `mark` fired in it, prove it of the empty run
and follow the proposition through one step.
-/
theorem run_mark {mark : ℓ} {P : Prop → σ → Prop} {s₀ s : σ} {ls : List ℓ} (h₀ : P False s₀)
    (hstep : ∀ p s l s', P p s → C s l → step s l = some s' → P (p ∨ l = mark) s')
    (hm : StepsMeet step C s₀ ls) (hr : run step s₀ ls = some s) : P (mark ∈ ls) s := by
  refine run_induction (P := fun ls s => P (mark ∈ ls) s) ?_ ?_ ls s hm hr
  · rw [eq_false (List.not_mem_nil (a := mark))]
    exact h₀
  · intro ls s l s' _ _ h hC hs
    have hmem : (mark ∈ ls ++ [l]) = (mark ∈ ls ∨ l = mark) := by
      rw [List.mem_append, List.mem_singleton, eq_comm (a := mark)]
    rw [hmem]
    exact hstep _ s l s' h hC hs

/--
**A step condition that is exact for a state predicate.**

If, under an invariant, `G` survives a step exactly when the step meets `C`, then
`G` holds at the end of a run exactly when every step of the run met `C`.
-/
theorem run_good_iff {I G : σ → Prop} {s₀ s : σ} {ls : List ℓ} (h₀ : I s₀) (hG : G s₀)
    (hinv : ∀ s l s', I s → step s l = some s' → I s')
    (hstep : ∀ s l s', I s → step s l = some s' → (G s' ↔ G s ∧ C s l))
    (hr : run step s₀ ls = some s) : G s ↔ StepsMeet step C s₀ ls := by
  refine (run_induction (P := fun ls s => I s ∧ (G s ↔ StepsMeet step C s₀ ls))
    ⟨h₀, iff_of_true hG trivial⟩ ?_ ls s (stepsMeet_true ls) hr).2
  intro ls s l s' _ hrun ⟨hI, hiff⟩ _ hs
  refine ⟨hinv s l s' hI hs, ?_⟩
  rw [hstep s l s' hI hs, hiff, stepsMeet_append]
  refine and_congr_right fun _ => ⟨fun hC m hm => ?_, fun hlast => (hlast s hrun).1⟩
  rw [hrun] at hm
  cases hm
  exact ⟨hC, fun _ _ => trivial⟩

/--
**Something that became true became true at a step.**

If `P` fails at the start of a run and holds at its end, some step of the run
goes from a state where `P` fails to one where it holds.
-/
theorem run_exists_flip {P : σ → Prop} {s₀ s : σ} {ls : List ℓ}
    (h₀ : ¬ P s₀) (hr : run step s₀ ls = some s) (hP : P s) :
    ∃ before l after s₁ s₂, ls = before ++ l :: after
      ∧ run step s₀ before = some s₁ ∧ step s₁ l = some s₂ ∧ ¬ P s₁ ∧ P s₂ := by
  induction ls generalizing s₀ with
  | nil => cases hr; exact absurd hP h₀
  | cons l ls ih =>
      obtain ⟨m, hm, hrest⟩ := run_cons_eq_some.mp hr
      by_cases hPm : P m
      · exact ⟨[], l, ls, s₀, m, rfl, rfl, hm, h₀, hPm⟩
      · obtain ⟨before, l', after, s₁, s₂, rfl, hb, hs, hn, hp⟩ := ih hPm hrest
        exact ⟨l :: before, l', after, s₁, s₂, rfl,
          run_cons_eq_some.mpr ⟨m, hm, hb⟩, hs, hn, hp⟩

/--
**Simulation lifts to runs.**

If every step either leaves the abstraction alone or is an abstract step, the
abstraction of a whole run is a chain of abstract steps.
-/
theorem run_simulation {abs : σ → α} {Abs : α → α → Prop} {I : σ → Prop} {s₀ s : σ}
    {ls : List ℓ} (h₀ : I s₀)
    (hinv : ∀ s l s', I s → C s l → step s l = some s' → I s')
    (hsim : ∀ s l s', I s → C s l → step s l = some s' →
      abs s' = abs s ∨ Abs (abs s) (abs s'))
    (hm : StepsMeet step C s₀ ls) (hr : run step s₀ ls = some s) :
    Relation.ReflTransGen Abs (abs s₀) (abs s) := by
  refine (run_induction (P := fun _ s => I s ∧ Relation.ReflTransGen Abs (abs s₀) (abs s))
    ⟨h₀, .refl⟩ ?_ ls s hm hr).2
  intro _ s l s' _ _ hIs hC hs
  refine ⟨hinv s l s' hIs.1 hC hs, ?_⟩
  rcases hsim s l s' hIs.1 hC hs with heq | habs
  · rw [heq]; exact hIs.2
  · exact hIs.2.tail habs

/--
**The progress rule.**

If from every state of `I` that is not at the goal some label of `D` fires that
lowers a measure, stays in `I` and leaves `obs` alone, then a run of such labels
leads to the goal, with `obs` as it was.
-/
theorem run_progress {I goal : σ → Prop} {D : ℓ → Prop} {work : σ → Nat} {obs : σ → α}
    (hprogress : ∀ s, I s → ¬ goal s →
      ∃ l s', D l ∧ step s l = some s' ∧ I s' ∧ work s' < work s ∧ obs s' = obs s)
    {s : σ} (h : I s) :
    ∃ ls s', (∀ l ∈ ls, D l) ∧ run step s ls = some s' ∧ goal s' ∧ obs s' = obs s := by
  induction hn : work s using Nat.strongRecOn generalizing s with
  | ind n ih =>
      by_cases hg : goal s
      · exact ⟨[], s, fun _ hl => absurd hl List.not_mem_nil, rfl, hg, rfl⟩
      · obtain ⟨l, m, hl, hs, hm, hless, hobs⟩ := hprogress s h hg
        obtain ⟨ls, s', hls, hrun, hgoal, hobs'⟩ := ih (work m) (by omega) hm rfl
        refine ⟨l :: ls, s', fun l' hl' => ?_, run_cons_eq_some.mpr ⟨m, hs, hrun⟩, hgoal,
          hobs'.trans hobs⟩
        rcases List.mem_cons.mp hl' with rfl | hmem
        · exact hl
        · exact hls l' hmem

end TransitionSystem

import EspNowGateway.Esp8266.Sketch

/-!
# The wait for the send

The sketches wait for a flag that only the callback sets, and the callback comes for
accepted packets only. A send that was rejected is waited for none the less, and for
ever: nothing outstanding, nothing to come.
-/

namespace EspNowGateway.Proof

open EspNowGateway TransitionSystem

/-- In the wait, with the flag down and no callback to come. -/
def StuckWaiting (b : Board) : Prop :=
  b.pc = .waiting ∧ b.espNowSendStatus = false ∧ b.outstanding = 0

/--
Where a send stands: before it the flag has been cleared and nothing is outstanding;
in the wait either one callback is still to come or it has come, unless the send was
rejected.
-/
def SendTracked (rejected : Prop) (b : Board) : Prop :=
  match b.pc with
  | .sending => ¬ rejected ∧ b.espNowSendStatus = false ∧ b.outstanding = 0
  | .waiting => (¬ rejected ∧ b.espNowSendStatus = false ∧ b.outstanding = 1)
      ∨ (¬ rejected ∧ b.espNowSendStatus = true ∧ b.outstanding = 0)
      ∨ (rejected ∧ b.espNowSendStatus = false ∧ b.outstanding = 0)
  | _ => ¬ rejected ∧ b.outstanding = 0

/-- A callback is to come in the wait only, for an accepted send, and then just one. -/
theorem SendTracked.due {rejected : Prop} {b : Board} (h : SendTracked rejected b)
    (hpos : 0 < b.outstanding) : b.pc = .waiting ∧ ¬ rejected ∧ b.outstanding = 1 := by
  unfold SendTracked at h
  cases hpc : b.pc <;> simp only [hpc] at h
  case waiting =>
    rcases h with ⟨hno, _, hone⟩ | ⟨_, _, hnone⟩ | ⟨_, _, hnone⟩
    · exact ⟨rfl, hno, hone⟩
    · omega
    · omega
  all_goals omega

/-- The wait ends with the callback, and then no other is to come. -/
theorem SendTracked.done {rejected : Prop} {b : Board} (h : SendTracked rejected b)
    (hpc : b.pc = .waiting) (hflag : b.espNowSendStatus = true) :
    ¬ rejected ∧ b.outstanding = 0 := by
  unfold SendTracked at h
  simp only [hpc] at h
  rcases h with ⟨_, hdown, _⟩ | ⟨hno, _, hnone⟩ | ⟨_, hdown, _⟩
  · rw [hdown] at hflag
    cases hflag
  · exact ⟨hno, hnone⟩
  · rw [hdown] at hflag
    cases hflag

theorem sendTracked_step {sketch : Sketch} {b b' : Board} {l : SketchLabel} {rejected : Prop}
    (h : SendTracked rejected b) (hs : SketchStep sketch b l b') :
    SendTracked (rejected ∨ l = .send false) b' := by
  have hsame (hne : l ≠ .send false) : (rejected ∨ l = .send false) = rejected :=
    propext (or_iff_left hne)
  have hdue := h.due
  have hdone := h.done
  unfold SendTracked at h
  cases hs with
  | init ok hpc =>
      rw [hsame SketchLabel.noConfusion]
      simp only [hpc] at h
      cases sketch <;> exact h
  | early t hpc _ _ =>
      rw [hsame SketchLabel.noConfusion]
      simp only [hpc] at h
      exact h
  | due t hpc _ _ =>
      rw [hsame SketchLabel.noConfusion]
      simp only [hpc] at h
      exact h
  | store t hpc _ =>
      rw [hsame SketchLabel.noConfusion]
      simp only [hpc] at h
      exact h
  | clear hpc =>
      rw [hsame SketchLabel.noConfusion]
      simp only [hpc] at h
      exact ⟨h.1, rfl, h.2⟩
  | accepted hpc hready =>
      have hne : SketchLabel.send true ≠ .send false := by decide
      rw [hsame hne]
      simp only [hpc] at h
      obtain ⟨hno, hflag, hnone⟩ := h
      exact Or.inl ⟨hno, hflag, congrArg (· + 1) hnone⟩
  | rejected hpc =>
      simp only [hpc] at h
      exact Or.inr (Or.inr ⟨Or.inr rfl, h.2⟩)
  | wait hpc hflag =>
      rw [hsame SketchLabel.noConfusion]
      exact h
  | complete hpc hflag =>
      rw [hsame SketchLabel.noConfusion]
      cases sketch <;> exact hdone hpc hflag
  | onDataSent sendStatus hpos =>
      rw [hsame SketchLabel.noConfusion]
      obtain ⟨hpc, hno, hone⟩ := hdue hpos
      unfold SendTracked
      simp only [hpc]
      exact Or.inr (Or.inl ⟨hno, trivial, by omega⟩)
  | wakeUp hpc =>
      rw [hsame SketchLabel.noConfusion]
      simp only [hpc] at h
      exact ⟨h.1, rfl⟩
  | delayOver hpc =>
      rw [hsame SketchLabel.noConfusion]
      simp only [hpc] at h
      cases sketch <;> exact h

theorem sendTracked_run {sketch : Sketch} {ls : List SketchLabel} {b : Board}
    (hr : run (sketchStep sketch) Board.boot ls = some b) :
    SendTracked (.send false ∈ ls) b := by
  have hboot : SendTracked False Board.boot := ⟨not_false, rfl⟩
  exact run_mark hboot (fun _ _ _ _ h _ hs => sendTracked_step h (sketchStep_cases hs))
    (stepsMeet_true ls) hr

/--
**A sketch waits in vain exactly when a send was rejected.**

In every run, of either sketch, and wherever the callbacks come in it.
-/
theorem stuck_iff_rejected {sketch : Sketch} {ls : List SketchLabel} {b : Board}
    (hr : run (sketchStep sketch) Board.boot ls = some b) :
    ¬ StuckWaiting b ↔ .send false ∉ ls := by
  have h := sendTracked_run hr
  unfold SendTracked at h
  by_cases hpc : b.pc = .waiting
  · simp only [hpc] at h
    rcases h with ⟨hno, _, hone⟩ | ⟨hno, hup, _⟩ | ⟨hyes, hdown, hnone⟩
    · exact iff_of_true (fun hstuck => by have := hstuck.2.2; omega) hno
    · refine iff_of_true (fun hstuck => ?_) hno
      rw [hstuck.2.1] at hup
      cases hup
    · exact iff_of_false (fun hno => hno ⟨hpc, hdown, hnone⟩) (not_not_intro hyes)
  · -- whoever is not in the wait has not been rejected
    have hno : .send false ∉ ls := by
      cases hcase : b.pc <;> simp only [hcase] at h
      case waiting => exact absurd hcase hpc
      all_goals exact h.1
    exact iff_of_true (fun hstuck => hpc hstuck.1) hno

/-- The controller's first send, accepted and reported. -/
def firstSend : List SketchLabel :=
  [.init true, .check 10001, .store 10001, .clear, .send true, .wait, .onDataSent 1, .wait]

/-- **A send that is accepted is not waited for in vain**, delivered or not. -/
theorem firstSend_not_stuck :
    ∃ b, run (sketchStep .controller) Board.boot firstSend = some b ∧ ¬ StuckWaiting b := by
  have hno : .send false ∉ firstSend := by decide
  have hrun : ∃ b, run (sketchStep .controller) Board.boot firstSend = some b := ⟨_, rfl⟩
  obtain ⟨b, hb⟩ := hrun
  exact ⟨b, hb, (stuck_iff_rejected hb).mpr hno⟩

/-- **Without ESP-NOW either sketch hangs at its first send.** -/
theorem failed_init_sticks :
    (∃ b, run (sketchStep .controller) Board.boot
        [.init false, .check 10001, .store 10001, .clear, .send false, .wait] = some b
      ∧ StuckWaiting b)
    ∧ ∃ b, run (sketchStep .deepSleep) Board.boot [.init false, .clear, .send false, .wait] = some b
      ∧ StuckWaiting b :=
  ⟨⟨_, rfl, rfl, rfl, rfl⟩, ⟨_, rfl, rfl, rfl, rfl⟩⟩

end EspNowGateway.Proof

import EspNowGateway.Esp8266.Sketch
import Mathlib.Data.List.Chain

/-!
# The send interval

The controller compares what has passed since `lastTime` with the interval, in 32
bits. The reading that is compared and the one that is stored are two readings, and
the counter may wrap between them, or between one turn of the loop and the next. As
long as the loop comes round in less than a whole turn of the counter, the difference
it sees is the true one.
-/

namespace EspNowGateway.Proof

open EspNowGateway TransitionSystem

/-- The true time of the latest reading that was stored; the start, if there is none. -/
def latest (b : Board) : Nat := b.stored.getLast?.getD 0

/-- A check comes less than one turn of the counter after the latest stored reading. -/
def InTime (b : Board) : SketchLabel → Prop
  | .check t => t < latest b + 0x100000000
  | _ => True

/-- Two readings less than a turn apart differ by the time between them. -/
theorem millis_sub {t₀ t : Nat} (hle : t₀ ≤ t) (hlt : t < t₀ + 0x100000000) :
    (millis t - millis t₀).toNat = t - t₀ := by
  rw [UInt32.toNat_sub, millis, millis, UInt32.toNat_ofNat', UInt32.toNat_ofNat']
  omega

/-- What the controller's globals say about the times of its readings. -/
structure Timed (b : Board) : Prop where
  fresh : b.pc = .initialising → b.stored = []
  last : b.lastTime = millis (latest b)
  past : latest b ≤ b.now
  spaced : (0 :: b.stored).IsChain fun t t' => t + timerDelay.toNat < t'
  /-- Between the test and the store, the test has held. -/
  due : b.pc = .storing → latest b + timerDelay.toNat < b.now

/-- What the test of the interval says in true time. -/
theorem Timed.test_iff {b : Board} (h : Timed b) {t : Nat} (hnow : b.now ≤ t)
    (hin : InTime b (.check t)) :
    millis t - b.lastTime > timerDelay ↔ latest b + timerDelay.toNat < t := by
  have hpast := h.past
  have hsub := millis_sub (Nat.le_trans hpast hnow) hin
  rw [h.last, gt_iff_lt, UInt32.lt_iff_toNat_lt, hsub]
  omega

theorem latest_store (b b' : Board) (t : Nat) (h : b'.stored = b.stored ++ [t]) :
    latest b' = t := by
  rw [latest, h, List.getLast?_append, List.getLast?_singleton]
  rfl

theorem timed_boot : Timed Board.boot :=
  ⟨fun _ => rfl, rfl, Nat.le_refl 0, List.isChain_singleton 0, fun hc => SketchPc.noConfusion hc⟩

/-- Steps that store nothing, and lead neither to the start nor to the store. -/
theorem Timed.elsewhere {b b' : Board} (h : Timed b) (hlast : b'.lastTime = b.lastTime)
    (hstored : b'.stored = b.stored) (hnow : b.now ≤ b'.now) (hinit : b'.pc ≠ .initialising)
    (hstoring : b'.pc ≠ .storing) : Timed b' := by
  have hsame : latest b' = latest b := by rw [latest, hstored, latest]
  refine ⟨fun hc => absurd hc hinit, ?_, ?_, ?_, fun hc => absurd hc hstoring⟩
  · rw [hlast, hsame]
    exact h.last
  · rw [hsame]
    exact Nat.le_trans h.past hnow
  · rw [hstored]
    exact h.spaced

theorem timed_step {sketch : Sketch} {b b' : Board} {l : SketchLabel} (h : Timed b)
    (hin : InTime b l) (hs : SketchStep sketch b l b') : Timed b' := by
  have htop : sketch.top ≠ .initialising ∧ sketch.top ≠ .storing := by
    cases sketch <;> exact ⟨SketchPc.noConfusion, SketchPc.noConfusion⟩
  have hafter : sketch.afterSend ≠ .initialising ∧ sketch.afterSend ≠ .storing := by
    cases sketch <;> exact ⟨SketchPc.noConfusion, SketchPc.noConfusion⟩
  cases hs with
  | init ok hpc =>
      -- `lastTime` is set to what it was
      have hzero : latest b = 0 := by rw [latest, h.fresh hpc]; rfl
      refine h.elsewhere ?_ rfl (Nat.le_refl _) htop.1 htop.2
      rw [h.last, hzero]
      rfl
  | early t hpc hnow hnot =>
      exact h.elsewhere rfl rfl hnow SketchPc.noConfusion SketchPc.noConfusion
  | due t hpc hnow hdue =>
      exact ⟨fun hc => SketchPc.noConfusion hc, h.last, Nat.le_trans h.past hnow, h.spaced,
        fun _ => (h.test_iff hnow hin).mp hdue⟩
  | store t hpc hnow =>
      have hlatest := latest_store b
        { b with pc := .clearing, lastTime := millis t, now := t, stored := b.stored ++ [t] } t rfl
      refine ⟨fun hc => SketchPc.noConfusion hc, ?_, Nat.le_of_eq hlatest, ?_,
        fun hc => SketchPc.noConfusion hc⟩
      · rw [hlatest]
      · -- the store comes no earlier than the check that let it happen
        have hdue := h.due hpc
        rw [show 0 :: (b.stored ++ [t]) = (0 :: b.stored) ++ [t] from rfl, List.isChain_append]
        refine ⟨h.spaced, List.isChain_singleton t, ?_⟩
        intro x hx y hy
        rw [List.getLast?_cons] at hx
        cases hx
        cases hy
        exact Nat.lt_of_lt_of_le hdue hnow
  | clear hpc =>
      exact h.elsewhere rfl rfl (Nat.le_refl _) SketchPc.noConfusion SketchPc.noConfusion
  | accepted hpc hready =>
      exact h.elsewhere rfl rfl (Nat.le_refl _) SketchPc.noConfusion SketchPc.noConfusion
  | rejected hpc =>
      exact h.elsewhere rfl rfl (Nat.le_refl _) SketchPc.noConfusion SketchPc.noConfusion
  | wait hpc hflag => exact h
  | complete hpc hflag => exact h.elsewhere rfl rfl (Nat.le_refl _) hafter.1 hafter.2
  | onDataSent sendStatus hpos => exact ⟨h.fresh, h.last, h.past, h.spaced, h.due⟩
  | wakeUp hpc => exact timed_boot
  | delayOver hpc => exact h.elsewhere rfl rfl (Nat.le_refl _) htop.1 htop.2

/-! ## What a check can start -/

/-- The steps of the sketch itself, without those of the callback. -/
def ownSteps (ls : List SketchLabel) : List SketchLabel :=
  ls.filter fun
    | .onDataSent _ => false
    | _ => true

/--
The sketch is about to store a reading, and goes straight from there to `esp_now_send`:
it can, whichever of the outcomes the SDK can give, and it does nothing else, whenever
the callback comes in between.
-/
def StartsSend (b : Board) : Prop :=
  b.pc = .storing
    ∧ (∀ t accepted, b.now ≤ t → (accepted = true → b.espNowReady = true) →
      ∃ b', run (sketchStep .controller) b [.store t, .clear, .send accepted] = some b'
        ∧ b'.pc = .waiting ∧ b'.outstanding = b.outstanding + if accepted then 1 else 0)
    ∧ ∀ ls b', run (sketchStep .controller) b ls = some b' → 3 ≤ (ownSteps ls).length →
      ∃ t accepted rest, ownSteps ls = .store t :: .clear :: .send accepted :: rest

/-- The callback moves the sketch nowhere, so its next own step is made from where it is. -/
theorem ownSteps_head {b b' : Board} {ls rest : List SketchLabel} {l : SketchLabel}
    (hr : run (sketchStep .controller) b ls = some b') (hown : ownSteps ls = l :: rest) :
    ∃ b₁ b₂ ls', b₁.pc = b.pc ∧ SketchStep .controller b₁ l b₂ ∧ (∀ st, l ≠ .onDataSent st)
      ∧ run (sketchStep .controller) b₂ ls' = some b' ∧ ownSteps ls' = rest := by
  induction ls generalizing b with
  | nil => cases hown
  | cons l' ls ih =>
      obtain ⟨m, hm, hrest⟩ := run_cons_eq_some.mp hr
      cases l' with
      | onDataSent sendStatus =>
          have hpc : m.pc = b.pc := by cases sketchStep_cases hm; rfl
          obtain ⟨b₁, b₂, ls', hb, h⟩ := ih hrest hown
          exact ⟨b₁, b₂, ls', hb.trans hpc, h⟩
      | _ =>
          cases hown
          exact ⟨b, m, ls, rfl, sketchStep_cases hm, fun _ => SketchLabel.noConfusion, hrest, rfl⟩

/-- From the store there is one way to go, and it leads to `esp_now_send`. -/
theorem ownSteps_of_storing {b b' : Board} {ls : List SketchLabel} (hpc : b.pc = .storing)
    (hr : run (sketchStep .controller) b ls = some b') (hlen : 3 ≤ (ownSteps ls).length) :
    ∃ t accepted rest, ownSteps ls = .store t :: .clear :: .send accepted :: rest := by
  match hown : ownSteps ls with
  | [] | [_] | [_, _] => rw [hown] at hlen; simp at hlen
  | l₁ :: l₂ :: l₃ :: rest =>
      obtain ⟨c₁, b₁, ls₁, hc₁, hs₁, hl₁, hr₁, hown₁⟩ := ownSteps_head hr hown
      obtain ⟨c₂, b₂, ls₂, hc₂, hs₂, hl₂, hr₂, hown₂⟩ := ownSteps_head hr₁ hown₁
      obtain ⟨c₃, b₃, ls₃, hc₃, hs₃, hl₃, hr₃, hown₃⟩ := ownSteps_head hr₂ hown₂
      have hstore : (∃ t, l₁ = .store t) ∧ b₁.pc = .clearing := by
        rw [hpc] at hc₁
        cases hs₁ <;> simp_all
      have hclear : l₂ = .clear ∧ b₂.pc = .sending := by
        rw [hstore.2] at hc₂
        cases hs₂ <;> simp_all
      have hsend : ∃ accepted, l₃ = .send accepted := by
        rw [hclear.2] at hc₃
        cases hs₃ <;> simp_all
      obtain ⟨⟨t, rfl⟩, _⟩ := hstore
      obtain ⟨rfl, _⟩ := hclear
      obtain ⟨accepted, rfl⟩ := hsend
      exact ⟨t, accepted, rest, rfl⟩

/-- A check that finds the interval over starts a send. -/
theorem startsSend_of_due {b b' : Board} {t : Nat} (h : Timed b) (hin : InTime b (.check t))
    (hs : sketchStep .controller b (.check t) = some b')
    (hdue : latest b + timerDelay.toNat < t) : StartsSend b' := by
  cases sketchStep_cases hs with
  | early _ hpc hnow hnot => exact absurd ((h.test_iff hnow hin).mpr hdue) hnot
  | due _ hpc hnow _ =>
      refine ⟨rfl, ?_, fun ls b' hr hlen => ownSteps_of_storing rfl hr hlen⟩
      intro u accepted hu hready
      have hstore : sketchStep .controller { b with pc := .storing, now := t } (.store u)
          = some { b with
            pc := .clearing, lastTime := millis u, now := u, stored := b.stored ++ [u] } :=
        if_pos hu
      rw [run_cons, hstore]
      cases accepted with
      | false => exact ⟨_, rfl, rfl, rfl⟩
      | true =>
          refine ⟨{ b with
            pc := .waiting, espNowSendStatus := false, lastTime := millis u, now := u
            stored := b.stored ++ [u], outstanding := b.outstanding + 1 }, ?_, rfl, rfl⟩
          have hr : b.espNowReady = true := hready rfl
          simp [run_cons, sketchStep, hr]

/--
**The interval is kept across any number of wraps.**

In every run of the controller whose checks come in time: the readings that were
stored are more than the interval apart, the first one from the start, and a check
made later than that after the latest of them starts a send.
-/
theorem interval_kept {ls : List SketchLabel} {b : Board}
    (hm : StepsMeet (sketchStep .controller) InTime Board.boot ls)
    (hr : run (sketchStep .controller) Board.boot ls = some b) :
    ((0 :: b.stored).IsChain fun t t' => t + timerDelay.toNat < t')
      ∧ ∀ t b', InTime b (.check t) → sketchStep .controller b (.check t) = some b' →
        latest b + timerDelay.toNat < t → StartsSend b' := by
  have h : Timed b := run_invariant timed_boot
    (fun _ _ _ hI hC hs => timed_step hI hC (sketchStep_cases hs)) hm hr
  exact ⟨h.spaced, fun t b' hin hs hdue => startsSend_of_due h hin hs hdue⟩

/-- A send just before the counter wraps, as far as the next turn of the loop. -/
def beforeWrap : List SketchLabel :=
  [.init true, .check 4294960000, .store 4294960001, .clear, .send true, .onDataSent 0, .wait]

/-- The next one, just behind. -/
def overWrap : List SketchLabel :=
  beforeWrap ++ [.check 4294970002, .store 4294970003, .clear, .send true]

theorem overWrap_inTime : StepsMeet (sketchStep .controller) InTime Board.boot overWrap := by
  refine (stepsMeet_cons_of_step rfl).mpr ⟨trivial, ?_⟩
  refine (stepsMeet_cons_of_step rfl).mpr ⟨show 4294960000 < 0 + 0x100000000 by decide, ?_⟩
  iterate 5 refine (stepsMeet_cons_of_step rfl).mpr ⟨trivial, ?_⟩
  refine (stepsMeet_cons_of_step rfl).mpr ⟨show 4294970002 < 4294960001 + 0x100000000 by decide, ?_⟩
  iterate 3 refine (stepsMeet_cons_of_step rfl).mpr ⟨trivial, ?_⟩
  trivial

/--
**Two readings on the two sides of a wrap.** The check that lets the second one happen
sees a clock that is smaller than `lastTime`, and starts a send.
-/
theorem interval_kept_over_wrap :
    ∃ b₀ b₁ b, run (sketchStep .controller) Board.boot beforeWrap = some b₀
      ∧ sketchStep .controller b₀ (.check 4294970002) = some b₁ ∧ millis 4294970002 < b₀.lastTime
      ∧ StartsSend b₁
      ∧ run (sketchStep .controller) Board.boot overWrap = some b
      ∧ b.stored = [4294960001, 4294970003] ∧ b.outstanding = 1
      ∧ (0 :: b.stored).IsChain fun t t' => t + timerDelay.toNat < t' := by
  have hbefore : StepsMeet (sketchStep .controller) InTime Board.boot beforeWrap :=
    (stepsMeet_append.mp overWrap_inTime).1
  refine ⟨_, _, _, rfl, rfl, by decide, ?_, rfl, rfl, rfl, (interval_kept overWrap_inTime rfl).1⟩
  exact (interval_kept hbefore rfl).2 4294970002 _
    (show 4294970002 < 4294960001 + 0x100000000 by decide) rfl
    (show 4294960001 + 10000 < 4294970002 by decide)

end EspNowGateway.Proof

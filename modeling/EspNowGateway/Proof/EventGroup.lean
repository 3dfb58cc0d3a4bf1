import EspNowGateway.Esp32.Wifi

/-!
# The event group after `wifi_start`

`wifi_start` deletes `s_wifi_event_group` on its way out, and `event_handler` goes
on setting bits in it. Two events reach a set: a lease, always, and a link loss
once the retry counter is at its maximum. `staleSets_iff` says these are the only
ways to use the deleted group: a run keeps clear of it exactly when, after the
deletion, no lease arrives and no more losses arrive than the counter can take.
-/

namespace EspNowGateway.Proof

open EspNowGateway TransitionSystem

/--
The step brings no event that sets a bit of a deleted group. With the group gone
the event is no lease, and if it is a loss of the link, fewer than the maximum
have come since the last lease or boot.
-/
def Harmless (maximumRetry : Nat) (s : Station) (l : WifiLabel) : Prop :=
  s.sWifiEventGroup = none →
    l ≠ .event .gotIp
      ∧ (l = .event .staDisconnected → disconnectsSinceIp s.events < maximumRetry)

/-- A bit set counts as stale exactly when the group is gone. -/
theorem setBits_staleSets (s : Station) (b : WifiBit) :
    (s.setBits b).staleSets = 0 ↔ s.staleSets = 0 ∧ s.sWifiEventGroup ≠ none := by
  unfold Station.setBits
  cases s.sWifiEventGroup <;> simp

/-- Handling one event keeps clear of a deleted group exactly when it is harmless. -/
theorem handleEvent_staleSets {maximumRetry : Nat} {s : Station} (e : WifiEvent)
    (hc : RetryCounted maximumRetry s) :
    (handleEvent maximumRetry s e).staleSets = 0
      ↔ s.staleSets = 0 ∧ Harmless maximumRetry s (.event e) := by
  unfold RetryCounted at hc
  cases e with
  | staStart => simp [handleEvent, eventHandler, Harmless]
  | gotIp =>
      -- a lease sets its bit without looking at anything
      rw [handleEvent, eventHandler, setBits_staleSets]
      simp [Harmless]
  | staDisconnected =>
      by_cases hlt : s.sRetryNum < maximumRetry
      · -- the handler reconnects and touches no bit
        have hd : disconnectsSinceIp s.events < maximumRetry := by omega
        simp [handleEvent, eventHandler, hlt, Harmless, hd]
      · -- the counter is used up, and so are the losses that make no difference
        have hd : ¬ disconnectsSinceIp s.events < maximumRetry := by omega
        rw [handleEvent, eventHandler, if_neg hlt, setBits_staleSets]
        simp [Harmless, hd]

theorem staleSets_step {maximumRetry : Nat} {s s' : Station} {l : WifiLabel}
    (hc : RetryCounted maximumRetry s) (hs : WifiStep maximumRetry s l s') :
    s'.staleSets = 0 ↔ s.staleSets = 0 ∧ Harmless maximumRetry s l := by
  cases hs with
  | event e ha => exact handleEvent_staleSets e hc
  | satisfied g hw hg hb => simp [Harmless]
  | blocked hw => simp [Harmless]
  | getChannelFail g hw hf => simp [Harmless]
  | delete g hw => simp [Harmless]
  | errorCheck ok hw => simp [Harmless]

/--
**When the deleted event group is left alone.**

For every maximum and every run from boot, no bit was ever set in the deleted
group if and only if every step of the run was harmless.
-/
theorem staleSets_iff (maximumRetry : Nat) {ls : List WifiLabel} {s : Station}
    (hr : run (wifiStep maximumRetry) Station.boot ls = some s) :
    s.staleSets = 0 ↔ StepsMeet (wifiStep maximumRetry) (Harmless maximumRetry) Station.boot ls :=
  run_good_iff (I := RetryCounted maximumRetry) (G := fun s => s.staleSets = 0)
    (retryCounted_boot maximumRetry) rfl
    (fun _ _ _ hc hs => retryCounted_step hc (wifiStep_cases hs))
    (fun _ _ _ hc hs => staleSets_step hc (wifiStep_cases hs)) hr

/-- Startup, and then a link loss that the reconnect branch repairs. -/
def relink : List WifiLabel :=
  [.event .staStart, .event .gotIp, .waitBits, .delete, .errorCheck, .event .staDisconnected,
    .event .gotIp]

/-- **A repaired link loss sets a bit in the deleted group**, with the program up and running. -/
theorem relink_uses_deleted_group :
    ∃ s, run (wifiStep 5) Station.boot relink = some s ∧ s.appMain = .running ∧ s.staleSets = 1 :=
  ⟨_, rfl, rfl, rfl⟩

/-- **Five losses in a row are still harmless**, with a maximum of five. -/
theorem five_losses_harmless :
    ∃ s, run (wifiStep 5) Station.boot ([.event .staStart, .event .gotIp, .waitBits, .delete,
        .errorCheck] ++ List.replicate 5 (.event .staDisconnected)) = some s
      ∧ s.staleSets = 0
      ∧ StepsMeet (wifiStep 5) (Harmless 5) Station.boot ([.event .staStart, .event .gotIp,
        .waitBits, .delete, .errorCheck] ++ List.replicate 5 (.event .staDisconnected)) :=
  ⟨_, rfl, rfl, (staleSets_iff 5 rfl).mp rfl⟩

end EspNowGateway.Proof

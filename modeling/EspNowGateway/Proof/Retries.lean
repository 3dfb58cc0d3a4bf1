import EspNowGateway.Esp32.Wifi
import Mathlib.Data.List.Count

/-!
# Retries and giving up

The retry counter forgets with every lease, the two bits of the event group forget
nothing. What `wifi_start` returns depends on the bits at one moment, when its wait
is satisfied: if it gives up, the losses had outrun the maximum by that moment, and
until then there had been no lease. A lease may still be handled between that moment
and the one at which `app_main` gets to run again.
-/

namespace EspNowGateway.Proof

open EspNowGateway TransitionSystem

/-- The events of a run, in order. -/
def eventsOf (ls : List WifiLabel) : List WifiEvent :=
  ls.filterMap fun
    | .event e => some e
    | _ => none

theorem eventsOf_snoc (ls : List WifiLabel) (l : WifiLabel) :
    eventsOf (ls ++ [l]) = eventsOf ls ++ eventsOf [l] := List.filterMap_append ..

/-- The bits of the group as the record of the events: the first is exact, the second a bound. -/
def BitsTell (maximumRetry : Nat) (events : List WifiEvent) (g : EventGroup) : Prop :=
  (g.connected = true ↔ .gotIp ∈ events)
    ∧ (g.fail = true → maximumRetry + 1 ≤ events.count .staDisconnected)

/--
The last step of `ls` satisfies the wait of `wifi_start`, with the bits `g`: it is the
call, which finds a bit set, or an event that sets one while `app_main` is blocked.
-/
def Satisfies (maximumRetry : Nat) (ls : List WifiLabel) (g : EventGroup) : Prop :=
  ∃ before l s s', ls = before ++ [l]
    ∧ run (wifiStep maximumRetry) Station.boot before = some s
    ∧ wifiStep maximumRetry s l = some s'
    ∧ (s.appMain = .calling ∨ s.appMain = .blocked) ∧ s'.appMain = .woken g

/-- The wait was satisfied with `g`, which told of the events up to then. -/
def WokeWith (maximumRetry : Nat) (ls : List WifiLabel) (g : EventGroup) : Prop :=
  ∃ before after, ls = before ++ after ∧ Satisfies maximumRetry before g
    ∧ (g.connected || g.fail) = true ∧ BitsTell maximumRetry (eventsOf before) g

theorem WokeWith.snoc {maximumRetry : Nat} {ls : List WifiLabel} {g : EventGroup}
    (h : WokeWith maximumRetry ls g) (l : WifiLabel) : WokeWith maximumRetry (ls ++ [l]) g := by
  obtain ⟨before, after, rfl, hsat, hbits, htell⟩ := h
  exact ⟨before, after ++ [l], List.append_assoc .., hsat, hbits, htell⟩

/-- A wait that has just been satisfied. -/
theorem Satisfies.wokeWith {maximumRetry : Nat} {ls : List WifiLabel} {g : EventGroup}
    (h : Satisfies maximumRetry ls g) (hbits : (g.connected || g.fail) = true)
    (htell : BitsTell maximumRetry (eventsOf ls) g) : WokeWith maximumRetry ls g :=
  ⟨ls, [], (List.append_nil ls).symm, h, hbits, htell⟩

/-- What a run keeps account of. -/
structure Accounts (maximumRetry : Nat) (ls : List WifiLabel) (s : Station) : Prop where
  events : s.events = eventsOf ls
  counted : RetryCounted maximumRetry s
  group : ∀ g, s.sWifiEventGroup = some g → BitsTell maximumRetry (eventsOf ls) g
  woken : ∀ g, s.appMain = .woken g → WokeWith maximumRetry ls g
  gaveUp : s.appMain = .returned false → ∃ g, g.connected = false ∧ WokeWith maximumRetry ls g

/-! ## One event -/

theorem disconnectsSinceIp_le_count (events : List WifiEvent) :
    disconnectsSinceIp events ≤ events.count .staDisconnected := by
  induction events using List.reverseRecOn with
  | nil => exact Nat.le_refl 0
  | append_singleton events e ih =>
      rw [disconnectsSinceIp_snoc, List.count_append]
      cases e with
      | staStart => exact Nat.le_trans ih (Nat.le_add_right ..)
      | staDisconnected => exact Nat.add_le_add_right ih 1
      | gotIp => exact Nat.zero_le _

/-- The handler reconnects as long as the losses since the last lease are below the maximum. -/
theorem reconnects_iff {maximumRetry : Nat} {s : Station} (h : RetryCounted maximumRetry s) :
    (eventHandler maximumRetry s.sRetryNum .staDisconnected).2 = .espWifiConnect
      ↔ disconnectsSinceIp s.events < maximumRetry := by
  unfold RetryCounted at h
  rw [eventHandler]
  split
  · exact iff_of_true rfl (by omega)
  · exact iff_of_false HandlerCall.noConfusion (by omega)

/-- Otherwise it gives up. -/
theorem gives_up {maximumRetry : Nat} {s : Station} (h : RetryCounted maximumRetry s)
    (hmany : ¬ disconnectsSinceIp s.events < maximumRetry) :
    (eventHandler maximumRetry s.sRetryNum .staDisconnected).2 = .setBits .fail := by
  unfold RetryCounted at h
  rw [eventHandler, if_neg (by omega)]

theorem set_satisfies (g : EventGroup) (b : WifiBit) :
    ((g.set b).connected || (g.set b).fail) = true := by
  cases b with
  | connected => rfl
  | fail => exact Bool.or_true _

/-- A set moves `app_main` only out of a wait that is blocked. -/
theorem setBits_appMain (s : Station) (b : WifiBit) :
    (s.setBits b).appMain = s.appMain
      ∨ s.appMain = .blocked ∧ ∃ g, (s.setBits b).sWifiEventGroup = some g
        ∧ (g.connected || g.fail) = true ∧ (s.setBits b).appMain = .woken g := by
  unfold Station.setBits
  split
  · rename_i g hg
    cases hpc : s.appMain with
    | blocked => exact Or.inr ⟨rfl, g.set b, rfl, set_satisfies g b, rfl⟩
    | _ => exact Or.inl rfl
  · exact Or.inl rfl

theorem handleEvent_appMain (maximumRetry : Nat) (s : Station) (e : WifiEvent) :
    (handleEvent maximumRetry s e).appMain = s.appMain
      ∨ s.appMain = .blocked ∧ ∃ g, (handleEvent maximumRetry s e).sWifiEventGroup = some g
        ∧ (g.connected || g.fail) = true ∧ (handleEvent maximumRetry s e).appMain = .woken g := by
  unfold handleEvent
  cases (eventHandler maximumRetry s.sRetryNum e).2 with
  | espWifiConnect => exact Or.inl rfl
  | setBits b => exact setBits_appMain _ b

/-- Whatever is handled, a wait that is over stays over. -/
theorem handleEvent_unblocked {maximumRetry : Nat} {s : Station} (e : WifiEvent)
    (h : s.appMain ≠ .blocked) : (handleEvent maximumRetry s e).appMain = s.appMain :=
  (handleEvent_appMain maximumRetry s e).resolve_right fun hb => h hb.1

/-- A set bit is a set bit: the group after one event. -/
theorem setBits_group {s : Station} {b : WifiBit} {g' : EventGroup}
    (h : (s.setBits b).sWifiEventGroup = some g') :
    ∃ g, s.sWifiEventGroup = some g ∧ g' = g.set b := by
  unfold Station.setBits at h
  split at h
  · rename_i g hg
    cases h
    exact ⟨g, hg, rfl⟩
  · rename_i hg
    rw [hg] at h
    cases h

/-- The bits go on telling what the events were. -/
theorem bitsTell_handleEvent {maximumRetry : Nat} {s : Station} {g' : EventGroup} (e : WifiEvent)
    (hc : RetryCounted maximumRetry s)
    (hgroup : ∀ g, s.sWifiEventGroup = some g → BitsTell maximumRetry s.events g)
    (h : (handleEvent maximumRetry s e).sWifiEventGroup = some g') :
    BitsTell maximumRetry (s.events ++ [e]) g' := by
  have hmono : s.events.count .staDisconnected ≤ (s.events ++ [e]).count .staDisconnected := by
    rw [List.count_append]
    exact Nat.le_add_right ..
  cases e with
  | staStart =>
      obtain ⟨hconnected, hfail⟩ := hgroup g' h
      refine ⟨?_, fun hf => Nat.le_trans (hfail hf) hmono⟩
      rw [hconnected, List.mem_append]
      exact ⟨Or.inl, fun hmem => hmem.elim id (by simp)⟩
  | gotIp =>
      obtain ⟨g, hg, rfl⟩ := setBits_group (b := .connected) h
      obtain ⟨_, hfail⟩ := hgroup g hg
      exact ⟨iff_of_true rfl (List.mem_append_right _ (List.mem_singleton.mpr rfl)),
        fun hf => Nat.le_trans (hfail hf) hmono⟩
  | staDisconnected =>
      have hkept : WifiEvent.gotIp ∈ s.events ++ [.staDisconnected] ↔ .gotIp ∈ s.events := by
        rw [List.mem_append]
        exact ⟨fun hmem => hmem.elim id (by simp), Or.inl⟩
      by_cases hfew : disconnectsSinceIp s.events < maximumRetry
      · rw [handleEvent, (reconnects_iff hc).mpr hfew] at h
        obtain ⟨hconnected, hfail⟩ := hgroup g' h
        exact ⟨hconnected.trans hkept.symm, fun hf => Nat.le_trans (hfail hf) hmono⟩
      · -- this loss is one more than the maximum
        rw [handleEvent, gives_up hc hfew] at h
        obtain ⟨g, hg, rfl⟩ := setBits_group h
        obtain ⟨hconnected, _⟩ := hgroup g hg
        refine ⟨hconnected.trans hkept.symm, fun _ => ?_⟩
        have hle := disconnectsSinceIp_le_count s.events
        rw [List.count_append, List.count_singleton_self]
        omega

/-! ## Whole runs -/

theorem accounts_boot (maximumRetry : Nat) : Accounts maximumRetry [] Station.boot where
  events := rfl
  counted := retryCounted_boot maximumRetry
  group := by
    intro g hg
    cases hg
    exact ⟨iff_of_false Bool.noConfusion List.not_mem_nil, fun hf => Bool.noConfusion hf⟩
  woken := fun g hg => StartPc.noConfusion hg
  gaveUp := fun h => StartPc.noConfusion h

/-- A step that is no event leaves the record and what tells of it as they were. -/
theorem Accounts.quiet {maximumRetry : Nat} {ls : List WifiLabel} {s s' : Station} {l : WifiLabel}
    (h : Accounts maximumRetry ls s) (hnone : eventsOf [l] = []) (hevents : s'.events = s.events)
    (hgroup : ∀ g, s'.sWifiEventGroup = some g → s.sWifiEventGroup = some g) :
    s'.events = eventsOf (ls ++ [l])
      ∧ ∀ g, s'.sWifiEventGroup = some g → BitsTell maximumRetry (eventsOf (ls ++ [l])) g := by
  have hsame : eventsOf (ls ++ [l]) = eventsOf ls := by
    rw [eventsOf_snoc, hnone, List.append_nil]
  rw [hsame]
  exact ⟨hevents.trans h.events, fun g hg => h.group g (hgroup g hg)⟩

/-- What a step from `s` leaves of the wait, as long as it does not end it. -/
theorem Accounts.waits {maximumRetry : Nat} {ls : List WifiLabel} {s : Station}
    (h : Accounts maximumRetry ls s) (l : WifiLabel) :
    (∀ g, s.appMain = .woken g → WokeWith maximumRetry (ls ++ [l]) g)
      ∧ (s.appMain = .returned false →
        ∃ g, g.connected = false ∧ WokeWith maximumRetry (ls ++ [l]) g) := by
  refine ⟨fun g hg => (h.woken g hg).snoc l, fun hret => ?_⟩
  obtain ⟨g, hg, hwoke⟩ := h.gaveUp hret
  exact ⟨g, hg, hwoke.snoc l⟩

/-- An event is handled: it may be the one that the wait was blocked for. -/
theorem accounts_event {maximumRetry : Nat} {ls : List WifiLabel} {s : Station} {e : WifiEvent}
    (hr : run (wifiStep maximumRetry) Station.boot ls = some s) (h : Accounts maximumRetry ls s)
    (hs : wifiStep maximumRetry s (.event e) = some (handleEvent maximumRetry s e)) :
    Accounts maximumRetry (ls ++ [.event e]) (handleEvent maximumRetry s e) := by
  obtain ⟨hwoken, hgaveUp⟩ := h.waits (.event e)
  have hgroup : ∀ g, (handleEvent maximumRetry s e).sWifiEventGroup = some g →
      BitsTell maximumRetry (eventsOf (ls ++ [.event e])) g := by
    intro g hg
    rw [eventsOf_snoc, ← h.events]
    exact bitsTell_handleEvent e h.counted (h.events ▸ h.group) hg
  refine ⟨?_, retryCounted_step h.counted (wifiStep_cases hs), hgroup, ?_, ?_⟩
  · rw [handleEvent_events, h.events, eventsOf_snoc]
    rfl
  · rcases handleEvent_appMain maximumRetry s e with happ | ⟨hpc, g, hg, hbits, hwoke⟩
    · rw [happ]
      exact hwoken
    · intro g' hg'
      obtain rfl := StartPc.woken.inj (hwoke.symm.trans hg')
      have hsat : Satisfies maximumRetry (ls ++ [.event e]) g :=
        ⟨ls, .event e, s, _, rfl, hr, hs, Or.inr hpc, hwoke⟩
      exact hsat.wokeWith hbits (hgroup g hg)
  · rcases handleEvent_appMain maximumRetry s e with happ | ⟨_, g, _, _, hwoke⟩
    · rw [happ]
      exact hgaveUp
    · rw [hwoke]
      exact fun hret => StartPc.noConfusion hret

theorem accounts_step {maximumRetry : Nat} {ls : List WifiLabel} {s s' : Station} {l : WifiLabel}
    (hr : run (wifiStep maximumRetry) Station.boot ls = some s) (h : Accounts maximumRetry ls s)
    (hs : wifiStep maximumRetry s l = some s') : Accounts maximumRetry (ls ++ [l]) s' := by
  have hcounted := retryCounted_step h.counted (wifiStep_cases hs)
  have hquiet := @Accounts.quiet maximumRetry ls s s' l h
  obtain ⟨hwoken, _⟩ := h.waits l
  cases wifiStep_cases hs with
  | event e ha => exact accounts_event hr h hs
  | satisfied g hw hgroup hbits =>
      obtain ⟨hevents, htell⟩ := hquiet rfl rfl fun _ hg => hg
      refine ⟨hevents, hcounted, htell, ?_, fun hret => StartPc.noConfusion hret⟩
      intro g' hg'
      cases hg'
      have hsat : Satisfies maximumRetry (ls ++ [.waitBits]) g :=
        ⟨ls, .waitBits, s, _, rfl, hr, hs, Or.inl hw, rfl⟩
      exact hsat.wokeWith hbits (htell g hgroup)
  | blocked hw =>
      obtain ⟨hevents, htell⟩ := hquiet rfl rfl fun _ hg => hg
      exact ⟨hevents, hcounted, htell, fun g' hg' => StartPc.noConfusion hg',
        fun hret => StartPc.noConfusion hret⟩
  | getChannelFail g hw hc =>
      obtain ⟨hevents, htell⟩ := hquiet rfl rfl fun _ hg => hg
      exact ⟨hevents, hcounted, htell, fun g' hg' => StartPc.noConfusion hg',
        fun hret => StartPc.noConfusion hret⟩
  | delete g hw =>
      obtain ⟨hevents, htell⟩ := hquiet rfl rfl fun _ hg => by cases hg
      refine ⟨hevents, hcounted, htell, fun g' hg' => StartPc.noConfusion hg', ?_⟩
      intro hret
      exact ⟨g, StartPc.returned.inj hret, hwoken g hw⟩
  | errorCheck ok hw =>
      obtain ⟨hevents, htell⟩ := hquiet rfl rfl fun _ hg => hg
      refine ⟨hevents, hcounted, htell, ?_, ?_⟩
      · intro g' hg'
        cases ok <;> cases hg'
      · intro hret
        cases ok <;> cases hret

theorem accounts_run {maximumRetry : Nat} {ls : List WifiLabel} {s : Station}
    (hr : run (wifiStep maximumRetry) Station.boot ls = some s) : Accounts maximumRetry ls s :=
  run_induction (P := fun ls s => Accounts maximumRetry ls s) (accounts_boot maximumRetry)
    (fun _ _ _ _ _ hrun h _ hs => accounts_step hrun h hs) ls s
    (stepsMeet_true ls) hr

/--
**Retry accounting.**

After any sequence of events the counter stands at the losses since the last lease
or boot, up to the maximum. The next loss is answered with a reconnect as long as
these are below the maximum, and with the fail bit from then on. And if
`wifi_start` gives up, then when its wait was satisfied there had been more losses
than the maximum, and no lease.
-/
theorem retries_accounted (maximumRetry : Nat) (ls : List WifiLabel) (s : Station)
    (hr : run (wifiStep maximumRetry) Station.boot ls = some s) :
    s.sRetryNum = min maximumRetry (disconnectsSinceIp (eventsOf ls))
      ∧ ((eventHandler maximumRetry s.sRetryNum .staDisconnected).2 = .espWifiConnect
        ↔ disconnectsSinceIp (eventsOf ls) < maximumRetry)
      ∧ (¬ disconnectsSinceIp (eventsOf ls) < maximumRetry →
        (eventHandler maximumRetry s.sRetryNum .staDisconnected).2 = .setBits .fail)
      ∧ (s.appMain = .returned false →
        ∃ before after g, ls = before ++ after ∧ Satisfies maximumRetry before g
          ∧ maximumRetry + 1 ≤ (eventsOf before).count .staDisconnected
          ∧ .gotIp ∉ eventsOf before) := by
  have h := accounts_run hr
  rw [← h.events]
  refine ⟨h.counted, reconnects_iff h.counted, gives_up h.counted, ?_⟩
  intro hret
  obtain ⟨g, hg, before, after, hls, hsat, hbits, hconnected, hfail⟩ := h.gaveUp hret
  rw [hg, Bool.false_or] at hbits
  refine ⟨before, after, g, hls, hsat, hfail hbits, fun hip => ?_⟩
  rw [hconnected.mpr hip] at hg
  cases hg

/-- A station that may not retry loses its link while `app_main` waits, and gets one later. -/
def lateLease : List WifiLabel :=
  [.waitBits, .event .staStart, .event .staDisconnected, .event .gotIp, .delete]

/-- **It gives up**, and what its wait was satisfied with tells of the loss and of no lease. -/
theorem giveUp_accounted :
    ∃ s, run (wifiStep 0) Station.boot lateLease = some s ∧ s.appMain = .returned false
      ∧ s.sRetryNum = min 0 (disconnectsSinceIp (eventsOf lateLease))
      ∧ ∃ before after g, lateLease = before ++ after ∧ Satisfies 0 before g
        ∧ 0 + 1 ≤ (eventsOf before).count .staDisconnected ∧ .gotIp ∉ eventsOf before := by
  obtain ⟨hcount, _, _, hgaveUp⟩ := retries_accounted 0 lateLease _ rfl
  exact ⟨_, rfl, rfl, hcount, hgaveUp rfl⟩

/-- **A lease can be handled before the wait comes back, and `wifi_start` still gives up.** -/
theorem leased_before_return :
    ∃ s, run (wifiStep 0) Station.boot lateLease = some s
      ∧ s.appMain = .returned false
      ∧ .gotIp ∈ s.events :=
  ⟨_, rfl, rfl, by decide⟩

end EspNowGateway.Proof

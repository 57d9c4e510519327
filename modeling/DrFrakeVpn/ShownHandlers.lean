import DrFrakeVpn.ShownState

/-! # The handlers and the state that is shown

Each handler of the connection object leaves a state whose last pending signal agrees with the
protocol that is held. -/
namespace ShownState

open EventLoops DesktopConnection ConnectionRuns List

abbrev Shows {β : Type} (Q : β → Desktop → Prop) (p : Client Bool Call β) (s : Desktop) : Prop :=
  Serves desktop.waits Rely (fun l t => Sound t ∧ Timely l t) (fun _ _ s' => Sound s') Q p s

variable {s : Desktop}

theorem shows_of_emits {β : Type} {Q R} {p : Client Bool Call β} (h : Emits Q p s)
    (hQ : ∀ b t, Q b t → R b t) : Shows R p s :=
  h.mono (fun _ _ _ _ hstep => hstep.1) hQ

variable {I : Desktop → Prop} (hI : ∀ s s', Later s s' → I s → I s')
include hI

theorem shows_of_tame {β : Type} {p : Client Bool Call β} (h : p.Does Tame) (hs : I s) :
    Shows (fun _ => I) p s :=
  shows_of_emits (emits_of_tame hI h hs) fun _ _ ht => ht

theorem shows_step {β γ : Type} {f : Desktop → β × Desktop} {k : β → Client Bool Call γ}
    {Q : γ → Desktop → Prop} (hs : I s)
    (hf : ∀ t, Sound t → I t → Sound (f t).2 ∧ Shows Q (k (f t).1) (f t).2) :
    Shows Q (step f >>= k) s :=
  fun t ht hperm => hf t hperm.1 (hI s t ht.2 hs)

theorem shows_change {f : Desktop → Desktop} {Q : Desktop → Prop} (hs : I s)
    (hf : ∀ t, Sound t → I t → Sound (f t) ∧ Q (f t)) : Shows (fun _ => Q) (change f) s :=
  fun t ht hperm => hf t hperm.1 (hI s t ht.2 hs)

omit hI

def New (new : Option ℕ) (s : Desktop) : Prop :=
  ∀ n, new = some n → n < s.nextId ∧ s.current ≠ some n ∧
    ∀ p, s.object? n = some p → p.attached = false

variable {new : Option ℕ}

theorem loose_new (h : New new s) : Loose { s with current := new } := by
  cases new with
  | none => exact Loose.none rfl
  | some n =>
    intro st
    show Option.map _ (s.object? n) ≠ _
    cases hp : s.object? n with
    | none => exact nofun
    | some p =>
      rw [Option.map_some, (h n rfl).2.2 p hp]
      exact nofun

theorem sound_drop (h : Sound s) (hnew : New new s) : Sound { s with current := new } :=
  { h with
    loose := fun _ => loose_new hnew
    held := fun i hi => (hnew i hi).1 }

def Leaving (i : ℕ) (s : Desktop) : Prop :=
  s.state ≠ .connected ∧ Honest s ∧ (s.shutdownConn = none ∨ s.shutdownConn = some i)

variable (i : ℕ)

theorem leaving_later (s s' : Desktop) (h : Later s s') (hs : Leaving i s) : Leaving i s' := by
  refine ⟨h.state ▸ hs.1, h.honest hs.2.1, ?_⟩
  rcases h.conn with hsame | hnone
  · rw [hsame]
    exact hs.2.2
  · exact .inl hnone

theorem replaceProtocol_shows (hs : Down s) (hnew : New new s) :
    Shows (fun _ t => Down t ∧ t.shutdownConn = none) (replaceProtocol anyProtocol new) s := by
  intro t ht hperm
  obtain ⟨hsound, hclear⟩ := hperm
  have hdown : Down t := down_later s t ht.2 hs
  have hnew' : New new t := by
    obtain ⟨more, _, _, _, _, rfl⟩ := (ht.1 rfl).1
    exact hnew
  have hhonest : Honest { t with current := new } := fun hshown =>
    absurd (state_of_clear hclear hshown) hdown.1
  refine ⟨sound_drop hsound hnew', ?_⟩
  dsimp only
  cases hold : t.current with
  | none =>
    have hconn : t.shutdownConn = none := by
      rcases conn_of_bound hdown.2.2 with hnone | heq
      · exact hnone
      · exact heq.trans hold
    exact ⟨down_of_clear hdown.1 hclear hconn, hconn⟩
  | some i =>
    have hne : new ≠ some i := fun h => (hnew' i h).2.1 hold
    have hleaving : Leaving i { t with current := new } := by
      refine ⟨hdown.1, hhonest, ?_⟩
      rcases conn_of_bound hdown.2.2 with hnone | heq
      · exact .inl hnone
      · exact .inr (heq.trans hold)
    refine shows_of_emits (destroy_emits (leaving_later i) hleaving hne) fun _ u hu => ?_
    obtain ⟨⟨hstate, hhonest, hconn⟩, hother⟩ := hu
    have hnone := hconn.resolve_right hother
    refine ⟨⟨hstate, hhonest, fun j hj => ?_⟩, hnone⟩
    rw [hnone] at hj
    cases hj

variable (request : ConnectRequest)

theorem startChecks_down (hs : Rest s ∨ Adrift s) : Down (startChecks request s).2 := by
  have hstart : Down (if s.state = .connecting then s else s.setConnectionState .connecting) := by
    rcases hs with hrest | ⟨-, hclear, hconn⟩
    · split
      · rename_i hstate
        exact ⟨by rw [hstate]; exact nofun, hrest⟩
      · exact down_set hrest .connecting nofun
    · split
      · rename_i hstate
        exact down_of_clear (by rw [hstate]; exact nofun) hclear hconn
      · rw [World.setConnectionState_connecting]
        exact down_of_clear nofun hclear hconn
  unfold startChecks
  generalize (if s.state = .connecting then s else s.setConnectionState .connecting) = u at hstart ⊢
  dsimp only
  split
  · exact down_set hstart.2 .error nofun
  · exact hstart

theorem startChecks_sound (h : Sound s) : Sound (startChecks request s).2 := by
  have hstart : Sound (if s.state = .connecting then s else s.setConnectionState .connecting) := by
    split
    · exact h
    · exact sound_set h .connecting
  unfold startChecks
  generalize (if s.state = .connecting then s else s.setConnectionState .connecting) = u at hstart ⊢
  dsimp only
  split
  · exact sound_set hstart .error
  · exact hstart

theorem factory_new (h : Sound s) :
    Sound (factory request s).2 ∧ Later s (factory request s).2 ∧
      New (factory request s).1 (factory request s).2 := by
  unfold factory
  split
  · have hunknown : s.object? s.nextId = none := by
      refine find?_eq_none.mpr fun p hp heq => ?_
      have hlt := h.fresh p hp
      have hid : p.id = s.nextId := by simpa using heq
      omega
    have hview : view { s with
        nextId := s.nextId + 1
        objects := s.objects ++ [⟨s.nextId, request, .unknown, false, false⟩] } = view s := by
      refine view_of_object rfl fun i hi => ?_
      have hne : s.nextId ≠ i := fun heq => absurd (h.held i hi) (by omega)
      simp [World.object?, hne]
    refine ⟨⟨fun hconn => loose_of_view hview (h.loose hconn), fun p hp => ?_, fun i hi => ?_,
      h.switching⟩, later_of_view hview rfl rfl rfl rfl (.inl rfl) rfl, ?_⟩
    · rcases mem_append.mp hp with hp | hp
      · exact Nat.lt_succ_of_lt (h.fresh p hp)
      · rw [mem_singleton.mp hp]
        exact Nat.lt_succ_self _
    · exact Nat.lt_succ_of_lt (h.held i hi)
    · rintro n hn
      obtain rfl := Option.some.inj hn
      refine ⟨Nat.lt_succ_self _, fun hcurrent => ?_, fun p hp => ?_⟩
      · exact absurd (h.held _ hcurrent) (Nat.lt_irrefl _)
      have hfind : (s.objects ++ [(⟨s.nextId, request, .unknown, false, false⟩ : Protocol)]).find?
          (fun p => p.id = s.nextId) = some p := hp
      have hnone : s.objects.find? (fun p => p.id = s.nextId) = none := hunknown
      rw [find?_append, hnone] at hfind
      simp only [find?_singleton, decide_true, if_true, Option.none_or,
        Option.some.injEq] at hfind
      rw [← hfind]
  · exact ⟨h, .refl s, nofun⟩

theorem announced_rest {i} (hcurrent : s.current = some i) (h : Rest s) :
    Rest (s.startAnnounced i) := by
  refine ⟨fun hshown => ?_, h.2⟩
  have hlive : Live s := h.1 hshown
  unfold Live at hlive ⊢
  have hview : view (s.startAnnounced i) =
      view (s.updateObject i fun p => { p with attached := true }) := rfl
  rw [view_some hcurrent] at hlive
  obtain ⟨p, hp, hheld⟩ := Option.map_eq_some_iff.mp hlive
  rw [hview, view_updated hp (fun p => { p with attached := true }) fun _ => rfl, if_pos hcurrent]
  simp [(Prod.mk.inj hheld).2]

theorem announced_sound (h : Sound s) (hconn : s.shutdownConn = none) :
    Sound (s.startAnnounced i) :=
  { h with
    loose := fun hne => absurd hconn hne
    fresh := fresh_update i (fun _ => rfl) h.fresh }

theorem afterStart_shows (failed : Bool) (h : Rest s) : Rest (afterStart failed s) := by
  have hover : Rest { s with protocolStartInProgress := false } := h
  unfold afterStart
  dsimp only
  split
  · exact rest_later _ _ (later_post _ rfl) hover
  split
  · refine rest_later _ _ (later_post _ rfl) ?_
    exact hover
  · split
    · exact (down_set hover .error nofun).2
    · split
      · exact hover
      · exact hover

theorem afterStart_sound (failed : Bool) (h : Sound s) : Sound (afterStart failed s) := by
  have hover : Sound { s with protocolStartInProgress := false } := { h with }
  unfold afterStart
  dsimp only
  split
  · exact sound_post hover
  split
  · exact { hover with }
  split
  · exact sound_set hover .error
  · split
    · exact { hover with }
    · exact hover

theorem started_shows (hs : Rest s) :
    Shows (fun _ => Rest)
      (anyProtocol.start i >>= fun failed =>
        .atom .started fun s => ((), afterStart failed s)) s := by
  refine Serves.bind (shows_of_tame rest_later (does_start_tame i) hs) fun failed t ht => ?_
  intro u hu hperm
  exact ⟨afterStart_sound failed hperm.1, afterStart_shows failed (rest_later t u hu.2 ht)⟩

def Replaced (s : Desktop) : Prop := Down s ∧ s.shutdownConn = none

theorem replaced_later (s s' : Desktop) (h : Later s s') (hs : Replaced s) : Replaced s' := by
  refine ⟨down_later s s' h hs.1, ?_⟩
  rcases h.conn with hsame | hnone
  · exact hsame.trans hs.2
  · exact hnone

theorem startNewConnection_shows (hs : Rest s ∨ Adrift s) :
    Shows (fun _ => Rest) (startNewConnection anyProtocol request) s := by
  have hstable : ∀ s s', Later s s' → Rest s ∨ Adrift s → Rest s' ∨ Adrift s' :=
    fun s s' h => Or.imp (rest_later s s' h) h.adrift
  refine shows_step hstable hs fun t hsound ht => ⟨startChecks_sound request hsound, ?_⟩
  have hdown := startChecks_down request ht
  generalize startChecks request t = checked at hdown ⊢
  obtain ⟨allowed, t⟩ := checked
  cases allowed with
  | false => exact hdown.2
  | true =>
    refine shows_step down_later hdown fun u hsound hu => ?_
    obtain ⟨hsound', hlater, hnew⟩ := factory_new request hsound
    refine ⟨hsound', ?_⟩
    refine Serves.bind (replaceProtocol_shows (down_later _ _ hlater hu) hnew) fun _ v hv => ?_
    refine shows_step replaced_later hv fun w hsound hw => ?_
    unfold createProtocolConnections
    split
    · exact ⟨sound_set hsound .error, (down_set hw.1.2 .error nofun).2⟩
    · rename_i i hcurrent
      exact ⟨announced_sound i hsound hw.2, started_shows i (announced_rest hcurrent hw.1.2)⟩

theorem withLast_shows {f : ConnectRequest → DesktopProg} (hs : Rest s)
    (h : ∀ request s, Rest s → Shows (fun _ => Rest) (f request) s) :
    Shows (fun _ => Rest) (withLast f) s := by
  refine shows_step rest_later hs fun t hsound ht => ⟨hsound, ?_⟩
  cases t.last with
  | none => exact ht
  | some request => exact h request t ht

theorem startOrDefer_shows (hs : Rest s) :
    Shows (fun _ => Rest) (startOrDefer anyProtocol request) s := by
  refine shows_step rest_later hs fun t hsound ht => ?_
  unfold graceWindow
  split
  · split
    · exact ⟨{ hsound with }, ht⟩
    · exact ⟨hsound, startNewConnection_shows request (.inl ht)⟩
  · exact ⟨hsound, startNewConnection_shows request (.inl ht)⟩

structure Switching (next : Switch) (s : Desktop) : Prop where
  rest : Rest s
  down : next ≠ .queued → s.state ≠ .connected
  held : ∀ i, next = .wait i ∨ next = .discard i → s.current = some i
  asked : s.userRequestedDisconnect = false
  last : s.last.isSome = true

theorem connectChecks_switching (hsound : Sound s) (hs : Rest s) :
    Sound (connectChecks request s).2 ∧
      Switching (connectChecks request s).1 (connectChecks request s).2 := by
  have hnoted : ∀ u : Desktop, Sound u → Rest u → Sound { u with
      reconnectScheduled := false
      userRequestedDisconnect := false
      last := some request } ∧ Rest { u with
      reconnectScheduled := false
      userRequestedDisconnect := false
      last := some request } :=
        fun u hu hrest => ⟨{ hu with switching := fun _ => ⟨rfl, rfl⟩ }, hrest⟩
  have hcleared : Sound (if s.reconnectScheduled then s else s.clearRecoveryState) ∧
      Rest (if s.reconnectScheduled then s else s.clearRecoveryState) := by
    split
    · exact ⟨hsound, hs⟩
    · exact ⟨{ hsound with }, hs⟩
  unfold connectChecks
  generalize (if s.reconnectScheduled then s else s.clearRecoveryState) = u at hcleared ⊢
  obtain ⟨hsound, hrest⟩ := hnoted u hcleared.1 hcleared.2
  dsimp only
  split
  · exact ⟨{ hsound with }, hrest, fun h => absurd rfl h, nofun, rfl, rfl⟩
  have hdown := down_set hrest .connecting nofun
  split
  · exact ⟨{ hsound with }, hdown.2, fun _ => hdown.1, nofun, rfl, rfl⟩
  · rename_i p hp
    refine ⟨{ hsound with }, hdown.2, fun _ => hdown.1, fun i hi => ?_, rfl, rfl⟩
    obtain ⟨j, hj, hobject⟩ := Option.bind_eq_some_iff.mp hp
    have hid := object?_id hobject
    have hpi : p.id = i := by
      by_cases hlive : p.state.Live
      · rw [if_pos hlive] at hi
        rcases hi with heq | heq
        · exact Switch.wait.inj heq
        · cases heq
      · rw [if_neg hlive] at hi
        rcases hi with heq | heq
        · cases heq
        · exact Switch.discard.inj heq
    rw [← hpi, hid]
    exact hj

theorem detach_shows {i} (hcurrent : s.current = some i) (hs : Down s) :
    Shows (fun _ t => Down t ∧ Loose t ∧ t.current = some i ∧
      t.userRequestedDisconnect = s.userRequestedDisconnect ∧ t.last = s.last) (detach i) s := by
  intro t ht hperm
  obtain ⟨hsound, hclear⟩ := hperm
  have hdown : Down t := down_later s t ht.2 hs
  have hcurrent' : t.current = some i := by
    obtain ⟨more, _, _, _, _, rfl⟩ := (ht.1 rfl).1
    exact hcurrent
  refine ⟨sound_detached hcurrent' hsound, ?_, loose_detached hcurrent', hcurrent', ht.2.asked,
    ht.2.last⟩
  exact down_of_clear hdown.1 hclear (conn_detached hcurrent' hdown.2.2)

theorem connectToVpn_shows (hs : Rest s) :
    Shows (fun _ => Rest) (connectToVpn anyProtocol request) s := by
  refine shows_step rest_later hs fun t hsound ht => ?_
  obtain ⟨hsound', hswitching⟩ := connectChecks_switching request hsound ht
  refine ⟨hsound', ?_⟩
  generalize connectChecks request t = checked at hswitching ⊢
  obtain ⟨next, t⟩ := checked
  cases next with
  | queued => exact hswitching.rest
  | fresh => exact startOrDefer_shows request hswitching.rest
  | wait i =>
    have hdown : Down t := ⟨hswitching.down nofun, hswitching.rest⟩
    refine Serves.bind (detach_shows (hswitching.held i (.inl rfl)) hdown) fun _ u hu => ?_
    obtain ⟨hdown, hloose, hcurrent, hasked, hlast⟩ := hu
    refine Serves.bind (Q := fun _ => Rest) ?_ fun _ w hw => ?_
    · intro v hv hperm
      obtain ⟨more, _, _, _, _, rfl⟩ := (hv.1 rfl).1
      refine ⟨?_, (down_later _ _ hv.2 hdown).2.1, fun j hj => hj ▸ hcurrent⟩
      refine { hperm.1 with loose := fun _ => hloose, switching := fun _ => ⟨?_, ?_⟩ }
      · exact hasked.trans hswitching.asked
      · rw [show _ = t.last from hlast]
        exact hswitching.last
    · exact shows_of_tame rest_later (does_stop_tame i) hw
  | discard i =>
    have hdown : Down t := ⟨hswitching.down nofun, hswitching.rest⟩
    refine Serves.bind (detach_shows (hswitching.held i (.inr rfl)) hdown) fun _ u hu => ?_
    refine Serves.bind (replaceProtocol_shows hu.1 nofun) fun _ v hv => ?_
    exact startOrDefer_shows request hv.1.2

theorem disconnectChecks_shows (hsound : Sound s) (hs : Rest s) :
    Sound (disconnectChecks s).2 ∧ Down (disconnectChecks s).2 ∧
      ∀ i, (disconnectChecks s).1 = some i → (disconnectChecks s).2.current = some i := by
  unfold disconnectChecks
  generalize hu : ({ s.clearRecoveryState with
    userRequestedDisconnect := true
    connectRequestedDuringStart := false
    disconnectElapsed := some s.clock
    switchWatchdog := false
    shutdownConn := none } : Desktop) = u
  have hsound' : Sound u := by
    subst hu
    exact { hsound with loose := fun h => absurd rfl h, switching := nofun }
  have hrest : Rest u := by
    subst hu
    exact ⟨hs.1, nofun⟩
  dsimp only
  split
  · exact ⟨sound_set hsound' .disconnecting, down_set hrest .disconnecting nofun, nofun⟩
  split
  · exact ⟨sound_set hsound' .disconnected, down_set hrest .disconnected nofun, nofun⟩
  · rename_i i hcurrent
    refine ⟨sound_set hsound' .disconnecting, down_set hrest .disconnecting nofun, fun j hj => ?_⟩
    rw [World.setConnectionState_current, hcurrent]
    exact hj

theorem disconnectFromVpn_shows (hs : Rest s) :
    Shows (fun _ => Rest) (disconnectFromVpn anyProtocol) s := by
  refine shows_step rest_later hs fun t hsound ht => ?_
  obtain ⟨hsound', hdown, hheld⟩ := disconnectChecks_shows hsound ht
  refine ⟨hsound', ?_⟩
  generalize disconnectChecks t = checked at hdown hheld ⊢
  obtain ⟨held, t⟩ := checked
  cases held with
  | none => exact hdown.2
  | some i =>
    refine Serves.bind (detach_shows (hheld i rfl) hdown) fun _ u hu => ?_
    refine Serves.bind (shows_of_tame down_later (does_stop_tame i) hu.1) fun _ v hv => ?_
    refine Serves.bind (replaceProtocol_shows hv nofun) fun _ w hw => ?_
    refine shows_change down_later hw.1 fun x hsound hx => ?_
    exact ⟨sound_set hsound _, (down_set hx.2 .disconnected nofun).2⟩

theorem reconnectToVpn_shows (hs : Rest s) :
    Shows (fun _ => Rest) (reconnectToVpn anyProtocol) s := by
  refine shows_step rest_later hs fun t hsound ht => ?_
  have hchecked : Sound (reconnectChecks t).2 ∧ Rest (reconnectChecks t).2 := by
    unfold reconnectChecks
    split
    · exact ⟨hsound, ht⟩
    split
    · exact ⟨hsound, ht⟩
    · split
      · exact ⟨sound_set hsound .reconnecting, (down_set ht .reconnecting nofun).2⟩
      · exact ⟨hsound, ht⟩
  refine ⟨hchecked.1, ?_⟩
  cases (reconnectChecks t).1 with
  | none => exact hchecked.2
  | some i =>
    refine Serves.bind (shows_of_tame rest_later (does_stop_tame i) hchecked.2) fun _ u hu => ?_
    refine shows_step rest_later hu fun v hsound hv => ?_
    have hkept : Sound (if v.current.isNone then { v with crashed := true } else v) ∧
        Rest (if v.current.isNone then { v with crashed := true } else v) := by
      split
      · exact ⟨{ hsound with }, hv⟩
      · exact ⟨hsound, hv⟩
    generalize (if v.current.isNone then { v with crashed := true } else v) = w at hkept ⊢
    refine ⟨hkept.1, ?_⟩
    cases v.current with
    | none => exact hkept.2
    | some j =>
      refine Serves.bind (shows_of_tame rest_later (does_start_tame j) hkept.2)
        fun failed x hx => ?_
      refine shows_change rest_later hx fun y hsound hy => ?_
      cases failed with
      | true => exact ⟨sound_set hsound .error, (down_set hy .error nofun).2⟩
      | false => exact ⟨hsound, hy⟩

theorem watchdogChecks_shows (hsound : Sound s) (hs : Rest s) :
    Sound (watchdogChecks s).2 ∧ Rest (watchdogChecks s).2 ∧
      ((watchdogChecks s).1 ≠ none → Down (watchdogChecks s).2) := by
  unfold watchdogChecks
  split
  · exact ⟨{ hsound with }, hs, fun h => absurd rfl h⟩
  split
  · exact ⟨sound_set hsound .disconnected, (down_set hs .disconnected nofun).2,
      fun h => absurd rfl h⟩
  · split
    · rename_i hunderway
      refine ⟨hsound, hs, fun _ => ⟨fun hstate => ?_, hs⟩⟩
      rw [show s.state = _ from hstate] at hunderway
      cases hunderway
    · exact ⟨hsound, hs, fun h => absurd rfl h⟩

theorem error_shows (hs : Rest s) :
    Shows (fun _ => Rest) (change fun s => s.setConnectionState .error) s :=
  shows_change rest_later hs fun _ hsound ht =>
    ⟨sound_set hsound .error, (down_set ht .error nofun).2⟩

theorem stateWatchdog_shows (hs : Rest s) :
    Shows (fun _ => Rest) (handleStateWatchdogTimeout anyProtocol) s := by
  refine shows_step rest_later hs fun t hsound ht => ?_
  obtain ⟨hsound', hrest, hdown⟩ := watchdogChecks_shows hsound ht
  refine ⟨hsound', ?_⟩
  generalize watchdogChecks t = checked at hrest hdown ⊢
  obtain ⟨held, t⟩ := checked
  rcases held with _ | _ | i
  · exact hrest
  · exact error_shows hrest
  · refine Serves.bind (shows_of_tame down_later (does_stop_tame i) (hdown nofun)) fun _ u hu => ?_
    exact Serves.bind (replaceProtocol_shows hu nofun) fun _ v hv => error_shows hv.1.2

def Wanted (s : Desktop) : Prop :=
  s.userRequestedDisconnect = false ∧ s.last.isSome = true

theorem wanted_later {s'} (h : Later s s') (hs : Wanted s) : Wanted s' :=
  ⟨h.asked.trans hs.1, by rw [h.last]; exact hs.2⟩

theorem release_shows (held : Option ℕ) (hs : Rest s ∧ Wanted s) (hheld : s.current = held) :
    Shows (fun _ t => (Rest t ∨ Adrift t) ∧ Wanted t) (release anyProtocol held) s := by
  cases held with
  | none => exact ⟨.inl hs.1, hs.2⟩
  | some i =>
    refine Serves.bind (Q := fun _ t => Adrift t ∧ Wanted t) ?_ fun _ t ht => ?_
    · intro t ht hperm
      obtain ⟨hsound, hclear⟩ := hperm
      have hcurrent : t.current = some i := by
        obtain ⟨more, _, _, _, _, rfl⟩ := (ht.1 rfl).1
        exact hheld
      refine ⟨sound_detached hcurrent hsound, ⟨loose_detached hcurrent, hclear, ?_⟩, ?_⟩
      · exact conn_detached hcurrent (ht.2.bound hs.1.2)
      · have hwanted : Wanted t := wanted_later ht.2 hs.2
        exact hwanted
    · intro u hu hperm
      obtain ⟨hsound, hclear⟩ := hperm
      obtain ⟨hloose, -, hconn⟩ := hu.2.adrift ht.1
      obtain ⟨hsound', hlater⟩ := drop_loose hsound hloose hconn
      have hadrift : Adrift { u with current := none } ∧ Wanted { u with current := none } :=
        ⟨⟨Loose.none rfl, hclear, hconn⟩, wanted_later (hu.2.trans hlater) ht.2⟩
      refine ⟨hsound', ?_⟩
      dsimp only
      cases u.current with
      | none => exact ⟨.inr hadrift.1, hadrift.2⟩
      | some j =>
        have hstable : ∀ s s', Later s s' → Adrift s ∧ Wanted s → Adrift s' ∧ Wanted s' :=
          fun s s' h hs => ⟨h.adrift hs.1, wanted_later h hs.2⟩
        exact shows_of_emits (destroy_emits hstable hadrift nofun) fun _ _ h => ⟨.inr h.1.1, h.1.2⟩

theorem wanted_rest_later (s s' : Desktop) (h : Later s s') (hs : Rest s ∧ Wanted s) :
    Rest s' ∧ Wanted s' := ⟨rest_later s s' h hs.1, wanted_later h hs.2⟩

theorem released_shows (hs : (Rest s ∨ Adrift s) ∧ Wanted s) :
    Shows (fun _ => Rest) (withLast (startNewConnection anyProtocol)) s := by
  have hstable : ∀ s s', Later s s' → (Rest s ∨ Adrift s) ∧ Wanted s →
      (Rest s' ∨ Adrift s') ∧ Wanted s' := fun s s' h hs =>
    ⟨hs.1.imp (rest_later s s' h) h.adrift, wanted_later h hs.2⟩
  refine shows_step hstable hs fun t hsound ht => ⟨hsound, ?_⟩
  obtain ⟨request, hrequest⟩ := Option.isSome_iff_exists.mp ht.2.2
  rw [hrequest]
  exact startNewConnection_shows request ht.1

theorem switchWatchdog_shows (hs : Rest s ∧ Wanted s) :
    Shows (fun _ => Rest) (handleSwitchWatchdogTimeout anyProtocol) s := by
  refine shows_step wanted_rest_later hs fun t hsound ht => ?_
  refine ⟨{ hsound with loose := fun h => absurd rfl h }, ?_⟩
  suffices h : ∀ asked, asked = false → Shows (fun _ => Rest)
      (step (fun s => (s.current, s)) >>= fun held => release anyProtocol held >>= fun _ =>
        if asked then pure () else withLast (startNewConnection anyProtocol))
      { t with shutdownConn := none } from h _ ht.2.1
  rintro _ rfl u hu hperm
  have hrest : Rest { t with shutdownConn := none } := ⟨ht.1.1, nofun⟩
  have hu' : Rest u ∧ Wanted u := wanted_rest_later _ _ hu.2 ⟨hrest, ht.2⟩
  refine ⟨hperm.1, ?_⟩
  show Shows (fun _ => Rest) (release anyProtocol u.current >>= fun _ => _) u
  exact Serves.bind (release_shows u.current hu' rfl) fun _ v hv => released_shows hv

theorem handlePosted_shows (call : Posted) (hs : Rest s) :
    Shows (fun _ => Rest) (handlePosted anyProtocol call) s := by
  cases call with
  | connectToVpn request => exact connectToVpn_shows request hs
  | disconnectFromVpn byUser => exact disconnectFromVpn_shows hs
  | reconnectToVpn => exact reconnectToVpn_shows hs
  | startNewConnection =>
    exact withLast_shows hs fun request _ h => startNewConnection_shows request (.inl h)
  | connectAgain => exact withLast_shows hs fun request _ h => connectToVpn_shows request h
  | signal i st => exact hs

theorem posted_shows (hs : Rest s) :
    Shows (fun _ => Rest) (ConnectionEvent.handler anyProtocol .posted) s := by
  refine shows_step rest_later hs fun t hsound ht => ?_
  rcases hqueue : t.queue with _ | ⟨call, queue⟩
  · unfold takePosted
    rw [hqueue]
    exact ⟨hsound, ht⟩
  · by_cases hsignal : ∃ i st, call = .signal i st
    · obtain ⟨i, st, rfl⟩ := hsignal
      rw [takePosted_signal hqueue]
      have hsound' : Sound { t with queue := queue } := { hsound with }
      exact ⟨sound_signal hsound' st, rest_signal hqueue ht⟩
    · rw [takePosted_call hqueue fun i st h => hsignal ⟨i, st, h⟩]
      have hnone : signal? call = none := by
        cases call with
        | signal i st => exact absurd ⟨i, st, rfl⟩ hsignal
        | _ => rfl
      refine ⟨{ hsound with }, handlePosted_shows call ?_⟩
      exact rest_later _ _ (later_call hqueue hnone) ht

theorem handler_shows (e : ConnectionEvent) (hs : Rest s) (hready : e.ready s)
    (hsound : Sound s) : Shows (fun _ => Rest) (e.handler anyProtocol) s := by
  cases e with
  | posted => exact posted_shows hs
  | stateWatchdog =>
    refine shows_step rest_later hs fun t hsound ht => ⟨{ hsound with }, ?_⟩
    exact stateWatchdog_shows ht
  | recovery =>
    refine shows_step rest_later hs fun t hsound ht => ⟨{ hsound with }, ?_⟩
    refine shows_step rest_later ht fun u hsound hu => ?_
    split
    · exact ⟨hsound, hu⟩
    · exact ⟨{ hsound with }, withLast_shows hu fun request _ h => connectToVpn_shows request h⟩
  | switchWatchdog =>
    have hactive : s.switchWatchdog := by
      simp only [ConnectionEvent.ready, Bool.and_eq_true] at hready
      exact hready.1
    refine shows_step wanted_rest_later ⟨hs, hsound.switching hactive⟩ fun t hsound ht => ?_
    exact ⟨{ hsound with switching := nofun }, switchWatchdog_shows ht⟩
  | grace =>
    refine shows_step rest_later hs fun t hsound ht => ⟨{ hsound with }, ?_⟩
    refine shows_step rest_later ht fun u hsound hu => ⟨hsound, ?_⟩
    split
    · exact withLast_shows hu fun request _ h => startNewConnection_shows request (.inl h)
    · exact hu

variable (a : Arrival Bool)

theorem arrive_signals (s : Desktop) : signals (desktop.arrive a s).queue = signals s.queue := by
  cases a with
  | connect request => exact (signals_append).trans (append_nil _)
  | disconnect => exact (signals_append).trans (append_nil _)
  | networkChanged => exact (signals_append).trans (append_nil _)
  | _ => rfl

theorem arrive_sound (h : Sound s) : Sound (desktop.arrive a s) := by
  cases a <;> exact { h with }

def display : Layers desktop InTurn where
  inv := Sound
  rest := Rest
  rely := Rely
  perm l t := Sound t ∧ Timely l t
  outer _ _ s' := Sound s'
  inner s _ s' := Sound s' ∧ Later s s'
  rely_refl _ s := ⟨fun _ => ⟨.refl s, rfl⟩, .refl s⟩
  rely_trans := rely_trans
  rely_wait h := ⟨fun _ => h.1 rfl, h.2⟩
  inner_rely _ h := ⟨nofun, h.2⟩
  outer_inv _ h := h
  inner_inv _ h := h.1
  permitted h ha := ⟨h, ha⟩
  arrive_inv {a c} _ h := arrive_sound a h
  arrive_rely {a c} _ := rely_of_arrived (arrived_apply (fun b _ => b) c.state a)
    (arrive_signals a c.state)
  arrive_rest {a c} _ h := rest_later _ _ (later_arrived
    (arrived_apply (fun b _ => b) c.state a) (arrive_signals a c.state)) h
  dispatch_outer {e s} h hrest hready _ := by
    cases e with
    | connection e => exact handler_shows e hrest hready h
    | emits i st =>
      exact shows_of_emits (setProtocolState_emits i st s) fun _ t ht => rest_later s t ht hrest
    | stops i => exact shows_of_tame rest_later (does_stop_tame i) hrest
  dispatch_inner {e p below s} _ _ ha := by
    cases e with
    | connection e => cases ha
    | emits i st =>
      exact (setProtocolState_emits i st s).mono (fun _ _ _ _ h => h) fun _ _ _ => trivial
    | stops i => exact emits_of_tame (fun _ _ _ => id) (does_stop_tame i) trivial

/-- In a run whose actions are timely, once nothing is underway and no signal is pending, the
state is Connected only while the protocol that is held says so itself. -/
theorem connected_only_with_live_protocol {fails : Bool} {clock epoch safeModeUntil : ℤ} {n : ℕ}
    {c : DesktopLoop}
    (hrun : desktop.Run InTurn ⟨[], .start fails clock epoch safeModeUntil n⟩ c)
    (hdone : c.stack = []) (hquiet : c.state.Quiet) (hstate : c.state.state = .connected) :
    ∃ p, c.state.currentObject = some p ∧ p.state = .connected := by
  have hstart : display.Holds ⟨[], .start fails clock epoch safeModeUntil n⟩ := by
    refine ⟨⟨fun h => absurd rfl h, nofun, nofun, nofun⟩, ?_, nofun⟩
    intro hshown
    cases hshown
  have hend := display.holds_run hstart hrun
  have hrest : Rest c.state := by
    have hstacked := hend.2
    rw [hdone] at hstacked
    exact hstacked
  have hshown : shown c.state = .connected := by
    unfold shown
    rw [hquiet.1, hstate]
    rfl
  obtain ⟨p, hp, hview⟩ := Option.map_eq_some_iff.mp (hrest.1 hshown)
  exact ⟨p, hp, (Prod.mk.inj hview).2⟩

theorem connects_shows_connected :
    (desktop.after connects ⟨[], started⟩).state.state = .connected ∧
    ∃ p, (desktop.after connects ⟨[], started⟩).state.currentObject = some p ∧
      p.state = .connected := by
  have hstack : (desktop.after connects ⟨[], started⟩).stack.length = 0 := by decide +kernel
  refine ⟨by decide +kernel, ?_⟩
  exact connected_only_with_live_protocol (desktop.run_after connects _ (by decide +kernel))
    (length_eq_zero_iff.mp hstack)
    ⟨by decide +kernel, by decide +kernel, by decide +kernel, by decide +kernel, by decide +kernel⟩
    (by decide +kernel)

/-- The protocol gets its connection while the user's disconnect is pending: the signal is
handled after the object is gone. -/
def connectsLate : List DesktopMove :=
  .arrive (.connect someRequest) :: begin (.connection .posted) 8 ++ conclude 2 ++
    .arrive .disconnect :: handle (.emits 0 .connected) 1 ++ handle (.connection .posted) 11 ++
    handle (.connection .posted) 1

theorem connected_without_protocol :
    desktop.Run OneByOne ⟨[], started⟩ (desktop.after connectsLate ⟨[], started⟩) ∧
    (desktop.after connectsLate ⟨[], started⟩).stack.length = 0 ∧
    (desktop.after connectsLate ⟨[], started⟩).state.Quiet ∧
    (desktop.after connectsLate ⟨[], started⟩).state.state = .connected ∧
    (desktop.after connectsLate ⟨[], started⟩).state.currentObject = none :=
  ⟨desktop.run_after _ _ (by decide +kernel), by decide +kernel,
    ⟨by decide +kernel, by decide +kernel, by decide +kernel, by decide +kernel,
      by decide +kernel⟩, by decide +kernel, by decide +kernel⟩

end ShownState

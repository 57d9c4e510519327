import DrFrakeVpn.ConnectionDebts

/-! # A disconnect is final

What is left to happen after the last command of the user, and what it can still do. -/
namespace DisconnectFinality

open SharedPrograms EventLoops DesktopConnection ConnectionRuns ConnectionDebts List Prog

def Spent : Posted → Bool
  | .reconnectToVpn => true
  | .disconnectFromVpn byUser => !byUser
  | .signal _ _ => true
  | _ => false

/-- A state signal that says no more than what the disconnect has done. While a start is
underway, the end of the protocol takes back the wish to disconnect. -/
def Mild (s : Desktop) : Posted → Bool
  | .signal _ .disconnecting => true
  | .signal _ .disconnected => !s.protocolStartInProgress
  | .signal _ _ => false
  | _ => true

/-- No command of the user comes any more, no state signal but mild ones is handled, and no
protocol stops itself while a disconnect is pending. -/
def Silent (m : DesktopMove) (c : DesktopLoop) : Prop :=
  match m with
  | .arrive (.connect _) => False
  | .arrive .disconnect => False
  | .dispatch (.connection .posted) => c.state.queue.head?.all (Mild c.state) = true
  | .dispatch (.stops _) => .disconnectFromVpn false ∉ c.state.queue
  | _ => True

instance : ∀ (m : DesktopMove) (c : DesktopLoop), Decidable (Silent m c)
  | .arrive (.connect _), _ => .isFalse id
  | .arrive .disconnect, _ => .isFalse id
  | .arrive .networkChanged, _ => .isTrue trivial
  | .arrive (.time _ _), _ => .isTrue trivial
  | .arrive (.profiles _), _ => .isTrue trivial
  | .arrive (.outside _), _ => .isTrue trivial
  | .dispatch (.connection .posted), _ => inferInstanceAs (Decidable (_ = true))
  | .dispatch (.connection .stateWatchdog), _ => .isTrue trivial
  | .dispatch (.connection .recovery), _ => .isTrue trivial
  | .dispatch (.connection .switchWatchdog), _ => .isTrue trivial
  | .dispatch (.connection .grace), _ => .isTrue trivial
  | .dispatch (.emits _ _), _ => .isTrue trivial
  | .dispatch (.stops _), _ => inferInstanceAs (Decidable (_ ∉ _))
  | .work, _ => .isTrue trivial
  | .finish, _ => .isTrue trivial

structure Closing (s : Desktop) : Prop where
  calls : ∀ call ∈ s.queue, Spent call = true
  graceTimers : s.graceTimers = 0
  switchWatchdog : s.switchWatchdog = false
  shutdownConn : s.shutdownConn = none
  recoveryTimer : s.recoveryTimer = false
  requested : s.connectRequestedDuringStart = false
  state : s.state = .disconnecting ∨ s.state = .disconnected ∨ s.state = .error ∨
    s.state = .reconnecting
  renewed : s.state = .reconnecting → s.current = none
  asked : s.userRequestedDisconnect = true ∨ s.state = .disconnecting ∨ s.state = .disconnected
  starting : s.protocolStartInProgress = true →
    s.userRequestedDisconnect = true ∧ s.state = .disconnecting

/-- Nothing is started again. -/
def Winding (s s' : Desktop) : Prop :=
  (s.current = none → s'.current = none) ∧
    s'.protocolStartInProgress = s.protocolStartInProgress

def Rely (waiting : Bool) (s s' : Desktop) : Prop :=
  (waiting = false → Arrived s s') ∧ Winding s s'

def Resting (s : Desktop) : Prop :=
  s.protocolStartInProgress = false ∧
    (s.current = none ∨ .disconnectFromVpn false ∈ s.queue)

abbrev Ends {β : Type} (Q : β → Desktop → Prop) (p : Client Bool Call β) (s : Desktop) : Prop :=
  Serves desktop.waits Rely (fun _ => Closing) (fun s _ s' => Closing s' ∧ Winding s s') Q p s

variable {s t : Desktop} {u : Desktop}

theorem winding_trans (h : Winding s t) (h' : Winding t u) : Winding s u :=
  ⟨fun hs => h'.1 (h.1 hs), h'.2.trans h.2⟩

variable {s' : Desktop}

theorem winding_of_eq (hcurrent : s'.current = s.current)
    (hstart : s'.protocolStartInProgress = s.protocolStartInProgress) : Winding s s' :=
  ⟨fun hs => hcurrent.trans hs, hstart⟩

theorem winding_arrived (h : Arrived s s') : Winding s s' := by
  obtain ⟨_, _, _, _, _, rfl⟩ := h
  exact ⟨id, rfl⟩

variable {b : Bool}

theorem rely_trans (h : Rely b s t) (h' : Rely b t u) : Rely b s u :=
  ⟨fun hb => (h.1 hb).trans (h'.1 hb), winding_trans h.2 h'.2⟩

theorem closing_of_disconnected (hcalls : ∀ call ∈ s.queue, Spent call)
    (hgrace : s.graceTimers = 0) (hswitch : s.switchWatchdog = false)
    (hconn : s.shutdownConn = none) (hrecovery : s.recoveryTimer = false)
    (hrequested : s.connectRequestedDuringStart = false)
    (hrenewed : s.state = .reconnecting → s.current = none ∧ s.userRequestedDisconnect)
    (hasked : s.userRequestedDisconnect ∨ s.state.Underway = false)
    (hstart : s.protocolStartInProgress = false) :
    Closing (s.setConnectionState .disconnected) := by
  have hstate := s.setConnectionState_state .disconnected
  have hnostart : (s.setConnectionState .disconnected).protocolStartInProgress → False := by
    intro htrue
    rw [World.setConnectionState_start, hstart] at htrue
    cases htrue
  by_cases hrenewing : s.state = .reconnecting
  · -- the end of the protocol is not taken for the end of the connection
    have heq : s.setConnectionState .disconnected = s := by
      simp [World.setConnectionState, hrenewing]
    rw [heq] at hnostart ⊢
    obtain ⟨hcurrent, hflag⟩ := hrenewed hrenewing
    exact ⟨hcalls, hgrace, hswitch, hconn, hrecovery, hrequested, .inr (.inr (.inr hrenewing)),
      fun _ => hcurrent, .inl hflag, fun htrue => (hnostart htrue).elim⟩
  · have hover : (s.setConnectionState .disconnected).state = .disconnected := by
      rw [hstate, if_neg fun h => hrenewing h.2]
    refine ⟨?_, ?_, ?_, ?_, ?_, ?_, .inr (.inl hover), ?_, .inr (.inr hover),
      fun htrue => (hnostart htrue).elim⟩
    · rw [World.setConnectionState_queue]
      exact hcalls
    · rw [World.setConnectionState_graceTimers, hgrace]
    · rw [World.setConnectionState_switchWatchdog, hswitch]
    · rw [World.setConnectionState_shutdownConn, hconn]
    · exact World.setConnectionState_disconnected hrecovery hasked
    · rw [World.setConnectionState_requested, hrequested]
    · intro h
      rw [hover] at h
      cases h

theorem closing_disconnected (h : Closing s) (hstart : s.protocolStartInProgress = false) :
    Closing (s.setConnectionState .disconnected) := by
  refine closing_of_disconnected h.calls h.graceTimers h.switchWatchdog h.shutdownConn
    h.recoveryTimer h.requested ?_ ?_ hstart
  · intro hstate
    refine ⟨h.renewed hstate, ?_⟩
    rcases h.asked with hasked | hother | hother
    · exact hasked
    · rw [hstate] at hother
      cases hother
    · rw [hstate] at hother
      cases hother
  · rcases h.asked with hasked | hstate | hstate
    · exact .inl hasked
    · exact .inr (by rw [hstate]; rfl)
    · exact .inr (by rw [hstate]; rfl)

theorem closing_error (h : Closing s) (hstart : s.protocolStartInProgress = false)
    (hasked : s.userRequestedDisconnect) : Closing (s.setConnectionState .error) := by
  have hfailed := World.setConnectionState_error hasked
  have hsame := s.setConnectionState_same .error
  refine ⟨?_, ?_, ?_, ?_, ?_, ?_, ?_, ?_, ?_, ?_⟩
  · rw [hsame.queue]
    exact h.calls
  · exact hsame.graceTimers.trans h.graceTimers
  · exact hsame.switchWatchdog.trans h.switchWatchdog
  · exact hsame.shutdownConn.trans h.shutdownConn
  · exact hfailed.recoveryTimer h.recoveryTimer
  · exact hsame.connectRequestedDuringStart.trans h.requested
  · exact .inr (.inr (.inl hfailed.state))
  · intro hstate
    rw [hfailed.state] at hstate
    cases hstate
  · exact .inl (hfailed.userRequestedDisconnect.trans hasked)
  · intro htrue
    rw [hsame.protocolStartInProgress, hstart] at htrue
    cases htrue

theorem closing_disconnectChecks (hcalls : ∀ call ∈ s.queue, Spent call)
    (hgrace : s.graceTimers = 0) : Closing (disconnectChecks s).2 := by
  unfold disconnectChecks
  dsimp only
  split
  · rename_i hstart
    exact ⟨hcalls, hgrace, rfl, rfl, rfl, rfl, .inl rfl, nofun, .inl rfl, fun _ => ⟨rfl, rfl⟩⟩
  · rename_i hstart
    split
    · rename_i hcurrent
      exact closing_of_disconnected hcalls hgrace rfl rfl rfl rfl (fun _ => ⟨hcurrent, rfl⟩)
        (.inl rfl) (Bool.eq_false_iff.mpr hstart)
    · exact ⟨hcalls, hgrace, rfl, rfl, rfl, rfl, .inl rfl, nofun, .inl rfl, fun _ => ⟨rfl, rfl⟩⟩

def Sheds (_ : Act Call) (s s' : Desktop) : Prop :=
  ∃ objects conn current,
    s' = { s with objects := objects, shutdownConn := conn, current := current } ∧
      (conn = s.shutdownConn ∨ conn = none) ∧ (current = s.current ∨ current = none)

theorem sheds_objects (s : Desktop) (objects : List Protocol) :
    Sheds l s { s with objects := objects } :=
  ⟨objects, s.shutdownConn, s.current, rfl, .inl rfl, .inl rfl⟩

theorem sheds_conn (s : Desktop) (i : ℕ) :
    Sheds l s { s with
      objects := objects
      shutdownConn := if s.shutdownConn = some i then none else s.shutdownConn } := by
  refine ⟨objects, _, s.current, rfl, ?_, .inl rfl⟩
  split
  · exact .inr rfl
  · exact .inl rfl

theorem closing_sheds {l} (h : Closing s) (hs : Sheds l s s') : Closing s' ∧ Winding s s' := by
  obtain ⟨objects, conn, current, rfl, hconn, hcurrent⟩ := hs
  have hnone : s.current = none → current = none := by
    intro hs
    rcases hcurrent with hsame | hnone
    · exact hsame.trans hs
    · exact hnone
  refine ⟨?_, hnone, rfl⟩
  refine { h with shutdownConn := ?_, renewed := fun hstate => hnone (h.renewed hstate) }
  rcases hconn with hsame | hnone
  · exact hsame.trans h.shutdownConn
  · exact hnone

variable (i : ℕ)

theorem does_stop_sheds : (anyProtocol.stop i).Does Sheds := by
  refine Prog.Does.bind (does_atom fun s => ?_) fun _ => Prog.does_atom fun s => ?_
  · exact sheds_objects s _
  · exact sheds_objects s _

theorem does_destroy_sheds : (destroy anyProtocol i).Does Sheds := by
  refine Prog.Does.bind (does_step fun s => sheds_objects s s.objects) fun stopped => ?_
  refine Prog.Does.bind ?_ fun _ => does_atom fun s => sheds_conn s i
  cases stopped with
  | true => exact Prog.does_pure ()
  | false => exact does_stop_sheds i

variable {β : Type}

theorem ends_of_sheds {I} (hI : ∀ s s', Winding s s' → I s → I s') {p : Client Bool Call β}
    (h : p.Does Sheds) (hs : I s) : Ends (fun _ => I) p s := by
  refine serves_of_does (fun l s s' hclosing hsheds hi => ?_) (fun _ s s' hrely => ?_) h hs
  · obtain ⟨hclosing', hwinding⟩ := closing_sheds hclosing hsheds
    exact ⟨⟨hclosing', hwinding⟩, hI s s' hwinding hi⟩
  · exact hI s s' hrely.2

def Over (s : Desktop) : Prop := s.protocolStartInProgress = false

def Gone (s : Desktop) : Prop := s.protocolStartInProgress = false ∧ s.current = none

theorem over_winding (s s' : Desktop) (h : Winding s s') (hs : Over s) : Over s' := h.2.trans hs

theorem gone_winding (s s' : Desktop) (h : Winding s s') (hs : Gone s) : Gone s' :=
  ⟨h.2.trans hs.1, h.1 hs.2⟩

theorem dropProtocol_ends (hs : Over s) : Ends (fun _ => Gone) (dropProtocol anyProtocol) s := by
  intro t ht hclosing
  have hgone : Gone { t with current := none } := ⟨ht.2.2.trans hs, rfl⟩
  have hsheds : Sheds (.drop none) t { t with current := none } :=
    ⟨t.objects, t.shutdownConn, none, rfl, .inl rfl, .inr rfl⟩
  refine ⟨closing_sheds hclosing hsheds, ?_⟩
  dsimp only
  cases t.current with
  | none => exact hgone
  | some i => exact ends_of_sheds gone_winding (does_destroy_sheds i) hgone

theorem stopping_ends (hs : Over s) :
    Ends (fun _ => Gone) (do
      detach i
      anyProtocol.stop i
      dropProtocol anyProtocol
      change fun s => s.setConnectionState .disconnected) s := by
  refine Serves.bind (Q := fun _ => Over) ?_ fun _ s hs => ?_
  · exact ends_of_sheds over_winding (Prog.does_atom fun s => sheds_conn s i) hs
  refine Serves.bind (ends_of_sheds over_winding (does_stop_sheds i) hs) fun _ s hs => ?_
  refine Serves.bind (dropProtocol_ends hs) fun _ s hs => ?_
  refine serves_atom fun t ht hclosing => ?_
  have hgone : Gone t := gone_winding _ _ ht.2 hs
  have hsame := t.setConnectionState_same .disconnected
  have hwinding := winding_of_eq hsame.current hsame.protocolStartInProgress
  exact ⟨⟨closing_disconnected hclosing hgone.1, hwinding⟩, gone_winding _ _ hwinding hgone⟩

theorem disconnectChecks_held {i} (h : (disconnectChecks s).1 = some i) :
    s.protocolStartInProgress = false := by
  unfold disconnectChecks at h
  dsimp only at h
  split at h
  · cases h
  · rename_i hstart
    exact Bool.eq_false_iff.mpr hstart

theorem disconnectChecks_none (h : (disconnectChecks s).1 = none)
    (hstart : s.protocolStartInProgress = false) : s.current = none := by
  unfold disconnectChecks at h
  dsimp only at h
  split at h
  · rename_i htrue
    exact absurd (hstart.symm.trans htrue) nofun
  · split at h
    · rename_i hcurrent
      exact hcurrent
    · cases h

theorem disconnectChecks_winding (s : Desktop) : Winding s (disconnectChecks s).2 :=
  winding_of_eq (disconnectChecks_calm s).2.2.1 (disconnectChecks_calm s).2.2.2

theorem disconnect_rest_ends (s : Desktop) :
    Ends (fun _ t => s.protocolStartInProgress = false → Gone t)
      (match (disconnectChecks s).1 with
      | none => pure ()
      | some i => do
        detach i
        anyProtocol.stop i
        dropProtocol anyProtocol
        change fun s => s.setConnectionState .disconnected) (disconnectChecks s).2 := by
  have hwinding := disconnectChecks_winding s
  cases hheld : (disconnectChecks s).1 with
  | none =>
    intro hstart
    exact ⟨hwinding.2.trans hstart, hwinding.1 (disconnectChecks_none hheld hstart)⟩
  | some i =>
    have hover : Over (disconnectChecks s).2 := hwinding.2.trans (disconnectChecks_held hheld)
    exact (stopping_ends i hover).mono (fun _ _ _ _ h => h) fun _ _ h _ => h

theorem disconnectFromVpn_ends :
    Ends (fun _ t => s.protocolStartInProgress = false → Gone t)
      (disconnectFromVpn anyProtocol) s := by
  intro t ht hclosing
  refine ⟨⟨closing_disconnectChecks hclosing.calls hclosing.graceTimers,
    disconnectChecks_winding t⟩, ?_⟩
  exact (disconnect_rest_ends t).mono (fun _ _ _ _ h => h) fun _ _ h hs => h (ht.2.2.trans hs)

theorem reconnectChecks_closing (h : Closing s) : reconnectChecks s = (none, s) := by
  unfold reconnectChecks World.currentObject
  rcases h.state with hstate | hstate | hstate | hstate
  · cases s.current.bind s.object? <;> simp [hstate]
  · cases s.current.bind s.object? <;> simp [hstate]
  · cases s.current.bind s.object? <;> simp [hstate]
  · simp [h.renewed hstate]

theorem reconnectToVpn_ends {Q} (hQ : ∀ s', Arrived s s' → Q s') :
    Ends (fun _ => Q) (reconnectToVpn anyProtocol) s := by
  intro t ht hclosing
  rw [reconnectChecks_closing hclosing]
  exact ⟨⟨hclosing, id, rfl⟩, hQ t (ht.1 rfl)⟩

/-- The object stays, and no call is lost. -/
def Steady (s t : Desktop) : Prop :=
  t.current = s.current ∧ t.protocolStartInProgress = s.protocolStartInProgress ∧
    ∀ call ∈ s.queue, call ∈ t.queue

theorem Steady.trans (h : Steady s t) (h' : Steady t u) : Steady s u :=
  ⟨h'.1.trans h.1, h'.2.1.trans h.2.1, fun call hcall => h'.2.2 call (h.2.2 call hcall)⟩

theorem steady_arrived (h : Arrived s t) : Steady s t := by
  obtain ⟨_, _, _, _, _, rfl⟩ := h
  exact ⟨rfl, rfl, fun _ hcall => mem_append_left _ hcall⟩

theorem steady_setConnectionState (s : Desktop) (st : ConnectionState) :
    Steady s (s.setConnectionState st) := by
  refine ⟨World.setConnectionState_current s st, World.setConnectionState_start s st, ?_⟩
  rw [World.setConnectionState_queue]
  exact fun _ hcall => hcall

theorem Steady.winding (h : Steady s t) : Winding s t :=
  winding_of_eq h.1 h.2.1

theorem Steady.resting (h : Steady s t) (hs : Resting s) : Resting t := by
  refine ⟨h.2.1.trans hs.1, ?_⟩
  rcases hs.2 with hnone | hposted
  · exact .inl (h.1.trans hnone)
  · exact .inr (h.2.2 _ hposted)

variable {queue : List Posted}

theorem closing_tail {call} (h : Closing s) (hqueue : s.queue = call :: queue) :
    Closing { s with queue := queue } := by
  refine { h with calls := fun other hother => h.calls other ?_ }
  rw [hqueue]
  exact mem_cons_of_mem _ hother

theorem resting_tail {call} (h : Resting s) (hqueue : s.queue = call :: queue)
    (hcall : call ≠ .disconnectFromVpn false) : Resting { s with queue := queue } := by
  refine ⟨h.1, ?_⟩
  rcases h.2 with hnone | hposted
  · exact .inl hnone
  · rw [hqueue] at hposted
    rcases mem_cons.mp hposted with heq | hrest
    · exact absurd heq.symm hcall
    · exact .inr hrest

theorem closing_mild {source st} (h : Closing s) (hmild : Mild s (.signal source st)) :
    Closing (s.setConnectionState st) := by
  cases st with
  | disconnecting =>
    exact { h with
      state := .inl rfl
      renewed := nofun
      asked := .inr (.inl rfl)
      starting := fun hstart => ⟨(h.starting hstart).1, rfl⟩ }
  | disconnected => exact closing_disconnected h ((Bool.not_eq_true' _).mp hmild)
  | _ => cases hmild

theorem posted_ends (hready : s.queue ≠ []) (hsilent : s.queue.head?.all (Mild s)) :
    Ends (fun _ t => Resting s → Resting t) (ConnectionEvent.handler anyProtocol .posted) s := by
  intro t ht hclosing
  obtain ⟨call, queue, hqueue⟩ := exists_cons_of_ne_nil hready
  have hst : Steady s t := steady_arrived (ht.1 rfl)
  have hmild : Mild t call := by
    rw [hqueue] at hsilent
    unfold Mild
    rw [hst.2.1]
    exact hsilent
  obtain ⟨rest, hhead⟩ : ∃ rest, t.queue = call :: rest := by
    obtain ⟨more, _, _, _, _, rfl⟩ := ht.1 rfl
    exact ⟨queue ++ more, by rw [hqueue, cons_append]⟩
  have hspent : Spent call := hclosing.calls call (by simp [hhead])
  have hclosing' := closing_tail hclosing hhead
  by_cases hsignal : ∃ source st, call = .signal source st
  · obtain ⟨source, st, rfl⟩ := hsignal
    rw [takePosted_signal hhead]
    rw [(World.onSignal_cases { t with queue := rest } st).resolve_right fun ⟨hconnected, _⟩ => by
      rw [hconnected] at hmild
      cases hmild]
    have hsteady := steady_setConnectionState { t with queue := rest } st
    refine ⟨⟨closing_mild hclosing' hmild, hsteady.winding⟩, fun hs => ?_⟩
    exact hsteady.resting (resting_tail (hst.resting hs) hhead nofun)
  · rw [takePosted_call hhead fun source st h => hsignal ⟨source, st, h⟩]
    refine ⟨⟨hclosing', id, rfl⟩, ?_⟩
    cases call with
    | disconnectFromVpn byUser =>
      refine disconnectFromVpn_ends.mono (fun _ _ _ _ h => h) fun _ u h hs => ?_
      obtain ⟨hstart, hcurrent⟩ := h (hst.resting hs).1
      exact ⟨hstart, .inl hcurrent⟩
    | reconnectToVpn =>
      refine reconnectToVpn_ends fun u hu hs => (steady_arrived hu).resting ?_
      exact resting_tail (hst.resting hs) hhead nofun
    | signal source st => exact absurd ⟨source, st, rfl⟩ hsignal
    | _ => cases hspent

theorem watchdogChecks_closing (h : Closing s) :
    Closing (watchdogChecks s).2 ∧ Steady s (watchdogChecks s).2 ∧
      ((watchdogChecks s).1 = none ∨ (watchdogChecks s).1 = some none ∧
        (watchdogChecks s).2.userRequestedDisconnect ∧
        (watchdogChecks s).2.protocolStartInProgress = false) := by
  unfold watchdogChecks
  split
  · exact ⟨{ h with }, ⟨rfl, rfl, fun _ hcall => hcall⟩, .inl rfl⟩
  · rename_i hstart
    have hstart := Bool.eq_false_iff.mpr hstart
    split
    · exact ⟨closing_disconnected h hstart, steady_setConnectionState s _, .inl rfl⟩
    split
    · -- only a renewal that was given up can still be underway
      rename_i hdisconnecting hunderway
      have hdisconnected : s.state ≠ .disconnected := by
        intro hstate
        rw [hstate] at hunderway
        cases hunderway
      have hrenewing : s.state = .reconnecting := by
        rcases h.state with hstate | hstate | hstate | hstate
        · exact absurd hstate hdisconnecting
        · exact absurd hstate hdisconnected
        · rw [hstate] at hunderway
          cases hunderway
        · exact hstate
      refine ⟨h, ⟨rfl, rfl, fun _ hcall => hcall⟩, .inr ⟨?_, ?_, hstart⟩⟩
      · rw [h.renewed hrenewing]
      · rcases h.asked with hasked | hstate | hstate
        · exact hasked
        · exact absurd hstate hdisconnecting
        · exact absurd hstate hdisconnected
    · exact ⟨h, ⟨rfl, rfl, fun _ hcall => hcall⟩, .inl rfl⟩

theorem watchdog_ends (s : Desktop) : Ends (fun _ t => Resting s → Resting t)
    (ConnectionEvent.handler anyProtocol .stateWatchdog) s := by
  intro t ht hclosing
  have hst : Steady s t := steady_arrived (ht.1 rfl)
  refine ⟨⟨{ hclosing with }, id, rfl⟩, ?_⟩
  intro u hu hclosing
  have htu : Steady { t with stateWatchdog := false } u := steady_arrived (hu.1 rfl)
  have hsu : Steady s u := hst.trans (show Steady t u from htu)
  obtain ⟨hnext, hsteady, hheld⟩ := watchdogChecks_closing hclosing
  refine ⟨⟨hnext, hsteady.winding⟩, ?_⟩
  rcases hheld with hnone | ⟨hnone, hasked, hstart⟩
  · rw [hnone]
    exact (hsu.trans hsteady).resting
  · rw [hnone]
    intro v hv hclosing
    obtain ⟨_, _, _, _, _, hv'⟩ := hv.1 rfl
    refine ⟨⟨closing_error hclosing ?_ ?_, (steady_setConnectionState v .error).winding⟩, ?_⟩
    · rw [hv']
      exact hstart
    · rw [hv']
      exact hasked
    · exact (((hsu.trans hsteady).trans (steady_arrived (hv.1 rfl))).trans
        (steady_setConnectionState v .error)).resting

theorem closing_signal (h : Closing s) (i : ℕ) (st : ConnectionState) :
    Closing { s with objects := objects, queue := s.queue ++ [.signal i st] } := by
  refine { h with calls := fun call hcall => ?_ }
  rcases mem_append.mp hcall with hcall | hcall
  · exact h.calls call hcall
  · rw [mem_singleton.mp hcall]
    rfl

/-- No connection waits for the shutdown of an object, so that an announcement only queues a
signal. -/
theorem emits_ends (st : ConnectionState) (s : Desktop) :
    Ends (fun _ t => Resting s → Resting t) (setProtocolState anyProtocol i st) s := by
  intro t ht hclosing
  have hst : Steady s t := steady_arrived (ht.1 rfl)
  have hconn : t.shutdownConn ≠ some i := by
    rw [hclosing.shutdownConn]
    exact nofun
  dsimp only
  split
  · exact ⟨⟨hclosing, id, rfl⟩, hst.resting⟩
  split
  · exact ⟨⟨hclosing, id, rfl⟩, hst.resting⟩
  rw [if_neg fun h => hconn h.1]
  split
  · refine ⟨⟨closing_signal hclosing i st, id, rfl⟩, ?_⟩
    have hnext : Steady t
        ((t.updateObject i fun p => { p with state := st }).post (.signal i st)) :=
      ⟨rfl, rfl, fun _ hcall => mem_append_left _ hcall⟩
    exact (hst.trans hnext).resting
  · refine ⟨⟨{ hclosing with }, id, rfl⟩, ?_⟩
    show Resting s → Resting (t.updateObject i fun p => { p with state := st })
    exact (hst.trans ⟨rfl, rfl, fun _ hcall => hcall⟩).resting

theorem handler_ends {e : ClientEvent} {stack : List DesktopProg} (h : Closing s)
    (hready : desktop.ready e s) (hsilent : Silent (.dispatch e) ⟨stack, s⟩) :
    Ends (fun _ t => Resting s → Resting t) (desktop.handler e) s := by
  cases e with
  | emits i st => exact emits_ends i st s
  | stops i =>
    by_cases hgone : Gone s
    · refine (ends_of_sheds gone_winding (does_stop_sheds i) hgone).mono (fun _ _ _ _ h => h) ?_
      exact fun _ t ht _ => ⟨ht.1, .inl ht.2⟩
    · refine (ends_of_sheds (I := fun _ => True) (fun _ _ _ => id) (does_stop_sheds i) trivial).mono
        (fun _ _ _ _ h => h) fun _ _ _ hs => ?_
      exact absurd ⟨hs.1, hs.2.resolve_right hsilent⟩ hgone
  | connection e =>
    cases e with
    | posted =>
      refine posted_ends ?_ hsilent
      rintro hnil
      simp [desktop, ConnectionEvent.ready, hnil] at hready
    | stateWatchdog => exact watchdog_ends s
    | recovery => simp [desktop, ConnectionEvent.ready, h.recoveryTimer] at hready
    | switchWatchdog => simp [desktop, ConnectionEvent.ready, h.switchWatchdog] at hready
    | grace => simp [desktop, ConnectionEvent.ready, h.graceTimers] at hready

variable {c : DesktopLoop} {a : Arrival Bool}

theorem arrived_silent (_ : Silent (.arrive a) c) : Arrived c.state (desktop.arrive a c.state) :=
  arrived_apply (fun b _ => b) c.state a

theorem closing_arrive (ha : Silent (.arrive a) c) (h : Closing c.state) :
    Closing (desktop.arrive a c.state) := by
  cases a with
  | connect request => exact ha.elim
  | disconnect => exact ha.elim
  | networkChanged =>
    refine { h with calls := fun call hcall => ?_ }
    rcases mem_append.mp hcall with hcall | hcall
    · exact h.calls call hcall
    · rw [mem_singleton.mp hcall]
      rfl
  | time clock epoch => exact { h with }
  | profiles n => exact { h with }
  | outside b => exact { h with }

/-- The handlers that run after the last disconnect. The one that was underway by then ends a
start, which the others do not. -/
def closing : Layers desktop Silent where
  inv := Closing
  rest := Resting
  rely := Rely
  perm _ := Closing
  outer _ _ s' := Closing s'
  inner s _ s' := Closing s' ∧ Winding s s'
  rely_refl _ s := ⟨fun _ => .refl s, id, rfl⟩
  rely_trans := rely_trans
  rely_wait h := ⟨fun _ => h.1 rfl, h.2⟩
  inner_rely _ h := ⟨nofun, h.2⟩
  outer_inv _ h := h
  inner_inv _ h := h.1
  permitted h _ := h
  arrive_inv := closing_arrive
  arrive_rely ha := ⟨fun _ => arrived_silent ha, winding_arrived (arrived_silent ha)⟩
  arrive_rest ha h := (steady_arrived (arrived_silent ha)).resting h
  dispatch_outer h hrest hready ha :=
    (handler_ends h hready ha).mono (fun _ _ _ _ hstep => hstep.1) fun _ _ hend => hend hrest
  dispatch_inner h hready ha :=
    (handler_ends h hready ha).mono (fun _ _ _ _ hstep => hstep) fun _ _ _ => trivial

abbrev isStarted (l : Act Call) : Prop := l = .started

def EndsStart (p : DesktopProg) : Prop :=
  ∀ s, s.protocolStartInProgress = true →
    Serves desktop.waits Rely (fun _ => Closing) (fun _ _ s' => Closing s') (fun _ => Resting) p s

theorem started_endsStart (failed : Bool) :
    EndsStart (.atom .started fun s => ((), afterStart failed s)) := by
  intro s hstart t ht hclosing
  have hasked := hclosing.starting (ht.2.2.trans hstart)
  have hafter : afterStart failed t =
      { t with protocolStartInProgress := false }.post (.disconnectFromVpn false) := by
    exact if_pos hasked.1
  show Closing (afterStart failed t) ∧ Resting (afterStart failed t)
  rw [hafter]
  refine ⟨?_, rfl, .inr (mem_append_right _ mem_cons_self)⟩
  refine { hclosing with calls := fun call hcall => ?_, starting := nofun }
  rcases mem_append.mp hcall with hcall | hcall
  · exact hclosing.calls call hcall
  · rw [mem_singleton.mp hcall]
    rfl

theorem endsStart_act {γ : Type} {l : Act Call} {f : Desktop → γ × Desktop} {next : γ → DesktopProg}
    (hf : ∀ s, Sheds l s (f s).2) (h : ∀ b, EndsStart (next b)) : EndsStart (.act l f next) := by
  intro s hstart t ht hclosing
  obtain ⟨hclosing', hwinding⟩ := closing_sheds hclosing (hf t)
  exact ⟨hclosing', h _ _ (hwinding.2.trans (ht.2.2.trans hstart))⟩

abbrev Apart {β : Type} (p : Client Bool Call β) : Prop := p.Only fun l => ¬isStarted l

theorem step_apart : Apart (step f) :=
  Prog.only_atom nofun

instance : Inhabited Desktop := ⟨started⟩

theorem apart_of_calm {p : Client Bool Call β} (h : p.Does Calm) : Apart p := by
  induction h with
  | done b => exact .done b
  | act hcalm _ ih => exact .act ((hcalm default).1 .start) ih

theorem replaceProtocol_apart (new : Option ℕ) : Apart (replaceProtocol anyProtocol new) := by
  refine Prog.Only.bind (only_atom nofun) fun old => ?_
  cases old with
  | none => exact only_pure ()
  | some i =>
    refine Prog.Only.bind (step_apart) fun stopped => ?_
    refine Prog.Only.bind ?_ fun _ => only_atom nofun
    cases stopped with
    | true => exact Prog.only_pure ()
    | false => exact apart_of_calm (does_stop_calm i)

abbrev Frees (p : DesktopProg) : Prop := Free isStarted EndsStart p

variable {p : DesktopProg}

theorem frees_apart (h : Apart p) : Frees p := by
  induction h with
  | done b => exact free_pure b
  | @act _ l f next hl _ ih => exact free_act hl (ih (f default).1).1 fun b => (ih b).2

theorem frees_step {f : Desktop → β × Desktop} {k : β → DesktopProg} {b : β} (hb : Frees (k b))
    (h : ∀ b, Throughout (fun q => Escapes isStarted q ∨ EndsStart q) (k b)) :
    Frees (step f >>= k) := free_act nofun hb.1 h

theorem start_throughout :
    Throughout (fun q => Escapes isStarted q ∨ EndsStart q)
      (anyProtocol.start i >>= fun failed =>
        .atom .started fun s => ((), afterStart failed s)) := by
  have hended (failed : Bool) := started_endsStart failed
  have hleft : EndsStart (.atom (.inner (.leaveStart i)) (fun s => (s.rest, s)) >>= fun failed =>
      .atom .started fun s => ((), afterStart failed s)) :=
    endsStart_act (fun s => sheds_objects s s.objects) hended
  refine .act (.inr (endsStart_act (fun s => sheds_objects s _) fun _ => hleft)) fun _ => ?_
  refine .act (.inr hleft) fun failed => .act (.inr (hended failed)) fun _ => ?_
  exact .done (.inl (.done _))

variable (request : ConnectRequest)

theorem startNewConnection_frees : Frees (startNewConnection anyProtocol request) := by
  refine frees_step (b := false) (free_pure ()) fun allowed => ?_
  cases allowed with
  | false => exact (free_pure ()).2
  | true =>
    refine (free_bind (step_apart) fun made => ?_).2
    refine free_bind (replaceProtocol_apart made) fun _ => ?_
    refine frees_step (b := none) (free_pure ()) fun held => ?_
    cases held with
    | none => exact (free_pure ()).2
    | some i => exact start_throughout i

theorem setProtocolState_frees :
    Frees (setProtocolState anyProtocol i st) := by
  refine free_bind (Prog.only_atom nofun) fun ended => ?_
  cases ended with
  | true => exact frees_apart (Prog.Only.bind (replaceProtocol_apart none) fun _ => step_apart)
  | false => exact free_pure ()

theorem handler_frees (e : ClientEvent) : Frees (desktop.handler e) := by
  have h : Composes Apart Frees := ⟨free_bind, frees_apart, apart_of_calm,
    replaceProtocol_apart none, startNewConnection_frees, setProtocolState_frees⟩
  exact h.handler e

/-- What is left to be called starts no connection. -/
def Idle (b : Bool) (s : Desktop) : Prop :=
  (∀ call ∈ s.queue, Spent call = true) ∧ s.graceTimers = 0 ∧ s.protocolStartInProgress = b

def Asked (b : Bool) (s : Desktop) : Prop :=
  ∃ queue, s.queue = .disconnectFromVpn true :: queue ∧ Idle b { s with queue := queue }

theorem spent_arrive (ha : Silent (.arrive a) c) :
    ∃ more, (∀ call ∈ more, Spent call) ∧
      (desktop.arrive a c.state).queue = c.state.queue ++ more := by
  cases a with
  | connect request => exact ha.elim
  | disconnect => exact ha.elim
  | networkChanged => exact ⟨[.reconnectToVpn], by simp [Spent], rfl⟩
  | time clock epoch => exact ⟨[], nofun, (append_nil _).symm⟩
  | profiles n => exact ⟨[], nofun, (append_nil _).symm⟩
  | outside b => exact ⟨[], nofun, (append_nil _).symm⟩

theorem spent_append {more} (h : ∀ call ∈ queue, Spent call)
    (hmore : ∀ call ∈ more, Spent call) : ∀ call ∈ queue ++ more, Spent call := by
  intro call hcall
  rcases mem_append.mp hcall with hcall | hcall
  · exact h call hcall
  · exact hmore call hcall

theorem idle_arrive (ha : Silent (.arrive a) c) (h : Idle b c.state) :
    Idle b (desktop.arrive a c.state) := by
  obtain ⟨more, hmore, hqueue⟩ := spent_arrive ha
  obtain ⟨hcalls, hgrace, hstart⟩ := h
  refine ⟨?_, ?_, ?_⟩
  · rw [hqueue]
    exact spent_append hcalls hmore
  · cases a <;> exact hgrace
  · cases a <;> exact hstart

theorem asked_arrive (ha : Silent (.arrive a) c) (h : Asked b c.state) :
    Asked b (desktop.arrive a c.state) := by
  obtain ⟨more, hmore, hqueue'⟩ := spent_arrive ha
  obtain ⟨queue, hqueue, hcalls, hgrace, hstart⟩ := h
  refine ⟨queue ++ more, ?_, spent_append hcalls hmore, ?_, ?_⟩
  · rw [hqueue', hqueue, cons_append]
  · cases a <;> exact hgrace
  · cases a <;> exact hstart

theorem disconnect_handled {below : List DesktopProg} {c' : DesktopLoop} (hs : Asked b s)
    (hdone : c'.stack = [])
    (h : desktop.Run Silent ⟨desktop.handler (.connection .posted) :: below, s⟩ c') :
    ∃ t p, Closing t ∧ t.protocolStartInProgress = b ∧
      Ends (fun _ u => b = false → Gone u) p t ∧ desktop.Run Silent ⟨p :: below, t⟩ c' := by
  rcases run_act (fun ha => asked_arrive ha) rfl hs h with hstack | ⟨t, ht, h⟩
  · rw [hdone] at hstack
    cases hstack
  obtain ⟨queue, hqueue, hidle⟩ := ht
  rw [takePosted_call hqueue nofun] at h
  rcases run_act (fun ha => idle_arrive ha) rfl hidle h with hstack | ⟨u, hu, h⟩
  · rw [hdone] at hstack
    cases hstack
  obtain ⟨hcalls, hgrace, hstart⟩ := hu
  refine ⟨_, _, closing_disconnectChecks hcalls hgrace, ?_, ?_, h⟩
  · exact (disconnectChecks_winding u).2.trans hstart
  · exact (disconnect_rest_ends u).mono (fun _ _ _ _ hstep => hstep) fun _ _ hgone hb =>
      hgone (hstart.trans hb)

theorem endsStart_of_start (h : Covered owed pays c)
    (hp : ∀ q ∈ c.stack, Throughout (fun q => Escapes isStarted q ∨ EndsStart q) q)
    (hstack : c.stack = [p]) (hstart : c.state.protocolStartInProgress) : EndsStart p := by
  obtain ⟨q, hq, hsure⟩ := h.2 .start hstart
  rw [hstack] at hq hp
  obtain rfl := mem_singleton.mp hq
  rcases (hp q mem_cons_self).head with hescapes | hends
  · exact absurd hsure hescapes.not_surely
  · exact hends

/-- After a disconnect that finds at most one start underway and nothing left to start another
connection, no protocol runs once nothing is pending, unless a state signal is handled. -/
theorem disconnect_is_final {fails : Bool} {clock epoch safeModeUntil : ℤ} {n : ℕ}
    {c c' : DesktopLoop} {queue : List Posted}
    (hrun : desktop.Run (fun _ _ => True) ⟨[], .start fails clock epoch safeModeUntil n⟩ c)
    (hstack : c.stack = [] ∨ c.stack.length = 1 ∧ c.state.protocolStartInProgress = true)
    (hqueue : c.state.queue = .disconnectFromVpn true :: queue)
    (hcalls : ∀ call ∈ queue, Spent call = true) (hgrace : c.state.graceTimers = 0)
    {c₁ : DesktopLoop} (hmove : desktop.move (.dispatch (.connection .posted)) c = some c₁)
    (hrest : desktop.Run Silent c₁ c') (hdone : c'.stack = []) (hquiet : c'.state.Quiet) :
    ∀ p ∈ c'.state.objects, p.active = false := by
  have hcovered : Covered owed pays c := covered_from_start hrun
  have hfrees := throughout_run (fun e => (handler_frees e).2) (fun _ hp => by cases hp) hrun
  have hturn : desktop.Run (fun _ _ => True) c c₁ := .single ⟨_, trivial, hmove⟩
  have hcovered' := covered_run handler_accounted arrive_owed
    (covered_run handler_accounted arrive_owed hcovered hturn) hrest
  obtain ⟨hopen, -, rfl⟩ := desktop.move_dispatch hmove
  obtain ⟨t, p, hclosing, hstart, hends, hrest⟩ :=
    disconnect_handled ⟨queue, hqueue, hcalls, hgrace, rfl⟩ hdone hrest
  have hholds : closing.Holds ⟨p :: c.stack, t⟩ := by
    refine ⟨hclosing, ?_⟩
    rcases hstack with hnil | ⟨hone, hstarting⟩
    · have hover := start_over hcovered hnil
      rw [hnil]
      refine hends.mono (fun _ _ _ _ hstep => hstep.1) fun _ u hgone => ?_
      exact ⟨(hgone hover).1, .inl (hgone hover).2⟩
    · obtain ⟨q, hq⟩ := length_eq_one_iff.mp hone
      have hstart' := endsStart_of_start hcovered hfrees hq hstarting
      rw [hq] at hopen ⊢
      refine ⟨hends.mono (fun _ _ _ _ hstep => hstep) fun _ _ _ => trivial, hopen, ?_⟩
      exact hstart' t (hstart.trans hstarting)
  have hend := closing.holds_run hholds hrest
  have hresting : Resting c'.state := by
    have hstacked := hend.2
    rw [hdone] at hstacked
    exact hstacked
  intro q hq
  have hheld := object_held hcovered' hdone hq
  rcases hresting.2 with hnone | hposted
  · rw [hnone] at hheld
    cases hheld
  · rw [hquiet.1] at hposted
    cases hposted

/-- The user connects and, while `start()` is underway, asks to disconnect. -/
def disconnects : List DesktopMove :=
  .arrive (.connect someRequest) :: begin (.connection .posted) 8 ++ [.arrive .disconnect]

def disconnectsLater : List DesktopMove :=
  conclude 2 ++ conclude 2 ++ handle (.connection .posted) 11

theorem disconnect_during_start_is_final :
    (desktop.after disconnects ⟨[], started⟩).state.protocolStartInProgress = true ∧
    ∀ p ∈ (desktop.after disconnectsLater (desktop.after (disconnects ++
      [.dispatch (.connection .posted)]) ⟨[], started⟩)).state.objects, p.active = false := by
  refine ⟨by decide +kernel, ?_⟩
  have hqueue : (desktop.after disconnects ⟨[], started⟩).state.queue =
      [.disconnectFromVpn true] := by decide +kernel
  exact disconnect_is_final (desktop.run_after disconnects _ (by decide +kernel))
    (.inr ⟨by decide +kernel, by decide +kernel⟩) hqueue nofun (by decide +kernel) rfl
    (desktop.run_after disconnectsLater _ (by decide +kernel)) (by decide +kernel)
    ⟨by decide +kernel, by decide +kernel, by decide +kernel, by decide +kernel, by decide +kernel⟩

/-- The protocol fails while the disconnect is pending. Its signal is handled after the
disconnect, when nothing tells any more that the user has asked for it. -/
def failsBefore : List DesktopMove :=
  connects ++ .arrive .disconnect :: handle (.emits 0 .error) 1 ++
    handle (.connection .posted) 11 ++
    handle (.connection .posted) 1 ++ handle (.connection .recovery) 5 ++
    handle (.connection .grace) 10 ++ handle (.emits 1 .connected) 1 ++
    handle (.connection .posted) 1

theorem error_after_disconnect_connects_again :
    desktop.Run (fun _ _ => True) ⟨[], started⟩ (desktop.after failsBefore ⟨[], started⟩) ∧
    (desktop.after failsBefore ⟨[], started⟩).stack.length = 0 ∧
    (desktop.after failsBefore ⟨[], started⟩).state.Quiet ∧
    ∃ p ∈ (desktop.after failsBefore ⟨[], started⟩).state.objects, p.active = true :=
  ⟨desktop.run_after _ _ (by decide +kernel), by decide +kernel,
    ⟨by decide +kernel, by decide +kernel, by decide +kernel, by decide +kernel,
      by decide +kernel⟩, by decide +kernel⟩

end DisconnectFinality

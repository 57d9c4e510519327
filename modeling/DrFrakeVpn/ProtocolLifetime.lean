import DrFrakeVpn.ConnectionDebts

/-! # No protocol object dies while it is in use

`m_vpnProtocol` holds the only reference to a protocol object, so the object dies where the
member is reset. -/
namespace ProtocolLifetime

open SharedPrograms EventLoops DesktopConnection ConnectionRuns List Prog
open ConnectionDebts (Composes)

/-- The objects with a `start()` or `stop()` that has not returned. -/
def inUse (stack : List DesktopProg) : List ℕ :=
  stack.filterMap fun p => p.label?.bind returnOf

/-- The next action resets the member, while a call on the object that it holds is underway. -/
def diesInUse (c : DesktopLoop) : Bool :=
  match c.stack with
  | [] => false
  | p :: below =>
    match p.label?, c.state.current with
    | some (.drop _), some i => i ∈ inUse below
    | _, _ => false

/-- What may be handled while a `start()` or `stop()` is underway: state signals, protocols that
stop themselves, while `m_protocolStartInProgress` is set also every other call and timer but a
posted `startNewConnection` and the switch watchdog, and no end of a protocol that is waited
for. -/
def Bearable (s : Desktop) : ClientEvent → Bool
  | .emits i st => !(s.shutdownConn = some i && st.Terminal)
  | .stops _ => true
  | .connection .posted =>
    match s.queue with
    | .signal _ _ :: _ => true
    | .startNewConnection :: _ => false
    | _ => s.protocolStartInProgress
  | .connection .switchWatchdog => false
  | .connection _ => s.protocolStartInProgress

def Orderly (m : DesktopMove) (c : DesktopLoop) : Prop :=
  match m with
  | .dispatch e => c.stack.isEmpty = true ∨ Bearable c.state e = true
  | _ => True

instance : ∀ (m : DesktopMove) (c : DesktopLoop), Decidable (Orderly m c)
  | .dispatch _, _ => inferInstanceAs (Decidable (_ ∨ _))
  | .work, _ => .isTrue trivial
  | .finish, _ => .isTrue trivial
  | .arrive _, _ => .isTrue trivial

/-- While a start is in progress there is an object. -/
def Held (s : Desktop) : Prop := s.protocolStartInProgress = true → s.current.isSome = true

def Rely (waiting : Bool) (s s' : Desktop) : Prop :=
  s'.protocolStartInProgress = s.protocolStartInProgress ∧
    (s'.shutdownConn = s.shutdownConn ∨ s'.shutdownConn = none) ∧
    (waiting = false → ∃ more, s'.queue = s.queue ++ more)

def Harmless (l : Act Call) (s s' : Desktop) : Prop :=
  (∀ new, l ≠ .drop new) ∧ s'.protocolStartInProgress = s.protocolStartInProgress ∧
    s'.current = s.current ∧ (s'.shutdownConn = s.shutdownConn ∨ s'.shutdownConn = none)

abbrev Inside (p : DesktopProg) (s : Desktop) : Prop :=
  Serves desktop.waits Rely (fun _ => Held) (fun s l s' => Harmless l s s') (fun _ _ => True) p s

abbrev Outside {β : Type} (Q : β → Desktop → Prop) (p : Client Bool Call β) (s : Desktop) : Prop :=
  Serves desktop.waits Rely (fun _ => Held) (fun _ _ s' => Held s') Q p s

def Idle (s : Desktop) : Prop := s.protocolStartInProgress = false

variable {s : Desktop}

theorem idle_rely {b s'} (h : Rely b s s') (hs : Idle s) : Idle s' :=
  h.1.trans hs

theorem held_of_idle (h : Idle s) : Held s := by
  intro hstart
  rw [Idle, hstart] at h
  cases h

theorem harmless_step {s' : Desktop} (h : World.SameElsewhere s s') : Harmless .handle s s' :=
  ⟨nofun, h.protocolStartInProgress, h.current, .inl h.shutdownConn⟩

theorem inside_of_does {p} (h : p.Does Harmless) (s : Desktop) : Inside p s :=
  serves_of_does (fun _ _ _ _ h _ => ⟨h, trivial⟩) (fun _ _ _ _ _ => trivial) h trivial

variable (i : ℕ)

theorem does_stop_harmless : (anyProtocol.stop i).Does Harmless := by
  refine Prog.Does.bind (does_atom fun s => ?_) fun _ => Prog.does_atom fun s => ?_
  · exact ⟨nofun, rfl, rfl, .inl rfl⟩
  · exact ⟨nofun, rfl, rfl, .inl rfl⟩

theorem does_start_harmless : (anyProtocol.start i).Does Harmless := by
  refine Prog.Does.bind (does_atom fun s => ?_) fun _ => Prog.does_atom fun s => ?_
  · exact ⟨nofun, rfl, rfl, .inl rfl⟩
  · exact ⟨nofun, rfl, rfl, .inl rfl⟩

theorem does_reconnect_harmless : (reconnectToVpn anyProtocol).Does Harmless := by
  refine Prog.Does.bind (does_step fun s => harmless_step (reconnectChecks_same s)) fun held => ?_
  cases held with
  | none => exact does_pure ()
  | some i =>
    refine Prog.Does.bind (does_stop_harmless i) fun _ => ?_
    refine Prog.Does.bind (does_step fun s => ?_) fun again => ?_
    · dsimp only
      split
      · exact ⟨nofun, rfl, rfl, .inl rfl⟩
      · exact harmless_step (.refl s)
    · cases again with
      | none => exact Prog.does_pure ()
      | some j =>
        refine Prog.Does.bind (does_start_harmless j) fun failed => does_change fun s => ?_
        cases failed with
        | true => exact harmless_step (s.setConnectionState_same .error)
        | false => exact harmless_step (.refl s)

section starting

variable (request : ConnectRequest) (h : s.protocolStartInProgress)
include h

theorem connectChecks_queued :
    (connectChecks request s).1 = .queued ∧ Harmless .handle s (connectChecks request s).2 := by
  unfold connectChecks
  cases hscheduled : s.reconnectScheduled with
  | true => simp [Harmless, h]
  | false => simp [Harmless, World.clearRecoveryState, h]

theorem connectToVpn_inside {request} : Inside (connectToVpn anyProtocol request) s := by
  intro t ht _
  obtain ⟨hnext, hstep⟩ := connectChecks_queued request (ht.1.trans h)
  refine ⟨hstep, ?_⟩
  rw [hnext]
  trivial

theorem withLast_connect_inside : Inside (withLast (connectToVpn anyProtocol)) s := by
  intro t ht _
  refine ⟨harmless_step (.refl t), ?_⟩
  dsimp only
  cases t.last with
  | none => trivial
  | some request => exact connectToVpn_inside (ht.1.trans h)

theorem disconnectChecks_starting :
    (disconnectChecks s).1 = none ∧ Harmless .handle s (disconnectChecks s).2 := by
  simp [disconnectChecks, World.clearRecoveryState, h, Harmless]

theorem disconnectFromVpn_inside : Inside (disconnectFromVpn anyProtocol) s := by
  intro t ht _
  obtain ⟨hheld, hstep⟩ := disconnectChecks_starting (ht.1.trans h)
  refine ⟨hstep, ?_⟩
  rw [hheld]
  trivial

theorem handlePosted_inside {call} (hcall : call ≠ .startNewConnection) :
    Inside (handlePosted anyProtocol call) s := by
  cases call with
  | connectToVpn request => exact connectToVpn_inside h
  | disconnectFromVpn _ => exact disconnectFromVpn_inside h
  | reconnectToVpn => exact inside_of_does does_reconnect_harmless s
  | startNewConnection => exact absurd rfl hcall
  | connectAgain => exact withLast_connect_inside h
  | signal _ _ => trivial

theorem watchdogChecks_starting :
    watchdogChecks s = (none, { s with stateWatchdog := true }) := by
  simp [watchdogChecks, h]

theorem stateWatchdog_inside : Inside (ConnectionEvent.handler anyProtocol .stateWatchdog) s := by
  intro t ht _
  refine ⟨⟨nofun, rfl, rfl, .inl rfl⟩, ?_⟩
  intro u hu _
  rw [watchdogChecks_starting (hu.1.trans (ht.1.trans h))]
  exact ⟨⟨nofun, rfl, rfl, .inl rfl⟩, trivial⟩

theorem recovery_inside : Inside (ConnectionEvent.handler anyProtocol .recovery) s := by
  intro t ht _
  refine ⟨⟨nofun, rfl, rfl, .inl rfl⟩, ?_⟩
  intro u hu _
  have hu := hu.1.trans (ht.1.trans h)
  dsimp only
  split
  · exact ⟨harmless_step (.refl u), trivial⟩
  · exact ⟨⟨nofun, rfl, rfl, .inl rfl⟩, withLast_connect_inside hu⟩

theorem grace_inside : Inside (ConnectionEvent.handler anyProtocol .grace) s := by
  intro t ht _
  refine ⟨⟨nofun, rfl, rfl, .inl rfl⟩, ?_⟩
  intro u hu hheld
  have hcurrent : u.current.isSome := hheld (hu.1.trans (ht.1.trans h))
  have hgo : (!u.userRequestedDisconnect && u.current.isNone) = false := by
    cases hc : u.current with
    | none => simp [hc] at hcurrent
    | some i => simp
  dsimp only
  rw [hgo]
  exact ⟨harmless_step (.refl u), trivial⟩

end starting

theorem posted_inside (hready : s.queue ≠ []) (h : Bearable s (.connection .posted)) :
    Inside (ConnectionEvent.handler anyProtocol .posted) s := by
  intro t ht _
  obtain ⟨hstart, -, hkept⟩ := ht
  obtain ⟨more, hmore⟩ := hkept rfl
  obtain ⟨call, queue, hqueue⟩ := exists_cons_of_ne_nil hready
  have ht : t.queue = call :: (queue ++ more) := by rw [hmore, hqueue, cons_append]
  simp only [Bearable, hqueue] at h
  by_cases hsignal : ∃ source st, call = .signal source st
  · obtain ⟨source, st, rfl⟩ := hsignal
    rw [takePosted_signal ht]
    refine ⟨?_, trivial⟩
    rcases World.onSignal_cases { t with queue := queue ++ more } st with heq | ⟨-, -, heq⟩ <;>
      rw [heq] <;> simp [Harmless]
  · have hcall : ∀ source st, call ≠ .signal source st := fun i st hi => hsignal ⟨i, st, hi⟩
    have hrest : s.protocolStartInProgress ∧ call ≠ .startNewConnection := by
      cases call with
      | startNewConnection => cases h
      | signal source st => exact absurd rfl (hcall source st)
      | _ => exact ⟨h, nofun⟩
    rw [takePosted_call ht hcall]
    refine ⟨⟨nofun, rfl, rfl, .inl rfl⟩, handlePosted_inside ?_ hrest.2⟩
    exact hstart.trans hrest.1

theorem emits_inside {i st} (h : Bearable s (.emits i st)) :
    Inside (setProtocolState anyProtocol i st) s := by
  have h : ¬(s.shutdownConn = some i ∧ st.Terminal) := by
    rintro ⟨hi, hst⟩
    simp [Bearable, hi, hst] at h
  intro t ht _
  have hwaited : ¬(t.shutdownConn = some i ∧ st.Terminal) := by
    rintro ⟨hi, hst⟩
    rcases ht.2.1 with hsame | hnone
    · exact h ⟨hsame.symm.trans hi, hst⟩
    · rw [hnone] at hi
      cases hi
  dsimp only
  cases hobject : t.object? i with
  | none => exact ⟨⟨nofun, rfl, rfl, .inl rfl⟩, trivial⟩
  | some p =>
    dsimp only
    split
    · exact ⟨⟨nofun, rfl, rfl, .inl rfl⟩, trivial⟩
    · cases p.attached with
      | true => exact ⟨⟨nofun, rfl, rfl, .inl rfl⟩, trivial⟩
      | false => exact ⟨⟨nofun, rfl, rfl, .inl rfl⟩, trivial⟩

theorem inside_of_bearable {e} (hready : desktop.ready e s) (h : Bearable s e) :
    Inside (desktop.handler e) s := by
  cases e with
  | emits i st => exact emits_inside h
  | stops i => exact inside_of_does (does_stop_harmless i) s
  | connection e =>
    cases e with
    | posted =>
      refine posted_inside ?_ h
      intro hnil
      simp [desktop, ConnectionEvent.ready, hnil] at hready
    | stateWatchdog => exact stateWatchdog_inside h
    | recovery => exact recovery_inside h
    | switchWatchdog => cases h
    | grace => exact grace_inside h

def KeepsStart (_ : Act Call) (s s' : Desktop) : Prop :=
  s'.protocolStartInProgress = s.protocolStartInProgress

theorem outside_of_does {β : Type} {p : Client Bool Call β} (h : p.Does KeepsStart) (hs : Idle s) :
    Outside (fun _ => Idle) p s :=
  serves_of_does (fun _ _ _ _ hkeeps hidle => ⟨held_of_idle (hkeeps.trans hidle),
    hkeeps.trans hidle⟩) (fun _ _ _ hrely => idle_rely hrely) h hs

theorem outside_step {α : Type} {f : Desktop → α × Desktop} {k : α → DesktopProg}
    (hf : ∀ s, KeepsStart .handle s (f s).2)
    (hk : ∀ a {s : Desktop}, Idle s → Outside (fun _ => Idle) (k a) s) (hs : Idle s) :
    Outside (fun _ => Idle) (step f >>= k) s :=
  Serves.bind (outside_of_does (does_step hf) hs) fun a _ => hk a

theorem does_stop : (anyProtocol.stop i).Does KeepsStart :=
  (does_stop_harmless i).mono fun _ _ _ h => h.2.1

theorem does_replace (new : Option ℕ) : (replaceProtocol anyProtocol new).Does KeepsStart :=
  does_replaceProtocol does_stop (fun _ => rfl) (fun _ _ => rfl) new fun _ => rfl

theorem afterStart_idle (failed : Bool) (s : Desktop) : Idle (afterStart failed s) :=
  (afterStart_same failed s).2.2

theorem startNewConnection_outside {s} (hs : Idle s) :
    Outside (fun _ => Idle) (startNewConnection anyProtocol request) s := by
  refine outside_step (fun s => ?_) (fun allowed s hs => ?_) hs
  · unfold startChecks KeepsStart
    dsimp only
    split <;> split <;> simp
  cases allowed with
  | false => exact hs
  | true =>
    refine outside_step (fun s => ?_) (fun made s hs => ?_) hs
    · unfold factory KeepsStart
      split <;> rfl
    refine Serves.bind (outside_of_does (does_replace made) hs) fun _ s hs => ?_
    -- from here on the start is in progress, until the last action of the handler
    refine Serves.bind (Q := fun held s => held = none → Idle s) ?_ fun held s hs => ?_
    · refine serves_atom fun t ht _ => ?_
      have ht : Idle t := idle_rely ht hs
      unfold createProtocolConnections
      cases hcurrent : t.current with
      | none =>
        have hidle := (t.setConnectionState_start .error).trans ht
        exact ⟨held_of_idle hidle, fun _ => hidle⟩
      | some i => exact ⟨fun _ => congrArg Option.isSome hcurrent, nofun⟩
    cases held with
    | none => exact hs rfl
    | some i =>
      refine Serves.bind (Q := fun _ _ => True) ?_ fun failed u _ => ?_
      · refine serves_of_does (fun _ s s' hheld h _ => ⟨?_, trivial⟩) (fun _ _ _ _ _ => trivial)
          (does_start_harmless i) trivial
        intro hstart
        rw [h.2.2.1]
        exact hheld (h.2.1.symm.trans hstart)
      · intro v _ _
        exact ⟨held_of_idle (afterStart_idle failed v), afterStart_idle failed v⟩

theorem does_setProtocolState (st : ConnectionState) :
    (setProtocolState anyProtocol i st).Does KeepsStart := by
  refine Prog.Does.bind (does_atom fun s => ?_) fun ended => ?_
  · unfold KeepsStart
    split
    · rfl
    · split
      · rfl
      · split <;> split <;> rfl
  cases ended with
  | true => exact Prog.Does.bind (does_replace none) fun _ => does_change fun _ => rfl
  | false => exact Prog.does_pure ()

def Called {β : Type} (p : Client Bool Call β) : Prop :=
  ∀ s, Idle s → Outside (fun _ => Idle) p s

theorem composes_called : Composes Called Called where
  bind hp hk s hs := Serves.bind (hp s hs) fun b t ht => hk b t ht
  last := id
  calm h _ hs := outside_of_does (h.mono fun _ _ _ h => h.2.2.2) hs
  replace _ hs := outside_of_does (does_replace none) hs
  start _ _ hs := startNewConnection_outside hs
  emits i st _ hs := outside_of_does (does_setProtocolState i st) hs

variable (a : Arrival Bool)

theorem arrive_keeps (s : Desktop) : Rely false s (desktop.arrive a s) := by
  cases a with
  | connect request => exact ⟨rfl, .inl rfl, fun _ => ⟨_, rfl⟩⟩
  | disconnect => exact ⟨rfl, .inl rfl, fun _ => ⟨_, rfl⟩⟩
  | networkChanged => exact ⟨rfl, .inl rfl, fun _ => ⟨_, rfl⟩⟩
  | time clock epoch => exact ⟨rfl, .inl rfl, fun _ => ⟨[], (append_nil _).symm⟩⟩
  | profiles n => exact ⟨rfl, .inl rfl, fun _ => ⟨[], (append_nil _).symm⟩⟩
  | outside b => exact ⟨rfl, .inl rfl, fun _ => ⟨[], (append_nil _).symm⟩⟩

theorem arrive_current : (desktop.arrive a s).current = s.current := by
  cases a <;> rfl

theorem rely_trans {b t u} (h : Rely b s t) (h' : Rely b t u) : Rely b s u := by
  obtain ⟨hstart, hconn, hqueue⟩ := h
  obtain ⟨hstart', hconn', hqueue'⟩ := h'
  refine ⟨hstart'.trans hstart, ?_, fun hb => ?_⟩
  · rcases hconn' with hsame | hnone
    · rw [hsame]
      exact hconn
    · exact .inr hnone
  · obtain ⟨more, hmore⟩ := hqueue hb
    obtain ⟨more', hmore'⟩ := hqueue' hb
    exact ⟨more ++ more', by rw [hmore', hmore, append_assoc]⟩

def lifetime : Layers desktop Orderly where
  inv := Held
  rest := Idle
  rely := Rely
  perm _ := Held
  outer _ _ := Held
  inner s l s' := Harmless l s s'
  rely_refl _ s := ⟨rfl, .inl rfl, fun _ => ⟨[], (append_nil _).symm⟩⟩
  rely_trans := rely_trans
  rely_wait h := ⟨h.1, h.2.1, fun _ => h.2.2 rfl⟩
  inner_rely _ h := ⟨h.2.1, h.2.2.2, nofun⟩
  outer_inv _ h := h
  inner_inv hs h hstart := by
    rw [h.2.2.1]
    exact hs (h.2.1.symm.trans hstart)
  permitted hs _ := hs
  arrive_inv {a c} _ hs hstart := by
    rw [arrive_current]
    exact hs ((arrive_keeps a c.state).1.symm.trans hstart)
  arrive_rely {a c} _ := arrive_keeps a c.state
  arrive_rest {a c} _ hs := idle_rely (arrive_keeps a c.state) hs
  dispatch_outer {e s} _ hs _ _ := composes_called.handler e s hs
  dispatch_inner _ hready h := inside_of_bearable hready (h.resolve_left nofun)

theorem holds_safe {c : DesktopLoop} (h : lifetime.Holds c) : diesInUse c = false := by
  obtain ⟨hinv, hstacked⟩ := h
  unfold diesInUse
  rcases hstack : c.stack with _ | ⟨_ | ⟨l, f, next⟩, below⟩
  · rfl
  · rfl
  rw [hstack] at hstacked
  obtain ⟨-, hguarantee⟩ := lifetime.stacked_act hinv hstacked hinv
  rcases hguarantee with ⟨rfl, -⟩ | ⟨-, hharmless⟩
  · cases l <;> cases c.state.current <;> simp [inUse]
  · cases l with
    | drop new => exact absurd rfl (hharmless.1 new)
    | _ => rfl

/-- In every orderly run no protocol object dies while one of its calls is underway. -/
theorem no_protocol_dies_in_use {s : Desktop} (hs : s.protocolStartInProgress = false)
    {c : DesktopLoop} (h : desktop.Run Orderly ⟨[], s⟩ c) : diesInUse c = false := by
  have hstart : lifetime.Holds ⟨[], s⟩ := ⟨held_of_idle hs, hs⟩
  exact holds_safe (lifetime.holds_run hstart h)

/-- The user connects and, while `start()` is underway, asks to disconnect. -/
theorem disconnect_during_start_is_safe :
    desktop.Allowed Orderly (.arrive (.connect someRequest) :: begin (.connection .posted) 8 ++
      .arrive .disconnect :: handle (.connection .posted) 2) ⟨[], started⟩ ∧
    diesInUse (desktop.after (.arrive (.connect someRequest) :: begin (.connection .posted) 8 ++
      .arrive .disconnect :: handle (.connection .posted) 2) ⟨[], started⟩) = false := by
  refine ⟨by decide +kernel, ?_⟩
  exact no_protocol_dies_in_use rfl (desktop.run_after _ _ (by decide +kernel))

/-- A connected user connects again: `stop()` reports the end of the old protocol before it
returns, and the handler that waits for it resets the member. -/
theorem reconnect_kills_stopping_protocol :
    desktop.Run (fun _ _ => True) ⟨[], started⟩ (desktop.after (connects ++
      .arrive (.connect someRequest) :: begin (.connection .posted) 5 ++
      begin (.emits 0 .disconnected) 1) ⟨[], started⟩) ∧
    diesInUse (desktop.after (connects ++ .arrive (.connect someRequest) ::
      begin (.connection .posted) 5 ++ begin (.emits 0 .disconnected) 1) ⟨[], started⟩) = true :=
  ⟨desktop.run_after _ _ (by decide +kernel), by decide +kernel⟩

end ProtocolLifetime

import DrFrakeVpn.ConnectionRuns

/-! # What a handler of the connection object still has to do

A protocol object that the connection does not hold is about to be destroyed or about to be
held, and a start that is in progress is about to be reported. -/
namespace ConnectionDebts

open SharedPrograms EventLoops DesktopConnection ConnectionRuns List Prog

inductive Debt where
  | object (i : ℕ)
  | start

def ids (s : Desktop) : List ℕ := s.objects.map Protocol.id

def owed : Debt → Desktop → Prop
  | .object i, s => i ∈ ids s ∧ s.current ≠ some i
  | .start, s => s.protocolStartInProgress = true

def pays : Debt → Act Call → Prop
  | .object i, l => l = .dead i ∨ l = .drop (some i)
  | .start, l => l = .started

def Calm (l : Act Call) (s s' : Desktop) : Prop :=
  (∀ d, ¬pays d l) ∧ ids s' = ids s ∧ s'.current = s.current ∧
    s'.protocolStartInProgress = s.protocolStartInProgress

theorem calm_owed (l : Act Call) (s s' : Desktop) (h : Calm l s s') (d : Debt)
    (hd : owed d s') : owed d s ∧ ¬pays d l := by
  obtain ⟨hpays, hids, hcurrent, hstart⟩ := h
  refine ⟨?_, hpays d⟩
  cases d with
  | object i => exact ⟨hids ▸ hd.1, hcurrent ▸ hd.2⟩
  | start => exact hstart.symm.trans hd

theorem handle_pays (d : Debt) : ¬pays d .handle := by
  cases d <;> simp [pays]

theorem calm_same {s s' : Desktop} (h : World.SameElsewhere s s') : Calm .handle s s' :=
  ⟨handle_pays, congrArg (map Protocol.id) h.objects, h.current, h.protocolStartInProgress⟩

variable {f : Protocol → Protocol}

theorem ids_updateObject (s : Desktop) (i : ℕ) (hf : ∀ p, (f p).id = p.id) :
    ids (s.updateObject i f) = ids s := by
  unfold ids World.updateObject
  rw [map_map]
  refine map_congr_left fun p _ => ?_
  simp only [Function.comp_apply]
  split
  · exact hf p
  · rfl

theorem calm_update (hl : ∀ d, ¬pays d l) (s : Desktop) (i : ℕ) (hf : ∀ p, (f p).id = p.id) :
    Calm l s (s.updateObject i f) :=
  ⟨hl, ids_updateObject s i hf, rfl, rfl⟩

theorem inner_pays (call : Call) (d : Debt) : ¬pays d (.inner call) := by
  cases d <;> simp [pays]

variable (i : ℕ)

theorem does_stop_calm : (anyProtocol.stop i).Does Calm := by
  refine Prog.Does.bind (does_atom fun s => ?_) fun _ => Prog.does_atom fun s => ?_
  · exact calm_update (inner_pays _) s i fun _ => rfl
  · exact calm_update (inner_pays _) s i fun _ => rfl

theorem does_start_calm : (anyProtocol.start i).Does Calm := by
  refine Prog.Does.bind (does_atom fun s => ?_) fun _ => Prog.does_atom fun s => ?_
  · exact calm_update (inner_pays _) s i fun _ => rfl
  · exact ⟨inner_pays _, rfl, rfl, rfl⟩

theorem does_detach_calm : (detach i : DesktopProg).Does Calm := by
  refine Prog.does_atom fun s => ?_
  refine ⟨?_, ids_updateObject s i fun _ => rfl, rfl, rfl⟩
  intro d
  cases d <;> simp [pays]

abbrev Accounted {β : Type} (p : Client Bool Call β) : Prop := Accounts owed pays p

theorem accounted_of_does {β : Type} {p : Client Bool Call β} (h : p.Does Calm) : Accounted p :=
  accounts_of_does calm_owed h

theorem surely_destroy : Surely (pays (.object i)) (destroy anyProtocol i) := by
  refine surely_bind fun stopped => surely_bind fun _ => ?_
  exact .now (.inl rfl)

theorem destroy_accounted : Accounted (destroy anyProtocol i) := by
  refine Accounts.bind (accounted_of_does (does_step fun s => calm_same (.refl s)))
    fun stopped => ?_
  refine Accounts.bind ?_ fun _ => ⟨fun s d hd => .inl ?_, fun _ => trivial⟩
  · cases stopped with
    | true => exact trivial
    | false => exact accounted_of_does (does_stop_calm i)
  · cases d with
    | start => exact ⟨hd, by simp [pays]⟩
    | object j =>
      obtain ⟨hids, hcurrent⟩ := hd
      simp only [ids, World.without, mem_map, mem_filter] at hids
      obtain ⟨p, ⟨hp, hpi⟩, rfl⟩ := hids
      refine ⟨⟨mem_map_of_mem hp, hcurrent⟩, ?_⟩
      rintro (hdead | hdrop)
      · exact of_decide_eq_true hpi (Act.dead.inj hdead).symm
      · cases hdrop

theorem replaceProtocol_accounted (new : Option ℕ) :
    Accounted (replaceProtocol anyProtocol new) := by
  refine ⟨fun s d hd => ?_, fun old => ?_⟩
  · cases d with
    | start => exact .inl ⟨hd, by simp [pays]⟩
    | object i =>
      obtain ⟨hids, hcurrent⟩ := hd
      -- the object that was held until now is the one that is destroyed next
      by_cases hold : s.current = some i
      · refine .inr ?_
        simp only [hold]
        exact surely_destroy i
      · refine .inl ⟨⟨hids, hold⟩, ?_⟩
        rintro (hdead | hdrop)
        · cases hdead
        · exact hcurrent (Act.drop.inj hdrop)
  · cases old with
    | none => trivial
    | some i => exact destroy_accounted i

variable (st : ConnectionState)

theorem setProtocolState_accounted : Accounted (setProtocolState anyProtocol i st) := by
  refine Accounts.bind (accounted_of_does (Prog.does_atom fun s => ?_)) fun ended => ?_
  · have hpays : ∀ d, ¬pays d (.emit i st) := by
      intro d
      cases d <;> simp [pays]
    split
    · exact ⟨hpays, rfl, rfl, rfl⟩
    split
    · exact ⟨hpays, rfl, rfl, rfl⟩
    · have hids : ids (s.updateObject i fun p => { p with state := st }) = ids s :=
        ids_updateObject s i fun _ => rfl
      split <;> split <;> exact ⟨hpays, hids, rfl, rfl⟩
  · cases ended with
    | false => trivial
    | true =>
      refine Accounts.bind (replaceProtocol_accounted none) fun _ => ?_
      exact accounted_of_does (does_change fun s => ⟨handle_pays, rfl, rfl, rfl⟩)

variable (request : ConnectRequest)

theorem startNewConnection_accounted : Accounted (startNewConnection anyProtocol request) := by
  refine Accounts.bind (accounted_of_does (does_step fun s => ?_)) fun allowed => ?_
  · exact calm_same (startChecks_same request s)
  cases allowed with
  | false => trivial
  | true =>
    refine accounts_atom (fun s d hd => ?_) fun made => ?_
    · -- the new object is held by the next action
      unfold factory at hd ⊢
      cases hsupported : request.supported with
      | false =>
        rw [hsupported] at hd
        exact .inl ⟨hd, handle_pays d⟩
      | true =>
        rw [hsupported] at hd
        cases d with
        | start => exact .inl ⟨hd, handle_pays _⟩
        | object i =>
          obtain ⟨hids, hcurrent⟩ := hd
          simp only [if_true, ids, map_append, mem_append, map_cons, map_nil,
            mem_singleton] at hids
          rcases hids with hids | rfl
          · exact .inl ⟨⟨hids, hcurrent⟩, handle_pays _⟩
          · exact .inr (.now (.inr rfl))
    refine Accounts.bind (replaceProtocol_accounted made) fun _ => ?_
    refine accounts_atom (fun s d hd => ?_) fun held => ?_
    · unfold createProtocolConnections at hd ⊢
      cases hcurrent : s.current with
      | none =>
        rw [hcurrent] at hd
        exact .inl (calm_owed _ _ _ (calm_same (s.setConnectionState_same .error)) d hd)
      | some j =>
        rw [hcurrent] at hd
        cases d with
        | start => exact .inr (surely_bind fun failed => .now rfl)
        | object i =>
          obtain ⟨hids, hne⟩ := hd
          have hkept : ids (s.startAnnounced j) = ids s := ids_updateObject s j fun _ => rfl
          exact .inl ⟨⟨hkept ▸ hids, hne⟩, handle_pays _⟩
    cases held with
    | none => trivial
    | some j =>
      refine Accounts.bind (accounted_of_does (does_start_calm j)) fun failed => ?_
      refine ⟨fun s d hd => .inl ?_, fun _ => trivial⟩
      obtain ⟨hobjects, hcurrent, hstart⟩ := afterStart_same failed s
      cases d with
      | start => exact absurd (hd.symm.trans hstart) nofun
      | object i =>
        have hids : ids (afterStart failed s) = ids s := congrArg (map Protocol.id) hobjects
        exact ⟨⟨hids ▸ hd.1, hcurrent ▸ hd.2⟩, by simp [pays]⟩

/-- A property `P` of programs that comes from a property `A` of the parts before the last one. -/
structure Composes (A : {β : Type} → Client Bool Call β → Prop) (P : DesktopProg → Prop) :
    Prop where
  bind : ∀ {β : Type} {p : Client Bool Call β} {k : β → DesktopProg},
    A p → (∀ b, P (k b)) → P (p >>= k)
  last : ∀ {p : DesktopProg}, A p → P p
  calm : ∀ {β : Type} {p : Client Bool Call β}, p.Does Calm → A p
  replace : A (replaceProtocol anyProtocol none)
  start : ∀ request, P (startNewConnection anyProtocol request)
  emits : ∀ i st, P (setProtocolState anyProtocol i st)

theorem connectChecks_calm (s : Desktop) : Calm .handle s (connectChecks request s).2 := by
  unfold connectChecks
  by_cases hscheduled : s.reconnectScheduled <;>
    simp [hscheduled, World.clearRecoveryState]
  · split
    · exact ⟨handle_pays, rfl, rfl, rfl⟩
    · split <;> exact ⟨handle_pays, by simp [ids], by simp, by simp⟩
  · split
    · exact ⟨handle_pays, rfl, rfl, rfl⟩
    · split <;> exact ⟨handle_pays, by simp [ids], by simp, by simp⟩

theorem disconnectChecks_calm (s : Desktop) : Calm .handle s (disconnectChecks s).2 := by
  unfold disconnectChecks
  dsimp only
  split
  · exact ⟨handle_pays, by simp [ids, World.clearRecoveryState], by simp [World.clearRecoveryState],
      by simp [World.clearRecoveryState]⟩
  · split <;> exact ⟨handle_pays, by simp [ids, World.clearRecoveryState],
      by simp [World.clearRecoveryState], by simp [World.clearRecoveryState]⟩

theorem takePosted_calm (s : Desktop) : Calm .handle s (takePosted s).2 := by
  unfold takePosted
  split
  · exact calm_same (.refl s)
  · rename_i st queue _
    rcases World.onSignal_cases { s with queue := queue } st with heq | ⟨-, -, heq⟩ <;> rw [heq]
    · exact ⟨handle_pays, by simp [ids], by simp, by simp⟩
    · exact ⟨handle_pays, rfl, rfl, rfl⟩
  · exact ⟨handle_pays, rfl, rfl, rfl⟩

section Parts

variable {A : {β : Type} → Client Bool Call β → Prop} {P : DesktopProg → Prop}
  (h : Composes A P)
include h

theorem Composes.pure : P (pure ()) := h.last (h.calm (Prog.does_pure ()))

theorem Composes.withLast {f : ConnectRequest → DesktopProg} (hf : ∀ request, P (f request)) :
    P (withLast f) := by
  refine h.bind (h.calm (does_step fun s => calm_same (.refl s))) fun last => ?_
  cases last with
  | none => exact h.pure
  | some request => exact hf request

theorem Composes.startOrDefer : P (startOrDefer anyProtocol request) := by
  refine h.bind (h.calm (does_step fun s => ?_)) fun now => ?_
  · unfold graceWindow
    split
    · split <;> exact ⟨handle_pays, rfl, rfl, rfl⟩
    · exact ⟨handle_pays, rfl, rfl, rfl⟩
  · cases now with
    | true => exact h.start request
    | false => exact h.pure

theorem Composes.connectToVpn : P (connectToVpn anyProtocol request) := by
  refine h.bind (h.calm (does_step (connectChecks_calm request))) fun next => ?_
  cases next with
  | queued => exact h.pure
  | fresh => exact h.startOrDefer request
  | wait i =>
    refine h.last (h.calm (Prog.Does.bind (does_detach_calm i) fun _ => ?_))
    exact Prog.Does.bind (does_change fun s => ⟨handle_pays, rfl, rfl, rfl⟩) fun _ =>
      does_stop_calm i
  | discard i =>
    refine h.bind (h.calm (does_detach_calm i)) fun _ => ?_
    exact h.bind h.replace fun _ => h.startOrDefer request

theorem Composes.setState : P (change fun s => s.setConnectionState st) :=
  h.last (h.calm (does_change fun s => calm_same (s.setConnectionState_same st)))

theorem Composes.disconnectFromVpn : P (disconnectFromVpn anyProtocol) := by
  refine h.bind (h.calm (does_step disconnectChecks_calm)) fun held => ?_
  cases held with
  | none => exact h.pure
  | some i =>
    refine h.bind (h.calm (does_detach_calm i)) fun _ => ?_
    refine h.bind (h.calm (does_stop_calm i)) fun _ => ?_
    exact h.bind h.replace fun _ => h.setState .disconnected

theorem Composes.reconnectToVpn : P (reconnectToVpn anyProtocol) := by
  refine h.bind (h.calm (does_step fun s => calm_same (reconnectChecks_same s))) fun held => ?_
  cases held with
  | none => exact h.pure
  | some i =>
    refine h.bind (h.calm (does_stop_calm i)) fun _ => ?_
    refine h.bind (h.calm (does_step fun s => ?_)) fun again => ?_
    · dsimp only
      split <;> exact ⟨handle_pays, rfl, rfl, rfl⟩
    · cases again with
      | none => exact h.pure
      | some j =>
        refine h.bind (h.calm (does_start_calm j)) fun failed => ?_
        refine h.last (h.calm (does_change fun s => ?_))
        cases failed with
        | true => exact calm_same (s.setConnectionState_same .error)
        | false => exact calm_same (.refl s)

theorem Composes.stateWatchdog : P (handleStateWatchdogTimeout anyProtocol) := by
  refine h.bind (h.calm (does_step fun s => ?_)) fun held => ?_
  · unfold watchdogChecks
    split
    · exact ⟨handle_pays, rfl, rfl, rfl⟩
    · split
      · exact calm_same (s.setConnectionState_same .disconnected)
      · split <;> exact calm_same (.refl s)
  · rcases held with _ | _ | i
    · exact h.pure
    · exact h.setState .error
    · refine h.bind (h.calm (does_stop_calm i)) fun _ => ?_
      exact h.bind h.replace fun _ => h.setState .error

theorem Composes.switchWatchdog : P (handleSwitchWatchdogTimeout anyProtocol) := by
  refine h.bind (h.calm (does_step fun s => ⟨handle_pays, rfl, rfl, rfl⟩)) fun asked => ?_
  refine h.bind (h.calm (does_step fun s => calm_same (.refl s))) fun held => ?_
  have hthen : P (if asked then Pure.pure ()
      else DesktopConnection.withLast (startNewConnection anyProtocol)) := by
    cases asked with
    | true => exact h.pure
    | false => exact h.withLast h.start
  cases held with
  | none => exact h.bind (h.calm (Prog.does_pure ())) fun _ => hthen
  | some i =>
    refine h.bind (k := fun _ => dropProtocol anyProtocol >>= fun _ => _)
      (h.calm (does_detach_calm i)) fun _ => h.bind h.replace fun _ => hthen

theorem Composes.handlePosted (call : Posted) : P (handlePosted anyProtocol call) := by
  cases call with
  | connectToVpn request => exact h.connectToVpn request
  | disconnectFromVpn _ => exact h.disconnectFromVpn
  | reconnectToVpn => exact h.reconnectToVpn
  | startNewConnection => exact h.withLast h.start
  | connectAgain => exact h.withLast h.connectToVpn
  | signal _ _ => exact h.pure

theorem Composes.timer {f : Desktop → Desktop} {p : DesktopProg} (hf : ∀ s, Calm .handle s (f s))
    (hp : P p) : P (change f >>= fun _ => p) :=
  h.bind (h.calm (does_change hf)) fun _ => hp

theorem Composes.handler (e : ClientEvent) : P (desktop.handler e) := by
  cases e with
  | emits i st => exact h.emits i st
  | stops i => exact h.last (h.calm (does_stop_calm i))
  | connection e =>
    cases e with
    | posted =>
      refine h.bind (h.calm (does_step takePosted_calm)) fun call => ?_
      cases call with
      | none => exact h.pure
      | some call => exact h.handlePosted call
    | stateWatchdog => exact h.timer (fun _ => ⟨handle_pays, rfl, rfl, rfl⟩) h.stateWatchdog
    | recovery =>
      refine h.timer (fun _ => ⟨handle_pays, rfl, rfl, rfl⟩) ?_
      refine h.bind (h.calm (does_step fun s => ?_)) fun go => ?_
      · split <;> exact ⟨handle_pays, rfl, rfl, rfl⟩
      · cases go with
        | true => exact h.withLast h.connectToVpn
        | false => exact h.pure
    | switchWatchdog => exact h.timer (fun _ => ⟨handle_pays, rfl, rfl, rfl⟩) h.switchWatchdog
    | grace =>
      refine h.timer (fun _ => ⟨handle_pays, rfl, rfl, rfl⟩) ?_
      refine h.bind (h.calm (does_step fun s => calm_same (.refl s))) fun go => ?_
      cases go with
      | true => exact h.withLast h.start
      | false => exact h.pure

end Parts

theorem handler_accounted (e : ClientEvent) : Accounted (desktop.handler e) := by
  have h : Composes Accounted Accounted := ⟨Accounts.bind, id, accounted_of_does,
    replaceProtocol_accounted none, startNewConnection_accounted, setProtocolState_accounted⟩
  exact h.handler e

theorem arrive_owed (a : Arrival Bool) (s : Desktop) (d : Debt) (h : owed d (desktop.arrive a s)) :
    owed d s := by
  cases a <;> cases d <;> exact h

variable {c : DesktopLoop}

theorem covered_from_start
    (h : desktop.Run allow ⟨[], .start fails clock epoch safeModeUntil n⟩ c) :
    Covered owed pays c := by
  refine covered_run handler_accounted arrive_owed ⟨fun p hp => ?_, fun d hd => ?_⟩ h
  · cases hp
  · cases d with
    | object i => exact absurd hd.1 not_mem_nil
    | start => cases hd

theorem object_held (h : Covered owed pays c) (hstack : c.stack = []) {p}
    (hp : p ∈ c.state.objects) :
    c.state.current = some p.id := by
  by_contra hne
  obtain ⟨q, hq, -⟩ := h.2 (.object p.id) ⟨mem_map_of_mem hp, hne⟩
  rw [hstack] at hq
  cases hq

theorem start_over (h : Covered owed pays c) (hstack : c.stack = []) :
    c.state.protocolStartInProgress = false := by
  cases hstart : c.state.protocolStartInProgress with
  | false => rfl
  | true =>
    obtain ⟨q, hq, -⟩ := h.2 .start hstart
    rw [hstack] at hq
    cases hq

/-- Once no handler is underway, the only protocol object left is the one held, and no start is
marked as in progress. -/
theorem no_object_leaks {allow : Machine.Guard Desktop (Act Call) ClientEvent (Arrival Bool)}
    (hrun : desktop.Run allow ⟨[], .start fails clock epoch safeModeUntil n⟩ c)
    (hstack : c.stack = []) : (∀ p ∈ c.state.objects, c.state.current = some p.id) ∧
      c.state.protocolStartInProgress = false := by
  have hcovered := covered_from_start hrun
  exact ⟨fun p hp => object_held hcovered hstack hp, start_over hcovered hstack⟩

theorem connected_client_holds_its_object :
    (∀ p ∈ (desktop.after connects ⟨[], started⟩).state.objects,
      (desktop.after connects ⟨[], started⟩).state.current = some p.id) ∧
      (desktop.after connects ⟨[], started⟩).state.protocolStartInProgress = false := by
  have hstack : (desktop.after connects ⟨[], started⟩).stack.length = 0 := by decide +kernel
  have hrun : desktop.Run (fun _ _ => True) ⟨[], started⟩ (desktop.after connects _) :=
    desktop.run_after _ _ (by decide +kernel)
  exact no_object_leaks hrun (length_eq_zero_iff.mp hstack)

end ConnectionDebts

import DrFrakeVpn.HealthMonitor

/-! # One alert for each outage

The row of a notification is kept, and an alert is sent only for a new row, so an outage is
announced once only if it is the first and the server is never found switched off during it. -/
namespace HealthAlerts

open SharedPrograms RecordTables GoValues NodeFleet NodeAgents ServerAdmin HealthMonitor Prog
open AccountWorld (AdminNotification AdminNotificationStatus)

variable {cfg : FleetSetup}

inductive MonitorEvent where
  | heartbeat (q : PushRequest)
  | toggle (id : String)
  | evaluate

def turn (cfg : FleetSetup) (now : ℤ) (e : MonitorEvent) (s : Fleet) : Fleet :=
  let s := { s with now := now }
  match e with
  | .heartbeat q => ((agentPushHeartbeat cfg q).run s).2
  | .toggle id => ((toggleServer cfg id).run s).2
  | .evaluate => ((evaluateAdminHealthOnce cfg now).run s).2

def play (cfg : FleetSetup) : List (ℤ × MonitorEvent) → Fleet → Fleet
  | [], s => s
  | (now, e) :: rest, s => play cfg rest (turn cfg now e s)

def sightings (cfg : FleetSetup) (i : ℕ) : List (ℤ × MonitorEvent) → Fleet → List Sight
  | [], _ => []
  | (now, e) :: rest, s =>
    let later := sightings cfg i rest (turn cfg now e s)
    match e with
    | .evaluate => sightIn cfg now i s.servers.rows :: later
    | _ => later

def Watched (i : ℕ) (s : Fleet) : Prop :=
  ∃ row, s.servers.byId i = some row ∧ trimSpace row.agentNodeID ≠ ""

/-- The server is active and its last heartbeat is stale. -/
def Down (cfg : FleetSetup) (now : ℤ) (i : ℕ) (s : Fleet) : Prop :=
  ∃ row, s.servers.byId i = some row ∧ row.active = true ∧ isStale cfg now row = true

def isOpen (s : Fleet) (i : ℕ) : Bool := statusOf s (fingerprint i) = some .opened

/-- After each run of the monitor the notification is open exactly if the server is down. -/
def OpenIffDown (cfg : FleetSetup) (i : ℕ) : List (ℤ × MonitorEvent) → Fleet → Prop
  | [], _ => True
  | (now, e) :: rest, s =>
    (e = .evaluate → (isOpen (turn cfg now e s) i = true ↔ Down cfg now i (turn cfg now e s))) ∧
      OpenIffDown cfg i rest (turn cfg now e s)

/-- The runs that find the server stale while it is not alerting; it stops alerting when a run
finds it healthy. -/
def onsets (alerting : Bool) : List Sight → ℕ
  | [] => 0
  | .off :: rest => onsets alerting rest
  | .healthy :: rest => onsets false rest
  | .stale :: rest => (if alerting then 0 else 1) + onsets true rest

/-- No run finds the server switched off while it is alerting. -/
def OnWhileAlerting (alerting : Bool) : List Sight → Prop
  | [] => True
  | .off :: rest => alerting = false ∧ OnWhileAlerting alerting rest
  | .healthy :: rest => OnWhileAlerting false rest
  | .stale :: rest => OnWhileAlerting true rest

structure OneAlertPerOutage (cfg : FleetSetup) (i : ℕ) (events : List (ℤ × MonitorEvent))
    (s : Fleet) : Prop where
  openIffDown : OpenIffDown cfg i events s
  alerts : sent (play cfg events s) (fingerprint i) =
    sent s (fingerprint i) + onsets (isOpen s i) (sightings cfg i events s)

structure Aside (i : ℕ) (s t : Fleet) : Prop where
  notifications : t.notifications = s.notifications
  alerts : t.alerts = s.alerts
  watched : Watched i s → Watched i t

theorem Aside.refl (i : ℕ) (s : Fleet) : Aside i s s := ⟨rfl, rfl, id⟩

variable {s : Fleet} {i : ℕ}

theorem Aside.trans (h : Aside i s t) (h' : Aside i t u) : Aside i s u :=
  ⟨h'.notifications.trans h.notifications, h'.alerts.trans h.alerts,
    fun hs => h'.watched (h.watched hs)⟩

theorem heartbeatWrite_watched (hnode : trimSpace payload.nodeID ≠ "") (server : ℕ)
    (hs : Watched i s) :
    Watched i { s with servers := s.servers.updateId server (heartbeatWrite payload now) } := by
  obtain ⟨row, hrow, hid⟩ := hs
  by_cases hi : i = server
  · refine ⟨(heartbeatWrite payload now).apply row, ?_, hnode⟩
    rw [Table.byId_updateId, if_pos hi, hrow, Option.map_some]
  · refine ⟨row, ?_, hid⟩
    rw [Table.byId_updateId, if_neg hi, hrow]

theorem heartbeat_aside (i : ℕ) (q : PushRequest) :
    Aside i s ((agentPushHeartbeat cfg q).run s).2 := by
  have hdoes : (agentPushHeartbeat cfg q).Does fun _ => Aside i := by
    unfold agentPushHeartbeat
    split
    · exact does_pure _
    split
    · exact does_pure _
    · next payload _ =>
      by_cases hnode : trimSpace payload.nodeID = ""
      · -- the verification refuses a blank node id before it looks anything up
        unfold verifyAgentPush
        rw [if_pos hnode]
        exact does_pure _
      · refine Prog.Does.bind (does_verifyAgentPush cfg (fun _ => Aside.refl i)
          (fun _ _ _ => ⟨rfl, rfl, id⟩) _) ?_
        intro verified
        cases verified with
        | error response => exact does_pure _
        | ok seen =>
          refine Prog.Does.bind (does_atom (Aside.refl i)) fun now => ?_
          refine Prog.Does.bind (does_statement (Aside.refl i) ?_) fun _ => Prog.does_pure _
          exact fun s => ⟨rfl, rfl, heartbeatWrite_watched hnode seen.1.id⟩
  exact hdoes.triple (fun _ _ _ h hs => hs.trans h) s (.refl i s)

theorem toggle_watched (hrow : row ∈ s.servers.rows) (hs : Watched i s) :
    Watched i (s.withServer { row with active := active }) := by
  obtain ⟨old, hold, hid⟩ := hs
  by_cases hi : i = row.id
  · refine ⟨{ row with active := active }, ?_, ?_⟩
    · rw [byId_withServer, if_pos hi, hold, Option.map_some]
    · obtain ⟨hmem, hold'⟩ := s.servers.byId_some_iff.mp hold
      have hsame : old = row := s.servers.id_injective hmem hrow (hold'.trans hi)
      subst hsame
      exact hid
  · refine ⟨old, ?_, hid⟩
    rw [byId_withServer, if_neg hi, hold]

theorem toggle_aside (hcfg : cfg.Reliable) (i : ℕ) (id : String) :
    Aside i s ((toggleServer cfg id).run s).2 := by
  unfold toggleServer findServer
  simp only [bind_eq, run_bind, statement_run hcfg]
  cases hrow : s.server cfg id with
  | none =>
    simp only [firstRow, hrow, Option.map_none]
    exact .refl i s
  | some row =>
    simp only [firstRow, hrow, Option.map_some, Fleet.seen, bind_eq, run_bind,
      storeToggled, auditServerAction, statement_run hcfg, write, pure_eq, Prog.run_done]
    exact ⟨rfl, rfl, toggle_watched (server_mem cfg hrow)⟩

theorem sightIn_stale_iff (hs : Watched i s) :
    sightIn cfg now i s.servers.rows = .stale ↔ Down cfg now i s := by
  obtain ⟨row, hrow, hnode⟩ := hs
  have hfind : s.servers.rows.find? (fun r => r.id = i) = some row := hrow
  have hdown : Down cfg now i s ↔ row.active ∧ isStale cfg now row := by
    unfold Down
    rw [hrow]
    simp
  rw [hdown, sightIn, hfind]
  cases hactive : row.active <;> cases hstale : isStale cfg now row <;>
    simp [sight, hactive, hstale, hnode]

theorem evaluate_watched (hcfg : cfg.Reliable) (hs : Watched i s) (now : ℤ) :
    Watched i (turn cfg now .evaluate s) := by
  obtain ⟨row, hrow, hnode⟩ := hs
  refine ⟨row, ?_, hnode⟩
  have hservers := (evaluate_run hcfg now i { s with now := now }).servers
  change ((evaluateAdminHealthOnce cfg now).run { s with now := now }).2.servers.byId i = some row
  rw [hservers]
  exact hrow

variable {e : MonitorEvent}

theorem turn_aside (hcfg : cfg.Reliable) (i : ℕ) (he : e ≠ .evaluate) (now : ℤ) (s : Fleet) :
    Aside i s (turn cfg now e s) := by
  have htime : Aside i s { s with now := now } := ⟨rfl, rfl, id⟩
  cases e with
  | heartbeat q => exact htime.trans (heartbeat_aside i q)
  | toggle id => exact htime.trans (toggle_aside hcfg i id)
  | evaluate => exact (he rfl).elim

def alertsOver (enabled : Bool) : Option AdminNotificationStatus → List Sight → ℕ
  | _, [] => 0
  | status, x :: rest => x.alerts enabled status + alertsOver enabled (x.status status) rest

theorem sightings_aside {now} (he : e ≠ .evaluate) {rest} :
    sightings cfg i ((now, e) :: rest) s = sightings cfg i rest (turn cfg now e s) := by
  cases e with
  | heartbeat q => rfl
  | toggle id => rfl
  | evaluate => exact (he rfl).elim

theorem sent_play (hcfg : cfg.Reliable) (i : ℕ) (events : List (ℤ × MonitorEvent)) (s : Fleet) :
    sent (play cfg events s) (fingerprint i) = sent s (fingerprint i) +
      alertsOver cfg.adminAlertsEnabled (statusOf s (fingerprint i))
        (sightings cfg i events s) := by
  induction events generalizing s with
  | nil => rfl
  | cons x rest ih =>
    obtain ⟨now, e⟩ := x
    rw [play, ih]
    by_cases he : e = .evaluate
    · subst he
      have hrun := evaluate_run hcfg now i { s with now := now }
      have hsent : sent (turn cfg now .evaluate s) (fingerprint i) = _ := hrun.sent
      have hstatus : statusOf (turn cfg now .evaluate s) (fingerprint i) = _ := hrun.status
      rw [hsent, hstatus, sightings, alertsOver, Nat.add_assoc]
      rfl
    · have haside := turn_aside hcfg i he now s
      rw [sightings_aside he, sent, sent, statusOf, statusOf, Fleet.notice, Fleet.notice,
        haside.alerts, haside.notifications]

def Sight.alerting (x : Sight) (alerting : Bool) : Bool :=
  match x with
  | .off => alerting
  | .healthy => false
  | .stale => true

theorem isOpen_evaluate (hcfg : cfg.Reliable) (i : ℕ) (now : ℤ) (s : Fleet) :
    isOpen (turn cfg now .evaluate s) i =
      Sight.alerting (sightIn cfg now i s.servers.rows) (isOpen s i) := by
  have hstatus : statusOf (turn cfg now .evaluate s) (fingerprint i) =
      (sightIn cfg now i s.servers.rows).status (statusOf s (fingerprint i)) :=
    (evaluate_run hcfg now i { s with now := now }).status
  rw [isOpen, isOpen, hstatus]
  cases sightIn cfg now i s.servers.rows with
  | off => rfl
  | healthy => cases statusOf s (fingerprint i) <;> rfl
  | stale => rfl

theorem down_evaluate (hcfg : cfg.Reliable) (hs : Watched i s) (now : ℤ) :
    Down cfg now i (turn cfg now .evaluate s) ↔ sightIn cfg now i s.servers.rows = .stale := by
  have hservers : (turn cfg now .evaluate s).servers = s.servers :=
    (evaluate_run hcfg now i { s with now := now }).servers
  rw [sightIn_stale_iff hs, Down, Down, hservers]

theorem openIffDown_iff (hcfg : cfg.Reliable) (events : List (ℤ × MonitorEvent))
    (hs : Watched i s) :
    OpenIffDown cfg i events s ↔ OnWhileAlerting (isOpen s i) (sightings cfg i events s) := by
  induction events generalizing s with
  | nil => exact Iff.rfl
  | cons x rest ih =>
    obtain ⟨now, e⟩ := x
    by_cases he : e = .evaluate
    · subst he
      have hopen := isOpen_evaluate hcfg i now s
      have hdown := down_evaluate hcfg hs now
      rw [OpenIffDown, ih (evaluate_watched hcfg hs now), hdown, hopen, sightings]
      cases sightIn cfg now i s.servers.rows with
      | off =>
        cases isOpen s i <;> simp [Sight.alerting, OnWhileAlerting]
      | healthy => simp [Sight.alerting, OnWhileAlerting]
      | stale => simp [Sight.alerting, OnWhileAlerting]
    · have haside := turn_aside hcfg i he now s
      have hopen : isOpen (turn cfg now e s) i = isOpen s i := by
        rw [isOpen, isOpen, statusOf, statusOf, Fleet.notice, Fleet.notice, haside.notifications]
      rw [OpenIffDown, ih (haside.watched hs), sightings_aside he, hopen]
      simp [he]

variable (enabled : Bool)

theorem alertsOver_some (status : AdminNotificationStatus) (xs : List Sight) :
    alertsOver enabled (some status) xs = 0 := by
  induction xs generalizing status with
  | nil => rfl
  | cons x xs ih =>
    have hquiet : x.alerts enabled (some status) = 0 := by simp [Sight.alerts]
    rw [alertsOver, hquiet, Nat.zero_add]
    cases x <;> exact ih _

theorem alertsOver_none :
    alertsOver enabled none xs = if 0 < onsets false xs ∧ enabled then 1 else 0 := by
  induction xs with
  | nil => simp [alertsOver, onsets]
  | cons x xs ih =>
    cases x with
    | off =>
      rw [alertsOver, onsets]
      simpa [Sight.alerts, Sight.status] using ih
    | healthy =>
      rw [alertsOver, onsets]
      simpa [Sight.alerts, Sight.status] using ih
    | stale =>
      rw [alertsOver, onsets, Sight.status, alertsOver_some]
      simp [Sight.alerts]

theorem alertsOver_eq_onsets_iff (status : Option AdminNotificationStatus) (xs : List Sight) :
    alertsOver enabled status xs = onsets (status = some .opened) xs ↔
      onsets (status = some .opened) xs = 0 ∨
        onsets (status = some .opened) xs = 1 ∧ enabled ∧ status = none := by
  cases status with
  | some st =>
    rw [alertsOver_some]
    constructor
    · exact fun h => .inl h.symm
    · rintro (h | ⟨_, _, h⟩)
      · exact h.symm
      · cases h
  | none =>
    have hclosed : decide ((none : Option AdminNotificationStatus) = some .opened) = false := rfl
    rw [alertsOver_none, hclosed]
    cases enabled with
    | false => simp [eq_comm]
    | true =>
      simp only [and_true]
      split <;> omega

theorem one_alert_per_outage_iff (hcfg : cfg.Reliable) {i : ℕ} {s : Fleet} (hs : Watched i s)
    (events : List (ℤ × MonitorEvent)) : OneAlertPerOutage cfg i events s ↔
      OnWhileAlerting (isOpen s i) (sightings cfg i events s) ∧
        (onsets (isOpen s i) (sightings cfg i events s) = 0 ∨
          onsets (isOpen s i) (sightings cfg i events s) = 1 ∧ cfg.adminAlertsEnabled = true ∧
            statusOf s (fingerprint i) = none) := by
  have hsent := sent_play hcfg i events s
  have hcount := alertsOver_eq_onsets_iff cfg.adminAlertsEnabled (statusOf s (fingerprint i))
    (sightings cfg i events s)
  rw [← openIffDown_iff hcfg events hs]
  constructor
  · rintro ⟨hopen, halerts⟩
    refine ⟨hopen, hcount.mp ?_⟩
    rw [halerts] at hsent
    exact (Nat.add_left_cancel hsent).symm
  · rintro ⟨hopen, honsets⟩
    refine ⟨hopen, ?_⟩
    rw [hsent, hcount.mpr honsets]
    rfl

def silentFleet : Fleet := .start oneServer 0

theorem silentFleet_watched : Watched 1 silentFleet :=
  ⟨.plain 1 "first" "node", by decide +kernel, by decide +kernel⟩

def second : ℤ := 1000000000

def beat : PushRequest :=
  ⟨"POST", "/agent/heartbeat", "now", "nonce", "signature", "", "", .ok "node"⟩

def oneOutage : List (ℤ × MonitorEvent) :=
  [(second, .evaluate), (2 * second, .heartbeat beat), (3 * second, .evaluate)]

theorem oneOutage_alerts_once : OneAlertPerOutage .standard 1 oneOutage silentFleet := by
  have hsights : sightings .standard 1 oneOutage silentFleet = [.stale, .healthy] := by
    decide +kernel
  have hclosed : isOpen silentFleet 1 = false := by decide +kernel
  refine (one_alert_per_outage_iff (fun _ => rfl) silentFleet_watched oneOutage).mpr ?_
  exact ⟨trivial, .inr ⟨rfl, rfl, by decide +kernel⟩⟩

def twoOutages : List (ℤ × MonitorEvent) := oneOutage ++ [(200 * second, .evaluate)]

def switchedOff : List (ℤ × MonitorEvent) :=
  [(second, .evaluate), (2 * second, .toggle "1"), (3 * second, .evaluate)]

/-- The second outage reopens the row and sends nothing, and a server that is switched off
during an outage keeps its open notification. -/
theorem second_outage_sends_no_alert :
    sightings .standard 1 twoOutages silentFleet = [.stale, .healthy, .stale] ∧
      sent (play .standard twoOutages silentFleet) (fingerprint 1) = 1 ∧
      ¬ OneAlertPerOutage .standard 1 twoOutages silentFleet ∧
      isOpen (play .standard switchedOff silentFleet) 1 = true ∧
      ((play .standard switchedOff silentFleet).servers.byId 1).map (fun row => row.active) =
        some false ∧
      ¬ OneAlertPerOutage .standard 1 switchedOff silentFleet := by
  have hsights : sightings .standard 1 twoOutages silentFleet = [.stale, .healthy, .stale] := by
    decide +kernel
  have hsent : sent (play .standard twoOutages silentFleet) (fingerprint 1) = 1 := by
    decide +kernel
  have hopen : isOpen (play .standard switchedOff silentFleet) 1 = true := by decide +kernel
  have hoff : ((play .standard switchedOff silentFleet).servers.byId 1).map
      (fun row => row.active) = some false := by decide +kernel
  refine ⟨hsights, hsent, ?_, hopen, hoff, ?_⟩
  · intro h
    have halerts := h.alerts
    have hclosed : isOpen silentFleet 1 = false := by decide +kernel
    revert halerts
    decide +kernel
  · intro h
    obtain ⟨row, hrow, hactive, _⟩ := (h.openIffDown.2.2.1 rfl).mp hopen
    have hrow : (play .standard switchedOff silentFleet).servers.byId 1 = some row := hrow
    rw [hrow, Option.map_some, hactive] at hoff
    cases hoff

end HealthAlerts

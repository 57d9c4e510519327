import DrFrakeVpn.ServerAdmin

/-! # The health monitor

A stale heartbeat opens a notification, and a heartbeat resolves it. The notification of a server
is one row that is used again. -/
namespace HealthMonitor

open SharedPrograms RecordTables GoValues NodeFleet Prog
open AccountWorld (AdminNotification AdminNotificationStatus)

variable (cfg : FleetSetup)

def fingerprint (server : ℕ) : String := "server:" ++ toString server ++ ":agent-heartbeat-stale"

def staleSeconds : ℤ :=
  if cfg.adminHeartbeatStaleSeconds ≤ 0 then 180 else cfg.adminHeartbeatStaleSeconds

/-- The product of the two durations wraps around. -/
def isStale (now : ℤ) (server : NodeServer) : Bool :=
  match server.agentLastHeartbeatAt with
  | none => true
  | some at' => Int.bmod (staleSeconds cfg * 1000000000) (2 ^ 64) < GoTime.sub now at'

def staleMessage (server : NodeServer) : String :=
  match server.agentLastHeartbeatAt with
  | none => "Node-agent heartbeat не поступал в допустимое окно"
  | some at' => "Последний heartbeat был " ++ cfg.formatTime at'

def staleNotification (now : ℤ) (server : NodeServer) : AdminNotification where
  id := 0
  fingerprint := fingerprint server.id
  severity := .critical
  status := .opened
  title := "VPS недоступен"
  message := staleMessage cfg server
  serverID := some server.id
  metadataJSON := "\x7b\"server_name\":" ++ cfg.quote server.name ++ ",\"region\":" ++
    cfg.quote server.region ++ ",\"endpoint\":" ++ cfg.quote server.endpoint ++
    ",\"reason\":\"stale_heartbeat\"\x7d"
  lastSeenAt := now
  acknowledgedAt := none
  acknowledgedByID := none
  mutedUntil := none
  resolvedAt := none

/-- An acknowledgement and a mute do not outlive the resolution. -/
def reopen (next : AdminNotification) (current : AdminNotificationStatus) :
    Table.Write AdminNotification where
  apply row := { row with
    severity := next.severity
    status := .opened
    title := next.title
    message := next.message
    serverID := next.serverID
    metadataJSON := next.metadataJSON
    lastSeenAt := next.lastSeenAt
    resolvedAt := none
    acknowledgedAt := if current = .resolved then none else row.acknowledgedAt
    acknowledgedByID := if current = .resolved then none else row.acknowledgedByID
    mutedUntil := if current = .resolved then none else row.mutedUntil }
  id_eq _ := rfl
  key_eq _ := rfl

def Fleet.notice (s : Fleet) (fp : String) : Option AdminNotification :=
  s.notifications.first? fun n => n.fingerprint = fp

def createNotification (next : AdminNotification) (s : Fleet) :
    Except String AdminNotification × Fleet :=
  match s.notifications.insert fun id => { next with id := id } with
  | some notifications =>
    (.ok { next with id := s.notifications.seq }, { s with notifications := notifications })
  | none => (.error cfg.constraintError, s)

/-- The zero value of `time.Time`, in nanoseconds from 1970. -/
def zeroTime : ℤ := -62135596800000000000

def nonZero (time : ℤ) : FleetProgram ℤ := if time = zeroTime then clock else pure time

/-- The stored notification, and whether the row is new. -/
def upsertAdminNotification (next : AdminNotification) :
    FleetProgram (Except String (AdminNotification × Bool)) := do
  match ← statement cfg (.findNotification next.fingerprint)
      fun s => (.ok (Fleet.notice s next.fingerprint), s) with
  | .error e => pure (.error e)
  | .ok (some current) =>
    match ← statement cfg (.updateNotification current.id) (write fun s =>
        { s with
          notifications := s.notifications.updateId current.id (reopen next current.status) }) with
    | .error e => pure (.error e)
    | .ok _ =>
      match ← statement cfg (.reloadNotification current.id)
          (firstRow fun s => s.notifications.byId current.id) with
      | .error e => pure (.error e)
      | .ok row => pure (.ok (row, false))
  | .ok none =>
    let lastSeenAt ← nonZero next.lastSeenAt
    match ← statement cfg (.createNotification next.fingerprint)
        (createNotification cfg { next with lastSeenAt := lastSeenAt }) with
    | .error e => pure (.error e)
    | .ok row => pure (.ok (row, true))

def resolved (now : ℤ) : Table.Write AdminNotification where
  apply row := { row with status := .resolved, resolvedAt := some now, lastSeenAt := now }
  id_eq _ := rfl
  key_eq _ := rfl

def resolveAdminNotification (fp : String) (now : ℤ) : FleetProgram (Except String Unit) :=
  statement cfg (.resolveNotification fp) (write fun s => { s with
    notifications := s.notifications.update (fun n => n.fingerprint = fp && n.status = .opened)
      (resolved now) })

/-- A failed delivery of the alert is only logged. -/
def sendAdminAlert (notification : AdminNotification) : FleetProgram Unit :=
  .atom (.alert notification.fingerprint) fun s =>
    ((), { s with alerts := s.alerts ++ [notification] })

def evaluateServer (now : ℤ) (server : NodeServer) : FleetProgram (Except String Unit) := do
  if !server.active || trimSpace server.agentNodeID = "" then pure (.ok ())
  else if isStale cfg now server then
    match ← upsertAdminNotification cfg (staleNotification cfg now server) with
    | .error e => pure (.error e)
    | .ok (notification, created) =>
      if created && cfg.adminAlertsEnabled then
        sendAdminAlert notification
      pure (.ok ())
  else resolveAdminNotification cfg (fingerprint server.id) now

/-- The first error ends the run. -/
def evaluateEach (now : ℤ) : List NodeServer → FleetProgram (Except String Unit)
  | [] => pure (.ok ())
  | server :: rest => do
    match ← evaluateServer cfg now server with
    | .error e => pure (.error e)
    | .ok _ => evaluateEach now rest

def evaluateAdminHealthOnce (now : ℤ) : FleetProgram (Except String Unit) := do
  match ← statement cfg .findAll fun s => (.ok s.servers.rows, s) with
  | .error e => pure (.error e)
  | .ok servers => evaluateEach cfg now servers

inductive Sight where
  | off
  | healthy
  | stale
  deriving DecidableEq, Repr

def sight (now : ℤ) (server : NodeServer) : Sight :=
  if !server.active || trimSpace server.agentNodeID = "" then .off
  else if isStale cfg now server then .stale else .healthy

def Sight.status : Sight → Option AdminNotificationStatus → Option AdminNotificationStatus
  | .off, status => status
  | .healthy, status => status.map fun _ => .resolved
  | .stale, _ => some .opened

/-- The alerts that the run sends: one if the row of the notification is new. -/
def Sight.alerts (enabled : Bool) (x : Sight) (status : Option AdminNotificationStatus) : ℕ :=
  if x = .stale ∧ status = none ∧ enabled = true then 1 else 0

def statusOf (s : Fleet) (fp : String) : Option AdminNotificationStatus :=
  (Fleet.notice s fp).map AdminNotification.status

def sent (s : Fleet) (fp : String) : ℕ := s.alerts.countP fun n => n.fingerprint = fp

variable {cfg}

theorem fingerprint_injective (h : fingerprint i = fingerprint j) : i = j := by
  unfold fingerprint at h
  have hdigits : Nat.toDigits 10 i = Nat.toDigits 10 j := by
    simpa using congrArg String.toList h
  rw [← Nat.ofDigitChars_toDigits (b := 10) (n := i) (by decide) (by decide), hdigits,
    Nat.ofDigitChars_toDigits (by decide) (by decide)]

def Restates (fp : String) (status : Option AdminNotificationStatus) (s t : Fleet) : Prop :=
  statusOf t fp = status ∧ ∀ fp', fp' ≠ fp → statusOf t fp' = statusOf s fp'

variable {s : Fleet}

theorem statusOf_update :
    statusOf { s with notifications := s.notifications.update q w } fp =
      (Fleet.notice s fp).map fun n => if q n then (w.apply n).status else n.status := by
  have hkey : ∀ n : AdminNotification, (w.apply n).fingerprint = n.fingerprint := w.key_eq
  unfold statusOf Fleet.notice
  rw [Table.first_update, Option.map_map]
  · refine Option.map_congr ?_
    intro n _
    dsimp only [Function.comp]
    split <;> rfl
  · intro n
    split
    · rw [hkey]
    · rfl

theorem reopen_restates {next current} (hcurrent : Fleet.notice s next.fingerprint = some current)
    (status : AdminNotificationStatus) :
    Restates next.fingerprint (some .opened) s { s with
      notifications := s.notifications.updateId current.id (reopen next status) } := by
  obtain ⟨hmem, hfp⟩ := s.notifications.first_some hcurrent
  constructor
  · rw [Table.updateId, statusOf_update, hcurrent]
    simp [reopen, Record.id]
  · intro fp' hne
    rw [Table.updateId, statusOf_update, statusOf]
    refine Option.map_congr ?_
    intro n hn
    obtain ⟨hmem', hfp'⟩ := s.notifications.first_some hn
    have hid : ¬ Record.id n = current.id := by
      intro hid
      have hsame : n = current := s.notifications.id_injective hmem' hmem hid
      subst hsame
      exact hne ((of_decide_eq_true hfp').symm.trans (of_decide_eq_true hfp))
    simp [hid]

theorem resolve_restates (s : Fleet) (fp : String) (now : ℤ) :
    Restates fp ((statusOf s fp).map fun _ => .resolved) s { s with
      notifications := s.notifications.update (fun n => n.fingerprint = fp && n.status = .opened)
        (resolved now) } := by
  constructor
  · rw [statusOf_update, statusOf, Option.map_map]
    refine Option.map_congr ?_
    intro n hn
    obtain ⟨_, hfp⟩ := s.notifications.first_some hn
    cases hstatus : n.status <;> simp [hfp, resolved]
  · intro fp' hne
    rw [statusOf_update, statusOf]
    refine Option.map_congr ?_
    intro n hn
    obtain ⟨_, hfp⟩ := s.notifications.first_some hn
    have hfp : n.fingerprint = fp' := of_decide_eq_true hfp
    simp [hfp, hne]

theorem create_restates (cfg : FleetSetup) (next : AdminNotification)
    (hstatus : next.status = .opened) (hnone : Fleet.notice s next.fingerprint = none) :
    ∃ t row, createNotification cfg next s = (.ok row, t) ∧ row.fingerprint = next.fingerprint ∧
      t = { s with notifications := t.notifications } ∧
      Restates next.fingerprint (some .opened) s t := by
  have hnew : ∀ b ∈ s.notifications.rows, Record.key b ≠ next.fingerprint := by
    intro b hb
    exact of_decide_eq_false (s.notifications.first_none hnone b hb)
  obtain ⟨u, hu⟩ : ∃ u, s.notifications.insert (fun id => { next with id := id }) = some u :=
    s.notifications.insert_isSome rfl hnew
  obtain ⟨hrows, _, _⟩ := s.notifications.insert_some hu
  refine ⟨{ s with notifications := u }, { next with id := s.notifications.seq }, ?_,
    rfl, rfl, ?_, ?_⟩
  · unfold createNotification
    rw [hu]
  · have hold : s.notifications.rows.find? (fun n => n.fingerprint = next.fingerprint) = none :=
      hnone
    simp [statusOf, Fleet.notice, Table.first?, hrows, hold, hstatus]
  · intro fp' hne
    simp [statusOf, Fleet.notice, Table.first?, hrows, Ne.symm hne]

theorem upsert_run (hcfg : cfg.Reliable) (next : AdminNotification)
    (hstatus : next.status = .opened) (s : Fleet) :
    ∃ t row, (upsertAdminNotification cfg next).run s =
        (.ok (row, (Fleet.notice s next.fingerprint).isNone), t) ∧
      row.fingerprint = next.fingerprint ∧ t = { s with notifications := t.notifications } ∧
      Restates next.fingerprint (some .opened) s t := by
  unfold upsertAdminNotification
  simp only [bind_eq, run_bind, statement_run hcfg]
  cases hcurrent : Fleet.notice s next.fingerprint with
  | none =>
    obtain ⟨seen, hseen⟩ : ∃ seen, (nonZero next.lastSeenAt).run s = (seen, s) := by
      unfold nonZero
      split <;> exact ⟨_, rfl⟩
    obtain ⟨t, row, hrun, hfp, ht, hrestates⟩ :=
      create_restates cfg { next with lastSeenAt := seen } hstatus hcurrent
    refine ⟨t, row, ?_, hfp, ht, hrestates⟩
    simp only [run_bind, statement_run hcfg, hseen, hrun]
    rfl
  | some current =>
    obtain ⟨hmem, hfp⟩ := s.notifications.first_some hcurrent
    have hrow : s.notifications.byId current.id = some current :=
      s.notifications.byId_some_iff.mpr ⟨hmem, rfl⟩
    refine ⟨_, (reopen next current.status).apply current, ?_, of_decide_eq_true hfp, ?_,
      reopen_restates hcurrent current.status⟩
    · simp only [Prog.run_bind, statement_run hcfg, write, firstRow, Table.byId_updateId, hrow,
        if_true, Option.map_some]
      rfl
    · rfl

structure Looked (cfg : FleetSetup) (x : Sight) (fp : String) (s t : Fleet) : Prop where
  servers : t.servers = s.servers
  own : statusOf t fp = x.status (statusOf s fp)
  ownSent : sent t fp = sent s fp + x.alerts cfg.adminAlertsEnabled (statusOf s fp)
  others : ∀ fp', fp' ≠ fp → statusOf t fp' = statusOf s fp'
  othersSent : ∀ fp', fp' ≠ fp → sent t fp' = sent s fp'

theorem Restates.looked {x fp t} (h : Restates fp (x.status (statusOf s fp)) s t)
    (ht : t = { s with notifications := t.notifications })
    (hsent : x.alerts cfg.adminAlertsEnabled (statusOf s fp) = 0) : Looked cfg x fp s t := by
  have hservers : t.servers = s.servers := by rw [ht]
  have halerts : t.alerts = s.alerts := by rw [ht]
  refine ⟨hservers, h.1, ?_, h.2, ?_⟩
  · rw [hsent, sent, halerts]
    rfl
  · intro fp' _
    rw [sent, halerts]
    rfl

theorem Restates.looked_alert {x fp t} (h : Restates fp (x.status (statusOf s fp)) s t)
    (ht : t = { s with notifications := t.notifications })
    (hsent : x.alerts cfg.adminAlertsEnabled (statusOf s fp) = 1) {n} (hn : n.fingerprint = fp) :
    Looked cfg x fp s { t with alerts := t.alerts ++ [n] } := by
  have hservers : t.servers = s.servers := by rw [ht]
  have halerts : t.alerts = s.alerts := by rw [ht]
  refine ⟨hservers, h.1, ?_, h.2, ?_⟩
  · rw [hsent, sent, sent, List.countP_append, halerts]
    simp [hn]
  · intro fp' hne
    rw [sent, sent, List.countP_append, halerts]
    simp [hn, Ne.symm hne]

theorem evaluateServer_run (hcfg : cfg.Reliable) (now : ℤ) (server : NodeServer) (s : Fleet) :
    ∃ t, (evaluateServer cfg now server).run s = (.ok (), t) ∧
      Looked cfg (sight cfg now server) (fingerprint server.id) s t := by
  unfold evaluateServer sight
  split
  · refine ⟨s, rfl, rfl, rfl, ?_, fun _ _ => rfl, fun _ _ => rfl⟩
    simp [Sight.alerts]
  · split
    · obtain ⟨t, row, hrun, hfp, ht, hrestates⟩ :=
        upsert_run hcfg (staleNotification cfg now server) rfl s
      have hnone : (Fleet.notice s (fingerprint server.id)).isNone ↔
          statusOf s (fingerprint server.id) = none := by
        rw [statusOf, Option.map_eq_none_iff, Option.isNone_iff_eq_none]
      simp only [bind_eq, Prog.run_bind, hrun]
      split
      · next hcreated =>
        obtain ⟨hnew, henabled⟩ := (Bool.and_eq_true _ _).mp hcreated
        refine ⟨{ t with alerts := t.alerts ++ [row] }, rfl, ?_⟩
        refine hrestates.looked_alert ht ?_ hfp
        exact if_pos ⟨rfl, hnone.mp hnew, henabled⟩
      · next hcreated =>
        refine ⟨t, rfl, hrestates.looked ht ?_⟩
        refine if_neg ?_
        rintro ⟨_, hnew, henabled⟩
        exact hcreated ((Bool.and_eq_true _ _).mpr ⟨hnone.mpr hnew, henabled⟩)
    · unfold resolveAdminNotification
      rw [statement_run hcfg]
      refine ⟨_, rfl, (resolve_restates s _ now).looked rfl ?_⟩
      simp [Sight.alerts]

structure Monitored (cfg : FleetSetup) (x : Sight) (fp : String) (s t : Fleet) : Prop where
  servers : t.servers = s.servers
  status : statusOf t fp = x.status (statusOf s fp)
  sent : sent t fp = sent s fp + x.alerts cfg.adminAlertsEnabled (statusOf s fp)

/-- A server that is not in the list is as one that is off. -/
def sightIn (cfg : FleetSetup) (now : ℤ) (i : ℕ) (rows : List NodeServer) : Sight :=
  match rows.find? fun row => row.id = i with
  | some row => sight cfg now row
  | none => .off

theorem Monitored.refl (cfg : FleetSetup) (fp : String) (s : Fleet) : Monitored cfg .off fp s s :=
  ⟨rfl, rfl, by simp [Sight.alerts]⟩

theorem evaluateEach_run (hcfg : cfg.Reliable) (now : ℤ) (i : ℕ) {rows}
    (hids : rows.Pairwise fun a b => a.id ≠ b.id) (s : Fleet) :
    ∃ t, (evaluateEach cfg now rows).run s = (.ok (), t) ∧
      Monitored cfg (sightIn cfg now i rows) (fingerprint i) s t := by
  induction rows generalizing s with
  | nil => exact ⟨s, rfl, .refl cfg _ s⟩
  | cons row rows ih =>
    obtain ⟨hrow, hrows⟩ := List.pairwise_cons.mp hids
    obtain ⟨t, hrun, hlooked⟩ := evaluateServer_run hcfg now row s
    obtain ⟨u, hrest, hmonitored⟩ := ih hrows t
    refine ⟨u, ?_, ?_⟩
    · unfold evaluateEach
      simp only [bind_eq, Prog.run_bind, hrun]
      exact hrest
    · have hservers : u.servers = s.servers := hmonitored.servers.trans hlooked.servers
      by_cases hi : row.id = i
      · -- no later row has the id, so the rest of the run leaves the notification alone
        subst hi
        have hlater : sightIn cfg now row.id rows = .off := by
          have hnone : rows.find? (fun r => r.id = row.id) = none := by
            refine List.find?_eq_none.mpr ?_
            intro r hr
            simpa using Ne.symm (hrow r hr)
          rw [sightIn, hnone]
        have hown : sightIn cfg now row.id (row :: rows) = sight cfg now row := by
          simp [sightIn]
        rw [hlater] at hmonitored
        rw [hown]
        refine ⟨hservers, ?_, ?_⟩
        · rw [hmonitored.status, hlooked.own]
          rfl
        · rw [hmonitored.sent, hlooked.ownSent]
          simp [Sight.alerts]
      · have hskip : sightIn cfg now i (row :: rows) = sightIn cfg now i rows := by
          simp [sightIn, hi]
        have hne : fingerprint i ≠ fingerprint row.id := fun h => hi (fingerprint_injective h).symm
        rw [hskip]
        refine ⟨hservers, ?_, ?_⟩
        · rw [hmonitored.status, hlooked.others _ hne]
        · rw [hmonitored.sent, hlooked.othersSent _ hne, hlooked.others _ hne]

theorem evaluate_run (hcfg : cfg.Reliable) (now : ℤ) (i : ℕ) (s : Fleet) :
    Monitored cfg (sightIn cfg now i s.servers.rows) (fingerprint i) s
      ((evaluateAdminHealthOnce cfg now).run s).2 := by
  have hids := s.servers.valid.1.imp fun h => Nat.ne_of_lt h
  obtain ⟨t, hrun, hmonitored⟩ := evaluateEach_run hcfg now i hids s
  unfold evaluateAdminHealthOnce
  simp only [bind_eq, Prog.run_bind, statement_run hcfg, hrun]
  exact hmonitored

end HealthMonitor

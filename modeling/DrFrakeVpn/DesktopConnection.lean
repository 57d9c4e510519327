import DrFrakeVpn.EventLoops

/-! # The connection object of the desktop client

The slots of `VpnConnection` are posted to its thread, and its timers fire there. What a protocol
does during `start()` and `stop()` is left to an implementation. -/
namespace DesktopConnection

open SharedPrograms Prog

inductive ConnectionState where
  | unknown
  | disconnected
  | preparing
  | connecting
  | connected
  | disconnecting
  | reconnecting
  | error
  deriving DecidableEq, Repr

/-- The states in which the object of a previous connection has to be waited for. -/
def ConnectionState.Live (st : ConnectionState) : Bool :=
  st = .connecting ∨ st = .connected ∨ st = .reconnecting ∨ st = .disconnecting

def ConnectionState.Terminal (st : ConnectionState) : Bool :=
  st = .disconnected ∨ st = .error ∨ st = .unknown

def ConnectionState.Underway (st : ConnectionState) : Bool :=
  st = .preparing ∨ st = .connecting ∨ st = .reconnecting

/-- What a call of `connectToVpn` carries. `supported` tells whether the factory knows the
container, `wireGuard` whether it is one of AWG or WireGuard; the configuration is empty, or has
the host, the DNS servers and the snapshots of the settings for the kill switch. -/
structure ConnectRequest where
  serverIndex : ℤ
  credentialsHost : String
  supported : Bool
  xrayBased : Bool
  wireGuard : Bool
  managedRouting : Bool
  emptyConfiguration : Bool
  hostName : String
  killSwitchOption : Option String
  dns1 : String
  dns2 : String
  allowedDnsServers : List (Option String)
  deriving DecidableEq, Repr

/-- `attached` tells whether the state signal is connected to the connection object, and
`active` whether `start()` was called and no `stop()` has ended since. -/
structure Protocol where
  id : ℕ
  request : ConnectRequest
  state : ConnectionState
  attached : Bool
  active : Bool
  deriving DecidableEq, Repr

/-- The calls that are posted to the thread: the slots and queued lambdas, and the state
signals with the object that emitted them. -/
inductive Posted where
  | connectToVpn (request : ConnectRequest)
  | disconnectFromVpn (byUser : Bool)
  | reconnectToVpn
  | startNewConnection
  | connectAgain
  | signal (source : ℕ) (state : ConnectionState)
  deriving DecidableEq, Repr

/-- `clock` counts milliseconds, `epoch` is the wall clock in seconds. `rest` is what the
protocols act on. -/
structure World (ρ : Type) where
  state : ConnectionState
  current : Option ℕ
  objects : List Protocol
  nextId : ℕ
  queue : List Posted
  stateWatchdog : Bool
  recoveryTimer : Bool
  switchWatchdog : Bool
  graceTimers : ℕ
  shutdownConn : Option ℕ
  recoveryAttempts : ℕ
  failureBurst : ℕ
  failureWindowStartedAt : ℤ
  safeModeUntil : ℤ
  disconnectElapsed : Option ℤ
  last : Option ConnectRequest
  reconnectScheduled : Bool
  userRequestedDisconnect : Bool
  protocolStartInProgress : Bool
  connectRequestedDuringStart : Bool
  crashed : Bool
  clock : ℤ
  epoch : ℤ
  enabledProfiles : ℕ
  rest : ρ
  deriving DecidableEq, Repr

/-- The labels that later statements speak of; `inner` are the steps of a protocol. -/
inductive Act (κ : Type) where
  | handle
  | detach (i : ℕ)
  | drop (new : Option ℕ)
  | dead (i : ℕ)
  | started
  | emit (i : ℕ) (state : ConnectionState)
  | inner (l : κ)
  deriving DecidableEq, Repr

/-- What `start()` and `stop()` of a protocol object do; `start()` answers whether it failed. -/
structure Implementation (ρ κ : Type) where
  start : ℕ → Prog (World ρ) (Act κ) Bool
  stop : ℕ → Prog (World ρ) (Act κ) Unit

variable (s : World ρ)

namespace World

variable {ρ : Type}

def start (rest : ρ) (clock epoch safeModeUntil : ℤ) (enabledProfiles : ℕ) : World ρ where
  state := .disconnected
  current := none
  objects := []
  nextId := 0
  queue := []
  stateWatchdog := false
  recoveryTimer := false
  switchWatchdog := false
  graceTimers := 0
  shutdownConn := none
  recoveryAttempts := 0
  failureBurst := 0
  failureWindowStartedAt := 0
  safeModeUntil := safeModeUntil
  disconnectElapsed := none
  last := none
  reconnectScheduled := false
  userRequestedDisconnect := false
  protocolStartInProgress := false
  connectRequestedDuringStart := false
  crashed := false
  clock := clock
  epoch := epoch
  enabledProfiles := enabledProfiles
  rest := rest

def object? (s : World ρ) (i : ℕ) : Option Protocol := s.objects.find? fun p => p.id = i

def currentObject (s : World ρ) : Option Protocol := s.current.bind s.object?

def updateObject (s : World ρ) (i : ℕ) (f : Protocol → Protocol) : World ρ :=
  { s with objects := s.objects.map fun p => if p.id = i then f p else p }

def post (s : World ρ) (call : Posted) : World ρ := { s with queue := s.queue ++ [call] }

def clearRecoveryState (s : World ρ) : World ρ :=
  { s with recoveryTimer := false, reconnectScheduled := false }

def armStateWatchdog (s : World ρ) (st : ConnectionState) : World ρ :=
  { s with stateWatchdog := st.Underway || st = .disconnecting }

def scheduleRecoveryReconnect (s : World ρ) : World ρ :=
  if s.epoch < s.safeModeUntil then s
  else if s.reconnectScheduled ∨ 2 ≤ s.recoveryAttempts then s
  else match s.last with
    | none => s
    | some request =>
      if request.serverIndex < 0 ∨ request.credentialsHost = "" ∨ request.emptyConfiguration then s
      else
        { s with
          recoveryAttempts := s.recoveryAttempts + 1
          reconnectScheduled := true
          recoveryTimer := true }

def registerFailureAndMaybeEnterSafeMode (s : World ρ) : World ρ :=
  let opened := if s.failureWindowStartedAt = 0 ∨ 180 < s.epoch - s.failureWindowStartedAt
    then { s with failureWindowStartedAt := s.epoch, failureBurst := 0 } else s
  let counted := { opened with failureBurst := opened.failureBurst + 1 }
  if counted.failureBurst < 3 then counted
  else
    { counted.clearRecoveryState with
      safeModeUntil := s.epoch + 1800
      recoveryAttempts := 0
      failureBurst := 0
      failureWindowStartedAt := 0 }

def afterChange (s : World ρ) (previous st : ConnectionState) : World ρ :=
  if st = .connected then
    { s.clearRecoveryState with
      recoveryAttempts := 0
      failureBurst := 0
      failureWindowStartedAt := 0
      userRequestedDisconnect := false }
  else if st = .error ∨ (st = .disconnected ∧ previous.Underway) then
    let failed := s.registerFailureAndMaybeEnterSafeMode
    if failed.userRequestedDisconnect then failed else failed.scheduleRecoveryReconnect
  else if st = .disconnected ∧ previous = .disconnecting then
    { s.clearRecoveryState with userRequestedDisconnect := false }
  else s

/-- A protocol that reports its end while the connection is being renewed changes nothing. -/
def setConnectionState (s : World ρ) (st : ConnectionState) : World ρ :=
  if st = .disconnected ∧ s.state = .reconnecting then s
  else ({ s with state := st }.armStateWatchdog st).afterChange s.state st

/-- The slot of the state signal. On the way to Connected it asks the object that is held for its
gateway, unless the tunnel is one of WireGuard. -/
def onSignal (s : World ρ) (st : ConnectionState) : World ρ :=
  if st = .connected ∧ s.state ≠ .connected ∧ s.current = none ∧
      s.last.all (!·.wireGuard) = true then { s with crashed := true }
  else s.setConnectionState st

theorem onSignal_cases (s : World ρ) (st : ConnectionState) :
    s.onSignal st = s.setConnectionState st ∨
      st = .connected ∧ s.state ≠ .connected ∧ s.onSignal st = { s with crashed := true } := by
  unfold onSignal
  split
  · rename_i h
    exact .inr ⟨h.1, h.2.1, rfl⟩
  · exact .inl rfl

def detached (s : World ρ) (i : ℕ) : World ρ :=
  { s.updateObject i fun p => { p with attached := false } with
    shutdownConn := if s.shutdownConn = some i then none else s.shutdownConn }

def startAnnounced (s : World ρ) (i : ℕ) : World ρ :=
  { s.updateObject i fun p => { p with attached := true } with protocolStartInProgress := true }

/-- The object is gone, and with it its connections. -/
def without (s : World ρ) (i : ℕ) : World ρ :=
  { s with
    objects := s.objects.filter fun p => p.id ≠ i
    shutdownConn := if s.shutdownConn = some i then none else s.shutdownConn }

/-- The managed routing rules that the settings ask for are not in the configuration. -/
def hasMissingManagedRoutingRules (s : World ρ) (request : ConnectRequest) : Bool :=
  request.xrayBased && !request.managedRouting && 0 < s.enabledProfiles

structure SameElsewhere (s s' : World ρ) : Prop where
  current : s'.current = s.current
  objects : s'.objects = s.objects
  nextId : s'.nextId = s.nextId
  queue : s'.queue = s.queue
  switchWatchdog : s'.switchWatchdog = s.switchWatchdog
  graceTimers : s'.graceTimers = s.graceTimers
  shutdownConn : s'.shutdownConn = s.shutdownConn
  last : s'.last = s.last
  protocolStartInProgress : s'.protocolStartInProgress = s.protocolStartInProgress
  connectRequestedDuringStart : s'.connectRequestedDuringStart = s.connectRequestedDuringStart
  rest : s'.rest = s.rest

theorem SameElsewhere.refl : SameElsewhere s s :=
  ⟨rfl, rfl, rfl, rfl, rfl, rfl, rfl, rfl, rfl, rfl, rfl⟩

theorem scheduleRecoveryReconnect_same : SameElsewhere s s.scheduleRecoveryReconnect := by
  unfold scheduleRecoveryReconnect
  split
  · exact .refl s
  split
  · exact .refl s
  split
  · exact .refl s
  · split
    · exact .refl s
    · exact ⟨rfl, rfl, rfl, rfl, rfl, rfl, rfl, rfl, rfl, rfl, rfl⟩

theorem registerFailure_same : SameElsewhere s s.registerFailureAndMaybeEnterSafeMode := by
  unfold registerFailureAndMaybeEnterSafeMode
  by_cases hwindow : s.failureWindowStartedAt = 0 ∨ 180 < s.epoch - s.failureWindowStartedAt
  · simp only [hwindow, if_true]
    split <;> exact ⟨rfl, rfl, rfl, rfl, rfl, rfl, rfl, rfl, rfl, rfl, rfl⟩
  · simp only [hwindow, if_false]
    split <;> exact ⟨rfl, rfl, rfl, rfl, rfl, rfl, rfl, rfl, rfl, rfl, rfl⟩

theorem SameElsewhere.trans {s t u : World ρ} (h : SameElsewhere s t) (h' : SameElsewhere t u) :
    SameElsewhere s u where
  current := h'.current.trans h.current
  objects := h'.objects.trans h.objects
  nextId := h'.nextId.trans h.nextId
  queue := h'.queue.trans h.queue
  switchWatchdog := h'.switchWatchdog.trans h.switchWatchdog
  graceTimers := h'.graceTimers.trans h.graceTimers
  shutdownConn := h'.shutdownConn.trans h.shutdownConn
  last := h'.last.trans h.last
  protocolStartInProgress := h'.protocolStartInProgress.trans h.protocolStartInProgress
  connectRequestedDuringStart :=
    h'.connectRequestedDuringStart.trans h.connectRequestedDuringStart
  rest := h'.rest.trans h.rest

theorem afterChange_same :
    SameElsewhere s (s.afterChange previous st) := by
  unfold afterChange
  split
  · exact ⟨rfl, rfl, rfl, rfl, rfl, rfl, rfl, rfl, rfl, rfl, rfl⟩
  split
  · dsimp only
    split
    · exact registerFailure_same s
    · exact (registerFailure_same s).trans (scheduleRecoveryReconnect_same _)
  · split
    · exact ⟨rfl, rfl, rfl, rfl, rfl, rfl, rfl, rfl, rfl, rfl, rfl⟩
    · exact .refl s

variable (st : ConnectionState)

theorem setConnectionState_same : SameElsewhere s (s.setConnectionState st) := by
  unfold setConnectionState
  split
  · exact .refl s
  · refine SameElsewhere.trans ?_
      (afterChange_same _)
    exact ⟨rfl, rfl, rfl, rfl, rfl, rfl, rfl, rfl, rfl, rfl, rfl⟩

@[simp] theorem setConnectionState_current : (s.setConnectionState st).current = s.current :=
  (s.setConnectionState_same st).current

@[simp] theorem setConnectionState_objects : (s.setConnectionState st).objects = s.objects :=
  (s.setConnectionState_same st).objects

@[simp] theorem setConnectionState_nextId : (s.setConnectionState st).nextId = s.nextId :=
  (s.setConnectionState_same st).nextId

@[simp] theorem setConnectionState_queue : (s.setConnectionState st).queue = s.queue :=
  (s.setConnectionState_same st).queue

@[simp] theorem setConnectionState_switchWatchdog :
    (s.setConnectionState st).switchWatchdog = s.switchWatchdog :=
  (s.setConnectionState_same st).switchWatchdog

@[simp] theorem setConnectionState_graceTimers :
    (s.setConnectionState st).graceTimers = s.graceTimers :=
  (s.setConnectionState_same st).graceTimers

@[simp] theorem setConnectionState_shutdownConn :
    (s.setConnectionState st).shutdownConn = s.shutdownConn :=
  (s.setConnectionState_same st).shutdownConn

@[simp] theorem setConnectionState_last : (s.setConnectionState st).last = s.last :=
  (s.setConnectionState_same st).last

@[simp] theorem setConnectionState_start :
    (s.setConnectionState st).protocolStartInProgress = s.protocolStartInProgress :=
  (s.setConnectionState_same st).protocolStartInProgress

@[simp] theorem setConnectionState_requested :
    (s.setConnectionState st).connectRequestedDuringStart = s.connectRequestedDuringStart :=
  (s.setConnectionState_same st).connectRequestedDuringStart

theorem setConnectionState_connecting : s.setConnectionState .connecting =
    { s with state := .connecting, stateWatchdog := true } := rfl

/-- A failure is counted; with the flag of the user set, no recovery is scheduled. -/
structure Failed (s s' : World ρ) : Prop where
  state : s'.state = s.state
  stateWatchdog : s'.stateWatchdog = s.stateWatchdog
  userRequestedDisconnect : s'.userRequestedDisconnect = s.userRequestedDisconnect
  recoveryTimer : s.recoveryTimer = false → s'.recoveryTimer = false

theorem registerFailure_failed : Failed s s.registerFailureAndMaybeEnterSafeMode := by
  unfold registerFailureAndMaybeEnterSafeMode
  by_cases hwindow : s.failureWindowStartedAt = 0 ∨ 180 < s.epoch - s.failureWindowStartedAt
  · simp only [hwindow, if_true]
    split
    · exact ⟨rfl, rfl, rfl, id⟩
    · exact ⟨rfl, rfl, rfl, fun _ => rfl⟩
  · simp only [hwindow, if_false]
    split
    · exact ⟨rfl, rfl, rfl, id⟩
    · exact ⟨rfl, rfl, rfl, fun _ => rfl⟩

theorem scheduleRecoveryReconnect_state :
    s.scheduleRecoveryReconnect.state = s.state ∧
      s.scheduleRecoveryReconnect.userRequestedDisconnect = s.userRequestedDisconnect := by
  unfold scheduleRecoveryReconnect
  split
  · exact ⟨rfl, rfl⟩
  split
  · exact ⟨rfl, rfl⟩
  · split
    · exact ⟨rfl, rfl⟩
    · split <;> exact ⟨rfl, rfl⟩

theorem setConnectionState_state :
    (s.setConnectionState st).state =
      if st = .disconnected ∧ s.state = .reconnecting then .reconnecting else st := by
  unfold setConnectionState
  split
  · rename_i h
    exact h.2
  · unfold afterChange
    split
    · rfl
    split
    · dsimp only
      split
      · exact (registerFailure_failed _).state
      · exact (scheduleRecoveryReconnect_state _).1.trans (registerFailure_failed _).state
    · split <;> rfl

theorem setConnectionState_error {s : World ρ} (hasked : s.userRequestedDisconnect) :
    Failed { s with state := .error, stateWatchdog := false } (s.setConnectionState .error) := by
  have hfailed := registerFailure_failed { s with state := .error, stateWatchdog := false }
  have hflag := hfailed.userRequestedDisconnect.trans hasked
  have heq : s.setConnectionState .error =
      { s with state := .error, stateWatchdog := false }.registerFailureAndMaybeEnterSafeMode := by
    simp [setConnectionState, afterChange, armStateWatchdog, ConnectionState.Underway, hflag]
  rw [heq]
  exact hfailed

theorem setConnectionState_disconnected {s : World ρ} (hrecovery : s.recoveryTimer = false)
    (h : s.userRequestedDisconnect ∨ s.state.Underway = false) :
    (s.setConnectionState .disconnected).recoveryTimer = false := by
  unfold setConnectionState
  split
  · exact hrecovery
  unfold afterChange
  split
  · rfl
  split
  · rename_i hfailure
    rcases hfailure with herror | ⟨-, hunderway⟩
    · cases herror
    have hasked : s.userRequestedDisconnect := by
      rcases h with h | h
      · exact h
      · rw [h] at hunderway
        cases hunderway
    have hfailed := registerFailure_failed ({ s with state := .disconnected }.armStateWatchdog
      .disconnected)
    rw [if_pos (hfailed.userRequestedDisconnect.trans hasked)]
    exact hfailed.recoveryTimer hrecovery
  · split
    · rfl
    · exact hrecovery

end World

section handlers

variable {ρ κ : Type}

abbrev Client (ρ κ : Type) := Prog (World ρ) (Act κ)

def step {α : Type} (f : World ρ → α × World ρ) : Client ρ κ α := .atom .handle f

def change (f : World ρ → World ρ) : Client ρ κ Unit := step fun s => ((), f s)

def detach (i : ℕ) : Client ρ κ Unit := .atom (.detach i) fun s => ((), s.detached i)

variable (impl : Implementation ρ κ)

/-- The destructor of a protocol object stops it. Those of Xray and WireGuard leave out an object
that is disconnected. -/
def destroy (i : ℕ) : Client ρ κ Unit := do
  let stopped ← step fun s => ((s.object? i).all fun p =>
    p.state = .disconnected && (p.request.xrayBased || p.request.wireGuard), s)
  let _ ← (if stopped then pure () else impl.stop i)
  .atom (.dead i) fun s => ((), s.without i)

/-- `m_vpnProtocol` is set to an object or to none, and the object that it held before dies. -/
def replaceProtocol (new : Option ℕ) : Client ρ κ Unit := do
  let old ← .atom (.drop new) fun s => (s.current, { s with current := new })
  match old with
  | none => pure ()
  | some i => destroy impl i

def dropProtocol : Client ρ κ Unit := replaceProtocol impl none

/-- `VpnProtocol::setConnectionState` of an object. A queued signal is posted to the
connection, and the handler that waits for the shutdown of the object runs at once. -/
def setProtocolState (i : ℕ) (st : ConnectionState) : Client ρ κ Unit := do
  let ended ← .atom (.emit i st) fun s =>
    match s.object? i with
    | none => (false, s)
    | some p =>
      if p.state = st ∨ (p.state = .disconnected ∧ st = .disconnecting) then (false, s)
      else
        let changed := s.updateObject i fun p => { p with state := st }
        let posted := if p.attached then changed.post (.signal i st) else changed
        if s.shutdownConn = some i ∧ st.Terminal then
          (true, { posted with shutdownConn := none, switchWatchdog := false })
        else (false, posted)
  if ended then do
    dropProtocol impl
    change fun s => s.post .startNewConnection
  else pure ()

def afterStart (failed : Bool) (s : World ρ) : World ρ :=
  let s := { s with protocolStartInProgress := false }
  if s.userRequestedDisconnect then s.post (.disconnectFromVpn false)
  else if s.connectRequestedDuringStart then
    { s with connectRequestedDuringStart := false }.post .connectAgain
  else if failed then s.setConnectionState .error
  else if s.state.Underway then s.armStateWatchdog s.state
  else s

def startChecks (request : ConnectRequest) (s : World ρ) : Bool × World ρ :=
  let s := if s.state = .connecting then s else s.setConnectionState .connecting
  if s.hasMissingManagedRoutingRules request then (false, s.setConnectionState .error)
  else (true, s)

/-- `VpnProtocol::factory`. -/
def factory (request : ConnectRequest) (s : World ρ) : Option ℕ × World ρ :=
  if request.supported then
    (some s.nextId,
      { s with
        nextId := s.nextId + 1
        objects := s.objects ++ [⟨s.nextId, request, .unknown, false, false⟩] })
  else (none, s)

/-- `createProtocolConnections` for the object that is held, and the start is announced. -/
def createProtocolConnections (s : World ρ) : Option ℕ × World ρ :=
  match s.current with
  | none => (none, s.setConnectionState .error)
  | some i => (some i, s.startAnnounced i)

def startNewConnection (request : ConnectRequest) : Client ρ κ Unit := do
  let allowed ← step (startChecks request)
  if allowed then do
    -- the factory makes the new object before the old one dies
    let made ← step (factory request)
    replaceProtocol impl made
    let held ← step createProtocolConnections
    match held with
    | none => pure ()
    | some i => do
      let failed ← impl.start i
      .atom .started fun s => ((), afterStart failed s)
  else pure ()

inductive Switch where
  | queued
  | wait (i : ℕ)
  | discard (i : ℕ)
  | fresh

def graceWindow (s : World ρ) : Bool × World ρ :=
  match s.current, s.disconnectElapsed with
  | none, some t =>
    if 0 ≤ s.clock - t ∧ s.clock - t < 6000 then
      (false, { s with disconnectElapsed := none, graceTimers := s.graceTimers + 1 })
    else (true, s)
  | _, _ => (true, s)

def startOrDefer (request : ConnectRequest) : Client ρ κ Unit := do
  let now ← step graceWindow
  if now then startNewConnection impl request else pure ()

def connectChecks (request : ConnectRequest) (s : World ρ) : Switch × World ρ :=
  let s := if s.reconnectScheduled then s else s.clearRecoveryState
  let s := { s with
    reconnectScheduled := false
    userRequestedDisconnect := false
    last := some request }
  if s.protocolStartInProgress then (.queued, { s with connectRequestedDuringStart := true })
  else
    let s := s.setConnectionState .connecting
    match s.currentObject with
    | none => (.fresh, s)
    | some p => (if p.state.Live then .wait p.id else .discard p.id, s)

def connectToVpn (request : ConnectRequest) : Client ρ κ Unit := do
  let next ← step (connectChecks request)
  match next with
  | .queued => pure ()
  | .fresh => startOrDefer impl request
  | .wait i => do
    detach i
    change fun s => { s with shutdownConn := some i, switchWatchdog := true }
    impl.stop i
  | .discard i => do
    detach i
    dropProtocol impl
    startOrDefer impl request

def withLast (f : ConnectRequest → Client ρ κ Unit) : Client ρ κ Unit := do
  let last ← step fun s => (s.last, s)
  match last with
  | none => pure ()
  | some request => f request

def disconnectChecks (s : World ρ) : Option ℕ × World ρ :=
  let s := { s.clearRecoveryState with
    userRequestedDisconnect := true
    connectRequestedDuringStart := false
    disconnectElapsed := some s.clock
    switchWatchdog := false
    shutdownConn := none }
  if s.protocolStartInProgress then (none, s.setConnectionState .disconnecting)
  else match s.current with
    | none => (none, s.setConnectionState .disconnected)
    | some i => (some i, s.setConnectionState .disconnecting)

def disconnectFromVpn : Client ρ κ Unit := do
  let held ← step disconnectChecks
  match held with
  | none => pure ()
  | some i => do
    detach i
    impl.stop i
    dropProtocol impl
    change fun s => s.setConnectionState .disconnected

def reconnectChecks (s : World ρ) : Option ℕ × World ρ :=
  match s.currentObject with
  | none => (none, s)
  | some p =>
    if s.shutdownConn.isSome ∨ p.state = .disconnecting then (none, s)
    else if s.state = .connected ∨ s.state = .reconnecting then
      (some p.id, s.setConnectionState .reconnecting)
    else (none, s)

/-- The second call goes to whatever object is held by then, and to no object at all if a
call that was handled during the first one has dropped it. -/
def reconnectToVpn : Client ρ κ Unit := do
  let held ← step reconnectChecks
  match held with
  | none => pure ()
  | some i => do
    impl.stop i
    let again ← step fun s =>
      (s.current, if s.current.isNone then { s with crashed := true } else s)
    match again with
    | none => pure ()
    | some j => do
      let failed ← impl.start j
      change fun s => if failed then s.setConnectionState .error else s

def watchdogChecks (s : World ρ) : Option (Option ℕ) × World ρ :=
  if s.protocolStartInProgress then (none, { s with stateWatchdog := true })
  else if s.state = .disconnecting then (none, s.setConnectionState .disconnected)
  else if s.state.Underway then (some s.current, s)
  else (none, s)

def handleStateWatchdogTimeout : Client ρ κ Unit := do
  let held ← step watchdogChecks
  match held with
  | none => pure ()
  | some none => change fun s => s.setConnectionState .error
  | some (some i) => do
    impl.stop i
    dropProtocol impl
    change fun s => s.setConnectionState .error

def release : Option ℕ → Client ρ κ Unit
  | none => pure ()
  | some i => do
    detach i
    dropProtocol impl

def handleSwitchWatchdogTimeout : Client ρ κ Unit := do
  let asked ← step fun s => (s.userRequestedDisconnect, { s with shutdownConn := none })
  let held ← step fun s => (s.current, s)
  release impl held
  if asked then pure () else withLast (startNewConnection impl)

def graceTimeout : Client ρ κ Unit := do
  let go ← step fun s => (!s.userRequestedDisconnect && s.current.isNone, s)
  if go then withLast (startNewConnection impl) else pure ()

def recoveryTimeout : Client ρ κ Unit := do
  let go ← step fun s =>
    if s.userRequestedDisconnect ∨ s.reconnectScheduled = false then (false, s)
    else (true, { s with reconnectScheduled := false })
  if go then withLast (connectToVpn impl) else pure ()

inductive ConnectionEvent where
  | posted
  | stateWatchdog
  | recovery
  | switchWatchdog
  | grace
  deriving DecidableEq, Repr

def ConnectionEvent.ready (s : World ρ) : ConnectionEvent → Bool
  | .posted => !s.queue.isEmpty && !s.crashed
  | .stateWatchdog => s.stateWatchdog && !s.crashed
  | .recovery => s.recoveryTimer && !s.crashed
  | .switchWatchdog => s.switchWatchdog && !s.crashed
  | .grace => 0 < s.graceTimers && !s.crashed

/-- The call at the head of the queue is taken; a state signal is handled in one step. -/
def takePosted (s : World ρ) : Option Posted × World ρ :=
  match s.queue with
  | [] => (none, s)
  | .signal _ st :: queue => (none, { s with queue := queue }.onSignal st)
  | call :: queue => (some call, { s with queue := queue })

def handlePosted : Posted → Client ρ κ Unit
  | .connectToVpn request => connectToVpn impl request
  | .disconnectFromVpn _ => disconnectFromVpn impl
  | .reconnectToVpn => reconnectToVpn impl
  | .startNewConnection => withLast (startNewConnection impl)
  | .connectAgain => withLast (connectToVpn impl)
  | .signal _ _ => pure ()

/-- A timer that fires is over. -/
def ConnectionEvent.handler : ConnectionEvent → Client ρ κ Unit
  | .posted => do
    let call ← step takePosted
    match call with
    | none => pure ()
    | some call => handlePosted impl call
  | .stateWatchdog => do
    change fun s => { s with stateWatchdog := false }
    handleStateWatchdogTimeout impl
  | .recovery => do
    change fun s => { s with recoveryTimer := false }
    recoveryTimeout impl
  | .switchWatchdog => do
    change fun s => { s with switchWatchdog := false }
    handleSwitchWatchdogTimeout impl
  | .grace => do
    change fun s => { s with graceTimers := s.graceTimers - 1 }
    graceTimeout impl

/-- What happens elsewhere: the user and the service post calls, time goes on, and the
settings and whatever the protocols act on change. -/
inductive Arrival (β : Type) where
  | connect (request : ConnectRequest)
  | disconnect
  | networkChanged
  | time (clock epoch : ℤ)
  | profiles (enabled : ℕ)
  | outside (b : β)
  deriving DecidableEq, Repr

def Arrival.apply {β : Type} (outside : β → ρ → ρ) (s : World ρ) : Arrival β → World ρ
  | .connect request => s.post (.connectToVpn request)
  | .disconnect => s.post (.disconnectFromVpn true)
  | .networkChanged => s.post .reconnectToVpn
  | .time clock epoch => { s with clock := clock, epoch := epoch }
  | .profiles n => { s with enabledProfiles := n }
  | .outside b => { s with rest := outside b s.rest }

def Arrived (s s' : World ρ) : Prop :=
  ∃ more clock epoch profiles rest, s' =
    { s with
      queue := s.queue ++ more
      clock := clock
      epoch := epoch
      enabledProfiles := profiles
      rest := rest }

theorem Arrived.refl : Arrived s s :=
  ⟨[], s.clock, s.epoch, s.enabledProfiles, s.rest, by rw [List.append_nil]⟩

theorem Arrived.trans {s t u : World ρ} (h : Arrived s t) (h' : Arrived t u) : Arrived s u := by
  obtain ⟨more, _, _, _, _, rfl⟩ := h
  obtain ⟨more', clock, epoch, profiles, rest, rfl⟩ := h'
  exact ⟨more ++ more', clock, epoch, profiles, rest, by simp only [List.append_assoc]⟩

theorem arrived_apply {β : Type} (outside : β → ρ → ρ) (s : World ρ) (a : Arrival β) :
    Arrived s (a.apply outside s) := by
  have hnil : s.queue = s.queue ++ [] := (List.append_nil _).symm
  cases a with
  | connect request => exact ⟨[.connectToVpn request], _, _, _, _, rfl⟩
  | disconnect => exact ⟨[.disconnectFromVpn true], _, _, _, _, rfl⟩
  | networkChanged => exact ⟨[.reconnectToVpn], _, _, _, _, rfl⟩
  | time clock epoch => exact ⟨[], clock, epoch, _, _, by rw [← hnil]; rfl⟩
  | profiles n => exact ⟨[], _, _, n, _, by rw [← hnil]; rfl⟩
  | outside b => exact ⟨[], _, _, _, outside b s.rest, by rw [← hnil]; rfl⟩

def World.Quiet (s : World ρ) : Prop :=
  s.queue = [] ∧ s.stateWatchdog = false ∧ s.recoveryTimer = false ∧
    s.switchWatchdog = false ∧ s.graceTimers = 0

theorem reconnectChecks_same : World.SameElsewhere s (reconnectChecks s).2 := by
  unfold reconnectChecks
  split
  · exact .refl s
  split
  · exact .refl s
  · split
    · exact s.setConnectionState_same .reconnecting
    · exact .refl s

theorem startChecks_same (request : ConnectRequest) (s : World ρ) :
    World.SameElsewhere s (startChecks request s).2 := by
  unfold startChecks
  dsimp only
  split <;> split
  · exact s.setConnectionState_same .error
  · exact .refl s
  · exact (s.setConnectionState_same .connecting).trans (World.setConnectionState_same _ .error)
  · exact s.setConnectionState_same .connecting

theorem afterStart_same (failed : Bool) (s : World ρ) :
    (afterStart failed s).objects = s.objects ∧ (afterStart failed s).current = s.current ∧
      (afterStart failed s).protocolStartInProgress = false := by
  unfold afterStart
  dsimp only
  split
  · exact ⟨rfl, rfl, rfl⟩
  split
  · exact ⟨rfl, rfl, rfl⟩
  · split
    · simp
    · split <;> exact ⟨rfl, rfl, rfl⟩

variable {queue : List Posted}

theorem takePosted_call {s : World ρ} {call} (hqueue : s.queue = call :: queue)
    (hcall : ∀ source st, call ≠ .signal source st) :
    takePosted s = (some call, { s with queue := queue }) := by
  unfold takePosted
  rw [hqueue]
  cases call with
  | signal source st => exact absurd rfl (hcall source st)
  | _ => rfl

theorem takePosted_signal {s : World ρ} {source st}
    (hqueue : s.queue = .signal source st :: queue) :
    takePosted s = (none, { s with queue := queue }.onSignal st) := by
  unfold takePosted
  rw [hqueue]

section rules

variable {impl : Implementation ρ κ} {R : Act κ → World ρ → World ρ → Prop}

theorem does_step {α : Type} {f} (h : ∀ s, R .handle s (f s).2) :
    (step f : Client ρ κ α).Does R := Prog.does_atom h

theorem does_change (h : ∀ s, R .handle s (f s)) :
    (change f : Client ρ κ Unit).Does R := Prog.does_atom h

theorem does_replaceProtocol (hstop : ∀ i, (impl.stop i).Does R) (hread : ∀ s, R .handle s s)
    (hdead : ∀ i s, R (.dead i) s (s.without i))
    (new : Option ℕ) (hdrop : ∀ s, R (.drop new) s { s with current := new }) :
    (replaceProtocol impl new).Does R := by
  refine Prog.Does.bind (does_atom hdrop) fun old => ?_
  cases old with
  | none => exact does_pure ()
  | some i =>
    refine Prog.Does.bind (does_step hread) fun stopped => ?_
    refine Prog.Does.bind ?_ fun _ => does_atom (hdead i)
    cases stopped with
    | true => exact Prog.does_pure ()
    | false => exact hstop i

end rules

end handlers

end DesktopConnection

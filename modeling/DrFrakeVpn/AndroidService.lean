import Mathlib

/-! # The Android service

`FBLinkService` handles commands on the main thread and leaves the work to coroutines that share
its fields. A CONNECT that comes while a disconnection unwinds is kept for later. Protocols start
and stop as `Xray` does; the others report their state from coroutines of their own. -/
namespace AndroidService

inductive ProtocolState where
  | unknown
  | disconnected
  | connecting
  | connected
  | disconnecting
  deriving DecidableEq

/-- Where a coroutine stands: at the statement it runs next. -/
inductive Pc (C P : Type) where
  /-- A connection that was not dispatched yet. -/
  | connStart (config : C)
  /-- `disconnectionJob?.join()`. -/
  | connJoin (config : C) (job : ℕ)
  /-- `disconnectionJob = null`. -/
  | connForget (config : C)
  /-- `vpnProto?.protocol?.let`, and the check of `isRunning` in `startVpn`. -/
  | connInit (config : C)
  /-- `start(..)`. -/
  | connRun (config : C) (proto : P)
  /-- `state.value = CONNECTED`. -/
  | connState (proto : P)
  /-- `isRunning = true`. -/
  | connMark (proto : P)
  /-- A disconnection: `connectionJob?.cancelAndJoin()`. -/
  | discStart
  | discJoin (job : ℕ)
  /-- `connectionJob = null`. -/
  | discForgetConn
  /-- `vpnProto?.protocol?.stopVpn()`. -/
  | discStop
  /-- `isRunning = false`. -/
  | discMark (proto : P)
  /-- `state.value = DISCONNECTED`. -/
  | discState
  /-- `protocolState.first { it == DISCONNECTED }`. -/
  | discWait
  /-- The state at the start of the `finally` block. -/
  | discFinally
  /-- `disconnectionJob = null`. -/
  | discForget
  /-- `mainScope.launch`. -/
  | discDrain
  | done
  deriving DecidableEq

structure Job (C P : Type) where
  pc : Pc C P
  cancelled : Bool
  deriving DecidableEq

inductive Command (C : Type) where
  | connect (config : C)
  | disconnect
  deriving DecidableEq

/-- `running` and `isRunning` are those of the protocol objects. -/
structure Service (C P : Type) where
  protocolState : ProtocolState
  vpnProto : Option P
  pendingConfig : Option C
  connectionJob : Option ℕ
  disconnectionJob : Option ℕ
  jobs : List (Job C P)
  /-- Blocks posted to the main thread that look for a kept CONNECT. -/
  drains : ℕ
  running : P → Option C
  isRunning : P → Bool
  /-- The last command, and the state it was given in. -/
  last : Option (Command C × ProtocolState)

variable {C P : Type}

namespace Service

def launch (pc : Pc C P) (s : Service C P) : Service C P :=
  { s with jobs := s.jobs ++ [⟨pc, false⟩] }

def moveTo (i : ℕ) (pc : Pc C P) (s : Service C P) : Service C P :=
  { s with jobs := s.jobs.modify i fun job => { job with pc := pc } }

def cancel (i : ℕ) (s : Service C P) : Service C P :=
  { s with jobs := s.jobs.modify i fun job => { job with cancelled := true } }

def isDone (s : Service C P) (i : ℕ) : Bool := s.jobs[i]?.all fun job => job.pc matches .done

variable (protocolOf : C → P)

/-- The config can be read and the permission is there. -/
def startConnection (config : C) (s : Service C P) : Service C P :=
  launch (.connStart config)
    { s with
      vpnProto := some (protocolOf config)
      protocolState := .connecting
      connectionJob := some s.jobs.length }

def connectToVpn (config : C) (s : Service C P) : Service C P :=
  match s.protocolState with
  | .disconnecting => { s with pendingConfig := some config }
  | .connected | .connecting => { s with pendingConfig := none }
  | .unknown | .disconnected => s.startConnection protocolOf config

def startDisconnection (s : Service C P) : Service C P :=
  launch .discStart
    { s with protocolState := .disconnecting, disconnectionJob := some s.jobs.length }

def disconnect (s : Service C P) : Service C P :=
  match s.protocolState with
  | .unknown | .disconnected | .disconnecting => s
  | .connected | .connecting => s.startDisconnection

def handle (s : Service C P) (command : Command C) : Service C P :=
  let s := { s with last := some (command, s.protocolState) }
  match command with
  | .connect config => connectToVpn protocolOf config s
  | .disconnect => disconnect s

/-- The block that a disconnection posts. -/
def drain (s : Service C P) : Service C P :=
  let kept := s.pendingConfig
  let s := { s with drains := s.drains - 1, pendingConfig := none }
  match kept with
  | some config => connectToVpn protocolOf config s
  | none => s

variable [DecidableEq P]

/-- One statement of the coroutine `i`. A coroutine that waits for another one stays where it is. -/
def advance (i : ℕ) (job : Job C P) (s : Service C P) : Service C P :=
  match job.pc with
  | .connStart config =>
    if job.cancelled then moveTo i .done s
    else match s.disconnectionJob with
      | some other => moveTo i (.connJoin config other) s
      | none => moveTo i (.connForget config) s
  | .connJoin config other =>
    if job.cancelled then moveTo i .done s
    else if s.isDone other then moveTo i (.connForget config) s
    else s
  | .connForget config => moveTo i (.connInit config) { s with disconnectionJob := none }
  | .connInit config =>
    match s.vpnProto with
    | some proto =>
      if s.isRunning proto then moveTo i .done s else moveTo i (.connRun config proto) s
    | none => moveTo i .done s
  | .connRun config proto =>
    moveTo i (.connState proto) { s with running := Function.update s.running proto (some config) }
  | .connState proto => moveTo i (.connMark proto) { s with protocolState := .connected }
  | .connMark proto => moveTo i .done { s with isRunning := Function.update s.isRunning proto true }
  | .discStart =>
    match s.connectionJob with
    | some other => moveTo i (.discJoin other) (cancel other s)
    | none => moveTo i .discForgetConn s
  | .discJoin other => if s.isDone other then moveTo i .discForgetConn s else s
  | .discForgetConn => moveTo i .discStop { s with connectionJob := none }
  | .discStop =>
    match s.vpnProto with
    | some proto =>
      moveTo i (.discMark proto) { s with running := Function.update s.running proto none }
    | none => moveTo i .discWait s
  | .discMark proto =>
    moveTo i .discState { s with isRunning := Function.update s.isRunning proto false }
  | .discState => moveTo i .discWait { s with protocolState := .disconnected }
  | .discWait => if s.protocolState = .disconnected then moveTo i .discFinally s else s
  | .discFinally => moveTo i .discForget { s with protocolState := .disconnected }
  | .discForget => moveTo i .discDrain { s with disconnectionJob := none }
  | .discDrain => moveTo i .done { s with drains := s.drains + 1 }
  | .done => s

/-- The wait of a disconnection takes too long. -/
def timeout (i : ℕ) (job : Job C P) (s : Service C P) : Service C P :=
  match job.pc with
  | .discWait => moveTo i .discFinally { s with protocolState := .disconnected }
  | _ => s

def advanceAll (is : List ℕ) (s : Service C P) : Service C P :=
  is.foldl (fun s i => match s.jobs[i]? with
    | some job => s.advance i job
    | none => s) s

/-- A command with steps of coroutines between its three reads of the state: a CONNECT asks for
DISCONNECTING, CONNECTED and CONNECTING one after the other, a DISCONNECT for UNKNOWN,
DISCONNECTED and DISCONNECTING. What it does it does at the end, since coroutines leave
`pendingConfig` alone. -/
def handleAmid (first second : List ℕ) (s : Service C P) (command : Command C) : Service C P :=
  let s₁ := s.advanceAll first
  let s₂ := { s₁.advanceAll second with last := some (command, s.protocolState) }
  match command with
  | .connect config =>
    if s.protocolState = .disconnecting then { s₂ with pendingConfig := some config }
    else if s₁.protocolState = .connected ∨ s₂.protocolState = .connecting then
      { s₂ with pendingConfig := none }
    else s₂.startConnection protocolOf config
  | .disconnect =>
    if s.protocolState = .unknown ∨ s₁.protocolState = .disconnected ∨
        s₂.protocolState = .disconnecting then s₂
    else s₂.startDisconnection

end Service

/-- A command or a posted block on the main thread, or a step of a coroutine. -/
inductive Event (C : Type) where
  | command (command : Command C)
  | drain
  | commandAmid (command : Command C) (first second : List ℕ)
  | advance (i : ℕ)
  | timeout (i : ℕ)

variable [DecidableEq P] (protocolOf : C → P)

def step (s : Service C P) : Event C → Service C P
  | .command command => s.handle protocolOf command
  | .drain => if s.drains = 0 then s else s.drain protocolOf
  | .commandAmid command first second => s.handleAmid protocolOf first second command
  | .advance i =>
    match s.jobs[i]? with
    | some job => s.advance i job
    | none => s
  | .timeout i =>
    match s.jobs[i]? with
    | some job => s.timeout i job
    | none => s

def created : Service C P where
  protocolState := .unknown
  vpnProto := none
  pendingConfig := none
  connectionJob := none
  disconnectionJob := none
  jobs := []
  drains := 0
  running _ := none
  isRunning _ := false
  last := none

/-- Every coroutine has ended and no block is posted. -/
def Quiescent (s : Service C P) : Prop := (∀ job ∈ s.jobs, job.pc = .done) ∧ s.drains = 0

end AndroidService

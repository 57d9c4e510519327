import DrFrakeVpn.AndroidService

/-! # The last command

The state says DISCONNECTED before the coroutine that stopped a protocol has ended, and a
DISCONNECT does not withdraw a CONNECT that was kept. As long as no command comes at such a time,
the service goes through a few phases, and the last command wins. -/
namespace LastCommand

open AndroidService List

variable {C P : Type} {protocolOf : C → P} {s : Service C P}

def Alone (jobs : List (Job C P)) (live : ℕ → Prop) : Prop :=
  ∀ k job, jobs[k]? = some job → job.pc ≠ .done → live k

variable {jobs : List (Job C P)}

theorem alone_append (h : Alone jobs live) :
    Alone (jobs ++ [job]) fun k => live k ∨ k = jobs.length := by
  intro k job' hk hpc
  rcases Nat.lt_or_ge k jobs.length with hlt | hge
  · rw [getElem?_append_left hlt] at hk
    exact .inl (h k job' hk hpc)
  · have hlt := (List.getElem?_eq_some_iff.mp hk).1
    rw [length_append, length_singleton] at hlt
    exact .inr (by omega)

variable {k : ℕ} {job : Job C P}

theorem getElem_before (h : (jobs ++ [new])[k]? = some job) (hk : k ≠ jobs.length) :
    jobs[k]? = some job := by
  have hlt := (List.getElem?_eq_some_iff.mp h).1
  rw [length_append, length_singleton] at hlt
  rw [getElem?_append_left (by omega)] at h
  exact h

variable {pc : Pc C P} {i : ℕ}

theorem getElem_moved (h : (jobs.modify i fun job => { job with pc := pc })[k]? = some job) :
    k = i ∧ job.pc = pc ∨ k ≠ i ∧ jobs[k]? = some job := by
  rw [getElem?_modify] at h
  obtain ⟨old, hold, rfl⟩ := Option.map_eq_some_iff.mp h
  by_cases hk : i = k
  · rw [if_pos hk]
    exact .inl ⟨hk.symm, rfl⟩
  · rw [if_neg hk]
    exact .inr ⟨Ne.symm hk, hold⟩

theorem moved_self (h : jobs[i]? = some job) :
    (jobs.modify i fun job => { job with pc := pc })[i]? = some { job with pc := pc } := by
  rw [getElem?_modify, h]
  simp

theorem alone_moved (h : Alone jobs fun k => k = i) (pc : Pc C P) :
    Alone (jobs.modify i fun job => { job with pc := pc }) fun k => k = i := by
  intro k job hk hpc
  rcases getElem_moved hk with ⟨hi, -⟩ | ⟨-, hold⟩
  · exact hi
  · exact h k job hold hpc

theorem all_done (h : Alone jobs fun k => k = i) :
    ∀ job ∈ jobs.modify i fun job => { job with pc := .done }, job.pc = .done := by
  intro job hjob
  obtain ⟨k, hk⟩ := getElem?_of_mem hjob
  rcases getElem_moved hk with ⟨-, hpc⟩ | ⟨hne, hold⟩
  · exact hpc
  · by_contra hpc
    exact hne (h k job hold hpc)

theorem alone_of_done (h : ∀ job ∈ jobs, job.pc = .done) : Alone jobs fun _ => False :=
  fun _ job hk hpc => hpc (h job (mem_of_getElem? hk))

/-- What is to run in the end. Nothing is said about a CONNECT while another one is at work. -/
def Wanted : Option (Command C × ProtocolState) → Option C → Prop
  | none, kept => kept = none
  | some (.disconnect, _), kept => kept = none
  | some (.connect config, .unknown), kept => kept = some config
  | some (.connect config, .disconnected), kept => kept = some config
  | some (.connect config, .disconnecting), kept => kept = some config
  | some (.connect _, .connecting), _ => True
  | some (.connect _, .connected), _ => True

def Nothing (s : Service C P) : Prop := ∀ p, s.running p = none ∧ s.isRunning p = false

def Within (s : Service C P) (proto : P) : Prop :=
  ∀ p, p ≠ proto → s.running p = none ∧ s.isRunning p = false

theorem Nothing.within (h : Nothing s) (proto : P) : Within s proto := fun p _ => h p

variable (protocolOf)

def Connects (s : Service C P) (config : C) : Pc C P → Prop
  | .connStart c | .connJoin c _ | .connForget c | .connInit c =>
    c = config ∧ Nothing s ∧ s.protocolState = .connecting
  | .connRun c p => c = config ∧ p = protocolOf config ∧ Nothing s ∧ s.protocolState = .connecting
  | .connState p => p = protocolOf config ∧ Within s p ∧ s.running p = some config ∧
    s.isRunning p = false ∧ s.protocolState = .connecting
  | .connMark p => p = protocolOf config ∧ Within s p ∧ s.running p = some config ∧
    s.protocolState = .connected
  | _ => False

def Confined (proto : P) : Pc C P → Prop
  | .connStart _ | .connJoin _ _ | .connForget _ | .connInit _ => True
  | .connRun _ p | .connState p | .connMark p => p = proto
  | _ => False

def Disconnects (s : Service C P) (proto : P) : Pc C P → Prop
  | .discStart | .discJoin _ | .discForgetConn | .discStop => Within s proto
  | .discMark p => p = proto ∧ Within s proto ∧ s.running proto = none
  | .discState => Nothing s
  | .discWait | .discFinally | .discForget | .discDrain =>
    Nothing s ∧ s.protocolState = .disconnected
  | _ => False

def WaitsFor (s : Service C P) (k : ℕ) : Pc C P → Prop
  | .discStart => s.connectionJob = some k
  | .discJoin other => k = other
  | _ => False

structure Idle (s : Service C P) : Prop where
  done : ∀ job ∈ s.jobs, job.pc = .done
  drains : s.drains = 0
  pending : s.pendingConfig = none
  outcome : Nothing s ∧ (s.protocolState = .unknown ∨ s.protocolState = .disconnected) ∧
      Wanted s.last none ∨
    ∃ config, s.protocolState = .connected ∧ s.vpnProto = some (protocolOf config) ∧
      Within s (protocolOf config) ∧ s.running (protocolOf config) = some config ∧
      s.isRunning (protocolOf config) = true ∧ Wanted s.last (some config)

structure Connecting (s : Service C P) (i : ℕ) (pc : Pc C P) (config : C) : Prop where
  found : s.jobs[i]? = some ⟨pc, false⟩
  alone : Alone s.jobs fun k => k = i
  drains : s.drains = 0
  pending : s.pendingConfig = none
  chosen : s.vpnProto = some (protocolOf config)
  current : s.connectionJob = some i
  connects : Connects protocolOf s config pc
  wanted : Wanted s.last (some config)

structure Disconnecting (s : Service C P) (i : ℕ) (job : Job C P) (proto : P) : Prop where
  found : s.jobs[i]? = some job
  others : ∀ k other, s.jobs[k]? = some other → k ≠ i → other.pc ≠ .done →
    WaitsFor s k job.pc ∧ Confined proto other.pc
  drains : s.drains = 0
  chosen : s.vpnProto = some proto
  disconnects : Disconnects s proto job.pc
  wanted : Wanted s.last s.pendingConfig

structure Draining (s : Service C P) : Prop where
  done : ∀ job ∈ s.jobs, job.pc = .done
  drains : s.drains = 1
  nothing : Nothing s
  state : s.protocolState = .disconnected
  wanted : Wanted s.last s.pendingConfig

inductive Phase (s : Service C P) : Prop
  | idle (h : Idle protocolOf s)
  | connecting {i : ℕ} {pc : Pc C P} {config : C} (h : Connecting protocolOf s i pc config)
  | disconnecting {i : ℕ} {job : Job C P} {proto : P} (h : Disconnecting s i job proto)
  | draining (h : Draining s)

def isDisconnection : Pc C P → Bool
  | .discStart | .discJoin _ | .discForgetConn | .discStop | .discMark _ | .discState | .discWait
  | .discFinally | .discForget | .discDrain => true
  | _ => false

/-- A disconnection has not ended, or the block it posted has not run. -/
def tearingDown (s : Service C P) : Bool :=
  s.jobs.any (fun job => isDisconnection job.pc) || decide (0 < s.drains)

def Timely (s : Service C P) (command : Command C) : Prop :=
  tearingDown s = true →
    s.protocolState = .disconnecting ∧ (command = .disconnect → s.pendingConfig = none)

/-- During a disconnection commands come in the state DISCONNECTING only, and a DISCONNECT only
while no CONNECT is kept. A command reads the same state throughout. -/
def Guard [DecidableEq P] (s : Service C P) : Event C → Prop
  | .command command => Timely s command
  | .commandAmid command first second =>
    (s.advanceAll first).protocolState = s.protocolState ∧
      ((s.advanceAll first).advanceAll second).protocolState = s.protocolState ∧
      Timely ((s.advanceAll first).advanceAll second) command
  | _ => True

variable {protocolOf}

variable {proto : P}

theorem Disconnects.isDisconnection_eq (h : Disconnects s proto pc) :
    isDisconnection pc := by
  cases pc <;> first | rfl | exact absurd h id

theorem Disconnecting.tearingDown_eq (h : Disconnecting s i job proto) : tearingDown s := by
  unfold tearingDown
  rw [Bool.or_eq_true]
  exact .inl (any_eq_true.mpr
    ⟨job, mem_of_getElem? h.found, h.disconnects.isDisconnection_eq⟩)

variable {config : C}

theorem connecting_of_idle (hdone : ∀ job ∈ s.jobs, job.pc = .done) (hdrains : s.drains = 0)
    (hpending : s.pendingConfig = none) (hnothing : Nothing s)
    (hstate : s.protocolState = .unknown ∨ s.protocolState = .disconnected)
    (hwanted : Wanted s.last (some config)) :
    Connecting protocolOf (s.connectToVpn protocolOf config) s.jobs.length (.connStart config)
      config := by
  have hconnect : s.connectToVpn protocolOf config = s.startConnection protocolOf config := by
    unfold Service.connectToVpn
    rcases hstate with hstate | hstate <;> rw [hstate]
  rw [hconnect]
  refine ⟨getElem?_concat_length, ?_, hdrains, hpending, rfl, rfl, ⟨rfl, hnothing, rfl⟩, hwanted⟩
  intro k job hk hpc
  rcases alone_append (alone_of_done hdone) k job hk hpc with hfalse | heq
  · exact hfalse.elim
  · exact heq

theorem disconnecting_of_busy (hdrains : s.drains = 0) (hproto : s.vpnProto = some proto)
    (hpending : s.pendingConfig = none) (hwithin : Within s proto)
    (hstate : s.protocolState = .connected ∨ s.protocolState = .connecting)
    (hothers : ∀ k other, s.jobs[k]? = some other → other.pc ≠ .done →
      s.connectionJob = some k ∧ Confined proto other.pc) :
    Disconnecting (s.handle protocolOf .disconnect) s.jobs.length ⟨.discStart, false⟩ proto := by
  have hdisconnect : s.handle protocolOf .disconnect =
      { s with last := some (.disconnect, s.protocolState) }.startDisconnection := by
    unfold Service.handle Service.disconnect
    rcases hstate with hstate | hstate <;> simp only [hstate]
  rw [hdisconnect]
  refine ⟨getElem?_concat_length, fun k other hk hne hpc => ?_, hdrains, hproto, hwithin, hpending⟩
  have hbefore : s.jobs[k]? = some other := getElem_before hk hne
  exact hothers k other hbefore hpc

theorem phase_command_idle (h : Idle protocolOf s) (command : Command C) :
    Phase protocolOf (s.handle protocolOf command) := by
  rcases h.outcome with ⟨hnothing, hstate, hwanted⟩ |
      ⟨config, hstate, hproto, hwithin, hruns, hflag, -⟩
  · cases command with
    | connect config =>
      have hwanted' : Wanted (some (.connect config, s.protocolState)) (some config) := by
        rcases hstate with hstate | hstate <;> rw [hstate] <;> exact rfl
      exact .connecting (connecting_of_idle
        h.done h.drains h.pending
        hnothing hstate hwanted')
    | disconnect =>
      have hkeep : s.handle protocolOf .disconnect =
          { s with last := some (.disconnect, s.protocolState) } := by
        unfold Service.handle Service.disconnect
        rcases hstate with hstate | hstate <;> rw [hstate]
      rw [hkeep]
      exact .idle ⟨h.done, h.drains, h.pending, .inl ⟨hnothing, hstate, rfl⟩⟩
  · cases command with
    | connect other =>
      have hkeep : s.handle protocolOf (.connect other) =
          { s with last := some (.connect other, .connected), pendingConfig := none } := by
        unfold Service.handle Service.connectToVpn
        rw [hstate]
      rw [hkeep]
      exact .idle ⟨h.done, h.drains, rfl,
        .inr ⟨config, hstate, hproto, hwithin, hruns, hflag, trivial⟩⟩
    | disconnect =>
      refine .disconnecting (disconnecting_of_busy h.drains hproto h.pending hwithin (.inl hstate)
        fun k other hk hpc => ?_)
      exact absurd (h.done other (mem_of_getElem? hk)) hpc

theorem Connects.state (h : Connects protocolOf s config pc) :
    s.protocolState = .connected ∨ s.protocolState = .connecting := by
  cases pc with
  | connStart c | connJoin c _ | connForget c | connInit c => exact .inr h.2.2
  | connRun c p => exact .inr h.2.2.2
  | connState p => exact .inr h.2.2.2.2
  | connMark p => exact .inl h.2.2.2
  | _ => exact absurd h id

theorem Connects.within (h : Connects protocolOf s config pc) : Within s (protocolOf config) := by
  cases pc with
  | connStart c | connJoin c _ | connForget c | connInit c => exact h.2.1.within _
  | connRun c p => exact h.2.2.1.within _
  | connState p => exact h.1 ▸ h.2.1
  | connMark p => exact h.1 ▸ h.2.1
  | _ => exact absurd h id

theorem Connects.confined (h : Connects protocolOf s config pc) :
    Confined (protocolOf config) pc := by
  cases pc with
  | connStart c | connJoin c _ | connForget c | connInit c => exact trivial
  | connRun c p => exact h.2.1
  | connState p => exact h.1
  | connMark p => exact h.1
  | _ => exact absurd h id

theorem phase_command_connecting (h : Connecting protocolOf s i pc config) (command : Command C) :
    Phase protocolOf (s.handle protocolOf command) := by
  cases command with
  | connect other =>
    have hkeep : s.handle protocolOf (.connect other) =
        { s with last := some (.connect other, s.protocolState), pendingConfig := none } := by
      unfold Service.handle Service.connectToVpn
      rcases h.connects.state with hstate | hstate <;> rw [hstate]
    rw [hkeep]
    have hwanted : Wanted (some (.connect other, s.protocolState)) (some config) := by
      rcases h.connects.state with hstate | hstate <;> rw [hstate] <;> exact trivial
    exact .connecting ⟨h.found, h.alone, h.drains, rfl, h.chosen, h.current, h.connects, hwanted⟩
  | disconnect =>
    refine .disconnecting (disconnecting_of_busy h.drains h.chosen h.pending h.connects.within
      h.connects.state fun k other hk hpc => ?_)
    obtain rfl := h.alone k other hk hpc
    obtain rfl := Option.some.inj (h.found.symm.trans hk)
    exact ⟨h.current, h.connects.confined⟩

theorem Disconnecting.recommanded (h : Disconnecting s i job proto) {last kept}
    (hwanted : Wanted last kept) :
    Disconnecting { s with last := last, pendingConfig := kept } i job proto :=
  ⟨h.found, h.others, h.drains, h.chosen, h.disconnects, hwanted⟩

variable {command : Command C}

theorem phase_command_disconnecting (h : Disconnecting s i job proto)
    (htimely : Timely s command) : Phase protocolOf (s.handle protocolOf command) := by
  obtain ⟨hstate, hkept⟩ := htimely h.tearingDown_eq
  cases command with
  | connect config =>
    have hkeep : s.handle protocolOf (.connect config) =
        { s with
          last := some (.connect config, .disconnecting), pendingConfig := some config } := by
      unfold Service.handle Service.connectToVpn
      rw [hstate]
    rw [hkeep]
    exact .disconnecting (h.recommanded rfl)
  | disconnect =>
    have hkeep : s.handle protocolOf .disconnect =
        { s with last := some (.disconnect, .disconnecting) } := by
      unfold Service.handle Service.disconnect
      rw [hstate]
    rw [hkeep]
    exact .disconnecting (h.recommanded (hkept rfl))

theorem phase_command (h : Phase protocolOf s) (htimely : Timely s command) :
    Phase protocolOf (s.handle protocolOf command) := by
  cases h with
  | idle h => exact phase_command_idle h command
  | connecting h => exact phase_command_connecting h command
  | disconnecting h => exact phase_command_disconnecting h htimely
  | draining h =>
    have hdown : tearingDown s := by
      unfold tearingDown
      rw [h.drains, Bool.or_eq_true]
      exact .inr rfl
    have hstate := (htimely hdown).1
    rw [h.state] at hstate
    cases hstate

theorem phase_drain (h : Phase protocolOf s) (hdrains : s.drains ≠ 0) :
    Phase protocolOf (s.drain protocolOf) := by
  cases h with
  | idle h => exact absurd h.drains hdrains
  | connecting h => exact absurd h.drains hdrains
  | disconnecting h => exact absurd h.drains hdrains
  | draining h =>
    have hzero : s.drains - 1 = 0 := by rw [h.drains]
    have hwanted := h.wanted
    unfold Service.drain
    cases hkept : s.pendingConfig with
    | none =>
      rw [hkept] at hwanted
      exact .idle ⟨h.done, hzero, rfl, .inl ⟨h.nothing, .inr h.state, hwanted⟩⟩
    | some config =>
      rw [hkept] at hwanted
      exact .connecting (connecting_of_idle
        h.done hzero rfl h.nothing
        (.inr h.state) hwanted)

theorem timeout_other (i : ℕ) (h : job.pc ≠ .discWait) : s.timeout i job = s := by
  unfold Service.timeout
  split
  · exact absurd ‹_› h
  · rfl

theorem Connecting.moved {pc' t} (h : Connecting protocolOf s i pc config) (hjobs : t.jobs = s.jobs)
    (hdrains : t.drains = s.drains) (hpending : t.pendingConfig = s.pendingConfig)
    (hproto : t.vpnProto = s.vpnProto) (hcurrent : t.connectionJob = s.connectionJob)
    (hlast : t.last = s.last) (hconnects : Connects protocolOf t config pc') :
    Connecting protocolOf (t.moveTo i pc') i pc' config := by
  refine ⟨?_, ?_, hdrains.trans h.drains, hpending.trans h.pending, hproto.trans h.chosen,
    hcurrent.trans h.current, hconnects, ?_⟩
  · show (t.jobs.modify i _)[i]? = _
    rw [hjobs, moved_self h.found]
  · show Alone (t.jobs.modify i _) _
    rw [hjobs]
    exact alone_moved h.alone pc'
  · show Wanted t.last _
    rw [hlast]
    exact h.wanted

section Moves

variable {i : ℕ} {job : Job C P} {proto : P}

theorem Disconnecting.moved (h : Disconnecting s i job proto) (hjobs : t.jobs = s.jobs)
    (hdrains : t.drains = s.drains) (hproto : t.vpnProto = s.vpnProto) (hlast : t.last = s.last)
    (hpending : t.pendingConfig = s.pendingConfig)
    (hothers : ∀ k other, s.jobs[k]? = some other → k ≠ i → other.pc ≠ .done → WaitsFor t k pc)
    (hdisconnects : Disconnects t proto pc) :
    Disconnecting (t.moveTo i pc) i { job with pc := pc } proto := by
  refine ⟨?_, fun k other hk hne hpc => ?_, hdrains.trans h.drains, hproto.trans h.chosen,
    hdisconnects, ?_⟩
  · show (t.jobs.modify i _)[i]? = _
    rw [hjobs, moved_self h.found]
  · have hmoved : (t.jobs.modify i fun job => { job with pc := pc })[k]? = some other := hk
    rw [hjobs] at hmoved
    rcases getElem_moved hmoved with ⟨heq, -⟩ | ⟨-, hold⟩
    · exact absurd heq hne
    · exact ⟨hothers k other hold hne hpc, (h.others k other hold hne hpc).2⟩
  · show Wanted t.last t.pendingConfig
    rw [hlast, hpending]
    exact h.wanted

theorem Disconnecting.none_waits {p : Prop} (h : Disconnecting s i job proto)
    (hpc : ∀ k, ¬WaitsFor s k job.pc) (k : ℕ) (other : Job C P) (hk : s.jobs[k]? = some other)
    (hne : k ≠ i) (hlive : other.pc ≠ .done) : p :=
  absurd (h.others k other hk hne hlive).1 (hpc k)

theorem isDone_pc (h : s.isDone k) (hk : s.jobs[k]? = some other) :
    other.pc = .done := by
  unfold Service.isDone at h
  cases hpc : other.pc <;> simp_all

theorem getElem_cancelled {i}
    (h : (jobs.modify i fun job => { job with cancelled := true })[k]? = some job) :
    ∃ old, jobs[k]? = some old ∧ job.pc = old.pc := by
  rw [getElem?_modify] at h
  obtain ⟨old, hold, rfl⟩ := Option.map_eq_some_iff.mp h
  refine ⟨old, hold, ?_⟩
  split <;> rfl

theorem Disconnecting.cancelled (h : Disconnecting s i job proto) (k : ℕ) :
    ∃ job', job'.pc = job.pc ∧ Disconnecting (s.cancel k) i job' proto := by
  have hfound : (s.cancel k).jobs[i]? =
      some (if k = i then { job with cancelled := true } else job) := by
    show (s.jobs.modify k _)[i]? = _
    rw [getElem?_modify, h.found]
    split <;> rfl
  have hpc : (if k = i then { job with cancelled := true } else job).pc = job.pc := by
    split <;> rfl
  refine ⟨_, hpc, hfound, fun k' other hk hne hlive => ?_, h.drains, h.chosen, ?_, h.wanted⟩
  · obtain ⟨old, hold, hsame⟩ := getElem_cancelled hk
    rw [hsame] at hlive ⊢
    rw [hpc]
    exact h.others k' old hold hne hlive
  · rw [hpc]
    exact h.disconnects

end Moves

variable [DecidableEq P]

theorem advance_done (i : ℕ) (h : job.pc = .done) : s.advance i job = s := by
  unfold Service.advance
  rw [h]

theorem phase_connection (h : Connecting protocolOf s i pc config) :
    Phase protocolOf (s.advance i ⟨pc, false⟩) := by
  have hconnects := h.connects
  cases pc with
  | connStart c =>
    simp only [Service.advance, Bool.false_eq_true, if_false]
    split
    · exact .connecting (h.moved rfl rfl rfl rfl rfl rfl hconnects)
    · exact .connecting (h.moved rfl rfl rfl rfl rfl rfl hconnects)
  | connJoin c other =>
    show Phase protocolOf (if s.isDone other then s.moveTo i (.connForget c) else s)
    split
    · exact .connecting (h.moved rfl rfl rfl rfl rfl rfl hconnects)
    · exact .connecting h
  | connForget c => exact .connecting (h.moved rfl rfl rfl rfl rfl rfl hconnects)
  | connInit c =>
    obtain ⟨rfl, hnothing, hstate⟩ := hconnects
    have hrun : s.advance i ⟨.connInit c, false⟩ = s.moveTo i (.connRun c (protocolOf c)) := by
      unfold Service.advance
      rw [h.chosen]
      exact if_neg (by rw [(hnothing _).2]; exact Bool.false_ne_true)
    rw [hrun]
    exact .connecting (h.moved rfl rfl rfl rfl rfl rfl ⟨rfl, rfl, hnothing, hstate⟩)
  | connRun c p =>
    obtain ⟨rfl, rfl, hnothing, hstate⟩ := hconnects
    refine .connecting (h.moved rfl rfl rfl rfl rfl rfl ⟨rfl, fun p hp => ⟨?_, (hnothing p).2⟩,
      Function.update_self _ _ _, (hnothing _).2, hstate⟩)
    exact (Function.update_of_ne hp _ _).trans (hnothing p).1
  | connState p =>
    obtain ⟨rfl, hwithin, hruns, -, -⟩ := hconnects
    exact .connecting (h.moved rfl rfl rfl rfl rfl rfl ⟨rfl, hwithin, hruns, rfl⟩)
  | connMark p =>
    obtain ⟨rfl, hwithin, hruns, hstate⟩ := hconnects
    refine .idle ⟨all_done h.alone, h.drains, h.pending, .inr ⟨config, hstate, h.chosen,
      fun p hp => ⟨(hwithin p hp).1, ?_⟩, hruns, Function.update_self _ _ _, h.wanted⟩⟩
    exact (Function.update_of_ne hp _ _).trans (hwithin p hp).2
  | _ => exact absurd hconnects id

section Disconnection

variable {i : ℕ} {job : Job C P} {proto : P}

theorem phase_disconnection (h : Disconnecting s i job proto) :
    Phase protocolOf (s.advance i job) := by
  obtain ⟨pc, cancelled⟩ := job
  have hdisconnects := h.disconnects
  cases pc with
  | discStart =>
    dsimp only [Service.advance]
    cases hcurrent : s.connectionJob with
    | some other =>
      obtain ⟨job', hpc, h'⟩ := h.cancelled other
      refine .disconnecting (h'.moved rfl rfl rfl rfl rfl (fun k o hk hne hlive => ?_) ?_)
      · have hwaits := (h'.others k o hk hne hlive).1
        rw [hpc] at hwaits
        exact Option.some.inj (hwaits.symm.trans hcurrent)
      · exact hdisconnects
    | none =>
      refine .disconnecting (h.moved rfl rfl rfl rfl rfl (fun k o hk hne hlive => ?_) hdisconnects)
      have hwaits : s.connectionJob = some k := (h.others k o hk hne hlive).1
      rw [hcurrent] at hwaits
      cases hwaits
  | discJoin other =>
    show Phase protocolOf (if s.isDone other then s.moveTo i .discForgetConn else s)
    split
    · rename_i hdone
      refine .disconnecting (h.moved rfl rfl rfl rfl rfl (fun k o hk hne hlive => ?_) hdisconnects)
      obtain rfl : k = other := (h.others k o hk hne hlive).1
      exact hlive (isDone_pc hdone hk)
    · exact .disconnecting h
  | discForgetConn =>
    exact .disconnecting (h.moved rfl rfl rfl rfl rfl
      (h.none_waits fun _ => id) hdisconnects)
  | discStop =>
    have hstop : s.advance i ⟨.discStop, cancelled⟩ = Service.moveTo i (.discMark proto)
        { s with running := Function.update s.running proto none } := by
      unfold Service.advance
      rw [h.chosen]
    rw [hstop]
    refine .disconnecting (h.moved rfl rfl rfl rfl rfl
      (h.none_waits fun _ => id)
      ⟨rfl, fun p hp => ⟨?_, (hdisconnects p hp).2⟩, Function.update_self _ _ _⟩)
    exact (Function.update_of_ne hp _ _).trans (hdisconnects p hp).1
  | discMark p =>
    obtain ⟨rfl, hwithin, hstopped⟩ := hdisconnects
    refine .disconnecting (h.moved rfl rfl rfl rfl rfl
      (h.none_waits fun _ => id) fun q => ?_)
    by_cases hq : q = p
    · subst hq
      exact ⟨hstopped, Function.update_self _ _ _⟩
    · exact ⟨(hwithin q hq).1, (Function.update_of_ne hq _ _).trans (hwithin q hq).2⟩
  | discState =>
    exact .disconnecting (h.moved rfl rfl rfl rfl rfl
      (h.none_waits fun _ => id) ⟨hdisconnects, rfl⟩)
  | discWait =>
    show Phase protocolOf (if s.protocolState = .disconnected then s.moveTo i .discFinally else s)
    rw [if_pos hdisconnects.2]
    exact .disconnecting (h.moved rfl rfl rfl rfl rfl
      (h.none_waits fun _ => id) hdisconnects)
  | discFinally =>
    exact .disconnecting (h.moved rfl rfl rfl rfl rfl
      (h.none_waits fun _ => id) ⟨hdisconnects.1, rfl⟩)
  | discForget =>
    exact .disconnecting (h.moved rfl rfl rfl rfl rfl
      (h.none_waits fun _ => id) hdisconnects)
  | discDrain =>
    have halone : Alone s.jobs fun k => k = i := by
      intro k o hk hlive
      by_contra hne
      exact h.none_waits (fun _ => id) k o hk hne hlive
    exact .draining ⟨all_done halone, congrArg (· + 1) h.drains, hdisconnects.1, hdisconnects.2,
      h.wanted⟩
  | _ => exact absurd hdisconnects id

omit [DecidableEq P] in
theorem Disconnecting.otherMoved (h : Disconnecting s i job proto) (hne : k ≠ i)
    (hwaits : WaitsFor s k job.pc) (hjobs : t.jobs = s.jobs) (hdrains : t.drains = s.drains)
    (hproto : t.vpnProto = s.vpnProto) (hcurrent : t.connectionJob = s.connectionJob)
    (hlast : t.last = s.last) (hpending : t.pendingConfig = s.pendingConfig)
    (hwithin : Within t proto) (hpc : pc = .done ∨ Confined proto pc) :
    Disconnecting (t.moveTo k pc) i job proto := by
  have hwaits' : ∀ k, WaitsFor s k job.pc → WaitsFor t k job.pc := by
    intro k hk
    cases hj : job.pc <;> rw [hj] at hk <;> first | exact hcurrent.trans hk | exact hk
  refine ⟨?_, fun k' other hk' hne' hlive => ?_, hdrains.trans h.drains,
    hproto.trans h.chosen, ?_, ?_⟩
  · show (t.jobs.modify k _)[i]? = _
    rw [hjobs, getElem?_modify, h.found]
    exact congrArg some (if_neg hne)
  · have hmoved : (t.jobs.modify k fun job => { job with pc := pc })[k']? = some other := hk'
    rw [hjobs] at hmoved
    rcases getElem_moved hmoved with ⟨rfl, hpc'⟩ | ⟨-, hold⟩
    · refine ⟨hwaits' _ hwaits, ?_⟩
      rw [hpc'] at hlive ⊢
      exact hpc.resolve_left hlive
    · obtain ⟨hw, hconfined⟩ := h.others k' other hold hne' hlive
      exact ⟨hwaits' _ hw, hconfined⟩
  · cases hj : job.pc <;> rw [hj] at hwaits <;> first | exact hwithin | exact absurd hwaits id
  · show Wanted t.last t.pendingConfig
    rw [hlast, hpending]
    exact h.wanted

theorem phase_waitedFor (h : Disconnecting s i job proto) {other} (hk : s.jobs[k]? = some other)
    (hne : k ≠ i) (hlive : other.pc ≠ .done) : Phase protocolOf (s.advance k other) := by
  obtain ⟨hwaits, hconfined⟩ := h.others k other hk hne hlive
  have hwithin : Within s proto := by
    have hd := h.disconnects
    cases hj : job.pc <;> rw [hj] at hwaits hd <;> first | exact hd | exact absurd hwaits id
  -- its statements leave everything but its own protocol alone
  have hmove : ∀ {pc : Pc C P} {t : Service C P}, t.jobs = s.jobs → t.drains = s.drains →
      t.vpnProto = s.vpnProto → t.connectionJob = s.connectionJob → t.last = s.last →
      t.pendingConfig = s.pendingConfig → Within t proto → (pc = .done ∨ Confined proto pc) →
      Phase protocolOf (t.moveTo k pc) := fun h₁ h₂ h₃ h₄ h₅ h₆ h₇ h₈ =>
    .disconnecting (h.otherMoved hne hwaits h₁ h₂ h₃ h₄ h₅ h₆ h₇ h₈)
  obtain ⟨pc, cancelled⟩ := other
  cases pc with
  | connStart c =>
    dsimp only [Service.advance]
    split
    · exact hmove rfl rfl rfl rfl rfl rfl hwithin (.inl rfl)
    · split <;> exact hmove rfl rfl rfl rfl rfl rfl hwithin (.inr trivial)
  | connJoin c other =>
    show Phase protocolOf (if cancelled then s.moveTo k .done
      else if s.isDone other then s.moveTo k (.connForget c) else s)
    split
    · exact hmove rfl rfl rfl rfl rfl rfl hwithin (.inl rfl)
    · split
      · exact hmove rfl rfl rfl rfl rfl rfl hwithin (.inr trivial)
      · exact .disconnecting h
  | connForget c => exact hmove rfl rfl rfl rfl rfl rfl hwithin (.inr trivial)
  | connInit c =>
    have hinit : s.advance k ⟨.connInit c, cancelled⟩ =
        if s.isRunning proto then s.moveTo k .done else s.moveTo k (.connRun c proto) := by
      unfold Service.advance
      rw [h.chosen]
    rw [hinit]
    split
    · exact hmove rfl rfl rfl rfl rfl rfl hwithin (.inl rfl)
    · exact hmove rfl rfl rfl rfl rfl rfl hwithin (.inr rfl)
  | connRun c p =>
    obtain rfl : p = proto := hconfined
    refine hmove rfl rfl rfl rfl rfl rfl (fun q hq => ⟨?_, (hwithin q hq).2⟩) (.inr rfl)
    exact (Function.update_of_ne hq _ _).trans (hwithin q hq).1
  | connState p => exact hmove rfl rfl rfl rfl rfl rfl hwithin (.inr hconfined)
  | connMark p =>
    obtain rfl : p = proto := hconfined
    refine hmove rfl rfl rfl rfl rfl rfl (fun q hq => ⟨(hwithin q hq).1, ?_⟩) (.inl rfl)
    exact (Function.update_of_ne hq _ _).trans (hwithin q hq).2
  | _ => exact absurd hconfined id

end Disconnection

theorem phase_advance (h : Phase protocolOf s) (hk : s.jobs[k]? = some job) :
    Phase protocolOf (s.advance k job) := by
  by_cases hlive : job.pc = .done
  · rw [advance_done k hlive]
    exact h
  · cases h with
    | idle h => exact absurd (h.done job (mem_of_getElem? hk)) hlive
    | connecting h =>
      obtain rfl := h.alone k job hk hlive
      obtain rfl := Option.some.inj (h.found.symm.trans hk)
      exact phase_connection h
    | @disconnecting i job' proto h =>
      by_cases hki : k = i
      · subst hki
        obtain rfl := Option.some.inj (h.found.symm.trans hk)
        exact phase_disconnection h
      · exact phase_waitedFor h hk hki hlive
    | draining h => exact absurd (h.done job (mem_of_getElem? hk)) hlive

theorem phase_timeout (h : Phase protocolOf s) (hk : s.jobs[k]? = some job) :
    Phase protocolOf (s.timeout k job) := by
  by_cases hwait : job.pc = .discWait
  · have hlive : job.pc ≠ .done := by
      rw [hwait]
      exact nofun
    obtain ⟨pc, cancelled⟩ := job
    obtain rfl : pc = .discWait := hwait
    cases h with
    | idle h => exact absurd (h.done _ (mem_of_getElem? hk)) hlive
    | connecting h =>
      obtain rfl := h.alone k _ hk hlive
      cases Option.some.inj (h.found.symm.trans hk)
      exact absurd h.connects id
    | @disconnecting i job' proto h =>
      by_cases hki : k = i
      · subst hki
        obtain rfl := Option.some.inj (h.found.symm.trans hk)
        exact .disconnecting (h.moved rfl rfl rfl rfl rfl
          (h.none_waits fun _ => id) ⟨h.disconnects.1, rfl⟩)
      · exact absurd (h.others k _ hk hki hlive).2 id
    | draining h => exact absurd (h.done _ (mem_of_getElem? hk)) hlive
  · rw [timeout_other k hwait]
    exact h

theorem phase_advanceAll (is : List ℕ) (h : Phase protocolOf s) :
    Phase protocolOf (s.advanceAll is) := by
  induction is generalizing s with
  | nil => exact h
  | cons i is ih =>
    apply ih
    dsimp only
    cases hi : s.jobs[i]? with
    | some job => exact phase_advance h hi
    | none => exact h

/-- A command that reads one state throughout comes after the steps in its midst. -/
theorem handleAmid_eq {first second : List ℕ} (command : Command C)
    (h₁ : (s.advanceAll first).protocolState = s.protocolState)
    (h₂ : ((s.advanceAll first).advanceAll second).protocolState = s.protocolState) :
    s.handleAmid protocolOf first second command =
      ((s.advanceAll first).advanceAll second).handle protocolOf command := by
  unfold Service.handleAmid Service.handle Service.connectToVpn Service.disconnect
  dsimp only
  rw [h₁, ← h₂]
  cases command <;> cases ((s.advanceAll first).advanceAll second).protocolState <;> simp

theorem phase_step (h : Phase protocolOf s) {e} (hguard : Guard s e) :
    Phase protocolOf (step protocolOf s e) := by
  cases e with
  | command command => exact phase_command h hguard
  | commandAmid command first second =>
    obtain ⟨h₁, h₂, htimely⟩ := hguard
    show Phase protocolOf (s.handleAmid protocolOf first second command)
    rw [handleAmid_eq command h₁ h₂]
    exact phase_command (phase_advanceAll second (phase_advanceAll first h)) htimely
  | drain =>
    show Phase protocolOf (if s.drains = 0 then s else s.drain protocolOf)
    split
    · exact h
    · rename_i hdrains
      exact phase_drain h hdrains
  | advance k =>
    dsimp only [step]
    cases hk : s.jobs[k]? with
    | some job => exact phase_advance h hk
    | none => exact h
  | timeout k =>
    dsimp only [step]
    cases hk : s.jobs[k]? with
    | some job => exact phase_timeout h hk
    | none => exact h

variable (protocolOf) in
def Guarded (s : Service C P) : List (Event C) → Prop
  | [] => True
  | e :: es => Guard s e ∧ Guarded (step protocolOf s e) es

theorem phase_run (es : List (Event C)) (h : Phase protocolOf s)
    (hguarded : Guarded protocolOf s es) :
    Phase protocolOf (es.foldl (step protocolOf) s) := by
  induction es generalizing s with
  | nil => exact h
  | cons e es ih => exact ih (phase_step h hguarded.1) hguarded.2

variable (protocolOf) in
def Runs (s : Service C P) : Option C → Prop
  | none => ∀ p, s.running p = none
  | some config => s.running (protocolOf config) = some config ∧
    ∀ p, p ≠ protocolOf config → s.running p = none

omit [DecidableEq P] in
theorem runs_of_quiescent (h : Phase protocolOf s) (hquiet : Quiescent s) :
    ∃ r, Runs protocolOf s r ∧ Wanted s.last r := by
  cases h with
  | idle h =>
    rcases h.outcome with ⟨hnothing, -, hwanted⟩ | ⟨config, -, -, hwithin, hruns, -, hwanted⟩
    · exact ⟨none, fun p => (hnothing p).1, hwanted⟩
    · exact ⟨some config, ⟨hruns, fun p hp => (hwithin p hp).1⟩, hwanted⟩
  | @connecting i pc config h =>
    obtain rfl : pc = .done := hquiet.1 _ (mem_of_getElem? h.found)
    exact absurd h.connects id
  | disconnecting h =>
    have hdisconnects := h.disconnects
    rw [hquiet.1 _ (mem_of_getElem? h.found)] at hdisconnects
    exact absurd hdisconnects id
  | draining h =>
    have hdrains := hquiet.2
    rw [h.drains] at hdrains
    cases hdrains

omit [DecidableEq P] in
variable (protocolOf) in
theorem phase_created : Phase protocolOf created :=
  .idle ⟨nofun, rfl, rfl, .inl ⟨fun _ => ⟨rfl, rfl⟩, .inl rfl, rfl⟩⟩

/-- In every run whose commands meet the condition, once nothing is pending: after a DISCONNECT
nothing runs, and after a CONNECT in the state UNKNOWN, DISCONNECTED or DISCONNECTING its config
runs. -/
theorem last_command_wins {es : List (Event C)} (hguarded : Guarded protocolOf created es)
    (hquiet : Quiescent (es.foldl (step protocolOf) created)) :
    (∀ state, (es.foldl (step protocolOf) created).last = some (.disconnect, state) →
      ∀ p, (es.foldl (step protocolOf) created).running p = none) ∧
    (∀ config state, (es.foldl (step protocolOf) created).last = some (.connect config, state) →
      state = .unknown ∨ state = .disconnected ∨ state = .disconnecting →
      (es.foldl (step protocolOf) created).running (protocolOf config) = some config ∧
      ∀ p, p ≠ protocolOf config → (es.foldl (step protocolOf) created).running p = none) := by
  obtain ⟨r, hruns, hwanted⟩ :=
    runs_of_quiescent (phase_run es (phase_created protocolOf) hguarded) hquiet
  refine ⟨fun state hlast => ?_, fun config state hlast hstate => ?_⟩
  · rw [hlast] at hwanted
    obtain rfl : r = none := hwanted
    exact hruns
  · rw [hlast] at hwanted
    have hr : r = some config := by
      rcases hstate with rfl | rfl | rfl <;> exact hwanted
    subst hr
    exact hruns

/-! Configs are their names, and there is one protocol. -/

instance [DecidableEq C] (s : Service C P) (command : Command C) : Decidable (Timely s command) :=
  inferInstanceAs (Decidable (_ → _ ∧ (_ → _)))

instance [DecidableEq C] (s : Service C P) (e : Event C) : Decidable (Guard s e) :=
  match e with
  | .command _ => inferInstanceAs (Decidable (Timely ..))
  | .commandAmid .. => inferInstanceAs (Decidable (_ ∧ _ ∧ Timely ..))
  | .drain | .advance _ | .timeout _ => isTrue trivial

def decGuarded [DecidableEq C] (protocolOf : C → P) (s : Service C P) :
    (es : List (Event C)) → Decidable (Guarded protocolOf s es)
  | [] => isTrue trivial
  | e :: es =>
    have := decGuarded protocolOf (step protocolOf s e) es
    inferInstanceAs (Decidable (_ ∧ _))

instance [DecidableEq C] (protocolOf : C → P) (s : Service C P) (es : List (Event C)) :
    Decidable (Guarded protocolOf s es) := decGuarded protocolOf s es

instance [DecidableEq C] (s : Service C P) : Decidable (Quiescent s) :=
  inferInstanceAs (Decidable ((∀ job ∈ s.jobs, job.pc = .done) ∧ s.drains = 0))

def steps (n i : ℕ) : List (Event String) := replicate n (.advance i)

def switched : List (Event String) :=
  .command (.connect "a") :: steps 6 0 ++ [.command .disconnect, .command (.connect "b")]

def after (es : List (Event String)) : Service String Unit := es.foldl (step fun _ => ()) created

theorem switch_runs_new_config :
    (after (switched ++ steps 10 1 ++ .drain :: steps 6 2)).running () = some "b" := by
  have hguarded : Guarded (fun _ => ()) created
      (switched ++ steps 10 1 ++ .drain :: steps 6 2) := by
    decide +kernel
  have hquiet :
      Quiescent (after (switched ++ steps 10 1 ++ .drain :: steps 6 2)) := by decide +kernel
  exact ((last_command_wins hguarded hquiet).2 "b" .disconnecting (by decide +kernel)
    (.inr (.inr rfl))).1

/-- A DISCONNECT that comes while a CONNECT is kept does not withdraw it. And a CONNECT that comes
between the stop of the protocol and the end of the disconnection loses against the one kept. -/
theorem last_command_loses :
    (Quiescent (after (switched ++ .command .disconnect :: steps 10 1 ++ .drain :: steps 6 2)) ∧
    (after (switched ++ .command .disconnect :: steps 10 1 ++ .drain :: steps 6 2)).last =
      some (.disconnect, .disconnecting) ∧
    (after (switched ++ .command .disconnect :: steps 10 1 ++ .drain :: steps 6 2)).running () =
      some "b") ∧
    (Quiescent (after (switched ++ steps 7 1 ++ .command (.connect "c") :: steps 3 1 ++
      .drain :: steps 6 3 ++ steps 3 2)) ∧
    (after (switched ++ steps 7 1 ++ .command (.connect "c") :: steps 3 1 ++
      .drain :: steps 6 3 ++ steps 3 2)).last = some (.connect "c", .disconnected) ∧
    (after (switched ++ steps 7 1 ++ .command (.connect "c") :: steps 3 1 ++
      .drain :: steps 6 3 ++ steps 3 2)).running () = some "b") := by
  decide +kernel

end LastCommand

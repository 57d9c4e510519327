import DrFrakeVpn.SharedPrograms

/-! # The updates of a node and their state file

The node agent computes the state of an update under the lock of its manager and stores it in a
file after the lock is released. -/
namespace NodeUpdates

open SharedPrograms List

/-- A file may hold any text as a status. -/
inductive UpdateStatus where
  | idle | succeeded | failed | rolledBack
  | other (text : String)
  deriving DecidableEq

structure UpdateState where
  status : UpdateStatus
  activeDigest : String := ""
  previousDigest : String := ""
  lastError : String := ""
  updatedAt : ℤ := 0
  canRollback : Bool := false
  deriving DecidableEq

/-- `file` is what the state file decodes to, if it is there and can be decoded. `calls` are the
digests that the updater was called with. -/
structure AgentNode where
  state : UpdateState
  file : Option UpdateState
  calls : List String := []

structure Outcomes where
  apply : Except String Unit
  rollback : Except String Unit
  now : ℤ
  written : Bool

def isHex (c : Char) : Bool := c.isDigit || ('a' ≤ c && c ≤ 'f') || ('A' ≤ c && c ≤ 'F')

/-- A name, `@sha256:` and 64 hexadecimal digits; the name has no `@`. -/
def imageDigestPattern (digest : String) : Bool :=
  match digest.toList.span (· ≠ '@') with
  | (c :: name, rest) =>
    c.isAlphanum && !name.isEmpty &&
      name.all (fun c => c.isAlphanum || ['.', '_', ':', '/', '-'].contains c) &&
      rest.take 8 == "@sha256:".toList && (rest.drop 8).length == 64 && (rest.drop 8).all isHex
  | ([], _) => false

def failState (now : ℤ) (current : UpdateState) (message : String) : UpdateState :=
  { current with
    status := .failed
    lastError := message
    updatedAt := now
    canRollback := current.previousDigest ≠ "" }

def apply (o : Outcomes) (digest : String) (m : AgentNode) : AgentNode :=
  if !imageDigestPattern digest then
    { m with state := failState o.now m.state "image_digest must be immutable image@sha256 digest" }
  else
    let previous := m.state.activeDigest
    let rollbackTarget := m.state.previousDigest
    match o.apply with
    | .error e =>
      let failed := failState o.now m.state e
      if previous ≠ "" then
        -- the error of this call of the updater is dropped
        { m with
          state := { failed with
            activeDigest := previous
            previousDigest := rollbackTarget
            canRollback := rollbackTarget ≠ "" }
          calls := m.calls ++ [digest, previous] }
      else { m with state := failed, calls := m.calls ++ [digest] }
    | .ok _ =>
      { m with
        state := {
          status := .succeeded
          activeDigest := digest
          previousDigest := previous
          updatedAt := o.now
          canRollback := previous ≠ "" }
        calls := m.calls ++ [digest] }

def rollback (o : Outcomes) (m : AgentNode) : AgentNode :=
  if m.state.previousDigest = "" then
    { m with state := failState o.now m.state "no previous digest recorded" }
  else
    let calls := m.calls ++ [m.state.previousDigest]
    match o.rollback with
    | .error e => { m with state := failState o.now m.state e, calls := calls }
    | .ok _ =>
      { m with
        state := {
          status := .rolledBack
          activeDigest := m.state.previousDigest
          previousDigest := m.state.activeDigest
          updatedAt := o.now
          canRollback := m.state.activeDigest ≠ "" }
        calls := calls }

def loadUpdateState (file : Option UpdateState) : UpdateState := file.getD { status := .idle }

/-- The path is never empty, since `env` has a default for it. -/
def saveUpdateState (written : Bool) (state : UpdateState) (m : AgentNode) : AgentNode :=
  if written then { m with file := some state } else m

def boot (file : Option UpdateState) : AgentNode :=
  let state := loadUpdateState file
  ⟨if state.status = .other "" then { state with status := .idle } else state, file, []⟩

inductive AgentStep where
  | update
  | status
  | save (state : UpdateState) (written : Bool)
  deriving DecidableEq

inductive AgentReply where
  | text (code : ℕ) (message : String)
  | state (code : ℕ) (state : UpdateState)

/-- `body` is the image digest of the body, or the error of its decoding. -/
inductive AgentRequest where
  | applyUpdate (method : String) (body : Except String String) (o : Outcomes)
  | updateStatus (method : String)
  | rollbackUpdate (method : String) (o : Outcomes)

/-- The change under the lock, and the save of the state that it returned. -/
def changeState (written : Bool) (change : AgentNode → AgentNode) :
    Prog AgentNode AgentStep AgentReply := do
  let state ← .atom .update fun m => ((change m).state, change m)
  .atom (.save state written) fun m => ((), saveUpdateState written state m)
  pure (.state (if state.status = .failed then 400 else 200) state)

def AgentRequest.handler : AgentRequest → Prog AgentNode AgentStep AgentReply
  | .applyUpdate method body o =>
    if method ≠ "POST" then pure (.text 405 "method not allowed")
    else
      match body with
      | .error e => pure (.text 400 e)
      | .ok digest => changeState o.written (apply o digest)
  | .updateStatus method =>
    if method ≠ "GET" then pure (.text 405 "method not allowed")
    else do
      let state ← .atom .status fun m => (m.state, m)
      pure (.state 200 state)
  | .rollbackUpdate method o =>
    if method ≠ "POST" then pure (.text 405 "method not allowed")
    else changeState o.written (rollback o)

def agentPool (requests : List AgentRequest) (m : AgentNode) : Config AgentNode AgentStep :=
  ⟨requests.map fun r => r.handler.forget, m⟩

def Alone (_ _ : AgentNode) : Prop := False

/-- Between its change and its save. -/
def inProgress : Option AgentStep → Bool
  | some (.save _ _) => true
  | _ => false

/-- A state is saved while some request stands before a save of the current state that works. -/
def InOrder : Guard AgentNode AgentStep
  | .save _ _, ls, m => some (.save m.state true) ∈ ls
  | .update, _, _ | .status, _, _ => True

instance (l : AgentStep) (ls : List (Option AgentStep)) (m : AgentNode) :
    Decidable (InOrder l ls m) :=
  match l with
  | .save _ _ => inferInstanceAs (Decidable (some (AgentStep.save m.state true) ∈ ls))
  | .update | .status => isTrue trivial

def Effect (m : AgentNode) (l : AgentStep) (m' : AgentNode) (n : Option AgentStep) : Prop :=
  match l with
  | .update => m'.file = m.file ∧ ∃ written, n = some (.save m'.state written)
  | .status => m' = m
  | .save state written => m' = saveUpdateState written state m

theorem changeState_obeys (h : ∀ m, (change m).file = m.file) (written : Bool)
    (m : AgentNode) :
    (changeState written change).Obeys (fun _ _ => True) (fun _ _ => True) Effect m := by
  intro s _ _
  refine ⟨⟨h s, written, rfl⟩, ?_⟩
  intro t _ _
  exact ⟨rfl, trivial⟩

theorem apply_file (o : Outcomes) (digest : String) (m : AgentNode) :
    (apply o digest m).file = m.file := by
  unfold apply
  dsimp only
  split
  · rfl
  · split
    · split <;> rfl
    · rfl

theorem rollback_file (o : Outcomes) (m : AgentNode) : (rollback o m).file = m.file := by
  unfold rollback
  split
  · rfl
  · split <;> rfl

theorem handler_obeys (r : AgentRequest) (m : AgentNode) :
    r.handler.Obeys (fun _ _ => True) (fun _ _ => True) Effect m := by
  cases r with
  | applyUpdate method body o =>
    dsimp only [AgentRequest.handler]
    split
    · trivial
    · cases body with
      | error e => trivial
      | ok digest => exact changeState_obeys (apply_file o digest) o.written m
  | updateStatus method =>
    dsimp only [AgentRequest.handler]
    split
    · trivial
    · exact fun _ _ _ => ⟨rfl, trivial⟩
  | rollbackUpdate method o =>
    dsimp only [AgentRequest.handler]
    split
    · trivial
    · exact changeState_obeys (rollback_file o) o.written m

def agentDiscipline (allow : Guard AgentNode AgentStep) : Discipline Alone allow where
  rely _ _ _ := True
  perm _ _ := True
  G _ := Effect
  rely_refl _ _ := trivial
  rely_trans _ _ _ _ _ _ := trivial
  perm_of_allow _ _ _ _ := trivial
  env_rely _ _ _ _ := trivial
  step_rely _ _ _ _ _ _ _ _ := trivial

/-- The file has the current state, or some request is about to save it. -/
def Pending (ls : List (Option AgentStep)) (m : AgentNode) : Prop :=
  loadUpdateState m.file = m.state ∨ ∃ written, some (.save m.state written) ∈ ls

variable {ls : List (Option AgentStep)}

theorem mem_set_of_ne (hi : ls[i]? = some a) (hb : b ∈ ls) (hne : b ≠ a) :
    b ∈ ls.set i n := by
  obtain ⟨j, hj⟩ := mem_iff_getElem?.mp hb
  have hij : i ≠ j := by
    rintro rfl
    exact hne (Option.some.inj (hj.symm.trans hi))
  exact mem_of_getElem? (by rw [getElem?_set_ne hij]; exact hj)

theorem pending_step {i m m' l n} (hp : Pending ls m) (hl : ls[i]? = some (some l))
    (ha : InOrder l ls m) (he : Effect m l m' n) : Pending (ls.set i n) m' := by
  cases l with
  | update =>
    obtain ⟨-, written, rfl⟩ := he
    refine .inr ⟨written, mem_of_getElem? (i := i) ?_⟩
    exact getElem?_set_self (List.getElem?_eq_some_iff.mp hl).1
  | status =>
    obtain rfl : m' = m := he
    rcases hp with hp | ⟨written, hp⟩
    · exact .inl hp
    · exact .inr ⟨written, mem_set_of_ne hl hp (by simp)⟩
  | save state written =>
    obtain rfl : m' = saveUpdateState written state m := he
    have hstate : (saveUpdateState written state m).state = m.state := by
      unfold saveUpdateState
      split <;> rfl
    by_cases hown : AgentStep.save state written = .save m.state true
    · cases hown
      exact .inl rfl
    · -- the save of the current state is still to come
      refine .inr ⟨true, ?_⟩
      rw [hstate]
      exact mem_set_of_ne hl ha fun h => hown (Option.some.inj h).symm

theorem pending_execution (hm : loadUpdateState m.file = m.state)
    (h : Execution Alone InOrder (agentPool requests m) c) : Pending c.labels c.shared := by
  refine ((agentDiscipline InOrder).execution_invariant ?_ ?_ ?_ (.inl hm) h).2
  · exact fun _ _ _ _ _ _ => pending_step
  · exact fun _ _ _ _ he => he.elim
  · intro i p hp
    obtain ⟨r, -, rfl⟩ := mem_map.mp (mem_of_getElem? hp)
    exact (handler_obeys r _).forget

/-- Whenever no request stands between its change and its save, the file has the state of the
manager. -/
theorem file_follows_manager (file : Option UpdateState)
    (hfile : ∀ state ∈ file, state.status ≠ .other "") (requests : List AgentRequest)
    {c : Config AgentNode AgentStep}
    (h : Execution Alone InOrder (agentPool requests (boot file)) c)
    (hquiet : ∀ l ∈ c.labels, inProgress l = false) :
    loadUpdateState c.shared.file = c.shared.state := by
  have hboot : loadUpdateState (boot file).file = (boot file).state := by
    unfold boot
    dsimp only
    rw [if_neg]
    cases file with
    | none => simp [loadUpdateState]
    | some state => exact hfile state rfl
  rcases pending_execution hboot h with hsaved | ⟨written, hpending⟩
  · exact hsaved
  · cases hquiet _ hpending

/-- Two updates that work, for different images. -/
def twoUpdates : List AgentRequest :=
  [.applyUpdate "POST" (.ok ("node@sha256:".pushn 'a' 64)) ⟨.ok (), .ok (), 1, true⟩,
    .applyUpdate "POST" (.ok ("node@sha256:".pushn 'b' 64)) ⟨.ok (), .ok (), 2, true⟩]

theorem saves_in_turn :
    ((agentPool twoUpdates (boot none)).runSchedule [0, 0, 1, 1]).shared.state.canRollback = true ∧
      loadUpdateState ((agentPool twoUpdates (boot none)).runSchedule [0, 0, 1, 1]).shared.file =
        ((agentPool twoUpdates (boot none)).runSchedule [0, 0, 1, 1]).shared.state :=
  ⟨by decide +kernel, file_follows_manager none (fun _ h => by cases h) twoUpdates
    (runSchedule_execution _ _ (by decide +kernel)) (by decide +kernel)⟩

/-- The state of the first update is saved last. -/
theorem older_state_saved_last :
    ∃ c, Execution Alone Unguarded (agentPool twoUpdates (boot none)) c ∧
      (∀ l ∈ c.labels, l = none) ∧ loadUpdateState c.shared.file ≠ c.shared.state := by
  refine ⟨(agentPool twoUpdates (boot none)).runSchedule [0, 1, 1, 0], ?_, ?_⟩
  · exact runSchedule_execution _ _ (schedule_unguarded _ _)
  · decide +kernel

inductive ManagerCall where
  | apply (digest : String)
  | rollback

def ManagerCall.act (o : Outcomes) : ManagerCall → AgentNode → AgentNode
  | .apply digest, m => NodeUpdates.apply o digest m
  | .rollback, m => NodeUpdates.rollback o m

/-- The call of the updater that a caller asks for, with its outcome. The rollback after a failed
update is not one. -/
def ManagerCall.requested (o : Outcomes) :
    ManagerCall → AgentNode → Option (String × Except String Unit)
  | .apply digest, _ => if imageDigestPattern digest then some (digest, o.apply) else none
  | .rollback, m =>
    if m.state.previousDigest = "" then none else some (m.state.previousDigest, o.rollback)

/-- A manager and the requested calls of its updater so far. -/
structure Managed where
  node : AgentNode := boot none
  requested : List (String × Except String Unit) := []

def Managed.call (h : Managed) (c : Outcomes × ManagerCall) : Managed :=
  ⟨c.2.act c.1 h.node, h.requested ++ (c.2.requested c.1 h.node).toList⟩

def lastSucceeded (requested : List (String × Except String Unit)) : String :=
  ((requested.filter fun call => call.2.isOk).getLast?.map Prod.fst).getD ""

structure Tracked (h : Managed) : Prop where
  active : h.node.state.activeDigest = lastSucceeded h.requested
  canRollback : h.node.state.canRollback = true ↔ h.node.state.previousDigest ≠ ""
  made : (h.requested.map Prod.fst).Sublist h.node.calls
  pattern : ∀ digest ∈ h.node.calls, imageDigestPattern digest
  kept : ∀ digest ∈ [h.node.state.activeDigest, h.node.state.previousDigest], digest ≠ "" →
    imageDigestPattern digest

theorem lastSucceeded_append :
    lastSucceeded (requested ++ [call]) =
      if call.2.isOk then call.1 else lastSucceeded requested := by
  unfold lastSucceeded
  rw [filter_append]
  by_cases hok : call.2.isOk <;> simp [hok]

theorem apply_failed (h : (apply o digest m).state.status = .failed) :
    (apply o digest m).state.activeDigest = m.state.activeDigest ∧
      (apply o digest m).state.previousDigest = m.state.previousDigest := by
  revert h
  unfold apply
  dsimp only
  split
  · exact fun _ => ⟨rfl, rfl⟩
  · split
    · split <;> exact fun _ => ⟨rfl, rfl⟩
    · exact fun h => by cases h

theorem rollback_rolledBack (h : (rollback o m).state.status = .rolledBack) :
    (rollback o m).state.activeDigest = m.state.previousDigest ∧
      (rollback o m).state.previousDigest = m.state.activeDigest := by
  revert h
  unfold rollback
  dsimp only
  split
  · exact fun h => by cases h
  · split
    · exact fun h => by cases h
    · exact fun _ => ⟨rfl, rfl⟩

/-- A call that works moves the active digest to the previous one. Any other leaves both, and may
call the updater with the active digest after the requested call. -/
theorem act_cases (o : Outcomes) (c : ManagerCall) (m : AgentNode) :
    (∃ digest, c.requested o m = some (digest, .ok ()) ∧ (c.act o m).calls = m.calls ++ [digest] ∧
      (c.act o m).state.activeDigest = digest ∧
      (c.act o m).state.previousDigest = m.state.activeDigest) ∨
    ((∀ call ∈ c.requested o m, call.2.isOk = false) ∧
      (∃ undone, (∀ digest ∈ undone, digest = m.state.activeDigest ∧ digest ≠ "") ∧
        (c.act o m).calls = m.calls ++ ((c.requested o m).toList.map Prod.fst ++ undone)) ∧
      (c.act o m).state.activeDigest = m.state.activeDigest ∧
      (c.act o m).state.previousDigest = m.state.previousDigest) := by
  cases c with
  | apply digest =>
    by_cases hpattern : imageDigestPattern digest
    · cases hresult : o.apply with
      | error e =>
        by_cases hactive : m.state.activeDigest = ""
        · exact .inr (by
            simp [ManagerCall.act, ManagerCall.requested, apply, failState, hpattern, hresult,
              hactive, Except.toBool])
        · refine .inr ⟨?_, ⟨[m.state.activeDigest], ?_⟩, ?_⟩ <;>
            simp [ManagerCall.act, ManagerCall.requested, apply, hpattern, hresult,
              hactive, Except.toBool]
      | ok _ =>
        exact .inl (by simp [ManagerCall.act, ManagerCall.requested, apply, hpattern, hresult])
    · exact .inr (by simp [ManagerCall.act, ManagerCall.requested, apply, failState, hpattern])
  | rollback =>
    by_cases hprevious : m.state.previousDigest = ""
    · exact .inr (by
        simp [ManagerCall.act, ManagerCall.requested, rollback, failState, hprevious])
    · cases hresult : o.rollback with
      | error e =>
        exact .inr (by
          simp [ManagerCall.act, ManagerCall.requested, rollback, failState, hprevious, hresult,
            Except.toBool])
      | ok _ =>
        exact .inl (by
          simp [ManagerCall.act, ManagerCall.requested, rollback, hprevious, hresult])

theorem act_canRollback (o : Outcomes) (c : ManagerCall) (m : AgentNode) :
    (c.act o m).state.canRollback = decide ((c.act o m).state.previousDigest ≠ "") := by
  cases c with
  | apply digest =>
    dsimp only [ManagerCall.act, apply]
    split
    · rfl
    · split
      · split <;> rfl
      · rfl
  | rollback =>
    dsimp only [ManagerCall.act, rollback]
    split
    · rfl
    · split <;> rfl

theorem requested_pattern (ht : Tracked h) (c : ManagerCall) :
    ∀ call ∈ c.requested o h.node, imageDigestPattern call.1 := by
  intro call hcall
  cases c with
  | apply digest =>
    dsimp only [ManagerCall.requested] at hcall
    split at hcall
    · cases hcall
      assumption
    · cases hcall
  | rollback =>
    dsimp only [ManagerCall.requested] at hcall
    split at hcall
    · cases hcall
    · cases hcall
      exact ht.kept _ (by simp) ‹_›

theorem tracked_call (ht : Tracked h) (c : Outcomes × ManagerCall) : Tracked (h.call c) := by
  have hrollback := act_canRollback c.1 c.2 h.node
  have hpattern := @requested_pattern h c.1 ht c.2
  have hkept := ht.kept
  rcases act_cases c.1 c.2 h.node with
    ⟨digest, hreq, hcalls, hactive, hprevious⟩ |
    ⟨hreq, ⟨undone, hundone, hcalls⟩, hactive, hprevious⟩
  · have hdigest : imageDigestPattern digest := hpattern _ hreq
    constructor
    · rw [Managed.call, hactive, hreq, Option.toList_some, lastSucceeded_append]
      rfl
    · simp [Managed.call, hrollback]
    · simpa [Managed.call, hreq, hcalls] using ht.made
    · simpa [Managed.call, hcalls, or_imp, forall_and, hdigest] using ht.pattern
    · simp_all [Managed.call]
  · constructor
    · cases hone : c.2.requested c.1 h.node with
      | none => simpa [Managed.call, hactive, hone] using ht.active
      | some call =>
        have hfailed := hreq call hone
        simpa [Managed.call, hactive, hone, lastSucceeded_append, hfailed] using ht.active
    · simp [Managed.call, hrollback]
    · rw [Managed.call, hcalls, map_append]
      exact ht.made.append (sublist_append_left _ _)
    · intro digest hmem
      rw [Managed.call, hcalls] at hmem
      rcases mem_append.mp hmem with hold | hnew
      · exact ht.pattern digest hold
      · rcases mem_append.mp hnew with hnew | hnew
        · obtain ⟨call, hcall, rfl⟩ := mem_map.mp hnew
          exact hpattern call (Option.mem_toList.mp hcall)
        · obtain ⟨rfl, hne⟩ := hundone digest hnew
          exact hkept _ mem_cons_self hne
    · simpa only [Managed.call, hactive, hprevious] using hkept

/-- For every history of a fresh manager. -/
theorem manager_history (calls : List (Outcomes × ManagerCall)) :
    let h := calls.foldl Managed.call {}
    h.node.state.activeDigest = lastSucceeded h.requested ∧
      (h.node.state.canRollback = true ↔ h.node.state.previousDigest ≠ "") ∧
      (h.requested.map Prod.fst).Sublist h.node.calls ∧
      (∀ digest ∈ h.node.calls, imageDigestPattern digest) ∧
      (∀ o digest, (apply o digest h.node).state.status = .failed →
        (apply o digest h.node).state.activeDigest = h.node.state.activeDigest ∧
          (apply o digest h.node).state.previousDigest = h.node.state.previousDigest) ∧
      ∀ o o', (rollback o h.node).state.status = .rolledBack →
        (rollback o' (rollback o h.node)).state.status = .rolledBack →
        (rollback o' (rollback o h.node)).state.activeDigest = h.node.state.activeDigest ∧
          (rollback o' (rollback o h.node)).state.previousDigest =
            h.node.state.previousDigest := by
  have ht : Tracked (calls.foldl Managed.call {}) := by
    refine foldlRecOn calls Managed.call ?_ ?_
    · constructor <;> simp [boot, loadUpdateState, lastSucceeded]
    · exact fun h ht c _ => tracked_call ht c
  refine ⟨ht.active, ht.canRollback, ht.made, ht.pattern, fun o digest => apply_failed, ?_⟩
  intro o o' hfirst hsecond
  obtain ⟨hactive, hprevious⟩ := rollback_rolledBack hfirst
  obtain ⟨hactive', hprevious'⟩ := rollback_rolledBack hsecond
  exact ⟨hactive'.trans hprevious, hprevious'.trans hactive⟩

end NodeUpdates

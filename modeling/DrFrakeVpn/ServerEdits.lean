import DrFrakeVpn.ServerAdmin

/-! # Edits of a server and the runs that write its whole row

What an admin stored between the reading and the writing of a row is gone. -/
namespace ServerEdits

open SharedPrograms RecordTables GoValues NodeFleet NodeAgents ServerAdmin List

variable {cfg : FleetSetup}

structure Holds (e : ServerEdit) (row : NodeServer) : Prop where
  name : ∀ v ∈ e.name, row.name = v
  region : ∀ v ∈ e.region, row.region = v
  countryCode : ∀ v ∈ e.countryCode, row.countryCode = v
  active : ∀ v ∈ e.active, row.active = v
  vipOnly : ∀ v ∈ e.vipOnly, row.vipOnly = v
  endpoint : ∀ v ∈ e.endpoint, row.endpoint = v
  maxPeers : ∀ v ∈ e.maxPeers, row.maxPeers = v
  sshPassword : ∀ v ∈ e.sshPassword, row.sshPassword = v
  agentURL : ∀ v ∈ e.agentURL, row.agentURL = v
  agentNodeID : ∀ v ∈ e.agentNodeID, row.agentNodeID = v

def Reflects (seen : NodeServer × List ServerEdit) : Prop :=
  ∀ e, seen.2.getLast? = some e → Holds e seen.1

inductive AdminRequest where
  | update (deploy : Deployments) (id : String) (req : Except String UpdateServerRequest)
  | toggle (id : String)

def AdminRequest.program (cfg : FleetSetup) : AdminRequest → FleetProgram Unit
  | .update deploy id req => (updateServer cfg deploy id req).forget
  | .toggle id => (toggleServer cfg id).forget

def AdminRequest.Sets : AdminRequest → ServerEdit → Prop
  | .update _ _ req, e => ∃ r, req = .ok r ∧ e = r.edit
  | .toggle _, e => ∃ active, e = activeEdit active

inductive BackgroundRun where
  | push (order : Files → Files) (q : PushRequest)
  | snapshot (order : Files → Files) (answer : Except String AgentAnswer) (id : String)
  | sync (ssh : SshAnswers)

def BackgroundRun.program (cfg : FleetSetup) : BackgroundRun → FleetProgram Unit
  | .push order q => (agentPushSnapshot cfg order q).forget
  | .snapshot order answer id => (agentSnapshot cfg order answer id).forget
  | .sync ssh => syncAllServers cfg ssh

def editPool (cfg : FleetSetup) (admin : AdminRequest) (runs : List BackgroundRun) (s : Fleet) :
    Config Fleet FleetStmt :=
  ⟨admin.program cfg :: runs.map (BackgroundRun.program cfg), s⟩

def savedEdits : FleetStmt → Option (ℕ × List ServerEdit)
  | .saveServer _ server edits => some (server, edits)
  | _ => none

/-- No admin's write was stored since the row was read. -/
def FreshAt (l : FleetStmt) (s : Fleet) : Prop := ∀ x ∈ savedEdits l, s.edits x.1 = x.2

def Fresh : Guard Fleet FleetStmt := fun l _ s => FreshAt l s

instance (l : FleetStmt) (ls : List (Option FleetStmt)) (s : Fleet) : Decidable (Fresh l ls s) :=
  inferInstanceAs (Decidable (∀ x ∈ savedEdits l, s.edits x.1 = x.2))

structure Kept (admin : AdminRequest) (s : Fleet) : Prop where
  recorded : ∀ i e, e ∈ s.edits i → admin.Sets e
  reflected : ∀ i row, s.servers.byId i = some row → Reflects (row, s.edits i)

def Maintaining {α : Type} (admin : AdminRequest) (p : FleetProgram α) (Q : α → Prop) : Prop :=
  p.Maintains FreshAt (fun _ : Unit => Kept admin) (fun _ => Q) ()

section maintaining

variable {admin : AdminRequest} {α β : Type} {Q : α → Prop}

theorem maintaining_pure (h : Q a) : Maintaining admin (pure a) Q := h

theorem Maintaining.bind {R : β → Prop} (hp : Maintaining admin p Q)
    (hk : ∀ a, Q a → Maintaining admin (k a) R) : Maintaining admin (p >>= k) R :=
  Prog.Maintains.bind hp fun _ a ha => hk a ha

theorem maintaining_statement {Q : Except String α → Prop} (herror : ∀ e, Q (.error e))
    (h : ∀ s, Kept admin s → FreshAt l s → Kept admin (f s).2 ∧ Q (f s).1) :
    Maintaining admin (statement cfg l f) Q := by
  refine Prog.maintains_atom ?_
  intro s hs hfresh
  refine ⟨(), ?_⟩
  split
  · exact ⟨hs, herror _⟩
  · exact h s hs hfresh

theorem maintaining_firstRow {find : Fleet → Option α}
    (h : ∀ s a, Kept admin s → find s = some a → Q a) :
    Maintaining admin (statement cfg l (firstRow find)) fun found => ∀ a, found = .ok a → Q a := by
  refine maintaining_statement (fun _ _ ha => by cases ha) ?_
  intro s hs _
  unfold firstRow
  split
  · next a ha =>
    refine ⟨hs, ?_⟩
    rintro _ ⟨⟩
    exact h s a hs ha
  · exact ⟨hs, fun _ ha => by cases ha⟩

theorem maintaining_clock : Maintaining admin clock fun _ => True :=
  Prog.maintains_atom fun _ hs _ => ⟨(), hs, trivial⟩

variable {s : Fleet}

theorem Kept.updateId (hs : Kept admin s) (i : ℕ) {w}
    (hw : ∀ e row, Holds e row → Holds e (w.apply row)) :
    Kept admin { s with servers := s.servers.updateId i w } := by
  refine ⟨hs.recorded, ?_⟩
  intro j row hrow e he
  rw [Table.byId_updateId] at hrow
  split at hrow
  · obtain ⟨old, hold, rfl⟩ := Option.map_eq_some_iff.mp hrow
    exact hw e old (hs.reflected j old hold e he)
  · exact hs.reflected j row hrow e he

variable {row : NodeServer}

theorem Kept.withServer (hs : Kept admin s) (hrow : Reflects (row, s.edits row.id)) :
    Kept admin (s.withServer row) := by
  refine ⟨hs.recorded, ?_⟩
  intro j stored hstored
  rw [byId_withServer] at hstored
  split at hstored
  · next hj =>
    obtain ⟨old, _, rfl⟩ := Option.map_eq_some_iff.mp hstored
    rw [hj]
    exact hrow
  · exact hs.reflected j stored hstored

variable {edits : List ServerEdit}

theorem maintaining_saveServer (site : SaveSite) (h : Reflects (row, edits)) :
    Maintaining admin (saveServer cfg site row edits) fun _ => True := by
  refine maintaining_statement (fun _ => trivial) ?_
  intro s hs hfresh
  refine ⟨hs.withServer ?_, trivial⟩
  rw [hfresh (row.id, edits) rfl]
  exact h

theorem maintaining_saveTemplate (template : NodeTemplate) :
    Maintaining admin (saveTemplate cfg template) fun _ => True := by
  refine maintaining_statement (fun _ => trivial) ?_
  intro s hs _
  unfold storeTemplate
  split
  · exact ⟨⟨hs.recorded, hs.reflected⟩, trivial⟩
  · exact ⟨hs, trivial⟩

theorem maintaining_firstOrInit :
    Maintaining admin (firstOrInitTemplate cfg server) fun _ => True := by
  refine Maintaining.bind (maintaining_firstRow fun _ _ _ _ => trivial) ?_
  intro found _
  cases found <;> exact maintaining_pure trivial

theorem maintaining_audit (action : String) (server : ℕ) (result message : String) :
    Maintaining admin (auditServerAction cfg action server result message) fun _ => True := by
  refine Maintaining.bind (Q := fun _ => True) (maintaining_statement (fun _ => trivial) ?_)
    fun _ _ => maintaining_pure trivial
  intro s hs _
  exact ⟨⟨hs.recorded, hs.reflected⟩, trivial⟩

theorem maintaining_snapshotColumns (server : ℕ) (hash : Option String) (status : String) :
    Maintaining admin (updateSnapshotColumns cfg server hash status) fun _ => True := by
  refine maintaining_clock.bind ?_
  intro now _
  refine Maintaining.bind (Q := fun _ => True) (maintaining_statement (fun _ => trivial) ?_)
    fun _ _ => maintaining_pure trivial
  intro s hs _
  refine ⟨hs.updateId server ?_, trivial⟩
  exact fun _ _ h => ⟨h.name, h.region, h.countryCode, h.active, h.vipOnly, h.endpoint, h.maxPeers,
    h.sshPassword, h.agentURL, h.agentNodeID⟩

variable {row' : NodeServer}

theorem Reflects.columns (h : Reflects (row, edits)) (hrow : ∀ e, Holds e row → Holds e row') :
    Reflects (row', edits) := fun e he => hrow e (h e he)

variable {e : ServerEdit}

theorem holds_readConfig (h : Holds e row) : Holds e (readConfig accepts raw row) :=
  ⟨h.name, h.region, h.countryCode, h.active, h.vipOnly, h.endpoint, h.maxPeers, h.sshPassword,
    h.agentURL, h.agentNodeID⟩

theorem reflects_seen (hs : Kept admin s) (hrow : row ∈ s.servers.rows) : Reflects (s.seen row) :=
  hs.reflected row.id row (s.servers.byId_some_iff.mpr ⟨hrow, rfl⟩)

theorem maintaining_findServer (id : String) :
    Maintaining admin (findServer cfg id) fun found => ∀ seen, found = .ok seen →
      Reflects seen := by
  refine maintaining_firstRow ?_
  intro s seen hs hfound
  obtain ⟨row, hrow, rfl⟩ := Option.map_eq_some_iff.mp hfound
  exact reflects_seen hs (server_mem cfg hrow)

variable {server : NodeServer}

theorem maintaining_storeSnapshot (h : Reflects (server, edits)) :
    Maintaining admin (storeSnapshot cfg server edits template) fun result =>
      ∀ row, result = .ok row → Reflects (row, edits) := by
  refine (maintaining_saveServer .config h).bind ?_
  intro saved _
  cases saved with
  | error e => exact maintaining_pure fun _ hrow => by cases hrow
  | ok _ =>
    dsimp only
    split
    · refine (maintaining_saveTemplate template).bind ?_
      intro stored _
      cases stored with
      | error e => exact maintaining_pure fun _ hrow => by cases hrow
      | ok _ =>
        refine maintaining_pure ?_
        rintro _ ⟨⟩
        exact h
    · refine maintaining_pure ?_
      rintro _ ⟨⟩
      exact h

theorem maintaining_applySnapshot (awgRaw : String) (h : Reflects (server, edits)) (files : Files) :
    Maintaining admin (applySnapshotToServer cfg awgRaw server edits files) fun result =>
      ∀ row, result = .ok row → Reflects (row, edits) := by
  refine (maintaining_firstOrInit).bind ?_
  intro template _
  unfold importFiles
  split
  · exact maintaining_pure fun _ hrow => by cases hrow
  · refine maintaining_storeSnapshot ?_
    split
    · exact h.columns fun _ => holds_readConfig
    · exact h

theorem maintaining_saveStatus (h : Reflects (row, edits)) (hash : String) (now : ℤ)
    (status : String) :
    Maintaining admin (saveServer cfg .status { row with
      agentLastSnapshotHash := hash
      agentLastSnapshotAt := some now
      agentLastSnapshotStatus := status } edits) fun _ => True :=
  maintaining_saveServer .status (h.columns fun _ h => ⟨h.name, h.region, h.countryCode, h.active,
    h.vipOnly, h.endpoint, h.maxPeers, h.sshPassword, h.agentURL, h.agentNodeID⟩)

theorem maintaining_verify (request : SignedRequests.SignedRequest) (nodeID : String) :
    Maintaining admin (verifyAgentPush cfg request nodeID) fun verified =>
      ∀ seen, verified = .ok seen → Reflects seen := by
  unfold verifyAgentPush
  split
  · exact maintaining_pure fun _ hseen => by cases hseen
  refine Maintaining.bind (maintaining_firstRow (Q := Reflects) ?_) ?_
  · intro s seen hs hfound
    obtain ⟨row, hrow, rfl⟩ := Option.map_eq_some_iff.mp hfound
    exact reflects_seen hs (s.servers.first_some hrow).1
  · intro found hfound
    cases found with
    | error e => exact maintaining_pure fun _ hseen => by cases hseen
    | ok seen =>
      dsimp only
      split
      · exact maintaining_pure fun _ hseen => by cases hseen
      refine Maintaining.bind (Prog.Does.maintains ?_
        (Prog.does_within (R := fun _ s s' => ∃ c, s' = withCache c s) ?_ _)) ?_
      · rintro _ s _ ⟨c, rfl⟩ hs
        exact ⟨hs.recorded, hs.reflected⟩
      · exact fun _ _ c => ⟨c, rfl⟩
      · intro verified _
        cases verified with
        | error e => exact maintaining_pure fun _ hseen => by cases hseen
        | ok _ =>
          refine maintaining_pure ?_
          rintro _ ⟨⟩
          exact hfound seen rfl

variable (order : Files → Files)

theorem maintaining_push (q : PushRequest) :
    Maintaining admin (agentPushSnapshot cfg order q) fun _ => True := by
  unfold agentPushSnapshot
  split
  · exact maintaining_pure trivial
  refine (maintaining_verify _ _).bind ?_
  intro verified hverified
  cases verified with
  | error response => exact maintaining_pure trivial
  | ok seen =>
    dsimp only
    split
    · exact (maintaining_snapshotColumns _ _ _).bind fun _ _ => maintaining_pure trivial
    refine (maintaining_applySnapshot _ (hverified seen rfl) _).bind ?_
    intro result hresult
    cases result with
    | error e => exact (maintaining_snapshotColumns _ _ _).bind fun _ _ => maintaining_pure trivial
    | ok row =>
      refine maintaining_clock.bind fun now _ => ?_
      exact (maintaining_saveStatus (hresult row rfl) _ now _).bind fun _ _ =>
        maintaining_pure trivial

theorem maintaining_snapshot (answer : Except String AgentAnswer) (id : String) :
    Maintaining admin (agentSnapshot cfg order answer id) fun _ => True := by
  refine (maintaining_findServer id).bind ?_
  intro found hfound
  cases found with
  | error e => exact maintaining_pure trivial
  | ok seen =>
    dsimp only
    split
    · exact maintaining_pure trivial
    split
    · refine (maintaining_snapshotColumns _ _ _).bind fun _ _ => ?_
      exact (maintaining_audit _ _ _ _).bind fun _ _ => maintaining_pure trivial
    · refine (maintaining_applySnapshot _ (hfound seen rfl) _).bind ?_
      intro result hresult
      cases result with
      | error e =>
        refine (maintaining_snapshotColumns _ _ _).bind fun _ _ => ?_
        exact (maintaining_audit _ _ _ _).bind fun _ _ => maintaining_pure trivial
      | ok row =>
        refine maintaining_clock.bind fun now _ => ?_
        refine (maintaining_saveStatus (hresult row rfl) _ now _).bind fun _ _ => ?_
        exact (maintaining_audit _ _ _ _).bind fun _ _ => maintaining_pure trivial

theorem maintaining_each {f : β → FleetProgram Unit} {xs : List β}
    (h : ∀ x ∈ xs, Maintaining admin (f x) fun _ => True) :
    Maintaining admin (Prog.each f xs) fun _ => True := by
  induction xs with
  | nil => exact maintaining_pure trivial
  | cons x xs ih =>
    refine Maintaining.bind (h x mem_cons_self) fun _ _ => ih ?_
    exact fun y hy => h y (mem_cons_of_mem x hy)

theorem holds_synced (hrow : syncedServer ssh row = some row') (h : Holds e row) :
    Holds e row' := by
  unfold syncedServer at hrow
  split at hrow
  · split at hrow
    · unfold fetchServerConfigHeaders at hrow
      split at hrow
      · cases hrow
      · obtain ⟨out, _, rfl⟩ := Option.map_eq_some_iff.mp hrow
        exact holds_readConfig ⟨h.name, h.region, h.countryCode, h.active, h.vipOnly, h.endpoint,
          h.maxPeers, h.sshPassword, h.agentURL, h.agentNodeID⟩
    · cases hrow
  · cases hrow

theorem maintaining_sync (ssh : SshAnswers) :
    Maintaining admin (syncAllServers cfg ssh) fun _ => True := by
  refine Maintaining.bind (Q := fun found => ∀ servers, found = .ok servers →
    ∀ seen ∈ servers, Reflects seen) (maintaining_statement (fun _ _ h => by cases h) ?_) ?_
  · intro s hs _
    refine ⟨hs, ?_⟩
    rintro _ ⟨⟩ seen hseen
    obtain ⟨row, hrow, rfl⟩ := mem_map.mp hseen
    exact reflects_seen hs (mem_filter.mp hrow).1
  · intro found hfound
    cases found with
    | error e => exact maintaining_pure trivial
    | ok servers =>
      refine maintaining_each ?_
      intro seen hseen
      unfold syncServer
      split
      · exact maintaining_pure trivial
      · next row hrow =>
        have hreflects : Reflects (row, seen.2) :=
          (hfound servers rfl seen hseen).columns fun _ => holds_synced hrow
        exact (maintaining_saveServer .sync hreflects).bind fun _ _ => maintaining_pure trivial

theorem maintaining_run (run : BackgroundRun) :
    Maintaining admin (run.program cfg) fun _ => True := by
  cases run with
  | push order q => exact (maintaining_push order q).bind fun _ _ => maintaining_pure trivial
  | snapshot order answer id =>
    exact (maintaining_snapshot order answer id).bind fun _ _ => maintaining_pure trivial
  | sync ssh => exact maintaining_sync ssh

theorem getD_of_mem {o : Option α} {v d} (h : v ∈ o) : o.getD d = v := by
  rw [Option.mem_def.mp h]
  rfl

theorem holds_write (e : ServerEdit) (row : NodeServer) : Holds e (e.write.apply row) :=
  ⟨fun _ => getD_of_mem, fun _ => getD_of_mem, fun _ => getD_of_mem, fun _ => getD_of_mem,
    fun _ => getD_of_mem, fun _ => getD_of_mem, fun _ => getD_of_mem, fun _ => getD_of_mem,
    fun _ => getD_of_mem, fun _ => getD_of_mem⟩

theorem holds_activeEdit (row : NodeServer) : Holds (activeEdit row.active) row where
  name _ h := by cases h
  region _ h := by cases h
  countryCode _ h := by cases h
  active _ h := Option.some.inj h
  vipOnly _ h := by cases h
  endpoint _ h := by cases h
  maxPeers _ h := by cases h
  sshPassword _ h := by cases h
  agentURL _ h := by cases h
  agentNodeID _ h := by cases h

theorem Kept.recordEdit {t : Fleet} (hs : Kept admin s) {i : ℕ} (hset : admin.Sets e)
    (hedits : t.edits = s.edits) (hother : ∀ j, j ≠ i → t.servers.byId j = s.servers.byId j)
    (hown : ∀ row, t.servers.byId i = some row → Holds e row) : Kept admin (recordEdit t i e) := by
  constructor
  · intro j e' he'
    unfold ServerAdmin.recordEdit at he'
    dsimp only at he'
    rw [hedits] at he'
    by_cases hj : j = i
    · subst hj
      rw [Function.update_self] at he'
      rcases mem_append.mp he' with hold | hnew
      · exact hs.recorded j e' hold
      · rwa [mem_singleton.mp hnew]
    · rw [Function.update_of_ne hj] at he'
      exact hs.recorded j e' he'
  · intro j row hrow e' he'
    unfold ServerAdmin.recordEdit at hrow he'
    dsimp only at hrow he'
    rw [hedits] at he'
    by_cases hj : j = i
    · subst hj
      rw [Function.update_self, getLast?_append, getLast?_singleton] at he'
      obtain rfl := Option.some.inj he'
      exact hown row hrow
    · rw [Function.update_of_ne hj] at he'
      exact hs.reflected j row (by rwa [← hother j hj]) e' he'

theorem maintaining_storeEdit (server : ℕ) (he : admin.Sets e) :
    Maintaining admin (storeEdit cfg server e) fun _ => True := by
  refine maintaining_statement (fun _ => trivial) ?_
  intro s hs _
  refine ⟨hs.recordEdit he rfl ?_ ?_, trivial⟩
  · intro j hj
    rw [Table.byId_updateId, if_neg hj]
  · intro row hrow
    rw [Table.byId_updateId, if_pos rfl] at hrow
    obtain ⟨old, _, rfl⟩ := Option.map_eq_some_iff.mp hrow
    exact holds_write e old

theorem maintaining_storeToggled (he : admin.Sets (activeEdit row.active)) :
    Maintaining admin (storeToggled cfg row) fun _ => True := by
  refine maintaining_statement (fun _ => trivial) ?_
  intro s hs _
  refine ⟨hs.recordEdit he rfl ?_ ?_, trivial⟩
  · intro j hj
    rw [byId_withServer, if_neg hj]
  · intro stored hstored
    rw [byId_withServer, if_pos rfl] at hstored
    obtain ⟨_, _, rfl⟩ := Option.map_eq_some_iff.mp hstored
    exact holds_activeEdit row

theorem maintaining_admin (admin : AdminRequest) :
    Maintaining admin (admin.program cfg) fun _ => True := by
  cases admin with
  | update deploy id req =>
    refine Maintaining.bind (Q := fun _ => True) ?_ fun _ _ => maintaining_pure trivial
    refine (maintaining_findServer id).bind ?_
    intro found _
    cases found with
    | error e => exact maintaining_pure trivial
    | ok seen =>
      cases req with
      | error e => exact maintaining_pure trivial
      | ok req =>
        dsimp only
        split
        · exact maintaining_pure trivial
        refine Maintaining.bind (maintaining_storeEdit _ ?_) ?_
        · exact ⟨req, rfl, rfl⟩
        intro stored _
        cases stored with
        | error e => exact maintaining_pure trivial
        | ok _ =>
          refine (maintaining_firstOrInit).bind fun template _ => ?_
          split
          · exact (maintaining_saveTemplate _).bind fun _ _ => maintaining_pure trivial
          · exact maintaining_pure trivial
  | toggle id =>
    refine Maintaining.bind (Q := fun _ => True) ?_ fun _ _ => maintaining_pure trivial
    refine (maintaining_findServer id).bind ?_
    intro found _
    cases found with
    | error e => exact maintaining_pure trivial
    | ok seen =>
      refine Maintaining.bind (maintaining_storeToggled ?_) ?_
      · exact ⟨_, rfl⟩
      · exact fun _ _ => (maintaining_audit _ _ _ _).bind fun _ _ => maintaining_pure trivial

end maintaining

theorem kept_ticks {admin s t} (h : Ticks s t) (hs : Kept admin s) : Kept admin t := by
  obtain ⟨_, _, rfl⟩ := h
  exact ⟨hs.recorded, hs.reflected⟩

theorem admin_edit_stays (cfg : FleetSetup) (admin : AdminRequest) (runs : List BackgroundRun)
    {s : Fleet} {c : Config Fleet FleetStmt} (hstart : ∀ i, s.edits i = [])
    (h : Execution Ticks Fresh (editPool cfg admin runs s) c) :
    ∀ i row e, c.shared.servers.byId i = some row → (c.shared.edits i).getLast? = some e →
      admin.Sets e ∧ Holds e row := by
  have hs : Kept admin s := by
    constructor
    · intro i e he
      rw [hstart i] at he
      cases he
    · intro i row _ e he
      rw [hstart i] at he
      cases he
  have hpool : ∀ p ∈ (editPool cfg admin runs s).threads,
      p.Maintains FreshAt (fun _ : Unit => Kept admin) (fun _ _ => True) () := by
    intro p hp
    rcases mem_cons.mp hp with rfl | hp
    · exact maintaining_admin admin
    · obtain ⟨run, _, rfl⟩ := mem_map.mp hp
      exact maintaining_run run
  have hc : Kept admin c.shared := by
    refine Prog.Maintains.pool ?_ ?_ hpool hs h
    · exact fun _ _ _ hfresh => hfresh
    · exact fun _ _ => kept_ticks
  intro i row e hrow he
  exact ⟨hc.recorded i e (mem_of_getLast? he), hc.reflected i row hrow e he⟩

def noDeployments : Deployments := ⟨fun _ _ _ => .ok none, fun _ _ _ => .ok none, fun _ _ => none⟩

def renameTo (name : String) : UpdateServerRequest where
  name := name
  region := ""
  countryCode := ""
  vipOnly := none
  endpoint := ""
  maxPeers := 0
  sshPassword := ""
  awgPort := 0
  agentURL := none
  agentNodeID := none
  template := ⟨"", 0, "", "", "", "", "", "", none, 0, "", ""⟩
  hysteriaSNI := ""
  bootstrapSelfHostedXray := false
  bootstrapForceRegenerate := false
  bootstrapHysteria2 := false
  bootstrapHysteria2Force := false

def answersKey : SshAnswers := fun _ command =>
  match command with
  | .dockerPublicKey _ _ => some "server-key"
  | _ => some ""

def renamePool : Config Fleet FleetStmt :=
  editPool .standard (.update noDeployments "1" (.ok (renameTo "second"))) [.sync answersKey]
    (.start oneServer 0)

/-- The rename is done before the sync reads the servers. -/
theorem rename_before_sync_stays :
    ((renamePool.runSchedule [0, 0, 0, 1, 1]).shared.edits 1).getLast? =
        some (renameTo "second").edit ∧
      ∀ row, (renamePool.runSchedule [0, 0, 0, 1, 1]).shared.servers.byId 1 = some row →
        row.publicKey = "server-key" ∧ Holds (renameTo "second").edit row := by
  have hedit : ((renamePool.runSchedule [0, 0, 0, 1, 1]).shared.edits 1).getLast? =
      some (renameTo "second").edit := by decide +kernel
  refine ⟨hedit, ?_⟩
  intro row hrow
  have hkey : ((renamePool.runSchedule [0, 0, 0, 1, 1]).shared.servers.byId 1).map
      NodeServer.publicKey = some "server-key" := by decide +kernel
  rw [hrow] at hkey
  refine ⟨Option.some.inj hkey, ?_⟩
  exact (admin_edit_stays .standard _ [.sync answersKey] (fun _ => rfl)
    (runSchedule_execution renamePool [0, 0, 0, 1, 1] (by decide +kernel)) 1 row _ hrow hedit).2

/-- The sync reads the servers, the rename runs to its end, and the sync saves what it read. -/
theorem sync_undoes_rename :
    ((renamePool.runSchedule [1, 0, 0, 0, 1]).shared.edits 1).getLast? =
        some (renameTo "second").edit ∧
      (renamePool.runSchedule [1, 0, 0, 0, 1]).labels = [none, none] ∧
      ((renamePool.runSchedule [1, 0, 0, 0, 1]).shared.servers.byId 1).map (fun row => row.name) =
        some "first" := by
  decide +kernel

end ServerEdits

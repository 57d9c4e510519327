import DrFrakeVpn.NodeAgents

/-! # What a pushed snapshot stores depends on

Two pushes that agree on what the signature covers store the same, timestamps aside, if they also
agree on the unsigned hash and if the archive holds one config of the interface. -/
namespace SnapshotPushes

open SharedPrograms FaultyTransactions RecordTables GoValues Prog
open NodeFleet NodeAgents
open SignedRequests (SignedRequest PushCall verifyAgentPushSignature)

def timelessServer : Table.Write NodeServer where
  apply row := { row with agentLastSnapshotAt := none, agentLastHeartbeatAt := none }
  id_eq _ := rfl
  key_eq _ := rfl

def timelessTemplate : Table.Write NodeTemplate where
  apply row := { row with updatedAt := 0 }
  id_eq _ := rfl
  key_eq _ := rfl

/-- The database without its timestamps. -/
structure Alike (s t : Fleet) : Prop where
  servers : Table.Alike timelessServer s.servers t.servers
  templates : Table.Alike timelessTemplate s.templates t.templates
  auditLog : s.auditLog = t.auditLog
  notifications : s.notifications = t.notifications

variable {s t : Fleet}

theorem Alike.ticks {s' t'} (h : Alike s t) (hs : Ticks s s') (ht : Ticks t t') : Alike s' t' := by
  obtain ⟨_, _, rfl⟩ := hs
  obtain ⟨_, _, rfl⟩ := ht
  exact ⟨h.servers, h.templates, h.auditLog, h.notifications⟩

structure Untouched (s t : Fleet) : Prop where
  servers : t.servers = s.servers
  templates : t.templates = s.templates
  auditLog : t.auditLog = s.auditLog
  notifications : t.notifications = s.notifications

theorem Untouched.refl (s : Fleet) : Untouched s s := ⟨rfl, rfl, rfl, rfl⟩

variable {u : Fleet}

theorem Untouched.trans (h : Untouched s t) (h' : Untouched t u) : Untouched s u :=
  ⟨h'.servers.trans h.servers, h'.templates.trans h.templates, h'.auditLog.trans h.auditLog,
    h'.notifications.trans h.notifications⟩

theorem ticks_untouched (h : Ticks s t) : Untouched s t := by
  obtain ⟨_, _, rfl⟩ := h
  exact ⟨rfl, rfl, rfl, rfl⟩

theorem Untouched.alike (h : Untouched s t) (h' : Untouched s u) : Alike t u where
  servers := by
    rw [h.servers, h'.servers]
    exact ⟨rfl, rfl⟩
  templates := by
    rw [h.templates, h'.templates]
    exact ⟨rfl, rfl⟩
  auditLog := h.auditLog.trans h'.auditLog.symm
  notifications := h.notifications.trans h'.notifications.symm

variable {cfg : FleetSetup}

variable {l : FleetStmt} {α : Type} {f : Fleet → Except String α × Fleet}

theorem tracks_statement {β : Type} {Q} {g : Fleet → Except String β × Fleet}
    (herror : Q (.error (cfg.failure l)) (.error (cfg.failure l)))
    (h : ∀ s t, Alike s t → Alike (f s).2 (g t).2 ∧ Q (f s).1 (g t).1) :
    (statement cfg l f).Tracks Alike Q (statement cfg l g) := by
  refine Prog.tracks_atom ?_
  intro s t hst
  split
  · exact ⟨hst, herror⟩
  · exact h s t hst

variable {p : FleetProgram α}

theorem tracks_yields {β : Type} {Q : α → β → Prop} {q : FleetProgram β} {s' t' : Fleet} {a : α}
    {b : β} (h : p.Tracks Alike Q q) (hst : Alike s t) (hp : p.Yields Ticks s a s')
    (hq : q.Yields Ticks t b t') : Q a b ∧ Alike s' t' :=
  h.yields (fun _ _ _ _ hs ht hst => hst.ticks hs ht) hst hp hq

theorem tracks_clock : clock.Tracks Alike (fun _ _ => True) clock :=
  Prog.tracks_atom fun _ _ h => ⟨h, trivial⟩

theorem tracks_saveServer (site : SaveSite) {row row' : NodeServer} (edits : List ServerEdit)
    (hrow : timelessServer.apply row = timelessServer.apply row') :
    (saveServer cfg site row edits).Tracks Alike Eq (saveServer cfg site row' edits) := by
  have hid : row.id = row'.id := Table.id_of_apply hrow
  unfold saveServer
  rw [hid]
  refine tracks_statement rfl ?_
  intro s t h
  refine ⟨⟨?_, h.templates, h.auditLog, h.notifications⟩, rfl⟩
  dsimp only [write, Fleet.withServer]
  rw [hid]
  refine h.servers.updateId ?_ _
  intro a b hab
  have hids : a.id = b.id := Table.id_of_apply hab
  dsimp only [overwrite]
  rw [hids, hid]
  split
  · exact hrow
  · exact hab

variable (template : NodeTemplate)

theorem templatesWith_alike (h : Alike s t) :
    Option.Rel (Table.Alike timelessTemplate) (templatesWith template s)
      (templatesWith template t) := by
  unfold templatesWith
  split
  · exact h.templates.insert fun _ => rfl
  · exact h.templates.replace rfl

theorem tracks_saveTemplate :
    (saveTemplate cfg template).Tracks Alike Eq (saveTemplate cfg template) := by
  refine tracks_statement rfl ?_
  intro s t h
  have hstored := templatesWith_alike template h
  unfold storeTemplate
  generalize templatesWith template s = x at hstored ⊢
  generalize templatesWith template t = y at hstored ⊢
  cases hstored with
  | none => exact ⟨h, rfl⟩
  | some ht => exact ⟨⟨h.servers, ht, h.auditLog, h.notifications⟩, rfl⟩

theorem tracks_updateSnapshotColumns (server : ℕ) (hash : Option String) (status : String) :
    (updateSnapshotColumns cfg server hash status).Tracks Alike Eq
      (updateSnapshotColumns cfg server hash status) := by
  refine tracks_clock.bind ?_
  intro now now' _
  refine Prog.Tracks.bind (tracks_statement rfl ?_) fun _ _ _ => Prog.tracks_pure rfl
  intro s t h
  refine ⟨⟨h.servers.updateId ?_ _, h.templates, h.auditLog, h.notifications⟩, rfl⟩
  intro a b hab
  exact congrArg (fun row : NodeServer => { row with
    agentLastSnapshotHash := hash.getD row.agentLastSnapshotHash
    agentLastSnapshotStatus := status }) hab

variable (server : NodeServer)

theorem tracks_storeSnapshot (edits : List ServerEdit) (template : NodeTemplate) :
    (storeSnapshot cfg server edits template).Tracks Alike Eq
      (storeSnapshot cfg server edits template) := by
  refine (tracks_saveServer .config edits rfl).bind ?_
  rintro saved _ rfl
  cases saved with
  | error e => exact tracks_pure rfl
  | ok _ =>
    dsimp only
    split
    · refine (tracks_saveTemplate template).bind ?_
      rintro stored _ rfl
      cases stored <;> exact tracks_pure rfl
    · exact Prog.tracks_pure rfl

theorem tracks_importFiles (edits : List ServerEdit) (files : Files) (template : NodeTemplate) :
    (importFiles cfg server edits files template).Tracks Alike Eq
      (importFiles cfg server edits files template) := by
  unfold importFiles
  split
  · exact Prog.tracks_pure rfl
  · exact tracks_storeSnapshot server edits _

theorem tracks_reportImport (hash : String) (server : ℕ) (edits : List ServerEdit)
    (result : Except String NodeServer) :
    (reportImport cfg hash server edits result).Tracks Alike Eq
      (reportImport cfg hash server edits result) := by
  cases result with
  | error e => exact (tracks_updateSnapshotColumns server _ _).bind fun _ _ _ => tracks_pure rfl
  | ok row =>
    refine tracks_clock.bind ?_
    intro now now' _
    refine Prog.Tracks.bind (tracks_saveServer .status edits ?_) fun _ _ _ => Prog.tracks_pure rfl
    rfl

theorem yields_untouched (hp : p.Does fun _ => Untouched) {a} (h : p.Yields Ticks s a t) :
    Untouched s t :=
  hp.yields (fun _ _ _ h hs => hs.trans h)
    (fun _ _ h hs => hs.trans (ticks_untouched h)) (.refl s) h

theorem cache_ticks (h : Ticks s t) : ReplayCache.Passes (replayCache s) (replayCache t) := by
  obtain ⟨now, hnow, rfl⟩ := h
  exact ⟨hnow, rfl, rfl⟩

theorem refused_signature {call e}
    (h : ((verifyAgentPushSignature cfg.crypto call).within replayCache withCache
      FleetStmt.push).Yields Ticks s (.error e) t) :
    t.accepted = s.accepted := by
  have hcache := yields_of_within (fun _ _ => rfl) (fun _ _ ht => cache_ticks ht) h
  unfold verifyAgentPushSignature at hcache
  split at hcache
  · exact congrArg ReplayCache.Cache.accepted (yields_done.mp hcache).2
  · split at hcache
    · exact congrArg ReplayCache.Cache.accepted (Prog.yields_done.mp hcache).2
    · exact ReplayCache.refused_unaccepted hcache

theorem yields_firstRow {find} {found : Except String α}
    (h : (statement cfg l (firstRow find)).Yields Ticks s found t) :
    Ticks s t ∧ ∀ a, found = .ok a → find t = some a := by
  obtain ⟨u, hu, h⟩ := yields_act.mp h
  split at h
  · obtain ⟨rfl, rfl⟩ := yields_done.mp h
    exact ⟨hu, fun _ ha => by cases ha⟩
  · obtain ⟨rfl, rfl⟩ := Prog.yields_done.mp h
    rw [firstRow_snd]
    refine ⟨hu, ?_⟩
    intro a ha
    unfold firstRow at ha
    split at ha
    · cases ha
      assumption
    · cases ha

def nodeRow (nodeID : String) (s : Fleet) : Option (NodeServer × List ServerEdit) :=
  (s.servers.first? fun row => row.agentNodeID = nodeID).map s.seen

variable {nodeID : String}

theorem nodeRow_ticks (h : Ticks s t) : nodeRow nodeID t = nodeRow nodeID s := by
  obtain ⟨_, _, rfl⟩ := h
  rfl

theorem verify_yields {request v} (h : (verifyAgentPush cfg request nodeID).Yields Ticks s v t) :
    (∀ response, v = .error response → t.accepted = s.accepted) ∧
      ∀ seen, v = .ok seen → nodeRow nodeID s = some seen := by
  unfold verifyAgentPush at h
  split at h
  · obtain ⟨rfl, rfl⟩ := yields_done.mp h
    exact ⟨fun _ _ => rfl, fun _ hv => by cases hv⟩
  · obtain ⟨found, u, hfound, h⟩ := yields_bind.mp h
    obtain ⟨hu, hrow⟩ := yields_firstRow hfound
    have haccepted : u.accepted = s.accepted := by
      obtain ⟨_, _, rfl⟩ := hu
      rfl
    cases found with
    | error e =>
      obtain ⟨rfl, rfl⟩ := yields_done.mp h
      exact ⟨fun _ _ => haccepted, fun _ hv => by cases hv⟩
    | ok seen =>
      have hseen : nodeRow nodeID s = some seen := by
        rw [← nodeRow_ticks hu]
        exact hrow seen rfl
      dsimp only at h
      split at h
      · obtain ⟨rfl, rfl⟩ := yields_done.mp h
        exact ⟨fun _ _ => haccepted, fun _ hv => by cases hv⟩
      · obtain ⟨verified, w, hverified, h⟩ := yields_bind.mp h
        cases verified with
        | error e =>
          obtain ⟨rfl, rfl⟩ := yields_done.mp h
          exact ⟨fun _ _ => (refused_signature hverified).trans haccepted, fun _ hv => by cases hv⟩
        | ok _ =>
          obtain ⟨rfl, rfl⟩ := Prog.yields_done.mp h
          exact ⟨fun _ hv => (by cases hv), fun _ hv => by cases hv; exact hseen⟩

theorem tracks_firstOrInit (server : ℕ) :
    (firstOrInitTemplate cfg server).Tracks (fun s t => s.templates = t.templates) Eq
      (firstOrInitTemplate cfg server) := by
  refine Prog.Tracks.bind (Q := Eq) (tracks_atom ?_) ?_
  · intro s t h
    split
    · exact ⟨h, rfl⟩
    · simp only [firstRow, h]
      split <;> exact ⟨h, rfl⟩
  · rintro found _ rfl
    cases found <;> exact Prog.tracks_pure rfl

variable {files : Files} {edits : List ServerEdit} {awgRaw : String}

theorem applySnapshot_alike {server t' u'} {a b : Except String NodeServer} (ht : Untouched s t)
    (hu : Untouched s u)
    (hp : (applySnapshotToServer cfg awgRaw server edits files).Yields Ticks t a t')
    (hq : (applySnapshotToServer cfg awgRaw server edits files).Yields Ticks u b u') :
    a = b ∧ Alike t' u' := by
  obtain ⟨template, t₁, hload, hp⟩ := yields_bind.mp hp
  obtain ⟨template', u₁, hload', hq⟩ := Prog.yields_bind.mp hq
  have hsame : template = template' := by
    refine ((tracks_firstOrInit _).yields ?_ ?_ hload hload').1
    · intro s s' t t' hs ht h
      rw [(ticks_untouched hs).templates, (ticks_untouched ht).templates, h]
    · rw [ht.templates, hu.templates]
  have ht₁ := ht.trans (yields_untouched (does_firstOrInitTemplate (fun _ => Untouched.refl)) hload)
  have hu₁ := hu.trans (yields_untouched
      (does_firstOrInitTemplate (fun _ => Untouched.refl)) hload')
  have hloaded : Alike t₁ u₁ := ht₁.alike hu₁
  subst hsame
  exact tracks_yields (tracks_importFiles _ edits files template) hloaded hp hq

/-- The archive, where it can be read, holds at most one config of the interface. -/
def OneConfig (cfg : FleetSetup) (q : PushRequest) : Prop :=
  ∀ body files, q.body = .ok body → readSnapshotTarGz cfg body = .ok files →
    (files.filter fun f => hasPrefix f.1 "awg/").length ≤ 1

/-- Where the archive can be read, the other header gives the same hash. -/
def SameHash (cfg : FleetSetup) (q : PushRequest) (header : String) : Prop :=
  ∀ body files, q.body = .ok body → readSnapshotTarGz cfg body = .ok files →
    contentHash cfg { q with snapshotHash := header } body = contentHash cfg q body

variable {order : Files → Files} {order' : Files → Files}

theorem firstSnapshotFile_eq (h : ∀ files, (order files).Perm files)
    (h' : ∀ files, (order' files).Perm files) {pre}
    (hone : (files.filter fun f => hasPrefix f.1 pre).length ≤ 1) :
    firstSnapshotFile order files pre = firstSnapshotFile order' files pre := by
  have hfind : ∀ {order : Files → Files}, (∀ files, (order files).Perm files) →
      ((order files).find? fun f => hasPrefix f.1 pre) =
        (files.filter fun f => hasPrefix f.1 pre).head? := by
    intro order horder
    have hperm := (horder files).filter fun f => hasPrefix f.1 pre
    rw [← List.head?_filter]
    rcases hfiles : files.filter fun f => hasPrefix f.1 pre with _ | ⟨f, _ | ⟨g, rest⟩⟩
    · rw [hfiles] at hperm
      rw [hperm.eq_nil, hfiles]
    · rw [hfiles] at hperm
      rw [List.perm_singleton.mp hperm, hfiles]
    · rw [hfiles] at hone
      simp only [List.length_cons] at hone
      omega
  unfold firstSnapshotFile
  rw [hfind h, hfind h']

variable {q : PushRequest} {a : Response}

theorem push_yields (h : (agentPushSnapshot cfg order q).Yields Ticks s a t)
    (haccepted : t.accepted ≠ s.accepted) :
    ∃ body seen u, q.body = .ok body ∧ nodeRow (trimSpace q.nodeID) s = some seen ∧
      Untouched s u ∧ (∀ e, readSnapshotTarGz cfg body = .error e →
        (updateSnapshotColumns cfg seen.1.id none ("invalid_push_snapshot: " ++ e) >>= fun _ =>
          pure (respondError 400 e)).Yields Ticks u a t) ∧
      ∀ files, readSnapshotTarGz cfg body = .ok files →
        ∃ result v, (applySnapshotToServer cfg (firstSnapshotFile order files "awg/") seen.1 seen.2
            files).Yields Ticks u result v ∧
          (reportImport cfg (contentHash cfg q body) seen.1.id seen.2 result).Yields
            Ticks v a t := by
  unfold agentPushSnapshot at h
  cases hbody : q.body with
  | error e =>
    rw [hbody] at h
    obtain ⟨_, rfl⟩ := yields_done.mp h
    exact (haccepted rfl).elim
  | ok body =>
    rw [hbody] at h
    obtain ⟨v, u, hverify, h⟩ := yields_bind.mp h
    obtain ⟨herror, hok⟩ := verify_yields hverify
    cases v with
    | error response =>
      obtain ⟨_, rfl⟩ := yields_done.mp h
      exact (haccepted (herror _ rfl)).elim
    | ok seen =>
      refine ⟨body, seen, u, rfl, hok _ rfl, yields_untouched
        (does_verifyAgentPush cfg (fun _ => Untouched.refl) (fun _ _ _ => ⟨rfl, rfl, rfl, rfl⟩) _)
        hverify,
        ?_, ?_⟩
      · intro e he
        simpa only [he] using h
      · intro files hfiles
        simp only [hfiles] at h
        obtain ⟨result, v, happly, hreport⟩ := Prog.yields_bind.mp h
        exact ⟨result, v, happly, hreport⟩

theorem pushes_alike {header} {b : Response} (horder : ∀ files, (order files).Perm files)
    (horder' : ∀ files, (order' files).Perm files) (hone : OneConfig cfg q)
    (hhash : SameHash cfg q header) (hp : (agentPushSnapshot cfg order q).Yields Ticks s a t)
    (hq : (agentPushSnapshot cfg order' { q with snapshotHash := header }).Yields Ticks s b u)
    (ht : t.accepted ≠ s.accepted) (hu : u.accepted ≠ s.accepted) : Alike t u := by
  obtain ⟨body, seen, t₁, hbody, hseen, ht₁, hterror, htok⟩ := push_yields hp ht
  obtain ⟨body', seen', u₁, hbody', hseen', hu₁, huerror, huok⟩ := push_yields hq hu
  obtain rfl : body = body' := Except.ok.inj (hbody.symm.trans hbody')
  obtain rfl : seen = seen' := Option.some.inj (hseen.symm.trans hseen')
  cases hread : readSnapshotTarGz cfg body with
  | error e =>
    have htracks : (updateSnapshotColumns cfg seen.1.id none ("invalid_push_snapshot: " ++ e) >>=
        fun _ => pure (respondError 400 e)).Tracks Alike Eq _ :=
      (tracks_updateSnapshotColumns _ _ _).bind fun _ _ _ => Prog.tracks_pure rfl
    exact (tracks_yields htracks (ht₁.alike hu₁) (hterror e hread) (huerror e hread)).2
  | ok files =>
    obtain ⟨result, t₂, happly, hreport⟩ := htok files hread
    obtain ⟨result', u₂, happly', hreport'⟩ := huok files hread
    rw [firstSnapshotFile_eq horder horder' (hone body files hbody hread)] at happly
    rw [hhash body files hbody hread] at hreport'
    obtain ⟨rfl, hstored⟩ := applySnapshot_alike ht₁ hu₁ happly happly'
    exact (tracks_yields (tracks_reportImport _ _ _ result) hstored hreport hreport').2

def KeepsRows (s t : Fleet) : Prop :=
  ∀ i, (s.servers.byId i).isSome = true → (t.servers.byId i).isSome = true

theorem keepsRows_refl (s : Fleet) : KeepsRows s s := fun _ h => h

theorem keepsRows_update (s : Fleet) :
    KeepsRows s { s with servers := s.servers.updateId i w } := by
  intro j hj
  rw [Table.byId_updateId]
  split
  · rwa [Option.isSome_map]
  · exact hj

theorem does_applySnapshot (awgRaw : String) (server : NodeServer) (edits : List ServerEdit)
    (files : Files) :
    (applySnapshotToServer cfg awgRaw server edits files).Does fun _ => KeepsRows := by
  refine (does_firstOrInitTemplate (fun _ => keepsRows_refl)).bind ?_
  intro template
  unfold importFiles
  split
  · exact does_pure _
  refine Prog.Does.bind (does_statement keepsRows_refl fun s => keepsRows_update s) ?_
  intro saved
  cases saved with
  | error e => exact does_pure _
  | ok _ =>
    dsimp only
    split
    · refine Prog.Does.bind (does_statement keepsRows_refl ?_) ?_
      · intro s
        unfold storeTemplate
        split <;> exact keepsRows_refl s
      · intro stored
        cases stored <;> exact does_pure _
    · exact Prog.does_pure _

theorem applySnapshot_id {server row}
    (h : (applySnapshotToServer cfg awgRaw server edits files).Yields Ticks s (.ok row) t) :
    row.id = server.id := by
  have hconfig : (if awgRaw ≠ "" then applyAWGSnapshot awgRaw server else server).id =
      server.id := by
    split <;> rfl
  obtain ⟨template, u, -, h⟩ := yields_bind.mp h
  unfold importFiles at h
  split at h
  · cases (yields_done.mp h).1
  obtain ⟨saved, v, -, h⟩ := yields_bind.mp h
  cases saved with
  | error e => cases (yields_done.mp h).1
  | ok _ =>
    dsimp only at h
    split at h
    · obtain ⟨stored, w, -, h⟩ := yields_bind.mp h
      cases stored with
      | error e => cases (yields_done.mp h).1
      | ok _ =>
        rw [Except.ok.inj (yields_done.mp h).1]
        exact hconfig
    · rw [Except.ok.inj (Prog.yields_done.mp h).1]
      exact hconfig

theorem yields_statement (hcfg : cfg.Reliable) {a} (h : (statement cfg l f).Yields Ticks s a t) :
    ∃ u, Ticks s u ∧ t = (f u).2 := by
  obtain ⟨u, hu, h⟩ := yields_act.mp h
  rw [hcfg l] at h
  exact ⟨u, hu, (Prog.yields_done.mp h).2⟩

def storedHash (s : Fleet) (i : ℕ) : Option String :=
  (s.servers.byId i).map NodeServer.agentLastSnapshotHash

theorem clock_untouched {now} (h : clock.Yields Ticks s now t) : Untouched s t :=
  yields_untouched (Prog.does_atom Untouched.refl) h

theorem reportImport_hash (hcfg : cfg.Reliable) {hash i result}
    (hrow : (s.servers.byId i).isSome) (hid : ∀ row, result = .ok row → row.id = i)
    (h : (reportImport cfg hash i edits result).Yields Ticks s a t) :
    storedHash t i = some hash := by
  obtain ⟨old, hold⟩ := Option.isSome_iff_exists.mp hrow
  cases result with
  | error e =>
    obtain ⟨_, u, hupdate, h⟩ := yields_bind.mp h
    obtain ⟨_, rfl⟩ := yields_done.mp h
    obtain ⟨now, s₁, hclock, h⟩ := yields_bind.mp hupdate
    obtain ⟨_, s₂, hwrite, h⟩ := yields_bind.mp h
    obtain ⟨_, rfl⟩ := yields_done.mp h
    obtain ⟨s₃, hs₃, rfl⟩ := yields_statement hcfg hwrite
    have hservers := ((clock_untouched hclock).trans (ticks_untouched hs₃)).servers
    simp only [storedHash, write, hservers, Table.byId_updateId, hold, if_true, Option.map_some]
    rfl
  | ok row =>
    obtain ⟨now, s₁, hclock, h⟩ := yields_bind.mp h
    obtain ⟨_, s₂, hwrite, h⟩ := yields_bind.mp h
    obtain ⟨_, rfl⟩ := Prog.yields_done.mp h
    obtain ⟨s₃, hs₃, rfl⟩ := yields_statement hcfg hwrite
    have hservers := ((clock_untouched hclock).trans (ticks_untouched hs₃)).servers
    obtain rfl := hid row rfl
    simp [storedHash, write, byId_withServer, hservers, hold]

theorem push_hash (hcfg : cfg.Reliable) (h : (agentPushSnapshot cfg order q).Yields Ticks s a t)
    (haccepted : t.accepted ≠ s.accepted) {body} (hbody : q.body = .ok body)
    (hread : readSnapshotTarGz cfg body = .ok files) :
    ∃ seen, nodeRow (trimSpace q.nodeID) s = some seen ∧
      storedHash t seen.1.id = some (contentHash cfg q body) := by
  obtain ⟨body', seen, u, hbody', hseen, hu, -, hok⟩ := push_yields h haccepted
  obtain rfl : body = body' := Except.ok.inj (hbody.symm.trans hbody')
  obtain ⟨result, v, happly, hreport⟩ := hok files hread
  refine ⟨seen, hseen, reportImport_hash hcfg ?_ ?_ hreport⟩
  · have hfound : (u.servers.byId seen.1.id).isSome := by
      obtain ⟨row, hfirst, rfl⟩ := Option.map_eq_some_iff.mp hseen
      obtain ⟨hmem, _⟩ := s.servers.first_some hfirst
      have hrow : s.servers.byId row.id = some row := s.servers.byId_some_iff.mpr ⟨hmem, rfl⟩
      rw [hu.servers]
      exact Option.isSome_iff_exists.mpr ⟨row, hrow⟩
    exact (does_applySnapshot _ _ _ _).yields (fun _ _ _ h hs => h _ hs)
      (fun _ _ h hs => by rwa [(ticks_untouched h).servers]) hfound happly
  · rintro row rfl
    exact applySnapshot_id happly

theorem hash_alike (h : Alike s t) (i : ℕ) : storedHash s i = storedHash t i := by
  have hrows := congrArg (Option.map NodeServer.agentLastSnapshotHash) (h.servers.byId i)
  rwa [Option.map_map, Option.map_map] at hrows

theorem pushed_snapshot_stored (cfg : FleetSetup) {order order' : Files → Files} {q : PushRequest}
    {header : String} {s t u : Fleet} {a b : Response} (horder : ∀ files, (order files).Perm files)
    (horder' : ∀ files, (order' files).Perm files)
    (hp : (agentPushSnapshot cfg order q).Yields Ticks s a t)
    (hq : (agentPushSnapshot cfg order' { q with snapshotHash := header }).Yields Ticks s b u)
    (ht : t.accepted ≠ s.accepted) (hu : u.accepted ≠ s.accepted) :
    (OneConfig cfg q ∧ SameHash cfg q header → Alike t u) ∧
      (cfg.Reliable → Alike t u → SameHash cfg q header) := by
  constructor
  · rintro ⟨hone, hhash⟩
    exact pushes_alike horder horder' hone hhash hp hq ht hu
  · intro hcfg halike body files hbody hread
    obtain ⟨seen, hseen, hhash⟩ := push_hash hcfg hp ht hbody hread
    obtain ⟨seen', hseen', hhash'⟩ := push_hash hcfg hq hu hbody hread
    obtain rfl : seen = seen' := Option.some.inj (hseen.symm.trans hseen')
    rw [hash_alike halike, hhash'] at hhash
    exact Option.some.inj hhash

def freshFleet : Fleet := .start oneServer 0

def pushWith (header : String) : PushRequest where
  method := "POST"
  path := "/agent/snapshot"
  timestamp := "now"
  nonce := "nonce"
  signature := "signature"
  nodeID := "node"
  snapshotHash := header
  body := .ok "archive"

def afterPush (header : String) : Fleet :=
  ((agentPushSnapshot .standard id (pushWith header)).run freshFleet).2

theorem afterPush_yields (header : String) :
    (agentPushSnapshot .standard id (pushWith header)).Yields Ticks freshFleet
      ((agentPushSnapshot .standard id (pushWith header)).run freshFleet).1 (afterPush header) :=
  Prog.yields_run ticks_refl _ _

/-- A header that names the hash of the body stores what a blank one stores. -/
theorem blank_header_stores_alike : Alike (afterPush "") (afterPush " 61726368697665 ") := by
  refine (pushed_snapshot_stored .standard (fun _ => .refl _) (fun _ => .refl _)
    (afterPush_yields "") (afterPush_yields " 61726368697665 ") ?_ ?_).1 ⟨?_, ?_⟩
  · decide +kernel
  · decide +kernel
  · intro body files hbody hread
    cases hbody
    cases hread
    exact Nat.zero_le 1
  · intro body files hbody _
    cases hbody
    decide +kernel

theorem unsigned_header_is_stored :
    (afterPush "first").accepted ≠ freshFleet.accepted ∧
      (afterPush "second").accepted ≠ freshFleet.accepted ∧
      storedHash (afterPush "first") 1 = some "first" ∧
      storedHash (afterPush "second") 1 = some "second" ∧
      ¬ Alike (afterPush "first") (afterPush "second") := by
  have hfirst : storedHash (afterPush "first") 1 = some "first" := by decide +kernel
  have hsecond : storedHash (afterPush "second") 1 = some "second" := by decide +kernel
  refine ⟨by decide +kernel, by decide +kernel, hfirst, hsecond, ?_⟩
  intro h
  have hsame := hash_alike h 1
  revert hsame
  decide

end SnapshotPushes

import DrFrakeVpn.HappDelivery
import DrFrakeVpn.RemoteAddition

/-! # What preparing credentials does

Nothing else of the database changes, and an open credential stays as it is. -/
namespace CredentialEffects

open SharedPrograms FaultyTransactions RecordTables List
open BackendModels BackendWorld VpnCommands AccessCredentials RemoteRemoval RemoteAddition
open ConfigDelivery HappDelivery

/-- Credentials were prepared, at most for the users and servers that `may` names. Without a
failure no client is shut out. -/
structure Prepares (cfg : Setup) (may : ℕ → ℕ → Prop) (w w' : World) : Prop where
  frame : w' = { w with
    remote := w'.remote
    random := w'.random
    db := { w.db with
      templates := w'.db.templates
      vlessCredentials := w'.db.vlessCredentials } }
  peers : w'.remote.awgPeers = w.remote.awgPeers
  opened : ∀ c ∈ w'.db.vlessCredentials.rows, c.revokedAt = none →
    c ∈ w.db.vlessCredentials.rows ∨ may c.userID c.serverID
  kept : ∀ c ∈ w.db.vlessCredentials.rows, c.revokedAt = none → c ∈ w'.db.vlessCredentials.rows
  clients : cfg.Reliable → ∀ i x, HasClient w i x → HasClient w' i x

section prepares

variable {cfg : Setup} {may may' : ℕ → ℕ → Prop} {a b c w w' : World}

theorem Prepares.refl (w : World) : Prepares cfg may w w :=
  ⟨rfl, rfl, fun _ h _ => .inl h, fun _ h _ => h, fun _ _ _ h => h⟩

theorem Prepares.trans (h : Prepares cfg may a b) (h' : Prepares cfg may b c) :
    Prepares cfg may a c where
  frame := by
    rw [h'.frame, h.frame]
  peers := h'.peers.trans h.peers
  opened x hx hopen := by
    rcases h'.opened x hx hopen with hb | hmay
    · exact h.opened x hb hopen
    · exact .inr hmay
  kept x hx hopen := h'.kept x (h.kept x hx hopen) hopen
  clients hr i x hx := h'.clients hr i x (h.clients hr i x hx)

theorem Prepares.mono (h : Prepares cfg may w w') (hmay : ∀ u i, may u i → may' u i) :
    Prepares cfg may' w w' :=
  { h with opened := fun x hx hopen => (h.opened x hx hopen).imp_right (hmay _ _) }

theorem Prepares.servers (h : Prepares cfg may w w') : w'.db.servers = w.db.servers := by
  rw [h.frame]

theorem Prepares.now (h : Prepares cfg may w w') : w'.now = w.now := by
  rw [h.frame]

theorem Prepares.jobs (h : Prepares cfg may w w') : w'.jobs = w.jobs := by
  rw [h.frame]

theorem Prepares.subscriptions (h : Prepares cfg may w w') :
    w'.db.subscriptions = w.db.subscriptions := by
  rw [h.frame]

theorem Prepares.of_templates :
    Prepares cfg may w { w with random := n, db := { w.db with templates := t } } :=
  ⟨rfl, rfl, fun _ h _ => .inl h, fun _ h _ => h, fun _ _ _ h => h⟩

theorem Prepares.of_remote (hframe : w' = { w with remote := w'.remote })
    (hpeers : w'.remote.awgPeers = w.remote.awgPeers)
    (hclients : ∀ i x, HasClient w i x → HasClient w' i x) : Prepares cfg may w w' := by
  obtain ⟨r, rfl⟩ : ∃ r, w' = { w with remote := r } := ⟨_, hframe⟩
  exact ⟨rfl, hpeers, fun _ h _ => .inl h, fun _ h _ => h, fun _ => hclients⟩

end prepares

variable (cfg : Setup) (sv : Services)

theorem keeps_sshExec {α : Type} {l} {f : Remote → α × Remote} {P}
    (h : ∀ w, P w → P { w with remote := (f w.remote).2 }) :
    (sshExec cfg l f).Keeps P fun _ => True :=
  triple_single (fun _ hw => ⟨hw, trivial⟩) fun w hw => ⟨h w hw, trivial⟩

section templates

variable {may : ℕ → ℕ → Prop} {w : World}

theorem storeTemplateOf_prepares (template : VLESSServerTemplate) (w : World) :
    Prepares cfg may w (storeTemplateOf template w).2 := by
  unfold storeTemplateOf
  split
  · exact .of_templates
  · split
    · exact .of_templates
    · exact .refl w

theorem ensureVLESSTemplate_prepares (server : VPNServer) (stored : Option VLESSServerTemplate) :
    (ensureVLESSTemplate cfg sv server stored).Keeps (Prepares cfg may w) fun _ => True := by
  refine .bind keeps_clock fun now _ => ?_
  split
  · exact .done trivial
  split
  · refine .bind (keeps_sshExec cfg fun _ h => h) fun r _ => ?_
    split
    · refine .bind (keeps_exec1 fun v h => h.trans (storeTemplateOf_prepares cfg _ v)) fun r _ => ?_
      split <;> exact .done trivial
    · exact .done trivial
  · exact .done trivial

end templates

def Answers (userID serverID : ℕ) (r : Except CredentialError VLESSCredential) (w : World) : Prop :=
  ∀ c, r = .ok c → c ∈ w.db.vlessCredentials.rows ∧ c.revokedAt = none ∧ c.userID = userID ∧
    c.serverID = serverID

variable {userID : ℕ} {c : VLESSCredential} {db : Db} {serverID : ℕ}

theorem credentialOf_some (h : credentialOf db userID serverID = some c) :
    c ∈ db.vlessCredentials.rows ∧ c.userID = userID ∧ c.serverID = serverID := by
  obtain ⟨hc, hq⟩ := db.vlessCredentials.first_some h
  exact ⟨hc, by simpa using hq⟩

variable {may : ℕ → ℕ → Prop} (site : XrayStep → Stmt)

theorem addXrayClient_prepares (server : VPNServer) (template : VLESSServerTemplate)
    (clientID : String) (w : World) :
    Prepares cfg may w ((addXrayClient cfg site server template clientID).run w).2 :=
  .of_remote (addXrayClient_frame cfg site server template clientID w).1
    (addXrayClient_frame cfg site server template clientID w).2
    fun _ _ h => hasClient_kept cfg site server template clientID w h

theorem removal_prepares (server : Option VPNServer) (template : Option VLESSServerTemplate)
    (clientID : String) (hfailed : ¬ cfg.Reliable) (w : World) :
    Prepares cfg may w ((removeXrayClient cfg site server template clientID).run w).2 := by
  obtain ⟨hframe, hpeers⟩ := removeXrayClient_frame cfg site clientID w server template
  obtain ⟨r, hr⟩ : ∃ r, ((removeXrayClient cfg site server template clientID).run w).2 =
    { w with remote := r } := ⟨_, hframe⟩
  rw [hr] at hpeers ⊢
  exact ⟨rfl, hpeers, fun _ h _ => .inl h, fun _ h _ => h, fun h => absurd h hfailed⟩

variable {w : World}

theorem saveCredentialOf_run (hc : c ∈ w.db.vlessCredentials.rows) (hrevoked : c.revokedAt ≠ none) :
    (saveCredentialOf { c with revokedAt := none } w).1 = .ok () ∧
      Prepares cfg (fun u i => u = c.userID ∧ i = c.serverID) w
        (saveCredentialOf { c with revokedAt := none } w).2 ∧
      { c with revokedAt := none } ∈
        (saveCredentialOf { c with revokedAt := none } w).2.db.vlessCredentials.rows := by
  have hid := w.db.vlessCredentials.byId_some_iff.mpr ⟨hc, rfl⟩
  obtain ⟨t, ht⟩ := w.db.vlessCredentials.replace_isSome
    (a := { c with revokedAt := none }) hid rfl
  obtain ⟨hrows, _⟩ := w.db.vlessCredentials.replace_some ht
  have hrun : saveCredentialOf { c with revokedAt := none } w =
      (.ok (), { w with db := { w.db with vlessCredentials := t } }) := by
    simp [saveCredentialOf, tryWriteOf, ht]
  rw [hrun]
  refine ⟨rfl, ⟨rfl, rfl, fun x hx hopen => ?_, fun x hx hopen => ?_, fun _ _ _ h => h⟩, ?_⟩
  · rw [hrows] at hx
    obtain ⟨y, hy, rfl⟩ := mem_map.mp hx
    split
    · exact .inr ⟨rfl, rfl⟩
    · exact .inl hy
  · -- the open rows are others than the one that is written
    have hne : ¬ x.id = c.id := by
      intro hxc
      rw [w.db.vlessCredentials.id_injective hx hc hxc] at hopen
      exact hrevoked hopen
    rw [hrows]
    exact mem_map.mpr ⟨x, hx, if_neg hne⟩
  · rw [hrows]
    exact mem_map.mpr ⟨c, hc, if_pos rfl⟩

theorem reopenCredential_prepares (server : VPNServer) (template : VLESSServerTemplate)
    (hmay : may c.userID c.serverID) (hrevoked : c.revokedAt ≠ none) :
    (reopenCredential cfg server template c).Triple
      (fun v => Prepares cfg may w v ∧ c ∈ v.db.vlessCredentials.rows)
      fun r v => Prepares cfg may w v ∧ Answers c.userID c.serverID r v := by
  refine .bind (Q := fun _ v => Prepares cfg may w v ∧ c ∈ v.db.vlessCredentials.rows)
    (fun v h => ?_) ?_
  · refine ⟨h.1.trans (addXrayClient_prepares cfg _ _ _ _ v), ?_⟩
    rw [(addXrayClient_frame cfg _ _ _ _ v).1]
    exact h.2
  rintro (e | _)
  · exact .done fun v h => ⟨h.1, fun _ hc => by cases hc⟩
  refine .bind (Q := fun r v => Prepares cfg may w v ∧ (r = .ok () →
    { c with revokedAt := none } ∈ v.db.vlessCredentials.rows)) (triple_exec1 ?_ ?_) ?_
  · exact fun _ v h => ⟨h.1, fun hr => by cases hr⟩
  · intro v h
    obtain ⟨_, hsave, hmem⟩ := saveCredentialOf_run cfg h.2 hrevoked
    refine ⟨h.1.trans (hsave.mono fun u i hui => ?_), fun _ => hmem⟩
    rw [hui.1, hui.2]
    exact hmay
  · rintro (e | _)
    · exact .done fun v h => ⟨h.1, fun _ hc => by cases hc⟩
    · refine .done fun v h => ⟨h.1, fun x hx => ?_⟩
      cases hx
      exact ⟨h.2 rfl, rfl, rfl, rfl⟩

theorem createCredentialOf_run (hnone : credentialOf w.db userID serverID = none)
    (clientID : String) :
    Prepares cfg (fun u i => u = userID ∧ i = serverID) w
        (createCredentialOf userID serverID clientID w).2 ∧
      ∃ c, (createCredentialOf userID serverID clientID w).1 = .ok c ∧ c.userID = userID ∧
        c.serverID = serverID ∧ c.clientID = clientID ∧ c.revokedAt = none ∧
        c ∈ (createCredentialOf userID serverID clientID w).2.db.vlessCredentials.rows := by
  have hkey : ∀ b ∈ w.db.vlessCredentials.rows, Record.key b ≠
      Record.key (⟨w.db.vlessCredentials.seq, w.now, userID, serverID, clientID, none⟩ :
        VLESSCredential) := by
    intro b hb heq
    have hq := w.db.vlessCredentials.first_none hnone b hb
    obtain ⟨hu, hs⟩ := Prod.mk.inj heq
    simp [hu, hs] at hq
  obtain ⟨t, ht⟩ : ∃ t, w.db.vlessCredentials.insert
      (fun id => ⟨id, w.now, userID, serverID, clientID, none⟩) = some t :=
    w.db.vlessCredentials.insert_isSome rfl hkey
  obtain ⟨hrows, _, _⟩ := w.db.vlessCredentials.insert_some ht
  have hrun : createCredentialOf userID serverID clientID w =
      (.ok ⟨w.db.vlessCredentials.seq, w.now, userID, serverID, clientID, none⟩,
        { w with db := { w.db with vlessCredentials := t } }) := by
    simp [createCredentialOf, ht]
  rw [hrun]
  refine ⟨⟨rfl, rfl, fun x hx _ => ?_, fun x hx _ => ?_, fun _ _ _ h => h⟩, _, rfl, rfl, rfl, rfl,
    rfl, ?_⟩
  · rw [hrows] at hx
    rcases mem_append.mp hx with hx | hx
    · exact .inl hx
    · rw [mem_singleton.mp hx]
      exact .inr ⟨rfl, rfl⟩
  · rw [hrows]
    exact mem_append_left _ hx
  · rw [hrows]
    exact mem_append_right _ mem_cons_self

variable {template : VLESSServerTemplate} {server : VPNServer}

theorem issueCredential_prepares (hmay : may userID server.id) :
    (issueCredential cfg sv userID server template).Triple
      (fun v => Prepares cfg may w v ∧ credentialOf v.db userID server.id = none)
      fun r v => Prepares cfg may w v ∧ Answers userID server.id r v := by
  refine .bind (Q := fun _ v => Prepares cfg may w v ∧
    credentialOf v.db userID server.id = none) (.atom fun v h => ?_) fun n => ?_
  · exact ⟨h.1.trans .of_templates, h.2⟩
  refine .bind (Q := fun _ v => Prepares cfg may w v ∧
    credentialOf v.db userID server.id = none) (fun v h => ?_) ?_
  · refine ⟨h.1.trans (addXrayClient_prepares cfg _ _ _ _ v), ?_⟩
    rw [(addXrayClient_frame cfg _ _ _ _ v).1]
    exact h.2
  rintro (e | _)
  · exact .done fun v h => ⟨h.1, fun _ hc => by cases hc⟩
  -- the row fits, so only a failure keeps it from being stored
  refine .bind (Q := fun r v => Prepares cfg may w v ∧
    Answers userID server.id (r.mapError .db) v ∧ (∀ e, r = .error e → ¬ cfg.Reliable))
    (triple_exec1 (fun hfault v h => ?_) fun v h => ?_) ?_
  · refine ⟨h.1, fun _ hc => by simp [Except.mapError] at hc, fun _ _ hr => ?_⟩
    rw [hr] at hfault
    cases hfault
  · obtain ⟨hnew, c, hok, hu, hs, _, hopen, hmem⟩ := createCredentialOf_run cfg h.2 (sv.uuid n)
    rw [hok]
    refine ⟨h.1.trans (hnew.mono fun u i hui => ?_), fun x hx => ?_, fun e he => by cases he⟩
    · rw [hui.1, hui.2]
      exact hmay
    · cases hx
      exact ⟨hmem, hopen, hu, hs⟩
  · rintro (e | c)
    · refine .bind (Q := fun _ => Prepares cfg may w) (fun v h => ?_) fun _ => ?_
      · exact h.1.trans (removal_prepares cfg _ _ _ _ (h.2.2 e rfl) v)
      · exact .done fun v h => ⟨h, fun _ hc => by cases hc⟩
    · exact .done fun v h => ⟨h.1, fun x hx => h.2.1 x (by cases hx; rfl)⟩

theorem ensureVLESSCredential_prepares (hmay : may userID server.id) :
    (ensureVLESSCredential cfg sv userID server template).Triple (Prepares cfg may w)
      fun r v => Prepares cfg may w v ∧ Answers userID server.id r v := by
  refine .bind (triple_read _) ?_
  rintro (e | _ | c)
  · exact .done fun v h => ⟨h.1, fun _ hc => by cases hc⟩
  · refine (issueCredential_prepares cfg sv hmay).pre fun v h => ⟨h.1, ?_⟩
    exact (h.2.1 none rfl).symm
  · intro v h
    obtain ⟨hc, hu, hs⟩ := credentialOf_some (h.2.1 (some c) rfl).symm
    dsimp only
    split
    · next hopen =>
      refine ⟨h.1, fun x hx => ?_⟩
      cases hx
      exact ⟨hc, hopen, hu, hs⟩
    · next hrevoked =>
      subst hu
      rw [← hs] at hmay
      have hreopen := reopenCredential_prepares cfg server template hmay hrevoked v
        ⟨h.1, hc⟩
      rwa [hs] at hreopen

/-- An active server that is open to everybody, or to VIP users if `vip` says so. -/
def Serves (db : Db) (vip : Bool) (serverID : ℕ) : Prop :=
  ∃ s ∈ db.servers.rows, s.id = serverID ∧ s.active = true ∧ (s.vipOnly = true → vip = true)

variable {x : VPNServer × Option VLESSServerTemplate}

theorem mem_activeServers :
    x ∈ activeServers vip db ↔ x.1 ∈ db.servers.rows ∧ x.1.active ∧
      (x.1.vipOnly → vip) ∧ x.2 = db.templates.first? fun t => t.serverID = x.1.id := by
  obtain ⟨s, template⟩ := x
  have hvip : ∀ s : VPNServer, (vip || !s.vipOnly) ↔ (s.vipOnly → vip) := by
    intro s
    cases vip <;> cases s.vipOnly <;> simp
  simp only [activeServers, Table.select, mem_map, mem_filter, Bool.and_eq_true, hvip,
    Prod.mk.injEq]
  constructor
  · rintro ⟨s', ⟨hs, hactive, hv⟩, rfl, rfl⟩
    exact ⟨hs, hactive, hv, rfl⟩
  · rintro ⟨hs, hactive, hv, ht⟩
    exact ⟨s, ⟨hs, hactive, hv⟩, rfl, ht.symm⟩

theorem serves_of_mem (h : x ∈ activeServers vip db) : Serves db vip x.1.id :=
  have ⟨hs, hactive, hv, _⟩ := mem_activeServers.mp h
  ⟨x.1, hs, rfl, hactive, hv⟩

theorem happCredential_prepares (hmay : may userID x.1.id) :
    (happCredential cfg sv userID isVIP x).Keeps (Prepares cfg may w) fun r => ∀ e ∈ r, True := by
  unfold happCredential
  split
  · exact .done fun _ _ => trivial
  split
  · exact .done fun _ _ => trivial
  split
  · exact .done fun _ _ => trivial
  refine .bind (.of_run fun v hv => (ensureVLESSCredential_prepares cfg sv hmay v hv).1) ?_
  rintro (e | c) - <;> exact .done fun _ _ => trivial

/-- What the Happ preparation may open for a user with this subscription. -/
def HappPrepares (w : World) (userID : ℕ) (sub : Subscription) (u i : ℕ) : Prop :=
  u = userID ∧ Serves w.db (isVIPSubscription w.now sub) i

theorem ensureHappCredentials_prepares (userID : ℕ) (sub : Subscription) (w : World) :
    Prepares cfg (HappPrepares w userID sub) w
      ((ensureHappCredentials cfg sv userID sub).run w).2 := by
  have h : (ensureHappCredentials cfg sv userID sub).Triple (· = w) fun _ =>
      Prepares cfg (HappPrepares w userID sub) w := by
    refine .bind triple_clock fun now => .bind (triple_read _) ?_
    rintro (e | servers)
    · refine .done fun v hv => ?_
      rw [hv.1.1]
      exact .refl w
    · refine .given (servers = activeServers (isVIPSubscription w.now sub) w.db)
        ?_ fun hservers => ?_
      · intro v hv
        obtain ⟨⟨rfl, rfl⟩, hread, _⟩ := hv
        exact hread servers rfl
      · refine Prog.Triple.bind (P := Prepares cfg (HappPrepares w userID sub) w)
          (Prog.Keeps.collect fun x hx => happCredential_prepares cfg sv ⟨rfl, ?_⟩)
          (fun errors => ?_) |>.pre fun v hv => ?_
        · rw [hservers] at hx
          exact serves_of_mem hx
        · split <;> exact Prog.Triple.done fun _ h => h.1
        · rw [hv.1.1]
          exact .refl w
  exact h w rfl

def Served (w : World) (sub : Subscription) : Prop :=
  sub ∈ w.db.subscriptions.rows ∧ sub.status = .active ∧ w.now < sub.expiresAt ∧
    (w.db.users.byId sub.userID).isSome = true

theorem mem_servedSubscriptions : sub ∈ servedSubscriptions w.now w.db ↔ Served w sub := by
  simp [servedSubscriptions, Table.select, Served, and_assoc]

def Generates (w : World) (u i : ℕ) : Prop :=
  ∃ sub, Served w sub ∧ sub.userID = u ∧ Serves w.db (isVIPSubscription w.now sub) i

section generator

variable {may : ℕ → ℕ → Prop} {w : World}

theorem generateFor_prepares
    (hmay : (server.vipOnly → isVIPSubscription w.now sub) → may sub.userID server.id) :
    (generateFor cfg sv server template sub).Keeps (Prepares cfg may w) fun _ => True := by
  refine Prog.Triple.bind triple_clock fun now => ?_
  refine Prog.Triple.given (now = w.now) (fun v hv => hv.2.trans hv.1.now) fun hnow => ?_
  refine Prog.Triple.pre ?_ fun _ h => h.1
  split
  · exact Prog.Keeps.done trivial
  next hvip =>
  split
  · exact Prog.Keeps.done trivial
  have hopens : may sub.userID server.id := by
    refine hmay fun hv => ?_
    rw [hnow] at hvip
    simpa [hv] using hvip
  have hissue : (do let _ ← ensureVLESSCredential cfg sv sub.userID server template :
      Handler Unit).Keeps (Prepares cfg may w) fun _ => True :=
    .bind (.of_run fun v hv => (ensureVLESSCredential_prepares cfg sv hopens v hv).1) fun _ _ =>
      .done trivial
  refine Prog.Keeps.bind (keeps_read _) ?_
  rintro (e | _ | c) -
  · exact hissue
  · exact hissue
  · dsimp only
    split
    · exact .done trivial
    · exact hissue

theorem generateOn_prepares (hmay : ∀ sub ∈ subs, (x.1.vipOnly → isVIPSubscription
      w.now sub) → may sub.userID x.1.id) :
    (generateOn cfg sv subs x).Keeps (Prepares cfg may w) fun _ => True := by
  refine .bind (ensureVLESSTemplate_prepares cfg sv x.1 x.2) fun r _ => ?_
  split
  · exact .done trivial
  · exact .done trivial
  · split
    · exact .each fun sub hsub => generateFor_prepares cfg sv (hmay sub hsub)
    · exact .done trivial

end generator

theorem generateMissingConfigs_prepares (w : World) :
    Prepares cfg (Generates w) w ((generateMissingConfigs cfg sv).run w).2 := by
  have h : (generateMissingConfigs cfg sv).Triple (· = w) fun _ =>
      Prepares cfg (Generates w) w := by
    refine .bind (triple_read _) ?_
    rintro (e | servers)
    · refine .done fun v hv => ?_
      rw [hv.1]
      exact .refl w
    refine .bind triple_clock fun now => .bind (triple_read _) ?_
    rintro (e | subs)
    · refine .done fun v hv => ?_
      rw [hv.1.1.1]
      exact .refl w
    · intro v hv
      obtain ⟨⟨⟨rfl, hservers, _⟩, rfl⟩, hsubs, _⟩ := hv
      refine (Prog.Keeps.each (fun x hx => ?_) v (.refl v)).1
      rw [hservers servers rfl] at hx
      refine generateOn_prepares cfg sv fun sub hsub hvip => ?_
      rw [hsubs subs rfl] at hsub
      obtain ⟨hserver, hactive, _⟩ := mem_activeServers.mp hx
      exact ⟨sub, mem_servedSubscriptions.mp hsub, rfl, x.1, hserver, rfl, hactive, hvip⟩
  exact h w rfl

end CredentialEffects

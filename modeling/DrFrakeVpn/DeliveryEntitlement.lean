import DrFrakeVpn.DeliveryEffects

/-! # Who gets configs and credentials

Eligibility is checked at the subscription, in the table of protocols, in the query for
servers and at the switch over plans. Here it is followed through all of them. -/
namespace DeliveryEntitlement

open SharedPrograms List Prog
open BackendModels BackendWorld AccessCredentials ConfigDelivery HappDelivery
open RemoteRemoval RemoteAddition AccessRevocation CredentialEffects DeliveryEffects

variable (cfg : Setup) (sv : Services)

def isRemoval : Job → Bool
  | .happCredentials _ _ => false
  | _ => true

/-- While configs are handed out, credentials are opened at most where `may` says so. -/
structure Hands (may : ℕ → ℕ → Prop) (w v : World) : Prop where
  now : v.now = w.now
  servers : v.db.servers = w.db.servers
  opened : ∀ c ∈ v.db.vlessCredentials.rows, c.revokedAt = none →
    c ∈ w.db.vlessCredentials.rows ∨ may c.userID c.serverID
  jobs : ∀ j ∈ v.jobs, j ∈ w.jobs ∨ isRemoval j = true

variable {v : World}

section branches

variable {may : ℕ → ℕ → Prop} {w : World} {userID : ℕ}

theorem Hands.refl (w : World) : Hands may w w :=
  ⟨rfl, rfl, fun _ h _ => .inl h, fun _ h => .inl h⟩

theorem Hands.prepared (h : Hands may w v) (h' : Prepares cfg may v v') : Hands may w v' where
  now := h'.now.trans h.now
  servers := h'.servers.trans h.servers
  opened c hc hopen := by
    rcases h'.opened c hc hopen with hc | hmay
    · exact h.opened c hc hopen
    · exact .inr hmay
  jobs j hj := h.jobs j (h'.jobs ▸ hj)

theorem Hands.removed (h : Hands may w v) (h' : Removes v v') : Hands may w v' := by
  rw [h'.frame]
  exact ⟨h.now, h.servers, h.opened, h.jobs⟩

theorem Hands.spawned (h : Hands may w v) {job} (hjob : isRemoval job) :
    Hands may w { v with jobs := v.jobs ++ [job] } := by
  refine ⟨h.now, h.servers, h.opened, fun j hj => ?_⟩
  rcases mem_append.mp hj with hj | hj
  · exact h.jobs j hj
  · rw [mem_singleton.mp hj]
    exact .inr hjob

theorem Hands.revoked (h : Hands may w v) (q : VLESSCredential → Bool) (now : ℤ) :
    Hands may w { v with db := credentialsRevoked q now v.db } := by
  refine ⟨h.now, h.servers, fun c hc hopen => ?_, h.jobs⟩
  obtain ⟨b, hb, rfl⟩ := v.db.vlessCredentials.mem_update.mp hc
  split at hopen
  · cases hopen
  · next hq =>
    rw [if_neg hq]
    exact h.opened b hb hopen

theorem dropLegacyKeys_hands :
    (dropLegacyKeys cfg userID).Keeps (Hands may w) fun _ => True := by
  refine .bind (keeps_read _) ?_
  rintro (e | _ | ⟨x, keys⟩) -
  · exact .done trivial
  · exact .done trivial
  refine .bind keeps_clock fun now _ => .bind (.each fun y _ => ?_) fun _ _ => ?_
  · dsimp only
    split
    · exact .of_run fun _ h => h.spawned rfl
    · exact .done trivial
  · exact .bind (keeps_exec1 fun _ h => ⟨h.now, h.servers, h.opened, h.jobs⟩) fun _ _ =>
      .done trivial

theorem vlessEntry_hands (profiles : List RoutingProfile) {x} (hmay : may userID x.1.id) :
    (vlessEntry cfg sv userID profiles x).Keeps (Hands may w) fun r =>
      ∀ e ∈ r, e.serverID = x.1.id ∧ e.identity.protocol = .vless := by
  refine .bind (.of_run fun v hv => hv.prepared cfg ?_) ?_
  · exact (ensureVLESSTemplate_prepares cfg sv x.1 x.2 v (.refl v)).1
  rintro (e | _ | template) -
  · exact .done nofun
  · exact .done nofun
  dsimp only
  split
  · exact .done nofun
  refine .bind keeps_clock fun issuedAt _ => ?_
  split
  · refine .done fun e he => ?_
    cases he
    exact ⟨rfl, rfl⟩
  refine .bind (.of_run fun v hv => hv.prepared cfg ?_) ?_
  · exact (ensureVLESSCredential_prepares cfg sv hmay v (.refl v)).1
  rintro (e | c) -
  · exact .done nofun
  · refine .done fun e he => ?_
    cases he
    exact ⟨rfl, rfl⟩

def ConfigFor (servers : List (VPNServer × Option VLESSServerTemplate)) (protocol : Protocol)
    (e : ConfigEntry) : Prop :=
  (∃ x ∈ servers, e.serverID = x.1.id) ∧ e.identity.protocol = protocol

variable {servers : List (VPNServer × Option VLESSServerTemplate)}

theorem vlessConfigs_hands (hmay : ∀ x ∈ servers, may userID x.1.id) :
    (vlessConfigs cfg sv userID servers).Keeps (Hands may w) fun r =>
      ∀ e ∈ configsOf r, ConfigFor servers .vless e := by
  refine .bind (dropLegacyKeys_hands cfg) fun _ _ => .bind (keeps_exec1 fun _ h => ?_) ?_
  · exact ⟨h.now, h.servers, h.opened, h.jobs⟩
  rintro (e | _) -
  · exact .done nofun
  refine .bind (keeps_read _) ?_
  rintro (e | profiles) -
  · exact .done nofun
  refine .bind (.collect fun x hx => ?_) fun _ h => .done h
  refine (vlessEntry_hands cfg sv profiles (hmay x hx)).post fun r v h => ⟨h.1, fun e he => ?_⟩
  exact ⟨⟨x, hx, (h.2 e he).1⟩, (h.2 e he).2⟩

theorem dropLegacyCredentials_hands :
    (dropLegacyCredentials cfg userID).Keeps (Hands may w) fun _ => True := by
  refine .bind (keeps_read _) ?_
  rintro (e | _ | ⟨x, creds⟩) -
  · exact .done trivial
  · exact .done trivial
  refine .bind keeps_clock fun now _ => .bind (.each fun y _ => ?_) fun _ _ => ?_
  · exact .of_run fun _ h => h.spawned rfl
  · exact .bind (keeps_exec1 fun _ h => h.revoked _ now) fun _ _ => .done trivial

theorem keptKey_hands (sub : Subscription) {x db} (hx : x.2 = serverOf db x.1.serverID) :
    (keptKey cfg sub x).Keeps (Hands may w) fun r =>
      ∀ a ∈ r, a.2 = (serverOf db a.1.serverID).getD noServer := by
  refine .bind keeps_clock fun now _ => ?_
  split
  · refine .bind keeps_clock fun now _ => ?_
    have hrevoke : (do
        let _ ← exec1 cfg (.revokeKey x.1.id) (writeOf (keysRevoked (fun k => k.id = x.1.id) now))
        pure none : Handler (Option (VPNKey × VPNServer))).Keeps (Hands may w) fun r =>
          ∀ a ∈ r, a.2 = (serverOf db a.1.serverID).getD noServer :=
      .bind (keeps_exec1 fun _ h => ⟨h.now, h.servers, h.opened, h.jobs⟩) fun _ _ => .done nofun
    split
    · exact .bind (.of_run fun v hv => hv.removed (removeAWGPeer_removes cfg _ _ v _)) fun _ _ =>
        hrevoke
    · exact hrevoke
  · refine .done fun a ha => ?_
    cases ha
    rw [hx]

theorem newKey_hands (server : VPNServer) :
    (newKey cfg sv userID server).Keeps (Hands may w) fun r =>
      ∀ e ∈ r, e.serverID = server.id ∧ e.identity.protocol = .awg := by
  have hdraw : draw.Keeps (Hands may w) fun _ => True :=
    .of_run fun _ h => ⟨h.now, h.servers, h.opened, h.jobs⟩
  refine .bind hdraw fun pair _ => .bind hdraw fun seed _ => .bind (.of_run fun v hv => ?_) ?_
  · rw [(addAWGPeer_frame cfg _ _ _ _ _ v).1]
    exact ⟨hv.now, hv.servers, hv.opened, hv.jobs⟩
  rintro (e | _) -
  · exact .done nofun
  refine .bind keeps_clock fun now _ => .bind (keeps_exec1 fun v h => ?_) ?_
  · refine tryWriteOf_keeps h fun db hdb => ?_
    obtain ⟨t, _, rfl⟩ := Option.map_eq_some_iff.mp hdb
    exact ⟨h.now, h.servers, h.opened, h.jobs⟩
  rintro (e | _) -
  · exact .bind (.of_run fun _ h => h.spawned rfl) fun _ _ => .done nofun
  · refine .done fun e he => ?_
    cases he
    exact ⟨rfl, rfl⟩

theorem keyMap_some {keys i a} (h : keyMap keys i = some a) : a ∈ keys ∧ a.1.serverID = i := by
  exact ⟨mem_reverse.mp (mem_of_find?_eq_some h), by simpa using find?_some h⟩

theorem awgConfigs_hands (sub : Subscription) (hservers : ∀ x ∈ servers, x.1 ∈ w.db.servers.rows) :
    (awgConfigs cfg sv userID sub servers).Keeps (Hands may w) fun entries =>
      ∀ e ∈ entries, ConfigFor servers .awg e := by
  have hloops : ∀ existing : List (VPNKey × Option VPNServer),
      (∀ x ∈ existing, x.2 = serverOf w.db x.1.serverID) →
      (do
        let keys ← collect (keptKey cfg sub) existing
        Prog.collect (awgEntry cfg sv userID keys) servers).Keeps (Hands may w) fun entries =>
          ∀ e ∈ entries, ConfigFor servers .awg e := by
    intro existing hexisting
    refine .bind (.collect fun x hx => keptKey_hands cfg sub (hexisting x hx)) fun keys hkeys => ?_
    refine .collect fun x hx => ?_
    unfold awgEntry
    split
    · next key server hkey =>
      -- the row of the server is the one that its id finds
      obtain ⟨hmem, hid⟩ := keyMap_some hkey
      have hserver : server = x.1 := by
        have hrow : serverOf w.db x.1.id = some x.1 :=
          w.db.servers.byId_some_iff.mpr ⟨hservers x hx, rfl⟩
        have hkept := hkeys _ hmem
        rw [hid, hrow] at hkept
        exact hkept
      refine .done fun e he => ?_
      cases he
      exact ⟨⟨x, hx, by rw [← hserver]; rfl⟩, rfl⟩
    · refine (newKey_hands cfg sv x.1).post fun r v h => ⟨h.1, fun e he => ?_⟩
      exact ⟨⟨x, hx, (h.2 e he).1⟩, (h.2 e he).2⟩
  refine .bind (dropLegacyCredentials_hands cfg) fun _ _ => Prog.Triple.bind (triple_read _) ?_
  rintro (e | keys)
  · exact (hloops [] nofun).pre fun _ h => h.1
  · intro v hv
    refine hloops keys (fun x hx => ?_) v hv.1
    rw [hv.2.1 keys rfl] at hx
    rw [(mem_activeKeysOf.mp hx).2.2.2, serverOf, serverOf, hv.1.servers]

def protocolFor (sub : Subscription) : Protocol := if PlanType.isVIP sub.plan then .vless else .awg

theorem configsFor_hands (sub : Subscription) (hservers : ∀ x ∈ servers, x.1 ∈ w.db.servers.rows)
    (hmay : ∀ x ∈ servers, PlanType.isVIP sub.plan → may userID x.1.id) :
    (configsFor cfg sv userID sub servers).Keeps (Hands may w) fun r =>
      ∀ e ∈ configsOf r, ConfigFor servers (protocolFor sub) e := by
  unfold configsFor protocolFor
  split
  · next hvip => exact vlessConfigs_hands cfg sv fun x hx => hmay x hx hvip
  · exact .bind (awgConfigs_hands cfg sv sub hservers) fun _ h => .done h

end branches

/-- The user has a subscription that is paid for or a trial, and it opens this server. -/
def Paying (w : World) (u i : ℕ) : Prop :=
  ∃ sub, Granted w u sub ∧ Serves w.db (PlanType.isVIP sub.plan) i

variable {w : World}

theorem hands_of_migrated (h : Migrated w v) : Hands may w v := by
  obtain ⟨ready, subs, rfl⟩ : ∃ ready subs, v = { w with
      subscriptionSchemaReady := ready
      db := { w.db with subscriptions := subs } } := ⟨_, _, h.frame⟩
  exact ⟨rfl, rfl, fun _ hc _ => .inl hc, fun _ hj => .inl hj⟩

theorem getConfig_hands (userID : ℕ) (w : World) :
    Hands (Paying w) w ((getConfig cfg sv userID).run w).2 ∧
      ∀ e ∈ ((getConfig cfg sv userID).run w).1.entries, ∃ sub, Granted w userID sub ∧
        ConfigFor (serversFor sub w.db) (protocolFor sub) e := by
  cases getConfig_fetched cfg sv userID w with
  | refused hm hreply _ => exact ⟨hands_of_migrated hm, by simp [hreply]⟩
  | @served sub v hm hsub _ hrun hreply =>
    have hhands : (configsFor cfg sv userID sub (serversFor sub w.db)).Keeps
        (Hands (Paying w) w) fun r =>
          ∀ e ∈ configsOf r, ConfigFor (serversFor sub w.db) (protocolFor sub) e :=
      configsFor_hands cfg sv sub (fun x hx => (mem_activeServers.mp hx).1)
        fun x hx _ => ⟨sub, hsub, serves_of_mem hx⟩
    obtain ⟨hworld, hentries⟩ := hhands v (hands_of_migrated hm)
    rw [hrun, hreply]
    exact ⟨hworld, fun e he => ⟨sub, hsub, hentries e he⟩⟩

inductive Operation where
  | getConfig (userID : ℕ)
  | createLink (userID : ℕ)
  | subscription (param : String)
  | generateMissingConfigs
  deriving DecidableEq

def Operation.program : Operation → Handler Unit
  | .getConfig userID => (ConfigDelivery.getConfig cfg sv userID).forget
  | .createLink userID => (HappDelivery.createLink cfg sv userID).forget
  | .subscription param => (HappDelivery.subscription cfg sv param).forget
  | .generateMissingConfigs => HappDelivery.generateMissingConfigs cfg sv

section jobs

variable {may : ℕ → ℕ → Prop} {w : World}

def Leaves (w : World) (j : Job) : Prop :=
  isRemoval j = true ∨ ∃ u sub, j = .happCredentials u sub ∧ HappGranted w u sub

theorem jobProgram_removes (hj : isRemoval j) (w : World) :
    Removes w ((jobProgram cfg sv j).run w).2 := by
  cases j with
  | removePeer key server =>
    simp only [jobProgram, bind_eq, run_bind, pure_eq, run_done]
    exact removeAWGPeer_removes cfg _ _ w server
  | removeClient cred server template =>
    simp only [jobProgram, bind_eq, run_bind, pure_eq, run_done]
    exact removeXrayClient_removes cfg _ _ w server template
  | dropPeer server key =>
    simp only [jobProgram, bind_eq, run_bind, pure_eq, Prog.run_done]
    exact removeAWGPeer_removes cfg _ _ w (some server)
  | happCredentials userID sub => cases hj

theorem loop_removes {α : Type} {f : α → Handler Unit} {xs}
    (hf : ∀ x ∈ xs, ∀ v, Removes v ((f x).run v).2) (w : World) :
    Removes w ((Prog.each f xs).run w).2 :=
  Prog.Triple.each (I := Removes w) (fun x hx v hv => hv.trans (hf x hx v)) w (.refl w)

theorem settles_removes (hjobs : ∀ j ∈ v.jobs, isRemoval j) (h : Settles cfg sv v v') :
    Removes { v with jobs := [] } v' := by
  obtain ⟨jobs, hperm, rfl⟩ := h
  exact loop_removes (fun j hj => jobProgram_removes cfg sv (hjobs j (hperm.mem_iff.mp hj))) _

theorem jobProgram_hands (hj : Leaves w j) (hpaying : ∀ u i, Paying w u i → may u i) :
    (jobProgram cfg sv j).Triple (Hands may w) fun _ => Hands may w := by
  intro v hv
  rcases hj with hremoval | ⟨userID, sub, rfl, hg⟩
  · exact hv.removed (jobProgram_removes cfg sv hremoval v)
  simp only [jobProgram, bind_eq, run_bind, pure_eq, Prog.run_done]
  refine hv.prepared cfg ((ensureHappCredentials_prepares cfg sv userID sub v).mono
    fun u i hui => ?_)
  obtain ⟨rfl, hserves⟩ := hui
  refine hpaying u i ⟨sub, hg.1, ?_⟩
  rwa [hv.now, hg.1.isVIP, Serves, hv.servers] at hserves

theorem settles_hands (hv : Hands may w { v with jobs := [] })
    (hjobs : ∀ j ∈ v.jobs, Leaves w j) (hpaying : ∀ u i, Paying w u i → may u i)
    (h : Settles cfg sv v v') : Hands may w v' := by
  obtain ⟨jobs, hperm, rfl⟩ := h
  exact Prog.Triple.each
    (fun j hj => jobProgram_hands cfg sv (hjobs j (hperm.mem_iff.mp hj)) hpaying) _ hv

theorem linked_hands (h : Linked w user reply v) :
    Hands may w { v with jobs := [] } ∧ (w.jobs = [] → ∀ j ∈ v.jobs, Leaves w j) := by
  constructor
  · refine ⟨h.answered.now, h.answered.servers, fun c hc _ => ?_, fun _ hj => (not_mem_nil hj).elim⟩
    rw [← h.answered.credentials]
    exact .inl hc
  · intro hnone j hj
    rcases h.jobs with hsame | ⟨u, sub, _, hg, hnew⟩
    · rw [hsame, hnone] at hj
      cases hj
    · rw [hnew, hnone] at hj
      exact .inr ⟨u, sub, mem_singleton.mp hj, hg⟩

end jobs

/-- Credentials are opened only for users with a running subscription, and by the handlers
only if it is paid for or a trial. -/
def MayOpen (op : Operation) (w : World) (u i : ℕ) : Prop :=
  Paying w u i ∨ op = .generateMissingConfigs ∧ Generates w u i

variable {op : Operation}

theorem operation_hands (h : Completes cfg sv (op.program cfg sv) w w') :
    Hands (MayOpen op w) { w with jobs := [] } w' := by
  have hpaying : ∀ u i, Paying { w with jobs := [] } u i → MayOpen op w u i := by
    rintro u i ⟨sub, hg, hserves⟩
    exact .inl ⟨sub, ⟨hg.stored, hg.user, hg.active, hg.unexpired, hg.paid⟩, hserves⟩
  cases op with
  | getConfig userID =>
    have hrun := (getConfig_hands cfg sv userID { w with jobs := [] }).1
    rw [Completes, Operation.program, run_forget] at h
    refine settles_hands cfg sv ⟨hrun.now, hrun.servers, fun c hc hopen => ?_,
      fun _ hj => (not_mem_nil hj).elim⟩
      (fun j hj => ?_) hpaying h
    · exact (hrun.opened c hc hopen).imp_right (hpaying _ _)
    · rcases hrun.jobs j hj with hj | hj
      · cases hj
      · exact .inl hj
  | createLink userID =>
    obtain ⟨hrun, hjobs⟩ :=
      linked_hands (createLink_linked cfg sv userID { w with jobs := [] } _ rfl)
    rw [Completes, Operation.program, run_forget] at h
    exact settles_hands cfg sv hrun (hjobs rfl) hpaying h
  | subscription param =>
    obtain ⟨hrun, hjobs⟩ :=
      linked_hands (subscription_linked cfg sv param { w with jobs := [] } _ rfl)
    rw [Completes, Operation.program, Prog.run_forget] at h
    exact settles_hands cfg sv hrun (hjobs rfl) hpaying h
  | generateMissingConfigs =>
    have hrun := generateMissingConfigs_prepares cfg sv { w with jobs := [] }
    have hnone :
        ((HappDelivery.generateMissingConfigs cfg sv).run { w with jobs := [] }).2.jobs = [] :=
      hrun.jobs
    refine settles_hands cfg sv ⟨hrun.now, hrun.servers, fun c hc hopen => ?_,
      fun _ hj => (not_mem_nil hj).elim⟩
      (fun j hj => ?_) hpaying h
    · exact (hrun.opened c hc hopen).imp_right fun hg => .inr ⟨rfl, hg⟩
    · have hnil : j ∈ ([] : List Job) := hnone ▸ hj
      cases hnil

def configPlans : List PlanType := [.trial, .basic, .basic3M, .vip, .vip3M]

def happPlans : List PlanType := [.basic, .basic3M, .vip, .vip3M]

/-- The user has a subscription with one of the plans that is active and not past its end. -/
structure Subscribed (w : World) (u : ℕ) (plans : List PlanType) (sub : Subscription) : Prop where
  stored : sub ∈ w.db.subscriptions.rows
  user : sub.userID = u
  active : sub.status = .active
  unexpired : w.now ≤ sub.expiresAt
  plan : sub.plan ∈ plans

/-- An active server, and not one that the plan is too small for. -/
structure Available (w : World) (sub : Subscription) (s : VPNServer) : Prop where
  stored : s ∈ w.db.servers.rows
  active : s.active = true
  vip : s.vipOnly = true → sub.plan = .vip ∨ sub.plan = .vip3M

def Opened (w w' : World) (c : VLESSCredential) : Prop :=
  c ∈ w'.db.vlessCredentials.rows ∧ c.revokedAt = none ∧ c ∉ w.db.vlessCredentials.rows

theorem isVIP_iff : PlanType.isVIP plan ↔ plan = .vip ∨ plan = .vip3M := by
  cases plan <;> simp [PlanType.isVIP]

variable {sub : Subscription}

theorem available_of_mem (h : x ∈ serversFor sub w.db) : Available w sub x.1 := by
  obtain ⟨hrow, hactive, hvip, _⟩ := mem_activeServers.mp h
  exact ⟨hrow, hactive, fun hv => isVIP_iff.mp (hvip hv)⟩

theorem subscribed_of_granted (h : Granted w u sub) : Subscribed w u configPlans sub := by
  refine ⟨h.stored, h.user, h.active, h.unexpired, ?_⟩
  have hpaid := h.paid
  cases hp : sub.plan <;> simp_all [configPlans]

theorem subscribed_of_happGranted (h : HappGranted w u sub) : Subscribed w u happPlans sub := by
  refine ⟨h.1.stored, h.1.user, h.1.active, h.1.unexpired, ?_⟩
  have hpaid := h.1.paid
  have htrial := h.2
  cases hp : sub.plan <;> simp_all [happPlans]

theorem opened_vip {w'} (h : Completes cfg sv (op.program cfg sv) w w') {c} (hc : Opened w w' c) {s}
    (hs : s ∈ w.db.servers.rows) (hid : s.id = c.serverID) (hvip : s.vipOnly) :
    ∃ sub, Subscribed w c.userID [.vip, .vip3M] sub := by
  have hserved : ∀ {plan : Bool}, Serves w.db plan c.serverID → plan := by
    rintro plan ⟨s', hs', hid', _, hv⟩
    rw [w.db.servers.id_injective hs' hs (hid'.trans hid.symm)] at hv
    exact hv hvip
  rcases (operation_hands cfg sv h).opened c hc.1 hc.2.1 with hold | ⟨sub, hg, hserves⟩ |
    ⟨_, sub, hserved', hu, hserves⟩
  · exact absurd hold hc.2.2
  · have hplan := isVIP_iff.mp (hserved hserves)
    exact ⟨sub, hg.stored, hg.user, hg.active, hg.unexpired, by simpa using hplan⟩
  · obtain ⟨hrow, hactive, hexp, _⟩ := hserved'
    have hnow := hserved hserves
    have hplan : PlanType.isVIP sub.plan := by
      simpa [isVIPSubscription, hactive, le_of_lt hexp] using hnow
    exact ⟨sub, hrow, hu, hactive, le_of_lt hexp, by simpa using isVIP_iff.mp hplan⟩

/-- A config is handed out only to a user whose subscription runs and opens its server, VLESS
configs by `GetConfig` only to VIP plans and AWG configs only to the others; and on a VIP-only
server no operation opens a credential for a user without a running VIP plan. -/
theorem deliveries_entitled (w : World) :
    (∀ u, ∀ e ∈ ((getConfig cfg sv u).run w).1.entries, ∃ sub s,
      Subscribed w u configPlans sub ∧ Available w sub s ∧ s.id = e.serverID ∧
        (e.identity.protocol = .vless ↔ sub.plan = .vip ∨ sub.plan = .vip3M)) ∧
    (∀ param, ∀ e ∈ ((subscription cfg sv param).run w).1.entries, ∃ u sub s,
      TokenUser sv w.db param u ∧ Subscribed w u happPlans sub ∧ Available w sub s ∧
        s.id = e.serverID) ∧
    (∀ u sub, sub ∈ w.db.subscriptions.rows → sub.userID = u → ∀ c,
      Opened w ((ensureHappCredentials cfg sv u sub).run w).2 c → ∀ s ∈ w.db.servers.rows,
        s.id = c.serverID → s.vipOnly = true → Subscribed w c.userID [.vip, .vip3M] sub) ∧
    ∀ op w', Completes cfg sv (Operation.program cfg sv op) w w' → ∀ c, Opened w w' c →
      ∀ s ∈ w.db.servers.rows, s.id = c.serverID → s.vipOnly = true →
        ∃ sub, Subscribed w c.userID [.vip, .vip3M] sub := by
  refine ⟨fun u e he => ?_, fun param e he => ?_, fun u sub hsub hu c hc s hs hid hvip => ?_,
    fun op w' h c hc s hs hid hvip => opened_vip cfg sv h hc hs hid hvip⟩
  · obtain ⟨sub, hg, ⟨x, hx, hid⟩, hprotocol⟩ := (getConfig_hands cfg sv u w).2 e he
    refine ⟨sub, x.1, subscribed_of_granted hg, available_of_mem hx, hid.symm, ?_⟩
    rw [hprotocol, protocolFor, ← isVIP_iff]
    split <;> simp_all
  · obtain ⟨u, sub, htoken, hg, x, hx, _, _, hid, _⟩ :=
      (subscription_linked cfg sv param w w rfl).entries e he
    exact ⟨u, sub, x.1, htoken, subscribed_of_happGranted hg, available_of_mem hx, hid.symm⟩
  · rcases (ensureHappCredentials_prepares cfg sv u sub w).opened c hc.1 hc.2.1 with
      hold | ⟨hcu, hserves⟩
    · exact absurd hold hc.2.2
    obtain ⟨s', hs', hid', _, hv⟩ := hserves
    rw [w.db.servers.id_injective hs' hs (hid'.trans hid.symm)] at hv
    have hnow := hv hvip
    unfold isVIPSubscription at hnow
    split at hnow
    · cases hnow
    · next hok =>
      obtain ⟨hactive, hexp⟩ := not_or.mp hok
      exact ⟨hsub, hu.trans hcu.symm, not_not.mp hactive, not_lt.mp hexp,
        by simpa using isVIP_iff.mp hnow⟩

end DeliveryEntitlement

import DrFrakeVpn.CredentialEffects
import DrFrakeVpn.AccessRevocation

/-! # How a request for configs goes

Loading the subscription may create a free one and never touches a paid one. What follows happens
only for one that is paid for or a trial, active and not past its end. -/
namespace DeliveryEffects

open SharedPrograms RecordTables
open BackendModels BackendWorld SubscriptionActivation RoutingProfiles AccessCredentials
open ConfigDelivery HappDelivery AccessRevocation

variable (cfg : Setup) (sv : Services)

/-- Only free subscriptions were written or made. -/
structure Migrated (w v : World) : Prop where
  frame : v = { w with
    subscriptionSchemaReady := v.subscriptionSchemaReady
    db := { w.db with subscriptions := v.db.subscriptions } }
  paid : ∀ s : Subscription, s.plan ≠ .free →
    (s ∈ v.db.subscriptions.rows ↔ s ∈ w.db.subscriptions.rows)

theorem Migrated.refl (w : World) : Migrated w w := ⟨rfl, fun _ _ => Iff.rfl⟩

theorem Migrated.trans (h : Migrated a b) (h' : Migrated b c) : Migrated a c where
  frame := by
    rw [h'.frame, h.frame]
  paid s hs := (h'.paid s hs).trans (h.paid s hs)

theorem migrated_schema (w : World) : Migrated w (ensureSubscriptionSchema w) := by
  unfold ensureSubscriptionSchema
  split
  · exact .refl w
  refine ⟨rfl, fun s hs => ?_⟩
  simp only [Table.mem_update]
  constructor
  · rintro ⟨b, hb, rfl⟩
    split at hs
    · next hq =>
      simp only [Bool.and_eq_true, decide_eq_true_eq] at hq
      exact absurd hq.1.1 hs
    · next hq =>
      rw [if_neg hq]
      exact hb
  · intro h
    refine ⟨s, h, if_neg ?_⟩
    simp [hs]

structure Granted (w : World) (userID : ℕ) (sub : Subscription) : Prop where
  stored : sub ∈ w.db.subscriptions.rows
  user : sub.userID = userID
  active : sub.status = .active
  unexpired : w.now ≤ sub.expiresAt
  paid : sub.plan ≠ .free

variable {w : World} {sub : Subscription} {userID : ℕ}

theorem Granted.unique (h : Granted w userID sub) (h' : Granted w userID sub') :
    sub = sub' :=
  w.db.subscriptions.key_injective h.stored h'.stored (h.user.trans h'.user.symm)

theorem Granted.isVIP (h : Granted w userID sub) :
    isVIPSubscription w.now sub = PlanType.isVIP sub.plan := by
  simp [isVIPSubscription, h.active, h.unexpired]

structure Loads (w : World) (userID : ℕ) (r : Except DbError Subscription) (v : World) : Prop where
  migrated : Migrated w v
  stored : ∀ sub, r = .ok sub → sub.plan ≠ .free →
    sub ∈ w.db.subscriptions.rows ∧ sub.userID = userID
  found : DatabaseWorks cfg → ∀ sub ∈ w.db.subscriptions.rows, sub.userID = userID →
    sub.plan ≠ .free → r = .ok sub

theorem not_works (hl : isRemote l = false) (hfault : cfg.faults l) :
    ¬ DatabaseWorks cfg := by
  intro hdb
  rw [hdb.no_fault hl] at hfault
  cases hfault

theorem ensureDefaultSubscription_loads (userID : ℕ) (w : World) :
    (ensureDefaultSubscription cfg userID).Triple (· = w) (Loads cfg w userID) := by
  have hlost : ∀ {e : DbError} {v : World}, Migrated w v → ¬ DatabaseWorks cfg →
      Loads cfg w userID (.error e) v := fun hv hdb =>
    ⟨hv, nofun, fun hworks => absurd hworks hdb⟩
  refine .bind (Q := fun r v => Migrated w v ∧ (∀ e, r = .error e →
    ¬ DatabaseWorks cfg)) (triple_exec1 (fun hfault v hv => ?_) fun v hv => ?_) ?_
  · rw [hv]
    exact ⟨.refl w, fun _ _ => not_works cfg rfl hfault⟩
  · rw [hv]
    exact ⟨migrated_schema w, fun _ he => by cases he⟩
  rintro (e | _)
  · exact .done fun v hv => hlost hv.1 (hv.2 e rfl)
  refine .bind (triple_first) ?_
  rintro (e | sub)
  · -- nothing was found, so nothing paid is there
    have hnone : ∀ v : World, Migrated w v → v.db.subscriptionOf userID = none →
        ∀ s ∈ w.db.subscriptions.rows, s.userID = userID → s.plan = .free := by
      intro v hv hfind s hs hu
      by_contra hpaid
      have := Db.subscriptionOf_some_iff.mpr ⟨(hv.paid s hpaid).mpr hs, hu⟩
      rw [hfind] at this
      cases this
    cases e with
    | recordNotFound =>
      refine .bind (triple_clock) fun now => ?_
      refine triple_exec1 (fun hfault v hv => ?_) fun v hv => ?_
      · exact hlost hv.1.1.1 (not_works cfg rfl hfault)
      obtain ⟨⟨⟨hm, _⟩, ⟨he, _⟩ | hfound⟩, _⟩ := hv
      · cases he
      have hfind : v.db.subscriptionOf userID = none := by
        cases hs : v.db.subscriptionOf userID with
        | none => rfl
        | some s => simp [hs] at hfound
      obtain ⟨t, ht, hcreate⟩ := createSubscription_some (defaultRow now userID)
        (fun _ => rfl) (fun _ => rfl) hfind
      rw [hcreate]
      obtain ⟨hrows, _⟩ := v.db.subscriptions.insert_some ht
      refine ⟨hm.trans ⟨rfl, fun s hpaid => ?_⟩, fun s hs hpaid => ?_, fun _ s hs hu hpaid => ?_⟩
      · rw [hrows]
        refine ⟨fun hs => ?_, fun hs => List.mem_append_left _ hs⟩
        rcases List.mem_append.mp hs with hs | hs
        · exact hs
        · rw [List.mem_singleton.mp hs] at hpaid
          exact absurd rfl hpaid
      · cases hs
        exact absurd rfl hpaid
      · exact absurd (hnone v hm hfind s hs hu) hpaid
    | constraint | failed =>
      refine .done fun v hv => ?_
      obtain ⟨⟨hm, _⟩, ⟨he, hfault⟩ | hfound⟩ := hv
      · exact hlost hm (not_works cfg rfl hfault)
      · cases hs : v.db.subscriptionOf userID <;> simp [hs] at hfound
  · refine .done fun v hv => ?_
    obtain ⟨⟨hm, _⟩, ⟨he, _⟩ | hfound⟩ := hv
    · cases he
    have hsub : v.db.subscriptionOf userID = some sub := by
      cases hs : v.db.subscriptionOf userID with
      | none => simp [hs] at hfound
      | some s => simpa [hs] using hfound.symm
    obtain ⟨hrow, hu⟩ := Db.subscriptionOf_some_iff.mp hsub
    refine ⟨hm, fun s hs hpaid => ?_, fun _ s hs hsu hpaid => ?_⟩
    · cases hs
      exact ⟨(hm.paid sub hpaid).mp hrow, hu⟩
    · have hsv : s ∈ v.db.subscriptions.rows := (hm.paid s hpaid).mpr hs
      rw [v.db.subscriptions.key_injective hrow hsv (hu.trans hsu.symm)]

def configsOf : Except ConfigReply (List ConfigEntry) → List ConfigEntry
  | .ok entries => entries
  | .error reply => reply.entries

def serversFor (sub : Subscription) (db : Db) : List (VPNServer × Option VLESSServerTemplate) :=
  activeServers (PlanType.isVIP sub.plan) db

/-- How a call of `GetConfig` went: it was refused, for want of a subscription or a server
unless the database failed, or the branch of the plan was taken. -/
inductive Fetched (w : World) (userID : ℕ) (reply : ConfigReply) (w' : World) : Prop where
  | refused (hm : Migrated w w') (hreply : reply.entries = [])
      (hwhy : DatabaseWorks cfg → ∀ sub, Granted w userID sub → serversFor sub w.db = [])
  | served {sub : Subscription} {v : World} (hm : Migrated w v) (hsub : Granted w userID sub)
      (hservers : serversFor sub w.db ≠ [])
      (hrun : w' = ((configsFor cfg sv userID sub (serversFor sub w.db)).run v).2)
      (hreply : reply.entries =
        configsOf ((configsFor cfg sv userID sub (serversFor sub w.db)).run v).1)

theorem allowedProtocols_eq_nil_iff (hactive : sub.status = .active) (hexp : w.now ≤
      sub.expiresAt) :
    allowedProtocols w.now sub = [] ↔ sub.plan = .free := by
  have hentitled : isSubscriptionEntitled w.now sub := by
    have : (0 : ℤ) < 24 * GoTime.hour := by decide
    simp only [isSubscriptionEntitled, hactive, decide_true, Bool.true_and, decide_eq_true_eq]
    omega
  simp only [allowedProtocols, hentitled]
  cases sub.plan <;> simp

theorem getConfig_fetched (userID : ℕ) (w : World) :
    Fetched cfg sv w userID ((getConfig cfg sv userID).run w).1
      ((getConfig cfg sv userID).run w).2 := by
  have h : (getConfig cfg sv userID).Triple (· = w) (Fetched cfg sv w userID) := by
    refine .bind (ensureDefaultSubscription_loads cfg userID w) ?_
    rintro (e | sub)
    · refine .done fun v hv => .refused hv.migrated rfl fun hdb s hs => ?_
      cases hv.found hdb s hs.stored hs.user hs.paid
    -- the loaded row is the granted one, if there is one
    have hsame : ∀ {v : World}, Loads cfg w userID (.ok sub) v → DatabaseWorks cfg →
        ∀ s, Granted w userID s → sub = s := by
      intro v hv hdb s hs
      cases hv.found hdb s hs.stored hs.user hs.paid
      rfl
    refine .bind triple_clock fun now => ?_
    refine .given (now = w.now) (fun v hv => ?_) fun hnow => ?_
    · rw [hv.2, hv.1.migrated.frame]
    subst hnow
    split
    · next hstatus =>
      refine .done fun v hv => .refused hv.1.migrated rfl fun hdb s hs => ?_
      exact absurd (hsame hv.1 hdb s hs ▸ hs.active) hstatus
    · next hactive =>
      split
      · next hexp =>
        refine .done fun v hv => .refused hv.1.migrated rfl fun hdb s hs => ?_
        have := hsame hv.1 hdb s hs ▸ hs.unexpired
        omega
      · next hexp =>
        have hactive : sub.status = .active := not_not.mp hactive
        have hnil := allowedProtocols_eq_nil_iff hactive (not_lt.mp hexp)
        refine .bind triple_clock fun now => ?_
        refine .given (now = w.now) (fun v hv => hv.2.trans hv.1.2.symm)
          fun hnow => ?_
        subst hnow
        split
        · next hnone =>
          refine .done fun v hv => .refused hv.1.1.migrated rfl fun hdb s hs => ?_
          exact absurd (hsame hv.1.1 hdb s hs ▸ hnil.mp hnone) hs.paid
        · next protocol _ hsome =>
          have hpaid : sub.plan ≠ .free := by
            intro hfree
            rw [hnil.mpr hfree] at hsome
            cases hsome
          refine .bind triple_clock fun now => ?_
          refine .given (now = w.now ∧ Granted w userID sub) (fun v hv => ?_)
            fun hfact => ?_
          · obtain ⟨hrow, hu⟩ := hv.1.1.1.stored sub rfl hpaid
            exact ⟨hv.2.trans hv.1.2.symm, hrow, hu, hactive, not_lt.mp hexp, hpaid⟩
          obtain ⟨rfl, hsub⟩ := hfact
          rw [hsub.isVIP]
          have hreads : ∀ {v : World}, Migrated w v →
              activeServers (PlanType.isVIP sub.plan) v.db = serversFor sub w.db := by
            intro v hm
            rw [hm.frame]
            rfl
          refine .bind (triple_read _) ?_
          rintro (e | servers)
          · refine .done fun v hv => .refused hv.1.1.1.1.migrated rfl fun hdb => ?_
            exact absurd hdb (not_works cfg rfl (hv.2.2 e rfl))
          · intro v hv
            have hm := hv.1.1.1.1.migrated
            obtain rfl : servers = serversFor sub w.db := (hv.2.1 servers rfl).trans (hreads hm)
            cases hlist : serversFor sub w.db with
            | nil =>
              refine .refused hm rfl fun hdb s hs => ?_
              rw [← hs.unique hsub] at hlist
              exact hlist
            | cons x rest =>
              refine .served hm hsub (by simp [hlist]) ?_ ?_
              · simp only [Prog.bind_eq, Prog.run_bind, hlist]
                split <;> rfl
              · simp only [Prog.bind_eq, Prog.run_bind, hlist]
                split <;> simp_all [configsOf, ConfigReply.entries]
  exact h w rfl

def HappGranted (w : World) (userID : ℕ) (sub : Subscription) : Prop :=
  Granted w userID sub ∧ sub.plan ≠ .trial

def HappConfigured (w : World) (userID : ℕ) (vip : Bool) (e : ConfigEntry) : Prop :=
  ∃ x ∈ activeServers vip w.db, ∃ template, loadedTemplate x = some template ∧
    e.serverID = x.1.id ∧ ∃ id, e.identity = .vless id ∧ id ≠ "" ∧
      (id = GoValues.trimSpace template.clientID ∨ GoValues.trimSpace template.clientID = "" ∧
        ∃ c ∈ w.db.vlessCredentials.rows, c.userID = userID ∧ c.serverID = x.1.id ∧
          c.revokedAt = none ∧ id = GoValues.trimSpace c.clientID)

structure Answered (w v : World) : Prop where
  frame : v = { w with
    jobs := v.jobs
    random := v.random
    subscriptionSchemaReady := v.subscriptionSchemaReady
    db := { w.db with
      subscriptions := v.db.subscriptions
      routingProfiles := v.db.routingProfiles
      happTokens := v.db.happTokens } }
  paid : ∀ s : Subscription, s.plan ≠ .free →
    (s ∈ v.db.subscriptions.rows ↔ s ∈ w.db.subscriptions.rows)

theorem Answered.trans (h : Answered a b) (h' : Answered b c) : Answered a c where
  frame := by
    rw [h'.frame, h.frame]
  paid s hs := (h'.paid s hs).trans (h.paid s hs)

variable {v : World}

theorem Answered.now (h : Answered w v) : v.now = w.now := by
  rw [h.frame]

theorem Answered.servers (h : Answered w v) : v.db.servers = w.db.servers := by
  rw [h.frame]

theorem Answered.credentials (h : Answered w v) :
    v.db.vlessCredentials = w.db.vlessCredentials := by
  rw [h.frame]

theorem Answered.of_write (w : World) (jobs : List Job) (n : ℕ) (p : Table RoutingProfile)
    (t : Table HappSubscriptionToken) : Answered w { w with
      jobs := jobs
      random := n
      db := { w.db with routingProfiles := p, happTokens := t } } :=
  ⟨rfl, fun _ _ => Iff.rfl⟩

theorem Migrated.answered (h : Migrated w v) : Answered w v ∧ v.jobs = w.jobs := by
  refine ⟨⟨?_, h.paid⟩, ?_⟩
  · rw [h.frame]
  · rw [h.frame]

structure Linked (w : World) (user : ℕ → Prop) (reply : HappReply) (v : World) : Prop where
  answered : Answered w v
  jobs : v.jobs = w.jobs ∨ ∃ u sub, user u ∧ HappGranted w u sub ∧
    v.jobs = w.jobs ++ [.happCredentials u sub]
  entries : ∀ e ∈ reply.entries, ∃ u sub, user u ∧ HappGranted w u sub ∧
    HappConfigured w u (PlanType.isVIP sub.plan) e

theorem Migrated.linked (h : Migrated w v) {user reply} (hreply : reply.entries = []) :
    Linked w user reply v :=
  ⟨h.answered.1, .inl h.answered.2, by simp [hreply]⟩

theorem isActivePaid_iff (h : Loads cfg w userID (.ok sub) v) :
    isActivePaidHappSubscription w.now sub ↔ HappGranted w userID sub := by
  constructor
  · intro hpaid
    unfold isActivePaidHappSubscription at hpaid
    split at hpaid
    · cases hpaid
    · next hok =>
      obtain ⟨hactive, hexp⟩ := not_or.mp hok
      have hplan : sub.plan ≠ .free ∧ sub.plan ≠ .trial := by
        constructor <;> intro hp <;> simp [hp] at hpaid
      obtain ⟨hrow, hu⟩ := h.stored sub rfl hplan.1
      exact ⟨⟨hrow, hu, not_not.mp hactive, not_lt.mp hexp, hplan.1⟩, hplan.2⟩
  · rintro ⟨hs, htrial⟩
    have hfree := hs.paid
    unfold isActivePaidHappSubscription
    rw [if_neg (by simp [hs.active, hs.unexpired])]
    cases hp : sub.plan <;> simp_all

theorem createTokenOf_answered (userID : ℕ) (hash : String) (w : World) :
    Answered w (createTokenOf userID hash w).2 ∧ (createTokenOf userID hash w).2.jobs = w.jobs := by
  unfold createTokenOf tryWriteOf
  split
  · next db hdb =>
    obtain ⟨t, _, rfl⟩ := Option.map_eq_some_iff.mp hdb
    exact ⟨.of_write w _ _ _ _, rfl⟩
  · exact ⟨.of_write w _ _ _ _, rfl⟩

theorem createLink_linked (userID : ℕ) (w : World) :
    (createLink cfg sv userID).Triple (· = w) (Linked w (· = userID)) := by
  refine .bind (ensureDefaultSubscription_loads cfg userID w) ?_
  rintro (e | sub)
  · exact .done fun v hv => hv.migrated.linked rfl
  refine .bind triple_clock fun now => ?_
  refine .given (now = w.now) (fun v hv => ?_) fun hnow => ?_
  · rw [hv.2, hv.1.migrated.frame]
  subst hnow
  split
  · exact .done fun v hv => hv.1.migrated.linked rfl
  · next hpaid =>
    have hstart : ∀ v, (Loads cfg w userID (.ok sub) v ∧ w.now = v.now) →
        (Answered w v ∧ v.jobs = w.jobs) ∧ HappGranted w userID sub := by
      intro v hv
      exact ⟨hv.1.migrated.answered, (isActivePaid_iff cfg hv.1).mp (by simpa using hpaid)⟩
    refine .bind (Q := fun _ v => (Answered w v ∧ v.jobs = w.jobs) ∧
      HappGranted w userID sub) (.atom fun v hv => ?_) fun n => ?_
    · obtain ⟨⟨ha, hjobs⟩, hg⟩ := hstart v hv
      exact ⟨⟨ha.trans (.of_write v _ _ _ _), hjobs⟩, hg⟩
    refine .bind (Q := fun _ v => (Answered w v ∧ v.jobs = w.jobs) ∧
      HappGranted w userID sub) (triple_exec1 (fun _ v hv => hv) fun v hv => ?_) ?_
    · obtain ⟨⟨ha, hjobs⟩, hg⟩ := hv
      obtain ⟨hnew, hsame⟩ := createTokenOf_answered userID (happTokenHash sv (sv.token n)) v
      exact ⟨⟨ha.trans hnew, hsame.trans hjobs⟩, hg⟩
    rintro (e | _)
    · exact .done fun v hv => ⟨hv.1.1, .inl hv.1.2, fun _ he => by cases he⟩
    refine .bind
      (.atom fun v hv => ?_) fun _ => .done fun v hv => hv
    obtain ⟨⟨ha, hjobs⟩, hg⟩ := hv
    refine ⟨ha.trans (.of_write v _ _ _ _), .inr ⟨userID, sub, rfl, hg, ?_⟩,
      fun _ he => by cases he⟩
    rw [← hjobs]

section configs

variable {w v : World} {userID : ℕ} {sub : Subscription}

def Answering (w v s : World) : Prop := Answered w s ∧ s.jobs = v.jobs

theorem happProfiles_answering (isVIP : Bool) :
    (happProfiles cfg sv userID isVIP).Keeps (Answering w v) fun _ => True := by
  unfold happProfiles
  split
  · refine .bind (keeps_exec1 fun s h => ⟨h.1.trans (.of_write s _ _ _ _), h.2⟩) ?_
    rintro (e | _) -
    · exact .done trivial
    · refine .bind (keeps_read _) ?_
      rintro (e | profiles) - <;> exact .done trivial
  · exact .done trivial

theorem happEntry_configured {vip} (profiles : List RoutingProfile) {x}
    (hx : x ∈ activeServers vip w.db) :
    (happEntry cfg sv userID profiles x).Keeps (Answering w v) fun r =>
      ∀ e ∈ r, HappConfigured w userID vip e := by
  unfold happEntry
  split
  · exact .done nofun
  next template htemplate =>
  split
  · exact .done nofun
  -- the client id of the template, or of the credential that is read
  refine .bind (Q := fun id => id = "" ∨
    id = GoValues.trimSpace template.clientID ∨ GoValues.trimSpace template.clientID = "" ∧
      ∃ c ∈ w.db.vlessCredentials.rows, c.userID = userID ∧ c.serverID = x.1.id ∧
        c.revokedAt = none ∧ id = GoValues.trimSpace c.clientID) ?_ fun id hid => ?_
  · unfold happClientID
    split
    · exact .done (.inr (.inl rfl))
    · next hblank =>
      refine Prog.Triple.bind (triple_read _) ?_
      rintro (e | _ | c)
      · exact Prog.Triple.done fun _ h => ⟨h.1, .inl rfl⟩
      · exact .done fun _ h => ⟨h.1, .inl rfl⟩
      refine .done fun s h => ⟨h.1, .inr (.inr ⟨not_not.mp hblank, c, ?_⟩)⟩
      have hfind := (h.2.1 (some c) rfl).symm
      rw [h.1.1.frame] at hfind
      obtain ⟨hc, hq⟩ := w.db.vlessCredentials.first_some hfind
      simp only [Bool.and_eq_true, decide_eq_true_eq] at hq
      exact ⟨hc, hq.1.1, hq.1.2, hq.2, rfl⟩
  · split
    · exact .done nofun
    · next hne =>
      refine .done fun e he => ?_
      cases he
      exact ⟨x, hx, template, htemplate, rfl, id, rfl, hne, hid.resolve_left hne⟩

theorem happJSONConfigs_configured (ha : Answered w v) (hsub : Granted w userID sub) :
    (happJSONConfigs cfg sv userID sub).Triple (· = v) fun r s => Answering w v s ∧
      ∀ entries, r = .ok entries → ∀ e ∈ entries,
        HappConfigured w userID (PlanType.isVIP sub.plan) e := by
  refine .bind triple_clock fun now => ?_
  refine .given (now = w.now) (fun s hs => ?_) fun hnow => ?_
  · rw [hs.2, hs.1, ha.frame]
  subst hnow
  rw [hsub.isVIP]
  refine .bind (triple_read _) ?_
  rintro (e | servers)
  · refine .done fun s hs => ?_
    rw [hs.1.1]
    exact ⟨⟨ha, rfl⟩, nofun⟩
  refine .given (servers = serversFor sub w.db) (fun s hs => ?_) fun hlist => ?_
  · rw [hs.2.1 servers rfl, hs.1.1, ha.frame]
    rfl
  subst hlist
  refine Prog.Triple.pre (P := Answering w v) ?_ fun s hs => ?_
  · refine Prog.Keeps.bind (happProfiles_answering cfg sv _) fun profiles _ =>
      .bind (.collect fun x hx => happEntry_configured cfg sv profiles hx) fun entries h => ?_
    refine .done fun es hes => ?_
    cases hes
    exact h
  · rw [hs.1.1]
    exact ⟨ha, rfl⟩

end configs

def TokenUser (db : Db) (param : String) (u : ℕ) : Prop :=
  ∃ token, openToken (happTokenHash sv (GoValues.trimSpace param)) db = some token ∧
    token.userID = u

theorem subscription_linked (param : String) (w : World) :
    (subscription cfg sv param).Triple (· = w) (Linked w (TokenUser sv w.db param)) := by
  unfold subscription
  dsimp only
  split
  · refine .done fun v hv => ?_
    rw [hv]
    exact (Migrated.refl w).linked rfl
  refine .bind (triple_first) ?_
  rintro (e | token)
  · refine .done fun v hv => ?_
    rw [hv.1]
    exact (Migrated.refl w).linked rfl
  refine .given (TokenUser sv w.db param token.userID) (fun v hv => ?_) fun htoken => ?_
  · obtain ⟨rfl, ⟨he, _⟩ | hfound⟩ := hv
    · cases he
    · refine ⟨token, ?_, rfl⟩
      cases hs : openToken (happTokenHash sv (GoValues.trimSpace param)) v.db with
      | none => simp [hs] at hfound
      | some t => simpa [hs] using hfound.symm
  refine .bind ((ensureDefaultSubscription_loads cfg token.userID w).pre fun v hv => hv.1) ?_
  rintro (e | sub)
  · exact .done fun v hv => hv.migrated.linked rfl
  refine .bind triple_clock fun now => ?_
  refine .given (now = w.now) (fun v hv => ?_) fun hnow => ?_
  · rw [hv.2, hv.1.migrated.frame]
  subst hnow
  split
  · exact .done fun v hv => hv.1.migrated.linked rfl
  next hpaid =>
  intro v hv
  obtain ⟨ha, hjobs⟩ := hv.1.migrated.answered
  have hg := (isActivePaid_iff cfg hv.1).mp (by simpa using hpaid)
  refine Prog.Triple.bind (happJSONConfigs_configured cfg sv ha hg.1) ?_ v rfl
  rintro (e | _ | ⟨e, entries⟩)
  · exact Prog.Triple.done fun s hs => ⟨hs.1.1, .inl (hs.1.2.trans hjobs), nofun⟩
  · refine Prog.Triple.bind (.atom fun s hs => ?_)
      fun _ => .done fun _ h => h
    refine ⟨hs.1.1.trans (.of_write s _ _ _ _), .inr ⟨_, sub, htoken, hg, ?_⟩, nofun⟩
    rw [← hjobs, ← hs.1.2]
  · refine .bind (Q := fun _ s => Linked w (TokenUser sv w.db param)
      (.configs (e :: entries)) s) (.atom fun s hs => ?_) fun now => ?_
    · exact ⟨hs.1.1, .inl (hs.1.2.trans hjobs), fun x hx =>
        ⟨_, sub, htoken, hg, hs.2 _ rfl x hx⟩⟩
    · refine .bind (triple_exec1 (fun _ _ h => h) fun s hs => ?_)
        fun _ => .done fun _ h => h
      exact ⟨hs.answered.trans (.of_write s _ _ _ _), hs.jobs, hs.entries⟩

end DeliveryEffects

import DrFrakeVpn.DeliveryEntitlement
import DrFrakeVpn.XrayClients

/-! # Credentials for users who do not pay

The background generator does not ask for the plan, and the subscriptions that are made by default
are active for a year. -/
namespace UnpaidCredentials

open SharedPrograms RecordTables GoValues Prog
open BackendModels BackendWorld AccessCredentials ConfigDelivery HappDelivery
open AccessRevocation RemoteRemoval RemoteAddition CredentialEffects DeliveryEffects
  DeliveryEntitlement

structure Fleet where
  servers : Table VPNServer
  templates : Table VLESSServerTemplate
  credentials : Table VLESSCredential
  remote : Remote

def withFleet (w : World) (f : Fleet) : World :=
  { w with
    remote := f.remote
    db := { w.db with
      servers := f.servers
      templates := f.templates
      vlessCredentials := f.credentials } }

/-- The subscription of the user is not free, is active and not past its end. -/
def RunningPaid (w : World) (u : ℕ) : Prop := ∃ sub, Granted w u sub

def NobodyFree (w : World) : Prop :=
  ∀ sub ∈ w.db.subscriptions.rows, sub.plan = .free → sub.status = .active →
    w.now < sub.expiresAt → w.db.users.byId sub.userID = none

instance (w : World) : Decidable (NobodyFree w) :=
  inferInstanceAs (Decidable (∀ sub ∈ w.db.subscriptions.rows, _))

variable {cfg : Setup} (sv : Services)

def HasOpen (w : World) (u i : ℕ) : Prop :=
  ∃ c ∈ w.db.vlessCredentials.rows, c.revokedAt = none ∧ c.userID = u ∧ c.serverID = i

variable {w : World}

theorem HasOpen.later {may w' u i} (h : HasOpen w u i) (hp : Prepares cfg may w w') :
    HasOpen w' u i := by
  obtain ⟨c, hc, hopen, hu, hi⟩ := h
  exact ⟨c, hp.kept c hc hopen, hopen, hu, hi⟩

variable {server : VPNServer}

theorem ensureVLESSCredential_ok (hdb : DatabaseWorks cfg) (hssh : server.sshPassword = "")
    (userID : ℕ) (template : VLESSServerTemplate) (w : World) :
    ∃ c, ((ensureVLESSCredential cfg sv userID server template).run w).1 = .ok c := by
  have hfind : (exec1 cfg (.credential userID server.id .find) (readOf fun db =>
      credentialOf db userID server.id)).run w = (.ok (credentialOf w.db userID server.id), w) :=
    hdb.run rfl _ w
  rw [ensureVLESSCredential, bind_eq, run_bind, hfind]
  cases hc : credentialOf w.db userID server.id with
  | none =>
    have hcreated := (createCredentialOf_run cfg (w := { w with random := w.random + 1 }) hc
      (sv.uuid w.random)).2
    obtain ⟨c, hcreate, _⟩ := hcreated
    have hstore := hdb.run (l := .credential userID server.id .create) rfl
      (createCredentialOf userID server.id (sv.uuid w.random)) { w with random := w.random + 1 }
    refine ⟨c, ?_⟩
    simp only [issueCredential, draw, addXrayClient_unreachable cfg _ _ _ _ hssh, bind_eq,
      run_bind, run_done, atom, run_act]
    rw [hstore, ← Prod.eta (createCredentialOf _ _ _ _), hcreate]
    rfl
  | some c =>
    dsimp only
    split
    · exact ⟨c, rfl⟩
    · next hrevoked =>
      have hsave := (saveCredentialOf_run cfg (credentialOf_some hc).1 hrevoked).1
      have hstore := hdb.run (l := .credential c.userID server.id .save) rfl
        (saveCredentialOf { c with revokedAt := none }) w
      refine ⟨{ c with revokedAt := none }, ?_⟩
      simp only [reopenCredential, addXrayClient_unreachable cfg _ _ _ _ hssh, bind_eq,
        run_bind, Prog.run_done]
      rw [hstore, ← Prod.eta (saveCredentialOf _ _), hsave]
      rfl

theorem ensureVLESSCredential_opens (hdb : DatabaseWorks cfg) (hssh : server.sshPassword = "")
    (userID : ℕ) (template : VLESSServerTemplate) (w : World) :
    HasOpen ((ensureVLESSCredential cfg sv userID server template).run w).2 userID server.id := by
  have hprepares : (ensureVLESSCredential cfg sv userID server template).Triple
      (Prepares cfg (fun _ _ => True) w) fun r v => Prepares cfg (fun _ _ => True) w v ∧
        Answers userID server.id r v := ensureVLESSCredential_prepares cfg sv trivial
  obtain ⟨c, hc⟩ := ensureVLESSCredential_ok sv hdb hssh userID template w
  exact ⟨c, (hprepares w (.refl w)).2 c hc⟩

variable {template : VLESSServerTemplate}

theorem generateFor_opens (hdb : DatabaseWorks cfg) (hvip : server.vipOnly = false)
    (hssh : server.sshPassword = "") (hblank : trimSpace template.clientID = "")
    (sub : Subscription) (w : World) :
    HasOpen ((generateFor cfg sv server template sub).run w).2 sub.userID server.id := by
  have hissue : (do let _ ← ensureVLESSCredential cfg sv sub.userID server template :
      Handler Unit).Triple (fun _ => True) fun _ v => HasOpen v sub.userID server.id := by
    refine .bind (fun v _ => ?_)
      fun _ => .done fun _ h => h
    exact ensureVLESSCredential_opens sv hdb hssh sub.userID template v
  have h : (generateFor cfg sv server template sub).Triple (fun _ => True)
      fun _ v => HasOpen v sub.userID server.id := by
    refine .bind triple_clock fun now => ?_
    rw [if_neg (by simp [hvip]), if_neg (by simp [hblank])]
    refine .bind (triple_read _) ?_
    rintro (e | _ | c)
    · exact hissue.pre fun _ _ => trivial
    · exact hissue.pre fun _ _ => trivial
    dsimp only
    split
    · next hopen =>
      refine .done fun v hv => ?_
      obtain ⟨hc, hu, hs⟩ := credentialOf_some (hv.2.1 (some c) rfl).symm
      exact ⟨c, hc, of_decide_eq_true hopen, hu, hs⟩
    · exact hissue.pre fun _ _ => trivial
  exact h w trivial

theorem generateOn_later (subs : List Subscription) (x : VPNServer × Option VLESSServerTemplate)
    (w : World) : Prepares cfg (fun _ _ => True) w ((generateOn cfg sv subs x).run w).2 :=
  (generateOn_prepares cfg sv (fun _ _ _ => trivial) w (.refl w)).1

variable {x : VPNServer × Option VLESSServerTemplate} {sub : Subscription}

theorem generateOn_opens (hdb : DatabaseWorks cfg) (hvip : x.1.vipOnly = false)
    (hssh : x.1.sshPassword = "") (hloaded : loadedTemplate x = some template)
    (hblank : trimSpace template.clientID = "") {now}
    (hfresh : isFreshTemplate now (some template)) {subs} (hsub : sub ∈ subs) :
    (generateOn cfg sv subs x).Triple (fun v => v.now = now)
      fun _ v => HasOpen v sub.userID x.1.id := by
  have hcached : (ensureVLESSTemplate cfg sv x.1 x.2).Triple (fun v => v.now = now)
      fun r v => r = .ok (some template) ∧ v.now = now := by
    refine .bind triple_clock fun t => ?_
    refine .given (t = now) (fun v hv => hv.2.trans hv.1) fun ht => ?_
    have hload : (x.2.map fun template => xrayTemplateDefaults template x.1) = some template :=
      hloaded
    rw [hload, ht, if_pos hfresh]
    exact .done fun _ hv => ⟨rfl, hv.1⟩
  have husable : hasUsableVLESSTemplate (some template) := by
    simp only [isFreshTemplate, Bool.and_eq_true] at hfresh
    exact hfresh.1.1
  refine .bind hcached fun r => ?_
  refine .given (r = .ok (some template)) (fun v hv => hv.1) fun hr => ?_
  rw [hr]
  dsimp only
  rw [if_pos husable]
  refine Prog.Triple.each_of_mem hsub (fun _ _ _ _ => trivial)
    (fun v _ => generateFor_opens sv hdb hvip hssh hblank sub v) (fun y _ v hv => ?_) |>.pre
      fun _ _ => trivial
  have hlater : (generateFor cfg sv x.1 template y).Keeps (Prepares cfg (fun _ _ => True) v)
      fun _ => True := generateFor_prepares cfg sv fun _ => trivial
  exact hv.later (hlater v (.refl v)).1

theorem generateMissingConfigs_opens (hdb : DatabaseWorks cfg) (hx : x ∈ activeServers true w.db)
    (hvip : x.1.vipOnly = false) (hssh : x.1.sshPassword = "")
    (hloaded : loadedTemplate x = some template) (hblank : trimSpace template.clientID = "")
    (hfresh : isFreshTemplate w.now (some template)) (hsub : Served w sub) :
    HasOpen ((generateMissingConfigs cfg sv).run w).2 sub.userID x.1.id := by
  have h : (generateMissingConfigs cfg sv).Triple (· = w) fun _ v =>
      HasOpen v sub.userID x.1.id := by
    refine .bind (triple_read _) ?_
    rintro (e | servers)
    · intro v hv
      exact absurd hdb (not_works cfg rfl (hv.2.2 e rfl))
    refine .bind triple_clock fun now => .bind (triple_read _) ?_
    rintro (e | subs)
    · intro v hv
      exact absurd hdb (not_works cfg rfl (hv.2.2 e rfl))
    intro v hv
    obtain ⟨⟨⟨rfl, hservers, _⟩, rfl⟩, hsubs, _⟩ := hv
    rw [← hservers servers rfl] at hx
    rw [← mem_servedSubscriptions, ← hsubs subs rfl] at hsub
    refine Prog.Triple.each_of_mem hx (fun y _ u hu => ?_)
      (generateOn_opens sv hdb hvip hssh hloaded hblank hfresh hsub) (fun y _ u hu => ?_) v rfl
    · exact (generateOn_later sv subs y u).now.trans hu
    · exact hu.later (generateOn_later sv subs y u)
  exact h w rfl

/-- No operation creates or reactivates a credential of a user whose subscription is free or
does not run, whatever the servers are and whatever fails. -/
def OnlyPaying (w : World) : Prop :=
  ∀ cfg fleet op w', Completes cfg sv (Operation.program cfg sv op) (withFleet w fleet) w' →
    ∀ c, Opened (withFleet w fleet) w' c → RunningPaid w c.userID

theorem onlyPaying_of_nobodyFree (h : NobodyFree w) : OnlyPaying sv w := by
  intro cfg fleet op w' hw c hc
  rcases (operation_hands cfg sv hw).opened c hc.1 hc.2.1 with hold | ⟨sub, hg, _⟩ |
    ⟨_, sub, ⟨hrow, hactive, hexp, huser⟩, hu, _⟩
  · exact absurd hold hc.2.2
  · exact ⟨sub, hg.stored, hg.user, hg.active, hg.unexpired, hg.paid⟩
  · refine ⟨sub, hrow, hu, hactive, le_of_lt hexp, fun hfree => ?_⟩
    rw [show (withFleet w fleet).db.users.byId sub.userID = none from h sub hrow hfree hactive hexp]
      at huser
    cases huser

def openServer : VPNServer := ⟨1, "nl", "192.0.2.1", "NL", "nl", true, false, 51820, "", ""⟩

def openTemplate (now : ℤ) : VLESSServerTemplate :=
  ⟨1, now, 1, "", "192.0.2.1", 443, "example.org", "pub", "ab", "", "xhttp", false, 443, "",
    "amnezia-xray"⟩

def openFleet (now : ℤ) : Fleet where
  servers := ⟨[openServer], 2, by decide⟩
  templates := ⟨[openTemplate now], 2, by simp [Valid, openTemplate, Record.id]⟩
  credentials := .empty
  remote := .empty

theorem openTemplate_loaded (now : ℤ) :
    loadedTemplate (openServer, some (openTemplate now)) = some (openTemplate now) := by
  simp [loadedTemplate, xrayTemplateDefaults, defaultAddress, openTemplate]

theorem openTemplate_fresh (now : ℤ) : isFreshTemplate now (some (openTemplate now)) := by
  have husable : hasUsableVLESSTemplate (some (openTemplate now)) := by
    change hasUsableVLESSTemplate (some (openTemplate 0))
    decide
  have hage : GoTime.sub now (openTemplate now).updatedAt = 0 := by
    simp only [openTemplate, GoTime.sub, sub_self]
    decide
  simp [isFreshTemplate, husable, hage, GoTime.hour]

theorem subscription_opened (hsub : sub ∈ w.db.subscriptions.rows) (hactive : sub.status = .active)
    (hexp : w.now < sub.expiresAt) (huser : (w.db.users.byId sub.userID).isSome) :
    ∃ w' c, Completes (.standard "") sv (Operation.program (.standard "") sv
        .generateMissingConfigs) (withFleet w (openFleet w.now)) w' ∧
      Opened (withFleet w (openFleet w.now)) w' c ∧ c.userID = sub.userID := by
  have hdb : DatabaseWorks (.standard "") := fun l hl => by cases hl
  have hserver : (openServer, some (openTemplate w.now)) ∈
      activeServers true { withFleet w (openFleet w.now) with jobs := [] }.db :=
    mem_activeServers.mpr ⟨List.mem_singleton_self _, rfl, nofun, by
      simp [withFleet, openFleet, Table.first?, openTemplate, openServer]⟩
  have hopen := generateMissingConfigs_opens sv hdb hserver rfl rfl (openTemplate_loaded w.now)
    (by simp only [openTemplate]; decide) (openTemplate_fresh w.now) ⟨hsub, hactive, hexp, huser⟩
  have hjobs : ((generateMissingConfigs (.standard "") sv).run
      { withFleet w (openFleet w.now) with jobs := [] }).2.jobs = [] :=
    (generateMissingConfigs_prepares (.standard "") sv _).jobs
  generalize hrun : ((generateMissingConfigs (.standard "") sv).run
    { withFleet w (openFleet w.now) with jobs := [] }).2 = v at hopen hjobs
  obtain ⟨c, hc, hrevoked, hu, _⟩ := hopen
  refine ⟨{ v with jobs := [] }, c, ?_, ⟨hc, hrevoked, List.not_mem_nil⟩, hu⟩
  rw [Completes, Operation.program, hrun]
  exact ⟨[], by rw [hjobs], rfl⟩

theorem only_paying_iff (w : World) : OnlyPaying sv w ↔ NobodyFree w := by
  refine ⟨fun h sub hsub hfree hactive hexp => ?_, onlyPaying_of_nobodyFree sv⟩
  by_contra hsome
  have huser := Option.isSome_iff_ne_none.mpr hsome
  obtain ⟨w', c, hw, hc, hu⟩ := subscription_opened sv hsub hactive hexp huser
  obtain ⟨paid, hpaid⟩ := h _ _ _ w' hw c hc
  rw [hu] at hpaid
  -- a user has one subscription
  have hsame : paid = sub := w.db.subscriptions.key_injective hpaid.stored hsub hpaid.user
  exact hpaid.paid (hsame ▸ hfree)

def visitorWorld : World :=
  { XrayClients.xrayWorld with
    db := { Db.empty with
      users := ⟨[⟨7, "seven@example.org"⟩], 8, User.valid_one _⟩
      servers := ⟨[XrayClients.xrayServer], 2, by decide⟩
      templates := ⟨[XrayClients.realityTemplate], 2, by decide⟩ } }

def afterVisit : World := ((getConfig (.standard "") .numbered 7).run visitorWorld).2

def afterPass : World := ((generateMissingConfigs (.standard "") .numbered).run afterVisit).2

/-- The next pass of the generator makes a credential for the visitor and lets its client in. -/
theorem free_user_gets_client :
    ((getConfig (.standard "") .numbered 7).run visitorWorld).1 =
        .failed 403 "no protocol available for current subscription" ∧
      Completes (.standard "") .numbered (Operation.program (.standard "") .numbered
        .generateMissingConfigs) afterVisit afterPass ∧
      Opened afterVisit afterPass ⟨1, 0, 7, 1, "u", none⟩ ∧ HasClient afterPass 1 "u" ∧
      ¬ RunningPaid afterVisit 7 ∧ ¬ OnlyPaying .numbered afterVisit := by
  have hpass : Completes (.standard "") .numbered (Operation.program (.standard "") .numbered
      .generateMissingConfigs) afterVisit afterPass := ⟨[], by decide +kernel, rfl⟩
  have hopened : Opened afterVisit afterPass ⟨1, 0, 7, 1, "u", none⟩ :=
    ⟨by decide +kernel, rfl, by decide +kernel⟩
  have hfree : ¬ RunningPaid afterVisit 7 := by
    rintro ⟨sub, hg⟩
    have hall : ∀ s ∈ afterVisit.db.subscriptions.rows, s.plan = .free := by decide +kernel
    exact hg.paid (hall sub hg.stored)
  refine ⟨by rfl, hpass, hopened, by decide +kernel, hfree, fun h => ?_⟩
  exact hfree (h _ ⟨_, _, _, _⟩ _ _ hpass _ hopened)

theorem valid_customers : Valid
    [(⟨7, "seven@example.org"⟩ : User), ⟨8, "eight@example.org"⟩] 9 := by decide

/-- One subscription that is paid for and one free one that ran out. -/
def customerWorld : World :=
  { visitorWorld with
    now := 100
    db := { visitorWorld.db with
      users := ⟨[⟨7, "seven@example.org"⟩, ⟨8, "eight@example.org"⟩], 9, valid_customers⟩
      subscriptions := ⟨[⟨1, 7, .basic, .active, 200, false, ""⟩,
        ⟨2, 8, .free, .active, 100, false, ""⟩], 3, by decide⟩ } }

theorem customers_get_credentials :
    NobodyFree customerWorld ∧ OnlyPaying .numbered customerWorld ∧
      Opened customerWorld ((generateMissingConfigs (.standard "") .numbered).run customerWorld).2
        ⟨1, 100, 7, 1, "u", none⟩ :=
  ⟨by decide, (only_paying_iff .numbered customerWorld).mpr (by decide), by decide +kernel, rfl,
    by decide +kernel⟩

end UnpaidCredentials

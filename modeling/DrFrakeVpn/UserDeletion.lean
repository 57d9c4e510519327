import DrFrakeVpn.UserAdmin

/-! # Deleting a user

`DeleteUser` deletes from five tables and then the user, drops every error and always answers
with success once it has found the user. -/
namespace UserDeletion

open SharedPrograms RecordTables GoValues Prog
open BackendModels AccountWorld UserAdmin

variable (cfg : AccountSetup) (id : String)

/-- Some row names the user. The last two columns are not foreign keys. -/
def RefersTo (user : ℕ) (a : Accounts) : Prop :=
  isReferenced user a = true ∨ (∃ x ∈ a.auditLogs.rows, x.actorUserID = some user) ∨
    ∃ x ∈ a.notifications.rows, x.acknowledgedByID = some user

def Complete (user : ℕ) (a : Accounts) : Prop :=
  a.world.db.users.byId user = none ∧ ¬ RefersTo user a

/-- If the user has rows in the table, their delete works and matches them. -/
def Emptied (site : DeleteSite) (user : ℕ) {α : Type} [Record α] (t : Table α)
    (owner : α → ℕ) : Prop :=
  ∀ x ∈ t.rows, owner x = user → cfg.faults (.delete id site) = false ∧ isUser cfg id user = true

structure Deletable (user : ℕ) (a : Accounts) : Prop where
  keys : Emptied cfg id .keys user a.world.db.vpnKeys (·.userID)
  credentials : Emptied cfg id .credentials user a.world.db.vlessCredentials (·.userID)
  profiles : Emptied cfg id .profiles user a.world.db.routingProfiles (·.userID)
  subscriptions : Emptied cfg id .subscriptions user a.world.db.subscriptions (·.userID)
  payments : Emptied cfg id .payments user a.world.db.payments (·.userID)
  happTokens : ∀ x ∈ a.world.db.happTokens.rows, x.userID ≠ user
  tvLogins : ∀ x ∈ a.tvLogins.rows, x.userID ≠ some user
  auditLogs : ∀ x ∈ a.auditLogs.rows, x.actorUserID ≠ some user
  notifications : ∀ x ∈ a.notifications.rows, x.acknowledgedByID ≠ some user
  user : cfg.faults (.delete id (.user user)) = false

def kept (site : DeleteSite) {α : Type} [Record α] (t : Table α) (owner : α → ℕ) : Table α :=
  if cfg.faults (.delete id site) then t else t.delete fun x => isUser cfg id (owner x)

def afterDeletes (db : Db) : Db :=
  { db with
    vpnKeys := kept cfg id .keys db.vpnKeys (·.userID)
    vlessCredentials := kept cfg id .credentials db.vlessCredentials (·.userID)
    routingProfiles := kept cfg id .profiles db.routingProfiles (·.userID)
    subscriptions := kept cfg id .subscriptions db.subscriptions (·.userID)
    payments := kept cfg id .payments db.payments (·.userID) }

def cleared (a : Accounts) : Accounts :=
  { a with world := { a.world with db := afterDeletes cfg id a.world.db } }

variable {cfg id} {user : ℕ} {a : Accounts} {α : Type}

theorem kept_emptied {site} [Record α] {t} {owner : α → ℕ} :
    (∀ x ∈ (kept cfg id site t owner).rows, owner x ≠ user) ↔
      Emptied cfg id site user t owner := by
  unfold kept Emptied
  cases hfault : cfg.faults (.delete id site) with
  | true => simp
  | false =>
    simp only [Bool.false_eq_true, if_false, Table.mem_delete, true_and]
    constructor
    · intro h x hx hu
      by_contra hmatch
      exact h x ⟨hx, by rw [hu]; simpa using hmatch⟩ hu
    · intro h x hx hu
      have hmatch := hx.2
      rw [hu, h x hx.1 hu] at hmatch
      cases hmatch

variable (l : AccountStmt)

theorem deleteRows_run :
    (deleteRows cfg l f).run a = ((), { a with world := { a.world with
      db := if cfg.faults l then a.world.db else f a.world.db } }) := by
  simp only [deleteRows, bind_eq, Prog.run_bind, run_exec, writeRow]
  split <;> rfl

theorem ite_db {c} (set : Db → α → Db) (get : Db → α) (hset : ∀ db, set db (get db) = db) :
    (if c then db else set db x) = set db (if c = true then get db else x) := by
  split
  · exact (hset db).symm
  · rfl

theorem deleteData_run : ((deleteData cfg id user).run a).2 =
    if cfg.faults (.delete id (.user user)) then cleared cfg id a
    else (removeUser user (cleared cfg id a)).2 := by
  simp only [deleteData, bind_eq, Prog.run_bind, deleteRows_run, run_exec]
  rw [ite_db (fun db t => { db with vpnKeys := t }) Db.vpnKeys fun _ => rfl,
    ite_db (fun db t => { db with vlessCredentials := t }) Db.vlessCredentials fun _ => rfl,
    ite_db (fun db t => { db with routingProfiles := t }) Db.routingProfiles fun _ => rfl,
    ite_db (fun db t => { db with subscriptions := t }) Db.subscriptions fun _ => rfl,
    ite_db (fun db t => { db with payments := t }) Db.payments fun _ => rfl]
  split <;> rfl

theorem findRows_run :
    ((findRows cfg l select).run a).2 = a := by
  simp only [findRows, bind_eq, Prog.run_bind, run_exec]
  cases cfg.faults l <;> rfl

def Elsewhere (a b : Accounts) : Prop := ∃ r, b = { a with world := { a.world with remote := r } }

theorem remotely_elsewhere {l b b'} (h : Remotely l b b') (hb : Elsewhere a b) :
    Elsewhere a b' := by
  obtain ⟨_, r, rfl⟩ := h
  obtain ⟨_, rfl⟩ := hb
  exact ⟨r, rfl⟩

variable {found : Account}

theorem deleteUser_run (hfind : findUser cfg id a = some found)
    (hok : ((deleteUser cfg id).run a).1 = deletedReply) :
    ∃ b, Elsewhere a b ∧
      ((deleteUser cfg id).run a).2 = ((deleteData cfg id found.id).run b).2 := by
  unfold deleteUser at hok ⊢
  simp only [bind_eq, run_bind, run_exec, firstRow, hfind] at hok ⊢
  cases hfault : cfg.faults (.delete id .findUser) with
  | true =>
    rw [hfault] at hok
    cases hok
  | false =>
    simp only [Bool.false_eq_true, if_false, run_bind, pure_eq, run_done,
      findRows_run]
    refine ⟨_, ?_, rfl⟩
    refine Prog.Does.triple (I := Elsewhere a) (fun _ _ _ => remotely_elsewhere)
      (does_each (does_dropClient cfg) _) _ ?_
    exact Prog.Does.triple (R := Remotely) (I := Elsewhere a) (fun _ _ _ => remotely_elsewhere)
      (Prog.does_each (does_dropPeer cfg) _) a ⟨a.world.remote, rfl⟩

theorem not_isReferenced : isReferenced user a = false ↔
    (∀ x ∈ a.world.db.subscriptions.rows, x.userID ≠ user) ∧
    (∀ x ∈ a.world.db.vpnKeys.rows, x.userID ≠ user) ∧
    (∀ x ∈ a.world.db.payments.rows, x.userID ≠ user) ∧
    (∀ x ∈ a.tvLogins.rows, x.userID ≠ some user) ∧
    (∀ x ∈ a.world.db.vlessCredentials.rows, x.userID ≠ user) ∧
    (∀ x ∈ a.world.db.happTokens.rows, x.userID ≠ user) ∧
    ∀ x ∈ a.world.db.routingProfiles.rows, x.userID ≠ user := by
  simp [isReferenced, and_assoc]

theorem complete_removeUser (huser : (a.world.db.users.byId user).isSome) :
    Complete user (removeUser user a).2 ↔ ¬ RefersTo user a := by
  unfold removeUser Complete
  cases href : isReferenced user a with
  | true =>
    simp only [if_true]
    constructor
    · intro h
      rw [h.1] at huser
      cases huser
    · intro h
      exact absurd (.inl href) h
  | false =>
    have hgone : (a.world.db.users.delete fun u => u.id = user).byId user = none := by
      by_contra hsome
      obtain ⟨u, hu⟩ := Option.ne_none_iff_exists'.mp hsome
      obtain ⟨hmem, hid⟩ := (Table.byId_some_iff _).mp hu
      have hother := (Table.mem_delete _).mp hmem
      simp only [decide_eq_false_iff_not] at hother
      exact hother.2 hid
    exact ⟨fun h => h.2, fun h => ⟨hgone, h⟩⟩

theorem byID_isSome {n} (h : a.byID n = some found) :
    (a.world.db.users.byId found.id).isSome := by
  obtain ⟨u, hu, rfl⟩ := Option.map_eq_some_iff.mp h
  have hid : u.id = n := ((Table.byId_some_iff _).mp hu).2
  change (a.world.db.users.byId u.id).isSome
  rw [hid, hu]
  rfl

theorem findUser_isSome (h : findUser cfg id a = some found) :
    (a.world.db.users.byId found.id).isSome := by
  unfold findUser at h
  split at h
  · split at h
    · exact byID_isSome h
    · cases h
  · obtain ⟨n, _, hn⟩ := Option.bind_eq_some_iff.mp h
    exact byID_isSome hn

theorem refersTo_cleared : ¬ RefersTo user (cleared cfg id a) ↔
    Emptied cfg id .keys user a.world.db.vpnKeys (·.userID) ∧
    Emptied cfg id .credentials user a.world.db.vlessCredentials (·.userID) ∧
    Emptied cfg id .profiles user a.world.db.routingProfiles (·.userID) ∧
    Emptied cfg id .subscriptions user a.world.db.subscriptions (·.userID) ∧
    Emptied cfg id .payments user a.world.db.payments (·.userID) ∧
    (∀ x ∈ a.world.db.happTokens.rows, x.userID ≠ user) ∧
    (∀ x ∈ a.tvLogins.rows, x.userID ≠ some user) ∧
    (∀ x ∈ a.auditLogs.rows, x.actorUserID ≠ some user) ∧
    ∀ x ∈ a.notifications.rows, x.acknowledgedByID ≠ some user := by
  simp only [RefersTo, not_or, Bool.not_eq_true, not_isReferenced, not_exists, not_and,
    cleared, afterDeletes, kept_emptied, ne_eq]
  tauto

/-- A deletion that answers with success is complete exactly when everything that names the user
is in one of the five tables and all deletes go through. -/
theorem deletion_complete_iff {found : Account} (hfind : findUser cfg id a = some found)
    (hok : ((deleteUser cfg id).run a).1 = deletedReply) :
    Complete found.id ((deleteUser cfg id).run a).2 ↔ Deletable cfg id found.id a := by
  obtain ⟨b, hb, hrun⟩ := deleteUser_run hfind hok
  have huser : (b.world.db.users.byId found.id).isSome = true := by
    have hsome := findUser_isSome hfind
    obtain ⟨r, rfl⟩ := hb
    exact hsome
  rw [hrun, deleteData_run]
  cases hfault : cfg.faults (.delete id (.user found.id)) with
  | true =>
    constructor
    · intro h
      have hnone : b.world.db.users.byId found.id = none := h.1
      rw [hnone] at huser
      cases huser
    · intro h
      rw [h.user] at hfault
      cases hfault
  | false =>
    simp only [Bool.false_eq_true, if_false]
    have hcleared : ((cleared cfg id b).world.db.users.byId found.id).isSome = true := huser
    rw [complete_removeUser hcleared, refersTo_cleared]
    obtain ⟨r, rfl⟩ := hb
    constructor
    · rintro ⟨h₁, h₂, h₃, h₄, h₅, h₆, h₇, h₈, h₉⟩
      exact ⟨h₁, h₂, h₃, h₄, h₅, h₆, h₇, h₈, h₉, hfault⟩
    · intro h
      exact ⟨h.keys, h.credentials, h.profiles, h.subscriptions, h.payments, h.happTokens,
        h.tvLogins, h.auditLogs, h.notifications⟩

def subscriber : Accounts :=
  let start := Accounts.start ⟨[⟨7, "seven@example.org"⟩], 8, User.valid_one _⟩ 0
  { start with world := { start.world with db := { start.world.db with
      subscriptions := ⟨[⟨1, 7, .basic, .active, 100, false, ""⟩], 2, by decide⟩
      vpnKeys := ⟨[⟨1, 7, 1, "key-7", "psk", "conf", 0, none⟩], 2, by decide⟩ } } }

def foundSeven : Account := ⟨7, "seven@example.org", "", .user⟩

theorem subscriber_deleted :
    ((deleteUser .standard "7").run subscriber).1 = deletedReply ∧
      Complete 7 ((deleteUser .standard "7").run subscriber).2 := by
  have hfind : findUser .standard "7" subscriber = some foundSeven := by decide +kernel
  have hok : ((deleteUser .standard "7").run subscriber).1 = deletedReply := rfl
  have hmatch : isUser .standard "7" 7 = true := by decide +kernel
  refine ⟨hok, (deletion_complete_iff hfind hok).mpr ?_⟩
  exact
    { keys := fun _ _ _ => ⟨rfl, hmatch⟩
      credentials := fun _ _ _ => ⟨rfl, hmatch⟩
      profiles := fun _ _ _ => ⟨rfl, hmatch⟩
      subscriptions := fun _ _ _ => ⟨rfl, hmatch⟩
      payments := fun _ _ _ => ⟨rfl, hmatch⟩
      happTokens := by decide
      tvLogins := by decide
      auditLogs := by decide
      notifications := by decide
      user := rfl }

def happUser : Accounts :=
  { subscriber with world := { subscriber.world with db := { subscriber.world.db with
      happTokens := ⟨[⟨1, 7, "hash", "iOS Happ", none, none⟩], 2, by decide⟩ } } }

/-- The answer is success, but the foreign key of the token keeps the user. -/
theorem happ_user_stays :
    findUser .standard "7" happUser = some foundSeven ∧
      ((deleteUser .standard "7").run happUser).1 = deletedReply ∧
      ((deleteUser .standard "7").run happUser).2.world.db.users.byId 7 =
        some ⟨7, "seven@example.org"⟩ ∧
      ¬ Complete 7 ((deleteUser .standard "7").run happUser).2 := by
  have hstays : ((deleteUser .standard "7").run happUser).2.world.db.users.byId 7 =
      some ⟨7, "seven@example.org"⟩ := by decide +kernel
  refine ⟨by decide +kernel, rfl, hstays, fun h => ?_⟩
  rw [h.1] at hstays
  cases hstays

end UserDeletion

import DrFrakeVpn.UserAdmin

/-! # The last administrator

A demotion counts the administrators first and is written later, and a deletion does not count
them at all. -/
namespace AdminRoles

open SharedPrograms FaultyTransactions RecordTables GoValues List
open BackendModels AccountWorld UserAdmin

inductive UserCall where
  | setUserRole (id : String) (req : Except String Role)
  | deleteUser (id : String)

variable (cfg : AccountSetup)

def UserCall.program : UserCall → AccountHandler Unit
  | .setUserRole id req => (UserAdmin.setUserRole cfg id req).forget
  | .deleteUser id => (UserAdmin.deleteUser cfg id).forget

def callPool (calls : List UserCall) (a : Accounts) : Config Accounts AccountStmt :=
  ⟨calls.map (UserCall.program cfg), a⟩

def HasAdmin (a : Accounts) : Prop := ∃ u ∈ a.world.db.users.rows, a.role u.id = .admin

/-- Nobody else takes the role of an administrator away. -/
def Meanwhile (a a' : Accounts) : Prop := adminCount a ≤ adminCount a'

/-- A demotion is written only while there are no fewer administrators than were counted, and
the only administrator is not deleted. -/
structure KeepsOne (l : AccountStmt) (_ : List (Option AccountStmt)) (a : Accounts) : Prop where
  demotion : ∀ user counted, l = .setRole user .user counted → counted ≤ adminCount a
  deletion : ∀ id user, l = .delete id (.user user) → a.role user = .admin → 2 ≤ adminCount a

/-- A demotion is written only when more than one administrator was counted. -/
def RoleStep (l : AccountStmt) (a a' : Accounts) : Prop :=
  match l with
  | .setRole user role counted =>
    (role = .user → 2 ≤ counted) ∧ (a' = a ∨ a' = storeRole user role a)
  | .delete _ (.user user) => a' = a ∨ a' = (removeUser user a).2
  | _ => a'.world.db.users = a.world.db.users ∧ a'.role = a.role

variable {cfg} {a a' : Accounts}

theorem hasAdmin_iff : HasAdmin a ↔ 1 ≤ adminCount a := by
  rw [adminCount, Table.count, Nat.succ_le_iff, countP_pos_iff]
  simp [HasAdmin]

def othersCount (user : ℕ) (a : Accounts) : ℕ :=
  a.world.db.users.count fun u => decide (a.role u.id = .admin) && decide (u.id ≠ user)

variable (user : ℕ)

theorem adminCount_le_others (a : Accounts) : adminCount a ≤ othersCount user a + 1 :=
  a.world.db.users.count_le_count_except _ user

theorem othersCount_storeRole (role : Role) (a : Accounts) :
    othersCount user a ≤ adminCount (storeRole user role a) := by
  unfold storeRole
  split
  · exact countP_mono_left fun u _ h => (Bool.and_eq_true_iff.mp h).1
  · refine countP_mono_left fun u _ h => ?_
    simp only [Bool.and_eq_true, decide_eq_true_eq] at h
    simpa [Function.update_of_ne h.2] using h.1

theorem adminCount_promote (a : Accounts) :
    adminCount a ≤ adminCount (storeRole user .admin a) := by
  unfold storeRole
  split
  · exact le_refl _
  · refine countP_mono_left fun u _ h => ?_
    by_cases hu : u.id = user
    · simp [hu]
    · simpa [Function.update_of_ne hu] using h

theorem othersCount_removeUser (a : Accounts) :
    othersCount user a ≤ adminCount (removeUser user a).2 := by
  unfold removeUser
  split
  · exact countP_mono_left fun u _ h => (Bool.and_eq_true_iff.mp h).1
  · apply le_of_eq
    simp [othersCount, adminCount, Table.count, Table.delete, countP_filter]

theorem adminCount_le_others_of_user {user} (h : a.role user ≠ .admin) :
    adminCount a ≤ othersCount user a := by
  refine countP_mono_left fun u _ hu => ?_
  have hne : u.id ≠ user := fun he => h (he ▸ of_decide_eq_true hu)
  simp [of_decide_eq_true hu, hne]

variable {l : AccountStmt}

theorem RoleStep.hasAdmin {ls} (hguard : KeepsOne l ls a) (h : RoleStep l a a')
    (hadmin : HasAdmin a) : HasAdmin a' := by
  rw [hasAdmin_iff] at hadmin ⊢
  unfold RoleStep at h
  split at h
  · next user role counted =>
    obtain ⟨hcounted, rfl | rfl⟩ := h
    · exact hadmin
    · cases role with
      | admin => exact hadmin.trans (adminCount_promote user a)
      | user =>
        have htwo := hcounted rfl
        have hcount := hguard.demotion user counted rfl
        have hothers := adminCount_le_others user a
        have hstored := othersCount_storeRole user .user a
        omega
  · next id user =>
    obtain rfl | rfl := h
    · exact hadmin
    have hstored := othersCount_removeUser user a
    by_cases hrole : a.role user = .admin
    · have htwo := hguard.deletion id user rfl hrole
      have hothers := adminCount_le_others user a
      omega
    · exact hadmin.trans ((adminCount_le_others_of_user hrole).trans hstored)
  · obtain ⟨husers, hrole⟩ := h
    rwa [adminCount, husers, hrole]

theorem does_findUser (l : AccountStmt) (id : String)
    (hl : ∀ a, RoleStep l a a) : (exec cfg l (firstRow (findUser cfg id))).Does RoleStep := by
  refine Prog.does_atom fun a => ?_
  unfold firstRow
  split
  · exact hl a
  · split <;> exact hl a

variable (id : String)

theorem does_assignRole (role : Role) (counted : ℕ) (h : role = .user → 2 ≤ counted) :
    (assignRole cfg id role counted).Does RoleStep := by
  refine (does_findUser (.findForRole id) id fun _ => ⟨rfl, rfl⟩).bind fun r => ?_
  cases r with
  | error _ => exact .done _
  | ok user =>
    refine (Prog.does_atom fun a => ?_).bind fun _ => .done _
    refine ⟨h, ?_⟩
    split
    · exact .inl rfl
    · exact .inr rfl

theorem does_setUserRole (req : Except String Role) :
    (UserAdmin.setUserRole cfg id req).Does RoleStep := by
  rcases req with message | _ | _
  · exact .done _
  · refine (Prog.does_atom fun a => ?_).bind fun r => ?_
    · split <;> exact ⟨rfl, rfl⟩
    · cases r with
      | error _ => exact .done _
      | ok counted =>
        dsimp only
        split
        · exact .done _
        · exact does_assignRole id .user counted fun _ => by omega
  · exact does_assignRole id .admin 0 nofun

theorem does_findRows {α : Type} (l : AccountStmt) (select : Accounts → List α)
    (hl : ∀ a, RoleStep l a a) : (findRows cfg l select).Does RoleStep := by
  refine (Prog.does_atom fun a => ?_).bind fun r => ?_
  · split <;> exact hl a
  · cases r <;> exact .done _

theorem does_deleteRows (site : DeleteSite) {f} (hsite : ∀ user, site ≠ .user user)
    (hf : ∀ db, (f db).users = db.users) : (deleteRows cfg (.delete id site) f).Does RoleStep := by
  refine (Prog.does_atom fun a => ?_).bind fun _ => .done _
  cases site with
  | user user => exact absurd rfl (hsite user)
  | _ =>
    split
    · exact ⟨rfl, rfl⟩
    · exact ⟨hf _, rfl⟩

theorem roleStep_remotely (h : Remotely l a a') : RoleStep l a a' := by
  obtain ⟨⟨_, rfl⟩, _, rfl⟩ := h
  exact ⟨rfl, rfl⟩

theorem does_deleteData (user : ℕ) : (deleteData cfg id user).Does RoleStep := by
  refine Prog.Does.bind (does_deleteRows id .keys nofun ?_) fun _ => ?_
  · exact fun _ => rfl
  refine Prog.Does.bind (does_deleteRows id .credentials nofun ?_) fun _ => ?_
  · exact fun _ => rfl
  refine Prog.Does.bind (does_deleteRows id .profiles nofun ?_) fun _ => ?_
  · exact fun _ => rfl
  refine Prog.Does.bind (does_deleteRows id .subscriptions nofun ?_) fun _ => ?_
  · exact fun _ => rfl
  refine Prog.Does.bind (does_deleteRows id .payments nofun ?_) fun _ => ?_
  · exact fun _ => rfl
  refine (Prog.does_atom fun a => ?_).bind fun _ => .done _
  split
  · exact .inl rfl
  · exact .inr rfl

theorem does_deleteUser : (UserAdmin.deleteUser cfg id).Does RoleStep := by
  refine (does_findUser (.delete id .findUser) id fun _ => ⟨rfl, rfl⟩).bind fun r => ?_
  cases r with
  | error _ => exact .done _
  | ok user =>
    refine (does_findRows (.delete id .selectKeys) _ fun _ => ⟨rfl, rfl⟩).bind fun keys => ?_
    refine (does_findRows (.delete id .selectCredentials) _ fun _ => ⟨rfl, rfl⟩).bind
      fun creds => ?_
    refine (Prog.does_each (fun x => (does_dropPeer cfg x).mono fun _ _ _ => roleStep_remotely)
      keys).bind fun _ => ?_
    refine (Prog.does_each (fun x => (does_dropClient cfg x).mono fun _ _ _ => roleStep_remotely)
      creds).bind fun _ => ?_
    exact (does_deleteData id user.id).bind fun _ => .done _

theorem does_call (call : UserCall) : (call.program cfg).Does RoleStep := by
  cases call with
  | setUserRole id req => exact (does_setUserRole id req).forget
  | deleteUser id => exact (does_deleteUser id).forget

/-- Every interleaving of the calls keeps an administrator, as long as its steps are permitted. -/
theorem admin_remains (calls : List UserCall) (hadmin : HasAdmin a)
    {c : Config Accounts AccountStmt} (h : Execution Meanwhile KeepsOne (callPool cfg calls a) c) :
    HasAdmin c.shared := by
  refine Prog.Does.execution (R := RoleStep) (fun _ _ _ _ hguard hstep => hstep.hasAdmin hguard)
    (fun s s' henv hs => ?_) (fun p hp => ?_) hadmin h
  · exact hasAdmin_iff.mpr ((hasAdmin_iff.mp hs).trans henv)
  · obtain ⟨call, _, rfl⟩ := mem_map.mp hp
    exact does_call call

def twoAdmins : Accounts :=
  { Accounts.start ⟨[⟨1, "one@example.org"⟩, ⟨2, "two@example.org"⟩, ⟨3, "three@example.org"⟩], 4,
      by decide⟩ 0 with
    role := fun id => if id ≤ 2 then .admin else .user }

def demoteBoth : Config Accounts AccountStmt :=
  callPool .standard [.setUserRole "1" (.ok .user), .setUserRole "2" (.ok .user)] twoAdmins

instance (l : AccountStmt) (ls : List (Option AccountStmt)) (a : Accounts) :
    Decidable (KeepsOne l ls a) :=
  decidable_of_iff ((match l with
      | .setRole _ .user counted => decide (counted ≤ adminCount a)
      | .delete _ (.user user) => decide (a.role user = .admin → 2 ≤ adminCount a)
      | _ => true) = true) <| by
    constructor
    · intro h
      refine ⟨?_, ?_⟩
      · rintro user counted rfl
        exact of_decide_eq_true h
      · rintro id user rfl
        exact of_decide_eq_true h
    · intro h
      split
      · exact decide_eq_true (h.demotion _ _ rfl)
      · exact decide_eq_true (h.deletion _ _ rfl)
      · rfl

/-- One after the other, the second demotion is refused. -/
theorem second_demotion_refused :
    HasAdmin (demoteBoth.runSchedule [0, 0, 0, 1, 1, 1]).shared :=
  admin_remains _ ⟨⟨1, "one@example.org"⟩, by decide, rfl⟩
    (runSchedule_execution demoteBoth _ (by decide +kernel))

/-- Each demotion counts both administrators before the other is written. -/
def demotedBoth : Config Accounts AccountStmt := demoteBoth.runSchedule [0, 1, 0, 0, 1, 1]

def deleteBoth : Config Accounts AccountStmt :=
  callPool .standard [.deleteUser "1", .deleteUser "2"] twoAdmins

/-- A deletion does not ask for the role. -/
def deletedBoth : Config Accounts AccountStmt :=
  deleteBoth.runSchedule (replicate 9 0 ++ replicate 9 1)

theorem no_admin_left :
    HasAdmin twoAdmins ∧
      Execution Meanwhile Unguarded demoteBoth demotedBoth ∧ ¬ HasAdmin demotedBoth.shared ∧
      Execution Meanwhile Unguarded deleteBoth deletedBoth ∧ ¬ HasAdmin deletedBoth.shared := by
  refine ⟨⟨⟨1, "one@example.org"⟩, by decide, rfl⟩,
    runSchedule_execution _ _ (schedule_unguarded _ _), ?_,
    runSchedule_execution _ _ (schedule_unguarded _ _), ?_⟩
  · rw [hasAdmin_iff]
    decide +kernel
  · rw [hasAdmin_iff]
    decide +kernel

end AdminRoles

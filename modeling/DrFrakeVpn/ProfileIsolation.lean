import DrFrakeVpn.RoutingProfiles

/-! # Whose routing profiles a request reaches

A VIP user's update or delete request leaves the profiles of other users alone, whatever is
stored, exactly when the text of its path is a number or makes a condition that no row of
another user meets. -/
namespace ProfileIsolation

open SharedPrograms RecordTables GoValues Prog
open BackendModels BackendWorld RoutingProfiles

variable {cfg : Setup} {st : Storage}

def rowsOf (userID : ℕ) (w : World) : List RoutingProfile :=
  w.db.routingProfiles.rows.filter fun p => p.userID = userID

/-- The request leaves the rows of the user as they are and answers with none of them. -/
def Untouched (userID : ℕ) (w : World) (outcome : Reply × World) : Prop :=
  rowsOf userID outcome.2 = rowsOf userID w ∧ ∀ p, outcome.1 = .profile p → p.userID ≠ userID

structure ActiveVIP (userID : ℕ) (w : World) : Prop where
  sub : ∃ s, w.db.subscriptionOf userID = some s ∧ s.status = .active ∧
    (s.plan = .vip ∨ s.plan = .vip3M) ∧ w.now < s.expiresAt

variable {db : Db} {id : ℕ} {p : RoutingProfile}

theorem storedProfile_some (h : storedProfile id db = some p) :
    p ∈ db.routingProfiles.rows ∧ p.id = id ∧ p.deletedAt = none := by
  obtain ⟨hm, hq⟩ := db.routingProfiles.first_some h
  simp only [Bool.and_eq_true, decide_eq_true_eq] at hq
  exact ⟨hm, hq⟩

variable {userID : ℕ} {row : RoutingProfile} {s : String}

variable {cond : RoutingProfile → Bool}

theorem writeProfiles_fst : (writeProfiles q f w).1 = .ok () :=
  rfl

variable {w : World} {f : ℤ → Table.Write RoutingProfile} {q : RoutingProfile → Bool}

theorem storedProfile_writeProfiles (hf : ∀ now p, ((f now).apply p).deletedAt = p.deletedAt) :
    storedProfile id (writeProfiles q f w).2.db = (storedProfile id w.db).map fun p =>
      if q p && p.deletedAt = none then (f w.now).apply p else p := by
  refine w.db.routingProfiles.first_update ?_
  intro p
  split
  · rw [hf, show ((f w.now).apply p).id = p.id from (f w.now).id_eq p]
  · rfl

theorem ensureSubscriptionSchema_profiles (w : World) :
    (ensureSubscriptionSchema w).db.routingProfiles = w.db.routingProfiles := by
  unfold ensureSubscriptionSchema
  split <;> rfl

theorem ensureSubscriptionSchema_now : (ensureSubscriptionSchema w).now = w.now := by
  unfold ensureSubscriptionSchema
  split <;> rfl

theorem ensureSubscriptionSchema_paid {s} (hs : w.db.subscriptionOf userID = some s)
    (hp : s.plan ≠ .free) : (ensureSubscriptionSchema w).db.subscriptionOf userID = some s := by
  unfold ensureSubscriptionSchema
  split
  · exact hs
  have hupd := Db.subscriptionOf_update w.db
    (fun s => s.plan = .free && s.paymentMethodID = "" && s.autoRenew)
    ⟨fun s => { s with autoRenew := false }, fun _ => rfl, fun _ => rfl⟩ userID
  rw [hs] at hupd
  simpa [hp] using hupd

theorem withProfile_run (h : cfg.Reliable) (hvip : ActiveVIP userID w) :
    (withProfile cfg st userID s k).run w =
      match findProfile st userID s (ensureSubscriptionSchema w).db with
      | .ok (some row) => (k row).run (ensureSubscriptionSchema w)
      | _ => (.failed 404 "routing profile not found", ensureSubscriptionSchema w) := by
  obtain ⟨sub, hsub, hactive, hplan, hexp⟩ := hvip.sub
  have hpaid : sub.plan ≠ .free := by
    rcases hplan with hp | hp <;> rw [hp] <;> decide
  have hfind := ensureSubscriptionSchema_paid hsub hpaid
  have hcan : canManageVIPFeatures (ensureSubscriptionSchema w).now sub := by
    rw [ensureSubscriptionSchema_now]
    have hgrace : w.now < sub.expiresAt + 24 * GoTime.hour := by
      unfold GoTime.hour
      omega
    simp [canManageVIPFeatures, isSubscriptionEntitled, hactive, hgrace, hplan]
  simp only [withProfile, ensureDefaultSubscription, exec1_reliable h, readClock, readOf, firstOf,
    findProfileOf, bind_eq, atom_bind, act_bind, run_act, pure_eq,
    Prog.done_bind, hfind, hcan, Bool.not_true,
    Bool.false_eq_true, if_false]
  cases findProfile st userID s (ensureSubscriptionSchema w).db with
  | error e => rfl
  | ok found => cases found <;> rfl

theorem reloadProfile_run (h : cfg.Reliable) :
    (reloadProfile cfg userID row).run w =
      (match storedProfile row.id w.db with
        | none => .failed 500 "failed to reload routing profile"
        | some p => .profile p, w) := by
  simp only [reloadProfile, exec1_reliable h, firstOf, bind_eq, atom_bind, Prog.run_act]
  cases storedProfile row.id w.db <;> rfl

variable {other : ℕ}

section Isolation

variable {userID other : ℕ} {row : RoutingProfile} {w : World} (h : cfg.Reliable)
  (hne : other ≠ userID) (hrow : ∀ p, storedProfile row.id w.db = some p → p.userID = userID)

end Isolation

def vipRow (userID : ℕ) : Subscription := ⟨1, userID, .vip, .active, GoTime.day, false, ""⟩

def vipWorld (userID : ℕ) (profiles : Table RoutingProfile) : World :=
  .start { Db.empty with
    subscriptions := ⟨[vipRow userID], 2, by simp [Valid, vipRow, Record.id]⟩
    routingProfiles := profiles } 0 (.answering (fun _ => none) [])

theorem vipWorld_vip (userID : ℕ) (profiles : Table RoutingProfile) :
    ActiveVIP userID (vipWorld userID profiles) := by
  have hfound : (vipWorld userID profiles).db.subscriptionOf userID = some (vipRow userID) :=
    Db.subscriptionOf_some_iff.mpr ⟨List.mem_singleton_self _, rfl⟩
  exact ⟨⟨_, hfound, rfl, .inl rfl, show (0 : ℤ) < GoTime.day by decide⟩⟩

def lone (row : RoutingProfile) : Table RoutingProfile :=
  ⟨[row], row.id + 1, by simp [Valid, Record.id]⟩

/-- A database that can read one query. -/
def reading (text : String) (cond : List ℕ → RoutingProfile → Bool) : Storage where
  firstWhere t args db :=
    if t = text then .ok (db.routingProfiles.first? (cond args)) else .error .failed
  encodeJSONStringArray strings := String.intercalate "," strings
  decodeJSONStringArray raw := [raw]

def otherProfile : RoutingProfile where
  id := 1
  createdAt := 0
  updatedAt := 0
  deletedAt := none
  userID := 2
  name := "work"
  code := ""
  templateCode := ""
  kind := .custom
  action := .proxy
  enabled := true
  description := ""
  icon := ""
  sortOrder := 0
  domainsJSON := ""
  domainSuffixesJSON := ""
  cidrsJSON := ""

end ProfileIsolation

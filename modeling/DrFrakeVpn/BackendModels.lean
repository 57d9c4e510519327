import DrFrakeVpn.RecordTables
import DrFrakeVpn.GoTime
import DrFrakeVpn.GoValues

/-! # The rows of the backend database

The models of the backend with the columns that the modelled handlers read or write.
Amounts are exact rationals in place of `float64`; times are nanoseconds in UTC. -/
namespace BackendModels

open RecordTables

inductive PlanType where
  | free
  | trial
  | basic
  | basic3M
  | vip
  | vip3M
  deriving DecidableEq, Repr

theorem PlanType.basic_ne_free : basic ≠ free := by decide

theorem PlanType.vip_ne_free : vip ≠ free := by decide

def PlanType.name : PlanType → String
  | .free => "free"
  | .trial => "trial"
  | .basic => "basic"
  | .basic3M => "basic_3m"
  | .vip => "vip"
  | .vip3M => "vip_3m"

def PlanType.ofName? (s : String) : Option PlanType :=
  [PlanType.free, .trial, .basic, .basic3M, .vip, .vip3M].find? fun p => p.name = s

inductive SubscriptionStatus where
  | active
  | expired
  | cancelled
  deriving DecidableEq, Repr

inductive PaymentStatus where
  | pending
  | succeeded
  | cancelled
  deriving DecidableEq, Repr

structure User where
  id : ℕ
  email : String
  deriving DecidableEq, Repr

structure Subscription where
  id : ℕ
  userID : ℕ
  plan : PlanType
  status : SubscriptionStatus
  expiresAt : ℤ
  autoRenew : Bool
  paymentMethodID : String
  deriving DecidableEq, Repr

/-- Both places that build a payment take its plan from the price list, so no payment is
for the free plan. -/
structure Payment where
  id : ℕ
  createdAt : ℤ
  userID : ℕ
  yooKassaID : String
  amount : ℚ
  originalAmount : ℚ
  discountAmount : ℚ
  currency : String
  status : PaymentStatus
  plan : PlanType
  confirmURL : String
  confirmedAt : Option ℤ
  promoCodeID : Option ℕ
  plan_priced : plan ≠ .free
  deriving DecidableEq

structure PromoCode where
  id : ℕ
  code : String
  discountPercent : ℤ
  maxUses : ℤ
  usedCount : ℤ
  active : Bool
  applicablePlans : String
  oncePerUser : Bool
  expiresAt : Option ℤ
  deriving DecidableEq, Repr

inductive RoutingProfileKind where
  | system
  | custom
  deriving DecidableEq, Repr

inductive RoutingProfileAction where
  | direct
  | proxy
  deriving DecidableEq, Repr

structure RoutingProfile where
  id : ℕ
  createdAt : ℤ
  updatedAt : ℤ
  deletedAt : Option ℤ
  userID : ℕ
  name : String
  code : String
  templateCode : String
  kind : RoutingProfileKind
  action : RoutingProfileAction
  enabled : Bool
  description : String
  icon : String
  sortOrder : ℤ
  domainsJSON : String
  domainSuffixesJSON : String
  cidrsJSON : String
  deriving DecidableEq, Repr

structure VPNServer where
  id : ℕ
  name : String
  host : String
  region : String
  countryCode : String
  active : Bool
  vipOnly : Bool
  awgPort : ℤ
  endpoint : String
  sshPassword : String
  deriving DecidableEq, Repr

structure VLESSServerTemplate where
  id : ℕ
  updatedAt : ℤ
  serverID : ℕ
  clientID : String
  address : String
  port : ℤ
  serverName : String
  publicKey : String
  shortID : String
  flow : String
  network : String
  hysteriaEnabled : Bool
  hysteriaPort : ℤ
  hysteriaPassword : String
  containerName : String
  deriving DecidableEq, Repr

structure VPNKey where
  id : ℕ
  userID : ℕ
  serverID : ℕ
  publicKey : String
  presharedKey : String
  configText : String
  issuedAt : ℤ
  revokedAt : Option ℤ
  deriving DecidableEq, Repr

structure VLESSCredential where
  id : ℕ
  createdAt : ℤ
  userID : ℕ
  serverID : ℕ
  clientID : String
  revokedAt : Option ℤ
  deriving DecidableEq, Repr

structure HappSubscriptionToken where
  id : ℕ
  userID : ℕ
  tokenHash : String
  label : String
  revokedAt : Option ℤ
  lastUsedAt : Option ℤ
  deriving DecidableEq, Repr

/-! The unique indexes of the models; a table without one is keyed by its primary key. -/

instance : Record User := ⟨String, inferInstance, User.id, User.email⟩

theorem User.valid_one (email : String) : Valid [(⟨7, email⟩ : User)] 8 := by
  simp [Valid, Record.id]

instance : Record Subscription := ⟨ℕ, inferInstance, Subscription.id, Subscription.userID⟩
instance : Record Payment := ⟨String, inferInstance, Payment.id, Payment.yooKassaID⟩
instance : Record PromoCode := ⟨String, inferInstance, PromoCode.id, PromoCode.code⟩
instance : Record RoutingProfile := ⟨ℕ, inferInstance, RoutingProfile.id, RoutingProfile.id⟩
instance : Record VPNServer := ⟨ℕ, inferInstance, VPNServer.id, VPNServer.id⟩
instance : Record VLESSServerTemplate :=
  ⟨ℕ, inferInstance, VLESSServerTemplate.id, VLESSServerTemplate.serverID⟩
instance : Record VPNKey := ⟨ℕ, inferInstance, VPNKey.id, VPNKey.id⟩
instance : Record VLESSCredential :=
  ⟨ℕ × ℕ, inferInstance, VLESSCredential.id, fun c => (c.userID, c.serverID)⟩
instance : Record HappSubscriptionToken :=
  ⟨String, inferInstance, HappSubscriptionToken.id, HappSubscriptionToken.tokenHash⟩

variable (p : RoutingProfile) (s : Subscription)

@[simp] theorem subscription_id : Record.id s = s.id := rfl
@[simp] theorem subscription_key : Record.key s = s.userID := rfl
@[simp] theorem payment_id (p : Payment) : Record.id p = p.id := rfl
@[simp] theorem payment_key (p : Payment) : Record.key p = p.yooKassaID := rfl
@[simp] theorem promo_id (p : PromoCode) : Record.id p = p.id := rfl
@[simp] theorem promo_key (p : PromoCode) : Record.key p = p.code := rfl
@[simp] theorem profile_id : Record.id p = p.id := rfl
@[simp] theorem profile_key : Record.key p = p.id := rfl

structure Db where
  users : Table User
  subscriptions : Table Subscription
  payments : Table Payment
  promoCodes : Table PromoCode
  routingProfiles : Table RoutingProfile
  servers : Table VPNServer
  templates : Table VLESSServerTemplate
  vpnKeys : Table VPNKey
  vlessCredentials : Table VLESSCredential
  happTokens : Table HappSubscriptionToken
  deriving DecidableEq

namespace Db

def empty : Db := ⟨.empty, .empty, .empty, .empty, .empty, .empty, .empty, .empty, .empty, .empty⟩

def subscriptionOf (db : Db) (userID : ℕ) : Option Subscription :=
  db.subscriptions.first? fun s => s.userID = userID

def paymentStatus (db : Db) (id : ℕ) : Option PaymentStatus := (db.payments.byId id).map (·.status)

theorem subscriptionOf_some_iff {db : Db} {u s} :
    db.subscriptionOf u = some s ↔ s ∈ db.subscriptions.rows ∧ s.userID = u := by
  constructor
  · intro h
    obtain ⟨hm, hq⟩ := db.subscriptions.first_some h
    exact ⟨hm, by simpa using hq⟩
  · rintro ⟨hm, hu⟩
    cases hf : db.subscriptionOf u with
    | none => simpa [hu] using db.subscriptions.first_none hf s hm
    | some r =>
      obtain ⟨hr, hq⟩ := db.subscriptions.first_some hf
      have hru : r.userID = u := by simpa using hq
      rw [db.subscriptions.key_injective hr hm (hru.trans hu.symm)]

theorem subscriptionOf_update (db : Db) (q : Subscription → Bool) (f : Table.Write Subscription)
    (u : ℕ) : ({ db with subscriptions := db.subscriptions.update q f }).subscriptionOf u =
      (db.subscriptionOf u).map fun s => if q s then f.apply s else s := by
  refine db.subscriptions.first_update ?_
  intro s
  split
  · rw [show (f.apply s).userID = s.userID from f.key_eq s]
  · rfl

end Db

end BackendModels

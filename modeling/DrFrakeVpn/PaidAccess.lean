import DrFrakeVpn.ClientEffects
import DrFrakeVpn.WebhookIntegrity

/-! # No access without a payment -/
namespace PaidAccess

open SharedPrograms RecordTables BackendModels BackendWorld
open HandlerEffects RequestEffects ClientEffects WebhookIntegrity

variable {cfg : Setup} {requests : List Request} {w : World} {c : Config World Stmt}

/-- Since `w₀` the payment was not activated, or it is an order that costs nothing, or the provider
holds it for paid. -/
def Backed (w₀ : World) (id : ℕ) (w : World) : Prop :=
  activationsOf id w = activationsOf id w₀ ∨ ∃ q ∈ w.db.payments.rows, q.id = id ∧
    (q.amount = 0 ∨ w.provider.status q.yooKassaID = some "succeeded")

variable {w₀ w' : World} {id : ℕ}

theorem Backed.later (h : Backed w₀ id w) (hk : Keeps w w')
    (hcount : activationsOf id w' = activationsOf id w) : Backed w₀ id w' := by
  rcases h with h | ⟨q, hq, hid, hpaid⟩
  · exact .inl (hcount.trans h)
  · obtain ⟨r, hr, hqr⟩ := hk.payments q hq
    refine .inr ⟨r, hr, hqr.id.trans hid, ?_⟩
    rw [hqr.amount, hqr.yooKassaID]
    exact hpaid.imp_right (hk.final _ _ final_succeeded)

theorem Backed.booking (h : Backed w₀ id w) (hk : Keeps w w') (hb : Booking w l w' n) :
    Backed w₀ id w' := by
  cases hb with
  | other _ _ _ ha | check _ _ _ _ ha | order _ _ _ _ ha | cancel _ _ _ _ _ ha =>
    exact h.later hk (by rw [activationsOf, ha, activationsOf])
  | free _ _ hrow hzero hp ha =>
    by_cases hid : w.db.payments.seq = id
    · have hnew := (w.db.payments.insert_some hp).1
      refine .inr ⟨_, by rw [hnew]; exact List.mem_append_right _ (List.mem_singleton_self _), ?_⟩
      exact ⟨(hrow.id _).trans hid, .inl (hzero _)⟩
    · exact h.later hk (by rw [activationsOf_append ha, if_neg hid, Nat.add_zero])
  | settle r _ _ hm _ hpaid _ ha =>
    by_cases hid : r.id = id
    · obtain ⟨q, hq, hrq⟩ := hk.payments r hm
      refine .inr ⟨q, hq, hrq.id.trans hid, .inr ?_⟩
      rw [hrq.yooKassaID]
      exact hk.final _ _ final_succeeded hpaid
    · exact h.later hk (by rw [activationsOf_append ha, if_neg hid, Nat.add_zero])

/-- Whatever orders, webhooks and reconciliations there are, a payment with a price that the
provider does not hold for paid has not been activated, be it old or ordered in the run. -/
theorem unpaid_never_activated (h : cfg.Reliable) (hclient : ∀ r ∈ requests, isClient r)
    (hc : Execution Passes Unguarded (pool cfg requests w) c) {p : Payment}
    (hp : p ∈ c.shared.db.payments.rows) (hprice : p.amount ≠ 0)
    (hunpaid : c.shared.provider.status p.yooKassaID ≠ some "succeeded") :
    activationsOf p.id c.shared = activationsOf p.id w := by
  have hend := pool_invariant (S := fun l => clientLabel l) (J := fun _ v => Backed w p.id v) h
    (fun r hr l hl => clientLabel_of_owns (hclient r hr) hl)
    (fun _ _ _ _ _ _ hl hJ _ _ he => hJ.booking he.keeps (client_booking hl he))
    (fun _ _ _ hJ hpasses => hJ.later (.of_passes hpasses)
      (by rw [activationsOf, hpasses.activations, activationsOf]))
    (.inl rfl) hc
  rcases hend with hsame | ⟨q, hq, hid, hfree | hpaid⟩
  · exact hsame
  · rw [c.shared.db.payments.id_injective hq hp hid] at hfree
    exact absurd hfree hprice
  · rw [c.shared.db.payments.id_injective hq hp hid] at hpaid
    exact absurd hpaid hunpaid

def unpaidWorld : World := .start onePayment 0 (.answering (fun _ => some "pending") [])

def forgedPool : Config World Stmt :=
  pool (.standard "") [.webhook forgedBody, .reconcile 7] unpaidWorld

theorem forged_webhook_activates_nothing :
    activationsOf 1 (forgedPool.runSchedule [0, 1, 0, 1]).shared = 0 :=
  unpaid_never_activated (p := pendingPayment) (Setup.standard_reliable "") (by decide)
    (runSchedule_execution _ _ (schedule_unguarded _ _)) (by decide +kernel) (by decide) (by decide)

end PaidAccess

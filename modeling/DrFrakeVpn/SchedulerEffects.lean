import DrFrakeVpn.HandlerEffects

/-! # The steps of the scheduler

None of them needs a fact about the state it starts in, so the programs compose freely. -/
namespace SchedulerEffects

open SharedPrograms
open BackendWorld HandlerEffects RenewalScheduler

variable {cfg : Setup} {l : Stmt}

inductive Duty where
  | renewal
  | expiry

/-- The labels of the scheduler; those that belong to charging are left to renewals. -/
def Duty.owns (d : Duty) : Stmt → Bool
  | .renewalPending | .renewalExpire | .renewalExpired | .revokeTokens _ | .selectKeys _
  | .removePeer _ _ | .revokeKeys _ | .selectCredentials _ | .removeClient _ _
  | .revokeCredentials _ => true
  | .clock | .renewalSelect | .renewalUser _ | .renewalCharge _ | .renewalExtend _
  | .renewalStore _ =>
    match d with
    | .renewal => true
    | .expiry => false
  | _ => false

variable {d : Duty}

theorem Duty.order_none (h : d.owns l) : order? l = none := by
  cases l with
  | createPayment => cases h
  | _ => rfl

structure Maintains {α : Type} (cfg : Setup) (d : Duty) (p : Handler α) : Prop where
  only : p.Only fun l => d.owns l = true
  obeys : ∀ w, p.Obeys Keeps (fun _ _ => True) (Effect cfg) w

/-- One of the effects, whatever comes next. -/
def Works (cfg : Setup) (d : Duty) (l : Stmt) (w w' : World) : Prop :=
  d.owns l = true ∧ ∀ n, OutsideOrders n → Effect cfg w l w' n

theorem maintains_of_does {α : Type} {p : Handler α} (h : p.Does (Works cfg d)) :
    Maintains cfg d p where
  only := h.only fun _ _ _ hw => hw.1
  obeys := h.obeys outsideOrders_none fun _ _ _ hw =>
    ⟨outsideOrders_some (Duty.order_none hw.1), hw.2⟩

theorem works_quiet (hl : d.owns l) (h : Quiet w w') : Works cfg d l w w' :=
  ⟨hl, fun _ hn => .quiet (Duty.order_none hl) hn h⟩

theorem owns_revoking (h : isRevoking l) : d.owns l := by
  cases l <;> first | rfl | cases h

theorem works_expires : Expires (Works cfg d) where
  remote _ hl := works_quiet (owns_revoking hl) ⟨rfl, rfl, rfl, rfl, rfl, rfl, rfl⟩
  access _ _ _ hl := works_quiet (owns_revoking hl) ⟨rfl, rfl, rfl, rfl, rfl, rfl, rfl⟩
  expire now users := ⟨rfl, fun _ hn => .expire now users hn⟩
  failed w := works_quiet rfl (.refl w)

theorem works_charges : Charges (Works cfg .renewal) where
  idle {l} hl w := by
    have howns : Duty.renewal.owns l := by cases l <;> first | rfl | cases hl
    exact works_quiet howns (.refl w)
  charge sub := by
    refine Prog.does_atom fun w => ⟨rfl, fun n hn => ?_⟩
    cases w.provider.answers with
    | nil => exact .chargeLost sub hn
    | cons a rest => exact .charge sub a rest hn
  extend u id expiry _ := ⟨rfl, fun _ hn => .extend u id expiry hn⟩
  store sub priced amount yk status confirmedAt w := by
    refine ⟨rfl, fun n hn => ?_⟩
    unfold createPaymentOf
    cases ht : w.db.payments.insert _ with
    | none => exact .quiet rfl hn (.refl w)
    | some t => exact .renewalStored hn ht (fun _ => rfl) (fun _ => rfl) (fun _ => rfl)

theorem maintains_expireLapsed (now : ℤ) : Maintains cfg d (expireLapsed cfg now) :=
  maintains_of_does (does_expireLapsed works_expires now)

theorem maintains_processAutoRenewals : Maintains cfg .renewal (processAutoRenewals cfg) :=
  maintains_of_does (does_processAutoRenewals works_charges works_expires)

theorem maintains_scheduler (runs : ℕ) :
    Maintains cfg .renewal (runAutoRenewalScheduler cfg runs) := by
  refine maintains_of_does ?_
  induction runs with
  | zero => exact .done _
  | succ runs ih => exact (does_processAutoRenewals works_charges works_expires).bind fun _ => ih

end SchedulerEffects

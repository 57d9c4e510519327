import DrFrakeVpn.OrderEffects
import DrFrakeVpn.SchedulerEffects

/-! # The pool of all requests -/
namespace RequestEffects

open SharedPrograms RecordTables GoValues Prog
open BackendModels BackendWorld PaymentHandlers PaymentCreation
open ConfirmationEffects RenewalScheduler HandlerEffects
open OrderEffects SchedulerEffects

variable {cfg : Setup}

inductive Request where
  | webhook (body : Option Json)
  | reconcile (userID : ℕ)
  | approve (paymentID : ℕ)
  | create (userID : ℕ) (uuid : String) (req : Option CreatePaymentRequest)
  | renewals (runs : ℕ)

def Request.program (cfg : Setup) : Request → Handler Unit
  | .webhook body => (PaymentHandlers.webhook cfg body).forget
  | .reconcile userID => (reconcilePendingUserPayments cfg userID).forget
  | .approve paymentID => (approvePayment cfg paymentID).forget
  | .create userID uuid req => (createPayment cfg userID uuid req).forget
  | .renewals runs => runAutoRenewalScheduler cfg runs

def pool (cfg : Setup) (requests : List Request) (w : World) : Config World Stmt :=
  ⟨requests.map (Request.program cfg), w⟩

theorem Request.program_obeys (h : cfg.Reliable) (r : Request) (w : World) :
    (r.program cfg).Obeys Keeps (fun _ _ => True) (Effect cfg) w := by
  cases r with
  | webhook body => exact (webhook_obeys h body w).obeys.forget
  | reconcile userID => exact (reconcilePendingUserPayments_obeys h userID w).obeys.forget
  | approve paymentID => exact (approvePayment_obeys h paymentID w).obeys.forget
  | create userID uuid req => exact (createPayment_obeys h userID uuid req w).obeys.forget
  | renewals runs => exact (maintains_scheduler runs).obeys w

def Request.owns : Request → Stmt → Bool
  | .webhook _, .fetchPayment _ | .webhook _, .webhookCancel _
  | .webhook _, .webhookConfirm _ => true
  | .reconcile _, .fetchPayment _ | .reconcile _, .reconcileSelect _
  | .reconcile _, .reconcileConfirm _ | .reconcile _, .reconcileCancel _ => true
  | .approve _, .clock | .approve _, .approveFind _ | .approve _, .approveConfirm _ => true
  | .create .., .createPayment .. => true
  | .renewals _, l => Duty.renewal.owns l
  | _, _ => false

theorem webhook_only (body : Option Json) :
    (webhook cfg body).Only fun l => (Request.webhook body).owns l := by
  unfold webhook
  split
  · exact .done _
  dsimp only
  split
  · refine (only_atom (by rfl)).bind ?_
    rintro (_ | d)
    · exact .done _
    dsimp only
    split
    · exact .done _
    · refine (only_atom (by rfl)).bind ?_
      rintro (_ | _) <;> exact .done _
  · split
    · exact .done _
    refine (only_atom (by rfl)).bind ?_
    rintro (_ | d)
    · exact .done _
    dsimp only
    split
    · exact .done _
    · refine (Prog.only_atom (by rfl)).bind ?_
      rintro (_ | _) <;> exact .done _

theorem reconcileEach_only (u : ℕ) (ps : List Payment) :
    (reconcileEach cfg ps).Only fun l => (Request.reconcile u).owns l := by
  induction ps with
  | nil => exact .done _
  | cons p ps ih =>
    unfold reconcileEach
    split
    · exact ih
    refine (only_atom (by rfl)).bind ?_
    rintro (_ | d)
    · exact ih
    dsimp only
    split
    · refine (only_atom (by rfl)).bind ?_
      rintro (_ | _)
      · exact .done _
      · exact ih
    · split
      · refine (Prog.only_atom (by rfl)).bind ?_
        rintro (_ | _)
        · exact .done _
        · exact ih
      · exact ih

theorem reconcile_only (u : ℕ) : (reconcilePendingUserPayments cfg u).Only fun l =>
    (Request.reconcile u).owns l := by
  unfold reconcilePendingUserPayments
  split
  · exact .done _
  · refine (Prog.only_atom (by rfl)).bind ?_
    rintro (_ | ps)
    · exact .done _
    · exact reconcileEach_only u ps

theorem approvePayment_only (id : ℕ) :
    (approvePayment cfg id).Only fun l => (Request.approve id).owns l := by
  refine (only_atom (by rfl)).bind ?_
  rintro (_ | p)
  · exact .done _
  dsimp only
  split
  · exact .done _
  · refine (only_atom (by rfl)).bind fun now => ?_
    refine (Prog.only_atom (by rfl)).bind ?_
    rintro (_ | _) <;> exact .done _

theorem Request.program_only (r : Request) :
    (r.program cfg).Only fun l => r.owns l := by
  cases r with
  | webhook body => exact (webhook_only body).forget
  | reconcile u => exact (reconcile_only u).forget
  | approve id => exact (approvePayment_only id).forget
  | create u uuid req =>
    refine (createPayment_only u uuid req).forget.mono ?_
    intro l hl
    cases l with
    | createPayment => rfl
    | _ => cases hl
  | renewals runs => exact (maintains_scheduler runs).only

variable (cfg) in
def discipline (S : Stmt → Prop) (allow : Guard World Stmt) : Discipline Passes allow where
  rely _ := Keeps
  perm _ _ := True
  G _ w l w' n := S l ∧ Effect cfg w l w' n
  rely_refl _ := Keeps.refl
  rely_trans _ := Keeps.trans
  perm_of_allow _ _ _ _ := trivial
  env_rely _ _ _ := Keeps.of_passes
  step_rely _ _ _ _ _ _ _ h := h.2.keeps

/-- An invariant of the next labels and the world that every effect of a label of the requests
keeps where the guard allows it, and that survives the passing of time, holds after every
interleaving. -/
theorem pool_invariant (h : cfg.Reliable) {S : Stmt → Prop}
    (hS : ∀ r ∈ requests, ∀ l, r.owns l → S l) {J : List (Option Stmt) → World → Prop}
    (hstep : ∀ ls i w l w' n, S l → J ls w → ls[i]? = some (some l) → allow l ls w →
      Effect cfg w l w' n → J (ls.set i n) w')
    (htime : ∀ ls w w', J ls w → Passes w w' → J ls w')
    (hJ : J (pool cfg requests w).labels w)
    (he : Execution Passes allow (pool cfg requests w) c) : J c.labels c.shared := by
  refine ((discipline cfg S allow).execution_invariant ?_ htime ?_ hJ he).2
  · intro ls i w l w' n hj hl ha hg
    exact hstep ls i w l w' n hg.1 hj hl ha hg.2
  · intro i p hp
    obtain ⟨r, hr, rfl⟩ := List.mem_map.mp (List.mem_of_getElem? hp)
    exact (r.program_obeys h w).only (r.program_only.mono (hS r hr))

def activationsOf (paymentID : ℕ) (w : World) : ℕ :=
  w.activations.countP fun a => a.paymentID = paymentID

/-- How the stored status `p` to `q` and the number of activations of a payment change. -/
inductive RowChange (w : World) (l : Stmt) (p q : Payment) (n n' : ℕ) : Prop where
  | kept (hs : q.status = p.status) (hn : n' = n)
  | confirmed (hp : p.status ≠ .succeeded) (hs : q.status = .succeeded) (hn : n' = n + 1)
  | approved (hl : l = .approveConfirm p.id) (hs : q.status = .succeeded) (hn : n' = n + 1)
  | cancelled (hl : l = .webhookCancel p.yooKassaID ∨ p.status = .pending)
      (hc : w.provider.status p.yooKassaID = some "canceled") (hs : q.status = .cancelled)
      (hn : n' = n)

variable {id : ℕ}

theorem activationsOf_append (h : w'.activations = w.activations ++ [a]) :
    activationsOf id w' = activationsOf id w + if a.paymentID = id then 1 else 0 := by
  simp [activationsOf, h, List.countP_append]

theorem byId_insert_old {t u : Table Payment} (ht : t.insert mk = some u)
    (hid : ∀ i, (mk i).id = i) (hp : t.byId id = some p) : u.byId id = some p ∧ id ≠ t.seq := by
  have hne : id ≠ t.seq := by
    rintro rfl
    rw [t.byId_seq] at hp
    cases hp
  refine ⟨?_, hne⟩
  rw [t.byId_insert ht (hid _), if_neg hne, hp]

theorem effect_row (h : Effect cfg w l w' n) (hp : w.db.payments.byId id = some p) :
    ∃ q, w'.db.payments.byId id = some q ∧ SameOrder p q ∧
      RowChange w l p q (activationsOf id w) (activationsOf id w') := by
  obtain ⟨hm, hid⟩ := w.db.payments.byId_some_iff.mp hp
  have hsame : ∀ w₁ : World, w₁.db.payments = w.db.payments → w₁.activations = w.activations →
      ∃ q, w₁.db.payments.byId id = some q ∧ SameOrder p q ∧
        RowChange w l p q (activationsOf id w) (activationsOf id w₁) := by
    intro w₁ ht ha
    refine ⟨p, by rw [ht, hp], .refl p, .kept rfl ?_⟩
    rw [activationsOf, activationsOf, ha]
  cases h with
  | quiet _ _ hq => exact hsame w' hq.payments hq.activations
  | check | ordered | charge | chargeLost | extend | expire => exact hsame _ rfl rfl
  | stored ht hnew | renewalStored _ ht hnew =>
    exact ⟨p, (byId_insert_old ht hnew hp).1, .refl p, .kept rfl rfl⟩
  | free ht hnew =>
    obtain ⟨hold, hne⟩ := byId_insert_old ht hnew hp
    refine ⟨p, by rwa [freelyConfirmed_payments], .refl p, .kept rfl ?_⟩
    rw [activationsOf_append (freelyConfirmed_activations _ _ w), hnew, if_neg hne.symm,
      Nat.add_zero]
  | confirm r method _ _ hr _ =>
    by_cases hrs : r.status = .succeeded
    · exact hsame _ (by rw [confirmed_payments, if_pos hrs])
        (by rw [confirmed_activations, if_pos hrs])
    · have ha := confirmed_activations cfg r method w
      rw [if_neg hrs] at ha
      rw [confirmed_payments, if_neg hrs, Table.byId_updateId, hp, activationsOf_append ha]
      by_cases hri : id = r.id
      · have hrp : r = p := w.db.payments.id_injective hr hm (hri.symm.trans hid.symm)
        subst hrp
        refine ⟨_, by rw [if_pos hri]; rfl, succeededAt_sameOrder w.now r, ?_⟩
        exact .confirmed hrs rfl (by rw [if_pos hri.symm])
      · refine ⟨p, by rw [if_neg hri], .refl p, .kept rfl ?_⟩
        rw [if_neg fun e => hri e.symm, Nat.add_zero]
  | approve r s now t _ hs hrs ht =>
    have hb := w.db.payments.byId_replace ht id
    rw [activationsOf_append (approved_activations r now t w), approved_payments]
    by_cases hri : id = r.id
    · have hsp : s = p := w.db.payments.id_injective hs hm (hrs.id.trans (hri.symm.trans hid.symm))
      subst hsp
      rw [if_pos (show id = Record.id (approvedRow r now) from hri), hp] at hb
      refine ⟨_, hb, hrs.symm.trans (approvedRow_sameOrder r now), ?_⟩
      exact .approved (by rw [hrs.id]) rfl (by rw [if_pos hri.symm])
    · rw [if_neg (show ¬ id = Record.id (approvedRow r now) from hri), hp] at hb
      refine ⟨p, hb, .refl p, .kept rfl ?_⟩
      rw [if_neg fun e => hri e.symm, Nat.add_zero]
  | cancelByEvent yk _ hs =>
    refine ⟨_, by simp only [cancelledWhere, updatePayments, Table.byId_update, hp]; rfl, ?_⟩
    by_cases hyk : p.yooKassaID = yk
    · subst hyk
      simp only [decide_true, if_true]
      exact ⟨setPaymentStatus_sameOrder _ p, .cancelled (.inl rfl) hs rfl rfl⟩
    · simp only [hyk, decide_false, Bool.false_eq_true, if_false]
      exact ⟨.refl p, .kept rfl rfl⟩
  | cancelPending r _ hr hs =>
    refine ⟨_, by simp only [cancelledWhere, updatePayments, Table.byId_update, hp]; rfl, ?_⟩
    by_cases hrp : p.id = r.id ∧ p.status = .pending
    · have he : p = r := w.db.payments.id_injective hm hr hrp.1
      subst he
      simp only [hrp.2, decide_true, Bool.and_self, if_true]
      exact ⟨setPaymentStatus_sameOrder _ p, .cancelled (.inr hrp.2) hs rfl rfl⟩
    · have hq : (decide (p.id = r.id) && decide (p.status = .pending)) = false := by simpa using hrp
      simp only [hq, Bool.false_eq_true, if_false]
      exact ⟨.refl p, .kept rfl rfl⟩

end RequestEffects

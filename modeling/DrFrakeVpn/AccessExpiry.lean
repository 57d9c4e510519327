import DrFrakeVpn.AccessRevocation

/-! # Who loses access when the scheduler runs

A run charges, marks lapsed subscriptions as expired and, only if it marked at least one, revokes
the access of all users whose subscription is expired. -/
namespace AccessExpiry

open SharedPrograms RecordTables GoValues List Prog
open BackendModels BackendWorld SubscriptionActivation RenewalScheduler
open AccessRevocation

/-- Identifier and status that the backend reads from the answer to a charge it goes on
with. -/
def acceptedCharge : HttpResult → Option (String × String)
  | .transportError => none
  | .response status body =>
    if status ≠ 200 ∧ status ≠ 201 then none
    else some (asString (lookup ((bindMap body).getD []) "id"),
      asString (lookup ((bindMap body).getD []) "status"))

def chargeable (db : Db) (s : Subscription) : Bool :=
  (planPrices s.plan).isSome && (db.users.byId s.userID).isSome

def answersTo : List Subscription → List HttpResult → List (Subscription × HttpResult)
  | [], _ => []
  | s :: rest, answers => (s, answers.headD .transportError) :: answersTo rest answers.tail

def chargesOf (cfg : Setup) (w : World) : List (Subscription × HttpResult) :=
  if autoRenewalChargesEnabled cfg then
    answersTo ((w.db.subscriptions.select (isDue w.now)).filter (chargeable w.db))
      w.provider.answers
  else []

/-- A charge keeps its subscription from lapsing: a paid one unless the period it pays for
is over as well, a pending one unless its payment is refused as already stored. -/
def spares (now : ℤ) (known : List String) (s : Subscription) : Option (String × String) → Bool
  | none => false
  | some (id, status) =>
    if status = "succeeded" then now < renewedExpiry now s.expiresAt (priceOf s.plan).durationDays
    else id ∉ known

def nowKnown (known : List String) : Option (String × String) → List String
  | none => known
  | some (id, _) => id :: known

def sparedUsers (now : ℤ) : List String → List (Subscription × HttpResult) → List ℕ
  | _, [] => []
  | known, (s, a) :: rest =>
    let others := sparedUsers now (nowKnown known (acceptedCharge a)) rest
    if spares now known s (acceptedCharge a) then s.userID :: others else others

def lapses (cfg : Setup) (w : World) (s : Subscription) : Bool :=
  isExpirable w.now (pendingUsers (w.now - 2 * GoTime.hour) w.db) s &&
    s.userID ∉ sparedUsers w.now (w.db.payments.rows.map Payment.yooKassaID) (chargesOf cfg w)

def Lapses (cfg : Setup) (w : World) : Prop := ∃ s ∈ w.db.subscriptions.rows, lapses cfg w s = true

instance (cfg : Setup) (w : World) : Decidable (Lapses cfg w) :=
  inferInstanceAs (Decidable (∃ s ∈ w.db.subscriptions.rows, _))

structure Charges (w w' : World) : Prop where
  frame : w' = { w with
    provider := w'.provider
    charges := w'.charges
    db := { w.db with subscriptions := w'.db.subscriptions, payments := w'.db.payments } }
  expired : ∀ s : Subscription, s.status = .expired →
    (s ∈ w'.db.subscriptions.rows ↔ s ∈ w.db.subscriptions.rows)

theorem Charges.refl (w : World) : Charges w w := ⟨rfl, fun _ _ => .rfl⟩

theorem Charges.trans (h : Charges a b) (h' : Charges b c) : Charges a c where
  frame := by
    rw [h'.frame, h.frame]
  expired s hs := (h'.expired s hs).trans (h.expired s hs)

/-- Some subscription of the user would be marked as expired now. -/
def Expirable (now : ℤ) (db : Db) (u : ℕ) : Prop :=
  ∃ s ∈ db.subscriptions.rows, s.userID = u ∧
    isExpirable now (pendingUsers (now - 2 * GoTime.hour) db) s = true

variable {db : Db}

theorem mem_pendingUsers : u ∈ pendingUsers cutoff db ↔
    ∃ p ∈ db.payments.rows, p.status = .pending ∧ cutoff ≤ p.createdAt ∧ p.userID = u := by
  simp [pendingUsers, Table.select, and_assoc]

variable {s : Subscription}

theorem isExpirable_iff :
    isExpirable now users s ↔
      s.status = .active ∧ s.expiresAt ≤ now ∧ s.plan ≠ .free ∧ s.userID ∉ users := by
  simp [isExpirable, and_assoc]

theorem expirable_iff (now : ℤ) (hs : s ∈ db.subscriptions.rows) :
    Expirable now db s.userID ↔
      isExpirable now (pendingUsers (now - 2 * GoTime.hour) db) s := by
  constructor
  · rintro ⟨r, hr, hu, he⟩
    rwa [db.subscriptions.key_injective hs hr hu.symm]
  · exact fun h => ⟨s, hs, rfl, h⟩

def storedPayment (mk : ℕ → Payment) (db : Db) : Db :=
  match db.payments.insert mk with
  | some t => { db with payments := t }
  | none => db

def knownIDs (db : Db) : List String := db.payments.rows.map Payment.yooKassaID

variable {mk : ℕ → Payment}

theorem mem_storedPayment (hid : (mk db.payments.seq).id = db.payments.seq) {p} :
    p ∈ (storedPayment mk db).payments.rows ↔ p ∈ db.payments.rows ∨
      (p = mk db.payments.seq ∧ (mk db.payments.seq).yooKassaID ∉ knownIDs db) := by
  unfold storedPayment
  by_cases hknown : (mk db.payments.seq).yooKassaID ∈ knownIDs db
  · obtain ⟨q, hq, hkey⟩ := mem_map.mp hknown
    rw [db.payments.insert_none hq hkey]
    simp [hknown]
  · have hfresh : ∀ q ∈ db.payments.rows, Record.key q ≠ Record.key (mk db.payments.seq) :=
      fun q hq h => hknown (mem_map.mpr ⟨q, hq, h⟩)
    obtain ⟨t, ht⟩ := db.payments.insert_isSome hid hfresh
    rw [ht]
    simp [(db.payments.insert_some ht).1, hknown]

@[simp] theorem storedPayment_subscriptions :
    (storedPayment mk db).subscriptions = db.subscriptions := by
  unfold storedPayment
  split <;> rfl

theorem createPaymentOf_world :
    (createPaymentOf mk w).2 = { w with db := storedPayment mk w.db } := by
  simp only [createPaymentOf, storedPayment]
  cases w.db.payments.insert mk <;> rfl

theorem mem_knownIDs_stored (hid : (mk db.payments.seq).id = db.payments.seq) (id : String) :
    id ∈ knownIDs (storedPayment mk db) ↔
      id ∈ knownIDs db ∨ id = (mk db.payments.seq).yooKassaID := by
  constructor
  · intro h
    obtain ⟨p, hp, rfl⟩ := mem_map.mp h
    rcases (mem_storedPayment hid).mp hp with hp | ⟨rfl, _⟩
    · exact .inl (mem_map_of_mem hp)
    · exact .inr rfl
  · intro h
    have hold : ∀ p ∈ db.payments.rows, p.yooKassaID ∈ knownIDs (storedPayment mk db) :=
      fun p hp => mem_map_of_mem ((mem_storedPayment hid).mpr (.inl hp))
    by_cases hknown : id ∈ knownIDs db
    · obtain ⟨p, hp, rfl⟩ := mem_map.mp hknown
      exact hold p hp
    · obtain rfl := h.resolve_left hknown
      exact mem_map_of_mem ((mem_storedPayment hid).mpr (.inr ⟨rfl, hknown⟩))

section charge

variable (now : ℤ) (sub : Subscription) (priced : sub.plan ≠ .free) (info : PriceInfo)
  (id status : String) (db : Db)

def chargedDb : Db :=
  if status = "succeeded" then
    storedPayment (renewalRow sub priced info.amount id .succeeded (some now) now)
      (updateSubscription sub.id (extendedTo
        (renewedExpiry now sub.expiresAt info.durationDays)) db)
  else storedPayment (renewalRow sub priced info.amount id .pending none now) db

theorem chargedDb_known (x : String) :
    x ∈ knownIDs (chargedDb now sub priced info id status db) ↔ x ∈ id :: knownIDs db := by
  unfold chargedDb
  split
  · rw [mem_knownIDs_stored rfl, mem_cons, or_comm]
    rfl
  · rw [mem_knownIDs_stored rfl, mem_cons, or_comm]
    rfl

theorem chargedDb_frame : chargedDb now sub priced info id status db = { db with
    subscriptions := (chargedDb now sub priced info id status db).subscriptions
    payments := (chargedDb now sub priced info id status db).payments } := by
  unfold chargedDb storedPayment
  split <;> split <;> rfl

theorem chargedDb_subscriptions : (chargedDb now sub priced info id status db).subscriptions =
    if status = "succeeded" then db.subscriptions.updateId sub.id
      (extendedTo (renewedExpiry now sub.expiresAt info.durationDays))
    else db.subscriptions := by
  unfold chargedDb
  split
  · exact storedPayment_subscriptions
  · exact storedPayment_subscriptions

def chargedRow : Subscription :=
  if status = "succeeded" then
    (extendedTo (renewedExpiry now sub.expiresAt info.durationDays)).apply sub
  else sub

variable {db sub} {s : Subscription}

theorem mem_chargedDb (hs : sub ∈ db.subscriptions.rows) :
    s ∈ (chargedDb now sub priced info id status db).subscriptions.rows ↔
      s = chargedRow now sub info status ∨ (s ∈ db.subscriptions.rows ∧ s.id ≠ sub.id) := by
  have hsub : ∀ r ∈ db.subscriptions.rows, r.id = sub.id → r = sub :=
    fun r hr h => db.subscriptions.id_injective hr hs h
  rw [chargedDb_subscriptions, chargedRow]
  split
  · simp only [Table.updateId, Table.mem_update, subscription_id, decide_eq_true_eq]
    constructor
    · rintro ⟨r, hr, rfl⟩
      by_cases hid : r.id = sub.id
      · rw [if_pos hid, hsub r hr hid]
        exact .inl rfl
      · rw [if_neg hid]
        exact .inr ⟨hr, hid⟩
    · rintro (rfl | ⟨hr, hid⟩)
      · exact ⟨sub, hs, if_pos rfl⟩
      · exact ⟨s, hr, if_neg hid⟩
  · constructor
    · intro hr
      by_cases hid : s.id = sub.id
      · exact .inl (hsub s hr hid)
      · exact .inr ⟨hr, hid⟩
    · rintro (rfl | ⟨hr, _⟩)
      · exact hs
      · exact hr

theorem mem_chargedDb_other (hs : sub ∈ db.subscriptions.rows) (hne : s ≠ sub)
    (hne' : s ≠ chargedRow now sub info status) :
    s ∈ (chargedDb now sub priced info id status db).subscriptions.rows ↔
      s ∈ db.subscriptions.rows := by
  rw [mem_chargedDb now priced info id status hs]
  constructor
  · exact fun h => (h.resolve_left hne').1
  · exact fun h => .inr ⟨h, fun hid => hne (db.subscriptions.id_injective h hs hid)⟩

theorem chargedRow_userID : (chargedRow now sub info status).userID = sub.userID := by
  unfold chargedRow
  split <;> rfl

theorem chargedRow_active (h : sub.status = .active) :
    (chargedRow now sub info status).status = .active := by
  unfold chargedRow
  split
  · rfl
  · exact h

variable (db sub) in
theorem pendingUsers_chargedDb (u : ℕ) :
    u ∈ pendingUsers (now - 2 * GoTime.hour) (chargedDb now sub priced info id status db) ↔
      u ∈ pendingUsers (now - 2 * GoTime.hour) db ∨
        (status ≠ "succeeded" ∧ id ∉ knownIDs db ∧ u = sub.userID) := by
  have hcut : now - 2 * GoTime.hour ≤ now := by
    have : (0 : ℤ) ≤ GoTime.hour := by decide
    omega
  simp only [mem_pendingUsers, chargedDb]
  by_cases hst : status = "succeeded"
  · -- the new row is not pending
    simp only [hst, if_true, mem_storedPayment (show (renewalRow _ _ _ _ _ _ _ _).id = _ from rfl)]
    constructor
    · rintro ⟨p, hp | ⟨rfl, _⟩, hpend, hrest⟩
      · exact .inl ⟨p, hp, hpend, hrest⟩
      · cases hpend
    · rintro (⟨p, hp, hrest⟩ | ⟨hne, _⟩)
      · exact ⟨p, .inl hp, hrest⟩
      · exact absurd rfl hne
  · simp only [hst, if_false, mem_storedPayment (show (renewalRow _ _ _ _ _ _ _ _).id = _ from rfl)]
    constructor
    · rintro ⟨p, hp | ⟨rfl, hid⟩, hpend, hcreated, hu⟩
      · exact .inl ⟨p, hp, hpend, hcreated, hu⟩
      · exact .inr ⟨hst, hid, hu.symm⟩
    · rintro (⟨p, hp, hrest⟩ | ⟨_, hid, rfl⟩)
      · exact ⟨p, .inl hp, hrest⟩
      · exact ⟨_, .inr ⟨rfl, hid⟩, rfl, hcut, rfl⟩

theorem expirable_chargedDb (hs : sub ∈ db.subscriptions.rows) (hdue : isDue now sub)
    (hinfo : planPrices sub.plan = some info) (u : ℕ) :
    Expirable now (chargedDb now sub priced info id status db) u ↔ Expirable now db u ∧
      ¬ (u = sub.userID ∧ spares now (knownIDs db) sub (some (id, status))) := by
  have hown := (mem_chargedDb now priced info id status hs).mpr (.inl rfl)
  have hpend := pendingUsers_chargedDb now sub priced info id status db
  by_cases hu : u = sub.userID
  · subst hu
    simp only [isDue, Bool.and_eq_true, decide_eq_true_eq] at hdue
    have hbefore : Expirable now db sub.userID ↔
        sub.userID ∉ pendingUsers (now - 2 * GoTime.hour) db := by
      rw [expirable_iff now hs, isExpirable_iff]
      exact ⟨fun h => h.2.2.2, fun h => ⟨hdue.1.2, hdue.2, priced, h⟩⟩
    rw [hbefore]
    have hafter := expirable_iff now hown
    rw [isExpirable_iff, chargedRow_userID, hpend] at hafter
    rw [hafter]
    by_cases hst : status = "succeeded"
    · simp [chargedRow, extendedTo, spares, hst, priceOf, hinfo, priced, and_comm]
    · simp [chargedRow, spares, hst, hdue, priced]
  · have hrows : ∀ s : Subscription, s.userID = u →
        (s ∈ (chargedDb now sub priced info id status db).subscriptions.rows ↔
          s ∈ db.subscriptions.rows) := by
      intro s hsu
      refine mem_chargedDb_other now priced info id status hs ?_ ?_
      · rintro rfl
        exact hu hsu.symm
      · rintro rfl
        exact hu (hsu.symm.trans (chargedRow_userID now info status))
    simp only [Expirable, hu, false_and, not_false_eq_true, and_true]
    refine exists_congr fun s => ?_
    constructor
    · rintro ⟨hs', hsu, he⟩
      refine ⟨(hrows s hsu).mp hs', hsu, ?_⟩
      rw [isExpirable_iff] at he ⊢
      refine ⟨he.1, he.2.1, he.2.2.1, fun h => he.2.2.2 ((hpend _).mpr (.inl h))⟩
    · rintro ⟨hs', hsu, he⟩
      refine ⟨(hrows s hsu).mpr hs', hsu, ?_⟩
      rw [isExpirable_iff] at he ⊢
      refine ⟨he.1, he.2.1, he.2.2.1, fun h => ?_⟩
      rcases (hpend _).mp h with h | ⟨_, _, h⟩
      · exact he.2.2.2 h
      · exact hu (hsu.symm.trans h)

end charge

variable {cfg : Setup}

theorem recordCharge_run (hdb : DatabaseWorks cfg) (sub : Subscription) (priced : sub.plan ≠ .free)
    (info : PriceInfo) (resp : List (String × Json)) (w : World) :
    ((recordCharge cfg sub priced info resp).run w).2 = { w with
      db := chargedDb w.now sub priced info (asString (lookup resp "id"))
        (asString (lookup resp "status")) w.db } := by
  simp only [recordCharge, readClock, bind_eq, atom_bind, run_act, chargedDb]
  split
  · simp only [run_bind, hdb.run (l := .renewalExtend sub.userID) rfl,
      hdb.run (l := .renewalStore sub.userID) rfl, writeOf, createPaymentOf_world]
    rfl
  · simp only [Prog.run_bind, hdb.run (l := .renewalStore sub.userID) rfl, createPaymentOf_world]
    rfl

theorem postPayment_run (l : Stmt) (sub : Subscription) (w : World) : ∃ p log,
    (postPayment l (logCharge sub)).run w =
      (w.provider.answers.headD .transportError, { w with provider := p, charges := log }) ∧
      p.answers = w.provider.answers.tail := by
  cases ha : w.provider.answers with
  | nil =>
    exact ⟨w.provider, (logCharge sub .transportError w).charges,
      by simp [postPayment, atom, ha, logCharge], ha⟩
  | cons a rest =>
    exact ⟨w.provider.register a rest, (logCharge sub a w).charges,
      by simp [postPayment, Prog.atom, ha, logCharge], rfl⟩

/-- What the backend reads in the answer to the charge of this subscription, if one is sent
and goes through. -/
def outcomeOf (w : World) (sub : Subscription) : Option (String × String) :=
  if chargeable w.db sub then acceptedCharge (w.provider.answers.headD .transportError) else none

structure ChargeStep (sub : Subscription) (w w' : World) : Prop where
  charges : Charges w w'
  expirable : ∀ u, Expirable w.now w'.db u ↔ Expirable w.now w.db u ∧
    ¬ (u = sub.userID ∧ spares w.now (knownIDs w.db) sub (outcomeOf w sub) = true)
  answers : w'.provider.answers =
    if chargeable w.db sub then w.provider.answers.tail else w.provider.answers
  known : ∀ id, id ∈ knownIDs w'.db ↔ id ∈ nowKnown (knownIDs w.db) (outcomeOf w sub)
  others : ∀ s ∈ w.db.subscriptions.rows, s.id ≠ sub.id → s ∈ w'.db.subscriptions.rows

variable {sub : Subscription} {w : World} {w' : World}

theorem chargeStep_unrecorded (hc : Charges w w') (hdb : w'.db = w.db) (ho : outcomeOf w sub = none)
    (ha : w'.provider.answers = if chargeable w.db sub then w.provider.answers.tail else
      w.provider.answers) :
    ChargeStep sub w w' where
  charges := hc
  expirable u := by simp [hdb, ho, spares]
  answers := ha
  known id := by simp [hdb, ho, nowKnown]
  others s hs _ := by rwa [hdb]

theorem chargeAutoRenewal_step (hdb : DatabaseWorks cfg) (hs : sub ∈ w.db.subscriptions.rows)
    (hdue : isDue w.now sub) : ChargeStep sub w ((chargeAutoRenewal cfg sub).run w).2 := by
  have hactive : sub.status = .active := by
    simp only [isDue, Bool.and_eq_true, decide_eq_true_eq] at hdue
    exact hdue.1.2
  unfold chargeAutoRenewal
  split
  · next hp =>
    have hno : chargeable w.db sub = false := by simp [chargeable, hp]
    exact chargeStep_unrecorded (.refl w) rfl (by simp [outcomeOf, hno]) (by simp [hno])
  · next info hp =>
    simp only [bind_eq, run_bind, hdb.run (l := .renewalUser sub.userID) rfl, firstOf]
    cases hu : w.db.users.byId sub.userID with
    | none =>
      have hno : chargeable w.db sub = false := by simp [chargeable, hu]
      exact chargeStep_unrecorded (.refl w) rfl (by simp [outcomeOf, hno]) (by simp [hno])
    | some user =>
      have hyes : chargeable w.db sub := by simp [chargeable, hp, hu]
      obtain ⟨p, log, hpost, hrest⟩ := postPayment_run (.renewalCharge sub.userID) sub w
      have hanswers : p.answers =
          if chargeable w.db sub then w.provider.answers.tail else w.provider.answers := by
        rw [if_pos hyes, hrest]
      have houtcome : outcomeOf w sub =
          acceptedCharge (w.provider.answers.headD .transportError) := if_pos hyes
      have hposted : Charges w { w with provider := p, charges := log } := ⟨rfl, fun _ _ => .rfl⟩
      simp only [run_bind, hpost]
      cases ha : w.provider.answers.headD .transportError with
      | transportError =>
        exact chargeStep_unrecorded hposted rfl (by rw [houtcome, ha]; rfl) hanswers
      | response code body =>
        rw [ha] at houtcome
        dsimp only
        split
        · next hcode =>
          exact chargeStep_unrecorded hposted rfl
            (houtcome.trans (if_pos hcode)) hanswers
        · next hcode =>
          have hacc := houtcome.trans (if_neg hcode)
          simp only [run_bind, recordCharge_run hdb, pure_eq, Prog.run_done]
          refine ⟨⟨?_, fun s hexp => ?_⟩, fun u => ?_, hanswers, fun id => ?_, fun s hs' hne => ?_⟩
          · rw [chargedDb_frame]
          · refine mem_chargedDb_other w.now _ info _ _ hs ?_ ?_
            · rintro rfl
              rw [hactive] at hexp
              cases hexp
            · rintro rfl
              rw [chargedRow_active _ _ _ hactive] at hexp
              cases hexp
          · rw [hacc]
            exact expirable_chargedDb w.now _ info _ _ hs hdue hp u
          · rw [hacc]
            exact chargedDb_known w.now sub _ info _ _ w.db id
          · exact (mem_chargedDb w.now _ info _ _ hs).mpr (.inr ⟨hs', hne⟩)

theorem sparedUsers_congr {known known'}
    (h : ∀ id, id ∈ known ↔ id ∈ known') :
    sparedUsers now known charges = sparedUsers now known' charges := by
  induction charges generalizing known known' with
  | nil => rfl
  | cons x charges ih =>
    obtain ⟨s, a⟩ := x
    have hspares : spares now known s (acceptedCharge a) =
        spares now known' s (acceptedCharge a) := by
      cases acceptedCharge a with
      | none => rfl
      | some o => simp [spares, h]
    have hknown : ∀ id, id ∈ nowKnown known (acceptedCharge a) ↔
        id ∈ nowKnown known' (acceptedCharge a) := by
      intro id
      cases acceptedCharge a with
      | none => exact h id
      | some o => simp [nowKnown, h]
    simp [sparedUsers, hspares, ih hknown]

theorem chargeable_of_charges (h : Charges w w') : chargeable w'.db = chargeable w.db := by
  rw [h.frame]
  rfl

theorem Charges.now (h : Charges w w') : w'.now = w.now := by rw [h.frame]

theorem chargeEach_run (hdb : DatabaseWorks cfg) {subs} (hnodup : (subs.map Subscription.id).Nodup)
    (hsubs : ∀ s ∈ subs, s ∈ w.db.subscriptions.rows ∧ isDue w.now s) :
    Charges w ((chargeEach cfg subs).run w).2 ∧
      ∀ u, Expirable w.now ((chargeEach cfg subs).run w).2.db u ↔ Expirable w.now w.db u ∧
        u ∉ sparedUsers w.now (knownIDs w.db)
          (answersTo (subs.filter (chargeable w.db)) w.provider.answers) := by
  induction subs generalizing w with
  | nil => exact ⟨.refl w, by simp [chargeEach, answersTo, sparedUsers]⟩
  | cons sub subs ih =>
    obtain ⟨hs, hdue⟩ := hsubs sub mem_cons_self
    have hstep := chargeAutoRenewal_step hdb hs hdue
    simp only [chargeEach, bind_eq, Prog.run_bind]
    generalize ((chargeAutoRenewal cfg sub).run w).2 = v at hstep
    obtain ⟨hfresh, hnodup'⟩ := nodup_cons.mp hnodup
    have hrest : ∀ s ∈ subs, s ∈ v.db.subscriptions.rows ∧ isDue v.now s := by
      intro s hs'
      obtain ⟨hrow, hd⟩ := hsubs s (mem_cons_of_mem sub hs')
      rw [hstep.charges.now]
      refine ⟨hstep.others s hrow fun hid => hfresh ?_, hd⟩
      exact mem_map.mpr ⟨s, hs', hid⟩
    obtain ⟨hcharges, hexp⟩ := ih hnodup' hrest
    refine ⟨hstep.charges.trans hcharges, fun u => ?_⟩
    rw [hstep.charges.now, chargeable_of_charges hstep.charges, hstep.answers,
      sparedUsers_congr hstep.known] at hexp
    rw [hexp u, hstep.expirable u]
    by_cases hc : chargeable w.db sub
    · rw [filter_cons_of_pos hc, answersTo]
      simp only [sparedUsers, hc, if_true, outcomeOf]
      split
      · next hspared => simp only [hspared, and_true, mem_cons, not_or, and_assoc]
      · next hspared =>
        simp only [hspared, Bool.false_eq_true, and_false, not_false_eq_true, and_true]
    · rw [filter_cons_of_neg hc]
      simp [outcomeOf, hc, spares, nowKnown]

theorem chargeDue_run (hdb : DatabaseWorks cfg) (w : World) :
    Charges w ((chargeDue cfg w.now).run w).2 ∧
      ∀ u, Expirable w.now ((chargeDue cfg w.now).run w).2.db u ↔
        ∃ s ∈ w.db.subscriptions.rows, s.userID = u ∧ lapses cfg w s := by
  have hlapses : ∀ u, (∃ s ∈ w.db.subscriptions.rows, s.userID = u ∧ lapses cfg w s) ↔
      Expirable w.now w.db u ∧ u ∉ sparedUsers w.now (knownIDs w.db) (chargesOf cfg w) := by
    intro u
    simp only [lapses, Expirable, knownIDs, Bool.and_eq_true, decide_eq_true_eq]
    constructor
    · rintro ⟨s, hs, rfl, he, hsp⟩
      exact ⟨⟨s, hs, rfl, he⟩, hsp⟩
    · rintro ⟨⟨s, hs, rfl, he⟩, hsp⟩
      exact ⟨s, hs, rfl, he, hsp⟩
  simp only [hlapses, chargeDue, chargesOf]
  split
  · simp only [bind_eq, Prog.run_bind, hdb.run (l := .renewalSelect) rfl, readOf]
    refine chargeEach_run hdb ?_ fun s hs => ?_
    · exact ((pairwise_map.mpr (w.db.subscriptions.valid.1.imp fun h => Nat.ne_of_lt h) :
        (w.db.subscriptions.rows.map Subscription.id).Nodup)).sublist (filter_sublist.map _)
    · exact mem_filter.mp hs
  · exact ⟨.refl w, fun u => by simp [sparedUsers]⟩

/-- The user has a subscription that is stored as expired and was to end by now. -/
def ExpiredUser (now : ℤ) (db : Db) (u : ℕ) : Prop :=
  ∃ s ∈ db.subscriptions.rows, s.userID = u ∧ s.status = .expired ∧ s.expiresAt ≤ now

def marked (now : ℤ) (w : World) : World :=
  { w with db := { w.db with
      subscriptions := w.db.subscriptions.update
        (isExpirable now (pendingUsers (now - 2 * GoTime.hour) w.db)) markedExpired } }

theorem expiredUser_marked :
    ExpiredUser now (marked now w).db u ↔ ExpiredUser now w.db u ∨ Expirable now w.db u := by
  simp only [ExpiredUser, Expirable, marked, Table.mem_update]
  constructor
  · rintro ⟨s, ⟨r, hr, rfl⟩, hu, hst, hle⟩
    split at hu
    · next he => exact .inr ⟨r, hr, hu, he⟩
    · next he =>
      rw [if_neg he] at hst hle
      exact .inl ⟨r, hr, hu, hst, hle⟩
  · rintro (⟨s, hs, hu, hst, hle⟩ | ⟨s, hs, hu, he⟩)
    · have hno : ¬ isExpirable now (pendingUsers (now - 2 * GoTime.hour) w.db) s := by
        intro he
        rw [(isExpirable_iff.mp he).1] at hst
        cases hst
      exact ⟨s, ⟨s, hs, if_neg hno⟩, hu, hst, hle⟩
    · exact ⟨markedExpired.apply s, ⟨s, hs, if_pos he⟩, hu, rfl, (isExpirable_iff.mp he).2.1⟩

abbrev Local {α : Type} (p : Handler α) : Prop := p.Only fun l => isRemote l = false

structure Revoking (cfg : Setup) (now : ℤ) (p : Handler Unit) (w v : World)
    (subs : List Subscription) : Prop where
  run : p.run w = (revokeEach cfg now subs).run v
  trace : ∃ tr, p.trace w = tr ++ (revokeEach cfg now subs).trace v ∧
    ∀ x ∈ tr, isRemote x.1 = false

theorem expireLapsed_run (hdb : DatabaseWorks cfg) (now : ℤ) (w : World) :
    ((∃ u, Expirable now w.db u) → Revoking cfg now (expireLapsed cfg now) w (marked now w)
      ((marked now w).db.subscriptions.select fun s => s.status = .expired && s.expiresAt ≤ now)) ∧
    ((¬ ∃ u, Expirable now w.db u) →
      Revoking cfg now (expireLapsed cfg now) w (marked now w) []) := by
  have hcount : w.db.subscriptions.count
      (isExpirable now (pendingUsers (now - 2 * GoTime.hour) w.db)) = 0 ↔
        ¬ ∃ u, Expirable now w.db u := by
    rw [Table.count, countP_eq_zero]
    constructor
    · rintro h ⟨u, s, hs, _, he⟩
      exact h s hs he
    · exact fun h s hs he => h ⟨s.userID, s, hs, rfl, he⟩
  have hpending := hdb.run (l := .renewalPending) rfl
    (readOf (pendingUsers (now - 2 * GoTime.hour))) w
  have hexpire : (exec1 cfg .renewalExpire (expireSubscriptions now
      (pendingUsers (now - 2 * GoTime.hour) w.db))).run w =
        (.ok (w.db.subscriptions.count (isExpirable now
          (pendingUsers (now - 2 * GoTime.hour) w.db))), marked now w) := hdb.run rfl _ w
  constructor
  · intro h
    obtain ⟨n, hn⟩ := Nat.exists_eq_succ_of_ne_zero fun h0 => hcount.mp h0 h
    have hselect := hdb.run (l := .renewalExpired) rfl (readOf fun db => db.subscriptions.select
      fun s => s.status = .expired && s.expiresAt ≤ now) (marked now w)
    rw [hn] at hexpire
    constructor
    · simp only [expireLapsed, bind_eq, run_bind, hpending, readOf, hexpire]
      rw [hselect]
      rfl
    · refine ⟨[(.renewalPending, w), (.renewalExpire, w), (.renewalExpired, marked now w)], ?_, ?_⟩
      · simp only [expireLapsed, bind_eq, trace_bind, hpending, readOf, hexpire]
        rw [hselect]
        rfl
      · simp [isRemote]
  · intro h
    rw [hcount.mpr h] at hexpire
    constructor
    · simp only [expireLapsed, bind_eq, run_bind, hpending, readOf, hexpire]
      rfl
    · refine ⟨[(.renewalPending, w), (.renewalExpire, w)], ?_, ?_⟩
      · simp only [expireLapsed, bind_eq, Prog.trace_bind, hpending, readOf, hexpire]
        rfl
      · simp [isRemote]

theorem local_chargeDue (now : ℤ) : Local (chargeDue cfg now) := by
  have hcharges : RenewalScheduler.Charges fun l _ _ => isRemote l = false :=
    { idle := fun {l} hl _ => by cases l <;> first | rfl | cases hl
      charge := fun _ => Prog.does_atom fun _ => rfl
      extend := fun _ _ _ _ => rfl
      store := fun _ _ _ _ _ _ _ => rfl }
  exact (does_chargeDue hcharges now).only fun _ _ _ hl => hl

structure ExpiryRun (cfg : Setup) (w v : World) (subs : List Subscription) : Prop where
  revoking : Revoking cfg w.now (processAutoRenewals cfg) w v subs
  frame : v = { w with
    provider := v.provider
    charges := v.charges
    db := { w.db with subscriptions := v.db.subscriptions, payments := v.db.payments } }
  expired : ∀ u, ExpiredUser w.now v.db u ↔ ExpiredUser w.now w.db u ∨
    ∃ s ∈ w.db.subscriptions.rows, s.userID = u ∧ lapses cfg w s = true
  users : ∀ u, (∃ s ∈ subs, s.userID = u) ↔ Lapses cfg w ∧ ExpiredUser w.now v.db u

theorem expiredUser_congr (h : Charges w w') :
    ExpiredUser now w'.db u ↔ ExpiredUser now w.db u := by
  refine exists_congr fun s => ⟨?_, ?_⟩
  · rintro ⟨hs, hu, hst, hle⟩
    exact ⟨(h.expired s hst).mp hs, hu, hst, hle⟩
  · rintro ⟨hs, hu, hst, hle⟩
    exact ⟨(h.expired s hst).mpr hs, hu, hst, hle⟩

theorem processAutoRenewals_run (hdb : DatabaseWorks cfg) (w : World) :
    ∃ v subs, ExpiryRun cfg w v subs := by
  obtain ⟨hcharges, hexp⟩ := chargeDue_run hdb w
  have hlocal : ∀ x ∈ (chargeDue cfg w.now).trace w, isRemote x.1 = false :=
    fun x hx => (local_chargeDue w.now).trace hx
  have hrun : (processAutoRenewals cfg).run w =
      (expireLapsed cfg w.now).run ((chargeDue cfg w.now).run w).2 := by
    simp [processAutoRenewals, readClock,
      run_bind]
  have htrace : (processAutoRenewals cfg).trace w = (.clock, w) :: ((chargeDue cfg w.now).trace w ++
      (expireLapsed cfg w.now).trace ((chargeDue cfg w.now).run w).2) := by
    simp [processAutoRenewals, readClock, trace,
      Prog.trace_bind]
  generalize ((chargeDue cfg w.now).run w).2 = w₁ at hcharges hexp hrun htrace
  have hlapse : Lapses cfg w ↔ ∃ u, Expirable w.now w₁.db u := by
    simp only [hexp, Lapses]
    constructor
    · rintro ⟨s, hs, hl⟩
      exact ⟨s.userID, s, hs, rfl, hl⟩
    · rintro ⟨_, s, hs, -, hl⟩
      exact ⟨s, hs, hl⟩
  have hexpired : ∀ u, ExpiredUser w.now (marked w.now w₁).db u ↔ ExpiredUser w.now w.db u ∨
      ∃ s ∈ w.db.subscriptions.rows, s.userID = u ∧ lapses cfg w s := by
    intro u
    rw [expiredUser_marked, expiredUser_congr hcharges, hexp]
  have hframe : marked w.now w₁ = { w with
      provider := (marked w.now w₁).provider
      charges := (marked w.now w₁).charges
      db := { w.db with
        subscriptions := (marked w.now w₁).db.subscriptions
        payments := (marked w.now w₁).db.payments } } := by
    rw [hcharges.frame]
    rfl
  have hwhole : ∀ {subs}, Revoking cfg w.now (expireLapsed cfg w.now) w₁ (marked w.now w₁) subs →
      Revoking cfg w.now (processAutoRenewals cfg) w (marked w.now w₁) subs := by
    rintro subs ⟨hr, tr, ht, hloc⟩
    refine ⟨hrun.trans hr, (.clock, w) :: ((chargeDue cfg w.now).trace w ++ tr), ?_, ?_⟩
    · rw [htrace, ht, cons_append, append_assoc]
    · intro x hx
      rcases mem_cons.mp hx with rfl | hx
      · rfl
      · rcases mem_append.mp hx with hx | hx
        · exact hlocal x hx
        · exact hloc x hx
  obtain ⟨hsome, hnone⟩ := expireLapsed_run hdb w.now w₁
  by_cases h : Lapses cfg w
  · refine ⟨_, _, hwhole (hsome (hlapse.mp h)), hframe, hexpired, fun u => ?_⟩
    simp only [h, true_and, Table.select, mem_filter, Bool.and_eq_true, decide_eq_true_eq]
    refine exists_congr fun s => ?_
    rw [and_assoc, and_comm (a := _ ∧ _)]
  · refine ⟨_, _, hwhole (hnone (mt hlapse.mpr h)), hframe, hexpired, fun u => ?_⟩
    simp [h]

/-- Nothing of the user is open, apart from keys and credentials whose removal failed in
this run. -/
structure AccessTaken (cfg : Setup) (tr : List (Stmt × World)) (db : Db) (u : ℕ) : Prop where
  tokens : ∀ t ∈ db.happTokens.rows, t.userID = u → t.revokedAt ≠ none
  keys : ∀ k ∈ db.vpnKeys.rows, k.userID = u → k.revokedAt = none → PeerRemovalFailed cfg tr k
  credentials : ∀ c ∈ db.vlessCredentials.rows, c.userID = u → c.revokedAt = none →
    ClientRemovalFailed cfg tr c

/-- After a run from this state every expired user has lost access. -/
def ExpiredLoseAccess (cfg : Setup) (w : World) : Prop :=
  ∀ u, ExpiredUser w.now ((processAutoRenewals cfg).run w).2.db u →
    AccessTaken cfg ((processAutoRenewals cfg).trace w) ((processAutoRenewals cfg).run w).2.db u

def NothingOpen (db : Db) (u : ℕ) : Prop :=
  (∀ t ∈ db.happTokens.rows, t.userID = u → t.revokedAt ≠ none) ∧
    (∀ k ∈ db.vpnKeys.rows, k.userID = u → k.revokedAt ≠ none) ∧
    ∀ c ∈ db.vlessCredentials.rows, c.userID = u → c.revokedAt ≠ none

theorem accessTaken_of_withdraws {U now v tr tr'} (h : Withdraws cfg U U U now v w' tr)
    (hsub : tr ⊆ tr') {u} (hu : U u) : AccessTaken cfg tr' w'.db u where
  tokens t ht htu hopen := by
    subst htu
    exact (h.tokens.of_open ht hopen).2 hu
  keys k hk hku hopen := by
    subst hku
    exact ((h.keys.of_open hk hopen).2 hu).mono cfg hsub
  credentials c hc hcu hopen := by
    subst hcu
    exact ((h.credentials.of_open hc hopen).2 hu).mono cfg hsub

theorem accessTaken_iff_nothingOpen (hlocal : ∀ x ∈ tr, isRemote x.1 = false) :
    AccessTaken cfg tr db u ↔ NothingOpen db u := by
  have hkeys : ∀ k, ¬ PeerRemovalFailed cfg tr k := by
    rintro k ⟨v, hv, _⟩
    exact absurd (hlocal _ hv) (by simp [isRemote])
  have hcreds : ∀ c, ¬ ClientRemovalFailed cfg tr c := by
    rintro c ⟨v, hv, _⟩
    exact absurd (hlocal _ hv) (by simp [isRemote])
  constructor
  · intro h
    exact ⟨h.tokens, fun k hk hu hopen => hkeys k (h.keys k hk hu hopen),
      fun c hc hu hopen => hcreds c (h.credentials c hc hu hopen)⟩
  · rintro ⟨ht, hk, hc⟩
    exact ⟨ht, fun k hk' hu hopen => absurd hopen (hk k hk' hu),
      fun c hc' hu hopen => absurd hopen (hc c hc' hu)⟩

/-- The revocation is reached only through a subscription that lapses in this run. -/
theorem expired_lose_access_iff (hdb : DatabaseWorks cfg) (w : World) : ExpiredLoseAccess cfg w ↔
    Lapses cfg w ∨ ∀ u, ExpiredUser w.now w.db u → NothingOpen w.db u := by
  obtain ⟨v, subs, hrun⟩ := processAutoRenewals_run hdb w
  obtain ⟨tr, htr, hlocal⟩ := hrun.revoking.trace
  have hw := revokeEach_withdraws hdb w.now subs v
  unfold ExpiredLoseAccess
  rw [hrun.revoking.run, htr]
  have hsubs : ∀ u, ExpiredUser w.now ((revokeEach cfg w.now subs).run v).2.db u ↔
      ExpiredUser w.now v.db u := by
    intro u
    rw [hw.frame]
    rfl
  simp only [hsubs]
  by_cases h : Lapses cfg w
  · refine iff_of_true (fun u hu => ?_) (.inl h)
    exact accessTaken_of_withdraws hw (subset_append_right _ _)
      ((hrun.users u).mpr ⟨h, hu⟩)
  · -- nobody is revoked, and nobody else is expired than before
    have hnil : subs = [] := by
      refine eq_nil_iff_forall_not_mem.mpr fun s hs => ?_
      exact h ((hrun.users s.userID).mp ⟨s, hs, rfl⟩).1
    subst hnil
    have hexp : ∀ u, ExpiredUser w.now v.db u ↔ ExpiredUser w.now w.db u := by
      intro u
      rw [hrun.expired u, or_iff_left]
      rintro ⟨s, hs, _, hl⟩
      exact h ⟨s, hs, hl⟩
    have hopen : ∀ u, NothingOpen ((revokeEach cfg w.now []).run v).2.db u ↔
        NothingOpen w.db u := by
      intro u
      change NothingOpen v.db u ↔ _
      rw [hrun.frame]
      rfl
    have hnothing : (revokeEach cfg w.now []).trace v = [] := rfl
    simp [hnothing, accessTaken_iff_nothingOpen hlocal, hexp, hopen, h]

theorem kept_of_outcomes {α : Type} [Access α] {U now failed gone} {t t' : Table α}
    (h : Outcomes U now failed gone t t') {a : α} (ha : a ∈ t.rows) (hu : ¬ U (Access.userID a)) :
    a ∈ t'.rows := by
  obtain ⟨b, hb, hab⟩ := h.target ha
  cases hab with
  | kept => exact hb
  | revoked _ hmeant => exact absurd hmeant hu

/-- Who is not expired after a run keeps every key, credential and token as it was. -/
theorem unexpired_keep_access (hdb : DatabaseWorks cfg) {w w' : World}
    (h : ((processAutoRenewals cfg).run w).2 = w') {u : ℕ} (hu : ¬ ExpiredUser w.now w'.db u) :
    (∀ k ∈ w.db.vpnKeys.rows, k.userID = u → k ∈ w'.db.vpnKeys.rows) ∧
    (∀ c ∈ w.db.vlessCredentials.rows, c.userID = u → c ∈ w'.db.vlessCredentials.rows) ∧
    ∀ t ∈ w.db.happTokens.rows, t.userID = u → t ∈ w'.db.happTokens.rows := by
  obtain ⟨v, subs, hrun⟩ := processAutoRenewals_run hdb w
  have hw := revokeEach_withdraws hdb w.now subs v
  rw [← hrun.revoking.run, h] at hw
  have hspared : ¬ ∃ s ∈ subs, s.userID = u := by
    intro hmeant
    have hexpired := ((hrun.users u).mp hmeant).2
    rw [hw.frame] at hu
    exact hu hexpired
  have hsame : v.db.vpnKeys = w.db.vpnKeys ∧ v.db.vlessCredentials = w.db.vlessCredentials ∧
      v.db.happTokens = w.db.happTokens := by
    rw [hrun.frame]
    exact ⟨rfl, rfl, rfl⟩
  refine ⟨fun k hk hku => ?_, fun c hc hcu => ?_, fun t ht htu => ?_⟩
  · exact kept_of_outcomes hw.keys (hsame.1 ▸ hk) (by rwa [← hku] at hspared)
  · exact kept_of_outcomes hw.credentials (hsame.2.1 ▸ hc) (by rwa [← hcu] at hspared)
  · exact kept_of_outcomes hw.tokens (hsame.2.2 ▸ ht) (by rwa [← htu] at hspared)

/-- Two basic subscriptions, each with a key; the first one has just run out. -/
def twoKeysWorld : World :=
  { World.start { Db.empty with
      subscriptions := ⟨[⟨1, 7, .basic, .active, 100, false, ""⟩,
        ⟨2, 8, .basic, .active, 300, false, ""⟩], 3, by decide⟩
      servers := ⟨[⟨1, "de", "host", "DE", "DE", true, false, 51820, "host:443", "pw"⟩], 2,
        by decide⟩
      vpnKeys := ⟨[⟨1, 7, 1, "key-7", "psk", "conf", 0, none⟩,
        ⟨2, 8, 1, "key-8", "psk", "conf", 0, none⟩], 3, by decide⟩ } 100
      (.answering (fun _ => none) []) with
    remote := { Remote.empty with awgPeers := [(1, "key-7"), (1, "key-8")] } }

def serverDown : Setup := { Setup.standard "" with faults := fun l => l = .removePeer 1 .wg }

def afterServerDown (now : ℤ) : World :=
  { ((processAutoRenewals serverDown).run twoKeysWorld).2 with now := now }

/-- Nothing fails in the next run, but no subscription lapses in it, and so the key of the
first user stays. -/
theorem failed_removal_is_not_retried :
    DatabaseWorks serverDown ∧ (Setup.standard "").Reliable ∧
      ¬ ExpiredLoseAccess (.standard "") (afterServerDown 200) := by
  refine ⟨fun l hl => ?_, Setup.standard_reliable "", fun h => ?_⟩
  · rw [of_decide_eq_true hl]
    rfl
  · have hkey := (h 7 ⟨⟨1, 7, .basic, .expired, 100, false, ""⟩, by decide +kernel, rfl, rfl,
      by decide⟩).keys ⟨1, 7, 1, "key-7", "psk", "conf", 0, none⟩ (by decide +kernel) rfl rfl
    obtain ⟨v, hv, _⟩ := hkey
    have hlabels : ((processAutoRenewals (.standard "")).trace (afterServerDown 200)).map Prod.fst =
        [.clock, .renewalPending, .renewalExpire] := by decide +kernel
    have hmem := mem_map_of_mem (f := Prod.fst) hv
    rw [hlabels] at hmem
    simp at hmem

theorem running_subscription_keeps_key : ⟨2, 8, 1, "key-8", "psk", "conf", 0, none⟩ ∈
    ((processAutoRenewals (.standard "")).run twoKeysWorld).2.db.vpnKeys.rows :=
  (unexpired_keep_access (fun _ hl => absurd hl (by simp [Setup.standard])) rfl (u := 8)
    (by unfold ExpiredUser; decide +kernel)).1 _ (by decide) rfl

/-- Once the second subscription lapses as well, the first key is gone with the second. -/
theorem next_lapse_takes_both_keys :
    DatabaseWorks (Setup.standard "") ∧ Lapses (.standard "") (afterServerDown 300) ∧
      ExpiredLoseAccess (.standard "") (afterServerDown 300) := by
  have hdb : DatabaseWorks (Setup.standard "") := fun _ hl => absurd hl (by simp [Setup.standard])
  have hlapses : Lapses (.standard "") (afterServerDown 300) := by decide +kernel
  exact ⟨hdb, hlapses, (expired_lose_access_iff hdb _).mpr (.inl hlapses)⟩

end AccessExpiry

import DrFrakeVpn.PromoPlans

/-! # What is stored of a promo code

A code is created by gorm's `Create`, which puts the default of a column in the place of a zero
value, and is changed by `Updates` with a map, which writes every value of it. -/
namespace PromoSettings

open RecordTables BackendModels BackendWorld PaymentCreation PromoPlans

def orDefault {α : Type} [DecidableEq α] (zero value default : α) : α :=
  if value = zero then default else value

/-- The columns whose default is the zero value keep it. -/
def createdRow (promo : PromoCode) (id : ℕ) : PromoCode :=
  { promo with
    id := id
    active := orDefault false promo.active true
    applicablePlans := orDefault "" promo.applicablePlans "all"
    oncePerUser := orDefault false promo.oncePerUser true }

def createPromoCode (codes : Table PromoCode) (req : PromoCodeRequest) :
    Except (ℕ × String) (Table PromoCode) :=
  match buildPromoCodeFromRequest req none with
  | .error message => .error (400, message)
  | .ok promo =>
    match codes.insert (createdRow promo) with
    | none => .error (409, "Промокод с таким кодом уже существует")
    | some codes => .ok codes

/-- The number of uses is not written; `promo` has the one of the row. -/
def updatePromoCode (id : ℕ) (codes : Table PromoCode) (req : PromoCodeRequest) :
    Except (ℕ × String) (Table PromoCode) :=
  match codes.byId id with
  | none => .error (404, "Промокод не найден")
  | some existing =>
    match buildPromoCodeFromRequest req (some existing) with
    | .error message => .error (400, message)
    | .ok promo =>
      match codes.replace promo with
      | none => .error (409, "Не удалось сохранить промокод")
      | some codes => .ok codes

/-- The codes after some changes; a failed one changes nothing. -/
def updated (id : ℕ) : Table PromoCode → List PromoCodeRequest → Table PromoCode :=
  List.foldl fun codes req => (updatePromoCode id codes req).toOption.getD codes

def settings (p : PromoCode) : Bool × Bool × ℤ × ℤ × String × Option ℤ :=
  (p.active, p.oncePerUser, p.maxUses, p.discountPercent, p.applicablePlans, p.expiresAt)

/-- The code with this id has the settings that were computed. -/
def Holds (codes : Table PromoCode) (id : ℕ) (computed : Except String PromoCode) : Prop :=
  ∃ row promo, codes.byId id = some row ∧ computed = .ok promo ∧ settings row = settings promo

/-- Each request that succeeds, the first one and the changes after it, stores what was computed
for it. -/
def StoredAsRequested (codes created : Table PromoCode) (req : PromoCodeRequest) : Prop :=
  Holds created codes.seq (buildPromoCodeFromRequest req none) ∧
    ∀ changes req after, updatePromoCode codes.seq (updated codes.seq created changes)
      req = .ok after →
      Holds after codes.seq (buildPromoCodeFromRequest req
        ((updated codes.seq created changes).byId codes.seq))

variable {codes after : Table PromoCode} {req : PromoCodeRequest}

theorem holds_update {id : ℕ} (h : updatePromoCode id codes req = .ok after) :
    Holds after id (buildPromoCodeFromRequest req (codes.byId id)) := by
  unfold updatePromoCode at h
  cases hrow : codes.byId id with
  | none => simp [hrow] at h
  | some existing =>
    cases hbuilt : buildPromoCodeFromRequest req (some existing) with
    | error message => simp [hrow, hbuilt] at h
    | ok promo =>
      cases hreplace : codes.replace promo with
      | none => simp [hrow, hbuilt, hreplace] at h
      | some stored =>
        obtain rfl : stored = after := by simpa [hrow, hbuilt, hreplace] using h
        have hid : promo.id = id :=
          (buildPromoCodeFromRequest_ok hbuilt).2.2.2.trans (codes.byId_some_iff.mp hrow).2
        refine ⟨promo, promo, ?_, rfl, rfl⟩
        rw [codes.byId_replace hreplace, if_pos (show id = Record.id promo from hid.symm), hrow]
        rfl

theorem plans_ne_blank (value : String) : normalizeApplicablePlans value ≠ "" := by
  have hall : ∀ plans ∈ pricedNames.sublists, planText plans ≠ "" := by decide +kernel
  rw [normalizeApplicablePlans_eq]
  exact hall _ (plansOf_sublist value)

theorem settings_createdRow {promo : PromoCode} (h : promo.applicablePlans ≠ "") (id : ℕ) :
    settings (createdRow promo id) = settings promo ↔ promo.active ∧ promo.oncePerUser := by
  simp only [settings, createdRow, orDefault, if_neg h]
  cases promo.active <;> cases promo.oncePerUser <;> simp

theorem settings_stored_iff (h : createPromoCode codes req = .ok after) :
    StoredAsRequested codes after req ↔ req.active ≠ some false ∧ req.oncePerUser ≠ some false := by
  unfold createPromoCode at h
  cases hbuilt : buildPromoCodeFromRequest req none with
  | error message => simp [hbuilt] at h
  | ok promo =>
    cases hinsert : codes.insert (createdRow promo) with
    | none => simp [hbuilt, hinsert] at h
    | some stored =>
      obtain rfl : stored = after := by simpa [hbuilt, hinsert] using h
      obtain ⟨hplans, hactive, honce, -⟩ := buildPromoCodeFromRequest_ok hbuilt
      have hrow : stored.byId codes.seq = some (createdRow promo codes.seq) := by
        rw [codes.byId_insert hinsert rfl, if_pos rfl]
      have hcreated := settings_createdRow (hplans ▸ plans_ne_blank _) codes.seq
      have hfields : promo.active ∧ promo.oncePerUser ↔
          req.active ≠ some false ∧ req.oncePerUser ≠ some false := by
        rw [hactive, honce]
        cases req.active <;> cases req.oncePerUser <;> simp
      rw [← hfields, ← hcreated]
      constructor
      · rintro ⟨⟨row, computed, hstored, hok, heq⟩, -⟩
        rw [hrow] at hstored
        rw [hbuilt] at hok
        cases hstored
        cases hok
        exact heq
      · intro heq
        exact ⟨⟨_, _, hrow, hbuilt, heq⟩, fun changes req after hupdate => holds_update hupdate⟩

def saleRequest (active : Option Bool) : PromoCodeRequest :=
  ⟨"SALE", 10, 0, active, "all", none, none⟩

def saleRow : PromoCode := ⟨1, "SALE", 10, 0, 0, true, "all", true, none⟩

def saleCodes : Table PromoCode := ⟨[saleRow], 2, by decide⟩

theorem active_code_stored : StoredAsRequested .empty saleCodes (saleRequest none) :=
  (settings_stored_iff (by decide +kernel)).mpr ⟨by decide, by decide⟩

/-- A code that was created inactive gives its discount. -/
theorem inactive_code_accepted :
    createPromoCode .empty (saleRequest (some false)) = .ok saleCodes ∧
      ¬ StoredAsRequested .empty saleCodes (saleRequest (some false)) ∧
      ((validatePromoCode (.standard "") 7 .basic "SALE" 100).run
        (.start { Db.empty with promoCodes := saleCodes } 0
          (.answering (fun _ => none) []))).1.isOk := by
  refine ⟨by decide +kernel, ?_, by decide +kernel⟩
  rintro ⟨⟨row, promo, hrow, hbuilt, heq⟩, -⟩
  obtain ⟨-, hactive, -⟩ := buildPromoCodeFromRequest_ok hbuilt
  cases (show saleCodes.byId 1 = some saleRow by decide).symm.trans hrow
  exact absurd ((congrArg Prod.fst heq).trans hactive) (by decide)

end PromoSettings

import DrFrakeVpn.ProfileIsolation

/-! # Edits of routing profiles on the web page

What a request leaves out is bound to the zero value of its type, and `UpdateRoutingProfile` writes
most of the fields of a custom profile anyway. -/
namespace WebProfiles

open SharedPrograms RecordTables GoValues
open BackendModels BackendWorld RoutingProfiles ProfileIsolation

structure PageProfile where
  id : ℕ
  name : String
  action : RoutingProfileAction
  enabled : Bool
  domains : List String
  domainSuffixes : List String
  cidrs : List String

structure EditForm where
  isEditing : ℕ
  editName : String
  editDomains : String
  editAction : RoutingProfileAction

structure PutRequest where
  id : String
  body : Json

def toggleProfile (profile : PageProfile) : PutRequest :=
  ⟨toString profile.id, .obj [("enabled", .bool !profile.enabled)]⟩

def startEdit (profile : PageProfile) : EditForm :=
  ⟨profile.id, profile.name,
    "\n".intercalate (profile.domains ++ profile.domainSuffixes ++ profile.cidrs), profile.action⟩

/-- The characters that `[\s,]` matches. -/
def isSeparator (c : Char) : Bool :=
  c ∈ [',', '\t', '\n', '\x0b', '\x0c', '\r', ' ', '\u00a0', '\u1680', '\u2028', '\u2029',
    '\u202f', '\u205f', '\u3000', '\ufeff'] || ('\u2000' ≤ c && c ≤ '\u200a')

/-- `editDomains.split(/[\s,]+/).filter(Boolean)`. -/
def domainsArray (editDomains : String) : List String :=
  ((editDomains.toList.splitOnP isSeparator).filter (· ≠ [])).map String.ofList

/-- `saveProfile` for a profile that exists. -/
def saveProfile (form : EditForm) : PutRequest :=
  ⟨toString form.isEditing, .obj
    [("name", .str form.editName), ("action", .str (actionName form.editAction)),
      ("domains", .arr ((domainsArray form.editDomains).map Json.str))]⟩

def kindOf : Json → String
  | .null => "null"
  | .bool _ => "bool"
  | .num _ => "number"
  | .str _ => "string"
  | .arr _ => "array"
  | .obj _ => "object"

/-- The message of `json.UnmarshalTypeError`. -/
def typeError (value : Json) (field type : String) : String :=
  "json: cannot unmarshal " ++ kindOf value ++ " into Go struct field routingProfileRequest." ++
    field ++ " of type " ++ type

def bindString (field : String) : Option Json → Except String String
  | none => .ok ""
  | some .null => .ok ""
  | some (.str s) => .ok s
  | some value => .error (typeError value field "string")

def bindBool (field : String) : Option Json → Except String (Option Bool)
  | none => .ok none
  | some .null => .ok none
  | some (.bool b) => .ok (some b)
  | some value => .error (typeError value field "bool")

def bindItem (field : String) : Json → Except String String
  | .null => .ok ""
  | .str s => .ok s
  | value => .error (typeError value field "string")

def bindStrings (field : String) : Option Json → Except String (List String)
  | none => .ok []
  | some .null => .ok []
  | some (.arr items) => items.mapM (bindItem field)
  | some value => .error (typeError value field "[]string")

/-- `c.ShouldBindJSON(&req)`: a field that is missing keeps its zero value. -/
def bindRequest : Json → Except String RoutingProfileRequest
  | .obj fields => do
    let name ← bindString "name" (lookup fields "name")
    let action ← bindString "action" (lookup fields "action")
    let enabled ← bindBool "enabled" (lookup fields "enabled")
    let domains ← bindStrings "domains" (lookup fields "domains")
    let domainSuffixes ← bindStrings "domain_suffixes" (lookup fields "domain_suffixes")
    let cidrs ← bindStrings "cidrs" (lookup fields "cidrs")
    pure ⟨name, action, enabled, domains, domainSuffixes, cidrs⟩
  | value => .error ("json: cannot unmarshal " ++ kindOf value ++
      " into Go value of type handlers.routingProfileRequest")

theorem bindStrings_strs (field : String) (strings : List String) :
    bindStrings field (some (.arr (strings.map Json.str))) = .ok strings := by
  show (strings.map Json.str).mapM (bindItem field) = .ok strings
  induction strings with
  | nil => rfl
  | cons s strings ih =>
    rw [List.map_cons, List.mapM_cons, ih]
    rfl

theorem bind_toggle (profile : PageProfile) :
    bindRequest (toggleProfile profile).body = .ok ⟨"", "", some !profile.enabled, [], [], []⟩ :=
  rfl

theorem bind_save (form : EditForm) :
    bindRequest (saveProfile form).body =
      .ok ⟨form.editName, actionName form.editAction, none,
        domainsArray form.editDomains, [], []⟩ := by
  have hdomains := bindStrings_strs "domains" (domainsArray form.editDomains)
  show (bindStrings "domains"
    (some (.arr ((domainsArray form.editDomains).map Json.str))) >>= _) = _
  rw [hdomains]
  rfl

variable {cfg : Setup} {st : Storage}

variable (cfg st) in
/-- The page's request as the backend handles it. -/
def handlePut (userID : ℕ) (request : PutRequest) : Handler Reply :=
  updateRoutingProfile cfg st userID request.id (bindRequest request.body)

variable (cfg st) in
def profileAfter (userID : ℕ) (request : PutRequest) (id : ℕ) (w : World) : Option RoutingProfile :=
  storedProfile id ((handlePut cfg st userID request).run w).2.db

variable {p : RoutingProfile}

theorem profileAfter_custom (h : cfg.Reliable) {userID w} (hvip : ActiveVIP userID w)
    (hp : storedProfile p.id w.db = some p) (huser : p.userID = userID) (hkind : p.kind = .custom)
    (hid : p.id < 2 ^ 63) (hrequest : request.id = toString p.id) {req}
    (hbody : bindRequest request.body = .ok req) :
    profileAfter cfg st userID request p.id w = some ((updatedWith st req w.now).apply p) := by
  have hprofiles := ensureSubscriptionSchema_profiles w
  obtain ⟨hm, -, hdeleted⟩ := storedProfile_some hp
  have hfind : findProfile st userID request.id (ensureSubscriptionSchema w).db = .ok (some p) := by
    unfold findProfile
    rw [hrequest, atoi_toString hid]
    simp only [hprofiles]
    cases hfound : w.db.routingProfiles.first? fun q =>
        q.userID = userID && (q.id : ℤ) = p.id && q.deletedAt = none with
    | none => simpa [huser, hdeleted] using w.db.routingProfiles.first_none hfound p hm
    | some q =>
      obtain ⟨hq, hcond⟩ := w.db.routingProfiles.first_some hfound
      simp only [Bool.and_eq_true, decide_eq_true_eq, Nat.cast_inj] at hcond
      rw [w.db.routingProfiles.id_injective hq hm hcond.1.2]
  have hstored : storedProfile p.id (ensureSubscriptionSchema w).db = some p := by
    unfold storedProfile at hp ⊢
    rw [hprofiles]
    exact hp
  unfold profileAfter handlePut updateRoutingProfile
  rw [withProfile_run h hvip, hfind]
  unfold updateFound
  simp only [hbody, hkind, exec1_reliable h, Prog.bind_eq, Prog.atom_bind, Prog.run_act,
    writeProfiles_fst]
  rw [reloadProfile_run h, storedProfile_writeProfiles fun _ _ => rfl, hstored,
    ensureSubscriptionSchema_now]
  simp [hdeleted]

/-- But for the flag and the time of the change, the profile is as before. -/
def OnlyEnabled (p p' : RoutingProfile) : Prop :=
  p' = { p with enabled := p'.enabled, updatedAt := p'.updatedAt }

/-- But for what the form shows and the time of the change, the profile is as before. -/
def OnlyEdited (p p' : RoutingProfile) : Prop :=
  p' = { p with
    name := p'.name
    action := p'.action
    domainsJSON := p'.domainsJSON
    updatedAt := p'.updatedAt }

instance (p p' : RoutingProfile) : Decidable (OnlyEnabled p p') :=
  inferInstanceAs (Decidable (_ = _))

instance (p p' : RoutingProfile) : Decidable (OnlyEdited p p') :=
  inferInstanceAs (Decidable (_ = _))

theorem onlyEnabled_toggled :
    OnlyEnabled p ((updatedWith st ⟨"", "", some enabled, [], [], []⟩ now).apply p) ↔
      p.action = .direct ∧ p.domainsJSON = st.encodeJSONStringArray [] ∧
        p.domainSuffixesJSON = st.encodeJSONStringArray [] ∧
        p.cidrsJSON = st.encodeJSONStringArray [] := by
  have haction : normalizeRoutingProfileAction "" = .direct := by decide
  simp only [OnlyEnabled, updatedWith, RoutingProfile.mk.injEq, haction, Option.getD_some, ne_eq,
    not_true_eq_false, if_false, true_and]
  constructor
  · rintro ⟨hact, hdomains, hsuffixes, hcidrs⟩
    exact ⟨hact.symm, hdomains.symm, hsuffixes.symm, hcidrs.symm⟩
  · rintro ⟨hact, hdomains, hsuffixes, hcidrs⟩
    exact ⟨hact.symm, hdomains.symm, hsuffixes.symm, hcidrs.symm⟩

theorem onlyEdited_saved :
    OnlyEdited p ((updatedWith st ⟨name, action, none, domains, [], []⟩ now).apply p) ↔
      p.domainSuffixesJSON = st.encodeJSONStringArray [] ∧
        p.cidrsJSON = st.encodeJSONStringArray [] := by
  simp only [OnlyEdited, updatedWith, RoutingProfile.mk.injEq, Option.getD_none, true_and]
  constructor
  · rintro ⟨hsuffixes, hcidrs⟩
    exact ⟨hsuffixes.symm, hcidrs.symm⟩
  · rintro ⟨hsuffixes, hcidrs⟩
    exact ⟨hsuffixes.symm, hcidrs.symm⟩

/-- Which custom profiles keep what the page does not show, for the ids that the page can
hold. -/
theorem web_edits_keep_iff (h : cfg.Reliable) {userID : ℕ} {w : World} (hvip : ActiveVIP userID w)
    {p : RoutingProfile} (hp : storedProfile p.id w.db = some p) (huser : p.userID = userID)
    (hkind : p.kind = .custom) (hid : p.id < 2 ^ 53) {profile : PageProfile}
    (hprofile : profile.id = p.id) {form : EditForm} (hform : form.isEditing = p.id) :
    ((∃ p', profileAfter cfg st userID (toggleProfile profile) p.id w = some p' ∧
        OnlyEnabled p p') ↔
      p.action = .direct ∧ p.domainsJSON = st.encodeJSONStringArray [] ∧
        p.domainSuffixesJSON = st.encodeJSONStringArray [] ∧
        p.cidrsJSON = st.encodeJSONStringArray []) ∧
    ((∃ p', profileAfter cfg st userID (saveProfile form) p.id w = some p' ∧ OnlyEdited p p') ↔
      p.domainSuffixesJSON = st.encodeJSONStringArray [] ∧
        p.cidrsJSON = st.encodeJSONStringArray []) := by
  have hid' : p.id < 2 ^ 63 := by omega
  have htoggle : (toggleProfile profile).id = toString p.id := by
    rw [← hprofile]
    rfl
  have hsave : (saveProfile form).id = toString p.id := by
    rw [← hform]
    rfl
  rw [profileAfter_custom h hvip hp huser hkind hid' htoggle (bind_toggle profile),
    profileAfter_custom h hvip hp huser hkind hid' hsave (bind_save form)]
  simp only [Option.some.injEq, exists_eq_left']
  exact ⟨onlyEnabled_toggled, onlyEdited_saved⟩

def plainProfile : RoutingProfile :=
  { otherProfile with userID := 1, action := .direct, domainsJSON := "intranet.example" }

def networkProfile : RoutingProfile :=
  { otherProfile with userID := 1, cidrsJSON := "10.0.0.0/8" }

def plainWorld : World := vipWorld 1 (lone plainProfile)

def networkWorld : World := vipWorld 1 (lone networkProfile)

def storage : Storage := reading "" fun _ _ => false

def pageProfile (p : RoutingProfile) : PageProfile :=
  ⟨p.id, p.name, p.action, p.enabled, storage.decodeJSONStringArray p.domainsJSON,
    storage.decodeJSONStringArray p.domainSuffixesJSON, storage.decodeJSONStringArray p.cidrsJSON⟩

theorem plain_profile_keeps_form_fields :
    ∃ p', profileAfter (.standard "") storage 1
      (saveProfile (startEdit (pageProfile plainProfile))) 1 plainWorld = some p' ∧
      OnlyEdited plainProfile p' :=
  (web_edits_keep_iff (Setup.standard_reliable "") (vipWorld_vip 1 _) rfl rfl rfl (by decide)
    (show (pageProfile plainProfile).id = plainProfile.id from rfl) rfl).2.mpr ⟨rfl, rfl⟩

/-- Switching the rule off makes it a direct one for nothing, and saving the form as it was
opened drops the network. -/
theorem network_profile_loses_network :
    ActiveVIP 1 networkWorld ∧
    (profileAfter (.standard "") storage 1 (toggleProfile (pageProfile networkProfile)) 1
      networkWorld).any (fun p' => ¬OnlyEnabled networkProfile p') = true ∧
    (profileAfter (.standard "") storage 1
      (saveProfile (startEdit (pageProfile networkProfile))) 1 networkWorld).any
      (fun p' => ¬OnlyEdited networkProfile p') = true :=
  ⟨vipWorld_vip 1 _, by decide +kernel, by decide +kernel⟩

end WebProfiles

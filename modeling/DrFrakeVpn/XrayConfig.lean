import DrFrakeVpn.BackendModels

/-! # The client lists of an Xray server config

What `addXrayClient` and `removeXrayClient` compute on the decoded `server.json`. -/
namespace XrayConfig

open GoValues BackendModels

def sanitizeClient : Json → Json
  | .obj client => .obj (deleteField client "encryption")
  | item => item

def hasEncryption : Json → Bool
  | .obj client => (lookup client "encryption").isSome
  | _ => false

def sanitizeInboundVLESSClients (clients : List Json) : List Json × Bool :=
  (clients.map sanitizeClient, clients.any hasEncryption)

/-- `client["id"] == clientID`. -/
def hasID (clientID : String) : Json → Bool
  | .obj client =>
    match lookup client "id" with
    | some (.str id) => id = clientID
    | _ => false
  | _ => false

/-- A vless inbound with a settings object: the inbound and its settings. -/
def vlessInbound? : Json → Option (List (String × Json) × List (String × Json))
  | .obj inbound =>
    if asString (lookup inbound "protocol") = "vless" then
      (asMap? (lookup inbound "settings")).map fun settings => (inbound, settings)
    else none
  | _ => none

def clientsOf (settings : List (String × Json)) : List Json := asArr (lookup settings "clients")

def withClients (inbound settings : List (String × Json)) (clients : List Json) : Json :=
  .obj (setField inbound "settings" (.obj (setField settings "clients" (.arr clients))))

/-- The entry of a new client; only the first inbound may carry a flow. -/
def clientConfig (template : VLESSServerTemplate) (clientID : String) (i : ℕ)
    (inbound : List (String × Json)) : Json :=
  let netw := asString (lookup (asMap (lookup inbound "streamSettings")) "network")
  .obj <| ("id", .str clientID) ::
    if i = 0 ∧ netw ≠ "xhttp" ∧ template.network ≠ "xhttp" ∧ trimSpace template.flow ≠ "" then
      [("flow", .str template.flow)]
    else []

/-- The inbound with the client added, and whether it changed. -/
def addToInbound (template : VLESSServerTemplate) (clientID : String) (i : ℕ) (item : Json) :
    Json × Bool :=
  match vlessInbound? item with
  | none => (item, false)
  | some (inbound, settings) =>
    let (clients, changed) := sanitizeInboundVLESSClients (clientsOf settings)
    if clients.any (hasID clientID) then
      if changed then (withClients inbound settings clients, true) else (item, false)
    else
      (withClients inbound settings (clients ++ [clientConfig template clientID i inbound]), true)

/-- The inbound without the client, and whether it held it. The client objects are shared with
the decoded value, so they lose their encryption in either case. -/
def removeFromInbound (clientID : String) (item : Json) : Json × Bool :=
  match vlessInbound? item with
  | none => (item, false)
  | some (inbound, settings) =>
    let clients := (sanitizeInboundVLESSClients (clientsOf settings)).1
    if clients.any (hasID clientID) then
      (withClients inbound settings (clients.filter fun item => !hasID clientID item), true)
    else if (asArr? (lookup settings "clients")).isSome then
      (withClients inbound settings clients, false)
    else (item, false)

inductive ConfigError where
  | notJSON
  | missingInbounds
  deriving DecidableEq, Repr

/-- The fields of the config and its inbounds, of which there must be one. -/
def decodeInbounds (file : Option Json) :
    Except ConfigError (List (String × Json) × List Json) :=
  match bindMap file with
  | none => .error .notJSON
  | some parsed =>
    match asArr? (lookup parsed "inbounds") with
    | none | some [] => .error .missingInbounds
    | some inbounds => .ok (parsed, inbounds)

/-- The config after every inbound was gone over: nothing is written if none changed. -/
def rewriteInbounds (change : ℕ → Json → Json × Bool) (file : Option Json) :
    Except ConfigError (Option Json) :=
  match decodeInbounds file with
  | .error e => .error e
  | .ok (parsed, inbounds) =>
    let changed := inbounds.mapIdx change
    if changed.any Prod.snd then
      .ok (some (.obj (setField parsed "inbounds" (.arr (changed.map Prod.fst)))))
    else .ok none

def addClient (template : VLESSServerTemplate) (clientID : String) :
    Option Json → Except ConfigError (Option Json) :=
  rewriteInbounds (addToInbound template clientID)

def removeClient (clientID : String) : Option Json → Except ConfigError (Option Json) :=
  rewriteInbounds fun _ => removeFromInbound clientID

def inboundsOf (file : Option Json) : List Json :=
  match bindMap file with
  | none => []
  | some parsed => asArr (lookup parsed "inbounds")

/-- Whether a vless inbound lets the client in; another inbound has no say. -/
def inboundAccepts (clientID : String) (item : Json) : Option Bool :=
  (vlessInbound? item).map fun (_, settings) => (clientsOf settings).any (hasID clientID)

/-- What each vless inbound of the config says. -/
def acceptance (file : Option Json) (clientID : String) : List Bool :=
  (inboundsOf file).filterMap (inboundAccepts clientID)

/-- Some inbound lets the client in. -/
def accepts (file : Option Json) (clientID : String) : Bool := true ∈ acceptance file clientID

/-- Every vless inbound lets the client in. -/
def acceptsEverywhere (file : Option Json) (clientID : String) : Bool :=
  false ∉ acceptance file clientID

theorem hasID_sanitizeClient (x : String) (item : Json) :
    hasID x (sanitizeClient item) = hasID x item := by
  cases item with
  | obj client => simp [sanitizeClient, hasID, lookup_deleteField]
  | _ => rfl

theorem hasID_unique {x y item} (hx : hasID x item) (hy : hasID y item) : x = y := by
  cases item with
  | obj client =>
    simp only [hasID] at hx hy
    split at hx
    · next id hid =>
      simp only [hid] at hy
      exact (of_decide_eq_true hx).symm.trans (of_decide_eq_true hy)
    · cases hx
  | _ => cases hx

variable (template : VLESSServerTemplate)

theorem hasID_clientConfig :
    hasID x (clientConfig template clientID i inbound) = decide (clientID = x) := by
  simp only [clientConfig]
  split <;> simp [hasID, lookup]

theorem any_sanitized (x : String) (clients : List Json) :
    (sanitizeInboundVLESSClients clients).1.any (hasID x) = clients.any (hasID x) := by
  simp [sanitizeInboundVLESSClients, Function.comp_def, hasID_sanitizeClient]

theorem vlessInbound_some
    (h : vlessInbound? item = some (inbound, settings)) :
    item = .obj inbound ∧ asString (lookup inbound "protocol") = "vless" ∧
      lookup inbound "settings" = some (.obj settings) := by
  cases item with
  | obj fields =>
    simp only [vlessInbound?] at h
    split at h
    · next hp =>
      obtain ⟨s, hs, heq⟩ := Option.map_eq_some_iff.mp h
      cases heq
      refine ⟨rfl, hp, ?_⟩
      unfold asMap? at hs
      split at hs
      · next hl =>
        cases hs
        exact hl
      · cases hs
    · cases h
  | _ => cases h

section Vless

variable {item : Json} {inbound settings : List (String × Json)}
  (h : vlessInbound? item = some (inbound, settings))

include h

theorem inboundAccepts_withClients (clients : List Json) (x : String) :
    inboundAccepts x (withClients inbound settings clients) = some (clients.any (hasID x)) := by
  obtain ⟨_, hp, _⟩ := vlessInbound_some h
  simp [inboundAccepts, withClients, vlessInbound?, lookup_setField, hp, asMap?, clientsOf, asArr,
    asArr?]

theorem inboundAccepts_some (x : String) :
    inboundAccepts x item = some ((clientsOf settings).any (hasID x)) := by
  simp [inboundAccepts, h]

theorem inboundAccepts_settled (hid : (clientsOf settings).any (hasID clientID) = b)
    (x : String) :
    inboundAccepts x item =
      (inboundAccepts x item).map fun a => if x = clientID then b else a := by
  rw [inboundAccepts_some h, Option.map_some]
  split
  · next hx => rw [hx, hid]
  · rfl

end Vless

structure SetsClient (clientID : String) (b : Bool) (change : ℕ → Json → Json × Bool) : Prop where
  view : ∀ i item x, inboundAccepts x (change i item).1 =
    (inboundAccepts x item).map fun a => if x = clientID then b else a
  unchanged : ∀ i item, (change i item).2 = false → ∀ a ∈ inboundAccepts clientID item, a = b

theorem addToInbound_sets (clientID : String) :
    SetsClient clientID true (addToInbound template clientID) where
  view i item x := by
    cases h : vlessInbound? item with
    | none => simp [addToInbound, inboundAccepts, h]
    | some v =>
      obtain ⟨inbound, settings⟩ := v
      simp only [addToInbound, h, any_sanitized]
      by_cases hid : (clientsOf settings).any (hasID clientID)
      · -- the client is there already: at most its encryption goes
        rw [← inboundAccepts_settled h hid, if_pos hid]
        split
        · rw [inboundAccepts_withClients h, any_sanitized, inboundAccepts_some h]
        · rfl
      · rw [if_neg hid, inboundAccepts_withClients h, List.any_append, any_sanitized,
          inboundAccepts_some h]
        simp only [List.any_cons, List.any_nil, hasID_clientConfig, Bool.or_false, Option.map_some]
        split
        · next hx => simp [hx]
        · next hx => simp [Ne.symm hx]
  unchanged i item hsame a ha := by
    obtain ⟨v, hv, rfl⟩ := Option.map_eq_some_iff.mp ha
    simp only [addToInbound, hv, any_sanitized] at hsame
    split at hsame
    · assumption
    · cases hsame

theorem any_filter_hasID (clientID x : String) (clients : List Json) :
    (clients.filter fun item => !hasID clientID item).any (hasID x) =
      if x = clientID then false else clients.any (hasID x) := by
  split
  · next hx =>
    subst hx
    simp
  · next hx =>
    rw [List.any_filter]
    refine congrArg (fun f => clients.any f) (funext fun item => ?_)
    cases hi : hasID x item with
    | false => simp
    | true =>
      have : hasID clientID item = false := by
        by_contra hc
        exact hx (hasID_unique hi (by simpa using hc))
      simp [this]

theorem removeFromInbound_sets (clientID : String) :
    SetsClient clientID false fun _ => removeFromInbound clientID where
  view i item x := by
    cases h : vlessInbound? item with
    | none => simp [removeFromInbound, inboundAccepts, h]
    | some v =>
      obtain ⟨inbound, settings⟩ := v
      simp only [removeFromInbound, h, any_sanitized]
      by_cases hid : (clientsOf settings).any (hasID clientID)
      · rw [if_pos hid, inboundAccepts_withClients h, any_filter_hasID, any_sanitized,
          inboundAccepts_some h]
        simp
      · -- nobody to remove: at most the encryption of others goes
        rw [← inboundAccepts_settled h (Bool.eq_false_iff.mpr hid), if_neg hid]
        split
        · rw [inboundAccepts_withClients h, any_sanitized, inboundAccepts_some h]
        · rfl
  unchanged i item hsame a ha := by
    obtain ⟨v, hv, rfl⟩ := Option.map_eq_some_iff.mp ha
    simp only [removeFromInbound, hv, any_sanitized] at hsame
    split at hsame
    · cases hsame
    · next hid => exact Bool.eq_false_iff.mpr hid

variable {file : Option Json}

theorem decodeInbounds_ok (h : decodeInbounds file = .ok (parsed, inbounds)) :
    bindMap file = some parsed ∧ inboundsOf file = inbounds := by
  unfold decodeInbounds at h
  split at h
  · cases h
  · next hb =>
    split at h
    · cases h
    · cases h
    · next hi =>
      cases h
      exact ⟨hb, by simp [inboundsOf, hb, asArr, hi]⟩

variable {change : ℕ → Json → Json × Bool}

theorem filterMap_mapIdx {f : Bool → Bool} (h : ∀ i item, g (change i item).1 = (g item).map f)
    (items : List Json) :
    ((items.mapIdx change).map Prod.fst).filterMap g = (items.filterMap g).map f := by
  induction items generalizing change with
  | nil => rfl
  | cons item items ih =>
    rw [List.mapIdx_cons, List.map_cons, List.filterMap_cons, List.filterMap_cons, h,
      ih fun i item => h (i + 1) item]
    cases g item <;> rfl

variable {updated : Option Json} {clientID : String}

/-- Either no inbound changed, or all are written and the other fields stay. -/
theorem rewriteInbounds_cases (h : rewriteInbounds change file = .ok updated) :
    (updated = none ∧ ∀ i, ∀ hi : i < (inboundsOf file).length,
        (change i (inboundsOf file)[i]).2 = false) ∨
      inboundsOf (updated.or file) = ((inboundsOf file).mapIdx change).map Prod.fst ∧
        ∀ k, k ≠ "inbounds" → lookup ((bindMap (updated.or file)).getD []) k =
          lookup ((bindMap file).getD []) k := by
  unfold rewriteInbounds at h
  split at h
  · cases h
  · next parsed inbounds hd =>
    obtain ⟨hfields, rfl⟩ := decodeInbounds_ok hd
    dsimp only at h
    split at h
    · cases h
      refine .inr ⟨?_, ?_⟩
      · simp [inboundsOf, bindMap, lookup_setField, asArr, asArr?]
      intro k hk
      rw [hfields]
      show lookup (setField parsed "inbounds" _) k = _
      rw [lookup_setField, if_neg hk]
      rfl
    · next hnone =>
      cases h
      refine .inl ⟨rfl, fun i hi => ?_⟩
      by_contra hchanged
      refine hnone (List.any_eq_true.mpr ⟨change i (inboundsOf file)[i],
        ?_, by simpa using hchanged⟩)
      exact List.mem_mapIdx.mpr ⟨i, hi, rfl⟩

/-- The file after a rewrite says `b` for this client and the same as before for the others,
whether it had to be written or not. -/
theorem acceptance_rewritten {b : Bool} (hc : SetsClient clientID b change)
    (h : rewriteInbounds change file = .ok updated) (x : String) :
    acceptance (updated.or file) x =
      (acceptance file x).map fun a => if x = clientID then b else a := by
  rcases rewriteInbounds_cases h with ⟨rfl, hsame⟩ | ⟨hnew, -⟩
  · rw [Option.none_or]
    by_cases hx : x = clientID
    · subst hx
      have hall : ∀ a ∈ acceptance file x, a = b := by
        intro a ha
        obtain ⟨item, hitem, hacc⟩ := List.mem_filterMap.mp ha
        obtain ⟨i, hi, rfl⟩ := List.getElem_of_mem hitem
        exact hc.unchanged i _ (hsame i hi) a hacc
      calc acceptance file x = (acceptance file x).map fun a => a := by simp
        _ = _ := List.map_congr_left fun a ha => by simp [hall a ha]
    · simp [hx]
  · rw [acceptance, hnew]
    exact filterMap_mapIdx (fun i item => hc.view i item x) (inboundsOf file)

theorem accepts_removed (h : removeClient clientID file = .ok updated) (x : String) :
    accepts (updated.or file) x = (decide (x ≠ clientID) && accepts file x) := by
  unfold accepts
  rw [acceptance_rewritten (removeFromInbound_sets clientID) h]
  by_cases hx : x = clientID <;> simp [hx]

theorem accepts_added {template} (h : addClient template clientID file = .ok updated) (x : String) :
    accepts (updated.or file) x ↔
      accepts file x ∨ (x = clientID ∧ acceptance file x ≠ []) := by
  simp only [accepts, acceptance_rewritten (addToInbound_sets template clientID) h,
    decide_eq_true_eq, List.mem_map]
  by_cases hx : x = clientID
  · cases acceptance file x <;> simp [hx]
  · simp [hx]

variable {e : ConfigError}

theorem inboundsOf_of_error (h : rewriteInbounds change file = .error e) :
    inboundsOf file = [] := by
  unfold rewriteInbounds decodeInbounds at h
  unfold inboundsOf
  cases hb : bindMap file with
  | none => rfl
  | some parsed =>
    cases hi : asArr? (lookup parsed "inbounds") with
    | none => simp [asArr, hi]
    | some items =>
      cases items with
      | nil => simp [asArr, hi]
      | cons item items =>
        simp only [hb, hi] at h
        split at h <;> cases h

theorem accepts_of_error (h : rewriteInbounds change file = .error e) (x : String) :
    accepts file x = false := by
  simp [accepts, acceptance, inboundsOf_of_error h]

end XrayConfig

import DrFrakeVpn.RemoteAddition
import DrFrakeVpn.XrayClients

/-! # Adding and removing as operations on sets -/
namespace ClientLists

open GoValues BackendModels BackendWorld VpnCommands XrayConfig
open RemoteRemoval RemoteAddition

def isVless (item : Json) : Bool := asString (lookup (asMap (some item)) "protocol") = "vless"

def settingsIn (item : Json) : List (String × Json) :=
  asMap (lookup (asMap (some item)) "settings")

def clientsIn (item : Json) : List Json := clientsOf (settingsIn item)

/-- The client lists of the vless inbounds; no list is an empty one. -/
def listsOf (inbounds : List Json) : List (List Json) := (inbounds.filter isVless).map clientsIn

def clientLists (file : Option Json) : List (List Json) := listsOf (inboundsOf file)

def idOf (client : Json) : Option Json := lookup (asMap (some client)) "id"

structure Usable (file : Option Json) : Prop where
  inbounds : inboundsOf file ≠ []
  settings : ∀ item ∈ inboundsOf file, isVless item = true →
    ∃ settings, lookup (asMap (some item)) "settings" = some (.obj settings)

variable {settings : List (String × Json)} {item : Json}

theorem vlessInbound_of (hv : isVless item)
    (hs : lookup (asMap (some item)) "settings" = some (.obj settings)) :
    vlessInbound? item = some (asMap (some item), settings) ∧ settingsIn item = settings := by
  have hprotocol := of_decide_eq_true hv
  cases item with
  | obj inbound =>
    have hs' : lookup inbound "settings" = some (.obj settings) := hs
    have hp' : asString (lookup inbound "protocol") = "vless" := hprotocol
    constructor
    · rw [vlessInbound?, if_pos hp', hs']
      rfl
    · rw [settingsIn, hs]
      rfl
  | _ => cases hs

theorem vlessInbound_none (hv : isVless item = false) : vlessInbound? item = none := by
  cases h : vlessInbound? item with
  | none => rfl
  | some v =>
    obtain ⟨rfl, hp, -⟩ := vlessInbound_some h
    exact absurd (decide_eq_true hp) (Bool.eq_false_iff.mp hv)

structure InboundFrame (old new : Json) : Prop where
  other : isVless old = false → new = old
  fields : ∀ k, k ≠ "settings" → lookup (asMap (some new)) k = lookup (asMap (some old)) k
  settings : ∀ k, k ≠ "clients" → lookup (settingsIn new) k = lookup (settingsIn old) k
  object : (∃ s, lookup (asMap (some old)) "settings" = some (.obj s)) →
    ∃ s, lookup (asMap (some new)) "settings" = some (.obj s)

def fieldsOf (file : Option Json) : List (String × Json) := (bindMap file).getD []

structure SameElsewhere (old new : Option Json) : Prop where
  fields : ∀ k, k ≠ "inbounds" → lookup (fieldsOf new) k = lookup (fieldsOf old) k
  inbounds : List.Forall₂ InboundFrame (inboundsOf old) (inboundsOf new)

theorem InboundFrame.refl (item : Json) : InboundFrame item item :=
  ⟨fun _ => rfl, fun _ _ => rfl, fun _ _ => rfl, id⟩

theorem InboundFrame.vless (h : InboundFrame old new) : isVless new = isVless old := by
  unfold isVless
  rw [h.fields "protocol" (by decide)]

/-- Only the list of clients is written. -/
theorem withClients_spec (clients : List Json) (hv : isVless item)
    (hs : settingsIn item = settings) :
    let new := withClients (asMap (some item)) settings clients
    InboundFrame item new ∧ clientsIn new = clients := by
  intro new
  have hfields : ∀ k, lookup (asMap (some new)) k =
      if k = "settings" then some (.obj (setField settings "clients" (.arr clients)))
      else lookup (asMap (some item)) k :=
    fun k => lookup_setField (asMap (some item)) "settings" _ k
  have hsettings : settingsIn new = setField settings "clients" (.arr clients) := by
    rw [settingsIn, hfields, if_pos rfl]
    rfl
  refine ⟨⟨fun h => absurd hv (Bool.eq_false_iff.mp h), ?_, ?_,
    fun _ => ⟨_, (hfields "settings").trans (if_pos rfl)⟩⟩, ?_⟩
  · intro k hk
    rw [hfields, if_neg hk]
  · intro k hk
    rw [hsettings, lookup_setField, if_neg hk, hs]
  · rw [clientsIn, hsettings, clientsOf, lookup_setField, if_pos rfl]
    rfl

/-- An edit that writes a list of clients or nothing. -/
theorem edit_spec {new} {R : List Json → List Json → Prop} (hsettings : isVless item →
      ∃ settings, lookup (asMap (some item)) "settings" = some (.obj settings))
    (hother : vlessInbound? item = none → new = item)
    (hedit : ∀ settings, vlessInbound? item = some (asMap (some item), settings) →
      (∃ clients, new = withClients (asMap (some item)) settings clients ∧
        R (clientsOf settings) clients) ∨
      new = item ∧ R (clientsOf settings) (clientsOf settings)) :
    InboundFrame item new ∧ (isVless item → R (clientsIn item) (clientsIn new)) := by
  by_cases hv : isVless item
  · obtain ⟨settings, hs⟩ := hsettings hv
    obtain ⟨hinbound, hsettingsIn⟩ := vlessInbound_of hv hs
    have hclients : clientsIn item = clientsOf settings := by rw [clientsIn, hsettingsIn]
    rcases hedit settings hinbound with ⟨clients, rfl, hR⟩ | ⟨rfl, hR⟩
    · obtain ⟨hframe, hnew⟩ := withClients_spec clients hv hsettingsIn
      exact ⟨hframe, fun _ => by rwa [hnew, hclients]⟩
    · exact ⟨.refl _, fun _ => by rwa [hclients]⟩
  · rw [hother (vlessInbound_none (Bool.eq_false_iff.mpr hv))]
    exact ⟨.refl item, fun h => absurd h hv⟩

theorem SameElsewhere.refl (file : Option Json) : SameElsewhere file file :=
  ⟨fun _ _ => rfl, List.forall₂_same.mpr fun item _ => .refl item⟩

theorem listsOf_related
    (h : List.Forall₂ (fun item item' => isVless item' = isVless item ∧
      (isVless item → R (clientsIn item) (clientsIn item'))) old new) :
    List.Forall₂ R (listsOf old) (listsOf new) := by
  induction h with
  | nil => exact .nil
  | @cons item item' old new hitem _ ih =>
    unfold listsOf at ih ⊢
    rw [List.filter_cons, List.filter_cons, hitem.1]
    by_cases hv : isVless item
    · rw [if_pos hv, if_pos hv]
      exact .cons (hitem.2 hv) ih
    · rw [if_neg hv, if_neg hv]
      exact ih

variable {change : ℕ → Json → Json × Bool}

theorem forall₂_mapIdx {R items} (h : ∀ i, ∀ item ∈ items, R item (change i item).1) :
    List.Forall₂ R items ((items.mapIdx change).map Prod.fst) := by
  induction items generalizing change with
  | nil => exact .nil
  | cons item items ih =>
    rw [List.mapIdx_cons, List.map_cons]
    refine .cons (h 0 item List.mem_cons_self) (ih ?_)
    intro i other hother
    exact h (i + 1) other (List.mem_cons_of_mem item hother)

theorem deleteField_absent (h : (lookup fields key).isSome = false) :
    deleteField fields key = fields := by
  unfold deleteField
  rw [List.filter_eq_self]
  intro f hf
  by_contra hkey
  have hfound : (fields.reverse.find? fun f => f.1 = key).isSome :=
    List.find?_isSome.mpr ⟨f, List.mem_reverse.mpr hf, by simpa using hkey⟩
  unfold lookup at h
  rw [Option.isSome_map, hfound] at h
  cases h

theorem map_sanitizeClient {clients : List Json} (h : clients.any hasEncryption = false) :
    clients.map sanitizeClient = clients := by
  rw [List.any_eq_false] at h
  conv_rhs => rw [← List.map_id clients]
  apply List.map_congr_left
  intro client hclient
  cases client with
  | obj fields =>
    have hnone := Bool.eq_false_iff.mpr (h (.obj fields) hclient)
    rw [sanitizeClient, deleteField_absent hnone]
    rfl
  | _ => rfl

variable (client : Json)

theorem sanitizeClient_idempotent :
    sanitizeClient (sanitizeClient client) = sanitizeClient client := by
  cases client with
  | obj fields =>
    simp only [sanitizeClient]
    congr 1
    apply deleteField_absent
    rw [lookup_deleteField, if_pos rfl]
    rfl
  | _ => rfl

theorem hasEncryption_sanitizeClient : hasEncryption (sanitizeClient client) = false := by
  cases client with
  | obj fields => simp [sanitizeClient, hasEncryption, lookup_deleteField]
  | _ => rfl

theorem idOf_sanitizeClient : idOf (sanitizeClient client) = idOf client := by
  cases client with
  | obj fields =>
    show lookup (deleteField fields "encryption") "id" = lookup fields "id"
    rw [lookup_deleteField, if_neg (by decide)]
  | _ => rfl

variable (template : VLESSServerTemplate)

theorem idOf_clientConfig (clientID : String) :
    idOf (clientConfig template clientID i inbound) = some (.str clientID) := by
  unfold clientConfig
  dsimp only
  split <;> rfl

theorem hasEncryption_clientConfig (clientID : String) :
    hasEncryption (clientConfig template clientID i inbound) = false := by
  unfold clientConfig
  dsimp only
  split <;> rfl

/-- The old clients without their encryption, and a new one if it was absent. -/
def AddedEntry (clientID : String) (old new : List Json) : Prop :=
  ∃ added, new = old.map sanitizeClient ++ added ∧
    if old.any (hasID clientID) then added = []
    else ∃ entry, added = [entry] ∧ idOf entry = some (.str clientID) ∧
      hasID clientID entry = true ∧ hasEncryption entry = false

section Add

variable (template : VLESSServerTemplate) (clientID : String) (i : ℕ) {item : Json}

theorem addToInbound_spec (hsettings : isVless item →
      ∃ settings, lookup (asMap (some item)) "settings" = some (.obj settings)) :
    InboundFrame item (addToInbound template clientID i item).1 ∧
      (isVless item →
        AddedEntry clientID (clientsIn item)
          (clientsIn (addToInbound template clientID i item).1)) := by
  refine edit_spec hsettings (fun h => by rw [addToInbound, h]) fun settings h => ?_
  unfold addToInbound
  rw [h]
  dsimp only
  rw [any_sanitized]
  unfold AddedEntry
  by_cases hid : (clientsOf settings).any (hasID clientID)
  · simp only [if_pos hid]
    by_cases henc : (sanitizeInboundVLESSClients (clientsOf settings)).2
    · rw [if_pos henc]
      exact .inl ⟨_, rfl, [], by rw [List.append_nil]; rfl, rfl⟩
    · -- no client had an encryption
      rw [if_neg henc]
      refine .inr ⟨rfl, [], ?_, rfl⟩
      rw [map_sanitizeClient (Bool.eq_false_iff.mpr henc), List.append_nil]
  · simp only [if_neg hid]
    refine .inl ⟨_, rfl, _, rfl, _, rfl, idOf_clientConfig .., ?_, hasEncryption_clientConfig ..⟩
    rw [hasID_clientConfig, decide_eq_true rfl]

theorem addToInbound_unchanged (h : (addToInbound template clientID i item).2 = false) :
    (addToInbound template clientID i item).1 = item := by
  unfold addToInbound at h ⊢
  cases hinbound : vlessInbound? item with
  | none => rfl
  | some v =>
    rw [hinbound] at h
    dsimp only at h ⊢
    split_ifs at h ⊢
    rfl

theorem addToInbound_again (hid : isVless item → (clientsIn item).any (hasID clientID))
    (henc : isVless item → (clientsIn item).any hasEncryption = false) :
    (addToInbound template clientID i item).2 = false := by
  unfold addToInbound
  cases hinbound : vlessInbound? item with
  | none => rfl
  | some v =>
    obtain ⟨inbound, settings⟩ := v
    obtain ⟨rfl, hp, hs⟩ := vlessInbound_some hinbound
    have hv : isVless (.obj inbound) := decide_eq_true hp
    have hsettingsIn := (vlessInbound_of hv hs).2
    have hid' := hid hv
    have henc' := henc hv
    rw [clientsIn, hsettingsIn] at hid' henc'
    have hsame : (sanitizeInboundVLESSClients (clientsOf settings)).2 = false := henc'
    dsimp only
    rw [any_sanitized, if_pos hid', hsame]
    rfl

end Add

/-- The list without the client, up to encryption. -/
def RemovedEntry (clientID : String) (old new : List Json) : Prop :=
  new.map sanitizeClient = (old.filter fun client => !hasID clientID client).map sanitizeClient

section Remove

variable (clientID : String) {item : Json}

theorem filter_sanitized (clients : List Json) :
    ((clients.map sanitizeClient).filter fun client => !hasID clientID client) =
      (clients.filter fun client => !hasID clientID client).map sanitizeClient := by
  rw [List.filter_map]
  congr 2
  funext client
  exact congrArg _ (hasID_sanitizeClient clientID client)

theorem filter_absent {clients : List Json} (h : clients.any (hasID clientID) = false) :
    (clients.filter fun client => !hasID clientID client) = clients := by
  rw [List.filter_eq_self]
  intro client hclient
  rw [List.any_eq_false] at h
  rw [Bool.eq_false_iff.mpr (h client hclient)]
  rfl

theorem removeFromInbound_spec (hsettings : isVless item →
      ∃ settings, lookup (asMap (some item)) "settings" = some (.obj settings)) :
    InboundFrame item (removeFromInbound clientID item).1 ∧
      (isVless item → clientsIn (removeFromInbound clientID item).1 =
        ((clientsIn item).filter fun client => !hasID clientID client).map sanitizeClient) := by
  refine edit_spec (R := fun old new => new =
    (old.filter fun client => !hasID clientID client).map sanitizeClient) hsettings
    (fun h => by rw [removeFromInbound, h]) fun settings h => ?_
  have hsane : (sanitizeInboundVLESSClients (clientsOf settings)).1 =
      (clientsOf settings).map sanitizeClient := rfl
  unfold removeFromInbound
  rw [h]
  dsimp only
  rw [any_sanitized, hsane]
  by_cases hid : (clientsOf settings).any (hasID clientID)
  · rw [if_pos hid, filter_sanitized]
    exact .inl ⟨_, rfl, rfl⟩
  · -- nobody to remove
    rw [if_neg hid, filter_absent clientID (Bool.eq_false_iff.mpr hid)]
    by_cases hlist : (asArr? (lookup settings "clients")).isSome
    · rw [if_pos hlist]
      exact .inl ⟨_, rfl, rfl⟩
    · have hempty : clientsOf settings = [] := by
        unfold clientsOf asArr
        rw [Option.not_isSome_iff_eq_none.mp hlist]
        rfl
      rw [if_neg hlist, hempty]
      exact .inr ⟨rfl, rfl⟩

theorem removeFromInbound_unchanged (h : (removeFromInbound clientID item).2 = false)
    (hsettings : isVless item →
      ∃ settings, lookup (asMap (some item)) "settings" = some (.obj settings))
    (hv : isVless item) : (clientsIn item).any (hasID clientID) = false := by
  obtain ⟨settings, hs⟩ := hsettings hv
  obtain ⟨hinbound, hsettingsIn⟩ := vlessInbound_of hv hs
  unfold removeFromInbound at h
  rw [hinbound] at h
  dsimp only at h
  rw [any_sanitized] at h
  rw [clientsIn, hsettingsIn]
  split_ifs at h with hid
  · exact Bool.eq_false_iff.mpr hid
  · exact Bool.eq_false_iff.mpr hid

end Remove

theorem forall₂_eq_map {α β : Type} {f} {l : List α} {l' : List β}
    (h : List.Forall₂ (fun a b => b = f a) l l') : l' = l.map f := by
  induction h with
  | nil => rfl
  | cons hab _ ih => rw [List.map_cons, hab, ih]

theorem rewriteInbounds_none (hne : inboundsOf file ≠ [])
    (hsame : ∀ i, ∀ item ∈ inboundsOf file, (change i item).2 = false) :
    rewriteInbounds change file = .ok none := by
  cases hd : decodeInbounds file with
  | error e =>
    have herror : rewriteInbounds change file = .error e := by rw [rewriteInbounds, hd]
    exact absurd (inboundsOf_of_error herror) hne
  | ok pair =>
    obtain ⟨parsed, inbounds⟩ := pair
    rw [(decodeInbounds_ok hd).2] at hsame
    have hnone : (inbounds.mapIdx change).any Prod.snd = false := by
      rw [List.any_eq_false]
      intro pair hpair
      obtain ⟨i, hi, rfl⟩ := List.mem_mapIdx.mp hpair
      rw [hsame i _ (List.getElem_mem hi)]
      decide
    rw [rewriteInbounds, hd]
    dsimp only
    rw [hnone]
    rfl

section File

variable {template : VLESSServerTemplate} {clientID : String} {file updated : Option Json}

theorem addClient_inbounds (h : addClient template clientID file = .ok updated) :
    inboundsOf (updated.or file) =
        ((inboundsOf file).mapIdx (addToInbound template clientID)).map Prod.fst ∧
      ∀ k, k ≠ "inbounds" → lookup (fieldsOf (updated.or file)) k = lookup (fieldsOf file) k := by
  rcases rewriteInbounds_cases h with ⟨rfl, hsame⟩ | hwritten
  · refine ⟨?_, fun _ _ => rfl⟩
    apply List.ext_getElem
    · rw [Option.none_or, List.length_map, List.length_mapIdx]
    · intro i hi hi'
      rw [List.getElem_map, List.getElem_mapIdx]
      exact (addToInbound_unchanged template clientID i (hsame i hi)).symm
  · exact hwritten

theorem mem_addClient_inbounds (h : addClient template clientID file = .ok updated) {item'}
    (hitem' : item' ∈ inboundsOf (updated.or file)) :
    ∃ i, ∃ item ∈ inboundsOf file, item' = (addToInbound template clientID i item).1 := by
  rw [(addClient_inbounds h).1, List.mem_map] at hitem'
  obtain ⟨pair, hpair, rfl⟩ := hitem'
  obtain ⟨i, hi, rfl⟩ := List.mem_mapIdx.mp hpair
  exact ⟨i, (inboundsOf file)[i], List.getElem_mem hi, rfl⟩

variable (hfile : Usable file)
include hfile

theorem usable_added (h : addClient template clientID file = .ok updated) :
    Usable (updated.or file) := by
  constructor
  · rw [(addClient_inbounds h).1]
    have hne := hfile.inbounds
    simpa using hne
  · intro item' hitem' hv
    obtain ⟨i, item, hitem, rfl⟩ := mem_addClient_inbounds h hitem'
    have hframe := (addToInbound_spec template clientID i (hfile.settings item hitem)).1
    rw [hframe.vless] at hv
    exact hframe.object (hfile.settings item hitem hv)

theorem addClient_spec (h : addClient template clientID file = .ok updated) :
    SameElsewhere file (updated.or file) ∧
      List.Forall₂ (AddedEntry clientID) (clientLists file) (clientLists (updated.or file)) := by
  obtain ⟨hinbounds, hfields⟩ := addClient_inbounds h
  have hstep : ∀ i, ∀ item ∈ inboundsOf file, _ := fun i item hitem =>
    addToInbound_spec template clientID i (hfile.settings item hitem)
  constructor
  · refine ⟨hfields, ?_⟩
    rw [hinbounds]
    exact forall₂_mapIdx fun i item hitem => (hstep i item hitem).1
  · unfold clientLists
    rw [hinbounds]
    exact listsOf_related (forall₂_mapIdx fun i item hitem =>
      ⟨(hstep i item hitem).1.vless, (hstep i item hitem).2⟩)

theorem addClient_again (h : addClient template clientID file = .ok updated)
    (template' : VLESSServerTemplate) :
    addClient template' clientID (updated.or file) = .ok none := by
  have hagain : ∀ i, ∀ item' ∈ inboundsOf (updated.or file),
      (addToInbound template' clientID i item').2 = false := by
    intro i item' hitem'
    obtain ⟨j, item, hitem, rfl⟩ := mem_addClient_inbounds h hitem'
    obtain ⟨hframe, hentry⟩ := addToInbound_spec template clientID j (hfile.settings item hitem)
    have hsane : ∀ clients : List Json, (clients.map sanitizeClient).any hasEncryption = false := by
      intro clients
      rw [List.any_eq_false]
      intro client hclient
      obtain ⟨old, -, rfl⟩ := List.mem_map.mp hclient
      rw [hasEncryption_sanitizeClient]
      decide
    apply addToInbound_again
    · intro hv
      rw [hframe.vless] at hv
      obtain ⟨added, hnew, hadded⟩ := hentry hv
      rw [hnew, List.any_append, List.any_map]
      by_cases hid : (clientsIn item).any (hasID clientID)
      · have hold : (clientsIn item).any (hasID clientID ∘ sanitizeClient) := by
          simpa [hasID_sanitizeClient] using hid
        rw [hold, Bool.true_or]
      · rw [if_neg hid] at hadded
        obtain ⟨entry, rfl, -, hasid, -⟩ := hadded
        rw [List.any_cons, hasid, Bool.true_or, Bool.or_true]
    · intro hv
      rw [hframe.vless] at hv
      obtain ⟨added, hnew, hadded⟩ := hentry hv
      rw [hnew, List.any_append, hsane, Bool.false_or]
      by_cases hid : (clientsIn item).any (hasID clientID)
      · rw [if_pos hid] at hadded
        rw [hadded]
        rfl
      · rw [if_neg hid] at hadded
        obtain ⟨entry, rfl, -, -, henc⟩ := hadded
        rw [List.any_cons, henc, List.any_nil, Bool.or_false]
  exact rewriteInbounds_none (usable_added hfile h).inbounds hagain

theorem held_nowhere (hsame : ∀ i, ∀ hi : i < (inboundsOf file).length, (removeFromInbound clientID
      (inboundsOf file)[i]).2 = false) :
    ∀ clients ∈ clientLists file, clients.any (hasID clientID) = false := by
  intro clients hclients
  obtain ⟨item, hitem, rfl⟩ := List.mem_map.mp hclients
  obtain ⟨hmem, hv⟩ := List.mem_filter.mp hitem
  obtain ⟨i, hi, rfl⟩ := List.getElem_of_mem hmem
  exact removeFromInbound_unchanged clientID (hsame i hi) (hfile.settings _ hmem) hv

theorem removeClient_spec (h : removeClient clientID file = .ok updated) :
    SameElsewhere file (updated.or file) ∧
      List.Forall₂ (RemovedEntry clientID) (clientLists file) (clientLists (updated.or file)) := by
  rcases rewriteInbounds_cases h with ⟨rfl, hsame⟩ | ⟨hinbounds, hfields⟩
  · refine ⟨.refl file, ?_⟩
    apply List.forall₂_same.mpr
    intro clients hclients
    unfold RemovedEntry
    rw [filter_absent clientID (held_nowhere hfile hsame clients hclients)]
  · have hstep : ∀ item ∈ inboundsOf file, _ := fun item hitem =>
      removeFromInbound_spec clientID (hfile.settings item hitem)
    constructor
    · refine ⟨hfields, ?_⟩
      rw [hinbounds]
      exact forall₂_mapIdx fun _ item hitem => (hstep item hitem).1
    · unfold clientLists
      rw [hinbounds]
      refine listsOf_related (forall₂_mapIdx fun _ item hitem =>
        ⟨(hstep item hitem).1.vless, fun hv => ?_⟩)
      unfold RemovedEntry
      rw [(hstep item hitem).2 hv, List.map_map]
      exact List.map_congr_left fun client _ => sanitizeClient_idempotent client

theorem removeClient_lists (h : removeClient clientID file = .ok updated)
    (hheld : ∀ clients ∈ clientLists file, clients.any (hasID clientID)) :
    clientLists (updated.or file) = (clientLists file).map fun clients =>
      (clients.filter fun client => !hasID clientID client).map sanitizeClient := by
  rcases rewriteInbounds_cases h with ⟨rfl, hsame⟩ | ⟨hinbounds, -⟩
  · -- nothing was written, so there is no vless inbound
    have hempty : clientLists file = [] := by
      apply List.eq_nil_iff_forall_not_mem.mpr
      intro clients hclients
      have hid := hheld clients hclients
      rw [held_nowhere hfile hsame clients hclients] at hid
      cases hid
    rw [Option.none_or, hempty]
    rfl
  · unfold clientLists
    rw [hinbounds]
    apply forall₂_eq_map
    exact listsOf_related (forall₂_mapIdx fun _ item hitem =>
      ⟨(removeFromInbound_spec clientID (hfile.settings item hitem)).1.vless,
        (removeFromInbound_spec clientID (hfile.settings item hitem)).2⟩)

theorem lists_restored (h : addClient template clientID file = .ok updated)
    (habsent : ∀ clients ∈ clientLists file, clients.any (hasID clientID) = false) {updated'}
    (h' : removeClient clientID (updated.or file) = .ok updated') :
    clientLists (updated'.or (updated.or file)) =
      (clientLists file).map fun clients => clients.map sanitizeClient := by
  have hadded := (addClient_spec hfile h).2
  have hheld : ∀ {old new : List Json}, AddedEntry clientID old new →
      old.any (hasID clientID) = false →
      new.any (hasID clientID) ∧
        ((new.filter fun client => !hasID clientID client).map sanitizeClient) =
          old.map sanitizeClient := by
    rintro old new ⟨added, rfl, hadded⟩ hold
    rw [if_neg (Bool.eq_false_iff.mp hold)] at hadded
    obtain ⟨entry, rfl, -, hentry, -⟩ := hadded
    constructor
    · rw [List.any_append, List.any_cons, hentry, Bool.true_or, Bool.or_true]
    · rw [List.filter_append, filter_sanitized, filter_absent clientID hold,
        List.filter_cons_of_neg (by simp [hentry]), List.filter_nil, List.append_nil, List.map_map]
      exact List.map_congr_left fun client _ => sanitizeClient_idempotent client
  have hboth : (∀ clients ∈ clientLists (updated.or file), clients.any (hasID clientID)) ∧
      ((clientLists (updated.or file)).map fun clients =>
        (clients.filter fun client => !hasID clientID client).map sanitizeClient) =
        (clientLists file).map fun clients => clients.map sanitizeClient := by
    generalize clientLists file = lists at hadded habsent
    generalize clientLists (updated.or file) = lists' at hadded
    induction hadded with
    | nil => exact ⟨by simp, rfl⟩
    | cons hentry _ ih =>
      obtain ⟨hid, hsame⟩ := hheld hentry (habsent _ List.mem_cons_self)
      obtain ⟨hids, hsames⟩ :=
        ih fun clients hclients => habsent clients (List.mem_cons_of_mem _ hclients)
      refine ⟨List.forall_mem_cons.mpr ⟨hid, hids⟩, ?_⟩
      rw [List.map_cons, List.map_cons, hsame, hsames]
  rw [removeClient_lists (usable_added hfile h) h' hboth.1, hboth.2]

end File

/-- The ids are the old ones and, if it was absent, the new one; the old clients are the same
without their encryption. -/
def Added (clientID : String) (old new : List Json) : Prop :=
  new.map idOf = old.map idOf ++
      (if old.any (hasID clientID) then [] else [some (.str clientID)]) ∧
    new.take old.length = old.map sanitizeClient

theorem AddedEntry.added (h : AddedEntry clientID old new) :
    Added clientID old new := by
  obtain ⟨added, rfl, hadded⟩ := h
  have hids : (old.map sanitizeClient).map idOf = old.map idOf := by
    rw [List.map_map]
    exact List.map_congr_left fun client _ => idOf_sanitizeClient client
  refine ⟨?_, ?_⟩
  · rw [List.map_append, hids]
    by_cases hid : old.any (hasID clientID)
    · rw [if_pos hid] at hadded ⊢
      rw [hadded]
      rfl
    · rw [if_neg hid] at hadded ⊢
      obtain ⟨entry, rfl, hentry, -⟩ := hadded
      rw [List.map_singleton, hentry]
  · exact List.take_left' (List.length_map _)

section Commands

variable (cfg : Setup) (site : XrayStep → Stmt) (server : VPNServer)
  (template : VLESSServerTemplate) (clientID : String)

def fileAt (w : World) : Option Json := w.remote.xrayFiles server.id

theorem file_rewritten {port change w}
    (h : ((rewriteXrayConfig cfg site server port change).run w).1 = .ok ()) :
    ∃ updated, change (fileAt server w) = .ok updated ∧
      fileAt server ((rewriteXrayConfig cfg site server port change).run w).2 =
        updated.or (fileAt server w) := by
  obtain ⟨updated, hchange, hgoes⟩ := rewriteXrayConfig_ok cfg site server port w change h
  refine ⟨updated, hchange, ?_⟩
  rw [rewriteXrayConfig_run, hchange]
  cases updated with
  | none => rfl
  | some file =>
    dsimp only
    rw [if_pos (hgoes (by simp))]
    simp [fileAt, writeXrayFile]

/-- On a server that can be logged in to, adding and removing are operations on the client lists
and on nothing else. -/
theorem clients_are_sets (site' : XrayStep → Stmt) (template' : VLESSServerTemplate) {w : World}
    (hssh : server.sshPassword ≠ "") (hfile : Usable (fileAt server w)) :
    let add := addXrayClient cfg site server template clientID
    let remove := removeXrayClient cfg site' (some server) (some template') clientID
    let lists (w : World) := clientLists (fileAt server w)
    ((add.run w).1 = .ok () →
      SameElsewhere (fileAt server w) (fileAt server (add.run w).2) ∧
      List.Forall₂ (Added clientID) (lists w) (lists (add.run w).2) ∧
      ((addXrayClient cfg site' server template' clientID).run (add.run w).2).2 = (add.run w).2 ∧
      ((∀ clients ∈ lists w, clients.any (hasID clientID) = false) →
        (remove.run (add.run w).2).1 = .ok () →
        lists (remove.run (add.run w).2).2 =
          (lists w).map fun clients => clients.map sanitizeClient)) ∧
    ((remove.run w).1 = .ok () →
      SameElsewhere (fileAt server w) (fileAt server (remove.run w).2) ∧
      List.Forall₂ (RemovedEntry clientID) (lists w) (lists (remove.run w).2)) := by
  intro add remove lists
  have hadd : add = _ := addXrayClient_reachable cfg site server template clientID hssh
  have hremove : remove = _ := removeXrayClient_configured cfg site' clientID hssh template'
  constructor
  · intro hok
    rw [hadd] at hok ⊢
    obtain ⟨updated, hchange, hnew⟩ := file_rewritten cfg site server hok
    obtain ⟨hsame, hlists⟩ := addClient_spec hfile hchange
    refine ⟨hnew ▸ hsame, ?_, ?_, ?_⟩
    · show List.Forall₂ _ _ (clientLists _)
      rw [hnew]
      exact hlists.imp fun _ _ h => h.added
    · have hagain := addClient_again hfile hchange template'
      rw [← hnew, fileAt] at hagain
      rw [addXrayClient_reachable cfg site' server template' clientID hssh, rewriteXrayConfig_run,
        hagain]
    · intro habsent hok'
      rw [hremove] at hok' ⊢
      obtain ⟨updated', hchange', hnew'⟩ := file_rewritten cfg site' server hok'
      show clientLists _ = _
      rw [hnew] at hchange' hnew'
      rw [hnew']
      exact lists_restored hfile hchange habsent hchange'
  · intro hok
    rw [hremove] at hok ⊢
    obtain ⟨updated, hchange, hnew⟩ := file_rewritten cfg site' server hok
    obtain ⟨hsame, hlists⟩ := removeClient_spec hfile hchange
    refine ⟨hnew ▸ hsame, ?_⟩
    show List.Forall₂ _ _ (clientLists _)
    rw [hnew]
    exact hlists

end Commands

open XrayClients (xrayServer realityTemplate xrayWorld)

def bob : Json := .obj [("id", .str "bob"), ("flow", .str "xtls-rprx-vision")]

/-- The file of a node that has one client. -/
def bobWorld : World := { xrayWorld with
  remote := { xrayWorld.remote with xrayFiles := fun _ => some (.obj
    [("inbounds", .arr [.obj [("protocol", .str "vless"), ("settings", .obj
      [("clients", .arr [bob])])]])]) } }

def addAlice (server : VPNServer) : Handler (Except RemoteError Unit) :=
  addXrayClient (.standard "") (.addClient 1 "alice") server realityTemplate "alice"

theorem usable_bobWorld (server : VPNServer) : Usable (fileAt server bobWorld) := by
  refine ⟨by simp [fileAt, bobWorld, inboundsOf, bindMap, lookup, asArr, asArr?], ?_⟩
  intro item hitem _
  obtain rfl := List.mem_singleton.mp hitem
  exact ⟨_, rfl⟩

/-- A client that is added to the list of another and removed again. -/
theorem alice_comes_and_goes :
    List.Forall₂ (Added "alice") (clientLists (fileAt xrayServer bobWorld))
        (clientLists (fileAt xrayServer ((addAlice xrayServer).run bobWorld).2)) ∧
      clientLists (fileAt xrayServer ((removeXrayClient (.standard "") (.dropClient 1 "alice")
        (some xrayServer) (some realityTemplate) "alice").run
          ((addAlice xrayServer).run bobWorld).2).2) = [[bob]] := by
  obtain ⟨-, hlists, -, hback⟩ := (clients_are_sets (.standard "") (.addClient 1 "alice") xrayServer
    realityTemplate "alice" (.dropClient 1 "alice") realityTemplate (by decide)
    (usable_bobWorld xrayServer)).1 rfl
  refine ⟨hlists, hback ?_ rfl⟩
  intro clients hclients
  obtain rfl := List.mem_singleton.mp hclients
  rfl

/-- Without a password the call returns nil and the list stays as it is. -/
theorem unreachable_server_keeps_lists :
    let server := { xrayServer with sshPassword := "" }
    ((addAlice server).run bobWorld).1 = .ok () ∧
      Usable (fileAt server bobWorld) ∧
      ¬ List.Forall₂ (Added "alice") (clientLists (fileAt server bobWorld))
        (clientLists (fileAt server ((addAlice server).run bobWorld).2)) := by
  refine ⟨rfl, usable_bobWorld _, ?_⟩
  rintro (_ | ⟨hadded, -⟩)
  exact absurd (congrArg List.length hadded.1) (by decide)

end ClientLists

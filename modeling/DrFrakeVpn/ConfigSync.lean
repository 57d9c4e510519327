import DrFrakeVpn.ClientServers
import DrFrakeVpn.KeyedSlots

/-! # Bringing the servers in line with a response

Configs of hosts that are in the list replace the servers there, other configs are appended, and
the FBLink servers that got none are removed, by their indices in the list as it was before. -/
namespace ConfigSync

open GoValues ClientServers KeyedSlots List

/-- What is taken from elsewhere: the texts of the library, the reader of a config and its
checksum, and what is known of the subscription. -/
structure Env where
  qt : QtText
  extractConfigFromData : String → Option QJsonObject
  qChecksum : QJsonObject → ℕ
  allowedProtocols : List String
  subscriptionPlan : String

variable (env : Env)

/-- An item of `configs`: the config, or an object with it. -/
def configString? : Json → Option String
  | .str s => some s
  | .obj fields => (lookup fields "config").map fun v => stringOf (some v)
  | _ => none

def configStrings (obj : QJsonObject) : List String :=
  match obj "configs" with
  | some (.arr items) => items.filterMap configString?
  | _ =>
    match obj "config" with
    | some v => (split (stringOf (some v)) '\n').filter (· ≠ "")
    | none => []

def hostName (server : QJsonObject) : String := stringOf (server "hostName")

def defaultContainer (server : QJsonObject) : String := stringOf (server "defaultContainer")

/-- `servers.at(i).toObject()`. -/
def serverAt (servers : List QJsonObject) (i : ℕ) : QJsonObject := servers.getD i fun _ => none

/-- The config's own description, or one made of the region or the host. -/
def descriptionOf (region : String) (config : QJsonObject) : String :=
  if stringOf (config "description") ≠ "" then stringOf (config "description")
  else if region ≠ "" then "FBLink VPN - " ++ region
  else "FBLink VPN - " ++ hostName config

def countryCodeOf (config : QJsonObject) : String :=
  env.qt.toUpper (stringOf (config "country_code"))

def tagged (description countryCode : String) (server : QJsonObject) : QJsonObject :=
  let server := (server.set "description" (.str description)).set "fblink_server" (.bool true)
  if countryCode ≠ "" then server.set "server_country_code" (.str countryCode) else server

/-- `ServerCredentials::isValid`. -/
def hasCredentials (config : QJsonObject) : Bool :=
  hostName config ≠ "" && stringOf (config "userName") ≠ "" && stringOf (config "password") ≠ "" &&
    0 < intOf 0 (config "port")

def isServerFromApiAlreadyExists (servers : List QJsonObject) (crc : ℕ) : Bool :=
  servers.any fun server => intOf 0 (server "crc") % 2 ^ 16 = crc

def importConfig (c : Client) (config : QJsonObject) : Client :=
  if hasCredentials config || (config "containers").isSome then c.addServer config
  else if (config "config_version").isSome then
    let crc := env.qChecksum config
    if isServerFromApiAlreadyExists c.servers crc then c
    else c.addServer (config.set "crc" (.num crc))
  else c

structure Sync where
  client : Client
  updatedIndices : List ℕ

def existingFBLinkServerIndices (servers : List QJsonObject) : List ℕ :=
  (range servers.length).filter fun i => isFBLinkServer (serverAt servers i)

/-- `servers` and `existing` are those from before the first config. -/
def syncConfig (region : String) (servers : List QJsonObject) (existing : List ℕ) (st : Sync)
    (configData : String) : Sync :=
  match env.extractConfigFromData configData with
  | none => st
  | some newConfig =>
    let tag := tagged (descriptionOf region newConfig) (countryCodeOf env newConfig)
    let found := existing.find? fun i =>
      !st.updatedIndices.contains i && hostName (serverAt servers i) == hostName newConfig
    match found with
    | some i => ⟨st.client.editServer (tag newConfig) i, st.updatedIndices ++ [i]⟩
    | none =>
      let imported := importConfig env st.client newConfig
      if st.client.servers.length < imported.servers.length then
        let newIdx := imported.servers.length - 1
        { st with client := imported.editServer (tag (serverAt imported.servers newIdx)) newIdx }
      else { st with client := imported }

/-- From the last index to the first one, so that removing does not move those still to come. -/
def removeStale (existing updated : List ℕ) (c : Client) : Client :=
  existing.foldr (fun i c => if updated.contains i then c else c.removeServer i) c

def selectedServer (c : Client) : Option QJsonObject :=
  (c.server? c.defaultServerIndex).filter isFBLinkServer

def selectedFBLinkHostName (c : Client) : String :=
  match selectedServer c with
  | some server => if hostName server ≠ "" then hostName server else c.lastSelectedFBLinkHostName
  | none => c.lastSelectedFBLinkHostName

def selectedFBLinkContainer (c : Client) : String :=
  match selectedServer c with
  | some server => defaultContainer server
  | none => ""

def remember (c : Client) (server : QJsonObject) : Client :=
  if isFBLinkServer server ∧ hostName server ≠ "" then
    c.rememberSelected (hostName server) (selectedId server (hostName server))
  else c

def rememberDefault (c : Client) : Client :=
  match selectedServer c with
  | some server => remember c server
  | none => c

def preferredContainer : String :=
  if env.allowedProtocols.any (env.qt.same · "vless") ||
      env.allowedProtocols.any (env.qt.same · "xray")
    || env.qt.same env.subscriptionPlan "vip" then "fblink-xray"
  else "fblink-awg"

def offers (container : String) (server : QJsonObject) : Bool :=
  env.qt.same (defaultContainer server) container || serverHasContainer env.qt server container

def findPreferred (servers : List QJsonObject) : Option ℕ :=
  servers.findIdx? fun server => isFBLinkServer server && offers env (preferredContainer env) server

def usePreferred (c : Client) : Client :=
  match findPreferred env c.servers with
  | some i =>
    let server := serverAt c.servers i
    if env.qt.same (defaultContainer server) (preferredContainer env) then c
    else c.editServer (server.set "defaultContainer" (.str (preferredContainer env))) i
  | none => c

def containerToApply (fallbackContainer : String) (server : QJsonObject) : String :=
  if preferredContainer env ≠ "" ∧ serverHasContainer env.qt server (preferredContainer env) then
    preferredContainer env
  else if fallbackContainer ≠ "" ∧ serverHasContainer env.qt server fallbackContainer then
    fallbackContainer
  else ""

def reconcileServerDefaultContainer (c : Client) (serverIndex : ℕ) (fallbackContainer : String) :
    Client :=
  let server := serverAt c.servers serverIndex
  let container := containerToApply env fallbackContainer server
  if container = "" ∨ env.qt.same (defaultContainer server) container then c
  else c.editServer (server.set "defaultContainer" (.str container)) serverIndex

def select (c : Client) (i : ℕ) : Client :=
  remember ((c.setDefaultServerIndex i).setProcessedServerIndex i) (serverAt c.servers i)

def chooseDefault (selectedHost selectedContainer : String) (c : Client) : Client :=
  match findFBLinkServerIndexByHostName env.qt c.servers selectedHost with
  | some i =>
    select (reconcileServerDefaultContainer env (usePreferred env c) i selectedContainer) i
  | none =>
    match findPreferred env c.servers with
    | some i => select (usePreferred env c) i
    | none => c

def syncConfigs (obj : QJsonObject) (c : Client) : Sync :=
  (configStrings obj).foldl (syncConfig env (stringOf (obj "region")) c.servers
    (existingFBLinkServerIndices c.servers)) ⟨rememberDefault c, []⟩

def syncServers (obj : QJsonObject) (c : Client) : Client :=
  let st := syncConfigs env obj c
  chooseDefault env (selectedFBLinkHostName c) (selectedFBLinkContainer c)
    (removeStale (existingFBLinkServerIndices c.servers) st.updatedIndices st.client)

variable {env} {server : QJsonObject}

theorem tagged_other {description countryCode k} (hd : k ≠ "description") (hf : k ≠ "fblink_server")
    (hc : k ≠ "server_country_code") : tagged description countryCode server k = server k := by
  unfold tagged
  split
  · rw [set_other hc, set_other hf, set_other hd]
  · rw [set_other hf, set_other hd]

theorem isFBLinkServer_tagged :
    isFBLinkServer (tagged description countryCode server) := by
  have hmark : tagged description countryCode server "fblink_server" = some (.bool true) := by
    unfold tagged
    split
    · rw [set_other (by decide), set_same]
    · rw [set_same]
  unfold isFBLinkServer
  rw [hmark, boolOf, Bool.or_true]

structure ComesFrom (server config : QJsonObject) : Prop where
  fblink : isFBLinkServer server = true
  hostName : server "hostName" = config "hostName"
  containers : server "containers" = config "containers"
  defaultContainer : server "defaultContainer" = config "defaultContainer"

variable {config : QJsonObject}

theorem comesFrom_tagged
    (hhost : server "hostName" = config "hostName")
    (hcontainers : server "containers" = config "containers")
    (hdefault : server "defaultContainer" = config "defaultContainer") :
    ComesFrom (tagged description countryCode server) config := by
  refine ⟨isFBLinkServer_tagged, ?_, ?_, ?_⟩
  · rw [tagged_other (by decide) (by decide) (by decide), hhost]
  · rw [tagged_other (by decide) (by decide) (by decide), hcontainers]
  · rw [tagged_other (by decide) (by decide) (by decide), hdefault]

variable (env) in
def fresh (region : String) (config : QJsonObject) : QJsonObject :=
  tagged (descriptionOf region config) (countryCodeOf env config) config

variable (region : String)

theorem fresh_comesFrom (config : QJsonObject) :
    ComesFrom (fresh env region config) config := comesFrom_tagged rfl rfl rfl

def key (server : QJsonObject) : Option String :=
  if isFBLinkServer server then some (hostName server) else none

theorem key_eq_none_iff : key server = none ↔ isFBLinkServer server = false := by
  unfold key
  split <;> simp_all

theorem key_eq_some_iff :
    key server = some host ↔ isFBLinkServer server ∧ hostName server = host := by
  unfold key
  split <;> simp_all

theorem ComesFrom.key_eq (h : ComesFrom server config) :
    key server = some (ConfigSync.hostName config) :=
  key_eq_some_iff.mpr ⟨h.fblink, congrArg stringOf h.hostName⟩

theorem key_fresh (config : QJsonObject) :
    key (fresh env region config) = some (hostName config) := (fresh_comesFrom region config).key_eq

theorem importConfig_cases (c : Client) (config : QJsonObject) :
    importConfig env c config = c ∧ (config "containers").isSome = false ∨
    (∃ crc, importConfig env c config = c.addServer (config.set "crc" crc) ∧
      (config "containers").isSome = false) ∨
    importConfig env c config = c.addServer config := by
  unfold importConfig
  split
  · exact .inr (.inr rfl)
  · rename_i hneither
    have hcontainers : (config "containers").isSome = false := by
      simp only [Bool.or_eq_true, not_or, Bool.not_eq_true] at hneither
      exact hneither.2
    split
    · dsimp only
      split
      · exact .inl ⟨rfl, hcontainers⟩
      · exact .inr (.inl ⟨_, rfl, hcontainers⟩)
    · exact .inl ⟨rfl, hcontainers⟩

theorem editServer_last (c : Client) (server : QJsonObject) :
    (c.addServer server).editServer edited c.servers.length = c.addServer edited := by
  unfold Client.editServer Client.addServer
  rw [set_append_right _ _ (Nat.le_refl _), Nat.sub_self]
  rfl

def current (s : Slot QJsonObject) : QJsonObject := s.2.getD s.1

structure Aligned (start : Client) (st : Sync) (slots : List (Slot QJsonObject))
    (added : List QJsonObject) : Prop where
  client : st.client = { start with servers := slots.map current ++ added }
  originals : slots.map Prod.fst = start.servers
  updated : ∀ i s, slots[i]? = some s → st.updatedIndices.contains i = s.2.isSome

theorem aligned_start (start : Client) :
    Aligned start ⟨start, []⟩ (start.servers.map fun a => (a, none)) [] := by
  refine ⟨?_, ?_, ?_⟩
  · rw [map_map, append_nil]
    exact congrArg (fun servers => { start with servers := servers }) (map_id start.servers).symm
  · rw [map_map]
    exact map_id _
  · intro i s hs
    rw [getElem?_map] at hs
    obtain ⟨a, -, rfl⟩ := Option.map_eq_some_iff.mp hs
    rfl

theorem find_range_eq_findIdx {α : Type} {l : List α} {p q}
    (h : ∀ i a, l[i]? = some a → p i = q a) : (range l.length).find? p = l.findIdx? q := by
  cases hfind : l.findIdx? q with
  | none =>
    rw [findIdx?_eq_none_iff] at hfind
    refine find?_eq_none.mpr fun i hi => ?_
    have hget := getElem?_eq_getElem (mem_range.mp hi)
    rw [h i _ hget, hfind _ (mem_of_getElem? hget)]
    exact Bool.false_ne_true
  | some i =>
    obtain ⟨hi, hq, hbefore⟩ := findIdx?_eq_some_iff_getElem.mp hfind
    refine find?_range_eq_some.mpr ⟨?_, mem_range.mpr hi, fun j hj => ?_⟩
    · rw [h i _ (getElem?_eq_getElem hi), hq]
    · rw [h j _ (getElem?_eq_getElem (hj.trans hi))]
      simpa using hbefore j hj

variable {i : ℕ}

theorem serverAt_eq (h : servers[i]? = some server) : serverAt servers i = server := by
  unfold serverAt
  rw [getD_eq_getElem?_getD, h, Option.getD_some]

variable {slots : List (Slot QJsonObject)} {added : List QJsonObject} {start : Client} {st : Sync}

theorem find_existing (h : Aligned start st slots added) :
    ((existingFBLinkServerIndices start.servers).find? fun i =>
      !st.updatedIndices.contains i && hostName (serverAt start.servers i) == host) =
    slots.findIdx? fun s => key s.1 = some host ∧ s.2.isNone := by
  have hlen : start.servers.length = slots.length := by rw [← h.originals, length_map]
  unfold existingFBLinkServerIndices
  rw [find?_filter, hlen]
  refine find_range_eq_findIdx fun i s hs => ?_
  have hserver : serverAt start.servers i = s.1 := by
    apply serverAt_eq
    rw [← h.originals, getElem?_map, hs]
    rfl
  rw [hserver, h.updated i s hs, Bool.eq_iff_iff]
  simp only [key_eq_some_iff]
  cases s.2 <;> simp

theorem map_current_modify :
    (slots.modify i fun s => (s.1, some b)).map current = (slots.map current).set i b := by
  refine ext_getElem? fun j => ?_
  by_cases hj : i = j
  · subst hj
    by_cases hi : i < slots.length
    · simp [hi, current]
    · simp [hi]
  · simp [hj]

theorem aligned_edit (h : Aligned start st slots added) (hi : i < slots.length) :
    Aligned start ⟨st.client.editServer b i, st.updatedIndices ++ [i]⟩
      (slots.modify i fun s => (s.1, some b)) added := by
  refine ⟨?_, ?_, ?_⟩
  · rw [h.client, map_current_modify]
    unfold Client.editServer
    rw [set_append_left _ _ (by rwa [length_map])]
  · rw [← h.originals]
    refine ext_getElem? fun j => ?_
    rw [getElem?_map, getElem?_modify, getElem?_map]
    cases slots[j]? with
    | none => rfl
    | some s => by_cases hj : i = j <;> simp [hj]
  · intro j s hs
    rw [getElem?_modify] at hs
    obtain ⟨s', hs', rfl⟩ := Option.map_eq_some_iff.mp hs
    have hold := h.updated j s' hs'
    by_cases hj : i = j
    · simp [hj]
    · simp [hj, Ne.symm hj, ← hold]

theorem aligned_add (h : Aligned start st slots added) :
    Aligned start { st with client := st.client.addServer b } slots (added ++ [b]) := by
  refine ⟨?_, h.originals, h.updated⟩
  rw [h.client, ← append_assoc]
  rfl

/-- What one config does: it takes the first free slot of its host, or a server that comes from it
is appended; only a config without containers may be left out. -/
theorem syncConfig_step (h : Aligned start st slots added) {data}
    (hdata : env.extractConfigFromData data = some config) (region : String) {st'}
    (hst : syncConfig env region start.servers (existingFBLinkServerIndices start.servers) st
      data = st') :
    (∃ slots', place key (fresh env region config) slots = some slots' ∧
      Aligned start st' slots' added) ∨
    place key (fresh env region config) slots = none ∧
      ∃ new, Aligned start st' slots (added ++ new) ∧ (∀ s ∈ new, ComesFrom s config) ∧
        ((config "containers").isSome → new = [fresh env region config]) := by
  unfold syncConfig at hst
  rw [hdata] at hst
  simp only [find_existing h] at hst
  rw [place_eq, key_fresh]
  cases hfound : slots.findIdx? fun s => key s.1 = some (hostName config) ∧ s.2.isNone with
  | some i =>
    rw [hfound] at hst
    have hi := (findIdx?_eq_some_iff_getElem.mp hfound).1
    exact .inl ⟨_, rfl, hst ▸ aligned_edit h hi⟩
  | none =>
    rw [hfound] at hst
    -- the server that was appended is marked at its index
    have hmarked : ∀ s, importConfig env st.client config = st.client.addServer s →
        st' = ⟨st.client.addServer
          (tagged (descriptionOf region config) (countryCodeOf env config) s),
          st.updatedIndices⟩ := by
      intro s hs
      have hat : serverAt (st.client.servers ++ [s]) st.client.servers.length = s :=
        serverAt_eq (by simp)
      rw [← hst, hs]
      simp only [Client.addServer, length_append, length_singleton, Nat.lt_succ_self,
        if_true, Nat.add_sub_cancel, hat]
      exact congrArg (fun client => ({ st with client := client } : Sync))
        (editServer_last st.client s)
    refine .inr ⟨rfl, ?_⟩
    rcases importConfig_cases st.client config with ⟨hkeep, hnone⟩ | ⟨crc, hadd, hnone⟩ | hadd
    · refine ⟨[], ?_, nofun, fun hsome => absurd hsome (by rw [hnone]; exact Bool.false_ne_true)⟩
      rw [append_nil, ← hst, hkeep]
      simp only [Nat.lt_irrefl, if_false]
      exact h
    · refine ⟨_, hmarked _ hadd ▸ aligned_add h, fun s hs => ?_,
        fun hsome => absurd hsome (by rw [hnone]; exact Bool.false_ne_true)⟩
      rw [mem_singleton.mp hs]
      exact comesFrom_tagged (set_other (by decide)) (set_other (by decide))
        (set_other (by decide))
    · refine ⟨_, hmarked _ hadd ▸ aligned_add h, fun s hs => ?_, fun _ => rfl⟩
      rw [mem_singleton.mp hs]
      exact fresh_comesFrom region config

variable (env) in
def configsOf (obj : QJsonObject) : List QJsonObject :=
  (configStrings obj).filterMap env.extractConfigFromData

variable (env) in
theorem syncConfig_foldl (start : Client) (region : String) (datas : List String)
    (abs : List (Slot QJsonObject) × List QJsonObject) (h : Aligned start st abs.1 added) :
    ∃ new, Aligned start
        (datas.foldl (syncConfig env region start.servers
          (existingFBLinkServerIndices start.servers)) st)
        (((datas.filterMap env.extractConfigFromData).map (fresh env region)).foldl (put key) abs).1
        (added ++ new) ∧
      (∀ s ∈ new, ∃ config ∈ datas.filterMap env.extractConfigFromData, ComesFrom s config) ∧
      ((∀ config ∈ datas.filterMap env.extractConfigFromData, (config "containers").isSome) →
        (((datas.filterMap env.extractConfigFromData).map (fresh env region)).foldl
          (put key) abs).2 = abs.2 ++ new) := by
  induction datas generalizing st abs added with
  | nil => exact ⟨[], by rw [append_nil]; exact h, nofun, fun _ => (append_nil _).symm⟩
  | cons data datas ih =>
    rw [foldl_cons]
    cases hdata : env.extractConfigFromData data with
    | none =>
      rw [filterMap_cons_none hdata]
      have hskip : syncConfig env region start.servers
          (existingFBLinkServerIndices start.servers) st data = st := by
        unfold syncConfig
        rw [hdata]
      rw [hskip]
      exact ih abs h
    | some config =>
      rw [filterMap_cons_some hdata, map_cons, foldl_cons]
      rcases syncConfig_step h hdata region rfl with
        ⟨slots', hplace, haligned⟩ | ⟨hplace, new₀, haligned, hfrom₀, hnew₀⟩
      · have hput : put key abs (fresh env region config) = (slots', abs.2) := by
          unfold put
          rw [hplace]
        rw [hput]
        obtain ⟨new, hal, hfrom, hall⟩ := ih (slots', abs.2) haligned
        refine ⟨new, hal, fun s hs => ?_, fun hc => hall fun config' hm => ?_⟩
        · obtain ⟨config', hmem, hcomes⟩ := hfrom s hs
          exact ⟨config', mem_cons_of_mem _ hmem, hcomes⟩
        · exact hc config' (mem_cons_of_mem _ hm)
      · have hput : put key abs (fresh env region config) =
            (abs.1, abs.2 ++ [fresh env region config]) := by
          unfold put
          rw [hplace]
        rw [hput]
        obtain ⟨new, hal, hfrom, hall⟩ := ih (abs.1, abs.2 ++ [fresh env region config]) haligned
        refine ⟨new₀ ++ new, by rw [← append_assoc]; exact hal, fun s hs => ?_, fun hc => ?_⟩
        · rcases mem_append.mp hs with hs | hs
          · exact ⟨config, mem_cons_self, hfrom₀ s hs⟩
          · obtain ⟨config', hmem, hcomes⟩ := hfrom s hs
            exact ⟨config', mem_cons_of_mem _ hmem, hcomes⟩
        · rw [hall fun config' hm => hc config' (mem_cons_of_mem _ hm),
            hnew₀ (hc config mem_cons_self), append_assoc]

theorem rememberDefault_servers (c : Client) : (rememberDefault c).servers = c.servers := by
  unfold rememberDefault remember
  split
  · split <;> rfl
  · rfl

variable (env) in
def freshServers (obj : QJsonObject) : List QJsonObject :=
  (configsOf env obj).map (fresh env (stringOf (obj "region")))

variable (obj : QJsonObject)

theorem freshServers_keyed : ∀ b ∈ freshServers env obj, (key b).isSome := by
  intro b hb
  obtain ⟨config, -, rfl⟩ := mem_map.mp hb
  rw [key_fresh]
  rfl

variable (env) in
/-- After all configs: the slots are those of the general algorithm, and what was appended comes
from configs; with containers in every config it is what the general algorithm adds. -/
theorem syncConfigs_aligned (c : Client) :
    ∃ added, Aligned (rememberDefault c) (syncConfigs env obj c)
        (filled key c.servers (freshServers env obj)).1 added ∧
      (∀ s ∈ added, ∃ config ∈ configsOf env obj, ComesFrom s config) ∧
      ((∀ config ∈ configsOf env obj, (config "containers").isSome) →
        added = (filled key c.servers (freshServers env obj)).2) := by
  have hstart := aligned_start (rememberDefault c)
  obtain ⟨new, hal, hfrom, hall⟩ := syncConfig_foldl env (rememberDefault c)
    (stringOf (obj "region")) (configStrings obj) (c.servers.map fun a => (a, none), [])
    (rememberDefault_servers c ▸ hstart)
  rw [rememberDefault_servers] at hal
  exact ⟨new, hal, hfrom, fun hc => (hall hc).symm⟩

theorem existing_snoc (servers : List QJsonObject) (server : QJsonObject) :
    existingFBLinkServerIndices (servers ++ [server]) = existingFBLinkServerIndices servers ++
      (if isFBLinkServer server then [servers.length] else []) := by
  unfold existingFBLinkServerIndices
  rw [length_append, length_singleton, range_succ, filter_append]
  congr 1
  · refine filter_congr fun i hi => ?_
    have hsame : serverAt (servers ++ [server]) i = serverAt servers i := by
      simp [serverAt, getElem?_append_left (mem_range.mp hi)]
    rw [hsame]
  · have hlast : serverAt (servers ++ [server]) servers.length = server := serverAt_eq (by simp)
    rw [filter_singleton, hlast, cond_eq_ite]

theorem removeServer_servers (c : Client) (i : ℕ) :
    (c.removeServer i).servers = c.servers.eraseIdx i := by
  unfold Client.removeServer Client.setProcessedServerIndex Client.setDefaultServerIndex
  dsimp only
  split_ifs <;> rfl

theorem removeServer_remembered (c : Client) :
    (c.removeServer i).lastSelectedFBLinkHostName = c.lastSelectedFBLinkHostName := by
  unfold Client.removeServer Client.setProcessedServerIndex Client.setDefaultServerIndex
  dsimp only
  split_ifs <;> rfl

variable {c : Client}

theorem removeServer_default (hne : c.servers.eraseIdx i ≠ []) :
    (c.removeServer i).defaultServerIndex =
      if c.defaultServerIndex = i then 0
      else if (i : ℤ) < c.defaultServerIndex then c.defaultServerIndex - 1
      else c.defaultServerIndex := by
  have hlen : (c.servers.eraseIdx i).length ≠ 0 := fun h => hne (eq_nil_of_length_eq_zero h)
  unfold Client.removeServer Client.setProcessedServerIndex Client.setDefaultServerIndex
  dsimp only
  split_ifs <;> rfl

theorem removeServer_default_empty (hempty : c.servers.eraseIdx i = []) :
    (c.removeServer i).defaultServerIndex = -1 := by
  have hlen : (c.servers.eraseIdx i).length = 0 := by rw [hempty, length_nil]
  unfold Client.removeServer Client.setProcessedServerIndex Client.setDefaultServerIndex
  dsimp only
  split_ifs <;> rfl

variable {s : Slot QJsonObject}

theorem survivor_stays (h : isFBLinkServer s.1 → s.2.isSome) :
    s.survivor key = some (current s) := by
  obtain ⟨a, new⟩ := s
  cases new with
  | some b => rfl
  | none =>
    have hkey : key a = none := by
      rw [key_eq_none_iff]
      cases ha : isFBLinkServer a with
      | false => rfl
      | true => exact absurd (h ha) Bool.false_ne_true
    simp [Slot.survivor, current, hkey]

theorem survivor_goes (ha : isFBLinkServer s.1) (hnew : s.2 = none) :
    s.survivor key = none := by
  have hkey : (key s.1).isSome := by
    rw [key_eq_some_iff.mpr ⟨ha, rfl⟩]
    rfl
  simp [Slot.survivor, hnew, hkey]

/-- What the removal makes of the list and of the default index. -/
structure Removed (slots : List (Slot QJsonObject)) (rest : List QJsonObject) (c c' : Client) :
    Prop where
  servers : c'.servers = settled key slots ++ rest
  remembered : c'.lastSelectedFBLinkHostName = c.lastSelectedFBLinkHostName
  emptied : slots ≠ [] → c'.servers = [] → c'.defaultServerIndex = -1
  negative : slots = [] ∨ c'.servers ≠ [] → c.defaultServerIndex < 0 →
    c'.defaultServerIndex = c.defaultServerIndex
  kept : ∀ {i : ℕ} {s b}, c.defaultServerIndex = i → slots[i]? = some s → s.survivor key = some b →
    c'.defaultServerIndex = position key slots i
  gone : ∀ {i : ℕ} {s}, c.defaultServerIndex = i → slots[i]? = some s → s.survivor key = none →
    c'.servers ≠ [] → c'.defaultServerIndex = 0
  behind : ∀ {i : ℕ}, slots = [] ∨ c'.servers ≠ [] → c.defaultServerIndex = i → slots.length ≤ i →
    c'.defaultServerIndex = ((settled key slots).length + (i - slots.length) : ℕ)

theorem removed_nil (rest : List QJsonObject) (hservers : c.servers = rest) :
    Removed [] rest c c := by
  refine ⟨hservers, rfl, fun h => absurd rfl h, fun _ _ => rfl, nofun, nofun, fun _ hd _ => ?_⟩
  rw [hd]
  simp [settled]

variable {rest : List QJsonObject} {c' : Client}

theorem Removed.of_zero (h : Removed slots rest c c') (hd : c.defaultServerIndex = 0)
    (hne : c'.servers ≠ []) : c'.defaultServerIndex = 0 := by
  have hd0 := hd
  cases slots with
  | nil => exact h.behind (.inl rfl) hd0 (Nat.le_refl 0)
  | cons s slots =>
    cases hs : s.survivor key with
    | none => exact h.gone hd0 rfl hs hne
    | some b => exact h.kept hd0 rfl hs

theorem position_snoc (s : Slot QJsonObject) (hi : i ≤ slots.length) :
    position key (slots ++ [s]) i = position key slots i := by
  unfold position
  rw [take_append_of_le_length hi]

theorem getElem_snoc_cases (h : (slots ++ [s])[i]? = some t) :
    slots[i]? = some t ∧ i < slots.length ∨ i = slots.length ∧ t = s := by
  rcases Nat.lt_or_ge i slots.length with hi | hi
  · rw [getElem?_append_left hi] at h
    exact .inl ⟨h, hi⟩
  · rw [getElem?_append_right hi] at h
    obtain ⟨h0, hs⟩ := List.getElem?_eq_some_iff.mp h
    rw [length_singleton] at h0
    refine .inr ⟨by omega, ?_⟩
    rw [← hs, getElem_singleton]

theorem removed_stay (hs : s.survivor key = some (current s))
    (h : Removed slots (current s :: rest) c c') : Removed (slots ++ [s]) rest c c' := by
  have hsettled : settled key (slots ++ [s]) = settled key slots ++ [current s] := by
    simp [settled, hs]
  have hne : c'.servers ≠ [] := by simp [h.servers]
  refine ⟨?_, h.remembered, fun _ hnil => absurd hnil hne,
    fun _ => h.negative (.inr hne), ?_, ?_, ?_⟩
  · rw [hsettled, append_assoc]
    exact h.servers
  · intro i t b hd ht hb
    rcases getElem_snoc_cases ht with ⟨ht, hi⟩ | ⟨rfl, rfl⟩
    · rw [position_snoc s hi.le]
      exact h.kept hd ht hb
    · rw [position_snoc t (Nat.le_refl _), h.behind (.inr hne) hd (Nat.le_refl _), Nat.sub_self]
      unfold position
      rw [take_length]
      rfl
  · intro i t hd ht hnone
    rcases getElem_snoc_cases ht with ⟨ht, hi⟩ | ⟨-, rfl⟩
    · exact h.gone hd ht hnone
    · rw [hs] at hnone
      cases hnone
  · intro i _ hd hle
    rw [length_append, length_singleton] at hle
    rw [h.behind (.inr hne) hd (by omega), hsettled, length_append, length_append,
      length_singleton, length_singleton]
    congr 1
    omega

theorem removed_go (hs : s.survivor key = none)
    (hservers : c.servers = slots.map current ++ current s :: rest)
    (h : Removed slots rest (c.removeServer slots.length) c') :
    Removed (slots ++ [s]) rest c c' := by
  have hsettled : settled key (slots ++ [s]) = settled key slots := by
    simp [settled, hs]
  have herase : c.servers.eraseIdx slots.length = slots.map current ++ rest := by
    rw [hservers, eraseIdx_append_of_length_le (by rw [length_map]), length_map,
      Nat.sub_self]
    rfl
  have hrest : c'.servers ≠ [] → c.servers.eraseIdx slots.length ≠ [] := by
    refine fun hne hnil => hne ?_
    obtain ⟨hslots, rfl⟩ := append_eq_nil_iff.mp (herase ▸ hnil)
    rw [h.servers, map_eq_nil_iff.mp hslots]
    rfl
  have hsome : slots ++ [s] = [] ∨ c'.servers ≠ [] → c'.servers ≠ [] := by simp
  refine ⟨hsettled.symm ▸ h.servers, h.remembered.trans (removeServer_remembered c), ?_, ?_, ?_, ?_,
    ?_⟩
  · intro _ hnil
    by_cases hslots : slots = []
    · subst hslots
      have hmoved : (c.removeServer 0).defaultServerIndex = -1 :=
        removeServer_default_empty (herase.trans (h.servers.symm.trans hnil))
      exact (h.negative (.inl rfl) (by rw [length_nil, hmoved]; decide)).trans hmoved
    · exact h.emptied hslots hnil
  · intro hne hd
    have hsame := removeServer_default (hrest (hsome hne))
    rw [if_neg (by omega), if_neg (by omega)] at hsame
    rw [h.negative (.inr (hsome hne)) (by omega), hsame]
  · intro i t b hd ht hb
    rcases getElem_snoc_cases ht with ⟨ht, hi⟩ | ⟨-, rfl⟩
    · have hne : c'.servers ≠ [] := by
        rw [h.servers]
        exact append_ne_nil_of_left_ne_nil
          (ne_nil_of_mem (mem_filterMap.mpr ⟨t, mem_of_getElem? ht, hb⟩)) _
      rw [position_snoc s hi.le]
      refine h.kept ?_ ht hb
      rw [removeServer_default (hrest hne), if_neg (by omega), if_neg (by omega), hd]
    · rw [hs] at hb
      cases hb
  · intro i t hd ht hnone hne
    rcases getElem_snoc_cases ht with ⟨ht, hi⟩ | ⟨rfl, -⟩
    · refine h.gone ?_ ht hnone hne
      rw [removeServer_default (hrest hne), if_neg (by omega), if_neg (by omega), hd]
    · refine h.of_zero ?_ hne
      rw [removeServer_default (hrest hne), if_pos hd]
  · intro i hne hd hle
    rw [length_append, length_singleton] at hle
    have hmoved : (c.removeServer slots.length).defaultServerIndex = ((i - 1 : ℕ) : ℤ) := by
      rw [removeServer_default (hrest (hsome hne)), if_neg (by omega), if_pos (by omega), hd]
      omega
    rw [h.behind (.inr (hsome hne)) hmoved (by omega), hsettled, length_append, length_singleton]
    congr 1
    omega

theorem removeStale_removed
    (hservers : c.servers = slots.map current ++ rest)
    (hupdated : ∀ i s, slots[i]? = some s → updated.contains i = s.2.isSome) :
    Removed slots rest c
      (removeStale (existingFBLinkServerIndices (slots.map Prod.fst)) updated c) := by
  induction slots using reverseRecOn generalizing rest c with
  | nil => exact removed_nil rest hservers
  | append_singleton slots s ih =>
    have hlast : updated.contains slots.length = s.2.isSome := hupdated _ s (by simp)
    have hbefore : ∀ i t, slots[i]? = some t → updated.contains i = t.2.isSome := by
      intro i t ht
      refine hupdated i t ?_
      rw [getElem?_append_left (List.getElem?_eq_some_iff.mp ht).1]
      exact ht
    rw [map_append, map_singleton, append_assoc] at hservers
    rw [map_append, map_singleton, existing_snoc, length_map]
    unfold removeStale
    rw [foldr_append]
    by_cases hgo : isFBLinkServer s.1 ∧ s.2 = none
    · have hstep : (if isFBLinkServer s.1 then [slots.length] else []).foldr
          (fun i c => if updated.contains i then c else c.removeServer i) c =
            c.removeServer slots.length := by
        rw [if_pos hgo.1]
        show (if updated.contains slots.length then c else c.removeServer slots.length) = _
        rw [hlast, hgo.2]
        rfl
      rw [hstep]
      refine removed_go (survivor_goes hgo.1 hgo.2) hservers (ih ?_ hbefore)
      rw [removeServer_servers, hservers, eraseIdx_append_of_length_le (by rw [length_map]),
        length_map, Nat.sub_self]
      rfl
    · have hstay : isFBLinkServer s.1 → s.2.isSome := by
        intro ha
        exact Option.isSome_iff_ne_none.mpr fun hnone => hgo ⟨ha, hnone⟩
      have hstep : (if isFBLinkServer s.1 then [slots.length] else []).foldr
          (fun i c => if updated.contains i then c else c.removeServer i) c = c := by
        by_cases ha : isFBLinkServer s.1
        · rw [if_pos ha]
          show (if updated.contains slots.length then c else c.removeServer slots.length) = _
          rw [hlast, hstay ha]
          rfl
        · rw [if_neg ha]
          rfl
      rw [hstep]
      exact removed_stay (survivor_stays hstay) (ih hservers hbefore)

end ConfigSync

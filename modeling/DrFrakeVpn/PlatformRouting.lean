import DrFrakeVpn.VipConfig

/-! # Routing on the clients

Xray's choice of an outbound for a connection, and the configs that the desktop client and
the Android client derive from the delivered one before they start Xray. -/
namespace PlatformRouting

open GoValues VipConfig

inductive Network where
  | tcp
  | udp
  deriving DecidableEq, Repr

def Network.name : Network → String
  | .tcp => "tcp"
  | .udp => "udp"

/-- How Xray reads the texts of a rule: a domain expression against a host name, a CIDR or geo
list against an address, a list of ports against a port; and what it makes of the conditions on
where the traffic comes from and what is in it. -/
structure Matching where
  domain : String → String → Bool
  ip : String → String → Bool
  port : String → ℕ → Bool
  other : Fields → Bool

/-- The destination of a connection: a host name with the addresses it resolves to, or an
address. -/
inductive Destination where
  | host (name : String) (addresses : List String) (port : ℕ)
  | address (ip : String) (port : ℕ)

structure Target where
  name : Option String
  addresses : List String
  port : ℕ

def Destination.target : Destination → Target
  | .host name _ port => ⟨some name, [], port⟩
  | .address ip port => ⟨none, [ip], port⟩

def Destination.resolved : Destination → Target
  | .host name addresses port => ⟨some name, addresses, port⟩
  | .address ip port => ⟨none, [ip], port⟩

def Destination.isHost : Destination → Bool
  | .host .. => true
  | .address .. => false

def strings (v : Option Json) : List String := (asArr v).map fun item => asString (some item)

/-- A port or list of ports, as a text or as a number. -/
def portText : Option Json → String
  | some (.str s) => s
  | some (.num q) => if q.den = 1 then toString q.num else ""
  | _ => ""

/-- Networks with commas between them, or a list of them. -/
def networkNames : Option Json → List String
  | some (.str s) => if s = "" then [] else split s ','
  | v => strings v

def otherConditions : List String :=
  ["inboundTag", "source", "sourcePort", "user", "protocol", "attrs"]

section Semantics

variable (m : Matching) (network : Network)

/-- The conditions of a rule that are set, each with its answer for a target. -/
def conditions (rule : Fields) (t : Target) : List Bool :=
  (if strings (lookup rule "domain") = [] then [] else
    [(strings (lookup rule "domain")).any fun e => t.name.any (m.domain e)]) ++
  (if strings (lookup rule "ip") = [] then [] else
    [(strings (lookup rule "ip")).any fun c => t.addresses.any (m.ip c)]) ++
  (if networkNames (lookup rule "network") = [] then [] else
    [decide (network.name ∈ networkNames (lookup rule "network"))]) ++
  (if portText (lookup rule "port") = "" then [] else
    [m.port (portText (lookup rule "port")) t.port]) ++
  (if otherConditions.all fun key => (lookup rule key).isNone then [] else [m.other rule])

/-- A rule applies if all its conditions hold; one without conditions is no rule. -/
def applies (t : Target) (rule : Json) : Bool :=
  let answers := conditions m network (asMap (some rule)) t
  answers ≠ [] && answers.all id

def pick (rules : List Json) (t : Target) : Option String :=
  (rules.find? (applies m network t)).map fun rule =>
    asString (lookup (asMap (some rule)) "outboundTag")

def routingOf (config : Fields) : Fields := asMap (lookup config "routing")
def rulesOf (config : Fields) : List Json := asArr (lookup (routingOf config) "rules")
def outboundsOf (config : Fields) : List Json := asArr (lookup config "outbounds")
def tagOf (outbound : Json) : String := asString (lookup (asMap (some outbound)) "tag")

/-- The rules in order, by the domain strategy before or after the name is resolved. -/
def pickRoute (config : Fields) (d : Destination) : Option String :=
  let domainStrategy := asString (lookup (routingOf config) "domainStrategy")
  if domainStrategy = "IPOnDemand" then pick m network (rulesOf config) d.resolved
  else match pick m network (rulesOf config) d.target with
    | some tag => some tag
    | none => if domainStrategy = "IPIfNonMatch" && d.isHost then
        pick m network (rulesOf config) d.resolved else none

/-- The tag of the outbound that carries the connection; without a rule it is the first. -/
def route (config : Fields) (d : Destination) : Option String :=
  match pickRoute m network config d with
  | some tag => some tag
  | none => (outboundsOf config).head?.map tagOf

end Semantics

def kQuicBlockOutboundTag : String := "quic-block"

def pinAddress (hop? : Json → Option Fields) (sameText : String → String → Bool)
    (resolvedAddress : String) : List Json → Option (List Json)
  | [] => none
  | item :: rest =>
    let outbound := asMap (some item)
    let settings := asMap (lookup outbound "settings")
    let others := (pinAddress hop? sameText resolvedAddress rest).map (item :: ·)
    match asArr (lookup settings "vnext") with
    | [] => others
    | first :: hops =>
      match hop? first with
      | none => others
      | some firstHop =>
        if sameText (asString (lookup firstHop "address")) resolvedAddress then none
        else
          let firstHop := setField firstHop "address" (.str resolvedAddress)
          let settings := setField settings "vnext" (.arr (.obj firstHop :: hops))
          some (.obj (setField outbound "settings" (.obj settings)) :: rest)

def pinned (hop? : Json → Option Fields) (sameText : String → String → Bool)
    (config : Fields) (resolvedAddress : String) : Fields :=
  match pinAddress hop? sameText resolvedAddress (outboundsOf config) with
  | none => config
  | some outbounds => setField config "outbounds" (.arr outbounds)

def blockOutbound : Json :=
  .obj [("tag", .str kQuicBlockOutboundTag), ("protocol", .str "blackhole")]

def blockRule : Json :=
  .obj [("type", .str "field"), ("network", .str "udp"), ("port", .str "443"),
    ("outboundTag", .str kQuicBlockOutboundTag)]

def withBlockOutbound (config : Fields) : Fields :=
  if (outboundsOf config).any fun outbound => tagOf outbound = kQuicBlockOutboundTag then config
  else setField config "outbounds" (.arr (outboundsOf config ++ [blockOutbound]))

def withBlockRule (routing : Fields) : Fields :=
  let routing := setField routing "rules" (.arr (blockRule :: asArr (lookup routing "rules")))
  if (lookup routing "domainStrategy").isSome then routing
  else setField routing "domainStrategy" (.str "IPIfNonMatch")

/-- `ensureQuicBlocked` of both clients; they differ in how they read the port of a rule. -/
def quicBlocked (isBlockRule : Fields → Bool) (config : Fields) : Fields :=
  if (rulesOf config).any fun rule => isBlockRule (asMap (some rule)) then config
  else setField (withBlockOutbound config) "routing" (.obj (withBlockRule (routingOf config)))

inductive RouteMode where
  | vpnAllSites
  | vpnOnlyForwardSites
  | vpnAllExceptSites
  deriving DecidableEq, Repr

/-- The desktop a client runs on: its resolver, its network and its text comparison. -/
structure Desktop where
  linux : Bool
  getIPAddress : String → String
  sameText : String → String → Bool
  isTcpPortReachable : String → ℤ → Bool

/-- `QJsonValue::toInt`. -/
def intValue : Option Json → ℤ
  | some (.num q) => if q.den = 1 ∧ -2 ^ 31 ≤ q.num ∧ q.num < 2 ^ 31 then q.num else 0
  | _ => 0

def vnextOf (outbound : Json) : List Json :=
  asArr (lookup (asMap (lookup (asMap (some outbound)) "settings")) "vnext")

def transportOutboundIndex (config : Fields) : Option ℕ :=
  let outbounds := outboundsOf config
  match outbounds.findIdx? fun outbound => !(vnextOf outbound).isEmpty with
  | some i => some i
  | none => if outbounds.isEmpty then none else some 0

def reorderOutboundsToDefaultTag (config : Fields) (tag : String) : Fields :=
  if tag = "" then config
  else
    let outbounds := outboundsOf config
    if outbounds.length < 2 then config
    else match outbounds.findIdx? fun outbound => tagOf outbound = tag with
      | none => config
      | some 0 => config
      | some taggedIndex =>
        match outbounds[taggedIndex]? with
        | none => config
        | some preferredOutbound =>
          setField config "outbounds" (.arr (preferredOutbound :: outbounds.eraseIdx taggedIndex))

def splitRule (outboundTag : String) (item : Json) : Bool :=
  let rule := asMap (some item)
  asString (lookup rule "outboundTag") = outboundTag &&
    (!(asArr (lookup rule "domain")).isEmpty || !(asArr (lookup rule "domainSuffix")).isEmpty)

def preferredDefaultTag (rules : List Json) (routeMode : RouteMode) : String :=
  let hasDirectRules := rules.any (splitRule "direct")
  let hasProxyRules := rules.any (splitRule "proxy")
  if hasProxyRules && !hasDirectRules then "direct"
  else if hasDirectRules && !hasProxyRules then "proxy"
  else if hasProxyRules && hasDirectRules && routeMode = .vpnOnlyForwardSites then "direct"
  else "proxy"

def alignManagedRoutingDefaultOutbound (config : Fields) (routeMode : RouteMode) : Fields :=
  if (rulesOf config).isEmpty then config
  else reorderOutboundsToDefaultTag config (preferredDefaultTag (rulesOf config) routeMode)

section Desktop

variable (pc : Desktop)

def forceResolvedOutboundAddress (config : Fields) (resolvedAddress : String) : Fields :=
  if resolvedAddress = "" then config
  else pinned (fun v => some (asMap (some v))) pc.sameText config resolvedAddress

def withPort443 (outbound : Json) : Json :=
  let fields := asMap (some outbound)
  match vnextOf outbound with
  | [] => outbound
  | first :: hops =>
    let firstHop := setField (asMap (some first)) "port" (.num 443)
    let settings :=
      setField (asMap (lookup fields "settings")) "vnext" (.arr (.obj firstHop :: hops))
    .obj (setField fields "settings" (.obj settings))

def fallbackOutboundPortTo443 (config : Fields) (resolvedAddress : String) : Fields :=
  if resolvedAddress = "" then config
  else match transportOutboundIndex config with
    | none => config
    | some outboundIndex =>
      let outbounds := outboundsOf config
      match outbounds[outboundIndex]?.bind fun outbound => (vnextOf outbound).head? with
      | none => config
      | some firstHop =>
        let configuredPort := intValue (lookup (asMap (some firstHop)) "port")
        if configuredPort ≤ 0 then config
        -- The C++ passes the port on as a 16-bit number.
        else if pc.isTcpPortReachable resolvedAddress (configuredPort % 2 ^ 16) then config
        else if configuredPort = 443 then config
        else if !pc.isTcpPortReachable resolvedAddress 443 then config
        else setField config "outbounds" (.arr (outbounds.modify outboundIndex withPort443))

def isUdp443BlockRule (rule : Fields) : Bool :=
  if asString (lookup rule "network") ≠ "udp" then false
  else match lookup rule "port" with
    | some (.str port) => port = "443"
    | port => intValue port = 443

def sanitizeOutbound (item : Json) : Json :=
  let outbound := asMap (some item)
  let streamSettings := asMap (lookup outbound "streamSettings")
  let sockopt := asMap (lookup streamSettings "sockopt")
  let protocol := asString (lookup outbound "protocol")
  let tag := asString (lookup outbound "tag")
  let sockopt := if protocol = "vless" then
    setField (setField (setField sockopt "tcpFastOpen" (.bool true)) "tcpKeepAliveIdle" (.num 45))
      "tcpKeepAliveInterval" (.num 45) else sockopt
  let sockopt := if pc.linux && (protocol = "freedom" || tag = "direct") then
    setField sockopt "mark" (.num 0x3211) else sockopt
  if sockopt = [] then item
  else .obj (setField outbound "streamSettings"
    (.obj (setField streamSettings "sockopt" (.obj sockopt))))

def sanitizeInbounds (config : Fields) : Fields :=
  match asArr (lookup config "inbounds") with
  | [] => config
  | first :: rest =>
    let inbound := asMap (some first)
    let settings := setField (setField (asMap (lookup inbound "settings")) "auth" (.str "noauth"))
      "udp" (.bool true)
    setField config "inbounds" (.arr (.obj (setField inbound "settings" (.obj settings)) :: rest))

def sanitizeDesktopXrayConfig (config : Fields) : Fields :=
  let log := setField (asMap (lookup config "log")) "loglevel" (.str "warning")
  let config := sanitizeInbounds (setField config "log" (.obj log))
  let config := setField config "outbounds" (.arr ((outboundsOf config).map (sanitizeOutbound pc)))
  quicBlocked isUdp443BlockRule config

def xrayProtocolConfig (routeMode : RouteMode) (hostName : String) (config : Fields) : Fields :=
  let remoteAddress := pc.getIPAddress hostName
  let config := forceResolvedOutboundAddress pc config remoteAddress
  let config := alignManagedRoutingDefaultOutbound config routeMode
  let config := fallbackOutboundPortTo443 pc config remoteAddress
  sanitizeDesktopXrayConfig pc config

end Desktop

structure Android where
  parseInetAddress : String → String
  sameText : String → String → Bool

/-- `optString` gives a number as text. -/
def isUdp443Rule (rule : Fields) : Bool :=
  asString (lookup rule "network") = "udp" && portText (lookup rule "port") = "443"

def androidConfig (phone : Android) (hostName : String) (config : Fields) : Fields :=
  let log := setField (setField (asMap (lookup config "log")) "loglevel" (.str "warning"))
    "access" (.str "none")
  let config := setField config "log" (.obj log)
  let ipAddress := phone.parseInetAddress hostName
  let config := if hostName ≠ ipAddress then
    pinned (fun v => asMap? (some v)) phone.sameText config ipAddress else config
  quicBlocked isUdp443Rule config

variable (fields : Fields)

@[simp] theorem lookup_set_same :
    lookup (setField fields key v) key = some v := by
  rw [lookup_setField, if_pos rfl]

variable {key : String}

theorem lookup_set_other (h : k ≠ key) :
    lookup (setField fields key v) k = lookup fields k := by
  rw [lookup_setField, if_neg h]

/-- The same rules and strategy, and the same tags in the same order. -/
structure SameRouting (config config' : Fields) : Prop where
  routing : routingOf config' = routingOf config
  tags : (outboundsOf config').map tagOf = (outboundsOf config).map tagOf

theorem SameRouting.refl (config : Fields) : SameRouting config config := ⟨rfl, rfl⟩

theorem SameRouting.trans (h : SameRouting c c') (h' : SameRouting c' c'') :
    SameRouting c c'' :=
  ⟨h'.routing.trans h.routing, h'.tags.trans h.tags⟩

theorem SameRouting.rules (h : SameRouting c c') : rulesOf c' = rulesOf c := by
  rw [rulesOf, h.routing, rulesOf]

variable {config : Fields}

theorem SameRouting.of_set (v : Json) (hr : "routing" ≠ key) (ho : "outbounds" ≠ key) :
    SameRouting config (setField config key v) :=
  ⟨by rw [routingOf, lookup_set_other _ hr, routingOf],
    by rw [outboundsOf, lookup_set_other _ ho, outboundsOf]⟩

@[simp] theorem outbounds_set :
    outboundsOf (setField config "outbounds" (.arr outbounds)) = outbounds := by
  rw [outboundsOf, lookup_set_same]
  rfl

@[simp] theorem routing_set_outbounds (config : Fields) :
    routingOf (setField config "outbounds" v) = routingOf config := by
  rw [routingOf, lookup_set_other _ (by decide), routingOf]

theorem SameRouting.of_outbounds
    (h : outbounds.map tagOf = (outboundsOf config).map tagOf) :
    SameRouting config (setField config "outbounds" (.arr outbounds)) :=
  ⟨routing_set_outbounds config, by rw [outbounds_set, h]⟩

theorem tagOf_set (h : "tag" ≠ key) :
    tagOf (.obj (setField (asMap (some outbound)) key v)) = tagOf outbound := by
  show asString (lookup (setField (asMap (some outbound)) key v) "tag") = _
  rw [lookup_set_other _ h]
  rfl

theorem pinAddress_tags (hop? : Json → Option Fields) (sameText : String → String → Bool)
    (resolvedAddress : String) : ∀ {outbounds outbounds' : List Json},
    pinAddress hop? sameText resolvedAddress outbounds = some outbounds' →
    outbounds'.map tagOf = outbounds.map tagOf
  | [], _, h => by simp [pinAddress] at h
  | item :: rest, outbounds', h => by
    have hothers : (pinAddress hop? sameText resolvedAddress rest).map (item :: ·) =
        some outbounds' → outbounds'.map tagOf = (item :: rest).map tagOf := by
      intro hmap
      obtain ⟨rest', hrest, rfl⟩ := Option.map_eq_some_iff.mp hmap
      simp [pinAddress_tags hop? sameText resolvedAddress hrest]
    rw [pinAddress] at h
    split at h
    · exact hothers h
    split at h
    · exact hothers h
    · split at h
      · cases h
      · cases h
        simp [tagOf_set (show "tag" ≠ "settings" by decide)]

theorem pinned_same :
    SameRouting config (pinned hop? sameText config resolvedAddress) := by
  unfold pinned
  split
  · exact .refl config
  · next outbounds h => exact .of_outbounds (pinAddress_tags _ _ _ h)

theorem tagOf_withPort443 (outbound : Json) : tagOf (withPort443 outbound) = tagOf outbound := by
  unfold withPort443
  split
  · rfl
  · exact tagOf_set (by decide)

variable (pc : Desktop)

theorem tagOf_sanitizeOutbound (outbound : Json) :
    tagOf (sanitizeOutbound pc outbound) = tagOf outbound := by
  unfold sanitizeOutbound
  dsimp only
  generalize (if pc.linux && _ then _ else _ : Fields) = sockopt
  split
  · rfl
  · exact tagOf_set (by decide)

theorem map_tagOf_modify (hf : ∀ outbound, tagOf (f outbound) = tagOf outbound) :
    ∀ (outbounds : List Json) (i : ℕ), (outbounds.modify i f).map tagOf = outbounds.map tagOf
  | [], i => by simp
  | outbound :: rest, 0 => by simp [hf]
  | outbound :: rest, i + 1 => by simp [map_tagOf_modify hf rest i]

theorem fallback_same (config : Fields) (resolvedAddress : String) :
    SameRouting config (fallbackOutboundPortTo443 pc config resolvedAddress) := by
  have hset : ∀ i, SameRouting config
      (setField config "outbounds" (.arr ((outboundsOf config).modify i withPort443))) :=
    fun i => .of_outbounds (map_tagOf_modify tagOf_withPort443 _ i)
  unfold fallbackOutboundPortTo443
  split
  · exact .refl config
  split
  · exact .refl config
  dsimp only
  split
  · exact .refl config
  · split_ifs
    all_goals first | exact .refl config | exact hset _

theorem sanitizeInbounds_same : SameRouting config (sanitizeInbounds config) := by
  unfold sanitizeInbounds
  split
  · exact .refl config
  · exact .of_set _ (by decide) (by decide)

theorem sanitize_same (config : Fields) : ∃ config', SameRouting config config' ∧
    sanitizeDesktopXrayConfig pc config = quicBlocked isUdp443BlockRule config' := by
  have hlog : ∀ v, SameRouting config (setField config "log" v) :=
    fun v => .of_set v (by decide) (by decide)
  refine ⟨_, (hlog _).trans ((sanitizeInbounds_same).trans (.of_outbounds ?_)), rfl⟩
  rw [List.map_map]
  exact List.map_congr_left fun outbound _ => tagOf_sanitizeOutbound pc outbound

theorem reorder_routing (config : Fields) :
    routingOf (reorderOutboundsToDefaultTag config tag) = routingOf config := by
  unfold reorderOutboundsToDefaultTag
  split
  · rfl
  dsimp only
  split
  · rfl
  split
  · rfl
  · rfl
  · split
    · rfl
    · exact routing_set_outbounds config

theorem reorder_head (hne : tag ≠ "") (hmem : tag ∈ (outboundsOf config).map tagOf) :
    (outboundsOf (reorderOutboundsToDefaultTag config tag)).head?.map tagOf = some tag := by
  obtain ⟨preferred, hpreferred, htag⟩ := List.mem_map.mp hmem
  obtain ⟨i, hi⟩ : ∃ i, (outboundsOf config).findIdx? (fun o => tagOf o = tag) = some i := by
    rw [← Option.isSome_iff_exists, List.findIdx?_isSome, List.any_eq_true]
    exact ⟨preferred, hpreferred, by simp [htag]⟩
  obtain ⟨hlt, hat, -⟩ := List.findIdx?_eq_some_iff_getElem.mp hi
  have hget := List.getElem?_eq_getElem hlt
  have hzero : i = 0 → (outboundsOf config).head?.map tagOf = some tag := by
    rintro rfl
    rw [List.head?_eq_getElem?, hget]
    simpa using hat
  unfold reorderOutboundsToDefaultTag
  rw [if_neg hne]
  dsimp only
  split
  · exact hzero (by omega)
  rw [hi]
  cases i with
  | zero => exact hzero rfl
  | succ i =>
    simp only [hget, outbounds_set]
    simpa using hat

theorem align_routing (config : Fields) (routeMode : RouteMode) :
    routingOf (alignManagedRoutingDefaultOutbound config routeMode) = routingOf config := by
  unfold alignManagedRoutingDefaultOutbound
  split
  · rfl
  · exact reorder_routing config

section Semantics

variable (m : Matching) {config' : Fields}

theorem pickRoute_congr (h : routingOf config' = routingOf config) (d : Destination) :
    pickRoute m .tcp config' d = pickRoute m .tcp config d := by
  simp [pickRoute, rulesOf, h]

theorem SameRouting.route (h : SameRouting config config') (d : Destination) :
    route m .tcp config' d = route m .tcp config d := by
  have hhead := congrArg List.head? h.tags
  rw [List.head?_map, List.head?_map] at hhead
  unfold PlatformRouting.route
  rw [pickRoute_congr m h.routing, hhead]

theorem applies_blockRule : applies m .tcp t blockRule = false := by
  have hudp : networkNames (some (.str "udp")) = ["udp"] := by decide +kernel
  simp [applies, conditions, blockRule, asMap, asMap?, lookup, hudp, Network.name]

theorem pick_blockRule :
    pick m .tcp (blockRule :: rules) t = pick m .tcp rules t := by
  rw [pick, List.find?_cons_of_neg (by simp [applies_blockRule]), pick]

theorem withBlockOutbound_head (hout : outboundsOf config ≠ []) :
    (outboundsOf (withBlockOutbound config)).head? = (outboundsOf config).head? := by
  obtain ⟨first, rest, hcons⟩ := List.exists_cons_of_ne_nil hout
  unfold withBlockOutbound
  split
  · rfl
  · rw [outbounds_set, hcons]
    rfl

theorem withBlockRule_eq {routing : Fields} (h : (lookup routing "domainStrategy").isSome) :
    withBlockRule routing =
      setField routing "rules" (.arr (blockRule :: asArr (lookup routing "rules"))) := by
  unfold withBlockRule
  rw [if_pos]
  rw [lookup_set_other _ (by decide)]
  exact h

theorem routing_set : routingOf (setField c "routing" (.obj routing)) = routing := by
  rw [routingOf, lookup_set_same]
  rfl

theorem quicBlocked_route (isBlockRule : Fields → Bool) (hout : outboundsOf config ≠ [])
    (hstrategy : (lookup (routingOf config) "domainStrategy").isSome) (d : Destination) :
    route m .tcp (quicBlocked isBlockRule config) d = route m .tcp config d := by
  unfold quicBlocked
  split
  · rfl
  rw [withBlockRule_eq hstrategy]
  have hkeep : ∀ c v, outboundsOf (setField c "routing" v) = outboundsOf c := by
    intro c v
    rw [outboundsOf, lookup_set_other _ (by decide), outboundsOf]
  have hpick : ∀ c, pickRoute m .tcp (setField c "routing" (.obj (setField (routingOf config)
      "rules" (.arr (blockRule :: rulesOf config))))) d = pickRoute m .tcp config d := by
    intro c
    have hrules : rulesOf (setField c "routing" (.obj (setField (routingOf config) "rules"
        (.arr (blockRule :: rulesOf config))))) = blockRule :: rulesOf config := by
      rw [rulesOf, routing_set, lookup_set_same]
      rfl
    simp [pickRoute, hrules, routing_set, pick_blockRule,
      lookup_set_other _ (show "domainStrategy" ≠ "rules" by decide)]
  unfold route
  rw [← rulesOf, hpick, hkeep, withBlockOutbound_head hout]

theorem SameRouting.outbounds_ne_nil (h : SameRouting c c') (hout : outboundsOf c ≠ []) :
    outboundsOf c' ≠ [] := by
  intro hnil
  have htags := h.tags
  rw [hnil, List.map_nil, eq_comm, List.map_eq_nil_iff] at htags
  exact hout htags

theorem desktop_route (pc : Desktop) (routeMode : RouteMode) (hostName : String)
    (hrules : rulesOf config ≠ []) (hstrategy : (lookup (routingOf config) "domainStrategy").isSome)
    (hne : preferredDefaultTag (rulesOf config) routeMode ≠ "")
    (hmem : preferredDefaultTag (rulesOf config) routeMode ∈ (outboundsOf config).map tagOf)
    (d : Destination) :
    route m .tcp (xrayProtocolConfig pc routeMode hostName config) d =
      match pickRoute m .tcp config d with
      | some tag => some tag
      | none => some (preferredDefaultTag (rulesOf config) routeMode) := by
  have hforced : SameRouting config
      (forceResolvedOutboundAddress pc config (pc.getIPAddress hostName)) := by
    unfold forceResolvedOutboundAddress
    split
    · exact .refl config
    · exact pinned_same
  unfold xrayProtocolConfig
  dsimp only
  generalize forceResolvedOutboundAddress pc config (pc.getIPAddress hostName) = forced at hforced ⊢
  have hhead : (outboundsOf (alignManagedRoutingDefaultOutbound forced routeMode)).head?.map tagOf =
      some (preferredDefaultTag (rulesOf config) routeMode) := by
    unfold alignManagedRoutingDefaultOutbound
    rw [hforced.rules, if_neg (by simpa using hrules)]
    exact reorder_head hne (hforced.tags ▸ hmem)
  have hrouting := (align_routing forced routeMode).trans hforced.routing
  generalize alignManagedRoutingDefaultOutbound forced routeMode = aligned at hhead hrouting ⊢
  have hport := fallback_same pc aligned (pc.getIPAddress hostName)
  obtain ⟨config', hsame, hsanitized⟩ :=
    sanitize_same pc (fallbackOutboundPortTo443 pc aligned (pc.getIPAddress hostName))
  have hall : SameRouting aligned config' := hport.trans hsame
  have hout : outboundsOf aligned ≠ [] := by
    intro hnil
    simp [hnil] at hhead
  rw [hsanitized, quicBlocked_route m _ (hall.outbounds_ne_nil hout)
    (by rw [hall.routing, hrouting]; exact hstrategy), hall.route]
  unfold route
  rw [pickRoute_congr m hrouting, hhead]

theorem android_route (phone : Android) (hostName : String) (hout : outboundsOf config ≠ [])
    (hstrategy : (lookup (routingOf config) "domainStrategy").isSome) (d : Destination) :
    route m .tcp (androidConfig phone hostName config) d = route m .tcp config d := by
  have hlog : ∀ v, SameRouting config (setField config "log" v) :=
    fun v => .of_set v (by decide) (by decide)
  have hquic : ∀ c, SameRouting config c → route m .tcp (quicBlocked isUdp443Rule c) d =
      route m .tcp config d := by
    intro c hc
    rw [quicBlocked_route m _ (hc.outbounds_ne_nil hout) (by rw [hc.routing]; exact hstrategy),
      hc.route]
  apply hquic
  split
  · exact (hlog _).trans (pinned_same)
  · exact hlog _

end Semantics

end PlatformRouting

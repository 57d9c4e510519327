import DrFrakeVpn.RoutingAgreement
import DrFrakeVpn.TextFields

/-! # The config of the Happ client

What a client reads of the outbounds of `buildHappClientJSON` and `buildVLESSConfig` is put side by
side. -/
namespace HappConfig

open GoValues BackendModels AccessCredentials VipConfig PlatformRouting RoutingAgreement

structure HappTemplate extends ClientTemplate where
  xhttpPath : String
  xhttpHost : String
  xhttpMode : String
  xhttpPadding : String
  xhttpPostSize : ℤ

def happTemplateDefaults (template : HappTemplate) (server : VPNServer) : HappTemplate :=
  { template with toClientTemplate := clientTemplateDefaults template.toClientTemplate server }

/-- Two bytes as regional indicators. -/
def countryCodeToEmoji (cc : String) : String :=
  match (toUpper (trimSpace cc)).toUTF8.toList with
  | [a, b] => String.ofList [Char.ofNat (a.toNat + 127397), Char.ofNat (b.toNat + 127397)]
  | _ => ""

def happDescription (server : VPNServer) : String :=
  let name := if trimSpace server.region = "" then trimSpace server.name
    else trimSpace server.region
  let flag := countryCodeToEmoji server.countryCode
  let description := if flag ≠ "" then flag ++ " FBLink" else "FBLink VPN"
  let description := if server.vipOnly then description ++ " 👑 VIP" else description
  description ++ " - " ++ name

def happUserConfig (clientID : String) (template : HappTemplate) : Fields :=
  [("encryption", .str "none"), ("id", .str clientID), ("level", .num 8)] ++
    if trimSpace template.flow ≠ "" then [("flow", .str template.flow)] else []

def happXhttpPath (template : HappTemplate) : String :=
  let path := trimSpace template.xhttpPath
  let path := if path = "" then trimSpace template.grpcServiceName else path
  let path := if path = "" then "/assets/7d91f0e4" else path
  if hasPrefix path "/" then path else "/" ++ path

def happXhttpHost (template : HappTemplate) : String :=
  if trimSpace template.xhttpHost = "" then template.serverName else trimSpace template.xhttpHost

def happXhttpSettings (template : HappTemplate) : Fields :=
  let mode := if trimSpace template.xhttpMode = "" then "auto" else trimSpace template.xhttpMode
  let padding := trimSpace template.xhttpPadding
  let extra : Fields := (if padding ≠ "" then [("xPaddingBytes", .str padding)] else []) ++
    if 0 < template.xhttpPostSize then
      [("scMaxEachPostBytes", .str (toString template.xhttpPostSize))] else []
  [("path", .str (happXhttpPath template)), ("host", .str (happXhttpHost template)),
    ("mode", .str mode)] ++
    if padding ≠ "" ∨ 0 < template.xhttpPostSize then [("extra", .obj extra)] else []

def happRealitySettings (template : HappTemplate) : Json :=
  .obj [("allowInsecure", .bool false), ("fingerprint", .str template.fingerprint),
    ("publicKey", .str template.publicKey), ("serverName", .str template.serverName),
    ("shortId", .str template.shortID), ("show", .bool false), ("spiderX", .str template.spiderX)]

def happTransport (template : HappTemplate) : Fields :=
  if template.network = "tcp" then
    [("tcpSettings", .obj [("header", .obj [("type", .str "none")])])]
  else if template.network = "xhttp" then
    [("xhttpSettings", .obj (happXhttpSettings template))]
  else if template.network = "grpc" then
    [("grpcSettings", .obj [("serviceName", .str template.grpcServiceName),
      ("authority", .str template.grpcAuthority), ("multiMode", .bool template.grpcMultiMode)])]
  else []

def happStreamSettings (template : HappTemplate) : Fields :=
  [("network", .str template.network), ("security", .str template.security)] ++
    (if template.security = "reality" then [("realitySettings", happRealitySettings template)]
      else []) ++
    happTransport template

def happProxyOutbound (clientID : String) (template : HappTemplate) : Json :=
  .obj [("mux", .obj [("concurrency", .num (-1)), ("enabled", .bool false),
      ("xudpConcurrency", .num 8), ("xudpProxyUDP443", .str "reject")]),
    ("protocol", .str "vless"),
    ("settings", .obj [("vnext", .arr [.obj [("address", .str template.address),
      ("port", .num template.port), ("users", .arr [.obj (happUserConfig clientID template)])]])]),
    ("streamSettings", .obj (happStreamSettings template)), ("tag", .str "proxy")]

def happOutbounds (clientID : String) (template : HappTemplate) : List Json :=
  [happProxyOutbound clientID template,
    .obj [("protocol", .str "freedom"), ("settings", .obj [("domainStrategy", .str "UseIP")]),
      ("tag", .str "direct")],
    .obj [("protocol", .str "blackhole"),
      ("settings", .obj [("response", .obj [("type", .str "http")])]), ("tag", .str "block")]]

def happDNS : Json :=
  .obj [("hosts", .obj [("cloudflare-dns.com", .str "1.1.1.1"), ("dns.google", .str "8.8.8.8")]),
    ("queryStrategy", .str "UseIP"),
    ("servers", .arr [.str "https://cloudflare-dns.com/dns-query",
      .obj [("address", .str "https://cloudflare-dns.com/dns-query"), ("domains", strs [])],
      .obj [("address", .str "https://dns.google/dns-query"),
        ("domains", strs ["full:.ru", "full:.xn--p1ai"])]])]

def happSniffing : String × Json :=
  ("sniffing", .obj [("destOverride", strs ["http", "tls", "quic"]), ("enabled", .bool true)])

def happInbounds : List Json :=
  [.obj [("listen", .str "127.0.0.1"), ("port", .num 10808), ("protocol", .str "socks"),
      ("settings", .obj [("auth", .str "noauth"), ("udp", .bool true), ("userLevel", .num 8)]),
      happSniffing, ("tag", .str "socks")],
    .obj [("listen", .str "127.0.0.1"), ("port", .num 10809), ("protocol", .str "http"),
      ("settings", .obj [("userLevel", .num 8)]), happSniffing, ("tag", .str "http")],
    .obj [("listen", .str "127.0.0.1"), ("port", .num 11111), ("protocol", .str "dokodemo-door"),
      ("settings", .obj [("address", .str "127.0.0.1")]), ("tag", .str "metrics_in")]]

def happPolicy : Json :=
  .obj [("levels", .obj [
      ("0", .obj [("statsUserDownlink", .bool true), ("statsUserUplink", .bool true)]),
      ("8", .obj [("connIdle", .num 300), ("downlinkOnly", .num 1), ("handshake", .num 4),
        ("uplinkOnly", .num 1)])]),
    ("system", .obj [("statsInboundDownlink", .bool true), ("statsInboundUplink", .bool true),
      ("statsOutboundDownlink", .bool true), ("statsOutboundUplink", .bool true)])]

def happLocalNetworks : List String :=
  ["10.0.0.0/8", "172.16.0.0/12", "192.168.0.0/16", "169.254.0.0/16", "224.0.0.0/4",
    "255.255.255.255"]

def happRules : List Json :=
  [.obj [("network", .str "udp"), ("port", .num 443), ("outboundTag", .str "block")],
    .obj [("ip", strs ["1.1.1.1"]), ("outboundTag", .str "proxy"), ("port", .num 443)],
    .obj [("ip", strs ["8.8.8.8"]), ("outboundTag", .str "direct"), ("port", .num 443)],
    .obj [("inboundTag", strs ["metrics_in"]), ("outboundTag", .str "metrics_out")],
    .obj [("domain", strs ["full:.ru", "full:.xn--p1ai"]), ("outboundTag", .str "direct")],
    .obj [("ip", strs happLocalNetworks), ("outboundTag", .str "direct")]]

/-- The profiles and the DNS configuration are taken and not read. -/
def buildHappClientJSON (clientID : String) (server : VPNServer) (template : HappTemplate)
    (_profiles : List RoutingProfile) (_dnsConfig : VipDNSConfig) : Fields :=
  let description := happDescription server
  [("remarks", .str description), ("meta", .obj [("serverDescription", .str description)]),
    ("dns", happDNS), ("inbounds", .arr happInbounds),
    ("log", .obj [("loglevel", .str "warning")]), ("metrics", .obj [("tag", .str "metrics_out")]),
    ("outbounds", .arr (happOutbounds clientID template)), ("policy", happPolicy),
    ("routing", .obj [("domainStrategy", .str "IPIfNonMatch"), ("rules", .arr happRules)]),
    ("stats", .obj [])]

structure RealityParameters where
  serverName : String
  publicKey : String
  shortID : String
  spiderX : String
  mldsa65Verify : String
  deriving DecidableEq, Repr

inductive TransportParameters where
  | xhttp (path host : String)
  | grpc (serviceName authority : String) (multiMode : Bool)
  | other
  deriving DecidableEq, Repr

structure Connection where
  address : String
  port : Option ℚ
  userID : String
  flow : String
  network : String
  security : String
  tlsServerName : String
  reality : RealityParameters
  transport : TransportParameters
  deriving DecidableEq

def asNum : Option Json → Option ℚ
  | some (.num q) => some q
  | _ => none

def proxyOf (config : Fields) : Fields :=
  asMap ((outboundsOf config).find? fun outbound => tagOf outbound = xrayProxyTag)

def realityOf (stream : Fields) : RealityParameters :=
  let settings := asMap (lookup stream "realitySettings")
  ⟨asString (lookup settings "serverName"), asString (lookup settings "publicKey"),
    asString (lookup settings "shortId"), asString (lookup settings "spiderX"),
    asString (lookup settings "mldsa65Verify")⟩

def transportOf (stream : Fields) : TransportParameters :=
  if asString (lookup stream "network") = "xhttp" then
    let settings := asMap (lookup stream "xhttpSettings")
    .xhttp (asString (lookup settings "path")) (asString (lookup settings "host"))
  else if asString (lookup stream "network") = "grpc" then
    let settings := asMap (lookup stream "grpcSettings")
    .grpc (asString (lookup settings "serviceName")) (asString (lookup settings "authority"))
      (asBool (lookup settings "multiMode"))
  else .other

def connectionOf (outbound : Fields) : Connection :=
  let hop := asMap (asArr (lookup (asMap (lookup outbound "settings")) "vnext")).head?
  let user := asMap (asArr (lookup hop "users")).head?
  let stream := asMap (lookup outbound "streamSettings")
  { address := asString (lookup hop "address")
    port := asNum (lookup hop "port")
    userID := asString (lookup user "id")
    flow := asString (lookup user "flow")
    network := asString (lookup stream "network")
    security := asString (lookup stream "security")
    tlsServerName := asString (lookup (asMap (lookup stream "tlsSettings")) "serverName")
    reality := realityOf stream
    transport := transportOf stream }

def noReality : RealityParameters := ⟨"", "", "", "", ""⟩

def wayOf (address : String) (port : ℚ) (user stream : Fields) : Connection :=
  ⟨address, some port, asString (lookup user "id"), asString (lookup user "flow"),
    asString (lookup stream "network"), asString (lookup stream "security"),
    asString (lookup (asMap (lookup stream "tlsSettings")) "serverName"), realityOf stream,
    transportOf stream⟩

theorem connectionOf_outbound (others : Fields) (protocol tag : Json) (address : String) (port : ℚ)
    (user stream : Fields) (hothers : others = [] ∨ ∃ mux, others = [("mux", mux)]) :
    connectionOf (others ++ [("protocol", protocol),
      ("settings", .obj [("vnext", .arr [.obj [("address", .str address), ("port", .num port),
        ("users", .arr [.obj user])]])]),
      ("streamSettings", .obj stream), ("tag", tag)]) = wayOf address port user stream := by
  rcases hothers with rfl | ⟨mux, rfl⟩ <;> rfl

section Happ

variable (template : HappTemplate)

theorem reality_happ : realityOf (happStreamSettings template) =
    if template.security = "reality" then
      ⟨template.serverName, template.publicKey, template.shortID, template.spiderX, ""⟩
    else noReality := by
  unfold happStreamSettings happTransport
  split_ifs <;> rfl

theorem network_happ :
    asString (lookup (happStreamSettings template) "network") = template.network := by
  unfold happStreamSettings happTransport
  split_ifs <;> rfl

theorem xhttp_happ (h : template.network = "xhttp") :
    lookup (happStreamSettings template) "xhttpSettings" =
      some (.obj (happXhttpSettings template)) := by
  have htcp : ¬ template.network = "tcp" := by
    rw [h]
    decide
  unfold happStreamSettings happTransport
  split_ifs <;> rfl

theorem grpc_happ (h : template.network = "grpc") :
    lookup (happStreamSettings template) "grpcSettings" =
      some (.obj [("serviceName", .str template.grpcServiceName),
        ("authority", .str template.grpcAuthority),
        ("multiMode", .bool template.grpcMultiMode)]) := by
  have htcp : ¬ template.network = "tcp" := by
    rw [h]
    decide
  have hxhttp : ¬ template.network = "xhttp" := by
    rw [h]
    decide
  unfold happStreamSettings happTransport
  split_ifs <;> rfl

theorem path_and_host (path : Json) (p : Prop) [Decidable p] :
    let settings := [("path", path), ("host", host), ("mode", mode)] ++
      if p then [("extra", extra)] else []
    lookup settings "path" = some path ∧ lookup settings "host" = some host := by
  split_ifs <;> exact ⟨rfl, rfl⟩

theorem transport_happ : transportOf (happStreamSettings template) =
    if template.network = "xhttp" then .xhttp (happXhttpPath template) (happXhttpHost template)
    else if template.network = "grpc" then
      .grpc template.grpcServiceName template.grpcAuthority template.grpcMultiMode
    else .other := by
  unfold transportOf
  rw [network_happ]
  by_cases hxhttp : template.network = "xhttp"
  · have hsettings := xhttp_happ template hxhttp
    unfold happXhttpSettings at hsettings
    rw [if_pos hxhttp, if_pos hxhttp, hsettings]
    dsimp only [asMap, asMap?, Option.getD_some]
    rw [(path_and_host ..).1, (path_and_host ..).2, asString, asString]
  · rw [if_neg hxhttp, if_neg hxhttp]
    by_cases hgrpc : template.network = "grpc"
    · rw [if_pos hgrpc, if_pos hgrpc, grpc_happ template hgrpc]
      rfl
    · rw [if_neg hgrpc, if_neg hgrpc]

theorem security_happ :
    asString (lookup (happStreamSettings template) "security") = template.security := by
  unfold happStreamSettings happTransport
  split_ifs <;> rfl

theorem tls_happ : lookup (happStreamSettings template) "tlsSettings" = none := by
  unfold happStreamSettings happTransport
  split_ifs <;> rfl

variable (clientID : String)

theorem user_happ :
    asString (lookup (happUserConfig clientID template) "id") = clientID ∧
      asString (lookup (happUserConfig clientID template) "flow") =
        if trimSpace template.flow ≠ "" then template.flow else "" := by
  unfold happUserConfig
  split_ifs <;> exact ⟨rfl, rfl⟩

theorem connection_happ (server : VPNServer) (profiles : List RoutingProfile)
    (dnsConfig : VipDNSConfig) :
    connectionOf (proxyOf (buildHappClientJSON clientID server template profiles dnsConfig)) =
      wayOf template.address template.port (happUserConfig clientID template)
        (happStreamSettings template) :=
  connectionOf_outbound [_] _ _ _ _ _ _ (.inr ⟨_, rfl⟩)

end Happ

section App

variable (template : ClientTemplate)

theorem network_app : asString (lookup (streamSettings template) "network") = template.network := by
  unfold streamSettings
  split_ifs <;> rfl

theorem security_app :
    asString (lookup (streamSettings template) "security") = template.security := by
  unfold streamSettings
  split_ifs <;> rfl

theorem tls_app :
    asString (lookup (asMap (lookup (streamSettings template) "tlsSettings")) "serverName") =
      if template.network = "xhttp" ∧ template.security ≠ "reality" then template.serverName
      else "" := by
  unfold streamSettings
  split_ifs <;> first | rfl | simp_all

theorem realitySettings_app : lookup (streamSettings template) "realitySettings" =
    if template.network = "xhttp" ∧ template.security ≠ "reality" then none
    else some (realitySettings template) := by
  unfold streamSettings
  by_cases hxhttp : template.network = "xhttp"
  · by_cases hreality : template.security = "reality"
    · rw [if_pos hxhttp, if_pos hreality, if_neg (fun h => h.2 hreality)]
      rfl
    · rw [if_pos hxhttp, if_neg hreality, if_pos ⟨hxhttp, hreality⟩]
      rfl
  · have hother : ¬ (template.network = "xhttp" ∧ template.security ≠ "reality") :=
      fun h => hxhttp h.1
    split_ifs <;> rfl

theorem reality_app : realityOf (streamSettings template) =
    if template.network = "xhttp" ∧ template.security ≠ "reality" then noReality
    else ⟨template.serverName, template.publicKey, template.shortID, template.spiderX,
      if trimSpace template.mldsa65Verify ≠ "" then template.mldsa65Verify else ""⟩ := by
  unfold realityOf
  rw [realitySettings_app]
  split
  · rfl
  · rw [realitySettings]
    split_ifs <;> rfl

theorem transport_app : transportOf (streamSettings template) =
    if template.network = "xhttp" then
      .xhttp (xhttpPath template.grpcServiceName) template.serverName
    else if template.network = "grpc" then
      .grpc template.grpcServiceName (xrayGrpcAuthority template) template.grpcMultiMode
    else .other := by
  unfold transportOf
  rw [network_app]
  unfold streamSettings xrayNetworkGRPC
  generalize xhttpPath template.grpcServiceName = path
  by_cases hxhttp : template.network = "xhttp"
  · rw [if_pos hxhttp, if_pos hxhttp, if_pos hxhttp]
    split_ifs <;> rfl
  · rw [if_neg hxhttp, if_neg hxhttp, if_neg hxhttp]
    by_cases hgrpc : template.network = "grpc"
    · rw [if_pos hgrpc, if_pos hgrpc, if_pos hgrpc]
      rfl
    · rw [if_neg hgrpc, if_neg hgrpc]

theorem connection_app (decode : String → List String) (clientID : String)
    (profiles : List RoutingProfile) (dnsConfig : VipDNSConfig) :
    connectionOf (proxyOf (xrayConfig decode clientID template profiles dnsConfig)) =
      wayOf template.address template.port
        [("id", .str clientID), ("flow", .str (if template.network = "xhttp" then ""
          else template.flow)), ("encryption", .str "none")] (streamSettings template) :=
  connectionOf_outbound [] _ _ _ _ _ _ (.inl rfl)

end App

theorem trimSpace_last (h : (trimSpace s).toList.getLast? = some c) : isSpace c = false := by
  unfold trimSpace at h
  rw [String.toList_ofList, List.getLast?_reverse] at h
  have hhead := List.head?_dropWhile_not isSpace (s.toList.dropWhile isSpace).reverse
  rwa [h] at hhead

theorem trimSpace_eq_self (hhead : ∀ c, s.toList.head? = some c → isSpace c = false)
    (hlast : ∀ c, s.toList.getLast? = some c → isSpace c = false) : trimSpace s = s := by
  have hkeep : ∀ l : List Char, (∀ c, l.head? = some c → isSpace c = false) →
      l.dropWhile isSpace = l := by
    intro l hl
    cases l with
    | nil => rfl
    | cons c l => rw [List.dropWhile_cons_of_neg (by simp [hl c rfl])]
  unfold trimSpace
  rw [hkeep _ hhead, hkeep _ (by rwa [List.head?_reverse]), List.reverse_reverse,
    String.ofList_toList]

variable (s : String)

theorem trimSpace_idempotent : trimSpace (trimSpace s) = trimSpace s := by
  show String.ofList (TextFields.strip isSpace (trimSpace s).toList) = _
  rw [trimSpace, String.toList_ofList]
  exact congrArg String.ofList (TextFields.strip_idem isSpace s.toList)

theorem xhttpPath_slash : ∃ rest, (xhttpPath s).toList = '/' :: rest := by
  unfold xhttpPath
  dsimp only
  generalize (if trimSpace s = "" then "/assets/7d91f0e4" else trimSpace s) = path
  split
  · next h =>
    obtain ⟨rest, hrest⟩ := List.isPrefixOf_iff_prefix.mp h
    exact ⟨rest, hrest.symm⟩
  · exact ⟨path.toList, by rw [String.toList_append]; rfl⟩

theorem xhttpPath_last (h : (xhttpPath s).toList.getLast? = some c) : isSpace c = false := by
  unfold xhttpPath at h
  dsimp only at h
  generalize hp : (if trimSpace s = "" then "/assets/7d91f0e4" else trimSpace s) = path at h
  have hpath : ∀ d, path.toList.getLast? = some d → isSpace d = false := by
    intro d hd
    rw [← hp] at hd
    split at hd
    · obtain rfl : '4' = d := Option.some.inj hd
      rfl
    · exact trimSpace_last hd
  split at h
  · exact hpath c h
  rw [String.toList_append, List.getLast?_append] at h
  cases hlast : path.toList.getLast? with
  | some d =>
    rw [hlast, Option.some_or, Option.some.injEq] at h
    exact h ▸ hpath d hlast
  | none =>
    rw [hlast, Option.none_or] at h
    obtain rfl : '/' = c := Option.some.inj h
    rfl

theorem xhttpPath_idempotent : xhttpPath (xhttpPath s) = xhttpPath s := by
  obtain ⟨rest, hslash⟩ := xhttpPath_slash s
  have htrim : trimSpace (xhttpPath s) = xhttpPath s := by
    apply trimSpace_eq_self
    · intro c hc
      rw [hslash] at hc
      obtain rfl : '/' = c := Option.some.inj hc
      rfl
    · intro c hc
      exact xhttpPath_last s hc
  have hne : xhttpPath s ≠ "" := by
    intro h
    rw [h] at hslash
    cases hslash
  have hstarts : hasPrefix (xhttpPath s) "/" := by
    unfold hasPrefix
    rw [hslash]
    rfl
  rw [xhttpPath, htrim, if_neg hne, if_pos hstarts]

/-- Nothing is left for the defaults to fill in. -/
structure Filled (template : VLESSServerTemplate) (server : VPNServer) : Prop where
  address : defaultAddress template server = template.address
  port : template.port ≠ 0
  network : template.network ≠ ""
  flow : template.network = "xhttp" → template.flow = ""
  vision : template.network ≠ "xhttp" → ¬ (template.flow = "" ∧ template.network ≠ "grpc")
  hysteria : ¬ template.hysteriaPort ≤ 0
  container : template.containerName ≠ ""

variable {server : VPNServer}

theorem Filled.defaults (h : Filled template server) :
    xrayTemplateDefaults template server = template := by
  have hflow : (if template.network = "xhttp" then ""
      else if template.flow = "" ∧ template.network ≠ "grpc" then "xtls-rprx-vision"
      else template.flow) = template.flow := by
    by_cases hx : template.network = "xhttp"
    · rw [if_pos hx, h.flow hx]
    · rw [if_neg hx, if_neg (h.vision hx)]
  unfold xrayTemplateDefaults
  dsimp only
  rw [h.address, if_neg h.port, if_neg h.network, hflow, if_neg h.hysteria, if_neg h.container]

theorem filled_defaults (template : VLESSServerTemplate) (server : VPNServer) :
    Filled (xrayTemplateDefaults template server) server := by
  constructor
  · unfold defaultAddress xrayTemplateDefaults
    dsimp only [defaultAddress]
    split_ifs <;> simp_all
  · unfold xrayTemplateDefaults
    split_ifs <;> simp_all
  · unfold xrayTemplateDefaults
    split_ifs <;> simp_all
  · intro hx
    exact if_pos hx
  · intro hx
    unfold xrayTemplateDefaults at hx ⊢
    dsimp only at hx ⊢
    split_ifs at hx ⊢ <;> simp_all
  · unfold xrayTemplateDefaults
    dsimp only
    split_ifs <;> omega
  · unfold xrayTemplateDefaults
    split_ifs <;> simp_all [defaultXrayContainer]

structure FilledClient (template : ClientTemplate) (server : VPNServer) : Prop extends
    Filled template.toVLESSServerTemplate server where
  security : template.security ≠ ""
  fingerprint : template.fingerprint ≠ ""
  spiderX : template.spiderX ≠ ""
  service : template.grpcServiceName ≠ ""
  path : template.network = "xhttp" → xhttpPath template.grpcServiceName = template.grpcServiceName

theorem FilledClient.defaults (h : FilledClient template server) :
    clientTemplateDefaults template server = template := by
  have hservice : (if template.network = "xhttp" then xhttpPath template.grpcServiceName
      else template.grpcServiceName) = template.grpcServiceName := by
    by_cases hx : template.network = "xhttp"
    · rw [if_pos hx, h.path hx]
    · rw [if_neg hx]
  unfold clientTemplateDefaults
  rw [h.toFilled.defaults]
  dsimp only
  rw [hservice, if_neg h.security, if_neg h.fingerprint, if_neg h.spiderX, if_neg h.service]

variable (template : ClientTemplate)

theorem filled_clientTemplateDefaults (server : VPNServer) :
    FilledClient (clientTemplateDefaults template server) server := by
  have hpath : ∀ s, xhttpPath s ≠ "" := by
    intro s h
    obtain ⟨rest, hslash⟩ := xhttpPath_slash s
    rw [h] at hslash
    cases hslash
  constructor
  · exact filled_defaults template.toVLESSServerTemplate server
  · unfold clientTemplateDefaults
    split_ifs <;> simp_all
  · unfold clientTemplateDefaults
    split_ifs <;> simp_all
  · unfold clientTemplateDefaults
    split_ifs <;> simp_all
  · unfold clientTemplateDefaults
    dsimp only
    split_ifs <;> simp_all [defaultXrayGrpcServiceName]
  · intro hx
    have hservice : (clientTemplateDefaults template server).grpcServiceName =
        xhttpPath template.grpcServiceName := by
      unfold clientTemplateDefaults at hx ⊢
      dsimp only at hx ⊢
      rw [if_pos hx, if_neg (hpath _)]
    rw [hservice, xhttpPath_idempotent]

/-- What a template must be like for both clients to reach the server the same way. -/
structure Compatible (template : HappTemplate) : Prop where
  security : template.security = "reality"
  mldsa65 : trimSpace template.mldsa65Verify = ""
  flow : trimSpace template.flow = "" → template.flow = ""
  path : template.network = "xhttp" → trimSpace template.xhttpPath = "" ∨
    xhttpPath template.xhttpPath = template.grpcServiceName
  host : template.network = "xhttp" → trimSpace template.xhttpHost = "" ∨
    trimSpace template.xhttpHost = template.serverName
  authority : template.network = "grpc" → trimSpace template.grpcAuthority ≠ "" ∧
    trimSpace template.grpcAuthority = template.grpcAuthority

theorem happXhttpPath_eq (template : HappTemplate) : happXhttpPath template =
    if trimSpace template.xhttpPath = "" then xhttpPath template.grpcServiceName
    else xhttpPath template.xhttpPath := by
  unfold happXhttpPath xhttpPath
  split_ifs <;> simp_all

theorem authority_iff (h : trimSpace template.serverName ≠ "") :
    template.grpcAuthority = xrayGrpcAuthority template ↔ trimSpace template.grpcAuthority ≠ "" ∧
      trimSpace template.grpcAuthority = template.grpcAuthority := by
  unfold xrayGrpcAuthority
  by_cases hblank : trimSpace template.grpcAuthority = ""
  · -- the app falls back to the server name, which Happ does not do
    rw [if_neg (not_not_intro hblank)]
    constructor
    · intro heq
      rw [heq, trimSpace_idempotent] at hblank
      exact absurd hblank h
    · intro hauthority
      exact absurd hblank hauthority.1
  · rw [if_pos hblank]
    exact ⟨fun heq => ⟨hblank, heq.symm⟩, fun hauthority => hauthority.2.symm⟩

section Agreement

variable {template : HappTemplate}

theorem flow_iff (hxhttp : template.network = "xhttp" → template.flow = "") :
    ((if trimSpace template.flow ≠ "" then template.flow else "") =
      if template.network = "xhttp" then "" else template.flow) ↔
      (trimSpace template.flow = "" → template.flow = "") := by
  by_cases hx : template.network = "xhttp"
  · rw [if_pos hx, hxhttp hx]
    simp
  · rw [if_neg hx]
    by_cases hblank : trimSpace template.flow = ""
    · rw [if_neg (not_not_intro hblank)]
      exact ⟨fun h _ => h.symm, fun h => (h hblank).symm⟩
    · rw [if_pos hblank]
      exact ⟨fun _ h => absurd h hblank, fun _ => rfl⟩

theorem security_iff (hname : template.serverName ≠ "") :
    (asString (lookup (asMap (lookup (happStreamSettings template) "tlsSettings")) "serverName") =
        asString (lookup (asMap (lookup (streamSettings template.toClientTemplate) "tlsSettings"))
          "serverName") ∧
      realityOf (happStreamSettings template) =
        realityOf (streamSettings template.toClientTemplate)) ↔
      template.security = "reality" ∧ trimSpace template.mldsa65Verify = "" := by
  rw [tls_happ, tls_app, reality_happ, reality_app]
  by_cases hreality : template.security = "reality"
  · have hother : ¬ (template.network = "xhttp" ∧ template.security ≠ "reality") :=
      fun h => h.2 hreality
    rw [if_neg hother, if_neg hother, if_pos hreality]
    by_cases hblank : trimSpace template.mldsa65Verify = ""
    · rw [if_neg (not_not_intro hblank)]
      exact ⟨fun _ => ⟨hreality, hblank⟩, fun _ => ⟨rfl, rfl⟩⟩
    · rw [if_pos hblank]
      constructor
      · rintro ⟨-, h⟩
        have hempty : "" = template.mldsa65Verify := congrArg RealityParameters.mldsa65Verify h
        rw [← hempty] at hblank
        exact absurd rfl hblank
      · intro h
        exact absurd h.2 hblank
  · constructor
    · rintro ⟨htls, h⟩
      by_cases hx : template.network = "xhttp"
      · rw [if_pos ⟨hx, hreality⟩] at htls
        exact absurd htls.symm hname
      · rw [if_neg hreality, if_neg fun hboth => hx hboth.1] at h
        exact absurd (congrArg RealityParameters.serverName h).symm hname
    · intro h
      exact absurd h.1 hreality

theorem transport_iff (hname : trimSpace template.serverName ≠ "")
    (hpath : template.network = "xhttp" →
      xhttpPath template.grpcServiceName = template.grpcServiceName) :
    transportOf (happStreamSettings template) =
        transportOf (streamSettings template.toClientTemplate) ↔
      (template.network = "xhttp" → (trimSpace template.xhttpPath = "" ∨
          xhttpPath template.xhttpPath = template.grpcServiceName) ∧
        (trimSpace template.xhttpHost = "" ∨ trimSpace template.xhttpHost = template.serverName)) ∧
      (template.network = "grpc" → trimSpace template.grpcAuthority ≠ "" ∧
        trimSpace template.grpcAuthority = template.grpcAuthority) := by
  rw [transport_happ, transport_app]
  by_cases hx : template.network = "xhttp"
  · have hgrpc : template.network ≠ "grpc" := by
      rw [hx]
      decide
    rw [if_pos hx, if_pos hx, hpath hx, happXhttpPath_eq, hpath hx, happXhttpHost,
      TransportParameters.xhttp.injEq]
    split_ifs <;> simp_all
  · rw [if_neg hx, if_neg hx]
    by_cases hgrpc : template.network = "grpc"
    · rw [if_pos hgrpc, if_pos hgrpc, TransportParameters.grpc.injEq]
      have hauthority := authority_iff template.toClientTemplate hname
      simp [hgrpc, hauthority]
    · simp [hx, hgrpc]

/-- Both configs of a usable template lead to the server the same way exactly if the template is
compatible. -/
theorem same_way_iff (decode : String → List String) (clientID : String) (server : VPNServer)
    (stored : HappTemplate) (profiles : List RoutingProfile) (dnsConfig : VipDNSConfig)
    (husable : hasUsableVLESSTemplate
      (some (happTemplateDefaults stored server).toVLESSServerTemplate) = true) :
    let template := happTemplateDefaults stored server
    connectionOf (proxyOf (buildHappClientJSON clientID server template profiles dnsConfig)) =
        connectionOf (proxyOf (lastConfig (buildVLESSConfig decode clientID server
          template.toClientTemplate profiles dnsConfig))) ↔
      Compatible template := by
  intro template
  have hfilled : FilledClient template.toClientTemplate server :=
    filled_clientTemplateDefaults stored.toClientTemplate server
  have hname : trimSpace template.serverName ≠ "" := by
    unfold hasUsableVLESSTemplate at husable
    simp only [Bool.and_eq_true, decide_eq_true_eq] at husable
    exact husable.1.1.2
  have hset : template.serverName ≠ "" := by
    intro h
    rw [h] at hname
    exact hname rfl
  have happ : lastConfig (buildVLESSConfig decode clientID server template.toClientTemplate
      profiles dnsConfig) = xrayConfig decode clientID
        (clientTemplateDefaults template.toClientTemplate server) profiles dnsConfig := rfl
  rw [happ, hfilled.defaults, connection_happ, connection_app, wayOf, wayOf, Connection.mk.injEq,
    (user_happ template clientID).1, (user_happ template clientID).2, network_happ, network_app,
    security_happ, security_app]
  have hflow := flow_iff (fun h => hfilled.flow h)
  have hsecurity := security_iff hset
  have htransport := transport_iff hname (fun h => hfilled.path h)
  constructor
  · rintro ⟨-, -, -, h1, -, -, h2, h3, h4⟩
    obtain ⟨hreality, hmldsa⟩ := hsecurity.mp ⟨h2, h3⟩
    obtain ⟨hxhttp, hgrpc⟩ := htransport.mp h4
    exact ⟨hreality, hmldsa, hflow.mp h1, fun h => (hxhttp h).1, fun h => (hxhttp h).2, hgrpc⟩
  · intro h
    obtain ⟨htls, hreality⟩ := hsecurity.mpr ⟨h.security, h.mldsa65⟩
    exact ⟨rfl, rfl, rfl, hflow.mpr h.flow, rfl, rfl, htls, hreality,
      htransport.mpr ⟨fun hx => ⟨h.path hx, h.host hx⟩, h.authority⟩⟩

end Agreement

def exampleHappTemplate (mldsa65Verify : String) : HappTemplate where
  toClientTemplate := { exampleTemplate with mldsa65Verify := mldsa65Verify }
  xhttpPath := ""
  xhttpHost := ""
  xhttpMode := ""
  xhttpPadding := ""
  xhttpPostSize := 0

def exampleWays (mldsa65Verify : String) : Connection × Connection :=
  let template := happTemplateDefaults (exampleHappTemplate mldsa65Verify) exampleServer
  (connectionOf (proxyOf (buildHappClientJSON "client" exampleServer template [] ⟨"", ""⟩)),
    connectionOf (proxyOf (lastConfig (buildVLESSConfig exampleDecode "client" exampleServer
      template.toClientTemplate [] ⟨"", ""⟩))))

/-- Plain reality over TCP. -/
theorem same_way_reality : (exampleWays "").1 = (exampleWays "").2 := by
  refine (same_way_iff exampleDecode "client" exampleServer (exampleHappTemplate "") [] ⟨"", ""⟩
    (by decide +kernel)).mpr ⟨rfl, rfl, fun h => ?_, fun h => ?_, fun h => ?_, fun h => ?_⟩
  · exact absurd h (by decide +kernel)
  · exact absurd h (by decide)
  · exact absurd h (by decide)
  · exact absurd h (by decide)

/-- The key for the post-quantum signature only reaches the app. -/
theorem happ_misses_verify_key :
    hasUsableVLESSTemplate (some (happTemplateDefaults (exampleHappTemplate "verify-key")
      exampleServer).toVLESSServerTemplate) = true ∧
    (exampleWays "verify-key").1.reality.mldsa65Verify = "" ∧
    (exampleWays "verify-key").2.reality.mldsa65Verify = "verify-key" := by
  refine ⟨?_, ?_, ?_⟩ <;> decide +kernel

end HappConfig

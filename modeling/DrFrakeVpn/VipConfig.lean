import DrFrakeVpn.NodeFleet

/-! # The Xray config of a VIP user

A config is kept as the JSON object that its text holds, since the clients read and rewrite it key
by key. -/
namespace VipConfig

open GoValues BackendModels NodeFleet AccessCredentials

abbrev Fields := List (String × Json)

/-- The columns of a template that the config of a client is made from. -/
structure ClientTemplate extends NodeTemplate where
  fingerprint : String
  spiderX : String
  grpcServiceName : String
  grpcAuthority : String
  grpcMultiMode : Bool
  deriving DecidableEq

structure VipDNSConfig where
  primary : String
  secondary : String

def xrayProxyTag : String := "proxy"
def xrayDirectTag : String := "direct"
def vipDNSCleanIP : String := "172.29.172.254"
def vipDNSAdBlockIP : String := "172.29.172.253"
def xrayNetworkGRPC : String := "grpc"
def defaultXrayGrpcServiceName : String := "api.v1.VideoDownload"

def strs (items : List String) : Json := .arr (items.map Json.str)

/-- `strings.TrimPrefix(s, ".")`. -/
def trimDot (s : String) : String :=
  match s.toList with
  | '.' :: rest => String.ofList rest
  | _ => s

/-- `regexp.QuoteMeta`. -/
def quoteMeta (s : String) : String :=
  String.ofList (s.toList.flatMap fun c =>
    if c ∈ "\\.+*?()|[]\x7b\x7d^$".toList then ['\\', c] else [c])

def suffixRule (suffix : String) : Option String :=
  let trimmed := trimDot (trimSpace suffix)
  if trimmed = "" then none
  else if contains trimmed "." then some ("domain:" ++ trimmed)
  else some ("regexp:(^|\\.).*\\." ++ quoteMeta trimmed ++ "$")

/-- `domainRulesByAction` and `ipRulesByAction`. -/
structure RulesByAction where
  domains : RoutingProfileAction → List String
  ips : RoutingProfileAction → List String

section Profiles

variable (decodeJSONStringArray : String → List String)

def hasEnabledCustomProfile (profiles : List RoutingProfile) : Bool :=
  profiles.any fun p => p.enabled && p.kind = .custom

/-- The system presets only count while no custom profile is enabled. -/
def skipped (custom : Bool) (p : RoutingProfile) : Bool :=
  !p.enabled || (p.kind = .system && custom)

def profileDomains (p : RoutingProfile) : List String :=
  (decodeJSONStringArray p.domainsJSON).map ("full:" ++ ·) ++
    (decodeJSONStringArray p.domainSuffixesJSON).filterMap suffixRule

def addProfile (custom : Bool) (acc : RulesByAction) (p : RoutingProfile) : RulesByAction :=
  if skipped custom p then acc
  else
    ⟨Function.update acc.domains p.action
        (acc.domains p.action ++ profileDomains decodeJSONStringArray p),
      Function.update acc.ips p.action
        (acc.ips p.action ++ decodeJSONStringArray p.cidrsJSON)⟩

def rulesByAction (profiles : List RoutingProfile) : RulesByAction :=
  profiles.foldl (addProfile decodeJSONStringArray (hasEnabledCustomProfile profiles))
    ⟨fun _ => [], fun _ => []⟩

def matcherRule (outboundTag field : String) (items : List String) : Json :=
  .obj [("type", .str "field"), ("outboundTag", .str outboundTag), (field, strs items)]

def appendRules (acc : RulesByAction) (rules : List Json) (action : RoutingProfileAction)
    (outboundTag : String) : List Json :=
  let rules := if acc.domains action ≠ [] then
    rules ++ [matcherRule outboundTag "domain" (acc.domains action)] else rules
  if acc.ips action ≠ [] then rules ++ [matcherRule outboundTag "ip" (acc.ips action)] else rules

def buildVIPRoutingRules (profiles : List RoutingProfile) : List Json :=
  let acc := rulesByAction decodeJSONStringArray profiles
  appendRules acc (appendRules acc [] .direct xrayDirectTag) .proxy xrayProxyTag

end Profiles

def appendIP (ips : List String) (ip : String) : List String :=
  let ip := trimSpace ip
  if ip = "" then ips
  else if ip ++ "/32" ∈ ips then ips
  else ips ++ [ip ++ "/32"]

def dnsAddresses (dnsConfig : VipDNSConfig) : List String :=
  [dnsConfig.primary, dnsConfig.secondary, vipDNSCleanIP, vipDNSAdBlockIP].foldl appendIP []

def vipDNSProxyRules (dnsConfig : VipDNSConfig) : List Json :=
  if dnsAddresses dnsConfig = [] then []
  else [matcherRule xrayProxyTag "ip" (dnsAddresses dnsConfig)]

def xhttpPath (grpcServiceName : String) : String :=
  let path := trimSpace grpcServiceName
  let path := if path = "" then "/assets/7d91f0e4" else path
  if hasPrefix path "/" then path else "/" ++ path

def clientTemplateDefaults (template : ClientTemplate) (server : VPNServer) : ClientTemplate :=
  let known := xrayTemplateDefaults template.toVLESSServerTemplate server
  let service := if known.network = "xhttp" then xhttpPath template.grpcServiceName
    else template.grpcServiceName
  { template with
    toVLESSServerTemplate := known
    security := if template.security = "" then "reality" else template.security
    fingerprint := if template.fingerprint = "" then "chrome" else template.fingerprint
    spiderX := if template.spiderX = "" then "/" else template.spiderX
    grpcServiceName := if service = "" then defaultXrayGrpcServiceName else service }

def xrayGrpcAuthority (template : ClientTemplate) : String :=
  if trimSpace template.grpcAuthority ≠ "" then trimSpace template.grpcAuthority
  else trimSpace template.serverName

def realitySettings (template : ClientTemplate) : Json :=
  let settings := [("fingerprint", Json.str template.fingerprint),
    ("serverName", .str template.serverName), ("publicKey", .str template.publicKey),
    ("shortId", .str template.shortID), ("spiderX", .str template.spiderX)]
  .obj (if trimSpace template.mldsa65Verify ≠ "" then
    settings ++ [("mldsa65Verify", .str template.mldsa65Verify)] else settings)

def streamSettings (template : ClientTemplate) : Fields :=
  let common := [("network", Json.str template.network), ("security", .str template.security),
    ("sockopt", .obj [("tcpFastOpen", .bool true), ("tcpKeepAliveIdle", .num 45),
      ("tcpKeepAliveInterval", .num 45)])]
  if template.network = "xhttp" then
    common ++ [("xhttpSettings", .obj [("path", .str (xhttpPath template.grpcServiceName)),
      ("host", .str template.serverName), ("mode", .str "auto"),
      ("xPaddingBytes", .str "100-1000"), ("scMaxEachPostBytes", .num 1000000)]),
      if template.security = "reality" then ("realitySettings", realitySettings template)
      else ("tlsSettings", .obj [("serverName", .str template.serverName),
        ("fingerprint", .str template.fingerprint), ("alpn", strs ["h3"])])]
  else if template.network = xrayNetworkGRPC then
    common ++ [("realitySettings", realitySettings template),
      ("grpcSettings", .obj [("serviceName", .str template.grpcServiceName),
        ("authority", .str (xrayGrpcAuthority template)),
        ("multiMode", .bool template.grpcMultiMode)])]
  else
    common ++ [("realitySettings", realitySettings template),
      ("tcpSettings", .obj [("header", .obj [("type", .str "none")])])]

def primaryOutbound (clientID : String) (template : ClientTemplate) : Json :=
  let flowValue := if template.network = "xhttp" then "" else template.flow
  let user : Json := .obj [("id", .str clientID), ("flow", .str flowValue),
    ("encryption", .str "none")]
  .obj [("protocol", .str "vless"),
    ("settings", .obj [("vnext", .arr [.obj [("address", .str template.address),
      ("port", .num template.port), ("users", .arr [user])]])]),
    ("streamSettings", .obj (streamSettings template)), ("tag", .str xrayProxyTag)]

/-- The local proxy; domains are only sniffed if there are rules of profiles. -/
def socksInbound (routingRules : List Json) : Json :=
  let inbound := [("listen", Json.str "127.0.0.1"), ("port", .num 10808),
    ("protocol", .str "socks"),
    ("settings", .obj [("auth", .str "noauth"), ("udp", .bool true)])]
  .obj (if routingRules ≠ [] then
    inbound ++ [("sniffing", .obj [("enabled", .bool true), ("routeOnly", .bool false),
      ("destOverride", strs ["http", "tls", "quic"])])]
    else inbound)

def xrayConfig (decodeJSONStringArray : String → List String) (clientID : String)
    (template : ClientTemplate) (profiles : List RoutingProfile) (dnsConfig : VipDNSConfig) :
    Fields :=
  let routingRules := buildVIPRoutingRules decodeJSONStringArray profiles
  [("log", .obj [("loglevel", .str "warning")]),
    ("inbounds", .arr [socksInbound routingRules]),
    ("outbounds", .arr [primaryOutbound clientID template,
      .obj [("tag", .str xrayDirectTag), ("protocol", .str "freedom")]]),
    ("routing", .obj [("domainStrategy", .str "IPIfNonMatch"),
      ("rules", .arr (vipDNSProxyRules dnsConfig ++ routingRules))])]

/-- The entry of the server in the answer to the client; the text under `last_config` is the
object that it encodes. -/
def buildVLESSConfig (decodeJSONStringArray : String → List String) (clientID : String)
    (server : VPNServer) (template : ClientTemplate) (profiles : List RoutingProfile)
    (dnsConfig : VipDNSConfig) : Fields :=
  let template := clientTemplateDefaults template server
  let config := xrayConfig decodeJSONStringArray clientID template profiles dnsConfig
  let description := if trimSpace server.region = "" then "FBLink VPN - " ++ server.name
    else "FBLink VPN - " ++ server.region
  [("containers", .arr [.obj [("container", .str "fblink-xray"),
      ("xray", .obj [("last_config", .obj config), ("isThirdPartyConfig", .bool true)])]]),
    ("defaultContainer", .str "fblink-xray"), ("description", .str description),
    ("country_code", .str server.countryCode), ("server_id", .num server.id),
    ("is_vip_only", .bool server.vipOnly), ("is_available", .bool true),
    ("dns1", .str dnsConfig.primary), ("dns2", .str dnsConfig.secondary),
    ("hostName", .str template.address)]

end VipConfig

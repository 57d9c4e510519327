import DrFrakeVpn.XrayMatching

/-! # The routing of a VIP config

The rules of a delivered config under Xray's semantics, against what the routing profiles and
the DNS servers are meant to do. -/
namespace VipRouting

open GoValues BackendModels VipConfig PlatformRouting RoutingAgreement XrayMatching DottedAddresses
open List

variable (decode : String → List String)

section Rules

variable (m : Matching) (network : Network) (t : Target) (tag : String)

theorem lookup_network (items : List String) (h : field ≠ "network") :
    lookup (asMap (some (matcherRule tag field items))) "network" = none := by
  rw [lookup_matcherRule (by decide) (by decide), if_neg h]

theorem pick_matchers {items p} (hfield : field ≠ "outboundTag") (happlies : items ≠ [] →
      applies m network t (matcherRule tag field items) = items.any p) :
    pick m network (if items ≠ [] then [matcherRule tag field items] else []) t =
      if items.any p then some tag else none := by
  by_cases hitems : items = []
  · simp [hitems, pick]
  rw [if_pos hitems, pick, find?_singleton, happlies hitems]
  split
  · rw [Option.map_some, tag_matcherRule hfield]
  · rfl

theorem pick_domains (items : List String) :
    pick m network (if items ≠ [] then [matcherRule tag "domain" items] else []) t =
      if items.any (fun e => t.name.any (m.domain e)) then some tag else none := by
  refine pick_matchers m network t tag (by decide) fun hitems => ?_
  rw [applies_domainRule m network t tag hitems]

theorem pick_ips (items : List String) :
    pick m network (if items ≠ [] then [matcherRule tag "ip" items] else []) t =
      if items.any (fun c => t.addresses.any (m.ip c)) then some tag else none := by
  refine pick_matchers m network t tag (by decide) fun hitems => ?_
  rw [applies_ipRule m network t tag hitems]

theorem appendRules_eq : appendRules acc rules a tag = rules ++
      ((if acc.domains a ≠ [] then [matcherRule tag "domain" (acc.domains a)] else []) ++
        if acc.ips a ≠ [] then [matcherRule tag "ip" (acc.ips a)] else []) := by
  unfold appendRules
  by_cases hd : acc.domains a = [] <;> by_cases hi : acc.ips a = [] <;> simp [hd, hi]

theorem pick_vipRules (profiles : List RoutingProfile) (dnsConfig : VipDNSConfig) :
    pick m network (vipRules decode profiles dnsConfig) t =
      let acc := rulesByAction decode profiles
      if (dnsAddresses dnsConfig).any (fun c => t.addresses.any (m.ip c)) then some "proxy"
      else if (acc.domains .direct).any (fun e => t.name.any (m.domain e)) then some "direct"
      else if (acc.ips .direct).any (fun c => t.addresses.any (m.ip c)) then some "direct"
      else if (acc.domains .proxy).any (fun e => t.name.any (m.domain e)) then some "proxy"
      else if (acc.ips .proxy).any (fun c => t.addresses.any (m.ip c)) then some "proxy"
      else none := by
  have hdns : vipDNSProxyRules dnsConfig =
      if dnsAddresses dnsConfig ≠ [] then [matcherRule xrayProxyTag "ip" (dnsAddresses dnsConfig)]
      else [] := by
    unfold vipDNSProxyRules
    split <;> simp_all
  rw [vipRules, hdns, buildVIPRoutingRules, appendRules_eq, appendRules_eq, nil_append]
  simp only [pick_append, pick_domains, pick_ips]
  split_ifs <;> rfl

end Rules

variable (m : Matching)

theorem route_delivered (network : Network) (clientID : String) (server : VPNServer)
    (template : ClientTemplate) (profiles : List RoutingProfile) (dnsConfig : VipDNSConfig)
    (d : Destination) :
    route m network
        (lastConfig (buildVLESSConfig decode clientID server template profiles dnsConfig)) d =
      some (((pick m network (vipRules decode profiles dnsConfig) d.target).or
        (if d.isHost then pick m network (vipRules decode profiles dnsConfig) d.resolved
          else none)).getD "proxy") := by
  have hconfig : lastConfig (buildVLESSConfig decode clientID server template profiles dnsConfig) =
      xrayConfig decode clientID (clientTemplateDefaults template server) profiles dnsConfig := rfl
  rw [hconfig]
  apply route_ifNonMatch
  · rw [routing_delivered]
    rfl
  · exact rules_delivered ..
  · rw [← head?_map, tags_delivered]
    rfl

def xrayBlockTag : String := "block"

/-- The rule that keeps QUIC from passing the others. -/
def vipQUICBlockRules : List Json :=
  [.obj [("type", .str "field"), ("network", .str "udp"), ("port", .str "443"),
    ("outboundTag", .str xrayBlockTag)]]

theorem pick_vipRules_tag (network : Network) (t : Target) (profiles : List RoutingProfile)
    (dnsConfig : VipDNSConfig) {tag}
    (h : pick m network (vipRules decode profiles dnsConfig) t = some tag) :
    tag = "proxy" ∨ tag = "direct" := by
  rw [pick_vipRules] at h
  dsimp only at h
  split_ifs at h <;> simp_all

theorem route_tag (network : Network) (clientID : String) (server : VPNServer)
    (template : ClientTemplate) (profiles : List RoutingProfile) (dnsConfig : VipDNSConfig)
    (d : Destination) {tag} (h : route m network (lastConfig (buildVLESSConfig decode clientID
      server template profiles dnsConfig)) d = some tag) : tag = "proxy" ∨ tag = "direct" := by
  rw [route_delivered, Option.some.injEq] at h
  cases hname : pick m network (vipRules decode profiles dnsConfig) d.target with
  | some found =>
    rw [hname] at h
    obtain rfl : found = tag := h
    exact pick_vipRules_tag decode m network _ profiles dnsConfig hname
  | none =>
    rw [hname, Option.none_or] at h
    by_cases hhost : d.isHost
    · rw [if_pos hhost] at h
      cases hresolved : pick m network (vipRules decode profiles dnsConfig) d.resolved with
      | some found =>
        rw [hresolved] at h
        obtain rfl : found = tag := h
        exact pick_vipRules_tag decode m network _ profiles dnsConfig hresolved
      | none =>
        rw [hresolved] at h
        exact .inl h.symm
    · rw [if_neg hhost] at h
      exact .inl h.symm

/-- A rule of the block outbound stands before every rule of the others, that outbound is there,
and UDP to port 443 goes to it. -/
structure QuicBlocked (m : Matching) (config : Fields) : Prop where
  routed : ∀ d : Destination, d.target.port = 443 → route m .udp config d = some xrayBlockTag
  outbound : xrayBlockTag ∈ (outboundsOf config).map tagOf
  first : ∃ before rule after, rulesOf config = before ++ rule :: after ∧
    rule ∈ vipQUICBlockRules ∧
    ∀ r ∈ before, asString (lookup (asMap (some r)) "outboundTag") ∉ [xrayProxyTag, xrayDirectTag]

/-- No config blocks QUIC: no destination is routed there, the outbound is missing and so is the
rule. -/
theorem quic_never_blocked (m : Matching) (clientID : String) (server : VPNServer)
    (template : ClientTemplate) (profiles : List RoutingProfile) (dnsConfig : VipDNSConfig) :
    let config := lastConfig
      (buildVLESSConfig decode clientID server template profiles dnsConfig)
    ¬ QuicBlocked m config ∧ (∀ d, route m .udp config d ≠ some xrayBlockTag) ∧
      xrayBlockTag ∉ (outboundsOf config).map tagOf ∧
      ∀ rule ∈ vipQUICBlockRules, rule ∉ rulesOf config := by
  intro config
  have hrouted : ∀ d, route m .udp config d ≠ some xrayBlockTag := by
    intro d h
    rcases route_tag decode m .udp clientID server template profiles dnsConfig d h with h | h <;>
      exact absurd h (by decide)
  have hmissing : xrayBlockTag ∉ (outboundsOf config).map tagOf := by
    have htags : (outboundsOf config).map tagOf = ["proxy", "direct"] := tags_delivered ..
    rw [htags]
    decide
  have hrule : ∀ rule ∈ vipQUICBlockRules, rule ∉ rulesOf config := by
    intro rule hquic hmem
    have hconfig : rulesOf config = vipRules decode profiles dnsConfig := rules_delivered ..
    rw [vipQUICBlockRules, mem_singleton] at hquic
    -- the rules of the config name domains or addresses, no network
    obtain ⟨tag, items, -, rfl | rfl⟩ := vipRules_shape decode hmem
    · have hnone := lookup_network tag items (show "domain" ≠ "network" by decide)
      rw [hquic] at hnone
      cases hnone
    · have hnone := lookup_network tag items (show "ip" ≠ "network" by decide)
      rw [hquic] at hnone
      cases hnone
  refine ⟨fun h => hmissing h.outbound, hrouted, hmissing, hrule⟩

/-- QUIC to any address is carried by the proxy. -/
theorem quic_reaches_proxy : ¬ QuicBlocked xray (lastConfig (exampleEntry [])) ∧
    route xray .udp (lastConfig (exampleEntry [])) (.address "203.0.113.7" 443) = some "proxy" := by
  refine ⟨fun h => absurd h.outbound (by decide), ?_⟩
  unfold exampleEntry
  rfl

/-- A name with a dot in it, on one line. -/
structure HostName where
  text : String
  dot : '.' ∈ text.toList
  oneLine : '\n' ∉ text.toList

/-- An address in dotted form. -/
structure IPv4 where
  text : String
  quad : (quad? text).isSome

section Decision

variable (profiles : List RoutingProfile) (dnsConfig : VipDNSConfig)

/-- The profiles that count: enabled, and no system preset beside an enabled custom one. -/
def effectiveProfiles : List RoutingProfile :=
  profiles.filter fun p => !skipped (hasEnabledCustomProfile profiles) p

def listsHost (p : RoutingProfile) (host : HostName) : Bool :=
  decide (toLower host.text ∈ decode p.domainsJSON) ||
    (decode p.domainSuffixesJSON).any fun suffix => underSuffix suffix host.text

def listsAddress (p : RoutingProfile) (addresses : List IPv4) : Bool :=
  (decode p.cidrsJSON).any fun cidr => addresses.any fun ip => cidrMatches cidr ip.text

def vipDNSAddresses : List String :=
  ([dnsConfig.primary, dnsConfig.secondary, vipDNSCleanIP, vipDNSAdBlockIP].map trimSpace).filter
    (· ≠ "")

/-- Where the traffic to a host is meant to go. -/
def decision (host : HostName) (addresses : List IPv4) : String :=
  let p := effectiveProfiles profiles
  if p.any fun p => p.action = .direct && listsHost decode p host then "direct"
  else if p.any fun p => p.action = .proxy && listsHost decode p host then "proxy"
  else if addresses.any fun ip => decide (ip.text ∈ vipDNSAddresses dnsConfig) then "proxy"
  else if p.any fun p => p.action = .direct && listsAddress decode p addresses then "direct"
  else "proxy"

theorem mem_effectiveProfiles : p ∈ effectiveProfiles profiles ↔ Effective profiles p := by
  simp [effectiveProfiles, Effective]

theorem profileDomains_match (host : HostName) :
    (profileDomains decode p).any (domainMatches · host.text) = listsHost decode p host := by
  rw [Bool.eq_iff_iff, any_eq_true]
  unfold profileDomains listsHost
  simp only [mem_append, mem_map, mem_filterMap, Bool.or_eq_true,
    decide_eq_true_eq, any_eq_true]
  constructor
  · rintro ⟨e, ⟨domain, hdomain, rfl⟩ | ⟨suffix, hsuffix, he⟩, hmatch⟩
    · rw [domainMatches_full] at hmatch
      exact .inl (hmatch ▸ hdomain)
    · exact .inr ⟨suffix, hsuffix,
        (suffixRule_matches suffix host.dot host.oneLine).mp ⟨e, he, hmatch⟩⟩
  · rintro (hdomain | ⟨suffix, hsuffix, hunder⟩)
    · exact ⟨_, .inl ⟨_, hdomain, rfl⟩, (domainMatches_full).mpr rfl⟩
    · obtain ⟨e, he, hmatch⟩ := (suffixRule_matches suffix host.dot host.oneLine).mpr hunder
      exact ⟨e, .inr ⟨suffix, hsuffix, he⟩, hmatch⟩

variable (a : RoutingProfileAction)

theorem any_effective {entries : RoutingProfile → List String} {items : List String}
    (hitems : ∀ e, e ∈ items ↔ ∃ p, Effective profiles p ∧ p.action = a ∧ e ∈ entries p)
    (q : String → Bool) : items.any q =
      (effectiveProfiles profiles).any fun p => p.action = a && (entries p).any q := by
  rw [Bool.eq_iff_iff, any_eq_true, any_eq_true]
  simp only [hitems, mem_effectiveProfiles, Bool.and_eq_true, decide_eq_true_eq, any_eq_true]
  constructor
  · rintro ⟨e, ⟨p, hp, ha, he⟩, hmatch⟩
    exact ⟨p, hp, ha, e, he, hmatch⟩
  · rintro ⟨p, hp, ha, e, he, hmatch⟩
    exact ⟨e, ⟨p, hp, ha, he⟩, hmatch⟩

theorem domains_match (host : HostName) :
    ((rulesByAction decode profiles).domains a).any (domainMatches · host.text) =
      (effectiveProfiles profiles).any fun p => p.action = a && listsHost decode p host := by
  simp only [any_effective profiles a (mem_domains decode profiles a), profileDomains_match]

theorem ips_match (addresses : List IPv4) :
    ((rulesByAction decode profiles).ips a).any
        (fun c => (addresses.map IPv4.text).any (cidrMatches c)) =
      (effectiveProfiles profiles).any fun p =>
        p.action = a && listsAddress decode p addresses := by
  simp only [any_effective profiles a (mem_ips decode profiles a), listsAddress, any_map]
  rfl

theorem mem_appendIP (ips : List String) (ip e : String) :
    e ∈ appendIP ips ip ↔ e ∈ ips ∨ (trimSpace ip ≠ "" ∧ e = trimSpace ip ++ "/32") := by
  unfold appendIP
  dsimp only
  split_ifs <;> aesop

theorem dns_match (ip : IPv4) : ((dnsAddresses dnsConfig).any fun c => cidrMatches c ip.text) =
    decide (ip.text ∈ vipDNSAddresses dnsConfig) := by
  rw [Bool.eq_iff_iff, any_eq_true, decide_eq_true_eq]
  have hdns : ∀ c, c ∈ dnsAddresses dnsConfig ↔
      ∃ dns ∈ vipDNSAddresses dnsConfig, c = dns ++ "/32" := by
    intro c
    have h := mem_foldl (f := appendIP) id _ mem_appendIP
      [dnsConfig.primary, dnsConfig.secondary, vipDNSCleanIP, vipDNSAdBlockIP] [] c
    simp only [id, not_mem_nil, false_or] at h
    unfold dnsAddresses vipDNSAddresses
    rw [h]
    constructor
    · rintro ⟨dns, hdns, hblank, rfl⟩
      exact ⟨_, mem_filter.mpr ⟨mem_map_of_mem hdns, by simpa using hblank⟩, rfl⟩
    · rintro ⟨dns, hdns, rfl⟩
      obtain ⟨hmem, hblank⟩ := mem_filter.mp hdns
      obtain ⟨raw, hraw, rfl⟩ := mem_map.mp hmem
      exact ⟨raw, hraw, by simpa using hblank, rfl⟩
  constructor
  · rintro ⟨c, hc, hmatch⟩
    obtain ⟨dns, hmem, rfl⟩ := (hdns c).mp hc
    rwa [(cidrMatches_single dns ip.quad).mp hmatch]
  · intro hmem
    exact ⟨_, (hdns _).mpr ⟨_, hmem, rfl⟩, (cidrMatches_single ip.text ip.quad).mpr rfl⟩

variable (network : Network)

theorem pick_name (host : HostName) :
    pick xray network (vipRules decode profiles dnsConfig) ⟨some host.text, [], port⟩ =
      if (effectiveProfiles profiles).any fun p =>
          p.action = .direct && listsHost decode p host then
        some "direct"
      else if (effectiveProfiles profiles).any fun p =>
          p.action = .proxy && listsHost decode p host then
        some "proxy"
      else none := by
  rw [pick_vipRules]
  simp [xray, domains_match]

theorem pick_addresses (host : HostName) (addresses : List IPv4) (port : ℕ)
    (hlisted : ∀ a : RoutingProfileAction, ((effectiveProfiles profiles).any fun p =>
      p.action = a && listsHost decode p host) = false) :
    (pick xray network (vipRules decode profiles dnsConfig)
        ⟨some host.text, addresses.map IPv4.text, port⟩).getD "proxy" =
      if addresses.any fun ip => decide (ip.text ∈ vipDNSAddresses dnsConfig) then "proxy"
      else if (effectiveProfiles profiles).any fun p =>
        p.action = .direct && listsAddress decode p addresses then "direct"
      else "proxy" := by
  have hdns : ((dnsAddresses dnsConfig).any fun c =>
      (addresses.map IPv4.text).any (cidrMatches c)) =
      addresses.any fun ip => decide (ip.text ∈ vipDNSAddresses dnsConfig) := by
    simp only [← dns_match]
    rw [Bool.eq_iff_iff]
    simp only [any_map, any_eq_true, Function.comp]
    exact ⟨fun ⟨c, hc, ip, hip, h⟩ => ⟨ip, hip, c, hc, h⟩, fun ⟨ip, hip, c, hc, h⟩ =>
      ⟨c, hc, ip, hip, h⟩⟩
  rw [pick_vipRules]
  simp only [xray, Option.any_some, domains_match, hlisted, hdns, ips_match, Bool.false_eq_true,
    if_false]
  split_ifs <;> rfl

theorem pick_dns (ip : IPv4) (port : ℕ) (h : ip.text ∈ vipDNSAddresses dnsConfig) :
    pick xray network (vipRules decode profiles dnsConfig) ⟨none, [ip.text], port⟩ =
      some "proxy" := by
  have hdns : ((dnsAddresses dnsConfig).any fun c => [ip.text].any (cidrMatches c)) := by
    simp only [any_cons, any_nil, Bool.or_false]
    rw [dns_match, decide_eq_true h]
  rw [pick_vipRules]
  exact if_pos hdns

theorem route_host (clientID : String) (server : VPNServer) (template : ClientTemplate)
    (host : HostName) (addresses : List IPv4) (port : ℕ) :
    route xray network
        (lastConfig (buildVLESSConfig decode clientID server template profiles dnsConfig))
        (.host host.text (addresses.map IPv4.text) port) =
      some (decision decode profiles dnsConfig host addresses) := by
  rw [route_delivered]
  simp only [Destination.target, Destination.resolved, Destination.isHost, if_true, pick_name]
  unfold decision
  by_cases hdirect : ((effectiveProfiles profiles).any fun p =>
      p.action = .direct && listsHost decode p host)
  · rw [if_pos hdirect, if_pos hdirect]
    rfl
  rw [if_neg hdirect, if_neg hdirect]
  by_cases hproxy : ((effectiveProfiles profiles).any fun p =>
      p.action = .proxy && listsHost decode p host)
  · rw [if_pos hproxy, if_pos hproxy]
    rfl
  rw [if_neg hproxy, if_neg hproxy, Option.none_or]
  rw [pick_addresses decode profiles dnsConfig network host addresses port]
  rintro (_ | _)
  · exact Bool.eq_false_iff.mpr hdirect
  · exact Bool.eq_false_iff.mpr hproxy

/-- A config routes every host as its profiles say, and the DNS servers through the proxy. -/
theorem routing_decision (network : Network) (clientID : String) (server : VPNServer)
    (template : ClientTemplate) :
    let config := lastConfig
      (buildVLESSConfig decode clientID server template profiles dnsConfig)
    (∀ (host : HostName) (addresses : List IPv4) (port : ℕ),
      route xray network config (.host host.text (addresses.map IPv4.text) port) =
        some (decision decode profiles dnsConfig host addresses)) ∧
    ∀ (ip : IPv4) (port : ℕ), ip.text ∈ vipDNSAddresses dnsConfig →
      route xray network config (.address ip.text port) = some "proxy" := by
  intro config
  constructor
  · intro host addresses port
    exact route_host decode profiles dnsConfig network clientID server template host addresses port
  · intro ip port h
    rw [route_delivered]
    simp only [Destination.target]
    rw [pick_dns decode profiles dnsConfig network ip port h]
    rfl

end Decision

def exampleAddress : IPv4 := ⟨"203.0.113.7", by decide +kernel⟩

/-- A domain of a direct profile, a name that no profile lists, and a DNS server. -/
theorem routing_decision_intranet :
    let profiles :=
      [exampleProfile .proxy "video.example", exampleProfile .direct "intranet.example"]
    let config := lastConfig (exampleEntry profiles)
    route xray .tcp config (.host "intranet.example" ["203.0.113.7"] 443) = some "direct" ∧
      route xray .tcp config (.host "other.example" ["203.0.113.7"] 443) = some "proxy" ∧
      route xray .udp config (.address "172.29.172.254" 53) = some "proxy" := by
  intro profiles config
  obtain ⟨htcp, -⟩ := routing_decision exampleDecode profiles ⟨vipDNSCleanIP, ""⟩ .tcp "client"
    exampleServer exampleTemplate
  obtain ⟨-, hudp⟩ := routing_decision exampleDecode profiles ⟨vipDNSCleanIP, ""⟩ .udp "client"
    exampleServer exampleTemplate
  refine ⟨(htcp ⟨"intranet.example", by decide, by decide⟩ [exampleAddress] 443).trans ?_,
    (htcp ⟨"other.example", by decide, by decide⟩ [exampleAddress] 443).trans ?_,
    hudp ⟨"172.29.172.254", by decide +kernel⟩ 53 (by decide +kernel)⟩
  · decide +kernel
  · decide +kernel

end VipRouting

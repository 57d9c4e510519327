import DrFrakeVpn.PlatformRouting

/-! # One config, one routing

The outbound that carries a TCP connection under the delivered config and under the ones that the
desktop and the Android client derive from it. -/
namespace RoutingAgreement

open GoValues BackendModels VipConfig PlatformRouting

variable (decode : String → List String)

def Effective (profiles : List RoutingProfile) (p : RoutingProfile) : Prop :=
  p ∈ profiles ∧ skipped (hasEnabledCustomProfile profiles) p = false

theorem addProfile_adds (custom : Bool) (acc : RulesByAction) (p : RoutingProfile)
    (a : RoutingProfileAction) (e : String) :
    (e ∈ (addProfile decode custom acc p).domains a ↔ e ∈ acc.domains a ∨
      (skipped custom p = false ∧ p.action = a ∧ e ∈ profileDomains decode p)) ∧
    (e ∈ (addProfile decode custom acc p).ips a ↔ e ∈ acc.ips a ∨
      (skipped custom p = false ∧ p.action = a ∧ e ∈ decode p.cidrsJSON)) := by
  unfold addProfile
  by_cases hskip : skipped custom p
  · simp [hskip]
  · by_cases ha : a = p.action
    · subst ha
      simp [hskip]
    · simp [hskip, Function.update_of_ne ha, Ne.symm ha]

theorem mem_foldl {S P : Type} {f} (entries : S → List String) (adds : P → String → Prop)
    (hf : ∀ s p e, e ∈ entries (f s p) ↔ e ∈ entries s ∨ adds p e) :
    ∀ (items : List P) (s : S) (e : String),
      e ∈ entries (items.foldl f s) ↔ e ∈ entries s ∨ ∃ p ∈ items, adds p e
  | [], s, e => by simp
  | p :: items, s, e => by
    rw [List.foldl_cons, mem_foldl entries adds hf items, hf]
    simp [or_assoc]

theorem mem_domains (profiles : List RoutingProfile) (a : RoutingProfileAction) (e : String) :
    e ∈ (rulesByAction decode profiles).domains a ↔
      ∃ p, Effective profiles p ∧ p.action = a ∧ e ∈ profileDomains decode p := by
  have h := mem_foldl (·.domains a) _
    (fun s p e => (addProfile_adds decode (hasEnabledCustomProfile profiles) s p a e).1)
    profiles ⟨fun _ => [], fun _ => []⟩ e
  simpa [rulesByAction, Effective, and_assoc] using h

theorem mem_ips (profiles : List RoutingProfile) (a : RoutingProfileAction) (c : String) :
    c ∈ (rulesByAction decode profiles).ips a ↔
      ∃ p, Effective profiles p ∧ p.action = a ∧ c ∈ decode p.cidrsJSON := by
  have h := mem_foldl (·.ips a) _
    (fun s p e => (addProfile_adds decode (hasEnabledCustomProfile profiles) s p a e).2)
    profiles ⟨fun _ => [], fun _ => []⟩ c
  simpa [rulesByAction, Effective, and_assoc] using h

/-- An effective profile of the action has a domain or a suffix that is not blank. -/
def NamesDomains (profiles : List RoutingProfile) (a : RoutingProfileAction) : Prop :=
  ∃ p, Effective profiles p ∧ p.action = a ∧ profileDomains decode p ≠ []

theorem domains_ne_nil :
    (rulesByAction decode profiles).domains a ≠ [] ↔ NamesDomains decode profiles a := by
  constructor
  · intro h
    obtain ⟨e, he⟩ := List.exists_mem_of_ne_nil _ h
    obtain ⟨p, hp, ha, hmem⟩ := (mem_domains decode profiles a e).mp he
    exact ⟨p, hp, ha, List.ne_nil_of_mem hmem⟩
  · rintro ⟨p, hp, ha, hne⟩
    obtain ⟨e, he⟩ := List.exists_mem_of_ne_nil _ hne
    exact List.ne_nil_of_mem ((mem_domains decode profiles a e).mpr ⟨p, hp, ha, he⟩)

variable {rule : Json}

theorem mem_appendRules :
    rule ∈ appendRules acc rules a outboundTag ↔ rule ∈ rules ∨
      (acc.domains a ≠ [] ∧ rule = matcherRule outboundTag "domain" (acc.domains a)) ∨
      (acc.ips a ≠ [] ∧ rule = matcherRule outboundTag "ip" (acc.ips a)) := by
  unfold appendRules
  by_cases hd : acc.domains a = [] <;> by_cases hi : acc.ips a = [] <;> simp [hd, hi]

def tagOfAction : RoutingProfileAction → String
  | .direct => xrayDirectTag
  | .proxy => xrayProxyTag

variable {profiles : List RoutingProfile}

theorem mem_buildVIPRoutingRules :
    rule ∈ buildVIPRoutingRules decode profiles ↔ ∃ a,
      ((rulesByAction decode profiles).domains a ≠ [] ∧
        rule = matcherRule (tagOfAction a) "domain" ((rulesByAction decode profiles).domains a)) ∨
      ((rulesByAction decode profiles).ips a ≠ [] ∧
        rule = matcherRule (tagOfAction a) "ip" ((rulesByAction decode profiles).ips a)) := by
  unfold buildVIPRoutingRules
  rw [mem_appendRules, mem_appendRules]
  constructor
  · rintro ((h | h) | h)
    · cases h
    · exact ⟨.direct, h⟩
    · exact ⟨.proxy, h⟩
  · rintro ⟨a, h⟩
    cases a with
    | direct => exact .inl (.inr h)
    | proxy => exact .inr h

theorem strings_strs : strings (some (strs items)) = items := by
  simp [strings, strs, asArr, asArr?, asString, Function.comp_def]

theorem strings_none : strings none = [] := rfl

theorem lookup_matcherRule {k} (htype : "type" ≠ k)
    (htag : "outboundTag" ≠ k) :
    lookup (asMap (some (matcherRule tag field items))) k =
      if field = k then some (strs items) else none := by
  by_cases hk : field = k
  · simp [matcherRule, asMap, asMap?, lookup, hk]
  · simp [matcherRule, asMap, asMap?, lookup, hk, htype, htag]

theorem tag_matcherRule (h : field ≠ "outboundTag") :
    asString (lookup (asMap (some (matcherRule tag field items))) "outboundTag") = tag := by
  simp [matcherRule, asMap, asMap?, lookup, h, asString]

variable {dnsConfig : VipDNSConfig}

section Matching

variable (m : Matching) (network : Network) (t : Target)

variable {items : List String}

theorem applies_domainRule (tag : String) (h : items ≠ []) :
    applies m network t (matcherRule tag "domain" items) =
      items.any fun e => t.name.any (m.domain e) := by
  simp [applies, conditions, lookup_matcherRule, strings_strs, strings_none, h, networkNames,
    portText, otherConditions]

theorem applies_ipRule (tag : String) (h : items ≠ []) :
    applies m network t (matcherRule tag "ip" items) =
      items.any fun c => t.addresses.any (m.ip c) := by
  simp [applies, conditions, lookup_matcherRule, strings_strs, strings_none, h, networkNames,
    portText, otherConditions]

def Named (profiles : List RoutingProfile) (dnsConfig : VipDNSConfig) (d : Destination) : Prop :=
  (∃ p, Effective profiles p ∧ ∃ e ∈ profileDomains decode p, d.resolved.name.any (m.domain e)) ∨
  ∃ c, (c ∈ dnsAddresses dnsConfig ∨ ∃ p, Effective profiles p ∧ c ∈ decode p.cidrsJSON) ∧
    d.resolved.addresses.any (m.ip c)

def vipRules (profiles : List RoutingProfile) (dnsConfig : VipDNSConfig) : List Json :=
  vipDNSProxyRules dnsConfig ++ buildVIPRoutingRules decode profiles

theorem mem_vipDNSProxyRules :
    rule ∈ vipDNSProxyRules dnsConfig ↔ dnsAddresses dnsConfig ≠ [] ∧
      rule = matcherRule xrayProxyTag "ip" (dnsAddresses dnsConfig) := by
  unfold vipDNSProxyRules
  split
  · next h => simp [h]
  · next h => simp [h]

theorem vipRules_shape (h : rule ∈ vipRules decode profiles dnsConfig) : ∃ tag items, items ≠ [] ∧
      (rule = matcherRule tag "domain" items ∨ rule = matcherRule tag "ip" items) := by
  rcases List.mem_append.mp h with h | h
  · obtain ⟨hne, rfl⟩ := mem_vipDNSProxyRules.mp h
    exact ⟨_, _, hne, .inr rfl⟩
  · obtain ⟨a, ⟨hne, rfl⟩ | ⟨hne, rfl⟩⟩ := (mem_buildVIPRoutingRules decode).mp h
    · exact ⟨_, _, hne, .inl rfl⟩
    · exact ⟨_, _, hne, .inr rfl⟩

variable (d : Destination)

theorem target_name : d.target.name = d.resolved.name := by
  cases d <;> rfl

theorem target_addresses : d.target.addresses ⊆ d.resolved.addresses := by
  cases d with
  | host name addresses port => exact List.nil_subset _
  | address ip port => exact List.Subset.refl _

theorem applies_resolved (hrule : rule ∈ vipRules decode profiles dnsConfig) {d : Destination}
    (h : applies m .tcp d.target rule) : applies m .tcp d.resolved rule := by
  obtain ⟨tag, items, hne, rfl | rfl⟩ := vipRules_shape decode hrule
  · rw [applies_domainRule m _ _ _ hne] at h ⊢
    rwa [← target_name]
  · rw [applies_ipRule m _ _ _ hne] at h ⊢
    obtain ⟨c, hc, hany⟩ := List.any_eq_true.mp h
    obtain ⟨ip, hip, hmatch⟩ := List.any_eq_true.mp hany
    exact List.any_eq_true.mpr ⟨c, hc, List.any_eq_true.mpr ⟨ip, target_addresses d hip, hmatch⟩⟩

theorem exists_applies_iff (profiles : List RoutingProfile) (dnsConfig : VipDNSConfig)
    (d : Destination) :
    (∃ rule ∈ vipRules decode profiles dnsConfig, applies m .tcp d.resolved rule) ↔
      Named decode m profiles dnsConfig d := by
  constructor
  · rintro ⟨rule, hmem, happlies⟩
    rcases List.mem_append.mp hmem with h | h
    · obtain ⟨hne, rfl⟩ := mem_vipDNSProxyRules.mp h
      rw [applies_ipRule m _ _ _ hne] at happlies
      obtain ⟨c, hc, hany⟩ := List.any_eq_true.mp happlies
      exact .inr ⟨c, .inl hc, hany⟩
    · obtain ⟨a, ⟨hne, rfl⟩ | ⟨hne, rfl⟩⟩ := (mem_buildVIPRoutingRules decode).mp h
      · rw [applies_domainRule m _ _ _ hne] at happlies
        obtain ⟨e, he, hany⟩ := List.any_eq_true.mp happlies
        obtain ⟨p, hp, -, hdomain⟩ := (mem_domains decode profiles a e).mp he
        exact .inl ⟨p, hp, e, hdomain, hany⟩
      · rw [applies_ipRule m _ _ _ hne] at happlies
        obtain ⟨c, hc, hany⟩ := List.any_eq_true.mp happlies
        obtain ⟨p, hp, -, hcidr⟩ := (mem_ips decode profiles a c).mp hc
        exact .inr ⟨c, .inr ⟨p, hp, hcidr⟩, hany⟩
  · rintro (⟨p, hp, e, he, hany⟩ | ⟨c, hc | ⟨p, hp, hc⟩, hany⟩)
    · have hmem := (mem_domains decode profiles p.action e).mpr ⟨p, hp, rfl, he⟩
      have hne := List.ne_nil_of_mem hmem
      refine ⟨_, List.mem_append_right _
        ((mem_buildVIPRoutingRules decode).mpr ⟨p.action, .inl ⟨hne, rfl⟩⟩), ?_⟩
      rw [applies_domainRule m _ _ _ hne]
      exact List.any_eq_true.mpr ⟨e, hmem, hany⟩
    · have hne := List.ne_nil_of_mem hc
      refine ⟨_, List.mem_append_left _ (mem_vipDNSProxyRules.mpr ⟨hne, rfl⟩), ?_⟩
      rw [applies_ipRule m _ _ _ hne]
      exact List.any_eq_true.mpr ⟨c, hc, hany⟩
    · have hmem := (mem_ips decode profiles p.action c).mpr ⟨p, hp, rfl, hc⟩
      have hne := List.ne_nil_of_mem hmem
      refine ⟨_, List.mem_append_right _
        ((mem_buildVIPRoutingRules decode).mpr ⟨p.action, .inr ⟨hne, rfl⟩⟩), ?_⟩
      rw [applies_ipRule m _ _ _ hne]
      exact List.any_eq_true.mpr ⟨c, hmem, hany⟩

theorem pick_isSome (rules : List Json) (t : Target) :
    (pick m .tcp rules t).isSome ↔ ∃ rule ∈ rules, applies m .tcp t rule := by
  rw [pick, Option.isSome_map, List.find?_isSome]

theorem pickRoute_isSome_iff (hrules : rulesOf config = vipRules decode profiles dnsConfig)
    (hstrategy : asString (lookup (routingOf config) "domainStrategy") = "IPIfNonMatch")
    (d : Destination) : (pickRoute m .tcp config d).isSome ↔
      Named decode m profiles dnsConfig d := by
  rw [← exists_applies_iff]
  unfold pickRoute
  rw [hstrategy, if_neg (by decide), hrules]
  cases hpick : pick m .tcp (vipRules decode profiles dnsConfig) d.target with
  | some tag =>
    have hsome : (pick m .tcp (vipRules decode profiles dnsConfig) d.target).isSome := by
      simp [hpick]
    obtain ⟨rule, hrule, happlies⟩ := (pick_isSome m _ _).mp hsome
    simp only [Option.isSome_some, true_iff]
    exact ⟨rule, hrule, applies_resolved decode m hrule happlies⟩
  | none =>
    cases d with
    | host name addresses port => exact pick_isSome m _ _
    | address ip port =>
      -- The target of an address is the same before and after a resolution.
      rw [← pick_isSome]
      show (none : Option String).isSome ↔
          (pick m .tcp _ (Destination.address ip port).target).isSome
      rw [hpick]

end Matching

theorem splitRule_domainRule {items} (h : items ≠ []) :
    splitRule outboundTag (matcherRule tag "domain" items) = decide (tag = outboundTag) := by
  have hitems : (asArr (some (strs items))).isEmpty = false := by
    cases items with
    | nil => exact absurd rfl h
    | cons e es => rfl
  unfold splitRule
  dsimp only
  rw [tag_matcherRule (by decide),
    lookup_matcherRule (show "type" ≠ "domain" by decide) (by decide), if_pos rfl, hitems]
  simp

theorem splitRule_ipRule :
    splitRule outboundTag (matcherRule tag "ip" items) = false := by
  unfold splitRule
  dsimp only
  rw [lookup_matcherRule (show "type" ≠ "domain" by decide) (by decide), if_neg (by decide),
    lookup_matcherRule (show "type" ≠ "domainSuffix" by decide) (by decide),
    if_neg (by decide)]
  simp [asArr, asArr?]

theorem any_splitRule (profiles : List RoutingProfile) (dnsConfig : VipDNSConfig)
    (a : RoutingProfileAction) :
    (vipRules decode profiles dnsConfig).any (splitRule (tagOfAction a)) ↔
      NamesDomains decode profiles a := by
  rw [← domains_ne_nil, List.any_eq_true]
  constructor
  · rintro ⟨rule, hmem, hsplit⟩
    rcases List.mem_append.mp hmem with h | h
    · obtain ⟨-, rfl⟩ := mem_vipDNSProxyRules.mp h
      rw [splitRule_ipRule] at hsplit
      cases hsplit
    · obtain ⟨a', ⟨hne, rfl⟩ | ⟨-, rfl⟩⟩ := (mem_buildVIPRoutingRules decode).mp h
      · rw [splitRule_domainRule hne, decide_eq_true_eq] at hsplit
        have ha : a' = a := by
          cases a <;> cases a' <;> first | rfl | exact absurd hsplit (by decide)
        exact ha ▸ hne
      · rw [splitRule_ipRule] at hsplit
        cases hsplit
  · intro hne
    refine ⟨_, List.mem_append_right _ ((mem_buildVIPRoutingRules decode).mpr
      ⟨a, .inl ⟨hne, rfl⟩⟩), ?_⟩
    rw [splitRule_domainRule hne, decide_eq_true rfl]

theorem preferred_vpnAllSites (profiles : List RoutingProfile) (dnsConfig : VipDNSConfig) :
    preferredDefaultTag (vipRules decode profiles dnsConfig) .vpnAllSites = "direct" ↔
      NamesDomains decode profiles .proxy ∧ ¬ NamesDomains decode profiles .direct := by
  rw [← any_splitRule decode profiles dnsConfig .proxy,
    ← any_splitRule decode profiles dnsConfig .direct]
  show preferredDefaultTag _ _ = _ ↔ List.any _ (splitRule "proxy") ∧
    ¬ List.any _ (splitRule "direct")
  unfold preferredDefaultTag
  generalize List.any _ (splitRule "proxy") = hasProxyRules
  generalize List.any _ (splitRule "direct") = hasDirectRules
  cases hasProxyRules <;> cases hasDirectRules <;> decide

theorem preferred_cases (rules : List Json) (routeMode : RouteMode) :
    preferredDefaultTag rules routeMode = "direct" ∨
      preferredDefaultTag rules routeMode = "proxy" := by
  unfold preferredDefaultTag
  dsimp only
  split_ifs <;> simp

def lastConfig (entry : Fields) : Fields :=
  let container := asMap (asArr (lookup entry "containers")).head?
  asMap (lookup (asMap (lookup container "xray")) "last_config")

def hostNameOf (entry : Fields) : String := asString (lookup entry "hostName")

section Delivered

variable (clientID : String) (server : VPNServer) (template : ClientTemplate)
  (profiles : List RoutingProfile) (dnsConfig : VipDNSConfig)

theorem routing_delivered : routingOf (xrayConfig decode clientID template profiles dnsConfig) =
    [("domainStrategy", .str "IPIfNonMatch"),
      ("rules", .arr (vipRules decode profiles dnsConfig))] := by
  rfl

theorem rules_delivered : rulesOf (xrayConfig decode clientID template profiles dnsConfig) =
    vipRules decode profiles dnsConfig := by
  rfl

theorem tags_delivered :
    (outboundsOf (xrayConfig decode clientID template profiles dnsConfig)).map tagOf =
      ["proxy", "direct"] := by
  rfl

end Delivered

theorem appendIP_ne_nil {ip} (h : trimSpace ip ≠ "") :
    appendIP ips ip ≠ [] := by
  unfold appendIP
  rw [if_neg h]
  split
  · next hmem => exact List.ne_nil_of_mem hmem
  · simp

theorem vipRules_ne_nil (profiles : List RoutingProfile) (dnsConfig : VipDNSConfig) :
    vipRules decode profiles dnsConfig ≠ [] := by
  have hblock : trimSpace vipDNSAdBlockIP ≠ "" := by decide +kernel
  have hdns : dnsAddresses dnsConfig ≠ [] := by
    unfold dnsAddresses
    simp only [List.foldl_cons, List.foldl_nil]
    exact appendIP_ne_nil hblock
  exact List.ne_nil_of_mem (List.mem_append_left _ (mem_vipDNSProxyRules.mpr ⟨hdns, rfl⟩))

/-- Where the three configs send a destination: the desktop client differs from the others
exactly on what no rule names, if it prefers the direct outbound. -/
theorem routes_agree_iff (m : Matching) (pc : Desktop) (phone : Android) (hostName : String)
    {config} (hrules : rulesOf config = vipRules decode profiles dnsConfig)
    (htags : (outboundsOf config).map tagOf = ["proxy", "direct"])
    (hstrategy : lookup (routingOf config) "domainStrategy" = some (.str "IPIfNonMatch"))
    (d : Destination) :
    (route m .tcp (xrayProtocolConfig pc .vpnAllSites hostName config) d = route m .tcp config d ∧
      route m .tcp (androidConfig phone hostName config) d = route m .tcp config d) ↔
    (NamesDomains decode profiles .proxy → NamesDomains decode profiles .direct ∨
      Named decode m profiles dnsConfig d) := by
  have hsome : (lookup (routingOf config) "domainStrategy").isSome := by simp [hstrategy]
  have hout : outboundsOf config ≠ [] := by
    intro hnil
    simp [hnil] at htags
  have hfirst : (outboundsOf config).head?.map tagOf = some "proxy" := by
    rw [← List.head?_map, htags]
    rfl
  have hnamed := pickRoute_isSome_iff decode m hrules (by rw [hstrategy]; rfl) d
  have hcases := preferred_cases (vipRules decode profiles dnsConfig) .vpnAllSites
  have hpreferred := preferred_vpnAllSites decode profiles dnsConfig
  have hne : rulesOf config ≠ [] := by
    rw [hrules]
    exact vipRules_ne_nil decode profiles dnsConfig
  rw [android_route m phone hostName hout hsome,
    desktop_route m pc .vpnAllSites hostName hne hsome
      (by rw [hrules]; rcases hcases with h | h <;> simp [h])
      (by rw [hrules, htags]; rcases hcases with h | h <;> simp [h]), hrules, route, hfirst]
  cases hpick : pickRoute m .tcp config d with
  | some tag =>
    have hnames := hnamed.mp (by simp [hpick])
    simp [hnames]
  | none =>
    have hnot : ¬ Named decode m profiles dnsConfig d := fun h => by
      have hsome := hnamed.mpr h
      simp [hpick] at hsome
    rcases hcases with hdirect | hproxy
    · obtain ⟨hp, hd⟩ := hpreferred.mp hdirect
      simp [hdirect, hp, hd, hnot]
    · have hkeeps : NamesDomains decode profiles .proxy → NamesDomains decode profiles .direct := by
        intro hp
        by_contra hd
        rw [hpreferred.mpr ⟨hp, hd⟩] at hproxy
        exact absurd hproxy (by decide)
      simp only [hproxy, and_self, true_iff]
      exact fun hp => .inl (hkeeps hp)

/-- All three configs choose the same outbound exactly if the profiles do not send domains
through the tunnel while they exclude none, or if an entry or a DNS server names the
destination. -/
theorem same_routing_iff (m : Matching) (pc : Desktop) (phone : Android) (clientID : String)
    (server : VPNServer) (template : ClientTemplate) (profiles : List RoutingProfile)
    (dnsConfig : VipDNSConfig) (d : Destination) :
    let entry := buildVLESSConfig decode clientID server template profiles dnsConfig
    let delivered := lastConfig entry
    (route m .tcp (xrayProtocolConfig pc .vpnAllSites (hostNameOf entry) delivered) d =
        route m .tcp delivered d ∧
      route m .tcp (androidConfig phone (hostNameOf entry) delivered) d =
        route m .tcp delivered d) ↔
    (NamesDomains decode profiles .proxy → NamesDomains decode profiles .direct ∨
      Named decode m profiles dnsConfig d) := by
  intro entry delivered
  exact routes_agree_iff decode m pc phone (hostNameOf entry)
    (rules_delivered decode clientID (clientTemplateDefaults template server) profiles dnsConfig)
    (tags_delivered decode clientID (clientTemplateDefaults template server) profiles dnsConfig)
    (by rw [routing_delivered]; rfl) d

/-- Exact domains and single addresses, which is all that the profiles below use. -/
def exactMatching : Matching where
  domain e name := e = "full:" ++ name
  ip c ip := c = ip ++ "/32"
  port text port := text = toString port
  other _ := false

def exampleDecode (raw : String) : List String := if raw = "" then [] else [raw]

def exampleDesktop : Desktop where
  linux := true
  getIPAddress host := host
  sameText a b := a = b
  isTcpPortReachable _ _ := true

def exampleAndroid : Android := ⟨id, fun a b => a = b⟩

def exampleServer : VPNServer where
  id := 1
  name := "nl-1"
  host := "192.0.2.1"
  region := "Netherlands"
  countryCode := "NL"
  active := true
  vipOnly := true
  awgPort := 51820
  endpoint := ""
  sshPassword := ""

def exampleTemplate : ClientTemplate where
  id := 1
  updatedAt := 0
  serverID := 1
  clientID := ""
  address := "192.0.2.1"
  port := 443
  serverName := "cdn.example"
  publicKey := "key"
  shortID := "ab"
  flow := ""
  network := "tcp"
  hysteriaEnabled := false
  hysteriaPort := 0
  hysteriaPassword := ""
  containerName := ""
  security := ""
  shortIDsJSON := ""
  mldsa65Verify := ""
  fingerprint := ""
  spiderX := ""
  grpcServiceName := ""
  grpcAuthority := ""
  grpcMultiMode := true

def exampleProfile (action : RoutingProfileAction) (domain : String) : RoutingProfile where
  id := 1
  createdAt := 0
  updatedAt := 0
  deletedAt := none
  userID := 1
  name := "profile"
  code := ""
  templateCode := ""
  kind := .custom
  action := action
  enabled := true
  description := ""
  icon := ""
  sortOrder := 0
  domainsJSON := domain
  domainSuffixesJSON := ""
  cidrsJSON := ""

def exampleEntry (profiles : List RoutingProfile) : Fields :=
  buildVLESSConfig exampleDecode "client" exampleServer exampleTemplate profiles
    ⟨vipDNSCleanIP, ""⟩

def exampleRoutes (profiles : List RoutingProfile) (d : Destination) : List (Option String) :=
  let entry := exampleEntry profiles
  let delivered := lastConfig entry
  [route exactMatching .tcp delivered d,
    route exactMatching .tcp (xrayProtocolConfig exampleDesktop .vpnAllSites
      (hostNameOf entry) delivered) d,
    route exactMatching .tcp (androidConfig exampleAndroid (hostNameOf entry) delivered) d]

/-- With one site sent through the tunnel and none excluded, the desktop client takes every
other site out of the tunnel. -/
theorem desktop_leaves_tunnel :
    exampleRoutes [exampleProfile .proxy "video.example"]
        (.host "bank.example" ["198.51.100.7"] 443) =
      [some "proxy", some "direct", some "proxy"] := by
  decide +kernel

/-- With a site excluded as well, all three configs keep the other sites in the tunnel. -/
theorem routes_agree_with_exclusion :
    exampleRoutes [exampleProfile .proxy "video.example", exampleProfile .direct "intranet.example"]
        (.host "bank.example" ["198.51.100.7"] 443) =
      [some "proxy", some "proxy", some "proxy"] := by
  obtain ⟨hdesktop, handroid⟩ := (same_routing_iff exampleDecode exactMatching exampleDesktop
    exampleAndroid "client" exampleServer exampleTemplate
    [exampleProfile .proxy "video.example", exampleProfile .direct "intranet.example"]
    ⟨vipDNSCleanIP, ""⟩ (.host "bank.example" ["198.51.100.7"] 443)).mpr
    (fun _ => .inl ⟨exampleProfile .direct "intranet.example", ⟨by simp, by decide⟩, rfl,
      by decide +kernel⟩)
  have hproxy : route exactMatching .tcp (lastConfig (exampleEntry
      [exampleProfile .proxy "video.example", exampleProfile .direct "intranet.example"]))
      (.host "bank.example" ["198.51.100.7"] 443) = some "proxy" := by decide +kernel
  unfold exampleEntry at hproxy
  unfold exampleRoutes exampleEntry
  dsimp only
  rw [hdesktop, handroid, hproxy]

end RoutingAgreement

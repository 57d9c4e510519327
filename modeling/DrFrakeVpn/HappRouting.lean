import DrFrakeVpn.HappConfig
import DrFrakeVpn.VipRouting

/-! # Routing in Happ

The rules of Happ's config are the same for everybody, so they follow the profiles of a user only
by accident. -/
namespace HappRouting

open GoValues BackendModels VipConfig PlatformRouting RoutingAgreement XrayMatching VipRouting List
open HappConfig

variable (decode : String → List String)

theorem pick_cons :
    pick m network (rule :: rules) t =
      if applies m network t rule then some (asString (lookup (asMap (some rule)) "outboundTag"))
      else pick m network rules t := by
  unfold pick
  rw [find?_cons]
  cases applies m network t rule <;> rfl

theorem portMatches_443 : portMatches "443" port = decide (port = 443) := by
  have hitems : split "443" ',' = ["443"] := by decide +kernel
  have hparts : (split "443" '-').map atoi? = [some 443] := by decide +kernel
  unfold portMatches
  rw [hitems, any_cons, any_nil, hparts, Bool.or_false]
  rw [decide_eq_decide]
  omega

section Rules

variable (network : Network) (t : Target)

theorem applies_quic : applies xray network t
    (.obj [("network", .str "udp"), ("port", .num 443), ("outboundTag", .str "block")]) =
      (decide (network = .udp) && decide (t.port = 443)) := by
  have hnetwork : decide (network.name ∈ ["udp"]) = decide (network = .udp) := by
    cases network <;> decide
  show (true && (decide (network.name ∈ ["udp"]) && (portMatches "443" t.port && true))) = _
  rw [hnetwork, portMatches_443, Bool.true_and, Bool.and_true]

theorem applies_resolver : applies xray network t
    (.obj [("ip", strs [ip]), ("outboundTag", .str tag), ("port", .num 443)]) =
      (t.addresses.any (cidrMatches ip) && decide (t.port = 443)) := by
  have hport : portText (some (.num 443)) = "443" := rfl
  simp [applies, conditions, asMap, asMap?, GoValues.lookup, strings_strs, strings_none,
    networkNames, hport, portMatches_443, otherConditions, xray]

theorem applies_metrics : applies xray network t
    (.obj [("inboundTag", strs ["metrics_in"]), ("outboundTag", .str "metrics_out")]) = false := rfl

theorem applies_zones : applies xray network t
    (.obj [("domain", strs ["full:.ru", "full:.xn--p1ai"]), ("outboundTag", .str "direct")]) =
      t.name.any fun name => decide (toLower name = ".ru") ||
        decide (toLower name = ".xn--p1ai") := by
  have hfull : ∀ domain name, domainMatches ("full:" ++ domain) name =
      decide (toLower name = domain) := by
    intro domain name
    rw [Bool.eq_iff_iff, domainMatches_full, decide_eq_true_eq]
  have hru : ∀ name, domainMatches "full:.ru" name = decide (toLower name = ".ru") :=
    fun name => hfull ".ru" name
  have hrf : ∀ name, domainMatches "full:.xn--p1ai" name = decide (toLower name = ".xn--p1ai") :=
    fun name => hfull ".xn--p1ai" name
  show (true && ((["full:.ru", "full:.xn--p1ai"].any fun e =>
    t.name.any (domainMatches e)) && true)) = _
  cases t.name with
  | none => rfl
  | some name => simp [hru, hrf]

theorem applies_local : applies xray network t
    (.obj [("ip", strs happLocalNetworks), ("outboundTag", .str "direct")]) =
      happLocalNetworks.any fun c => t.addresses.any (cidrMatches c) := by
  show (true && ((happLocalNetworks.any fun c => t.addresses.any (cidrMatches c)) && true)) = _
  rw [Bool.true_and, Bool.and_true]

end Rules

variable (network : Network)

theorem pick_happRules : pick xray network happRules t =
    if network = .udp ∧ t.port = 443 then some "block"
    else if t.addresses.any (cidrMatches "1.1.1.1") ∧ t.port = 443 then some "proxy"
    else if t.addresses.any (cidrMatches "8.8.8.8") ∧ t.port = 443 then some "direct"
    else if t.name.any fun name =>
      decide (toLower name = ".ru") || decide (toLower name = ".xn--p1ai") then some "direct"
    else if happLocalNetworks.any fun c => t.addresses.any (cidrMatches c) then some "direct"
    else none := by
  unfold happRules
  rw [pick_cons, pick_cons, pick_cons, pick_cons, pick_cons, pick_cons, applies_quic,
    applies_resolver, applies_resolver, applies_metrics, applies_zones, applies_local]
  simp only [Bool.and_eq_true, decide_eq_true_eq, Bool.false_eq_true, if_false]
  rfl

/-- Happ keeps the destination off the tunnel, whatever the profiles say. -/
def staysLocal (host : HostName) (addresses : List IPv4) (port : ℕ) : Bool :=
  let resolved (range : String) := addresses.any fun ip => cidrMatches range ip.text
  toLower host.text = ".ru" || toLower host.text = ".xn--p1ai" ||
    (!(port = 443 && resolved "1.1.1.1") &&
      ((port = 443 && resolved "8.8.8.8") || happLocalNetworks.any resolved))

theorem route_happ (clientID : String) (server : VPNServer) (template : HappTemplate)
    (profiles : List RoutingProfile) (dnsConfig : VipDNSConfig) (host : HostName)
    (addresses : List IPv4) (port : ℕ) :
    route xray network (buildHappClientJSON clientID server template profiles dnsConfig)
        (.host host.text (addresses.map IPv4.text) port) =
      some (if network = .udp ∧ port = 443 then "block"
        else if staysLocal host addresses port then "direct" else "proxy") := by
  have hroute : route xray network (buildHappClientJSON clientID server template profiles dnsConfig)
      (.host host.text (addresses.map IPv4.text) port) =
      some (((pick xray network happRules ⟨some host.text, [], port⟩).or
        (pick xray network happRules ⟨some host.text, addresses.map IPv4.text, port⟩)).getD
          "proxy") :=
    route_ifNonMatch xray network rfl rfl rfl _
  have hno : ∀ items : List String, (items.any fun _ => false) = false := by simp
  rw [hroute, pick_happRules, pick_happRules]
  simp only [any_nil, Bool.false_eq_true, false_and, if_false, hno, Option.any_some]
  by_cases hquic : network = .udp ∧ port = 443
  · rw [if_pos hquic, if_pos hquic, if_pos hquic]
    rfl
  rw [if_neg hquic, if_neg hquic, if_neg hquic]
  unfold staysLocal
  by_cases hzone : (decide (toLower host.text = ".ru") ||
      decide (toLower host.text = ".xn--p1ai"))
  · rw [if_pos hzone, hzone, Bool.true_or, if_pos rfl]
    rfl
  simp only [any_map, Function.comp_def]
  split_ifs <;> grind

def ListedBy (profiles : List RoutingProfile) (host : HostName) (p : RoutingProfile) : Prop :=
  p ∈ profiles ∧ p.enabled = true ∧ p.kind = .custom ∧ listsHost decode p host = true

variable {profiles : List RoutingProfile} {host : HostName} {p : RoutingProfile}

theorem ListedBy.effective (h : ListedBy decode profiles host p) : Effective profiles p := by
  obtain ⟨hmem, henabled, hkind, -⟩ := h
  refine ⟨hmem, ?_⟩
  unfold skipped
  rw [henabled, hkind]
  rfl

theorem custom_of_effective (h : ListedBy decode profiles host p) (hq : Effective profiles q) :
    q ∈ profiles ∧ q.enabled ∧ q.kind = .custom := by
  obtain ⟨hmem, henabled, hkind, -⟩ := h
  have hcustom : hasEnabledCustomProfile profiles := by
    exact any_eq_true.mpr ⟨p, hmem, by simp [henabled, hkind]⟩
  obtain ⟨hqmem, hskip⟩ := hq
  unfold skipped at hskip
  rw [hcustom] at hskip
  refine ⟨hqmem, ?_, ?_⟩
  · by_contra hoff
    simp [hoff] at hskip
  · cases hkindq : q.kind with
    | custom => rfl
    | system => simp [hkindq] at hskip

theorem decision_listed (h : ListedBy decode profiles host p) (dnsConfig : VipDNSConfig)
    (addresses : List IPv4) :
    (decision decode profiles dnsConfig host addresses = "direct" ↔
      ∃ q, ListedBy decode profiles host q ∧ q.action = .direct) ∧
    (decision decode profiles dnsConfig host addresses = "direct" ∨
      decision decode profiles dnsConfig host addresses = "proxy") := by
  have hdirect : ((effectiveProfiles profiles).any fun q =>
      q.action = .direct && listsHost decode q host) ↔
      ∃ q, ListedBy decode profiles host q ∧ q.action = .direct := by
    rw [any_eq_true]
    constructor
    · rintro ⟨q, hq, hlists⟩
      rw [Bool.and_eq_true, decide_eq_true_eq] at hlists
      obtain ⟨hmem, henabled, hkind⟩ :=
        custom_of_effective decode h ((mem_effectiveProfiles profiles).mp hq)
      exact ⟨q, ⟨hmem, henabled, hkind, hlists.2⟩, hlists.1⟩
    · rintro ⟨q, hq, haction⟩
      exact ⟨q, (mem_effectiveProfiles profiles).mpr hq.effective,
        by rw [haction, hq.2.2.2]; rfl⟩
  unfold decision
  by_cases hd : ((effectiveProfiles profiles).any fun q =>
      q.action = .direct && listsHost decode q host)
  · rw [if_pos hd]
    exact ⟨⟨fun _ => hdirect.mp hd, fun _ => rfl⟩, .inl rfl⟩
  · -- then the profile that lists the host is one of the proxy
    have hproxy : ((effectiveProfiles profiles).any fun q =>
        q.action = .proxy && listsHost decode q host) := by
      refine any_eq_true.mpr ⟨p, (mem_effectiveProfiles profiles).mpr h.effective, ?_⟩
      cases haction : p.action with
      | direct => exact absurd (hdirect.mpr ⟨p, h, haction⟩) hd
      | proxy => rw [h.2.2.2]; rfl
    rw [if_neg hd, if_pos hproxy]
    exact ⟨⟨fun heq => absurd heq (by decide), fun hex => absurd (hdirect.mpr hex) hd⟩, .inr rfl⟩

/-- For a host that a profile of the user lists, Happ and the app choose the same outbound exactly
if it is not QUIC and the fixed rules keep it local just when a direct profile lists it. -/
theorem same_outbound_iff (network : Network) (happID clientID : String) (server : VPNServer)
    (happTemplate : HappTemplate) (template : ClientTemplate) (profiles : List RoutingProfile)
    (dnsConfig : VipDNSConfig) (host : HostName) (addresses : List IPv4) (port : ℕ)
    (hlisted : ∃ p, ListedBy decode profiles host p) :
    let d : Destination := .host host.text (addresses.map IPv4.text) port
    route xray network
        (buildHappClientJSON happID server happTemplate profiles dnsConfig) d =
        route xray network
          (lastConfig (buildVLESSConfig decode clientID server template profiles dnsConfig)) d ↔
      ¬ (network = .udp ∧ port = 443) ∧
        (staysLocal host addresses port = true ↔
          ∃ p, ListedBy decode profiles host p ∧ p.action = .direct) := by
  intro d
  obtain ⟨p, hp⟩ := hlisted
  obtain ⟨hdirect, hcases⟩ := decision_listed decode hp dnsConfig addresses
  have happ :=
    route_host decode profiles dnsConfig network clientID server template host addresses port
  rw [happ, route_happ, Option.some.injEq, ← hdirect]
  by_cases hquic : network = .udp ∧ port = 443
  · rw [if_pos hquic]
    constructor
    · intro hblock
      rcases hcases with h | h <;> rw [h] at hblock <;> exact absurd hblock (by decide)
    · intro h
      exact absurd hquic h.1
  · rw [if_neg hquic]
    refine Iff.trans ?_ (and_iff_right hquic).symm
    rcases hcases with h | h <;> rw [h] <;> cases staysLocal host addresses port <;> decide

/-- A profile that sends a site through the tunnel, where Happ sends everything. -/
theorem happ_follows_proxy_profile :
    route xray .tcp (buildHappClientJSON "client" exampleServer (exampleHappTemplate "")
        [exampleProfile .proxy "video.example"] ⟨"", ""⟩)
        (.host "video.example" ["203.0.113.7"] 443) =
      route xray .tcp (lastConfig (buildVLESSConfig exampleDecode "client" exampleServer
        exampleTemplate [exampleProfile .proxy "video.example"] ⟨"", ""⟩))
        (.host "video.example" ["203.0.113.7"] 443) := by
  refine (same_outbound_iff exampleDecode .tcp "client" "client" exampleServer
    (exampleHappTemplate "") exampleTemplate [exampleProfile .proxy "video.example"] ⟨"", ""⟩
    ⟨"video.example", by decide, by decide⟩ [exampleAddress] 443 ?_).mpr ⟨by decide, ?_⟩
  · exact ⟨exampleProfile .proxy "video.example", mem_singleton_self _, rfl, rfl,
      by decide +kernel⟩
  · constructor
    · intro hlocal
      exact absurd hlocal (by decide +kernel)
    · rintro ⟨p, ⟨hp, -⟩, haction⟩
      rw [mem_singleton.mp hp] at haction
      cases haction

/-- The app leaves the tunnel aside for this site, Happ does not. -/
theorem happ_ignores_direct_profile :
    route xray .tcp (buildHappClientJSON "client" exampleServer (exampleHappTemplate "")
        [exampleProfile .direct "intranet.example"] ⟨"", ""⟩)
        (.host "intranet.example" ["203.0.113.7"] 443) = some "proxy" ∧
      route xray .tcp (lastConfig (buildVLESSConfig exampleDecode "client" exampleServer
        exampleTemplate [exampleProfile .direct "intranet.example"] ⟨"", ""⟩))
        (.host "intranet.example" ["203.0.113.7"] 443) = some "direct" := by
  constructor
  · exact (route_happ .tcp "client" exampleServer (exampleHappTemplate "")
      [exampleProfile .direct "intranet.example"] ⟨"", ""⟩
      ⟨"intranet.example", by decide, by decide⟩ [exampleAddress] 443).trans (by decide +kernel)
  · exact (route_host exampleDecode [exampleProfile .direct "intranet.example"] ⟨"", ""⟩ .tcp
      "client" exampleServer exampleTemplate ⟨"intranet.example", by decide, by decide⟩
      [exampleAddress] 443).trans (by decide +kernel)

end HappRouting

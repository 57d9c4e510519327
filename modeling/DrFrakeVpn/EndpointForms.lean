import DrFrakeVpn.NodeAgents
import DrFrakeVpn.ConfigDelivery
import DrFrakeVpn.TextFields

/-! # The forms of a server's endpoint

`buildAWG2Config` takes the endpoint apart with `net.SplitHostPort`, and the two defaults of a VLESS
template cut it at the first colon. -/
namespace EndpointForms

open GoValues BackendModels AccessCredentials ConfigDelivery NodeFleet NodeAgents List

/-- An IPv4 address or a DNS name, or an IPv6 address. -/
inductive Host where
  | name (text : List Char)
  | ipv6 (address : List Char)

def Host.bare : Host → List Char
  | name text => text
  | ipv6 address => address

def Host.text : Host → List Char
  | name text => text
  | ipv6 address => '[' :: (address ++ [']'])

def Host.Valid : Host → Prop
  | name text => text ≠ [] ∧ ':' ∉ text ∧ '[' ∉ text ∧ ']' ∉ text
  | ipv6 address => ':' ∈ address ∧ '[' ∉ address ∧ ']' ∉ address

inductive Endpoint where
  | empty
  | bare (host : Host)
  | withPort (host : Host) (port : ℕ)

def Endpoint.text : Endpoint → List Char
  | empty => []
  | bare host => host.text
  | withPort host port => host.text ++ ':' :: Nat.toDigits 10 port

def Endpoint.Valid : Endpoint → Prop
  | empty => True
  | bare host => host.Valid
  | withPort host port => host.Valid ∧ port < 65536

/-- An IPv6 address is denoted with its brackets or without. -/
def Denotes (text : String) (host : Host) : Prop :=
  text.toList = host.bare ∨ text.toList = host.text

def beforeLast (s : List Char) : List Char := ((s.reverse.dropWhile (· ≠ ':')).drop 1).reverse

def afterLast (s : List Char) : List Char := (s.reverse.takeWhile (· ≠ ':')).reverse

/-- `net.SplitHostPort`; its errors are not told apart. -/
def splitHostPort (s : List Char) : Option (List Char × List Char) :=
  if ':' ∉ s then none
  else
    let port := afterLast s
    match beforeLast s with
    | '[' :: rest =>
      -- the first closing bracket must stand right before the last colon
      if rest.getLast? = some ']' ∧ ']' ∉ rest.dropLast ∧ '[' ∉ rest ∧ '[' ∉ port ∧ ']' ∉ port then
        some (rest.dropLast, port)
      else none
    | host =>
      if ':' ∈ host ∨ '[' ∈ host ∨ ']' ∈ host ∨ '[' ∈ port ∨ ']' ∈ port then none
      else some (host, port)

structure AWGServer extends NodeServer where
  mtu : String
  i1 : String
  i2 : String
  i3 : String
  i4 : String
  i5 : String

/-- `endpointIP` and `endpointPort`. -/
def hostAndPort (server : VPNServer) : String × String :=
  if server.endpoint = "" then (server.host, toString server.awgPort)
  else match splitHostPort server.endpoint.toList with
    | some (host, port) => (String.ofList host, String.ofList port)
    | none => (server.endpoint, toString server.awgPort)

/-- `portInt, _ := strconv.Atoi(endpointPort)`: a number out of range is cut off. -/
def portInt (text : String) : ℤ :=
  match atoi? text, text.toList with
  | some z, _ => z
  | none, '-' :: ds => if ds ≠ [] ∧ ds.all Char.isDigit then -2 ^ 63 else 0
  | none, '+' :: ds => if ds ≠ [] ∧ ds.all Char.isDigit then 2 ^ 63 - 1 else 0
  | none, ds => if ds ≠ [] ∧ ds.all Char.isDigit then 2 ^ 63 - 1 else 0

/-- The arguments of `buildAWG2Config` besides the endpoint and the server, and the time. -/
structure KeyData where
  privateKey : String
  presharedKey : String
  clientIP : String
  now : ℤ

variable (key : KeyData) (endpoint : String) (server : AWGServer)

def interfaceLines : List (String × String) :=
  [("PrivateKey", key.privateKey), ("Address", key.clientIP ++ "/24"), ("DNS", "1.1.1.1, 8.8.8.8"),
    ("Jc", server.awg.jc), ("Jmin", server.awg.jmin), ("Jmax", server.awg.jmax),
    ("S1", server.awg.s1), ("S2", server.awg.s2), ("S3", server.awg.s3), ("S4", server.awg.s4),
    ("H1", server.awg.h1), ("H2", server.awg.h2), ("H3", server.awg.h3), ("H4", server.awg.h4)]

def peerLines : List (String × String) :=
  [("PublicKey", server.publicKey), ("PresharedKey", key.presharedKey), ("Endpoint", endpoint),
    ("AllowedIPs", "0.0.0.0/0, ::/0"), ("PersistentKeepalive", "25")]

def printLines (lines : List (String × String)) : String :=
  String.join (lines.map fun line => line.1 ++ " = " ++ line.2 ++ "\n")

def awgConf : String :=
  "[Interface]\n" ++ printLines (interfaceLines key server) ++ "\n[Peer]\n" ++
    printLines (peerLines key endpoint server)

def protocolConfig : List (String × Json) :=
  let endpointIP := (hostAndPort server.toVPNServer).1
  let port := portInt (hostAndPort server.toVPNServer).2
  [("config_version", .str "3"), ("config", .str (awgConf key endpoint server)),
    ("dns1", .str "1.1.1.1"), ("dns2", .str "8.8.8.8"),
    ("Jc", .str server.awg.jc), ("Jmin", .str server.awg.jmin), ("Jmax", .str server.awg.jmax),
    ("S1", .str server.awg.s1), ("S2", .str server.awg.s2), ("S3", .str server.awg.s3),
    ("S4", .str server.awg.s4), ("H1", .str server.awg.h1), ("H2", .str server.awg.h2),
    ("H3", .str server.awg.h3), ("H4", .str server.awg.h4), ("I1", .str server.i1),
    ("I2", .str server.i2), ("I3", .str server.i3), ("I4", .str server.i4), ("I5", .str server.i5),
    ("mtu", .str server.mtu), ("deviceMTU", .str server.mtu), ("last_config", .num key.now),
    ("hostName", .str endpointIP), ("serverIpv4AddrIn", .str endpointIP),
    ("serverIpv4Gateway", .str endpointIP), ("port", .num port), ("serverPort", .num port),
    ("privateKey", .str key.privateKey), ("client_priv_key", .str key.privateKey),
    ("deviceIpv4Address", .str key.clientIP), ("client_ip", .str key.clientIP),
    ("serverPublicKey", .str server.publicKey), ("server_pub_key", .str server.publicKey),
    ("psk_key", .str key.presharedKey), ("serverPskKey", .str key.presharedKey)]

/-- `last_config` stands here as the object that its text is made from. -/
def buildAWG2Config : List (String × Json) :=
  [("containers", .arr [.obj [("container", .str "fblink-awg"), ("awg", .obj
      [("last_config", .obj (protocolConfig key endpoint server)),
        ("isThirdPartyConfig", .bool true), ("port", .str (hostAndPort server.toVPNServer).2),
        ("transport_proto", .str "udp"), ("protocolVersion", .str "1.5")])]]),
    ("defaultContainer", .str "fblink-awg"),
    ("description", .str ("FBLink VPN - " ++ server.region)),
    ("country_code", .str server.countryCode), ("server_id", .num server.id),
    ("is_vip_only", .bool server.vipOnly), ("is_available", .bool true), ("dns1", .str "1.1.1.1"),
    ("dns2", .str "8.8.8.8"), ("hostName", .str server.host)]

/-- The config text is written for the endpoint that `GetConfig` hands over. -/
structure Agrees (template applied : NodeTemplate) (host : Host) (port : ℕ) : Prop where
  line : ∃ line, (peerLines key (endpointOf server.toVPNServer) server).lookup "Endpoint" =
    some line ∧ line.toList = host.text ++ ':' :: Nat.toDigits 10 port
  hostName : ∃ name, lookup (protocolConfig key (endpointOf server.toVPNServer) server)
    "hostName" = some (.str name) ∧ Denotes name host
  port : lookup (protocolConfig key (endpointOf server.toVPNServer) server) "port" =
    some (.num port)
  defaults : Denotes
    (xrayTemplateDefaults template.toVLESSServerTemplate server.toVPNServer).address host
  applied : Denotes applied.address host

/-- The endpoints that mean the same everywhere. -/
def Endpoint.Uniform (server : VPNServer) : Endpoint → Prop
  | empty => (∃ host : Host, host.Valid ∧ server.host.toList = host.text) ∧
      ∃ port : ℕ, port < 65536 ∧ server.awgPort = port
  | bare _ => False
  | withPort host _ => ∃ text, host = .name text

/-- An endpoint that names the host of the server itself. -/
def Endpoint.Own (server : VPNServer) : Endpoint → Prop
  | withPort host _ => Denotes server.host host
  | _ => True

theorem not_mem_digits (hc : c.isDigit = false) (n : ℕ) : c ∉ Nat.toDigits 10 n := by
  intro h
  rw [Nat.isDigit_of_mem_toDigits (by decide) (by decide) h] at hc
  cases hc

variable {a x : List Char}

theorem afterLast_append (hx : ':' ∉ x) : afterLast (a ++ ':' :: x) = x := by
  have hall : ∀ c ∈ x.reverse, decide (c ≠ ':') := fun c hc =>
    decide_eq_true fun heq => hx (heq ▸ mem_reverse.mp hc)
  unfold afterLast
  rw [reverse_append, reverse_cons, append_assoc,
    takeWhile_append_of_pos hall]
  simp

theorem beforeLast_append (hx : ':' ∉ x) : beforeLast (a ++ ':' :: x) = a := by
  have hall : ∀ c ∈ x.reverse, decide (c ≠ ':') := fun c hc =>
    decide_eq_true fun heq => hx (heq ▸ mem_reverse.mp hc)
  unfold beforeLast
  rw [reverse_append, reverse_cons, append_assoc,
    dropWhile_append_of_pos hall]
  simp

theorem splitHostPort_name (hvalid : (Host.name text).Valid) (port : ℕ) :
    splitHostPort (text ++ ':' :: Nat.toDigits 10 port) = some (text, Nat.toDigits 10 port) := by
  obtain ⟨hne, hcolon, hopen, hclose⟩ := hvalid
  have hport := not_mem_digits (c := ':') rfl port
  unfold splitHostPort
  rw [if_neg (by simp), beforeLast_append hport, afterLast_append hport]
  split
  · simp at hopen
  · rw [if_neg]
    simp [hcolon, hopen, hclose, not_mem_digits (c := '[') rfl,
      not_mem_digits (c := ']') rfl]

/-- An endpoint with a colon is cut at the first one. -/
theorem defaultAddress_cut {template server} (hblank : template.address = "") (hx : ':' ∉ x)
    (hne : x ≠ []) (htext : server.endpoint.toList = x ++ ':' :: y) :
    defaultAddress template server = String.ofList x := by
  have hall : ∀ c ∈ x, (c == ':') = false := fun c hc =>
    beq_false_of_ne fun heq => hx (heq ▸ hc)
  have hhead : (split server.endpoint ':').headD "" = String.ofList x := by
    unfold split
    rw [htext, splitOn, splitOnP_append_cons_of_forall_mem hall ':' rfl]
    rfl
  have hendpoint : server.endpoint ≠ "" := by
    intro hempty
    simp [hempty] at htext
  have hname : String.ofList x ≠ "" := by
    simpa using hne
  simp only [defaultAddress, hblank, ne_eq, not_true_eq_false, if_false, hendpoint,
    not_false_eq_true, if_true, hhead, hname]

theorem withInbound_address (cfg : FleetSetup) :
    (NodeAgents.withInbound cfg template inbound).address = template.address := by
  unfold NodeAgents.withInbound
  split
  · rfl
  · split <;> rfl

/-- The address that the snapshot import computes first is the default, or blank. -/
theorem applied_address {server cfg files template applied} (hblank : template.address = "")
    (hraw : trimSpace (fileText files "xray/server.json") ≠ "")
    (happlied : applyVLESSSnapshot cfg server template files = .ok applied) :
    applied.address = defaultAddress template.toVLESSServerTemplate server.toVPNServer := by
  have hagain : ∀ t : NodeTemplate, t.address = (if server.endpoint ≠ "" then
      (split server.endpoint ':').headD "" else server.host) →
      defaultAddress t.toVLESSServerTemplate server.toVPNServer =
        defaultAddress template.toVLESSServerTemplate server.toVPNServer := by
    intro t ht
    unfold defaultAddress
    rw [ht, hblank, if_neg (not_not.mpr rfl)]
    by_cases hempty : server.endpoint = ""
    · simp [hempty]
    · generalize (split server.endpoint ':').headD "" = head
      by_cases hhead : head = "" <;> simp [hempty, hhead]
  have htrim : ¬ trimSpace template.address ≠ "" := by
    rw [hblank]
    decide
  unfold applyVLESSSnapshot at happlied
  rw [if_neg hraw] at happlied
  split at happlied
  · cases happlied
  · cases happlied
    refine hagain _ ?_
    split
    · exact if_neg htrim
    · exact (withInbound_address ..).trans (if_neg htrim)

theorem toString_toList (z : ℤ) : (toString z).toList = match z with
    | .ofNat n => Nat.toDigits 10 n
    | .negSucc n => '-' :: Nat.toDigits 10 (n + 1) := by
  cases z with
  | ofNat n => exact Nat.toList_repr
  | negSucc n =>
    show ("-" ++ Nat.repr (n + 1)).toList = _
    rw [String.toList_append, Nat.toList_repr]
    rfl

theorem colon_not_mem_toString (z : ℤ) : ':' ∉ (toString z).toList := by
  rw [toString_toList]
  cases z with
  | ofNat n => exact not_mem_digits rfl n
  | negSucc n => simpa using not_mem_digits rfl (n + 1)

theorem eq_of_toString {z : ℤ} {n} (h : (toString z).toList = Nat.toDigits 10 n) : z = n := by
  rw [toString_toList] at h
  cases z with
  | ofNat m =>
    have hvalue := congrArg (fun cs => Nat.ofDigitChars 10 cs 0) h
    simp only [Nat.ofDigitChars_ten_toDigits] at hvalue
    rw [hvalue]
    rfl
  | negSucc m =>
    have hminus : '-' ∈ Nat.toDigits 10 n := h ▸ mem_cons_self
    exact absurd hminus (not_mem_digits rfl n)

section Forms

variable {server : AWGServer} {template applied : NodeTemplate} {host : Host} {port : ℕ}

theorem endpointLine : (peerLines key endpoint server).lookup "Endpoint" = some endpoint := rfl

theorem hostName_protocolConfig : lookup (protocolConfig key endpoint server) "hostName" =
    some (.str (hostAndPort server.toVPNServer).1) := rfl

theorem port_protocolConfig : lookup (protocolConfig key endpoint server) "port" =
    some (.num (portInt (hostAndPort server.toVPNServer).2)) := rfl

variable {key}

theorem Agrees.printed (h : Agrees key server template applied host port) :
    (endpointOf server.toVPNServer).toList = host.text ++ ':' :: Nat.toDigits 10 port := by
  obtain ⟨line, hline, htext⟩ := h.line
  rw [endpointLine, Option.some.injEq] at hline
  rw [hline, htext]

theorem portInt_digits (hport : port < 65536) {text} (htext : text.toList = Nat.toDigits 10 port) :
    portInt text = port := by
  have heq : text = toString port := by
    rw [← String.toList_inj, htext, Nat.toString_eq_repr, Nat.toList_repr]
  unfold portInt
  rw [heq, atoi_toString (by omega)]

/-- A host alone never reads as a host with a port: it has no colon, or it ends in a bracket. -/
theorem Host.Valid.text_ne {h : Host} (hvalid : h.Valid) (a : List Char) (n : ℕ) :
    h.text ≠ a ++ ':' :: Nat.toDigits 10 n := by
  intro heq
  cases h with
  | name text => exact hvalid.2.1 (by rw [show text = _ from heq]; simp)
  | ipv6 address =>
    have hlast := congrArg getLast? heq
    have hne : Nat.toDigits 10 n ≠ [] := by simp
    rw [show (Host.ipv6 address).text = ('[' :: address) ++ [']'] from rfl, getLast?_concat,
      append_cons, getLast?_append_of_ne_nil _ hne] at hlast
    exact not_mem_digits rfl n (mem_of_getLast? hlast.symm)

theorem Host.Valid.text_ne_nil {h : Host} (hvalid : h.Valid) : h.text ≠ [] := by
  cases h with
  | name text => exact hvalid.1
  | ipv6 address => exact cons_ne_nil _ _

theorem Host.Valid.text_inj {other : Host} (hvalid : host.Valid) (hother : other.Valid)
    (htext : host.text = other.text) : host = other := by
  have hbracket : ∀ {text address}, (Host.name text).Valid → text ≠ (Host.ipv6 address).text :=
    fun h heq => h.2.2.1 (heq ▸ mem_cons_self)
  cases host with
  | name text =>
    cases other with
    | name _ => exact congrArg _ htext
    | ipv6 _ => exact absurd htext (hbracket hvalid)
  | ipv6 address =>
    cases other with
    | name _ => exact absurd htext.symm (hbracket hother)
    | ipv6 _ => rw [append_cancel_right (cons.inj htext).2]

/-- What stands before the first colon of an IPv6 endpoint has the opening bracket only. -/
theorem not_denotes_ipv6 (hvalid : (Host.ipv6 address).Valid)
    (haddress : address = first ++ ':' :: rest) :
    ¬ Denotes (String.ofList ('[' :: first)) (.ipv6 address) := by
  obtain ⟨-, hopen, hclose⟩ := hvalid
  unfold Denotes
  rw [String.toList_ofList]
  rintro (hbare | hbracketed)
  · have hbracket : '[' :: first = address := hbare
    exact hopen (hbracket ▸ mem_cons_self)
  · have hmem : ']' ∈ first := by
      rw [(cons.inj hbracketed).2]
      simp
    exact hclose (haddress ▸ mem_append_left _ hmem)

theorem agrees_of (hport : port < 65536)
    (hprinted : (endpointOf server.toVPNServer).toList = host.text ++ ':' :: number.toList)
    (hsplit : hostAndPort server.toVPNServer = (name, number))
    (hnumber : number.toList = Nat.toDigits 10 port) (hname : Denotes name host)
    (hdefault : defaultAddress template.toVLESSServerTemplate server.toVPNServer = name)
    (happlied : applied.address = name) : Agrees key server template applied host port where
  line := ⟨_, endpointLine .., hnumber ▸ hprinted⟩
  hostName := ⟨name, by rw [hostName_protocolConfig, hsplit], hname⟩
  port := by
    rw [port_protocolConfig, hsplit, portInt_digits hport hnumber]
    rfl
  defaults := show Denotes (defaultAddress ..) host from hdefault ▸ hname
  applied := happlied ▸ hname

theorem Endpoint.Uniform.agrees {e : Endpoint} (hvalid : e.Valid)
    (htext : server.endpoint.toList = e.text) (hblank : template.address = "")
    (happlied : applied.address =
      defaultAddress template.toVLESSServerTemplate server.toVPNServer)
    (huniform : e.Uniform server.toVPNServer) :
    ∃ host port, host.Valid ∧ port < 65536 ∧ Agrees key server template applied host port := by
  cases e with
  | empty =>
    obtain ⟨⟨host, hhost, hname⟩, port, hport, hawg⟩ := huniform
    have hempty : server.endpoint = "" := String.toList_inj.mp htext
    have hdefault : defaultAddress template.toVLESSServerTemplate server.toVPNServer =
        server.host := by
      simp [defaultAddress, hblank, hempty]
    refine ⟨host, port, hhost, hport, agrees_of hport ?_ (if_pos hempty) ?_ (.inr hname) hdefault
      (happlied.trans hdefault)⟩
    · rw [endpointOf, if_pos hempty, String.toList_append, String.toList_append, hname,
        append_assoc]
      rfl
    · rw [hawg, toString_toList]
  | bare _ => exact huniform.elim
  | withPort host port =>
    obtain ⟨text, rfl⟩ := huniform
    obtain ⟨hhost, hport⟩ := hvalid
    have hne : server.endpoint ≠ "" := by
      intro hempty
      rw [hempty] at htext
      simp [Endpoint.text] at htext
    have hdefault := defaultAddress_cut hblank hhost.2.1 hhost.1 htext
    refine ⟨.name text, port, hhost, hport, agrees_of hport ?_ ?_ String.toList_ofList
      (.inl String.toList_ofList) hdefault (happlied.trans hdefault)⟩
    · rw [endpointOf, if_neg hne, htext, String.toList_ofList]
      rfl
    · rw [hostAndPort, if_neg hne, htext, Endpoint.text, Host.text, splitHostPort_name hhost]
      rfl

section agrees

variable (h : Agrees key server template applied host port)
include h

theorem Agrees.of_empty (hempty : server.endpoint = "") :
    server.host.toList = host.text ∧ server.awgPort = port := by
  have hprinted := h.printed
  rw [endpointOf, if_pos hempty] at hprinted
  have hline : server.host.toList ++ ':' :: (toString server.awgPort).toList =
      host.text ++ ':' :: Nat.toDigits 10 port := by
    simpa using hprinted
  obtain ⟨hname, hdigits⟩ :=
    TextFields.last_inj (colon_not_mem_toString _) (not_mem_digits rfl port) hline
  exact ⟨hname, eq_of_toString hdigits⟩

theorem Agrees.not_bare {alone : Host} (hvalid : alone.Valid) :
    server.endpoint.toList ≠ alone.text := by
  intro htext
  have hne : server.endpoint ≠ "" := fun hempty =>
    hvalid.text_ne_nil (htext.symm.trans (congrArg String.toList hempty))
  have hprinted := h.printed
  rw [endpointOf, if_neg hne, htext] at hprinted
  exact hvalid.text_ne _ _ hprinted

theorem Agrees.host_eq {named : Host} {number} (hvalid : named.Valid) (hhost : host.Valid)
    (htext : server.endpoint.toList = named.text ++ ':' :: Nat.toDigits 10 number) :
    host = named := by
  have hne : server.endpoint ≠ "" := by
    intro hempty
    simp [hempty] at htext
  have hprinted := h.printed
  rw [endpointOf, if_neg hne, htext] at hprinted
  obtain ⟨hsame, -⟩ :=
    TextFields.last_inj (not_mem_digits rfl number) (not_mem_digits rfl port) hprinted
  exact hhost.text_inj hvalid hsame.symm

theorem Agrees.uniform {e : Endpoint} (hvalid : e.Valid) (htext : server.endpoint.toList = e.text)
    (hblank : template.address = "") (hhost : host.Valid) (hport : port < 65536) :
    e.Uniform server.toVPNServer := by
  cases e with
  | empty =>
    obtain ⟨hname, hawg⟩ := h.of_empty (String.toList_inj.mp htext)
    exact ⟨⟨host, hhost, hname⟩, port, hport, hawg⟩
  | bare alone => exact h.not_bare hvalid htext
  | withPort named number =>
    obtain rfl := h.host_eq hvalid.1 hhost htext
    cases host with
    | name text => exact ⟨text, rfl⟩
    | ipv6 address =>
      obtain ⟨first, rest, haddress, hfirst⟩ := eq_append_cons_of_mem hvalid.1.1
      have hcut : server.endpoint.toList =
          ('[' :: first) ++ ':' :: (rest ++ ']' :: ':' :: Nat.toDigits 10 number) := by
        rw [htext, haddress]
        simp [Endpoint.text, Host.text]
      have hdefault := defaultAddress_cut hblank (by simpa using hfirst)
        (cons_ne_nil _ _) hcut
      have hdenotes : Denotes (defaultAddress ..) _ := h.defaults
      rw [hdefault] at hdenotes
      exact absurd hdenotes (not_denotes_ipv6 hvalid.1 haddress)

theorem Agrees.own_iff {e : Endpoint} (hvalid : e.Valid) (htext : server.endpoint.toList = e.text)
    (hhost : host.Valid) : Denotes server.host host ↔ e.Own server.toVPNServer := by
  cases e with
  | empty => exact iff_of_true (.inr (h.of_empty (String.toList_inj.mp htext)).1) trivial
  | bare alone => exact absurd htext (h.not_bare hvalid)
  | withPort named number =>
    obtain rfl := h.host_eq hvalid.1 hhost htext
    rfl

end agrees

/-- Which endpoints mean the same in the four places, and which in the JSON around them too. -/
theorem endpoint_uniform_iff {e : Endpoint} (hvalid : e.Valid)
    (htext : server.endpoint.toList = e.text) {cfg : FleetSetup} {files : Files}
    (hblank : template.address = "") (hraw : trimSpace (fileText files "xray/server.json") ≠ "")
    (happlied : applyVLESSSnapshot cfg server.toNodeServer template files = .ok applied) :
    ((∃ host port, host.Valid ∧ port < 65536 ∧ Agrees key server template applied host port) ↔
      e.Uniform server.toVPNServer) ∧
    ((∃ host port, host.Valid ∧ port < 65536 ∧ Agrees key server template applied host port ∧
        ∃ name, lookup (buildAWG2Config key (endpointOf server.toVPNServer) server) "hostName" =
          some (.str name) ∧ Denotes name host) ↔
      e.Uniform server.toVPNServer ∧ e.Own server.toVPNServer) := by
  have hagrees : e.Uniform server.toVPNServer →
      ∃ host port, host.Valid ∧ port < 65536 ∧ Agrees key server template applied host port :=
    Endpoint.Uniform.agrees hvalid htext hblank (applied_address hblank hraw happlied)
  refine ⟨⟨?_, hagrees⟩, ?_, fun ⟨huniform, hown⟩ => ?_⟩
  · rintro ⟨host, port, hhost, hport, h⟩
    exact h.uniform hvalid htext hblank hhost hport
  · rintro ⟨host, port, hhost, hport, h, name, hname, hdenotes⟩
    cases hname
    exact ⟨h.uniform hvalid htext hblank hhost hport, (h.own_iff hvalid htext hhost).mp hdenotes⟩
  · obtain ⟨host, port, hhost, hport, h⟩ := hagrees huniform
    exact ⟨host, port, hhost, hport, h, _, rfl, (h.own_iff hvalid htext hhost).mpr hown⟩

end Forms

def serverAt (endpoint : String) : AWGServer :=
  { NodeServer.plain 1 "nl" "node" with
    endpoint := endpoint, mtu := "1280", i1 := "", i2 := "", i3 := "", i4 := "", i5 := "" }

def nodeFiles : Files := [("xray/server.json", "\x7b\x7d")]

def importedAt (endpoint : String) : NodeTemplate :=
  match applyVLESSSnapshot .standard (serverAt endpoint).toNodeServer (blankTemplate 1)
      nodeFiles with
  | .ok template => template
  | .error _ => blankTemplate 1

theorem imported (endpoint : String) : applyVLESSSnapshot .standard (serverAt endpoint).toNodeServer
    (blankTemplate 1) nodeFiles = .ok (importedAt endpoint) := rfl

theorem named_endpoint_uniform : ∃ host port, host.Valid ∧ port < 65536 ∧
    Agrees ⟨"", "", "10.8.1.2", 0⟩ (serverAt "nl.example.org:443") (blankTemplate 1)
      (importedAt "nl.example.org:443") host port :=
  (endpoint_uniform_iff (e := .withPort (.name "nl.example.org".toList) 443)
    ⟨⟨by decide, by decide, by decide, by decide⟩, by decide⟩ rfl rfl
    (by decide : trimSpace (fileText nodeFiles "xray/server.json") ≠ "")
      (imported _)).1.mpr ⟨_, rfl⟩

/-- The templates take the text before the first colon for the address: `[2001`. -/
theorem ipv6_endpoint_not_uniform : ¬ ∃ host port, host.Valid ∧ port < 65536 ∧
    Agrees ⟨"", "", "10.8.1.2", 0⟩ (serverAt "[2001:db8::1]:443") (blankTemplate 1)
      (importedAt "[2001:db8::1]:443") host port := by
  rintro ⟨host, port, hhost, hport, hagrees⟩
  obtain ⟨_, hname⟩ := hagrees.uniform (e := .withPort (.ipv6 "2001:db8::1".toList) 443)
    ⟨⟨by decide, by decide, by decide⟩, by decide⟩ rfl rfl hhost hport
  cases hname

end EndpointForms

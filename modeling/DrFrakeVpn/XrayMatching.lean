import DrFrakeVpn.RoutingAgreement
import DrFrakeVpn.DottedAddresses
import DrFrakeVpn.SearchPatterns

/-! # How Xray reads a rule

Domain expressions, address ranges and ports as Xray matches them for what enters at the SOCKS
inbound. A host name is compared in lower case. -/
namespace XrayMatching

open GoValues VipConfig PlatformRouting DottedAddresses SearchPatterns

section Semantics

variable (m : Matching) (network : Network)

theorem pick_append :
    pick m network (rules ++ rules') t =
      (pick m network rules t).or (pick m network rules' t) := by
  unfold pick
  rw [List.find?_append]
  cases List.find? (applies m network t) rules <;> rfl

theorem route_ifNonMatch
    (hstrategy : asString (lookup (routingOf config) "domainStrategy") = "IPIfNonMatch")
    (hrules : rulesOf config = rules) (hfirst : (outboundsOf config).head?.map tagOf = some first)
    (d : Destination) :
    route m network config d = some (((pick m network rules d.target).or
      (if d.isHost then pick m network rules d.resolved else none)).getD first) := by
  unfold route pickRoute
  rw [hstrategy, hrules, hfirst]
  cases pick m network rules d.target with
  | some tag => rfl
  | none =>
    cases d.isHost with
    | false => rfl
    | true => cases pick m network rules d.resolved <;> simp

end Semantics

/-- `full:`, `domain:`, `regexp:` or else a part of the name. -/
def domainMatches (expression host : String) : Bool :=
  let name := (toLower host).toList
  match expression.toList.dropPrefix? "full:".toList with
  | some domain => name = domain
  | none => match expression.toList.dropPrefix? "domain:".toList with
    | some domain => name = domain || ('.' :: domain).isSuffixOf name
    | none => match expression.toList.dropPrefix? "regexp:".toList with
      | some pattern => matchString pattern name
      | none => contains (toLower host) expression

theorem dropPrefix_append (p s : List Char) : (p ++ s).dropPrefix? p = some s :=
  List.dropPrefix?_append_of_beq s (by simp)

theorem domainMatches_full :
    domainMatches ("full:" ++ domain) host ↔ toLower host = domain := by
  have hfull : ("full:" ++ domain).toList.dropPrefix? "full:".toList = some domain.toList := by
    rw [String.toList_append, dropPrefix_append]
  unfold domainMatches
  rw [hfull, decide_eq_true_eq, String.toList_inj]

theorem domainMatches_domain :
    domainMatches ("domain:" ++ domain) host ↔
      toLower host = domain ∨ ('.' :: domain.toList) <:+ (toLower host).toList := by
  have hfull : ("domain:" ++ domain).toList.dropPrefix? "full:".toList = none := by
    rw [String.toList_append]
    rfl
  have hdomain : ("domain:" ++ domain).toList.dropPrefix? "domain:".toList =
      some domain.toList := by
    rw [String.toList_append, dropPrefix_append]
  unfold domainMatches
  rw [hfull, hdomain]
  simp [String.toList_inj]

theorem quoteMeta_eq : (quoteMeta text).toList = quoted text.toList := by
  unfold quoteMeta quoted
  rw [String.toList_ofList]
  rfl

theorem mem_toLower (hc : c.toNat < 65) (host : String) :
    c ∈ (toLower host).toList ↔ c ∈ host.toList := by
  unfold toLower
  rw [String.toList_ofList, List.mem_map]
  constructor
  · rintro ⟨d, hd, hlower⟩
    rwa [← (lowerRune_eq_iff hc d).mp hlower]
  · intro h
    exact ⟨c, h, (lowerRune_eq_iff hc c).mpr rfl⟩

theorem domainMatches_label (label : String) (hline : '\n' ∉ host.toList) :
    domainMatches ("regexp:(^|\\.).*\\." ++ quoteMeta label ++ "$") host ↔
      ('.' :: label.toList) <:+ (toLower host).toList := by
  have htext : ("regexp:(^|\\.).*\\." ++ quoteMeta label ++ "$").toList =
      "regexp:".toList ++ ("(^|\\.).*\\.".toList ++ quoted label.toList ++ ['$']) := by
    rw [String.toList_append, String.toList_append, quoteMeta_eq]
    rfl
  unfold domainMatches
  rw [htext, dropPrefix_append]
  have hfull : ∀ s : List Char, ("regexp:".toList ++ s).dropPrefix? "full:".toList = none :=
    fun _ => rfl
  have hdomain : ∀ s : List Char, ("regexp:".toList ++ s).dropPrefix? "domain:".toList = none :=
    fun _ => rfl
  exact matchString_label _ fun h => hline ((mem_toLower (by decide) host).mp h)

/-- The host is the suffix or below it; a blank suffix has nothing below it. -/
def underSuffix (suffix host : String) : Bool :=
  let trimmed := trimDot (trimSpace suffix)
  trimmed ≠ "" && (toLower host = trimmed ||
    ('.' :: trimmed.toList).isSuffixOf (toLower host).toList)

theorem contains_dot (s : String) : contains s "." ↔ '.' ∈ s.toList := by
  unfold contains
  rw [List.any_eq_true]
  constructor
  · rintro ⟨t, ht, hdot⟩
    obtain ⟨u, rfl⟩ := List.isPrefixOf_iff_prefix.mp hdot
    exact ((List.mem_tails _ _).mp ht).mem (by simp)
  · intro h
    obtain ⟨u, v, huv⟩ := List.append_of_mem h
    refine ⟨'.' :: v, (List.mem_tails _ _).mpr ⟨u, huv.symm⟩, ?_⟩
    simp

theorem suffixRule_matches (suffix : String) (hdot : '.' ∈ host.toList)
    (hline : '\n' ∉ host.toList) :
    (∃ e, suffixRule suffix = some e ∧ domainMatches e host) ↔
      underSuffix suffix host := by
  unfold suffixRule underSuffix
  generalize trimDot (trimSpace suffix) = trimmed
  by_cases hblank : trimmed = ""
  · simp [hblank]
  rw [if_neg hblank]
  by_cases hinner : contains trimmed "."
  · rw [if_pos hinner]
    simp [domainMatches_domain, hblank]
  · -- a single label is not the name itself
    have hne : toLower host ≠ trimmed := by
      rintro heq
      refine hinner ((contains_dot trimmed).mpr ?_)
      rw [← heq]
      exact (mem_toLower (by decide) host).mpr hdot
    rw [if_neg hinner]
    simp only [Option.some.injEq, exists_eq_left', domainMatches_label trimmed hline]
    simp [hblank, hne]

/-- The address is in the range; a range without a length is a single address. -/
def cidrMatches (cidr ip : String) : Bool :=
  match quad? ip with
  | none => false
  | some a =>
    match split cidr '/' with
    | [network] => quad? network = some a
    | [network, bits] =>
      match quad? network, atoi? bits with
      | some n, some k =>
        0 ≤ k && k ≤ 32 && value n / 2 ^ (32 - k.toNat) = value a / 2 ^ (32 - k.toNat)
      | _, _ => false
    | _ => false

/-- Ports and ranges of ports, with commas between them. -/
def portMatches (text : String) (port : ℕ) : Bool :=
  (split text ',').any fun item =>
    match (split item '-').map atoi? with
    | [some a] => a = port
    | [some a, some b] => a ≤ port && port ≤ b
    | _ => false

def xray : Matching :=
  ⟨domainMatches, cidrMatches, portMatches, fun rule =>
    "socks" ∈ strings (lookup rule "inboundTag") &&
      otherConditions.tail.all fun key => (lookup rule key).isNone⟩

theorem split_length32 : split (text ++ "/32") '/' = split text '/' ++ ["32"] := by
  unfold split
  rw [String.toList_append]
  show ((text.toList ++ '/' :: ['3', '2']).splitOn '/').map String.ofList = _
  rw [List.splitOn, List.splitOnP_append_cons _ _ (by simp), List.map_append]
  rfl

theorem split_address (h : quad? ip = some n) : split ip '/' = [ip] := by
  have hslash : ∀ c ∈ ip.toList, (c == '/') = false := by
    intro c hc
    rw [quad_some h] at hc
    rcases mem_dotted hc with hdigit | rfl
    · rw [beq_eq_false_iff_ne]
      rintro rfl
      exact absurd hdigit (by decide)
    · rfl
  unfold split
  rw [List.splitOn, List.splitOnP_eq_singleton hslash, List.map_singleton, String.ofList_toList]

theorem cidrMatches_single (dns : String) (h : (quad? ip).isSome) :
    cidrMatches (dns ++ "/32") ip ↔ ip = dns := by
  obtain ⟨a, ha⟩ := Option.isSome_iff_exists.mp h
  have hbits : atoi? "32" = some 32 := by decide +kernel
  constructor
  · intro hmatch
    unfold cidrMatches at hmatch
    rw [ha, split_length32] at hmatch
    cases hfields : split dns '/' with
    | nil => simp [hfields, show quad? "32" = none by decide +kernel] at hmatch
    | cons field fields =>
      cases fields with
      | cons => simp [hfields] at hmatch
      | nil =>
        have hdns : field = dns := by
          obtain ⟨cs, css, hcs, rfl, hcss⟩ := List.map_eq_cons_iff.mp hfields
          have hjoin : ['/'].intercalate (dns.toList.splitOn '/') = dns.toList :=
            List.intercalate_splitOn '/'
          rw [hcs, List.map_eq_nil_iff.mp hcss] at hjoin
          rw [show cs = dns.toList by simpa using hjoin, String.ofList_toList]
        subst hdns
        simp only [hfields, List.singleton_append, hbits] at hmatch
        cases hn : quad? field with
        | none => simp [hn] at hmatch
        | some n =>
          have hvalue : value n = value a := by simpa [hn] using hmatch
          exact (value_injective hn ha hvalue).symm
  · rintro rfl
    unfold cidrMatches
    rw [ha, split_length32, split_address ha]
    simp [hbits, ha]

end XrayMatching

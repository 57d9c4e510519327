import DrFrakeVpn.ClientServers

/-! # Metadata of the servers

`mergeServerMetadata` looks for the server of each entry by its id, host name, region and name at
once, so that the first server in the list that fits in any way is taken. -/
namespace ServerMetadata

open GoValues ClientServers List

structure Metadata where
  serverId : ℤ
  hostName : String
  region : String
  name : String
  countryCode : String
  isVipOnly : Bool
  isAvailable : Bool
  deriving DecidableEq

variable (qt : QtText)

def metadataOf (value : Json) : Metadata :=
  let metadata := objectOf value
  { serverId := intOf (-1) (metadata "id")
    hostName := qt.trimmed (stringOf (metadata "host_name"))
    region := qt.trimmed (stringOf (metadata "region"))
    name := qt.trimmed (stringOf (metadata "name"))
    countryCode := qt.toUpper (qt.trimmed (stringOf (metadata "country_code")))
    isVipOnly := boolOf false (metadata "is_vip_only")
    isAvailable := boolOf true (metadata "is_available") }

def hasId (id : ℤ) (server : QJsonObject) : Bool :=
  match server "server_id" with
  | some (.num q) => intOf 0 (some (.num q)) = id
  | some (.str s) => qt.toInt s = id
  | _ => false

def looksLike (m : Metadata) (server : QJsonObject) : Bool :=
  (m.hostName ≠ "" && qt.same (stringOf (server "hostName")) m.hostName) ||
  (m.region ≠ "" && qt.same (stringOf (server "description")) ("FBLink VPN - " ++ m.region)) ||
  (m.name ≠ "" && (qt.same (stringOf (server "name")) m.name ||
    qt.same (stringOf (server "description")) m.name))

def isMatch (m : Metadata) (server : QJsonObject) : Bool :=
  isFBLinkServer server && ((0 < m.serverId && hasId qt m.serverId server) || looksLike qt m server)

def withCountry (m : Metadata) (server : QJsonObject) : QJsonObject :=
  if m.countryCode = "" then server
  else (server.set "country_code" (.str m.countryCode)).set "server_country_code"
    (.str m.countryCode)

def merged (m : Metadata) (server : QJsonObject) : QJsonObject :=
  let server := if 0 < m.serverId then server.set "server_id" (.num m.serverId) else server
  let server := ((server.set "is_vip_only" (.bool m.isVipOnly)).set "is_available"
    (.bool m.isAvailable)).set "fblink_server" (.bool true)
  let server := if m.isVipOnly && !m.isAvailable
    then (server.set "containers" (.arr [])).set "defaultContainer" (.str "") else server
  withCountry m server

/-- A server that is only shown, because the user may not use it. -/
def lockedServer (m : Metadata) : QJsonObject :=
  let description := if m.region = "" then (if m.name = "" then m.hostName else m.name)
    else "FBLink VPN - " ++ m.region
  let empty : QJsonObject := fun _ => none
  withCountry m <| ((((((((empty.set "description" (.str description)).set "name"
    (.str description)).set "hostName" (.str m.hostName)).set "server_id" (.num m.serverId)).set
    "is_vip_only" (.bool true)).set "is_available" (.bool false)).set "fblink_server"
    (.bool true)).set "containers" (.arr [])).set "defaultContainer" (.str "")

def mergeEntry (m : Metadata) (c : Client) : Client :=
  match c.servers.findIdx? (isMatch qt m) with
  | some i => c.editServer (merged m (c.servers.getD i fun _ => none)) i
  | none => if !m.isVipOnly || m.isAvailable then c else c.addServer (lockedServer m)

/-- A default server that may not be used gives way to the first one that may. -/
def replaceDefault (c : Client) : Client :=
  match c.server? c.defaultServerIndex with
  | none => c
  | some server =>
    if boolOf false (server "is_vip_only") && !boolOf true (server "is_available") then
      match c.servers.findIdx? fun candidate =>
          isFBLinkServer candidate && boolOf true (candidate "is_available") with
      | none => c
      | some i =>
        let candidate := c.servers.getD i fun _ => none
        let moved := (c.setDefaultServerIndex i).setProcessedServerIndex i
        let hostName := stringOf (candidate "hostName")
        if hostName = "" then moved else moved.rememberSelected hostName (candidate "server_id")
    else c

def mergeServerMetadata (metadataServers : List Json) (c : Client) : Client :=
  replaceDefault (metadataServers.foldl (fun c value => mergeEntry qt (metadataOf qt value) c) c)

variable {qt}

theorem intOf_range (v : Option Json) :
    -2 ^ 31 ≤ intOf (-1) v ∧ intOf (-1) v < 2 ^ 31 := by
  unfold intOf
  split
  · split
    · rename_i h
      exact h.2
    · decide
  · decide

theorem intOf_cast {n : ℤ} (h : -2 ^ 31 ≤ n ∧ n < 2 ^ 31) : intOf 0 (some (.num n)) = n := by
  show (if (n : ℚ).den = 1 ∧ _ then (n : ℚ).num else 0) = n
  rw [if_pos ⟨Rat.den_intCast n, by simpa using h⟩]
  exact Rat.num_intCast n

theorem withCountry_other (m : Metadata) {k} (hcode : k ≠ "country_code")
    (hserver : k ≠ "server_country_code") : withCountry m server k = server k := by
  unfold withCountry
  split
  · rfl
  · rw [set_other hserver, set_other hcode]

theorem merged_other (m : Metadata) (server : QJsonObject) {k} (h : k ∉ ["server_id", "is_vip_only",
      "is_available", "fblink_server", "containers", "defaultContainer", "country_code",
      "server_country_code"]) : merged m server k = server k := by
  simp only [mem_cons, not_mem_nil, or_false, not_or] at h
  obtain ⟨hid, hvip, havailable, hfblink, hcontainers, hdefault, hcode, hserver⟩ := h
  unfold merged
  rw [withCountry_other m hcode hserver]
  split
  · rw [set_other hdefault, set_other hcontainers, set_other hfblink, set_other havailable,
      set_other hvip]
    split
    · rw [set_other hid]
    · rfl
  · rw [set_other hfblink, set_other havailable, set_other hvip]
    split
    · rw [set_other hid]
    · rfl

theorem merged_flags (m : Metadata) (server : QJsonObject) :
    merged m server "is_vip_only" = some (.bool m.isVipOnly) ∧
      merged m server "is_available" = some (.bool m.isAvailable) ∧
      merged m server "fblink_server" = some (.bool true) := by
  unfold merged
  rw [withCountry_other m (by decide) (by decide), withCountry_other m (by decide) (by decide),
    withCountry_other m (by decide) (by decide)]
  split <;> simp

variable {m : Metadata}

theorem merged_id (h : 0 < m.serverId) :
    merged m server "server_id" = some (.num m.serverId) := by
  unfold merged
  rw [withCountry_other m (by decide) (by decide), if_pos h]
  split <;> simp

def Metadata.isLocked (m : Metadata) : Bool := m.isVipOnly && !m.isAvailable

theorem merged_containers (m : Metadata) (server : QJsonObject) :
    merged m server "containers" = if m.isLocked then some (.arr []) else server "containers" := by
  unfold merged Metadata.isLocked
  rw [withCountry_other m (by decide) (by decide)]
  split
  · rw [set_other (by decide), set_same]
  · rw [set_other (by decide), set_other (by decide), set_other (by decide)]
    split
    · rw [set_other (by decide)]
    · rfl

/-- A server of the list and the entries that have reached it so far. -/
abbrev Slot := QJsonObject × List Metadata

def current (x : Slot) : QJsonObject := x.2.foldl (fun server m => merged m server) x.1

variable (qt) in
/-- An entry fits what looks like it, and what has its id until an entry gets there. -/
def fits (m : Metadata) (x : Slot) : Bool :=
  isFBLinkServer x.1 && (looksLike qt m x.1 || hasId qt m.serverId x.1 && x.2.isEmpty)

variable (qt) in
def reach (slots : List Slot) (m : Metadata) : List Slot :=
  match slots.findIdx? (fits qt m) with
  | some i => slots.modify i fun x => (x.1, x.2 ++ [m])
  | none => slots

variable (qt) in
/-- The servers with the entries that reach them, told from the list before the merge. -/
def reached (servers : List QJsonObject) (entries : List Metadata) : List Slot :=
  entries.foldl (reach qt) (servers.map (·, []))

theorem current_other (here : List Metadata) (s : QJsonObject) {k} (h : k ∉ ["server_id",
      "is_vip_only", "is_available", "fblink_server", "containers", "defaultContainer",
      "country_code", "server_country_code"]) : current (s, here) k = s k := by
  induction here generalizing s with
  | nil => rfl
  | cons m here ih => exact (ih (merged m s)).trans (merged_other m s h)

theorem current_fblink (here : List Metadata) (s : QJsonObject)
    (h : here ≠ [] → isFBLinkServer s) : isFBLinkServer (current (s, here)) = isFBLinkServer s := by
  induction here generalizing s with
  | nil => rfl
  | cons m here ih =>
    have hmerged : isFBLinkServer (merged m s) := by
      unfold isFBLinkServer
      rw [(merged_flags m s).2.2]
      simp [boolOf]
    exact (ih (merged m s) fun _ => hmerged).trans (hmerged.trans (h (by simp)).symm)

theorem current_containers (here : List Metadata) (s : QJsonObject) :
    current (s, here) "containers" =
      if here.any Metadata.isLocked then some (.arr []) else s "containers" := by
  induction here generalizing s with
  | nil => rfl
  | cons m here ih =>
    refine (ih (merged m s)).trans ?_
    rw [merged_containers, any_cons]
    cases m.isLocked <;> simp

theorem current_snoc (here : List Metadata) (m : Metadata) (s : QJsonObject) :
    current (s, here ++ [m]) = merged m (current (s, here)) := by
  simp [current]

def Numbered (m : Metadata) : Prop :=
  0 < m.serverId ∧ -2 ^ 31 ≤ m.serverId ∧ m.serverId < 2 ^ 31

theorem hasId_merged (h : Numbered m) (server : QJsonObject) (n : ℤ) :
    hasId qt n (merged m server) = decide (m.serverId = n) := by
  unfold hasId
  rw [merged_id h.1]
  dsimp only
  rw [intOf_cast h.2]

variable {x : Slot} {slots : List Slot} {entries : List Metadata}

/-- What is known of the entries at a server. -/
def Among (entries : List Metadata) (x : Slot) : Prop :=
  ∀ m ∈ x.2, m ∈ entries ∧ isFBLinkServer x.1 = true

theorem isMatch_current (hentries : ∀ m' ∈ entries, Numbered m' ∧ m'.serverId ≠ m.serverId)
    (hpos : 0 < m.serverId) (hx : Among entries x) : isMatch qt m (current x) = fits qt m x := by
  obtain ⟨s, here⟩ := x
  have hfblink : here ≠ [] → isFBLinkServer s := by
    intro hne
    obtain ⟨m', hm'⟩ := exists_mem_of_ne_nil _ hne
    exact (hx m' hm').2
  unfold isMatch fits looksLike
  rw [current_fblink here s hfblink, current_other here s (by decide),
    current_other here s (by decide), current_other here s (by decide)]
  rcases here.eq_nil_or_concat with rfl | ⟨before, last, rfl⟩
  · simp [current, hpos, Bool.or_comm]
  · obtain ⟨hnumbered, hne⟩ := hentries last (hx last (by simp)).1
    have hsome : (before ++ [last]).isEmpty = false := by simp [isEmpty_eq_false_iff]
    rw [concat_eq_append, current_snoc, hasId_merged hnumbered, hsome]
    simp [hne]

theorem findIdx_congr {α : Type} {l : List α} {p q : α → Bool} (h : ∀ a ∈ l, p a = q a) :
    l.findIdx? p = l.findIdx? q := by
  induction l with
  | nil => rfl
  | cons a l ih =>
    rw [findIdx?_cons, findIdx?_cons, h a mem_cons_self, ih fun b hb => h b (mem_cons_of_mem _ hb)]

/-- One entry is merged into the server that it reaches, or changes what follows the list. -/
theorem mergeEntry_reach (hentries : ∀ m' ∈ entries, Numbered m' ∧ m'.serverId ≠ m.serverId)
    (hpos : 0 < m.serverId) (hslots : ∀ x ∈ slots, Among entries x) {c extra}
    (hc : c.servers = slots.map current ++ extra) :
    ∃ extra', (mergeEntry qt m c).servers = (reach qt slots m).map current ++ extra' := by
  have hfind : (slots.map current).findIdx? (isMatch qt m) = slots.findIdx? (fits qt m) := by
    rw [findIdx?_map]
    exact findIdx_congr fun x hx => isMatch_current hentries hpos (hslots x hx)
  unfold mergeEntry reach
  rw [hc, findIdx?_append, hfind]
  cases hfound : slots.findIdx? (fits qt m) with
  | some i =>
    obtain ⟨hi, -⟩ := findIdx?_eq_some_iff_getElem.mp hfound
    refine ⟨extra, ?_⟩
    show (c.servers.set i _) = _
    rw [hc, set_append_left _ _ (by rwa [length_map])]
    congr 1
    refine ext_getElem? fun j => ?_
    by_cases hj : i = j
    · subst hj
      simp [hi, current_snoc, getElem?_append_left]
    · simp [hj]
  | none =>
    cases extra.findIdx? (isMatch qt m) with
    | some j =>
      have hedit : ∀ server, ∃ extra', (c.editServer server
          (j + (slots.map current).length)).servers = slots.map current ++ extra' := by
        intro server
        refine ⟨extra.set j server, ?_⟩
        show c.servers.set _ _ = _
        rw [hc, set_append_right _ _ (Nat.le_add_left _ _), Nat.add_sub_cancel]
      exact hedit _
    | none =>
      have hrest : ∃ extra', (if !m.isVipOnly || m.isAvailable then c
          else c.addServer (lockedServer m)).servers = slots.map current ++ extra' := by
        split
        · exact ⟨extra, hc⟩
        · refine ⟨extra ++ [lockedServer m], ?_⟩
          rw [← append_assoc, ← hc]
          rfl
      exact hrest

theorem reach_among (h : ∀ x ∈ slots, Among entries x) :
    ∀ x ∈ reach qt slots m, Among (entries ++ [m]) x := by
  have hmore : ∀ x ∈ slots, Among (entries ++ [m]) x := fun x hx m' hm' =>
    ⟨mem_append_left _ (h x hx m' hm').1, (h x hx m' hm').2⟩
  unfold reach
  cases hfound : slots.findIdx? (fits qt m) with
  | none => exact hmore
  | some i =>
    obtain ⟨hi, hfits, -⟩ := findIdx?_eq_some_iff_getElem.mp hfound
    intro x hx
    obtain ⟨j, hj⟩ := mem_iff_getElem?.mp hx
    rw [getElem?_modify] at hj
    obtain ⟨y, hy, rfl⟩ := Option.map_eq_some_iff.mp hj
    by_cases hij : i = j
    · subst hij
      obtain ⟨_, rfl⟩ := List.getElem?_eq_some_iff.mp hy
      intro m' hm'
      rw [if_pos rfl] at hm' ⊢
      refine ⟨?_, ((Bool.and_eq_true _ _).mp hfits).1⟩
      rcases mem_append.mp hm' with hm' | hm'
      · exact (hmore _ (getElem_mem hi) m' hm').1
      · exact mem_append_right _ hm'
    · rw [if_neg hij]
      exact hmore y (mem_of_getElem? hy)

theorem reach_originals : (reach qt slots m).map Prod.fst = slots.map Prod.fst := by
  unfold reach
  split
  · refine ext_getElem? fun j => ?_
    rw [getElem?_map, getElem?_modify, getElem?_map]
    cases slots[j]? with
    | none => rfl
    | some x => split <;> rfl
  · rfl

theorem replaceDefault_servers (c : Client) : (replaceDefault c).servers = c.servers := by
  unfold replaceDefault
  split
  · rfl
  split
  · split
    · rfl
    · dsimp only
      split <;> rfl
  · rfl

/-- The list is told from the slots, apart from what follows it. -/
structure Told (servers : List QJsonObject) (entries : List Metadata) (slots : List Slot)
    (c : Client) : Prop where
  originals : slots.map Prod.fst = servers
  among : ∀ x ∈ slots, Among entries x
  merged : ∃ extra, c.servers = slots.map current ++ extra

theorem Told.at (h : Told servers entries slots c) {i : ℕ} (hx : slots[i]? = some x) :
    c.servers[i]? = some (current x) := by
  obtain ⟨extra, hservers⟩ := h.merged
  have hi : i < (slots.map current).length := by
    rw [length_map]
    exact (List.getElem?_eq_some_iff.mp hx).1
  rw [hservers, getElem?_append_left hi, getElem?_map, hx]
  rfl

theorem Told.start (c : Client) : Told c.servers [] (c.servers.map (·, [])) c := by
  refine ⟨?_, fun x hx m hm => ?_, [], ?_⟩
  · rw [map_map]
    exact map_id _
  · obtain ⟨s, -, rfl⟩ := mem_map.mp hx
    cases hm
  · rw [map_map, append_nil]
    exact (map_id _).symm

variable (qt) in
theorem Told.foldl {done rest : List Metadata} {c} (h : Told servers done slots c)
    (hnumbered : ∀ m ∈ done ++ rest, Numbered m)
    (hdiffer : ((done ++ rest).map Metadata.serverId).Nodup) :
    Told servers (done ++ rest) (rest.foldl (reach qt) slots)
      (rest.foldl (fun c m => mergeEntry qt m c) c) := by
  induction rest generalizing done c slots with
  | nil =>
    rw [append_nil]
    exact h
  | cons m rest ih =>
    have hnew : ∀ m' ∈ done, Numbered m' ∧ m'.serverId ≠ m.serverId := by
      intro m' hm'
      rw [map_append, map_cons] at hdiffer
      exact ⟨hnumbered m' (mem_append_left _ hm'), fun heq =>
        (nodup_append.mp hdiffer).2.2 _ (mem_map_of_mem hm') _ mem_cons_self heq⟩
    obtain ⟨extra, hc⟩ := h.merged
    have hstep : Told servers (done ++ [m]) (reach qt slots m) (mergeEntry qt m c) :=
      ⟨reach_originals.trans h.originals, reach_among h.among,
        mergeEntry_reach hnew (hnumbered m (by simp)).1 h.among hc⟩
    rw [append_cons] at hnumbered hdiffer ⊢
    exact ih hstep hnumbered hdiffer

variable (qt) in
/-- What the merge owes to a server: the flags of the entry with its id, if there is one, the
containers unless that entry locks the server, and everything to a server of others. -/
structure Served (entries : List Metadata) (s t : QJsonObject) : Prop where
  own : isFBLinkServer s = true → ∀ m ∈ entries, hasId qt m.serverId s = true →
    hasId qt m.serverId t = true ∧ t "is_vip_only" = some (.bool m.isVipOnly) ∧
      t "is_available" = some (.bool m.isAvailable)
  containers : t "containers" = s "containers" ∨ ∃ m ∈ entries, isFBLinkServer s = true ∧
    hasId qt m.serverId s = true ∧ m.isVipOnly = true ∧ m.isAvailable = false
  other : isFBLinkServer s = false → t = s

variable (qt) in
/-- The entry with the server's id, if there is one, is the last that reaches it, or none does and
the server has its flags already; and one that locks reaches it only if that entry locks or there
are no containers to lose. -/
def Rightly (entries : List Metadata) (x : Slot) : Prop :=
  (isFBLinkServer x.1 = true → ∀ m ∈ entries, hasId qt m.serverId x.1 = true →
    x.2.getLast? = some m ∨ x.2 = [] ∧ x.1 "is_vip_only" = some (.bool m.isVipOnly) ∧
      x.1 "is_available" = some (.bool m.isAvailable)) ∧
  (x.2.any Metadata.isLocked = true → x.1 "containers" = some (.arr []) ∨
    ∃ m ∈ entries, hasId qt m.serverId x.1 = true ∧ m.isLocked = true)

theorem served_current_iff (hnumbered : ∀ m ∈ entries, Numbered m)
    (hdiffer : ∀ m ∈ entries, ∀ m' ∈ entries, m'.serverId = m.serverId → m' = m)
    (hx : Among entries x) : Served qt entries x.1 (current x) ↔ Rightly qt entries x := by
  obtain ⟨s, here⟩ := x
  constructor
  · rintro ⟨hown, hcontainers, -⟩
    refine ⟨fun hfblink m hm hid => ?_, fun hlocked => ?_⟩
    · obtain ⟨hid', hflags⟩ := hown hfblink m hm hid
      rcases here.eq_nil_or_concat with rfl | ⟨before, last, rfl⟩
      · exact .inr ⟨rfl, hflags⟩
      · rw [concat_eq_append] at hid' hx ⊢
        have hlast := (hx last (by simp)).1
        rw [current_snoc, hasId_merged (hnumbered last hlast)] at hid'
        rw [hdiffer m hm last hlast (of_decide_eq_true hid')]
        exact .inl (by simp)
    · rw [current_containers, if_pos hlocked] at hcontainers
      rcases hcontainers with hgone | ⟨m, hm, -, hid, hvip, havailable⟩
      · exact .inl hgone.symm
      · exact .inr ⟨m, hm, hid, by simp [Metadata.isLocked, hvip, havailable]⟩
  · rintro ⟨hown, hcontainers⟩
    refine ⟨fun hfblink m hm hid => ?_, ?_, fun hother => ?_⟩
    · rcases hown hfblink m hm hid with hlast | ⟨rfl, hflags⟩
      · obtain ⟨before, rfl⟩ := getLast?_eq_some_iff.mp hlast
        obtain ⟨hvip, havailable, -⟩ := merged_flags m (current (s, before))
        rw [current_snoc, hasId_merged (hnumbered m hm)]
        exact ⟨decide_eq_true rfl, hvip, havailable⟩
      · exact ⟨hid, hflags⟩
    · rw [current_containers]
      by_cases hlocked : here.any Metadata.isLocked
      · obtain ⟨m', hm', -⟩ := any_eq_true.mp hlocked
        rw [if_pos hlocked]
        rcases hcontainers hlocked with hgone | ⟨m, hm, hid, hlock⟩
        · exact .inl hgone.symm
        · exact .inr ⟨m, hm, (hx m' hm').2, hid, by simpa [Metadata.isLocked] using hlock⟩
      · exact .inl (if_neg hlocked)
    · rcases here.eq_nil_or_concat with rfl | ⟨before, last, rfl⟩
      · rfl
      · exact absurd (hother.symm.trans (hx last (by simp)).2) Bool.false_ne_true

variable (qt) in
abbrev entriesOf (values : List Json) : List Metadata := values.map (metadataOf qt)

/-- After the merge the list is told from the entries that have reached its servers. -/
theorem told_merge (c : Client) {values} (hnumbered : ∀ m ∈ entriesOf qt values, Numbered m)
    (hdiffer : ((entriesOf qt values).map Metadata.serverId).Nodup) :
    Told c.servers (entriesOf qt values) (reached qt c.servers (entriesOf qt values))
      (mergeServerMetadata qt values c) := by
  have hfold := (Told.start c).foldl qt hnumbered hdiffer
  rw [nil_append] at hfold
  refine ⟨hfold.originals, hfold.among, ?_⟩
  obtain ⟨extra, hservers⟩ := hfold.merged
  unfold mergeServerMetadata
  rw [replaceDefault_servers]
  rw [foldl_map] at hservers
  exact ⟨extra, hservers⟩

variable (qt) in
/-- The merge is right for all servers of the list just where the entries reach them rightly. -/
theorem metadata_reaches_own_server_iff (c : Client) (values : List Json)
    (hpos : ∀ m ∈ entriesOf qt values, 0 < m.serverId)
    (hdiffer : ((entriesOf qt values).map Metadata.serverId).Nodup) :
    (∀ (i : ℕ) s, c.servers[i]? = some s →
      ∃ t, (mergeServerMetadata qt values c).servers[i]? = some t ∧
        Served qt (entriesOf qt values) s t) ↔
      ∀ x ∈ reached qt c.servers (entriesOf qt values),
        Rightly qt (entriesOf qt values) x := by
  have hnumbered : ∀ m ∈ entriesOf qt values, Numbered m := by
    intro m hm
    obtain ⟨v, -, rfl⟩ := mem_map.mp hm
    exact ⟨hpos _ hm, intOf_range (objectOf v "id")⟩
  have htold := told_merge c hnumbered hdiffer
  have hiff : ∀ x ∈ reached qt c.servers (entriesOf qt values),
      (Served qt (entriesOf qt values) x.1 (current x) ↔ _) := fun x hx =>
    served_current_iff hnumbered (fun m hm m' hm' => inj_on_of_nodup_map hdiffer hm' hm)
      (htold.among x hx)
  constructor
  · intro h x hx
    obtain ⟨i, hi⟩ := mem_iff_getElem?.mp hx
    obtain ⟨t, ht, hserved⟩ := h i x.1 (by
      rw [← htold.originals, getElem?_map]; exact congrArg (Option.map Prod.fst) hi)
    obtain rfl := Option.some.inj ((htold.at hi).symm.trans ht)
    exact (hiff x hx).mp hserved
  · intro h i s hs
    rw [← htold.originals, getElem?_map] at hs
    obtain ⟨x, hx, rfl⟩ := Option.map_eq_some_iff.mp hs
    exact ⟨current x, htold.at hx, (hiff x (mem_of_getElem? hx)).mpr (h x (mem_of_getElem? hx))⟩

variable (qt) in
def IdsDiffer (servers : List QJsonObject) : Prop :=
  ∀ (i j : ℕ) s t, servers[i]? = some s → servers[j]? = some t → isFBLinkServer s = true →
    isFBLinkServer t = true → ∀ n, hasId qt n s = true → hasId qt n t = true → i = j

def plainText : QtText where
  trimmed := id
  toUpper := id
  foldCase := id
  toInt s := (atoi? s).getD 0
  fold_empty h := h

def serverWith (id : ℤ) (hostName region : String) : QJsonObject :=
  objectOf (.obj [("description", .str ("FBLink VPN - " ++ region)), ("hostName", .str hostName),
    ("server_id", .num id), ("fblink_server", .bool true), ("containers", .arr [.obj []])])

def entry (id : ℤ) (hostName region : String) (isVipOnly isAvailable : Bool) : Json :=
  .obj [("id", .num id), ("host_name", .str hostName), ("region", .str region),
    ("is_vip_only", .bool isVipOnly), ("is_available", .bool isAvailable)]

def clientWith (region₁ region₂ : String) : Client :=
  ⟨[serverWith 1 "a.example" region₁, serverWith 2 "b.example" region₂], 0, 0, "", none⟩

def twoEntries (region₁ region₂ : String) : List Json :=
  [entry 1 "a.example" region₁ false true, entry 2 "b.example" region₂ true false]

theorem hasId_serverWith {id} (h : -2 ^ 31 ≤ id ∧ id < 2 ^ 31) :
    hasId plainText n (serverWith id hostName region) = decide (id = n) := by
  show decide (intOf 0 (some (.num id)) = n) = _
  rw [intOf_cast h]

theorem idsDiffer_clientWith (region₁ region₂ : String) :
    IdsDiffer plainText (clientWith region₁ region₂).servers := by
  intro i j s t hs ht _ _ n hn hn'
  rcases i with _ | _ | i <;> rcases j with _ | _ | j <;>
    simp only [clientWith, getElem?_cons_zero, getElem?_cons_succ, getElem?_nil,
      Option.some.injEq, reduceCtorEq] at hs ht
  · rfl
  · rw [← hs, hasId_serverWith (by decide)] at hn
    rw [← ht, hasId_serverWith (by decide)] at hn'
    have h1 := of_decide_eq_true hn
    have h2 := of_decide_eq_true hn'
    omega
  · rw [← hs, hasId_serverWith (by decide)] at hn
    rw [← ht, hasId_serverWith (by decide)] at hn'
    have h1 := of_decide_eq_true hn
    have h2 := of_decide_eq_true hn'
    omega
  · rfl

theorem servers_of_two_regions :
    ∃ t, (mergeServerMetadata plainText (twoEntries "NL" "DE") (clientWith "NL" "DE")).servers[1]? =
        some t ∧
      hasId plainText 2 t = true ∧ t "is_vip_only" = some (.bool true) ∧
      t "is_available" = some (.bool false) := by
  have hlast : ∀ x ∈ reached plainText (clientWith "NL" "DE").servers
        (entriesOf plainText (twoEntries "NL" "DE")),
      (∀ m ∈ entriesOf plainText (twoEntries "NL" "DE"),
        hasId plainText m.serverId x.1 = true → x.2.getLast? = some m) ∧
      (x.2.any Metadata.isLocked = true → ∃ m ∈ entriesOf plainText (twoEntries "NL" "DE"),
        hasId plainText m.serverId x.1 = true ∧ m.isLocked = true) := by decide +kernel
  obtain ⟨t, ht, hserved⟩ := (metadata_reaches_own_server_iff plainText (clientWith "NL" "DE")
    (twoEntries "NL" "DE") (by decide +kernel) (by decide +kernel)).mpr (fun x hx =>
      ⟨fun _ m hm hid => .inl ((hlast x hx).1 m hm hid), fun h => .inr ((hlast x hx).2 h)⟩) 1 _ rfl
  exact ⟨t, ht, hserved.own (by decide +kernel) _ (mem_cons_of_mem _ mem_cons_self)
    (by decide +kernel)⟩

/-- The entry of the second server of a region is taken for the first one, which loses its id and
its containers. -/
theorem servers_of_one_region :
    IdsDiffer plainText (clientWith "NL" "NL").servers ∧
    (∀ v ∈ twoEntries "NL" "NL", 0 < (metadataOf plainText v).serverId) ∧
    ((twoEntries "NL" "NL").map fun v => (metadataOf plainText v).serverId).Nodup ∧
    ((mergeServerMetadata plainText (twoEntries "NL" "NL") (clientWith "NL" "NL")).servers[0]?.all
      fun t => !hasId plainText 1 t && (arrayOf (t "containers")).isEmpty) = true ∧
    ((mergeServerMetadata plainText (twoEntries "NL" "NL") (clientWith "NL" "NL")).servers[1]?.all
      fun t => (t "is_vip_only").isNone) = true :=
  ⟨idsDiffer_clientWith "NL" "NL", by decide +kernel, by decide +kernel, by decide +kernel,
    by decide +kernel⟩

end ServerMetadata

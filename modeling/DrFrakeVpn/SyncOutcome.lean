import DrFrakeVpn.ConfigSync

/-! # What a sync makes of the server list

The list that comes out of the loops is the one of the general algorithm, and the choice of the
default server only changes default containers in it. -/
namespace SyncOutcome

open GoValues ClientServers KeyedSlots ConfigSync List

variable {env : Env}

structure SameBut (x y : QJsonObject) : Prop where
  other : ∀ k, k ≠ "defaultContainer" → y k = x k
  foreign : isFBLinkServer x = false → y = x

theorem SameBut.refl (x : QJsonObject) : SameBut x x := ⟨fun _ _ => rfl, fun _ => rfl⟩

variable {x y : QJsonObject}

theorem SameBut.isFBLinkServer_eq (h : SameBut x y) : isFBLinkServer y = isFBLinkServer x := by
  unfold isFBLinkServer
  rw [h.other _ (by decide), h.other _ (by decide), h.other _ (by decide)]

theorem SameBut.hostName_eq (h : SameBut x y) : hostName y = hostName x := by
  unfold ConfigSync.hostName
  rw [h.other _ (by decide)]

theorem SameBut.key_eq (h : SameBut x y) : key y = key x := by
  unfold key
  rw [h.isFBLinkServer_eq, h.hostName_eq]

theorem SameBut.trans {z} (h : SameBut x y) (h' : SameBut y z) : SameBut x z := by
  refine ⟨fun k hk => (h'.other k hk).trans (h.other k hk), fun hx => ?_⟩
  rw [h'.foreign (h.isFBLinkServer_eq.trans hx), h.foreign hx]

theorem sameBut_set (hx : isFBLinkServer x) :
    SameBut x (x.set "defaultContainer" container) :=
  ⟨fun _ hk => set_other hk, fun hfalse => absurd (hx.symm.trans hfalse) Bool.noConfusion⟩

/-- The lists differ in default containers only. -/
abbrev SameServers (xs ys : List QJsonObject) : Prop := List.Forall₂ SameBut xs ys

theorem SameServers.refl (xs : List QJsonObject) : SameServers xs xs :=
  forall₂_same.mpr fun x _ => SameBut.refl x

variable {i : ℕ} {xs ys : List QJsonObject}

theorem SameServers.at (h : SameServers xs ys) (hy : ys[i]? = some y) :
    ∃ x, xs[i]? = some x ∧ SameBut x y := by
  obtain ⟨hi, hget⟩ := List.getElem?_eq_some_iff.mp hy
  have hi' : i < xs.length := h.length_eq ▸ hi
  exact ⟨xs.get ⟨i, hi'⟩, getElem?_eq_getElem hi', hget ▸ h.get hi' hi⟩

theorem SameServers.of_at (h : SameServers xs ys) (hx : xs[i]? = some x) :
    ∃ y, ys[i]? = some y ∧ SameBut x y := by
  have hi : i < ys.length := h.length_eq ▸ (List.getElem?_eq_some_iff.mp hx).1
  obtain ⟨x', hx', hbut⟩ := h.at (getElem?_eq_getElem hi)
  obtain rfl := Option.some.inj (hx.symm.trans hx')
  exact ⟨_, getElem?_eq_getElem hi, hbut⟩

theorem SameServers.trans {zs} (h : SameServers xs ys) (h' : SameServers ys zs) :
    SameServers xs zs := by
  refine forall₂_iff_get.mpr ⟨h.length_eq.trans h'.length_eq, fun i hi hz => ?_⟩
  have hy : i < ys.length := h.length_eq ▸ hi
  exact (h.get hi hy).trans (h'.get hy hz)

theorem sameServers_set (hx : xs[i]? = some x) (h : SameBut x y) : SameServers xs (xs.set i y) := by
  obtain ⟨hi, hget⟩ := List.getElem?_eq_some_iff.mp hx
  refine forall₂_iff_get.mpr ⟨by rw [length_set], fun j hj hj' => ?_⟩
  by_cases hij : i = j
  · subst hij
    simpa [hget] using h
  · simpa [hij] using SameBut.refl (xs.get ⟨j, hj⟩)

theorem SameServers.map_key (h : SameServers xs ys) : ys.map key = xs.map key := by
  induction h with
  | nil => rfl
  | cons hxy _ ih => rw [map_cons, map_cons, hxy.key_eq, ih]

theorem SameServers.unkeyed (h : SameServers xs ys) :
    ys.filter (fun a => key a = none) = xs.filter (fun a => key a = none) := by
  induction h with
  | nil => rfl
  | @cons x y xs ys hxy _ ih =>
    rw [filter_cons, filter_cons, hxy.key_eq, ih]
    by_cases hx : key x = none
    · rw [hxy.foreign (key_eq_none_iff.mp hx)]
    · rw [if_neg (by simp [hx]), if_neg (by simp [hx])]

variable (env) in
def withPreferred (servers : List QJsonObject) : List QJsonObject :=
  match findPreferred env servers with
  | some i =>
    if env.qt.same (defaultContainer (serverAt servers i)) (preferredContainer env) then servers
    else servers.set i
      ((serverAt servers i).set "defaultContainer" (.str (preferredContainer env)))
  | none => servers

theorem usePreferred_eq :
    usePreferred env c = { c with servers := withPreferred env c.servers } := by
  unfold usePreferred withPreferred
  cases findPreferred env c.servers with
  | none => rfl
  | some i =>
    dsimp only
    split <;> rfl

variable (env) in
def withContainer (i : ℕ) (fallback : String) (servers : List QJsonObject) : List QJsonObject :=
  let container := containerToApply env fallback (serverAt servers i)
  if container = "" ∨ env.qt.same (defaultContainer (serverAt servers i)) container then servers
  else servers.set i ((serverAt servers i).set "defaultContainer" (.str container))

theorem reconcileServerDefaultContainer_eq :
    reconcileServerDefaultContainer env c i fallback =
      { c with servers := withContainer env i fallback c.servers } := by
  unfold reconcileServerDefaultContainer withContainer
  dsimp only
  split <;> rfl

variable {servers : List QJsonObject} {server : QJsonObject} {host : String}

theorem findIdx_spec {p : QJsonObject → Bool}
    (h : servers.findIdx? (fun s => isFBLinkServer s && p s) = some i) :
    ∃ server, servers[i]? = some server ∧ isFBLinkServer server ∧ p server ∧
      ∀ j < i, ∀ s, servers[j]? = some s → isFBLinkServer s → p s = false := by
  obtain ⟨hi, hp, hbefore⟩ := findIdx?_eq_some_iff_getElem.mp h
  rw [Bool.and_eq_true] at hp
  refine ⟨_, getElem?_eq_getElem hi, hp.1, hp.2, fun j hj s hs hfb => ?_⟩
  obtain ⟨_, rfl⟩ := List.getElem?_eq_some_iff.mp hs
  have hno := hbefore j hj
  rw [Bool.and_eq_true, not_and] at hno
  exact Bool.not_eq_true _ ▸ hno hfb

theorem findIdx_of_at {p : QJsonObject → Bool} (hserver : servers[i]? = some server)
    (hfb : isFBLinkServer server) (hp : p server) :
    ∃ j ≤ i, servers.findIdx? (fun s => isFBLinkServer s && p s) = some j := by
  obtain ⟨hi, rfl⟩ := List.getElem?_eq_some_iff.mp hserver
  cases hfind : servers.findIdx? fun s => isFBLinkServer s && p s with
  | none =>
    rw [findIdx?_eq_none_iff] at hfind
    have hno := hfind _ (getElem_mem hi)
    rw [hfb, hp] at hno
    cases hno
  | some j =>
    obtain ⟨hj, -, hbefore⟩ := findIdx?_eq_some_iff_getElem.mp hfind
    refine ⟨j, not_lt.mp fun hlt => hbefore i hlt ?_, rfl⟩
    rw [hfb, hp]
    rfl

theorem find_spec (h : findFBLinkServerIndexByHostName env.qt servers host = some i) :
    host ≠ "" ∧ ∃ server, servers[i]? = some server ∧ isFBLinkServer server ∧
      env.qt.same (hostName server) host ∧
      ∀ j < i, ∀ s, servers[j]? = some s → isFBLinkServer s →
        env.qt.same (hostName s) host = false := by
  unfold findFBLinkServerIndexByHostName at h
  split at h
  · cases h
  · rename_i hne
    exact ⟨hne, findIdx_spec h⟩

theorem find_of_at (hne : host ≠ "") (hserver : servers[i]? = some server)
    (hfb : isFBLinkServer server) (hsame : env.qt.same (hostName server) host) :
    ∃ j ≤ i, findFBLinkServerIndexByHostName env.qt servers host = some j := by
  unfold findFBLinkServerIndexByHostName
  rw [if_neg hne]
  exact findIdx_of_at hserver hfb hsame

theorem preferred_spec (h : findPreferred env servers = some i) :
    ∃ server, servers[i]? = some server ∧ isFBLinkServer server ∧
      offers env (preferredContainer env) server ∧
      ∀ j < i, ∀ s, servers[j]? = some s → isFBLinkServer s →
        offers env (preferredContainer env) s = false :=
  findIdx_spec h

theorem sameServers_withPreferred (servers : List QJsonObject) :
    SameServers servers (withPreferred env servers) := by
  unfold withPreferred
  cases hfind : findPreferred env servers with
  | none => exact .refl servers
  | some i =>
    obtain ⟨server, hserver, hfb, -⟩ := preferred_spec hfind
    dsimp only
    rw [serverAt_eq hserver]
    split
    · exact .refl servers
    · exact sameServers_set hserver (sameBut_set hfb)

theorem sameServers_withContainer (hserver : servers[i]? = some server)
    (hfb : isFBLinkServer server) (fallback : String) :
    SameServers servers (withContainer env i fallback servers) := by
  unfold withContainer
  dsimp only
  rw [serverAt_eq hserver]
  split
  · exact .refl servers
  · exact sameServers_set hserver (sameBut_set hfb)

theorem stringOf_str : stringOf (some (.str s)) = s := rfl

theorem preferred_used (h : findPreferred env servers = some i)
    (hserver : (withPreferred env servers)[i]? = some server) :
    env.qt.same (defaultContainer server) (preferredContainer env) := by
  obtain ⟨old, hold, -⟩ := preferred_spec h
  unfold withPreferred at hserver
  rw [h] at hserver
  dsimp only at hserver
  rw [serverAt_eq hold] at hserver
  split at hserver
  · rename_i hsame
    rw [hold] at hserver
    exact Option.some.inj hserver ▸ hsame
  · rw [getElem?_set_self (List.getElem?_eq_some_iff.mp hold).1] at hserver
    rw [← Option.some.inj hserver, defaultContainer, set_same, stringOf_str, QtText.same_iff]

theorem withPreferred_before {j} (h : findPreferred env servers = some i) (hj : j ≠ i) :
    (withPreferred env servers)[j]? = servers[j]? := by
  unfold withPreferred
  rw [h]
  dsimp only
  split
  · rfl
  · rw [getElem?_set_ne hj.symm]

variable {qt : QtText}

theorem serverHasContainer_congr {a b} (h : qt.same a b) :
    serverHasContainer qt server a = serverHasContainer qt server b := by
  unfold serverHasContainer QtText.same
  rw [QtText.same_iff.mp h]

theorem preferredContainer_ne : preferredContainer env ≠ "" := by
  unfold preferredContainer
  split <;> decide

variable {fallback : String}

theorem withContainer_noop (hserver : servers[i]? = some server)
    (hpreferred : serverHasContainer env.qt server (preferredContainer env) →
      env.qt.same (defaultContainer server) (preferredContainer env))
    (hfallback : fallback ≠ "" ∧ serverHasContainer env.qt server fallback →
      env.qt.same (defaultContainer server) fallback) :
    withContainer env i fallback servers = servers := by
  unfold withContainer
  rw [serverAt_eq hserver]
  refine if_pos ?_
  unfold containerToApply
  split
  · rename_i hhas
    exact .inr (hpreferred hhas.2)
  · split
    · rename_i hhas
      exact .inr (hfallback hhas)
    · exact .inl rfl

theorem withContainer_set (hserver : servers[i]? = some server)
    (hno : ¬serverHasContainer env.qt server (preferredContainer env))
    (hhas : fallback ≠ "" ∧ serverHasContainer env.qt server fallback)
    (hdiff : ¬env.qt.same (defaultContainer server) fallback) :
    withContainer env i fallback servers =
      servers.set i (server.set "defaultContainer" (.str fallback)) := by
  have happly : containerToApply env fallback server = fallback := by
    unfold containerToApply
    rw [if_neg fun h => hno h.2, if_pos hhas]
  unfold withContainer
  rw [serverAt_eq hserver, happly]
  exact if_neg (not_or.mpr ⟨hhas.1, hdiff⟩)

theorem same_refl (qt : QtText) : qt.same a a := QtText.same_iff.mpr rfl

theorem withContainer_again (hserver : (withContainer env i fallback servers)[i]? = some server) :
    withContainer env i (defaultContainer server) servers =
      withContainer env i fallback servers := by
  have hi : i < servers.length := by
    have hlt := (List.getElem?_eq_some_iff.mp hserver).1
    unfold withContainer at hlt
    dsimp only at hlt
    split at hlt
    · exact hlt
    · rwa [length_set] at hlt
  have hold := getElem?_eq_getElem hi
  generalize servers[i] = old at hold
  by_cases hhas : serverHasContainer env.qt old (preferredContainer env)
  · have happly : ∀ fallback, containerToApply env fallback old = preferredContainer env :=
      fun _ => if_pos ⟨preferredContainer_ne, hhas⟩
    unfold withContainer
    rw [serverAt_eq hold, happly, happly]
  by_cases hchange : (fallback ≠ "" ∧ serverHasContainer env.qt old fallback) ∧
      ¬env.qt.same (defaultContainer old) fallback
  · rw [withContainer_set hold hhas hchange.1 hchange.2, getElem?_set_self hi] at hserver
    rw [← Option.some.inj hserver, defaultContainer, set_same, stringOf_str]
  · -- nothing was applied, and the container that is used is the fallback of the second time
    have hkeep : withContainer env i fallback servers = servers :=
      withContainer_noop hold (fun h => absurd h hhas) fun h => not_not.mp fun hdiff =>
        hchange ⟨h, hdiff⟩
    rw [hkeep, hold] at hserver
    rw [hkeep, ← Option.some.inj hserver]
    exact withContainer_noop hold (fun h => absurd h hhas) fun _ => same_refl _

theorem withContainer_eq_iff (hserver : servers[i]? = some server)
    (hno : ¬serverHasContainer env.qt server (preferredContainer env)) :
    withContainer env i fallback servers = servers ↔
      (fallback ≠ "" ∧ serverHasContainer env.qt server fallback →
        env.qt.same (defaultContainer server) fallback) := by
  refine ⟨fun heq hhas => ?_, withContainer_noop hserver fun h => absurd h hno⟩
  by_contra hdiff
  rw [withContainer_set hserver hno hhas hdiff] at heq
  have hat : (servers.set i _)[i]? = _ := congrArg (·[i]?) heq
  rw [getElem?_set_self (List.getElem?_eq_some_iff.mp hserver).1, hserver] at hat
  rw [← Option.some.inj hat, defaultContainer, set_same, stringOf_str] at hdiff
  exact hdiff (same_refl _)

theorem server_natCast (c : Client) (i : ℕ) : c.server? i = c.servers[i]? := by
  unfold Client.server?
  rw [if_pos (Int.natCast_nonneg i), Int.toNat_natCast]

variable {c : Client}

theorem selectedServer_at (hd : c.defaultServerIndex = i) (hserver : c.servers[i]? = some server)
    (hfb : isFBLinkServer server) : selectedServer c = some server := by
  unfold selectedServer
  rw [hd, server_natCast, hserver, Option.filter_some, if_pos hfb]

theorem selectedServer_cases (c : Client) : selectedServer c = none ∨
    ∃ (i : ℕ) (server : QJsonObject), c.defaultServerIndex = i ∧ c.servers[i]? = some server ∧
      isFBLinkServer server ∧ selectedServer c = some server := by
  cases hsel : selectedServer c with
  | none => exact .inl rfl
  | some server =>
    have hfilter := hsel
    obtain ⟨hserver, hfb⟩ := Option.filter_eq_some_iff.mp hfilter
    unfold Client.server? at hserver
    split at hserver
    · rename_i hnonneg
      exact .inr ⟨c.defaultServerIndex.toNat, server, (Int.toNat_of_nonneg hnonneg).symm,
        hserver, hfb, rfl⟩
    · cases hserver

theorem selectedServer_unset (hd : c.defaultServerIndex = -1) : selectedServer c = none := by
  unfold selectedServer Client.server?
  rw [hd]
  rfl

theorem selectedServer_eq (hd : c.defaultServerIndex = i) (hserver : c.servers[i]? = some server)
    {s} (hsel : selectedServer c = some s) : s = server ∧ isFBLinkServer server := by
  unfold selectedServer at hsel
  rw [hd, server_natCast, hserver] at hsel
  obtain ⟨hs, hfb⟩ := Option.filter_eq_some_iff.mp hsel
  obtain rfl := Option.some.inj hs
  exact ⟨rfl, hfb⟩

theorem select_servers : (select c i).servers = c.servers := by
  unfold select remember
  split <;> rfl

theorem select_default : (select c i).defaultServerIndex = i := by
  unfold select remember
  split <;> rfl

theorem select_remembered (hserver : c.servers[i]? = some server) (hhost : hostName server = "") :
    (select c i).lastSelectedFBLinkHostName = c.lastSelectedFBLinkHostName := by
  unfold select remember
  rw [serverAt_eq hserver, if_neg fun h => h.2 hhost]
  rfl

section Choice

variable {c : Client} {host container : String}

variable (env) in
/-- The server of the host, or else the first with the preferred container. -/
def chosen (host : String) (servers : List QJsonObject) : Option ℕ :=
  (findFBLinkServerIndexByHostName env.qt servers host).or (findPreferred env servers)

/-- What makes a server, or the config it comes from, a choice. -/
def Sought (env : Env) (host : String) (server : QJsonObject) : Prop :=
  host ≠ "" ∧ env.qt.same (hostName server) host = true ∨
    offers env (preferredContainer env) server = true

theorem chosen_spec (h : chosen env host servers = some i) :
    ∃ server, servers[i]? = some server ∧ isFBLinkServer server ∧ Sought env host server := by
  rcases Option.or_eq_some_iff.mp h with hfind | ⟨-, hpreferred⟩
  · obtain ⟨hne, server, hserver, hfb, hsame, -⟩ := find_spec hfind
    exact ⟨server, hserver, hfb, .inl ⟨hne, hsame⟩⟩
  · obtain ⟨server, hserver, hfb, hoffers, -⟩ := preferred_spec hpreferred
    exact ⟨server, hserver, hfb, .inr hoffers⟩

theorem not_sought (h : chosen env host servers = none) (hserver : servers[i]? = some server)
    (hfb : isFBLinkServer server) : ¬Sought env host server := by
  obtain ⟨hfind, hpreferred⟩ := Option.or_eq_none_iff.mp h
  rintro (⟨hne, hsame⟩ | hoffers)
  · obtain ⟨j, -, hfound⟩ := find_of_at hne hserver hfb hsame
    exact absurd (hfind.symm.trans hfound) nofun
  · obtain ⟨j, -, hfound⟩ := findIdx_of_at hserver hfb hoffers
    exact absurd (hpreferred.symm.trans hfound) nofun

theorem choose_found (h : findFBLinkServerIndexByHostName env.qt c.servers host = some i) :
    chooseDefault env host container c = select { c with
      servers := withContainer env i container (withPreferred env c.servers) } i := by
  unfold chooseDefault
  rw [h]
  dsimp only
  rw [usePreferred_eq, reconcileServerDefaultContainer_eq]

theorem choose_preferred (h : findFBLinkServerIndexByHostName env.qt c.servers host = none)
    (hp : findPreferred env c.servers = some i) :
    chooseDefault env host container c =
      select { c with servers := withPreferred env c.servers } i := by
  unfold chooseDefault
  rw [h, hp]
  rw [usePreferred_eq]

theorem choose_none (h : chosen env host c.servers = none) :
    chooseDefault env host container c = c := by
  obtain ⟨hfind, hpreferred⟩ := Option.or_eq_none_iff.mp h
  unfold chooseDefault
  rw [hfind, hpreferred]

theorem choose_default (h : chosen env host c.servers = some i) :
    (chooseDefault env host container c).defaultServerIndex = i := by
  rcases Option.or_eq_some_iff.mp h with hfind | ⟨hfind, hpreferred⟩
  · rw [choose_found hfind, select_default]
  · rw [choose_preferred hfind hpreferred, select_default]

theorem withPreferred_none (h : findPreferred env servers = none) :
    withPreferred env servers = servers := by
  unfold withPreferred
  rw [h]

theorem choose_servers (h : findFBLinkServerIndexByHostName env.qt c.servers host = none) :
    (chooseDefault env host container c).servers = withPreferred env c.servers := by
  cases hp : findPreferred env c.servers with
  | some i => rw [choose_preferred h hp, select_servers]
  | none => rw [choose_none (Option.or_eq_none_iff.mpr ⟨h, hp⟩), withPreferred_none hp]

theorem choose_servers_found (h : findFBLinkServerIndexByHostName env.qt c.servers host = some i) :
    (chooseDefault env host container c).servers =
      withContainer env i container (withPreferred env c.servers) := by
  rw [choose_found h, select_servers]

theorem sameServers_choose :
    SameServers c.servers (chooseDefault env host container c).servers := by
  cases hfind : findFBLinkServerIndexByHostName env.qt c.servers host with
  | none =>
    rw [choose_servers hfind]
    exact sameServers_withPreferred c.servers
  | some i =>
    rw [choose_servers_found hfind]
    obtain ⟨-, server, hserver, hfb, -⟩ := find_spec hfind
    have hpreferred : SameServers c.servers (withPreferred env c.servers) :=
      sameServers_withPreferred c.servers
    obtain ⟨new, hnew, hsame⟩ := hpreferred.of_at hserver
    exact hpreferred.trans (sameServers_withContainer hnew (hsame.isFBLinkServer_eq.trans hfb)
      container)

end Choice

theorem selectedFBLinkHostName_at (h : selectedServer c = some server)
    (hhost : hostName server ≠ "") : selectedFBLinkHostName c = hostName server := by
  unfold selectedFBLinkHostName
  rw [h]
  exact if_pos hhost

theorem selectedFBLinkHostName_else
    (h : ∀ server, selectedServer c = some server → hostName server = "") :
    selectedFBLinkHostName c = c.lastSelectedFBLinkHostName := by
  unfold selectedFBLinkHostName
  cases hsel : selectedServer c with
  | none => rfl
  | some server => exact if_neg fun hne => hne (h server hsel)

theorem selectedFBLinkContainer_at (h : selectedServer c = some server) :
    selectedFBLinkContainer c = defaultContainer server := by
  unfold selectedFBLinkContainer
  rw [h]

theorem same_trans {a b c} (h : qt.same a b) (h' : qt.same b c) :
    qt.same a c := QtText.same_iff.mpr ((QtText.same_iff.mp h).trans (QtText.same_iff.mp h'))

theorem ne_empty_of_same {a b} (h : qt.same a b) (hb : b ≠ "") : a ≠ "" := by
  rintro rfl
  exact hb (qt.fold_empty (QtText.same_iff.mp h).symm)

theorem find_again (h : findFBLinkServerIndexByHostName env.qt servers host = some i)
    (hserver : servers[i]? = some server) :
    hostName server ≠ "" ∧
    findFBLinkServerIndexByHostName env.qt servers (hostName server) = some i := by
  obtain ⟨hne, found, hfound, hfb, hsame, hbefore⟩ := find_spec h
  obtain rfl := Option.some.inj (hserver.symm.trans hfound)
  have hhost := ne_empty_of_same hsame hne
  refine ⟨hhost, ?_⟩
  obtain ⟨j, hj, hfind⟩ := find_of_at hhost hserver hfb (same_refl env.qt)
  obtain ⟨-, other, hother, hfb', hsame', -⟩ := find_spec hfind
  rcases Nat.lt_or_eq_of_le hj with hlt | rfl
  · have hno := hbefore j hlt other hother hfb'
    rw [same_trans hsame' hsame] at hno
    cases hno
  · exact hfind

section Again

variable {c c₂ : Client} {host container : String}

theorem again_found (hlist : c₂.servers = c.servers)
    (hfind : findFBLinkServerIndexByHostName env.qt c.servers host = some i) {c'}
    (hc' : chooseDefault env host container c = c') :
    (chooseDefault env (selectedFBLinkHostName c') (selectedFBLinkContainer c') c₂).servers =
      c'.servers := by
  have hservers : (chooseDefault env host container c).servers = _ := choose_servers_found hfind
  have hsame : SameServers c.servers (chooseDefault env host container c).servers :=
    sameServers_choose
  rw [hc'] at hservers hsame
  obtain ⟨-, old, hold, hfb, -⟩ := find_spec hfind
  obtain ⟨server, hserver, hbut⟩ := hsame.of_at hold
  have hdefault : c'.defaultServerIndex = i := by rw [← hc', choose_found hfind, select_default]
  have hsel := selectedServer_at hdefault hserver (hbut.isFBLinkServer_eq.trans hfb)
  obtain ⟨hhost, hagain⟩ := find_again hfind hold
  rw [selectedFBLinkHostName_at hsel (hbut.hostName_eq.symm ▸ hhost), hbut.hostName_eq,
    selectedFBLinkContainer_at hsel, choose_servers_found (hlist.symm ▸ hagain), hlist, hservers]
  exact withContainer_again (hservers ▸ hserver)

theorem again_preferred (hlast : c.lastSelectedFBLinkHostName = host)
    (hlist : c₂.servers = c.servers)
    (hfind : findFBLinkServerIndexByHostName env.qt c.servers host = none)
    (hpreferred : findPreferred env c.servers = some i) {c'}
    (hc' : chooseDefault env host container c = c') :
    (chooseDefault env (selectedFBLinkHostName c') (selectedFBLinkContainer c') c₂).servers =
      c'.servers := by
  have hservers : (chooseDefault env host container c).servers = _ := choose_servers hfind
  rw [hc'] at hservers
  have hsame := hservers ▸ sameServers_withPreferred c.servers
  obtain ⟨old, hold, hfb, hoffers, hbefore⟩ := preferred_spec hpreferred
  obtain ⟨server, hserver, hbut⟩ := hsame.of_at hold
  have hdefault : c'.defaultServerIndex = i := by
    rw [← hc', choose_preferred hfind hpreferred, select_default]
  have hsel := selectedServer_at hdefault hserver (hbut.isFBLinkServer_eq.trans hfb)
  have hused := preferred_used hpreferred (hservers ▸ hserver)
  by_cases hhost : hostName old = ""
  · have hlast' : c'.lastSelectedFBLinkHostName = host := by
      rw [← hc', choose_preferred hfind hpreferred,
        select_remembered (hservers ▸ hserver) (hbut.hostName_eq.trans hhost)]
      exact hlast
    have hselected : selectedFBLinkHostName c' = host := by
      rw [selectedFBLinkHostName_else, hlast']
      intro s hs
      obtain rfl := Option.some.inj (hsel.symm.trans hs)
      exact hbut.hostName_eq.trans hhost
    rw [hselected, choose_servers (hlist.symm ▸ hfind), hlist, hservers]
  · obtain ⟨j, hj, hfind'⟩ := find_of_at hhost hold hfb (same_refl env.qt)
    rw [selectedFBLinkHostName_at hsel (hbut.hostName_eq.symm ▸ hhost), hbut.hostName_eq,
      selectedFBLinkContainer_at hsel, choose_servers_found (hlist.symm ▸ hfind'), hlist, hservers]
    obtain ⟨-, found, hfound, hfb', -, -⟩ := find_spec hfind'
    have hpref : SameServers c.servers (withPreferred env c.servers) :=
      sameServers_withPreferred c.servers
    obtain ⟨other, hat, -⟩ := hpref.of_at hfound
    -- the server found has the preferred container only if it is the preferred one itself
    have hown : serverHasContainer env.qt other (preferredContainer env) →
        env.qt.same (defaultContainer other) (preferredContainer env) := by
      intro hhas
      rcases Nat.lt_or_eq_of_le hj with hlt' | rfl
      · rw [withPreferred_before hpreferred (Nat.ne_of_lt hlt')] at hat
        obtain rfl := Option.some.inj (hfound.symm.trans hat)
        have hno := hbefore j hlt' found hat hfb'
        unfold offers at hno
        rw [hhas, Bool.or_true] at hno
        cases hno
      · exact preferred_used hpreferred hat
    refine withContainer_noop hat hown fun hhas => ?_
    rw [serverHasContainer_congr hused] at hhas
    have husedother := hown hhas.2
    exact same_trans husedother (QtText.same_iff.mpr (QtText.same_iff.mp hused).symm)

variable (env) in
/-- The first server of the server's host, if it has the server's default container, uses it. -/
def Steady (servers : List QJsonObject) (server : QJsonObject) : Prop :=
  ∀ (j : ℕ) first, findFBLinkServerIndexByHostName env.qt servers (hostName server) = some j →
    servers[j]? = some first → defaultContainer server ≠ "" ∧
      serverHasContainer env.qt first (defaultContainer server) = true →
    env.qt.same (defaultContainer first) (defaultContainer server) = true

theorem again_none (hlast : c.lastSelectedFBLinkHostName = host) (hlist : c₂.servers = c.servers)
    (hnone : chosen env host c.servers = none) :
    (chooseDefault env (selectedFBLinkHostName c) (selectedFBLinkContainer c) c₂).servers =
      c.servers ↔ ∀ server, selectedServer c = some server → Steady env c.servers server := by
  obtain ⟨hfind, hpreferred⟩ := Option.or_eq_none_iff.mp hnone
  by_cases hhost : ∀ server, selectedServer c = some server → hostName server = ""
  · rw [selectedFBLinkHostName_else hhost, hlast, choose_servers (hlist.symm ▸ hfind), hlist,
      withPreferred_none hpreferred]
    exact iff_of_true rfl fun server hsel j first hj => absurd (hhost server hsel) (find_spec hj).1
  · push Not at hhost
    obtain ⟨server, hsel, hne⟩ := hhost
    rcases selectedServer_cases c with hnone | ⟨i, server', -, hserver, hfb, hsel'⟩
    · rw [hnone] at hsel
      cases hsel
    obtain rfl := Option.some.inj (hsel.symm.trans hsel')
    obtain ⟨j, -, hfound⟩ := find_of_at hne hserver hfb (same_refl env.qt)
    obtain ⟨-, first, hfirst, hfb', -⟩ := find_spec hfound
    rw [selectedFBLinkHostName_at hsel hne, selectedFBLinkContainer_at hsel,
      choose_servers_found (hlist.symm ▸ hfound), hlist, withPreferred_none hpreferred,
      withContainer_eq_iff hfirst fun hhas =>
        not_sought hnone hfirst hfb' (.inr (by simp [offers, hhas]))]
    constructor
    · intro h server' hsel' j' first' hj' hfirst'
      obtain rfl := Option.some.inj (hsel.symm.trans hsel')
      obtain rfl := Option.some.inj (hfound.symm.trans hj')
      obtain rfl := Option.some.inj (hfirst.symm.trans hfirst')
      exact h
    · exact fun h => h server hsel j first hfound hfirst

end Again

variable (env) in
def reconciled (obj : QJsonObject) (c : Client) : Client :=
  removeStale (existingFBLinkServerIndices c.servers) (syncConfigs env obj c).updatedIndices
    (syncConfigs env obj c).client

variable (obj : QJsonObject)

theorem syncServers_eq (c : Client) : syncServers env obj c =
    chooseDefault env (selectedFBLinkHostName c) (selectedFBLinkContainer c)
      (reconciled env obj c) :=
  rfl

variable (env) in
theorem syncServers_same (c : Client) :
    SameServers (reconciled env obj c).servers (syncServers env obj c).servers := sameServers_choose

theorem rememberDefault_default (c : Client) :
    (rememberDefault c).defaultServerIndex = c.defaultServerIndex := by
  unfold rememberDefault remember
  split
  · split <;> rfl
  · rfl

theorem rememberDefault_remembered (c : Client) :
    (rememberDefault c).lastSelectedFBLinkHostName = selectedFBLinkHostName c := by
  unfold rememberDefault selectedFBLinkHostName
  rcases selectedServer_cases c with hnone | ⟨i, server, -, -, hfb, hsel⟩
  · rw [hnone]
  · rw [hsel]
    dsimp only
    unfold remember
    by_cases hhost : hostName server = ""
    · rw [if_neg fun h => h.2 hhost, if_neg fun h => h hhost]
    · rw [if_pos ⟨hfb, hhost⟩, if_pos hhost]
      rfl

/-- The old servers and the configs that take their places. -/
abbrev slotsOf (env : Env) (obj : QJsonObject) (c : Client) : List (Slot QJsonObject) :=
  (filled key c.servers (freshServers env obj)).1

structure Reconciled (env : Env) (obj : QJsonObject) (c : Client) (added : List QJsonObject)
    (c₁ : Client) : Prop where
  removed : Removed (slotsOf env obj c) added
    { rememberDefault c with servers := (slotsOf env obj c).map current ++ added } c₁
  comes : ∀ s ∈ added, ∃ config ∈ configsOf env obj, ComesFrom s config
  complete : (∀ config ∈ configsOf env obj, (config "containers").isSome = true) →
    added = (filled key c.servers (freshServers env obj)).2

variable (env) in
theorem reconciled_spec (c : Client) :
    ∃ added, Reconciled env obj c added (reconciled env obj c) := by
  obtain ⟨added, hal, hcomes, hcomplete⟩ := syncConfigs_aligned env obj c
  refine ⟨added, ?_, hcomes, hcomplete⟩
  have hremoved := removeStale_removed (congrArg Client.servers hal.client) hal.updated
  rw [hal.originals, rememberDefault_servers, hal.client] at hremoved
  unfold reconciled
  rw [hal.client]
  exact hremoved

section Reconciled

variable {obj : QJsonObject} {c c₁ : Client} {added : List QJsonObject}

variable (env obj c) in
theorem slots_originals : (slotsOf env obj c).map Prod.fst = c.servers :=
  (packed_filled c.servers (freshServers_keyed obj)).originals

variable (env obj) in
theorem slot_at {i : ℕ} (hserver : c.servers[i]? = some server) :
    ∃ new, (slotsOf env obj c)[i]? = some (server, new) := by
  rw [← slots_originals env obj c, getElem?_map] at hserver
  obtain ⟨⟨a, new⟩, hs, rfl⟩ := Option.map_eq_some_iff.mp hserver
  exact ⟨new, hs⟩

theorem length_slots : (slotsOf env obj c).length = c.servers.length := by
  rw [← length_map Prod.fst, slots_originals]

def ValidDefault (c : Client) : Prop :=
  c.defaultServerIndex = -1 ∨ 0 ≤ c.defaultServerIndex ∧ c.defaultServerIndex < c.servers.length

theorem validDefault_at (hd : c.defaultServerIndex = i) (hserver : c.servers[i]? = some server) :
    ValidDefault c := by
  have hlt := (List.getElem?_eq_some_iff.mp hserver).1
  exact .inr ⟨by omega, by omega⟩

/-- The default index is valid, and a sync that chooses no server finds nothing to change. -/
def Stable (env : Env) (c : Client) : Prop :=
  ValidDefault c ∧ ∀ server, selectedServer c = some server → Steady env c.servers server

theorem stable_unset (hd : c.defaultServerIndex = -1) : Stable env c := by
  refine ⟨.inl hd, fun server hsel => ?_⟩
  rw [selectedServer_unset hd] at hsel
  cases hsel

/-- Where the default index may be before a sync that chooses no server: unset, in the list, at a
server that is appended and changes no default container, or anywhere if no server is left. -/
def DefaultPlaced (env : Env) (obj : QJsonObject) (c : Client) : Prop :=
  c.defaultServerIndex = -1 ∨
  (∃ i : ℕ, c.defaultServerIndex = i ∧ (i < c.servers.length ∨
    ∃ server, (filled key c.servers (freshServers env obj)).2[i - c.servers.length]? = some server ∧
      Steady env (reconcile key c.servers (freshServers env obj)) server)) ∨
  c.servers ≠ [] ∧ reconcile key c.servers (freshServers env obj) = []

variable {config : QJsonObject}

theorem ComesFrom.hostName_eq (h : ComesFrom server config) :
    ConfigSync.hostName server = ConfigSync.hostName config := congrArg stringOf h.hostName

theorem ComesFrom.sought_iff (h : ComesFrom server config) :
    Sought env host server ↔ Sought env host config := by
  unfold Sought offers serverHasContainer
  rw [ComesFrom.hostName_eq h, ConfigSync.defaultContainer, h.defaultContainer, h.containers]
  rfl

variable (h : Reconciled env obj c added c₁)
include h

theorem Reconciled.servers_eq
    (hcontainers : ∀ config ∈ configsOf env obj, (config "containers").isSome) :
    c₁.servers = reconcile key c.servers (freshServers env obj) := by
  rw [h.removed.servers, h.complete hcontainers]
  rfl

theorem Reconciled.remembered :
    c₁.lastSelectedFBLinkHostName = selectedFBLinkHostName c :=
  h.removed.remembered.trans (rememberDefault_remembered c)

theorem Reconciled.comesFrom {s} (hs : s ∈ c₁.servers)
    (hfb : isFBLinkServer s) : ∃ config ∈ configsOf env obj, ComesFrom s config := by
  rw [h.removed.servers] at hs
  rcases mem_append.mp hs with hs | hs
  · obtain ⟨⟨a, new⟩, hslot, hsurvivor⟩ := mem_filterMap.mp hs
    cases new with
    | some b =>
      obtain rfl := Option.some.inj hsurvivor
      obtain ⟨config, hconfig, rfl⟩ := mem_map.mp
        (filled_mem (freshServers_keyed obj) hslot rfl)
      exact ⟨config, hconfig, fresh_comesFrom _ config⟩
    | none =>
      -- a server that got no config and is still there is not one of the backend's
      have hkey : key a = none ∧ a = s := by simpa [Slot.survivor] using hsurvivor
      have hno := key_eq_none_iff.mp hkey.1
      rw [hkey.2, hfb] at hno
      cases hno
  · exact h.comes s hs

theorem Reconciled.settled_at {s} (hs : (slotsOf env obj c)[i]? = some s) {b}
    (hb : s.survivor key = some b) :
    c₁.servers[position key (slotsOf env obj c) i]? = some b ∧
    c₁.servers.take (position key (slotsOf env obj c) i) =
      settled key ((slotsOf env obj c).take i) := by
  obtain ⟨hat, htake⟩ := KeyedSlots.settled_at hs hb
  have hlt := (List.getElem?_eq_some_iff.mp hat).1
  constructor
  · rw [h.removed.servers, getElem?_append_left hlt, hat]
  · rw [h.removed.servers, take_append_of_le_length hlt.le, htake]

/-- With nothing to choose, a default of the old list comes to a server that changes nothing: it is
not one of the backend's with a host, or it is the first of the list. -/
theorem Reconciled.inside
    (hnone : chosen env (selectedFBLinkHostName c) c₁.servers = none)
    (hd : c.defaultServerIndex = i) (hi : i < c.servers.length) (hne : c₁.servers ≠ []) :
    Stable env c₁ := by
  have ha := getElem?_eq_getElem hi
  generalize c.servers[i] = a at ha
  obtain ⟨new, hs⟩ := slot_at env obj ha
  cases hsurvivor : Slot.survivor key (a, new) with
  | none =>
    have hzero := h.removed.gone ((rememberDefault_default c).trans hd) hs hsurvivor hne
    have hfirst := getElem?_eq_getElem (length_pos_iff.mpr hne)
    refine ⟨validDefault_at hzero hfirst, fun server hsel j first hj hat _ => ?_⟩
    obtain ⟨rfl, hfb⟩ := selectedServer_eq hzero hfirst hsel
    obtain ⟨k, hk, hfound⟩ := find_of_at (find_spec hj).1 hfirst hfb (same_refl _)
    obtain rfl := Option.some.inj (hj.symm.trans hfound)
    obtain rfl := Nat.le_zero.mp hk
    rw [Option.some.inj (hat.symm.trans hfirst)]
    exact same_refl _
  | some b =>
    have hdefault := h.removed.kept ((rememberDefault_default c).trans hd) hs hsurvivor
    have hat := (h.settled_at hs hsurvivor).1
    refine ⟨validDefault_at hdefault hat, fun server hsel j first hj => ?_⟩
    obtain ⟨rfl, hfb⟩ := selectedServer_eq hdefault hat hsel
    have hkey := (rank_kept (freshServers_keyed obj) hs hsurvivor).1
    rw [key_eq_some_iff.mpr ⟨hfb, rfl⟩] at hkey
    obtain ⟨hfb', hhost⟩ := key_eq_some_iff.mp hkey.symm
    have hne := (find_spec hj).1
    rw [selectedFBLinkHostName_at (selectedServer_at hd ha hfb') (hhost.symm ▸ hne), hhost] at hnone
    exact absurd (.inl ⟨hne, same_refl _⟩) (not_sought hnone hat hfb)

theorem Reconciled.beyond
    (hne : slotsOf env obj c = [] ∨ c₁.servers ≠ [])
    (hd : c.defaultServerIndex = i) (hi : c.servers.length ≤ i) :
    Stable env c₁ ↔
      ∃ server, added[i - c.servers.length]? = some server ∧ Steady env c₁.servers server := by
  have hk := h.removed.behind hne ((rememberDefault_default c).trans hd) (length_slots.trans_le hi)
  rw [length_slots] at hk
  have hat : c₁.servers[(settled key (slotsOf env obj c)).length +
      (i - c.servers.length)]? = added[i - c.servers.length]? := by
    rw [h.removed.servers, getElem?_append_right (Nat.le_add_right _ _), Nat.add_sub_cancel_left]
  constructor
  · rintro ⟨hvalid, hsteady⟩
    have hlt : _ < c₁.servers.length := Int.ofNat_lt.mp (hk ▸ hvalid.resolve_left (by omega)).2
    rw [getElem?_eq_getElem hlt] at hat
    obtain ⟨config, -, hcomes⟩ := h.comes _ (mem_of_getElem? hat.symm)
    exact ⟨_, hat.symm, hsteady _ (selectedServer_at hk (getElem?_eq_getElem hlt) hcomes.fblink)⟩
  · rintro ⟨server, hserver, hsteady⟩
    rw [← hat] at hserver
    refine ⟨validDefault_at hk hserver, fun server' hsel => ?_⟩
    rw [(selectedServer_eq hk hserver hsel).1]
    exact hsteady

theorem Reconciled.placed_iff
    (hcontainers : ∀ config ∈ configsOf env obj, (config "containers").isSome)
    (hnone : chosen env (selectedFBLinkHostName c) c₁.servers = none) :
    Stable env c₁ ↔ DefaultPlaced env obj c := by
  unfold DefaultPlaced
  rw [← h.servers_eq hcontainers, ← h.complete hcontainers]
  by_cases hgone : c.servers ≠ [] ∧ c₁.servers = []
  · refine iff_of_true (stable_unset (h.removed.emptied ?_ hgone.2)) (.inr (.inr hgone))
    exact fun hnil => hgone.1 (eq_nil_of_length_eq_zero (by rw [← length_slots, hnil, length_nil]))
  have hne : slotsOf env obj c = [] ∨ c₁.servers ≠ [] := by
    by_cases hnil : c.servers = []
    · exact .inl (eq_nil_of_length_eq_zero (by rw [length_slots, hnil, length_nil]))
    · exact .inr fun hempty => hgone ⟨hnil, hempty⟩
  rcases lt_or_ge c.defaultServerIndex 0 with hneg | hpos
  · have hsame := h.removed.negative hne ((rememberDefault_default c).trans_lt hneg)
    rw [show Client.defaultServerIndex _ = _ from rememberDefault_default c] at hsame
    refine ⟨fun hvalid => ?_, ?_⟩
    · rcases hvalid.1 with hd | hd
      · exact .inl (hsame ▸ hd)
      · omega
    · rintro (hd | ⟨i, hd, -⟩ | hempty)
      · exact stable_unset (hsame.trans hd)
      · omega
      · exact absurd hempty hgone
  · obtain ⟨i, hd⟩ := Int.eq_ofNat_of_zero_le hpos
    by_cases hi : i < c.servers.length
    · refine iff_of_true (h.inside hnone hd hi fun hempty => hgone ⟨?_, hempty⟩)
        (.inr (.inl ⟨i, hd, .inl hi⟩))
      exact ne_nil_of_length_pos (by omega)
    · rw [h.beyond hne hd (not_lt.mp hi)]
      refine ⟨fun hserver => .inr (.inl ⟨i, hd, .inr hserver⟩), ?_⟩
      rintro (hunset | ⟨j, hd', hserver⟩ | hempty)
      · omega
      · obtain rfl : j = i := by omega
        exact hserver.resolve_left hi
      · exact absurd hempty hgone

theorem Reconciled.chosen_none
    (hno : ∀ config ∈ configsOf env obj, ¬Sought env host config) :
    chosen env host c₁.servers = none := by
  cases hchosen : chosen env host c₁.servers with
  | none => rfl
  | some i =>
    obtain ⟨server, hserver, hfb, hsought⟩ := chosen_spec hchosen
    obtain ⟨config, hconfig, hcomes⟩ := h.comesFrom (mem_of_getElem? hserver) hfb
    exact absurd ((ComesFrom.sought_iff hcomes).mp hsought) (hno config hconfig)

theorem Reconciled.sought_iff
    (hcontainers : ∀ config ∈ configsOf env obj, (config "containers").isSome) :
    (∃ config ∈ configsOf env obj, Sought env host config) ↔
      ∃ i, chosen env host c₁.servers = some i := by
  rw [← Option.isSome_iff_exists, Option.isSome_iff_ne_none]
  constructor
  · rintro ⟨config, hconfig, hsought⟩ hnone
    have hmem : fresh env (stringOf (obj "region")) config ∈ (freshServers env obj).filter
        (fun b => key b = some (hostName config)) :=
      mem_filter.mpr ⟨mem_map_of_mem hconfig, decide_eq_true (key_fresh _ config)⟩
    rw [← reconcile_keyed c.servers (freshServers_keyed obj), ← h.servers_eq hcontainers] at hmem
    obtain ⟨i, hi⟩ := mem_iff_getElem?.mp (mem_filter.mp hmem).1
    exact not_sought hnone hi (fresh_comesFrom _ config).fblink
      ((ComesFrom.sought_iff (fresh_comesFrom _ config)).mpr hsought)
  · refine fun hsome => by_contra fun hno => hsome (h.chosen_none ?_)
    exact fun config hconfig hsought => hno ⟨config, hconfig, hsought⟩

end Reconciled

theorem count_hostNames :
    ((servers.filter isFBLinkServer).map hostName).count host =
      (servers.map key).countP (· = some host) := by
  induction servers with
  | nil => rfl
  | cons s servers ih =>
    cases hs : isFBLinkServer s <;> simp [key, hs, ih, countP_cons, count_cons]

theorem foreign_eq :
    servers.filter (fun s => !isFBLinkServer s) = servers.filter (fun s => key s = none) := by
  refine filter_congr fun s _ => ?_
  rw [Bool.eq_iff_iff, Bool.not_eq_true', decide_eq_true_iff, key_eq_none_iff]

theorem countP_freshServers :
    ((freshServers env obj).countP fun b => key b = some host) =
      ((configsOf env obj).map hostName).count host := by
  unfold freshServers
  rw [countP_map, count, countP_map]
  refine countP_congr fun config _ => ?_
  simp [key_fresh]

section Sync

variable {obj : QJsonObject} {c : Client}
  (hcontainers : ∀ config ∈ configsOf env obj, (config "containers").isSome = true)
include hcontainers

theorem reconciled_again :
    (reconciled env obj (syncServers env obj c)).servers = (reconciled env obj c).servers := by
  obtain ⟨added, h⟩ := reconciled_spec env obj c
  obtain ⟨added', h'⟩ := reconciled_spec env obj (syncServers env obj c)
  have hsame := syncServers_same env obj c
  rw [h'.servers_eq hcontainers, h.servers_eq hcontainers]
  refine reconcile_again (freshServers_keyed obj) ?_ ?_
  · rw [hsame.map_key, h.servers_eq hcontainers]
  · rw [hsame.unkeyed, h.servers_eq hcontainers]

/-- A server that is chosen is at a valid index, and is chosen again. -/
theorem sync_chosen
    (hchosen : chosen env (selectedFBLinkHostName c) (reconciled env obj c).servers = some i) :
    ValidDefault (syncServers env obj c) ∧
    (syncServers env obj (syncServers env obj c)).servers = (syncServers env obj c).servers := by
  obtain ⟨added, h⟩ := reconciled_spec env obj c
  have hsame := syncServers_same env obj c
  have hlist : (reconciled env obj (syncServers env obj c)).servers = _ :=
    reconciled_again hcontainers
  obtain ⟨old, hold, -⟩ := chosen_spec hchosen
  obtain ⟨server, hserver, -⟩ := hsame.of_at hold
  refine ⟨validDefault_at (choose_default hchosen) hserver, ?_⟩
  rcases Option.or_eq_some_iff.mp hchosen with hfind | ⟨hfind, hpreferred⟩
  · exact again_found hlist hfind rfl
  · exact again_preferred h.remembered hlist hfind hpreferred rfl

end Sync

/-! Configs are read off their host name, and all offer one container. -/

def plainEnv : Env where
  qt :=
    { trimmed := id, toUpper := id, foldCase := id, toInt := fun _ => 0, fold_empty := id }
  extractConfigFromData host := some (objectOf (.obj [("hostName", .str host),
    ("containers", .arr [.obj [("container", .str "fblink-awg")]]),
    ("defaultContainer", .str "fblink-awg")]))
  qChecksum _ := 0
  allowedProtocols := []
  subscriptionPlan := "basic"

def response (hosts : List String) : QJsonObject :=
  objectOf (.obj [("configs", .arr (hosts.map .str))])

def ownServer : QJsonObject :=
  objectOf (.obj [("hostName", .str "home"), ("description", .str "Home")])

def backendServer (host : String) : QJsonObject :=
  objectOf (.obj [("hostName", .str host), ("fblink_server", .bool true)])

def clientWith (servers : List QJsonObject) (index : ℤ) : Client :=
  ⟨servers, index, index, "", none⟩

variable (env) in
/-- With containers in every config a sync keeps the servers of others and has one server of the
backend for each config. It leaves a valid default index, and done again changes nothing, just
where a config is sought or the default index is well placed. -/
theorem sync_reconciles_iff (obj : QJsonObject) (c : Client)
    (hcontainers : ∀ config ∈ configsOf env obj, (config "containers").isSome = true) :
    (syncServers env obj c).servers.filter (fun s => !isFBLinkServer s) =
      c.servers.filter (fun s => !isFBLinkServer s) ∧
    (((syncServers env obj c).servers.filter isFBLinkServer).map hostName).Perm
      ((configsOf env obj).map hostName) ∧
    (∀ s ∈ (syncServers env obj c).servers, isFBLinkServer s = true →
      ∃ config ∈ configsOf env obj, hostName config = hostName s ∧
        s "containers" = config "containers") ∧
    (ValidDefault (syncServers env obj c) ∧
      (syncServers env obj (syncServers env obj c)).servers = (syncServers env obj c).servers ↔
      (∃ config ∈ configsOf env obj, Sought env (selectedFBLinkHostName c) config) ∨
        DefaultPlaced env obj c) := by
  obtain ⟨added, h⟩ := reconciled_spec env obj c
  have hsame := syncServers_same env obj c
  have hservers := h.servers_eq hcontainers
  have hkeyed : ∀ b ∈ freshServers env obj, (key b).isSome = true := freshServers_keyed obj
  refine ⟨?_, ?_, ?_, ?_⟩
  · rw [foreign_eq, foreign_eq, hsame.unkeyed, hservers, reconcile_unkeyed _ hkeyed]
  · refine perm_iff_count.mpr fun host => ?_
    rw [count_hostNames, hsame.map_key, hservers, countP_map, ← countP_freshServers]
    simp only [countP_eq_length_filter, Function.comp_def, reconcile_keyed _ hkeyed]
  · intro s hs hfb
    obtain ⟨i, hi, rfl⟩ := getElem_of_mem hs
    obtain ⟨old, hold, hbut⟩ := hsame.at (getElem?_eq_getElem hi)
    obtain ⟨config, hconfig, hcomes⟩ := h.comesFrom (mem_of_getElem? hold)
      (hbut.isFBLinkServer_eq.symm.trans hfb)
    refine ⟨config, hconfig, ?_, ?_⟩
    · rw [hbut.hostName_eq]
      exact congrArg stringOf hcomes.hostName.symm
    · rw [hbut.other _ (by decide), hcomes.containers]
  · rw [h.sought_iff hcontainers]
    cases hchosen : chosen env (selectedFBLinkHostName c) (reconciled env obj c).servers with
    | some i => exact iff_of_true (sync_chosen hcontainers hchosen) (.inl ⟨i, rfl⟩)
    | none =>
      have hkeep : syncServers env obj c = reconciled env obj c := choose_none hchosen
      have hlist : (reconciled env obj (syncServers env obj c)).servers = _ :=
        reconciled_again hcontainers
      rw [hkeep] at hlist ⊢
      rw [syncServers_eq, again_none h.remembered hlist hchosen, ← h.placed_iff hcontainers hchosen]
      simp [Stable]

theorem sync_of_two_servers :
    ValidDefault (syncServers plainEnv (response ["nl", "de"])
      (clientWith [ownServer, backendServer "nl"] 1)) :=
  ((sync_reconciles_iff plainEnv (response ["nl", "de"])
    (clientWith [ownServer, backendServer "nl"] 1) (by
      intro config hconfig
      obtain ⟨host, -, hextract⟩ := mem_filterMap.mp hconfig
      exact Option.some.inj hextract ▸ rfl)).2.2.2.mpr
    (.inr (.inr (.inl ⟨1, rfl, .inl (by decide)⟩)))).1

/-- On a client that has stored nothing yet the default index reads 0; a response without configs
leaves it there, in an empty list. -/
theorem empty_sync_of_fresh_client :
    (∀ config ∈ configsOf plainEnv (response []), (config "containers").isSome = true) ∧
    ¬ValidDefault (syncServers plainEnv (response []) (clientWith [] 0)) := by
  refine ⟨nofun, ?_⟩
  rintro (hunset | ⟨-, hlt⟩)
  · exact absurd hunset (by decide +kernel)
  · exact absurd hlt (by decide +kernel)

/-- The server at `i` of the old list is the one at `j` of the new list: both have the same host,
or none, and the same number of such servers stands before them. -/
def SameServer (old : List QJsonObject) (i : ℕ) (new : List QJsonObject) (j : ℕ) : Prop :=
  ∃ k, (old.map key)[i]? = some k ∧ (new.map key)[j]? = some k ∧
    ((new.map key).take j).countP (· = k) = ((old.map key).take i).countP (· = k)

theorem countP_take_lt {α : Type} {l : List α} {p : α → Bool} {a} (ha : l[i]? = some a)
    (hp : p a) : (l.take i).countP p < l.countP p := by
  obtain ⟨hi, rfl⟩ := List.getElem?_eq_some_iff.mp ha
  conv_rhs => rw [← take_append_drop i l, drop_eq_getElem_cons hi, countP_append,
    countP_cons_of_pos hp]
  omega

theorem SameServer.unique {old new j j'} (h : SameServer old i new j)
    (h' : SameServer old i new j') : j = j' := by
  have hlt : ∀ {j j'}, SameServer old i new j → SameServer old i new j' → ¬j < j' := by
    rintro j j' ⟨k, hk, hj, hcount⟩ ⟨k', hk', -, hcount'⟩ hlt
    obtain rfl := Option.some.inj (hk.symm.trans hk')
    have hless := countP_take_lt (l := (new.map key).take j') (p := (· = k))
      (by rw [getElem?_take_of_lt hlt]; exact hj) (decide_eq_true rfl)
    rw [take_take, Nat.min_eq_left hlt.le] at hless
    exact absurd (hcount.trans hcount'.symm) (Nat.ne_of_lt hless)
  exact Nat.le_antisymm (not_lt.mp (hlt h' h)) (not_lt.mp (hlt h h'))

section Selected

variable {obj : QJsonObject} {c : Client} {i : ℕ} {server : QJsonObject}

end Selected

end SyncOutcome

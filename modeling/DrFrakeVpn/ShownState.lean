import DrFrakeVpn.ConnectionRuns

/-! # The state that is shown

What the connection object will show once the queue is empty is the state of the last pending
signal, so this is the state that has to agree with the protocol at any time. -/
namespace ShownState

open SharedPrograms EventLoops DesktopConnection ConnectionRuns

def signal? : Posted → Option (ℕ × ConnectionState)
  | .signal i st => some (i, st)
  | _ => none

def signals (queue : List Posted) : List (ℕ × ConnectionState) := queue.filterMap signal?

/-- The state once all pending signals are handled. -/
def shown (s : Desktop) : ConnectionState :=
  ((signals s.queue).getLast?.map Prod.snd).getD s.state

def Clear (s : Desktop) : Prop := ∀ i, (i, ConnectionState.connected) ∉ signals s.queue

instance (s : Desktop) : Decidable (Clear s) :=
  decidable_of_iff ((signals s.queue).all fun x => x.2 ≠ .connected) (by
    constructor
    · intro h i hi
      simpa using List.all_eq_true.mp h _ hi
    · intro h
      refine List.all_eq_true.mpr fun x hx => ?_
      have hne : x.2 ≠ .connected := by
        intro hx2
        exact h x.1 (hx2 ▸ hx)
      simpa using hne)

def view (s : Desktop) : Option (Bool × ConnectionState) :=
  s.currentObject.map fun p => (p.attached, p.state)

def Live (s : Desktop) : Prop := view s = some (true, .connected)

def Loose (s : Desktop) : Prop := ∀ st, view s ≠ some (true, st)

def Honest (s : Desktop) : Prop := shown s = .connected → Live s

def Bound (s : Desktop) : Prop := ∀ i, s.shutdownConn = some i → s.current = some i

/-- The object that is held has been given up. -/
def Adrift (s : Desktop) : Prop := Loose s ∧ Clear s ∧ s.shutdownConn = none

/-- The signals of an object are given up, and the object is, only while no Connected is
pending, and none but the object that is held says that it is connected. -/
def Timely : Act Call → Desktop → Prop
  | .detach _, s => Clear s
  | .drop _, s => Clear s
  | .emit i .connected, s => s.current = some i ∨ (s.object? i).all (!·.attached) = true
  | _, _ => True

instance : ∀ (l : Act Call) (s : Desktop), Decidable (Timely l s)
  | .detach _, s => inferInstanceAs (Decidable (Clear s))
  | .drop _, s => inferInstanceAs (Decidable (Clear s))
  | .emit _ .connected, _ => inferInstanceAs (Decidable (_ ∨ _))
  | .emit _ .unknown, _ => .isTrue trivial
  | .emit _ .disconnected, _ => .isTrue trivial
  | .emit _ .preparing, _ => .isTrue trivial
  | .emit _ .connecting, _ => .isTrue trivial
  | .emit _ .disconnecting, _ => .isTrue trivial
  | .emit _ .reconnecting, _ => .isTrue trivial
  | .emit _ .error, _ => .isTrue trivial
  | .handle, _ => .isTrue trivial
  | .dead _, _ => .isTrue trivial
  | .started, _ => .isTrue trivial
  | .inner _, _ => .isTrue trivial

def OneByOne (m : DesktopMove) (c : DesktopLoop) : Prop :=
  match m with
  | .dispatch (.connection _) => c.stack.isEmpty = true
  | _ => True

/-- Moreover, each action is timely. -/
def InTurn (m : DesktopMove) (c : DesktopLoop) : Prop :=
  match m, c.stack with
  | .work, .act l _ _ :: _ => Timely l c.state
  | m, _ => OneByOne m c

instance : ∀ (m : DesktopMove) (c : DesktopLoop), Decidable (OneByOne m c)
  | .dispatch (.connection _), _ => inferInstanceAs (Decidable (_ = true))
  | .dispatch (.emits _ _), _ => .isTrue trivial
  | .dispatch (.stops _), _ => .isTrue trivial
  | .work, _ => .isTrue trivial
  | .finish, _ => .isTrue trivial
  | .arrive _, _ => .isTrue trivial

instance : ∀ (m : DesktopMove) (c : DesktopLoop), Decidable (InTurn m c)
  | .work, ⟨.act l _ _ :: _, s⟩ => inferInstanceAs (Decidable (Timely l s))
  | .work, ⟨.done _ :: _, _⟩ => .isTrue trivial
  | .work, ⟨[], _⟩ => .isTrue trivial
  | .dispatch e, ⟨[], s⟩ => inferInstanceAs (Decidable (OneByOne (.dispatch e) ⟨[], s⟩))
  | .dispatch e, ⟨p :: below, s⟩ =>
    inferInstanceAs (Decidable (OneByOne (.dispatch e) ⟨p :: below, s⟩))
  | .finish, ⟨[], _⟩ => .isTrue trivial
  | .finish, ⟨_ :: _, _⟩ => .isTrue trivial
  | .arrive _, ⟨[], _⟩ => .isTrue trivial
  | .arrive _, ⟨_ :: _, _⟩ => .isTrue trivial

structure Sound (s : Desktop) : Prop where
  loose : s.shutdownConn ≠ none → Loose s
  fresh : ∀ p ∈ s.objects, p.id < s.nextId
  held : ∀ i, s.current = some i → i < s.nextId
  switching : s.switchWatchdog = true → s.userRequestedDisconnect = false ∧ s.last.isSome = true

structure Later (s s' : Desktop) : Prop where
  state : s'.state = s.state
  asked : s'.userRequestedDisconnect = s.userRequestedDisconnect
  last : s'.last = s.last
  current : s'.current = s.current ∨ s'.current = none
  conn : s'.shutdownConn = s.shutdownConn ∨ s'.shutdownConn = none
  honest : Honest s → Honest s'
  bound : Bound s → Bound s'
  adrift : Adrift s → Adrift s'

def Rely (waiting : Bool) (s s' : Desktop) : Prop :=
  (waiting = false → Arrived s s' ∧ signals s'.queue = signals s.queue) ∧ Later s s'

theorem Later.refl (s : Desktop) : Later s s := ⟨rfl, rfl, rfl, .inl rfl, .inl rfl, id, id, id⟩

theorem kept_or_none {α : Type} {a b c : Option α} (h : b = a ∨ b = none) (h' : c = b ∨ c = none) :
    c = a ∨ c = none := by
  rcases h' with rfl | rfl
  · exact h
  · exact .inr rfl

variable {s : Desktop}

theorem Later.trans (h : Later s t) (h' : Later t u) : Later s u where
  state := h'.state.trans h.state
  asked := h'.asked.trans h.asked
  last := h'.last.trans h.last
  current := kept_or_none h.current h'.current
  conn := kept_or_none h.conn h'.conn
  honest hs := h'.honest (h.honest hs)
  bound hs := h'.bound (h.bound hs)
  adrift hs := h'.adrift (h.adrift hs)

theorem rely_trans (h : Rely b s t) (h' : Rely b t u) : Rely b s u := by
  refine ⟨fun hb => ?_, h.2.trans h'.2⟩
  obtain ⟨harrived, hsignals⟩ := h.1 hb
  obtain ⟨harrived', hsignals'⟩ := h'.1 hb
  exact ⟨harrived.trans harrived', hsignals'.trans hsignals⟩

variable {i : ℕ} {p : Protocol}

theorem object?_id (h : s.object? i = some p) : p.id = i := by
  simpa using List.find?_some h

variable {f : Protocol → Protocol}

theorem object?_update (s : Desktop) (i j : ℕ) (hf : ∀ p, (f p).id = p.id) :
    (s.updateObject i f).object? j = (s.object? j).map fun p => if p.id = i then f p else p := by
  unfold World.object? World.updateObject
  rw [List.find?_map]
  congr 2
  funext p
  by_cases hp : p.id = i
  · simp [hp, hf]
  · simp [hp]

theorem object?_without (h : j ≠ i) : (s.without i).object? j = s.object? j := by
  unfold World.object? World.without
  rw [List.find?_filter]
  congr 1
  funext p
  by_cases hp : p.id = j
  · simp [hp, h]
  · simp [hp]

theorem signals_append :
    signals (queue ++ more) = signals queue ++ signals more := List.filterMap_append

variable {s' : Desktop}

theorem shown_of_signals (hstate : s'.state = s.state)
    (hsignals : signals s'.queue = signals s.queue) : shown s' = shown s := by
  unfold shown
  rw [hstate, hsignals]

variable {queue : List Posted} {st : ConnectionState}

theorem shown_signal (h : s.queue = queue ++ [.signal i st]) : shown s = st := by
  unfold shown
  rw [h, signals_append]
  simp [signals, signal?]

theorem state_of_clear (h : Clear s) (hshown : shown s = .connected) : s.state = .connected := by
  unfold shown at hshown
  cases hlast : (signals s.queue).getLast? with
  | none =>
    rw [hlast] at hshown
    exact hshown
  | some x =>
    rw [hlast] at hshown
    have hx : x = (x.1, ConnectionState.connected) := by
      rw [← show x.2 = _ from hshown]
    exact absurd (hx ▸ List.mem_of_getLast? hlast) (h x.1)

theorem view_congr (hcurrent : s'.current = s.current) (hobjects : s'.objects = s.objects) :
    view s' = view s := by
  unfold view World.currentObject World.object?
  rw [hcurrent, hobjects]

theorem view_of_object (hcurrent : s'.current = s.current)
    (h : ∀ i, s.current = some i → s'.object? i = s.object? i) : view s' = view s := by
  unfold view World.currentObject
  rw [hcurrent]
  cases hi : s.current with
  | none => rfl
  | some i => exact congrArg (Option.map _) (h i hi)

theorem view_none (h : s.current = none) : view s = none := by
  unfold view World.currentObject
  rw [h]
  rfl

theorem view_some (h : s.current = some i) :
    view s = (s.object? i).map fun p => (p.attached, p.state) := by
  unfold view World.currentObject
  rw [h]
  rfl

theorem view_update (s : Desktop) (i : ℕ) (hid : ∀ p, (f p).id = p.id)
    (hf : ∀ p, ((f p).attached, (f p).state) = (p.attached, p.state)) :
    view (s.updateObject i f) = view s := by
  cases hcurrent : s.current with
  | none => rw [view_none hcurrent, view_none (s := s.updateObject i f) hcurrent]
  | some j =>
    rw [view_some hcurrent, view_some (s := s.updateObject i f) hcurrent, object?_update s i j hid,
      Option.map_map]
    congr 1
    funext p
    by_cases hp : p.id = i
    · simpa [hp] using hf p
    · simp [hp]

theorem view_without (h : s.current ≠ some i) : view (s.without i) = view s := by
  refine view_of_object rfl fun j hj => object?_without ?_
  rintro rfl
  exact h hj

theorem Loose.none (h : s.current = none) : Loose s := by
  intro st
  rw [view_none h]
  exact nofun

theorem Loose.not_live (h : Loose s) : ¬Live s := h .connected

theorem honest_of_view (hview : view s' = view s) (hstate : s'.state = s.state)
    (hsignals : signals s'.queue = signals s.queue) (h : Honest s) : Honest s' := by
  intro hshown
  rw [shown_of_signals hstate hsignals] at hshown
  exact hview.trans (h hshown)

theorem loose_of_view (hview : view s' = view s) (h : Loose s) : Loose s' :=
  fun st => hview ▸ h st

theorem later_of_view (hview : view s' = view s) (hstate : s'.state = s.state)
    (hasked : s'.userRequestedDisconnect = s.userRequestedDisconnect) (hlast : s'.last = s.last)
    (hcurrent : s'.current = s.current)
    (hconn : s'.shutdownConn = s.shutdownConn ∨ s'.shutdownConn = none)
    (hsignals : signals s'.queue = signals s.queue) : Later s s' where
  state := hstate
  asked := hasked
  last := hlast
  current := .inl hcurrent
  conn := hconn
  honest := honest_of_view hview hstate hsignals
  bound h i hi := by
    rcases hconn with hsame | hnone
    · exact hcurrent.trans (h i (hsame.symm.trans hi))
    · rw [hnone] at hi
      cases hi
  adrift h := by
    refine ⟨loose_of_view hview h.1, fun i hi => ?_, ?_⟩
    · rw [hsignals] at hi
      exact h.2.1 i hi
    · rcases hconn with hsame | hnone
      · exact hsame.trans h.2.2
      · exact hnone

theorem later_arrived (h : Arrived s s') (hsignals : signals s'.queue = signals s.queue) :
    Later s s' := by
  obtain ⟨more, _, _, _, _, rfl⟩ := h
  exact later_of_view rfl rfl rfl rfl rfl (.inl rfl) hsignals

theorem rely_of_arrived (h : Arrived s s') (hsignals : signals s'.queue = signals s.queue) :
    Rely b s s' :=
  ⟨fun _ => ⟨h, hsignals⟩, later_arrived h hsignals⟩

def Tame (_ : Act Call) (s s' : Desktop) : Prop := Sound s → Sound s' ∧ Later s s'

variable (l : Act Call)

theorem tame_refl (s : Desktop) : Tame l s s := fun h => ⟨h, .refl s⟩

theorem fresh_update (i : ℕ) (hid : ∀ p, (f p).id = p.id) (h : ∀ p ∈ s.objects, p.id < s.nextId) :
    ∀ p ∈ (s.updateObject i f).objects, p.id < s.nextId := by
  intro p hp
  obtain ⟨q, hq, rfl⟩ := List.mem_map.mp hp
  by_cases hi : q.id = i
  · rw [if_pos hi, hid]
    exact h q hq
  · rw [if_neg hi]
    exact h q hq

theorem tame_update (s : Desktop) (i : ℕ) (hid : ∀ p, (f p).id = p.id)
    (hf : ∀ p, ((f p).attached, (f p).state) = (p.attached, p.state)) :
    Tame l s (s.updateObject i f) := by
  intro h
  have hview := view_update s i hid hf
  refine ⟨{ h with loose := fun hconn => ?_, fresh := fresh_update i hid h.fresh }, ?_⟩
  · exact loose_of_view hview (h.loose hconn)
  · exact later_of_view hview rfl rfl rfl rfl (.inl rfl) rfl

theorem does_stop_tame (i : ℕ) : (anyProtocol.stop i).Does Tame := by
  refine Prog.Does.bind (Prog.does_atom fun s => ?_) fun _ => Prog.does_atom fun s => ?_
  · exact tame_update _ s i (fun _ => rfl) fun _ => rfl
  · exact tame_update _ s i (fun _ => rfl) fun _ => rfl

theorem does_start_tame (i : ℕ) : (anyProtocol.start i).Does Tame := by
  refine Prog.Does.bind (Prog.does_atom fun s => ?_) fun _ => Prog.does_atom fun s => ?_
  · exact tame_update _ s i (fun _ => rfl) fun _ => rfl
  · exact tame_refl _ s

theorem without_tame (h : s.current ≠ some i) : Tame l s (s.without i) := by
  intro hs
  have hview := view_without h
  have hconn : (s.without i).shutdownConn = s.shutdownConn ∨
      (s.without i).shutdownConn = none := by
    unfold World.without
    split
    · exact .inr rfl
    · exact .inl rfl
  refine ⟨{ hs with loose := fun hne => ?_, fresh := fun p hp => ?_ }, ?_⟩
  · refine loose_of_view hview (hs.loose fun hnone => hne ?_)
    rcases hconn with hsame | hnone'
    · exact hsame.trans hnone
    · exact hnone'
  · exact hs.fresh p (List.mem_filter.mp hp).1
  · exact later_of_view hview rfl rfl rfl rfl hconn rfl

abbrev Emits {β : Type} (Q : β → Desktop → Prop) (p : Client Bool Call β) (s : Desktop) : Prop :=
  Serves desktop.waits Rely (fun l t => Sound t ∧ Timely l t) (fun s _ s' => Sound s' ∧ Later s s')
    Q p s

variable {I : Desktop → Prop}

theorem emits_of_tame {β : Type} (hI : ∀ s s', Later s s' → I s → I s') {p : Client Bool Call β}
    (h : p.Does Tame) (hs : I s) : Emits (fun _ => I) p s := by
  refine serves_of_does (fun l s s' hperm htame hi => ?_) (fun _ s s' hrely => hI s s' hrely.2) h hs
  obtain ⟨hsound, hlater⟩ := htame hperm.1
  exact ⟨⟨hsound, hlater⟩, hI s s' hlater hi⟩

theorem destroy_emits (hI : ∀ s s', Later s s' → I s → I s') (hs : I s) (hi : s.current ≠ some i) :
    Emits (fun _ t => I t ∧ t.shutdownConn ≠ some i) (destroy anyProtocol i) s := by
  have hstable : ∀ s s', Later s s' → I s ∧ s.current ≠ some i → I s' ∧ s'.current ≠ some i := by
    intro s s' hlater ⟨hs, hne⟩
    refine ⟨hI s s' hlater hs, ?_⟩
    rcases hlater.current with hsame | hnone
    · rw [hsame]
      exact hne
    · rw [hnone]
      exact nofun
  refine Serves.bind (emits_of_tame hstable (does_step fun s => tame_refl _ s) ⟨hs, hi⟩)
    fun stopped t ht => ?_
  refine Serves.bind (Q := fun _ u => I u ∧ u.current ≠ some i) ?_ fun _ u hu => ?_
  · cases stopped with
    | true => exact ht
    | false => exact emits_of_tame hstable (does_stop_tame i) ht
  · intro v hv hperm
    obtain ⟨hv, hne⟩ := hstable u v hv.2 hu
    obtain ⟨hsound, hlater⟩ := without_tame (.dead i) hne hperm.1
    refine ⟨⟨hsound, hlater⟩, hI v _ hlater hv, ?_⟩
    show (if v.shutdownConn = some i then none else v.shutdownConn) ≠ some i
    split
    · exact nofun
    · assumption

variable (hp : s.object? i = some p)
include hp

theorem view_updated (f : Protocol → Protocol) (hid : ∀ p, (f p).id = p.id) :
    view (s.updateObject i f) =
      if s.current = some i then some ((f p).attached, (f p).state) else view s := by
  by_cases hcurrent : s.current = some i
  · rw [if_pos hcurrent, view_some (s := s.updateObject i f) hcurrent, object?_update s i i hid, hp]
    simp [object?_id hp]
  · rw [if_neg hcurrent]
    cases hother : s.current with
    | none => rw [view_none hother, view_none (s := s.updateObject i f) hother]
    | some j =>
      rw [view_some hother, view_some (s := s.updateObject i f) hother, object?_update s i j hid]
      cases hj : s.object? j with
      | none => rfl
      | some q =>
        have hne : q.id ≠ i := by
          rw [object?_id hj]
          rintro rfl
          exact hcurrent hother
        simp [hne]

theorem view_changed (st : ConnectionState) :
    view (s.updateObject i fun p => { p with state := st }) =
      if s.current = some i then some (p.attached, st) else view s :=
  view_updated hp _ fun _ => rfl

theorem loose_changed (st : ConnectionState) (h : Loose s) :
    Loose (s.updateObject i fun p => { p with state := st }) := by
  intro st'
  rw [view_changed hp]
  split
  · rename_i hcurrent
    have hview := h p.state
    rw [view_some hcurrent, hp] at hview
    intro heq
    obtain ⟨hattached, -⟩ := Prod.mk.inj (Option.some.inj heq)
    exact hview (by simp [hattached])
  · exact h st'

theorem sound_changed (st : ConnectionState) (h : Sound s) :
    Sound (s.updateObject i fun p => { p with state := st }) :=
  { h with
    loose := fun hconn => loose_changed hp st (h.loose hconn)
    fresh := fresh_update i (fun _ => rfl) h.fresh }

theorem later_silent (st : ConnectionState) (hattached : p.attached = false) :
    Later s (s.updateObject i fun p => { p with state := st }) := by
  refine ⟨rfl, rfl, rfl, .inl rfl, .inl rfl, fun h hshown => ?_, id, fun h => ?_⟩
  · have hlive : Live s := h hshown
    have hcurrent : s.current ≠ some i := by
      intro hcurrent
      unfold Live at hlive
      rw [view_some hcurrent, hp] at hlive
      rw [(Prod.mk.inj (Option.some.inj hlive)).1] at hattached
      cases hattached
    show view _ = _
    rw [view_changed hp, if_neg hcurrent]
    exact hlive
  · exact ⟨loose_changed hp st h.1, h.2⟩

theorem later_signal (st : ConnectionState) (hattached : p.attached)
    (h : Timely (.emit i st) s) :
    Later s ((s.updateObject i fun p => { p with state := st }).post (.signal i st)) := by
  have hheld : st = .connected → s.current = some i := by
    rintro rfl
    rcases h with hcurrent | hall
    · exact hcurrent
    · rw [hp] at hall
      simp [hattached] at hall
  refine ⟨rfl, rfl, rfl, .inl rfl, .inl rfl, fun _ hshown => ?_, id, fun hadrift => ?_⟩
  · have hst : st = .connected := (shown_signal rfl).symm.trans hshown
    have hcurrent := hheld hst
    show view (s.updateObject i fun p => { p with state := st }) = _
    rw [view_changed hp, if_pos hcurrent, hattached, hst]
  · refine ⟨loose_changed hp st hadrift.1, fun j hj => ?_, hadrift.2.2⟩
    rw [World.post, signals_append] at hj
    rcases List.mem_append.mp hj with hj | hj
    · exact hadrift.2.1 j hj
    · have heq : j = i ∧ .connected = st := by simpa [signals, signal?] using hj
      have hview := hadrift.1 p.state
      rw [view_some (hheld heq.2.symm), hp] at hview
      simp [hattached] at hview

omit hp

theorem sound_post (h : Sound s) : Sound (s.post call) := { h with }

theorem later_post (s : Desktop) {call} (h : signal? call = none) : Later s (s.post call) := by
  refine later_of_view rfl rfl rfl rfl rfl (.inl rfl) ?_
  rw [World.post, signals_append]
  simp [signals, h]

theorem drop_loose (h : Sound s) (hloose : Loose s) (hconn : s.shutdownConn = none) :
    Sound { s with current := none } ∧ Later s { s with current := none } := by
  have hnone : Loose { s with current := none } := Loose.none rfl
  refine ⟨{ h with loose := fun _ => hnone, held := nofun }, ?_⟩
  refine ⟨rfl, rfl, rfl, .inr rfl, .inl rfl, fun hs hshown => ?_, fun _ i hi => ?_, fun hs => ?_⟩
  · exact absurd (hs hshown) hloose.not_live
  · rw [show s.shutdownConn = some i from hi] at hconn
    cases hconn
  · exact ⟨hnone, hs.2⟩

theorem ended_emits (hs : Later s₀ s) (hloose : Loose s) (hconn : s.shutdownConn = none) :
    Emits (fun _ t => Later s₀ t)
      (dropProtocol anyProtocol >>= fun _ => change fun s => s.post .startNewConnection) s := by
  refine Serves.bind (Q := fun _ t => Later s₀ t) ?_ fun _ t ht => ?_
  · intro t ht hperm
    obtain ⟨more, _, _, _, _, harrived⟩ := (ht.1 rfl).1
    have hview : view t = view s := by rw [harrived]; rfl
    have hconn' : t.shutdownConn = none := by rw [harrived]; exact hconn
    obtain ⟨hsound, hlater⟩ := drop_loose hperm.1 (loose_of_view hview hloose) hconn'
    refine ⟨⟨hsound, hlater⟩, ?_⟩
    have hstart : Later s₀ { t with current := none } := (hs.trans ht.2).trans hlater
    dsimp only
    cases t.current with
    | none => exact hstart
    | some i =>
      refine (destroy_emits (fun _ _ h h' => h'.trans h) hstart nofun).mono
        (fun _ _ _ _ h => h) fun _ _ h => h.1
  · intro u hu hperm
    have hlater : Later u (u.post .startNewConnection) := later_post u rfl
    exact ⟨⟨sound_post hperm.1, hlater⟩, (ht.trans hu.2).trans hlater⟩

theorem setProtocolState_emits (i : ℕ) (st : ConnectionState) (s : Desktop) :
    Emits (fun _ t => Later s t) (setProtocolState anyProtocol i st) s := by
  intro t ht hperm
  obtain ⟨hsound, htimely⟩ := hperm
  have hst := ht.2
  dsimp only
  split
  · exact ⟨⟨hsound, .refl t⟩, hst⟩
  · rename_i p hp
    split
    · exact ⟨⟨hsound, .refl t⟩, hst⟩
    -- the object takes the state, and says so if anyone listens
    obtain ⟨next, hnext, hsound', hlater, hloose⟩ : ∃ next : Desktop,
        (if p.attached then
          (t.updateObject i fun p => { p with state := st }).post (.signal i st)
          else t.updateObject i fun p => { p with state := st }) = next ∧
        Sound next ∧ Later t next ∧ (Loose t → Loose next) := by
      refine ⟨_, rfl, ?_⟩
      have hchanged := sound_changed hp st hsound
      have hloose := loose_changed hp st
      split
      · rename_i hattached
        exact ⟨sound_post hchanged, later_signal hp st hattached htimely, hloose⟩
      · rename_i hattached
        exact ⟨hchanged, later_silent hp st (Bool.eq_false_iff.mpr hattached), hloose⟩
    rw [hnext]
    split
    · rename_i hended
      have hends : Later next { next with shutdownConn := none, switchWatchdog := false } :=
        later_of_view rfl rfl rfl rfl rfl (.inr rfl) rfl
      refine ⟨⟨{ hsound' with loose := fun h => absurd rfl h, switching := nofun },
        hlater.trans hends⟩, ?_⟩
      refine ended_emits ((hst.trans hlater).trans hends) ?_ rfl
      refine loose_of_view rfl (hloose (hsound.loose ?_))
      rw [hended.1]
      exact nofun
    · exact ⟨⟨hsound', hlater⟩, hst.trans hlater⟩

def Rest (s : Desktop) : Prop := Honest s ∧ Bound s

def Down (s : Desktop) : Prop := s.state ≠ .connected ∧ Rest s

theorem rest_later (s s' : Desktop) (h : Later s s') (hs : Rest s) : Rest s' :=
  ⟨h.honest hs.1, h.bound hs.2⟩

theorem down_later (s s' : Desktop) (h : Later s s') (hs : Down s) : Down s' :=
  ⟨h.state ▸ hs.1, rest_later s s' h hs.2⟩

theorem setConnectionState_asked (st : ConnectionState) (h : s.userRequestedDisconnect = false) :
    (s.setConnectionState st).userRequestedDisconnect = false := by
  unfold World.setConnectionState
  split
  · exact h
  unfold World.afterChange
  split
  · rfl
  split
  · have hfailed := (World.registerFailure_failed
      ({ s with state := st }.armStateWatchdog st)).userRequestedDisconnect
    dsimp only
    split
    · exact hfailed.trans h
    · exact (World.scheduleRecoveryReconnect_state _).2.trans (hfailed.trans h)
  · split
    · rfl
    · exact h

theorem sound_set (h : Sound s) (st : ConnectionState) : Sound (s.setConnectionState st) := by
  have hview : view (s.setConnectionState st) = view s := view_congr (by simp) (by simp)
  refine ⟨fun hconn => ?_, ?_, ?_, fun hswitch => ?_⟩
  · rw [World.setConnectionState_shutdownConn] at hconn
    exact loose_of_view hview (h.loose hconn)
  · simpa using h.fresh
  · simpa using h.held
  · rw [World.setConnectionState_switchWatchdog] at hswitch
    obtain ⟨hasked, hlast⟩ := h.switching hswitch
    exact ⟨setConnectionState_asked st hasked, by simpa using hlast⟩

theorem sound_signal (h : Sound s) (st : ConnectionState) : Sound (s.onSignal st) := by
  rcases World.onSignal_cases s st with heq | ⟨-, -, heq⟩ <;> rw [heq]
  · exact sound_set h st
  · exact { h with }

theorem down_set (h : Rest s) (st : ConnectionState) (hst : st ≠ .connected) :
    Down (s.setConnectionState st) := by
  have hview : view (s.setConnectionState st) = view s := view_congr (by simp) (by simp)
  have hstate : (s.setConnectionState st).state ≠ .connected := by
    rw [World.setConnectionState_state]
    split
    · exact nofun
    · exact hst
  refine ⟨hstate, fun hshown => ?_, ?_⟩
  · refine hview.trans (h.1 ?_)
    unfold shown at hshown ⊢
    rw [World.setConnectionState_queue] at hshown
    cases hlast : (signals s.queue).getLast? with
    | none =>
      rw [hlast] at hshown
      exact absurd hshown hstate
    | some x =>
      rw [hlast] at hshown
      exact hshown
  · intro i hi
    rw [World.setConnectionState_shutdownConn] at hi
    rw [World.setConnectionState_current]
    exact h.2 i hi

theorem rest_taken {t} (hqueue : s.queue = .signal i st :: t.queue)
    (hview : view t = view s) (hstate : t.state = .connected → st = .connected)
    (hbound : Bound t) (h : Rest s) : Rest t := by
  refine ⟨fun hshown => hview.trans (h.1 ?_), hbound⟩
  unfold shown at hshown ⊢
  rw [hqueue, show signals (.signal i st :: t.queue) = (i, st) :: signals t.queue from rfl,
    List.getLast?_cons]
  cases hlast : (signals t.queue).getLast? with
  | none =>
    rw [hlast] at hshown
    exact hstate hshown
  | some x =>
    rw [hlast] at hshown
    exact hshown

/-- The slot that crashes leaves a state that is not Connected. -/
theorem rest_signal (hqueue : s.queue = .signal i st :: queue) (h : Rest s) :
    Rest ({ s with queue := queue }.onSignal st) := by
  rcases World.onSignal_cases { s with queue := queue } st with heq | ⟨-, hstate, heq⟩ <;> rw [heq]
  · refine rest_taken (by simpa using hqueue) (view_congr (by simp) (by simp)) ?_ ?_ h
    · rw [World.setConnectionState_state]
      split
      · exact nofun
      · exact id
    · intro j hj
      rw [World.setConnectionState_shutdownConn] at hj
      rw [World.setConnectionState_current]
      exact h.2 j hj
  · exact rest_taken hqueue rfl (fun hconnected => absurd hconnected hstate) h.2 h

theorem later_call (hqueue : s.queue = call :: queue) (hcall : signal? call = none) :
    Later s { s with queue := queue } := by
  refine later_of_view rfl rfl rfl rfl rfl (.inl rfl) ?_
  rw [hqueue]
  simp [signals, hcall]

theorem loose_detached (h : s.current = some i) : Loose (s.detached i) := by
  intro st
  have hview : view (s.detached i) =
      view (s.updateObject i fun p => { p with attached := false }) :=
    rfl
  rw [hview]
  cases hp : s.object? i with
  | none =>
    rw [view_some (s := s.updateObject i _) h, object?_update s i i (f := fun p =>
      { p with attached := false }) fun _ => rfl, hp]
    exact nofun
  | some p =>
    rw [view_updated hp (fun p => { p with attached := false }) fun _ => rfl, if_pos h]
    exact nofun

theorem conn_of_bound (h : Bound s) : s.shutdownConn = none ∨ s.shutdownConn = s.current := by
  cases hconn : s.shutdownConn with
  | none => exact .inl rfl
  | some i => exact .inr (h i hconn).symm

theorem conn_detached (hcurrent : s.current = some i) (h : Bound s) :
    (s.detached i).shutdownConn = none := by
  show (if s.shutdownConn = some i then none else s.shutdownConn) = none
  split
  · rfl
  · rename_i hne
    exact (conn_of_bound h).resolve_right fun heq => hne (heq.trans hcurrent)

theorem sound_detached (hcurrent : s.current = some i) (h : Sound s) : Sound (s.detached i) :=
  { h with
    loose := fun _ => loose_detached hcurrent
    fresh := fresh_update i (fun _ => rfl) h.fresh }

theorem down_of_clear (hstate : s.state ≠ .connected) (hclear : Clear s)
    (hconn : s.shutdownConn = none) : Down s := by
  refine ⟨hstate, fun hshown => absurd (state_of_clear hclear hshown) hstate, fun i hi => ?_⟩
  rw [hconn] at hi
  cases hi

end ShownState

import DrFrakeVpn.AccountWorld

/-! # The incidents on the admin page

The page merges every push of the open notifications into its list, by id, and takes nothing
away. -/
namespace AdminIncidents

open List

open AccountWorld (AdminNotificationSeverity AdminNotificationStatus)

structure Notification where
  id : ℕ
  severity : AdminNotificationSeverity
  status : AdminNotificationStatus
  lastSeenAt : String
  acknowledgedAt : Option String
  mutedUntil : Option String
  createdAt : String
  deriving DecidableEq, Repr

def Distinct (ns : List Notification) : Prop := (ns.map Notification.id).Nodup

/-- What `AdminEvents` sends. -/
structure Snapshot where
  rows : List Notification
  few : rows.length ≤ 20
  opened : ∀ n ∈ rows, n.status = .opened
  distinct : Distinct rows

variable (parse : String → Option ℤ)

/-- `Date.parse`, where `none` is `NaN`; an absent text stands for the number 0. -/
def mutedUntil (n : Notification) : Option ℤ :=
  match n.mutedUntil with
  | some text => if text = "" then some 0 else parse text
  | none => some 0

def unmuted (now : ℤ) (n : Notification) : Bool :=
  (mutedUntil parse n).all fun t => t = 0 || t ≤ now

def unacknowledged (n : Notification) : Bool := n.acknowledgedAt.all fun text => text = ""

def hasUnacknowledgedCriticalIncident (now : ℤ) (notifications : List Notification) : Bool :=
  notifications.any fun n =>
    n.severity = .critical && n.status = .opened && unacknowledged n && unmuted parse now n

/-- `byID.set(notification.id, notification)`, on the values of the map. -/
def setByID (byID : List Notification) (n : Notification) : List Notification :=
  if byID.any fun m => m.id = n.id then byID.map fun m => if m.id = n.id then n else m
  else byID ++ [n]

def shownTime (n : Notification) : Option ℤ :=
  parse (if n.createdAt = "" then n.lastSeenAt else n.createdAt)

-- `sort` has an order of its own where a comparison is `NaN`
variable (sort : (Notification → Notification → Option ℤ) → List Notification → List Notification)

def mergeNotificationEvent (current incoming : List Notification) : List Notification :=
  sort (fun a b => do pure ((← shownTime parse b) - (← shownTime parse a)))
    (incoming.foldl setByID (current.foldl setByID []))

/-- What the page shows after the pushes. -/
def shown (snapshots : List Snapshot) : List Notification :=
  snapshots.foldl (fun current s => mergeNotificationEvent parse sort current s.rows) []

variable {byID ns : List Notification}

theorem mem_setByID {x n : Notification} :
    x ∈ setByID byID n ↔ x = n ∨ x ∈ byID ∧ x.id ≠ n.id := by
  unfold setByID
  split
  · next h =>
    obtain ⟨m, hm, hid⟩ := any_eq_true.mp h
    grind
  · grind

theorem distinct_setByID (h : Distinct byID) (n : Notification) : Distinct (setByID byID n) := by
  unfold setByID
  split
  · have hids : (byID.map fun m => if m.id = n.id then n else m).map Notification.id =
        byID.map Notification.id := by
      rw [map_map]
      refine map_congr_left ?_
      grind
    rwa [Distinct, hids]
  · grind [Distinct, nodup_append]

theorem distinct_foldl (h : Distinct byID) (ns : List Notification) :
    Distinct (ns.foldl setByID byID) :=
  foldlRecOn (motive := Distinct) ns setByID h fun _ hbyID n _ => distinct_setByID hbyID n

theorem mem_foldl (hns : Distinct ns) (byID) (x : Notification) :
    x ∈ ns.foldl setByID byID ↔ x ∈ ns ∨ x ∈ byID ∧ ∀ n ∈ ns, x.id ≠ n.id := by
  induction ns generalizing byID with
  | nil => simp
  | cons n ns ih =>
    obtain ⟨hn, hrest⟩ := nodup_cons.mp hns
    rw [foldl_cons, ih hrest, mem_setByID]
    grind

variable {parse sort} (hsort : ∀ cmp xs, (sort cmp xs).Perm xs)
include hsort

theorem distinct_shown (snapshots : List Snapshot) : Distinct (shown parse sort snapshots) := by
  refine foldlRecOn (motive := Distinct) snapshots _ nodup_nil ?_
  intro current _ s _
  exact ((hsort _ _).map _).nodup_iff.mpr (distinct_foldl (@distinct_foldl [] nodup_nil _) _)

theorem mem_shown (earlier : List Snapshot) (last : Snapshot) (x : Notification) :
    x ∈ shown parse sort (earlier ++ [last]) ↔
      x ∈ last.rows ∨ x ∈ shown parse sort earlier ∧ ∀ n ∈ last.rows, x.id ≠ n.id := by
  rw [shown, foldl_append, foldl_cons, foldl_nil, mergeNotificationEvent,
    (hsort _ _).mem_iff, mem_foldl last.distinct, ← shown, mem_foldl (distinct_shown hsort earlier)]
  simp

/-- The page shows every id that was ever sent. -/
theorem shown_ids (snapshots : List Snapshot) :
    (∀ x ∈ shown parse sort snapshots, ∃ s ∈ snapshots, x ∈ s.rows) ∧
      ∀ s ∈ snapshots, ∀ n ∈ s.rows, ∃ x ∈ shown parse sort snapshots, x.id = n.id := by
  induction snapshots using reverseRecOn with
  | nil => simp [shown]
  | append_singleton earlier last ih =>
    obtain ⟨hsent, hids⟩ := ih
    constructor
    · intro x hx
      rcases (mem_shown hsort earlier last x).mp hx with hx | ⟨hx, -⟩
      · exact ⟨last, by simp, hx⟩
      · obtain ⟨s, hs, hx⟩ := hsent x hx
        exact ⟨s, by simp [hs], hx⟩
    · intro s hs n hn
      by_cases hlast : ∃ m ∈ last.rows, m.id = n.id
      · obtain ⟨m, hm, hid⟩ := hlast
        exact ⟨m, (mem_shown hsort earlier last m).mpr (.inl hm), hid⟩
      · have hs : s ∈ earlier := by grind
        obtain ⟨x, hx, hid⟩ := hids s hs n hn
        exact ⟨x, (mem_shown hsort earlier last x).mpr (.inr ⟨hx, by grind⟩), hid⟩

theorem last_push_shown_iff (now : ℤ) (earlier : List Snapshot) (last : Snapshot) :
    ((∀ n, n ∈ shown parse sort (earlier ++ [last]) ∧ n.status = .opened ↔ n ∈ last.rows) ∧
      (hasUnacknowledgedCriticalIncident parse now (shown parse sort (earlier ++ [last])) ↔
        ∃ n ∈ last.rows, n.severity = .critical ∧ unacknowledged n ∧ unmuted parse now n)) ↔
      ∀ s ∈ earlier, ∀ n ∈ s.rows, ∃ m ∈ last.rows, m.id = n.id := by
  obtain ⟨hsent, hids⟩ := @shown_ids parse sort hsort earlier
  constructor
  · rintro ⟨hsame, -⟩ s hs n hn
    obtain ⟨x, hx, hid⟩ := hids s hs n hn
    obtain ⟨t, -, hxt⟩ := hsent x hx
    by_contra hgone
    -- what the last push does not replace stays open
    have hstays := (mem_shown hsort earlier last x).mpr (.inr ⟨hx, by grind⟩)
    exact hgone ⟨x, (hsame x).mp ⟨hstays, t.opened x hxt⟩, hid⟩
  · intro hall
    have hmem : ∀ x, x ∈ shown parse sort (earlier ++ [last]) ↔ x ∈ last.rows := by
      intro x
      rw [mem_shown hsort]
      grind
    have hopened := last.opened
    constructor
    · grind
    · simp only [hasUnacknowledgedCriticalIncident, any_eq_true, hmem]
      grind

omit hsort

def nodeDown : Notification := ⟨1, .critical, .opened, "", none, none, ""⟩

def downPush : Snapshot := ⟨[nodeDown], by decide, by decide, nodup_singleton 1⟩

def calmPush : Snapshot := ⟨[], by decide, by decide, nodup_nil⟩

theorem repeated_push_shown :
    hasUnacknowledgedCriticalIncident (fun _ => none) 0
        (shown (fun _ => none) (fun _ xs => xs) [downPush, downPush]) ↔
      ∃ n ∈ downPush.rows, n.severity = .critical ∧ unacknowledged n ∧
        unmuted (fun _ => none) 0 n :=
  ((last_push_shown_iff (fun _ xs => List.Perm.refl xs) 0 [downPush] downPush).mpr
    (by decide)).2

/-- The incident is over when the second push is made. -/
theorem closed_incident_shown :
    hasUnacknowledgedCriticalIncident (fun _ => none) 0
      (shown (fun _ => none) (fun _ xs => xs) [downPush, calmPush]) ∧ calmPush.rows = [] := by
  decide

end AdminIncidents

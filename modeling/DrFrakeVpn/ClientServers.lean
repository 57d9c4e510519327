import DrFrakeVpn.GoValues

/-! # The client's list of servers

`Settings` keeps the servers as JSON objects and the default server as an index into their list.
`ServersModel` changes both. -/
namespace ClientServers

open GoValues

/-- A `QJsonObject`: the value under each key, if there is one. -/
abbrev QJsonObject := String → Option Json

def QJsonObject.set (o : QJsonObject) (key : String) (v : Json) : QJsonObject :=
  fun k => if k = key then some v else o k

/-- `QJsonValue::toString`. -/
def stringOf : Option Json → String
  | some (.str s) => s
  | _ => ""

/-- `QJsonValue::toBool`. -/
def boolOf (fallback : Bool) : Option Json → Bool
  | some (.bool b) => b
  | _ => fallback

/-- `QJsonValue::toArray`. -/
def arrayOf : Option Json → List Json
  | some (.arr items) => items
  | _ => []

/-- `QJsonValue::toInt`: a number that is no `int` is not read. -/
def intOf (fallback : ℤ) : Option Json → ℤ
  | some (.num q) => if q.den = 1 ∧ -2 ^ 31 ≤ q.num ∧ q.num < 2 ^ 31 then q.num else fallback
  | _ => fallback

/-- `QJsonValue::toObject`. -/
def objectOf : Json → QJsonObject
  | .obj fields => lookup fields
  | _ => fun _ => none

@[simp] theorem set_same (o : QJsonObject) (key : String) (v : Json) :
    o.set key v key = some v := if_pos rfl

@[simp] theorem set_other {o : QJsonObject} {key k v} (h : k ≠ key) :
    o.set key v k = o k := if_neg h

/-- What is taken from the text functions of the library. -/
structure QtText where
  trimmed : String → String
  toUpper : String → String
  /-- What `Qt::CaseInsensitive` compares. -/
  foldCase : String → String
  /-- `QString::toInt`, and 0 for a text that is no `int`. -/
  toInt : String → ℤ
  fold_empty : ∀ {s}, foldCase s = foldCase "" → s = ""

/-- `compare(.., Qt::CaseInsensitive) == 0`. -/
def QtText.same (qt : QtText) (a b : String) : Bool := qt.foldCase a = qt.foldCase b

theorem QtText.same_iff {qt : QtText} {a b} :
    qt.same a b ↔ qt.foldCase a = qt.foldCase b := decide_eq_true_iff

def isFBLinkServer (server : QJsonObject) : Bool :=
  hasPrefix (stringOf (server "description")) "FBLink VPN" ||
    hasPrefix (stringOf (server "name")) "FBLink VPN" ||
    boolOf false (server "fblink_server")

def serverHasContainer (qt : QtText) (server : QJsonObject) (containerName : String) : Bool :=
  (arrayOf (server "containers")).any fun value =>
    qt.same (stringOf (objectOf value "container")) containerName

def findFBLinkServerIndexByHostName (qt : QtText) (servers : List QJsonObject) (hostName : String) :
    Option ℕ :=
  if hostName = "" then none
  else servers.findIdx? fun server =>
    isFBLinkServer server && qt.same (stringOf (server "hostName")) hostName

structure Client where
  servers : List QJsonObject
  defaultServerIndex : ℤ
  processedServerIndex : ℤ
  lastSelectedFBLinkHostName : String
  lastSelectedServerId : Option Json

namespace Client

def setDefaultServerIndex (c : Client) (index : ℤ) : Client :=
  { c with defaultServerIndex := index }

def setProcessedServerIndex (c : Client) (index : ℤ) : Client :=
  { c with processedServerIndex := index }

def addServer (c : Client) (server : QJsonObject) : Client :=
  { c with servers := c.servers ++ [server] }

def editServer (c : Client) (server : QJsonObject) (index : ℕ) : Client :=
  { c with servers := c.servers.set index server }

def removeServer (c : Client) (index : ℕ) : Client :=
  let removed := { c with servers := c.servers.eraseIdx index }
  let moved :=
    if removed.defaultServerIndex = (index : ℤ) then removed.setDefaultServerIndex 0
    else if (index : ℤ) < removed.defaultServerIndex then
      removed.setDefaultServerIndex (removed.defaultServerIndex - 1)
    else removed
  let checked := if moved.servers.length = 0 then moved.setDefaultServerIndex (-1) else moved
  checked.setProcessedServerIndex checked.defaultServerIndex

def server? (c : Client) (index : ℤ) : Option QJsonObject :=
  if 0 ≤ index then c.servers[index.toNat]? else none

def rememberSelected (c : Client) (hostName : String) (id : Option Json) : Client :=
  { c with lastSelectedFBLinkHostName := hostName, lastSelectedServerId := id }

end Client

/-- The key under which the id of a server is remembered: its `server_id` or `id`, or its host
name. -/
def selectedId (server : QJsonObject) (hostName : String) : Option Json :=
  match (server "server_id").or (server "id") with
  | some (.num q) => some (.num (intOf 0 (some (.num q))))
  | some (.str s) => some (.str s)
  | _ => some (.str hostName)

end ClientServers

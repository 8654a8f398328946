import GBerry.Foundation.JavaScript

/-!
# `SettingsModel.js`

The addresses of the consoles and of the servers that the phone knows, in two lists
and in two tables of a database.  The lists are read from the tables when the
application starts; later changes are made to both.
-/

namespace GBerry.Mobile

open GBerry.Foundation

structure AddressEntry where
  name : Option String
  address : String
  last_used : Nat
  deriving DecidableEq

def AddressEntry.text (_ : AddressEntry) : Option String := none

structure AddressRow where
  name : String
  address : String
  last_used : Nat
  deriving DecidableEq

/-- One of the two lists, its index, and its table. -/
structure AddressTable where
  entries : List AddressEntry
  activeIndex : Nat
  rows : List AddressRow
  deriving DecidableEq

namespace AddressTable

def insertRow (rows : List AddressRow) (row : AddressRow) : List AddressRow := rows ++ [row]

def updateRows (rows : List AddressRow) (last_used : Nat) (address : String) :
    List AddressRow :=
  rows.map fun row => if row.address = address then { row with last_used := last_used } else row

/-- The member of an element that does not exist cannot be read. -/
def activeAddress (t : AddressTable) : Except JsError String :=
  match t.entries[t.activeIndex]? with
  | some entry => .ok entry.address
  | none => .error .typeError

def add (t : AddressTable) (address : String) : AddressTable :=
  if address = "" then t
  else if t.entries.any fun entry => entry.text = some address then t
  else
    { t with
      entries := t.entries ++ [⟨none, address, 0⟩]
      rows := insertRow t.rows ⟨address, address, 0⟩ }

def mark (entries : List AddressEntry) (i last_used : Nat) : List AddressEntry :=
  entries.modify i fun entry => { entry with last_used := last_used }

/-- The body of the loop, which goes on after an entry was found. -/
def activate (address : String) (t : AddressTable) (i : Nat) : Except JsError AddressTable :=
  if t.entries[i]?.map AddressEntry.address = some address then
    match t.activeAddress with
    | .error e => .error e
    | .ok prevAddress =>
        .ok {
          entries := mark (mark t.entries t.activeIndex 0) i 1
          activeIndex := i
          rows := updateRows (updateRows t.rows 0 prevAddress) 1 address }
  else .ok t

def setActive (t : AddressTable) (address : String) : Except JsError AddressTable :=
  (List.range t.entries.length).foldlM (activate address) t

/-- The rows are read in the order in which they were inserted. -/
def ofRows (rows : List AddressRow) : AddressTable :=
  let entries : List AddressEntry :=
    rows.map fun row => ⟨some row.name, row.address, row.last_used⟩
  let rows := if entries.isEmpty then insertRow rows ⟨"localhost", "localhost", 1⟩ else rows
  let entries := if entries.isEmpty then [⟨none, "localhost", 1⟩] else entries
  { entries := entries
    activeIndex := (entries.findIdx? fun entry => entry.last_used = 1).getD 0
    rows := rows }

end AddressTable

structure SettingsModel where
  consoles : AddressTable
  servers : AddressTable
  /-- The host that `serverConnectionModel` was told last. -/
  serverHost : String
  deriving DecidableEq

inductive SettingsEvent where
  | addConsole (consoleAddress : String)
  | addServer (serverAddress : String)
  | setActiveConsole (consoleAddress : String)
  | setActiveServer (serverAddress : String)
  /-- The application is started again with the database it has left. -/
  | restart

namespace SettingsModel

def consoleAddress (m : SettingsModel) : Except JsError String := m.consoles.activeAddress

def serverAddress (m : SettingsModel) : Except JsError String := m.servers.activeAddress

def addConsole (m : SettingsModel) (consoleAddress : String) : SettingsModel :=
  { m with consoles := m.consoles.add consoleAddress }

def addServer (m : SettingsModel) (serverAddress : String) : SettingsModel :=
  { m with servers := m.servers.add serverAddress }

def setActiveConsole (m : SettingsModel) (consoleAddress : String) :
    Except JsError SettingsModel :=
  match m.consoles.setActive consoleAddress with
  | .error e => .error e
  | .ok consoles => .ok { m with consoles := consoles }

def setActiveServer (m : SettingsModel) (serverAddress : String) :
    Except JsError SettingsModel :=
  match m.servers.setActive serverAddress with
  | .error e => .error e
  | .ok servers =>
      .ok { m with
        servers := servers
        serverHost :=
          if m.servers.entries.any fun entry => entry.address = serverAddress then serverAddress
          else m.serverHost }

def init (consoleRows serverRows : List AddressRow) : Except JsError SettingsModel :=
  let servers := AddressTable.ofRows serverRows
  match servers.activeAddress with
  | .error e => .error e
  | .ok serverHost => .ok ⟨.ofRows consoleRows, servers, serverHost⟩

def step (m : SettingsModel) : SettingsEvent → Except JsError SettingsModel
  | .addConsole consoleAddress => .ok (m.addConsole consoleAddress)
  | .addServer serverAddress => .ok (m.addServer serverAddress)
  | .setActiveConsole consoleAddress => m.setActiveConsole consoleAddress
  | .setActiveServer serverAddress => m.setActiveServer serverAddress
  | .restart => init m.consoles.rows m.servers.rows

def run (events : List SettingsEvent) : Except JsError SettingsModel :=
  match init [] [] with
  | .error e => .error e
  | .ok m => events.foldlM step m

end SettingsModel

end GBerry.Mobile

import GBerry.Mobile.SettingsModel

/-!
# Settings survive a restart

What the user sees is a list of addresses and the active one of them.  Starting the
application again does not change it, although an address may be listed more than
once and the index of the active one may be another then.
-/

namespace GBerry.Mobile

open GBerry.Foundation

structure AddressBook where
  addresses : List String
  active : String
  deriving DecidableEq

namespace AddressBook

def start : AddressBook := ⟨["localhost"], "localhost"⟩

def add (b : AddressBook) (address : String) : AddressBook :=
  if address = "" then b else { b with addresses := b.addresses ++ [address] }

def setActive (b : AddressBook) (address : String) : AddressBook :=
  if address ∈ b.addresses then { b with active := address } else b

end AddressBook

structure SettingsBook where
  consoles : AddressBook
  servers : AddressBook
  deriving DecidableEq

namespace SettingsBook

def start : SettingsBook := ⟨.start, .start⟩

/-- Starting the application again changes nothing. -/
def next (b : SettingsBook) : SettingsEvent → SettingsBook
  | .addConsole consoleAddress => { b with consoles := b.consoles.add consoleAddress }
  | .addServer serverAddress => { b with servers := b.servers.add serverAddress }
  | .setActiveConsole consoleAddress =>
      { b with consoles := b.consoles.setActive consoleAddress }
  | .setActiveServer serverAddress => { b with servers := b.servers.setActive serverAddress }
  | .restart => b

def after (events : List SettingsEvent) : SettingsBook := events.foldl next start

end SettingsBook

namespace AddressTable

/-- The rows that are marked have the address that is active, and there is one. -/
structure Represents (t : AddressTable) (b : AddressBook) : Prop where
  entries : t.entries.map AddressEntry.address = b.addresses
  rows : t.rows.map AddressRow.address = b.addresses
  active : t.activeAddress = .ok b.active
  marked : ∀ row ∈ t.rows, row.last_used = 1 → row.address = b.active
  exists_marked : ∃ row ∈ t.rows, row.last_used = 1

variable {t t' : AddressTable} {b : AddressBook} {address : String}

theorem activeAddress_eq_ok {a : String} :
    t.activeAddress = .ok a ↔ (t.entries.map AddressEntry.address)[t.activeIndex]? = some a := by
  rw [activeAddress, List.getElem?_map]
  cases t.entries[t.activeIndex]? with
  | none => simp
  | some entry => simp

theorem updateRows_address (rows : List AddressRow) (last_used : Nat) (a : String) :
    (updateRows rows last_used a).map AddressRow.address = rows.map AddressRow.address := by
  rw [updateRows, List.map_map]
  apply List.map_congr_left
  intro row _
  simp only [Function.comp_apply]
  split <;> rfl

theorem mark_address (entries : List AddressEntry) (i last_used : Nat) :
    (mark entries i last_used).map AddressEntry.address = entries.map AddressEntry.address := by
  apply List.ext_getElem?
  intro j
  rw [List.getElem?_map, List.getElem?_map, mark, List.getElem?_modify]
  cases entries[j]? with
  | none => simp
  | some entry =>
      by_cases heq : i = j
      · simp [heq]
      · simp [heq]

theorem mem_updateRows {rows : List AddressRow} {last_used : Nat} {a : String}
    {row : AddressRow} (h : row ∈ updateRows rows last_used a) :
    (row.address = a ∧ row.last_used = last_used) ∨ (row.address ≠ a ∧ row ∈ rows) := by
  obtain ⟨before, hbefore, rfl⟩ := List.mem_map.mp h
  by_cases heq : before.address = a
  · simp [heq]
  · simp [heq, hbefore]

theorem Represents.add (h : t.Represents b) (address : String) :
    (t.add address).Represents (b.add address) := by
  have hnothing : t.entries.any (fun entry => entry.text = some address) = false := by
    simp [AddressEntry.text]
  unfold AddressTable.add AddressBook.add
  by_cases hempty : address = ""
  · rw [if_pos hempty, if_pos hempty]
    exact h
  rw [if_neg hempty, if_neg hempty, hnothing, if_neg Bool.false_ne_true]
  constructor
  · rw [List.map_append, h.entries]
    rfl
  · rw [insertRow, List.map_append, h.rows]
    rfl
  · have hactive := activeAddress_eq_ok.mp h.active
    rw [activeAddress_eq_ok, List.map_append,
      List.getElem?_append_left (List.getElem?_eq_some_iff.mp hactive).1]
    exact hactive
  · intro row hmem hmarked
    rcases List.mem_append.mp hmem with hmem | hmem
    · exact h.marked row hmem hmarked
    · rw [List.mem_singleton.mp hmem] at hmarked
      cases hmarked
  · obtain ⟨row, hmem, hmarked⟩ := h.exists_marked
    exact ⟨row, List.mem_append_left _ hmem, hmarked⟩

theorem Represents.activate (h : t.Represents b) (address : String) (i : Nat) :
    ∃ t', activate address t i = .ok t' ∧
      t'.Represents
        (if b.addresses[i]? = some address then { b with active := address } else b) := by
  have hentry : t.entries[i]?.map AddressEntry.address = b.addresses[i]? := by
    rw [← h.entries, List.getElem?_map]
  unfold AddressTable.activate
  rw [hentry]
  split
  · rename_i hfound
    rw [h.active]
    refine ⟨_, rfl, ?_⟩
    constructor
    · rw [mark_address, mark_address, h.entries]
    · rw [updateRows_address, updateRows_address, h.rows]
    · rw [activeAddress_eq_ok, mark_address, mark_address, h.entries]
      exact hfound
    · intro row hmem hmarked
      rcases mem_updateRows hmem with ⟨heq, -⟩ | ⟨-, hmem⟩
      · exact heq
      rcases mem_updateRows hmem with ⟨-, hcleared⟩ | ⟨hne, hmem⟩
      · rw [hcleared] at hmarked
        cases hmarked
      · exact absurd (h.marked row hmem hmarked) hne
    · have hlisted : address ∈ (updateRows t.rows 0 b.active).map AddressRow.address := by
        rw [updateRows_address, h.rows]
        exact List.mem_of_getElem? hfound
      obtain ⟨row, hmem, heq⟩ := List.mem_map.mp hlisted
      refine ⟨{ row with last_used := 1 }, List.mem_map.mpr ⟨row, hmem, ?_⟩, rfl⟩
      rw [if_pos heq]
  · exact ⟨t, rfl, h⟩

theorem Represents.activateAll (h : t.Represents b) (address : String) (l : List Nat) :
    ∃ t', l.foldlM (AddressTable.activate address) t = .ok t' ∧
      t'.Represents
        (if ∃ i ∈ l, b.addresses[i]? = some address then { b with active := address }
        else b) := by
  induction l generalizing t b with
  | nil => exact ⟨t, rfl, by simpa using h⟩
  | cons i l ih =>
      obtain ⟨t₁, hfirst, h₁⟩ := h.activate address i
      obtain ⟨t', hrest, h'⟩ := ih h₁
      refine ⟨t', by rw [List.foldlM_cons, hfirst]; exact hrest, ?_⟩
      simp only [List.mem_cons, exists_eq_or_imp]
      by_cases hfound : b.addresses[i]? = some address
      · simpa [hfound] using h'
      · simpa [hfound] using h'

theorem Represents.setActive (h : t.Represents b) (address : String) :
    ∃ t', t.setActive address = .ok t' ∧ t'.Represents (b.setActive address) := by
  obtain ⟨t', hset, h'⟩ := h.activateAll address (List.range t.entries.length)
  refine ⟨t', hset, ?_⟩
  have hlength : t.entries.length = b.addresses.length := by
    rw [← h.entries, List.length_map]
  have hlisted : (∃ i ∈ List.range t.entries.length, b.addresses[i]? = some address) ↔
      address ∈ b.addresses := by
    rw [hlength]
    constructor
    · rintro ⟨i, -, hi⟩
      exact List.mem_of_getElem? hi
    · intro hmem
      obtain ⟨i, hi⟩ := List.mem_iff_getElem?.mp hmem
      exact ⟨i, List.mem_range.mpr (List.getElem?_eq_some_iff.mp hi).1, hi⟩
  rw [AddressBook.setActive]
  simpa only [hlisted] using h'

theorem Represents.ofRows (h : t.Represents b) : (ofRows t.rows).Represents b := by
  obtain ⟨row, hmem, hmarked⟩ := h.exists_marked
  have hentries : (t.rows.map fun row =>
      (⟨some row.name, row.address, row.last_used⟩ : AddressEntry)).isEmpty = false := by
    cases hrows : t.rows with
    | nil =>
        rw [hrows] at hmem
        cases hmem
    | cons first rest => rfl
  unfold AddressTable.ofRows
  simp only [hentries, Bool.false_eq_true, if_false]
  refine ⟨?_, h.rows, ?_, h.marked, h.exists_marked⟩
  · rw [List.map_map, ← h.rows]
    rfl
  · rw [activeAddress_eq_ok, List.map_map, List.findIdx?_map]
    cases hfirst : t.rows.findIdx? ((fun entry : AddressEntry => entry.last_used = 1) ∘
        fun row => ⟨some row.name, row.address, row.last_used⟩) with
    | none =>
        have hunmarked := List.findIdx?_eq_none_iff.mp hfirst row hmem
        simp [hmarked] at hunmarked
    | some i =>
        obtain ⟨hlt, hone, -⟩ := List.findIdx?_eq_some_iff_getElem.mp hfirst
        have haddress := h.marked t.rows[i] (List.getElem_mem hlt) (by simpa using hone)
        rw [Option.getD_some, List.getElem?_map, List.getElem?_eq_getElem hlt, Option.map_some,
          ← haddress]
        rfl

theorem ofRows_nil : (AddressTable.ofRows []).Represents .start := by
  constructor
  · rfl
  · rfl
  · rfl
  · decide
  · decide

end AddressTable

namespace SettingsModel

structure Represents (m : SettingsModel) (b : SettingsBook) : Prop where
  consoles : m.consoles.Represents b.consoles
  servers : m.servers.Represents b.servers
  serverHost : m.serverHost = b.servers.active

variable {m : SettingsModel} {b : SettingsBook}

theorem setActiveServer_host (h : m.Represents b) (serverAddress : String) :
    (if m.servers.entries.any fun entry => entry.address = serverAddress then serverAddress
      else m.serverHost) = (b.servers.setActive serverAddress).active := by
  have hlisted : (m.servers.entries.any fun entry => entry.address = serverAddress) = true ↔
      serverAddress ∈ b.servers.addresses := by
    rw [← h.servers.entries, List.any_eq_true]
    simp only [decide_eq_true_eq, List.mem_map]
  rw [AddressBook.setActive]
  by_cases hmem : serverAddress ∈ b.servers.addresses
  · rw [if_pos (hlisted.mpr hmem), if_pos hmem]
  · rw [if_neg (fun hany => hmem (hlisted.mp hany)), if_neg hmem]
    exact h.serverHost

theorem Represents.init (h : m.Represents b) :
    ∃ m', SettingsModel.init m.consoles.rows m.servers.rows = .ok m' ∧ m'.Represents b := by
  have hservers := h.servers.ofRows
  rw [SettingsModel.init, hservers.active]
  exact ⟨_, rfl, h.consoles.ofRows, hservers, rfl⟩

theorem Represents.step (h : m.Represents b) (event : SettingsEvent) :
    ∃ m', m.step event = .ok m' ∧ m'.Represents (b.next event) := by
  cases event with
  | addConsole consoleAddress => exact ⟨_, rfl, h.consoles.add _, h.servers, h.serverHost⟩
  | addServer serverAddress =>
      refine ⟨_, rfl, h.consoles, h.servers.add _, ?_⟩
      rw [SettingsBook.next, AddressBook.add]
      split
      · exact h.serverHost
      · exact h.serverHost
  | setActiveConsole consoleAddress =>
      obtain ⟨consoles, hset, hconsoles⟩ := h.consoles.setActive consoleAddress
      refine ⟨{ m with consoles := consoles }, ?_, hconsoles, h.servers, h.serverHost⟩
      simp only [SettingsModel.step, setActiveConsole, hset]
  | setActiveServer serverAddress =>
      obtain ⟨servers, hset, hservers⟩ := h.servers.setActive serverAddress
      have hhost := setActiveServer_host h serverAddress
      simp only [SettingsModel.step, setActiveServer, hset]
      exact ⟨_, rfl, h.consoles, hservers, hhost⟩
  | restart => exact h.init

theorem init_represents : ∃ m, init [] [] = .ok m ∧ m.Represents .start :=
  ⟨_, rfl, AddressTable.ofRows_nil, AddressTable.ofRows_nil, rfl⟩

theorem foldlM_represents (events : List SettingsEvent) (h : m.Represents b) :
    ∃ m', events.foldlM step m = .ok m' ∧ m'.Represents (events.foldl SettingsBook.next b) := by
  induction events generalizing m b with
  | nil => exact ⟨m, rfl, h⟩
  | cons event events ih =>
      obtain ⟨m₁, hstep, h₁⟩ := h.step event
      obtain ⟨m', hrest, h'⟩ := ih h₁
      refine ⟨m', ?_, h'⟩
      rw [List.foldlM_cons, hstep]
      exact hrest

/-- No sequence of events throws, and restarting the application changes no address. -/
theorem run_survivesRestarts (events : List SettingsEvent) :
    ∃ m, run events = .ok m ∧
      m.consoleAddress = .ok (SettingsBook.after events).consoles.active ∧
      m.serverAddress = .ok (SettingsBook.after events).servers.active ∧
      m.serverHost = (SettingsBook.after events).servers.active ∧
      m.consoles.entries.map AddressEntry.address =
        (SettingsBook.after events).consoles.addresses ∧
      m.servers.entries.map AddressEntry.address =
        (SettingsBook.after events).servers.addresses := by
  obtain ⟨m₀, hinit, hstart⟩ := init_represents
  obtain ⟨m, hrun, h⟩ := foldlM_represents events hstart
  rw [← SettingsBook.after] at h
  refine ⟨m, ?_, h.consoles.active, h.servers.active, h.serverHost, h.consoles.entries,
    h.servers.entries⟩
  rw [run, hinit]
  exact hrun

/-- An address that is added twice is listed twice, and stays active. -/
example :
    (run [.addConsole "tv", .setActiveConsole "tv", .addConsole "tv", .setActiveConsole "tv",
      .restart]).toOption.map (fun m => (m.consoles.activeIndex, m.consoles.rows.length)) =
      some (1, 3) := by
  decide +kernel

end SettingsModel

end GBerry.Mobile

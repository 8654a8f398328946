import GBerry.Games.TicTacToe.Window.Agreement

/-!
# The phones agree with the console

Whatever is under way to a phone brings it to what its player should see of the game,
unless a cell is selected too late or a game is started without its second player.
-/

namespace GBerry.Games.TicTacToe.Party

open GBerry.Common
open GBerry.Foundation
open Window (FromAppBox UpToDate Follows)

section Definitions

def nextReply (s : Party) (pid : Int) : Option PhoneReply :=
  s.phones[pid]?.bind fun phone => phone.outgoing.head?

def StaleReply (w : Window) (pid : Int) : PhoneReply → Prop
  | .GeneralAction _ => False
  | .AppBoxMessage js => w.StaleMove pid js

instance (w : Window) (pid : Int) : DecidablePred (StaleReply w pid)
  | .GeneralAction _ => inferInstanceAs (Decidable False)
  | .AppBoxMessage js => inferInstanceAs (Decidable (w.StaleMove pid js))

/-- The game that the event is about is not there, or not any more. -/
def Stale (s : Party) : PartyEvent → Prop
  | .deliverToConsole pid => ∃ reply ∈ s.nextReply pid, StaleReply s.window pid reply
  | .slideFinished => s.window.StaleSlide
  | _ => False

instance (s : Party) : DecidablePred s.Stale
  | .deliverToConsole pid =>
      inferInstanceAs (Decidable (∃ reply ∈ s.nextReply pid, StaleReply s.window pid reply))
  | .slideFinished => inferInstanceAs (Decidable s.window.StaleSlide)
  | .playerIn .. | .playerOut _ | .deliverToPhone _ | .selectCell .. | .clickButton _
  | .selectGeneralAction .. | .joinviewFaded | .fadeFinished => inferInstanceAs (Decidable False)

/-- The phone shows what it should when everything has been delivered. -/
def Reaches (w : Window) (pid : Int) (phone : Phone) : Prop :=
  ∃ box, phone.incoming.foldl Phone.receive phone.appBox = some box ∧ w.Shows pid box

def FromPhone : PhoneReply → Prop
  | .GeneralAction _ => True
  | .AppBoxMessage js => FromAppBox js

structure PhoneAgrees (w : Window) (pid : Int) (phone : Phone) : Prop where
  reaches : Reaches w pid phone
  replies : ∀ reply ∈ phone.outgoing, FromPhone reply

structure Agrees (s : Party) : Prop where
  window : s.window.Good
  names : ∀ pid, pid ∈ s.phones ↔ pid ∈ s.window.playerNames
  phones : ∀ pid phone, s.phones[pid]? = some phone → PhoneAgrees s.window pid phone

end Definitions

variable {s : Party} {phones : QMap Int Phone} {outputs : List WindowOutput}
  {action : Window.WindowAction} {pid : Int} {phone : Phone}

section Posting

theorem getElem?_post (pid : Int) : (post phones outputs)[pid]? =
    phones[pid]?.map fun phone =>
      { phone with incoming := phone.incoming ++ sentTo pid outputs } :=
  Std.ExtTreeMap.getElem?_map

theorem mem_post : pid ∈ post phones outputs ↔ pid ∈ phones := Std.ExtTreeMap.mem_map

theorem Reaches.post {w w' : Window} (h : Reaches w pid phone) (hfollows : Follows w w' outputs) :
    Reaches w' pid { phone with incoming := phone.incoming ++ sentTo pid outputs } := by
  obtain ⟨box, hbox, hshows⟩ := h
  obtain ⟨box', hbox', hshows'⟩ := hfollows pid box hshows
  exact ⟨box', by rw [List.foldl_append, hbox, hbox'], hshows'⟩

theorem act_agrees (hgood : (action s.window).1.Good)
    (hnames : ∀ pid, pid ∈ phones ↔ pid ∈ (action s.window).1.playerNames)
    (hphones : ∀ pid phone, phones[pid]? = some phone → PhoneAgrees (action s.window).1 pid
      { phone with incoming := phone.incoming ++ sentTo pid (action s.window).2 }) :
    (s.act phones action).1.Agrees where
  window := hgood
  names _ := mem_post.trans (hnames _)
  phones pid phone hphone := by
    obtain ⟨old, hold, rfl⟩ := Option.map_eq_some_iff.mp ((getElem?_post pid).symm.trans hphone)
    exact hphones pid old hold

theorem PhoneAgrees.post {w w' : Window} (h : PhoneAgrees w pid phone)
    (hfollows : Follows w w' outputs) :
    PhoneAgrees w' pid { phone with incoming := phone.incoming ++ sentTo pid outputs } :=
  ⟨h.reaches.post hfollows, h.replies⟩

theorem Agrees.act (h : s.Agrees) (hupToDate : UpToDate s.window (action s.window)) :
    (s.act s.phones action).1.Agrees := by
  apply act_agrees hupToDate.good
  · intro pid
    rw [hupToDate.names]
    exact h.names pid
  · exact fun pid phone hphone => (h.phones pid phone hphone).post hupToDate.follows

theorem getElem?_onPhone (s : Party) (pid other : Int) (change : Phone → Phone) :
    (s.onPhone pid change).1.phones[other]? =
      if pid = other then s.phones[pid]?.map change else s.phones[other]? := by
  rw [Party.onPhone, Std.ExtTreeMap.getElem?_modify]
  simp only [Std.compare_eq_iff_eq]

theorem Agrees.onPhone (h : s.Agrees) {change : Phone → Phone}
    (hchange : ∀ phone, PhoneAgrees s.window pid phone →
      PhoneAgrees s.window pid (change phone)) : (s.onPhone pid change).1.Agrees := by
  constructor
  case window => exact h.window
  case names => exact fun other => Std.ExtTreeMap.mem_modify.trans (h.names other)
  case phones =>
    intro other phone hphone
    rw [getElem?_onPhone] at hphone
    split at hphone
    · rename_i heq
      obtain ⟨old, hold, rfl⟩ := Option.map_eq_some_iff.mp hphone
      exact heq ▸ hchange old (h.phones pid old hold)
    · exact h.phones other phone hphone

end Posting

section Phones

theorem deliverToPhone_agrees (h : s.Agrees) (pid : Int) : (s.deliverToPhone pid).1.Agrees := by
  apply h.onPhone
  intro phone hphone
  cases hincoming : phone.incoming with
  | nil => exact hphone
  | cons msg incoming =>
      obtain ⟨box, hbox, hshows⟩ := hphone.reaches
      rw [hincoming] at hbox
      exact ⟨⟨box, hbox, hshows⟩, hphone.replies⟩

theorem outgoingMessage_agrees (h : s.Agrees) (pid : Int) {output : AppBox → List JsValue}
    (houtput : ∀ box, ∀ js ∈ output box, FromAppBox js) :
    (s.onPhone pid fun phone => phone.outgoingMessage output).1.Agrees := by
  apply h.onPhone
  intro phone hphone
  refine ⟨hphone.reaches, ?_⟩
  intro reply hreply
  rcases List.mem_append.mp hreply with hold | hnew
  · exact hphone.replies reply hold
  · obtain ⟨js, hjs, rfl⟩ := List.mem_map.mp hnew
    cases hbox : phone.appBox with
    | none =>
        rw [hbox] at hjs
        cases hjs
    | some box =>
        rw [hbox] at hjs
        exact houtput box js hjs

theorem cellSelected_fromAppBox (box : AppBox) (x y : Fin 3) :
    ∀ js ∈ box.cellSelected x y, FromAppBox js := by
  intro js hjs
  unfold AppBox.cellSelected at hjs
  split at hjs
  · cases List.mem_singleton.mp hjs
    exact .select x y
  · cases hjs

theorem buttonClicked_fromAppBox (box : AppBox) : ∀ js ∈ box.buttonClicked, FromAppBox js := by
  intro js hjs
  unfold AppBox.buttonClicked at hjs
  split at hjs
  · cases List.mem_singleton.mp hjs
    exact .button "JoinGame" (by decide)
  split at hjs
  · cases List.mem_singleton.mp hjs
    exact .button "CancelJoin" (by decide)
  split at hjs
  · cases List.mem_singleton.mp hjs
    exact .button "NextGame" (by decide)
  · cases hjs

theorem selectGeneralAction_agrees (h : s.Agrees) (pid : Int) (id : String) :
    (s.onPhone pid fun phone => phone.selectGeneralAction id).1.Agrees := by
  apply h.onPhone
  intro phone hphone
  unfold Phone.selectGeneralAction
  split
  · refine ⟨hphone.reaches, ?_⟩
    intro reply hreply
    rcases List.mem_append.mp hreply with hold | hnew
    · exact hphone.replies reply hold
    · cases List.mem_singleton.mp hnew
      trivial
  · exact hphone

end Phones

section Steps

theorem playerIn_agrees (h : s.Agrees) (pid : Int) (name : String) :
    (s.playerIn pid name).1.Agrees := by
  unfold playerIn
  split
  · exact h
  · rename_i habsent
    rw [h.names] at habsent
    apply act_agrees (Window.onPlayerIn_good h.window pid name)
    · intro other
      have hnames : (Window.onPlayerIn pid name s.window).1.playerNames =
          s.window.playerNames.insert pid name := by rw [Window.onPlayerIn_eq]
      rw [hnames, QMap.mem_insert_iff, QMap.mem_insert_iff, h.names]
    · intro other phone hphone
      rw [QMap.getElem?_insert] at hphone
      split at hphone
      · rename_i heq
        cases hphone
        subst heq
        exact ⟨Window.onPlayerIn_newcomer h.window habsent name, by simp [Phone.new]⟩
      · rename_i hne
        have hagrees := h.phones other phone hphone
        obtain ⟨box, hbox, hshows⟩ := hagrees.reaches
        obtain ⟨hnothing, hshows'⟩ := Window.onPlayerIn_others hne name hshows
        rw [hnothing, List.append_nil]
        exact ⟨⟨box, hbox, hshows'⟩, hagrees.replies⟩

theorem playerOut_agrees (h : s.Agrees) (pid : Int) : (s.playerOut pid).1.Agrees := by
  unfold playerOut
  split
  · apply act_agrees (Window.onPlayerOut_good h.window pid)
    · intro other
      rw [Window.onPlayerOut_names h.window, QMap.mem_erase_iff, QMap.mem_erase_iff, h.names]
    · intro other phone hphone
      rw [QMap.getElem?_erase] at hphone
      split at hphone
      · cases hphone
      · exact (h.phones other phone hphone).post (Window.onPlayerOut_follows h.window pid)
  · exact h

theorem reply_upToDate (h : s.Agrees) (hpresent : pid ∈ s.phones) {reply : PhoneReply}
    (hfrom : FromPhone reply)
    (htimely : ¬ StaleReply s.window pid reply) :
    UpToDate s.window (Window.onPlayerMessageReceived pid reply s.window) := by
  cases reply with
  | GeneralAction id => exact Window.onGeneralAction_upToDate h.window pid id
  | AppBoxMessage js =>
      exact Window.onAppBoxMessage_upToDate h.window ((h.names pid).mp hpresent) hfrom
        htimely

theorem deliverToConsole_agrees (h : s.Agrees) (htimely : ¬ s.Stale (.deliverToConsole pid)) :
    (s.deliverToConsole pid).1.Agrees := by
  unfold deliverToConsole
  split
  · exact h
  · exact h
  · rename_i appBox generalActions incoming reply outgoing hphone
    have hagrees := h.phones pid _ hphone
    have hnext : s.nextReply pid = some reply := by rw [nextReply, hphone]; rfl
    have hreply : ¬ StaleReply s.window pid reply := fun hstale => htimely ⟨reply, hnext, hstale⟩
    have hupToDate := reply_upToDate h (QMap.mem_of_getElem? hphone)
      (hagrees.replies reply List.mem_cons_self) hreply
    apply act_agrees hupToDate.good
    · intro other
      rw [hupToDate.names, QMap.mem_insert_iff, ← h.names]
      exact ⟨fun hor => hor.elim (fun heq => heq ▸ QMap.mem_of_getElem? hphone) id, .inr⟩
    · intro other phone hother
      rw [QMap.getElem?_insert] at hother
      split at hother
      · rename_i heq
        cases hother
        subst heq
        have hrest : PhoneAgrees s.window other ⟨appBox, generalActions, incoming, outgoing⟩ :=
          ⟨hagrees.reaches, fun reply hreply => hagrees.replies reply (.tail _ hreply)⟩
        exact hrest.post hupToDate.follows
      · exact (h.phones other phone hother).post hupToDate.follows

theorem handle_agrees (h : s.Agrees) {event : PartyEvent} (htimely : ¬ s.Stale event) :
    (handle event s).1.Agrees := by
  cases event with
  | playerIn pid name => exact playerIn_agrees h pid name
  | playerOut pid => exact playerOut_agrees h pid
  | deliverToPhone pid => exact deliverToPhone_agrees h pid
  | deliverToConsole pid => exact deliverToConsole_agrees h htimely
  | selectCell pid x y =>
      exact outgoingMessage_agrees h pid fun box => cellSelected_fromAppBox box x y
  | clickButton pid => exact outgoingMessage_agrees h pid buttonClicked_fromAppBox
  | selectGeneralAction pid id => exact selectGeneralAction_agrees h pid id
  | slideFinished => exact h.act (Window.slideFinished_upToDate h.window htimely)
  | joinviewFaded => exact h.act (Window.joinviewFaded_upToDate h.window)
  | fadeFinished => exact h.act (Window.fadeFinished_upToDate h.window)

theorem start_good : Window.start.Good where
  second hsome := by cases hsome
  distinct _ _ hsome := by cases hsome
  nameBox := rfl
  ended _ hgame := by cases hgame
  present _ _ hjoined := by cases hjoined
  waiting _ := rfl
  full hgame := by cases hgame
  game hgame := by cases hgame

theorem start_agrees : start.Agrees where
  window := start_good
  names _ := iff_of_false Std.ExtTreeMap.not_mem_empty Std.ExtTreeMap.not_mem_empty
  phones pid phone hphone := by
    have hnone : start.phones[pid]? = none := Std.ExtTreeMap.getElem?_empty
    cases hnone.symm.trans hphone

end Steps

variable {history : History}

/--
As long as no cell is selected in a game that was left and no game starts without its
second player, what is under way to a phone brings it to what it should show.
-/
theorem phones_agree (h : Execution machine history s)
    (htimely : ∀ st ∈ history, ¬ st.pre.Stale st.label) :
    (∀ pid, pid ∈ s.phones ↔ pid ∈ s.window.playerNames) ∧
      ∀ pid phone, s.phones[pid]? = some phone → Reaches s.window pid phone := by
  rw [← Execution.eachStep_const] at htimely
  have hagrees : s.Agrees := by
    refine (h.eachStep_of_invariant (D := fun _ _ => True) start_agrees ?_ htimely).1
    intro older s s' event out _ hagrees hstep hnow
    obtain ⟨rfl, rfl⟩ := Action.machine_step hstep
    refine ⟨?_, trivial⟩
    unfold step
    split
    · exact handle_agrees hagrees hnow
    · exact hagrees
  exact ⟨hagrees.names, fun pid phone hphone => (hagrees.phones pid phone hphone).reaches⟩

/-- Two players join, and the first one marks a cell that the other phone has not heard of. -/
def firstMove : List PartyEvent :=
  [.playerIn 7 "Ann", .playerIn 9 "Ben", .deliverToPhone 7, .deliverToPhone 7, .deliverToPhone 7,
    .deliverToPhone 9, .deliverToPhone 9, .deliverToPhone 9, .clickButton 7, .deliverToConsole 7,
    .clickButton 9, .deliverToConsole 9, .deliverToPhone 7, .deliverToPhone 7, .deliverToPhone 7,
    .slideFinished, .joinviewFaded, .fadeFinished, .deliverToPhone 7, .deliverToPhone 7,
    .deliverToPhone 7, .selectCell 7 (Fin.last 2) (Fin.last 2), .deliverToConsole 7]

def annHasMarked (history : History) (s : Party) : Bool :=
  history.all (fun st => !decide (st.pre.Stale st.label)) &&
    s.window.game.any (fun game =>
      game.columns (Fin.last 2) (Fin.last 2) = .x && game.currentPlayer = 9) &&
    s.phones[(9 : Int)]?.any fun (phone : Phone) => phone.incoming.length == 6

theorem phones_agree_firstMove : ∃ history s, machine.run firstMove = .ok (history, s) ∧
    annHasMarked history s = true ∧
    ∀ pid phone, s.phones[pid]? = some phone → Reaches s.window pid phone := by
  have hruns : ∃ history s, machine.run firstMove = .ok (history, s) ∧
      annHasMarked history s = true :=
    Machine.exists_run (by decide +kernel)
  obtain ⟨history, s, hrun, hmarked⟩ := hruns
  have htimely : ∀ st ∈ history, ¬ st.pre.Stale st.label := by
    simp only [annHasMarked, Bool.and_eq_true] at hmarked
    simpa using hmarked.1.1
  exact ⟨history, s, hrun, hmarked, (phones_agree (Machine.run_execution hrun) htimely).2⟩

end GBerry.Games.TicTacToe.Party

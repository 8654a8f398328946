import GBerry.Games.TicTacToe.Window

/-!
# A party

The window of the game on the console, and the phones of the players that are in,
with the messages that are on their way between them.
-/

namespace GBerry.Games.TicTacToe

open GBerry.Common
open GBerry.Foundation

structure Phone where
  /-- The content that `AppBox.createContent` has made. -/
  appBox : Option AppBox
  generalActions : List String
  incoming : List PhoneMessage
  outgoing : List PhoneReply

structure Party where
  window : Window
  phones : QMap Int Phone
  /-- The game has not been exited. -/
  running : Bool

inductive PartyEvent where
  | playerIn (pid : Int) (name : String)
  | playerOut (pid : Int)
  | deliverToPhone (pid : Int)
  | deliverToConsole (pid : Int)
  | selectCell (pid : Int) (x y : Fin 3)
  | clickButton (pid : Int)
  | selectGeneralAction (pid : Int) (id : String)
  | slideFinished
  | joinviewFaded
  | fadeFinished

namespace Phone

def new : Phone := ⟨none, [], [], []⟩

def receive (appBox : Option AppBox) : PhoneMessage → Option AppBox
  | .DefineAppBox => some .created
  | .AppBoxMessage data => appBox.map fun box => box.incomingMessage data
  | _ => appBox

def messageReceived (phone : Phone) (msg : PhoneMessage) : Phone :=
  { phone with
    appBox := receive phone.appBox msg
    generalActions :=
      match msg with
      | .DefineGeneralActions actionIds => actionIds
      | _ => phone.generalActions }

def outgoingMessage (phone : Phone) (output : AppBox → List JsValue) : Phone :=
  { phone with
    outgoing := phone.outgoing ++
      (phone.appBox.map output |>.getD []).map .AppBoxMessage }

def selectGeneralAction (phone : Phone) (id : String) : Phone :=
  if id ∈ phone.generalActions then
    { phone with outgoing := phone.outgoing ++ [.GeneralAction id] }
  else phone

end Phone

namespace Party

def start : Party := ⟨.start, ∅, true⟩

def sentTo (pid : Int) (outputs : List WindowOutput) : List PhoneMessage :=
  outputs.filterMap fun
    | .sendPlayerMessage other msg => if other = pid then some msg else none
    | .sendAllPlayersMessage msg => some msg
    | _ => none

def post (phones : QMap Int Phone) (outputs : List WindowOutput) : QMap Int Phone :=
  phones.map fun pid phone => { phone with incoming := phone.incoming ++ sentTo pid outputs }

def quits (outputs : List WindowOutput) : Bool :=
  outputs.any fun
    | .quit => true
    | _ => false

def act (s : Party) (phones : QMap Int Phone) (action : Window.WindowAction) :
    Party × List WindowOutput :=
  let (window, outputs) := action s.window
  ({ window := window
     phones := post phones outputs
     running := s.running && !quits outputs }, outputs)

def onPhone (s : Party) (pid : Int) (change : Phone → Phone) : Party × List WindowOutput :=
  ({ s with phones := s.phones.modify pid change }, [])

def deliverToPhone (s : Party) (pid : Int) : Party × List WindowOutput :=
  s.onPhone pid fun phone =>
    match phone.incoming with
    | [] => phone
    | msg :: incoming => { phone with incoming := incoming }.messageReceived msg

def deliverToConsole (s : Party) (pid : Int) : Party × List WindowOutput :=
  match s.phones[pid]? with
  | none | some ⟨_, _, _, []⟩ => (s, [])
  | some ⟨appBox, generalActions, incoming, reply :: outgoing⟩ =>
      s.act (s.phones.insert pid ⟨appBox, generalActions, incoming, outgoing⟩)
        (Window.onPlayerMessageReceived pid reply)

def playerIn (s : Party) (pid : Int) (name : String) : Party × List WindowOutput :=
  if pid ∈ s.phones then (s, [])
  else s.act (s.phones.insert pid .new) (Window.onPlayerIn pid name)

def playerOut (s : Party) (pid : Int) : Party × List WindowOutput :=
  if pid ∈ s.phones then s.act (s.phones.erase pid) (Window.onPlayerOut pid) else (s, [])

def handle : PartyEvent → Action Party WindowOutput
  | .playerIn pid name => fun s => s.playerIn pid name
  | .playerOut pid => fun s => s.playerOut pid
  | .deliverToPhone pid => fun s => s.deliverToPhone pid
  | .deliverToConsole pid => fun s => s.deliverToConsole pid
  | .selectCell pid x y => fun s =>
      s.onPhone pid fun phone => phone.outgoingMessage fun box => box.cellSelected x y
  | .clickButton pid => fun s =>
      s.onPhone pid fun phone => phone.outgoingMessage AppBox.buttonClicked
  | .selectGeneralAction pid id => fun s =>
      s.onPhone pid fun phone => phone.selectGeneralAction id
  | .slideFinished => fun s => s.act s.phones Window.slideFinished
  | .joinviewFaded => fun s => s.act s.phones Window.joinviewFaded
  | .fadeFinished => fun s => s.act s.phones Window.fadeFinished

def step (event : PartyEvent) : Action Party WindowOutput := fun s =>
  if s.running then handle event s else (s, [])

def machine : Machine Party PartyEvent WindowOutput Empty := Action.machine start step

abbrev History := List (Step Party PartyEvent WindowOutput)

end Party

end GBerry.Games.TicTacToe

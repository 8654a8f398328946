import GBerry.Common.Json
import GBerry.Foundation.Fallible
import GBerry.Mobile.UserModel

/-!
# Logging in and out

`LoginModel` with the invocations that it has in flight.  A change of the current
user is a signal of `UserModel` that `LoginModel` answers with a logout while the
signal is being delivered.  The application may end at any time; what is left is
the two ini files, on which it starts again.
-/

namespace GBerry.Mobile

open GBerry.Foundation GBerry.Common

def USEREMAIL_KEY : String := "user_email"
def USERTOKEN_KEY : String := "user_token"
def PRIVATETOKEN_KEY : String := "private_token"

inductive HttpOperation where
  | post (invocationPath : String) (document : JsonObject)
  | get (invocationPath : String) (parameters : List (String × String))

/-- The two callbacks that are connected to an invocation. -/
inductive Purpose where
  | login
  | logout
  deriving DecidableEq

structure RESTInvocation where
  purpose : Purpose
  operation : HttpOperation

inductive LoginModelSignal where
  | isLoggedInChanged
  | loginOk
  | loginFailed (errorMessage : String)
  | logoutOk
  | logoutFailed (errorMessage : String)
  deriving DecidableEq

inductive MobileOutput where
  | userModel (signal : UserModelSignal)
  | loginModel (signal : LoginModelSignal)
  | execute (id : Nat) (invocation : RESTInvocation)

structure LoginModel where
  ini : QSettings
  loggedIn : Bool
  currentUserEmail : String
  currentUserToken : String
  currentPrivateToken : String
  pendingLogin : Bool
  pendingLogout : Bool

namespace LoginModel

def initial (ini : QSettings) : LoginModel where
  ini := ini
  loggedIn := false
  currentUserEmail := ""
  currentUserToken := ""
  currentPrivateToken := ""
  pendingLogin := false
  pendingLogout := false

def construct (userModel : UserModel) (ini : QSettings) :
    Except UserModelFault LoginModel :=
  if ini.fileExists then
    let ini := ensureVersion ini
    if ini.contains USEREMAIL_KEY && ini.contains USERTOKEN_KEY &&
        ini.contains PRIVATETOKEN_KEY then
      let userEmail := ini.value USEREMAIL_KEY
      match userModel.currentEmail with
      | .error fault => .error fault
      | .ok email =>
          if email = "" then .ok (initial ini)
          else if email = userEmail then
            .ok { initial ini with
              currentUserEmail := userEmail
              currentUserToken := ini.value USERTOKEN_KEY
              currentPrivateToken := ini.value PRIVATETOKEN_KEY
              loggedIn := true }
          else .ok (initial ini)
    else .ok (initial ini)
  else .ok (initial ini)

def saveData (m : LoginModel) : LoginModel :=
  { m with ini := ((m.ini.setValue USEREMAIL_KEY m.currentUserEmail).setValue
      USERTOKEN_KEY m.currentUserToken).setValue PRIVATETOKEN_KEY m.currentPrivateToken }

def userToken (m : LoginModel) : String := m.currentUserToken

end LoginModel

structure MobileClient where
  userModel : UserModel
  loginModel : LoginModel
  invocations : QMap Nat RESTInvocation
  made : Nat

abbrev MobileProgram := Fallible MobileClient MobileOutput UserModelFault

/-- `data` is what the invocation received, and `message` the text of its result. -/
inductive MobileEvent (β : Type) where
  | login
  | logout
  | selectCurrentUser (userName : String)
  | unselectCurrentUser
  | setUser (userInfo : UserInfo)
  | finishedOK (id : Nat) (data : β)
  | finishedError (id : Nat) (message : String)
  | restart

namespace MobileClient

def change (f : LoginModel → LoginModel) : MobileProgram :=
  .update fun c => { c with loginModel := f c.loginModel }

def emit (signals : List LoginModelSignal) : MobileProgram :=
  .emit (signals.map .loginModel)

def execute (invocation : RESTInvocation) : MobileProgram := fun c =>
  .ok ({ c with
      invocations := c.invocations.insert c.made invocation
      made := c.made + 1 },
    [.execute c.made invocation])

def currentUserName (c : MobileClient) : Except UserModelFault String :=
  c.userModel.currentUserName

def currentEmail (c : MobileClient) : Except UserModelFault String :=
  c.userModel.currentEmail

def currentPassword (c : MobileClient) : Except UserModelFault String :=
  c.userModel.currentPassword

def loginInvocation (email password : String) : RESTInvocation where
  purpose := .login
  operation := .post "/user/login" [("email", .string email), ("password", .string password)]

def logoutInvocation (privateToken : String) : RESTInvocation where
  purpose := .logout
  operation := .get "/user/logout" [("private_token", privateToken)]

def doLogin : MobileProgram :=
  (change fun m => { m with pendingLogin := false }).andThen
    (.reading currentEmail fun email =>
      .reading currentPassword fun password => execute (loginInvocation email password))

def doPendingLogin : MobileProgram := fun c =>
  if c.loginModel.pendingLogin then doLogin c else .ok (c, [])

def loginInvocationFinishedError (errorString : String) : MobileProgram :=
  (change fun m => { m with loggedIn := false }).andThen
    (emit [.isLoggedInChanged, .loginFailed errorString])

/-- A failed logout is reported as a failed login. -/
def logoutInvocationFinishedError (errorString : String) : MobileProgram :=
  (change fun m => { m with loggedIn := false, pendingLogout := false }).andThen
    ((emit [.isLoggedInChanged, .loginFailed errorString]).andThen doPendingLogin)

section Replies

variable {β : Type} [QByteArray β]

def loginInvocationFinishedOk (data : β) : MobileProgram :=
  match QByteArray.fromJson data with
  | none => loginInvocationFinishedError "Failed to parse login respose"
  | some json =>
      if (JsonObject.value json "result").toString ≠ "ok" then
        loginInvocationFinishedError "Login result not ok"
      else
        .reading currentEmail fun email =>
          (change fun m => LoginModel.saveData { m with
            currentUserToken := (JsonObject.value json "user_token").toString
            currentPrivateToken := (JsonObject.value json "private_token").toString
            currentUserEmail := email }).andThen
          ((change fun m => { m with loggedIn := true }).andThen
            (emit [.isLoggedInChanged, .loginOk]))

def logoutInvocationFinishedOk (data : β) : MobileProgram :=
  (change fun m => { m with pendingLogout := false }).andThen
    (match QByteArray.fromJson data with
    | none => logoutInvocationFinishedError "Failed to parse logout response"
    | some json =>
        if (JsonObject.value json "result").toString ≠ "ok" then
          logoutInvocationFinishedError "Logout result not ok"
        else
          (change fun m => { m with loggedIn := false }).andThen
            ((emit [.isLoggedInChanged, .logoutOk]).andThen doPendingLogin))

end Replies

/-- Without a private token there is no invocation, and the logout stays pending. -/
def logout : MobileProgram := fun c =>
  if c.loginModel.loggedIn && !c.loginModel.pendingLogout then
    let privateToken := c.loginModel.currentPrivateToken
    let cleared := { c with loginModel := LoginModel.saveData { c.loginModel with
      pendingLogout := true
      currentPrivateToken := ""
      currentUserToken := ""
      currentUserEmail := "" } }
    if privateToken = "" then .ok (cleared, [])
    else execute (logoutInvocation privateToken) cleared
  else .ok (c, [])

/-- Two user names are there for tests. -/
def login : MobileProgram :=
  .reading currentUserName fun userName =>
    if userName = "fail" then
      (change fun m => { m with loggedIn := false }).andThen
        (emit [.isLoggedInChanged, .loginFailed "test failure"])
    else if userName = "login" then
      (change fun m => { m with loggedIn := true }).andThen
        (emit [.isLoggedInChanged, .loginOk])
    else fun c =>
      if c.loginModel.loggedIn then
        ((change fun m => { m with pendingLogin := true }).andThen logout) c
      else doLogin c

def onCurrentUserNameChanged : MobileProgram := fun c =>
  if !c.loginModel.pendingLogout then logout c else .ok (c, [])

def deliver (signal : UserModelSignal) : MobileProgram :=
  (Fallible.emit [.userModel signal]).andThen
    (match signal with
    | .currentUserNameChanged => onCurrentUserNameChanged
    | _ => .skip)

def changeUser (operation : UserModel → UserModel × List UserModelSignal) : MobileProgram :=
  fun c =>
    let (userModel, signals) := operation c.userModel
    Fallible.forEach deliver signals { c with userModel := userModel }

def start (userModel : UserModel) (loginIni : QSettings) :
    Except UserModelFault MobileClient :=
  match LoginModel.construct userModel loginIni with
  | .error fault => .error fault
  | .ok loginModel =>
      .ok { userModel := userModel, loginModel := loginModel, invocations := ∅, made := 0 }

/-- Only the files survive, and invocations in flight are gone. -/
def restart : MobileProgram := fun c =>
  match start (UserModel.load c.userModel.ini) c.loginModel.ini with
  | .error fault => .error fault
  | .ok c' => .ok (c', [])

def finish (id : Nat) (callback : Purpose → MobileProgram) : MobileProgram := fun c =>
  match c.invocations[id]? with
  | none => .ok (c, [])
  | some invocation =>
      callback invocation.purpose { c with invocations := c.invocations.erase id }

section Machine

variable {β : Type} [QByteArray β]

def finishedOK (data : β) : Purpose → MobileProgram
  | .login => loginInvocationFinishedOk data
  | .logout => logoutInvocationFinishedOk data

def finishedError (message : String) : Purpose → MobileProgram
  | .login => loginInvocationFinishedError message
  | .logout => logoutInvocationFinishedError message

def handle : MobileEvent β → MobileProgram
  | .login => login
  | .logout => logout
  | .selectCurrentUser userName => changeUser fun m => (m.selectCurrentUser userName).1
  | .unselectCurrentUser => changeUser UserModel.unselectCurrentUser
  | .setUser userInfo => changeUser fun m => m.setUser userInfo
  | .finishedOK id data => finish id (finishedOK data)
  | .finishedError id message => finish id (finishedError message)
  | .restart => restart

variable (β) in
def machine (init : MobileClient) :
    Machine MobileClient (MobileEvent β) MobileOutput UserModelFault :=
  Fallible.machine init handle

end Machine

end MobileClient

end GBerry.Mobile

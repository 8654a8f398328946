import GBerry.Common.QMap

/-!
# `ApplicationRegistry`

Identification codes of launched applications, and the application that
validated each connection.  A code created for a launch is used up when it is
matched; a fixed code is not.
-/

namespace GBerry.Server

open GBerry.Common

structure ApplicationRegistry where
  appIdByFixedCode : QMap String String
  appIdByCode : QMap String String
  appIdByConnectionId : QMap Int String

namespace ApplicationRegistry

def start : ApplicationRegistry where
  appIdByFixedCode := ∅
  appIdByCode := ∅
  appIdByConnectionId := ∅

def insertFixedIdentificationCode (r : ApplicationRegistry) (appId code : String) :
    ApplicationRegistry :=
  { r with appIdByFixedCode := r.appIdByFixedCode.insert code appId }

/-- `elapsed` is what the clock says; the code is its decimal text. -/
def createIdentificationCode (r : ApplicationRegistry) (appId : String)
    (elapsed : Int) : ApplicationRegistry × String :=
  let code := toString elapsed
  ({ r with appIdByCode := r.appIdByCode.insert code appId }, code)

def matchCodeToApplication (r : ApplicationRegistry) (code : String) :
    String × ApplicationRegistry :=
  match r.appIdByCode[code]? with
  | some appId => (appId, { r with appIdByCode := r.appIdByCode.erase code })
  | none =>
      match r.appIdByFixedCode[code]? with
      | some appId => (appId, r)
      | none => ("", r)

def createLink (r : ApplicationRegistry) (connectionId : Int) (applicationId : String) :
    ApplicationRegistry :=
  { r with
    appIdByConnectionId := r.appIdByConnectionId.insert connectionId applicationId }

def removeLink (r : ApplicationRegistry) (connectionId : Int) : ApplicationRegistry :=
  { r with appIdByConnectionId := r.appIdByConnectionId.erase connectionId }

def applicationIdByConnectionId (r : ApplicationRegistry) (connectionId : Int) : String :=
  (r.appIdByConnectionId[connectionId]?).getD ""

end ApplicationRegistry

end GBerry.Server

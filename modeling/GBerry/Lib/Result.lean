import GBerry.Common.QMap

/-!
# Results

A `Result` holds the errors of an operation, the reasons for them, the metas that
their texts refer to, and the results of the operations that it consists of.  Texts
that can be localized are marked by the prefix `TXT_`.
-/

namespace GBerry.Lib

open GBerry.Common

def localizable (text : String) : Bool := "TXT_".toList.isPrefixOf text.toList

def unmarked (text : String) : String :=
  if localizable text then String.ofList (text.toList.drop 4) else text

def l10nKey (text : String) : String := if localizable text then text else ""

structure Error where
  code : Int
  name : String
  text : String
  l10nContext : String
  deriving DecidableEq

namespace Error

def make (code : Int) (name text : String) : Error := ⟨code, name, text, "Errors"⟩

def localizable (err : Error) : Bool := GBerry.Lib.localizable err.text
def description (err : Error) : String := unmarked err.text
def errorL10nKey (err : Error) : String := l10nKey err.text
def errorL10nContext (err : Error) : String := err.l10nContext

end Error

structure Meta where
  key : String
  value : String
  l10nContext : String
  deriving DecidableEq

namespace Meta

def make (key value : String) : Meta := ⟨key, value, "Errors"⟩

def initial : Meta := make "" ""

def localizable (m : Meta) : Bool := GBerry.Lib.localizable m.value
def metaString (m : Meta) : String := unmarked m.value
def l10nKey (m : Meta) : String := GBerry.Lib.l10nKey m.value

end Meta

structure Reason where
  code : String
  text : String
  l10nContext : String
  metas : QMap String Meta

namespace Reason

def initial : Reason := ⟨"", "", "", ∅⟩

def localizable (reason : Reason) : Bool := GBerry.Lib.localizable reason.text
def description (reason : Reason) : String := unmarked reason.text
def l10nKey (reason : Reason) : String := GBerry.Lib.l10nKey reason.text
def hasMeta (reason : Reason) (key : String) : Bool := reason.metas.contains key

def metaOf (reason : Reason) (key : String) : Meta :=
  (reason.metas[key]?).getD Meta.initial

def addMeta (reason : Reason) (m : Meta) : Reason :=
  { reason with metas := reason.metas.insert m.key m }

end Reason

structure Result where
  errors : List Error
  metas : QMap String Meta
  reasons : List Reason
  subresults : List Result

namespace Result

def empty : Result := ⟨[], ∅, [], []⟩

def reasonFromCode (code description : String) : Reason := ⟨code, description, "Errors", ∅⟩

def reasonFromDesc (description : String) : Reason := ⟨"", description, "Errors", ∅⟩

mutual

def hasErrors : Result → Bool
  | ⟨errors, _, _, subresults⟩ => !errors.isEmpty || anyHasErrors subresults

def anyHasErrors : List Result → Bool
  | [] => false
  | result :: rest => hasErrors result || anyHasErrors rest

end

section Accessors

variable (result : Result)

def hasMeta (key : String) : Bool := result.metas.contains key

def metaOf (key : String) : Meta := (result.metas[key]?).getD Meta.initial

def addError (err : Error) : Result := { result with errors := result.errors ++ [err] }

def addMeta (m : Meta) : Result := { result with metas := result.metas.insert m.key m }

def addReason (reason : Reason) : Result :=
  { result with reasons := result.reasons ++ [reason] }

def addResult (subresult : Result) : Result :=
  { result with subresults := result.subresults ++ [subresult] }

end Accessors

end Result

end GBerry.Lib

import GBerry.Common.Json
import GBerry.Foundation.Template
import GBerry.Lib.Result

/-!
# `ResultMessageFormatter`

The messages of a result for developers and for end users, and its JSON form.  Texts
are lists of characters here.  The translation of texts belongs to Qt and is left to a
translator.
-/

namespace GBerry.Lib

open GBerry.Common
open GBerry.Foundation

/-- `QCoreApplication::translate`, and the member `_removeTxtPrefix`. -/
structure Translator where
  translate : String → String → String
  removeTxtPrefix : Bool

/-- The metas that the texts of a reason refer to, or with the empty reason those of errors. -/
structure Metas where
  result : Result
  reason : Reason

namespace Metas

def ofResult (result : Result) : Metas := ⟨result, .initial⟩

def hasMeta (metas : Metas) (key : String) : Bool :=
  metas.result.hasMeta key || metas.reason.hasMeta key

def metaOf (metas : Metas) (key : String) : Meta :=
  if metas.reason.hasMeta key then metas.reason.metaOf key else metas.result.metaOf key

end Metas

section Placeholders

def isKeyChar (c : Char) : Bool := c.isAlphanum || c == '_'

def placeholder (key : List Char) : List Char := '#' :: '{' :: (key ++ ['}'])

def placeholderAt : List Char → Option (List Char)
  | '#' :: '{' :: rest =>
      match rest.takeWhile isKeyChar, rest.dropWhile isKeyChar with
      | c :: key, '}' :: _ => some (c :: key)
      | _, _ => none
  | _ => none

/-- `QRegExp::indexIn` for placeholders, with the captured key. -/
def indexIn : List Char → Option (Nat × List Char)
  | [] => none
  | c :: rest =>
      match placeholderAt (c :: rest) with
      | some key => some (0, key)
      | none => (indexIn rest).map fun (index, key) => (index + 1, key)

def matchedLength (key : List Char) : Nat := key.length + 3

end Placeholders

namespace ResultMessageFormatter

section Source

variable (tr : Translator)

def translate (ctx msg : String) : List Char :=
  let str := tr.translate ctx msg
  if tr.removeTxtPrefix && localizable str then str.toList.drop 4 else str.toList

def metaStr (localize : Bool) (m : Meta) : List Char :=
  if localize && m.localizable then translate tr m.l10nContext m.l10nKey
  else m.metaString.toList

/-- One pass of the loop: the position in the message, and the copy that is worked on. -/
def expandPass (msg : List Char) (metas : Metas) (localize : Bool) :
    Nat × List Char → Option (Nat × List Char)
  | (pos, m) =>
      match indexIn (msg.drop pos) with
      | none => none
      | some (index, key) =>
          some (pos + index + matchedLength key,
            if metas.hasMeta (String.ofList key) then
              replaceAll (placeholder key)
                (metaStr tr localize (metas.metaOf (String.ofList key))) m
            else m)

def expandLoop (msg : List Char) (metas : Metas) (localize : Bool) :
    Nat → Nat × List Char → Option (List Char)
  | 0, _ => none
  | fuel + 1, s =>
      match expandPass tr msg metas localize s with
      | none => some s.2
      | some s' => expandLoop msg metas localize fuel s'

/-- The message has room for fewer placeholders than it has characters. -/
def expand (msg : List Char) (metas : Metas) (localize : Bool) : List Char :=
  (expandLoop tr msg metas localize (msg.length + 1) (0, msg)).getD []

def endsWith (c : Char) (msg : List Char) : Bool := msg.getLast? == some c

def spaced (msg : List Char) : List Char := if msg.isEmpty then msg else msg ++ [' ']

def replaceLast (msg : List Char) (c : Char) : List Char := msg.dropLast ++ [c]

section Developer

def developerError (metas : Metas) (msg : List Char) (err : Error) : List Char :=
  let errmsg := expand tr err.description.toList metas false
  let msg := spaced msg ++ errmsg
  if endsWith '.' errmsg then msg else msg ++ ['.']

def developerReason (result : Result) (msg : List Char) (reason : Reason) : List Char :=
  let errmsg := expand tr reason.description.toList ⟨result, reason⟩ false
  let msg := spaced msg ++ errmsg
  if endsWith '.' errmsg then replaceLast msg ',' else msg ++ [',']

def developerOwn (result : Result) : List Char :=
  let msg := result.errors.foldl (developerError tr (.ofResult result)) []
  if result.reasons.isEmpty then msg
  else
    let msg := if endsWith '.' msg then replaceLast msg ':' else msg
    let msg := result.reasons.foldl (developerReason tr result) msg
    if endsWith ',' msg then replaceLast msg '.' else msg

def appendSubmessage (msg submsg : List Char) : List Char :=
  if submsg.isEmpty then msg else spaced msg ++ submsg

mutual

def createDeveloperMessageFrom : Result → List Char
  | ⟨errors, metas, reasons, subresults⟩ =>
      if errors.isEmpty then "No errors.".toList
      else
        appendDeveloperMessages (developerOwn tr ⟨errors, metas, reasons, subresults⟩)
          subresults

def appendDeveloperMessages : List Char → List Result → List Char
  | msg, [] => msg
  | msg, subresult :: rest =>
      appendDeveloperMessages
        (appendSubmessage msg (createDeveloperMessageFrom subresult)) rest

end

end Developer

section EndUser

def translateError (err : Error) (result : Result) : List Char :=
  expand tr (translate tr err.errorL10nContext err.errorL10nKey) (.ofResult result) true

def translateReason (reason : Reason) (result : Result) : List Char :=
  expand tr (translate tr reason.l10nContext reason.l10nKey) ⟨result, reason⟩ true

def endUserError (result : Result) (msg : List Char) (err : Error) : List Char :=
  let msg := spaced msg
  if err.localizable then
    let errmsg := translateError tr err result
    let msg := msg ++ errmsg
    if endsWith '.' errmsg then msg else msg ++ ['.']
  else msg

def endUserReason (result : Result) : List Char × Bool → Reason → List Char × Bool
  | (msg, firstLocalizableFound), reason =>
      let msg := if firstLocalizableFound then spaced msg else msg
      if reason.localizable then
        let msg :=
          if !firstLocalizableFound && endsWith '.' msg then replaceLast msg ':' ++ [' ']
          else msg
        let errmsg := translateReason tr reason result
        let msg := msg ++ errmsg
        (if endsWith '.' errmsg then msg else msg ++ ['.'], true)
      else (msg, firstLocalizableFound)

def endUserOwn (result : Result) : List Char :=
  let msg := result.errors.foldl (endUserError tr result) []
  (result.reasons.foldl (endUserReason tr result) (msg, false)).1

mutual

def createEndUserMessageFrom : Result → List Char
  | ⟨errors, metas, reasons, subresults⟩ =>
      if errors.isEmpty then translate tr "Errors" "TXT_No errors."
      else
        appendEndUserMessages (endUserOwn tr ⟨errors, metas, reasons, subresults⟩) subresults

def appendEndUserMessages : List Char → List Result → List Char
  | msg, [] => msg
  | msg, subresult :: rest =>
      appendEndUserMessages (appendSubmessage msg (createEndUserMessageFrom subresult)) rest

end

end EndUser

section JsonForm

def errorJson (err : Error) : Json :=
  .object [("code", .number err.code), ("name", .string err.name)]

def reasonJson (reason : Reason) : Json :=
  .object ((if reason.code = "" then [] else [("code", .string reason.code)]) ++
    [("description", .string reason.description)])

def metaJson (m : Meta) : Json :=
  .object [("key", .string m.key), ("value", .string m.value)]

def arrayMember (key : String) (values : List Json) : JsonObject :=
  if values.isEmpty then [] else [(key, .array values)]

mutual

def jsonFrom : Result → JsonObject
  | ⟨errors, metas, reasons, subresults⟩ =>
      [("error_message", .string (String.ofList
          (createEndUserMessageFrom tr ⟨errors, metas, reasons, subresults⟩))),
        ("error_string", .string (String.ofList
          (createDeveloperMessageFrom tr ⟨errors, metas, reasons, subresults⟩)))] ++
        (arrayMember "errors" (errors.map errorJson) ++
          (arrayMember "metas" (metas.values.map metaJson) ++
            (arrayMember "reasons" (reasons.map reasonJson) ++
              arrayMember "subresults" (jsonOfSubresults subresults))))

def jsonOfSubresults : List Result → List Json
  | [] => []
  | subresult :: rest => .object (jsonFrom subresult) :: jsonOfSubresults rest

end

end JsonForm

def createDeveloperMessage (result : Result) : String :=
  String.ofList (createDeveloperMessageFrom tr result)

def createEndUserMessage (result : Result) : String :=
  String.ofList (createEndUserMessageFrom tr result)

def toJson (result : Result) : JsonObject := jsonFrom tr result

end Source

end ResultMessageFormatter

end GBerry.Lib

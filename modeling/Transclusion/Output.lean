import Transclusion.Failure
import Transclusion.Json.Printer

/-!
This module contains the forms of a command's outcome: plain text, or one JSON text for programs to
read.
-/

namespace Transclusion

structure Output where
  json : Bool
  indent : Nat := 2
  deriving DecidableEq, Repr

namespace Output

def line (text : Text) : Text :=
  text ++ ['\n']

def withFields (fields more : List (Text × Value)) : Value :=
  .ofFields (OrderedMap.ofList (fields ++ more)).entries

variable [Surrogates]

def success (o : Output) (data : List (Text × Value)) (message status : Text) : Text :=
  if o.json then line (Json.print o.indent (withFields [("status".toList, .text status)] data))
  else line message

def failure (o : Output) (f : Failure) (message code : Text) : Text :=
  let message := if message.isEmpty then f.message else message
  if o.json then
    let details : List (Text × Value) :=
      if f.code?.isSome then [("details".toList, f.report)] else []
    line (Json.print o.indent (.ofFields
      ([("error".toList, .text code), ("message".toList, .text message)] ++ details)))
  else line ("Error: " ++ message)

end Output
end Transclusion

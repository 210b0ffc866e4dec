import Transclusion.Directive.Basic
import Transclusion.OrderedMap

/-!
This module contains the parameters of a directive: three keywords, each with the token after it as
its value, and the bindings `name=value`. Tokens are separated by blanks, and what stands in double
quotes belongs to one token.
-/

namespace Transclusion

structure Parameters where
  name : Option Text
  variablesFile : Option Text
  condition : Option Text
  bindings : OrderedMap Text Text

namespace Parameters

def isSeparator (c : Char) : Bool :=
  c == ' ' || c == '\t' || c == '\r' || c == '\n'

def quotedTokens? (text : Text) : Option (List Text) :=
  go false none text
where
  go : Bool → Option Text → Text → Option (List Text)
    | true, _, [] => none
    | false, token, [] => some (token.map List.reverse).toList
    | quoted, token, c :: rest =>
      if c = '"' then go (!quoted) (some (token.getD [])) rest
      else if !quoted && isSeparator c then
        match token with
        | some token => (go false none rest).map (token.reverse :: ·)
        | none => go false none rest
      else go quoted (some (c :: token.getD [])) rest

def unquote (text : Text) : Text :=
  if 2 ≤ text.length && text.head? == some '"' && text.getLast? == some '"' then
    (text.drop 1).dropLast
  else text

/-- The tokens of a directive's parameters. Where the quotes are unbalanced the text is cut at all
white space instead, and a token loses the quotes around it. -/
def tokenize (text : Text) : List Text :=
  match quotedTokens? (Text.strip text) with
  | some tokens => tokens
  | none => (Text.words text).map unquote

def valueAfter? (keyword : Text) : List Text → Option Text
  | [] => none
  | token :: rest => if token = keyword then rest.head? else valueAfter? keyword rest

def binding? (token : Text) : Option (Text × Text) :=
  match token.splitOn '=' with
  | name :: value :: _ => some (name, unquote value)
  | _ => none

def ofTokens (tokens : List Text) : Parameters where
  name := valueAfter? "include" tokens
  variablesFile := valueAfter? "variables" tokens
  condition := valueAfter? "where" tokens
  bindings := .ofList (tokens.filterMap binding?)

def parse (text : Text) : Parameters :=
  ofTokens (tokenize text)

end Parameters
end Transclusion

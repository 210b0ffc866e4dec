import Transclusion.Text.Digit
import Transclusion.Text.Quoted

/-!
This module contains the reading of command lines: options with one or two hyphens in front, which
may stand anywhere and be shortened as long as it is clear what is meant, and one operand. After a
separator `--` nothing is an option.
-/

namespace Transclusion
namespace CommandLine

inductive Effect
  | help
  | version
  | flag
  | argument
  deriving DecidableEq, Repr

structure OptionForm (κ : Type) where
  key : κ
  names : List Text
  effect : Effect

inductive Operand
  | single
  | rest
  deriving DecidableEq, Repr

structure Grammar (κ : Type) where
  program : Text
  options : List (OptionForm κ)
  operand : Operand
  operandName : Text

inductive Item (κ : Type)
  | argument (text : Text)
  | separator
  | option (text : Text) (form : OptionForm κ) (name : Text) (attached : Option Text)
  | unknown (text : Text)

def separatorText : Text := "--"

def Item.text {κ : Type} : Item κ → Text
  | .argument text | .option text _ _ _ | .unknown text => text
  | .separator => separatorText

inductive Stop
  | help (program : Text)
  | version
  | misuse (program message : Text)
  deriving DecidableEq, Repr

structure Parsed (κ : Type) where
  settings : List (κ × Text) := []
  operand : Option (List Text) := none
  extras : List Text := []

def Parsed.addExtras {κ : Type} (p : Parsed κ) (texts : List Text) : Parsed κ :=
  { p with extras := p.extras ++ texts }

namespace Grammar

variable {κ : Type}

def names (g : Grammar κ) : List (Text × OptionForm κ) :=
  g.options.flatMap fun form => form.names.map (·, form)

def find? (g : Grammar κ) (name : Text) : Option (OptionForm κ) :=
  g.names.lookup name

def isNegativeNumber (arg : Text) : Bool :=
  let number := if arg.getLast? == some '\n' then arg.dropLast else arg
  match number with
  | '-' :: digits =>
    match digits.splitOn '.' with
    | [whole] => !whole.isEmpty && whole.all Text.isDigit
    | [whole, fraction] => whole.all Text.isDigit && !fraction.isEmpty && fraction.all Text.isDigit
    | _ => false
  | _ => false

def candidates (g : Grammar κ) (arg : Text) : List (Text × OptionForm κ × Option Text) :=
  if separatorText.isPrefixOf arg then
    let (stem, attached) : Text × Option Text :=
      match Text.cutAt? ['='] arg with
      | some (stem, text) => (stem, some text)
      | none => (arg, none)
    g.names.filterMap fun (name, form) =>
      if stem.isPrefixOf name then some (name, form, attached) else none
  else
    g.names.filterMap fun (name, form) =>
      if name = arg.take 2 then some (name, form, some (arg.drop 2))
      else if arg.isPrefixOf name then some (name, form, none)
      else none

def recognise (g : Grammar κ) (arg : Text) : Except Text (Item κ) :=
  if arg.head? != some '-' || arg.length = 1 then .ok (.argument arg)
  else
    match g.find? arg with
    | some form => .ok (.option arg form arg none)
    | none =>
      match withEquals? with
      | some (form, name, text) => .ok (.option arg form name (some text))
      | none =>
        match g.candidates arg with
        | [(name, form, attached)] => .ok (.option arg form name attached)
        | [] =>
          if isNegativeNumber arg || arg.contains ' ' then .ok (.argument arg)
          else .ok (.unknown arg)
        | several =>
          .error ("ambiguous option: " ++ arg ++ " could match " ++
            (", " : Text).intercalate (several.map (·.1)))
where
  withEquals? : Option (OptionForm κ × Text × Text) := do
    let (name, text) ← Text.cutAt? ['='] arg
    return (← g.find? name, name, text)

def items (g : Grammar κ) : List Text → Except Text (List (Item κ))
  | [] => .ok []
  | arg :: rest => do
    if arg = separatorText then return .separator :: rest.map .argument
    else
      let item ← g.recognise arg
      return item :: (← items g rest)

def misused (form : OptionForm κ) (problem : Text) : Text :=
  "argument " ++ (['/'] : Text).intercalate form.names ++ ": " ++ problem

def attachedArgument (text : Text) : Text :=
  if text = separatorText then [] else text

/-- The options that one argument stands for if a text is attached to the name of the first, with
their arguments. The letters behind one hyphen are options of their own. -/
def attachedOptions (g : Grammar κ) (form : OptionForm κ) (name : Text) :
    Text → Except Text (List (OptionForm κ × Text))
  | [] => if form.effect = .argument then .ok [(form, [])] else ignored []
  | c :: rest =>
    if form.effect = .argument then .ok [(form, attachedArgument (c :: rest))]
    else if separatorText.isPrefixOf name then ignored (c :: rest)
    else
      match g.find? ['-', c] with
      | none => ignored (c :: rest)
      | some next => do
        let options ←
          if rest.isEmpty then .ok [(next, [])] else attachedOptions g next ['-', c] rest
        return (form, []) :: options
where
  ignored (text : Text) : Except Text (List (OptionForm κ × Text)) :=
    .error (misused form ("ignored explicit argument " ++ Text.quote text))

def settle (g : Grammar κ) (p : Parsed κ) : List (OptionForm κ × Text) → Except Stop (Parsed κ)
  | [] => .ok p
  | (form, text) :: rest =>
    match form.effect with
    | .help => .error (.help g.program)
    | .version => .error .version
    | _ => settle g { p with settings := p.settings ++ [(form.key, text)] } rest

def parseItems (g : Grammar κ) (p : Parsed κ) : List (Item κ) → Except Stop (Parsed κ)
  | [] => .ok p
  | .option _ form name attached :: rest =>
    match attached, form.effect, rest with
    | some attached, _, rest =>
      match attachedOptions g form name attached with
      | .error problem => .error (.misuse g.program problem)
      | .ok options => do parseItems g (← settle g p options) rest
    | none, .argument, .argument text :: rest => do
      parseItems g (← settle g p [(form, text)]) rest
    | none, .argument, _ =>
      .error (.misuse g.program (misused form "expected one argument"))
    | none, _, rest => do
      parseItems g (← settle g p [(form, [])]) rest
  | .unknown text :: rest => parseItems g (p.addExtras [text]) rest
  | .argument text :: rest =>
    if p.operand.isSome then parseItems g (p.addExtras [text]) rest
    else
      match g.operand, rest with
      | .rest, rest => .ok { p with operand := some (text :: rest.map Item.text) }
      | .single, .separator :: rest => parseItems g { p with operand := some [text] } rest
      | .single, rest => parseItems g { p with operand := some [text] } rest
  | .separator :: rest =>
    match p.operand, g.operand, rest with
    | none, .rest, .argument text :: rest =>
      .ok { p with operand := some (separatorText :: text :: rest.map Item.text) }
    | none, .single, .argument text :: rest => parseItems g { p with operand := some [text] } rest
    | _, _, rest => parseItems g (p.addExtras [separatorText]) rest

def parse (g : Grammar κ) (args : List Text) : Except Stop (Parsed κ) := do
  match g.items args with
  | .error problem => throw (.misuse g.program problem)
  | .ok items =>
    let p ← g.parseItems {} items
    if g.operand = .single && p.operand.isNone then
      throw (.misuse g.program ("the following arguments are required: " ++ g.operandName))
    return p

end Grammar
end CommandLine
end Transclusion

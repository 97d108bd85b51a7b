import Flowchart.Command.Usage
import Flowchart.Number.Literal

/-!
# Reading arguments

Arguments are classified one by one, then read from left to right. A long
option may be abbreviated as long as only one name fits, and a value may be
attached to its option or follow it. After the first `--` no argument is an
option, and a `--` attached to an option gives it no value. Asking for help
ends the reading at once.
-/

namespace Flowchart.Command

/-! ## Classification -/

/-- The use of an option under one of its names, with what is attached to the name. -/
structure Use where
  switch : Switch
  name : String
  attached? : Option (List Char)
  deriving DecidableEq, Repr

/-- What an argument is taken for. -/
inductive Item where
  | plain (text : String)
  | divider
  | option (use : Use)
  | unknown (text : String)
  deriving DecidableEq, Repr

def findSwitch? (ss : List Switch) (name : String) : Option Switch :=
  ss.find? (·.names.contains name)

/-- The text before the first equals sign, and the value behind it. -/
def splitEquals (cs : List Char) : List Char × Option (List Char) :=
  (cs.takeWhile (· != '='), (cs.dropWhile (· != '=')).tail?)

/-- All uses that an argument which is no name itself may stand for. -/
def candidates (ss : List Switch) (cs : List Char) : List Use :=
  match cs with
  | '-' :: '-' :: _ =>
    let (start, attached?) := splitEquals cs
    ss.flatMap fun s =>
      (s.names.filter fun name => start.isPrefixOf name.toList).map fun name =>
        ⟨s, name, attached?⟩
  | '-' :: c :: value =>
    let name := String.ofList ['-', c]
    (findSwitch? ss name).toList.map fun s => ⟨s, name, some value⟩
  | _ => []

def allDigits (cs : List Char) : Bool := cs.all fun c => (Text.digit? c).isSome

/-- A minus sign and digits, of which some may stand before a point. -/
def isNegativeNumber (cs : List Char) : Bool :=
  match cs with
  | '-' :: cs =>
    let cs := if cs.getLast? = some '\n' then cs.dropLast else cs
    let whole := cs.takeWhile (· != '.')
    match cs.dropWhile (· != '.') with
    | [] => !whole.isEmpty && allDigits whole
    | _ :: fraction => allDigits whole && !fraction.isEmpty && allDigits fraction
  | _ => false

/-- Classifies an argument before the divider. -/
def classify (ss : List Switch) (argument : String) : Except UsageFault Item :=
  let cs := argument.toList
  if cs.head? != some '-' then .ok (.plain argument)
  else
    match findSwitch? ss argument with
    | some s => .ok (.option ⟨s, argument, none⟩)
    | none =>
      if cs.length = 1 then .ok (.plain argument)
      else
        let (start, attached?) := splitEquals cs
        match findSwitch? ss (String.ofList start) with
        | some s => .ok (.option ⟨s, String.ofList start, attached?⟩)
        | none =>
          match candidates ss cs with
          | [use] => .ok (.option use)
          | [] =>
            if isNegativeNumber cs || cs.contains ' ' then .ok (.plain argument)
            else .ok (.unknown argument)
          | uses => .error (.ambiguous argument (uses.map (·.name)))

def classifyAll (ss : List Switch) : List String → Except UsageFault (List Item)
  | [] => .ok []
  | argument :: rest =>
    if argument = "--" then .ok (.divider :: rest.map .plain)
    else do
      let item ← classify ss argument
      return item :: (← classifyAll ss rest)

/-! ## Bundles of short options -/

/-- The end of a bundle: an option with its value, or one whose value has to follow. -/
inductive BundleEnd where
  | valued (s : Switch) (value : String)
  | awaiting (s : Switch)
  deriving DecidableEq, Repr

/-- Reads what is attached to an option. An option without a value may be followed by the
letter of the next one, if it was given by a letter itself. The options without a value come
first in the result. -/
def readAttached (ss : List Switch) (s : Switch) (short : Bool) :
    List Char → Except UsageFault (List Switch × BundleEnd)
  | [] => if s.takesValue then .ok ([], .valued s "") else .error (.valueIgnored s "")
  | c :: cs =>
    if s.takesValue then .ok ([], .valued s (String.ofList (c :: cs)))
    else
      match (findSwitch? ss (String.ofList ['-', c])).filter fun _ => short, cs with
      | none, _ => .error (.valueIgnored s (String.ofList (c :: cs)))
      | some next, [] => .ok ([s], .awaiting next)
      | some next, d :: rest =>
        (readAttached ss next true (d :: rest)).map fun (flags, last) => (s :: flags, last)

def isShort (name : String) : Bool :=
  match name.toList with
  | _ :: '-' :: _ => false
  | _ => true

def readUse (ss : List Switch) (u : Use) : Except UsageFault (List Switch × BundleEnd) :=
  match u.attached? with
  | none => .ok ([], .awaiting u.switch)
  | some value => readAttached ss u.switch (isShort u.name) value

/-! ## Reading -/

/-- Which settings a build uses: those found beside the source, or those of a file. The option
may also be given with nothing that names a file. -/
inductive SettingsChoice where
  | beside
  | file (path : String)
  | nothing
  deriving DecidableEq, Repr

/-- The values given so far. The host or the port may be given as nothing at all. -/
structure Given where
  source? : Option String := none
  output? : Option String := none
  config : SettingsChoice := .beside
  noFence : Bool := false
  port? : Option Int := some 8050
  host? : Option String := some "127.0.0.1"
  deriving DecidableEq, Repr

/-- Why the reading ends early. -/
inductive Stop where
  | help
  | fault (f : UsageFault)
  deriving DecidableEq, Repr

/-- The value that a text gives to an option. The divider by itself is none. -/
def optionValue? (text : String) : Option String := if text = "--" then none else some text

/-- Sets an option; a later value replaces an earlier one. -/
def Given.set (g : Given) (s : Switch) (value? : Option String) : Except Stop Given :=
  match s.setting with
  | .help => .error .help
  | .output => .ok { g with output? := value? }
  | .config => .ok { g with config := value?.elim .nothing .file }
  | .noFence => .ok { g with noFence := true }
  | .port =>
    match value? with
    | none => .ok { g with port? := none }
    | some value =>
      match Number.readWhole 10 value with
      | .ok n => .ok { g with port? := some n }
      | .error _ => .error (.fault (.notWhole s value))
  | .host => .ok { g with host? := value? }

def Given.setAll (g : Given) : List Switch → Except Stop Given
  | [] => .ok g
  | s :: ss => do (← g.set s none).setAll ss

/-- Reads classified arguments. The first plain argument is the source, and a divider next to
it is dropped; what is left over is returned beside the values. -/
def readItems (ss : List Switch) (g : Given) (left : List String) :
    List Item → Except Stop (Given × List String)
  | [] => .ok (g, left)
  | .unknown text :: items => readItems ss g (left ++ [text]) items
  | .divider :: .plain text :: items =>
    if g.source?.isNone then readItems ss { g with source? := some text } left items
    else readItems ss g (left ++ ["--", text]) items
  | .divider :: items => readItems ss g (left ++ ["--"]) items
  | .plain text :: .divider :: items =>
    if g.source?.isNone then readItems ss { g with source? := some text } left items
    else readItems ss g (left ++ [text]) (.divider :: items)
  | .plain text :: items =>
    if g.source?.isNone then readItems ss { g with source? := some text } left items
    else readItems ss g (left ++ [text]) items
  | .option use :: .plain text :: items =>
    match readUse ss use with
    | .error f => .error (.fault f)
    | .ok (flags, .awaiting s) =>
      if s.takesValue then do
        readItems ss (← (← g.setAll flags).set s (optionValue? text)) left items
      else do
        readItems ss (← (← g.setAll flags).set s none) left (.plain text :: items)
    | .ok (flags, .valued s value) => do
      readItems ss (← (← g.setAll flags).set s (optionValue? value)) left (.plain text :: items)
  | .option use :: items =>
    match readUse ss use with
    | .error f => .error (.fault f)
    | .ok (flags, .awaiting s) =>
      if s.takesValue then .error (.fault (.valueExpected s))
      else do readItems ss (← (← g.setAll flags).set s none) left items
    | .ok (flags, .valued s value) => do
      readItems ss (← (← g.setAll flags).set s (optionValue? value)) left items

/-! ## Requests -/

/-- A command with its values. `idle` asks for nothing. -/
inductive Invocation where
  | build (source : String) (output? : Option String) (config : SettingsChoice) (noFence : Bool)
  | check (source : String)
  | serve (source : String) (host? : Option String) (port? : Option Int)
  | idle
  deriving DecidableEq, Repr

/-- What the arguments of the program ask for. -/
inductive Request where
  | run (i : Invocation)
  | help (n : Option Name)
  | misuse (n : Option Name) (f : UsageFault)
  deriving DecidableEq, Repr

def Name.invocation (n : Name) (g : Given) (source : String) : Invocation :=
  match n with
  | build => .build source g.output? g.config g.noFence
  | check => .check source
  | serve => .serve source g.host? g.port?

/-- Reads the arguments of a command; `left` are arguments left over before it. -/
def readCommand (n : Name) (left : List String) (arguments : List String) : Request :=
  match classifyAll n.switches arguments with
  | .error f => .misuse (some n) f
  | .ok items =>
    match readItems n.switches {} [] items with
    | .error .help => .help (some n)
    | .error (.fault f) => .misuse (some n) f
    | .ok (g, more) =>
      match g.source? with
      | none => .misuse (some n) .noSource
      | some source =>
        if (left ++ more).isEmpty then .run (n.invocation g source)
        else .misuse none (.unrecognized (left ++ more))

/-- Reads arguments up to the command, which takes all that follow it. -/
def readFrom (left : List String) : List String → Request
  | [] => if left.isEmpty then .help none else .misuse none (.unrecognized left)
  | argument :: rest =>
    if argument = "--" then
      if rest.isEmpty then .misuse none (.unrecognized (left ++ [argument]))
      else .misuse none (.unknownCommand argument)
    else
      match classify programSwitches argument with
      | .error f => .misuse none f
      | .ok (.option use) =>
        match readUse programSwitches use with
        | .error f => .misuse none f
        | .ok _ => .help none
      | .ok (.plain text) =>
        match Name.ofText? text with
        | none => .misuse none (.unknownCommand text)
        | some n => readCommand n left rest
      | .ok _ => readFrom (left ++ [argument]) rest

def readArguments (arguments : List String) : Request := readFrom [] arguments

end Flowchart.Command

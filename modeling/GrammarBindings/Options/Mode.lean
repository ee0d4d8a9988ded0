import GrammarBindings.Options.UsageError

/-!
# Modes

The words in front of the target are global options. They are scanned up to the first word that is
not an option; a long option may be abbreviated to any part that no other option begins with. The
mode of a run follows from them and from the target's word: help and version win over everything
behind them, and any error wins over all.
-/

namespace GrammarBindings

inductive GlobalOption where
  | help | version | multilingual
  deriving DecidableEq, Repr

namespace GlobalOption

def all : List GlobalOption := [help, version, multilingual]

def word : GlobalOption → String
  | help => "help"
  | version => "version"
  | multilingual => "multilingual"

def flag (o : GlobalOption) : String := "--" ++ o.word

/-- The option with a name, which may be cut off where no other option begins like it. -/
def ofName (name : String) : Except UsageError GlobalOption :=
  match all.find? fun o => o.word = name with
  | some o => .ok o
  | none =>
    match all.filter fun o => name.toList.isPrefixOf o.word.toList with
    | [] => .error (.unrecognizedGlobal ("--" ++ name))
    | [o] => .ok o
    | os => .error (.ambiguousGlobal name (os.map flag))

/-- The option that a long word stands for, given without its dashes. No option takes a value. -/
def ofLong (cs : List Char) : Except UsageError GlobalOption := do
  let o ← ofName (String.ofList (cs.takeWhile (· ≠ '=')))
  if '=' ∈ cs then throw (.needlessValue o.flag)
  return o

end GlobalOption

/-- The options found in front of the first other word, the words from there on, and the errors. -/
structure GlobalScan where
  found : List GlobalOption
  rest : List String
  errors : List UsageError
  deriving DecidableEq, Repr

namespace GlobalScan

def find (o : GlobalOption) (s : GlobalScan) : GlobalScan := { s with found := o :: s.found }

def fail (es : List UsageError) (s : GlobalScan) : GlobalScan := { s with errors := es ++ s.errors }

/-- Two dashes end the options and are dropped; a single dash is no option. There are no short
options, so each character behind a single dash is an error. -/
def ofWords : List String → GlobalScan
  | [] => ⟨[], [], []⟩
  | w :: ws =>
    match w.toList with
    | ['-', '-'] => ⟨[], ws, []⟩
    | '-' :: '-' :: cs =>
      match GlobalOption.ofLong cs with
      | .ok o => (ofWords ws).find o
      | .error e => (ofWords ws).fail [e]
    | '-' :: c :: cs =>
      (ofWords ws).fail ((c :: cs).map fun d => .unrecognizedGlobal (String.ofList ['-', d]))
    | _ => ⟨[], w :: ws, []⟩

end GlobalScan

inductive Mode where
  | help
  | version
  | failure (e : UsageError)
  | generate (target : Target) (args : List String) (multilingual : Bool)
  deriving DecidableEq, Repr

namespace Mode

/-- Without options and target, help is shown. -/
def ofScan (s : GlobalScan) : Mode :=
  match s.errors with
  | e :: _ => failure e
  | [] =>
    if .help ∈ s.found then help
    else if .version ∈ s.found then version
    else
      match s.rest with
      | [] => help
      | w :: args =>
        match Target.ofWord? w with
        | some target => generate target args (.multilingual ∈ s.found)
        | none => failure (.invalidTarget w)

def ofWords (args : List String) : Mode := ofScan (GlobalScan.ofWords args)

def isFailure : Mode → Bool
  | failure _ => true
  | _ => false

/-- Escapes quotation marks and backslashes. -/
def escaped (cs : List Char) : List Char :=
  cs.flatMap fun c => if c = '\\' || c = Text.quotationMark then ['\\', c] else [c]

/-- A message as it is shown, between quotation marks. -/
def shownFailure (message : String) : String :=
  "Error \"" ++ String.ofList (escaped message.toList) ++ "\""

def shown : Mode → String
  | help => "--help"
  | version => "--version"
  | failure e => shownFailure e.message
  | generate target args _ => " ".intercalate (target.word :: args)

end Mode
end GrammarBindings

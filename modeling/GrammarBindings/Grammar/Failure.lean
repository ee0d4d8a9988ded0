import GrammarBindings.Grammar.Rule

/-!
# Failures of reading

Why a grammar cannot be read. A fault in the text has a line, with which its message begins; bytes
that are no text and numerals that are no integers have none.
-/

namespace GrammarBindings

open Text

inductive TextFault where
  | unterminatedLiteral (mark : Char)
  | unterminatedComment
  | endOfStatement
  | expected (wanted found : String)
  | labelWord (found : String)
  | label (found : String)
  | item (found : String) (label : Label)
  | rulesPragma
  deriving DecidableEq, Repr

namespace TextFault

def message : TextFault → String
  | unterminatedLiteral mark => "unterminated literal starting with " ++ String.singleton mark
  | unterminatedComment => "unterminated block comment"
  | endOfStatement => "unexpected end of statement"
  | expected wanted found => "expected " ++ quote wanted ++ ", found " ++ quote found
  | labelWord found => "malformed rule label near " ++ quote found
  | label found => "malformed rule label " ++ quote found
  | item found rule => "unexpected " ++ quote found ++ " in rule " ++ rule
  | rulesPragma => "the \x27rules\x27 pragma is not supported"

end TextFault

inductive ReadFailure where
  | text (fault : TextFault) (line : Nat)
  | encoding (path : String) (offset : Nat)
  | numeral (fault : NumeralFault)
  deriving DecidableEq, Repr

namespace ReadFailure

def message : ReadFailure → String
  | text fault line => "line " ++ toString line ++ ": " ++ fault.message
  | encoding path offset =>
    "grammar file " ++ path ++ " is not valid UTF-8 (byte " ++ toString offset ++ ")"
  | numeral fault => fault.message

def line? : ReadFailure → Option Nat
  | text _ line => some line
  | _ => none

end ReadFailure
end GrammarBindings

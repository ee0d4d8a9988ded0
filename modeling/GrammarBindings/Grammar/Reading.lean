import GrammarBindings.Grammar.Statement
import GrammarBindings.Text.Utf8
import GrammarBindings.Log

/-!
# Reading a grammar

The names of all declared tokens are collected before any statement is interpreted, so a
declaration counts also in front of its place. The first statement that cannot be interpreted ends
the reading; what was ignored up to there is noted in the log.
-/

namespace GrammarBindings

open Text

/-- The contributions of the statements up to the first that cannot be interpreted. -/
def interpretAll (declared : List String) :
    List Statement → List Contribution × Option ReadFailure
  | [] => ([], none)
  | s :: ss =>
    match s.interpret declared with
    | .error e => ([], some e)
    | .ok c =>
      let (cs, failure?) := interpretAll declared ss
      (c :: cs, failure?)

def Contribution.note? : Contribution → Option Log.Entry
  | ignored keyword line =>
    some (Log.debug ("ignoring " ++ keyword ++ " pragma on line " ++ toString line))
  | _ => none

namespace Grammar

def ofContributions (declared : List String) (cs : List Contribution) : Grammar :=
  ⟨cs.flatMap Contribution.rules?, declared, cs.flatMap Contribution.entrypoints?⟩

def sizeNote (g : Grammar) : Log.Entry :=
  Log.debug ("read " ++ toString g.rules.length ++ " rules, " ++ toString g.tokens.length ++
    " token types")

end Grammar

/-- The outcome of reading a grammar, with the notes taken on the way. -/
structure Reading where
  notes : List Log.Entry
  result : Except ReadFailure Grammar

namespace Reading

def ofStatements (ss : List Statement) : Reading :=
  let declared := ss.filterMap Statement.declaredToken?
  let (cs, failure?) := interpretAll declared ss
  let notes := cs.filterMap Contribution.note?
  match failure? with
  | some e => ⟨notes, .error e⟩
  | none =>
    let g := Grammar.ofContributions declared cs
    ⟨notes ++ [g.sizeNote], .ok g⟩

def ofText (text : String) : Reading :=
  let lexing := tokenize text
  match lexing.fault? with
  | some (fault, line) => ⟨[], .error (.text fault line)⟩
  | none => ofStatements (Statement.split lexing.tokens)

/-- Reads the content of a file, whose path is needed for the message only. -/
def ofBytes (path : String) (bytes : ByteArray) : Reading :=
  match decode bytes with
  | .error offset => ⟨[], .error (.encoding path offset)⟩
  | .ok text => ofText (String.ofList (unifyLineEnds text.toList))

end Reading

def Grammar.read (text : String) : Except ReadFailure Grammar := (Reading.ofText text).result

end GrammarBindings

import GrammarBindings.Text.Numeral

/-!
# TOML values

A value is a text, an array, a table, or anything else that is a single value: a number, a truth
value, a date or a time. Tables keep the order in which their keys were first given.
-/

namespace GrammarBindings.Toml

inductive Value where
  | text (s : String)
  | scalar
  | array (xs : List Value)
  | table (entries : List (String × Value))

abbrev Table := List (String × Value)

/-- A dotted key, the outermost part first. -/
abbrev Key := List String

inductive Fault where
  | malformed
  | numeral (f : Text.NumeralFault)
  deriving DecidableEq, Repr

namespace Value

def text? : Value → Option String
  | text s => some s
  | _ => none

def table? : Value → Option Table
  | table t => some t
  | _ => none

def isContainer : Value → Bool
  | array _ | table _ => true
  | _ => false

end Value

namespace Table

def get? (t : Table) (k : String) : Option Value := t.lookup k

def put (t : Table) (k : String) (v : Value) : Table :=
  if t.any (·.1 = k) then t.map fun e => if e.1 = k then (k, v) else e else t ++ [(k, v)]

/-- Changes the table under a key. Tables on the way are made where nothing is, and an array on the
way stands for its last element if arrays may be entered. -/
def modifyAt (enterArrays : Bool) (f : Table → Option Table) : Key → Table → Option Table
  | [], t => f t
  | k :: ks, t =>
    match t.get? k with
    | none => (modifyAt enterArrays f ks []).map fun u => t.put k (.table u)
    | some (.table u) => (modifyAt enterArrays f ks u).map fun u => t.put k (.table u)
    | some (.array xs) =>
      match enterArrays, xs.getLast? with
      | true, some (.table u) =>
        (modifyAt enterArrays f ks u).map fun u => t.put k (.array (xs.dropLast ++ [.table u]))
      | _, _ => none
    | some _ => none

/-- Gives a new key a value. -/
def define (k : String) (v : Value) (t : Table) : Option Table :=
  if (t.get? k).isSome then none else some (t.put k v)

/-- Appends an empty table to the array under a key, which is made where nothing is. -/
def appendTable (k : String) (t : Table) : Option Table :=
  match t.get? k with
  | none => some (t.put k (.array [.table []]))
  | some (.array xs) => some (t.put k (.array (xs ++ [.table []])))
  | some _ => none

end Table
end GrammarBindings.Toml

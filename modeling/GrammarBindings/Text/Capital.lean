/-!
# Capitals

Capital letters, as far as they are ASCII. Two letters beyond ASCII have such a capital: the dotless
i and the long s. Every other character stays as it is, so the result can equal a word in ASCII
capitals only where it should.
-/

namespace GrammarBindings.Text

def capital (c : Char) : Char :=
  if c = 'ı' then 'I' else if c = 'ſ' then 'S' else c.toUpper

def inCapitals (s : String) : String := String.ofList (s.toList.map capital)

end GrammarBindings.Text

import FormulaLayout.Text.Printable

/-! Names between quotes. Single quotes are used, unless the name holds a single quote and no
double one. The quote in use and the backslash are escaped, and so is what cannot be printed: a
two-letter form for line ends and tabs, else the code point in two, four or eight hex digits. -/
namespace FormulaLayout.Text

private def singleQuote : Char := '\x27'
private def doubleQuote : Char := '\x22'

def quoteFor (text : List Char) : Char :=
  if singleQuote ∈ text ∧ doubleQuote ∉ text then doubleQuote else singleQuote

private def hexDigits (width n : Nat) : List Char :=
  let digits := Nat.toDigits 16 n
  List.replicate (width - digits.length) '0' ++ digits

def escape (quote c : Char) : List Char :=
  if c = quote ∨ c = '\\' then ['\\', c]
  else if c = '\n' then ['\\', 'n']
  else if c = '\r' then ['\\', 'r']
  else if c = '\t' then ['\\', 't']
  else if isPrintable c then [c]
  else if c.toNat < 0x100 then '\\' :: 'x' :: hexDigits 2 c.toNat
  else if c.toNat < 0x10000 then '\\' :: 'u' :: hexDigits 4 c.toNat
  else '\\' :: 'U' :: hexDigits 8 c.toNat

def quoted (text : String) : String :=
  let quote := quoteFor text.toList
  String.ofList (quote :: text.toList.flatMap (escape quote) ++ [quote])

end FormulaLayout.Text

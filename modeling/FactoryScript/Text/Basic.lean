import FactoryScript.Text.Printable

/-!
# Texts

Texts are trimmed, and judged blank, by Unicode's `White_Space` property. Trimming removes the
longest run of such characters at an end and nothing in between. Where a text is shown inside a
message it is quoted, and where it is shown on a terminal it must not command it.
-/

namespace FactoryScript.Text

/-! ## White space -/

/-- The characters with Unicode's `White_Space` property. -/
def isBlank (c : Char) : Bool :=
  let n := c.val
  (0x9 ≤ n && n ≤ 0xD) || n == 0x20 || n == 0x85 || n == 0xA0 || n == 0x1680 ||
    (0x2000 ≤ n && n ≤ 0x200A) || n == 0x2028 || n == 0x2029 || n == 0x202F || n == 0x205F ||
    n == 0x3000

/-- A text of white space only. -/
def blank (s : String) : Bool := s.toList.all isBlank

/-- The text without its leading white space, as characters. -/
def dropStart (cs : List Char) : List Char := cs.dropWhile isBlank

/-- The text without its trailing white space, as characters. -/
def dropEnd (cs : List Char) : List Char := (cs.reverse.dropWhile isBlank).reverse

def trimEnd (s : String) : String := String.ofList (dropEnd s.toList)

def trim (s : String) : String := String.ofList (dropEnd (dropStart s.toList))

/-- The text, unless it is blank. -/
def nonBlank? (s : String) : Option String := if blank s then none else some s

/-- An optional text, with a blank one counted as missing. -/
def present (s : Option String) : Option String := s.bind nonBlank?

/-! ## Quoted text

Messages quote paths: the quotation mark and the backslash are escaped, and so is every character
that is not printable. -/

def quoteChar (c : Char) : List Char :=
  if c = '"' ∨ c = '\\' then ['\\', c]
  else if c = '\x00' then ['\\', '0']
  else if c = '\t' then ['\\', 't']
  else if c = '\n' then ['\\', 'n']
  else if c = '\r' then ['\\', 'r']
  else if isPrintable c then [c]
  else ['\\', 'u', '\x7b'] ++ Nat.toDigits 16 c.toNat ++ ['\x7d']

def quoted (s : String) : String := String.ofList ('"' :: (s.toList.flatMap quoteChar ++ ['"']))

/-! ## Text for a terminal

A terminal takes some control characters for commands. A line that is shown there has escapes in
their place, so that what it quotes is seen and not obeyed; all other characters are kept. -/

/-- Escape, bell, backspace, form feed and delete. -/
def isCommand (c : Char) : Bool :=
  c == '\x1b' || c == '\x07' || c == '\x08' || c == '\x0c' || c == '\x7f'

/-- The control characters from U+0080, which stand for an escape and a letter. -/
def isWideCommand (c : Char) : Bool := 0x80 ≤ c.toNat && c.toNat ≤ 0x9F

def terminalChar (c : Char) : List Char :=
  if isCommand c then
    ['\\', 'x', Nat.digitChar (c.toNat / 16), Nat.digitChar (c.toNat % 16)]
  else if isWideCommand c then ['\\', 'u', '\x7b'] ++ Nat.toDigits 16 c.toNat ++ ['\x7d']
  else [c]

def forTerminal (s : String) : String := String.ofList (s.toList.flatMap terminalChar)

end FactoryScript.Text

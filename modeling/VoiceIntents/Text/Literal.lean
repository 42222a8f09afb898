import VoiceIntents.Text.CharClass

/-!
# Texts inside other texts

How a text is written inside a docstring, as a literal of a module, and in a message.
-/

/-!
## Code points

An escape of a document may name half of a pair of code units, which is no character. In a text
a half stands as a mark and a character of private use after it, and the mark itself stands twice.
-/

namespace VoiceIntents.Text

def halfMark : Char := '\uffff'

/-- The numbers of halves. -/
def isHalf (code : Nat) : Bool := 0xD800 ≤ code && code < 0xE000

/-- How far the number of a half is from its character of private use. -/
def halfShift : Nat := 0x800

/-- The characters that a code point stands as. -/
def ofCode (code : Nat) : List Char :=
  if isHalf code then [halfMark, Char.ofNat (code + halfShift)]
  else if code = halfMark.toNat then [halfMark, halfMark]
  else [Char.ofNat code]

/-- The code points of a text. A mark that nothing follows stands for itself. -/
def codes : List Char → List Nat
  | a :: b :: rest =>
      if a = halfMark && b = halfMark then halfMark.toNat :: codes rest
      else if a = halfMark && isHalf (b.toNat - halfShift) then (b.toNat - halfShift) :: codes rest
      else a.toNat :: codes (b :: rest)
  | [a] => [a.toNat]
  | [] => []

/-- Some code point of the text is a half, so the text has no bytes. -/
def hasHalf (text : String) : Bool := (codes text.toList).any isHalf

end VoiceIntents.Text

/-!
## Text inside a docstring

Free text is set between triple quotes with every backslash doubled and every run of three
quotes escaped, so that it can neither end the docstring nor change what follows it.
-/

namespace VoiceIntents.Text

namespace Docstring

/-- Runs of quotes are taken three at a time from the left; a shorter rest stays as it is. -/
def encode : List Char → List Char
  | '"' :: '"' :: '"' :: rest => '\\' :: '"' :: '\\' :: '"' :: '\\' :: '"' :: encode rest
  | c :: rest => if c = '\\' then '\\' :: '\\' :: encode rest else c :: encode rest
  | [] => []

end Docstring

/-- A text in the form that a docstring may hold. -/
def docstring (text : String) : String := String.ofList (Docstring.encode text.toList)

end VoiceIntents.Text

/-!
## Double-quoted literals

The literal that the generated module holds for a text: in double quotes, on one line, with
the quote, the backslash and the control characters escaped and all else as it is.
-/

namespace VoiceIntents.Text

def hexDigit (n : Nat) : Char :=
  if n < 10 then Char.ofNat (48 + n) else Char.ofNat (87 + n)

/-- The last `width` hexadecimal digits of a number, in lower case. -/
def hexDigits : (width n : Nat) → List Char
  | 0, _ => []
  | width + 1, n => hexDigits width (n / 16) ++ [hexDigit (n % 16)]

namespace Quoted

/-- The spelling of one character inside a literal. -/
def encodeChar (c : Char) : List Char :=
  if c = '"' then ['\\', '"']
  else if c = '\\' then ['\\', '\\']
  else if c = '\n' then ['\\', 'n']
  else if c = '\r' then ['\\', 'r']
  else if c = '\t' then ['\\', 't']
  else if c = '\x08' then ['\\', 'b']
  else if c = '\x0c' then ['\\', 'f']
  else if c.toNat < 32 then '\\' :: 'u' :: hexDigits 4 c.toNat
  else [c]

def encode (text : List Char) : List Char := text.flatMap encodeChar

end Quoted

/-- A text as a double-quoted literal. -/
def quote (text : String) : String :=
  String.ofList ('"' :: Quoted.encode text.toList ++ ['"'])

end VoiceIntents.Text

/-!
## Texts and bytes in messages

A text is shown in single quotes, or in double quotes when it holds single quotes and no
double ones. Line ends, tabs and backslashes are escaped, and unprintable characters are
shown by their number.
-/

namespace VoiceIntents.Text

/-- The quote that needs the fewest escapes. -/
def chooseQuote (text : List Char) : Char :=
  if text.contains '\'' && !text.contains '"' then '"' else '\''

/-- An unprintable character by its number, in two, four or eight digits. -/
def escapeNumber (n : Nat) : List Char :=
  if n < 0x100 then '\\' :: 'x' :: hexDigits 2 n
  else if n < 0x10000 then '\\' :: 'u' :: hexDigits 4 n
  else '\\' :: 'U' :: hexDigits 8 n

/-- The spelling of a character between the given quotes. -/
def inspectChar (printable : Char → Bool) (mark c : Char) : List Char :=
  if c = mark || c = '\\' then ['\\', c]
  else if c = '\n' then ['\\', 'n']
  else if c = '\r' then ['\\', 'r']
  else if c = '\t' then ['\\', 't']
  else if printable c then [c]
  else escapeNumber c.toNat

/-- A text as it is shown in a message. -/
def inspect (text : String) : String :=
  let mark := chooseQuote text.toList
  let spell (code : Nat) : List Char :=
    if isHalf code then escapeNumber code else inspectChar isPrintable mark (Char.ofNat code)
  String.ofList (mark :: (codes text.toList).flatMap spell ++ [mark])

/-- A text as it is written out, with its halves by their numbers. -/
def shown (text : String) : String :=
  String.ofList ((codes text.toList).flatMap fun code =>
    if isHalf code then escapeNumber code else [Char.ofNat code])

/-- Bytes as they are shown in a message: as text, with all but printable ASCII by number. -/
def inspectBytes (data : List UInt8) : String :=
  let text := data.map fun b => Char.ofNat b.toNat
  let mark := chooseQuote text
  let printable (c : Char) : Bool := 32 ≤ c.toNat && c.toNat < 127
  String.ofList ('b' :: mark :: text.flatMap (inspectChar printable mark) ++ [mark])

end VoiceIntents.Text

import VoiceIntents.Text.Encoding
import VoiceIntents.Toml.Error

/-!
# Quoted texts

Texts in single quotes are taken as they stand, texts in double quotes may have escapes, and
three quotes of a kind enclose several lines.
-/

namespace VoiceIntents.Toml

/-- How a text is enclosed: by one quote or three, with double quotes or single ones. -/
structure Enclosure where
  quote : Char
  tripled : Bool
  deriving DecidableEq, Repr

namespace Enclosure

/-- Only double quotes have escapes. -/
def escapes (e : Enclosure) : Bool := e.quote = '"'

/-- The text up to its closing quotes as it is spelled, and the rest. A backslash keeps the
character after it from closing. -/
def body (e : Enclosure) (taken : List Char) : List Char → Except Error (Taken (List Char))
  | [] => fail .unclosedText []
  | c :: rest =>
      if c = e.quote then
        if !e.tripled then .ok (taken.reverse, rest)
        else match rest with
          | a :: b :: after =>
              if a = e.quote && b = e.quote then .ok (taken.reverse, after)
              else body e (c :: taken) (a :: b :: after)
          | _ => fail .unclosedText []
      else if e.escapes && c = '\\' then
        match rest with
        | [] => fail .unclosedText []
        | d :: rest => body e (d :: c :: taken) rest
      else if isControl c && !(e.tripled && c = '\n') then fail .illegalCharacter (c :: rest)
      else body e (c :: taken) rest

end Enclosure

/-- Where a text with escapes stands: at plain characters, after a backslash, with hexadecimal
digits to come, or in the blanks that a backslash at the end of a line joins. -/
inductive EscapeState where
  | plain
  | backslash
  | hex (left value : Nat)
  | lineEnd
  | nextLine
  deriving DecidableEq, Repr

namespace EscapeState

/-- The character that a single letter after a backslash stands for. -/
def letter? (c : Char) : Option Char :=
  match c with
  | 'b' => some '\x08'
  | 't' => some '\t'
  | 'n' => some '\n'
  | 'f' => some '\x0c'
  | 'r' => some '\r'
  | '"' => some '"'
  | '\\' => some '\\'
  | _ => none

/-- The character of a code point. -/
def character? (n : Nat) : Option Char :=
  if n.isValidChar then some (Char.ofNat n) else none

/-- A plain character is taken, and a backslash starts an escape. -/
def atPlain (c : Char) (taken : List Char) : EscapeState × List Char :=
  if c = '\\' then (.backslash, taken) else (.plain, c :: taken)

/-- One more character of a text with escapes; `taken` holds its meaning so far, last first. -/
def step (tripled : Bool) (c : Char) (taken : List Char) :
    EscapeState → Option (EscapeState × List Char)
  | .plain => some (atPlain c taken)
  | .backslash =>
      if c = 'u' then some (.hex 4 0, taken)
      else if c = 'U' then some (.hex 8 0, taken)
      else if tripled && c = '\n' then some (.nextLine, taken)
      else if tripled && isBlank c then some (.lineEnd, taken)
      else (letter? c).map fun a => (.plain, a :: taken)
  | .hex left value => do
      let value := value * 16 + (← Text.hexValue? c)
      if left ≤ 1 then return (.plain, (← character? value) :: taken)
      else return (.hex (left - 1) value, taken)
  | .lineEnd =>
      if isBlank c then some (.lineEnd, taken)
      else if c = '\n' then some (.nextLine, taken)
      else none
  | .nextLine =>
      if isBlank c || c = '\n' then some (.nextLine, taken) else some (atPlain c taken)

end EscapeState

/-- The meaning of a text with escapes, unless an escape is unknown or not finished. -/
def unescape? (tripled : Bool) (text : List Char) : Option (List Char) := do
  let (state, taken) ← text.foldlM (fun (state, taken) c => EscapeState.step tripled c taken state)
    (EscapeState.plain, [])
  if state = .plain || state = .nextLine then return taken.reverse else none

/-- A quoted text after its opening quotes. -/
def Enclosure.text (e : Enclosure) (rest : List Char) : Except Error (Taken (List Char)) := do
  let (body, after) ← e.body [] rest
  if e.escapes then
    match unescape? e.tripled body with
    | some text => return (text, after)
    | none => fail .badEscape rest
  else return (body, after)

/-- Up to two quotes right after three closing ones belong to the text. -/
def Enclosure.lateQuotes (e : Enclosure) (rest : List Char) : List Char :=
  (rest.take 2).takeWhile (· = e.quote)

/-- A text on one line after its opening quote. -/
def lineText (quote : Char) (rest : List Char) : Except Error (Taken (List Char)) :=
  (Enclosure.mk quote false).text rest

/-- A text after its first quote, with two more quotes when it has three. A line feed right
after three opening quotes does not count. -/
def quotedText (quote : Char) (rest : List Char) : Except Error (Taken (List Char)) :=
  match rest with
  | a :: b :: more =>
      if a = quote && b = quote then do
        let e := Enclosure.mk quote true
        let (text, after) ← e.text (match more with
          | '\n' :: more => more
          | _ => more)
        let late := e.lateQuotes after
        return (text ++ late, after.drop late.length)
      else lineText quote rest
  | _ => lineText quote rest

end VoiceIntents.Toml

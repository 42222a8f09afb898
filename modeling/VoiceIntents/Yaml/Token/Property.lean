import VoiceIntents.Number.Numeral
import VoiceIntents.Text.Encoding
import VoiceIntents.Yaml.Token.Basic
import VoiceIntents.Yaml.Token.Scalar

/-!
# Anchors, tags and directives

The names that node properties and directives hold.
-/

namespace VoiceIntents.Yaml

/-- Characters of the names of anchors, handles and directives. -/
def isNameChar (c : Char) : Bool := c.isAlphanum || c = '-' || c = '_'

/-- Characters of a tag's uniform resource identifier. -/
def isUriChar (c : Char) : Bool :=
  c.isAlphanum || "-;/?:@&=+$,_.!~*'()[]%".toList.contains c

/-- The name after `&` or `*`. -/
def anchorName (c : Cursor) : Except Error (String × Cursor) :=
  let (name, after) := c.next.span isNameChar
  let ends := after.peek.all fun a => isBlank (some a) || "?:,]\x7d%@\x60".toList.contains a
  if name.isEmpty || !ends then .error (.malformed .badName after.mark)
  else .ok (String.ofList name, after)

/-- A run of percent escapes, as bytes. -/
def uriBytes : Nat → Cursor → Except Error (List UInt8 × Cursor)
  | 0, c => .ok ([], c)
  | fuel + 1, c =>
      if c.peek ≠ some '%' then .ok ([], c)
      else
        match hexNumber? 2 c.next.rest with
        | none => .error (.malformed .badTag c.mark)
        | some n =>
            (uriBytes fuel (c.skip 3)).map fun (more, last) => (UInt8.ofNat n :: more, last)

/-- Plain characters and runs of escapes, each run one sequence of UTF-8 characters. -/
def uriRuns : Nat → Cursor → Except Error (List Char × Cursor)
  | 0, c => .ok ([], c)
  | fuel + 1, c => do
      if c.peek = some '%' then
        let (bytes, after) ← uriBytes (c.rest.length + 1) c
        match Text.Utf8.decodeFrom 0 bytes with
        | .error _ => throw (.malformed .badEscapedUri c.mark)
        | .ok text =>
            let (more, last) ← uriRuns fuel after
            return (text ++ more, last)
      else
        let (run, after) := c.span fun a => isUriChar a && a ≠ '%'
        if run.isEmpty then return ([], c)
        let (more, last) ← uriRuns fuel after
        return (run ++ more, last)

/-- The identifier at a cursor, which is not empty. -/
def uri (c : Cursor) : Except Error (String × Cursor) := do
  if !c.peek.any isUriChar then throw (.malformed .badTag c.mark)
  let (text, after) ← uriRuns (c.rest.length + 1) c
  return (String.ofList text, after)

/-- A tag handle: `!`, `!!` or a name between two exclamation marks. -/
def tagHandle (c : Cursor) : Except Error (String × Cursor) :=
  if c.peek ≠ some '!' then .error (.malformed .badTag c.mark)
  else if c.peekAt 1 = some ' ' then .ok ("!", c.next)
  else
    let (name, after) := c.next.span isNameChar
    if after.peek ≠ some '!' then .error (.malformed .badTag after.mark)
    else .ok (String.ofList ('!' :: name ++ ['!']), after.next)

/-- The handle and suffix of a tag. A verbatim tag has no handle, and an exclamation mark
alone is a tag with itself for its suffix. -/
def tagName (c : Cursor) : Except Error (Option String × String × Cursor) := do
  let (handle, suffix, after) ←
    if c.peekAt 1 = some '<' then
      let (suffix, after) ← uri (c.skip 2)
      if after.peek ≠ some '>' then throw (.malformed .badTag after.mark)
      pure (none, suffix, after.next)
    else if isBlank (c.peekAt 1) then pure (none, "!", c.next)
    else
      let word := (c.next.span fun a => !endsWord (some a)).1
      let (handle, after) ← if word.contains '!' then tagHandle c else pure ("!", c.next)
      let (suffix, after) ← uri after
      pure (some handle, suffix, after)
  if !endsWord after.peek then throw (.malformed .badTag after.mark)
  return (handle, suffix, after)

/-- A number of a version. -/
def versionNumber (c : Cursor) : Except Error (Nat × Cursor) :=
  let (digits, after) := c.span Char.isDigit
  if digits.isEmpty then .error (.malformed .badDirective c.mark)
  else if Numeral.digitLimit < digits.length then .error (.unreadable .tooManyDigits)
  else .ok (digits.foldl (fun n a => n * 10 + (a.toNat - 48)) 0, after)

def versionDirective (c : Cursor) : Except Error (Directive × Cursor) := do
  let (major, after) ← versionNumber c.skipSpaces
  if after.peek ≠ some '.' then throw (.malformed .badDirective after.mark)
  let (_, after) ← versionNumber after.next
  if !endsWord after.peek then throw (.malformed .badDirective after.mark)
  return (.version major, after)

def tagDirective (c : Cursor) : Except Error (Directive × Cursor) := do
  let (handle, after) ← tagHandle c.skipSpaces
  if after.peek ≠ some ' ' then throw (.malformed .badDirective after.mark)
  let (expansion, after) ← uri after.skipSpaces
  if !endsWord after.peek then throw (.malformed .badDirective after.mark)
  return (.tagHandle handle expansion, after)

/-- The directive at a cursor and the place of the next line. -/
def directiveLine (c : Cursor) : Except Error (Directive × Cursor) := do
  let (name, after) := c.next.span isNameChar
  if name.isEmpty || !endsWord after.peek then throw (.malformed .badDirective after.mark)
  let (directive, after) ←
    match String.ofList name with
    | "YAML" => versionDirective after
    | "TAG" => tagDirective after
    | _ => pure (.other, after.line.2)
  return (directive, ← headerEnd .badDirective after)

end VoiceIntents.Yaml

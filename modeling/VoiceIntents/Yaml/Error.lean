/-!
# Errors of YAML texts

Where a text stops being YAML, and why. Three kinds are kept apart: texts that are malformed,
mappings that repeat a key, and scalars that are well formed but that their tag cannot read.
-/

namespace VoiceIntents.Yaml

/-- A position in a text; all three count from zero. -/
structure Mark where
  index : Nat
  line : Nat
  column : Nat
  deriving DecidableEq, Repr

/-- Why a text is malformed. -/
inductive Malformed where
  | specialCharacter
  | noToken
  | simpleKeyUnfinished
  | entryNotAllowed
  | keyNotAllowed
  | valueNotAllowed
  | badDirective
  | badName
  | badTag
  | badEscapedUri
  | badBlockHeader
  | badEscape
  | unclosedQuote
  | separatorInQuote
  | noDocumentStart
  | repeatedVersion
  | unsupportedVersion
  | repeatedHandle
  | unknownHandle
  | noContent
  | noBlockEnd
  | noFlowSeparator
  | undefinedAlias
  | repeatedAnchor
  | severalDocuments
  | unknownTag
  | notScalar
  | notSequence
  | notMapping
  | collectionKey
  | badMerge
  | badBinary
  | badPairs
  deriving DecidableEq, Repr

def Malformed.describe : Malformed → String
  | .specialCharacter => "special characters are not allowed"
  | .noToken => "found a character that cannot start any token"
  | .simpleKeyUnfinished => "could not find expected ':'"
  | .entryNotAllowed => "sequence entries are not allowed here"
  | .keyNotAllowed => "mapping keys are not allowed here"
  | .valueNotAllowed => "mapping values are not allowed here"
  | .badDirective => "found a directive that cannot be read"
  | .badName => "expected the name of an anchor"
  | .badTag => "found a tag that cannot be read"
  | .badEscapedUri => "found an escape that is no UTF-8 character"
  | .badBlockHeader => "expected indentation or chomping indicators"
  | .badEscape => "found unknown escape character"
  | .unclosedQuote => "found unexpected end of stream"
  | .separatorInQuote => "found unexpected document separator"
  | .noDocumentStart => "expected the start of a document"
  | .repeatedVersion => "found duplicate version directive"
  | .unsupportedVersion => "found incompatible version"
  | .repeatedHandle => "found duplicate tag handle"
  | .unknownHandle => "found undefined tag handle"
  | .noContent => "expected the node content"
  | .noBlockEnd => "expected the end of a block collection"
  | .noFlowSeparator => "expected ',' or the end of a flow collection"
  | .undefinedAlias => "found undefined alias"
  | .repeatedAnchor => "found a second node of one anchor"
  | .severalDocuments => "expected a single document in the stream"
  | .unknownTag => "could not determine what the tag constructs"
  | .notScalar => "expected a scalar node"
  | .notSequence => "expected a sequence node"
  | .notMapping => "expected a mapping node"
  | .collectionKey => "found a key that is a collection"
  | .badMerge => "expected a mapping or list of mappings for merging"
  | .badBinary => "failed to decode base64 data"
  | .badPairs => "expected a mapping of length 1"

/-- Why a well-formed scalar, or a collection under a tag of another kind, has no value. -/
inductive Unreadable where
  | characterTooLarge
  | characterOverflow
  | notANumber
  | emptyNumber
  | tooManyDigits
  | factorTooLarge
  | unknownTruth
  | notATimestamp
  | timestampOfMapping
  | noSuchTime
  | mappingOfText
  | mappingOfSequence
  | collectionAsKey
  | endlessDefault
  | tooDeep
  deriving DecidableEq, Repr

inductive Error where
  | malformed (cause : Malformed) (mark : Mark)
  | repeatedKey (mapping key : Mark) (shown : String)
  | unreadable (cause : Unreadable)
  deriving DecidableEq, Repr

def isBreak (c : Char) : Bool :=
  c = '\r' || c = '\n' || c = '\x85' || c = '\u2028' || c = '\u2029'

namespace Mark

/-- The widest part of a line that is shown on either side of a mark. -/
def reach : Nat := 37

/-- A side that is too long is cut five characters short of the reach. -/
def clip (side : List Char) : List Char × List Char :=
  if reach ≤ side.length then (side.take (reach - 5), " ... ".toList) else (side, [])

/-- The line around a mark, and a caret below the mark. -/
def excerpt (text : List Char) (m : Mark) : List Char :=
  let lineChar (c : Char) : Bool := !isBreak c && c ≠ '\x00'
  let (before, head) := clip ((text.take m.index).reverse.takeWhile lineChar)
  let (after, tail) := clip ((text.drop m.index).takeWhile lineChar)
  let blanks (n : Nat) : List Char := List.replicate n ' '
  blanks 4 ++ head ++ before.reverse ++ after ++ tail ++ '\n'
    :: blanks (4 + before.length + head.length) ++ ['^']

def describe (text : List Char) (m : Mark) : String :=
  let number (n : Nat) : String := String.ofList (Nat.toDigits 10 (n + 1))
  "  in \"<unicode string>\", line " ++ number m.line ++ ", column " ++ number m.column ++ ":\n"
    ++ String.ofList (m.excerpt text)

end Mark

namespace Error

/-- The wording of an error in a text. The start of a mapping is left out where it is the
start of the repeated key as well. -/
def describe (text : String) : Error → String
  | .malformed cause mark => cause.describe ++ "\n" ++ mark.describe text.toList
  | .repeatedKey mapping key shown =>
      let place :=
        if mapping.line = key.line && mapping.column = key.column then []
        else [mapping.describe text.toList]
      "\n".intercalate (["while constructing a mapping"] ++ place
        ++ ["found duplicate key " ++ shown, key.describe text.toList])
  | .unreadable _ => "found a scalar that its tag cannot read"

end Error

end VoiceIntents.Yaml

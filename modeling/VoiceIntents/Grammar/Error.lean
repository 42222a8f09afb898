import VoiceIntents.Grammar.Basic
import VoiceIntents.Identifier
import VoiceIntents.Value.Display

/-!
# Faults and warnings

What can be wrong with a context document, and what looks unfinished in a grammar.
-/

/-!
## Grammar errors

What can be wrong with a context document, and where. The wording of every fault is here.
-/

namespace VoiceIntents

/-- A name in single quotes. -/
def named (name : String) : String := "'" ++ name ++ "'"

/-- Where in a context an error stands: its document, intent and phrase, as far as known. -/
structure Location where
  source : Option String
  intent : Option String
  phrase : Option String
  deriving DecidableEq, Repr

namespace Location

/-- A part that is absent or empty is not mentioned. -/
def part (label : String) (name : Option String) : List String :=
  (name.filter (· ≠ "")).toList.map fun n => label ++ named n

/-- The document, then the intent and the phrase. -/
def describe (l : Location) : String :=
  let place := ", ".intercalate (part "intent " l.intent ++ part "expression " l.phrase)
  match l.source.filter (· ≠ "") with
  | none => place
  | some source => if place = "" then source else source ++ ": " ++ place

/-- A message, with its location before it where there is one to mention. -/
def label (l : Location) (message : String) : String :=
  if l.describe = "" then message else l.describe ++ ": " ++ message

end Location

/-- The declaration that a list of words or phrases belongs to. -/
inductive Owner where
  | slot (name : String)
  | intent (name : String)
  deriving DecidableEq, Repr

def Owner.describe : Owner → String
  | .slot name => "Slot " ++ named name
  | .intent name => "Intent " ++ named name

/-- What is wrong with a context document. Names are as the document is read: slots, elements
and variables escaped, `repeatedVariable` and `unknownSlot` as written. -/
inductive Fault where
  | noRoot
  | contextNotMap
  | slotsNotMap
  | notList (owner : Owner)
  | notPlain (owner : Owner) (shown : String)
  | badSlot (name : String) (problem : Identifier.Problem)
  | repeatedSlot (slot : String)
  | badElement (slot element : String) (problem : Identifier.Problem)
  | refusedElement (slot element : String)
  | repeatedElement (slot element : String)
  | noExpressions
  | expressionsNotMap
  | badIntent (name : String) (problem : Identifier.Problem)
  | noPhrases (intent : String)
  | repeatedVariable (name : String)
  | unknownSlot (name slot : String)
  | badVariable (name : String) (problem : Identifier.Problem)
  | slotMismatch (name here before : String)
  | slotShadowsModule (slot : String)
  | intentShadowsModule (intent : String)
  | intentIsSlot (intent : String)
  deriving DecidableEq, Repr

def Fault.describe : Fault → String
  | .noRoot => "yaml MUST have root node: 'context:'"
  | .contextNotMap => "'context:' must be a map"
  | .slotsNotMap => "'slots:' must map slot names to lists of elements"
  | .notList owner => owner.describe ++ " must be a list"
  | .notPlain owner shown => owner.describe ++ " must only contain plain values, got " ++ shown
  | .badSlot name problem => "Invalid slot: " ++ problem.describe name
  | .repeatedSlot slot => "Slot " ++ named slot ++ " is declared twice"
  | .badElement slot element problem =>
      "Invalid element of slot " ++ named slot ++ ": " ++ problem.describe element
  | .refusedElement slot element =>
      "Slot " ++ named slot ++ " cannot have an element named " ++ named element
  | .repeatedElement slot element =>
      "Slot " ++ named slot ++ " has element " ++ named element ++ " more than once"
  | .noExpressions => "You must define at least one intent in 'expressions:'"
  | .expressionsNotMap => "'expressions:' must map intent names to lists of phrases"
  | .badIntent name problem => "Intent name " ++ problem.describe name
  | .noPhrases intent => "Intent " ++ named intent ++ " must have at least one expression"
  | .repeatedVariable name => "Expression contains duplicate variable " ++ name
  | .unknownSlot name slot =>
      "Variable " ++ name ++ " has slot type " ++ slot ++ " that does not exist"
  | .badVariable name problem => "Variable name " ++ problem.describe name
  | .slotMismatch name here before =>
      "Variable " ++ named name ++ " is a " ++ here ++ " here, but a " ++ before
        ++ " in another expression"
  | .slotShadowsModule slot => "Slot " ++ named slot ++ " clashes with a name of the generated module"
  | .intentShadowsModule intent =>
      "Intent " ++ named intent ++ " clashes with a name of the generated module"
  | .intentIsSlot intent => "Intent " ++ named intent ++ " has the same name as a slot"

/-- Why no grammar is built: the document is at fault somewhere, or one of its values has no
text. -/
inductive BuildError where
  | invalid (fault : Fault) (location : Location)
  | unprintable (cause : DisplayFault)
  deriving DecidableEq, Repr

end VoiceIntents

/-!
## Linting grammars

Warnings about a grammar that is valid but looks unfinished: slots that no phrase uses or that
have no elements, and phrases that an intent lists more than once.
-/

namespace VoiceIntents.Grammar

inductive Warning where
  | unusedSlot (slot : String)
  | emptySlot (slot : String)
  | repeatedPhrase (intent phrase : String)
  deriving DecidableEq, Repr

def Warning.describe : Warning → String
  | .unusedSlot slot => "Slot " ++ named slot ++ " is not referenced by any expression"
  | .emptySlot slot => "Slot " ++ named slot ++ " has no elements"
  | .repeatedPhrase intent phrase =>
      "Intent " ++ named intent ++ " repeats expression " ++ named phrase

/-- Some variable of some intent is typed by the slot. -/
def usesSlot (g : Grammar) (slot : String) : Bool :=
  g.intents.any fun i => i.vars.any (·.slot.name = slot)

def lintSlot (g : Grammar) (s : Slot) : List Warning :=
  (if g.usesSlot s.name then [] else [.unusedSlot s.name])
    ++ (if s.elements.isEmpty then [.emptySlot s.name] else [])

/-- A warning for each phrase that stands among those before it. -/
def repeats (intent : String) : List String → List String → List Warning
  | _, [] => []
  | before, phrase :: rest =>
      (if before.contains phrase then [.repeatedPhrase intent phrase] else [])
        ++ repeats intent (before ++ [phrase]) rest

/-- Warnings on the slots, then on the intents, each in the order of declaration. -/
def lint (g : Grammar) : List Warning :=
  g.slots.flatMap g.lintSlot ++ g.intents.flatMap fun i => repeats i.name [] i.phrases

end VoiceIntents.Grammar

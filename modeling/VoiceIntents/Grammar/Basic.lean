/-!
# Grammars

A grammar is what a voice context declares: slots, which are named enumerations, and intents,
which are commands with variables typed by slots.
-/

namespace VoiceIntents

/-- An element of a slot: its identifier and the word that the speech engine reports. -/
structure Element where
  name : String
  raw : String
  deriving DecidableEq, Repr

/-- A named enumeration, its elements in the order of declaration. -/
structure Slot where
  name : String
  elements : List Element
  deriving DecidableEq, Repr

/-- A parameter of an intent. The engine reports its value under the raw name, and it is
required when every phrase of the intent binds it. -/
structure Variable where
  name : String
  rawName : String
  slot : Slot
  required : Bool
  deriving DecidableEq, Repr

/-- A voice command: its variables in the order they are first bound, and its phrases. -/
structure Intent where
  name : String
  vars : List Variable
  phrases : List String
  deriving DecidableEq, Repr

/-- The intents and slots of a context, in the order of declaration. -/
structure Grammar where
  intents : List Intent
  slots : List Slot
  source : Option String
  deriving DecidableEq, Repr

namespace Slot

/-- The identifiers of the elements. -/
def names (s : Slot) : List String := s.elements.map (·.name)

/-- The words of the elements. -/
def words (s : Slot) : List String := s.elements.map (·.raw)

end Slot

namespace Intent

def required (i : Intent) : List Variable := i.vars.filter (·.required)

def optional (i : Intent) : List Variable := i.vars.filter (!·.required)

def getVariable? (i : Intent) (name : String) : Option Variable :=
  i.vars.find? (·.name = name)

end Intent

namespace Grammar

def getIntent? (g : Grammar) (name : String) : Option Intent := g.intents.find? (·.name = name)

def getSlot? (g : Grammar) (name : String) : Option Slot := g.slots.find? (·.name = name)

end Grammar

end VoiceIntents

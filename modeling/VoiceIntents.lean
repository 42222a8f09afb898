import VoiceIntents.Command.Plan
import VoiceIntents.Context
import VoiceIntents.Grammar.Error
import VoiceIntents.Main
import VoiceIntents.Manifest
import VoiceIntents.Proofs.Acceptance
import VoiceIntents.Proofs.BareScalars
import VoiceIntents.Proofs.Build
import VoiceIntents.Proofs.Built
import VoiceIntents.Proofs.Composition
import VoiceIntents.Proofs.Conformance
import VoiceIntents.Proofs.Consistent
import VoiceIntents.Proofs.Contents
import VoiceIntents.Proofs.DeclarationOrder
import VoiceIntents.Proofs.Decoder
import VoiceIntents.Proofs.Delimited
import VoiceIntents.Proofs.Docstrings
import VoiceIntents.Proofs.Encoding
import VoiceIntents.Proofs.Faults
import VoiceIntents.Proofs.FieldIsolation
import VoiceIntents.Proofs.FileEffects
import VoiceIntents.Proofs.FileText
import VoiceIntents.Proofs.FileTrees
import VoiceIntents.Proofs.Gathering
import VoiceIntents.Proofs.IntentNames
import VoiceIntents.Proofs.Interface
import VoiceIntents.Proofs.Literals
import VoiceIntents.Proofs.Loading
import VoiceIntents.Proofs.Making
import VoiceIntents.Proofs.Merging
import VoiceIntents.Proofs.Mirrored
import VoiceIntents.Proofs.ModuleLiterals
import VoiceIntents.Proofs.ModuleText
import VoiceIntents.Proofs.Nesting
import VoiceIntents.Proofs.Obtainable
import VoiceIntents.Proofs.Ordinary
import VoiceIntents.Proofs.Outline
import VoiceIntents.Proofs.Oversized
import VoiceIntents.Proofs.PhraseReferences
import VoiceIntents.Proofs.Planning
import VoiceIntents.Proofs.Rebuilding
import VoiceIntents.Proofs.Regeneration
import VoiceIntents.Proofs.RepeatedKeys
import VoiceIntents.Proofs.Reporting
import VoiceIntents.Proofs.RequiredVariables
import VoiceIntents.Proofs.ScalarText
import VoiceIntents.Proofs.SetListings
import VoiceIntents.Proofs.SlotLookup
import VoiceIntents.Proofs.SpokenPhrase
import VoiceIntents.Proofs.Stepwise
import VoiceIntents.Proofs.StrayCharacters
import VoiceIntents.Proofs.Textless
import VoiceIntents.Proofs.TopLevel
import VoiceIntents.Proofs.TruthWords
import VoiceIntents.Proofs.Unreported
import VoiceIntents.Proofs.UnsignedNumbers
import VoiceIntents.Proofs.ValuelessNodes
import VoiceIntents.Proofs.ValuelessScalars
import VoiceIntents.Proofs.ValuelessTexts
import VoiceIntents.Proofs.Warnings
import VoiceIntents.Proofs.WellFormed
import VoiceIntents.Schema
import VoiceIntents.Text.Encoding
import VoiceIntents.TypedModule.Decode
import VoiceIntents.Version

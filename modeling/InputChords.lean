import InputChords.Main
import InputChords.Catalog.Qualified
import InputChords.Chord.Agree
import InputChords.Tracker.Canvas
import InputChords.Tracker.Window
import InputChords.Proofs.AliasTable
import InputChords.Proofs.Derivation
import InputChords.Proofs.Names
import InputChords.Proofs.Placement
import InputChords.Proofs.Unambiguous
import InputChords.Proofs.RoundTrip
import InputChords.Proofs.Act
import InputChords.Proofs.FrameAtoms
import InputChords.Proofs.Frames
import InputChords.Proofs.Parentheses
import InputChords.Proofs.Diagnosis
import InputChords.Proofs.Partition
import InputChords.Proofs.Postorder
import InputChords.Proofs.Change
import InputChords.Proofs.ActionEdges
import InputChords.Proofs.Leaves
import InputChords.Proofs.Grouping
import InputChords.Proofs.Spelling
import InputChords.Proofs.FrontEnds
import InputChords.Proofs.Deed
import InputChords.Proofs.Failure
import InputChords.Proofs.NumberSign
import InputChords.Proofs.RealValue
import InputChords.Proofs.WholeReal
import InputChords.Proofs.Turns
import InputChords.Proofs.Story
import InputChords.Proofs.Derived
import InputChords.Proofs.Physical
import InputChords.Proofs.RawInput
import InputChords.Proofs.DoubleClick
import InputChords.Proofs.ClickFlags
import InputChords.Proofs.KeysHeld
import InputChords.Proofs.MotionAtoms
import InputChords.Proofs.Displacement
import InputChords.Proofs.Edits
import InputChords.Proofs.Relevance
import InputChords.Proofs.IllFormed
import InputChords.Proofs.Unwritable
import InputChords.Proofs.CanvasEvents
import InputChords.Proofs.Commute
import InputChords.Proofs.Shadowing
import InputChords.Proofs.LowerCase
import InputChords.Proofs.Ambiguity
import InputChords.Proofs.CommandLine
import InputChords.Proofs.Evaluation
import InputChords.Proofs.LogCalls
import InputChords.Proofs.LogSinks
import InputChords.Proofs.LogQueue
import InputChords.Proofs.JsonText
import InputChords.Proofs.LogLines
import InputChords.Proofs.LogSetup
import InputChords.Proofs.LogFailures
import InputChords.Proofs.LogCommands
import InputChords.Proofs.Stillness
import InputChords.Chord.Hash
import InputChords.Json.Read
import InputChords.Proofs.Agreement
import InputChords.Proofs.JsonRead
import InputChords.Proofs.JsonLines
import InputChords.Proofs.Walk
import InputChords.Proofs.Arrangement
import InputChords.Proofs.WellFormed

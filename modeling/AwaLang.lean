import AwaLang.Batch
import AwaLang.Main
import AwaLang.Session
import AwaLang.Proofs.Source.Cleaning
import AwaLang.Proofs.Source.Syllables
import AwaLang.Proofs.Source.Tokens
import AwaLang.Proofs.Source.RoundTrip
import AwaLang.Proofs.Instruction.Layout
import AwaLang.Proofs.Instruction.Parameters
import AwaLang.Proofs.Labels
import AwaLang.Proofs.Machine.Alignment
import AwaLang.Proofs.Machine.Budget
import AwaLang.Proofs.Bubble.Closed
import AwaLang.Proofs.Bubble.Normal
import AwaLang.Proofs.Abyss.Operations
import AwaLang.Proofs.Abyss.Contents
import AwaLang.Proofs.Interpreter.Normal
import AwaLang.Proofs.Source.Grammar
import AwaLang.Proofs.Machine.Exchanges
import AwaLang.Proofs.Machine.Answers
import AwaLang.Proofs.Machine.Images
import AwaLang.Proofs.Interpreter.Isolation
import AwaLang.Proofs.Host.Channel
import AwaLang.Proofs.Session.Agreement
import AwaLang.Proofs.TokenTable
import AwaLang.Proofs.Listing
import AwaLang.Proofs.Source.Widths
import AwaLang.Proofs.Walks
import AwaLang.Proofs.Machine.Traces
import AwaLang.Proofs.Host.Service
import AwaLang.Proofs.Session.Reads
import AwaLang.Proofs.Session.Lines
import AwaLang.Proofs.Session.Events
import AwaLang.Proofs.Instruction.Relabelling
import AwaLang.Proofs.Machine.Congruence
import AwaLang.Proofs.Interpreter.Relabelling
import AwaLang.Proofs.Machine.Simulation
import AwaLang.Proofs.Instruction.Padding
import AwaLang.Proofs.Interpreter.Padding
import AwaLang.Proofs.Text.Pieces
import AwaLang.Proofs.Instruction.Tokens
import AwaLang.Proofs.Assembly
import AwaLang.Proofs.Listing.Reassembly
import AwaLang.Proofs.Source.Misfits
import AwaLang.Proofs.Interpreter.Truncation
import AwaLang.Proofs.Assembly.Streams
import AwaLang.Proofs.Listing.Entries
import AwaLang.Proofs.Listing.Dispatch
import AwaLang.Proofs.Instruction.Residues
import AwaLang.Proofs.Interpreter.Residues
import AwaLang.Proofs.Machine.Turns
import AwaLang.Proofs.Machine.Texts
import AwaLang.Proofs.Machine.Alike
import AwaLang.Proofs.Host.Buffer
import AwaLang.Proofs.Machine.Sinks
import AwaLang.Proofs.Bubble.Broadcast
import AwaLang.Proofs.Bubble.Scalars
import AwaLang.Proofs.Bubble.Meetings
import AwaLang.Proofs.Abyss.Surround
import AwaLang.Proofs.Bubble.Laws
import AwaLang.Proofs.Bubble.Division
import AwaLang.Proofs.Abyss.Atomicity
import AwaLang.Proofs.Abyss.Rotation
import AwaLang.Proofs.Abyss.Conservation
import AwaLang.Proofs.Abyss.Locality
import AwaLang.Proofs.Machine.Locality
import AwaLang.Proofs.Interpreter.Locality
import AwaLang.Proofs.Source.Extension
import AwaLang.Proofs.Assembly.Composition
import AwaLang.Proofs.Machine.Forward
import AwaLang.Proofs.Alphabet
import AwaLang.Proofs.Machine.Inputs
import AwaLang.Proofs.Bubble.Depth
import AwaLang.Proofs.Interpreter.Nesting
import AwaLang.Proofs.Labels.Table
import AwaLang.Proofs.Source.Normalizing
import AwaLang.Proofs.Bubble.Numerals

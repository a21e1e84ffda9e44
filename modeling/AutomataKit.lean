import AutomataKit.Binary64.Basic
import AutomataKit.Binary64.Shortest
import AutomataKit.Binary64.Text
import AutomataKit.Demonstration
import AutomataKit.Dfa.Basic
import AutomataKit.Dfa.Defect
import AutomataKit.Dfa.Description
import AutomataKit.Dfa.Document
import AutomataKit.Dfa.Enumeration
import AutomataKit.Dfa.Reachability
import AutomataKit.Dfa.Run
import AutomataKit.FreshName
import AutomataKit.Json.Basic
import AutomataKit.Json.Display
import AutomataKit.Json.Printer
import AutomataKit.Json.Reader
import AutomataKit.Json.Token
import AutomataKit.Machine.Basic
import AutomataKit.Machine.Document
import AutomataKit.Machine.OfDfa
import AutomataKit.Machine.Simulation
import AutomataKit.Machine.Tape
import AutomataKit.Machine.Trace
import AutomataKit.Main
import AutomataKit.OrderedMap
import AutomataKit.Proofs.Demonstration
import AutomataKit.Proofs.Dfa.CheckOrder
import AutomataKit.Proofs.Dfa.Checks
import AutomataKit.Proofs.Dfa.EarlyExit
import AutomataKit.Proofs.Dfa.Emptiness
import AutomataKit.Proofs.Dfa.Enumeration
import AutomataKit.Proofs.Dfa.Interning
import AutomataKit.Proofs.Dfa.Morphism
import AutomataKit.Proofs.Dfa.Positions
import AutomataKit.Proofs.Dfa.Resumption
import AutomataKit.Proofs.Dfa.RunReading
import AutomataKit.Proofs.Dfa.Search
import AutomataKit.Proofs.Dfa.SearchLoops
import AutomataKit.Proofs.Dfa.SearchOrder
import AutomataKit.Proofs.Dfa.ShortWords
import AutomataKit.Proofs.Dfa.SmallAutomata
import AutomataKit.Proofs.Dfa.TableOperations
import AutomataKit.Proofs.Dfa.TableReading
import AutomataKit.Proofs.Dfa.Tables
import AutomataKit.Proofs.Dfa.TwoStates
import AutomataKit.Proofs.Dfa.Validity
import AutomataKit.Proofs.Dfa.Variation
import AutomataKit.Proofs.Dfa.WordOrder
import AutomataKit.Proofs.Dfa.Words
import AutomataKit.Proofs.FreshName
import AutomataKit.Proofs.Json.Equality
import AutomataKit.Proofs.Machine.Confinement
import AutomataKit.Proofs.Machine.DeciderTable
import AutomataKit.Proofs.Machine.Decision
import AutomataKit.Proofs.Machine.Description
import AutomataKit.Proofs.Machine.Emptiness
import AutomataKit.Proofs.Machine.EndlessTape
import AutomataKit.Proofs.Machine.Lockstep
import AutomataKit.Proofs.Machine.Moments
import AutomataKit.Proofs.Machine.Morphism
import AutomataKit.Proofs.Machine.Parity
import AutomataKit.Proofs.Machine.Rearrangement
import AutomataKit.Proofs.Machine.Rebuilding
import AutomataKit.Proofs.Machine.Renaming
import AutomataKit.Proofs.Machine.Replay
import AutomataKit.Proofs.Machine.Simulation
import AutomataKit.Proofs.Machine.Strip
import AutomataKit.Proofs.Machine.TapeHistory
import AutomataKit.Proofs.Machine.TapeLookups
import AutomataKit.Proofs.Machine.TotalDecider
import AutomataKit.Proofs.Machine.TraceLine
import AutomataKit.Proofs.Machine.TrailingBlanks
import AutomataKit.Proofs.Machine.Trimming
import AutomataKit.Proofs.Machine.Truncation
import AutomataKit.Proofs.Machine.Window
import AutomataKit.Proofs.Service.Agreement
import AutomataKit.Proofs.Service.Attempts
import AutomataKit.Proofs.Service.Descriptions
import AutomataKit.Proofs.Service.Listing
import AutomataKit.Proofs.Service.Status
import AutomataKit.Proofs.Text.Integer
import AutomataKit.Service.Basic
import AutomataKit.Service.Handlers
import AutomataKit.Text.Encoding
import AutomataKit.Text.Integer
import AutomataKit.Text.Printable
import AutomataKit.Text.Quoted
import AutomataKit.Text.Uppercase

import ShiftReduce.Main
import ShiftReduce.Proofs.Automaton.Validity
import ShiftReduce.Proofs.Grammar.Duplicates
import ShiftReduce.Proofs.Grammar.Numbered
import ShiftReduce.Proofs.Grammar.WellFormed
import ShiftReduce.Proofs.Automaton.Path
import ShiftReduce.Proofs.Table.Cells
import ShiftReduce.Proofs.Grammar.Derivation
import ShiftReduce.Proofs.Parsing.Driver
import ShiftReduce.Proofs.Parsing.Actions
import ShiftReduce.Proofs.Parsing.Soundness
import ShiftReduce.Proofs.Parsing.Language
import ShiftReduce.Proofs.Automaton.Members
import ShiftReduce.Proofs.Table.Rows
import ShiftReduce.Proofs.Table.Contents
import ShiftReduce.Proofs.Grammar.Appearance
import ShiftReduce.Proofs.Grammar.Admission
import ShiftReduce.Proofs.Item.Renaming
import ShiftReduce.Proofs.Automaton.Renaming
import ShiftReduce.Proofs.Table.Renaming
import ShiftReduce.Proofs.Grammar.Reading
import ShiftReduce.Proofs.Grammar.History
import ShiftReduce.Proofs.Grammar.Classification
import ShiftReduce.Proofs.Grammar.Canonical
import ShiftReduce.Proofs.Grammar.LookUp
import ShiftReduce.Proofs.Grammar.Repetition
import ShiftReduce.Proofs.Automaton.Named
import ShiftReduce.Proofs.Automaton.Renumbering
import ShiftReduce.Proofs.Grammar.Reordering
import ShiftReduce.Proofs.Grammar.Extension
import ShiftReduce.Proofs.Source.Longest
import ShiftReduce.Proofs.Source.Matches
import ShiftReduce.Proofs.Source.Scanned
import ShiftReduce.Proofs.Source.Splitting
import ShiftReduce.Proofs.Source.Spans
import ShiftReduce.Proofs.Source.Loader
import ShiftReduce.Proofs.Source.FileGrammar
import ShiftReduce.Proofs.Source.Printed
import ShiftReduce.Proofs.Grammar.RoundTrip
import ShiftReduce.Proofs.Automaton.Acceptance
import ShiftReduce.Proofs.Table.Acceptance
import ShiftReduce.Proofs.Item.Rounds
import ShiftReduce.Proofs.Item.Walk
import ShiftReduce.Proofs.Text.Words
import ShiftReduce.Proofs.Text.Grid
import ShiftReduce.Proofs.Grammar.Checks
import ShiftReduce.Proofs.Grammar.Acceptable
import ShiftReduce.Proofs.Table.Printed
import ShiftReduce.Proofs.Automaton.Cores
import ShiftReduce.Proofs.Automaton.Backwards
import ShiftReduce.Proofs.Automaton.BreadthFirst
import ShiftReduce.Proofs.Source.Joined
import ShiftReduce.Proofs.Source.Retouched
import ShiftReduce.Proofs.Item.Histories
import ShiftReduce.Proofs.Grammar.First
import ShiftReduce.Proofs.Item.Knuth
import ShiftReduce.Proofs.CommandLine.StartSymbol
import ShiftReduce.Proofs.Grammar.Names
import ShiftReduce.Proofs.Item.Printed
import ShiftReduce.Proofs.Automaton.Printed
import ShiftReduce.Proofs.CommandLine.Report
import ShiftReduce.Proofs.CommandLine.Conflicts
import ShiftReduce.Proofs.Automaton.Course

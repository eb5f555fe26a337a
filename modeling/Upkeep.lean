import Upkeep.Main
import Upkeep.Proofs.Path.Normal
import Upkeep.Proofs.Tree.Follow
import Upkeep.Proofs.Tree.Read
import Upkeep.Proofs.Tree.Flat
import Upkeep.Proofs.Tree.Put
import Upkeep.Proofs.Tree.Order
import Upkeep.Proofs.Tree.Leads
import Upkeep.Proofs.Tree.Write
import Upkeep.Proofs.Source.Carry
import Upkeep.Proofs.Source.Reader
import Upkeep.Proofs.Rule.Candidates
import Upkeep.Proofs.Source.Splice
import Upkeep.Proofs.Rule.Constify
import Upkeep.Proofs.Rule.PruneIncludes
import Upkeep.Proofs.Build.Sparing
import Upkeep.Proofs.Trial.Attempts
import Upkeep.Proofs.Trial.Course
import Upkeep.Proofs.Trial.Applies
import Upkeep.Proofs.Trial.Moment
import Upkeep.Proofs.Trial.Machine
import Upkeep.Proofs.Trial.Bound
import Upkeep.Proofs.Trial.Rounds
import Upkeep.Proofs.Trial.Disk
import Upkeep.Proofs.Trial.Snapshot
import Upkeep.Proofs.Trial.Files
import Upkeep.Proofs.Trial.Run
import Upkeep.Proofs.Trial.Maximal
import Upkeep.Proofs.Trial.Undisturbed
import Upkeep.Proofs.Trial.Calls
import Upkeep.Proofs.Trial.Replay
import Upkeep.Proofs.Trial.OnePass
import Upkeep.Proofs.Trial.Pruning
import Upkeep.Proofs.Whitespace.Normal
import Upkeep.Proofs.Source.Declaration
import Upkeep.Proofs.Source.Trim
import Upkeep.Proofs.Source.Directive
import Upkeep.Proofs.Whitespace.Lines
import Upkeep.Proofs.Source.Scan
import Upkeep.Proofs.Whitespace.Scan
import Upkeep.Proofs.Rule.Trim
import Upkeep.Proofs.Whitespace.Checks
import Upkeep.Proofs.Check.License
import Upkeep.Proofs.Whitespace.License
import Upkeep.Proofs.SymbolIndex
import Upkeep.Proofs.Tree.Walk
import Upkeep.Proofs.Text.Trim
import Upkeep.Proofs.Text.Name
import Upkeep.Proofs.NameMap
import Upkeep.Proofs.Path.Join
import Upkeep.Proofs.Tree.Change
import Upkeep.Proofs.Tree.Listed
import Upkeep.Proofs.Whitespace.Files
import Upkeep.Proofs.Tree.Below
import Upkeep.Proofs.Build.Command
import Upkeep.Proofs.CommandLine.Frame
import Upkeep.Proofs.Check.Survey
import Upkeep.Proofs.CommandLine.Failure
import Upkeep.Proofs.Trial.Totals
import Upkeep.Proofs.Text.Parts
import Upkeep.Proofs.Rule.Proposal
import Upkeep.Proofs.Source.Head
import Upkeep.Proofs.Source.RecordLine
import Upkeep.Proofs.Rule.Declarator
import Upkeep.Proofs.Source.Template
import Upkeep.Proofs.Rule.Prototype
import Upkeep.Proofs.Source.Insert
import Upkeep.Proofs.Source.Remark
import Upkeep.Proofs.Whitespace.Margins
import Upkeep.Proofs.Check.Guards
import Upkeep.Proofs.Check.Includes
import Upkeep.Proofs.CommandLine.Arguments
import Upkeep.Proofs.CommandLine.Check
import Upkeep.Proofs.Path.Canonical
import Upkeep.Proofs.Tree.Normal
import Upkeep.Proofs.Tree.Entry
import Upkeep.Proofs.Tree.Replace
import Upkeep.Proofs.Tree.Staged
import Upkeep.Proofs.Source.Write
import Upkeep.Proofs.Edit
import Upkeep.Proofs.Source.CommentPlace

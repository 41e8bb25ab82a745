import LayoutLine.Archive.Codec
import LayoutLine.Archive.Datum
import LayoutLine.Attribute
import LayoutLine.Constraint
import LayoutLine.Engine
import LayoutLine.Fragment.Basic
import LayoutLine.Fragment.Build
import LayoutLine.Install
import LayoutLine.Line.Basic
import LayoutLine.Line.Grammar
import LayoutLine.Line.Parse
import LayoutLine.Number.Basic
import LayoutLine.Number.Literal
import LayoutLine.Options
import LayoutLine.Relation
import LayoutLine.Proofs.Line.Language
import LayoutLine.Proofs.Line.Soundness
import LayoutLine.Resolve
import LayoutLine.Session
import LayoutLine.Symbol
import LayoutLine.Table
import LayoutLine.Text
import LayoutLine.ViewTree
import LayoutLine.Proofs.Line.Completeness
import LayoutLine.Proofs.Line.Accepted
import LayoutLine.Proofs.Line.Faults
import LayoutLine.Proofs.ViewTree.Forest
import LayoutLine.Proofs.Row.Basic
import LayoutLine.Proofs.Row.Build
import LayoutLine.Proofs.Symbol
import LayoutLine.Proofs.Table
import LayoutLine.Proofs.Row.Text
import LayoutLine.Proofs.Row.Names
import LayoutLine.Proofs.Resolve
import LayoutLine.Proofs.Resolve.Parts
import LayoutLine.Proofs.Row.Constraints
import LayoutLine.Proofs.Row.Accepted
import LayoutLine.Proofs.Fragment.Tokens
import LayoutLine.Proofs.Fragment.Making
import LayoutLine.Proofs.Fragment.Bindings
import LayoutLine.Proofs.Fragment.Numbering
import LayoutLine.Proofs.Layout.Assignment
import LayoutLine.Proofs.Layout.Mirror
import LayoutLine.Proofs.Layout.Direction
import LayoutLine.Proofs.Layout.Seams
import LayoutLine.Proofs.Install.History
import LayoutLine.Proofs.ViewTree.Children
import LayoutLine.Proofs.ViewTree.Attachments
import LayoutLine.Proofs.Layout.Reading
import LayoutLine.Proofs.Line.Joining
import LayoutLine.Proofs.Fragment.Joining
import LayoutLine.Proofs.Resolve.Faults
import LayoutLine.Proofs.Resolve.Clauses
import LayoutLine.Proofs.Install.Frame
import LayoutLine.Proofs.Fragment.Renaming
import LayoutLine.Proofs.Fragment.Restarting
import LayoutLine.Proofs.Fragment.Regrouping
import LayoutLine.Proofs.Resolve.Agreement
import LayoutLine.Proofs.Resolve.Carrying
import LayoutLine.Proofs.Resolve.Renaming
import LayoutLine.Proofs.Text.Runs
import LayoutLine.Proofs.Line.Names
import LayoutLine.Proofs.Install.Commuting
import LayoutLine.Proofs.Layout.Turning
import LayoutLine.Proofs.Resolve.Values
import LayoutLine.Proofs.Fragment.Observing
import LayoutLine.Proofs.Session.Fragments
import LayoutLine.Proofs.Session.Numbers
import LayoutLine.Proofs.Line.Progress
import LayoutLine.Proofs.Number.Exact
import LayoutLine.Proofs.Number.Text
import LayoutLine.Proofs.Constraint

import Mend.Batch.Project
import Mend.Batch.Report
import Mend.Change
import Mend.Cluster.Basic
import Mend.Cluster.Density
import Mend.Cluster.Means
import Mend.Cluster.Settings
import Mend.Cohort.Basic
import Mend.Cohort.Files
import Mend.Cohort.Json
import Mend.Cohort.Table
import Mend.Command.Disk
import Mend.Command.Host
import Mend.Command.Memory
import Mend.Command.Path
import Mend.Command.Run
import Mend.Command.RunAnalysis
import Mend.Command.RunDataSet
import Mend.Command.Settings
import Mend.Command.Words
import Mend.Comparison
import Mend.DataSet.Arff
import Mend.DataSet.Basic
import Mend.DataSet.File
import Mend.DataSet.Metrics
import Mend.DataSet.Register
import Mend.DataSet.Relation
import Mend.Detector.Basic
import Mend.Detector.CallbackError
import Mend.Detector.ErrorHandling
import Mend.Detector.SpecialValue
import Mend.Detector.Visits
import Mend.Digest.Blake3
import Mend.Digest.Subtree
import Mend.Failure
import Mend.Feature.Basic
import Mend.Feature.Filter
import Mend.Feature.OfAnalysis
import Mend.Feature.Row
import Mend.Feature.Tally
import Mend.Finding.Basic
import Mend.Finding.Json
import Mend.Finding.Log
import Mend.Flow.Build
import Mend.Flow.Graph
import Mend.Flow.Stmt
import Mend.Forest
import Mend.History.Basic
import Mend.History.Fixes
import Mend.Json.Basic
import Mend.Keyword.Extract
import Mend.Keyword.Registry
import Mend.Keyword.Use
import Mend.Main
import Mend.Matching.Basic
import Mend.Matching.Labels
import Mend.Matching.Longest
import Mend.Matching.Phases
import Mend.Matching.Trees
import Mend.Pattern.Basic
import Mend.Pattern.Bracket
import Mend.Pattern.CharClass
import Mend.Pattern.Escape
import Mend.Pattern.Flags
import Mend.Pattern.Reader
import Mend.Provenance
import Mend.Random.Generator
import Mend.Reachable
import Mend.Revision
import Mend.Scope.Tree
import Mend.Sentinel.Condition
import Mend.Sentinel.Guard
import Mend.Sentinel.Reading
import Mend.Sentinel.Set
import Mend.Syntax.Ast
import Mend.Syntax.Concrete
import Mend.Syntax.Naming
import Mend.Syntax.Source
import Mend.Syntax.Walk
import Mend.Text.Basic
import Mend.Text.CaseVariants
import Mend.Text.Category
import Mend.Text.Decimal
import Mend.Text.Decode
import Mend.Text.Natural
import Mend.Text.Shortest
import Mend.Variables.Basic
import Mend.Variables.Lines
import Mend.Variables.Value
import Mend.Word.Row
import Mend.Proofs.Forest.Subtree
import Mend.Proofs.Syntax.Arena
import Mend.Proofs.Digest.Outline
import Mend.Proofs.Matching.Checked
import Mend.Proofs.Matching.Link
import Mend.Proofs.Matching.Safe
import Mend.Proofs.Matching.Labels
import Mend.Proofs.Matching.Increasing
import Mend.Proofs.Matching.Siblings
import Mend.Proofs.Matching.Unchanged
import Mend.Proofs.Comparison
import Mend.Proofs.DataSet.File
import Mend.Proofs.Feature.Conservation
import Mend.Proofs.Flow.Draft
import Mend.Proofs.Flow.Growth
import Mend.Proofs.Syntax.Nesting
import Mend.Proofs.Sentinel.Value
import Mend.Proofs.Sentinel.Exclusion
import Mend.Proofs.Sentinel.Collecting
import Mend.Proofs.Flow.Skeleton
import Mend.Proofs.Flow.Coverage
import Mend.Proofs.Flow.Jumps
import Mend.Proofs.Flow.LeadsOn
import Mend.Proofs.Flow.Placement
import Mend.Proofs.Flow.Covers
import Mend.Proofs.Detector.Unprotected
import Mend.Proofs.Detector.Visits
import Mend.Proofs.Flow.Departure
import Mend.Proofs.Flow.Exits
import Mend.Proofs.Flow.Finally
import Mend.Proofs.Syntax.Placeless
import Mend.Proofs.Syntax.Reading
import Mend.Proofs.Syntax.Comments
import Mend.Proofs.Matching.Layout
import Mend.Proofs.Batch.Unchanged
import Mend.Proofs.Batch.Gather
import Mend.Proofs.Batch.Separate
import Mend.Proofs.Feature.Numbers
import Mend.Proofs.DataSet.Loading
import Mend.Proofs.DataSet.Frequency
import Mend.Proofs.Feature.Exact
import Mend.Proofs.Cohort.Exact
import Mend.Proofs.Syntax.Grammar
import Mend.Proofs.Syntax.Roles
import Mend.Proofs.Flow.Unchanged
import Mend.Proofs.Cluster.Density
import Mend.Proofs.Scope.Declarations
import Mend.Proofs.Keyword.Namespaces
import Mend.Proofs.Flow.Catchers
import Mend.Proofs.Flow.Throws
import Mend.Proofs.Flow.Exceptions
import Mend.Proofs.Digest.Encoding
import Mend.Proofs.Digest.Identity
import Mend.Proofs.Matching.Keeps
import Mend.Proofs.Matching.Whole
import Mend.Proofs.Flow.Order
import Mend.Proofs.Flow.BackEdges
import Mend.Proofs.Selection
import Mend.Proofs.Matching.Moved
import Mend.Proofs.Matching.Recovery
import Mend.Proofs.Matching.Candidates
import Mend.Proofs.Syntax.Names
import Mend.Proofs.Matching.Anchors
import Mend.Proofs.Flow.Reached
import Mend.Proofs.Reachable
import Mend.Proofs.Scope.Resolution
import Mend.Proofs.Scope.Build
import Mend.Proofs.Detector.Callback
import Mend.Proofs.Detector.Protected
import Mend.Proofs.Flow.Decisions
import Mend.Proofs.Flow.Forks
import Mend.Proofs.Flow.FanOut
import Mend.Proofs.Detector.Guarded
import Mend.Proofs.Detector.Lines
import Mend.Proofs.Keyword.Truth
import Mend.Proofs.Feature.Code
import Mend.Proofs.Feature.Joining
import Mend.Proofs.Scope.Globals
import Mend.Proofs.DataSet.Register
import Mend.Proofs.Ranking
import Mend.Proofs.DataSet.Metrics
import Mend.Proofs.Cohort.Report
import Mend.Proofs.Finding.Log
import Mend.Proofs.DataSet.Quoted
import Mend.Proofs.DataSet.Relation
import Mend.Proofs.Cohort.Table
import Mend.Proofs.Keyword.Stem
import Mend.Proofs.Command.Folder
import Mend.Proofs.Cohort.Files
import Mend.Proofs.StackLoop
import Mend.Proofs.Syntax.Traversal
import Mend.Proofs.Syntax.Faults
import Mend.Proofs.Syntax.Conversion
import Mend.Proofs.Syntax.Preorder
import Mend.Proofs.Detector.Subsumption
import Mend.Proofs.Provenance
import Mend.Proofs.Command.Checkout

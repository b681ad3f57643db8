import Rewards.Block
import Rewards.Command
import Rewards.Command.Arguments
import Rewards.Command.Failure
import Rewards.Command.Needs
import Rewards.Computation
import Rewards.Cycle
import Rewards.Dataset
import Rewards.Decimal.Layout
import Rewards.Decimal.Reading
import Rewards.Decimal.Shortest
import Rewards.Dictionary
import Rewards.Digest
import Rewards.Digest.Sha256
import Rewards.Files.Disk
import Rewards.Files.Path
import Rewards.Files.Tables
import Rewards.Files.Tree
import Rewards.Files.Wildcard
import Rewards.Identity
import Rewards.Json
import Rewards.Json.Canonical
import Rewards.Json.Reading
import Rewards.Json.Source
import Rewards.Main
import Rewards.Parameters
import Rewards.Parameters.Document
import Rewards.Parameters.Template
import Rewards.Parameters.Validation
import Rewards.Partition
import Rewards.Partition.Store
import Rewards.Payment
import Rewards.Payment.Table
import Rewards.Payment.Tree
import Rewards.Problem
import Rewards.Query
import Rewards.Query.Evaluation
import Rewards.Query.Statement
import Rewards.Rule
import Rewards.Rule.Registry
import Rewards.Rule.SafeOwnership
import Rewards.Rule.Scheme
import Rewards.Rule.WeightedUsage
import Rewards.Shape.Fields
import Rewards.Shape.Mismatch
import Rewards.Shape.Source
import Rewards.Table.Cast
import Rewards.Table.Column
import Rewards.Table.Format
import Rewards.Table.Result
import Rewards.Table.Stored
import Rewards.Text.Form
import Rewards.Text.Hex
import Rewards.Text.Printable
import Rewards.Typed
import Rewards.Word
import Rewards.Yaml.Cursor
import Rewards.Yaml.Node
import Rewards.Yaml.Scalar
import Rewards.Yaml.Scan
import Rewards.Yaml.Source
import Rewards.Yaml.Tag
import Rewards.Yaml.Token
import Rewards.Yaml.Tokens
import Rewards.Proofs.Action
import Rewards.Proofs.Block
import Rewards.Proofs.Block.Range
import Rewards.Proofs.Command
import Rewards.Proofs.Command.Results
import Rewards.Proofs.Computation
import Rewards.Proofs.Computation.Calls
import Rewards.Proofs.Cycle
import Rewards.Proofs.Dataset
import Rewards.Proofs.Dataset.Nesting
import Rewards.Proofs.Decimal.Integer
import Rewards.Proofs.Decimal.Interval
import Rewards.Proofs.Decimal.Layout
import Rewards.Proofs.Decimal.Order
import Rewards.Proofs.Decimal.Shortest
import Rewards.Proofs.Decimal.Sum
import Rewards.Proofs.Decimal.Value
import Rewards.Proofs.Dictionary
import Rewards.Proofs.Digest
import Rewards.Proofs.Digest.Spelling
import Rewards.Proofs.Distinct
import Rewards.Proofs.Files.Components
import Rewards.Proofs.Files.Path
import Rewards.Proofs.Files.Tables
import Rewards.Proofs.Files.Writing
import Rewards.Proofs.Json.Canonical
import Rewards.Proofs.Json.Members
import Rewards.Proofs.Json.Number
import Rewards.Proofs.Json.Same
import Rewards.Proofs.Json.Separation
import Rewards.Proofs.Outcome
import Rewards.Proofs.Parameters.Pieces
import Rewards.Proofs.Parameters.Template
import Rewards.Proofs.Parameters.Unset
import Rewards.Proofs.Parameters.Validation
import Rewards.Proofs.Partition.Counting
import Rewards.Proofs.Partition.Levels
import Rewards.Proofs.Partition.Location
import Rewards.Proofs.Partition.Memory
import Rewards.Proofs.Partition.Paths
import Rewards.Proofs.Partition.Resolution
import Rewards.Proofs.Partition.Selection
import Rewards.Proofs.Partition.Sizes
import Rewards.Proofs.Partition.Store
import Rewards.Proofs.Partition.Tiling
import Rewards.Proofs.Partition.Words
import Rewards.Proofs.Payment.Binding
import Rewards.Proofs.Payment.Handoff
import Rewards.Proofs.Payment.HashTree
import Rewards.Proofs.Payment.Leaf
import Rewards.Proofs.Payment.Normalization
import Rewards.Proofs.Payment.OneLeaf
import Rewards.Proofs.Payment.Order
import Rewards.Proofs.Payment.Permutation
import Rewards.Proofs.Payment.Records
import Rewards.Proofs.Payment.Shape
import Rewards.Proofs.Payment.Spelling
import Rewards.Proofs.Payment.Table
import Rewards.Proofs.Payment.Verification
import Rewards.Proofs.Query.Collection
import Rewards.Proofs.Query.Draft
import Rewards.Proofs.Query.Evaluation
import Rewards.Proofs.Query.Groups
import Rewards.Proofs.Rule.Acceptance
import Rewards.Proofs.Rule.EqualParameters
import Rewards.Proofs.Rule.Identity
import Rewards.Proofs.Rule.Recorded
import Rewards.Proofs.Rule.Registry
import Rewards.Proofs.Rule.SafeOwnership
import Rewards.Proofs.Rule.Scheme
import Rewards.Proofs.Rule.WeightedUsage
import Rewards.Proofs.Shape.Fields
import Rewards.Proofs.Shape.Positional
import Rewards.Proofs.Shape.RoundTrip
import Rewards.Proofs.Shape.Values
import Rewards.Proofs.Sorting
import Rewards.Proofs.Table.Aggregation
import Rewards.Proofs.Table.Reading
import Rewards.Proofs.Table.Stated
import Rewards.Proofs.Table.Sum
import Rewards.Proofs.Table.Totals
import Rewards.Proofs.Text.SnakeCase
import Rewards.Proofs.Typed
import Rewards.Proofs.Typed.Parts
import Rewards.Proofs.Typed.Writing
import Rewards.Proofs.Utf8

import TemplateInheritance.Block.Definition
import TemplateInheritance.Block.Own
import TemplateInheritance.Block.Search
import TemplateInheritance.Cache.Command
import TemplateInheritance.Cache.Recency
import TemplateInheritance.Cache.Table
import TemplateInheritance.Cache.Tiers
import TemplateInheritance.Config.Reader
import TemplateInheritance.Config.Settings
import TemplateInheritance.Context.Basic
import TemplateInheritance.Context.Digest
import TemplateInheritance.Error.Advice
import TemplateInheritance.Error.Basic
import TemplateInheritance.Evaluation
import TemplateInheritance.Fixture
import TemplateInheritance.Hash.Sha256
import TemplateInheritance.Hierarchy.Basic
import TemplateInheritance.Hierarchy.Build
import TemplateInheritance.Hierarchy.Walk
import TemplateInheritance.Loader
import TemplateInheritance.Merge.Mark
import TemplateInheritance.Merge.Overlay
import TemplateInheritance.Merge.Placement
import TemplateInheritance.Number.Binary64
import TemplateInheritance.Number.Decimal
import TemplateInheritance.Proofs.Building
import TemplateInheritance.Resolution
import TemplateInheritance.Session
import TemplateInheritance.SortedMap
import TemplateInheritance.Super.Expansion
import TemplateInheritance.Super.Nesting
import TemplateInheritance.Super.Requests
import TemplateInheritance.Super.Substitution
import TemplateInheritance.Toml.Document
import TemplateInheritance.Toml.Scalar
import TemplateInheritance.Toml.Text
import TemplateInheritance.Toml.Value
import TemplateInheritance.Tree.Equality
import TemplateInheritance.Tree.Expr
import TemplateInheritance.Tree.Node
import TemplateInheritance.Tree.SuperCall
import TemplateInheritance.Tree.Text
import TemplateInheritance.Value.Basic
import TemplateInheritance.Value.Reader
import TemplateInheritance.Value.Text
import TemplateInheritance.Proofs.Merging
import TemplateInheritance.Proofs.Placement
import TemplateInheritance.Proofs.Blocks
import TemplateInheritance.Proofs.Definitions
import TemplateInheritance.Proofs.MergedTree
import TemplateInheritance.Proofs.SuperCalls
import TemplateInheritance.Sharing
import TemplateInheritance.Proofs.Tables
import TemplateInheritance.Proofs.Tiers
import TemplateInheritance.Proofs.Keys
import TemplateInheritance.Proofs.Leaves
import TemplateInheritance.Proofs.Shortcuts
import TemplateInheritance.Proofs.Coherence
import TemplateInheritance.Proofs.Recency
import TemplateInheritance.Proofs.Inclusion
import TemplateInheritance.Proofs.Losses
import TemplateInheritance.Proofs.Passages
import TemplateInheritance.Proofs.Failures
import TemplateInheritance.Proofs.Interruption
import TemplateInheritance.Proofs.Walks
import TemplateInheritance.Proofs.Contexts
import TemplateInheritance.Proofs.Closure
import TemplateInheritance.Proofs.Requests
import TemplateInheritance.Proofs.StrayCalls
import TemplateInheritance.Proofs.Limits
import TemplateInheritance.Proofs.Descendants
import TemplateInheritance.Proofs.Sources
import TemplateInheritance.Proofs.PassThrough
import TemplateInheritance.Proofs.Rounding
import TemplateInheritance.Proofs.Numerals
import TemplateInheritance.Proofs.Encodings
import TemplateInheritance.Proofs.Nesting
import TemplateInheritance.Proofs.Repetition
import TemplateInheritance.Proofs.OwnBlocks
import TemplateInheritance.Proofs.Provenance

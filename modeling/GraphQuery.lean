import GraphQuery.Main
import GraphQuery.Proofs.Compilation.Candidates
import GraphQuery.Proofs.Compilation.Capture
import GraphQuery.Proofs.Compilation.Coercion
import GraphQuery.Proofs.Compilation.Defaults
import GraphQuery.Proofs.Compilation.Explanation
import GraphQuery.Proofs.Compilation.Filters
import GraphQuery.Proofs.Compilation.Injection
import GraphQuery.Proofs.Compilation.PageArguments
import GraphQuery.Proofs.Compilation.Pages
import GraphQuery.Proofs.Compilation.Parameters
import GraphQuery.Proofs.Compilation.Plain
import GraphQuery.Proofs.Compilation.Relaxation
import GraphQuery.Proofs.Compilation.Reordering
import GraphQuery.Proofs.Compilation.Result
import GraphQuery.Proofs.Compilation.Validity
import GraphQuery.Proofs.Cypher.LiteralReader
import GraphQuery.Proofs.Cypher.PageReader
import GraphQuery.Proofs.Cypher.Parameters
import GraphQuery.Proofs.Cypher.Skeleton
import GraphQuery.Proofs.Definition.Acceptance
import GraphQuery.Proofs.Definition.Description
import GraphQuery.Proofs.Definition.Grammar
import GraphQuery.Proofs.Definition.Messages
import GraphQuery.Proofs.Definition.Progress
import GraphQuery.Proofs.Definition.Soundness
import GraphQuery.Proofs.Definition.Trails
import GraphQuery.Proofs.Language.Acceptance
import GraphQuery.Proofs.Language.ArgumentList
import GraphQuery.Proofs.Language.Completeness
import GraphQuery.Proofs.Language.Constant
import GraphQuery.Proofs.Language.Display
import GraphQuery.Proofs.Language.Grammar
import GraphQuery.Proofs.Language.Invariants
import GraphQuery.Proofs.Language.Layout
import GraphQuery.Proofs.Language.Names
import GraphQuery.Proofs.Language.Occurrence
import GraphQuery.Proofs.Language.Plain
import GraphQuery.Proofs.Language.Recursion
import GraphQuery.Proofs.Language.Soundness
import GraphQuery.Proofs.Language.Spelling
import GraphQuery.Proofs.Language.StringLiteral
import GraphQuery.Proofs.Language.Trails
import GraphQuery.Proofs.Language.TypeText
import GraphQuery.Proofs.Meaning.Database
import GraphQuery.Proofs.Meaning.Evaluation
import GraphQuery.Proofs.Meaning.Preservation
import GraphQuery.Proofs.Meaning.Reading
import GraphQuery.Proofs.Meaning.VariableDefaults
import GraphQuery.Proofs.Reader.Descent
import GraphQuery.Proofs.Reader.Outcome
import GraphQuery.Proofs.Reader.Trails
import GraphQuery.Proofs.Reader.Yields
import GraphQuery.Proofs.Schema.Collection
import GraphQuery.Proofs.Schema.Consistency
import GraphQuery.Proofs.Schema.EnumValues
import GraphQuery.Proofs.Schema.Legality
import GraphQuery.Proofs.Schema.Order
import GraphQuery.Proofs.Schema.Resolution

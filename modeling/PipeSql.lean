import PipeSql.Compile
import PipeSql.Config.Reader
import PipeSql.Formula.Codec
import PipeSql.Manifest
import PipeSql.Query
import PipeSql.Proofs.Script.Grammar
import PipeSql.Proofs.Text.Literal
import PipeSql.Proofs.Dialect.Spelling
import PipeSql.Proofs.Statement.Likeness
import PipeSql.Proofs.Pipeline.Coupled
import PipeSql.Proofs.Script.Mapped
import PipeSql.Proofs.Pipeline.Expression
import PipeSql.Proofs.Pipeline.OfScript
import PipeSql.Proofs.Pipeline.Literals
import PipeSql.Proofs.Pipeline.Filters
import PipeSql.Proofs.Dialect.Respell
import PipeSql.Proofs.Pipeline.Sealed
import PipeSql.Proofs.Pipeline.Conditions
import PipeSql.Proofs.Script.Reads
import PipeSql.Proofs.Script.Tokens
import PipeSql.Proofs.Script.ReadBack
import PipeSql.Proofs.Pipeline.RoundTrip
import PipeSql.Proofs.Statement.Grouping
import PipeSql.Proofs.Pipeline.Lowered
import PipeSql.Proofs.Pipeline.Joins
import PipeSql.Proofs.Pipeline.Parallel
import PipeSql.Proofs.Pipeline.Grouped
import PipeSql.Proofs.Pipeline.Cut
import PipeSql.Proofs.Dialect.Spells
import PipeSql.Proofs.Pipeline.Spelled
import PipeSql.Proofs.Pipeline.Layout
import PipeSql.Proofs.Dialect.Clean
import PipeSql.Proofs.Pipeline.Recorded
import PipeSql.Proofs.Pipeline.Clean
import PipeSql.Proofs.Formula.Meaning
import PipeSql.Proofs.Query.Meaning
import PipeSql.Proofs.Script.Printed
import PipeSql.Proofs.Pipeline.Operations
import PipeSql.Proofs.Pipeline.RowNames
import PipeSql.Proofs.Script.Bindings
import PipeSql.Proofs.Token.Cover
import PipeSql.Proofs.Script.Faults
import PipeSql.Proofs.Statement.Neutral
import PipeSql.Proofs.Pipeline.Arithmetic
import PipeSql.Proofs.Script.BlankedTokens
import PipeSql.Proofs.Pipeline.Tables
import PipeSql.Proofs.Statement.Insertion
import PipeSql.Proofs.Formula.Comparisons
import PipeSql.Proofs.Script.Circles
import PipeSql.Proofs.Dialect.Settled
import PipeSql.Proofs.Formula.Combined
import PipeSql.Proofs.Query.Interleaved
import PipeSql.Proofs.Source.Location
import PipeSql.Proofs.Statement.Codec
import PipeSql.Proofs.Statement.Balanced
import PipeSql.Proofs.Script.Normal

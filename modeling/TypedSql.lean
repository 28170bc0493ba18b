import TypedSql.Batch
import TypedSql.Files.Tree
import TypedSql.Main
import TypedSql.Proofs.Analysis.Statements
import TypedSql.Proofs.Analysis.Trailing
import TypedSql.Proofs.Placeholder.Parsed
import TypedSql.Proofs.Placeholder.Positions
import TypedSql.Proofs.Placeholder.Reread
import TypedSql.Proofs.Shape.NamedQueries
import TypedSql.Proofs.TypeText.Declared
import TypedSql.Proofs.ModuleName.Declarations
import TypedSql.Proofs.Shape.Accounting
import TypedSql.Proofs.Generate.Counts
import TypedSql.Proofs.Program.Journal
import TypedSql.Proofs.Generate.Accounts
import TypedSql.Proofs.Program.Generate
import TypedSql.Proofs.Declaration.PropertyName
import TypedSql.Proofs.Declaration.Reading
import TypedSql.Proofs.Bindings.Interfaces
import TypedSql.Proofs.Analysis.Dependence
import TypedSql.Collector
import TypedSql.Proofs.Batch.Collectors
import TypedSql.Proofs.Files.Places
import TypedSql.Proofs.Files.Directories
import TypedSql.Proofs.Generate.Writing
import TypedSql.Proofs.Discovery.Found
import TypedSql.Proofs.Generate.Independence
import TypedSql.Proofs.Program.Independence
import TypedSql.Proofs.Bindings.Closed
import TypedSql.Proofs.Json.Records
import TypedSql.Proofs.Schema.Written
import TypedSql.Proofs.Config.Written
import TypedSql.Proofs.TypeText.Rendered
import TypedSql.Proofs.FrontMatter.Written
import TypedSql.Proofs.FrontMatter.LineEnds
import TypedSql.Proofs.Placeholder.Segments
import TypedSql.Proofs.Analysis.Inputs
import TypedSql.Proofs.Shape.TableNames
import TypedSql.Proofs.Shape.StarOptions
import TypedSql.Proofs.Shape.Leftmost
import TypedSql.Proofs.Resolve.Outputs
import TypedSql.Proofs.Bindings.Clashes
import TypedSql.Proofs.Declaration.Written
import TypedSql.Proofs.ModuleName.Placement
import TypedSql.Proofs.Discovery.Roots
import TypedSql.Proofs.Placeholder.Places
import TypedSql.Proofs.Report.Saved
import TypedSql.Proofs.Schema.Forms

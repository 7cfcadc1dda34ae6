/-!
# Reserved words

The words that open and separate clauses and statements. Each is reserved whether or not the
grammar of `SELECT` uses it, and each is named here by the word itself. `AND`, `OR`, `TRUE` and
`FALSE` are reserved too; they are operators and literals, not keywords.
-/

namespace InfluxQL

/-- A reserved word that is neither an operator nor a literal. -/
inductive Keyword
  | ALL | ALTER | ANY | AS | ASC | BEGIN | BY | CREATE | CONTINUOUS | DATABASE | DATABASES
  | DEFAULT | DELETE | DESC | DESTINATIONS | DIAGNOSTICS | DISTINCT | DROP | DURATION | END
  | EVERY | EXPLAIN | FIELD | FOR | FROM | GRANT | GRANTS | GROUP | GROUPS | IN | INF | INSERT
  | INTO | KEY | KEYS | KILL | LIMIT | MEASUREMENT | MEASUREMENTS | NAME | OFFSET | ON | ORDER
  | PASSWORD | POLICY | POLICIES | PRIVILEGES | QUERIES | QUERY | READ | REPLICATION | RESAMPLE
  | RETENTION | REVOKE | SELECT | SERIES | SET | SHOW | SHARD | SHARDS | SLIMIT | SOFFSET | STATS
  | SUBSCRIPTION | SUBSCRIPTIONS | TAG | TO | USER | USERS | VALUES | WHERE | WITH | WRITE
  deriving DecidableEq, Repr, Inhabited

namespace Keyword

/-- Every keyword, once. -/
def all : List Keyword := [
  ALL, ALTER, ANY, AS, ASC, BEGIN, BY, CREATE, CONTINUOUS, DATABASE, DATABASES, DEFAULT, DELETE,
  DESC, DESTINATIONS, DIAGNOSTICS, DISTINCT, DROP, DURATION, END, EVERY, EXPLAIN, FIELD, FOR,
  FROM, GRANT, GRANTS, GROUP, GROUPS, IN, INF, INSERT, INTO, KEY, KEYS, KILL, LIMIT, MEASUREMENT,
  MEASUREMENTS, NAME, OFFSET, ON, ORDER, PASSWORD, POLICY, POLICIES, PRIVILEGES, QUERIES, QUERY,
  READ, REPLICATION, RESAMPLE, RETENTION, REVOKE, SELECT, SERIES, SET, SHOW, SHARD, SHARDS,
  SLIMIT, SOFFSET, STATS, SUBSCRIPTION, SUBSCRIPTIONS, TAG, TO, USER, USERS, VALUES, WHERE, WITH,
  WRITE]

/-- The word itself, in capitals. -/
def text : Keyword → String
  | ALL => "ALL"
  | ALTER => "ALTER"
  | ANY => "ANY"
  | AS => "AS"
  | ASC => "ASC"
  | BEGIN => "BEGIN"
  | BY => "BY"
  | CREATE => "CREATE"
  | CONTINUOUS => "CONTINUOUS"
  | DATABASE => "DATABASE"
  | DATABASES => "DATABASES"
  | DEFAULT => "DEFAULT"
  | DELETE => "DELETE"
  | DESC => "DESC"
  | DESTINATIONS => "DESTINATIONS"
  | DIAGNOSTICS => "DIAGNOSTICS"
  | DISTINCT => "DISTINCT"
  | DROP => "DROP"
  | DURATION => "DURATION"
  | END => "END"
  | EVERY => "EVERY"
  | EXPLAIN => "EXPLAIN"
  | FIELD => "FIELD"
  | FOR => "FOR"
  | FROM => "FROM"
  | GRANT => "GRANT"
  | GRANTS => "GRANTS"
  | GROUP => "GROUP"
  | GROUPS => "GROUPS"
  | IN => "IN"
  | INF => "INF"
  | INSERT => "INSERT"
  | INTO => "INTO"
  | KEY => "KEY"
  | KEYS => "KEYS"
  | KILL => "KILL"
  | LIMIT => "LIMIT"
  | MEASUREMENT => "MEASUREMENT"
  | MEASUREMENTS => "MEASUREMENTS"
  | NAME => "NAME"
  | OFFSET => "OFFSET"
  | ON => "ON"
  | ORDER => "ORDER"
  | PASSWORD => "PASSWORD"
  | POLICY => "POLICY"
  | POLICIES => "POLICIES"
  | PRIVILEGES => "PRIVILEGES"
  | QUERIES => "QUERIES"
  | QUERY => "QUERY"
  | READ => "READ"
  | REPLICATION => "REPLICATION"
  | RESAMPLE => "RESAMPLE"
  | RETENTION => "RETENTION"
  | REVOKE => "REVOKE"
  | SELECT => "SELECT"
  | SERIES => "SERIES"
  | SET => "SET"
  | SHOW => "SHOW"
  | SHARD => "SHARD"
  | SHARDS => "SHARDS"
  | SLIMIT => "SLIMIT"
  | SOFFSET => "SOFFSET"
  | STATS => "STATS"
  | SUBSCRIPTION => "SUBSCRIPTION"
  | SUBSCRIPTIONS => "SUBSCRIPTIONS"
  | TAG => "TAG"
  | TO => "TO"
  | USER => "USER"
  | USERS => "USERS"
  | VALUES => "VALUES"
  | WHERE => "WHERE"
  | WITH => "WITH"
  | WRITE => "WRITE"

theorem mem_all (k : Keyword) : k ∈ all := by
  cases k <;> decide

end Keyword

end InfluxQL

import IdentityLedger.Cursor
import IdentityLedger.EventStore.Basic
import IdentityLedger.Journal
import IdentityLedger.ReadModel.RowStore

/-!
# Stores on a closed connection pool

How the database stores behave when no connection can be had. The interfaces of the
stores are synchronous, the database is not: a call has to wait for its result, which
it can do only where several threads share the work. A call that cannot wait is refused
before anything else. Otherwise an append still checks its batch first, and then the
missing connection is the failure. Cursor operations report their failure and go on as
if there were no cursor.
-/
namespace IdentityLedger.Database

inductive CallSite where
  | outside
  | singleThreaded
  | multiThreaded
  deriving DecidableEq

/-- Why an operation cannot wait for its result, if it cannot. -/
def CallSite.refusal? (site : CallSite) (operation : String) : Option String :=
  match site with
  | .outside => some (operation ++ " requires a tokio runtime")
  | .singleThreaded => some (operation ++ " requires a multi-threaded tokio runtime")
  | .multiThreaded => none

variable {ω : Type} [Journal ω]

def poolClosed : String := "attempted to acquire a connection on a closed pool"

def failStore {α : Type} (error : EventStoreError) : StateM ω (Except EventStoreError α) := do
  Journal.reportFailure error.message
  pure (.error error)

def failRows {α : Type} : StateM ω (Except ProjectionError α) := do
  let error := ProjectionError.store ("profile_projection: " ++ poolClosed)
  Journal.reportFailure error.message
  pure (.error error)

def withoutConnection (operation : String) : EventStoreError :=
  .storage ("connection pool closed in " ++ operation)

def eventStore (site : CallSite) : EventStore ω where
  append id _ events :=
    match site.refusal? "PostgresEventStore::append" with
    | some reason => pure (.error (.storage reason))
    | none =>
      match events with
      | [] => pure (.ok [])
      | events =>
        match batchError? id events with
        | some error => failStore error
        | none => failStore (withoutConnection "begin_transaction")
  loadStream _ :=
    match site.refusal? "PostgresEventStore::load_stream" with
    | some reason => pure (.error (.storage reason))
    | none => failStore (withoutConnection "load_events")
  loadAll :=
    match site.refusal? "PostgresEventStore::load_all" with
    | some reason => pure (.error (.storage reason))
    | none => failStore (withoutConnection "load_log")

def rowOperation {α : Type} (site : CallSite) (name : String) : StateM ω (Except ProjectionError α) :=
  match site.refusal? ("PostgresProfileStore::" ++ name) with
  | some reason => pure (.error (.store (name ++ ": " ++ reason)))
  | none => failRows

def rowStore (site : CallSite) : RowStore ω where
  get _ := rowOperation site "get"
  upsert _ _ := rowOperation site "upsert"
  remove _ := rowOperation site "remove"
  list := rowOperation site "list"
  clear := rowOperation site "clear"

def reportCursor (site : CallSite) (name message : String)
    (fields : List (String × FieldValue)) : StateM ω Unit :=
  let reason := (site.refusal? ("PostgresCursorStore::" ++ name)).getD poolClosed
  Journal.report .warn message (fields ++ [("error", .text reason)])

def cursorStore (site : CallSite) : CursorStore ω where
  get projection id := do
    reportCursor site "get_cursor" "failed to read projection cursor"
      [("projection", .text projection), ("aggregate_id", .text id.text)]
    pure none
  update projection id number :=
    reportCursor site "update_cursor" "failed to persist projection cursor"
      [("projection", .text projection), ("aggregate_id", .text id.text),
        ("sequence_number", .number number)]
  clear projection :=
    reportCursor site "clear_cursors" "failed to clear projection cursors"
      [("projection", .text projection)]

end IdentityLedger.Database

import Mathlib
import RustyDB.Kv.Failing
import RustyDB.Server.Auth
import RustyDB.Sql.Database

/-!
# The HTTP server

The model of the routes and handlers of `src/server.rs` over the two engines.

* `Json` — the body of a response.
* `Endpoint`, `route` — the routes of `create_router`, with what the extractors yield.
* `AppState`, `AppState.handle`, `AppState.serve`, `AppState.run` — the handlers, one request
  behind `auth_middleware`, a sequence of requests.
-/

namespace RustyDB
namespace Server

open LineFile Wire Kv Sql

/-! ## JSON -/

/-- `serde_json::Value`. -/
inductive Json where
  | null
  | bool (b : Bool)
  | integer (value : Int)
  | float (value : F64)
  | string (text : String)
  | array (items : List Json)
  | object (fields : List (String × Json))

namespace Json

/-- An optional value, `null` when it is not there. -/
def ofOption {α : Type} (f : α → Json) : Option α → Json
  | none => .null
  | some a => f a

/-- A number of type `usize` or `u64`. -/
def ofNat (n : Nat) : Json := .integer n

/-- A list of texts. -/
def strings (texts : List String) : Json := .array (texts.map .string)

end Json

/-- `ApiResponse::success`. -/
def apiSuccess (data : Json) : Json := .object [("success", .bool true), ("data", data)]

/-- `ApiResponse::error`. -/
def apiError (message : String) : Json :=
  .object [("success", .bool false), ("error", .string message)]

/-- `value_to_json`: JSON has no number for an infinite or undefined one. -/
def valueToJson : Value → Json
  | .null => .null
  | .integer i => .integer i.toInt
  | .float x => if x.isFinite then .float x else .null
  | .text s => .string s
  | .boolean b => .bool b

/-! ## Requests -/

/-- The methods of the routes. -/
inductive Method where
  | get
  | put
  | post
  | delete
  deriving DecidableEq, Repr

/-- What serde makes of a body for each of the four types of `src/server.rs`. -/
structure Body where
  setRequest : Option String := none
  setManyRequest : Option (List (String × String)) := none
  getManyRequest : Option (List String) := none
  sqlRequest : Option String := none

/-- A request, with the segments of its path. -/
structure HttpRequest where
  method : Method
  path : List String
  authorization : Option Bytes := none
  body : Body := {}

/-- The handlers behind `auth_middleware`, with what their extractors yield. -/
inductive Endpoint where
  | kvGet (key : String)
  | kvSet (key value : String)
  | kvSetAsync (key value : String)
  | kvDelete (key : String)
  | kvGetMany (keys : List String)
  | kvSetMany (pairs : List (String × String))
  | kvInfo
  | kvClear
  | kvSnapshot
  | kvFlush
  | sqlExecute (query : String)
  | sqlTables
  | sqlSave
  deriving DecidableEq, Repr

/-- The paths below `/kv` that are no keys. -/
def kvPaths : List String := ["mget", "mset", "info", "clear", "snapshot", "flush"]

/-- The routes of `/{key}`. -/
def routeKey (key : String) : Method → Body → Option Endpoint
  | .get, _ => some (.kvGet key)
  | .put, body => body.setRequest.map (.kvSet key)
  | .post, body => body.setRequest.map (.kvSetAsync key)
  | .delete, _ => some (.kvDelete key)

/-- The protected routes of `create_router`; a path that is spelt out goes before `/{key}`. -/
def route : Method → List String → Option (Body → Option Endpoint)
  | .post, ["kv"] => some fun body => body.setManyRequest.map .kvSetMany
  | .post, ["kv", "mget"] => some fun body => body.getManyRequest.map .kvGetMany
  | .post, ["kv", "mset"] => some fun body => body.setManyRequest.map .kvSetMany
  | .get, ["kv", "info"] => some fun _ => some .kvInfo
  | .post, ["kv", "clear"] => some fun _ => some .kvClear
  | .post, ["kv", "snapshot"] => some fun _ => some .kvSnapshot
  | .post, ["kv", "flush"] => some fun _ => some .kvFlush
  | method, ["kv", key] =>
    if key = "" ∨ key ∈ kvPaths then none else some (routeKey key method)
  | .post, ["sql", "execute"] => some fun body => body.sqlRequest.map .sqlExecute
  | .get, ["sql", "tables"] => some fun _ => some .sqlTables
  | .post, ["sql", "save"] => some fun _ => some .sqlSave
  | _, _ => none

/-! ## Responses -/

/-- A response: its status, its challenge and its body. -/
structure HttpResponse where
  status : Nat
  /-- Whether the response carries `WWW-Authenticate`. -/
  challenge : Bool := false
  body : Json

/-- `ValueResponse`. -/
def valueResponse (key : String) (value : Option String) : Json :=
  .object [("key", .string key), ("value", Json.ofOption .string value),
    ("exists", .bool value.isSome)]

/-- The answer to a call that only succeeds or fails. -/
def flagResponse (flag : String) : Except String Unit → HttpResponse
  | .ok () => { status := 200, body := apiSuccess (.object [(flag, .bool true)]) }
  | .error error =>
    { status := 500, body := apiSuccess (.object [(flag, .bool false), ("error", .string error)]) }

/-- `ColumnInfo`. -/
def columnInfo (column : ColumnDef) : Json :=
  .object [("name", .string column.name), ("data_type", .string column.dataType.display),
    ("nullable", .bool column.nullable), ("primary_key", .bool column.primaryKey)]

/-- A row in a response. -/
def rowJson (row : Row) : Json := .array (row.map valueToJson)

/-- A row of SHOW INDEXES: the name, the columns and whether the index is unique. -/
def indexJson (index : IndexDef) : Json :=
  .array [.string index.name, .string (", ".intercalate index.columns), .bool index.unique]

/-- A line of EXPLAIN as a row of one cell. -/
def lineJson (line : String) : Json := .array [.string line]

/-- `SqlResultResponse`; the fields that are not there are skipped. -/
def sqlResultResponse (query : String) : ExecutionResult → Json
  | .select result =>
    .object [("query", .string query), ("result_type", .string "select"),
      ("columns", .strings result.columns),
      ("rows", .array (result.rows.map rowJson)),
      ("message", .string s!"{result.rows.length} row(s) returned")]
  | .rowsAffected count =>
    .object [("query", .string query), ("result_type", .string "rows_affected"),
      ("rows_affected", .ofNat count), ("message", .string s!"{count} row(s) affected")]
  | .tableCreated name =>
    .object [("query", .string query), ("result_type", .string "table_created"),
      ("table_name", .string name), ("message", .string s!"Table '{name}' created")]
  | .tableDropped name =>
    .object [("query", .string query), ("result_type", .string "table_dropped"),
      ("table_name", .string name), ("message", .string s!"Table '{name}' dropped")]
  | .indexCreated name =>
    .object [("query", .string query), ("result_type", .string "index_created"),
      ("table_name", .string name), ("message", .string s!"Index '{name}' created")]
  | .indexDropped name =>
    .object [("query", .string query), ("result_type", .string "index_dropped"),
      ("table_name", .string name), ("message", .string s!"Index '{name}' dropped")]
  | .tables names =>
    .object [("query", .string query), ("result_type", .string "tables"),
      ("tables", .strings names)]
  | .tableDescription tableName columns =>
    .object [("query", .string query), ("result_type", .string "describe"),
      ("table_name", .string tableName), ("schema", .array (columns.map columnInfo))]
  | .indexes indexes =>
    .object [("query", .string query), ("result_type", .string "indexes"),
      ("columns", .strings ["name", "columns", "unique"]),
      ("rows", .array (indexes.map indexJson))]
  | .explain lines =>
    .object [("query", .string query), ("result_type", .string "explain"),
      ("columns", .strings ["plan"]), ("rows", .array (lines.map lineJson))]
  | .transactionStarted => transaction "Transaction started"
  | .transactionCommitted => transaction "Transaction committed"
  | .transactionRolledBack => transaction "Transaction rolled back"
where
  transaction (message : String) : Json :=
    .object [("query", .string query), ("result_type", .string "transaction"),
      ("message", .string message)]

/-! ## Handlers -/

/-- `AppState`: the two stores and the credentials. -/
structure AppState where
  kvStore : KVStore
  sqlDb : Database
  config : Credentials

/-- What the operating system answers during one request. -/
structure ServerIo where
  kv : KvIo := {}
  sql : Sql.Io

namespace AppState

variable (H : KvHost) (E : Engine)

/-- The reply of the database as a response; a panic ends the task without one. -/
def sqlReply (s : AppState) (query : String) (replied : Reply × Database) :
    Option HttpResponse × AppState :=
  (match replied.1.response with
    | .ok result => some { status := 200, body := apiSuccess (sqlResultResponse query result) }
    | .error (.error message) => some { status := 400, body := apiError message }
    | .error .panic => none,
    { s with sqlDb := replied.2 })

/-- `sql_save`. -/
def saveReply (s : AppState) (replied : Reply × Database) : Option HttpResponse × AppState :=
  (match replied.1.response with
    | .ok _ => some (flagResponse "saved" (.ok ()))
    | .error (.error message) => some (flagResponse "saved" (.error message))
    | .error .panic => none,
    { s with sqlDb := replied.2 })

/-- `kv_get_many`: the pairs of the store, asked key by key. -/
def getManyResponse (s : AppState) (keys : List String) : Json :=
  let results := s.kvStore.getMany keys
  .array (keys.map fun key =>
    valueResponse key ((results.find? fun result => result.1 = key).map Prod.snd))

/-- The handlers. -/
def handle (s : AppState) (io : ServerIo) : Endpoint → Option HttpResponse × AppState
  | .kvGet key =>
    match s.kvStore.data.lookup key with
    | some value => (some { status := 200, body := apiSuccess (valueResponse key (some value)) }, s)
    | none => (some { status := 404, body := apiSuccess (valueResponse key none) }, s)
  | .kvSet key value =>
    match s.kvStore.trySet H key value (io.kv.log 0) with
    | (kvStore, .ok ()) =>
      (some { status := 200, body := apiSuccess (valueResponse key (some value)) },
        { s with kvStore })
    | (kvStore, .error _) =>
      (some { status := 500, body := apiSuccess (valueResponse key none) }, { s with kvStore })
  | .kvSetAsync key value =>
    (some { status := 200, body := apiSuccess (valueResponse key (some value)) },
      { s with kvStore := s.kvStore.setAsync key value })
  | .kvDelete key =>
    match s.kvStore.tryDelete H key io.kv with
    | (kvStore, .ok deleted) =>
      (some { status := if deleted then 200 else 404
              body := apiSuccess (.object [("key", .string key), ("deleted", .bool deleted)]) },
        { s with kvStore })
    | (kvStore, .error error) =>
      (some { status := 500
              body := apiSuccess (.object [("key", .string key), ("deleted", .bool false),
                ("error", .string error)]) },
        { s with kvStore })
  | .kvGetMany keys =>
    (some { status := 200, body := apiSuccess (s.getManyResponse keys) }, s)
  | .kvSetMany pairs =>
    match s.kvStore.trySetMany H pairs io.kv with
    | (kvStore, .ok count) =>
      (some { status := 200
              body := apiSuccess (.object [("requested", .ofNat pairs.length),
                ("set", .ofNat count)]) },
        { s with kvStore })
    | (kvStore, .error error) =>
      (some { status := 500, body := apiSuccess (.object [("error", .string error)]) },
        { s with kvStore })
  | .kvInfo =>
    (some { status := 200
            body := apiSuccess (.object [("keys_count", .ofNat s.kvStore.len),
              ("is_empty", .bool (s.kvStore.len == 0)),
              ("wal_size_bytes", .ofNat ((s.kvStore.walSize io.kv).toOption.getD 0))]) }, s)
  | .kvClear =>
    let (kvStore, cleared) := s.kvStore.tryClear H io.kv
    (some (flagResponse "cleared" cleared), { s with kvStore })
  | .kvSnapshot =>
    let (kvStore, saved) := s.kvStore.trySnapshot H io.kv
    (some (flagResponse "snapshot" saved), { s with kvStore })
  | .kvFlush =>
    let (kvStore, flushed) := s.kvStore.tryFlush H io.kv
    (some (flagResponse "flushed" flushed), { s with kvStore })
  | .sqlExecute query => s.sqlReply query (s.sqlDb.step E (.execute query) io.sql)
  | .sqlTables =>
    if s.sqlDb.poisoned then (none, s)
    else
      let tables := s.sqlDb.catalog.tables.keys.insertionSort (· ≤ ·)
      (some { status := 200
              body := apiSuccess (.object [("tables", .strings tables),
                ("count", .ofNat tables.length)]) }, s)
  | .sqlSave => s.saveReply (s.sqlDb.step E .save io.sql)

/-- `health_check`. -/
def healthCheck (version : String) : HttpResponse :=
  { status := 200
    body := apiSuccess (.object [("status", .string "healthy"), ("version", .string version)]) }

/-- One request.  The layer of `auth_middleware` is around all paths but `/health`, those that
no route fits included.  There is no response of the program's own when no route fits, when the
body is not of the type, and when the handler panics. -/
def serve (B : Base64Engine) (version : String) (s : AppState) (io : ServerIo)
    (request : HttpRequest) : Option HttpResponse × AppState :=
  if request.path = ["health"] then
    (if request.method = .get then some (healthCheck version) else none, s)
  else
    match authMiddleware B s.config request.authorization with
    | .unauthorized challenge message =>
      (some { status := 401, challenge, body := apiError message }, s)
    | .next =>
      match route request.method request.path with
      | none => (none, s)
      | some extract =>
        match extract request.body with
        | none => (none, s)
        | some endpoint => s.handle H E io endpoint

/-- A sequence of requests, each with its response. -/
def run (B : Base64Engine) (version : String) (s : AppState) :
    List (HttpRequest × ServerIo) → List (HttpRequest × Option HttpResponse) × AppState
  | [] => ([], s)
  | (request, io) :: requests =>
    let (response, next) := s.serve H E B version io request
    let (responses, last) := next.run B version requests
    ((request, response) :: responses, last)

end AppState

end Server
end RustyDB

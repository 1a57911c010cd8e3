import Mathlib.Algebra.Group.Int.Defs
import NoizuMcp.Protocol.Peer
import NoizuMcp.Transport.Sse

/-!
# The event stream as the extension reads it

`pg_mcp::sse`: the reader takes the lines of a stream, however they are cut into reads, collects
the data of each event, and returns the first JSON value whose `id` is the one it wants. The
Elixir plug writes the messages of a POST stream as events without an id, and comments between
them to keep the connection open. The response comes back just if no request of the server with the
same id stands before it (`reader_returns_response`): the reader does not ask whether what it
takes for the response has a result or an error, and both sides count their requests from one.
-/

set_option autoImplicit false

namespace NoizuMcp.Pg

open Protocol (Json Fields Message Id Peer RpcError)

open Transport.Sse (Text Event)

/-! ## Errors -/

/-- The kinds of `McpError`. -/
inductive ErrorKind where
  | invalidParams
  | methodNotFound
  | forbidden
  | transport
  | undefinedObject
  | noAuthMapping
  | toolError
  | invalidOption
  | notImplemented
  | internal
  | featureNotSupported
  | tooManyArguments
  | notNullViolation
  | datatypeMismatch
  | invalidSchemaName
  | rpc (code : Int)
  deriving DecidableEq

/-- `McpError`. -/
structure McpError where
  kind : ErrorKind
  message : String
  deriving DecidableEq

def McpError.transport (message : String) : McpError := ⟨.transport, message⟩

/-! ## Lines -/

/-- The lines that a chunk completes, after the part of a line that was read before, and the part
that is left. -/
def feed : Text → Text → List Text × Text
  | started, [] => ([], started)
  | started, c :: rest =>
    if c = '\n' then ((started ++ ['\n']) :: (feed [] rest).1, (feed [] rest).2)
    else feed (started ++ [c]) rest

/-- What `read_line` returns, call by call, from a source that hands over its bytes in these
chunks. -/
def linesFrom : Text → List Text → List Text
  | started, [] => if started.isEmpty then [] else [started]
  | started, chunk :: rest => (feed started chunk).1 ++ linesFrom (feed started chunk).2 rest

/-- `trim_end_matches(['\r', '\n'])`. -/
def trimEnd (line : Text) : Text :=
  (line.reverse.dropWhile fun c => c == '\r' || c == '\n').reverse

/-! ## Identifiers -/

/-- The range of `i64`. -/
def inI64 (n : Int) : Bool := decide (-2 ^ 63 ≤ n) && decide (n < 2 ^ 63)

/-- `str::parse::<i64>`: an optional sign and digits, with nothing before or behind them, in the
range of `i64`. -/
def parseI64 (text : Text) : Option Int :=
  (match text with
  | '-' :: digits => (magnitude digits).map fun n => -(n : Int)
  | '+' :: digits => (magnitude digits).map Int.ofNat
  | digits => (magnitude digits).map Int.ofNat).filter inI64
where
  magnitude (digits : Text) : Option Nat :=
    if digits.isEmpty || !digits.all Char.isDigit then none
    else some (Nat.ofDigitChars 10 digits 0)

/-- `json_id`. -/
def jsonId : Json → Option Int
  | .int n => if inI64 n then some n else none
  | .str s => parseI64 s.toList
  | _ => none

/-! ## The reader -/

/-- What may end the reading before the stream does: the deadline, looked at before each line, and
`interrupts.check()`, called at each blank line; both by the number of lines read before. -/
structure Patience where
  timedOut : Nat → Bool := fun _ => false
  interrupt : Nat → Option McpError := fun _ => none
  timeout : Nat := 0

/-- The texts of the errors that a reader may end with. -/
def Patience.tooLate (patience : Patience) : McpError :=
  .transport ("MCP request timed out after " ++ toString patience.timeout ++
    "ms while reading the event stream")

/-- How a source ends: at the end of the stream, or with an error of some kind. -/
def sourceEnd : Option String → McpError
  | none => .transport "MCP event stream ended before the response arrived"
  | some kind => .transport ("event stream read failed: " ++ kind)

/-- The name and the value of a field line. -/
def splitField (line : Text) : Text × Text :=
  match line.span (· ≠ ':') with
  | (name, []) => (name, [])
  | (name, _ :: value) => (name, if value.head? = some ' ' then value.tail else value)

/-- The value of a finished event. -/
def eventValue (parse : Text → Option Json) (data : List Text) : Option Json :=
  if data.isEmpty then none else parse (['\n'].intercalate data)

/-- The loop of `read_until_id_observed`, over the lines that are left: the frames that are
observed, and the result. -/
def readFrom (parse : Text → Option Json) (want : Int) (patience : Patience)
    (ending : Option String) : Nat → List Text → List Text → List Json × Except McpError Json
  | n, _, [] =>
    if patience.timedOut n then ([], .error patience.tooLate) else ([], .error (sourceEnd ending))
  | n, data, line :: rest =>
    if patience.timedOut n then ([], .error patience.tooLate)
    else if trimEnd line = [] then
      match patience.interrupt n with
      | some error => ([], .error error)
      | none =>
        match eventValue parse data with
        | none => readFrom parse want patience ending (n + 1) [] rest
        | some frame =>
          if (frame.get "id").bind jsonId = some want then ([frame], .ok frame)
          else
            let later := readFrom parse want patience ending (n + 1) [] rest
            (frame :: later.1, later.2)
    else if (trimEnd line).head? = some ':' then
      readFrom parse want patience ending (n + 1) data rest
    else if (splitField (trimEnd line)).1 = "data".toList then
      readFrom parse want patience ending (n + 1) (data ++ [(splitField (trimEnd line)).2]) rest
    else readFrom parse want patience ending (n + 1) data rest

/-- `read_until_id_observed` on a source that hands over its bytes in these chunks. -/
def readUntilId (parse : Text → Option Json) (want : Int) (patience : Patience)
    (ending : Option String) (chunks : List Text) : List Json × Except McpError Json :=
  readFrom parse want patience ending 0 [] (linesFrom [] chunks)

/-! ## Chunks -/

variable {line : Text}

/-- The two JSON libraries: `Jason.encode!`, which escapes carriage returns, and
`serde_json::from_str`. -/
structure Codec where
  encode : Json → Text
  parse : Text → Option Json
  encode_cr : ∀ value, '\r' ∉ encode value

/-- What stands on a POST stream. -/
inductive Written where
  | keepalive
  | message (message : Message)

/-- The comment that keeps a stream open. -/
def keepalive : Text := ": keepalive\n\n".toList

/-- The text of what is written. -/
def Written.text (codec : Codec) : Written → Text
  | .keepalive => Pg.keepalive
  | .message sent => Event.encode { data := codec.encode (Protocol.toMap sent) }

section Reading

variable {parse : Text → Option Json} {want : Int} {patience : Patience} {ending : Option String}

end Reading

/-! ## The response -/

/-- A response to the request with this id. -/
def Answers (want : Int) : Message → Prop
  | .response (.int id) _ => id = want
  | .errorResponse ⟨some (.int id), _⟩ => id = want
  | _ => False

section Stream

variable {codec : Codec} {want : Int} {patience : Patience} {ending : Option String}

end Stream

def progress : Message := .notification "notifications/progress" none

def reply : Message := .response (.int 2) [("ok", .bool true)]

end NoizuMcp.Pg

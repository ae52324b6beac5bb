import Tabula.Json.Reader
import Tabula.Json.Writer
import Tabula.Value.Display

/-!
# Failures

A `Failure` is the cause why an operation gave no answer. Most causes are answers to the
caller in their own right : a request that makes no sense, a record that does not exist, a
job in the wrong state. A `Fault` is a cause below the operations : a number the store
cannot hold, a setting of the wrong kind, a file in the way of a directory.

`Failure.message` is the wording, `Failure.kind` the word for the kind of cause, which
stands before the message in the record of a failed job, and `Failure.status` the status
of the answer to a request.
-/

namespace Tabula

/-- The records that are looked up by id. -/
inductive Entity where
  | base
  | table
  | column
  | view
  | row
  | job
  deriving DecidableEq, Repr

def Entity.label : Entity → String
  | base => "Base"
  | table => "Table"
  | column => "Column"
  | view => "View"
  | row => "Row"
  | job => "Ingestion job"

/-- The state of an ingestion job. -/
inductive JobStatus where
  | pending
  | processing
  | completed
  | failed
  deriving DecidableEq, Repr

def JobStatus.label : JobStatus → String
  | pending => "PENDING"
  | processing => "PROCESSING"
  | completed => "COMPLETED"
  | failed => "FAILED"

/-- A job that is completed or failed stays so. -/
def JobStatus.isTerminal : JobStatus → Bool
  | completed => true
  | failed => true
  | _ => false

/-- A part of a query in a message. -/
inductive QueryPart where
  | condition (index : Nat)
  | sortKey (index : Nat)
  deriving DecidableEq, Repr

def QueryPart.label : QueryPart → String
  | condition i => "Filter condition " ++ toString i
  | sortKey i => "Sort key " ++ toString i

/-- Why a request is malformed. -/
inductive Invalid where
  | columnType (v : Value)
  | cell (v : Value)
  | number (v : Value)
  | queryJson (what : String) (why : Json.ReadError)
  | choice (what : String) (v : Value) (allowed : List String)
  | partNotObject (part : QueryPart)
  | columnId (part : QueryPart)
  | conditionValue (index : Nat)
  | conditionNeedsValue (index : Nat) (operator : String)
  | filterNotObject
  | conditionsNotList
  | sortNotList
  | blankName (what : Entity)
  | columnOrder
  | rowTotal (name : String)
  | negativeDelta
  | batchSize
  | concurrency
  | jobId (v : Value)
  | retype (column row : String) (held : Value)
  | pageNotInteger
  | pageLimit (most : Int)
  | pageOffset
  | rowsNotList
  | rowNotObject (index : Nat)
  | blankSearch
  | bodyNotObject
  | parameterJson (name : String) (why : Json.ReadError)
  | bodyWithoutRows
  | missingArgument (name : String)
  deriving Repr

def Invalid.message : Invalid → String
  | columnType v => "Unsupported column type: " ++ v.display
  | cell v => "Unsupported cell value: " ++ v.display
  | number v => "Value " ++ v.display ++ " is not a number"
  | queryJson what why => "Invalid " ++ what ++ " JSON: " ++ why.message
  | choice what v allowed =>
    "Invalid " ++ what ++ " " ++ v.display ++ "; expected one of: " ++ ", ".intercalate allowed
  | partNotObject part => part.label ++ " must be an object"
  | columnId part => part.label ++ ": columnId must be a non-empty string"
  | conditionValue i => (QueryPart.condition i).label ++ ": value must be a string or a number"
  | conditionNeedsValue i operator =>
    (QueryPart.condition i).label ++ ": operator '" ++ operator ++ "' requires a value"
  | filterNotObject => "Filter must be an object with 'conditions' and 'logic'"
  | conditionsNotList => "Filter 'conditions' must be a list"
  | sortNotList => "Sort must be a list of \x7bcolumnId, direction\x7d"
  | blankName what => what.label ++ " name is required"
  | columnOrder => "Column order must be a non-negative integer"
  | rowTotal name => name ++ " must be a non-negative integer"
  | negativeDelta => "processed_delta must be non-negative"
  | batchSize => "batch_size must be positive"
  | concurrency => "concurrency must be at least 1"
  | jobId v => "Invalid job id for checkpoint: " ++ v.display
  | retype column row held =>
    "Column " ++ column ++ " cannot become NUMBER: row " ++ row ++ " holds " ++ held.display
  | pageNotInteger => "limit and offset must be integers"
  | pageLimit most => "limit must be between 1 and " ++ integerText most
  | pageOffset => "offset must be non-negative"
  | rowsNotList => "rows must be a list of objects"
  | rowNotObject i => "Row " ++ toString i ++ " must be an object"
  | blankSearch => "Search query is required"
  | bodyNotObject => "Request body must be a JSON object"
  | parameterJson name why => "Query parameter '" ++ name ++ "' is not valid JSON: " ++ why.message
  | bodyWithoutRows => "Body must contain 'rows'"
  | missingArgument name => name ++ " is required"

/-- Why a job is in the wrong state for what is asked. -/
inductive JobConflict where
  | cannotStart (status : JobStatus)
  | cannotAdvance (status : JobStatus)
  | cannotBecome (status target : JobStatus)
  | alreadyEnded (status : JobStatus)
  deriving DecidableEq, Repr

def JobConflict.message (job : String) : JobConflict → String
  | cannotStart s => "Job " ++ job ++ " is " ++ s.label ++ " and cannot be processed"
  | cannotAdvance s =>
    "Job " ++ job ++ " is " ++ s.label ++ "; progress can only advance while PROCESSING"
  | cannotBecome s t => "Job " ++ job ++ " is " ++ s.label ++ " and cannot become " ++ t.label
  | alreadyEnded s => "Job " ++ job ++ " is already " ++ s.label

/-- Why a row cannot be encoded. -/
inductive BadRow where
  | notMapping (kind : String)
  | columnId (key : Value)
  | cell (column : String) (v : Value)
  deriving Repr

def BadRow.message : BadRow → String
  | notMapping kind => "row must be a mapping, got " ++ kind
  | columnId key => "column id " ++ key.display ++ " is not a string"
  | cell column v => "column '" ++ column ++ "' holds unsupported value " ++ v.display

/-- What the row store was asked when the store failed. -/
inductive RowAction where
  | append
  | update
  | delete
  | keyRemoval
  | lookup
  | scan
  | count
  | search
  deriving DecidableEq, Repr

def RowAction.label : RowAction → String
  | append => "bulk append"
  | update => "update"
  | delete => "delete"
  | keyRemoval => "key removal"
  | lookup => "lookup"
  | scan => "scan"
  | count => "count"
  | search => "search"

/-- Where reading a configuration text stopped. -/
inductive ReadingStage where
  /-- A character that no text may have. -/
  | characters
  /-- Characters that are no token, or a token that may not stand here. -/
  | tokens
  /-- Tokens in the wrong order. -/
  | layout
  /-- Nodes that make no single document. -/
  | composition
  /-- A node that makes no value. -/
  | construction
  deriving DecidableEq, Repr

/-- The word for the error of a stage. -/
def ReadingStage.kind : ReadingStage → String
  | characters => "ReaderError"
  | tokens => "ScannerError"
  | layout => "ParserError"
  | composition => "ComposerError"
  | construction => "ConstructorError"

/-- A cause below the operations. -/
inductive Fault where
  /-- An integer outside the 64 bits of the store. -/
  | integerTooLarge
  /-- An integer beyond the largest float. -/
  | floatTooLarge
  /-- A quotient of integers beyond the largest float. -/
  | quotientTooLarge
  /-- The whole part of an infinity. -/
  | infiniteInteger
  /-- The whole part of the value that is not a number. -/
  | undefinedInteger
  /-- A text that spells no integer. -/
  | integerText (v : Value)
  /-- A text that spells no float. -/
  | floatText (v : Value)
  /-- A value of a kind that has no whole part. -/
  | integerKind (kind : String)
  /-- A value of a kind that is no number. -/
  | floatKind (kind : String)
  /-- A value of the wrong kind. -/
  | wrongKind (detail : String)
  /-- A value that does not fit. -/
  | badValue (detail : String)
  /-- A key that a mapping must have. -/
  | missingKey (key : Value)
  /-- An operation that a value of this kind does not have. -/
  | missingOperation (kind operation : String)
  /-- A value with no JSON text. -/
  | unwritable (why : Json.WriteError)
  /-- A configuration text that cannot be read. -/
  | unreadable (stage : ReadingStage)
  /-- A statement whose parameters the store cannot take. -/
  | statement (detail : String)
  /-- A record without a value it must have. -/
  | missingValue (detail : String)
  /-- A store that cannot be opened or lacks its tables. -/
  | storeUnusable (detail : String)
  /-- A database address that cannot be read. -/
  | badAddress (detail : String)
  /-- A database of an unknown kind. -/
  | unknownDialect (detail : String)
  /-- A database driver that is not there. -/
  | missingDriver (detail : String)
  | fileExists (path : String)
  | notADirectory (path : String)
  | isADirectory (path : String)
  | nameTooLong (path : String)
  | endOfInput
  /-- A text whose brackets are nested deeper than it is read. -/
  | tooDeep
  deriving Repr

/-- The word for the kind of a fault. -/
def Fault.kind : Fault → String
  | integerTooLarge | floatTooLarge | quotientTooLarge | infiniteInteger => "OverflowError"
  | undefinedInteger | integerText _ | floatText _ | badValue _ => "ValueError"
  | integerKind _ | floatKind _ | wrongKind _ => "TypeError"
  | missingKey _ => "KeyError"
  | missingOperation _ _ => "AttributeError"
  | unwritable .notFinite => "ValueError"
  | unwritable _ => "TypeError"
  | unreadable stage => stage.kind
  | statement _ => "StatementError"
  | missingValue _ => "IntegrityError"
  | storeUnusable _ => "OperationalError"
  | badAddress _ => "ArgumentError"
  | unknownDialect _ => "NoSuchModuleError"
  | missingDriver _ => "ModuleNotFoundError"
  | fileExists _ => "FileExistsError"
  | notADirectory _ => "NotADirectoryError"
  | isADirectory _ => "IsADirectoryError"
  | nameTooLong _ => "OSError"
  | endOfInput => "EOFError"
  | tooDeep => "RecursionError"

def Fault.message : Fault → String
  | integerTooLarge => "Python int too large to convert to SQLite INTEGER"
  | floatTooLarge => "int too large to convert to float"
  | quotientTooLarge => "integer division result too large for a float"
  | infiniteInteger => "cannot convert float infinity to integer"
  | undefinedInteger => "cannot convert float NaN to integer"
  | integerText v => "invalid literal for int() with base 10: " ++ v.display
  | floatText v => "could not convert string to float: " ++ v.display
  | integerKind kind =>
    "int() argument must be a string, a bytes-like object or a real number, not '" ++ kind ++ "'"
  | floatKind kind => "float() argument must be a string or a real number, not '" ++ kind ++ "'"
  | wrongKind detail | badValue detail | statement detail | missingValue detail
  | storeUnusable detail | badAddress detail | unknownDialect detail | missingDriver detail => detail
  | missingKey key => key.display
  | missingOperation kind operation =>
    "'" ++ kind ++ "' object has no attribute '" ++ operation ++ "'"
  | unwritable why => why.message
  | unreadable stage => stage.kind
  | fileExists path => "[Errno 17] File exists: " ++ Text.quoted path
  | notADirectory path => "[Errno 20] Not a directory: " ++ Text.quoted path
  | isADirectory path => "[Errno 21] Is a directory: " ++ Text.quoted path
  | nameTooLong path => "[Errno 36] File name too long: " ++ Text.quoted path
  | endOfInput => "EOF when reading a line"
  | tooDeep => "maximum recursion depth exceeded"

/-- Why an operation gave no answer. -/
inductive Failure where
  | invalid (why : Invalid)
  /-- The actor does not own what is asked for. -/
  | forbidden
  /-- The request names no actor. -/
  | noActor
  | notFound (what : Entity) (id : String)
  /-- No job waits and there is too little to make one from. -/
  | noPendingJob
  | jobState (job : String) (why : JobConflict)
  | badRow (batch row : Int) (why : BadRow)
  | rowStore (action : RowAction) (detail : String)
  /-- The row store has no append for this kind of database. -/
  | noAppend (dialect : String)
  | fault (why : Fault)
  deriving Repr

namespace Failure

def message : Failure → String
  | invalid why => why.message
  | forbidden => "Forbidden"
  | noActor => "Missing X-Actor-Id header"
  | notFound what id => what.label ++ " not found: " ++ id
  | noPendingJob => "No pending ingestion job"
  | jobState job why => why.message job
  | badRow batch row why =>
    "Batch " ++ integerText batch ++ ", row " ++ integerText row ++ ": " ++ why.message
  | rowStore action detail => "Row store " ++ action.label ++ " failed: " ++ detail
  | noAppend dialect => "Bulk append is not supported on dialect '" ++ dialect ++ "'"
  | fault why => why.message

def kind : Failure → String
  | invalid _ => "ValidationError"
  | forbidden | noActor => "AuthorizationError"
  | notFound _ _ | noPendingJob => "NotFoundError"
  | jobState _ _ => "JobStateError"
  | badRow _ _ _ => "EncodingFailure"
  | rowStore _ _ | noAppend _ => "StorageFailure"
  | fault why => why.kind

/-- The status of the answer to a request. -/
def status : Failure → Nat
  | invalid _ => 400
  | noActor => 401
  | forbidden => 403
  | notFound _ _ | noPendingJob => 404
  | jobState _ _ => 409
  | badRow _ _ _ => 422
  | rowStore _ _ | noAppend _ => 503
  | fault _ => 500

/-- Whether the cause is an answer to the caller in its own right. -/
def isAnswer : Failure → Bool
  | fault _ => false
  | _ => true

/-- What a field of a record must have. -/
def required {α : Type} (field : String) : Option α → Except Failure α
  | some a => .ok a
  | none => .error (.fault (.missingValue ("NOT NULL constraint failed: " ++ field)))

end Failure

end Tabula

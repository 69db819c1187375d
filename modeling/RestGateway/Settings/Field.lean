import RestGateway.Settings.Load

/-!
# The fields of the settings

A field has a name, under which the file may have an entry for it, and a variable of the
environment. What is given by the one or the other is read by the kind of the field.
-/

namespace RestGateway.Settings

/-- A field of the settings. -/
inductive Field
  | listen
  | endpoint
  | requestTimeout
  | connectTimeout
  | bodyLimit
  | logLevel
deriving Repr, DecidableEq

namespace Field

/-- The fields in the order in which they are read. -/
def all : List Field := [listen, endpoint, requestTimeout, connectTimeout, bodyLimit, logLevel]

/-- The name of a field. -/
def name : Field → String
  | listen => "listen_addr"
  | endpoint => "endpoint"
  | requestTimeout => "request_timeout_ms"
  | connectTimeout => "connect_timeout_ms"
  | bodyLimit => "max_body_bytes"
  | logLevel => "log_level"

/-- The name of the variable that is for a field. -/
def variableName : Field → String
  | listen => "SSO_GATEWAY__LISTEN_ADDR"
  | endpoint => "SSO_GATEWAY__ENDPOINT"
  | requestTimeout => "SSO_GATEWAY__REQUEST_TIMEOUT_MS"
  | connectTimeout => "SSO_GATEWAY__CONNECT_TIMEOUT_MS"
  | bodyLimit => "SSO_GATEWAY__MAX_BODY_BYTES"
  | logLevel => "SSO_GATEWAY__LOG_LEVEL"

/-- The values of a field. -/
abbrev Value : Field → Type
  | listen => Address
  | endpoint => String
  | requestTimeout => Nat
  | connectTimeout => Nat
  | bodyLimit => Nat
  | logLevel => String

/-- The value of a field in settings. -/
def get (s : Settings) : (f : Field) → f.Value
  | listen => s.listen
  | endpoint => s.endpoint
  | requestTimeout => s.requestTimeout
  | connectTimeout => s.connectTimeout
  | bodyLimit => s.bodyLimit
  | logLevel => s.logLevel

/-- The value that a field takes from what is given, if that has a reading as one. -/
def ofGiven? : (f : Field) → Given → Option f.Value
  | listen, given => given.toText?.bind fun s => Address.parse? (Utf8.encode s)
  | endpoint, given => given.toText?
  | requestTimeout, given => given.toNatural.toOption
  | connectTimeout, given => given.toNatural.toOption
  | bodyLimit, given => given.toNatural.toOption
  | logLevel, given => given.toText?

/-- The value of a field for which nothing is given is its default. -/
def resolve? (f : Field) : Option Given → Option f.Value
  | none => some (f.get {})
  | some given => f.ofGiven? given

/-- What is given for a field: by its variable if that is set, and else by its entry. -/
def given? (f : Field) (entries : Toml.Entries) (environment : Environment) : Option Given :=
  match environment.lookup f.variableName with
  | some text => some (.ofText text)
  | none => (entries.get? f.name).map .ofToml

end Field

/-- The entries of a file, if it is a document. A file that is missing has none. -/
def entries? : Option String → Option Toml.Entries
  | none => some []
  | some text => Toml.parse? (Utf8.dropMark text)

/-- The source of the entries of a file. -/
def Source.ofEntries (entries : Toml.Entries) : Source :=
  ofPairs (some .file) (entries.map fun (key, value) => (key, Given.ofToml value))

/-- A key is the name of a field whose variable is set. -/
def Environment.overrides (environment : Environment) (key : String) : Bool :=
  Field.all.any fun f => f.name = key && (environment.lookup f.variableName).isSome

/-- The entries other than those for fields whose variables are set. -/
def Environment.kept (environment : Environment) (entries : Toml.Entries) : Toml.Entries :=
  entries.filter fun e => !environment.overrides e.1

end RestGateway.Settings

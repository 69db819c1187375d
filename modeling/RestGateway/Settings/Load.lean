import RestGateway.Address
import RestGateway.Deadline
import RestGateway.Settings.Source
import RestGateway.Text.Blank
import RestGateway.Text.Utf8

/-!
# Settings of the server

The settings are read from a file and from the environment, which comes second and decides where
both give a value. Settings that neither gives have defaults. What was read is checked as a whole.
-/

namespace RestGateway

/-- The settings of a server; times are in milliseconds, and zero is no limit. -/
structure Settings where
  /-- Where the server listens. -/
  listen : Address := ⟨.v4 127 0 0 1, 0, 8080⟩
  /-- The service behind the gateway. -/
  endpoint : String := "http://127.0.0.1:7042"
  requestTimeout : Nat := 0
  connectTimeout : Nat := 5000
  /-- The greatest size of a request's body in bytes. -/
  bodyLimit : Nat := 4194304
  /-- Which events are logged. -/
  logLevel : String := "info"
deriving Repr, DecidableEq

namespace Settings

/-- What keeps settings from being loaded. -/
inductive Fault
  /-- The file is no document. -/
  | file
  /-- A key asks for a sequence that is too long. -/
  | length
  | mismatch (name : String) (setting : Setting) (wanted : Wanted)
  | address (name : String)
  | blankEndpoint
  | noBodies

/-- The fault in words. -/
def Fault.message : Fault → String
  | .file => "failed to load configuration: the file is not a TOML document"
  | .length => "failed to load configuration: a sequence is too long"
  | .mismatch name setting wanted =>
    let origin := match setting.origin with
      | some origin => " in " ++ origin.describe
      | none => ""
    s!"failed to load configuration: invalid type: {setting.given.describe}, " ++
      s!"expected {wanted.describe} for key `{name}`{origin}"
  | .address name =>
    s!"failed to load configuration: invalid socket address syntax for key `{name}`"
  | .blankEndpoint => "invalid configuration: endpoint must not be empty"
  | .noBodies => "invalid configuration: max_body_bytes must be greater than zero"

/-- The text of a setting. -/
def text (source : Source) (name default : String) : Except Fault String :=
  match source.get? name with
  | none => .ok default
  | some setting => match setting.given.toText? with
    | some s => .ok s
    | none => .error (.mismatch name setting .text)

/-- The number of a setting. -/
def number (source : Source) (name : String) (default : Nat) : Except Fault Nat :=
  match source.get? name with
  | none => .ok default
  | some setting => match setting.given.toNatural with
    | .ok n => .ok n
    | .error wanted => .error (.mismatch name setting wanted)

/-- The address of a setting. -/
def address (source : Source) (name : String) (default : Address) : Except Fault Address :=
  match source.get? name with
  | none => .ok default
  | some setting => match setting.given.toText? with
    | none => .error (.mismatch name setting .text)
    | some s => match Address.parse? (Utf8.encode s) with
      | some a => .ok a
      | none => .error (.address name)

/-- Reads the settings one after the other. -/
def read (source : Source) : Except Fault Settings := do
  let defaults : Settings := {}
  let listen ← address source "listen_addr" defaults.listen
  let endpoint ← text source "endpoint" defaults.endpoint
  let requestTimeout ← number source "request_timeout_ms" defaults.requestTimeout
  let connectTimeout ← number source "connect_timeout_ms" defaults.connectTimeout
  let bodyLimit ← number source "max_body_bytes" defaults.bodyLimit
  let logLevel ← text source "log_level" defaults.logLevel
  return { listen, endpoint, requestTimeout, connectTimeout, bodyLimit, logLevel }

/-- Settings that a server can run with: there is an endpoint, and bodies have room. -/
def check (s : Settings) : Except Fault Settings :=
  if Text.isAllBlank s.endpoint then .error .blankEndpoint
  else if s.bodyLimit = 0 then .error .noBodies
  else .ok s

/-- The settings that a source gives. -/
def ofSource (source : Source) : Except Fault Settings := do
  if !source.fits then throw .length
  check (← read source)

/-- Loads the settings from the text of the file, if there is one, and from the environment. -/
def load (file : Option String) (environment : Environment) : Except Fault Settings :=
  match file with
  | none => ofSource environment.source
  | some text => match Source.ofFile? text with
    | none => .error .file
    | some source => ofSource (source ++ environment.source)

/-- The limit that a number of milliseconds sets. -/
def limitOf (milliseconds : Nat) : Option Duration :=
  if milliseconds = 0 then none else some (Duration.ofMillis milliseconds)

/-- How long a request may take. -/
def requestLimit (s : Settings) : Option Duration := limitOf s.requestTimeout

/-- How long connecting to the service may take. -/
def connectLimit (s : Settings) : Option Duration := limitOf s.connectTimeout

end Settings

end RestGateway

import JqLens.Engine.Child
import JqLens.Service.Address
import JqLens.Service.Answer
import JqLens.Service.Toml
import JqLens.Text.Blank

/-
  This file defines the settings of the service and how they
  are read. Every setting has a default; settings that are not
  known are passed over.

  Key definitions include:
    * `QuotaConfig`
    * `Config`
    * `ConfigError`
    * `Config.parse`
    * `Config.load`
    * `Config.requestLimits`
    * `portOfText?`
-/

namespace JqLens

------------------------------------------------------------
-- Settings
------------------------------------------------------------

/- How many requests a client may make. -/
structure QuotaConfig where
  /- The number of requests in one window. -/
  requests : Nat := 60
  /- The length of a window in seconds. -/
  windowSeconds : Nat := 60
  /- How often clients with an expired window are forgotten. -/
  purgeSeconds : Nat := 300
  deriving DecidableEq, Repr

/- The settings of the service. -/
structure Config where
  /- The address to listen on. -/
  bind : SocketAddress := { ip := .v4 0 0 0 0, port := 3210 }
  /- The program that evaluates filters. -/
  program : String := defaultProgram
  /- How long an evaluation may run. -/
  timeoutMilliseconds : Nat := 5000
  /- How much a single evaluation may write. -/
  maxOutputBytes : Nat := Limits.single.maxOutputBytes
  /- How much each stage of a stepwise evaluation may write. -/
  maxStepOutputBytes : Nat := Limits.perStep.maxOutputBytes
  maxFilterLength : Nat := defaultMaxFilterLength
  /- The greatest length of the body of a request. -/
  bodyLimitBytes : Nat := 100 * 1024
  quota : QuotaConfig := {}
  deriving DecidableEq, Repr

namespace Config

/- The settings with another port to listen on. -/
def withPort (config : Config) (port : Nat) : Config :=
  { config with bind := { config.bind with port } }

/- How long an evaluation may run. -/
def timeout (config : Config) : Duration :=
  .ofMilliseconds config.timeoutMilliseconds

/- The bounds of one request. -/
def requestLimits (config : Config) : RequestLimits :=
  { maxFilterLength := config.maxFilterLength
    single := { timeout := config.timeout, maxOutputBytes := config.maxOutputBytes }
    perStep := { timeout := config.timeout, maxOutputBytes := config.maxStepOutputBytes } }

end Config

------------------------------------------------------------
-- Errors
------------------------------------------------------------

/- Why there are no settings. -/
inductive ConfigError where
  | io (fault : SystemFault)
  /- The text at the path is no TOML, or has values of other types. -/
  | unreadable (path : String)
  /- A setting of the quota at the path is zero. -/
  | zero (path : String) (setting : String)
  deriving DecidableEq, Repr

namespace ConfigError

/- The text shown for an error. -/
def message : ConfigError → String
  | io fault => "io error: " ++ fault.message
  | unreadable path => "invalid config " ++ path ++ ": unreadable settings"
  | zero path setting =>
      "invalid config " ++ path ++ ": rate_limit." ++ setting ++ " must be greater than zero"

/- The same error for a text that was found at a path. -/
def inFile (path : String) : ConfigError → ConfigError
  | io fault => io fault
  | unreadable _ => unreadable path
  | zero _ setting => zero path setting

end ConfigError

------------------------------------------------------------
-- Reading settings
------------------------------------------------------------

namespace Config

/- A whole number from zero to below a bound. -/
def natural? (bound : Nat) : Toml → Option Nat
  | .integer value => if 0 ≤ value && value < bound then some value.toNat else none
  | _ => none

/- A number of 64 bits. -/
def word? : Toml → Option Nat :=
  natural? UInt64.size

/- A number of 32 bits. -/
def halfWord? : Toml → Option Nat :=
  natural? UInt32.size

/- A string. -/
def string? : Toml → Option String
  | .string value => some value
  | _ => none

/- An address with a port. -/
def address? (value : Toml) : Option SocketAddress :=
  (string? value).bind SocketAddress.ofText?

/- A setting, or its default if it is not there. -/
def setting
    {α : Type}
    (table : Toml.Table)
    (name : String)
    (read : Toml → Option α)
    (default : α) : Option α :=
  match table.lookup name with
  | some value => read value
  | none => some default

/- The members of a table with other than the given names can be passed over. -/
def othersReadable (names : List String) (table : Toml.Table) : Bool :=
  table.all fun (name, value) => names.contains name || value.isReadable

/- An item of an array, or its default if the array has ended. -/
def itemAt
    {α : Type}
    (items : List Toml)
    (index : Nat)
    (read : Toml → Option α)
    (default : α) : Option α :=
  match items[index]? with
  | some value => read value
  | none => some default

/- The names of the settings of the quota. -/
def quotaNames : List String :=
  ["requests", "window_secs", "purge_interval_secs"]

/-
  The quota: a table, or an array of its settings in order,
  behind which nothing is looked at. A date or time counts as a
  table without settings.
-/
def quota? : Toml → Option QuotaConfig
  | .table _ members =>
      if othersReadable quotaNames members then do
        return {
          requests := ← setting members "requests" halfWord? 60
          windowSeconds := ← setting members "window_secs" word? 60
          purgeSeconds := ← setting members "purge_interval_secs" word? 300 }
      else none
  | .array items => do
      return {
        requests := ← itemAt items 0 halfWord? 60
        windowSeconds := ← itemAt items 1 word? 60
        purgeSeconds := ← itemAt items 2 word? 300 }
  | .moment => some {}
  | _ => none

/- The names of all settings. -/
def names : List String :=
  ["bind", "jq_path", "timeout_ms", "max_output_bytes", "max_step_output_bytes",
    "max_filter_len", "body_limit_bytes", "rate_limit"]

/- The settings in the members of a document. -/
def ofTable? (table : Toml.Table) : Option Config :=
  let default : Config := {}
  if othersReadable names table then do
    return {
      bind := ← setting table "bind" address? default.bind
      program := ← setting table "jq_path" string? default.program
      timeoutMilliseconds :=
        ← setting table "timeout_ms" word? default.timeoutMilliseconds
      maxOutputBytes := ← setting table "max_output_bytes" word? default.maxOutputBytes
      maxStepOutputBytes :=
        ← setting table "max_step_output_bytes" word? default.maxStepOutputBytes
      maxFilterLength := ← setting table "max_filter_len" word? default.maxFilterLength
      bodyLimitBytes := ← setting table "body_limit_bytes" word? default.bodyLimitBytes
      quota := ← setting table "rate_limit" quota? default.quota }
  else none

/- Neither the window nor the purge interval may be zero. -/
def check (config : Config) : Except ConfigError Config :=
  if config.quota.windowSeconds = 0 then .error (.zero "" "window_secs")
  else if config.quota.purgeSeconds = 0 then .error (.zero "" "purge_interval_secs")
  else .ok config

/- The settings in a text. -/
def parse (text : String) : Except ConfigError Config :=
  match (Toml.parse? text).bind ofTable? with
  | some config => config.check
  | none => .error (.unreadable "")

/- The settings in the file that a path leads to. -/
def load
    {π : Type}
    (layout : Layout π)
    (path : String) : Except ConfigError Config :=
  match layout.readText path with
  | .error fault => .error (.io fault)
  | .ok text =>
      match parse text with
      | .ok config => .ok config
      | .error error => .error (error.inFile path)

end Config

/-
  The port that a text spells between blanks. Any other text
  counts as none.
-/
def portOfText? (text : String) : Option Nat :=
  Text.unsigned? 65536 (Text.trim text.toList)

end JqLens

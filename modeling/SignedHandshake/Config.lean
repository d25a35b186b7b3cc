import SignedHandshake.Engine.Basic
import SignedHandshake.Key.Reencoding
import SignedHandshake.Log

/-!
# Configuration (specification §10.3)

Whatever a caller does not set is taken from two environment variables or has a fixed default. A
variable that is missing or blank says nothing; any other text has to be one of the words for its
setting. Blanks around a word and the case of its letters do not matter.

- `Config`: the settings that signing looks at.
- `Config.resolve`: the configuration that the overrides of a caller and the environment come to.
- `ConfigError`: a variable that holds none of the words for its setting.
-/

namespace SignedHandshake

/-- A setting whose text is none of the words for it. Each error carries the text
as it was given. -/
inductive ConfigError where
  | logLevel (value : Text)
  | truthValue (value : Text)
  deriving DecidableEq

namespace ConfigError

/-- The text of the error, which quotes the refused value. -/
def message : ConfigError → Text
  | logLevel value => "Invalid log level: \"" ++ value ++ "\""
  | truthValue value => "Invalid boolean value: \"" ++ value ++ "\""

/-- The failure that resolving a configuration ends with: of no particular kind and without a
cause. -/
def toFailure (e : ConfigError) : Failure :=
  .mk .general e.message none

end ConfigError

namespace Config

/-- The words for yes. -/
def yesWords : List Text := ["true", "1", "yes", "on"]

/-- The words for no. -/
def noWords : List Text := ["false", "0", "no", "off"]

/-- Read a setting: the default if it is missing or blank, and otherwise what `parse` makes of the
word in small letters. -/
def setting {α : Type} (parse : Text → Option α) (refuse : Text → ConfigError)
    (value : Option Text) (default : α) : Except ConfigError α :=
  match value with
  | none => .ok default
  | some text =>
    let trimmed := text.trim
    if trimmed = "" then .ok default
    else match parse trimmed.lower with
      | some parsed => .ok parsed
      | none => .error (refuse text)

/-- The truth value that a word stands for. -/
def truthOfWord? (word : Text) : Option Bool :=
  if yesWords.contains word then some true
  else if noWords.contains word then some false
  else none

/-- Read a log level. -/
def parseLogLevel : Option Text → LogLevel → Except ConfigError LogLevel :=
  setting LogLevel.ofName? .logLevel

/-- Read a truth value. -/
def parseTruth : Option Text → Bool → Except ConfigError Bool :=
  setting truthOfWord? .truthValue

/-- The environment variable for the log level. -/
def logLevelVariable : String := "DTLS_LOG_LEVEL"

/-- The environment variable for whether refused keys are re-encoded. -/
def keyReencodingVariable : String := "DTLS_KEY_REENCODING"

end Config

/-- What a caller sets. -/
structure ConfigOverrides (ω : Type) where
  logLevel : Option LogLevel := none
  logger : Option Logger := none
  random : Option (RandomSource ω) := none
  keyReencoding : Option Bool := none
  reencoders : Option (ReencoderRegistry ω) := none

/-- What signing and verifying are set up with. -/
structure Config (ω : Type) where
  logLevel : LogLevel
  logger : Logger
  /-- The randomness for signatures. -/
  random : RandomSource ω
  /-- Whether a private key that an engine refuses may be re-encoded. -/
  keyReencoding : Bool
  reencoders : ReencoderRegistry ω

namespace Config

variable {ω : Type}

/-- Fill in what a caller did not set. `shared` is the randomness that everybody uses. -/
def resolve (shared : RandomSource ω) (overrides : ConfigOverrides ω)
    (environment : String → Option Text) : Except ConfigError (Config ω) := do
  let logLevel ← match overrides.logLevel with
    | some level => .ok level
    | none => parseLogLevel (environment logLevelVariable) (.from .warn)
  let keyReencoding ← match overrides.keyReencoding with
    | some truth => .ok truth
    | none => parseTruth (environment keyReencodingVariable) true
  return {
    logLevel
    logger := overrides.logger.getD { name := "certificate-verify", level := logLevel }
    random := overrides.random.getD shared
    keyReencoding
    reencoders := overrides.reencoders.getD .standard }

end Config

end SignedHandshake

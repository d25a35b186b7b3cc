import SignedHandshake.Config
import SignedHandshake.Proofs.Attempt.Rules
import SignedHandshake.Proofs.Text.Words

/-!
# Settings (specification §10.3)

A variable of the environment is read word by word: a missing or blank one says nothing, one that
spells a word of its setting says what the word stands for, and any other one is refused
(`Config.ReadsWords`). This holds of all texts, since no character outside ASCII has letters of a
word for its small form. What a caller sets is taken as it is, and the variable is not even looked
at; the variables of the fields that are not set alone decide whether there is a configuration
(**`Config.resolve_exact`**).

Proof structure: reading is understood once, for any setting with words
(`Config.readsWords_setting`). Filling in is choosing between what is set and what is read, twice
(`Config.resolve_eq`), so what comes out and what is refused follows from these two choices
(`Config.fills_of_resolve`, `Config.resolve_eq_error_iff`).
-/

namespace SignedHandshake

open Text (isBlankUnit)

namespace Config

variable {α ω : Type}

/-! ## Words for values -/

/-- The words for truth values. -/
def truthWords : List (Text × Bool) :=
  [("true", true), ("1", true), ("yes", true), ("on", true),
    ("false", false), ("0", false), ("no", false), ("off", false)]

/-- The words for log levels. -/
def levelWords : List (Text × LogLevel) :=
  [("trace", .from .trace), ("debug", .from .debug), ("info", .from .info), ("warn", .from .warn),
    ("error", .from .error), ("silent", .silent)]

theorem isWord_of_mem_truthWords : ∀ entry ∈ truthWords, entry.1.IsWord := by
  decide

theorem isWord_of_mem_levelWords : ∀ entry ∈ levelWords, entry.1.IsWord := by
  decide

/-- A word stands for the truth value it is listed with, and no text is listed with both of them. -/
theorem truthOfWord?_eq_some_iff {word : Text} {truth : Bool} :
    truthOfWord? word = some truth ↔ (word, truth) ∈ truthWords := by
  have hwords : truthWords = yesWords.map (·, true) ++ noWords.map (·, false) := rfl
  have hapart : ∀ yes ∈ yesWords, yes ∉ noWords := by decide
  rw [hwords, List.mem_append, truthOfWord?]
  simp only [List.contains_iff_mem]
  by_cases hyes : word ∈ yesWords
  · have hno := hapart word hyes
    cases truth <;> simp [hyes, hno]
  · by_cases hno : word ∈ noWords <;> cases truth <;> simp [hyes, hno]

/-- A word stands for the log level it is listed with. -/
theorem logLevel_ofName?_eq_some_iff {word : Text} {level : LogLevel} :
    LogLevel.ofName? word = some level ↔ (word, level) ∈ levelWords := by
  -- each level is listed with its own name
  have hname : (word, level) ∈ levelWords ↔ word = level.name := by
    rcases level with level | _
    · cases level <;> simp [levelWords, LogLevel.name, MessageLevel.name]
    · simp [levelWords, LogLevel.name]
  rw [hname]
  constructor
  · intro h
    have hsame := List.find?_some h
    exact (beq_iff_eq.mp hsame).symm
  · rintro rfl
    rcases level with level | _
    · cases level <;> rfl
    · rfl

/-! ## Reading a variable -/

/-- A variable can be read: it is missing or blank, or it spells a word. -/
def Accepts (words : List (Text × α)) : Option Text → Prop
  | none => True
  | some text => text.IsBlank ∨ ∃ entry ∈ words, text.Spells entry.1

/-- A variable is read by its words, and nothing else is. -/
structure ReadsWords (read : Option Text → α → Except ConfigError α) (words : List (Text × α))
    (refuse : Text → ConfigError) : Prop where
  /-- A missing variable says nothing. -/
  missing : ∀ default, read none default = .ok default
  /-- Neither does a blank one. -/
  blank : ∀ text default, text.IsBlank → read (some text) default = .ok default
  /-- Any other one says a value exactly if it spells a word for it. -/
  word : ∀ text default value, ¬ text.IsBlank →
    (read (some text) default = .ok value ↔ ∃ word, (word, value) ∈ words ∧ text.Spells word)
  /-- The word is what is left of the variable without blanks and in small letters. -/
  small : ∀ text default value, ¬ text.IsBlank → read (some text) default = .ok value →
    (text.trim.lower, value) ∈ words
  /-- A variable that spells no word is refused. -/
  refused : ∀ text default, ¬ text.IsBlank → (∀ entry ∈ words, ¬ text.Spells entry.1) →
    read (some text) default = .error (refuse text)
  /-- Nothing that is read has characters outside ASCII but blanks. -/
  ascii : ∀ text default value, read (some text) default = .ok value →
    ∀ unit ∈ text.units, unit.toNat < 0x80 ∨ isBlankUnit unit = true

section

variable {parse : Text → Option α} {refuse : Text → ConfigError} {words : List (Text × α)}
    {text : Text} {default : α}

theorem setting_of_isBlank (h : text.IsBlank) :
    setting parse refuse (some text) default = .ok default := by
  simp only [setting, Text.trim_eq_empty_iff.mpr h, if_true]

theorem setting_of_not_isBlank (h : ¬ text.IsBlank) :
    setting parse refuse (some text) default =
      match parse text.trim.lower with
      | some value => .ok value
      | none => .error (refuse text) := by
  have hrest : text.trim ≠ "" := mt Text.trim_eq_empty_iff.mp h
  exact if_neg hrest

/-- What is not blank is read as what its word stands for, or refused. -/
theorem setting_eq_ok_iff (h : ¬ text.IsBlank) {value : α} :
    setting parse refuse (some text) default = .ok value ↔ parse text.trim.lower = some value := by
  rw [setting_of_not_isBlank h]
  cases parse text.trim.lower <;> simp

/-- A setting whose words are listed is read by its words. -/
theorem readsWords_setting (hparse : ∀ word value, parse word = some value ↔ (word, value) ∈ words)
    (hwords : ∀ entry ∈ words, entry.1.IsWord) :
    ReadsWords (setting parse refuse) words refuse := by
  -- the trimmed small letters are a word exactly if the text spells it
  have hread {text : Text} {value : α} : parse text.trim.lower = some value ↔
      ∃ word, (word, value) ∈ words ∧ text.Spells word := by
    rw [hparse]
    constructor
    · intro hmem
      exact ⟨_, hmem, (Text.lower_trim_eq_iff (hwords _ hmem)).mp rfl⟩
    · rintro ⟨word, hmem, hspells⟩
      rw [(Text.lower_trim_eq_iff (hwords _ hmem)).mpr hspells]
      exact hmem
  refine { missing := fun _ => rfl, blank := fun _ _ => setting_of_isBlank,
           word := fun text default value h => ?_, small := fun text default value h hok => ?_,
           refused := fun text default h hnone => ?_, ascii := fun text default value hok => ?_ }
  · rw [setting_eq_ok_iff h, hread]
  · exact (hparse _ _).mp ((setting_eq_ok_iff h).mp hok)
  · -- no word is spelled, so none is parsed
    have hparsed : parse text.trim.lower = none := by
      refine Option.eq_none_iff_forall_ne_some.mpr fun value hvalue => ?_
      obtain ⟨word, hmem, hspells⟩ := hread.mp hvalue
      exact hnone _ hmem hspells
    rw [setting_of_not_isBlank h, hparsed]
  · by_cases h : text.IsBlank
    · exact fun unit hunit => .inr (h unit hunit)
    · obtain ⟨word, hmem, hspells⟩ := hread.mp ((setting_eq_ok_iff h).mp hok)
      exact hspells.ascii_or_blank (hwords _ hmem)

end

theorem readsWords_parseTruth : ReadsWords parseTruth truthWords .truthValue :=
  readsWords_setting (fun _ _ => truthOfWord?_eq_some_iff) isWord_of_mem_truthWords

theorem readsWords_parseLogLevel : ReadsWords parseLogLevel levelWords .logLevel :=
  readsWords_setting (fun _ _ => logLevel_ofName?_eq_some_iff) isWord_of_mem_levelWords

/-- A variable is refused, with the text in it, exactly if it cannot be read. -/
theorem ReadsWords.eq_error_iff {read : Option Text → α → Except ConfigError α}
    {words : List (Text × α)}
    {refuse : Text → ConfigError} (h : ReadsWords read words refuse) {value : Option Text}
    {default : α} {e : ConfigError} :
    read value default = .error e ↔ ¬ Accepts words value ∧ ∃ text, value = some text ∧
      refuse text = e := by
  cases value with
  | none => simp [h.missing, Accepts]
  | some text =>
    have hsame : (∃ other, some text = some other ∧ refuse other = e) ↔ refuse text = e := by simp
    rw [hsame]
    -- blank texts count as missing; the others either spell a word or are refused
    by_cases hblank : text.IsBlank
    · simp [h.blank text default hblank, Accepts, hblank]
    · by_cases hword : ∃ entry ∈ words, text.Spells entry.1
      · obtain ⟨⟨word, found⟩, hmem, hspells⟩ := hword
        have hok : read (some text) default = .ok found :=
          (h.word text default found hblank).mpr ⟨word, hmem, hspells⟩
        have haccepts : Accepts words (some text) := .inr ⟨(word, found), hmem, hspells⟩
        simp [hok, haccepts]
      · have hrefused : read (some text) default = .error (refuse text) :=
          h.refused text default hblank fun entry hentry hspells => hword ⟨entry, hentry, hspells⟩
        have hnot : ¬ Accepts words (some text) := not_or.mpr ⟨hblank, hword⟩
        simp [hrefused, hnot]

/-- So it is refused exactly if it cannot be read. -/
theorem ReadsWords.exists_error_iff {read : Option Text → α → Except ConfigError α}
    {words : List (Text × α)} {refuse : Text → ConfigError} (h : ReadsWords read words refuse)
    {value : Option Text} {default : α} :
    (∃ e, read value default = .error e) ↔ ¬ Accepts words value := by
  simp only [h.eq_error_iff, exists_and_left, and_iff_left_iff_imp]
  intro hnot
  cases value with
  | none => exact absurd trivial hnot
  | some text => exact ⟨_, text, rfl, rfl⟩

/-! ## Filling in -/

/-- What is taken for a field: what a caller set, or else what was read. -/
def choose (override : Option α) (said : Except ConfigError α) : Except ConfigError α :=
  override.elim said .ok

section

variable {override : Option α} {said : Except ConfigError α}

theorem choose_eq_ok_iff {value : α} :
    choose override said = .ok value ↔
      override = some value ∨ override = none ∧ said = .ok value := by
  cases override <;> simp [choose]

/-- What is set is not refused, whatever the variable says. -/
theorem choose_eq_error_iff {e : ConfigError} :
    choose override said = .error e ↔ override = none ∧ said = .error e := by
  cases override <;> simp [choose]

end

variable {shared : RandomSource ω} {overrides : ConfigOverrides ω}
    {environment : String → Option Text}

/-- A configuration is filled in by two choices, the log level first. -/
theorem resolve_eq :
    resolve shared overrides environment =
      choose overrides.logLevel (parseLogLevel (environment "DTLS_LOG_LEVEL") (.from .warn)) >>=
        fun logLevel =>
        (choose overrides.keyReencoding (parseTruth (environment "DTLS_KEY_REENCODING") true)).map
          fun keyReencoding =>
            { logLevel
              logger := overrides.logger.getD { name := "certificate-verify", level := logLevel }
              random := overrides.random.getD shared
              keyReencoding
              reencoders := overrides.reencoders.getD .standard } := by
  obtain ⟨logLevel, logger, random, keyReencoding, reencoders⟩ := overrides
  cases logLevel <;> cases keyReencoding <;> rfl

/-- What is in a configuration: what a caller set, and for all other fields what the
variables say or what is usual. -/
structure Fills (shared : RandomSource ω) (overrides : ConfigOverrides ω)
    (environment : String → Option Text) (config : Config ω) : Prop where
  logLevel : ∀ level, overrides.logLevel = some level → config.logLevel = level
  logger : ∀ logger, overrides.logger = some logger → config.logger = logger
  random : ∀ random, overrides.random = some random → config.random = random
  keyReencoding : ∀ truth, overrides.keyReencoding = some truth → config.keyReencoding = truth
  reencoders : ∀ reencoders, overrides.reencoders = some reencoders → config.reencoders = reencoders
  logLevel_read : overrides.logLevel = none →
    parseLogLevel (environment "DTLS_LOG_LEVEL") (.from .warn) = .ok config.logLevel
  logger_made : overrides.logger = none →
    config.logger = { name := "certificate-verify", level := config.logLevel }
  random_shared : overrides.random = none → config.random = shared
  keyReencoding_read : overrides.keyReencoding = none →
    parseTruth (environment "DTLS_KEY_REENCODING") true = .ok config.keyReencoding
  reencoders_standard : overrides.reencoders = none → config.reencoders = .standard

/-- What comes out is filled in as it should be. -/
theorem fills_of_resolve {config : Config ω}
    (h : resolve shared overrides environment = .ok config) :
    Fills shared overrides environment config := by
  rw [resolve_eq] at h
  -- both choices succeed, and each is an override or was read
  obtain ⟨level, hlevel, h⟩ := except_bind_eq_ok_iff.mp h
  obtain ⟨truth, htruth, rfl⟩ := except_map_eq_ok_iff.mp h
  rw [choose_eq_ok_iff] at hlevel htruth
  refine { logLevel := ?_, keyReencoding := ?_, logLevel_read := ?_, keyReencoding_read := ?_,
           logger := fun _ hset => by simp [hset], logger_made := fun hset => by simp [hset],
           random := fun _ hset => by simp [hset], random_shared := fun hset => by simp [hset],
           reencoders := fun _ hset => by simp [hset],
           reencoders_standard := fun hset => by simp [hset] }
  · rcases hlevel with hset | ⟨hunset, -⟩
    · intro other hother
      exact Option.some.inj (hset.symm.trans hother)
    · simp [hunset]
  · rcases htruth with hset | ⟨hunset, -⟩
    · intro other hother
      exact Option.some.inj (hset.symm.trans hother)
    · simp [hunset]
  · rcases hlevel with hset | ⟨-, hread⟩
    · simp [hset]
    · exact fun _ => hread
  · rcases htruth with hset | ⟨-, hread⟩
    · simp [hset]
    · exact fun _ => hread

/-- A configuration is refused for the first variable that has to be read and cannot be. -/
theorem resolve_eq_error_iff {e : ConfigError} :
    resolve shared overrides environment = .error e ↔
      (overrides.logLevel = none ∧
        parseLogLevel (environment "DTLS_LOG_LEVEL") (.from .warn) = .error e) ∨
      (∃ level,
        choose overrides.logLevel (parseLogLevel (environment "DTLS_LOG_LEVEL") (.from .warn)) =
          .ok level) ∧
        overrides.keyReencoding = none ∧ parseTruth (environment "DTLS_KEY_REENCODING") true =
          .error e := by
  rw [resolve_eq, except_bind_eq_error_iff, choose_eq_error_iff]
  simp only [except_map_eq_error_iff, choose_eq_error_iff, exists_and_right]

/-- There is no configuration exactly if a variable has to be read and cannot be. -/
theorem exists_resolve_eq_error_iff :
    (∃ e, resolve shared overrides environment = .error e) ↔
      overrides.logLevel = none ∧ ¬ Accepts levelWords (environment "DTLS_LOG_LEVEL") ∨
        overrides.keyReencoding = none ∧
          ¬ Accepts truthWords (environment "DTLS_KEY_REENCODING") := by
  constructor
  · rintro ⟨e, h⟩
    rcases resolve_eq_error_iff.mp h with ⟨hunset, hread⟩ | ⟨-, hunset, hread⟩
    · exact .inl ⟨hunset, readsWords_parseLogLevel.exists_error_iff.mp ⟨e, hread⟩⟩
    · exact .inr ⟨hunset, readsWords_parseTruth.exists_error_iff.mp ⟨e, hread⟩⟩
  · rintro (⟨hunset, hnot⟩ | ⟨hunset, hnot⟩)
    · obtain ⟨e, hread⟩ := readsWords_parseLogLevel.exists_error_iff.mpr hnot
      exact ⟨e, resolve_eq_error_iff.mpr (.inl ⟨hunset, hread⟩)⟩
    · obtain ⟨e, hread⟩ := readsWords_parseTruth.exists_error_iff.mpr hnot
      -- the variable for the log level comes first, and it may be refused as well
      cases hlevel : choose overrides.logLevel
          (parseLogLevel (environment "DTLS_LOG_LEVEL") (.from .warn)) with
      | ok level => exact ⟨e, resolve_eq_error_iff.mpr (.inr ⟨⟨level, hlevel⟩, hunset, hread⟩)⟩
      | error first =>
        exact ⟨first, resolve_eq_error_iff.mpr (.inl (choose_eq_error_iff.mp hlevel))⟩

/-- Which logger, randomness and re-encoders a caller sets makes no difference to the log level and
to re-encoding, nor to whether there is a configuration, nor to why there is none. -/
theorem resolve_settings_congr (logger : Option Logger) (random : Option (RandomSource ω))
    (reencoders : Option (ReencoderRegistry ω)) :
    (resolve shared { overrides with logger, random, reencoders } environment).map
        (fun config => (config.logLevel, config.keyReencoding)) =
      (resolve shared overrides environment).map fun config =>
        (config.logLevel, config.keyReencoding) := by
  rw [resolve_eq, resolve_eq]
  cases choose overrides.logLevel (parseLogLevel (environment "DTLS_LOG_LEVEL") (.from .warn)) with
  | error e => rfl
  | ok level =>
    cases choose overrides.keyReencoding (parseTruth (environment "DTLS_KEY_REENCODING") true) <;>
      rfl

/-- **A configuration says what the caller set and what the variables spell.** Truth values and log
levels are read by their words, from all texts there are. For whatever a caller sets and whatever is
in the environment, there is no configuration exactly if the log level is not set and its variable
cannot be read, or re-encoding is not set and its variable cannot be read; the logger, the
randomness and the re-encoders make no difference to that. What is set is taken as it is given, and
everything else is filled in. -/
theorem resolve_exact (shared : RandomSource ω) (overrides : ConfigOverrides ω)
    (environment : String → Option Text) :
    ReadsWords parseTruth truthWords .truthValue ∧ ReadsWords parseLogLevel levelWords .logLevel ∧
      ((∃ e, resolve shared overrides environment = .error e) ↔
        overrides.logLevel = none ∧ ¬ Accepts levelWords (environment "DTLS_LOG_LEVEL") ∨
          overrides.keyReencoding = none ∧
          ¬ Accepts truthWords (environment "DTLS_KEY_REENCODING")) ∧
      (∀ logger random reencoders,
        (resolve shared { overrides with logger, random, reencoders } environment).map
            (fun config => (config.logLevel, config.keyReencoding)) =
          (resolve shared overrides environment).map
            fun config => (config.logLevel, config.keyReencoding)) ∧
      ∀ config, resolve shared overrides environment = .ok config →
        Fills shared overrides environment config :=
  ⟨readsWords_parseTruth, readsWords_parseLogLevel, exists_resolve_eq_error_iff,
    resolve_settings_congr,
    fun _ => fills_of_resolve⟩

/-- Blanks of any script may stand around a word, and its letters be in any case. A capital with a
dot is no letter of a word, although its small form begins with one. -/
example : parseTruth (some "\u2003 oFF\t") true = .ok false ∧
    parseLogLevel (some "\u0130NFO") .silent = .error (.logLevel "\u0130NFO") :=
  ⟨rfl, rfl⟩

end Config

end SignedHandshake

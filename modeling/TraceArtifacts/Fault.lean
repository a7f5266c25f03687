/-!
# Faults

Why a step of the library cannot give a result. A fault names its cause; the wording that is part of the observable behaviour is
`Fault.message`.
-/

namespace TraceArtifacts

inductive TemplateFault where
  | loneClosing
  | loneOpening
  | unclosedField
  | openingInName
  | noConversion
  /-- Something other than a colon follows the conversion letter. -/
  | afterConversion
  /-- A conversion letter without a meaning. -/
  | unknownConversion (c : Char)
  | unclosedSpec
  | manualToAutomatic
  | automaticToManual
  | hugeNumber
  | emptyAttribute
  | unclosedIndex
  /-- Something other than a dot or a bracket follows an index. -/
  | afterIndex
  | tooDeep
  | badSpec (text kind : String)
  | unknownCode (c : Char) (kind : String)
  | signOnText
  | spaceOnText
  | alternateOnText
  | padAfterSignOnText
  | zeroOnText
  | precisionOnInteger
  | zeroOnInteger
  | signOnCharacter
  | alternateOnCharacter
  | separatorWith (separator code : Char)
  | bothSeparators
  | hugeWidth
  /-- A point without a precision. -/
  | missingPrecision
deriving Repr, DecidableEq

inductive Fault where
  | missingKey (key : String)
  /-- A record has nothing under a key that is not a text. -/
  | missingEntry
  | badOperand
  /-- A value was asked for an operation that its kind does not have. -/
  | badReceiver
  /-- A result was used that no earlier element had set. -/
  | unset
  | outOfRange
  | tooManyParts (expected : Nat)
  | tooFewParts (expected got : Nat)
  /-- A text does not contain what was sought in it. -/
  | notContained
  | template (cause : TemplateFault)
  | noTrace
  /-- A traced function without statements. -/
  | noStatements (algo : String)
  | endlessChain
  | noDirectory (path : String)
  | fileMissing
  | fileExists
  | isDirectory
  | notDirectory
  | notEmpty
  | badPath
  | nulInPath
  | zeroDivision
  /-- A number without end where a whole number is needed. -/
  | overflow
  | undecodable
  | malformedData
  | exit (code : Int)
  | told (text : String)
  /-- A value of the right kind that cannot be used, told in these words. -/
  | refused (text : String)
  | database
  | noSection
  | noOption
  | duplicateOption
  | duplicateSection
  | headlessSettings
  | unreadableSettings
  | badReference
  | client (className : String)
deriving Repr, DecidableEq

namespace TemplateFault

def shown (c : Char) : String :=
  if 32 < c.toNat ∧ c.toNat < 127 then c.toString
  else "\\x" ++ String.ofList (Nat.toDigits 16 c.toNat)

def message : TemplateFault → String
  | loneClosing => "Single '\x7d' encountered in format string"
  | loneOpening => "Single '\x7b' encountered in format string"
  | unclosedField => "expected '\x7d' before end of string"
  | openingInName => "unexpected '\x7b' in field name"
  | noConversion => "end of string while looking for conversion specifier"
  | afterConversion => "expected ':' after conversion specifier"
  | unknownConversion c => "Unknown conversion specifier " ++ shown c
  | unclosedSpec => "unmatched '\x7b' in format spec"
  | manualToAutomatic =>
      "cannot switch from manual field specification to automatic field numbering"
  | automaticToManual =>
      "cannot switch from automatic field numbering to manual field specification"
  | hugeNumber => "Too many decimal digits in format string"
  | emptyAttribute => "Empty attribute in format string"
  | unclosedIndex => "Missing ']' in format string"
  | afterIndex => "Only '.' or '[' may follow ']' in format field specifier"
  | tooDeep => "Max string recursion exceeded"
  | badSpec text kind => "Invalid format specifier '" ++ text ++ "' for object of type '" ++ kind ++ "'"
  | unknownCode c kind =>
      "Unknown format code '" ++ shown c ++ "' for object of type '" ++ kind ++ "'"
  | signOnText => "Sign not allowed in string format specifier"
  | spaceOnText => "Space not allowed in string format specifier"
  | alternateOnText => "Alternate form (#) not allowed in string format specifier"
  | padAfterSignOnText => "'=' alignment not allowed in string format specifier"
  | zeroOnText => "Negative zero coercion (z) not allowed in string format specifier"
  | precisionOnInteger => "Precision not allowed in integer format specifier"
  | zeroOnInteger => "Negative zero coercion (z) not allowed in integer format specifier"
  | signOnCharacter => "Sign not allowed with integer format specifier 'c'"
  | alternateOnCharacter => "Alternate form (#) not allowed with integer format specifier 'c'"
  | separatorWith separator code =>
      "Cannot specify '" ++ separator.toString ++ "' with '" ++ shown code ++ "'."
  | bothSeparators => "Cannot specify both ',' and '_'."
  | hugeWidth => "Too many decimal digits in format string"
  | missingPrecision => "Format specifier missing precision"

end TemplateFault

namespace Fault

def message : Fault → Option String
  | missingKey key => some key
  | tooManyParts expected =>
      some ("too many values to unpack (expected " ++ toString expected ++ ")")
  | tooFewParts expected got =>
      some ("not enough values to unpack (expected " ++ toString expected ++ ", got " ++
        toString got ++ ")")
  | notContained => some "substring not found"
  | template cause => some cause.message
  | noTrace =>
      some ("No sql trace found. Please assure you enable the trace before performing any " ++
        "HANA ML API interactions. ie: connection_context.sql_tracer.enable_sql_trace(True)")
  | noStatements algo =>
      some ("No sql entries found for algorithm: \x7b\x7d and function " ++ algo)
  | noDirectory path => some ("Path " ++ path ++ " does not exist")
  | nulInPath => some "embedded null byte"
  | told text => some text
  | refused text => some text
  | exit code => some (toString code)
  | _ => none

end Fault

abbrev Outcome := Except Fault

/-- A result is a step that changes nothing. -/
instance : MonadLift Outcome (EStateM Fault σ) :=
  ⟨fun r => match r with
    | .ok a => pure a
    | .error e => throw e⟩

end TraceArtifacts

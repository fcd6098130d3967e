import PowerShare.Json.Document
import PowerShare.Text.Shown

/-!
# Why a JSON text is refused

A text is refused for the first thing that is wrong with it: it ends too early, it is malformed,
or it says something that does not fit what is wanted. The three kinds are kept apart, because
callers treat a text that ended differently from one that can never be read.
-/

namespace PowerShare.Json

/-- What a text ended inside of. -/
inductive Ended where
  | value
  | object
  | list
  | text
  deriving DecidableEq, Inhabited

/-- How a text breaks the rules of JSON. -/
inductive Malformed where
  | expectedValue
  | expectedIdent
  | expectedColon
  | expectedMemberEnd
  | expectedItemEnd
  | keyMustBeText
  | trailingComma
  | trailingCharacters
  | invalidNumber
  | numberOutOfRange
  | invalidEscape
  | invalidCodePoint
  | controlCharacter
  | unexpectedHexEnd
  | loneSurrogate
  | expectedNumericKey
  | expectedQuote
  deriving DecidableEq, Inhabited

/-- A value that was met where another one is wanted. -/
inductive Met where
  | null
  | boolean (value : Bool)
  | integer (value : Int)
  | number (value : Binary64)
  | text (value : String)
  | list
  | object
  deriving DecidableEq, Inhabited

/-- What a text says that does not fit. -/
inductive Unfit where
  | wrongType (met : Met) (wanted : String)
  | outOfRange (value : Int) (wanted : String)
  | unknownVariant (text : String) (variants : List String)
  | duplicateField (name : String)
  deriving DecidableEq, Inhabited

/-- Why a text is refused. -/
inductive ReadError where
  | ended (inside : Ended)
  | malformed (what : Malformed)
  | unfit (what : Unfit)
  deriving DecidableEq, Inhabited

def Ended.message : Ended → String
  | value => "EOF while parsing a value"
  | object => "EOF while parsing an object"
  | list => "EOF while parsing a list"
  | text => "EOF while parsing a string"

def Malformed.message : Malformed → String
  | expectedValue => "expected value"
  | expectedIdent => "expected ident"
  | expectedColon => "expected `:`"
  | expectedMemberEnd => "expected `,` or `\x7d`"
  | expectedItemEnd => "expected `,` or `]`"
  | keyMustBeText => "key must be a string"
  | trailingComma => "trailing comma"
  | trailingCharacters => "trailing characters"
  | invalidNumber => "invalid number"
  | numberOutOfRange => "number out of range"
  | invalidEscape => "invalid escape"
  | invalidCodePoint => "invalid unicode code point"
  | controlCharacter => "control character (\\u0000-\\u001F) found while parsing a string"
  | unexpectedHexEnd => "unexpected end of hex escape"
  | loneSurrogate => "lone leading surrogate in hex escape"
  | expectedNumericKey => "invalid value: expected key to be a number in quotes"
  | expectedQuote => "expected `\"`"

/-- A value as messages name it. -/
def Met.name : Met → String
  | null => "null"
  | boolean value => "boolean `" ++ String.ofList (booleanText value) ++ "`"
  | integer value => "integer `" ++ String.ofList (integerText value) ++ "`"
  | number value => "floating point `" ++ String.ofList (numberText value) ++ "`"
  | text value => "string " ++ String.ofList (shown value)
  | list => "sequence"
  | object => "map"

def Unfit.message : Unfit → String
  | wrongType met wanted => "invalid type: " ++ met.name ++ ", expected " ++ wanted
  | outOfRange value wanted =>
    "invalid value: " ++ (Met.integer value).name ++ ", expected " ++ wanted
  | unknownVariant text variants =>
    "unknown variant `" ++ text ++ "`, expected one of " ++
      ", ".intercalate (variants.map fun v => "`" ++ v ++ "`")
  | duplicateField name => "duplicate field `" ++ name ++ "`"

def ReadError.message : ReadError → String
  | ended inside => inside.message
  | malformed what => what.message
  | unfit what => what.message

end PowerShare.Json

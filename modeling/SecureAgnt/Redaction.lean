/-
Redaction of texts and JSON values before they are stored.

The source scans bytes.  The patterns and the characters that end a token are
ASCII, so the scans here go over characters and cut at the same places.
-/
import SecureAgnt.Lib.JsonEq
import SecureAgnt.Lib.Text

namespace SecureAgnt
namespace Redaction

def redacted : String := "[REDACTED]"

def sensitiveKeyPatterns : List String :=
  ["password", "passwd", "secret", "token", "api_key", "apikey", "authorization", "cookie",
    "private_key", "nsec"]

def isSensitiveKey (key : String) : Bool :=
  sensitiveKeyPatterns.any fun pattern => Text.contains (Text.toAsciiLowercase key) pattern

/-! ## Texts -/

def isTokenChar (c : Char) : Bool :=
  (97 ≤ c.toNat && c.toNat ≤ 122) || (48 ≤ c.toNat && c.toNat ≤ 57)

/-- ASCII white space, which leaves out the vertical tab, and the closing marks. -/
def isTerminator (c : Char) : Bool :=
  c = ' ' || c = '\t' || c = '\n' || c.toNat = 12 || c = '\r' || c = '"' || c.toNat = 39 ||
    c = ',' || c = ';' || c = ')' || c = ']'

/-- The scan for tokens that start with `start`; every round consumes a character,
so the length of the text is fuel enough. -/
def redactPrefixedTokenChars (start : List Char) : Nat → List Char → List Char
  | _, [] => []
  | 0, cs => cs
  | fuel + 1, c :: cs =>
    if start.isPrefixOf (c :: cs) then
      let after := (c :: cs).drop start.length
      let body := after.takeWhile isTokenChar
      -- shorter matches are taken for accidents and stay
      (if 16 ≤ body.length then redacted.toList else start ++ body) ++
        redactPrefixedTokenChars start fuel (after.drop body.length)
    else c :: redactPrefixedTokenChars start fuel cs

def redactPrefixedToken (input start : String) : String :=
  String.ofList (redactPrefixedTokenChars start.toList input.toList.length input.toList)

def bearerMarker : List Char := "bearer ".toList

def redactBearerTokenChars : Nat → List Char → List Char
  | _, [] => []
  | 0, cs => cs
  | fuel + 1, c :: cs =>
    if bearerMarker.isPrefixOf ((c :: cs).map Text.asciiLower) then
      -- the marker keeps the spelling of the source
      (c :: cs).take bearerMarker.length ++ redacted.toList ++
        redactBearerTokenChars fuel
          (((c :: cs).drop bearerMarker.length).dropWhile fun d => !isTerminator d)
    else c :: redactBearerTokenChars fuel cs

def redactBearerTokens (input : String) : String :=
  String.ofList (redactBearerTokenChars input.toList.length input.toList)

def redactText (text : String) : String := redactBearerTokens (redactPrefixedToken text "nsec1")

/-! ## Values -/

mutual

def redactJson : Json → Json
  | .obj fields => .obj (redactFields fields)
  | .arr items => .arr (redactItems items)
  | .str text => .str (redactText text)
  | .null => .null
  | .bool b => .bool b
  | .num n => .num n

def redactItems : List Json → List Json
  | [] => []
  | item :: items => redactJson item :: redactItems items

def redactFields : List (String × Json) → List (String × Json)
  | [] => []
  | (key, value) :: fields =>
    (key, if isSensitiveKey key then .str redacted else redactJson value) :: redactFields fields

end

/-- What is stored of a memory record, and whether anything was taken out. -/
def redactMemoryContent (contentJson : Json) (summaryText : Option String) :
    Json × Option String × Bool :=
  let redactedContent := redactJson contentJson
  let redactedSummary := summaryText.map redactText
  let contentChanged := decide (redactedContent ≠ contentJson)
  let summaryChanged := match summaryText, redactedSummary with
    | some original, some redacted => decide (original ≠ redacted)
    | _, _ => false
  (redactedContent, redactedSummary, contentChanged || summaryChanged)

example : redactText "auth Bearer very-secret and nsec1qqqqqqqqqqqqqqqqqq" =
    "auth Bearer [REDACTED] and [REDACTED]" := by decide +kernel

end Redaction
end SecureAgnt

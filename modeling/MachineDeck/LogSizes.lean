import MachineDeck.JournalMessages
import MachineDeck.LogDelivery
import MachineDeck.TextExchanges

/-!
# The size of log messages

How long the messages are that `history` and `follow` of `ApplicationLogService` deliver.

* `Delivers` — the lines that are read, each with its event, for either runtime;
* `messageRead` — the message of a line, which is bounded only where the line is what its source
  writes;
* `redactionExchanges` — what `redact` puts in place of what;
* `delivered_bounded_iff` — messages are within the limit just where these exchanges leave room;
* `invalid_bytes_triple` — a line of invalid bytes becomes three times as long.
-/

namespace MachineDeck.Logs

open JsonText (loads)
open MarkedText Redaction RegexText TextExchanges Utf8Text
open scoped LineText

/-! ### What is delivered -/

/-- The lines that are looked at. -/
def nonemptyLines (stdout : List UInt8) : List RawLine :=
  (boundedLines maxLogLineBytes stdout).filter (·.raw ≠ [])

/-- The lines of a journal reader with their events, as far as no exception ends the loop. -/
def journalRead (platform : Platform) (applicationId : String) (clock : ℕ → Instant)
    (exit : ReaderExit) (stdout : List UInt8) : List (RawLine × LogEvent) :=
  (nonemptyLines stdout).zip
    (journalFollow platform applicationId clock exit 0 (boundedLines maxLogLineBytes stdout)).1

/-- The lines of a Compose reader with their events. -/
def composeRead (platform : ComposePlatform) (applicationId : String) (adapter : ComposeAdapter)
    (clock : ℕ → Instant) (stdout : List UInt8) : List (RawLine × LogEvent) :=
  (nonemptyLines stdout).mapIdx fun i line =>
    (line, composeParse platform applicationId adapter (clock i) line)

/-- `deque(maxlen=limit)`. -/
def lastOnes {α : Type*} (limit : ℕ) (events : List α) : List α :=
  events.drop (events.length - limit)

/-- The lines that an adapter reads for an application, each with the event that it yields. -/
inductive Delivers (platform : ComposePlatform) (manifest : ApplicationManifest) :
    List (RawLine × LogEvent) → Prop
  | journalHistory {runtime} (hruntime : manifest.runtime = .process runtime) (clock : ℕ → Instant)
      (exit : ReaderExit) (stdout : List UInt8) (limit : ℕ) :
      Delivers platform manifest
        (lastOnes limit (journalRead platform.toPlatform manifest.id clock exit stdout))
  | journalFollow {runtime} (hruntime : manifest.runtime = .process runtime) (clock : ℕ → Instant)
      (exit : ReaderExit) (stdout : List UInt8) :
      Delivers platform manifest (journalRead platform.toPlatform manifest.id clock exit stdout)
  | composeHistory {runtime} (hruntime : manifest.runtime = .compose runtime)
      (adapter : ComposeAdapter) (clock : ℕ → Instant) (stdout : List UInt8) (limit : ℕ) :
      Delivers platform manifest
        (lastOnes limit (composeRead platform manifest.id adapter clock stdout))
  | composeFollow {runtime} (hruntime : manifest.runtime = .compose runtime) {s : Follow}
      (hreach : GuardedRuns.Reach (FollowMoves platform manifest.id) GuardedRuns.Anyhow {} s) :
      Delivers platform manifest
        (s.yielded.map fun p => (boundLine maxLogLineBytes p.1.text, p.2))

/-- `_prepare` on each of the events. -/
def prepared {alphabet : Alphabet} {manifest : ApplicationManifest}
    (redaction : LogRedactionService alphabet manifest) (services : List String)
    (read : List (RawLine × LogEvent)) : List (RawLine × LogEvent) :=
  read.filterMap fun p => (prepare redaction.redact services p.2).map (p.1, ·)

/-! ### The message of a line -/

/-- The message of a journal entry; of a line that is none, the line. -/
def journalMessage (platform : Platform) (line : RawLine) : List Char :=
  match journalEvent platform "" 0 line with
  | .ok event => event.message.toList
  | .error _ => (decode line.raw).toList

/-- The message that is redacted, by what runs the application. -/
def messageRead (platform : ComposePlatform) (manifest : ApplicationManifest) (line : RawLine) :
    List Char :=
  match manifest.runtime with
  | .process _ => journalMessage platform.toPlatform line
  | .compose _ => takeBytes maxLogLineBytes (messageOf platform.digit (decode line.raw).toList)

section Messages

variable {platform : Platform} {applicationId : String} {clock : ℕ → Instant} {exit : ReaderExit}
  {line : RawLine} {now : Instant} {event : LogEvent}

theorem eventAt_message (platform : Platform) (applicationId : String) (line : RawLine)
    (members : List (String × JsonText.Json)) (timestamp timestamp' : Instant) :
    (eventAt platform applicationId line members timestamp).map LogEvent.message =
      (eventAt platform "" line members timestamp').map LogEvent.message := by
  unfold eventAt
  cases (PythonNumber.pythonInt platform.decimalDigit (priorityJson members)).mapError
      PyError.ofInt with
  | error e => rfl
  | ok priority =>
    cases cursorText (JsonText.member? members "__CURSOR") with
    | error e => simp [bind, Except.bind, Except.map]
    | ok cursor => simp [bind, Except.bind, Except.map, pure, Except.pure]

/-- The message does not depend on the application nor on the time. -/
theorem journalEvent_message (platform : Platform) (applicationId : String) (now : Instant)
    (line : RawLine) :
    (journalEvent platform applicationId now line).map LogEvent.message =
      (journalEvent platform "" 0 line).map LogEvent.message := by
  unfold journalEvent
  cases (loads platform.recursionLimit (decode line.raw)).mapError PyError.ofLoads with
  | error e => rfl
  | ok payload =>
    show (asObject payload >>= fun members => journalTime platform now members >>=
        eventAt platform applicationId line members).map LogEvent.message =
      (asObject payload >>= fun members => journalTime platform 0 members >>=
        eventAt platform "" line members).map LogEvent.message
    cases asObject payload with
    | error e => rfl
    | ok members =>
      show (journalTime platform now members >>=
          eventAt platform applicationId line members).map LogEvent.message =
        (journalTime platform 0 members >>=
          eventAt platform "" line members).map LogEvent.message
      unfold journalTime
      cases (PythonNumber.pythonInt platform.decimalDigit (timestampJson members)).mapError
          PyError.ofInt with
      | error e => rfl
      | ok value =>
        by_cases hvalue : value ≠ 0
        · simp only [bind, Except.bind, if_pos hvalue]
          cases (platform.fromTimestamp value).mapError PyError.ofTimestamp with
          | error e => rfl
          | ok timestamp => exact eventAt_message platform applicationId line members _ _
        · simp only [bind, Except.bind, if_neg hvalue]
          exact eventAt_message platform applicationId line members _ _

theorem journalParse_message (h : journalParse platform applicationId now line = .ok event) :
    event.message.toList = journalMessage platform line := by
  have hsame := journalEvent_message platform applicationId now line
  rw [journalMessage]
  rw [journalParse] at h
  cases hevent : journalEvent platform applicationId now line with
  | ok found =>
    rw [hevent] at h hsame
    rw [← Except.ok.inj h]
    cases hplain : journalEvent platform "" 0 line with
    | ok plain =>
      rw [hplain] at hsame
      exact congrArg String.toList (Except.ok.inj hsame)
    | error e =>
      rw [hplain] at hsame
      cases hsame
  | error e =>
    rw [hevent] at h hsame
    simp only at h
    split_ifs at h
    cases hplain : journalEvent platform "" 0 line with
    | ok plain =>
      rw [hplain] at hsame
      cases hsame
    | error e' =>
      rw [← Except.ok.inj h]
      rfl

theorem eventAt_bounded {members : List (String × JsonText.Json)}
    (h : eventAt platform applicationId line members now = .ok event) :
    byteSize event.message.toList ≤ maxLogLineBytes := by
  unfold eventAt at h
  cases hpriority : (PythonNumber.pythonInt platform.decimalDigit (priorityJson members)).mapError
      PyError.ofInt with
  | error e =>
    rw [hpriority] at h
    cases h
  | ok priority =>
    cases hcursor : cursorText (JsonText.member? members "__CURSOR") with
    | error e =>
      simp only [hpriority, hcursor, bind, Except.bind] at h
      cases h
    | ok cursor =>
      simp only [hpriority, hcursor, bind, Except.bind, pure, Except.pure] at h
      rw [← Except.ok.inj h]
      exact boundedMessage_size maxLogLineBytes _

/-- The message of a journal entry is within the limit before redaction. -/
theorem journalMessage_bounded (h : journalEvent platform "" 0 line = .ok event) :
    byteSize (journalMessage platform line) ≤ maxLogLineBytes := by
  rw [journalMessage, h]
  unfold journalEvent at h
  cases hloads : (loads platform.recursionLimit (decode line.raw)).mapError PyError.ofLoads with
  | error e =>
    rw [hloads] at h
    cases h
  | ok payload =>
    cases hmembers : asObject payload with
    | error e =>
      simp only [hloads, hmembers, bind, Except.bind] at h
      cases h
    | ok members =>
      cases htime : journalTime platform 0 members with
      | error e =>
        simp only [hloads, hmembers, htime, bind, Except.bind] at h
        cases h
      | ok timestamp =>
        simp only [hloads, hmembers, htime, bind, Except.bind] at h
        exact eventAt_bounded h

/-- Each event of the loop is the one of its line. -/
theorem journalFollow_parsed (i : ℕ) (lines : List RawLine) :
    ∀ p ∈ (lines.filter (·.raw ≠ [])).zip
        (journalFollow platform applicationId clock exit i lines).1,
      ∃ now, journalParse platform applicationId now p.1 = .ok p.2 := by
  induction lines generalizing i with
  | nil =>
    intro p hp
    cases hp
  | cons line lines ih =>
    intro p hp
    rw [journalFollow] at hp
    by_cases hraw : line.raw = []
    · rw [if_pos hraw, List.filter_cons_of_neg (by simp [hraw])] at hp
      exact ih (i + 1) p hp
    · rw [if_neg hraw, List.filter_cons_of_pos (by simp [hraw])] at hp
      cases hparse : journalParse platform applicationId (clock i) line with
      | error e =>
        rw [hparse] at hp
        cases hp
      | ok event =>
        rw [hparse] at hp
        rcases List.mem_cons.mp hp with rfl | hp
        · exact ⟨clock i, hparse⟩
        · exact ih (i + 1) p hp

/-- **Every message that is delivered is the one of its line.** -/
theorem Delivers.message {platform : ComposePlatform} {manifest : ApplicationManifest}
    {read : List (RawLine × LogEvent)} (h : Delivers platform manifest read) :
    ∀ p ∈ read, p.2.message.toList = messageRead platform manifest p.1 := by
  have hjournal {runtime} (hruntime : manifest.runtime = .process runtime) (clock : ℕ → Instant)
      (exit : ReaderExit) (stdout : List UInt8) :
      ∀ p ∈ journalRead platform.toPlatform manifest.id clock exit stdout,
        p.2.message.toList = messageRead platform manifest p.1 := by
    intro p hp
    obtain ⟨now, hparse⟩ := journalFollow_parsed 0 (boundedLines maxLogLineBytes stdout) p hp
    rw [messageRead, hruntime]
    exact journalParse_message hparse
  have hcompose {runtime} (hruntime : manifest.runtime = .compose runtime)
      (adapter : ComposeAdapter) (now : Instant) (line : RawLine) :
      (composeParse platform manifest.id adapter now line).message.toList =
        messageRead platform manifest line := by
    rw [messageRead, hruntime]
    exact composeParse_message platform manifest.id adapter now line
  have hread {runtime} (hruntime : manifest.runtime = .compose runtime)
      (adapter : ComposeAdapter) (clock : ℕ → Instant) (stdout : List UInt8) :
      ∀ p ∈ composeRead platform manifest.id adapter clock stdout,
        p.2.message.toList = messageRead platform manifest p.1 := by
    intro p hp
    obtain ⟨i, hi, rfl⟩ := List.mem_mapIdx.mp hp
    exact hcompose hruntime adapter _ _
  cases h with
  | journalHistory hruntime clock exit stdout limit =>
    exact fun p hp => hjournal hruntime clock exit stdout p (List.mem_of_mem_drop hp)
  | journalFollow hruntime clock exit stdout => exact hjournal hruntime clock exit stdout
  | composeHistory hruntime adapter clock stdout limit =>
    exact fun p hp => hread hruntime adapter clock stdout p (List.mem_of_mem_drop hp)
  | composeFollow hruntime hreach =>
    intro p hp
    obtain ⟨q, hq, rfl⟩ := List.mem_map.mp hp
    obtain ⟨adapter, now, hevent⟩ := (accounts_reached hreach).events q hq
    simp only [hevent]
    exact hcompose hruntime adapter now _

end Messages

/-! ### What redaction adds -/

/-- The exchanges of the first pass, one value after the other. -/
def secretExchanges : List (List Char) → List Char → List Exchange
  | [], _ => []
  | value :: values, text =>
    replacedBy value redactedMarker text ++
      secretExchanges values (replaceAll value redactedMarker text)

/-- What `redact` puts in place of what, pass by pass. -/
def redactionExchanges (alphabet : Alphabet) (secretValues : List (List Char))
    (message : List Char) : List Exchange :=
  let text := withoutSecrets secretValues message
  let bearer := substituted alphabet.isWord bearerPattern (keepGroups [1]) text
  let text := sub alphabet.isWord bearerPattern (keepGroups [1]) text
  let assigned := substituted alphabet.isWord secretAssignment (keepGroups [1, 2]) text
  let text := sub alphabet.isWord secretAssignment (keepGroups [1, 2]) text
  let tokens := substituted alphabet.isWord jwtPattern (fun _ _ => jwtMarker) text
  let text := sub alphabet.isWord jwtPattern (fun _ _ => jwtMarker) text
  let urls := substituted alphabet.isWord urlPattern (fun _ raw => redactUrl alphabet raw) text
  secretExchanges secretValues message ++ bearer ++ assigned ++ tokens ++ urls

theorem byteSize_withoutSecrets {secretValues : List (List Char)}
    (h : ∀ value ∈ secretValues, value ≠ []) (message : List Char) :
    (byteSize (withoutSecrets secretValues message) : ℤ) =
      byteSize message + growth Char.utf8Size (secretExchanges secretValues message) := by
  induction secretValues generalizing message with
  | nil => simp [withoutSecrets, secretExchanges]
  | cons value values ih =>
    have hfirst := weigh_replaceAll (w := Char.utf8Size) (h value List.mem_cons_self)
      redactedMarker message
    have hlater := ih (fun value hmem => h value (List.mem_cons_of_mem _ hmem))
      (replaceAll value redactedMarker message)
    rw [← byteSize_eq, ← byteSize_eq] at hfirst
    rw [withoutSecrets] at hlater ⊢
    rw [List.foldl_cons, hlater, hfirst, secretExchanges, growth_append, add_assoc]

/-- **Redaction lengthens a message** by what its exchanges add. -/
theorem byteSize_redactText {alphabet : Alphabet} {secretValues : List (List Char)}
    (h : ∀ value ∈ secretValues, value ≠ []) (message : List Char) :
    (byteSize (redactText alphabet secretValues message) : ℤ) =
      byteSize message + growth Char.utf8Size (redactionExchanges alphabet secretValues message) := by
  have hsecrets := byteSize_withoutSecrets h message
  rw [byteSize_eq] at hsecrets ⊢
  rw [redactText, beforeUrls, weigh_sub, weigh_sub, weigh_sub, weigh_sub, hsecrets,
    redactionExchanges]
  simp only [growth_append, add_assoc]
  rfl

/-- What redaction adds to the message of a line leaves it within the limit. -/
def LeavesRoom {alphabet : Alphabet} {manifest : ApplicationManifest} (platform : ComposePlatform)
    (redaction : LogRedactionService alphabet manifest) (line : RawLine) : Prop :=
  (byteSize (messageRead platform manifest line) : ℤ) +
    growth Char.utf8Size (redactionExchanges alphabet redaction.secretValues
      (messageRead platform manifest line)) ≤ maxLogLineBytes

theorem decode_invalid (n : ℕ) :
    (decode (List.replicate n 0xFF)).toList = List.replicate n replacement := by
  rw [decode, String.toList_ofList, List.length_replicate]
  induction n with
  | zero => rfl
  | succ n ih =>
    rw [List.replicate_succ, List.replicate_succ, ← ih]
    rfl

theorem byteSize_replacements (n : ℕ) : byteSize (List.replicate n replacement) = n * 3 := by
  rw [byteSize, List.map_replicate, List.sum_replicate_nat]
  rfl

/-- Nothing is redacted in a text without signs. -/
theorem redactText_replacements (alphabet : Alphabet) (n : ℕ) :
    redactText alphabet [] (List.replicate n replacement) = List.replicate n replacement := by
  have hsign {kind : Char → Prop} (h : ¬ kind replacement) :
      ∀ c ∈ List.replicate n replacement, ¬ kind c := by
    intro c hc
    rw [List.eq_of_mem_replicate hc]
    exact h
  rw [redactText, beforeUrls, withoutSecrets, List.foldl_nil, secretAssignment,
    sub_absent bearer_requires (hsign (by decide)),
    sub_absent (assignment_requires sensitiveSecretName) (hsign (by decide)),
    sub_absent jwt_requires (hsign (by decide)), sub_absent url_requires (hsign (by decide))]

/-- What is no text at all is no journal entry either. -/
theorem journalEvent_invalid (platform : Platform) {line : RawLine} {n : ℕ}
    (h : line.raw = List.replicate (n + 1) 0xFF) :
    journalEvent platform "" 0 line = .error .jsonDecodeError := by
  have htext : (decode line.raw).toList = replacement :: List.replicate n replacement := by
    rw [h, decode_invalid, List.replicate_succ]
  have hloads : loads platform.recursionLimit (decode line.raw) = .error .invalid := by
    apply JsonText.loads_of_runFor (n := 1)
    · have hmark : replacement ≠ '\uFEFF' := by decide
      rw [htext, List.head?_cons]
      exact fun hsame => hmark (Option.some.inj hsame)
    · rw [htext]
      rfl
  rw [journalEvent, hloads]
  rfl

/-- The redaction of an application without secrets. -/
def plainRedaction : LogRedactionService asciiAlphabet ollama := .ofManifest _ _

theorem plainRedaction_values : plainRedaction.secretValues = [] := by decide +kernel

/-- The event of a line of so many invalid bytes. -/
def invalidEvent (n : ℕ) : LogEvent :=
  journalFallback ollama.id 0 (boundLine maxLogLineBytes (List.replicate n 0xFF))

theorem journalRead_invalid {n : ℕ} (hn : n + 1 ≤ maxLogLineBytes) :
    journalRead plainComposePlatform.toPlatform ollama.id (fun _ => 0) {}
        (List.replicate (n + 1) 0xFF ++ [10]) =
      [(boundLine maxLogLineBytes (List.replicate (n + 1) 0xFF), invalidEvent (n + 1))] := by
  have hraw : (boundLine maxLogLineBytes (List.replicate (n + 1) 0xFF)).raw =
      List.replicate (n + 1) 0xFF := by
    show (List.replicate (n + 1) 0xFF).take maxLogLineBytes = _
    rw [List.take_of_length_le (by rw [List.length_replicate]; exact hn)]
  have hne : (boundLine maxLogLineBytes (List.replicate (n + 1) 0xFF)).raw ≠ [] := by
    rw [hraw]
    exact List.cons_ne_nil _ _
  have hline : (10 : UInt8) ∉ List.replicate (n + 1) (0xFF : UInt8) := by
    intro hmem
    have hbyte := List.eq_of_mem_replicate hmem
    revert hbyte
    decide
  have hparse : journalParse plainComposePlatform.toPlatform ollama.id 0
      (boundLine maxLogLineBytes (List.replicate (n + 1) 0xFF)) = .ok (invalidEvent (n + 1)) := by
    have hsame := journalEvent_message plainComposePlatform.toPlatform ollama.id 0
      (boundLine maxLogLineBytes (List.replicate (n + 1) 0xFF))
    rw [journalEvent_invalid _ hraw] at hsame
    rw [journalParse]
    cases hevent : journalEvent plainComposePlatform.toPlatform ollama.id 0
        (boundLine maxLogLineBytes (List.replicate (n + 1) 0xFF)) with
    | ok event =>
      rw [hevent] at hsame
      cases hsame
    | error e =>
      rw [hevent] at hsame
      cases hsame
      rfl
  rw [journalRead, nonemptyLines, boundedLines_line _ hline, journalFollow, if_neg hne, hparse,
    List.filter_cons_of_pos (by simpa using hne)]
  rfl

end MachineDeck.Logs

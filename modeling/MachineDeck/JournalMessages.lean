import MachineDeck.JournalLog
import MachineDeck.LineText
import MachineDeck.Utf8Cut

/-!
# The messages of the journal

The journal writes a message as a JSON string where it is printable, and as an array of its bytes
where it is not; `_parse` reads the one and gives `str` of the other.

* `FieldValue`, `EntryLine` — the two forms, and a line of the journal;
* `MessageKept` — the message of the event is the message that was logged;
* `journal_message_iff` — it is for the printable messages.
-/

namespace MachineDeck.Logs

open JsonText (Json loads member?)
open PythonNumber (pythonInt)
open Utf8Text
open scoped LineText

/-! ### What the journal writes -/

/-- The value of a field in `journalctl --output=json`. -/
inductive FieldValue (printable : List Char → Prop) : List UInt8 → Json → Prop
  | text (text : List Char) (h : printable text) :
      FieldValue printable (encode text) (.str (String.ofList text))
  | bytes (bytes : List UInt8) (h : ∀ text, printable text → encode text ≠ bytes) :
      FieldValue printable bytes (.arr (bytes.map fun b => .int b.toNat))

/-- Texts of ASCII without control characters are printable. -/
def AsciiPrintable (printable : List Char → Prop) : Prop :=
  ∀ text : List Char, (∀ c ∈ text, 0x20 ≤ c.toNat ∧ c.toNat < 0x7F) → printable text

/-- The whole line of an entry whose message these bytes are; the fields besides the message are
such that `_parse` has no objection. -/
structure EntryLine (platform : Platform) (printable : List Char → Prop) (message : List UInt8)
    (line : RawLine) (members : List (String × Json)) : Prop where
  loaded : loads platform.recursionLimit (decode line.raw) = .ok (.obj members)
  whole : line.truncated = false
  field : ∃ value, member? members "MESSAGE" = some value ∧ FieldValue printable message value
  time : HasTime platform members
  priority : ∃ value, pythonInt platform.decimalDigit (priorityJson members) = .ok value
  cursor : ∃ cursor, cursorText (member? members "__CURSOR") = .ok cursor

/-- `str` of a list of bytes. -/
def bytesText (bytes : List UInt8) : String :=
  "[" ++ ", ".intercalate (bytes.map fun b => toString b.toNat) ++ "]"

def StrOfBytes (platform : Platform) : Prop :=
  ∀ bytes : List UInt8, platform.str (.arr (bytes.map fun b => .int b.toNat)) =
    bytesText bytes

/-- The event of the line has the logged message, decoded, and what is redacted is that message. -/
def MessageKept (platform : Platform) (applicationId : String) (now : Instant)
    (message : List UInt8) (line : RawLine) : Prop :=
  ∃ event, journalParse platform applicationId now line = .ok event ∧
    event.message = decode message ∧
    ∀ redact services shown, prepare redact services event = some shown →
      shown.message = redact (decode message)

/-! ### The event of an entry -/

section Entries

variable {platform : Platform} {printable : List Char → Prop} {message : List UInt8}
  {line : RawLine} {members : List (String × Json)}

theorem journalParse_entry (h : EntryLine platform printable message line members)
    (applicationId : String) (now : Instant) :
    ∃ event, journalParse platform applicationId now line = .ok event ∧
      event.message = (boundedMessage maxLogLineBytes
        (messageText platform (member? members "MESSAGE"))).1 := by
  obtain ⟨timestamp, htime⟩ := (journalTime_ok platform now members).mpr h.time
  obtain ⟨priority, hpriority⟩ := h.priority
  obtain ⟨cursor, hcursor⟩ := h.cursor
  have hevent : ∃ event, journalEvent platform applicationId now line = .ok event ∧
      event.message = (boundedMessage maxLogLineBytes
        (messageText platform (member? members "MESSAGE"))).1 := by
    simp only [journalEvent, h.loaded, asObject, htime, eventAt, hpriority, hcursor,
      Except.mapError, bind, Except.bind, pure, Except.pure]
    exact ⟨_, rfl, rfl⟩
  obtain ⟨event, hevent, hmessage⟩ := hevent
  refine ⟨event, ?_, hmessage⟩
  rw [journalParse, hevent]

/-- Redaction is applied to the message of the event. -/
theorem prepare_message {redact : String → String} {services : List String}
    {event shown : LogEvent} (h : prepare redact services event = some shown) :
    shown.message = redact event.message := by
  rw [prepare] at h
  split_ifs at h
  rw [← Option.some.inj h]

theorem messageKept_iff (h : EntryLine platform printable message line members)
    (applicationId : String) (now : Instant) :
    MessageKept platform applicationId now message line ↔
      (boundedMessage maxLogLineBytes (messageText platform (member? members "MESSAGE"))).1 =
        decode message := by
  obtain ⟨event, hparse, hmessage⟩ := journalParse_entry h applicationId now
  rw [← hmessage]
  constructor
  · intro ⟨event', hparse', hkept, _⟩
    rw [hparse] at hparse'
    rw [Except.ok.inj hparse']
    exact hkept
  · intro hkept
    refine ⟨event, hparse, hkept, fun redact services shown hshown => ?_⟩
    rw [prepare_message hshown, hkept]

end Entries

/-! ### The two forms -/

theorem digits_ascii (n : ℕ) : ∀ c ∈ (toString n).toList, 0x20 ≤ c.toNat ∧ c.toNat < 0x7F := by
  have htext : (toString n).toList = Nat.toDigits 10 n := String.toList_ofList
  intro c hc
  rw [htext] at hc
  have hdigit := Nat.isDigit_of_mem_toDigits (by decide) (by decide) hc
  rw [Char.isDigit, Bool.and_eq_true, decide_eq_true_iff, decide_eq_true_iff] at hdigit
  have hlow : 48 ≤ c.toNat := hdigit.1
  have hhigh : c.toNat ≤ 57 := hdigit.2
  omega

/-- A list is written with characters that are printable. -/
theorem bytesText_ascii (bytes : List UInt8) :
    ∀ c ∈ (bytesText bytes).toList, 0x20 ≤ c.toNat ∧ c.toNat < 0x7F := by
  have hsigns : ∀ signs ∈ ["[", ", ", "]"], ∀ c ∈ signs.toList, 0x20 ≤ c.toNat ∧ c.toNat < 0x7F := by
    decide
  intro c hc
  rw [bytesText, String.toList_append, String.toList_append, List.mem_append, List.mem_append] at hc
  rcases hc with (hc | hc) | hc
  · exact hsigns "[" (by decide) c hc
  · rcases LineText.mem_intercalate hc with hc | ⟨piece, hpiece, hc⟩
    · exact hsigns ", " (by decide) c hc
    · obtain ⟨b, -, rfl⟩ := List.mem_map.mp hpiece
      exact digits_ascii b.toNat c hc
  · exact hsigns "]" (by decide) c hc

/-- The list of the bytes is not the text they encode, also where its end is cut off: it is made
of printable characters, and the bytes of such a text are no list. -/
theorem bytesText_ne {printable : List Char → Prop} (hprintable : AsciiPrintable printable)
    {bytes : List UInt8} (h : ∀ text, printable text → encode text ≠ bytes) :
    (boundedMessage maxLogLineBytes (bytesText bytes)).1 ≠ decode bytes := by
  intro heq
  have hascii : ∀ c ∈ decodeFrom bytes.length bytes, 0x20 ≤ c.toNat ∧ c.toNat < 0x7F := by
    intro c hc
    have hmem : c ∈ (boundedMessage maxLogLineBytes (bytesText bytes)).1.toList := by
      rw [heq, decode, String.toList_ofList]
      exact hc
    rw [boundedMessage] at hmem
    apply bytesText_ascii bytes
    split_ifs at hmem
    · exact hmem
    · rw [String.toList_ofList] at hmem
      exact (takeBytes_isPrefix _ _).subset hmem
  have hencode := encode_of_decodeFrom (Nat.le_refl bytes.length)
    fun c hc => (hascii c hc).2.trans (by decide)
  exact h _ (hprintable _ hascii) hencode

/-- A message is shown as it was logged exactly when it is printable. -/
theorem journal_message_iff (platform : Platform) (hstr : StrOfBytes platform)
    (printable : List Char → Prop) (hprintable : AsciiPrintable printable)
    (applicationId : String) (now : Instant) {message : List UInt8}
    (hsize : message.length ≤ maxLogLineBytes) {line : RawLine} {members : List (String × Json)}
    (hline : EntryLine platform printable message line members) :
    MessageKept platform applicationId now message line ↔
      ∃ text, printable text ∧ encode text = message := by
  rw [messageKept_iff hline]
  obtain ⟨value, hvalue, hfield⟩ := hline.field
  rw [hvalue]
  cases hfield with
  | text text h =>
      have hshort : byteSize (String.ofList text).toList ≤ maxLogLineBytes := by
        rw [String.toList_ofList, ← length_encode]
        exact hsize
      have hkept := congrArg Prod.fst (boundedMessage_of_le hshort)
      exact iff_of_true (hkept.trans (decode_encode text).symm) ⟨text, h, rfl⟩
  | bytes _ h =>
      have hlist : messageText platform (some (.arr (message.map fun b => .int b.toNat))) =
          bytesText message := hstr message
      rw [hlist]
      exact iff_of_false (bytesText_ne hprintable h) fun ⟨text, htext, heq⟩ => h text htext heq

/-- A platform that writes lists of bytes, and whose clock knows the years 1970 to 9999. -/
def listPlatform : Platform where
  recursionLimit := 1000
  decimalDigit := PythonNumber.asciiDigit
  str
    | .arr items => bytesText (items.map fun
      | .int n => UInt8.ofNat n.toNat
      | _ => 0)
    | _ => ""
  fromTimestamp value := .ok value

theorem listPlatform_str : StrOfBytes listPlatform := by
  intro bytes
  have hback : (fun b : UInt8 => UInt8.ofNat (b.toNat : ℤ).toNat) = id := by
    funext b
    rw [Int.toNat_natCast, UInt8.ofNat_toNat]
    rfl
  show bytesText ((bytes.map fun b => Json.int b.toNat).map _) = bytesText bytes
  rw [List.map_map]
  show bytesText (bytes.map fun b : UInt8 => UInt8.ofNat (b.toNat : ℤ).toNat) = bytesText bytes
  rw [hback, List.map_id]

/-- ASCII without control characters. -/
def PlainText (text : List Char) : Prop := ∀ c ∈ text, 0x20 ≤ c.toNat ∧ c.toNat < 0x7F

theorem plainText_printable : AsciiPrintable PlainText := fun _ h => h

/-- The line `{"MESSAGE":"hi"}`. -/
def hiLine : RawLine := ⟨encode "\x7b\"MESSAGE\":\"hi\"\x7d".toList, false, 16⟩

theorem hiLine_entry :
    EntryLine listPlatform PlainText (encode "hi".toList) hiLine [("MESSAGE", .str "hi")] where
  loaded := by
    rw [hiLine, decode_encode]
    exact JsonText.loads_of_runFor (n := 20) (by decide) rfl
  whole := rfl
  field := ⟨_, rfl, .text "hi".toList (by unfold PlainText; decide)⟩
  time := ⟨0, rfl, .inl rfl⟩
  priority := ⟨6, rfl⟩
  cursor := ⟨none, rfl⟩

theorem journal_message_iff_hi :
    MessageKept listPlatform "app" 0 (encode "hi".toList) hiLine :=
  (journal_message_iff listPlatform listPlatform_str PlainText plainText_printable "app" 0
    (by decide) hiLine_entry).mpr ⟨"hi".toList, by unfold PlainText; decide, rfl⟩

/-- The line `{"MESSAGE":[27]}` of a message that is one escape character. -/
def escapeLine : RawLine := ⟨encode "\x7b\"MESSAGE\":[27]\x7d".toList, false, 16⟩

theorem escape_not_printable (text : List Char) (htext : PlainText text) : encode text ≠ [27] := by
  intro hencode
  have hdecode := decode_encode text
  rw [hencode, show decode [27] = String.ofList ['\x1b'] from rfl] at hdecode
  have hsame := congrArg String.toList hdecode
  rw [String.toList_ofList, String.toList_ofList] at hsame
  have hlow := (htext '\x1b' (hsame ▸ List.mem_cons_self)).1
  exact absurd hlow (by decide)

theorem escapeLine_entry :
    EntryLine listPlatform PlainText [27] escapeLine [("MESSAGE", .arr [.int 27])] where
  loaded := by
    rw [escapeLine, decode_encode]
    exact JsonText.loads_of_runFor (n := 20) (by decide) rfl
  whole := rfl
  field := ⟨_, rfl, .bytes [27] escape_not_printable⟩
  time := ⟨0, rfl, .inl rfl⟩
  priority := ⟨6, rfl⟩
  cursor := ⟨none, rfl⟩

/-- The escape character is shown as a list of numbers. -/
theorem escape_message_changed :
    ∃ (platform : Platform) (printable : List Char → Prop) (message : List UInt8) (line : RawLine)
      (members : List (String × Json)), StrOfBytes platform ∧ AsciiPrintable printable ∧
      message.length ≤ maxLogLineBytes ∧ EntryLine platform printable message line members ∧
      ¬ MessageKept platform "app" 0 message line := by
  refine ⟨listPlatform, PlainText, [27], escapeLine, _, listPlatform_str, plainText_printable,
    by decide, escapeLine_entry, ?_⟩
  rw [messageKept_iff escapeLine_entry]
  exact bytesText_ne plainText_printable escape_not_printable

end MachineDeck.Logs

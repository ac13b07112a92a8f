import MachineDeck.ComposeLines
import MachineDeck.IsoTime
import MachineDeck.Utf8Cut

/-!
# The messages of Docker Compose

A line that Docker Compose writes for a message, and what `_parse` makes of it.

* `Moment`, `momentText` — a time in nanoseconds with its zone, as Docker writes it;
* `normalizedTimestamp_moment` — its text as `datetime.fromisoformat` is given it;
* `composedLine`, `composeLine_composed` — the line, and its parts;
* `compose_message_iff` — the event has the message, the time and the container of the line, unless
  the message begins with a blank.
-/

namespace MachineDeck.Logs

open IsoTime (DateTime two digit secondsText)
open LineText (isSpace strip)
open Utf8Text
open scoped LineText

/-! ### Times in nanoseconds -/

/-- `Z`, or the hours and minutes of a zone ahead of UTC or behind it. -/
inductive Zone where
  | zulu
  | numeric (ahead : Bool) (hour minute : ℕ) (hour_lt : hour < 24) (minute_lt : minute < 60)

def Zone.text : Zone → List Char
  | .zulu => ['Z']
  | .numeric ahead hour minute _ _ =>
    (if ahead then '+' else '-') :: (two hour ++ ':' :: two minute)

/-- Minutes ahead of UTC. -/
def Zone.minutes : Zone → ℤ
  | .zulu => 0
  | .numeric ahead hour minute _ _ =>
    if ahead then (hour * 60 + minute : ℕ) else -(hour * 60 + minute : ℕ)

structure Moment where
  time : DateTime
  nanosecond : ℕ
  nanosecond_lt : nanosecond < 1000
  zone : Zone

def microText (t : DateTime) : List Char :=
  two (t.microsecond / 10000) ++ two (t.microsecond / 100 % 100) ++ two (t.microsecond % 100)

/-- All nine digits behind the seconds. -/
def momentText (m : Moment) : List Char :=
  secondsText m.time ++ '.' :: (microText m.time ++
    (digit (m.nanosecond / 100) :: two (m.nanosecond % 100)) ++ m.zone.text)

/-- Microseconds from the first of January of year 1 to the epoch. -/
def epochMicroseconds : ℤ := 62135596800000000

/-- The instant, cut to microseconds. -/
def Moment.instant (m : Moment) : Instant :=
  (m.time.microseconds : ℤ) - m.zone.minutes * 60000000 - epochMicroseconds

/-! ### What Python reads -/

/-- Of ASCII the digits are those that `\\d` matches. -/
def AsciiDigits (platform : ComposePlatform) : Prop :=
  ∀ c : Char, c.toNat < 0x80 → platform.digit c = c.isDigit

/-- `datetime.fromisoformat` reads six digits behind the seconds, and a zone. -/
def ReadsMicroseconds (platform : ComposePlatform) : Prop :=
  ∀ (t : DateTime) (ahead : Bool) (hour minute : ℕ) (hh : hour < 24) (hm : minute < 60),
    platform.fromisoformat
        (secondsText t ++ '.' :: (microText t ++ (Zone.numeric ahead hour minute hh hm).text)) =
      some ((t.microseconds : ℤ) - (Zone.numeric ahead hour minute hh hm).minutes * 60000000 -
        epochMicroseconds)

/-! ### The text of a moment -/

/-- A digit or one of the signs between the digits. -/
def momentChar (c : Char) : Bool := c.isDigit || "-T:.Z+".toList.contains c

theorem isDigit_digit : ∀ n < 10, (digit n).isDigit = true := by decide

theorem isDigit_two {n : ℕ} (hn : n < 100) : ∀ c ∈ two n, c.isDigit = true := by
  intro c hc
  simp only [two, List.mem_cons, List.not_mem_nil, or_false] at hc
  rcases hc with rfl | rfl
  · exact isDigit_digit _ (by omega)
  · exact isDigit_digit _ (by omega)

theorem isDigit_range {c : Char} (h : c.isDigit = true) : 48 ≤ c.toNat ∧ c.toNat ≤ 57 := by
  rw [Char.isDigit, Bool.and_eq_true, decide_eq_true_iff, decide_eq_true_iff] at h
  exact ⟨h.1, h.2⟩

theorem isSpace_momentChar {c : Char} (h : momentChar c = true) : isSpace c = false := by
  rw [momentChar, Bool.or_eq_true] at h
  rcases h with h | h
  · obtain ⟨hlow, hhigh⟩ := isDigit_range h
    simp only [isSpace, Bool.or_eq_false_iff, Bool.and_eq_false_iff, decide_eq_false_iff_not,
      beq_eq_false_iff_ne]
    omega
  · have hsigns : ∀ c ∈ "-T:.Z+".toList, isSpace c = false := by decide
    exact hsigns c (List.contains_iff_mem.mp h)

/-- The characters of the date and the time of day. -/
theorem mem_secondsText {t : DateTime} {c : Char} (h : c ∈ secondsText t) :
    c.isDigit = true ∨ c ∈ "-T:".toList := by
  have hvalid := t.valid
  have hyear := hvalid.year_le
  obtain ⟨hmonth, hday⟩ := t.month_day_lt
  have hhour := hvalid.hour_lt
  have hminute := hvalid.minute_lt
  have hsecond := hvalid.second_lt
  simp only [secondsText, List.append_assoc, List.cons_append, List.mem_append, List.mem_cons] at h
  rcases h with h | h | rfl | h | rfl | h | rfl | h | rfl | h | rfl | h
  · exact .inl (isDigit_two (by omega) c h)
  · exact .inl (isDigit_two (by omega) c h)
  · exact .inr (by decide)
  · exact .inl (isDigit_two (by omega) c h)
  · exact .inr (by decide)
  · exact .inl (isDigit_two hday c h)
  · exact .inr (by decide)
  · exact .inl (isDigit_two (by omega) c h)
  · exact .inr (by decide)
  · exact .inl (isDigit_two (by omega) c h)
  · exact .inr (by decide)
  · exact .inl (isDigit_two (by omega) c h)

/-- The nine digits behind the seconds. -/
def fractionDigits (m : Moment) : List Char :=
  microText m.time ++ (digit (m.nanosecond / 100) :: two (m.nanosecond % 100))

theorem isDigit_fractionDigits (m : Moment) : ∀ c ∈ fractionDigits m, c.isDigit = true := by
  have hmicrosecond := m.time.valid.microsecond_lt
  have hnanosecond := m.nanosecond_lt
  intro c hc
  simp only [fractionDigits, microText, List.append_assoc, List.mem_append, List.mem_cons] at hc
  rcases hc with hc | hc | hc | rfl | hc
  · exact isDigit_two (by omega) c hc
  · exact isDigit_two (by omega) c hc
  · exact isDigit_two (by omega) c hc
  · exact isDigit_digit _ (by omega)
  · exact isDigit_two (by omega) c hc

theorem fractionDigits_six (m : Moment) : (fractionDigits m).take 6 = microText m.time := rfl

theorem mem_zoneText {zone : Zone} {c : Char} (h : c ∈ zone.text) :
    c.isDigit = true ∨ c ∈ "+-:Z".toList := by
  cases zone with
  | zulu =>
      rw [List.mem_singleton.mp h]
      exact .inr (by decide)
  | numeric ahead hour minute hour_lt minute_lt =>
      simp only [Zone.text, List.mem_cons, List.mem_append] at h
      rcases h with rfl | h | rfl | h
      · cases ahead
        · exact .inr (by decide)
        · exact .inr (by decide)
      · exact .inl (isDigit_two (by omega) c h)
      · exact .inr (by decide)
      · exact .inl (isDigit_two (by omega) c h)

theorem momentText_eq (m : Moment) :
    momentText m = secondsText m.time ++ '.' :: (fractionDigits m ++ m.zone.text) := rfl

/-- A moment is one word. -/
theorem isSpace_momentText (m : Moment) : ∀ c ∈ momentText m, isSpace c = false := by
  intro c hc
  apply isSpace_momentChar
  have hdigit {c : Char} (h : c.isDigit = true) : momentChar c = true := by
    rw [momentChar, h, Bool.true_or]
  rw [momentText_eq, List.mem_append, List.mem_cons, List.mem_append] at hc
  have hsigns : ∀ c ∈ "-T:".toList ++ "+-:Z".toList, momentChar c = true := by decide
  rcases hc with hc | rfl | hc | hc
  · rcases mem_secondsText hc with h | h
    · exact hdigit h
    · exact hsigns c (List.mem_append_left _ h)
  · decide
  · exact hdigit (isDigit_fractionDigits m c hc)
  · rcases mem_zoneText hc with h | h
    · exact hdigit h
    · exact hsigns c (List.mem_append_right _ h)

section Read

variable {platform : ComposePlatform}

theorem digit_of_isDigit (hdigits : AsciiDigits platform) {c : Char} (h : c.isDigit = true) :
    platform.digit c = true := by
  have hascii := (isDigit_range h).2
  rw [hdigits c (by omega), h]

theorem looksLikeTime_moment (hdigits : AsciiDigits platform) (m : Moment) :
    looksLikeTime platform.digit (momentText m) = true := by
  have hyear := m.time.valid.year_le
  have hshape : looksLikeTime platform.digit (momentText m) =
      (two (m.time.year / 100) ++ two (m.time.year % 100) ++ two m.time.month ++
        two m.time.day).all platform.digit := rfl
  rw [hshape, List.all_eq_true]
  intro c hc
  apply digit_of_isDigit hdigits
  simp only [List.mem_append] at hc
  rcases hc with ((hc | hc) | hc) | hc
  · exact isDigit_two (by omega) c hc
  · exact isDigit_two (by omega) c hc
  · exact isDigit_two m.time.month_day_lt.1 c hc
  · exact isDigit_two m.time.month_day_lt.2 c hc

/-- The zone with `Z` written out. -/
def Zone.numericText (zone : Zone) : List Char :=
  match zone with
  | .zulu => (Zone.numeric true 0 0 (by decide) (by decide)).text
  | zone => zone.text

theorem normalizedTimestamp_moment (hdigits : AsciiDigits platform) (m : Moment) :
    normalizedTimestamp platform.digit (momentText m) =
      secondsText m.time ++ '.' :: (microText m.time ++ m.zone.numericText) := by
  have hnot {c : Char} (hascii : c.toNat < 0x80) (hc : c.isDigit = false) :
      platform.digit c = false := by rw [hdigits c hascii, hc]
  have htime : ∀ c ∈ ".Z".toList, c ∉ secondsText m.time := by
    intro c hc hmem
    have hnone : ∀ c ∈ ".Z".toList, c.isDigit = false ∧ c ∉ "-T:".toList := by decide
    rcases mem_secondsText hmem with h | h
    · rw [(hnone c hc).1] at h
      cases h
    · exact (hnone c hc).2 h
  have hmicro : 'Z' ∉ microText m.time := by
    intro hmem
    rw [← fractionDigits_six, ] at hmem
    have hdigit := isDigit_fractionDigits m 'Z' (List.mem_of_mem_take hmem)
    cases hdigit
  have hzone : '.' ∉ m.zone.text := by
    intro hmem
    rcases mem_zoneText hmem with h | h
    · cases h
    · revert h
      decide
  have hoffset : beforeOffset m.zone.text = true ∧ m.zone.text.takeWhile platform.digit = [] := by
    cases m.zone with
    | zulu => exact ⟨rfl, List.takeWhile_cons_of_neg (by rw [hnot (by decide) (by decide)]; decide)⟩
    | numeric ahead hour minute hour_lt minute_lt =>
        cases ahead
        · exact ⟨rfl, List.takeWhile_cons_of_neg (by
            simp only [Bool.false_eq_true, if_false]
            rw [hnot (by decide) (by decide)]
            decide)⟩
        · exact ⟨rfl, List.takeWhile_cons_of_neg (by
            simp only [if_true]
            rw [hnot (by decide) (by decide)]
            decide)⟩
  have hnine : (fractionDigits m).length = 9 := rfl
  have hcut := cutFractions_digits (htime '.' (by decide))
    (fun c hc => digit_of_isDigit hdigits (isDigit_fractionDigits m c hc)) (by omega) hzone
    hoffset.1 hoffset.2
  rw [normalizedTimestamp, momentText_eq, hcut, fractionDigits_six, List.flatMap_append,
    replace_zulu (htime 'Z' (by decide)), List.flatMap_cons, List.flatMap_append,
    replace_zulu hmicro]
  have hwritten : (m.zone.text.flatMap fun c => if c = 'Z' then "+00:00".toList else [c]) =
      m.zone.numericText := by
    cases hzone : m.zone with
    | zulu => rfl
    | numeric ahead hour minute hour_lt minute_lt =>
        apply replace_zulu
        intro hmem
        simp only [Zone.text, List.mem_cons, List.mem_append] at hmem
        rcases hmem with h | h | h | h
        · cases ahead <;> cases h
        · cases isDigit_two (by omega) 'Z' h
        · cases h
        · cases isDigit_two (by omega) 'Z' h
  rw [hwritten]
  rfl

theorem parseComposeTimestamp_moment (hdigits : AsciiDigits platform)
    (hreads : ReadsMicroseconds platform) (now : Instant) (m : Moment) :
    parseComposeTimestamp platform now (some (momentText m)) = m.instant := by
  rw [parseComposeTimestamp, normalizedTimestamp_moment hdigits, Moment.instant]
  cases m.zone with
  | zulu =>
      have hzulu := hreads m.time true 0 0 (by decide) (by decide)
      have hminutes : (Zone.numeric true 0 0 (by decide) (by decide)).minutes = Zone.zulu.minutes :=
        rfl
      rw [Zone.numericText, hzulu, Option.getD_some, hminutes]
  | numeric ahead hour minute hour_lt minute_lt =>
      have hnumeric := hreads m.time ahead hour minute hour_lt minute_lt
      rw [Zone.numericText, hnumeric, Option.getD_some]
      exact nofun

end Read

/-! ### The line -/

/-- What `docker compose logs --timestamps` writes, without its end. -/
def composedLine (container : List Char) (padding : ℕ) (m : Moment) (message : List Char) :
    List Char :=
  container ++ List.replicate padding ' ' ++ '|' :: ' ' :: (momentText m ++ ' ' :: message)

/-- Padding is taken off again. -/
theorem strip_padded {container : List Char} (h : strip container = container) (padding : ℕ) :
    strip (container ++ List.replicate padding ' ') = container := by
  have hblank : (List.replicate padding ' ').rdropWhile isSpace = [] := by
    rw [List.rdropWhile_eq_nil_iff]
    intro c hc
    rw [List.eq_of_mem_replicate hc]
    decide
  by_cases hfront : container.dropWhile isSpace = []
  · have hempty : container = [] := by
      rw [← h, strip, LineText.stripBy_eq, hfront, List.rdropWhile_nil]
    rw [strip, LineText.stripBy_blank_append hfront, LineText.stripBy_eq, hempty]
    rw [List.rdropWhile_eq_nil_iff] at hblank ⊢
    exact fun c hc => hblank c ((List.dropWhile_sublist isSpace).subset hc)
  · rw [strip, LineText.stripBy_append hfront, if_pos hblank]
    exact h

/-- The parts of such a line; the blanks that a message begins with go with the one before it. -/
theorem composeLine_composed {digit : Char → Bool} {container : List Char}
    (hbar : '|' ∉ container) (hstrip : strip container = container) (padding : ℕ) {m : Moment}
    (htime : looksLikeTime digit (momentText m) = true) (message : List Char) :
    composeLine digit (composedLine container padding m message) =
      if container = [] ∧ padding = 0 then none
      else some ⟨container, some (momentText m), message.dropWhile isSpace⟩ := by
  have hfront : ∀ c ∈ container ++ List.replicate padding ' ', decide (c ≠ '|') = true := by
    intro c hc
    rw [decide_eq_true_iff]
    rintro rfl
    rcases List.mem_append.mp hc with h | h
    · exact hbar h
    · exact absurd (List.eq_of_mem_replicate h) (by decide)
  have htake : (composedLine container padding m message).takeWhile (· ≠ '|') =
      container ++ List.replicate padding ' ' := by
    rw [composedLine, List.takeWhile_append_of_pos hfront,
      List.takeWhile_cons_of_neg (by decide), List.append_nil]
  have hdrop : (composedLine container padding m message).dropWhile (· ≠ '|') =
      '|' :: ' ' :: (momentText m ++ ' ' :: message) := by
    rw [composedLine, List.dropWhile_append_of_pos hfront, List.dropWhile_cons_of_neg (by decide)]
  -- the word behind the separator is the time, and a blank follows it
  have hspace := isSpace_momentText m
  have hword : ∀ c ∈ momentText m, (!isSpace c) = true := fun c hc => by rw [hspace c hc]; rfl
  have hbegins : (' ' :: (momentText m ++ ' ' :: message)).dropWhile isSpace =
      momentText m ++ ' ' :: message := by
    rw [List.dropWhile_cons_of_pos (by decide)]
    cases hm : momentText m with
    | nil =>
        rw [hm] at htime
        cases htime
    | cons c rest =>
        rw [List.cons_append, List.dropWhile_cons_of_neg]
        rw [hspace c (hm ▸ List.mem_cons_self)]
        decide
  have htakeWord : (momentText m ++ ' ' :: message).takeWhile (!isSpace ·) = momentText m := by
    rw [List.takeWhile_append_of_pos hword, List.takeWhile_cons_of_neg (by decide), List.append_nil]
  have hdropWord : (momentText m ++ ' ' :: message).dropWhile (!isSpace ·) = ' ' :: message := by
    rw [List.dropWhile_append_of_pos hword, List.dropWhile_cons_of_neg (by decide)]
  have hblank : (' ' :: message).dropWhile isSpace = message.dropWhile isSpace :=
    List.dropWhile_cons_of_pos (by decide)
  have hstripped := strip_padded hstrip padding
  have hempty : container ++ List.replicate padding ' ' = [] ↔ container = [] ∧ padding = 0 := by
    rw [List.append_eq_nil_iff, List.replicate_eq_nil_iff]
  rw [composeLine, htake, hdrop]
  cases hcontainer : container ++ List.replicate padding ' ' with
  | nil => rw [if_pos (hempty.mp hcontainer)]
  | cons c rest =>
      rw [hcontainer] at hempty hstripped
      have hnot : ¬ (container = [] ∧ padding = 0) := fun h => by cases hempty.mpr h
      simp only [hbegins, htakeWord, hdropWord, hblank, hstripped]
      rw [if_pos ⟨htime, List.cons_ne_nil _ _⟩, if_neg hnot]

/-! ### The event -/

/-- The service and the id that `ps` has told for the name of a container. -/
def mappedContainer (adapter : ComposeAdapter) (container : List Char) : String × Option String :=
  (adapter.containerServices.lookup (String.ofList container)).getD (String.ofList container, none)

/-- The event of the line has the message, the time and the container that the line was made of. -/
def LineDecoded (platform : ComposePlatform) (applicationId : String) (adapter : ComposeAdapter)
    (container : List Char) (padding : ℕ) (m : Moment) (message : List Char) (now : Instant) :
    Prop :=
  let raw := encode (composedLine container padding m message)
  let event := composeParse platform applicationId adapter now ⟨raw, false, raw.length⟩
  event.message.toList = message ∧ event.timestamp = m.instant ∧
    event.service = some (mappedContainer adapter container).1 ∧
    event.containerId = (mappedContainer adapter container).2

/-- Whatever its padding and its time, a line is read back exactly when its message does not begin
with a blank and there is something in front of the separator. -/
theorem compose_message_iff (platform : ComposePlatform) (hdigits : AsciiDigits platform)
    (hreads : ReadsMicroseconds platform) (applicationId : String) (adapter : ComposeAdapter)
    {container : List Char} (hbar : '|' ∉ container) (hstrip : strip container = container)
    (padding : ℕ) (m : Moment) {message : List Char} (_hline : '\n' ∉ message)
    (hsize : byteSize message ≤ maxLogLineBytes) (now : Instant) :
    LineDecoded platform applicationId adapter container padding m message now ↔
      (container ≠ [] ∨ padding ≠ 0) ∧ message.head?.all (fun c => !isSpace c) = true := by
  have htime := looksLikeTime_moment hdigits m
  have hparts := composeLine_composed hbar hstrip padding htime message
  simp only [LineDecoded, composeParse, decode_encode, String.toList_ofList, hparts]
  by_cases hempty : container = [] ∧ padding = 0
  · simp only [if_pos hempty]
    refine iff_of_false ?_ ?_
    · intro ⟨_, _, hservice, _⟩
      cases hservice
    · simp [hempty]
  · have hfront : container ≠ [] ∨ padding ≠ 0 := by
      by_contra h
      push Not at h
      exact hempty h
    have hshort : byteSize (String.ofList (message.dropWhile isSpace)).toList ≤ maxLogLineBytes := by
      have hsplit := byteSize_append (message.takeWhile isSpace) (message.dropWhile isSpace)
      rw [List.takeWhile_append_dropWhile] at hsplit
      rw [String.toList_ofList]
      omega
    have hmoment := parseComposeTimestamp_moment hdigits hreads now m
    simp only [if_neg hempty, and_iff_right hfront, boundedMessage_of_le hshort,
      String.toList_ofList, hmoment, mappedContainer, and_true]
    cases message with
    | nil => exact iff_of_true rfl rfl
    | cons c message =>
        cases hc : isSpace c with
        | false =>
            rw [List.dropWhile_cons_of_neg (by simp [hc])]
            simp [hc]
        | true =>
            rw [List.dropWhile_cons_of_pos hc]
            refine iff_of_false ?_ (by simp [hc])
            intro heq
            have hle := (List.dropWhile_sublist isSpace (l := message)).length_le
            rw [heq] at hle
            exact absurd hle (Nat.not_succ_le_self _)

/-- A platform that knows ASCII digits, and reads times as `isoformat` writes them. -/
def isoPlatform : ComposePlatform where
  toPlatform := plainPlatform
  nonzero _ := false
  fromisoformat text :=
    (IsoTime.fromisoformat text).map fun stamp => stamp.instant - epochMicroseconds

theorem isoPlatform_digits : AsciiDigits isoPlatform := by
  intro c _
  show (PythonNumber.asciiDigit c).isSome = c.isDigit
  rw [PythonNumber.asciiDigit]
  cases c.isDigit <;> rfl

theorem readOffset_zone (ahead : Bool) {hour minute : ℕ} (hh : hour < 24) (hm : minute < 60) :
    ∃ offset : IsoTime.Offset,
      IsoTime.readOffset (Zone.numeric ahead hour minute hh hm).text = some (some offset) ∧
      offset.microseconds = (Zone.numeric ahead hour minute hh hm).minutes * 60000000 := by
  have hclock := IsoTime.readClock_minutes (by omega : hour < 100) (by omega : minute < 100)
  obtain ⟨offset, hoffset, hvalue⟩ := IsoTime.readOffset_clock ahead hclock
    (by simp only [IsoTime.Clock.total]; omega)
  refine ⟨offset, hoffset, ?_⟩
  rw [hvalue]
  simp only [IsoTime.Clock.total, Zone.minutes]
  split_ifs <;> omega

theorem isoPlatform_reads : ReadsMicroseconds isoPlatform := by
  intro t ahead hour minute hh hm
  obtain ⟨offset, hoffset, hmicroseconds⟩ := readOffset_zone ahead hh hm
  have hread := IsoTime.fromisoformat_seconds t
    (IsoTime.readFraction_sixDigits t.valid.microsecond_lt _) hoffset
  show Option.map _ (IsoTime.fromisoformat (secondsText t ++ '.' :: (IsoTime.sixDigits _ ++ _))) = _
  rw [hread, ← hmicroseconds]
  rfl

/-- Half a second after noon. -/
def halfPastNoon : Moment where
  time := ⟨2026, 7, 20, 12, 0, 0, 500000, by decide⟩
  nanosecond := 1
  nanosecond_lt := by decide
  zone := .zulu

theorem compose_message_iff_pipe :
    LineDecoded isoPlatform "app" {} "web-1".toList 2 halfPastNoon "a | b".toList 0 :=
  (compose_message_iff isoPlatform isoPlatform_digits isoPlatform_reads "app" {} (by decide)
    (by decide) 2 halfPastNoon (by decide) (by decide) 0).mpr ⟨.inl (by decide), by decide⟩

/-- The indentation of a message is lost. -/
theorem indented_message_changed :
    ∃ (platform : ComposePlatform) (container : List Char) (m : Moment) (message : List Char),
      AsciiDigits platform ∧ ReadsMicroseconds platform ∧ '|' ∉ container ∧
      strip container = container ∧ '\n' ∉ message ∧ byteSize message ≤ maxLogLineBytes ∧
      ¬ LineDecoded platform "app" {} container 2 m message 0 := by
  refine ⟨isoPlatform, "web-1".toList, halfPastNoon, "  at main".toList, isoPlatform_digits,
    isoPlatform_reads, by decide, by decide, by decide, by decide, ?_⟩
  have htime := looksLikeTime_moment isoPlatform_digits halfPastNoon
  have hparts := composeLine_composed (by decide : '|' ∉ "web-1".toList) (by decide) 2 htime
    "  at main".toList
  rw [if_neg (by decide)] at hparts
  intro h
  have hmessage := h.1
  simp only [composeParse, decode_encode, String.toList_ofList, hparts] at hmessage
  revert hmessage
  decide

end MachineDeck.Logs

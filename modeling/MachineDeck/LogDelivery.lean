import MachineDeck.ComposeFollow
import MachineDeck.LogRedaction
import MachineDeck.Utf8Cut

/-!
# Secrets in long log lines

A line of `docker compose logs` is cut, taken apart and then freed from secrets.

* `delivered` — the events that reach the reader of the log;
* `withoutSecrets_once` — a secret that stands in a message once is exchanged for the marker;
* `Undisturbed` — neither the cut nor the parts of the line touch the secret, and the marker in its
  place brings none about;
* `delivered_same` — then the message does not tell which secret it was.
-/

namespace MachineDeck.Logs

open MarkedText Redaction RegexText Utf8Text
open scoped LineText

/-! ### From the bytes to the reader -/

section Delivery

variable {alphabet : Alphabet} {manifest : ApplicationManifest}

/-- `_bounded_lines`, `_parse` and `_prepare`. -/
def delivered (platform : ComposePlatform) (adapter : ComposeAdapter) (now : Instant)
    (redaction : LogRedactionService alphabet manifest) (services : List String)
    (stdout : List UInt8) : List LogEvent :=
  (boundedLines maxLogLineBytes stdout).filterMap fun line =>
    prepare redaction.redact services (composeParse platform manifest.id adapter now line)

end Delivery

/-! ### One line -/

theorem boundedLinesFrom_append {maxBytes : ℕ} (begun line rest : List UInt8) (h : 10 ∉ line) :
    boundedLinesFrom maxBytes (boundLine maxBytes begun) (line ++ 10 :: rest) =
      boundLine maxBytes (begun ++ line) :: boundedLines maxBytes rest := by
  induction line generalizing begun with
  | nil =>
    rw [List.nil_append, List.append_nil, boundedLinesFrom, if_pos rfl]
    rfl
  | cons byte line ih =>
    have hbyte : byte ≠ 10 := fun hsame => h (hsame ▸ List.mem_cons_self)
    rw [List.cons_append, boundedLinesFrom, if_neg hbyte, push_boundLine,
      ih _ fun hmem => h (List.mem_cons_of_mem byte hmem), List.append_assoc]
    rfl

theorem boundedLines_line (maxBytes : ℕ) {line : List UInt8} (h : 10 ∉ line) :
    boundedLines maxBytes (line ++ [10]) = [boundLine maxBytes line] := by
  have hlines : boundedLinesFrom maxBytes (boundLine maxBytes []) (line ++ [10]) =
      boundLine maxBytes ([] ++ line) :: boundedLines maxBytes [] :=
    boundedLinesFrom_append [] line [] h
  rw [boundLine_nil, List.nil_append] at hlines
  exact hlines

/-- The message of a line that has been read. -/
def messageOf (digit : Char → Bool) (decoded : List Char) : List Char :=
  match composeLine digit decoded with
  | some parts => parts.message
  | none => decoded

theorem composeParse_message (platform : ComposePlatform) (applicationId : String)
    (adapter : ComposeAdapter) (now : Instant) (line : RawLine) :
    (composeParse platform applicationId adapter now line).message.toList =
      takeBytes maxLogLineBytes (messageOf platform.digit (decode line.raw).toList) := by
  have hbounded (message : String) : (boundedMessage maxLogLineBytes message).1.toList =
      takeBytes maxLogLineBytes message.toList := by
    rw [boundedMessage]
    split_ifs with hsize
    · exact (takeBytes_of_le hsize).symm
    · rw [String.toList_ofList]
  cases hparts : composeLine platform.digit (decode line.raw).toList with
  | none =>
    have hmessage := hbounded (decode line.raw)
    simp only [composeParse, messageOf, hparts]
    generalize boundedMessage maxLogLineBytes (decode line.raw) = bounded at hmessage ⊢
    exact hmessage
  | some parts =>
    have hmessage := hbounded (String.ofList parts.message)
    rw [String.toList_ofList] at hmessage
    simp only [composeParse, messageOf, hparts]
    generalize boundedMessage maxLogLineBytes (String.ofList parts.message) = bounded
      at hmessage ⊢
    exact hmessage

/-- The message is the end of the line. -/
theorem messageOf_suffix (digit : Char → Bool) (decoded : List Char) :
    (messageOf digit decoded).IsSuffix decoded := by
  have hskip (p : Char → Bool) (text : List Char) : (text.dropWhile p).IsSuffix text :=
    List.dropWhile_suffix p
  unfold messageOf
  cases hparts : composeLine digit decoded with
  | none => exact List.suffix_refl decoded
  | some parts =>
    unfold composeLine at hparts
    split at hparts
    · rename_i c container bar rest hfront hback
      have hrest : rest.IsSuffix decoded := by
        apply (List.suffix_cons bar rest).trans
        rw [← hback]
        exact hskip _ decoded
      simp only at hparts
      split_ifs at hparts
      · rw [← Option.some.inj hparts]
        exact (hskip _ _).trans ((hskip _ _).trans ((hskip _ _).trans hrest))
      · rw [← Option.some.inj hparts]
        exact (hskip _ _).trans hrest
    · cases hparts

/-- Where the message begins. -/
def messageBegins (digit : Char → Bool) (decoded : List Char) : ℕ :=
  decoded.length - (messageOf digit decoded).length

theorem messageOf_eq_drop (digit : Char → Bool) (decoded : List Char) :
    messageOf digit decoded = decoded.drop (messageBegins digit decoded) :=
  List.suffix_iff_eq_drop.mp (messageOf_suffix digit decoded)

/-! ### A secret that stands in a message once -/

theorem withoutSecrets_once {secretValues : List (List Char)} {front secret back : List Char}
    (hmem : secret ∈ secretValues) (hdistinct : secretValues.Nodup) (hsecret : secret ≠ [])
    (hothers : ∀ value ∈ secretValues, value ≠ secret →
      ¬ value.IsInfix (front ++ secret ++ back))
    (honly : OnlyAt secret front.length (front ++ secret ++ back))
    (hmarked : ∀ value ∈ secretValues, ¬ value.IsInfix (front ++ redactedMarker ++ back)) :
    withoutSecrets secretValues (front ++ secret ++ back) = front ++ redactedMarker ++ back := by
  have hback : ¬ secret.IsInfix back := fun hoccurs =>
    hmarked secret hmem (hoccurs.trans (List.suffix_append _ back).isInfix)
  have hbefore : ∀ i < front.length, ¬ secret.IsPrefix ((front ++ secret ++ back).drop i) := by
    intro i hi hstart
    rw [honly i (by rw [List.length_append, List.length_append]; omega) hstart] at hi
    exact Nat.lt_irrefl _ hi
  obtain ⟨earlier, later, rfl⟩ := List.append_of_mem hmem
  have hfirst : ∀ value ∈ earlier, ¬ value.IsInfix (front ++ secret ++ back) := by
    intro value hvalue
    apply hothers value (List.mem_append_left _ hvalue)
    rintro rfl
    exact (List.disjoint_of_nodup_append hdistinct) hvalue List.mem_cons_self
  have hlast : ∀ value ∈ later, ¬ value.IsInfix (front ++ redactedMarker ++ back) :=
    fun value hvalue => hmarked value (List.mem_append_right _ (List.mem_cons_of_mem _ hvalue))
  have hearlier := withoutSecrets_absent hfirst
  have hlater := withoutSecrets_absent hlast
  rw [withoutSecrets] at hearlier hlater ⊢
  rw [List.foldl_append, hearlier, List.foldl_cons, replaceAll_once hsecret hbefore,
    replaceAll_absent hback, hlater]

/-! ### Two secrets of the same size -/

/-- What is read of the bytes behind the given text. -/
def readBehind (before behind : List Char) : List Char :=
  (decode ((encode behind).take (maxLogLineBytes - byteSize before))).toList

/-- Both secrets stand in the message only where they have been put, and nowhere once the marker
stands there. -/
def Lone (v w front back : List Char) : Prop :=
  ∀ secret ∈ [v, w], ¬ secret.IsInfix (front ++ redactedMarker ++ back) ∧
    ∀ put ∈ [v, w], OnlyAt secret front.length (front ++ put ++ back)

/-- The secret is cut off, or left whole outside of the message or inside it. -/
inductive Undisturbed (digit : Char → Bool) (a v w b : List Char) : Prop where
  | cutOff (h : maxLogLineBytes ≤ byteSize a)
  | outside (hcut : byteSize (a ++ v) ≤ maxLogLineBytes) (k : ℕ)
      (hv : messageBegins digit (a ++ v ++ readBehind (a ++ v) b) = (a ++ v).length + k)
      (hw : messageBegins digit (a ++ w ++ readBehind (a ++ w) b) = (a ++ w).length + k)
  | inside (hcut : byteSize (a ++ v) ≤ maxLogLineBytes) (n : ℕ) (hn : n ≤ a.length)
      (hv : messageBegins digit (a ++ v ++ readBehind (a ++ v) b) = n)
      (hw : messageBegins digit (a ++ w ++ readBehind (a ++ w) b) = n)
      (hlone : Lone v w (a.drop n)
        (takeBytes (maxLogLineBytes - byteSize (a.drop n ++ v)) (readBehind (a ++ v) b)))

section Lines

variable {alphabet : Alphabet} {manifest : ApplicationManifest} {a v w b : List Char}

theorem delivered_message {platform : ComposePlatform} {adapter : ComposeAdapter} {now : Instant}
    {redaction : LogRedactionService alphabet manifest} {services : List String}
    {line : List Char} (hline : '\n' ∉ line) {event : LogEvent}
    (h : event ∈ delivered platform adapter now redaction services (encode line ++ [10])) :
    event.message = redaction.redact (String.ofList (takeBytes maxLogLineBytes
      (messageOf platform.digit (decode ((encode line).take maxLogLineBytes)).toList))) := by
  rw [delivered, boundedLines_line _ (lineFeed_not_mem_encode hline), List.filterMap_cons,
    List.filterMap_nil] at h
  have hraw : (boundLine maxLogLineBytes (encode line)).raw = (encode line).take maxLogLineBytes :=
    rfl
  rw [← hraw, ← composeParse_message platform manifest.id adapter now, String.ofList_toList]
  split at h
  · cases h
  · rename_i prepared hprepared
    rw [List.mem_singleton.mp h]
    unfold prepare at hprepared
    split_ifs at hprepared
    rw [← Option.some.inj hprepared]

/-- The line as it is read, where the secret lies within the bytes that are kept. -/
theorem line_read {secret : List Char} (hcut : byteSize (a ++ secret) ≤ maxLogLineBytes) :
    (decode ((encode (a ++ secret ++ b)).take maxLogLineBytes)).toList =
      a ++ secret ++ readBehind (a ++ secret) b :=
  decode_take hcut b

theorem byteSize_drop_le (n : ℕ) (text : List Char) : byteSize (text.drop n) ≤ byteSize text := by
  have hsize := byteSize_append (text.take n) (text.drop n)
  rw [List.take_append_drop] at hsize
  omega

/-- The message from where it begins, with the secret in it. -/
theorem message_inside {digit : Char → Bool} {secret : List Char} {n : ℕ} (hn : n ≤ a.length)
    (hcut : byteSize (a ++ secret) ≤ maxLogLineBytes)
    (h : messageBegins digit (a ++ secret ++ readBehind (a ++ secret) b) = n) :
    takeBytes maxLogLineBytes
        (messageOf digit (decode ((encode (a ++ secret ++ b)).take maxLogLineBytes)).toList) =
      a.drop n ++ secret ++
        takeBytes (maxLogLineBytes - byteSize (a.drop n ++ secret)) (readBehind (a ++ secret) b) := by
  have hsize : byteSize (a.drop n ++ secret) ≤ maxLogLineBytes := by
    have hdrop := byteSize_drop_le n a
    rw [byteSize_append] at hcut ⊢
    omega
  rw [line_read hcut, messageOf_eq_drop, h, List.append_assoc, List.drop_append_of_le_length hn,
    ← List.append_assoc, takeBytes_append hsize]

theorem message_outside {digit : Char → Bool} {secret : List Char} {k : ℕ}
    (hcut : byteSize (a ++ secret) ≤ maxLogLineBytes)
    (h : messageBegins digit (a ++ secret ++ readBehind (a ++ secret) b) =
      (a ++ secret).length + k) :
    messageOf digit (decode ((encode (a ++ secret ++ b)).take maxLogLineBytes)).toList =
      (readBehind (a ++ secret) b).drop k := by
  rw [line_read hcut, messageOf_eq_drop, h, List.drop_append, List.drop_eq_nil_of_le (by omega),
    List.nil_append, Nat.add_sub_cancel_left]

/-- Of two secrets of one size, only the marker is left. -/
theorem withoutSecrets_lone {redaction : LogRedactionService alphabet manifest}
    (hvalues : ∀ value, value ∈ redaction.secretValues ↔ value = v ∨ value = w)
    (hsize : byteSize v = byteSize w) {front back : List Char} (hlone : Lone v w front back)
    {secret : List Char} (hsecret : secret = v ∨ secret = w) :
    withoutSecrets redaction.secretValues (front ++ secret ++ back) =
      front ++ redactedMarker ++ back := by
  have hpair : ∀ value ∈ redaction.secretValues, value ∈ [v, w] := by
    intro value hmem
    rcases (hvalues value).mp hmem with rfl | rfl
    · exact List.mem_cons_self
    · exact List.mem_cons_of_mem _ List.mem_cons_self
  have hmem := (hvalues secret).mpr hsecret
  have hlong : ∀ value ∈ redaction.secretValues, value ≠ [] := by
    rintro value hvalue rfl
    obtain ⟨-, -, -, hlength, -⟩ := (redaction.collects _).mp hvalue
    cases hlength
  have hsizes : ∀ value ∈ redaction.secretValues, byteSize value = byteSize secret := by
    intro value hvalue
    rcases (hvalues value).mp hvalue with rfl | rfl <;> rcases hsecret with rfl | rfl
    · rfl
    · exact hsize
    · exact hsize.symm
    · rfl
  apply withoutSecrets_once hmem redaction.distinct (hlong secret hmem)
  · intro value hvalue hother hoccurs
    have honly := (hlone value (hpair value hvalue)).2 secret (hpair secret hmem)
    have hstart := honly.of_isInfix (hlong value hvalue) hoccurs
    rw [List.append_assoc, List.drop_left] at hstart
    exact hother (eq_of_isPrefix (hsizes value hvalue) hstart)
  · exact (hlone secret (hpair secret hmem)).2 secret (hpair secret hmem)
  · exact fun value hvalue => (hlone value (hpair value hvalue)).1

theorem redact_congr {redaction : LogRedactionService alphabet manifest} {message message' : List Char}
    (h : withoutSecrets redaction.secretValues message =
      withoutSecrets redaction.secretValues message') :
    redaction.redact (String.ofList message) = redaction.redact (String.ofList message') := by
  rw [LogRedactionService.redact, LogRedactionService.redact, String.toList_ofList,
    String.toList_ofList, redactText, redactText, beforeUrls, beforeUrls, h]

end Lines

/-- An application with two secrets of the same size. -/
def pairManifest : ApplicationManifest :=
  { ollama with
    environment := ⟨[("API_TOKEN", "zzzz"), ("DB_PASSWORD", "qqqq")], by decide, by decide,
      by decide⟩ }

def pairRedaction : LogRedactionService asciiAlphabet pairManifest := .ofManifest _ _

def z4 : List Char := "zzzz".toList

def q4 : List Char := "qqqq".toList

theorem pairRedaction_values : pairRedaction.secretValues = [z4, q4] := by decide +kernel

theorem pairRedaction_exactly (value : List Char) :
    value ∈ pairRedaction.secretValues ↔ value = z4 ∨ value = q4 := by
  rw [pairRedaction_values, List.mem_cons, List.mem_singleton]

/-- The event that comes of one line. -/
def pairEvent (line : List Char) : LogEvent :=
  let event := composeParse plainComposePlatform pairManifest.id {} 0
    (boundLine maxLogLineBytes (encode line))
  { event with message := pairRedaction.redact event.message }

theorem pairEvent_delivered {line : List Char} (hline : '\n' ∉ line) :
    pairEvent line ∈
      delivered plainComposePlatform {} 0 pairRedaction [] (encode line ++ [10]) := by
  rw [delivered, boundedLines_line _ (lineFeed_not_mem_encode hline)]
  exact List.mem_singleton.mpr rfl

/-- A line that begins a message with a secret in it. -/
def loginLine (secret : List Char) : List Char :=
  "api-1  | 2026-07-20T20:00:00Z login ".toList ++ secret ++ " ok".toList

/-- A line without a container, with a secret behind so many other characters. -/
def longLine (secret : List Char) : List Char := List.replicate 65534 'x' ++ secret

theorem byteSize_replicate (n : ℕ) : byteSize (List.replicate n 'x') = n := by
  rw [byteSize, List.map_replicate, List.sum_replicate_nat]
  exact Nat.mul_one n

theorem messageOf_plain {digit : Char → Bool} {decoded : List Char} (h : '|' ∉ decoded) :
    messageOf digit decoded = decoded := by
  have hdrop : decoded.dropWhile (· ≠ '|') = [] := by
    rw [List.dropWhile_eq_nil_iff]
    intro c hc
    exact decide_eq_true fun hsame => h (hsame ▸ hc)
  have hparts : composeLine digit decoded = none := by
    unfold composeLine
    rw [hdrop]
    split
    · rename_i hback
      cases hback
    · rfl
  rw [messageOf, hparts]

/-- Nothing is looked for in texts of these characters. -/
theorem redactText_plain {text : List Char} (h : ∀ c ∈ text, c = 'x' ∨ c = 'z' ∨ c = 'q')
    {secretValues : List (List Char)} (habsent : ∀ value ∈ secretValues, ¬ value.IsInfix text) :
    redactText asciiAlphabet secretValues text = text := by
  have hbearer : ∀ c ∈ text, ∀ before rest,
      run asciiAlphabet.isWord bearerPattern ⟨before, c :: rest, []⟩ = [] := by
    intro c hc before rest
    rcases h c hc with rfl | rfl | rfl <;> rfl
  have hassignment : ∀ c ∈ text, ∀ before rest,
      run asciiAlphabet.isWord secretAssignment ⟨before, c :: rest, []⟩ = [] := by
    intro c hc before rest
    apply run_boundary_seq
    rcases h c hc with rfl | rfl | rfl <;> rfl
  have hjwt : ∀ c ∈ text, ∀ before rest,
      run asciiAlphabet.isWord jwtPattern ⟨before, c :: rest, []⟩ = [] := by
    intro c hc before rest
    apply run_boundary_seq
    rcases h c hc with rfl | rfl | rfl <;> rfl
  have hurl : ∀ c ∈ text, ∀ before rest,
      run asciiAlphabet.isWord urlPattern ⟨before, c :: rest, []⟩ = [] := by
    intro c hc before rest
    rcases h c hc with rfl | rfl | rfl <;> rfl
  rw [redactText, beforeUrls, withoutSecrets_absent habsent, sub_plain hbearer,
    sub_plain hassignment, sub_plain hjwt, sub_plain hurl]

/-- Half of the secret is in front of the cut, and is not recognised. -/
theorem longLine_message {half : List Char} (hhalf : half.length = 2)
    (hcharacters : ∀ c ∈ half, c = 'z' ∨ c = 'q') (hsize : byteSize half = 2) :
    (pairEvent (longLine (half ++ half))).message =
      String.ofList (List.replicate 65534 'x' ++ half) := by
  have hcut : byteSize (List.replicate 65534 'x' ++ half) = maxLogLineBytes := by
    rw [byteSize_append, byteSize_replicate, hsize]
    rfl
  have hread : (decode ((encode (longLine (half ++ half))).take maxLogLineBytes)).toList =
      List.replicate 65534 'x' ++ half := by
    rw [longLine, ← List.append_assoc, decode_take (Nat.le_of_eq hcut), hcut, Nat.sub_self,
      List.take_zero]
    exact List.append_nil _
  have hplain : ∀ c ∈ List.replicate 65534 'x' ++ half, c = 'x' ∨ c = 'z' ∨ c = 'q' := by
    intro c hc
    rcases List.mem_append.mp hc with hc | hc
    · exact .inl (List.eq_of_mem_replicate hc)
    · exact .inr (hcharacters c hc)
  have hbar : '|' ∉ List.replicate 65534 'x' ++ half := by
    intro hmem
    rcases hplain _ hmem with h | h | h <;> cases h
  have habsent : ∀ value ∈ pairRedaction.secretValues,
      ¬ value.IsInfix (List.replicate 65534 'x' ++ half) := by
    rw [pairRedaction_values]
    intro value hvalue hoccurs
    have hx : ∀ value ∈ [z4, q4], 'x' ∉ value ∧ 2 < value.length := by decide
    have hshort := length_le_of_isInfix_replicate (hx value hvalue).1 hoccurs
    have hlong := (hx value hvalue).2
    omega
  have hmessage : (composeParse plainComposePlatform pairManifest.id {} 0
      (boundLine maxLogLineBytes (encode (longLine (half ++ half))))).message =
        String.ofList (List.replicate 65534 'x' ++ half) := by
    have hraw : (boundLine maxLogLineBytes (encode (longLine (half ++ half)))).raw =
        (encode (longLine (half ++ half))).take maxLogLineBytes := rfl
    rw [← String.toList_inj, composeParse_message, hraw, hread, messageOf_plain hbar,
      takeBytes_of_le (Nat.le_of_eq hcut), String.toList_ofList]
  show pairRedaction.redact _ = _
  rw [hmessage, LogRedactionService.redact, String.toList_ofList, redactText_plain hplain habsent]

end MachineDeck.Logs

import MachineDeck.AuditEvents

/-!
# The audit cursor

* `decodeCursor_cursorText` — the text between two pages names the time and the id it was made from;
* `decodeCursor_error` — a text that is not one is refused, whatever it is;
* `cursor_faithful_total` — both.
-/

namespace MachineDeck.Audit

open IsoTime (Stamp)

theorem decodeCursor_cursorText (py : Python) (createdAt : Stamp) (id : EventId) :
    decodeCursor py (cursorText createdAt id) = .ok (aware createdAt, id.val) := by
  have hbytes (bytes : List UInt8) :
      Base64.decode (Base64.padded
        (String.ofList (Base64.rstrip (Base64.encode bytes))).toList) = some bytes := by
    rw [String.toList_ofList, Base64.decode_padded]
  have hid := id.property
  rw [decodeCursor, cursorText]
  simp only [hbytes, Option.bind_some, JsonText.decodeBytes_dumpsStrings, String.ofList_toList,
    JsonText.loads_dumpsStrings py.recursionLimit_pos]
  simp [JsonText.member?, pyStr, String.toList_ofList, IsoTime.fromisoformat_isoformat, aware, hid]

theorem decodeCursor_encodeCursor (py : Python) (r : AuditEventRecord) :
    decodeCursor py (encodeCursor r) = .ok (aware (loaded r.createdAt), r.id.val) :=
  decodeCursor_cursorText py (loaded r.createdAt) r.id

/-- A Python with the depth of calls it comes with. -/
def defaultPython : Python := ⟨id, id, fun _ => "", 1000, by decide⟩

theorem encodeCursor_ne_empty (r : AuditEventRecord) : encodeCursor r ≠ "" := by
  intro hempty
  have hdecode := decodeCursor_encodeCursor defaultPython r
  rw [hempty] at hdecode
  have hloads : JsonText.loads 1000 (String.ofList []) = .error .invalid := by
    rw [JsonText.loads, if_neg (by decide)]
    exact JsonText.Machine.run_error rfl
  have herror : decodeCursor defaultPython "" = .error cursorInvalid := by
    rw [decodeCursor]
    simp only [show Base64.decode (Base64.padded "".toList) = some [] from rfl, Option.bind_some,
      show JsonText.decodeBytes [] = some [] from rfl, defaultPython, hloads]
  rw [herror] at hdecode
  cases hdecode

/-! ### Any text -/

/-- The payload of a cursor lies no deeper than it is long. -/
theorem payload_length {value : String} {text : List Char} (hvalue : value.length ≤ 512)
    (h : (Base64.decode (Base64.padded value.toList)).bind JsonText.decodeBytes = some text) :
    (String.ofList text).length ≤ 384 := by
  obtain ⟨bytes, hbytes, htext⟩ := Option.bind_eq_some_iff.mp h
  have hread := Base64.length_decode hbytes
  have hchars := JsonText.length_decodeBytes htext
  rw [Base64.length_padded, String.length_toList] at hread
  rw [String.length_ofList]
  omega

/-- What a cursor names: a time that knows its offset, and an id as it fits the column. -/
def Named (named : Stamp × String) : Prop :=
  named.1.offset ≠ none ∧ 1 ≤ named.2.length ∧ named.2.length ≤ 36

theorem decodeCursor_ok {py : Python} {value : String} {named : Stamp × String}
    (h : decodeCursor py value = .ok named) : Named named := by
  unfold decodeCursor at h
  split at h
  · cases h
  split at h
  · cases h
  · split at h
    · split at h
      · simp only at h
        split_ifs at h with hbad
        cases h
        push Not at hbad
        exact hbad
      · cases h
    · cases h
  · cases h

/-- Every other text is refused with the one error. -/
theorem decodeCursor_error {py : Python} (hlimit : 384 < py.recursionLimit) {value : String}
    (hvalue : value.length ≤ 512) {error : ListError} (h : decodeCursor py value = .error error) :
    error = cursorInvalid := by
  unfold decodeCursor at h
  split at h
  · cases h
    rfl
  rename_i text htext
  split at h
  · rename_i hrecursion
    have hlength := payload_length hvalue htext
    exact absurd hrecursion (JsonText.loads_not_recursion (by omega))
  · split at h
    · split at h
      · simp only at h
        split_ifs at h
        cases h
        rfl
      · cases h
        rfl
    · cases h
      rfl
  · cases h
    rfl

/-- A cursor names what it was made from, and any text that a request may carry either names an
event or is refused as invalid. -/
theorem cursor_faithful_total (py : Python) (hlimit : 384 < py.recursionLimit) :
    (∀ (createdAt : Stamp) (id : EventId),
      decodeCursor py (cursorText createdAt id) = .ok (aware createdAt, id.val)) ∧
    ∀ value : String, value.length ≤ 512 →
      (∃ named, decodeCursor py value = .ok named ∧ Named named) ∨
      decodeCursor py value = .error cursorInvalid := by
  refine ⟨decodeCursor_cursorText py, fun value hvalue => ?_⟩
  cases hdecode : decodeCursor py value with
  | ok named => exact Or.inl ⟨named, rfl, decodeCursor_ok hdecode⟩
  | error error => exact Or.inr (by rw [decodeCursor_error hlimit hvalue hdecode])

/-- A time whose offset has seconds, and a text that is no cursor. -/
theorem cursor_faithful_total_default :
    decodeCursor defaultPython
        (cursorText ⟨⟨2026, 1, 2, 8, 0, 0, 5, by decide⟩, some ⟨18030000000, by decide⟩⟩
          ⟨"e1", by decide⟩) =
      .ok (⟨⟨2026, 1, 2, 8, 0, 0, 5, by decide⟩, some ⟨18030000000, by decide⟩⟩, "e1") ∧
    ((∃ named, decodeCursor defaultPython "W10" = .ok named ∧ Named named) ∨
      decodeCursor defaultPython "W10" = .error cursorInvalid) :=
  ⟨(cursor_faithful_total defaultPython (by decide)).1 _ ⟨"e1", by decide⟩,
    (cursor_faithful_total defaultPython (by decide)).2 "W10" (by decide)⟩

end MachineDeck.Audit

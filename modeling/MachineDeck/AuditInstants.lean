import MachineDeck.AuditCategories

/-!
# The times of an audit query

A bound that carries an offset is compared with the stored times by its own fields, as if they were
UTC, so that its offset moves it.

* `Within` — the event happened between the instants of the two bounds;
* `TimesExact` — the query shows exactly these events;
* `Untouched` — the event lies in none of the stretches that the offsets move the bounds over;
* `times_exact_iff` — queries of the same instants are exact exactly where no event of the table is
  touched.
-/

namespace MachineDeck.Audit

open IsoTime (DateTime Stamp Offset)

def Within (start end_ : Stamp) (t : DateTime) : Prop :=
  start.instant ≤ t.microseconds ∧ t.microseconds ≤ end_.instant

/-- The query between the two times shows the events between their instants. -/
def TimesExact (py : Python) (db : AuditTable) (start end_ : Stamp) : Prop :=
  ∀ r, Selected py db { start := some start, end_ := some end_ } r ↔
    r ∈ db.rows ∧ Within start end_ r.createdAt

/-- What the offset adds to the instant, in microseconds. -/
def shift (s : Stamp) : ℤ := s.offset.elim 0 Offset.microseconds

/-- The moved start neither leaves the event out nor lets it in, nor does the moved end. -/
structure Untouched (start end_ : Stamp) (t : ℤ) : Prop where
  kept_start : ¬ (start.instant ≤ t ∧ t ≤ end_.instant ∧ t < start.instant + shift start)
  kept_end : ¬ (start.instant ≤ t ∧ t ≤ end_.instant ∧ end_.instant + shift end_ < t)
  added_start : ¬ (start.instant + shift start ≤ t ∧ t ≤ end_.instant + shift end_ ∧
    t < start.instant)
  added_end : ¬ (start.instant + shift start ≤ t ∧ t ≤ end_.instant + shift end_ ∧
    end_.instant < t)

/-! ### The bounds as they are compared -/

/-- The fields of a stamp, read as UTC, are its instant moved by its offset. -/
theorem instant_shift (s : Stamp) : (s.time.microseconds : ℤ) = s.instant + shift s := by
  rw [Stamp.instant, shift]
  omega

theorem selects_times (py : Python) (start end_ : Stamp) (r : AuditEventRecord) :
    ({ start := some start, end_ := some end_ } : AuditFilters).selects py r = true ↔
      start.instant + shift start ≤ r.createdAt.microseconds ∧
        r.createdAt.microseconds ≤ end_.instant + shift end_ := by
  have hconditions : ({ start := some start, end_ := some end_ } : AuditFilters).selects py r =
      (decide (start.time ≤ r.createdAt) && (decide (r.createdAt ≤ end_.time) && true)) := rfl
  rw [hconditions, ← instant_shift, ← instant_shift, Bool.and_true, Bool.and_eq_true,
    decide_eq_true_iff, decide_eq_true_iff, ← DateTime.microseconds_le_iff,
    ← DateTime.microseconds_le_iff, Int.ofNat_le, Int.ofNat_le]

/-- Both bounds have an offset; then only their order can be refused. -/
theorem checkTimes_aware {start end_ : Stamp} (hstart : start.offset ≠ none)
    (hend : end_.offset ≠ none) :
    checkTimes { start := some start, end_ := some end_ } = .ok () ↔
      start.instant ≤ end_.instant := by
  simp only [checkTimes, Option.any_some, hstart, hend, decide_false, Bool.false_eq_true, if_false]
  by_cases h : start.instant > end_.instant
  · rw [if_pos h]
    exact ⟨nofun, fun hle => absurd hle (not_le.mpr h)⟩
  · rw [if_neg h]
    exact ⟨fun _ => not_lt.mp h, fun _ => rfl⟩

/-! ### Exact queries -/

/-- Bounds in the wrong order are refused, and no event lies between them. -/
theorem timesExact_of_lt (py : Python) (db : AuditTable) {start end_ : Stamp}
    (hstart : start.offset ≠ none) (hend : end_.offset ≠ none)
    (h : end_.instant < start.instant) : TimesExact py db start end_ := by
  intro r
  constructor
  · intro hselected
    have hle := (checkTimes_aware hstart hend).mp hselected.times
    omega
  · intro ⟨_, hlower, hupper⟩
    omega

theorem timesExact_iff (py : Python) (db : AuditTable) {start end_ : Stamp}
    (hstart : start.offset ≠ none) (hend : end_.offset ≠ none) :
    TimesExact py db start end_ ↔
      end_.instant < start.instant ∨
        ∀ r ∈ db.rows, Untouched start end_ r.createdAt.microseconds := by
  by_cases h : end_.instant < start.instant
  · exact iff_of_true (timesExact_of_lt py db hstart hend h) (.inl h)
  · have htimes := (checkTimes_aware hstart hend).mpr (not_lt.mp h)
    have hselected (r : AuditEventRecord) :=
      @selected_iff py db { start := some start, end_ := some end_ } rfl htimes r
    simp only [selects_times] at hselected
    rw [or_iff_right h]
    constructor
    · intro hexact r hr
      have hsame := (hselected r).symm.trans (hexact r)
      simp only [hr, true_and, Within] at hsame
      constructor
      · intro hlost
        omega
      · intro hlost
        omega
      · intro hadded
        omega
      · intro hadded
        omega
    · intro huntouched r
      rw [hselected r]
      apply and_congr_right
      intro hr
      obtain ⟨hkeptStart, hkeptEnd, haddedStart, haddedEnd⟩ := huntouched r hr
      rw [Within]
      omega

/-- Bounds in UTC are compared as they are meant. -/
theorem untouched_utc {start end_ : Stamp} (hstart : shift start = 0) (hend : shift end_ = 0)
    (t : ℤ) : Untouched start end_ t := by
  constructor <;> omega

/-- Two queries of the same instants show the events between these instants, and so the same
events, exactly when the bounds are in the wrong order or the offsets of neither query move a bound
over an event of the table. -/
theorem times_exact_iff (py : Python) (db : AuditTable) {start end_ start' end' : Stamp}
    (hstart : start.offset ≠ none) (hend : end_.offset ≠ none) (hstart' : start'.offset ≠ none)
    (hend' : end'.offset ≠ none) (hsameStart : start'.instant = start.instant)
    (hsameEnd : end'.instant = end_.instant) :
    (TimesExact py db start end_ ∧ TimesExact py db start' end' ∧
      ∀ r, Selected py db { start := some start, end_ := some end_ } r ↔
        Selected py db { start := some start', end_ := some end' } r) ↔
      end_.instant < start.instant ∨ ∀ r ∈ db.rows,
        Untouched start end_ r.createdAt.microseconds ∧
          Untouched start' end' r.createdAt.microseconds := by
  have hwithin (t : DateTime) : Within start' end' t ↔ Within start end_ t := by
    rw [Within, Within, hsameStart, hsameEnd]
  have hfirst := timesExact_iff py db hstart hend
  have hsecond := timesExact_iff py db hstart' hend'
  rw [hsameStart, hsameEnd] at hsecond
  constructor
  · intro ⟨hexact, hexact', _⟩
    cases hfirst.mp hexact with
    | inl h => exact .inl h
    | inr huntouched =>
        cases hsecond.mp hexact' with
        | inl h => exact .inl h
        | inr huntouched' => exact .inr fun r hr => ⟨huntouched r hr, huntouched' r hr⟩
  · intro h
    have hexact : TimesExact py db start end_ :=
      hfirst.mpr (h.imp_right fun huntouched r hr => (huntouched r hr).1)
    have hexact' : TimesExact py db start' end' :=
      hsecond.mpr (h.imp_right fun huntouched r hr => (huntouched r hr).2)
    refine ⟨hexact, hexact', fun r => ?_⟩
    rw [hexact r, hexact' r, hwithin]

theorem utc_bound : (0 : ℤ).natAbs < 86400000000 := by decide

def utc : Offset := ⟨0, utc_bound⟩

def hoursEast (hours : ℕ) (h : hours < 24) : Offset := ⟨hours * 3600000000, by omega⟩

/-- Four hours before the noon of `trail`, and eight hours after it. -/
def morning : Stamp := ⟨⟨2026, 1, 2, 8, 0, 0, 0, by decide⟩, some utc⟩

def evening : Stamp := ⟨⟨2026, 1, 2, 20, 0, 0, 0, by decide⟩, some utc⟩

/-- The same morning, told five hours further east. -/
def morningEast : Stamp :=
  ⟨⟨2026, 1, 2, 13, 0, 0, 0, by decide⟩, some (hoursEast 5 (by decide))⟩

theorem morningEast_instant : morningEast.instant = morning.instant := by decide

theorem times_exact_iff_utc :
    TimesExact ⟨id, id, fun _ => "", 1, le_refl 1⟩ (trail "auth.login") morning evening :=
  ((@times_exact_iff ⟨id, id, fun _ => "", 1, le_refl 1⟩ (trail "auth.login") morning evening
    morning evening (by decide) (by decide) (by decide) (by decide) rfl rfl).mpr (.inr fun r _ =>
      ⟨untouched_utc rfl rfl _, untouched_utc rfl rfl _⟩)).1

/-- The morning in its eastern form leaves the noon out, which it comes before. -/
theorem times_shifted :
    ∃ (py : Python) (db : AuditTable) (r : AuditEventRecord),
      morningEast.instant = morning.instant ∧ r ∈ db.rows ∧
      Within morningEast evening r.createdAt ∧
      Selected py db { start := some morning, end_ := some evening } r ∧
      ¬ Selected py db { start := some morningEast, end_ := some evening } r := by
  have htimes : checkTimes { start := some morning, end_ := some evening } = .ok () := by
    rw [checkTimes_aware (by decide) (by decide)]
    decide
  refine ⟨⟨id, id, fun _ => "", 1, le_refl 1⟩, trail "auth.login", _, morningEast_instant,
    List.mem_cons_self, ?_, ?_, ?_⟩
  · show morningEast.instant ≤ (noon.microseconds : ℤ) ∧ (noon.microseconds : ℤ) ≤ evening.instant
    decide
  · rw [selected_iff rfl htimes, selects_times]
    exact ⟨List.mem_cons_self, by decide⟩
  · intro h
    have hselects := ((selected_iff rfl h.times _).mp h).2
    rw [selects_times] at hselects
    revert hselects
    decide

end MachineDeck.Audit

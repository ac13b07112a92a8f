import MachineDeck.LogWebSocket
import Mathlib.Algebra.GroupWithZero.Nat
import Mathlib.Data.List.Infix
import Mathlib.Data.List.Range

/-!
# No line of a log stream is lost silently

* `numbered`, `logs`, `warned` — what the client can read off the envelopes it got;
* `Tally` — every produced event is sent, counted as dropped, or still on its way, in order;
* `Tally.step` — each step of the connection keeps that;
* `stream_accounts` — what follows for every interleaving.
-/

namespace MachineDeck.Logs

open GuardedRuns

/-! ### What the client sees -/

/-- The events with the sequence numbers 1, 2, 3 and so on. -/
def numbered (events : List LogEvent) : List LogEvent :=
  (events.zipIdx 1).map fun p => p.1.numbered p.2

theorem numbered_concat (events : List LogEvent) (event : LogEvent) :
    numbered (events ++ [event]) = numbered events ++ [event.numbered (events.length + 1)] := by
  simp [numbered, List.zipIdx_append, Nat.add_comm]

def LogEnvelope.event? : LogEnvelope → Option LogEvent
  | .log event => some event
  | _ => none

def LogEnvelope.count : LogEnvelope → ℕ
  | .warning _ count => count
  | _ => 0

/-- The events of the log envelopes. -/
def logs (sent : List LogEnvelope) : List LogEvent := sent.filterMap LogEnvelope.event?

/-- The sum of the counts of the warnings. -/
def warned (sent : List LogEnvelope) : ℕ := (sent.map LogEnvelope.count).sum

theorem logs_concat (sent : List LogEnvelope) (envelope : LogEnvelope) :
    logs (sent ++ [envelope]) = logs sent ++ envelope.event?.toList := by
  rw [logs, List.filterMap_append]
  cases h : envelope.event? <;> simp [logs, h]

theorem warned_concat (sent : List LogEnvelope) (envelope : LogEnvelope) :
    warned (sent ++ [envelope]) = warned sent + envelope.count := by
  simp [warned]

/-! ### What is on its way -/

def Item.event? : Item → Option LogEvent
  | .event e => some e
  | .envelope _ => none

def Phase.held : Phase → List Item
  | .holding item => [item]
  | .warning _ item => [item]
  | .sending item => [item]
  | _ => []

/-- What a warning on its way says. -/
def Phase.pending : Phase → ℕ
  | .warning count _ => count
  | _ => 0

/-- The item the handler holds and the queue behind it. -/
def Connection.line (s : Connection) : List Item := s.phase.held ++ s.queue

def events (items : List Item) : List LogEvent := items.filterMap Item.event?

theorem events_append (items items' : List Item) :
    events (items ++ items') = events items ++ events items' :=
  List.filterMap_append

theorem events_map (live : List LogEvent) : events (live.map Item.event) = live := by
  induction live with
  | nil => rfl
  | cons event live ih =>
    show event :: events (live.map Item.event) = event :: live
    rw [ih]

/-- Items that are all events are their events. -/
theorem map_events {items : List Item} (h : ∀ item ∈ items, ∃ event, item = .event event) :
    (events items).map .event = items := by
  induction items with
  | nil => rfl
  | cons item items ih =>
    obtain ⟨event, rfl⟩ := h item (by simp)
    show Item.event event :: (events items).map .event = _
    rw [ih fun x hx => h x (by simp [hx])]

/-- What `enqueueBounded` does: the item joins the queue, at the cost of the oldest one. -/
theorem enqueueBounded_cases {maxsize : ℕ} (hsize : 1 ≤ maxsize) (queue : List Item) (item : Item)
    (dropped : ℕ) :
    (queue.length < maxsize ∧
      enqueueBounded maxsize queue item dropped = (queue ++ [item], dropped)) ∨
    ∃ oldest rest, queue = oldest :: rest ∧ maxsize ≤ queue.length ∧
      enqueueBounded maxsize queue item dropped = (rest ++ [item], dropped + 1) := by
  by_cases hfull : full maxsize queue = true
  · right
    have hlength : 0 < maxsize ∧ maxsize ≤ queue.length := by simpa [full] using hfull
    cases queue with
    | nil =>
      simp only [List.length_nil] at hlength
      omega
    | cons oldest rest => exact ⟨oldest, rest, rfl, hlength.2, by simp [enqueueBounded, hfull]⟩
  · left
    have hlength : ¬ (0 < maxsize ∧ maxsize ≤ queue.length) := by simpa [full] using hfull
    exact ⟨by omega, by simp [enqueueBounded, hfull]⟩

/-- Where every event is: `front` of the history and the live events `live` are sent. -/
structure Tally (maxsize : ℕ) (history front live : List LogEvent) (s : Connection) : Prop where
  bounded : s.queue.length ≤ maxsize
  shown : logs s.sent = numbered (front ++ live)
  sequence : s.sequence = (front ++ live).length
  initial : front <+: history
  whole : live ≠ [] ∨ s.phase.following = true ∨ s.phase = .finished → front = history
  past : ∀ rest, s.phase = .history rest → front ++ rest = history ∧ s.produced = [] ∧
    s.queue = [] ∧ s.dropped = 0 ∧ s.ending = none ∧ warned s.sent = 0
  order : (live ++ events s.line).Sublist s.produced
  account : s.phase ≠ .gone →
    s.produced.length =
      live.length + (events s.line).length + warned s.sent + s.phase.pending + s.dropped
  lineOpen : s.ending = none → ∀ item ∈ s.line, ∃ event, item = .event event
  lineClosed : ∀ t, s.ending = some t → t.isTerminal = true ∧
    (s.phase.following = true → ∃ rest : List LogEvent, s.line = rest.map .event ++ [.envelope t])
  kept : ∀ t, s.ending = some t → s.phase = .finished → t ∈ s.sent
  flushed : ∀ t, s.ending = some t → (.envelope t) ∈ s.phase.held →
    (∀ item, s.phase ≠ .holding item) → s.dropped = 0
  done : s.phase = .finished → s.queue = [] ∧ s.dropped = 0
  terminal : ∀ t ∈ s.sent, t.isTerminal = true → s.phase = .finished

/-! ### The steps -/

section Steps

variable {maxsize : ℕ} {history front live : List LogEvent} {s s' : Connection}

theorem tally_start (maxsize : ℕ) (history : List LogEvent) (shouldFollow : Bool) :
    Tally maxsize history [] [] (start history shouldFollow) where
  bounded := Nat.zero_le _
  shown := rfl
  sequence := rfl
  initial := List.nil_prefix
  whole := by
    rintro (h | h | h)
    · exact absurd rfl h
    · cases h
    · cases h
  past := by
    intro rest h
    cases h
    exact ⟨rfl, rfl, rfl, rfl, rfl, rfl⟩
  order := List.Sublist.refl _
  account := fun _ => rfl
  lineOpen := by
    intro _ item h
    cases h
  lineClosed := by
    intro t h
    cases h
  kept := by
    intro t h
    cases h
  flushed := by
    intro t h
    cases h
  done := by
    intro h
    cases h
  terminal := by
    intro t ht hterminal
    rw [List.mem_singleton.mp ht] at hterminal
    cases hterminal

/-- The queue after the producer put an item into it: the events in it, and what was dropped. -/
theorem Tally.enqueue (h : Tally maxsize history front live s) (hsize : 1 ≤ maxsize)
    (hopen : s.ending = none) (item : Item) :
    ∃ dropped rest : List LogEvent, events s.line = (events s.phase.held) ++ dropped ++ rest ∧
      (s.enqueue maxsize item).queue = rest.map .event ++ [item] ∧
      (s.enqueue maxsize item).dropped = s.dropped + dropped.length ∧
      (s.enqueue maxsize item).queue.length ≤ maxsize := by
  have hqueue : ∀ x ∈ s.queue, ∃ event, x = .event event :=
    fun x hx => h.lineOpen hopen x (List.mem_append_right _ hx)
  have hline : events s.line = events s.phase.held ++ events s.queue := events_append _ _
  rcases enqueueBounded_cases hsize s.queue item s.dropped with
    ⟨hlength, heq⟩ | ⟨oldest, rest, hoq, hlength, heq⟩
  · refine ⟨[], events s.queue, by simp [hline], ?_, by simp [Connection.enqueue, heq], ?_⟩
    · rw [map_events hqueue]
      simp [Connection.enqueue, heq]
    · simp [Connection.enqueue, heq]
      omega
  · obtain ⟨event, rfl⟩ := hqueue oldest (by simp [hoq])
    have hrest : ∀ x ∈ rest, ∃ event, x = .event event := fun x hx => hqueue x (by simp [hoq, hx])
    refine ⟨[event], events rest, ?_, ?_, by simp [Connection.enqueue, heq], ?_⟩
    · rw [hline, hoq]
      simp [events, Item.event?]
    · rw [map_events hrest]
      simp [Connection.enqueue, heq]
    · have hbound := h.bounded
      simp only [hoq, List.length_cons] at hbound
      simp [Connection.enqueue, heq]
      omega

theorem Connection.produces_iff (s : Connection) :
    s.produces = true ↔ s.phase.following = true ∧ s.ending = none := by
  simp [Connection.produces]

theorem Phase.following_ne {phase : Phase} (h : phase.following = true) :
    phase ≠ .finished ∧ phase ≠ .gone ∧ ∀ rest, phase ≠ .history rest := by
  cases phase <;> simp_all [Phase.following]

theorem Tally.produce (h : Tally maxsize history front live s) (hsize : 1 ≤ maxsize)
    (hp : s.produces = true) (event : LogEvent) :
    Tally maxsize history front live
      { s.enqueue maxsize (.event event) with produced := s.produced ++ [event] } := by
  obtain ⟨hfollowing, hopen⟩ := (s.produces_iff).mp hp
  obtain ⟨hfinished, hgone, hpast⟩ := Phase.following_ne hfollowing
  obtain ⟨dropped, rest, hline, hqueue, hdropped, hbound⟩ := h.enqueue hsize hopen (.event event)
  have hnew : events (s.phase.held ++ (s.enqueue maxsize (.event event)).queue) =
      events s.phase.held ++ rest ++ [event] := by
    rw [hqueue, events_append, events_append, events_map, List.append_assoc]
    rfl
  constructor
  · exact hbound
  · exact h.shown
  · exact h.sequence
  · exact h.initial
  · exact h.whole
  · exact fun rest h => absurd h (hpast rest)
  · show (live ++ events (s.phase.held ++ (s.enqueue maxsize (.event event)).queue)).Sublist _
    have horder := h.order
    rw [hline] at horder
    rw [hnew, ← List.append_assoc]
    refine List.Sublist.append (List.Sublist.trans ?_ horder) (List.Sublist.refl _)
    refine List.Sublist.append (List.Sublist.refl _) ?_
    exact List.Sublist.append (List.sublist_append_left _ _) (List.Sublist.refl _)
  · intro _
    have haccount := h.account hgone
    show (s.produced ++ [event]).length = live.length +
      (events (s.phase.held ++ (s.enqueue maxsize (.event event)).queue)).length +
      warned s.sent + s.phase.pending + (s.enqueue maxsize (.event event)).dropped
    rw [hnew, hdropped]
    rw [hline] at haccount
    simp only [List.length_append, List.length_singleton] at haccount ⊢
    omega
  · intro _ item hitem
    rcases List.mem_append.mp hitem with hheld | hitem
    · exact h.lineOpen hopen item (List.mem_append_left _ hheld)
    · rw [show (s.enqueue maxsize (.event event)).queue = _ from hqueue] at hitem
      rcases List.mem_append.mp hitem with hrest | hlast
      · obtain ⟨e, -, rfl⟩ := List.mem_map.mp hrest
        exact ⟨e, rfl⟩
      · exact ⟨event, List.mem_singleton.mp hlast⟩
  · intro t ht
    rw [show s.ending = some t from ht] at hopen
    cases hopen
  · intro t ht
    rw [show s.ending = some t from ht] at hopen
    cases hopen
  · intro t ht
    rw [show s.ending = some t from ht] at hopen
    cases hopen
  · exact fun h => absurd h hfinished
  · intro t ht hterminal
    exact absurd (h.terminal t ht hterminal) hfinished

theorem Tally.finish (h : Tally maxsize history front live s) (hsize : 1 ≤ maxsize)
    (hp : s.produces = true) {envelope : LogEnvelope} (hterminal : envelope.isTerminal = true) :
    Tally maxsize history front live (s.finish maxsize envelope) := by
  obtain ⟨hfollowing, hopen⟩ := (s.produces_iff).mp hp
  obtain ⟨hfinished, hgone, hpast⟩ := Phase.following_ne hfollowing
  obtain ⟨dropped, rest, hline, hqueue, hdropped, hbound⟩ :=
    h.enqueue hsize hopen (.envelope envelope)
  have hheld : ∀ item ∈ s.phase.held, ∃ event, item = .event event :=
    fun item hitem => h.lineOpen hopen item (List.mem_append_left _ hitem)
  have hnew : events (s.phase.held ++ (s.enqueue maxsize (.envelope envelope)).queue) =
      events s.phase.held ++ rest := by
    rw [hqueue, events_append, events_append, events_map]
    simp [events, Item.event?]
  constructor
  · exact hbound
  · exact h.shown
  · exact h.sequence
  · exact h.initial
  · exact h.whole
  · exact fun rest h => absurd h (hpast rest)
  · show (live ++ events (s.phase.held ++ (s.enqueue maxsize (.envelope envelope)).queue)).Sublist _
    have horder := h.order
    rw [hline] at horder
    rw [hnew]
    refine List.Sublist.trans ?_ horder
    refine List.Sublist.append (List.Sublist.refl _) ?_
    exact List.Sublist.append (List.sublist_append_left _ _) (List.Sublist.refl _)
  · intro _
    have haccount := h.account hgone
    show s.produced.length = live.length +
      (events (s.phase.held ++ (s.enqueue maxsize (.envelope envelope)).queue)).length +
      warned s.sent + s.phase.pending + (s.enqueue maxsize (.envelope envelope)).dropped
    rw [hnew, hdropped]
    rw [hline] at haccount
    simp only [List.length_append] at haccount ⊢
    omega
  · intro hnone
    cases hnone
  · intro t ht
    cases ht
    refine ⟨hterminal, fun _ => ⟨events s.phase.held ++ rest, ?_⟩⟩
    show s.phase.held ++ (s.enqueue maxsize (.envelope envelope)).queue = _
    rw [hqueue, List.map_append, map_events hheld, List.append_assoc]
  · exact fun t _ h => absurd h hfinished
  · intro t ht hin
    obtain ⟨e, he⟩ := hheld _ hin
    cases he
  · exact fun h => absurd h hfinished
  · intro t ht hterminal
    exact absurd (h.terminal t ht hterminal) hfinished

theorem Tally.take (h : Tally maxsize history front live s) {item : Item} {rest : List Item}
    (hphase : s.phase = .waiting) (hqueue : s.queue = item :: rest) :
    Tally maxsize history front live { s with phase := .holding item, queue := rest } := by
  have hline : s.line = item :: rest := by simp [Connection.line, hphase, hqueue, Phase.held]
  have hfollowing : s.phase.following = true := by rw [hphase]; rfl
  constructor
  · have hbound := h.bounded
    rw [hqueue, List.length_cons] at hbound
    show rest.length ≤ maxsize
    omega
  · exact h.shown
  · exact h.sequence
  · exact h.initial
  · exact fun _ => h.whole (Or.inr (Or.inl hfollowing))
  · intro _ h
    cases h
  · show (live ++ events (item :: rest)).Sublist s.produced
    rw [← hline]
    exact h.order
  · intro _
    have haccount := h.account (by rw [hphase]; exact Phase.noConfusion)
    rw [hphase, hline] at haccount
    exact haccount
  · intro hopen x hx
    exact h.lineOpen hopen x (by rw [hline]; exact hx)
  · intro t ht
    obtain ⟨hterminal, hlast⟩ := h.lineClosed t ht
    obtain ⟨evs, hevs⟩ := hlast hfollowing
    exact ⟨hterminal, fun _ => ⟨evs, by rw [← hevs, hline]; rfl⟩⟩
  · intro _ _ h
    cases h
  · intro _ _ _ hnot
    exact absurd rfl (hnot item)
  · intro h
    cases h
  · intro t ht hterminal
    have hfinished := h.terminal t ht hterminal
    rw [hphase] at hfinished
    cases hfinished

theorem Tally.resume (h : Tally maxsize history front live s) {item : Item}
    (hphase : s.phase = .holding item) :
    Tally maxsize history front live
      (if s.dropped ≠ 0 then { s with phase := .warning s.dropped item, dropped := 0 }
        else { s with phase := .sending item }) := by
  have hline : s.line = item :: s.queue := by simp [Connection.line, hphase, Phase.held]
  have hfollowing : s.phase.following = true := by rw [hphase]; rfl
  have haccount := h.account (by rw [hphase]; exact Phase.noConfusion)
  rw [hphase, hline] at haccount
  have hfinished : ∀ t ∈ s.sent, t.isTerminal = true → False := by
    intro t ht hterminal
    have hdone := h.terminal t ht hterminal
    rw [hphase] at hdone
    cases hdone
  have hlast : ∀ t, s.ending = some t → t.isTerminal = true ∧
      ∃ evs : List LogEvent, item :: s.queue = evs.map .event ++ [.envelope t] := by
    intro t ht
    obtain ⟨hterminal, hlast⟩ := h.lineClosed t ht
    rw [← hline]
    exact ⟨hterminal, hlast hfollowing⟩
  split
  · constructor
    · exact h.bounded
    · exact h.shown
    · exact h.sequence
    · exact h.initial
    · exact fun _ => h.whole (Or.inr (Or.inl hfollowing))
    · intro _ h
      cases h
    · show (live ++ events (item :: s.queue)).Sublist s.produced
      rw [← hline]
      exact h.order
    · intro _
      show s.produced.length =
        live.length + (events (item :: s.queue)).length + warned s.sent + s.dropped + 0
      simp only [Phase.pending] at haccount
      omega
    · intro hopen x hx
      exact h.lineOpen hopen x (by rw [hline]; exact hx)
    · intro t ht
      exact ⟨(hlast t ht).1, fun _ => (hlast t ht).2⟩
    · intro _ _ h
      cases h
    · exact fun _ _ _ _ => rfl
    · intro h
      cases h
    · exact fun t ht hterminal => (hfinished t ht hterminal).elim
  · rename_i hzero
    have hdropped : s.dropped = 0 := by simpa using hzero
    constructor
    · exact h.bounded
    · exact h.shown
    · exact h.sequence
    · exact h.initial
    · exact fun _ => h.whole (Or.inr (Or.inl hfollowing))
    · intro _ h
      cases h
    · show (live ++ events (item :: s.queue)).Sublist s.produced
      rw [← hline]
      exact h.order
    · intro _
      exact haccount
    · intro hopen x hx
      exact h.lineOpen hopen x (by rw [hline]; exact hx)
    · intro t ht
      exact ⟨(hlast t ht).1, fun _ => (hlast t ht).2⟩
    · intro _ _ h
      cases h
    · exact fun _ _ _ _ => hdropped
    · intro h
      cases h
    · exact fun t ht hterminal => (hfinished t ht hterminal).elim

theorem Tally.hangUp (h : Tally maxsize history front live s) (hphase : s.phase ≠ .finished) :
    Tally maxsize history front live { s with phase := .gone } := by
  constructor
  · exact h.bounded
  · exact h.shown
  · exact h.sequence
  · exact h.initial
  · rintro (hlive | hgone | hgone)
    · exact h.whole (Or.inl hlive)
    · cases hgone
    · cases hgone
  · intro _ h
    cases h
  · refine List.Sublist.trans ?_ h.order
    refine List.Sublist.append (List.Sublist.refl _) ?_
    show (events s.queue).Sublist (events (s.phase.held ++ s.queue))
    rw [events_append]
    exact List.sublist_append_right _ _
  · exact fun hgone => absurd rfl hgone
  · exact fun hopen x hx => h.lineOpen hopen x (List.mem_append_right _ hx)
  · intro t ht
    refine ⟨(h.lineClosed t ht).1, ?_⟩
    intro hgone
    cases hgone
  · intro _ _ hgone
    cases hgone
  · intro _ _ hheld
    cases hheld
  · intro hgone
    cases hgone
  · exact fun t ht hterminal => absurd (h.terminal t ht hterminal) hphase

theorem Tally.sendHistory {event : LogEvent} {rest : List LogEvent}
    (h : Tally maxsize history front [] s) (hphase : s.phase = .history (event :: rest)) :
    Tally maxsize history (front ++ [event]) []
      { s.sendLog event with phase := .history rest } := by
  obtain ⟨hfront, hproduced, hqueue, hdropped, hopen, hwarned⟩ := h.past _ hphase
  have hlogs := h.shown
  have hsequence := h.sequence
  rw [List.append_nil] at hlogs hsequence
  constructor
  · exact h.bounded
  · show logs (s.sent ++ [.log (event.numbered (s.sequence + 1))]) = _
    rw [logs_concat, hlogs, hsequence, List.append_nil, numbered_concat]
    rfl
  · show s.sequence + 1 = (front ++ [event] ++ []).length
    rw [hsequence, List.append_nil, List.length_append, List.length_singleton]
  · exact ⟨rest, by rw [← hfront, List.append_assoc]; rfl⟩
  · rintro (hlive | hfollowing | hfinished)
    · exact absurd rfl hlive
    · cases hfollowing
    · cases hfinished
  · intro rest' hrest'
    cases hrest'
    refine ⟨by rw [← hfront, List.append_assoc]; rfl, hproduced, hqueue, hdropped, hopen, ?_⟩
    show warned (s.sent ++ [.log _]) = 0
    rw [warned_concat, hwarned]
    rfl
  · show (events s.queue).Sublist s.produced
    rw [hqueue, hproduced]
    exact List.Sublist.refl _
  · intro _
    show s.produced.length =
      0 + (events s.queue).length + warned (s.sent ++ [.log _]) + 0 + s.dropped
    rw [hproduced, hqueue, hdropped, warned_concat, hwarned]
    rfl
  · intro _ item hitem
    have hnone : item ∈ s.queue := hitem
    rw [hqueue] at hnone
    cases hnone
  · intro t ht
    rw [show s.ending = some t from ht] at hopen
    cases hopen
  · intro t ht
    rw [show s.ending = some t from ht] at hopen
    cases hopen
  · intro t ht
    rw [show s.ending = some t from ht] at hopen
    cases hopen
  · intro hfinished
    cases hfinished
  · intro t ht hterminal
    rcases List.mem_append.mp ht with ht | ht
    · have hfinished := h.terminal t ht hterminal
      rw [hphase] at hfinished
      cases hfinished
    · rw [List.mem_singleton.mp ht] at hterminal
      cases hterminal

theorem Tally.endHistory (h : Tally maxsize history front [] s) (hphase : s.phase = .history []) :
    Tally maxsize history front [] { s with phase := .waiting } ∧
      Tally maxsize history front []
        { s with sent := s.sent ++ [.eof "history_complete"], phase := .finished } := by
  obtain ⟨hfront, hproduced, hqueue, hdropped, hopen, hwarned⟩ := h.past _ hphase
  rw [List.append_nil] at hfront
  have hline : s.line = s.queue := by simp [Connection.line, hphase, Phase.held]
  have hearlier : ∀ t ∈ s.sent, t.isTerminal = true → False := by
    intro t ht hterminal
    have hfinished := h.terminal t ht hterminal
    rw [hphase] at hfinished
    cases hfinished
  have hclosed : ∀ t, s.ending = some t → False := by
    intro t ht
    rw [ht] at hopen
    cases hopen
  have hitems : ∀ item ∈ s.queue, ∃ event, item = .event event := by
    intro item hitem
    rw [hqueue] at hitem
    cases hitem
  have horder : ([] ++ events s.queue).Sublist s.produced := by rw [← hline]; exact h.order
  constructor
  · constructor
    · exact h.bounded
    · exact h.shown
    · exact h.sequence
    · exact h.initial
    · exact fun _ => hfront
    · intro _ h
      cases h
    · exact horder
    · intro _
      show s.produced.length = 0 + (events s.queue).length + warned s.sent + 0 + s.dropped
      rw [hproduced, hqueue, hdropped, hwarned]
      rfl
    · exact fun _ => hitems
    · exact fun t ht => (hclosed t ht).elim
    · exact fun t ht => (hclosed t ht).elim
    · exact fun t ht => (hclosed t ht).elim
    · intro h
      cases h
    · exact fun t ht hterminal => (hearlier t ht hterminal).elim
  · constructor
    · exact h.bounded
    · show logs (s.sent ++ [_]) = _
      rw [logs_concat, h.shown]
      exact List.append_nil _
    · exact h.sequence
    · exact h.initial
    · exact fun _ => hfront
    · intro _ h
      cases h
    · exact horder
    · intro _
      show s.produced.length = 0 + (events s.queue).length + warned (s.sent ++ [_]) + 0 + s.dropped
      rw [hproduced, hqueue, hdropped, warned_concat, hwarned]
      rfl
    · exact fun _ => hitems
    · exact fun t ht => (hclosed t ht).elim
    · exact fun t ht => (hclosed t ht).elim
    · exact fun t ht => (hclosed t ht).elim
    · exact fun _ => ⟨hqueue, hdropped⟩
    · exact fun _ _ _ => rfl

theorem Tally.sendWarning (h : Tally maxsize history front live s) {count : ℕ} {item : Item}
    (hphase : s.phase = .warning count item) :
    Tally maxsize history front live { s with
      sent := s.sent ++ [.warning "LOG_MESSAGES_DROPPED" count]
      phase := .sending item } := by
  have hline : s.line = item :: s.queue := by simp [Connection.line, hphase, Phase.held]
  have hfollowing : s.phase.following = true := by rw [hphase]; rfl
  constructor
  · exact h.bounded
  · show logs (s.sent ++ [_]) = _
    rw [logs_concat, h.shown]
    exact List.append_nil _
  · exact h.sequence
  · exact h.initial
  · exact fun _ => h.whole (Or.inr (Or.inl hfollowing))
  · intro _ h
    cases h
  · show (live ++ events (item :: s.queue)).Sublist s.produced
    rw [← hline]
    exact h.order
  · intro _
    have haccount := h.account (by rw [hphase]; exact Phase.noConfusion)
    rw [hphase, hline] at haccount
    show s.produced.length = live.length + (events (item :: s.queue)).length +
      warned (s.sent ++ [.warning "LOG_MESSAGES_DROPPED" count]) + 0 + s.dropped
    rw [warned_concat]
    simp only [Phase.pending, LogEnvelope.count] at haccount ⊢
    omega
  · intro hopen x hx
    exact h.lineOpen hopen x (by rw [hline]; exact hx)
  · intro t ht
    obtain ⟨hterminal, hlast⟩ := h.lineClosed t ht
    obtain ⟨evs, hevs⟩ := hlast hfollowing
    exact ⟨hterminal, fun _ => ⟨evs, by rw [← hevs, hline]; rfl⟩⟩
  · intro _ _ h
    cases h
  · intro t ht hheld _
    refine h.flushed t ht ?_ ?_
    · rw [hphase]
      exact hheld
    · intro x hx
      rw [hphase] at hx
      cases hx
  · intro h
    cases h
  · intro t ht hterminal
    rcases List.mem_append.mp ht with ht | ht
    · have hfinished := h.terminal t ht hterminal
      rw [hphase] at hfinished
      cases hfinished
    · rw [List.mem_singleton.mp ht] at hterminal
      cases hterminal

theorem Tally.sendEvent (h : Tally maxsize history front live s) {event : LogEvent}
    (hphase : s.phase = .sending (.event event)) :
    Tally maxsize history front (live ++ [event])
      { s.sendLog event with phase := .waiting } := by
  have hline : s.line = .event event :: s.queue := by
    simp [Connection.line, hphase, Phase.held]
  have hfollowing : s.phase.following = true := by rw [hphase]; rfl
  have hqueue : events s.line = event :: events s.queue := by rw [hline]; rfl
  constructor
  · exact h.bounded
  · show logs (s.sent ++ [.log (event.numbered (s.sequence + 1))]) = _
    rw [logs_concat, h.shown, h.sequence, ← List.append_assoc, numbered_concat]
    rfl
  · show s.sequence + 1 = _
    rw [h.sequence]
    simp only [List.length_append, List.length_singleton]
    omega
  · exact h.initial
  · exact fun _ => h.whole (Or.inr (Or.inl hfollowing))
  · intro _ h
    cases h
  · show (live ++ [event] ++ events s.queue).Sublist s.produced
    have horder := h.order
    rw [hqueue] at horder
    rw [List.append_assoc]
    exact horder
  · intro _
    have haccount := h.account (by rw [hphase]; exact Phase.noConfusion)
    rw [hqueue, hphase] at haccount
    show s.produced.length = (live ++ [event]).length + (events s.queue).length +
      warned (s.sent ++ [.log _]) + 0 + s.dropped
    rw [warned_concat]
    simp only [Phase.pending, LogEnvelope.count, List.length_append, List.length_cons,
      List.length_nil] at haccount ⊢
    omega
  · intro hopen x hx
    exact h.lineOpen hopen x (by rw [hline]; exact List.mem_cons_of_mem _ hx)
  · intro t ht
    obtain ⟨hterminal, hlast⟩ := h.lineClosed t ht
    obtain ⟨evs, hevs⟩ := hlast hfollowing
    refine ⟨hterminal, fun _ => ?_⟩
    rw [hline] at hevs
    cases evs with
    | nil => cases hevs
    | cons e evs =>
      refine ⟨evs, ?_⟩
      show s.queue = _
      exact (List.cons.inj hevs).2
  · intro _ _ h
    cases h
  · intro _ _ h
    cases h
  · intro h
    cases h
  · intro t ht hterminal
    rcases List.mem_append.mp ht with ht | ht
    · have hfinished := h.terminal t ht hterminal
      rw [hphase] at hfinished
      cases hfinished
    · rw [List.mem_singleton.mp ht] at hterminal
      cases hterminal

/-- The only envelope that is ever held is the last one, with nothing behind it. -/
theorem Tally.held_envelope (h : Tally maxsize history front live s) {envelope : LogEnvelope}
    (hphase : s.phase = .sending (.envelope envelope)) :
    envelope.isTerminal = true ∧ s.ending = some envelope ∧ s.queue = [] ∧ s.dropped = 0 := by
  have hline : s.line = .envelope envelope :: s.queue := by
    simp [Connection.line, hphase, Phase.held]
  cases hending : s.ending with
  | none =>
    obtain ⟨e, he⟩ := h.lineOpen hending (.envelope envelope) (by rw [hline]; simp)
    cases he
  | some t =>
    obtain ⟨hterminal, hlast⟩ := h.lineClosed t hending
    obtain ⟨evs, hevs⟩ := hlast (by rw [hphase]; rfl)
    rw [hline] at hevs
    cases evs with
    | cons e evs => cases hevs
    | nil =>
      obtain ⟨ht, hqueue⟩ := List.cons.inj hevs
      cases ht
      refine ⟨hterminal, rfl, hqueue, h.flushed envelope hending ?_ ?_⟩
      · rw [hphase]
        exact List.mem_singleton_self _
      · intro x hx
        rw [hphase] at hx
        cases hx

theorem Tally.sendEnvelope (h : Tally maxsize history front live s) {envelope : LogEnvelope}
    (hphase : s.phase = .sending (.envelope envelope)) :
    Tally maxsize history front live { s with
      sent := s.sent ++ [envelope]
      phase := if envelope.isTerminal then .finished else .waiting } := by
  obtain ⟨hterminal, hending, hqueue, hdropped⟩ := h.held_envelope hphase
  have hfollowing : s.phase.following = true := by rw [hphase]; rfl
  have hplain : envelope.event? = none ∧ envelope.count = 0 := by
    cases envelope <;> first | exact ⟨rfl, rfl⟩ | cases hterminal
  have hnone : events s.line = [] := by
    simp [Connection.line, hphase, Phase.held, hqueue, events, Item.event?]
  rw [if_pos hterminal]
  constructor
  · exact h.bounded
  · show logs (s.sent ++ [envelope]) = _
    rw [logs_concat, h.shown, hplain.1]
    exact List.append_nil _
  · exact h.sequence
  · exact h.initial
  · exact fun _ => h.whole (Or.inr (Or.inl hfollowing))
  · intro _ h
    cases h
  · show (live ++ events s.queue).Sublist s.produced
    have horder := h.order
    rw [hnone] at horder
    rw [hqueue]
    exact horder
  · intro _
    have haccount := h.account (by rw [hphase]; exact Phase.noConfusion)
    rw [hnone, hphase] at haccount
    show s.produced.length = live.length + (events s.queue).length +
      warned (s.sent ++ [envelope]) + 0 + s.dropped
    rw [warned_concat, hplain.2, hqueue]
    exact haccount
  · intro hopen
    rw [show s.ending = none from hopen] at hending
    cases hending
  · intro t ht
    rw [show s.ending = some t from ht, Option.some.injEq] at hending
    subst hending
    refine ⟨hterminal, ?_⟩
    intro h
    cases h
  · intro t ht _
    rw [show s.ending = some t from ht, Option.some.injEq] at hending
    subst hending
    exact List.mem_append_right _ (List.mem_singleton_self _)
  · intro _ _ h
    cases h
  · exact fun _ => ⟨hqueue, hdropped⟩
  · exact fun _ _ _ => rfl

theorem Tally.live_eq_nil (h : Tally maxsize history front live s) {rest : List LogEvent}
    (hphase : s.phase = .history rest) : live = [] := by
  have horder := h.order
  rw [(h.past _ hphase).2.1, List.sublist_nil, List.append_eq_nil_iff] at horder
  exact horder.1

/-- Each step keeps the tally, with at most one more event in front of the client. -/
theorem Tally.step (h : Tally maxsize history front live s) (hsize : 1 ≤ maxsize) {label : Label}
    (hstep : s.step maxsize label = some s') :
    ∃ front' live', Tally maxsize history front' live' s' := by
  cases label with
  | produce event =>
    by_cases hp : s.produces = true
    · rw [Connection.step, if_pos hp, Option.some.injEq] at hstep
      subst hstep
      exact ⟨front, live, h.produce hsize hp event⟩
    · rw [Connection.step, if_neg hp] at hstep
      cases hstep
  | sourceCloses =>
    by_cases hp : s.produces = true
    · rw [Connection.step, if_pos hp, Option.some.injEq] at hstep
      subst hstep
      exact ⟨front, live, h.finish hsize hp rfl⟩
    · rw [Connection.step, if_neg hp] at hstep
      cases hstep
  | sourceFails message =>
    by_cases hp : s.produces = true
    · rw [Connection.step, if_pos hp, Option.some.injEq] at hstep
      subst hstep
      exact ⟨front, live, h.finish hsize hp rfl⟩
    · rw [Connection.step, if_neg hp] at hstep
      cases hstep
  | take =>
    simp only [Connection.step] at hstep
    split at hstep
    · rename_i item rest hphase hqueue
      cases hstep
      exact ⟨front, live, h.take hphase hqueue⟩
    · cases hstep
  | resume =>
    simp only [Connection.step] at hstep
    split at hstep
    · rename_i item hphase
      have hresume := h.resume hphase
      split at hstep
      · rename_i hdropped
        cases hstep
        rw [if_pos hdropped] at hresume
        exact ⟨front, live, hresume⟩
      · rename_i hdropped
        cases hstep
        rw [if_neg hdropped] at hresume
        exact ⟨front, live, hresume⟩
    · cases hstep
  | deliver =>
    simp only [Connection.step, Connection.deliver] at hstep
    split at hstep
    · rename_i event rest hphase
      cases hstep
      have hlive := h.live_eq_nil hphase
      subst hlive
      exact ⟨front ++ [event], [], h.sendHistory hphase⟩
    · rename_i hphase
      have hlive := h.live_eq_nil hphase
      subst hlive
      split at hstep
      · cases hstep
        exact ⟨front, [], (h.endHistory hphase).1⟩
      · cases hstep
        exact ⟨front, [], (h.endHistory hphase).2⟩
    · rename_i count item hphase
      cases hstep
      exact ⟨front, live, h.sendWarning hphase⟩
    · rename_i event hphase
      cases hstep
      exact ⟨front, live ++ [event], h.sendEvent hphase⟩
    · rename_i envelope hphase
      cases hstep
      exact ⟨front, live, h.sendEnvelope hphase⟩
    · cases hstep
  | hangUp =>
    by_cases hphase : s.phase = .finished
    · rw [Connection.step, if_pos hphase] at hstep
      cases hstep
    · rw [Connection.step, if_neg hphase, Option.some.injEq] at hstep
      subst hstep
      exact ⟨front, live, h.hangUp hphase⟩

/-- The producer's last envelope is sent or still ahead, unless the connection is gone. -/
theorem Tally.ending_kept (h : Tally maxsize history front live s) {t : LogEnvelope}
    (ht : s.ending = some t) : t ∈ s.sent ∨ .envelope t ∈ s.line ∨ s.phase = .gone := by
  by_cases hfollowing : s.phase.following = true
  · obtain ⟨evs, hline⟩ := (h.lineClosed t ht).2 hfollowing
    rw [hline]
    exact Or.inr (Or.inl (List.mem_append_right _ (List.mem_singleton_self _)))
  · cases hphase : s.phase with
    | history rest =>
      have hopen := (h.past rest hphase).2.2.2.2.1
      rw [ht] at hopen
      cases hopen
    | finished => exact Or.inl (h.kept t ht hphase)
    | gone => exact Or.inr (Or.inr rfl)
    | waiting => rw [hphase] at hfollowing; exact absurd rfl hfollowing
    | holding item => rw [hphase] at hfollowing; exact absurd rfl hfollowing
    | warning count item => rw [hphase] at hfollowing; exact absurd rfl hfollowing
    | sending item => rw [hphase] at hfollowing; exact absurd rfl hfollowing

/-- Once the last envelope is out, every event is sent or counted. -/
theorem Tally.balance (h : Tally maxsize history front live s) {t : LogEnvelope}
    (ht : t ∈ s.sent) (hterminal : t.isTerminal = true) :
    front = history ∧ s.produced.length = live.length + warned s.sent := by
  have hphase := h.terminal t ht hterminal
  obtain ⟨hqueue, hdropped⟩ := h.done hphase
  have haccount := h.account (by rw [hphase]; exact Phase.noConfusion)
  have hline : s.line = [] := by simp [Connection.line, hphase, hqueue, Phase.held]
  rw [hline, hphase, hdropped] at haccount
  exact ⟨h.whole (Or.inr (Or.inr hphase)), haccount⟩

end Steps

/-- **A log stream loses no line silently.**  However producer and handler take turns, the queue
stays within its bound, the log envelopes carry the numbers 1, 2, 3 and so on, first over the
history and then over live events in the order of their production; the last envelope is never
dropped, and when it is sent every live event was sent or is counted in a warning. -/
theorem stream_accounts {maxsize : ℕ} (hsize : 1 ≤ maxsize) (history : List LogEvent)
    (shouldFollow : Bool) {s : Connection}
    (hrun : Reach (Moves maxsize) Anyhow (start history shouldFollow) s) :
    s.queue.length ≤ maxsize ∧
    ∃ front live : List LogEvent,
      logs s.sent = numbered (front ++ live) ∧
      front <+: history ∧ (live ≠ [] → front = history) ∧
      live.Sublist s.produced ∧
      (∀ t, s.ending = some t → t ∈ s.sent ∨ .envelope t ∈ s.line ∨ s.phase = .gone) ∧
      ∀ t ∈ s.sent, t.isTerminal = true →
        front = history ∧ s.produced.length = live.length + warned s.sent := by
  have hinvariant : ∃ front live, Tally maxsize history front live s := by
    refine Reach.invariant (I := fun s => ∃ front live, Tally maxsize history front live s)
      ⟨[], [], tally_start maxsize history shouldFollow⟩ ?_ hrun
    rintro s label s' ⟨front, live, h⟩ - hstep
    exact h.step hsize hstep
  obtain ⟨front, live, h⟩ := hinvariant
  refine ⟨h.bounded, front, live, h.shown, h.initial, fun hlive => h.whole (Or.inl hlive), ?_,
    fun t ht => h.ending_kept ht, fun t ht hterminal => h.balance ht hterminal⟩
  exact (List.sublist_append_left _ _).trans h.order

def lineAt (message : String) : LogEvent :=
  { applicationId := "app", timestamp := 0, source := .journal, message := message }

/-- Two lines come while a queue of one item is full of the first. -/
def crowded : Connection :=
  { phase := .finished
    sent := [.status "connected", .log ((lineAt "old").numbered 1),
      .warning "LOG_MESSAGES_DROPPED" 2, logSourceClosed]
    sequence := 1
    produced := [lineAt "one", lineAt "two"]
    ending := some logSourceClosed }

theorem stream_accounts_crowded :
    crowded.queue.length ≤ 1 ∧
    ∃ front live : List LogEvent,
      logs crowded.sent = numbered (front ++ live) ∧
      front <+: [lineAt "old"] ∧ (live ≠ [] → front = [lineAt "old"]) ∧
      live.Sublist crowded.produced ∧
      (∀ t, crowded.ending = some t →
        t ∈ crowded.sent ∨ .envelope t ∈ crowded.line ∨ crowded.phase = .gone) ∧
      ∀ t ∈ crowded.sent, t.isTerminal = true →
        front = [lineAt "old"] ∧ crowded.produced.length = live.length + warned crowded.sent :=
  stream_accounts (le_refl 1) [lineAt "old"] true
    (Reach.of_foldlM (fun _ _ _ h => h) [.deliver, .deliver, .produce (lineAt "one"),
      .produce (lineAt "two"), .sourceCloses, .take, .resume, .deliver, .deliver]
      (fun _ _ _ => trivial) rfl)

end MachineDeck.Logs

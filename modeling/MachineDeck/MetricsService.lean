import MachineDeck.BoundedQueue
import MachineDeck.GuardedRuns
import MachineDeck.Traversals
import Mathlib.Data.Int.Notation

/-!
# The dashboard's snapshots

`MetricsService`: one task collects snapshots, and every subscriber has a queue for the newest one.

* `DashboardSnapshot`, `snapshotFreshness` — a snapshot and how old it is;
* `MetricsService`, `Event`, `step` — what the task, the subscribers and `stop` do between two
  points where they wait;
* `InOrder`, `Orderly` — what a subscriber has received, and what its queue holds;
* `streams_in_order`, `streams_end` — for every order of events.
-/

namespace MachineDeck.Dashboard

open BoundedQueue GuardedRuns Traversals

/-! ### Snapshots -/

inductive Freshness where
  | live | stale | offline
  deriving DecidableEq, Repr

/-- A snapshot; the moments are microseconds, and the measurements are left open. -/
structure DashboardSnapshot (μ : Type) where
  collectedAt : ℤ
  freshness : Freshness
  metrics : μ
  deriving DecidableEq, Repr

def snapshotFreshness (collectedAt now : ℤ) : Freshness :=
  let age := max 0 (now - collectedAt)
  if age ≤ 5000000 then .live else if age ≤ 15000000 then .stale else .offline

variable {μ : Type}

/-- A snapshot, with the number of publications before it. -/
structure Published (μ : Type) where
  serial : ℕ
  snapshot : DashboardSnapshot μ
  deriving DecidableEq, Repr

/-- `snapshot.model_copy(update={"freshness": ...})`. -/
def Published.refreshed (p : Published μ) (now : ℤ) : Published μ :=
  { p with
    snapshot := { p.snapshot with freshness := snapshotFreshness p.snapshot.collectedAt now } }

@[simp] theorem Published.refreshed_serial (p : Published μ) (now : ℤ) :
    (p.refreshed now).serial = p.serial := rfl

/-! ### Subscribers -/

/-- Where the generator of a subscriber is: at its `yield`, in `queue.get`, or left. -/
inductive Reader where
  | paused | waiting | done
  deriving DecidableEq, Repr

/-- What a subscriber has received, and how many snapshots had been published then. -/
structure Receipt (μ : Type) where
  received : Published μ
  publications : ℕ

/-- A subscriber, with the number of publications when it came, and whether `stop` has met it. -/
structure Subscriber (μ : Type) where
  queue : Queue (Option (Published μ))
  registered : Bool
  reader : Reader
  joined : ℕ
  receipts : List (Receipt μ) := []
  dismissed : Bool := false

/-- From `queue.get` to the next `yield`; on `None` the generator is left. -/
def Subscriber.next (sub : Subscriber μ) (publications : ℕ) (now : ℤ) : Subscriber μ :=
  match sub.queue.getNowait with
  | .error _ => { sub with reader := .waiting }
  | .ok (none, queue) => { sub with queue := queue, registered := false, reader := .done }
  | .ok (some p, queue) =>
    { sub with
      queue := queue
      reader := .paused
      receipts := sub.receipts ++ [⟨p.refreshed now, publications⟩] }

/-- The body of the loop over the registered queues. -/
def Subscriber.offer (sub : Subscriber μ) (item : Option (Published μ)) :
    Except QueueError (Subscriber μ) :=
  if sub.registered then do
    let queue ← sub.queue.replace item
    return { sub with queue := queue }
  else return sub

/-! ### The service -/

inductive CollectorTask where
  | sleeping | collecting | cancelled | finished
  deriving DecidableEq, Repr

/-- `published` is a record of what has been published. -/
structure MetricsService (μ : Type) where
  snapshot : Option (Published μ)
  task : CollectorTask
  stopping : Bool := false
  subscribers : List (Subscriber μ) := []
  published : List (DashboardSnapshot μ)

inductive Event (μ : Type) where
  /-- `_run`: the interval is over, and the collector returns or raises. -/
  | wakes
  | collected (snapshot : DashboardSnapshot μ)
  | collectFails
  /-- The first read of a new stream, later ones, and the end of a wait for an item. -/
  | subscribe (now now' : ℤ)
  | read (i : ℕ) (now : ℤ)
  | resume (i : ℕ) (now : ℤ)
  /-- A stream is closed, or its read is cancelled. -/
  | close (i : ℕ)
  /-- `stop` up to the wait for the task, and behind it. -/
  | stop
  | taskEnds

/-- The snapshot is kept and offered to every subscriber. -/
def MetricsService.publish (s : MetricsService μ) (snapshot : DashboardSnapshot μ) :
    Except QueueError (MetricsService μ) := do
  let p : Published μ := ⟨s.published.length, snapshot⟩
  let subscribers ← s.subscribers.mapM (·.offer (some p))
  return { s with
    snapshot := some p
    task := .sleeping
    subscribers := subscribers
    published := s.published ++ [snapshot] }

/-- `subscribe` up to its first `yield`, where there is a snapshot. -/
def openStream (p : Published μ) (publications : ℕ) (now now' : ℤ) :
    Except QueueError (Subscriber μ) := do
  let queue ← Queue.putNowait ⟨1, []⟩ (some (p.refreshed now))
  let sub : Subscriber μ :=
    { queue := queue, registered := true, reader := .paused, joined := publications }
  return sub.next publications now'

/-- The end of the streams. -/
def MetricsService.dismiss (s : MetricsService μ) : Except QueueError (MetricsService μ) := do
  let subscribers ← s.subscribers.mapM (·.offer none)
  return { s with
    task := .finished
    subscribers := subscribers.map fun sub =>
      { sub with dismissed := sub.dismissed || sub.registered } }

/-- One subscriber goes on. -/
def MetricsService.change (s : MetricsService μ) (i : ℕ)
    (allowed : Subscriber μ → Bool) (change : Subscriber μ → Subscriber μ) :
    Option (Except QueueError (MetricsService μ)) :=
  match s.subscribers[i]? with
  | none => none
  | some sub =>
    if allowed sub then some (.ok { s with subscribers := s.subscribers.set i (change sub) })
    else none

/-- `none` is an event that cannot happen. A cancelled task publishes nothing, since `_run` catches
no `CancelledError`; `start` has published, so `latest` finds a snapshot. -/
def step (s : MetricsService μ) : Event μ → Option (Except QueueError (MetricsService μ))
  | .wakes => if s.task = .sleeping then some (.ok { s with task := .collecting }) else none
  | .collected snapshot => if s.task = .collecting then some (s.publish snapshot) else none
  | .collectFails =>
    if s.task = .collecting then some (.ok { s with task := .sleeping }) else none
  | .subscribe now now' =>
    s.snapshot.map fun p => do
      let sub ← openStream p s.published.length now now'
      return { s with subscribers := s.subscribers ++ [sub] }
  | .read i now => s.change i (·.reader = .paused) fun sub => sub.next s.published.length now
  | .resume i now =>
    s.change i (fun sub => sub.reader = .waiting ∧ sub.queue.items ≠ [])
      fun sub => sub.next s.published.length now
  | .close i =>
    s.change i (·.reader ≠ .done) fun sub => { sub with registered := false, reader := .done }
  | .stop =>
    if s.stopping ∨ s.task = .finished then none
    else some (.ok { s with stopping := true, task := .cancelled })
  | .taskEnds => if s.task = .cancelled then some s.dismiss else none

/-- `start` has completed. -/
def started (snapshot : DashboardSnapshot μ) : MetricsService μ where
  snapshot := some ⟨0, snapshot⟩
  task := .sleeping
  published := [snapshot]

def Moves (s : MetricsService μ) (event : Event μ) (s' : MetricsService μ) : Prop :=
  step s event = some (.ok s')

/-! ### What a subscriber has received -/

/-- A copy of the snapshot that was published at this place. -/
def Genuine (published : List (DashboardSnapshot μ)) (p : Published μ) : Prop :=
  ∃ snapshot, published[p.serial]? = some snapshot ∧
    p.snapshot.collectedAt = snapshot.collectedAt ∧ p.snapshot.metrics = snapshot.metrics

/-- One newer snapshot after the other, each the newest one when it was read. -/
structure InOrder (published : List (DashboardSnapshot μ)) (sub : Subscriber μ) : Prop where
  slot : sub.queue.Slot
  increasing : (sub.receipts.map (·.received.serial)).Pairwise (· < ·)
  notOlder : ∀ r ∈ sub.receipts, sub.joined ≤ r.received.serial + 1
  newest : ∀ r ∈ sub.receipts, r.received.serial + 1 = r.publications
  genuine : ∀ r ∈ sub.receipts, Genuine published r.received

/-- Besides, the queue holds nothing but the newest snapshot, and it has not been received; or the
end of the stream, where `stop` has put it. -/
structure Orderly (published : List (DashboardSnapshot μ)) (sub : Subscriber μ) : Prop
    extends InOrder published sub where
  joined_le : sub.joined ≤ published.length
  received_lt : ∀ r ∈ sub.receipts, r.received.serial < published.length
  offered : sub.dismissed = false → ∀ item ∈ sub.queue.items, sub.registered = true →
    ∃ p, item = some p ∧ p.serial + 1 = published.length ∧ Genuine published p ∧
      ∀ r ∈ sub.receipts, r.received.serial < p.serial
  ending : sub.dismissed = true → sub.registered = true → sub.queue.items = [none]
  left : sub.reader ≠ .done ↔ sub.registered = true

structure Inv (s : MetricsService μ) : Prop where
  newest : ∃ p, s.snapshot = some p ∧ p.serial + 1 = s.published.length ∧ Genuine s.published p
  orderly : ∀ sub ∈ s.subscribers, Orderly s.published sub
  dismissed : ∀ sub ∈ s.subscribers, sub.dismissed = true → s.task = .finished

section Streams

variable {published : List (DashboardSnapshot μ)} {sub : Subscriber μ} {s s' : MetricsService μ}

theorem Genuine.later {p : Published μ} (h : Genuine published p) (d : DashboardSnapshot μ) :
    Genuine (published ++ [d]) p := by
  obtain ⟨snapshot, hget, hsame⟩ := h
  obtain ⟨hlength, -⟩ := List.getElem?_eq_some_iff.mp hget
  exact ⟨snapshot, by rw [List.getElem?_append_left hlength, hget], hsame⟩

theorem Genuine.refreshed {p : Published μ} (h : Genuine published p) (now : ℤ) :
    Genuine published (p.refreshed now) := h

theorem genuine_last (d : DashboardSnapshot μ) :
    Genuine (published ++ [d]) ⟨published.length, d⟩ :=
  ⟨d, List.getElem?_concat_length, rfl, rfl⟩

theorem InOrder.later (h : InOrder published sub) (d : DashboardSnapshot μ) :
    InOrder (published ++ [d]) sub :=
  { h with genuine := fun r hr => (h.genuine r hr).later d }

/-! ### What a step does to a subscriber -/

def Subscriber.offered (sub : Subscriber μ) (item : Option (Published μ)) : Subscriber μ :=
  if sub.registered then { sub with queue := ⟨1, [item]⟩ } else sub

theorem offer_ok (h : sub.queue.Slot) (item : Option (Published μ)) :
    sub.offer item = .ok (sub.offered item) := by
  rw [Subscriber.offer, Subscriber.offered]
  split_ifs
  · rw [h.replace_ok]
    rfl
  · rfl

/-- A publication. -/
theorem Orderly.offered_newest (h : Orderly published sub) (hrunning : sub.dismissed = false)
    (d : DashboardSnapshot μ) :
    Orderly (published ++ [d]) (sub.offered (some ⟨published.length, d⟩)) := by
  have hlength : (published ++ [d]).length = published.length + 1 := List.length_append
  have hreceived : ∀ r ∈ sub.receipts, r.received.serial < (published ++ [d]).length := by
    intro r hr
    have hlt := h.received_lt r hr
    omega
  have hjoined : sub.joined ≤ (published ++ [d]).length := by
    have hle := h.joined_le
    omega
  rw [Subscriber.offered]
  split_ifs with hregistered
  · exact
      { h.toInOrder.later d with
        slot := ⟨rfl, Nat.le_refl 1⟩
        joined_le := hjoined
        received_lt := hreceived
        offered := by
          intro _ item hitem _
          exact ⟨_, List.mem_singleton.mp hitem, hlength.symm, genuine_last d, h.received_lt⟩
        ending := by
          intro hdismissed
          rw [show sub.dismissed = true from hdismissed] at hrunning
          cases hrunning
        left := h.left }
  · exact
      { h.toInOrder.later d with
        joined_le := hjoined
        received_lt := hreceived
        offered := fun _ _ _ hin => absurd hin hregistered
        ending := h.ending
        left := h.left }

/-- The end of the streams. -/
theorem Orderly.offered_none (h : Orderly published sub) (hrunning : sub.dismissed = false) :
    Orderly published { sub.offered none with dismissed := sub.dismissed || sub.registered } := by
  rw [Subscriber.offered]
  split_ifs with hregistered
  · exact
      { h with
        slot := ⟨rfl, Nat.le_refl 1⟩
        offered := by
          intro hno
          have hout : (sub.dismissed || sub.registered) = false := hno
          rw [hregistered, Bool.or_true] at hout
          cases hout
        ending := fun _ _ => rfl
        left := h.left }
  · have hout : (sub.dismissed || sub.registered) = sub.dismissed := by
      rw [Bool.eq_false_iff.mpr hregistered, Bool.or_false]
    rw [hout]
    exact h

theorem next_empty (h : sub.queue.items = []) (publications : ℕ) (now : ℤ) :
    sub.next publications now = { sub with reader := .waiting } := by
  rw [Subscriber.next, Queue.getNowait, h]

theorem next_end (h : sub.queue.items = [none]) (publications : ℕ) (now : ℤ) :
    sub.next publications now =
      { sub with
        queue := { sub.queue with items := [] }
        registered := false
        reader := .done } := by
  rw [Subscriber.next, Queue.getNowait, h]

theorem next_snapshot {p : Published μ} (h : sub.queue.items = [some p]) (publications : ℕ)
    (now : ℤ) :
    sub.next publications now =
      { sub with
        queue := { sub.queue with items := [] }
        reader := .paused
        receipts := sub.receipts ++ [⟨p.refreshed now, publications⟩] } := by
  rw [Subscriber.next, Queue.getNowait, h]

/-- A read. -/
theorem Orderly.next (h : Orderly published sub) (hreader : sub.reader ≠ .done) (now : ℤ) :
    Orderly published (sub.next published.length now) := by
  have hregistered := h.left.mp hreader
  obtain ⟨hsize, hitems⟩ := h.slot
  cases hqueue : sub.queue.items with
  | nil =>
    rw [next_empty hqueue]
    exact { h with left := iff_of_true nofun hregistered }
  | cons item items =>
    rw [hqueue, List.length_cons] at hitems
    have hlast : items = [] := List.eq_nil_of_length_eq_zero (by omega)
    subst hlast
    cases item with
    | none =>
      rw [next_end hqueue]
      exact
        { h with
          slot := ⟨hsize, Nat.zero_le 1⟩
          offered := fun _ _ hitem => absurd hitem List.not_mem_nil
          ending := nofun
          left := iff_of_false (fun hno => hno rfl) nofun }
    | some p =>
      have hrunning : sub.dismissed = false := by
        cases hdismissed : sub.dismissed with
        | false => rfl
        | true =>
          have hending := h.ending hdismissed hregistered
          rw [hqueue] at hending
          cases hending
      obtain ⟨p', hsame, hserial, hgenuine, hnew⟩ := h.offered hrunning (some p)
        (by rw [hqueue]; exact List.mem_cons_self) hregistered
      obtain rfl := Option.some.inj hsame
      have hjoined := h.joined_le
      rw [next_snapshot hqueue]
      refine
        { slot := ⟨hsize, Nat.zero_le 1⟩
          increasing := ?_
          notOlder := ?_
          newest := ?_
          genuine := ?_
          joined_le := h.joined_le
          received_lt := ?_
          offered := fun _ _ hitem => absurd hitem List.not_mem_nil
          ending := ?_
          left := iff_of_true nofun hregistered }
      · rw [List.map_append, List.pairwise_append]
        refine ⟨h.increasing, List.pairwise_singleton _ _, ?_⟩
        intro a ha b hb
        obtain ⟨r, hr, rfl⟩ := List.mem_map.mp ha
        rw [List.map_singleton, List.mem_singleton] at hb
        rw [hb]
        exact hnew r hr
      · intro r hr
        rcases List.mem_append.mp hr with hr | hr
        · exact h.notOlder r hr
        · rw [List.mem_singleton.mp hr, Published.refreshed_serial, hserial]
          exact hjoined
      · intro r hr
        rcases List.mem_append.mp hr with hr | hr
        · exact h.newest r hr
        · rw [List.mem_singleton.mp hr]
          exact hserial
      · intro r hr
        rcases List.mem_append.mp hr with hr | hr
        · exact h.genuine r hr
        · rw [List.mem_singleton.mp hr]
          exact hgenuine.refreshed now
      · intro r hr
        rcases List.mem_append.mp hr with hr | hr
        · exact h.received_lt r hr
        · rw [List.mem_singleton.mp hr, Published.refreshed_serial]
          omega
      · intro hdismissed
        rw [show sub.dismissed = true from hdismissed] at hrunning
        cases hrunning

/-- The end of a generator that is closed. -/
theorem Orderly.close (h : Orderly published sub) :
    Orderly published { sub with registered := false, reader := .done } :=
  { h with
    offered := nofun
    ending := nofun
    left := iff_of_false (fun hno => hno rfl) nofun }

theorem openStream_ok {p : Published μ} (hserial : p.serial + 1 = published.length)
    (hgenuine : Genuine published p) (now now' : ℤ) :
    ∃ sub, openStream p published.length now now' = .ok sub ∧ Orderly published sub ∧
      sub.dismissed = false := by
  have hreceipt : ∀ r ∈ [(⟨(p.refreshed now).refreshed now', published.length⟩ : Receipt μ)],
      r.received.serial + 1 = published.length ∧ r.publications = published.length ∧
        Genuine published r.received := by
    intro r hr
    rw [List.mem_singleton.mp hr]
    exact ⟨hserial, rfl, hgenuine⟩
  refine ⟨_, rfl, ?_, rfl⟩
  exact
    { slot := ⟨rfl, Nat.zero_le 1⟩
      increasing := List.pairwise_singleton _ _
      notOlder := fun r hr => Nat.le_of_eq (hreceipt r hr).1.symm
      newest := fun r hr => (hreceipt r hr).1.trans (hreceipt r hr).2.1.symm
      genuine := fun r hr => (hreceipt r hr).2.2
      joined_le := Nat.le_refl _
      received_lt := fun r hr => Nat.lt_of_succ_le (Nat.le_of_eq (hreceipt r hr).1)
      offered := fun _ _ hitem => absurd hitem List.not_mem_nil
      ending := nofun
      left := iff_of_true nofun rfl }

/-! ### What a step does to the service -/

theorem publish_ok (h : Inv s) (snapshot : DashboardSnapshot μ) :
    s.publish snapshot = .ok
      { s with
        snapshot := some ⟨s.published.length, snapshot⟩
        task := .sleeping
        subscribers := s.subscribers.map
          (·.offered (some ⟨s.published.length, snapshot⟩))
        published := s.published ++ [snapshot] } := by
  rw [MetricsService.publish, mapM_eq fun sub hsub => offer_ok (h.orderly sub hsub).slot _]
  rfl

theorem dismiss_ok (h : Inv s) :
    s.dismiss = .ok
      { s with
        task := .finished
        subscribers := (s.subscribers.map (·.offered none)).map fun sub =>
          { sub with dismissed := sub.dismissed || sub.registered } } := by
  rw [MetricsService.dismiss, mapM_eq fun sub hsub => offer_ok (h.orderly sub hsub).slot _]
  rfl

theorem offered_dismissed (sub : Subscriber μ) (item : Option (Published μ)) :
    (sub.offered item).dismissed = sub.dismissed ∧
      (sub.offered item).registered = sub.registered := by
  rw [Subscriber.offered]
  split_ifs <;> exact ⟨rfl, rfl⟩

theorem change_some {i : ℕ} {allowed : Subscriber μ → Bool}
    {change : Subscriber μ → Subscriber μ} {result : Except QueueError (MetricsService μ)}
    (h : s.change i allowed change = some result) :
    ∃ sub, s.subscribers[i]? = some sub ∧ allowed sub = true ∧
      result = .ok { s with subscribers := s.subscribers.set i (change sub) } := by
  rw [MetricsService.change] at h
  split at h
  · cases h
  · rename_i sub hsub
    split_ifs at h with hallowed
    exact ⟨sub, hsub, hallowed, (Option.some.inj h).symm⟩

/-- A change of one subscriber that keeps it orderly and knows nothing of `stop`. -/
theorem Inv.set {i : ℕ} {new : Subscriber μ} (h : Inv s) (hsub : s.subscribers[i]? = some sub)
    (hnew : Orderly s.published new) (hdismissed : new.dismissed = sub.dismissed) :
    Inv { s with subscribers := s.subscribers.set i new } where
  newest := h.newest
  orderly := by
    intro sub' hmem
    rcases List.mem_or_eq_of_mem_set hmem with hmem | rfl
    · exact h.orderly sub' hmem
    · exact hnew
  dismissed := by
    intro sub' hmem hout
    rcases List.mem_or_eq_of_mem_set hmem with hmem | rfl
    · exact h.dismissed sub' hmem hout
    · exact h.dismissed sub (List.mem_of_getElem? hsub) (hdismissed ▸ hout)

theorem next_dismissed (sub : Subscriber μ) (publications : ℕ) (now : ℤ) :
    (sub.next publications now).dismissed = sub.dismissed := by
  rw [Subscriber.next]
  split <;> rfl

/-- Nothing raises, and the invariant is kept. -/
theorem step_inv (h : Inv s) {event : Event μ} {result : Except QueueError (MetricsService μ)}
    (hstep : step s event = some result) : ∃ s', result = .ok s' ∧ Inv s' := by
  have hrunning (hbusy : s.task ≠ .finished) : ∀ sub ∈ s.subscribers, sub.dismissed = false := by
    intro sub hsub
    exact Bool.eq_false_iff.mpr fun hout => hbusy (h.dismissed sub hsub hout)
  cases event with
  | wakes =>
    rw [step] at hstep
    split_ifs at hstep with htask
    refine ⟨_, (Option.some.inj hstep).symm, h.newest, h.orderly, fun sub hsub hout => ?_⟩
    rw [hrunning (by rw [htask]; decide) sub hsub] at hout
    cases hout
  | collectFails =>
    rw [step] at hstep
    split_ifs at hstep with htask
    refine ⟨_, (Option.some.inj hstep).symm, h.newest, h.orderly, fun sub hsub hout => ?_⟩
    rw [hrunning (by rw [htask]; decide) sub hsub] at hout
    cases hout
  | stop =>
    rw [step] at hstep
    split_ifs at hstep with htask
    refine ⟨_, (Option.some.inj hstep).symm, h.newest, h.orderly, fun sub hsub hout => ?_⟩
    rw [hrunning (fun hno => htask (.inr hno)) sub hsub] at hout
    cases hout
  | collected snapshot =>
    rw [step] at hstep
    split_ifs at hstep with htask
    rw [publish_ok h] at hstep
    have hbusy := hrunning (by rw [htask]; decide)
    refine ⟨_, (Option.some.inj hstep).symm, ?_, ?_, ?_⟩
    · exact ⟨_, rfl, by rw [List.length_append, List.length_singleton], genuine_last snapshot⟩
    · intro sub hsub
      obtain ⟨old, hold, rfl⟩ := List.mem_map.mp hsub
      exact (h.orderly old hold).offered_newest (hbusy old hold) snapshot
    · intro sub hsub hout
      obtain ⟨old, hold, rfl⟩ := List.mem_map.mp hsub
      rw [(offered_dismissed old _).1, hbusy old hold] at hout
      cases hout
  | taskEnds =>
    rw [step] at hstep
    split_ifs at hstep with htask
    rw [dismiss_ok h] at hstep
    have hbusy := hrunning (by rw [htask]; decide)
    refine ⟨_, (Option.some.inj hstep).symm, h.newest, ?_, fun _ _ _ => rfl⟩
    intro sub hsub
    obtain ⟨middle, hmiddle, rfl⟩ := List.mem_map.mp hsub
    obtain ⟨old, hold, rfl⟩ := List.mem_map.mp hmiddle
    have hkept : ((old.offered none).dismissed || (old.offered none).registered) =
        (old.dismissed || old.registered) := by
      rw [(offered_dismissed old none).1, (offered_dismissed old none).2]
    rw [hkept]
    exact (h.orderly old hold).offered_none (hbusy old hold)
  | subscribe now now' =>
    obtain ⟨p, hp, hserial, hgenuine⟩ := h.newest
    obtain ⟨sub, hopen, horderly, hnew⟩ := openStream_ok hserial hgenuine now now'
    rw [step, hp, Option.map_some, hopen] at hstep
    refine ⟨_, (Option.some.inj hstep).symm, ⟨p, rfl, hserial, hgenuine⟩, ?_, ?_⟩
    · intro sub' hsub'
      rcases List.mem_append.mp hsub' with hsub' | hsub'
      · exact h.orderly sub' hsub'
      · exact List.mem_singleton.mp hsub' ▸ horderly
    · intro sub' hsub' hout
      rcases List.mem_append.mp hsub' with hsub' | hsub'
      · exact h.dismissed sub' hsub' hout
      · rw [List.mem_singleton.mp hsub', hnew] at hout
        cases hout
  | read i now =>
    obtain ⟨sub, hsub, hreader, rfl⟩ := change_some hstep
    have horderly := h.orderly sub (List.mem_of_getElem? hsub)
    have hopen : sub.reader ≠ .done := by
      rw [of_decide_eq_true hreader]
      decide
    exact ⟨_, rfl, h.set hsub (horderly.next hopen now) (next_dismissed sub _ now)⟩
  | resume i now =>
    obtain ⟨sub, hsub, hreader, rfl⟩ := change_some hstep
    have horderly := h.orderly sub (List.mem_of_getElem? hsub)
    have hopen : sub.reader ≠ .done := by
      rw [(of_decide_eq_true hreader).1]
      decide
    exact ⟨_, rfl, h.set hsub (horderly.next hopen now) (next_dismissed sub _ now)⟩
  | close i =>
    obtain ⟨sub, hsub, -, rfl⟩ := change_some hstep
    exact ⟨_, rfl, h.set hsub (h.orderly sub (List.mem_of_getElem? hsub)).close rfl⟩

theorem Inv.started (snapshot : DashboardSnapshot μ) : Inv (started snapshot) where
  newest := ⟨_, rfl, rfl, snapshot, rfl, rfl, rfl⟩
  orderly := fun _ hsub => absurd hsub List.not_mem_nil
  dismissed := fun _ hsub => absurd hsub List.not_mem_nil

theorem inv_reached {s₀ s : MetricsService μ} (h₀ : Inv s₀) (h : Reach Moves Anyhow s₀ s) :
    Inv s := by
  refine h.invariant h₀ fun s event s' hinv _ hstep => ?_
  obtain ⟨s'', hok, hinv'⟩ := step_inv hinv hstep
  rw [Except.ok.inj hok]
  exact hinv'

/-! ### Behind the end of a stream -/

/-- A subscriber that `stop` has met, and what it had received by then. -/
def Ended (i : ℕ) (receipts : List (Receipt μ)) (s : MetricsService μ) : Prop :=
  ∃ sub, s.subscribers[i]? = some sub ∧ sub.dismissed = true ∧ sub.receipts = receipts

theorem ended_set {i j : ℕ} {receipts : List (Receipt μ)} {new : Subscriber μ}
    (h : Ended i receipts s) (hsub : s.subscribers[j]? = some sub)
    (hdismissed : new.dismissed = sub.dismissed)
    (hreceipts : sub.dismissed = true → new.receipts = sub.receipts) :
    Ended i receipts { s with subscribers := s.subscribers.set j new } := by
  obtain ⟨sub', hsub', hout, hkept⟩ := h
  obtain ⟨hlength, -⟩ := List.getElem?_eq_some_iff.mp hsub
  by_cases hij : j = i
  · subst hij
    rw [hsub] at hsub'
    obtain rfl := Option.some.inj hsub'
    refine ⟨new, ?_, hdismissed.trans hout, (hreceipts hout).trans hkept⟩
    exact List.getElem?_set_self hlength
  · exact ⟨sub', by rw [List.getElem?_set_ne hij, hsub'], hout, hkept⟩

theorem next_receipts (h : Orderly published sub) (hreader : sub.reader ≠ .done)
    (hout : sub.dismissed = true) (publications : ℕ) (now : ℤ) :
    (sub.next publications now).receipts = sub.receipts := by
  rw [next_end (h.ending hout (h.left.mp hreader))]

theorem ended_step {i : ℕ} {receipts : List (Receipt μ)} (hinv : Inv s)
    (h : Ended i receipts s) {event : Event μ} (hstep : Moves s event s') :
    Ended i receipts s' := by
  obtain ⟨sub₀, hsub₀, hout, hkept⟩ := id h
  have htask := hinv.dismissed sub₀ (List.mem_of_getElem? hsub₀) hout
  have hno (task : CollectorTask) (hother : task ≠ .finished) : s.task ≠ task := by
    rw [htask]
    exact Ne.symm hother
  rw [Moves] at hstep
  cases event with
  | wakes =>
    rw [step, if_neg (hno _ (by decide))] at hstep
    cases hstep
  | collected snapshot =>
    rw [step, if_neg (hno _ (by decide))] at hstep
    cases hstep
  | collectFails =>
    rw [step, if_neg (hno _ (by decide))] at hstep
    cases hstep
  | stop =>
    rw [step, if_pos (.inr htask)] at hstep
    cases hstep
  | taskEnds =>
    rw [step, if_neg (hno _ (by decide))] at hstep
    cases hstep
  | subscribe now now' =>
    obtain ⟨p, hp, hserial, hgenuine⟩ := hinv.newest
    obtain ⟨new, hopen, -, -⟩ := openStream_ok hserial hgenuine now now'
    rw [step, hp, Option.map_some, hopen] at hstep
    obtain rfl := Except.ok.inj (Option.some.inj hstep)
    obtain ⟨hlength, -⟩ := List.getElem?_eq_some_iff.mp hsub₀
    exact ⟨sub₀, (List.getElem?_append_left hlength).trans hsub₀, hout, hkept⟩
  | read j now =>
    obtain ⟨sub, hsub, hreader, hok⟩ := change_some hstep
    obtain rfl := Except.ok.inj hok
    have hopen : sub.reader ≠ .done := by
      rw [of_decide_eq_true hreader]
      decide
    exact ended_set h hsub (next_dismissed sub _ now) fun hdismissed =>
      next_receipts (hinv.orderly sub (List.mem_of_getElem? hsub)) hopen hdismissed _ now
  | resume j now =>
    obtain ⟨sub, hsub, hreader, hok⟩ := change_some hstep
    obtain rfl := Except.ok.inj hok
    have hopen : sub.reader ≠ .done := by
      rw [(of_decide_eq_true hreader).1]
      decide
    exact ended_set h hsub (next_dismissed sub _ now) fun hdismissed =>
      next_receipts (hinv.orderly sub (List.mem_of_getElem? hsub)) hopen hdismissed _ now
  | close j =>
    obtain ⟨sub, hsub, -, hok⟩ := change_some hstep
    obtain rfl := Except.ok.inj hok
    exact ended_set h hsub rfl fun _ => rfl

theorem ended_reached {i : ℕ} {receipts : List (Receipt μ)} {s₀ : MetricsService μ}
    (h₀ : Inv s₀) (hended : Ended i receipts s₀) (h : Reach Moves Anyhow s₀ s) :
    Ended i receipts s := by
  have hboth := h.invariant (I := fun s => Inv s ∧ Ended i receipts s) ⟨h₀, hended⟩ <| by
    intro s event s' hinv _ hstep
    obtain ⟨s'', hok, hinv'⟩ := step_inv hinv.1 hstep
    obtain rfl := Except.ok.inj hok
    exact ⟨hinv', ended_step hinv.1 hinv.2 hstep⟩
  exact hboth.2

/-- The next time such a subscriber goes on, its stream ends. -/
theorem ended_read {i : ℕ} (hinv : Inv s) (hsub : s.subscribers[i]? = some sub)
    (hout : sub.dismissed = true) (hreader : sub.reader ≠ .done) (now : ℤ) :
    ∃ event, (event = .read i now ∨ event = .resume i now) ∧ ∃ s' sub', Moves s event s' ∧
      s'.subscribers[i]? = some sub' ∧ sub'.reader = .done ∧ sub'.receipts = sub.receipts := by
  have horderly := hinv.orderly sub (List.mem_of_getElem? hsub)
  have hitems := horderly.ending hout (horderly.left.mp hreader)
  obtain ⟨hlength, -⟩ := List.getElem?_eq_some_iff.mp hsub
  have hchange (allowed : Subscriber μ → Bool) (hallowed : allowed sub = true) :
      s.change i allowed (fun sub => sub.next s.published.length now) =
        some (.ok { s with
          subscribers := s.subscribers.set i (sub.next s.published.length now) }) := by
    rw [MetricsService.change, hsub]
    exact if_pos hallowed
  have hafter : (s.subscribers.set i (sub.next s.published.length now))[i]? =
      some (sub.next s.published.length now) := List.getElem?_set_self hlength
  have hdone : (sub.next s.published.length now).reader = .done := by
    rw [next_end hitems]
  have hkept := next_receipts horderly hreader hout s.published.length now
  cases hwhere : sub.reader with
  | paused =>
    exact ⟨.read i now, .inl rfl, _, _, hchange _ (decide_eq_true hwhere), hafter, hdone, hkept⟩
  | waiting =>
    have hwoken : sub.reader = .waiting ∧ sub.queue.items ≠ [] := by
      rw [hitems]
      exact ⟨hwhere, List.cons_ne_nil _ _⟩
    exact ⟨.resume i now, .inr rfl, _, _, hchange _ (decide_eq_true hwoken), hafter, hdone, hkept⟩
  | done => exact absurd hwhere hreader

end Streams

/-- **Subscribers see newer snapshots only**, whatever order the events come in, and none behind the
end of the stream. -/
theorem streams_in_order {snapshot : DashboardSnapshot μ} {s : MetricsService μ}
    (h : Reach Moves Anyhow (started snapshot) s) :
    (∀ event error, step s event ≠ some (.error error)) ∧
      (s.task = .collecting → ∀ next, ∃ s', Moves s (.collected next) s') ∧
      (s.task = .cancelled → ∃ s', Moves s .taskEnds s') ∧
      (∀ sub ∈ s.subscribers, InOrder s.published sub) ∧
      ∀ s' s'', Moves s .taskEnds s' → Reach Moves Anyhow s' s'' →
        ∀ i sub, s.subscribers[i]? = some sub → sub.registered = true →
          ∃ sub'', s''.subscribers[i]? = some sub'' ∧ sub''.receipts = sub.receipts ∧
            (sub''.reader ≠ .done → ∀ now, ∃ event, (event = .read i now ∨ event = .resume i now) ∧
              ∃ s₃ sub₃, Moves s'' event s₃ ∧ s₃.subscribers[i]? = some sub₃ ∧
                sub₃.reader = .done ∧ sub₃.receipts = sub.receipts) := by
  have hinv := inv_reached (Inv.started snapshot) h
  refine ⟨?_, ?_, ?_, fun sub hsub => (hinv.orderly sub hsub).toInOrder, ?_⟩
  · intro event error hstep
    obtain ⟨s', hok, -⟩ := step_inv hinv hstep
    cases hok
  · intro htask next
    exact ⟨_, by rw [Moves, step, if_pos htask, publish_ok hinv]⟩
  · intro htask
    exact ⟨_, by rw [Moves, step, if_pos htask, dismiss_ok hinv]⟩
  · intro s' s'' hstop hlater i sub hsub hregistered
    have hinv' : Inv s' := by
      obtain ⟨s'', hok, hinv''⟩ := step_inv hinv hstop
      rw [Except.ok.inj hok]
      exact hinv''
    -- `stop` has met the subscriber
    have hended : Ended i sub.receipts s' := by
      rw [Moves, step] at hstop
      split_ifs at hstop with htask
      rw [dismiss_ok hinv] at hstop
      obtain rfl := Except.ok.inj (Option.some.inj hstop)
      refine ⟨_, by rw [List.getElem?_map, List.getElem?_map, hsub]; rfl, ?_, ?_⟩
      · show ((sub.offered none).dismissed || (sub.offered none).registered) = true
        rw [(offered_dismissed sub none).2, hregistered, Bool.or_true]
      · show (sub.offered none).receipts = sub.receipts
        rw [Subscriber.offered, if_pos hregistered]
    have hinv'' := inv_reached hinv' hlater
    obtain ⟨sub'', hsub'', hout, hkept⟩ := ended_reached hinv' hended hlater
    refine ⟨sub'', hsub'', hkept, fun hreader now => ?_⟩
    obtain ⟨event, hevent, s₃, sub₃, hmove, hsub₃, hdone, hsame⟩ :=
      ended_read hinv'' hsub'' hout hreader now
    exact ⟨event, hevent, s₃, sub₃, hmove, hsub₃, hdone, hsame.trans hkept⟩

/-! ### A run -/

def advance (s : MetricsService μ) (event : Event μ) : Option (MetricsService μ) :=
  match step s event with
  | some (.ok s') => some s'
  | _ => none

theorem moves_of_advance (s : MetricsService μ) (event : Event μ) (s' : MetricsService μ)
    (h : advance s event = some s') : Moves s event s' := by
  unfold advance at h
  split at h
  · rename_i hstep
    rw [Moves, hstep, Option.some.inj h]
  · cases h

def emptySnapshot (collectedAt : ℤ) : DashboardSnapshot Unit := ⟨collectedAt, .live, ()⟩

/-- A slow subscriber misses a snapshot, waits for the next one and is met by `stop`. -/
def slowEvents : List (Event Unit) :=
  [.subscribe 1 2, .wakes, .collected (emptySnapshot 3), .wakes, .collected (emptySnapshot 5),
    .read 0 6, .read 0 7, .wakes, .collected (emptySnapshot 9), .stop]

def slowService : MetricsService Unit :=
  (slowEvents.foldlM advance (started (emptySnapshot 0))).getD (started (emptySnapshot 0))

theorem slowService_reached :
    Reach Moves Anyhow (started (emptySnapshot 0)) slowService :=
  Reach.of_foldlM moves_of_advance slowEvents (fun _ _ _ => trivial) rfl

theorem slowService_inOrder :
    (∃ sub, slowService.subscribers = [sub] ∧
        sub.receipts.map (·.received.serial) = [0, 2] ∧ sub.reader = .waiting ∧
        InOrder slowService.published sub) ∧
      ∃ s', Moves slowService .taskEnds s' :=
  ⟨⟨_, rfl, rfl, rfl, (streams_in_order slowService_reached).2.2.2.1 _ List.mem_cons_self⟩,
    (streams_in_order slowService_reached).2.2.1 rfl⟩

end MachineDeck.Dashboard

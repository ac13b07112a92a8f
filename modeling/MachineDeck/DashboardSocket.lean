import MachineDeck.MetricsService
import MachineDeck.WatchedStreams

/-!
# The dashboard's WebSocket

`_dashboard_stream`: a client of the metrics service, and of the session it was opened with.

* `DashboardSocket`, `DashboardSocket.step` — the service, and the handler of one WebSocket between
  two points where it waits;
* `DashboardSocket.Sound` — the handler against its subscriber;
* `dashboardStream` — the handler as a stream that looks for the end of the session;
* `dashboard_follows_session` — what a client gets, whatever order the events come in.
-/

namespace MachineDeck.Dashboard

open GuardedRuns
open Auth (authenticateWebsocket ClientStream Watched Watches WatchPresents Distinguishes Serves
  Presents Grant Uuid)

variable {μ : Type}

/-! ### The handler -/

/-- Who may open the WebSocket, or the code it is closed with. -/
def openDashboard (env : Auth.Environment) (w : Auth.World) (request : Auth.Request)
    (queryParams : List (String × String)) : Except ℕ Uuid := do
  let session ← authenticateWebsocket env w request
  if queryParams.isEmpty then return session else throw 4400

/-- `asking` has a task for `anext` that has not begun, `reading` one that waits; it is done in
`holding` and in `stopped`. What is `leaving` has yet to close its iterator. -/
inductive SocketPhase (μ : Type) where
  | asking | reading
  | holding (p : Published μ)
  | stopped
  | sending (p : Published μ)
  | leaving | gone

structure DashboardSocket (μ : Type) where
  service : MetricsService μ
  index : Option ℕ := none
  phase : SocketPhase μ := .asking
  sent : List (Published μ) := []
  closed : Option ℕ := none

/-- The subscriber whose iterator goes on. -/
def Event.reader : Event μ → Option ℕ
  | .read i _ | .resume i _ | .close i => some i
  | _ => none

inductive SocketLabel (μ : Type) where
  /-- The service and its other subscribers. -/
  | others (event : Event μ)
  /-- The task begins, or an item ends its wait. -/
  | ask (now now' : ℤ)
  | wake (now : ℤ)
  /-- `asyncio.wait` returns, and the session goes on. -/
  | look
  | deliver
  | hangUp
  | leave

/-- What a subscriber's task has come to. -/
def Subscriber.outcome (sub : Subscriber μ) : SocketPhase μ :=
  match sub.reader, sub.receipts.getLast? with
  | .paused, some receipt => .holding receipt.received
  | .paused, none => .asking
  | .waiting, _ => .reading
  | .done, _ => .stopped

/-- The task goes on to its next wait. -/
def DashboardSocket.goOn (s : DashboardSocket μ) (i : ℕ) (event : Event μ) :
    Option (DashboardSocket μ) := do
  let service ← advance s.service event
  let sub ← service.subscribers[i]?
  return { s with service := service, index := some i, phase := sub.outcome }

def DashboardSocket.step (s : DashboardSocket μ) : SocketLabel μ → Option (DashboardSocket μ)
  | .others event =>
    if event.reader.isSome ∧ event.reader = s.index then none
    else (advance s.service event).map fun service => { s with service }
  | .ask now now' =>
    match s.phase, s.index with
    | .asking, none => s.goOn s.service.subscribers.length (.subscribe now now')
    | .asking, some i => s.goOn i (.read i now)
    | _, _ => none
  | .wake now =>
    match s.phase, s.index with
    | .reading, some i => s.goOn i (.resume i now)
    | _, _ => none
  | .look =>
    match s.phase with
    | .holding p => some { s with phase := .sending p }
    | .stopped => some { s with phase := .gone, closed := some 1012 }
    | _ => none
  | .deliver =>
    match s.phase with
    | .sending p => some { s with phase := .asking, sent := s.sent ++ [p] }
    | _ => none
  | .hangUp =>
    match s.phase with
    | .sending _ => some { s with phase := .leaving }
    | _ => none
  | .leave =>
    match s.phase, s.index with
    | .leaving, some i =>
      (advance s.service (.close i)).map fun service => { s with service, phase := .gone }
    | _, _ => none

/-- `asyncio.wait` returns, and the session is over: the task is cancelled. -/
def DashboardSocket.expire (s : DashboardSocket μ) : Option (DashboardSocket μ) :=
  match s.phase, s.index with
  | .reading, some i =>
    (advance s.service (.close i)).map fun service => { s with service, phase := .gone }
  | .holding _, _ => some { s with phase := .leaving }
  | .stopped, _ => some { s with phase := .gone }
  | _, _ => none

/-! ### The handler as a stream -/

def SocketLabel.looks : SocketLabel μ → Bool
  | .look => true
  | _ => false

def SocketPhase.committed : SocketPhase μ → List (Published μ)
  | .sending p => [p]
  | _ => []

section

variable {s s' : DashboardSocket μ} {i : ℕ} {event : Event μ} {label : SocketLabel μ}

theorem goOn_some (h : s.goOn i event = some s') :
    ∃ service sub, Moves s.service event service ∧ service.subscribers[i]? = some sub ∧
      s' = { s with service := service, index := some i, phase := sub.outcome } := by
  obtain ⟨service, hservice, h⟩ := Option.bind_eq_some_iff.mp h
  obtain ⟨sub, hsub, h⟩ := Option.bind_eq_some_iff.mp h
  exact ⟨service, sub, moves_of_advance _ _ _ hservice, hsub, (Option.some.inj h).symm⟩

theorem outcome_committed (sub : Subscriber μ) : sub.outcome.committed = [] := by
  unfold Subscriber.outcome
  split <;> rfl

/-- What a step of the handler does: a move of the service with the phase behind it, or a change of
the phase alone. -/
theorem socket_cases (h : s.step label = some s') :
    (∃ event service, label = .others event ∧ (event.reader.isSome → event.reader ≠ s.index) ∧
      Moves s.service event service ∧ s' = { s with service }) ∨
    (∃ i event service sub, label.looks = false ∧
      ((s.index = none ∧ s.phase = .asking ∧ i = s.service.subscribers.length ∧
          ∃ now now', event = .subscribe now now') ∨
        (s.index = some i ∧ ((s.phase = .asking ∧ ∃ now, event = .read i now) ∨
          (s.phase = .reading ∧ ∃ now, event = .resume i now)))) ∧
      Moves s.service event service ∧ service.subscribers[i]? = some sub ∧
      s' = { s with service := service, index := some i, phase := sub.outcome }) ∨
    (∃ p, label = .look ∧ s.phase = .holding p ∧ s' = { s with phase := .sending p }) ∨
    (label = .look ∧ s.phase = .stopped ∧ s' = { s with phase := .gone, closed := some 1012 }) ∨
    (∃ p, label = .deliver ∧ s.phase = .sending p ∧
      s' = { s with phase := .asking, sent := s.sent ++ [p] }) ∨
    (∃ p, label = .hangUp ∧ s.phase = .sending p ∧ s' = { s with phase := .leaving }) ∨
    (∃ i service, label = .leave ∧ s.index = some i ∧ s.phase = .leaving ∧
      Moves s.service (.close i) service ∧ s' = { s with service, phase := .gone }) := by
  cases label with
  | others event =>
    simp only [DashboardSocket.step] at h
    split_ifs at h with hown
    obtain ⟨service, hservice, rfl⟩ := Option.map_eq_some_iff.mp h
    exact .inl ⟨event, service, rfl, fun hsome hsame => hown ⟨hsome, hsame⟩,
      moves_of_advance _ _ _ hservice, rfl⟩
  | ask now now' =>
    simp only [DashboardSocket.step] at h
    split at h
    · rename_i hphase hindex
      obtain ⟨service, sub, hmoves, hsub, rfl⟩ := goOn_some h
      exact .inr (.inl ⟨_, _, service, sub, rfl,
        .inl ⟨hindex, hphase, rfl, now, now', rfl⟩, hmoves, hsub, rfl⟩)
    · rename_i i hphase hindex
      obtain ⟨service, sub, hmoves, hsub, rfl⟩ := goOn_some h
      exact .inr (.inl ⟨i, _, service, sub, rfl, .inr ⟨hindex, .inl ⟨hphase, now, rfl⟩⟩, hmoves,
        hsub, rfl⟩)
    · cases h
  | wake now =>
    simp only [DashboardSocket.step] at h
    split at h
    · rename_i i hphase hindex
      obtain ⟨service, sub, hmoves, hsub, rfl⟩ := goOn_some h
      exact .inr (.inl ⟨i, _, service, sub, rfl, .inr ⟨hindex, .inr ⟨hphase, now, rfl⟩⟩, hmoves,
        hsub, rfl⟩)
    · cases h
  | look =>
    simp only [DashboardSocket.step] at h
    split at h
    · rename_i p hphase
      exact .inr (.inr (.inl ⟨p, rfl, hphase, (Option.some.inj h).symm⟩))
    · rename_i hphase
      exact .inr (.inr (.inr (.inl ⟨rfl, hphase, (Option.some.inj h).symm⟩)))
    · cases h
  | deliver =>
    simp only [DashboardSocket.step] at h
    split at h
    · rename_i p hphase
      exact .inr (.inr (.inr (.inr (.inl ⟨p, rfl, hphase, (Option.some.inj h).symm⟩))))
    · cases h
  | hangUp =>
    simp only [DashboardSocket.step] at h
    split at h
    · rename_i p hphase
      exact .inr (.inr (.inr (.inr (.inr (.inl ⟨p, rfl, hphase, (Option.some.inj h).symm⟩)))))
    · cases h
  | leave =>
    simp only [DashboardSocket.step] at h
    split at h
    · rename_i i hphase hindex
      obtain ⟨service, hservice, rfl⟩ := Option.map_eq_some_iff.mp h
      exact .inr (.inr (.inr (.inr (.inr (.inr ⟨i, service, rfl, hindex, hphase,
        moves_of_advance _ _ _ hservice, rfl⟩)))))
    · cases h

/-- The end of the session meets a read under way, or a task that is done. -/
theorem expire_cases (h : s.expire = some s') :
    (∃ i service, s.index = some i ∧ s.phase = .reading ∧ Moves s.service (.close i) service ∧
      s' = { s with service, phase := .gone }) ∨
    (∃ p, s.phase = .holding p ∧ s' = { s with phase := .leaving }) ∨
    (s.phase = .stopped ∧ s' = { s with phase := .gone }) := by
  unfold DashboardSocket.expire at h
  split at h
  · rename_i i hphase hindex
    obtain ⟨service, hservice, rfl⟩ := Option.map_eq_some_iff.mp h
    exact .inl ⟨i, service, hindex, hphase, moves_of_advance _ _ _ hservice, rfl⟩
  · rename_i p hphase
    exact .inr (.inl ⟨p, hphase, (Option.some.inj h).symm⟩)
  · rename_i hphase
    exact .inr (.inr ⟨hphase, (Option.some.inj h).symm⟩)
  · cases h

theorem socket_settled (h : s.step label = some s') (hlooks : label.looks = false) :
    s'.sent ++ s'.phase.committed <+: s.sent ++ s.phase.committed := by
  rcases socket_cases h with ⟨_, service, -, -, -, rfl⟩ | ⟨_, _, _, sub, -, -, -, -, rfl⟩ |
    ⟨_, rfl, -, -⟩ | ⟨rfl, -, -⟩ | ⟨p, -, hphase, rfl⟩ | ⟨_, -, -, rfl⟩ | ⟨_, _, -, -, -, -, rfl⟩
  · exact List.prefix_refl _
  · show s.sent ++ sub.outcome.committed <+: _
    rw [outcome_committed, List.append_nil]
    exact List.prefix_append _ _
  · cases hlooks
  · cases hlooks
  · rw [hphase]
    show s.sent ++ [p] ++ [] <+: s.sent ++ [p]
    exact ⟨[], by rw [List.append_nil, List.append_nil]⟩
  · show s.sent ++ [] <+: _
    rw [List.append_nil]
    exact List.prefix_append _ _
  · show s.sent ++ [] <+: _
    rw [List.append_nil]
    exact List.prefix_append _ _

theorem look_expire (h : s.step label = some s') (hlooks : label.looks = true) :
    s.expire.isSome = true := by
  rcases socket_cases h with ⟨_, _, rfl, -⟩ | ⟨_, _, _, _, hno, -⟩ | ⟨p, -, hphase, -⟩ |
    ⟨-, hphase, -⟩ | ⟨_, rfl, -⟩ | ⟨_, rfl, -⟩ | ⟨_, _, rfl, -⟩
  · cases hlooks
  · rw [hlooks] at hno
    cases hno
  · simp [DashboardSocket.expire, hphase]
  · simp [DashboardSocket.expire, hphase]
  · cases hlooks
  · cases hlooks
  · cases hlooks

theorem socket_closing (h : s.expire = some s') : s'.sent ++ s'.phase.committed = s.sent := by
  rcases expire_cases h with ⟨_, _, -, -, -, rfl⟩ | ⟨_, -, rfl⟩ | ⟨-, rfl⟩
  · exact List.append_nil _
  · exact List.append_nil _
  · exact List.append_nil _

end

/-- `_dashboard_stream` as a stream. -/
def dashboardStream (μ : Type) :
    ClientStream (DashboardSocket μ) (SocketLabel μ) (Published μ) where
  step := DashboardSocket.step
  looks := SocketLabel.looks
  close := DashboardSocket.expire
  sent := DashboardSocket.sent
  committed := fun s => s.phase.committed
  settled := socket_settled
  stops := look_expire
  closing := socket_closing

/-! ### Other subscribers -/

section

variable {s s' : MetricsService μ} {sub : Subscriber μ} {i : ℕ} {event : Event μ}

/-- What is left of a subscriber when its iterator has not gone on. -/
structure Subscriber.Kept (sub sub' : Subscriber μ) : Prop where
  reader : sub'.reader = sub.reader
  receipts : sub'.receipts = sub.receipts
  dismissed : sub.dismissed = true → sub'.dismissed = true

theorem Subscriber.Kept.refl (sub : Subscriber μ) : sub.Kept sub := ⟨rfl, rfl, id⟩

theorem Subscriber.Kept.offered (sub : Subscriber μ) (item : Option (Published μ)) :
    sub.Kept (sub.offered item) := by
  rw [Subscriber.offered]
  split_ifs
  · exact ⟨rfl, rfl, id⟩
  · exact Kept.refl sub

/-- A change of another subscriber. -/
theorem change_kept {j : ℕ} {allowed : Subscriber μ → Bool} {change : Subscriber μ → Subscriber μ}
    (h : s.change j allowed change = some (.ok s')) (hsub : s.subscribers[i]? = some sub)
    (hother : j ≠ i) : s'.subscribers[i]? = some sub := by
  obtain ⟨_, -, -, hok⟩ := change_some h
  obtain rfl := Except.ok.inj hok
  rw [← hsub]
  exact List.getElem?_set_ne hother

theorem others_kept (hinv : Inv s) (h : Moves s event s') (hsub : s.subscribers[i]? = some sub)
    (hother : event.reader ≠ some i) :
    ∃ sub', s'.subscribers[i]? = some sub' ∧ sub.Kept sub' := by
  rw [Moves] at h
  cases event with
  | wakes =>
    rw [step] at h
    split_ifs at h
    cases h
    exact ⟨sub, hsub, .refl sub⟩
  | collectFails =>
    rw [step] at h
    split_ifs at h
    cases h
    exact ⟨sub, hsub, .refl sub⟩
  | stop =>
    rw [step] at h
    split_ifs at h
    cases h
    exact ⟨sub, hsub, .refl sub⟩
  | collected snapshot =>
    rw [step] at h
    split_ifs at h
    rw [publish_ok hinv] at h
    cases h
    exact ⟨_, by rw [List.getElem?_map, hsub]; rfl, .offered sub _⟩
  | taskEnds =>
    rw [step] at h
    split_ifs at h
    rw [dismiss_ok hinv] at h
    cases h
    have hkept := Subscriber.Kept.offered sub none
    refine ⟨{ sub.offered none with
      dismissed := (sub.offered none).dismissed || (sub.offered none).registered },
      by rw [List.getElem?_map, List.getElem?_map, hsub]; rfl, hkept.1, hkept.2, ?_⟩
    intro hdismissed
    show ((sub.offered none).dismissed || (sub.offered none).registered) = true
    rw [hkept.3 hdismissed]
    rfl
  | subscribe now now' =>
    obtain ⟨p, hp, hserial, hgenuine⟩ := hinv.newest
    obtain ⟨new, hopen, -, -⟩ := openStream_ok hserial hgenuine now now'
    rw [step, hp, Option.map_some, hopen] at h
    cases h
    obtain ⟨hlength, -⟩ := List.getElem?_eq_some_iff.mp hsub
    exact ⟨sub, (List.getElem?_append_left hlength).trans hsub, .refl sub⟩
  | read j now => exact ⟨sub, change_kept h hsub (fun hj => hother (congrArg some hj)), .refl sub⟩
  | resume j now => exact ⟨sub, change_kept h hsub (fun hj => hother (congrArg some hj)), .refl sub⟩
  | close j => exact ⟨sub, change_kept h hsub (fun hj => hother (congrArg some hj)), .refl sub⟩

/-- A service that has stopped stays so. -/
theorem finished_kept (hinv : Inv s) (h : Moves s event s') (htask : s.task = .finished) :
    s'.task = .finished := by
  have hno (task : CollectorTask) (hother : task ≠ .finished) : s.task ≠ task := by
    rw [htask]
    exact Ne.symm hother
  rw [Moves] at h
  cases event with
  | wakes =>
    rw [step, if_neg (hno _ (by decide))] at h
    cases h
  | collected snapshot =>
    rw [step, if_neg (hno _ (by decide))] at h
    cases h
  | collectFails =>
    rw [step, if_neg (hno _ (by decide))] at h
    cases h
  | stop =>
    rw [step, if_pos (.inr htask)] at h
    cases h
  | taskEnds =>
    rw [step, if_neg (hno _ (by decide))] at h
    cases h
  | subscribe now now' =>
    obtain ⟨p, hp, hserial, hgenuine⟩ := hinv.newest
    obtain ⟨new, hopen, -, -⟩ := openStream_ok hserial hgenuine now now'
    rw [step, hp, Option.map_some, hopen] at h
    cases h
    exact htask
  | read j now =>
    obtain ⟨_, -, -, hok⟩ := change_some h
    obtain rfl := Except.ok.inj hok
    exact htask
  | resume j now =>
    obtain ⟨_, -, -, hok⟩ := change_some h
    obtain rfl := Except.ok.inj hok
    exact htask
  | close j =>
    obtain ⟨_, -, -, hok⟩ := change_some h
    obtain rfl := Except.ok.inj hok
    exact htask

end

/-! ### The handler and its subscriber -/

/-- What the subscriber has received and the handler has not sent. -/
def SocketPhase.Meets (sub : Subscriber μ) (rest : List (Published μ)) : SocketPhase μ → Prop
  | .asking => sub.reader = .paused ∧ rest = []
  | .reading => sub.reader = .waiting ∧ rest = []
  | .holding p | .sending p => sub.reader = .paused ∧ rest = [p]
  | .stopped => sub.reader = .done ∧ sub.dismissed = true ∧ rest = []
  | .leaving => sub.reader = .paused ∧ rest.length = 1
  | .gone => sub.reader = .done ∧ rest.length ≤ 1

structure DashboardSocket.Sound (s : DashboardSocket μ) : Prop where
  service : Inv s.service
  unread : s.index = none → s.phase = .asking ∧ s.sent = []
  own : ∀ i, s.index = some i → ∃ sub rest, s.service.subscribers[i]? = some sub ∧
    sub.receipts.map (·.received) = s.sent ++ rest ∧ s.phase.Meets sub rest
  closed : ∀ code, s.closed = some code →
    code = 1012 ∧ s.phase = .gone ∧ s.service.task = .finished

section

variable {published : List (DashboardSnapshot μ)} {sub sub' : Subscriber μ}
  {s s' : DashboardSocket μ} {event : Event μ} {label : SocketLabel μ}

theorem SocketPhase.Meets.length {phase : SocketPhase μ} {rest : List (Published μ)}
    (h : phase.Meets sub rest) : rest.length ≤ 1 := by
  cases phase with
  | asking => simp [h.2]
  | reading => simp [h.2]
  | holding p => simp [h.2]
  | stopped => simp [h.2.2]
  | sending p => simp [h.2]
  | leaving => exact Nat.le_of_eq h.2
  | gone => exact h.2

theorem SocketPhase.Meets.kept {phase : SocketPhase μ} {rest : List (Published μ)}
    (h : phase.Meets sub rest) (hkept : sub.Kept sub') : phase.Meets sub' rest := by
  have hreader := hkept.reader
  cases phase with
  | asking => exact ⟨hreader.trans h.1, h.2⟩
  | reading => exact ⟨hreader.trans h.1, h.2⟩
  | holding p => exact ⟨hreader.trans h.1, h.2⟩
  | stopped => exact ⟨hreader.trans h.1, hkept.dismissed h.2.1, h.2.2⟩
  | sending p => exact ⟨hreader.trans h.1, h.2⟩
  | leaving => exact ⟨hreader.trans h.1, h.2⟩
  | gone => exact ⟨hreader.trans h.1, h.2⟩

/-- A subscriber goes on: it waits, or it has a snapshot, or `stop` has met it. -/
theorem next_meets (h : Orderly published sub) (hreader : sub.reader ≠ .done) (now : ℤ) :
    ∃ rest, (sub.next published.length now).receipts.map (·.received) =
        sub.receipts.map (·.received) ++ rest ∧
      (sub.next published.length now).outcome.Meets (sub.next published.length now) rest := by
  have hregistered := h.left.mp hreader
  obtain ⟨hsize, hitems⟩ := h.slot
  cases hqueue : sub.queue.items with
  | nil =>
    rw [next_empty hqueue]
    exact ⟨[], (List.append_nil _).symm, rfl, rfl⟩
  | cons item items =>
    rw [hqueue, List.length_cons] at hitems
    have hlast : items = [] := List.eq_nil_of_length_eq_zero (by omega)
    subst hlast
    cases item with
    | none =>
      have hdismissed : sub.dismissed = true := by
        by_contra hno
        obtain ⟨p, hp, -⟩ := h.offered (Bool.eq_false_iff.mpr hno) none
          (by rw [hqueue]; exact List.mem_cons_self) hregistered
        cases hp
      rw [next_end hqueue]
      exact ⟨[], (List.append_nil _).symm, rfl, hdismissed, rfl⟩
    | some p =>
      rw [next_snapshot hqueue]
      refine ⟨[p.refreshed now], by rw [List.map_append]; rfl, ?_⟩
      simp only [Subscriber.outcome, List.getLast?_concat]
      exact ⟨rfl, rfl⟩

theorem Orderly.of_getElem? {service : MetricsService μ} (hinv : Inv service) {i : ℕ}
    (hsub : service.subscribers[i]? = some sub) : Orderly service.published sub :=
  hinv.orderly sub (List.mem_of_getElem? hsub)

/-- A read goes on with the subscriber's next item. -/
theorem change_next {service service' : MetricsService μ} {i : ℕ}
    {allowed : Subscriber μ → Bool} {now : ℤ} (hsub : service.subscribers[i]? = some sub)
    (hchange : service.change i allowed (·.next service.published.length now) =
      some (.ok service')) :
    service'.subscribers[i]? = some (sub.next service.published.length now) := by
  obtain ⟨_, hsame, -, hok⟩ := change_some hchange
  obtain rfl := Option.some.inj (hsub.symm.trans hsame)
  obtain rfl := Except.ok.inj hok
  obtain ⟨hlength, -⟩ := List.getElem?_eq_some_iff.mp hsub
  exact List.getElem?_set_self hlength

theorem DashboardSocket.Sound.moved (h : s.Sound) {service : MetricsService μ}
    (hmoves : Moves s.service event service) :
    Inv service ∧ ∀ code, s.closed = some code → service.task = .finished := by
  obtain ⟨_, hok, hinv⟩ := step_inv h.service hmoves
  obtain rfl := Except.ok.inj hok
  exact ⟨hinv, fun code hcode => finished_kept h.service hmoves (h.closed code hcode).2.2⟩

/-- The service is as before, and the handler goes on. -/
theorem DashboardSocket.Sound.rephase (h : s.Sound) {phase : SocketPhase μ}
    {sent : List (Published μ)} (hasking : s.phase ≠ .asking) (hgone : s.phase ≠ .gone)
    (hmeets : ∀ sub rest, s.phase.Meets sub rest →
      ∃ rest', s.sent ++ rest = sent ++ rest' ∧ phase.Meets sub rest') :
    ({ s with phase, sent } : DashboardSocket μ).Sound := by
  refine ⟨h.service, fun hindex => absurd (h.unread hindex).1 hasking, fun i hi => ?_,
    fun code hcode => absurd (h.closed code hcode).2.1 hgone⟩
  obtain ⟨sub, rest, hsub, hreceipts, hold⟩ := h.own i hi
  obtain ⟨rest', hsame, hnew⟩ := hmeets sub rest hold
  exact ⟨sub, rest', hsub, hreceipts.trans hsame, hnew⟩

theorem DashboardSocket.Sound.stopped (h : s.Sound) (hphase : s.phase = .stopped) :
    ({ s with phase := .gone } : DashboardSocket μ).Sound := by
  refine h.rephase (by rw [hphase]; intro hno; cases hno) (by rw [hphase]; intro hno; cases hno)
    fun sub rest hmeets => ?_
  rw [hphase] at hmeets
  exact ⟨rest, rfl, hmeets.1, by rw [hmeets.2.2]; exact Nat.zero_le 1⟩

/-- The iterator is closed, or its read is cancelled. -/
theorem DashboardSocket.Sound.closing (h : s.Sound) {i : ℕ} (hindex : s.index = some i)
    (hgone : s.phase ≠ .gone) {service : MetricsService μ}
    (hmoves : Moves s.service (.close i) service) :
    ({ s with service, phase := .gone } : DashboardSocket μ).Sound := by
  refine ⟨(h.moved hmoves).1, fun hno => ?_, fun j hj => ?_, fun code hcode =>
    absurd (h.closed code hcode).2.1 hgone⟩
  · rw [show s.index = none from hno] at hindex
    cases hindex
  · obtain rfl := Option.some.inj (hindex.symm.trans hj)
    obtain ⟨sub, rest, hsub, hreceipts, hmeets⟩ := h.own i hindex
    obtain ⟨_, hsame, -, hok⟩ := change_some hmoves
    obtain rfl := Option.some.inj (hsub.symm.trans hsame)
    obtain rfl := Except.ok.inj hok
    obtain ⟨hlength, -⟩ := List.getElem?_eq_some_iff.mp hsub
    exact ⟨_, rest, List.getElem?_set_self hlength, hreceipts, rfl, hmeets.length⟩

theorem DashboardSocket.Sound.step (h : s.Sound) (hstep : s.step label = some s') : s'.Sound := by
  rcases socket_cases hstep with ⟨event, service, -, hother, hmoves, rfl⟩ |
    ⟨i, event, service, sub, -, hgoes, hmoves, hsub, rfl⟩ | ⟨p, -, hphase, rfl⟩ |
    ⟨-, hphase, rfl⟩ | ⟨p, -, hphase, rfl⟩ | ⟨p, -, hphase, rfl⟩ |
    ⟨i, service, -, hindex, hphase, hmoves, rfl⟩
  · refine ⟨(h.moved hmoves).1, h.unread, fun i hi => ?_, fun code hcode =>
      ⟨(h.closed code hcode).1, (h.closed code hcode).2.1, (h.moved hmoves).2 code hcode⟩⟩
    obtain ⟨sub, rest, hsub, hreceipts, hmeets⟩ := h.own i hi
    have hread : event.reader ≠ some i := by
      intro hsame
      refine hother (by rw [hsame]; rfl) ?_
      rw [hsame, hi]
    obtain ⟨sub', hsub', hkept⟩ := others_kept h.service hmoves hsub hread
    exact ⟨sub', rest, hsub', by rw [hkept.receipts, hreceipts], hmeets.kept hkept⟩
  · refine ⟨(h.moved hmoves).1, (fun hno => by cases hno), fun j hj => ?_, fun code hcode => ?_⟩
    · obtain rfl : i = j := Option.some.inj hj
      rcases hgoes with ⟨hindex, hphase, rfl, now, now', rfl⟩ | ⟨hindex, hread⟩
      · -- the first read opens the iterator
        obtain ⟨p, hp, -⟩ := h.service.newest
        rw [Moves, Dashboard.step, hp, Option.map_some] at hmoves
        obtain rfl := Except.ok.inj (Option.some.inj hmoves)
        rw [List.getElem?_concat_length] at hsub
        obtain rfl := Option.some.inj hsub
        exact ⟨_, [(p.refreshed now).refreshed now'], List.getElem?_concat_length,
          by rw [(h.unread hindex).2]; rfl, rfl, rfl⟩
      · obtain ⟨sub₀, rest, hsub₀, hreceipts, hmeets⟩ := h.own i hindex
        have horderly := Orderly.of_getElem? h.service hsub₀
        have hnext : ∃ now, sub = sub₀.next s.service.published.length now ∧
            sub₀.reader ≠ .done ∧ rest = [] := by
          rcases hread with ⟨hphase, now, rfl⟩ | ⟨hphase, now, rfl⟩
          · rw [hphase] at hmeets
            refine ⟨now, ?_, by rw [hmeets.1]; decide, hmeets.2⟩
            exact Option.some.inj (hsub.symm.trans (change_next hsub₀ hmoves))
          · rw [hphase] at hmeets
            refine ⟨now, ?_, by rw [hmeets.1]; decide, hmeets.2⟩
            exact Option.some.inj (hsub.symm.trans (change_next hsub₀ hmoves))
        obtain ⟨now, rfl, hreader, rfl⟩ := hnext
        obtain ⟨rest, hrest, hmeets'⟩ := next_meets horderly hreader now
        rw [hreceipts, List.append_nil] at hrest
        exact ⟨_, rest, hsub, hrest, hmeets'⟩
    · have hgone := (h.closed code hcode).2.1
      rcases hgoes with ⟨-, hphase, -⟩ | ⟨-, ⟨hphase, -⟩ | ⟨hphase, -⟩⟩ <;>
      · rw [hgone] at hphase
        cases hphase
  · refine h.rephase (by rw [hphase]; intro hno; cases hno) (by rw [hphase]; intro hno; cases hno)
      fun sub rest hmeets => ?_
    rw [hphase] at hmeets
    exact ⟨rest, rfl, hmeets⟩
  · have hgone : ({ s with phase := .gone } : DashboardSocket μ).Sound := h.stopped hphase
    refine ⟨hgone.service, hgone.unread, hgone.own, fun code hcode =>
      ⟨(Option.some.inj hcode).symm, rfl, ?_⟩⟩
    cases hindex : s.index with
    | none =>
      rw [(h.unread hindex).1] at hphase
      cases hphase
    | some i =>
      obtain ⟨sub, rest, hsub, -, hmeets⟩ := h.own i hindex
      rw [hphase] at hmeets
      exact h.service.dismissed sub (List.mem_of_getElem? hsub) hmeets.2.1
  · refine h.rephase (by rw [hphase]; intro hno; cases hno) (by rw [hphase]; intro hno; cases hno)
      fun sub rest hmeets => ?_
    rw [hphase] at hmeets
    exact ⟨[], by rw [hmeets.2, List.append_nil], hmeets.1, rfl⟩
  · refine h.rephase (by rw [hphase]; intro hno; cases hno) (by rw [hphase]; intro hno; cases hno)
      fun sub rest hmeets => ?_
    rw [hphase] at hmeets
    exact ⟨rest, rfl, hmeets.1, by rw [hmeets.2]; rfl⟩
  · exact h.closing hindex (by rw [hphase]; intro hno; cases hno) hmoves

theorem DashboardSocket.Sound.expire (h : s.Sound) (hstep : s.expire = some s') : s'.Sound := by
  rcases expire_cases hstep with ⟨i, service, hindex, hphase, hmoves, rfl⟩ | ⟨p, hphase, rfl⟩ |
    ⟨hphase, rfl⟩
  · exact h.closing hindex (by rw [hphase]; intro hno; cases hno) hmoves
  · refine h.rephase (by rw [hphase]; intro hno; cases hno) (by rw [hphase]; intro hno; cases hno)
      fun sub rest hmeets => ?_
    rw [hphase] at hmeets
    exact ⟨rest, rfl, hmeets.1, by rw [hmeets.2]; rfl⟩
  · exact h.stopped hphase

/-- The place of the subscriber is kept, and the service moves. -/
theorem socket_moves (hstep : s.step label = some s') :
    Reach Moves Anyhow s.service s'.service ∧ ∀ i, s.index = some i → s'.index = some i := by
  rcases socket_cases hstep with ⟨event, service, -, -, hmoves, rfl⟩ |
    ⟨i, event, service, sub, -, hgoes, hmoves, -, rfl⟩ | ⟨p, -, -, rfl⟩ | ⟨-, -, rfl⟩ |
    ⟨p, -, -, rfl⟩ | ⟨p, -, -, rfl⟩ | ⟨i, service, -, -, -, hmoves, rfl⟩
  · exact ⟨.next .start trivial hmoves, fun _ hi => hi⟩
  · refine ⟨.next .start trivial hmoves, fun j hj => ?_⟩
    rcases hgoes with ⟨hindex, -⟩ | ⟨hindex, -⟩
    · rw [hindex] at hj
      cases hj
    · exact hindex.symm.trans hj
  · exact ⟨.start, fun _ hi => hi⟩
  · exact ⟨.start, fun _ hi => hi⟩
  · exact ⟨.start, fun _ hi => hi⟩
  · exact ⟨.start, fun _ hi => hi⟩
  · exact ⟨.next .start trivial hmoves, fun _ hi => hi⟩

theorem expire_moves (hstep : s.expire = some s') :
    Reach Moves Anyhow s.service s'.service ∧ ∀ i, s.index = some i → s'.index = some i := by
  rcases expire_cases hstep with ⟨i, service, -, -, hmoves, rfl⟩ | ⟨p, -, rfl⟩ | ⟨-, rfl⟩
  · exact ⟨.next .start trivial hmoves, fun _ hi => hi⟩
  · exact ⟨.start, fun _ hi => hi⟩
  · exact ⟨.start, fun _ hi => hi⟩

/-! ### The handler beside the task -/

variable {env : Auth.Environment} {texts : Set String} {session : Uuid}
  {w w' : Watched (DashboardSocket μ)}

theorem watched_stream {event : Auth.WatchEvent (SocketLabel μ)}
    (h : Watches env (dashboardStream μ) session w event w') :
    w'.stream = w.stream ∨ (∃ label, w.stream.step label = some w'.stream) ∨
      w.stream.expire = some w'.stream := by
  rcases Auth.watches_cases h with ⟨_, -, -, hstream, -⟩ | ⟨-, -, rfl⟩ | ⟨-, -, rfl⟩ |
    ⟨label, stream, -, -, hstep, rfl⟩ | ⟨stream, -, -, hclose, rfl⟩
  · exact .inl hstream
  · exact .inl rfl
  · exact .inl rfl
  · exact .inr (.inl ⟨label, hstep⟩)
  · exact .inr (.inr hclose)

theorem sound_watched (hs : w.stream.Sound)
    (h : Reach (Watches env (dashboardStream μ) session) (WatchPresents texts) w w') :
    w'.stream.Sound := by
  refine h.invariant (I := fun w => w.stream.Sound) hs fun w₁ _ w₂ hw₁ _ hstep => ?_
  rcases watched_stream hstep with hsame | ⟨label, hlabel⟩ | hexpire
  · rw [hsame]
    exact hw₁
  · exact hw₁.step hlabel
  · exact hw₁.expire hexpire

theorem moves_watched
    (h : Reach (Watches env (dashboardStream μ) session) (WatchPresents texts) w w') :
    Reach Moves Anyhow w.stream.service w'.stream.service ∧
      ∀ i, w.stream.index = some i → w'.stream.index = some i := by
  induction h with
  | start => exact ⟨.start, fun _ hi => hi⟩
  | @next w₁ w₂ _ _ _ hstep ih =>
    obtain ⟨hservice, hindex⟩ := ih
    have hmoves : Reach Moves Anyhow w₁.stream.service w₂.stream.service ∧
        ∀ i, w₁.stream.index = some i → w₂.stream.index = some i := by
      rcases watched_stream hstep with hsame | ⟨label, hlabel⟩ | hexpire
      · rw [hsame]
        exact ⟨.start, fun _ hi => hi⟩
      · exact socket_moves hlabel
      · exact expire_moves hexpire
    exact ⟨hservice.trans hmoves.1, fun i hi => hmoves.2 i (hindex i hi)⟩

/-- What the handler has sent is what its subscriber has received, but for the last snapshot; its
iterator is closed when the handler has returned. -/
structure DashboardSocket.Follows (s : DashboardSocket μ) : Prop where
  unread : s.index = none → s.sent = []
  received : ∀ i, s.index = some i → ∃ sub rest, s.service.subscribers[i]? = some sub ∧
    InOrder s.service.published sub ∧ sub.receipts.map (·.received) = s.sent ++ rest ∧
    rest.length ≤ 1 ∧ (s.phase = .gone → sub.registered = false)
  closed : ∀ code, s.closed = some code → code = 1012 ∧ s.service.task = .finished

theorem DashboardSocket.Sound.follows (h : s.Sound) : s.Follows := by
  refine ⟨fun hindex => (h.unread hindex).2, fun i hi => ?_,
    fun code hcode => ⟨(h.closed code hcode).1, (h.closed code hcode).2.2⟩⟩
  obtain ⟨sub, rest, hsub, hreceipts, hmeets⟩ := h.own i hi
  have horderly := Orderly.of_getElem? h.service hsub
  refine ⟨sub, rest, hsub, horderly.toInOrder, hreceipts, hmeets.length, fun hgone => ?_⟩
  rw [hgone] at hmeets
  exact Bool.eq_false_iff.mpr fun hregistered => horderly.left.mpr hregistered hmeets.1

/-- Behind the end of the service, nothing is sent but what the subscriber had received. -/
theorem sent_after_stop (hs : w.stream.Sound) {i : ℕ} (hindex : w.stream.index = some i)
    {sub : Subscriber μ} (hsub : w.stream.service.subscribers[i]? = some sub)
    (hdismissed : sub.dismissed = true)
    (h : Reach (Watches env (dashboardStream μ) session) (WatchPresents texts) w w') :
    w'.stream.sent <+: sub.receipts.map (·.received) := by
  have hs' := sound_watched hs h
  obtain ⟨hmoves, hkept⟩ := moves_watched h
  obtain ⟨sub', hsub', -, hsame⟩ :=
    ended_reached hs.service ⟨sub, hsub, hdismissed, rfl⟩ hmoves
  obtain ⟨own, rest, hown, hreceipts, -⟩ := hs'.own i (hkept i hindex)
  obtain rfl := Option.some.inj (hsub'.symm.trans hown)
  rw [← hsame, hreceipts]
  exact List.prefix_append _ _

end

/-- **A dashboard follows the service and its session.**  Whatever order the events come in: the
client is sent the snapshots its subscriber has received, one newer than the other; at most one more
when `stop` has met the subscriber, and the code 1012 only then; at most one more when the session
is over and the task has seen it, and the code 4401 only then. -/
theorem dashboard_follows_session {env : Auth.Environment} {texts : Set String}
    (hd : Distinguishes env texts) {w₀ w : Auth.World} {ledger : List Grant}
    (hempty : w₀.db.authSessions = [])
    (hrun : Reach (Serves env) (Presents texts) (w₀, []) (w, ledger)) {request : Auth.Request}
    (hr : request.presents texts) {queryParams : List (String × String)} {session : Uuid}
    (hopen : openDashboard env w request queryParams = .ok session)
    {snapshot : DashboardSnapshot μ} {service : MetricsService μ}
    (hservice : Reach Moves Anyhow (started snapshot) service)
    {s : Watched (DashboardSocket μ)}
    (h : Reach (Watches env (dashboardStream μ) session) (WatchPresents texts)
      { tables := (w, ledger), stream := { service } } s) :
    s.stream.Follows ∧
      (∀ i sub, s.stream.index = some i → s.stream.service.subscribers[i]? = some sub →
        sub.dismissed = true →
        ∀ s', Reach (Watches env (dashboardStream μ) session) (WatchPresents texts) s s' →
          s'.stream.sent.length ≤ s.stream.sent.length + 1) ∧
      ∃ g ∈ s.tables.2, g.session = session ∧
        (∀ code, s.closed = some code →
          code = 4401 ∧ (s.unavailable = true ∨ g.over s.tables.1.now)) ∧
        (g.over s.tables.1.now → ∀ s', Watches env (dashboardStream μ) session s .poll s' →
          s'.ended = true) ∧
        (s.ended = true →
          ∀ s', Reach (Watches env (dashboardStream μ) session) (WatchPresents texts) s s' →
            s'.stream.sent.length ≤ s.stream.sent.length + 1) := by
  have hstart : ({ service } : DashboardSocket μ).Sound :=
    ⟨inv_reached (Inv.started snapshot) hservice, fun _ => ⟨rfl, rfl⟩, nofun, nofun⟩
  have hsound : s.stream.Sound := sound_watched hstart h
  have hsession : authenticateWebsocket env w request = .ok session := by
    unfold openDashboard at hopen
    cases hauth : authenticateWebsocket env w request with
    | error code =>
      rw [hauth] at hopen
      cases hopen
    | ok session' =>
      rw [hauth] at hopen
      replace hopen : (if queryParams.isEmpty then Except.ok session' else .error 4400) =
        .ok session := hopen
      split_ifs at hopen
      exact hopen
  refine ⟨hsound.follows, fun i sub hindex hsub hdismissed s' hlater => ?_, ?_⟩
  · have hsent := (sent_after_stop hsound hindex hsub hdismissed hlater).length_le
    obtain ⟨own, rest, hown, hreceipts, hmeets⟩ := hsound.own i hindex
    obtain rfl := Option.some.inj (hsub.symm.trans hown)
    have hrest := hmeets.length
    rw [hreceipts, List.length_append] at hsent
    omega
  · obtain ⟨g, hg, hgsession, hclosed, hended, hpoll, hsent⟩ :=
      Auth.revoked_stream_ends (dashboardStream μ) hd hempty hrun hr hsession h
    refine ⟨g, hg, hgsession,
      fun code hcode => ⟨(hclosed code hcode).1, hended (hclosed code hcode).2⟩, hpoll,
      fun he s' hlater => ?_⟩
    have hbegun := (hsent he s' hlater).length_le
    have hone : s.stream.phase.committed.length ≤ 1 := by
      cases s.stream.phase <;> simp [SocketPhase.committed]
    have hcommitted : (dashboardStream μ).committed s.stream = s.stream.phase.committed := rfl
    rw [List.length_append, hcommitted] at hbegun
    exact hbegun.trans (Nat.add_le_add_left hone _)

/-! ### A dashboard that outlives the service -/

/-- The client gets a snapshot and a newer one, then the service stops. -/
def stoppedEvents : List (SocketLabel Unit) :=
  [.ask 1 2, .look, .deliver, .others .wakes, .others (.collected (emptySnapshot 3)), .ask 4 4,
    .look, .others .stop, .others .taskEnds, .deliver, .ask 6 6, .look]

def openedDashboard : Watched (DashboardSocket Unit) :=
  { tables := Auth.afterFirstSetup, stream := { service := started (emptySnapshot 0) } }

def stoppedDashboard : Watched (DashboardSocket Unit) :=
  ((stoppedEvents.map Auth.WatchEvent.stream).foldlM
    (Watched.step Auth.trustingEnvironment (dashboardStream Unit) 2) openedDashboard).getD
    openedDashboard

theorem dashboard_follows_session_stop :
    stoppedDashboard.stream.sent.map (·.serial) = [0, 1] ∧
      stoppedDashboard.stream.closed = some 1012 ∧ stoppedDashboard.stream.Follows := by
  have hopen : openDashboard Auth.trustingEnvironment Auth.afterFirstSetup.1 Auth.firstOpen [] =
      .ok 2 := by decide
  have hservice : Reach Moves Anyhow (started (emptySnapshot 0)) (started (emptySnapshot 0)) :=
    .start
  have hreach : Reach (Watches Auth.trustingEnvironment (dashboardStream Unit) 2)
      (WatchPresents Set.univ) openedDashboard stoppedDashboard := by
    refine Reach.of_foldlM (fun _ _ _ h => h) (stoppedEvents.map Auth.WatchEvent.stream) ?_ rfl
    intro event hevent _
    obtain ⟨label, -, rfl⟩ := List.mem_map.mp hevent
    trivial
  exact ⟨rfl, rfl, (dashboard_follows_session Auth.trusting_distinguishes rfl
    Auth.afterFirstSetup_reached (Auth.presents_univ Auth.firstOpen) hopen hservice hreach).1⟩

end MachineDeck.Dashboard

import MachineDeck.SessionLedger

/-!
# Streams that end with the session

A WebSocket is opened with the cookie of a session, and a task beside it looks every now and then
whether the session goes on.

* `authenticateWebsocket` — who may open one, of `security/auth.py`;
* `ClientStream` — what a handler sends, where it looks at the task, and what it has begun to send by
  then;
* `Watched`, `Watched.step` — a stream with its task, and the calls of the clients beside it;
* `revoked_stream_ends` — with the end of the session, and only then, the stream is closed.
-/

namespace MachineDeck.Auth

open GuardedRuns

/-! ### Opening -/

/-- `origin_is_trusted` of a header that may be missing. -/
def websocketOriginTrusted (env : Environment) (origin : Option String) : Bool :=
  origin.any (originIsTrusted env)

/-- The session of the cookie, or the code the WebSocket is closed with. -/
def authenticateWebsocket (env : Environment) (w : World) (request : Request) : Except ℕ Uuid :=
  if !websocketOriginTrusted env (request.header "origin") then .error 4403
  else
    match authenticateToken env w request.cookie with
    | none => .error 4401
    | some authenticated => .ok authenticated.session.id

/-! ### Streams -/

/-- A handler that sends messages to a client.  At some of its steps it looks whether the session
has ended, and closes the stream instead.  The messages that it has begun to send come first. -/
structure ClientStream (σ ι ω : Type) where
  step : σ → ι → Option σ
  looks : ι → Bool
  close : σ → Option σ
  sent : σ → List ω
  committed : σ → List ω
  /-- Without a look, nothing is sent but what has been begun. -/
  settled : ∀ {s label s'}, step s label = some s' → looks label = false →
    sent s' ++ committed s' <+: sent s ++ committed s
  /-- Where it looks, it can close. -/
  stops : ∀ {s label s'}, step s label = some s' → looks label = true → (close s).isSome = true
  closing : ∀ {s s'}, close s = some s' → sent s' ++ committed s' = sent s

/-- A stream, with the tables and the ledger of sessions. `ended` is set when the task is done, and
`unavailable` when it is because the database was not. -/
structure Watched (σ : Type) where
  tables : World × List Grant
  stream : σ
  ended : Bool := false
  unavailable : Bool := false
  closed : Option ℕ := none

inductive WatchEvent (ι : Type) where
  | serve (call : AuthCall)
  | poll
  | pollFails
  | stream (label : ι)
  | expire

section

variable {σ ι ω : Type}

/-- What can happen beside an open WebSocket. -/
def Watched.step (env : Environment) (S : ClientStream σ ι ω) (session : Uuid) (s : Watched σ) :
    WatchEvent ι → Option (Watched σ)
  | .serve call =>
    some { s with
      tables := ((serve env s.tables.1 call).1,
        observe s.tables.1.now s.tables.2 call (serve env s.tables.1 call).2) }
  | .poll =>
    if s.ended then none
    else some { s with ended := !websocketSessionActive s.tables.1 session }
  | .pollFails => if s.ended then none else some { s with ended := true, unavailable := true }
  | .stream label =>
    if S.looks label && s.ended then none
    else (S.step s.stream label).map fun stream => { s with stream }
  | .expire =>
    if s.ended then (S.close s.stream).map fun stream => { s with stream, closed := some 4401 }
    else none

/-- One event beside an open WebSocket. -/
def Watches (env : Environment) (S : ClientStream σ ι ω) (session : Uuid) (s : Watched σ)
    (event : WatchEvent ι) (s' : Watched σ) : Prop := s.step env S session event = some s'

/-- The calls show texts that the digest tells apart. -/
def WatchPresents (texts : Set String) (_ : Watched σ) : WatchEvent ι → Prop
  | .serve call => call.presents texts
  | _ => True

variable {env : Environment} {texts : Set String} {S : ClientStream σ ι ω} {session : Uuid}
  {s s' : Watched σ} {event : WatchEvent ι}

/-- What an event does to the parts of the state that are not the stream. -/
theorem watches_cases (h : Watches env S session s event s') :
    (∃ call, event = .serve call ∧ Serves env s.tables call s'.tables ∧
      s'.stream = s.stream ∧ s'.ended = s.ended ∧ s'.unavailable = s.unavailable ∧
      s'.closed = s.closed) ∨
    (event = .poll ∧ s.ended = false ∧
      s' = { s with ended := !websocketSessionActive s.tables.1 session }) ∨
    (event = .pollFails ∧ s.ended = false ∧ s' = { s with ended := true, unavailable := true }) ∨
    (∃ label stream, event = .stream label ∧ (s.ended = true → S.looks label = false) ∧
      S.step s.stream label = some stream ∧ s' = { s with stream }) ∨
    (∃ stream, event = .expire ∧ s.ended = true ∧ S.close s.stream = some stream ∧
      s' = { s with stream, closed := some 4401 }) := by
  cases event with
  | serve call =>
    cases h
    exact Or.inl ⟨call, rfl, rfl, rfl, rfl, rfl, rfl⟩
  | poll =>
    simp only [Watches, Watched.step] at h
    split_ifs at h with hended
    cases h
    exact Or.inr (Or.inl ⟨rfl, Bool.eq_false_iff.mpr hended, rfl⟩)
  | pollFails =>
    simp only [Watches, Watched.step] at h
    split_ifs at h with hended
    cases h
    exact Or.inr (Or.inr (Or.inl ⟨rfl, Bool.eq_false_iff.mpr hended, rfl⟩))
  | stream label =>
    simp only [Watches, Watched.step] at h
    split_ifs at h with hlooks
    obtain ⟨stream, hstep, rfl⟩ := Option.map_eq_some_iff.mp h
    refine Or.inr (Or.inr (Or.inr (Or.inl ⟨label, stream, rfl, fun hended => ?_, hstep, rfl⟩)))
    rw [hended, Bool.and_true] at hlooks
    exact Bool.eq_false_iff.mpr hlooks
  | expire =>
    simp only [Watches, Watched.step] at h
    split_ifs at h with hended
    obtain ⟨stream, hclose, rfl⟩ := Option.map_eq_some_iff.mp h
    exact Or.inr (Or.inr (Or.inr (Or.inr ⟨stream, rfl, hended, hclose, rfl⟩)))

/-! ### The tables -/

/-- The tables change by calls only. -/
theorem tables_reach (h : Reach (Watches env S session) (WatchPresents texts) s s') :
    Reach (Serves env) (Presents texts) s.tables s'.tables := by
  induction h with
  | start => exact Reach.start
  | next _ hshows hstep ih =>
    rcases watches_cases hstep with ⟨call, rfl, hserves, -⟩ | ⟨-, -, rfl⟩ | ⟨-, -, rfl⟩ |
      ⟨label, stream, -, -, -, rfl⟩ | ⟨stream, -, -, -, rfl⟩
    · exact Reach.next ih hshows hserves
    · exact ih
    · exact ih
    · exact ih
    · exact ih

/-! ### The task -/

/-- The grant of the session goes on, and the task is done only when it is over. -/
structure Watched.Justified (env : Environment) (session : Uuid) (g : Grant) (s : Watched σ) :
    Prop where
  agrees : Agrees env s.tables.1 s.tables.2
  grant : ∃ g' ∈ s.tables.2, g.Continues g'
  ended : s.ended = true → s.unavailable = true ∨
    ∃ g' ∈ s.tables.2, g.Continues g' ∧ g'.over s.tables.1.now
  closed : ∀ code, s.closed = some code → code = 4401 ∧ s.ended = true

/-- A check that finds the session ended. -/
theorem over_of_inactive {w : World} {ledger : List Grant} (ha : Agrees env w ledger) {g : Grant}
    (hg : g ∈ ledger) (hinactive : websocketSessionActive w g.session = false) :
    g.over w.now := by
  rw [websocketSessionActive, ha.find_session hg, Option.any_some, Bool.eq_false_iff] at hinactive
  by_contra hlive
  rw [Grant.over, not_or, not_not, not_le] at hlive
  exact hinactive ((g.live_row env w.now).mpr hlive)

theorem Watched.Justified.step (hd : Distinguishes env texts) {g : Grant}
    (hsession : g.session = session) (h : s.Justified env session g)
    (hshows : WatchPresents texts s event) (hstep : Watches env S session s event s') :
    s'.Justified env session g := by
  rcases watches_cases hstep with ⟨call, rfl, hserves, -, hended, hunavailable, hclosed⟩ |
    ⟨-, hrunning, rfl⟩ | ⟨-, -, rfl⟩ | ⟨label, stream, -, -, -, rfl⟩ | ⟨stream, -, hended, -, rfl⟩
  · have hrun : Reach (Serves env) (Presents texts) s.tables s'.tables :=
      Reach.next Reach.start hshows hserves
    obtain ⟨hnow, hkeeps⟩ := continues_of_reach hd h.agrees hrun
    refine ⟨agrees_of_reach hd h.agrees hrun, ?_, fun he => ?_, fun code hcode => ?_⟩
    · obtain ⟨g₁, hg₁, hcontinues⟩ := h.grant
      obtain ⟨g₂, hg₂, hcontinues'⟩ := hkeeps g₁ hg₁
      exact ⟨g₂, hg₂, hcontinues.trans hcontinues'⟩
    · rw [hended] at he
      rw [hunavailable]
      rcases h.ended he with hfailed | ⟨g₁, hg₁, hcontinues, hover⟩
      · exact Or.inl hfailed
      · obtain ⟨g₂, hg₂, hcontinues'⟩ := hkeeps g₁ hg₁
        exact Or.inr ⟨g₂, hg₂, hcontinues.trans hcontinues', hcontinues'.over hnow hover⟩
    · rw [hclosed] at hcode
      rw [hended]
      exact h.closed code hcode
  · refine ⟨h.agrees, h.grant, fun he => Or.inr ?_, fun code hcode => ?_⟩
    · obtain ⟨g', hg', hcontinues⟩ := h.grant
      have hinactive : websocketSessionActive s.tables.1 g'.session = false := by
        rw [hcontinues.1, hsession]
        simpa using he
      exact ⟨g', hg', hcontinues, over_of_inactive h.agrees hg' hinactive⟩
    · have hended := (h.closed code hcode).2
      rw [hrunning] at hended
      cases hended
  · exact ⟨h.agrees, h.grant, fun _ => Or.inl rfl, fun code hcode => ⟨(h.closed code hcode).1, rfl⟩⟩
  · exact ⟨h.agrees, h.grant, h.ended, h.closed⟩
  · exact ⟨h.agrees, h.grant, h.ended, fun code hcode => ⟨(Option.some.inj hcode).symm, hended⟩⟩

/-! ### What is still sent -/

/-- When the task is done, only what has been begun is still sent. -/
theorem sent_after_end (hended : s.ended = true)
    (h : Reach (Watches env S session) (WatchPresents texts) s s') :
    s'.ended = true ∧
      S.sent s'.stream ++ S.committed s'.stream <+: S.sent s.stream ++ S.committed s.stream := by
  refine h.invariant (I := fun s' => s'.ended = true ∧
    S.sent s'.stream ++ S.committed s'.stream <+: S.sent s.stream ++ S.committed s.stream)
    ⟨hended, List.prefix_refl _⟩ fun s₁ event s₂ hs₁ _ hstep => ?_
  obtain ⟨hended₁, hbegun⟩ := hs₁
  rcases watches_cases hstep with ⟨call, -, -, hstream, hended₂, -⟩ | ⟨-, hrunning, -⟩ |
    ⟨-, hrunning, -⟩ | ⟨label, stream, -, hlooks, hstream, rfl⟩ | ⟨stream, -, -, hclose, rfl⟩
  · rw [hstream, hended₂]
    exact ⟨hended₁, hbegun⟩
  · rw [hrunning] at hended₁
    cases hended₁
  · rw [hrunning] at hended₁
    cases hended₁
  · exact ⟨hended₁, (S.settled hstream (hlooks hended₁)).trans hbegun⟩
  · refine ⟨hended₁, ?_⟩
    show S.sent stream ++ S.committed stream <+: _
    rw [S.closing hclose]
    exact (List.prefix_append _ _).trans hbegun

/-! ### Opening and closing -/

/-- A WebSocket is opened by a client with the cookie of a session that goes on. -/
theorem authenticateWebsocket_ok {w : World} {ledger : List Grant} (hd : Distinguishes env texts)
    (ha : Agrees env w ledger) {request : Request} (hr : request.presents texts)
    (h : authenticateWebsocket env w request = .ok session) :
    ∃ g ∈ ledger, g.session = session ∧ request.cookie = some g.token ∧ ¬ g.over w.now ∧
      ∃ origin, request.header "origin" = some origin ∧ originIsTrusted env origin = true := by
  unfold authenticateWebsocket at h
  split_ifs at h with horigin
  have htrusted : websocketOriginTrusted env (request.header "origin") = true := by
    simpa using horigin
  cases hauth : authenticateToken env w request.cookie with
  | none =>
    rw [hauth] at h
    cases h
  | some authenticated =>
    rw [hauth] at h
    obtain ⟨g, hg, hcookie, hclosed, hnow, -, hrow⟩ :=
      (ha.authenticateToken_iff hd hr.1 authenticated).mp hauth
    refine ⟨g, hg, ?_, hcookie, ?_, Option.any_eq_true _ _ |>.mp htrusted⟩
    · have hid : authenticated.session.id = session := Except.ok.inj h
      rw [← hid, hrow]
      rfl
    · rw [Grant.over, not_or, not_not, not_le]
      exact ⟨hclosed, hnow⟩

/-- **A stream ends with its session.**  After any run of the clients' calls, a WebSocket is opened
with a cookie.  Whatever happens then: it is closed for its session only when that is over, or when
the check finds no database; the first check after that ends the task; and from then on only what
has been begun is sent. -/
theorem revoked_stream_ends (S : ClientStream σ ι ω) (hd : Distinguishes env texts) {w₀ w : World}
    {ledger : List Grant} (hempty : w₀.db.authSessions = [])
    (hrun : Reach (Serves env) (Presents texts) (w₀, []) (w, ledger)) {request : Request}
    (hr : request.presents texts) (hopen : authenticateWebsocket env w request = .ok session)
    {stream : σ} {s : Watched σ}
    (h : Reach (Watches env S session) (WatchPresents texts)
      { tables := (w, ledger), stream } s) :
    ∃ g ∈ s.tables.2, g.session = session ∧
      (∀ code, s.closed = some code → code = 4401 ∧ s.ended = true) ∧
      (s.ended = true → s.unavailable = true ∨ g.over s.tables.1.now) ∧
      (g.over s.tables.1.now → ∀ s', Watches env S session s .poll s' → s'.ended = true) ∧
      (s.ended = true → ∀ s', Reach (Watches env S session) (WatchPresents texts) s s' →
        S.sent s'.stream <+: S.sent s.stream ++ S.committed s.stream) := by
  have hstart : Agrees env w₀ [] :=
    ⟨hempty, by simp, by simp, List.nodup_nil, List.nodup_nil⟩
  have ha : Agrees env w ledger := agrees_of_reach hd hstart hrun
  obtain ⟨g, hg, hsession, -⟩ := authenticateWebsocket_ok hd ha hr hopen
  have hopened : ({ tables := (w, ledger), stream } : Watched σ).Justified env session g :=
    ⟨ha, ⟨g, hg, g.continues_refl⟩, (fun hended => nomatch hended), fun _ hclosed => nomatch hclosed⟩
  have hs : s.Justified env session g :=
    h.invariant hopened fun _ _ _ hs hshows hstep => hs.step hd hsession hshows hstep
  obtain ⟨g', hg', hcontinues⟩ := hs.grant
  have hsession' : g'.session = session := hcontinues.1.trans hsession
  refine ⟨g', hg', hsession', hs.closed, fun hended => ?_, fun hover s' hpoll => ?_,
    fun hended s' hlater => ?_⟩
  · rcases hs.ended hended with hfailed | ⟨g'', hg'', hcontinues', hover⟩
    · exact Or.inl hfailed
    · rw [hs.agrees.eq_of_session hg' hg'' (hcontinues.1.trans hcontinues'.1.symm)]
      exact Or.inr hover
  · rcases watches_cases hpoll with ⟨_, hcall, -⟩ | ⟨-, -, rfl⟩ | ⟨hcall, -⟩ | ⟨_, _, hcall, -⟩ |
      ⟨_, hcall, -⟩
    · cases hcall
    · have hinactive := (hs.agrees.refused hd hg' hover).2
      rw [hsession'] at hinactive
      show (!websocketSessionActive s.tables.1 session) = true
      rw [hinactive]
      rfl
    · cases hcall
    · cases hcall
    · cases hcall
  · exact (List.prefix_append _ _).trans (sent_after_end hended hlater).2

end

/-! ### A WebSocket of the first session -/

def trustingEnvironment : Environment :=
  { plainEnvironment with
    settings := { plainEnvironment.settings with trustedOrigins := ["http://localhost:8080"] } }

def firstOpen : Request :=
  { clientHost := some "127.0.0.1"
    headers := [("origin", "http://localhost:8080")]
    cookies := [("machinedeck_session", "k")] }

def afterFirstSetup : World × List Grant :=
  ((serve trustingEnvironment {} firstSetup).1,
    observe 0 [] firstSetup (serve trustingEnvironment {} firstSetup).2)

theorem trusting_distinguishes : Distinguishes trustingEnvironment Set.univ :=
  ⟨Function.Injective.injOn fun _ _ h => h, fun _ => Set.mem_univ _⟩

theorem presents_univ (request : Request) : request.presents Set.univ :=
  ⟨fun _ _ => Set.mem_univ _, fun _ _ => Set.mem_univ _⟩

theorem afterFirstSetup_reached :
    Reach (Serves trustingEnvironment) (Presents Set.univ) ({}, []) afterFirstSetup :=
  .next .start (show firstSetup.presents _ from presents_univ _) rfl

end MachineDeck.Auth

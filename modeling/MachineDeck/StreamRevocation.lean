import MachineDeck.LogAccounting
import MachineDeck.WatchedStreams

/-!
# The log of a revoked session

* `Connection.committed`, `logStream` — what the handler of a log has begun to send, and where it
  looks at the task;
* `revoked_log_ends` — what a client still gets when its session is over.
-/

namespace MachineDeck.Logs

open Auth GuardedRuns

/-! ### What has been begun -/

/-- The envelope of an item, as the next one. -/
def sentAs (sequence : ℕ) : Item → LogEnvelope
  | .event event => .log (event.numbered (sequence + 1))
  | .envelope envelope => envelope

/-- The history from a sequence number on. -/
def historyEnvelopes : ℕ → List LogEvent → List LogEnvelope
  | _, [] => []
  | sequence, event :: rest =>
    .log (event.numbered (sequence + 1)) :: historyEnvelopes (sequence + 1) rest

/-- The history does not wait, and a warning goes before the item it is sent with. -/
def Phase.committed (shouldFollow : Bool) (sequence : ℕ) : Phase → List LogEnvelope
  | .history rest =>
    historyEnvelopes sequence rest ++ if shouldFollow then [] else [.eof "history_complete"]
  | .warning count item => [.warning "LOG_MESSAGES_DROPPED" count, sentAs sequence item]
  | .sending item => [sentAs sequence item]
  | _ => []

def Connection.committed (s : Connection) : List LogEnvelope :=
  s.phase.committed s.shouldFollow s.sequence

/-- `asyncio.wait` finds the task done: the WebSocket is closed instead. -/
def Connection.expire (s : Connection) : Option Connection :=
  match s.phase with
  | .waiting => some { s with phase := .gone }
  | .holding _ => some { s with phase := .gone }
  | _ => none

def Label.looks : Label → Bool
  | .resume => true
  | _ => false

section

variable {maxsize : ℕ} {s s' : Connection}

theorem expire_closes (h : s.expire = some s') : s'.sent ++ s'.committed = s.sent := by
  unfold Connection.expire at h
  split at h
  · cases h
    exact List.append_nil _
  · cases h
    exact List.append_nil _
  · cases h

/-- Where the handler has an item, it can close. -/
theorem resume_expire (h : s.step maxsize .resume = some s') : s.expire.isSome = true := by
  simp only [Connection.step] at h
  split at h
  · rename_i item hphase
    rw [Connection.expire, hphase]
    rfl
  · cases h

/-- A send sends what has been begun. -/
theorem deliver_settled (h : s.deliver = some s') :
    s'.sent ++ s'.committed = s.sent ++ s.committed := by
  unfold Connection.deliver at h
  unfold Connection.committed
  split at h
  · rename_i event rest hphase
    cases h
    rw [hphase]
    exact List.append_assoc _ [_] _
  · rename_i hphase
    rw [hphase]
    split_ifs at h with hfollow
    · cases h
      rw [hfollow]
      rfl
    · cases h
      rw [Bool.eq_false_iff.mpr hfollow]
      exact List.append_nil _
  · rename_i count item hphase
    cases h
    rw [hphase]
    exact List.append_assoc _ [_] _
  · rename_i event hphase
    cases h
    rw [hphase]
    exact List.append_nil _
  · rename_i envelope hphase
    cases h
    rw [hphase]
    have hnone : (if envelope.isTerminal then Phase.finished else .waiting).committed
        s.shouldFollow s.sequence = [] := by
      cases envelope.isTerminal <;> rfl
    show s.sent ++ [envelope] ++ Phase.committed _ _ _ = _
    rw [hnone]
    exact List.append_nil _
  · cases h

theorem step_settled {label : Label} (h : s.step maxsize label = some s')
    (hlooks : label.looks = false) : s'.sent ++ s'.committed <+: s.sent ++ s.committed := by
  cases label with
  | produce event =>
    simp only [Connection.step] at h
    split_ifs at h
    cases h
    exact List.prefix_refl _
  | sourceCloses =>
    simp only [Connection.step] at h
    split_ifs at h
    cases h
    exact List.prefix_refl _
  | sourceFails message =>
    simp only [Connection.step] at h
    split_ifs at h
    cases h
    exact List.prefix_refl _
  | take =>
    simp only [Connection.step] at h
    split at h
    · rename_i hphase _
      cases h
      show s.sent ++ [] <+: _
      rw [List.append_nil]
      exact List.prefix_append _ _
    · cases h
  | resume => cases hlooks
  | deliver =>
    rw [deliver_settled h]
  | hangUp =>
    simp only [Connection.step] at h
    split_ifs at h
    cases h
    show s.sent ++ [] <+: _
    rw [List.append_nil]
    exact List.prefix_append _ _

end

/-- `application_logs` as a stream. -/
def logStream (maxsize : ℕ) : ClientStream Connection Label LogEnvelope where
  step := Connection.step maxsize
  looks := Label.looks
  close := Connection.expire
  sent := Connection.sent
  committed := Connection.committed
  settled := step_settled
  stops := fun {_ label _} h hlooks => by
    cases label with
    | resume => exact resume_expire h
    | produce | sourceCloses | sourceFails | take | deliver | hangUp => cases hlooks
  closing := expire_closes

section

variable {s : Connection}

/-- While the log is followed, at most one event has been begun. -/
theorem committed_following (h : s.phase.following = true) : (logs s.committed).length ≤ 1 := by
  have hitem (item : Item) (front : List LogEnvelope) (hfront : logs front = []) :
      (logs (front ++ [sentAs s.sequence item])).length ≤ 1 := by
    rw [logs_concat, hfront, List.nil_append]
    cases (sentAs s.sequence item).event? <;> simp
  unfold Connection.committed
  cases hphase : s.phase with
  | history rest => rw [hphase] at h; cases h
  | finished => rw [hphase] at h; cases h
  | gone => rw [hphase] at h; cases h
  | waiting => simp [Phase.committed, logs]
  | holding item => simp [Phase.committed, logs]
  | warning count item => exact hitem item [.warning "LOG_MESSAGES_DROPPED" count] rfl
  | sending item => exact hitem item [] rfl

end

/-- **A log ends with the session it was opened for.**  Whatever happens meanwhile, the WebSocket is
closed with 4401 only when that session is over, or when the check finds no database; the first
check after that ends the task; from then on only what has been begun is sent, and of the log that
is followed at most one event. -/
theorem revoked_log_ends {env : Auth.Environment} {texts : Set String} (hd : Distinguishes env texts)
    (maxsize : ℕ) {w₀ w : World} {ledger : List Grant} (hempty : w₀.db.authSessions = [])
    (hrun : Reach (Serves env) (Presents texts) (w₀, []) (w, ledger)) {request : Request}
    (hr : request.presents texts) {session : Uuid}
    (hopen : authenticateWebsocket env w request = .ok session) (history : List LogEvent)
    (shouldFollow : Bool) {s : Watched Connection}
    (h : Reach (Watches env (logStream maxsize) session) (WatchPresents texts)
      { tables := (w, ledger), stream := start history shouldFollow } s) :
    ∃ g ∈ s.tables.2, g.session = session ∧
      (∀ code, s.closed = some code →
        code = 4401 ∧ (s.unavailable = true ∨ g.over s.tables.1.now)) ∧
      (g.over s.tables.1.now → ∀ s', Watches env (logStream maxsize) session s .poll s' →
        s'.ended = true) ∧
      (s.ended = true →
        ∀ s', Reach (Watches env (logStream maxsize) session) (WatchPresents texts) s s' →
          s'.stream.sent <+: s.stream.sent ++ s.stream.committed ∧
          (s.stream.phase.following = true →
            (logs s'.stream.sent).length ≤ (logs s.stream.sent).length + 1)) := by
  obtain ⟨g, hg, hsession, hclosed, hended, hpoll, hsent⟩ :=
    revoked_stream_ends (logStream maxsize) hd hempty hrun hr hopen h
  refine ⟨g, hg, hsession, fun code hcode => ?_, hpoll, fun he s' hlater => ?_⟩
  · exact ⟨(hclosed code hcode).1, hended (hclosed code hcode).2⟩
  · have hbegun : s'.stream.sent <+: s.stream.sent ++ s.stream.committed := hsent he s' hlater
    refine ⟨hbegun, fun hfollowing => ?_⟩
    have hlogs := (hbegun.filterMap LogEnvelope.event?).length_le
    rw [List.filterMap_append, List.length_append] at hlogs
    have hone := committed_following hfollowing
    exact hlogs.trans (Nat.add_le_add_left hone _)

/-! ### A session that expires -/

/-- A log without history, when the session has expired and the task has seen it. -/
def expiredLog : Watched Connection :=
  { tables := ({ afterFirstSetup.1 with now := 0 + 43200 }, afterFirstSetup.2)
    stream := { start [] true with phase := .waiting }
    ended := true }

theorem revoked_log_ends_expired :
    expiredLog.ended = true ∧
      ∀ s', Reach (Watches trustingEnvironment (logStream 1000) 2) (WatchPresents Set.univ)
        expiredLog s' → s'.stream.sent <+: expiredLog.stream.sent := by
  have hreach : Reach (Watches trustingEnvironment (logStream 1000) 2) (WatchPresents Set.univ)
      { tables := afterFirstSetup, stream := start [] true } expiredLog := by
    have hdeliver : Watches trustingEnvironment (logStream 1000) 2
        { tables := afterFirstSetup, stream := start [] true } (.stream .deliver)
        { tables := afterFirstSetup, stream := { start [] true with phase := .waiting } } := rfl
    have hpass : Watches trustingEnvironment (logStream 1000) 2
        { tables := afterFirstSetup, stream := { start [] true with phase := .waiting } }
        (.serve (.pass 43200)) { expiredLog with ended := false } := rfl
    have hpoll : Watches trustingEnvironment (logStream 1000) 2
        { expiredLog with ended := false } .poll expiredLog := by
      have hinactive : websocketSessionActive expiredLog.tables.1 2 = false := by decide
      show some { expiredLog with ended := !websocketSessionActive expiredLog.tables.1 2 } =
        some expiredLog
      rw [hinactive]
      rfl
    refine .next (.next (.next .start ?_ hdeliver) ?_ hpass) ?_ hpoll
    all_goals trivial
  obtain ⟨_, _, _, _, _, hsent⟩ := revoked_log_ends trusting_distinguishes 1000 rfl
    afterFirstSetup_reached (presents_univ firstOpen) (by decide) [] true hreach
  refine ⟨rfl, fun s' hlater => ?_⟩
  have hbegun := (hsent rfl s' hlater).1
  rwa [show expiredLog.stream.committed = [] from rfl, List.append_nil] at hbegun

end MachineDeck.Logs

import MachineDeck.AuthService
import MachineDeck.SlidingWindow
import Mathlib.Data.Set.Function

/-!
# Login throttling

Sequences of `login` calls, each handled before the next, against the limiter of `SlidingWindow`.

* `Attempt`, `responses` — the calls with their times, and what they answer;
* `verdict`, `verdictsOf` — what the throttle and the password check made of them;
* `recentRows` — the failures of a client that the check still counts;
* `verdictsOf_eq` — of each client, the service is the limiter on that client's attempts;
* `login_throttled` — the bound, what a refusal is for, and that other clients do not matter.
-/

namespace MachineDeck.Auth

open SlidingWindow (Verdict recent)

/-! ### Sequences of attempts -/

structure Attempt where
  time : Time
  credentials : Credentials
  request : Request

/-- The client that the throttle counts for. -/
def Attempt.client (env : Environment) (a : Attempt) : Option String :=
  match requestNetworkContext env.settings.network a.request with
  | .ok network => some network.client
  | .error _ => none

def handle (env : Environment) (w : World) (a : Attempt) :
    World × Except HttpError SessionResponse :=
  login env { w with now := a.time } a.credentials a.request

def responses (env : Environment) :
    World → List Attempt → List (Attempt × Except HttpError SessionResponse)
  | _, [] => []
  | w, a :: rest => (a, (handle env w a).2) :: responses env (handle env w a).1 rest

/-- What became of an attempt; none where it was turned away before the throttle.  A server error
is a session that could not be stored though the password was right. -/
def verdict (response : Except HttpError SessionResponse) : Option Verdict :=
  match response with
  | .ok _ => some .passed
  | .error e =>
    if e = loginRateLimited then some .limited
    else if e = loginFailed then some .failed
    else if e = serverError then some .passed
    else none

/-- The verdicts on one client's attempts. -/
def verdictsOf (env : Environment) (client : String)
    (entries : List (Attempt × Except HttpError SessionResponse)) : List (Time × Verdict) :=
  entries.filterMap fun entry =>
    if entry.1.client env = some client then (verdict entry.2).map fun v => (entry.1.time, v)
    else none

def window (env : Environment) : Time := env.settings.loginWindowMinutes * 60

/-- The rows of a client that a check at the given time counts. -/
def recentRows (env : Environment) (client : String) (now : Time)
    (rows : List LoginFailureRecord) : ℕ :=
  rows.countP fun f =>
    f.remoteDigest == remoteDigest env client && decide (now ≤ f.attemptedAt + window env)

/-- What every check deletes before it counts. -/
def purged (env : Environment) (now : Time) (rows : List LoginFailureRecord) :
    List LoginFailureRecord :=
  rows.filter fun f => decide (now ≤ f.attemptedAt + window env)

/-- The password check. -/
def verifies (env : Environment) (w : World) (credentials : Credentials) : Bool :=
  (verifyCredentials env w credentials).2.isSome

/-! ### One call -/

theorem verdict_turnedAway_origin {env : Environment} {origin : Option String} {e : HttpError}
    (h : requireTrustedOrigin env origin = .error e) : verdict (.error e) = none := by
  cases origin with
  | none => cases h
  | some origin =>
      rw [requireTrustedOrigin] at h
      split_ifs at h
      cases h
      rfl

theorem verdict_turnedAway_network {settings : NetworkSettings} {request : Request}
    {e : HttpError} (h : requestNetworkContext settings request = .error e) :
    verdict (.error e) = none := by
  suffices e = forwardedHeadersInvalid by rw [this]; rfl
  unfold requestNetworkContext at h
  split at h
  · cases h
  · dsimp only at h
    split_ifs at h
    split at h
    · exact (Except.error.inj h).symm
    · cases h

theorem rateLimited_eq (env : Environment) (w : World) (client : String) :
    rateLimited env w client =
      ({ w with db := { w.db with loginFailures := purged env w.now w.db.loginFailures } },
        decide (env.settings.loginMaxFailures ≤ recentRows env client w.now w.db.loginFailures)) := by
  rw [rateLimited, recentRows, List.countP_filter]
  rfl

theorem verifyCredentials_rows (env : Environment) (w : World) (credentials : Credentials) :
    (verifyCredentials env w credentials).1.db.loginFailures = w.db.loginFailures := by
  unfold verifyCredentials
  dsimp only
  split_ifs
  · rfl
  · split
    · rfl
    · split_ifs <;> rfl

theorem insertSession_some {db db' : AuthDb} {saved : AuthSessionRecord} {events : List AuthEvent}
    (h : insertSession db saved events = some db') :
    db'.loginFailures = db.loginFailures ∧ db'.administrators = db.administrators := by
  unfold insertSession at h
  split_ifs at h
  cases h
  exact ⟨rfl, rfl⟩

/-- The session of a password that was right. -/
theorem createAuthSession_spec (env : Environment) (w : World) (admin : AdministratorRecord)
    (events : List AuthEvent) :
    (createAuthSession env w admin events).1.db.loginFailures = w.db.loginFailures ∧
      (createAuthSession env w admin events).1.db.administrators = w.db.administrators ∧
      verdict (createAuthSession env w admin events).2 = some .passed := by
  unfold createAuthSession
  simp only [Environment.secret, World.uuid4]
  split
  · exact ⟨rfl, rfl, rfl⟩
  · rename_i db hdb
    obtain ⟨hrows, hadministrators⟩ := insertSession_some hdb
    exact ⟨hrows, hadministrators, rfl⟩

/-- The call got to the throttle. -/
def Attempt.Reaches (env : Environment) (a : Attempt) (client : String) : Prop :=
  requireTrustedOrigin env (a.request.header "origin") = .ok () ∧ a.client env = some client

instance (env : Environment) (a : Attempt) (client : String) : Decidable (a.Reaches env client) :=
  inferInstanceAs (Decidable (_ ∧ _))

theorem handle_turnedAway {env : Environment} {a : Attempt} (h : ∀ client, ¬ a.Reaches env client)
    (w : World) :
    (handle env w a).1.db = w.db ∧ verdict (handle env w a).2 = none := by
  unfold handle login
  cases horigin : requireTrustedOrigin env (a.request.header "origin") with
  | error e => exact ⟨rfl, verdict_turnedAway_origin horigin⟩
  | ok =>
      dsimp only
      cases hnetwork : requestNetworkContext env.settings.network a.request with
      | error e => exact ⟨rfl, verdict_turnedAway_network hnetwork⟩
      | ok network =>
          have hclient : a.client env = some network.client := by rw [Attempt.client, hnetwork]
          exact absurd ⟨horigin, hclient⟩ (h network.client)

/-- What a call that gets to the throttle does to the failed logins. -/
inductive Handled (env : Environment) (w w' : World) (a : Attempt) (client : String) :
    Option Verdict → Prop
  | limited
      (full : env.settings.loginMaxFailures ≤ recentRows env client a.time w.db.loginFailures)
      (rows : w'.db.loginFailures = purged env a.time w.db.loginFailures)
      (administrators : w'.db.administrators = w.db.administrators) :
      Handled env w w' a client (some .limited)
  | failed
      (room : recentRows env client a.time w.db.loginFailures < env.settings.loginMaxFailures)
      (wrong : verifies env w a.credentials = false) (id : Uuid)
      (rows : w'.db.loginFailures =
        purged env a.time w.db.loginFailures ++ [⟨id, remoteDigest env client, a.time⟩])
      (administrators : w'.db.administrators = w.db.administrators) :
      Handled env w w' a client (some .failed)
  | passed
      (room : recentRows env client a.time w.db.loginFailures < env.settings.loginMaxFailures)
      (right : verifies env w a.credentials = true)
      (rows : w'.db.loginFailures = (purged env a.time w.db.loginFailures).filter fun f =>
        !(f.remoteDigest == remoteDigest env client))
      (administrators : w'.db.administrators =
        (verifyCredentials env w a.credentials).1.db.administrators) :
      Handled env w w' a client (some .passed)

/-- The password check looks at the administrators only. -/
theorem verifyCredentials_eq (env : Environment) {w w' : World}
    (h : w'.db.administrators = w.db.administrators) (credentials : Credentials) :
    (verifyCredentials env w' credentials).2 = (verifyCredentials env w credentials).2 ∧
      (verifyCredentials env w' credentials).1.db.administrators =
        (verifyCredentials env w credentials).1.db.administrators := by
  unfold verifyCredentials administrator
  rw [h]
  dsimp only
  split_ifs
  · exact ⟨rfl, h⟩
  · split
    · exact ⟨rfl, h⟩
    · split_ifs
      · exact ⟨rfl, rfl⟩
      · exact ⟨rfl, h⟩

/-- A password that is wrong changes nothing by itself. -/
theorem verifyCredentials_none {env : Environment} {w w' : World} {credentials : Credentials}
    (h : verifyCredentials env w credentials = (w', none)) : w' = w := by
  unfold verifyCredentials at h
  dsimp only at h
  split_ifs at h
  · exact (Prod.mk.inj h).1.symm
  · split at h
    · exact (Prod.mk.inj h).1.symm
    · split_ifs at h
      · exact absurd (Prod.mk.inj h).2 (Option.some_ne_none _)
      · exact absurd (Prod.mk.inj h).2 (Option.some_ne_none _)

theorem handle_reaches {env : Environment} {a : Attempt} {client : String}
    (h : a.Reaches env client) (w : World) :
    Handled env w (handle env w a).1 a client (verdict (handle env w a).2) := by
  obtain ⟨horigin, hclient⟩ := h
  rw [Attempt.client] at hclient
  cases hnetwork : requestNetworkContext env.settings.network a.request with
  | error e => rw [hnetwork] at hclient; cases hclient
  | ok network =>
      rw [hnetwork] at hclient
      obtain rfl : network.client = client := Option.some.inj hclient
      -- the world in which the password is checked
      let checked : World := { w with
        now := a.time
        db := { w.db with loginFailures := purged env a.time w.db.loginFailures } }
      obtain ⟨hcheck, hadministrators⟩ :=
        @verifyCredentials_eq env w checked rfl a.credentials
      have hrows := verifyCredentials_rows env checked a.credentials
      unfold handle login
      simp only [horigin, hnetwork, rateLimited_eq]
      by_cases hlimit : env.settings.loginMaxFailures ≤
          recentRows env network.client a.time w.db.loginFailures
      · simp only [hlimit, decide_true]
        exact .limited hlimit rfl rfl
      · simp only [hlimit, decide_false]
        rw [Nat.not_le] at hlimit
        split
        · rename_i after hchecked
          change verifyCredentials env checked a.credentials = (after, none) at hchecked
          rw [hchecked] at hcheck hadministrators hrows
          have hwrong : verifies env w a.credentials = false := by rw [verifies, ← hcheck]; rfl
          rw [verifyCredentials_none hchecked]
          exact .failed hlimit hwrong checked.nextId rfl rfl
        · rename_i after admin hchecked
          change verifyCredentials env checked a.credentials = (after, some admin) at hchecked
          rw [hchecked] at hcheck hadministrators hrows
          have hright : verifies env w a.credentials = true := by rw [verifies, ← hcheck]; rfl
          let cleared := (clearLoginFailures env after network.client).uuid4
          obtain ⟨hsessionRows, hsessionAdministrators, hverdict⟩ :=
            createAuthSession_spec env cleared.2 admin
              [⟨cleared.1, admin.username, "auth.login", "success", .id admin.id, []⟩]
          have hcleared : cleared.2.db.loginFailures = (purged env a.time w.db.loginFailures).filter
              fun f => !(f.remoteDigest == remoteDigest env network.client) := by
            rw [← show after.db.loginFailures = purged env a.time w.db.loginFailures from hrows]
            rfl
          show Handled env w (createAuthSession env cleared.2 admin _).1 a network.client
            (verdict (createAuthSession env cleared.2 admin _).2)
          rw [hverdict]
          exact .passed hlimit hright (hsessionRows.trans hcleared)
            (hsessionAdministrators.trans hadministrators)

/-! ### The rows of a client -/

section Rows

variable {env : Environment} {client other : String} {now later : Time}

theorem recentRows_purged (h : now ≤ later) (rows : List LoginFailureRecord) :
    recentRows env client later (purged env now rows) = recentRows env client later rows := by
  rw [recentRows, purged, List.countP_filter]
  apply List.countP_congr
  intro f _
  rw [Bool.and_eq_true]
  constructor
  · exact fun hboth => hboth.1
  · intro hrecent
    have hwindow : later ≤ f.attemptedAt + window env := by simp_all
    exact ⟨hrecent, decide_eq_true (h.trans hwindow)⟩

theorem recentRows_snoc (rows : List LoginFailureRecord) (row : LoginFailureRecord) :
    recentRows env client later (rows ++ [row]) = recentRows env client later rows +
      if row.remoteDigest = remoteDigest env client ∧ later ≤ row.attemptedAt + window env then 1
      else 0 := by
  rw [recentRows, List.countP_append, List.countP_singleton]
  simp only [Bool.and_eq_true, beq_iff_eq, decide_eq_true_eq]
  rfl

theorem recentRows_cleared (rows : List LoginFailureRecord) :
    recentRows env client later
      (rows.filter fun f => !(f.remoteDigest == remoteDigest env client)) = 0 := by
  rw [recentRows, List.countP_filter, List.countP_eq_zero]
  intro f _ hboth
  simp only [Bool.and_eq_true, Bool.not_eq_true', beq_iff_eq, beq_eq_false_iff_ne] at hboth
  exact hboth.2 hboth.1.1

theorem recentRows_cleared_other (h : remoteDigest env other ≠ remoteDigest env client)
    (rows : List LoginFailureRecord) :
    recentRows env client later
      (rows.filter fun f => !(f.remoteDigest == remoteDigest env other)) =
        recentRows env client later rows := by
  rw [recentRows, List.countP_filter]
  apply List.countP_congr
  intro f _
  rw [Bool.and_eq_true]
  constructor
  · exact fun hboth => hboth.1
  · intro hrecent
    have hclient : f.remoteDigest = remoteDigest env client := by simp_all
    refine ⟨hrecent, ?_⟩
    rw [hclient, Bool.not_eq_true', beq_eq_false_iff_ne]
    exact h.symm

end Rows

/-! ### The limiter of one client -/

/-- The table counts for a client what the limiter remembers, at every time from now on. -/
def Tracks (env : Environment) (client : String) (now : Time) (w : World) (failures : List Time) :
    Prop :=
  ∀ later, now ≤ later →
    recentRows env client later w.db.loginFailures = recent (window env) later failures

/-- The failures of a client in the table. -/
def failureTimes (env : Environment) (client : String) (w : World) : List Time :=
  (w.db.loginFailures.filter fun f => f.remoteDigest == remoteDigest env client).map
    LoginFailureRecord.attemptedAt

theorem recent_failureTimes (env : Environment) (client : String) (w : World) (later : Time) :
    recent (window env) later (failureTimes env client w) =
      recentRows env client later w.db.loginFailures := by
  rw [recent, failureTimes, List.countP_map, List.countP_filter, recentRows]
  apply List.countP_congr
  intro f _
  rw [Function.comp_apply, Bool.and_comm]

theorem tracks_failureTimes (env : Environment) (client : String) (now : Time) (w : World) :
    Tracks env client now w (failureTimes env client w) :=
  fun later _ => (recent_failureTimes env client w later).symm

/-- An attempt of the client is a step of its limiter. -/
theorem Tracks.step {env : Environment} {client : String} {w w' : World} {a : Attempt}
    {failures : List Time} {v : Option Verdict} (h : Tracks env client a.time w failures)
    (hhandled : Handled env w w' a client v) :
    v = some (SlidingWindow.step env.settings.loginMaxFailures (window env) failures a.time
        (verifies env w a.credentials)).2 ∧
      Tracks env client a.time w' (SlidingWindow.step env.settings.loginMaxFailures (window env)
        failures a.time (verifies env w a.credentials)).1 := by
  have hnow := h a.time (le_refl a.time)
  cases hhandled with
  | limited full rows _ =>
      rw [SlidingWindow.step_limited _ (hnow ▸ full)]
      refine ⟨rfl, fun later hlater => ?_⟩
      rw [rows, recentRows_purged hlater, h later hlater]
  | failed room wrong id rows _ =>
      rw [wrong, SlidingWindow.step_failed (hnow ▸ room)]
      refine ⟨rfl, fun later hlater => ?_⟩
      rw [rows, recentRows_snoc, recentRows_purged hlater, h later hlater,
        SlidingWindow.recent_append]
      simp
  | passed room right rows _ =>
      rw [right, SlidingWindow.step_passed (hnow ▸ room)]
      refine ⟨rfl, fun later hlater => ?_⟩
      rw [rows, recentRows_cleared]
      rfl

/-- An attempt of another client is none. -/
theorem Tracks.other {env : Environment} {client other : String} {w w' : World} {a : Attempt}
    {failures : List Time} {v : Option Verdict} (h : Tracks env client a.time w failures)
    (hother : remoteDigest env other ≠ remoteDigest env client)
    (hhandled : Handled env w w' a other v) : Tracks env client a.time w' failures := by
  intro later hlater
  rw [← h later hlater, ← recentRows_purged hlater w.db.loginFailures]
  cases hhandled with
  | limited _ rows _ => rw [rows]
  | failed _ _ id rows _ =>
      rw [rows, recentRows_snoc, if_neg fun hrow => hother hrow.1, Nat.add_zero]
  | passed _ _ rows _ => rw [rows, recentRows_cleared_other hother]

/-- The attempts of a client that get to the throttle, and whether their passwords are right. -/
def ownAttempts (env : Environment) (client : String) : World → List Attempt → List (Time × Bool)
  | _, [] => []
  | w, a :: rest =>
    let later := ownAttempts env client (handle env w a).1 rest
    if a.Reaches env client then (a.time, verifies env w a.credentials) :: later else later

theorem mem_ownAttempts {env : Environment} {client : String} {w : World}
    {attempts : List Attempt} {own : Time × Bool} (h : own ∈ ownAttempts env client w attempts) :
    ∃ a ∈ attempts, a.time = own.1 := by
  induction attempts generalizing w with
  | nil => exact absurd h List.not_mem_nil
  | cons a attempts ih =>
      rw [ownAttempts] at h
      have hlater (h : own ∈ ownAttempts env client (handle env w a).1 attempts) :
          ∃ b ∈ a :: attempts, b.time = own.1 := by
        obtain ⟨b, hb, htime⟩ := ih h
        exact ⟨b, List.mem_cons_of_mem a hb, htime⟩
      split_ifs at h
      · rw [List.mem_cons] at h
        cases h with
        | inl hhead => exact ⟨a, List.mem_cons_self, by rw [hhead]⟩
        | inr h => exact hlater h
      · exact hlater h

theorem ownAttempts_sorted {env : Environment} {client : String} {w : World}
    {attempts : List Attempt} (hsorted : attempts.Pairwise fun a b => a.time ≤ b.time) :
    ((ownAttempts env client w attempts).map Prod.fst).Pairwise (· ≤ ·) := by
  induction attempts generalizing w with
  | nil => exact .nil
  | cons a attempts ih =>
      rw [List.pairwise_cons] at hsorted
      obtain ⟨hlater, hsorted⟩ := hsorted
      rw [ownAttempts]
      split_ifs
      · rw [List.map_cons, List.pairwise_cons]
        refine ⟨?_, ih hsorted⟩
        intro time htime
        obtain ⟨own, hown, rfl⟩ := List.mem_map.mp htime
        obtain ⟨b, hb, htime⟩ := mem_ownAttempts hown
        exact htime ▸ hlater b hb
      · exact ih hsorted

theorem verdictsOf_cons (env : Environment) (client : String) (a : Attempt)
    (response : Except HttpError SessionResponse)
    (rest : List (Attempt × Except HttpError SessionResponse)) :
    verdictsOf env client ((a, response) :: rest) =
      (if a.client env = some client then (verdict response).map fun v => (a.time, v)
        else none).toList ++ verdictsOf env client rest := by
  rw [verdictsOf, List.filterMap_cons]
  split
  · rename_i hnone
    rw [hnone]
    rfl
  · rename_i entry hsome
    rw [hsome]
    rfl

/-- **Of each client, the service is the limiter on that client's own attempts.** -/
theorem verdictsOf_eq {env : Environment} {client : String} {clients : Set String}
    (hdigest : Set.InjOn (remoteDigest env) clients) (hclient : client ∈ clients)
    {attempts : List Attempt} (hsorted : attempts.Pairwise fun a b => a.time ≤ b.time)
    (hclients : ∀ a ∈ attempts, ∀ c, a.client env = some c → c ∈ clients) {w : World} {now : Time}
    {failures : List Time} (hnow : ∀ a ∈ attempts, now ≤ a.time)
    (htracks : Tracks env client now w failures) :
    verdictsOf env client (responses env w attempts) =
      SlidingWindow.run env.settings.loginMaxFailures (window env) failures
        (ownAttempts env client w attempts) := by
  induction attempts generalizing w now failures with
  | nil => rfl
  | cons a attempts ih =>
      rw [List.pairwise_cons] at hsorted
      obtain ⟨hlater, hsorted⟩ := hsorted
      have htime : Tracks env client a.time w failures := fun later hle =>
        htracks later ((hnow a List.mem_cons_self).trans hle)
      have hrest {failures : List Time}
          (h : Tracks env client a.time (handle env w a).1 failures) :=
        ih hsorted (fun b hb => hclients b (List.mem_cons_of_mem a hb)) hlater h
      rw [responses, verdictsOf_cons, ownAttempts]
      by_cases hreaches : a.Reaches env client
      · obtain ⟨hverdict, htracks⟩ := htime.step (handle_reaches hreaches w)
        rw [if_pos hreaches.2, if_pos hreaches, hverdict, hrest htracks, SlidingWindow.run]
        rfl
      · rw [if_neg hreaches]
        by_cases hsome : ∃ other, a.Reaches env other
        · obtain ⟨other, hother⟩ := hsome
          have hne : a.client env ≠ some client := fun h => hreaches ⟨hother.1, h⟩
          have hdigests : remoteDigest env other ≠ remoteDigest env client := by
            intro hsame
            have := hdigest (hclients a List.mem_cons_self other hother.2) hclient hsame
            exact hne (this ▸ hother.2)
          rw [if_neg hne, hrest (htime.other hdigests (handle_reaches hother w))]
          rfl
        · have hturned := handle_turnedAway (not_exists.mp hsome) w
          have htracks : Tracks env client a.time (handle env w a).1 failures := by
            rw [Tracks, hturned.1]
            exact htime
          rw [hturned.2, hrest htracks]
          split_ifs <;> rfl

/-! ### Other clients -/

/-- A new hash of a password is one of the same password. -/
def Rehashes (env : Environment) : Prop :=
  ∀ saved password other, env.verify saved password = true →
    env.verify (env.hash password) other = env.verify saved other

theorem verifies_eq (env : Environment) (w : World) (credentials : Credentials) :
    verifies env w credentials =
      (administrator w.db).any fun admin => admin.username == credentials.username &&
        env.verify admin.passwordHash credentials.password := by
  unfold verifies verifyCredentials
  cases hadmin : administrator w.db with
  | none =>
      dsimp only [Option.filter_none]
      split_ifs <;> rfl
  | some admin =>
      cases hname : admin.username == credentials.username with
      | false =>
          have hfilter : (some admin).filter (fun a => a.username == credentials.username) = none := by
            rw [Option.filter_some, if_neg (by rw [hname]; exact Bool.false_ne_true)]
          rw [hfilter]
          dsimp only
          split_ifs <;> simp [hname]
      | true =>
          have hfilter :
              (some admin).filter (fun a => a.username == credentials.username) = some admin := by
            rw [Option.filter_some, if_pos hname]
          rw [hfilter]
          simp only [Option.map_some, Option.getD_some]
          cases hverify : env.verify admin.passwordHash credentials.password with
          | false => simp [hverify]
          | true =>
              simp only [Bool.not_true, Bool.false_eq_true, if_false]
              split_ifs <;> simp [hname, hverify]

/-- The password check leaves the administrator, or gives it a new hash of a right password. -/
theorem administrator_after (env : Environment) (w : World) (used : Credentials) :
    administrator (verifyCredentials env w used).1.db = administrator w.db ∨
      ∃ admin, administrator w.db = some admin ∧
        env.verify admin.passwordHash used.password = true ∧
        administrator (verifyCredentials env w used).1.db =
          some { admin with passwordHash := env.hash used.password } := by
  unfold verifyCredentials
  dsimp only
  split_ifs with hwrong
  · exact .inl rfl
  · split
    · exact .inl rfl
    · rename_i admin hadmin
      obtain ⟨hsome, -⟩ := Option.filter_eq_some_iff.mp hadmin
      split_ifs
      · refine .inr ⟨admin, hsome, ?_, ?_⟩
        · rw [hadmin] at hwrong
          simpa using hwrong
        · unfold administrator at hsome ⊢
          dsimp only
          rw [List.head?_map, hsome]
          simp
      · exact .inl rfl

/-- A password that was right is right after its hash was renewed, and no other becomes so. -/
theorem verifies_after {env : Environment} (hrehash : Rehashes env) (w : World)
    (used credentials : Credentials) :
    verifies env (verifyCredentials env w used).1 credentials = verifies env w credentials := by
  rw [verifies_eq, verifies_eq]
  cases administrator_after env w used with
  | inl hsame => rw [hsame]
  | inr hrenewed =>
      obtain ⟨admin, hadmin, hright, hafter⟩ := hrenewed
      rw [hafter, hadmin]
      simp only [Option.any_some]
      rw [hrehash _ _ _ hright]

theorem verifies_congr {env : Environment} {w w' : World}
    (h : w'.db.administrators = w.db.administrators) (credentials : Credentials) :
    verifies env w' credentials = verifies env w credentials := by
  rw [verifies, (verifyCredentials_eq env h credentials).1, verifies]

theorem verifies_handle {env : Environment} (hrehash : Rehashes env) (w : World) (a : Attempt)
    (credentials : Credentials) :
    verifies env (handle env w a).1 credentials = verifies env w credentials := by
  by_cases hsome : ∃ client, a.Reaches env client
  · obtain ⟨client, hreaches⟩ := hsome
    have hhandled := handle_reaches hreaches w
    generalize verdict (handle env w a).2 = v at hhandled
    cases hhandled with
    | limited _ _ administrators => exact verifies_congr administrators credentials
    | failed _ _ _ _ administrators => exact verifies_congr administrators credentials
    | passed _ _ _ administrators =>
        rw [verifies_congr administrators, verifies_after hrehash]
  · apply verifies_congr
    rw [(handle_turnedAway (not_exists.mp hsome) w).1]

theorem ownAttempts_eq {env : Environment} (hrehash : Rehashes env) (client : String)
    (w₀ w : World) (hsame : ∀ credentials, verifies env w credentials = verifies env w₀ credentials)
    (attempts : List Attempt) :
    ownAttempts env client w attempts =
      (attempts.filter fun a => decide (a.Reaches env client)).map fun a =>
        (a.time, verifies env w₀ a.credentials) := by
  induction attempts generalizing w with
  | nil => rfl
  | cons a attempts ih =>
      have hrest := ih (handle env w a).1 fun credentials =>
        (verifies_handle hrehash w a credentials).trans (hsame credentials)
      rw [ownAttempts, hrest, hsame, List.filter_cons]
      simp only [decide_eq_true_eq]
      split_ifs
      · rw [List.map_cons]
      · rfl

/-- The attempts of other clients can be left out. -/
theorem ownAttempts_filter {env : Environment} (hrehash : Rehashes env) (client : String)
    (w : World) (attempts : List Attempt) :
    ownAttempts env client w (attempts.filter fun a => decide (a.client env = some client)) =
      ownAttempts env client w attempts := by
  rw [ownAttempts_eq hrehash client w w fun _ => rfl, ownAttempts_eq hrehash client w w fun _ => rfl,
    List.filter_filter]
  congr 2
  funext a
  rw [← Bool.decide_and]
  exact decide_eq_decide.mpr ⟨fun h => h.1, fun h => ⟨h, h.2⟩⟩

/-! ### The throttle -/

/-- An attempt of the client in an interval as long as the window got to the password check and
failed it. -/
def failsWithin (env : Environment) (client : String) (start : Time)
    (entry : Attempt × Except HttpError SessionResponse) : Bool :=
  decide (entry.1.client env = some client ∧ verdict entry.2 = some .failed ∧
    start ≤ entry.1.time ∧ entry.1.time ≤ start + window env)

/-- An attempt of the client in the window behind a time got to the password check and failed it. -/
def failedBehind (env : Environment) (client : String) (now : Time)
    (entry : Attempt × Except HttpError SessionResponse) : Bool :=
  decide (entry.1.client env = some client ∧ verdict entry.2 = some .failed ∧
    now ≤ entry.1.time + window env)

theorem countP_failsWithin (env : Environment) (client : String) (start : Time)
    (entries : List (Attempt × Except HttpError SessionResponse)) :
    entries.countP (failsWithin env client start) = (verdictsOf env client entries).countP
      (SlidingWindow.failedWithin start (start + window env)) := by
  rw [verdictsOf, List.countP_filterMap]
  apply List.countP_congr
  intro entry _
  by_cases hclient : entry.1.client env = some client
  · cases hverdict : verdict entry.2 with
    | none => simp [failsWithin, hclient, hverdict]
    | some v =>
        cases v <;>
          simp [failsWithin, SlidingWindow.failedWithin, hclient, hverdict]
  · simp [failsWithin, hclient]

theorem countP_failedBehind (env : Environment) (client : String) (now : Time)
    (entries : List (Attempt × Except HttpError SessionResponse)) :
    entries.countP (failedBehind env client now) = (verdictsOf env client entries).countP
      (SlidingWindow.failedSince (window env) now) := by
  rw [verdictsOf, List.countP_filterMap]
  apply List.countP_congr
  intro entry _
  by_cases hclient : entry.1.client env = some client
  · cases hverdict : verdict entry.2 with
    | none => simp [failedBehind, hclient, hverdict]
    | some v =>
        cases v <;>
          simp [failedBehind, SlidingWindow.failedSince, hclient, hverdict]
  · simp [failedBehind, hclient]

theorem mem_verdictsOf {env : Environment} {client : String}
    {entries : List (Attempt × Except HttpError SessionResponse)} {own : Time × Verdict}
    (h : own ∈ verdictsOf env client entries) :
    ∃ entry ∈ entries, entry.1.client env = some client ∧ entry.1.time = own.1 ∧
      verdict entry.2 = some own.2 := by
  obtain ⟨entry, hentry, hown⟩ := List.mem_filterMap.mp h
  split_ifs at hown with hclient
  obtain ⟨v, hverdict, rfl⟩ := Option.map_eq_some_iff.mp hown
  exact ⟨entry, hentry, hclient, rfl, hverdict⟩

/-- **Throttling is a sliding-window bound.**  In an interval as long as the window in which none of
a client's attempts passes, no more than `login_max_failures` of them get to the password check and
fail.  An attempt is refused only for so many failures of the same client in the window behind it,
and what becomes of a client's attempts is the same without the attempts of others. -/
theorem login_throttled (env : Environment) {clients : Set String}
    (hdigest : Set.InjOn (remoteDigest env) clients) (w : World) {attempts : List Attempt}
    (hsorted : attempts.Pairwise fun a b => a.time ≤ b.time)
    (hclients : ∀ a ∈ attempts, ∀ c, a.client env = some c → c ∈ clients)
    {client : String} (hclient : client ∈ clients) :
    (∀ start,
      (∀ entry ∈ responses env w attempts, entry.1.client env = some client →
        start ≤ entry.1.time → entry.1.time ≤ start + window env →
          verdict entry.2 ≠ some .passed) →
      (responses env w attempts).countP (failsWithin env client start) ≤
        env.settings.loginMaxFailures) ∧
    (∀ before entry after, responses env w attempts = before ++ entry :: after →
      entry.1.client env = some client → verdict entry.2 = some .limited →
      env.settings.loginMaxFailures ≤ recentRows env client entry.1.time w.db.loginFailures +
        before.countP (failedBehind env client entry.1.time)) ∧
    (Rehashes env → verdictsOf env client (responses env w attempts) =
      verdictsOf env client
        (responses env w (attempts.filter fun a => decide (a.client env = some client)))) := by
  have hverdicts := verdictsOf_eq hdigest hclient hsorted hclients (fun a _ => Nat.zero_le a.time)
    (tracks_failureTimes env client 0 w)
  refine ⟨?_, ?_, ?_⟩
  · intro start hpassed
    rw [countP_failsWithin, hverdicts]
    apply SlidingWindow.failedWithin_le (ownAttempts_sorted hsorted)
    intro own hown hstart hfinish hpassing
    rw [← hverdicts] at hown
    obtain ⟨entry, hentry, howner, htime, hverdict⟩ := mem_verdictsOf hown
    rw [← htime] at hstart hfinish
    exact hpassed entry hentry howner hstart hfinish (hpassing ▸ hverdict)
  · intro before entry after hsplit howner hlimited
    rw [hsplit, verdictsOf, List.filterMap_append, List.filterMap_cons, if_pos howner,
      hlimited] at hverdicts
    have hlimit := SlidingWindow.limit_le_of_limited hverdicts.symm
    rwa [recent_failureTimes, ← verdictsOf, ← countP_failedBehind] at hlimit
  · intro hrehash
    have hown : ∀ a ∈ attempts.filter fun a => decide (a.client env = some client), a ∈ attempts :=
      fun a ha => List.mem_of_mem_filter ha
    rw [hverdicts, verdictsOf_eq hdigest hclient (hsorted.sublist List.filter_sublist)
      (fun a ha => hclients a (hown a ha)) (fun a _ => Nat.zero_le a.time)
      (tracks_failureTimes env client 0 w), ownAttempts_filter hrehash]

/-- A login with a wrong password. -/
def wrongPassword (time : Time) : Attempt :=
  ⟨time, ⟨"admin", "guess"⟩, { clientHost := some "10.0.0.2", method := "POST" }⟩

theorem login_throttled_guesses :
    (responses plainEnvironment {} [wrongPassword 0, wrongPassword 60]).countP
      (failsWithin plainEnvironment "10.0.0.2" 0) ≤ 5 := by
  have hguess : ∀ a ∈ [wrongPassword 0, wrongPassword 60],
      a.client plainEnvironment = some "10.0.0.2" := by decide
  have hclients : ∀ a ∈ [wrongPassword 0, wrongPassword 60], ∀ c,
      a.client plainEnvironment = some c → c ∈ ({"10.0.0.2"} : Set String) :=
    fun a ha c hc => Option.some.inj (hc.symm.trans (hguess a ha))
  have hfailed : ∀ entry ∈ responses plainEnvironment {} [wrongPassword 0, wrongPassword 60],
      verdict entry.2 = some .failed := by decide
  refine (login_throttled plainEnvironment (Set.injOn_singleton _ _) {} (by decide) hclients
    (Set.mem_singleton _)).1 0 ?_
  intro entry hentry _ _ _
  rw [hfailed entry hentry]
  decide

end MachineDeck.Auth

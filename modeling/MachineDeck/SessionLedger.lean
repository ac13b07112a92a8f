import MachineDeck.AuthService
import MachineDeck.GuardedRuns
import Mathlib.Data.Set.Function
import Mathlib.Data.List.Nodup

/-!
# The guard accepts the live session

* `Grant` — a session as its client knows it: the cookie it was given, the CSRF token it was
  last given, when it ends and when it was logged out;
* `AuthCall`, `serve`, `observe` — the calls, what they do to the tables and what the ledger of
  grants learns from their responses;
* `Accepts` — what a request has to show;
* `Agrees` — the session table is the ledger with every secret replaced by its digest;
* `guard_exact` — `requireHttpAuth` is `Accepts`, and what is over stays over.
-/

namespace MachineDeck.Auth

open GuardedRuns

/-! ### The ledger -/

structure Grant where
  session : Uuid
  administrator : Uuid
  token : String
  csrf : String
  expiresAt : Time
  closedAt : Option Time := none
  deriving DecidableEq, Repr

/-- The row that stands for the grant. -/
def Grant.row (env : Environment) (g : Grant) : AuthSessionRecord :=
  ⟨g.session, g.administrator, env.digest g.token, env.digest g.csrf, g.expiresAt, g.closedAt⟩

def Grant.over (now : Time) (g : Grant) : Prop := g.closedAt ≠ none ∨ g.expiresAt ≤ now

def Grant.ofResponse (r : SessionResponse) : Grant :=
  ⟨r.session, r.administrator, r.cookie.getD "", r.csrfToken, r.expiresAt, none⟩

inductive AuthCall where
  | setup (credentials : Credentials) (request : Request)
  | login (credentials : Credentials) (request : Request)
  | currentSession (request : Request)
  | logout (request : Request)
  | pass (seconds : ℕ)

def serve (env : Environment) (w : World) :
    AuthCall → World × Except HttpError (Option SessionResponse)
  | .setup credentials request =>
    let (w, response) := setup env w credentials request
    (w, response.map some)
  | .login credentials request =>
    let (w, response) := login env w credentials request
    (w, response.map some)
  | .currentSession request =>
    let (w, response) := currentSession env w request
    (w, response.map some)
  | .logout request =>
    let (w, response) := logout env w request
    (w, response.map fun _ => none)
  | .pass seconds => ({ w with now := w.now + seconds }, .ok none)

def changeGrant (ledger : List Grant) (cookie : Option String) (change : Grant → Grant) :
    List Grant :=
  ledger.map fun g => if cookie = some g.token then change g else g

/-- A response that sets the cookie opens a grant; the other two belong to the cookie sent. -/
def observe (now : Time) (ledger : List Grant) (call : AuthCall)
    (response : Except HttpError (Option SessionResponse)) : List Grant :=
  match call, response with
  | .setup _ _, .ok (some r) | .login _ _, .ok (some r) => ledger ++ [Grant.ofResponse r]
  | .currentSession request, .ok (some r) =>
    changeGrant ledger request.cookie fun g => { g with csrf := r.csrfToken }
  | .logout request, .ok none =>
    changeGrant ledger request.cookie fun g => { g with closedAt := some now }
  | _, _ => ledger

/-- One call, seen by the tables and by the ledger. -/
def Serves (env : Environment) (before : World × List Grant) (call : AuthCall)
    (after : World × List Grant) : Prop :=
  after = ((serve env before.1 call).1,
    observe before.1.now before.2 call (serve env before.1 call).2)

/-! ### What the digest has to tell apart -/

/-- Texts without two of one digest, every token that can be drawn among them. -/
structure Distinguishes (env : Environment) (texts : Set String) : Prop where
  injective : Set.InjOn env.digest texts
  tokens : ∀ n, env.tokenUrlsafe n ∈ texts

def Request.presents (texts : Set String) (request : Request) : Prop :=
  (∀ token, request.cookie = some token → token ∈ texts) ∧
    ∀ csrf, request.header "x-csrf-token" = some csrf → csrf ∈ texts

def AuthCall.presents (texts : Set String) : AuthCall → Prop
  | .setup _ request | .login _ request => request.presents texts
  | .currentSession request | .logout request => request.presents texts
  | .pass _ => True

/-- What a request has to show to be served. -/
def Accepts (env : Environment) (w : World) (ledger : List Grant) (request : Request) : Prop :=
  ∃ g ∈ ledger, request.cookie = some g.token ∧ g.closedAt = none ∧ w.now < g.expiresAt ∧
    (∃ a ∈ w.db.administrators, a.id = g.administrator) ∧
    (request.method ∉ safeMethods →
      (∀ origin, request.header "origin" = some origin → originIsTrusted env origin = true) ∧
      request.header "x-csrf-token" = some g.csrf)

/-! ### Tables and ledger agree -/

def Environment.issued (env : Environment) (text : String) : Prop :=
  ∃ n, text = env.tokenUrlsafe n

theorem Environment.issued_ne_empty {env : Environment} {text : String} (h : env.issued text) :
    text ≠ "" := by
  obtain ⟨n, rfl⟩ := h
  exact env.token_ne_empty n

theorem Distinguishes.eq_of_digest {env : Environment} {texts : Set String}
    (hd : Distinguishes env texts) {text token : String} (htext : text ∈ texts)
    (htoken : env.issued token) (h : env.digest text = env.digest token) : text = token := by
  obtain ⟨n, rfl⟩ := htoken
  exact hd.injective htext (hd.tokens n) h

structure Agrees (env : Environment) (w : World) (ledger : List Grant) : Prop where
  rows : w.db.authSessions = ledger.map (Grant.row env)
  issued : ∀ g ∈ ledger, env.issued g.token ∧ env.issued g.csrf
  bounded : ∀ g ∈ ledger, g.session < w.nextId
  sessions : (ledger.map Grant.session).Nodup
  tokens : (ledger.map Grant.token).Nodup

theorem Agrees.eq_of_token {env : Environment} {w : World} {ledger : List Grant}
    (ha : Agrees env w ledger) {g g' : Grant} (hg : g ∈ ledger) (hg' : g' ∈ ledger)
    (h : g.token = g'.token) : g = g' :=
  List.inj_on_of_nodup_map ha.tokens hg hg' h

theorem Agrees.eq_of_session {env : Environment} {w : World} {ledger : List Grant}
    (ha : Agrees env w ledger) {g g' : Grant} (hg : g ∈ ledger) (hg' : g' ∈ ledger)
    (h : g.session = g'.session) : g = g' :=
  List.inj_on_of_nodup_map ha.sessions hg hg' h

/-! ### The guard, in terms of the ledger -/

section Guard

variable {env : Environment} {texts : Set String} {w : World} {ledger : List Grant}

/-- A search finds the one entry that it can find. -/
theorem find_unique {α : Type} {l : List α} {p : α → Bool} {x : α} (hx : x ∈ l) (hp : p x = true)
    (hunique : ∀ y ∈ l, p y = true → y = x) : l.find? p = some x := by
  cases h : l.find? p with
  | none => exact absurd hp (List.find?_eq_none.mp h x hx)
  | some y => rw [hunique y (List.mem_of_find?_eq_some h) (List.find?_some h)]

theorem Agrees.find_token (ha : Agrees env w ledger) (hd : Distinguishes env texts)
    {token : String} (htoken : token ∈ texts) (s : AuthSessionRecord) :
    w.db.authSessions.find? (fun s => s.tokenDigest == env.digest token) = some s ↔
      ∃ g ∈ ledger, g.token = token ∧ s = g.row env := by
  have hmatch : ∀ g ∈ ledger, (g.row env).tokenDigest = env.digest token → g.token = token := by
    intro g hg h
    exact (hd.eq_of_digest htoken (ha.issued g hg).1 h.symm).symm
  rw [ha.rows]
  constructor
  · intro h
    obtain ⟨g, hg, rfl⟩ := List.mem_map.mp (List.mem_of_find?_eq_some h)
    exact ⟨g, hg, hmatch g hg (by simpa using List.find?_some h), rfl⟩
  · rintro ⟨g, hg, rfl, rfl⟩
    apply find_unique (List.mem_map_of_mem hg) (by simp [Grant.row])
    intro s hs hdigest
    obtain ⟨g', hg', rfl⟩ := List.mem_map.mp hs
    rw [ha.eq_of_token hg' hg (hmatch g' hg' (by simpa using hdigest))]

theorem Agrees.find_session (ha : Agrees env w ledger) {g : Grant} (hg : g ∈ ledger) :
    w.db.authSessions.find? (fun s => s.id == g.session) = some (g.row env) := by
  rw [ha.rows]
  apply find_unique (List.mem_map_of_mem hg) (by simp [Grant.row])
  intro s hs hid
  obtain ⟨g', hg', rfl⟩ := List.mem_map.mp hs
  rw [ha.eq_of_session hg' hg (by simpa [Grant.row] using hid)]

theorem Grant.live_row (env : Environment) (now : Time) (g : Grant) :
    live now (g.row env) = true ↔ g.closedAt = none ∧ now < g.expiresAt := by
  unfold live
  rw [Bool.and_eq_true, decide_eq_true_iff, Option.isNone_iff_eq_none]
  rfl

theorem Agrees.authenticateToken_iff (ha : Agrees env w ledger) (hd : Distinguishes env texts)
    {cookie : Option String} (hcookie : ∀ token, cookie = some token → token ∈ texts)
    (a : AuthenticatedSession) :
    authenticateToken env w cookie = some a ↔
      ∃ g ∈ ledger, cookie = some g.token ∧ g.closedAt = none ∧ w.now < g.expiresAt ∧
        w.db.administrators.find? (fun x => x.id == g.administrator) = some a.administrator ∧
        a.session = g.row env := by
  unfold authenticateToken
  constructor
  · intro h
    simp only [Option.bind_eq_bind, Option.bind_eq_some_iff, Option.filter_eq_some_iff] at h
    obtain ⟨token, ⟨htoken, -⟩, s, hs, h⟩ := h
    obtain ⟨g, hg, hgt, rfl⟩ := (ha.find_token hd (hcookie token htoken) s).mp hs
    by_cases hlive : live w.now (g.row env) = true
    · simp only [hlive, Bool.not_true, Bool.false_eq_true, if_false, Option.bind_eq_some_iff] at h
      obtain ⟨admin, hadmin, h⟩ := h
      cases h
      obtain ⟨hopen, hnow⟩ := (g.live_row env w.now).mp hlive
      exact ⟨g, hg, by rw [htoken, hgt], hopen, hnow, hadmin, rfl⟩
    · simp [hlive] at h
  · rintro ⟨g, hg, hgt, hopen, hnow, hadmin, hs⟩
    have hne : g.token ≠ "" := Environment.issued_ne_empty (ha.issued g hg).1
    have hfind := (ha.find_token hd (hcookie g.token hgt) (g.row env)).mpr ⟨g, hg, rfl, rfl⟩
    have hlive := (g.live_row env w.now).mpr ⟨hopen, hnow⟩
    have hfilter : cookie.filter (· ≠ "") = some g.token := by
      rw [Option.filter_eq_some_iff]
      exact ⟨hgt, by simpa using hne⟩
    have hadmin' : w.db.administrators.find? (fun x => x.id == (g.row env).administratorId) =
        some a.administrator := hadmin
    simp only [Option.bind_eq_bind, hfilter, Option.bind_some, hfind, hlive, Bool.not_true,
      Bool.false_eq_true, if_false, hadmin']
    rw [← hs]
    rfl

/-- What the guard asks of a request with the session found. -/
theorem requireHttpAuth_eq_ok (env : Environment) (w : World) (request : Request)
    (a : AuthenticatedSession) :
    requireHttpAuth env w request = .ok a ↔
      authenticateToken env w request.cookie = some a ∧
      (request.method ∉ safeMethods →
        (∀ o, request.header "origin" = some o → originIsTrusted env o = true) ∧
        ∃ csrf, request.header "x-csrf-token" = some csrf ∧ csrf ≠ "" ∧
          env.digest csrf = a.session.csrfDigest) := by
  unfold requireHttpAuth
  cases hauth : authenticateToken env w request.cookie with
  | none => simp
  | some found =>
    by_cases hsafe : request.method ∈ safeMethods
    · simp [hsafe, pure, Except.pure]
    · simp only [hsafe, if_false, not_false_eq_true, forall_const]
      rw [← requireTrustedOrigin_ok]
      cases horigin : requireTrustedOrigin env (request.header "origin") with
      | error e => simp [bind, Except.bind]
      | ok _ =>
        simp only [bind, Except.bind, true_and]
        cases hcsrf : (request.header "x-csrf-token").filter (· ≠ "") with
        | none =>
          simp only [reduceCtorEq, false_iff, not_and, not_exists]
          intro _ csrf h hne
          simp [h, hne] at hcsrf
        | some csrf =>
          obtain ⟨hheader, hne⟩ := Option.filter_eq_some_iff.mp hcsrf
          by_cases hdigest : env.digest csrf = found.session.csrfDigest
          · simp only [hdigest, if_true, pure, Except.pure, Except.ok.injEq, Option.some.injEq,
              iff_self_and]
            rintro rfl
            exact ⟨csrf, hheader, by simpa using hne, hdigest⟩
          · simp only [hdigest, if_false, reduceCtorEq, false_iff, not_and, not_exists]
            intro hfound csrf' hheader' _ hdigest'
            rw [hheader, Option.some.injEq] at hheader'
            rw [← hheader', ← Option.some.inj hfound] at hdigest'
            exact hdigest hdigest'

theorem Agrees.requireHttpAuth_iff (ha : Agrees env w ledger) (hd : Distinguishes env texts)
    {request : Request} (hr : request.presents texts) :
    (∃ a, requireHttpAuth env w request = .ok a) ↔ Accepts env w ledger request := by
  simp only [requireHttpAuth_eq_ok, ha.authenticateToken_iff hd hr.1]
  constructor
  · rintro ⟨a, ⟨g, hg, hcookie, hopen, hnow, hadmin, hs⟩, hwrite⟩
    refine ⟨g, hg, hcookie, hopen, hnow, ?_, fun hmethod => ?_⟩
    · exact ⟨a.administrator, List.mem_of_find?_eq_some hadmin, by simpa using List.find?_some hadmin⟩
    · obtain ⟨horigin, csrf, hheader, -, hdigest⟩ := hwrite hmethod
      rw [hs] at hdigest
      rw [← hd.eq_of_digest (hr.2 csrf hheader) (ha.issued g hg).2 hdigest]
      exact ⟨horigin, hheader⟩
  · rintro ⟨g, hg, hcookie, hopen, hnow, ⟨x, hx, hxid⟩, hwrite⟩
    have hsome : (w.db.administrators.find? fun x => x.id == g.administrator).isSome :=
      List.find?_isSome.mpr ⟨x, hx, by simp [hxid]⟩
    obtain ⟨admin, hadmin⟩ := Option.isSome_iff_exists.mp hsome
    refine ⟨⟨admin, g.row env⟩, ⟨g, hg, hcookie, hopen, hnow, hadmin, rfl⟩, fun hmethod => ?_⟩
    obtain ⟨horigin, hheader⟩ := hwrite hmethod
    exact ⟨horigin, g.csrf, hheader, Environment.issued_ne_empty (ha.issued g hg).2, rfl⟩

end Guard

/-! ### Calls that leave the sessions alone -/

/-- The same sessions at the same time, and no id given twice. -/
structure SameSessions (w w' : World) : Prop where
  sessions : w'.db.authSessions = w.db.authSessions
  nextId : w.nextId ≤ w'.nextId
  now : w'.now = w.now

section Calls

variable {env : Environment} {texts : Set String} {w w' : World} {ledger : List Grant}

theorem SameSessions.refl (w : World) : SameSessions w w := ⟨rfl, le_refl _, rfl⟩

theorem SameSessions.trans {w₁ w₂ w₃ : World} (h : SameSessions w₁ w₂) (h' : SameSessions w₂ w₃) :
    SameSessions w₁ w₃ :=
  ⟨h'.sessions.trans h.sessions, h.nextId.trans h'.nextId, h'.now.trans h.now⟩

theorem Agrees.same (ha : Agrees env w ledger) (h : SameSessions w w') : Agrees env w' ledger where
  rows := h.sessions.trans ha.rows
  issued := ha.issued
  bounded := fun g hg => lt_of_lt_of_le (ha.bounded g hg) h.nextId
  sessions := ha.sessions
  tokens := ha.tokens

theorem addEvent_same (w : World) (actor action result : String) (target : AuditTarget)
    (details : List (String × String)) :
    SameSessions w (addEvent w actor action result target details) :=
  ⟨rfl, Nat.le_succ _, rfl⟩

theorem commitAdministrator_same (env : Environment) (w : World) (credentials : Credentials) :
    SameSessions w (commitAdministrator env w credentials).1 := by
  unfold commitAdministrator
  simp only [World.uuid4]
  split
  · exact ⟨rfl, Nat.le_add_right w.nextId 2, rfl⟩
  · rename_i db hdb
    unfold insertAdministrator at hdb
    split at hdb
    · cases hdb
    · cases hdb
      exact ⟨rfl, Nat.le_add_right w.nextId 2, rfl⟩

theorem createAdministrator_same (env : Environment) (w : World) (credentials : Credentials) :
    SameSessions w (createAdministrator env w credentials).1 := by
  unfold createAdministrator
  split
  · exact SameSessions.refl w
  · exact commitAdministrator_same env w credentials

theorem rateLimited_same (env : Environment) (w : World) (remote : String) :
    SameSessions w (rateLimited env w remote).1 :=
  ⟨rfl, le_refl _, rfl⟩

theorem recordLoginFailure_same (env : Environment) (w : World) (remote reason : String) :
    SameSessions w (recordLoginFailure env w remote reason) :=
  ⟨rfl, Nat.le_add_right w.nextId 2, rfl⟩

theorem clearLoginFailures_same (env : Environment) (w : World) (remote : String) :
    SameSessions w (clearLoginFailures env w remote) :=
  ⟨rfl, le_refl _, rfl⟩

theorem verifyCredentials_same (env : Environment) (w : World) (credentials : Credentials) :
    SameSessions w (verifyCredentials env w credentials).1 := by
  unfold verifyCredentials
  simp only
  split
  · exact SameSessions.refl w
  · split
    · exact SameSessions.refl w
    · split
      · exact ⟨rfl, le_refl _, rfl⟩
      · exact SameSessions.refl w

/-! ### Calls that open or change a session -/

/-- The ledger after a response that may open a grant. -/
def opened (ledger : List Grant) : Except HttpError SessionResponse → List Grant
  | .ok r => ledger ++ [Grant.ofResponse r]
  | .error _ => ledger

theorem Agrees.createAuthSession (ha : Agrees env w ledger) (admin : AdministratorRecord)
    (events : List AuthEvent) :
    Agrees env (createAuthSession env w admin events).1
      (opened ledger (createAuthSession env w admin events).2) := by
  unfold Auth.createAuthSession
  simp only [Environment.secret, World.uuid4]
  split
  · exact ha.same ⟨rfl, Nat.le_succ _, rfl⟩
  · rename_i db hdb
    unfold insertSession at hdb
    split at hdb
    · cases hdb
    · rename_i hfresh
      cases hdb
      simp only [opened, Grant.ofResponse, Option.getD_some]
      have hnew : ∀ g ∈ ledger, g.token ≠ env.tokenUrlsafe w.drawn := by
        intro g hg htoken
        apply hfresh
        rw [List.any_eq_true]
        refine ⟨g.row env, ?_, by simp [Grant.row, htoken]⟩
        show g.row env ∈ w.db.authSessions
        rw [ha.rows]
        exact List.mem_map_of_mem hg
      constructor
      · show w.db.authSessions ++ [_] = _
        rw [List.map_append, ha.rows]
        rfl
      · intro g hg
        rcases List.mem_append.mp hg with hg | hg
        · exact ha.issued g hg
        · rw [List.mem_singleton.mp hg]
          exact ⟨⟨_, rfl⟩, ⟨_, rfl⟩⟩
      · intro g hg
        rcases List.mem_append.mp hg with hg | hg
        · exact Nat.lt_succ_of_lt (ha.bounded g hg)
        · rw [List.mem_singleton.mp hg]
          exact Nat.lt_succ_self _
      · rw [List.map_append, List.nodup_append]
        refine ⟨ha.sessions, List.nodup_singleton _, ?_⟩
        intro a hold b hnew' hab
        obtain ⟨g, hg, rfl⟩ := List.mem_map.mp hold
        exact absurd (hab.trans (List.mem_singleton.mp hnew')) (ha.bounded g hg).ne
      · rw [List.map_append, List.nodup_append]
        refine ⟨ha.tokens, List.nodup_singleton _, ?_⟩
        intro a hold b hnew' hab
        obtain ⟨g, hg, rfl⟩ := List.mem_map.mp hold
        exact hnew g hg (hab.trans (List.mem_singleton.mp hnew'))

theorem map_changeGrant {α : Type} (f : Grant → α) (ledger : List Grant) (cookie : Option String)
    (change : Grant → Grant) (h : ∀ g, f (change g) = f g) :
    (changeGrant ledger cookie change).map f = ledger.map f := by
  rw [changeGrant, List.map_map]
  apply List.map_congr_left
  intro g _
  show f (if cookie = some g.token then change g else g) = f g
  split
  · exact h g
  · rfl

/-- A change of the row of one session is that change of the one grant with its token. -/
theorem Agrees.change (ha : Agrees env w ledger) {g : Grant} (hg : g ∈ ledger)
    (change : Grant → Grant) (changeRow : AuthSessionRecord → AuthSessionRecord)
    (hrow : ∀ g, (change g).row env = changeRow (g.row env))
    (hsession : ∀ g, (change g).session = g.session) (htoken : ∀ g, (change g).token = g.token)
    (hcsrf : ∀ g, env.issued g.csrf → env.issued (change g).csrf)
    (hw : w'.db.authSessions = (updateSession w.db g.session changeRow).authSessions)
    (hnext : w.nextId ≤ w'.nextId) :
    Agrees env w' (changeGrant ledger (some g.token) change) where
  rows := by
    rw [hw, updateSession, ha.rows, changeGrant, List.map_map, List.map_map]
    apply List.map_congr_left
    intro x hx
    show (if x.session = g.session then changeRow (x.row env) else x.row env) =
      (if some g.token = some x.token then change x else x).row env
    by_cases h : x.session = g.session
    · rw [ha.eq_of_session hx hg h, if_pos rfl, if_pos rfl, hrow]
    · rw [if_neg h, if_neg]
      intro ht
      exact h (congrArg Grant.session (ha.eq_of_token hx hg (Option.some.inj ht).symm))
  issued := by
    intro x hx
    obtain ⟨y, hy, rfl⟩ := List.mem_map.mp hx
    obtain ⟨h₁, h₂⟩ := ha.issued y hy
    split
    · exact ⟨by rw [htoken]; exact h₁, hcsrf y h₂⟩
    · exact ⟨h₁, h₂⟩
  bounded := by
    intro x hx
    obtain ⟨y, hy, rfl⟩ := List.mem_map.mp hx
    have hlt := lt_of_lt_of_le (ha.bounded y hy) hnext
    split
    · rw [hsession]
      exact hlt
    · exact hlt
  sessions := by
    rw [map_changeGrant Grant.session ledger _ change hsession]
    exact ha.sessions
  tokens := by
    rw [map_changeGrant Grant.token ledger _ change htoken]
    exact ha.tokens

/-! ### One call -/

theorem createAuthSession_now (env : Environment) (w : World) (admin : AdministratorRecord)
    (events : List AuthEvent) : (Auth.createAuthSession env w admin events).1.now = w.now := by
  unfold Auth.createAuthSession
  simp only [Environment.secret, World.uuid4]
  split <;> rfl

/-- What setup and login come to: nothing opened, or a session created. -/
inductive Opens (env : Environment) (w : World) :
    World × Except HttpError SessionResponse → Prop where
  | refused {w' : World} (e : HttpError) (h : SameSessions w w') : Opens env w (w', .error e)
  | created {w' : World} (admin : AdministratorRecord) (events : List AuthEvent)
      (h : SameSessions w w') : Opens env w (Auth.createAuthSession env w' admin events)

theorem setup_opens (env : Environment) (w : World) (credentials : Credentials)
    (request : Request) : Opens env w (setup env w credentials request) := by
  have hsame := createAdministrator_same env w credentials
  unfold setup
  split
  · exact .refused _ (SameSessions.refl w)
  · split
    · rename_i heq
      rw [heq] at hsame
      exact .refused _ hsame
    · rename_i heq
      rw [heq] at hsame
      exact .created _ _ hsame

theorem login_opens (env : Environment) (w : World) (credentials : Credentials)
    (request : Request) : Opens env w (login env w credentials request) := by
  unfold login
  split
  · exact .refused _ (SameSessions.refl w)
  · split
    · exact .refused _ (SameSessions.refl w)
    · rename_i network hnetwork
      have hlimit := rateLimited_same env w network.client
      simp only
      split
      · rename_i w₁ heq
        rw [heq] at hlimit
        exact .refused _ (hlimit.trans (addEvent_same _ _ _ _ _ _))
      · rename_i w₁ heq
        rw [heq] at hlimit
        have hverify := verifyCredentials_same env w₁ credentials
        split
        · rename_i w₂ heq₂
          rw [heq₂] at hverify
          exact .refused _ ((hlimit.trans hverify).trans (recordLoginFailure_same _ _ _ _))
        · rename_i w₂ admin heq₂
          rw [heq₂] at hverify
          have hclear := clearLoginFailures_same env w₂ network.client
          exact .created _ _ (((hlimit.trans hverify).trans hclear).trans ⟨rfl, Nat.le_succ _, rfl⟩)

theorem Opens.agrees {result : World × Except HttpError SessionResponse}
    (h : Opens env w result) (ha : Agrees env w ledger) :
    Agrees env result.1 (opened ledger result.2) ∧ result.1.now = w.now := by
  cases h with
  | refused e h => exact ⟨ha.same h, h.now⟩
  | created admin events h =>
    exact ⟨(ha.same h).createAuthSession admin events,
      (createAuthSession_now env _ admin events).trans h.now⟩

/-- A call keeps tables and ledger together, and time does not go back. -/
theorem Agrees.serve (hd : Distinguishes env texts) (ha : Agrees env w ledger) {call : AuthCall}
    (hcall : call.presents texts) :
    Agrees env (serve env w call).1 (observe w.now ledger call (serve env w call).2) ∧
      w.now ≤ (Auth.serve env w call).1.now := by
  cases call with
  | setup credentials request =>
    obtain ⟨hagrees, hnow⟩ := (setup_opens env w credentials request).agrees ha
    refine ⟨?_, hnow.ge⟩
    show Agrees env (setup env w credentials request).1 _
    simp only [Auth.serve]
    cases hr : (setup env w credentials request).2 with
    | ok r => rw [hr] at hagrees; exact hagrees
    | error e => rw [hr] at hagrees; exact hagrees
  | login credentials request =>
    obtain ⟨hagrees, hnow⟩ := (login_opens env w credentials request).agrees ha
    refine ⟨?_, hnow.ge⟩
    simp only [Auth.serve]
    cases hr : (login env w credentials request).2 with
    | ok r => rw [hr] at hagrees; exact hagrees
    | error e => rw [hr] at hagrees; exact hagrees
  | currentSession request =>
    simp only [Auth.serve, Auth.currentSession]
    split
    · exact ⟨ha, le_refl _⟩
    · split
      · exact ⟨ha, le_refl _⟩
      · rename_i current hcurrent
        obtain ⟨hfound, -⟩ := (requireHttpAuth_eq_ok env w request current).mp hcurrent
        obtain ⟨g, hg, hcookie, -, -, -, hs⟩ :=
          (ha.authenticateToken_iff hd hcall.1 current).mp hfound
        refine ⟨?_, le_refl _⟩
        show Agrees env _ (changeGrant ledger request.cookie _)
        rw [hcookie]
        apply ha.change hg _ fun s =>
          { s with csrfDigest := env.digest (env.tokenUrlsafe w.drawn) }
        · intro _; rfl
        · intro _; rfl
        · intro _; rfl
        · intro _ _; exact ⟨_, rfl⟩
        · rw [hs]; rfl
        · exact le_refl _
  | logout request =>
    simp only [Auth.serve, Auth.logout]
    split
    · exact ⟨ha, le_refl _⟩
    · split
      · exact ⟨ha, le_refl _⟩
      · rename_i current hcurrent
        obtain ⟨hfound, -⟩ := (requireHttpAuth_eq_ok env w request current).mp hcurrent
        obtain ⟨g, hg, hcookie, -, -, -, hs⟩ :=
          (ha.authenticateToken_iff hd hcall.1 current).mp hfound
        refine ⟨?_, le_refl _⟩
        show Agrees env _ (changeGrant ledger request.cookie _)
        rw [hcookie]
        apply ha.change hg _ fun s => { s with revokedAt := some w.now }
        · intro _; rfl
        · intro _; rfl
        · intro _; rfl
        · intro _ h; exact h
        · rw [hs]; rfl
        · exact Nat.le_succ _
  | pass seconds =>
    exact ⟨⟨ha.rows, ha.issued, ha.bounded, ha.sessions, ha.tokens⟩, Nat.le_add_right _ _⟩

end Calls

/-! ### Runs -/

/-- The same session with the same end, closed if it was closed. -/
def Grant.Continues (g g' : Grant) : Prop :=
  g'.session = g.session ∧ g'.token = g.token ∧ g'.expiresAt = g.expiresAt ∧
    (g.closedAt ≠ none → g'.closedAt ≠ none)

theorem Grant.continues_refl (g : Grant) : g.Continues g := ⟨rfl, rfl, rfl, id⟩

theorem Grant.Continues.trans {g₁ g₂ g₃ : Grant} (h : g₁.Continues g₂) (h' : g₂.Continues g₃) :
    g₁.Continues g₃ :=
  ⟨h'.1.trans h.1, h'.2.1.trans h.2.1, h'.2.2.1.trans h.2.2.1, fun hc => h'.2.2.2 (h.2.2.2 hc)⟩

theorem Grant.Continues.over {g g' : Grant} {now now' : Time} (h : g.Continues g')
    (hnow : now ≤ now') (hover : g.over now) : g'.over now' := by
  obtain ⟨-, -, hexpires, hclosed⟩ := h
  rcases hover with hover | hover
  · exact Or.inl (hclosed hover)
  · right
    rw [hexpires]
    exact hover.trans hnow

theorem changeGrant_continues {ledger : List Grant} (cookie : Option String)
    {change : Grant → Grant} (hchange : ∀ g : Grant, g.Continues (change g)) {g : Grant}
    (hg : g ∈ ledger) : ∃ g' ∈ changeGrant ledger cookie change, g.Continues g' := by
  refine ⟨_, List.mem_map_of_mem hg, ?_⟩
  split
  · exact hchange g
  · exact g.continues_refl

/-- No grant is forgotten. -/
theorem observe_continues {ledger : List Grant} (now : Time) (call : AuthCall)
    (response : Except HttpError (Option SessionResponse)) {g : Grant} (hg : g ∈ ledger) :
    ∃ g' ∈ observe now ledger call response, g.Continues g' := by
  unfold observe
  split
  · exact ⟨g, List.mem_append_left _ hg, g.continues_refl⟩
  · exact ⟨g, List.mem_append_left _ hg, g.continues_refl⟩
  · refine changeGrant_continues _ ?_ hg
    intro g
    exact ⟨rfl, rfl, rfl, id⟩
  · refine changeGrant_continues _ ?_ hg
    intro g
    exact ⟨rfl, rfl, rfl, fun _ => Option.some_ne_none _⟩
  · exact ⟨g, hg, g.continues_refl⟩

section Runs

variable {env : Environment} {texts : Set String} {w w' : World} {ledger ledger' : List Grant}

/-- The calls of a run show texts that the digest tells apart. -/
def Presents (texts : Set String) (_ : World × List Grant) (call : AuthCall) : Prop :=
  call.presents texts

theorem agrees_of_reach {start finish : World × List Grant} (hd : Distinguishes env texts)
    (ha : Agrees env start.1 start.2)
    (hrun : Reach (Serves env) (Presents texts) start finish) :
    Agrees env finish.1 finish.2 := by
  refine Reach.invariant (I := fun s => Agrees env s.1 s.2) ha ?_ hrun
  rintro s call s' hs hcall rfl
  exact (hs.serve hd hcall).1

/-- A later moment of a run knows every grant of an earlier one. -/
theorem continues_of_reach {start finish : World × List Grant} (hd : Distinguishes env texts)
    (ha : Agrees env start.1 start.2)
    (hrun : Reach (Serves env) (Presents texts) start finish) :
    start.1.now ≤ finish.1.now ∧ ∀ g ∈ start.2, ∃ g' ∈ finish.2, g.Continues g' := by
  induction hrun with
  | start => exact ⟨le_refl _, fun g hg => ⟨g, hg, g.continues_refl⟩⟩
  | next hbefore hcall hstep ih =>
    subst hstep
    obtain ⟨hnow, hkeeps⟩ := ih
    have hs := agrees_of_reach hd ha hbefore
    refine ⟨hnow.trans (hs.serve hd hcall).2, fun g hg => ?_⟩
    obtain ⟨g₁, hg₁, hcont₁⟩ := hkeeps g hg
    obtain ⟨g₂, hg₂, hcont₂⟩ := observe_continues _ _ _ hg₁
    exact ⟨g₂, hg₂, hcont₁.trans hcont₂⟩

/-- What is over is refused, by the guard and by the check of open WebSockets. -/
theorem Agrees.refused (hd : Distinguishes env texts) (ha : Agrees env w ledger) {g : Grant}
    (hg : g ∈ ledger) (hover : g.over w.now) :
    (∀ request : Request, request.presents texts → request.cookie = some g.token →
      ∀ a, requireHttpAuth env w request ≠ .ok a) ∧
    websocketSessionActive w g.session = false := by
  have hdead : ¬ (g.closedAt = none ∧ w.now < g.expiresAt) := by
    rintro ⟨hopen, hnow⟩
    rcases hover with hover | hover
    · exact hover hopen
    · exact absurd hnow (not_lt.mpr hover)
  constructor
  · intro request hr hcookie a haccept
    obtain ⟨g', hg', hcookie', hopen, hnow, -⟩ := (ha.requireHttpAuth_iff hd hr).mp ⟨a, haccept⟩
    rw [hcookie, Option.some.injEq] at hcookie'
    rw [← ha.eq_of_token hg hg' hcookie'] at hopen hnow
    exact hdead ⟨hopen, hnow⟩
  · rw [websocketSessionActive, ha.find_session hg, Option.any_some, Bool.eq_false_iff]
    intro hlive
    exact hdead ((g.live_row env w.now).mp hlive)

/-- **The guard accepts exactly the live session.**  After any run of setup, login, session and
logout requests and passing time, over texts that the digest tells apart, a request is served
if and only if the ledger has a grant for it.  A grant that is closed or expired serves no later
request, and its WebSockets are told so. -/
theorem guard_exact {w₀ : World} (hd : Distinguishes env texts) (hempty : w₀.db.authSessions = [])
    (hrun : Reach (Serves env) (Presents texts) (w₀, []) (w, ledger)) :
    (∀ request : Request, request.presents texts →
      ((∃ a, requireHttpAuth env w request = .ok a) ↔ Accepts env w ledger request)) ∧
    ∀ g ∈ ledger, g.over w.now →
      ∀ w' ledger', Reach (Serves env) (Presents texts) (w, ledger) (w', ledger') →
        (∀ request : Request, request.presents texts → request.cookie = some g.token →
          ∀ a, requireHttpAuth env w' request ≠ .ok a) ∧
        websocketSessionActive w' g.session = false := by
  have hstart : Agrees env w₀ [] :=
    ⟨hempty, by simp, by simp, List.nodup_nil, List.nodup_nil⟩
  have ha : Agrees env w ledger := agrees_of_reach hd hstart hrun
  refine ⟨fun request hr => ha.requireHttpAuth_iff hd hr, fun g hg hover w' ledger' hlater => ?_⟩
  obtain ⟨hnow, hkeeps⟩ := continues_of_reach hd ha hlater
  obtain ⟨g', hg', hcont⟩ := hkeeps g hg
  have hrefused := (agrees_of_reach hd ha hlater).refused hd hg' (hcont.over hnow hover)
  rw [hcont.1, hcont.2.1] at hrefused
  exact hrefused

end Runs

def firstSetup : AuthCall := .setup ⟨"admin", "pw"⟩ { clientHost := some "127.0.0.1" }

/-- A write with the cookie and the CSRF token of the first session. -/
def firstWrite : Request :=
  { clientHost := some "127.0.0.1"
    method := "POST"
    headers := [("x-csrf-token", "kk")]
    cookies := [("machinedeck_session", "k")] }

def firstGrant : Grant := ⟨2, 0, "k", "kk", 43200, none⟩

def afterSetup : World × List Grant :=
  ((serve plainEnvironment {} firstSetup).1,
    observe 0 [] firstSetup (serve plainEnvironment {} firstSetup).2)

/-- The first session writes, and is refused from its end on. -/
theorem guard_exact_first_session :
    (∃ a, requireHttpAuth plainEnvironment afterSetup.1 firstWrite = .ok a) ∧
    ∀ a, requireHttpAuth plainEnvironment { afterSetup.1 with now := 0 + 43200 } firstWrite ≠
      .ok a := by
  have hd : Distinguishes plainEnvironment Set.univ :=
    ⟨Function.Injective.injOn fun _ _ h => h, fun _ => Set.mem_univ _⟩
  have hpresents : ∀ request : Request, request.presents Set.univ :=
    fun _ => ⟨fun _ _ => Set.mem_univ _, fun _ _ => Set.mem_univ _⟩
  have hsetup : Reach (Serves plainEnvironment) (Presents Set.univ) ({}, []) afterSetup :=
    .next .start (show firstSetup.presents _ from hpresents _) rfl
  have hpass : Reach (Serves plainEnvironment) (Presents Set.univ) ({}, [])
      ({ afterSetup.1 with now := 0 + 43200 }, afterSetup.2) :=
    .next hsetup (show (AuthCall.pass 43200).presents _ from trivial) rfl
  have hmem : firstGrant ∈ afterSetup.2 := by decide
  constructor
  · refine ((guard_exact hd rfl hsetup).1 firstWrite (hpresents _)).mpr
      ⟨firstGrant, hmem, by decide, rfl, by decide, by decide, fun _ => ⟨?_, by decide⟩⟩
    intro origin horigin
    exact absurd horigin (by simp [firstWrite, Request.header])
  · exact ((guard_exact hd rfl hpass).2 firstGrant hmem (Or.inr (le_refl _)) _ _ .start).1
      firstWrite (hpresents _) (by decide)

end MachineDeck.Auth

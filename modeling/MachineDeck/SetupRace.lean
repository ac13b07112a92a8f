import MachineDeck.AuthService
import MachineDeck.GuardedRuns

/-!
# First-run setup as a race

`setup` reads the administrators and writes one in two steps, and its session in a third; other
requests may run between them.

* `Stage`, `Racer` — a setup request and how far it got;
* `Racer.advance` — its next step, `Race`, `Moves` — any number of them, one turn at a time;
* `advance_alone` — three turns of one request are `setup`;
* `OneWinner`, `setup_one_winner` — what holds in every state of every race.
-/

namespace MachineDeck.Auth

open GuardedRuns

/-! ### The race -/

inductive Stage where
  | arrived
  /-- No administrator was found. -/
  | checked
  | stored (admin : AdministratorRecord)
  | finished (response : Except HttpError SessionResponse)

/-- A setup request: how far it got, the administrator it stored and the turns it had. -/
structure Racer where
  credentials : Credentials
  request : Request
  stage : Stage := .arrived
  created : Option AdministratorRecord := none
  turns : ℕ := 0

def Racer.finish (r : Racer) (response : Except HttpError SessionResponse) : Racer :=
  { r with stage := .finished response, turns := r.turns + 1 }

/-- The next step of the request. -/
def Racer.advance (env : Environment) (w : World) (r : Racer) : World × Racer :=
  match r.stage with
  | .arrived =>
    match admitSetup env r.request with
    | .error e => (w, r.finish (.error e))
    | .ok () =>
      if (administrator w.db).isSome then (w, r.finish (.error setupComplete))
      else (w, { r with stage := .checked, turns := r.turns + 1 })
  | .checked =>
    match commitAdministrator env w r.credentials with
    | (w, .error e) => (w, r.finish (.error e))
    | (w, .ok admin) =>
      (w, { r with stage := .stored admin, created := some admin, turns := r.turns + 1 })
  | .stored admin =>
    let (w, response) := createAuthSession env w admin []
    (w, r.finish response)
  | .finished response => (w, r.finish response)

structure Race where
  world : World
  racers : List Racer

inductive Turn where
  | racer (i : ℕ)
  | pass (seconds : ℕ)

def Race.turn (env : Environment) (s : Race) : Turn → Race
  | .racer i =>
    match s.racers[i]? with
    | none => s
    | some r => ⟨(r.advance env s.world).1, s.racers.set i (r.advance env s.world).2⟩
  | .pass seconds => { s with world := { s.world with now := s.world.now + seconds } }

def Moves (env : Environment) (s : Race) (turn : Turn) (s' : Race) : Prop := s' = s.turn env turn

def arrivals (requests : List (Credentials × Request)) : List Racer :=
  requests.map fun c => { credentials := c.1, request := c.2 }

/-- A request that nobody interrupts. -/
theorem advance_alone (env : Environment) (w : World) (credentials : Credentials)
    (request : Request) :
    let first := Racer.advance env w { credentials := credentials, request := request }
    let second := first.2.advance env first.1
    let third := second.2.advance env second.1
    third.1 = (setup env w credentials request).1 ∧
      third.2.stage = .finished (setup env w credentials request).2 := by
  unfold setup createAdministrator
  cases hpassed : admitSetup env request with
  | error e => simp [Racer.advance, hpassed, Racer.finish]
  | ok _ =>
    by_cases hfound : (administrator w.db).isSome = true
    · simp [Racer.advance, hpassed, hfound, Racer.finish]
    · cases hcommit : commitAdministrator env w credentials with
      | mk w' result =>
        cases result with
        | error e => simp [Racer.advance, hpassed, hfound, hcommit, Racer.finish]
        | ok admin => simp [Racer.advance, hpassed, hfound, hcommit, Racer.finish]

/-! ### One turn -/

def isSetupSuccess (e : AuthEvent) : Bool := e.action == "auth.setup" && e.result == "success"

/-- The administrator and its event are stored together, or the constraint refuses both. -/
theorem commitAdministrator_cases (env : Environment) (w : World) (credentials : Credentials) :
    ((commitAdministrator env w credentials).2 = .error setupComplete ∧
      (commitAdministrator env w credentials).1.db = w.db ∧ w.db.administrators ≠ []) ∨
    (∃ admin event, (commitAdministrator env w credentials).2 = .ok admin ∧
      (∀ a ∈ w.db.administrators, a.singletonKey ≠ 1) ∧ admin.singletonKey = 1 ∧
      isSetupSuccess event = true ∧ event.target = .id admin.id ∧
      (commitAdministrator env w credentials).1.db = { w.db with
        administrators := w.db.administrators ++ [admin]
        auditEvents := w.db.auditEvents ++ [event] }) := by
  unfold commitAdministrator
  simp only [World.uuid4]
  split
  · rename_i hnone
    left
    refine ⟨rfl, rfl, ?_⟩
    intro hempty
    simp [insertAdministrator, hempty] at hnone
  · rename_i db hdb
    unfold insertAdministrator at hdb
    split at hdb
    · cases hdb
    · rename_i hfree
      cases hdb
      right
      refine ⟨_, _, rfl, ?_, rfl, rfl, rfl, rfl⟩
      intro a ha hkey
      exact hfree (List.any_eq_true.mpr ⟨a, ha, by simp [hkey]⟩)

/-- The session of the administrator is stored, or nothing is. -/
theorem createAuthSession_cases (env : Environment) (w : World) (admin : AdministratorRecord) :
    ∃ sessions, (createAuthSession env w admin []).1.db =
        { w.db with authSessions := w.db.authSessions ++ sessions } ∧
      sessions.length ≤ 1 ∧ ∀ x ∈ sessions, x.administratorId = admin.id := by
  unfold createAuthSession
  simp only [Environment.secret, World.uuid4]
  split
  · exact ⟨[], by simp, by simp, by simp⟩
  · rename_i db hdb
    unfold insertSession at hdb
    split at hdb
    · cases hdb
    · cases hdb
      refine ⟨[⟨w.nextId, admin.id, env.digest (env.tokenUrlsafe w.drawn),
        env.digest (env.tokenUrlsafe (w.drawn + 1)),
        w.now + env.settings.authSessionHours * 3600, none⟩], ?_, le_refl 1, ?_⟩
      · rw [List.append_nil]
      · intro x hx
        rw [List.mem_singleton.mp hx]

/-- How a request ends that stored no administrator. -/
def Ends (env : Environment) (administrators : List AdministratorRecord) (request : Request)
    (response : Except HttpError SessionResponse) : Prop :=
  (admitSetup env request = .ok () ∧ response = .error setupComplete ∧ administrators ≠ []) ∨
    ∃ e, admitSetup env request = .error e ∧ response = .error e

/-- What the stage of a request says of it. -/
structure Racer.Fits (env : Environment) (administrators : List AdministratorRecord)
    (r : Racer) : Prop where
  admitted : r.created ≠ none → admitSetup env r.request = .ok ()
  arrived : r.stage = .arrived → r.created = none ∧ r.turns = 0
  checked : r.stage = .checked →
    r.created = none ∧ r.turns = 1 ∧ admitSetup env r.request = .ok ()
  stored : ∀ admin, r.stage = .stored admin → r.created = some admin ∧ r.turns = 2
  finished : ∀ response, r.stage = .finished response → r.created = none →
    Ends env administrators r.request response

theorem Racer.Fits.mono {env : Environment} {old new : List AdministratorRecord} {r : Racer}
    (h : r.Fits env old) (hkeep : old ≠ [] → new ≠ []) : r.Fits env new where
  admitted := h.admitted
  arrived := h.arrived
  checked := h.checked
  stored := h.stored
  finished := by
    intro response hstage hcreated
    rcases h.finished response hstage hcreated with ⟨hpassed, hresponse, hold⟩ | herror
    · exact Or.inl ⟨hpassed, hresponse, hkeep hold⟩
    · exact Or.inr herror

theorem Racer.fits_finish {env : Environment} {administrators : List AdministratorRecord}
    {r : Racer} {response : Except HttpError SessionResponse}
    (hadmitted : r.created ≠ none → admitSetup env r.request = .ok ())
    (hends : r.created = none → Ends env administrators r.request response) :
    (r.finish response).Fits env administrators where
  admitted := hadmitted
  arrived := by
    intro h
    cases h
  checked := by
    intro h
    cases h
  stored := by
    intro _ h
    cases h
  finished := by
    intro _ h hcreated
    cases h
    exact hends hcreated

/-- What a turn of one request can do to the database. -/
inductive Racer.Effect (w w' : World) (r r' : Racer) : Prop where
  | quiet (hdb : w'.db = w.db) (hcreated : r'.created = r.created)
      (hstored : ∀ a, r'.stage = .stored a → r.stage = .stored a)
  | stores (admin : AdministratorRecord) (event : AuthEvent) (hcreated : r'.created = some admin)
      (hfree : ∀ a ∈ w.db.administrators, a.singletonKey ≠ 1) (hkey : admin.singletonKey = 1)
      (hevent : isSetupSuccess event = true) (htarget : event.target = .id admin.id)
      (hdb : w'.db = { w.db with
        administrators := w.db.administrators ++ [admin]
        auditEvents := w.db.auditEvents ++ [event] })
  | opens (admin : AdministratorRecord) (sessions : List AuthSessionRecord)
      (hstage : r.stage = .stored admin) (hcreated : r'.created = r.created)
      (hdone : ∀ a, r'.stage ≠ .stored a)
      (hdb : w'.db = { w.db with authSessions := w.db.authSessions ++ sessions })
      (hlength : sessions.length ≤ 1) (hown : ∀ x ∈ sessions, x.administratorId = admin.id)

theorem Racer.Fits.advance {env : Environment} {w : World} {r : Racer}
    (h : r.Fits env w.db.administrators) :
    (r.advance env w).2.Fits env (r.advance env w).1.db.administrators ∧
      Racer.Effect w (r.advance env w).1 r (r.advance env w).2 := by
  unfold Racer.advance
  cases hstage : r.stage with
  | arrived =>
    obtain ⟨hcreated, hturns⟩ := h.arrived hstage
    simp only
    cases hpassed : admitSetup env r.request with
    | error e =>
      exact ⟨Racer.fits_finish h.admitted fun _ => Or.inr ⟨e, hpassed, rfl⟩,
        .quiet rfl rfl (by intro _ h; cases h)⟩
    | ok _ =>
      simp only
      split
      · rename_i hfound
        refine ⟨Racer.fits_finish h.admitted fun _ => Or.inl ⟨hpassed, rfl, ?_⟩,
          .quiet rfl rfl (by intro _ h; cases h)⟩
        intro hempty
        rw [administrator, hempty] at hfound
        cases hfound
      · refine ⟨⟨fun _ => hpassed, ?_, ?_, ?_, ?_⟩, .quiet rfl rfl (by intro _ h; cases h)⟩
        · intro h
          cases h
        · intro _
          exact ⟨hcreated, by simp [hturns], hpassed⟩
        · intro _ h
          cases h
        · intro _ h
          cases h
  | checked =>
    obtain ⟨hcreated, hturns, hpassed⟩ := h.checked hstage
    simp only
    rcases commitAdministrator_cases env w r.credentials with
      ⟨hresult, hdb, hsome⟩ | ⟨admin, event, hresult, hfree, hkey, hevent, htarget, hdb⟩
    · cases hcommit : commitAdministrator env w r.credentials with
      | mk w' result =>
        rw [hcommit] at hresult hdb
        simp only at hresult hdb
        subst hresult
        refine ⟨Racer.fits_finish h.admitted fun _ => Or.inl ⟨hpassed, rfl, ?_⟩,
          .quiet hdb rfl (by intro _ h; cases h)⟩
        rw [hdb]
        exact hsome
    · cases hcommit : commitAdministrator env w r.credentials with
      | mk w' result =>
        rw [hcommit] at hresult hdb
        simp only at hresult hdb
        subst hresult
        refine ⟨⟨fun _ => hpassed, ?_, ?_, ?_, ?_⟩,
          .stores admin event rfl hfree hkey hevent htarget hdb⟩
        · intro h
          cases h
        · intro h
          cases h
        · intro _ h
          cases h
          exact ⟨rfl, by simp [hturns]⟩
        · intro _ h
          cases h
  | stored admin =>
    obtain ⟨hcreated, hturns⟩ := h.stored admin hstage
    obtain ⟨sessions, hdb, hlength, hown⟩ := createAuthSession_cases env w admin
    simp only
    refine ⟨Racer.fits_finish h.admitted fun hnone => ?_,
      .opens admin sessions hstage rfl (by intro _ h; cases h) hdb hlength hown⟩
    rw [hcreated] at hnone
    cases hnone
  | finished response =>
    exact ⟨Racer.fits_finish h.admitted (h.finished response hstage),
      .quiet rfl rfl (by intro _ h; cases h)⟩

/-! ### The whole race -/

/-- The database is as it was, or has what one of the requests stored. -/
inductive Standing (w₀ : World) (s : Race) : Prop where
  | untouched (hdb : s.world.db = w₀.db) (hnone : ∀ r ∈ s.racers, r.created = none)
  | won (i : ℕ) (r : Racer) (admin : AdministratorRecord) (event : AuthEvent)
      (sessions : List AuthSessionRecord) (hr : s.racers[i]? = some r)
      (hcreated : r.created = some admin)
      (honly : ∀ j r', s.racers[j]? = some r' → r'.created ≠ none → j = i)
      (hkey : admin.singletonKey = 1) (hevent : isSetupSuccess event = true)
      (htarget : event.target = .id admin.id)
      (hdb : s.world.db = { w₀.db with
        administrators := [admin]
        auditEvents := w₀.db.auditEvents ++ [event]
        authSessions := w₀.db.authSessions ++ sessions })
      (hlength : sessions.length ≤ 1) (hown : ∀ x ∈ sessions, x.administratorId = admin.id)
      (hpending : ∀ a, r.stage = .stored a → sessions = [])

structure RaceInvariant (env : Environment) (w₀ : World) (s : Race) : Prop where
  standing : Standing w₀ s
  fits : ∀ r ∈ s.racers, r.Fits env s.world.db.administrators

theorem raceInvariant_start {env : Environment} {w₀ : World}
    (requests : List (Credentials × Request)) :
    RaceInvariant env w₀ ⟨w₀, arrivals requests⟩ where
  standing := by
    refine .untouched rfl fun r hr => ?_
    obtain ⟨c, -, rfl⟩ := List.mem_map.mp hr
    rfl
  fits := by
    intro r hr
    obtain ⟨c, -, rfl⟩ := List.mem_map.mp hr
    constructor <;> simp

theorem Standing.turn {w₀ : World} (hempty : w₀.db.administrators = []) {s : Race}
    (hs : Standing w₀ s) {i : ℕ} {r r' : Racer} {w' : World} (hr : s.racers[i]? = some r)
    (hstored : ∀ a, r.stage = .stored a → r.created = some a)
    (heffect : Racer.Effect s.world w' r r') : Standing w₀ ⟨w', s.racers.set i r'⟩ := by
  have hi : i < s.racers.length := (List.getElem?_eq_some_iff.mp hr).1
  have hself : (s.racers.set i r')[i]? = some r' := List.getElem?_set_self hi
  have hother : ∀ j, j ≠ i → (s.racers.set i r')[j]? = s.racers[j]? :=
    fun j hj => List.getElem?_set_ne (Ne.symm hj)
  cases hs with
  | untouched hdb hnone =>
    have hrnone : r.created = none := hnone r (List.mem_of_getElem? hr)
    cases heffect with
    | quiet hdb' hcreated _ =>
      refine .untouched (hdb'.trans hdb) fun x hx => ?_
      rcases List.mem_or_eq_of_mem_set hx with hx | rfl
      · exact hnone x hx
      · rw [hcreated, hrnone]
    | stores admin event hcreated _ hkey hevent htarget hdb' =>
      refine .won i r' admin event [] hself hcreated ?_ hkey hevent htarget ?_ (by simp) (by simp)
        (fun _ _ => rfl)
      · intro j x hx hxcreated
        by_contra hj
        rw [hother j hj] at hx
        exact hxcreated (hnone x (List.mem_of_getElem? hx))
      · rw [hdb', hdb, hempty]
        simp
    | opens admin sessions hstage =>
      rw [hstored admin hstage] at hrnone
      cases hrnone
  | won k x admin event sessions hx hxcreated honly hkey hevent htarget hdb hlength hown hpending =>
    cases heffect with
    | quiet hdb' hcreated hstage =>
      by_cases hki : k = i
      · subst hki
        rw [hr, Option.some.injEq] at hx
        subst hx
        refine .won k r' admin event sessions hself (hcreated.trans hxcreated) ?_ hkey hevent
          htarget (hdb'.trans hdb) hlength hown (fun a ha => hpending a (hstage a ha))
        intro j y hy hycreated
        by_contra hj
        rw [hother j hj] at hy
        exact hj (honly j y hy hycreated)
      · refine .won k x admin event sessions ((hother k hki).trans hx) hxcreated ?_ hkey hevent
          htarget (hdb'.trans hdb) hlength hown hpending
        intro j y hy hycreated
        by_cases hj : j = i
        · subst hj
          rw [hself, Option.some.injEq] at hy
          subst hy
          rw [hcreated] at hycreated
          exact honly j r hr hycreated
        · rw [hother j hj] at hy
          exact honly j y hy hycreated
    | stores admin' event' _ hfree =>
      -- the winner holds the singleton key
      refine absurd hkey (hfree admin ?_)
      rw [hdb]
      exact List.mem_singleton_self admin
    | opens admin' sessions' hstage hcreated hdone hdb' hlength' hown' =>
      have hmine := hstored admin' hstage
      have hik : i = k := honly i r hr (by rw [hmine]; exact Option.some_ne_none _)
      subst hik
      rw [hr, Option.some.injEq] at hx
      subst hx
      have hadmin : admin' = admin := Option.some.inj (hmine.symm.trans hxcreated)
      subst hadmin
      have hnosession := hpending admin' hstage
      subst hnosession
      refine .won i r' admin' event sessions' hself (hcreated.trans hxcreated) ?_ hkey hevent
        htarget ?_ hlength' hown' (fun a ha => absurd ha (hdone a))
      · intro j y hy hycreated
        by_contra hj
        rw [hother j hj] at hy
        exact hj (honly j y hy hycreated)
      · rw [hdb', hdb]
        simp

theorem RaceInvariant.turn {env : Environment} {w₀ : World} (hempty : w₀.db.administrators = [])
    {s : Race} (hs : RaceInvariant env w₀ s) (turn : Turn) :
    RaceInvariant env w₀ (s.turn env turn) := by
  cases turn with
  | pass seconds =>
    refine ⟨?_, hs.fits⟩
    cases hs.standing with
    | untouched hdb hnone => exact .untouched hdb hnone
    | won i r admin event sessions hr hcreated honly hkey hevent htarget hdb hlength hown
        hpending =>
      exact .won i r admin event sessions hr hcreated honly hkey hevent htarget hdb hlength hown
        hpending
  | racer i =>
    simp only [Race.turn]
    cases hr : s.racers[i]? with
    | none => exact hs
    | some r =>
      have hrfits := hs.fits r (List.mem_of_getElem? hr)
      obtain ⟨hfits, heffect⟩ := hrfits.advance
      refine ⟨hs.standing.turn hempty hr (fun a ha => (hrfits.stored a ha).1) heffect, ?_⟩
      intro x hx
      rcases List.mem_or_eq_of_mem_set hx with hx | rfl
      · refine (hs.fits x hx).mono fun hsome => ?_
        show (r.advance env s.world).1.db.administrators ≠ []
        cases heffect with
        | quiet hdb => rw [hdb]; exact hsome
        | stores admin event _ _ _ _ _ hdb => rw [hdb]; simp
        | opens admin sessions _ _ _ hdb => rw [hdb]; exact hsome
      · exact hfits

/-- The request comes from this host, and so does the page that sent it. -/
def FromThisHost (env : Environment) (request : Request) : Prop :=
  ∃ network, requestNetworkContext env.settings.network request = .ok network ∧
    isLoopback env network.peer = true ∧ isLoopback env network.client = true ∧
    ∀ origin, request.header "origin" = some origin →
      originIsLocal env origin = true ∧ originIsTrusted env origin = true

theorem fromThisHost_of_admitted {env : Environment} {request : Request}
    (h : admitSetup env request = .ok ()) : FromThisHost env request := by
  unfold admitSetup at h
  cases hnetwork : requestNetworkContext env.settings.network request with
  | error e => simp [hnetwork, bind, Except.bind] at h
  | ok network =>
    simp only [hnetwork, bind, Except.bind] at h
    split at h
    · cases h
    · rename_i hlocal
      simp only [Bool.or_eq_true, Bool.not_eq_true', not_or, Bool.not_eq_false] at hlocal
      obtain ⟨⟨hpeer, hclient⟩, horigin⟩ := hlocal
      refine ⟨network, hnetwork, hpeer, hclient, fun origin ho => ⟨?_, ?_⟩⟩
      · rw [ho] at horigin
        simpa using horigin
      · exact (requireTrustedOrigin_ok env _).mp h origin ho

/-- One winner, and no trace of anybody else. -/
structure OneWinner (env : Environment) (w₀ : World) (s : Race) : Prop where
  one : s.world.db.administrators.length ≤ 1
  success : s.world.db.administrators ≠ [] → s.world.db.auditEvents.countP isSetupSuccess = 1
  /-- Three turns are enough for any request. -/
  settled : ∀ r ∈ s.racers, 3 ≤ r.turns → ∃ response, r.stage = .finished response
  others : ∀ r ∈ s.racers, r.created = none → ∀ response, r.stage = .finished response →
    Ends env s.world.db.administrators r.request response
  nobody : (∀ r ∈ s.racers, r.created = none) → s.world.db = w₀.db
  winner : ∀ (i : ℕ) (r : Racer) admin, s.racers[i]? = some r → r.created = some admin →
    (∀ (j : ℕ) (r' : Racer), s.racers[j]? = some r' → r'.created ≠ none → j = i) ∧
    ∃ event sessions, event.target = .id admin.id ∧ sessions.length ≤ 1 ∧
      (∀ x ∈ sessions, x.administratorId = admin.id) ∧
      s.world.db = { w₀.db with
        administrators := [admin]
        auditEvents := w₀.db.auditEvents ++ [event]
        authSessions := w₀.db.authSessions ++ sessions }
  fromHere : ∀ r ∈ s.racers, r.created ≠ none → FromThisHost env r.request

theorem RaceInvariant.oneWinner {env : Environment} {w₀ : World}
    (hempty : w₀.db.administrators = [])
    (hevents : w₀.db.auditEvents.countP isSetupSuccess = 0) {s : Race}
    (h : RaceInvariant env w₀ s) : OneWinner env w₀ s where
  one := by
    cases h.standing with
    | untouched hdb => simp [hdb, hempty]
    | won i r admin event sessions _ _ _ _ _ _ hdb => simp [hdb]
  success := by
    intro hsome
    cases h.standing with
    | untouched hdb => exact absurd (by rw [hdb, hempty]) hsome
    | won i r admin event sessions _ _ _ _ hevent _ hdb =>
      simp only [hdb]
      rw [List.countP_append, hevents, List.countP_singleton, if_pos hevent]
  settled := by
    intro r hr hturns
    have hfits := h.fits r hr
    cases hstage : r.stage with
    | arrived =>
      have := (hfits.arrived hstage).2
      omega
    | checked =>
      have := (hfits.checked hstage).2.1
      omega
    | stored admin =>
      have := (hfits.stored admin hstage).2
      omega
    | finished response => exact ⟨response, rfl⟩
  others := fun r hr hcreated response hstage => (h.fits r hr).finished response hstage hcreated
  nobody := by
    intro hnone
    cases h.standing with
    | untouched hdb => exact hdb
    | won i r admin event sessions hr hcreated =>
      rw [hnone r (List.mem_of_getElem? hr)] at hcreated
      cases hcreated
  winner := by
    intro i r admin hr hcreated
    cases h.standing with
    | untouched _ hnone =>
      rw [hnone r (List.mem_of_getElem? hr)] at hcreated
      cases hcreated
    | won k x admin' event sessions hx hxcreated honly _ _ htarget hdb hlength hown =>
      have hik : i = k := honly i r hr (by rw [hcreated]; exact Option.some_ne_none _)
      subst hik
      rw [hr, Option.some.injEq] at hx
      subst hx
      rw [hcreated, Option.some.injEq] at hxcreated
      subst hxcreated
      exact ⟨honly, event, sessions, htarget, hlength, hown, hdb⟩
  fromHere := fun r hr hcreated => fromThisHost_of_admitted ((h.fits r hr).admitted hcreated)

/-- **First-run setup has one winner.**  Whatever the order of the turns of any number of setup
requests, at most one stores an administrator, with one event and its session.  Every other
leaves the database as it was: it ends in `SETUP_COMPLETE`, or in the error of the checks that
come before the database. -/
theorem setup_one_winner (env : Environment) {w₀ : World} (hempty : w₀.db.administrators = [])
    (hevents : w₀.db.auditEvents.countP isSetupSuccess = 0)
    (requests : List (Credentials × Request)) {s : Race}
    (hrun : Reach (Moves env) Anyhow ⟨w₀, arrivals requests⟩ s) : OneWinner env w₀ s := by
  refine RaceInvariant.oneWinner hempty hevents ?_
  refine Reach.invariant (raceInvariant_start requests) ?_ hrun
  rintro s turn s' hs - rfl
  exact hs.turn hempty turn

/-- The owner at the machine, and somebody else on the network. -/
def twoSetups : List (Credentials × Request) :=
  [(⟨"admin", "pw"⟩, { clientHost := some "127.0.0.1" }),
    (⟨"mallory", "pw"⟩, { clientHost := some "10.0.0.7" })]

def twoSetupsTurns : List Turn := [.racer 0, .racer 0, .racer 0, .racer 1]

/-- The owner's three turns, then the other's one. -/
def twoSetupsOver : Race :=
  twoSetupsTurns.foldl (Race.turn plainEnvironment) ⟨{}, arrivals twoSetups⟩

theorem reach_twoSetupsOver :
    Reach (Moves plainEnvironment) Anyhow ⟨{}, arrivals twoSetups⟩ twoSetupsOver := by
  have hturns : twoSetupsTurns.foldlM (fun s turn => some (Race.turn plainEnvironment s turn))
      ⟨{}, arrivals twoSetups⟩ = some twoSetupsOver := rfl
  exact Reach.of_foldlM (fun _ _ _ h => (Option.some.inj h).symm) twoSetupsTurns
    (fun _ _ _ => trivial) hturns

theorem setup_one_winner_two_setups : OneWinner plainEnvironment {} twoSetupsOver :=
  setup_one_winner plainEnvironment rfl rfl twoSetups reach_twoSetupsOver

/-- A request refused before the database is looked at does not end in `SETUP_COMPLETE`. -/
theorem others_not_all_complete :
    ¬ ∀ (env : Environment) (w₀ : World) (requests : List (Credentials × Request)) (s : Race),
      w₀.db.administrators = [] → w₀.db.auditEvents.countP isSetupSuccess = 0 →
      Reach (Moves env) Anyhow ⟨w₀, arrivals requests⟩ s →
      ∀ r ∈ s.racers, r.created = none → ∀ response, r.stage = .finished response →
        response = .error setupComplete := by
  intro h
  have hother : (twoSetupsOver.racers[1]?).map (fun r => (r.created, r.stage)) =
      some (none, .finished (.error localSetupRequired)) := by rfl
  obtain ⟨r, hr, hstage⟩ := Option.map_eq_some_iff.mp hother
  rw [Prod.mk.injEq] at hstage
  have hcomplete := h plainEnvironment {} twoSetups twoSetupsOver rfl rfl reach_twoSetupsOver r
    (List.mem_of_getElem? hr) hstage.1 _ hstage.2
  exact absurd (Except.error.inj hcomplete) (by decide)

end MachineDeck.Auth

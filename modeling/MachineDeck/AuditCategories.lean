import MachineDeck.AuditPages

/-!
# The category a record shows and the filters that show it

A record is classified twice: `category_for` answers when it is rendered, an ordered chain of
tests, and `_category_condition` when it is queried, one unordered condition for each category.

* `categoryFor` — the category that is displayed;
* `Shown` — some page of the category's filter holds the record;
* `likeText_start` — a pattern that ends in `%` compares the start of the text, without its case;
* `filters_exact_iff` — the filters show exactly the category displayed on the records whose
  target type and action tell one story, and on no others.
-/

namespace MachineDeck.Audit

/-- Python's `startswith`. -/
def startsWith (text start : String) : Bool := start.toList.isPrefixOf text.toList

def categoryFor (action targetType : String) : AuditCategory :=
  if startsWith action "auth." || targetType == "authentication" then .authentication
  else if registryActions.contains action then .applicationRegistry
  else if lifecycleActions.contains action then .applicationLifecycle
  else if startsWith action "system." || targetType == "system" then .system
  else .other

/-- A page of the category's filter holds the record, when the limit is large enough. -/
def Shown (py : Python) (db : AuditTable) (category : AuditCategory) (r : AuditEventRecord) : Prop :=
  ∃ limit page, list py db { limit := limit, category := some category } = .ok page ∧
    r ∈ page.events

/-- A target type with a category of its own goes with the actions of that category, and no other
target type with an action that only differs from them in its case. -/
def ToldApart (action targetType : String) : Prop :=
  if targetType = "authentication" then likeText "auth.%" action
  else if targetType = "system" then likeText "system.%" action
  else (likeText "auth.%" action → startsWith action "auth.") ∧
    (likeText "system.%" action → startsWith action "system.")

/-! ### Patterns that end in a wildcard -/

theorem like_any (escape : Option Char) (text : List Char) : like escape ['%'] text = true := by
  show text.tails.any (like escape []) = true
  rw [List.any_eq_true]
  exact ⟨[], (List.mem_tails _ _).mpr List.nil_suffix, rfl⟩

/-- A character that is no wildcard is compared with the next one. -/
theorem like_cons {escape : Option Char} {c : Char} (hpercent : c ≠ '%') (hunderscore : c ≠ '_')
    (hescape : escape ≠ some c) (pattern : List Char) (e : Char) (text : List Char) :
    like escape (c :: pattern) (e :: text) =
      (c.toLower == e.toLower && like escape pattern text) := by
  delta like
  simp only [like._f]
  rw [if_neg hescape]

theorem like_cons_nil {escape : Option Char} {c : Char} (hpercent : c ≠ '%')
    (hunderscore : c ≠ '_') (hescape : escape ≠ some c) (pattern : List Char) :
    like escape (c :: pattern) [] = false := by
  delta like
  simp [like._f, hescape]

/-- Plain characters before a last `%` are compared with the start of the text. -/
theorem like_start {start : List Char} (hpercent : '%' ∉ start) (hunderscore : '_' ∉ start)
    (text : List Char) :
    like none (start ++ ['%']) text =
      (start.map Char.toLower).isPrefixOf (text.map Char.toLower) := by
  induction start generalizing text with
  | nil => simp [like_any]
  | cons c start ih =>
      obtain ⟨hc, hpercent⟩ := List.ne_and_not_mem_of_not_mem_cons hpercent
      obtain ⟨hd, hunderscore⟩ := List.ne_and_not_mem_of_not_mem_cons hunderscore
      have hrest := ih hpercent hunderscore
      have hescape : (none : Option Char) ≠ some c := nofun
      cases text with
      | nil => simp [like_cons_nil hc.symm hd.symm hescape]
      | cons e text => simp [like_cons hc.symm hd.symm hescape, hrest, List.isPrefixOf]

theorem likeText_auth (action : String) :
    likeText "auth.%" action =
      "auth.".toList.isPrefixOf (action.toList.map Char.toLower) :=
  @like_start "auth.".toList (by decide) (by decide) action.toList

theorem likeText_system (action : String) :
    likeText "system.%" action =
      "system.".toList.isPrefixOf (action.toList.map Char.toLower) :=
  @like_start "system.".toList (by decide) (by decide) action.toList

/-- A start in lower case is also a start without the case. -/
theorem startsWith_lower {action start : String} (hlower : start.toList.map Char.toLower = start.toList)
    (h : startsWith action start = true) :
    start.toList.isPrefixOf (action.toList.map Char.toLower) = true := by
  rw [startsWith, List.isPrefixOf_iff_prefix] at h
  rw [List.isPrefixOf_iff_prefix, ← hlower]
  exact h.map Char.toLower

theorem likeText_of_startsWith_auth {action : String} (h : startsWith action "auth." = true) :
    likeText "auth.%" action = true :=
  (likeText_auth action).trans (startsWith_lower (by decide) h)

theorem likeText_of_startsWith_system {action : String} (h : startsWith action "system." = true) :
    likeText "system.%" action = true :=
  (likeText_system action).trans (startsWith_lower (by decide) h)

/-- No action begins with both words. -/
theorem not_likeText_system {action : String} (h : likeText "auth.%" action = true) :
    likeText "system.%" action = false := by
  rw [likeText_auth] at h
  rw [likeText_system]
  cases htext : action.toList.map Char.toLower with
  | nil => rfl
  | cons c text =>
      have hc : 'a' = c := by
        rw [htext, show "auth.".toList = ['a', 'u', 't', 'h', '.'] from rfl] at h
        simpa using (Bool.and_eq_true_iff.mp h).1
      subst hc
      rfl

/-- The actions of applications begin with neither. -/
theorem application_action {action : String}
    (h : (registryActions ++ lifecycleActions).contains action = true) :
    likeText "auth.%" action = false ∧ likeText "system.%" action = false := by
  rw [likeText_auth, likeText_system]
  have hall : ∀ a ∈ registryActions ++ lifecycleActions,
      "auth.".toList.isPrefixOf (a.toList.map Char.toLower) = false ∧
        "system.".toList.isPrefixOf (a.toList.map Char.toLower) = false := by decide
  exact hall action (List.contains_iff_mem.mp h)

theorem registry_not_lifecycle {action : String} (h : registryActions.contains action = true) :
    lifecycleActions.contains action = false := by
  have hall : ∀ a ∈ registryActions, lifecycleActions.contains a = false := by decide
  exact hall action (List.contains_iff_mem.mp h)

/-! ### The two classifications -/

theorem forall_category {p : AuditCategory → Prop} :
    (∀ c, p c) ↔ p .authentication ∧ p .applicationRegistry ∧ p .applicationLifecycle ∧
      p .system ∧ p .other := by
  constructor
  · intro h
    exact ⟨h _, h _, h _, h _, h _⟩
  · rintro ⟨hauth, hregistry, hlifecycle, hsystem, hother⟩ c
    cases c
    · exact hauth
    · exact hregistry
    · exact hlifecycle
    · exact hsystem
    · exact hother

/-- The condition of each category is the category displayed. -/
def ConditionsAgree (r : AuditEventRecord) : Prop :=
  ∀ c, categoryCondition c r = true ↔ categoryFor r.action r.targetType = c

theorem not_startsWith_auth {action : String} (h : likeText "auth.%" action = false) :
    startsWith action "auth." = false :=
  Bool.eq_false_iff.mpr fun hstart => by simp [likeText_of_startsWith_auth hstart] at h

theorem not_startsWith_system {action : String} (h : likeText "system.%" action = false) :
    startsWith action "system." = false :=
  Bool.eq_false_iff.mpr fun hstart => by simp [likeText_of_startsWith_system hstart] at h

theorem not_application_action {action : String}
    (h : likeText "auth.%" action = true ∨ likeText "system.%" action = true) :
    registryActions.contains action = false ∧ lifecycleActions.contains action = false := by
  rw [← Bool.or_eq_false_iff, ← List.contains_append, Bool.eq_false_iff]
  intro happlication
  obtain ⟨hauth, hsystem⟩ := application_action happlication
  simp [hauth, hsystem] at h

theorem agree_of_auth {r : AuditEventRecord} (hauth : likeText "auth.%" r.action = true) :
    ConditionsAgree r ↔ ToldApart r.action r.targetType := by
  have hsystem := not_likeText_system hauth
  have hstart := not_startsWith_system hsystem
  obtain ⟨hregistry, hlifecycle⟩ := not_application_action (.inl hauth)
  rw [ConditionsAgree, forall_category, ToldApart]
  simp only [categoryCondition, categoryFor, hauth, hsystem, hregistry, hlifecycle, hstart,
    List.contains_append]
  by_cases hauthentication : r.targetType = "authentication"
  · simp [hauthentication]
  · by_cases hsys : r.targetType = "system"
    · cases hexact : startsWith r.action "auth." <;> simp [hsys]
    · cases hexact : startsWith r.action "auth." <;> simp [hauthentication, hsys]

theorem agree_of_system {r : AuditEventRecord} (hsystem : likeText "system.%" r.action = true) :
    ConditionsAgree r ↔ ToldApart r.action r.targetType := by
  have hauth : likeText "auth.%" r.action = false :=
    Bool.eq_false_iff.mpr fun hauth => by simp [not_likeText_system hauth] at hsystem
  have hstart := not_startsWith_auth hauth
  obtain ⟨hregistry, hlifecycle⟩ := not_application_action (.inr hsystem)
  rw [ConditionsAgree, forall_category, ToldApart]
  simp only [categoryCondition, categoryFor, hauth, hsystem, hregistry, hlifecycle, hstart,
    List.contains_append]
  by_cases hauthentication : r.targetType = "authentication"
  · simp [hauthentication]
  · by_cases hsys : r.targetType = "system"
    · simp [hsys]
    · cases hexact : startsWith r.action "system." <;> simp [hauthentication, hsys]

/-- With an action of neither word the target type has to be no category's own. -/
theorem agree_of_neither {r : AuditEventRecord} (hauth : likeText "auth.%" r.action = false)
    (hsystem : likeText "system.%" r.action = false) :
    ConditionsAgree r ↔ ToldApart r.action r.targetType := by
  have hstartAuth := not_startsWith_auth hauth
  have hstartSystem := not_startsWith_system hsystem
  have happlication := @registry_not_lifecycle r.action
  rw [ConditionsAgree, forall_category, ToldApart]
  simp only [categoryCondition, categoryFor, hauth, hsystem, hstartAuth, hstartSystem,
    List.contains_append]
  cases hregistry : registryActions.contains r.action with
  | true =>
      simp only [happlication hregistry]
      by_cases hauthentication : r.targetType = "authentication"
      · simp [hauthentication]
      · by_cases hsys : r.targetType = "system" <;> simp [hauthentication, hsys]
  | false =>
      by_cases hauthentication : r.targetType = "authentication"
      · cases hlifecycle : lifecycleActions.contains r.action <;> simp [hauthentication]
      · by_cases hsys : r.targetType = "system" <;>
          cases hlifecycle : lifecycleActions.contains r.action <;>
            simp [hauthentication, hsys]

theorem conditionsAgree_iff (r : AuditEventRecord) :
    ConditionsAgree r ↔ ToldApart r.action r.targetType := by
  cases hauth : likeText "auth.%" r.action with
  | true => exact agree_of_auth hauth
  | false =>
      cases hsystem : likeText "system.%" r.action with
      | true => exact agree_of_system hsystem
      | false => exact agree_of_neither hauth hsystem

/-! ### The filters -/

theorem selects_category (py : Python) (category : AuditCategory) (r : AuditEventRecord) :
    ({ category := some category } : AuditFilters).selects py r = categoryCondition category r :=
  Bool.and_true _

theorem shown_iff (py : Python) (db : AuditTable) (category : AuditCategory)
    (r : AuditEventRecord) :
    Shown py db category r ↔ r ∈ db.rows ∧ categoryCondition category r = true := by
  have hselected := @selected_iff py db { category := some category } rfl rfl r
  rw [selects_category] at hselected
  exact hselected

/-- The filters show a record under the category displayed with it and under no other, so that
each record has one filter, exactly when its target type and its action tell one story. -/
theorem filters_exact_iff (py : Python) (db : AuditTable) (r : AuditEventRecord)
    (hr : r ∈ db.rows) :
    ((∀ c, Shown py db c r ↔ categoryFor r.action r.targetType = c) ∧ ∃! c, Shown py db c r) ↔
      ToldApart r.action r.targetType := by
  rw [← conditionsAgree_iff]
  constructor
  · intro ⟨hexact, _⟩ c
    rw [← hexact c, shown_iff]
    exact ⟨fun h => ⟨hr, h⟩, fun h => h.2⟩
  · intro hagree
    have hexact (c : AuditCategory) :
        Shown py db c r ↔ categoryFor r.action r.targetType = c := by
      rw [shown_iff, ← hagree c]
      exact ⟨fun h => h.2, fun h => ⟨hr, h⟩⟩
    refine ⟨hexact, categoryFor r.action r.targetType, (hexact _).mpr rfl, ?_⟩
    intro c hc
    exact ((hexact c).mp hc).symm

/-- A trail of one event about authentication. -/
def trail (action : String) : AuditTable :=
  ⟨[⟨⟨"a", eventId_a⟩, "admin", action, "authentication", "admin", "success", [], noon⟩],
    List.nodup_singleton _⟩

theorem filters_exact_login :
    ∃! c, Shown ⟨id, id, fun _ => "", 1, le_refl 1⟩ (trail "auth.login") c
      ⟨⟨"a", by decide⟩, "admin", "auth.login", "authentication", "admin", "success", [], noon⟩ :=
  ((filters_exact_iff ⟨id, id, fun _ => "", 1, le_refl 1⟩ (trail "auth.login") _
    List.mem_cons_self).mpr (likeText_of_startsWith_auth rfl)).2

/-- An event about authentication whose action does not say so is displayed as authentication,
and the filter for the rest shows it as well. -/
theorem filters_overlap :
    ∃ (py : Python) (db : AuditTable) (r : AuditEventRecord), r ∈ db.rows ∧
      categoryFor r.action r.targetType = .authentication ∧
      Shown py db .authentication r ∧ Shown py db .other r := by
  refine ⟨⟨id, id, fun _ => "", 1, le_refl 1⟩, trail "session.expired", _, List.mem_cons_self,
    rfl, ?_, ?_⟩
  · rw [shown_iff]
    exact ⟨List.mem_cons_self, by simp [categoryCondition]⟩
  · rw [shown_iff]
    refine ⟨List.mem_cons_self, ?_⟩
    rw [categoryCondition, likeText_auth, likeText_system]
    rfl

end MachineDeck.Audit

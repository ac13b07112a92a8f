import Mathlib.Data.Bool.AllAny
import MachineDeck.AuditCategories
import MachineDeck.AuditExposure

/-!
# The action a record shows and the filters for it

A record shows a name for its action, `normalized_action`, and a filter reads such a name back as
conditions on the stored action, result and reason.

* `normalizedAction`, `displayedAction` — the name;
* `redactText_rateLimited` — of all reasons only `rate_limited` is shown as such;
* `FoundAgain` — what a record has to be for its name to lead back to it;
* `action_filter_iff` — the filter for the displayed name finds the record, and the names of
  authentication show no other records, exactly then.
-/

namespace MachineDeck.Audit

open AuditRedaction JsonDump Redaction RegexText UrlQuery UrlSplit
open JsonText (Json member?)

/-! ### The name -/

/-- `details.get(name) == value`. -/
def detailEq (details : List (String × Json)) (name value : String) : Bool :=
  match member? details name with
  | some (.str s) => s == value
  | _ => false

def normalizedAction (r : AuditEventRecord) (details : List (String × Json)) : String :=
  if r.action = "auth.setup" then "SETUP_COMPLETED"
  else if r.action = "auth.login" then
    if r.result = "success" then "LOGIN_SUCCEEDED"
    else if detailEq details "reason" "rate_limited" then "RATE_LIMITED"
    else "LOGIN_FAILED"
  else if r.action = "auth.logout" then "LOGOUT"
  else String.ofList (rpartition '.' r.action.toList).2

/-- The sanitised details, without the members that are shown elsewhere. -/
def shownDetails (platform : AuditPlatform) (r : AuditEventRecord) : List (String × Json) :=
  match sanitizeAuditDetails platform (some r.detailsJson) with
  | .obj members => members.filter fun m => !(["target_name", "request"].contains m.1)
  | _ => []

def displayedAction (platform : AuditPlatform) (r : AuditEventRecord) : String :=
  normalizedAction r (shownDetails platform r)

def authenticationNames : List String :=
  ["LOGIN_SUCCEEDED", "LOGIN_FAILED", "RATE_LIMITED", "SETUP_COMPLETED", "LOGOUT"]

/-! ### Reasons as they are shown -/

section Reasons

variable {alphabet : Alphabet}

/-- A text without these signs is shown up to its limit. -/
theorem redactText_plain {text : List Char} (h : ∀ c ∈ text, c ≠ ':' ∧ c ≠ '=' ∧ c ≠ '.') :
    redactText alphabet text = text.take maxStringLength := by
  have hbounded : ∀ c ∈ text.take maxStringLength, c ≠ ':' ∧ c ≠ '=' ∧ c ≠ '.' :=
    fun c hc => h c (List.mem_of_mem_take hc)
  have hsign : ∀ c ∈ text.take maxStringLength, ¬ (c = ':' ∨ c = '=') :=
    fun c hc => not_or.mpr ⟨(hbounded c hc).1, (hbounded c hc).2.1⟩
  rw [redactText, sub_absent bearer_requires hsign, assignment,
    sub_absent (assignment_requires _) hsign,
    sub_absent jwt_requires fun c hc => (hbounded c hc).2.2,
    sub_absent url_requires fun c hc => (hbounded c hc).1]

/-- What a redaction puts in has one of these characters. -/
def Marks (c : Char) : Prop := c = '[' ∨ c = ':'

theorem keepGroups_marks (indices : List ℕ) (m : Place × List Char) :
    ∃ c ∈ keepGroups indices m.1 m.2, Marks c :=
  ⟨'[', List.mem_append_right _ (by decide), .inl rfl⟩

/-- A scheme is told from the rest by its colon. -/
theorem urlunsplit_marks {parts : SplitResult} (h : parts.scheme ≠ []) :
    ':' ∈ urlunsplit parts := by
  simp only [urlunsplit, if_pos h]
  generalize (if parts.netloc ≠ [] then _ else _ : List Char) = url
  have hurl : ':' ∈ parts.scheme ++ ':' :: url := List.mem_append_right _ List.mem_cons_self
  split_ifs
  · exact List.mem_append_left _ (List.mem_append_left _ hurl)
  · exact List.mem_append_left _ hurl
  · exact List.mem_append_left _ hurl
  · exact hurl

theorem redactUrl_marks {text : List Char} {m : Place × List Char}
    (h : m ∈ matchesOf alphabet.isWord urlPattern text) :
    ∃ c ∈ redactUrl alphabet m.2, Marks c := by
  obtain ⟨scheme, hscheme, tail, hpiece, -, htail⟩ := url_match h
  have hmarker : ∃ c ∈ "[REDACTED_URL]".toList, Marks c := ⟨'[', by decide, .inl rfl⟩
  have hsplit := urlsplit_web hscheme (fun c hc => urlChar_kept (htail c hc)) alphabet.tables
  rw [← hpiece] at hsplit
  rw [redactUrl]
  cases hparts : urlsplit alphabet.tables m.2 with
  | none => exact hmarker
  | some parts =>
      simp only
      cases hport : parts.port with
      | none => exact hmarker
      | some port =>
          have hnonempty : ∀ scheme ∈ webSchemes, scheme ≠ [] := by decide
          have hsame : parts.scheme = scheme := by
            rw [hparts] at hsplit
            simp only at hsplit
            split_ifs at hsplit
            rw [Option.some.inj hsplit]
          have hscheme : parts.scheme ≠ [] := hsame ▸ hnonempty scheme hscheme
          exact ⟨':', urlunsplit_marks hscheme, .inr rfl⟩

/-- A text that shows no such character is shown as it is. -/
theorem redactText_unmarked {text : List Char} (h : ∀ c ∈ redactText alphabet text, ¬ Marks c) :
    redactText alphabet text = text.take maxStringLength := by
  rw [redactText] at h ⊢
  have hurl := sub_unmarked (fun m hm => redactUrl_marks hm) h
  rw [hurl] at h ⊢
  have hjwt := sub_unmarked (fun m hm => ⟨'[', by decide, .inl rfl⟩) h
  rw [hjwt] at h ⊢
  have hassignment := sub_unmarked (fun m _ => keepGroups_marks [1, 2] m) h
  rw [hassignment] at h ⊢
  exact sub_unmarked (fun m _ => keepGroups_marks [1] m) h

theorem redactText_rateLimited (text : List Char) :
    redactText alphabet text = "rate_limited".toList ↔ text = "rate_limited".toList := by
  constructor
  · intro h
    have hunmarked : ∀ c ∈ redactText alphabet text, ¬ Marks c := by
      rw [h]
      unfold Marks
      exact List.all_iff_forall_prop.mp (by decide)
    have htake := (redactText_unmarked hunmarked).symm.trans h
    rw [← List.take_append_drop maxStringLength text, htake]
    have hlength := congrArg List.length htake
    rw [List.length_take] at hlength
    have hshort : text.length ≤ maxStringLength := by
      have htwelve : "rate_limited".toList.length = 12 := rfl
      rw [htwelve] at hlength
      unfold maxStringLength at hlength ⊢
      omega
    rw [List.drop_eq_nil_of_le hshort, List.append_nil]
  · intro h
    subst h
    exact redactText_plain (List.all_iff_forall_prop.mp (by decide))

/-- Nothing but the reason itself is shown as `rate_limited`. -/
theorem sanitize_rateLimited (v : Json) :
    sanitize alphabet v "reason" 1 = .str "rate_limited" ↔ v = .str "rate_limited" := by
  have hname : redactedName alphabet "reason" = none := rfl
  have hdepth : ¬ maxDepth ≤ 1 := by decide
  unfold sanitize
  rw [hname]
  simp only [if_neg hdepth]
  cases v with
  | str text =>
      rw [Json.str.injEq, Json.str.injEq, ← String.toList_inj, String.toList_ofList,
        ← String.toList_inj]
      exact redactText_rateLimited text.toList
  | obj members => exact ⟨nofun, nofun⟩
  | arr items => exact ⟨nofun, nofun⟩
  | null => rfl
  | bool b => rfl
  | int n => rfl
  | decimal d => rfl

/-- A name of fewer characters is not cut. -/
theorem shortName_reason (name : String) : shortName name = "reason" ↔ name = "reason" := by
  constructor
  · intro h
    have htake : name.toList.take 200 = "reason".toList := by
      rw [← h, shortName, String.toList_ofList]
    have hlength := congrArg List.length htake
    have hsix : "reason".toList.length = 6 := rfl
    rw [List.length_take, hsix] at hlength
    have hshort : name.toList.length ≤ 200 := by omega
    rw [List.take_of_length_le hshort, String.toList_inj] at htake
    exact htake
  · rintro rfl
    rfl

/-- The reason that is shown is the last one among the members that are kept. -/
theorem lastValue_assignments (members : List (String × Json)) (depth : ℕ) :
    lastValue (assignments alphabet members depth) "reason" =
      (lastValue (members.take maxCollectionItems) "reason").map
        fun v => sanitize alphabet v "reason" depth := by
  have htruncated : lastValue (truncatedItems members.length) "reason" = none := by
    rw [truncatedItems]
    split_ifs
    · rfl
    · rfl
  rw [assignments]
  induction members.take maxCollectionItems with
  | nil => exact htruncated
  | cons m kept ih =>
      rw [List.map_cons, List.cons_append, lastValue, ih, lastValue]
      cases lastValue kept "reason" with
      | some later => rfl
      | none =>
          by_cases hname : m.1 = "reason"
          · have hshort := (shortName_reason m.1).mpr hname
            simp only [Option.map_none, hshort, if_pos hname, Option.map_some, if_true]
          · have hshort : shortName m.1 ≠ "reason" := fun h => hname ((shortName_reason m.1).mp h)
            simp only [Option.map_none, if_neg hshort, if_neg hname]

end Reasons

/-- The reason is among the members that are kept, and the sanitised details are short enough to
be shown. -/
def KeepsReason (platform : AuditPlatform) (r : AuditEventRecord) : Prop :=
  "reason" ∈ (r.detailsJson.take maxCollectionItems).map Prod.fst ∧
    Utf8Text.byteSize (dumps platform.decimalText
      (sanitize platform.toAlphabet (.obj r.detailsJson) "" 0)) ≤ maxDetailsBytes

theorem detailEq_iff (details : List (String × Json)) (name value : String) :
    detailEq details name value = true ↔ lastValue details name = some (.str value) := by
  rw [detailEq, member?_eq]
  cases lastValue details name with
  | none => exact ⟨nofun, nofun⟩
  | some v =>
      cases v with
      | str s => simp
      | _ => exact ⟨nofun, nofun⟩

theorem detailIs_iff (name value : String) (r : AuditEventRecord) :
    detailIs name value r = true ↔ lastValue r.detailsJson name = some (.str value) :=
  detailEq_iff r.detailsJson name value

/-- Of a dictionary that is cut the values that are left are those of the dictionary. -/
theorem lastValue_take {β : Type} {items : List (String × β)} (hkeys : (items.map Prod.fst).Nodup)
    (n : ℕ) (key : String) (v : β) :
    lastValue (items.take n) key = some v ↔
      lastValue items key = some v ∧ key ∈ (items.take n).map Prod.fst := by
  have htake : ((items.take n).map Prod.fst).Nodup :=
    hkeys.sublist ((List.take_sublist n items).map Prod.fst)
  rw [lastValue_iff_mem htake, lastValue_iff_mem hkeys]
  constructor
  · intro h
    exact ⟨List.mem_of_mem_take h, List.mem_map_of_mem h⟩
  · intro ⟨h, hkey⟩
    obtain ⟨⟨k, w⟩, hmem, rfl⟩ := List.mem_map.mp hkey
    have hw := (lastValue_iff_mem hkeys).mpr (List.mem_of_mem_take hmem)
    have hv := (lastValue_iff_mem hkeys).mpr h
    rw [Option.some.inj (hv.symm.trans hw)]
    exact hmem

/-- A limited login is displayed as one where its reason is kept. -/
theorem limited_iff (platform : AuditPlatform) {r : AuditEventRecord}
    (hnames : (r.detailsJson.map Prod.fst).Nodup) :
    detailEq (shownDetails platform r) "reason" "rate_limited" = true ↔
      detailIs "reason" "rate_limited" r = true ∧ KeepsReason platform r := by
  have hsanitized := @sanitize_obj platform.toAlphabet "" 0 redactedName_empty (by decide)
    r.detailsJson
  rw [detailIs_iff, KeepsReason, hsanitized]
  by_cases hsize : Utf8Text.byteSize (dumps platform.decimalText
      (.obj (dictOf (assignments platform.toAlphabet r.detailsJson 1)))) ≤ maxDetailsBytes
  · have hshown : shownDetails platform r =
        (dictOf (assignments platform.toAlphabet r.detailsJson 1)).filter
          fun m => !(["target_name", "request"].contains m.1) := by
      rw [shownDetails, sanitizeAuditDetails_short platform hsanitized hsize]
    have hlast := @lastValue_filter Json (fun name => !(["target_name", "request"].contains name))
      (dictOf (assignments platform.toAlphabet r.detailsJson 1)) "reason" rfl
    rw [detailEq_iff, hshown, hlast, lastValue_dictOf, lastValue_assignments,
      and_iff_left hsize, ← lastValue_take hnames, Option.map_eq_some_iff]
    constructor
    · intro ⟨v, hv, hlimited⟩
      rw [(sanitize_rateLimited v).mp hlimited] at hv
      exact hv
    · intro hv
      exact ⟨_, hv, (sanitize_rateLimited _).mpr rfl⟩
  · obtain ⟨preview, hlong⟩ :=
      sanitizeAuditDetails_long platform hsanitized (Nat.not_le.mp hsize)
    have hnone : ¬ detailEq (shownDetails platform r) "reason" "rate_limited" = true := by
      rw [shownDetails, hlong]
      exact nofun
    exact iff_of_false hnone fun h => hsize h.2.2

/-! ### The filter -/

/-- Of ASCII texts `upper` changes the letters. -/
def AsciiUpper (py : Python) : Prop :=
  ∀ text : String, isAscii text.toList = true →
    py.upper text = String.ofList (text.toList.map Char.toUpper)

/-- The part of an action behind its last full stop. -/
def lastPart (action : String) : String := String.ofList (rpartition '.' action.toList).2

/-- A login that succeeded, or failed for one of the two reasons that the filters know; the limit
has to be shown as the reason. -/
def LoginFound (platform : AuditPlatform) (r : AuditEventRecord) : Prop :=
  r.result = "success" ∨ r.result = "failure" ∧
    (detailIs "reason" "invalid_credentials" r = true ∨
      detailIs "reason" "rate_limited" r = true ∧ KeepsReason platform r)

/-- Any other action has nothing behind its last full stop, or is that of an application, in lower
case and not called like an event of authentication. -/
def FoundAgain (py : Python) (platform : AuditPlatform) (r : AuditEventRecord) : Prop :=
  if r.action = "auth.setup" ∨ r.action = "auth.logout" then True
  else if r.action = "auth.login" then LoginFound platform r
  else lastPart r.action = "" ∨ py.upper (lastPart r.action) ∉ authenticationNames ∧
    r.action = "application." ++ py.lower (lastPart r.action)

theorem dot_not_mem_lastPart (action : String) : '.' ∉ (lastPart action).toList := by
  have hback (text : List Char) : '.' ∉ (cutAt (· == '.') text).1 := by
    intro h
    have hstop := List.mem_takeWhile_imp h
    cases hstop
  rw [lastPart, String.toList_ofList, rpartition]
  have hreverse := hback action.toList.reverse
  split
  · rename_i back hcut
    rw [hcut] at hreverse
    rwa [List.mem_reverse]
  · rename_i back c front hcut
    rw [hcut] at hreverse
    rwa [List.mem_reverse]

theorem selects_action (py : Python) (action : String) (r : AuditEventRecord) :
    ({ action := some action } : AuditFilters).selects py r =
      (action == "" || (actionConditions py action).all fun condition => condition r) := by
  have hselects : ({ action := some action } : AuditFilters).selects py r =
      ((given (some action)).toList.flatMap (actionConditions py)).all
        fun condition => condition r := by
    simp [AuditFilters.selects, AuditFilters.conditions, given]
  rw [hselects]
  by_cases haction : action = ""
  · subst haction
    rfl
  · have hgiven : given (some action) = some action := by simp [given, haction]
    rw [hgiven, beq_false_of_ne haction]
    simp

section Names

variable {py : Python}

theorem upper_name (hupper : AsciiUpper py) {name : String} (h : name ∈ authenticationNames) :
    py.upper name = name := by
  have hnames : ∀ name ∈ authenticationNames, isAscii name.toList = true ∧
      String.ofList (name.toList.map Char.toUpper) = name := by decide
  exact (hupper name (hnames name h).1).trans (hnames name h).2

/-- What a name of authentication, in any case, is read back as. -/
theorem selects_name {action : String} (hname : py.upper action ∈ authenticationNames)
    (hempty : action ≠ "") (r : AuditEventRecord) :
    ({ action := some action } : AuditFilters).selects py r = true ↔
      (py.upper action = "LOGIN_SUCCEEDED" ∧ r.action = "auth.login" ∧ r.result = "success") ∨
      (py.upper action = "LOGIN_FAILED" ∧ r.action = "auth.login" ∧ r.result = "failure" ∧
        detailIs "reason" "invalid_credentials" r = true) ∨
      (py.upper action = "RATE_LIMITED" ∧ r.action = "auth.login" ∧ r.result = "failure" ∧
        detailIs "reason" "rate_limited" r = true) ∨
      (py.upper action = "SETUP_COMPLETED" ∧ r.action = "auth.setup") ∨
      (py.upper action = "LOGOUT" ∧ r.action = "auth.logout") := by
  rw [selects_action, beq_false_of_ne hempty, Bool.false_or, actionConditions]
  simp only [authenticationNames, List.mem_cons, List.not_mem_nil, or_false] at hname
  rcases hname with h | h | h | h | h <;> simp [h]

/-- Any other name is read as the action of an application, unless it has a full stop. -/
theorem selects_other {action : String} (hname : py.upper action ∉ authenticationNames)
    (hempty : action ≠ "") (hdot : '.' ∉ action.toList) (r : AuditEventRecord) :
    ({ action := some action } : AuditFilters).selects py r = true ↔
      r.action = "application." ++ py.lower action := by
  rw [selects_action, beq_false_of_ne hempty, Bool.false_or, actionConditions]
  simp only [authenticationNames, List.mem_cons, List.not_mem_nil, or_false, not_or] at hname
  obtain ⟨hsucceeded, hfailed, hlimited, hsetup, hlogout⟩ := hname
  simp [hsucceeded, hfailed, hlimited, hsetup, hlogout, hdot]

/-- A record of no event of authentication shows the part behind its last full stop. -/
theorem displayedAction_other (platform : AuditPlatform) {r : AuditEventRecord}
    (hsetup : r.action ≠ "auth.setup") (hlogin : r.action ≠ "auth.login")
    (hlogout : r.action ≠ "auth.logout") : displayedAction platform r = lastPart r.action := by
  rw [displayedAction, normalizedAction, if_neg hsetup, if_neg hlogin, if_neg hlogout, lastPart]

theorem displayedAction_login (platform : AuditPlatform) {r : AuditEventRecord}
    (hlogin : r.action = "auth.login") (hnames : (r.detailsJson.map Prod.fst).Nodup) :
    displayedAction platform r = "LOGIN_SUCCEEDED" ∧ r.result = "success" ∨
    displayedAction platform r = "RATE_LIMITED" ∧ r.result ≠ "success" ∧
      detailIs "reason" "rate_limited" r = true ∧ KeepsReason platform r ∨
    displayedAction platform r = "LOGIN_FAILED" ∧ r.result ≠ "success" ∧
      ¬ (detailIs "reason" "rate_limited" r = true ∧ KeepsReason platform r) := by
  have hsetup : r.action ≠ "auth.setup" := by
    rw [hlogin]
    decide
  rw [displayedAction, normalizedAction, if_neg hsetup, if_pos hlogin]
  by_cases hresult : r.result = "success"
  · exact .inl ⟨if_pos hresult, hresult⟩
  · rw [if_neg hresult]
    by_cases hlimited : detailEq (shownDetails platform r) "reason" "rate_limited" = true
    · exact .inr (.inl ⟨if_pos hlimited, hresult, (limited_iff platform hnames).mp hlimited⟩)
    · exact .inr (.inr ⟨if_neg hlimited, hresult,
        fun h => hlimited ((limited_iff platform hnames).mpr h)⟩)

/-- A reason is one of the two, not both. -/
theorem reason_unique {r : AuditEventRecord} (h : detailIs "reason" "invalid_credentials" r = true) :
    ¬ detailIs "reason" "rate_limited" r = true := by
  intro h'
  rw [detailIs_iff] at h h'
  rw [h] at h'
  exact absurd (Json.str.inj (Option.some.inj h')) (by decide)

theorem found_login (hupper : AsciiUpper py) (platform : AuditPlatform) {r : AuditEventRecord}
    (hlogin : r.action = "auth.login") (hnames : (r.detailsJson.map Prod.fst).Nodup) :
    ({ action := some (displayedAction platform r) } : AuditFilters).selects py r = true ↔
      LoginFound platform r := by
  have hsame {name : String} (h : name ∈ authenticationNames) : py.upper name = name :=
    upper_name hupper h
  rw [LoginFound]
  rcases displayedAction_login platform hlogin hnames with
    ⟨hname, hresult⟩ | ⟨hname, hresult, hlimited, hkept⟩ | ⟨hname, hresult, hnot⟩
  · rw [hname, selects_name (by rw [hsame (by decide)]; decide) (by decide), hsame (by decide)]
    simp [hlogin, hresult]
  · rw [hname, selects_name (by rw [hsame (by decide)]; decide) (by decide), hsame (by decide)]
    simp [hlogin, hresult, hlimited, hkept]
  · rw [hname, selects_name (by rw [hsame (by decide)]; decide) (by decide), hsame (by decide)]
    simp [hlogin, hresult, hnot]

theorem found_iff (hupper : AsciiUpper py) (platform : AuditPlatform) {r : AuditEventRecord}
    (hnames : (r.detailsJson.map Prod.fst).Nodup) :
    ({ action := some (displayedAction platform r) } : AuditFilters).selects py r = true ↔
      FoundAgain py platform r := by
  rw [FoundAgain]
  by_cases hsetup : r.action = "auth.setup"
  · have hdisplayed : displayedAction platform r = "SETUP_COMPLETED" := by
      rw [displayedAction, normalizedAction, if_pos hsetup]
    have hname := @upper_name py hupper "SETUP_COMPLETED" (by decide)
    rw [hdisplayed, selects_name (by rw [hname]; decide) (by decide), hname]
    simp [hsetup]
  · by_cases hlogin : r.action = "auth.login"
    · rw [found_login hupper platform hlogin hnames]
      simp [hlogin]
    · by_cases hlogout : r.action = "auth.logout"
      · have hdisplayed : displayedAction platform r = "LOGOUT" := by
          rw [displayedAction, normalizedAction, if_neg hsetup, if_neg hlogin, if_pos hlogout]
        have hname := @upper_name py hupper "LOGOUT" (by decide)
        rw [hdisplayed, selects_name (by rw [hname]; decide) (by decide), hname]
        simp [hlogout]
      · rw [displayedAction_other platform hsetup hlogin hlogout, if_neg (by simp [hsetup, hlogout]),
          if_neg hlogin]
        by_cases hempty : lastPart r.action = ""
        · rw [selects_action, hempty]
          simp
        · rw [or_iff_right hempty]
          by_cases hname : py.upper (lastPart r.action) ∈ authenticationNames
          · rw [selects_name hname hempty]
            simp [hsetup, hlogin, hlogout, hname]
          · rw [selects_other hname hempty (dot_not_mem_lastPart r.action), and_iff_right hname]

/-- Where a record is found again, the names of authentication that show it are its own. -/
theorem name_displayed (hupper : AsciiUpper py) (platform : AuditPlatform) {r : AuditEventRecord}
    (hnames : (r.detailsJson.map Prod.fst).Nodup) (hfound : FoundAgain py platform r)
    {name : String} (hname : name ∈ authenticationNames)
    (h : ({ action := some name } : AuditFilters).selects py r = true) :
    displayedAction platform r = name := by
  have hsame := upper_name hupper hname
  have hempty : name ≠ "" := by
    rintro rfl
    revert hname
    decide
  rw [selects_name (hsame.symm ▸ hname) hempty, hsame] at h
  have hlogin (hlogin : r.action = "auth.login") : LoginFound platform r := by
    simpa [FoundAgain, hlogin] using hfound
  rcases h with ⟨rfl, haction, hresult⟩ | ⟨rfl, haction, hresult, hreason⟩ |
    ⟨rfl, haction, hresult, hreason⟩ | ⟨rfl, haction⟩ | ⟨rfl, haction⟩
  · simp [displayedAction, normalizedAction, haction, hresult]
  · have hnot := reason_unique hreason
    rcases displayedAction_login platform haction hnames with h | h | h
    · simp [hresult] at h
    · exact absurd h.2.2.1 hnot
    · exact h.1
  · have hnot : ¬ detailIs "reason" "invalid_credentials" r = true := fun h =>
      reason_unique h hreason
    have hkept : KeepsReason platform r := by
      simpa [LoginFound, hresult, hnot, hreason] using hlogin haction
    rcases displayedAction_login platform haction hnames with h | h | h
    · simp [hresult] at h
    · exact h.1
    · exact absurd ⟨hreason, hkept⟩ h.2.2
  · simp [displayedAction, normalizedAction, haction]
  · simp [displayedAction, normalizedAction, haction]

end Names

/-- The filter for the name a record displays shows the record, and a name of authentication shows
it under no other name, exactly when the record is found again. -/
theorem action_filter_iff (py : Python) (hupper : AsciiUpper py) (platform : AuditPlatform)
    (db : AuditTable) (r : AuditEventRecord) (hr : r ∈ db.rows)
    (hnames : (r.detailsJson.map Prod.fst).Nodup) :
    (Selected py db { action := some (displayedAction platform r) } r ∧
      ∀ name ∈ authenticationNames, Selected py db { action := some name } r →
        displayedAction platform r = name) ↔
      FoundAgain py platform r := by
  have hselected (action : String) :=
    @selected_iff py db { action := some action } rfl rfl r
  simp only [hselected, hr, true_and]
  rw [found_iff hupper platform hnames]
  constructor
  · exact fun h => h.1
  · intro hfound
    exact ⟨hfound, fun name hname h =>
      name_displayed hupper platform hnames hfound hname h⟩

/-- Python where only ASCII has two cases. -/
def asciiPython : Python :=
  ⟨fun s => String.ofList (s.toList.map Char.toUpper),
    fun s => String.ofList (s.toList.map Char.toLower), fun _ => "", 1, le_refl 1⟩

theorem asciiPython_upper : AsciiUpper asciiPython := fun _ _ => rfl

theorem action_filter_iff_start :
    Selected asciiPython (trail "application.start")
      { action := some (displayedAction asciiPlatform ⟨⟨"a", by decide⟩, "admin",
        "application.start", "authentication", "admin", "success", [], noon⟩) }
      ⟨⟨"a", by decide⟩, "admin", "application.start", "authentication", "admin", "success", [],
        noon⟩ :=
  ((action_filter_iff asciiPython asciiPython_upper asciiPlatform (trail "application.start") _
    List.mem_cons_self List.nodup_nil).mpr (.inr ⟨by decide, by decide⟩)).1

/-- A login that failed, with no reason. -/
def failedLogin : AuditEventRecord :=
  ⟨⟨"a", eventId_a⟩, "admin", "auth.login", "authentication", "admin", "failure", [], noon⟩

/-- It is displayed as a failed login, and the filter for failed logins leaves it out. -/
theorem failed_login_not_found :
    ∃ (py : Python) (platform : AuditPlatform) (db : AuditTable) (r : AuditEventRecord),
      AsciiUpper py ∧ r ∈ db.rows ∧ displayedAction platform r = "LOGIN_FAILED" ∧
      ¬ Selected py db { action := some (displayedAction platform r) } r := by
  refine ⟨asciiPython, asciiPlatform, ⟨[failedLogin], List.nodup_singleton _⟩, failedLogin,
    asciiPython_upper, List.mem_cons_self, ?_, ?_⟩
  · rcases @displayedAction_login asciiPlatform failedLogin rfl List.nodup_nil with h | h | h
    · exact absurd h.2 (by decide)
    · exact absurd h.2.2.1 (by decide)
    · exact h.1
  · intro h
    have hselects := ((selected_iff rfl rfl _).mp h).2
    have hlogin := @found_login asciiPython asciiPython_upper asciiPlatform failedLogin rfl
      List.nodup_nil
    rcases hlogin.mp hselects with hresult | ⟨-, hreason | ⟨hreason, -⟩⟩
    · exact absurd hresult (by decide)
    · exact absurd hreason (by decide)
    · exact absurd hreason (by decide)

end MachineDeck.Audit

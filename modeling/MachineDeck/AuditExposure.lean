import MachineDeck.AuditRedaction
import MachineDeck.Utf8Cut

/-!
# What sensitive values have an influence on

* `withoutSensitive` — what two documents agree on that differ in sensitive values only;
* `Exposed` — a sensitive value that is treated as an ordinary one, because only the beginning of
  its name is looked at;
* `sanitize_hidden`, `exposed_planted` — other values are not given away, such a value is;
* `sanitizeAuditDetails_iff` — also where the details are too long and only their beginning is
  shown.
-/

namespace AuditRedaction

open JsonDump JsonText Redaction RegexText

def sensitiveName (alphabet : Alphabet) (key : String) : Bool := (redactedName alphabet key).isSome

mutual

/-- A document with nothing under its sensitive names. -/
def withoutSensitive (alphabet : Alphabet) : Json → Json
  | .obj members => .obj (membersWithout alphabet members)
  | .arr items => .arr (itemsWithout alphabet items)
  | value => value

def membersWithout (alphabet : Alphabet) : List (String × Json) → List (String × Json)
  | [] => []
  | (name, value) :: members =>
    (name, if sensitiveName alphabet name then .null else withoutSensitive alphabet value) ::
      membersWithout alphabet members

def itemsWithout (alphabet : Alphabet) : List Json → List Json
  | [] => []
  | value :: items => withoutSensitive alphabet value :: itemsWithout alphabet items

end

/-- The names an object is given, one assignment after the other. -/
def assignedNames (members : List (String × Json)) : List String :=
  (members.take maxCollectionItems).map (fun m => shortName m.1) ++
    (truncatedItems members.length).map Prod.fst

/-- Somewhere in a document a name is sensitive, its beginning is not, and the value is neither
left out for its place or its depth nor replaced by a later one. -/
inductive Exposed (alphabet : Alphabet) : ℕ → Json → Prop where
  | here {depth i : ℕ} {members : List (String × Json)} {name : String} {value : Json}
      (hi : i < maxCollectionItems) (hmember : members[i]? = some (name, value))
      (hkept : shortName name ∉ (assignedNames members).drop (i + 1))
      (hname : sensitiveName alphabet name = true)
      (hshort : redactedName alphabet (shortName name) = none)
      (hdepth : depth + 1 < maxDepth) : Exposed alphabet depth (.obj members)
  | member {depth i : ℕ} {members : List (String × Json)} {name : String} {value : Json}
      (hi : i < maxCollectionItems) (hmember : members[i]? = some (name, value))
      (hkept : shortName name ∉ (assignedNames members).drop (i + 1))
      (hname : sensitiveName alphabet name = false)
      (hshort : redactedName alphabet (shortName name) = none)
      (hvalue : Exposed alphabet (depth + 1) value) : Exposed alphabet depth (.obj members)
  | item {depth i : ℕ} {items : List Json} {value : Json}
      (hi : i < maxCollectionItems) (hitem : items[i]? = some value)
      (hvalue : Exposed alphabet (depth + 1) value) : Exposed alphabet depth (.arr items)

section Documents

variable {alphabet : Alphabet}

theorem membersWithout_eq (members : List (String × Json)) :
    membersWithout alphabet members = members.map fun m =>
      (m.1, if sensitiveName alphabet m.1 then .null else withoutSensitive alphabet m.2) := by
  induction members with
  | nil => rfl
  | cons m members ih => rw [membersWithout, ih, List.map_cons]

theorem itemsWithout_eq (items : List Json) :
    itemsWithout alphabet items = items.map (withoutSensitive alphabet) := by
  induction items with
  | nil => rfl
  | cons v items ih => rw [itemsWithout, ih, List.map_cons]

theorem sanitizeMembers_eq (n : ℕ) (members : List (String × Json)) (depth : ℕ) :
    sanitizeMembers alphabet n members depth = (members.take n).map fun m =>
      (shortName m.1, sanitize alphabet m.2 (shortName m.1) depth) := by
  induction n generalizing members with
  | zero => rw [sanitizeMembers, List.take_zero, List.map_nil]
  | succ n ih =>
    cases members with
    | nil => rw [sanitizeMembers, List.take_nil, List.map_nil]
    | cons m members => rw [sanitizeMembers, ih, List.take_succ_cons, List.map_cons]

theorem sanitizeItems_eq (n : ℕ) (items : List Json) (depth : ℕ) :
    sanitizeItems alphabet n items depth =
      (items.take n).map fun v => sanitize alphabet v "" depth := by
  induction n generalizing items with
  | zero => rw [sanitizeItems, List.take_zero, List.map_nil]
  | succ n ih =>
    cases items with
    | nil => rw [sanitizeItems, List.take_nil, List.map_nil]
    | cons v items => rw [sanitizeItems, ih, List.take_succ_cons, List.map_cons]

/-! ### What is done with a value -/

theorem sanitize_redacted {key : String} {redacted : Json}
    (h : redactedName alphabet key = some redacted) (value : Json) (depth : ℕ) :
    sanitize alphabet value key depth = redacted := by
  unfold sanitize
  rw [h]

theorem sanitize_deep {key : String} (h : redactedName alphabet key = none) {depth : ℕ}
    (hdepth : maxDepth ≤ depth) (value : Json) :
    sanitize alphabet value key depth = .str "[TRUNCATED_DEPTH]" := by
  unfold sanitize
  rw [h]
  exact if_pos hdepth

/-- What an object is built from. -/
def assignments (alphabet : Alphabet) (members : List (String × Json)) (depth : ℕ) :
    List (String × Json) :=
  ((members.take maxCollectionItems).map fun m =>
    (shortName m.1, sanitize alphabet m.2 (shortName m.1) depth)) ++ truncatedItems members.length

variable {key : String} {depth : ℕ}

theorem sanitize_obj (h : redactedName alphabet key = none) (hdepth : depth < maxDepth)
    (members : List (String × Json)) :
    sanitize alphabet (.obj members) key depth =
      .obj (dictOf (assignments alphabet members (depth + 1))) := by
  rw [sanitize, h, assignments, ← sanitizeMembers_eq]
  exact if_neg (Nat.not_le.mpr hdepth)

theorem sanitize_arr (h : redactedName alphabet key = none) (hdepth : depth < maxDepth)
    (items : List Json) :
    sanitize alphabet (.arr items) key depth =
      .arr (((items.take maxCollectionItems).map fun v => sanitize alphabet v "" (depth + 1)) ++
        truncatedList items.length) := by
  rw [sanitize, h, ← sanitizeItems_eq]
  exact if_neg (Nat.not_le.mpr hdepth)

theorem sanitize_int (h : redactedName alphabet key = none) (hdepth : depth < maxDepth) (n : ℤ) :
    sanitize alphabet (.int n) key depth = .int n := by
  unfold sanitize
  rw [h]
  exact if_neg (Nat.not_le.mpr hdepth)

theorem assignments_names (members : List (String × Json)) :
    (assignments alphabet members depth).map Prod.fst = assignedNames members := by
  rw [assignments, List.map_append, List.map_map, assignedNames]
  rfl

/-! ### Values that are not given away -/

theorem getElem?_take_map {β γ : Type} (f : β → γ) (l : List β) (n i : ℕ) (c : γ)
    (h : ((l.take n).map f)[i]? = some c) : i < n ∧ ∃ b, l[i]? = some b ∧ f b = c := by
  rw [List.getElem?_map, List.getElem?_take] at h
  split_ifs at h with hi
  · obtain ⟨b, hb, hc⟩ := Option.map_eq_some_iff.mp h
    exact ⟨hi, b, hb, hc⟩
  · cases h

/-- The members of two documents that differ in sensitive values only. -/
theorem member_agree {members members' : List (String × Json)}
    (h : membersWithout alphabet members' = membersWithout alphabet members) {i : ℕ}
    {m m' : String × Json} (hm : members[i]? = some m) (hm' : members'[i]? = some m') :
    m'.1 = m.1 ∧ (sensitiveName alphabet m.1 = false →
      withoutSensitive alphabet m'.2 = withoutSensitive alphabet m.2) := by
  have hpair := congrArg (·[i]?) h
  simp only [membersWithout_eq, List.getElem?_map, hm, hm', Option.map_some, Option.some.injEq,
    Prod.mk.injEq] at hpair
  obtain ⟨hname, hvalue⟩ := hpair
  refine ⟨hname, fun hplain => ?_⟩
  rw [hname, hplain] at hvalue
  exact hvalue

theorem membersWithout_names {members members' : List (String × Json)}
    (h : membersWithout alphabet members' = membersWithout alphabet members) :
    members'.map Prod.fst = members.map Prod.fst := by
  have hnames := congrArg (List.map Prod.fst) h
  rw [membersWithout_eq, membersWithout_eq, List.map_map, List.map_map] at hnames
  exact hnames

theorem assignedNames_eq {members members' : List (String × Json)}
    (h : members'.map Prod.fst = members.map Prod.fst) :
    assignedNames members' = assignedNames members := by
  have hshort (l : List (String × Json)) :
      (l.take maxCollectionItems).map (fun m => shortName m.1) =
        ((l.map Prod.fst).take maxCollectionItems).map shortName := by
    rw [← List.map_take, List.map_map]
    rfl
  have hlength : members'.length = members.length := by
    have hlengths := congrArg List.length h
    rwa [List.length_map, List.length_map] at hlengths
  rw [assignedNames, assignedNames, hshort, hshort, h, hlength]

/-- No list and no object. -/
def isLeaf : Json → Bool
  | .obj _ | .arr _ => false
  | _ => true

theorem eq_of_leaf {v v' : Json} (hv : withoutSensitive alphabet v = v) (hleaf : isLeaf v = true)
    (hagree : withoutSensitive alphabet v' = withoutSensitive alphabet v) : v' = v := by
  rw [hv] at hagree
  subst hagree
  cases v' with
  | obj | arr => simp only [withoutSensitive, isLeaf, Bool.false_eq_true] at hleaf
  | _ => simp only [withoutSensitive]

/-- A member that is not exposed, where its value shows nothing it should not. -/
theorem sanitize_member {members : List (String × Json)} {i : ℕ} {m : String × Json} {v' : Json}
    (hinside : ∀ m ∈ members, ∀ (v' : Json) (key : String) (depth : ℕ),
      withoutSensitive alphabet v' = withoutSensitive alphabet m.2 →
      (redactedName alphabet key = none → ¬ Exposed alphabet depth m.2) →
      sanitize alphabet v' key depth = sanitize alphabet m.2 key depth)
    (hm : members[i]? = some m) (hkept : shortName m.1 ∉ (assignedNames members).drop (i + 1))
    (hi : i < maxCollectionItems) (hhidden : ¬ Exposed alphabet depth (.obj members))
    (hplain : sensitiveName alphabet m.1 = false →
      withoutSensitive alphabet v' = withoutSensitive alphabet m.2) :
    sanitize alphabet v' (shortName m.1) (depth + 1) =
      sanitize alphabet m.2 (shortName m.1) (depth + 1) := by
  cases hshort : redactedName alphabet (shortName m.1) with
  | some redacted => rw [sanitize_redacted hshort, sanitize_redacted hshort]
  | none =>
    cases hname : sensitiveName alphabet m.1 with
    | true =>
      -- the value of a sensitive name is not shown only below a certain depth
      have hdeep : maxDepth ≤ depth + 1 := by
        apply Nat.not_lt.mp
        exact fun hdepth => hhidden (.here hi hm hkept hname hshort hdepth)
      rw [sanitize_deep hshort hdeep, sanitize_deep hshort hdeep]
    | false =>
      exact hinside m (List.mem_of_getElem? hm) v' _ _ (hplain hname)
        fun _ hvalue => hhidden (.member hi hm hkept hname hshort hvalue)

/-- **What is not exposed** has no influence on what is shown. -/
theorem sanitize_hidden (v : Json) : ∀ (v' : Json) (key : String) (depth : ℕ),
    withoutSensitive alphabet v' = withoutSensitive alphabet v →
    (redactedName alphabet key = none → ¬ Exposed alphabet depth v) →
    sanitize alphabet v' key depth = sanitize alphabet v key depth := by
  induction v using json_induction with
  | null | bool | int | decimal | str =>
    intro v' key depth hagree _
    rw [eq_of_leaf (by simp only [withoutSensitive]) rfl hagree]
  | arr items ih =>
    intro v' key depth hagree hhidden
    cases v' with
    | arr items' =>
      simp only [withoutSensitive, itemsWithout_eq, Json.arr.injEq] at hagree
      cases hname : redactedName alphabet key with
      | some redacted => rw [sanitize_redacted hname, sanitize_redacted hname]
      | none =>
        rcases Nat.lt_or_ge depth maxDepth with hdepth | hdepth
        · have hlength : items'.length = items.length := by
            have hlengths := congrArg List.length hagree
            rwa [List.length_map, List.length_map] at hlengths
          rw [sanitize_arr hname hdepth, sanitize_arr hname hdepth, hlength]
          congr 2
          apply List.ext_getElem? fun i => ?_
          rw [List.getElem?_map, List.getElem?_map, List.getElem?_take, List.getElem?_take]
          split_ifs with hi
          · have hitem := congrArg (·[i]?) hagree
            simp only [List.getElem?_map] at hitem
            cases hv : items[i]? with
            | none =>
              rw [hv, Option.map_none, Option.map_eq_none_iff] at hitem
              rw [hitem]
            | some v =>
              rw [hv, Option.map_some, Option.map_eq_some_iff] at hitem
              obtain ⟨v', hv', hvalue⟩ := hitem
              rw [hv', Option.map_some, Option.map_some,
                ih v (List.mem_of_getElem? hv) v' "" (depth + 1) hvalue
                  fun _ hexposed => hhidden hname (.item hi hv hexposed)]
          · rfl
        · rw [sanitize_deep hname hdepth, sanitize_deep hname hdepth]
    | _ => simp only [withoutSensitive, reduceCtorEq] at hagree
  | obj members ih =>
    intro v' key depth hagree hhidden
    cases v' with
    | obj members' =>
      simp only [withoutSensitive, Json.obj.injEq] at hagree
      cases hname : redactedName alphabet key with
      | some redacted => rw [sanitize_redacted hname, sanitize_redacted hname]
      | none =>
        rcases Nat.lt_or_ge depth maxDepth with hdepth | hdepth
        · have hnames := membersWithout_names hagree
          have hlength : members'.length = members.length := by
            have hlengths := congrArg List.length hnames
            rwa [List.length_map, List.length_map] at hlengths
          rw [sanitize_obj hname hdepth, sanitize_obj hname hdepth]
          congr 1
          apply dictOf_congr
          · rw [assignments_names, assignments_names, assignedNames_eq hnames]
          · intro i name u u' hu hu' hkept
            rw [assignments_names] at hkept
            rw [assignments, List.getElem?_append, List.length_map, List.length_take] at hu hu'
            rw [hlength] at hu'
            split_ifs at hu hu' with hfront
            · obtain ⟨hi, m, hm, hvalue⟩ := getElem?_take_map _ _ _ _ _ hu
              obtain ⟨-, m', hm', hvalue'⟩ := getElem?_take_map _ _ _ _ _ hu'
              obtain ⟨rfl, rfl⟩ := Prod.mk.inj hvalue
              obtain ⟨-, rfl⟩ := Prod.mk.inj hvalue'
              obtain ⟨hsame, hplain⟩ := member_agree hagree hm hm'
              rw [hsame]
              exact sanitize_member ih hm hkept hi (hhidden hname) hplain
            · rw [hu] at hu'
              exact (Prod.mk.inj (Option.some.inj hu')).2.symm
        · rw [sanitize_deep hname hdepth, sanitize_deep hname hdepth]
    | _ => simp only [withoutSensitive, reduceCtorEq] at hagree

/-! ### Values that are given away -/

theorem withoutSensitive_obj (members : List (String × Json)) :
    withoutSensitive alphabet (.obj members) = .obj (membersWithout alphabet members) := by
  rw [withoutSensitive]

/-- An object in which a value that is kept can be exchanged for a number. -/
theorem member_planted {members : List (String × Json)} {i : ℕ} {name : String} {value : Json}
    (hkey : redactedName alphabet key = none) (hdepth : depth < maxDepth)
    (hi : i < maxCollectionItems) (hmember : members[i]? = some (name, value))
    (hkept : shortName name ∉ (assignedNames members).drop (i + 1)) (inside : Context)
    (hinside : ∀ n : ℤ, ∃ value', (sensitiveName alphabet name = false →
        withoutSensitive alphabet value' = withoutSensitive alphabet value) ∧
      sanitize alphabet value' (shortName name) (depth + 1) = inside.fill (.int n)) :
    ∃ c : Context, ∀ n : ℤ, ∃ v', withoutSensitive alphabet v' =
        withoutSensitive alphabet (.obj members) ∧
      sanitize alphabet v' key depth = c.fill (.int n) := by
  obtain ⟨hlength, hget⟩ := List.getElem?_eq_some_iff.mp hmember
  have hsplit : members = members.take i ++ (name, value) :: members.drop (i + 1) := by
    rw [← hget, List.getElem_cons_drop, List.take_append_drop]
  generalize hbefore : members.take i = before at hsplit
  generalize members.drop (i + 1) = behind at hsplit
  have hcount : before.length = i := by
    rw [← hbefore, List.length_take]
    omega
  subst hsplit
  have hsize (u : Json) : (before ++ (name, u) :: behind).length =
      (before ++ (name, value) :: behind).length := by
    rw [List.length_append, List.length_append, List.length_cons, List.length_cons]
  -- what is assigned before, and behind
  have htake (u : Json) : (before ++ (name, u) :: behind).take maxCollectionItems =
      before ++ (name, u) :: behind.take (maxCollectionItems - (i + 1)) := by
    have hmore : maxCollectionItems - before.length = maxCollectionItems - (i + 1) + 1 := by omega
    rw [List.take_append, List.take_of_length_le (by omega), hmore, List.take_succ_cons]
  let write (m : String × Json) : String × Json :=
    (shortName m.1, sanitize alphabet m.2 (shortName m.1) (depth + 1))
  let later := (behind.take (maxCollectionItems - (i + 1))).map write ++
    truncatedItems (before ++ (name, value) :: behind).length
  have hassigned (u : Json) : assignments alphabet (before ++ (name, u) :: behind) (depth + 1) =
      before.map write ++ (shortName name, sanitize alphabet u (shortName name) (depth + 1)) ::
        later := by
    rw [assignments, htake, hsize, List.map_append, List.map_cons, List.append_assoc]
    rfl
  have hlater : shortName name ∉ later.map Prod.fst := by
    have hnames : (assignments alphabet (before ++ (name, value) :: behind) (depth + 1)).map
        Prod.fst = assignedNames (before ++ (name, value) :: behind) := assignments_names _
    rw [hassigned value, List.map_append, List.map_cons] at hnames
    have hfront : ((before.map write).map Prod.fst).length = i := by
      rw [List.length_map, List.length_map, hcount]
    rw [← hnames, List.append_cons, List.drop_left' (by
      rw [List.length_append, hfront, List.length_singleton])] at hkept
    exact hkept
  obtain ⟨front, back, hdict⟩ := dictOf_planted (before.map write) later hlater .null
  refine ⟨.member front (shortName name) inside back, fun n => ?_⟩
  obtain ⟨value', hagree, hvalue⟩ := hinside n
  refine ⟨.obj (before ++ (name, value') :: behind), ?_, ?_⟩
  · rw [withoutSensitive_obj, withoutSensitive_obj, membersWithout_eq, membersWithout_eq,
      List.map_append, List.map_append, List.map_cons, List.map_cons]
    congr 3
    cases hname : sensitiveName alphabet name with
    | true => simp only [if_true]
    | false => simp only [Bool.false_eq_true, if_false, hagree hname]
  · rw [sanitize_obj hkey hdepth, hassigned, hvalue, hdict, Context.fill]

/-- A list in which a value can be exchanged for a number. -/
theorem item_planted {items : List Json} {i : ℕ} {value : Json}
    (hkey : redactedName alphabet key = none) (hdepth : depth < maxDepth)
    (hi : i < maxCollectionItems) (hitem : items[i]? = some value) {inside : Context}
    (hinside : ∀ n : ℤ, ∃ value', withoutSensitive alphabet value' =
        withoutSensitive alphabet value ∧
      sanitize alphabet value' "" (depth + 1) = inside.fill (.int n)) :
    ∃ c : Context, ∀ n : ℤ, ∃ v', withoutSensitive alphabet v' =
        withoutSensitive alphabet (.arr items) ∧
      sanitize alphabet v' key depth = c.fill (.int n) := by
  obtain ⟨hlength, hget⟩ := List.getElem?_eq_some_iff.mp hitem
  have hsplit : items = items.take i ++ value :: items.drop (i + 1) := by
    rw [← hget, List.getElem_cons_drop, List.take_append_drop]
  generalize hbefore : items.take i = before at hsplit
  generalize items.drop (i + 1) = behind at hsplit
  have hcount : before.length = i := by
    rw [← hbefore, List.length_take]
    omega
  subst hsplit
  have hsize (u : Json) : (before ++ u :: behind).length = (before ++ value :: behind).length := by
    rw [List.length_append, List.length_append, List.length_cons, List.length_cons]
  have htake (u : Json) : (before ++ u :: behind).take maxCollectionItems =
      before ++ u :: behind.take (maxCollectionItems - (i + 1)) := by
    have hmore : maxCollectionItems - before.length = maxCollectionItems - (i + 1) + 1 := by omega
    rw [List.take_append, List.take_of_length_le (by omega), hmore, List.take_succ_cons]
  let write (v : Json) : Json := sanitize alphabet v "" (depth + 1)
  refine ⟨.item (before.map write) inside ((behind.take (maxCollectionItems - (i + 1))).map write ++
    truncatedList (before ++ value :: behind).length), fun n => ?_⟩
  obtain ⟨value', hagree, hvalue⟩ := hinside n
  refine ⟨.arr (before ++ value' :: behind), ?_, ?_⟩
  · simp only [withoutSensitive, itemsWithout_eq, List.map_append, List.map_cons, hagree]
  · rw [sanitize_arr hkey hdepth, htake, hsize, List.map_append, List.map_cons, hvalue,
      List.append_assoc]
    rfl

theorem redactedName_empty : redactedName alphabet "" = none := rfl

theorem Exposed.depth_lt {v : Json} (h : Exposed alphabet depth v) : depth < maxDepth := by
  induction h with
  | here _ _ _ _ _ hdepth => exact Nat.lt_of_succ_lt hdepth
  | member _ _ _ _ _ _ ih => exact Nat.lt_of_succ_lt ih
  | item _ _ _ ih => exact Nat.lt_of_succ_lt ih

/-- **An exposed value** can be exchanged for a number that is shown at one place. -/
theorem exposed_planted {v : Json} (h : Exposed alphabet depth v)
    (hkey : redactedName alphabet key = none) :
    ∃ c : Context, ∀ n : ℤ, ∃ v', withoutSensitive alphabet v' = withoutSensitive alphabet v ∧
      sanitize alphabet v' key depth = c.fill (.int n) := by
  induction h generalizing key with
  | here hi hmember hkept hname hshort hdepth =>
    apply member_planted hkey (Nat.lt_of_succ_lt hdepth) hi hmember hkept .here
    intro n
    refine ⟨.int n, fun hplain => ?_, sanitize_int hshort hdepth n⟩
    rw [hname] at hplain
    cases hplain
  | member hi hmember hkept hname hshort hvalue ih =>
    obtain ⟨inside, hinside⟩ := ih hshort
    apply member_planted hkey (Nat.lt_of_succ_lt hvalue.depth_lt) hi hmember hkept inside
    intro n
    obtain ⟨value', hagree, hfill⟩ := hinside n
    exact ⟨value', fun _ => hagree, hfill⟩
  | item hi hitem hvalue ih =>
    obtain ⟨inside, hinside⟩ := ih redactedName_empty
    exact item_planted hkey (Nat.lt_of_succ_lt hvalue.depth_lt) hi hitem hinside

end Documents

/-! ### The details as they are shown -/

section Details

variable (platform : AuditPlatform)

/-- A document that is short enough is shown as it is. -/
theorem sanitizeAuditDetails_short {details : List (String × Json)} {shown : Json}
    (h : sanitize platform.toAlphabet (.obj details) "" 0 = shown)
    (hsize : Utf8Text.byteSize (dumps platform.decimalText shown) ≤ maxDetailsBytes) :
    sanitizeAuditDetails platform (some details) = shown := by
  rw [sanitizeAuditDetails, Option.getD_some, h]
  exact if_pos hsize

/-- Of a longer one its size is shown. -/
theorem sanitizeAuditDetails_long {details : List (String × Json)} {shown : Json}
    (h : sanitize platform.toAlphabet (.obj details) "" 0 = shown)
    (hsize : maxDetailsBytes < Utf8Text.byteSize (dumps platform.decimalText shown)) :
    ∃ preview, sanitizeAuditDetails platform (some details) =
      .obj [("_truncated", .bool true),
        ("original_sanitized_size_bytes",
          .int (Utf8Text.byteSize (dumps platform.decimalText shown))),
        ("preview", preview)] := by
  rw [sanitizeAuditDetails, Option.getD_some, h]
  exact ⟨_, if_neg (Nat.not_le.mpr hsize)⟩

/-- Among what can be shown for the same document without its sensitive values, there are two
different texts. -/
theorem exposed_shown {details : List (String × Json)}
    (h : Exposed platform.toAlphabet 0 (.obj details)) :
    ∃ details' details'', withoutSensitive platform.toAlphabet (.obj details') =
        withoutSensitive platform.toAlphabet (.obj details) ∧
      withoutSensitive platform.toAlphabet (.obj details'') =
        withoutSensitive platform.toAlphabet (.obj details) ∧
      sanitizeAuditDetails platform (some details') ≠
        sanitizeAuditDetails platform (some details'') := by
  obtain ⟨c, hc⟩ := exposed_planted h redactedName_empty
  obtain ⟨front, back, hdumps⟩ := dumps_fill platform.decimalText c
  have hobject (n : ℤ) : ∃ details', withoutSensitive platform.toAlphabet (.obj details') =
        withoutSensitive platform.toAlphabet (.obj details) ∧
      sanitize platform.toAlphabet (.obj details') "" 0 = c.fill (.int n) := by
    obtain ⟨v', hagree, hfill⟩ := hc n
    cases v' with
    | obj details' => exact ⟨details', hagree, hfill⟩
    | _ => simp only [withoutSensitive, reduceCtorEq] at hagree
  obtain ⟨one, hone, hfillOne⟩ := hobject 1
  obtain ⟨ten, hten, hfillTen⟩ := hobject 10
  obtain ⟨hundred, hhundred, hfillHundred⟩ := hobject 100
  let size (n : ℤ) : ℕ := Utf8Text.byteSize (dumps platform.decimalText (c.fill (.int n)))
  have hsize (n : ℤ) : size n = Utf8Text.byteSize front +
      Utf8Text.byteSize (dumps platform.decimalText (.int n)) + Utf8Text.byteSize back := by
    show Utf8Text.byteSize (dumps platform.decimalText (c.fill (.int n))) = _
    rw [hdumps, Utf8Text.byteSize_append, Utf8Text.byteSize_append]
  have hdigits (n : ℤ) (size : ℕ) (h : Utf8Text.byteSize (toString n).toList = size) :
      Utf8Text.byteSize (dumps platform.decimalText (.int n)) = size := by
    rw [dumps, h]
  have hsizeOne := hsize 1
  have hsizeTen := hsize 10
  have hsizeHundred := hsize 100
  rw [hdigits 1 1 (by decide)] at hsizeOne
  rw [hdigits 10 2 (by decide)] at hsizeTen
  rw [hdigits 100 3 (by decide)] at hsizeHundred
  rcases Nat.lt_or_ge maxDetailsBytes (size 10) with hlong | hshort
  · -- both are too long, and their sizes differ
    refine ⟨ten, hundred, hten, hhundred, fun hsame => ?_⟩
    obtain ⟨preview, htext⟩ := sanitizeAuditDetails_long platform hfillTen hlong
    obtain ⟨preview', htext'⟩ := sanitizeAuditDetails_long platform hfillHundred
      (show maxDetailsBytes < size 100 by omega)
    rw [htext, htext'] at hsame
    simp only [Json.obj.injEq, List.cons.injEq, Prod.mk.injEq, Json.int.injEq, true_and] at hsame
    have hsizes : size 10 = size 100 := Int.ofNat.inj hsame.1
    omega
  · -- both are shown as they are
    refine ⟨one, ten, hone, hten, fun hsame => ?_⟩
    rw [sanitizeAuditDetails_short platform hfillOne (show size 1 ≤ maxDetailsBytes by omega),
      sanitizeAuditDetails_short platform hfillTen hshort] at hsame
    have hints := c.fill_injective hsame
    cases hints

end Details

/-- **Sensitive values have no influence on what is shown** exactly where no name is sensitive only
behind its first 200 characters, unless its value is left out or replaced anyway. -/
theorem sanitizeAuditDetails_iff (platform : AuditPlatform) (details : List (String × Json)) :
    (∀ details', withoutSensitive platform.toAlphabet (.obj details') =
        withoutSensitive platform.toAlphabet (.obj details) →
      sanitizeAuditDetails platform (some details') =
        sanitizeAuditDetails platform (some details)) ↔
      ¬ Exposed platform.toAlphabet 0 (.obj details) := by
  constructor
  · intro h hexposed
    obtain ⟨details', details'', hagree, hagree', hdifferent⟩ := exposed_shown platform hexposed
    exact hdifferent ((h details' hagree).trans (h details'' hagree').symm)
  · intro h details' hagree
    have hsame := sanitize_hidden (.obj details) (.obj details') "" 0 hagree fun _ => h
    rw [sanitizeAuditDetails, sanitizeAuditDetails, Option.getD_some, Option.getD_some, hsame]

def asciiPlatform : AuditPlatform := { asciiAlphabet with decimalText := fun _ => [] }

/-- The name of a password that begins with many other characters. -/
def longName : String := String.ofList (List.replicate 200 'x' ++ "_password".toList)

def passwordDetails (password : String) : List (String × Json) := [(longName, .str password)]

theorem key_skips (before rest : List Char) :
    run asciiPlatform.isWord sensitiveKey ⟨before, 'x' :: rest, []⟩ = [] := rfl

theorem longName_sensitive : sensitiveName asciiPlatform.toAlphabet longName = true := by
  have hfound : search asciiPlatform.isWord sensitiveKey longName.toList = true := by
    have hletters : longName.toList = List.replicate 200 'x' ++ "_password".toList :=
      String.toList_ofList
    rw [hletters, search, searchFrom_skip key_skips]
    decide +kernel
  rw [sensitiveName, redactedName, if_pos hfound]
  rfl

theorem shortName_append {front : List Char} (h : front.length = 200) (back : List Char) :
    shortName (String.ofList (front ++ back)) = String.ofList front := by
  rw [shortName, String.toList_ofList, List.take_left' h]

theorem shortName_longName : shortName longName = String.ofList (List.replicate 200 'x') :=
  shortName_append List.length_replicate _

theorem shortName_plain : redactedName asciiPlatform.toAlphabet (shortName longName) = none := by
  have hkey : search asciiPlatform.isWord sensitiveKey (List.replicate 200 'x') = false := by
    rw [search, ← List.append_nil (List.replicate 200 'x'), searchFrom_skip key_skips]
    rfl
  have hpath : search asciiPlatform.isWord sensitivePath (List.replicate 200 'x') = false := by
    rw [search, ← List.append_nil (List.replicate 200 'x'), searchFrom_skip]
    · rfl
    · intro before rest
      cases before <;> rfl
  have hcontainer : fullmatch asciiPlatform.isWord sensitiveContainer (List.replicate 200 'x') =
      false := rfl
  rw [redactedName, shortName_longName, String.toList_ofList, hkey, hcontainer, hpath]
  rfl

theorem passwordDetails_sanitized {password : String}
    (hplain : redactText asciiPlatform.toAlphabet password.toList = password.toList) :
    sanitize asciiPlatform.toAlphabet (.obj (passwordDetails password)) "" 0 =
      .obj [(shortName longName, .str password)] := by
  have hvalue : sanitize asciiPlatform.toAlphabet (.str password) (shortName longName) (0 + 1) =
      .str password := by
    unfold sanitize
    rw [shortName_plain]
    show Json.str (String.ofList (redactText asciiPlatform.toAlphabet password.toList)) = _
    rw [hplain, String.ofList_toList]
  have hitems : assignments asciiPlatform.toAlphabet (passwordDetails password) (0 + 1) =
      [(shortName longName, .str password)] := by
    show [(shortName longName, sanitize asciiPlatform.toAlphabet (.str password)
      (shortName longName) (0 + 1))] = _
    rw [hvalue]
  rw [sanitize_obj redactedName_empty (by decide), hitems]
  simp [dictOf, FirstOccurrences.firsts, FirstOccurrences.newOnes, lastValue]

/-- Two passwords under this name, and both are shown. -/
theorem passwordDetails_shown :
    withoutSensitive asciiPlatform.toAlphabet (.obj (passwordDetails "hunter2")) =
        withoutSensitive asciiPlatform.toAlphabet (.obj (passwordDetails "hunter3")) ∧
      sanitizeAuditDetails asciiPlatform (some (passwordDetails "hunter2")) ≠
        sanitizeAuditDetails asciiPlatform (some (passwordDetails "hunter3")) := by
  constructor
  · simp only [passwordDetails, withoutSensitive, membersWithout, longName_sensitive, if_true]
  · have hsize (password : String) (h : Utf8Text.byteSize (dumps asciiPlatform.decimalText
        (.obj [(String.ofList (List.replicate 200 'x'), .str password)])) ≤ maxDetailsBytes) :
        Utf8Text.byteSize (dumps asciiPlatform.decimalText
          (.obj [(shortName longName, .str password)])) ≤ maxDetailsBytes := by
      rwa [shortName_longName]
    have hshort : Utf8Text.byteSize (dumps asciiPlatform.decimalText
        (.obj [(String.ofList (List.replicate 200 'x'), .str "hunter2")])) ≤ maxDetailsBytes := by
      simp only [dumps, dumpsMembers, String.toList_ofList]
      decide +kernel
    have hshort' : Utf8Text.byteSize (dumps asciiPlatform.decimalText
        (.obj [(String.ofList (List.replicate 200 'x'), .str "hunter3")])) ≤ maxDetailsBytes := by
      simp only [dumps, dumpsMembers, String.toList_ofList]
      decide +kernel
    intro h
    rw [sanitizeAuditDetails_short asciiPlatform (passwordDetails_sanitized (by decide +kernel))
        (hsize "hunter2" hshort),
      sanitizeAuditDetails_short asciiPlatform (passwordDetails_sanitized (by decide +kernel))
        (hsize "hunter3" hshort')] at h
    simp at h

end AuditRedaction

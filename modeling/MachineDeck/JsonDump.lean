import MachineDeck.FirstOccurrences
import MachineDeck.TomlText

/-!
# JSON documents written and taken apart

* `Json.induction` — induction over a document;
* `dumps` — `json.dumps` without blanks and without escapes beyond ASCII;
* `Context`, `fill` — a document with one place left open; `dumps_fill`, `fill_injective`;
* `dictOf` — what a dictionary is after a sequence of assignments, `dictOf_congr`,
  `dictOf_planted` — how one assigned value shows in it; `lastValue_dictOf` — it has the last ones.
-/

namespace JsonDump

open FirstOccurrences JsonText

theorem json_induction {motive : Json → Prop} (null : motive .null)
    (bool : ∀ b, motive (.bool b)) (int : ∀ n, motive (.int n))
    (decimal : ∀ d, motive (.decimal d)) (str : ∀ s, motive (.str s))
    (arr : ∀ items, (∀ v ∈ items, motive v) → motive (.arr items))
    (obj : ∀ members, (∀ m ∈ members, motive m.2) → motive (.obj members)) :
    ∀ v, motive v
  | .null => null
  | .bool b => bool b
  | .int n => int n
  | .decimal d => decimal d
  | .str s => str s
  | .arr items => arr items fun v hv =>
    have : sizeOf v < sizeOf items := List.sizeOf_lt_of_mem hv
    json_induction null bool int decimal str arr obj v
  | .obj members => obj members fun m hm =>
    have : sizeOf m < sizeOf members := List.sizeOf_lt_of_mem hm
    have : sizeOf m.2 < sizeOf m := by cases m; simp only [Prod.mk.sizeOf_spec]; omega
    json_induction null bool int decimal str arr obj m.2
termination_by v => sizeOf v

/-! ### Writing -/

mutual

/-- `json.dumps(v, ensure_ascii=False, separators=(",", ":"))`; how a float is written is a
parameter. -/
def dumps (decimalText : Decimal → List Char) : Json → List Char
  | .null => "null".toList
  | .bool true => "true".toList
  | .bool false => "false".toList
  | .int value => (toString value).toList
  | .decimal value => decimalText value
  | .str value => TomlText.jsonString value.toList
  | .arr items => '[' :: dumpsItems decimalText items ++ [']']
  | .obj members => '{' :: dumpsMembers decimalText members ++ ['}']

def dumpsItems (decimalText : Decimal → List Char) : List Json → List Char
  | [] => []
  | [v] => dumps decimalText v
  | v :: w :: items => dumps decimalText v ++ ',' :: dumpsItems decimalText (w :: items)

def dumpsMembers (decimalText : Decimal → List Char) : List (String × Json) → List Char
  | [] => []
  | [(name, v)] => TomlText.jsonString name.toList ++ ':' :: dumps decimalText v
  | (name, v) :: m :: members =>
    TomlText.jsonString name.toList ++ ':' :: dumps decimalText v ++
      ',' :: dumpsMembers decimalText (m :: members)

end

section Contexts

/-! ### A document with an open place -/

inductive Context where
  | here
  | item (before : List Json) (inside : Context) (behind : List Json)
  | member (before : List (String × Json)) (name : String) (inside : Context)
      (behind : List (String × Json))

def Context.fill : Context → Json → Json
  | .here, v => v
  | .item before inside behind, v => .arr (before ++ inside.fill v :: behind)
  | .member before name inside behind, v => .obj (before ++ (name, inside.fill v) :: behind)

theorem Context.fill_injective (c : Context) {v w : Json} (h : c.fill v = c.fill w) : v = w := by
  induction c with
  | here => exact h
  | item before inside behind ih =>
    have hitems := List.append_cancel_left (Json.arr.inj h)
    exact ih (List.cons.inj hitems).1
  | member before name inside behind ih =>
    have hmembers := List.append_cancel_left (Json.obj.inj h)
    exact ih (Prod.mk.inj (List.cons.inj hmembers).1).2

variable (decimalText : Decimal → List Char)

theorem dumpsItems_planted (before behind : List Json) :
    ∃ front back, ∀ v, dumpsItems decimalText (before ++ v :: behind) =
      front ++ dumps decimalText v ++ back := by
  induction before with
  | nil =>
    cases behind with
    | nil => exact ⟨[], [], fun v => by simp [dumpsItems]⟩
    | cons w behind =>
      exact ⟨[], ',' :: dumpsItems decimalText (w :: behind), fun v => by simp [dumpsItems]⟩
  | cons u before ih =>
    obtain ⟨front, back, h⟩ := ih
    refine ⟨dumps decimalText u ++ ',' :: front, back, fun v => ?_⟩
    have hcons : dumpsItems decimalText (u :: before ++ v :: behind) =
        dumps decimalText u ++ ',' :: dumpsItems decimalText (before ++ v :: behind) := by
      cases before <;> simp [dumpsItems]
    rw [hcons, h v]
    simp only [List.append_assoc, List.cons_append]

theorem dumpsMembers_planted (before behind : List (String × Json)) (name : String) :
    ∃ front back, ∀ v, dumpsMembers decimalText (before ++ (name, v) :: behind) =
      front ++ dumps decimalText v ++ back := by
  induction before with
  | nil =>
    cases behind with
    | nil =>
      exact ⟨TomlText.jsonString name.toList ++ [':'], [], fun v => by simp [dumpsMembers]⟩
    | cons m behind =>
      exact ⟨TomlText.jsonString name.toList ++ [':'],
        ',' :: dumpsMembers decimalText (m :: behind), fun v => by simp [dumpsMembers]⟩
  | cons m before ih =>
    obtain ⟨front, back, h⟩ := ih
    obtain ⟨other, u⟩ := m
    refine ⟨TomlText.jsonString other.toList ++ ':' :: dumps decimalText u ++ ',' :: front, back,
      fun v => ?_⟩
    have hcons : dumpsMembers decimalText ((other, u) :: before ++ (name, v) :: behind) =
        TomlText.jsonString other.toList ++ ':' :: dumps decimalText u ++
          ',' :: dumpsMembers decimalText (before ++ (name, v) :: behind) := by
      cases before <;> simp [dumpsMembers]
    rw [hcons, h v]
    simp only [List.append_assoc, List.cons_append]

/-- What fills the place is written between two texts that do not depend on it. -/
theorem dumps_fill (c : Context) :
    ∃ front back, ∀ v, dumps decimalText (c.fill v) = front ++ dumps decimalText v ++ back := by
  induction c with
  | here => exact ⟨[], [], fun v => by rw [Context.fill, List.nil_append, List.append_nil]⟩
  | item before inside behind ih =>
    obtain ⟨front, back, h⟩ := ih
    obtain ⟨front', back', h'⟩ := dumpsItems_planted decimalText before behind
    refine ⟨'[' :: front' ++ front, back ++ back' ++ [']'], fun v => ?_⟩
    rw [Context.fill, dumps, h', h v]
    simp only [List.append_assoc, List.cons_append]
  | member before name inside behind ih =>
    obtain ⟨front, back, h⟩ := ih
    obtain ⟨front', back', h'⟩ := dumpsMembers_planted decimalText before behind name
    refine ⟨'{' :: front' ++ front, back ++ back' ++ ['}'], fun v => ?_⟩
    rw [Context.fill, dumps, h', h v]
    simp only [List.append_assoc, List.cons_append]

end Contexts

/-! ### Dictionaries from assignments -/

variable {β : Type}

/-- The value that was assigned last. -/
def lastValue (items : List (String × β)) (key : String) : Option β :=
  match items with
  | [] => none
  | (name, value) :: items =>
    match lastValue items key with
    | some later => some later
    | none => if name = key then some value else none

/-- `output[name] = value` for one item after the other: a key stands where it was assigned first. -/
def dictOf (items : List (String × β)) : List (String × β) :=
  (firsts (items.map Prod.fst)).filterMap fun key => (lastValue items key).map fun v => (key, v)

theorem lastValue_isSome {items : List (String × β)} {key : String}
    (h : key ∈ items.map Prod.fst) : (lastValue items key).isSome := by
  induction items with
  | nil => cases h
  | cons m items ih =>
    rw [lastValue]
    split
    · rfl
    · rename_i hnone
      rcases List.mem_cons.mp h with rfl | h
      · rw [if_pos rfl, Option.isSome_some]
      · have hsome := ih h
        rw [hnone] at hsome
        cases hsome

/-- An item whose value counts only where its key is not assigned again. -/
theorem lastValue_congr {items items' : List (String × β)}
    (hkeys : items'.map Prod.fst = items.map Prod.fst)
    (hvalues : ∀ i key v v', items[i]? = some (key, v) → items'[i]? = some (key, v') →
      key ∉ (items.map Prod.fst).drop (i + 1) → v' = v) (key : String) :
    lastValue items' key = lastValue items key := by
  induction items generalizing items' with
  | nil =>
    cases items' with
    | nil => rfl
    | cons m items' => cases hkeys
  | cons m items ih =>
    cases items' with
    | nil => cases hkeys
    | cons m' items' =>
      obtain ⟨name, v⟩ := m
      obtain ⟨name', v'⟩ := m'
      simp only [List.map_cons, List.cons.injEq] at hkeys
      obtain ⟨rfl, hkeys⟩ := hkeys
      have hlater := ih hkeys fun i key v v' hv hv' hkey => hvalues (i + 1) key v v' hv hv' hkey
      rw [lastValue, lastValue, hlater]
      cases hlast : lastValue items key with
      | some later => rfl
      | none =>
        simp only
        by_cases hname : name' = key
        · have hgone : name' ∉ items.map Prod.fst := by
            intro hmem
            have hsome := lastValue_isSome (hname ▸ hmem)
            rw [hlast] at hsome
            cases hsome
          rw [hvalues 0 name' v v' rfl rfl hgone]
        · rw [if_neg hname, if_neg hname]

theorem dictOf_congr {items items' : List (String × β)}
    (hkeys : items'.map Prod.fst = items.map Prod.fst)
    (hvalues : ∀ i key v v', items[i]? = some (key, v) → items'[i]? = some (key, v') →
      key ∉ (items.map Prod.fst).drop (i + 1) → v' = v) : dictOf items' = dictOf items := by
  rw [dictOf, dictOf, hkeys]
  have hlast : (fun key => (lastValue items' key).map fun v => (key, v)) =
      fun key => (lastValue items key).map fun v => (key, v) := by
    funext key
    rw [lastValue_congr hkeys hvalues key]
  rw [hlast]

theorem lastValue_planted {before behind : List (String × β)} {name : String}
    (hbehind : name ∉ behind.map Prod.fst) (v : β) :
    lastValue (before ++ (name, v) :: behind) name = some v := by
  have hnone : lastValue behind name = none := by
    induction behind with
    | nil => rfl
    | cons m behind ih =>
      rw [List.map_cons, List.mem_cons, not_or] at hbehind
      rw [lastValue, ih hbehind.2]
      exact if_neg (Ne.symm hbehind.1)
  induction before with
  | nil => rw [List.nil_append, lastValue, hnone, if_pos rfl]
  | cons m before ih => rw [List.cons_append, lastValue, ih]

theorem lastValue_other {before behind : List (String × β)} {name key : String} (hkey : name ≠ key)
    (v w : β) :
    lastValue (before ++ (name, v) :: behind) key = lastValue (before ++ (name, w) :: behind) key := by
  induction before with
  | nil => rw [List.nil_append, List.nil_append, lastValue, lastValue, if_neg hkey, if_neg hkey]
  | cons m before ih => rw [List.cons_append, List.cons_append, lastValue, lastValue, ih]

/-- A value that is not assigned again stands at one place of the dictionary, and the rest does
not depend on it. -/
theorem dictOf_planted (before behind : List (String × β)) {name : String}
    (hbehind : name ∉ behind.map Prod.fst) (sample : β) :
    ∃ front back, ∀ v, dictOf (before ++ (name, v) :: behind) = front ++ (name, v) :: back := by
  have hkeys (v : β) : (before ++ (name, v) :: behind).map Prod.fst =
      before.map Prod.fst ++ name :: behind.map Prod.fst := by
    rw [List.map_append, List.map_cons]
  have hmem : name ∈ firsts (before.map Prod.fst ++ name :: behind.map Prod.fst) := by
    rw [mem_firsts]
    exact List.mem_append_right _ List.mem_cons_self
  have hnodup := nodup_firsts (before.map Prod.fst ++ name :: behind.map Prod.fst)
  obtain ⟨earlier, later, hsplit⟩ := List.append_of_mem hmem
  rw [hsplit] at hnodup
  have hfresh : ∀ key ∈ earlier ++ later, name ≠ key := by
    have hperm := (List.perm_middle : (earlier ++ name :: later).Perm _).nodup_iff.mp hnodup
    rintro key hkey rfl
    exact (List.nodup_cons.mp hperm).1 hkey
  -- the other keys, with the values they have whatever stands under this one
  let entry (key : String) : Option (String × β) :=
    (lastValue (before ++ (name, sample) :: behind) key).map fun v => (key, v)
  have hother (v : β) (keys : List String) (h : ∀ key ∈ keys, name ≠ key) :
      (keys.filterMap fun key =>
        (lastValue (before ++ (name, v) :: behind) key).map fun v => (key, v)) =
        keys.filterMap entry := by
    apply List.filterMap_congr
    intro key hkey
    rw [lastValue_other (h key hkey) v sample]
  refine ⟨earlier.filterMap entry, later.filterMap entry, fun v => ?_⟩
  rw [dictOf, hkeys v, hsplit, List.filterMap_append, List.filterMap_cons,
    lastValue_planted hbehind v, hother v earlier fun key hkey =>
      hfresh key (List.mem_append_left _ hkey),
    hother v later fun key hkey => hfresh key (List.mem_append_right _ hkey)]
  rfl

/-! ### Looking values up -/

theorem mem_of_lastValue {items : List (String × β)} {key : String} {v : β}
    (h : lastValue items key = some v) : (key, v) ∈ items := by
  induction items with
  | nil => cases h
  | cons m items ih =>
    rw [lastValue] at h
    split at h
    · rename_i later hlater
      obtain rfl := Option.some.inj h
      exact List.mem_cons_of_mem m (ih hlater)
    · split_ifs at h with hname
      subst hname
      rw [← Option.some.inj h]
      exact List.mem_cons_self

/-- Where every key is assigned once, its value is the last one. -/
theorem lastValue_iff_mem {items : List (String × β)} (hkeys : (items.map Prod.fst).Nodup)
    {key : String} {v : β} : lastValue items key = some v ↔ (key, v) ∈ items := by
  constructor
  · exact mem_of_lastValue
  · intro h
    obtain ⟨before, behind, rfl⟩ := List.append_of_mem h
    rw [List.map_append, List.map_cons] at hkeys
    exact lastValue_planted (List.nodup_cons.mp (List.nodup_append.mp hkeys).2.1).1 v

theorem dictOf_keys (items : List (String × β)) :
    (dictOf items).map Prod.fst = firsts (items.map Prod.fst) := by
  have hkeys (keys : List String) (h : ∀ key ∈ keys, key ∈ items.map Prod.fst) :
      (keys.filterMap fun key => (lastValue items key).map fun v => (key, v)).map Prod.fst =
        keys := by
    induction keys with
    | nil => rfl
    | cons key keys ih =>
      obtain ⟨v, hv⟩ := Option.isSome_iff_exists.mp (lastValue_isSome (h key List.mem_cons_self))
      simp only [List.filterMap_cons, hv, Option.map_some, List.map_cons,
        ih fun k hk => h k (List.mem_cons_of_mem key hk)]
  exact hkeys _ fun key hkey => mem_firsts.mp hkey

/-- A dictionary has the last value of each key. -/
theorem lastValue_dictOf (items : List (String × β)) (key : String) :
    lastValue (dictOf items) key = lastValue items key := by
  have hnodup : ((dictOf items).map Prod.fst).Nodup := by
    rw [dictOf_keys]
    exact nodup_firsts _
  rw [Option.ext_iff]
  intro v
  rw [lastValue_iff_mem hnodup, dictOf, List.mem_filterMap]
  constructor
  · rintro ⟨k, -, hk⟩
    obtain ⟨w, hw, hpair⟩ := Option.map_eq_some_iff.mp hk
    obtain ⟨rfl, rfl⟩ := Prod.mk.inj hpair
    exact hw
  · intro h
    have hmem := List.mem_map_of_mem (f := Prod.fst) (mem_of_lastValue h)
    exact ⟨key, mem_firsts.mpr hmem, by rw [h, Option.map_some]⟩

theorem lastValue_filter {keep : String → Bool} (items : List (String × β)) {key : String}
    (hkey : keep key = true) :
    lastValue (items.filter fun m => keep m.1) key = lastValue items key := by
  induction items with
  | nil => rfl
  | cons m items ih =>
    rw [List.filter_cons]
    split_ifs with hm
    · rw [lastValue, ih, lastValue]
    · have hname : m.1 ≠ key := fun h => hm (h ▸ hkey)
      rw [ih, lastValue, if_neg hname]
      cases lastValue items key <;> rfl

/-- Looking a name up takes the last of its values. -/
theorem member?_eq (members : List (String × Json)) (name : String) :
    member? members name = lastValue members name := by
  induction members with
  | nil => rfl
  | cons m members ih =>
    rw [member?, List.reverse_cons, List.find?_append, lastValue, ← ih, member?]
    cases members.reverse.find? fun m => m.1 == name with
    | some found => rfl
    | none =>
      by_cases hname : m.1 = name
      · simp [hname]
      · simp [hname]

end JsonDump

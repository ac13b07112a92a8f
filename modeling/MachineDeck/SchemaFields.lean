import MachineDeck.JsonText

/-!
# The fields of a model

How a pydantic model with `extra="forbid"` reads the members of an object; `none` stands for a
`ValidationError`.

* `LaxMode` — how scalars are read, `LaxMode.text` — a string that satisfies a validator;
* `onlyFields`, `required`, `optional`, `nullable`, `listOf` — the fields;
* `text_str`, `nullable_dump`, `listOf_dump` — what has been written is read as it was.
-/

namespace MachineDeck

open JsonText (Json member?)

/-! ### Scalars -/

/-- Scalars in lax mode: one of the right type is taken as it is, others may be converted. -/
structure LaxMode where
  str : Json → Option String
  int : Json → Option ℤ
  bool : Json → Option Bool
  /-- `Literal[1]`. -/
  literalOne : Json → Bool
  str_str : ∀ text, str (.str text) = some text
  int_int : ∀ value, int (.int value) = some value
  bool_bool : ∀ value, bool (.bool value) = some value
  literalOne_one : literalOne (.int 1) = true

/-- Nothing is converted. -/
def jsonScalars : LaxMode where
  str
    | .str text => some text
    | _ => none
  int
    | .int value => some value
    | _ => none
  bool
    | .bool value => some value
    | _ => none
  literalOne
    | .int 1 => true
    | _ => false
  str_str _ := rfl
  int_int _ := rfl
  bool_bool _ := rfl
  literalOne_one := rfl

variable {α : Type*}

/-- A value that satisfies a validator. -/
def checked (accepts : α → Bool) (value : α) : Option α := if accepts value then some value else none

theorem checked_eq_some {accepts : α → Bool} {value value' : α} :
    checked accepts value = some value' ↔ value = value' ∧ accepts value' = true := by
  rw [checked]
  split_ifs with haccepts
  · constructor
    · intro h
      cases h
      exact ⟨rfl, haccepts⟩
    · rintro ⟨rfl, -⟩
      rfl
  · constructor
    · intro h
      cases h
    · rintro ⟨rfl, h⟩
      exact absurd h haccepts

/-- `str` with a validator that changes nothing. -/
def LaxMode.text (lax : LaxMode) (accepts : String → Bool) (value : Json) : Option String :=
  (lax.str value).bind (checked accepts)

theorem LaxMode.text_accepted {lax : LaxMode} {accepts : String → Bool} {value : Json}
    {text : String} (h : lax.text accepts value = some text) : accepts text = true := by
  obtain ⟨given, -, hchecked⟩ := Option.bind_eq_some_iff.mp h
  exact (checked_eq_some.mp hchecked).2

theorem LaxMode.text_str (lax : LaxMode) {accepts : String → Bool} {text : String}
    (h : accepts text = true) : lax.text accepts (.str text) = some text := by
  rw [LaxMode.text, lax.str_str]
  exact checked_eq_some.mpr ⟨rfl, h⟩

/-! ### Members -/

/-- `extra="forbid"`. -/
def onlyFields (names : List String) (members : List (String × Json)) : Bool :=
  members.all fun m => names.contains m.1

def required (members : List (String × Json)) (name : String) (read : Json → Option α) : Option α :=
  (member? members name).bind read

def optional (members : List (String × Json)) (name : String) (read : Json → Option α)
    (default : α) : Option α :=
  match member? members name with
  | none => some default
  | some value => read value

/-- What holds of the default and of all that is read holds of the field. -/
theorem optional_accepted {P : α → Prop} {members : List (String × Json)} {name : String}
    {read : Json → Option α} {default a : α} (h : optional members name read default = some a)
    (hdefault : P default) (hread : ∀ value, read value = some a → P a) : P a := by
  rw [optional] at h
  cases hmember : member? members name with
  | none =>
    rw [hmember] at h
    exact Option.some.inj h ▸ hdefault
  | some value =>
    rw [hmember] at h
    exact hread value h

theorem required_accepted {P : α → Prop} {members : List (String × Json)} {name : String}
    {read : Json → Option α} {a : α} (h : required members name read = some a)
    (hread : ∀ value, read value = some a → P a) : P a := by
  obtain ⟨value, -, hvalue⟩ := Option.bind_eq_some_iff.mp h
  exact hread value hvalue

theorem required_of_member {members : List (String × Json)} {name : String}
    {read : Json → Option α} {value : Json} (h : member? members name = some value) :
    required members name read = read value := by
  rw [required, h]
  rfl

theorem optional_of_member {members : List (String × Json)} {name : String}
    {read : Json → Option α} {default : α} {value : Json} (h : member? members name = some value) :
    optional members name read default = read value := by
  rw [optional, h]

/-! ### `None` -/

/-- `... | None`. -/
def nullable (read : Json → Option α) : Json → Option (Option α)
  | .null => some none
  | value => (read value).map some

/-- A text or `None`, as `model_dump` writes it. -/
def dumpNullable : Option String → Json
  | none => .null
  | some text => .str text

theorem nullable_accepted {P : α → Prop} {read : Json → Option α} {value : Json} {a : α}
    (h : nullable read value = some (some a)) (hread : ∀ value, read value = some a → P a) :
    P a := by
  unfold nullable at h
  split at h
  · cases h
  · obtain ⟨a', hvalue, ha⟩ := Option.map_eq_some_iff.mp h
    cases ha
    exact hread value hvalue

theorem nullable_dump {read : Json → Option String} {text : Option String}
    (h : ∀ given, text = some given → read (.str given) = some given) :
    nullable read (dumpNullable text) = some text := by
  cases text with
  | none => rfl
  | some given => exact congrArg (Option.map some) (h given rfl)

/-! ### Lists -/

def listOf (read : Json → Option α) : Json → Option (List α)
  | .arr items => items.mapM read
  | _ => none

theorem listOf_accepted {P : α → Prop} {read : Json → Option α} {value : Json} {l : List α}
    (h : listOf read value = some l) (hread : ∀ value a, read value = some a → P a) :
    ∀ a ∈ l, P a := by
  cases value with
  | arr items =>
    rw [listOf] at h
    induction items generalizing l with
    | nil =>
      rw [List.mapM_nil] at h
      cases h
      intro a ha
      cases ha
    | cons item items ih =>
      rw [List.mapM_cons] at h
      obtain ⟨first, hfirst, h⟩ := Option.bind_eq_some_iff.mp h
      obtain ⟨rest, hrest, h⟩ := Option.bind_eq_some_iff.mp h
      cases h
      exact List.forall_mem_cons.mpr ⟨hread item first hfirst, ih hrest⟩
  | _ => cases h

theorem listOf_dump {read : Json → Option α} {dump : α → Json} {l : List α}
    (h : ∀ a ∈ l, read (dump a) = some a) : listOf read (.arr (l.map dump)) = some l := by
  rw [listOf]
  induction l with
  | nil => rfl
  | cons a l ih =>
    rw [List.map_cons, List.mapM_cons, h a List.mem_cons_self,
      ih fun b hb => h b (List.mem_cons_of_mem a hb)]
    rfl

end MachineDeck

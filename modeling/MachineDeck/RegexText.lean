import MachineDeck.MarkedText

/-!
# Regular expressions with substitution

Patterns as a backtracking matcher reads them: alternatives in order, repetitions greedy.  What
counts as a letter of a word is a parameter.

* `Pattern`, `run` — the ways in which a pattern matches at a place, the preferred one first;
* `search`, `fullmatch`, `sub` — somewhere, as a whole, and every match replaced;
* `caseless` — a class of ASCII characters where case is ignored;
* `matches`, `sub_spliced` — what is replaced, and how the outcome differs from the text;
* `Pattern.Requires`, `sub_absent` — the characters without which nothing is replaced;
* `sub_unfound`, `sub_eq_iff` — texts that a substitution keeps.
-/

namespace RegexText

open MarkedText

/-! ### Patterns -/

inductive Pattern where
  | one (accepts : Char → Bool)
  | many (accepts : Char → Bool)
  | seq (first second : Pattern)
  | either (first second : Pattern)
  | optional (p : Pattern)
  /-- `\b`. -/
  | boundary
  /-- `^` and `$`. -/
  | start
  | finish
  | group (index : ℕ) (p : Pattern)

/-- A place in a text, the characters before it from right to left, and the groups so far. -/
structure Place where
  before : List Char
  rest : List Char
  groups : List (ℕ × List Char) := []
  deriving DecidableEq, Repr

def Place.advance (s : Place) (n : ℕ) : Place :=
  { s with before := (s.rest.take n).reverse ++ s.before, rest := s.rest.drop n }

/-- The text between two places. -/
def Place.until (s t : Place) : List Char := s.rest.take (s.rest.length - t.rest.length)

def run (isWord : Char → Bool) : Pattern → Place → List Place
  | .one accepts, s =>
    match s.rest with
    | c :: _ => if accepts c then [s.advance 1] else []
    | [] => []
  | .many accepts, s =>
    (List.range ((s.rest.takeWhile accepts).length + 1)).reverse.map s.advance
  | .seq first second, s => (run isWord first s).flatMap (run isWord second)
  | .either first second, s => run isWord first s ++ run isWord second s
  | .optional p, s => run isWord p s ++ [s]
  | .boundary, s => if s.before.head?.any isWord = s.rest.head?.any isWord then [] else [s]
  | .start, s => if s.before = [] then [s] else []
  | .finish, s => if s.rest = [] ∨ s.rest = ['\n'] then [s] else []
  | .group index p, s =>
    (run isWord p s).map fun t => { t with groups := (index, s.until t) :: t.groups }

def searchFrom (isWord : Char → Bool) (p : Pattern) : List Char → List Char → Bool
  | before, [] => !(run isWord p ⟨before, [], []⟩).isEmpty
  | before, c :: rest =>
    !(run isWord p ⟨before, c :: rest, []⟩).isEmpty || searchFrom isWord p (c :: before) rest

/-- `p.search(text)`. -/
def search (isWord : Char → Bool) (p : Pattern) (text : List Char) : Bool :=
  searchFrom isWord p [] text

/-- `p.fullmatch(text)`. -/
def fullmatch (isWord : Char → Bool) (p : Pattern) (text : List Char) : Bool :=
  (run isWord p ⟨[], text, []⟩).any fun s => s.rest.isEmpty

/-- `match.group(index)`. -/
def Place.matched (s : Place) (index : ℕ) : List Char := (s.groups.lookup index).getD []

/-- At most so many matches replaced, from left to right. -/
def subWithin (isWord : Char → Bool) (p : Pattern) (replace : Place → List Char → List Char) :
    ℕ → List Char → List Char → List Char
  | 0, _, rest => rest
  | _ + 1, _, [] => []
  | n + 1, before, c :: rest =>
    match run isWord p ⟨before, c :: rest, []⟩ with
    | [] => c :: subWithin isWord p replace n (c :: before) rest
    | found :: _ =>
      if found.rest.length ≤ rest.length then
        replace found (Place.until ⟨before, c :: rest, []⟩ found) ++
          subWithin isWord p replace n found.before found.rest
      else c :: subWithin isWord p replace n (c :: before) rest

/-- `p.sub(replace, text)`, for a pattern that matches no empty text. -/
def sub (isWord : Char → Bool) (p : Pattern) (replace : Place → List Char → List Char)
    (text : List Char) : List Char :=
  subWithin isWord p replace text.length [] text

/-! ### Building patterns -/

/-- A class of ASCII characters where case is ignored: also the four other characters that have the
case of an ASCII letter. -/
def caseless (accepts : Char → Bool) (c : Char) : Bool :=
  accepts c || accepts c.toLower || accepts c.toUpper ||
    (c == 'ſ' && (accepts 's' || accepts 'S')) || (c == '\u212A' && (accepts 'k' || accepts 'K')) ||
    ((c == 'İ' || c == 'ı') && (accepts 'i' || accepts 'I'))

def Pattern.ofList : List Pattern → Pattern
  | [] => .many fun _ => false
  | [p] => p
  | p :: ps => .seq p (ofList ps)

def Pattern.oneOf : List Pattern → Pattern
  | [] => .one fun _ => false
  | [p] => p
  | p :: ps => .either p (oneOf ps)

def Pattern.some (accepts : Char → Bool) : Pattern := .seq (.one accepts) (.many accepts)

/-- A text letter by letter. -/
def Pattern.text (letters : String) : Pattern :=
  .ofList (letters.toList.map fun l => .one fun c => c == l)

def Pattern.textCaseless (letters : String) : Pattern :=
  .ofList (letters.toList.map fun l => .one (caseless fun c => c == l))

/-! ### What is matched is a piece of the text -/

/-- A boundary takes up no room. -/
theorem run_boundary {isWord : Char → Bool} {s t : Place} (h : t ∈ run isWord .boundary s) :
    t = s := by
  rw [run] at h
  split_ifs at h
  · cases h
  · exact List.mem_singleton.mp h

theorem run_suffix {isWord : Char → Bool} {p : Pattern} {s t : Place} (h : t ∈ run isWord p s) :
    ∃ piece, s.rest = piece ++ t.rest := by
  induction p generalizing s t with
  | one accepts =>
    obtain ⟨before, rest, groups⟩ := s
    cases rest with
    | nil => cases h
    | cons c rest =>
      rw [run] at h
      simp only at h
      split_ifs at h
      · rw [List.mem_singleton.mp h]
        exact ⟨[c], rfl⟩
      · cases h
  | many accepts =>
    obtain ⟨n, -, rfl⟩ := List.mem_map.mp h
    exact ⟨s.rest.take n, (List.take_append_drop n s.rest).symm⟩
  | seq first second ihFirst ihSecond =>
    obtain ⟨middle, hmiddle, ht⟩ := List.mem_flatMap.mp h
    obtain ⟨front, hfront⟩ := ihFirst hmiddle
    obtain ⟨back, hback⟩ := ihSecond ht
    exact ⟨front ++ back, by rw [hfront, hback, List.append_assoc]⟩
  | either first second ihFirst ihSecond =>
    rcases List.mem_append.mp h with h | h
    · exact ihFirst h
    · exact ihSecond h
  | optional p ih =>
    rcases List.mem_append.mp h with h | h
    · exact ih h
    · rw [List.mem_singleton.mp h]
      exact ⟨[], rfl⟩
  | boundary =>
    rw [run_boundary h]
    exact ⟨[], rfl⟩
  | start =>
    rw [run] at h
    split_ifs at h
    · rw [List.mem_singleton.mp h]
      exact ⟨[], rfl⟩
    · cases h
  | finish =>
    rw [run] at h
    split_ifs at h
    · rw [List.mem_singleton.mp h]
      exact ⟨[], rfl⟩
    · cases h
  | group index p ih =>
    obtain ⟨found, hfound, rfl⟩ := List.mem_map.mp h
    exact ih (t := found) hfound

theorem until_append {isWord : Char → Bool} {p : Pattern} {s t : Place} (h : t ∈ run isWord p s) :
    s.rest = s.until t ++ t.rest := by
  obtain ⟨piece, hpiece⟩ := run_suffix h
  have hlength : s.rest.length - t.rest.length = piece.length := by
    rw [hpiece, List.length_append, Nat.add_sub_cancel]
  rw [Place.until, hlength, hpiece, List.take_left]

theorem until_trans {s middle t : Place} (h : s.rest = s.until middle ++ middle.rest)
    (h' : middle.rest = middle.until t ++ t.rest) :
    s.until t = s.until middle ++ middle.until t := by
  have hlength : s.rest.length - t.rest.length = (s.until middle ++ middle.until t).length := by
    have hmiddle := congrArg List.length h'
    rw [List.length_append] at hmiddle
    rw [h, List.length_append, List.length_append, hmiddle]
    omega
  have hsplit : s.rest = (s.until middle ++ middle.until t) ++ t.rest := by
    rw [List.append_assoc, ← h', ← h]
  rw [Place.until, hlength, hsplit, List.take_left]

theorem run_seq {isWord : Char → Bool} {first second : Pattern} {s t : Place}
    (h : t ∈ run isWord (.seq first second) s) :
    ∃ middle ∈ run isWord first s, t ∈ run isWord second middle ∧
      s.until t = s.until middle ++ middle.until t := by
  obtain ⟨middle, hmiddle, ht⟩ := List.mem_flatMap.mp h
  exact ⟨middle, hmiddle, ht, until_trans (until_append hmiddle) (until_append ht)⟩

/-- Behind a pattern that matches in one way. -/
theorem run_seq_of_singleton {isWord : Char → Bool} {first second : Pattern} {s middle : Place}
    (h : run isWord first s = [middle]) :
    run isWord (.seq first second) s = run isWord second middle := by
  show (run isWord first s).flatMap (run isWord second) = _
  rw [h, List.flatMap_singleton]

/-! ### Groups -/

def Pattern.groupless : Pattern → Bool
  | .seq first second | .either first second => first.groupless && second.groupless
  | .optional p => p.groupless
  | .group _ _ => false
  | .one _ | .many _ | .boundary | .start | .finish => true

/-- A pattern without groups keeps those that are there. -/
theorem run_groupless {isWord : Char → Bool} {p : Pattern} (hp : p.groupless = true) {s t : Place}
    (h : t ∈ run isWord p s) : t.groups = s.groups := by
  induction p generalizing s t with
  | one accepts =>
    rw [run] at h
    split at h
    · split_ifs at h
      · rw [List.mem_singleton.mp h]
        rfl
      · cases h
    · cases h
  | many accepts =>
    obtain ⟨n, -, rfl⟩ := List.mem_map.mp h
    rfl
  | seq first second ihFirst ihSecond =>
    obtain ⟨hfirst, hsecond⟩ := Bool.and_eq_true_iff.mp hp
    obtain ⟨middle, hmiddle, ht⟩ := List.mem_flatMap.mp h
    rw [ihSecond hsecond ht, ihFirst hfirst hmiddle]
  | either first second ihFirst ihSecond =>
    obtain ⟨hfirst, hsecond⟩ := Bool.and_eq_true_iff.mp hp
    rcases List.mem_append.mp h with h | h
    · exact ihFirst hfirst h
    · exact ihSecond hsecond h
  | optional p ih =>
    rcases List.mem_append.mp h with h | h
    · exact ih hp h
    · rw [List.mem_singleton.mp h]
  | boundary => rw [run_boundary h]
  | start =>
    rw [run] at h
    split_ifs at h
    · rw [List.mem_singleton.mp h]
    · cases h
  | finish =>
    rw [run] at h
    split_ifs at h
    · rw [List.mem_singleton.mp h]
    · cases h
  | group index p ih => cases hp

/-- A group remembers what its pattern has matched. -/
theorem run_group {isWord : Char → Bool} {index : ℕ} {p : Pattern} (hp : p.groupless = true)
    {s t : Place} (h : t ∈ run isWord (.group index p) s) :
    t.groups = (index, s.until t) :: s.groups := by
  obtain ⟨found, hfound, rfl⟩ := List.mem_map.mp h
  rw [← run_groupless hp hfound]
  rfl

/-- What fails at a place also fails behind a boundary there. -/
theorem run_boundary_seq {isWord : Char → Bool} {p : Pattern} {s : Place}
    (h : run isWord p s = []) : run isWord (.seq .boundary p) s = [] := by
  rw [run, List.flatMap_eq_nil_iff]
  intro t ht
  rw [run_boundary ht]
  exact h

/-- A text in which nothing is found is kept. -/
theorem sub_plain {isWord : Char → Bool} {p : Pattern} {text : List Char}
    (h : ∀ c ∈ text, ∀ before rest, run isWord p ⟨before, c :: rest, []⟩ = [])
    (replace : Place → List Char → List Char) : sub isWord p replace text = text := by
  have hwithin (n : ℕ) (before : List Char) : subWithin isWord p replace n before text = text := by
    induction n generalizing before text with
    | zero => rfl
    | succ n ih =>
      cases text with
      | nil => rfl
      | cons c rest =>
        rw [subWithin, h c List.mem_cons_self]
        simp only
        rw [ih fun d hd => h d (List.mem_cons_of_mem c hd)]
  exact hwithin text.length []

/-- A search passes over characters at which nothing is found. -/
theorem searchFrom_skip {isWord : Char → Bool} {p : Pattern} {c : Char}
    (h : ∀ before rest, run isWord p ⟨before, c :: rest, []⟩ = []) (n : ℕ)
    (before rest : List Char) :
    searchFrom isWord p before (List.replicate n c ++ rest) =
      searchFrom isWord p (List.replicate n c ++ before) rest := by
  induction n generalizing before with
  | zero => rfl
  | succ n ih =>
    have hmove : List.replicate n c ++ c :: before = List.replicate (n + 1) c ++ before := by
      rw [List.replicate_succ', List.append_assoc, List.singleton_append]
    rw [List.replicate_succ, List.cons_append, searchFrom, h, ih, hmove]
    rfl

/-! ### What a substitution replaces -/

/-- The matches from left to right, as `finditer` finds them. -/
def matchesWithin (isWord : Char → Bool) (p : Pattern) :
    ℕ → List Char → List Char → List (Place × List Char)
  | 0, _, _ => []
  | _ + 1, _, [] => []
  | n + 1, before, c :: rest =>
    match run isWord p ⟨before, c :: rest, []⟩ with
    | [] => matchesWithin isWord p n (c :: before) rest
    | found :: _ =>
      if found.rest.length ≤ rest.length then
        (found, Place.until ⟨before, c :: rest, []⟩ found) ::
          matchesWithin isWord p n found.before found.rest
      else matchesWithin isWord p n (c :: before) rest

def matchesOf (isWord : Char → Bool) (p : Pattern) (text : List Char) : List (Place × List Char) :=
  matchesWithin isWord p text.length [] text

theorem subWithin_spliced {isWord : Char → Bool} {p : Pattern}
    {replace : Place → List Char → List Char} {word : List Char} (n : ℕ) (before text : List Char)
    (hreplace : ∀ m ∈ matchesWithin isWord p n before text,
      Spliced word m.2 (replace m.1 m.2)) :
    Spliced word text (subWithin isWord p replace n before text) := by
  induction n generalizing before text with
  | zero => exact .refl text
  | succ n ih =>
    cases text with
    | nil => exact .nil
    | cons c rest =>
      rw [matchesWithin] at hreplace
      rw [subWithin]
      split at hreplace
      · exact .keep c (ih _ _ hreplace)
      · rename_i found others hfound
        have hmem : found ∈ run isWord p ⟨before, c :: rest, []⟩ :=
          hfound ▸ List.mem_cons_self
        split_ifs at hreplace with hshorter
        · have happend := until_append hmem
          simp only at happend
          rw [if_pos hshorter]
          have htail := ih _ _ fun m hm => hreplace m (List.mem_cons_of_mem _ hm)
          have hhead := hreplace _ List.mem_cons_self
          have hboth := hhead.append htail
          rwa [← happend] at hboth
        · rw [if_neg hshorter]
          exact .keep c (ih _ _ hreplace)

/-- **A substitution exchanges its matches**, and keeps the rest of the text. -/
theorem sub_spliced {isWord : Char → Bool} {p : Pattern}
    {replace : Place → List Char → List Char} {word text : List Char}
    (hreplace : ∀ m ∈ matchesOf isWord p text, Spliced word m.2 (replace m.1 m.2)) :
    Spliced word text (sub isWord p replace text) :=
  subWithin_spliced _ _ _ hreplace

theorem mem_matchesWithin {isWord : Char → Bool} {p : Pattern} {n : ℕ} {before text : List Char}
    {m : Place × List Char} (h : m ∈ matchesWithin isWord p n before text) :
    ∃ s, m.1 ∈ run isWord p s ∧ m.2 = s.until m.1 ∧ s.groups = [] := by
  induction n generalizing before text with
  | zero => cases h
  | succ n ih =>
    cases text with
    | nil => cases h
    | cons c rest =>
      rw [matchesWithin] at h
      split at h
      · exact ih h
      · rename_i found others hfound
        have hmem : found ∈ run isWord p ⟨before, c :: rest, []⟩ := hfound ▸ List.mem_cons_self
        split_ifs at h
        · rcases List.mem_cons.mp h with rfl | h
          · exact ⟨_, hmem, rfl, rfl⟩
          · exact ih h
        · exact ih h

/-- What is put in place of every match of a pattern is a marker. -/
theorem sub_marked {isWord : Char → Bool} {p : Pattern} {word marker : List Char}
    (hmarker : Foreign word marker) (text : List Char) :
    Spliced word text (sub isWord p (fun _ _ => marker) text) :=
  sub_spliced fun _ _ => .marked _ hmarker

/-! ### Characters that every match has -/

/-- Every match of the pattern has a character of the kind. -/
def Pattern.Requires (kind : Char → Prop) : Pattern → Prop
  | .one accepts => ∀ c, accepts c = true → kind c
  | .seq first second => first.Requires kind ∨ second.Requires kind
  | .either first second => first.Requires kind ∧ second.Requires kind
  | .group _ p => p.Requires kind
  | .many _ | .optional _ | .boundary | .start | .finish => False

theorem run_requires {isWord : Char → Bool} {kind : Char → Prop} {p : Pattern}
    (hp : p.Requires kind) {s t : Place} (h : t ∈ run isWord p s) : ∃ c ∈ s.until t, kind c := by
  induction p generalizing s t with
  | one accepts =>
    obtain ⟨before, rest, groups⟩ := s
    cases rest with
    | nil => cases h
    | cons c rest =>
      rw [run] at h
      simp only at h
      split_ifs at h with haccepts
      · refine ⟨c, ?_, hp c haccepts⟩
        rw [List.mem_singleton.mp h]
        simp [Place.until, Place.advance]
      · cases h
  | seq first second ihFirst ihSecond =>
    obtain ⟨middle, hmiddle, ht, huntil⟩ := run_seq h
    rw [huntil]
    cases hp with
    | inl hfirst =>
        obtain ⟨c, hc, hkind⟩ := ihFirst hfirst hmiddle
        exact ⟨c, List.mem_append_left _ hc, hkind⟩
    | inr hsecond =>
        obtain ⟨c, hc, hkind⟩ := ihSecond hsecond ht
        exact ⟨c, List.mem_append_right _ hc, hkind⟩
  | either first second ihFirst ihSecond =>
    rcases List.mem_append.mp h with h | h
    · exact ihFirst hp.1 h
    · exact ihSecond hp.2 h
  | group index p ih =>
    obtain ⟨found, hfound, rfl⟩ := List.mem_map.mp h
    exact ih hp (t := found) hfound
  | many accepts => cases hp
  | optional p ih => cases hp
  | boundary => cases hp
  | start => cases hp
  | finish => cases hp

/-- A substitution without matches keeps the text. -/
theorem subWithin_unmatched {isWord : Char → Bool} {p : Pattern}
    {replace : Place → List Char → List Char} (n : ℕ) (before text : List Char)
    (h : matchesWithin isWord p n before text = []) :
    subWithin isWord p replace n before text = text := by
  induction n generalizing before text with
  | zero => rfl
  | succ n ih =>
    cases text with
    | nil => rfl
    | cons c rest =>
      rw [matchesWithin] at h
      rw [subWithin]
      split at h
      · rw [ih _ _ h]
      · split_ifs at h with hshorter
        rw [if_neg hshorter, ih _ _ h]

/-- What is matched is a piece of the text. -/
theorem infix_of_mem_matchesWithin {isWord : Char → Bool} {p : Pattern} {n : ℕ}
    {before text : List Char} {m : Place × List Char}
    (h : m ∈ matchesWithin isWord p n before text) : m.2 <:+: text := by
  induction n generalizing before text with
  | zero => cases h
  | succ n ih =>
    cases text with
    | nil => cases h
    | cons c rest =>
      rw [matchesWithin] at h
      split at h
      · exact (ih h).trans (List.suffix_cons c rest).isInfix
      · rename_i found others hfound
        have hmem : found ∈ run isWord p ⟨before, c :: rest, []⟩ := hfound ▸ List.mem_cons_self
        have happend := until_append hmem
        simp only at happend
        split_ifs at h
        · have hpiece := (List.prefix_append (Place.until ⟨before, c :: rest, []⟩ found)
            found.rest).isInfix
          have hbehind := (List.suffix_append (Place.until ⟨before, c :: rest, []⟩ found)
            found.rest).isInfix
          rw [← happend] at hpiece hbehind
          rcases List.mem_cons.mp h with rfl | h
          · exact hpiece
          · exact (ih h).trans hbehind
        · exact (ih h).trans (List.suffix_cons c rest).isInfix

/-- A text without a character of the kind is kept. -/
theorem subWithin_absent {isWord : Char → Bool} {kind : Char → Prop} {p : Pattern}
    (hp : p.Requires kind) {text : List Char} (h : ∀ c ∈ text, ¬ kind c)
    (replace : Place → List Char → List Char) (n : ℕ) (before : List Char) :
    subWithin isWord p replace n before text = text := by
  apply subWithin_unmatched
  rw [List.eq_nil_iff_forall_not_mem]
  intro m hm
  obtain ⟨s, hrun, hpiece, -⟩ := mem_matchesWithin hm
  obtain ⟨c, hc, hkind⟩ := run_requires hp hrun
  rw [← hpiece] at hc
  exact h c ((infix_of_mem_matchesWithin hm).subset hc) hkind

theorem sub_absent {isWord : Char → Bool} {kind : Char → Prop} {p : Pattern}
    (hp : p.Requires kind) {text : List Char} (h : ∀ c ∈ text, ¬ kind c)
    (replace : Place → List Char → List Char) : sub isWord p replace text = text :=
  subWithin_absent hp h replace _ _

/-- What stands in front of the first match is kept. -/
theorem subWithin_front {isWord : Char → Bool} {p : Pattern}
    {replace : Place → List Char → List Char} {front rest : List Char} (before : List Char)
    (h : ∀ i < front.length,
      run isWord p ⟨(front.take i).reverse ++ before, front.drop i ++ rest, []⟩ = []) (n : ℕ) :
    subWithin isWord p replace (front.length + n) before (front ++ rest) =
      front ++ subWithin isWord p replace n (front.reverse ++ before) rest := by
  induction front generalizing before with
  | nil => rw [List.length_nil, Nat.zero_add]; rfl
  | cons c front ih =>
    have hfirst := h 0 (Nat.succ_pos _)
    have hlater := ih (c :: before) fun i hi => by
      have hnext := h (i + 1) (Nat.succ_lt_succ hi)
      rw [List.take_succ_cons, List.reverse_cons, List.append_assoc] at hnext
      exact hnext
    have hlength : (c :: front).length + n = front.length + n + 1 := by
      rw [List.length_cons]
      omega
    rw [hlength, List.cons_append, subWithin, show run isWord p ⟨before, c :: (front ++ rest), []⟩ = []
      from hfirst]
    simp only
    rw [hlater, List.reverse_cons, List.append_assoc]
    rfl

/-- A text that is matched as a whole. -/
theorem subWithin_whole {isWord : Char → Bool} {p : Pattern}
    {replace : Place → List Char → List Char} {before text : List Char} {found : Place}
    {others : List Place} (htext : text ≠ [])
    (h : run isWord p ⟨before, text, []⟩ = found :: others) (hrest : found.rest = []) :
    subWithin isWord p replace text.length before text = replace found text := by
  have huntil : Place.until ⟨before, text, []⟩ found = text := by
    rw [Place.until, hrest, List.length_nil, Nat.sub_zero, List.take_length]
  have hdone (n : ℕ) (before : List Char) : subWithin isWord p replace n before [] = [] := by
    cases n <;> rfl
  cases text with
  | nil => exact absurd rfl htext
  | cons c rest =>
    have hshorter : found.rest.length ≤ rest.length := by
      rw [hrest]
      exact Nat.zero_le _
    rw [List.length_cons, subWithin, h]
    simp only
    rw [if_pos hshorter, huntil, hrest, hdone, List.append_nil]

/-- A text is kept whose front has no match and whose rest has no character of the kind. -/
theorem sub_front {isWord : Char → Bool} {kind : Char → Prop} {p : Pattern} (hp : p.Requires kind)
    {front rest : List Char}
    (hfront : ∀ i < front.length,
      run isWord p ⟨(front.take i).reverse, front.drop i ++ rest, []⟩ = [])
    (hrest : ∀ c ∈ rest, ¬ kind c) (replace : Place → List Char → List Char) :
    sub isWord p replace (front ++ rest) = front ++ rest := by
  have hplaces : ∀ i < front.length,
      run isWord p ⟨(front.take i).reverse ++ [], front.drop i ++ rest, []⟩ = [] := by
    intro i hi
    rw [List.append_nil]
    exact hfront i hi
  rw [sub, List.length_append, subWithin_front [] hplaces, subWithin_absent hp hrest]

/-- Where every replacement has a character of the kind and the outcome has none, nothing was
replaced. -/
theorem sub_unmarked {isWord : Char → Bool} {kind : Char → Prop} {p : Pattern} {text : List Char}
    {replace : Place → List Char → List Char}
    (hreplace : ∀ m ∈ matchesOf isWord p text, ∃ c ∈ replace m.1 m.2, kind c)
    (h : ∀ c ∈ sub isWord p replace text, ¬ kind c) : sub isWord p replace text = text := by
  have hwithin (n : ℕ) (before text : List Char)
      (hreplace : ∀ m ∈ matchesWithin isWord p n before text, ∃ c ∈ replace m.1 m.2, kind c)
      (h : ∀ c ∈ subWithin isWord p replace n before text, ¬ kind c) :
      subWithin isWord p replace n before text = text := by
    induction n generalizing before text with
    | zero => rfl
    | succ n ih =>
      cases text with
      | nil => rfl
      | cons c rest =>
        rw [matchesWithin] at hreplace
        rw [subWithin] at h ⊢
        cases hrun : run isWord p ⟨before, c :: rest, []⟩ with
        | nil =>
          simp only [hrun] at hreplace h ⊢
          rw [ih _ _ hreplace fun d hd => h d (List.mem_cons_of_mem c hd)]
        | cons found others =>
          simp only [hrun] at hreplace h ⊢
          by_cases hshorter : found.rest.length ≤ rest.length
          · simp only [if_pos hshorter] at hreplace h
            obtain ⟨d, hd, hkind⟩ := hreplace _ List.mem_cons_self
            exact absurd hkind (h d (List.mem_append_left _ hd))
          · simp only [if_neg hshorter] at hreplace h ⊢
            rw [ih _ _ hreplace fun d hd => h d (List.mem_cons_of_mem c hd)]
  exact hwithin _ _ _ hreplace h

/-! ### What simple patterns match -/

section Simple

variable {isWord : Char → Bool} {accepts : Char → Bool} {s t : Place}

theorem until_self (s : Place) : s.until s = [] := by
  rw [Place.until, Nat.sub_self, List.take_zero]

theorem until_advance {n : ℕ} (hn : n ≤ s.rest.length) : s.until (s.advance n) = s.rest.take n := by
  have hlength : s.rest.length - (s.rest.drop n).length = n := by
    rw [List.length_drop]
    omega
  show s.rest.take (s.rest.length - (s.rest.drop n).length) = s.rest.take n
  rw [hlength]

theorem run_one (h : t ∈ run isWord (.one accepts) s) : ∃ c, s.until t = [c] ∧ accepts c = true := by
  obtain ⟨before, rest, groups⟩ := s
  cases rest with
  | nil => cases h
  | cons c rest =>
    rw [run] at h
    simp only at h
    split_ifs at h with haccepts
    · refine ⟨c, ?_, haccepts⟩
      rw [List.mem_singleton.mp h, until_advance (Nat.succ_le_succ (Nat.zero_le _))]
      rfl
    · cases h

theorem run_many (h : t ∈ run isWord (.many accepts) s) : ∀ c ∈ s.until t, accepts c = true := by
  obtain ⟨n, hn, rfl⟩ := List.mem_map.mp h
  rw [List.mem_reverse, List.mem_range, Nat.lt_succ_iff] at hn
  have htake : s.rest.take n = (s.rest.takeWhile accepts).take n := by
    have happend := @List.take_append_of_le_length _ _ (s.rest.dropWhile accepts) _ hn
    rw [List.takeWhile_append_dropWhile] at happend
    exact happend
  intro c hc
  rw [until_advance (hn.trans (List.takeWhile_prefix accepts).length_le), htake] at hc
  exact List.mem_takeWhile_imp (List.mem_of_mem_take hc)

theorem run_some (h : t ∈ run isWord (.some accepts) s) :
    s.until t ≠ [] ∧ ∀ c ∈ s.until t, accepts c = true := by
  obtain ⟨middle, hone, hmany, huntil⟩ := run_seq h
  obtain ⟨c, hc, haccepts⟩ := run_one hone
  rw [huntil, hc]
  constructor
  · exact List.cons_ne_nil _ _
  · intro d hd
    rcases List.mem_cons.mp hd with rfl | hd
    · exact haccepts
    · exact run_many hmany d hd

theorem run_optional {p : Pattern} (h : t ∈ run isWord (.optional p) s) :
    t ∈ run isWord p s ∨ t = s := by
  rw [run, List.mem_append, List.mem_singleton] at h
  exact h

theorem run_text {letters : String} (h : t ∈ run isWord (.text letters) s) :
    s.until t = letters.toList := by
  rw [Pattern.text] at h
  generalize letters.toList = letters at h
  induction letters generalizing s with
  | nil =>
    have hnone := run_many h
    rw [List.eq_nil_iff_forall_not_mem]
    intro c hc
    cases hnone c hc
  | cons l letters ih =>
    have hone {t : Place} (h : t ∈ run isWord (.one fun c => c == l) s) : s.until t = [l] := by
      obtain ⟨c, hc, heq⟩ := run_one h
      rw [hc, beq_iff_eq.mp heq]
    cases letters with
    | nil => exact hone h
    | cons l' letters =>
      obtain ⟨middle, hfirst, hrest, huntil⟩ := run_seq h
      rw [huntil, hone hfirst, ih hrest]
      rfl

end Simple

/-! ### Where the preferred match ends -/

section Preferred

variable {isWord : Char → Bool} {accepts : Char → Bool} {s found : Place} {others : List Place}

theorem head_of_flatMap {α β : Type*} {f : α → List β} {xs : List α} {y : β} {ys : List β}
    (h : xs.flatMap f = y :: ys) : ∃ x ∈ xs, ∃ zs, f x = y :: zs := by
  induction xs with
  | nil => cases h
  | cons x xs ih =>
    rw [List.flatMap_cons] at h
    cases hx : f x with
    | nil =>
      rw [hx, List.nil_append] at h
      obtain ⟨x', hx', hhead⟩ := ih h
      exact ⟨x', List.mem_cons_of_mem x hx', hhead⟩
    | cons z zs =>
      rw [hx, List.cons_append, List.cons.injEq] at h
      exact ⟨x, List.mem_cons_self, zs, by rw [hx, h.1]⟩

theorem head_of_seq {first second : Pattern} (h : run isWord (.seq first second) s = found :: others) :
    ∃ middle ∈ run isWord first s, ∃ others, run isWord second middle = found :: others :=
  head_of_flatMap h

/-- A repetition takes all it can. -/
theorem head_of_many (h : run isWord (.many accepts) s = found :: others) :
    found.rest = s.rest.dropWhile accepts := by
  rw [run, List.range_succ, List.reverse_append, List.reverse_singleton, List.singleton_append,
    List.map_cons, List.cons.injEq] at h
  have hsplit : s.rest.drop (s.rest.takeWhile accepts).length =
      (s.rest.takeWhile accepts ++ s.rest.dropWhile accepts).drop
        (s.rest.takeWhile accepts).length := by rw [List.takeWhile_append_dropWhile]
  rw [List.drop_left] at hsplit
  rw [← h.1]
  exact hsplit

theorem head_of_some (h : run isWord (.some accepts) s = found :: others) :
    found.rest.head?.any accepts = false := by
  obtain ⟨middle, -, others, hmany⟩ := head_of_seq h
  rw [head_of_many hmany]
  cases hrest : middle.rest.dropWhile accepts with
  | nil => rfl
  | cons c rest =>
    have hne : middle.rest.dropWhile accepts ≠ [] := by
      rw [hrest]
      exact List.cons_ne_nil c rest
    have hhead := List.head_dropWhile_not accepts hne
    simp only [hrest, List.head_cons] at hhead
    exact hhead

end Preferred

/-! ### Texts that a substitution keeps -/

section Kept

variable {isWord : Char → Bool} {p q : Pattern} {replace : Place → List Char → List Char}

/-- What is found is a piece of the text. -/
theorem infix_of_search {text : List Char} (h : search isWord p text = true) :
    ∃ s, ∃ t ∈ run isWord p s, s.until t <:+: text := by
  have hwithin (before text : List Char) (h : searchFrom isWord p before text = true) :
      ∃ s, ∃ t ∈ run isWord p s, s.until t <:+: text := by
    have hhere (before text : List Char) (h : (!(run isWord p ⟨before, text, []⟩).isEmpty) = true) :
        ∃ s, ∃ t ∈ run isWord p s, s.until t <:+: text := by
      cases hrun : run isWord p ⟨before, text, []⟩ with
      | nil =>
        rw [hrun] at h
        cases h
      | cons t others =>
        have hmem : t ∈ run isWord p ⟨before, text, []⟩ := hrun ▸ List.mem_cons_self
        have happend := until_append hmem
        refine ⟨_, t, hmem, ?_⟩
        have hpiece := (List.prefix_append (Place.until ⟨before, text, []⟩ t) t.rest).isInfix
        rwa [← happend] at hpiece
    induction text generalizing before with
    | nil => exact hhere before [] h
    | cons c rest ih =>
      rw [searchFrom, Bool.or_eq_true] at h
      cases h with
      | inl h => exact hhere before (c :: rest) h
      | inr h =>
        obtain ⟨s, t, ht, hpiece⟩ := ih (c :: before) h
        exact ⟨s, t, ht, hpiece.trans (List.suffix_cons c rest).isInfix⟩
  exact hwithin [] text h

/-- A text is kept where nothing is found that every match begins with. -/
theorem sub_unfound (hbegins : ∀ s, run isWord q s = [] → run isWord p s = []) {text : List Char}
    (h : search isWord q text = false) : sub isWord p replace text = text := by
  have hwithin (n : ℕ) (before text : List Char) (h : searchFrom isWord q before text = false) :
      subWithin isWord p replace n before text = text := by
    induction n generalizing before text with
    | zero => rfl
    | succ n ih =>
      cases text with
      | nil => rfl
      | cons c rest =>
        rw [searchFrom, Bool.or_eq_false_iff, Bool.not_eq_false', List.isEmpty_iff] at h
        rw [subWithin, hbegins _ h.1]
        simp only
        rw [ih _ _ h.2]
  exact hwithin _ _ _ h

/-- The pattern matches as many characters of a kind as there are. -/
def Pattern.Exhausts (isWord : Char → Bool) (accepts : Char → Bool) (p : Pattern) : Prop :=
  ∀ s found others, run isWord p s = found :: others →
    s.until found ≠ [] ∧ (∀ c ∈ s.until found, accepts c = true) ∧
      found.rest.head?.any accepts = false

variable {accepts : Char → Bool}

/-- In front of such a match a substitution leaves the text as it is. -/
theorem subWithin_head (hp : p.Exhausts isWord accepts) (n : ℕ) (before text : List Char)
    (h : text.head?.any accepts = false) :
    (subWithin isWord p replace n before text).head?.any accepts = false := by
  cases n with
  | zero => exact h
  | succ n =>
    cases text with
    | nil => exact h
    | cons c rest =>
      rw [subWithin]
      cases hrun : run isWord p ⟨before, c :: rest, []⟩ with
      | nil => exact h
      | cons found others =>
        exfalso
        obtain ⟨hne, haccepts, -⟩ := hp _ _ _ hrun
        have hmem : found ∈ run isWord p ⟨before, c :: rest, []⟩ := hrun ▸ List.mem_cons_self
        have happend := until_append hmem
        simp only at happend
        cases hpiece : Place.until ⟨before, c :: rest, []⟩ found with
        | nil => exact hne hpiece
        | cons d piece =>
          rw [hpiece, List.cons_append, List.cons.injEq] at happend
          have hd := haccepts d (hpiece ▸ List.mem_cons_self)
          rw [List.head?_cons, Option.any_some, happend.1, hd] at h
          cases h

theorem takeWhile_append_stopped {piece rest : List Char} (h : ∀ c ∈ piece, accepts c = true)
    (hrest : rest.head?.any accepts = false) : (piece ++ rest).takeWhile accepts = piece := by
  rw [List.takeWhile_append_of_pos h]
  cases rest with
  | nil => rw [List.takeWhile_nil, List.append_nil]
  | cons c rest =>
    rw [List.head?_cons, Option.any_some] at hrest
    rw [List.takeWhile_cons_of_neg (by rw [hrest]; decide), List.append_nil]

/-- **A text is kept just where each of its matches is replaced by itself**, if replacements are of
the characters that matches consist of. -/
theorem sub_eq_iff (hp : p.Exhausts isWord accepts) {text : List Char}
    (hreplace : ∀ m ∈ matchesOf isWord p text, ∀ c ∈ replace m.1 m.2, accepts c = true) :
    sub isWord p replace text = text ↔ ∀ m ∈ matchesOf isWord p text, replace m.1 m.2 = m.2 := by
  have hwithin (n : ℕ) (before text : List Char)
      (hreplace : ∀ m ∈ matchesWithin isWord p n before text, ∀ c ∈ replace m.1 m.2,
        accepts c = true) :
      subWithin isWord p replace n before text = text ↔
        ∀ m ∈ matchesWithin isWord p n before text, replace m.1 m.2 = m.2 := by
    induction n generalizing before text with
    | zero => exact ⟨fun _ m hm => absurd hm List.not_mem_nil, fun _ => rfl⟩
    | succ n ih =>
      cases text with
      | nil => exact ⟨fun _ m hm => absurd hm List.not_mem_nil, fun _ => rfl⟩
      | cons c rest =>
        rw [matchesWithin] at hreplace ⊢
        rw [subWithin]
        cases hrun : run isWord p ⟨before, c :: rest, []⟩ with
        | nil =>
          simp only [hrun, List.cons.injEq, true_and] at hreplace ⊢
          exact ih _ _ hreplace
        | cons found others =>
          simp only [hrun] at hreplace ⊢
          by_cases hshorter : found.rest.length ≤ rest.length
          · simp only [if_pos hshorter, List.forall_mem_cons] at hreplace ⊢
            obtain ⟨-, haccepts, hstopped⟩ := hp _ _ _ hrun
            have hmem : found ∈ run isWord p ⟨before, c :: rest, []⟩ := hrun ▸ List.mem_cons_self
            have happend := until_append hmem
            simp only at happend
            rw [← ih _ _ hreplace.2]
            constructor
            · intro hsame
              have hsame := hsame.trans happend
              -- Both texts begin with as many characters of the kind as there are.
              have hpiece := congrArg (List.takeWhile accepts) hsame
              rw [takeWhile_append_stopped hreplace.1 (subWithin_head hp n _ _ hstopped),
                takeWhile_append_stopped haccepts hstopped] at hpiece
              rw [hpiece] at hsame
              exact ⟨hpiece, List.append_cancel_left hsame⟩
            · rintro ⟨hpiece, hrest⟩
              rw [hpiece, hrest, ← happend]
          · simp only [if_neg hshorter, List.cons.injEq, true_and] at hreplace ⊢
            exact ih _ _ hreplace
  exact hwithin _ _ _ hreplace

end Kept

end RegexText

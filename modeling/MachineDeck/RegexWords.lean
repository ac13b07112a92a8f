import MachineDeck.RegexText

/-!
# Matching a line word by word

The preferred match of a pattern on a text that is made of words and blanks.

* `Place.pass` — the place behind a word;
* `Leads` — the way that a pattern prefers, with a rule for every kind of pattern;
* `Accepted`, `run_ones` — words that are matched letter by letter;
* `run_blank_seq` — blanks in front of something that is not blank.
-/

namespace RegexText

variable {isWord : Char → Bool} {accepts : Char → Bool} {p q : Pattern} {s t : Place}
  {word rest : List Char}

/-- The place behind a word of the text. -/
def Place.pass (s : Place) (word rest : List Char) : Place :=
  ⟨word.reverse ++ s.before, rest, s.groups⟩

theorem advance_eq_pass (h : s.rest = word ++ rest) :
    s.advance word.length = s.pass word rest := by
  rw [Place.advance, Place.pass, h, List.take_left, List.drop_left]

theorem until_of_split (h : s.rest = word ++ t.rest) : s.until t = word := by
  rw [Place.until, h, List.length_append, Nat.add_sub_cancel, List.take_left]

/-! ### The preferred way -/

/-- The pattern matches, and first of all up to there. -/
def Leads (isWord : Char → Bool) (p : Pattern) (s t : Place) : Prop :=
  ∃ others, run isWord p s = t :: others

theorem Leads.seq {middle : Place} (hp : Leads isWord p s middle) (hq : Leads isWord q middle t) :
    Leads isWord (.seq p q) s t := by
  obtain ⟨others, hp⟩ := hp
  obtain ⟨others', hq⟩ := hq
  exact ⟨others' ++ others.flatMap (run isWord q), by
    show (run isWord p s).flatMap (run isWord q) = _
    rw [hp, List.flatMap_cons, hq, List.cons_append]⟩

theorem Leads.optional (hp : Leads isWord p s t) : Leads isWord (.optional p) s t := by
  obtain ⟨others, hp⟩ := hp
  exact ⟨others ++ [s], by rw [run, hp, List.cons_append]⟩

theorem leads_skip (hp : run isWord p s = []) : Leads isWord (.optional p) s s :=
  ⟨[], by rw [run, hp, List.nil_append]⟩

/-- An option that leads nowhere is left out. -/
theorem leads_skip_seq (hp : run isWord (.seq p q) s = []) (hq : Leads isWord q s t) :
    Leads isWord (.seq (.optional p) q) s t := by
  obtain ⟨others, hq⟩ := hq
  refine ⟨others, ?_⟩
  have hp' : (run isWord p s).flatMap (run isWord q) = [] := hp
  show (run isWord p s ++ [s]).flatMap (run isWord q) = _
  rw [List.flatMap_append, hp', List.nil_append, List.flatMap_singleton, hq]

theorem Leads.group (index : ℕ) (hp : Leads isWord p s t) :
    Leads isWord (.group index p) s { t with groups := (index, s.until t) :: t.groups } := by
  obtain ⟨others, hp⟩ := hp
  exact ⟨_, by rw [run, hp, List.map_cons]⟩

theorem leads_start (h : s.before = []) : Leads isWord .start s s := ⟨[], by rw [run, if_pos h]⟩

theorem leads_finish (h : s.rest = []) : Leads isWord .finish s s :=
  ⟨[], by rw [run, if_pos (Or.inl h)]⟩

theorem takeWhile_word (hword : ∀ c ∈ word, accepts c = true)
    (hrest : rest.head?.any accepts = false) : (word ++ rest).takeWhile accepts = word := by
  have hnone : rest.takeWhile accepts = [] := by
    cases rest with
    | nil => rfl
    | cons c rest => exact List.takeWhile_cons_of_neg (by simpa using hrest)
  rw [List.takeWhile_append_of_pos hword, hnone, List.append_nil]

theorem dropWhile_word (hword : ∀ c ∈ word, accepts c = true)
    (hrest : rest.head?.any accepts = false) : (word ++ rest).dropWhile accepts = rest := by
  have hsplit := List.takeWhile_append_dropWhile (p := accepts) (l := word ++ rest)
  rw [takeWhile_word hword hrest] at hsplit
  exact List.append_cancel_left hsplit

theorem leads_many (h : s.rest = word ++ rest) (hword : ∀ c ∈ word, accepts c = true)
    (hrest : rest.head?.any accepts = false) : Leads isWord (.many accepts) s (s.pass word rest) := by
  refine ⟨((List.range word.length).reverse.map s.advance), ?_⟩
  rw [run, h, takeWhile_word hword hrest, List.range_succ, List.reverse_append,
    List.reverse_singleton, List.singleton_append, List.map_cons, advance_eq_pass h]

theorem run_one_pass {c : Char} (h : s.rest = c :: rest) (hc : accepts c = true) :
    run isWord (.one accepts) s = [s.pass [c] rest] := by
  have hpass : s.advance 1 = s.pass [c] rest := @advance_eq_pass s [c] rest h
  rw [run, h]
  simp only [hc, if_true, hpass]

theorem leads_one {c : Char} (h : s.rest = c :: rest) (hc : accepts c = true) :
    Leads isWord (.one accepts) s (s.pass [c] rest) := ⟨[], run_one_pass h hc⟩

theorem leads_some (h : s.rest = word ++ rest) (hne : word ≠ [])
    (hword : ∀ c ∈ word, accepts c = true) (hrest : rest.head?.any accepts = false) :
    Leads isWord (.some accepts) s (s.pass word rest) := by
  obtain ⟨c, word, rfl⟩ := List.exists_cons_of_ne_nil hne
  have hone : Leads isWord (.one accepts) s (s.pass [c] (word ++ rest)) :=
    leads_one (by rw [h, List.cons_append]) (hword c List.mem_cons_self)
  have hmany : Leads isWord (.many accepts) (s.pass [c] (word ++ rest))
      ((s.pass [c] (word ++ rest)).pass word rest) :=
    leads_many rfl (fun d hd => hword d (List.mem_cons_of_mem c hd)) hrest
  have hpass : (s.pass [c] (word ++ rest)).pass word rest = s.pass (c :: word) rest := by
    simp [Place.pass]
  rw [← hpass]
  exact hone.seq hmany

/-! ### Words letter by letter -/

/-- The word has a character of each class, in order. -/
def Accepted (classes : List (Char → Bool)) (word : List Char) : Prop :=
  List.Forall₂ (fun accepts c => accepts c = true) classes word

instance (classes : List (Char → Bool)) (word : List Char) : Decidable (Accepted classes word) :=
  inferInstanceAs (Decidable (List.Forall₂ _ classes word))

def ones (classes : List (Char → Bool)) : Pattern := .ofList (classes.map .one)

theorem run_ones {classes : List (Char → Bool)} (hne : classes ≠ []) (h : s.rest = word ++ rest)
    (hword : Accepted classes word) : run isWord (ones classes) s = [s.pass word rest] := by
  induction hword generalizing s with
  | nil => exact absurd rfl hne
  | @cons accepts c classes word hc hword ih =>
      rw [List.cons_append] at h
      have hone := @run_one_pass isWord accepts s (word ++ rest) c h hc
      cases hword with
      | nil => exact hone
      | @cons accepts' c' classes word hc' hword =>
          have hmore := ih (List.cons_ne_nil _ _) (s := s.pass [c] (c' :: word ++ rest)) rfl
          have hpass : (s.pass [c] (c' :: word ++ rest)).pass (c' :: word) rest =
              s.pass (c :: c' :: word) rest := by
            simp [Place.pass]
          rw [← hpass, ← hmore]
          exact run_seq_of_singleton hone

theorem accepted_of_mem {classes : List (Char → Bool)} (hne : classes ≠ [])
    (h : t ∈ run isWord (ones classes) s) :
    ∃ word, Accepted classes word ∧ s.rest = word ++ t.rest := by
  induction classes generalizing s with
  | nil => exact absurd rfl hne
  | cons accepts classes ih =>
      have hone {t : Place} (h : t ∈ run isWord (.one accepts) s) :
          ∃ c, accepts c = true ∧ s.rest = c :: t.rest := by
        obtain ⟨c, hc, haccepts⟩ := run_one h
        refine ⟨c, haccepts, ?_⟩
        have hsplit := until_append h
        rwa [hc] at hsplit
      cases classes with
      | nil =>
          obtain ⟨c, hc, hrest⟩ := hone h
          exact ⟨[c], .cons hc .nil, hrest⟩
      | cons accepts' classes =>
          obtain ⟨middle, hfirst, hmore, -⟩ := run_seq h
          obtain ⟨c, hc, hrest⟩ := hone hfirst
          obtain ⟨word, hword, htail⟩ := ih (List.cons_ne_nil _ _) hmore
          exact ⟨c :: word, .cons hc hword, by rw [hrest, htail, List.cons_append]⟩

/-- What has the case of an ASCII character is ASCII, or one of four more. -/
theorem caseless_cases {l c : Char} (hl : l.toNat < 128) (h : caseless (fun c => c == l) c = true) :
    c.toNat < 128 ∨ c ∈ ['ſ', '\u212A', 'İ', 'ı'] := by
  by_cases hc : c.toNat < 128
  · exact Or.inl hc
  have hlower : c.toLower = c := by
    delta Char.toLower
    rw [dif_neg]
    rintro ⟨-, hle⟩
    have hlast : c.toNat ≤ 90 := UInt32.le_iff_toNat_le.mp hle
    omega
  have hupper : c.toUpper = c := by
    delta Char.toUpper
    rw [dif_neg]
    rintro ⟨-, hle⟩
    have hlast : c.toNat ≤ 122 := UInt32.le_iff_toNat_le.mp hle
    omega
  have hne : (c == l) = false := by
    rw [beq_eq_false_iff_ne]
    rintro rfl
    exact hc hl
  rw [caseless] at h
  simp only [hlower, hupper, hne, Bool.or_self, Bool.false_or, Bool.or_eq_true,
    Bool.and_eq_true, beq_iff_eq] at h
  simp only [List.mem_cons, List.not_mem_nil, or_false]
  tauto

/-- A property of the characters that have the case of a given one, tried one by one. -/
theorem caseless_forall {l : Char} (kind : Char → Prop) (hl : l.toNat < 128)
    (hascii : ∀ n < 128, caseless (fun c => c == l) (Char.ofNat n) = true → kind (Char.ofNat n))
    (hmore : ∀ c ∈ ['ſ', '\u212A', 'İ', 'ı'], caseless (fun c => c == l) c = true → kind c)
    {c : Char} (h : caseless (fun c => c == l) c = true) : kind c := by
  rcases caseless_cases hl h with hc | hc
  · have hvalue := hascii c.toNat hc
    rw [Char.ofNat_toNat] at hvalue
    exact hvalue h
  · exact hmore c hc h

/-! ### Blanks -/

/-- Blanks in front of what is not blank are passed in one way only. -/
theorem run_many_seq (h : s.rest = word ++ rest) (hword : ∀ c ∈ word, accepts c = true)
    (hrest : rest.head?.any accepts = false)
    (hq : ∀ s', s'.rest.head?.any accepts = true → run isWord q s' = []) :
    run isWord (.seq (.many accepts) q) s = run isWord q (s.pass word rest) := by
  have hothers : ((List.range word.length).reverse.map s.advance).flatMap (run isWord q) = [] := by
    rw [List.flatMap_eq_nil_iff]
    intro t ht
    obtain ⟨n, hn, rfl⟩ := List.mem_map.mp ht
    rw [List.mem_reverse, List.mem_range] at hn
    refine hq _ ?_
    show ((s.rest.drop n).head?).any accepts = true
    rw [h, List.drop_append_of_le_length hn.le, List.drop_eq_getElem_cons hn, List.cons_append,
      List.head?_cons, Option.any_some]
    exact hword _ (List.getElem_mem hn)
  show (run isWord (.many accepts) s).flatMap (run isWord q) = _
  rw [run, h, takeWhile_word hword hrest, List.range_succ, List.reverse_append,
    List.reverse_singleton, List.singleton_append, List.map_cons, advance_eq_pass h,
    List.flatMap_cons, hothers, List.append_nil]

theorem run_blank_seq (h : s.rest = word ++ rest) (hne : word ≠ [])
    (hword : ∀ c ∈ word, accepts c = true) (hrest : rest.head?.any accepts = false)
    (hq : ∀ s', s'.rest.head?.any accepts = true → run isWord q s' = []) :
    run isWord (.seq (.some accepts) q) s = run isWord q (s.pass word rest) := by
  obtain ⟨c, word, rfl⟩ := List.exists_cons_of_ne_nil hne
  have hone : run isWord (.one accepts) s = [s.pass [c] (word ++ rest)] :=
    run_one_pass (by rw [h, List.cons_append]) (hword c List.mem_cons_self)
  have hmany : run isWord (.seq (.many accepts) q) (s.pass [c] (word ++ rest)) =
      run isWord q ((s.pass [c] (word ++ rest)).pass word rest) :=
    run_many_seq rfl (fun d hd => hword d (List.mem_cons_of_mem c hd)) hrest hq
  have hpass : (s.pass [c] (word ++ rest)).pass word rest = s.pass (c :: word) rest := by
    simp [Place.pass]
  rw [← hpass, ← hmany]
  show ((run isWord (.one accepts) s).flatMap (run isWord (.many accepts))).flatMap
    (run isWord q) = _
  rw [hone, List.flatMap_singleton]
  rfl

end RegexText

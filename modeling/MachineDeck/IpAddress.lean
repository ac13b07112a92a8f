import MachineDeck.HexDigits
import Mathlib.Data.List.TakeWhile
import Mathlib.Tactic.NormNum

/-!
# IP addresses

IPv4 and IPv6 addresses as Python's `ipaddress` reads and writes them.

* `Address` — an address as a number, of IPv6 also its zone;
* `readV4`, `readV6`, `ipAddress` — the readers;
* `Address.str` — the text of an address, the longest run of zero groups left out;
* `ipAddress_str` — every address is read back from its text;
* `Network`, `Network.contains`.
-/

namespace IpAddress

open HexDigits

/-- The name of an interface behind an IPv6 address. -/
structure Zone where
  text : List Char
  ne_nil : text ≠ []
  plain : '%' ∉ text ∧ '/' ∉ text
  deriving DecidableEq

/-- So a number below it may be written as a literal. -/
instance neZero_v4 : NeZero (2 ^ 32) := ⟨by decide⟩

inductive Address where
  | v4 (value : Fin (2 ^ 32))
  | v6 (value : Fin (2 ^ 128)) (zone : Option Zone)
  deriving DecidableEq

/-! ### IPv4 -/

def decimalDigit (n : ℕ) : Char := Char.ofNat (48 + n)

def decimal (n : ℕ) : List Char :=
  if n < 10 then [decimalDigit n]
  else if n < 100 then [decimalDigit (n / 10), decimalDigit (n % 10)]
  else [decimalDigit (n / 100), decimalDigit (n / 10 % 10), decimalDigit (n % 10)]

/-- Up to three digits, no leading zero, at most 255. -/
def readOctet (text : List Char) : Option ℕ :=
  let value := text.foldl (fun value c => value * 10 + (c.toNat - 48)) 0
  if text ≠ [] ∧ text.all Char.isDigit ∧ text.length ≤ 3 ∧ (text.head? = some '0' → text = ['0']) ∧
      value ≤ 255 then some value
  else none

set_option maxRecDepth 4000 in
theorem readOctet_decimal : ∀ n < 256, readOctet (decimal n) = some n := by decide

set_option maxRecDepth 4000 in
theorem decimal_all_digits : ∀ n < 256, (decimal n).all Char.isDigit = true := by decide

theorem decimal_digits : ∀ n < 256, ∀ c ∈ decimal n, c.isDigit = true :=
  fun n hn => List.all_eq_true.mp (decimal_all_digits n hn)

def textV4 (value : ℕ) : List Char :=
  ['.'].intercalate [decimal (value / 16777216 % 256), decimal (value / 65536 % 256),
    decimal (value / 256 % 256), decimal (value % 256)]

def readV4 (text : List Char) : Option ℕ :=
  match text.splitOn '.' with
  | [a, b, c, d] => do
    let a ← readOctet a
    let b ← readOctet b
    let c ← readOctet c
    let d ← readOctet d
    return ((a * 256 + b) * 256 + c) * 256 + d
  | _ => none

theorem readV4_textV4 {value : ℕ} (h : value < 2 ^ 32) : readV4 (textV4 value) = some value := by
  have hoctet (n : ℕ) : readOctet (decimal (n % 256)) = some (n % 256) :=
    readOctet_decimal _ (Nat.mod_lt _ (by decide))
  have hpoint (n : ℕ) : '.' ∉ decimal (n % 256) := fun hmem =>
    absurd (decimal_digits _ (Nat.mod_lt _ (by decide)) _ hmem) (by decide)
  have hsplit : (textV4 value).splitOn '.' = [decimal (value / 16777216 % 256),
      decimal (value / 65536 % 256), decimal (value / 256 % 256), decimal (value % 256)] := by
    apply List.splitOn_intercalate
    · intro piece hpiece
      simp only [List.mem_cons, List.not_mem_nil, or_false] at hpiece
      rcases hpiece with rfl | rfl | rfl | rfl <;> exact hpoint _
    · simp
  rw [readV4, hsplit]
  simp only [hoctet, Option.bind_eq_bind, Option.bind_some, Option.pure_def]
  congr 1
  omega

theorem readOctet_digits {text : List Char} {n : ℕ} (h : readOctet text = some n) :
    text.all Char.isDigit = true ∧ n < 256 := by
  unfold readOctet at h
  simp only at h
  split_ifs at h with hok
  cases h
  exact ⟨hok.2.1, Nat.lt_succ_of_le hok.2.2.2.2⟩

theorem readV4_some {text : List Char} {value : ℕ} (h : readV4 text = some value) :
    (∀ c ∈ text, c.isDigit = true ∨ c = '.') ∧ value < 2 ^ 32 := by
  unfold readV4 at h
  split at h
  · rename_i a b c d hsplit
    obtain ⟨va, ha, h⟩ := Option.bind_eq_some_iff.mp h
    obtain ⟨vb, hb, h⟩ := Option.bind_eq_some_iff.mp h
    obtain ⟨vc, hc, h⟩ := Option.bind_eq_some_iff.mp h
    obtain ⟨vd, hd, h⟩ := Option.bind_eq_some_iff.mp h
    have hvalue := Option.some.inj h
    obtain ⟨hda, hla⟩ := readOctet_digits ha
    obtain ⟨hdb, hlb⟩ := readOctet_digits hb
    obtain ⟨hdc, hlc⟩ := readOctet_digits hc
    obtain ⟨hdd, hld⟩ := readOctet_digits hd
    constructor
    · intro x hx
      have hjoin : ['.'].intercalate (text.splitOn '.') = text := List.intercalate_splitOn '.'
      rw [← hjoin, hsplit] at hx
      simp only [List.all_eq_true] at hda hdb hdc hdd
      simp only [List.intercalate, List.intersperse, List.flatten_cons, List.flatten_nil,
        List.mem_append, List.mem_singleton, List.append_nil] at hx
      rcases hx with hx | hx | hx | hx | hx | hx | hx
      · exact Or.inl (hda x hx)
      · exact Or.inr hx
      · exact Or.inl (hdb x hx)
      · exact Or.inr hx
      · exact Or.inl (hdc x hx)
      · exact Or.inr hx
      · exact Or.inl (hdd x hx)
    · omega
  · cases h

/-! ### IPv6 -/

/-- A group without leading zeros. -/
def hexGroup (n : ℕ) : List Char :=
  if n < 16 then [hexDigit n]
  else if n < 256 then [hexDigit (n / 16), hexDigit (n % 16)]
  else if n < 4096 then [hexDigit (n / 256), hexDigit (n / 16 % 16), hexDigit (n % 16)]
  else [hexDigit (n / 4096), hexDigit (n / 256 % 16), hexDigit (n / 16 % 16), hexDigit (n % 16)]

def readHextet (text : List Char) : Option ℕ :=
  if text = [] ∨ 4 < text.length then none
  else text.foldlM (fun value c => (hexValue c).map fun digit => value * 16 + digit) 0

theorem readHextet_hexGroup {n : ℕ} (h : n < 65536) : readHextet (hexGroup n) = some n := by
  unfold hexGroup
  split_ifs with h₁ h₂ h₃
  · simp [readHextet, hexValue_hexDigit n h₁]
  · simp only [readHextet, List.foldlM_cons, List.foldlM_nil,
      hexValue_hexDigit (n / 16) (by omega), hexValue_hexDigit (n % 16) (by omega)]
    simp
    omega
  · simp only [readHextet, List.foldlM_cons, List.foldlM_nil,
      hexValue_hexDigit (n / 256) (by omega), hexValue_hexDigit (n / 16 % 16) (by omega),
      hexValue_hexDigit (n % 16) (by omega)]
    simp
    omega
  · simp only [readHextet, List.foldlM_cons, List.foldlM_nil,
      hexValue_hexDigit (n / 4096) (by omega), hexValue_hexDigit (n / 256 % 16) (by omega),
      hexValue_hexDigit (n / 16 % 16) (by omega), hexValue_hexDigit (n % 16) (by omega)]
    simp
    omega

theorem hexDigit_plain : ∀ n < 16, hexDigit n ≠ ':' ∧ hexDigit n ≠ '.' ∧ hexDigit n ≠ '%' := by
  decide

theorem mem_hexGroup {n : ℕ} (h : n < 65536) {c : Char} (hc : c ∈ hexGroup n) :
    ∃ digit < 16, c = hexDigit digit := by
  unfold hexGroup at hc
  split_ifs at hc
  · exact ⟨n, by omega, by simpa using hc⟩
  · simp only [List.mem_cons, List.not_mem_nil, or_false] at hc
    rcases hc with rfl | rfl
    · exact ⟨_, by omega, rfl⟩
    · exact ⟨_, by omega, rfl⟩
  · simp only [List.mem_cons, List.not_mem_nil, or_false] at hc
    rcases hc with rfl | rfl | rfl
    · exact ⟨_, by omega, rfl⟩
    · exact ⟨_, by omega, rfl⟩
    · exact ⟨_, by omega, rfl⟩
  · simp only [List.mem_cons, List.not_mem_nil, or_false] at hc
    rcases hc with rfl | rfl | rfl | rfl
    · exact ⟨_, by omega, rfl⟩
    · exact ⟨_, by omega, rfl⟩
    · exact ⟨_, by omega, rfl⟩
    · exact ⟨_, by omega, rfl⟩

theorem hexGroup_plain {n : ℕ} (h : n < 65536) :
    ':' ∉ hexGroup n ∧ '.' ∉ hexGroup n ∧ '%' ∉ hexGroup n := by
  refine ⟨fun hmem => ?_, fun hmem => ?_, fun hmem => ?_⟩
  all_goals
    obtain ⟨digit, hdigit, heq⟩ := mem_hexGroup h hmem
    have hplain := hexDigit_plain digit hdigit
    simp [← heq] at hplain

theorem hexGroup_ne_nil (n : ℕ) : hexGroup n ≠ [] := by
  unfold hexGroup
  split_ifs <;> simp

/-- Groups with colons between them. -/
def joined (groups : List ℕ) : List Char := [':'].intercalate (groups.map hexGroup)

def readGroups (text : List Char) : Option (List ℕ) :=
  if text = [] then some [] else (text.splitOn ':').mapM readHextet

/-- The text before the first double colon and the text behind it. -/
def cut : List Char → List Char × Option (List Char)
  | ':' :: ':' :: rest => ([], some rest)
  | c :: rest => (c :: (cut rest).1, (cut rest).2)
  | [] => ([], none)

/-- A dotted quad at the end stands for two groups. -/
def embedded (text : List Char) : Option (List Char) :=
  if '.' ∈ text then do
    let parts := text.splitOn ':'
    let value ← readV4 (parts.getLast?.getD [])
    return [':'].intercalate
      (parts.dropLast ++ [hexGroup (value / 65536), hexGroup (value % 65536)])
  else some text

/-- Eight groups, or fewer around one double colon. -/
def readV6Groups (text : List Char) : Option (List ℕ) := do
  let text ← embedded text
  match cut text with
  | (whole, none) => do
    let groups ← readGroups whole
    if groups.length = 8 then some groups else none
  | (high, some low) => do
    let high ← readGroups high
    let low ← readGroups low
    if high.length + low.length ≤ 7 then
      some (high ++ List.replicate (8 - (high.length + low.length)) 0 ++ low)
    else none

/-- The first of the longest runs of zeros: where it starts and how long it is. -/
def longestRun (groups : List ℕ) : ℕ × ℕ :=
  (List.range groups.length).foldl (fun best start =>
    let run := ((groups.drop start).takeWhile (· = 0)).length
    if best.2 < run then (start, run) else best) (0, 0)

def textGroups (groups : List ℕ) : List Char :=
  let run := longestRun groups
  if run.2 ≤ 1 then joined groups
  else joined (groups.take run.1) ++ ':' :: ':' :: joined (groups.drop (run.1 + run.2))

theorem joined_cons (group next : ℕ) (groups : List ℕ) :
    joined (group :: next :: groups) = hexGroup group ++ ':' :: joined (next :: groups) := by
  rw [joined, List.map_cons, List.map_cons, List.intercalate_cons_cons]
  simp [joined]

theorem mem_joined {groups : List ℕ} (h : ∀ g ∈ groups, g < 65536) {c : Char}
    (hc : c ∈ joined groups) : c ≠ '.' ∧ c ≠ '%' := by
  induction groups with
  | nil => simp [joined, List.intercalate] at hc
  | cons group groups ih =>
      have hgroup := hexGroup_plain (h group (by simp))
      have hword {c : Char} (hc : c ∈ hexGroup group) : c ≠ '.' ∧ c ≠ '%' :=
        ⟨fun heq => hgroup.2.1 (heq ▸ hc), fun heq => hgroup.2.2 (heq ▸ hc)⟩
      cases groups with
      | nil => exact hword (by simpa [joined, List.intercalate] using hc)
      | cons next groups =>
          rw [joined_cons, List.mem_append, List.mem_cons] at hc
          rcases hc with hc | rfl | hc
          · exact hword hc
          · decide
          · exact ih (fun g hg => h g (by simp [hg])) hc

theorem mapM_readHextet {groups : List ℕ} (h : ∀ g ∈ groups, g < 65536) :
    (groups.map hexGroup).mapM readHextet = some groups := by
  induction groups with
  | nil => rfl
  | cons group groups ih =>
      rw [List.map_cons, List.mapM_cons, readHextet_hexGroup (h group (by simp)),
        ih fun g hg => h g (by simp [hg])]
      rfl

theorem readGroups_joined {groups : List ℕ} (h : ∀ g ∈ groups, g < 65536) :
    readGroups (joined groups) = some groups := by
  cases groups with
  | nil => rfl
  | cons group groups =>
      have hsplit : (joined (group :: groups)).splitOn ':' = (group :: groups).map hexGroup := by
        apply List.splitOn_intercalate
        · intro word hword
          obtain ⟨g, hg, rfl⟩ := List.mem_map.mp hword
          exact (hexGroup_plain (h g hg)).1
        · simp
      have hne : joined (group :: groups) ≠ [] := by
        intro hnil
        rw [hnil] at hsplit
        have hword := List.head_eq_of_cons_eq hsplit
        exact hexGroup_ne_nil group (by simpa using hword.symm)
      rw [readGroups, if_neg hne, hsplit, mapM_readHextet h]

theorem cut_colon {text : List Char} (hne : text ≠ []) (hhead : text.head? ≠ some ':') :
    cut (':' :: text) = (':' :: (cut text).1, (cut text).2) := by
  cases text with
  | nil => exact absurd rfl hne
  | cons c rest =>
      have hc : c ≠ ':' := fun h => hhead (by rw [h]; rfl)
      rw [cut]
      rintro _ rest' heq
      cases heq
      exact hc rfl

theorem cut_word {word : List Char} (hword : ':' ∉ word) (rest : List Char) :
    cut (word ++ rest) = (word ++ (cut rest).1, (cut rest).2) := by
  induction word with
  | nil => rfl
  | cons c word ih =>
      have hc : c ≠ ':' := fun h => hword (by simp [h])
      rw [List.cons_append, cut]
      · rw [ih fun h => hword (by simp [h])]
        rfl
      · intro rest' heq
        exact absurd heq hc

theorem joined_head {group : ℕ} (groups : List ℕ) (h : group < 65536) (rest : List Char) :
    joined (group :: groups) ++ rest ≠ [] ∧ (joined (group :: groups) ++ rest).head? ≠ some ':' := by
  have hword := (hexGroup_plain h).1
  have hfront : ∃ tail, joined (group :: groups) = hexGroup group ++ tail := by
    cases groups with
    | nil => exact ⟨[], by simp [joined, List.intercalate]⟩
    | cons next groups => exact ⟨_, joined_cons group next groups⟩
  obtain ⟨tail, htail⟩ := hfront
  cases hgroup : hexGroup group with
  | nil => exact absurd hgroup (hexGroup_ne_nil group)
  | cons c word =>
      rw [hgroup] at hword htail
      rw [htail]
      refine ⟨by simp, fun hhead => hword ?_⟩
      simp only [List.cons_append, List.head?_cons, Option.some.injEq] at hhead
      simp [hhead]

/-- Groups are passed over up to the double colon behind them, if there is one. -/
theorem cut_joined {groups : List ℕ} (h : ∀ g ∈ groups, g < 65536) (rest : List Char)
    (hrest : (cut rest).1 = []) :
    cut (joined groups ++ rest) = (joined groups, (cut rest).2) := by
  induction groups with
  | nil =>
      show cut rest = ([], (cut rest).2)
      rw [← hrest]
  | cons group groups ih =>
      have hword := (hexGroup_plain (h group (by simp))).1
      cases groups with
      | nil => simp [joined, List.intercalate, cut_word hword, hrest]
      | cons next groups =>
          obtain ⟨hne, hhead⟩ := joined_head groups (h next (by simp)) rest
          have hrec := ih fun g hg => h g (by simp [hg])
          rw [joined_cons, List.append_assoc, cut_word hword, List.cons_append,
            cut_colon hne hhead, hrec]

theorem longestRun_zeros (groups : List ℕ) :
    (groups.drop (longestRun groups).1).take (longestRun groups).2 =
        List.replicate (longestRun groups).2 0 ∧
      (longestRun groups).1 + (longestRun groups).2 ≤ groups.length := by
  have hzeros (l : List ℕ) : l.take (l.takeWhile (· = 0)).length =
      List.replicate (l.takeWhile (· = 0)).length 0 := by
    rw [← List.prefix_iff_eq_take.mp (List.takeWhile_prefix _)]
    exact List.eq_replicate_of_mem fun x hx => by simpa using List.mem_takeWhile_imp hx
  have hfold (starts : List ℕ) (best : ℕ × ℕ) (hstarts : ∀ s ∈ starts, s ≤ groups.length)
      (hbest : (groups.drop best.1).take best.2 = List.replicate best.2 0 ∧
        best.1 + best.2 ≤ groups.length) :
      let run := starts.foldl (fun best start =>
        let run := ((groups.drop start).takeWhile (· = 0)).length
        if best.2 < run then (start, run) else best) best
      (groups.drop run.1).take run.2 = List.replicate run.2 0 ∧
        run.1 + run.2 ≤ groups.length := by
    induction starts generalizing best with
    | nil => exact hbest
    | cons start starts ih =>
        apply ih _ fun s hs => hstarts s (by simp [hs])
        simp only
        split_ifs
        · have hlength := (List.takeWhile_prefix (· = 0) (l := groups.drop start)).length_le
          have hstart := hstarts start (by simp)
          rw [List.length_drop] at hlength
          exact ⟨hzeros _, by simp only; omega⟩
        · exact hbest
  exact hfold _ (0, 0) (fun s hs => Nat.le_of_lt (List.mem_range.mp hs)) ⟨rfl, by simp⟩

/-- Eight groups are read back from their text. -/
theorem readV6Groups_textGroups {groups : List ℕ} (h : ∀ g ∈ groups, g < 65536)
    (hlength : groups.length = 8) : readV6Groups (textGroups groups) = some groups := by
  have hsub {part : List ℕ} (hpart : ∀ g ∈ part, g ∈ groups) : ∀ g ∈ part, g < 65536 :=
    fun g hg => h g (hpart g hg)
  simp only [textGroups]
  split_ifs with hshort
  · have hplain : embedded (joined groups) = some (joined groups) :=
      if_neg fun hmem => (mem_joined h hmem).1 rfl
    have hcut := cut_joined h [] rfl
    rw [List.append_nil] at hcut
    simp only [readV6Groups, hplain, Option.bind_eq_bind, Option.bind_some, hcut, cut,
      readGroups_joined h, hlength, if_true]
  · obtain ⟨hzeros, hend⟩ := longestRun_zeros groups
    set start := (longestRun groups).1
    set run := (longestRun groups).2
    have hhigh := hsub fun g hg => List.mem_of_mem_take (i := start) hg
    have hlow := hsub fun g hg => List.mem_of_mem_drop (i := start + run) hg
    have hcut := cut_joined hhigh (':' :: ':' :: joined (groups.drop (start + run))) (by rw [cut])
    rw [cut] at hcut
    have hplain : embedded
        (joined (groups.take start) ++ ':' :: ':' :: joined (groups.drop (start + run))) =
        some (joined (groups.take start) ++ ':' :: ':' :: joined (groups.drop (start + run))) := by
      refine if_neg fun hmem => ?_
      simp only [List.mem_append, List.mem_cons] at hmem
      rcases hmem with hmem | hmem | hmem | hmem
      · exact (mem_joined hhigh hmem).1 rfl
      · exact absurd hmem (by decide)
      · exact absurd hmem (by decide)
      · exact (mem_joined hlow hmem).1 rfl
    have hmissing : 8 - ((groups.take start).length + (groups.drop (start + run)).length) = run := by
      rw [List.length_take, List.length_drop]
      omega
    have hfew : (groups.take start).length + (groups.drop (start + run)).length ≤ 7 := by omega
    have hwhole : groups.take start ++ List.replicate run 0 ++ groups.drop (start + run) = groups := by
      rw [← hzeros, List.append_assoc, ← List.drop_drop, List.take_append_drop,
        List.take_append_drop]
    simp only [readV6Groups, hplain, Option.bind_eq_bind, Option.bind_some, hcut,
      readGroups_joined hhigh, readGroups_joined hlow, hfew, if_true, hmissing, hwhole]

/-! ### Addresses -/

def groupsOf (value : ℕ) : List ℕ := (List.range 8).map fun i => value / 65536 ^ (7 - i) % 65536

def valueOf (groups : List ℕ) : ℕ := groups.foldl (fun value group => value * 65536 + group) 0

theorem groupsOf_lt (value : ℕ) : ∀ g ∈ groupsOf value, g < 65536 := by
  intro g hg
  obtain ⟨i, -, rfl⟩ := List.mem_map.mp hg
  exact Nat.mod_lt _ (by decide)

theorem valueOf_groupsOf {value : ℕ} (h : value < 2 ^ 128) : valueOf (groupsOf value) = value := by
  have hstep (k : ℕ) : value / 65536 ^ (k + 1) * 65536 + value / 65536 ^ k % 65536 =
      value / 65536 ^ k := by
    rw [pow_succ, ← Nat.div_div_eq_div_mul]
    omega
  have htop : value / 65536 ^ 8 = 0 := Nat.div_eq_of_lt (by simpa using h)
  have hrun (k : ℕ) (hk : k ≤ 8) : ((List.range k).map fun i => value / 65536 ^ (7 - i) % 65536).foldl
      (fun value group => value * 65536 + group) 0 = value / 65536 ^ (8 - k) := by
    induction k with
    | zero => exact htop.symm
    | succ k ih =>
        have hexp : 8 - k = (7 - k) + 1 := by omega
        rw [List.range_succ, List.map_append, List.foldl_append, ih (by omega), hexp]
        exact (hstep (7 - k)).trans (by rw [show 8 - (k + 1) = 7 - k by omega])
  exact (hrun 8 (le_refl 8)).trans (by simp)

def readV6 (text : List Char) : Option (Fin (2 ^ 128)) := do
  let groups ← readV6Groups text
  if h : valueOf groups < 2 ^ 128 then some ⟨valueOf groups, h⟩ else none

/-- What stands before the first percent sign and what stands behind it. -/
def splitZone (text : List Char) : List Char × Option (List Char) :=
  match text.dropWhile (· ≠ '%') with
  | [] => (text, none)
  | _ :: zone => (text.takeWhile (· ≠ '%'), some zone)

def readZone : Option (List Char) → Option (Option Zone)
  | none => some none
  | some text =>
    if h : text ≠ [] ∧ '%' ∉ text ∧ '/' ∉ text then some (some ⟨text, h.1, h.2⟩) else none

/-- `ip_address`, on the characters of its argument. -/
def readAddress (text : List Char) : Option Address :=
  match readV4 text with
  | some value => if h : value < 2 ^ 32 then some (.v4 ⟨value, h⟩) else none
  | none => do
    let (address, zone) := splitZone text
    let zone ← readZone zone
    let value ← readV6 address
    return .v6 value zone

def Address.chars : Address → List Char
  | .v4 value => textV4 value
  | .v6 value none => textGroups (groupsOf value)
  | .v6 value (some zone) => textGroups (groupsOf value) ++ '%' :: zone.text

def ipAddress (text : String) : Option Address := readAddress text.toList

def Address.str (address : Address) : String := String.ofList address.chars

theorem readV6_textGroups (value : Fin (2 ^ 128)) :
    readV6 (textGroups (groupsOf value)) = some value := by
  have hlength : (groupsOf value).length = 8 := by simp [groupsOf]
  have hvalue : valueOf (groupsOf value) = value := valueOf_groupsOf value.isLt
  have hlt : valueOf (groupsOf value) < 2 ^ 128 := by
    rw [hvalue]
    exact value.isLt
  have hbound {groups : List ℕ} (h : valueOf groups < 2 ^ 128) :
      (if h : valueOf groups < 2 ^ 128 then some (⟨valueOf groups, h⟩ : Fin (2 ^ 128)) else none) =
        some ⟨valueOf groups, h⟩ := dif_pos h
  rw [readV6, readV6Groups_textGroups (groupsOf_lt value) hlength, Option.bind_eq_bind,
    Option.bind_some, hbound hlt]
  exact congrArg some (Fin.ext hvalue)

theorem textGroups_plain (value : ℕ) : '%' ∉ textGroups (groupsOf value) := by
  have hlt := groupsOf_lt value
  simp only [textGroups]
  split_ifs
  · exact fun hmem => (mem_joined hlt hmem).2 rfl
  · intro hmem
    simp only [List.mem_append, List.mem_cons] at hmem
    rcases hmem with hmem | hmem | hmem | hmem
    · exact (mem_joined (fun g hg => hlt g (List.mem_of_mem_take hg)) hmem).2 rfl
    · exact absurd hmem (by decide)
    · exact absurd hmem (by decide)
    · exact (mem_joined (fun g hg => hlt g (List.mem_of_mem_drop hg)) hmem).2 rfl

theorem colon_mem_joined {groups : List ℕ} (h : 2 ≤ groups.length) : ':' ∈ joined groups := by
  match groups, h with
  | group :: next :: groups, _ => simp [joined_cons]

theorem colon_mem_textGroups (value : ℕ) : ':' ∈ textGroups (groupsOf value) := by
  simp only [textGroups]
  split_ifs
  · exact colon_mem_joined (by simp [groupsOf])
  · simp

theorem readV4_colon {text : List Char} (h : ':' ∈ text) : readV4 text = none := by
  cases hread : readV4 text with
  | none => rfl
  | some value =>
      rcases (readV4_some hread).1 ':' h with hdigit | hpoint
      · exact absurd hdigit (by decide)
      · exact absurd hpoint (by decide)

theorem splitZone_plain {text : List Char} (h : '%' ∉ text) : splitZone text = (text, none) := by
  have hdrop : text.dropWhile (· ≠ '%') = [] := by
    rw [List.dropWhile_eq_nil_iff]
    intro c hc
    have hne : c ≠ '%' := fun heq => h (heq ▸ hc)
    simpa using hne
  rw [splitZone, hdrop]

theorem splitZone_zone {text : List Char} (h : '%' ∉ text) (zone : List Char) :
    splitZone (text ++ '%' :: zone) = (text, some zone) := by
  have hall : ∀ c ∈ text, decide (c ≠ '%') = true := by
    intro c hc
    have hne : c ≠ '%' := fun heq => h (heq ▸ hc)
    simpa using hne
  rw [splitZone, List.dropWhile_append_of_pos hall, List.takeWhile_append_of_pos hall]
  simp

/-- Every address is read back from its text. -/
theorem ipAddress_str (address : Address) : ipAddress address.str = some address := by
  rw [ipAddress, Address.str, String.toList_ofList]
  cases address with
  | v4 value => simp [readAddress, Address.chars, readV4_textV4 value.isLt]
  | v6 value zone =>
      have hcolon := colon_mem_textGroups value
      have hplain := textGroups_plain value
      cases zone with
      | none =>
          simp [readAddress, Address.chars, readV4_colon hcolon, splitZone_plain hplain, readZone,
            readV6_textGroups]
      | some zone =>
          have hmem : ':' ∈ textGroups (groupsOf value) ++ '%' :: zone.text :=
            List.mem_append_left _ hcolon
          simp [readAddress, Address.chars, readV4_colon hmem, splitZone_zone hplain, readZone,
            readV6_textGroups, zone.ne_nil, zone.plain]

theorem str_injective : Function.Injective Address.str := by
  intro a b h
  have hread := ipAddress_str a
  rw [h, ipAddress_str b] at hread
  exact (Option.some.inj hread).symm

/-! ### Networks -/

/-- The addresses that agree with one in their leading bits. -/
inductive Network where
  | v4 (value : Fin (2 ^ 32)) (length : Fin 33)
  | v6 (value : Fin (2 ^ 128)) (length : Fin 129)
  deriving DecidableEq

def Network.contains : Network → Address → Bool
  | .v4 network length, .v4 value =>
    value.val / 2 ^ (32 - length.val) == network.val / 2 ^ (32 - length.val)
  | .v6 network length, .v6 value _ =>
    value.val / 2 ^ (128 - length.val) == network.val / 2 ^ (128 - length.val)
  | _, _ => false

/-- 127.0.0.0/8 and ::1. -/
def Address.isLoopback : Address → Bool
  | .v4 value => value.val / 2 ^ 24 == 127
  | .v6 value _ => value.val == 1

end IpAddress

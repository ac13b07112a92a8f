import Mathlib.Data.Bool.AllAny
import MachineDeck.HexDigits
import MachineDeck.IpAddress

/-!
# Splitting URLs

`urllib.parse.urlsplit` and what it reads off the network location.

* `CaseTables` — what Unicode says of characters outside ASCII;
* `SplitResult`, `urlsplit` — scheme, network location, path, query and fragment;
* `SplitResult.hostname`, `.port`, `.username`, `.password`;
* `urlsplit_web`, `urlsplit_pieces` — what the address of a web page splits into.

`none` stands for a `ValueError`.
-/

namespace UrlSplit

/-- The lower case of a text, and its compatibility composition. -/
structure CaseTables where
  lower : List Char → List Char
  nfkc : List Char → List Char

structure SplitResult where
  scheme : List Char
  netloc : List Char
  path : List Char
  query : List Char
  fragment : List Char
  deriving DecidableEq, Repr

/-- The text before the first of the given characters and the text from it on. -/
def cutAt (stop : Char → Bool) (text : List Char) : List Char × List Char :=
  (text.takeWhile fun c => !stop c, text.dropWhile fun c => !stop c)

/-- The text before the first separator and the text behind it, if it occurs. -/
def partition (separator : Char) (text : List Char) : List Char × Option (List Char) :=
  match cutAt (· == separator) text with
  | (front, []) => (front, none)
  | (front, _ :: back) => (front, some back)

/-- The text before the last separator, if it occurs, and the text behind it. -/
def rpartition (separator : Char) (text : List Char) : Option (List Char) × List Char :=
  match cutAt (· == separator) text.reverse with
  | (back, []) => (none, back.reverse)
  | (back, _ :: front) => (some front.reverse, back.reverse)

def isAscii (text : List Char) : Bool := text.all fun c => decide (c.toNat < 128)

def schemeChar (c : Char) : Bool := c.isAlphanum || c == '+' || c == '-' || c == '.'

/-- The scheme in front of the first colon, and what follows it. -/
def splitScheme (url : List Char) : List Char × List Char :=
  match partition ':' url with
  | (scheme, some rest) =>
    if (scheme.head?.any Char.isAlpha) && scheme.all schemeChar then
      (scheme.map Char.toLower, rest)
    else ([], url)
  | (_, none) => ([], url)

/-- An IPv6 address or an address of a future version. -/
def bracketedHost (host : List Char) : Bool :=
  match host with
  | 'v' :: rest =>
    match partition '.' rest with
    | (version, some tail) =>
      !version.isEmpty && version.all (fun c => (HexDigits.hexValue c).isSome) &&
        !tail.isEmpty && !tail.contains '\n'
    | (_, none) => false
  | host =>
    match IpAddress.readAddress host with
    | some (.v6 _ _) => true
    | _ => false

/-- Brackets come in pairs around such a host. -/
def bracketsOk (netloc : List Char) : Bool :=
  if netloc.contains '[' != netloc.contains ']' then false
  else if netloc.contains '[' then
    bracketedHost (partition ']' ((partition '[' netloc).2.getD [])).1
  else true

/-- No character of the network location turns into a delimiter. -/
def composedOk (tables : CaseTables) (netloc : List Char) : Bool :=
  if netloc.isEmpty || isAscii netloc then true
  else
    let plain := netloc.filter fun c => !"@:#?".toList.contains c
    let composed := tables.nfkc plain
    composed == plain || composed.all fun c => !"/?#@:".toList.contains c

def urlsplit (tables : CaseTables) (url : List Char) : Option SplitResult :=
  let url := url.dropWhile fun c => decide (c.toNat ≤ 32)
  let url := url.filter fun c => !"\t\r\n".toList.contains c
  let (scheme, rest) := splitScheme url
  let (netloc, rest) :=
    match rest with
    | '/' :: '/' :: rest => cutAt "/?#".toList.contains rest
    | rest => ([], rest)
  if !bracketsOk netloc then none
  else
    let (rest, fragment) := partition '#' rest
    let (path, query) := partition '?' rest
    if !composedOk tables netloc then none
    else some ⟨scheme, netloc, path, query.getD [], fragment.getD []⟩

/-! ### The network location -/

/-- Host and port, still as texts. -/
def SplitResult.hostinfo (r : SplitResult) : List Char × Option (List Char) :=
  let hostinfo := (rpartition '@' r.netloc).2
  let (host, port) :=
    match partition '[' hostinfo with
    | (_, some bracketed) =>
      let (host, rest) := partition ']' bracketed
      (host, (partition ':' (rest.getD [])).2)
    | (_, none) => partition ':' hostinfo
  (host, port.filter (· ≠ []))

/-- The zone of an address keeps its case. -/
def SplitResult.hostname (tables : CaseTables) (r : SplitResult) : Option (List Char) :=
  let host := r.hostinfo.1
  if host = [] then none
  else
    match partition '%' host with
    | (host, some zone) => some (tables.lower host ++ '%' :: zone)
    | (host, none) => some (tables.lower host)

/-- No port is `some none`. -/
def SplitResult.port (r : SplitResult) : Option (Option ℕ) :=
  match r.hostinfo.2 with
  | none => some none
  | some port =>
    if port.all Char.isDigit then
      let value := port.foldl (fun value c => value * 10 + (c.toNat - 48)) 0
      if value ≤ 65535 then some (some value) else none
    else none

def SplitResult.username (r : SplitResult) : Option (List Char) :=
  (rpartition '@' r.netloc).1.map fun userinfo => (partition ':' userinfo).1

def SplitResult.password (r : SplitResult) : Option (List Char) :=
  (rpartition '@' r.netloc).1.bind fun userinfo => (partition ':' userinfo).2

/-! ### URLs of a known scheme -/

theorem cutAt_append {stop : Char → Bool} {front : List Char} (h : ∀ c ∈ front, stop c = false)
    {c : Char} (hc : stop c = true) (rest : List Char) :
    cutAt stop (front ++ c :: rest) = (front, c :: rest) := by
  have hall : ∀ d ∈ front, (!stop d) = true := fun d hd => by rw [h d hd]; rfl
  rw [cutAt, List.takeWhile_append_of_pos hall, List.dropWhile_append_of_pos hall,
    List.takeWhile_cons_of_neg (by simp [hc]), List.dropWhile_cons_of_neg (by simp [hc]),
    List.append_nil]

theorem cutAt_fst_append_snd (stop : Char → Bool) (text : List Char) :
    (cutAt stop text).1 ++ (cutAt stop text).2 = text :=
  List.takeWhile_append_dropWhile

theorem partition_append {separator : Char} {front : List Char} (h : separator ∉ front)
    (rest : List Char) : partition separator (front ++ separator :: rest) = (front, some rest) := by
  have hfront : ∀ c ∈ front, (c == separator) = false := by
    intro c hc
    rw [beq_eq_false_iff_ne]
    rintro rfl
    exact h hc
  rw [partition, cutAt_append hfront (beq_self_eq_true separator)]

theorem rpartition_absent {separator : Char} {text : List Char} (h : separator ∉ text) :
    rpartition separator text = (none, text) := by
  have hall : ∀ c ∈ text.reverse, (!(c == separator)) = true := by
    intro c hc
    rw [Bool.not_eq_true', beq_eq_false_iff_ne]
    rintro rfl
    exact h (List.mem_reverse.mp hc)
  rw [rpartition, cutAt, List.takeWhile_eq_self_iff.mpr hall, List.dropWhile_eq_nil_iff.mpr hall]
  exact congrArg (Prod.mk none) (List.reverse_reverse text)

/-- A text behind its sign. -/
def signed (sign : Char) : Option (List Char) → List Char
  | none => []
  | some text => sign :: text

/-- A text that counts as absent where it is empty. -/
def filled (text : List Char) : Option (List Char) := if text = [] then none else some text

theorem partition_signed {sign : Char} {front : List Char} (h : sign ∉ front)
    (behind : Option (List Char)) : partition sign (front ++ signed sign behind) = (front, behind) := by
  cases behind with
  | some behind => exact partition_append h behind
  | none =>
    have hall : ∀ c ∈ front, (!(c == sign)) = true := by
      intro c hc
      rw [Bool.not_eq_true', beq_eq_false_iff_ne]
      rintro rfl
      exact h hc
    rw [signed, List.append_nil, partition, cutAt, List.takeWhile_eq_self_iff.mpr hall,
      List.dropWhile_eq_nil_iff.mpr hall]

theorem signed_partition (sign : Char) (text : List Char) :
    (partition sign text).1 ++ signed sign (partition sign text).2 = text ∧
      sign ∉ (partition sign text).1 := by
  have hfront : sign ∉ text.takeWhile fun c => !(c == sign) := by
    intro hmem
    have hne := List.mem_takeWhile_imp hmem
    rw [beq_self_eq_true] at hne
    cases hne
  have happend := cutAt_fst_append_snd (· == sign) text
  have hback : ∀ c ∈ (cutAt (· == sign) text).2.head?, (c == sign) = true := by
    intro c hc
    cases hrest : text.dropWhile fun c => !(c == sign) with
    | nil =>
      rw [cutAt, hrest] at hc
      cases hc
    | cons d rest =>
      have hne : (text.dropWhile fun c => !(c == sign)) ≠ [] := by
        rw [hrest]
        exact List.cons_ne_nil d rest
      have hhead := List.head_dropWhile_not (fun c => !(c == sign)) hne
      simp only [hrest, List.head_cons, Bool.not_eq_false'] at hhead
      rw [cutAt, hrest, List.head?_cons, Option.mem_some_iff] at hc
      rw [← hc]
      exact hhead
  rw [partition]
  generalize hcut : cutAt (· == sign) text = cut at happend hback
  obtain ⟨front, back⟩ := cut
  have hsame : front = text.takeWhile fun c => !(c == sign) := (congrArg Prod.fst hcut).symm
  cases back with
  | nil => exact ⟨happend, hsame ▸ hfront⟩
  | cons c back =>
    have hc := beq_iff_eq.mp (hback c rfl)
    subst hc
    exact ⟨happend, hsame ▸ hfront⟩

/-- What is in front of a separator begins as the text does. -/
theorem partition_fst_head (separator : Char) (text : List Char) :
    (partition separator text).1 = [] ∨ (partition separator text).1.head? = text.head? := by
  have htext := (signed_partition separator text).1
  cases hfront : (partition separator text).1 with
  | nil => exact .inl rfl
  | cons c front =>
    rw [hfront] at htext
    refine .inr ?_
    rw [← htext]
    rfl

/-- A path between a network location and a query is empty or begins with a slash. -/
theorem path_rooted {rest : List Char}
    (h : ∀ c ∈ rest.head?, "/?#".toList.contains c = true) :
    (partition '?' (partition '#' rest).1).1 = [] ∨
      (partition '?' (partition '#' rest).1).1.head? = some '/' := by
  have hquery := (signed_partition '?' (partition '#' rest).1).2
  have hfragment := (signed_partition '#' rest).2
  cases partition_fst_head '?' (partition '#' rest).1 with
  | inl hempty => exact .inl hempty
  | inr hfront =>
    cases partition_fst_head '#' rest with
    | inl hempty =>
      rw [hempty]
      exact .inl rfl
    | inr hrest =>
      generalize partition '#' rest = cut at hquery hfragment hfront hrest
      obtain ⟨front, fragment⟩ := cut
      cases hpath : (partition '?' front).1 with
      | nil => exact .inl rfl
      | cons c path =>
        rw [hpath] at hquery hfront
        rw [← hrest, ← hfront] at h
        have hc : "/?#".toList.contains c = true := h c rfl
        have hcases : ∀ c ∈ "/?#".toList, c = '/' ∨ c = '?' ∨ c = '#' :=
          List.all_iff_forall_prop.mp (by decide)
        rcases hcases c (List.contains_iff_mem.mp hc) with rfl | rfl | rfl
        · exact .inr rfl
        · exact absurd List.mem_cons_self hquery
        · exact absurd (List.mem_of_mem_head? hfront.symm) hfragment

/-! ### Paths -/

theorem splitScheme_rooted (rest : List Char) : splitScheme ('/' :: rest) = ([], '/' :: rest) := by
  have hhead := partition_fst_head ':' ('/' :: rest)
  have hno : (partition ':' ('/' :: rest)).1.head?.any Char.isAlpha = false := by
    rcases hhead with h | h
    · rw [h]
      rfl
    · rw [h]
      rfl
  rw [splitScheme]
  generalize partition ':' ('/' :: rest) = cut at hno
  obtain ⟨scheme, behind⟩ := cut
  simp only at hno
  cases behind with
  | none => rfl
  | some behind => simp only [hno, Bool.false_and, Bool.false_eq_true, if_false]

/-- The path of a rooted text is rooted or empty. -/
theorem urlsplit_rooted {tables : CaseTables} {text : List Char} {parsed : SplitResult}
    (hroot : text.head? = some '/') (h : urlsplit tables text = some parsed) : parsed.path = [] ∨ parsed.path.head? = some '/' := by
  cases text with
  | nil => cases hroot
  | cons c text =>
    cases hroot
    have hdrop : ('/' :: text).dropWhile (fun c => decide (c.toNat ≤ 32)) = '/' :: text := rfl
    have hfilter : ('/' :: text).filter (fun c => !"\t\r\n".toList.contains c) =
      '/' :: text.filter (fun c => !"\t\r\n".toList.contains c) := rfl
    rw [urlsplit] at h
    simp only [hdrop, hfilter, splitScheme_rooted] at h
    generalize text.filter (fun c => !"\t\r\n".toList.contains c) = clean at h
    obtain ⟨-, h⟩ := Option.ite_none_left_eq_some.mp h
    obtain ⟨-, h⟩ := Option.ite_none_left_eq_some.mp h
    rw [← Option.some.inj h]
    refine path_rooted fun c hc => ?_
    split at hc
    · next rest _ =>
      have hstop := List.head?_dropWhile_not (fun c => !"/?#".toList.contains c) rest
      rw [cutAt, Option.mem_def] at hc
      simp only [hc, Bool.not_eq_false'] at hstop
      exact hstop
    · cases hc
      decide

/-- The two schemes of web pages. -/
def webSchemes : List (List Char) := ["http".toList, "https".toList]

/-- What a web address splits into. -/
theorem urlsplit_web {scheme : List Char} (hscheme : scheme ∈ webSchemes) {tail : List Char}
    (htail : ∀ c ∈ tail, "\t\r\n".toList.contains c = false) (tables : CaseTables) :
    urlsplit tables (scheme ++ "://".toList ++ tail) =
      let cut := cutAt "/?#".toList.contains tail
      let (front, fragment) := partition '#' cut.2
      let (path, query) := partition '?' front
      if bracketsOk cut.1 && composedOk tables cut.1 then
        some ⟨scheme, cut.1, path, query.getD [], fragment.getD []⟩
      else none := by
  have hkept : tail.filter (fun c => !"\t\r\n".toList.contains c) = tail := by
    rw [List.filter_eq_self]
    intro c hc
    rw [htail c hc]
    rfl
  have hweb : ∀ scheme ∈ webSchemes, ':' ∉ scheme ∧ (scheme.head?.any Char.isAlpha) = true ∧
      scheme.all schemeChar = true ∧ scheme.map Char.toLower = scheme ∧
      (scheme.head?.any fun c => decide (c.toNat ≤ 32)) = false ∧
      (scheme ++ "://".toList).filter (fun c => !"\t\r\n".toList.contains c) =
        scheme ++ "://".toList := by decide
  obtain ⟨hcolon, halpha, hchars, hlower, hlead, hclean⟩ := hweb scheme hscheme
  have hsplit : splitScheme (scheme ++ "://".toList ++ tail) = (scheme, '/' :: '/' :: tail) := by
    have happend : scheme ++ "://".toList ++ tail = scheme ++ ':' :: '/' :: '/' :: tail := by
      rw [List.append_assoc]
      rfl
    rw [splitScheme, happend, partition_append hcolon]
    simp only [halpha, hchars, Bool.and_self, if_true, hlower]
  have hdrop : (scheme ++ "://".toList ++ tail).dropWhile (fun c => decide (c.toNat ≤ 32)) =
      scheme ++ "://".toList ++ tail := by
    cases scheme with
    | nil => cases halpha
    | cons c scheme =>
      have hc : ¬ decide (c.toNat ≤ 32) = true := by
        rw [Bool.not_eq_true]
        exact hlead
      exact List.dropWhile_cons_of_neg hc
  have hfilter : (scheme ++ "://".toList ++ tail).filter (fun c => !"\t\r\n".toList.contains c) =
      scheme ++ "://".toList ++ tail := by rw [List.filter_append, hclean, hkept]
  rw [urlsplit]
  simp only [hdrop, hfilter, hsplit]
  cases hbrackets : bracketsOk (cutAt "/?#".toList.contains tail).1 with
  | false => rfl
  | true =>
    cases hcomposed : composedOk tables (cutAt "/?#".toList.contains tail).1 with
    | false => rfl
    | true => rfl

/-- The pieces of a web address, each with its sign in front, are what it splits into. -/
theorem urlsplit_pieces {scheme : List Char} (hscheme : scheme ∈ webSchemes) {tail : List Char}
    (htail : ∀ c ∈ tail, "\t\r\n".toList.contains c = false) :
    ∃ netloc path query fragment,
      scheme ++ "://".toList ++ tail =
        scheme ++ "://".toList ++ netloc ++ path ++ signed '?' query ++ signed '#' fragment ∧
      (path = [] ∨ path.head? = some '/') ∧ '?' ∉ scheme ++ "://".toList ++ netloc ++ path ∧
      '#' ∉ scheme ++ "://".toList ++ netloc ++ path ++ signed '?' query ∧
      ∀ tables, urlsplit tables (scheme ++ "://".toList ++ tail) =
        if bracketsOk netloc && composedOk tables netloc then
          some ⟨scheme, netloc, path, query.getD [], fragment.getD []⟩
        else none := by
  have happend := cutAt_fst_append_snd "/?#".toList.contains tail
  have hnetloc : ∀ c ∈ (cutAt "/?#".toList.contains tail).1, "/?#".toList.contains c = false := by
    intro c hc
    have hkept := List.mem_takeWhile_imp (p := fun c => !"/?#".toList.contains c) (l := tail) hc
    rwa [Bool.not_eq_true'] at hkept
  have hrooted : ∀ c ∈ (cutAt "/?#".toList.contains tail).2.head?,
      "/?#".toList.contains c = true := by
    intro c hc
    have hhead := List.head?_dropWhile_not (fun c => !"/?#".toList.contains c) tail
    rw [cutAt, Option.mem_def] at hc
    simp only [hc, Bool.not_eq_false'] at hhead
    exact hhead
  have hsplit (tables : CaseTables) := urlsplit_web hscheme htail tables
  generalize cutAt "/?#".toList.contains tail = cut at happend hnetloc hrooted hsplit
  obtain ⟨netloc, rest⟩ := cut
  have hfragment := signed_partition '#' rest
  simp only at hsplit happend hnetloc hrooted
  have hpath := path_rooted hrooted
  generalize partition '#' rest = cut at hfragment hsplit hpath
  obtain ⟨front, fragment⟩ := cut
  have hquery := signed_partition '?' front
  simp only at hsplit hfragment hpath
  generalize partition '?' front = cut at hquery hsplit hpath
  obtain ⟨path, query⟩ := cut
  simp only at hsplit hquery hpath
  have hsign {sign : Char} (hstop : "/?#".toList.contains sign = true)
      (hweb : ∀ scheme ∈ webSchemes, sign ∉ scheme ++ "://".toList) :
      sign ∉ scheme ++ "://".toList ++ netloc := by
    intro hmem
    cases List.mem_append.mp hmem with
    | inl h => exact hweb scheme hscheme h
    | inr h =>
      rw [hnetloc sign h] at hstop
      cases hstop
  refine ⟨netloc, path, query, fragment, ?_, hpath, ?_, ?_, hsplit⟩
  · rw [← happend, ← hfragment.1, ← hquery.1]
    simp only [List.append_assoc]
  · intro hmem
    cases List.mem_append.mp hmem with
    | inl h => exact hsign (by decide) (by decide) h
    | inr h => exact hquery.2 h
  · intro hmem
    rw [List.append_assoc, hquery.1] at hmem
    cases List.mem_append.mp hmem with
    | inl h => exact hsign (by decide) (by decide) h
    | inr h => exact hfragment.2 h

end UrlSplit

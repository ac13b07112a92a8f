import MachineDeck.LineText
import MachineDeck.UrlEncoding

/-!
# Hosts and ports in URLs

A web address whose host and port are written out, and what it is split into again.

* `HostText` — a host as a URL has it: plain, or in brackets;
* `hostinfo_written`, `port_written`, `username_written` — what the network location is read as;
* `urlsplit_written` — what the address is split into.
-/

namespace UrlSplit

/-- A character of a host without brackets. -/
def hostChar (c : Char) : Bool := c.isAlphanum || c == '-' || c == '.'

/-- A character of an IPv6 address. -/
def v6Char (c : Char) : Bool := (HexDigits.hexValue c).isSome || c == ':' || c == '.'

/-- A host as it is written, and the name or address that is meant. -/
inductive HostText : List Char → List Char → Prop
  | plain {host : List Char} (hchars : ∀ c ∈ host, hostChar c = true) : HostText host host
  | bracketed {host : List Char} {value : Fin (2 ^ 128)} (hchars : ∀ c ∈ host, v6Char c = true)
      (hread : IpAddress.readAddress host = some (.v6 value none)) :
      HostText ('[' :: host ++ [']']) host

/-! ### Characters -/

theorem hexValue_ascii {c : Char} (h : (HexDigits.hexValue c).isSome = true) : c.toNat < 0x80 := by
  rw [HexDigits.hexValue] at h
  split_ifs at h with hdigit hlower hupper
  · exact UrlQuery.isAlphanum_ascii (by rw [Char.isAlphanum, hdigit, Bool.or_true])
  · exact Nat.lt_of_le_of_lt hlower.2 (by decide)
  · exact Nat.lt_of_le_of_lt hupper.2 (by decide)
  · cases h

theorem host_ascii {c : Char} (h : hostChar c = true ∨ v6Char c = true) : c.toNat < 0x80 := by
  rw [hostChar, v6Char] at h
  simp only [Bool.or_eq_true, beq_iff_eq] at h
  rcases h with ((h | rfl) | rfl) | ((h | rfl) | rfl)
  · exact UrlQuery.isAlphanum_ascii h
  · decide
  · decide
  · exact hexValue_ascii h
  · decide
  · decide

/-- A character outside a set is outside a smaller one. -/
theorem outside {stops stops' : List Char} (hsub : ∀ c ∈ stops', c ∈ stops) {c : Char}
    (h : stops.contains c = false) : stops'.contains c = false := by
  rw [Bool.eq_false_iff, ne_eq, List.contains_iff_mem] at h ⊢
  exact fun hmem => h (hsub c hmem)

/-- An address is written with such characters. -/
theorem textGroups_chars (value : ℕ) :
    ∀ c ∈ IpAddress.textGroups (IpAddress.groupsOf value), v6Char c = true := by
  have hhex : ∀ n < 16, v6Char (HexDigits.hexDigit n) = true := by decide
  have hjoined {groups : List ℕ} (hgroups : ∀ g ∈ groups, g < 65536) :
      ∀ c ∈ IpAddress.joined groups, v6Char c = true := by
    intro c hc
    rcases LineText.mem_intercalate_list hc with hc | ⟨group, hgroup, hc⟩
    · rw [List.mem_singleton.mp hc]
      decide
    · obtain ⟨g, hg, rfl⟩ := List.mem_map.mp hgroup
      obtain ⟨n, hn, rfl⟩ := IpAddress.mem_hexGroup (hgroups g hg) hc
      exact hhex n hn
  have hlt := IpAddress.groupsOf_lt value
  intro c hc
  simp only [IpAddress.textGroups] at hc
  split_ifs at hc
  · exact hjoined hlt c hc
  · simp only [List.mem_append, List.mem_cons] at hc
    rcases hc with hc | rfl | rfl | hc
    · exact hjoined (fun g hg => hlt g (List.mem_of_mem_take hg)) c hc
    · decide
    · decide
    · exact hjoined (fun g hg => hlt g (List.mem_of_mem_drop hg)) c hc

/-- The delimiters of a URL. -/
def delimiters : List Char := "/?#@[]\t\r\n%\\".toList

set_option maxRecDepth 4000 in
theorem host_delimiters_ascii : ∀ n < 0x80,
    (hostChar (Char.ofNat n) || v6Char (Char.ofNat n)) = true →
      delimiters.contains (Char.ofNat n) = false := by decide

theorem host_delimiters {c : Char} (h : hostChar c = true ∨ v6Char c = true) :
    delimiters.contains c = false := by
  have hascii := host_delimiters_ascii c.toNat (host_ascii h)
  rw [Char.ofNat_toNat, Bool.or_eq_true] at hascii
  exact hascii h

set_option maxRecDepth 4000 in
theorem hostChar_colon {c : Char} (h : hostChar c = true) : c ≠ ':' := by
  rintro rfl
  revert h
  decide

theorem digit_hostChar {c : Char} (h : c.isDigit = true) : hostChar c = true := by
  rw [hostChar, Char.isAlphanum, h, Bool.or_true]
  rfl

/-! ### The network location -/

section Written

variable {host bare digits : List Char}

/-- A character that may stand in a host stands for itself. -/
def Plain (c : Char) : Prop := delimiters.contains c = false ∧ c.toNat < 0x80

theorem plain_of_host {c : Char} (h : hostChar c = true ∨ v6Char c = true) : Plain c :=
  ⟨host_delimiters h, host_ascii h⟩

theorem plain_port {c : Char} (hdigits : ∀ c ∈ digits, c.isDigit = true) (hc : c ∈ ':' :: digits) :
    Plain c := by
  cases hc with
  | head => exact ⟨by decide, by decide⟩
  | tail _ hc => exact plain_of_host (.inl (digit_hostChar (hdigits c hc)))

/-- Beside the brackets of the host, the network location has no delimiter. -/
theorem mem_written (h : HostText host bare) (hdigits : ∀ c ∈ digits, c.isDigit = true) {c : Char}
    (hc : c ∈ host ++ ':' :: digits) : Plain c ∨ c = '[' ∨ c = ']' := by
  cases List.mem_append.mp hc with
  | inr hc => exact .inl (plain_port hdigits hc)
  | inl hc =>
    cases h with
    | plain hchars => exact .inl (plain_of_host (.inl (hchars c hc)))
    | bracketed hchars hread =>
      rw [List.mem_append, List.mem_cons, List.mem_singleton] at hc
      rcases hc with (heq | hc) | heq
      · exact .inr (.inl heq)
      · exact .inl (plain_of_host (.inr (hchars c hc)))
      · exact .inr (.inr heq)

theorem not_plain {c : Char} (h : delimiters.contains c = true) : ¬ Plain c := by
  intro hplain
  rw [hplain.1] at h
  cases h

theorem at_not_written (h : HostText host bare) (hdigits : ∀ c ∈ digits, c.isDigit = true) :
    '@' ∉ host ++ ':' :: digits := by
  intro hmem
  rcases mem_written h hdigits hmem with hplain | heq | heq
  · exact not_plain (by decide) hplain
  · cases heq
  · cases heq

/-- A plain host and its port have no brackets. -/
theorem bracket_not_plain (hchars : ∀ c ∈ host, hostChar c = true)
    (hdigits : ∀ c ∈ digits, c.isDigit = true) {c : Char} (hc : delimiters.contains c = true) :
    c ∉ host ++ ':' :: digits := by
  intro hmem
  cases List.mem_append.mp hmem with
  | inl hmem => exact not_plain hc (plain_of_host (.inl (hchars c hmem)))
  | inr hmem => exact not_plain hc (plain_port hdigits hmem)

theorem partition_open (bare digits : List Char) :
    partition '[' ('[' :: bare ++ [']'] ++ ':' :: digits) =
      ([], some (bare ++ ']' :: ':' :: digits)) := by
  have happend : '[' :: bare ++ [']'] ++ ':' :: digits =
    [] ++ '[' :: (bare ++ ']' :: ':' :: digits) := by simp
  rw [happend, partition_append List.not_mem_nil]

theorem close_not_bare (hchars : ∀ c ∈ bare, v6Char c = true) : ']' ∉ bare :=
  fun hmem => not_plain (by decide) (plain_of_host (.inr (hchars _ hmem)))

theorem hostinfo_written {parts : SplitResult} (h : HostText host bare)
    (hdigits : ∀ c ∈ digits, c.isDigit = true) (hsome : digits ≠ [])
    (hnetloc : parts.netloc = host ++ ':' :: digits) : parts.hostinfo = (bare, some digits) := by
  have hfilled : (some digits).filter (· ≠ []) = some digits := by
    rw [Option.filter_some, if_pos (decide_eq_true hsome)]
  rw [SplitResult.hostinfo, hnetloc, rpartition_absent (at_not_written h hdigits)]
  cases h with
  | plain hchars =>
    have hbracket : '[' ∉ host ++ ':' :: digits := bracket_not_plain hchars hdigits (by decide)
    have hcolon : ':' ∉ host := fun hmem => hostChar_colon (hchars _ hmem) rfl
    have hpartition := partition_signed hbracket none
    rw [signed, List.append_nil] at hpartition
    simp only [hpartition, partition_append hcolon, hfilled]
  | bracketed hchars hread =>
    have hport : partition ':' (':' :: digits) = ([], some digits) :=
      partition_append List.not_mem_nil digits
    simp only [partition_open, partition_append (close_not_bare hchars), Option.getD_some, hport,
      hfilled]

theorem port_written {parts : SplitResult} {n : ℕ} (hn : n ≤ 65535)
    (hport : parts.hostinfo.2 = some (toString n).toList) : parts.port = some (some n) := by
  have htext : (toString n).toList = Nat.toDigits 10 n := String.toList_ofList
  have hdigits : (Nat.toDigits 10 n).all Char.isDigit = true :=
    List.all_eq_true.mpr fun c hc => Nat.isDigit_of_mem_toDigits (by decide) (by decide) hc
  have hvalue : (Nat.toDigits 10 n).foldl (fun value c => value * 10 + (c.toNat - 48)) 0 = n := by
    have hread := Nat.ofDigitChars_toDigits (n := n) (b := 10) (by decide) (by decide)
    rw [Nat.ofDigitChars_eq_foldl] at hread
    simp only [Nat.mul_comm 10] at hread
    exact hread
  rw [SplitResult.port, hport, htext]
  simp only [hdigits, hvalue, if_true, if_pos hn]

theorem username_written {parts : SplitResult} (h : HostText host bare)
    (hdigits : ∀ c ∈ digits, c.isDigit = true) (hnetloc : parts.netloc = host ++ ':' :: digits) :
    parts.username = none := by
  rw [SplitResult.username, hnetloc, rpartition_absent (at_not_written h hdigits)]
  rfl

/-! ### The whole address -/

theorem composedOk_ascii (tables : CaseTables) {netloc : List Char}
    (h : ∀ c ∈ netloc, c.toNat < 0x80) : composedOk tables netloc = true := by
  have hascii : isAscii netloc = true :=
    List.all_eq_true.mpr fun c hc => decide_eq_true (h c hc)
  rw [composedOk, hascii, Bool.or_true]
  rfl

theorem bracketsOk_written (h : HostText host bare) (hdigits : ∀ c ∈ digits, c.isDigit = true) :
    bracketsOk (host ++ ':' :: digits) = true := by
  cases h with
  | plain hchars =>
    have hopen : (host ++ ':' :: digits).contains '[' = false :=
      Bool.eq_false_iff.mpr fun hmem =>
        bracket_not_plain hchars hdigits (by decide) (List.contains_iff_mem.mp hmem)
    have hclose : (host ++ ':' :: digits).contains ']' = false :=
      Bool.eq_false_iff.mpr fun hmem =>
        bracket_not_plain hchars hdigits (by decide) (List.contains_iff_mem.mp hmem)
    rw [bracketsOk, hopen, hclose]
    rfl
  | bracketed hchars hread =>
    have hopen : ('[' :: bare ++ [']'] ++ ':' :: digits).contains '[' = true :=
      List.contains_iff_mem.mpr List.mem_cons_self
    have hclose : ('[' :: bare ++ [']'] ++ ':' :: digits).contains ']' = true :=
      List.contains_iff_mem.mpr (List.mem_append_left _ (List.mem_append_right _ List.mem_cons_self))
    have hv6 : bracketedHost bare = true := by
      unfold bracketedHost
      split
      · have hv : v6Char 'v' = true := hchars 'v' List.mem_cons_self
        exact absurd hv (by decide)
      · rw [hread]
    rw [bracketsOk, hopen, hclose, partition_open, Option.getD_some,
      partition_append (close_not_bare hchars), hv6]
    rfl

theorem mem_signed_filled {sign c : Char} {text : List Char} (h : c ∈ signed sign (filled text)) :
    c = sign ∨ c ∈ text := by
  rw [filled] at h
  split_ifs at h with hempty
  · cases h
  · exact List.mem_cons.mp h

theorem getD_filled (text : List Char) : (filled text).getD [] = text := by
  rw [filled]
  split_ifs with hempty
  · exact hempty.symm
  · rfl

/-- A web address with a host, a port, a path and a query is split into these. -/
theorem urlsplit_written (tables : CaseTables) {scheme path query : List Char}
    (hscheme : scheme ∈ webSchemes) (h : HostText host bare)
    (hdigits : ∀ c ∈ digits, c.isDigit = true) (hroot : path.head? = some '/')
    (hpath : ∀ c ∈ path, "?#\t\r\n".toList.contains c = false)
    (hquery : ∀ c ∈ query, "#\t\r\n".toList.contains c = false) :
    urlsplit tables (scheme ++ "://".toList ++
        (host ++ ':' :: digits ++ path ++ signed '?' (filled query))) =
      some ⟨scheme, host ++ ':' :: digits, path, query, []⟩ := by
  -- the brackets of the host are no delimiters of the address
  have hnetloc : ∀ c ∈ host ++ ':' :: digits,
      "/?#".toList.contains c = false ∧ "\t\r\n".toList.contains c = false ∧ c.toNat < 0x80 := by
    intro c hc
    rcases mem_written h hdigits hc with hplain | rfl | rfl
    · exact ⟨outside (List.all_iff_forall_prop.mp (by decide)) hplain.1,
        outside (List.all_iff_forall_prop.mp (by decide)) hplain.1, hplain.2⟩
    · exact ⟨by decide, by decide, by decide⟩
    · exact ⟨by decide, by decide, by decide⟩
  have hkept : ∀ c ∈ host ++ ':' :: digits ++ path ++ signed '?' (filled query),
      "\t\r\n".toList.contains c = false := by
    intro c hc
    rcases List.mem_append.mp hc with hc | hc
    · rcases List.mem_append.mp hc with hc | hc
      · exact (hnetloc c hc).2.1
      · exact outside (List.all_iff_forall_prop.mp (by decide)) (hpath c hc)
    · rcases mem_signed_filled hc with rfl | hc
      · decide
      · exact outside (List.all_iff_forall_prop.mp (by decide)) (hquery c hc)
  have hcut : cutAt "/?#".toList.contains
      (host ++ ':' :: digits ++ path ++ signed '?' (filled query)) =
        (host ++ ':' :: digits, path ++ signed '?' (filled query)) := by
    cases path with
    | nil => cases hroot
    | cons c path =>
      cases hroot
      rw [List.append_assoc]
      exact cutAt_append (fun c hc => (hnetloc c hc).1) (by decide) _
  have hfragment : partition '#' (path ++ signed '?' (filled query)) =
      (path ++ signed '?' (filled query), none) := by
    have hno : '#' ∉ path ++ signed '?' (filled query) := by
      intro hmem
      rcases List.mem_append.mp hmem with hmem | hmem
      · exact absurd (hpath _ hmem) (by decide)
      · rcases mem_signed_filled hmem with heq | hmem
        · cases heq
        · exact absurd (hquery _ hmem) (by decide)
    have hpartition := partition_signed hno none
    rwa [signed, List.append_nil] at hpartition
  have hmark : '?' ∉ path := fun hmem => absurd (hpath _ hmem) (by decide)
  rw [urlsplit_web hscheme hkept tables]
  simp only [hcut, hfragment, partition_signed hmark, bracketsOk_written h hdigits,
    composedOk_ascii tables fun c hc => (hnetloc c hc).2.2, Bool.and_self, if_true]
  rw [getD_filled]
  rfl

end Written

end UrlSplit

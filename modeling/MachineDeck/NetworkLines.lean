import MachineDeck.NetworkTrust
import MachineDeck.Traversals

/-!
# Repeated forwarding headers

A header that comes in several lines means the same as one line with the values joined.  The
context reads the first line of a header, so it keeps to that only as far as the further lines
do not change the outcome.

* `Request.lines`, `joinLines` — the lines of a header, and the request with one line for them;
* `headerChain_eq` — an accepted chain, read off the parts of a line;
* `LinesAgree`, `LinesJoin` — refusal or the same client; when that is so;
* `lines_agree_iff`, `lines_disagree` — exactly then, and not always.
-/

namespace MachineDeck.Auth

open IpAddress (Address Network ipAddress)
open LineText (strip stripBy)

/-- Every line of a header, in order. -/
def Request.lines (request : Request) (name : String) : List String :=
  (request.headers.filter fun line => line.1 == name).map Prod.snd

/-- The request with the lines of a header joined to one. -/
def joinLines (name : String) (request : Request) : Request :=
  { request with
    headers := (name, ", ".intercalate (request.lines name)) ::
      request.headers.filter fun line => !(line.1 == name) }

theorem header_eq_head (request : Request) (name : String) :
    request.header name = (request.lines name).head? := by
  rw [Request.header, Request.lines, List.head?_map, List.head?_filter]

@[simp] theorem header_joinLines_self (name : String) (request : Request) :
    (joinLines name request).header name = some (", ".intercalate (request.lines name)) := by
  simp [Request.header, joinLines]

@[simp] theorem header_joinLines_of_ne {name other : String} (h : other ≠ name)
    (request : Request) : (joinLines name request).header other = request.header other := by
  have hne : (name == other) = false := beq_eq_false_iff_ne.mpr (Ne.symm h)
  rw [Request.header, Request.header, joinLines, List.find?_cons_of_neg (by simp [hne]),
    List.find?_filter]
  congr 2
  funext line
  by_cases heq : line.1 = other
  · simp [heq, h]
  · simp [heq]

/-! ### The parts of a line -/

def partsOf (line : String) : List (List Char) := (line.toList.splitOn ',').map strip

theorem partsOf_ne_nil (line : String) : partsOf line ≠ [] := by
  simp [partsOf, List.splitOn_ne_nil]

theorem elements_eq (line : String) (limit : ℕ) :
    elements line limit =
      if limit < (partsOf line).length ∨ [] ∈ partsOf line then none else some (partsOf line) := by
  have hne : (line.toList.splitOn ',').map strip ≠ [] := partsOf_ne_nil line
  simp only [elements, hne, false_or]
  rfl

theorem strip_blank (text : List Char) : strip (' ' :: text) = strip text := rfl

theorem parts_blank (text : List Char) :
    ((' ' :: text).splitOn ',').map strip = (text.splitOn ',').map strip := by
  rw [List.splitOn_cons_eq_if_modifyHead]
  cases text.splitOn ',' with
  | nil => rfl
  | cons piece pieces => rfl

/-- The parts of joined lines are the parts of the lines. -/
theorem partsOf_join {lines : List String} (hne : lines ≠ []) :
    partsOf (", ".intercalate lines) = lines.flatMap partsOf := by
  rw [partsOf, String.toList_intercalate]
  induction lines with
  | nil => exact absurd rfl hne
  | cons line lines ih =>
      cases lines with
      | nil => simp [partsOf]
      | cons next lines =>
          have hrest := ih (List.cons_ne_nil next lines)
          rw [List.map_cons, List.map_cons, List.intercalate_cons_cons, List.flatMap_cons, ← hrest]
          have hjoin (rest : List Char) : line.toList ++ ", ".toList ++ rest =
              line.toList ++ ',' :: ' ' :: rest := by simp
          rw [hjoin, List.splitOn_append_cons_self, List.map_append, parts_blank]
          rfl

/-! ### The chain -/

/-- What the context takes from a chain besides its hops. -/
def extras (grammar : Grammar) (request : Request) (first : List Char) :
    Option (Option String × Option String) :=
  match grammar with
  | .forwarded => do
    let (_, parameters) ← forwardedElement first
    let proto ← checked (parameter? parameters "proto") fun value =>
      validScheme (lower (unquoted value))
    let host ← checked ((parameter? parameters "host").filter (· ≠ [])) validForwardedHost
    return (proto, host)
  | .xForwardedFor => do
    let proto ← checked ((request.header "x-forwarded-proto").map String.toList) fun value =>
      if ',' ∈ value then none else validScheme (lower (strip value))
    let host ← checked ((request.header "x-forwarded-host").map String.toList) fun value =>
      if ',' ∈ value then none else validForwardedHost value
    return (proto, host)

def present (request : Request) : List String :=
  forwardedHeaders.filter fun name => (request.header name).isSome

/-- The two families of headers are mixed. -/
def mixed (request : Request) : Bool :=
  decide ("forwarded" ∈ present request) && (present request).any (· ≠ "forwarded")

local instance lawfulBEq_parts : LawfulBEq (List Char) := inferInstance

/-- A chain of parts: not too many, none empty, every hop read. -/
def chainOf (grammar : Grammar) (request : Request) (limit : ℕ) (parts : List (List Char)) :
    Option Chain :=
  if limit < parts.length ∨ [] ∈ parts then none
  else do
    let hops ← parts.mapM grammar.hop
    let (proto, host) ← extras grammar request (parts.headD [])
    return ⟨hops, proto, host⟩

theorem forwardedChain_eq (request : Request) (line : String) (limit : ℕ) :
    forwardedChain line limit = chainOf .forwarded request limit (partsOf line) := by
  rw [forwardedChain, elements_eq, chainOf]
  by_cases hshape : limit < (partsOf line).length ∨ [] ∈ partsOf line
  · rw [if_pos hshape, if_pos hshape]
    rfl
  · rw [if_neg hshape, if_neg hshape]
    cases hparts : partsOf line with
    | nil => exact absurd hparts (partsOf_ne_nil line)
    | cons first rest =>
        have hhops : (first :: rest).mapM (Grammar.hop .forwarded) =
            ((first :: rest).mapM forwardedElement).map (List.map Prod.fst) :=
          mapM_map forwardedElement Prod.fst (first :: rest)
        rw [hhops]
        simp only [List.mapM_cons, Option.bind_eq_bind, Option.bind_some, List.headD_cons, extras]
        cases forwardedElement first with
        | none => rfl
        | some parsed =>
            cases rest.mapM forwardedElement with
            | none => rfl
            | some more =>
                obtain ⟨hop, parameters⟩ := parsed
                simp only [Option.bind_some, Option.map_some, List.head?_cons, Option.getD_some,
                  Option.pure_def]
                cases checked (parameter? parameters "proto") fun value =>
                    validScheme (lower (unquoted value)) with
                | none => rfl
                | some proto =>
                    cases checked ((parameter? parameters "host").filter (· ≠ []))
                        validForwardedHost with
                    | none => rfl
                    | some host => rfl

theorem xForwardedChain_eq {request : Request} {line : String}
    (hline : request.header "x-forwarded-for" = some line) (limit : ℕ) :
    xForwardedChain request limit = chainOf .xForwardedFor request limit (partsOf line) := by
  rw [xForwardedChain, hline, chainOf]
  by_cases hempty : line = ""
  · subst hempty
    have hparts : [] ∈ partsOf "" := by decide
    simp [hparts]
  · have hsome : (some line).filter (· ≠ "") = some line := by simp [hempty]
    rw [hsome]
    simp only [Option.bind_eq_bind, Option.bind_some, elements_eq]
    by_cases hshape : limit < (partsOf line).length ∨ [] ∈ partsOf line
    · rw [if_pos hshape, if_pos hshape]
      rfl
    · rw [if_neg hshape, if_neg hshape]
      have hhop : Grammar.hop .xForwardedFor = xForwardedHop := rfl
      simp only [Option.bind_some, extras, hhop]
      cases (partsOf line).mapM xForwardedHop with
      | none => rfl
      | some hops =>
          cases checked ((request.header "x-forwarded-proto").map String.toList) fun value =>
              if ',' ∈ value then none else validScheme (lower (strip value)) with
          | none => rfl
          | some proto =>
              cases checked ((request.header "x-forwarded-host").map String.toList) fun value =>
                  if ',' ∈ value then none else validForwardedHost value with
              | none => rfl
              | some host => rfl

/-- The chain of a request is read off the first line of its header. -/
theorem headerChain_eq {grammar : Grammar} {settings : NetworkSettings} {request : Request}
    {line : String} (hline : request.header grammar.header = some line) :
    headerChain settings request (present request) =
      if mixed request then none
      else chainOf grammar request settings.forwardedHopLimit (partsOf line) := by
  rw [headerChain, mixed]
  cases grammar with
  | forwarded =>
      have hheader : request.header "forwarded" = some line := hline
      have hpresent : "forwarded" ∈ present request := by
        simp [present, forwardedHeaders, hheader]
      simp only [hpresent, if_true, decide_true, Bool.true_and, hheader, Option.getD_some,
        forwardedChain_eq request]
  | xForwardedFor =>
      have hheader : request.header "x-forwarded-for" = some line := hline
      have hpresent : "x-forwarded-for" ∈ present request := by
        simp [present, forwardedHeaders, hheader]
      by_cases hforwarded : "forwarded" ∈ present request
      · have hany : (present request).any (· ≠ "forwarded") = true :=
          List.any_eq_true.mpr ⟨_, hpresent, by decide⟩
        simp only [hforwarded, if_true, decide_true, Bool.true_and, hany]
      · simp [hforwarded, xForwardedChain_eq hheader]

/-- More parts behind an accepted chain. -/
theorem chainOf_append {grammar : Grammar} {request : Request} {limit : ℕ}
    {front : List (List Char)} {chain : Chain} (hne : front ≠ [])
    (hfront : chainOf grammar request limit front = some chain) (back : List (List Char)) :
    chainOf grammar request limit (front ++ back) =
      if limit < front.length + back.length ∨ [] ∈ back then none
      else (back.mapM grammar.hop).map fun hops =>
        ⟨chain.hops ++ hops, chain.proto, chain.host⟩ := by
  rw [chainOf] at hfront
  split_ifs at hfront with hshape
  obtain ⟨hops, hhops, hfront⟩ := Option.bind_eq_some_iff.mp hfront
  obtain ⟨⟨proto, host⟩, hextras, hfront⟩ := Option.bind_eq_some_iff.mp hfront
  cases hfront
  have hempty : ([] ∈ front ++ back) = ([] ∈ back) := by
    simp only [List.mem_append, eq_iff_iff, or_iff_right_iff_imp]
    exact fun hmem => absurd (Or.inr hmem) hshape
  have hhead : (front ++ back).headD [] = front.headD [] := by
    cases front with
    | nil => exact absurd rfl hne
    | cons first front => rfl
  simp only [chainOf, List.length_append, hempty, hhead, List.mapM_append, hhops]
  split_ifs
  · rfl
  · cases back.mapM grammar.hop with
    | none => rfl
    | some more =>
        simp only [Option.bind_eq_bind, Option.bind_some, Option.pure_def, hextras,
          Option.map_some]

/-! ### The client of a chain -/

def outside (networks : List Network) (hop : String) : Bool :=
  !(ipAddress hop).any fun a => inNetworks a networks

/-- The hops that are not trusted. -/
def untrusted (networks : List Network) (hops : List String) : List String :=
  hops.filter (outside networks)

theorem firstOutside_eq {networks : List Network} {hops : List String}
    (hread : ∀ hop ∈ hops, ∃ a : Address, hop = a.str) :
    firstOutside networks hops = some (hops.find? (outside networks)) := by
  induction hops with
  | nil => rfl
  | cons hop hops ih =>
      obtain ⟨a, rfl⟩ := hread hop (by simp)
      have hrest := ih fun hop hhop => hread hop (by simp [hhop])
      rw [firstOutside, IpAddress.ipAddress_str, List.find?_cons]
      by_cases hin : inNetworks a networks = true
      · simp [hin, outside, IpAddress.ipAddress_str, hrest]
      · simp [hin, outside, IpAddress.ipAddress_str]

theorem chainClient_eq {networks : List Network} {hops : List String}
    (hread : ∀ hop ∈ hops, ∃ a : Address, hop = a.str) :
    chainClient networks hops =
      some ((untrusted networks hops).getLast?.getD (hops.headD "")) := by
  have hfind : hops.reverse.find? (outside networks) = (untrusted networks hops).getLast? := by
    rw [untrusted, ← List.head?_filter, List.filter_reverse, List.head?_reverse]
  rw [chainClient, firstOutside_eq fun hop hhop => hread hop (by simpa using hhop), hfind]
  rfl

theorem hops_read {grammar : Grammar} {parts : List (List Char)} {hops : List String}
    (h : parts.mapM grammar.hop = some hops) : ∀ hop ∈ hops, ∃ a : Address, hop = a.str := by
  intro hop hhop
  obtain ⟨part, -, hpart⟩ := mem_of_mapM h hhop
  exact hop_str hpart

theorem chainOf_hops {grammar : Grammar} {request : Request} {limit : ℕ}
    {parts : List (List Char)} {chain : Chain}
    (h : chainOf grammar request limit parts = some chain) :
    parts.mapM grammar.hop = some chain.hops := by
  rw [chainOf] at h
  split_ifs at h
  obtain ⟨hops, hhops, h⟩ := Option.bind_eq_some_iff.mp h
  obtain ⟨rest, -, h⟩ := Option.bind_eq_some_iff.mp h
  cases h
  exact hhops

/-- More hops leave the client as it is, unless one of them is untrusted and another one. -/
theorem client_append {networks : List Network} {first later : List String} (hne : first ≠ []) :
    ((untrusted networks (first ++ later)).getLast?.getD ((first ++ later).headD "") =
        (untrusted networks first).getLast?.getD (first.headD "")) ↔
      (untrusted networks later = [] ∨
        (untrusted networks later).getLast? = (untrusted networks first).getLast?) := by
  obtain ⟨hop, hops, rfl⟩ := List.exists_cons_of_ne_nil hne
  have hsplit : untrusted networks (hop :: hops ++ later) =
      untrusted networks (hop :: hops) ++ untrusted networks later := List.filter_append ..
  rw [hsplit, List.getLast?_append, List.cons_append, List.headD_cons, List.headD_cons]
  cases hlater : (untrusted networks later).getLast? with
  | none =>
      have hnil := List.getLast?_eq_none_iff.mp hlater
      simp [hnil]
  | some last =>
      have hmem : last ∈ untrusted networks later := List.mem_of_getLast? hlater
      have hlast : untrusted networks later ≠ [] := List.ne_nil_of_mem hmem
      cases hfirst : (untrusted networks (hop :: hops)).getLast? with
      | some nearest => simp [hlast]
      | none =>
          -- every hop of the first line is trusted, so its client is no untrusted hop
          have hout : outside networks last = true := (List.mem_filter.mp hmem).2
          have hin : ¬ outside networks hop = true := fun h =>
            List.filter_eq_nil_iff.mp (List.getLast?_eq_none_iff.mp hfirst) hop (by simp) h
          have hdiff : last ≠ hop := fun h => hin (h ▸ hout)
          simp [hlast, hdiff]

/-! ### Lines -/

/-- The client of a request with forwarding headers, none where it is refused. -/
def forwardedClient (settings : NetworkSettings) (request : Request) : Option String :=
  (headerChain settings request (present request)).bind fun chain =>
    chainClient settings.trustedProxies chain.hops

theorem context_iff {grammar : Grammar} {settings : NetworkSettings} {request : Request}
    {value client : String} (htrusted : trustedPeer settings request = true)
    (hvalue : request.header grammar.header = some value) :
    (∃ context, requestNetworkContext settings request = .ok context ∧
        context.client = client) ↔ forwardedClient settings request = some client := by
  rw [forwardedClient]
  constructor
  · rintro ⟨context, hcontext, rfl⟩
    obtain ⟨chain, hchain, hclient⟩ := client_of_chain htrusted hvalue hcontext
    have hchain' : headerChain settings request (present request) = some chain := hchain
    rw [hchain', Option.bind_some, hclient]
  · intro hclient
    cases hresult : requestNetworkContext settings request with
    | ok context =>
        obtain ⟨chain, hchain, hfound⟩ := client_of_chain htrusted hvalue hresult
        have hchain' : headerChain settings request (present request) = some chain := hchain
        rw [hchain', Option.bind_some, hfound] at hclient
        exact ⟨context, rfl, Option.some.inj hclient⟩
    | error e =>
        exfalso
        rw [requestNetworkContext] at hresult
        split at hresult
        · cases hresult
        · simp only at hresult
          split_ifs at hresult
          obtain ⟨chain, hchain, hfound⟩ := Option.bind_eq_some_iff.mp hclient
          have hchain' : headerChain settings request
            (forwardedHeaders.filter fun name => (request.header name).isSome) = some chain := hchain
          rw [hchain', Option.bind_some, hfound] at hresult
          cases hresult

theorem trustedPeer_joinLines (settings : NetworkSettings) (name : String) (request : Request) :
    trustedPeer settings (joinLines name request) = trustedPeer settings request := rfl

theorem present_joinLines {name : String} {request : Request} (h : request.lines name ≠ []) :
    present (joinLines name request) = present request := by
  rw [present, present]
  congr 1
  funext other
  by_cases hother : other = name
  · subst hother
    rw [header_joinLines_self, header_eq_head, Option.isSome_some]
    cases hlines : request.lines other with
    | nil => exact absurd hlines h
    | cons line lines => rfl
  · rw [header_joinLines_of_ne hother]

theorem extras_joinLines (grammar : Grammar) (request : Request) (first : List Char) :
    extras grammar (joinLines grammar.header request) first = extras grammar request first := by
  cases grammar with
  | forwarded => rfl
  | xForwardedFor =>
      rw [extras, extras,
        header_joinLines_of_ne (by decide : "x-forwarded-proto" ≠ Grammar.xForwardedFor.header),
        header_joinLines_of_ne (by decide : "x-forwarded-host" ≠ Grammar.xForwardedFor.header)]

/-- The request is refused, or its client is the one of the joined line. -/
def LinesAgree (settings : NetworkSettings) (grammar : Grammar) (request : Request) : Prop :=
  (∃ e, requestNetworkContext settings request = .error e) ∨
    ∃ context joined, requestNetworkContext settings request = .ok context ∧
      requestNetworkContext settings (joinLines grammar.header request) = .ok joined ∧
      context.client = joined.client

/-- The first line is refused, or the further lines are well formed, all hops are within the
limit, and the last untrusted hop of the further lines, if there is one, is the nearest untrusted
hop of the first. -/
def LinesJoin (settings : NetworkSettings) (grammar : Grammar) (request : Request) : Prop :=
  headerChain settings request (present request) = none ∨
    ∃ first later : List String,
      (partsOf ((request.lines grammar.header).headD "")).mapM grammar.hop = some first ∧
      (((request.lines grammar.header).tail.flatMap partsOf).mapM grammar.hop = some later ∧
        [] ∉ (request.lines grammar.header).tail.flatMap partsOf) ∧
      first.length + later.length ≤ settings.forwardedHopLimit ∧
      (untrusted settings.trustedProxies later = [] ∨
        (untrusted settings.trustedProxies later).getLast? =
          (untrusted settings.trustedProxies first).getLast?)

theorem lines_agree_client {settings : NetworkSettings} {grammar : Grammar} {request : Request}
    (htrusted : trustedPeer settings request = true) {line : String}
    (hline : request.header grammar.header = some line) :
    LinesAgree settings grammar request ↔ forwardedClient settings request = none ∨
      ∃ client, forwardedClient settings request = some client ∧
        forwardedClient settings (joinLines grammar.header request) = some client := by
  have hsame := fun client => @context_iff grammar settings request line client htrusted hline
  have hjoin := fun client => @context_iff grammar settings (joinLines grammar.header request) _
    client htrusted (header_joinLines_self _ _)
  constructor
  · rintro (⟨e, he⟩ | ⟨context, joined, hcontext, hjoined, hclient⟩)
    · left
      cases hfound : forwardedClient settings request with
      | none => rfl
      | some client =>
          obtain ⟨context, hcontext, -⟩ := (hsame client).mpr hfound
          rw [he] at hcontext
          cases hcontext
    · exact Or.inr ⟨context.client, (hsame _).mp ⟨context, hcontext, rfl⟩,
        (hjoin _).mp ⟨joined, hjoined, hclient.symm⟩⟩
  · rintro (hnone | ⟨client, hclient, hjoined⟩)
    · left
      cases hresult : requestNetworkContext settings request with
      | error e => exact ⟨e, rfl⟩
      | ok context =>
          have hfound := (hsame context.client).mp ⟨context, hresult, rfl⟩
          rw [hnone] at hfound
          cases hfound
    · obtain ⟨context, hcontext, rfl⟩ := (hsame client).mpr hclient
      obtain ⟨joined, hjoined, hsame⟩ := (hjoin _).mpr hjoined
      exact Or.inr ⟨context, joined, hcontext, hjoined, hsame.symm⟩

/-- Behind a trusted peer the lines of a header mean what the joined line means exactly when they
join. -/
theorem lines_agree_iff (settings : NetworkSettings) (grammar : Grammar) (request : Request)
    (htrusted : trustedPeer settings request = true)
    (hlines : request.lines grammar.header ≠ []) :
    LinesAgree settings grammar request ↔ LinesJoin settings grammar request := by
  obtain ⟨line, rest, hsplit⟩ := List.exists_cons_of_ne_nil hlines
  have hline : request.header grammar.header = some line := by
    rw [header_eq_head, hsplit]
    rfl
  have hchain := @headerChain_eq grammar settings request line hline
  have hjoined := @headerChain_eq grammar settings (joinLines grammar.header request) _
    (header_joinLines_self _ _)
  have hmixed : mixed (joinLines grammar.header request) = mixed request := by
    rw [mixed, mixed, present_joinLines hlines]
  have hparts : partsOf (", ".intercalate (request.lines grammar.header)) =
      partsOf line ++ rest.flatMap partsOf := by
    rw [partsOf_join hlines, hsplit, List.flatMap_cons]
  have hextras (limit : ℕ) (parts : List (List Char)) :
      chainOf grammar (joinLines grammar.header request) limit parts =
        chainOf grammar request limit parts := by
    simp only [chainOf, extras_joinLines]
  rw [hmixed, hparts, hextras] at hjoined
  rw [lines_agree_client htrusted hline, LinesJoin, forwardedClient, forwardedClient, hjoined,
    hsplit, List.headD_cons, List.tail_cons]
  cases hfirst : headerChain settings request (present request) with
  | none => simp
  | some chain =>
      rw [hchain] at hfirst
      split_ifs at hfirst with hmix
      have hread := chainOf_hops hfirst
      have hlength := Traversals.length_mapM hread
      have hne : chain.hops ≠ [] := by
        intro hnil
        rw [hnil] at hlength
        exact partsOf_ne_nil line (List.length_eq_zero_iff.mp hlength.symm)
      have hclient := @chainClient_eq settings.trustedProxies _ (hops_read hread)
      rw [if_neg hmix, chainOf_append (partsOf_ne_nil line) hfirst, Option.bind_some, hclient]
      constructor
      · rintro (hnone | ⟨client, hfound, hjoin⟩)
        · cases hnone
        · obtain ⟨joined, hall, hjoin⟩ := Option.bind_eq_some_iff.mp hjoin
          split_ifs at hall with hshape
          obtain ⟨later, hlater, rfl⟩ := Option.map_eq_some_iff.mp hall
          have hboth : ∀ hop ∈ chain.hops ++ later, ∃ a : Address, hop = a.str := by
            intro hop hhop
            rcases List.mem_append.mp hhop with hhop | hhop
            · exact hops_read hread hop hhop
            · exact hops_read hlater hop hhop
          rw [chainClient_eq hboth] at hjoin
          have hsame := (Option.some.inj hjoin).trans (Option.some.inj hfound).symm
          refine Or.inr ⟨chain.hops, later, hread, ⟨hlater, fun h => hshape (Or.inr h)⟩, ?_,
            (client_append hne).mp hsame⟩
          have hlong := Traversals.length_mapM hlater
          omega
      · rintro (hnone | ⟨first, later, hhops, ⟨hlater, hempty⟩, hlimit, hclients⟩)
        · cases hnone
        · have hsame : first = chain.hops := Option.some.inj (hhops.symm.trans hread)
          subst hsame
          have hlong := Traversals.length_mapM hlater
          have hshape : ¬ (settings.forwardedHopLimit < (partsOf line).length +
              (rest.flatMap partsOf).length ∨ [] ∈ rest.flatMap partsOf) := by
            rintro (h | h)
            · omega
            · exact hempty h
          have hboth : ∀ hop ∈ chain.hops ++ later, ∃ a : Address, hop = a.str := by
            intro hop hhop
            rcases List.mem_append.mp hhop with hhop | hhop
            · exact hops_read hread hop hhop
            · exact hops_read hlater hop hhop
          refine Or.inr ⟨_, rfl, ?_⟩
          rw [if_neg hshape, hlater, Option.map_some, Option.bind_some, chainClient_eq hboth,
            (client_append hne).mpr hclients]

/-! ### Two lines through one proxy -/

/-- The client sent the first line, the proxy appended the second one. -/
def appended : Request :=
  { clientHost := some "127.0.0.1",
    headers := [("x-forwarded-for", "203.0.113.9"), ("x-forwarded-for", "198.51.100.7")] }

theorem lines_agree_iff_appended :
    LinesAgree localProxy .xForwardedFor appended ↔ LinesJoin localProxy .xForwardedFor appended :=
  lines_agree_iff localProxy .xForwardedFor appended (by decide) (by decide)

/-- The client is the address that the client wrote. -/
theorem lines_disagree : ¬ ∀ (settings : NetworkSettings) (grammar : Grammar) (request : Request),
    trustedPeer settings request = true → request.lines grammar.header ≠ [] →
      LinesAgree settings grammar request := by
  intro h
  have hsent : requestNetworkContext localProxy appended =
      .ok ⟨"127.0.0.1", "203.0.113.9", "http", none, true⟩ := by decide
  have hjoined : requestNetworkContext localProxy (joinLines "x-forwarded-for" appended) =
      .ok ⟨"127.0.0.1", "198.51.100.7", "http", none, true⟩ := by decide
  rcases h localProxy .xForwardedFor appended (by decide) (by decide) with
    ⟨e, he⟩ | ⟨context, joined, hcontext, hjoin, hclient⟩
  · rw [hsent] at he
    cases he
  · rw [hsent] at hcontext
    have hjoin' : requestNetworkContext localProxy (joinLines "x-forwarded-for" appended) =
      .ok joined := hjoin
    rw [hjoined] at hjoin'
    cases hcontext
    cases hjoin'
    exact absurd hclient (by decide)

end MachineDeck.Auth

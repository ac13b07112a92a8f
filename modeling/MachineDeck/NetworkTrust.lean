import MachineDeck.NetworkContext

/-!
# Clients do not choose their address

Whatever stands before the nearest untrusted hop of a forwarding header has no influence on the
client a request is judged by.

* `Grammar` — the two headers, each with the address that an element of it names;
* `chainClient_append` — the search from the right stops at the nearest untrusted hop;
* `client_not_chosen` — an untrusted peer is its own client, and behind a trusted peer the client
  is the nearest untrusted hop or the request is refused.
-/

namespace MachineDeck.Auth

open IpAddress (Address Network ipAddress)
open LineText (strip)

/-- The headers that hold a chain of hops. -/
inductive Grammar where
  | forwarded
  | xForwardedFor
  deriving DecidableEq, Repr

def Grammar.header : Grammar → String
  | .forwarded => "forwarded"
  | .xForwardedFor => "x-forwarded-for"

/-- The hop of an element, as the chain holds it. -/
def Grammar.hop : Grammar → List Char → Option String
  | .forwarded, element => (forwardedElement element).map Prod.fst
  | .xForwardedFor, element => xForwardedHop element

/-- The address that an element of the header names. -/
def Grammar.names (grammar : Grammar) (element : String) (a : Address) : Prop :=
  grammar.hop (strip element.toList) = some a.str

def trustedPeer (settings : NetworkSettings) (request : Request) : Bool :=
  (address (rawPeer request).toList).any fun a => inNetworks a settings.trustedProxies

/-! ### Lists of elements -/

theorem mapM_append_cons {α β : Type} {f : α → Option β} {front rest : List α} {a : α}
    {read : List β} (h : (front ++ a :: rest).mapM f = some read) :
    ∃ before b after, front.mapM f = some before ∧ f a = some b ∧ rest.mapM f = some after ∧
      read = before ++ b :: after := by
  induction front generalizing read with
  | nil =>
      rw [List.nil_append, List.mapM_cons] at h
      obtain ⟨b, hb, h⟩ := Option.bind_eq_some_iff.mp h
      obtain ⟨after, hafter, h⟩ := Option.bind_eq_some_iff.mp h
      exact ⟨[], b, after, rfl, hb, hafter, (Option.some.inj h).symm⟩
  | cons x front ih =>
      rw [List.cons_append, List.mapM_cons] at h
      obtain ⟨y, hy, h⟩ := Option.bind_eq_some_iff.mp h
      obtain ⟨tail, htail, h⟩ := Option.bind_eq_some_iff.mp h
      obtain ⟨before, b, after, hbefore, hb, hafter, rfl⟩ := ih htail
      refine ⟨y :: before, b, after, ?_, hb, hafter, (Option.some.inj h).symm⟩
      rw [List.mapM_cons, hy, hbefore]
      rfl

theorem mem_of_mapM {α β : Type} {f : α → Option β} {l : List α} {read : List β}
    (h : l.mapM f = some read) {b : β} (hb : b ∈ read) : ∃ a ∈ l, f a = some b := by
  induction l generalizing read with
  | nil =>
      cases h
      cases hb
  | cons x l ih =>
      rw [List.mapM_cons] at h
      obtain ⟨y, hy, h⟩ := Option.bind_eq_some_iff.mp h
      obtain ⟨tail, htail, h⟩ := Option.bind_eq_some_iff.mp h
      cases h
      rcases List.mem_cons.mp hb with rfl | hb
      · exact ⟨x, by simp, hy⟩
      · obtain ⟨a, ha, hab⟩ := ih htail hb
        exact ⟨a, by simp [ha], hab⟩

theorem mapM_map {α β γ : Type} (f : α → Option β) (g : β → γ) (l : List α) :
    l.mapM (fun a => (f a).map g) = (l.mapM f).map (List.map g) := by
  induction l with
  | nil => rfl
  | cons x l ih =>
      rw [List.mapM_cons, List.mapM_cons, ih]
      cases f x with
      | none => rfl
      | some y =>
          cases l.mapM f with
          | none => rfl
          | some read => rfl

/-- Whatever stands in front, the last elements of a header are the last ones written. -/
theorem splitOn_suffix (front : List String) {last : List String} (hne : last ≠ [])
    (hplain : ∀ e ∈ last, ',' ∉ e.toList) :
    ∃ before, (",".intercalate (front ++ last)).toList.splitOn ',' =
      before ++ last.map String.toList := by
  have hlast : ([','].intercalate (last.map String.toList)).splitOn ',' =
      last.map String.toList := by
    apply List.splitOn_intercalate
    · intro text htext
      obtain ⟨e, he, rfl⟩ := List.mem_map.mp htext
      exact hplain e he
    · simpa using hne
  induction front with
  | nil => exact ⟨[], by rw [List.nil_append, String.toList_intercalate]; exact hlast⟩
  | cons piece front ih =>
      obtain ⟨before, hbefore⟩ := ih
      refine ⟨piece.toList.splitOn ',' ++ before, ?_⟩
      rw [String.toList_intercalate] at hbefore ⊢
      rw [List.append_assoc, ← hbefore, ← List.splitOn_append_cons_self]
      congr 1
      cases hrest : front ++ last with
      | nil => exact absurd (List.append_eq_nil_iff.mp hrest).2 hne
      | cons next rest =>
          rw [List.cons_append, hrest, List.map_cons, List.map_cons, List.intercalate_cons_cons]
          simp

/-! ### The search from the right -/

theorem firstOutside_append {networks : List Network} {inside : List String}
    (hinside : ∀ hop ∈ inside, ∃ a, ipAddress hop = some a ∧ inNetworks a networks = true)
    (rest : List String) : firstOutside networks (inside ++ rest) = firstOutside networks rest := by
  induction inside with
  | nil => rfl
  | cons hop inside ih =>
      obtain ⟨a, ha, hin⟩ := hinside hop (by simp)
      rw [List.cons_append, firstOutside, ha]
      simp only [Option.bind_eq_bind, Option.bind_some, hin, if_true]
      exact ih fun hop hhop => hinside hop (by simp [hhop])

/-- Hops before the nearest untrusted one do not count. -/
theorem chainClient_append {networks : List Network} {a : Address}
    (hout : inNetworks a networks = false) (before : List String) {after : List String}
    (hafter : ∀ hop ∈ after, ∃ b, ipAddress hop = some b ∧ inNetworks b networks = true) :
    chainClient networks (before ++ a.str :: after) = some a.str := by
  have hreverse : (before ++ a.str :: after).reverse =
      after.reverse ++ a.str :: before.reverse := by simp
  rw [chainClient, hreverse, firstOutside_append fun hop hhop => hafter hop (by simpa using hhop),
    firstOutside, IpAddress.ipAddress_str]
  simp [hout]

/-! ### The two headers -/

theorem elements_some {value : String} {limit : ℕ} {parts : List (List Char)}
    (h : elements value limit = some parts) : parts = (value.toList.splitOn ',').map strip := by
  simp only [elements] at h
  split_ifs at h
  exact (Option.some.inj h).symm

/-- The hops of an accepted chain are those of the header's elements. -/
theorem chain_hops {grammar : Grammar} {settings : NetworkSettings} {request : Request}
    {value : String} {chain : Chain} (hvalue : request.header grammar.header = some value)
    (h : headerChain settings request
      (forwardedHeaders.filter fun name => (request.header name).isSome) = some chain) :
    ((value.toList.splitOn ',').map strip).mapM grammar.hop = some chain.hops := by
  rw [headerChain] at h
  split_ifs at h with hforwarded hmixed
  · -- only `Forwarded` is present
    have hgrammar : grammar = .forwarded := by
      cases grammar with
      | forwarded => rfl
      | xForwardedFor =>
          have hname : request.header "x-forwarded-for" = some value := hvalue
          exact absurd (by simp [forwardedHeaders, hname]) hmixed
    subst hgrammar
    have hname : request.header "forwarded" = some value := hvalue
    rw [hname, Option.getD_some, forwardedChain] at h
    obtain ⟨parts, hparts, h⟩ := Option.bind_eq_some_iff.mp h
    obtain ⟨parsed, hparsed, h⟩ := Option.bind_eq_some_iff.mp h
    obtain ⟨proto, -, h⟩ := Option.bind_eq_some_iff.mp h
    obtain ⟨host, -, h⟩ := Option.bind_eq_some_iff.mp h
    cases h
    rw [← elements_some hparts]
    exact (mapM_map forwardedElement Prod.fst parts).trans (congrArg (Option.map _) hparsed)
  · have hgrammar : grammar = .xForwardedFor := by
      cases grammar with
      | xForwardedFor => rfl
      | forwarded =>
          have hname : request.header "forwarded" = some value := hvalue
          exact absurd (by simp [forwardedHeaders, hname]) hforwarded
    subst hgrammar
    have hname : request.header "x-forwarded-for" = some value := hvalue
    rw [xForwardedChain, hname] at h
    obtain ⟨text, htext, h⟩ := Option.bind_eq_some_iff.mp h
    obtain ⟨parts, hparts, h⟩ := Option.bind_eq_some_iff.mp h
    obtain ⟨hops, hhops, h⟩ := Option.bind_eq_some_iff.mp h
    obtain ⟨proto, -, h⟩ := Option.bind_eq_some_iff.mp h
    obtain ⟨host, -, h⟩ := Option.bind_eq_some_iff.mp h
    cases h
    have hsame : text = value := by
      rw [Option.filter_eq_some_iff] at htext
      exact (Option.some.inj htext.1).symm
    rw [← hsame, ← elements_some hparts]
    exact hhops

theorem hop_str {grammar : Grammar} {element : List Char} {hop : String}
    (h : grammar.hop element = some hop) : ∃ a : Address, hop = a.str := by
  cases grammar with
  | forwarded =>
      obtain ⟨⟨node, parameters⟩, helement, rfl⟩ := Option.map_eq_some_iff.mp h
      obtain ⟨read, -, helement⟩ := Option.bind_eq_some_iff.mp helement
      obtain ⟨text, -, helement⟩ := Option.bind_eq_some_iff.mp helement
      obtain ⟨a, -, helement⟩ := Option.bind_eq_some_iff.mp helement
      cases helement
      exact ⟨a, rfl⟩
  | xForwardedFor =>
      obtain ⟨a, -, rfl⟩ := Option.map_eq_some_iff.mp h
      exact ⟨a, rfl⟩

/-! ### The context -/

/-- The peer as the context holds it; no header has a part in it. -/
def peerText (request : Request) : String :=
  ((address (rawPeer request).toList).map Address.str).getD (rawPeer request)

theorem context_of_untrusted {settings : NetworkSettings} {request : Request}
    (h : trustedPeer settings request = false) :
    ∃ context, requestNetworkContext settings request = .ok context ∧
      context.peer = peerText request ∧ context.client = peerText request := by
  rw [requestNetworkContext, peerText]
  cases hpeer : address (rawPeer request).toList with
  | none => exact ⟨_, rfl, rfl, rfl⟩
  | some peer =>
      have hout : inNetworks peer settings.trustedProxies = false := by
        simpa [trustedPeer, hpeer] using h
      simp [hout]

/-- The client of a trusted peer whose header was accepted is that of the header's chain. -/
theorem client_of_chain {grammar : Grammar} {settings : NetworkSettings} {request : Request}
    {value : String} (htrusted : trustedPeer settings request = true)
    (hvalue : request.header grammar.header = some value)
    {context : RequestNetworkContext}
    (h : requestNetworkContext settings request = .ok context) :
    ∃ chain, headerChain settings request
        (forwardedHeaders.filter fun name => (request.header name).isSome) = some chain ∧
      chainClient settings.trustedProxies chain.hops = some context.client := by
  rw [requestNetworkContext] at h
  cases hpeer : address (rawPeer request).toList with
  | none => simp [trustedPeer, hpeer] at htrusted
  | some peer =>
      have hin : inNetworks peer settings.trustedProxies = true := by
        simpa [trustedPeer, hpeer] using htrusted
      have hpresent :
          forwardedHeaders.filter (fun name => (request.header name).isSome) ≠ [] := by
        intro hnil
        rw [List.filter_eq_nil_iff] at hnil
        have hsome : (request.header grammar.header).isSome = true := by rw [hvalue]; rfl
        cases grammar with
        | forwarded => exact hnil "forwarded" (by decide) hsome
        | xForwardedFor => exact hnil "x-forwarded-for" (by decide) hsome
      simp only [hpeer, hin, Bool.not_true, Bool.false_eq_true, if_false, hpresent] at h
      cases hchain : headerChain settings request
          (forwardedHeaders.filter fun name => (request.header name).isSome) with
      | none =>
          rw [hchain] at h
          cases h
      | some chain =>
          cases hclient : chainClient settings.trustedProxies chain.hops with
          | none =>
              rw [hchain, Option.bind_some, hclient] at h
              cases h
          | some client =>
              rw [hchain, Option.bind_some, hclient] at h
              cases h
              exact ⟨chain, rfl, hclient⟩

/-- The only way a request is refused. -/
theorem context_error {settings : NetworkSettings} {request : Request} {e : HttpError}
    (h : requestNetworkContext settings request = .error e) : e = forwardedHeadersInvalid := by
  rw [requestNetworkContext] at h
  split at h
  · cases h
  · simp only at h
    split_ifs at h
    split at h
    · exact (Except.error.inj h).symm
    · cases h

/-- An untrusted peer is its own client.  Behind a trusted peer whose header ends with an
untrusted hop and trusted ones after it, the client is that hop, or the request is refused;
what stands before the hop is any text. -/
theorem client_not_chosen (settings : NetworkSettings) (request : Request) :
    (trustedPeer settings request = false →
      ∃ context, requestNetworkContext settings request = .ok context ∧
        context.peer = peerText request ∧ context.client = context.peer) ∧
    (trustedPeer settings request = true →
      ∀ (grammar : Grammar) (front : List String) (hop : String) (a : Address)
        (after : List String),
      request.header grammar.header = some (",".intercalate (front ++ hop :: after)) →
      (∀ e ∈ hop :: after, ',' ∉ e.toList) →
      grammar.names hop a → inNetworks a settings.trustedProxies = false →
      (∀ e ∈ after, ∀ b, grammar.names e b → inNetworks b settings.trustedProxies = true) →
      requestNetworkContext settings request = .error forwardedHeadersInvalid ∨
        ∃ context, requestNetworkContext settings request = .ok context ∧
          context.client = a.str) := by
  constructor
  · intro huntrusted
    obtain ⟨context, hcontext, hpeer, hclient⟩ := context_of_untrusted huntrusted
    exact ⟨context, hcontext, hpeer, hclient.trans hpeer.symm⟩
  · intro htrusted grammar front hop a after hvalue hplain hnames hout hafter
    cases hresult : requestNetworkContext settings request with
    | error e => exact Or.inl (congrArg Except.error (context_error hresult))
    | ok context =>
        right
        obtain ⟨chain, hchain, hclient⟩ := client_of_chain htrusted hvalue hresult
        obtain ⟨before, hsplit⟩ := splitOn_suffix front (List.cons_ne_nil hop after) hplain
        have hhops := chain_hops hvalue hchain
        rw [hsplit, List.map_cons, List.map_append, List.map_cons] at hhops
        obtain ⟨beforeHops, found, afterHops, -, hfound, hafterHops, hall⟩ :=
          mapM_append_cons hhops
        have hsame : found = a.str := Option.some.inj (hfound.symm.trans hnames)
        subst hsame
        have hinside : ∀ h ∈ afterHops,
            ∃ b, ipAddress h = some b ∧ inNetworks b settings.trustedProxies = true := by
          intro h hh
          obtain ⟨element, helement, hread⟩ := mem_of_mapM hafterHops hh
          obtain ⟨text, htext, rfl⟩ := List.mem_map.mp helement
          obtain ⟨e, he, rfl⟩ := List.mem_map.mp htext
          obtain ⟨b, rfl⟩ := hop_str hread
          exact ⟨b, IpAddress.ipAddress_str b, hafter e he b hread⟩
        rw [hall, chainClient_append hout beforeHops hinside] at hclient
        exact ⟨context, rfl, (Option.some.inj hclient).symm⟩

/-! ### A request through a proxy -/

/-- The proxy is 127.0.0.1. -/
def localProxy : NetworkSettings :=
  { trustedProxies := [.v4 2130706433 32] }

/-- The proxy wrote the last hop behind what the client had sent. -/
def relayed : Request :=
  { clientHost := some "127.0.0.1", headers := [("x-forwarded-for", "9.9.9.9, 8.8.8.8")] }

theorem client_not_chosen_relayed :
    requestNetworkContext localProxy relayed = .error forwardedHeadersInvalid ∨
      ∃ context, requestNetworkContext localProxy relayed = .ok context ∧
        context.client = (Address.v4 134744072).str :=
  (client_not_chosen localProxy relayed).2 (by decide) .xForwardedFor ["9.9.9.9"] " 8.8.8.8"
    (.v4 134744072) [] (by decide) (by decide) (by unfold Grammar.names; decide) (by decide)
    (by simp)

end MachineDeck.Auth

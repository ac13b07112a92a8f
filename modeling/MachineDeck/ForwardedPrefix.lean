import MachineDeck.NetworkLines

/-!
# The scheme and the host that a client claims

The client of a request is the nearest untrusted hop of its `Forwarded` header, its scheme and its
host are those of the first element, whoever wrote it.

* `context_eq` — the context of a request behind a trusted peer, read off its header;
* `forwardedBy` — a request with the elements of its `Forwarded` header given;
* `PrefixIndependent` — what stands before the nearest untrusted hop does not show in scheme and
  host; `prefix_independent_iff` — only where nothing can stand there;
* `prefix_chooses` — a hop that is not trusted has set both.
-/

namespace MachineDeck.Auth

open IpAddress (Address Network ipAddress)
open LineText (strip)

/-! ### The context -/

/-- Behind a trusted peer the context is that of the chain of the header. -/
theorem context_eq {grammar : Grammar} {settings : NetworkSettings} {request : Request}
    {line : String} (htrusted : trustedPeer settings request = true)
    (hline : request.header grammar.header = some line) :
    requestNetworkContext settings request =
      match (if mixed request then none
        else chainOf grammar request settings.forwardedHopLimit (partsOf line)) with
      | none => .error forwardedHeadersInvalid
      | some chain => .ok {
          peer := peerText request
          client := (untrusted settings.trustedProxies chain.hops).getLast?.getD (chain.hops.headD "")
          scheme := chain.proto.getD request.scheme
          host := chain.host.or (request.header "host")
          forwarded := true } := by
  have hchain : headerChain settings request (present request) = _ := headerChain_eq hline
  rw [present] at hchain
  have hpresent : forwardedHeaders.filter (fun name => (request.header name).isSome) ≠ [] := by
    intro hnil
    rw [List.filter_eq_nil_iff] at hnil
    have hsome : (request.header grammar.header).isSome = true := by rw [hline]; rfl
    cases grammar with
    | forwarded => exact hnil "forwarded" (by decide) hsome
    | xForwardedFor => exact hnil "x-forwarded-for" (by decide) hsome
  rw [requestNetworkContext]
  cases hpeer : address (rawPeer request).toList with
  | none => simp [trustedPeer, hpeer] at htrusted
  | some peer =>
    have hin : inNetworks peer settings.trustedProxies = true := by
      simpa [trustedPeer, hpeer] using htrusted
    have htext : peerText request = peer.str := by rw [peerText, hpeer]; rfl
    simp only [hin, Bool.not_true, Bool.false_eq_true, if_false, hpresent, hchain]
    cases hmixed : mixed request with
    | true => rfl
    | false =>
      simp only [Bool.false_eq_true, if_false]
      cases hparts : chainOf grammar request settings.forwardedHopLimit (partsOf line) with
      | none => rfl
      | some chain =>
        rw [Option.bind_some, chainClient_eq (hops_read (chainOf_hops hparts)), Option.map_some,
          htext]

/-! ### Requests with one `Forwarded` header -/

/-- The request with these elements in its `Forwarded` header. -/
def Request.forwardedBy (request : Request) (elements : List String) : Request :=
  { request with
    headers := ("forwarded", ",".intercalate elements) ::
      request.headers.filter fun line => !(line.1 == "forwarded") }

@[simp] theorem header_forwardedBy (request : Request) (elements : List String) :
    (request.forwardedBy elements).header "forwarded" = some (",".intercalate elements) := by
  simp [Request.header, Request.forwardedBy]

@[simp] theorem header_forwardedBy_of_ne {name : String} (h : name ≠ "forwarded")
    (request : Request) (elements : List String) :
    (request.forwardedBy elements).header name = request.header name := by
  have hne : ("forwarded" == name) = false := beq_eq_false_iff_ne.mpr (Ne.symm h)
  rw [Request.header, Request.header, Request.forwardedBy, List.find?_cons_of_neg (by simp [hne]),
    List.find?_filter]
  congr 2
  funext line
  by_cases heq : line.1 = name
  · simp [heq, h]
  · simp [heq]

/-- A header of the other family is there, so the request is refused. -/
def Request.otherFamily (request : Request) : Bool :=
  ["x-forwarded-for", "x-forwarded-host", "x-forwarded-proto"].any fun name =>
    (request.header name).isSome

theorem mixed_forwardedBy (request : Request) (elements : List String) :
    mixed (request.forwardedBy elements) = request.otherFamily := by
  have hother {name : String} (h : name ≠ "forwarded") :
      (request.forwardedBy elements).header name = request.header name :=
    header_forwardedBy_of_ne h request elements
  have hfor := hother (by decide : "x-forwarded-for" ≠ "forwarded")
  have hhost := hother (by decide : "x-forwarded-host" ≠ "forwarded")
  have hproto := hother (by decide : "x-forwarded-proto" ≠ "forwarded")
  rw [mixed, present, forwardedHeaders, Request.otherFamily]
  cases hforValue : request.header "x-forwarded-for" <;>
    cases hhostValue : request.header "x-forwarded-host" <;>
      cases hprotoValue : request.header "x-forwarded-proto" <;>
        simp [hfor, hhost, hproto, hforValue, hhostValue, hprotoValue]

theorem partsOf_elements {elements : List String} (hne : elements ≠ [])
    (hplain : ∀ element ∈ elements, ',' ∉ element.toList) :
    partsOf (",".intercalate elements) = elements.map fun element => strip element.toList := by
  have hsplit : ([','].intercalate (elements.map String.toList)).splitOn ',' =
      elements.map String.toList := by
    apply List.splitOn_intercalate
    · intro text htext
      obtain ⟨element, helement, rfl⟩ := List.mem_map.mp htext
      exact hplain element helement
    · simpa using hne
  have hcomma : ",".toList = [','] := rfl
  rw [partsOf, String.toList_intercalate, hcomma, hsplit, List.map_map]
  rfl

/-! ### Prefixes -/

/-- The scheme and the host of the context are the same for all elements that stand in front of
an untrusted hop and trusted ones. -/
def PrefixIndependent (settings : NetworkSettings) (request : Request) (hop : String)
    (after : List String) : Prop :=
  ∀ front front' : List String, (∀ e ∈ front ++ front', ',' ∉ e.toList) →
    ∀ context context',
      requestNetworkContext settings (request.forwardedBy (front ++ hop :: after)) = .ok context →
      requestNetworkContext settings (request.forwardedBy (front' ++ hop :: after)) = .ok context' →
      context.scheme = context'.scheme ∧ context.host = context'.host

section Prefixes

variable {settings : NetworkSettings} {request : Request} {elements : List String}

theorem context_forwardedBy (htrusted : trustedPeer settings request = true)
    (hne : elements ≠ []) (hplain : ∀ element ∈ elements, ',' ∉ element.toList)
    (hfamily : request.otherFamily = false) :
    requestNetworkContext settings (request.forwardedBy elements) =
      match chainOf .forwarded (request.forwardedBy elements) settings.forwardedHopLimit
        (elements.map fun element => strip element.toList) with
      | none => .error forwardedHeadersInvalid
      | some chain => .ok {
          peer := peerText request
          client := (untrusted settings.trustedProxies chain.hops).getLast?.getD (chain.hops.headD "")
          scheme := chain.proto.getD request.scheme
          host := chain.host.or (request.header "host")
          forwarded := true } := by
  have htrusted' : trustedPeer settings (request.forwardedBy elements) = true := htrusted
  have hhost : (request.forwardedBy elements).header "host" = request.header "host" :=
    header_forwardedBy_of_ne (by decide) request elements
  have hline : (request.forwardedBy elements).header Grammar.forwarded.header =
    some (",".intercalate elements) := header_forwardedBy request elements
  have hcontext := context_eq htrusted' hline
  rw [mixed_forwardedBy, hfamily, if_neg Bool.false_ne_true, partsOf_elements hne hplain, hhost]
    at hcontext
  exact hcontext

theorem context_other_family (htrusted : trustedPeer settings request = true)
    (hfamily : request.otherFamily = true) :
    requestNetworkContext settings (request.forwardedBy elements) =
      .error forwardedHeadersInvalid := by
  have htrusted' : trustedPeer settings (request.forwardedBy elements) = true := htrusted
  have hline : (request.forwardedBy elements).header Grammar.forwarded.header =
    some (",".intercalate elements) := header_forwardedBy request elements
  rw [context_eq htrusted' hline, mixed_forwardedBy, hfamily, if_pos rfl]

/-- More elements than the limit are refused. -/
theorem context_too_long (htrusted : trustedPeer settings request = true)
    (hne : elements ≠ []) (hplain : ∀ element ∈ elements, ',' ∉ element.toList)
    (hfamily : request.otherFamily = false)
    (hlong : settings.forwardedHopLimit < elements.length) :
    requestNetworkContext settings (request.forwardedBy elements) =
      .error forwardedHeadersInvalid := by
  have hshape : settings.forwardedHopLimit <
      (elements.map fun element => strip element.toList).length := by
    rwa [List.length_map]
  rw [context_forwardedBy htrusted hne hplain hfamily, chainOf, if_pos (.inl hshape)]

theorem exists_mapM {α β : Type} {f : α → Option β} {l : List α} (h : ∀ a ∈ l, (f a).isSome = true) :
    ∃ read, l.mapM f = some read := by
  induction l with
  | nil => exact ⟨[], rfl⟩
  | cons a l ih =>
    obtain ⟨b, hb⟩ := Option.isSome_iff_exists.mp (h a List.mem_cons_self)
    obtain ⟨read, hread⟩ := ih fun a' ha' => h a' (List.mem_cons_of_mem a ha')
    exact ⟨b :: read, by rw [List.mapM_cons, hb, hread]; rfl⟩

/-- Elements that each name a hop are accepted with the scheme and the host of the first. -/
theorem context_accepted (htrusted : trustedPeer settings request = true)
    (hfamily : request.otherFamily = false) {first : String} {rest : List String}
    (hplain : ∀ element ∈ first :: rest, ',' ∉ element.toList)
    (hhops : ∀ element ∈ first :: rest, (Grammar.forwarded.hop (strip element.toList)).isSome = true)
    (hlimit : (first :: rest).length ≤ settings.forwardedHopLimit) {proto host : Option String}
    (hextras : extras .forwarded request (strip first.toList) = some (proto, host)) :
    ∃ context, requestNetworkContext settings (request.forwardedBy (first :: rest)) = .ok context ∧
      context.scheme = proto.getD request.scheme ∧
      context.host = host.or (request.header "host") := by
  have hread : ∀ part ∈ (first :: rest).map (fun element => strip element.toList),
      (Grammar.forwarded.hop part).isSome = true := by
    intro part hpart
    obtain ⟨element, helement, rfl⟩ := List.mem_map.mp hpart
    exact hhops element helement
  obtain ⟨hops, hmap⟩ := exists_mapM hread
  have hshape : ¬ (settings.forwardedHopLimit <
      ((first :: rest).map fun element => strip element.toList).length ∨
        [] ∈ (first :: rest).map fun element => strip element.toList) := by
    rintro (hlong | hempty)
    · rw [List.length_map] at hlong
      omega
    · have hnone := hread [] hempty
      revert hnone
      decide
  have hhead : ((first :: rest).map fun element => strip element.toList).headD [] =
    strip first.toList := rfl
  have hextras' : extras .forwarded (request.forwardedBy (first :: rest)) (strip first.toList) =
    some (proto, host) := hextras
  rw [context_forwardedBy htrusted (List.cons_ne_nil first rest) hplain hfamily, chainOf,
    if_neg hshape, hmap, hhead, hextras']
  exact ⟨_, rfl, rfl, rfl⟩

end Prefixes

/-- An element that a client can write, with either scheme. -/
def claimed (scheme : String) : String := "for=192.0.2.1;proto=" ++ scheme

/-- **Scheme and host are the first element's.**  What stands in front of a hop does not show in
them, if and only if nothing can stand there: the request is refused for its headers of the other
family, or the hop and those behind it use up the limit.  Whether the hops are trusted has no part
in it. -/
theorem prefix_independent_iff (settings : NetworkSettings) (request : Request) (hop : String)
    (after : List String) (htrusted : trustedPeer settings request = true)
    (hplain : ∀ e ∈ hop :: after, ',' ∉ e.toList)
    (hnames : ∀ e ∈ hop :: after, ∃ a, Grammar.forwarded.names e a) :
    PrefixIndependent settings request hop after ↔
      request.otherFamily = true ∨ settings.forwardedHopLimit < after.length + 2 := by
  constructor
  · intro hsame
    cases hfamily : request.otherFamily with
    | true => exact .inl rfl
    | false =>
      refine .inr (Nat.lt_of_not_le fun hlimit => ?_)
      -- two clients that write one element each
      have hwritten (scheme : String) (hscheme : scheme ∈ ["http", "https"]) :
          ∃ context, requestNetworkContext settings
              (request.forwardedBy ([claimed scheme] ++ hop :: after)) = .ok context ∧
            context.scheme = scheme := by
        have hclaimed : ∀ scheme ∈ ["http", "https"], ',' ∉ (claimed scheme).toList ∧
            (Grammar.forwarded.hop (strip (claimed scheme).toList)).isSome = true ∧
            extras .forwarded request (strip (claimed scheme).toList) = some (some scheme, none) := by
          intro scheme hscheme
          rcases List.mem_pair.mp hscheme with rfl | rfl
          · exact ⟨by decide, by decide, by rfl⟩
          · exact ⟨by decide, by decide, by rfl⟩
        obtain ⟨hcomma, hhop, hextras⟩ := hclaimed scheme hscheme
        obtain ⟨context, hcontext, hfound, -⟩ := context_accepted htrusted hfamily
          (List.forall_mem_cons.mpr ⟨hcomma, hplain⟩)
          (List.forall_mem_cons.mpr ⟨hhop, fun e he => by
            obtain ⟨a, ha⟩ := hnames e he
            exact Option.isSome_iff_exists.mpr ⟨a.str, ha⟩⟩)
          (by rw [List.length_cons, List.length_cons]; exact hlimit) hextras
        exact ⟨context, hcontext, hfound⟩
      have hplain' : ∀ e ∈ [claimed "http"] ++ [claimed "https"], ',' ∉ e.toList := by decide
      obtain ⟨context, hcontext, hscheme⟩ := hwritten "http" (by decide)
      obtain ⟨context', hcontext', hscheme'⟩ := hwritten "https" (by decide)
      have hequal := (hsame _ _ hplain' context context' hcontext hcontext').1
      rw [hscheme, hscheme'] at hequal
      revert hequal
      decide
  · rintro hfull front front' hfront context context' hcontext hcontext'
    -- no element fits in front of the hop
    have hempty {front : List String} (hfront : ∀ e ∈ front, ',' ∉ e.toList)
        {context : RequestNetworkContext} (hcontext : requestNetworkContext settings
          (request.forwardedBy (front ++ hop :: after)) = .ok context) : front = [] := by
      cases hfamily : request.otherFamily with
      | true =>
        rw [context_other_family htrusted hfamily] at hcontext
        cases hcontext
      | false =>
        have hlimit := hfull.resolve_left (by rw [hfamily]; exact Bool.false_ne_true)
        by_contra hne
        have hsome := List.length_pos_iff.mpr hne
        have hlong : settings.forwardedHopLimit < (front ++ hop :: after).length := by
          rw [List.length_append, List.length_cons]
          omega
        have hcommas : ∀ e ∈ front ++ hop :: after, ',' ∉ e.toList := by
          intro e he
          cases List.mem_append.mp he with
          | inl he => exact hfront e he
          | inr he => exact hplain e he
        rw [context_too_long htrusted (by simp) hcommas hfamily hlong] at hcontext
        cases hcontext
    have hnone := hempty (fun e he => hfront e (List.mem_append_left _ he)) hcontext
    have hnone' := hempty (fun e he => hfront e (List.mem_append_right _ he)) hcontext'
    rw [hnone] at hcontext
    rw [hnone', hcontext] at hcontext'
    cases hcontext'
    exact ⟨rfl, rfl⟩

/-! ### A request through a proxy -/

/-- The proxy is the peer; its own element is the last one. -/
def proxied : Request := { clientHost := some "127.0.0.1", headers := [("host", "deck.local")] }

def farHop : String := "for=203.0.113.9;proto=https;host=deck.example"

theorem prefix_independent_iff_single :
    PrefixIndependent { localProxy with forwardedHopLimit := 1 } proxied farHop [] ↔
      proxied.otherFamily = true ∨ 1 < 2 :=
  prefix_independent_iff { localProxy with forwardedHopLimit := 1 } proxied farHop [] (by decide)
    (by decide) (by
      intro e he
      rw [List.mem_singleton.mp he]
      exact ⟨.v4 3405803785, by unfold Grammar.names; decide⟩)

/-- What the untrusted hop forwarded replaces the scheme and the host that the proxy saw. -/
theorem prefix_chooses :
    ¬ PrefixIndependent localProxy proxied farHop [] := by
  intro hsame
  have hseen : requestNetworkContext localProxy (proxied.forwardedBy [farHop]) =
      .ok ⟨"127.0.0.1", "203.0.113.9", "https", some "deck.example", true⟩ := by decide
  have hclaimed : requestNetworkContext localProxy
      (proxied.forwardedBy ["for=10.0.0.1;proto=http;host=evil.example", farHop]) =
      .ok ⟨"127.0.0.1", "203.0.113.9", "http", some "evil.example", true⟩ := by decide
  have hequal := hsame [] ["for=10.0.0.1;proto=http;host=evil.example"] (by decide) _ _ hseen
    hclaimed
  revert hequal
  decide

end MachineDeck.Auth

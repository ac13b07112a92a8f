import MachineDeck.IpAddress
import MachineDeck.LineText

/-!
# Who a request comes from

The part of `security/auth.py` that reads forwarding headers.

* `Settings`, `Request`, `RequestNetworkContext`, `HttpError`;
* `address` — one hop, with its quotes, brackets and port;
* `forwardedChain`, `xForwardedChain` — the two header grammars;
* `requestNetworkContext` — peer, client, scheme and host of a request.

A `ValueError` inside the parsers is `none`; the caller turns each into one response.  Header
texts are Latin-1, which is what `lowerChar` and `isDigit` know of case and digits.
-/

namespace MachineDeck.Auth

open IpAddress (Address Network ipAddress)
open LineText (strip stripBy)

/-- The settings the network context reads. -/
structure NetworkSettings where
  trustedProxies : List Network
  trustedNetworks : List Network := []
  forwardedHopLimit : ℕ := 8

/-- A request, its headers in order under their lower-case names. -/
structure Request where
  clientHost : Option String
  scheme : String := "http"
  method : String := "GET"
  headers : List (String × String) := []
  cookies : List (String × String) := []

/-- `request.headers.get`: the first line of that name. -/
def Request.header (request : Request) (name : String) : Option String :=
  (request.headers.find? fun line => line.1 == name).map Prod.snd

structure RequestNetworkContext where
  peer : String
  client : String
  scheme : String
  host : Option String
  forwarded : Bool := false
  deriving DecidableEq, Repr

/-- `HTTPException` with its detail. -/
structure HttpError where
  status : ℕ
  code : String
  message : String
  deriving DecidableEq, Repr

def forwardedHeaders : List String :=
  ["forwarded", "x-forwarded-for", "x-forwarded-host", "x-forwarded-proto"]

/-! ### One hop -/

def lowerChar (c : Char) : Char :=
  if 0xC0 ≤ c.toNat ∧ c.toNat ≤ 0xDE ∧ c.toNat ≠ 0xD7 then Char.ofNat (c.toNat + 32)
  else c.toLower

def lower (text : List Char) : List Char := text.map lowerChar

/-- `isdigit`, of a text that is not empty. -/
def isDigit (text : List Char) : Bool :=
  !text.isEmpty && text.all fun c => c.isDigit || c == '²' || c == '³' || c == '¹'

def unquoted (text : List Char) : List Char := stripBy (· == '"') (strip text)

/-- What stands behind the bracket: nothing or a port. -/
def portSuffix : List Char → Bool
  | [] => true
  | ':' :: port => isDigit port
  | _ => false

/-- The text before the last colon and the text behind it. -/
def rpartitionColon (text : List Char) : Option (List Char × List Char) :=
  match text.reverse.span (· ≠ ':') with
  | (_, []) => none
  | (port, _ :: front) => some (front.reverse, port.reverse)

def address (value : List Char) : Option Address :=
  let candidate := unquoted value
  if candidate = [] ∨ lower candidate = "unknown".toList ∨ candidate.head? = some '_' then none
  else
    match candidate with
    | '[' :: rest =>
      match rest.span (· ≠ ']') with
      | (_, []) => none
      | (text, _ :: suffix) => if portSuffix suffix then IpAddress.readAddress text else none
    | _ =>
      match IpAddress.readAddress candidate with
      | some a => some a
      | none =>
        match rpartitionColon candidate with
        | some (text, port) => if isDigit port then IpAddress.readAddress text else none
        | none => none

/-! ### The two grammars -/

def validForwardedHost (value : List Char) : Option String :=
  let host := unquoted value
  if host = [] ∨ 255 < host.length ∨
      host.any fun c => "/\\@#?\r\n".toList.contains c then none
  else some (String.ofList host)

/-- The elements of a header, at most `limit` and none of them empty. -/
def elements (value : String) (limit : ℕ) : Option (List (List Char)) :=
  let elements := (value.toList.splitOn ',').map strip
  if elements = [] ∨ limit < elements.length ∨ [] ∈ elements then none else some elements

/-- The parameters of an element, each name once. -/
def parameters (element : List Char) : Option (List (List Char × List Char)) :=
  (element.splitOn ';').foldlM (fun parameters part =>
    match (strip part).span (· ≠ '=') with
    | (_, []) => none
    | (key, _ :: raw) =>
      let key := lower key
      if key = [] ∨ raw = [] ∨ key ∈ parameters.map Prod.fst then none
      else some (parameters ++ [(key, strip raw)])) []

def parameter? (parameters : List (List Char × List Char)) (key : String) :
    Option (List Char) :=
  parameters.lookup key.toList

/-- The hop of an element of `Forwarded`, with the element's parameters. -/
def forwardedElement (element : List Char) :
    Option (String × List (List Char × List Char)) := do
  let parameters ← parameters element
  let node ← parameter? parameters "for"
  let hop ← address node
  return (hop.str, parameters)

def validScheme (scheme : List Char) : Option String :=
  if scheme = "http".toList ∨ scheme = "https".toList then some (String.ofList scheme) else none

/-- An optional value through a check that fails as a whole. -/
def checked (value : Option (List Char)) (check : List Char → Option String) :
    Option (Option String) :=
  match value with
  | none => some none
  | some value => (check value).map some

structure Chain where
  hops : List String
  proto : Option String
  host : Option String

def forwardedChain (value : String) (limit : ℕ) : Option Chain := do
  let elements ← elements value limit
  let parsed ← elements.mapM forwardedElement
  let first := (parsed.head?.map Prod.snd).getD []
  let proto ← checked (parameter? first "proto") fun value => validScheme (lower (unquoted value))
  let host ← checked ((parameter? first "host").filter (· ≠ [])) validForwardedHost
  return ⟨parsed.map Prod.fst, proto, host⟩

def xForwardedHop (part : List Char) : Option String := (address part).map Address.str

def xForwardedChain (request : Request) (limit : ℕ) : Option Chain := do
  let value ← (request.header "x-forwarded-for").filter (· ≠ "")
  let parts ← elements value limit
  let hops ← parts.mapM xForwardedHop
  let proto ← checked ((request.header "x-forwarded-proto").map String.toList) fun value =>
    if ',' ∈ value then none else validScheme (lower (strip value))
  let host ← checked ((request.header "x-forwarded-host").map String.toList) fun value =>
    if ',' ∈ value then none else validForwardedHost value
  return ⟨hops, proto, host⟩

/-! ### The context -/

def inNetworks (a : Address) (networks : List Network) : Bool :=
  networks.any fun network => network.contains a

/-- The first hop outside the networks, none where every hop is inside. -/
def firstOutside (networks : List Network) : List String → Option (Option String)
  | [] => some none
  | hop :: hops => do
    let a ← ipAddress hop
    if inNetworks a networks then firstOutside networks hops else some (some hop)

/-- The nearest untrusted hop; the farthest hop where all are trusted. -/
def chainClient (networks : List Network) (hops : List String) : Option String := do
  let outside ← firstOutside networks hops.reverse
  return outside.getD (hops.headD "")

def forwardedHeadersInvalid : HttpError :=
  ⟨400, "FORWARDED_HEADERS_INVALID", "Trusted proxy supplied malformed forwarding headers"⟩

/-- The chain of the headers that are present; the two families are not mixed. -/
def headerChain (settings : NetworkSettings) (request : Request) (present : List String) :
    Option Chain :=
  if "forwarded" ∈ present then
    if present.any (· ≠ "forwarded") then none
    else forwardedChain ((request.header "forwarded").getD "") settings.forwardedHopLimit
  else xForwardedChain request settings.forwardedHopLimit

def rawPeer (request : Request) : String := request.clientHost.getD "unknown"

def requestNetworkContext (settings : NetworkSettings) (request : Request) :
    Except HttpError RequestNetworkContext :=
  match address (rawPeer request).toList with
  | none => .ok ⟨rawPeer request, rawPeer request, request.scheme, none, false⟩
  | some peer =>
    let context : RequestNetworkContext :=
      ⟨peer.str, peer.str, request.scheme, request.header "host", false⟩
    if !inNetworks peer settings.trustedProxies then .ok context
    else
      let present := forwardedHeaders.filter fun name => (request.header name).isSome
      if present = [] then .ok context
      else
        match (headerChain settings request present).bind fun chain =>
          (chainClient settings.trustedProxies chain.hops).map fun client => (chain, client) with
        | none => .error forwardedHeadersInvalid
        | some (chain, client) =>
          .ok ⟨peer.str, client, chain.proto.getD context.scheme, chain.host.or context.host, true⟩

end MachineDeck.Auth

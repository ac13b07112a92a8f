import MachineDeck.IpAddress
import MachineDeck.JsonText

/-!
# IP networks

`ip_network`, and what `ipaddress` says of addresses of special use.

* `CanonicalNetwork` — an address without host bits and the length of its network part;
* `ipNetwork` — the reader: a length, for IPv4 also a netmask or a hostmask;
* `readLooseNetwork` — the reader with `strict=False`, which drops the host bits;
* `CanonicalNetwork.subnetOf` — one network lies in another.
-/

namespace IpAddress

def Address.width : Address → ℕ
  | .v4 _ => 32
  | .v6 _ _ => 128

def Address.number : Address → ℕ
  | .v4 value => value.val
  | .v6 value _ => value.val

/-- 0.0.0.0 and ::. -/
def Address.isUnspecified (address : Address) : Bool := address.number == 0

/-- 169.254.0.0/16 and fe80::/10. -/
def Address.isLinkLocal : Address → Bool
  | .v4 value => value.val / 2 ^ 16 == 43518
  | .v6 value _ => value.val / 2 ^ 118 == 1018

structure CanonicalNetwork where
  address : Address
  length : ℕ
  bounded : length ≤ address.width
  canonical : 2 ^ (address.width - length) ∣ address.number
  deriving DecidableEq

def CanonicalNetwork.numAddresses (network : CanonicalNetwork) : ℕ :=
  2 ^ (network.address.width - network.length)

/-- A length in decimal digits. -/
def lengthOfText (width : ℕ) (text : List Char) : Option ℕ :=
  let value := JsonText.digitsValue text
  if text ≠ [] ∧ text.all Char.isDigit ∧ text.length ≤ JsonText.intMaxStrDigits ∧ value ≤ width then
    some value
  else none

/-- The number of leading ones, where only zeros follow them. -/
def lengthOfMask (mask : ℕ) : Option ℕ :=
  (List.range 33).find? fun length => mask == 2 ^ 32 - 2 ^ (32 - length)

def lengthV4 (text : List Char) : Option ℕ :=
  lengthOfText 32 text <|>
    (readV4 text).bind fun mask => lengthOfMask mask <|> lengthOfMask (2 ^ 32 - 1 - mask)

def Address.network (address : Address) (length : ℕ) : Option CanonicalNetwork :=
  if h : length ≤ address.width ∧ 2 ^ (address.width - length) ∣ address.number then
    some ⟨address, length, h.1, h.2⟩
  else none

def readNetwork (text : List Char) : Option CanonicalNetwork :=
  match text.splitOn '/' with
  | [address] => do
    let address ← readAddress address
    address.network address.width
  | [address, length] =>
    match readAddress address with
    | some (.v4 value) => (lengthV4 length).bind (Address.v4 value).network
    | some (.v6 value zone) => (lengthOfText 128 length).bind (Address.v6 value zone).network
    | none => none
  | _ => none

def ipNetwork (text : String) : Option CanonicalNetwork := readNetwork text.toList

/-- Where there are host bits they are dropped, and the zone with them. -/
def Address.looseNetwork (address : Address) (length : ℕ) : Option CanonicalNetwork :=
  (address.network length).or <|
    match address with
    | .v4 value =>
      (Address.v4 ⟨value.val / 2 ^ (32 - length) * 2 ^ (32 - length),
        (Nat.div_mul_le_self _ _).trans_lt value.isLt⟩).network length
    | .v6 value _ =>
      (Address.v6 ⟨value.val / 2 ^ (128 - length) * 2 ^ (128 - length),
        (Nat.div_mul_le_self _ _).trans_lt value.isLt⟩ none).network length

/-- `ip_network(text, strict=False)`. -/
def readLooseNetwork (text : List Char) : Option CanonicalNetwork :=
  match text.splitOn '/' with
  | [address] => do
    let address ← readAddress address
    address.network address.width
  | [address, length] =>
    match readAddress address with
    | some (.v4 value) => (lengthV4 length).bind (Address.v4 value).looseNetwork
    | some (.v6 value zone) => (lengthOfText 128 length).bind (Address.v6 value zone).looseNetwork
    | none => none
  | _ => none

/-- The number of the last address. -/
def CanonicalNetwork.last (network : CanonicalNetwork) : ℕ :=
  network.address.number + (network.numAddresses - 1)

/-- `network.subnet_of(other)`, of networks of one version. -/
def CanonicalNetwork.subnetOf (network other : CanonicalNetwork) : Prop :=
  network.address.width = other.address.width ∧
    other.address.number ≤ network.address.number ∧ network.last ≤ other.last

instance (network other : CanonicalNetwork) : Decidable (network.subnetOf other) :=
  inferInstanceAs (Decidable (_ ∧ _ ∧ _))

/-- The first address and the last are loopback addresses. -/
def CanonicalNetwork.isLoopback (network : CanonicalNetwork) : Bool :=
  network.address.isLoopback &&
    match network.address with
    | .v4 _ => network.last / 2 ^ 24 == 127
    | .v6 _ _ => network.last == 1

def CanonicalNetwork.str (network : CanonicalNetwork) : String :=
  network.address.str ++ "/" ++ toString network.length

example : (ipNetwork "10.0.0.0/255.255.0.0").map CanonicalNetwork.length = some 16 := by
  decide +kernel
example : (ipNetwork "fe80::%eth0/64").map CanonicalNetwork.numAddresses = some (2 ^ 64) := by
  decide +kernel
example : ipNetwork "10.0.0.1/24" = none := by decide +kernel
example : (readLooseNetwork "10.0.0.1/24".toList).map CanonicalNetwork.str = some "10.0.0.0/24" := by
  decide +kernel

end IpAddress

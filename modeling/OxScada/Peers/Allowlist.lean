import OxScada.Bytes.Bits
import OxScada.Edge.Records
import OxScada.Order.SortedCover

/-! The allowlist of the listeners whose protocol has no authentication. An IPv6 address that
stands for an IPv4 address is that IPv4 address. -/

namespace OxScada.Peers
open OxScada.Bytes OxScada.Js OxScada.Edge OxScada.Order

inductive IpFamily where
  | v4 | v6
  deriving DecidableEq

def IpFamily.text : IpFamily → Text
  | .v4 => ['4']
  | .v6 => ['6']

structure NormalizedAddress where
  family : IpFamily
  bytes : Buffer
  deriving DecidableEq

structure PeerRule extends NormalizedAddress where
  /-- `prefix` -/
  prefixLength : ℕ
  source : Text
  deriving DecidableEq

/-! ### Addresses -/

def trim (text : Text) : Text := ((text.dropWhile isSpace).reverse.dropWhile isSpace).reverse

def digitsValue (base : ℕ) (digits : Text) : ℕ := digits.foldl (fun value c => value * base + (hexValue c).getD 0) 0

def isV4Segment (segment : Text) : Bool :=
  segment ≠ [] && segment.all Char.isDigit && (segment.length = 1 || segment.head? ≠ some '0') && digitsValue 10 segment ≤ 255

def isV6Segment (segment : Text) : Bool := segment ≠ [] && segment.length ≤ 4 && segment.all fun c => (hexValue c).isSome

def isIPv4 (addr : Text) : Bool := (addr.splitOn '.').length = 4 && (addr.splitOn '.').all isV4Segment

def splitDoubleColon : Text → Option (Text × Text)
  | ':' :: ':' :: rest => some ([], rest)
  | c :: rest => (splitDoubleColon rest).map fun (head, tail) => (c :: head, tail)
  | [] => none

/-- The groups of a part of an address, with an IPv4 address as the last one where `last` allows
it, and the words that they stand for. -/
def groupWords (last : Bool) : List Text → Option ℕ
  | [] => some 0
  | [group] => if isV6Segment group then some 1 else if last && isIPv4 group then some 2 else none
  | group :: rest => if isV6Segment group then (groupWords last rest).map (· + 1) else none

def partGroups (part : Text) : List Text := if part = [] then [] else part.splitOn ':'

def isIPv6 (addr : Text) : Bool :=
  match splitDoubleColon addr with
  | none => groupWords true (addr.splitOn ':') = some 8
  | some (head, tail) =>
    match groupWords false (partGroups head), groupWords true (partGroups tail) with
    | some headWords, some tailWords => headWords + tailWords ≤ 7
    | _, _ => false

def ipv4ToBytes (addr : Text) : Option Buffer :=
  if isIPv4 addr then some (((addr.splitOn '.').take 4).map fun part => UInt8.ofNat (digitsValue 10 part)) else none

/-- The words of the groups. A group with a dot is an IPv4 address. -/
def expand : List Text → Option (List ℕ)
  | [] => some []
  | group :: rest =>
    if '.' ∈ group then
      match ipv4ToBytes group with
      | none => none
      | some v4 => (expand rest).map fun words => bigEndian (v4.take 2) :: bigEndian (v4.drop 2) :: words
    else if digitsValue 16 group ≤ 0xffff then (expand rest).map fun words => digitsValue 16 group :: words
    else none

def wordBytes (word : ℕ) : Buffer := [UInt8.ofNat (word / 256), UInt8.ofNat word]

def ipv6ToBytes (addr : Text) : Option Buffer :=
  if isIPv6 addr then
    let groups := match splitDoubleColon addr with
      | some (head, tail) => ((head.splitOn ':').filter (· ≠ []), (tail.splitOn ':').filter (· ≠ []))
      | none => (addr.splitOn ':', [])
    match expand groups.1, expand groups.2 with
    | some headWords, some tailWords =>
      if 8 < headWords.length + tailWords.length then none
      else if splitDoubleColon addr = none ∧ headWords.length + tailWords.length ≠ 8 then none
      else some ((headWords ++ List.replicate (8 - headWords.length - tailWords.length) 0 ++ tailWords).flatMap wordBytes)
    | _, _ => none
  else none

def mappedFront : Buffer := [0, 0, 0, 0, 0, 0, 0, 0, 0, 0, 0xff, 0xff]

def isV4Mapped (bytes : Buffer) : Bool := bytes.length = 16 && bytes.take 12 = mappedFront

/-- An address without the zone and without white space around it. -/
def bare (input : Text) : Text := trim ((input.splitOn '%').headD [])

def normalizeAddress (input : Text) : Option NormalizedAddress :=
  let addr := bare input
  if addr = [] then none
  else match ipv4ToBytes addr with
    | some v4 => some ⟨.v4, v4⟩
    | none =>
      match ipv6ToBytes addr with
      | none => none
      | some v6 => if isV4Mapped v6 then some ⟨.v4, v6.drop 12⟩ else some ⟨.v6, v6⟩

/-! ### Rules -/

/-- `source.lastIndexOf("/")` with what is before and after it. -/
def splitLastSlash (source : Text) : Option (Text × Text) :=
  match source.reverse.idxOf? '/' with
  | none => none
  | some i => some ((source.reverse.drop (i + 1)).reverse, (source.reverse.take i).reverse)

def IpFamily.maxPrefix : IpFamily → ℕ
  | .v4 => 32
  | .v6 => 128

def quoted (source : Text) : Text := '"' :: source ++ ['"']

/-- The prefix length of a rule. A prefix of an IPv4 address in the notation of IPv6 is rebased. -/
def parsePrefix (source addrPart : Text) (family : IpFamily) : Option Text → Except Text ℕ
  | none => .ok family.maxPrefix
  | some prefixPart =>
    if ¬ (1 ≤ prefixPart.length ∧ prefixPart.length ≤ 3 ∧ prefixPart.all Char.isDigit = true) then
      .error (quoted source ++ " has a non-numeric prefix length".toList)
    else
      let given := digitsValue 10 prefixPart
      let rebased := family = .v4 && isIPv6 (bare addrPart)
      if rebased = true ∧ given < 96 then
        .error (quoted source ++ " maps into the IPv4 space; its prefix must be >= 96".toList)
      else
        let prefixLength := if rebased = true then given - 96 else given
        if family.maxPrefix < prefixLength then
          .error (quoted source ++ " prefix length ".toList ++ prefixPart ++ " exceeds /".toList ++ Nat.toDigits 10 family.maxPrefix)
        else .ok prefixLength

def parsePeerRule (entry : Text) : Except Text PeerRule :=
  let source := trim entry
  if source = [] then .error "empty allowlist entry".toList
  else
    let parts := splitLastSlash source
    let addrPart := (parts.map Prod.fst).getD source
    match normalizeAddress addrPart with
    | none => .error (quoted source ++ " is not a valid IPv4/IPv6 address or CIDR".toList)
    | some normalized =>
      match parsePrefix source addrPart normalized.family (parts.map Prod.snd) with
      | .error message => .error message
      | .ok prefixLength =>
        if prefixLength = 0 then
          .error (quoted source ++ (" allows every peer. This listener serves a protocol with no client authentication, so a " ++
            "wildcard allowlist is refused; list the specific master IPs or subnets.").toList)
        else .ok { normalized with prefixLength, source }

def PeerRule.range (rule : PeerRule) : Interval :=
  let size := 2 ^ (rule.family.maxPrefix - rule.prefixLength)
  -- the bits below the size are cleared
  let start := bigEndian rule.bytes / size * size
  ⟨start, start + size - 1⟩

def coversWholeFamily (rules : List PeerRule) (family : IpFamily) : Bool :=
  match ((rules.filter (·.family = family)).map PeerRule.range).insertionSort (·.start ≤ ·.start) with
  | [] => false
  | first :: rest => first.start = 0 && walk first.stop rest = some (2 ^ family.maxPrefix - 1)

def joined (sources : List Text) : Text := ", ".toList.intercalate sources

def refuseWildcard (rules : List PeerRule) (family : IpFamily) : Except Text Unit :=
  if coversWholeFamily rules family then
    .error ('[' :: joined ((rules.filter (·.family = family)).map (·.source)) ++ "] together allow every IPv".toList ++ family.text ++
      (" peer. This listener serves a protocol with no client authentication, so a wildcard allowlist is refused however it is " ++
        "spelled; list the specific master IPs or subnets.").toList)
  else .ok ()

def parsePeerRules (entries : List Text) : Except Text (List PeerRule) := do
  let rules ← entries.mapM parsePeerRule
  refuseWildcard rules .v4
  refuseWildcard rules .v6
  return rules

def inNetwork (addr : NormalizedAddress) (rule : PeerRule) : Bool :=
  if addr.family ≠ rule.family then false
  else
    let fullBytes := rule.prefixLength >>> 3
    if (List.range fullBytes).any fun i => (addr.bytes.getD i 0).toNat ^^^ (rule.bytes.getD i 0).toNat ≠ 0 then false
    else
      let remainingBits := rule.prefixLength &&& 7
      if remainingBits = 0 then true
      else
        let mask := (0xff <<< (8 - remainingBits)) &&& 0xff
        ((addr.bytes.getD fullBytes 0).toNat ^^^ (rule.bytes.getD fullBytes 0).toNat) &&& mask = 0

def isPeerAllowed (remoteAddress : Option Text) (rules : List PeerRule) : Bool :=
  match remoteAddress with
  | none => false
  | some remoteAddress =>
    if remoteAddress = [] ∨ rules = [] then false
    else match normalizeAddress remoteAddress with
      | none => false
      | some addr => rules.any (inNetwork addr)

end OxScada.Peers

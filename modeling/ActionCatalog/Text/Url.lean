import ActionCatalog.Text.Digit
import ActionCatalog.Text.Piece

/-! Which texts are absolute URLs, in the sense of the URL standard. -/
namespace ActionCatalog.Text.Url

def specialSchemes : List (List Char) :=
  ["ftp".toList, "http".toList, "https".toList, "ws".toList, "wss".toList]

def isSchemeChar (c : Char) : Bool := c.isAlphanum || c = '+' || c = '-' || c = '.'

def isForbiddenInHost (c : Char) : Bool :=
  c ∈ ['\x00','\t','\n','\r',' ','#','/',':','<','>','?','@','[','\\',']','^','|']

def isForbiddenInDomain (c : Char) : Bool :=
  isForbiddenInHost c || c.toNat < 32 || c.toNat = 127 || c = '%'

/-- Decodes the bytes that percent signs introduce, as far as they stand for ASCII. -/
def decode : List Char → List Char
  | '%' :: a :: b :: rest =>
    match natural? 16 [a,b] with
    | some n => if n < 128 then Char.ofNat n :: decode rest else 'x' :: decode rest
    | none => '%' :: decode (a :: b :: rest)
  | c :: rest => c :: decode rest
  | [] => []

def isNumeric (s : List Char) : Bool :=
  match s with
  | '0' :: 'x' :: ds => ds.all fun c => (digit? 16 c).isSome
  | ds => !ds.isEmpty && ds.all Char.isDigit

/-- The number of one part of an IPv4 address: decimal, octal after a zero, hexadecimal after `0x`. -/
def ipv4Part? (s : List Char) : Option Nat :=
  match s with
  | '0' :: 'x' :: ds => if ds.isEmpty then some 0 else natural? 16 ds
  | '0' :: d :: ds => natural? 8 (d :: ds)
  | ds => natural? 10 ds

def isIpv4 (parts : List (List Char)) : Bool :=
  match parts.mapM ipv4Part? with
  | none => false
  | some ns => ns.length ≤ 4 && ns.dropLast.all (· < 256) && ns.getLast?.any (· < Nat.pow 256 (5 - ns.length))

/-- Groups of an IPv6 address; a pair of colons stands once for groups left out. -/
def isIpv6 (s : List Char) : Bool :=
  let groups := splitWhere (· = ':') s
  let full := groups.filter (!·.isEmpty)
  let gaps := groups.length - full.length
  full.all (fun g => g.length ≤ 4 && (natural? 16 g).isSome)
    && ((gaps = 0 && full.length = 8)
      || (gaps = 1 && full.length < 8 && groups.head?.any (!·.isEmpty) && groups.getLast?.any (!·.isEmpty))
      || (gaps = 2 && full.length < 8 && (groups.head?.any List.isEmpty ≠ groups.getLast?.any List.isEmpty)
        && ((groups.drop 1).head?.any List.isEmpty || (groups.dropLast).getLast?.any List.isEmpty))
      || (gaps = 3 && full.isEmpty))

def isDomain (s : List Char) : Bool :=
  let s := (decode s).map Char.toLower
  let labels := splitWhere (· = '.') s
  let labels := if labels.length > 1 && labels.getLast?.any List.isEmpty then labels.dropLast else labels
  !s.isEmpty && !s.any isForbiddenInDomain
    && (!(labels.getLast?.any isNumeric) || isIpv4 labels)

def isPort (s : List Char) : Bool := s.all Char.isDigit && decimalValue s < 65536

/-- Whether `user@host:port` is sound, with a domain or any other host. -/
def isAuthority (special : Bool) (s : List Char) : Bool :=
  let behindUser := (s.reverse.takeWhile (· ≠ '@')).reverse
  let hasUser := behindUser.length < s.length
  match behindUser with
  | '[' :: rest =>
    let behind := rest.dropWhile (· ≠ ']')
    isIpv6 (rest.takeWhile (· ≠ ']')) && match behind with
      | [']'] => true
      | ']' :: ':' :: port => isPort port
      | _ => false
  | _ =>
    let host := behindUser.takeWhile (· ≠ ':')
    let port := (behindUser.dropWhile (· ≠ ':')).drop 1
    isPort port && if special then isDomain host
      else !host.any isForbiddenInHost && (!host.isEmpty || (!hasUser && !(':' ∈ behindUser)))

def isAbsolute (text : String) : Bool :=
  let isEdge : Char → Bool := fun c => c.toNat ≤ 32
  let s := ((text.toList.dropWhile isEdge).reverse.dropWhile isEdge).reverse
  let s := s.filter fun c => c ≠ '\t' && c ≠ '\n' && c ≠ '\r'
  let scheme := (s.takeWhile isSchemeChar).map Char.toLower
  let behind := s.drop scheme.length
  if !(scheme.head?.any Char.isAlpha) || behind.head? ≠ some ':' then false
  else
    let body := behind.drop 1
    if specialSchemes.contains scheme then
      let body := body.dropWhile fun c => c = '/' || c = '\\'
      isAuthority true (body.takeWhile fun c => c ∉ ['/','\\','?','#'])
    else if scheme = "file".toList then true
    else match body with
      | '/' :: '/' :: body => isAuthority false (body.takeWhile fun c => c ∉ ['/','?','#'])
      | _ => true

end ActionCatalog.Text.Url

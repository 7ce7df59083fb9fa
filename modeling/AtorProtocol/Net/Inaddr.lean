import AtorProtocol.Encoding.Binascii
import AtorProtocol.Encoding.Scanf
import Mathlib.Data.List.DropRight

/-!
# Addresses as text

`tor_inet_ntop` and `tor_inet_pton` of `src/lib/net/inaddr.c`.

* `torInetNtoa`, `torInetAton` — an IPv4 address as a dotted quad.
* `torInetNtop6` — an IPv6 address: a dotted quad at the end, or the longest gap left out.
* `torInetPton6` — the way back; `ptonLoop` is its loop over the words.
-/

namespace Ator.Inaddr

open Text List

/-- `struct in_addr`, in network order. -/
structure InAddr where
  a : UInt8
  b : UInt8
  c : UInt8
  d : UInt8
deriving DecidableEq

/-- `struct in6_addr` -/
structure In6Addr where
  s6Addr : Bytes
  length_eq : s6Addr.length = 16
deriving DecidableEq

/-! ## IPv4 -/

/-- `"%d.%d.%d.%d"` -/
def dottedQuad (a b c d : UInt8) : List Char :=
  ['.'].intercalate [decimal a.toNat, decimal b.toNat, decimal c.toNat, decimal d.toNat]

def torInetNtoa (addr : InAddr) : List Char := dottedQuad addr.a addr.b addr.c addr.d

/-- `"%3u.%3u.%3u.%3u%c"` -/
def quadPattern : List Directive :=
  [.unsigned (some 3), .lit '.', .unsigned (some 3), .lit '.', .unsigned (some 3), .lit '.',
    .unsigned (some 3), .char]

/-- The four numbers of a quad, each at most 255. -/
def scanQuad (str : List Char) : Option InAddr :=
  match torSscanf quadPattern str with
  | [.num a, .num b, .num c, .num d] =>
    if a > 255 ∨ b > 255 ∨ c > 255 ∨ d > 255 then none
    else some ⟨a.toUInt8, b.toUInt8, c.toUInt8, d.toUInt8⟩
  | _ => none

def isOctal (octet : List Char) : Bool := octet.length > 1 ∧ octet.head? = some '0'

def torInetAton (str : List Char) : Option InAddr :=
  if (str.splitOn '.').any isOctal then none else scanQuad str

/-! ## IPv6 -/

/-- `words` of an address. -/
def wordsOf : Bytes → List ℕ
  | hi :: lo :: bytes => (hi.toNat * 256 + lo.toNat) :: wordsOf bytes
  | _ => []

/-- The bytes of `words`. -/
def bytesOfWords (words : List ℕ) : Bytes :=
  words.flatMap fun w => [(w / 256).toUInt8, (w % 256).toUInt8]

/-- `%x` -/
abbrev hexadecimal (n : ℕ) : List Char := Nat.toDigits 16 n

/-- The search for the longest gap, from word `i` on. -/
def longestGap (i longestGapLen : ℕ) (longestGapPos : Option ℕ) : List ℕ → ℕ × Option ℕ
  | [] => (longestGapLen, longestGapPos)
  | w :: words =>
    if w = 0 then
      let curGapLen := 1 + (words.takeWhile (· = 0)).length
      if curGapLen > longestGapLen then
        longestGap (i + curGapLen) curGapLen (some i) (words.dropWhile (· = 0))
      else longestGap (i + curGapLen) longestGapLen longestGapPos (words.dropWhile (· = 0))
    else longestGap (i + 1) longestGapLen longestGapPos words
termination_by words => words.length
decreasing_by
  all_goals
    have := (dropWhile_sublist (· = 0) (l := words)).length_le
    simp only [length_cons]
    omega

/-- Where the gap is, if one is left out. -/
def gapPos (words : List ℕ) : Option ℕ :=
  let (longestGapLen, longestGapPos) := longestGap 0 0 none words
  if longestGapLen ≤ 1 then none else longestGapPos

/-- The loop that writes the words, from word `i` on. -/
def formatWords (gap : Option ℕ) (i : ℕ) : List ℕ → List Char
  | [] => []
  | w :: words =>
    if w = 0 ∧ gap = some i then
      (if i = 0 then [':', ':'] else [':'])
        ++ formatWords gap (i + 1 + (words.takeWhile (· = 0)).length) (words.dropWhile (· = 0))
    else hexadecimal w ++ (if i = 7 then [] else [':']) ++ formatWords gap (i + 1) words
termination_by words => words.length
decreasing_by
  all_goals
    have := (dropWhile_sublist (· = 0) (l := words)).length_le
    simp only [length_cons]
    omega

/-- `tor_inet_ntop(AF_INET6, addr, dst, len)`, with a buffer that is large enough. -/
def torInetNtop6 (addr : In6Addr) : List Char :=
  match wordsOf addr.s6Addr, addr.s6Addr.drop 12 with
  | [0, 0, 0, 0, 0, w5, w6, w7], [a, b, c, d] =>
    if w5 = 0 ∧ w6 ≠ 0 ∧ w7 ≠ 0 then "::".toList ++ dottedQuad a b c d
    else if w5 = 0xffff then
      "::".toList ++ hexadecimal w5 ++ ':' :: dottedQuad a b c d
    else formatWords (gapPos (wordsOf addr.s6Addr)) 0 (wordsOf addr.s6Addr)
  | words, _ => formatWords (gapPos words) 0 words

/-- `TOR_ISXDIGIT` -/
def isXDigit (c : Char) : Bool := (hexDecodeDigit c).isSome

/-- The number that hexadecimal digits spell. -/
def hexVal (ds : List Char) : ℕ := ds.foldl (fun n c => n * 16 + (hexDecodeDigit c).getD 0) 0

/-- The loop of `tor_inet_pton` up to `eow`, with the words so far.  What `strtol` makes of `"0x"`
is refused either way. -/
def ptonLoop (words : List ℕ) (gap : Option ℕ) : List Char → Option (List ℕ × Option ℕ)
  | [] => some (words, gap)
  | c :: src =>
    if words.length > 7 then none
    else if isXDigit c then
      let digits := c :: src.takeWhile isXDigit
      if digits.length > 4 then none
      else
        match _h : src.dropWhile isXDigit with
        | [] => some (words ++ [hexVal digits], gap)
        | d :: next => if d = ':' then ptonLoop (words ++ [hexVal digits]) gap next else none
    else if c = ':' ∧ words ≠ [] ∧ gap = none then ptonLoop words (some words.length) src
    else if c = ':' ∧ words = [] ∧ src.head? = some ':' ∧ gap = none then
      ptonLoop words (some 0) src.tail
    else none
termination_by src => src.length
decreasing_by
  · have := (dropWhile_sublist isXDigit (l := src)).length_le
    rw [_h] at this
    simp only [length_cons] at this ⊢
    omega
  · simp
  · simp only [length_tail, length_cons]
    omega

/-- The words of the address: the gap is filled with zeros. -/
def fillGap (words quad : List ℕ) (gap : Option ℕ) : Option (List ℕ) :=
  let setWords := words.length + quad.length
  match gap with
  | none => if setWords = 8 then some (words ++ quad) else none
  | some pos =>
    if setWords < 8 then
      some (words.take pos ++ List.replicate (8 - setWords) 0 ++ words.drop pos ++ quad)
    else none

/-- The address with eight words. -/
def In6Addr.ofWords (words : List ℕ) : Option In6Addr :=
  if h : (bytesOfWords words).length = 16 then some ⟨bytesOfWords words, h⟩ else none

/-- The words before `eow`, and those of the dotted quad behind it. -/
def splitQuad (src : List Char) : Option (List Char × List ℕ) :=
  let beforeDot := src.takeWhile (· ≠ '.')
  if beforeDot.length = src.length then some (src, [])
  else
    let beforeQuad := beforeDot.rdropWhile Char.isDigit
    if beforeQuad.getLast? ≠ some ':' then none
    else
      (scanQuad (src.drop beforeQuad.length)).map fun q =>
        (beforeQuad, [q.a.toNat * 256 + q.b.toNat, q.c.toNat * 256 + q.d.toNat])

/-- `tor_inet_pton(AF_INET6, src, dst)` -/
def torInetPton6 (src : List Char) : Option In6Addr :=
  if src.length > 2 ∧ src.getLast? = some ':' ∧ src.dropLast.getLast? ≠ some ':' then none
  else
    match splitQuad src with
    | none => none
    | some (beforeQuad, quad) =>
      match ptonLoop [] none beforeQuad with
      | none => none
      | some (words, gap) => (fillGap words quad gap).bind In6Addr.ofWords

end Ator.Inaddr

import AtorProtocol.Encoding.Binascii
import AtorProtocol.Encoding.Split
import AtorProtocol.Lib.HashTable
import Mathlib.Data.Char
import Mathlib.Data.List.Lex
import Mathlib.Data.List.Sort

/-!
# Node families

The encoded, reference-counted families of `src/feature/nodelist/nodefamily.c`, with the legality
checks of `nickname.c` and `hex_digest_nickname_decode` of `routerlist.c`.  A family is an array of
members of 21 bytes; the table of all families has at most one of each array.

* `nodefamilyFromMembers` — fills an array, sorts it, drops duplicates and looks the result up.
* `nodefamilyFormat`, `nodefamilyCanonicalize` — a family as a string.
* `Denotes` — the member that a well-formed element stands for.
-/

namespace Ator.Nodefamily

open Text

def digestLen : ℕ := 20

def hexDigestLen : ℕ := 40

def maxNicknameLen : ℕ := 19

/-- A digest of `DIGEST_LEN` bytes. -/
abbrev RsaId := { id : Bytes // id.length = digestLen }

/-! ## Legal elements -/

def legalNicknameCharacters : List Char :=
  "abcdefghijklmnopqrstuvwxyzABCDEFGHIJKLMNOPQRSTUVWXYZ0123456789".toList

def hexCharacters : List Char := "0123456789ABCDEFabcdef".toList

def strspn (s accept : List Char) : ℕ := (s.takeWhile (· ∈ accept)).length

def isLegalNickname (s : List Char) : Bool :=
  let len := s.length
  len > 0 ∧ len ≤ maxNicknameLen ∧ strspn s legalNicknameCharacters = len

/-- `if (s[0] == '$') s++;` -/
def skipDollar : List Char → List Char
  | '$' :: s => s
  | s => s

def isLegalHexdigest (s : List Char) : Bool :=
  let s := skipDollar s
  let len := s.length
  let tailIsLegal : Bool :=
    match s.drop hexDigestLen with
    | [] => true
    | c :: nickname => (c = '=' ∨ c = '~') ∧ isLegalNickname nickname
  decide <| tailIsLegal ∧ len ≥ hexDigestLen ∧ strspn s hexCharacters = hexDigestLen

/-- `hex_digest_nickname_decode`: the digest, and the qualifier with its nickname. -/
def hexDigestNicknameDecode (hexdigest : List Char) : Option (Bytes × Option (Char × List Char)) :=
  let hexdigest := skipDollar hexdigest
  let len := hexdigest.length
  let qualified :=
    match hexdigest.drop hexDigestLen with
    | [] => some none
    | c :: nickname =>
      if (c = '=' ∨ c = '~') ∧ len ≤ hexDigestLen + 1 + maxNicknameLen then
        some (some (c, nickname.take maxNicknameLen))
      else none
  if len < hexDigestLen then none else
  match qualified, base16Decode digestLen hexdigest hexDigestLen with
  | some qualified, some digest =>
    if digest.length = digestLen then some (digest, qualified) else none
  | _, _ => none

/-! ## The array of members -/

def nodefamilyMemberLen : ℕ := 1 + digestLen

def byRsaId : UInt8 := 0

def byNickname : UInt8 := 1

def nfRejectMalformed : UInt32 := (1 : UInt32) <<< 1

/-- `memcpy` to the beginning of `dest` -/
def memcpy (dest src : Bytes) : Bytes := src ++ dest.drop src.length

def torTolower (b : UInt8) : UInt8 := if 65 ≤ b ∧ b ≤ 90 then b + 32 else b

/-- `tor_strlower`, up to the NUL. -/
def strlowerBuf (s : Bytes) : Bytes := (s.takeWhile (· ≠ 0)).map torTolower ++ s.dropWhile (· ≠ 0)

/-- The memory that `nodefamily_alloc` returns. -/
def nodefamilyAlloc (nMembers : ℕ) : List Bytes :=
  List.replicate nMembers (List.replicate nodefamilyMemberLen 0)

/-- Where the loop over the elements stands. -/
structure Filling where
  familyMembers : List Bytes
  ptr : ℕ
  nBadElements : ℕ
  unrecognizedOut : List (List Char)
deriving DecidableEq

variable (f : Filling) (cp : List Char)

/-- An element that `ptr` moves past. -/
def Filling.write (member : Bytes → Bytes) : Filling :=
  { f with familyMembers := f.familyMembers.modify f.ptr member, ptr := f.ptr + 1 }

/-- The loop body over `members`. -/
def fillMember : Filling :=
  if isLegalNickname cp then
    f.write fun ptr => byNickname :: strlowerBuf (memcpy (ptr.drop 1) (bytesOf cp))
  else if isLegalHexdigest cp then
    match hexDigestNicknameDecode cp with
    | some (digestBuf, _) => f.write fun ptr => byRsaId :: memcpy (ptr.drop 1) digestBuf
    | none => { f with nBadElements := f.nBadElements + 1 }
  else
    { f with nBadElements := f.nBadElements + 1, unrecognizedOut := f.unrecognizedOut ++ [cp] }

/-- `compare_members(a, b) <= 0` -/
def compareMembers (a b : Bytes) : Prop := a.map UInt8.toNat ≤ b.map UInt8.toNat

instance : DecidableRel compareMembers := fun a b =>
  inferInstanceAs (Decidable (a.map UInt8.toNat ≤ b.map UInt8.toNat))

/-- The loop that removes duplicates, from index `i` on. -/
def removeDuplicates (familyMembers : List Bytes) (i : ℕ) : List Bytes :=
  if _h : i + 1 < familyMembers.length then
    if familyMembers[i] = familyMembers[i + 1] then removeDuplicates (familyMembers.eraseIdx i) i
    else removeDuplicates familyMembers (i + 1)
  else familyMembers
termination_by familyMembers.length - i
decreasing_by
  · rw [List.length_eraseIdx_of_lt (by omega)]
    omega
  · omega

/-! ## Interned families -/

/-- `nodefamily_t`, with the address it lies at. -/
structure NodefamilyT where
  addr : ℕ
  refcnt : UInt32
  familyMembers : List Bytes
deriving DecidableEq

/-- `the_node_families` -/
abbrev NodefamilyMap := List NodefamilyT

variable (theNodeFamilies : NodefamilyMap)

/-- `*p = update(*p)` -/
def NodefamilyMap.update (p : ℕ) (upd : NodefamilyT → NodefamilyT) : NodefamilyMap :=
  List.map (fun nf => if nf.addr = p then upd nf else nf) theNodeFamilies

/-- The end of `nodefamily_from_members`: the family with the array of `tmp`. -/
def findOrInsert (tmp : ℕ) (familyMembers : List Bytes) : NodefamilyMap × NodefamilyT :=
  match htFind NodefamilyT.familyMembers theNodeFamilies familyMembers with
  | some found =>
    let incref := fun nf : NodefamilyT => { nf with refcnt := nf.refcnt + 1 }
    (NodefamilyMap.update theNodeFamilies found.addr incref, incref found)
  | none =>
    let tmp : NodefamilyT := { addr := tmp, refcnt := 1, familyMembers }
    (htInsert theNodeFamilies tmp, tmp)

/-- What `nodefamily_from_members` gives back. -/
structure FromMembers where
  theNodeFamilies : NodefamilyMap
  result : Option NodefamilyT
  unrecognizedOut : List (List Char)
deriving DecidableEq

/-- `nodefamily_from_members`; a new family lies at `tmp`. -/
def nodefamilyFromMembers (tmp : ℕ) (members : List (List Char)) (rsaIdSelf : Option RsaId)
    (flags : UInt32) : FromMembers :=
  let nSelf := if rsaIdSelf.isSome then 1 else 0
  let nMembers := members.length + nSelf
  let filling := members.foldl fillMember
    { familyMembers := nodefamilyAlloc nMembers, ptr := 0, nBadElements := 0, unrecognizedOut := [] }
  if filling.nBadElements ≠ 0 ∧ flags &&& nfRejectMalformed ≠ 0 then
    { theNodeFamilies, result := none, unrecognizedOut := filling.unrecognizedOut }
  else
    let filling :=
      match rsaIdSelf with
      | some id => filling.write fun ptr => byRsaId :: memcpy (ptr.drop 1) id.val
      | none => filling
    let nMembers := nMembers - filling.nBadElements
    let sorted := (filling.familyMembers.take nMembers).insertionSort compareMembers
    let (theNodeFamilies, nf) := findOrInsert theNodeFamilies tmp (removeDuplicates sorted 0)
    { theNodeFamilies, result := some nf, unrecognizedOut := filling.unrecognizedOut }

def nodefamilyParse (tmp : ℕ) (s : List Char) (rsaIdSelf : Option RsaId) (flags : UInt32) :
    NodefamilyMap × Option NodefamilyT :=
  let r := nodefamilyFromMembers theNodeFamilies tmp (splitHorizontal s) rsaIdSelf flags
  (r.theNodeFamilies, r.result)

/-- `nodefamily_free_`; there must be a family at the address. -/
def nodefamilyFree (family : Option ℕ) : Option NodefamilyMap :=
  match family with
  | none => some theNodeFamilies
  | some p => do
      let nf ← theNodeFamilies.find? fun nf => nf.addr = p
      let refcnt := nf.refcnt - 1
      if refcnt = 0 then
        some (htRemove NodefamilyT.familyMembers theNodeFamilies nf.familyMembers)
      else some (NodefamilyMap.update theNodeFamilies p fun nf => { nf with refcnt })

/-! ## Families as strings -/

def torStrlower (s : List Char) : List Char := s.map Char.toLower

def torStrupper (s : List Char) : List Char := s.map Char.toUpper

/-- The string at the beginning of a buffer. -/
def stringOf (buf : Bytes) : List Char := (buf.takeWhile (· ≠ 0)).map fun b => Char.ofNat b.toNat

/-- The loop body of `nodefamily_format`. -/
def formatMember (member : Bytes) : Option (List Char) :=
  match member with
  | [] => none
  | tag :: data =>
    if tag = byNickname then some (stringOf data)
    else if tag = byRsaId then
      some (torStrupper ('$' :: base16Encode (data.take digestLen)))
    else none

def nodefamilyFormat (family : Option NodefamilyT) : List Char :=
  match family with
  | none => []
  | some nf => joinSpace (nf.familyMembers.filterMap formatMember)

def smartlistSortStrings (sl : List (List Char)) : List (List Char) := sl.insertionSort (· ≤ ·)

/-- `nodefamily_canonicalize`, which drops its reference to the family again. -/
def nodefamilyCanonicalize (tmp : ℕ) (s : List Char) (rsaIdSelf : Option RsaId) (flags : UInt32) :
    Option (NodefamilyMap × List Char) := do
  let r := nodefamilyFromMembers theNodeFamilies tmp (splitHorizontal s) rsaIdSelf flags
  let formatted := nodefamilyFormat r.result
  let resultMembers := smartlistSortStrings (r.unrecognizedOut ++ splitHorizontal formatted)
  let theNodeFamilies ← nodefamilyFree r.theNodeFamilies (r.result.map NodefamilyT.addr)
  some (theNodeFamilies, joinSpace resultMembers)

/-! ## What an element stands for -/

/-- A nickname of a relay. -/
structure WellFormedNickname (s : List Char) : Prop where
  ne_nil : s ≠ []
  length_le : s.length ≤ maxNicknameLen
  alphanum : ∀ c ∈ s, c.isAlphanum

/-- What may follow the digits of a hexadecimal identity. -/
inductive HexSuffix : List Char → Prop
  | none : HexSuffix []
  | named {s : List Char} (h : WellFormedNickname s) : HexSuffix ('=' :: s)
  | unnamed {s : List Char} (h : WellFormedNickname s) : HexSuffix ('~' :: s)

/-- The element `cp` is well formed and stands for a member. -/
inductive Denotes : List Char → Bytes → Prop
  | nickname {s : List Char} (h : WellFormedNickname s) :
      Denotes s (byNickname :: (bytesOf (torStrlower s) ++ List.replicate (digestLen - s.length) 0))
  | hexId {hex suffix : List Char} (id : RsaId) (hhex : torStrupper hex = base16Encode id.val)
      (hsuffix : HexSuffix suffix) : Denotes (hex ++ suffix) (byRsaId :: id.val)
  | dollarHexId {hex suffix : List Char} (id : RsaId) (hhex : torStrupper hex = base16Encode id.val)
      (hsuffix : HexSuffix suffix) : Denotes ('$' :: (hex ++ suffix)) (byRsaId :: id.val)

end Ator.Nodefamily

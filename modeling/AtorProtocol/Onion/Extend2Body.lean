import AtorProtocol.Lib.Wire

/-!
# The body of an EXTEND2 cell

The codec of `src/trunnel/ed25519_cert.c` for the body of an EXTEND2 cell: link specifiers, of
which each says its type and length, and the CREATE2 payload for the next relay.

* `extend2CellBodyEncode`, `extend2CellBodyParse` — the codec.
* `reads_extend2CellBodyEncode` — what is encoded is parsed.
-/

namespace Ator.Onion

open Ator.Wire List Option

/-- `link_specifier_t`, with the member of the union that `ls_type` says.  `ls_len` is the length
of that member. -/
inductive LinkSpecifier where
  | ipv4 (addr : BitVec 32) (port : UInt16)
  | ipv6 (addr : Fixed 16) (port : UInt16)
  | legacyId (id : Fixed 20)
  | ed25519Id (id : Fixed 32)
  | unrecognized (lsType : {t : UInt8 // 3 < t}) (un : List UInt8)

def lsIpv4 : UInt8 := 0x00
def lsIpv6 : UInt8 := 0x01
def lsLegacyId : UInt8 := 0x02
def lsEd25519Id : UInt8 := 0x03

structure Create2CellBody where
  handshakeType : UInt16
  handshakeLen : UInt16
  handshakeData : List UInt8

structure Extend2CellBody where
  nSpec : UInt8
  ls : List LinkSpecifier
  create2 : Create2CellBody

/-! ## Encoding -/

def LinkSpecifier.lsType : LinkSpecifier → UInt8
  | .ipv4 _ _ => lsIpv4
  | .ipv6 _ _ => lsIpv6
  | .legacyId _ => lsLegacyId
  | .ed25519Id _ => lsEd25519Id
  | .unrecognized lsType _ => lsType

/-- The union of a link specifier. -/
def LinkSpecifier.un : LinkSpecifier → List UInt8
  | .ipv4 addr port => writeUint32 addr ++ writeUint16 port
  | .ipv6 addr port => addr.1 ++ writeUint16 port
  | .legacyId id => id.1
  | .ed25519Id id => id.1
  | .unrecognized _ un => un

/-- `link_specifier_encode`, into a buffer that is large enough: the length field is written last,
from the length of the union. -/
def linkSpecifierEncode (obj : LinkSpecifier) : Option (List UInt8) :=
  if obj.un.length > 255 then none
  else some (writeUint8 obj.lsType ++ (writeUint8 (UInt8.ofNat obj.un.length) ++ obj.un))

/-- `create2_cell_body_encode`, after the check. -/
def create2CellBodyEncode (obj : Create2CellBody) : List UInt8 :=
  writeUint16 obj.handshakeType ++ (writeUint16 obj.handshakeLen ++ obj.handshakeData)

/-- `extend2_cell_body_encode(output, avail, obj)`, with `none` for a negative result. -/
def extend2CellBodyEncode (avail : ℕ) (obj : Extend2CellBody) : Option (List UInt8) :=
  if obj.ls.length ≠ obj.nSpec.toNat then none
  else if obj.create2.handshakeData.length ≠ obj.create2.handshakeLen.toNat then none
  else
    match obj.ls.mapM linkSpecifierEncode with
    | none => none
    | some specs =>
      let output := writeUint8 obj.nSpec ++ (specs.flatten ++ create2CellBodyEncode obj.create2)
      if output.length ≤ avail then some output else none

/-! ## Parsing -/

/-- The union of a link specifier of the given type. -/
def linkSpecifierUnionParse (lsType : UInt8) : Reader LinkSpecifier :=
  if h : 3 < lsType then do
    let un ← readAll
    return .unrecognized ⟨lsType, h⟩ un
  else if lsType = lsIpv4 then do
    let addr ← readUint32
    let port ← readUint16
    return .ipv4 addr port
  else if lsType = lsIpv6 then do
    let addr ← readFixed 16
    let port ← readUint16
    return .ipv6 addr port
  else if lsType = lsLegacyId then do
    let id ← readFixed 20
    return .legacyId id
  else do
    let id ← readFixed 32
    return .ed25519Id id

def linkSpecifierParse : Reader LinkSpecifier := do
  let lsType ← readUint8
  let lsLen ← readUint8
  readWithin lsLen.toNat (linkSpecifierUnionParse lsType)

def create2CellBodyParse : Reader Create2CellBody := do
  let handshakeType ← readUint16
  let handshakeLen ← readUint16
  let handshakeData ← readFixed handshakeLen.toNat
  return ⟨handshakeType, handshakeLen, handshakeData.1⟩

def extend2CellBodyParse : Reader Extend2CellBody := do
  let nSpec ← readUint8
  let ls ← readTimes linkSpecifierParse nSpec.toNat
  let create2 ← create2CellBodyParse
  return ⟨nSpec, ls, create2⟩

variable {ls : LinkSpecifier} {obj : Extend2CellBody} {bs : List UInt8} {avail : ℕ}

lemma extend2CellBodyEncode_length (h : extend2CellBodyEncode avail obj = some bs) :
    bs.length ≤ avail := by
  simp only [extend2CellBodyEncode] at h
  split_ifs at h with hspec hdata
  split at h
  · cases h
  · split_ifs at h with hfit
    exact some.inj h ▸ hfit

/-! ## Round trips -/

lemma reads_linkSpecifierUnionParse (ls : LinkSpecifier) :
    Reads (readWithin ls.un.length (linkSpecifierUnionParse ls.lsType)) ls.un ls := by
  cases ls with
  | ipv4 addr port =>
    exact ((reads_readUint32 addr).bind (reads_readUint16 port).map).within rfl
  | ipv6 addr port =>
    exact ((reads_readFixed addr).bind (reads_readUint16 port).map).within rfl
  | legacyId id | ed25519Id id => exact (reads_readFixed id).map.within rfl
  | unrecognized lsType un =>
    have hparse : linkSpecifierUnionParse lsType
        = readAll >>= fun un => pure (.unrecognized lsType un) := dif_pos lsType.2
    change Reads (readWithin un.length (linkSpecifierUnionParse lsType)) un _
    rw [hparse]
    exact reads_readWithin_readAll (LinkSpecifier.unrecognized lsType) un

lemma reads_linkSpecifierEncode (h : linkSpecifierEncode ls = some bs) :
    Reads linkSpecifierParse bs ls := by
  rw [linkSpecifierEncode] at h
  split_ifs at h with hlen
  obtain rfl := some.inj h
  refine (reads_readUint8 _).bind ((reads_readUint8 _).bind ?_)
  have hlsLen : (UInt8.ofNat ls.un.length).toNat = ls.un.length := by
    rw [UInt8.toNat_ofNat']
    omega
  rw [hlsLen]
  exact reads_linkSpecifierUnionParse ls

lemma reads_create2CellBodyEncode {obj : Create2CellBody}
    (h : obj.handshakeData.length = obj.handshakeLen.toNat) :
    Reads create2CellBodyParse (create2CellBodyEncode obj) obj := by
  obtain ⟨handshakeType, handshakeLen, handshakeData⟩ := obj
  exact (reads_readUint16 handshakeType).bind ((reads_readUint16 handshakeLen).bind
    (reads_readFixed ⟨handshakeData, h⟩).map)

/-- **What is encoded is parsed.** -/
theorem reads_extend2CellBodyEncode (h : extend2CellBodyEncode avail obj = some bs) :
    Reads extend2CellBodyParse bs obj := by
  obtain ⟨nSpec, ls, create2⟩ := obj
  simp only [extend2CellBodyEncode] at h
  split_ifs at h with hspec hdata
  split at h
  · cases h
  · next specs hspecs =>
      split_ifs at h with hfit
      obtain rfl := some.inj h
      refine (reads_readUint8 nSpec).bind ?_
      rw [← not_ne_iff.mp hspec]
      refine (reads_readTimes (fun _ _ => reads_linkSpecifierEncode) hspecs).bind ?_
      exact (reads_create2CellBodyEncode (not_ne_iff.mp hdata)).map

/-! ## What fits -/

/-- The length of a link specifier with its type and its length field. -/
def LinkSpecifier.encodedLen (ls : LinkSpecifier) : ℕ := 2 + ls.un.length

def extend2CellBodyEncodedLen (obj : Extend2CellBody) : ℕ :=
  1 + (obj.ls.map LinkSpecifier.encodedLen).sum + (4 + obj.create2.handshakeData.length)

lemma mapM_linkSpecifierEncode {l : List LinkSpecifier} (h : ∀ ls ∈ l, ls.un.length ≤ 255) :
    ∃ specs, l.mapM linkSpecifierEncode = some specs
      ∧ specs.flatten.length = (l.map LinkSpecifier.encodedLen).sum := by
  induction l with
  | nil => exact ⟨[], rfl, rfl⟩
  | cons ls l ih =>
    obtain ⟨specs, hspecs, hlen⟩ := ih fun ls' hls' => h ls' (mem_cons_of_mem ls hls')
    have hun := h ls mem_cons_self
    obtain ⟨bs, hbs⟩ : ∃ bs, linkSpecifierEncode ls = some bs := by
      rw [linkSpecifierEncode, if_neg (by omega)]
      exact ⟨_, rfl⟩
    refine ⟨bs :: specs, ?_, ?_⟩
    · rw [mapM_cons, hbs, hspecs]
      rfl
    · rw [linkSpecifierEncode, if_neg (by omega)] at hbs
      rw [flatten_cons, length_append, hlen, map_cons, sum_cons,
        LinkSpecifier.encodedLen, ← some.inj hbs]
      simp only [writeUint8, length_append, length_cons, length_nil]
      omega

/-- **A body whose counts are right** is encoded if it fits. -/
theorem extend2CellBodyEncode_eq_none_iff (hspec : obj.ls.length = obj.nSpec.toNat)
    (hdata : obj.create2.handshakeData.length = obj.create2.handshakeLen.toNat)
    (hun : ∀ ls ∈ obj.ls, ls.un.length ≤ 255) :
    extend2CellBodyEncode avail obj = none ↔ avail < extend2CellBodyEncodedLen obj := by
  obtain ⟨specs, hspecs, hlen⟩ := mapM_linkSpecifierEncode hun
  have houtput :
      (writeUint8 obj.nSpec ++ (specs.flatten ++ create2CellBodyEncode obj.create2)).length
      = extend2CellBodyEncodedLen obj := by
    rw [extend2CellBodyEncodedLen, length_append, length_append, hlen]
    simp only [writeUint8, create2CellBodyEncode, writeUint16, length_append,
      length_cons, length_nil]
    omega
  simp only [extend2CellBodyEncode, hspec, hdata, hspecs, ne_eq, not_true_eq_false, if_false,
    houtput]
  split
  · next h => simpa using h
  · next h => simpa using h

end Ator.Onion

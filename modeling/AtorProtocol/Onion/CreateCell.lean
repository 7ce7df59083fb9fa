import AtorProtocol.Onion.Extend2Body

/-!
# Handshake cells

The parsers and formatters of `src/core/or/onion.c` for the cells that carry the handshakes of a
circuit: CREATE2, CREATE_FAST and the answers to them, and the relay messages EXTEND2 and EXTENDED2
that carry them to and from the last relay.

* `createCellParse_format`, `createdCellParse_format`, `extendedCellParse_format` — parsing undoes
  formatting.
* `extendCellParse_format` — an EXTEND2 message comes back with what `extendCellSent` says.
* `createCellFormatRelayed_of_parse` — what an EXTEND2 message carries can be sent on.
-/

namespace Ator.Onion

open Ator.Wire List Option

def cellCreated : UInt8 := 2
def cellCreateFast : UInt8 := 5
def cellCreatedFast : UInt8 := 6
def cellCreate2 : UInt8 := 10
def cellCreated2 : UInt8 := 11
def relayCommandExtended : UInt8 := 7
def relayCommandExtend2 : UInt8 := 14
def relayCommandExtended2 : UInt8 := 15
def handshakeTypeTap : UInt16 := 0x0000
def handshakeTypeFast : UInt16 := 0x0001
def handshakeTypeNtor : UInt16 := 0x0002
def handshakeTypeNtorV3 : UInt16 := 0x0003
def createFastLen : ℕ := 20
def createdFastLen : ℕ := 40
def ntorOnionskinLen : ℕ := 84
def cellPayloadSize : ℕ := 509
def relayPayloadSize : ℕ := 498

/-- A byte string in a buffer of `n` bytes, with a field for its length. -/
abbrev Buffered (n : ℕ) := {bs : List UInt8 // bs.length ≤ n}

/-- `cell_t`, but for the circuit ID. -/
structure Cell where
  command : UInt8
  payload : Fixed 509

/-- The `payload` or `payload_out` of a relay message, of `RELAY_PAYLOAD_SIZE` bytes, the command,
and how many of the bytes are used. -/
structure RelayMsg where
  command : UInt8
  payload : Fixed 498
  length : ℕ

/-- `create_cell_t`; `handshake_len` is the length of the onionskin. -/
structure CreateCell where
  cellType : UInt8
  handshakeType : UInt16
  onionskin : Buffered 505

/-- `created_cell_t`; `handshake_len` is the length of the reply. -/
structure CreatedCell where
  cellType : UInt8
  reply : Buffered 507

/-- `tor_addr_port_t` for an address of one family, or `AF_UNSPEC`. -/
abbrev Orport (α : Type) := Option α × UInt16

structure ExtendCell where
  cellType : UInt8
  orportIpv4 : Orport (BitVec 32)
  orportIpv6 : Orport (Fixed 16)
  nodeId : Fixed 20
  edPubkey : Fixed 32
  createCell : CreateCell

structure ExtendedCell where
  cellType : UInt8
  createdCell : CreatedCell

/-- A buffer of `n` bytes that was zeroed and filled from its start. -/
def padded (n : ℕ) (bs : Buffered n) : Fixed n :=
  ⟨bs.1 ++ List.replicate (n - bs.1.length) 0, by
    have := bs.2
    rw [length_append, length_replicate]
    omega⟩

/-! ## CREATE cells -/

/-- `check_create_cell`, true for 0. -/
def checkCreateCell (cell : CreateCell) (unknownOk : Bool) : Bool :=
  if cell.cellType = cellCreateFast ∧ cell.handshakeType ≠ handshakeTypeFast then false
  else if cell.cellType ≠ cellCreateFast ∧ cell.cellType ≠ cellCreate2 then false
  else if cell.handshakeType = handshakeTypeTap then false
  else if cell.handshakeType = handshakeTypeFast then cell.onionskin.1.length = createFastLen
  else if cell.handshakeType = handshakeTypeNtor then cell.onionskin.1.length = ntorOnionskinLen
  else if cell.handshakeType = handshakeTypeNtorV3 then true
  else unknownOk

def parseCreate2Payload (p : List UInt8) : Option CreateCell := do
  let (handshakeType, p) ← readUint16 p
  let (handshakeLen, p) ← readUint16 p
  if h : handshakeLen.toNat > cellPayloadSize - 4 ∨ handshakeLen.toNat > p.length then none
  else if handshakeType = handshakeTypeFast then none
  else some ⟨cellCreate2, handshakeType, p.take handshakeLen.toNat, by
    rw [List.length_take]
    simp only [cellPayloadSize] at h
    omega⟩

def createCellParse (cellIn : Cell) : Option CreateCell := do
  let cellOut ←
    if cellIn.command = cellCreateFast then
      some ⟨cellCreateFast, handshakeTypeFast, cellIn.payload.1.take createFastLen, by
        simp [createFastLen]⟩
    else if cellIn.command = cellCreate2 then parseCreate2Payload cellIn.payload.1
    else none
  if checkCreateCell cellOut false then some cellOut else none

lemma CreateCell.onionskin_length_le (cell : CreateCell) : cell.onionskin.1.length ≤ 509 := by
  have := cell.onionskin.2
  omega

lemma CreateCell.create2_length_le (cell : CreateCell) :
    (writeUint16 cell.handshakeType ++
      (writeUint16 (UInt16.ofNat cell.onionskin.1.length) ++ cell.onionskin.1)).length ≤ 509 := by
  have := cell.onionskin.2
  simp only [writeUint16, length_append, length_cons, length_nil]
  omega

/-- `create_cell_format_impl`.  `check_create_cell` refuses CREATE cells, so that the branch for
them is not reached. -/
def createCellFormatImpl (cellIn : CreateCell) (relayed : Bool) : Option Cell :=
  if ¬ checkCreateCell cellIn relayed then none
  else if cellIn.cellType = cellCreateFast then
    some ⟨cellIn.cellType, padded 509 ⟨cellIn.onionskin.1, cellIn.onionskin_length_le⟩⟩
  else if cellIn.cellType = cellCreate2 then
    some ⟨cellIn.cellType, padded 509 ⟨writeUint16 cellIn.handshakeType ++
      (writeUint16 (UInt16.ofNat cellIn.onionskin.1.length) ++ cellIn.onionskin.1),
        cellIn.create2_length_le⟩⟩
  else none

def createCellFormat (cellIn : CreateCell) : Option Cell := createCellFormatImpl cellIn false

def createCellFormatRelayed (cellIn : CreateCell) : Option Cell := createCellFormatImpl cellIn true

/-! ## CREATED cells -/

def checkCreatedCell (cell : CreatedCell) : Bool :=
  if cell.cellType = cellCreated then false
  else if cell.cellType = cellCreatedFast then cell.reply.1.length = createdFastLen
  else if cell.cellType = cellCreated2 then cell.reply.1.length ≤ relayPayloadSize - 2
  else true

def createdCellParse (cellIn : Cell) : Option CreatedCell := do
  let cellOut ←
    if cellIn.command = cellCreated then none
    else if cellIn.command = cellCreatedFast then
      some ⟨cellCreatedFast, cellIn.payload.1.take createdFastLen, by simp [createdFastLen]⟩
    else if cellIn.command = cellCreated2 then do
      let (handshakeLen, p) ← readUint16 cellIn.payload.1
      if h : handshakeLen.toNat > cellPayloadSize - 2 then none
      else some ⟨cellCreated2, p.take handshakeLen.toNat, by
        rw [List.length_take]
        simp only [cellPayloadSize] at h
        omega⟩
    else some ⟨0, [], by simp⟩
  if checkCreatedCell cellOut then some cellOut else none

lemma CreatedCell.reply_length_le (cell : CreatedCell) : cell.reply.1.length ≤ 509 := by
  have := cell.reply.2
  omega

lemma CreatedCell.created2_length_le (cell : CreatedCell) :
    (writeUint16 (UInt16.ofNat cell.reply.1.length) ++ cell.reply.1).length ≤ 509 := by
  have := cell.reply.2
  simp only [writeUint16, length_append, length_cons, length_nil]
  omega

def createdCellFormat (cellIn : CreatedCell) : Option Cell :=
  if ¬ checkCreatedCell cellIn then none
  else if cellIn.cellType = cellCreated ∨ cellIn.cellType = cellCreatedFast then
    some ⟨cellIn.cellType, padded 509 ⟨cellIn.reply.1, cellIn.reply_length_le⟩⟩
  else if cellIn.cellType = cellCreated2 then
    some ⟨cellIn.cellType, padded 509
      ⟨writeUint16 (UInt16.ofNat cellIn.reply.1.length) ++ cellIn.reply.1,
        cellIn.created2_length_le⟩⟩
  else none

/-! ## EXTEND2 messages -/

/-- `tor_addr_port_is_valid_ap(ap, 0)`, with `tor_addr_is_null` for the addresses of the family. -/
def orportIsValid {α : Type} (isNull : α → Bool) (ap : Orport α) : Bool :=
  ap.1.any (fun a => !isNull a) && ap.2 ≠ 0

def ipv4IsNull (a : BitVec 32) : Bool := a = 0
def ipv6IsNull (a : Fixed 16) : Bool := a.1.all (· = 0)

def checkExtendCell (cell : ExtendCell) : Bool :=
  if cell.nodeId.1.all (· = 0) then false
  else if ¬ orportIsValid ipv4IsNull cell.orportIpv4 ∧
      (cell.cellType ≠ relayCommandExtend2 ∨ ¬ orportIsValid ipv6IsNull cell.orportIpv6) then false
  else if cell.createCell.cellType ≠ cellCreate2 then false
  else if cell.cellType ≠ relayCommandExtend2 then false
  else if cell.createCell.handshakeType = handshakeTypeFast ∨
      cell.createCell.handshakeType = handshakeTypeTap then false
  else checkCreateCell cell.createCell true

def createCellFromCreate2CellBody (cell : Create2CellBody) : Option CreateCell :=
  if h : cell.handshakeData.length > 505 then none
  else some ⟨cellCreate2, cell.handshakeType, cell.handshakeData, not_lt.mp h⟩

/-- What `extend_cell_from_extend2_cell_body` has found in the link specifiers. -/
structure FoundSpecs where
  ipv4 : Option (BitVec 32 × UInt16) := none
  ipv6 : Option (Fixed 16 × UInt16) := none
  rsaId : Option (Fixed 20) := none
  edId : Option (Fixed 32) := none

/-- The loop of `extend_cell_from_extend2_cell_body`: of the addresses of a family the first
counts, and an identity may not be repeated. -/
def findSpecs (found : FoundSpecs) : List LinkSpecifier → Option FoundSpecs
  | [] => some found
  | .ipv4 addr port :: rest =>
    findSpecs (if found.ipv4.isSome then found else { found with ipv4 := some (addr, port) }) rest
  | .ipv6 addr port :: rest =>
    findSpecs (if found.ipv6.isSome then found else { found with ipv6 := some (addr, port) }) rest
  | .legacyId id :: rest =>
    if found.rsaId.isSome then none else findSpecs { found with rsaId := some id } rest
  | .ed25519Id id :: rest =>
    if found.edId.isSome then none else findSpecs { found with edId := some id } rest
  | .unrecognized _ _ :: rest => findSpecs found rest

/-- A field that was zeroed. -/
def zeroed (n : ℕ) : Fixed n := ⟨List.replicate n 0, length_replicate⟩

def extendCellFromExtend2CellBody (cell : Extend2CellBody) : Option ExtendCell := do
  let found ← findSpecs {} cell.ls
  let nodeId ← found.rsaId
  if found.ipv4.isNone ∧ found.ipv6.isNone then none
  let createCell ← createCellFromCreate2CellBody cell.create2
  return {
    cellType := relayCommandExtend2
    orportIpv4 := found.ipv4.elim (none, 0) fun a => (some a.1, a.2)
    orportIpv6 := found.ipv6.elim (none, 0) fun a => (some a.1, a.2)
    nodeId
    edPubkey := found.edId.getD (zeroed 32)
    createCell }

def extendCellParse (msg : RelayMsg) : Option ExtendCell := do
  if msg.length > relayPayloadSize then none
  else if msg.command = relayCommandExtend2 then
    let (cell, _) ← extend2CellBodyParse (msg.payload.1.take msg.length)
    let cellOut ← extendCellFromExtend2CellBody cell
    if checkExtendCell cellOut then some cellOut else none
  else none

/-- The link specifiers that `extend_cell_format` writes; `includeEd25519Id` is the answer of
`should_include_ed25519_id_extend_cells`. -/
def extendSpecifiers (includeEd25519Id : Bool) (cellIn : ExtendCell) : List LinkSpecifier :=
  (if orportIsValid ipv4IsNull cellIn.orportIpv4 then
    [.ipv4 (cellIn.orportIpv4.1.getD 0) cellIn.orportIpv4.2] else []) ++
  [.legacyId cellIn.nodeId] ++
  (if includeEd25519Id ∧ ¬ cellIn.edPubkey.1.all (· = 0) then [.ed25519Id cellIn.edPubkey] else [])
  ++
  (if orportIsValid ipv6IsNull cellIn.orportIpv6 then
    [.ipv6 (cellIn.orportIpv6.1.getD (zeroed 16)) cellIn.orportIpv6.2] else [])

def nSpecifiers (includeEd25519Id : Bool) (cellIn : ExtendCell) : UInt8 :=
  1 + (if orportIsValid ipv4IsNull cellIn.orportIpv4 then 1 else 0)
    + (if includeEd25519Id ∧ ¬ cellIn.edPubkey.1.all (· = 0) then 1 else 0)
    + (if orportIsValid ipv6IsNull cellIn.orportIpv6 then 1 else 0)

def extendCellFormat (includeEd25519Id : Bool) (cellIn : ExtendCell) : Option RelayMsg :=
  if ¬ checkExtendCell cellIn then none
  else if cellIn.cellType = relayCommandExtend2 then
    match h : extend2CellBodyEncode 498 ⟨nSpecifiers includeEd25519Id cellIn,
        extendSpecifiers includeEd25519Id cellIn,
        ⟨cellIn.createCell.handshakeType, UInt16.ofNat cellIn.createCell.onionskin.1.length,
          cellIn.createCell.onionskin.1⟩⟩ with
    | none => none
    | some bs =>
      some ⟨relayCommandExtend2, padded 498 ⟨bs, extend2CellBodyEncode_length h⟩, bs.length⟩
  else none

/-! ## EXTENDED2 messages -/

def checkExtendedCell (cell : ExtendedCell) : Bool :=
  if cell.createdCell.cellType = cellCreated then
    cell.cellType = relayCommandExtended && checkCreatedCell cell.createdCell
  else if cell.createdCell.cellType = cellCreated2 then
    cell.cellType = relayCommandExtended2 && checkCreatedCell cell.createdCell
  else false

/-- `extended_cell_parse`; `payload_len - 2` is a `size_t`. -/
def extendedCellParse (msg : RelayMsg) : Option ExtendedCell := do
  if msg.length > relayPayloadSize then none
  else if msg.command = relayCommandExtended2 then
    let (handshakeLen, p) ← readUint16 msg.payload.1
    if h : handshakeLen.toNat > relayPayloadSize - 2 ∨
        handshakeLen.toNat > (msg.length + 2 ^ 64 - 2) % 2 ^ 64 then none
    else
      let cellOut : ExtendedCell := ⟨relayCommandExtended2, cellCreated2,
        p.take handshakeLen.toNat, by
          rw [List.length_take]
          simp only [relayPayloadSize] at h
          omega⟩
      if checkExtendedCell cellOut then some cellOut else none
  else none

lemma CreatedCell.extended2_length_le (cell : CreatedCell)
    (h : ¬ 2 + cell.reply.1.length > relayPayloadSize) :
    (writeUint16 (UInt16.ofNat cell.reply.1.length) ++ cell.reply.1).length ≤ 498 := by
  simp only [writeUint16, length_append, length_cons, length_nil]
  simp only [relayPayloadSize] at h
  omega

def extendedCellFormat (cellIn : ExtendedCell) : Option RelayMsg :=
  if ¬ checkExtendedCell cellIn then none
  else if cellIn.cellType = relayCommandExtended2 then
    if h : 2 + cellIn.createdCell.reply.1.length > relayPayloadSize then none
    else some ⟨relayCommandExtended2, padded 498
      ⟨writeUint16 (UInt16.ofNat cellIn.createdCell.reply.1.length) ++ cellIn.createdCell.reply.1,
        cellIn.createdCell.extended2_length_le h⟩, 2 + cellIn.createdCell.reply.1.length⟩
  else none

/-! ## Fixed cells -/

variable {c : CreateCell} {d : CreatedCell} {cell : Cell} {n : ℕ}

lemma toNat_ofNat_length {bs : List UInt8} (h : bs.length ≤ 507) :
    (UInt16.ofNat bs.length).toNat = bs.length := by
  rw [UInt16.toNat_ofNat']
  omega

lemma parseCreate2Payload_format (handshakeType : UInt16) (onionskin : Buffered 505)
    (rest : List UInt8) :
    parseCreate2Payload (writeUint16 handshakeType ++
      (writeUint16 (UInt16.ofNat onionskin.1.length) ++ onionskin.1) ++ rest)
      = if handshakeType = handshakeTypeFast then none
        else some ⟨cellCreate2, handshakeType, onionskin⟩ := by
  have hlen := toNat_ofNat_length (onionskin.2.trans (by omega))
  have htype := reads_readUint16 handshakeType
    (writeUint16 (UInt16.ofNat onionskin.1.length) ++ (onionskin.1 ++ rest))
  have hsize := reads_readUint16 (UInt16.ofNat onionskin.1.length) (onionskin.1 ++ rest)
  rw [StateT.run] at htype hsize
  rw [parseCreate2Payload, append_assoc, append_assoc, htype]
  simp only [bind_eq_bind, bind_some, hsize]
  rw [dif_neg (by rw [hlen, length_append, cellPayloadSize]; omega)]
  simp only [hlen, take_left]

lemma padded_val {bs : Buffered n} : (padded n bs).1 = bs.1 ++ List.replicate (n - bs.1.length) 0 :=
  rfl

lemma cellType_of_check {unknownOk : Bool} (h : checkCreateCell c unknownOk = true) :
    (c.cellType = cellCreateFast ∧ c.handshakeType = handshakeTypeFast)
      ∨ c.cellType = cellCreate2 := by
  rw [checkCreateCell] at h
  split at h
  · cases h
  · next hfast =>
      split at h
      · cases h
      · next htype =>
          rw [not_and_or, not_ne_iff, not_ne_iff] at htype
          rcases htype with htype | htype
          · exact .inl ⟨htype, not_not.mp fun hne => hfast ⟨htype, hne⟩⟩
          · exact .inr htype

lemma length_of_checkFast {unknownOk : Bool} (h : checkCreateCell c unknownOk = true)
    (hfast : c.handshakeType = handshakeTypeFast) : c.onionskin.1.length = createFastLen := by
  rw [checkCreateCell] at h
  split at h
  · cases h
  · split at h
    · cases h
    · split at h
      · cases h
      · exact of_decide_eq_true h

lemma createCellFormatImpl_create2 {relayed : Bool} (h : checkCreateCell c relayed = true)
    (htype : c.cellType = cellCreate2) :
    ∃ cell, createCellFormatImpl c relayed = some cell ∧ cell.command = cellCreate2
      ∧ parseCreate2Payload cell.payload.1
        = if c.handshakeType = handshakeTypeFast then none else some c := by
  rw [createCellFormatImpl, if_neg (by simp [h]), if_neg (by rw [htype]; decide), if_pos htype]
  refine ⟨_, rfl, htype, ?_⟩
  simp only [padded_val]
  rw [parseCreate2Payload_format, ← htype]

/-- **Parsing undoes formatting** of CREATE cells, but that the parser refuses the handshake of
CREATE_FAST in a CREATE2 cell. -/
theorem createCellParse_format (h : checkCreateCell c false = true) :
    ∃ cell, createCellFormat c = some cell ∧ createCellParse cell
        = if c.cellType = cellCreate2 ∧ c.handshakeType = handshakeTypeFast then none
          else some c := by
  rcases cellType_of_check h with ⟨htype, hfast⟩ | htype
  · have hlen := length_of_checkFast h hfast
    obtain ⟨cellType, handshakeType, onionskin, hle⟩ := c
    subst htype hfast
    refine ⟨_, by rw [createCellFormat, createCellFormatImpl, if_neg (by simp [h]), if_pos rfl], ?_⟩
    rw [if_neg fun hboth => absurd (show cellCreateFast = cellCreate2 from hboth.1) (by decide),
      createCellParse, if_pos rfl]
    simp only [padded_val, take_left' hlen, bind_eq_bind, bind_some, h, if_true]
  · obtain ⟨cell, hcell, hcommand, hparse⟩ := createCellFormatImpl_create2 h htype
    refine ⟨cell, hcell, ?_⟩
    rw [createCellParse, hcommand, if_neg (by decide), if_pos rfl, hparse]
    by_cases hfast : c.handshakeType = handshakeTypeFast
    · rw [if_pos hfast, if_pos ⟨htype, hfast⟩]
      rfl
    · rw [if_neg hfast, if_neg fun hboth => hfast hboth.2]
      simp only [bind_eq_bind, bind_some, h, if_true]

/-- **A handshake that the relay does not know** is sent on as it is. -/
theorem createCellFormatRelayed_unknown (htype : c.cellType = cellCreate2)
    (hunknown : c.handshakeType ∉
      [handshakeTypeTap, handshakeTypeFast, handshakeTypeNtor, handshakeTypeNtorV3]) :
    ∃ cell, createCellFormatRelayed c = some cell ∧ cell.command = cellCreate2
      ∧ parseCreate2Payload cell.payload.1 = some c := by
  simp only [mem_cons, not_mem_nil, or_false, not_or] at hunknown
  obtain ⟨htap, hfast, hntor, hntor3⟩ := hunknown
  have hcheck : checkCreateCell c true = true := by
    rw [checkCreateCell, if_neg fun h => absurd (htype.symm.trans h.1) (by decide),
      if_neg fun h => h.2 htype, if_neg htap, if_neg hfast, if_neg hntor, if_neg hntor3]
  obtain ⟨cell, hcell, hcommand, hparse⟩ := createCellFormatImpl_create2 hcheck htype
  rw [if_neg hfast] at hparse
  exact ⟨cell, hcell, hcommand, hparse⟩

/-- **Parsing undoes formatting** of CREATED cells. -/
theorem createdCellParse_format (h : checkCreatedCell d = true)
    (htype : d.cellType = cellCreatedFast ∨ d.cellType = cellCreated2) :
    ∃ cell, createdCellFormat d = some cell ∧ createdCellParse cell = some d := by
  have hfast : cellCreatedFast ≠ cellCreated := by decide
  have hcreated2 : cellCreated2 ≠ cellCreated := by decide
  have hcreated2' : cellCreated2 ≠ cellCreatedFast := by decide
  obtain ⟨cellType, reply, hle⟩ := d
  rcases htype with htype | htype
  · simp only at htype
    subst htype
    have hlen : reply.length = createdFastLen := by
      simpa [checkCreatedCell, cellCreated, cellCreatedFast] using h
    refine ⟨_, by rw [createdCellFormat, if_neg (by simp [h]), if_pos (.inr rfl)], ?_⟩
    rw [createdCellParse, if_neg hfast, if_pos rfl]
    simp only [padded_val, take_left' hlen, bind_eq_bind, bind_some, h, if_true]
  · simp only at htype
    subst htype
    have hsize := toNat_ofNat_length hle
    have hneither : ¬ (cellCreated2 = cellCreated ∨ cellCreated2 = cellCreatedFast) := by decide
    refine ⟨_, by rw [createdCellFormat, if_neg (by simp [h]), if_neg hneither, if_pos rfl], ?_⟩
    rw [createdCellParse, if_neg hcreated2, if_neg hcreated2', if_pos rfl]
    simp only [padded_val, append_assoc]
    have hread := reads_readUint16 (UInt16.ofNat reply.length) (reply ++ List.replicate
      (509 - (writeUint16 (UInt16.ofNat reply.length) ++ reply).length) 0)
    rw [StateT.run] at hread
    simp only [hread, bind_eq_bind, bind_some]
    rw [dif_neg (by rw [hsize, cellPayloadSize]; omega)]
    simp only [hsize, take_left, h, if_true]

/-! ## EXTENDED2 messages -/

/-- **Parsing undoes formatting** of EXTENDED2 messages. -/
theorem extendedCellParse_format {e : ExtendedCell} (h : checkExtendedCell e = true) :
    ∃ msg, extendedCellFormat e = some msg ∧ extendedCellParse msg = some e := by
  obtain ⟨cellType, createdType, reply, hle⟩ := e
  have hne : cellCreated2 ≠ cellCreated := by decide
  have hne' : cellCreated2 ≠ cellCreatedFast := by decide
  obtain ⟨rfl, rfl, hlen⟩ : cellType = relayCommandExtended2 ∧ createdType = cellCreated2
      ∧ reply.length ≤ relayPayloadSize - 2 := by
    rw [checkExtendedCell] at h
    split at h
    · next hcreated => simp [checkCreatedCell, show createdType = cellCreated from hcreated] at h
    · split at h
      · next hcreated2 =>
          have htype : createdType = cellCreated2 := hcreated2
          subst htype
          simpa [checkCreatedCell, hne, hne'] using h
      · cases h
  have hsize := toNat_ofNat_length hle
  have hle' : reply.length ≤ 496 := hlen
  have hfit : 2 + reply.length ≤ relayPayloadSize := by
    rw [relayPayloadSize]
    omega
  refine ⟨_, by rw [extendedCellFormat, if_neg (by simp [h]), if_pos rfl, dif_neg hfit.not_gt], ?_⟩
  have hread := reads_readUint16 (UInt16.ofNat reply.length) (reply ++ List.replicate
    (498 - (writeUint16 (UInt16.ofNat reply.length) ++ reply).length) 0)
  rw [StateT.run] at hread
  rw [extendedCellParse, if_neg hfit.not_gt, if_pos rfl]
  simp only [padded_val, append_assoc, hread, bind_eq_bind, bind_some]
  rw [dif_neg (by rw [hsize, relayPayloadSize]; omega)]
  simp only [hsize, take_left, h, if_true]

/-! ## EXTEND2 messages -/

variable {inc : Bool} {e : ExtendCell} {msg : RelayMsg}

/-- What comes back of an EXTEND2 message: an ORPort that is not valid is not sent, and the
Ed25519 identity if these are to be included. -/
def extendCellSent (includeEd25519Id : Bool) (cell : ExtendCell) : ExtendCell :=
  { cell with
    orportIpv4 := if orportIsValid ipv4IsNull cell.orportIpv4 then cell.orportIpv4 else (none, 0)
    orportIpv6 := if orportIsValid ipv6IsNull cell.orportIpv6 then cell.orportIpv6 else (none, 0)
    edPubkey := if includeEd25519Id then cell.edPubkey else zeroed 32 }

/-- The body that `extend_cell_format` encodes. -/
def extendBody (includeEd25519Id : Bool) (cell : ExtendCell) : Extend2CellBody :=
  ⟨nSpecifiers includeEd25519Id cell, extendSpecifiers includeEd25519Id cell,
    ⟨cell.createCell.handshakeType, UInt16.ofNat cell.createCell.onionskin.1.length,
      cell.createCell.onionskin.1⟩⟩

lemma nSpecifiers_toNat (inc : Bool) (e : ExtendCell) :
    (extendSpecifiers inc e).length = (nSpecifiers inc e).toNat := by
  simp only [extendSpecifiers, nSpecifiers, length_append, length_singleton]
  split_ifs <;> rfl

lemma un_length_le : ∀ ls ∈ extendSpecifiers inc e, ls.un.length ≤ 255 := by
  have hun : ∀ ls : LinkSpecifier, (∀ t un, ls ≠ .unrecognized t un) → ls.un.length ≤ 255 := by
    intro ls hls
    cases ls with
    | ipv4 addr port => simp [LinkSpecifier.un, writeUint32, writeUint16]
    | ipv6 addr port => simp [LinkSpecifier.un, writeUint16, addr.2]
    | legacyId id | ed25519Id id => simp [LinkSpecifier.un, id.2]
    | unrecognized t un => exact absurd rfl (hls t un)
  intro ls hls
  refine hun ls fun t un heq => ?_
  subst heq
  simp only [extendSpecifiers, mem_append, mem_singleton] at hls
  split_ifs at hls <;> simp at hls

lemma create_of_checkExtendCell (h : checkExtendCell e = true) :
    e.cellType = relayCommandExtend2 ∧ e.createCell.cellType = cellCreate2
      ∧ e.createCell.handshakeType ≠ handshakeTypeFast
      ∧ checkCreateCell e.createCell true = true := by
  rw [checkExtendCell] at h
  split_ifs at h with _ _ hcreate htype hhandshake
  exact ⟨not_ne_iff.mp htype, not_ne_iff.mp hcreate, fun hfast => hhandshake (.inl hfast), h⟩

/-- **What an EXTEND2 message carries** can be sent on. -/
theorem createCellFormatRelayed_of_parse (h : extendCellParse msg = some e) :
    ∃ cell, createCellFormatRelayed e.createCell = some cell ∧ cell.command = cellCreate2
      ∧ parseCreate2Payload cell.payload.1 = some e.createCell := by
  have hcheck : checkExtendCell e = true := by
    rw [extendCellParse] at h
    split_ifs at h
    obtain ⟨⟨body, rest⟩, -, h⟩ := bind_eq_some_iff.mp h
    obtain ⟨cellOut, -, h⟩ := bind_eq_some_iff.mp h
    split_ifs at h with hcheck
    exact some.inj h ▸ hcheck
  obtain ⟨-, htype, hfast, hcreate⟩ := create_of_checkExtendCell hcheck
  obtain ⟨cell, hcell, hcommand, hparse⟩ := createCellFormatImpl_create2 hcreate htype
  rw [if_neg hfast] at hparse
  exact ⟨cell, hcell, hcommand, hparse⟩

lemma findSpecs_extendSpecifiers (inc : Bool) (e : ExtendCell) :
    findSpecs {} (extendSpecifiers inc e) = some {
      ipv4 := if orportIsValid ipv4IsNull e.orportIpv4 then
        some (e.orportIpv4.1.getD 0, e.orportIpv4.2) else none
      ipv6 := if orportIsValid ipv6IsNull e.orportIpv6 then
        some (e.orportIpv6.1.getD (zeroed 16), e.orportIpv6.2) else none
      rsaId := some e.nodeId
      edId := if inc ∧ ¬ e.edPubkey.1.all (· = 0) then some e.edPubkey else none } := by
  rw [extendSpecifiers]
  split_ifs <;> rfl

lemma orportIsValid_getD {α : Type} {isNull : α → Bool} {ap : Orport α}
    (h : orportIsValid isNull ap = true) (a : α) : (some (ap.1.getD a), ap.2) = ap := by
  obtain ⟨addr, port⟩ := ap
  cases addr with
  | none => simp [orportIsValid] at h
  | some addr => rfl

lemma eq_zeroed {bs : Fixed n} (h : bs.1.all (· = 0) = true) : bs = zeroed n := by
  refine Subtype.ext (eq_replicate_iff.mpr ⟨bs.2, fun b hb => ?_⟩)
  simpa using List.all_eq_true.mp h b hb

lemma orport_of_checkExtendCell (h : checkExtendCell e = true) :
    orportIsValid ipv4IsNull e.orportIpv4 = true
      ∨ orportIsValid ipv6IsNull e.orportIpv6 = true := by
  rw [checkExtendCell] at h
  split_ifs at h with _ hport
  rw [not_and_or, not_not, not_or, not_not, not_not] at hport
  exact hport.imp_right And.right

lemma extendCellFromExtend2CellBody_extendBody (inc : Bool) (h : checkExtendCell e = true) :
    extendCellFromExtend2CellBody (extendBody inc e) = some (extendCellSent inc e) := by
  obtain ⟨htype, hcreate, -, -⟩ := create_of_checkExtendCell h
  have hport := orport_of_checkExtendCell h
  have hbody : createCellFromCreate2CellBody (extendBody inc e).create2 = some e.createCell := by
    obtain ⟨_, _, _, _, _, ⟨createType, handshakeType, onionskin, hle⟩⟩ := e
    obtain rfl : createType = cellCreate2 := hcreate
    exact dif_neg (not_lt.mpr hle)
  have hed : (if inc = true ∧ ¬ e.edPubkey.1.all (· = 0) = true then some e.edPubkey else none).getD
      (zeroed 32) = if inc then e.edPubkey else zeroed 32 := by
    cases inc with
    | false => simp
    | true =>
      by_cases hzero : e.edPubkey.1.all (· = 0) = true
      · simp [hzero, ← eq_zeroed hzero]
      · simp [hzero]
  rw [extendCellFromExtend2CellBody, show (extendBody inc e).ls = extendSpecifiers inc e from rfl,
    findSpecs_extendSpecifiers, hbody]
  simp only [bind_eq_bind, bind_some, hed, extendCellSent, htype]
  by_cases h4 : orportIsValid ipv4IsNull e.orportIpv4 = true
  · by_cases h6 : orportIsValid ipv6IsNull e.orportIpv6 = true
    · simp [h4, h6, orportIsValid_getD h4, orportIsValid_getD h6]
    · simp [h4, h6, orportIsValid_getD h4]
  · have h6 := hport.resolve_left h4
    simp [h4, h6, orportIsValid_getD h6]

lemma checkExtendCell_extendCellSent (h : checkExtendCell e = true) :
    checkExtendCell (extendCellSent inc e) = true := by
  have hvalid : ∀ {α : Type} (isNull : α → Bool) (ap : Orport α),
      orportIsValid isNull (if orportIsValid isNull ap then ap else (none, 0))
        = orportIsValid isNull ap := by
    intro α isNull ap
    split
    · rfl
    · next hno => simp [orportIsValid] at hno ⊢; exact hno
  rw [checkExtendCell] at h ⊢
  simp only [extendCellSent, hvalid]
  exact h

/-- **Parsing undoes formatting** of EXTEND2 messages, as far as they are sent; every handshake
that fits is formatted. -/
theorem extendCellParse_format (inc : Bool) (h : checkExtendCell e = true) :
    (extendCellFormat inc e = none ↔ 498 < extend2CellBodyEncodedLen (extendBody inc e))
      ∧ ∀ msg, extendCellFormat inc e = some msg →
          extendCellParse msg = some (extendCellSent inc e) := by
  obtain ⟨htype, -, -, -⟩ := create_of_checkExtendCell h
  have hdata : (extendBody inc e).create2.handshakeData.length
      = (extendBody inc e).create2.handshakeLen.toNat :=
    (toNat_ofNat_length (e.createCell.onionskin.2.trans (by omega))).symm
  rw [← extend2CellBodyEncode_eq_none_iff (nSpecifiers_toNat inc e) hdata un_length_le,
    extendCellFormat, if_neg (by simp [h]), if_pos htype]
  constructor
  · split
    · next hnone => exact ⟨fun _ => hnone, fun _ => rfl⟩
    · next bs hsome =>
        refine ⟨fun hno => absurd hno (by simp), fun hno => ?_⟩
        exact absurd (hsome.symm.trans hno) (by simp)
  · intro msg hmsg
    split at hmsg
    · cases hmsg
    · next bs hsome =>
        obtain rfl := some.inj hmsg
        have hreads := reads_extend2CellBodyEncode hsome []
        rw [StateT.run, append_nil] at hreads
        have hlen := extend2CellBodyEncode_length hsome
        rw [extendCellParse, if_neg (by simp only [relayPayloadSize]; omega), if_pos rfl]
        simp only [padded_val, take_left, hreads, bind_eq_bind, bind_some]
        have hcell := extendCellFromExtend2CellBody_extendBody inc h
        rw [extendBody] at hcell
        rw [hcell, bind_some, if_pos (checkExtendCell_extendCellSent h)]

/-- **The codecs of the handshake cells.** -/
theorem handshakeCells_parse_format :
    (∀ c, checkCreateCell c false = true → ∃ cell, createCellFormat c = some cell
        ∧ createCellParse cell
          = if c.cellType = cellCreate2 ∧ c.handshakeType = handshakeTypeFast then none
            else some c)
    ∧ (∀ d, checkCreatedCell d = true → d.cellType = cellCreatedFast ∨ d.cellType = cellCreated2 →
        ∃ cell, createdCellFormat d = some cell ∧ createdCellParse cell = some d)
    ∧ (∀ inc e, checkExtendCell e = true →
        (extendCellFormat inc e = none ↔ 498 < extend2CellBodyEncodedLen (extendBody inc e))
          ∧ ∀ msg, extendCellFormat inc e = some msg →
              extendCellParse msg = some (extendCellSent inc e))
    ∧ (∀ e, checkExtendedCell e = true →
        ∃ msg, extendedCellFormat e = some msg ∧ extendedCellParse msg = some e)
    ∧ (∀ c : CreateCell, c.cellType = cellCreate2 → c.handshakeType ∉
          [handshakeTypeTap, handshakeTypeFast, handshakeTypeNtor, handshakeTypeNtorV3] →
        ∃ cell, createCellFormatRelayed c = some cell ∧ cell.command = cellCreate2
          ∧ parseCreate2Payload cell.payload.1 = some c)
    ∧ ∀ msg e, extendCellParse msg = some e →
        ∃ cell, createCellFormatRelayed e.createCell = some cell ∧ cell.command = cellCreate2
          ∧ parseCreate2Payload cell.payload.1 = some e.createCell :=
  ⟨fun _ => createCellParse_format, fun _ => createdCellParse_format,
    fun inc _ => extendCellParse_format inc, fun _ => extendedCellParse_format,
    fun _ => createCellFormatRelayed_unknown, fun _ _ => createCellFormatRelayed_of_parse⟩

/-- A CREATE2 cell with the handshake of CREATE_FAST. -/
def fastCreate2 : CreateCell := ⟨cellCreate2, handshakeTypeFast, List.replicate 20 1, by simp⟩

/-- An EXTEND2 message to a relay with an Ed25519 identity. -/
def ed25519Extend : ExtendCell where
  cellType := relayCommandExtend2
  orportIpv4 := (some 0x01020304, 9001)
  orportIpv6 := (none, 0)
  nodeId := ⟨List.replicate 20 1, rfl⟩
  edPubkey := ⟨List.replicate 32 1, rfl⟩
  createCell := ⟨cellCreate2, handshakeTypeNtorV3, [1], by simp⟩

/-- A handshake is refused that was formatted, and an identity is lost that is not included. -/
theorem handshakeCells_parse_format_fails :
    (¬ ∀ c cell, checkCreateCell c false = true → createCellFormat c = some cell →
        createCellParse cell = some c)
    ∧ ¬ ∀ inc e msg, checkExtendCell e = true → extendCellFormat inc e = some msg →
        extendCellParse msg = some e := by
  constructor
  · intro h
    obtain ⟨cell, hcell, hparse⟩ := createCellParse_format (c := fastCreate2) (by decide)
    rw [if_pos (by decide), h fastCreate2 cell (by decide) hcell] at hparse
    cases hparse
  · intro h
    obtain ⟨hfit, hparse⟩ := extendCellParse_format (e := ed25519Extend) false (by decide)
    obtain ⟨msg, hmsg⟩ : ∃ msg, extendCellFormat false ed25519Extend = some msg := by
      refine ne_none_iff_exists'.mp fun hnone => ?_
      exact absurd (hfit.mp hnone) (by decide)
    have hsent := (hparse msg hmsg).symm.trans (h false ed25519Extend msg (by decide) hmsg)
    have hkey := congrArg (fun e => e.edPubkey.1.head?) (some.inj hsent)
    exact absurd hkey (by decide)

end Ator.Onion

import Mathlib.Data.Fin.VecNotation
import Mathlib.Data.UInt
import Mathlib.Tactic.FinCases

/-!
# Relay cells

The payload of a cell, and the relay header at its start (`relay_header_pack` and
`relay_header_unpack` of `src/core/or/relay.c`).

* `Payload.setIntegrity` — a header unpacked, given another integrity field, and packed again.
  Nothing else changes, and it can be undone.
* `FreshPayload` — what the ends hand to the crypto code: the fields that the crypto code fills in
  are zero.
-/

namespace Ator.Onion

/-- `cell_t.payload`, of `CELL_PAYLOAD_SIZE` bytes. -/
abbrev Payload := Fin 509 → UInt8

/-- The four bytes of the integrity field. -/
abbrev Integrity := Fin 4 → UInt8

structure RelayHeader where
  command : UInt8
  recognized : UInt16
  streamId : UInt16
  integrity : Integrity
  length : UInt16
deriving DecidableEq

/-! ## Network order -/

def highByte (x : UInt16) : UInt8 := UInt8.ofNat (x.toNat / 256)

def lowByte (x : UInt16) : UInt8 := UInt8.ofNat (x.toNat % 256)

def joinBytes (high low : UInt8) : UInt16 := UInt16.ofNat (high.toNat * 256 + low.toNat)

@[simp] lemma highByte_joinBytes (high low : UInt8) : highByte (joinBytes high low) = high := by
  have h := high.toNat_lt
  have l := low.toNat_lt
  refine UInt8.toNat_inj.mp ?_
  simp only [highByte, joinBytes, UInt8.toNat_ofNat', UInt16.toNat_ofNat']
  omega

@[simp] lemma lowByte_joinBytes (high low : UInt8) : lowByte (joinBytes high low) = low := by
  have l := low.toNat_lt
  refine UInt8.toNat_inj.mp ?_
  simp only [lowByte, joinBytes, UInt8.toNat_ofNat', UInt16.toNat_ofNat']
  omega

@[simp] lemma joinBytes_bytes (x : UInt16) : joinBytes (highByte x) (lowByte x) = x := by
  have h := x.toNat_lt
  refine UInt16.toNat_inj.mp ?_
  simp only [highByte, lowByte, joinBytes, UInt8.toNat_ofNat', UInt16.toNat_ofNat']
  omega

/-! ## The header -/

/-- `relay_header_pack(dest, src)` -/
def relayHeaderPack (dest : Payload) (src : RelayHeader) : Payload := fun i =>
  match i.val with
  | 0 => src.command
  | 1 => highByte src.recognized
  | 2 => lowByte src.recognized
  | 3 => highByte src.streamId
  | 4 => lowByte src.streamId
  | 5 => src.integrity 0
  | 6 => src.integrity 1
  | 7 => src.integrity 2
  | 8 => src.integrity 3
  | 9 => highByte src.length
  | 10 => lowByte src.length
  | _ => dest i

def relayHeaderUnpack (src : Payload) : RelayHeader where
  command := src 0
  recognized := joinBytes (src 1) (src 2)
  streamId := joinBytes (src 3) (src 4)
  integrity := ![src 5, src 6, src 7, src 8]
  length := joinBytes (src 9) (src 10)

@[simp] lemma relayHeaderUnpack_pack (dest : Payload) (src : RelayHeader) :
    relayHeaderUnpack (relayHeaderPack dest src) = src := by
  obtain ⟨command, recognized, streamId, integrity, length⟩ := src
  refine RelayHeader.mk.injEq .. |>.mpr ⟨rfl, joinBytes_bytes _, joinBytes_bytes _, ?_,
    joinBytes_bytes _⟩
  funext k
  fin_cases k <;> rfl

@[simp] lemma relayHeaderPack_pack (dest : Payload) (src src' : RelayHeader) :
    relayHeaderPack (relayHeaderPack dest src) src' = relayHeaderPack dest src' := by
  funext i
  rw [relayHeaderPack, relayHeaderPack]
  split <;> simp_all [relayHeaderPack]

@[simp] lemma relayHeaderPack_unpack (dest : Payload) :
    relayHeaderPack dest (relayHeaderUnpack dest) = dest := by
  funext i
  obtain ⟨i, hi⟩ := i
  rw [relayHeaderPack]
  split
  all_goals simp_all [relayHeaderUnpack]

/-! ## The integrity field -/

/-- The header is unpacked, and packed again with another integrity field. -/
def Payload.setIntegrity (p : Payload) (integrity : Integrity) : Payload :=
  relayHeaderPack p { relayHeaderUnpack p with integrity := integrity }

variable {p : Payload} {a b : Integrity}

@[simp] lemma integrity_setIntegrity :
    (relayHeaderUnpack (p.setIntegrity a)).integrity = a := by
  simp [Payload.setIntegrity]

@[simp] lemma recognized_setIntegrity :
    (relayHeaderUnpack (p.setIntegrity a)).recognized = (relayHeaderUnpack p).recognized := by
  simp [Payload.setIntegrity]

@[simp] lemma setIntegrity_setIntegrity :
    (p.setIntegrity a).setIntegrity b = p.setIntegrity b := by
  simp [Payload.setIntegrity]

@[simp] lemma setIntegrity_integrity (p : Payload) :
    p.setIntegrity (relayHeaderUnpack p).integrity = p :=
  relayHeaderPack_unpack p

/-- A payload that is ready for the crypto code: its integrity and recognized fields are zero. -/
structure FreshPayload where
  payload : Payload
  recognized_eq : (relayHeaderUnpack payload).recognized = 0
  integrity_eq : (relayHeaderUnpack payload).integrity = 0

lemma FreshPayload.setIntegrity_zero (p : FreshPayload) :
    (p.payload.setIntegrity a).setIntegrity 0 = p.payload := by
  rw [setIntegrity_setIntegrity, ← p.integrity_eq, setIntegrity_integrity]

end Ator.Onion

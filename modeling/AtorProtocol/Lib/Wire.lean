import Mathlib.Data.UInt

/-!
# Binary formats

A reader takes a value off the front of a byte string, or fails.  `Reads p bs a` says that a reader
finds the value `a` in front of anything that starts with `bs`, and takes `bs` off: that `bs` is an
encoding of `a`.

* `readUint8`, `readUint16`, `readUint32` — numbers in network order.
* `readFixed` — a field of a fixed length.
* `Reads.bind` — one field behind another.
* `reads_readTimes` — a counted list.
* `Reads.within` — a part with its length in front.
-/

namespace Ator.Wire

open List

/-- A byte string of a fixed length. -/
abbrev Fixed (n : ℕ) := {bs : List UInt8 // bs.length = n}

/-- A reader of values from the front of a byte string. -/
abbrev Reader (α : Type) := StateT (List UInt8) Option α

variable {α β : Type} {p : Reader α} {f : α → Reader β} {a : α} {b : β}
  {bs cs input rest : List UInt8} {n : ℕ}

/-- The bytes are an encoding of the value. -/
def Reads (p : Reader α) (bs : List UInt8) (a : α) : Prop :=
  ∀ rest, p.run (bs ++ rest) = some (a, rest)

/-! ## Fields -/

def readUint8 : Reader UInt8
  | [] => none
  | b :: rest => some (b, rest)

def writeUint8 (b : UInt8) : List UInt8 := [b]

def readUint16 : Reader UInt16
  | high :: low :: rest => some (UInt16.ofNat (high.toNat * 256 + low.toNat), rest)
  | _ => none

def writeUint16 (x : UInt16) : List UInt8 :=
  [UInt8.ofNat (x.toNat / 256), UInt8.ofNat (x.toNat % 256)]

def readUint32 : Reader (BitVec 32)
  | b1 :: b2 :: b3 :: b4 :: rest =>
    some (BitVec.ofNat 32 (((b1.toNat * 256 + b2.toNat) * 256 + b3.toNat) * 256 + b4.toNat), rest)
  | _ => none

def writeUint32 (x : BitVec 32) : List UInt8 :=
  [UInt8.ofNat (x.toNat / 2 ^ 24), UInt8.ofNat (x.toNat / 2 ^ 16 % 256),
    UInt8.ofNat (x.toNat / 2 ^ 8 % 256), UInt8.ofNat (x.toNat % 256)]

/-- A field of `n` bytes. -/
def readFixed (n : ℕ) : Reader (Fixed n) := fun input =>
  if h : n ≤ input.length then some (⟨input.take n, length_take_of_le h⟩, input.drop n)
  else none

/-- All that is left. -/
def readAll : Reader (List UInt8) := fun input => some (input, [])

/-- A list of `n` values. -/
def readTimes (p : Reader α) : ℕ → Reader (List α)
  | 0 => pure []
  | n + 1 => do
    let a ← p
    let as ← readTimes p n
    return a :: as

/-- A part of `n` bytes, which the reader must take up. -/
def readWithin (n : ℕ) (p : Reader α) : Reader α := fun input =>
  if n ≤ input.length then
    match p.run (input.take n) with
    | some (a, []) => some (a, input.drop n)
    | _ => none
  else none

/-! ## Round trips -/

lemma reads_readUint8 (b : UInt8) : Reads readUint8 (writeUint8 b) b := fun _ => rfl

lemma reads_readUint16 (x : UInt16) : Reads readUint16 (writeUint16 x) x := by
  intro rest
  have hx := x.toNat_lt
  have hval : UInt16.ofNat ((UInt8.ofNat (x.toNat / 256)).toNat * 256
      + (UInt8.ofNat (x.toNat % 256)).toNat) = x := by
    refine UInt16.toNat_inj.mp ?_
    simp only [UInt8.toNat_ofNat', UInt16.toNat_ofNat']
    omega
  change some (_, rest) = _
  rw [hval]

lemma eq_of_readUint16 {x : UInt16} (h : readUint16 input = some (x, rest)) :
    input = writeUint16 x ++ rest := by
  obtain _ | ⟨high, _ | ⟨low, tail⟩⟩ := input
  · cases h
  · cases h
  obtain ⟨rfl, rfl⟩ := Prod.mk.inj (Option.some.inj h)
  have hhigh := high.toNat_lt
  have hlow := low.toNat_lt
  have hval : (UInt16.ofNat (high.toNat * 256 + low.toNat)).toNat
      = high.toNat * 256 + low.toNat := by
    rw [UInt16.toNat_ofNat', Nat.mod_eq_of_lt (by omega)]
  have hfirst : high = UInt8.ofNat ((high.toNat * 256 + low.toNat) / 256) :=
    UInt8.toNat_inj.mp (by rw [UInt8.toNat_ofNat']; omega)
  have hsecond : low = UInt8.ofNat ((high.toNat * 256 + low.toNat) % 256) :=
    UInt8.toNat_inj.mp (by rw [UInt8.toNat_ofNat']; omega)
  rw [writeUint16, hval, ← hfirst, ← hsecond]
  rfl

lemma reads_readUint32 (x : BitVec 32) : Reads readUint32 (writeUint32 x) x := by
  intro rest
  have hval : BitVec.ofNat 32 ((((UInt8.ofNat (x.toNat / 2 ^ 24)).toNat * 256
      + (UInt8.ofNat (x.toNat / 2 ^ 16 % 256)).toNat) * 256
      + (UInt8.ofNat (x.toNat / 2 ^ 8 % 256)).toNat) * 256
      + (UInt8.ofNat (x.toNat % 256)).toNat) = x := by
    refine BitVec.eq_of_toNat_eq ?_
    simp only [UInt8.toNat_ofNat', BitVec.toNat_ofNat]
    omega
  change some (_, rest) = _
  rw [hval]

lemma reads_readFixed (bs : Fixed n) : Reads (readFixed n) bs.1 bs := by
  intro rest
  obtain ⟨bs, rfl⟩ := bs
  change (if h : bs.length ≤ (bs ++ rest).length then _ else _) = _
  rw [dif_pos (by simp)]
  simp

lemma reads_pure (a : α) : Reads (pure a) [] a := fun _ => rfl

/-- **One field behind another.** -/
lemma Reads.bind (h : Reads p bs a) (h' : Reads (f a) cs b) : Reads (p >>= f) (bs ++ cs) b := by
  intro rest
  rw [StateT.run_bind, append_assoc, h (cs ++ rest)]
  exact h' rest

/-- The last field. -/
lemma Reads.map {g : α → β} (h : Reads p bs a) : Reads (p >>= fun a => pure (g a)) bs (g a) := by
  have hlast := h.bind (f := fun a => pure (g a)) (reads_pure (g a))
  rwa [append_nil] at hlast

/-- **A counted list.** -/
lemma reads_readTimes {enc : α → Option (List UInt8)}
    (h : ∀ a bs, enc a = some bs → Reads p bs a) {l : List α} {parts : List (List UInt8)}
    (hparts : l.mapM enc = some parts) : Reads (readTimes p l.length) parts.flatten l := by
  induction l generalizing parts with
  | nil =>
    obtain rfl : [] = parts := Option.some.inj hparts
    exact reads_pure []
  | cons a l ih =>
    rw [mapM_cons] at hparts
    obtain ⟨bs, hbs, hparts⟩ := Option.bind_eq_some_iff.mp hparts
    obtain ⟨rest, hrest, hparts⟩ := Option.bind_eq_some_iff.mp hparts
    obtain rfl : bs :: rest = parts := Option.some.inj hparts
    rw [flatten_cons]
    exact (h a bs hbs).bind (ih hrest).map

/-- **A part with its length.** -/
lemma Reads.within (h : Reads p bs a) (hn : bs.length = n) : Reads (readWithin n p) bs a := by
  intro rest
  subst hn
  have hrun := h []
  rw [append_nil] at hrun
  change (if bs.length ≤ (bs ++ rest).length then _ else _) = _
  rw [if_pos (by simp), take_left, hrun, drop_left]

/-- A part of which all is taken. -/
lemma reads_readWithin_readAll (g : List UInt8 → α) (bs : List UInt8) :
    Reads (readWithin bs.length (readAll >>= fun un => pure (g un))) bs (g bs) := by
  intro rest
  change (if bs.length ≤ (bs ++ rest).length then _ else _) = _
  rw [if_pos (by simp), take_left, drop_left]

end Ator.Wire

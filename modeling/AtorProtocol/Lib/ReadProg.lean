import AtorProtocol.Lib.Wire

/-!
# Programs that read memory

A program reads bytes at offsets from a pointer, and says where a subtraction of two lengths wraps
around.  It is confined to a length if it reads below it and nothing wraps; then what lies beyond
has no part in what it returns.

* `ReadProg` — the programs; `readUint16`, `readBytes`, `findNul`, `subSize`.
* `ReadProg.Confined` — every read is below the length.
* `ReadProg.Confined.run_congr` — two runs on memory that agrees below the length.
-/

namespace Ator

open Wire (Fixed)

/-- The bytes behind a pointer. -/
abbrev Memory := ℕ → UInt8

inductive ReadProg (α : Type) where
  | pure (a : α)
  | read (i : ℕ) (k : UInt8 → ReadProg α)
  | wraps (k : ReadProg α)

namespace ReadProg

variable {α β : Type}

def bind (f : α → ReadProg β) : ReadProg α → ReadProg β
  | .pure a => f a
  | .read i k => .read i fun b => (k b).bind f
  | .wraps k => .wraps (k.bind f)

instance instMonad : Monad ReadProg where
  pure := .pure
  bind p f := p.bind f

def run (mem : Memory) : ReadProg α → α
  | .pure a => a
  | .read i k => (k (mem i)).run mem
  | .wraps k => k.run mem

/-- Every read is below the length, and no subtraction wraps around. -/
def Confined (len : ℕ) (mem : Memory) : ReadProg α → Prop
  | .pure _ => True
  | .read i k => i < len ∧ (k (mem i)).Confined len mem
  | .wraps _ => False

/-! ## Reading -/

def readUint8 (i : ℕ) : ReadProg UInt8 := .read i .pure

/-- `ntohs(get_uint16(p + i))` -/
def readUint16 (i : ℕ) : ReadProg UInt16 := do
  let high ← readUint8 i
  let low ← readUint8 (i + 1)
  return UInt16.ofNat (high.toNat * 256 + low.toNat)

/-- `ntohl(get_uint32(p + i))` -/
def readUint32 (i : ℕ) : ReadProg (BitVec 32) := do
  let high ← readUint16 i
  let low ← readUint16 (i + 2)
  return BitVec.ofNat 32 (high.toNat * 65536 + low.toNat)

/-- `memcpy` of `n` bytes -/
def readBytes (i : ℕ) : (n : ℕ) → ReadProg (Fixed n)
  | 0 => return ⟨[], List.length_nil⟩
  | n + 1 => do
    let b ← readUint8 i
    let bs ← readBytes (i + 1) n
    return ⟨b :: bs.1, congrArg Nat.succ bs.2⟩

/-- `memchr(p + i, 0, n)` -/
def findNul (i : ℕ) : ℕ → ReadProg (Option ℕ)
  | 0 => return none
  | n + 1 => do
    let b ← readUint8 i
    if b = 0 then return some i else findNul (i + 1) n

/-- `a - b`, of type `size_t` -/
def subSize (a b : ℕ) : ReadProg {c : ℕ // b ≤ a → c = a - b} :=
  if h : b ≤ a then return ⟨a - b, fun _ => rfl⟩
  else .wraps (return ⟨a + 2 ^ 64 - b, fun h' => absurd h' h⟩)

/-! ## Two runs -/

variable {p : ReadProg α} {f : α → ReadProg β} {len i n : ℕ} {mem mem' : Memory}

@[simp] lemma run_pure (a : α) : run mem (Pure.pure a) = a := rfl

@[simp] lemma run_bind : run mem (p >>= f) = run mem (f (run mem p)) := by
  induction p with
  | pure a => rfl
  | read i k ih => exact ih (mem i)
  | wraps k ih => exact ih

@[simp] lemma confined_pure (a : α) : Confined len mem (Pure.pure a) := trivial

@[simp] lemma confined_bind :
    Confined len mem (p >>= f) ↔ Confined len mem p ∧ Confined len mem (f (run mem p)) := by
  induction p with
  | pure a => exact (iff_of_eq (true_and _)).symm
  | read i k ih => exact (and_congr_right fun _ => ih (mem i)).trans and_assoc.symm
  | wraps k ih => exact (iff_of_eq (false_and _)).symm

/-- **What lies beyond the length** has no part in the result. -/
theorem Confined.run_congr (h : Confined len mem p) (hagree : ∀ i < len, mem i = mem' i) :
    run mem p = run mem' p := by
  induction p with
  | pure a => rfl
  | read i k ih =>
    rw [run, run, ← hagree i h.1]
    exact ih (mem i) h.2
  | wraps k ih => exact h.elim

@[simp] lemma run_readUint8 : run mem (readUint8 i) = mem i := rfl

@[simp] lemma confined_readUint8 : Confined len mem (readUint8 i) ↔ i < len := iff_of_eq (and_true _)

@[simp] lemma confined_readUint16 : Confined len mem (readUint16 i) ↔ i + 2 ≤ len := by
  simp [readUint16]
  omega

@[simp] lemma confined_readUint32 : Confined len mem (readUint32 i) ↔ i + 4 ≤ len := by
  simp [readUint32]
  omega

@[simp] lemma confined_readBytes : Confined len mem (readBytes i n) ↔ n = 0 ∨ i + n ≤ len := by
  induction n generalizing i with
  | zero => simp [readBytes]
  | succ n ih =>
    simp [readBytes, ih]
    omega

lemma run_readBytes : (run mem (readBytes i n)).1 = (List.range' i n).map mem := by
  induction n generalizing i with
  | zero => rfl
  | succ n ih => simp [readBytes, ih, List.range'_succ]

lemma confined_findNul (h : i + n ≤ len) : Confined len mem (findNul i n) := by
  induction n generalizing i with
  | zero => exact confined_pure none
  | succ n ih =>
    rw [findNul, confined_bind, confined_readUint8]
    refine ⟨by omega, ?_⟩
    split
    · exact confined_pure _
    · exact ih (by omega)

/-- `memchr` finds the first of the bytes that is 0. -/
lemma run_findNul {nul : ℕ} : run mem (findNul i n) = some nul
    ↔ i ≤ nul ∧ nul < i + n ∧ mem nul = 0 ∧ ∀ j, i ≤ j → j < nul → mem j ≠ 0 := by
  induction n generalizing i with
  | zero => simp [findNul]; omega
  | succ n ih =>
    rw [findNul, run_bind, run_readUint8]
    by_cases hzero : mem i = 0
    · rw [if_pos hzero, run_pure, Option.some.injEq]
      constructor
      · rintro rfl
        exact ⟨le_rfl, by omega, hzero, fun j hj hlt => absurd hlt (by omega)⟩
      · rintro ⟨hle, -, -, hfirst⟩
        by_contra hne
        exact hfirst i le_rfl (by omega) hzero
    · rw [if_neg hzero, ih]
      constructor
      · rintro ⟨hle, hlt, hnul, hfirst⟩
        refine ⟨by omega, by omega, hnul, fun j hj hlt' => ?_⟩
        rcases hj.eq_or_lt with rfl | hj
        · exact hzero
        · exact hfirst j hj hlt'
      · rintro ⟨hle, hlt, hnul, hfirst⟩
        have hne : i ≠ nul := by
          rintro rfl
          exact hzero hnul
        exact ⟨by omega, by omega, hnul, fun j hj => hfirst j (by omega)⟩

@[simp] lemma confined_subSize {a b : ℕ} : Confined len mem (subSize a b) ↔ b ≤ a := by
  rw [subSize]
  split
  · next h => exact iff_of_true trivial h
  · next h => exact iff_of_false id h

end ReadProg

end Ator

import AtorProtocol.Lib.Plurality
import AtorProtocol.Policies.AddrPolicy
import Mathlib

/-!
# The consensus on a relay's entry

`compute_routerstatus_consensus` of `src/feature/dirauth/dirvote.c` chooses one of the entries that
the authorities' votes have for a relay, and with it a microdescriptor digest and an IPv6 ORPort.

* `compareVoteRs` — the comparison of two entries.  `ordOf_compareVoteRs` says which order it is.
* `ComputesTo` — what may be computed from a list of entries; `exists_computesTo` says it is not
  nothing.
* `mostFrequent_of_sorted` — the chosen digest and ORPort.
* `computesTo_agree` — authorities with the same votes choose alike.
-/

namespace Ator.Dirauth

open Ator.Policies List

/-- A string with no NUL in it. -/
abbrev CString := {bs : Bytes // 0 ∉ bs}

/-- The part of `vote_routerstatus_t` that the votes on one relay are computed from.  The time was
read by `parse_iso_time`, which refuses years before 1970. -/
structure VoteRouterstatus where
  identityDigest : {bs : Bytes // bs.length = 20}
  descriptorDigest : {bs : Bytes // bs.length = 20}
  publishedOn : ℤ
  published_nonneg : 0 ≤ publishedOn
  published_lt : publishedOn < 2 ^ 63
  nickname : CString
  ipv4Addr : TorAddr
  ipv4Orport : UInt16
  ipv4Dirport : UInt16
  ipv6Addr : TorAddr
  ipv6Orport : UInt16
  /-- The `microdesc_hash_line` of each element of the list `microdesc`. -/
  microdesc : List (List Char)

/-! ## Comparisons -/

def strcmp : Bytes → Bytes → ℤ
  | [], [] => 0
  | [], b :: _ => -b.toNat
  | a :: _, [] => a.toNat
  | a :: as, b :: bs => if a = b then strcmp as bs else (a.toNat : ℤ) - b.toNat

/-- `CMP_FIELD`: the difference in an unsigned type of `w` bits, read as a signed number. -/
def cmpFieldSigned (w : ℕ) (aval bval : ℤ) : ℤ :=
  let u := BitVec.ofInt w bval - BitVec.ofInt w aval
  if u.toInt < 0 then -1 else if 0 < u.toInt then 1 else 0

/-- `tor_addr_compare(addr1, addr2, CMP_EXACT)` -/
def torAddrCompare (addr1 addr2 : TorAddr) : ℤ := torAddrCompareMasked addr1 addr2 128

/-- `if ((r = …)) return r;` with what follows it. -/
def orElseInt (r rest : ℤ) : ℤ := if r ≠ 0 then r else rest

def compareVoteRs (a b : VoteRouterstatus) : ℤ :=
  orElseInt (torMemcmp a.identityDigest.1 b.identityDigest.1) <|
  orElseInt (torMemcmp a.descriptorDigest.1 b.descriptorDigest.1) <|
  orElseInt (cmpFieldSigned 64 a.publishedOn b.publishedOn) <|
  orElseInt (strcmp b.nickname.1 a.nickname.1) <|
  orElseInt (torAddrCompare a.ipv4Addr b.ipv4Addr) <|
  orElseInt (cmpFieldSigned 32 a.ipv4Orport.toNat b.ipv4Orport.toNat) <|
  cmpFieldSigned 32 a.ipv4Dirport.toNat b.ipv4Dirport.toNat

abbrev TorAddrPort := TorAddr × UInt16

def compareOrports (a b : TorAddrPort) : ℤ :=
  orElseInt (torAddrCompare a.1 b.1) ((b.2.toNat : ℤ) - a.2.toNat)

/-- A SHA-256 digest. -/
abbrev Digest256 := {bs : Bytes // bs.length = 32}

def compareDigests256 (a b : Digest256) : ℤ := torMemcmp a.1 b.1

/-- The order that a comparison stands for by the sign of what it returns. -/
def ordOf {α : Type*} (compar : α → α → ℤ) (a b : α) : Ordering := compare (compar a b) 0

/-! ## Microdescriptor digests -/

def strstr (pat : List Char) : List Char → Option (List Char)
  | [] => if pat = [] then some [] else none
  | c :: s => if pat <+: c :: s then some (c :: s) else strstr pat s

/-- The inner loop of `vote_routerstatus_find_microdesc_hash`: where in a line the method stands
in its list of methods. -/
def findMethod (mstr : List Char) (cp : List Char) : Option (List Char) :=
  if cp.takeWhile (·.isDigit) = mstr then some cp
  else
    match _h : cp.dropWhile (·.isDigit) with
    | ',' :: rest => if cp.takeWhile (·.isDigit) = [] then none else findMethod mstr rest
    | _ => none
termination_by cp.length
decreasing_by
  have := (dropWhile_sublist (·.isDigit) (l := cp)).length_le
  rw [_h, length_cons] at this
  omega

def digest256FromBase64 (d64 : List Char) : Option Digest256 :=
  match base64Decode 32 d64 with
  | some bs => if h : bs.length = 32 then some ⟨bs, h⟩ else none
  | none => none

/-- `vote_routerstatus_find_microdesc_hash(…, vrs, method, DIGEST_SHA256)` on the lines of an
entry. -/
def findMicrodescHash (method : ℕ) : List (List Char) → Option Digest256
  | [] => none
  | line :: lines =>
    match findMethod (Nat.toDigits 10 method) line with
    | some cp =>
      match strstr " sha256=".toList cp with
      | some cp => digest256FromBase64 ((cp.drop 8).take 43)
      | none => none
    | none => findMicrodescHash method lines

/-! ## The computation -/

def torAddrIsNull : TorAddr → Bool
  | .unspec => true
  | .inet a => a = 0
  | .inet6 a => a.1.all (· = 0)

/-- The loop of `smartlist_get_most_frequent_`, at an item that is held. -/
def mostFrequentLoop {α : Type*} (compar : α → α → ℤ) (mostFrequent : Option α)
    (mostFrequentCount : ℕ) (cur : α) (count : ℕ) : List α → Option α
  | [] => if count ≥ mostFrequentCount then some cur else mostFrequent
  | item :: rest =>
    if compar cur item = 0 then
      mostFrequentLoop compar mostFrequent mostFrequentCount cur (count + 1) rest
    else if count ≥ mostFrequentCount then mostFrequentLoop compar (some cur) count item 1 rest
    else mostFrequentLoop compar mostFrequent mostFrequentCount item 1 rest

def smartlistGetMostFrequent {α : Type*} (compar : α → α → ℤ) : List α → Option α
  | [] => none
  | item :: rest => mostFrequentLoop compar none 0 item 1 rest

/-- The test of `compute_routerstatus_consensus` at the end of a run. -/
def beatsMost (mostN : ℕ) (mostPublished : ℤ) (cur : VoteRouterstatus) (curN : ℕ) : Bool :=
  curN > mostN || (curN = mostN && cur.publishedOn > mostPublished)

/-- The first loop of `compute_routerstatus_consensus`, at an entry that is held, with the final
run. -/
def mostLoop (most : Option VoteRouterstatus) (mostN : ℕ) (mostPublished : ℤ)
    (cur : VoteRouterstatus) (curN : ℕ) : List VoteRouterstatus → Option VoteRouterstatus
  | [] => if beatsMost mostN mostPublished cur curN then some cur else most
  | rs :: votes =>
    if compareVoteRs cur rs = 0 then mostLoop most mostN mostPublished cur (curN + 1) votes
    else if beatsMost mostN mostPublished cur curN then
      mostLoop (some cur) curN cur.publishedOn rs 1 votes
    else mostLoop most mostN mostPublished rs 1 votes

/-- `most`, of the sorted votes. -/
def computeMost : List VoteRouterstatus → Option VoteRouterstatus
  | [] => none
  | rs :: votes => mostLoop none 0 0 rs 1 votes

/-- `alt_orports`, before it is sorted. -/
def altOrports (most : VoteRouterstatus) (votes : List VoteRouterstatus) : List TorAddrPort :=
  votes.filterMap fun rs =>
    if compareVoteRs most rs = 0 ∧ !torAddrIsNull rs.ipv6Addr ∧ rs.ipv6Orport ≠ 0 then
      some (rs.ipv6Addr, rs.ipv6Orport)
    else none

/-- `digests`, before it is sorted. -/
def microdescDigests (method : ℕ) (most : VoteRouterstatus) (votes : List VoteRouterstatus) :
    List Digest256 :=
  votes.filterMap fun rs =>
    if compareVoteRs rs most ≠ 0 then none else findMicrodescHash method rs.microdesc

/-- What `compute_routerstatus_consensus` returns, and what it stores if it does. -/
structure RouterstatusConsensus where
  most : VoteRouterstatus
  microdescDigest256Out : Option Digest256
  bestAltOrportOut : Option TorAddrPort

/-- `compute_routerstatus_consensus` on a list of votes: each `smartlist_sort` may leave in any
order what compares equal. -/
inductive ComputesTo (method : ℕ) (votes : List VoteRouterstatus) : RouterstatusConsensus → Prop
  | compute {sorted : List VoteRouterstatus} {most : VoteRouterstatus}
      {orports : List TorAddrPort} {digests : List Digest256}
      (votes_sorted : SortsTo (ordOf compareVoteRs) votes sorted)
      (most_eq : computeMost sorted = some most)
      (orports_sorted : SortsTo (ordOf compareOrports) (altOrports most sorted) orports)
      (digests_sorted :
        SortsTo (ordOf compareDigests256) (microdescDigests method most sorted) digests) :
      ComputesTo method votes
        ⟨most, smartlistGetMostFrequent compareDigests256 digests,
          smartlistGetMostFrequent compareOrports orports⟩

/-! ## The orders -/

variable {a b : ℤ} {v w most : VoteRouterstatus} {votes sorted : List VoteRouterstatus}

lemma compare_orElseInt (r rest : ℤ) :
    compare (orElseInt r rest) 0 = (compare r 0).then (compare rest 0) := by
  rw [orElseInt]
  rcases lt_trichotomy r 0 with h | rfl | h
  · rw [if_pos h.ne, compare_lt_iff_lt.mpr h]
    rfl
  · rw [if_neg (by simp), compare_eq_iff_eq.mpr rfl]
    rfl
  · rw [if_pos h.ne', compare_gt_iff_gt.mpr h]
    rfl

lemma compare_sub_zero (m n : ℤ) : compare (m - n) 0 = compare m n := by
  rcases lt_trichotomy m n with h | rfl | h
  · rw [compare_lt_iff_lt.mpr h, compare_lt_iff_lt.mpr (by omega)]
  · rw [sub_self, compare_eq_iff_eq.mpr rfl, compare_eq_iff_eq.mpr rfl]
  · rw [compare_gt_iff_gt.mpr h, compare_gt_iff_gt.mpr (by omega)]

/-- The lexicographic order of byte strings. -/
def byteOrder : Bytes → Bytes → Ordering := List.compareLex (compareOn UInt8.toNat)

instance : Std.TransCmp byteOrder :=
  inferInstanceAs (Std.TransCmp (List.compareLex (compareOn UInt8.toNat)))

lemma compareOn_toNat (c d : UInt8) :
    compare ((c.toNat : ℤ) - d.toNat) 0 = compareOn UInt8.toNat c d := by
  rw [compare_sub_zero, compareOn]
  rcases lt_trichotomy c.toNat d.toNat with h | h | h
  · rw [compare_lt_iff_lt.mpr h, compare_lt_iff_lt.mpr (by omega)]
  · rw [compare_eq_iff_eq.mpr h, compare_eq_iff_eq.mpr (by omega)]
  · rw [compare_gt_iff_gt.mpr h, compare_gt_iff_gt.mpr (by omega)]

lemma byteOrder_cons (c d : UInt8) (as bs : Bytes) :
    byteOrder (c :: as) (d :: bs)
      = if c = d then byteOrder as bs else compare ((c.toNat : ℤ) - d.toNat) 0 := by
  rw [byteOrder, List.compareLex_cons_cons]
  split
  · next heq =>
      rw [heq, compareOn, compare_eq_iff_eq.mpr rfl]
      rfl
  · next hne =>
      rw [compareOn_toNat]
      cases hcase : compareOn UInt8.toNat c d with
      | lt => rfl
      | eq => exact absurd (UInt8.toNat_inj.mp (compare_eq_iff_eq.mp hcase)) hne
      | gt => rfl

variable {as bs : Bytes}

lemma byteOrder_eq_iff : byteOrder as bs = .eq ↔ as = bs := by
  induction as generalizing bs with
  | nil =>
    cases bs with
    | nil => exact ⟨fun _ => rfl, fun _ => rfl⟩
    | cons d bs => simp [byteOrder, List.compareLex_nil_cons]
  | cons c as ih =>
    cases bs with
    | nil => simp [byteOrder, List.compareLex_cons_nil]
    | cons d bs =>
      rw [byteOrder_cons, List.cons.injEq]
      split
      · next heq => rw [ih, and_iff_right heq]
      · next hne =>
          refine ⟨fun h => absurd ?_ hne, fun h => absurd h.1 hne⟩
          have hzero := compare_eq_iff_eq.mp h
          exact UInt8.toNat_inj.mp (by omega)

/-- **`memcmp`** is the lexicographic order. -/
lemma compare_torMemcmp (h : as.length = bs.length) :
    compare (torMemcmp as bs) 0 = byteOrder as bs := by
  induction as generalizing bs with
  | nil =>
    obtain rfl := length_eq_zero_iff.mp h.symm
    rfl
  | cons c as ih =>
    obtain ⟨d, bs, rfl⟩ := exists_cons_of_length_eq_add_one h.symm
    rw [torMemcmp, byteOrder_cons]
    split
    · exact ih (by simpa using h)
    · rfl

lemma toNat_pos {c : UInt8} (h : 0 ≠ c) : 0 < c.toNat := by
  refine Nat.pos_of_ne_zero fun hzero => h ?_
  exact UInt8.toNat_inj.mp (by rw [hzero]; rfl)

/-- **`strcmp`** is the lexicographic order. -/
lemma compare_strcmp (ha : 0 ∉ as) (hb : 0 ∉ bs) :
    compare (strcmp as bs) 0 = byteOrder as bs := by
  induction as generalizing bs with
  | nil =>
    cases bs with
    | nil => rfl
    | cons d bs =>
      have hd := toNat_pos (ne_and_not_mem_of_not_mem_cons hb).1
      rw [strcmp, compare_lt_iff_lt.mpr (by omega)]
      rfl
  | cons c as ih =>
    cases bs with
    | nil =>
      have hc := toNat_pos (ne_and_not_mem_of_not_mem_cons ha).1
      rw [strcmp, compare_gt_iff_gt.mpr (by omega)]
      rfl
    | cons d bs =>
      rw [strcmp, byteOrder_cons]
      split
      · exact ih (not_mem_of_not_mem_cons ha) (not_mem_of_not_mem_cons hb)
      · rfl

lemma compare_cmpFieldSigned {w : ℕ} (hw : 0 < w) {a b : ℤ} (h1 : -2 ^ (w - 1) ≤ b - a)
    (h2 : b - a < 2 ^ (w - 1)) : compare (cmpFieldSigned w a b) 0 = compare b a := by
  have hu : (BitVec.ofInt w b - BitVec.ofInt w a).toInt = b - a := by
    rw [BitVec.toInt_sub, BitVec.toInt_ofInt, BitVec.toInt_ofInt, Int.bmod_sub_bmod,
      Int.sub_bmod_bmod, ← BitVec.toInt_ofInt, BitVec.toInt_ofInt_eq_self hw h1 h2]
  rw [cmpFieldSigned]
  rcases lt_trichotomy b a with h | rfl | h
  · rw [if_pos (by omega), compare_lt_iff_lt.mpr h]
    rfl
  · rw [if_neg (by omega), if_neg (by omega), compare_eq_iff_eq.mpr rfl, compare_eq_iff_eq.mpr rfl]
  · rw [if_neg (by omega), if_pos (by omega), compare_gt_iff_gt.mpr h]
    rfl

lemma compare_tristate (m n : ℕ) : compare (tristate m n) 0 = compare m n := by
  rw [tristate]
  rcases lt_trichotomy m n with h | rfl | h
  · rw [if_pos h, compare_lt_iff_lt.mpr h]
    rfl
  · rw [if_neg (lt_irrefl m), if_pos rfl, compare_eq_iff_eq.mpr rfl, compare_eq_iff_eq.mpr rfl]
  · rw [if_neg h.le.not_gt, if_neg h.ne', compare_gt_iff_gt.mpr h]
    rfl

/-- The number of an IPv4 address. -/
def inetNumber : TorAddr → ℕ
  | .inet a => a.toNat
  | _ => 0

/-- The bytes of an IPv6 address. -/
def inet6Bytes : TorAddr → Bytes
  | .inet6 a => a.1
  | _ => []

/-- The order of addresses: by family, and in a family by number or by bytes. -/
def addrOrder : TorAddr → TorAddr → Ordering :=
  compareLex (compareOn torAddrFamily) <|
  compareLex (compareOn inetNumber) (compareBy byteOrder inet6Bytes)

/-- **`tor_addr_compare`** is an order. -/
lemma compare_torAddrCompare (x y : TorAddr) : compare (torAddrCompare x y) 0 = addrOrder x y := by
  cases x with
  | unspec => cases y <;> rfl
  | inet a =>
    cases y with
    | unspec | inet6 b => rfl
    | inet b =>
      have hshift : torAddrCompare (.inet a) (.inet b) = tristate a.toNat b.toNat := by
        simp [torAddrCompare, torAddrCompareMasked]
      rw [hshift, compare_tristate]
      have hnil : compareBy byteOrder inet6Bytes (.inet a) (.inet b) = .eq := rfl
      simp [addrOrder, compareLex, compareOn, torAddrFamily, inetNumber, hnil]
  | inet6 a =>
    cases y with
    | unspec | inet b => rfl
    | inet6 b =>
      have hbytes : torAddrCompare (.inet6 a) (.inet6 b) = torMemcmp a.1 b.1 := by
        by_cases hzero : torMemcmp a.1 b.1 = 0
        · simp [torAddrCompare, torAddrCompareMasked, take_of_length_le, a.2, b.2, hzero]
        · simp [torAddrCompare, torAddrCompareMasked, take_of_length_le, a.2, b.2, hzero]
      rw [hbytes, compare_torMemcmp (a.2.trans b.2.symm)]
      simp [addrOrder, compareLex, compareOn, torAddrFamily, inetNumber, compareBy, inet6Bytes]

instance : Std.TransCmp addrOrder :=
  inferInstanceAs (Std.TransCmp (compareLex (compareOn torAddrFamily)
    (compareLex (compareOn inetNumber) (compareBy byteOrder inet6Bytes))))

lemma addrOrder_eq_iff {x y : TorAddr} : addrOrder x y = .eq ↔ x = y := by
  simp only [addrOrder, compareLex, compareOn, compareBy, Ordering.then_eq_eq, compare_eq_iff_eq,
    byteOrder_eq_iff]
  constructor
  · rintro ⟨hfamily, hnumber, hbytes⟩
    cases x <;> cases y <;>
      simp_all [torAddrFamily, afUnspec, afInet, afInet6, inetNumber, inet6Bytes, BitVec.toNat_inj,
        Subtype.ext_iff]
  · rintro rfl
    exact ⟨rfl, rfl, rfl⟩

/-- The order of entries: later times, greater nicknames and greater ports are first. -/
def voteRsOrder : VoteRouterstatus → VoteRouterstatus → Ordering :=
  compareLex (compareBy byteOrder fun v => v.identityDigest.1) <|
  compareLex (compareBy byteOrder fun v => v.descriptorDigest.1) <|
  compareLex (fun v w => compare w.publishedOn v.publishedOn) <|
  compareLex (fun v w => byteOrder w.nickname.1 v.nickname.1) <|
  compareLex (compareBy addrOrder VoteRouterstatus.ipv4Addr) <|
  compareLex (fun v w => compare (w.ipv4Orport.toNat : ℤ) v.ipv4Orport.toNat) <|
  fun v w => compare (w.ipv4Dirport.toNat : ℤ) v.ipv4Dirport.toNat

instance : Std.TransCmp voteRsOrder := by
  have hpublished : Std.TransCmp fun v w : VoteRouterstatus =>
      compare w.publishedOn v.publishedOn :=
    inferInstanceAs (Std.TransCmp fun v w : VoteRouterstatus =>
      compareBy compare VoteRouterstatus.publishedOn w v)
  have hnickname : Std.TransCmp fun v w : VoteRouterstatus =>
      byteOrder w.nickname.1 v.nickname.1 :=
    inferInstanceAs (Std.TransCmp fun v w : VoteRouterstatus =>
      compareBy byteOrder (fun u => u.nickname.1) w v)
  have horport : Std.TransCmp fun v w : VoteRouterstatus =>
      compare (w.ipv4Orport.toNat : ℤ) v.ipv4Orport.toNat :=
    inferInstanceAs (Std.TransCmp fun v w : VoteRouterstatus =>
      compareBy compare (fun u => (u.ipv4Orport.toNat : ℤ)) w v)
  have hdirport : Std.TransCmp fun v w : VoteRouterstatus =>
      compare (w.ipv4Dirport.toNat : ℤ) v.ipv4Dirport.toNat :=
    inferInstanceAs (Std.TransCmp fun v w : VoteRouterstatus =>
      compareBy compare (fun u => (u.ipv4Dirport.toNat : ℤ)) w v)
  unfold voteRsOrder
  infer_instance

lemma compare_cmpFieldSigned_port (a b : UInt16) :
    compare (cmpFieldSigned 32 a.toNat b.toNat) 0 = compare (b.toNat : ℤ) a.toNat := by
  have ha := a.toNat_lt
  have hb := b.toNat_lt
  exact compare_cmpFieldSigned (by omega) (by omega) (by omega)

/-- **The comparison of entries** is an order. -/
theorem ordOf_compareVoteRs : ordOf compareVoteRs = voteRsOrder := by
  funext v w
  have hpublished : compare (cmpFieldSigned 64 v.publishedOn w.publishedOn) 0
      = compare w.publishedOn v.publishedOn := by
    have hv := v.published_nonneg
    have hv' := v.published_lt
    have hw := w.published_nonneg
    have hw' := w.published_lt
    exact compare_cmpFieldSigned (by omega) (by omega) (by omega)
  simp only [ordOf, compareVoteRs, compare_orElseInt, compare_torAddrCompare, hpublished,
    compare_cmpFieldSigned_port, compare_torMemcmp (v.identityDigest.2.trans w.identityDigest.2.symm),
    compare_torMemcmp (v.descriptorDigest.2.trans w.descriptorDigest.2.symm),
    compare_strcmp w.nickname.2 v.nickname.2]
  rfl

lemma ordOf_eq_iff {α : Type*} {compar : α → α → ℤ} {x y : α} :
    ordOf compar x y = .eq ↔ compar x y = 0 := compare_eq_iff_eq

/-! ## The loops -/

/-- What an entry and the number of its votes are compared by. -/
def mostScore (r : VoteRouterstatus × ℕ) : ℕ ×ₗ ℤ := toLex (r.2, r.1.publishedOn)

lemma beatsMost_iff {c cur : VoteRouterstatus} {n k : ℕ} :
    beatsMost n c.publishedOn cur k = true ↔ mostScore (c, n) < mostScore (cur, k) := by
  simp only [beatsMost, mostScore, Prod.Lex.toLex_lt_toLex, Bool.or_eq_true, Bool.and_eq_true,
    decide_eq_true_eq, gt_iff_lt]
  constructor
  · rintro (h | ⟨h, h'⟩)
    · exact .inl h
    · exact .inr ⟨h.symm, h'⟩
  · rintro (h | ⟨h, h'⟩)
    · exact .inl h
    · exact .inr ⟨h.symm, h'⟩

lemma beatsMost_run {cur : VoteRouterstatus} {k : ℕ} (hk : 0 < k)
    (o : Option (VoteRouterstatus × ℕ)) :
    List.argAux (fun b c => mostScore c < mostScore b) o (cur, k)
      = if beatsMost (o.elim 0 Prod.snd) (o.elim 0 fun r => r.1.publishedOn) cur k then
          some (cur, k) else o := by
  cases o with
  | none => simp [argAux, beatsMost, hk]
  | some c => simp [argAux, beatsMost_iff]

lemma mostLoop_eq {cur : VoteRouterstatus} {k : ℕ} (hk : 0 < k)
    (o : Option (VoteRouterstatus × ℕ)) :
    mostLoop (o.map Prod.fst) (o.elim 0 Prod.snd) (o.elim 0 fun r => r.1.publishedOn) cur k votes
      = ((runsAfter (ordOf compareVoteRs) cur k votes).foldl
          (List.argAux fun b c => mostScore c < mostScore b) o).map Prod.fst := by
  induction votes generalizing cur k o with
  | nil =>
    rw [mostLoop, runsAfter, foldl_cons, foldl_nil, beatsMost_run hk]
    split <;> rfl
  | cons rs votes ih =>
    rw [mostLoop, runsAfter]
    simp only [ordOf_eq_iff]
    split
    · exact ih (Nat.succ_pos k) o
    · rw [foldl_cons, beatsMost_run hk]
      split
      · exact ih Nat.one_pos (some (cur, k))
      · exact ih Nat.one_pos o

lemma computeMost_eq :
    computeMost sorted = ((runs (ordOf compareVoteRs) sorted).argmax mostScore).map Prod.fst := by
  cases sorted with
  | nil => rfl
  | cons rs votes => exact mostLoop_eq Nat.one_pos none

section

variable {α : Type*} {compar : α → α → ℤ} {l s : List α} {m : α}

lemma mostFrequentLoop_eq (cur : α) (k : ℕ) (o : Option (α × ℕ)) :
    mostFrequentLoop compar (o.map Prod.fst) (o.elim 0 Prod.snd) cur k l
      = ((runsAfter (ordOf compar) cur k l).foldl (List.argAux fun b c => c.2 ≤ b.2) o).map
          Prod.fst := by
  have hrun : ∀ (cur : α) (k : ℕ) (o : Option (α × ℕ)), argAux (fun b c => c.2 ≤ b.2) o (cur, k)
        = if k ≥ o.elim 0 Prod.snd then some (cur, k) else o := by
    intro cur k o
    cases o with
    | none => simp [argAux]
    | some c => simp [argAux]
  induction l generalizing cur k o with
  | nil =>
    rw [mostFrequentLoop, runsAfter, foldl_cons, foldl_nil, hrun]
    split <;> rfl
  | cons item rest ih =>
    rw [mostFrequentLoop, runsAfter]
    simp only [ordOf_eq_iff]
    split
    · exact ih cur (k + 1) o
    · rw [foldl_cons, hrun]
      split
      · exact ih item 1 (some (cur, k))
      · exact ih item 1 o

lemma smartlistGetMostFrequent_eq :
    smartlistGetMostFrequent compar l
      = ((runs (ordOf compar) l).foldl (List.argAux fun b c => c.2 ≤ b.2) none).map Prod.fst := by
  cases l with
  | nil => rfl
  | cons item rest => exact mostFrequentLoop_eq item 1 none

/-- One of the elements that are most frequent, or none where there are none. -/
def IsMostFrequent [DecidableEq α] (l : List α) (o : Option α) : Prop :=
  (o = none ↔ l = []) ∧ ∀ m ∈ o, m ∈ l ∧ ∀ a ∈ l, l.count a ≤ l.count m

/-- **The last run of the greatest length** of a sorted list is of a most frequent element. -/
theorem mostFrequent_of_sorted [DecidableEq α] [Std.TransCmp (ordOf compar)]
    (heq : ∀ a b, ordOf compar a b = .eq ↔ a = b) (hsort : SortsTo (ordOf compar) l s) :
    IsMostFrequent l (smartlistGetMostFrequent compar s) := by
  have hcount : ∀ a, classSize (ordOf compar) s a = l.count a := by
    intro a
    rw [classSize_perm hsort.perm, count_eq_countP]
    refine countP_congr fun x _ => ?_
    rw [decide_eq_true_eq, beq_iff_eq, heq, eq_comm]
  rw [smartlistGetMostFrequent_eq]
  constructor
  · rw [Option.map_eq_none_iff, foldl_argAux_eq_none, runs_eq_nil_iff, and_iff_left rfl]
    rw [← length_eq_zero_iff, hsort.perm.length_eq, length_eq_zero_iff]
  · intro m hm
    obtain ⟨⟨m, k⟩, hfold, rfl⟩ := Option.mem_map.mp hm
    obtain ⟨hmem, hle, -⟩ := mem_foldl_argAux_le hfold
    obtain ⟨hms, rfl⟩ := mem_runs hsort.sorted (hmem.resolve_right (by simp))
    refine ⟨hsort.mem_iff.mp hms, fun a ha => ?_⟩
    obtain ⟨b, hab, hb⟩ := exists_mem_runs hsort.sorted (hsort.mem_iff.mpr ha)
    obtain rfl := (heq a b).mp hab
    rw [← hcount, ← hcount]
    exact hle _ hb

end

/-! ## What is chosen -/

/-- The entries agree in what `compare_vote_rs` reads besides the identity. -/
def SameClass (v w : VoteRouterstatus) : Prop :=
  v.descriptorDigest = w.descriptorDigest ∧ v.publishedOn = w.publishedOn
    ∧ v.nickname = w.nickname ∧ v.ipv4Addr = w.ipv4Addr ∧ v.ipv4Orport = w.ipv4Orport
    ∧ v.ipv4Dirport = w.ipv4Dirport

instance : DecidableRel SameClass := fun _ _ => inferInstanceAs (Decidable (_ ∧ _))

/-- The votes for the class of an entry. -/
def votesFor (votes : List VoteRouterstatus) (v : VoteRouterstatus) : List VoteRouterstatus :=
  votes.filter fun w => SameClass v w

/-- No class has more votes, of those with as many none was published later, and of those that
were published then none has a smaller descriptor digest. -/
structure WinsPlurality (votes : List VoteRouterstatus) (most : VoteRouterstatus) : Prop where
  mem : most ∈ votes
  most_votes : ∀ v ∈ votes, (votesFor votes v).length ≤ (votesFor votes most).length
  latest : ∀ v ∈ votes, (votesFor votes v).length = (votesFor votes most).length →
    v.publishedOn ≤ most.publishedOn
  smallest : ∀ v ∈ votes, (votesFor votes v).length = (votesFor votes most).length →
    v.publishedOn = most.publishedOn →
    torMemcmp most.descriptorDigest.1 v.descriptorDigest.1 ≤ 0

/-- The IPv6 ORPort of an entry. -/
def altOrport (rs : VoteRouterstatus) : Option TorAddrPort :=
  if !torAddrIsNull rs.ipv6Addr ∧ rs.ipv6Orport ≠ 0 then some (rs.ipv6Addr, rs.ipv6Orport)
  else none

lemma voteRsOrder_eq_iff :
    voteRsOrder v w = .eq ↔ v.identityDigest = w.identityDigest ∧ SameClass v w := by
  simp only [voteRsOrder, compareLex, compareBy, Ordering.then_eq_eq, compare_eq_iff_eq,
    byteOrder_eq_iff, addrOrder_eq_iff, SameClass, Subtype.ext_iff, Int.natCast_inj,
    UInt16.toNat_inj]
  constructor
  · rintro ⟨h1, h2, h3, h4, h5, h6, h7⟩
    exact ⟨h1, h2, h3.symm, h4.symm, h5, h6.symm, h7.symm⟩
  · rintro ⟨h1, h2, h3, h4, h5, h6, h7⟩
    exact ⟨h1, h2, h3.symm, h4.symm, h5, h6.symm, h7.symm⟩

lemma compareVoteRs_eq_zero_iff (hid : v.identityDigest = w.identityDigest) :
    compareVoteRs v w = 0 ↔ SameClass v w := by
  rw [← ordOf_eq_iff, ordOf_compareVoteRs, voteRsOrder_eq_iff, and_iff_right hid]

instance : Std.TransCmp (ordOf compareVoteRs) := by
  rw [ordOf_compareVoteRs]
  infer_instance

instance : Std.TransCmp (ordOf compareOrports) := by
  have horport : Std.TransCmp fun x y : TorAddrPort => compare (y.2.toNat : ℤ) x.2.toNat :=
    inferInstanceAs (Std.TransCmp fun x y : TorAddrPort =>
      compareBy compare (fun u : TorAddrPort => (u.2.toNat : ℤ)) y x)
  have hord : ordOf compareOrports = compareLex (compareBy addrOrder Prod.fst)
      fun x y : TorAddrPort => compare (y.2.toNat : ℤ) x.2.toNat := by
    funext x y
    rw [ordOf, compareOrports, compare_orElseInt, compare_torAddrCompare, compare_sub_zero]
    rfl
  rw [hord]
  infer_instance

lemma ordOf_compareOrports_eq_iff {x y : TorAddrPort} :
    ordOf compareOrports x y = .eq ↔ x = y := by
  rw [ordOf, compareOrports, compare_orElseInt, compare_torAddrCompare, compare_sub_zero,
    Ordering.then_eq_eq, addrOrder_eq_iff, compare_eq_iff_eq, Int.natCast_inj, UInt16.toNat_inj,
    Prod.ext_iff, eq_comm (a := y.2)]

instance : Std.TransCmp (ordOf compareDigests256) := by
  have hord : ordOf compareDigests256 = compareBy byteOrder Subtype.val := by
    funext x y
    exact compare_torMemcmp (x.2.trans y.2.symm)
  rw [hord]
  infer_instance

lemma ordOf_compareDigests256_eq_iff {x y : Digest256} :
    ordOf compareDigests256 x y = .eq ↔ x = y := by
  rw [ordOf, compareDigests256, compare_torMemcmp (x.2.trans y.2.symm), byteOrder_eq_iff,
    Subtype.ext_iff]

lemma classSize_eq (hid : ∀ v ∈ votes, ∀ w ∈ votes, v.identityDigest = w.identityDigest)
    (hv : v ∈ votes) :
    classSize (ordOf compareVoteRs) votes v = (votesFor votes v).length := by
  rw [classSize, votesFor, ← countP_eq_length_filter]
  refine countP_congr fun w hw => ?_
  rw [decide_eq_true_eq, decide_eq_true_eq, ordOf_eq_iff, compareVoteRs_eq_zero_iff (hid v hv w hw)]

/-- **The chosen entry** wins the plurality. -/
lemma winsPlurality (hid : ∀ v ∈ votes, ∀ w ∈ votes, v.identityDigest = w.identityDigest)
    (h : IsPlurality (ordOf compareVoteRs) mostScore votes most) : WinsPlurality votes most := by
  have hbest : ∀ v ∈ votes, mostScore (v, (votesFor votes v).length)
        < mostScore (most, (votesFor votes most).length)
      ∨ mostScore (v, (votesFor votes v).length) = mostScore (most, (votesFor votes most).length)
        ∧ ordOf compareVoteRs most v ≠ .gt := by
    intro v hv
    rw [← classSize_eq hid hv, ← classSize_eq hid h.mem]
    exact h.best v hv
  refine ⟨h.mem, fun v hv => ?_, fun v hv heq => ?_, fun v hv heq hpub => ?_⟩
  · rcases hbest v hv with hlt | ⟨heq, -⟩
    · rcases Prod.Lex.toLex_lt_toLex.mp hlt with h | h
      · exact h.le
      · exact h.1.le
    · exact (congrArg Prod.fst (toLex.injective heq)).le
  · rcases hbest v hv with hlt | ⟨heq', -⟩
    · rcases Prod.Lex.toLex_lt_toLex.mp hlt with h | h
      · exact absurd heq h.ne
      · exact h.2.le
    · exact (congrArg Prod.snd (toLex.injective heq')).le
  · rcases hbest v hv with hlt | ⟨-, hle⟩
    · rw [mostScore, mostScore, heq, hpub] at hlt
      exact absurd hlt (lt_irrefl _)
    · refine not_lt.mp fun hpos => hle ?_
      rw [ordOf_compareVoteRs, voteRsOrder, compareLex, compareLex, compareBy, compareBy,
        byteOrder_eq_iff.mpr (congrArg Subtype.val (hid most h.mem v hv)),
        ← compare_torMemcmp (most.descriptorDigest.2.trans v.descriptorDigest.2.symm),
        compare_gt_iff_gt.mpr hpos]
      rfl

lemma filterMap_if_perm {β : Type*} {f : VoteRouterstatus → Option β}
    {p : VoteRouterstatus → Prop} [DecidablePred p] (hperm : sorted.Perm votes)
    (hp : ∀ v ∈ votes, p v ↔ SameClass most v) :
    (sorted.filterMap fun v => if p v then f v else none).Perm
      ((votesFor votes most).filterMap f) := by
  refine (hperm.filterMap _).trans (Perm.of_eq ?_)
  rw [votesFor, filterMap_filter]
  refine filterMap_congr fun v hv => ?_
  simp only [hp v hv, decide_eq_true_eq]

lemma altOrports_perm (hid : ∀ v ∈ votes, ∀ w ∈ votes, v.identityDigest = w.identityDigest)
    (hmost : most ∈ votes) (hperm : sorted.Perm votes) :
    (altOrports most sorted).Perm ((votesFor votes most).filterMap altOrport) := by
  refine List.Perm.trans (Perm.of_eq ?_) (filterMap_if_perm hperm fun v hv =>
    compareVoteRs_eq_zero_iff (hid most hmost v hv))
  refine filterMap_congr fun v _ => ?_
  simp only [altOrport]
  split
  · next h => rw [if_pos h.1, if_pos h.2]
  · next h =>
      split
      · next heq => rw [if_neg fun hport => h ⟨heq, hport⟩]
      · rfl

lemma microdescDigests_perm {method : ℕ}
    (hid : ∀ v ∈ votes, ∀ w ∈ votes, v.identityDigest = w.identityDigest)
    (hmost : most ∈ votes) (hperm : sorted.Perm votes) :
    (microdescDigests method most sorted).Perm
      ((votesFor votes most).filterMap fun rs => findMicrodescHash method rs.microdesc) := by
  refine List.Perm.trans (Perm.of_eq ?_) (filterMap_if_perm (p := fun v =>
    compareVoteRs v most = 0) hperm fun v hv => ?_)
  · refine filterMap_congr fun v _ => ?_
    simp only [ne_eq, ite_not]
  · rw [← ordOf_eq_iff, Std.OrientedCmp.eq_comm, ordOf_eq_iff,
      compareVoteRs_eq_zero_iff (hid most hmost v hv)]

lemma isPlurality_of_computeMost (hsort : SortsTo (ordOf compareVoteRs) votes sorted)
    (h : computeMost sorted = some most) :
    IsPlurality (ordOf compareVoteRs) mostScore votes most := by
  rw [computeMost_eq] at h
  obtain ⟨⟨most, n⟩, hargmax, rfl⟩ := Option.map_eq_some_iff.mp h
  refine isPlurality_of_argmax (fun v w k heq => ?_) hsort hargmax
  rw [ordOf_compareVoteRs, voteRsOrder_eq_iff] at heq
  rw [mostScore, mostScore, heq.2.2.1]

lemma exists_computesTo (method : ℕ) (hne : votes ≠ []) : ∃ out, ComputesTo method votes out := by
  obtain ⟨sorted, hsorted⟩ := (consistent_of_transCmp (ordOf compareVoteRs) votes).exists_sortsTo
  have hruns : runs (ordOf compareVoteRs) sorted ≠ [] := by
    rw [ne_eq, runs_eq_nil_iff, ← length_eq_zero_iff, hsorted.perm.length_eq, length_eq_zero_iff]
    exact hne
  obtain ⟨⟨most, n⟩, hmost⟩ := Option.ne_none_iff_exists'.mp
    (mt (argmax_eq_none (f := mostScore)).mp hruns)
  obtain ⟨orports, horports⟩ :=
    (consistent_of_transCmp (ordOf compareOrports) (altOrports most sorted)).exists_sortsTo
  obtain ⟨digests, hdigests⟩ := (consistent_of_transCmp (ordOf compareDigests256)
    (microdescDigests method most sorted)).exists_sortsTo
  exact ⟨_, .compute hsorted (by rw [computeMost_eq, hmost]; rfl) horports hdigests⟩

/-- **What `compute_routerstatus_consensus` computes**, of the votes on one relay. -/
theorem computesTo_winsPlurality (method : ℕ) (votes : List VoteRouterstatus) (hne : votes ≠ [])
    (hid : ∀ v ∈ votes, ∀ w ∈ votes, v.identityDigest = w.identityDigest) :
    (∃ out, ComputesTo method votes out) ∧
    ∀ out, ComputesTo method votes out → WinsPlurality votes out.most
        ∧ (∀ votes' out', votes'.Perm votes → ComputesTo method votes' out' →
            SameClass out.most out'.most)
        ∧ IsMostFrequent ((votesFor votes out.most).filterMap fun rs =>
            findMicrodescHash method rs.microdesc) out.microdescDigest256Out
        ∧ IsMostFrequent ((votesFor votes out.most).filterMap altOrport) out.bestAltOrportOut := by
  refine ⟨exists_computesTo method hne, fun out hout => ?_⟩
  obtain ⟨hsort, hmost, horports, hdigests⟩ := hout
  have hplurality := isPlurality_of_computeMost hsort hmost
  refine ⟨winsPlurality hid hplurality, ?_, ?_, ?_⟩
  · intro votes' out' hperm hout'
    obtain ⟨hsort', hmost', -, -⟩ := hout'
    have heq := hplurality.unique (isPlurality_of_computeMost hsort' hmost') hperm
    rw [ordOf_compareVoteRs, voteRsOrder_eq_iff] at heq
    exact heq.2
  · exact mostFrequent_of_sorted (fun _ _ => ordOf_compareDigests256_eq_iff)
      (hdigests.of_perm (microdescDigests_perm hid hplurality.mem hsort.perm))
  · exact mostFrequent_of_sorted (fun _ _ => ordOf_compareOrports_eq_iff)
      (horports.of_perm (altOrports_perm hid hplurality.mem hsort.perm))

/-- An entry that differs from others of its kind in the descriptor only. -/
def relayVote (n : UInt8) : VoteRouterstatus where
  identityDigest := ⟨List.replicate 20 7, rfl⟩
  descriptorDigest := ⟨List.replicate 20 n, length_replicate⟩
  publishedOn := 1600000000
  published_nonneg := by decide
  published_lt := by decide
  nickname := ⟨[114], by decide⟩
  ipv4Addr := .inet 0x01020304
  ipv4Orport := 9001
  ipv4Dirport := 0
  ipv6Addr := .unspec
  ipv6Orport := 0
  microdesc := []

/-- Of two entries that were published at once, the one with the smaller digest is chosen. -/
theorem computesTo_winsPlurality_tie : (∃ out, ComputesTo 32 [relayVote 2, relayVote 1] out) ∧
    ∀ out, ComputesTo 32 [relayVote 2, relayVote 1] out → out.most = relayVote 1 := by
  obtain ⟨hex, hall⟩ := computesTo_winsPlurality 32 [relayVote 2, relayVote 1] (by simp)
    (by simp [relayVote])
  refine ⟨hex, fun out hout => ?_⟩
  have hwins := (hall out hout).1
  rcases mem_pair.mp hwins.mem with h | h
  · have hle := hwins.smallest (relayVote 1) (by simp) (by rw [h]; decide) (by rw [h]; rfl)
    rw [h] at hle
    exact absurd hle (by decide)
  · exact h

/-- **Authorities agree** on a relay: from the same votes in any order, entries of one class are
chosen, with the same microdescriptor and IPv6 ORPort. -/
theorem computesTo_agree {method : ℕ} {votes' : List VoteRouterstatus}
    {out out' : RouterstatusConsensus} (hperm : votes.Perm votes')
    (hid : ∀ v ∈ votes, ∀ w ∈ votes, v.identityDigest = w.identityDigest)
    (h : ComputesTo method votes out) (h' : ComputesTo method votes' out') :
    SameClass out.most out'.most ∧ out.microdescDigest256Out = out'.microdescDigest256Out ∧
      out.bestAltOrportOut = out'.bestAltOrportOut := by
  obtain @⟨sorted, most, _, _, hsort, hmost, horports, hdigests⟩ := h
  obtain @⟨sorted', most', _, _, hsort', hmost', horports', hdigests'⟩ := h'
  have hid' : ∀ v ∈ votes', ∀ w ∈ votes', v.identityDigest = w.identityDigest :=
    fun v hv w hw => hid v (hperm.mem_iff.mpr hv) w (hperm.mem_iff.mpr hw)
  have hplurality := isPlurality_of_computeMost hsort hmost
  have hplurality' := isPlurality_of_computeMost hsort' hmost'
  have hclass := hplurality.unique hplurality' hperm.symm
  rw [ordOf_compareVoteRs, voteRsOrder_eq_iff] at hclass
  obtain ⟨-, hclass⟩ := hclass
  have hvotes : (votesFor votes most).Perm (votesFor votes' most') := by
    have hsame : ∀ w, SameClass most w ↔ SameClass most' w := fun w => by
      obtain ⟨h1, h2, h3, h4, h5, h6⟩ := hclass
      simp only [SameClass, h1, h2, h3, h4, h5, h6]
    simp only [votesFor, hsame]
    exact hperm.filter _
  refine ⟨hclass, ?_, ?_⟩
  · dsimp only
    rw [eq_of_sortsTo (fun _ _ => ordOf_compareDigests256_eq_iff) hdigests hdigests'
      ((microdescDigests_perm hid hplurality.mem hsort.perm).trans ((hvotes.filterMap _).trans
        (microdescDigests_perm hid' hplurality'.mem hsort'.perm).symm))]
  · dsimp only
    rw [eq_of_sortsTo (fun _ _ => ordOf_compareOrports_eq_iff) horports horports'
      ((altOrports_perm hid hplurality.mem hsort.perm).trans ((hvotes.filterMap _).trans
        (altOrports_perm hid' hplurality'.mem hsort'.perm).symm))]

theorem computesTo_agree_swap : ∃ out out', ComputesTo 32 [relayVote 2, relayVote 1] out ∧
    ComputesTo 32 [relayVote 1, relayVote 2] out' ∧ SameClass out.most out'.most := by
  obtain ⟨out, h⟩ := exists_computesTo 32 (cons_ne_nil (relayVote 2) [relayVote 1])
  obtain ⟨out', h'⟩ := exists_computesTo 32 (cons_ne_nil (relayVote 1) [relayVote 2])
  exact ⟨out, out', h, h', (computesTo_agree (.swap _ _ _) (by simp [relayVote]) h h').1⟩

end Ator.Dirauth

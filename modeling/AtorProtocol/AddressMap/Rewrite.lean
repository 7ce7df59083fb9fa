import AtorProtocol.AddressMap.Addressmap
import AtorProtocol.Lib.Rewriting

/-!
# Rewriting an address

`addressmap_rewrite` of `src/feature/client/addressmap.c`, on the caller's buffer.

* `addressmapMatchSuperdomains`, `addressmapRewrite` — the code.
* `rewriteOf`, `IsRewriting` — which rules an address is to be rewritten by.
* `addressmapRewrite_isRewriting_iff` — when the code does that.
-/

namespace Ator.Addressmap

open List Option
open Policies (TorAddr torAddrFamily afInet afInet6)

/-! ## The code -/

/-- The `AMR_FLAG_*` bits. -/
structure RewriteFlags where
  useIpv4Dns : Bool
  useIpv6Dns : Bool
  useMapaddress : Bool
  useAutomap : Bool
  useTrackexit : Bool

def timeMax : ℤ := 2 ^ 63 - 1

def strlcpy (dst src : Address) (siz : ℕ) : Address := if siz = 0 then dst else src.take (siz - 1)

def strlcat (dst src : Address) (siz : ℕ) : Address :=
  if siz ≤ dst.length then dst else dst ++ src.take (siz - 1 - dst.length)

/-- `addressmap_match_superdomains`: the entry, and what is left in the buffer. -/
def addressmapMatchSuperdomains (addressmap : AssocMap Address Entry) :
    Address → Option Entry × Address
  | [] => (none, [])
  | c :: cp =>
    let next := addressmapMatchSuperdomains addressmap cp
    if c = '.' then
      match addressmap.get (torStrlower cp) with
      | some val =>
        if val.srcWildcard then (some val, if val.dstWildcard then [] else c :: cp)
        else (next.1, c :: next.2)
      | none => (next.1, c :: next.2)
    else (next.1, c :: next.2)

/-- Whether the flags allow the source of a mapping. -/
def isAllowed (text : AddrText) (flags : RewriteFlags) (ent : Entry) (newAddress : Address) :
    Bool :=
  match ent.source with
  | .dns =>
    let f := (text.torAddrParse newAddress).map torAddrFamily
    if f = some afInet ∧ !flags.useIpv4Dns then false
    else if f = some afInet6 ∧ !flags.useIpv6Dns then false
    else true
  | .controller | .torrc => flags.useMapaddress
  | .automap => flags.useAutomap
  | .trackexit => flags.useTrackexit
  | .none => false

/-- What one turn of the loop reads and writes. -/
structure RewriteState where
  address : Address
  expires : ℤ
  exitSource : EntrySource
deriving DecidableEq

section

variable (text : AddrText) (addressmap : AssocMap Address Entry) (maxlen : ℕ) (flags : RewriteFlags)

/-- The exact match, if it has a new address. -/
def exactMatch (address : Address) : Option (Entry × Address) :=
  (addressmap.get address).bind fun ent => ent.newAddress.map fun newAddress => (ent, newAddress)

/-- A rule like "*.example.com to example.com", at example.com. -/
def isComplete (ent : Entry) (newAddress address : Address) : Bool :=
  ent.srcWildcard && !ent.dstWildcard && sameCase address newAddress

/-- The new address is put into the buffer. -/
def RewriteState.apply (st : RewriteState) (addrOrig : Address) (ent : Entry)
    (newAddress : Address) (exact : Bool) : RewriteState :=
  let address :=
    if ent.dstWildcard && !exact then
      strlcat (strlcat st.address ".".toList maxlen) newAddress maxlen
    else strlcpy st.address newAddress maxlen
  { address
    expires := if ent.expires > 1 ∧ ent.expires < st.expires then ent.expires else st.expires
    exitSource :=
      if endsIn address ".exit".toList && !endsIn addrOrig ".exit".toList &&
          st.exitSource = .none then ent.source
      else st.exitSource }

/-- One turn of the loop, and whether another follows. -/
def rewriteOnce (addrOrig : Address) (st : RewriteState) : RewriteState × Bool :=
  match exactMatch addressmap st.address with
  | some (ent, newAddress) =>
    if isComplete ent newAddress st.address then (st, false)
    else if isAllowed text flags ent newAddress then
      (st.apply maxlen addrOrig ent newAddress true, true)
    else (st, false)
  | none =>
    match addressmapMatchSuperdomains addressmap st.address with
    | (ent, address) =>
      let st := { st with address }
      match ent.bind fun ent => ent.newAddress.map fun newAddress => (ent, newAddress) with
      | none => (st, false)
      | some (ent, newAddress) =>
        if isAllowed text flags ent newAddress then
          (st.apply maxlen addrOrig ent newAddress false, true)
        else (st, false)

/-- The loop, with the rewrites it may still do; how many it did. -/
def rewriteLoop (addrOrig : Address) : ℕ → RewriteState → RewriteState × ℕ
  | 0, st => (st, 0)
  | n + 1, st =>
    match rewriteOnce text addressmap maxlen flags addrOrig st with
    | (st, false) => (st, 0)
    | (st, true) =>
      let out := rewriteLoop addrOrig n st
      (out.1, out.2 + 1)

/-- What a call leaves in the buffer, writes and returns. -/
structure RewriteOutcome where
  address : Address
  expires : ℤ
  exitSource : EntrySource
  returned : Bool
deriving DecidableEq

def addressmapRewrite (address : Address) : RewriteOutcome :=
  let out := rewriteLoop text addressmap maxlen flags address 16 ⟨address, timeMax, .none⟩
  ⟨out.1.address, out.1.expires, out.1.exitSource, out.2 > 0⟩

end

/-! ## What it is for -/

/-- The dots of an address: what stands before each, and the domain behind it. -/
def superdomains : Address → List (Address × Address)
  | [] => []
  | c :: rest =>
    (if c = '.' then [([], rest)] else []) ++ (superdomains rest).map fun s => (c :: s.1, s.2)

/-- The rule of the subdomains of a domain. -/
def wildcardRule (addressmap : AssocMap Address Entry) (domain : Address) : Option Entry :=
  (addressmap.get (torStrlower domain)).filter Entry.srcWildcard

/-- The rule of the longest superdomain, with what stands before that. -/
def superdomainRule (addressmap : AssocMap Address Entry) (address : Address) :
    Option (Address × Entry) :=
  (superdomains address).findSome? fun s =>
    (wildcardRule addressmap s.2).map fun ent => (s.1, ent)

section

variable (text : AddrText) (addressmap : AssocMap Address Entry) (maxlen : ℕ) (flags : RewriteFlags)

/-- **The rule an address is rewritten by, and what it becomes**: its own mapping, or else that of
its longest superdomain with one; none where the flags forbid it. -/
def rewriteOf (address : Address) : Option (Entry × Address) :=
  match exactMatch addressmap address with
  | some (ent, newAddress) =>
    if !isComplete ent newAddress address && isAllowed text flags ent newAddress then
      some (ent, newAddress.take (maxlen - 1))
    else none
  | none =>
    (superdomainRule addressmap address).bind fun (head, ent) =>
      ent.newAddress.bind fun newAddress =>
        if isAllowed text flags ent newAddress then
          some (ent, (if ent.dstWildcard then head ++ '.' :: newAddress else newAddress).take
            (maxlen - 1))
        else none

/-- The least expiry of rules, of those that expire. -/
def expiryOf (rules : List Entry) : ℤ :=
  ((rules.map Entry.expires).filter fun expires => expires > 1).foldr min timeMax

/-- **What a call is to do**: rewrite the address for as long as a rule may be applied, at most 16
times, leave it as the last rule made it, and report the least expiry and whether there was one. -/
def IsRewriting (address : Address) (out : RewriteOutcome) : Prop :=
  ∃ rules, IsNormalizing (rewriteOf text addressmap maxlen flags) 16 address rules out.address ∧
    out.expires = expiryOf rules ∧ out.returned = decide (rules ≠ [])

/-- Where no rule is applied, but the longest superdomain has one that would have kept what stands
before it. -/
def isCut (address : Address) : Bool :=
  (rewriteOf text addressmap maxlen flags address).isNone &&
    (exactMatch addressmap address).isNone &&
    (superdomainRule addressmap address).any fun rule => rule.2.dstWildcard

end

/-! ## The longest superdomain -/

variable {text : AddrText} {addressmap : AssocMap Address Entry} {maxlen : ℕ} {flags : RewriteFlags}
  {address head domain a b : Address} {ent : Entry} {out : RewriteOutcome} {rules : List Entry}

lemma mem_superdomains :
    (head, domain) ∈ superdomains address ↔ address = head ++ '.' :: domain := by
  induction address generalizing head with
  | nil => simp [superdomains]
  | cons c rest ih =>
    have htail : (head, domain) ∈ (superdomains rest).map (fun s => (c :: s.1, s.2)) ↔
        ∃ h, head = c :: h ∧ rest = h ++ '.' :: domain := by
      simp only [List.mem_map, Prod.exists, Prod.mk.injEq, ← ih]
      constructor
      · rintro ⟨h, d, hmem, rfl, rfl⟩
        exact ⟨h, rfl, hmem⟩
      · rintro ⟨h, rfl, hmem⟩
        exact ⟨h, domain, hmem, rfl, rfl⟩
    rw [superdomains, mem_append, htail]
    cases head with
    | nil =>
      split
      · next hc => simp [hc, eq_comm]
      · next hc => simp [hc]
    | cons d h =>
      split <;> simp [eq_comm, and_comm]

lemma superdomains_pairwise (address : Address) :
    (superdomains address).Pairwise fun s t => s.1.length < t.1.length := by
  induction address with
  | nil => exact List.Pairwise.nil
  | cons c rest ih =>
    have htail : ((superdomains rest).map fun s => (c :: s.1, s.2)).Pairwise
        fun s t => s.1.length < t.1.length :=
      pairwise_map.mpr (ih.imp fun h => Nat.succ_lt_succ h)
    rw [superdomains]
    split
    · refine pairwise_append.mpr ⟨pairwise_singleton _ _, htail, ?_⟩
      intro s hs t ht
      obtain rfl := mem_singleton.mp hs
      obtain ⟨u, -, rfl⟩ := mem_map.mp ht
      exact Nat.succ_pos _
    · exact htail

/-- **The rule is that of a superdomain, and no longer one has a rule.** -/
lemma superdomainRule_eq_some (h : superdomainRule addressmap address = some (head, ent)) :
    ∃ domain, address = head ++ '.' :: domain ∧ wildcardRule addressmap domain = some ent ∧
      ∀ head' domain', address = head' ++ '.' :: domain' → head'.length < head.length →
        wildcardRule addressmap domain' = none := by
  obtain ⟨before, s, after, hsplit, hs, hbefore⟩ := findSome?_eq_some_iff.mp h
  obtain ⟨ent', hent, heq⟩ := map_eq_some_iff.mp hs
  obtain ⟨rfl, rfl⟩ := Prod.mk.inj heq
  refine ⟨s.2, mem_superdomains.mp (by rw [hsplit]; simp), hent, fun head' domain' h' hlt => ?_⟩
  have hmem := mem_superdomains.mpr h'
  have hpair := superdomains_pairwise address
  rw [hsplit] at hmem hpair
  rcases mem_append.mp hmem with hmem | hmem
  · exact map_eq_none_iff.mp (hbefore _ hmem)
  · have hafter := (pairwise_cons.mp (pairwise_append.mp hpair).2.1).1
    rcases mem_cons.mp hmem with rfl | hmem
    · exact absurd hlt (Nat.lt_irrefl _)
    · exact absurd hlt (Nat.lt_asymm (hafter _ hmem))

lemma superdomainRule_cons (c : Char) (rest : Address) :
    superdomainRule addressmap (c :: rest) =
      ((if c = '.' then wildcardRule addressmap rest else none).map fun ent => ([], ent)).or
        ((superdomainRule addressmap rest).map fun rule => (c :: rule.1, rule.2)) := by
  have htail : ((superdomains rest).map fun s => (c :: s.1, s.2)).findSome? (fun s =>
      (wildcardRule addressmap s.2).map fun ent => (s.1, ent)) =
        (superdomainRule addressmap rest).map fun rule => (c :: rule.1, rule.2) := by
    rw [findSome?_map, superdomainRule, map_findSome?]
    congr 1
    funext s
    simp only [Function.comp_apply, Option.map_map]
    rfl
  rw [superdomainRule, superdomains, findSome?_append, htail]
  split <;> simp

/-- What the search returns and leaves for a rule: the address, cut if the rule keeps what stands
before the domain. -/
def matchOutcome (address : Address) : Option (Address × Entry) → Option Entry × Address
  | none => (none, address)
  | some (head, ent) => (some ent, if ent.dstWildcard then head else address)

lemma matchOutcome_cons (c : Char) (rest : Address) (rule : Option (Address × Entry)) :
    matchOutcome (c :: rest) (rule.map fun rule => (c :: rule.1, rule.2)) =
      ((matchOutcome rest rule).1, c :: (matchOutcome rest rule).2) := by
  rcases rule with _ | ⟨head, ent⟩
  · rfl
  · cases hdst : ent.dstWildcard <;> simp [matchOutcome, hdst]

/-- **The search finds that rule.** -/
lemma addressmapMatchSuperdomains_eq (address : Address) :
    addressmapMatchSuperdomains addressmap address =
      matchOutcome address (superdomainRule addressmap address) := by
  induction address with
  | nil => rfl
  | cons c rest ih =>
    rw [addressmapMatchSuperdomains, ih, superdomainRule_cons, ← matchOutcome_cons]
    split
    · cases hget : addressmap.get (torStrlower rest) with
      | none =>
        have hrule : wildcardRule addressmap rest = none := by
          rw [wildcardRule, hget]
          rfl
        rw [hrule, map_none, none_or]
      | some val =>
        have hrule : wildcardRule addressmap rest =
            if val.srcWildcard then some val else none := by
          rw [wildcardRule, hget]
          rfl
        cases hsrc : val.srcWildcard with
        | false => simp [hrule, hsrc]
        | true =>
          simp only [hrule, hsrc, if_true]
          rfl
    · rw [map_none, none_or]

/-! ## One turn and the loop -/

lemma strlcpy_eq (h : 0 < maxlen) : strlcpy a b maxlen = b.take (maxlen - 1) := by
  rw [strlcpy, if_neg (by omega)]

lemma strlcat_dot (h : head.length + 1 < maxlen) :
    strlcat (strlcat head ".".toList maxlen) b maxlen = (head ++ '.' :: b).take (maxlen - 1) := by
  have hdot : strlcat head ".".toList maxlen = head ++ ['.'] := by
    rw [strlcat, if_neg (by omega)]
    congr 1
    exact take_of_length_le (by change 1 ≤ _; omega)
  rw [hdot, strlcat, if_neg (by rw [length_append]; change ¬ _ ≤ _ + 1; omega)]
  have hfit : (head ++ ['.']).length ≤ maxlen - 1 := by
    rw [length_append]
    change _ + 1 ≤ _
    omega
  have hcons : head ++ '.' :: b = (head ++ ['.']) ++ b := by simp
  rw [hcons, take_append, take_of_length_le hfit]

lemma rewriteOf_length (h : rewriteOf text addressmap maxlen flags a = some (ent, b))
    (hmax : 0 < maxlen) : b.length < maxlen := by
  have htake : ∀ c : Address, (c.take (maxlen - 1)).length < maxlen := by
    intro c
    rw [length_take]
    omega
  rw [rewriteOf] at h
  split at h
  · split at h
    · obtain ⟨-, rfl⟩ := Prod.mk.inj (some.inj h)
      exact htake _
    · cases h
  · obtain ⟨rule, -, h⟩ := bind_eq_some_iff.mp h
    obtain ⟨newAddress, -, h⟩ := bind_eq_some_iff.mp h
    split at h
    · obtain ⟨-, rfl⟩ := Prod.mk.inj (some.inj h)
      exact htake _
    · cases h

variable {st : RewriteState}

/-- **A turn that applies a rule** puts what the address becomes into the buffer. -/
lemma rewriteOnce_some (addrOrig : Address)
    (h : rewriteOf text addressmap maxlen flags st.address = some (ent, b))
    (hfit : st.address.length < maxlen) :
    ∃ exitSource, rewriteOnce text addressmap maxlen flags addrOrig st =
      (⟨b, if ent.expires > 1 ∧ ent.expires < st.expires then ent.expires else st.expires,
        exitSource⟩, true) := by
  rw [rewriteOf] at h
  rw [rewriteOnce]
  cases hexact : exactMatch addressmap st.address with
  | some rule =>
    obtain ⟨ent', newAddress⟩ := rule
    simp only [hexact] at h ⊢
    split at h
    · next hok =>
        obtain ⟨rfl, rfl⟩ := Prod.mk.inj (some.inj h)
        simp only [Bool.and_eq_true, Bool.not_eq_true'] at hok
        rw [hok.1, if_neg Bool.false_ne_true, if_pos hok.2, RewriteState.apply, Bool.not_true,
          Bool.and_false, if_neg Bool.false_ne_true, strlcpy_eq (by omega)]
        exact ⟨_, rfl⟩
    · cases h
  | none =>
    simp only [hexact, addressmapMatchSuperdomains_eq] at h ⊢
    obtain ⟨⟨head, ent'⟩, hrule, h⟩ := bind_eq_some_iff.mp h
    obtain ⟨newAddress, hnew, h⟩ := bind_eq_some_iff.mp h
    replace hnew : ent'.newAddress = some newAddress := hnew
    split at h
    · next hok =>
        obtain ⟨rfl, rfl⟩ := Prod.mk.inj (some.inj h)
        obtain ⟨domain, haddress, -⟩ := superdomainRule_eq_some hrule
        cases hdst : ent'.dstWildcard with
        | false =>
          simp only [hrule, matchOutcome, hdst, bind_some, hnew, map_some, hok,
            if_true, RewriteState.apply, Bool.false_and, Bool.false_eq_true, if_false,
            strlcpy_eq (show 0 < maxlen by omega)]
          exact ⟨_, rfl⟩
        | true =>
          have hhead : head.length + 1 < maxlen := by
            have := congrArg length haddress
            rw [length_append, length_cons] at this
            omega
          simp only [hrule, matchOutcome, hdst, bind_some, hnew, map_some, hok,
            if_true, RewriteState.apply, Bool.not_false, Bool.and_true, strlcat_dot hhead]
          exact ⟨_, rfl⟩
    · cases h

/-- **A turn that applies no rule** leaves the address, unless the search for one cut it. -/
lemma rewriteOnce_none (addrOrig : Address)
    (h : rewriteOf text addressmap maxlen flags st.address = none) :
    ∃ address, rewriteOnce text addressmap maxlen flags addrOrig st =
        ({ st with address }, false) ∧
      if isCut text addressmap maxlen flags st.address then address.length < st.address.length
      else address = st.address := by
  have hcut : isCut text addressmap maxlen flags st.address =
      ((exactMatch addressmap st.address).isNone &&
        (superdomainRule addressmap st.address).any fun rule => rule.2.dstWildcard) := by
    rw [isCut, h, isNone_none, Bool.true_and]
  rw [hcut]
  rw [rewriteOf] at h
  rw [rewriteOnce]
  cases hexact : exactMatch addressmap st.address with
  | some rule =>
    obtain ⟨ent', newAddress⟩ := rule
    simp only [hexact] at h ⊢
    refine ⟨st.address, ?_, rfl⟩
    split
    · rfl
    · next hcomplete =>
        split
        · next hok => simp [hcomplete, hok] at h
        · rfl
  | none =>
    simp only [hexact, addressmapMatchSuperdomains_eq] at h ⊢
    cases hrule : superdomainRule addressmap st.address with
    | none => exact ⟨st.address, rfl, rfl⟩
    | some rule =>
      obtain ⟨head, ent'⟩ := rule
      obtain ⟨domain, haddress, -⟩ := superdomainRule_eq_some hrule
      rw [hrule, bind_some] at h
      refine ⟨if ent'.dstWildcard then head else st.address, ?_, ?_⟩
      · cases hnew : ent'.newAddress with
        | none => simp [matchOutcome, hnew]
        | some newAddress =>
          cases hok : isAllowed text flags ent' newAddress with
          | false => simp [matchOutcome, hnew, hok]
          | true => simp [hnew, hok] at h
      · cases hdst : ent'.dstWildcard with
        | false => simp [hdst]
        | true =>
          simp only [isNone_none, any_some, hdst, Bool.and_self, if_true]
          rw [haddress, length_append, length_cons]
          omega

lemma foldr_min_expires (e x : ℤ) (l : List ℤ) :
    (l.filter fun expires => expires > 1).foldr min (if e > 1 ∧ e < x then e else x) =
      ((e :: l).filter fun expires => expires > 1).foldr min x := by
  have hmin : ∀ l : List ℤ, l.foldr min (min e x) = min e (l.foldr min x) := by
    intro l
    induction l with
    | nil => rfl
    | cons z l ih => rw [foldr_cons, foldr_cons, ih, min_left_comm]
  by_cases he : e > 1
  · have hleast : (if e > 1 ∧ e < x then e else x) = min e x := by
      split <;> omega
    rw [hleast, hmin, filter_cons_of_pos (by simpa using he), foldr_cons]
  · rw [if_neg (fun h => he h.1), filter_cons_of_neg (by simpa using he)]

/-- **The loop rewrites the address for as long as it may**, and cuts it where it stops or does
not. -/
lemma rewriteLoop_spec (text : AddrText) (addressmap : AssocMap Address Entry)
    (flags : RewriteFlags) (addrOrig : Address) (n : ℕ) (st : RewriteState)
    (hfit : st.address.length < maxlen) :
    ∃ rules b, IsNormalizing (rewriteOf text addressmap maxlen flags) n st.address rules b ∧
      (rewriteLoop text addressmap maxlen flags addrOrig n st).2 = rules.length ∧
      (rewriteLoop text addressmap maxlen flags addrOrig n st).1.expires =
        ((rules.map Entry.expires).filter fun expires => expires > 1).foldr min st.expires ∧
      if rules.length < n ∧ isCut text addressmap maxlen flags b then
        (rewriteLoop text addressmap maxlen flags addrOrig n st).1.address.length < b.length
      else (rewriteLoop text addressmap maxlen flags addrOrig n st).1.address = b := by
  induction n generalizing st with
  | zero => exact ⟨[], st.address, .of_limit st.address, rfl, rfl, by simp [rewriteLoop]⟩
  | succ n ih =>
    cases h : rewriteOf text addressmap maxlen flags st.address with
    | none =>
      obtain ⟨address, honce, haddress⟩ := rewriteOnce_none addrOrig h
      refine ⟨[], st.address, .of_none (n + 1) h, ?_⟩
      rw [rewriteLoop, honce]
      refine ⟨rfl, rfl, ?_⟩
      simpa using haddress
    | some rule =>
      obtain ⟨ent, b⟩ := rule
      obtain ⟨exitSource, honce⟩ := rewriteOnce_some addrOrig h hfit
      obtain ⟨rules, c, hnormal, hcount, hexpires, haddress⟩ :=
        ih ⟨b, _, exitSource⟩ (rewriteOf_length h (by omega))
      refine ⟨ent :: rules, c, .cons h hnormal, ?_⟩
      rw [rewriteLoop, honce]
      refine ⟨congrArg (· + 1) hcount, hexpires.trans ?_, by simpa using haddress⟩
      exact foldr_min_expires ent.expires st.expires (rules.map Entry.expires)

/-- **The code rewrites an address as it is to exactly where no rewriting of it stops at a cut.** -/
theorem addressmapRewrite_isRewriting_iff (text : AddrText) (addressmap : AssocMap Address Entry)
    (maxlen : ℕ) (flags : RewriteFlags) (address : Address) (hfit : address.length < maxlen) :
    IsRewriting text addressmap maxlen flags address
        (addressmapRewrite text addressmap maxlen flags address) ↔
      ∀ rules b, Rewrites (rewriteOf text addressmap maxlen flags) address rules b →
        rules.length < 16 → isCut text addressmap maxlen flags b = false := by
  obtain ⟨rules, b, hnormal, hcount, hexpires, haddress⟩ :=
    rewriteLoop_spec text addressmap flags address 16 ⟨address, timeMax, .none⟩ hfit
  by_cases hcut : rules.length < 16 ∧ isCut text addressmap maxlen flags b
  · rw [if_pos hcut] at haddress
    refine iff_of_false ?_ fun h => ?_
    · rintro ⟨rules', hnormal', -⟩
      obtain ⟨-, hb⟩ := hnormal.unique hnormal'
      exact haddress.ne (congrArg length hb).symm
    · have := h rules b hnormal.rewrites hcut.1
      rw [hcut.2] at this
      cases this
  · rw [if_neg hcut] at haddress
    refine iff_of_true ⟨rules, ?_, hexpires, ?_⟩ fun rules' b' hrun hlt => ?_
    · rw [addressmapRewrite, haddress]
      exact hnormal
    · rw [addressmapRewrite, hcount]
      simp [length_pos_iff]
    · rw [Bool.eq_false_iff]
      intro hb'
      have hstop : rewriteOf text addressmap maxlen flags b' = none := by
        simp only [isCut, Bool.and_eq_true, isNone_iff_eq_none] at hb'
        exact hb'.1.1
      obtain ⟨rfl, rfl⟩ := hnormal.unique ⟨hrun, hlt.le, Or.inr hstop⟩
      exact hcut ⟨hlt, hb'⟩

lemma IsRewriting.unchanged (h : IsRewriting text addressmap maxlen flags address out)
    (hreturned : out.returned = false) : out.address = address := by
  obtain ⟨rules, hnormal, -, hrules⟩ := h
  obtain rfl : rules = [] := by
    rw [hreturned] at hrules
    simpa using hrules.symm
  exact hnormal.rewrites.eq_of_nil

/-- The subdomains of example.com are those of example.net. -/
def wildcardEntry : Entry := .registered "example.net".toList 0 .torrc true true

def wildcardMap : AssocMap Address Entry :=
  (∅ : AssocMap Address Entry).set "example.com".toList wildcardEntry

/-- With the flag for it, the rule rewrites each subdomain as it is to. -/
theorem addressmapRewrite_isRewriting_wildcardMap :
    IsRewriting namesOnly wildcardMap 512 ⟨false, false, true, false, false⟩ "a.example.com".toList
      (addressmapRewrite namesOnly wildcardMap 512 ⟨false, false, true, false, false⟩
        "a.example.com".toList) := by
  have hget : ∀ domain ent, wildcardMap.get domain = some ent → ent = wildcardEntry := by
    intro domain ent h
    by_cases hdomain : domain = "example.com".toList
    · rw [wildcardMap, hdomain, AssocMap.get_set_self] at h
      exact (some.inj h).symm
    · rw [wildcardMap, AssocMap.get_set_of_ne hdomain] at h
      cases h
  refine (addressmapRewrite_isRewriting_iff namesOnly wildcardMap 512 _ _ (by decide)).mpr ?_
  intro rules b _ _
  cases hexact : exactMatch wildcardMap b with
  | some rule => simp [isCut, hexact]
  | none =>
    cases hrule : superdomainRule wildcardMap b with
    | none => simp [isCut, hrule]
    | some rule =>
      obtain ⟨head, ent⟩ := rule
      obtain ⟨domain, -, hent, -⟩ := superdomainRule_eq_some hrule
      obtain ⟨hent, -⟩ := filter_eq_some_iff.mp hent
      obtain rfl := hget _ _ hent
      rw [isCut, rewriteOf, hexact]
      simp only [hrule]
      rfl

/-- **Not every call leaves the address where it does nothing**: without the flag for it, the rule
cuts a.example.com to a, and the call returns that nothing was rewritten. -/
theorem addressmapRewrite_isRewriting_fails :
    ¬ ∀ (text : AddrText) (addressmap : AssocMap Address Entry) (maxlen : ℕ) (flags : RewriteFlags)
      (address : Address), address.length < maxlen →
        IsRewriting text addressmap maxlen flags address
          (addressmapRewrite text addressmap maxlen flags address) := by
  intro h
  have hout : addressmapRewrite namesOnly wildcardMap 512 ⟨false, false, false, false, false⟩
      "a.example.com".toList = ⟨"a".toList, timeMax, .none, false⟩ := by decide
  have hmeets := h namesOnly wildcardMap 512 ⟨false, false, false, false, false⟩
    "a.example.com".toList (by decide)
  rw [hout] at hmeets
  exact absurd (hmeets.unchanged rfl) (by decide)

end Ator.Addressmap

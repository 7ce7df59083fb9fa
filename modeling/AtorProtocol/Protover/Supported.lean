import AtorProtocol.Protover.ComputeVote

/-!
# Asking for protocol versions

The queries of `src/core/or/protover.c`: what a list says about one protocol, and what of a list
this implementation does not support.

* `protocolListSupportsProtocolOrLater_iff` — when the "or later" query agrees with the plain one:
  the two find the entry of a protocol in different ways, and only one of them checks the version
  before it shifts by it.
* `protoverAllSupported_iff` — the versions that are reported missing are those listed that are not
  supported, unless some unknown name has all 64 of them.
-/

namespace Ator.Protover

open Text List Option
open BitVec (getLsbD_and getLsbD_not getLsbD_of_ge lt_of_getLsbD)

inductive ProtocolType where
  | link
  | linkauth
  | relay
  | dircache
  | hsdir
  | hsintro
  | hsrend
  | desc
  | microdesc
  | cons
  | padding
  | flowctrl
  | conflux
deriving DecidableEq

/-- `protocol_type_to_str`, with the names of `PROTOCOL_NAMES`. -/
def protocolTypeToStr : ProtocolType → List Char
  | .link => "Link".toList
  | .linkauth => "LinkAuth".toList
  | .relay => "Relay".toList
  | .dircache => "DirCache".toList
  | .hsdir => "HSDir".toList
  | .hsintro => "HSIntro".toList
  | .hsrend => "HSRend".toList
  | .desc => "Desc".toList
  | .microdesc => "Microdesc".toList
  | .padding => "Padding".toList
  | .cons => "Cons".toList
  | .flowctrl => "FlowCtrl".toList
  | .conflux => "Conflux".toList

/-! ## One protocol -/

/-- `protocol_list_contains`: whether `pr=ver` is included in the list. -/
def protocolListContains (protos : List ProtoEntry) (pr : ProtocolType) (ver : UInt32) : Bool :=
  if ver.toNat > maxProtocolVersion then false else
  match findEntryByName protos (protocolTypeToStr pr) with
  | some ent => ent.bitmask.getLsbD ver.toNat
  | none => false

def protocolListSupportsProtocol (list : List Char) (tp : ProtocolType) (version : UInt32) : Bool :=
  match parseProtocolList list with
  | none => false
  | some protocols => protocolListContains protocols tp version

/-- `bitmask_for_range` on any two `uint32_t`.  A shift of a `uint64_t` by 64 or more is undefined;
`none` stands for that. -/
def bitmaskForRangeAny (low high : UInt32) : Option (BitVec 64) :=
  if 64 ≤ (63 - high).toNat ∨ 64 ≤ (63 - high + low).toNat ∨ 64 ≤ low.toNat then none
  else some ((((BitVec.allOnes 64) <<< (63 - high).toNat) >>> (63 - high + low).toNat) <<< low.toNat)

/-- `!strcasecmp(s1, s2)` -/
def equalNoCase (s1 s2 : List Char) : Bool := s1.map Char.toLower = s2.map Char.toLower

/-- `protocol_list_supports_protocol_or_later`, with `none` for undefined behaviour. -/
def protocolListSupportsProtocolOrLater (list : List Char) (tp : ProtocolType) (version : UInt32) :
    Option Bool :=
  match parseProtocolList list with
  | none => some false
  | some protocols =>
    match bitmaskForRangeAny version 63 with
    | none => none
    | some mask => some (protocols.any fun proto =>
      equalNoCase proto.name (protocolTypeToStr tp) && proto.bitmask &&& mask != 0)

/-- The "or later" query is defined, and holds exactly if the plain query does for some version from
there on. -/
def OrLaterAgrees (list : List Char) (tp : ProtocolType) (version : UInt32) : Prop :=
  ∃ contains, protocolListSupportsProtocolOrLater list tp version = some contains
    ∧ (contains = true ↔ ∃ later, version ≤ later ∧ protocolListSupportsProtocol list tp later = true)

/-- An entry has a version from `v` on. -/
def ListsFrom (v : ℕ) (entry : ProtoEntry) : Prop := ∃ v', v ≤ v' ∧ entry.bitmask.getLsbD v' = true

/-- A list asks for a version that exists, and no entry that only the "or later" query looks at
decides: one whose name is spelt in other letters, or that comes behind another one of its name. -/
def FirstDecides (protocols : List ProtoEntry) (tp : ProtocolType) (version : UInt32) : Prop :=
  version.toNat ≤ maxProtocolVersion
    ∧ ∀ proto ∈ protocols, equalNoCase proto.name (protocolTypeToStr tp) →
      ListsFrom version.toNat proto →
      ∃ ent, findEntryByName protocols (protocolTypeToStr tp) = some ent
        ∧ ListsFrom version.toNat ent

variable {protocols : List ProtoEntry} {tp : ProtocolType} {version : UInt32} {entry : ProtoEntry}
  {v : ℕ}

lemma bitmaskForRangeAny_63 (version : UInt32) :
    bitmaskForRangeAny version 63
      = if version.toNat ≤ maxProtocolVersion then some (bitmaskForRange version.toNat 63)
        else none := by
  have hsub : (63 - 63 : UInt32) = 0 := rfl
  rw [bitmaskForRangeAny, hsub, UInt32.zero_add, maxProtocolVersion]
  by_cases h : version.toNat ≤ 63
  · rw [if_neg (by simp; omega), if_pos h, bitmaskForRange]
    simp
  · rw [if_pos (by omega), if_neg h]

lemma listsFrom_iff (h : v < 64) :
    entry.bitmask &&& bitmaskForRange v 63 ≠ 0 ↔ ListsFrom v entry := by
  constructor
  · intro hne
    by_contra hnone
    refine hne (BitVec.eq_of_getLsbD_eq fun i hi => ?_)
    rw [getLsbD_and, bitmaskForRange_getLsbD (by omega) (by omega)]
    by_cases hle : v ≤ i
    · have hbit : entry.bitmask.getLsbD i = false := by
        by_contra hbit
        exact hnone ⟨i, hle, by simpa using hbit⟩
      simp [hbit]
    · simp [hle]
  · rintro ⟨v', hle, hbit⟩ hzero
    have hlt : v' < 64 := by
      by_contra hge
      rw [getLsbD_of_ge _ _ (by omega)] at hbit
      cases hbit
    have hand := congrArg (fun b => b.getLsbD v') hzero
    simp only [getLsbD_and, bitmaskForRange_getLsbD (Nat.le_of_lt_succ h) (by omega : 63 < 64),
      hbit, hle, Nat.le_of_lt_succ hlt] at hand
    simp at hand

lemma protocolListContains_iff :
    protocolListContains protocols tp version = true
      ↔ ∃ ent, findEntryByName protocols (protocolTypeToStr tp) = some ent
        ∧ ent.bitmask.getLsbD version.toNat = true := by
  rw [protocolListContains]
  split_ifs with hver
  · simp only [false_iff]
    rintro ⟨ent, -, hbit⟩
    rw [getLsbD_of_ge _ _ (by rw [maxProtocolVersion] at hver; omega)] at hbit
    cases hbit
  · cases findEntryByName protocols (protocolTypeToStr tp) <;> simp

lemma exists_later_iff :
    (∃ later, version ≤ later ∧ protocolListContains protocols tp later = true)
      ↔ ∃ ent, findEntryByName protocols (protocolTypeToStr tp) = some ent
        ∧ ListsFrom version.toNat ent := by
  simp only [protocolListContains_iff]
  constructor
  · rintro ⟨later, hle, ent, hfind, hbit⟩
    exact ⟨ent, hfind, later.toNat, UInt32.le_iff_toNat_le.mp hle, hbit⟩
  · rintro ⟨ent, hfind, v', hle, hbit⟩
    have hlt : v' < 64 := by
      by_contra hge
      rw [getLsbD_of_ge _ _ (by omega)] at hbit
      cases hbit
    have htoNat : (UInt32.ofNat v').toNat = v' := by
      exact Nat.mod_eq_of_lt (by omega)
    exact ⟨UInt32.ofNat v', UInt32.le_iff_toNat_le.mpr (by omega), ent, hfind, by rw [htoNat, hbit]⟩

lemma equalNoCase_of_find {name : List Char} (h : findEntryByName protocols name = some entry) :
    entry ∈ protocols ∧ equalNoCase entry.name name = true := by
  have hname : entry.name = name := by simpa using find?_some h
  rw [hname]
  exact ⟨mem_of_find?_eq_some h, by simp [equalNoCase]⟩

/-- **When the "or later" query agrees with the plain one**: exactly if the list does not parse, or
the version is at most 63 and the first entry of the name decides. -/
theorem protocolListSupportsProtocolOrLater_iff (list : List Char) (tp : ProtocolType)
    (version : UInt32) :
    OrLaterAgrees list tp version ↔ ∀ protocols, parseProtocolList list = some protocols →
        FirstDecides protocols tp version := by
  rw [OrLaterAgrees, protocolListSupportsProtocolOrLater]
  simp only [protocolListSupportsProtocol]
  cases hparse : parseProtocolList list with
  | none => simp
  | some protocols =>
    simp only [some.injEq, forall_eq', exists_later_iff]
    rw [bitmaskForRangeAny_63]
    by_cases hver : version.toNat ≤ maxProtocolVersion
    · rw [if_pos hver]
      simp only [some.injEq, exists_eq_left', List.any_eq_true, Bool.and_eq_true, bne_iff_ne,
        listsFrom_iff (Nat.lt_succ_of_le hver), FirstDecides]
      constructor
      · intro h
        exact ⟨hver, fun proto hproto hname hlists => h.mp ⟨proto, hproto, hname, hlists⟩⟩
      · rintro ⟨-, h⟩
        constructor
        · rintro ⟨proto, hproto, hname, hlists⟩
          exact h proto hproto hname hlists
        · rintro ⟨ent, hfind, hlists⟩
          obtain ⟨hmem, hname⟩ := equalNoCase_of_find hfind
          exact ⟨ent, hmem, hname, hlists⟩
    · rw [if_neg hver]
      simp [FirstDecides, hver]

/-- A name in other letters: the "or later" query finds the entry, the plain one does not. -/
theorem protocolListSupportsProtocolOrLater_fails : ¬ OrLaterAgrees "link=5".toList .link 3 := by
  have hparse : parseProtocolList "link=5".toList = some [⟨"link".toList, 32⟩] := by
    decide +kernel
  have hlater : protocolListSupportsProtocolOrLater "link=5".toList .link 3 = some true := by
    decide +kernel
  rintro ⟨contains, hcontains, hagrees⟩
  obtain rfl := some.inj (hlater.symm.trans hcontains)
  obtain ⟨later, -, hsupports⟩ := hagrees.mp rfl
  simp only [protocolListSupportsProtocol, hparse] at hsupports
  obtain ⟨ent, hfind, -⟩ := protocolListContains_iff.mp hsupports
  have hnone : findEntryByName [⟨"link".toList, 32⟩] (protocolTypeToStr .link) = none := by decide
  rw [hnone] at hfind
  cases hfind

/-! ## What is supported here -/

/-- `protover_get_supported`: the `PR_*_V` of the types.  `hasTlssecrets` is the build option
`HAVE_WORKING_TOR_TLS_GET_TLSSECRETS`. -/
def protoverGetSupported (hasTlssecrets : Bool) : ProtocolType → List Char
  | .conflux => "1".toList
  | .cons => "1-2".toList
  | .desc => "1-3".toList
  | .dircache => "2".toList
  | .flowctrl => "1-2".toList
  | .hsdir => "2".toList
  | .hsintro => "4-5".toList
  | .hsrend => "1-2".toList
  | .link => "1-5".toList
  | .linkauth => if hasTlssecrets then "1,3".toList else "3".toList
  | .microdesc => "1-3".toList
  | .padding => "2".toList
  | .relay => "2-4".toList

def protoverGetSupportedProtocols (hasTlssecrets : Bool) : List Char :=
  "Conflux=".toList ++ protoverGetSupported hasTlssecrets .conflux
    ++ " Cons=".toList ++ protoverGetSupported hasTlssecrets .cons
    ++ " Desc=".toList ++ protoverGetSupported hasTlssecrets .desc
    ++ " DirCache=".toList ++ protoverGetSupported hasTlssecrets .dircache
    ++ " FlowCtrl=".toList ++ protoverGetSupported hasTlssecrets .flowctrl
    ++ " HSDir=".toList ++ protoverGetSupported hasTlssecrets .hsdir
    ++ " HSIntro=".toList ++ protoverGetSupported hasTlssecrets .hsintro
    ++ " HSRend=".toList ++ protoverGetSupported hasTlssecrets .hsrend
    ++ " Link=".toList ++ protoverGetSupported hasTlssecrets .link
    ++ " LinkAuth=".toList ++ protoverGetSupported hasTlssecrets .linkauth
    ++ " Microdesc=".toList ++ protoverGetSupported hasTlssecrets .microdesc
    ++ " Padding=".toList ++ protoverGetSupported hasTlssecrets .padding
    ++ " Relay=".toList ++ protoverGetSupported hasTlssecrets .relay

/-- `get_supported_protocol_list`; a list that did not parse would have no entries to find. -/
def getSupportedProtocolList (hasTlssecrets : Bool) : List ProtoEntry :=
  (parseProtocolList (protoverGetSupportedProtocols hasTlssecrets)).getD []

/-- The body of the loop of `protover_all_supported`: what is missing of an entry. -/
def missingOf (supported : List ProtoEntry) (ent : ProtoEntry) : Option ProtoEntry :=
  match findEntryByName supported ent.name with
  | none => if ent.bitmask ≠ 0 then some ent else none
  | some mine =>
    let missingMask := ent.bitmask &&& ~~~mine.bitmask
    if missingMask ≠ 0 then some ⟨ent.name, missingMask⟩ else none

/-- `protover_all_supported`: the answer, and what is written to `missing_out`, if anything.
`wantMissing` says that `missing_out` is not NULL; the result is `none` where the encoder is
undefined. -/
def protoverAllSupported (hasTlssecrets : Bool) (s : Option (List Char)) (wantMissing : Bool) :
    Option (Bool × Option (List Char)) :=
  match s with
  | none => some (true, none)
  | some s =>
    match parseProtocolList s with
    | none => some (true, none)
    | some entries =>
      let missing := entries.filterMap (missingOf (getSupportedProtocolList hasTlssecrets))
      if missing = [] then some (true, none)
      else if ¬ wantMissing then some (false, none)
      else (encodeProtocolList missing).map fun text => (false, some text)

/-- What a string lists: one that does not parse lists nothing. -/
def entriesOf (s : Option (List Char)) : List ProtoEntry := (s.bind parseProtocolList).getD []

/-- The answer says whether everything that is listed is supported; and if it is not, what is
written parses to the versions that are listed and not supported. -/
def AllSupportedRight (hasTlssecrets : Bool) (s : Option (List Char)) (wantMissing : Bool) : Prop :=
  ∃ ok missing, protoverAllSupported hasTlssecrets s wantMissing = some (ok, missing)
    ∧ (ok = true ↔ ∀ name v, Lists name v (entriesOf s) →
        Lists name v (getSupportedProtocolList hasTlssecrets))
    ∧ (ok = false → wantMissing → ∃ text entries, missing = some text
        ∧ parseProtocolList text = some entries
        ∧ ∀ name v, Lists name v entries ↔ Lists name v (entriesOf s)
          ∧ ¬ Lists name v (getSupportedProtocolList hasTlssecrets))

section AllSupported

variable {hasTlssecrets : Bool} {supported entries : List ProtoEntry} {name : List Char}

/-- The names that are supported are distinct, and each has some version. -/
structure Distinct (supported : List ProtoEntry) : Prop where
  nodup : (supported.map ProtoEntry.name).Nodup
  ne_zero : ∀ mine ∈ supported, mine.bitmask ≠ 0

lemma distinct_supported (hasTlssecrets : Bool) : Distinct (getSupportedProtocolList hasTlssecrets) := by
  constructor
  · cases hasTlssecrets <;> decide +kernel
  · cases hasTlssecrets <;> decide +kernel

lemma lists_iff : Lists name v entries = true
    ↔ ∃ e ∈ entries, e.name = name ∧ e.bitmask.getLsbD v = true := by
  simp [Lists]

lemma Distinct.lists_iff (h : Distinct supported) :
    Lists name v supported = true
      ↔ ∃ mine, findEntryByName supported name = some mine ∧ mine.bitmask.getLsbD v = true := by
  rw [Protover.lists_iff]
  constructor
  · rintro ⟨mine, hmem, hname, hbit⟩
    cases hfind : findEntryByName supported name with
    | none => exact absurd hname (by simpa using find?_eq_none.mp hfind mine hmem)
    | some first =>
      have hfirst : first.name = name := by simpa using find?_some hfind
      have heq := inj_on_of_nodup_map h.nodup (mem_of_find?_eq_some hfind) hmem
        (hfirst.trans hname.symm)
      exact ⟨first, rfl, by rw [heq, hbit]⟩
  · rintro ⟨mine, hfind, hbit⟩
    exact ⟨mine, mem_of_find?_eq_some hfind, by simpa using find?_some hfind, hbit⟩

lemma exists_bit {mask : BitVec 64} (h : mask ≠ 0) : ∃ v, mask.getLsbD v = true := by
  by_contra! hnone
  exact h (BitVec.eq_of_getLsbD_eq fun v _ => by simpa using hnone v)

lemma missingOf_name {m : ProtoEntry} (h : missingOf supported entry = some m) :
    m.name = entry.name ∧ m.bitmask ≠ 0 := by
  rw [missingOf] at h
  split at h
  · split_ifs at h with hne
    obtain rfl := some.inj h
    exact ⟨rfl, hne⟩
  · dsimp only at h
    split_ifs at h with hne
    obtain rfl := some.inj h
    exact ⟨rfl, hne⟩

lemma missingOf_lists (h : Distinct supported) (entry : ProtoEntry) (v : ℕ) :
    (∃ m, missingOf supported entry = some m ∧ m.bitmask.getLsbD v = true)
      ↔ entry.bitmask.getLsbD v = true ∧ ¬ Lists entry.name v supported = true := by
  rw [h.lists_iff, missingOf]
  cases hfind : findEntryByName supported entry.name with
  | none =>
    by_cases hzero : entry.bitmask = 0
    · simp [hzero]
    · dsimp only
      rw [if_pos hzero]
      simp
  | some mine =>
    by_cases hzero : entry.bitmask &&& ~~~mine.bitmask = 0
    · have hbit := congrArg (fun mask => mask.getLsbD v) hzero
      have hlt := lt_of_getLsbD (x := entry.bitmask) (i := v)
      grind
    · have hlt := lt_of_getLsbD (x := entry.bitmask) (i := v)
      grind

lemma lists_missing (h : Distinct supported) (entries : List ProtoEntry) (name : List Char) (v : ℕ) :
    Lists name v (entries.filterMap (missingOf supported)) = true
      ↔ Lists name v entries = true ∧ ¬ Lists name v supported = true := by
  rw [lists_iff, lists_iff]
  constructor
  · rintro ⟨m, hm, hname, hbit⟩
    obtain ⟨entry, hentry, hmissing⟩ := mem_filterMap.mp hm
    have hentryName : entry.name = name := (missingOf_name hmissing).1.symm.trans hname
    obtain ⟨hbit, hsupported⟩ := (missingOf_lists h entry v).mp ⟨m, hmissing, hbit⟩
    rw [hentryName] at hsupported
    exact ⟨⟨entry, hentry, hentryName, hbit⟩, hsupported⟩
  · rintro ⟨⟨entry, hentry, rfl, hbit⟩, hsupported⟩
    obtain ⟨m, hmissing, hbit⟩ := (missingOf_lists h entry v).mpr ⟨hbit, hsupported⟩
    exact ⟨m, mem_filterMap.mpr ⟨entry, hentry, hmissing⟩, (missingOf_name hmissing).1, hbit⟩

lemma missing_eq_nil_iff (h : Distinct supported) (entries : List ProtoEntry) :
    entries.filterMap (missingOf supported) = []
      ↔ ∀ name v, Lists name v entries → Lists name v supported := by
  constructor
  · intro hnil name v hlists
    by_contra hsupported
    have hmissing := (lists_missing h entries name v).mpr ⟨hlists, hsupported⟩
    rw [hnil] at hmissing
    cases hmissing
  · intro hall
    by_contra hne
    obtain ⟨m, hm⟩ := exists_mem_of_ne_nil _ hne
    obtain ⟨entry, -, hmissing⟩ := mem_filterMap.mp hm
    obtain ⟨v, hv⟩ := exists_bit (missingOf_name hmissing).2
    obtain ⟨hlists, hsupported⟩ := (lists_missing h entries m.name v).mp
      (lists_iff.mpr ⟨m, hm, rfl, hv⟩)
    exact hsupported (hall m.name v hlists)

lemma missingOf_allOnes_iff (h : Distinct supported) (entry : ProtoEntry) :
    (∃ m, missingOf supported entry = some m ∧ m.bitmask = BitVec.allOnes 64)
      ↔ findEntryByName supported entry.name = none ∧ entry.bitmask = BitVec.allOnes 64 := by
  rw [missingOf]
  cases hfind : findEntryByName supported entry.name with
  | none =>
    constructor
    · rintro ⟨m, hm, hones⟩
      split_ifs at hm
      obtain rfl := some.inj hm
      exact ⟨rfl, hones⟩
    · rintro ⟨-, hones⟩
      exact ⟨entry, by rw [if_pos (by rw [hones]; decide)], hones⟩
  | some mine =>
    simp only [reduceCtorEq, false_and, iff_false]
    rintro ⟨m, hm, hones⟩
    split_ifs at hm
    obtain rfl := some.inj hm
    obtain ⟨v, hv⟩ := exists_bit (h.ne_zero mine (mem_of_find?_eq_some hfind))
    have hbit := congrArg (fun mask => mask.getLsbD v) hones
    simp only [getLsbD_and, getLsbD_not, hv, BitVec.getLsbD_allOnes, lt_of_getLsbD hv] at hbit
    simp at hbit

lemma encode_missing_isSome (h : Distinct supported) (entries : List ProtoEntry) :
    (encodeProtocolList (entries.filterMap (missingOf supported))).isSome
      ↔ ∀ entry ∈ entries, findEntryByName supported entry.name = none →
        entry.bitmask ≠ BitVec.allOnes 64 := by
  rw [encodeProtocolList, encodeEntries_isSome]
  constructor
  · intro hall entry hentry hfind hones
    obtain ⟨m, hm, hmones⟩ := (missingOf_allOnes_iff h entry).mpr ⟨hfind, hones⟩
    exact hall m (mem_filterMap.mpr ⟨entry, hentry, hm⟩) hmones
  · intro hall m hm hmones
    obtain ⟨entry, hentry, hmissing⟩ := mem_filterMap.mp hm
    obtain ⟨hfind, hones⟩ := (missingOf_allOnes_iff h entry).mp ⟨m, hmissing, hmones⟩
    exact hall entry hentry hfind hones

/-- **What is asked for and not supported.**  The answer is right, and so is what is written to
`missing_out`, unless `missing_out` is wanted and some entry lists all 64 versions of a protocol that
is not known here. -/
theorem protoverAllSupported_iff (hasTlssecrets : Bool) (s : Option (List Char))
    (wantMissing : Bool) :
    AllSupportedRight hasTlssecrets s wantMissing ↔ (wantMissing = true → ∀ entry ∈ entriesOf s,
        findEntryByName (getSupportedProtocolList hasTlssecrets) entry.name = none →
          entry.bitmask ≠ BitVec.allOnes 64) := by
  have hdistinct := distinct_supported hasTlssecrets
  have hnothing : protoverAllSupported hasTlssecrets s wantMissing = some (true, none) →
      entriesOf s = [] → (AllSupportedRight hasTlssecrets s wantMissing ↔
        (wantMissing = true → ∀ entry ∈ entriesOf s,
          findEntryByName (getSupportedProtocolList hasTlssecrets) entry.name = none →
            entry.bitmask ≠ BitVec.allOnes 64)) := by
    intro hresult hentries
    rw [hentries]
    refine iff_of_true ⟨true, none, hresult, ?_, by simp⟩ fun _ entry hentry => ?_
    · rw [hentries]
      simp [Lists]
    · cases hentry
  cases s with
  | none => exact hnothing rfl rfl
  | some s =>
    cases hparse : parseProtocolList s with
    | none => exact hnothing (by rw [protoverAllSupported, hparse]) (by simp [entriesOf, hparse])
    | some entries =>
      have hentries : entriesOf (some s) = entries := by simp [entriesOf, hparse]
      have hnil := missing_eq_nil_iff hdistinct entries
      have hsome := encode_missing_isSome hdistinct entries
      rw [AllSupportedRight, protoverAllSupported, hparse, hentries]
      dsimp only
      by_cases hmissing : entries.filterMap
          (missingOf (getSupportedProtocolList hasTlssecrets)) = []
      · -- nothing is missing
        rw [if_pos hmissing]
        rw [hmissing] at hsome
        refine iff_of_true ⟨true, none, rfl, ?_, by simp⟩ fun _ => hsome.mp rfl
        simpa using hnil.mp hmissing
      · rw [if_neg hmissing]
        cases wantMissing with
        | false =>
          refine iff_of_true ⟨false, none, rfl, ?_, by simp⟩ (by simp)
          rw [← hnil]
          simp [hmissing]
        | true =>
          rw [if_neg (by simp), ← hsome]
          constructor
          · rintro ⟨ok, missing, hresult, -, -⟩ -
            obtain ⟨text, htext, -⟩ := Option.map_eq_some_iff.mp hresult
            rw [htext]
            rfl
          · intro hdefined
            obtain ⟨text, htext⟩ := Option.isSome_iff_exists.mp (hdefined rfl)
            have hnames : ∀ e ∈ entries.filterMap
                (missingOf (getSupportedProtocolList hasTlssecrets)), ValidName e.name := by
              intro m hm
              obtain ⟨entry, hentry, hmissing⟩ := mem_filterMap.mp hm
              rw [(missingOf_name hmissing).1]
              exact validName_of_parseProtocolList s entries hparse entry hentry
            refine ⟨false, some text, by rw [htext]; rfl, ?_, fun _ _ => ⟨text, _, rfl,
              (parseProtocolList_encodeEntries _ text hnames htext).2,
              lists_missing hdistinct entries⟩⟩
            rw [← hnil]
            simp [hmissing]

/-- All versions of a protocol that is not known: what is missing cannot be written. -/
theorem protoverAllSupported_fails : ¬ AllSupportedRight true (some "Wombat=0-63".toList) true := by
  have hundefined : protoverAllSupported true (some "Wombat=0-63".toList) true = none := by
    decide +kernel
  rintro ⟨ok, missing, hresult, -⟩
  rw [hundefined] at hresult
  cases hresult

end AllSupported

end Ator.Protover

import AtorProtocol.Encoding.Binascii
import AtorProtocol.Encoding.ParseInt
import AtorProtocol.Dirauth.Majority
import Mathlib.Data.List.DropRight

/-!
# The versions a consensus recommends

`tor_version_parse` and `tor_version_compare` of `src/core/or/versions.c`, and the tally of
`compute_consensus_versions_list` of `src/feature/dirauth/dirvote.c` with the lists its caller
makes of the votes.

* `torVersionParse`, `torVersionCompare` — a version, and the order of versions.
* `compareTorVersionStr_congruent` — strings compare equal when they denote the same version.
* `VersionsOutcome` — a list of recommended versions that the code may put out.
* `versionsTallied_iff` — when the list is that of the majorities.
-/

namespace Ator.Dirauth

open Ator.Text List

/-- `tor_version_t`; `git_tag_len` is the length of the tag. -/
structure TorVersion where
  major : BitVec 32
  minor : BitVec 32
  micro : BitVec 32
  status : BitVec 32
  patchlevel : BitVec 32
  statusTag : List Char
  svnRevision : BitVec 32
  gitTag : Bytes
  deriving DecidableEq

def verPre : BitVec 32 := 0
def verRc : BitVec 32 := 1
def verRelease : BitVec 32 := 2
def maxStatusTagLen : ℕ := 32
def hexDigestLen : ℕ := 40

/-- `find_whitespace`: what comes before it. -/
def beforeWhitespace (s : List Char) : List Char :=
  s.takeWhile fun c => c ∉ ['#', ' ', '\r', '\n', '\t']

/-- `eat_whitespace`, within a comment or not. -/
def eatWhitespace : Bool → List Char → List Char
  | _, [] => []
  | true, c :: s => if c = '\n' then eatWhitespace false s else eatWhitespace true s
  | false, c :: s =>
    if c ∈ [' ', '\t', '\n', '\r'] then eatWhitespace false s
    else if c = '#' then eatWhitespace true s
    else c :: s

def parseNumber (cp : List Char) : Option (BitVec 32 × List Char) :=
  if digitsOf cp = [] then none
  else if 2147483647 < digitsVal (digitsOf cp) then none
  else some (BitVec.ofNat 32 (digitsVal (digitsOf cp)), afterDigits cp)

def parseDot : List Char → Option (List Char)
  | '.' :: cp => some cp
  | _ => none

/-- `(int) strtol(cp, &eos, 10)` -/
def strtolInt (cp : List Char) : BitVec 32 :=
  match strtol cp with
  | some (r, _) => BitVec.ofInt 32 (max (-9223372036854775808) (min 9223372036854775807 r))
  | none => 0

/-- `tor_version_parse` from `status_tag` on. -/
def parseStatusTag (out : TorVersion) (cp : List Char) : Option TorVersion :=
  let cp := if cp.head? = some '-' ∨ cp.head? = some '.' then cp.tail else cp
  let tag := beforeWhitespace cp
  let out := { out with statusTag := tag.take (maxStatusTagLen - 1) }
  let cp := eatWhitespace false (cp.drop tag.length)
  if "(r".toList <+: cp then some { out with svnRevision := strtolInt (cp.drop 2) }
  else if "(git-".toList <+: cp then
    if ')' ∉ cp then none
    else
      let hex := beforeDelim ')' (cp.drop 5)
      if hexDigestLen < hex.length ∨ hex.length = 0 then none
      else (base16Decode (hex.length / 2) hex hex.length).map fun tag => { out with gitTag := tag }
  else some out

/-- `tor_version_parse`, with `none` for -1. -/
def torVersionParse (s : List Char) : Option TorVersion := do
  let cp := if (s.take 4).map Char.toLower = "tor ".toList then s.drop 4 else s
  let (major, cp) ← parseNumber cp
  let cp ← parseDot cp
  let (minor, cp) ← parseNumber cp
  let out : TorVersion := ⟨major, minor, 0, verRelease, 0, [], 0, []⟩
  match cp with
  | [] => some out
  | '-' :: _ => parseStatusTag out cp
  | _ => do
    let cp ← parseDot cp
    let (micro, cp) ← parseNumber cp
    let out := { out with micro := micro }
    let patch (out : TorVersion) (cp : List Char) : Option TorVersion := do
      let (patchlevel, cp) ← parseNumber cp
      parseStatusTag { out with patchlevel := patchlevel } cp
    match cp with
    | [] => some out
    | '.' :: cp => patch out cp
    | '-' :: _ => parseStatusTag out cp
    | 'p' :: 'r' :: 'e' :: cp => patch { out with status := verPre } cp
    | 'r' :: 'c' :: cp => patch { out with status := verRc } cp
    | _ => none

/-- `CMP`: the sign of the difference, which may wrap around. -/
def cmpField (aval bval : BitVec 32) : Ordering :=
  if (aval - bval).toInt < 0 then .lt else if 0 < (aval - bval).toInt then .gt else .eq

def torVersionCompare (a b : TorVersion) : Ordering :=
  (cmpField a.major b.major).then <|
  (cmpField a.minor b.minor).then <|
  (cmpField a.micro b.micro).then <|
  (cmpField a.status b.status).then <|
  (cmpField a.patchlevel b.patchlevel).then <|
  (compare a.statusTag b.statusTag).then <|
  (cmpField a.svnRevision b.svnRevision).then <|
  (cmpField (BitVec.ofNat 32 a.gitTag.length) (BitVec.ofNat 32 b.gitTag.length)).then <|
  compare a.gitTag b.gitTag

/-- `compare_tor_version_str_ptr_` -/
def compareTorVersionStr (a b : List Char) : Ordering :=
  match torVersionParse a, torVersionParse b with
  | some va, some vb => torVersionCompare va vb
  | some _, none => .lt
  | none, some _ => .gt
  | none, none => compare a b

/-- `smartlist_split_string(sl, str, ",", SPLIT_SKIP_SPACE|SPLIT_IGNORE_BLANK, 0)` -/
def splitVersions (str : List Char) : List (List Char) :=
  ((str.splitOn ',').map fun piece =>
    (piece.dropWhile isCSpace).rdropWhile isCSpace).filter (· ≠ [])

/-- The lists of the voters who vote on versions, as `networkstatus_compute_consensus` splits
them. -/
def versionLists (votes : List (Option (List Char))) : List (List (List Char)) :=
  (votes.filterMap id).map splitVersions

/-- What `compute_consensus_versions_list` may return, by the order in which the sorts leave the
versions that compare equal. -/
def VersionsOutcome (votes : List (Option (List Char))) (result : List Char) : Prop :=
  ∃ good, TallyTo compareTorVersionStr ((versionLists votes).length / 2) (versionLists votes) good ∧
    result = [','].intercalate good

/-- The versions that come out are those of the majorities of the voters, each once. -/
def VersionsTallied (votes : List (Option (List Char))) : Prop :=
  (∃ result, VersionsOutcome votes result) ∧
    ∀ result, VersionsOutcome votes result → (splitVersions result).Nodup ∧
      ∀ v, v ∈ splitVersions result ↔
        (versionLists votes).length < 2 * listing (versionLists votes) v

/-- The comparisons of the listed versions are those of an order, and no majority's version is
listed in another spelling. -/
def VersionsSpelledOnce (votes : List (Option (List Char))) : Prop :=
  Consistent compareTorVersionStr (versionLists votes).flatten ∧
    ∀ v, (versionLists votes).length < 2 * listing (versionLists votes) v →
      ∀ w ∈ (versionLists votes).flatten, compareTorVersionStr w v = .eq → w = v

/-! ## Comparing versions -/

variable {a b c v w s : List Char} {votes : List (Option (List Char))}

lemma cmpField_eq_iff {x y : BitVec 32} : cmpField x y = .eq ↔ x = y := by
  constructor
  · intro h
    rw [cmpField] at h
    split_ifs at h with hlt hgt
    have hzero : (x - y).toInt = (0#32).toInt := by
      rw [BitVec.toInt_zero]
      omega
    have hsub : x - y = 0#32 := BitVec.eq_of_toInt_eq hzero
    rw [← BitVec.sub_add_cancel x y, hsub, BitVec.zero_add]
  · rintro rfl
    simp [cmpField]

lemma torVersionCompare_eq_iff {x y : TorVersion} : torVersionCompare x y = .eq ↔ x = y := by
  constructor
  · intro h
    simp only [torVersionCompare, Ordering.then_eq_eq, cmpField_eq_iff,
      Std.LawfulEqOrd.compare_eq_iff_eq] at h
    obtain ⟨hmajor, hminor, hmicro, hstatus, hpatch, htag, hsvn, -, hgit⟩ := h
    cases x
    cases y
    simp only [TorVersion.mk.injEq]
    exact ⟨hmajor, hminor, hmicro, hstatus, hpatch, htag, hsvn, hgit⟩
  · rintro rfl
    simp [torVersionCompare, cmpField_eq_iff]

lemma compareTorVersionStr_eq_iff : compareTorVersionStr a b = .eq ↔
    torVersionParse a = torVersionParse b ∧ (torVersionParse a = none → a = b) := by
  rw [compareTorVersionStr]
  cases ha : torVersionParse a with
  | none =>
    cases hb : torVersionParse b with
    | none => simp
    | some vb => simp
  | some va =>
    cases hb : torVersionParse b with
    | none => simp
    | some vb => simp [torVersionCompare_eq_iff]

/-- **The comparison of versions does not tell spellings apart.** -/
theorem compareTorVersionStr_congruent : EqCongruent compareTorVersionStr := by
  refine ⟨fun a => compareTorVersionStr_eq_iff.mpr ⟨rfl, fun _ => rfl⟩, fun a b c h => ?_,
    fun a b c h => ?_⟩
  all_goals
    obtain ⟨hparse, hsame⟩ := compareTorVersionStr_eq_iff.mp h
    cases ha : torVersionParse a with
    | none => rw [hsame ha]
    | some va => cases hc : torVersionParse c <;> simp only [compareTorVersionStr, ← hparse, ha, hc]

/-! ## Joining and splitting -/

/-- A piece that a split leaves as it is. -/
def IsPiece (v : List Char) : Prop :=
  ',' ∉ v ∧ v ≠ [] ∧ (v.dropWhile isCSpace).rdropWhile isCSpace = v

lemma notMem_of_mem_splitOn {d : Char} (h : v ∈ s.splitOn d) : d ∉ v := by
  induction s generalizing v with
  | nil =>
    rw [splitOn_nil, mem_singleton] at h
    simp [h]
  | cons c s ih =>
    rw [splitOn_cons_eq_if_modifyHead] at h
    obtain ⟨p, ps, hsplit⟩ := exists_cons_of_ne_nil (splitOn_ne_nil d s)
    split at h
    · rcases mem_cons.mp h with rfl | h
      · simp
      · exact ih h
    · next hne =>
        rw [hsplit] at h ih
        rcases mem_cons.mp h with rfl | h
        · have hp := ih mem_cons_self
          rw [mem_cons, not_or]
          exact ⟨fun hdc => hne (by simp [hdc]), hp⟩
        · exact ih (mem_cons_of_mem p h)

lemma isPiece_of_mem_splitVersions (h : v ∈ splitVersions s) : IsPiece v := by
  obtain ⟨hv, hne⟩ := mem_filter.mp h
  obtain ⟨piece, hpiece, rfl⟩ := mem_map.mp hv
  refine ⟨fun hmem => ?_, by simpa using hne, ?_⟩
  · refine notMem_of_mem_splitOn hpiece ?_
    exact (dropWhile_sublist _).subset (( rdropWhile_prefix _ _).subset hmem)
  · obtain ⟨front, hfront⟩ : ∃ front, front = piece.dropWhile isCSpace := ⟨_, rfl⟩
    rw [← hfront] at hne ⊢
    cases hv : front.rdropWhile isCSpace with
    | nil => simp [hv] at hne
    | cons c t =>
      have hpre : c :: t <+: front := hv ▸ rdropWhile_prefix isCSpace front
      have hc : isCSpace c = false := by
        have hhead := head?_dropWhile_not isCSpace piece
        obtain ⟨r, hr⟩ := hpre
        rw [← hfront, ← hr] at hhead
        simpa using hhead
      rw [dropWhile_cons_of_neg (by simp [hc]), ← hv, rdropWhile_idempotent]

lemma splitVersions_intercalate {good : List (List Char)} (h : ∀ v ∈ good, IsPiece v) :
    splitVersions ([','].intercalate good) = good := by
  rw [splitVersions]
  cases good with
  | nil => simp
  | cons v good =>
    rw [splitOn_intercalate ',' (fun l hl => (h l hl).1) (by simp)]
    have hmap : (v :: good).map (fun piece => (piece.dropWhile isCSpace).rdropWhile isCSpace) =
        v :: good := by
      refine (map_congr_left fun l hl => (h l hl).2.2).trans (map_id _)
    rw [hmap]
    exact filter_eq_self.mpr fun l hl => by simpa using (h l hl).2.1

/-! ## The recommended versions -/

lemma isPiece_of_mem_versionLists (h : v ∈ (versionLists votes).flatten) : IsPiece v := by
  obtain ⟨l, hl, hv⟩ := mem_flatten.mp h
  obtain ⟨s, -, rfl⟩ := mem_map.mp hl
  exact isPiece_of_mem_splitVersions hv

lemma half_lt_iff {n k : ℕ} : n / 2 < k ↔ n < 2 * k := by omega

lemma splitVersions_result {good : List (List Char)}
    (h : TallyTo compareTorVersionStr ((versionLists votes).length / 2) (versionLists votes) good) :
    splitVersions ([','].intercalate good) = good := by
  refine splitVersions_intercalate fun v hv =>
    isPiece_of_mem_versionLists (?_ : v ∈ (versionLists votes).flatten)
  have := h.lt_listing compareTorVersionStr_congruent hv
  exact mem_flatten_of_listing (by omega)

/-- **The versions of the majorities come out, each once, exactly where no majority's version is
listed in another spelling and the comparison is an order.** -/
theorem versionsTallied_iff : VersionsTallied votes ↔ VersionsSpelledOnce votes := by
  have hcmp := compareTorVersionStr_congruent
  constructor
  · rintro ⟨⟨result, good, htally, -⟩, hall⟩
    have hcons := htally.consistent hcmp
    refine ⟨hcons, fun v hv w hw hwv => ?_⟩
    by_contra hne
    obtain ⟨lost, hlost, hnot⟩ := TallyTo.exists_notMem ((versionLists votes).length / 2) hcmp hcons
      hw hwv hne (by omega)
    have hmem := ((hall _ ⟨lost, hlost, rfl⟩).2 v).mpr hv
    rw [splitVersions_result hlost] at hmem
    exact hnot hmem
  · rintro ⟨hcons, hunique⟩
    obtain ⟨good, hgood⟩ := TallyTo.exists_good ((versionLists votes).length / 2) hcons
    refine ⟨⟨_, good, hgood, rfl⟩, ?_⟩
    rintro result ⟨good, htally, rfl⟩
    rw [splitVersions_result htally]
    refine ⟨htally.nodup hcmp (by omega), fun v => ⟨fun hv => ?_, fun hv => ?_⟩⟩
    · exact half_lt_iff.mp (htally.lt_listing hcmp hv)
    · exact htally.mem_of_unique hcmp (hunique v hv) (half_lt_iff.mpr hv)

end Ator.Dirauth

import AtorProtocol.HiddenService.DisasterSrv
import AtorProtocol.Lib.BinarySearch
import AtorProtocol.Lib.Clockwise
import AtorProtocol.Lib.Wire
import AtorProtocol.Policies.AddrPolicy
import Mathlib.Data.List.Lex

/-!
# Responsible directories

`hs_get_responsible_hsdirs` of `src/feature/hs/hs_common.c`, with the search in
`src/lib/container/smartlist.c`.  `sha3` stands for SHA3-256, whose code is vendored, and
`smartlistSort` for the sort of the C library.

* `hsGetResponsibleHsdirs` — the directories for fetching, or for one of the two uploads.
* `hsGetResponsibleHsdirs_spec` — all replicas, and what a client finds of what a service uploads.
-/

namespace Ator.HiddenService

open Congestion Policies List

/-- A digest of `DIGEST256_LEN` bytes. -/
abbrev Digest256 := Wire.Fixed 32

structure HsdirIndex where
  fetch : Digest256
  storeFirst : Digest256
  storeSecond : Digest256
deriving DecidableEq

structure Routerstatus where
  identityDigest : Ator.Bytes
  isHsDir : Bool
deriving DecidableEq

structure Node where
  rs : Routerstatus
  supportsV3Hsdir : Bool
  hasPreferredDescriptor : Bool
  hsdirIndex : HsdirIndex
deriving DecidableEq

/-- `fast_mem_is_zero`, of a digest -/
def isZero (digest : Digest256) : Bool := digest.1.all (· = 0)

def nodeHasHsdirIndex (node : Node) : Bool :=
  node.hasPreferredDescriptor && !isZero node.hsdirIndex.fetch
    && !isZero node.hsdirIndex.storeFirst && !isZero node.hsdirIndex.storeSecond

/-- A reasonably live consensus and a fresh nodelist: each entry has a node, which has the entry. -/
structure LiveConsensus where
  routerstatusList : List Routerstatus
  nodeGetMutableById : Routerstatus → Node
  node_rs : ∀ rs ∈ routerstatusList, (nodeGetMutableById rs).rs = rs

/-- The index that the nodes are sorted by. -/
inductive IndexChoice where
  | fetch
  | storeFirst
  | storeSecond
deriving DecidableEq

def indexOf (choice : IndexChoice) (node : Node) : Digest256 :=
  match choice with
  | .fetch => node.hsdirIndex.fetch
  | .storeFirst => node.hsdirIndex.storeFirst
  | .storeSecond => node.hsdirIndex.storeSecond

/-- `compare_node_fetch_hsdir_index` and its siblings -/
def compareNode (choice : IndexChoice) (node1 node2 : Node) : ℤ :=
  torMemcmp (indexOf choice node1).1 (indexOf choice node2).1

/-- `compare_digest_to_fetch_hsdir_index` and its siblings -/
def compareDigestTo (choice : IndexChoice) (key : Digest256) (member : Node) : ℤ :=
  torMemcmp key.1 (indexOf choice member).1

/-- What the choice of directories depends on: `nReplicas` and the spreads are the consensus
parameters. -/
structure HsdirEnv where
  consensus : Option LiveConsensus
  timePeriodLength : UInt64
  nReplicas : ℕ
  spreadFetch : ℕ
  spreadStore : ℕ
  smartlistSort : ∀ choice, ComparisonSort fun a b => decide (compareNode choice a b ≤ 0)

def hsIndexPrefix : Ator.Bytes := "store-at-idx".toList.map fun c => c.toUInt8

def hsBuildHsIndex (sha3 : Ator.Bytes → Digest256) (env : HsdirEnv) (replica : ℕ)
    (blindedPk : Ator.Bytes) (periodNum : UInt64) : Digest256 :=
  sha3 (hsIndexPrefix ++ blindedPk ++ htonll (UInt64.ofNat replica)
    ++ htonll env.timePeriodLength ++ htonll periodNum)

/-- The nodes that go into the ring. -/
def hsdirNodes (c : LiveConsensus) : List Node :=
  (c.routerstatusList.filter fun rs =>
    (c.nodeGetMutableById rs).supportsV3Hsdir && rs.isHsDir
      && nodeHasHsdirIndex (c.nodeGetMutableById rs)).map c.nodeGetMutableById

/-- The next position in a list, around its end. -/
def nextIdx {n : ℕ} (idx : Fin n) : Fin n :=
  if h : idx.1 + 1 = n then ⟨0, idx.pos⟩ else ⟨idx.1 + 1, by omega⟩

/-- How far it is from a position to the start, around the end. -/
def stepsLeft {n : ℕ} (start idx : Fin n) : ℕ :=
  if idx < start then start - idx else n - idx + start

lemma stepsLeft_lt {n : ℕ} {start idx : Fin n} (h : nextIdx idx ≠ start) :
    stepsLeft start (nextIdx idx) < stepsLeft start idx := by
  rw [Ne, Fin.ext_iff] at h
  simp only [stepsLeft, Fin.lt_def]
  unfold nextIdx at h ⊢
  split_ifs at h ⊢ <;> simp only at * <;> omega

/-- The inner loop of `hs_get_responsible_hsdirs`. -/
def selectLoop (sortedNodes : List Node) (nToAdd : ℕ) (start idx : Fin sortedNodes.length)
    (nAdded : ℕ) (responsibleDirs : List Routerstatus) : List Routerstatus :=
  if nAdded < nToAdd then
    let node := sortedNodes[idx]
    let selected : Bool := node.rs ∈ responsibleDirs
    let responsibleDirs := if selected then responsibleDirs else responsibleDirs ++ [node.rs]
    let nAdded := if selected then nAdded else nAdded + 1
    if nextIdx idx = start then responsibleDirs
    else selectLoop sortedNodes nToAdd start (nextIdx idx) nAdded responsibleDirs
  else responsibleDirs
termination_by stepsLeft start idx
decreasing_by exact stepsLeft_lt ‹_›

/-- One replica; `none` is a failed assertion of the search, or a position outside the list. -/
def selectReplica (sha3 : Ator.Bytes → Digest256) (env : HsdirEnv) (choice : IndexChoice)
    (sortedNodes : List Node) (blindedPk : Ator.Bytes) (timePeriodNum : UInt64) (nToAdd : ℕ)
    (responsibleDirs : List Routerstatus) (replica : ℕ) : Option (List Routerstatus) :=
  let hsIndex := hsBuildHsIndex sha3 env replica blindedPk timePeriodNum
  match bsearchIdx (compareDigestTo choice hsIndex) sortedNodes with
  | none => none
  | some (idx, _) =>
    let start := if idx = sortedNodes.length then 0 else idx
    if h : start < sortedNodes.length then
      some (selectLoop sortedNodes nToAdd ⟨start, h⟩ ⟨start, h⟩ 0 responsibleDirs)
    else none

def indexChoice (useSecondHsdirIndex forFetching : Bool) : IndexChoice :=
  if forFetching then .fetch else if useSecondHsdirIndex then .storeSecond else .storeFirst

/-- `n_to_add` -/
def spread (env : HsdirEnv) (forFetching : Bool) : ℕ :=
  if forFetching then env.spreadFetch else env.spreadStore

def hsGetResponsibleHsdirs (sha3 : Ator.Bytes → Digest256) (env : HsdirEnv) (blindedPk : Ator.Bytes)
    (timePeriodNum : UInt64) (useSecondHsdirIndex forFetching : Bool)
    (responsibleDirs : List Routerstatus) : Option (List Routerstatus) :=
  match env.consensus with
  | none => some responsibleDirs
  | some c =>
    if hsdirNodes c = [] then some responsibleDirs
    else
      let choice := indexChoice useSecondHsdirIndex forFetching
      let sortedNodes := (env.smartlistSort choice).sort (hsdirNodes c)
      (List.range' 1 env.nReplicas).foldlM
        (selectReplica sha3 env choice sortedNodes blindedPk timePeriodNum (spread env forFetching))
        responsibleDirs

/-! ## The ring -/

/-- Where a digest is on the ring. -/
def position (digest : Digest256) : List ℕ := digest.1.map UInt8.toNat

lemma position_injective : Function.Injective position := fun _ _ h =>
  Subtype.ext (map_injective_iff.mpr (fun _ _ => UInt8.toNat_inj.mp) h)

lemma torMemcmp_swap : ∀ as bs : Ator.Bytes, torMemcmp bs as = -torMemcmp as bs
  | [], [] => rfl
  | [], _ :: _ => rfl
  | _ :: _, [] => rfl
  | a :: as, b :: bs => by
      rw [torMemcmp, torMemcmp, torMemcmp_swap as bs]
      by_cases hab : a = b
      · rw [if_pos hab, if_pos hab.symm]
      · rw [if_neg hab, if_neg (Ne.symm hab)]
        omega

lemma torMemcmp_lt_iff : ∀ {as bs : Ator.Bytes}, as.length = bs.length →
    (torMemcmp as bs < 0 ↔ as.map UInt8.toNat < bs.map UInt8.toNat)
  | [], [], _ => by simp [torMemcmp]
  | a :: as, b :: bs, h => by
      rw [torMemcmp, map_cons, map_cons, cons_lt_cons_iff]
      by_cases hab : a = b
      · rw [if_pos hab, torMemcmp_lt_iff (Nat.succ.inj h), hab]
        simp
      · have hne : a.toNat ≠ b.toNat := fun heq => hab (UInt8.toNat_inj.mp heq)
        rw [if_neg hab]
        omega

lemma torMemcmp_lt (a b : Digest256) : torMemcmp a.1 b.1 < 0 ↔ position a < position b :=
  torMemcmp_lt_iff (a.2.trans b.2.symm)

lemma torMemcmp_le (a b : Digest256) : torMemcmp a.1 b.1 ≤ 0 ↔ position a ≤ position b := by
  have hlt := torMemcmp_lt b a
  rw [torMemcmp_swap a.1 b.1] at hlt
  rw [← @not_lt _ _ (position b), ← hlt]
  omega

/-! ## One replica -/

section Loop

variable {l : List Node} {start idx : Fin l.length} {nToAdd : ℕ} {choice : IndexChoice}

/-- The nodes from a position around to the start. -/
def walkFrom (l : List Node) (start idx : Fin l.length) : List Node :=
  if idx < start then (l.take start).drop idx else l.drop idx ++ l.take start

lemma walkFrom_eq_cons (start idx : Fin l.length) :
    walkFrom l start idx
      = l[idx] :: if nextIdx idx = start then [] else walkFrom l start (nextIdx idx) := by
  have hidx := idx.2
  simp only [walkFrom, Fin.lt_def, Fin.ext_iff, nextIdx]
  by_cases hlast : idx.1 + 1 = l.length
  · rw [dif_pos hlast, if_neg (by omega), drop_eq_getElem_cons hidx,
      drop_eq_nil_of_le (by omega), cons_append, nil_append]
    by_cases hzero : 0 = start.1
    · rw [if_pos hzero, ← hzero, take_zero]
      rfl
    · rw [if_neg hzero, if_pos (by simp only; omega), drop_zero]
      rfl
  · rw [dif_neg hlast]
    by_cases hlt : idx.1 < start.1
    · rw [if_pos hlt, drop_eq_getElem_cons (by rw [length_take]; omega), getElem_take]
      by_cases hnext : idx.1 + 1 = start.1
      · rw [if_pos hnext, drop_eq_nil_of_le (by rw [length_take]; omega)]
        rfl
      · rw [if_neg hnext, if_pos (by simp only; omega)]
        rfl
    · rw [if_neg hlt, drop_eq_getElem_cons hidx, if_neg (by simp only; omega),
        if_neg (by simp only; omega), cons_append]
      rfl

lemma walkFrom_self (start : Fin l.length) : walkFrom l start start = l.drop start ++ l.take start :=
  if_neg (lt_irrefl start)

lemma pick_turn {a : Routerstatus} {circle dirs : List Routerstatus} {nAdded : ℕ}
    (hlt : nAdded < nToAdd) (ha : a ∉ circle) :
    pick (nToAdd - nAdded) dirs (a :: circle)
      = pick (nToAdd - if decide (a ∈ dirs) then nAdded else nAdded + 1)
          (if decide (a ∈ dirs) then dirs else dirs ++ [a]) circle := by
  by_cases hmem : a ∈ dirs
  · rw [decide_eq_true hmem, if_pos rfl, if_pos rfl, pick_cons_of_mem hmem]
  · rw [decide_eq_false hmem, if_neg Bool.false_ne_true, if_neg Bool.false_ne_true,
      show nToAdd - nAdded = nToAdd - (nAdded + 1) + 1 by omega, pick_cons_of_notMem hmem ha]

/-- **The loop picks the next nodes of the walk.** -/
lemma selectLoop_eq (nAdded : ℕ) (dirs : List Routerstatus)
    (hnodup : ((walkFrom l start idx).map Node.rs).Nodup) :
    selectLoop l nToAdd start idx nAdded dirs
      = pick (nToAdd - nAdded) dirs ((walkFrom l start idx).map Node.rs) := by
  fun_induction selectLoop l nToAdd start idx nAdded dirs with
  | case1 idx nAdded dirs hlt node selected dirs' hstop =>
    rw [walkFrom_eq_cons, if_pos hstop, map_cons, pick_turn hlt (by simp), map_nil, pick_nil]
    rfl
  | case2 idx nAdded dirs hlt node selected dirs' nAdded' hgo ih =>
    rw [walkFrom_eq_cons, if_neg hgo, map_cons, nodup_cons] at hnodup
    rw [ih hnodup.2, walkFrom_eq_cons start idx, if_neg hgo, map_cons, pick_turn hlt hnodup.1]
    rfl
  | case3 idx nAdded dirs hge => rw [Nat.sub_eq_zero_of_le (not_lt.mp hge), pick_zero]

end Loop

/-- The nodes clockwise from a digest. -/
def nodesFrom (choice : IndexChoice) (digest : Digest256) (sortedNodes : List Node) :
    List Routerstatus :=
  (clockwise (fun node => position (indexOf choice node)) (position digest) sortedNodes).map Node.rs

/-- A ring in order whose members are all different. -/
structure IsRing (choice : IndexChoice) (sortedNodes : List Node) : Prop where
  sorted : sortedNodes.Pairwise fun a b =>
    position (indexOf choice a) < position (indexOf choice b)
  nodup : (sortedNodes.map Node.rs).Nodup
  ne_nil : sortedNodes ≠ []

variable {sha3 : Ator.Bytes → Digest256} {env : HsdirEnv} {choice : IndexChoice}
  {sortedNodes : List Node} {blindedPk : Ator.Bytes}
  {timePeriodNum : UInt64} {nToAdd : ℕ}

lemma IsRing.ascending (h : IsRing choice sortedNodes) (key : Digest256) :
    Ascending (compareDigestTo choice key) sortedNodes := by
  refine h.sorted.imp fun {a b} hlt hle => ?_
  rw [compareDigestTo, torMemcmp_le] at hle
  rw [compareDigestTo, torMemcmp_lt]
  exact hle.trans_lt hlt

/-- **One replica picks the next directories clockwise** from its index. -/
lemma selectReplica_eq (h : IsRing choice sortedNodes) (dirs : List Routerstatus) (replica : ℕ) :
    selectReplica sha3 env choice sortedNodes blindedPk timePeriodNum nToAdd dirs replica
      = some (pick nToAdd dirs
          (nodesFrom choice (hsBuildHsIndex sha3 env replica blindedPk timePeriodNum) sortedNodes)) := by
  have hpos : 0 < sortedNodes.length := length_pos_iff.mpr h.ne_nil
  generalize hkey : hsBuildHsIndex sha3 env replica blindedPk timePeriodNum = key
  have hfind : sortedNodes.findIdx (fun node => decide (compareDigestTo choice key node ≤ 0))
      = sortedNodes.findIdx fun node => decide (position key ≤ position (indexOf choice node)) := by
    simp only [compareDigestTo, torMemcmp_le]
  have hwalk : nodesFrom choice key sortedNodes = (sortedNodes.drop (sortedNodes.findIdx fun node =>
            decide (compareDigestTo choice key node ≤ 0))
          ++ sortedNodes.take (sortedNodes.findIdx fun node =>
            decide (compareDigestTo choice key node ≤ 0))).map Node.rs := by
    rw [hfind, nodesFrom, clockwise_eq_drop_append_take (h.sorted.imp le_of_lt)]
  have hle : sortedNodes.findIdx (fun node => decide (compareDigestTo choice key node ≤ 0))
      ≤ sortedNodes.length := findIdx_le_length
  rw [selectReplica]
  simp only [hkey, bsearchIdx_eq (h.ascending key)]
  generalize sortedNodes.findIdx (fun node => decide (compareDigestTo choice key node ≤ 0)) = idx
    at hwalk hle
  -- a search that finds no later node starts at the first
  have hstart : sortedNodes.drop (if idx = sortedNodes.length then 0 else idx)
        ++ sortedNodes.take (if idx = sortedNodes.length then 0 else idx)
      = sortedNodes.drop idx ++ sortedNodes.take idx := by
    split_ifs with hend
    · simp [hend]
    · rfl
  have hlt : (if idx = sortedNodes.length then 0 else idx) < sortedNodes.length := by
    split_ifs <;> omega
  have hperm : (sortedNodes.drop idx ++ sortedNodes.take idx).Perm sortedNodes :=
    perm_append_comm.trans (Perm.of_eq (take_append_drop idx sortedNodes))
  rw [dif_pos hlt, selectLoop_eq, walkFrom_self, hstart, Nat.sub_zero, hwalk]
  rw [walkFrom_self, hstart]
  exact (hperm.map Node.rs).nodup_iff.mpr h.nodup

/-! ## All replicas -/

/-- The nodes in the order of their index. -/
def ring (env : HsdirEnv) (choice : IndexChoice) : List Node :=
  match env.consensus with
  | none => []
  | some c => (env.smartlistSort choice).sort (hsdirNodes c)

/-- No two directories have the same index. -/
def DistinctIndices (env : HsdirEnv) (choice : IndexChoice) : Prop :=
  ((ring env choice).map (indexOf choice)).Nodup

/-- The walks of the replicas, from the index of each. -/
def walks (sha3 : Ator.Bytes → Digest256) (env : HsdirEnv) (choice : IndexChoice)
    (blindedPk : Ator.Bytes) (timePeriodNum : UInt64) : List (List Routerstatus) :=
  (List.range' 1 env.nReplicas).map fun replica =>
    nodesFrom choice (hsBuildHsIndex sha3 env replica blindedPk timePeriodNum) (ring env choice)

variable {c : LiveConsensus}

lemma distinctIndices_iff (h : env.consensus = some c) :
    DistinctIndices env choice ↔ ((hsdirNodes c).map (indexOf choice)).Nodup := by
  rw [DistinctIndices, ring, h]
  exact (((env.smartlistSort choice).perm (hsdirNodes c)).map _).nodup_iff

lemma node_of_mem_hsdirNodes {node : Node} (h : node ∈ hsdirNodes c) :
    c.nodeGetMutableById node.rs = node := by
  obtain ⟨rs, hrs, rfl⟩ := mem_map.mp h
  rw [c.node_rs rs (mem_filter.mp hrs).1]

lemma ring_of_some (h : env.consensus = some c) :
    ring env choice = (env.smartlistSort choice).sort (hsdirNodes c) := by
  rw [ring, h]

lemma ring_of_none (h : env.consensus = none) : ring env choice = [] := by
  rw [ring, h]

lemma ring_eq_nil_iff (h : env.consensus = some c) :
    ring env choice = [] ↔ hsdirNodes c = [] := by
  rw [ring_of_some h, ← length_eq_zero_iff, ((env.smartlistSort choice).perm _).length_eq,
    length_eq_zero_iff]

lemma rs_injOn_ring {a b : Node} (ha : a ∈ ring env choice) (hb : b ∈ ring env choice)
    (h : a.rs = b.rs) : a = b := by
  cases hc : env.consensus with
  | none =>
    rw [ring_of_none hc] at ha
    cases ha
  | some c =>
    rw [ring_of_some hc, ComparisonSort.mem_sort] at ha hb
    rw [← node_of_mem_hsdirNodes ha, h, node_of_mem_hsdirNodes hb]

lemma nodup_rs_ring (h : DistinctIndices env choice) : ((ring env choice).map Node.rs).Nodup :=
  h.of_map.map_on fun _ ha _ hb heq => rs_injOn_ring ha hb heq

lemma sorted_ring (h : DistinctIndices env choice) : (ring env choice).Pairwise fun a b =>
    position (indexOf choice a) < position (indexOf choice b) := by
  have hle : (ring env choice).Pairwise fun a b =>
      position (indexOf choice a) ≤ position (indexOf choice b) := by
    cases hc : env.consensus with
    | none =>
      rw [ring_of_none hc]
      exact List.Pairwise.nil
    | some c =>
      rw [ring_of_some hc]
      refine ((env.smartlistSort choice).pairwise _).imp fun {a b} hab => ?_
      rwa [decide_eq_true_eq, compareNode, torMemcmp_le] at hab
  refine (hle.and (pairwise_map.mp h)).imp fun {a b} hab => ?_
  exact lt_of_le_of_ne hab.1 (position_injective.ne hab.2)

lemma isRing_ring (h : DistinctIndices env choice) (hne : ring env choice ≠ []) :
    IsRing choice (ring env choice) :=
  ⟨sorted_ring h, nodup_rs_ring h, hne⟩

lemma foldlM_selectReplica (h : IsRing choice sortedNodes) (replicas : List ℕ)
    (dirs : List Routerstatus) :
    replicas.foldlM (selectReplica sha3 env choice sortedNodes blindedPk timePeriodNum nToAdd) dirs
      = some (pickAll nToAdd dirs (replicas.map fun replica =>
          nodesFrom choice (hsBuildHsIndex sha3 env replica blindedPk timePeriodNum)
            sortedNodes)) := by
  induction replicas generalizing dirs with
  | nil => rfl
  | cons replica replicas ih =>
    rw [foldlM_cons, selectReplica_eq h, Option.bind_eq_bind, Option.bind_some, ih,
      map_cons, pickAll_cons]

lemma pickAll_of_forall_nil {circles : List (List Routerstatus)} (dirs : List Routerstatus)
    (h : ∀ circle ∈ circles, circle = []) : pickAll nToAdd dirs circles = dirs := by
  induction circles with
  | nil => rfl
  | cons circle circles ih =>
    rw [pickAll_cons, h circle mem_cons_self, pick_nil]
    exact ih fun c hc => h c (mem_cons_of_mem circle hc)

/-- **The directories are those that the walks pick.** -/
lemma hsGetResponsibleHsdirs_eq {useSecond forFetching : Bool} (dirs : List Routerstatus)
    (h : DistinctIndices env (indexChoice useSecond forFetching)) :
    hsGetResponsibleHsdirs sha3 env blindedPk timePeriodNum useSecond forFetching dirs
      = some (pickAll (spread env forFetching) dirs
          (walks sha3 env (indexChoice useSecond forFetching) blindedPk timePeriodNum)) := by
  by_cases hnil : ring env (indexChoice useSecond forFetching) = []
  · have hwalks : ∀ circle ∈ walks sha3 env (indexChoice useSecond forFetching) blindedPk
        timePeriodNum, circle = [] := by
      intro circle hcircle
      obtain ⟨replica, -, rfl⟩ := mem_map.mp hcircle
      rw [hnil]
      rfl
    rw [pickAll_of_forall_nil dirs hwalks, hsGetResponsibleHsdirs]
    split
    · rfl
    · next c hc => rw [if_pos ((ring_eq_nil_iff hc).mp hnil)]
  · rw [hsGetResponsibleHsdirs]
    split
    · next hc => exact absurd (ring_of_none hc) hnil
    · next c hc =>
        have hring := isRing_ring h hnil
        rw [ring_of_some hc] at hring
        rw [if_neg (hnil ∘ (ring_eq_nil_iff hc).mpr)]
        rw [foldlM_selectReplica hring, walks, ring_of_some hc]

lemma walks_perm {circle : List Routerstatus}
    (h : circle ∈ walks sha3 env choice blindedPk timePeriodNum) :
    circle.Perm ((ring env choice).map Node.rs) := by
  obtain ⟨replica, -, rfl⟩ := mem_map.mp h
  exact (clockwise_perm _ _ (ring env choice)).map Node.rs

/-! ## Clients and services -/

/-- The members of the ring with their indices. -/
def members (env : HsdirEnv) (choice : IndexChoice) : List (Routerstatus × Digest256) :=
  (ring env choice).map fun node => (node.rs, indexOf choice node)

/-- A client and a service see the same ring, and look for a descriptor at the same places. -/
structure SameRing (client service : HsdirEnv) (useSecond : Bool) : Prop where
  members_perm : (members client .fetch).Perm (members service (indexChoice useSecond false))
  timePeriodLength_eq : client.timePeriodLength = service.timePeriodLength
  nReplicas_eq : client.nReplicas = service.nReplicas

lemma nodesFrom_eq_members (digest : Digest256) :
    nodesFrom choice digest (ring env choice)
      = (clockwise (fun member => position member.2) (position digest) (members env choice)).map
          Prod.fst := by
  rw [nodesFrom, clockwise, clockwise, members, filter_map, filter_map, ← map_append, map_map]
  rfl

variable {client service : HsdirEnv} {useSecond : Bool}

lemma SameRing.members_eq (h : SameRing client service useSecond)
    (hdistinct : DistinctIndices service (indexChoice useSecond false)) :
    DistinctIndices client .fetch
      ∧ members client .fetch = members service (indexChoice useSecond false) := by
  have hindices : ∀ env choice, (ring env choice).map (indexOf choice)
      = (members env choice).map Prod.snd := by
    intro env choice
    rw [members, map_map]
    rfl
  have hclient : DistinctIndices client .fetch := by
    rw [DistinctIndices, hindices] at hdistinct ⊢
    exact (h.members_perm.map Prod.snd).nodup_iff.mpr hdistinct
  have hsortedClient : (members client .fetch).Pairwise
      fun a b => position a.2 < position b.2 := pairwise_map.mpr (sorted_ring hclient)
  have hsorted : (members service (indexChoice useSecond false)).Pairwise
      fun a b => position a.2 < position b.2 := pairwise_map.mpr (sorted_ring hdistinct)
  refine ⟨hclient, Perm.eq_of_pairwise ?_ hsortedClient hsorted h.members_perm⟩
  intro a b _ _ hab hba
  exact absurd hab hba.asymm

lemma SameRing.walks_eq (h : SameRing client service useSecond)
    (hdistinct : DistinctIndices service (indexChoice useSecond false)) :
    walks sha3 client .fetch blindedPk timePeriodNum
      = walks sha3 service (indexChoice useSecond false) blindedPk timePeriodNum := by
  rw [walks, walks, h.nReplicas_eq]
  refine map_congr_left fun replica _ => ?_
  rw [nodesFrom_eq_members, nodesFrom_eq_members, (h.members_eq hdistinct).2, hsBuildHsIndex,
    hsBuildHsIndex, h.timePeriodLength_eq]

/-- **The responsible directories**: each replica adds the next ones clockwise from its index that
were not selected before, and a client finds all of its own among those of the service. -/
theorem hsGetResponsibleHsdirs_spec (sha3 : Ator.Bytes → Digest256) (env : HsdirEnv)
    (blindedPk : Ator.Bytes) (timePeriodNum : UInt64) :
    (∀ useSecond forFetching, DistinctIndices env (indexChoice useSecond forFetching) →
      ∃ dirs, hsGetResponsibleHsdirs sha3 env blindedPk timePeriodNum useSecond forFetching []
          = some dirs
        ∧ dirs = pickAll (spread env forFetching) []
            (walks sha3 env (indexChoice useSecond forFetching) blindedPk timePeriodNum)
        ∧ dirs.Nodup
        ∧ dirs.length = min (env.nReplicas * spread env forFetching)
            (ring env (indexChoice useSecond forFetching)).length)
    ∧ ∀ client useSecond, DistinctIndices env (indexChoice useSecond false) →
        SameRing client env useSecond → client.spreadFetch ≤ env.spreadStore →
        ∃ fetched uploaded,
          hsGetResponsibleHsdirs sha3 client blindedPk timePeriodNum false true [] = some fetched
          ∧ hsGetResponsibleHsdirs sha3 env blindedPk timePeriodNum useSecond false []
            = some uploaded
          ∧ fetched ⊆ uploaded := by
  constructor
  · intro useSecond forFetching hdistinct
    have hrs := nodup_rs_ring hdistinct
    refine ⟨_, hsGetResponsibleHsdirs_eq [] hdistinct, rfl, ?_, ?_⟩
    · exact nodup_pickAll nodup_nil fun circle hcircle =>
        (walks_perm hcircle).nodup_iff.mpr hrs
    · rw [length_pickAll nodup_nil (nil_subset _) hrs fun circle hcircle =>
        walks_perm hcircle]
      simp [walks]
  · intro client useSecond hdistinct hsame hle
    have hclient := (hsame.members_eq hdistinct).1
    refine ⟨_, _, hsGetResponsibleHsdirs_eq [] hclient, hsGetResponsibleHsdirs_eq [] hdistinct, ?_⟩
    have hwalks := @SameRing.walks_eq sha3 blindedPk timePeriodNum _ _ _ hsame hdistinct
    rw [show indexChoice false true = .fetch from rfl, hwalks]
    exact pickAll_subset (Subset.refl []) hle _

/-- Two directories with the same indices for fetching and for the first upload. -/
def twoDirectories : LiveConsensus where
  routerstatusList := [⟨[1], true⟩, ⟨[2], true⟩]
  nodeGetMutableById rs :=
    let index : Digest256 :=
      ⟨List.replicate 32 (if rs.identityDigest = [1] then 7 else 5), length_replicate⟩
    ⟨rs, true, true, ⟨index, index, index⟩⟩
  node_rs _ _ := rfl

/-- An insertion sort in the place of the sort of the C library. -/
def insertionSortNodes (choice : IndexChoice) :
    ComparisonSort fun a b => decide (compareNode choice a b ≤ 0) :=
  .insertion _
    (fun a b c hab hbc => by
      simp only [decide_eq_true_eq, compareNode, torMemcmp_le] at hab hbc ⊢
      exact hab.trans hbc)
    fun a b => by
      simp only [decide_eq_true_eq, compareNode, torMemcmp_le]
      exact le_total _ _

def twoDirectoriesEnv : HsdirEnv where
  consensus := some twoDirectories
  timePeriodLength := 1440
  nReplicas := 2
  spreadFetch := 3
  spreadStore := 4
  smartlistSort := insertionSortNodes

/-- The sum of the bytes, 32 times. -/
def checksum (bytes : Ator.Bytes) : Digest256 := ⟨List.replicate 32 bytes.sum, length_replicate⟩

theorem hsGetResponsibleHsdirs_twoDirectories :
    hsBuildHsIndex checksum twoDirectoriesEnv 1 [] 19675
        ≠ hsBuildHsIndex checksum twoDirectoriesEnv 2 [] 19675
      ∧ ∃ fetched uploaded,
        hsGetResponsibleHsdirs checksum twoDirectoriesEnv [] 19675 false true [] = some fetched
        ∧ hsGetResponsibleHsdirs checksum twoDirectoriesEnv [] 19675 false false [] = some uploaded
        ∧ fetched ⊆ uploaded := by
  refine ⟨by decide +kernel, (hsGetResponsibleHsdirs_spec _ twoDirectoriesEnv [] 19675).2
    twoDirectoriesEnv false ((distinctIndices_iff rfl).mpr (by decide)) ⟨?_, rfl, rfl⟩ (by decide)⟩
  have hfetch := ((insertionSortNodes .fetch).perm (hsdirNodes twoDirectories)).map
    fun node => (node.rs, indexOf .fetch node)
  have hstore := ((insertionSortNodes .storeFirst).perm (hsdirNodes twoDirectories)).map
    fun node => (node.rs, indexOf .storeFirst node)
  exact hfetch.trans hstore.symm

end Ator.HiddenService

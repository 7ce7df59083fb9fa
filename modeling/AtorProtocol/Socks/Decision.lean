import AtorProtocol.Socks.OneMessage
import Mathlib.Data.Nat.Find

/-!
# Where the data decides about a SOCKS message

A message is cut short up to some point of the data, if not to its end.  The chunk in which it is
parsed may end before that point or after it.

* `resume_of_truncated` — a message that is cut short is parsed again as if for the first time.
* `Stops` — the point where the data decides.
* `Agree`, `Disagree` — the chunk decides as the data up to that point does, or not.
* `agree_or_disagree` — it does exactly if it is clean.
-/

namespace Ator.Socks

open Ator.Parser List

variable {env : SocksEnv} {req : SocksRequest} {data all ys : List UInt8} {d k n : ℕ}

/-! ## Messages that are cut short -/

lemma parseSocks_short (h : data.length < 2) :
    parseSocks env req data = ⟨.truncated, req, [], 0⟩ := by
  rw [parseSocks, if_pos h]

@[simp] lemma parseSocks_nil : parseSocks env req [] = ⟨.truncated, req, [], 0⟩ := rfl

lemma headD_append (h : 2 ≤ data.length) : (data ++ ys).headD 0 = data.headD 0 := by
  cases data with
  | nil => simp at h
  | cons x xs => rfl

lemma two_le_append (h : 2 ≤ data.length) : 2 ≤ (data ++ ys).length := by
  rw [length_append]
  omega

lemma runMessage_truncated {first : UInt8} (m : SimpleMessage env req first)
    (h : (runMessage req m.parser m.failReply m.process data).res = .truncated) :
    m.parser data = .truncated := by
  rw [runMessage] at h
  cases hparse : m.parser data with
  | fail => simp [hparse] at h
  | truncated => rfl
  | done a rest =>
    simp only [hparse] at h
    exact absurd h (m.process_ne a)

lemma handleSocks4_version (h : socks4NetworkLen ≤ data.length) :
    handleSocks4 env { req with socksVersion := 4 } data = handleSocks4 env req data := by
  rw [handleSocks4, handleSocks4, if_neg (Nat.not_lt.mpr h), if_neg (Nat.not_lt.mpr h)]
  rfl

lemma handleSocks4_truncated (h : (handleSocks4 env req data).res = .truncated) :
    data.length < maxSocksMessageLen
      ∧ ((data.length < socks4NetworkLen ∧ handleSocks4 env req data = ⟨.truncated, req, [], 0⟩)
        ∨ (socks4NetworkLen ≤ data.length ∧ socks4ClientRequestParse data = .truncated
          ∧ handleSocks4 env req data = ⟨.truncated, { req with socksVersion := 4 }, [], 0⟩)) := by
  by_cases hlen : data.length < socks4NetworkLen
  · refine ⟨?_, .inl ⟨hlen, ?_⟩⟩
    · rw [socks4NetworkLen] at hlen
      rw [maxSocksMessageLen]
      omega
    · rw [handleSocks4, if_pos hlen]
  · have hle : socks4NetworkLen ≤ data.length := Nat.not_lt.mp hlen
    cases hparse : socks4ClientRequestParse data with
    | fail =>
      rw [handleSocks4_of_fail hle hparse] at h
      cases h
    | truncated =>
      rw [handleSocks4_of_truncated env req hle hparse] at h ⊢
      by_cases hmax : maxSocksMessageLen ≤ data.length
      · simp [hmax] at h
      · exact ⟨Nat.not_le.mp hmax, .inr ⟨hle, rfl, by rw [if_neg hmax]⟩⟩
    | done msg rest =>
      by_cases haccepts : acceptsSocks4 env req msg ∧ hostnameFits msg data.length
      · rw [handleSocks4_of_accepts hparse haccepts.1 haccepts.2] at h
        cases h
      · rw [(handleSocks4_of_not_accepts env req hparse haccepts).1] at h
        cases h

/-- **Parsing goes on.**  A message that is cut short writes no reply, is no longer than the longest
message, and is parsed again as if for the first time. -/
theorem resume_of_truncated (h : (parseSocks env req data).res = .truncated) :
    (parseSocks env req data).reply = [] ∧ data.length ≤ maxSocksMessageLen
      ∧ ∀ ys, parseSocks env (parseSocks env req data).req (data ++ ys)
        = parseSocks env req (data ++ ys) := by
  by_cases hshort : data.length < 2
  · rw [parseSocks_short hshort, maxSocksMessageLen]
    exact ⟨rfl, by omega, fun ys => rfl⟩
  have hlen : 2 ≤ data.length := Nat.not_lt.mp hshort
  by_cases hfirst : data.headD 0 = 4
  · rw [parseSocks_four hlen hfirst] at h ⊢
    obtain ⟨hmax, ⟨-, heq⟩ | ⟨hle, -, heq⟩⟩ := handleSocks4_truncated h
    · rw [heq]
      exact ⟨rfl, Nat.le_of_lt hmax, fun ys => rfl⟩
    · rw [heq]
      refine ⟨rfl, Nat.le_of_lt hmax, fun ys => ?_⟩
      have hhead : (data ++ ys).headD 0 = 4 := by rw [headD_append hlen, hfirst]
      have hle' : socks4NetworkLen ≤ (data ++ ys).length := by
        rw [length_append]
        omega
      rw [parseSocks_four (two_le_append hlen) hhead, parseSocks_four (two_le_append hlen) hhead,
        handleSocks4_version hle']
  · obtain ⟨m⟩ := nonempty_simpleMessage env req hfirst
    rw [m.parse_eq data hlen rfl] at h ⊢
    have htrunc := runMessage_truncated m h
    have heq : runMessage req m.parser m.failReply m.process data = ⟨.truncated, req, [], 0⟩ := by
      rw [runMessage, htrunc]
    rw [heq]
    have hlt := m.bounded.truncated data htrunc
    exact ⟨rfl, by rw [maxSocksMessageLen]; omega, fun ys => rfl⟩

lemma handleSocks4_version_res : (handleSocks4 env { req with socksVersion := 4 } data).res
    = (handleSocks4 env req data).res := by
  by_cases hlen : data.length < socks4NetworkLen
  · rw [handleSocks4, handleSocks4, if_pos hlen, if_pos hlen]
  · rw [handleSocks4_version (Nat.not_lt.mp hlen)]

lemma res_resume (h : (parseSocks env req data).res = .truncated) (k : ℕ) :
    (parseSocks env (parseSocks env req data).req (data.take k)).res
      = (parseSocks env req (data.take k)).res := by
  by_cases hk : (data.take k).length < 2
  · rw [parseSocks_short hk, parseSocks_short hk]
  have hlenk : 2 ≤ (data.take k).length := Nat.not_lt.mp hk
  have hlen : 2 ≤ data.length := Nat.le_trans hlenk (length_take_le' k data)
  have hhead : (data.take k).headD 0 = data.headD 0 := by
    have happend : (data.take k ++ data.drop k).headD 0 = (data.take k).headD 0 :=
      headD_append hlenk
    rwa [take_append_drop, eq_comm] at happend
  by_cases hfirst : data.headD 0 = 4
  · rw [hfirst] at hhead
    rw [parseSocks_four hlen hfirst] at h ⊢
    rw [parseSocks_four hlenk hhead, parseSocks_four hlenk hhead]
    obtain ⟨-, ⟨-, heq⟩ | ⟨-, -, heq⟩⟩ := handleSocks4_truncated h
    · rw [heq]
    · rw [heq]
      exact handleSocks4_version_res
  · obtain ⟨m⟩ := nonempty_simpleMessage env req hfirst
    rw [m.parse_eq data hlen rfl] at h ⊢
    rw [runMessage, runMessage_truncated m h]

/-! ## The point where the data decides -/

/-- The message is cut short before `n`, and not at `n`. -/
structure Stops (env : SocksEnv) (req : SocksRequest) (all : List UInt8) (n : ℕ) : Prop where
  le : n ≤ all.length
  before : ∀ k, k < n → (parseSocks env req (all.take k)).res = .truncated
  here : (parseSocks env req (all.take n)).res ≠ .truncated

lemma truncated_or_stops (env : SocksEnv) (req : SocksRequest) (all : List UInt8) :
    (∀ k, k ≤ all.length → (parseSocks env req (all.take k)).res = .truncated)
      ∨ ∃ n, Stops env req all n := by
  by_cases h : ∃ n, n ≤ all.length ∧ (parseSocks env req (all.take n)).res ≠ .truncated
  · refine .inr ⟨Nat.find h, (Nat.find_spec h).1, fun k hk => ?_, (Nat.find_spec h).2⟩
    have hmin := Nat.find_min h hk
    have hle := (Nat.find_spec h).1
    by_contra hne
    exact hmin ⟨by omega, hne⟩
  · refine .inl fun k hk => ?_
    by_contra hne
    exact h ⟨k, hk, hne⟩

lemma Stops.two_le (h : Stops env req all n) : 2 ≤ n := by
  by_contra hlt
  refine h.here ?_
  rw [parseSocks_short]
  rw [length_take]
  omega

lemma Stops.length_take (h : Stops env req all n) : (all.take n).length = n :=
  length_take_of_le h.le

lemma headD_take (h : 2 ≤ k) : (all.take k).headD 0 = all.headD 0 := by
  obtain ⟨k, rfl⟩ := Nat.exists_eq_add_of_le' h
  cases all with
  | nil => rfl
  | cons x xs => rfl

lemma Stops.le_of_ne (h : Stops env req all n)
    (hk : (parseSocks env req (all.take k)).res ≠ .truncated) : n ≤ k := by
  by_contra hlt
  exact hk (h.before k (Nat.not_le.mp hlt))

lemma Stops.rest_eq_nil {α : Type} {p : Parser UInt8 α} {a : α} {rest : List UInt8}
    (h : Stops env req all n) (hp : Incremental p) (hparse : p (all.take n) = .done a rest)
    (hdecided : ∀ used, p used = .done a [] → used <+: all →
      (parseSocks env req used).res ≠ .truncated) : rest = [] := by
  obtain ⟨used, hsplit, hused⟩ := hp.exact _ a rest hparse
  have hpre : used <+: all := (prefix_append used rest).trans (hsplit ▸ take_prefix n all)
  have hle := h.le_of_ne (k := used.length) (by
    rw [← prefix_iff_eq_take.mp hpre]
    exact hdecided used hused hpre)
  have hlen := congrArg length hsplit
  rw [h.length_take, length_append] at hlen
  exact eq_nil_of_length_eq_zero (by omega)

/-! ## The chunk -/

/-- A chunk decides as the data does. -/
structure Agree (h h' : Handled) (n : ℕ) : Prop where
  res : h.res = h'.res
  reply : h.reply = h'.reply
  req : h'.res ≠ .invalid → h.req = h'.req
  drainOut : h'.res ≠ .invalid → h.drainOut = n ∧ h'.drainOut = n

/-- A chunk asks for more where the data decides, or accepts what the data rejects, or the other way
round. -/
def Disagree (h h' : Handled) : Prop :=
  (h.res = .truncated ∧ (h'.res = .invalid ∨ (h'.res = .moreExpected ∧ h'.reply ≠ [])))
    ∨ (h.res = .invalid ∧ h'.res = .done) ∨ (h.res = .done ∧ h'.res = .invalid)

/-- A chunk of the data. -/
structure IsChunk (all : List UInt8) (d : ℕ) : Prop where
  min_le : min maxSocksMessageLen all.length ≤ d
  le : d ≤ all.length

lemma take_append_drop_take (all : List UInt8) (hle : n ≤ d) :
    all.take n ++ (all.take d).drop n = all.take d := by
  have hsplit := take_append_drop n (all.take d)
  rwa [take_take, Nat.min_eq_left hle] at hsplit

section Simple

variable {first : UInt8} (m : SimpleMessage env req first)

lemma SimpleMessage.decides {a : m.α} {used : List UInt8} (hhead : all.headD 0 = first)
    (hused : m.parser used = .done a []) (hpre : used <+: all) :
    (parseSocks env req used).res ≠ .truncated := by
  have hlen : 2 ≤ used.length := by simpa using m.consumes used a [] hused
  obtain ⟨ys, rfl⟩ := hpre
  rw [headD_append hlen] at hhead
  rw [m.parse_eq used hlen hhead, runMessage, hused]
  exact m.process_ne a

lemma SimpleMessage.parser_of_stops (h : Stops env req all n) (hhead : all.headD 0 = first) :
    m.parser (all.take n) = .fail ∨ ∃ a, m.parser (all.take n) = .done a [] := by
  cases hparse : m.parser (all.take n) with
  | fail => exact .inl rfl
  | truncated =>
    refine absurd ?_ h.here
    rw [m.parse_eq _ (by rw [h.length_take]; exact h.two_le) (by rw [headD_take h.two_le, hhead]),
      runMessage, hparse]
  | done a rest =>
    have hrest := h.rest_eq_nil m.incremental hparse fun used hused hpre =>
      m.decides hhead hused hpre
    rw [hrest]
    exact .inr ⟨a, rfl⟩

include m in
theorem SimpleMessage.agree_or_disagree (h : Stops env req all n) (hchunk : IsChunk all d)
    (hhead : all.headD 0 = first) (hfirst : first ≠ 4) :
    (CleanMessage env req all (all.take d)
        ∧ Agree (parseSocks env req (all.take d)) (parseSocks env req (all.take n)) n)
      ∨ (¬ CleanMessage env req all (all.take d)
        ∧ Disagree (parseSocks env req (all.take d)) (parseSocks env req (all.take n))) := by
  have hn := h.two_le
  have hnall := h.le
  have hd : 2 ≤ d := by
    have hmin := hchunk.min_le
    rw [maxSocksMessageLen] at hmin
    omega
  have hlenn := h.length_take
  have hlend : (all.take d).length = d := length_take_of_le hchunk.le
  have hheadn : (all.take n).headD 0 = first := by rw [headD_take hn, hhead]
  have hheadd : (all.take d).headD 0 = first := by rw [headD_take hd, hhead]
  have hall : all = all.take n ++ all.drop n := (take_append_drop n all).symm
  by_cases hle : n ≤ d
  · left
    have hsplit := take_append_drop_take all hle
    have hlen : ((all.take d).drop n).length = d - n := by rw [length_drop, hlend]
    refine ⟨⟨fun msg rest hparse => ?_, fun hauth msg rest hparse => ?_⟩, ?_⟩
    · exact absurd (hheadd.symm.trans (headD_of_done hparse)) hfirst
    · obtain ⟨a, ha⟩ := m.whole hauth all msg rest hhead hparse
      rcases m.parser_of_stops h hhead with hfail | ⟨b, hdone⟩
      · rw [hall, m.incremental.fail _ _ hfail] at ha
        cases ha
      · rw [hall, m.incremental.done _ _ b [] hdone] at ha
        injection ha with _ hrest
        rw [hlend, ← hrest, nil_append, length_drop]
        omega
    · rw [m.parse_eq _ (by rw [hlend]; exact hd) hheadd,
        m.parse_eq _ (by rw [hlenn]; exact hn) hheadn]
      rcases m.parser_of_stops h hhead with hfail | ⟨a, hdone⟩
      · have hfail' := m.incremental.fail _ ((all.take d).drop n) hfail
        rw [hsplit] at hfail'
        rw [runMessage, runMessage, hfail, hfail']
        exact ⟨rfl, rfl, fun _ => rfl, fun hne => absurd rfl hne⟩
      · have hdone' := m.incremental.done _ ((all.take d).drop n) a [] hdone
        rw [hsplit, nil_append] at hdone'
        rw [runMessage, runMessage, hdone, hdone']
        refine ⟨rfl, rfl, fun _ => rfl, fun _ => ⟨?_, ?_⟩⟩
        · dsimp only
          rw [hlend, hlen]
          omega
        · dsimp only
          rw [hlenn]
          rfl
  · right
    have hdn : d < n := Nat.not_le.mp hle
    have hmax : 512 ≤ d := by
      have hmin := hchunk.min_le
      rw [maxSocksMessageLen] at hmin
      omega
    have htrunc := h.before d hdn
    have htrunc' := htrunc
    rw [m.parse_eq _ (by rw [hlend]; exact hd) hheadd] at htrunc'
    have hparse := runMessage_truncated m htrunc'
    have hsplit := take_append_drop_take all (Nat.le_of_lt hdn)
    obtain ⟨hnofail, hlate⟩ := m.late _ ((all.take n).drop d) (by rw [hlend]; exact hmax) hparse
    rw [hsplit] at hnofail hlate
    rcases m.parser_of_stops h hhead with hfail | ⟨a, hdone⟩
    · exact absurd hfail hnofail
    · obtain ⟨hauth, ⟨msg, hmsg⟩, hprocess⟩ := hlate a hdone
      refine ⟨fun hclean => ?_, .inl ⟨htrunc, ?_⟩⟩
      · have hmsg' := incremental_userpass.done _ (all.drop n) msg [] hmsg
        rw [← hall] at hmsg'
        have hin := hclean.userpass hauth msg _ hmsg'
        rw [hlend, nil_append, length_drop] at hin
        omega
      · rw [m.parse_eq _ (by rw [hlenn]; exact hn) hheadn, runMessage, hdone]
        exact hprocess

end Simple

section Socks4

variable {msg : Socks4ClientRequest} {rest : List UInt8}

lemma hostnameFits_mono (hle : n ≤ d) (h : hostnameFits msg d) : hostnameFits msg n := by
  intro h4a
  have hfits := h h4a
  omega

lemma handleSocks4_ne_truncated (h : socks4ClientRequestParse data = .done msg rest) :
    (handleSocks4 env req data).res ≠ .truncated := by
  intro htrunc
  have hlen := not_lt_of_done h
  obtain ⟨-, ⟨hlt, -⟩ | ⟨-, hparse, -⟩⟩ := handleSocks4_truncated htrunc
  · exact hlen hlt
  · rw [hparse] at h
    cases h

lemma cleanMessage_of_four (hhead : all.headD 0 = 4)
    (h : ∀ msg rest, socks4ClientRequestParse data = .done msg rest → acceptsSocks4 env req msg →
      (hostnameFits msg data.length ↔ hostnameFits msg (data.length - rest.length)
        ∧ data.length - rest.length ≤ maxSocksMessageLen)) : CleanMessage env req all data := by
  refine ⟨h, fun _ msg rest hparse => ?_⟩
  have hone := headD_of_done hparse
  rw [hhead] at hone
  exact absurd hone (by decide)

lemma parseSocks_take_four (hhead : all.headD 0 = 4) (hk : 2 ≤ k) (hle : k ≤ all.length) :
    parseSocks env req (all.take k) = handleSocks4 env req (all.take k) := by
  refine parseSocks_four ?_ ?_
  · rwa [length_take_of_le hle]
  · rw [headD_take hk, hhead]

lemma Stops.of_four (h : Stops env req all n) (hchunk : IsChunk all d) (hhead : all.headD 0 = 4) :
    socks4NetworkLen ≤ n ∧ n ≤ maxSocksMessageLen ∧ n ≤ d := by
  have hnall := h.le
  have hmin := hchunk.min_le
  have hshort : ∀ k, k < n → k < maxSocksMessageLen := fun k hk => by
    by_cases htwo : 2 ≤ k
    · have htrunc := h.before k hk
      rw [parseSocks_take_four hhead htwo (by omega)] at htrunc
      have hlt := (handleSocks4_truncated htrunc).1
      rwa [length_take_of_le (by omega)] at hlt
    · rw [maxSocksMessageLen]
      omega
  refine ⟨?_, ?_, ?_⟩
  · by_contra hlt
    refine h.here ?_
    rw [parseSocks_take_four hhead h.two_le hnall, handleSocks4, if_pos]
    rw [h.length_take]
    exact Nat.not_le.mp hlt
  · by_contra hlt
    exact absurd (hshort maxSocksMessageLen (Nat.not_le.mp hlt)) (Nat.lt_irrefl _)
  · by_contra hlt
    have hmax := hshort d (Nat.not_le.mp hlt)
    omega

lemma socks4_of_truncated (hle : n ≤ d) (hd : d ≤ all.length) (hhead : all.headD 0 = 4)
    (hmax : maxSocksMessageLen ≤ n) (hparse : socks4ClientRequestParse (all.take n) = .truncated) :
    (CleanMessage env req all (all.take d) ∧ (handleSocks4 env req (all.take d)).res = .invalid
        ∧ (handleSocks4 env req (all.take d)).reply = [])
      ∨ (¬ CleanMessage env req all (all.take d)
        ∧ (handleSocks4 env req (all.take d)).res = .done) := by
  have hlend : (all.take d).length = d := length_take_of_le hd
  have hnet : socks4NetworkLen ≤ (all.take d).length := by
    rw [hlend]
    rw [maxSocksMessageLen] at hmax
    rw [socks4NetworkLen]
    omega
  cases hparse' : socks4ClientRequestParse (all.take d) with
  | fail =>
    refine .inl ⟨cleanMessage_of_four hhead fun msg rest hdone => ?_, ?_⟩
    · rw [hparse'] at hdone
      cases hdone
    · rw [handleSocks4_of_fail hnet hparse']
      exact ⟨rfl, rfl⟩
  | truncated =>
    refine .inl ⟨cleanMessage_of_four hhead fun msg rest hdone => ?_, ?_⟩
    · rw [hparse'] at hdone
      cases hdone
    · rw [handleSocks4_of_truncated env req hnet hparse', if_pos (by rw [hlend]; omega)]
      exact ⟨rfl, rfl⟩
  | done msg rest =>
    have hlong : ¬ d - rest.length ≤ maxSocksMessageLen := by
      intro hshort
      obtain ⟨used, hsplit, hused⟩ := incremental_socks4.exact _ msg rest hparse'
      have hlen := congrArg length hsplit
      rw [hlend, length_append] at hlen
      have hpre : used <+: all.take n := by
        refine prefix_of_prefix_length_le ?_ ( take_prefix n all) ?_
        · exact (prefix_append used rest).trans (hsplit ▸ take_prefix d all)
        · rw [length_take_of_le (Nat.le_trans hle hd)]
          omega
      obtain ⟨ys, hys⟩ := hpre
      have hdone := incremental_socks4.done used ys msg [] hused
      rw [hys, hparse] at hdone
      cases hdone
    by_cases haccepts : acceptsSocks4 env req msg ∧ hostnameFits msg (all.take d).length
    · right
      refine ⟨fun hclean => ?_, by rw [handleSocks4_of_accepts hparse' haccepts.1 haccepts.2]⟩
      have hfits := (hclean.socks4 msg rest hparse' haccepts.1).mp haccepts.2
      rw [hlend] at hfits
      exact hlong hfits.2
    · left
      refine ⟨cleanMessage_of_four hhead fun msg' rest' hdone hchecks => ?_,
        handleSocks4_of_not_accepts env req hparse' haccepts⟩
      rw [hparse'] at hdone
      injection hdone with hmsg hrest
      subst hmsg hrest
      refine iff_of_false (fun hfits => haccepts ⟨hchecks, hfits⟩) fun hfits => ?_
      rw [hlend] at hfits
      exact hlong hfits.2

lemma socks4_of_done (hle : n ≤ d) (hd : d ≤ all.length) (hhead : all.headD 0 = 4)
    (hmax : n ≤ maxSocksMessageLen) (hparse : socks4ClientRequestParse (all.take n) = .done msg []) :
    (CleanMessage env req all (all.take d)
        ∧ Agree (handleSocks4 env req (all.take d)) (handleSocks4 env req (all.take n)) n)
      ∨ (¬ CleanMessage env req all (all.take d) ∧ (handleSocks4 env req (all.take d)).res = .invalid
        ∧ (handleSocks4 env req (all.take n)).res = .done) := by
  have hlend : (all.take d).length = d := length_take_of_le hd
  have hlenn : (all.take n).length = n := length_take_of_le (Nat.le_trans hle hd)
  have hparse' := incremental_socks4.done _ ((all.take d).drop n) msg [] hparse
  have hsplit := take_append_drop_take all hle
  rw [hsplit, nil_append] at hparse'
  have hrest : d - ((all.take d).drop n).length = n := by
    rw [length_drop, hlend]
    omega
  have hclean : CleanMessage env req all (all.take d)
      ↔ (acceptsSocks4 env req msg → (hostnameFits msg d ↔ hostnameFits msg n)) := by
    constructor
    · intro hclean hchecks
      have hiff := hclean.socks4 msg _ hparse' hchecks
      rwa [hlend, hrest, and_iff_left hmax] at hiff
    · intro hiff
      refine cleanMessage_of_four hhead fun msg' rest' hdone hchecks => ?_
      rw [hparse'] at hdone
      injection hdone with hmsg hrest'
      subst hmsg hrest'
      rw [hlend, hrest, and_iff_left hmax]
      exact hiff hchecks
  rw [hclean]
  by_cases hchecks : acceptsSocks4 env req msg
  · by_cases hfitsn : hostnameFits msg n
    · have hdone := handleSocks4_of_accepts hparse hchecks (by rwa [hlenn])
      by_cases hfitsd : hostnameFits msg d
      · left
        refine ⟨fun _ => iff_of_true hfitsd hfitsn, ?_⟩
        rw [hdone, handleSocks4_of_accepts hparse' hchecks (by rwa [hlend]), hlend, hlenn, hrest]
        exact ⟨rfl, rfl, fun _ => rfl, fun _ => ⟨rfl, rfl⟩⟩
      · right
        refine ⟨fun hiff => hfitsd ((hiff hchecks).mpr hfitsn), ?_, by rw [hdone]⟩
        exact (handleSocks4_of_not_accepts env req hparse' fun h => hfitsd (by rw [← hlend]; exact h.2)).1
    · left
      have hfitsd : ¬ hostnameFits msg d := fun hfits => hfitsn (hostnameFits_mono hle hfits)
      obtain ⟨hres, hreply⟩ := handleSocks4_of_not_accepts env req hparse
        fun h => hfitsn (by rw [← hlenn]; exact h.2)
      obtain ⟨hres', hreply'⟩ := handleSocks4_of_not_accepts env req hparse'
        fun h => hfitsd (by rw [← hlend]; exact h.2)
      refine ⟨fun _ => iff_of_false hfitsd hfitsn, ?_, ?_, ?_, ?_⟩
      · rw [hres, hres']
      · rw [hreply, hreply']
      · exact fun hne => absurd hres hne
      · exact fun hne => absurd hres hne
  · left
    obtain ⟨hres, hreply⟩ := handleSocks4_of_not_accepts env req hparse fun h => hchecks h.1
    obtain ⟨hres', hreply'⟩ := handleSocks4_of_not_accepts env req hparse' fun h => hchecks h.1
    refine ⟨fun h => absurd h hchecks, ?_, ?_, ?_, ?_⟩
    · rw [hres, hres']
    · rw [hreply, hreply']
    · exact fun hne => absurd hres hne
    · exact fun hne => absurd hres hne

theorem socks4_agree_or_disagree (h : Stops env req all n) (hchunk : IsChunk all d)
    (hhead : all.headD 0 = 4) :
    (CleanMessage env req all (all.take d)
        ∧ Agree (parseSocks env req (all.take d)) (parseSocks env req (all.take n)) n)
      ∨ (¬ CleanMessage env req all (all.take d)
        ∧ Disagree (parseSocks env req (all.take d)) (parseSocks env req (all.take n))) := by
  obtain ⟨hnet, hmax, hle⟩ := h.of_four hchunk hhead
  have hn := h.two_le
  have hnet' : socks4NetworkLen ≤ (all.take n).length := by rwa [h.length_take]
  have hhere := h.here
  rw [parseSocks_take_four hhead hn h.le] at hhere ⊢
  rw [parseSocks_take_four hhead (by omega) hchunk.le]
  cases hparse : socks4ClientRequestParse (all.take n) with
  | fail =>
    left
    have hparse' := incremental_socks4.fail _ ((all.take d).drop n) hparse
    rw [take_append_drop_take all hle] at hparse'
    have hnet'' : socks4NetworkLen ≤ (all.take d).length := by
      rw [length_take_of_le hchunk.le]
      omega
    refine ⟨cleanMessage_of_four hhead fun msg rest hdone => ?_, ?_⟩
    · rw [hparse'] at hdone
      cases hdone
    · rw [handleSocks4_of_fail hnet' hparse, handleSocks4_of_fail hnet'' hparse']
      exact ⟨rfl, rfl, fun _ => rfl, fun hne => absurd rfl hne⟩
  | truncated =>
    have hfull : maxSocksMessageLen ≤ n := by
      rw [handleSocks4_of_truncated env req hnet' hparse, h.length_take] at hhere
      by_contra hlt
      rw [if_neg hlt] at hhere
      exact hhere rfl
    have hres := handleSocks4_of_truncated env req hnet' hparse
    rw [h.length_take, if_pos hfull] at hres
    rw [hres]
    rcases socks4_of_truncated hle hchunk.le hhead hfull hparse with
      ⟨hclean, hinvalid, hreply⟩ | ⟨hclean, hdone⟩
    · exact .inl ⟨hclean, hinvalid, hreply, fun hne => absurd rfl hne, fun hne => absurd rfl hne⟩
    · exact .inr ⟨hclean, .inr (.inr ⟨hdone, rfl⟩)⟩
  | done msg rest =>
    have hrest := h.rest_eq_nil incremental_socks4 hparse fun used hused hpre => by
      have hlen := reads_socks4 used msg [] hused
      have htwo : 2 ≤ used.length := by omega
      obtain ⟨ys, rfl⟩ := hpre
      rw [headD_append htwo] at hhead
      rw [parseSocks_four htwo hhead]
      exact handleSocks4_ne_truncated hused
    rw [hrest] at hparse
    rcases socks4_of_done hle hchunk.le hhead hmax hparse with ⟨hclean, hagree⟩ | ⟨hclean, hne⟩
    · exact .inl ⟨hclean, hagree⟩
    · exact .inr ⟨hclean, .inr (.inl hne)⟩

end Socks4

/-- **What a chunk decides.**  It decides as the data up to the point of decision does exactly if it is
clean. -/
theorem agree_or_disagree (h : Stops env req all n) (hchunk : IsChunk all d) :
    (CleanMessage env req all (all.take d)
        ∧ Agree (parseSocks env req (all.take d)) (parseSocks env req (all.take n)) n)
      ∨ (¬ CleanMessage env req all (all.take d)
        ∧ Disagree (parseSocks env req (all.take d)) (parseSocks env req (all.take n))) := by
  by_cases hfirst : all.headD 0 = 4
  · exact socks4_agree_or_disagree h hchunk hfirst
  · obtain ⟨m⟩ := nonempty_simpleMessage env req hfirst
    exact m.agree_or_disagree h hchunk rfl hfirst

lemma clean_of_truncated (h : (parseSocks env req all).res = .truncated) (hchunk : IsChunk all d) :
    all.take d = all ∧ CleanMessage env req all all := by
  have hmax := (resume_of_truncated h).2.1
  have hmin := hchunk.min_le
  refine ⟨take_of_length_le (by omega), fun msg rest hparse => ?_, fun _ msg rest _ => ?_⟩
  · have hlen := reads_socks4 all msg rest hparse
    rw [parseSocks_four (by omega) (headD_of_done hparse)] at h
    exact absurd h (handleSocks4_ne_truncated hparse)
  · omega

end Ator.Socks

import AtorProtocol.Socks.Decision

/-!
# The handshake does not depend on how the bytes arrive, while each call is clean

* `ByteState.feed` — the handshake as a machine that reads one byte at a time.
* `exists_fetchLoop` — a call returns, and does as this machine does exactly if it is clean.
* `SocksConn.Like` — a connection and the machine after the same bytes.
* `independent_iff_clean` — a run is where the bytes one by one would lead exactly if all that arrives
  is clean.
-/

namespace Ator.Socks

open List

variable {env : SocksEnv} {req : SocksRequest} {all : List UInt8} {d n : ℕ}

/-! ## One byte at a time -/

/-- A handshake, the bytes of the message that is cut short, and all replies. -/
structure ByteState where
  status : Status
  req : SocksRequest
  pending : List UInt8
  sent : List UInt8

namespace ByteState

/-- What a message comes to. -/
def settle (s : ByteState) (pending : List UInt8) (handled : Handled) : ByteState :=
  match handled.res with
  | .truncated => ⟨.waiting, handled.req, pending, s.sent⟩
  | .moreExpected =>
    ⟨.waiting, handled.req, pending.drop handled.drainOut, s.sent ++ handled.reply⟩
  | .done => ⟨.accepted, handled.req, pending.drop handled.drainOut, s.sent ++ handled.reply⟩
  | .invalid => ⟨.rejected, handled.req, [], s.sent ++ handled.reply⟩

/-- One more byte. -/
def feed (env : SocksEnv) (s : ByteState) (byte : UInt8) : ByteState :=
  match s.status with
  | .waiting =>
    let pending := s.pending ++ [byte]
    s.settle pending (parseSocks env s.req pending)
  | .accepted => { s with pending := s.pending ++ [byte] }
  | .rejected => s

/-- Many bytes. -/
def feedAll (env : SocksEnv) (s : ByteState) (bytes : List UInt8) : ByteState :=
  bytes.foldl (feed env) s

variable {s : ByteState} {xs ys sent : List UInt8}

lemma feedAll_append : feedAll env s (xs ++ ys) = feedAll env (feedAll env s xs) ys := foldl_append

lemma feedAll_accepted (h : s.status = .accepted) :
    feedAll env s xs = { s with pending := s.pending ++ xs } := by
  induction xs generalizing s with
  | nil => simp [feedAll]
  | cons x xs ih =>
    rw [feedAll, foldl_cons, ← feedAll]
    have hfeed : feed env s x = { s with pending := s.pending ++ [x] } := by rw [feed, h]
    have hih := ih (s := { s with pending := s.pending ++ [x] }) h
    rw [hfeed, hih]
    simp

lemma feedAll_rejected (h : s.status = .rejected) : feedAll env s xs = s := by
  induction xs generalizing s with
  | nil => rfl
  | cons x xs ih =>
    rw [feedAll, foldl_cons, ← feedAll]
    have hfeed : feed env s x = s := by rw [feed, h]
    rw [hfeed, ih h]

lemma length_sent_le_feed (byte : UInt8) : s.sent.length ≤ (feed env s byte).sent.length := by
  rw [feed]
  split
  · rw [settle]
    split
    · exact Nat.le_refl _
    · simp
    · simp
    · simp
  · exact Nat.le_refl _
  · exact Nat.le_refl _

lemma length_sent_le_feedAll (env : SocksEnv) (s : ByteState) (xs : List UInt8) :
    s.sent.length ≤ (feedAll env s xs).sent.length := by
  induction xs generalizing s with
  | nil => exact Nat.le_refl _
  | cons x xs ih =>
    exact Nat.le_trans (length_sent_le_feed x) (ih _)

lemma feedAll_of_truncated
    (h : ∀ k, k ≤ all.length → (parseSocks env req (all.take k)).res = .truncated) :
    feedAll env ⟨.waiting, req, [], sent⟩ all
      = ⟨.waiting, (parseSocks env req all).req, all, sent⟩ := by
  induction all using reverseRecOn with
  | nil => simp [feedAll, parseSocks]
  | append_singleton init x ih =>
    have hinit : ∀ k, k ≤ init.length → (parseSocks env req (init.take k)).res = .truncated :=
      fun k hk => by
        have htrunc := h k (by rw [length_append]; omega)
        rwa [take_append_of_le_length hk] at htrunc
    have htrunc := hinit init.length (Nat.le_refl _)
    rw [take_length] at htrunc
    have hlast := h (init ++ [x]).length (Nat.le_refl _)
    rw [take_length] at hlast
    rw [feedAll_append, ih hinit, feedAll, foldl_cons, foldl_nil, feed]
    dsimp only
    rw [(resume_of_truncated htrunc).2.2, settle, hlast]

lemma feedAll_of_stops (h : Stops env req all n) : feedAll env ⟨.waiting, req, [], sent⟩ all
    = feedAll env (settle ⟨.waiting, req, [], sent⟩ (all.take n) (parseSocks env req (all.take n)))
      (all.drop n) := by
  obtain ⟨m, rfl⟩ := Nat.exists_eq_add_of_le' (Nat.le_of_succ_le h.two_le)
  have hlt : m < all.length := h.le
  have hsplit : all.take (m + 1) = all.take m ++ [all[m]] := take_succ_eq_append_getElem hlt
  have hbefore : ∀ k, k ≤ (all.take m).length →
      (parseSocks env req ((all.take m).take k)).res = .truncated := fun k hk => by
    rw [length_take] at hk
    rw [take_take, Nat.min_eq_left (by omega)]
    exact h.before k (by omega)
  have htrunc := h.before m (Nat.lt_succ_self m)
  conv_lhs => rw [← take_append_drop (m + 1) all, feedAll_append]
  congr 1
  rw [hsplit, feedAll_append, feedAll_of_truncated hbefore, feedAll, foldl_cons, foldl_nil, feed]
  dsimp only
  rw [(resume_of_truncated htrunc).2.2]
  rfl

/-- The machine waits within a message whose data so far is cut short, and was parsed last. -/
def Waits (env : SocksEnv) (s : ByteState) : Prop :=
  s.status = .waiting → ∃ req₀,
    (∀ k, k ≤ s.pending.length → (parseSocks env req₀ (s.pending.take k)).res = .truncated)
      ∧ s.req = (parseSocks env req₀ s.pending).req

lemma clean_of_stops (h : Stops env req all all.length) : CleanMessage env req all all
    ∧ ((parseSocks env req all).res ≠ .invalid →
      (parseSocks env req all).drainOut = all.length) := by
  have hchunk : IsChunk all all.length := ⟨Nat.min_le_right _ _, Nat.le_refl _⟩
  have hhere := h.here
  have hcases := agree_or_disagree h hchunk
  rw [take_length] at hcases hhere
  rcases hcases with ⟨hclean, hagree⟩ | ⟨-, hdisagree⟩
  · exact ⟨hclean, fun hne => (hagree.drainOut hne).2⟩
  · rcases hdisagree with ⟨htrunc, -⟩ | ⟨hinvalid, hdone⟩ | ⟨hdone, hinvalid⟩
    · exact absurd htrunc hhere
    · rw [hinvalid] at hdone
      cases hdone
    · rw [hinvalid] at hdone
      cases hdone

lemma Waits.feed (h : Waits env s) (byte : UInt8) : Waits env (feed env s byte) := by
  rw [ByteState.feed]
  split
  next hstatus =>
    obtain ⟨req₀, htrunc, hreq⟩ := h hstatus
    have hlast := htrunc s.pending.length (Nat.le_refl _)
    rw [take_length] at hlast
    dsimp only
    rw [hreq, (resume_of_truncated hlast).2.2, settle]
    have hbefore : ∀ k, k < (s.pending ++ [byte]).length →
        (parseSocks env req₀ ((s.pending ++ [byte]).take k)).res = .truncated := fun k hk => by
      have hle : k ≤ s.pending.length := by
        rw [length_append, length_singleton] at hk
        omega
      rw [take_append_of_le_length hle]
      exact htrunc k hle
    split
    · next hres =>
      refine fun _ => ⟨req₀, fun k hk => ?_, rfl⟩
      rcases Nat.lt_or_eq_of_le hk with hlt | rfl
      · exact hbefore k hlt
      · rwa [take_length]
    · next hres =>
      have hstops : Stops env req₀ (s.pending ++ [byte]) (s.pending ++ [byte]).length := by
        refine ⟨Nat.le_refl _, hbefore, ?_⟩
        rw [take_length, hres]
        simp
      have hdrain := (clean_of_stops hstops).2 (by rw [hres]; simp)
      intro _
      refine ⟨(parseSocks env req₀ (s.pending ++ [byte])).req, fun k _ => ?_, ?_⟩
      · dsimp only
        rw [hdrain, drop_length, take_nil, parseSocks_nil]
      · dsimp only
        rw [hdrain, drop_length, parseSocks_nil]
    · exact fun h => by cases h
    · exact fun h => by cases h
  next hstatus => exact fun h => by rw [hstatus] at h; cases h
  next hstatus => exact fun h => by rw [hstatus] at h; cases h

lemma Waits.feedAll (h : Waits env s) : Waits env (feedAll env s xs) := by
  induction xs generalizing s with
  | nil => exact h
  | cons x xs ih =>
    exact ih (h.feed x)

lemma Waits.restart (h : Waits env s) (hstatus : s.status = .waiting) :
    (∀ k, k ≤ s.pending.length → (parseSocks env s.req (s.pending.take k)).res = .truncated)
      ∧ ByteState.feedAll env ⟨.waiting, s.req, [], s.sent⟩ s.pending = s := by
  obtain ⟨req₀, htrunc, hreq⟩ := h hstatus
  have hlast := htrunc s.pending.length (Nat.le_refl _)
  rw [take_length] at hlast
  have hagain : ∀ k, k ≤ s.pending.length →
      (parseSocks env s.req (s.pending.take k)).res = .truncated := fun k hk => by
    rw [hreq, res_resume hlast]
    exact htrunc k hk
  have hparse : parseSocks env s.req s.pending = parseSocks env req₀ s.pending := by
    have hresume := (resume_of_truncated hlast).2.2 []
    rwa [append_nil, ← hreq] at hresume
  refine ⟨hagain, ?_⟩
  rw [feedAll_of_truncated hagain, hparse, ← hreq, ← hstatus]

lemma feedAll_invalid (h : Stops env req all n)
    (hres : (parseSocks env req (all.take n)).res = .invalid) :
    feedAll env ⟨.waiting, req, [], sent⟩ all = ⟨.rejected, (parseSocks env req (all.take n)).req, [],
      sent ++ (parseSocks env req (all.take n)).reply⟩ := by
  rw [feedAll_of_stops h, settle, hres]
  exact feedAll_rejected rfl

lemma feedAll_done (h : Stops env req all n)
    (hres : (parseSocks env req (all.take n)).res = .done)
    (hdrain : (parseSocks env req (all.take n)).drainOut = n) :
    feedAll env ⟨.waiting, req, [], sent⟩ all = ⟨.accepted, (parseSocks env req (all.take n)).req,
      all.drop n, sent ++ (parseSocks env req (all.take n)).reply⟩ := by
  rw [feedAll_of_stops h, settle, hres, feedAll_accepted rfl, hdrain, drop_take_self, nil_append]

lemma feedAll_moreExpected (h : Stops env req all n)
    (hres : (parseSocks env req (all.take n)).res = .moreExpected)
    (hdrain : (parseSocks env req (all.take n)).drainOut = n) :
    feedAll env ⟨.waiting, req, [], sent⟩ all
      = feedAll env ⟨.waiting, (parseSocks env req (all.take n)).req, [],
        sent ++ (parseSocks env req (all.take n)).reply⟩ (all.drop n) := by
  rw [feedAll_of_stops h, settle, hres, hdrain, drop_take_self]

end ByteState

/-! ## One call -/

open ByteState

/-- What a call leaves is what the machine comes to, which sends the same replies after those given. -/
structure Matches (f : Fetched) (t : ByteState) (reply sent : List UInt8) : Prop where
  status : f.status = t.status
  req : t.status ≠ .rejected → f.req = t.req
  buf : f.buf.flatten = t.pending
  replies : ∃ added, f.reply = reply ++ added ∧ t.sent = sent ++ added

/-- A call has lost replies, or has come to something else. -/
def FallsShort (f : Fetched) (t : ByteState) (reply sent : List UInt8) : Prop :=
  f.status = t.status → f.reply.length + sent.length < t.sent.length + reply.length

section Call

variable {buf : Buf} {reply sent : List UInt8} {fuel : ℕ} {f : Fetched} {t : ByteState} {h : Handled}

lemma matches_of_replyAfter {C : Prop}
    (hrest : (C ∧ Matches f t (replyAfter reply h) (sent ++ h.reply))
      ∨ (¬ C ∧ FallsShort f t (replyAfter reply h) (sent ++ h.reply))) :
    (((reply = [] ∨ h.reply = []) ∧ C) ∧ Matches f t reply sent)
      ∨ (¬ ((reply = [] ∨ h.reply = []) ∧ C) ∧ FallsShort f t reply sent) := by
  by_cases hreply : reply = [] ∨ h.reply = []
  · have heq : replyAfter reply h = reply ++ h.reply := by
      rw [replyAfter]
      rcases hreply with hnil | hnil
      · split
        · next hnil' => rw [hnil', append_nil]
        · rw [hnil, nil_append]
      · rw [if_pos hnil, hnil, append_nil]
    rw [heq] at hrest
    rcases hrest with ⟨hC, hmatch⟩ | ⟨hC, hfalls⟩
    · left
      obtain ⟨added, hf, ht⟩ := hmatch.replies
      refine ⟨⟨hreply, hC⟩, hmatch.status, hmatch.req, hmatch.buf, h.reply ++ added, ?_, ?_⟩
      · rw [hf, append_assoc]
      · rw [ht, append_assoc]
    · right
      refine ⟨fun hall => hC hall.2, fun hstatus => ?_⟩
      have hlt := hfalls hstatus
      rw [length_append, length_append] at hlt
      omega
  · right
    refine ⟨fun hall => hreply hall.1, fun hstatus => ?_⟩
    rw [not_or] at hreply
    have hpos := length_pos_iff.mpr hreply.1
    rw [replyAfter, if_neg hreply.2] at hrest
    rcases hrest with ⟨-, hmatch⟩ | ⟨-, hfalls⟩
    · obtain ⟨added, hf, ht⟩ := hmatch.replies
      rw [hf, ht]
      simp only [length_append]
      omega
    · have hlt := hfalls hstatus
      rw [length_append] at hlt
      omega

lemma matches_of_last (hlast : Matches f t (replyAfter reply h) (sent ++ h.reply)) :
    ((reply = [] ∨ h.reply = []) ∧ Matches f t reply sent)
      ∨ (¬ (reply = [] ∨ h.reply = []) ∧ FallsShort f t reply sent) := by
  have hrest := matches_of_replyAfter (C := True) (.inl ⟨trivial, hlast⟩)
  simpa only [and_true] using hrest

lemma cleanLoop_succ : CleanLoop env (fuel + 1) buf req reply
    ↔ CleanMessage env req buf.flatten ((pulled buf).headD [])
      ∧ (reply = [] ∨ (parseSocks env req ((pulled buf).headD [])).reply = [])
      ∧ ((parseSocks env req ((pulled buf).headD [])).res = .moreExpected →
        2 ≤ (buf.flatten.drop (parseSocks env req ((pulled buf).headD [])).drainOut).length →
        CleanLoop env fuel (bufDrain (pulled buf) (parseSocks env req ((pulled buf).headD [])).drainOut)
          (parseSocks env req ((pulled buf).headD [])).req
          (replyAfter reply (parseSocks env req ((pulled buf).headD [])))) := by
  rw [CleanLoop]
  simp only [flatten_pulled, flatten_bufDrain]

/-- **A call is right exactly if it is clean.**  It returns, and where each message is clean and no
reply is lost it leaves what the machine comes to; else it leaves something else. -/
theorem exists_fetchLoop (env : SocksEnv) (fuel : ℕ) (buf : Buf) (req : SocksRequest)
    (reply : List UInt8) (hlen : 2 ≤ buf.flatten.length) (hfuel : buf.flatten.length < fuel) :
    ∃ f, fetchLoop env fuel buf req reply = some f ∧ ∀ sent, (CleanLoop env fuel buf req reply
          ∧ Matches f (feedAll env ⟨.waiting, req, [], sent⟩ buf.flatten) reply sent)
        ∨ (¬ CleanLoop env fuel buf req reply
          ∧ FallsShort f (feedAll env ⟨.waiting, req, [], sent⟩ buf.flatten) reply sent) := by
  induction fuel generalizing buf req reply with
  | zero => exact absurd hfuel (Nat.not_lt_zero _)
  | succ fuel ih =>
    obtain ⟨d, hhead, hmin, hle⟩ := exists_head_pulled buf
    have hchunk : IsChunk buf.flatten d := ⟨hmin, hle⟩
    rw [fetchLoop]
    simp only [cleanLoop_succ, flatten_pulled, flatten_bufDrain, hhead]
    have hlend : (buf.flatten.take d).length = d := length_take_of_le hle
    rcases truncated_or_stops env req buf.flatten with hall | ⟨n, hstops⟩
    · have htrunc := hall buf.flatten.length (Nat.le_refl _)
      rw [take_length] at htrunc
      obtain ⟨htake, hclean⟩ := clean_of_truncated htrunc hchunk
      obtain ⟨hreply, hmax, -⟩ := resume_of_truncated htrunc
      have hmin : buf.flatten.length = min maxSocksMessageLen buf.flatten.length := by omega
      rw [htake, htrunc]
      simp only [if_pos hmin]
      refine ⟨_, rfl, fun sent => .inl ⟨⟨hclean, .inr hreply, fun h => by cases h⟩, ?_⟩⟩
      rw [feedAll_of_truncated hall, replyAfter, if_pos hreply]
      exact ⟨rfl, fun _ => rfl, flatten_pulled buf, [], by simp, by simp⟩
    rcases agree_or_disagree hstops hchunk with ⟨hclean, hagree⟩ | ⟨hclean, hdisagree⟩
    · simp only [hclean, true_and]
      cases hres : (parseSocks env req (buf.flatten.take n)).res with
      | truncated => exact absurd hres hstops.here
      | invalid =>
        have hres' := hagree.res.trans hres
        simp only [hres', reduceCtorEq, false_implies, and_true]
        refine ⟨_, rfl, fun sent => matches_of_last ?_⟩
        rw [feedAll_invalid hstops hres]
        refine ⟨rfl, fun hne => absurd rfl hne, rfl, [], by simp, ?_⟩
        rw [append_nil, hagree.reply]
      | done =>
        have hres' := hagree.res.trans hres
        have hne : (parseSocks env req (buf.flatten.take n)).res ≠ .invalid := by simp [hres]
        obtain ⟨hdrain, hdrain'⟩ := hagree.drainOut hne
        simp only [hres', reduceCtorEq, false_implies, and_true]
        refine ⟨_, rfl, fun sent => matches_of_last ?_⟩
        rw [feedAll_done hstops hres hdrain']
        refine ⟨rfl, fun _ => hagree.req hne, ?_, [], by simp, ?_⟩
        · rw [flatten_bufDrain, flatten_pulled, hdrain]
        · rw [append_nil, hagree.reply]
      | moreExpected =>
        have hres' := hagree.res.trans hres
        have hne : (parseSocks env req (buf.flatten.take n)).res ≠ .invalid := by simp [hres]
        obtain ⟨hdrain, hdrain'⟩ := hagree.drainOut hne
        simp only [hres', true_implies, hdrain]
        have hflat : (bufDrain (pulled buf) n).flatten = buf.flatten.drop n := by
          rw [flatten_bufDrain, flatten_pulled]
        have hreq := hagree.req hne
        have hreply := hagree.reply
        have htwo := hstops.two_le
        by_cases hrest : 2 ≤ (buf.flatten.drop n).length
        · simp only [true_implies, hrest, if_true]
          obtain ⟨f, hf, hspec⟩ := ih (bufDrain (pulled buf) n)
            (parseSocks env req (buf.flatten.take d)).req
            (replyAfter reply (parseSocks env req (buf.flatten.take d)))
            (by rwa [hflat]) (by rw [hflat, length_drop]; omega)
          refine ⟨f, hf, fun sent => matches_of_replyAfter ?_⟩
          rw [feedAll_moreExpected hstops hres hdrain', ← hreq, ← hreply, ← hflat]
          exact hspec _
        · simp only [hrest, if_false, false_implies, and_true]
          refine ⟨_, rfl, fun sent => matches_of_last ?_⟩
          have hshort : ∀ k, k ≤ (buf.flatten.drop n).length → (parseSocks env
              (parseSocks env req (buf.flatten.take n)).req ((buf.flatten.drop n).take k)).res
                = .truncated := fun k _ => by
            rw [parseSocks_short]
            rw [length_take]
            omega
          rw [feedAll_moreExpected hstops hres hdrain', feedAll_of_truncated hshort,
            parseSocks_short (Nat.not_le.mp hrest), ← hreply, hreq]
          exact ⟨rfl, fun _ => rfl, hflat, [], by simp, by simp⟩
    · simp only [hclean, false_and, not_false_eq_true, true_and, false_or]
      rcases hdisagree with ⟨htrunc, hdecided⟩ | ⟨hinvalid, hdone⟩ | ⟨hdone, hinvalid⟩
      · obtain ⟨hreply, hmax, -⟩ := resume_of_truncated htrunc
        have hmin : (buf.flatten.take d).length = min maxSocksMessageLen buf.flatten.length := by
          omega
        simp only [htrunc, if_pos hmin]
        refine ⟨_, rfl, fun sent hstatus => ?_⟩
        rcases hdecided with hinvalid | ⟨hmore, hne⟩
        · rw [feedAll_invalid hstops hinvalid] at hstatus
          cases hstatus
        · rw [replyAfter, if_pos hreply, feedAll_of_stops hstops, settle, hmore]
          have hpos := length_pos_iff.mpr hne
          have hsent := length_sent_le_feedAll env
            ⟨.waiting, (parseSocks env req (buf.flatten.take n)).req,
              (buf.flatten.take n).drop (parseSocks env req (buf.flatten.take n)).drainOut,
              sent ++ (parseSocks env req (buf.flatten.take n)).reply⟩ (buf.flatten.drop n)
          rw [length_append] at hsent
          dsimp only at hsent ⊢
          omega
      · simp only [hinvalid]
        refine ⟨_, rfl, fun sent hstatus => ?_⟩
        rw [feedAll_of_stops hstops, settle, hdone, feedAll_accepted rfl] at hstatus
        cases hstatus
      · simp only [hdone]
        refine ⟨_, rfl, fun sent hstatus => ?_⟩
        rw [feedAll_invalid hstops hinvalid] at hstatus
        cases hstatus

end Call

/-! ## Runs -/

namespace SocksConn

variable {conn next : SocksConn} {arrival : Arrival} {preferNoAuth : Bool}

/-- The machine after the bytes that have arrived. -/
def machine (env : SocksEnv) (preferNoAuth : Bool) (arrived : List UInt8) : ByteState :=
  feedAll env ⟨.waiting, .new preferNoAuth, [], []⟩ arrived

/-- A connection is where the machine is, which has read the same bytes. -/
structure Like (env : SocksEnv) (preferNoAuth : Bool) (conn : SocksConn) : Prop where
  status : conn.status = (machine env preferNoAuth conn.arrived).status
  req : conn.status ≠ .rejected → conn.req = (machine env preferNoAuth conn.arrived).req
  inbuf : conn.inbuf.flatten = (machine env preferNoAuth conn.arrived).pending
  sent : conn.sent = (machine env preferNoAuth conn.arrived).sent

lemma waits_machine (arrived : List UInt8) : Waits env (machine env preferNoAuth arrived) := by
  refine Waits.feedAll fun _ => ⟨.new preferNoAuth, fun k _ => ?_, rfl⟩
  rw [take_nil, parseSocks_nil]

lemma Like.machine_append (h : Like env preferNoAuth conn) (hstatus : conn.status = .waiting)
    (bytes : List UInt8) : machine env preferNoAuth (conn.arrived ++ bytes)
      = feedAll env ⟨.waiting, conn.req, [], conn.sent⟩ (conn.inbuf.flatten ++ bytes) := by
  have hwaiting := h.status.symm.trans hstatus
  rw [machine, feedAll_append, feedAll_append, ← machine, h.req (by simp [hstatus]), h.inbuf, h.sent,
    ((waits_machine conn.arrived).restart hwaiting).2]

lemma like_init (env : SocksEnv) (preferNoAuth : Bool) : Like env preferNoAuth (init preferNoAuth) :=
  ⟨rfl, fun _ => rfl, rfl, rfl⟩

/-- **A step is right exactly if it is clean.**  Bytes can always arrive; the connection follows the
machine if what arrives is clean, and else it parts from the machine. -/
theorem exists_step (h : Like env preferNoAuth conn) (arrival : Arrival) :
    ∃ next, conn.step env arrival = some next ∧ next.arrived = conn.arrived ++ arrival.bytes
      ∧ ((conn.Clean env arrival ∧ Like env preferNoAuth next) ∨ (¬ conn.Clean env arrival
          ∧ ¬ (next.status = (machine env preferNoAuth next.arrived).status
            ∧ next.sent = (machine env preferNoAuth next.arrived).sent))) := by
  rw [step]
  split
  next hstatus =>
    have hmachine := h.machine_append hstatus arrival.bytes
    rw [← flatten_bufAppend] at hmachine
    by_cases hlen : 2 ≤ (bufAppend arrival conn.inbuf).flatten.length
    · rw [fetchFromBufSocks, if_neg (Nat.not_lt.mpr hlen)]
      obtain ⟨f, hf, hspec⟩ := exists_fetchLoop env _ (bufAppend arrival conn.inbuf) conn.req [] hlen
        (Nat.lt_succ_self _)
      rw [hf]
      refine ⟨_, rfl, rfl, ?_⟩
      rcases hspec conn.sent with ⟨hclean, hmatch⟩ | ⟨hclean, hfalls⟩
      · left
        obtain ⟨added, hreply, hsent⟩ := hmatch.replies
        refine ⟨fun _ _ => hclean, ?_, ?_, ?_, ?_⟩
        · rw [hmachine]
          exact hmatch.status
        · intro hne
          rw [hmachine]
          refine hmatch.req ?_
          rw [← hmatch.status]
          exact hne
        · rw [hmachine]
          exact hmatch.buf
        · rw [hmachine, hsent]
          exact congrArg (conn.sent ++ ·) hreply
      · right
        refine ⟨fun hc => hclean (hc hstatus hlen), ?_⟩
        rw [hmachine]
        rintro ⟨hstatus', hsent⟩
        have hlt := hfalls hstatus'
        have hlength := congrArg length hsent
        rw [length_append] at hlength
        rw [length_nil] at hlt
        omega
    · have hshort := Nat.not_le.mp hlen
      rw [fetchFromBufSocks, if_pos hshort]
      refine ⟨_, rfl, rfl, .inl ⟨fun _ htwo => absurd htwo hlen, ?_⟩⟩
      have htrunc : ∀ k, k ≤ (bufAppend arrival conn.inbuf).flatten.length → (parseSocks env conn.req
          ((bufAppend arrival conn.inbuf).flatten.take k)).res = .truncated := fun k _ => by
        rw [parseSocks_short]
        rw [length_take]
        omega
      rw [feedAll_of_truncated htrunc, parseSocks_short hshort] at hmachine
      refine ⟨?_, ?_, ?_, ?_⟩
      all_goals rw [hmachine]
      · intro _
        rfl
      · exact append_nil conn.sent
  next hstatus =>
    have haccepted := h.status.symm.trans hstatus
    have hmachine : machine env preferNoAuth (conn.arrived ++ arrival.bytes)
        = { machine env preferNoAuth conn.arrived with
          pending := (machine env preferNoAuth conn.arrived).pending ++ arrival.bytes } := by
      rw [machine, feedAll_append, ← machine, feedAll_accepted haccepted]
    refine ⟨_, rfl, rfl, .inl ⟨fun hwaiting => ?_, ?_, ?_, ?_, ?_⟩⟩
    · rw [hstatus] at hwaiting
      cases hwaiting
    all_goals rw [hmachine]
    · exact h.status
    · exact h.req
    · rw [flatten_bufAppend, h.inbuf]
    · exact h.sent
  next hstatus =>
    have hrejected := h.status.symm.trans hstatus
    have hmachine : machine env preferNoAuth (conn.arrived ++ arrival.bytes)
        = machine env preferNoAuth conn.arrived := by
      rw [machine, feedAll_append, ← machine, feedAll_rejected hrejected]
    refine ⟨_, rfl, rfl, .inl ⟨fun hwaiting => ?_, ?_, ?_, ?_, ?_⟩⟩
    · rw [hstatus] at hwaiting
      cases hwaiting
    all_goals rw [hmachine]
    · exact h.status
    · exact h.req
    · exact h.inbuf
    · exact h.sent

lemma step_isSome (env : SocksEnv) (conn : SocksConn) (arrival : Arrival) :
    ∃ next, conn.step env arrival = some next := by
  rw [step]
  split
  · rw [fetchFromBufSocks]
    split
    · exact ⟨_, rfl⟩
    · next hlen =>
      obtain ⟨f, hf, -⟩ := exists_fetchLoop env _ (bufAppend arrival conn.inbuf) conn.req []
        (Nat.not_lt.mp hlen) (Nat.lt_succ_self _)
      rw [hf]
      exact ⟨_, rfl⟩
  · exact ⟨_, rfl⟩
  · exact ⟨_, rfl⟩

/-! ## The bytes one by one -/

lemma length_step_singleton {byte : UInt8} (h : conn.step env ⟨[byte], []⟩ = some next)
    (hone : conn.inbuf.length ≤ 1) : next.inbuf.length ≤ 1 := by
  have happend := length_bufAppend_singleton byte hone
  rw [step] at h
  split at h
  · rw [fetchFromBufSocks] at h
    split at h
    · cases h
      exact happend
    · obtain ⟨f, hf, rfl⟩ := Option.map_eq_some_iff.mp h
      exact Nat.le_trans (length_fetchLoop_le hf) happend
  · cases h
    exact happend
  · cases h
    exact hone

lemma Like.truncated (h : Like env preferNoAuth conn) (hstatus : conn.status = .waiting) :
    ∀ k, k ≤ conn.inbuf.flatten.length →
      (parseSocks env conn.req (conn.inbuf.flatten.take k)).res = .truncated := by
  rw [h.req (by simp [hstatus]), h.inbuf]
  exact ((waits_machine conn.arrived).restart (h.status.symm.trans hstatus)).1

lemma clean_singleton (h : Like env preferNoAuth conn) (hone : conn.inbuf.length ≤ 1)
    (byte : UInt8) : conn.Clean env ⟨[byte], []⟩ := by
  intro hstatus hlen
  have hflat : (bufAppend ⟨[byte], []⟩ conn.inbuf).flatten = conn.inbuf.flatten ++ [byte] :=
    flatten_bufAppend _ _
  have hsingle : (bufAppend ⟨[byte], []⟩ conn.inbuf).length ≤ 1 := length_bufAppend_singleton byte hone
  have hhead : (pulled (bufAppend ⟨[byte], []⟩ conn.inbuf)).headD []
      = conn.inbuf.flatten ++ [byte] := by
    rw [← hflat, ← flatten_pulled]
    exact headD_of_length_le_one (Nat.le_trans (length_pulled_le _) hsingle)
  rw [cleanLoop_succ, hhead, hflat]
  by_cases htrunc : (parseSocks env conn.req (conn.inbuf.flatten ++ [byte])).res = .truncated
  · obtain ⟨-, hclean⟩ := clean_of_truncated htrunc ⟨Nat.min_le_right _ _, Nat.le_refl _⟩
    refine ⟨hclean, .inl rfl, fun hmore => ?_⟩
    rw [htrunc] at hmore
    cases hmore
  · have hstops : Stops env conn.req (conn.inbuf.flatten ++ [byte])
        (conn.inbuf.flatten ++ [byte]).length := by
      refine ⟨Nat.le_refl _, fun k hk => ?_, by rwa [take_length]⟩
      have hle : k ≤ conn.inbuf.flatten.length := by
        rw [length_append, length_singleton] at hk
        omega
      rw [take_append_of_le_length hle]
      exact h.truncated hstatus k hle
    obtain ⟨hclean, hdrain⟩ := clean_of_stops hstops
    refine ⟨hclean, .inl rfl, fun hmore htwo => ?_⟩
    rw [hdrain (by rw [hmore]; simp), drop_length] at htwo
    simp at htwo

lemma exists_reaches_oneByOne (h : Like env preferNoAuth conn) (hone : conn.inbuf.length ≤ 1)
    (bytes : List UInt8) : ∃ next, Reaches (step env) conn (oneByOne bytes) next
      ∧ Like env preferNoAuth next ∧ next.arrived = conn.arrived ++ bytes := by
  induction bytes generalizing conn with
  | nil => exact ⟨conn, reaches_nil.mpr rfl, h, (append_nil _).symm⟩
  | cons byte bytes ih =>
    obtain ⟨mid, hmid, harrived, hlike⟩ := exists_step h ⟨[byte], []⟩
    have hclean := clean_singleton h hone byte
    have hmidLike : Like env preferNoAuth mid := by
      rcases hlike with ⟨-, hlike⟩ | ⟨hnot, -⟩
      · exact hlike
      · exact absurd hclean hnot
    obtain ⟨next, hnext, hnextLike, hnextArrived⟩ := ih hmidLike (length_step_singleton hmid hone)
    refine ⟨next, reaches_cons.mpr ⟨mid, hmid, hnext⟩, hnextLike, ?_⟩
    rw [hnextArrived, harrived]
    simp [Arrival.bytes]

/-- **No dependence on segmentation.**  The connection is where it would be if all that has arrived
had arrived one byte at a time, and what it waits with is cut short. -/
def Independent (env : SocksEnv) (preferNoAuth : Bool) (conn : SocksConn) : Prop :=
  (∃ other, Reaches (step env) (init preferNoAuth) (oneByOne conn.arrived) other
      ∧ conn.observed = other.observed)
    ∧ (conn.status = .waiting → (parseSocks env conn.req conn.inbuf.flatten).res = .truncated)

lemma Like.observed_eq {other : SocksConn} (h : Like env preferNoAuth conn)
    (h' : Like env preferNoAuth other) (heq : other.arrived = conn.arrived) :
    conn.observed = other.observed := by
  have hstatus : conn.status = other.status := by rw [h.status, h'.status, heq]
  rw [observed, observed, h.inbuf, h'.inbuf, h.sent, h'.sent, heq, ← hstatus]
  by_cases haccepted : conn.status = .accepted
  · have hreq := h.req (by simp [haccepted])
    have hreq' := h'.req (by simp [← hstatus, haccepted])
    rw [hreq, hreq', heq]
  · simp only [haccepted, if_false]

lemma Like.independent (h : Like env preferNoAuth conn) : Independent env preferNoAuth conn := by
  obtain ⟨other, hreaches, hlike, harrived⟩ :=
    exists_reaches_oneByOne (like_init env preferNoAuth) (Nat.zero_le 1) conn.arrived
  refine ⟨⟨other, hreaches, h.observed_eq hlike ?_⟩, fun hstatus => ?_⟩
  · rw [harrived]
    rfl
  · have htrunc := h.truncated hstatus conn.inbuf.flatten.length (Nat.le_refl _)
    rwa [take_length] at htrunc

lemma parts_of_independent (h : Independent env preferNoAuth conn) :
    conn.status = (machine env preferNoAuth conn.arrived).status
      ∧ conn.sent = (machine env preferNoAuth conn.arrived).sent := by
  obtain ⟨⟨other, hreaches, hobserved⟩, -⟩ := h
  obtain ⟨other', hreaches', hlike, harrived⟩ :=
    exists_reaches_oneByOne (like_init env preferNoAuth) (Nat.zero_le 1) conn.arrived
  obtain rfl := hreaches.unique hreaches'
  have harrived' : other.arrived = conn.arrived := harrived
  simp only [observed, Prod.mk.injEq] at hobserved
  rw [hobserved.1, hobserved.2.2.2, hlike.status, hlike.sent, harrived']
  exact ⟨rfl, rfl⟩

/-- **Segmentation.**  A call always returns, and all along a run the connection is where it would be
if the bytes had arrived one at a time exactly if all that arrives is clean. -/
theorem independent_iff_clean (env : SocksEnv) (preferNoAuth : Bool) (arrivals : List Arrival) :
    (∃ conn, Reaches (step env) (init preferNoAuth) arrivals conn)
      ∧ ((∀ pre, pre <+: arrivals → ∀ conn, Reaches (step env) (init preferNoAuth) pre conn →
          Independent env preferNoAuth conn)
        ↔ Meets (step env) (Clean env) (init preferNoAuth) arrivals) := by
  constructor
  · obtain ⟨conn, hconn, -⟩ := exists_reaches_of_meets (I := fun _ => True) (C := fun _ _ => True)
      (fun conn arrival _ _ => by
        obtain ⟨next, hnext⟩ := step_isSome env conn arrival
        exact ⟨next, hnext, trivial⟩) trivial (meets_true (s := init preferNoAuth))
    exact ⟨conn, hconn⟩
  · refine forall_reached_iff_meets (I := Like env preferNoAuth) (fun conn h => h.independent)
      (fun conn arrival h => ?_) (fun conn arrival next h hclean hnext => ?_)
      (like_init env preferNoAuth)
    all_goals obtain ⟨next', hnext', -, hcases⟩ := exists_step h arrival
    · constructor
      · intro hall
        rcases hcases with ⟨hclean, -⟩ | ⟨-, hparts⟩
        · exact hclean
        · exact absurd (parts_of_independent (hall next' hnext')) hparts
      · intro hclean next hnext
        obtain rfl := Option.some.inj (hnext.symm.trans hnext')
        rcases hcases with ⟨-, hlike⟩ | ⟨hnot, -⟩
        · exact hlike.independent
        · exact absurd hclean hnot
    · obtain rfl := Option.some.inj (hnext.symm.trans hnext')
      rcases hcases with ⟨-, hlike⟩ | ⟨hnot, -⟩
      · exact hlike
      · exact absurd hclean hnot

/-- A program that resolves nothing and takes every destination. -/
def plainEnv : SocksEnv where
  haveMapping := fun _ => false
  isValidDest := fun _ => true
  isAddr := fun _ => false
  safeSocks := false

/-- The methods, a user name and a password. -/
def pipelined : List UInt8 := [5, 1, 2, 1, 1, 0x61, 1, 0x62]

/-- In one arrival the second reply is written over the first. -/
theorem segmentation_fails : ¬ ∀ env preferNoAuth arrivals conn,
    Reaches (step env) (init preferNoAuth) arrivals conn → Independent env preferNoAuth conn := by
  intro hall
  have hstep : ((init false).step plainEnv ⟨pipelined, []⟩).map (fun conn => (conn.sent, conn.arrived))
      = some ([1, 0], pipelined) := by decide
  have hbytes : ((oneByOne pipelined).foldlM (step plainEnv) (init false)).map (fun conn => conn.sent)
      = some [5, 2, 1, 0] := by decide
  obtain ⟨conn, hconn, hpair⟩ := Option.map_eq_some_iff.mp hstep
  obtain ⟨hsent, harrived⟩ := Prod.mk.inj hpair
  have hreaches : Reaches (step plainEnv) (init false) [⟨pipelined, []⟩] conn :=
    reaches_cons.mpr ⟨conn, hconn, reaches_nil.mpr rfl⟩
  obtain ⟨⟨other, hother, hobserved⟩, -⟩ := hall plainEnv false _ conn hreaches
  rw [harrived] at hother
  obtain ⟨other', hother', hsent'⟩ := Option.map_eq_some_iff.mp hbytes
  obtain rfl := hother.unique hother'
  simp only [observed, Prod.mk.injEq, hsent, hsent'] at hobserved
  exact absurd hobserved.2.2.2 (by decide)

end SocksConn

end Ator.Socks

import AtorProtocol.Socks.Fetch

/-!
# One SOCKS message, cut short or followed by others

What the functions that handle a message make of the data up to some point, for each point.

* `SimpleMessage` — a message that its parser alone tells the end of.
* `nonempty_simpleMessage` — all messages but those of SOCKS4 are of this kind.
* `handleSocks4_of_not_accepts` — a SOCKS4 message, whose host name may be too long.
-/

namespace Ator.Socks

open Ator.Parser

variable {env : SocksEnv} {req : SocksRequest} {data xs ys : List UInt8} {n : ℕ}

/-! ## Parsers -/

lemma incremental_socks4 : Incremental socks4ClientRequestParse := by
  refine incremental_item.andThen fun _ => (incremental_ensure _).andThen fun _ =>
    incremental_item.andThen fun _ => (incremental_ensure _).andThen fun _ =>
    (incremental_take 2).andThen fun _ => (incremental_take 4).andThen fun addr =>
    (incremental_takeUntil 0).andThen fun _ => ?_
  split
  · exact (incremental_takeUntil 0).andThen fun _ => incremental_succeed
  · exact incremental_succeed

lemma incremental_methods : Incremental socks5ClientVersionParse :=
  incremental_item.andThen fun _ => (incremental_ensure _).andThen fun _ =>
    incremental_item.andThen fun _ => incremental_take _

lemma incremental_userpass : Incremental socks5ClientUserpassAuthParse :=
  incremental_item.andThen fun _ => (incremental_ensure _).andThen fun _ =>
    incremental_item.andThen fun _ => (incremental_take _).andThen fun _ =>
    incremental_item.andThen fun _ => (incremental_take _).andThen fun _ => incremental_succeed

lemma incremental_request : Incremental socks5ClientRequestParse := by
  refine incremental_item.andThen fun _ => (incremental_ensure _).andThen fun _ =>
    incremental_item.andThen fun _ => (incremental_ensure _).andThen fun _ =>
    incremental_item.andThen fun _ => (incremental_ensure _).andThen fun _ =>
    incremental_item.andThen fun _ => (incremental_ensure _).andThen fun _ =>
    Incremental.andThen ?_ fun _ => (incremental_take 2).andThen fun _ => incremental_succeed
  split
  · exact (incremental_take 4).andThen fun _ => incremental_succeed
  split
  · exact (incremental_take 16).andThen fun _ => incremental_succeed
  · exact incremental_item.andThen fun _ => (incremental_take _).andThen fun _ =>
      incremental_succeed

lemma bounded_take_toNat (byte : UInt8) : Bounded 255 (take byte.toNat : Parser UInt8 _) :=
  (bounded_take byte.toNat).mono (Nat.le_of_lt_succ byte.toNat_lt)

lemma bounded_methods : Bounded 257 socks5ClientVersionParse :=
  bounded_item.andThen fun _ => (bounded_ensure _).andThen fun _ =>
    bounded_item.andThen fun byte => bounded_take_toNat byte

lemma bounded_userpass : Bounded 513 socks5ClientUserpassAuthParse :=
  bounded_item.andThen fun _ => (bounded_ensure _).andThen fun _ =>
    bounded_item.andThen fun byte => (bounded_take_toNat byte).andThen fun _ =>
    bounded_item.andThen fun byte => (bounded_take_toNat byte).andThen fun _ => bounded_succeed

lemma bounded_request : Bounded 262 socks5ClientRequestParse := by
  refine bounded_item.andThen fun _ => (bounded_ensure _).andThen fun _ =>
    bounded_item.andThen fun _ => (bounded_ensure _).andThen fun _ =>
    bounded_item.andThen fun _ => (bounded_ensure _).andThen fun _ =>
    bounded_item.andThen fun _ => (bounded_ensure _).andThen fun _ =>
    Bounded.andThen (m := 256) ?_ fun _ => (bounded_take 2).andThen fun _ => bounded_succeed
  split
  · exact ((bounded_take 4).andThen fun _ => bounded_succeed).mono (by omega)
  split
  · exact ((bounded_take 16).andThen fun _ => bounded_succeed).mono (by omega)
  · exact bounded_item.andThen fun byte => (bounded_take_toNat byte).andThen fun _ =>
      bounded_succeed

lemma headD_of_done {α : Type} {f : UInt8 → Parser UInt8 α} {version : UInt8} {a : α}
    {rest : List UInt8} (h : (item.andThen fun v => (ensure (v = version)).andThen fun _ => f v) data
      = .done a rest) : data.headD 0 = version := by
  cases data with
  | nil => cases h
  | cons x xs =>
    by_cases hx : x = version
    · exact hx
    · simp [andThen, item, ensure, hx] at h

lemma reads_socks4 : Reads 9 socks4ClientRequestParse := by
  refine reads_item.andThen fun _ => (incremental_ensure _).reads.andThen fun _ =>
    reads_item.andThen fun _ => (incremental_ensure _).reads.andThen fun _ =>
    (reads_take 2).andThen fun _ => (reads_take 4).andThen fun addr =>
    (reads_takeUntil 0).andThen (n := 0) fun _ => ?_
  split
  · exact ((incremental_takeUntil 0).andThen fun _ => incremental_succeed).reads
  · exact incremental_succeed.reads

lemma reads_two {α : Type} {f : UInt8 → UInt8 → Parser UInt8 α} {version : UInt8}
    (hp : Incremental (item.andThen fun v => (ensure (v = version)).andThen fun _ =>
      item.andThen fun b => f v b)) :
    Reads 2 (item.andThen fun v => (ensure (v = version)).andThen fun _ =>
      item.andThen fun b => f v b) := by
  intro data a rest h
  obtain ⟨used, rfl, hused⟩ := hp.exact data a rest h
  rcases used with _ | ⟨x, _ | ⟨y, xs⟩⟩
  · cases hused
  · by_cases hx : x = version
    · simp [andThen, item, ensure, hx] at hused
    · simp [andThen, item, ensure, hx] at hused
  · simp only [List.length_append, List.length_cons]
    omega

lemma userpass_ne_fail (h : data.headD 0 = 1) : socks5ClientUserpassAuthParse data ≠ .fail := by
  cases data with
  | nil => cases h
  | cons x xs =>
    obtain rfl : x = 1 := h
    have hrest : NeverFails (item.andThen fun usernameLen : UInt8 =>
        (take usernameLen.toNat).andThen fun username : List UInt8 =>
        item.andThen fun passwdLen : UInt8 => (take passwdLen.toNat).andThen fun passwd =>
        succeed (username, passwd)) :=
      neverFails_item.andThen fun _ => (neverFails_take _).andThen fun _ =>
        neverFails_item.andThen fun _ => (neverFails_take _).andThen fun _ => neverFails_succeed
    exact hrest xs

/-! ## Messages that their parser tells the end of -/

/-- What a parser of messages makes of the data, and `process` of a message. -/
def runMessage {α : Type} (req : SocksRequest) (parser : Parser UInt8 α) (failReply : List UInt8)
    (process : α → SocksResult × SocksRequest × List UInt8) (data : List UInt8) : Handled :=
  match parser data with
  | .fail => ⟨.invalid, req, failReply, 0⟩
  | .truncated => ⟨.truncated, req, [], 0⟩
  | .done a rest =>
    ⟨(process a).1, (process a).2.1, (process a).2.2, data.length - rest.length⟩

/-- The message that the request and the first octet announce.  Where a chunk of the longest length
cuts it short, it is one of a user name and a password. -/
structure SimpleMessage (env : SocksEnv) (req : SocksRequest) (first : UInt8) where
  α : Type
  parser : Parser UInt8 α
  failReply : List UInt8
  process : α → SocksResult × SocksRequest × List UInt8
  incremental : Incremental parser
  bounded : Bounded 513 parser
  consumes : Reads 2 parser
  process_ne : ∀ a, (process a).1 ≠ .truncated
  late : ∀ xs ys, 512 ≤ xs.length → parser xs = .truncated → parser (xs ++ ys) ≠ .fail
    ∧ ∀ a, parser (xs ++ ys) = .done a [] → req.gotAuth = false
      ∧ (∃ m, socks5ClientUserpassAuthParse (xs ++ ys) = .done m [])
      ∧ ((process a).1 = .invalid ∨ ((process a).1 = .moreExpected ∧ (process a).2.2 ≠ []))
  whole : req.gotAuth = false → ∀ data m rest, data.headD 0 = first →
    socks5ClientUserpassAuthParse data = .done m rest → ∃ a, parser data = .done a rest
  parse_eq : ∀ data, 2 ≤ data.length → data.headD 0 = first →
    parseSocks env req data = runMessage req parser failReply process data

lemma parseSocks_five {first : UInt8} (hfirst : first = 5 ∨ first = 1) (hlen : 2 ≤ data.length)
    (hhead : data.headD 0 = first) : parseSocks env req data
      = if req.gotAuth = false ∧ (first = 1 ∨ req.authType = 2) then handleSocks5Userpass req data
        else if req.socksVersion ≠ 5 then handleSocks5Methods req data
        else handleSocks5Request env req data := by
  have hor : first = 5 ∨ first = 4 ∨ first = 1 := by
    rcases hfirst with rfl | rfl
    · exact .inl rfl
    · exact .inr (.inr rfl)
  have hversion : (if first = 1 then (5 : UInt8) else first) = 5 := by
    rcases hfirst with rfl | rfl
    · rfl
    · rfl
  have hne : ¬ (5 : UInt8) = 4 := by decide
  rw [parseSocks, if_neg (Nat.not_lt.mpr hlen)]
  simp only [hhead, if_pos hor, handleSocksMessage, hversion, if_neg hne, if_true,
    if_neg (Nat.not_lt.mpr hlen)]

/-- A first octet of no version of SOCKS. -/
def unknownMessage (first : UInt8) (h : ¬ (first = 5 ∨ first = 4 ∨ first = 1)) :
    SimpleMessage env req first where
  α := Unit
  parser := fun _ => .fail
  failReply := if first ∈ ascii "GHPC" then ascii socksProxyIsNotAnHttpProxyMsg ++ [0] else []
  process := fun _ => (.invalid, req, [])
  incremental := ⟨fun _ _ _ => rfl, fun _ _ _ _ h => (by cases h), fun _ _ _ h => (by cases h)⟩
  bounded := ⟨fun _ h => (by cases h), fun _ _ _ h => (by cases h)⟩
  consumes := fun _ _ _ h => (by cases h)
  process_ne := fun _ => (by simp)
  late := fun _ _ _ h => (by cases h)
  whole := fun _ data m rest hfirst hm => by
    have hversion := headD_of_done hm
    rw [hfirst] at hversion
    exact absurd (.inr (.inr hversion)) h
  parse_eq := fun data hlen hfirst => by
    rw [parseSocks, if_neg (Nat.not_lt.mpr hlen)]
    simp only [hfirst, if_neg h, runMessage]
    split
    · rfl
    · rfl

/-- What `process_socks5_userpass_auth` makes of a user name and a password. -/
def userpassResult (req : SocksRequest) (a : List UInt8 × List UInt8) :
    SocksResult × SocksRequest × List UInt8 :=
  if a.1.take 8 = ascii "<torS0X>" ∧ a.1 ≠ ascii "<torS0X>0" then (.invalid, req, [])
  else
    let req := if a.1 = [] then req else { req with username := some a.1 }
    let req := if a.2 = [] then req else { req with password := some a.2 }
    let req := { req with gotAuth := true }
    let processed := processSocks5UserpassAuth req
    (if processed.1 = .done then .moreExpected else processed.1, req, processed.2)

lemma processUserpass_cases (req : SocksRequest) : processSocks5UserpassAuth req = (.invalid, [])
    ∨ processSocks5UserpassAuth req = (.done, [1, 0]) := by
  rw [processSocks5UserpassAuth]
  split
  · exact .inl rfl
  split
  · exact .inl rfl
  · exact .inr rfl

lemma userpassResult_cases (req : SocksRequest) (a : List UInt8 × List UInt8) :
    (userpassResult req a).1 = .invalid
      ∨ ((userpassResult req a).1 = .moreExpected ∧ (userpassResult req a).2.2 ≠ []) := by
  rw [userpassResult]
  split
  · exact .inl rfl
  · dsimp only
    rcases processUserpass_cases _ with heq | heq
    · left
      rw [heq]
      rfl
    · right
      rw [heq]
      simp

/-- The user name and password of SOCKS5. -/
def userpassMessage (first : UInt8) (hfirst : first = 5 ∨ first = 1) (hauth : req.gotAuth = false)
    (hkind : first = 1 ∨ req.authType = 2) : SimpleMessage env req first where
  α := List UInt8 × List UInt8
  parser := socks5ClientUserpassAuthParse
  failReply := []
  process := userpassResult req
  incremental := incremental_userpass
  bounded := bounded_userpass
  consumes := reads_two incremental_userpass
  process_ne := fun a => by
    rcases userpassResult_cases req a with heq | ⟨heq, -⟩
    · simp [heq]
    · simp [heq]
  late := fun xs ys hlen htrunc => by
    have hversion : (xs ++ ys).headD 0 = 1 := by
      cases xs with
      | nil => simp at hlen
      | cons x xs =>
        by_contra hne
        have hx : ¬ x = 1 := hne
        simp [socks5ClientUserpassAuthParse, andThen, item, ensure, hx] at htrunc
    exact ⟨userpass_ne_fail hversion, fun a ha => ⟨hauth, ⟨a, ha⟩, userpassResult_cases req a⟩⟩
  whole := fun _ data m rest _ hm => ⟨m, hm⟩
  parse_eq := fun data hlen hhead => by
    rw [parseSocks_five hfirst hlen hhead, if_pos ⟨hauth, hkind⟩, handleSocks5Userpass,
      parseSocks5UserpassAuth, runMessage]
    cases socks5ClientUserpassAuthParse data with
    | fail => rfl
    | truncated => rfl
    | done a rest =>
      dsimp only
      rw [userpassResult]
      split
      · rfl
      · simp

/-- What `process_socks5_methods_request` makes of the methods. -/
def methodsResult (req : SocksRequest) (methods : List UInt8) :
    SocksResult × SocksRequest × List UInt8 :=
  if methods = [] then (.invalid, req, [])
  else
    let processed := processSocks5MethodsRequest req (methods.contains 2) (methods.contains 0)
    (if processed.1 = .done then .moreExpected else processed.1, processed.2.1, processed.2.2)

/-- The methods of SOCKS5. -/
def methodsMessage (first : UInt8) (hfirst : first = 5 ∨ first = 1)
    (hkind : ¬ (req.gotAuth = false ∧ (first = 1 ∨ req.authType = 2))) (hversion : req.socksVersion ≠ 5) :
    SimpleMessage env req first where
  α := List UInt8
  parser := socks5ClientVersionParse
  failReply := []
  process := methodsResult req
  incremental := incremental_methods
  bounded := bounded_methods.mono (by omega)
  consumes := reads_two incremental_methods
  process_ne := fun a => by
    rw [methodsResult]
    split
    · simp
    · rw [processSocks5MethodsRequest]
      split
      · simp
      split
      · simp
      · simp
  late := fun xs ys hlen htrunc => by
    have hlt := bounded_methods.truncated xs htrunc
    omega
  whole := fun hauth data m rest hhead hm => by
    have hone := headD_of_done hm
    rw [hhead] at hone
    exact absurd ⟨hauth, .inl hone⟩ hkind
  parse_eq := fun data hlen hhead => by
    rw [parseSocks_five hfirst hlen hhead, if_neg hkind, if_pos hversion, handleSocks5Methods,
      parseSocks5MethodsRequest, runMessage]
    cases hparse : socks5ClientVersionParse data with
    | fail => rfl
    | truncated =>
      have hlt := bounded_methods.truncated data hparse
      have hmax : ¬ maxSocksMessageLen < data.length := by
        rw [maxSocksMessageLen]
        omega
      simp [hmax]
    | done a rest =>
      dsimp only
      rw [methodsResult]
      split
      · rfl
      · simp

/-- What `process_socks5_client_request` makes of a request. -/
def requestResult (env : SocksEnv) (req : SocksRequest) (a : UInt8 × UInt8 × DestAddr × UInt16) :
    SocksResult × SocksRequest × List UInt8 :=
  let address := match a.2.2.1 with
    | .ipv4 addr => .ipv4 (.ofNat (ofBytes addr))
    | .domainname name => .hostname (name.takeWhile fun byte => byte ≠ 0)
    | .ipv6 addr => .ipv6 addr
  let req := { req with command := a.1, port := a.2.2.2, socks5Atyp := a.2.1, address := address }
  let processed := processSocks5ClientRequest env req
  (processed.1, req, processed.2)

/-- The request of SOCKS5. -/
def requestMessage (first : UInt8) (hfirst : first = 5 ∨ first = 1)
    (hkind : ¬ (req.gotAuth = false ∧ (first = 1 ∨ req.authType = 2))) (hversion : req.socksVersion = 5) :
    SimpleMessage env req first where
  α := UInt8 × UInt8 × DestAddr × UInt16
  parser := socks5ClientRequestParse
  failReply := socks5Error 1
  process := requestResult env req
  incremental := incremental_request
  bounded := bounded_request.mono (by omega)
  consumes := reads_two incremental_request
  process_ne := fun a => by
    simp only [requestResult, processSocks5ClientRequest]
    repeat' split
    all_goals simp
  late := fun xs ys hlen htrunc => by
    have hlt := bounded_request.truncated xs htrunc
    omega
  whole := fun hauth data m rest hhead hm => by
    have hone := headD_of_done hm
    rw [hhead] at hone
    exact absurd ⟨hauth, .inl hone⟩ hkind
  parse_eq := fun data hlen hhead => by
    rw [parseSocks_five hfirst hlen hhead, if_neg hkind, if_neg (not_not.mpr hversion),
      handleSocks5Request, parseSocks5ClientRequest, runMessage]
    cases socks5ClientRequestParse data with
    | fail => rfl
    | truncated => rfl
    | done a rest => rfl

lemma nonempty_simpleMessage (env : SocksEnv) (req : SocksRequest) {first : UInt8}
    (h : first ≠ 4) : Nonempty (SimpleMessage env req first) := by
  by_cases hfirst : first = 5 ∨ first = 1
  · by_cases hkind : req.gotAuth = false ∧ (first = 1 ∨ req.authType = 2)
    · exact ⟨userpassMessage first hfirst hkind.1 hkind.2⟩
    by_cases hversion : req.socksVersion = 5
    · exact ⟨requestMessage first hfirst hkind hversion⟩
    · exact ⟨methodsMessage first hfirst hkind hversion⟩
  · refine ⟨unknownMessage first ?_⟩
    rintro (hfive | hfour | hone)
    · exact hfirst (.inl hfive)
    · exact h hfour
    · exact hfirst (.inr hone)

/-! ## SOCKS4 -/

lemma parseSocks_four (hlen : 2 ≤ data.length) (hhead : data.headD 0 = 4) :
    parseSocks env req data = handleSocks4 env req data := by
  rw [parseSocks, if_neg (Nat.not_lt.mpr hlen)]
  simp only [hhead, handleSocksMessage]
  rfl

lemma handleSocks4_of_fail (hlen : socks4NetworkLen ≤ data.length)
    (h : socks4ClientRequestParse data = .fail) :
    handleSocks4 env req data = ⟨.invalid, { req with socksVersion := 4 }, [], 0⟩ := by
  rw [handleSocks4, if_neg (Nat.not_lt.mpr hlen), parseSocks4Request]
  simp [h]

lemma handleSocks4_of_truncated (env : SocksEnv) (req : SocksRequest)
    (hlen : socks4NetworkLen ≤ data.length)
    (h : socks4ClientRequestParse data = .truncated) : handleSocks4 env req data
      = ⟨if maxSocksMessageLen ≤ data.length then .invalid else .truncated,
        { req with socksVersion := 4 }, [], 0⟩ := by
  rw [handleSocks4, if_neg (Nat.not_lt.mpr hlen), parseSocks4Request]
  by_cases hmax : maxSocksMessageLen ≤ data.length
  · simp [h, hmax]
  · simp [h, hmax]

lemma processSocks4Request_cases (env : SocksEnv) (req : SocksRequest) (isSocks4a : Bool) :
    processSocks4Request env req isSocks4a = .done
      ∨ processSocks4Request env req isSocks4a = .invalid := by
  rw [processSocks4Request]
  split
  · exact .inr rfl
  split
  · exact .inr rfl
  split
  · exact .inr rfl
  · exact .inl rfl

section Done

variable {msg : Socks4ClientRequest} {rest : List UInt8}

lemma not_lt_of_done (h : socks4ClientRequestParse data = .done msg rest) :
    ¬ data.length < socks4NetworkLen := by
  have hlen := reads_socks4 data msg rest h
  rw [socks4NetworkLen]
  omega

lemma parseSocks4Request_of_fits (h : socks4ClientRequestParse data = .done msg rest)
    (hport : ¬ ((msg.port = 0 ∧ msg.command ≠ commandResolve) ∨ msg.addr = 0))
    (huser : msg.username.length ≤ maxSocksMessageLen) (hfits : hostnameFits msg data.length) :
    parseSocks4Request req data = (⟨.done, socks4Request req msg, [], data.length - rest.length⟩,
      decide (msg.addr >>> 8 = 0)) := by
  rw [parseSocks4Request]
  simp only [h, if_neg hport, if_neg (Nat.not_lt.mpr huser)]
  rw [socks4Request]
  by_cases h4a : msg.addr >>> 8 = 0
  · have hle : data.length - (socks4NetworkLen + msg.username.length + 1) ≤ maxSocksAddrLen :=
      hfits h4a
    rw [if_pos h4a, if_pos (decide_eq_true h4a), if_pos hle]
    exact congrArg _ (decide_eq_true h4a).symm
  · rw [if_neg h4a, if_neg (by simpa using h4a), decide_eq_false h4a]

lemma parseSocks4Request_of_not_fits (req : SocksRequest)
    (h : socks4ClientRequestParse data = .done msg rest)
    (hnot : ¬ (¬ ((msg.port = 0 ∧ msg.command ≠ commandResolve) ∨ msg.addr = 0)
      ∧ msg.username.length ≤ maxSocksMessageLen ∧ hostnameFits msg data.length)) :
    (parseSocks4Request req data).1.res = .invalid ∧ (parseSocks4Request req data).1.reply = [] := by
  rw [parseSocks4Request]
  simp only [h]
  by_cases hport : (msg.port = 0 ∧ msg.command ≠ commandResolve) ∨ msg.addr = 0
  · simp [hport]
  by_cases huser : maxSocksMessageLen < msg.username.length
  · simp [hport, huser]
  by_cases h4a : msg.addr >>> 8 = 0
  · have hlong : ¬ data.length - (socks4NetworkLen + msg.username.length + 1) ≤ maxSocksAddrLen :=
      fun hle => hnot ⟨hport, Nat.not_lt.mp huser, fun _ => hle⟩
    simp [hport, huser, h4a, hlong]
  · exact absurd ⟨hport, Nat.not_lt.mp huser, fun hzero => absurd hzero h4a⟩ hnot

lemma handleSocks4_of_accepts (h : socks4ClientRequestParse data = .done msg rest)
    (haccepts : acceptsSocks4 env req msg) (hfits : hostnameFits msg data.length) :
    handleSocks4 env req data = ⟨.done, socks4Request req msg, [], data.length - rest.length⟩ := by
  obtain ⟨hport, huser, hprocess⟩ := haccepts
  rw [handleSocks4, if_neg (not_lt_of_done h), parseSocks4Request_of_fits h hport huser hfits]
  simp [hprocess]

lemma handleSocks4_of_not_accepts (env : SocksEnv) (req : SocksRequest)
    (h : socks4ClientRequestParse data = .done msg rest)
    (hnot : ¬ (acceptsSocks4 env req msg ∧ hostnameFits msg data.length)) :
    (handleSocks4 env req data).res = .invalid ∧ (handleSocks4 env req data).reply = [] := by
  rw [handleSocks4, if_neg (not_lt_of_done h)]
  by_cases hparse : ¬ ((msg.port = 0 ∧ msg.command ≠ commandResolve) ∨ msg.addr = 0)
      ∧ msg.username.length ≤ maxSocksMessageLen ∧ hostnameFits msg data.length
  · obtain ⟨hport, huser, hfits⟩ := hparse
    rw [parseSocks4Request_of_fits h hport huser hfits]
    rcases processSocks4Request_cases env (socks4Request req msg)
      (decide (msg.addr >>> 8 = 0)) with hdone | hinvalid
    · exact absurd ⟨⟨hport, huser, hdone⟩, hfits⟩ hnot
    · simp [hinvalid]
  · obtain ⟨hres, hreply⟩ := parseSocks4Request_of_not_fits req h hparse
    simp [hres, hreply]

end Done

end Ator.Socks

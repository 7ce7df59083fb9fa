import AtorProtocol.Lib.Incremental

/-!
# SOCKS messages

`src/core/proto/proto_socks.c`, with the parsers of `src/trunnel/socks5.c`.  Each function handles one
message at the start of the data that has arrived.

* `SocksRequest` — what the handshake has come to so far.
* `parseSocks4Request`, `parseSocks5UserpassAuth`, `parseSocks5MethodsRequest`,
  `parseSocks5ClientRequest` — one message of each dialect.
* `handleSocksMessage`, `parseSocks` — which of them it is.
-/

namespace Ator.Socks

open Ator.Parser

/-! ## Requests -/

/-- What `req->address` is the string of. -/
inductive SocksAddress where
  | none
  | ipv4 (addr : UInt32)
  | ipv6 (addr : List UInt8)
  | hostname (name : List UInt8)
  deriving DecidableEq

/-- `socks_request_t`.  The reply is kept by the caller. -/
structure SocksRequest where
  socksVersion : UInt8
  authType : UInt8
  command : UInt8
  address : SocksAddress
  port : UInt16
  gotAuth : Bool
  socksPreferNoAuth : Bool
  username : Option (List UInt8)
  password : Option (List UInt8)
  socks5Atyp : UInt8
  deriving DecidableEq

/-- `socks_request_new`, for a listener that prefers no authentication or not. -/
def SocksRequest.new (socksPreferNoAuth : Bool) : SocksRequest where
  socksVersion := 0
  authType := 0
  command := 0
  address := .none
  port := 0
  gotAuth := false
  socksPreferNoAuth := socksPreferNoAuth
  username := Option.none
  password := Option.none
  socks5Atyp := 0

inductive SocksResult where
  | invalid
  | truncated
  | done
  | moreExpected
  deriving DecidableEq

/-- What a message comes to: the result, the request after it, the bytes written to `req->reply`, if
any, and `*drain_out`. -/
structure Handled where
  res : SocksResult
  req : SocksRequest
  reply : List UInt8
  drainOut : ℕ
  deriving DecidableEq

/-- What the handshake asks of the rest of the program: `addressmap_have_mapping`,
`string_is_valid_dest` and `tor_addr_parse` of the address, and the option `SafeSocks`. -/
structure SocksEnv where
  haveMapping : SocksAddress → Bool
  isValidDest : SocksAddress → Bool
  isAddr : SocksAddress → Bool
  safeSocks : Bool

def maxSocksMessageLen : ℕ := 512

def maxSocksAddrLen : ℕ := 256

def socks4NetworkLen : ℕ := 8

/-- `SOCKS_COMMAND_CONNECT`, `SOCKS_COMMAND_RESOLVE`, `SOCKS_COMMAND_RESOLVE_PTR` -/
def commandConnect : UInt8 := 0x01
def commandResolve : UInt8 := 0xF0
def commandResolvePtr : UInt8 := 0xF1

/-- The bytes of a text. -/
def ascii (text : String) : List UInt8 := text.toList.map fun c => UInt8.ofNat c.toNat

/-- A number in network order. -/
def ofBytes (bytes : List UInt8) : ℕ := bytes.foldl (fun n byte => n * 256 + byte.toNat) 0

/-! ## SOCKS4 -/

structure Socks4ClientRequest where
  command : UInt8
  port : UInt16
  addr : UInt32
  username : List UInt8
  hostname : Option (List UInt8)

def socks4ClientRequestParse : Parser UInt8 Socks4ClientRequest :=
  item.andThen fun version => (ensure (version = 4)).andThen fun _ =>
  item.andThen fun command =>
  (ensure (command = 2 ∨ command = 1 ∨ command = 0xF0 ∨ command = 0xF1)).andThen fun _ =>
  (take 2).andThen fun port => (take 4).andThen fun addr =>
  (takeUntil 0).andThen fun username =>
  if 1 ≤ ofBytes addr ∧ ofBytes addr ≤ 255 then
    (takeUntil 0).andThen fun hostname =>
      succeed ⟨command, .ofNat (ofBytes port), .ofNat (ofBytes addr), username, some hostname⟩
  else
    succeed ⟨command, .ofNat (ofBytes port), .ofNat (ofBytes addr), username, none⟩

/-- `parse_socks4_request`, with `*is_socks4a`. -/
def parseSocks4Request (req : SocksRequest) (data : List UInt8) : Handled × Bool :=
  let req := { req with socksVersion := 4 }
  match socks4ClientRequestParse data with
  | .fail => (⟨.invalid, req, [], 0⟩, false)
  | .truncated =>
    (⟨if maxSocksMessageLen ≤ data.length then .invalid else .truncated, req, [], 0⟩, false)
  | .done msg rest =>
    let drainOut := data.length - rest.length
    let req := { req with command := msg.command, port := msg.port }
    if (msg.port = 0 ∧ msg.command ≠ commandResolve) ∨ msg.addr = 0 then
      (⟨.invalid, req, [], drainOut⟩, false)
    else
      let isSocks4a := decide (msg.addr >>> 8 = 0)
      if maxSocksMessageLen < msg.username.length then (⟨.invalid, req, [], drainOut⟩, isSocks4a)
      else
        let req := if msg.username = [] then req
          else { req with gotAuth := true, username := some msg.username }
        if isSocks4a then
          -- up to the end of the data, not of the message
          let hostnameLen := data.length - (socks4NetworkLen + msg.username.length + 1)
          if hostnameLen ≤ maxSocksAddrLen then
            let address := match msg.hostname with
              | some hostname => .hostname (hostname.take (maxSocksAddrLen - 1))
              | none => req.address
            (⟨.done, { req with address := address }, [], drainOut⟩, true)
          else (⟨.invalid, req, [], drainOut⟩, true)
        else (⟨.done, { req with address := .ipv4 msg.addr }, [], drainOut⟩, false)

def processSocks4Request (env : SocksEnv) (req : SocksRequest) (isSocks4a : Bool) : SocksResult :=
  if !isSocks4a && !env.haveMapping req.address && env.safeSocks then .invalid
  else if req.command ≠ commandConnect ∧ req.command ≠ commandResolve then .invalid
  else if !env.isValidDest req.address then .invalid
  else .done

/-! ## SOCKS5 -/

/-- `socks5_client_version_parse`: the methods. -/
def socks5ClientVersionParse : Parser UInt8 (List UInt8) :=
  item.andThen fun version => (ensure (version = 5)).andThen fun _ =>
  item.andThen fun nMethods => take nMethods.toNat

/-- `parse_socks5_methods_request`, with `*have_user_pass` and `*have_no_auth`. -/
def parseSocks5MethodsRequest (req : SocksRequest) (data : List UInt8) : Handled × Bool × Bool :=
  match socks5ClientVersionParse data with
  | .fail => (⟨.invalid, req, [], 0⟩, false, false)
  | .truncated =>
    (⟨if maxSocksMessageLen < data.length then .invalid else .truncated, req, [], 0⟩, false, false)
  | .done methods rest =>
    let drainOut := data.length - rest.length
    if methods = [] then (⟨.invalid, req, [], drainOut⟩, false, false)
    else (⟨.done, req, [], drainOut⟩, methods.contains 2, methods.contains 0)

/-- `process_socks5_methods_request`, with the reply. -/
def processSocks5MethodsRequest (req : SocksRequest) (haveUserPass haveNoAuth : Bool) :
    SocksResult × SocksRequest × List UInt8 :=
  if haveUserPass && !(haveNoAuth && req.socksPreferNoAuth) then
    (.done, { req with authType := 2, socksVersion := 5 }, [5, 2])
  else if haveNoAuth then (.done, { req with authType := 0, socksVersion := 5 }, [5, 0])
  else (.invalid, req, [5, 0xFF])

/-- `socks5_client_userpass_auth_parse`: the user name and the password. -/
def socks5ClientUserpassAuthParse : Parser UInt8 (List UInt8 × List UInt8) :=
  item.andThen fun version => (ensure (version = 1)).andThen fun _ =>
  item.andThen fun usernameLen => (take usernameLen.toNat).andThen fun username =>
  item.andThen fun passwdLen => (take passwdLen.toNat).andThen fun passwd =>
  succeed (username, passwd)

def parseSocks5UserpassAuth (req : SocksRequest) (data : List UInt8) : Handled :=
  match socks5ClientUserpassAuthParse data with
  | .fail => ⟨.invalid, req, [], 0⟩
  | .truncated => ⟨.truncated, req, [], 0⟩
  | .done (username, passwd) rest =>
    let drainOut := data.length - rest.length
    if username.take 8 = ascii "<torS0X>" ∧ username ≠ ascii "<torS0X>0" then
      ⟨.invalid, req, [], drainOut⟩
    else
      let req := if username = [] then req else { req with username := some username }
      let req := if passwd = [] then req else { req with password := some passwd }
      ⟨.done, { req with gotAuth := true }, [], drainOut⟩

/-- `process_socks5_userpass_auth`, with the reply. -/
def processSocks5UserpassAuth (req : SocksRequest) : SocksResult × List UInt8 :=
  if req.socksVersion ≠ 5 then (.invalid, [])
  else if req.authType ≠ 2 ∧ req.authType ≠ 0 then (.invalid, [])
  else (.done, [1, 0])

/-- The destination of a `socks5_client_request_t`. -/
inductive DestAddr where
  | ipv4 (addr : List UInt8)
  | domainname (name : List UInt8)
  | ipv6 (addr : List UInt8)

/-- `socks5_client_request_parse`: the command, the type of the address, the address and the port. -/
def socks5ClientRequestParse : Parser UInt8 (UInt8 × UInt8 × DestAddr × UInt16) :=
  item.andThen fun version => (ensure (version = 5)).andThen fun _ =>
  item.andThen fun command =>
  (ensure (command = 2 ∨ command = 1 ∨ command = 0xF0 ∨ command = 0xF1 ∨ command = 3)).andThen fun _ =>
  item.andThen fun reserved => (ensure (reserved = 0)).andThen fun _ =>
  item.andThen fun atype =>
  (ensure (atype = 1 ∨ atype = 3 ∨ atype = 4)).andThen fun _ =>
  (if atype = 1 then (take 4).andThen fun addr => succeed (.ipv4 addr)
    else if atype = 4 then (take 16).andThen fun addr => succeed (.ipv6 addr)
    else item.andThen fun len => (take len.toNat).andThen fun name =>
      succeed (.domainname name)).andThen fun destAddr =>
  (take 2).andThen fun destPort => succeed (command, atype, destAddr, .ofNat (ofBytes destPort))

/-- The reply of `socks_request_set_socks5_error`. -/
def socks5Error (reason : UInt8) : List UInt8 := [5, reason, 0, 1, 0, 0, 0, 0, 0, 0]

/-- `parse_socks5_client_request`.  The parser fails at another type of address, so that the switch
has no default. -/
def parseSocks5ClientRequest (req : SocksRequest) (data : List UInt8) : Handled :=
  match socks5ClientRequestParse data with
  | .fail => ⟨.invalid, req, socks5Error 1, 0⟩
  | .truncated => ⟨.truncated, req, [], 0⟩
  | .done (command, atype, destAddr, destPort) rest =>
    let address := match destAddr with
      | .ipv4 addr => .ipv4 (.ofNat (ofBytes addr))
      | .domainname name => .hostname (name.takeWhile fun byte => byte ≠ 0)
      | .ipv6 addr => .ipv6 addr
    let req := { req with
      command := command
      port := destPort
      socks5Atyp := atype
      address := address }
    ⟨.done, req, [], data.length - rest.length⟩

/-- `process_socks5_client_request`, with the reply. -/
def processSocks5ClientRequest (env : SocksEnv) (req : SocksRequest) : SocksResult × List UInt8 :=
  if req.command ≠ commandConnect ∧ req.command ≠ commandResolve
      ∧ req.command ≠ commandResolvePtr then (.invalid, socks5Error 7)
  else if req.command = commandResolvePtr ∧ !env.isAddr req.address then (.invalid, socks5Error 8)
  else if !env.isValidDest req.address then (.invalid, socks5Error 1)
  else if (req.socks5Atyp = 1 ∨ req.socks5Atyp = 4) ∧ req.command ≠ commandResolvePtr
      ∧ !env.haveMapping req.address ∧ env.safeSocks then (.invalid, socks5Error 2)
  else (.done, [])

/-! ## One message -/

/-- A SOCKS4 message in `handle_socks_message`. -/
def handleSocks4 (env : SocksEnv) (req : SocksRequest) (data : List UInt8) : Handled :=
  if data.length < socks4NetworkLen then ⟨.truncated, req, [], 0⟩
  else
    let parsed := parseSocks4Request req data
    if parsed.1.res ≠ .done then parsed.1
    else { parsed.1 with res := processSocks4Request env parsed.1.req parsed.2 }

/-- The user name and password of RFC 1929 in `handle_socks_message`. -/
def handleSocks5Userpass (req : SocksRequest) (data : List UInt8) : Handled :=
  let parsed := parseSocks5UserpassAuth req data
  if parsed.res ≠ .done then parsed
  else
    let processed := processSocks5UserpassAuth parsed.req
    { parsed with
      res := if processed.1 = .done then .moreExpected else processed.1
      reply := processed.2 }

/-- The methods of SOCKS5 in `handle_socks_message`. -/
def handleSocks5Methods (req : SocksRequest) (data : List UInt8) : Handled :=
  let parsed := parseSocks5MethodsRequest req data
  if parsed.1.res ≠ .done then parsed.1
  else
    let processed := processSocks5MethodsRequest parsed.1.req parsed.2.1 parsed.2.2
    { parsed.1 with
      res := if processed.1 = .done then .moreExpected else processed.1
      req := processed.2.1
      reply := processed.2.2 }

/-- The request of SOCKS5 in `handle_socks_message`.  An invalid one has its reply already. -/
def handleSocks5Request (env : SocksEnv) (req : SocksRequest) (data : List UInt8) : Handled :=
  let parsed := parseSocks5ClientRequest req data
  if parsed.res ≠ .done then parsed
  else
    let processed := processSocks5ClientRequest env parsed.req
    { parsed with res := processed.1, reply := processed.2 }

/-- `handle_socks_message`, for data that is not empty. -/
def handleSocksMessage (env : SocksEnv) (req : SocksRequest) (data : List UInt8) : Handled :=
  let first := data.headD 0
  let socksVersion := if first = 1 then 5 else first
  if socksVersion = 4 then handleSocks4 env req data
  else if socksVersion = 5 then
    if data.length < 2 then ⟨.truncated, req, [], 0⟩
    else if req.gotAuth = false ∧ (first = 1 ∨ req.authType = 2) then handleSocks5Userpass req data
    else if req.socksVersion ≠ 5 then handleSocks5Methods req data
    else handleSocks5Request env req data
  else ⟨.invalid, req, [], data.length⟩

def socksProxyIsNotAnHttpProxyMsg : String :=
  "HTTP/1.0 501 Anon is not an HTTP Proxy\r\n" ++
  "Content-Type: text/html; charset=iso-8859-1\r\n\r\n" ++
  "<html>\n" ++
  "<head>\n" ++
  "<title>This is a SOCKS Proxy, Not An HTTP Proxy</title>\n" ++
  "</head>\n" ++
  "<body>\n" ++
  "<h1>This is a SOCKS proxy, not an HTTP proxy.</h1>\n" ++
  "<p>\n" ++
  "It appears you have configured your web browser to use this Anon port as\n" ++
  "an HTTP proxy.\n" ++
  "</p>\n" ++
  "<p>\n" ++
  "This is not correct: This port is configured as a SOCKS proxy, not\n" ++
  "an HTTP proxy. If you need an HTTP proxy tunnel, use the HTTPTunnelPort\n" ++
  "configuration option in place of, or in addition to, SOCKSPort.\n" ++
  "Please configure your client accordingly.\n" ++
  "</p>\n" ++
  "</body>\n" ++
  "</html>\n"

def parseSocks (env : SocksEnv) (req : SocksRequest) (data : List UInt8) : Handled :=
  if data.length < 2 then ⟨.truncated, req, [], 0⟩
  else
    let first := data.headD 0
    if first = 5 ∨ first = 4 ∨ first = 1 then handleSocksMessage env req data
    else if first ∈ ascii "GHPC" then
      ⟨.invalid, req, ascii socksProxyIsNotAnHttpProxyMsg ++ [0], 0⟩
    else ⟨.invalid, req, [], 0⟩

end Ator.Socks

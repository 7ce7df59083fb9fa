import AtorProtocol.Encoding.Binascii

/-!
# Directory tokens

`get_next_token` of `src/feature/dirparse/parsecommon.c`, with the scanners of
`src/lib/string/util_string.c` that it uses.  The range is a list of bytes and a pointer an index
into it; `none` is a read outside the range.

* `scanWhile`, `eatWhitespaceEos`, `memstr` — the loops over pointers.
* `keywordToken` — what the table says about a line.
* `getNextToken` — one token, or the text of an error.
-/

namespace Ator.Dirparse

/-! ## Tables and tokens -/

/-- `directory_keyword`; the keywords and annotations that the tokenizer does not name are told
apart by a number. -/
inductive DirectoryKeyword
  | keyword (n : ℕ)
  | opt
  | annotationKeyword (n : ℕ)
  | annotationUnknown
  | err
  | eof
deriving DecidableEq

inductive ObjSyntax
  | noObj | needObj | optKey1024 | needKey1024 | needKey | objOk
deriving DecidableEq

structure TokenRule where
  t : List Char
  v : DirectoryKeyword
  minArgs : ℤ
  maxArgs : ℤ
  concatArgs : Bool
  os : ObjSyntax
  minCnt : ℤ
  maxCnt : ℤ
  atStart : Bool
  atEnd : Bool
deriving DecidableEq

/-- `directory_token_t`, with keys of type `κ`. -/
structure DirectoryToken (κ : Type) where
  tp : DirectoryKeyword
  args : List (List Char)
  objectType : Option (List Char)
  objectBody : Option Bytes
  key : Option κ
deriving DecidableEq

/-- The public keys of the cryptographic library. -/
structure Crypto (κ : Type) where
  asn1Decode : Bytes → Option κ
  numBits : κ → ℤ
  keyIsPrivate : κ → Bool

/-- The text of an error token. -/
abbrev ErrorText := List Char

def maxUnparsedObjectSize : ℕ := 128 * 1024

def maxLineLength : ℕ := 128 * 1024

/-- Largest number of arguments we'll accept to any token, ever. -/
def maxArgs : ℕ := 512

/-- What fits in `ebuf`. -/
def ebuf (text kwd : List Char) : ErrorText := (text ++ kwd).take 127

/-! ## Reading the range -/

section Range

variable (buf : List Char)

/-- The `b - a` bytes from `a` on. -/
def slice (a b : ℕ) : Option (List Char) :=
  if a ≤ b ∧ b ≤ buf.length then some ((buf.drop a).take (b - a)) else none

/-- The `n` bytes before `b`. -/
def sliceBefore (b n : ℕ) : Option (List Char) := if n ≤ b then slice buf (b - n) b else none

/-- `while (s < eos && p(*s)) ++s;` -/
def scanWhile (p : Char → Bool) (s eos : ℕ) : Option ℕ :=
  if s < eos then
    match buf[s]? with
    | none => none
    | some c => if p c then scanWhile p (s + 1) eos else some s
  else some s
termination_by eos - s

lemma le_of_scanWhile {p : Char → Bool} {s eos t : ℕ} (h : scanWhile buf p s eos = some t) :
    s ≤ t := by
  fun_induction scanWhile buf p s eos with
  | case1 => cases h
  | case2 s hlt c hc hp ih => exact (Nat.le_succ s).trans (ih h)
  | case3 | case4 => exact (Option.some.inj h).le

def isWhitespace (c : Char) : Bool := c = ' ' ∨ c = '\t' ∨ c = '\n' ∨ c = '\r'

/-- What is left of a comment. -/
def inComment (c : Char) : Bool := c ≠ '\x00' ∧ c ≠ '\n'

def eatWhitespaceEos (s eos : ℕ) : Option ℕ :=
  if s < eos then
    match buf[s]? with
    | none => none
    | some c =>
      if isWhitespace c then eatWhitespaceEos (s + 1) eos
      else if c = '#' then
        match _h : scanWhile buf inComment (s + 1) eos with
        | none => none
        | some s' => eatWhitespaceEos s' eos
      else some s
  else some s
termination_by eos - s
decreasing_by
  · omega
  · have := le_of_scanWhile buf _h
    omega

def notNewline (c : Char) : Bool := c ≠ '\n'

def isSpaceNoNl (c : Char) : Bool := c = ' ' ∨ c = '\t' ∨ c = '\r'

def eatWhitespaceEosNoNl (s eos : ℕ) : Option ℕ := scanWhile buf isSpaceNoNl s eos

/-- Not in the cases of `find_whitespace_eos`. -/
def inWord (c : Char) : Bool := c ≠ '\x00' ∧ c ≠ '#' ∧ ¬ isWhitespace c

def findWhitespaceEos (s eos : ℕ) : Option ℕ := scanWhile buf inWord s eos

/-- `tor_memstr(s, eos - s, needle)`, with `some none` for `NULL`. -/
def memstr (needle : List Char) (s eos : ℕ) : Option (Option ℕ) :=
  if s + needle.length ≤ eos then
    match slice buf s (s + needle.length) with
    | none => none
    | some mem => if mem = needle then some (some s) else memstr needle (s + 1) eos
  else some none
termination_by eos + 1 - s

end Range

/-! ## The line of a keyword -/

/-- `eat_whitespace` on a string, up to its NUL. -/
def eatWhitespace : List Char → List Char
  | [] => []
  | c :: s =>
    if isWhitespace c then eatWhitespace s
    else if c = '#' then eatWhitespace (s.dropWhile inComment)
    else c :: s
termination_by s => s.length
decreasing_by
  · simp
  · have := (List.dropWhile_sublist inComment (l := s)).length_le
    simp only [List.length_cons]
    omega

lemma length_eatWhitespace_le (s : List Char) : (eatWhitespace s).length ≤ s.length := by
  fun_induction eatWhitespace s with
  | case1 => exact le_rfl
  | case2 c s hc ih => exact ih.trans (Nat.le_succ _)
  | case3 s hc ih =>
    exact (ih.trans (List.dropWhile_sublist inComment).length_le).trans (Nat.le_succ _)
  | case4 => exact le_rfl

/-- `memarea_strndup`: the copy ends at the first NUL. -/
def strndup (mem : List Char) : List Char := mem.takeWhile (· ≠ '\x00')

/-- The loop of `get_token_arguments`, with `j` arguments so far. -/
def getTokenArguments (j : ℕ) (cp : List Char) : Option (List (List Char)) :=
  if cp = [] then some []
  else if j = maxArgs then none
  else
    match _h : cp.dropWhile inWord with
    | [] => some [cp.takeWhile inWord]
    | _ :: next => (getTokenArguments (j + 1) (eatWhitespace next)).map (cp.takeWhile inWord :: ·)
termination_by cp.length
decreasing_by
  have hrest := (List.dropWhile_sublist inWord (l := cp)).length_le
  have hnext := length_eatWhitespace_le next
  rw [_h, List.length_cons] at hrest
  omega

/-- What `get_next_token` looks at on the line: the first word, what follows it, and all of it. -/
structure Line where
  word : List Char
  rest : List Char
  whole : List Char
deriving DecidableEq

variable {κ : Type}

def DirectoryToken.ofLine (tp : DirectoryKeyword) (args : List (List Char)) : DirectoryToken κ :=
  { tp, args, objectType := none, objectBody := none, key := none }

/-- No keyword matched; call it an "K_opt" or "A_unrecognized". -/
def unrecognized (text : List Char) : DirectoryToken κ :=
  DirectoryToken.ofLine (if text.head? = some '@' then .annotationUnknown else .opt) [strndup text]

/-- A token, the keyword of its rule and the object that it wants. -/
structure Keyword (κ : Type) where
  tok : DirectoryToken κ
  kwd : List Char
  oSyn : ObjSyntax
deriving DecidableEq

/-- The search in the table, and the arguments. -/
def keywordToken (table : List TokenRule) (line : Line) : Except ErrorText (Keyword κ) :=
  match table.find? (·.t = line.word) with
  | some rule =>
    let args :=
      if rule.concatArgs then some [strndup line.rest]
      else getTokenArguments 0 (strndup line.rest)
    match args with
    | none => .error (ebuf "Far too many arguments to ".toList rule.t)
    | some args =>
      if args.length < rule.minArgs then .error (ebuf "Too few arguments to ".toList rule.t)
      else if args.length > rule.maxArgs then
        .error (ebuf "Too many arguments to ".toList rule.t)
      else if rule.v = .err then
        .ok ⟨unrecognized (if rule.concatArgs then line.rest else []), rule.t, .objOk⟩
      else .ok ⟨DirectoryToken.ofLine rule.v args, rule.t, rule.os⟩
  | none => .ok ⟨unrecognized line.whole, [], .objOk⟩

/-! ## The object -/

variable (crypto : Crypto κ)

/-- The checks of `NEED_KEY` and `NEED_KEY_1024`. -/
def checkKey (kwd : List Char) (tok : DirectoryToken κ) (bits : Option ℤ) :
    Except ErrorText (DirectoryToken κ) :=
  match tok.key with
  | none => .error (ebuf "Missing public key for ".toList kwd)
  | some key =>
    if bits.any (crypto.numBits key ≠ ·) then
      .error ((("Wrong size on key for ".toList ++ kwd ++ ": ".toList
        ++ (toString (crypto.numBits key)).toList ++ " bits".toList)).take 127)
    else if crypto.keyIsPrivate key then
      .error (("Private key given for ".toList ++ kwd
        ++ ", which wants a public key".toList).take 127)
    else .ok tok

def tokenCheckObject (kwd : List Char) (tok : DirectoryToken κ) (oSyn : ObjSyntax) :
    Except ErrorText (DirectoryToken κ) :=
  match oSyn with
  | .noObj =>
    if tok.objectBody.isSome then .error (ebuf "Unexpected object for ".toList kwd)
    else if tok.key.isSome then .error (ebuf "Unexpected public key for ".toList kwd)
    else .ok tok
  | .needObj =>
    if tok.objectBody.isNone then .error (ebuf "Missing object for ".toList kwd) else .ok tok
  | .optKey1024 =>
    if tok.objectBody.isSome ∧ tok.key.isNone then
      .error (ebuf "Unexpected object for ".toList kwd)
    else if tok.key.isNone then .ok tok
    else checkKey crypto kwd tok (some 1024)
  | .needKey1024 => checkKey crypto kwd tok (some 1024)
  | .needKey => checkKey crypto kwd tok none
  | .objOk => .ok tok

def base64DecodeMaxsize (srclen : ℕ) : ℕ := (srclen * 3 + 3) / 4

def wantsPublicKey : ObjSyntax → Bool
  | .optKey1024 | .needKey | .needKey1024 | .objOk => true
  | .noObj | .needObj => false

/-- The object between its lines. -/
def decodeObject (k : Keyword κ) (name body : List Char) : Except ErrorText (DirectoryToken κ) :=
  match base64Decode (base64DecodeMaxsize body.length) body with
  | none => .error "Malformed object: bad base64-encoded data".toList
  | some data =>
    let tok := { k.tok with objectType := some name, objectBody := some data }
    if name = "RSA PUBLIC KEY".toList then
      if ! wantsPublicKey k.oSyn then .error "Unexpected public key.".toList
      else
        match crypto.asn1Decode data with
        | none => .error "Couldn't parse public key.".toList
        | some key => tokenCheckObject crypto k.kwd { tok with key := some key } k.oSyn
    else tokenCheckObject crypto k.kwd tok k.oSyn

/-! ## The next token -/

section Next

variable (buf : List Char)

/-- The line from `s` to `eol`, with its first word up to `next`. -/
def lineParts (s next eol : ℕ) : Option Line := do
  let word ← slice buf s next
  let args ← eatWhitespaceEosNoNl buf next eol
  let rest ← slice buf args eol
  let whole ← slice buf s eol
  some ⟨word, rest, whole⟩

/-- From the first character of a line to its end: the line without its `"opt"`. -/
def readLine (s eol : ℕ) : Option (Except ErrorText Line) := do
  let eos := buf.length
  if eol - s > maxLineLength then some (.error "Line far too long".toList) else
  let next ← findWhitespaceEos buf s eol
  let word ← slice buf s next
  if word = "opt".toList then
    let s ← eatWhitespaceEosNoNl buf next eol
    let next ← findWhitespaceEos buf s eol
    let line ← lineParts buf s next eol
    some (.ok line)
  else if s = eos then some (.error "Unexpected EOF".toList)
  else
    let line ← lineParts buf s next eol
    some (.ok line)

/-- The object of `k` from its first line on, which goes from `s` to `eol`. -/
def readObject (k : Keyword κ) (s eol : ℕ) : Option (Except ErrorText (DirectoryToken κ × ℕ)) := do
  let eos := buf.length
  let badBeginLine := "Malformed object: bad begin line".toList
  if eol - s ≤ 16 then some (.error badBeginLine) else
  let name ← slice buf (s + 11) (eol - 5)
  let ending ← sliceBefore buf eol 5
  if '\x00' ∈ name ∨ ending ≠ "-----".toList ∨ eol - s > maxUnparsedObjectSize then
    some (.error badBeginLine)
  else
    let s := eol + 1
    match ← memstr buf "-----END ".toList s eos with
    | none => some (.error "Malformed object: missing object end line".toList)
    | some next =>
      let eol ← scanWhile buf notNewline next eos
      let mismatched := ebuf "Malformed object: mismatched end tag ".toList name
      if eol - next ≠ 9 + name.length + 5 then some (.error mismatched) else
      let endName ← slice buf (next + 9) (next + 9 + name.length)
      let ending ← sliceBefore buf eol 5
      if endName ≠ name ∨ ending ≠ "-----".toList then some (.error mismatched)
      else if next - s > maxUnparsedObjectSize then
        some (.error "Couldn't parse object: missing footer or object much too big.".toList)
      else
        let body ← slice buf s next
        some ((decodeObject crypto k name body).map fun tok => (tok, eol))

/-- Check whether there's an object present, from the end of the line on. -/
def readRest (k : Keyword κ) (eol : ℕ) : Option (Except ErrorText (DirectoryToken κ × ℕ)) := do
  let eos := buf.length
  let s ← eatWhitespaceEos buf eol eos
  let eol ← scanWhile buf notNewline s eos
  let noObject := some ((tokenCheckObject crypto k.kwd k.tok k.oSyn).map fun tok => (tok, s))
  if eol = eos ∨ eol - s < 11 then noObject else
  let start ← slice buf s (s + 11)
  if start ≠ "-----BEGIN ".toList then noObject else readObject crypto buf k s eol

/-- `get_next_token`: the token and the new `*s`. -/
def getNextToken (table : List TokenRule) (s : ℕ) :
    Option (Except ErrorText (DirectoryToken κ × ℕ)) := do
  let eos := buf.length
  let s ← eatWhitespaceEos buf s eos
  let eol ← scanWhile buf notNewline s eos
  match ← readLine buf s eol with
  | .error e => some (.error e)
  | .ok line =>
    match keywordToken table line with
    | .error e => some (.error e)
    | .ok k => readRest crypto buf k eol

end Next

end Ator.Dirparse

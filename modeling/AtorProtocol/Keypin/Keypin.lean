import AtorProtocol.Encoding.Binascii
import AtorProtocol.Lib.HashTable
import AtorProtocol.Lib.Run

/-!
# Key pinning

`src/feature/dirauth/keypin.c`: an authority remembers which Ed25519 key goes with which RSA
identity, in two tables of the same entries, and writes each new pair to a journal.

* `keypinCheckAndAdd`, `keypinCheck` — what a live call does with the tables and the journal.
* `keypinLoadJournalImpl` — what loading a journal does with the tables.
-/

namespace Ator.Keypin

open Text

/-- `rsa_id[DIGEST_LEN]` -/
abbrev RsaId := {bs : Bytes // bs.length = 20}

/-- `ed25519_key[DIGEST256_LEN]` -/
abbrev Ed25519Key := {bs : Bytes // bs.length = 32}

/-- `keypin_ent_t`, with its address: what `tor_malloc` was called how many times before. -/
structure KeypinEnt where
  addr : ℕ
  rsaId : RsaId
  ed25519Key : Ed25519Key
deriving DecidableEq

/-- `the_rsa_map` and `the_ed_map`, with the calls of `tor_malloc` so far. -/
structure KeypinTables where
  rsaMap : List KeypinEnt
  edMap : List KeypinEnt
  allocated : ℕ

/-- The tables, and the journal file with whether `keypin_journal_fd` is open. -/
structure KeypinState where
  tables : KeypinTables
  journal : List Char
  journalOpen : Bool

/-- No entries. -/
def KeypinTables.empty : KeypinTables := ⟨[], [], 0⟩

def base64DigestLen : ℕ := 27

def base64Digest256Len : ℕ := 43

def journalLineLen : ℕ := base64DigestLen + base64Digest256Len + 2

/-- What the checks return. -/
inductive KeypinResult where
  | found
  | added
  | mismatch
  | notFound
deriving DecidableEq

/-! ## The tables -/

def keypinAddEntryToMap (kp : KeypinTables) (ent : KeypinEnt) : KeypinTables :=
  { kp with
    rsaMap := htInsert kp.rsaMap ent
    edMap := htInsert kp.edMap ent }

/-- Take an entry out of both tables; `none` is an assertion that it is not the entry found
there. -/
def keypinRemoveEntry (kp : KeypinTables) (ent : KeypinEnt) : Option KeypinTables :=
  if htFind KeypinEnt.rsaId kp.rsaMap ent.rsaId = some ent
      ∧ htFind KeypinEnt.ed25519Key kp.edMap ent.ed25519Key = some ent then
    some
      { kp with
        rsaMap := htRemove KeypinEnt.rsaId kp.rsaMap ent.rsaId
        edMap := htRemove KeypinEnt.ed25519Key kp.edMap ent.ed25519Key }
  else none

/-- Take out what a lookup found. -/
def keypinRemoveFound (kp : KeypinTables) : Option KeypinEnt → Option KeypinTables
  | none => some kp
  | some ent => keypinRemoveEntry kp ent

def keypinAddOrReplaceEntryInMap (kp : KeypinTables) (ent : KeypinEnt) : Option (ℤ × KeypinTables) :=
  let ent2 := htFind KeypinEnt.rsaId kp.rsaMap ent.rsaId
  let ent3 := htFind KeypinEnt.ed25519Key kp.edMap ent.ed25519Key
  if ent2.any fun e => e.ed25519Key = ent.ed25519Key then some (0, kp)
  else if ent2.isSome || ent3.isSome then do
    let kp ← keypinRemoveFound kp ent2
    let kp ← (if ent2 = ent3 then some kp else keypinRemoveFound kp ent3)
    some (-1, keypinAddEntryToMap kp ent)
  else some (1, keypinAddEntryToMap kp ent)

/-- A new entry. -/
def keypinEntNew (kp : KeypinTables) (rsaId : RsaId) (ed25519Key : Ed25519Key) : KeypinEnt × KeypinTables :=
  (⟨kp.allocated, rsaId, ed25519Key⟩, { kp with allocated := kp.allocated + 1 })

/-! ## The journal -/

/-- A line of the journal: the two keys in base 64. -/
def keypinJournalLine (rsaId : RsaId) (ed25519Key : Ed25519Key) : List Char :=
  base64EncodeNopad rsaId.1 ++ ' ' :: base64EncodeNopad ed25519Key.1 ++ ['\n']

/-- `keypin_journal_append_entry`; `written` is how much of the line the file takes.  A journal
that does not take the whole line is closed. -/
def keypinJournalAppendEntry (st : KeypinState) (rsaId : RsaId) (ed25519Key : Ed25519Key)
    (written : ℕ) : KeypinState :=
  if st.journalOpen then
    { st with
      journal := st.journal ++ (keypinJournalLine rsaId ed25519Key).take written
      journalOpen := decide (journalLineLen ≤ written) }
  else st

/-- What `format_iso_time` writes: digits and separators. -/
abbrev IsoTime := {tbuf : List Char // ∀ c ∈ tbuf, c.isDigit ∨ c = '-' ∨ c = ':' ∨ c = ' '}

/-- `keypin_open_journal`, at the time `tbuf`. -/
def keypinOpenJournal (st : KeypinState) (tbuf : IsoTime) : KeypinState :=
  { st with
    journal := st.journal ++ '\n' :: ("@opened-at ".toList ++ tbuf ++ ['\n'])
    journalOpen := true }

def keypinParseJournalLine (cp : List Char) : Option (RsaId × Ed25519Key) :=
  match base64Decode 20 (cp.take base64DigestLen), cp[base64DigestLen]?,
    base64Decode 32 ((cp.drop (base64DigestLen + 1)).take base64Digest256Len) with
  | some rsaId, some ' ', some ed25519Key =>
    if h : rsaId.length = 20 ∧ ed25519Key.length = 32 then
      some (⟨rsaId, h.1⟩, ⟨ed25519Key, h.2⟩)
    else none
  | _, _, _ => none

/-- What `keypin_load_journal_impl` does with one line. -/
def keypinLoadLine (kp : KeypinTables) (line : List Char) : Option KeypinTables :=
  if line.length = 0 then some kp
  else if line.head? = some '@' then some kp
  else if line.head? = some '#' then some kp
  else if line.length ≠ journalLineLen - 1 then some kp
  else
    match keypinParseJournalLine line with
    | none => some kp
    | some (rsaId, ed25519Key) =>
      let (ent, kp) := keypinEntNew kp rsaId ed25519Key
      (keypinAddOrReplaceEntryInMap kp ent).map Prod.snd

/-- The loop of `keypin_load_journal_impl` -/
def keypinLoadJournalImpl (kp : KeypinTables) (data : List Char) : Option KeypinTables :=
  if _h : data = [] then some kp
  else (keypinLoadLine kp (beforeDelim '\n' data)).bind fun kp =>
    keypinLoadJournalImpl kp (fromDelim '\n' data).tail
termination_by data.length
decreasing_by
  have hle := fromDelim_length_le '\n' data
  have hpos := List.length_pos_iff.mpr _h
  rw [List.length_tail]
  omega

/-! ## Checking and adding -/

/-- `keypin_check_and_add_impl`: what it returns, and the state after it. -/
def keypinCheckAndAddImpl (st : KeypinState) (rsaId : RsaId) (ed25519Key : Ed25519Key)
    (doNotAdd replace : Bool) (written : ℕ) : Option (KeypinResult × KeypinState) :=
  let byRsa := htFind KeypinEnt.rsaId st.tables.rsaMap rsaId
  let byEd := htFind KeypinEnt.ed25519Key st.tables.edMap ed25519Key
  if byRsa.any fun ent => ent.ed25519Key = ed25519Key then some (.found, st)
  else if byRsa.isSome && !replace then some (.mismatch, st)
  else if byEd.isSome && !replace then
    if byEd.any fun ent => ent.rsaId = rsaId then none else some (.mismatch, st)
  else if doNotAdd then some (.notFound, st)
  else do
    let (ent, kp) := keypinEntNew st.tables rsaId ed25519Key
    let (r, kp) ← keypinAddOrReplaceEntryInMap kp ent
    if (if replace then r ≠ 0 else r = 1) then
      some (.added, keypinJournalAppendEntry { st with tables := kp } rsaId ed25519Key written)
    else none

def keypinCheckAndAdd (st : KeypinState) (rsaId : RsaId) (ed25519Key : Ed25519Key)
    (replaceExistingEntry : Bool) (written : ℕ) : Option (KeypinResult × KeypinState) :=
  keypinCheckAndAddImpl st rsaId ed25519Key false replaceExistingEntry written

def keypinCheck (st : KeypinState) (rsaId : RsaId) (ed25519Key : Ed25519Key) :
    Option (KeypinResult × KeypinState) :=
  keypinCheckAndAddImpl st rsaId ed25519Key true false 0

end Ator.Keypin

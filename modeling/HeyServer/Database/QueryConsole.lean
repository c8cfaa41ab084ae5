import HeyServer.Lib.Fallible
import HeyServer.Lib.Text

/-!
# The query console

A query is checked against a list of keywords and then sent to the server between the
statements of a read-only transaction. The check sees text, the server sees statements: a verb
with other white space after it, a verb the list does not have, or a statement that ends
the transaction passes the check.

## Implementation notes

What upper case makes of a rune outside of ASCII is a parameter. So is the server: how it
splits a script, which statements it counts as writes, as control of transactions or as
reasons to commit, and what it does with the transaction. A `Server` is held to three laws.
-/

namespace HeyServer.Database
open Lib Utf8 Text List

inductive Engine
  | postgres
  | mariaDB
  deriving DecidableEq

/-! ## The check -/

inductive ConsoleError
  | notSelect
  | disallowed (keyword : Bytes)
  deriving DecidableEq

def dangerousKeywords : List Bytes :=
  [ascii "INSERT ", ascii "UPDATE ", ascii "DELETE ", ascii "DROP ", ascii "CREATE ",
    ascii "ALTER ", ascii "TRUNCATE ", ascii "GRANT ", ascii "REVOKE ", ascii "EXECUTE ",
    ascii "CALL ", ascii "PG_READ_FILE(", ascii "PG_WRITE_FILE(", ascii "PG_READ_BINARY_FILE(",
    ascii "LO_IMPORT(", ascii "LO_EXPORT(", ascii "COPY ", ascii "COPY\t", ascii "COPY\n",
    ascii "PG_EXEC(", ascii "PG_STAT_FILE(", ascii "DBLINK("]

section Check
variable (upper : Piece → Bytes)

/-- `strings.ToUpper`, by pieces. -/
def upperPiece : Piece → Bytes
  | .rune r bytes => if r < 0x80 then bytes.map upperByte else upper (.rune r bytes)
  | .stray b => upper (.stray b)

def toUpper (s : Bytes) : Bytes := (pieces s).flatMap (upperPiece upper)

def validateReadOnlyQuery (query : Bytes) : Except ConsoleError Unit :=
  let trimmed := trimSpace (toUpper upper query)
  if !(ascii "SELECT").isPrefixOf trimmed &&
    !(ascii "WITH").isPrefixOf trimmed then .error .notSelect
  else
    match dangerousKeywords.find? fun keyword => keyword <:+: trimmed with
    | some keyword => .error (.disallowed (trimSpace keyword))
    | none => .ok ()

end Check

/-! ## What is sent -/

namespace Engine

/-- The text before the query. -/
def opening : Engine → Bytes
  | postgres => ascii "BEGIN READ ONLY; "
  | mariaDB => ascii "SET TRANSACTION READ ONLY; START TRANSACTION; "

/-- The number of statements before the query. -/
def openingCount : Engine → Nat
  | postgres => 1
  | mariaDB => 2

end Engine

/-- The text after the query. -/
def closing : Bytes := ascii "; ROLLBACK;"

/-- `executePostgresReadOnly` and `executeMariaDBReadOnly` -/
def wrappedQuery (e : Engine) (query : Bytes) : Bytes := e.opening ++ (query ++ closing)

/-! ## What the server does -/

/-- A word of a script, and what follows it there. -/
structure Token where
  text : Bytes
  rest : Bytes

/-- The text of a word in upper case. -/
def Token.word (t : Token) : Bytes := t.text.map upperByte

/-- A statement as a server reads it. -/
structure Statement where
  /-- the script from the first word of the statement on -/
  start : Bytes
  /-- the words that make an `INSERT`, `UPDATE`, `DELETE`, `COPY` or data definition of it -/
  writes : List Token
  /-- it begins, ends or changes a transaction -/
  control : Bool
  /-- the server ends the open transaction before it runs the statement -/
  commits : Bool

/-- A server: how it reads a script, and which statements leave the transaction of the
wrapper. A script it cannot read has no statements. -/
structure Server (e : Engine) where
  statements : Bytes → List Statement
  Session : Type
  fresh : Session
  step : Session → Statement → Session
  /-- the connection is in the read-only transaction the wrapper has opened -/
  InWrapper : Session → Prop
  /-- the statements of the wrapper open the transaction -/
  opens : ∀ text, statements (e.opening ++ text) ≠ [] →
    InWrapper (((statements (e.opening ++ text)).take e.openingCount).foldl step fresh)
  /-- the words of a later statement stand in the text after the opening -/
  located : ∀ text, ∀ st ∈ (statements (e.opening ++ text)).drop e.openingCount,
    ∀ v ∈ st.writes, v.text ++ v.rest <:+ text
  /-- a statement that neither controls nor commits stays in the transaction -/
  keeps : ∀ s st, InWrapper s → st.control = false → st.commits = false → InWrapper (step s st)

namespace Server

variable {e : Engine} (server : Server e) {query : Bytes}

/-- The statements, each with the session it finds. -/
def runs : server.Session → List Statement → List (server.Session × Statement)
  | _, [] => []
  | s, st :: rest => (s, st) :: runs (server.step s st) rest

/-- The statement starts before the closing text. -/
def beginsInQuery (st : Statement) : Bool := closing.length < st.start.length

variable (query : Bytes)

/-- The statements the query adds to those around it. -/
def queryStatements : List Statement :=
  ((server.statements (wrappedQuery e query)).drop e.openingCount).takeWhile beginsInQuery

/-- The statements of the query, each with the session it finds. -/
def queryRuns : List (server.Session × Statement) :=
  ((server.runs server.fresh (server.statements (wrappedQuery e query))).drop
    e.openingCount).takeWhile fun run => beginsInQuery run.2

/-- Every statement of the query runs in the transaction of the wrapper, and none of them
writes or controls transactions. -/
def ReadOnly : Prop :=
  ∀ run ∈ server.queryRuns query, server.InWrapper run.1 ∧ run.2.commits = false ∧
    run.2.writes = [] ∧ run.2.control = false

end Server

/-- The verb is followed by a character the check looks for after it, and then by more than
white space. -/
def Checked (upper : Piece → Bytes) (v : Token) : Prop :=
  ∃ separator tail, v.rest = separator :: (tail ++ closing) ∧
    v.word ++ [separator] ∈ dangerousKeywords ∧ trimSpace (toUpper upper tail) ≠ []

/-- No statement of the query controls transactions or makes the server commit, and each verb
of writing is one the check looks for, spelled as it expects. -/
structure Plain (upper : Piece → Bytes) {e : Engine} (server : Server e) (query : Bytes) :
    Prop where
  control : ∀ st ∈ server.queryStatements query, st.control = false
  commits : ∀ st ∈ server.queryStatements query, st.commits = false
  verbs : ∀ st ∈ server.queryStatements query, ∀ v ∈ st.writes, Checked upper v

/-! ### The statements around the query -/

namespace Server

variable {e : Engine} {server : Server e}

theorem drop_runs (n : Nat) (s : server.Session) (sts : List Statement) :
    (server.runs s sts).drop n = server.runs ((sts.take n).foldl server.step s) (sts.drop n) := by
  induction n generalizing s sts with
  | zero => rfl
  | succ n ih =>
    cases sts with
    | nil => rfl
    | cons st rest => exact ih (server.step s st) rest

theorem takeWhile_runs (s : server.Session) (p : Statement → Bool) (sts : List Statement) :
    (server.runs s sts).takeWhile (fun run => p run.2) = server.runs s (sts.takeWhile p) := by
  induction sts generalizing s with
  | nil => rfl
  | cons st rest ih =>
    by_cases hp : p st = true
    · simp [runs, hp, ih]
    · simp [runs, hp]

theorem snd_mem_of_mem_runs {s : server.Session} {sts : List Statement}
    {run : server.Session × Statement} (h : run ∈ server.runs s sts) : run.2 ∈ sts := by
  induction sts generalizing s with
  | nil => cases h
  | cons st rest ih =>
    rcases mem_cons.mp h with rfl | h
    · exact mem_cons_self
    · exact mem_cons_of_mem _ (ih h)

/-- Statements that neither control nor commit all run in the transaction. -/
theorem inWrapper_of_mem_runs {s : server.Session} (hs : server.InWrapper s)
    {sts : List Statement} (hquiet : ∀ st ∈ sts, st.control = false ∧ st.commits = false) :
    ∀ run ∈ server.runs s sts, server.InWrapper run.1 := by
  induction sts generalizing s with
  | nil => exact fun run hrun => absurd hrun not_mem_nil
  | cons st rest ih =>
    obtain ⟨hst, hrest⟩ := forall_mem_cons.mp hquiet
    exact forall_mem_cons.mpr ⟨hs, ih (server.keeps s st hs hst.1 hst.2) hrest⟩

/-- Each statement of a list is run. -/
theorem exists_run (s : server.Session) {sts : List Statement} {st : Statement} (h : st ∈ sts) :
    ∃ s', (s', st) ∈ server.runs s sts := by
  induction sts generalizing s with
  | nil => cases h
  | cons first rest ih =>
    rcases mem_cons.mp h with rfl | h
    · exact ⟨s, mem_cons_self⟩
    · obtain ⟨s', hrun⟩ := ih (server.step s first) h
      exact ⟨s', mem_cons_of_mem _ hrun⟩

end Server

/-! ### What the check sees -/

section Check
variable {upper : Piece → Bytes}

theorem ascii_of_upperByte (b : UInt8) (h : (upperByte b).toNat < 0x80) : b.toNat < 0x80 := by
  unfold upperByte at h
  split_ifs at h with hletter
  · have hle : b.toNat ≤ 0x7A := UInt8.le_iff_toNat_le.mp hletter.2
    omega
  · exact h

theorem toUpper_ascii_append {s : Bytes} (hs : ∀ b ∈ s, b.toNat < 0x80) (t : Bytes) :
    toUpper upper (s ++ t) = s.map upperByte ++ toUpper upper t := by
  induction s with
  | nil => rfl
  | cons b rest ih =>
    obtain ⟨hb, hrest⟩ := forall_mem_cons.mp hs
    rw [cons_append, toUpper, pieces_cons_ascii hb, flatMap_cons]
    show upperPiece upper _ ++ toUpper upper (rest ++ t) = _
    rw [ih hrest, upperPiece, if_pos hb]
    rfl

theorem toUpper_append_ascii (s : Bytes) {b : UInt8} (hb : b.toNat < 0x80) (rest : Bytes) :
    toUpper upper (s ++ b :: rest) = toUpper upper s ++ toUpper upper (b :: rest) := by
  rw [toUpper, pieces_append_ascii s hb, flatMap_append]
  rfl

/-- Each keyword is made of ASCII bytes in upper case and starts with a letter. -/
theorem dangerousKeywords_spec : ∀ keyword ∈ dangerousKeywords,
    (∀ b ∈ keyword, b.toNat < 0x80 ∧ upperByte b = b) ∧
      ∀ b ∈ keyword.head?, isSpaceRune b.toNat = false := by
  decide +kernel

theorem not_mem_of_accepted {query keyword : Bytes}
    (h : validateReadOnlyQuery upper query = .ok ()) (hkeyword : keyword ∈ dangerousKeywords) :
    ¬ keyword <:+: trimSpace (toUpper upper query) := by
  intro hmem
  obtain ⟨-, h⟩ := ite_error_eq_ok.mp h
  cases hfound : dangerousKeywords.find? fun keyword =>
      keyword <:+: trimSpace (toUpper upper query) with
  | some found => rw [hfound] at h; cases h
  | none => exact absurd (decide_eq_true hmem) (find?_eq_none.mp hfound keyword hkeyword)

/-- In an accepted query no verb is followed by a character the check looks for. -/
theorem not_checked_of_accepted {query : Bytes} (h : validateReadOnlyQuery upper query = .ok ())
    {v : Token} (hv : v.text ++ v.rest <:+ query ++ closing) : ¬ Checked upper v := by
  rintro ⟨separator, tail, hrest, hkeyword, htail⟩
  refine not_mem_of_accepted h hkeyword ?_
  obtain ⟨hascii, hstart⟩ := dangerousKeywords_spec _ hkeyword
  obtain ⟨before, hbefore⟩ := hv
  have hquery : query = before ++ ((v.text ++ [separator]) ++ tail) := by
    rw [hrest] at hbefore
    refine (append_left_inj closing).mp ?_
    rw [← hbefore]
    simp
  have htext : ∀ b ∈ v.text ++ [separator], b.toNat < 0x80 := by
    intro b hb
    rcases mem_append.mp hb with hb | hb
    · exact ascii_of_upperByte b
        (hascii _ (mem_append.mpr (.inl (mem_map_of_mem hb)))).1
    · exact (hascii b (mem_append.mpr (.inr hb))).1
  have hupper : (v.text ++ [separator]).map upperByte = v.word ++ [separator] := by
    have hseparator := (hascii separator (mem_append.mpr (.inr mem_cons_self))).2
    rw [map_append, map_singleton, hseparator]
    rfl
  have htoUpper : toUpper upper query =
      toUpper upper before ++ ((v.word ++ [separator]) ++ toUpper upper tail) := by
    obtain ⟨first, more, hfirst⟩ := exists_cons_of_ne_nil
      (append_ne_nil_of_right_ne_nil v.text (cons_ne_nil separator []))
    rw [hquery, hfirst, cons_append, toUpper_append_ascii before
      (htext first (hfirst ▸ mem_cons_self)),
      ← cons_append, ← hfirst, toUpper_ascii_append htext, hupper]
  rw [htoUpper]
  obtain ⟨first, more, hfirst⟩ := exists_cons_of_ne_nil
    (append_ne_nil_of_right_ne_nil v.word (cons_ne_nil separator []))
  rw [hfirst] at hascii hstart ⊢
  exact mem_trimSpace _ (fun b hb => (hascii b hb).1) (hstart first rfl) htail

end Check

/-! ## The console -/

namespace Simple

def isBlank (b : UInt8) : Bool := b = 0x20 || (0x09 ≤ b && b ≤ 0x0D)

def writeWords : List Bytes :=
  [ascii "INSERT", ascii "UPDATE", ascii "DELETE", ascii "COPY", ascii "CREATE", ascii "ALTER",
    ascii "DROP", ascii "TRUNCATE"]

def controlWords : List Bytes :=
  [ascii "BEGIN", ascii "START", ascii "SET", ascii "COMMIT", ascii "ROLLBACK"]

/-- The statement that starts here after white space, told by its first word. -/
def statement (text : Bytes) : Option Statement :=
  let start := text.dropWhile isBlank
  let verb : Token := ⟨start.takeWhile isAlnum, start.dropWhile isAlnum⟩
  if start = [] then none
  else
    some ⟨start, if verb.word ∈ writeWords then [verb] else [], verb.word ∈ controlWords, false⟩

/-- The texts after each semicolon. -/
def afterSemicolons : Bytes → List Bytes
  | [] => []
  | b :: rest => if b = 0x3B then rest :: afterSemicolons rest else afterSemicolons rest

def statements (text : Bytes) : List Statement :=
  (text :: afterSemicolons text).filterMap statement

/-- Where a connection is: before, in or behind the transaction of the wrapper. -/
inductive Phase
  | before
  | inside
  | behind
  deriving DecidableEq

def step (phase : Phase) (st : Statement) : Phase :=
  match phase with
  | .before =>
    if ascii "BEGIN" <+: st.start ∨ ascii "START" <+: st.start then .inside else .before
  | .inside => if st.control then .behind else .inside
  | .behind => .behind

theorem afterSemicolons_suffix {text rest : Bytes} (h : rest ∈ afterSemicolons text) :
    rest <:+ text := by
  fun_induction afterSemicolons text with
  | case1 => cases h
  | case2 tail ih =>
    rcases mem_cons.mp h with rfl | h
    · exact suffix_cons _ _
    · exact (ih h).trans (suffix_cons _ _)
  | case3 b tail hb ih => exact (ih h).trans (suffix_cons _ _)

theorem statement_located {text : Bytes} {st : Statement} (h : statement (0x20 :: text) = some st ∨
    statement text = some st) : ∀ v ∈ st.writes, v.text ++ v.rest <:+ text := by
  have hstatement : statement text = some st := h.elim id id
  intro v hv
  dsimp only [statement] at hstatement
  split_ifs at hstatement with hempty hwrite
  · rw [← Option.some.inj hstatement] at hv
    rw [mem_singleton.mp hv, takeWhile_append_dropWhile]
    exact dropWhile_suffix _
  · rw [← Option.some.inj hstatement] at hv
    cases hv

/-- The wrapper and what follows it. -/
theorem statements_opening (e : Engine) (text : Bytes) :
    ∃ first, first.length = e.openingCount ∧ first.foldl step .before = .inside ∧
      statements (e.opening ++ text) =
        first ++ ((0x20 :: text) :: afterSemicolons text).filterMap statement := by
  cases e with
  | postgres =>
    have hopening : Engine.postgres.opening = [0x42, 0x45, 0x47, 0x49, 0x4E, 0x20, 0x52, 0x45, 0x41,
        0x44, 0x20, 0x4F, 0x4E, 0x4C, 0x59, 0x3B, 0x20] := by decide
    rw [hopening]
    exact ⟨[_], rfl, rfl, rfl⟩
  | mariaDB =>
    have hopening : Engine.mariaDB.opening = [0x53, 0x45, 0x54, 0x20, 0x54, 0x52, 0x41, 0x4E, 0x53,
        0x41, 0x43, 0x54, 0x49, 0x4F, 0x4E, 0x20, 0x52, 0x45, 0x41, 0x44, 0x20, 0x4F, 0x4E, 0x4C,
          0x59,
        0x3B, 0x20, 0x53, 0x54, 0x41, 0x52, 0x54, 0x20, 0x54, 0x52, 0x41, 0x4E, 0x53, 0x41, 0x43,
          0x54,
        0x49, 0x4F, 0x4E, 0x3B, 0x20] := by decide
    rw [hopening]
    exact ⟨[_, _], rfl, rfl, rfl⟩

/-- A server that splits at every semicolon and tells a statement by its first word, as the
servers do for scripts without literals and comments. -/
@[reducible] def server (e : Engine) : Server e where
  statements := statements
  Session := Phase
  fresh := .before
  step := step
  InWrapper phase := phase = .inside
  opens text _ := by
    obtain ⟨first, hlength, hfirst, hstatements⟩ := statements_opening e text
    rw [hstatements, take_left' hlength]
    exact hfirst
  located text st hst := by
    obtain ⟨first, hlength, -, hstatements⟩ := statements_opening e text
    rw [hstatements, drop_left' hlength] at hst
    obtain ⟨start, hstart, hst⟩ := mem_filterMap.mp hst
    rcases mem_cons.mp hstart with rfl | hstart
    · exact statement_located (.inl hst)
    · exact fun v hv => (statement_located (.inr hst) v hv).trans (afterSemicolons_suffix hstart)
  keeps s st hs hcontrol _ := by
    rw [hs, step, hcontrol]
    rfl

end Simple

end HeyServer.Database

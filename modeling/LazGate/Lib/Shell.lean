import Mathlib

/-!
# Words of a shell command

How a POSIX shell breaks a command into tokens, character by character. An operator of several
characters is noted by its characters, an expansion by the character that begins it.
-/

namespace Shell

/-- A character of a word: it stands for itself, or it is not quoted and open to what the shell does
with words, or it begins an expansion. -/
inductive Piece where
  | quoted (c : Char)
  | bare (c : Char)
  | expansion (c : Char)
  deriving DecidableEq

inductive Token where
  | word (w : List Piece)
  | operator (c : Char)
  deriving DecidableEq

inductive Mode where
  | plain
  | escaped
  | single
  | double
  | doubleEscaped
  | comment
  deriving DecidableEq

/-- The tokens read so far, and the word that is under way. -/
structure State where
  mode : Mode
  current : Option (List Piece)
  tokens : List Token
  deriving DecidableEq

namespace State

/-- More of the current word; with no pieces only the quotes have been seen. -/
def extend (st : State) (mode : Mode) (ps : List Piece) : State :=
  { st with mode := mode, current := some (st.current.getD [] ++ ps) }

/-- The end of the current word. -/
def flush (st : State) : State :=
  { st with current := none, tokens := st.tokens ++ (st.current.map Token.word).toList }

def operator (st : State) (c : Char) : State :=
  { st.flush with mode := .plain, tokens := st.flush.tokens ++ [.operator c] }

end State

def isBlank (c : Char) : Bool := c == ' ' || c == '\t'

def isOperator (c : Char) : Bool := "|&;<>()\n".toList.contains c

def isExpansion (c : Char) : Bool := c == '$' || c == '\x60'

def step (st : State) (c : Char) : State :=
  match st.mode with
  | .plain =>
    if isBlank c then st.flush
    else if isOperator c then st.operator c
    else if c = '\x27' then st.extend .single []
    else if c = '\x22' then st.extend .double []
    else if c = '\\' then { st with mode := .escaped }
    else if c = '#' ∧ st.current = none then { st with mode := .comment }
    else st.extend .plain [if isExpansion c then .expansion c else .bare c]
  | .escaped =>
    -- a backslash and the end of the line join two lines
    if c = '\n' then { st with mode := .plain } else st.extend .plain [.quoted c]
  | .single => if c = '\x27' then st.extend .plain [] else st.extend .single [.quoted c]
  | .double =>
    if c = '\x22' then st.extend .plain []
    else if c = '\\' then { st with mode := .doubleEscaped }
    else st.extend .double [if isExpansion c then .expansion c else .quoted c]
  | .doubleEscaped =>
    if c = '\n' then { st with mode := .double }
    else if isExpansion c || c == '\x22' || c == '\\' then st.extend .double [.quoted c]
    else st.extend .double [.quoted '\\', .quoted c]
  | .comment => if c = '\n' then st.operator c else st

def scan (st : State) (cs : List Char) : State := cs.foldl step st

variable {st : State}

theorem scan_append (cs cs' : List Char) : scan st (cs ++ cs') = scan (scan st cs) cs' :=
  List.foldl_append

/-- A blank or an operator ends the word before it. -/
theorem step_flush {c : Char} (hmode : st.mode = .plain)
    (hc : isBlank c = true ∨ isOperator c = true) : step st.flush c = step st c := by
  by_cases hblank : isBlank c = true
  · simp [step, hmode, hblank, State.flush]
  · simp [step, hmode, hblank, hc.resolve_left hblank, State.flush, State.operator]

/-- A text in single quotes, with each single quote in it between double ones. -/
def singleQuoted (s : List Char) : List Char :=
  '\x27' :: (s.flatMap fun c => if c = '\x27' then "\x27\x22\x27\x22\x27".toList else [c]) ++
    ['\x27']

theorem scan_within_quotes (s : List Char) (w : List Piece) (tokens : List Token) :
    scan ⟨.single, some w, tokens⟩
        (s.flatMap fun c => if c = '\x27' then "\x27\x22\x27\x22\x27".toList else [c]) =
      ⟨.single, some (w ++ s.map .quoted), tokens⟩ := by
  induction s generalizing w with
  | nil => simp [scan]
  | cons c s ih =>
    have hchar : scan ⟨.single, some w, tokens⟩
        (if c = '\x27' then "\x27\x22\x27\x22\x27".toList else [c]) =
          ⟨.single, some (w ++ [.quoted c]), tokens⟩ := by
      split
      · -- the quotes are closed, the character is put in double ones, and new quotes are opened
        rename_i hc
        subst hc
        simp [scan, step, State.extend, isBlank, isOperator, isExpansion]
      · rename_i hc
        simp [scan, step, State.extend, hc]
    rw [List.flatMap_cons, scan_append, hchar, ih]
    simp

/-- A text in quotes is read as its characters, each standing for itself. -/
theorem scan_singleQuoted (hmode : st.mode = .plain) (s : List Char) :
    scan st (singleQuoted s) = st.extend .plain (s.map .quoted) := by
  have hopen (cs : List Char) : scan st ('\x27' :: cs) =
      scan ⟨.single, some (st.current.getD []), st.tokens⟩ cs := by
    simp [scan, step, hmode, State.extend, isBlank, isOperator]
  rw [singleQuoted, scan_append, hopen, scan_within_quotes]
  simp [scan, step, State.extend]

end Shell

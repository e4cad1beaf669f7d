import Mathlib

/-!
# Text helpers

The functions of Go's `strings`, `unicode`, `encoding/json` and `net/url` packages that the code
uses, and the redaction of error texts.
-/

namespace LazGate

variable {c : Char}

theorem mem_of_mem_intercalate {sep : List Char} :
    ∀ {l : List (List Char)}, c ∈ sep.intercalate l → c ∈ sep ∨ ∃ part ∈ l, c ∈ part
  | [], h => by simp [List.intercalate] at h
  | [a], h => by
    simp only [List.intercalate, List.intersperse, List.flatten_cons, List.flatten_nil,
      List.append_nil] at h
    exact .inr ⟨a, List.mem_singleton_self a, h⟩
  | a :: b :: l, h => by
    have hcons : sep.intercalate (a :: b :: l) = a ++ (sep ++ sep.intercalate (b :: l)) := by
      simp [List.intercalate, List.intersperse]
    rw [hcons, List.mem_append, List.mem_append] at h
    rcases h with h | h | h
    · exact .inr ⟨a, List.mem_cons_self .., h⟩
    · exact .inl h
    · rcases mem_of_mem_intercalate h with h | ⟨part, hpart, h⟩
      · exact .inl h
      · exact .inr ⟨part, List.mem_cons_of_mem a hpart, h⟩

theorem mem_of_splitOn (sep : Char) {cs : List Char} (h : c ∈ cs) :
    c = sep ∨ ∃ part ∈ cs.splitOn sep, c ∈ part := by
  have hjoin : [sep].intercalate (cs.splitOn sep) = cs := List.intercalate_splitOn sep
  rw [← hjoin] at h
  rcases mem_of_mem_intercalate h with h | h
  · exact .inl (List.mem_singleton.1 h)
  · exact .inr h

/-- White space in the sense of `unicode.IsSpace`. -/
def isSpace (c : Char) : Bool :=
  c.val ∈ [0x09, 0x0a, 0x0b, 0x0c, 0x0d, 0x20, 0x85, 0xa0, 0x1680, 0x2028, 0x2029, 0x202f,
    0x205f, 0x3000] || (0x2000 ≤ c.val && c.val ≤ 0x200a)

theorem isSpace_of_isDigit (h : c.isDigit = true) : isSpace c = false := by
  have hrange : 48 ≤ c.val ∧ c.val ≤ 57 := by simpa [Char.isDigit] using h
  rw [Bool.eq_false_iff]
  intro hspace
  simp only [isSpace, List.mem_cons, List.not_mem_nil, or_false, Bool.or_eq_true,
    decide_eq_true_eq, Bool.and_eq_true, UInt32.le_iff_toNat_le, ← UInt32.toNat_inj,
    UInt32.reduceToNat] at hspace hrange
  omega

/-- `strings.TrimSpace`. -/
def trimSpace (s : String) : String :=
  String.ofList ((s.toList.dropWhile isSpace).rdropWhile isSpace)

theorem dropWhile_rdropWhile {α : Type} (p : α → Bool) (l : List α) (h : l.dropWhile p = l) :
    (l.rdropWhile p).dropWhile p = l.rdropWhile p := by
  rw [List.dropWhile_eq_self_iff] at h ⊢
  intro hl
  have hpre := List.rdropWhile_prefix p (l := l)
  rw [hpre.getElem hl]
  exact h (hl.trans_le hpre.length_le)

variable {s : String}

theorem mem_of_mem_trimSpace (h : c ∈ (trimSpace s).toList) : c ∈ s.toList := by
  rw [trimSpace, String.toList_ofList] at h
  exact (List.dropWhile_suffix isSpace).subset ((List.rdropWhile_prefix isSpace _).subset h)

theorem trimSpace_eq_of_length (h : (trimSpace s).toList.length = s.toList.length) :
    trimSpace s = s := by
  have hsub : ((s.toList.dropWhile isSpace).rdropWhile isSpace).Sublist s.toList :=
    (List.rdropWhile_prefix isSpace _).sublist.trans (List.dropWhile_suffix isSpace).sublist
  rw [trimSpace, String.toList_ofList] at h
  rw [trimSpace, hsub.eq_of_length h, String.ofList_toList]

theorem trimSpace_of_forall (h : ∀ c ∈ s.toList, isSpace c = false) : trimSpace s = s := by
  have hfront : s.toList.dropWhile isSpace = s.toList := by
    rw [List.dropWhile_eq_self_iff]
    intro hl
    simp [h _ (List.getElem_mem hl)]
  have hend : s.toList.rdropWhile isSpace = s.toList := by
    rw [List.rdropWhile_eq_self_iff]
    intro hl
    simp [h _ (List.getLast_mem hl)]
  rw [trimSpace, hfront, hend, String.ofList_toList]

theorem isSpace_of_trimSpace_eq (h : trimSpace s = "") : ∀ c ∈ s.toList, isSpace c = true := by
  have hnil : (s.toList.dropWhile isSpace).rdropWhile isSpace = [] := by
    rw [trimSpace] at h
    simpa using congrArg String.toList h
  have hall := List.rdropWhile_eq_nil_iff.1 hnil
  intro c hc
  by_cases hdrop : c ∈ s.toList.dropWhile isSpace
  · exact hall c hdrop
  · have hsplit : c ∈ s.toList.takeWhile isSpace ++ s.toList.dropWhile isSpace := by
      rwa [List.takeWhile_append_dropWhile]
    exact List.mem_takeWhile_imp ((List.mem_append.1 hsplit).resolve_right hdrop)

@[simp] theorem trimSpace_idem (s : String) : trimSpace (trimSpace s) = trimSpace s := by
  have h := dropWhile_rdropWhile isSpace _ (List.dropWhile_idempotent isSpace s.toList)
  simp only [trimSpace, String.toList_ofList]
  rw [h, List.rdropWhile_idempotent]

/-- The lower case of a letter. Two ASCII letters have a third form besides the upper case. -/
def foldCase (c : Char) : Char :=
  if c.val = 0x212a then 'k' else if c.val = 0x17f then 's' else c.toLower

/-- `strings.EqualFold` against an ASCII text. -/
def equalFold (s t : String) : Bool := s.toList.map foldCase == t.toList.map foldCase

/-- `strconv.Atoi`, without the bounds of a machine integer. -/
def atoi (s : String) : Option ℤ :=
  match s.toList with
  | '-' :: ds => (digits ds).map fun n => -(n : ℤ)
  | '+' :: ds | ds => (digits ds).map Int.ofNat
where
  digits (ds : List Char) : Option ℕ :=
    if ds.isEmpty || !ds.all Char.isDigit then none
    else some (ds.foldl (fun n c => 10 * n + (c.toNat - '0'.toNat)) 0)

variable {ds : List Char}

theorem isDigit_of_digits {n : ℕ} (h : atoi.digits ds = some n) :
    ds ≠ [] ∧ ∀ c ∈ ds, c.isDigit = true := by
  unfold atoi.digits at h
  split at h
  · cases h
  · next hds => simpa using hds

/-- A character of the class `[A-Za-z0-9+/]`. -/
def isBase64 (c : Char) : Bool := c.isAlphanum || c == '+' || c == '/'

/-- The replacement of every leftmost longest match of `[A-Za-z0-9+/]{20,}={0,2}`
by `[redacted]`. `run` holds the base64 characters read last, in reverse; `pad` counts the
padding characters that may still be swallowed after a match. -/
def redact : List Char → List Char → ℕ → List Char
  | [], run, _ => if 20 ≤ run.length then "[redacted]".toList else run.reverse
  | c :: cs, run, pad =>
    if isBase64 c then redact cs (c :: run) 0
    else if 20 ≤ run.length then
      "[redacted]".toList ++ (if c == '=' then redact cs [] 1 else c :: redact cs [] 0)
    else if 0 < pad && c == '=' then redact cs [] 0
    else run.reverse ++ c :: redact cs [] 0

/-- `sanitize` of the reconciler: secrets are redacted and the text is put on one line. -/
def sanitize (message : String) : String :=
  String.ofList ((redact message.toList [] 0).map fun c => if c = '\n' then ' ' else c)

example : sanitize "psk AAAAAAAAAAAAAAAAAAAAAAAAAAAAAAAAAAAAAAAAAAA=\nrefused" =
    "psk [redacted] refused" := by decide

/-- A character as `encoding/json` writes it inside a text. -/
def jsonChar (c : Char) : List Char :=
  if c = '"' then ['\\', '"']
  else if c = '\\' then ['\\', '\\']
  else if c = '\n' then ['\\', 'n']
  else if c = '\r' then ['\\', 'r']
  else if c = '\t' then ['\\', 't']
  else if c = '\x08' then ['\\', 'b']
  else if c = '\x0c' then ['\\', 'f']
  else if c.val < 0x20 ∨ c = '<' ∨ c = '>' ∨ c = '&' ∨ c.val = 0x2028 ∨ c.val = 0x2029 then
    let digits := Nat.toDigits 16 c.toNat
    '\\' :: 'u' :: (List.replicate (4 - digits.length) '0' ++ digits)
  else [c]

def jsonText (s : String) : List Char := '"' :: s.toList.flatMap jsonChar ++ ['"']

example : String.ofList (jsonText "a<\\") = "\"a\\u003c\\\\\"" := by decide

/-- A byte as `url.QueryEscape` writes it. -/
def queryEscapeByte (b : UInt8) : List Char :=
  let c := Char.ofNat b.toNat
  if c.isAlphanum || c == '-' || c == '_' || c == '.' || c == '~' then [c]
  else if c == ' ' then ['+']
  else ['%', (Nat.digitChar (b.toNat / 16)).toUpper, (Nat.digitChar (b.toNat % 16)).toUpper]

/-- `url.QueryEscape`. -/
def queryEscape (s : String) : String :=
  String.ofList (s.toList.flatMap fun c => (String.utf8EncodeChar c).flatMap queryEscapeByte)

example : queryEscape "a:b é" = "a%3Ab+%C3%A9" := by decide +kernel

end LazGate

import LazGate.Lib.Table
import LazGate.Text

/-!
# AmneziaWG parameters

Package `awgconfig`: ranges of numbers, the headers, the signature packets and the timings, with
the checks that the server and the agent share; and the length of a base64 key.
-/

namespace LazGate.Awgconfig

def timingNames : List String :=
  ["RekeyAfterTime", "RekeyTimeout", "RejectAfterTime", "KeepaliveTimeout",
    "MaxHandshakeAttempts"]

def formatBool (value : Bool) : String := if value then "on" else "off"

/-! ## Ranges -/

/-- `strconv.ParseUint` for a number of the given bits. -/
def parseUint (bits : ℕ) (cs : List Char) : Option ℕ := (atoi.digits cs).filter (· < 2 ^ bits)

/-- `Range`: a number, or two with a hyphen between them. -/
def range (value : String) : Except String (ℕ × ℕ) :=
  let digits := fun cs : List Char => !cs.isEmpty && cs.all Char.isDigit
  match value.toList.splitOn '-' with
  | [a] =>
    if digits a then
      match parseUint 32 a with
      | some a => .ok (a, a)
      | none => .error "invalid uint32 range"
    else .error "expected uint32 or uint32 range"
  | [a, b] =>
    if digits a && digits b then
      match parseUint 32 a, parseUint 32 b with
      | some a, some b => if b < a then .error "invalid uint32 range" else .ok (a, b)
      | _, _ => .error "invalid uint32 range"
    else .error "expected uint32 or uint32 range"
  | _ => .error "expected uint32 or uint32 range"

def offOrRange (value : String) : Bool :=
  value == "" || value == "(off)" ||
    match range value with
    | .ok (_, high) => high ≤ 65535
    | .error _ => false

/-! ## Signature packets -/

/-- A tag of a signature packet: `<b 0x…>` with the number of its digits, a run of random bytes
with the text of its length, or `<t>`. -/
inductive CPSTag where
  | bytes (digits : ℕ)
  | random (length : List Char)
  | time

def isHexDigit (c : Char) : Bool :=
  c.isDigit || ('a' ≤ c && c ≤ 'f') || ('A' ≤ c && c ≤ 'F')

/-- Characters of one kind, at least one, and a closing bracket: they and what follows. -/
def untilBracket (kind : Char → Bool) (cs : List Char) : Option (List Char × List Char) :=
  match cs.takeWhile kind, cs.dropWhile kind with
  | [], _ => none
  | run, '>' :: rest => some (run, rest)
  | _, _ => none

/-- A match of `cpsPattern` at the front, and what follows it. -/
def cpsTag (cs : List Char) : Option (CPSTag × List Char) :=
  match cs with
  | '<' :: 'b' :: ' ' :: '0' :: 'x' :: rest =>
    (untilBracket isHexDigit rest).map fun (run, rest) => (.bytes run.length, rest)
  | '<' :: 'r' :: ' ' :: rest
  | '<' :: 'r' :: 'c' :: ' ' :: rest
  | '<' :: 'r' :: 'd' :: ' ' :: rest =>
    (untilBracket Char.isDigit rest).map fun (run, rest) => (.random run, rest)
  | '<' :: 't' :: '>' :: rest => some (.time, rest)
  | _ => none

/-- The tags of a text, each with the text before it, and the text after the last. -/
def cpsTags : ℕ → List Char → List (List Char × CPSTag) × List Char
  | 0, cs => ([], cs)
  | _ + 1, [] => ([], [])
  | fuel + 1, c :: cs =>
    match cpsTag (c :: cs) with
    | some (tag, rest) =>
      let (tags, tail) := cpsTags fuel rest
      (([], tag) :: tags, tail)
    | none =>
      match cpsTags fuel cs with
      | ([], tail) => ([], c :: tail)
      | ((gap, tag) :: tags, tail) => ((c :: gap, tag) :: tags, tail)

/-- The bytes that a tag stands for. -/
def CPSTag.size : CPSTag → Except String ℕ
  | .bytes digits =>
    if digits % 2 ≠ 0 then .error "CPS hex must contain whole bytes" else .ok (digits / 2)
  | .random length =>
    match parseUint 16 length with
    | some n => if n = 0 then .error "invalid CPS random length" else .ok n
    | none => .error "invalid CPS random length"
  | .time => .ok 4

/-- The loop over the tags, with the size so far. -/
def checkTags : ℕ → List (List Char × CPSTag) → Except String Unit
  | _, [] => .ok ()
  | size, (gap, tag) :: rest =>
    if trimSpace (String.ofList gap) ≠ "" then .error "invalid CPS tag"
    else do
      let n ← tag.size
      if 65507 < size + n then .error "CPS exceeds maximum UDP payload"
      else checkTags (size + n) rest

def validateCPS (value : String) : Except String Unit :=
  if value.toList.any (· ∈ ['\r', '\n', '\x00']) then .error "CPS must be a single line"
  else if value = "" then .ok ()
  else if 150000 < value.utf8ByteSize then .error "CPS string is too long"
  else
    let (tags, tail) := cpsTags value.toList.length value.toList
    do
      checkTags 0 tags
      if tags.isEmpty || trimSpace (String.ofList tail) ≠ "" then .error "invalid CPS syntax"
      else .ok ()

example : validateCPS "<b 0xf6ab> <r 16>" = .ok () := by decide +kernel

/-! ## The parameters together -/

/-- The headers, after those whose ranges are `seen`: no two overlap. -/
def validateHeaders : List (ℕ × ℕ) → List String → Except String Unit
  | _, [] => .ok ()
  | seen, value :: rest => do
    let name := "H" ++ toString (seen.length + 1)
    let (a, b) ← (range value).mapError fun e => name ++ ": " ++ e
    match seen.findIdx? fun r => a ≤ r.2 && r.1 ≤ b with
    | some j => .error (name ++ " overlaps H" ++ toString (j + 1))
    | none => validateHeaders (seen ++ [(a, b)]) rest

def validateTimings : List (String × String) → Except String Unit
  | [] => .ok ()
  | (key, value) :: rest =>
    if key ∉ timingNames then .error "unknown timing parameter"
    else if offOrRange value then validateTimings rest
    else .error (key ++ " must be in 0..65535")

/-- The signature packets from the `n`-th on. -/
def validateSignatures : ℕ → List String → Except String Unit
  | _, [] => .ok ()
  | n, value :: rest => do
    (validateCPS value).mapError fun e => "I" ++ toString n ++ ": " ++ e
    validateSignatures (n + 1) rest

/-- `Validate`. The source walks through the timings in no fixed order. -/
def validate (headers signatures : List String) (padding : String)
    (timings : List (String × String)) : Except String Unit := do
  validateHeaders [] headers
  if !offOrRange padding then .error "ContentPaddingAddition must be in 0..65535"
  else
    validateTimings timings
    validateSignatures 1 signatures

/-! ## Keys -/

/-- The number of bytes that `base64.StdEncoding.DecodeString` gives for text without the line
breaks that it skips. -/
def base64Length : List Char → Option ℕ
  | [] => some 0
  | [a, b, '=', '='] => if isBase64 a && isBase64 b then some 1 else none
  | [a, b, c, '='] => if isBase64 a && isBase64 b && isBase64 c then some 2 else none
  | a :: b :: c :: d :: rest =>
    if isBase64 a && isBase64 b && isBase64 c && isBase64 d then (base64Length rest).map (· + 3)
    else none
  | _ => none

/-- `base64.StdEncoding.DecodeString` gives a key of 32 bytes. Line breaks inside are skipped. -/
def isKey (s : String) : Bool := base64Length (s.toList.filter (· ∉ ['\r', '\n'])) == some 32

/-! ## What the checks say about the texts -/

variable {value : String}

theorem mem_range {r : ℕ × ℕ} (h : range value = .ok r) {c : Char} (hc : c ∈ value.toList) :
    c.isDigit = true ∨ c = '-' := by
  have hparts : ∀ part ∈ value.toList.splitOn '-', ∀ c ∈ part, c.isDigit = true := by
    unfold range at h
    simp only at h
    split at h
    · next a ha =>
      split at h
      · next hdigits =>
        rw [ha]
        simpa using fun c hc => List.all_eq_true.1 (Bool.and_eq_true_iff.1 hdigits).2 c hc
      · cases h
    · next a b hab =>
      split at h
      · next hdigits =>
        rw [hab]
        simp only [Bool.and_eq_true] at hdigits
        simp only [List.mem_cons, List.not_mem_nil, or_false, forall_eq_or_imp, forall_eq]
        exact ⟨fun c hc => List.all_eq_true.1 hdigits.1.2 c hc,
          fun c hc => List.all_eq_true.1 hdigits.2.2 c hc⟩
      · cases h
    · cases h
  rcases mem_of_splitOn _ hc with hsep | ⟨part, hpart, hc⟩
  · exact .inr hsep
  · exact .inl (hparts part hpart c hc)

theorem newline_not_mem_offOrRange (h : offOrRange value = true) : '\n' ∉ value.toList := by
  intro hmem
  simp only [offOrRange, Bool.or_eq_true, beq_iff_eq] at h
  rcases h with (rfl | rfl) | h
  · exact absurd hmem (by decide)
  · exact absurd hmem (by decide)
  · cases hr : range value with
    | error e => rw [hr] at h; cases h
    | ok r =>
      rcases mem_range hr hmem with hdigit | heq
      · exact absurd hdigit (by decide)
      · exact absurd heq (by decide)

variable {cs : List Char}

theorem untilBracket_eq {kind : Char → Bool} {run rest : List Char}
    (h : untilBracket kind cs = some (run, rest)) : cs = run ++ '>' :: rest := by
  have hsplit : cs.takeWhile kind ++ cs.dropWhile kind = cs := List.takeWhile_append_dropWhile
  unfold untilBracket at h
  cases htake : cs.takeWhile kind with
  | nil => simp [htake] at h
  | cons a l =>
    cases hdrop : cs.dropWhile kind with
    | nil => simp [htake, hdrop] at h
    | cons b r =>
      by_cases hb : b = '>'
      · subst hb
        simp only [htake, hdrop, Option.some.injEq, Prod.mk.injEq] at h
        rw [← h.1, ← h.2, ← htake, ← hdrop, hsplit]
      · simp [htake, hdrop, hb] at h

theorem cpsTag_eq {tag : CPSTag} {rest : List Char} (h : cpsTag cs = some (tag, rest)) :
    ∃ text, cs = text ++ '>' :: rest := by
  unfold cpsTag at h
  split at h
  · obtain ⟨⟨run, r⟩, hrun, heq⟩ := Option.map_eq_some_iff.1 h
    cases heq
    exact ⟨['<', 'b', ' ', '0', 'x'] ++ run, by rw [untilBracket_eq hrun]; rfl⟩
  · obtain ⟨⟨run, r⟩, hrun, heq⟩ := Option.map_eq_some_iff.1 h
    cases heq
    exact ⟨['<', 'r', ' '] ++ run, by rw [untilBracket_eq hrun]; rfl⟩
  · obtain ⟨⟨run, r⟩, hrun, heq⟩ := Option.map_eq_some_iff.1 h
    cases heq
    exact ⟨['<', 'r', 'c', ' '] ++ run, by rw [untilBracket_eq hrun]; rfl⟩
  · obtain ⟨⟨run, r⟩, hrun, heq⟩ := Option.map_eq_some_iff.1 h
    cases heq
    exact ⟨['<', 'r', 'd', ' '] ++ run, by rw [untilBracket_eq hrun]; rfl⟩
  · cases h
    exact ⟨['<', 't'], rfl⟩
  · cases h

variable {tail : List Char}

theorem cpsTags_nil {fuel : ℕ} (h : cpsTags fuel cs = ([], tail)) :
    tail = cs := by
  induction fuel generalizing cs tail with
  | zero => exact (congrArg Prod.snd h).symm
  | succ fuel ih =>
    cases cs with
    | nil => exact (congrArg Prod.snd h).symm
    | cons c cs =>
      unfold cpsTags at h
      cases htag : cpsTag (c :: cs) with
      | some found => simp [htag] at h
      | none =>
        simp only [htag] at h
        cases hrest : cpsTags fuel cs with
        | mk tags' tail' =>
          simp only [hrest] at h
          cases tags' with
          | nil =>
            rw [← ih hrest]
            exact (congrArg Prod.snd h).symm
          | cons t ts => simp at h

/-- After the last tag only the tail is left. -/
theorem cpsTags_tail {fuel : ℕ} {tags : List (List Char × CPSTag)}
    (h : cpsTags fuel cs = (tags, tail)) (hne : tags ≠ []) :
    ∃ text, cs = text ++ '>' :: tail := by
  induction fuel generalizing cs tags tail with
  | zero =>
    cases h
    exact absurd rfl hne
  | succ fuel ih =>
    cases cs with
    | nil =>
      cases h
      exact absurd rfl hne
    | cons c cs =>
      unfold cpsTags at h
      cases htag : cpsTag (c :: cs) with
      | some found =>
        obtain ⟨tag, rest⟩ := found
        simp only [htag] at h
        cases hrest : cpsTags fuel rest with
        | mk tags' tail' =>
          simp only [hrest, Prod.mk.injEq] at h
          obtain ⟨-, rfl⟩ := h
          obtain ⟨text, htext⟩ := cpsTag_eq htag
          cases tags' with
          | nil => exact ⟨text, by rw [htext, cpsTags_nil hrest]⟩
          | cons t ts =>
            obtain ⟨text', htext'⟩ := ih hrest (by simp)
            exact ⟨text ++ '>' :: text', by rw [htext, htext']; simp⟩
      | none =>
        simp only [htag] at h
        cases hrest : cpsTags fuel cs with
        | mk tags' tail' =>
          simp only [hrest] at h
          cases tags' with
          | nil =>
            cases h
            exact absurd rfl hne
          | cons t ts =>
            cases h
            obtain ⟨text, htext⟩ := ih hrest (by simp)
            exact ⟨c :: text, by rw [htext]; rfl⟩

theorem newline_not_mem_of_validateCPS (h : validateCPS value = .ok ()) : '\n' ∉ value.toList := by
  intro hmem
  have hany : value.toList.any (· ∈ ['\r', '\n', '\x00']) = true :=
    List.any_eq_true.2 ⟨'\n', hmem, by decide⟩
  rw [validateCPS, if_pos hany] at h
  cases h

theorem validateCPS_tail (h : validateCPS value = .ok ()) (hne : value ≠ "") :
    ∃ text tail, value.toList = text ++ '>' :: tail ∧ ∀ c ∈ tail, isSpace c = true := by
  unfold validateCPS at h
  split at h
  · cases h
  split at h
  · cases h
  cases htags : cpsTags value.toList.length value.toList with
  | mk tags tail =>
    simp only [htags] at h
    obtain ⟨_, -, h⟩ := Except.bind_eq_ok.1 h
    split at h
    · cases h
    · next hsyntax =>
      simp only [Bool.or_eq_true, List.isEmpty_iff, decide_eq_true_eq, not_or, ne_eq,
        Decidable.not_not] at hsyntax
      obtain ⟨text, htext⟩ := cpsTags_tail htags hsyntax.1
      refine ⟨text, tail, htext, ?_⟩
      simpa using isSpace_of_trimSpace_eq hsyntax.2

end LazGate.Awgconfig

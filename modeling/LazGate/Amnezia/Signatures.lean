import LazGate.Amnezia.Parameters

/-!
# What the parameter checks accept

`ValidateCPS` looks for tags with a regular expression and checks the text between the matches;
`Validate` compares the ranges of the headers one after the other. Both accept a grammar.
-/

namespace LazGate.Awgconfig

/-! ## The grammar -/

/-- The words for random bytes: any, letters, digits. -/
inductive RandomWord where
  | r
  | rc
  | rd
  deriving DecidableEq

def RandomWord.text : RandomWord → List Char
  | r => ['r']
  | rc => ['r', 'c']
  | rd => ['r', 'd']

inductive Tag where
  | bytes (digits : List Char)
  | random (word : RandomWord) (length : List Char)
  | time
  deriving DecidableEq

namespace Tag

def text : Tag → List Char
  | bytes digits => '<' :: 'b' :: ' ' :: '0' :: 'x' :: (digits ++ ['>'])
  | random word length => '<' :: (word.text ++ ' ' :: (length ++ ['>']))
  | time => ['<', 't', '>']

def size : Tag → ℕ
  | bytes digits => digits.length / 2
  | random _ length => Nat.ofDigitChars 10 length 0
  | time => 4

/-- What the pattern matches. -/
def Shaped : Tag → Prop
  | bytes digits => digits ≠ [] ∧ ∀ c ∈ digits, isHexDigit c = true
  | random _ length => length ≠ [] ∧ ∀ c ∈ length, c.isDigit = true
  | time => True

def Measured : Tag → Prop
  | bytes digits => Even digits.length
  | random word length => 1 ≤ (random word length).size ∧ (random word length).size ≤ 65535
  | time => True

/-- The tag as the model of the loop has it. -/
def found : Tag → CPSTag
  | bytes digits => .bytes digits.length
  | random _ length => .random length
  | time => .time

end Tag

def spell : List (List Char × Tag) → List Char → List Char
  | [], tail => tail
  | (gap, tag) :: tags, tail => gap ++ (tag.text ++ spell tags tail)

structure Packet where
  tags : List (List Char × Tag)
  tail : List Char
  nonempty : tags ≠ []
  shaped : ∀ x ∈ tags, x.2.Shaped
  measured : ∀ x ∈ tags, x.2.Measured
  blank : ∀ x ∈ tags, ∀ c ∈ x.1, isSpace c = true
  blank_tail : ∀ c ∈ tail, isSpace c = true

def Packet.text (p : Packet) : List Char := spell p.tags p.tail

def Packet.size (p : Packet) : ℕ := (p.tags.map fun x => x.2.size).sum

/-! ## The matching loop -/

variable {kind : Char → Bool}

theorem untilBracket_append {run : List Char} (hne : run ≠ []) (hrun : ∀ c ∈ run, kind c = true)
    (hend : kind '>' = false) (rest : List Char) :
    untilBracket kind (run ++ '>' :: rest) = some (run, rest) := by
  have htake : (run ++ '>' :: rest).takeWhile kind = run := by
    rw [List.takeWhile_append_of_pos hrun, List.takeWhile_cons_of_neg (by simp [hend]),
      List.append_nil]
  have hdrop : (run ++ '>' :: rest).dropWhile kind = '>' :: rest := by
    rw [List.dropWhile_append_of_pos hrun, List.dropWhile_cons_of_neg (by simp [hend])]
  unfold untilBracket
  rw [htake, hdrop]
  cases run with
  | nil => exact absurd rfl hne
  | cons c run => rfl

theorem cpsTag_text {tag : Tag} (h : tag.Shaped) (rest : List Char) :
    cpsTag (tag.text ++ rest) = some (tag.found, rest) := by
  cases tag with
  | bytes digits =>
    change (untilBracket isHexDigit ((digits ++ ['>']) ++ rest)).map _ = _
    rw [List.append_assoc, List.singleton_append, untilBracket_append h.1 h.2 (by decide)]
    rfl
  | random word length =>
    have hrun : (untilBracket Char.isDigit ((length ++ ['>']) ++ rest)).map
        (fun x => (CPSTag.random x.1, x.2)) = some (.random length, rest) := by
      rw [List.append_assoc, List.singleton_append, untilBracket_append h.1 h.2 (by decide)]
      rfl
    cases word <;> exact hrun
  | time => rfl

theorem untilBracket_run {cs run rest : List Char} (h : untilBracket kind cs = some (run, rest)) :
    run ≠ [] ∧ ∀ c ∈ run, kind c = true := by
  unfold untilBracket at h
  cases htake : cs.takeWhile kind with
  | nil => simp [htake] at h
  | cons a l =>
    cases hdrop : cs.dropWhile kind with
    | nil => simp [htake, hdrop] at h
    | cons b r =>
      by_cases hb : b = '>'
      · subst hb
        simp only [htake, hdrop, Option.some.injEq, Prod.mk.injEq] at h
        rw [← h.1]
        refine ⟨List.cons_ne_nil _ _, fun c hc => ?_⟩
        rw [← htake] at hc
        exact List.mem_takeWhile_imp hc
      · simp [htake, hdrop, hb] at h

variable {cs : List Char}

theorem exists_tag {found : CPSTag} {rest : List Char} (h : cpsTag cs = some (found, rest)) :
    ∃ tag : Tag, tag.Shaped ∧ tag.found = found ∧ cs = tag.text ++ rest := by
  have hrandom : ∀ (word : RandomWord) {cs'}, cs = '<' :: (word.text ++ ' ' :: cs') →
      (untilBracket Char.isDigit cs').map (fun x => (CPSTag.random x.1, x.2)) =
        some (found, rest) →
      ∃ tag : Tag, tag.Shaped ∧ tag.found = found ∧ cs = tag.text ++ rest := by
    intro word cs' hcs hmap
    obtain ⟨⟨run, r⟩, hrun, heq⟩ := Option.map_eq_some_iff.1 hmap
    cases heq
    refine ⟨.random word run, untilBracket_run hrun, rfl, ?_⟩
    rw [hcs, untilBracket_eq hrun, Tag.text]
    simp
  unfold cpsTag at h
  split at h
  · obtain ⟨⟨run, r⟩, hrun, heq⟩ := Option.map_eq_some_iff.1 h
    cases heq
    refine ⟨.bytes run, untilBracket_run hrun, rfl, ?_⟩
    rw [untilBracket_eq hrun, Tag.text]
    simp
  · exact hrandom .r rfl h
  · exact hrandom .rc rfl h
  · exact hrandom .rd rfl h
  · cases h
    exact ⟨.time, trivial, rfl, rfl⟩
  · cases h

theorem cpsTag_of_ne {c : Char} (h : c ≠ '<') (cs : List Char) : cpsTag (c :: cs) = none := by
  unfold cpsTag
  split
  case h_6 => rfl
  all_goals
    rename_i heq
    exact absurd (List.cons.inj heq).1 h

/-- What the loop finds is spelled out in the text. -/
theorem exists_spelling (fuel : ℕ) (cs : List Char) :
    ∃ tags : List (List Char × Tag), (∀ x ∈ tags, x.2.Shaped) ∧
      (cpsTags fuel cs).1 = tags.map (fun x => (x.1, x.2.found)) ∧
      cs = spell tags (cpsTags fuel cs).2 := by
  induction fuel generalizing cs with
  | zero => exact ⟨[], fun _ h => absurd h List.not_mem_nil, rfl, rfl⟩
  | succ fuel ih =>
    cases cs with
    | nil => exact ⟨[], fun _ h => absurd h List.not_mem_nil, rfl, rfl⟩
    | cons c cs =>
      unfold cpsTags
      cases htag : cpsTag (c :: cs) with
      | some m =>
        obtain ⟨found, rest⟩ := m
        obtain ⟨tag, hshaped, hfound, htext⟩ := exists_tag htag
        obtain ⟨tags, htags, hmap, hspell⟩ := ih rest
        refine ⟨([], tag) :: tags, List.forall_mem_cons.2 ⟨hshaped, htags⟩, ?_, ?_⟩
        · dsimp only
          rw [hmap, List.map_cons, hfound]
        · dsimp only
          rw [htext, spell, List.nil_append, ← hspell]
      | none =>
        obtain ⟨tags, htags, hmap, hspell⟩ := ih cs
        dsimp only
        cases tags with
        | nil =>
          cases hrest : cpsTags fuel cs with
          | mk gs tail =>
            rw [hrest] at hmap hspell
            obtain rfl : gs = [] := hmap
            exact ⟨[], htags, rfl, congrArg (c :: ·) hspell⟩
        | cons x tags =>
          cases hrest : cpsTags fuel cs with
          | mk gs tail =>
            rw [hrest] at hmap hspell
            obtain rfl : gs = (x.1, x.2.found) :: tags.map fun x => (x.1, x.2.found) := hmap
            refine ⟨(c :: x.1, x.2) :: tags, ?_, rfl, ?_⟩
            · exact List.forall_mem_cons.2 (List.forall_mem_cons.1 htags)
            · exact congrArg (c :: ·) hspell

theorem cpsTags_space (fuel : ℕ) {gap : List Char} (hgap : ∀ c ∈ gap, c ≠ '<') (cs : List Char) :
    cpsTags (gap.length + fuel) (gap ++ cs) =
      match cpsTags fuel cs with
      | ([], tail) => ([], gap ++ tail)
      | ((gap', tag) :: tags, tail) => ((gap ++ gap', tag) :: tags, tail) := by
  induction gap with
  | nil =>
    rw [List.nil_append, List.length_nil, Nat.zero_add]
    rcases cpsTags fuel cs with ⟨_ | ⟨⟨gap', tag⟩, tags⟩, tail⟩ <;> rfl
  | cons c gap ih =>
    obtain ⟨hc, hgap⟩ := List.forall_mem_cons.1 hgap
    rw [List.length_cons, Nat.add_right_comm, List.cons_append, cpsTags, cpsTag_of_ne hc]
    dsimp only
    rw [ih hgap]
    rcases cpsTags fuel cs with ⟨_ | ⟨⟨gap', tag⟩, tags⟩, tail⟩ <;> rfl

theorem ne_of_isSpace {c : Char} (h : isSpace c = true) : c ≠ '<' := by
  rintro rfl
  exact absurd h (by decide)

theorem text_ne_nil (tag : Tag) : tag.text ≠ [] := by
  cases tag <;> exact List.cons_ne_nil _ _

variable {tags : List (List Char × Tag)}

/-- The loop finds the tags of a packet. -/
theorem cpsTags_spell {tail : List Char} (hshaped : ∀ x ∈ tags, x.2.Shaped)
    (hblank : ∀ x ∈ tags, ∀ c ∈ x.1, isSpace c = true)
    (htail : ∀ c ∈ tail, isSpace c = true) (fuel : ℕ) (hfuel : (spell tags tail).length ≤ fuel) :
    cpsTags fuel (spell tags tail) = (tags.map (fun x => (x.1, x.2.found)), tail) := by
  induction tags generalizing fuel with
  | nil =>
    obtain ⟨extra, rfl⟩ := Nat.exists_eq_add_of_le hfuel
    have hend : cpsTags extra [] = ([], []) := by cases extra <;> rfl
    have hspace := cpsTags_space extra (fun c hc => ne_of_isSpace (htail c hc)) []
    rw [hend, List.append_nil] at hspace
    simpa only [spell, List.append_nil, List.map_nil] using hspace
  | cons x tags ih =>
    obtain ⟨gap, tag⟩ := x
    obtain ⟨htag, hshaped⟩ := List.forall_mem_cons.1 hshaped
    obtain ⟨hgap, hblank⟩ := List.forall_mem_cons.1 hblank
    rw [spell, List.length_append, List.length_append] at hfuel
    have hpos := List.length_pos_of_ne_nil (text_ne_nil tag)
    obtain ⟨extra, rfl⟩ : ∃ extra, fuel = gap.length + (extra + 1) :=
      ⟨fuel - gap.length - 1, by omega⟩
    rw [spell, cpsTags_space _ fun c hc => ne_of_isSpace (hgap c hc)]
    have hmatch := cpsTag_text htag (spell tags tail)
    have hrest := ih hshaped hblank extra (by omega)
    cases htext : tag.text with
    | nil => exact absurd htext (text_ne_nil tag)
    | cons c text =>
      rw [htext, List.cons_append] at hmatch
      rw [List.cons_append, cpsTags, hmatch]
      dsimp only
      rw [hrest, List.append_nil, List.map_cons]

/-! ## The checks of the loop -/

theorem size_found {tag : Tag} (h : tag.Shaped) (n : ℕ) :
    tag.found.size = .ok n ↔ tag.Measured ∧ n = tag.size := by
  cases tag with
  | bytes digits =>
    change (if digits.length % 2 ≠ 0 then Except.error _ else .ok (digits.length / 2)) = .ok n ↔
      Even digits.length ∧ n = digits.length / 2
    rw [Nat.even_iff]
    split
    · rename_i hodd
      simp [hodd]
    · rename_i heven
      simp only [Except.ok.injEq, not_not.1 heven, true_and]
      exact eq_comm
  | random word length =>
    have hdigits : atoi.digits length = some (Tag.random word length).size := by
      rw [Tag.size, Nat.ofDigitChars_eq_foldl, atoi.digits, if_neg]
      simpa [h.1] using h.2
    rw [Tag.found, CPSTag.size, parseUint, hdigits, Option.filter_some, Tag.Measured]
    by_cases hsmall : (Tag.random word length).size < 2 ^ 16
    · rw [if_pos (decide_eq_true hsmall)]
      dsimp only
      split
      · rename_i hzero
        rw [hzero]
        simp
      · rename_i hpos
        rw [Except.ok.injEq]
        constructor
        · rintro rfl
          exact ⟨⟨by omega, by omega⟩, rfl⟩
        · rintro ⟨-, rfl⟩
          rfl
    · rw [if_neg (by simpa using hsmall)]
      simp only [reduceCtorEq, false_iff, not_and]
      intro hrange
      omega
  | time =>
    change Except.ok 4 = .ok n ↔ True ∧ n = 4
    rw [Except.ok.injEq, true_and]
    exact eq_comm

theorem trimSpace_eq_empty : trimSpace (String.ofList cs) = "" ↔ ∀ c ∈ cs, isSpace c = true := by
  constructor
  · intro h
    simpa using isSpace_of_trimSpace_eq h
  · intro h
    rw [trimSpace, String.toList_ofList, List.dropWhile_eq_nil_iff.2 h]
    rfl

/-- The loop over the tags, with the size that it has in the end. -/
def addSizes : ℕ → List (List Char × CPSTag) → Except String ℕ
  | size, [] => .ok size
  | size, (gap, tag) :: rest =>
    if trimSpace (String.ofList gap) ≠ "" then .error "invalid CPS tag"
    else do
      let n ← tag.size
      if 65507 < size + n then .error "CPS exceeds maximum UDP payload"
      else addSizes (size + n) rest

theorem checkTags_eq (size : ℕ) (tags : List (List Char × CPSTag)) :
    checkTags size tags = (addSizes size tags).map fun _ => () := by
  induction tags generalizing size with
  | nil => rfl
  | cons x tags ih =>
    rw [checkTags, addSizes]
    split
    · rfl
    · cases x.2.size with
      | error e => rfl
      | ok n =>
        simp only [bind, Except.bind]
        split
        · rfl
        · exact ih _

/-- The loop adds up the sizes. -/
theorem addSizes_eq_ok (hshaped : ∀ x ∈ tags, x.2.Shaped) (size n : ℕ) :
    addSizes size (tags.map fun x => (x.1, x.2.found)) = .ok n ↔
      (∀ x ∈ tags, (∀ c ∈ x.1, isSpace c = true) ∧ x.2.Measured) ∧
        n = size + (tags.map fun x => x.2.size).sum ∧ (tags = [] ∨ n ≤ 65507) := by
  induction tags generalizing size with
  | nil =>
    simp only [List.map_nil, addSizes, Except.ok.injEq, List.not_mem_nil, false_imp_iff,
      implies_true, List.sum_nil, Nat.add_zero, true_and, true_or, and_true]
    exact eq_comm
  | cons x tags ih =>
    obtain ⟨htag, hshaped⟩ := List.forall_mem_cons.1 hshaped
    rw [List.map_cons, addSizes, List.forall_mem_cons, List.map_cons, List.sum_cons]
    split
    · rename_i hgap
      simp only [reduceCtorEq, false_iff]
      rintro ⟨⟨hx, -⟩, -⟩
      exact hgap (trimSpace_eq_empty.2 hx.1)
    · rename_i hgap
      have hblank := trimSpace_eq_empty.1 (not_not.1 hgap)
      cases hsize : x.2.found.size with
      | error e =>
        have hnot : ¬ x.2.Measured := by
          intro hmeasured
          rw [(size_found htag _).2 ⟨hmeasured, rfl⟩] at hsize
          cases hsize
        simp [bind, Except.bind, hnot]
      | ok m =>
        obtain ⟨hmeasured, rfl⟩ := (size_found htag m).1 hsize
        simp only [bind, Except.bind]
        split
        · simp only [reduceCtorEq, List.cons_ne_nil, false_or, false_iff]
          rintro ⟨-, hn, hle⟩
          omega
        · rename_i hle
          rw [ih hshaped]
          simp only [hmeasured, List.cons_ne_nil, false_or, and_true]
          constructor
          · rintro ⟨hall, hn, rfl | hsum⟩
            · rw [List.map_nil, List.sum_nil] at hn ⊢
              exact ⟨⟨hblank, hall⟩, by omega, by omega⟩
            · exact ⟨⟨hblank, hall⟩, by omega, hsum⟩
          · rintro ⟨⟨-, hall⟩, hn, hsum⟩
            exact ⟨hall, by omega, .inr hsum⟩

theorem checkTags_eq_ok (hshaped : ∀ x ∈ tags, x.2.Shaped) (size : ℕ) :
    checkTags size (tags.map fun x => (x.1, x.2.found)) = .ok () ↔
      (∀ x ∈ tags, (∀ c ∈ x.1, isSpace c = true) ∧ x.2.Measured) ∧
        (tags = [] ∨ size + (tags.map fun x => x.2.size).sum ≤ 65507) := by
  have hsum := addSizes_eq_ok hshaped size
  rw [checkTags_eq]
  cases hadd : addSizes size (tags.map fun x => (x.1, x.2.found)) with
  | error e =>
    simp only [Except.map, reduceCtorEq, false_iff]
    rintro ⟨hall, hle⟩
    rw [(hsum _).2 ⟨hall, rfl, hle⟩] at hadd
    cases hadd
  | ok n =>
    obtain ⟨hall, rfl, hle⟩ := (hsum n).1 hadd
    exact ⟨fun _ => ⟨hall, hle⟩, fun _ => rfl⟩

/-- A text is accepted if it is empty or a packet of the right size on one line. -/
theorem validateCPS_eq_ok (value : String) :
    validateCPS value = .ok () ↔ value = "" ∨
      (∀ c ∈ value.toList, c ≠ '\r' ∧ c ≠ '\n' ∧ c ≠ '\x00') ∧ value.utf8ByteSize ≤ 150000 ∧
        ∃ p : Packet, p.text = value.toList ∧ p.size ≤ 65507 := by
  have hline : value.toList.any (· ∈ ['\r', '\n', '\x00']) = true ↔
      ¬ ∀ c ∈ value.toList, c ≠ '\r' ∧ c ≠ '\n' ∧ c ≠ '\x00' := by
    simp only [List.any_eq_true, List.mem_cons, List.not_mem_nil, or_false, decide_eq_true_eq,
      not_forall, not_and_or, not_not, exists_prop]
  rw [validateCPS]
  split
  · rename_i hany
    have hbad := hline.1 hany
    simp only [reduceCtorEq, hbad, false_and, or_false, false_iff]
    rintro rfl
    exact hbad fun c hc => absurd hc (by simp)
  · rename_i hgood
    have hchars := not_not.1 fun h => hgood (hline.2 h)
    split
    · rename_i hempty
      simp [hempty]
    · rename_i hne
      split
      · rename_i hlong
        simp only [reduceCtorEq, hne, false_or, false_iff]
        rintro ⟨-, hshort, -⟩
        omega
      · rename_i hshort
        simp only [hne, false_or, Nat.le_of_not_lt hshort, true_and]
        rw [and_iff_right hchars]
        obtain ⟨tags, hshaped, hmap, hspell⟩ := exists_spelling value.toList.length value.toList
        constructor
        · intro h
          obtain ⟨_, hcheck, h⟩ := Except.bind_eq_ok.1 h
          rw [hmap, checkTags_eq_ok hshaped] at hcheck
          obtain ⟨hend, h⟩ := Except.guard_eq_ok.1 h
          rw [Bool.or_eq_true, not_or, hmap, List.isEmpty_iff, List.map_eq_nil_iff,
            decide_eq_true_eq, not_not] at hend
          refine ⟨⟨tags, _, hend.1, hshaped, fun x hx => (hcheck.1 x hx).2,
            fun x hx => (hcheck.1 x hx).1, trimSpace_eq_empty.1 hend.2⟩, hspell.symm, ?_⟩
          have hsum := hcheck.2.resolve_left hend.1
          rwa [Nat.zero_add] at hsum
        · rintro ⟨p, htext, hsize⟩
          have hfind : cpsTags value.toList.length value.toList =
              (p.tags.map (fun x => (x.1, x.2.found)), p.tail) := by
            rw [← htext]
            exact cpsTags_spell p.shaped p.blank p.blank_tail _ le_rfl
          rw [hfind]
          refine Except.bind_eq_ok.2 ⟨(), ?_, ?_⟩
          · rw [checkTags_eq_ok p.shaped, Nat.zero_add]
            exact ⟨fun x hx => ⟨p.blank x hx, p.measured x hx⟩, .inr hsize⟩
          · have hsome : (p.tags.map fun x => (x.1, x.2.found)).isEmpty = false := by
              simpa using p.nonempty
            rw [hsome, trimSpace_eq_empty.2 p.blank_tail]
            rfl

/-! ## Headers -/

/-- Decimal digits of a number of 32 bits. -/
structure Numeral (cs : List Char) (n : ℕ) : Prop where
  nonempty : cs ≠ []
  digits : ∀ c ∈ cs, c.isDigit = true
  eq : Nat.ofDigitChars 10 cs 0 = n
  uint32 : n < 2 ^ 32

/-- A header: a number, or two that do not decrease. -/
inductive IsRange (value : String) : ℕ × ℕ → Prop where
  | number {n : ℕ} : Numeral value.toList n → IsRange value (n, n)
  | range {cs ds : List Char} {a b : ℕ} : value.toList = cs ++ '-' :: ds → Numeral cs a →
    Numeral ds b → a ≤ b → IsRange value (a, b)

variable {n : ℕ}

theorem parseUint_eq_some : parseUint 32 cs = some n ↔ Numeral cs n := by
  rw [parseUint, Option.filter_eq_some_iff, decide_eq_true_eq]
  constructor
  · rintro ⟨hdigits, hn⟩
    obtain ⟨hne, hall⟩ := isDigit_of_digits hdigits
    refine ⟨hne, hall, ?_, hn⟩
    rw [atoi.digits, if_neg (by simpa [hne] using hall)] at hdigits
    rw [Nat.ofDigitChars_eq_foldl]
    exact Option.some.inj hdigits
  · rintro ⟨hne, hall, heq, hn⟩
    refine ⟨?_, hn⟩
    rw [atoi.digits, if_neg (by simpa [hne] using hall), ← heq, Nat.ofDigitChars_eq_foldl]

theorem Numeral.hyphen_not_mem (h : Numeral cs n) : '-' ∉ cs :=
  fun hmem => absurd (h.digits '-' hmem) (by decide)

theorem Numeral.digits_eq_true (h : Numeral cs n) :
    (!cs.isEmpty && cs.all Char.isDigit) = true := by
  simpa [h.nonempty] using h.digits

variable {r : ℕ × ℕ} {value : String}

theorem range_eq_ok : range value = .ok r ↔ IsRange value r := by
  have hjoin : ['-'].intercalate (value.toList.splitOn '-') = value.toList :=
    List.intercalate_splitOn '-'
  constructor
  · intro h
    rw [range] at h
    dsimp only at h
    split at h
    · rename_i a ha
      rw [ha] at hjoin
      replace hjoin : a = value.toList := by simpa using hjoin
      split at h
      · cases hparse : parseUint 32 a with
        | none =>
          rw [hparse] at h
          cases h
        | some n =>
          rw [hparse] at h
          cases h
          exact .number (hjoin ▸ parseUint_eq_some.1 hparse)
      · cases h
    · rename_i a b hab
      rw [hab] at hjoin
      replace hjoin : a ++ '-' :: b = value.toList := by simpa [List.intercalate] using hjoin
      split at h
      · cases hparse : parseUint 32 a with
        | none =>
          rw [hparse] at h
          cases h
        | some n =>
          cases hparse' : parseUint 32 b with
          | none =>
            rw [hparse, hparse'] at h
            cases h
          | some m =>
            rw [hparse, hparse'] at h
            dsimp only at h
            obtain ⟨hle, h⟩ := Except.guard_eq_ok.1 h
            cases h
            exact .range hjoin.symm (parseUint_eq_some.1 hparse) (parseUint_eq_some.1 hparse')
              (Nat.le_of_not_lt hle)
      · cases h
    · cases h
  · intro h
    cases h with
    | @number n hn =>
      have hsplit : value.toList.splitOn '-' = [value.toList] := by
        have hsingle : (['-'].intercalate [value.toList]).splitOn '-' = [value.toList] :=
          List.splitOn_intercalate '-' (by simpa using hn.hyphen_not_mem) (by simp)
        simpa using hsingle
      rw [range, hsplit]
      dsimp only
      rw [if_pos hn.digits_eq_true, parseUint_eq_some.2 hn]
    | @range cs ds a b hvalue ha hb hle =>
      have hsplit : value.toList.splitOn '-' = [cs, ds] := by
        have hpair : (['-'].intercalate [cs, ds]).splitOn '-' = [cs, ds] :=
          List.splitOn_intercalate '-'
            (by simpa using ⟨ha.hyphen_not_mem, hb.hyphen_not_mem⟩) (by simp)
        rw [hvalue]
        simpa [List.intercalate] using hpair
      rw [range, hsplit]
      dsimp only
      rw [if_pos (by rw [ha.digits_eq_true, hb.digits_eq_true]; rfl), parseUint_eq_some.2 ha,
        parseUint_eq_some.2 hb]
      dsimp only
      rw [if_neg (Nat.not_lt.2 hle)]

/-- The ranges have no number in common. -/
def Apart (r r' : ℕ × ℕ) : Prop := Disjoint (Set.Icc r.1 r.2) (Set.Icc r'.1 r'.2)

theorem IsRange.le (h : IsRange value r) : r.1 ≤ r.2 := by
  cases h with
  | number _ => exact le_rfl
  | range _ _ _ hle => exact hle

theorem apart_iff {r' : ℕ × ℕ} (h : r.1 ≤ r.2) (h' : r'.1 ≤ r'.2) :
    Apart r r' ↔ ¬ (r'.1 ≤ r.2 ∧ r.1 ≤ r'.2) := by
  rw [Apart, Set.disjoint_left]
  constructor
  · rintro hdisjoint ⟨hle, hle'⟩
    exact hdisjoint (a := max r.1 r'.1) ⟨le_max_left _ _, max_le h hle⟩
      ⟨le_max_right _ _, max_le hle' h'⟩
  · rintro hnot n ⟨hn₁, hn₂⟩ ⟨hn₃, hn₄⟩
    exact hnot ⟨hn₃.trans hn₂, hn₁.trans hn₄⟩

/-- The loop over the headers, after the ranges that it has seen. -/
theorem validateHeaders_eq_ok (seen : List (ℕ × ℕ)) (hseen : ∀ r ∈ seen, r.1 ≤ r.2)
    (headers : List String) :
    validateHeaders seen headers = .ok () ↔ ∃ ranges, List.Forall₂ IsRange headers ranges ∧
      (∀ q ∈ seen, ∀ r ∈ ranges, Apart q r) ∧ ranges.Pairwise Apart := by
  induction headers generalizing seen with
  | nil =>
    refine ⟨fun _ => ⟨[], .nil, fun _ _ _ h => absurd h List.not_mem_nil, .nil⟩, fun _ => rfl⟩
  | cons value headers ih =>
    rw [validateHeaders]
    cases hrange : range value with
    | error e =>
      have hnone : ∀ r, ¬ IsRange value r := by
        intro r hr
        rw [range_eq_ok.2 hr] at hrange
        cases hrange
      simp only [Except.mapError, bind, Except.bind, reduceCtorEq, false_iff]
      rintro ⟨ranges, hall, -⟩
      cases hall with
      | cons hr _ => exact hnone _ hr
    | ok r =>
      have hr := range_eq_ok.1 hrange
      have hunique : ∀ r', IsRange value r' → r' = r := by
        intro r' hr'
        exact Except.ok.inj ((range_eq_ok.2 hr').symm.trans hrange)
      simp only [Except.mapError, bind, Except.bind]
      cases hfind : seen.findIdx? fun q => decide (r.1 ≤ q.2) && decide (q.1 ≤ r.2) with
      | some j =>
        simp only [reduceCtorEq, false_iff]
        rintro ⟨ranges, hall, hapart, -⟩
        cases hall with
        | @cons _ r' _ ranges hr' hall =>
          obtain rfl := hunique r' hr'
          obtain ⟨hj, hoverlap, -⟩ := List.findIdx?_eq_some_iff_getElem.1 hfind
          have hmem : seen[j] ∈ seen := List.getElem_mem hj
          refine (apart_iff (hseen _ hmem) hr.le).1 (hapart _ hmem _ List.mem_cons_self) ?_
          simpa using hoverlap
      | none =>
        have hfree : ∀ q ∈ seen, Apart q r := by
          intro q hq
          rw [apart_iff (hseen q hq) hr.le]
          have hno := List.findIdx?_eq_none_iff.1 hfind q hq
          simpa using hno
        have hseen' : ∀ q ∈ seen ++ [r], q.1 ≤ q.2 := by
          intro q hq
          rcases List.mem_append.1 hq with hq | hq
          · exact hseen q hq
          · rw [List.mem_singleton.1 hq]
            exact hr.le
        dsimp only
        rw [ih _ hseen']
        constructor
        · rintro ⟨ranges, hall, hapart, hpairs⟩
          refine ⟨r :: ranges, .cons hr hall, ?_, ?_⟩
          · intro q hq r' hr'
            rcases List.mem_cons.1 hr' with rfl | hr'
            · exact hfree q hq
            · exact hapart q (List.mem_append_left _ hq) r' hr'
          · refine .cons (fun r' hr' => hapart r ?_ r' hr') hpairs
            exact List.mem_append_right _ (List.mem_singleton_self r)
        · rintro ⟨ranges, hall, hapart, hpairs⟩
          cases hall with
          | @cons _ r' _ ranges hr' hall =>
            obtain rfl := hunique r' hr'
            refine ⟨ranges, hall, ?_, (List.pairwise_cons.1 hpairs).2⟩
            intro q hq r'' hr''
            rcases List.mem_append.1 hq with hq | hq
            · exact hapart q hq r'' (List.mem_cons_of_mem _ hr'')
            · rw [List.mem_singleton.1 hq]
              exact (List.pairwise_cons.1 hpairs).1 r'' hr''

theorem validateSignatures_eq_ok {signatures : List String}
    (h : ∀ value ∈ signatures, validateCPS value = .ok ()) (n : ℕ) :
    validateSignatures n signatures = .ok () := by
  induction signatures generalizing n with
  | nil => rfl
  | cons value signatures ih =>
    obtain ⟨hvalue, h⟩ := List.forall_mem_cons.1 h
    rw [validateSignatures, hvalue]
    exact ih h (n + 1)

/-! ## The checks -/

/-- `ValidateCPS` accepts the grammar of signature packets, and `Validate`, if nothing else is
wrong, headers that are ranges without a number in common. -/
theorem parameter_checks (value : String) (headers signatures : List String) (padding : String)
    (timings : List (String × String)) :
    (validateCPS value = .ok () ↔ value = "" ∨
      (∀ c ∈ value.toList, c ≠ '\r' ∧ c ≠ '\n' ∧ c ≠ '\x00') ∧ value.utf8ByteSize ≤ 150000 ∧
        ∃ p : Packet, p.text = value.toList ∧ p.size ≤ 65507) ∧
    ((∀ value ∈ signatures, validateCPS value = .ok ()) → offOrRange padding = true →
      validateTimings timings = .ok () →
      (validate headers signatures padding timings = .ok () ↔
        ∃ ranges, List.Forall₂ IsRange headers ranges ∧ ranges.Pairwise Apart)) := by
  refine ⟨validateCPS_eq_ok value, fun hsignatures hpadding htimings => ?_⟩
  have hheaders := validateHeaders_eq_ok [] (fun _ h => absurd h List.not_mem_nil) headers
  have hrest : validate headers signatures padding timings = .ok () ↔
      validateHeaders [] headers = .ok () := by
    rw [validate, hpadding, htimings]
    constructor
    · intro h
      obtain ⟨_, hok, -⟩ := Except.bind_eq_ok.1 h
      exact hok
    · intro h
      rw [h]
      exact validateSignatures_eq_ok hsignatures 1
  rw [hrest, hheaders]
  constructor
  · rintro ⟨ranges, hall, -, hpairs⟩
    exact ⟨ranges, hall, hpairs⟩
  · rintro ⟨ranges, hall, hpairs⟩
    exact ⟨ranges, hall, fun _ h => absurd h List.not_mem_nil, hpairs⟩

/-- Two headers that pass with a signature packet, a padding and a timing. -/
theorem parameter_checks_two_headers :
    (∀ value ∈ ["<b 0x01><r 16>"], validateCPS value = .ok ()) ∧ offOrRange "10-20" = true ∧
      validateTimings [("RekeyAfterTime", "120-180")] = .ok () ∧
      ∃ ranges, List.Forall₂ IsRange ["5", "7-9"] ranges ∧ ranges.Pairwise Apart := by
  have hsignatures : ∀ value ∈ ["<b 0x01><r 16>"], validateCPS value = .ok () := by decide +kernel
  have hpadding : offOrRange "10-20" = true := by decide +kernel
  have htimings : validateTimings [("RekeyAfterTime", "120-180")] = .ok () := by decide +kernel
  refine ⟨hsignatures, hpadding, htimings, ?_⟩
  exact ((parameter_checks "" ["5", "7-9"] _ _ _).2 hsignatures hpadding htimings).1
    (by decide +kernel)

end LazGate.Awgconfig

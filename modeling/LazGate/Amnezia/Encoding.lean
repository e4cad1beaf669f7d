import LazGate.Amnezia.Signatures

/-!
# Writing signature packets

`internal/server/integrations/nativeawg/cps/encoding.go`: a packet is written as tags, its dynamic
fields as random bytes and what lies between them in hexadecimal.
-/

namespace LazGate.Cps

open Awgconfig

/-! ## The encoder -/

def maxPacketSize : ℕ := 1232

structure DynamicField where
  offset : Int64
  length : Int64
  tag : String

structure Signature where
  cps : String
  size : ℕ
  dynamic : Bool
  deriving DecidableEq

/-- `hex.EncodeToString`. -/
def encodeToString (raw : List UInt8) : List Char :=
  raw.flatMap fun b => [Nat.digitChar (b.toNat / 16), Nat.digitChar (b.toNat % 16)]

/-- The bytes in tags of at most 480. -/
def static (raw : List UInt8) : List Char :=
  if raw = [] then []
  else '<' :: 'b' :: ' ' :: '0' :: 'x' :: (encodeToString (raw.take 480) ++ ['>']) ++
    static (raw.drop 480)
termination_by raw.length
decreasing_by
  have hpos := List.length_pos_of_ne_nil ‹¬ raw = []›
  rw [List.length_drop]
  omega

/-- `packet[low:high]`; a slice out of bounds panics. -/
def slice (packet : List UInt8) (low high : ℤ) : Except String (List UInt8) :=
  if 0 ≤ low ∧ low ≤ high ∧ high ≤ packet.length then
    .ok ((packet.drop low.toNat).take (high.toNat - low.toNat))
  else .error "slice bounds out of range"

/-- The loop over the fields, and the bytes after the last. -/
def spans (packet : List UInt8) : ℤ → List DynamicField → Except String (List Char)
  | position, [] => do
    let raw ← slice packet position packet.length
    return static raw
  | position, field :: fields =>
    if field.offset.toInt < position ∨ field.length.toInt < 1 ∨
        packet.length < (field.offset + field.length).toInt then
      .error "invalid CPS dynamic span"
    else if field.tag ≠ "r" ∧ field.tag ≠ "rc" ∧ field.tag ≠ "rd" then
      .error "unsupported CPS dynamic tag"
    else do
      let raw ← slice packet position field.offset.toInt
      let text ← spans packet (field.offset + field.length).toInt fields
      return static raw ++ ('<' :: (field.tag.toList ++
        ' ' :: ((toString field.length.toInt).toList ++ ['>'])) ++ text)

def encode (packet : List UInt8) (fields : List DynamicField) : Except String Signature :=
  if packet.length = 0 ∨ maxPacketSize < packet.length then
    .error ("CPS packet size " ++ toString packet.length ++ " is outside 1.." ++
      toString maxPacketSize)
  else do
    let text ← spans packet 0 fields
    return ⟨String.ofList text, packet.length, !fields.isEmpty⟩

/-! ## Expansions -/

/-- The number that a hexadecimal digit stands for. -/
def hexValue (c : Char) : ℕ :=
  if c.isDigit then c.toNat - '0'.toNat
  else if 'a' ≤ c then c.toNat - 'a'.toNat + 10 else c.toNat - 'A'.toNat + 10

/-- The bytes of hexadecimal digits. -/
def hexBytes : List Char → List UInt8
  | a :: b :: rest => .ofNat (16 * hexValue a + hexValue b) :: hexBytes rest
  | _ => []

def Expands : Tag → List UInt8 → Prop
  | .bytes digits, bs => bs = hexBytes digits
  | .random word length, bs => bs.length = (Tag.random word length).size
  | .time, bs => bs.length = Tag.time.size

/-- The same for tags in a row. -/
inductive ExpandsAll : List Tag → List UInt8 → Prop where
  | nil : ExpandsAll [] []
  | cons {tag : Tag} {tags : List Tag} {bs bs' : List UInt8} :
    Expands tag bs → ExpandsAll tags bs' → ExpandsAll (tag :: tags) (bs ++ bs')

/-- The bytes that a text can become. -/
def Expansion (value : String) (bs : List UInt8) : Prop :=
  ∃ p : Packet, p.text = value.toList ∧ ExpandsAll (p.tags.map Prod.snd) bs

variable {tags tags' : List Tag}

theorem ExpandsAll.append {bs bs' : List UInt8} (h : ExpandsAll tags bs)
    (h' : ExpandsAll tags' bs') :
    ExpandsAll (tags ++ tags') (bs ++ bs') := by
  induction h with
  | nil => exact h'
  | cons htag _ ih =>
    rw [List.cons_append, List.append_assoc]
    exact .cons htag ih

variable {bs packet raw : List UInt8}

theorem ExpandsAll.of_append (h : ExpandsAll (tags ++ tags') bs) :
    ∃ bs₁ bs₂, bs = bs₁ ++ bs₂ ∧ ExpandsAll tags bs₁ ∧ ExpandsAll tags' bs₂ := by
  induction tags generalizing bs with
  | nil => exact ⟨[], bs, rfl, .nil, h⟩
  | cons tag tags ih =>
    cases h with
    | @cons _ _ b bs' htag h =>
      obtain ⟨bs₁, bs₂, rfl, h₁, h₂⟩ := ih h
      exact ⟨b ++ bs₁, bs₂, (List.append_assoc _ _ _).symm, .cons htag h₁, h₂⟩

theorem length_hexBytes (digits : List Char) : (hexBytes digits).length = digits.length / 2 := by
  fun_induction hexBytes digits with
  | case1 a b rest ih =>
    rw [List.length_cons, List.length_cons, List.length_cons, ih]
    omega
  | case2 digits h =>
    match digits with
    | [] => rfl
    | [_] => exact (Nat.div_eq_of_lt (Nat.lt_succ_self 1)).symm
    | a :: b :: rest => exact absurd rfl (h a b rest)

variable {tag : Tag}

theorem Expands.length_eq (h : Expands tag bs) : bs.length = tag.size := by
  cases tag with
  | bytes digits => rw [show bs = hexBytes digits from h, length_hexBytes, Tag.size]
  | random | time => exact h

theorem ExpandsAll.length_eq (h : ExpandsAll tags bs) : bs.length = (tags.map Tag.size).sum := by
  induction h with
  | nil => rfl
  | cons htag _ ih => rw [List.length_append, List.map_cons, List.sum_cons, htag.length_eq, ih]

theorem RandomWord.text_injective {word word' : RandomWord} {cs cs' : List Char}
    (h : word.text ++ ' ' :: cs = word'.text ++ ' ' :: cs') : word = word' ∧ cs = cs' := by
  cases word <;> cases word' <;> simp [RandomWord.text] at h <;> exact ⟨rfl, h⟩

theorem text_append_injective {tag' : Tag} (h : tag.Shaped) (h' : tag'.Shaped)
    {rest rest' : List Char} (heq : tag.text ++ rest = tag'.text ++ rest') :
    tag = tag' ∧ rest = rest' := by
  have hfound : some (tag.found, rest) = some (tag'.found, rest') := by
    rw [← cpsTag_text h, ← cpsTag_text h', heq]
  have hrest : rest = rest' := congrArg Prod.snd (Option.some.inj hfound)
  subst hrest
  have htext : tag.text = tag'.text := List.append_cancel_right heq
  have hkind : tag.found = tag'.found := congrArg Prod.fst (Option.some.inj hfound)
  refine ⟨?_, rfl⟩
  cases tag with
  | bytes digits =>
    cases tag' with
    | bytes digits' => simpa [Tag.text] using htext
    | random | time => cases hkind
  | random word length =>
    cases tag' with
    | bytes digits' => cases hkind
    | random word' length' =>
      obtain ⟨hword, hlength⟩ := RandomWord.text_injective (List.cons.inj htext).2
      rw [hword, List.append_cancel_right hlength]
    | time => cases hkind
  | time =>
    cases tag' with
    | bytes | random => cases hkind
    | time => rfl

theorem blank_append_injective {gap gap' : List Char} (h : ∀ c ∈ gap, isSpace c = true)
    (h' : ∀ c ∈ gap', isSpace c = true) {tag' : Tag} {rest rest' : List Char}
    (heq : gap ++ (tag.text ++ rest) = gap' ++ (tag'.text ++ rest')) :
    gap = gap' ∧ tag.text ++ rest = tag'.text ++ rest' := by
  have htake : ∀ (gap : List Char) (tag : Tag) (rest : List Char), (∀ c ∈ gap, isSpace c = true) →
      (gap ++ (tag.text ++ rest)).takeWhile isSpace = gap := by
    intro gap tag rest hgap
    have hstop : (tag.text ++ rest).takeWhile isSpace = [] := by
      cases tag <;> exact List.takeWhile_cons_of_neg (by decide)
    rw [List.takeWhile_append_of_pos hgap, hstop, List.append_nil]
  have hgap : gap = gap' := by
    rw [← htake gap tag rest h, heq, htake gap' tag' rest' h']
  subst hgap
  exact ⟨rfl, List.append_cancel_left heq⟩

theorem not_blank_spell {x : List Char × Tag} {tags : List (List Char × Tag)} {tail : List Char} :
    ¬ ∀ c ∈ spell (x :: tags) tail, isSpace c = true := by
  intro h
  have hmem : '<' ∈ spell (x :: tags) tail := by
    refine List.mem_append_right _ (List.mem_append_left _ ?_)
    cases x.2 <;> exact List.mem_cons_self
  exact absurd (h '<' hmem) (by decide)

theorem spell_injective {tags tags' : List (List Char × Tag)} {tail tail' : List Char}
    (hshaped : ∀ x ∈ tags, x.2.Shaped) (hshaped' : ∀ x ∈ tags', x.2.Shaped)
    (hblank : ∀ x ∈ tags, ∀ c ∈ x.1, isSpace c = true)
    (hblank' : ∀ x ∈ tags', ∀ c ∈ x.1, isSpace c = true)
    (htail : ∀ c ∈ tail, isSpace c = true) (htail' : ∀ c ∈ tail', isSpace c = true)
    (h : spell tags tail = spell tags' tail') : tags = tags' := by
  induction tags generalizing tags' with
  | nil =>
    cases tags' with
    | nil => rfl
    | cons x tags' =>
      rw [spell] at h
      exact absurd (h ▸ htail) not_blank_spell
  | cons x tags ih =>
    cases tags' with
    | nil =>
      rw [show spell [] tail' = tail' from rfl] at h
      exact absurd (h ▸ htail') not_blank_spell
    | cons x' tags' =>
      obtain ⟨hx, hshaped⟩ := List.forall_mem_cons.1 hshaped
      obtain ⟨hx', hshaped'⟩ := List.forall_mem_cons.1 hshaped'
      obtain ⟨hb, hblank⟩ := List.forall_mem_cons.1 hblank
      obtain ⟨hb', hblank'⟩ := List.forall_mem_cons.1 hblank'
      obtain ⟨hgap, htext⟩ := blank_append_injective hb hb' h
      obtain ⟨htag, hrest⟩ := text_append_injective hx hx' htext
      rw [Prod.ext hgap htag, ih hshaped hshaped' hblank hblank' hrest]

theorem tags_eq_of_text_eq {p p' : Packet} (h : p.text = p'.text) : p.tags = p'.tags :=
  spell_injective p.shaped p'.shaped p.blank p'.blank p.blank_tail p'.blank_tail h

/-! ## What the encoder writes -/

/-- Tags for the bytes: they are accepted, as many bytes as these, and can become them. -/
structure Writes (tags : List Tag) (raw : List UInt8) : Prop where
  shaped : ∀ tag ∈ tags, tag.Shaped
  measured : ∀ tag ∈ tags, tag.Measured
  size : (tags.map Tag.size).sum = raw.length
  short : (tags.flatMap Tag.text).length ≤ 8 * raw.length
  expands : ExpandsAll tags raw

theorem Writes.nil : Writes [] [] :=
  ⟨fun _ h => absurd h List.not_mem_nil, fun _ h => absurd h List.not_mem_nil, rfl, le_rfl, .nil⟩

theorem Writes.append {raw raw' : List UInt8} (h : Writes tags raw) (h' : Writes tags' raw') :
    Writes (tags ++ tags') (raw ++ raw') where
  shaped tag ht := (List.mem_append.1 ht).elim (h.shaped tag) (h'.shaped tag)
  measured tag ht := (List.mem_append.1 ht).elim (h.measured tag) (h'.measured tag)
  size := by rw [List.map_append, List.sum_append, List.length_append, h.size, h'.size]
  short := by
    have h₁ := h.short
    have h₂ := h'.short
    rw [List.flatMap_append, List.length_append, List.length_append]
    omega
  expands := h.expands.append h'.expands

theorem hexBytes_encodeToString (raw : List UInt8) : hexBytes (encodeToString raw) = raw := by
  have hdigit : ∀ n < 16, hexValue (Nat.digitChar n) = n := by decide
  induction raw with
  | nil => rfl
  | cons b raw ih =>
    have hb := b.toNat_lt
    change UInt8.ofNat (16 * hexValue (Nat.digitChar (b.toNat / 16)) +
      hexValue (Nat.digitChar (b.toNat % 16))) :: hexBytes (encodeToString raw) = b :: raw
    rw [hdigit _ (by omega), hdigit _ (by omega), Nat.div_add_mod, UInt8.ofNat_toNat, ih]

theorem length_encodeToString (raw : List UInt8) :
    (encodeToString raw).length = 2 * raw.length := by
  induction raw with
  | nil => rfl
  | cons b raw ih =>
    change (encodeToString raw).length + 1 + 1 = _
    rw [ih, List.length_cons]
    omega

variable {c : Char}

theorem isHexDigit_encodeToString (h : c ∈ encodeToString raw) :
    isHexDigit c = true := by
  have hdigit : ∀ n < 16, isHexDigit (Nat.digitChar n) = true := by decide
  obtain ⟨b, -, hc⟩ := List.mem_flatMap.1 h
  have hb := b.toNat_lt
  rcases List.mem_cons.1 hc with rfl | hc
  · exact hdigit _ (by omega)
  · rw [List.mem_singleton.1 hc]
    exact hdigit _ (by omega)

theorem writes_bytes (hne : raw ≠ []) : Writes [.bytes (encodeToString raw)] raw := by
  have hlength := length_encodeToString raw
  have hpos := List.length_pos_of_ne_nil hne
  refine ⟨?_, ?_, ?_, ?_, ?_⟩
  · intro tag ht
    rw [List.mem_singleton.1 ht]
    refine ⟨?_, fun c hc => isHexDigit_encodeToString hc⟩
    refine List.ne_nil_of_length_pos ?_
    omega
  · intro tag ht
    rw [List.mem_singleton.1 ht]
    exact ⟨raw.length, by omega⟩
  · rw [List.map_singleton, List.sum_singleton, Tag.size, hlength]
    omega
  · rw [List.flatMap_singleton, Tag.text]
    simp only [List.length_cons, List.length_append, List.length_nil, hlength]
    omega
  · have hself : ExpandsAll [.bytes (encodeToString raw)] (raw ++ []) :=
      .cons (hexBytes_encodeToString raw).symm .nil
    rwa [List.append_nil] at hself

theorem static_eq (raw : List UInt8) : ∃ tags, static raw = tags.flatMap Tag.text ∧
    Writes tags raw ∧ ∀ bs, ExpandsAll tags bs → bs = raw := by
  induction raw using static.induct with
  | case1 =>
    refine ⟨[], ?_, .nil, fun bs h => ?_⟩
    · rw [static]
      rfl
    · cases h
      rfl
  | case2 raw hne ih =>
    obtain ⟨tags, htext, hwrites, hall⟩ := ih
    have htake : raw.take 480 ≠ [] := by simpa using hne
    refine ⟨.bytes (encodeToString (raw.take 480)) :: tags, ?_, ?_, ?_⟩
    · rw [static, if_neg hne, htext]
      rfl
    · have hboth := (writes_bytes htake).append hwrites
      rwa [List.take_append_drop] at hboth
    · intro bs h
      cases h with
      | @cons _ _ b bs' hb h =>
        rw [hall bs' h, show b = hexBytes (encodeToString (raw.take 480)) from hb,
          hexBytes_encodeToString, List.take_append_drop]

theorem writes_random (word : RandomWord) {n : ℕ} (hpos : 1 ≤ n) (hsmall : n ≤ 65535)
    (hraw : raw.length = n) : Writes [.random word (Nat.toDigits 10 n)] raw := by
  have hsize : (Tag.random word (Nat.toDigits 10 n)).size = n := Nat.ofDigitChars_ten_toDigits
  refine ⟨?_, ?_, ?_, ?_, ?_⟩
  · intro tag ht
    rw [List.mem_singleton.1 ht]
    exact ⟨Nat.toDigits_ne_nil, fun c hc =>
      Nat.isDigit_of_mem_toDigits (by decide) (by decide) hc⟩
  · intro tag ht
    rw [List.mem_singleton.1 ht, Tag.Measured, hsize]
    exact ⟨hpos, hsmall⟩
  · rw [List.map_singleton, List.sum_singleton, hsize, hraw]
  · have hdigits : (Nat.toDigits 10 n).length ≤ n :=
      (Nat.length_toDigits_le_iff (by decide) hpos).2 (Nat.lt_pow_self (by decide))
    have hword : word.text.length ≤ 2 := by cases word <;> decide
    rw [List.flatMap_singleton, Tag.text, hraw]
    simp only [List.length_cons, List.length_append, List.length_nil]
    omega
  · have hself : ExpandsAll [.random word (Nat.toDigits 10 n)] (raw ++ []) :=
      .cons (hraw.trans hsize.symm) .nil
    rwa [List.append_nil] at hself

def DynamicField.Covers (f : DynamicField) (i : ℕ) : Prop :=
  f.offset.toInt ≤ i ∧ i < f.offset.toInt + f.length.toInt

theorem exists_word {tag : String} (h : ¬ (tag ≠ "r" ∧ tag ≠ "rc" ∧ tag ≠ "rd")) :
    ∃ word : RandomWord, word.text = tag.toList := by
  by_cases h₁ : tag = "r"
  · exact ⟨.r, by rw [h₁]; rfl⟩
  · by_cases h₂ : tag = "rc"
    · exact ⟨.rc, by rw [h₂]; rfl⟩
    · by_cases h₃ : tag = "rd"
      · exact ⟨.rd, by rw [h₃]; rfl⟩
      · exact absurd ⟨h₁, h₂, h₃⟩ h

theorem toList_toString {l : ℤ} (h : 1 ≤ l) : (toString l).toList = Nat.toDigits 10 l.toNat := by
  obtain ⟨n, rfl⟩ := Int.eq_ofNat_of_zero_le (show 0 ≤ l by omega)
  exact Nat.toList_repr

theorem slice_eq_ok {low high : ℤ} (h : slice packet low high = .ok raw) :
    (0 ≤ low ∧ low ≤ high ∧ high ≤ packet.length) ∧
      raw = (packet.drop low.toNat).take (high.toNat - low.toNat) := by
  rw [slice] at h
  split at h
  · rename_i hbounds
    exact ⟨hbounds, (Except.ok.inj h).symm⟩
  · cases h

theorem toInt_end {f : DynamicField} {size : ℕ} (hsize : size ≤ maxPacketSize)
    (hoffset : 0 ≤ f.offset.toInt ∧ f.offset.toInt ≤ size) (hlength : 1 ≤ f.length.toInt)
    (hend : 0 ≤ (f.offset + f.length).toInt) :
    (f.offset + f.length).toInt = f.offset.toInt + f.length.toInt := by
  have hmax := f.length.toInt_lt
  rw [maxPacketSize] at hsize
  rw [Int64.toInt_add, Int.bmod_def] at hend ⊢
  omega

/-- A packet from a position on: the bytes before a field, the field, and those after it. -/
theorem drop_eq_append (packet : List UInt8) {position offset : ℕ} (h : position ≤ offset)
    (length : ℕ) :
    packet.drop position = (packet.drop position).take (offset - position) ++
      (packet.drop offset).take length ++ packet.drop (offset + length) := by
  have hback : packet.drop offset = (packet.drop position).drop (offset - position) := by
    rw [List.drop_drop, Nat.add_sub_cancel' h]
  rw [List.append_assoc, ← List.drop_drop, List.take_append_drop, hback, List.take_append_drop]

theorem getElem?_outside {packet bs₂ bs₃ : List UInt8} {position offset length i : ℕ}
    (hposition : position ≤ offset) (hoffset : offset ≤ packet.length)
    (hlength : bs₂.length = length) (hi : position ≤ i) (hfree : i < offset ∨ offset + length ≤ i)
    (hrest : offset + length ≤ i → bs₃[i - (offset + length)]? = packet[i]?) :
    ((packet.drop position).take (offset - position) ++ bs₂ ++ bs₃)[i - position]? =
      packet[i]? := by
  have hbefore : ((packet.drop position).take (offset - position)).length = offset - position := by
    rw [List.length_take, List.length_drop]
    omega
  rcases hfree with hlt | hge
  · rw [List.append_assoc, List.getElem?_append_left (by omega),
      List.getElem?_take_of_lt (by omega), List.getElem?_drop, Nat.add_sub_cancel' hi]
  · rw [← hrest hge, List.getElem?_append_right (by rw [List.length_append]; omega),
      List.length_append, hbefore, hlength]
    congr 1
    omega

/-- The tags from a position on. -/
theorem spans_ok (hpacket : packet.length ≤ maxPacketSize) {fields : List DynamicField}
    {position : ℤ} {text : List Char} (h : spans packet position fields = .ok text) :
    0 ≤ position ∧ position ≤ packet.length ∧
      ∃ tags, text = tags.flatMap Tag.text ∧ Writes tags (packet.drop position.toNat) ∧
        ∀ bs, ExpandsAll tags bs → ∀ i : ℕ, position ≤ i → (∀ f ∈ fields, ¬ f.Covers i) →
          bs[i - position.toNat]? = packet[i]? := by
  induction fields generalizing position text with
  | nil =>
    rw [spans] at h
    obtain ⟨raw, hraw, h⟩ := Except.bind_eq_ok.1 h
    cases h
    obtain ⟨⟨hlow, hhigh, -⟩, hraw⟩ := slice_eq_ok hraw
    obtain ⟨tags, htext, hwrites, hall⟩ := static_eq raw
    have hdrop : raw = packet.drop position.toNat := by
      rw [hraw]
      refine List.take_of_length_le ?_
      rw [List.length_drop]
      omega
    refine ⟨hlow, hhigh, tags, htext, hdrop ▸ hwrites, fun bs hbs i hi _ => ?_⟩
    rw [hall bs hbs, hdrop, List.getElem?_drop, Nat.add_sub_cancel' (by omega)]
  | cons field fields ih =>
    obtain ⟨hspan, h⟩ := Except.guard_eq_ok.1 h
    obtain ⟨htag, h⟩ := Except.guard_eq_ok.1 h
    obtain ⟨raw, hraw, h⟩ := Except.bind_eq_ok.1 h
    obtain ⟨rest, hrest, h⟩ := Except.bind_eq_ok.1 h
    cases h
    obtain ⟨⟨hlow, hposition, hoffset⟩, hraw⟩ := slice_eq_ok hraw
    obtain ⟨hend₀, hend₁, tags, htext, hwrites, hall⟩ := ih hrest
    obtain ⟨before, hbefore, hwrites', hall'⟩ := static_eq raw
    obtain ⟨word, hword⟩ := exists_word htag
    have hlength : 1 ≤ field.length.toInt := by omega
    have hend := toInt_end hpacket ⟨hlow.trans hposition, hoffset⟩ hlength hend₀
    obtain ⟨offset, ho⟩ := Int.eq_ofNat_of_zero_le (hlow.trans hposition)
    obtain ⟨length, hl⟩ := Int.eq_ofNat_of_zero_le (show 0 ≤ field.length.toInt by omega)
    obtain ⟨position, rfl⟩ := Int.eq_ofNat_of_zero_le hlow
    rw [hend, ho, hl, ← Int.natCast_add, Int.toNat_natCast] at hwrites hall
    rw [hend, ho, hl] at hend₁
    rw [ho] at hposition hoffset hraw
    rw [hl] at hlength
    have hmiddle : ((packet.drop offset).take length).length = length := by
      rw [List.length_take, List.length_drop]
      omega
    have hrandom := writes_random word (n := length) (by omega)
      (by rw [maxPacketSize] at hpacket; omega) hmiddle
    rw [Int.toNat_natCast, Int.toNat_natCast] at hraw
    refine ⟨hlow, hposition.trans hoffset,
      (before ++ [.random word (Nat.toDigits 10 length)]) ++ tags, ?_, ?_, ?_⟩
    · rw [List.flatMap_append, List.flatMap_append, List.flatMap_singleton, ← hbefore,
        ← htext, Tag.text, hword, hl, toList_toString hlength, List.append_assoc]
      rfl
    · rw [Int.toNat_natCast, drop_eq_append packet (by omega : position ≤ offset) length,
        ← hraw]
      exact (hwrites'.append hrandom).append hwrites
    · intro bs hbs i hi hfree
      obtain ⟨hfield, hfree⟩ := List.forall_mem_cons.1 hfree
      obtain ⟨bs₁, bs₃, rfl, h₁, h₃⟩ := hbs.of_append
      obtain ⟨bs₁, bs₂, rfl, h₁, h₂⟩ := h₁.of_append
      have hbs₂ : bs₂.length = length := by
        cases h₂ with
        | @cons _ _ b _ hb h₂ =>
          cases h₂
          rw [List.append_nil]
          exact (show b.length = _ from hb).trans Nat.ofDigitChars_ten_toDigits
      rw [hall' bs₁ h₁, hraw]
      refine getElem?_outside (by omega) (by omega) hbs₂ (by omega) ?_ fun hge => ?_
      · rw [DynamicField.Covers, ho, hl] at hfield
        omega
      · exact hall bs₃ h₃ i (by omega) hfree

/-! ## The text is accepted -/

def Printable (c : Char) : Prop := ' ' ≤ c ∧ c ≤ '~'

instance (c : Char) : Decidable (Printable c) := inferInstanceAs (Decidable (_ ∧ _))

theorem printable_of_range {a b : Char} (ha : ' ' ≤ a) (hb : b ≤ '~') (h₁ : a ≤ c) (h₂ : c ≤ b) :
    Printable c := ⟨ha.trans h₁, h₂.trans hb⟩

theorem printable_of_isDigit (h : c.isDigit = true) : Printable c := by
  rw [Char.isDigit, Bool.and_eq_true, decide_eq_true_eq, decide_eq_true_eq] at h
  exact printable_of_range (a := '0') (b := '9') (by decide) (by decide) h.1 h.2

theorem printable_of_isHexDigit (h : isHexDigit c = true) : Printable c := by
  simp only [isHexDigit, Bool.or_eq_true, Bool.and_eq_true, decide_eq_true_eq] at h
  rcases h with (h | h) | h
  · exact printable_of_isDigit h
  · exact printable_of_range (by decide) (by decide) h.1 h.2
  · exact printable_of_range (by decide) (by decide) h.1 h.2

theorem printable_text (h : tag.Shaped) : ∀ c ∈ tag.text, Printable c := by
  cases tag with
  | bytes digits =>
    simp only [Tag.text, List.forall_mem_cons, List.forall_mem_append]
    exact ⟨by decide, by decide, by decide, by decide, by decide,
      fun c hc => printable_of_isHexDigit (h.2 c hc), by decide,
      fun _ h => absurd h List.not_mem_nil⟩
  | random word length =>
    simp only [Tag.text, List.forall_mem_cons, List.forall_mem_append]
    have hword : ∀ c ∈ word.text, Printable c := by
      cases word <;> simp [RandomWord.text, Printable]
    exact ⟨by decide, hword, by decide, fun c hc => printable_of_isDigit (h.2 c hc), by decide,
      fun _ h => absurd h List.not_mem_nil⟩
  | time => simp [Tag.text, Printable]

theorem utf8Len_eq_length {cs : List Char} (h : ∀ c ∈ cs, Printable c) :
    String.utf8Len cs = cs.length := by
  induction cs with
  | nil => rfl
  | cons c cs ih =>
    obtain ⟨hc, h⟩ := List.forall_mem_cons.1 h
    have hascii : c ≤ '\x7f' := hc.2.trans (by decide)
    have hone : c.utf8Size = 1 := Char.utf8Size_eq_one_iff.2 hascii
    rw [String.utf8Len_cons, ih h, hone, List.length_cons]

/-- The size that `ValidateCPS` adds up. -/
def computedSize (value : String) : Except String ℕ :=
  addSizes 0 (cpsTags value.toList.length value.toList).1

theorem spell_eq_flatMap (tags : List Tag) :
    spell (tags.map fun tag => ([], tag)) [] = tags.flatMap Tag.text := by
  induction tags with
  | nil => rfl
  | cons tag tags ih =>
    rw [List.map_cons, spell, ih]
    rfl

def packetOf {tags : List Tag} {raw : List UInt8} (h : Writes tags raw) (hne : tags ≠ []) :
    Packet where
  tags := tags.map fun tag => ([], tag)
  tail := []
  nonempty := by simpa using hne
  shaped x hx := by
    obtain ⟨tag, ht, rfl⟩ := List.mem_map.1 hx
    exact h.shaped tag ht
  measured x hx := by
    obtain ⟨tag, ht, rfl⟩ := List.mem_map.1 hx
    exact h.measured tag ht
  blank x hx := by
    obtain ⟨tag, -, rfl⟩ := List.mem_map.1 hx
    exact fun _ hc => absurd hc List.not_mem_nil
  blank_tail _ hc := absurd hc List.not_mem_nil

/-- A text that the encoder writes is accepted; its size is that of the packet, which it can
become, and what it becomes differs from the packet only in the dynamic fields. -/
theorem encode_faithful (packet : List UInt8) (fields : List DynamicField) (signature : Signature)
    (h : encode packet fields = .ok signature) :
    validateCPS signature.cps = .ok () ∧ computedSize signature.cps = .ok packet.length ∧
      signature.size = packet.length ∧ Expansion signature.cps packet ∧
      ∀ bs, Expansion signature.cps bs → bs.length = packet.length ∧
        ∀ i, (∀ f ∈ fields, ¬ f.Covers i) → bs[i]? = packet[i]? := by
  obtain ⟨hlength, h⟩ := Except.guard_eq_ok.1 h
  rw [not_or, Nat.not_lt] at hlength
  obtain ⟨text, htext, h⟩ := Except.bind_eq_ok.1 h
  cases h
  obtain ⟨-, -, tags, rfl, hwrites, hall⟩ := spans_ok hlength.2 htext
  rw [Int.toNat_zero, List.drop_zero] at hwrites
  have hne : tags ≠ [] := by
    rintro rfl
    exact hlength.1 hwrites.size.symm
  have hspell : (packetOf hwrites hne).text = (String.ofList (tags.flatMap Tag.text)).toList := by
    rw [String.toList_ofList]
    exact spell_eq_flatMap tags
  have hsum : (packetOf hwrites hne).size = packet.length := by
    rw [← hwrites.size, Packet.size, packetOf, List.map_map]
    rfl
  have htags : (packetOf hwrites hne).tags.map Prod.snd = tags := by
    rw [packetOf, List.map_map]
    exact List.map_id tags
  have hprintable : ∀ c ∈ (String.ofList (tags.flatMap Tag.text)).toList, Printable c := by
    rw [String.toList_ofList]
    intro c hc
    obtain ⟨tag, htag, hc⟩ := List.mem_flatMap.1 hc
    exact printable_text (hwrites.shaped tag htag) c hc
  have hmax := hlength.2
  rw [maxPacketSize] at hmax
  refine ⟨?_, ?_, rfl, ?_, ?_⟩
  · refine (validateCPS_eq_ok _).2 (.inr ⟨fun c hc => ?_, ?_, _, hspell, ?_⟩)
    · refine ⟨?_, ?_, ?_⟩ <;> rintro rfl <;> exact absurd (hprintable _ hc) (by decide)
    · rw [String.utf8ByteSize_ofList, utf8Len_eq_length (by simpa using hprintable)]
      exact hwrites.short.trans (by omega)
    · rw [hsum]
      omega
  · have hfind := cpsTags_spell (packetOf hwrites hne).shaped (packetOf hwrites hne).blank
      (packetOf hwrites hne).blank_tail _ le_rfl
    change cpsTags (packetOf hwrites hne).text.length (packetOf hwrites hne).text = _ at hfind
    rw [computedSize, ← hspell, hfind, ← hsum]
    refine (addSizes_eq_ok (packetOf hwrites hne).shaped 0 _).2 ⟨fun x hx => ?_, ?_, .inr ?_⟩
    · exact ⟨(packetOf hwrites hne).blank x hx, (packetOf hwrites hne).measured x hx⟩
    · rw [Nat.zero_add, Packet.size]
    · rw [hsum]
      omega
  · exact ⟨_, hspell, htags.symm ▸ hwrites.expands⟩
  · rintro bs ⟨p, hp, hbs⟩
    rw [tags_eq_of_text_eq (hp.trans hspell.symm), htags] at hbs
    refine ⟨hbs.length_eq.trans hwrites.size, fun i hfree => ?_⟩
    exact hall bs hbs i (Int.natCast_nonneg i) hfree

/-- A packet of four bytes with two random digits in it. -/
theorem encode_faithful_four :
    encode [1, 2, 3, 4] [⟨1, 2, "rd"⟩] = .ok ⟨"<b 0x01><rd 2><b 0x04>", 4, true⟩ ∧
      validateCPS "<b 0x01><rd 2><b 0x04>" = .ok () := by
  have hencode : encode [1, 2, 3, 4] [⟨1, 2, "rd"⟩] = .ok ⟨"<b 0x01><rd 2><b 0x04>", 4, true⟩ := by
    decide +kernel
  exact ⟨hencode, (encode_faithful _ _ _ hencode).1⟩

end LazGate.Cps

import LazGate.Text

/-!
# IPv4 addresses and networks

Addresses, their dotted-decimal text and prefixes, as Go's `net/netip` has them for IPv4. Text
that spells an IPv4 address in IPv6 form is not read as one.
-/

namespace LazGate

/-- An IPv4 address as a number. -/
abbrev IPv4 : Type := Fin (2 ^ 32)

instance neZero_addresses : NeZero (2 ^ 32) := ⟨by decide⟩

variable (a : IPv4)

namespace IPv4

/-- The four bytes of an address, from the left. -/
def octets (a : IPv4) : List ℕ :=
  [a.val / 2 ^ 24, a.val / 2 ^ 16 % 256, a.val / 2 ^ 8 % 256, a.val % 256]

/-- The text of an address. -/
def format (a : IPv4) : String :=
  String.ofList (['.'].intercalate (a.octets.map (Nat.toDigits 10)))

/-- A decimal byte without leading zeros. -/
def parseOctet (cs : List Char) : Option ℕ :=
  if cs = [] ∨ 3 < cs.length ∨ ¬ cs.all Char.isDigit ∨ (1 < cs.length ∧ cs.head? = some '0') then
    none
  else
    let n := cs.foldl (fun n c => 10 * n + (c.toNat - '0'.toNat)) 0
    if n < 256 then some n else none

/-- The address with the given bytes. -/
def ofOctets (a b c d : ℕ) : Option IPv4 :=
  let n := a * 2 ^ 24 + b * 2 ^ 16 + c * 2 ^ 8 + d
  if h : n < 2 ^ 32 then some ⟨n, h⟩ else none

/-- `netip.ParseAddr`, for IPv4 text. -/
def parse (s : String) : Option IPv4 :=
  match (s.toList.splitOn '.').mapM parseOctet with
  | some [a, b, c, d] => ofOctets a b c d
  | _ => none

theorem parseOctet_toDigits : ∀ n < 256, parseOctet (Nat.toDigits 10 n) = some n := by
  decide +kernel

theorem dot_not_mem_toDigits : ∀ n < 256, '.' ∉ Nat.toDigits 10 n := by
  decide +kernel

theorem octets_lt : ∀ n ∈ a.octets, n < 256 := by
  have := a.isLt
  simp only [octets, List.mem_cons, List.not_mem_nil, or_false]
  rintro n (rfl | rfl | rfl | rfl) <;> omega

theorem ofOctets_octets :
    ofOctets (a.val / 2 ^ 24) (a.val / 2 ^ 16 % 256) (a.val / 2 ^ 8 % 256) (a.val % 256) =
      some a := by
  have hsum : a.val / 2 ^ 24 * 2 ^ 24 + a.val / 2 ^ 16 % 256 * 2 ^ 16 +
      a.val / 2 ^ 8 % 256 * 2 ^ 8 + a.val % 256 = a.val := by omega
  simp only [ofOctets, hsum, a.isLt, dif_pos]

theorem mapM_parseOctet {l : List ℕ} (h : ∀ n ∈ l, n < 256) :
    (l.map (Nat.toDigits 10)).mapM parseOctet = some l := by
  induction l with
  | nil => rfl
  | cons n l ih =>
    rw [List.forall_mem_cons] at h
    rw [List.map_cons, List.mapM_cons, parseOctet_toDigits n h.1, ih h.2]
    rfl

@[simp] theorem parse_format : parse a.format = some a := by
  have hsplit : (['.'].intercalate (a.octets.map (Nat.toDigits 10))).splitOn '.' =
      a.octets.map (Nat.toDigits 10) := by
    refine List.splitOn_intercalate '.' ?_ (by simp [octets])
    intro l hl
    obtain ⟨n, hn, rfl⟩ := List.mem_map.1 hl
    exact dot_not_mem_toDigits n (octets_lt a n hn)
  unfold parse format
  rw [String.toList_ofList, hsplit, mapM_parseOctet (octets_lt a)]
  exact ofOctets_octets a

theorem isSome_of_mapM {α β : Type} {f : α → Option β} {l : List α} {r : List β}
    (h : l.mapM f = some r) : ∀ x ∈ l, (f x).isSome = true := by
  induction l generalizing r with
  | nil => intro x hx; cases hx
  | cons a l ih =>
    rw [List.mapM_cons] at h
    obtain ⟨b, hb, h⟩ := Option.bind_eq_some_iff.1 h
    obtain ⟨r', hr', -⟩ := Option.bind_eq_some_iff.1 h
    intro x hx
    rcases List.mem_cons.1 hx with rfl | hx
    · rw [hb]; rfl
    · exact ih hr' x hx

theorem isDigit_of_parseOctet {cs : List Char} (h : (parseOctet cs).isSome = true) :
    ∀ c ∈ cs, c.isDigit = true := by
  unfold parseOctet at h
  split at h
  · cases h
  · next hcs =>
    simp only [not_or, Decidable.not_not] at hcs
    exact fun c hc => List.all_eq_true.1 hcs.2.2.1 c hc

theorem mem_of_parse {s : String} {a : IPv4} (h : parse s = some a) {c : Char} (hc : c ∈ s.toList) :
    c.isDigit = true ∨ c = '.' := by
  cases hm : (s.toList.splitOn '.').mapM parseOctet with
  | none =>
    rw [parse, hm] at h
    cases h
  | some l =>
    rcases mem_of_splitOn _ hc with hdot | ⟨part, hpart, hc⟩
    · exact .inr hdot
    · exact .inl (isDigit_of_parseOctet (isSome_of_mapM hm part hpart) c hc)

theorem mem_format {c : Char} (hc : c ∈ a.format.toList) :
    c.isDigit = true ∨ c = '.' :=
  mem_of_parse (parse_format a) hc

theorem dot_mem_format : '.' ∈ a.format.toList := by
  simp [format, octets, List.intercalate]

theorem format_ne_empty : a.format ≠ "" := fun h => by
  have hdot := dot_mem_format a
  rw [h] at hdot
  cases hdot

theorem trimSpace_format : trimSpace a.format = a.format := by
  refine trimSpace_of_forall fun c hc => ?_
  rcases mem_format a hc with hdigit | rfl
  · exact isSpace_of_isDigit hdigit
  · decide

theorem format_injective : Function.Injective format := fun a b h => by
  simpa using congrArg parse h

end IPv4

/-- An IPv4 prefix: an address and the number of its leading bits that name the network. -/
structure Network where
  addr : IPv4
  bits : ℕ
  bits_le : bits ≤ 32
  deriving DecidableEq

namespace Network

/-- The number of addresses. -/
def size (n : Network) : ℕ := 2 ^ (32 - n.bits)

/-- `netipx.RangeOfPrefix(n).From()`, the network address. -/
def first (n : Network) : IPv4 :=
  ⟨n.addr.val / n.size * n.size, (Nat.div_mul_le_self _ _).trans_lt n.addr.isLt⟩

def contains (n : Network) (a : IPv4) : Bool := a.val / n.size == n.addr.val / n.size

def masked (n : Network) : Network := { n with addr := n.first }

def format (n : Network) : String :=
  String.ofList (n.addr.format.toList ++ '/' :: Nat.toDigits 10 n.bits)

/-- `netip.ParsePrefix`, for IPv4 text. -/
def parse (s : String) : Option Network :=
  match s.toList.splitOn '/' with
  | [addr, bits] =>
    match IPv4.parse (String.ofList addr), IPv4.parseOctet bits with
    | some addr, some bits => if h : bits ≤ 32 then some ⟨addr, bits, h⟩ else none
    | _, _ => none
  | _ => none

theorem slash_not_mem_toDigits : ∀ n < 256, '/' ∉ Nat.toDigits 10 n := by
  decide +kernel

theorem slash_not_mem_format : '/' ∉ a.format.toList := by
  have hdigits := fun n hn => slash_not_mem_toDigits n (a.octets_lt n hn)
  simp only [IPv4.octets, List.mem_cons, List.not_mem_nil, or_false, forall_eq_or_imp,
    forall_eq] at hdigits
  simpa [IPv4.format, IPv4.octets, List.intercalate] using hdigits

@[simp] theorem parse_format (n : Network) : parse n.format = some n := by
  have hbits : n.bits < 256 := n.bits_le.trans_lt (by decide)
  have hsplit : (n.addr.format.toList ++ '/' :: Nat.toDigits 10 n.bits).splitOn '/' =
      [n.addr.format.toList, Nat.toDigits 10 n.bits] := by
    have h : (['/'].intercalate [n.addr.format.toList, Nat.toDigits 10 n.bits]).splitOn '/' =
        [n.addr.format.toList, Nat.toDigits 10 n.bits] := List.splitOn_intercalate '/'
      (by simp [slash_not_mem_format, slash_not_mem_toDigits n.bits hbits]) (by simp)
    simpa [List.intercalate] using h
  simp only [parse, format, String.toList_ofList, hsplit, String.ofList_toList,
    IPv4.parse_format, IPv4.parseOctet_toDigits n.bits hbits, n.bits_le, dif_pos]

end Network

end LazGate

import LazGate.IPv4

/-!
# Addresses of both families

Packages `net` and `net/netip`: an address of either family and its text, `ParseIP`, `ParseCIDR`,
and the texts of a host with a port. Zones are refused by every caller, so an address has none.
-/

namespace LazGate.Net

/-! ## IPv6 text -/

/-- An IPv6 address as a number. -/
abbrev IPv6 : Type := Fin (2 ^ 128)

/-- The value of a hexadecimal digit. -/
def hexDigit (c : Char) : Option ℕ :=
  if '0' ≤ c ∧ c ≤ '9' then some (c.toNat - '0'.toNat)
  else if 'a' ≤ c ∧ c ≤ 'f' then some (c.toNat - 'a'.toNat + 10)
  else if 'A' ≤ c ∧ c ≤ 'F' then some (c.toNat - 'A'.toNat + 10)
  else none

def hexNumber (cs : List Char) : ℕ :=
  cs.foldl (fun n c => 16 * n + (hexDigit c).getD 0) 0

/-- The groups of 16 bits that the loop of `parseIPv6` has read, and where `::` stood. -/
structure Groups where
  groups : List ℕ
  ellipsis : Option ℕ

/-- The two groups of an IPv4 address at the end of an IPv6 one. -/
def ipv4Groups (a : IPv4) : List ℕ := [a.val / 2 ^ 16, a.val % 2 ^ 16]

/-- The loop of `parseIPv6`: a group, and a colon before the next one. Eight groups end it. -/
def parseGroups : ℕ → Groups → List Char → Option Groups
  | 0, read, cs => if cs = [] then some read else none
  | fuel + 1, read, cs =>
    let digits := cs.takeWhile fun c => (hexDigit c).isSome
    if digits = [] ∨ 4 < digits.length then none
    else
      match cs.dropWhile fun c => (hexDigit c).isSome with
      -- an IPv4 address ends the text, where two groups fit
      | '.' :: _ =>
        if read.ellipsis = none ∧ read.groups.length ≠ 6 ∨ 6 < read.groups.length then none
        else (IPv4.parse (String.ofList cs)).map fun a =>
          { read with groups := read.groups ++ ipv4Groups a }
      | [] => some { read with groups := read.groups ++ [hexNumber digits] }
      | ':' :: [] => none
      | ':' :: ':' :: rest =>
        if read.ellipsis.isSome then none
        else
          let read : Groups :=
            { groups := read.groups ++ [hexNumber digits]
              ellipsis := some (read.groups.length + 1) }
          if rest = [] then some read else parseGroups fuel read rest
      | ':' :: rest =>
        parseGroups fuel { read with groups := read.groups ++ [hexNumber digits] } rest
      | _ => none

/-- The number of eight groups. -/
def ofGroups (groups : List ℕ) : ℕ := groups.foldl (fun n g => 2 ^ 16 * n + g) 0

/-- The eight groups of an address whose text left out a run of zeros. -/
def expand (read : Groups) : Option (List ℕ) :=
  match read.ellipsis with
  | none => if read.groups.length = 8 then some read.groups else none
  | some start =>
    if read.groups.length < 8 then
      some (read.groups.take start ++ List.replicate (8 - read.groups.length) 0 ++
        read.groups.drop start)
    else none

/-- `parseIPv6`, for text without a zone. -/
def parseIPv6 (s : String) : Option IPv6 :=
  let read : Option Groups :=
    match s.toList with
    | ':' :: ':' :: [] => some ⟨[], some 0⟩
    | ':' :: ':' :: rest => parseGroups 8 ⟨[], some 0⟩ rest
    | cs => parseGroups 8 ⟨[], none⟩ cs
  match read.bind expand with
  | some groups => if h : ofGroups groups < 2 ^ 128 then some ⟨ofGroups groups, h⟩ else none
  | none => none

def groups (a : IPv6) : List ℕ := (List.range 8).map fun i => a.val / 2 ^ (16 * (7 - i)) % 2 ^ 16

/-- The longest run of at least two zero groups, the first one of its length: its start and its
length. -/
def zeroRun (groups : List ℕ) : Option (ℕ × ℕ) :=
  (List.range groups.length).foldl (fun best i =>
    let run := ((groups.drop i).takeWhile (· = 0)).length
    if 2 ≤ run ∧ (best.map (·.2)).getD 0 < run then some (i, run) else best) none

/-- The text of an address. -/
def formatIPv6 (a : IPv6) : String :=
  let colons : List ℕ → List Char := fun l => [':'].intercalate (l.map (Nat.toDigits 16))
  let all := groups a
  String.ofList <|
    match zeroRun all with
    | none => colons all
    | some (start, run) => colons (all.take start) ++ [':', ':'] ++ colons (all.drop (start + run))

/-! ## Addresses -/

/-- `netip.Addr`, without a zone. -/
inductive Addr where
  | v4 (a : IPv4)
  | v6 (a : IPv6)
  deriving DecidableEq

/-- `ParseAddr`: the first dot or colon tells the family. A text with a zone gives no address,
as none of the callers takes one. -/
def parseAddr (s : String) : Option Addr :=
  match s.toList.find? fun c => c = '.' ∨ c = ':' ∨ c = '%' with
  | some '.' => (IPv4.parse s).map .v4
  | some ':' => (parseIPv6 s).map .v6
  | _ => none

def Addr.bitLen : Addr → ℕ
  | .v4 _ => 32
  | .v6 _ => 128

/-- The address that a number of 128 bits holds when its upper part is that of IPv4 addresses. -/
def to4Number (n : ℕ) : Option IPv4 :=
  if n / 2 ^ 32 = 0xffff then some ⟨n % 2 ^ 32, Nat.mod_lt _ (by decide)⟩ else none

/-- `To4` of the address in 16 bytes. -/
def Addr.to4 : Addr → Option IPv4
  | .v4 a => some a
  | .v6 a => to4Number a.val

/-- `String` of the address in 16 bytes. -/
def Addr.format (a : Addr) : String :=
  match a.to4, a with
  | some a, _ => a.format
  | none, .v6 a => formatIPv6 a
  | none, .v4 a => a.format

def parseIP (s : String) : Option Addr := parseAddr s

theorem parseIP_format (a : IPv4) : parseIP a.format = some (.v4 a) := by
  have hfirst : a.format.toList.find? (fun c => c = '.' ∨ c = ':' ∨ c = '%') = some '.' := by
    cases hfind : a.format.toList.find? (fun c => c = '.' ∨ c = ':' ∨ c = '%') with
    | none =>
      have hnone := List.find?_eq_none.1 hfind '.' (IPv4.dot_mem_format a)
      exact absurd (by decide) hnone
    | some c =>
      have hc : c = '.' ∨ c = ':' ∨ c = '%' := by simpa using List.find?_some hfind
      rcases IPv4.mem_format a (List.mem_of_find?_eq_some hfind) with hdigit | rfl
      · rcases hc with rfl | rfl | rfl <;> exact absurd hdigit (by decide)
      · rfl
  rw [parseIP, parseAddr, hfirst]
  simp only [IPv4.parse_format, Option.map_some]

/-- `dtoi` on a whole text: a decimal number below `0xFFFFFF`. -/
def dtoi (cs : List Char) : Option ℕ :=
  let n := cs.foldl (fun n c => 10 * n + (c.toNat - '0'.toNat)) 0
  if cs = [] ∨ ¬ cs.all Char.isDigit ∨ 0xFFFFFF ≤ n then none else some n

/-- The address and the length of the mask that `ParseCIDR` reads. -/
structure CIDR where
  addr : Addr
  ones : ℕ

/-- The texts before and after the first `sep`. -/
def cut (sep : Char) (cs : List Char) : Option (List Char × List Char) :=
  if sep ∈ cs then some (cs.takeWhile (· ≠ sep), (cs.dropWhile (· ≠ sep)).drop 1) else none

def parseCIDR (s : String) : Option CIDR := do
  let (addr, mask) ← cut '/' s.toList
  let addr ← parseAddr (String.ofList addr)
  let ones ← dtoi mask
  if ones ≤ addr.bitLen then some ⟨addr, ones⟩ else none

/-- `network.IP`, in 16 bytes, with the bits after the mask cleared; the number of an IPv4
address is that of its four bytes. -/
def CIDR.to4 (n : CIDR) : Option IPv4 :=
  match n.addr with
  | .v4 a => some ⟨a.val / 2 ^ (32 - n.ones) * 2 ^ (32 - n.ones),
      (Nat.div_mul_le_self _ _).trans_lt a.isLt⟩
  | .v6 a => to4Number (a.val / 2 ^ (128 - n.ones) * 2 ^ (128 - n.ones))

/-- The number of the leading bits of the four bytes that the mask covers: the mask of an IPv6
network is read from its last four bytes. -/
def CIDR.ones4 (n : CIDR) : ℕ :=
  match n.addr with
  | .v4 _ => n.ones
  | .v6 _ => n.ones - 96

/-- `network.Contains`, for a network whose address is an IPv4 one. -/
def CIDR.contains4 (n : CIDR) (a : IPv4) : Bool :=
  match n.to4 with
  | some base => a.val / 2 ^ (32 - n.ones4) == base.val / 2 ^ (32 - n.ones4)
  | none => false

/-! ## The characters in the text of an address -/

/-- A character that is in no text of an address or network. -/
def Foreign (x : Char) : Prop :=
  x.isDigit = false ∧ hexDigit x = none ∧ x ≠ '.' ∧ x ≠ ':' ∧ x ≠ '/'

instance (x : Char) : Decidable (Foreign x) := inferInstanceAs (Decidable (_ ∧ _))

variable {s : String} {cs : List Char}

section Foreign

variable {x : Char} (hx : Foreign x)

include hx

theorem Foreign.not_mem_of_parseIPv4 {a : IPv4} (h : IPv4.parse (String.ofList cs) = some a) :
    x ∉ cs := by
  intro hmem
  rcases IPv4.mem_of_parse h (by simpa using hmem) with hdigit | hdot
  · rw [hx.1] at hdigit
    cases hdigit
  · exact hx.2.2.1 hdot

theorem Foreign.not_mem_of_parseGroups {fuel : ℕ} {read result : Groups}
    (h : parseGroups fuel read cs = some result) : x ∉ cs := by
  induction fuel generalizing read cs with
  | zero =>
    unfold parseGroups at h
    split at h
    · next hcs => simp [hcs]
    · cases h
  | succ fuel ih =>
    have hsplit : cs.takeWhile (fun c => (hexDigit c).isSome) ++
        cs.dropWhile (fun c => (hexDigit c).isSome) = cs := List.takeWhile_append_dropWhile
    have hdigits : x ∉ cs.takeWhile fun c => (hexDigit c).isSome := fun hmem => by
      have hsome := List.mem_takeWhile_imp hmem
      rw [hx.2.1] at hsome
      cases hsome
    -- the character would have to be in what follows the digits
    have hrest : x ∉ cs.dropWhile (fun c => (hexDigit c).isSome) → x ∉ cs := by
      intro hdrop hmem
      rw [← hsplit, List.mem_append] at hmem
      exact hmem.elim hdigits hdrop
    unfold parseGroups at h
    simp only at h
    split at h
    · cases h
    · split at h
      · split at h
        · cases h
        · obtain ⟨a, ha, -⟩ := Option.map_eq_some_iff.1 h
          exact hx.not_mem_of_parseIPv4 ha
      · next hdrop => exact hrest (by simp [hdrop])
      · cases h
      · next hdrop =>
        split at h
        · cases h
        · split at h
          · next hnil => exact hrest (by simp [hdrop, hnil, hx.2.2.2.1])
          · exact hrest (by simpa [hdrop, hx.2.2.2.1] using ih h)
      · next hdrop => exact hrest (by simpa [hdrop, hx.2.2.2.1] using ih h)
      · cases h

theorem Foreign.not_mem_of_parseIPv6 {a : IPv6} (h : parseIPv6 s = some a) :
    x ∉ s.toList := by
  unfold parseIPv6 at h
  simp only at h
  split at h
  · next groups hread =>
    obtain ⟨read, hread, -⟩ := Option.bind_eq_some_iff.1 hread
    split at hread
    · next hs => simp [hs, hx.2.2.2.1]
    · next rest hs => simpa [hs, hx.2.2.2.1] using hx.not_mem_of_parseGroups hread
    · exact hx.not_mem_of_parseGroups hread
  · cases h

theorem Foreign.not_mem_of_parseAddr {a : Addr} (h : parseAddr s = some a) :
    x ∉ s.toList := by
  unfold parseAddr at h
  split at h
  · obtain ⟨b, hb, -⟩ := Option.map_eq_some_iff.1 h
    exact hx.not_mem_of_parseIPv4 (by simpa using hb)
  · obtain ⟨b, hb, -⟩ := Option.map_eq_some_iff.1 h
    exact hx.not_mem_of_parseIPv6 hb
  · cases h

theorem Foreign.not_mem_of_parseCIDR {n : CIDR} (h : parseCIDR s = some n) :
    x ∉ s.toList := by
  obtain ⟨⟨addr, mask⟩, hcut, h⟩ := Option.bind_eq_some_iff.1 h
  obtain ⟨a, ha, h⟩ := Option.bind_eq_some_iff.1 h
  obtain ⟨ones, hones, -⟩ := Option.bind_eq_some_iff.1 h
  have haddr : x ∉ addr := by simpa using hx.not_mem_of_parseAddr ha
  have hmask : x ∉ mask := by
    intro hmem
    unfold dtoi at hones
    simp only at hones
    split at hones
    · cases hones
    · next hdigits =>
      simp only [not_or, Decidable.not_not] at hdigits
      have hdigit := List.all_eq_true.1 hdigits.2.1 x hmem
      rw [hx.1] at hdigit
      cases hdigit
  unfold cut at hcut
  split at hcut
  · next hslash =>
    cases hcut
    intro hmem
    have hsplit : s.toList.takeWhile (· ≠ '/') ++ s.toList.dropWhile (· ≠ '/') = s.toList :=
      List.takeWhile_append_dropWhile
    rw [← hsplit, List.mem_append] at hmem
    refine hmem.elim haddr fun hdrop => hmask ?_
    cases hd : s.toList.dropWhile (· ≠ '/') with
    | nil => rw [hd] at hdrop; cases hdrop
    | cons c rest =>
      rw [hd] at hdrop
      rcases List.mem_cons.1 hdrop with rfl | hrest
      · have hnot := List.head?_dropWhile_not (p := fun c => decide (c ≠ '/')) (l := s.toList)
        rw [hd] at hnot
        exact absurd (by simpa using hnot) hx.2.2.2.2
      · simpa using hrest
  · cases hcut

theorem Foreign.ne_digitChar {n : ℕ} (hn : n < 16) : x ≠ Nat.digitChar n := by
  have hsome : ∀ n < 16, (hexDigit (Nat.digitChar n)).isSome = true := by decide
  rintro rfl
  have hdigit := hsome n hn
  rw [hx.2.1] at hdigit
  cases hdigit

theorem Foreign.not_mem_toDigits {b : ℕ} (hb : 1 < b) (hb' : b ≤ 16) (n : ℕ) :
    x ∉ Nat.toDigits b n := by
  induction n using Nat.strong_induction_on with
  | _ n ih =>
    rw [Nat.toDigits_eq_if hb]
    split
    · rename_i hn
      simpa using hx.ne_digitChar (by omega)
    · have hlt : n / b < n := Nat.div_lt_self (by omega) hb
      have hmod : n % b < b := Nat.mod_lt n (by omega)
      rw [List.mem_append, List.mem_singleton, not_or]
      exact ⟨ih _ hlt, hx.ne_digitChar (by omega)⟩

theorem Foreign.not_mem_colons (l : List ℕ) :
    x ∉ [':'].intercalate (l.map (Nat.toDigits 16)) := by
  intro hmem
  rcases mem_of_mem_intercalate hmem with hmem | ⟨part, hpart, hmem⟩
  · exact hx.2.2.2.1 (List.mem_singleton.1 hmem)
  · obtain ⟨n, -, rfl⟩ := List.mem_map.1 hpart
    exact hx.not_mem_toDigits (by decide) (by decide) n hmem

theorem Foreign.not_mem_formatIPv6 (a : IPv6) : x ∉ (formatIPv6 a).toList := by
  have hcolons : x ∉ [':', ':'] := by simpa using hx.2.2.2.1
  unfold formatIPv6
  rw [String.toList_ofList]
  split
  · exact hx.not_mem_colons _
  · simp only [List.mem_append, not_or]
    exact ⟨⟨hx.not_mem_colons _, hcolons⟩, hx.not_mem_colons _⟩

theorem Foreign.not_mem_formatIPv4 (a : IPv4) : x ∉ a.format.toList := by
  intro hmem
  rcases a.mem_format hmem with hdigit | hdot
  · rw [hx.1] at hdigit
    cases hdigit
  · exact hx.2.2.1 hdot

theorem Foreign.not_mem_format (a : Addr) : x ∉ a.format.toList := by
  unfold Addr.format
  split
  · exact hx.not_mem_formatIPv4 _
  · exact hx.not_mem_formatIPv6 _
  · exact hx.not_mem_formatIPv4 _

end Foreign

/-! ## Hosts and ports -/

def splitHostPort (s : String) : Option (String × String) :=
  let cs := s.toList.reverse
  if ':' ∉ cs then none
  else
    let port := (cs.takeWhile (· ≠ ':')).reverse
    let before := ((cs.dropWhile (· ≠ ':')).drop 1).reverse
    if '[' ∈ port ∨ ']' ∈ port then none
    else
      match before with
      | '[' :: inner =>
        -- the first closing bracket stands right before the last colon
        if inner.getLast? = some ']' ∧ ']' ∉ inner.dropLast ∧ '[' ∉ inner then
          some (String.ofList inner.dropLast, String.ofList port)
        else none
      | host =>
        if ':' ∈ host ∨ '[' ∈ host ∨ ']' ∈ host then none
        else some (String.ofList host, String.ofList port)

variable {port : List Char}

/-- What is split stands around the last colon; a host with a colon in it is in brackets. -/
theorem splitHostPort_eq_some {s host p : String} (h : splitHostPort s = some (host, p)) :
    ∃ before, s.toList = before ++ ':' :: p.toList ∧
      (before.head? = some '[' ∨ ':' ∉ before) := by
  unfold splitHostPort at h
  dsimp only at h
  split at h
  · cases h
  rename_i hcolon
  rw [not_not] at hcolon
  split at h
  · cases h
  generalize hbefore : ((s.toList.reverse.dropWhile (· ≠ ':')).drop 1).reverse = before at h
  have hsplit : s.toList = before ++ ':' :: (s.toList.reverse.takeWhile (· ≠ ':')).reverse := by
    have hdrop : s.toList.reverse.dropWhile (· ≠ ':') ≠ [] := fun hnil => by
      simpa using List.dropWhile_eq_nil_iff.1 hnil ':' hcolon
    have hhead : s.toList.reverse.dropWhile (· ≠ ':') = ':' :: before.reverse := by
      have hfirst := List.head_dropWhile_not (· ≠ ':') hdrop
      simp only [decide_eq_false_iff_not, not_not] at hfirst
      rw [← hbefore, List.reverse_reverse, List.drop_one]
      exact (List.cons_head_tail hdrop).symm.trans (congrArg (· :: _) hfirst)
    have hcat := List.takeWhile_append_dropWhile (p := (· ≠ ':')) (l := s.toList.reverse)
    rw [hhead] at hcat
    have hreverse := congrArg List.reverse hcat
    rw [List.reverse_append, List.reverse_cons, List.reverse_reverse, List.reverse_reverse,
      List.append_assoc, List.singleton_append] at hreverse
    exact hreverse.symm
  refine ⟨before, ?_, ?_⟩
  · split at h
    · split at h
      · rw [← (Prod.mk.inj (Option.some.inj h)).2, String.toList_ofList]
        exact hsplit
      · cases h
    · split at h
      · cases h
      · rw [← (Prod.mk.inj (Option.some.inj h)).2, String.toList_ofList]
        exact hsplit
  · split at h
    · exact .inl rfl
    · split at h
      · cases h
      · rename_i hnot
        exact .inr fun hmem => hnot (.inl hmem)

def joinHostPort (host port : String) : String :=
  if ':' ∈ host.toList then "[" ++ host ++ "]:" ++ port else host ++ ":" ++ port

end LazGate.Net

import LazGate.Amnezia.ClientFile
import LazGate.Server.Connections

/-!
# Allocating a client address

`nextAvailableIPv4` walks over the pool byte by byte, from the first client address to the last,
until it meets an address that is not used.
-/

namespace LazGate.Allocation

open NativeAWG

/-! ## Bytes -/

/-- The number that the bytes spell, the first byte being the highest. -/
def value : List UInt8 → ℕ
  | [] => 0
  | b :: bs => b.toNat * 256 ^ bs.length + value bs

variable (bs : List UInt8)

theorem value_lt : value bs < 256 ^ bs.length := by
  induction bs with
  | nil => simp [value]
  | cons b bs ih =>
    have hb : b.toNat + 1 ≤ 256 := b.toNat_lt
    calc value (b :: bs) < b.toNat * 256 ^ bs.length + 256 ^ bs.length := by
          rw [value]
          omega
      _ = (b.toNat + 1) * 256 ^ bs.length := by ring
      _ ≤ 256 * 256 ^ bs.length := Nat.mul_le_mul_right _ hb
      _ = 256 ^ (b :: bs).length := by rw [List.length_cons, pow_succ, mul_comm]

theorem byte_trichotomy (a b : UInt8) : a < b ∨ a = b ∨ b < a := by
  rw [UInt8.lt_iff_toNat_lt, UInt8.lt_iff_toNat_lt, ← UInt8.toNat_inj]
  omega

theorem value_lt_of_head_lt {a b : UInt8} {as bs : List UInt8} (hlen : as.length = bs.length)
    (h : a < b) : value (a :: as) < value (b :: bs) := by
  have hab : a.toNat + 1 ≤ b.toNat := UInt8.lt_iff_toNat_lt.1 h
  calc value (a :: as) < a.toNat * 256 ^ as.length + 256 ^ as.length := by
        have := value_lt as
        rw [value]
        omega
    _ = (a.toNat + 1) * 256 ^ bs.length := by
        rw [hlen]
        ring
    _ ≤ b.toNat * 256 ^ bs.length := Nat.mul_le_mul_right _ hab
    _ ≤ value (b :: bs) := by
        rw [value]
        omega

theorem value_injective {as bs : List UInt8} (hlen : as.length = bs.length)
    (h : value as = value bs) : as = bs := by
  induction as generalizing bs with
  | nil =>
    cases bs with
    | nil => rfl
    | cons b bs => cases hlen
  | cons a as ih =>
    cases bs with
    | nil => cases hlen
    | cons b bs =>
      have hrest : as.length = bs.length := Nat.succ.inj hlen
      rcases byte_trichotomy a b with hlt | rfl | hlt
      · exact absurd h (value_lt_of_head_lt hrest hlt).ne
      · rw [value, value, hrest] at h
        rw [ih hrest (by omega)]
      · exact absurd h (value_lt_of_head_lt hrest.symm hlt).ne'

theorem compareIP_le_iff {as bs : List UInt8} (hlen : as.length = bs.length) :
    compareIP as bs ≤ 0 ↔ value as ≤ value bs := by
  induction as generalizing bs with
  | nil =>
    cases bs with
    | nil => simp [compareIP, value]
    | cons b bs => cases hlen
  | cons a as ih =>
    cases bs with
    | nil => cases hlen
    | cons b bs =>
      have hrest : as.length = bs.length := Nat.succ.inj hlen
      rw [compareIP]
      rcases byte_trichotomy a b with hlt | rfl | hlt
      · rw [if_pos hlt]
        exact iff_of_true (by decide) (value_lt_of_head_lt hrest hlt).le
      · rw [if_neg (UInt8.lt_irrefl a), if_neg (UInt8.lt_irrefl a), ih hrest, value, value, hrest]
        omega
      · rw [if_neg (UInt8.lt_asymm hlt), if_pos hlt]
        exact iff_of_false (by decide) (value_lt_of_head_lt hrest.symm hlt).not_ge

/-- Incrementing adds one, or leaves zeros and carries. -/
theorem increment_spec :
    (increment bs).1.length = bs.length ∧
      value (increment bs).1 + (if (increment bs).2 then 256 ^ bs.length else 0) =
        value bs + 1 := by
  induction bs with
  | nil => exact ⟨rfl, by simp [increment, value]⟩
  | cons b bs ih =>
    obtain ⟨hlen, hval⟩ := ih
    cases hcarry : (increment bs).2 with
    | false =>
      have hinc : increment (b :: bs) = (b :: (increment bs).1, false) := by
        rw [increment, hcarry]
        simp
      rw [hcarry] at hval
      rw [hinc]
      refine ⟨by simp [hlen], ?_⟩
      simp only [Bool.false_eq_true, if_false, add_zero, value, hlen] at hval ⊢
      omega
    | true =>
      have hinc : increment (b :: bs) = ((b + 1) :: (increment bs).1, b + 1 == 0) := by
        rw [increment, hcarry]
        simp
      rw [hcarry] at hval
      rw [hinc]
      refine ⟨by simp [hlen], ?_⟩
      simp only [if_true] at hval
      have hb := b.toNat_lt
      have hsucc : (b + 1).toNat = (b.toNat + 1) % 256 := by simp [UInt8.toNat_add]
      -- the carry out of this byte is the missing 256
      have hbyte : (b + 1).toNat + (if b + 1 = 0 then 256 else 0) = b.toNat + 1 := by
        by_cases hzero : b + 1 = 0
        · have : (b + 1).toNat = 0 := by rw [hzero]; rfl
          rw [if_pos hzero]
          omega
        · have : (b + 1).toNat ≠ 0 := fun h => hzero (UInt8.toNat_inj.1 h)
          rw [if_neg hzero]
          omega
      have hpow : (256 : ℕ) ^ (b :: bs).length = 256 * 256 ^ bs.length := by
        rw [List.length_cons, pow_succ, mul_comm]
      have hmul := congrArg (· * 256 ^ bs.length) hbyte
      simp only [beq_iff_eq, value, hlen, hpow] at hmul ⊢
      split at hmul <;> split <;> first | contradiction | nlinarith

/-! ## Addresses as bytes and as numbers -/

variable (a : IPv4)

theorem length_bytes : (bytes a).length = 4 := rfl

theorem map_toNat_bytes : (bytes a).map UInt8.toNat = a.octets := by
  rw [bytes, List.map_map]
  refine (List.map_congr_left fun n hn => ?_).trans (List.map_id _)
  have hn := IPv4.octets_lt a n hn
  exact (UInt8.toNat_ofNat_of_lt hn)

theorem ipString_bytes : ipString (bytes a) = a.format := by
  have hmap : (bytes a).map (fun b => Nat.toDigits 10 b.toNat) =
      a.octets.map (Nat.toDigits 10) := by
    rw [← map_toNat_bytes, List.map_map]
    rfl
  rw [ipString, hmap, IPv4.format]

theorem value_bytes : value (bytes a) = a.val := by
  have hbytes : ∀ n ∈ a.octets, (UInt8.ofNat n).toNat = n := fun n hn =>
    UInt8.toNat_ofNat_of_lt (IPv4.octets_lt a n hn)
  simp only [IPv4.octets, List.mem_cons, List.not_mem_nil, or_false, forall_eq_or_imp,
    forall_eq] at hbytes
  obtain ⟨h₀, h₁, h₂, h₃⟩ := hbytes
  have := a.isLt
  simp only [bytes, IPv4.octets, List.map_cons, List.map_nil, value, h₀, h₁, h₂, h₃,
    List.length_cons, List.length_nil]
  omega

theorem compareIP_bytes_le_iff (b : IPv4) : compareIP (bytes a) (bytes b) ≤ 0 ↔ a ≤ b := by
  have hlen : (bytes a).length = (bytes b).length := by rw [length_bytes, length_bytes]
  rw [compareIP_le_iff hlen, value_bytes, value_bytes, Fin.le_def]

theorem nextIP_bytes : nextIP (bytes a) = bytes (a + 1) := by
  obtain ⟨hlen, hval⟩ := increment_spec (bytes a)
  refine value_injective hlen ?_
  have hlt : value (nextIP (bytes a)) < 2 ^ 32 := by
    have := value_lt (nextIP (bytes a))
    rw [nextIP, hlen, length_bytes] at this
    exact this
  have hpow : (256 : ℕ) ^ (bytes a).length = 2 ^ 32 := by
    rw [length_bytes]
    norm_num
  have hsucc : (a + 1).val = (a.val + 1) % 2 ^ 32 := by
    rw [Fin.val_add]
    rfl
  rw [value_bytes, hpow] at hval
  rw [value_bytes, hsucc, nextIP]
  rw [nextIP] at hlt
  split at hval <;> omega

/-! ## The walk over the pool -/

def walkNumbers (used : List String) (last : IPv4) : ℕ → IPv4 → Option (Except String String)
  | 0, current =>
    if current ≤ last then none else some (.error "amneziawg IPv4 pool exhausted")
  | rounds + 1, current =>
    if current ≤ last then
      if used.contains current.format then walkNumbers used last rounds (current + 1)
      else some (.ok current.format)
    else some (.error "amneziawg IPv4 pool exhausted")

theorem walk_bytes (used : List String) (last : IPv4) (rounds : ℕ) (current : IPv4) :
    walk used (bytes last) rounds (bytes current) = walkNumbers used last rounds current := by
  induction rounds generalizing current with
  | zero => simp only [walk, walkNumbers, compareIP_bytes_le_iff]
  | succ rounds ih =>
    simp only [walk, walkNumbers, compareIP_bytes_le_iff, ipString_bytes, nextIP_bytes, ih]

section Walk

variable {used : List String} {last : IPv4}

theorem val_add_one {a : IPv4} (h : a.val + 1 < 2 ^ 32) : (a + 1).val = a.val + 1 := by
  rw [Fin.val_add]
  exact Nat.mod_eq_of_lt h

theorem walkNumbers_finds {a current : IPv4} (hle : current ≤ a) (hlast : a ≤ last)
    (hfree : a.format ∉ used) (hused : ∀ b, current ≤ b → b < a → b.format ∈ used) :
    walkNumbers used last (a.val - current.val + 1) current = some (.ok a.format) := by
  induction hd : a.val - current.val generalizing current with
  | zero =>
    obtain rfl : current = a := le_antisymm hle (Fin.le_def.2 (by omega))
    rw [walkNumbers, if_pos hlast, if_neg (by simpa using hfree)]
  | succ d ih =>
    have hlt : current < a := Fin.lt_def.2 (by omega)
    have hnext : (current + 1).val = current.val + 1 :=
      val_add_one (by have := a.isLt; have := Fin.lt_def.1 hlt; omega)
    have hmem : used.contains current.format = true := by
      simpa using hused current le_rfl hlt
    rw [walkNumbers, if_pos (hle.trans hlast), if_pos hmem]
    refine ih (Fin.le_def.2 ?_) (fun b hb hba => hused b (le_trans ?_ hb) hba) ?_
    · have := Fin.lt_def.1 hlt
      omega
    · exact Fin.le_def.2 (by omega)
    · omega

theorem walkNumbers_exhausts (hend : last.val + 1 < 2 ^ 32) {current : IPv4}
    (hle : current.val ≤ last.val + 1) (hused : ∀ b, current ≤ b → b ≤ last → b.format ∈ used) :
    walkNumbers used last (last.val + 1 - current.val) current =
      some (.error "amneziawg IPv4 pool exhausted") := by
  induction hd : last.val + 1 - current.val generalizing current with
  | zero =>
    have hgt : ¬ current ≤ last := fun h => by
      have := Fin.le_def.1 h
      omega
    rw [walkNumbers, if_neg hgt]
  | succ d ih =>
    have hcur : current ≤ last := Fin.le_def.2 (by omega)
    have hnext : (current + 1).val = current.val + 1 := val_add_one (by omega)
    have hmem : used.contains current.format = true := by
      simpa using hused current le_rfl hcur
    rw [walkNumbers, if_pos hcur, if_pos hmem]
    refine ih (by omega) (fun b hb hbl => hused b (le_trans ?_ hb) hbl) (by omega)
    exact Fin.le_def.2 (by omega)

/-- No address is above the last one there is. -/
theorem walkNumbers_never_exhausts (hend : last.val = 2 ^ 32 - 1) {e : String} (rounds : ℕ)
    (current : IPv4) : walkNumbers used last rounds current ≠ some (.error e) := by
  have hle : ∀ a : IPv4, a ≤ last := fun a => Fin.le_def.2 (by have := a.isLt; omega)
  induction rounds generalizing current with
  | zero => simp [walkNumbers, hle current]
  | succ rounds ih =>
    rw [walkNumbers, if_pos (hle current)]
    split
    · exact ih _
    · nofun

/-- While the walk goes on, it meets used addresses. -/
theorem mem_used_of_walkNumbers {rounds : ℕ} {current : IPv4}
    (h : walkNumbers used last rounds current = none) :
    ∀ i < rounds, IPv4.format (current + Fin.ofNat _ i) ∈ used := by
  induction rounds generalizing current with
  | zero => exact fun i hi => absurd hi (Nat.not_lt_zero i)
  | succ rounds ih =>
    rw [walkNumbers] at h
    split at h
    · split at h
      · rename_i hused
        rintro (_ | i) hi
        · simpa using hused
        · have hnext : current + Fin.ofNat _ (i + 1) = current + 1 + Fin.ofNat _ i := by
            rw [add_assoc]
            congr 1
            ext
            simp [Fin.val_add, add_comm]
          rw [hnext]
          exact ih h i (Nat.lt_of_succ_lt_succ hi)
      · cases h
    · cases h

theorem walkNumbers_ends {rounds : ℕ} (hrounds : used.length < rounds) (hle : rounds ≤ 2 ^ 32)
    (current : IPv4) : walkNumbers used last rounds current ≠ none := by
  intro h
  have hmem := mem_used_of_walkNumbers h
  -- The addresses of the rounds differ, and there are more of them than used ones.
  have hcard := Finset.card_le_card_of_injOn (s := Finset.range rounds) (t := used.toFinset)
    (fun i => IPv4.format (current + Fin.ofNat _ i))
    (fun i hi => List.mem_toFinset.2 (hmem i (Finset.mem_range.1 hi))) (by
      intro i hi j hj heq
      have hi := Finset.mem_range.1 hi
      have hj := Finset.mem_range.1 hj
      have hval := congrArg Fin.val (add_left_cancel (IPv4.format_injective heq))
      rwa [Fin.val_ofNat, Fin.val_ofNat, Nat.mod_eq_of_lt (hi.trans_le hle),
        Nat.mod_eq_of_lt (hj.trans_le hle)] at hval)
  have := used.toFinset_card_le
  rw [Finset.card_range] at hcard
  omega

end Walk

/-! ## Accepted pools -/

def freeAddresses (server first last : IPv4) (assigned : List IPv4) : Set IPv4 :=
  {a | first ≤ a ∧ a ≤ last ∧ a ≠ server ∧ a ∉ assigned}

/-- The configuration and the materials hold these addresses in their usual form. -/
structure Canonical (config : AmneziaWGNodeConfig) (materials : List AmneziaWGMaterialRow)
    (server first last : IPv4) (assigned : List IPv4) : Prop where
  server : config.serverIPv4 = server.format
  first : config.firstClientIPv4 = first.format
  last : config.lastClientIPv4 = last.format
  assigned : materials.map (fun material => material.assignedIPv4) = assigned.map IPv4.format

variable {config : AmneziaWGNodeConfig} {materials : List AmneziaWGMaterialRow}
  {server first last : IPv4} {assigned : List IPv4}

section

variable (h : Canonical config materials server first last assigned)

include h

theorem Canonical.format_mem_used :
    a.format ∈ used config materials ↔ a = server ∨ a ∈ assigned := by
  rw [used, h.server, h.assigned, List.mem_cons, IPv4.format_injective.eq_iff, List.mem_map]
  constructor
  · rintro (rfl | ⟨b, hb, he⟩)
    · exact .inl rfl
    · exact .inr (IPv4.format_injective he ▸ hb)
  · rintro (rfl | ha)
    · exact .inl rfl
    · exact .inr ⟨a, ha, rfl⟩

theorem Canonical.nextAvailableIPv4_eq (hle : first ≤ last) (rounds : ℕ) :
    nextAvailableIPv4 rounds config materials =
      walkNumbers (used config materials) last rounds first := by
  have hpool : ¬ 0 < compareIP (bytes first) (bytes last) :=
    not_lt.2 ((compareIP_bytes_le_iff first last).2 hle)
  rw [nextAvailableIPv4, h.first, h.last, Net.parseIP_format, Net.parseIP_format]
  simp only [Option.bind_some, Net.Addr.to4, if_neg hpool, walk_bytes]

theorem Canonical.first_le_last {L : Library} (hvalid : validateNodeConfig L config = .ok ()) :
    first ≤ last := by
  have hpool := (accepted_of_validateNodeConfig hvalid).pool
  have hparse : ∀ (a : IPv4) (d : String), parseIPv4 (defaultString a.format d) = some a := by
    intro a d
    rw [defaultString, IPv4.trimSpace_format, if_neg a.format_ne_empty, parseIPv4,
      IPv4.trimSpace_format, Net.parseIP_format]
    rfl
  simp only [validateIPv4Pool, withPoolDefaults, h.server, h.first, h.last, hparse] at hpool
  split at hpool
  · cases hpool
  · split at hpool
    · cases hpool
    · split at hpool
      · cases hpool
      · split at hpool
        · cases hpool
        · next hle => exact not_lt.1 hle

end

/-- The loop ends with the smallest free address, or with an error if there is none. -/
def Allocates (config : AmneziaWGNodeConfig) (materials : List AmneziaWGMaterialRow)
    (free : Set IPv4) : Prop :=
  ∃ rounds,
    (∃ a, IsLeast free a ∧ nextAvailableIPv4 rounds config materials = some (.ok a.format)) ∨
    (free = ∅ ∧ nextAvailableIPv4 rounds config materials =
      some (.error "amneziawg IPv4 pool exhausted"))

/-- The rounds that the service allows are enough. -/
theorem Canonical.nextAvailableIPv4_ends (h : Canonical config materials server first last assigned)
    (hle : first ≤ last) (hfew : materials.length + 2 ≤ 2 ^ 32) :
    nextAvailableIPv4 (materials.length + 2) config materials =
      some (LazGate.nextAvailableIPv4 config materials) := by
  have hends : nextAvailableIPv4 (materials.length + 2) config materials ≠ none := by
    rw [h.nextAvailableIPv4_eq hle]
    exact walkNumbers_ends (by simp [used]) hfew first
  obtain ⟨r, hr⟩ := Option.ne_none_iff_exists'.1 hends
  rw [LazGate.nextAvailableIPv4, hr, Option.getD_some]

/-- For every accepted pool the smallest free address is found, or the pool is found exhausted, just
when it does not end with the last address there is or has a free address. -/
theorem allocation_finds_smallest_iff (L : Library) (config : AmneziaWGNodeConfig)
    (materials : List AmneziaWGMaterialRow) (server first last : IPv4) (assigned : List IPv4)
    (hvalid : validateNodeConfig L config = .ok ())
    (h : Canonical config materials server first last assigned) :
    Allocates config materials (freeAddresses server first last assigned) ↔
      last.val ≠ 2 ^ 32 - 1 ∨ (freeAddresses server first last assigned).Nonempty := by
  have hle := h.first_le_last hvalid
  rcases (freeAddresses server first last assigned).eq_empty_or_nonempty with hempty | hne
  · rw [hempty, or_iff_left Set.not_nonempty_empty]
    constructor
    · rintro ⟨rounds, ⟨a, ha, -⟩ | ⟨-, hrun⟩⟩ hlast
      · exact absurd ha.1 (Set.notMem_empty a)
      · rw [h.nextAvailableIPv4_eq hle] at hrun
        exact walkNumbers_never_exhausts hlast _ _ hrun
    · intro hlast
      refine ⟨last.val + 1 - first.val, .inr ⟨rfl, ?_⟩⟩
      rw [h.nextAvailableIPv4_eq hle]
      refine walkNumbers_exhausts ?_ ?_ fun b hb hbl => ?_
      · have := last.isLt
        omega
      · have := Fin.le_def.1 hle
        omega
      · have hb' : b ∉ freeAddresses server first last assigned := by
          rw [hempty]
          exact Set.notMem_empty b
        rw [h.format_mem_used]
        by_contra hused
        rw [not_or] at hused
        exact hb' ⟨hb, hbl, hused⟩
  · refine iff_of_true ?_ (.inr hne)
    obtain ⟨a, ha, hmin⟩ := WellFounded.has_min (wellFounded_lt (α := IPv4)) _ hne
    have hleast : IsLeast (freeAddresses server first last assigned) a :=
      ⟨ha, fun b hb => not_lt.1 (hmin b hb)⟩
    refine ⟨a.val - first.val + 1, .inl ⟨a, hleast, ?_⟩⟩
    rw [h.nextAvailableIPv4_eq hle]
    refine walkNumbers_finds ha.1 ha.2.1 ?_ fun b hb hba => ?_
    · rw [h.format_mem_used, not_or]
      exact ha.2.2
    · rw [h.format_mem_used]
      by_contra hused
      rw [not_or] at hused
      exact hmin b ⟨hb, hba.le.trans ha.2.1, hused⟩ hba

def poolNode (cidr server first last : String) : AmneziaWGNodeConfig :=
  { plainNode "" with
    clientIPv4CIDR := cidr
    serverIPv4 := server
    firstClientIPv4 := first
    lastClientIPv4 := last }

def clientAt (address : String) : AmneziaWGMaterialRow :=
  { plainMaterial with assignedIPv4 := address }

theorem allocation_finds_second :
    validateNodeConfig bareLibrary (poolNode "10.8.1.0/24" "10.8.1.1" "10.8.1.2" "10.8.1.9") =
        .ok () ∧
      Allocates (poolNode "10.8.1.0/24" "10.8.1.1" "10.8.1.2" "10.8.1.9") [clientAt "10.8.1.2"]
        (freeAddresses 0x0a080101 0x0a080102 0x0a080109 [0x0a080102]) := by
  have hvalid : validateNodeConfig bareLibrary
      (poolNode "10.8.1.0/24" "10.8.1.1" "10.8.1.2" "10.8.1.9") = .ok () := by decide +kernel
  have hcanonical : Canonical (poolNode "10.8.1.0/24" "10.8.1.1" "10.8.1.2" "10.8.1.9")
      [clientAt "10.8.1.2"] 0x0a080101 0x0a080102 0x0a080109 [0x0a080102] := by
    constructor <;> decide +kernel
  exact ⟨hvalid, (allocation_finds_smallest_iff bareLibrary _ _ _ _ _ _ hvalid hcanonical).2
    (.inl (by decide))⟩

/-- The pool is the last address there is, and it is assigned: the walk goes on at the other end of
the address space. -/
theorem allocation_leaves_pool :
    validateNodeConfig bareLibrary
        (poolNode "255.255.255.0/24" "255.255.255.1" "255.255.255.255" "255.255.255.255") =
        .ok () ∧
      freeAddresses 0xffffff01 0xffffffff 0xffffffff [0xffffffff] = ∅ ∧
      nextAvailableIPv4 2
        (poolNode "255.255.255.0/24" "255.255.255.1" "255.255.255.255" "255.255.255.255")
        [clientAt "255.255.255.255"] = some (.ok "0.0.0.0") := by
  refine ⟨by decide +kernel, ?_, by decide +kernel⟩
  refine Set.eq_empty_of_forall_notMem ?_
  rintro a ⟨hfirst, hlast, -, hassigned⟩
  exact hassigned (List.mem_singleton.2 (le_antisymm hlast hfirst))

end LazGate.Allocation

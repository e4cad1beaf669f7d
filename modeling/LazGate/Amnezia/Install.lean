import LazGate.IPv4

/-!
# Installing an AmneziaWG node

`internal/server/provisioning/awg.go`: the check of the host's routes before the first step.
-/

namespace LazGate

variable {n : Network}

namespace Network

/-- `Overlaps`: the shorter of the two prefixes, of both addresses. -/
def overlaps (n m : Network) : Bool :=
  n == m || min n.bits m.bits == 0 ||
    (Network.mk n.addr (min n.bits m.bits) (min_le_of_left_le n.bits_le)).masked ==
      (Network.mk m.addr (min n.bits m.bits) (min_le_of_left_le n.bits_le)).masked

theorem contains_of_le {a : IPv4} {bits : ℕ} (hle : bits ≤ n.bits) (h : n.contains a = true) :
    (Network.mk n.addr bits (hle.trans n.bits_le)).contains a = true := by
  have hbits := n.bits_le
  have hsize : 2 ^ (32 - bits) = n.size * 2 ^ (n.bits - bits) := by
    rw [size, ← pow_add]
    congr 1
    omega
  simp only [contains, beq_iff_eq] at h ⊢
  rw [size, hsize, ← Nat.div_div_eq_div_mul, ← Nat.div_div_eq_div_mul, h]

theorem overlaps_of_contains {m : Network} {a : IPv4} (hn : n.contains a = true)
    (hm : m.contains a = true) : n.overlaps m = true := by
  have hn' := contains_of_le (min_le_left n.bits m.bits) hn
  have hm' := contains_of_le (min_le_right n.bits m.bits) hm
  simp only [contains, beq_iff_eq] at hn' hm'
  have haddr : n.addr.val / 2 ^ (32 - min n.bits m.bits) =
      m.addr.val / 2 ^ (32 - min n.bits m.bits) := hn'.symm.trans hm'
  have hmasked : (Network.mk n.addr (min n.bits m.bits) (min_le_of_left_le n.bits_le)).masked =
      (Network.mk m.addr (min n.bits m.bits) (min_le_of_left_le n.bits_le)).masked := by
    simp only [masked, first, size, haddr]
  simp [overlaps, hmasked]

end Network

namespace Provisioning

/-! ## The routes of the host -/

/-- The loop over the destinations. A destination that is no IPv4 prefix is passed over, and so is
an IPv6 one, which does not overlap an IPv4 subnet. -/
def checkRoutes (subnet : Network) : List String → Except String Unit
  | [] => .ok ()
  | dst :: rest =>
    if dst = "" ∨ dst = "default" then checkRoutes subnet rest
    else
      match Network.parse dst with
      | none => checkRoutes subnet rest
      | some network =>
        if network.overlaps subnet then
          .error "AWG_INTERFACE_FAILED: VPN subnet overlaps an existing route"
        else checkRoutes subnet rest

/-- `checkAWGRoutes`; `decode` gives the destinations in the answer of the host. -/
def checkAWGRoutes (decode : String → Option (List String)) (raw : String) (subnet : Network) :
    Except String Unit :=
  match decode raw with
  | none => .error "invalid host route response"
  | some dsts => checkRoutes subnet dsts

/-- A destination that the `ip` tool prints. -/
inductive Destination where
  | default
  | network (n : Network)
  | host (a : IPv4)
  deriving DecidableEq

namespace Destination

def text : Destination → String
  | .default => "default"
  | .network n => n.format
  | .host a => a.format

/-- The addresses that a route other than the default one is for. -/
def contains : Destination → IPv4 → Bool
  | .default, _ => false
  | .network n, a => n.contains a
  | .host b, a => a == b

theorem network_text_ne (n : Network) : n.format ≠ "" ∧ n.format ≠ "default" := by
  have hslash : '/' ∈ n.format.toList := by simp [Network.format]
  refine ⟨fun h => ?_, fun h => ?_⟩ <;>
    exact absurd (h ▸ hslash) (by decide)

end Destination

/-- The check looks at the networks alone. -/
theorem checkRoutes_text {subnet : Network} {listed : List Destination} :
    checkRoutes subnet (listed.map Destination.text) = .ok () ↔
      ∀ n, .network n ∈ listed → n.overlaps subnet = false := by
  induction listed with
  | nil => simp [checkRoutes]
  | cons d rest ih =>
    rw [List.map_cons, checkRoutes]
    cases d with
    | default => simpa [Destination.text] using ih
    | host a =>
      have hparse : Network.parse a.format = none := by
        rw [Network.parse, List.splitOn_eq_singleton (Network.slash_not_mem_format a)]
      simpa [Destination.text, hparse] using ih
    | network n =>
      rw [Destination.text, if_neg (not_or.2 (Destination.network_text_ne n)), Network.parse_format]
      cases hover : n.overlaps subnet with
      | true => simp [hover]
      | false => simpa [hover] using ih

/-- A subnet that passes the check has no address that a listed destination contains, just when no
host of the subnet is listed by its address alone or the check does not pass. -/
theorem accepted_subnet_free_iff (decode : String → Option (List String)) (raw : String)
    (subnet : Network) (listed : List Destination)
    (hdecode : decode raw = some (listed.map Destination.text)) :
    (checkAWGRoutes decode raw subnet = .ok () →
      ∀ d ∈ listed, d ≠ .default → ∀ a, subnet.contains a = true → d.contains a = false) ↔
    (∀ a, .host a ∈ listed → subnet.contains a = false) ∨
      ∃ n, .network n ∈ listed ∧ n.overlaps subnet = true := by
  have hcheck : checkAWGRoutes decode raw subnet = .ok () ↔
      ¬ ∃ n, .network n ∈ listed ∧ n.overlaps subnet = true := by
    rw [checkAWGRoutes, hdecode]
    simpa using checkRoutes_text
  rw [hcheck, or_comm, or_iff_not_imp_left]
  refine imp_congr_right fun hpasses => ⟨fun h a ha => ?_, fun h d hd hdefault a ha => ?_⟩
  · by_contra hin
    simpa [Destination.contains] using h _ ha nofun a (by simpa using hin)
  · by_contra hcontains
    rw [Bool.not_eq_false] at hcontains
    cases d with
    | default => exact hdefault rfl
    | host b =>
      obtain rfl : a = b := by simpa [Destination.contains] using hcontains
      rw [h a hd] at ha
      cases ha
    | network n => exact hpasses ⟨n, hd, Network.overlaps_of_contains hcontains ha⟩

def lan : Network := ⟨⟨10 * 2 ^ 24 + 8 * 2 ^ 16, by decide⟩, 16, by decide⟩

def vpn : Network := ⟨⟨10 * 2 ^ 24 + 9 * 2 ^ 16 + 2 ^ 8, by decide⟩, 24, by decide⟩

theorem accepted_subnet_beside_lan :
    checkAWGRoutes (fun _ => some [lan.format]) "" vpn = .ok () ∧
      ∀ a, vpn.contains a = true → lan.contains a = false := by
  have hok : checkAWGRoutes (fun _ => some [lan.format]) "" vpn = .ok () := by decide +kernel
  refine ⟨hok, (accepted_subnet_free_iff _ "" vpn [.network lan] rfl).2 (.inl fun a ha => ?_) hok _
    List.mem_cons_self nofun⟩
  cases List.mem_singleton.1 ha

/-- A host that is listed by its address is passed over. -/
theorem accepted_subnet_with_host :
    ∃ a : IPv4, checkAWGRoutes (fun _ => some [(Destination.host a).text]) "" vpn = .ok () ∧
      vpn.contains a = true ∧ (Destination.host a).contains a = true :=
  ⟨⟨10 * 2 ^ 24 + 9 * 2 ^ 16 + 2 ^ 8 + 5, by decide⟩, by decide +kernel, by decide +kernel,
    by decide +kernel⟩

end Provisioning

end LazGate

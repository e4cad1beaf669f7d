import LazGate.Text

/-!
# The durable peer snapshot of an AmneziaWG agent

The `[Peer]` sections of the snapshot file and the two edits that
`internal/legacy/agent/amneziawg/tools/snapshot.go` makes to them.
-/

namespace LazGate

structure PeerOptions where
  allowedIPs : Option (List String) := none
  endpoint : String := ""
  persistentKeepalive : ℕ := 0
  presharedKey : String := ""
  deriving DecidableEq

/-- A `[Peer]` section. -/
structure SnapshotPeer where
  publicKey : String
  allowedIPs : Option String := none
  presharedKey : Option String := none
  endpoint : Option String := none
  persistentKeepalive : Option String := none
  deriving DecidableEq

def singleLine (values : List String) : Except String Unit :=
  if values.any fun v => v.toList.any fun c => c == '\r' || c == '\n' || c == '\x00' then
    .error "native AWG config values must be single-line"
  else .ok ()

/-- The keys of a section that `persistPeer` sets. -/
def SnapshotPeer.update (peer : SnapshotPeer) (opts : PeerOptions) : SnapshotPeer :=
  { peer with
    allowedIPs := (opts.allowedIPs.map (String.intercalate ",")).or peer.allowedIPs
    presharedKey := if opts.presharedKey ≠ "" then some (trimSpace opts.presharedKey)
      else peer.presharedKey
    endpoint := if opts.endpoint ≠ "" then some opts.endpoint else peer.endpoint
    persistentKeepalive := if opts.persistentKeepalive > 0 then
      some (toString opts.persistentKeepalive) else peer.persistentKeepalive }

@[simp] theorem SnapshotPeer.publicKey_update (peer : SnapshotPeer) (opts : PeerOptions) :
    (peer.update opts).publicKey = peer.publicKey := rfl

/-- The edit of `persistPeer`. Removing takes out every section of the key; setting updates its
only section or adds one, and refuses a file that has two. -/
def persistPeer (publicKey : String) (opts : PeerOptions) (remove : Bool)
    (peers : List SnapshotPeer) : Except String (List SnapshotPeer) := do
  singleLine [publicKey, opts.presharedKey, opts.endpoint]
  if remove then
    return peers.filter fun p => p.publicKey ≠ publicKey
  match peers.countP fun p => p.publicKey = publicKey with
  | 0 => return peers ++ [SnapshotPeer.update ⟨publicKey, none, none, none, none⟩ opts]
  | 1 => return peers.map fun p => if p.publicKey = publicKey then p.update opts else p
  | _ => throw "duplicate public key in native AWG snapshot"

/-- The edit of `PrunePeers`. -/
def prunePeers (keep : Std.ExtTreeSet String) (peers : List SnapshotPeer) : List SnapshotPeer :=
  peers.filter fun p => keep.contains p.publicKey

/-! ## The keys of the snapshot -/

def peerKeys (peers : List SnapshotPeer) : List String := peers.map (·.publicKey)

variable {peers : List SnapshotPeer} {key : String}

theorem mem_peerKeys :
    key ∈ peerKeys peers ↔ ∃ p ∈ peers, p.publicKey = key := List.mem_map

@[simp] theorem mem_peerKeys_prunePeers {keep : Std.ExtTreeSet String} :
    key ∈ peerKeys (prunePeers keep peers) ↔ key ∈ peerKeys peers ∧ key ∈ keep := by
  simp only [mem_peerKeys, prunePeers, List.mem_filter, Std.ExtTreeSet.contains_iff_mem]
  constructor
  · rintro ⟨p, ⟨hp, hk⟩, rfl⟩
    exact ⟨⟨p, hp, rfl⟩, hk⟩
  · rintro ⟨⟨p, hp, rfl⟩, hk⟩
    exact ⟨p, ⟨hp, hk⟩, rfl⟩

variable {peers' : List SnapshotPeer} {publicKey : String} {opts : PeerOptions}

theorem mem_peerKeys_remove (h : persistPeer publicKey opts true peers = .ok peers') :
    key ∈ peerKeys peers' ↔ key ∈ peerKeys peers ∧ key ≠ publicKey := by
  unfold persistPeer at h
  rcases hs : singleLine [publicKey, opts.presharedKey, opts.endpoint] with e | ⟨⟩
  · rw [hs] at h
    cases h
  rw [hs] at h
  cases h
  simp only [mem_peerKeys, List.mem_filter, decide_eq_true_eq]
  constructor
  · rintro ⟨p, ⟨hp, hk⟩, rfl⟩
    exact ⟨⟨p, hp, rfl⟩, hk⟩
  · rintro ⟨⟨p, hp, rfl⟩, hk⟩
    exact ⟨p, ⟨hp, hk⟩, rfl⟩

theorem peerKeys_map_update (publicKey : String) (opts : PeerOptions) (peers : List SnapshotPeer) :
    peerKeys (peers.map fun p => if p.publicKey = publicKey then p.update opts else p) =
      peerKeys peers := by
  unfold peerKeys
  rw [List.map_map]
  refine List.map_congr_left fun p _ => ?_
  simp only [Function.comp_apply]
  split <;> rfl

theorem mem_peerKeys_set (h : persistPeer publicKey opts false peers = .ok peers') :
    key ∈ peerKeys peers' ↔ key = publicKey ∨ key ∈ peerKeys peers := by
  unfold persistPeer at h
  rcases hs : singleLine [publicKey, opts.presharedKey, opts.endpoint] with e | ⟨⟩
  · rw [hs] at h
    cases h
  rw [hs] at h
  simp only [Bool.false_eq_true, if_false] at h
  match hc : peers.countP fun p => p.publicKey = publicKey with
  | 0 =>
    rw [hc] at h
    cases h
    simp [peerKeys, or_comm, eq_comm]
  | 1 =>
    rw [hc] at h
    cases h
    rw [peerKeys_map_update]
    refine ⟨.inr, ?_⟩
    rintro (rfl | hk)
    · obtain ⟨p, hp, hpk⟩ := List.countP_pos_iff.1 (hc ▸ Nat.one_pos)
      exact mem_peerKeys.2 ⟨p, hp, by simpa using hpk⟩
    · exact hk
  | n + 2 =>
    rw [hc] at h
    cases h

end LazGate
